import NestedSql.Proofs.Influence.Statements
import NestedSql.Proofs.Ordering.OwnJoins

/-!
# Values and output names do not reach the text of statements

Two requests that differ in the values they compare with and in their output names are compiled
side by side, each with a set of variables. Step by step both compilations fail with the same
fault, or both go on with conditions, joins and selects that are alike. So they end with the same
fault or with plans whose texts differ only in the literals of renamed keys, and the plans of one
request for several sets of variables have the same text.
-/

namespace NestedSql

open Sql (Condition Expr Join Select Summary Table)

/-- Both results are the same fault, or both are values that are related. -/
inductive Agree {ε α β : Type} (related : α → β → Prop) : Except ε α → Except ε β → Prop
  | error (fault : ε) : Agree related (.error fault) (.error fault)
  | ok {first : α} {second : β} : related first second → Agree related (.ok first) (.ok second)

namespace Agree

variable {ε α β γ δ : Type} {related : α → β → Prop} {after : γ → δ → Prop}

theorem same (result : Except ε α) : Agree (· = ·) result result := by
  cases result with
  | error fault => exact .error fault
  | ok value => exact .ok rfl

theorem bind {first : Except ε α} {second : Except ε β} {next : α → Except ε γ}
    {later : β → Except ε δ} (h : Agree related first second)
    (hnext : ∀ a b, related a b → Agree after (next a) (later b)) :
    Agree after (first >>= next) (second >>= later) := by
  cases h with
  | error fault => exact .error fault
  | ok h => exact hnext _ _ h

/-- A step that both compilations take alike. -/
theorem bind_same {result : Except ε α} {next : α → Except ε γ} {later : α → Except ε δ}
    (hnext : ∀ a, Agree after (next a) (later a)) :
    Agree after (result >>= next) (result >>= later) :=
  (same result).bind fun a _ h => h ▸ hnext a

/-- What every step keeps, a fold keeps. -/
theorem foldlM {items : γ → δ → Prop} {step : α → γ → Except ε α} {other : β → δ → Except ε β}
    (hstep : ∀ a b item changed, related a b → items item changed →
      Agree related (step a item) (other b changed)) {list : List γ} {later : List δ}
    (h : List.Forall₂ items list later) {a : α} {b : β} (hstart : related a b) :
    Agree related (list.foldlM step a) (later.foldlM other b) := by
  induction h generalizing a b with
  | nil => exact .ok hstart
  | cons hitem _ ih =>
    rw [List.foldlM_cons, List.foldlM_cons]
    exact (hstep _ _ _ _ hstart hitem).bind fun _ _ hnext => ih hnext

theorem optionMapM {alike : Renaming → γ → γ → Prop} {result : Renaming → α → α → Prop}
    {step other : γ → Except ε α} (hstep : ∀ {names : Renaming} {part changed : γ},
      alike names part changed → Agree (result names) (step part) (other changed))
    {names : Renaming} {part changed : Option γ} (h : OptionAlike alike names part changed) :
    Agree (OptionAlike result names) (part.mapM step) (changed.mapM other) := by
  cases h with
  | none => exact .ok .none
  | @some names part changed h =>
    have hparts := hstep h
    rw [Option.mapM_some, Option.mapM_some]
    generalize step part = first at hparts ⊢
    generalize other changed = second at hparts ⊢
    cases hparts with
    | error fault => exact .error fault
    | ok h => exact .ok (.some h)

end Agree

theorem OptionAlike.map {α β : Type} {alike : Renaming → α → α → Prop}
    {result : Renaming → β → β → Prop} {names : Renaming} {f g : α → β} {part other : Option α}
    (h : OptionAlike alike names part other)
    (hf : ∀ {names : Renaming} {first second : α}, alike names first second →
      result names (f first) (g second)) :
    OptionAlike result names (part.map f) (other.map g) := by
  cases h with
  | none => exact .none
  | some h => exact .some (hf h)

theorem OptionAlike.isSome_eq {α : Type} {alike : Renaming → α → α → Prop} {names : Renaming}
    {part other : Option α} (h : OptionAlike alike names part other) :
    part.isSome = other.isSome := by
  cases h <;> rfl

/-- Both sets bind the variable, or neither does. -/
def BoundAlike (first second : VariableSet) (name : String) : Prop :=
  (Entries.get? name first).isSome = (Entries.get? name second).isSome

namespace Compile

variable {schema : Schema} {relationships : Entries Relationship} {first second : VariableSet}

/-! ## Filters -/

theorem comparedColumn_eq {target other : ComparisonTarget} (h : target.Alike other) :
    comparedColumn target = comparedColumn other := by
  cases h with
  | column name hpath => cases hpath <;> rfl
  | rootColumn name => rfl

theorem comparedValue_agrees {value other : ComparisonValue} (h : value.Alike other)
    (hbound : ∀ name ∈ value.variables, BoundAlike first second name) :
    Agree (fun _ _ => True) (comparedValue ⟨schema, relationships, first⟩ value)
      (comparedValue ⟨schema, relationships, second⟩ other) := by
  cases h with
  | scalar value other => exact .ok trivial
  | column h => exact .error _
  | named name =>
    have hname := hbound name (List.mem_singleton_self name)
    rw [comparedValue, comparedValue, Context.boundValue, Context.boundValue]
    dsimp only
    rw [BoundAlike] at hname
    cases hf : Entries.get? name first with
    | none =>
      rw [hf, Option.isSome_none] at hname
      rw [Option.isNone_iff_eq_none.mp (Option.isSome_eq_false_iff.mp hname.symm)]
      exact .error _
    | some value =>
      rw [hf, Option.isSome_some] at hname
      obtain ⟨other, hs⟩ := Option.isSome_iff_exists.mp hname.symm
      rw [hs]
      exact .ok trivial

theorem compare_same (column : Sql.ColumnRef) (operator : BinaryOperator) (shape : ParamShape)
    (value other : Param) :
    (Condition.compare column operator shape value).Same
      (.compare column operator shape other) := by
  have hbind : (shape.bind value).Same (shape.bind other) := by
    cases shape <;> exact ⟨rfl, rfl⟩
  exact (Statement.Same.refl _).append hbind

theorem comparison_agrees (scope : Scope) {target other : ComparisonTarget} (operator : String)
    {value changed : ComparisonValue} (htarget : target.Alike other) (hvalue : value.Alike changed)
    (hbound : ∀ name ∈ value.variables, BoundAlike first second name) :
    Agree Condition.Same
      (comparison ⟨schema, relationships, first⟩ scope target operator value)
      (comparison ⟨schema, relationships, second⟩ scope other operator changed) := by
  rw [comparison, comparison, comparedColumn_eq htarget]
  refine Agree.bind_same fun operator => Agree.bind_same fun column => Agree.bind_same fun type =>
    Agree.bind_same fun shape => (comparedValue_agrees hvalue hbound).bind ?_
  intro param otherParam _
  exact .ok (compare_same _ operator shape param otherParam)

theorem junction_same (connective : Sql.Connective) {parts others : List Condition}
    (h : List.Forall₂ Condition.Same parts others) :
    (junction connective parts).Same (junction connective others) := by
  cases h with
  | nil => exact .refl _
  | cons hpart hparts =>
    exact (Statement.Same.joined (Sql.renderAll_same (.cons hpart hparts))).parenthesized

theorem sameAll_refl (conditions : List Condition) :
    List.Forall₂ Condition.Same conditions conditions :=
  List.forall₂_same.mpr fun condition _ => .refl condition

theorem group_same {part other : Condition} (h : part.Same other) :
    (Condition.group part).Same (.group other) :=
  Statement.Same.parenthesized h

theorem existsIn_same (table : Table) {conditions others : List Condition}
    (h : List.Forall₂ Condition.Same conditions others) :
    (Condition.existsIn table conditions).Same (.existsIn table others) :=
  ((Statement.Same.refl _).append (.joined (Sql.renderAll_same h))).append (.refl _)

mutual

/-- Filters that are alike compile to conditions with the same text. -/
theorem predicate_agrees : (scope : Scope) → (filter : Expression) → {other : Expression} →
    filter.Alike other → (∀ name ∈ filter.variables, BoundAlike first second name) →
    Agree Condition.Same (predicate ⟨schema, relationships, first⟩ scope filter)
      (predicate ⟨schema, relationships, second⟩ scope other)
  | scope, .and parts, _, .and h, hbound => by
    rw [predicate, predicate]
    exact (predicates_agree scope parts h hbound).bind fun _ _ h => .ok (junction_same .and h)
  | scope, .or parts, _, .or h, hbound => by
    rw [predicate, predicate]
    exact (predicates_agree scope parts h hbound).bind fun _ _ h => .ok (junction_same .or h)
  | scope, .not part, _, .not h, hbound => by
    rw [predicate, predicate]
    exact (predicate_agrees scope part h hbound).bind fun _ _ h =>
      .ok ((Statement.Same.refl _).append (Statement.Same.parenthesized h))
  | scope, .unary target .isNull, _, .unary _ h, _ => by
    rw [predicate, predicate, comparedColumn_eq h]
    exact Agree.bind_same fun column => Agree.bind_same fun type => .ok (.refl _)
  | scope, .binary target operator value, _, .binary _ htarget hvalue, hbound => by
    rw [predicate, predicate]
    exact comparison_agrees scope operator htarget hvalue fun name hname =>
      hbound name (List.mem_append_right _ hname)
  | scope, .existsIn (.unrelated collection) filter, _, .existsIn _ h, _ => by
    rw [predicate, predicate]
    exact .error _
  | scope, .existsIn (.related name) filter, _, .existsIn _ h, hbound => by
    rw [predicate, predicate]
    refine Agree.bind_same fun relationship => Agree.bind_same fun storage =>
      (existsCondition_agrees _ filter h hbound).bind ?_
    intro condition other hcondition
    exact .ok (existsIn_same _ (.cons hcondition (sameAll_refl _)))

theorem existsCondition_agrees : (scope : Scope) → (filter : Option Expression) →
    {other : Option Expression} → FilterAlike filter other →
    (∀ name ∈ filterVariables filter, BoundAlike first second name) →
    Agree Condition.Same (existsCondition ⟨schema, relationships, first⟩ scope filter)
      (existsCondition ⟨schema, relationships, second⟩ scope other)
  | scope, none, _, .none, _ => by
    rw [existsCondition, existsCondition]
    exact .ok (.refl _)
  | scope, some filter, _, .some h, hbound => by
    rw [existsCondition, existsCondition]
    exact (predicate_agrees scope filter h hbound).bind fun _ _ h => .ok (group_same h)

theorem predicates_agree : (scope : Scope) → (parts : List Expression) →
    {others : List Expression} → PartsAlike parts others →
    (∀ name ∈ partsVariables parts, BoundAlike first second name) →
    Agree (List.Forall₂ Condition.Same)
      (predicates ⟨schema, relationships, first⟩ scope parts)
      (predicates ⟨schema, relationships, second⟩ scope others)
  | scope, [], _, .nil, _ => by
    rw [predicates, predicates]
    exact .ok .nil
  | scope, part :: parts, _, .cons hpart hparts, hbound => by
    rw [predicates, predicates]
    refine (predicate_agrees scope part hpart fun name hname =>
      hbound name (List.mem_append_left _ hname)).bind fun _ _ hcondition => ?_
    exact (predicates_agree scope parts hparts fun name hname =>
      hbound name (List.mem_append_right _ hname)).bind fun _ _ hconditions =>
        .ok (.cons hcondition hconditions)

end

theorem nodeConditions_agree (scope : Scope) (parent : Option Parent)
    {filter other : Option Expression} (h : FilterAlike filter other)
    (hbound : ∀ name ∈ filterVariables filter, BoundAlike first second name) :
    Agree (List.Forall₂ Condition.Same)
      (nodeConditions ⟨schema, relationships, first⟩ scope parent filter)
      (nodeConditions ⟨schema, relationships, second⟩ scope parent other) := by
  cases h with
  | none =>
    rw [nodeConditions_none, nodeConditions_none]
    exact .ok (sameAll_refl _)
  | some h =>
    rw [nodeConditions_some, nodeConditions_some]
    exact (predicate_agrees scope _ h hbound).bind fun _ _ hcondition =>
      .ok (List.rel_append (sameAll_refl _) (.cons (group_same hcondition) .nil))

/-! ## Orders -/

theorem isJoined_eq {ordering other : Ordering} (h : ordering.Same other) (tableAlias : String) :
    ordering.isJoined tableAlias = other.isJoined tableAlias := by
  have hany : ∀ {joins others : List Join}, List.Forall₂ Join.Same joins others →
      (joins.any fun join => join.table.tableAlias == tableAlias) =
        others.any fun join => join.table.tableAlias == tableAlias := by
    intro joins others hjoins
    induction hjoins with
    | nil => rfl
    | cons hjoin _ ih => rw [List.any_cons, List.any_cons, hjoin.table, ih]
  exact hany h.joins

theorem hopConditions_agree (source target : Scope) (relationship : Relationship)
    {filter other : Option Expression} (h : FilterAlike filter other)
    (hbound : ∀ name ∈ filterVariables filter, BoundAlike first second name) :
    Agree (List.Forall₂ Condition.Same)
      (hopConditions ⟨schema, relationships, first⟩ source target relationship filter)
      (hopConditions ⟨schema, relationships, second⟩ source target relationship other) := by
  have hjoined : ∀ {conditions others : List Condition},
      List.Forall₂ Condition.Same conditions others →
      List.Forall₂ Condition.Same (if conditions.isEmpty then [.one] else conditions)
        (if others.isEmpty then [.one] else others) := by
    intro conditions others h
    cases h with
    | nil => exact sameAll_refl _
    | cons hcondition hconditions => exact .cons hcondition hconditions
  unfold hopConditions
  cases h with
  | none => exact .ok (hjoined (sameAll_refl _))
  | some h =>
    exact (predicate_agrees target _ h hbound).bind fun _ _ hcondition =>
      .ok (hjoined (List.rel_append (sameAll_refl _) (.cons (group_same hcondition) .nil)))

/-- Hops along the same relationship through filters that are alike. -/
structure HopsAlike (first second : VariableSet) (hop other : PathElement) : Prop where
  relationship : hop.relationship = other.relationship
  filter : FilterAlike hop.predicate other.predicate
  bound : ∀ name ∈ filterVariables hop.predicate, BoundAlike first second name

theorem hops_alike : {path other : List PathElement} → PathAlike path other →
    (∀ name ∈ pathVariables path, BoundAlike first second name) →
      List.Forall₂ (HopsAlike first second) path other
  | [], _, .nil, _ => .nil
  | ⟨_, _⟩ :: _, _, .cons _ hfilter hpath, hbound =>
    .cons ⟨rfl, hfilter, fun name hname => hbound name (List.mem_append_left _ hname)⟩
      (hops_alike hpath fun name hname => hbound name (List.mem_append_right _ hname))

/-- The same scope, reached over joins with the same text. -/
def Reached (state other : Scope × Ordering) : Prop := state.1 = other.1 ∧ state.2.Same other.2

theorem followHop_agrees {state later : Scope × Ordering} {hop other : PathElement}
    (hstate : Reached state later) (hhop : HopsAlike first second hop other) :
    Agree Reached (followHop ⟨schema, relationships, first⟩ state hop)
      (followHop ⟨schema, relationships, second⟩ later other) := by
  obtain ⟨scope, ordering⟩ := state
  obtain ⟨later, changed⟩ := later
  obtain ⟨hscope, hordering⟩ := hstate
  dsimp only at hscope hordering
  subst hscope
  rw [followHop, followHop, hhop.relationship]
  dsimp only
  refine Agree.bind_same fun relationship => ?_
  rw [isJoined_eq hordering]
  split
  · exact .ok ⟨rfl, hordering⟩
  · refine Agree.bind_same fun storage =>
      (hopConditions_agree _ _ relationship hhop.filter hhop.bound).bind fun _ _ hconditions => ?_
    exact .ok ⟨rfl, List.rel_append hordering.joins (.cons ⟨rfl, hconditions⟩ .nil),
      hordering.keys⟩

theorem addElement_agrees (scope : Scope) {ordering changed : Ordering}
    {element other : OrderByElement} (hordering : ordering.Same changed)
    (h : element.Alike other)
    (hbound : ∀ name ∈ element.target.variables, BoundAlike first second name) :
    Agree Ordering.Same (addElement ⟨schema, relationships, first⟩ scope ordering element)
      (addElement ⟨schema, relationships, second⟩ scope changed other) := by
  obtain ⟨direction, target⟩ := element
  obtain ⟨direction', target'⟩ := other
  obtain ⟨hdirection, htarget⟩ := h
  dsimp only at hdirection htarget
  subst hdirection
  rw [addElement, addElement]
  cases htarget with
  | column name hpath =>
    have hstart : Reached (scope, ordering) (scope, changed) := ⟨rfl, hordering⟩
    have hstep := fun state later hop other =>
      @followHop_agrees schema relationships first second state later hop other
    refine (Agree.foldlM hstep (hops_alike hpath hbound) hstart).bind ?_
    rintro ⟨target, ordering⟩ ⟨target', changed⟩ ⟨htarget, hreached⟩
    dsimp only at htarget hreached
    subst htarget
    refine Agree.bind_same fun type => Agree.bind_same fun strategy => .ok ⟨hreached.joins, ?_⟩
    rw [Ordering.addKey, Ordering.addKey, hreached.keys]
  | singleColumnAggregate column function hpath => exact .error _
  | starCountAggregate hpath => exact .error _

theorem ordering_agrees (scope : Scope) {orderBy other : Option OrderBy}
    (h : Option.Rel OrderBy.Alike orderBy other)
    (hbound : ∀ name ∈ orderVariables orderBy, BoundAlike first second name) :
    Agree Ordering.Same (ordering ⟨schema, relationships, first⟩ scope orderBy)
      (ordering ⟨schema, relationships, second⟩ scope other) := by
  cases h with
  | none => exact .ok ⟨.nil, rfl⟩
  | @some orderBy other h =>
    have hknown : ∀ element ∈ orderBy.elements, ∀ name ∈ element.target.variables,
        BoundAlike first second name := fun element helement name hname =>
      hbound name (List.mem_flatMap.mpr ⟨element, helement, hname⟩)
    have helements := (List.forall₂_and_left _ _).mpr ⟨hknown, h⟩
    have hempty : Ordering.Same .empty .empty := ⟨.nil, rfl⟩
    exact Agree.foldlM (fun _ _ _ _ hordering helement =>
      addElement_agrees scope hordering helement.2 helement.1) helements hempty

/-! ## Aggregates and groups -/

theorem summaries_agree (tableAlias : String) {names : Renaming}
    {entries others : Entries Aggregate} (h : AggregatesAlike names entries others) :
    Agree (SummariesAlike names) (summaries entries tableAlias) (summaries others tableAlias) := by
  induction h with
  | nil => exact .ok .nil
  | cons old new aggregate _ ih =>
    rw [summaries, summaries, List.mapM_cons, List.mapM_cons]
    simp only [bind_assoc, pure_bind]
    exact Agree.bind_same fun summary => ih.bind fun _ _ houtputs =>
      .ok (.cons old new summary houtputs)

theorem dimension_eq (scope : Scope) {value other : Dimension} (h : value.Alike other) :
    dimension ⟨schema, relationships, first⟩ scope value =
      dimension ⟨schema, relationships, second⟩ scope other := by
  cases h with
  | column name hpath => cases hpath <;> rfl

theorem dimensions_eq (scope : Scope) {dimensions others : List Dimension}
    (h : List.Forall₂ Dimension.Alike dimensions others) :
    dimensions.mapM (dimension ⟨schema, relationships, first⟩ scope) =
      others.mapM (dimension ⟨schema, relationships, second⟩ scope) := by
  induction h with
  | nil => rfl
  | cons hdimension _ ih =>
    rw [List.mapM_cons, List.mapM_cons, dimension_eq scope hdimension, ih]

theorem groups_agree (scope : Scope) (table : Table) {conditions changed : List Condition}
    (hconditions : List.Forall₂ Condition.Same conditions changed) {names : Renaming}
    {grouping other : Grouping} (h : grouping.Alike names other) :
    Agree (Select.Alike names)
      (groups ⟨schema, relationships, first⟩ scope table conditions grouping)
      (groups ⟨schema, relationships, second⟩ scope table changed other) := by
  rw [groups, groups, dimensions_eq scope h.dimensions, h.limit, h.offset]
  exact Agree.bind_same fun dimensions => (summaries_agree _ h.aggregates).bind
    fun _ _ houtputs => .ok (groupsSelect_alike table hconditions _ dimensions houtputs)

theorem aggregatesPart_agrees {rows others : Rows} (hrows : rows.Same others) {names : Renaming}
    {aggregates changed : Option (Entries Aggregate)}
    (h : OptionAlike AggregatesAlike names aggregates changed) :
    Agree (OptionAlike Select.Alike names) (aggregatesPart rows aggregates)
      (aggregatesPart others changed) := by
  rw [aggregatesPart, aggregatesPart]
  apply Agree.optionMapM _ h
  intro names entries changed h
  exact (summaries_agree subqueryAlias h).bind fun _ _ houtputs =>
    .ok (aggregatesSelect_alike hrows houtputs)

theorem groupsPart_agrees (scope : Scope) (table : Table) {conditions changed : List Condition}
    (hconditions : List.Forall₂ Condition.Same conditions changed) {names : Renaming}
    {grouped others : Option Grouping} (h : OptionAlike Grouping.Alike names grouped others) :
    Agree (OptionAlike Select.Alike names)
      (grouped.mapM (groups ⟨schema, relationships, first⟩ scope table conditions))
      (others.mapM (groups ⟨schema, relationships, second⟩ scope table changed)) := by
  apply Agree.optionMapM _ h
  intro names grouping other h
  exact groups_agree scope table hconditions h

theorem checkRequested_eq (hasFields hasAggregates : Bool) {names : Renaming}
    {groups others : Option Grouping} (h : OptionAlike Grouping.Alike names groups others) :
    checkRequested hasFields hasAggregates groups =
      checkRequested hasFields hasAggregates others := by
  cases h with
  | none => rfl
  | some h =>
    rw [checkRequested, checkRequested]
    dsimp only
    rw [checkGrouping, checkGrouping, h.predicate, h.orderBy]
    rfl

/-! ## Nodes -/

theorem columnExpr_agrees (scope : Scope) (name : String) :
    Agree (Expr.Alike []) (columnExpr ⟨schema, relationships, first⟩ scope name)
      (columnExpr ⟨schema, relationships, second⟩ scope name) := by
  rw [columnExpr, columnExpr]
  exact Agree.bind_same fun type => Agree.bind_same fun strategy => .ok (.refl _)

theorem RowAlike.isSome_eq {names : Renaming} {fields others : Option (List (String × Field))}
    (h : RowAlike names fields others) : fields.isSome = others.isSome := by
  cases h <;> rfl

mutual

/-- Queries that are alike compile to nodes that are alike. -/
theorem node_agrees : (collection : String) → (path : AliasPath) → (parent : Option Parent) →
    (query : Query) → {names : PartRenaming} → {other : Query} → query.Alike names other →
    (∀ name ∈ query.variables, BoundAlike first second name) →
    Agree (Node.Alike names) (node ⟨schema, relationships, first⟩ collection path parent query)
      (node ⟨schema, relationships, second⟩ collection path parent other)
  | collection, path, parent, ⟨fields, aggregates, limit, offset, orderBy, filter, groups?⟩, names,
      ⟨others, otherAggregates, _, _, otherOrder, otherFilter, otherGroups⟩,
      .of _ _ hrow haggregates horder hfilter hgroups, hbound => by
    have hleft := fun name hname => hbound name (List.mem_append_left _ hname)
    have hinner := fun name hname => hleft name (List.mem_append_left _ hname)
    rw [node, node, RowAlike.isSome_eq hrow, haggregates.isSome_eq,
      checkRequested_eq _ _ hgroups]
    refine Agree.bind_same fun _ => Agree.bind_same fun storage => ?_
    refine (nodeConditions_agree _ parent hfilter fun name hname =>
      hleft name (List.mem_append_right _ hname)).bind fun conditions changed hconditions => ?_
    refine (ordering_agrees _ horder fun name hname =>
      hinner name (List.mem_append_right _ hname)).bind fun ordering other hordering => ?_
    have hrows : Rows.Same
        ⟨⟨storage, path.tableAlias⟩, conditions, ordering, ⟨limit, offset⟩⟩
        ⟨⟨storage, path.tableAlias⟩, changed, other, ⟨limit, offset⟩⟩ :=
      ⟨rfl, hconditions, hordering, rfl⟩
    refine (rowObject_agrees _ path fields hrow fun name hname =>
      hinner name (List.mem_append_left _ hname)).bind fun _ _ hobject => ?_
    refine (aggregatesPart_agrees hrows haggregates).bind fun _ _ haggregated => ?_
    refine (groupsPart_agrees _ _ hconditions hgroups).bind fun _ _ hgrouped => ?_
    exact .ok ⟨hobject.map (rowsSelect_alike hrows), haggregated, hgrouped⟩

theorem rowObject_agrees : (scope : Scope) → (path : AliasPath) →
    (fields : Option (List (String × Field))) → {names : Renaming} →
    {others : Option (List (String × Field))} → RowAlike names fields others →
    (∀ name ∈ rowVariables fields, BoundAlike first second name) →
    Agree (OptionAlike Expr.Alike names)
      (rowObject ⟨schema, relationships, first⟩ scope path fields)
      (rowObject ⟨schema, relationships, second⟩ scope path others)
  | scope, path, none, _, _, .none, _ => by
    rw [rowObject, rowObject]
    exact .ok .none
  | scope, path, some fields, _, _, .some h, hbound => by
    rw [rowObject, rowObject]
    exact (fieldMembers_agree scope path fields h hbound).bind fun _ _ hmembers =>
      .ok (.some (Sql.object_alike hmembers))

theorem fieldMembers_agree : (scope : Scope) → (path : AliasPath) →
    (fields : List (String × Field)) → {names : Renaming} → {others : List (String × Field)} →
    FieldsAlike names fields others →
    (∀ name ∈ fieldsVariables fields, BoundAlike first second name) →
    Agree (Sql.MembersAlike names)
      (fieldMembers ⟨schema, relationships, first⟩ scope path fields)
      (fieldMembers ⟨schema, relationships, second⟩ scope path others)
  | scope, path, [], _, _, .nil, _ => by
    rw [fieldMembers, fieldMembers]
    exact .ok .nil
  | scope, path, (old, field) :: fields, _, _, .cons _ new hfield hfields, hbound => by
    rw [fieldMembers, fieldMembers]
    refine (fieldExpr_agrees scope path field hfield fun name hname =>
      hbound name (List.mem_append_left _ hname)).bind fun _ _ hvalue => ?_
    exact (fieldMembers_agree scope path fields hfields fun name hname =>
      hbound name (List.mem_append_right _ hname)).bind fun _ _ hmembers =>
        .ok (.renamed old new hvalue hmembers)

theorem fieldExpr_agrees : (scope : Scope) → (path : AliasPath) → (field : Field) →
    {names : Renaming} → {other : Field} → field.Alike names other →
    (∀ name ∈ field.variables, BoundAlike first second name) →
    Agree (Expr.Alike names) (fieldExpr ⟨schema, relationships, first⟩ scope path field)
      (fieldExpr ⟨schema, relationships, second⟩ scope path other)
  | scope, path, .column name, _, _, .column _, _ => by
    rw [fieldExpr, fieldExpr]
    exact columnExpr_agrees scope name
  | scope, path, .relationship name query, _, _, .relationship _ h, hbound => by
    rw [fieldExpr, fieldExpr]
    exact Agree.bind_same fun relationship =>
      (node_agrees relationship.target (path.child relationship.target)
        (some ⟨relationship, scope.tableAlias⟩) query h hbound).bind fun _ _ hchild =>
          .ok (childExpr_alike hchild)

end

end Compile

/-! ## Requests -/

/-- Requests over the same collection and relationships with queries that are alike. -/
structure Request.Alike (names : PartRenaming) (first second : Request) : Prop where
  collection : first.collection = second.collection
  query : first.query.Alike names second.query
  relationships : first.relationships = second.relationships

/-- Plans with the same members, whose statements are the same but for the renamed keys. -/
structure Plan.SameBut (names : PartRenaming) (first second : Plan) : Prop where
  rows : OptionAlike Statement.SameBut names.rows first.rows second.rows
  aggregates : OptionAlike Statement.SameBut names.aggregates first.aggregates second.aggregates
  groups : OptionAlike Statement.SameBut names.groups first.groups second.groups

/-- The texts of a plan. -/
def Plan.texts (plan : Plan) : List (Option String) :=
  [plan.rows.map Statement.sql, plan.aggregates.map Statement.sql, plan.groups.map Statement.sql]

theorem ofNode_sameBut {names : PartRenaming} {result other : Compile.Node}
    (h : result.Alike names other) : (Plan.ofNode result).SameBut names (.ofNode other) where
  rows := h.rows.map fun h => (Sql.renderRoot_alike h).sameBut
  aggregates := h.aggregates.map fun h => (Sql.renderRoot_alike h).sameBut
  groups := h.groups.map fun h => (Sql.renderRoot_alike h).sameBut

theorem compile_agrees (schema : Schema) {names : PartRenaming} {request other : Request}
    (h : request.Alike names other) {first second : VariableSet}
    (hbound : ∀ name ∈ request.query.variables, BoundAlike first second name) :
    Agree (Plan.SameBut names) (request.compile schema first) (other.compile schema second) := by
  rw [Request.compile, Request.compile, h.collection, h.relationships]
  exact (Compile.node_agrees _ _ none _ h.query hbound).bind fun _ _ hnode =>
    .ok (ofNode_sameBut hnode)

theorem texts_eq_of_isKept {names : PartRenaming} (hkept : names.IsKept) {first second : Plan}
    (h : first.SameBut names second) : first.texts = second.texts := by
  have hpart : ∀ {names : Renaming} {part other : Option Statement}, names.IsKept →
      OptionAlike Statement.SameBut names part other →
        part.map Statement.sql = other.map Statement.sql := by
    intro names part other hkept h
    cases h with
    | none => rfl
    | some h => rw [Option.map_some, Option.map_some, h.sql_eq hkept]
  rw [Plan.texts, Plan.texts, hpart hkept.rows h.rows, hpart hkept.aggregates h.aggregates,
    hpart hkept.groups h.groups]

theorem plans_eq_ok {schema : Schema} {request : Request} {plans : List Plan}
    (h : request.plans schema = .ok plans) :
    List.Forall₂ (fun bindings plan => request.compile schema bindings = .ok plan)
      request.variableSets plans := by
  rw [Request.plans] at h
  generalize request.variableSets = sets at h ⊢
  induction sets generalizing plans with
  | nil =>
    obtain rfl := Compile.pure_eq_ok.mp h
    exact .nil
  | cons bindings sets ih =>
    obtain ⟨plan, hplan, others, hothers, rfl⟩ := Compile.mapM_cons_eq_ok.mp h
    exact .cons hplan (ih hothers)

/-- Requests that differ in values and output names fail alike or have plans that differ only in
the literals of these names, and the plans of one request have the same texts for all sets that
bind the same of its variables. -/
theorem values_and_names_kept_out_of_sql (schema : Schema) :
    (∀ (request other : Request) (names : PartRenaming) (first second : VariableSet),
      request.Alike names other →
      (∀ name ∈ request.query.variables, BoundAlike first second name) →
        Agree (Plan.SameBut names) (request.compile schema first) (other.compile schema second)) ∧
      ∀ (request : Request) (plans : List Plan), request.plans schema = .ok plans →
        plans.length = request.variableSets.length ∧
          ∀ first ∈ request.variableSets.zip plans, ∀ second ∈ request.variableSets.zip plans,
            (∀ name ∈ request.query.variables, BoundAlike first.1 second.1 name) →
              first.2.texts = second.2.texts := by
  refine ⟨fun request other names first second h hbound => compile_agrees schema h hbound, ?_⟩
  intro request plans hplans
  obtain ⟨hlength, hall⟩ := List.forall₂_iff_zip.mp (plans_eq_ok hplans)
  refine ⟨hlength.symm, ?_⟩
  intro first hfirst second hsecond hbound
  obtain ⟨names, hquery, hkept⟩ := Query.Alike.refl request.query
  have hagree := compile_agrees schema ⟨rfl, hquery, rfl⟩ hbound
  rw [hall hfirst, hall hsecond] at hagree
  cases hagree with
  | ok h => exact texts_eq_of_isKept hkept h

/-- Buyers whose names match a pattern, with their number. -/
def buyerQuery (name count : String) (pattern : Json) : Query :=
  ⟨some [(name, .column "name")], some [(count, .starCount)], none, none, none,
    some (.binary (.column "name" []) "_like" (.scalar pattern)), none⟩

/-- The orders of one number with their buyers, under chosen names, for two sets of variables. -/
def labelledRequest (buyer name count last : String) (pattern : Json) : Request where
  collection := "orders"
  query := ⟨some [(buyer, .relationship "buyer" (buyerQuery name count pattern))],
    none, none, none, none, some (.binary (.column "id" []) "_eq" (.variable "id")),
    some ⟨[.column "buyer_id" []], [(last, .singleColumn "id" "_max")], none, none, none, none⟩⟩
  relationships := Compile.tradeContext.relationships
  bindings := some [[("id", .null)], [("id", .string "' OR 1 = 1"), ("other", .bool true)]]

theorem labelledRequest_alike (pattern other : Json) :
    (labelledRequest "buyer" "name" "count" "last" pattern).Alike
      ⟨[("buyer", "it's"), ("name", ""), ("count", "?")], [], [("last", "\"")]⟩
      (labelledRequest "it's" "" "?" "\"" other) := by
  have hchild : (buyerQuery "name" "count" pattern).Alike ⟨[("name", "")], [("count", "?")], []⟩
      (buyerQuery "" "?" other) :=
    .of none none (.some (.cons "name" "" (.column "name") .nil))
      (.some (.cons "count" "?" .starCount .nil)) .none
      (.some (.binary "_like" (.column "name" .nil) (.scalar pattern other))) .none
  refine ⟨rfl, ?_, rfl⟩
  exact .of none none (.some (.cons "buyer" "it's" (.relationship "buyer" hchild) .nil)) .none .none
    (.some (.binary "_eq" (.column "id" .nil) (.named "id")))
    (.some ⟨.cons (.column "buyer_id" .nil) .nil,
      .cons "last" "\"" (.singleColumn "id" "_max") .nil, rfl, rfl, rfl, rfl⟩)

theorem labelledRequest_values_and_names_kept_out :
    (∃ plan other, (labelledRequest "buyer" "name" "count" "last" .null).compile
        Compile.tradeContext.schema [("id", .null)] = .ok plan ∧
      (labelledRequest "it's" "" "?" "\"" (.string "'?")).compile Compile.tradeContext.schema
        [("id", .string "'")] = .ok other ∧
      plan.SameBut ⟨[("buyer", "it's"), ("name", ""), ("count", "?")], [], [("last", "\"")]⟩
        other) ∧
      ∃ first second, (labelledRequest "buyer" "name" "count" "last" .null).plans
          Compile.tradeContext.schema = .ok [first, second] ∧ first.texts = second.texts := by
  have hbound : ∀ {first second : VariableSet}, BoundAlike first second "id" → ∀ name ∈
      (labelledRequest "buyer" "name" "count" "last" .null).query.variables,
        BoundAlike first second name := by
    intro first second h name hname
    obtain rfl := List.mem_singleton.mp hname
    exact h
  constructor
  · have hplan : (labelledRequest "buyer" "name" "count" "last" .null).compile
      Compile.tradeContext.schema [("id", .null)] = .ok _ := rfl
    have hother : (labelledRequest "it's" "" "?" "\"" (.string "'?")).compile
      Compile.tradeContext.schema [("id", .string "'")] = .ok _ := rfl
    have hagree := (values_and_names_kept_out_of_sql Compile.tradeContext.schema).1 _ _ _
      [("id", .null)] [("id", .string "'")] (labelledRequest_alike .null (.string "'?"))
      (hbound rfl)
    rw [hplan, hother] at hagree
    cases hagree with
    | ok h => exact ⟨_, _, hplan, hother, h⟩
  · have hplans : (labelledRequest "buyer" "name" "count" "last" .null).plans
      Compile.tradeContext.schema = .ok [_, _] := rfl
    refine ⟨_, _, hplans, ?_⟩
    exact ((values_and_names_kept_out_of_sql Compile.tradeContext.schema).2 _ _ hplans).2
      ([("id", .null)], _) (List.mem_cons_self) ([("id", .string "' OR 1 = 1"),
        ("other", .bool true)], _) (List.mem_cons_of_mem _ List.mem_cons_self) (hbound rfl)

end NestedSql
