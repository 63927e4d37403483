import NestedSql.Proofs.Compile.Steps

/-!
# Joins that sort keys read

Every hop of a path asks for a join: on the storage of its target, under the mapping of its
relationship and its filter. Joins are told apart by their aliases, and an alias only spells the
names of the collections on a path. So a path that is spelled as an earlier one gets no join: its
key reads what the earlier path asked for. What the keys of an order read is determined here from
the paths, and with it the orders in which every key reads the join of its own path.
-/

namespace NestedSql.Compile

open Sql (Condition Join SortColumn SortKey)

/-! ## Joins that paths ask for -/

/-- The scope behind a hop. -/
def hopScope (context : Context) (scope : Scope) (hop : PathElement) : Option Scope :=
  (Entries.get? hop.relationship context.relationships).map fun relationship =>
    scope.hop relationship.target

/-- The scope at the end of a path. -/
def pathScope (context : Context) (scope : Scope) (path : List PathElement) : Option Scope :=
  path.foldlM (hopScope context) scope

/-- The filter of a hop, if there is one, as a condition on its target. -/
def filterConditions (context : Context) (target : Scope) :
    Option Expression → Option (List Condition)
  | none => some []
  | some filter => (predicate context target filter).toOption.map fun part => [.group part]

/-- The join that a hop asks for: the storage of its target, under the mapping of its relationship
from the alias of the scope before it and its filter. -/
def hopJoin (context : Context) (source : Scope) (hop : PathElement) : Option Join := do
  let relationship ← Entries.get? hop.relationship context.relationships
  let storage ← context.schema.storage? relationship.target
  let target := source.hop relationship.target
  let filters ← filterConditions context target hop.predicate
  return ⟨⟨storage, target.tableAlias⟩,
    orOne (joinConditions relationship source.tableAlias target.tableAlias ++ filters)⟩

/-- The join that the last hop of a path asks for. -/
def ownJoin (context : Context) (scope : Scope) (path : List PathElement) : Option Join := do
  let source ← pathScope context scope path.dropLast
  hopJoin context source (← path.getLast?)

/-- The alias that a path spells. -/
def pathAlias (context : Context) (scope : Scope) (path : List PathElement) : Option String :=
  (pathScope context scope path).map Scope.tableAlias

/-- The first of some paths that spells an alias. -/
def firstSpelled (context : Context) (scope : Scope) (paths : List (List PathElement))
    (tableAlias : String) : Option (List PathElement) :=
  paths.find? fun path => pathAlias context scope path == some tableAlias

/-- The joins that stand under an alias. -/
def joinsUnder (joins : List Join) (tableAlias : String) : List Join :=
  joins.filter fun join => join.table.tableAlias == tableAlias

/-! ## Paths that an order walks -/

/-- A path up to each of its hops. -/
def beginnings : List PathElement → List (List PathElement)
  | [] => []
  | hop :: path => [hop] :: (beginnings path).map (hop :: ·)

/-- The path of a target. -/
def targetPath : OrderByTarget → List PathElement
  | .column _ path => path
  | .singleColumnAggregate _ _ path => path
  | .starCountAggregate path => path

/-- The paths of the targets up to each of their hops, in the order in which they are walked. -/
def walkedPaths (elements : List OrderByElement) : List (List PathElement) :=
  elements.flatMap fun element => beginnings (targetPath element.target)

/-- The column that a target names, under the alias that its path spells. -/
def targetColumn (context : Context) (scope : Scope) : OrderByTarget → Option SortColumn
  | .column name path => (pathScope context scope path).map fun target =>
      .column (target.column name)
  | _ => none

section Paths

variable {context : Context} {scope : Scope}

theorem mem_beginnings {path first : List PathElement} :
    first ∈ beginnings path ↔ first ≠ [] ∧ first <+: path := by
  induction path generalizing first with
  | nil =>
    rw [beginnings, List.prefix_nil]
    constructor
    · exact nofun
    · rintro ⟨hne, heq⟩
      exact absurd heq hne
  | cons hop path ih =>
    rw [beginnings, List.mem_cons, List.mem_map]
    constructor
    · rintro (rfl | ⟨rest, hrest, rfl⟩)
      · exact ⟨List.cons_ne_nil _ _, ⟨path, rfl⟩⟩
      · exact ⟨List.cons_ne_nil _ _, List.cons_prefix_cons.mpr ⟨rfl, (ih.mp hrest).2⟩⟩
    · rintro ⟨hne, hbegins⟩
      cases first with
      | nil => exact absurd rfl hne
      | cons other rest =>
        obtain ⟨rfl, hrest⟩ := List.cons_prefix_cons.mp hbegins
        by_cases hnil : rest = []
        · exact .inl (by rw [hnil])
        · exact .inr ⟨rest, ih.mpr ⟨hnil, hrest⟩, rfl⟩

theorem beginnings_concat (path : List PathElement) (hop : PathElement) :
    beginnings (path ++ [hop]) = beginnings path ++ [path ++ [hop]] := by
  induction path with
  | nil => rfl
  | cons first path ih =>
    rw [List.cons_append, beginnings, ih, beginnings, List.map_append]
    rfl

theorem walkedPaths_concat (elements : List OrderByElement) (element : OrderByElement) :
    walkedPaths (elements ++ [element]) =
      walkedPaths elements ++ beginnings (targetPath element.target) := by
  rw [walkedPaths, List.flatMap_append, List.flatMap_singleton]
  rfl

theorem pathScope_concat (path : List PathElement) (hop : PathElement) :
    pathScope context scope (path ++ [hop]) =
      (pathScope context scope path).bind fun source => hopScope context source hop := by
  unfold pathScope
  rw [List.foldlM_append]
  simp only [List.foldlM_cons, List.foldlM_nil, bind_pure]
  rfl

theorem ownJoin_concat {path : List PathElement} {source : Scope} (hop : PathElement)
    (hsource : pathScope context scope path = some source) :
    ownJoin context scope (path ++ [hop]) = hopJoin context source hop := by
  unfold ownJoin
  rw [List.dropLast_concat, List.getLast?_concat, hsource]
  rfl

theorem hopJoin_alias {source : Scope} {hop : PathElement} {join : Join}
    (h : hopJoin context source hop = some join) :
    (hopScope context source hop).map Scope.tableAlias = some join.table.tableAlias := by
  unfold hopJoin at h
  obtain ⟨relationship, hrelationship, h⟩ := Option.bind_eq_some_iff.mp h
  obtain ⟨storage, -, h⟩ := Option.bind_eq_some_iff.mp h
  obtain ⟨filters, -, h⟩ := Option.bind_eq_some_iff.mp h
  obtain rfl := Option.some.inj h
  rw [hopScope, hrelationship]
  rfl

/-- The join that a path asks for stands under the alias that the path spells. -/
theorem ownJoin_alias {path : List PathElement} {join : Join}
    (h : ownJoin context scope path = some join) :
    pathAlias context scope path = some join.table.tableAlias := by
  obtain ⟨source, hsource, hrest⟩ := Option.bind_eq_some_iff.mp h
  obtain ⟨hop, hlast, hjoin⟩ := Option.bind_eq_some_iff.mp hrest
  obtain ⟨before, rfl⟩ := List.getLast?_eq_some_iff.mp hlast
  rw [List.dropLast_concat] at hsource
  unfold pathAlias
  rw [pathScope_concat, hsource]
  exact hopJoin_alias hjoin

theorem firstSpelled_spec {paths : List (List PathElement)} {tableAlias : String}
    {first : List PathElement} (h : firstSpelled context scope paths tableAlias = some first) :
    first ∈ paths ∧ pathAlias context scope first = some tableAlias := by
  have hspelled := List.find?_some h
  exact ⟨List.mem_of_find?_eq_some h, eq_of_beq hspelled⟩

theorem mem_joinsUnder {joins : List Join} {tableAlias : String} {join : Join} :
    join ∈ joinsUnder joins tableAlias ↔ join ∈ joins ∧ join.table.tableAlias = tableAlias := by
  unfold joinsUnder
  rw [List.mem_filter, beq_iff_eq]

theorem firstSpelled_concat (paths : List (List PathElement)) (path : List PathElement)
    (tableAlias : String) :
    firstSpelled context scope (paths ++ [path]) tableAlias =
      (firstSpelled context scope paths tableAlias).or
        (if pathAlias context scope path = some tableAlias then some path else none) := by
  rw [firstSpelled, List.find?_append, List.find?_singleton]
  simp only [beq_iff_eq]
  rfl

theorem joinsUnder_concat (joins : List Join) (join : Join) (tableAlias : String) :
    joinsUnder (joins ++ [join]) tableAlias = joinsUnder joins tableAlias ++
      if join.table.tableAlias = tableAlias then [join] else [] := by
  rw [joinsUnder, List.filter_append]
  simp only [List.filter_cons, List.filter_nil, beq_iff_eq]
  rfl

end Paths

/-! ## Compiled orders -/

/-- Under an alias stands the join that the first path spelled so asks for, and no other. -/
structure Booked (context : Context) (scope : Scope) (paths : List (List PathElement))
    (joins : List Join) : Prop where
  absent : ∀ {tableAlias}, firstSpelled context scope paths tableAlias = none →
    joinsUnder joins tableAlias = []
  bound : ∀ {tableAlias first}, firstSpelled context scope paths tableAlias = some first →
    ∃ join, ownJoin context scope first = some join ∧ joinsUnder joins tableAlias = [join]

section Steps

variable {context : Context} {scope : Scope} {paths : List (List PathElement)}
  {path : List PathElement} {joins : List Join} {ordering next : Ordering}

theorem isJoined_iff {tableAlias : String} :
    ordering.isJoined tableAlias = true ↔ joinsUnder ordering.joins tableAlias ≠ [] := by
  unfold Ordering.isJoined joinsUnder
  rw [List.any_eq_true, ne_eq, List.filter_eq_nil_iff]
  simp only [Classical.not_forall, Classical.not_not, exists_prop]

theorem filterConditions_of_hop {source target : Scope} {relationship : Relationship}
    {filter : Option Expression} {conditions : List Condition}
    (h : hopConditions context source target relationship filter = .ok conditions) :
    ∃ filters, filterConditions context target filter = some filters ∧
      orOne (joinConditions relationship source.tableAlias target.tableAlias ++ filters) =
        conditions := by
  cases filter with
  | none =>
    refine ⟨[], rfl, ?_⟩
    rw [List.append_nil]
    exact hopConditions_none_eq_ok.mp h
  | some filter =>
    obtain ⟨part, hpart, hconditions⟩ := hopConditions_some_eq_ok.mp h
    refine ⟨[.group part], ?_, hconditions⟩
    rw [filterConditions, hpart]
    rfl

/-- What a hop can do: find its alias joined, or add the join it asks for. -/
theorem followHop_spec {source target : Scope} {hop : PathElement}
    (h : followHop context (source, ordering) hop = .ok (target, next)) :
    hopScope context source hop = some target ∧ next.keys = ordering.keys ∧
      ((joinsUnder ordering.joins target.tableAlias ≠ [] ∧ next.joins = ordering.joins) ∨
        (joinsUnder ordering.joins target.tableAlias = [] ∧
          ∃ join, hopJoin context source hop = some join ∧
            next.joins = ordering.joins ++ [join])) := by
  obtain ⟨relationship, hfound, h⟩ := followHop_eq_ok.mp h
  by_cases hjoined : ordering.isJoined (source.hop relationship.target).tableAlias = true
  · rw [if_pos hjoined] at h
    cases h
    refine ⟨?_, rfl, .inl ⟨isJoined_iff.mp hjoined, rfl⟩⟩
    rw [hopScope, hfound]
    rfl
  · rw [if_neg hjoined] at h
    obtain ⟨storage, hstorage, conditions, hconditions, h⟩ := h
    cases h
    obtain ⟨filters, hfilters, hsame⟩ := filterConditions_of_hop hconditions
    refine ⟨?_, rfl, .inr ⟨Classical.not_not.mp (mt isJoined_iff.mpr hjoined), _, ?_, rfl⟩⟩
    · rw [hopScope, hfound]
      rfl
    · rw [hopJoin, hfound]
      simp only [Option.bind_eq_bind, Option.bind_some, hstorage, hfilters, ← hsame]
      rfl

theorem Booked.start : Booked context scope [] [] where
  absent := fun _ => rfl
  bound := nofun

/-- A path whose alias is joined already books nothing. -/
theorem Booked.known (h : Booked context scope paths joins) {tableAlias : String}
    (hspelled : pathAlias context scope path = some tableAlias)
    (hjoined : joinsUnder joins tableAlias ≠ []) :
    Booked context scope (paths ++ [path]) joins := by
  have hsame : ∀ other, firstSpelled context scope (paths ++ [path]) other =
      firstSpelled context scope paths other := by
    intro other
    rw [firstSpelled_concat, hspelled]
    by_cases heq : tableAlias = other
    · subst heq
      obtain ⟨first, hfirst⟩ := Option.ne_none_iff_exists'.mp (mt h.absent hjoined)
      rw [hfirst]
      rfl
    · rw [if_neg (by simpa using heq), Option.or_none]
  constructor
  · intro other hnone
    exact h.absent (by rwa [← hsame])
  · intro other first hfirst
    exact h.bound (by rwa [← hsame])

/-- A path whose alias is new books the join it asks for. -/
theorem Booked.fresh (h : Booked context scope paths joins) {join : Join}
    (hown : ownJoin context scope path = some join)
    (hnew : joinsUnder joins join.table.tableAlias = []) :
    Booked context scope (paths ++ [path]) (joins ++ [join]) := by
  have hspelled := ownJoin_alias hown
  have hunspelled : firstSpelled context scope paths join.table.tableAlias = none := by
    rw [Option.eq_none_iff_forall_ne_some]
    intro first hfirst
    obtain ⟨other, -, hother⟩ := h.bound hfirst
    rw [hnew] at hother
    cases hother
  constructor
  · intro other hnone
    rw [firstSpelled_concat, hspelled, Option.or_eq_none_iff] at hnone
    have hne : join.table.tableAlias ≠ other := by
      intro heq
      rw [heq, if_pos rfl] at hnone
      cases hnone.2
    rw [joinsUnder_concat, h.absent hnone.1, if_neg hne]
    rfl
  · intro other first hfirst
    rw [firstSpelled_concat, hspelled] at hfirst
    rw [joinsUnder_concat]
    by_cases heq : join.table.tableAlias = other
    · subst heq
      rw [hunspelled, if_pos rfl] at hfirst
      cases hfirst
      exact ⟨join, hown, by rw [hnew, if_pos rfl, List.nil_append]⟩
    · rw [if_neg (by simpa using heq), Option.or_none] at hfirst
      obtain ⟨found, hfound, hunder⟩ := h.bound hfirst
      exact ⟨found, hfound, by rw [hunder, if_neg heq, List.append_nil]⟩

/-- One hop books the path up to it. -/
theorem Booked.step (h : Booked context scope paths ordering.joins) {source target : Scope}
    (hsource : pathScope context scope path = some source) {hop : PathElement}
    (hhop : followHop context (source, ordering) hop = .ok (target, next)) :
    pathScope context scope (path ++ [hop]) = some target ∧
      Booked context scope (paths ++ [path ++ [hop]]) next.joins := by
  obtain ⟨htarget, -, hjoins⟩ := followHop_spec hhop
  have hscope : pathScope context scope (path ++ [hop]) = some target := by
    rw [pathScope_concat, hsource]
    exact htarget
  have hspelled : pathAlias context scope (path ++ [hop]) = some target.tableAlias := by
    rw [pathAlias, hscope]
    rfl
  refine ⟨hscope, ?_⟩
  obtain ⟨hjoined, hsame⟩ | ⟨hnew, join, hjoin, hadded⟩ := hjoins
  · rw [hsame]
    exact h.known hspelled hjoined
  · rw [hadded]
    have hown := (ownJoin_concat hop hsource).trans hjoin
    have halias := Option.some.inj (hspelled.symm.trans (ownJoin_alias hown))
    exact h.fresh hown (halias ▸ hnew)

/-- A path books itself up to each of its hops. -/
theorem Booked.along (h : Booked context scope paths ordering.joins) {target : Scope}
    (hpath : followPath context scope ordering path = .ok (target, next)) :
    pathScope context scope path = some target ∧ next.keys = ordering.keys ∧
      Booked context scope (paths ++ beginnings path) next.joins := by
  have hstep : ∀ taken (state : Scope × Ordering) hop (later : Scope × Ordering),
      followHop context state hop = .ok later →
      (pathScope context scope taken = some state.1 ∧ state.2.keys = ordering.keys ∧
        Booked context scope (paths ++ beginnings taken) state.2.joins) →
      (pathScope context scope (taken ++ [hop]) = some later.1 ∧ later.2.keys = ordering.keys ∧
        Booked context scope (paths ++ beginnings (taken ++ [hop])) later.2.joins) := by
    rintro taken ⟨source, before⟩ hop ⟨target, after⟩ hhop ⟨hsource, hkeys, hbooked⟩
    obtain ⟨htarget, hlater⟩ := hbooked.step hsource hhop
    have hsame := (followHop_spec hhop).2.1
    rw [beginnings_concat, ← List.append_assoc]
    exact ⟨htarget, hsame.trans hkeys, hlater⟩
  exact foldlM_taken hstep path hpath
    ⟨rfl, rfl, by rwa [beginnings, List.append_nil]⟩

/-- The joins are booked by the paths of some targets, and the keys read the columns of these. -/
structure Sorts (context : Context) (scope : Scope) (elements : List OrderByElement)
    (ordering : Ordering) : Prop where
  booked : Booked context scope (walkedPaths elements) ordering.joins
  columns : ordering.keys.map (fun key => some key.column) =
    elements.map fun element => targetColumn context scope element.target

theorem Sorts.element {elements : List OrderByElement} {element : OrderByElement}
    (h : Sorts context scope elements ordering)
    (hadded : addElement context scope ordering element = .ok next) :
    Sorts context scope (elements ++ [element]) next := by
  obtain ⟨direction, target⟩ := element
  cases target with
  | column name path =>
    obtain ⟨⟨target, joined⟩, hpath, type, -, strategy, -, rfl⟩ :=
      addElement_column_eq_ok.mp hadded
    obtain ⟨htarget, hkeys, hbooked⟩ := h.booked.along hpath
    constructor
    · rw [walkedPaths_concat]
      exact hbooked
    · rw [Ordering.addKey, List.map_append, hkeys, h.columns, List.map_append]
      simp only [List.map_cons, List.map_nil, targetColumn, htarget]
      rfl
  | singleColumnAggregate column function path => exact absurd hadded throw_ne_ok
  | starCountAggregate path => exact absurd hadded throw_ne_ok

theorem ordering_sorts {orderBy : OrderBy} {result : Ordering}
    (h : Compile.ordering context scope (some orderBy) = .ok result) :
    Sorts context scope orderBy.elements result := by
  have hstart : Sorts context scope [] .empty := ⟨Booked.start, rfl⟩
  have hstep : ∀ taken state element next, addElement context scope state element = .ok next →
      Sorts context scope taken state → Sorts context scope (taken ++ [element]) next :=
    fun _ _ _ _ hadded hsorts => hsorts.element hadded
  exact foldlM_taken hstep orderBy.elements h hstart

end Steps

/-! ## Keys and their own joins -/

/-- A key that reads a column of a join, which is the only join under its alias. -/
def ReadsJoin (joins : List Join) (name : String) (key : SortKey) (join : Join) : Prop :=
  key.column = .column ⟨join.table.tableAlias, name⟩ ∧
    joinsUnder joins join.table.tableAlias = [join]

/-- Every key behind a path reads the join that its own path asks for, and paths that share a join
are the same. -/
structure OwnJoins (context : Context) (scope : Scope) (elements : List OrderByElement)
    (result : Ordering) : Prop where
  keys : ∀ {i : Nat} {direction name path key},
    elements[i]? = some ⟨direction, .column name path⟩ → path ≠ [] → result.keys[i]? = some key →
      ∃ join, ownJoin context scope path = some join ∧ ReadsJoin result.joins name key join
  shared : ∀ {first second join}, first ∈ walkedPaths elements → second ∈ walkedPaths elements →
    join ∈ result.joins → pathAlias context scope first = some join.table.tableAlias →
      pathAlias context scope second = some join.table.tableAlias → first = second

/-- No two paths that an order walks spell one alias. -/
def Unambiguous (context : Context) (scope : Scope) (elements : List OrderByElement) : Prop :=
  ∀ first ∈ walkedPaths elements, ∀ second ∈ walkedPaths elements, ∀ tableAlias,
    pathAlias context scope first = some tableAlias →
      pathAlias context scope second = some tableAlias → first = second

/-- The first path of an order that is spelled as a path. -/
def firstAlike (context : Context) (scope : Scope) (elements : List OrderByElement)
    (path : List PathElement) : Option (List PathElement) :=
  (pathAlias context scope path).bind (firstSpelled context scope (walkedPaths elements))

section Keys

variable {context : Context} {scope : Scope} {elements : List OrderByElement} {result : Ordering}
  {direction : OrderDirection} {name : String} {path : List PathElement} {key : SortKey} {i : Nat}

theorem mem_walkedPaths {target : OrderByTarget}
    (helement : elements[i]? = some ⟨direction, target⟩) {first : List PathElement}
    (hfirst : first ∈ beginnings (targetPath target)) : first ∈ walkedPaths elements :=
  List.mem_flatMap.mpr ⟨_, List.mem_of_getElem? helement, hfirst⟩

/-- Some path is the first that spells what a walked path spells. -/
theorem firstSpelled_of_mem {paths : List (List PathElement)} (hmem : path ∈ paths)
    {tableAlias : String} (hspelled : pathAlias context scope path = some tableAlias) :
    ∃ first, firstSpelled context scope paths tableAlias = some first := by
  rw [← Option.isSome_iff_exists, firstSpelled, List.find?_isSome]
  exact ⟨path, hmem, by rw [hspelled, beq_self_eq_true]⟩

theorem Sorts.length_keys (h : Sorts context scope elements result) :
    result.keys.length = elements.length := by
  have hlength := congrArg List.length h.columns
  rwa [List.length_map, List.length_map] at hlength

/-- A key reads the column of its target under the alias that the path spells. -/
theorem Sorts.key_column (h : Sorts context scope elements result)
    (helement : elements[i]? = some ⟨direction, .column name path⟩)
    (hkey : result.keys[i]? = some key) :
    ∃ tableAlias, pathAlias context scope path = some tableAlias ∧
      key.column = .column ⟨tableAlias, name⟩ := by
  have hcolumn := congrArg (fun columns => columns[i]?) h.columns
  simp only [List.getElem?_map, helement, hkey, Option.map_some, Option.some_inj] at hcolumn
  obtain ⟨target, htarget, hread⟩ := Option.map_eq_some_iff.mp hcolumn.symm
  refine ⟨target.tableAlias, ?_, hread.symm⟩
  rw [pathAlias, htarget]
  rfl

/-- A key reads the join that the first path spelled as its own asks for. -/
theorem Sorts.reads_first (h : Sorts context scope elements result)
    (helement : elements[i]? = some ⟨direction, .column name path⟩) (hne : path ≠ [])
    (hkey : result.keys[i]? = some key) :
    ∃ first join, firstAlike context scope elements path = some first ∧
      ownJoin context scope first = some join ∧ ReadsJoin result.joins name key join := by
  obtain ⟨tableAlias, hspelled, hread⟩ := h.key_column helement hkey
  have hmem : path ∈ walkedPaths elements :=
    mem_walkedPaths helement (mem_beginnings.mpr ⟨hne, List.prefix_refl path⟩)
  obtain ⟨first, hfirst⟩ := firstSpelled_of_mem hmem hspelled
  obtain ⟨join, hown, hunder⟩ := h.booked.bound hfirst
  have halias : join.table.tableAlias = tableAlias :=
    (mem_joinsUnder.mp (hunder ▸ List.mem_singleton_self join)).2
  refine ⟨first, join, ?_, hown, ?_, ?_⟩
  · rw [firstAlike, hspelled]
    exact hfirst
  · rw [halias]
    exact hread
  · rw [halias]
    exact hunder

theorem ReadsJoin.unique {joins : List Join} {first second : Join}
    (hfirst : ReadsJoin joins name key first) (hsecond : ReadsJoin joins name key second) :
    first = second := by
  have hcolumn := hfirst.1.symm.trans hsecond.1
  have halias : first.table.tableAlias = second.table.tableAlias := by
    injection hcolumn with href
    injection href
  have hunder := hfirst.2
  rw [halias, hsecond.2] at hunder
  exact (List.cons.inj hunder).1.symm

/-- A key reads the join of its own path exactly if the first path spelled so asks for the same. -/
theorem Sorts.reads_own_iff (h : Sorts context scope elements result)
    (helement : elements[i]? = some ⟨direction, .column name path⟩) (hne : path ≠ [])
    (hkey : result.keys[i]? = some key) :
    (∃ join, ownJoin context scope path = some join ∧ ReadsJoin result.joins name key join) ↔
      ∃ first, firstAlike context scope elements path = some first ∧
        ownJoin context scope first = ownJoin context scope path := by
  obtain ⟨first, join, hfirst, hown, hreads⟩ := h.reads_first helement hne hkey
  constructor
  · rintro ⟨other, hother, hread⟩
    refine ⟨first, hfirst, ?_⟩
    rw [hown, hother, hreads.unique hread]
  · rintro ⟨other, hother, hsame⟩
    obtain rfl := Option.some.inj (hfirst.symm.trans hother)
    exact ⟨join, hsame.symm.trans hown, hreads⟩

theorem Sorts.unambiguous_of_shared (h : Sorts context scope elements result)
    (hshared : OwnJoins context scope elements result) : Unambiguous context scope elements := by
  intro first hfirst second hsecond tableAlias hspelled halso
  obtain ⟨known, hknown⟩ := firstSpelled_of_mem hfirst hspelled
  obtain ⟨join, -, hunder⟩ := h.booked.bound hknown
  obtain ⟨hjoin, rfl⟩ := mem_joinsUnder.mp (hunder ▸ List.mem_singleton_self join)
  exact hshared.shared hfirst hsecond hjoin hspelled halso

theorem Sorts.ownJoins_of_unambiguous (h : Sorts context scope elements result)
    (hclear : Unambiguous context scope elements) : OwnJoins context scope elements result := by
  constructor
  · intro i direction name path key helement hne hkey
    apply (h.reads_own_iff helement hne hkey).mpr
    obtain ⟨first, -, hfirst, -, -⟩ := h.reads_first helement hne hkey
    obtain ⟨tableAlias, hspelled, hknown⟩ := Option.bind_eq_some_iff.mp hfirst
    obtain ⟨hmem, halso⟩ := firstSpelled_spec hknown
    have hpath := mem_walkedPaths helement (mem_beginnings.mpr ⟨hne, List.prefix_refl path⟩)
    have hsame := hclear first hmem path hpath tableAlias halso hspelled
    exact ⟨first, hfirst, by rw [hsame]⟩
  · intro first second join hfirst hsecond _ hspelled halso
    exact hclear first hfirst second hsecond _ hspelled halso

end Keys

/-- Every key behind a path reads the join of the first path that is spelled as its own, and its own
join exactly if that path asks for the same. All keys read their own joins, and no join is shared,
exactly if the paths of the order are spelled apart. -/
theorem sort_keys_read_own_joins_iff {context : Context} {scope : Scope} {orderBy : OrderBy}
    {result : Ordering} (h : ordering context scope (some orderBy) = .ok result) :
    result.keys.length = orderBy.elements.length ∧
      (∀ {i : Nat} {direction name path key},
        orderBy.elements[i]? = some ⟨direction, .column name path⟩ → path ≠ [] →
          result.keys[i]? = some key →
            (∃ first join, firstAlike context scope orderBy.elements path = some first ∧
              ownJoin context scope first = some join ∧
                ReadsJoin result.joins name key join) ∧
            ((∃ join, ownJoin context scope path = some join ∧
                ReadsJoin result.joins name key join) ↔
              ∃ first, firstAlike context scope orderBy.elements path = some first ∧
                ownJoin context scope first = ownJoin context scope path)) ∧
      (OwnJoins context scope orderBy.elements result ↔
        Unambiguous context scope orderBy.elements) := by
  have hsorts := ordering_sorts h
  refine ⟨hsorts.length_keys, ?_, hsorts.unambiguous_of_shared, hsorts.ownJoins_of_unambiguous⟩
  intro i direction name path key helement hne hkey
  exact ⟨hsorts.reads_first helement hne hkey, hsorts.reads_own_iff helement hne hkey⟩

/-- Orders of goods, each with the user who buys and the user who sells. -/
def tradeContext : Context where
  schema := (Schema.empty.registerColumns "orders" "main.orders"
    [("id", .named "Int"), ("buyer_id", .named "Int"), ("seller_id", .named "Int")]).registerColumns
      "users" "main.users" [("id", .named "Int"), ("name", .named "String")]
  relationships := [("buyer", ⟨[("buyer_id", "id")], .object, "users"⟩),
    ("seller", ⟨[("seller_id", "id")], .object, "users"⟩)]
  bindings := []

/-- An order by the names behind some relationships. -/
def byNames (relationships : List String) : OrderBy where
  elements := relationships.map fun relationship => ⟨.asc, .column "name" [⟨relationship, none⟩]⟩

theorem buyer_key_reads_own_join :
    ∃ result, ordering tradeContext ⟨"orders", "orders"⟩ (some (byNames ["buyer", "buyer"])) =
        .ok result ∧ result.joins.length = 1 ∧
      OwnJoins tradeContext ⟨"orders", "orders"⟩ (byNames ["buyer", "buyer"]).elements result := by
  have hcompiled : ordering tradeContext ⟨"orders", "orders"⟩ (some (byNames ["buyer", "buyer"])) =
    .ok _ := rfl
  refine ⟨_, hcompiled, rfl, (sort_keys_read_own_joins_iff hcompiled).2.2.mpr ?_⟩
  have hwalked : walkedPaths (byNames ["buyer", "buyer"]).elements =
    [[⟨"buyer", none⟩], [⟨"buyer", none⟩]] := rfl
  rw [Unambiguous, hwalked]
  intro first hfirst second hsecond _ _ _
  simp only [List.mem_cons, List.not_mem_nil, or_false, or_self] at hfirst hsecond
  rw [hfirst, hsecond]

/-- The key behind the seller reads the join of the buyer, and the seller is not joined at all. -/
theorem seller_key_reads_other_join :
    ∃ result, ordering tradeContext ⟨"orders", "orders"⟩ (some (byNames ["buyer", "seller"])) =
        .ok result ∧
      result.joins.map Join.table = [⟨"main.users", "orders_users"⟩] ∧
      result.keys.map SortKey.column = [.column ⟨"orders_users", "name"⟩,
        .column ⟨"orders_users", "name"⟩] ∧
      ¬ OwnJoins tradeContext ⟨"orders", "orders"⟩ (byNames ["buyer", "seller"]).elements
        result := by
  have hcompiled : ordering tradeContext ⟨"orders", "orders"⟩
    (some (byNames ["buyer", "seller"])) = .ok _ := rfl
  refine ⟨_, hcompiled, rfl, rfl, ?_⟩
  intro hown
  obtain ⟨join, hjoin, -, hunder⟩ := hown.keys (i := 1) rfl (List.cons_ne_nil _ _) rfl
  obtain rfl := Option.some.inj hjoin
  have hconditions : [[Condition.equal ⟨"orders", "buyer_id"⟩ ⟨"orders_users", "id"⟩]] =
      [[.equal ⟨"orders", "seller_id"⟩ ⟨"orders_users", "id"⟩]] :=
    congrArg (List.map Join.conditions) hunder
  simp at hconditions

end NestedSql.Compile
