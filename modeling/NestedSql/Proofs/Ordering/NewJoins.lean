import Mathlib.Data.List.Forall2
import NestedSql.Proofs.Ordering.OwnJoins

/-!
# Joins of an order, one by one

The paths that an order walks fall into those that spell an alias first and those that spell one
again. The joins of a compiled order are the joins that the first ones ask for, in the order in
which they are walked. The others leave no trace: what they ask for is not even compiled.
-/

namespace NestedSql.Compile

open Sql (Condition Join)

/-! ## Items in view of those before them -/

section Sift

variable {α β : Type} {keep : List α → α → Bool}

/-- The items that are kept in view of the items before them. -/
@[local simp] def sift (keep : List α → α → Bool) (before : List α) : List α → List α
  | [] => []
  | item :: items =>
    (if keep before item then [item] else []) ++ sift keep (before ++ [item]) items

theorem sift_concat (before items : List α) (item : α) :
    sift keep before (items ++ [item]) =
      sift keep before items ++ if keep (before ++ items) item then [item] else [] := by
  induction items generalizing before with
  | nil => simp
  | cons first items ih =>
    rw [List.cons_append, sift, ih, sift, List.append_assoc, List.append_assoc,
      List.singleton_append]

theorem mem_of_mem_sift {before items : List α} {item : α} (h : item ∈ sift keep before items) :
    item ∈ items := by
  induction items generalizing before with
  | nil => exact h
  | cons first items ih =>
    rw [sift, List.mem_append] at h
    rcases h with h | h
    · split at h
      · rw [List.mem_singleton.mp h]
        exact List.mem_cons_self
      · exact absurd h List.not_mem_nil
    · exact List.mem_cons_of_mem first (ih h)

theorem keep_of_mem_sift {before items : List α} {item : α} (h : item ∈ sift keep before items) :
    ∃ earlier, keep earlier item = true := by
  induction items generalizing before with
  | nil => exact absurd h List.not_mem_nil
  | cons first items ih =>
    rw [sift, List.mem_append] at h
    rcases h with h | h
    · split at h
      · next hkeep =>
        rw [List.mem_singleton.mp h]
        exact ⟨before, hkeep⟩
      · exact absurd h List.not_mem_nil
    · exact ih h

/-- Where the items that are kept contribute nothing, all contributions are those of the others. -/
theorem flatMap_sift {contribution : α → List β} {before items : List α}
    (h : ∀ item ∈ sift keep before items, contribution item = []) :
    items.flatMap contribution =
      (sift (fun before item => !keep before item) before items).flatMap contribution := by
  induction items generalizing before with
  | nil => rfl
  | cons first items ih =>
    rw [sift] at h
    have hrest := ih fun item hitem => h item (List.mem_append_right _ hitem)
    rw [List.flatMap_cons, sift, List.flatMap_append, ← hrest]
    congr 1
    cases hkeep : keep before first with
    | false => simp
    | true =>
      have hfirst := h first (List.mem_append_left _ (by simp [hkeep]))
      simp [hfirst]

end Sift

/-! ## Paths that spell an alias first -/

/-- An earlier path spells the same alias. -/
def spelledBefore (context : Context) (scope : Scope) (before : List (List PathElement))
    (path : List PathElement) : Bool :=
  ((pathAlias context scope path).bind (firstSpelled context scope before)).isSome

/-- The paths that spell their aliases first. -/
def newlySpelled (context : Context) (scope : Scope) (paths : List (List PathElement)) :
    List (List PathElement) :=
  sift (fun before path => !spelledBefore context scope before path) [] paths

/-- The paths whose aliases earlier ones have spelled. -/
def respelled (context : Context) (scope : Scope) (paths : List (List PathElement)) :
    List (List PathElement) :=
  sift (spelledBefore context scope) [] paths

/-- The filter on the last hop of a path. -/
def lastFilter (path : List PathElement) : Option Expression :=
  path.getLast?.bind PathElement.predicate

/-- The filters on the hops of a path, one by one. -/
theorem map_lastFilter_beginnings (path : List PathElement) :
    (beginnings path).map lastFilter = path.map PathElement.predicate := by
  induction path with
  | nil => rfl
  | cons hop path ih =>
    rw [beginnings, List.map_cons, List.map_cons, ← ih, List.map_map]
    congr 1
    apply List.map_congr_left
    intro first hfirst
    have hne := (mem_beginnings.mp hfirst).1
    rw [Function.comp_apply, lastFilter, lastFilter, List.getLast?_cons_of_ne_nil hne]

theorem flatMap_lastFilter_beginnings {β : Type} (contribution : Option Expression → List β)
    (path : List PathElement) :
    ((beginnings path).flatMap fun first => contribution (lastFilter first)) =
      path.flatMap fun hop => contribution hop.predicate := by
  rw [← List.flatMap_map, map_lastFilter_beginnings, List.flatMap_map]

/-! ## Joins of compiled orders -/

/-- The joins are those that the paths which spell an alias first ask for. -/
structure Lists (context : Context) (scope : Scope) (paths : List (List PathElement))
    (joins : List Join) : Prop extends Booked context scope paths joins where
  own : List.Forall₂ (fun path join => ownJoin context scope path = some join)
    (newlySpelled context scope paths) joins

section Steps

variable {context : Context} {scope : Scope} {paths : List (List PathElement)}
  {path : List PathElement} {joins : List Join} {ordering next : Ordering}

theorem Lists.start : Lists context scope [] [] := ⟨Booked.start, .nil⟩

theorem Booked.spelledBefore_iff (h : Booked context scope paths joins) {tableAlias : String}
    (hspelled : pathAlias context scope path = some tableAlias) :
    spelledBefore context scope paths path = true ↔ joinsUnder joins tableAlias ≠ [] := by
  rw [spelledBefore, hspelled, Option.bind_some, Option.isSome_iff_exists]
  constructor
  · rintro ⟨first, hfirst⟩ hnone
    obtain ⟨join, -, hunder⟩ := h.bound hfirst
    rw [hnone] at hunder
    cases hunder
  · intro hjoined
    exact Option.ne_none_iff_exists'.mp (mt h.absent hjoined)

/-- One hop lists the join that the path up to it asks for, if its alias is new. -/
theorem Lists.step (h : Lists context scope paths ordering.joins) {source target : Scope}
    (hsource : pathScope context scope path = some source) {hop : PathElement}
    (hhop : followHop context (source, ordering) hop = .ok (target, next)) :
    pathScope context scope (path ++ [hop]) = some target ∧
      Lists context scope (paths ++ [path ++ [hop]]) next.joins := by
  obtain ⟨hscope, hbooked⟩ := h.toBooked.step hsource hhop
  have hspelled : pathAlias context scope (path ++ [hop]) = some target.tableAlias := by
    rw [pathAlias, hscope]
    rfl
  refine ⟨hscope, hbooked, ?_⟩
  rw [newlySpelled, sift_concat, List.nil_append, ← newlySpelled]
  obtain ⟨-, -, ⟨hjoined, hsame⟩ | ⟨hnew, join, hjoin, hadded⟩⟩ := followHop_spec hhop
  · have hbefore := (h.spelledBefore_iff hspelled).mpr hjoined
    rw [hbefore, Bool.not_true, if_neg Bool.false_ne_true, List.append_nil, hsame]
    exact h.own
  · have hbefore : spelledBefore context scope paths (path ++ [hop]) = false := by
      rw [← Bool.not_eq_true, h.spelledBefore_iff hspelled, ne_eq, Classical.not_not]
      exact hnew
    rw [hbefore, Bool.not_false, if_pos rfl, hadded]
    exact List.rel_append h.own (.cons ((ownJoin_concat hop hsource).trans hjoin) .nil)

theorem Lists.along (h : Lists context scope paths ordering.joins) {target : Scope}
    (hpath : followPath context scope ordering path = .ok (target, next)) :
    Lists context scope (paths ++ beginnings path) next.joins := by
  have hstep : ∀ taken (state : Scope × Ordering) hop (later : Scope × Ordering),
      followHop context state hop = .ok later →
      (pathScope context scope taken = some state.1 ∧
        Lists context scope (paths ++ beginnings taken) state.2.joins) →
      (pathScope context scope (taken ++ [hop]) = some later.1 ∧
        Lists context scope (paths ++ beginnings (taken ++ [hop])) later.2.joins) := by
    rintro taken ⟨source, before⟩ hop ⟨target, after⟩ hhop ⟨hsource, hlists⟩
    rw [beginnings_concat, ← List.append_assoc]
    exact hlists.step hsource hhop
  have hstart : Lists context scope (paths ++ beginnings []) ordering.joins := by
    rwa [beginnings, List.append_nil]
  exact (foldlM_taken hstep path hpath ⟨rfl, hstart⟩).2

/-- The joins of a compiled order, of which every target is a column. -/
theorem ordering_lists {orderBy : OrderBy} {result : Ordering}
    (h : Compile.ordering context scope (some orderBy) = .ok result) :
    Lists context scope (walkedPaths orderBy.elements) result.joins ∧
      ∀ element ∈ orderBy.elements, ∃ name path, element.target = .column name path := by
  have hstep : ∀ taken (state : Ordering) element (later : Ordering),
      addElement context scope state element = .ok later →
      (Lists context scope (walkedPaths taken) state.joins ∧
        ∀ element ∈ taken, ∃ name path, element.target = .column name path) →
      (Lists context scope (walkedPaths (taken ++ [element])) later.joins ∧
        ∀ other ∈ taken ++ [element], ∃ name path, other.target = .column name path) := by
    rintro taken state ⟨direction, target⟩ later hadded ⟨hlists, htargets⟩
    cases target with
    | column name path =>
      obtain ⟨⟨target, joined⟩, hpath, type, -, strategy, -, rfl⟩ :=
        addElement_column_eq_ok.mp hadded
      refine ⟨?_, ?_⟩
      · have hlater : Lists context scope (walkedPaths taken ++ beginnings path) joined.joins :=
          hlists.along hpath
        rw [walkedPaths_concat]
        exact hlater
      · intro other hother
        rcases List.mem_append.mp hother with hother | hother
        · exact htargets other hother
        · rw [List.mem_singleton.mp hother]
          exact ⟨name, path, rfl⟩
    | singleColumnAggregate column function path => exact absurd hadded throw_ne_ok
    | starCountAggregate path => exact absurd hadded throw_ne_ok
  have hstart : Lists context scope (walkedPaths []) Ordering.empty.joins := Lists.start
  exact foldlM_taken hstep orderBy.elements h
    ⟨hstart, fun element helement => absurd helement List.not_mem_nil⟩

/-- The conditions of the join that a path asks for: its mapping, and the filter on its last hop. -/
theorem ownJoin_conditions {join : Join} (h : ownJoin context scope path = some join) :
    ∃ source target relationship filters,
      filterConditions context target (lastFilter path) = some filters ∧
        join.conditions = orOne (joinConditions relationship source target.tableAlias ++ filters) := by
  obtain ⟨source, -, h⟩ := Option.bind_eq_some_iff.mp h
  obtain ⟨hop, hlast, h⟩ := Option.bind_eq_some_iff.mp h
  obtain ⟨relationship, -, h⟩ := Option.bind_eq_some_iff.mp h
  obtain ⟨storage, -, h⟩ := Option.bind_eq_some_iff.mp h
  obtain ⟨filters, hfilters, h⟩ := Option.bind_eq_some_iff.mp h
  obtain rfl := Option.some.inj h
  refine ⟨source.tableAlias, source.hop relationship.target, relationship, filters, ?_, rfl⟩
  rw [lastFilter, hlast]
  exact hfilters

theorem filterConditions_some_eq_some {target : Scope} {filter : Expression}
    {filters : List Condition} :
    filterConditions context target (some filter) = some filters ↔
      ∃ part, predicate context target filter = .ok part ∧ [.group part] = filters := by
  rw [filterConditions, Option.map_eq_some_iff]
  cases predicate context target filter <;> simp [Except.toOption]

end Steps

end NestedSql.Compile
