import Mathlib.Data.List.SplitBy

/-!
# Runs of neighbours

A listing is cut into runs of neighbours with one key. Blocks of items with one key each are cut
where their keys are; so there are at most as many runs as blocks, and as many only if no two
neighbouring blocks have one key.
-/

namespace NestedSql.Catalog

variable {α β κ : Type} [DecidableEq κ]

/-- The runs of neighbours with one key. -/
def runs (key : α → κ) (items : List α) : List (List α) :=
  items.splitBy fun first second => key first == key second

section Runs

theorem flatten_runs (key : α → κ) (items : List α) : (runs key items).flatten = items :=
  List.flatten_splitBy _ items

theorem nil_notMem_runs (key : α → κ) (items : List α) : [] ∉ runs key items :=
  List.nil_notMem_splitBy _ items

variable {key : α → κ} {items : List α}

theorem key_eq_of_isChain {first : α} {rest : List α}
    (h : (first :: rest).IsChain fun a b => (key a == key b) = true) :
    ∀ item ∈ rest, key item = key first := by
  induction rest generalizing first with
  | nil => exact List.forall_mem_nil _
  | cons next rest ih =>
    obtain ⟨hnext, hrest⟩ := List.isChain_cons_cons.mp h
    have hkey : key first = key next := eq_of_beq hnext
    exact List.forall_mem_cons.mpr ⟨hkey.symm, fun item hitem => (ih hrest item hitem).trans
      hkey.symm⟩

/-- A run begins with some item, and all its items have the key of that one. -/
theorem run_spec {run : List α} (h : run ∈ runs key items) :
    ∃ first rest, run = first :: rest ∧ ∀ item ∈ run, key item = key first := by
  obtain ⟨first, rest, rfl⟩ := List.exists_cons_of_ne_nil (List.ne_nil_of_mem_splitBy h)
  exact ⟨first, rest, rfl, List.forall_mem_cons.mpr
    ⟨rfl, key_eq_of_isChain (List.isChain_of_mem_splitBy h)⟩⟩

theorem length_le_length_flatten : ∀ {lists : List (List α)}, [] ∉ lists →
    lists.length ≤ lists.flatten.length
  | [], _ => Nat.le_refl _
  | list :: lists, h => by
    rw [List.mem_cons, not_or] at h
    have hlist := List.length_pos_iff.mpr (Ne.symm h.1)
    have hrest := length_le_length_flatten h.2
    rw [List.flatten_cons, List.length_append, List.length_cons]
    omega

/-- As many lists as items are lists of one item each. -/
theorem eq_singletons_of_length : ∀ {lists : List (List α)}, [] ∉ lists →
    lists.flatten.length = lists.length → lists = lists.flatten.map ([·])
  | [], _, _ => rfl
  | list :: lists, h, hlength => by
    rw [List.mem_cons, not_or] at h
    have hlist := List.length_pos_iff.mpr (Ne.symm h.1)
    have hrest := length_le_length_flatten h.2
    rw [List.flatten_cons, List.length_append, List.length_cons] at hlength
    obtain ⟨item, rfl⟩ := List.length_eq_one_iff.mp (show list.length = 1 by omega)
    have hlists := eq_singletons_of_length h.2 (by omega)
    rw [List.flatten_cons, List.singleton_append, List.map_cons, ← hlists]

theorem length_runs_le : (runs key items).length ≤ items.length := by
  have h := length_le_length_flatten (nil_notMem_runs key items)
  rwa [flatten_runs] at h

/-- Neighbours with different keys are runs of their own. -/
theorem runs_of_isChain (h : items.IsChain fun a b => key a ≠ key b) :
    runs key items = items.map ([·]) := by
  refine List.splitBy_eq_iff.mpr ⟨?flatten, ?nonempty, ?chains, ?borders⟩
  case flatten => rw [← List.flatMap_def, List.flatMap_singleton']
  case nonempty =>
    intro hnil
    obtain ⟨item, -, hitem⟩ := List.mem_map.mp hnil
    exact absurd hitem (List.cons_ne_nil _ _)
  case chains =>
    intro run hrun
    obtain ⟨item, -, rfl⟩ := List.mem_map.mp hrun
    exact List.isChain_singleton item
  case borders =>
    refine (List.isChain_map _).mpr (h.imp fun a b hab => ?_)
    exact ⟨List.cons_ne_nil _ _, List.cons_ne_nil _ _, beq_eq_false_iff_ne.mpr hab⟩

/-- Only neighbours with different keys make as many runs as items. -/
theorem isChain_of_length_runs (h : (runs key items).length = items.length) :
    items.IsChain fun a b => key a ≠ key b := by
  have hlength : (runs key items).flatten.length = (runs key items).length := by
    rw [flatten_runs, h]
  have hruns := eq_singletons_of_length (nil_notMem_runs key items) hlength
  have hborders : (runs key items).IsChain fun first second =>
      ∃ hfirst hsecond, (key (first.getLast hfirst) == key (second.head hsecond)) = false :=
    List.isChain_getLast_head_splitBy (fun a b => key a == key b) items
  rw [flatten_runs] at hruns
  rw [hruns] at hborders
  refine ((List.isChain_map _).mp hborders).imp fun a b hab => ?_
  obtain ⟨_, _, hkey⟩ := hab
  exact beq_eq_false_iff_ne.mp hkey

end Runs

/-! ## Blocks -/

section Blocks

variable {key : α → κ} {mark : β → κ} {items : β → List α} {blocks : List β}

/-- All items of a run of blocks have one key. -/
theorem key_eq_of_run (hkey : ∀ block ∈ blocks, ∀ item ∈ items block, key item = mark block)
    {run : List β} (hrun : run ∈ runs mark blocks) {item : α} (hitem : item ∈ run.flatMap items)
    {block : β} (hblock : block ∈ run) : key item = mark block := by
  obtain ⟨first, rest, -, hmarks⟩ := run_spec hrun
  obtain ⟨other, hother, hitem⟩ := List.mem_flatMap.mp hitem
  have hmem : other ∈ blocks := by
    rw [← flatten_runs mark blocks]
    exact List.mem_flatten_of_mem hrun hother
  rw [hkey other hmem item hitem, hmarks other hother, hmarks block hblock]

/-- Blocks of items with one key each are cut between blocks only. -/
theorem runs_flatMap (hne : ∀ block ∈ blocks, items block ≠ [])
    (hkey : ∀ block ∈ blocks, ∀ item ∈ items block, key item = mark block) :
    runs key (blocks.flatMap items) = (runs mark blocks).map (·.flatMap items) := by
  have hruns : (runs mark blocks).flatten = blocks := flatten_runs mark blocks
  have hlists : ∀ run ∈ runs mark blocks, run.flatMap items ≠ [] := by
    intro run hrun hnil
    obtain ⟨first, rest, rfl, -⟩ := run_spec hrun
    have hmem : first ∈ blocks := hruns ▸ List.mem_flatten_of_mem hrun List.mem_cons_self
    exact hne first hmem (List.flatMap_eq_nil_iff.mp hnil first List.mem_cons_self)
  refine List.splitBy_eq_iff.mpr ⟨?flatten, ?nonempty, ?chains, ?borders⟩
  case flatten =>
    have hall : (runs mark blocks).flatMap id = blocks := List.flatMap_id.trans hruns
    rw [← List.flatMap_def]
    exact (congrArg (List.flatMap items) hall).symm.trans List.flatMap_assoc
  case nonempty =>
    intro hnil
    obtain ⟨run, hrun, hempty⟩ := List.mem_map.mp hnil
    exact hlists run hrun hempty
  case chains =>
    intro list hlist
    obtain ⟨run, hrun, rfl⟩ := List.mem_map.mp hlist
    obtain ⟨first, rest, rfl, -⟩ := run_spec hrun
    refine (List.pairwise_of_forall_mem_list fun a ha b hb => ?_).isChain
    rw [key_eq_of_run hkey hrun ha List.mem_cons_self,
      key_eq_of_run hkey hrun hb List.mem_cons_self, beq_self_eq_true]
  case borders =>
    have hborders : (runs mark blocks).IsChain fun first second =>
        ∃ hfirst hsecond, (mark (first.getLast hfirst) == mark (second.head hsecond)) = false :=
      List.isChain_getLast_head_splitBy (fun a b => mark a == mark b) blocks
    refine (List.isChain_map _).mpr (hborders.imp_of_mem_imp fun first second hf hs hmarks => ?_)
    obtain ⟨hfirst, hsecond, hmarks⟩ := hmarks
    refine ⟨hlists first hf, hlists second hs, ?_⟩
    rwa [key_eq_of_run hkey hf (List.getLast_mem _) (List.getLast_mem hfirst),
      key_eq_of_run hkey hs (List.head_mem _) (List.head_mem hsecond)]

end Blocks

end NestedSql.Catalog
