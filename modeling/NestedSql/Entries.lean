/-!
# Entries in order of insertion

A map written as the list of its entries. Putting a name that is already there keeps its place
and replaces its value. The main statements give look-up and names after a `put`.
-/

namespace NestedSql

/-- Named values in the order in which their names were first put. -/
abbrev Entries (α : Type) := List (String × α)

namespace Entries

variable {α β : Type}

/-- The value of the first entry with this name. -/
def get? (name : String) : Entries α → Option α
  | [] => none
  | (key, value) :: rest => if key = name then some value else get? name rest

/-- Replaces the value in place, or appends a new entry. -/
def put (name : String) (value : α) : Entries α → Entries α
  | [] => [(name, value)]
  | (key, old) :: rest =>
    if key = name then (key, value) :: rest else (key, old) :: put name value rest

/-- The names in order. -/
def names (entries : Entries α) : List String := entries.map Prod.fst

/-- Puts the pairs one after the other: of equal names the first place and the last value stay. -/
def ofPairs (pairs : List (String × α)) : Entries α :=
  pairs.foldl (fun entries pair => put pair.1 pair.2 entries) []

/-- No name stands twice. -/
def Distinct (entries : Entries α) : Prop := (names entries).Nodup

attribute [local simp] get? put

@[simp] theorem get?_nil (name : String) : get? name ([] : Entries α) = none := rfl

@[simp] theorem names_nil : names ([] : Entries α) = [] := rfl

@[simp] theorem names_cons (key : String) (value : α) (rest : Entries α) :
    names ((key, value) :: rest) = key :: names rest := rfl

theorem get?_put_self (name : String) (value : α) (entries : Entries α) :
    get? name (put name value entries) = some value := by
  induction entries with
  | nil => simp
  | cons entry rest ih =>
    by_cases h : entry.1 = name <;> simp [h, ih]

theorem get?_put_of_ne {name other : String} (h : name ≠ other) (value : α) (entries : Entries α) :
    get? name (put other value entries) = get? name entries := by
  induction entries with
  | nil => simp [Ne.symm h]
  | cons entry rest ih =>
    by_cases hk : entry.1 = other
    · simp [hk, Ne.symm h]
    · simp [hk, ih]

theorem get?_append (name : String) (first second : Entries α) :
    get? name (first ++ second) = (get? name first).or (get? name second) := by
  induction first with
  | nil => rfl
  | cons entry first ih =>
    by_cases h : entry.1 = name <;> simp [h, ih]

theorem get?_mapped (f : α → β) (name : String) (entries : Entries α) :
    get? name (entries.map fun entry => (entry.1, f entry.2)) = (get? name entries).map f := by
  induction entries with
  | nil => rfl
  | cons entry entries ih =>
    rw [List.map_cons, get?, get?, ih]
    split <;> rfl

theorem get?_eq_none {name : String} {entries : Entries α} :
    get? name entries = none ↔ name ∉ names entries := by
  induction entries with
  | nil => simp
  | cons entry rest ih =>
    obtain ⟨key, value⟩ := entry
    by_cases h : key = name
    · simp [h]
    · simp [h, ih, Ne.symm h]

theorem mem_of_get? {name : String} {value : α} {entries : Entries α}
    (h : get? name entries = some value) : (name, value) ∈ entries := by
  induction entries with
  | nil => cases h
  | cons entry rest ih =>
    obtain ⟨key, found⟩ := entry
    by_cases hkey : key = name
    · rw [get?, if_pos hkey] at h
      rw [hkey, Option.some.inj h]
      exact List.mem_cons_self
    · rw [get?, if_neg hkey] at h
      exact List.mem_cons_of_mem _ (ih h)

theorem get?_of_mem {name : String} {value : α} {entries : Entries α} (hdistinct : Distinct entries)
    (h : (name, value) ∈ entries) : get? name entries = some value := by
  induction entries with
  | nil => exact absurd h List.not_mem_nil
  | cons entry rest ih =>
    rw [Distinct, names, List.map_cons, List.nodup_cons] at hdistinct
    rcases List.mem_cons.mp h with rfl | h
    · exact if_pos rfl
    · have hkey : entry.1 ≠ name := fun heq => hdistinct.1 (heq ▸ List.mem_map_of_mem h)
      exact (if_neg hkey).trans (ih hdistinct.2 h)

/-- A new name goes to the end; a known one leaves the names as they are. -/
theorem names_put (name : String) (value : α) (entries : Entries α) :
    names (put name value entries) =
      if name ∈ names entries then names entries else names entries ++ [name] := by
  induction entries with
  | nil => simp
  | cons entry rest ih =>
    obtain ⟨key, old⟩ := entry
    by_cases h : key = name
    · simp [h]
    · have hn : ¬ name = key := fun e => h e.symm
      by_cases hm : name ∈ names rest <;> simp [h, hn, ih, hm]

theorem distinct_put (name : String) (value : α) {entries : Entries α} (h : Distinct entries) :
    Distinct (put name value entries) := by
  unfold Distinct at h ⊢
  rw [names_put]
  split
  · exact h
  · next hn => exact List.nodup_append.2 ⟨h, by simp, by
      intro a ha b hb hab
      simp at hb
      exact hn (hb ▸ hab ▸ ha)⟩

theorem distinct_ofPairs (pairs : List (String × α)) : Distinct (ofPairs pairs) := by
  suffices h : ∀ entries : Entries α, Distinct entries →
      Distinct (pairs.foldl (fun entries pair => put pair.1 pair.2 entries) entries) from
    h [] List.nodup_nil
  induction pairs with
  | nil => exact fun _ h => h
  | cons pair rest ih => exact fun entries h => ih _ (distinct_put _ _ h)

theorem put_of_notMem {name : String} {entries : Entries α} (h : name ∉ names entries) (value : α) :
    put name value entries = entries ++ [(name, value)] := by
  induction entries with
  | nil => rfl
  | cons entry entries ih =>
    obtain ⟨key, old⟩ := entry
    rw [names_cons, List.mem_cons, not_or] at h
    have hkey : key ≠ name := fun heq => h.1 heq.symm
    rw [put, if_neg hkey, ih h.2, List.cons_append]

/-- Entries that are named once stay as they are. -/
theorem ofPairs_of_distinct {pairs : List (String × α)} (h : Distinct pairs) :
    ofPairs pairs = pairs := by
  have hfold : ∀ (later seen : List (String × α)), Distinct (seen ++ later) →
      later.foldl (fun entries pair => put pair.1 pair.2 entries) seen = seen ++ later := by
    intro later
    induction later with
    | nil =>
      intro seen _
      rw [List.append_nil]
      rfl
    | cons pair later ih =>
      intro seen hdistinct
      have hnew : pair.1 ∉ names seen := by
        intro hmem
        rw [Distinct, names, List.map_append] at hdistinct
        have hcross := (List.nodup_append.mp hdistinct).2.2
        exact hcross pair.1 hmem pair.1 List.mem_cons_self rfl
      rw [List.foldl_cons, put_of_notMem hnew, ih, List.append_assoc, List.singleton_append]
      rwa [List.append_assoc, List.singleton_append]
  exact hfold pairs [] h

theorem mem_put {name : String} {value : α} {entries : Entries α} {entry : String × α}
    (h : entry ∈ put name value entries) : entry = (name, value) ∨ entry ∈ entries := by
  induction entries with
  | nil => exact .inl (List.mem_singleton.mp h)
  | cons first entries ih =>
    obtain ⟨key, old⟩ := first
    rw [put] at h
    split at h
    · next hkey =>
      rcases List.mem_cons.mp h with rfl | h
      · exact .inl (by rw [hkey])
      · exact .inr (List.mem_cons_of_mem _ h)
    · rcases List.mem_cons.mp h with rfl | h
      · exact .inr List.mem_cons_self
      · exact (ih h).imp_right (List.mem_cons_of_mem _)

theorem mem_ofPairs {pairs : List (String × α)} {entry : String × α} (h : entry ∈ ofPairs pairs) :
    entry ∈ pairs := by
  have hfold : ∀ (later : List (String × α)) (seen : Entries α),
      entry ∈ later.foldl (fun entries pair => put pair.1 pair.2 entries) seen →
        entry ∈ seen ∨ entry ∈ later := by
    intro later
    induction later with
    | nil => exact fun seen h => .inl h
    | cons pair later ih =>
      intro seen h
      rcases ih _ h with h | h
      · rcases mem_put h with rfl | h
        · exact .inr List.mem_cons_self
        · exact .inl h
      · exact .inr (List.mem_cons_of_mem _ h)
  exact (hfold pairs [] h).resolve_left List.not_mem_nil

end Entries

end NestedSql
