import NestedSql.Proofs.Wire.Invariants

/-!
# Members by name and by position

What a structure or variant is read as depends on the documents under the name of each member and
on nothing else: each member has one document or none, and stands for its default when it has none.
An array is read as the object that gives its items the names of the members in order. Both are
said of the routes without a bound on nesting.
-/

namespace NestedSql

namespace Entries

variable {α β : Type}

/-- The values of all entries with this name, in order. -/
def getAll (name : String) (entries : List (String × α)) : List α :=
  entries.filterMap fun entry => if entry.1 = name then some entry.2 else none

@[simp] theorem getAll_nil (name : String) : getAll name ([] : List (String × α)) = [] := rfl

theorem getAll_cons_self (name : String) (value : α) (entries : List (String × α)) :
    getAll name ((name, value) :: entries) = value :: getAll name entries :=
  List.filterMap_cons_some (if_pos rfl)

theorem getAll_cons_of_ne {name other : String} (h : other ≠ name) (value : α)
    (entries : List (String × α)) :
    getAll name ((other, value) :: entries) = getAll name entries :=
  List.filterMap_cons_none (if_neg h)

theorem getAll_append (name : String) (first second : List (String × α)) :
    getAll name (first ++ second) = getAll name first ++ getAll name second :=
  List.filterMap_append

theorem mem_getAll {name : String} {value : α} {entries : List (String × α)} :
    value ∈ getAll name entries ↔ (name, value) ∈ entries := by
  rw [getAll, List.mem_filterMap]
  constructor
  · rintro ⟨⟨key, found⟩, hentry, h⟩
    split at h
    · next hkey =>
      obtain rfl : key = name := hkey
      obtain rfl := Option.some.inj h
      exact hentry
    · cases h
  · intro h
    exact ⟨(name, value), h, if_pos rfl⟩

theorem getAll_eq_nil {name : String} {entries : List (String × α)} :
    getAll name entries = [] ↔ name ∉ names entries := by
  rw [List.eq_nil_iff_forall_not_mem]
  simp only [mem_getAll, names, List.mem_map, Prod.exists, exists_and_right, exists_eq_right,
    not_exists]

theorem Perm.getAll {first second : List (String × α)} (h : first.Perm second) (name : String) :
    (getAll name first).Perm (getAll name second) :=
  h.filterMap _

end Entries

theorem Json.writtenMembers_eq (members : List (String × Json)) :
    writtenMembers members = members.map fun member => (member.1, member.2.written) := by
  induction members with
  | nil => rfl
  | cons member members ih => rw [writtenMembers, ih, List.map_cons]

theorem Json.writtenItems_eq (items : List Json) : writtenItems items = items.map written := by
  induction items with
  | nil => rfl
  | cons item items ih => rw [writtenItems, ih, List.map_cons]

theorem Json.getAll_writtenMembers (name : String) (members : List (String × Json)) :
    Entries.getAll name (writtenMembers members) = (Entries.getAll name members).map written := by
  rw [writtenMembers_eq, Entries.getAll, Entries.getAll, List.filterMap_map, List.map_filterMap]
  congr 1
  funext member
  dsimp only [Function.comp_apply]
  split <;> rfl

namespace Wire

open Compile (bind_eq_ok pure_eq_ok throw_ne_ok)

/-! ## Routes without a bound -/

/-- Documents that arrive this way may nest as deeply as they like. -/
def Route.Unbounded (route : Route) : Prop := ∀ depth, route ≠ .text depth

theorem Route.unbounded_value : Route.value.Unbounded := nofun

theorem Route.unbounded_part : Route.part.Unbounded := nofun

theorem Route.Unbounded.enter {route : Route} (h : route.Unbounded) :
    route.enter = .ok route := by
  cases route with
  | text depth => exact absurd rfl (h depth)
  | value | part => rfl

theorem Route.Unbounded.isSound {route : Route} (h : route.Unbounded) (document : Written) :
    route.isSound document = true := by
  cases route with
  | text depth => exact absurd rfl (h depth)
  | value | part => rfl

/-! ## Documents of a member -/

/-- The value of a member that is left out, if it may be. -/
def Member.omitted? : (member : Member) → Option member.Value
  | ⟨_, _, .optional⟩ => some none
  | ⟨_, _, .required⟩ => none
  | ⟨_, _, .defaulted value⟩ => some value

theorem Member.absent_eq_ok {member : Member} {fault : Fault} {value : member.Value} :
    member.absent fault = .ok value ↔ member.omitted? = some value := by
  obtain ⟨name, kind, presence⟩ := member
  cases presence with
  | required => exact ⟨fun h => absurd h throw_ne_ok, nofun⟩
  | optional | defaulted default => exact pure_eq_ok.trans Option.some_inj.symm

/-- What the documents under the name of a member give it. -/
def Member.Given (route : Route) (member : Member) : List Written → member.Value → Prop
  | [], value => member.omitted? = some value
  | [document], value =>
    member.read document (fun kind => readDocument document kind route) = .ok value
  | _ :: _ :: _, _ => False

theorem Member.given_cons {route : Route} {member : Member} {document : Written}
    {documents : List Written} {value : member.Value} :
    member.Given route (document :: documents) value ↔ documents = [] ∧
      member.read document (fun kind => readDocument document kind route) = .ok value := by
  cases documents with
  | nil => exact (and_iff_right rfl).symm
  | cons next documents => exact ⟨False.elim, fun h => absurd h.1 (List.cons_ne_nil _ _)⟩

/-- Members of which more than one document is given are not read, so their order is no matter. -/
theorem Member.Given.perm {route : Route} {member : Member} {documents others : List Written}
    {value : member.Value} (h : member.Given route documents value)
    (hperm : documents.Perm others) : member.Given route others value := by
  cases documents with
  | nil =>
    obtain rfl := hperm.nil_eq
    exact h
  | cons document documents =>
    obtain rfl := (Member.given_cons.mp h).1
    obtain rfl := List.perm_singleton.mp hperm.symm
    exact h

/-- What the members of an object give the members of a shape. -/
def Values.Given (route : Route) (written : List (String × Written)) :
    (members : List Member) → Values members → Prop
  | [], _ => True
  | member :: members, (value, values) =>
    member.Given route (Entries.getAll member.name written) value ∧
      Values.Given route written members values

theorem Values.Given.mono {route inside : Route} {written others : List (String × Written)} :
    {members : List Member} → {values : Values members} →
      Values.Given route written members values →
      (∀ member ∈ members, ∀ value,
        member.Given route (Entries.getAll member.name written) value →
          member.Given inside (Entries.getAll member.name others) value) →
        Values.Given inside others members values
  | [], _, _, _ => trivial
  | _ :: _, (_, _), ⟨hvalue, hvalues⟩, h => by
    obtain ⟨hmember, hmembers⟩ := List.forall_mem_cons.mp h
    exact ⟨hmember _ hvalue, mono hvalues hmembers⟩

/-- Members with the same documents under all names of the shape give the same. -/
theorem Values.given_congr {route : Route} {written others : List (String × Written)}
    {members : List Member} {values : Values members}
    (h : ∀ member ∈ members, Entries.getAll member.name written =
      Entries.getAll member.name others) :
    Values.Given route written members values ↔ Values.Given route others members values :=
  ⟨fun hgiven => hgiven.mono fun member hmember _ hvalue => h member hmember ▸ hvalue,
    fun hgiven => hgiven.mono fun member hmember _ hvalue => (h member hmember).symm ▸ hvalue⟩

/-! ## Objects -/

/-- What has been met and what is still to come give the members of a shape. -/
def Slots.Leads (route : Route) (written : List (String × Written)) :
    (members : List Member) → Slots members → Values members → Prop
  | [], _, _ => True
  | member :: members, (some found, slots), (value, values) =>
    (Entries.getAll member.name written = [] ∧ found = value) ∧
      Slots.Leads route written members slots values
  | member :: members, (none, slots), (value, values) =>
    member.Given route (Entries.getAll member.name written) value ∧
      Slots.Leads route written members slots values

theorem Slots.leads_empty {route : Route} {written : List (String × Written)} :
    {members : List Member} → {values : Values members} →
      (Slots.Leads route written members (.empty members) values ↔
        Values.Given route written members values)
  | [], _ => Iff.rfl
  | _ :: _, (_, _) => and_congr_right' leads_empty

/-- When nothing is left to come, what has been met decides. -/
theorem Slots.finish_eq_ok {route : Route} : {members : List Member} → {slots : Slots members} →
    {values : Values members} →
      (slots.finish = .ok values ↔ Slots.Leads route [] members slots values)
  | [], _, _ => ⟨fun _ => trivial, fun _ => rfl⟩
  | member :: members, (slot, slots), (value, values) => by
    unfold Slots.finish
    cases slot with
    | some found =>
      dsimp only [Slots.Leads]
      rw [pure_bind, bind_eq_ok, ← finish_eq_ok]
      simp only [pure_eq_ok, Prod.mk.injEq, Entries.getAll_nil, true_and]
      constructor
      · rintro ⟨_, hslots, rfl, rfl⟩
        exact ⟨rfl, hslots⟩
      · rintro ⟨rfl, hslots⟩
        exact ⟨values, hslots, rfl, rfl⟩
    | none =>
      dsimp only [Slots.Leads]
      rw [bind_eq_ok, ← finish_eq_ok, Entries.getAll_nil, Member.Given]
      simp only [Member.absent_eq_ok, bind_eq_ok, pure_eq_ok, Prod.mk.injEq]
      constructor
      · rintro ⟨_, hvalue, _, hslots, rfl, rfl⟩
        exact ⟨hvalue, hslots⟩
      · rintro ⟨hvalue, hslots⟩
        exact ⟨value, hvalue, values, hslots, rfl, rfl⟩

/-- An entry that no member of the shape asks for changes nothing. -/
theorem Slots.leads_cons_of_notMem {route : Route} {name : String} {document : Written}
    {written : List (String × Written)} : {members : List Member} → {slots : Slots members} →
      {values : Values members} → name ∉ members.map Member.name →
        (Slots.Leads route ((name, document) :: written) members slots values ↔
          Slots.Leads route written members slots values)
  | [], _, _, _ => Iff.rfl
  | member :: members, (slot, slots), (value, values), h => by
    rw [List.map_cons, List.mem_cons, not_or] at h
    cases slot with
    | some found | none =>
      dsimp only [Slots.Leads]
      rw [Entries.getAll_cons_of_ne h.1, leads_cons_of_notMem h.2]

/-- Meeting a written member moves it from what is to come to what has been met. -/
theorem Slots.meet_leads {route : Route} {name : String} {document : Written}
    {written : List (String × Written)} : {members : List Member} → {slots : Slots members} →
      {values : Values members} → (members.map Member.name).Nodup →
        ((∃ next, slots.meet name document (fun kind => readDocument document kind route) members =
            .ok next ∧ Slots.Leads route written members next values) ↔
          Slots.Leads route ((name, document) :: written) members slots values)
  | [], _, _, _ => ⟨fun _ => trivial, fun _ => ⟨(), rfl, trivial⟩⟩
  | member :: members, (slot, slots), (value, values), h => by
    rw [List.map_cons, List.nodup_cons] at h
    unfold Slots.meet
    by_cases hname : member.name = name
    · subst hname
      rw [if_pos rfl]
      cases slot with
      | some found =>
        dsimp only [Slots.Leads]
        rw [Entries.getAll_cons_self]
        constructor
        · rintro ⟨_, hmet, -⟩
          exact absurd hmet throw_ne_ok
        · rintro ⟨⟨hcons, -⟩, -⟩
          exact absurd hcons (List.cons_ne_nil _ _)
      | none =>
        dsimp only [Slots.Leads]
        rw [Entries.getAll_cons_self, Member.given_cons, leads_cons_of_notMem h.1]
        simp only [bind_eq_ok, pure_eq_ok]
        constructor
        · rintro ⟨_, ⟨found, hread, rfl⟩, ⟨hrest, rfl⟩, hslots⟩
          exact ⟨⟨hrest, hread⟩, hslots⟩
        · rintro ⟨⟨hrest, hread⟩, hslots⟩
          exact ⟨_, ⟨value, hread, rfl⟩, ⟨hrest, rfl⟩, hslots⟩
    · have hother : name ≠ member.name := fun heq => hname heq.symm
      rw [if_neg hname]
      have hmembers : (∃ next, slots.meet name document (fun kind => readDocument document kind
          route) members = .ok next ∧ Slots.Leads route written members next values) ↔
            Slots.Leads route ((name, document) :: written) members slots values :=
        meet_leads h.2
      cases slot with
      | some found | none =>
        dsimp only [Slots.Leads]
        rw [Entries.getAll_cons_of_ne hother, ← hmembers]
        simp only [bind_eq_ok, pure_eq_ok]
        constructor
        · rintro ⟨_, ⟨later, hmet, rfl⟩, hvalue, hlater⟩
          exact ⟨hvalue, later, hmet, hlater⟩
        · rintro ⟨hvalue, later, hmet, hlater⟩
          exact ⟨_, ⟨later, hmet, rfl⟩, hvalue, hlater⟩

theorem readMembers_leads {route : Route} {members : List Member}
    (h : (members.map Member.name).Nodup) {values : Values members}
    (written : List (String × Written)) : ∀ {slots : Slots members},
      (∃ next, readMembers written members slots route = .ok next ∧ next.finish = .ok values) ↔
        Slots.Leads route written members slots values := by
  induction written with
  | nil =>
    intro slots
    rw [← Slots.finish_eq_ok, readMembers]
    simp only [pure_eq_ok, exists_eq_left']
  | cons entry written ih =>
    intro slots
    obtain ⟨name, document⟩ := entry
    rw [← Slots.meet_leads h, readMembers]
    simp only [bind_eq_ok, ← ih]
    constructor
    · rintro ⟨next, ⟨met, hmet, hread⟩, hnext⟩
      exact ⟨met, hmet, next, hread, hnext⟩
    · rintro ⟨met, hmet, next, hread, hnext⟩
      exact ⟨next, ⟨met, hmet, hread⟩, hnext⟩

/-- The members of an object are read by their names alone. -/
theorem readMembers_given {route : Route} {members : List Member}
    (h : (members.map Member.name).Nodup) {written : List (String × Written)}
    {values : Values members} :
    (∃ slots, readMembers written members (.empty members) route = .ok slots ∧
      slots.finish = .ok values) ↔ Values.Given route written members values :=
  (readMembers_leads h written).trans Slots.leads_empty

/-! ## Arrays -/

theorem absentFrom_given {route : Route} {fault : Fault} : {members : List Member} →
    {values : Values members} →
      (absentFrom fault members = .ok values ↔ Values.Given route [] members values)
  | [], _ => ⟨fun _ => trivial, fun _ => rfl⟩
  | member :: members, (value, values) => by
    have hmembers : absentFrom fault members = .ok values ↔ Values.Given route [] members values :=
      absentFrom_given
    rw [absentFrom, Values.Given, ← hmembers, Entries.getAll_nil, Member.Given]
    simp only [bind_eq_ok, Member.absent_eq_ok, pure_eq_ok, Prod.mk.injEq]
    constructor
    · rintro ⟨_, hvalue, _, hvalues, rfl, rfl⟩
      exact ⟨hvalue, hvalues⟩
    · rintro ⟨hvalue, hvalues⟩
      exact ⟨value, hvalue, values, hvalues, rfl, rfl⟩

/-- The items of an array under the names of the members in order. -/
def positions {α : Type} (members : List Member) (items : List α) : List (String × α) :=
  (members.map Member.name).zip items

theorem names_positions {α : Type} (members : List Member) (items : List α) :
    ∀ name ∈ Entries.names (positions members items), name ∈ members.map Member.name := by
  intro name h
  obtain ⟨entry, hentry, rfl⟩ := List.mem_map.mp h
  exact (List.of_mem_zip hentry).1

/-- The members of an array are read as those of the object that names its items. -/
theorem readPositions_given {route : Route} (items : List Written) :
    ∀ {members : List Member} {index : Nat} {sequence : Sequence} {values : Values members},
      (members.map Member.name).Nodup → sequence.closed = true →
        (readPositions items members route index sequence = .ok values ↔
          items.length ≤ members.length ∧
            Values.Given route (positions members items) members values) := by
  induction items with
  | nil =>
    intro members index sequence values _ hclosed
    have hlength : ([] : List Written).length ≤ members.length := Nat.zero_le _
    rw [readPositions, if_pos hclosed, and_iff_right hlength, positions, List.zip_nil_right]
    exact absentFrom_given
  | cons document items ih =>
    intro members index sequence values hnodup hclosed
    cases members with
    | nil =>
      rw [readPositions]
      exact ⟨fun h => absurd h throw_ne_ok, fun h => absurd h.1 (Nat.not_succ_le_zero _)⟩
    | cons member members =>
      obtain ⟨value, values⟩ := values
      rw [List.map_cons, List.nodup_cons] at hnodup
      have hpositions : positions (member :: members) (document :: items) =
          (member.name, document) :: positions members items := rfl
      have hnone : Entries.getAll member.name (positions members items) = [] :=
        Entries.getAll_eq_nil.mpr fun h => hnodup.1 (names_positions members items _ h)
      have hothers : Values.Given route ((member.name, document) :: positions members items)
          members values ↔ Values.Given route (positions members items) members values := by
        refine Values.given_congr fun other hother => Entries.getAll_cons_of_ne ?_ _ _
        rintro heq
        exact hnodup.1 (heq ▸ List.mem_map_of_mem hother)
      rw [readPositions, hpositions, Values.Given, Entries.getAll_cons_self, hnone, Member.Given,
        hothers, List.length_cons, List.length_cons, Nat.succ_le_succ_iff]
      simp only [bind_eq_ok, pure_eq_ok, Prod.mk.injEq, ih hnodup.2 hclosed]
      constructor
      · rintro ⟨_, hvalue, _, ⟨hlength, hvalues⟩, rfl, rfl⟩
        exact ⟨hlength, hvalue, hvalues⟩
      · rintro ⟨hlength, hvalue, hvalues⟩
        exact ⟨value, hvalue, values, ⟨hlength, hvalues⟩, rfl, rfl⟩

end Wire

end NestedSql
