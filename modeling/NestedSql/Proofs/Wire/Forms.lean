import Mathlib.Data.List.Forall2
import NestedSql.Proofs.Wire.Members

/-!
# The forms of structures and unions

A structure is read from an object or an array of its members, a variant from an object with a tag
anywhere among its members or an array behind its tag. Each form is described by what the documents
under the names of the members give, on the routes without a bound on nesting.
-/

namespace NestedSql.Wire

open Compile (bind_eq_ok pure_eq_ok throw_ne_ok)

/-! ## Names of members -/

/-- No structure and no variant names a member twice, no variant names one like the tag, and no
two variants or symbols share a name. -/
def Declaration.NamesApart {α : Type} : Declaration α → Prop
  | .struct _ shape => (shape.members.map Member.name).Nodup
  | .union _ variants => (variants.map Variant.tag).Nodup ∧
      ∀ variant ∈ variants, "type" ∉ variant.shape.members.map Member.name ∧
        (variant.shape.members.map Member.name).Nodup
  | .symbols names => Entries.Distinct names

theorem namesApart (type : TypeName) : (declaration type).NamesApart := by
  cases type <;> simp [declaration, Declaration.NamesApart, Entries.Distinct]

/-- The documents under the names of its members give the shape this value. -/
def Shape.Gives {α : Type} (shape : Shape α) (route : Route) (written : List (String × Written))
    (value : α) : Prop :=
  ∃ values, Values.Given route written shape.members values ∧ shape.build values = value

/-! ## Tags -/

section Tags

variable {α : Type} {variants : List (Variant α)} {route : Route}

theorem findTag_some (hroute : route.Unbounded) {found : Variant α}
    {result : Option (Variant α)} : {members : List (String × Written)} →
      (findTag variants route members (some found) = .ok result ↔
        Entries.getAll "type" members = [] ∧ result = some found)
  | [] => by
    rw [findTag, pure_eq_ok, Entries.getAll_nil, and_iff_right rfl, eq_comm]
  | (name, document) :: members => by
    rw [findTag]
    by_cases hname : name = "type"
    · rw [if_pos hname, hname, Entries.getAll_cons_self]
      exact ⟨fun h => absurd h throw_ne_ok, fun h => absurd h.1 (List.cons_ne_nil _ _)⟩
    · rw [if_neg hname, if_pos (hroute.isSound document), Entries.getAll_cons_of_ne hname,
        findTag_some hroute]

/-- The tag of a variant is the one document under its name, wherever it stands. -/
theorem findTag_none (hroute : route.Unbounded) {variant : Variant α} :
    {members : List (String × Written)} →
      (findTag variants route members none = .ok (some variant) ↔
        ∃ tag, Entries.getAll "type" members = [tag] ∧ readTag variants tag route = .ok variant)
  | [] => by
    constructor
    · intro h
      exact absurd (pure_eq_ok.mp h) nofun
    · rintro ⟨tag, htag, -⟩
      exact absurd htag.symm (List.cons_ne_nil _ _)
  | (name, document) :: members => by
    rw [findTag]
    by_cases hname : name = "type"
    · rw [if_pos hname, hname, Entries.getAll_cons_self]
      simp only [bind_eq_ok, findTag_some hroute, Option.some_inj, List.cons.injEq]
      constructor
      · rintro ⟨_, hread, hnone, rfl⟩
        exact ⟨document, ⟨rfl, hnone⟩, hread⟩
      · rintro ⟨tag, ⟨rfl, hnone⟩, hread⟩
        exact ⟨variant, hread, hnone, rfl⟩
    · rw [if_neg hname, if_pos (hroute.isSound document), Entries.getAll_cons_of_ne hname,
        findTag_none hroute]

end Tags

/-! ## Objects and arrays -/

section Forms

variable {type : TypeName} {value : type.Carrier} {route : Route} {name : String}
  {shape : Shape type.Carrier} {variants : List (Variant type.Carrier)}

theorem readDocument_object_struct (hdeclared : declaration type = .struct name shape)
    (hroute : route.Unbounded) {written : List (String × Written)} :
    readDocument (.object written true) (.named type) route = .ok value ↔
      shape.Gives route written value := by
  have hnames := namesApart type
  rw [hdeclared] at hnames
  unfold readDocument
  dsimp only
  rw [hdeclared]
  simp only [hroute.enter, bind_eq_ok, ite_throw_eq_ok, pure_eq_ok, Except.ok.injEq,
    exists_eq_left', true_and, Shape.Gives, ← readMembers_given hnames]
  constructor
  · rintro ⟨slots, hslots, values, hvalues, hvalue⟩
    exact ⟨values, ⟨slots, hslots, hvalues⟩, hvalue⟩
  · rintro ⟨values, ⟨slots, hslots, hvalues⟩, hvalue⟩
    exact ⟨slots, hslots, values, hvalues, hvalue⟩

theorem readDocument_object_union (hdeclared : declaration type = .union name variants)
    (hroute : route.Unbounded) {written : List (String × Written)} :
    readDocument (.object written true) (.named type) route = .ok value ↔
      ∃ tag variant, Entries.getAll "type" written = [tag] ∧
        readTag variants tag route = .ok variant ∧ variant.shape.Gives .part written value := by
  have hnames := namesApart type
  rw [hdeclared] at hnames
  unfold readDocument
  dsimp only
  rw [hdeclared]
  simp only [hroute.enter, bind_eq_ok, ite_throw_eq_ok, Except.ok.injEq, exists_eq_left', true_and]
  constructor
  · rintro ⟨found, hfound, h⟩
    cases found with
    | none => exact absurd h throw_ne_ok
    | some variant =>
      obtain ⟨slots, hslots, values, hvalues, hvalue⟩ := by
        simpa only [bind_eq_ok, pure_eq_ok] using h
      obtain ⟨tag, htag, hread⟩ := (findTag_none hroute).mp hfound
      have hnodup := (hnames.2 variant (readTag_mem hread)).2
      exact ⟨tag, variant, htag, hread, values,
        (readMembers_given hnodup).mp ⟨slots, hslots, hvalues⟩, hvalue⟩
  · rintro ⟨tag, variant, htag, hread, values, hgiven, hvalue⟩
    have hnodup := (hnames.2 variant (readTag_mem hread)).2
    obtain ⟨slots, hslots, hvalues⟩ := (readMembers_given hnodup).mpr hgiven
    refine ⟨some variant, (findTag_none hroute).mpr ⟨tag, htag, hread⟩, ?_⟩
    simp only [bind_eq_ok, pure_eq_ok]
    exact ⟨slots, hslots, values, hvalues, hvalue⟩

theorem readDocument_array_struct (hdeclared : declaration type = .struct name shape)
    (hroute : route.Unbounded) {items : List Written} :
    readDocument (.array items true) (.named type) route = .ok value ↔
      items.length ≤ shape.members.length ∧
        shape.Gives route (positions shape.members items) value := by
  have hnames := namesApart type
  rw [hdeclared] at hnames
  unfold readDocument
  dsimp only
  rw [hdeclared]
  simp only [hroute.enter, bind_eq_ok, pure_eq_ok, Except.ok.injEq, exists_eq_left',
    readPositions_given items hnames, Shape.Gives]
  constructor
  · rintro ⟨values, ⟨hlength, hvalues⟩, hvalue⟩
    exact ⟨hlength, values, hvalues, hvalue⟩
  · rintro ⟨hlength, values, hvalues, hvalue⟩
    exact ⟨values, ⟨hlength, hvalues⟩, hvalue⟩

theorem readDocument_array_union (hdeclared : declaration type = .union name variants)
    (hroute : route.Unbounded) {tag : Written} {items : List Written} :
    readDocument (.array (tag :: items) true) (.named type) route = .ok value ↔
      ∃ variant, readTag variants tag route = .ok variant ∧
        items.length ≤ variant.shape.members.length ∧
          variant.shape.Gives .part (positions variant.shape.members items) value := by
  have hnames := namesApart type
  rw [hdeclared] at hnames
  have hsound : items.all route.isSound = true :=
    List.all_eq_true.mpr fun document _ => hroute.isSound document
  unfold readDocument
  dsimp only
  rw [hdeclared]
  simp only [hroute.enter, bind_eq_ok, ite_throw_eq_ok, pure_eq_ok, Except.ok.injEq,
    exists_eq_left', hsound, true_and, Shape.Gives]
  constructor
  · rintro ⟨variant, hread, values, hpositions, hvalue⟩
    have hnodup := (hnames.2 variant (readTag_mem hread)).2
    obtain ⟨hlength, hvalues⟩ := (readPositions_given items hnodup rfl).mp hpositions
    exact ⟨variant, hread, hlength, values, hvalues, hvalue⟩
  · rintro ⟨variant, hread, hlength, values, hvalues, hvalue⟩
    have hnodup := (hnames.2 variant (readTag_mem hread)).2
    exact ⟨variant, hread, values, (readPositions_given items hnodup rfl).mpr ⟨hlength, hvalues⟩,
      hvalue⟩

end Forms

/-! ## Lists and maps -/

theorem readItems_eq_ok {kind : Kind} {route : Route} {items : List Written} :
    {values : List kind.Value} → (readItems items kind route = .ok values ↔
      List.Forall₂ (fun item value => readDocument item kind route = .ok value) items values) := by
  induction items with
  | nil =>
    intro values
    rw [readItems, pure_eq_ok, List.forall₂_nil_left_iff, eq_comm]
  | cons item items ih =>
    intro values
    rw [readItems, List.forall₂_cons_left_iff]
    simp only [bind_eq_ok, pure_eq_ok, ih]
    constructor
    · rintro ⟨value, hvalue, others, hothers, rfl⟩
      exact ⟨value, others, hvalue, hothers, rfl⟩
    · rintro ⟨value, others, hvalue, hothers, rfl⟩
      exact ⟨value, hvalue, others, hothers, rfl⟩

theorem readEntries_eq_ok {kind : Kind} {route : Route} {written : List (String × Written)} :
    {entries : List (String × kind.Value)} → (readEntries written kind route = .ok entries ↔
      List.Forall₂ (fun member entry => entry.1 = member.1 ∧
        readDocument member.2 kind route = .ok entry.2) written entries) := by
  induction written with
  | nil =>
    intro entries
    rw [readEntries, pure_eq_ok, List.forall₂_nil_left_iff, eq_comm]
  | cons member written ih =>
    intro entries
    obtain ⟨name, document⟩ := member
    rw [readEntries, List.forall₂_cons_left_iff]
    simp only [bind_eq_ok, pure_eq_ok, ih]
    constructor
    · rintro ⟨value, hvalue, others, hothers, rfl⟩
      exact ⟨(name, value), others, ⟨rfl, hvalue⟩, hothers, rfl⟩
    · rintro ⟨⟨_, value⟩, others, ⟨rfl, hvalue⟩, hothers, rfl⟩
      exact ⟨value, hvalue, others, hothers, rfl⟩

theorem readDocument_list_eq_ok {kind : Kind} {route : Route} (hroute : route.Unbounded)
    {items : List Written} {values : List kind.Value} :
    readDocument (.array items true) (.list kind) route = .ok values ↔
      List.Forall₂ (fun item value => readDocument item kind route = .ok value) items values := by
  rw [readDocument, ← readItems_eq_ok]
  simp only [hroute.enter, bind_eq_ok, ite_throw_eq_ok, pure_eq_ok, Except.ok.injEq,
    exists_eq_left', true_and, exists_eq_right]

theorem readDocument_map_eq_ok {kind : Kind} {route : Route} (hroute : route.Unbounded)
    {written : List (String × Written)} {entries : Entries kind.Value} :
    readDocument (.object written true) (.map kind) route = .ok entries ↔
      ∃ pairs, readEntries written kind route = .ok pairs ∧ Entries.ofPairs pairs = entries := by
  rw [readDocument]
  simp only [hroute.enter, bind_eq_ok, ite_throw_eq_ok, pure_eq_ok, Except.ok.injEq,
    exists_eq_left', true_and]

end NestedSql.Wire
