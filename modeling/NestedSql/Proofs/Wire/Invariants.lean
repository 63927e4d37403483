import NestedSql.Proofs.Compile.Success
import NestedSql.Proofs.Documents.Merged
import NestedSql.Wire.Reader

/-!
# What holds of all that is read

If whatever a declaration builds from sound parts is sound, then every value that a reader returns
is sound, by whichever route and form its document arrives. A map that is read names each entry
once and a free value each of its members, whatever the invariant.
-/

namespace NestedSql.Wire

open Compile (bind_eq_ok pure_eq_ok throw_ne_ok)

/-! ## Sound values -/

/-- What is to hold of the values of every type. -/
abbrev Invariant := (type : TypeName) → type.Carrier → Prop

variable (holds : Invariant)

/-- It holds of all values of types inside, and no map and no free value gives a name twice. -/
def Kind.Sound : (kind : Kind) → kind.Value → Prop
  | .list item, values => ∀ value ∈ values, item.Sound value
  | .map inner, entries => Entries.Distinct entries ∧ ∀ entry ∈ entries, inner.Sound entry.2
  | .named type, value => holds type value
  | .free, value => value.merged = value
  | .string, _ | .boolean, _ | .count, _ => True

/-- The value is not what an absent member is written as. -/
def Kind.Stated : (kind : Kind) → kind.Value → Prop
  | .free, value => value ≠ .null
  | _, _ => True

def Member.Sound : (member : Member) → member.Value → Prop
  | ⟨_, kind, .optional⟩, value => ∀ found ∈ value, kind.Sound holds found ∧ kind.Stated found
  | ⟨_, kind, .required⟩, value => kind.Sound holds value
  | ⟨_, kind, .defaulted _⟩, value => kind.Sound holds value

/-- The default of the member, if it has one, is sound. -/
def Member.SoundDefault : Member → Prop
  | ⟨_, kind, .defaulted value⟩ => kind.Sound holds value
  | ⟨_, _, .optional⟩ | ⟨_, _, .required⟩ => True

def Values.Sound : (members : List Member) → Values members → Prop
  | [], _ => True
  | member :: members, (value, values) => member.Sound holds value ∧ Values.Sound members values

/-- What has been met is sound. -/
def Slots.Sound : (members : List Member) → Slots members → Prop
  | [], _ => True
  | member :: members, (slot, slots) =>
    (∀ value ∈ slot, member.Sound holds value) ∧ Slots.Sound members slots

/-- Sound members make up a sound value. -/
structure Shape.Keeps {α : Type} (result : α → Prop) (shape : Shape α) : Prop where
  defaults : ∀ member ∈ shape.members, member.SoundDefault holds
  build : ∀ values, Values.Sound holds shape.members values → result (shape.build values)

theorem Shape.keeps_true_iff {α : Type} {shape : Shape α} :
    (shape.Keeps holds fun _ => True) ↔ ∀ member ∈ shape.members, member.SoundDefault holds :=
  ⟨Shape.Keeps.defaults, fun h => ⟨h, fun _ _ => trivial⟩⟩

def Declaration.Keeps {α : Type} (result : α → Prop) : Declaration α → Prop
  | .struct _ shape => shape.Keeps holds result
  | .union _ variants => ∀ variant ∈ variants, variant.shape.Keeps holds result
  | .symbols names => ∀ entry ∈ names, result entry.2

/-- Every declaration makes up sound values from sound members. -/
def Kept : Prop := ∀ type, (declaration type).Keeps holds (holds type)

variable {holds}

/-! ## Free values -/

theorem readDocument_eq_readFree {document : Written} {route : Route} {value : Json}
    (h : readDocument document .free route = .ok value) :
    readFree document route = .ok value := by
  cases document with
  | fault => exact absurd h throw_ne_ok
  | array items closed | object members closed =>
    rwa [readDocument] at h
  | _ => exact h

/-- A free value is the value of its document, read to some depth. -/
theorem value?_of_readFree {document : Written} {route : Route} {value : Json}
    (h : readFree document route = .ok value) :
    ∃ depth, document.value? depth = some value := by
  unfold readFree at h
  dsimp only at h
  split at h
  · next hvalue =>
    obtain rfl := pure_eq_ok.mp h
    exact ⟨_, hvalue⟩
  · exact absurd h throw_ne_ok

theorem value?_ne_null {document : Written} {depth : Nat} {value : Json}
    (hnull : document ≠ .null) (h : document.value? depth = some value) : value ≠ .null := by
  rintro rfl
  cases document with
  | null => exact hnull rfl
  | array items closed | object members closed =>
    cases depth with
    | zero => cases h
    | succ depth =>
      rw [Written.value?] at h
      split at h
      · obtain ⟨_, -, h⟩ := Option.map_eq_some_iff.mp h
        cases h
      · cases h
  | _ => cases h

/-- Only null is read as a value that an absent member has. -/
theorem stated_of_readDocument {document : Written} {kind : Kind} {route : Route}
    {value : kind.Value} (hnull : document ≠ .null)
    (h : readDocument document kind route = .ok value) : kind.Stated value := by
  cases kind with
  | free =>
    obtain ⟨depth, hvalue⟩ := value?_of_readFree (readDocument_eq_readFree h)
    exact value?_ne_null hnull hvalue
  | _ => trivial

/-! ## Members -/

theorem Member.read_sound {member : Member} {document : Written} {route : Route}
    {value : member.Value}
    (hread : ∀ kind value, readDocument document kind route = .ok value → kind.Sound holds value)
    (h : member.read document (fun kind => readDocument document kind route) = .ok value) :
    member.Sound holds value := by
  obtain ⟨name, kind, presence⟩ := member
  cases presence with
  | required => exact hread kind value h
  | defaulted default => exact hread kind value h
  | optional =>
    have hpresent : document ≠ .null → ∀ {value : Option kind.Value},
        some <$> readDocument document kind route = .ok value →
          ∀ found ∈ value, kind.Sound holds found ∧ kind.Stated found := by
      intro hnull value h found hfound
      cases hkind : readDocument document kind route with
      | error fault =>
        rw [hkind] at h
        cases h
      | ok result =>
        rw [hkind] at h
        obtain rfl := Except.ok.inj h
        obtain rfl := Option.some.inj hfound
        exact ⟨hread kind result hkind, stated_of_readDocument hnull hkind⟩
    cases document with
    | null =>
      obtain rfl := pure_eq_ok.mp h
      exact nofun
    | _ => exact hpresent nofun h

theorem Member.absent_sound {member : Member} {fault : Fault} {value : member.Value}
    (hdefault : member.SoundDefault holds) (h : member.absent fault = .ok value) :
    member.Sound holds value := by
  obtain ⟨name, kind, presence⟩ := member
  cases presence with
  | required => exact absurd h throw_ne_ok
  | optional =>
    obtain rfl := pure_eq_ok.mp h
    exact nofun
  | defaulted default =>
    obtain rfl := pure_eq_ok.mp h
    exact hdefault

theorem Slots.empty_sound : (members : List Member) → Slots.Sound holds members (.empty members)
  | [] => trivial
  | _ :: members => ⟨nofun, empty_sound members⟩

theorem Slots.meet_sound {name : String} {document : Written} {route : Route}
    (hread : ∀ kind value, readDocument document kind route = .ok value →
      kind.Sound holds value) :
    {members : List Member} → {slots next : Slots members} → Slots.Sound holds members slots →
      slots.meet name document (fun kind => readDocument document kind route) members = .ok next →
        Slots.Sound holds members next
  | [], _, _, _, _ => trivial
  | member :: members, (slot, slots), next, ⟨hslot, hslots⟩, h => by
    unfold Slots.meet at h
    split at h
    · cases slot with
      | some _ => exact absurd h throw_ne_ok
      | none =>
        obtain ⟨value, hvalue, h⟩ := bind_eq_ok.mp h
        obtain rfl := pure_eq_ok.mp h
        refine ⟨?_, hslots⟩
        rintro _ ⟨⟩
        exact member.read_sound hread hvalue
    · obtain ⟨later, hlater, h⟩ := bind_eq_ok.mp h
      obtain rfl := pure_eq_ok.mp h
      exact ⟨hslot, meet_sound hread hslots hlater⟩

theorem Slots.finish_sound : {members : List Member} → {slots : Slots members} →
    {values : Values members} → (∀ member ∈ members, member.SoundDefault holds) →
      Slots.Sound holds members slots → slots.finish = .ok values →
        Values.Sound holds members values
  | [], _, _, _, _, _ => trivial
  | member :: members, (slot, slots), values, hdefaults, ⟨hslot, hslots⟩, h => by
    obtain ⟨hdefault, hdefaults⟩ := List.forall_mem_cons.mp hdefaults
    cases slot with
    | some found =>
      obtain ⟨_, hfound, h⟩ := bind_eq_ok.mp h
      obtain ⟨others, hothers, h⟩ := bind_eq_ok.mp h
      obtain rfl := pure_eq_ok.mp hfound
      obtain rfl := pure_eq_ok.mp h
      exact ⟨hslot found rfl, finish_sound hdefaults hslots hothers⟩
    | none =>
      obtain ⟨value, hvalue, h⟩ := bind_eq_ok.mp h
      obtain ⟨others, hothers, h⟩ := bind_eq_ok.mp h
      obtain rfl := pure_eq_ok.mp h
      exact ⟨Member.absent_sound hdefault hvalue, finish_sound hdefaults hslots hothers⟩

theorem absentFrom_sound {fault : Fault} : {members : List Member} → {values : Values members} →
    (∀ member ∈ members, member.SoundDefault holds) → absentFrom fault members = .ok values →
      Values.Sound holds members values
  | [], _, _, _ => trivial
  | member :: members, values, hdefaults, h => by
    obtain ⟨hdefault, hdefaults⟩ := List.forall_mem_cons.mp hdefaults
    rw [absentFrom] at h
    obtain ⟨value, hvalue, h⟩ := bind_eq_ok.mp h
    obtain ⟨others, hothers, h⟩ := bind_eq_ok.mp h
    obtain rfl := pure_eq_ok.mp h
    exact ⟨Member.absent_sound hdefault hvalue, absentFrom_sound hdefaults hothers⟩

/-! ## Tags and symbols -/

theorem ite_throw_eq_ok {α ε : Type} {accepted : Prop} [Decidable accepted] {step : Except ε α}
    {fault : ε} {value : α} :
    (if accepted then step else throw fault) = .ok value ↔ accepted ∧ step = .ok value := by
  by_cases h : accepted
  · rw [if_pos h, and_iff_right h]
  · rw [if_neg h]
    exact ⟨fun herror => absurd herror throw_ne_ok, fun haccepted => absurd haccepted.1 h⟩

theorem wrongType_ne_ok {α : Type} {document : Written} {wanted : Wanted} {value : α} :
    wrongType document wanted ≠ .ok value := by
  unfold wrongType
  split <;> exact throw_ne_ok

theorem findVariant_mem {α : Type} {variants : List (Variant α)} {tag : String}
    {variant : Variant α} (h : findVariant variants tag = .ok variant) : variant ∈ variants := by
  unfold findVariant at h
  split at h
  · next hfound =>
    obtain rfl := pure_eq_ok.mp h
    exact List.mem_of_find?_eq_some hfound
  · exact absurd h throw_ne_ok

theorem readTag_mem {α : Type} {variants : List (Variant α)} {document : Written} {route : Route}
    {variant : Variant α} (h : readTag variants document route = .ok variant) :
    variant ∈ variants := by
  unfold readTag at h
  split at h
  · exact findVariant_mem h
  · split at h
    · next hfound =>
      obtain rfl := pure_eq_ok.mp h
      exact List.mem_of_getElem? hfound
    · exact absurd h throw_ne_ok
  · exact absurd h wrongType_ne_ok

theorem findTag_mem {α : Type} {variants : List (Variant α)} {route : Route}
    {variant : Variant α} : {members : List (String × Written)} → {found : Option (Variant α)} →
      (∀ variant ∈ found, variant ∈ variants) →
        findTag variants route members found = .ok (some variant) → variant ∈ variants
  | [], found, hfound, h => by
    obtain rfl := pure_eq_ok.mp h
    exact hfound variant rfl
  | (name, document) :: members, found, hfound, h => by
    unfold findTag at h
    split at h
    · split at h
      · exact absurd h throw_ne_ok
      · obtain ⟨tagged, htagged, h⟩ := bind_eq_ok.mp h
        refine findTag_mem ?_ h
        rintro _ ⟨⟩
        exact readTag_mem htagged
    · split at h
      · exact findTag_mem hfound h
      · exact absurd h throw_ne_ok

theorem findSymbol_mem {α : Type} {names : List (String × α)} {name : String} {value : α}
    (h : findSymbol names name = .ok value) : ∃ entry ∈ names, entry.2 = value := by
  unfold findSymbol at h
  split at h
  · next hfound =>
    obtain rfl := pure_eq_ok.mp h
    exact ⟨_, Entries.mem_of_get? hfound, rfl⟩
  · exact absurd h throw_ne_ok

theorem readSymbolObject_mem {α : Type} {names : List (String × α)}
    {members : List (String × Written)} {closed : Bool} {route : Route} {value : α}
    (h : readSymbolObject names members closed route = .ok value) :
    ∃ entry ∈ names, entry.2 = value := by
  unfold readSymbolObject at h
  split at h
  · obtain ⟨found, hfound, h⟩ := bind_eq_ok.mp h
    obtain rfl : found = value := by
      split at h
      · exact pure_eq_ok.mp (ite_throw_eq_ok.mp h).2
      · exact absurd h wrongType_ne_ok
    exact findSymbol_mem hfound
  · exact absurd h throw_ne_ok
  · obtain ⟨found, hfound, h⟩ := bind_eq_ok.mp h
    obtain rfl : found = value := by
      split at h
      · exact pure_eq_ok.mp h
      · exact pure_eq_ok.mp h
      · exact absurd h wrongType_ne_ok
    exact findSymbol_mem hfound
  · exact absurd h throw_ne_ok

/-! ## Named types -/

/-- The members of the type or of one of its variants are those of the shape. -/
def Declaration.Declares {α : Type} (shape : Shape α) : Declaration α → Prop
  | .struct _ declared => declared = shape
  | .union _ variants => ∃ variant ∈ variants, variant.shape = shape
  | .symbols _ => False

theorem Declaration.Keeps.shape {α : Type} {result : α → Prop} {declared : Declaration α}
    {shape : Shape α} (hkept : declared.Keeps holds result) (hshape : declared.Declares shape) :
    shape.Keeps holds result := by
  cases declared with
  | struct name declared =>
    obtain rfl : declared = shape := hshape
    exact hkept
  | union name variants =>
    obtain ⟨variant, hvariant, rfl⟩ := hshape
    exact hkept variant hvariant
  | symbols names => exact hshape.elim

/-- An array stands for a value of a named type if its items, or those behind its tag, are the
members of one of the shapes of the type. -/
theorem readDocument_array_named {items : List Written} {closed : Bool} {type : TypeName}
    {route : Route} {value : type.Carrier}
    (h : readDocument (.array items closed) (.named type) route = .ok value) :
    ∃ shape, (declaration type).Declares shape ∧ ∃ others inside sequence values,
      (others = items ∨ ∃ tag, items = tag :: others) ∧
        readPositions others shape.members inside 0 sequence = .ok values ∧
          shape.build values = value := by
  unfold readDocument at h
  dsimp only at h
  cases hdeclared : declaration type with
  | struct name shape =>
    rw [hdeclared] at h
    obtain ⟨inside, -, h⟩ := bind_eq_ok.mp h
    obtain ⟨values, hvalues, h⟩ := bind_eq_ok.mp h
    exact ⟨shape, rfl, items, inside, _, values, .inl rfl, hvalues, pure_eq_ok.mp h⟩
  | union name variants =>
    rw [hdeclared] at h
    obtain ⟨inside, -, h⟩ := bind_eq_ok.mp h
    cases items with
    | nil => exact absurd (ite_throw_eq_ok.mp h).2 throw_ne_ok
    | cons tag items =>
      obtain ⟨variant, hvariant, h⟩ := bind_eq_ok.mp h
      obtain ⟨values, hvalues, h⟩ := bind_eq_ok.mp (ite_throw_eq_ok.mp h).2
      exact ⟨variant.shape, ⟨variant, readTag_mem hvariant, rfl⟩, items, .part, _, values,
        .inr ⟨tag, rfl⟩, hvalues, pure_eq_ok.mp h⟩
  | symbols names =>
    rw [hdeclared] at h
    cases route with
    | text depth => exact absurd h throw_ne_ok
    | value | part =>
      have hwrong : wrongType (.array items closed) .symbol = .ok value := h
      exact absurd hwrong wrongType_ne_ok

/-- An object stands for a value of a named type if its members are those of one of the shapes of
the type, or if it is one of its symbols. -/
theorem readDocument_object_named {members : List (String × Written)} {closed : Bool}
    {type : TypeName} {route : Route} {value : type.Carrier}
    (h : readDocument (.object members closed) (.named type) route = .ok value) :
    (∃ shape, (declaration type).Declares shape ∧ ∃ inside slots,
      readMembers members shape.members (.empty shape.members) inside = .ok slots ∧
        ∃ values, slots.finish = .ok values ∧ shape.build values = value) ∨
      ∃ names, declaration type = .symbols names ∧ ∃ entry ∈ names, entry.2 = value := by
  unfold readDocument at h
  dsimp only at h
  cases hdeclared : declaration type with
  | struct name shape =>
    rw [hdeclared] at h
    obtain ⟨inside, -, h⟩ := bind_eq_ok.mp h
    obtain ⟨slots, hslots, h⟩ := bind_eq_ok.mp h
    obtain ⟨values, hvalues, h⟩ := bind_eq_ok.mp (ite_throw_eq_ok.mp h).2
    exact .inl ⟨shape, rfl, inside, slots, hslots, values, hvalues, pure_eq_ok.mp h⟩
  | union name variants =>
    rw [hdeclared] at h
    obtain ⟨inside, -, h⟩ := bind_eq_ok.mp h
    obtain ⟨variant?, hvariant, h⟩ := bind_eq_ok.mp h
    have h := (ite_throw_eq_ok.mp h).2
    cases variant? with
    | none => exact absurd h throw_ne_ok
    | some variant =>
      obtain ⟨slots, hslots, h⟩ := bind_eq_ok.mp h
      obtain ⟨values, hvalues, h⟩ := bind_eq_ok.mp h
      have hmem := findTag_mem (fun _ hnone => absurd hnone (Option.not_mem_none _)) hvariant
      exact .inl ⟨variant.shape, ⟨variant, hmem, rfl⟩, .part, slots, hslots, values, hvalues,
        pure_eq_ok.mp h⟩
  | symbols names =>
    rw [hdeclared] at h
    obtain ⟨inside, -, h⟩ := bind_eq_ok.mp h
    exact .inr ⟨names, rfl, readSymbolObject_mem h⟩

/-! ## Documents -/

/-- A free value is read with each of its members named once. -/
theorem merged_of_readFree {document : Written} {route : Route} {value : Json}
    (h : readFree document route = .ok value) : value.merged = value := by
  obtain ⟨depth, hvalue⟩ := value?_of_readFree h
  exact Json.merged_of_value? document hvalue

theorem readScalar_sound (hholds : Kept holds) {document : Written} {kind : Kind} {route : Route}
    {value : kind.Value} (h : readScalar document kind route = .ok value) :
    kind.Sound holds value := by
  cases kind with
  | string | boolean | count => trivial
  | free => exact merged_of_readFree h
  | list item => exact absurd h wrongType_ne_ok
  | map inner => exact absurd h wrongType_ne_ok
  | named type =>
    have hkept := hholds type
    unfold readScalar at h
    dsimp only at h
    split at h
    · next names name hnames =>
      rw [hnames] at hkept
      obtain ⟨entry, hentry, rfl⟩ := findSymbol_mem h
      exact hkept entry hentry
    · exact absurd h throw_ne_ok
    · exact absurd h wrongType_ne_ok

mutual

/-- Every value that is read is sound. -/
theorem readDocument_sound (hholds : Kept holds) : (document : Written) → {kind : Kind} →
    {route : Route} → {value : kind.Value} → readDocument document kind route = .ok value →
      kind.Sound holds value
  | .array items closed, kind, route, value, h => by
    cases kind with
    | string | boolean | count => trivial
    | free =>
      unfold readDocument at h
      exact merged_of_readFree h
    | map inner =>
      unfold readDocument at h
      exact absurd h wrongType_ne_ok
    | list item =>
      unfold readDocument at h
      obtain ⟨inside, -, h⟩ := bind_eq_ok.mp h
      obtain ⟨values, hvalues, h⟩ := bind_eq_ok.mp h
      obtain rfl := pure_eq_ok.mp (ite_throw_eq_ok.mp h).2
      exact readItems_sound hholds items hvalues
    | named type =>
      obtain ⟨shape, hshape, others, inside, sequence, values, hothers, hvalues, rfl⟩ :=
        readDocument_array_named h
      have hkept := (hholds type).shape hshape
      refine hkept.build values ?_
      rcases hothers with rfl | ⟨tag, rfl⟩
      · exact readPositions_sound hholds others hkept.defaults hvalues
      · exact readPositions_sound hholds others hkept.defaults hvalues
  | .object members closed, kind, route, value, h => by
    cases kind with
    | string | boolean | count => trivial
    | free =>
      unfold readDocument at h
      exact merged_of_readFree h
    | list item =>
      unfold readDocument at h
      exact absurd h wrongType_ne_ok
    | map inner =>
      unfold readDocument at h
      obtain ⟨inside, -, h⟩ := bind_eq_ok.mp h
      obtain ⟨entries, hentries, h⟩ := bind_eq_ok.mp h
      obtain rfl := pure_eq_ok.mp (ite_throw_eq_ok.mp h).2
      exact ⟨Entries.distinct_ofPairs entries, fun entry hentry =>
        readEntries_sound hholds members hentries entry (Entries.mem_ofPairs hentry)⟩
    | named type =>
      rcases readDocument_object_named h with
        ⟨shape, hshape, inside, slots, hslots, values, hvalues, rfl⟩ |
          ⟨names, hnames, entry, hentry, rfl⟩
      · have hkept := (hholds type).shape hshape
        exact hkept.build values (Slots.finish_sound hkept.defaults
          (readMembers_sound hholds members (Slots.empty_sound _) hslots) hvalues)
      · have hkept := hholds type
        rw [hnames] at hkept
        exact hkept entry hentry
  | .null, _, _, _, h | .bool _, _, _, _, h | .number _, _, _, _, h | .string _, _, _, _, h => by
    rw [readDocument] at h
    exact readScalar_sound hholds h
  | .fault, _, _, _, h => by
    rw [readDocument] at h
    exact absurd h throw_ne_ok

theorem readItems_sound (hholds : Kept holds) : (items : List Written) → {kind : Kind} →
    {route : Route} → {values : List kind.Value} → readItems items kind route = .ok values →
      ∀ value ∈ values, kind.Sound holds value
  | [], kind, route, values, h => by
    obtain rfl := pure_eq_ok.mp h
    exact nofun
  | document :: items, kind, route, values, h => by
    rw [readItems] at h
    obtain ⟨value, hvalue, h⟩ := bind_eq_ok.mp h
    obtain ⟨others, hothers, h⟩ := bind_eq_ok.mp h
    obtain rfl := pure_eq_ok.mp h
    exact List.forall_mem_cons.mpr ⟨readDocument_sound hholds document hvalue,
      readItems_sound hholds items hothers⟩

theorem readEntries_sound (hholds : Kept holds) : (members : List (String × Written)) →
    {kind : Kind} → {route : Route} → {entries : List (String × kind.Value)} →
      readEntries members kind route = .ok entries → ∀ entry ∈ entries, kind.Sound holds entry.2
  | [], kind, route, entries, h => by
    obtain rfl := pure_eq_ok.mp h
    exact nofun
  | (name, document) :: members, kind, route, entries, h => by
    rw [readEntries] at h
    obtain ⟨value, hvalue, h⟩ := bind_eq_ok.mp h
    obtain ⟨others, hothers, h⟩ := bind_eq_ok.mp h
    obtain rfl := pure_eq_ok.mp h
    exact List.forall_mem_cons.mpr ⟨readDocument_sound hholds document hvalue,
      readEntries_sound hholds members hothers⟩

theorem readMembers_sound (hholds : Kept holds) : (written : List (String × Written)) →
    {members : List Member} → {slots next : Slots members} → {route : Route} →
      Slots.Sound holds members slots →
      readMembers written members slots route = .ok next → Slots.Sound holds members next
  | [], _, _, _, _, hslots, h => by
    obtain rfl := pure_eq_ok.mp h
    exact hslots
  | (name, document) :: written, members, slots, next, route, hslots, h => by
    rw [readMembers] at h
    obtain ⟨met, hmet, h⟩ := bind_eq_ok.mp h
    exact readMembers_sound hholds written (Slots.meet_sound
      (fun _ _ hvalue => readDocument_sound hholds document hvalue) hslots hmet) h

theorem readPositions_sound (hholds : Kept holds) : (items : List Written) →
    {members : List Member} → {route : Route} → {index : Nat} → {sequence : Sequence} →
      {values : Values members} → (∀ member ∈ members, member.SoundDefault holds) →
        readPositions items members route index sequence = .ok values →
          Values.Sound holds members values
  | [], members, route, index, sequence, values, hdefaults, h => by
    rw [readPositions] at h
    split at h
    · exact absentFrom_sound hdefaults h
    · exact absurd h throw_ne_ok
  | _ :: _, [], _, _, _, _, _, h => absurd h throw_ne_ok
  | document :: items, member :: members, route, index, sequence, values, hdefaults, h => by
    obtain ⟨-, hdefaults⟩ := List.forall_mem_cons.mp hdefaults
    rw [readPositions] at h
    obtain ⟨value, hvalue, h⟩ := bind_eq_ok.mp h
    obtain ⟨others, hothers, h⟩ := bind_eq_ok.mp h
    obtain rfl := pure_eq_ok.mp h
    exact ⟨Member.read_sound (fun _ _ hread => readDocument_sound hholds document hread) hvalue,
      readPositions_sound hholds items hdefaults hothers⟩

end

end NestedSql.Wire

namespace NestedSql

/-! ## Names in requests -/

mutual

/-- No fields and no aggregates of the query, at any depth, are given one name twice. -/
def Query.NamesDistinct : Query → Prop
  | ⟨fields, aggregates, _, _, _, _, groups⟩ =>
    rowNamesDistinct fields ∧ (∀ entries ∈ aggregates, Entries.Distinct entries) ∧
      ∀ grouping ∈ groups, Entries.Distinct grouping.aggregates

def rowNamesDistinct : Option (List (String × Field)) → Prop
  | none => True
  | some fields => Entries.Distinct fields ∧ fieldsNamesDistinct fields

def fieldsNamesDistinct : List (String × Field) → Prop
  | [] => True
  | (_, field) :: fields => field.NamesDistinct ∧ fieldsNamesDistinct fields

def Field.NamesDistinct : Field → Prop
  | .column _ => True
  | .relationship _ query => query.NamesDistinct

end

theorem fieldsNamesDistinct_of_forall {fields : List (String × Field)}
    (h : ∀ entry ∈ fields, entry.2.NamesDistinct) : fieldsNamesDistinct fields := by
  induction fields with
  | nil => trivial
  | cons entry fields ih =>
    obtain ⟨hentry, hfields⟩ := List.forall_mem_cons.mp h
    exact ⟨hentry, ih hfields⟩

namespace Wire

/-- All defaults are sound, whatever the invariant: none is a value of a type. -/
theorem defaults_sound {holds : Invariant} (type : TypeName) :
    (declaration type).Keeps holds fun _ => True := by
  cases type <;> simp [declaration, Declaration.Keeps, Shape.keeps_true_iff, Member.SoundDefault,
    Kind.Sound, Entries.Distinct]

/-- The names of queries are distinct. -/
def distinctNames : Invariant
  | .request, request => request.query.NamesDistinct
  | .query, query => query.NamesDistinct
  | .field, field => field.NamesDistinct
  | .grouping, grouping => Entries.Distinct grouping.aggregates
  | _, _ => True

theorem distinctNames_kept : Kept distinctNames := by
  intro type
  cases type with
  | request =>
    refine ⟨Shape.Keeps.defaults (defaults_sound .request), ?_⟩
    rintro ⟨collection, query, relationships, bindings, _⟩ ⟨-, hquery, -⟩
    exact hquery
  | query =>
    refine ⟨Shape.Keeps.defaults (defaults_sound .query), ?_⟩
    rintro ⟨fields, aggregates, limit, offset, orderBy, predicate, groups, _⟩
      ⟨hfields, haggregates, -, -, -, -, hgroups, -⟩
    refine ⟨?_, fun entries hentries => (haggregates entries hentries).1.1,
      fun grouping hgrouping => (hgroups grouping hgrouping).1⟩
    cases fields with
    | none => trivial
    | some fields =>
      obtain ⟨⟨hdistinct, hinside⟩, -⟩ := hfields fields rfl
      exact ⟨hdistinct, fieldsNamesDistinct_of_forall hinside⟩
  | field =>
    rw [declaration, Declaration.Keeps, List.forall_mem_cons, List.forall_mem_singleton]
    refine ⟨⟨by simp [Member.SoundDefault], fun _ _ => trivial⟩,
      ⟨by simp [Member.SoundDefault], ?_⟩⟩
    rintro ⟨name, query, _⟩ ⟨-, hquery, -⟩
    exact hquery
  | grouping =>
    refine ⟨Shape.Keeps.defaults (defaults_sound .grouping), ?_⟩
    rintro ⟨dimensions, aggregates, predicate, orderBy, limit, offset, _⟩ ⟨-, haggregates, -⟩
    exact haggregates.1
  | _ => exact defaults_sound _

/-- The query of a request that is read names nothing twice. -/
theorem namesDistinct_of_fromHead {text : String} {request : Request}
    (h : fromHead (.named .request) text = .ok request) : request.query.NamesDistinct :=
  readDocument_sound distinctNames_kept _ h

end Wire

end NestedSql
