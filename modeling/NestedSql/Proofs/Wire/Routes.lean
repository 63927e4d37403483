import NestedSql.Proofs.Wire.Forms

/-!
# Documents that arrive by another route

What is read from a document, as a value or from a text, is read from it by every route that can
take the document in whole: as a value, inside a union, and from a text with room for its nesting.
Nothing is said of the parts of unions as values: a part may name its variant by an index, which no
value does.
-/

namespace NestedSql

/-! ## Values of documents -/

namespace Written

mutual

/-- Room for the nesting of the document is room enough, and more does not change the value. -/
theorem value?_mono : (document : Written) → {depth more : Nat} → {value : Json} →
    document.value? depth = some value → document.depth ≤ more →
      document.value? more = some value
  | .null, _, _, _, h, _ | .bool _, _, _, _, h, _ | .number _, _, _, _, h, _
  | .string _, _, _, _, h, _ => h
  | .array items closed, 0, _, _, h, _ => nomatch h
  | .array items closed, depth + 1, 0, _, _, hle => absurd hle (Nat.not_succ_le_zero _)
  | .array items closed, depth + 1, more + 1, value, h, hle => by
    rw [value?] at h ⊢
    split at h
    · next hclosed =>
      rw [if_pos hclosed]
      obtain ⟨values, hvalues, rfl⟩ := Option.map_eq_some_iff.mp h
      rw [itemValues?_mono items hvalues (Nat.le_of_succ_le_succ hle), Option.map_some]
    · cases h
  | .object members closed, 0, _, _, h, _ => nomatch h
  | .object members closed, depth + 1, 0, _, _, hle => absurd hle (Nat.not_succ_le_zero _)
  | .object members closed, depth + 1, more + 1, value, h, hle => by
    rw [value?] at h ⊢
    split at h
    · next hclosed =>
      rw [if_pos hclosed]
      obtain ⟨values, hvalues, rfl⟩ := Option.map_eq_some_iff.mp h
      rw [memberValues?_mono members hvalues (Nat.le_of_succ_le_succ hle), Option.map_some]
    · cases h
  | .fault, _, _, _, h, _ => nomatch h

theorem itemValues?_mono : (items : List Written) → {depth more : Nat} → {values : List Json} →
    itemValues? items depth = some values → itemsDepth items ≤ more →
      itemValues? items more = some values
  | [], _, _, _, h, _ => h
  | item :: items, depth, more, values, h, hle => by
    rw [itemsDepth, Nat.max_le] at hle
    rw [itemValues?] at h ⊢
    obtain ⟨value, hvalue, h⟩ := Option.bind_eq_some_iff.mp h
    obtain ⟨others, hothers, h⟩ := Option.bind_eq_some_iff.mp h
    rw [value?_mono item hvalue hle.1, itemValues?_mono items hothers hle.2]
    exact h

theorem memberValues?_mono : (members : List (String × Written)) → {depth more : Nat} →
    {values : List (String × Json)} → memberValues? members depth = some values →
      membersDepth members ≤ more → memberValues? members more = some values
  | [], _, _, _, h, _ => h
  | (name, item) :: members, depth, more, values, h, hle => by
    rw [membersDepth, Nat.max_le] at hle
    rw [memberValues?] at h ⊢
    obtain ⟨value, hvalue, h⟩ := Option.bind_eq_some_iff.mp h
    obtain ⟨others, hothers, h⟩ := Option.bind_eq_some_iff.mp h
    rw [value?_mono item hvalue hle.1, memberValues?_mono members hothers hle.2]
    exact h

end

/-- A document has one value, whatever room it is read with. -/
theorem value?_unique {document : Written} {depth other : Nat} {value found : Json}
    (h : document.value? depth = some value) (hfound : document.value? other = some found) :
    value = found := by
  have hvalue := value?_mono document h (Nat.le_refl _)
  rw [value?_mono document hfound (Nat.le_refl _)] at hvalue
  exact (Option.some.inj hvalue).symm

theorem isSome_of_itemValues? {depth : Nat} : {items : List Written} →
    (itemValues? items depth).isSome = true → ∀ item ∈ items, (item.value? depth).isSome = true
  | [], _, _, hitem => absurd hitem List.not_mem_nil
  | first :: items, h, item, hitem => by
    obtain ⟨values, h⟩ := Option.isSome_iff_exists.mp h
    rw [itemValues?] at h
    obtain ⟨value, hvalue, h⟩ := Option.bind_eq_some_iff.mp h
    obtain ⟨others, hothers, h⟩ := Option.bind_eq_some_iff.mp h
    rcases List.mem_cons.mp hitem with rfl | hitem
    · exact Option.isSome_of_eq_some hvalue
    · exact isSome_of_itemValues? (Option.isSome_of_eq_some hothers) item hitem

theorem isSome_of_memberValues? {depth : Nat} : {members : List (String × Written)} →
    (memberValues? members depth).isSome = true →
      ∀ member ∈ members, (member.2.value? depth).isSome = true
  | [], _, _, hmember => absurd hmember List.not_mem_nil
  | (name, first) :: members, h, member, hmember => by
    obtain ⟨values, h⟩ := Option.isSome_iff_exists.mp h
    rw [memberValues?] at h
    obtain ⟨value, hvalue, h⟩ := Option.bind_eq_some_iff.mp h
    obtain ⟨others, hothers, h⟩ := Option.bind_eq_some_iff.mp h
    rcases List.mem_cons.mp hmember with rfl | hmember
    · exact Option.isSome_of_eq_some hvalue
    · exact isSome_of_memberValues? (Option.isSome_of_eq_some hothers) member hmember

end Written

namespace Wire

open Compile (bind_eq_ok pure_eq_ok throw_ne_ok)

/-! ## Routes -/

/-- A route that can take an array in whole goes inside it and can take its items. -/
theorem Route.enter_array {route : Route} {items : List Written} {closed : Bool}
    (h : route.isSound (.array items closed) = true) :
    ∃ inside, route.enter = .ok inside ∧ ∀ item ∈ items, inside.isSound item = true := by
  cases route with
  | value => exact ⟨.value, rfl, fun _ _ => rfl⟩
  | part => exact ⟨.part, rfl, fun _ _ => rfl⟩
  | text depth =>
    cases depth with
    | zero => cases h
    | succ depth =>
      refine ⟨.text depth, rfl, Written.isSome_of_itemValues? ?_⟩
      rw [Route.isSound, Written.value?] at h
      split at h
      · rwa [Option.isSome_map] at h
      · cases h

theorem Route.enter_object {route : Route} {members : List (String × Written)} {closed : Bool}
    (h : route.isSound (.object members closed) = true) :
    ∃ inside, route.enter = .ok inside ∧ ∀ member ∈ members, inside.isSound member.2 = true := by
  cases route with
  | value => exact ⟨.value, rfl, fun _ _ => rfl⟩
  | part => exact ⟨.part, rfl, fun _ _ => rfl⟩
  | text depth =>
    cases depth with
    | zero => cases h
    | succ depth =>
      refine ⟨.text depth, rfl, Written.isSome_of_memberValues? ?_⟩
      rw [Route.isSound, Written.value?] at h
      split at h
      · rwa [Option.isSome_map] at h
      · cases h

/-- A canonical document within the bound can be taken in whole. -/
theorem Route.isSound_written {document : Json} {depth : Nat}
    (h : document.written.depth ≤ depth) : (Route.text depth).isSound document.written = true := by
  rw [Route.isSound, Json.value?_written document h]
  rfl

/-- The route is not inside a union that has been met in whole. -/
def Route.Outer (route : Route) : Prop := route ≠ .part

theorem Route.outer_value : Route.value.Outer := nofun

theorem Route.outer_text (depth : Nat) : (Route.text depth).Outer := nofun

theorem Route.Outer.enter {route inside : Route} (h : route.Outer)
    (hinside : route.enter = .ok inside) : inside.Outer := by
  cases route with
  | value =>
    obtain rfl := Except.ok.inj hinside
    exact Route.outer_value
  | part => exact absurd rfl h
  | text depth =>
    cases depth with
    | zero => cases hinside
    | succ depth =>
      obtain rfl := Except.ok.inj hinside
      exact Route.outer_text depth

/-! ## Tags, symbols and scalars -/

theorem readTag_of_outer {α : Type} {variants : List (Variant α)} {document : Written}
    {route other : Route} {variant : Variant α} (hroute : route.Outer)
    (h : readTag variants document route = .ok variant) :
    readTag variants document other = .ok variant := by
  unfold readTag at h ⊢
  split at h
  · exact h
  · exact absurd rfl hroute
  · exact absurd h wrongType_ne_ok

theorem findTag_of_outer {α : Type} {variants : List (Variant α)} {route other : Route}
    (hroute : route.Outer) {result : Option (Variant α)} : {members : List (String × Written)} →
      (∀ member ∈ members, other.isSound member.2 = true) → {found : Option (Variant α)} →
        findTag variants route members found = .ok result →
          findTag variants other members found = .ok result
  | [], _, _, h => h
  | (name, document) :: members, hsound, found, h => by
    obtain ⟨hdocument, hmembers⟩ := List.forall_mem_cons.mp hsound
    unfold findTag at h ⊢
    split at h
    · next hname =>
      rw [if_pos hname]
      cases found with
      | some variant => exact absurd h throw_ne_ok
      | none =>
        obtain ⟨variant, hvariant, h⟩ := bind_eq_ok.mp h
        exact bind_eq_ok.mpr ⟨variant, readTag_of_outer hroute hvariant,
          findTag_of_outer hroute hmembers h⟩
    · next hname =>
      rw [if_neg hname, if_pos hdocument]
      split at h
      · exact findTag_of_outer hroute hmembers h
      · exact absurd h throw_ne_ok

/-- A symbol that is read from an object has one member, which is null. -/
theorem readSymbolObject_outer {α : Type} {names : List (String × α)}
    {members : List (String × Written)} {closed : Bool} {route : Route} {value : α}
    (hroute : route.Outer) (h : readSymbolObject names members closed route = .ok value) :
    ∃ name, members = [(name, .null)] ∧ findSymbol names name = .ok value := by
  cases route with
  | part => exact absurd rfl hroute
  | value =>
    match members with
    | [] => exact absurd h throw_ne_ok
    | _ :: _ :: _ => exact absurd h throw_ne_ok
    | [(name, document)] =>
      obtain ⟨found, hfound, h⟩ := bind_eq_ok.mp h
      cases document with
      | null =>
        obtain rfl := pure_eq_ok.mp h
        exact ⟨name, rfl, hfound⟩
      | object members closed => cases members <;> exact absurd h wrongType_ne_ok
      | _ => exact absurd h wrongType_ne_ok
  | text depth =>
    match members with
    | [] => exact absurd h throw_ne_ok
    | (name, document) :: others =>
      obtain ⟨found, hfound, h⟩ := bind_eq_ok.mp h
      cases document with
      | null =>
        obtain ⟨⟨-, hothers⟩, h⟩ := ite_throw_eq_ok.mp h
        obtain rfl := pure_eq_ok.mp h
        obtain rfl := List.isEmpty_iff.mp hothers
        exact ⟨name, rfl, hfound⟩
      | _ => exact absurd h wrongType_ne_ok

theorem readSymbolObject_of_outer {α : Type} {names : List (String × α)}
    {members : List (String × Written)} {closed : Bool} {route other inside : Route} {value : α}
    (hroute : route.Outer) (hsound : other.isSound (.object members closed) = true)
    (hinside : other.enter = .ok inside)
    (h : readSymbolObject names members closed route = .ok value) :
    readSymbolObject names members closed inside = .ok value := by
  obtain ⟨name, rfl, hfound⟩ := readSymbolObject_outer hroute h
  cases other with
  | value | part =>
    obtain rfl := Except.ok.inj hinside
    exact bind_eq_ok.mpr ⟨value, hfound, rfl⟩
  | text depth =>
    cases depth with
    | zero => cases hsound
    | succ depth =>
      obtain rfl := Except.ok.inj hinside
      have hclosed : closed = true := by
        rw [Route.isSound, Written.value?] at hsound
        split at hsound
        · assumption
        · cases hsound
      subst hclosed
      exact bind_eq_ok.mpr ⟨value, hfound, rfl⟩

/-- A free value is read alike by all routes. -/
theorem readFree_of_sound {document : Written} {route other : Route} {value : Json}
    (hsound : other.isSound document = true) (h : readFree document route = .ok value) :
    readFree document other = .ok value := by
  obtain ⟨_, hfree⟩ := value?_of_readFree h
  have hvalue := Written.value?_mono document hfree (Nat.le_refl _)
  unfold readFree
  dsimp only
  cases other with
  | value | part =>
    dsimp only
    rw [hvalue]
    rfl
  | text depth =>
    obtain ⟨found, hfound⟩ := Option.isSome_iff_exists.mp hsound
    dsimp only
    rw [hfound, Written.value?_unique hfound hvalue]
    rfl

theorem readScalar_of_outer {document : Written} {kind : Kind} {route other : Route}
    {value : kind.Value} (hsound : other.isSound document = true)
    (h : readScalar document kind route = .ok value) :
    readScalar document kind other = .ok value := by
  cases kind with
  | free => exact readFree_of_sound hsound h
  | named type =>
    unfold readScalar at h ⊢
    dsimp only at h ⊢
    split at h
    · next hnames =>
      rw [hnames]
      exact h
    · exact absurd h throw_ne_ok
    · exact absurd h wrongType_ne_ok
  | _ => exact h

/-! ## Members -/

theorem Member.read_mono {member : Member} {document : Written}
    {read next : (kind : Kind) → Except Fault kind.Value} {value : member.Value}
    (hread : ∀ kind value, read kind = .ok value → next kind = .ok value)
    (h : member.read document read = .ok value) : member.read document next = .ok value := by
  obtain ⟨name, kind, presence⟩ := member
  cases presence with
  | required | defaulted default => exact hread kind value h
  | optional =>
    have hpresent : ∀ {value : Option kind.Value}, some <$> read kind = .ok value →
        some <$> next kind = .ok value := by
      intro value h
      cases hkind : read kind with
      | error fault =>
        rw [hkind] at h
        cases h
      | ok found =>
        rw [hkind] at h
        rw [hread kind found hkind]
        exact h
    cases document with
    | null => exact h
    | _ => exact hpresent h

theorem Slots.meet_mono {name : String} {document : Written}
    {read next : (kind : Kind) → Except Fault kind.Value}
    (hread : ∀ kind value, read kind = .ok value → next kind = .ok value) :
    {members : List Member} → {slots met : Slots members} →
      slots.meet name document read members = .ok met →
        slots.meet name document next members = .ok met
  | [], _, _, h => h
  | member :: members, (slot, slots), met, h => by
    unfold Slots.meet at h ⊢
    split at h
    · next hname =>
      rw [if_pos hname]
      cases slot with
      | some found => exact absurd h throw_ne_ok
      | none =>
        obtain ⟨value, hvalue, h⟩ := bind_eq_ok.mp h
        exact bind_eq_ok.mpr ⟨value, Member.read_mono hread hvalue, h⟩
    · next hname =>
      rw [if_neg hname]
      obtain ⟨later, hlater, h⟩ := bind_eq_ok.mp h
      exact bind_eq_ok.mpr ⟨later, meet_mono hread hlater, h⟩

/-! ## Documents -/

mutual

/-- What is read outside the parts of unions is read by every route that can take the document in
whole. -/
theorem readDocument_of_outer : (document : Written) → {kind : Kind} → {route other : Route} →
    {value : kind.Value} → route.Outer → other.isSound document = true →
      readDocument document kind route = .ok value → readDocument document kind other = .ok value
  | .array items closed, kind, route, other, value, hroute, hsound, h => by
    obtain ⟨inside, hinside, hitems⟩ := Route.enter_array hsound
    cases kind with
    | string | boolean | count | map inner =>
      unfold readDocument at h
      exact absurd h wrongType_ne_ok
    | free =>
      rw [readDocument] at h ⊢
      exact readFree_of_sound hsound h
    | list item =>
      rw [readDocument] at h ⊢
      obtain ⟨source, hsource, h⟩ := bind_eq_ok.mp h
      obtain ⟨values, hvalues, h⟩ := bind_eq_ok.mp h
      refine bind_eq_ok.mpr ⟨inside, hinside, bind_eq_ok.mpr ⟨values, ?_, h⟩⟩
      exact readItems_of_outer items (hroute.enter hsource) hitems hvalues
    | named type =>
      unfold readDocument at h ⊢
      dsimp only at h ⊢
      cases hdeclared : declaration type with
      | struct name shape =>
        rw [hdeclared] at h
        obtain ⟨source, hsource, h⟩ := bind_eq_ok.mp h
        obtain ⟨values, hvalues, h⟩ := bind_eq_ok.mp h
        refine bind_eq_ok.mpr ⟨inside, hinside, bind_eq_ok.mpr ⟨values, ?_, h⟩⟩
        exact readPositions_of_outer items (hroute.enter hsource) hitems hvalues
      | union name variants =>
        rw [hdeclared] at h
        obtain ⟨source, hsource, h⟩ := bind_eq_ok.mp h
        refine bind_eq_ok.mpr ⟨inside, hinside, ?_⟩
        cases items with
        | nil => exact absurd (ite_throw_eq_ok.mp h).2 throw_ne_ok
        | cons tag items =>
          obtain ⟨variant, hvariant, h⟩ := bind_eq_ok.mp h
          obtain ⟨⟨hclosed, -⟩, h⟩ := ite_throw_eq_ok.mp h
          have hall := List.all_eq_true.mpr (List.forall_mem_cons.mp hitems).2
          exact bind_eq_ok.mpr ⟨variant, readTag_of_outer (hroute.enter hsource) hvariant,
            ite_throw_eq_ok.mpr ⟨⟨hclosed, hall⟩, h⟩⟩
      | symbols names =>
        rw [hdeclared] at h
        cases route with
        | text depth => exact absurd h throw_ne_ok
        | value | part =>
          have hwrong : wrongType (.array items closed) .symbol = .ok value := h
          exact absurd hwrong wrongType_ne_ok
  | .object members closed, kind, route, other, value, hroute, hsound, h => by
    obtain ⟨inside, hinside, hmembers⟩ := Route.enter_object hsound
    cases kind with
    | string | boolean | count | list item =>
      unfold readDocument at h
      exact absurd h wrongType_ne_ok
    | free =>
      rw [readDocument] at h ⊢
      exact readFree_of_sound hsound h
    | map inner =>
      rw [readDocument] at h ⊢
      obtain ⟨source, hsource, h⟩ := bind_eq_ok.mp h
      obtain ⟨entries, hentries, h⟩ := bind_eq_ok.mp h
      refine bind_eq_ok.mpr ⟨inside, hinside, bind_eq_ok.mpr ⟨entries, ?_, h⟩⟩
      exact readEntries_of_outer members (hroute.enter hsource) hmembers hentries
    | named type =>
      unfold readDocument at h ⊢
      dsimp only at h ⊢
      cases hdeclared : declaration type with
      | struct name shape =>
        rw [hdeclared] at h
        obtain ⟨source, hsource, h⟩ := bind_eq_ok.mp h
        obtain ⟨slots, hslots, h⟩ := bind_eq_ok.mp h
        refine bind_eq_ok.mpr ⟨inside, hinside, bind_eq_ok.mpr ⟨slots, ?_, h⟩⟩
        exact readMembers_of_outer members (hroute.enter hsource) hmembers hslots
      | union name variants =>
        rw [hdeclared] at h
        obtain ⟨source, hsource, h⟩ := bind_eq_ok.mp h
        obtain ⟨variant?, hvariant, h⟩ := bind_eq_ok.mp h
        exact bind_eq_ok.mpr ⟨inside, hinside, bind_eq_ok.mpr
          ⟨variant?, findTag_of_outer (hroute.enter hsource) hmembers hvariant, h⟩⟩
      | symbols names =>
        rw [hdeclared] at h
        obtain ⟨source, hsource, h⟩ := bind_eq_ok.mp h
        exact bind_eq_ok.mpr ⟨inside, hinside,
          readSymbolObject_of_outer (hroute.enter hsource) hsound hinside h⟩
  | .null, _, _, _, _, _, hsound, h | .bool _, _, _, _, _, _, hsound, h
  | .number _, _, _, _, _, _, hsound, h | .string _, _, _, _, _, _, hsound, h => by
    rw [readDocument] at h ⊢
    exact readScalar_of_outer hsound h
  | .fault, _, _, _, _, _, _, h => by
    rw [readDocument] at h
    exact absurd h throw_ne_ok

theorem readItems_of_outer : (items : List Written) → {kind : Kind} → {route other : Route} →
    {values : List kind.Value} → route.Outer → (∀ item ∈ items, other.isSound item = true) →
      readItems items kind route = .ok values → readItems items kind other = .ok values
  | [], _, _, _, _, _, _, h => h
  | document :: items, kind, route, other, values, hroute, hsound, h => by
    obtain ⟨hdocument, hitems⟩ := List.forall_mem_cons.mp hsound
    rw [readItems] at h ⊢
    obtain ⟨value, hvalue, h⟩ := bind_eq_ok.mp h
    obtain ⟨others, hothers, h⟩ := bind_eq_ok.mp h
    exact bind_eq_ok.mpr ⟨value, readDocument_of_outer document hroute hdocument hvalue,
      bind_eq_ok.mpr ⟨others, readItems_of_outer items hroute hitems hothers, h⟩⟩

theorem readEntries_of_outer : (members : List (String × Written)) → {kind : Kind} →
    {route other : Route} → {entries : List (String × kind.Value)} → route.Outer →
      (∀ member ∈ members, other.isSound member.2 = true) →
        readEntries members kind route = .ok entries →
          readEntries members kind other = .ok entries
  | [], _, _, _, _, _, _, h => h
  | (name, document) :: members, kind, route, other, entries, hroute, hsound, h => by
    obtain ⟨hdocument, hmembers⟩ := List.forall_mem_cons.mp hsound
    rw [readEntries] at h ⊢
    obtain ⟨value, hvalue, h⟩ := bind_eq_ok.mp h
    obtain ⟨others, hothers, h⟩ := bind_eq_ok.mp h
    exact bind_eq_ok.mpr ⟨value, readDocument_of_outer document hroute hdocument hvalue,
      bind_eq_ok.mpr ⟨others, readEntries_of_outer members hroute hmembers hothers, h⟩⟩

theorem readMembers_of_outer : (written : List (String × Written)) → {members : List Member} →
    {slots next : Slots members} → {route other : Route} → route.Outer →
      (∀ member ∈ written, other.isSound member.2 = true) →
        readMembers written members slots route = .ok next →
          readMembers written members slots other = .ok next
  | [], _, _, _, _, _, _, _, h => h
  | (name, document) :: written, members, slots, next, route, other, hroute, hsound, h => by
    obtain ⟨hdocument, hwritten⟩ := List.forall_mem_cons.mp hsound
    rw [readMembers] at h ⊢
    obtain ⟨met, hmet, h⟩ := bind_eq_ok.mp h
    refine bind_eq_ok.mpr ⟨met, Slots.meet_mono ?_ hmet,
      readMembers_of_outer written hroute hwritten h⟩
    exact fun _ _ => readDocument_of_outer document hroute hdocument

theorem readPositions_of_outer : (items : List Written) → {members : List Member} →
    {route other : Route} → {index : Nat} → {sequence : Sequence} → {values : Values members} →
      route.Outer → (∀ item ∈ items, other.isSound item = true) →
        readPositions items members route index sequence = .ok values →
          readPositions items members other index sequence = .ok values
  | [], _, _, _, _, _, _, _, _, h => by
    rw [readPositions] at h ⊢
    exact h
  | _ :: _, [], _, _, _, _, _, _, _, h => absurd h throw_ne_ok
  | document :: items, member :: members, route, other, index, sequence, values, hroute, hsound,
    h => by
    obtain ⟨hdocument, hitems⟩ := List.forall_mem_cons.mp hsound
    rw [readPositions] at h ⊢
    obtain ⟨value, hvalue, h⟩ := bind_eq_ok.mp h
    obtain ⟨others, hothers, h⟩ := bind_eq_ok.mp h
    refine bind_eq_ok.mpr ⟨value, Member.read_mono ?_ hvalue,
      bind_eq_ok.mpr ⟨others, readPositions_of_outer items hroute hitems hothers, h⟩⟩
    exact fun _ _ => readDocument_of_outer document hroute hdocument

end

end Wire

end NestedSql
