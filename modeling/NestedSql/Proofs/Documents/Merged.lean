import Mathlib.Data.List.Forall2
import NestedSql.Execute.RowSet
import NestedSql.Wire.Writer

/-!
# Documents that are read

A document whose text is within the nesting limit is read as the value in which every object names
each member once. Documents of the three shapes that statements return are decoded to the rows, the
aggregates or the groups that they show.
-/

namespace NestedSql

/-! ## Values that are read -/

namespace Json

mutual

/-- The value with every member of an object named once: of equal names the first place and the
last value stay. -/
def merged : Json → Json
  | .null => .null
  | .bool value => .bool value
  | .number value => .number value
  | .string value => .string value
  | .array items => .array (mergedItems items)
  | .object members => .object (Entries.ofPairs (mergedMembers members))

def mergedItems : List Json → List Json
  | [] => []
  | item :: items => item.merged :: mergedItems items

def mergedMembers : List (String × Json) → List (String × Json)
  | [] => []
  | (name, value) :: members => (name, value.merged) :: mergedMembers members

end

theorem mergedItems_eq (items : List Json) : mergedItems items = items.map merged := by
  induction items with
  | nil => rfl
  | cons item items ih => rw [mergedItems, ih, List.map_cons]

theorem mergedMembers_eq (members : List (String × Json)) :
    mergedMembers members = members.map fun member => (member.1, member.2.merged) := by
  induction members with
  | nil => rfl
  | cons member members ih => rw [mergedMembers, ih, List.map_cons]

theorem names_mergedMembers (members : List (String × Json)) :
    Entries.names (mergedMembers members) = Entries.names members := by
  rw [mergedMembers_eq, Entries.names, List.map_map]
  rfl

theorem mergedItems_of_merged {items : List Json} (h : ∀ item ∈ items, item.merged = item) :
    mergedItems items = items := by
  rw [mergedItems_eq, List.map_congr_left h, List.map_id']

theorem mergedMembers_of_merged {members : List (String × Json)}
    (h : ∀ member ∈ members, member.2.merged = member.2) : mergedMembers members = members := by
  have hmember : ∀ member ∈ members, (member.1, member.2.merged) = member := fun member hmember =>
    Prod.ext rfl (h member hmember)
  rw [mergedMembers_eq, List.map_congr_left hmember, List.map_id']

/-- An object whose members are named once keeps them all. -/
theorem merged_object {members : List (String × Json)} (h : Entries.Distinct members) :
    (Json.object members).merged = .object (mergedMembers members) := by
  have hdistinct : Entries.Distinct (mergedMembers members) := by
    rwa [Entries.Distinct, names_mergedMembers]
  rw [merged, Entries.ofPairs_of_distinct hdistinct]

mutual

/-- A value that has been read is read as itself. -/
theorem merged_merged : (value : Json) → value.merged.merged = value.merged
  | .null | .bool _ | .number _ | .string _ => rfl
  | .array items => by
    rw [merged, merged, mergedItems_of_merged (mergedItems_merged items)]
  | .object members => by
    have hentries : ∀ entry ∈ Entries.ofPairs (mergedMembers members),
        entry.2.merged = entry.2 := fun entry hentry =>
      mergedMembers_merged members entry (Entries.mem_ofPairs hentry)
    rw [merged, merged_object (Entries.distinct_ofPairs _), mergedMembers_of_merged hentries]

theorem mergedItems_merged : (items : List Json) → ∀ item ∈ mergedItems items, item.merged = item
  | [], _, h => absurd h List.not_mem_nil
  | first :: items, item, h => by
    rcases List.mem_cons.mp h with rfl | h
    · exact merged_merged first
    · exact mergedItems_merged items item h

theorem mergedMembers_merged : (members : List (String × Json)) →
    ∀ member ∈ mergedMembers members, member.2.merged = member.2
  | [], _, h => absurd h List.not_mem_nil
  | (name, value) :: members, member, h => by
    rcases List.mem_cons.mp h with rfl | h
    · exact merged_merged value
    · exact mergedMembers_merged members member h

end

mutual

/-- The value that a document within the bound is read as. -/
theorem value?_written : (value : Json) → {depth : Nat} → value.written.depth ≤ depth →
    value.written.value? depth = some value.merged
  | .null, _, _ | .bool _, _, _ | .number _, _, _ | .string _, _, _ => rfl
  | .array items, 0, h => absurd h (Nat.not_succ_le_zero _)
  | .array items, depth + 1, h => by
    rw [written, Written.value?, if_pos rfl,
      itemValues?_written items (Nat.le_of_succ_le_succ h), Option.map_some, merged]
  | .object members, 0, h => absurd h (Nat.not_succ_le_zero _)
  | .object members, depth + 1, h => by
    rw [written, Written.value?, if_pos rfl,
      memberValues?_written members (Nat.le_of_succ_le_succ h), Option.map_some, merged]
    rfl

theorem itemValues?_written : (items : List Json) → {depth : Nat} →
    Written.itemsDepth (writtenItems items) ≤ depth →
      Written.itemValues? (writtenItems items) depth = some (mergedItems items)
  | [], _, _ => rfl
  | item :: items, depth, h => by
    rw [writtenItems, Written.itemsDepth, Nat.max_le] at h
    rw [writtenItems, Written.itemValues?, value?_written item h.1,
      itemValues?_written items h.2, mergedItems]
    rfl

theorem memberValues?_written : (members : List (String × Json)) → {depth : Nat} →
    Written.membersDepth (writtenMembers members) ≤ depth →
      Written.memberValues? (writtenMembers members) depth = some (mergedMembers members)
  | [], _, _ => rfl
  | (name, value) :: members, depth, h => by
    rw [writtenMembers, Written.membersDepth, Nat.max_le] at h
    rw [writtenMembers, Written.memberValues?, value?_written value h.1,
      memberValues?_written members h.2, mergedMembers]
    rfl

end

mutual

/-- The value of a document names each member once. -/
theorem merged_of_value? : (document : Written) → {depth : Nat} → {value : Json} →
    document.value? depth = some value → value.merged = value
  | .null, _, _, h | .bool _, _, _, h | .number _, _, _, h | .string _, _, _, h => by
    obtain rfl := Option.some.inj h
    rfl
  | .array items closed, 0, _, h => nomatch h
  | .array items closed, depth + 1, value, h => by
    rw [Written.value?] at h
    split at h
    · obtain ⟨values, hvalues, rfl⟩ := Option.map_eq_some_iff.mp h
      rw [merged, mergedItems_of_merged (merged_of_itemValues? items hvalues)]
    · cases h
  | .object members closed, 0, _, h => nomatch h
  | .object members closed, depth + 1, value, h => by
    rw [Written.value?] at h
    split at h
    · obtain ⟨values, hvalues, rfl⟩ := Option.map_eq_some_iff.mp h
      have hentries : ∀ entry ∈ Entries.ofPairs values, entry.2.merged = entry.2 :=
        fun entry hentry => merged_of_memberValues? members hvalues entry
          (Entries.mem_ofPairs hentry)
      rw [Function.comp_apply, merged_object (Entries.distinct_ofPairs values),
        mergedMembers_of_merged hentries]
    · cases h
  | .fault, _, _, h => nomatch h

theorem merged_of_itemValues? : (items : List Written) → {depth : Nat} → {values : List Json} →
    Written.itemValues? items depth = some values → ∀ value ∈ values, value.merged = value
  | [], _, _, h => by
    obtain rfl := Option.some.inj h
    exact List.forall_mem_nil _
  | item :: items, depth, values, h => by
    rw [Written.itemValues?] at h
    obtain ⟨value, hvalue, h⟩ := Option.bind_eq_some_iff.mp h
    obtain ⟨others, hothers, h⟩ := Option.bind_eq_some_iff.mp h
    obtain rfl := Option.some.inj h
    exact List.forall_mem_cons.mpr ⟨merged_of_value? item hvalue,
      merged_of_itemValues? items hothers⟩

theorem merged_of_memberValues? : (members : List (String × Written)) → {depth : Nat} →
    {values : List (String × Json)} → Written.memberValues? members depth = some values →
      ∀ entry ∈ values, entry.2.merged = entry.2
  | [], _, _, h => by
    obtain rfl := Option.some.inj h
    exact List.forall_mem_nil _
  | (name, item) :: members, depth, values, h => by
    rw [Written.memberValues?] at h
    obtain ⟨value, hvalue, h⟩ := Option.bind_eq_some_iff.mp h
    obtain ⟨others, hothers, h⟩ := Option.bind_eq_some_iff.mp h
    obtain rfl := Option.some.inj h
    exact List.forall_mem_cons.mpr ⟨merged_of_value? item hvalue,
      merged_of_memberValues? members hothers⟩

end

/-- The text holds this document and nothing else. -/
def WrittenIn (document : Json) (text : String) : Prop :=
  ∃ rest, Written.parse text = (document.written, rest) ∧ Written.nothingFollows rest = true

theorem parse?_of_writtenIn {document : Json} {text : String} (h : document.WrittenIn text)
    (hdepth : document.written.depth ≤ nestingLimit) : parse? text = some document.merged := by
  obtain ⟨rest, hparse, hrest⟩ := h
  rw [parse?, hparse]
  dsimp only
  rw [if_pos hrest, value?_written document hdepth]

/-- An array that is read as itself holds values that are read as themselves. -/
theorem items_of_merged {items : List Json} (h : (Json.array items).merged = .array items) :
    ∀ item ∈ items, item.merged = item := by
  have hitems : mergedItems items = items := Json.array.inj h
  intro item hitem
  rw [← hitems] at hitem
  exact mergedItems_merged items item hitem

/-- An object that is read as itself names its members once and holds values that are read as
themselves. -/
theorem members_of_merged {members : List (String × Json)}
    (h : (Json.object members).merged = .object members) :
    Entries.Distinct members ∧ ∀ member ∈ members, member.2.merged = member.2 := by
  have hpairs : Entries.ofPairs (mergedMembers members) = members := Json.object.inj h
  refine ⟨hpairs ▸ Entries.distinct_ofPairs _, ?_⟩
  intro member hmember
  rw [← hpairs] at hmember
  exact mergedMembers_merged members member (Entries.mem_ofPairs hmember)

end Json

/-! ## Documents that are decoded -/

namespace Wire

attribute [local simp] readDocument Route.enter

theorem readFree_written (value : Json) (h : value.merged = value) :
    readFree value.written .value = .ok value := by
  simp only [readFree, Json.value?_written value (Nat.le_refl _), h]
  rfl

theorem readDocument_free (value : Json) (h : value.merged = value) :
    readDocument value.written .free .value = .ok value := by
  have hfree := readFree_written value h
  cases value <;> exact hfree

theorem readItems_written {kind : Kind} {items : List Json} {values : List kind.Value}
    (h : List.Forall₂ (fun item value => readDocument item.written kind .value = .ok value) items
      values) : readItems (Json.writtenItems items) kind .value = .ok values := by
  induction h with
  | nil => rfl
  | cons hitem _ ih =>
    rw [Json.writtenItems, readItems, hitem, ih]
    rfl

theorem readEntries_written {members : List (String × Json)}
    (h : ∀ member ∈ members, member.2.merged = member.2) :
    readEntries (Json.writtenMembers members) .free .value = .ok members := by
  induction members with
  | nil => rfl
  | cons member members ih =>
    obtain ⟨hmember, hmembers⟩ := List.forall_mem_cons.mp h
    rw [Json.writtenMembers, readEntries, readDocument_free member.2 hmember, ih hmembers]
    rfl

theorem readDocument_map {members : List (String × Json)}
    (h : (Json.object members).merged = .object members) :
    readDocument (Json.object members).written (.map .free) .value = .ok members := by
  obtain ⟨hdistinct, hmembers⟩ := Json.members_of_merged h
  simp [Json.written, readEntries_written hmembers, Entries.ofPairs_of_distinct hdistinct]

theorem readDocument_list (kind : Kind) {items : List Json} {values : List kind.Value}
    (h : List.Forall₂ (fun item value => readDocument item.written kind .value = .ok value) items
      values) : readDocument (Json.array items).written (.list kind) .value = .ok values := by
  simp [Json.written, readItems_written h]

theorem readDocument_free_list {items : List Json}
    (h : (Json.array items).merged = .array items) :
    readDocument (Json.array items).written (.list .free) .value = .ok items := by
  have hread : ∀ item ∈ items, readDocument item.written .free .value = .ok item :=
    fun item hitem => readDocument_free item (Json.items_of_merged h item hitem)
  exact readDocument_list .free (List.forall₂_same.mpr hread)

theorem readDocument_group {group : Group} (h : group.json.merged = group.json) :
    readDocument group.json.written (.named .group) .value = .ok group := by
  obtain ⟨-, hmembers⟩ := Json.members_of_merged h
  obtain ⟨hdimensions, hrest⟩ := List.forall_mem_cons.mp hmembers
  have haggregates := hrest _ List.mem_cons_self
  have hlist := readDocument_free_list hdimensions
  have hmap := readDocument_map haggregates
  have hwritten : group.json.written = .object
      [("dimensions", (Json.array group.dimensions).written),
        ("aggregates", (Json.object group.aggregates).written)] true := rfl
  rw [hwritten, readDocument]
  simp only [declaration, Route.enter, readMembers, Slots.meet, if_true, Slots.empty, Member.read,
    bind_pure_comp, String.reduceEq, if_false, bind_pure, bind_map_left, Functor.map_map,
    bind_assoc, pure_bind, hlist, hmap]
  rfl

end Wire

namespace RowSet

theorem rowsOf_document {rows : List Row}
    (h : ∀ row ∈ rows, (Json.object row).merged = .object row) :
    rowsOf (.object [("rows", .array (rows.map .object))]) = .ok rows := by
  have hread : List.Forall₂ (fun (item : Json) (row : Row) =>
      Wire.readDocument item.written (.map .free) .value = .ok row) (rows.map Json.object) rows :=
    List.forall₂_map_left_iff.mpr (List.forall₂_same.mpr fun row hrow =>
      Wire.readDocument_map (h row hrow))
  have hlist := Wire.readDocument_list (.map .free) hread
  have hwritten : (Json.object [("rows", .array (rows.map .object))]).written =
      .object [("rows", (Json.array (rows.map .object)).written)] true := rfl
  rw [rowsOf, decodeDocument, Wire.fromValue, hwritten, Wire.readDocument]
  simp only [Wire.declaration, Wire.Route.enter, Wire.readMembers, Wire.Slots.meet, if_true,
    Wire.Slots.empty, Wire.Member.read, bind_pure_comp, bind_pure, bind_map_left, pure_bind, hlist]
  rfl

theorem groupsOf_document {groups : List Group}
    (h : ∀ group ∈ groups, group.json.merged = group.json) :
    groupsOf (.array (groups.map Group.json)) = .ok groups := by
  have hread : List.Forall₂ (fun item group =>
      Wire.readDocument item.written (.named .group) .value = .ok group)
      (groups.map Group.json) groups :=
    List.forall₂_map_left_iff.mpr (List.forall₂_same.mpr fun group hgroup =>
      Wire.readDocument_group (h group hgroup))
  rw [groupsOf, decodeDocument, Wire.fromValue, Wire.readDocument_list (.named .group) hread]
  rfl

end RowSet

end NestedSql
