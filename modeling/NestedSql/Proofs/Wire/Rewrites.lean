import Mathlib.Data.List.Nodup
import Mathlib.Logic.Relation
import NestedSql.Compile.Plan
import NestedSql.Proofs.Wire.Routes

/-!
# Ways to write a document

A document can be rewritten at any place that stands for a structure or a union: its members may
be put in another order, given company of unknown names, left out or spelled out where that says
the same, or written as an array. What is read from a document is read from all its rewritings.
The entries of maps and the members of free values keep their places.
-/

namespace NestedSql

theorem Entries.getAll_concat_of_ne {α : Type} {name other : String} (h : other ≠ name) (value : α)
    (entries : List (String × α)) :
    getAll name (entries ++ [(other, value)]) = getAll name entries := by
  rw [getAll_append, getAll_cons_of_ne h, getAll_nil, List.append_nil]

theorem Entries.getAll_replaced_of_ne {α : Type} {name other : String} (h : other ≠ name)
    (value changed : α) (before after : List (String × α)) :
    getAll name (before ++ (other, changed) :: after) =
      getAll name (before ++ (other, value) :: after) := by
  rw [getAll_append, getAll_append, getAll_cons_of_ne h, getAll_cons_of_ne h]

namespace Wire

open Compile (bind_eq_ok pure_eq_ok throw_ne_ok)

/-! ## Rewriting steps -/

/-- The variant that a tag names: by its text or, inside a union, by its index. -/
def variantOf? {α : Type} (variants : List (Variant α)) : Json → Option (Variant α)
  | .string tag => variants.find? fun variant => variant.tag == tag
  | .number (.integer (.ofNat index) _) => variants[index]?
  | _ => none

/-- The members with which the values of a type are written. A structure has no tag, a union has
one and the members of the variant that it names. -/
inductive Declared (type : TypeName) : (tag? : Option Json) → List Member → Prop
  | struct {name : String} {shape : Shape type.Carrier}
      (h : declaration type = .struct name shape) : Declared type none shape.members
  | union {name : String} {variants : List (Variant type.Carrier)} {tag : Json}
      {variant : Variant type.Carrier} (h : declaration type = .union name variants)
      (hvariant : variantOf? variants tag = some variant) :
      Declared type (some tag) variant.shape.members

/-- The tag, if there is one, stands among the members. -/
def HasTag (tag? : Option Json) (members : List (String × Json)) : Prop :=
  ∀ tag ∈ tag?, ("type", tag) ∈ members

/-- The document says of the member no more than its absence: null of an optional one, the default
of a defaulted one. -/
inductive Member.Blank : Member → Json → Prop
  | null {name : String} {kind : Kind} : Blank ⟨name, kind, .optional⟩ .null
  | default {name : String} {kind : Kind} {value : kind.Value} {document : Json}
      (h : fromValue kind document.written = .ok value) :
      Blank ⟨name, kind, .defaulted value⟩ document

/-- One step of rewriting a document that stands for a value of a kind. -/
inductive Rewrites : Kind → Json → Json → Prop
  /-- The members of a structure or union, the tag included, in another order. -/
  | permute {type : TypeName} {tag? : Option Json} {declared : List Member}
      {members others : List (String × Json)} (hdeclared : Declared type tag? declared)
      (htag : HasTag tag? members) (hperm : members.Perm others) :
      Rewrites (.named type) (.object members) (.object others)
  /-- One more member with an unknown name. -/
  | addUnknown {type : TypeName} {tag? : Option Json} {declared : List Member}
      {members : List (String × Json)} {name : String} {document : Json}
      (hdeclared : Declared type tag? declared) (htag : HasTag tag? members)
      (hname : name ∉ declared.map Member.name) (htype : tag?.isSome → name ≠ "type") :
      Rewrites (.named type) (.object members) (.object (members ++ [(name, document)]))
  /-- A member without content is left out. -/
  | leaveOut {type : TypeName} {tag? : Option Json} {declared : List Member} {member : Member}
      {members : List (String × Json)} {document : Json}
      (hdeclared : Declared type tag? declared) (htag : HasTag tag? members)
      (hmember : member ∈ declared) (hblank : member.Blank document) :
      Rewrites (.named type) (.object (members ++ [(member.name, document)])) (.object members)
  /-- An absent member is spelled out. -/
  | spellOut {type : TypeName} {tag? : Option Json} {declared : List Member} {member : Member}
      {members : List (String × Json)} {document : Json}
      (hdeclared : Declared type tag? declared) (htag : HasTag tag? members)
      (hmember : member ∈ declared) (hblank : member.Blank document)
      (habsent : member.name ∉ Entries.names members) :
      Rewrites (.named type) (.object members) (.object (members ++ [(member.name, document)]))
  /-- An object is written as the array of its tag, if it has one, and its members in order of
  declaration. -/
  | toArray {type : TypeName} {tag? : Option Json} {declared : List Member}
      {members : List (String × Json)} {items : List Json}
      (hdeclared : Declared type tag? declared) (htag : HasTag tag? members)
      (hitems : List.Forall₂ (fun member item => (member.name, item) ∈ members) declared items) :
      Rewrites (.named type) (.object members) (.array (tag?.toList ++ items))
  /-- The last item of an array, without content, is left out. -/
  | leaveOutLast {type : TypeName} {tag? : Option Json} {declared : List Member} {member : Member}
      {items : List Json} {document : Json} (hdeclared : Declared type tag? declared)
      (hmember : declared[items.length]? = some member) (hblank : member.Blank document) :
      Rewrites (.named type) (.array (tag?.toList ++ (items ++ [document])))
        (.array (tag?.toList ++ items))
  /-- An item that an array lacks at its end is spelled out. -/
  | spellOutLast {type : TypeName} {tag? : Option Json} {declared : List Member} {member : Member}
      {items : List Json} {document : Json} (hdeclared : Declared type tag? declared)
      (hmember : declared[items.length]? = some member) (hblank : member.Blank document) :
      Rewrites (.named type) (.array (tag?.toList ++ items))
        (.array (tag?.toList ++ (items ++ [document])))
  /-- A step inside an item of a list. -/
  | item {kind : Kind} {before after : List Json} {document changed : Json}
      (h : Rewrites kind document changed) :
      Rewrites (.list kind) (.array (before ++ document :: after))
        (.array (before ++ changed :: after))
  /-- A step inside an entry of a map. -/
  | entry {kind : Kind} {before after : List (String × Json)} {name : String}
      {document changed : Json} (h : Rewrites kind document changed) :
      Rewrites (.map kind) (.object (before ++ (name, document) :: after))
        (.object (before ++ (name, changed) :: after))
  /-- A step inside a member of an object. -/
  | member {type : TypeName} {tag? : Option Json} {declared : List Member} {member : Member}
      {before after : List (String × Json)} {document changed : Json}
      (hdeclared : Declared type tag? declared)
      (htag : HasTag tag? (before ++ (member.name, document) :: after))
      (hmember : member ∈ declared) (h : Rewrites member.kind document changed) :
      Rewrites (.named type) (.object (before ++ (member.name, document) :: after))
        (.object (before ++ (member.name, changed) :: after))
  /-- A step inside a member of an array. -/
  | position {type : TypeName} {tag? : Option Json} {declared : List Member} {member : Member}
      {before after : List Json} {document changed : Json}
      (hdeclared : Declared type tag? declared)
      (hmember : declared[before.length]? = some member)
      (h : Rewrites member.kind document changed) :
      Rewrites (.named type) (.array (tag?.toList ++ (before ++ document :: after)))
        (.array (tag?.toList ++ (before ++ changed :: after)))

theorem Rewrites.ne_null {kind : Kind} {document changed : Json}
    (h : Rewrites kind document changed) : document ≠ .null ∧ changed ≠ .null := by
  cases h <;> exact ⟨nofun, nofun⟩

/-! ## Objects and arrays of declared members -/

theorem variantOf?_of_readTag {α : Type} {variants : List (Variant α)} {tag : Json}
    {variant found : Variant α} {route : Route} (hvariant : variantOf? variants tag = some variant)
    (h : readTag variants tag.written route = .ok found) : found = variant := by
  cases tag with
  | string tag =>
    have hfind : findVariant variants tag = .ok found := h
    rw [variantOf?] at hvariant
    rw [findVariant, hvariant] at hfind
    exact (Except.ok.inj hfind).symm
  | number number =>
    rw [Json.written] at h
    unfold readTag at h
    split at h
    · next htag => cases htag
    · next index range htag =>
      obtain rfl := Written.number.inj htag
      rw [variantOf?] at hvariant
      rw [hvariant] at h
      exact (Except.ok.inj h).symm
    · exact absurd h wrongType_ne_ok
  | _ => cases hvariant

theorem mem_of_variantOf? {α : Type} {variants : List (Variant α)} {tag : Json}
    {variant : Variant α} (h : variantOf? variants tag = some variant) : variant ∈ variants := by
  unfold variantOf? at h
  split at h
  · exact List.mem_of_find?_eq_some h
  · exact List.mem_of_getElem? h
  · cases h

theorem Declared.nodup {type : TypeName} {tag? : Option Json} {declared : List Member}
    (h : Declared type tag? declared) : (declared.map Member.name).Nodup := by
  have hnames := namesApart type
  cases h with
  | struct hdeclared =>
    rw [hdeclared] at hnames
    exact hnames
  | union hdeclared hvariant =>
    rw [hdeclared] at hnames
    exact (hnames.2 _ (mem_of_variantOf? hvariant)).2

/-- No member is named like the tag it stands beside. -/
theorem Declared.name_ne_type {type : TypeName} {tag? : Option Json} {declared : List Member}
    (h : Declared type tag? declared) {member : Member} (hmember : member ∈ declared)
    {tag : Json} (htag : tag ∈ tag?) : member.name ≠ "type" := by
  have hnames := namesApart type
  cases h with
  | struct hdeclared => cases htag
  | union hdeclared hvariant =>
    rw [hdeclared] at hnames
    intro heq
    exact (hnames.2 _ (mem_of_variantOf? hvariant)).1 (heq ▸ List.mem_map_of_mem hmember)

theorem positions_writtenItems (members : List Member) (items : List Json) :
    positions members (Json.writtenItems items) =
      Json.writtenMembers (positions members items) := by
  rw [Json.writtenItems_eq, Json.writtenMembers_eq, positions, positions, List.zip_map_right]
  rfl

/-- How the values of a type are read from the objects and arrays of its declared members: whether
the tag is understood, the route on which the members are read, and what they make up. -/
structure Layout (type : TypeName) (tag? : Option Json) (declared : List Member)
    (route : Route) where
  accepted : Prop
  inside : Route
  build : Values declared → type.Carrier
  unbounded : inside.Unbounded
  object : ∀ {members : List (String × Json)} {value : type.Carrier}, HasTag tag? members →
    (readDocument (Json.object members).written (.named type) route = .ok value ↔
      (accepted ∧ ∀ tag ∈ tag?, Entries.getAll "type" members = [tag]) ∧
        ∃ values, Values.Given inside (Json.writtenMembers members) declared values ∧
          build values = value)
  array : ∀ {items : List Json} {value : type.Carrier},
    (readDocument (Json.array (tag?.toList ++ items)).written (.named type) route = .ok value ↔
      (accepted ∧ items.length ≤ declared.length) ∧
        ∃ values, Values.Given inside (Json.writtenMembers (positions declared items)) declared
          values ∧ build values = value)

theorem Declared.layout {type : TypeName} {tag? : Option Json} {declared : List Member}
    (h : Declared type tag? declared) {route : Route} (hroute : route.Unbounded) :
    Nonempty (Layout type tag? declared route) := by
  cases h with
  | @struct name shape hdeclared =>
    refine ⟨⟨True, route, shape.build, hroute, ?object, ?array⟩⟩
    case object =>
      intro members value _
      rw [Json.written, readDocument_object_struct hdeclared hroute, Shape.Gives,
        and_iff_right ⟨trivial, by rintro _ ⟨⟩⟩]
    case array =>
      intro items value
      rw [Option.toList_none, List.nil_append, Json.written,
        readDocument_array_struct hdeclared hroute, positions_writtenItems, Json.writtenItems_eq,
        List.length_map, Shape.Gives, true_and]
  | @union name variants tag variant hdeclared hvariant =>
    refine ⟨⟨readTag variants tag.written route = .ok variant, .part, variant.shape.build,
      Route.unbounded_part, ?object, ?array⟩⟩
    case object =>
      intro members value htag
      have hmem : tag ∈ Entries.getAll "type" members := Entries.mem_getAll.mpr (htag tag rfl)
      rw [Json.written, readDocument_object_union hdeclared hroute, Json.getAll_writtenMembers]
      constructor
      · rintro ⟨document, found, hdocument, hread, hgives⟩
        obtain ⟨other, hother, rfl⟩ := List.map_eq_singleton_iff.mp hdocument
        rw [hother] at hmem
        obtain rfl := List.mem_singleton.mp hmem
        obtain rfl := variantOf?_of_readTag hvariant hread
        refine ⟨⟨hread, ?_⟩, hgives⟩
        rintro _ ⟨⟩
        exact hother
      · rintro ⟨⟨hread, hone⟩, hgives⟩
        refine ⟨tag.written, variant, ?_, hread, hgives⟩
        rw [hone tag rfl, List.map_singleton]
    case array =>
      intro items value
      rw [Option.toList_some, List.singleton_append, Json.written, Json.writtenItems,
        readDocument_array_union hdeclared hroute]
      constructor
      · rintro ⟨found, hread, hlength, hgives⟩
        obtain rfl := variantOf?_of_readTag hvariant hread
        rw [positions_writtenItems] at hgives
        rw [Json.writtenItems_eq, List.length_map] at hlength
        exact ⟨⟨hread, hlength⟩, hgives⟩
      · rintro ⟨⟨hread, hlength⟩, hgives⟩
        refine ⟨variant, hread, ?_, ?_⟩
        · rwa [Json.writtenItems_eq, List.length_map]
        · rwa [positions_writtenItems]

/-! ## What the members give -/

section Given

variable {inside : Route} {declared : List Member} {member : Member} {values : Values declared}
  {document changed : Json}

/-- Members whose documents are those under other names give what they gave. -/
theorem Values.Given.change {written others : List (String × Written)}
    (hgiven : Values.Given inside written declared values)
    (hnodup : (declared.map Member.name).Nodup) (hmember : member ∈ declared)
    (hothers : ∀ name, member.name ≠ name → Entries.getAll name others =
      Entries.getAll name written)
    (h : ∀ value, member.Given inside (Entries.getAll member.name written) value →
      member.Given inside (Entries.getAll member.name others) value) :
    Values.Given inside others declared values := by
  refine hgiven.mono fun other hother value hvalue => ?_
  by_cases hname : member.name = other.name
  · obtain rfl : member = other := List.inj_on_of_nodup_map hnodup hmember hother hname
    exact h value hvalue
  · rw [hothers other.name hname]
    exact hvalue

/-- A blank document gives what the absence of its member gives. -/
theorem Member.Blank.given_iff (hblank : member.Blank document) (hinside : inside.Unbounded)
    {value : member.Value} :
    member.Given inside [document.written] value ↔ member.Given inside [] value := by
  cases hblank with
  | null => exact pure_eq_ok.trans Option.some_inj.symm
  | @default name kind default _ hread =>
    have hdefault : readDocument document.written kind inside = .ok default :=
      readDocument_of_outer document.written Route.outer_value (hinside.isSound _) hread
    have hgiven : Member.Given inside (⟨name, kind, .defaulted default⟩ : Member)
        [document.written] value ↔ readDocument document.written kind inside = .ok value := Iff.rfl
    rw [hgiven, hdefault]
    exact pure_eq_ok.trans Option.some_inj.symm

theorem getAll_written_concat (members : List (String × Json)) (name : String) :
    Entries.getAll name (Json.writtenMembers (members ++ [(name, document)])) =
      Entries.getAll name (Json.writtenMembers members) ++ [document.written] := by
  rw [Json.getAll_writtenMembers, Json.getAll_writtenMembers, Entries.getAll_append,
    Entries.getAll_cons_self, Entries.getAll_nil, List.map_append, List.map_singleton]

theorem getAll_written_concat_of_ne {name other : String} (h : name ≠ other)
    (members : List (String × Json)) :
    Entries.getAll other (Json.writtenMembers (members ++ [(name, document)])) =
      Entries.getAll other (Json.writtenMembers members) := by
  rw [Json.getAll_writtenMembers, Json.getAll_writtenMembers, Entries.getAll_concat_of_ne h]

theorem Values.Given.leaveOut (hnodup : (declared.map Member.name).Nodup)
    (hmember : member ∈ declared) (hblank : member.Blank document) (hinside : inside.Unbounded)
    {members : List (String × Json)}
    (h : Values.Given inside (Json.writtenMembers (members ++ [(member.name, document)])) declared
      values) : Values.Given inside (Json.writtenMembers members) declared values := by
  refine h.change hnodup hmember
    (fun name hname => (getAll_written_concat_of_ne hname members).symm) fun value hvalue => ?_
  rw [getAll_written_concat] at hvalue
  -- a member with two documents is not read, so the blank one was the only one
  cases hdocuments : Entries.getAll member.name (Json.writtenMembers members) with
  | nil =>
    rw [hdocuments] at hvalue
    exact (hblank.given_iff hinside).mp hvalue
  | cons first documents =>
    rw [hdocuments, List.cons_append] at hvalue
    exact absurd (Member.given_cons.mp hvalue).1 (List.append_ne_nil_of_right_ne_nil _
      (List.cons_ne_nil _ _))

theorem Values.Given.spellOut (hnodup : (declared.map Member.name).Nodup)
    (hmember : member ∈ declared) (hblank : member.Blank document) (hinside : inside.Unbounded)
    {members : List (String × Json)} (habsent : member.name ∉ Entries.names members)
    (h : Values.Given inside (Json.writtenMembers members) declared values) :
    Values.Given inside (Json.writtenMembers (members ++ [(member.name, document)])) declared
      values := by
  refine h.change hnodup hmember
    (fun name hname => getAll_written_concat_of_ne hname members) fun value hvalue => ?_
  rw [getAll_written_concat]
  rw [Json.getAll_writtenMembers, Entries.getAll_eq_nil.mpr habsent, List.map_nil] at hvalue ⊢
  exact (hblank.given_iff hinside).mpr hvalue

/-- A member that is not null gives what its rewritten document gives. -/
theorem Member.given_of_step {value : member.Value}
    (hnull : document ≠ .null ∧ changed ≠ .null)
    (hstep : ∀ value, readDocument document.written member.kind inside = .ok value →
      readDocument changed.written member.kind inside = .ok value)
    (h : member.Given inside [document.written] value) :
    member.Given inside [changed.written] value := by
  obtain ⟨name, kind, presence⟩ := member
  cases presence with
  | required | defaulted default => exact hstep value h
  | optional =>
    have hread : ∀ {document : Json} {value : Option kind.Value}, document ≠ .null →
        (Member.Given inside ⟨name, kind, .optional⟩ [document.written] value ↔
          some <$> readDocument document.written kind inside = .ok value) := by
      intro document value hdocument
      cases document with
      | null => exact absurd rfl hdocument
      | _ => exact Iff.rfl
    rw [hread hnull.1] at h
    rw [hread hnull.2]
    cases hdocument : readDocument document.written kind inside with
    | error fault =>
      rw [hdocument] at h
      cases h
    | ok found =>
      rw [hdocument] at h
      rw [hstep found hdocument]
      exact h

theorem Values.Given.replace (hnodup : (declared.map Member.name).Nodup)
    (hmember : member ∈ declared) (hnull : document ≠ .null ∧ changed ≠ .null)
    (hstep : ∀ value, readDocument document.written member.kind inside = .ok value →
      readDocument changed.written member.kind inside = .ok value)
    {before after : List (String × Json)}
    (h : Values.Given inside (Json.writtenMembers (before ++ (member.name, document) :: after))
      declared values) :
    Values.Given inside (Json.writtenMembers (before ++ (member.name, changed) :: after)) declared
      values := by
  refine h.change hnodup hmember (fun name hname => ?_) fun value hvalue => ?_
  · rw [Json.getAll_writtenMembers, Json.getAll_writtenMembers,
      Entries.getAll_replaced_of_ne hname]
  · rw [Json.getAll_writtenMembers, Entries.getAll_append, Entries.getAll_cons_self,
      List.map_append, List.map_cons] at hvalue ⊢
    -- a member with two documents is not read, so this is the only one
    have hbefore : Entries.getAll member.name before = [] := by
      cases hbefore : Entries.getAll member.name before with
      | nil => rfl
      | cons first others =>
        rw [hbefore, List.map_cons, List.cons_append] at hvalue
        exact absurd (Member.given_cons.mp hvalue).1 (List.append_ne_nil_of_right_ne_nil _
          (List.cons_ne_nil _ _))
    rw [hbefore, List.map_nil, List.nil_append] at hvalue ⊢
    obtain ⟨hafter, -⟩ := Member.given_cons.mp hvalue
    rw [hafter] at hvalue ⊢
    exact Member.given_of_step hnull hstep hvalue

end Given

/-! ## Items of arrays -/

section Positions

variable {declared : List Member} {member : Member}

theorem positions_concat {items : List Json} (h : declared[items.length]? = some member)
    (document : Json) : positions declared (items ++ [document]) =
      positions declared items ++ [(member.name, document)] := by
  induction declared generalizing items with
  | nil => cases h
  | cons first declared ih =>
    cases items with
    | nil =>
      obtain rfl : first = member := Option.some.inj h
      rw [positions, positions, List.zip_nil_right, List.nil_append, List.nil_append,
        List.map_cons, List.zip_cons_cons, List.zip_nil_right]
    | cons item items =>
      have hrest : declared[items.length]? = some member := h
      exact congrArg ((first.name, item) :: ·) (ih hrest)

/-- The member after those of the items is not one of theirs. -/
theorem notMem_names_positions {items : List Json} (hnodup : (declared.map Member.name).Nodup)
    (h : declared[items.length]? = some member) :
    member.name ∉ Entries.names (positions declared items) := by
  induction declared generalizing items with
  | nil => cases h
  | cons first declared ih =>
    rw [List.map_cons, List.nodup_cons] at hnodup
    cases items with
    | nil =>
      rw [positions, List.zip_nil_right]
      exact List.not_mem_nil
    | cons item items =>
      have hrest : declared[items.length]? = some member := h
      refine List.not_mem_cons_of_ne_of_not_mem ?_ (ih hnodup.2 hrest)
      intro (heq : member.name = first.name)
      exact hnodup.1 (heq ▸ List.mem_map_of_mem (List.mem_of_getElem? hrest))

theorem positions_split {before : List Json} (h : declared[before.length]? = some member)
    (after : List Json) : ∃ first second, ∀ document,
      positions declared (before ++ document :: after) =
        first ++ (member.name, document) :: second := by
  induction declared generalizing before with
  | nil => cases h
  | cons leading declared ih =>
    cases before with
    | nil =>
      obtain rfl : leading = member := Option.some.inj h
      exact ⟨[], positions declared after, fun _ => rfl⟩
    | cons item before =>
      have hrest : declared[before.length]? = some member := h
      obtain ⟨first, second, hsplit⟩ := ih hrest
      exact ⟨(leading.name, item) :: first, second, fun document =>
        congrArg ((leading.name, item) :: ·) (hsplit document)⟩

/-- The items that stand for all members are found under their names. -/
theorem getAll_positions {items : List Json} {members : List (String × Json)}
    (hnodup : (declared.map Member.name).Nodup)
    (hitems : List.Forall₂ (fun member item => (member.name, item) ∈ members) declared items) :
    ∀ member ∈ declared, ∃ item, (member.name, item) ∈ members ∧
      Entries.getAll member.name (positions declared items) = [item] := by
  induction hitems with
  | nil => exact nofun
  | @cons first item declared items hitem _ ih =>
    rw [List.map_cons, List.nodup_cons] at hnodup
    have hpositions : positions (first :: declared) (item :: items) =
        (first.name, item) :: positions declared items := rfl
    rw [hpositions]
    refine List.forall_mem_cons.mpr ⟨⟨item, hitem, ?_⟩, fun member hmember => ?_⟩
    · rw [Entries.getAll_cons_self, Entries.getAll_eq_nil.mpr fun h =>
        hnodup.1 (names_positions declared items _ h)]
    · obtain ⟨found, hfound, hgetAll⟩ := ih hnodup.2 member hmember
      refine ⟨found, hfound, ?_⟩
      rw [Entries.getAll_cons_of_ne, hgetAll]
      intro heq
      exact hnodup.1 (heq ▸ List.mem_map_of_mem hmember)

/-- All members of an object, in order of declaration, give what the object gives. -/
theorem Values.Given.toArray {inside : Route} {values : Values declared} {items : List Json}
    {members : List (String × Json)} (hnodup : (declared.map Member.name).Nodup)
    (hitems : List.Forall₂ (fun member item => (member.name, item) ∈ members) declared items)
    (h : Values.Given inside (Json.writtenMembers members) declared values) :
    Values.Given inside (Json.writtenMembers (positions declared items)) declared values := by
  refine h.mono fun member hmember value hvalue => ?_
  obtain ⟨item, hitem, hpositions⟩ := getAll_positions hnodup hitems member hmember
  rw [Json.getAll_writtenMembers] at hvalue ⊢
  have hmem : item ∈ Entries.getAll member.name members := Entries.mem_getAll.mpr hitem
  rw [hpositions, List.map_singleton]
  cases hdocuments : Entries.getAll member.name members with
  | nil =>
    rw [hdocuments] at hmem
    exact absurd hmem List.not_mem_nil
  | cons first others =>
    rw [hdocuments, List.map_cons] at hvalue
    obtain ⟨hothers, hread⟩ := Member.given_cons.mp hvalue
    rw [hdocuments, List.map_eq_nil_iff.mp hothers] at hmem
    obtain rfl := List.mem_singleton.mp hmem
    exact hread

theorem forall₂_step {α β : Type} {related : α → β → Prop} {document changed : α}
    (hstep : ∀ value, related document value → related changed value) {after : List α} :
    {before : List α} → {values : List β} →
      List.Forall₂ related (before ++ document :: after) values →
        List.Forall₂ related (before ++ changed :: after) values
  | [], _, .cons hdocument hafter => .cons (hstep _ hdocument) hafter
  | _ :: _, _, .cons hitem hrest => .cons hitem (forall₂_step hstep hrest)

end Positions

/-! ## Rewritten documents -/

/-- What is read from a document is read from it after one step. -/
theorem Rewrites.reads {kind : Kind} {document changed : Json}
    (h : Rewrites kind document changed) : ∀ {route : Route}, route.Unbounded →
      ∀ {value : kind.Value}, readDocument document.written kind route = .ok value →
        readDocument changed.written kind route = .ok value := by
  induction h with
  | @permute type tag? declared members others hdeclared htag hperm =>
    intro route hroute value hread
    obtain ⟨layout⟩ := hdeclared.layout hroute
    obtain ⟨⟨haccepted, hone⟩, values, hgiven, rfl⟩ := (layout.object htag).mp hread
    have hthere : HasTag tag? others := fun tag hmem => hperm.mem_iff.mp (htag tag hmem)
    refine (layout.object hthere).mpr ⟨⟨haccepted, fun tag hmem => ?_⟩, values, ?_, rfl⟩
    · exact List.perm_singleton.mp (hone tag hmem ▸ (Entries.Perm.getAll hperm "type").symm)
    · refine hgiven.mono fun member _ value hvalue => hvalue.perm ?_
      rw [Json.getAll_writtenMembers, Json.getAll_writtenMembers]
      exact (Entries.Perm.getAll hperm member.name).map _
  | @addUnknown type tag? declared members name document hdeclared htag hname htype =>
    intro route hroute value hread
    obtain ⟨layout⟩ := hdeclared.layout hroute
    obtain ⟨⟨haccepted, hone⟩, values, hgiven, rfl⟩ := (layout.object htag).mp hread
    have hthere : HasTag tag? (members ++ [(name, document)]) := fun tag hmem =>
      List.mem_append_left _ (htag tag hmem)
    refine (layout.object hthere).mpr ⟨⟨haccepted, fun tag hmem => ?_⟩, values, ?_, rfl⟩
    · rw [Entries.getAll_concat_of_ne (htype (Option.isSome_of_mem hmem)), hone tag hmem]
    · refine hgiven.mono fun member hmember value hvalue => ?_
      have hother : name ≠ member.name := fun heq => hname (heq ▸ List.mem_map_of_mem hmember)
      rwa [getAll_written_concat_of_ne hother]
  | @leaveOut type tag? declared member members document hdeclared htag hmember hblank =>
    intro route hroute value hread
    obtain ⟨layout⟩ := hdeclared.layout hroute
    have hthere : HasTag tag? (members ++ [(member.name, document)]) := fun tag hmem =>
      List.mem_append_left _ (htag tag hmem)
    obtain ⟨⟨haccepted, hone⟩, values, hgiven, rfl⟩ := (layout.object hthere).mp hread
    refine (layout.object htag).mpr ⟨⟨haccepted, fun tag hmem => ?_⟩, values,
      hgiven.leaveOut hdeclared.nodup hmember hblank layout.unbounded, rfl⟩
    rw [← hone tag hmem, Entries.getAll_concat_of_ne (hdeclared.name_ne_type hmember hmem)]
  | @spellOut type tag? declared member members document hdeclared htag hmember hblank habsent =>
    intro route hroute value hread
    obtain ⟨layout⟩ := hdeclared.layout hroute
    have hthere : HasTag tag? (members ++ [(member.name, document)]) := fun tag hmem =>
      List.mem_append_left _ (htag tag hmem)
    obtain ⟨⟨haccepted, hone⟩, values, hgiven, rfl⟩ := (layout.object htag).mp hread
    refine (layout.object hthere).mpr ⟨⟨haccepted, fun tag hmem => ?_⟩, values,
      hgiven.spellOut hdeclared.nodup hmember hblank layout.unbounded habsent, rfl⟩
    rw [← hone tag hmem, Entries.getAll_concat_of_ne (hdeclared.name_ne_type hmember hmem)]
  | @toArray type tag? declared members items hdeclared htag hitems =>
    intro route hroute value hread
    obtain ⟨layout⟩ := hdeclared.layout hroute
    obtain ⟨⟨haccepted, -⟩, values, hgiven, rfl⟩ := (layout.object htag).mp hread
    exact layout.array.mpr ⟨⟨haccepted, Nat.le_of_eq hitems.length_eq.symm⟩, values,
      hgiven.toArray hdeclared.nodup hitems, rfl⟩
  | @leaveOutLast type tag? declared member items document hdeclared hmember hblank =>
    intro route hroute value hread
    obtain ⟨layout⟩ := hdeclared.layout hroute
    obtain ⟨⟨haccepted, hlength⟩, values, hgiven, rfl⟩ := layout.array.mp hread
    rw [positions_concat hmember] at hgiven
    rw [List.length_append] at hlength
    exact layout.array.mpr ⟨⟨haccepted, Nat.le_of_add_right_le hlength⟩, values,
      hgiven.leaveOut hdeclared.nodup (List.mem_of_getElem? hmember) hblank layout.unbounded, rfl⟩
  | @spellOutLast type tag? declared member items document hdeclared hmember hblank =>
    intro route hroute value hread
    obtain ⟨layout⟩ := hdeclared.layout hroute
    obtain ⟨⟨haccepted, -⟩, values, hgiven, rfl⟩ := layout.array.mp hread
    have hlength := (List.getElem?_eq_some_iff.mp hmember).1
    refine layout.array.mpr ⟨⟨haccepted, ?_⟩, values, ?_, rfl⟩
    · rwa [List.length_append, List.length_singleton]
    · rw [positions_concat hmember]
      exact hgiven.spellOut hdeclared.nodup (List.mem_of_getElem? hmember) hblank
        layout.unbounded (notMem_names_positions hdeclared.nodup hmember)
  | item _ ih =>
    intro route hroute value hread
    rw [Json.written, readDocument_list_eq_ok hroute, Json.writtenItems_eq, List.map_append,
      List.map_cons] at hread ⊢
    exact forall₂_step (fun _ => ih hroute) hread
  | @entry kind before after name document changed _ ih =>
    intro route hroute value hread
    rw [Json.written, readDocument_map_eq_ok hroute] at hread ⊢
    obtain ⟨pairs, hpairs, rfl⟩ := hread
    refine ⟨pairs, ?_, rfl⟩
    rw [readEntries_eq_ok, Json.writtenMembers_eq, List.map_append, List.map_cons] at hpairs ⊢
    exact forall₂_step (fun _ h => ⟨h.1, ih hroute h.2⟩) hpairs
  | @member type tag? declared member before after document changed hdeclared htag hmember h ih =>
    intro route hroute value hread
    obtain ⟨layout⟩ := hdeclared.layout hroute
    obtain ⟨⟨haccepted, hone⟩, values, hgiven, rfl⟩ := (layout.object htag).mp hread
    have hthere : ∀ tag ∈ tag?, Entries.getAll "type"
        (before ++ (member.name, changed) :: after) = [tag] := fun tag hmem => by
      rw [Entries.getAll_replaced_of_ne (hdeclared.name_ne_type hmember hmem) document,
        hone tag hmem]
    refine (layout.object fun tag hmem => ?_).mpr ⟨⟨haccepted, hthere⟩, values,
      hgiven.replace hdeclared.nodup hmember h.ne_null (fun _ => ih layout.unbounded), rfl⟩
    rw [← Entries.mem_getAll, hthere tag hmem]
    exact List.mem_singleton_self tag
  | @position type tag? declared member before after document changed hdeclared hmember h ih =>
    intro route hroute value hread
    obtain ⟨layout⟩ := hdeclared.layout hroute
    obtain ⟨⟨haccepted, hlength⟩, values, hgiven, rfl⟩ := layout.array.mp hread
    obtain ⟨first, second, hsplit⟩ := positions_split hmember after
    rw [hsplit] at hgiven
    refine layout.array.mpr ⟨⟨haccepted, ?_⟩, values, ?_, rfl⟩
    · rwa [List.length_append, List.length_cons] at hlength ⊢
    · rw [hsplit]
      exact hgiven.replace hdeclared.nodup (List.mem_of_getElem? hmember) h.ne_null
        (fun _ => ih layout.unbounded)

theorem reads_of_rewritten {kind : Kind} {document changed : Json}
    (h : Relation.ReflTransGen (Rewrites kind) document changed) {route : Route}
    (hroute : route.Unbounded) {value : kind.Value}
    (hread : readDocument document.written kind route = .ok value) :
    readDocument changed.written kind route = .ok value := by
  induction h with
  | refl => exact hread
  | tail _ hstep ih => exact hstep.reads hroute ih

/-- What is read of a document, as a value or from its text, is read of all its rewritings, by
every route that can take them in whole. -/
theorem rewritten_requests_read_alike {document changed : Json} {route other : Route}
    {request : Request}
    (hchanged : Relation.ReflTransGen (Rewrites (.named .request)) document changed)
    (hroute : route.Outer) (hsound : other.isSound changed.written = true)
    (h : readDocument document.written (.named .request) route = .ok request) :
    readDocument changed.written (.named .request) other = .ok request ∧
      ∀ found, readDocument changed.written (.named .request) other = .ok found →
        found.json = request.json ∧ found.fingerprint = request.fingerprint ∧
          ∀ schema, found.plans schema = request.plans schema := by
  have hvalue : fromValue (.named .request) document.written = .ok request :=
    readDocument_of_outer document.written hroute (Route.unbounded_value.isSound _) h
  have hread : readDocument changed.written (.named .request) other = .ok request :=
    readDocument_of_outer changed.written Route.outer_value hsound
      (reads_of_rewritten hchanged Route.unbounded_value hvalue)
  refine ⟨hread, fun found hfound => ?_⟩
  obtain rfl : request = found := Except.ok.inj (hread.symm.trans hfound)
  exact ⟨rfl, rfl, fun _ => rfl⟩

/-- The members in another order, one more, an order as an array and a limit spelled out. -/
theorem sorted_users_read_alike :
    let document : Json := .object [("collection", .string "users"),
      ("query", .object [("order_by", .object [("elements", .array [])])])]
    let changed : Json := .object [("query", .object [("order_by", .array [.array []]),
      ("limit", .null)]), ("collection", .string "users"), ("note", .bool true)]
    let request : Request := ⟨"users", ⟨none, none, none, none, some ⟨[]⟩, none, none⟩, [], none⟩
    Relation.ReflTransGen (Rewrites (.named .request)) document changed ∧
      fromValue (.named .request) document.written = .ok request ∧
        readDocument changed.written (.named .request) (.text 4) = .ok request := by
  intro document changed request
  have hrequest : Declared .request none _ := .struct rfl
  have hquery : Declared .query none _ := .struct rfl
  have horder : Declared .orderBy none _ := .struct rfl
  have hnone {members : List (String × Json)} : HasTag none members := nofun
  have harray : Rewrites (.named .orderBy) (.object [("elements", .array [])])
      (.array [.array []]) :=
    .toArray horder hnone (.cons List.mem_cons_self .nil)
  have hinside : Rewrites (.named .query)
      (.object [("order_by", .object [("elements", .array [])])])
      (.object [("order_by", .array [.array []])]) :=
    @Rewrites.member _ _ _ (may "order_by" _) [] [] _ _ hquery hnone
      (List.mem_of_getElem? (i := 4) rfl) harray
  have hlimit : Rewrites (.named .query) (.object [("order_by", .array [.array []])])
      (.object [("order_by", .array [.array []]), ("limit", .null)]) :=
    .spellOut hquery hnone (List.mem_of_getElem? (i := 2) rfl) .null (by decide)
  have hcollection {query other : Json} (h : Rewrites (.named .query) query other) :
      Rewrites (.named .request) (.object [("collection", .string "users"), ("query", query)])
        (.object [("collection", .string "users"), ("query", other)]) :=
    @Rewrites.member _ _ _ (need "query" _) [("collection", .string "users")] [] _ _ hrequest
      hnone (List.mem_of_getElem? (i := 1) rfl) h
  have hchanged : Relation.ReflTransGen (Rewrites (.named .request)) document changed := by
    refine .head (hcollection hinside) ?_
    refine .head (hcollection hlimit) ?_
    refine .head (.permute hrequest hnone (.swap ..)) ?_
    exact .single (.addUnknown hrequest hnone (by decide) nofun)
  have hread : fromValue (.named .request) document.written = .ok request := rfl
  have hsound : (Route.text 4).isSound changed.written = true := by decide
  exact ⟨hchanged, hread,
    (rewritten_requests_read_alike hchanged Route.outer_value hsound hread).1⟩

end Wire

end NestedSql
