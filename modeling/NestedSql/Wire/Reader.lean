import NestedSql.Json.Parser
import NestedSql.Wire.Fault
import NestedSql.Wire.Grammar

/-!
# Reading documents by the grammar

A structure is an object or the array of its members in order of declaration; a union is an object
with a member `type` or the array of its tag and members. Members are met in the order in which
they are written and the first fault is the answer; only then are missing members looked for, in
order of declaration. Members with unknown names are passed over.

How a document arrives matters in four places, which `Route` names: whether nesting is bounded,
what a sequence with too many items is called, whether a symbol may be written as an object, and
whether an index may stand for a tag.
-/

namespace NestedSql.Wire

/-- How a document arrives: as a value, as a part of a union that has been met in whole, or from
a text with room for some further nesting. -/
inductive Route where
  | value
  | part
  | text (depth : Nat)
deriving DecidableEq

namespace Route

/-- The route inside an array or object. -/
def enter : Route → Except Fault Route
  | text 0 => throw .malformed
  | text (depth + 1) => return text depth
  | route => return route

/-- The document can be taken in whole. -/
def isSound (route : Route) (document : Written) : Bool :=
  match route with
  | text depth => (document.value? depth).isSome
  | _ => true

end Route

/-- What a kind calls its values. -/
def Kind.wanted : Kind → Wanted
  | string => .string
  | boolean => .boolean
  | count => .unsigned32
  | free => .unit
  | list _ => .sequence
  | map _ => .map
  | named type =>
    match declaration type with
    | .struct name _ => .struct name
    | .union name _ => .union name
    | .symbols _ => .symbol

/-- The document has another type than the wanted one. -/
def wrongType {α : Type} (document : Written) (wanted : Wanted) : Except Fault α :=
  match document.found? with
  | some found => throw (.mismatch (.wrongType found wanted))
  | none => throw .malformed

/-- Any value at all. -/
def readFree (document : Written) (route : Route) : Except Fault Json :=
  let depth := match route with
    | .text depth => depth
    | _ => document.depth
  match document.value? depth with
  | some value => return value
  | none => throw .malformed

/-- The variant with this tag. -/
def findVariant {α : Type} (variants : List (Variant α)) (tag : String) :
    Except Fault (Variant α) :=
  match variants.find? fun variant => variant.tag == tag with
  | some variant => return variant
  | none => throw (.mismatch (.unknownVariant tag (variants.map Variant.tag)))

/-- The variant that a tag names. Inside a union that has been met in whole its index will do. -/
def readTag {α : Type} (variants : List (Variant α)) (document : Written) (route : Route) :
    Except Fault (Variant α) :=
  match document, route with
  | .string tag, _ => findVariant variants tag
  | .number (.integer (.ofNat index) _), .part =>
    match variants[index]? with
    | some variant => return variant
    | none => throw (.mismatch (.wrongTagIndex index variants.length))
  | document, _ => wrongType document .tag

/-- The value of a symbol. -/
def findSymbol {α : Type} (names : List (String × α)) (name : String) : Except Fault α :=
  match Entries.get? name names with
  | some value => return value
  | none => throw (.mismatch (.unknownVariant name (names.map Prod.fst)))

/-- A symbol as an object whose one member has its name and is null. -/
def readSymbolObject {α : Type} (names : List (String × α)) (members : List (String × Written))
    (closed : Bool) (route : Route) : Except Fault α :=
  match members, route with
  | (name, document) :: others, .text _ => do
    let value ← findSymbol names name
    match document with
    | .null => if closed ∧ others.isEmpty then return value else throw .malformed
    | document => wrongType document .unit
  | [], .text _ => throw .malformed
  | [(name, document)], route => do
    let value ← findSymbol names name
    match document, route with
    | .null, _ => return value
    | .object [] _, .part => return value
    | document, _ => wrongType document .unit
  | _, _ => throw (.mismatch .severalNames)

/-- A document that is neither an array nor an object. -/
def readScalar (document : Written) (kind : Kind) (route : Route) : Except Fault kind.Value :=
  match kind with
  | .string =>
    match document with
    | .string value => return value
    | document => wrongType document .string
  | .boolean =>
    match document with
    | .bool value => return value
    | document => wrongType document .boolean
  | .count =>
    match document with
    | .number (.integer value _) =>
      if 0 ≤ value ∧ value < UInt32.size then return UInt32.ofNat value.toNat
      else throw (.mismatch (.outOfRange value))
    | document => wrongType document .unsigned32
  | .free => readFree document route
  | .named type =>
    match declaration type, document, route with
    | .symbols names, .string name, _ => findSymbol names name
    | .symbols _, _, .text _ => throw .malformed
    | _, document, _ => wrongType document (Kind.named type).wanted
  | kind => wrongType document kind.wanted

/-! ## Members -/

/-- What has been met of the members. -/
abbrev Slots : List Member → Type
  | [] => Unit
  | member :: members => Option member.Value × Slots members

/-- Nothing has been met. -/
def Slots.empty : (members : List Member) → Slots members
  | [] => ()
  | _ :: members => (none, empty members)

/-- The value of a member; null will do for an optional one. -/
def Member.read (member : Member) (document : Written)
    (read : (kind : Kind) → Except Fault kind.Value) : Except Fault member.Value :=
  match member with
  | ⟨_, kind, .optional⟩ =>
    match document with
    | .null => return none
    | _ => some <$> read kind
  | ⟨_, kind, .required⟩ => read kind
  | ⟨_, kind, .defaulted _⟩ => read kind

/-- The value of a member that is not there. -/
def Member.absent (member : Member) (fault : Fault) : Except Fault member.Value :=
  match member with
  | ⟨_, _, .optional⟩ => return none
  | ⟨_, _, .required⟩ => throw fault
  | ⟨_, _, .defaulted value⟩ => return value

/-- Meets one written member. -/
def Slots.meet (name : String) (document : Written)
    (read : (kind : Kind) → Except Fault kind.Value) :
    (members : List Member) → Slots members → Except Fault (Slots members)
  | [], slots => return slots
  | member :: members, (slot, slots) =>
    if member.name = name then
      match slot with
      | some _ => throw (.mismatch (.duplicateField name))
      | none => do return (some (← member.read document read), slots)
    else do
      return (slot, ← meet name document read members slots)

/-- All members, those not met by their defaults. -/
def Slots.finish : (members : List Member) → Slots members → Except Fault (Values members)
  | [], _ => return ()
  | member :: members, (slot, slots) => do
    let value ← match slot with
      | some value => pure value
      | none => member.absent (.mismatch (.missingField member.name))
    return (value, ← finish members slots)

/-- The members at the end of an array that has no items left. -/
def absentFrom (fault : Fault) : (members : List Member) → Except Fault (Values members)
  | [] => return ()
  | member :: members => do
    let value ← member.absent fault
    return (value, ← absentFrom fault members)

/-- An array that stands for a structure or a variant. -/
structure Sequence where
  length : Nat
  closed : Bool
  extent : Extent
  members : Nat

/-- The array has more items than there are members. -/
def Sequence.tooLong (sequence : Sequence) : Route → Fault
  | .text _ => .malformed
  | .value => .mismatch (.wrongLength sequence.length .fewer)
  | .part => .mismatch (.wrongLength sequence.length (.exactly sequence.members))

/-- The array ends after `index` items. -/
def Sequence.tooShort (sequence : Sequence) (index : Nat) : Fault :=
  if sequence.closed then .mismatch (.wrongLength index sequence.extent) else .malformed

/-- The tag of a union, met among the members of an object. The other members have to be sound. -/
def findTag {α : Type} (variants : List (Variant α)) (route : Route) :
    List (String × Written) → Option (Variant α) → Except Fault (Option (Variant α))
  | [], found => return found
  | (name, document) :: members, found =>
    if name = "type" then
      match found with
      | some _ => throw (.mismatch (.duplicateField name))
      | none => do findTag variants route members (some (← readTag variants document route))
    else if route.isSound document then findTag variants route members found
    else throw .malformed

/-! ## Documents -/

mutual

/-- The value of a kind that a document stands for. -/
def readDocument : (document : Written) → (kind : Kind) → Route → Except Fault kind.Value
  | .array items closed, kind, route =>
    match kind with
    | .list item => do
      let values ← readItems items item (← route.enter)
      if closed then return values else throw .malformed
    | .free => readFree (.array items closed) route
    | .named type =>
      match declaration type with
      | .struct name shape => do
        let sequence : Sequence :=
          ⟨items.length, closed, .struct name shape.members.length, shape.members.length⟩
        return shape.build (← readPositions items shape.members (← route.enter) 0 sequence)
      | .union name variants => do
        let inner ← route.enter
        match items with
        | [] => if closed then throw (.mismatch (.missingField "type")) else throw .malformed
        | tag :: items =>
          let variant ← readTag variants tag inner
          let count := variant.shape.members.length
          let sequence : Sequence :=
            ⟨items.length, true, .variant name variant.label count, count⟩
          if closed ∧ items.all inner.isSound then
            return variant.shape.build
              (← readPositions items variant.shape.members .part 0 sequence)
          else throw .malformed
      | .symbols _ => if route matches .text _ then throw .malformed
        else wrongType (.array items closed) .symbol
    | kind => wrongType (.array items closed) kind.wanted
  | .object members closed, kind, route =>
    match kind with
    | .map value => do
      let entries ← readEntries members value (← route.enter)
      if closed then return Entries.ofPairs entries else throw .malformed
    | .free => readFree (.object members closed) route
    | .named type =>
      match declaration type with
      | .struct _ shape => do
        let slots ← readMembers members shape.members (.empty shape.members) (← route.enter)
        if closed then return shape.build (← slots.finish) else throw .malformed
      | .union _ variants => do
        let variant? ← findTag variants (← route.enter) members none
        if closed then
          match variant? with
          | none => throw (.mismatch (.missingField "type"))
          | some variant =>
            let slots ← readMembers members variant.shape.members (.empty _) .part
            return variant.shape.build (← slots.finish)
        else throw .malformed
      | .symbols names => do readSymbolObject names members closed (← route.enter)
    | kind => wrongType (.object members closed) kind.wanted
  | .null, kind, route => readScalar .null kind route
  | .bool value, kind, route => readScalar (.bool value) kind route
  | .number value, kind, route => readScalar (.number value) kind route
  | .string value, kind, route => readScalar (.string value) kind route
  | .fault, _, _ => throw .malformed

/-- The items of a list. -/
def readItems : List Written → (kind : Kind) → Route → Except Fault (List kind.Value)
  | [], _, _ => return []
  | document :: items, kind, route => do
    let value ← readDocument document kind route
    return value :: (← readItems items kind route)

/-- The entries of a map, names repeated. -/
def readEntries : List (String × Written) → (kind : Kind) → Route →
    Except Fault (List (String × kind.Value))
  | [], _, _ => return []
  | (name, document) :: members, kind, route => do
    let value ← readDocument document kind route
    return (name, value) :: (← readEntries members kind route)

/-- The members of a structure or variant written as an object. -/
def readMembers : List (String × Written) → (members : List Member) → Slots members → Route →
    Except Fault (Slots members)
  | [], _, slots, _ => return slots
  | (name, document) :: written, members, slots, route => do
    let slots ← slots.meet name document (fun kind => readDocument document kind route) members
    readMembers written members slots route

/-- The members of a structure or variant written as an array. -/
def readPositions : List Written → (members : List Member) → Route → (index : Nat) → Sequence →
    Except Fault (Values members)
  | [], members, _, index, sequence => do
    if sequence.closed then absentFrom (sequence.tooShort index) members else throw .malformed
  | _ :: _, [], route, _, sequence => throw (sequence.tooLong route)
  | document :: items, member :: members, route, index, sequence => do
    let value ← member.read document (fun kind => readDocument document kind route)
    return (value, ← readPositions items members route (index + 1) sequence)

end

/-- The value that a parsed document stands for. -/
def fromValue (kind : Kind) (document : Written) : Except Fault kind.Value :=
  readDocument document kind .value

/-- The value at the head of a text; what follows is of no interest. -/
def fromHead (kind : Kind) (text : String) : Except Fault kind.Value :=
  readDocument (Written.parse text).1 kind (.text Json.nestingLimit)

/-- The value of a text that holds nothing else. -/
def fromText (kind : Kind) (text : String) : Except Fault kind.Value := do
  let (document, rest) := Written.parse text
  let value ← readDocument document kind (.text Json.nestingLimit)
  if Written.nothingFollows rest then return value else throw .malformed

end NestedSql.Wire
