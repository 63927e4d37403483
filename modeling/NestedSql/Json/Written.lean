import NestedSql.Json.Basic

/-!
# Documents as written

A written document keeps what a value forgets: members that repeat a name, and the place where
the text stops being JSON. A `fault` stands for a token without a value, and an array or object
that is not closed ends where the text went wrong; nothing follows it. Well-formed documents have
neither, and reading one as a value keeps of equal names the first place and the last value.
-/

namespace NestedSql

/-- A document as its text has it, up to the first place that is not JSON. -/
inductive Written where
  | null
  | bool (value : Bool)
  | number (value : Number)
  | string (value : String)
  | array (items : List Written) (closed : Bool)
  | object (members : List (String × Written)) (closed : Bool)
  | fault

instance : Inhabited Written := ⟨.null⟩

namespace Written

mutual

/-- The value written, if there is no fault and at most `depth` arrays and objects are nested. -/
def value? : Written → (depth : Nat) → Option Json
  | .null, _ => some .null
  | .bool value, _ => some (.bool value)
  | .number value, _ => some (.number value)
  | .string value, _ => some (.string value)
  | .array items closed, depth =>
    match depth with
    | 0 => none
    | depth + 1 => if closed then (itemValues? items depth).map .array else none
  | .object members closed, depth =>
    match depth with
    | 0 => none
    | depth + 1 =>
      if closed then (memberValues? members depth).map (.object ∘ Entries.ofPairs) else none
  | .fault, _ => none

def itemValues? : List Written → (depth : Nat) → Option (List Json)
  | [], _ => some []
  | item :: items, depth => do return (← value? item depth) :: (← itemValues? items depth)

def memberValues? : List (String × Written) → (depth : Nat) → Option (List (String × Json))
  | [], _ => some []
  | (name, item) :: members, depth => do
    return (name, ← value? item depth) :: (← memberValues? members depth)

end

mutual

/-- The number of nested arrays and objects. -/
def depth : Written → Nat
  | .array items _ => itemsDepth items + 1
  | .object members _ => membersDepth members + 1
  | _ => 0

def itemsDepth : List Written → Nat
  | [] => 0
  | item :: items => max (depth item) (itemsDepth items)

def membersDepth : List (String × Written) → Nat
  | [] => 0
  | (_, item) :: members => max (depth item) (membersDepth members)

end

end Written

namespace Json

mutual

/-- A value as the document that writes it. -/
def written : Json → Written
  | .null => .null
  | .bool value => .bool value
  | .number value => .number value
  | .string value => .string value
  | .array items => .array (writtenItems items) true
  | .object members => .object (writtenMembers members) true

def writtenItems : List Json → List Written
  | [] => []
  | item :: items => written item :: writtenItems items

def writtenMembers : List (String × Json) → List (String × Written)
  | [] => []
  | (name, value) :: members => (name, written value) :: writtenMembers members

end

end Json

end NestedSql
