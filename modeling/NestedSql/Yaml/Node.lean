import NestedSql.Yaml.Token

/-!
# Documents

The tree of scalars, lists and maps that a text holds. What is left out stands for an empty plain
scalar, and so does an empty text. A text holds one document at most.
-/

namespace NestedSql.Yaml

/-- A document. -/
inductive Node where
  | scalar (text : String) (plain : Bool)
  | list (items : List Node)
  | map (entries : List (Node × Node))

instance : Inhabited Node := ⟨.scalar "" true⟩

namespace Node

/-- What is left out. -/
def empty : Node := scalar "" true

/-- The tokens start with one of these. -/
def startWith (tokens stops : List Token) : Bool :=
  match tokens with
  | [] => false
  | token :: _ => stops.contains token

mutual

/-- A node that may be a block collection. Behind a key, dashes need not be indented. -/
def block : (fuel : Nat) → (behindKey : Bool) → List Token → Option (Node × List Token)
  | 0, _, _ => none
  | fuel + 1, behindKey, tokens =>
    match tokens with
    | .dash :: _ => do
      if !behindKey then none
      let (items, rest) ← dashItems fuel tokens
      return (list items, rest)
    | .blockList :: rest => do
      let (items, rest) ← blockItems fuel rest
      return (list items, rest)
    | .blockMap :: rest => do
      let (entries, rest) ← blockEntries fuel rest
      return (map entries, rest)
    | tokens => flow fuel tokens

/-- A node without block collections. -/
def flow : (fuel : Nat) → List Token → Option (Node × List Token)
  | 0, _ => none
  | fuel + 1, tokens =>
    match tokens with
    | .scalar text plain :: rest => some (scalar text plain, rest)
    | .openList :: rest => do
      let (items, rest) ← flowItems fuel true rest
      return (list items, rest)
    | .openMap :: rest => do
      let (entries, rest) ← flowEntries fuel true rest
      return (map entries, rest)
    | _ => none

/-- A node, or what is left out in front of some tokens. -/
def blockUnless : (fuel : Nat) → (stops : List Token) → (behindKey : Bool) → List Token →
    Option (Node × List Token)
  | 0, _, _, _ => none
  | fuel + 1, stops, behindKey, tokens =>
    if startWith tokens stops then some (empty, tokens) else block fuel behindKey tokens

/-- A node in brackets, or what is left out in front of some tokens. -/
def flowUnless : (fuel : Nat) → (stops : List Token) → List Token → Option (Node × List Token)
  | 0, _, _ => none
  | fuel + 1, stops, tokens =>
    if startWith tokens stops then some (empty, tokens) else flow fuel tokens

/-- The items of a block list up to its end. -/
def blockItems : (fuel : Nat) → List Token → Option (List Node × List Token)
  | 0, _ => none
  | fuel + 1, tokens =>
    match tokens with
    | .dash :: rest => do
      let (item, rest) ← blockUnless fuel [.dash, .blockEnd] false rest
      let (items, rest) ← blockItems fuel rest
      return (item :: items, rest)
    | .blockEnd :: rest => some ([], rest)
    | _ => none

/-- The items of a list whose dashes stand in the column of its key. -/
def dashItems : (fuel : Nat) → List Token → Option (List Node × List Token)
  | 0, _ => none
  | fuel + 1, tokens =>
    match tokens with
    | .dash :: rest => do
      let (item, rest) ← blockUnless fuel [.dash, .key, .value, .blockEnd] false rest
      let (items, rest) ← dashItems fuel rest
      return (item :: items, rest)
    | tokens => some ([], tokens)

/-- The entries of a block map up to its end. -/
def blockEntries : (fuel : Nat) → List Token → Option (List (Node × Node) × List Token)
  | 0, _ => none
  | fuel + 1, tokens =>
    match tokens with
    | .key :: rest => do
      let (key, rest) ← blockUnless fuel [.key, .value, .blockEnd] true rest
      let (value, rest) ← match rest with
        | .value :: rest => blockUnless fuel [.key, .value, .blockEnd] true rest
        | rest => some (empty, rest)
      let (entries, rest) ← blockEntries fuel rest
      return ((key, value) :: entries, rest)
    | .blockEnd :: rest => some ([], rest)
    | _ => none

/-- The items of a list in brackets up to its end, which a comma may precede. -/
def flowItems : (fuel : Nat) → (first : Bool) → List Token → Option (List Node × List Token)
  | 0, _, _ => none
  | fuel + 1, first, tokens =>
    match first, tokens with
    | _, .closeList :: rest => some ([], rest)
    | false, .comma :: .closeList :: rest => some ([], rest)
    | false, .comma :: rest => flowItem fuel rest
    | false, _ => none
    | true, tokens => flowItem fuel tokens

/-- An item, which may be the single entry of a map, and the items behind it. -/
def flowItem : (fuel : Nat) → List Token → Option (List Node × List Token)
  | 0, _ => none
  | fuel + 1, tokens => do
    let (item, rest) ← match tokens with
      | .key :: rest => do
        let (entry, rest) ← flowEntry fuel [.comma, .closeList] rest
        pure (map [entry], rest)
      | tokens => flow fuel tokens
    let (items, rest) ← flowItems fuel false rest
    return (item :: items, rest)

/-- An entry behind its key token, up to one of some tokens. -/
def flowEntry : (fuel : Nat) → (stops : List Token) → List Token →
    Option ((Node × Node) × List Token)
  | 0, _, _ => none
  | fuel + 1, stops, tokens => do
    let (key, rest) ← flowUnless fuel (.value :: stops) tokens
    match rest with
    | .value :: rest =>
      let (value, rest) ← flowUnless fuel stops rest
      return ((key, value), rest)
    | rest => return ((key, empty), rest)

/-- The entries of a map in braces up to its end, which a comma may precede. -/
def flowEntries : (fuel : Nat) → (first : Bool) → List Token →
    Option (List (Node × Node) × List Token)
  | 0, _, _ => none
  | fuel + 1, first, tokens =>
    match first, tokens with
    | _, .closeMap :: rest => some ([], rest)
    | false, .comma :: .closeMap :: rest => some ([], rest)
    | false, .comma :: rest => flowMember fuel rest
    | false, _ => none
    | true, tokens => flowMember fuel tokens

/-- An entry, which may be a key alone, and the entries behind it. -/
def flowMember : (fuel : Nat) → List Token → Option (List (Node × Node) × List Token)
  | 0, _ => none
  | fuel + 1, tokens => do
    let (entry, rest) ← match tokens with
      | .key :: rest => flowEntry fuel [.comma, .closeMap] rest
      | tokens => do
        let (key, rest) ← flow fuel tokens
        pure ((key, empty), rest)
    let (entries, rest) ← flowEntries fuel false rest
    return (entry :: entries, rest)

end

/-- The document that the tokens start with. Behind a document mark all may be left out. -/
def first (fuel : Nat) (tokens : List Token) : Option (Node × List Token) :=
  match tokens with
  | [] | [.documentStart] => some (empty, [])
  | .documentStart :: rest => blockUnless fuel [.documentStart, .documentEnd] false rest
  | tokens => block fuel false tokens

/-- The document of a text that holds no other. -/
def ofTokens? (tokens : List Token) : Option Node := do
  let (node, rest) ← first (4 * tokens.length + 4) tokens
  if (rest.dropWhile (· = .documentEnd)).isEmpty then return node else none

/-- The document of a text. -/
def parse? (text : String) : Option Node := do ofTokens? (← Token.scan text)

end Node

end NestedSql.Yaml
