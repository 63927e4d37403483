import NestedSql.Yaml.Scalar

/-!
# Tokens

The tokens of a text. Indentation opens and closes block collections, and a colon makes the scalar
or the bracketed collection in front of it a key, if both stand on one line within 1024 characters.
Anchors, tags, directives and block scalars have no token.
-/

namespace NestedSql.Yaml

inductive Token where
  | scalar (text : String) (plain : Bool)
  | blockList
  | blockMap
  | blockEnd
  | openList
  | closeList
  | openMap
  | closeMap
  | dash
  | comma
  | key
  | value
  | documentStart
  | documentEnd
deriving DecidableEq, Repr

/-- A token that a colon may turn into a key. Where the key stands in the column of its collection,
the colon has to follow. -/
structure KeyMark where
  position : Nat
  line : Nat
  column : Nat
  offset : Nat
  required : Bool
deriving DecidableEq, Repr

/-- The tokens so far, the columns of the open block collections, innermost first, and the marks of
the innermost flow collection and of those around it. -/
structure Scanner where
  cursor : Cursor
  tokens : List Token
  columns : List Nat
  mark : Option KeyMark
  outerMarks : List (Option KeyMark)
  keyAllowed : Bool

namespace Scanner

def ofText (text : List Char) : Scanner := ⟨.start text, [], [], none, [], true⟩

def inFlow (scanner : Scanner) : Bool := !scanner.outerMarks.isEmpty

/-- The least column of lines inside the innermost block collection. -/
def innerColumn (scanner : Scanner) : Nat :=
  match scanner.columns with
  | [] => 0
  | column :: _ => column + 1

def push (scanner : Scanner) (token : Token) : Scanner :=
  { scanner with tokens := scanner.tokens ++ [token] }

/-- Pushes the token of the next `count` characters. -/
def take (scanner : Scanner) (count : Nat) (token : Token) : Scanner :=
  { scanner.push token with cursor := scanner.cursor.advance count }

/-! ## Indentation -/

/-- Opens a block collection at a column, in front of the token at a position. -/
def openBlock (scanner : Scanner) (column position : Nat) (token : Token) : Scanner :=
  if scanner.inFlow || column < scanner.innerColumn then scanner
  else
    { scanner with
      columns := column :: scanner.columns
      tokens := scanner.tokens.take position ++ token :: scanner.tokens.drop position }

/-- Closes the block collections right of a column. -/
def closeBlocks (columns : List Nat) (tokens : List Token) (column : Nat) : List Nat × List Token :=
  match columns with
  | [] => ([], tokens)
  | inner :: outer =>
    if column < inner then closeBlocks outer (tokens ++ [.blockEnd]) column
    else (inner :: outer, tokens)

/-- The next token stands left of some block collections. -/
def dedent (scanner : Scanner) : Scanner :=
  if scanner.inFlow then scanner
  else
    let (columns, tokens) := closeBlocks scanner.columns scanner.tokens scanner.cursor.column
    { scanner with columns := columns, tokens := tokens }

/-- Closes all block collections, wherever the document ends. -/
def closeAll (scanner : Scanner) : Scanner :=
  if scanner.inFlow then scanner
  else
    { scanner with
      columns := [], tokens := scanner.tokens ++ scanner.columns.map fun _ => .blockEnd }

/-! ## Keys -/

/-- The mark at a place further on: none if the key is over, a fault if it was required. -/
def refreshMark (cursor : Cursor) (mark : Option KeyMark) : Option (Option KeyMark) :=
  match mark with
  | none => some none
  | some mark =>
    if mark.line < cursor.line ∨ mark.offset + 1024 < cursor.offset then
      if mark.required then none else some none
    else some (some mark)

/-- Forgets the marks that are over. -/
def refreshMarks (scanner : Scanner) : Option Scanner := do
  let mark ← refreshMark scanner.cursor scanner.mark
  let outerMarks ← scanner.outerMarks.mapM (refreshMark scanner.cursor)
  return { scanner with mark := mark, outerMarks := outerMarks }

/-- Forgets the innermost mark, a fault if it was required. -/
def dropMark (scanner : Scanner) : Option Scanner :=
  match scanner.mark with
  | some mark => if mark.required then none else some { scanner with mark := none }
  | none => some scanner

/-- Marks the next token if a key may stand here. -/
def markKey (scanner : Scanner) : Option Scanner :=
  if scanner.keyAllowed then do
    let scanner ← scanner.dropMark
    let cursor := scanner.cursor
    return { scanner with
      mark := some ⟨scanner.tokens.length, cursor.line, cursor.column, cursor.offset,
        !scanner.inFlow && scanner.columns.head? == some cursor.column⟩ }
  else some scanner

/-! ## Tokens one by one -/

/-- Skips blanks, comments and breaks. A tab may not stand where a block key may. The fuel bounds
the characters. -/
def skipTo (keyAllowed inFlow : Bool) : (fuel : Nat) → Cursor → Cursor × Bool
  | 0, cursor => (cursor, keyAllowed)
  | fuel + 1, cursor =>
    match cursor.rest with
    | [] => (cursor, keyAllowed)
    | c :: _ =>
      if c = ' ' || (c = '\t' && (inFlow || !keyAllowed)) then
        skipTo keyAllowed inFlow fuel (cursor.advance 1)
      else if c = '#' then
        let comment := cursor.rest.takeWhile fun c => !isBreak c
        skipTo keyAllowed inFlow fuel (cursor.advance comment.length)
      else if isBreak c then
        skipTo (keyAllowed || !inFlow) inFlow fuel (cursor.nextLine (breakLength cursor.rest))
      else (cursor, keyAllowed)

/-- Goes to the start of the next token. -/
def skip (scanner : Scanner) : Scanner :=
  let (cursor, keyAllowed) := skipTo scanner.keyAllowed scanner.inFlow
    (scanner.cursor.rest.length + 1) scanner.cursor
  { scanner with cursor := cursor, keyAllowed := keyAllowed }

def takeDocumentMark (scanner : Scanner) (token : Token) : Option Scanner := do
  let scanner ← scanner.closeAll.dropMark
  return { scanner with keyAllowed := false }.take 3 token

def takeOpening (scanner : Scanner) (token : Token) : Option Scanner := do
  let scanner ← scanner.markKey
  let outerMarks := scanner.mark :: scanner.outerMarks
  return { scanner with mark := none, outerMarks := outerMarks, keyAllowed := true }.take 1 token

def takeClosing (scanner : Scanner) (token : Token) : Option Scanner := do
  let scanner ← scanner.dropMark
  let scanner := match scanner.outerMarks with
    | [] => scanner
    | mark :: outerMarks => { scanner with mark := mark, outerMarks := outerMarks }
  return { scanner with keyAllowed := false }.take 1 token

def takeComma (scanner : Scanner) : Option Scanner := do
  let scanner ← scanner.dropMark
  return { scanner with keyAllowed := true }.take 1 .comma

/-- A dash or a question mark, which may open a block collection. -/
def takeIndicator (scanner : Scanner) (collection token : Token) (keyAllowed : Bool) :
    Option Scanner := do
  if !scanner.inFlow && !scanner.keyAllowed then none
  let scanner ← (scanner.openBlock scanner.cursor.column scanner.tokens.length collection).dropMark
  return { scanner with keyAllowed := keyAllowed }.take 1 token

/-- A colon: what is marked becomes its key. -/
def takeColon (scanner : Scanner) : Option Scanner :=
  match scanner.mark with
  | some mark =>
    let tokens := scanner.tokens.take mark.position ++ .key :: scanner.tokens.drop mark.position
    let scanner := { scanner with tokens := tokens, mark := none, keyAllowed := false }
    return (scanner.openBlock mark.column mark.position .blockMap).take 1 .value
  | none => do
    if !scanner.inFlow && !scanner.keyAllowed then none
    let scanner := scanner.openBlock scanner.cursor.column scanner.tokens.length .blockMap
    return { scanner with keyAllowed := !scanner.inFlow }.take 1 .value

def takeQuotedScalar (scanner : Scanner) (quote : Char) : Option Scanner := do
  let scanner ← scanner.markKey
  let scanned ← scanQuoted quote scanner.cursor
  return { scanner.push (.scalar scanned.text false) with
    cursor := scanned.cursor, keyAllowed := false }

def takePlainScalar (scanner : Scanner) : Option Scanner := do
  let scanner ← scanner.markKey
  let scanned ← scanPlain scanner.inFlow scanner.innerColumn scanner.cursor
  return { scanner.push (.scalar scanned.text true) with
    cursor := scanned.cursor, keyAllowed := scanned.severalLines }

/-- A plain scalar may not start with any of these, but with a dash, a question mark or a colon
that no blank follows, the last two outside brackets only. -/
def startsPlain (inFlow : Bool) (c : Char) (rest : List Char) : Bool :=
  if c = '-' then !startsBlank rest
  else if c = '?' || c = ':' then !inFlow && !startsBlank rest
  else !",[]\x7b\x7d#&*!|>'\"%@\x60".toList.contains c

/-- The next token; nothing where no token can start. -/
def next (scanner : Scanner) (c : Char) (rest : List Char) : Option Scanner :=
  if scanner.cursor.column = 0 ∧ c = '%' then none
  else if scanner.cursor.atDocumentMark then
    scanner.takeDocumentMark (if c = '-' then .documentStart else .documentEnd)
  else if c = '[' then scanner.takeOpening .openList
  else if c = '\x7b' then scanner.takeOpening .openMap
  else if c = ']' then scanner.takeClosing .closeList
  else if c = '\x7d' then scanner.takeClosing .closeMap
  else if c = ',' then scanner.takeComma
  else if c = '-' ∧ startsBlank rest then scanner.takeIndicator .blockList .dash true
  else if c = '?' ∧ (scanner.inFlow ∨ startsBlank rest) then
    scanner.takeIndicator .blockMap .key !scanner.inFlow
  else if c = ':' ∧ (scanner.inFlow ∨ startsBlank rest) then scanner.takeColon
  else if c = '\'' ∨ c = '"' then scanner.takeQuotedScalar c
  else if startsPlain scanner.inFlow c rest then scanner.takePlainScalar
  else none

/-- All tokens from here on. The fuel bounds their number. -/
def run : (fuel : Nat) → Scanner → Option (List Token)
  | 0, _ => none
  | fuel + 1, scanner => do
    let scanner ← scanner.skip.refreshMarks
    match scanner.cursor.rest with
    | [] => return (← scanner.closeAll.dropMark).tokens
    | c :: rest => run fuel (← scanner.dedent.next c rest)

end Scanner

/-- A byte order mark in front of a text is no part of it. -/
def dropByteOrderMark : List Char → List Char
  | [] => []
  | c :: rest => if c.toNat = 0xFEFF then rest else c :: rest

/-- The tokens of a text. -/
def Token.scan (text : String) : Option (List Token) :=
  let characters := dropByteOrderMark text.toList
  if characters.all isReadable then
    Scanner.run (characters.length + 2) (Scanner.ofText characters)
  else none

end NestedSql.Yaml
