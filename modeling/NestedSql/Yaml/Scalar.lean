import NestedSql.Text.Hex
import NestedSql.Yaml.Cursor

/-!
# Scalars

Plain scalars end where the line does or goes on with a key, a comment or, inside brackets, with
punctuation, and may continue on lines that are indented further. Quoted scalars end with their
quote; between double quotes a backslash starts an escape. Line ends inside are folded.
-/

namespace NestedSql.Yaml

/-- A scalar and the place behind it. -/
structure ScannedScalar where
  text : String
  cursor : Cursor
  severalLines : Bool

/-! ## Plain scalars -/

/-- The characters up to a blank or to what ends a plain scalar; nothing where a colon stands before
punctuation inside brackets. -/
def plainWord (inFlow : Bool) : List Char → Option (List Char)
  | [] => some []
  | c :: rest =>
    if isBlank c || isBreak c then some []
    else if c = ':' then
      if startsBlank rest then some []
      else if inFlow && ",?[]\x7b\x7d".toList.any (rest.head? = some ·) then none
      else (plainWord inFlow rest).map (c :: ·)
    else if inFlow && ",[]\x7b\x7d".toList.contains c then some []
    else (plainWord inFlow rest).map (c :: ·)

/-- Takes words while the scalar goes on: `gap` stands in front of the next word. -/
def takePlain (inFlow : Bool) (indent : Nat) :
    (fuel : Nat) → Cursor → (soFar : List Char) → (gap : Gap) → Option ScannedScalar
  | 0, _, _, _ => none
  | fuel + 1, cursor, soFar, gap =>
    let stop : ScannedScalar := ⟨String.ofList soFar, cursor, !gap.breaks.isEmpty⟩
    if cursor.atDocumentMark || cursor.startsWith ['#'] then some stop
    else
      match plainWord inFlow cursor.rest with
      | none => none
      | some [] => some stop
      | some word =>
        let soFar := soFar ++ gap.folded ++ word
        let behind := cursor.advance word.length
        match behind.gap indent with
        | none => none
        | some (gap, cursor) =>
          if gap.blanks.isEmpty && gap.breaks.isEmpty then
            some ⟨String.ofList soFar, cursor, false⟩
          else if !inFlow && cursor.column < indent then
            some ⟨String.ofList soFar, cursor, !gap.breaks.isEmpty⟩
          else takePlain inFlow indent fuel cursor soFar gap

/-- The plain scalar at a place, its further lines indented to column `indent` at least. -/
def scanPlain (inFlow : Bool) (indent : Nat) (cursor : Cursor) : Option ScannedScalar :=
  takePlain inFlow indent (cursor.rest.length + 1) cursor [] ⟨[], []⟩

/-! ## Quoted scalars -/

/-- The character that hexadecimal digits name. -/
def hexChar? (digits : List Char) : Option Char := do
  let values ← digits.mapM Text.hexValue?
  let point := values.foldl (fun point value => point * 16 + value) 0
  if h : point.isValidChar then some (Char.ofNatAux point h) else none

/-- The characters behind a backslash that stand for another. -/
def escapes : List (Char × Nat) :=
  [('0', 0), ('a', 7), ('b', 8), ('t', 9), ('\t', 9), ('n', 10), ('v', 11), ('f', 12), ('r', 13),
    ('e', 27), (' ', 32), ('"', 34), ('/', 47), ('\\', 92), ('N', 0x85), ('_', 0xA0), ('L', 0x2028),
    ('P', 0x2029)]

/-- The number of hexadecimal digits behind an escape. -/
def escapeDigits : List (Char × Nat) := [('x', 2), ('u', 4), ('U', 8)]

/-- The character that an escape stands for, and the number of its characters. -/
def unescape? (c : Char) (rest : List Char) : Option (Char × Nat) :=
  match escapes.lookup c, escapeDigits.lookup c with
  | some point, _ => some (Char.ofNat point, 2)
  | none, some count =>
    if rest.length < count then none
    else (hexChar? (rest.take count)).map fun character => (character, count + 2)
  | none, none => none

/-- Takes a quoted scalar from behind its opening quote. -/
def takeQuoted (quote : Char) : (fuel : Nat) → Cursor → (soFar : List Char) → Option ScannedScalar
  | 0, _, _ => none
  | fuel + 1, cursor, soFar =>
    if cursor.atDocumentMark then none
    else
      match cursor.rest with
      | [] => none
      | c :: rest =>
        if c = quote then
          if quote = '\'' && rest.head? = some '\'' then
            takeQuoted quote fuel (cursor.advance 2) (soFar ++ [c])
          else some ⟨String.ofList soFar, cursor.advance 1, false⟩
        else if c = '\\' ∧ quote = '"' then
          match rest with
          | [] => none
          | next :: others =>
            if isBreak next then
              match ((cursor.advance 1).nextLine (breakLength rest)).gap 0 with
              | none => none
              | some (gap, cursor) => takeQuoted quote fuel cursor (soFar ++ gap.breaks)
            else
              match unescape? next others with
              | none => none
              | some (character, count) =>
                takeQuoted quote fuel (cursor.advance count) (soFar ++ [character])
        else if isBlank c || isBreak c then
          match cursor.gap 0 with
          | none => none
          | some (gap, cursor) => takeQuoted quote fuel cursor (soFar ++ gap.folded)
        else takeQuoted quote fuel (cursor.advance 1) (soFar ++ [c])

/-- The quoted scalar at a place. -/
def scanQuoted (quote : Char) (cursor : Cursor) : Option ScannedScalar :=
  takeQuoted quote (cursor.rest.length + 1) (cursor.advance 1) []

end NestedSql.Yaml
