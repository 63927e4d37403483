/-!
# Places in a text

The rest of a text with the line and the column where it starts. A line ends with a line feed, a
carriage return, both, or one of three further breaks.
-/

namespace NestedSql.Yaml

/-- The next line control, the line separator and the paragraph separator are breaks as well. -/
def isBreak (c : Char) : Bool :=
  c = '\n' || c = '\r' || c.toNat = 0x85 || c.toNat = 0x2028 || c.toNat = 0x2029

def isBlank (c : Char) : Bool := c = ' ' || c = '\t'

/-- The text starts with a blank, a break or its end. -/
def startsBlank : List Char → Bool
  | [] => true
  | c :: _ => isBlank c || isBreak c

/-- Line ends become line feeds; the two separators stay what they are. -/
def breakChar (c : Char) : Char :=
  if c.toNat = 0x2028 ∨ c.toNat = 0x2029 then c else '\n'

/-- A character that may stand in a document. -/
def isReadable (c : Char) : Bool :=
  let n := c.toNat
  n = 9 || n = 10 || n = 13 || (0x20 ≤ n && n ≤ 0x7E) || n = 0x85 ||
    (0xA0 ≤ n && n ≤ 0xFFFD && n ≠ 0xFEFF) || 0x10000 ≤ n

/-- A place in a text. -/
structure Cursor where
  rest : List Char
  line : Nat
  column : Nat
  offset : Nat

namespace Cursor

def start (text : List Char) : Cursor := ⟨text, 0, 0, 0⟩

/-- Some characters of the line further. -/
def advance (cursor : Cursor) (count : Nat) : Cursor :=
  ⟨cursor.rest.drop count, cursor.line, cursor.column + count, cursor.offset + count⟩

/-- The start of the next line, behind a break of `count` characters. -/
def nextLine (cursor : Cursor) (count : Nat) : Cursor :=
  ⟨cursor.rest.drop count, cursor.line + 1, 0, cursor.offset + count⟩

/-- The text goes on with these characters. -/
def startsWith (cursor : Cursor) (characters : List Char) : Bool :=
  characters.isPrefixOf cursor.rest

/-- Three dashes or three dots at the start of a line, with a blank or the end behind. -/
def atDocumentMark (cursor : Cursor) : Bool :=
  cursor.column = 0 &&
    (cursor.startsWith ['-', '-', '-'] || cursor.startsWith ['.', '.', '.']) &&
    startsBlank (cursor.rest.drop 3)

end Cursor

/-! ## Gaps -/

/-- Blanks and breaks between two words of a scalar. -/
structure Gap where
  blanks : List Char
  breaks : List Char
deriving DecidableEq, Repr

/-- What a gap stands for: the blanks of a line, a blank for a single line end, or the breaks after
the first line end. -/
def Gap.folded (gap : Gap) : List Char :=
  match gap.breaks with
  | [] => gap.blanks
  | ['\n'] => [' ']
  | '\n' :: breaks => breaks
  | breaks => breaks

/-- The number of characters of a break. -/
def breakLength : List Char → Nat
  | '\r' :: '\n' :: _ => 2
  | _ => 1

/-- Takes a gap. A tab may not stand in front of column `indent`. The fuel bounds its characters. -/
def takeGap (indent : Nat) : (fuel : Nat) → Cursor → Gap → Option (Gap × Cursor)
  | 0, cursor, gap => some (gap, cursor)
  | fuel + 1, cursor, gap =>
    match cursor.rest with
    | [] => some (gap, cursor)
    | c :: _ =>
      if isBlank c then
        if gap.breaks.isEmpty then
          takeGap indent fuel (cursor.advance 1) { gap with blanks := gap.blanks ++ [c] }
        else if c = '\t' ∧ cursor.column < indent then none
        else takeGap indent fuel (cursor.advance 1) gap
      else if isBreak c then
        takeGap indent fuel (cursor.nextLine (breakLength cursor.rest))
          ⟨gap.blanks, gap.breaks ++ [breakChar c]⟩
      else some (gap, cursor)

/-- The gap at a place. -/
def Cursor.gap (cursor : Cursor) (indent : Nat) : Option (Gap × Cursor) :=
  takeGap indent cursor.rest.length cursor ⟨[], []⟩

end NestedSql.Yaml
