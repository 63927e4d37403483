import NestedSql.Double.Decimal
import NestedSql.Json.Written
import NestedSql.Text.Hex

/-!
# Reading JSON texts

`Written.parse` answers with the document at the head of a text and what follows it. It reads on
until the text stops being JSON, so that a reader of the document meets what was written before
that place first. A string with a lone surrogate and a number too large for a double are faults
that the scan survives.
-/

namespace NestedSql.Written

def isBlank (c : Char) : Bool := c == ' ' || c == '\n' || c == '\t' || c == '\r'

def skipBlank (text : List Char) : List Char := text.dropWhile isBlank

/-- What a scan found, what follows, and whether the text is JSON up to there. -/
structure Scan (α : Type) where
  found : α
  rest : List Char
  whole : Bool

/-! ## Strings -/

/-- The code unit that four hexadecimal digits name. -/
def codeUnit? (a b c d : Char) : Option Nat := do
  let high := (← Text.hexValue? a) * 16 + (← Text.hexValue? b)
  let low := (← Text.hexValue? c) * 16 + (← Text.hexValue? d)
  return high * 256 + low

def isHighSurrogate (unit : Nat) : Bool := 0xD800 ≤ unit && unit < 0xDC00

def isLowSurrogate (unit : Nat) : Bool := 0xDC00 ≤ unit && unit < 0xE000

/-- The character behind a backslash, other than `u`. -/
def unescape? (c : Char) : Option Char :=
  if c = '"' ∨ c = '\\' ∨ c = '/' then some c
  else if c = 'b' then some (Char.ofNat 8)
  else if c = 'f' then some (Char.ofNat 12)
  else if c = 'n' then some '\n'
  else if c = 'r' then some '\r'
  else if c = 't' then some '\t'
  else none

/-- The rest of a string literal behind its opening quote: nothing found if a surrogate stands
alone. The characters so far come last first. -/
def scanString : List Char → (soFar : Option (List Char)) → Scan (Option String)
  | [], _ => ⟨none, [], false⟩
  | '"' :: rest, soFar => ⟨soFar.map fun found => String.ofList found.reverse, rest, true⟩
  | '\\' :: 'u' :: a :: b :: c :: d :: rest, soFar =>
    match codeUnit? a b c d with
    | none => ⟨none, [], false⟩
    | some unit =>
      if isHighSurrogate unit then
        match rest with
        | '\\' :: 'u' :: e :: f :: g :: h :: rest =>
          match codeUnit? e f g h with
          | none => ⟨none, [], false⟩
          | some low =>
            if isLowSurrogate low then
              let point := 0x10000 + (unit - 0xD800) * 0x400 + (low - 0xDC00)
              scanString rest (soFar.map (Char.ofNat point :: ·))
            else
              scanString rest none
        | rest => scanString rest none
      else if isLowSurrogate unit then scanString rest none
      else scanString rest (soFar.map (Char.ofNat unit :: ·))
  | '\\' :: c :: rest, soFar =>
    match unescape? c with
    | none => ⟨none, [], false⟩
    | some character => scanString rest (soFar.map (character :: ·))
  | c :: rest, soFar =>
    if c.toNat < 32 then ⟨none, [], false⟩ else scanString rest (soFar.map (c :: ·))

/-! ## Numbers -/

/-- The digits that fit into 64 bits, and the power of ten that the others leave. -/
structure Significand where
  value : Nat
  exponent : Int
  full : Bool

def digitValue (c : Char) : Nat := c.toNat - 48

/-- One digit before the point: from the first that does not fit on, each only counts. -/
def Significand.wholeDigit (s : Significand) (c : Char) : Significand :=
  let value := s.value * 10 + digitValue c
  if s.full ∨ UInt64.size ≤ value then { s with exponent := s.exponent + 1, full := true }
  else { s with value := value }

/-- One digit behind the point: from the first that does not fit on, all are dropped. -/
def Significand.fractionDigit (s : Significand) (c : Char) : Significand :=
  let value := s.value * 10 + digitValue c
  if s.full ∨ UInt64.size ≤ value then { s with full := true }
  else { s with value := value, exponent := s.exponent - 1 }

def Significand.ofWhole (digits : List Char) : Significand :=
  digits.foldl wholeDigit ⟨0, 0, false⟩

def Significand.withFraction (s : Significand) (digits : List Char) : Significand :=
  digits.foldl fractionDigit { s with full := false }

/-- The power of ten behind an `e`, and what follows; nothing without a digit. -/
def scanExponent? (text : List Char) : Option (Int × List Char) :=
  let (negative, text) :=
    match text with
    | '+' :: rest => (false, rest)
    | '-' :: rest => (true, rest)
    | rest => (false, rest)
  let digits := text.takeWhile Char.isDigit
  if digits.isEmpty then none
  else
    let magnitude : Int := digits.foldl (fun value c => value * 10 + digitValue c) 0
    some (if negative then -magnitude else magnitude, text.dropWhile Char.isDigit)

/-- The double with this sign and this decimal, a fault if it is too large. -/
def ofDecimal (negative : Bool) (s : Significand) (exponent : Int) : Written :=
  match Double.ofDecimal? s.value (s.exponent + exponent) with
  | some value => .number (.double (if negative then value.neg else value))
  | none => .fault

/-- An integer in range that is not `-0`, or a double. -/
def ofWholeNumber (negative : Bool) (digits : List Char) : Written :=
  let s := Significand.ofWhole digits
  if s.full then ofDecimal negative s 0
  else if negative then
    if s.value = 0 ∨ 9223372036854775808 < s.value then ofDecimal true s 0
    else match Number.ofInt? (-s.value) with
      | some value => .number value
      | none => .fault
  else match Number.ofInt? s.value with
    | some value => .number value
    | none => .fault

/-- What follows the digits before the point: a fraction, an exponent, or neither. -/
def scanFraction (negative : Bool) (digits text : List Char) : Scan Written :=
  match text with
  | '.' :: rest =>
    let fraction := rest.takeWhile Char.isDigit
    if fraction.isEmpty then ⟨.fault, [], false⟩
    else
      let s := (Significand.ofWhole digits).withFraction fraction
      match rest.dropWhile Char.isDigit with
      | c :: rest =>
        if c = 'e' ∨ c = 'E' then
          match scanExponent? rest with
          | some (exponent, rest) => ⟨ofDecimal negative s exponent, rest, true⟩
          | none => ⟨.fault, [], false⟩
        else ⟨ofDecimal negative s 0, c :: rest, true⟩
      | [] => ⟨ofDecimal negative s 0, [], true⟩
  | c :: rest =>
    if c = 'e' ∨ c = 'E' then
      match scanExponent? rest with
      | some (exponent, rest) =>
        ⟨ofDecimal negative (Significand.ofWhole digits) exponent, rest, true⟩
      | none => ⟨.fault, [], false⟩
    else ⟨ofWholeNumber negative digits, c :: rest, true⟩
  | [] => ⟨ofWholeNumber negative digits, [], true⟩

/-- A number without its sign: no digit follows a leading zero. -/
def scanDigits (negative : Bool) (text : List Char) : Scan Written :=
  let digits := text.takeWhile Char.isDigit
  match digits with
  | [] => ⟨.fault, [], false⟩
  | first :: others =>
    if first = '0' ∧ others ≠ [] then ⟨.fault, [], false⟩
    else scanFraction negative digits (text.dropWhile Char.isDigit)

def scanNumber : List Char → Scan Written
  | '-' :: rest => scanDigits true rest
  | text => scanDigits false text

/-! ## Values -/

mutual

/-- One value; the fuel bounds the calls. -/
def scanValue : (fuel : Nat) → List Char → Scan Written
  | 0, _ => ⟨.fault, [], false⟩
  | fuel + 1, text =>
    match skipBlank text with
    | 'n' :: 'u' :: 'l' :: 'l' :: rest => ⟨.null, rest, true⟩
    | 't' :: 'r' :: 'u' :: 'e' :: rest => ⟨.bool true, rest, true⟩
    | 'f' :: 'a' :: 'l' :: 's' :: 'e' :: rest => ⟨.bool false, rest, true⟩
    | '"' :: rest =>
      let scan := scanString rest (some [])
      ⟨(scan.found.map Written.string).getD .fault, scan.rest, scan.whole⟩
    | '[' :: rest =>
      match skipBlank rest with
      | ']' :: rest => ⟨.array [] true, rest, true⟩
      | rest =>
        let scan := scanItems fuel rest
        ⟨.array scan.found scan.whole, scan.rest, scan.whole⟩
    | '{' :: rest =>
      match skipBlank rest with
      | '}' :: rest => ⟨.object [] true, rest, true⟩
      | rest =>
        let scan := scanMembers fuel rest
        ⟨.object scan.found scan.whole, scan.rest, scan.whole⟩
    | text => scanNumber text

/-- The items of an array from here on, one at least. -/
def scanItems : (fuel : Nat) → List Char → Scan (List Written)
  | 0, _ => ⟨[], [], false⟩
  | fuel + 1, text =>
    let item := scanValue fuel text
    if item.whole then
      match skipBlank item.rest with
      | ',' :: rest =>
        let others := scanItems fuel rest
        ⟨item.found :: others.found, others.rest, others.whole⟩
      | ']' :: rest => ⟨[item.found], rest, true⟩
      | _ => ⟨[item.found], [], false⟩
    else ⟨[item.found], [], false⟩

/-- The members of an object from here on, one at least. -/
def scanMembers : (fuel : Nat) → List Char → Scan (List (String × Written))
  | 0, _ => ⟨[], [], false⟩
  | fuel + 1, text =>
    match skipBlank text with
    | '"' :: rest =>
      let name := scanString rest (some [])
      match name.found with
      | none => ⟨[], [], false⟩
      | some key =>
        match skipBlank name.rest with
        | ':' :: rest =>
          let item := scanValue fuel rest
          if item.whole then
            match skipBlank item.rest with
            | ',' :: rest =>
              let others := scanMembers fuel rest
              ⟨(key, item.found) :: others.found, others.rest, others.whole⟩
            | '}' :: rest => ⟨[(key, item.found)], rest, true⟩
            | _ => ⟨[(key, item.found)], [], false⟩
          else ⟨[(key, item.found)], [], false⟩
        | _ => ⟨[(key, .fault)], [], false⟩
    | _ => ⟨[], [], false⟩

end

/-- The document at the head of a text and what follows it. -/
def parse (text : String) : Written × List Char :=
  let characters := text.toList
  let scan := scanValue (2 * characters.length + 2) characters
  (scan.found, scan.rest)

/-- Only blanks follow. -/
def nothingFollows (rest : List Char) : Bool := rest.all isBlank

end NestedSql.Written

namespace NestedSql.Json

/-- The greatest number of nested arrays and objects in a text. -/
def nestingLimit : Nat := 127

/-- The value of a text that holds one value and nothing else. -/
def parse? (text : String) : Option Json :=
  let (document, rest) := Written.parse text
  if Written.nothingFollows rest then document.value? nestingLimit else none

end NestedSql.Json
