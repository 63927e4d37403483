/-!
# Media types

A content type is a type and a subtype with parameters behind semicolons. A subtype may end in a
suffix behind a plus. Requests have to come as JSON, by subtype or by suffix.
-/

namespace NestedSql.Server

/-- A character of names and unquoted values. -/
def isTokenChar (c : Char) : Bool := c.isAlphanum || "!#$%&'*+-.^_\x60|~".toList.contains c

/-- A character inside quotes that needs no backslash. -/
def isQuotedChar (c : Char) : Bool := c = '\t' || (32 ≤ c.toNat && c.toNat < 127)

/-- A value between quotes: what follows the closing one. -/
def skipQuoted : List Char → Option (List Char)
  | [] => none
  | '"' :: rest => some rest
  | '\\' :: c :: rest => if isQuotedChar c then skipQuoted rest else none
  | c :: rest => if isQuotedChar c then skipQuoted rest else none

/-- The end of a value: nothing, or a semicolon. -/
def skipSeparator : List Char → Option (List Char)
  | [] => some []
  | ';' :: rest => some rest
  | _ => none

/-- One parameter and what separates it from the next. -/
def skipParameter (text : List Char) : Option (List Char) :=
  let name := text.takeWhile isTokenChar
  match name, text.dropWhile isTokenChar with
  | _ :: _, '=' :: '"' :: rest => do
    skipSeparator ((← skipQuoted rest).dropWhile (· = ' '))
  | _ :: _, '=' :: rest => skipSeparator (rest.dropWhile isTokenChar)
  | _, _ => none

/-- The text is a list of parameters; the fuel bounds their number. -/
def areParameters : (fuel : Nat) → List Char → Bool
  | 0, _ => false
  | fuel + 1, text =>
    match text.dropWhile (· = ' ') with
    | [] => true
    | text =>
      match skipParameter text with
      | some rest => areParameters fuel rest
      | none => false

/-- A type and a subtype in lower case. -/
structure MediaType where
  type : String
  subtype : String
deriving DecidableEq, Repr

namespace MediaType

def lowerCase (text : List Char) : String := String.ofList (text.map Char.toLower)

def parse? (text : String) : Option MediaType :=
  let characters := text.toList
  let type := characters.takeWhile isTokenChar
  match type, characters.dropWhile isTokenChar with
  | _ :: _, '/' :: rest =>
    let subtype := rest.takeWhile isTokenChar
    let parsed : MediaType := ⟨lowerCase type, lowerCase subtype⟩
    match subtype, rest.dropWhile isTokenChar with
    | [], _ => none
    | _, [] => some parsed
    | _, ';' :: parameters =>
      if areParameters (parameters.length + 1) parameters then some parsed else none
    | _, _ => none
  | _, _ => none

/-- The subtype up to its last plus and the suffix behind it; a plus in front starts no suffix. -/
def splitSuffix (subtype : String) : List Char × Option (List Char) :=
  let reversed := subtype.toList.reverse
  match reversed.dropWhile (· ≠ '+') with
  | _ :: c :: base => ((c :: base).reverse, some (reversed.takeWhile (· ≠ '+')).reverse)
  | _ => (subtype.toList, none)

/-- The content is JSON. -/
def isJson (media : MediaType) : Bool :=
  let (base, suffix) := splitSuffix media.subtype
  media.type = "application" && (base = "json".toList || suffix = some "json".toList)

end MediaType

/-- The content type says that the content is JSON. -/
def isJsonContent (contentType : Option String) : Bool :=
  match contentType with
  | none => false
  | some text => ((MediaType.parse? text).map MediaType.isJson).getD false

end NestedSql.Server
