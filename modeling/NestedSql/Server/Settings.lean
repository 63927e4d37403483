import NestedSql.Wire.Reader
import NestedSql.Wire.Writer
import NestedSql.Yaml.Node

/-!
# Settings

Where the server listens, which database it opens and how it logs. Settings have defaults, a file
changes some of them, and the environment overrides both. A missing file changes nothing.
-/

namespace NestedSql.Server

structure Address where
  host : String
  port : UInt16
deriving DecidableEq, Repr

/-- The database; its catalog is introspected unless a schema is given. -/
structure Database where
  path : String
  maxConnections : UInt64
  schemaPath : Option String
deriving DecidableEq, Repr

structure Logging where
  level : String
  format : String
  output : String
  directory : String
deriving DecidableEq, Repr

structure Settings where
  address : Address
  database : Database
  logging : Logging
deriving DecidableEq, Repr

def Address.default : Address := ⟨"127.0.0.1", 8100⟩

def Database.default : Database := ⟨":memory:", 5, none⟩

def Logging.default : Logging := ⟨"info", "pretty", "stdout", "./logs"⟩

def Settings.default : Settings := ⟨.default, .default, .default⟩

/-! ## Files -/

/-- What is found under the path of a file. -/
inductive FileContent where
  | text (content : String)
  | missing
  | directory
deriving DecidableEq, Repr

/-- Why a file could not be read. -/
inductive FileError where
  | notFound
  | isDirectory
deriving DecidableEq, Repr

/-- Why there are no settings or no schema. -/
inductive SettingsError where
  | file (error : FileError)
  | yaml
  | schema (fault : Wire.Fault)
  | invalidVariable (name value : String)
deriving DecidableEq

/-- The text of a file. -/
def FileContent.read : FileContent → Except SettingsError String
  | text content => return content
  | missing => throw (.file .notFound)
  | directory => throw (.file .isDirectory)

/-! ## Numbers -/

/-- The number that digits of a base stand for, if it is below a bound. -/
def digits? (base bound : Nat) (digits : List Char) : Option Nat := do
  if digits.isEmpty then none
  let values ← digits.mapM fun c => (Text.hexValue? c).filter (· < base)
  let number := values.foldl (fun number value => number * base + value) 0
  if number < bound then return number else none

/-- The characters behind a plus, if there is one. -/
def dropPlus : List Char → List Char
  | '+' :: rest => rest
  | text => text

/-- A zero in front of further digits makes a text of them. -/
def hasLeadingZero : List Char → Bool
  | '0' :: c :: rest => (c :: rest).all Char.isDigit
  | _ => false

/-- A count in a file: decimal, or behind a mark for another base. -/
def count? (bound : Nat) (text : String) : Option Nat :=
  let characters := dropPlus text.toList
  match characters with
  | '0' :: 'x' :: rest => digits? 16 bound rest
  | '0' :: 'o' :: rest => digits? 8 bound rest
  | '0' :: 'b' :: rest => digits? 2 bound rest
  | characters => if hasLeadingZero characters then none else digits? 10 bound characters

/-- A count in the environment: decimal digits. -/
def plainCount? (bound : Nat) (text : String) : Option Nat :=
  digits? 10 bound (dropPlus text.toList)

/-! ## Settings in files -/

/-- A section: a map, or nothing at all. -/
def section? : Yaml.Node → Option (List (Yaml.Node × Yaml.Node))
  | .map entries => some entries
  | .scalar "" true => some []
  | _ => none

def text? : Yaml.Node → Option String
  | .scalar text _ => some text
  | _ => none

/-- A text that may be left out. -/
def optionalText? : Yaml.Node → Option (Option String)
  | .scalar text plain =>
    if plain ∧ text ∈ ["", "~", "null", "Null", "NULL"] then some none else some (some text)
  | _ => none

def countOf? (bound : Nat) : Yaml.Node → Option Nat
  | .scalar text true => count? bound text
  | _ => none

/-- The members of a section with those names that it knows, each once at most. -/
def members? (known : List String) (entries : List (Yaml.Node × Yaml.Node)) :
    Option (List (String × Yaml.Node)) := do
  let named ← entries.mapM fun entry => do return (← text? entry.1, entry.2)
  let members := named.filter fun member => known.contains member.1
  if (members.map Prod.fst).Nodup then return members else none

/-- A section of named members, each of which changes a value. -/
def readSection {α : Type} (readers : List (String × (Yaml.Node → α → Option α))) (default : α)
    (node : Yaml.Node) : Option α := do
  let members ← members? (readers.map Prod.fst) (← section? node)
  members.foldlM (fun value member =>
    match readers.lookup member.1 with
    | some read => read member.2 value
    | none => some value) default

def Address.read : Yaml.Node → Option Address :=
  readSection
    [("host", fun node address => do return { address with host := ← text? node }),
      ("port", fun node address => do
        return { address with port := .ofNat (← countOf? UInt16.size node) })]
    .default

def Database.read : Yaml.Node → Option Database :=
  readSection
    [("path", fun node database => do return { database with path := ← text? node }),
      ("max_connections", fun node database => do
        return { database with maxConnections := .ofNat (← countOf? UInt64.size node) }),
      ("schema_path", fun node database => do
        return { database with schemaPath := ← optionalText? node })]
    .default

def Logging.read : Yaml.Node → Option Logging :=
  readSection
    [("level", fun node logging => do return { logging with level := ← text? node }),
      ("format", fun node logging => do return { logging with format := ← text? node }),
      ("output", fun node logging => do return { logging with output := ← text? node }),
      ("directory", fun node logging => do return { logging with directory := ← text? node })]
    .default

def Settings.read : Yaml.Node → Option Settings :=
  readSection
    [("server", fun node settings => do return { settings with address := ← Address.read node }),
      ("database", fun node settings => do
        return { settings with database := ← Database.read node }),
      ("logging", fun node settings => do return { settings with logging := ← Logging.read node })]
    .default

/-- The settings of a file. -/
def Settings.ofFile (content : FileContent) : Except SettingsError Settings :=
  match content with
  | .missing => return .default
  | .directory => throw (.file .isDirectory)
  | .text content =>
    match Yaml.Node.parse? content >>= Settings.read with
    | some settings => return settings
    | none => throw .yaml

/-! ## Settings in the environment -/

/-- The variables that are set. -/
abbrev Environment := Entries String

/-- The variables with the settings that they override, in the order in which they are looked at. -/
def overrides : List (String × (String → Settings → Option Settings)) :=
  [("NDC_DUCK_HOST", fun value settings =>
      some { settings with address.host := value }),
    ("NDC_DUCK_PORT", fun value settings => do
      return { settings with address.port := .ofNat (← plainCount? UInt16.size value) }),
    ("DUCKDB_URL", fun value settings => some { settings with database.path := value }),
    ("DUCKDB_MAX_CONNECTIONS", fun value settings => do
      return { settings with
        database.maxConnections := .ofNat (← plainCount? UInt64.size value) }),
    ("NDC_DUCK_SCHEMA_PATH", fun value settings =>
      some { settings with database.schemaPath := some value }),
    ("RUST_LOG", fun value settings => some { settings with logging.level := value }),
    ("LOG_FORMAT", fun value settings => some { settings with logging.format := value }),
    ("LOG_OUTPUT", fun value settings => some { settings with logging.output := value }),
    ("LOG_DIR", fun value settings => some { settings with logging.directory := value })]

/-- One variable. -/
def applyOverride (environment : Environment) (settings : Settings)
    (entry : String × (String → Settings → Option Settings)) : Except SettingsError Settings :=
  match Entries.get? entry.1 environment with
  | none => return settings
  | some value =>
    match entry.2 value settings with
    | some settings => return settings
    | none => throw (.invalidVariable entry.1 value)

/-- The settings of a file under an environment. -/
def Settings.load (content : FileContent) (environment : Environment) :
    Except SettingsError Settings := do
  overrides.foldlM (applyOverride environment) (← Settings.ofFile content)

/-! ## Documents -/

/-- The address to listen at. -/
def Address.text (address : Address) : String := s!"{address.host}:{address.port.toNat}"

def Settings.json (settings : Settings) : Json :=
  .object
    [("server", .object [("host", .string settings.address.host),
        ("port", .count settings.address.port.toUInt32)]),
      ("database", .object [("path", .string settings.database.path),
        ("max_connections", .number (.ofUInt64 settings.database.maxConnections)),
        ("schema_path", (settings.database.schemaPath.map .string).getD .null)]),
      ("logging", .object [("level", .string settings.logging.level),
        ("format", .string settings.logging.format), ("output", .string settings.logging.output),
        ("directory", .string settings.logging.directory)])]

def SettingsError.message : SettingsError → String
  | file .notFound => "Failed to read config file: not found"
  | file .isDirectory => "Failed to read config file: is a directory"
  | yaml => "Failed to parse YAML"
  | schema .malformed => "Failed to parse schema file: malformed document"
  | schema (.mismatch cause) => "Failed to parse schema file: " ++ cause.message
  | invalidVariable name value => s!"Invalid value for {name}: '{value}'"

/-- The schema in a file. -/
def loadSchema (content : FileContent) : Except SettingsError Schema := do
  match Wire.fromText (.named .schema) (← content.read) with
  | .ok schema => return schema
  | .error fault => throw (.schema fault)

end NestedSql.Server
