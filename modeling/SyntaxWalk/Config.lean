/-
Configuration: the part of the options that can be written down. A configuration is an object with
a fallback and a table of overrides, both optional, in JSON with comments; or a list of the two. It
lies in a file with one of two names.
-/
import SyntaxWalk.Files
import SyntaxWalk.Jsonc.Reader
import SyntaxWalk.Keys.File
import SyntaxWalk.Options

namespace SyntaxWalk

/-- A fallback that can be written down. -/
inductive FallbackKind where
  | error
  | iteration
deriving DecidableEq

namespace FallbackKind

/-- The name of a kind. -/
def name : FallbackKind → String
  | .error => "error"
  | .iteration => "iteration"

/-- All the names. -/
def names : List String := [name .error, name .iteration]

/-- The kind with a name. -/
def ofName? (text : String) : Option FallbackKind :=
  if text = name .error then some .error
  else if text = name .iteration then some .iteration
  else none

/-- The fallback of a kind. -/
def fallback : FallbackKind → Fallback
  | .error => .error
  | .iteration => .iteration

/-- Reads the name of a kind. -/
def ofText (text : String) : Shaped FallbackKind :=
  (ofName? text).elim (.error (.unknownVariant text names)) .ok

/-- Reads a kind: a name, or an object that maps a name to null. -/
def ofJson : Json → Shaped FallbackKind
  | .string text => ofText text
  | .object [(text, json)] => do
    let kind ← ofText text
    match json with
    | .null => return kind
    | json => .error (.invalidType json "unit")
  | .object _ => .error .notSingle
  | json => .error (.invalidType json "string or map")

end FallbackKind

/-- A configuration. -/
structure Config where
  fallback : FallbackKind := .error
  childVisitorKeys : KeyTable := ∅
deriving DecidableEq

/-- Why a configuration could not be loaded. -/
inductive ConfigError where
  /-- The file could not be read. -/
  | unreadable (reason : String)
  /-- The text is no JSON, even with comments. -/
  | malformed (reason : String)
  /-- The value is no configuration. -/
  | invalid (reason : String)
deriving DecidableEq

/-- The wording of an error. -/
def ConfigError.message : ConfigError → String
  | .unreadable reason => s!"Failed to read config: {reason}"
  | .malformed reason => s!"Failed to parse config: {reason}"
  | .invalid reason => s!"Invalid config: {reason}"

namespace Config

/-- A configuration as JSON. -/
def toJson (config : Config) : Json :=
  .object
    [("fallback", .string config.fallback.name),
      ("childVisitorKeys", KeyTableFile.tableJson config.childVisitorKeys)]

/-- The options that a configuration stands for. -/
def options (config : Config) : Options := ⟨config.fallback.fallback, config.childVisitorKeys⟩

/-- Reads one more member. -/
def readMember (config : Config) (member : String × Json) : Shaped Config :=
  match member with
  | ("fallback", json) => return { config with fallback := ← FallbackKind.ofJson json }
  | ("childVisitorKeys", json) => return { config with childVisitorKeys := ← Shape.table json }
  | (name, _) => .error (.unknownField name ["fallback", "childVisitorKeys"])

/-- Reads a list of the members. -/
def ofItems : List Json → Shaped Config
  | [] => .ok {}
  | fallback :: rest => do
    let fallback ← FallbackKind.ofJson fallback
    match rest with
    | [] => return { fallback }
    | keys :: rest =>
      let childVisitorKeys ← Shape.table keys
      if rest.isEmpty then .ok { fallback, childVisitorKeys }
      else .error (Shape.tooLong (rest.length + 2))

/-- Reads a configuration from JSON. -/
def ofJson : Json → Shaped Config
  | .object members => members.foldlM readMember {}
  | .array items => ofItems items
  | json => .error (.invalidType json "struct VisitConfig")

/-- Reads a configuration from a text. A text without any value is the default configuration. -/
def ofText (text : String) : Except ConfigError Config :=
  match Jsonc.read? text with
  | none => .error (.malformed "the text is not JSON with comments")
  | some none => .ok {}
  | some (some json) => (ofJson json).mapError (fun e => .invalid e.message)

/-- The names under which a configuration lies in a directory, the preferred one first. -/
def fileNames : List String := [".esvisit.jsonc", ".esvisit.json"]

/-- The path of the configuration in a directory. -/
def discover? (files : Files) (directory : String) : Option String :=
  (fileNames.map (joinPath directory)).find? files.isFile

/-- Loads a configuration from a file, and tells when the file was read. -/
def load (files : Files) (path : String) : Except ConfigError Config × List Event :=
  match files.read? path with
  | none => (.error (.unreadable path), [])
  | some text => (ofText text, [⟨.debug, s!"Loaded config from {path}"⟩])

end Config

end SyntaxWalk
