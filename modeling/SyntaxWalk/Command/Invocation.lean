/-
Command lines. Arguments are taken one by one. The options that concern every command may stand
before or after its name, and what stands after wins; the options of a command stand after its
name. An option that takes one value, or none, may stand only once in each of the two places.
-/
import SyntaxWalk.Config

namespace SyntaxWalk.Command

/-- How counts are printed. -/
inductive Format where
  | text
  | json
deriving DecidableEq

/-- Options that concern every command. -/
structure Globals where
  config : Option String := none
  fallback : Option FallbackKind := none
  verbose : Bool := false
deriving DecidableEq

/-- What is to be done. -/
inductive Task where
  /-- Count the nodes of a file, of all listed types or of the given ones. -/
  | stats (file : String) (types : List String) (format : Format)
  /-- Tell the child keys of a type. -/
  | keys (type : String)
deriving DecidableEq

/-- A command line that makes sense. -/
structure Invocation where
  globals : Globals
  task : Task
deriving DecidableEq

/-- Why a command line is not followed to its end. -/
inductive Stop where
  /-- It makes no sense. -/
  | usage
  /-- It asks for the version. -/
  | version
deriving DecidableEq

/-- Where an option stands: before the name of a command, or after it. -/
inductive Place where
  | top
  | stats
  | keys
deriving DecidableEq

/-- The options there are. -/
inductive Flag where
  | config
  | fallback
  | verbose
  | version
  | type
  | format
deriving DecidableEq

namespace Flag

/-- The option with a long name. -/
def ofLong? : String → Option Flag
  | "config" => some .config
  | "fallback" => some .fallback
  | "verbose" => some .verbose
  | "version" => some .version
  | "type" => some .type
  | "format" => some .format
  | _ => none

/-- The option with a short name. -/
def ofShort? : Char → Option Flag
  | 'c' => some .config
  | 'v' => some .verbose
  | 'V' => some .version
  | 't' => some .type
  | 'f' => some .format
  | _ => none

/-- Whether an option may stand at a place. -/
def isKnown (flag : Flag) (place : Place) : Bool :=
  match flag with
  | .version => place = .top
  | .type | .format => place = .stats
  | _ => true

/-- Whether an option takes a value. -/
def takesValue : Flag → Bool
  | .verbose | .version => false
  | _ => true

end Flag

/-- A command line that was read up to some argument. -/
structure Draft where
  place : Place := .top
  /-- The options before the name of the command. -/
  before : Globals := {}
  /-- The options after the name of the command. -/
  after : Globals := {}
  types : List String := []
  format : Option Format := none
  operand : Option String := none
  /-- The option that waits for its value. -/
  waiting : Option Flag := none
  /-- Whether options have ended. -/
  ended : Bool := false

namespace Draft

/-- The options for every command where the next argument stands. -/
def globals (d : Draft) : Globals := if d.place = .top then d.before else d.after

/-- Changes the options for every command where the next argument stands. -/
def setGlobals (d : Draft) (globals : Globals) : Draft :=
  if d.place = .top then { d with before := globals } else { d with after := globals }

/-- Takes an option with its value, which is empty for an option without one. -/
def give (d : Draft) (flag : Flag) (value : String) : Except Stop Draft :=
  match flag with
  | .config =>
    if value.isEmpty || d.globals.config.isSome then .error .usage
    else .ok (d.setGlobals { d.globals with config := some value })
  | .fallback =>
    match FallbackKind.ofName? value, d.globals.fallback with
    | some kind, none => .ok (d.setGlobals { d.globals with fallback := some kind })
    | _, _ => .error .usage
  | .verbose =>
    if d.globals.verbose then .error .usage
    else .ok (d.setGlobals { d.globals with verbose := true })
  | .version => .error .version
  | .type => .ok { d with types := d.types ++ [value] }
  | .format =>
    match value, d.format with
    | "text", none => .ok { d with format := some .text }
    | "json", none => .ok { d with format := some .json }
    | _, _ => .error .usage

/-- Takes the letters of an argument with one hyphen. A letter that takes a value takes the other
letters, without an equals sign in front; if there are none, the value is the next argument. -/
def cluster (d : Draft) : List Char → Except Stop Draft
  | [] => .ok d
  | c :: rest =>
    match (Flag.ofShort? c).filter (·.isKnown d.place) with
    | none => .error .usage
    | some flag =>
      if flag.takesValue then
        match rest with
        | [] => .ok { d with waiting := some flag }
        | '=' :: value => d.give flag (String.ofList value)
        | value => d.give flag (String.ofList value)
      else do (← d.give flag "").cluster rest

/-- Takes an argument with two hyphens: a name, and perhaps a value after an equals sign. -/
def long (d : Draft) (text : List Char) : Except Stop Draft :=
  let name := text.takeWhile (· ≠ '=')
  match (Flag.ofLong? (String.ofList name)).filter (·.isKnown d.place) with
  | none => .error .usage
  | some flag =>
    match flag.takesValue, text.drop name.length with
    | true, [] => .ok { d with waiting := some flag }
    | true, _ :: value => d.give flag (String.ofList value)
    | false, [] => d.give flag ""
    | false, _ => .error .usage

/-- Takes an argument that is no option: the name of a command, or what the command works on. -/
def plain (d : Draft) (text : String) : Except Stop Draft :=
  match d.place with
  | .top =>
    if text = "stats" then .ok { d with place := .stats }
    else if text = "keys" then .ok { d with place := .keys }
    else .error .usage
  | place =>
    if d.operand.isSome || (place = .stats && text.isEmpty) then .error .usage
    else .ok { d with operand := some text }

/-- Takes one more argument. -/
def step (d : Draft) (argument : String) : Except Stop Draft :=
  match d.waiting, argument.toList with
  | some flag, ['-'] => { d with waiting := none }.give flag argument
  | some _, '-' :: _ => .error .usage
  | some flag, _ => { d with waiting := none }.give flag argument
  | none, text =>
    if d.ended then d.plain argument
    else
      match text with
      | ['-'] => d.plain argument
      | ['-', '-'] => if d.place = .top then .error .usage else .ok { d with ended := true }
      | '-' :: '-' :: text => d.long text
      | '-' :: text => d.cluster text
      | _ => d.plain argument

/-- What a whole command line asks for. -/
def finish (d : Draft) : Except Stop Invocation :=
  let globals : Globals :=
    ⟨d.after.config <|> d.before.config, d.after.fallback <|> d.before.fallback,
      d.after.verbose || d.before.verbose⟩
  match d.waiting, d.place, d.operand with
  | none, .stats, some file => .ok ⟨globals, .stats file d.types (d.format.getD .text)⟩
  | none, .keys, some type => .ok ⟨globals, .keys type⟩
  | _, _, _ => .error .usage

end Draft

/-- Reads a command line. -/
def Invocation.parse (arguments : List String) : Except Stop Invocation := do
  (← arguments.foldlM Draft.step {}).finish

end SyntaxWalk.Command
