/-
The commands. A command loads its options first: from the file that the command line names, or from
the configuration in the current directory, or the default ones.
-/
import SyntaxWalk.Command.Invocation
import SyntaxWalk.Command.Report
import SyntaxWalk.Json.Reader
import SyntaxWalk.Text.Display
import SyntaxWalk.Tree.Json

namespace SyntaxWalk.Command

/-- Why a command failed. -/
inductive Failure where
  | config (error : ConfigError)
  | unreadable (path : String)
  | malformed (path : String)
  | notObject (path : String)
  | visit (error : VisitError)
  /-- Calls nested deeper than a walk that counts can go. -/
  | tooDeep

/-- The wording of a failure. -/
def Failure.message : Failure → String
  | .config error => error.message
  | .unreadable path => s!"Failed to read {path}"
  | .malformed path => s!"Failed to parse {path}"
  | .notObject path => s!"{path} does not hold a JSON object"
  | .visit error => error.message
  | .tooDeep => "The walk went too deep"

/-- A line without the reason why a configuration cannot be read. -/
def withoutReason (line : String) : String :=
  if line.startsWith "Failed to read config: " then "Failed to read config"
  else if line.startsWith "Failed to parse config: " then "Failed to parse config"
  else line

/-- The line under which a failure is shown. -/
def Failure.headline (failure : Failure) : String := withoutReason (Text.shown failure.message)

/-- What a command does: what it tells while it works, and the lines that it prints or its
failure. -/
structure Work where
  events : List Event
  result : Except Failure (List String)

/-- Loads the configuration of the current directory, if there is one. -/
def findConfig (files : Files) : Except ConfigError Config × List Event :=
  match Config.discover? files "." with
  | some path =>
    let (config, events) := Config.load files path
    (config, ⟨.info, s!"Using config: {path}"⟩ :: events)
  | none => (.ok {}, [⟨.info, "No config file found, using defaults"⟩])

/-- Loads the options of a command. -/
def loadOptions (files : Files) (globals : Globals) : Except ConfigError Options × List Event :=
  let (config, events) :=
    match globals.config with
    | some path => Config.load files path
    | none => findConfig files
  (config.map (fun c => { c with fallback := globals.fallback.getD c.fallback }.options), events)

/-- Tells the child keys of a type, as lines. -/
def describeKeys (type : String) (options : Options) : Except VisitError (List String) :=
  let listed := options.overrides.contains type || defaultKeys.contains type
  match listed, options.fallback with
  | false, .iteration =>
    .ok [type ++ " is in no key table; every own field except `type` is a child"]
  | _, _ => do
    let (probe, heap) := Heap.alloc ∅ ⟨[("type", .string type)], by simp⟩
    let keys ← options.resolveKeys heap probe type
    return if keys.isEmpty then [s!"{type} has no child keys"] else keys

/-- The counts that are reported: those of the requested types, be they zero, or if none are
requested those of all listed types that occur. -/
def reported (types : List String) (counts : Counts) : Counts :=
  types.foldl (fun counts type => if counts.contains type then counts else counts.insert type 0)
    counts

/-- Counts the nodes of a document. -/
def statsOf (heap : Heap) (root : NodeId) (types : List String) (options : Options) :
    Except Failure Counts × List Event :=
  let counted := if types.isEmpty then countedTypes options else types
  let start : Event := ⟨.debug, s!"Counting {counted.length} node types"⟩
  match countNodes heap root counted options with
  | none => (.error .tooDeep, [start])
  | some (outcome, tally) =>
    let counts :=
      match outcome with
      | .ok () => .ok (reported types tally.counts)
      | .error e => .error (.visit e)
    (counts, start :: tally.events.reverse)

/-- The lines of a report. -/
def Report.print (report : Report) : Format → List String
  | .text => report.lines
  | .json => [report.toJson.indented]

/-- Counts the nodes of a file. -/
def stats (files : Files) (path : String) (types : List String) (format : Format)
    (options : Options) : Work :=
  match files.read? path with
  | none => ⟨[], .error (.unreadable path)⟩
  | some text =>
    match Json.read? text with
    | none => ⟨[], .error (.malformed path)⟩
    | some json =>
      match Heap.nodeOfJson? ∅ json with
      | (none, _) => ⟨[], .error (.notObject path)⟩
      | (some root, heap) =>
        let (counts, events) := statsOf heap root types options
        ⟨events, counts.map (fun counts => Report.print ⟨path, counts⟩ format)⟩

/-- Does a task with its options. -/
def perform (files : Files) (task : Task) (options : Options) : Work :=
  match task with
  | .stats path types format => stats files path types format options
  | .keys type => ⟨[], (describeKeys type options).mapError .visit⟩

/-- Follows a command line. -/
def Invocation.run (invocation : Invocation) (files : Files) : Work :=
  let (options, events) := loadOptions files invocation.globals
  match options with
  | .error e => ⟨events, .error (.config e)⟩
  | .ok options =>
    let work := perform files invocation.task options
    { work with events := events ++ work.events }

/-- Whether an event is shown. -/
def isShown (verbose : Bool) (event : Event) : Bool :=
  match event.level with
  | .info => true
  | .debug => verbose
  | .trace => false

/-- An event as it is shown. -/
def showEvent (event : Event) : Event := { event with message := Text.shown event.message }

/-- How a command ends. -/
inductive Ending where
  | success
  /-- The command line makes no sense. -/
  | usage
  | failure (failure : Failure)

/-- What is seen of a command: the text that it prints, the events that are shown, and its
ending. -/
structure Transcript where
  output : String
  events : List Event
  ending : Ending

/-- The exit code: two if anything went wrong. -/
def Transcript.code (t : Transcript) : Nat :=
  match t.ending with
  | .success => 0
  | _ => 2

/-- The line that tells the version. -/
def version : String := "0.1.0"

/-- Lines as text. -/
def unlines (lines : List String) : String := lines.foldl (fun text line => text ++ line ++ "\n") ""

/-- Runs a command line. -/
def run (arguments : List String) (files : Files) : Transcript :=
  match Invocation.parse arguments with
  | .error .usage => ⟨"", [], .usage⟩
  | .error .version => ⟨s!"esvisit {version}\n", [], .success⟩
  | .ok invocation =>
    let work := invocation.run files
    let events := (work.events.filter (isShown invocation.globals.verbose)).map showEvent
    match work.result with
    | .ok lines => ⟨unlines lines, events, .success⟩
    | .error failure => ⟨"", events, .failure failure⟩

end SyntaxWalk.Command
