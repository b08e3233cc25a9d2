import SyntaxWalk.Command.Invocation
import SyntaxWalk.Command.Report
import SyntaxWalk.Command.Run
import SyntaxWalk.Command.Stats
import SyntaxWalk.Config
import SyntaxWalk.Directory
import SyntaxWalk.Event
import SyntaxWalk.Files
import SyntaxWalk.Json.Basic
import SyntaxWalk.Json.Literal
import SyntaxWalk.Json.Quoted
import SyntaxWalk.Json.Reader
import SyntaxWalk.Json.Token
import SyntaxWalk.Json.Writer
import SyntaxWalk.Jsonc.Reader
import SyntaxWalk.Jsonc.Token
import SyntaxWalk.Keys.Default
import SyntaxWalk.Keys.File
import SyntaxWalk.Keys.Table
import SyntaxWalk.Main
import SyntaxWalk.Number.Binary64
import SyntaxWalk.Number.Ratio
import SyntaxWalk.Number.Reading
import SyntaxWalk.Number.Scaling
import SyntaxWalk.Number.Shortest
import SyntaxWalk.Number.Text
import SyntaxWalk.Options
import SyntaxWalk.Proofs.ByteOrder
import SyntaxWalk.Proofs.Children
import SyntaxWalk.Proofs.Clients
import SyntaxWalk.Proofs.Copies
import SyntaxWalk.Proofs.Counting
import SyntaxWalk.Proofs.CycleCheck
import SyntaxWalk.Proofs.DistinctMembers
import SyntaxWalk.Proofs.Downward
import SyntaxWalk.Proofs.Ending
import SyntaxWalk.Proofs.Entering
import SyntaxWalk.Proofs.Entries
import SyntaxWalk.Proofs.Expansions
import SyntaxWalk.Proofs.Failing
import SyntaxWalk.Proofs.Foretelling
import SyntaxWalk.Proofs.Guarding
import SyntaxWalk.Proofs.Heaps
import SyntaxWalk.Proofs.Histories
import SyntaxWalk.Proofs.Inert
import SyntaxWalk.Proofs.Layers
import SyntaxWalk.Proofs.Lexing
import SyntaxWalk.Proofs.Lifetimes
import SyntaxWalk.Proofs.Living
import SyntaxWalk.Proofs.Lockstep
import SyntaxWalk.Proofs.Origins
import SyntaxWalk.Proofs.Ownership
import SyntaxWalk.Proofs.Parallel
import SyntaxWalk.Proofs.PassThrough
import SyntaxWalk.Proofs.Planting
import SyntaxWalk.Proofs.Printing
import SyntaxWalk.Proofs.Quoting
import SyntaxWalk.Proofs.Recording
import SyntaxWalk.Proofs.Reporting
import SyntaxWalk.Proofs.Resolution
import SyntaxWalk.Proofs.Restore
import SyntaxWalk.Proofs.RoundTrip
import SyntaxWalk.Proofs.Routes
import SyntaxWalk.Proofs.Spelling
import SyntaxWalk.Proofs.Stops
import SyntaxWalk.Proofs.Survey
import SyntaxWalk.Proofs.Termination
import SyntaxWalk.Proofs.Trace
import SyntaxWalk.Proofs.Unfolding
import SyntaxWalk.Proofs.Visits
import SyntaxWalk.Proofs.WriteBack
import SyntaxWalk.Record
import SyntaxWalk.Scenario.Action
import SyntaxWalk.Scenario.Answer
import SyntaxWalk.Scenario.Perform
import SyntaxWalk.Scenario.Session
import SyntaxWalk.Scenario.Stage
import SyntaxWalk.Scenario.Step
import SyntaxWalk.Scenario.View
import SyntaxWalk.Shape
import SyntaxWalk.StringMap
import SyntaxWalk.Text.Classes
import SyntaxWalk.Text.Display
import SyntaxWalk.Tree.Child
import SyntaxWalk.Tree.Describe
import SyntaxWalk.Tree.Heap
import SyntaxWalk.Tree.Json
import SyntaxWalk.Tree.Liveness
import SyntaxWalk.Tree.Value
import SyntaxWalk.Walk.Error
import SyntaxWalk.Walk.Handlers
import SyntaxWalk.Walk.Script
import SyntaxWalk.Walk.Visitor
import SyntaxWalk.Walk.Walker
