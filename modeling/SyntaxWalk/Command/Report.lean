/-
Reports on counts: as text, with the most frequent types first, or as JSON.
-/
import SyntaxWalk.Command.Stats
import SyntaxWalk.Json.Writer

namespace SyntaxWalk.Command

/-- The counts of a file. -/
structure Report where
  path : String
  counts : Counts

namespace Report

/-- The number of counted nodes. -/
def total (r : Report) : Nat := r.counts.entries.foldl (fun sum row => sum + row.2) 0

/-- The number of types with a counted node. -/
def occurring (r : Report) : Nat := (r.counts.entries.filter (0 < ·.2)).length

/-- Whether a row may stand before another: greater counts first, and among equal counts the types
in ascending order. -/
def precedes (a b : String × Nat) : Bool := b.2 < a.2 || (a.2 = b.2 && a.1 ≤ b.1)

/-- The rows in the order in which they are printed. -/
def rows (r : Report) : List (String × Nat) := r.counts.entries.mergeSort precedes

/-- The line of a row. -/
def rowText (row : String × Nat) : String :=
  "  " ++ Text.padRight ' ' 30 row.1 ++ " " ++ Text.padLeft ' ' 8 (toString row.2)

/-- The lines of the text report. -/
def lines (r : Report) : List String :=
  (r.path ++ ":") :: r.rows.map rowText ++
    ["", s!"Counted {r.total} nodes of {r.occurring} types"]

/-- The counts as JSON, types ascending. -/
def countsJson (counts : Counts) : Json :=
  .object (counts.entries.map (fun (type, count) => (type, .number (.int count))))

/-- The report as JSON. -/
def toJson (r : Report) : Json :=
  .object
    [("path", .string r.path), ("total", .number (.int r.total)), ("counts", countsJson r.counts)]

end Report

end SyntaxWalk.Command
