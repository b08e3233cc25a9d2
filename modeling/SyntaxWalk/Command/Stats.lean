/-
Counting nodes by type. Every counted type has a handler that counts its node and goes on with the
children, so a walk that counts meets the same nodes as one without handlers.
-/
import SyntaxWalk.Walk.Walker

namespace SyntaxWalk.Command

/-- Numbers of nodes by type. -/
abbrev Counts := StringMap Nat

/-- One more node of a type. -/
def Counts.bump (counts : Counts) (type : String) : Counts :=
  counts.insert type ((counts.get? type).getD 0 + 1)

/-- What a walk has counted, and told, so far. -/
structure Tally where
  counts : Counts := ∅
  /-- Events, newest first. -/
  events : List Event := []

namespace Tally

/-- Counts one more node of a type. -/
def count (tally : Tally) (type : String) : Tally :=
  { tally with counts := tally.counts.bump type }

/-- Keeps a notice. -/
def notify (notice : Notice) (_ : Heap) (tally : Tally) : Tally :=
  { tally with events := notice.event :: tally.events }

/-- Counts a node and goes on with its children. -/
def behave (_ : Unit) (id : NodeId) : Script Tally Unit :=
  .change
    (fun world => { world with host := world.host.count (world.heap.effectiveType id) })
    (.go .children (some id) .done)

/-- The host of a walk that counts. -/
def host : Host Tally Unit := ⟨behave, notify⟩

end Tally

/-- The types that are counted if none are asked for: those that a table lists, ascending. -/
def countedTypes (options : Options) : List String :=
  (defaultKeys.override options.overrides).keys

/-- A handler for each of the given types. -/
def countingHandlers (types : List String) : Handlers Unit :=
  .ofList (types.map (fun type => (type, ())))

/-- How deep the calls of a counting walk may nest: each node takes a call of its handler and one
for its children. -/
def countingLimit (heap : Heap) : Nat := 2 * heap.size + 2

/-- Counts the nodes of the given types that a walk from the root meets. -/
def countNodes (heap : Heap) (root : NodeId) (types : List String) (options : Options) :
    Option (Outcome × Tally) :=
  (walk (countingLimit heap) ⟨Tally.host, options, countingHandlers types⟩ .visit (some root)
    ⟨heap, {}⟩).map (fun (outcome, world) => (outcome, world.host))

end SyntaxWalk.Command
