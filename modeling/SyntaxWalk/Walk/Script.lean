/-
Scripts: what a handler does when it is called. A script looks at the world, changes it, and asks
the walker that called it to go on; the walker's own bookkeeping is out of its reach. It is a tree
of such steps, so what holds of every step holds of every handler.
-/
import SyntaxWalk.Options
import SyntaxWalk.Walk.Handlers

namespace SyntaxWalk

/-- All that a walk works on: the nodes, and the state of whoever runs the walk. -/
structure World (σ : Type) where
  heap : Heap
  host : σ

/-- Tells whether a node is alive, given the handles that the host holds. -/
abbrev Liveness := List NodeId → NodeId → Bool

/-- Whether a walk starts at a node or at its children. -/
inductive Mode where
  | visit
  | children
deriving DecidableEq

/-- What a handler does, when `σ` is the state of the host and `α` the type of its handlers. -/
inductive Script (σ α : Type) where
  /-- Returns. -/
  | done (outcome : Outcome)
  /-- Looks at the world, and at which nodes are alive. -/
  | inspect (next : World σ → Liveness → Script σ α)
  /-- Changes the world. -/
  | change (f : World σ → World σ) (next : Script σ α)
  /-- Asks how many nodes the walker is expanding. -/
  | depth (next : Nat → Script σ α)
  /-- Asks for the options of the walk. -/
  | options (next : Options → Script σ α)
  /-- Has the walker go on at a node, if there is one. -/
  | go (mode : Mode) (node : Option NodeId) (next : Outcome → Script σ α)
  /-- Starts a walk of its own, with the same options. -/
  | walk (mode : Mode) (handlers : Handlers α) (node : NodeId) (next : Outcome → Script σ α)

/-- Whoever runs a walk: what its handlers do, and what becomes of notices. -/
structure Host (σ α : Type) where
  behave : α → NodeId → Script σ α
  notify : Notice → Heap → σ → σ

namespace Script

variable {σ α : Type}

/-- Runs a second script after the first, with the outcome of the first. -/
def andThen : Script σ α → (Outcome → Script σ α) → Script σ α
  | .done outcome, k => k outcome
  | .inspect next, k => .inspect (fun world alive => (next world alive).andThen k)
  | .change f next, k => .change f (next.andThen k)
  | .depth next, k => .depth (fun n => (next n).andThen k)
  | .options next, k => .options (fun o => (next o).andThen k)
  | .go mode node next, k => .go mode node (fun outcome => (next outcome).andThen k)
  | .walk mode handlers node next, k =>
    .walk mode handlers node (fun outcome => (next outcome).andThen k)

/-- Runs a second script after the first, unless the first fails. -/
def thenOk (first second : Script σ α) : Script σ α :=
  first.andThen fun
    | .ok () => second
    | .error e => .done (.error e)

end Script

end SyntaxWalk
