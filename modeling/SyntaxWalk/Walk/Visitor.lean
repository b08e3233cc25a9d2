/-
Visitors: handlers together with the options under which they walk.
-/
import SyntaxWalk.Walk.Walker

namespace SyntaxWalk

/-- Handlers and options that are used for any number of walks. -/
structure Visitor (α : Type) where
  handlers : Handlers α
  options : Options

namespace Visitor

variable {σ α : Type}

/-- A visitor with the handlers of a seed, if there is one. -/
def new (seed : Option (Handlers α)) (options : Options) : Visitor α := ⟨seed.getD ∅, options⟩

/-- Sets the handler of a type. -/
def on (v : Visitor α) (type : String) (handler : α) : Visitor α :=
  { v with handlers := v.handlers.insert type handler }

/-- Adds handlers; they win over those that are there. -/
def extend (v : Visitor α) (derived : Handlers α) : Visitor α :=
  { v with handlers := v.handlers.extend derived }

/-- What stays the same during the walks of a visitor. -/
def setting (v : Visitor α) (host : Host σ α) : Walk.Setting σ α := ⟨host, v.options, v.handlers⟩

/-- Walks from a node, if there is one. -/
def walk (v : Visitor α) (limit : Nat) (host : Host σ α) (mode : Mode) (node : Option NodeId)
    (world : World σ) : Option (Outcome × World σ) :=
  SyntaxWalk.walk limit (v.setting host) mode node world

end Visitor

end SyntaxWalk
