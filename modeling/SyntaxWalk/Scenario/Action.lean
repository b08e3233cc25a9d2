/-
The language of scenarios: expressions for values, specifications of options, and the actions that
make up the program of a handler.
-/
import SyntaxWalk.Options
import SyntaxWalk.Walk.Script

namespace SyntaxWalk.Scenario

/-! ## Values -/

/-- An expression for a value. -/
inductive Expr where
  | value (v : Value)
  | array (items : List Expr)
  /-- An owning edge to the node of a register; null without such a node. -/
  | node (register : Option String)
  /-- A back-reference to the node of a register. -/
  | backRef (register : String)
  /-- A new node. -/
  | object (fields : List (String × Expr))

/-- The nodes that are held by name. -/
abbrev Registers := StringMap NodeId

mutual

/-- Evaluates an expression; new nodes are added to the heap. -/
def Expr.eval (registers : Registers) (heap : Heap) : Expr → Value × Heap
  | .value v => (v, heap)
  | .array items =>
    let (values, heap) := evalItems registers heap items
    (.array values, heap)
  | .node register =>
    match register.bind registers.get? with
    | some id => (.node id, heap)
    | none => (.null, heap)
  | .backRef register => (.backRef (registers.get? register), heap)
  | .object fields =>
    let (fields, heap) := evalFields registers heap fields
    let (id, heap) := heap.alloc (Record.ofList fields)
    (.node id, heap)

/-- Evaluates the items of a list. -/
def evalItems (registers : Registers) (heap : Heap) : List Expr → List Value × Heap
  | [] => ([], heap)
  | item :: rest =>
    let (value, heap) := item.eval registers heap
    let (values, heap) := evalItems registers heap rest
    (value :: values, heap)

/-- Evaluates the fields of a new node. -/
def evalFields (registers : Registers) (heap : Heap) :
    List (String × Expr) → List (String × Value) × Heap
  | [] => ([], heap)
  | (name, expr) :: rest =>
    let (value, heap) := expr.eval registers heap
    let (fields, heap) := evalFields registers heap rest
    ((name, value) :: fields, heap)

end

/-! ## Options -/

/-- A specification of a fallback. -/
inductive FallbackSpec where
  | error
  | iteration
  /-- The given fields. -/
  | list (keys : List String)
  /-- All fields but the given ones. -/
  | except (keys : List String)
  /-- The strings in the list that a field holds. -/
  | field (key : String)
  /-- All fields, last first. -/
  | reverse

/-- The fallback that a specification describes. -/
def FallbackSpec.fallback : FallbackSpec → Fallback
  | .error => .error
  | .iteration => .iteration
  | .list keys => .custom (fun _ _ => keys)
  | .except keys => .custom (fun heap id => (heap.fields id).keys.filter (!keys.contains ·))
  | .field key => .custom fun heap id =>
    match heap.get? id key with
    | some (.array items) => items.filterMap Value.string?
    | _ => []
  | .reverse => .custom (fun heap id => (heap.fields id).keys.reverse)

/-- A specification of options: a table, lists for single types on top of it, and a fallback. -/
structure OptionsSpec where
  table : List (String × List String) := []
  keys : List (String × List String) := []
  fallback : FallbackSpec := .error

/-- The options that a specification describes. -/
def OptionsSpec.options (spec : OptionsSpec) : Options :=
  spec.keys.foldl (fun o e => o.withKeys e.1 e.2) ⟨spec.fallback.fallback, .ofList spec.table⟩

/-! ## Actions -/

/-- A node that an action works on. -/
inductive Target where
  /-- The node that the handler was called for. -/
  | self
  | register (name : String)

/-- What a handler does, step by step. -/
inductive Action where
  /-- Notes the type and name of the node, and the depth. -/
  | log (tag : String)
  /-- Notes the value of a field. -/
  | look (key : String)
  /-- Goes on at a node. -/
  | go (mode : Mode) (target : Target)
  /-- Goes on at the node that a field owns. -/
  | goField (mode : Mode) (key : String)
  /-- Runs actions, and notes an error instead of failing. -/
  | attempt (actions : List Action)
  | fail (message : String)
  /-- Fails if the node has the given name. -/
  | failNamed (name message : String)
  /-- Runs actions in the first `calls` calls of the handler. -/
  | first (calls : Nat) (actions : List Action)
  /-- Runs actions after the first `calls` calls of the handler. -/
  | after (calls : Nat) (actions : List Action)
  | insert (target : Target) (key : String) (value : Expr)
  /-- Adds a value to the list in a field. -/
  | append (target : Target) (key : String) (value : Expr)
  /-- Removes a field and notes its value. -/
  | remove (target : Target) (key : String)
  /-- Puts the node into a register. -/
  | bind (register : String)
  /-- Empties a register. -/
  | drop (register : String)
  /-- Notes the child fields of the node. -/
  | resolve
  /-- Notes the options of the walk. -/
  | options
  /-- Walks from the node with handlers of its own. -/
  | walk (mode : Mode) (handlers : List (String × List Action))

/-- What a handler does. -/
abbrev Program := List Action

/-- A handler set, written down. -/
abbrev HandlersSpec := List (String × Program)

end SyntaxWalk.Scenario
