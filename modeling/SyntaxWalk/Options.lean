/-
Options of a walk: a table of overrides, and a fallback for types that neither it nor the bundled
table lists. Together they resolve the child fields of a node.
-/
import SyntaxWalk.Event
import SyntaxWalk.Keys.Default
import SyntaxWalk.Tree.Heap
import SyntaxWalk.Walk.Error

namespace SyntaxWalk

/-- What is done with a type that no table lists. -/
inductive Fallback where
  /-- It is an error. -/
  | error
  /-- Every field but `type` holds children. -/
  | iteration
  /-- A function names the fields; those that the node lacks hold no child. -/
  | custom (keysOf : Heap → NodeId → List String)

/-- The name of a fallback. -/
def Fallback.describe : Fallback → String
  | .error => "Error"
  | .iteration => "Iteration"
  | .custom _ => "Custom(..)"

/-- The options of a walk. -/
structure Options where
  fallback : Fallback := .error
  overrides : KeyTable := ∅

instance : Inhabited Options := ⟨{}⟩

/-- What a walk tells while it goes on. -/
inductive Notice where
  /-- A handler for the type is called. -/
  | dispatching (type : String)
  /-- The type is in no table, and all fields are taken. -/
  | enumerating (type : String)
  /-- The type is in no table, and the custom fallback is asked about the node. -/
  | consulting (type : String) (node : NodeId)

/-- The event that a notice is. -/
def Notice.event : Notice → Event
  | .dispatching type => ⟨.trace, s!"Dispatching {type} to handler"⟩
  | .enumerating type => ⟨.debug, s!"Enumerating own fields of unknown node type {type}"⟩
  | .consulting type _ => ⟨.debug, s!"Resolving unknown node type {type} with custom fallback"⟩

namespace Options

/-- Sets the child fields of one type. -/
def withKeys (options : Options) (type : String) (keys : List String) : Options :=
  { options with overrides := options.overrides.insert type keys }

/-- The child fields that a table lists for a type; an override replaces the bundled list. -/
def listed? (options : Options) (type : String) : Option (List String) :=
  match options.overrides.get? type with
  | some keys => some keys
  | none => defaultKeys.get? type

/-- The child fields of a node, handled under the given type. -/
def resolveKeys (options : Options) (heap : Heap) (id : NodeId) (type : String) :
    Except VisitError (List String) :=
  match options.listed? type with
  | some keys => .ok keys
  | none =>
    match options.fallback with
    | .error => .error (.unknownNodeType type)
    | .iteration => .ok ((heap.fields id).keys.filter (· ≠ "type"))
    | .custom keysOf => .ok (keysOf heap id)

/-- What is told when the child fields of a node are resolved. -/
def notice? (options : Options) (id : NodeId) (type : String) : Option Notice :=
  match options.listed? type with
  | some _ => none
  | none =>
    match options.fallback with
    | .error => none
    | .iteration => some (.enumerating type)
    | .custom _ => some (.consulting type id)

/-! ## How child fields are resolved -/

variable {options : Options} {type : String} {keys : List String} {heap : Heap} {id : NodeId}

theorem listed?_eq_or (options : Options) (type : String) :
    options.listed? type = (options.overrides.get? type).or (defaultKeys.get? type) := by
  unfold listed?
  cases options.overrides.get? type with
  | none => exact Option.none_or.symm
  | some keys => exact Option.some_or.symm

theorem listed?_eq_none_iff :
    options.listed? type = none ↔
      options.overrides.get? type = none ∧ defaultKeys.get? type = none := by
  rw [listed?_eq_or, Option.or_eq_none_iff]

theorem resolveKeys_of_listed (h : options.listed? type = some keys) (heap : Heap) (id : NodeId) :
    options.resolveKeys heap id type = .ok keys := by
  unfold resolveKeys
  rw [h]

theorem resolveKeys_of_iteration (h : options.listed? type = none)
    (hf : options.fallback = .iteration) (heap : Heap) (id : NodeId) :
    options.resolveKeys heap id type = .ok ((heap.fields id).keys.filter (· ≠ "type")) := by
  unfold resolveKeys
  rw [h, hf]

/-- Child fields cannot be resolved just if no table lists the type and such types are forbidden. -/
theorem resolveKeys_eq_error_iff {e : VisitError} :
    options.resolveKeys heap id type = .error e ↔
      options.listed? type = none ∧ options.fallback = .error ∧ e = .unknownNodeType type := by
  unfold resolveKeys
  cases options.listed? type with
  | some keys => simp
  | none => cases options.fallback <;> simp [eq_comm]

end Options

end SyntaxWalk
