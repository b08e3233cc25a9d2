/-
What a walk does not look at. If a node has the same type in two heaps, and its child fields hold
the same nodes to visit, then it makes no difference what else is in these fields, between the nodes
or instead of one, and what is in all other fields, edges back to enclosing nodes included. It is
enough that this holds of the nodes to which the walk comes.
-/
import SyntaxWalk.Proofs.Ending
import SyntaxWalk.Proofs.Parallel

namespace SyntaxWalk

/-- The type of a node is in a table, and it and the children of the node are the same in two heaps:
each of its child fields holds the same nodes to visit, in the same order. -/
structure SameListing (options : Options) (heap heap' : Heap) (n : NodeId) : Prop where
  type : heap'.effectiveType n = heap.effectiveType n
  listed : ∃ keys, options.listed? (heap.effectiveType n) = some keys ∧ ∀ key ∈ keys,
    heap'.visitables n (heap.effectiveType n) key = heap.visitables n (heap.effectiveType n) key

theorem SameListing.branches {options : Options} {heap heap' : Heap} {n : NodeId}
    (h : SameListing options heap heap' n) :
    ∃ branches, options.branches heap n = .ok branches ∧
      options.branches heap' n = .ok branches := by
  obtain ⟨keys, hkeys, hsame⟩ := h.listed
  have hresolve : ∀ heap : Heap, options.resolveKeys heap n (heap.effectiveType n) = .ok keys →
      options.branches heap n = .ok (heap.childrenIn n (heap.effectiveType n) keys) := by
    intro heap hk
    unfold Options.branches
    rw [hk]
    rfl
  refine ⟨_, hresolve heap ?_, ?_⟩
  · unfold Options.resolveKeys
    rw [hkeys]
  · rw [hresolve heap' (by unfold Options.resolveKeys; rw [h.type, hkeys]), h.type]
    unfold Heap.childrenIn
    congr 1
    refine List.flatMap_congr fun key hkey => ?_
    rw [hsame key hkey]

variable {σ α : Type} (crew : Crew String σ α)

theorem SameListing.corresponds (hview : crew.view = Heap.effectiveType) {heap heap' : Heap}
    {outer : List NodeId} {n : NodeId} (h : SameListing crew.options heap heap' n) :
    crew.Corresponds heap heap' (· = ·) (fun outer n outer' n' => outer = outer' ∧ n = n')
      outer n outer n := by
  obtain ⟨branches, hb, hb'⟩ := h.branches
  refine ⟨rfl, rfl, h.type.symm, by rw [hview, h.type], by rw [h.type], ?_⟩
  rw [hb, hb']
  exact List.forall₂_same.2 fun branch _ => ⟨rfl, Iff.rfl, fun _ => ⟨rfl, rfl⟩⟩

/-- Let handlers see only the type of their node, the depth, and how its expansion ends. If the
nodes to which a walk comes have types in a table, and are the same in another heap as to their
types and the nodes to visit in their child fields, then the walk in the other heap calls the same
handlers for the same nodes at the same depths, and both walks end alike. -/
theorem unlisted_fields_inert (hview : crew.view = Heap.effectiveType) (heap heap' : Heap)
    (mode : Mode) (root : NodeId) (host : σ)
    (h : ∀ n, Trace.Reaches crew.setting mode root ⟨heap, host⟩ n →
      SameListing crew.options heap heap' n) :
    ∀ limit ≥ 2 * (heap.size + 1), ∃ outcome host',
      walk limit crew.setting mode (some root) ⟨heap, host⟩ = some (outcome, ⟨heap, host'⟩) ∧
        walk limit crew.setting mode (some root) ⟨heap', host⟩ = some (outcome, ⟨heap', host'⟩) ∧
        Trace.calls Walker.keeping
            (Trace.walk Walker.keeping limit crew.setting mode (some root) ⟨heap, host⟩).moments =
          Trace.calls Walker.keeping
            (Trace.walk Walker.keeping limit crew.setting mode (some root) ⟨heap', host⟩).moments := by
  intro limit hl
  have hplace : ∀ outer n outer' n', outer = outer' ∧ n = n' →
      Trace.Reaches crew.setting mode root ⟨heap, host⟩ n →
      crew.Corresponds heap heap' (· = ·) (fun outer n outer' n' => outer = outer' ∧ n = n')
        outer n outer' n' := by
    rintro outer n _ _ ⟨rfl, rfl⟩ hn
    exact (h n hn).corresponds crew hview
  obtain ⟨hresult, hsights⟩ := crew.survey_alike hplace limit mode [] root [] root ⟨rfl, rfl⟩ host
    fun _ => Trace.reaches_of_mem_sights
  obtain ⟨outcome, host', hend⟩ := crew.survey_ends heap hl mode root host
  obtain ⟨hs, hw⟩ := Trace.walk_shows crew heap limit mode root host
  obtain ⟨hs', hw'⟩ := Trace.walk_shows crew heap' limit mode root host
  refine ⟨outcome, host', by rw [hw, hend]; rfl, by rw [hw', ← hresult, hend]; rfl, ?_⟩
  rw [Trace.calls_eq_sights, Trace.calls_eq_sights, hs, hs', Sight.calls_eq_of_alike hsights]

/-- A program with an object and a name. The object has a property without a type. -/
def bareProgram : Heap := ⟨#[
  ⟨[("type", .string "Program"), ("body", .array [.node 1, .node 2])], by simp⟩,
  ⟨[("type", .string "ObjectExpression"), ("properties", .array [.node 3])], by simp⟩,
  ⟨[("type", .string "Identifier")], by simp⟩,
  ⟨[("key", .node 2)], by simp⟩,
  ∅]⟩

/-- The same program, with more in its child fields and in other fields: empty places, a text, a
reference back, a list, nodes without a type, and owning edges up to the root. -/
def dressedProgram : Heap := ⟨#[
  ⟨[("type", .string "Program"), ("self", .node 0), ("body", .array [.null, .node 1, .node 3,
    .backRef (some 0), .array [.node 2], .string "x", .node 2, .node 4])], by simp⟩,
  ⟨[("properties", .array [.null, .node 3]), ("type", .string "ObjectExpression"),
    ("parent", .node 0)], by simp⟩,
  ⟨[("type", .string "Identifier"), ("name", .string "x"), ("decorators", .node 1)], by simp⟩,
  ⟨[("type", .null), ("key", .node 2), ("value", .node 4), ("parent", .node 1)], by simp⟩,
  ⟨[("range", .array [.number (.int 0), .number (.int 9)])], by simp⟩]⟩

/-- Handlers for names and for the whole program that note the type of their node and the depth. The
one for the program goes on at its children, and then notes its type once more. -/
def typeNoters : Crew String (List (String × Nat)) Bool where
  options.fallback := .error
  options.overrides := .ofList [("Program", ["body"]), ("ObjectExpression", ["properties"]),
    ("Property", ["key", "value"]), ("Identifier", [])]
  handlers := .ofList [("Program", true), ("Identifier", false)]
  view := Heap.effectiveType
  duty goOn := .look fun type depth _ => .note (· ++ [(type, depth)]) <|
    if goOn then .expand fun outcome => .note (· ++ [(type, depth)]) (.done outcome)
    else .done (.ok ())
  tell _ host := host

theorem sameListing_programs :
    ∀ n, SameListing typeNoters.options bareProgram dressedProgram n
  | 0 => ⟨by decide, ["body"], by decide, by decide⟩
  | 1 => ⟨by decide, ["properties"], by decide, by decide⟩
  | 2 => ⟨by decide, [], by decide, by decide⟩
  | 3 => ⟨by decide, ["key", "value"], by decide, by decide⟩
  | 4 => ⟨by decide, ["key", "value"], by decide, by decide⟩
  | n + 5 => by
    have hbare : bareProgram.fields (n + 5) = ∅ := Heap.fields_of_size_le (Nat.le_add_left 5 n)
    have hdressed : dressedProgram.fields (n + 5) = ∅ := Heap.fields_of_size_le (Nat.le_add_left 5 n)
    refine ⟨?_, ["key", "value"], ?_, fun key _ => ?_⟩
    · unfold Heap.effectiveType
      rw [hbare, hdressed]
    · unfold Heap.effectiveType
      rw [hbare]
      decide
    · unfold Heap.visitables Heap.get?
      rw [hbare, hdressed]
      rfl

theorem unlisted_fields_inert_programs :
    (∀ n, SameListing typeNoters.options bareProgram dressedProgram n) ∧
    ∃ outcome host',
      walk 12 typeNoters.setting .visit (some 0) ⟨bareProgram, []⟩ =
          some (outcome, ⟨bareProgram, host'⟩) ∧
        walk 12 typeNoters.setting .visit (some 0) ⟨dressedProgram, []⟩ =
          some (outcome, ⟨dressedProgram, host'⟩) ∧
        Trace.calls Walker.keeping (Trace.walk Walker.keeping 12 typeNoters.setting .visit (some 0)
            ⟨bareProgram, []⟩).moments =
          Trace.calls Walker.keeping (Trace.walk Walker.keeping 12 typeNoters.setting .visit (some 0)
            ⟨dressedProgram, []⟩).moments :=
  ⟨sameListing_programs, unlisted_fields_inert typeNoters rfl bareProgram dressedProgram .visit 0 []
    (fun n _ => sameListing_programs n) 12 (by decide)⟩

end SyntaxWalk
