/-
Reading JSON and writing it again. Reading only adds nodes, so what was read before keeps its
unfolding; what is read from a JSON value unfolds to that value, if no object in it has two members
with the same name. An unfolding has no such object, so from the first writing on nothing changes.
-/
import SyntaxWalk.Proofs.Unfolding

namespace SyntaxWalk.Heap

/-! ## Reading adds nodes -/

mutual

/-- A value that is built adds nodes and leaves those that there are. -/
theorem extends_ofJson : ∀ (json : Json) (heap : Heap), heap.Extends (heap.ofJson json).2
  | .null, heap => .refl heap
  | .bool _, heap => .refl heap
  | .number _, heap => .refl heap
  | .string _, heap => .refl heap
  | .array items, heap => extends_ofItems items heap
  | .object members, heap => (extends_ofMembers members heap).trans (extends_alloc _ _)

theorem extends_ofItems : ∀ (items : List Json) (heap : Heap),
    heap.Extends (heap.ofItems items).2
  | [], heap => .refl heap
  | item :: items, heap => (extends_ofJson item heap).trans (extends_ofItems items _)

theorem extends_ofMembers : ∀ (members : List (String × Json)) (heap : Heap),
    heap.Extends (heap.ofMembers members).2
  | [], heap => .refl heap
  | (_, json) :: members, heap => (extends_ofJson json heap).trans (extends_ofMembers members _)

end

/-! ## What is read unfolds to what it was read from -/

theorem isBackRef_ofJson (heap : Heap) (json : Json) :
    (heap.ofJson json).1.isBackRef = false := by
  cases json <;> rfl

theorem names_ofMembers : ∀ (members : List (String × Json)) (heap : Heap),
    (heap.ofMembers members).1.map (·.1) = members.map (·.1)
  | [], _ => rfl
  | (name, _) :: members, _ => congrArg (name :: ·) (names_ofMembers members _)

theorem not_backRef_of_mem_ofMembers : ∀ (members : List (String × Json)) (heap : Heap),
    ∀ field ∈ (heap.ofMembers members).1, field.2.isBackRef = false
  | [], _, _, h => by cases h
  | (name, json) :: members, heap, field, h => by
    rcases List.mem_cons.1 h with rfl | h
    · exact isBackRef_ofJson heap json
    · exact not_backRef_of_mem_ofMembers members _ field h

/-- The node that is read from an object has a field for each member, and later nodes do not change
that. -/
theorem lasting_ofJson_object {members : List (String × Json)} {heap later : Heap}
    (hdistinct : (members.map (·.1)).Nodup)
    (hlater : (heap.ofJson (.object members)).2.Extends later) :
    later.lasting (heap.ofMembers members).2.size = (heap.ofMembers members).1 := by
  have hsize : (heap.ofMembers members).2.size < (heap.ofJson (.object members)).2.size := by
    show _ < ((heap.ofMembers members).2.alloc _).2.size
    rw [size_alloc]
    exact Nat.lt_succ_self _
  have hfields : later.fields (heap.ofMembers members).2.size =
      Record.ofList (heap.ofMembers members).1 := by
    rw [hlater.fields_eq _ hsize]
    show ((heap.ofMembers members).2.alloc _).2.fields _ = _
    rw [fields_alloc, if_pos rfl]
  unfold lasting
  rw [hfields, Record.entries_ofList (by rwa [names_ofMembers])]
  refine List.filter_eq_self.2 fun field hfield => ?_
  rw [not_backRef_of_mem_ofMembers members heap field hfield]
  rfl

mutual

/-- What is read unfolds to what it was read from, also after more nodes were added. -/
theorem unfolds_ofJson : ∀ (json : Json) (heap later : Heap), json.Distinct →
    (heap.ofJson json).2.Extends later → later.Unfolds (heap.ofJson json).1 json
  | .null, _, _, _, _ => trivial
  | .bool _, _, _, _, _ => rfl
  | .number _, _, _, _, _ => rfl
  | .string _, _, _, _, _ => rfl
  | .array items, heap, later, hd, hlater => unfoldsAll_ofItems items heap later hd hlater
  | .object members, heap, later, hd, hlater => by
    show later.UnfoldsFields (later.lasting (heap.ofMembers members).2.size) members
    rw [lasting_ofJson_object hd.1 hlater]
    exact unfoldsFields_ofMembers members heap later hd.2 ((extends_alloc _ _).trans hlater)

/-- Items unfold to those from which they were built, also after more has been built. -/
theorem unfoldsAll_ofItems : ∀ (items : List Json) (heap later : Heap), Json.DistinctAll items →
    (heap.ofItems items).2.Extends later → later.UnfoldsAll (heap.ofItems items).1 items
  | [], _, _, _, _ => trivial
  | item :: items, heap, later, hd, hlater =>
    ⟨unfolds_ofJson item heap later hd.1 ((extends_ofItems items _).trans hlater),
      unfoldsAll_ofItems items _ later hd.2 hlater⟩

/-- Members unfold to those from which they were built, also after more has been built. -/
theorem unfoldsFields_ofMembers : ∀ (members : List (String × Json)) (heap later : Heap),
    Json.DistinctMembers members → (heap.ofMembers members).2.Extends later →
    later.UnfoldsFields (heap.ofMembers members).1 members
  | [], _, _, _, _ => trivial
  | (_, json) :: members, heap, later, hd, hlater =>
    ⟨rfl, unfolds_ofJson json heap later hd.1 ((extends_ofMembers members _).trans hlater),
      unfoldsFields_ofMembers members _ later hd.2 hlater⟩

end

/-- What is built from a value is written as that value. -/
theorem toJson?_ofJson {json : Json} (hd : json.Distinct) (heap : Heap) :
    (heap.ofJson json).2.toJson? (heap.ofJson json).1 = some json :=
  toJson?_eq_some_iff.2 (unfolds_ofJson json heap _ hd (.refl _))

/-- Writing gives back what was read, the order of members and items included. A value that reaches
no cycle of owning edges is written as its unfolding, without two members of one name in an object,
and when that is read and written again, it stays the same. -/
theorem json_round_trip :
    (∀ (heap : Heap) (json : Json), json.Distinct →
      (heap.ofJson json).2.toJson? (heap.ofJson json).1 = some json) ∧
    ∀ (heap : Heap) (value : Value), heap.Acyclic value → ∃ json, heap.toJson? value = some json ∧
      (∀ other, heap.Unfolds value other ↔ other = json) ∧ json.Distinct ∧
      ∀ base : Heap, (base.ofJson json).2.toJson? (base.ofJson json).1 = some json := by
  refine ⟨fun heap json hd => toJson?_ofJson hd heap, fun heap value hacyclic => ?_⟩
  obtain ⟨json, hjson⟩ := exists_toJson? hacyclic
  have hunfolds := toJson?_unfolds hjson
  have hd := distinct_of_unfolds hunfolds
  refine ⟨json, hjson, fun other => ⟨fun h => unfolds_unique h hunfolds, ?_⟩, hd, toJson?_ofJson hd⟩
  rintro rfl
  exact hunfolds

/-- A node with a child that it owns twice and that refers back to it, in its type and in a list. -/
def family : Heap := ⟨#[
  ⟨[("type", .string "Pair"), ("first", .node 1), ("both", .array [.node 1, .backRef (some 0)])],
    by simp⟩,
  ⟨[("type", .backRef (some 0)), ("size", .number (.int 2)), ("up", .array [.backRef (some 0)])],
    by simp⟩]⟩

/-- The JSON of the child. -/
def childJson : Json := .object [("size", .number (.int 2)), ("up", .array [.null])]

/-- The JSON of the family. -/
def familyJson : Json := .object
  [("type", .string "Pair"), ("first", childJson), ("both", .array [childJson, .null])]

theorem family_unfolds : family.Unfolds (.node 0) familyJson := by
  have hchild : family.Unfolds (.node 1) childJson := ⟨rfl, rfl, rfl, ⟨trivial, trivial⟩, trivial⟩
  exact ⟨rfl, rfl, rfl, hchild, rfl, ⟨hchild, trivial, trivial⟩, trivial⟩

theorem json_round_trip_family : family.Acyclic (.node 0) ∧ familyJson.Distinct ∧
    family.toJson? (.node 0) = some familyJson ∧
    (family.ofJson familyJson).2.toJson? (family.ofJson familyJson).1 = some familyJson := by
  have hacyclic := acyclic_of_unfolds family_unfolds
  obtain ⟨json, hjson, hunique, hd, -⟩ := json_round_trip.2 family (.node 0) hacyclic
  obtain rfl := (hunique familyJson).1 family_unfolds
  exact ⟨hacyclic, hd, hjson, json_round_trip.1 family familyJson hd⟩

end SyntaxWalk.Heap
