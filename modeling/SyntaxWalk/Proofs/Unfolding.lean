/-
The JSON of a value as an unfolding. `Unfolds` says of a JSON value that it is what a value becomes
when its owning edges are followed and its back-references are dropped; there is at most one such
JSON value, and writing finds it. It exists just if no cycle of owning edges can be reached: along
an edge the JSON gets smaller, and without a cycle no path is longer than there are nodes.
-/
import Mathlib.Logic.Relation
import SyntaxWalk.Proofs.Heaps
import SyntaxWalk.Tree.Json

namespace SyntaxWalk

open Relation

namespace Json

mutual

/-- No object in a JSON value has two members with the same name. -/
def Distinct : Json → Prop
  | .array items => DistinctAll items
  | .object members => (members.map (·.1)).Nodup ∧ DistinctMembers members
  | _ => True

/-- No object in a list of JSON values has two members with the same name. -/
def DistinctAll : List Json → Prop
  | [] => True
  | item :: rest => Distinct item ∧ DistinctAll rest

/-- No object in the members of an object has two members with the same name. -/
def DistinctMembers : List (String × Json) → Prop
  | [] => True
  | (_, json) :: rest => Distinct json ∧ DistinctMembers rest

end

end Json

namespace Heap

/-! ## Unfoldings -/

/-- The fields of a node that are no back-references. -/
def lasting (heap : Heap) (id : NodeId) : List (String × Value) :=
  (heap.fields id).entries.filter (!·.2.isBackRef)

mutual

/-- The JSON value is the unfolding of a value: a scalar stands for itself, a node becomes an object
of its fields but the back-references, and a back-reference anywhere else becomes null. -/
def Unfolds (heap : Heap) : Value → Json → Prop
  | .null, .null => True
  | .bool a, .bool b => a = b
  | .number a, .number b => a = b
  | .string a, .string b => a = b
  | .array values, .array items => UnfoldsAll heap values items
  | .node id, .object members => UnfoldsFields heap (heap.lasting id) members
  | .backRef _, .null => True
  | _, _ => False

/-- The JSON values are the unfoldings of values, in the same order. -/
def UnfoldsAll (heap : Heap) : List Value → List Json → Prop
  | [], [] => True
  | value :: values, item :: items => Unfolds heap value item ∧ UnfoldsAll heap values items
  | _, _ => False

/-- The members are the unfoldings of fields, in the same order and with the same names. -/
def UnfoldsFields (heap : Heap) : List (String × Value) → List (String × Json) → Prop
  | [], [] => True
  | (name, value) :: fields, (other, json) :: members =>
    name = other ∧ Unfolds heap value json ∧ UnfoldsFields heap fields members
  | _, _ => False

end

variable {heap : Heap}

mutual

/-- A value has at most one unfolding. -/
theorem unfolds_unique : ∀ {json other : Json} {value : Value}, heap.Unfolds value json →
    heap.Unfolds value other → json = other
  | .null, other, value, h, h' => by
    cases value <;> cases other <;> simp_all [Unfolds]
  | .bool _, other, value, h, h' => by
    cases value <;> cases other <;> simp_all [Unfolds]
  | .number _, other, value, h, h' => by
    cases value <;> cases other <;> simp_all [Unfolds]
  | .string _, other, value, h, h' => by
    cases value <;> cases other <;> simp_all [Unfolds]
  | .array items, other, value, h, h' => by
    cases value <;> cases other <;> simp only [Unfolds] at h h'
    rw [unfoldsAll_unique h h']
  | .object members, other, value, h, h' => by
    cases value <;> cases other <;> simp only [Unfolds] at h h'
    rw [unfoldsFields_unique h h']

theorem unfoldsAll_unique : ∀ {items others : List Json} {values : List Value},
    heap.UnfoldsAll values items → heap.UnfoldsAll values others → items = others
  | [], others, values, h, h' => by
    cases values <;> cases others <;> simp_all [UnfoldsAll]
  | item :: items, others, values, h, h' => by
    cases values <;> cases others <;> simp only [UnfoldsAll] at h h'
    rw [unfolds_unique h.1 h'.1, unfoldsAll_unique h.2 h'.2]

theorem unfoldsFields_unique : ∀ {members others : List (String × Json)}
    {fields : List (String × Value)}, heap.UnfoldsFields fields members →
    heap.UnfoldsFields fields others → members = others
  | [], others, fields, h, h' => by
    cases fields <;> cases others <;> simp_all [UnfoldsFields]
  | (name, json) :: members, [], fields, h, h' => by
    cases fields <;> simp only [UnfoldsFields] at h h'
  | (name, json) :: members, (name', json') :: others, fields, h, h' => by
    cases fields <;> simp only [UnfoldsFields] at h h'
    obtain ⟨hname, hjson, hmembers⟩ := h
    obtain ⟨hname', hjson', hmembers'⟩ := h'
    rw [← hname, ← hname', unfolds_unique hjson hjson', unfoldsFields_unique hmembers hmembers']

end

/-! ## Writing finds the unfolding -/

section

variable {node : NodeId → Option Json}

mutual

/-- What is written for a value is what it unfolds to, if that holds of the nodes in it. -/
theorem valueJson?_unfolds (hnode : ∀ id json, node id = some json → heap.Unfolds (.node id) json) :
    ∀ {value : Value} {json : Json}, valueJson? node value = some json → heap.Unfolds value json
  | .null, _, h => by cases h; trivial
  | .bool _, _, h => by cases h; rfl
  | .number _, _, h => by cases h; rfl
  | .string _, _, h => by cases h; rfl
  | .array values, _, h => by
    obtain ⟨items, hitems, rfl⟩ := Option.map_eq_some_iff.1 h
    exact itemsJson?_unfolds hnode hitems
  | .node id, json, h => hnode id json h
  | .backRef _, _, h => by cases h; trivial

theorem itemsJson?_unfolds (hnode : ∀ id json, node id = some json → heap.Unfolds (.node id) json) :
    ∀ {values : List Value} {items : List Json}, itemsJson? node values = some items →
      heap.UnfoldsAll values items
  | [], _, h => by cases h; trivial
  | value :: values, _, h => by
    obtain ⟨item, hitem, h⟩ := Option.bind_eq_some_iff.1 h
    obtain ⟨items, hitems, h⟩ := Option.bind_eq_some_iff.1 h
    cases h
    exact ⟨valueJson?_unfolds hnode hitem, itemsJson?_unfolds hnode hitems⟩

end

theorem membersJson?_unfolds
    (hnode : ∀ id json, node id = some json → heap.Unfolds (.node id) json) :
    ∀ {fields : List (String × Value)} {members : List (String × Json)},
      membersJson? node fields = some members →
      heap.UnfoldsFields (fields.filter (!·.2.isBackRef)) members
  | [], _, h => by cases h; trivial
  | (name, value) :: fields, _, h => by
    unfold membersJson? at h
    by_cases hb : value.isBackRef = true
    · rw [if_pos hb] at h
      rw [List.filter_cons_of_neg (by simp [hb])]
      exact membersJson?_unfolds hnode h
    · rw [if_neg hb] at h
      rw [List.filter_cons_of_pos (by simp [hb])]
      obtain ⟨json, hjson, h⟩ := Option.bind_eq_some_iff.1 h
      obtain ⟨members, hmembers, h⟩ := Option.bind_eq_some_iff.1 h
      cases h
      exact ⟨rfl, valueJson?_unfolds hnode hjson, membersJson?_unfolds hnode hmembers⟩

/-- What is written for a node is what it unfolds to: by induction on how deep it may go. -/
theorem nodeJson?_unfolds : ∀ (limit : Nat) (id : NodeId) (json : Json),
    heap.nodeJson? limit id = some json → heap.Unfolds (.node id) json
  | 0, _, _, h => by cases h
  | limit + 1, id, _, h => by
    obtain ⟨members, hmembers, rfl⟩ := Option.map_eq_some_iff.1 h
    exact membersJson?_unfolds (nodeJson?_unfolds limit) hmembers

theorem toJson?_unfolds {value : Value} {json : Json} (h : heap.toJson? value = some json) :
    heap.Unfolds value json :=
  valueJson?_unfolds (nodeJson?_unfolds _) h

end

/-! ## Owning edges -/

/-- A field of the first node holds an edge that owns the second one, be it in lists in lists. -/
def Owns (heap : Heap) (a b : NodeId) : Prop := b ∈ (heap.fields a).owned

/-- No path of owning edges from a value leads to a node from which a path leads back to it. -/
def Acyclic (heap : Heap) (value : Value) : Prop :=
  ∀ a ∈ value.owned, ∀ b, ReflTransGen heap.Owns a b → ¬TransGen heap.Owns b b

/-- A node owns the nodes in its fields that are no back-references. -/
theorem owns_iff {a b : NodeId} :
    heap.Owns a b ↔ ∃ field ∈ heap.lasting a, b ∈ field.2.owned := by
  have howned : ∀ value : Value, b ∈ value.owned → value.isBackRef = false := by
    intro value h
    cases value <;> simp_all [Value.owned, Value.isBackRef]
  unfold Owns Fields.owned lasting
  simp only [List.mem_flatMap, List.mem_filter, Bool.not_eq_true']
  constructor
  · rintro ⟨field, hfield, hb⟩
    exact ⟨field, ⟨hfield, howned _ hb⟩, hb⟩
  · rintro ⟨field, ⟨hfield, -⟩, hb⟩
    exact ⟨field, hfield, hb⟩

/-- Only a node of the heap owns others. -/
theorem Owns.lt_size {a b : NodeId} (h : heap.Owns a b) : a < heap.size := by
  refine Nat.lt_of_not_le fun hle => ?_
  unfold Owns at h
  rw [fields_of_size_le hle] at h
  cases h

mutual

/-- Each node that a value owns has an unfolding, which is a part of that of the value. -/
theorem exists_unfolds_of_mem_owned : ∀ {json : Json} {value : Value} {id : NodeId},
    heap.Unfolds value json → id ∈ value.owned →
    ∃ part, heap.Unfolds (.node id) part ∧ sizeOf part ≤ sizeOf json
  | .null, value, _, h, hid => by cases value <;> simp_all [Unfolds, Value.owned]
  | .bool _, value, _, h, hid => by cases value <;> simp_all [Unfolds, Value.owned]
  | .number _, value, _, h, hid => by cases value <;> simp_all [Unfolds, Value.owned]
  | .string _, value, _, h, hid => by cases value <;> simp_all [Unfolds, Value.owned]
  | .array items, value, id, h, hid => by
    cases value <;> simp only [Unfolds] at h
    obtain ⟨part, hpart, hlt⟩ := exists_unfolds_of_mem_all h hid
    refine ⟨part, hpart, ?_⟩
    rw [Json.array.sizeOf_spec]
    omega
  | .object members, value, id, h, hid => by
    cases value with
    | node n =>
      rw [Value.owned, List.mem_singleton] at hid
      subst hid
      exact ⟨.object members, h, Nat.le_refl _⟩
    | _ => simp only [Unfolds] at h

/-- A node in a list unfolds to a part of what the list unfolds to. -/
theorem exists_unfolds_of_mem_all : ∀ {items : List Json} {values : List Value} {id : NodeId},
    heap.UnfoldsAll values items → id ∈ Value.ownedByAll values →
    ∃ part, heap.Unfolds (.node id) part ∧ sizeOf part < sizeOf items
  | [], values, _, h, hid => by cases values <;> simp_all [UnfoldsAll, Value.ownedByAll]
  | item :: items, values, id, h, hid => by
    cases values with
    | nil => cases hid
    | cons value values =>
      rw [List.cons.sizeOf_spec]
      rcases List.mem_append.1 hid with hid | hid
      · obtain ⟨part, hpart, hle⟩ := exists_unfolds_of_mem_owned h.1 hid
        exact ⟨part, hpart, by omega⟩
      · obtain ⟨part, hpart, hlt⟩ := exists_unfolds_of_mem_all h.2 hid
        exact ⟨part, hpart, by omega⟩

theorem exists_unfolds_of_mem_fields : ∀ {members : List (String × Json)}
    {fields : List (String × Value)} {id : NodeId}, heap.UnfoldsFields fields members →
    (∃ field ∈ fields, id ∈ field.2.owned) →
    ∃ part, heap.Unfolds (.node id) part ∧ sizeOf part < sizeOf members
  | [], fields, _, h, hid => by cases fields <;> simp_all [UnfoldsFields]
  | (name, json) :: members, fields, id, h, hid => by
    cases fields with
    | nil => simp at hid
    | cons field fields =>
      rw [List.cons.sizeOf_spec, Prod.mk.sizeOf_spec]
      obtain ⟨owner, howner, hid⟩ := hid
      rcases List.mem_cons.1 howner with rfl | howner
      · obtain ⟨part, hpart, hle⟩ := exists_unfolds_of_mem_owned h.2.1 hid
        exact ⟨part, hpart, by omega⟩
      · obtain ⟨part, hpart, hlt⟩ := exists_unfolds_of_mem_fields h.2.2 ⟨owner, howner, hid⟩
        exact ⟨part, hpart, by omega⟩

end

/-- What a node owns unfolds to a smaller value than the node. -/
theorem Owns.exists_unfolds {a b : NodeId} {json : Json} (h : heap.Owns a b)
    (hjson : heap.Unfolds (.node a) json) :
    ∃ part, heap.Unfolds (.node b) part ∧ sizeOf part < sizeOf json := by
  cases json with
  | object members =>
    obtain ⟨part, hpart, hlt⟩ := exists_unfolds_of_mem_fields hjson (owns_iff.1 h)
    refine ⟨part, hpart, ?_⟩
    rw [Json.object.sizeOf_spec]
    omega
  | _ => simp only [Unfolds] at hjson

/-- So does what is further below, which is why a cycle does not unfold. -/
theorem exists_unfolds_of_transGen {a b : NodeId} {json : Json} (h : TransGen heap.Owns a b)
    (hjson : heap.Unfolds (.node a) json) :
    ∃ part, heap.Unfolds (.node b) part ∧ sizeOf part < sizeOf json := by
  induction h with
  | single h => exact h.exists_unfolds hjson
  | tail _ h ih =>
    obtain ⟨whole, hwhole, hlt⟩ := ih
    obtain ⟨part, hpart, hlt'⟩ := h.exists_unfolds hwhole
    exact ⟨part, hpart, Nat.lt_trans hlt' hlt⟩

/-- A value that has an unfolding reaches no cycle: on the way around its part would get smaller. -/
theorem acyclic_of_unfolds {value : Value} {json : Json} (h : heap.Unfolds value json) :
    heap.Acyclic value := by
  intro a ha b hab hcycle
  obtain ⟨whole, hwhole, -⟩ := exists_unfolds_of_mem_owned h ha
  obtain ⟨part, hpart⟩ : ∃ part, heap.Unfolds (.node b) part := by
    rcases reflTransGen_iff_eq_or_transGen.1 hab with rfl | hab
    · exact ⟨whole, hwhole⟩
    · obtain ⟨part, hpart, -⟩ := exists_unfolds_of_transGen hab hwhole
      exact ⟨part, hpart⟩
  obtain ⟨again, hagain, hlt⟩ := exists_unfolds_of_transGen hcycle hpart
  rw [unfolds_unique hagain hpart] at hlt
  exact Nat.lt_irrefl _ hlt

/-! ## Without a cycle there is an unfolding -/

section

variable {node : NodeId → Option Json}

mutual

/-- A value can be written if the nodes can that it owns. -/
theorem exists_valueJson? : ∀ (value : Value), (∀ id ∈ value.owned, ∃ json, node id = some json) →
    ∃ json, valueJson? node value = some json
  | .null, _ => ⟨_, rfl⟩
  | .bool _, _ => ⟨_, rfl⟩
  | .number _, _ => ⟨_, rfl⟩
  | .string _, _ => ⟨_, rfl⟩
  | .array values, h => by
    obtain ⟨items, hitems⟩ := exists_itemsJson? values h
    exact ⟨.array items, by rw [valueJson?, hitems]; rfl⟩
  | .node id, h => h id List.mem_cons_self
  | .backRef _, _ => ⟨_, rfl⟩

theorem exists_itemsJson? : ∀ (values : List Value),
    (∀ id ∈ Value.ownedByAll values, ∃ json, node id = some json) →
    ∃ items, itemsJson? node values = some items
  | [], _ => ⟨_, rfl⟩
  | value :: values, h => by
    obtain ⟨item, hitem⟩ := exists_valueJson? value
      fun id hid => h id (List.mem_append_left _ hid)
    obtain ⟨items, hitems⟩ := exists_itemsJson? values
      fun id hid => h id (List.mem_append_right _ hid)
    exact ⟨item :: items, by rw [itemsJson?, hitem, hitems]; rfl⟩

end

theorem exists_membersJson? : ∀ (fields : List (String × Value)),
    (∀ field ∈ fields, ∀ id ∈ field.2.owned, ∃ json, node id = some json) →
    ∃ members, membersJson? node fields = some members
  | [], _ => ⟨_, rfl⟩
  | (name, value) :: fields, h => by
    obtain ⟨members, hmembers⟩ := exists_membersJson? fields
      fun field hfield => h field (List.mem_cons_of_mem _ hfield)
    obtain ⟨json, hjson⟩ := exists_valueJson? value (h (name, value) List.mem_cons_self)
    by_cases hb : value.isBackRef = true
    · exact ⟨members, by rw [membersJson?, if_pos hb, hmembers]⟩
    · exact ⟨(name, json) :: members, by rw [membersJson?, if_neg hb, hjson, hmembers]; rfl⟩

end

/-- A node that reaches no cycle is written. The outer nodes are those on the way to it; with each
of them the limit goes down by one, and there are no more of them than nodes in the heap. -/
theorem exists_nodeJson? : ∀ (limit : Nat) (outer : List NodeId) (id : NodeId), outer.Nodup →
    (∀ a ∈ outer, a < heap.size ∧ TransGen heap.Owns a id) → heap.Acyclic (.node id) →
    heap.size < outer.length + limit → ∃ json, heap.nodeJson? limit id = some json
  | 0, outer, _, hnd, houter, _, hl => by
    have hle := length_le_size hnd fun a ha => (houter a ha).1
    omega
  | limit + 1, outer, id, hnd, houter, hacyclic, hl => by
    have hid : ∀ b, ReflTransGen heap.Owns id b → ¬TransGen heap.Owns b b :=
      hacyclic id List.mem_cons_self
    have hnew : id ∉ outer := fun h => hid id .refl (houter id h).2
    have hnode : ∀ child, heap.Owns id child → ∃ json, heap.nodeJson? limit child = some json := by
      intro child hchild
      refine exists_nodeJson? limit (id :: outer) child (List.nodup_cons.2 ⟨hnew, hnd⟩) ?_ ?_ ?_
      · intro a ha
        rcases List.mem_cons.1 ha with rfl | ha
        · exact ⟨hchild.lt_size, .single hchild⟩
        · exact ⟨(houter a ha).1, .tail (houter a ha).2 hchild⟩
      · intro a ha b hab
        rw [Value.owned, List.mem_singleton] at ha
        subst ha
        exact hid b (.head hchild hab)
      · rw [List.length_cons]; omega
    obtain ⟨members, hmembers⟩ := exists_membersJson? (heap.fields id).entries
      fun field hfield child hchild => hnode child (List.mem_flatMap.2 ⟨field, hfield, hchild⟩)
    exact ⟨.object members, by rw [nodeJson?, hmembers]; rfl⟩

/-- A value that reaches no cycle is written. -/
theorem exists_toJson? {value : Value} (h : heap.Acyclic value) :
    ∃ json, heap.toJson? value = some json := by
  refine exists_valueJson? value fun id hid => exists_nodeJson? _ [] id .nil (by simp) ?_ (by simp)
  intro a ha b hab
  rw [Value.owned, List.mem_singleton] at ha
  exact h id hid b (ha ▸ hab)

/-- What is written is the unfolding. -/
theorem toJson?_eq_some_iff {value : Value} {json : Json} :
    heap.toJson? value = some json ↔ heap.Unfolds value json := by
  refine ⟨toJson?_unfolds, fun h => ?_⟩
  obtain ⟨other, hother⟩ := exists_toJson? (acyclic_of_unfolds h)
  rw [hother, unfolds_unique (toJson?_unfolds hother) h]

/-! ## The names in an unfolding -/

/-- Fields unfold to members with the same names. -/
theorem names_eq_of_unfoldsFields : ∀ {fields : List (String × Value)}
    {members : List (String × Json)}, heap.UnfoldsFields fields members →
    members.map (·.1) = fields.map (·.1)
  | [], [], _ => rfl
  | [], _ :: _, h => by cases h
  | _ :: _, [], h => by cases h
  | field :: fields, member :: members, h => by
    rw [List.map_cons, List.map_cons, names_eq_of_unfoldsFields h.2.2, h.1]

mutual

/-- No object in an unfolding has two members with the same name, because no node has two fields
with the same name. -/
theorem distinct_of_unfolds : ∀ {json : Json} {value : Value}, heap.Unfolds value json →
    json.Distinct
  | .null, _, _ => trivial
  | .bool _, _, _ => trivial
  | .number _, _, _ => trivial
  | .string _, _, _ => trivial
  | .array items, value, h => by
    cases value <;> simp only [Unfolds] at h
    exact distinctAll_of_unfolds h
  | .object members, value, h => by
    cases value with
    | node id =>
      refine ⟨?_, distinctMembers_of_unfolds h⟩
      rw [names_eq_of_unfoldsFields h]
      exact (heap.fields id).distinct.sublist (List.filter_sublist.map _)
    | _ => simp only [Unfolds] at h

theorem distinctAll_of_unfolds : ∀ {items : List Json} {values : List Value},
    heap.UnfoldsAll values items → Json.DistinctAll items
  | [], _, _ => trivial
  | item :: items, values, h => by
    cases values <;> simp only [UnfoldsAll] at h
    exact ⟨distinct_of_unfolds h.1, distinctAll_of_unfolds h.2⟩

theorem distinctMembers_of_unfolds : ∀ {members : List (String × Json)}
    {fields : List (String × Value)}, heap.UnfoldsFields fields members →
    Json.DistinctMembers members
  | [], _, _ => trivial
  | (_, json) :: members, fields, h => by
    cases fields <;> simp only [UnfoldsFields] at h
    exact ⟨distinct_of_unfolds h.2.1, distinctMembers_of_unfolds h.2.2⟩

end

end Heap

end SyntaxWalk
