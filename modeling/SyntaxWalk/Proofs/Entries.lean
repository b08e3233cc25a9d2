/-
The listed entries of a node: the places in its child fields that hold a node to visit. `Lists` says
of a place that it is one, from what the field holds; `entries` computes all of them, in the order
in which they are visited.
-/
import SyntaxWalk.Options
import SyntaxWalk.Proofs.Heaps
import SyntaxWalk.Tree.Child

namespace SyntaxWalk

/-- A child of a node, in the `item`-th place of the `field`-th of its child fields. -/
structure Entry where
  field : Nat
  item : Nat
  key : String
  node : NodeId
deriving DecidableEq

/-- The order of the entries of a node: by field, and by place within the field. -/
def Entry.Before (a b : Entry) : Prop := a.field < b.field ∨ a.field = b.field ∧ a.item < b.item

/-- Whether the field `type` of a node holds a string. -/
def Heap.HasType (heap : Heap) (id : NodeId) : Prop :=
  ∃ text, heap.get? id "type" = some (.string text)

/-- An entry of a node: its key is one of the child fields, and the field holds the child. A field
holds a child alone, or in a list; the child has a type, unless it is in the list of properties of
an object literal or pattern. -/
def Options.Lists (options : Options) (heap : Heap) (id : NodeId) (e : Entry) : Prop :=
  ∃ keys, options.resolveKeys heap id (heap.effectiveType id) = .ok keys ∧
    keys[e.field]? = some e.key ∧
    (heap.get? id e.key = some (.node e.node) ∧ e.item = 0 ∧ heap.HasType e.node ∨
      ∃ items, heap.get? id e.key = some (.array items) ∧ items[e.item]? = some (.node e.node) ∧
        (heap.HasType e.node ∨
          (heap.effectiveType id = "ObjectExpression" ∨ heap.effectiveType id = "ObjectPattern") ∧
            e.key = "properties"))

/-! ## All entries -/

/-- The entries in places of a field, the first of which is the `first`-th one. -/
def slotEntries (field : Nat) (key : String) (properties : Bool) (first : Nat)
    (slots : List Slot) : List Entry :=
  (slots.zipIdx first).filterMap fun (slot, item) =>
    (slot.visitable? properties).map (⟨field, item, key, ·⟩)

/-- The entries in a field. -/
def fieldEntries (heap : Heap) (id : NodeId) (type : String) (field : Nat) (key : String) :
    List Entry :=
  match heap.child id key with
  | .absent => []
  | .one slot => slotEntries field key false 0 [slot]
  | .many slots => slotEntries field key (isPropertyList type key) 0 slots

/-- The entries in fields, the first of which is the `first`-th one. -/
def keyEntries (heap : Heap) (id : NodeId) (type : String) (first : Nat) (keys : List String) :
    List Entry :=
  (keys.zipIdx first).flatMap fun (key, field) => fieldEntries heap id type field key

/-- The entries of a node, none if its child fields do not resolve. -/
def Options.entries (options : Options) (heap : Heap) (id : NodeId) : List Entry :=
  match options.resolveKeys heap id (heap.effectiveType id) with
  | .ok keys => keyEntries heap id (heap.effectiveType id) 0 keys
  | .error _ => []

theorem slotEntries_cons_none {slot : Slot} {properties : Bool}
    (h : slot.visitable? properties = none) (field : Nat) (key : String) (first : Nat)
    (rest : List Slot) :
    slotEntries field key properties first (slot :: rest) =
      slotEntries field key properties (first + 1) rest :=
  List.filterMap_cons_none (by simp [h])

theorem slotEntries_cons_some {slot : Slot} {properties : Bool} {child : NodeId}
    (h : slot.visitable? properties = some child) (field : Nat) (key : String) (first : Nat)
    (rest : List Slot) :
    slotEntries field key properties first (slot :: rest) =
      ⟨field, first, key, child⟩ :: slotEntries field key properties (first + 1) rest :=
  List.filterMap_cons_some (by simp [h])

theorem keyEntries_cons (heap : Heap) (id : NodeId) (type : String) (first : Nat) (key : String)
    (rest : List String) :
    keyEntries heap id type first (key :: rest) =
      fieldEntries heap id type first key ++ keyEntries heap id type (first + 1) rest := rfl

/-! ## The entries are the listed ones -/

/-- An entry is told by its number: the place with that number holds its node. -/
theorem mem_slotEntries {field first : Nat} {key : String} {properties : Bool} {slots : List Slot}
    {e : Entry} :
    e ∈ slotEntries field key properties first slots ↔
      e.field = field ∧ e.key = key ∧ first ≤ e.item ∧
        ∃ slot, slots[e.item - first]? = some slot ∧ slot.visitable? properties = some e.node := by
  unfold slotEntries
  simp only [List.mem_filterMap, Prod.exists, Option.map_eq_some_iff,
    List.mk_mem_zipIdx_iff_le_and_getElem?_sub]
  constructor
  · rintro ⟨slot, item, ⟨hle, hslot⟩, child, hv, rfl⟩
    exact ⟨rfl, rfl, hle, slot, hslot, hv⟩
  · rintro ⟨rfl, rfl, hle, slot, hslot, hv⟩
    exact ⟨slot, e.item, ⟨hle, hslot⟩, e.node, hv, rfl⟩

theorem isTyped_iff {heap : Heap} {id : NodeId} :
    (heap.fields id).isTyped = true ↔ heap.HasType id := by
  unfold Fields.isTyped Fields.text? Heap.HasType Heap.get?
  cases (heap.fields id).get? "type" with
  | none => simp
  | some value => cases value <;> simp [Value.string?]

/-- A value is visited if it is a node with a type, or any node in a list of properties. -/
theorem visitable?_of {heap : Heap} {properties : Bool} {value : Value} {child : NodeId} :
    (Slot.of heap value).visitable? properties = some child ↔
      value = .node child ∧ (heap.HasType child ∨ properties = true) := by
  cases value with
  | node id =>
    simp only [Slot.of, Value.node.injEq]
    by_cases ht : (heap.fields id).isTyped = true
    · rw [if_pos ht]
      simp only [Slot.visitable?, Option.some.injEq]
      constructor
      · rintro rfl; exact ⟨rfl, .inl (isTyped_iff.1 ht)⟩
      · rintro ⟨rfl, -⟩; rfl
    · rw [if_neg ht]
      have hn : ¬heap.HasType id := fun h => ht (isTyped_iff.2 h)
      cases properties with
      | false =>
        simp only [Slot.visitable?, Bool.false_eq_true, if_false, reduceCtorEq, or_false, false_iff]
        rintro ⟨rfl, h⟩; exact hn h
      | true => simp [Slot.visitable?]
  | null => simp [Slot.of, Slot.visitable?]
  | bool b => simp [Slot.of, Slot.visitable?]
  | number x => simp [Slot.of, Slot.visitable?]
  | string text => simp [Slot.of, Slot.visitable?]
  | array items => simp [Slot.of, Slot.visitable?]
  | backRef target => simp [Slot.of, Slot.visitable?]

theorem isPropertyList_iff {type key : String} :
    isPropertyList type key = true ↔
      (type = "ObjectExpression" ∨ type = "ObjectPattern") ∧ key = "properties" := by
  simp only [isPropertyList, Bool.and_eq_true, Bool.or_eq_true, decide_eq_true_eq]
  rfl

/-- A field that holds one value has at most one entry, in its first place. -/
theorem mem_slotEntries_lone {heap : Heap} {field : Nat} {key : String} {value : Value}
    {e : Entry} :
    e ∈ slotEntries field key false 0 [Slot.of heap value] ↔
      e.field = field ∧ e.key = key ∧ value = .node e.node ∧ e.item = 0 ∧
        heap.HasType e.node := by
  rw [mem_slotEntries]
  constructor
  · rintro ⟨hf, hk, -, slot, hslot, hv⟩
    have hitem : e.item < 1 := by
      have := (List.getElem?_eq_some_iff.1 hslot).1
      simpa using this
    have hzero : e.item = 0 := by omega
    rw [hzero] at hslot
    cases hslot
    obtain ⟨hval, ht⟩ := visitable?_of.1 hv
    exact ⟨hf, hk, hval, hzero, by simpa using ht⟩
  · rintro ⟨hf, hk, hval, hzero, ht⟩
    exact ⟨hf, hk, Nat.zero_le _, Slot.of heap value, by rw [hzero]; rfl,
      visitable?_of.2 ⟨hval, .inl ht⟩⟩

/-- An entry in a field is what the field holds, alone or in a list. -/
theorem mem_fieldEntries {heap : Heap} {id : NodeId} {type key : String} {field : Nat} {e : Entry} :
    e ∈ fieldEntries heap id type field key ↔
      e.field = field ∧ e.key = key ∧
      (heap.get? id key = some (.node e.node) ∧ e.item = 0 ∧ heap.HasType e.node ∨
        ∃ items, heap.get? id key = some (.array items) ∧ items[e.item]? = some (.node e.node) ∧
          (heap.HasType e.node ∨ isPropertyList type key = true)) := by
  unfold fieldEntries Heap.child
  cases hval : heap.get? id key with
  | none => simp [Child.of]
  | some value =>
    cases value with
    | null => simp [Child.of]
    | array items =>
      simp only [Child.of, mem_slotEntries, Nat.zero_le, true_and, Nat.sub_zero, List.getElem?_map,
        Option.map_eq_some_iff, Option.some.injEq, reduceCtorEq, false_and, false_or,
        Value.array.injEq, exists_eq_left']
      refine and_congr_right fun _ => and_congr_right fun _ => ?_
      constructor
      · rintro ⟨_, ⟨value, hitem, rfl⟩, hv⟩
        obtain ⟨rfl, ht⟩ := visitable?_of.1 hv
        exact ⟨hitem, ht⟩
      · rintro ⟨hitem, ht⟩
        exact ⟨_, ⟨_, hitem, rfl⟩, visitable?_of.2 ⟨rfl, ht⟩⟩
    | bool b => simp [Child.of, mem_slotEntries_lone]
    | number x => simp [Child.of, mem_slotEntries_lone]
    | string text => simp [Child.of, mem_slotEntries_lone]
    | node child => simp [Child.of, mem_slotEntries_lone]
    | backRef target => simp [Child.of, mem_slotEntries_lone]

/-- The entries that are computed are the listed ones. -/
theorem mem_entries {options : Options} {heap : Heap} {id : NodeId} {e : Entry} :
    e ∈ options.entries heap id ↔ options.Lists heap id e := by
  unfold Options.entries Options.Lists
  cases options.resolveKeys heap id (heap.effectiveType id) with
  | error _ => simp
  | ok keys =>
    simp only [keyEntries, List.mem_flatMap, Prod.exists, List.mk_mem_zipIdx_iff_getElem?,
      mem_fieldEntries, isPropertyList_iff, Except.ok.injEq, exists_eq_left']
    constructor
    · rintro ⟨key, field, hkey, rfl, rfl, h⟩
      exact ⟨hkey, h⟩
    · rintro ⟨hkey, h⟩
      exact ⟨e.key, e.field, hkey, rfl, rfl, h⟩

/-! ## Their order -/

theorem pairwise_zipIdx {α : Type} :
    ∀ (l : List α) (first : Nat), (l.zipIdx first).Pairwise (fun a b => a.2 < b.2)
  | [], _ => .nil
  | _ :: l, first => by
    refine List.pairwise_cons.2 ⟨fun b hb => ?_, pairwise_zipIdx l (first + 1)⟩
    exact List.le_snd_of_mem_zipIdx hb

/-- Entries in places are in the order of the places. -/
theorem pairwise_slotEntries (field : Nat) (key : String) (properties : Bool) (first : Nat)
    (slots : List Slot) : (slotEntries field key properties first slots).Pairwise Entry.Before := by
  refine List.pairwise_filterMap.2 ((pairwise_zipIdx slots first).imp ?_)
  intro a b hab x hx y hy
  obtain ⟨_, _, rfl⟩ := Option.map_eq_some_iff.1 hx
  obtain ⟨_, _, rfl⟩ := Option.map_eq_some_iff.1 hy
  exact .inr ⟨rfl, hab⟩

theorem pairwise_fieldEntries (heap : Heap) (id : NodeId) (type : String) (field : Nat)
    (key : String) : (fieldEntries heap id type field key).Pairwise Entry.Before := by
  unfold fieldEntries
  split
  · exact .nil
  · exact pairwise_slotEntries _ _ _ _ _
  · exact pairwise_slotEntries _ _ _ _ _

/-- The entries of a node stand in their order. -/
theorem pairwise_entries (options : Options) (heap : Heap) (id : NodeId) :
    (options.entries heap id).Pairwise Entry.Before := by
  unfold Options.entries
  split
  · refine List.pairwise_flatMap.2
      ⟨fun a _ => pairwise_fieldEntries _ _ _ _ _, (pairwise_zipIdx _ 0).imp ?_⟩
    intro a b hab x hx y hy
    have hx := (mem_fieldEntries.1 hx).1
    have hy := (mem_fieldEntries.1 hy).1
    exact .inl (by omega)
  · exact .nil

/-- Only a node of the heap has entries. -/
theorem lt_size_of_lists {options : Options} {heap : Heap} {id : NodeId} {e : Entry}
    (h : options.Lists heap id e) : id < heap.size := by
  refine Nat.lt_of_not_le fun hle => ?_
  have hnone : ∀ key, heap.get? id key = none := fun key => by
    rw [Heap.get?, Heap.fields_of_size_le hle, Record.get?_empty]
  obtain ⟨keys, -, -, ⟨hv, -⟩ | ⟨items, hv, -⟩⟩ := h
  · rw [hnone] at hv; cases hv
  · rw [hnone] at hv; cases hv

end SyntaxWalk
