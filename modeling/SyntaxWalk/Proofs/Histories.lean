/-
A node is what the changes of its fields make of it. It begins without fields, and whoever has a
handle to it sets and removes fields; nodes are changed in turns, and each has its own history. A
field has the value to which it was set last, unless it was removed since. The fields stand in the
order in which they came in: setting a field again leaves it in its place, and a field that was
removed comes in anew at the end.
-/
import Mathlib.Data.List.Forall2
import Mathlib.Data.List.Induction
import SyntaxWalk.Proofs.Entries

namespace SyntaxWalk

/-! ## Changes -/

/-- A change of the fields of a node. -/
inductive Edit where
  | insert (key : String) (value : Value)
  | remove (key : String)

/-- The field that is changed. -/
def Edit.key : Edit → String
  | .insert key _ => key
  | .remove key => key

/-- The fields after a change. -/
def Fields.edit (fields : Fields) : Edit → Fields
  | .insert key value => fields.insert key value
  | .remove key => fields.erase key

/-- Makes a change through a handle of a node, and gives what it answers: the value that is
removed. -/
def Heap.edit (heap : Heap) (id : NodeId) : Edit → Option Value × Heap
  | .insert key value => (none, heap.insert id key value)
  | .remove key => heap.remove id key

/-- Makes changes one after the other, each through a handle of some node. -/
def Heap.editAll (heap : Heap) : List (NodeId × Edit) → Heap
  | [] => heap
  | (id, edit) :: rest => ((heap.edit id edit).2).editAll rest

/-- Changes of one node, oldest first. -/
abbrev History := List Edit

/-- The changes of a node among changes of nodes. -/
def History.of (id : NodeId) (edits : List (NodeId × Edit)) : History :=
  edits.filterMap fun step => if step.1 = id then some step.2 else none

theorem History.of_cons_same {id node : NodeId} (h : node = id) {edit : Edit}
    {rest : List (NodeId × Edit)} : of id ((node, edit) :: rest) = edit :: of id rest :=
  List.filterMap_cons_some (if_pos h)

theorem History.of_cons_other {id node : NodeId} (h : node ≠ id) {edit : Edit}
    {rest : List (NodeId × Edit)} : of id ((node, edit) :: rest) = of id rest :=
  List.filterMap_cons_none (if_neg h)

theorem Heap.size_edit (heap : Heap) (id : NodeId) (edit : Edit) :
    (heap.edit id edit).2.size = heap.size := by
  cases edit with
  | insert key value => exact heap.size_update id _
  | remove key =>
    rw [edit, heap.remove_eq]
    exact heap.size_update id _

/-- A change has its effect on the node under whose identity it is made, and on no other one. -/
theorem Heap.fields_edit (heap : Heap) (id other : NodeId) (edit : Edit) (h : other < heap.size) :
    (heap.edit id edit).2.fields other =
      if id = other then (heap.fields other).edit edit else heap.fields other := by
  have hupdate : ∀ change : Fields → Fields, (heap.update id change).fields other =
      if id = other then change (heap.fields other) else heap.fields other := by
    intro change
    rw [heap.fields_update]
    by_cases hid : id = other
    · subst hid
      rw [if_pos ⟨rfl, h⟩, if_pos rfl]
    · rw [if_neg fun hother => hid hother.1.symm, if_neg hid]
  cases edit with
  | insert key value => exact hupdate _
  | remove key =>
    rw [Heap.edit, heap.remove_eq]
    exact hupdate _

/-- Of all the changes only those of a node itself count for its fields. -/
theorem Heap.fields_editAll (id : NodeId) : ∀ (edits : List (NodeId × Edit)) (heap : Heap),
    id < heap.size →
    (heap.editAll edits).fields id = (History.of id edits).foldl Fields.edit (heap.fields id)
  | [], _, _ => rfl
  | (node, edit) :: rest, heap, h => by
    have hrest := fields_editAll id rest (heap.edit node edit).2 (by rwa [heap.size_edit])
    rw [heap.fields_edit node id edit h] at hrest
    unfold editAll
    rw [hrest]
    by_cases hid : node = id
    · rw [if_pos hid, History.of_cons_same hid, List.foldl_cons]
    · rw [if_neg hid, History.of_cons_other hid]

namespace History

/-! ## What a history says of a field -/

/-- The field was set to the value, and not changed since. -/
def Leaves (history : History) (key : String) (value : Value) : Prop :=
  ∃ before after, history = before ++ .insert key value :: after ∧ ∀ edit ∈ after, edit.key ≠ key

/-- The change at a place removes the field, and there is one to remove. -/
def RemovedAt (history : History) (key : String) (i : Nat) : Prop :=
  history[i]? = some (.remove key) ∧ ∃ value, Leaves (history.take i) key value

/-- The field came in at a place: of the changes since it was removed last, this is the first one
that sets it. -/
structure EnteredAt (history : History) (key : String) (i : Nat) : Prop where
  set : ∃ value, history[i]? = some (.insert key value)
  since : ∀ r, history.RemovedAt key r → r < i
  first : ∀ j < i, (∃ value, history[j]? = some (.insert key value)) →
    ∃ r, j < r ∧ history.RemovedAt key r

variable {history : History} {key : String} {edit : Edit}

/-- What a history leaves is the last insertion of a key, or what was left before if the last change
is one of another key. -/
theorem leaves_snoc {value : Value} : Leaves (history ++ [edit]) key value ↔
    edit = .insert key value ∨ edit.key ≠ key ∧ history.Leaves key value := by
  constructor
  · rintro ⟨before, after, h, hafter⟩
    rcases List.eq_nil_or_concat after with rfl | ⟨after, last, rfl⟩
    · obtain ⟨-, hlast⟩ := List.append_inj' h rfl
      exact .inl (by simpa using hlast)
    · rw [List.concat_eq_append] at h hafter
      rw [← List.cons_append, ← List.append_assoc] at h
      obtain ⟨hinit, hlast⟩ := List.append_inj' h rfl
      obtain rfl : edit = last := by simpa using hlast
      exact .inr ⟨hafter edit (by simp), before, after, hinit,
        fun e he => hafter e (List.mem_append_left _ he)⟩
  · rintro (rfl | ⟨hne, before, after, rfl, hafter⟩)
    · exact ⟨history, [], rfl, by simp⟩
    · refine ⟨before, after ++ [edit], by simp, fun e he => ?_⟩
      rcases List.mem_append.1 he with he | he
      · exact hafter e he
      · rw [List.mem_singleton.1 he]
        exact hne

theorem getElem?_snoc {i : Nat} (h : i < history.length) :
    (history ++ [edit])[i]? = history[i]? :=
  List.getElem?_append_left h

/-- A later change does not change what was removed before. -/
theorem removedAt_snoc {r : Nat} (hr : r < history.length) :
    RemovedAt (history ++ [edit]) key r ↔ history.RemovedAt key r := by
  unfold RemovedAt
  rw [getElem?_snoc hr, List.take_append_of_le_length (Nat.le_of_lt hr)]

theorem RemovedAt.lt_length {r : Nat} (h : history.RemovedAt key r) : r < history.length :=
  (List.getElem?_eq_some_iff.1 h.1).1

theorem RemovedAt.snoc {r : Nat} (h : history.RemovedAt key r) :
    RemovedAt (history ++ [edit]) key r :=
  (removedAt_snoc h.lt_length).2 h

theorem EnteredAt.lt_length {i : Nat} (h : history.EnteredAt key i) : i < history.length := by
  obtain ⟨value, hvalue⟩ := h.set
  exact (List.getElem?_eq_some_iff.1 hvalue).1

/-- A field came in at one place only: between two of them it would have been removed. -/
theorem EnteredAt.unique {i j : Nat} (hi : history.EnteredAt key i) (hj : history.EnteredAt key j) :
    i = j := by
  have hle : ∀ {i j : Nat}, history.EnteredAt key i → history.EnteredAt key j → ¬i < j := by
    intro i j hi hj hlt
    obtain ⟨r, hir, hr⟩ := hj.first i hlt hi.set
    have hri := hi.since r hr
    omega
  have hij := hle hi hj
  have hji := hle hj hi
  omega

/-- What is done later to other fields, or to set the field again, leaves it where it came in. -/
theorem EnteredAt.snoc {i : Nat} (h : history.EnteredAt key i) (hedit : edit ≠ .remove key) :
    EnteredAt (history ++ [edit]) key i := by
  have hi := h.lt_length
  refine ⟨?_, fun r hr => ?_, fun j hj hset => ?_⟩
  · rw [getElem?_snoc hi]
    exact h.set
  · by_cases hlast : r < history.length
    · exact h.since r ((removedAt_snoc hlast).1 hr)
    · -- The only change that is new does not remove the field.
      have hlen := hr.lt_length
      rw [List.length_append, List.length_singleton] at hlen
      obtain rfl : r = history.length := by omega
      have hremove := hr.1
      rw [List.getElem?_concat_length] at hremove
      exact (hedit (Option.some.inj hremove)).elim
  · rw [getElem?_snoc (Nat.lt_trans hj hi)] at hset
    obtain ⟨r, hjr, hr⟩ := h.first j hj hset
    exact ⟨r, hjr, hr.snoc⟩

/-- A field that was set and is not there any more has been removed. -/
theorem exists_removedAt {value : Value} {j : Nat} (hset : history[j]? = some (.insert key value))
    (habsent : ∀ value, ¬history.Leaves key value) : ∃ r, j < r ∧ history.RemovedAt key r := by
  induction history using List.reverseRecOn with
  | nil => cases hset
  | append_singleton init last ih =>
    have hj := (List.getElem?_eq_some_iff.1 hset).1
    rw [List.length_append, List.length_singleton] at hj
    by_cases hlast : j < init.length
    · rw [getElem?_snoc hlast] at hset
      by_cases hthere : ∃ value, Leaves init key value
      · -- It was there until the last change, which must have removed it.
        have hremove : last = .remove key := by
          cases last with
          | insert other value' =>
            obtain ⟨v, hv⟩ := hthere
            by_cases hkey : other = key
            · exact (habsent value' (leaves_snoc.2 (.inl (by rw [hkey])))).elim
            · exact (habsent v (leaves_snoc.2 (.inr ⟨hkey, hv⟩))).elim
          | remove other =>
            obtain ⟨v, hv⟩ := hthere
            by_cases hkey : other = key
            · rw [hkey]
            · exact (habsent v (leaves_snoc.2 (.inr ⟨hkey, hv⟩))).elim
        refine ⟨init.length, hlast, ?_, ?_⟩
        · rw [List.getElem?_concat_length, hremove]
        · rwa [List.take_left]
      · obtain ⟨r, hjr, hr⟩ := ih hset fun value hvalue => hthere ⟨value, hvalue⟩
        exact ⟨r, hjr, hr.snoc⟩
    · obtain rfl : j = init.length := by omega
      rw [List.getElem?_concat_length] at hset
      exact (habsent value (leaves_snoc.2 (.inl (Option.some.inj hset)))).elim

/-- A field that is set while it is not there comes in at the end. -/
theorem enteredAt_length (habsent : ∀ value, ¬history.Leaves key value) (value : Value) :
    EnteredAt (history ++ [.insert key value]) key history.length := by
  refine ⟨⟨value, List.getElem?_concat_length⟩, fun r hr => ?_, fun j hj hset => ?_⟩
  · have hlen := hr.lt_length
    rw [List.length_append, List.length_singleton] at hlen
    by_cases hlast : r < history.length
    · exact hlast
    · obtain rfl : r = history.length := by omega
      have hremove := hr.1
      rw [List.getElem?_concat_length] at hremove
      cases hremove
  · obtain ⟨value', hset⟩ := hset
    rw [getElem?_snoc hj] at hset
    obtain ⟨r, hjr, hr⟩ := exists_removedAt hset habsent
    exact ⟨r, hjr, hr.snoc⟩

/-! ## The fields that a history makes -/

/-- The fields of a node that had none before the changes. -/
def fields (history : History) : Fields := history.foldl Fields.edit ∅

theorem fields_snoc (history : History) (edit : Edit) :
    fields (history ++ [edit]) = history.fields.edit edit := by
  unfold fields
  rw [List.foldl_append]
  rfl

/-- What is found under a key is what the history leaves there: by induction on the history, from
its end. -/
theorem get?_fields {value : Value} : history.fields.get? key = some value ↔
    history.Leaves key value := by
  induction history using List.reverseRecOn with
  | nil =>
    refine ⟨fun h => (nomatch h), ?_⟩
    rintro ⟨before, after, h, -⟩
    simp at h
  | append_singleton init last ih =>
    rw [fields_snoc, leaves_snoc, ← ih]
    cases last with
    | insert other value' =>
      show ((fields init).insert other value').get? key = some value ↔ _
      rw [Record.get?_insert]
      by_cases hkey : key = other
      · subst hkey
        simp [Edit.key]
      · have hkey' : other ≠ key := Ne.symm hkey
        simp [Edit.key, hkey, hkey']
    | remove other =>
      show ((fields init).erase other).get? key = some value ↔ _
      rw [Record.get?_erase]
      by_cases hkey : key = other
      · subst hkey
        simp [Edit.key]
      · have hkey' : other ≠ key := Ne.symm hkey
        simp [Edit.key, hkey, hkey']

theorem mem_keys_fields : key ∈ history.fields.keys ↔ ∃ value, history.Leaves key value := by
  rw [Record.mem_keys_iff, Option.isSome_iff_exists]
  exact exists_congr fun value => get?_fields

/-- Each field came in somewhere, and the one that came in earlier stands before. -/
structure Ordered (history : History) : Prop where
  entered : ∀ key ∈ history.fields.keys, ∃ i, history.EnteredAt key i
  order : history.fields.keys.Pairwise fun a b =>
    ∃ i j, history.EnteredAt a i ∧ history.EnteredAt b j ∧ i < j

/-- Fields that stay stand as they stood. -/
theorem Ordered.snoc (h : history.Ordered) {keys : List String}
    (hkeys : keys.Sublist history.fields.keys) (hstay : ∀ key ∈ keys, edit ≠ .remove key) :
    (∀ key ∈ keys, ∃ i, EnteredAt (history ++ [edit]) key i) ∧
      keys.Pairwise fun a b => ∃ i j, EnteredAt (history ++ [edit]) a i ∧
        EnteredAt (history ++ [edit]) b j ∧ i < j := by
  constructor
  · intro key hkey
    obtain ⟨i, hi⟩ := h.entered key (hkeys.subset hkey)
    exact ⟨i, hi.snoc (hstay key hkey)⟩
  · refine (h.order.sublist hkeys).imp_of_mem fun {a b} ha hb hab => ?_
    obtain ⟨i, j, hi, hj, hij⟩ := hab
    exact ⟨i, j, hi.snoc (hstay a ha), hj.snoc (hstay b hb), hij⟩

/-- The keys stand in the order in which they came in, by induction on the history from its end. A
key that is replaced keeps its place in the history, one that is new comes in last, and with one
that is removed only its own place goes. -/
theorem ordered (history : History) : history.Ordered := by
  induction history using List.reverseRecOn with
  | nil => exact ⟨fun key hkey => (nomatch hkey), List.Pairwise.nil⟩
  | append_singleton init last ih =>
    cases last with
    | remove other =>
      -- The fields that stay keep their order; the one that is removed is not among them.
      have hkeys : (fields (init ++ [.remove other])).keys.Sublist (fields init).keys := by
        rw [fields_snoc]
        exact (Record.drop_sublist other (fields init).entries).map _
      have hgone : other ∉ (fields (init ++ [.remove other])).keys := by
        rw [mem_keys_fields]
        rintro ⟨value, hvalue⟩
        rcases leaves_snoc.1 hvalue with h | ⟨hne, -⟩
        · cases h
        · exact hne rfl
      have hstay : ∀ key ∈ (fields (init ++ [.remove other])).keys,
          Edit.remove other ≠ .remove key := by
        rintro key hkey heq
        exact hgone (Edit.remove.inj heq ▸ hkey)
      obtain ⟨hentered, horder⟩ := ih.snoc hkeys hstay
      exact ⟨hentered, horder⟩
    | insert other value =>
      have hstay : ∀ key ∈ (fields init).keys, Edit.insert other value ≠ .remove key :=
        fun _ _ heq => by cases heq
      obtain ⟨hentered, horder⟩ := ih.snoc (List.Sublist.refl _) hstay
      have hkeys : (fields (init ++ [.insert other value])).keys =
          if other ∈ (fields init).keys then (fields init).keys else (fields init).keys ++ [other] := by
        rw [fields_snoc]
        exact Record.keys_insert _ _ _
      -- A field that is there already keeps its place.
      by_cases hthere : other ∈ (fields init).keys
      · rw [if_pos hthere] at hkeys
        exact ⟨by rwa [hkeys], by rwa [hkeys]⟩
      · -- The new field comes in after all those that are there.
        rw [if_neg hthere] at hkeys
        have hnew : EnteredAt (init ++ [.insert other value]) other init.length :=
          enteredAt_length (fun v hv => hthere (mem_keys_fields.2 ⟨v, hv⟩)) value
        constructor
        · intro key hkey
          rw [hkeys] at hkey
          rcases List.mem_append.1 hkey with hkey | hkey
          · exact hentered key hkey
          · exact ⟨init.length, by rwa [List.mem_singleton.1 hkey]⟩
        · rw [hkeys, List.pairwise_append]
          refine ⟨horder, List.pairwise_singleton _ _, fun a ha b hb => ?_⟩
          obtain ⟨i, hi⟩ := ih.entered a ha
          rw [List.mem_singleton.1 hb]
          exact ⟨i, init.length, hi.snoc (hstay a ha), hnew, hi.lt_length⟩

end History

/-! ## What a node answers -/

namespace Heap

/-- What a value is as a child: a node with a type is told from one without, and nothing from what
is no node. -/
inductive Sorts (heap : Heap) : Value → Slot → Prop
  | absent : Sorts heap .null .absent
  | node {id : NodeId} (h : heap.HasType id) : Sorts heap (.node id) (.node id)
  | untyped {id : NodeId} (h : ¬heap.HasType id) : Sorts heap (.node id) (.untyped id)
  | other {value : Value} (hnull : value ≠ .null) (hnode : ∀ id, value ≠ .node id) :
      Sorts heap value .other

/-- What a field is as children, from its value: none, many or one. -/
inductive ReadsAs (heap : Heap) : Option Value → Child → Prop
  | missing : ReadsAs heap none .absent
  | null : ReadsAs heap (some .null) .absent
  | many {items : List Value} {slots : List Slot} (h : List.Forall₂ heap.Sorts items slots) :
      ReadsAs heap (some (.array items)) (.many slots)
  | one {value : Value} {slot : Slot} (hnull : value ≠ .null) (harray : ∀ items, value ≠ .array items)
      (h : heap.Sorts value slot) : ReadsAs heap (some value) (.one slot)

variable {heap : Heap}

theorem sorts_of (heap : Heap) (value : Value) : heap.Sorts value (Slot.of heap value) := by
  cases value with
  | null => exact .absent
  | node id =>
    dsimp only [Slot.of]
    by_cases htyped : (heap.fields id).isTyped = true
    · rw [if_pos htyped]
      exact .node (isTyped_iff.1 htyped)
    · rw [if_neg htyped]
      exact .untyped fun h => htyped (isTyped_iff.2 h)
  | _ => exact .other (fun h => nomatch h) (fun _ h => nomatch h)

/-- How a value is sorted is determined. -/
theorem Sorts.unique {value : Value} {a b : Slot} (ha : heap.Sorts value a)
    (hb : heap.Sorts value b) : a = b := by
  cases ha with
  | absent =>
    cases hb with
    | absent => rfl
    | other hnull _ => exact (hnull rfl).elim
  | node h =>
    cases hb with
    | node _ => rfl
    | untyped h' => exact (h' h).elim
    | other _ hnode => exact (hnode _ rfl).elim
  | untyped h =>
    cases hb with
    | node h' => exact (h h').elim
    | untyped _ => rfl
    | other _ hnode => exact (hnode _ rfl).elim
  | other hnull hnode =>
    cases hb with
    | absent => exact (hnull rfl).elim
    | node _ => exact (hnode _ rfl).elim
    | untyped _ => exact (hnode _ rfl).elim
    | other _ _ => rfl

theorem sorts_iff {value : Value} {slot : Slot} : heap.Sorts value slot ↔ Slot.of heap value = slot :=
  ⟨fun h => (sorts_of heap value).unique h, fun h => h ▸ sorts_of heap value⟩

theorem forall₂_sorts_iff {items : List Value} {slots : List Slot} :
    List.Forall₂ heap.Sorts items slots ↔ items.map (Slot.of heap) = slots := by
  have hsorts : heap.Sorts = fun value slot => Slot.of heap value = slot :=
    funext₂ fun _ _ => propext sorts_iff
  rw [hsorts, ← List.forall₂_map_left_iff, List.forall₂_eq_eq_eq]

/-- What a field is read as is determined by its value. -/
theorem child_eq_iff {id : NodeId} {key : String} {child : Child} :
    heap.child id key = child ↔ heap.ReadsAs (heap.get? id key) child := by
  unfold Heap.child
  generalize heap.get? id key = value
  constructor
  · rintro rfl
    rcases value with - | value
    · exact .missing
    · cases value with
      | null => exact .null
      | array items => exact .many (forall₂_sorts_iff.2 rfl)
      | _ => exact .one (fun h => nomatch h) (fun _ h => nomatch h) (sorts_of heap _)
  · intro h
    cases h with
    | missing => rfl
    | null => rfl
    | many h => exact congrArg Child.many (forall₂_sorts_iff.1 h)
    | one hnull harray h =>
      rename_i value slot
      obtain rfl := sorts_iff.1 h
      cases value with
      | null => exact (hnull rfl).elim
      | array items => exact (harray items rfl).elim
      | _ => rfl

theorem text?_eq_some_iff {id : NodeId} {key text : String} :
    (heap.fields id).text? key = some text ↔ heap.get? id key = some (.string text) := by
  unfold Fields.text? Heap.get?
  cases (heap.fields id).get? key with
  | none => simp
  | some value => cases value <;> simp [Value.string?]

theorem type?_eq_some_iff {id : NodeId} {type : String} : (heap.fields id).type? = some type ↔
    heap.get? id "type" = some (.string type) ∧ type ≠ "" := by
  unfold Fields.type?
  rw [Option.filter_eq_some_iff, text?_eq_some_iff, decide_eq_true_iff]

/-- A node is the map that its history makes, in the order of the history. -/
structure Reflects (heap : Heap) (id : NodeId) (history : History) : Prop where
  nodup : (heap.fields id).keys.Nodup
  size : (heap.fields id).size = (heap.fields id).keys.length
  value : ∀ key value, heap.get? id key = some value ↔ history.Leaves key value
  contains : ∀ key, (heap.fields id).contains key = true ↔ ∃ value, heap.get? id key = some value
  mem : ∀ key, key ∈ (heap.fields id).keys ↔ ∃ value, heap.get? id key = some value
  entered : ∀ key ∈ (heap.fields id).keys, ∃! i, history.EnteredAt key i
  order : (heap.fields id).keys.Pairwise fun a b =>
    ∃ i j, history.EnteredAt a i ∧ history.EnteredAt b j ∧ i < j

/-- Removing a field answers with its value and leaves the others as they stand. -/
structure Removes (heap : Heap) (id : NodeId) (key : String) : Prop where
  answer : (heap.edit id (.remove key)).1 = heap.get? id key
  missing : heap.get? id key = none →
    ((heap.edit id (.remove key)).2.fields id).entries = (heap.fields id).entries
  found : ∀ value, heap.get? id key = some value → ∃ before after,
    (heap.fields id).entries = before ++ (key, value) :: after ∧
      ((heap.edit id (.remove key)).2.fields id).entries = before ++ after

/-- Made without fields and changed through its handles, a node has the fields of its history. -/
theorem fields_made (heap : Heap) (edits : List (NodeId × Edit)) :
    ((heap.alloc ∅).2.editAll edits).fields (heap.alloc ∅).1 =
      History.fields (.of (heap.alloc ∅).1 edits) := by
  have hlt : (heap.alloc ∅).1 < (heap.alloc ∅).2.size := by
    rw [heap.size_alloc]
    exact Nat.lt_succ_self _
  have hnone : (heap.alloc ∅).2.fields (heap.alloc ∅).1 = ∅ := by
    rw [heap.fields_alloc]
    exact if_pos rfl
  rw [fields_editAll _ edits _ hlt, hnone]
  rfl

/-- Fields that a history makes reflect the history. -/
theorem reflects_of_fields {id : NodeId} {history : History}
    (h : heap.fields id = history.fields) : heap.Reflects id history where
  nodup := (heap.fields id).distinct
  size := (List.length_map _).symm
  value key value := by
    unfold Heap.get?
    rw [h]
    exact History.get?_fields
  contains key := by
    rw [Record.contains_eq]
    exact Option.isSome_iff_exists
  mem key := Record.mem_keys_iff.trans Option.isSome_iff_exists
  entered key hkey := by
    rw [h] at hkey
    obtain ⟨i, hi⟩ := history.ordered.entered key hkey
    exact ⟨i, hi, fun j hj => hj.unique hi⟩
  order := by
    rw [h]
    exact history.ordered.order

/-- Removing a field of a node of the heap gives what was there, and leaves the others as
they are. -/
theorem removes_of_lt {id : NodeId} (hid : id < heap.size) (key : String) :
    heap.Removes id key := by
  have hfields : (heap.edit id (.remove key)).2.fields id = (heap.fields id).erase key := by
    rw [heap.fields_edit id id _ hid, if_pos rfl]
    rfl
  refine ⟨congrArg Prod.fst (heap.remove_eq id key), fun hnone => ?_, fun value hvalue => ?_⟩
  · rw [hfields]
    exact Record.drop_of_find_none hnone
  · obtain ⟨before, after, hentries, hdrop⟩ := Record.drop_of_find hvalue
    refine ⟨before, after, hentries, ?_⟩
    rw [hfields]
    exact hdrop

theorem size_editAll : ∀ (edits : List (NodeId × Edit)) (heap : Heap),
    (heap.editAll edits).size = heap.size
  | [], _ => rfl
  | (id, edit) :: rest, heap => (size_editAll rest _).trans (heap.size_edit id edit)

/-- A node is an insertion-ordered map. However nodes are changed after it was made, it holds what
its history leaves, in the order in which its fields came in; removing a field gives the value that
it has and leaves the others as they stand; and what it answers about its children, texts and type
is read off the values of its fields. -/
theorem node_keeps_insertion_order (heap : Heap) (edits : List (NodeId × Edit)) :
    let id := (heap.alloc ∅).1
    let later := (heap.alloc ∅).2.editAll edits
    later.Reflects id (.of id edits) ∧ (∀ key, later.Removes id key) ∧
      (∀ key child, later.child id key = child ↔ later.ReadsAs (later.get? id key) child) ∧
      (∀ key text, (later.fields id).text? key = some text ↔
        later.get? id key = some (.string text)) ∧
      ((later.fields id).isTyped = true ↔ ∃ text, later.get? id "type" = some (.string text)) ∧
      ∀ type, (later.fields id).type? = some type ↔
        later.get? id "type" = some (.string type) ∧ type ≠ "" := by
  intro id later
  have hid : id < later.size := by
    rw [size_editAll, heap.size_alloc]
    exact Nat.lt_succ_self _
  exact ⟨reflects_of_fields (fields_made heap edits), removes_of_lt hid, fun _ _ => child_eq_iff,
    fun _ _ => text?_eq_some_iff, isTyped_iff, fun _ => type?_eq_some_iff⟩

example : (History.fields [.insert "a" .null, .insert "b" .null, .insert "a" (.bool true),
    .remove "b", .insert "c" .null, .insert "b" .null]).keys = ["a", "c", "b"] := rfl

end Heap

end SyntaxWalk
