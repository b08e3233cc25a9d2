/-
The trees that reading JSON plants in a heap. Each object becomes a node of its own, under an
identity that was not given out before; older nodes are not touched. All the edges that are made
lead to new nodes, and to each of them just one: the value that is read holds the outermost nodes,
and a field or a place in a list of another new node holds each of the others.
-/
import Mathlib.Data.List.Nodup
import SyntaxWalk.Proofs.RoundTrip

namespace SyntaxWalk

open Relation

namespace Json

mutual

/-- The number of objects in a JSON value. -/
def objects : Json → Nat
  | .array items => objectsInAll items
  | .object members => objectsInMembers members + 1
  | _ => 0

/-- The number of objects in a list of JSON values. -/
def objectsInAll : List Json → Nat
  | [] => 0
  | item :: rest => objects item + objectsInAll rest

/-- The number of objects in the members of an object. -/
def objectsInMembers : List (String × Json) → Nat
  | [] => 0
  | (_, json) :: rest => objects json + objectsInMembers rest

end

end Json

namespace Value

mutual

/-- No back-reference is in a value, also not in lists within lists. -/
def Lasting : Value → Prop
  | .backRef _ => False
  | .array items => LastingAll items
  | _ => True

/-- No back-reference is in the items of a list. -/
def LastingAll : List Value → Prop
  | [] => True
  | item :: rest => Lasting item ∧ LastingAll rest

end

end Value

namespace Heap

/-- A heap has grown by as many nodes as `count` says, and is as before otherwise. Together with the
given edges, the edges from the new nodes lead to each new node once and to no other, and there are
no back-references in new nodes. -/
structure Planted (heap later : Heap) (count : Nat) (edges : List NodeId) : Prop where
  size_eq : later.size = heap.size + count
  kept : ∀ id < heap.size, later.fields id = heap.fields id
  once : (edges ++ (List.range' heap.size count).flatMap fun id => (later.fields id).owned).Perm
    (List.range' heap.size count)
  lasting : ∀ id ∈ List.range' heap.size count, ∀ field ∈ (later.fields id).entries, field.2.Lasting

theorem Planted.refl (heap : Heap) : heap.Planted heap 0 [] where
  size_eq := rfl
  kept _ _ := rfl
  once := .nil
  lasting _ hid := by cases hid

/-- Planting goes on. -/
theorem Planted.trans {a b c : Heap} {m n : Nat} {xs ys : List NodeId} (hab : a.Planted b m xs)
    (hbc : b.Planted c n ys) : a.Planted c (m + n) (xs ++ ys) := by
  have hrange : List.range' a.size (m + n) = List.range' a.size m ++ List.range' b.size n := by
    rw [hab.size_eq, List.range'_append_1]
  -- What was planted first stays as it is.
  have hfirst : ∀ id ∈ List.range' a.size m, c.fields id = b.fields id := by
    intro id hid
    refine hbc.kept id ?_
    rw [hab.size_eq]
    exact (List.mem_range'_1.1 hid).2
  refine ⟨?_, fun id hid => ?_, ?_, fun id hid => ?_⟩
  · rw [hbc.size_eq, hab.size_eq, Nat.add_assoc]
  · have hle : a.size ≤ b.size := by
      rw [hab.size_eq]
      exact Nat.le_add_right _ _
    rw [hbc.kept id (Nat.lt_of_lt_of_le hid hle), hab.kept id hid]
  · have hedges : ((List.range' a.size m).flatMap fun id => (c.fields id).owned) =
        (List.range' a.size m).flatMap fun id => (b.fields id).owned :=
      List.flatMap_congr fun id hid => by rw [hfirst id hid]
    rw [hrange, List.flatMap_append, hedges]
    refine List.Perm.trans ?_ (hab.once.append hbc.once)
    simp only [List.append_assoc]
    refine List.Perm.append_left xs ?_
    simp only [← List.append_assoc]
    exact List.Perm.append_right _ List.perm_append_comm
  · rw [hrange] at hid
    rcases List.mem_append.1 hid with hid | hid
    · rw [hfirst id hid]
      exact hab.lasting id hid
    · exact hbc.lasting id hid

/-- A node is planted that takes over the edges. -/
theorem Planted.alloc {heap later : Heap} {count : Nat} {fields : Fields}
    (h : heap.Planted later count fields.owned)
    (hlasting : ∀ field ∈ fields.entries, field.2.Lasting) :
    heap.Planted (later.alloc fields).2 (count + 1) [later.size] := by
  -- The new node comes last, and the nodes before it are as they were.
  have hrange : List.range' heap.size (count + 1) = List.range' heap.size count ++ [later.size] := by
    rw [List.range'_1_concat, h.size_eq]
  have hold : ∀ id < later.size, (later.alloc fields).2.fields id = later.fields id := by
    intro id hid
    rw [later.fields_alloc, if_neg (Nat.ne_of_lt hid)]
  have hnew : (later.alloc fields).2.fields later.size = fields := by
    rw [later.fields_alloc, if_pos rfl]
  have hmem : ∀ id ∈ List.range' heap.size count, id < later.size := by
    intro id hid
    rw [h.size_eq]
    exact (List.mem_range'_1.1 hid).2
  refine ⟨?_, fun id hid => ?_, ?_, fun id hid => ?_⟩
  · rw [later.size_alloc, h.size_eq, Nat.add_assoc]
  · rw [hold id (by rw [h.size_eq]; omega), h.kept id hid]
  · have hedges : ((List.range' heap.size count).flatMap fun id =>
          ((later.alloc fields).2.fields id).owned) =
        (List.range' heap.size count).flatMap fun id => (later.fields id).owned :=
      List.flatMap_congr fun id hid => by rw [hold id (hmem id hid)]
    rw [hrange, List.flatMap_append, hedges, List.flatMap_singleton, hnew]
    refine List.perm_append_comm.trans (List.Perm.append_right _ ?_)
    exact List.perm_append_comm.trans h.once
  · rw [hrange] at hid
    rcases List.mem_append.1 hid with hid | hid
    · rw [hold id (hmem id hid)]
      exact h.lasting id hid
    · rw [List.mem_singleton.1 hid, hnew]
      exact hlasting

/-! ## Reading plants trees -/

mutual

theorem lasting_ofJson : ∀ (json : Json) (heap : Heap), (heap.ofJson json).1.Lasting
  | .null, _ => trivial
  | .bool _, _ => trivial
  | .number _, _ => trivial
  | .string _, _ => trivial
  | .array items, heap => lastingAll_ofItems items heap
  | .object _, _ => trivial

theorem lastingAll_ofItems : ∀ (items : List Json) (heap : Heap),
    Value.LastingAll (heap.ofItems items).1
  | [], _ => trivial
  | item :: items, heap => ⟨lasting_ofJson item heap, lastingAll_ofItems items _⟩

end

theorem lasting_ofMembers : ∀ (members : List (String × Json)) (heap : Heap),
    ∀ field ∈ (heap.ofMembers members).1, field.2.Lasting
  | [], _, _, h => by cases h
  | (name, json) :: members, heap, field, h => by
    rcases List.mem_cons.1 h with rfl | h
    · exact lasting_ofJson json heap
    · exact lasting_ofMembers members _ field h

mutual

theorem planted_ofJson : ∀ (json : Json) (heap : Heap), json.Distinct →
    heap.Planted (heap.ofJson json).2 json.objects (heap.ofJson json).1.owned
  | .null, heap, _ => .refl heap
  | .bool _, heap, _ => .refl heap
  | .number _, heap, _ => .refl heap
  | .string _, heap, _ => .refl heap
  | .array items, heap, hd => planted_ofItems items heap hd
  | .object members, heap, hd => by
    have hentries : (Record.ofList (heap.ofMembers members).1).entries =
        (heap.ofMembers members).1 := Record.entries_ofList (by rw [names_ofMembers]; exact hd.1)
    refine Planted.alloc ?_ ?_
    · unfold Fields.owned
      rw [hentries]
      exact planted_ofMembers members heap hd.2
    · rw [hentries]
      exact lasting_ofMembers members heap

theorem planted_ofItems : ∀ (items : List Json) (heap : Heap), Json.DistinctAll items →
    heap.Planted (heap.ofItems items).2 (Json.objectsInAll items)
      (Value.ownedByAll (heap.ofItems items).1)
  | [], heap, _ => .refl heap
  | item :: items, heap, hd => (planted_ofJson item heap hd.1).trans (planted_ofItems items _ hd.2)

theorem planted_ofMembers : ∀ (members : List (String × Json)) (heap : Heap),
    Json.DistinctMembers members →
    heap.Planted (heap.ofMembers members).2 (Json.objectsInMembers members)
      ((heap.ofMembers members).1.flatMap (·.2.owned))
  | [], heap, _ => .refl heap
  | (_, json) :: members, heap, hd =>
    (planted_ofJson json heap hd.1).trans (planted_ofMembers members _ hd.2)

end

/-! ## Trees -/

/-- If the lists of different items have nothing in common, an element tells the item. -/
theorem eq_of_nodup_flatMap {α β : Type} {items : List α} {f : α → List β} {a b : α} {x : β}
    (h : (items.flatMap f).Nodup) (ha : a ∈ items) (hb : b ∈ items) (hxa : x ∈ f a)
    (hxb : x ∈ f b) : a = b := by
  by_contra hne
  have : Std.Symm (Function.onFun List.Disjoint f) := ⟨fun _ _ hd _ hx hy => hd hy hx⟩
  exact (List.nodup_flatMap.1 h).2.forall ha hb hne hxa hxb

/-- What can be reached from a root is a tree: there is no cycle, a node is owned by one node only,
and by one edge of it. -/
structure Tree (heap : Heap) (root : NodeId) : Prop where
  acyclic : heap.Acyclic (.node root)
  parent : ∀ {a b c}, ReflTransGen heap.Owns root a → ReflTransGen heap.Owns root b →
    heap.Owns a c → heap.Owns b c → a = b
  once : ∀ {a}, ReflTransGen heap.Owns root a → (heap.fields a).owned.Nodup

theorem Planted.tree {heap later : Heap} {count : Nat} {root : NodeId}
    (h : heap.Planted later count [root]) (hacyclic : later.Acyclic (.node root)) :
    later.Tree root := by
  have hnodup : ((List.range' heap.size count).flatMap fun id => (later.fields id).owned).Nodup :=
    (List.nodup_append.1 (h.once.nodup_iff.2 (List.nodup_range' _))).2.1
  have hnew : ∀ {a}, ReflTransGen later.Owns root a → a ∈ List.range' heap.size count := by
    intro a ha
    induction ha with
    | refl => exact h.once.subset List.mem_cons_self
    | tail _ hown ih =>
      exact h.once.subset (List.mem_append_right _ (List.mem_flatMap.2 ⟨_, ih, hown⟩))
  exact ⟨hacyclic, fun ha hb hac hbc => eq_of_nodup_flatMap hnodup (hnew ha) (hnew hb) hac hbc,
    fun ha => (List.nodup_flatMap.1 hnodup).1 _ (hnew ha)⟩

theorem ofJson_of_nodeOfJson? {heap later : Heap} {json : Json} {root : NodeId}
    (h : heap.nodeOfJson? json = (some root, later)) :
    (heap.ofJson json).1 = .node root ∧ (heap.ofJson json).2 = later := by
  unfold nodeOfJson? at h
  split at h
  · rename_i id after heq
    cases h
    exact ⟨congrArg Prod.fst heq, congrArg Prod.snd heq⟩
  · cases h

/-- The node that is read from an object is the root of a tree. -/
theorem planted_nodeOfJson? {heap later : Heap} {json : Json} {root : NodeId} (hd : json.Distinct)
    (h : heap.nodeOfJson? json = (some root, later)) :
    heap.Planted later json.objects [root] ∧ later.Tree root := by
  obtain ⟨hvalue, rfl⟩ := ofJson_of_nodeOfJson? h
  have hplanted := planted_ofJson json heap hd
  have hunfolds := unfolds_ofJson json heap _ hd (.refl _)
  rw [hvalue] at hplanted hunfolds
  exact ⟨hplanted, hplanted.tree (acyclic_of_unfolds hunfolds)⟩

/-- The second node owns the first one and can be reached from the root. -/
def Up (heap : Heap) (root child parent : NodeId) : Prop :=
  heap.Owns parent child ∧ ReflTransGen heap.Owns root parent

theorem up_of_reaches {heap : Heap} {root a m : NodeId} (ha : ReflTransGen heap.Owns root a)
    (ham : ReflTransGen heap.Owns a m) : ReflTransGen (heap.Up root) m a := by
  induction ham with
  | refl => exact .refl
  | tail hak hkm ih => exact .head ⟨hkm, ha.trans hak⟩ ih

theorem reaches_of_up {heap : Heap} {root a m : NodeId} (h : ReflTransGen (heap.Up root) m a) :
    ReflTransGen heap.Owns a m := by
  induction h with
  | refl => exact .refl
  | tail _ hup ih => exact .head hup.1 ih

/-- The way up from a child of a node leads over that node, so not to another child. -/
theorem Tree.not_up {heap : Heap} {root n a b : NodeId} (h : heap.Tree root)
    (hn : ReflTransGen heap.Owns root n) (ha : heap.Owns n a) (hb : heap.Owns n b) (hne : a ≠ b) :
    ¬ReflTransGen (heap.Up root) a b := by
  intro hup
  rcases ReflTransGen.cases_head hup with heq | ⟨p, hp, hpb⟩
  · exact hne heq
  · obtain rfl : p = n := h.parent hp.2 hn hp.1 ha
    exact h.acyclic root List.mem_cons_self p hn (.head' hb (reaches_of_up hpb))

/-- Below different children of a node there are different nodes. -/
theorem Tree.apart {heap : Heap} {root n a b : NodeId} (h : heap.Tree root)
    (hn : ReflTransGen heap.Owns root n) (ha : heap.Owns n a) (hb : heap.Owns n b) (hne : a ≠ b)
    {m : NodeId} (ham : ReflTransGen heap.Owns a m) : ¬ReflTransGen heap.Owns b m := by
  intro hbm
  -- The way up from a node is unique, so one of the children would be above the other one.
  have hunique : Relator.RightUnique (heap.Up root) :=
    fun _ _ _ hp hq => h.parent hp.2 hq.2 hp.1 hq.1
  rcases ReflTransGen.total_of_right_unique hunique (up_of_reaches (hn.tail ha) ham)
    (up_of_reaches (hn.tail hb) hbm) with hab | hba
  · exact h.not_up hn ha hb hne hab
  · exact h.not_up hn hb ha hne.symm hba

end Heap

end SyntaxWalk
