/-
Routes through the listed entries of nodes. A walk whose handlers change nothing goes by a plan:
from the root it follows entries, but not out of nodes that their handlers prune. A route that
repeats no node is no longer than there are nodes.
-/
import Mathlib.Data.List.Basic
import SyntaxWalk.Proofs.Entries
import SyntaxWalk.Walk.Handlers

namespace SyntaxWalk

/-! ## Paths -/

/-- The entries that lead from one node to another, first to last. -/
abbrev Path := List Entry

namespace Path

/-- The node at the end of a path. -/
def last : NodeId → Path → NodeId
  | n, [] => n
  | _, e :: path => last e.node path

/-- The nodes on a path, both ends included. -/
def nodes (n : NodeId) (path : Path) : List NodeId := n :: path.map Entry.node

/-- The lexicographic order of paths: the one that leaves a common node by an earlier entry comes
first, and so does one that is a part of the other. -/
def Before : Path → Path → Prop := List.Lex Entry.Before

@[simp] theorem last_nil (n : NodeId) : last n [] = n := rfl

@[simp] theorem last_cons (n : NodeId) (e : Entry) (path : Path) :
    last n (e :: path) = last e.node path := rfl

theorem last_append (n : NodeId) : ∀ (path rest : Path),
    last n (path ++ rest) = last (last n path) rest
  | [], _ => rfl
  | e :: path, rest => last_append e.node path rest

theorem last_mem_nodes : ∀ (n : NodeId) (path : Path), last n path ∈ nodes n path
  | _, [] => List.mem_cons_self
  | _, e :: path => List.mem_cons_of_mem _ (last_mem_nodes e.node path)

/-- The order of paths is strict. -/
theorem before_asymm {p q : Path} (h : Before p q) : ¬Before q p := by
  have hentry : ∀ {a b : Entry}, a.Before b → ¬b.Before a := by
    intro a b hab hba
    unfold Entry.Before at hab hba
    omega
  induction h with
  | nil => intro h'; cases h'
  | rel hab =>
    intro h'
    cases h' with
    | rel hba => exact hentry hab hba
    | cons _ => exact hentry hab hab
  | cons _ ih =>
    intro h'
    cases h' with
    | rel haa => exact hentry haa haa
    | cons h' => exact ih h'

theorem before_irrefl (p : Path) : ¬Before p p := fun h => before_asymm h h

/-- The path meets none of the outer nodes, and no node twice. -/
def Clear : List NodeId → NodeId → Path → Prop
  | outer, n, [] => n ∉ outer
  | outer, n, e :: path => n ∉ outer ∧ Clear (n :: outer) e.node path

/-- The outer nodes and the nodes on the path but the last, innermost first. -/
def above : List NodeId → NodeId → Path → List NodeId
  | outer, _, [] => outer
  | outer, n, e :: path => above (n :: outer) e.node path

theorem Clear.head {outer : List NodeId} {n : NodeId} : ∀ {path : Path}, Clear outer n path →
    n ∉ outer
  | [], h => h
  | _ :: _, h => h.1

/-- A path is clear just if its nodes are different ones, and none of them is an outer node. -/
theorem clear_iff : ∀ (path : Path) (outer : List NodeId) (n : NodeId),
    Clear outer n path ↔ (nodes n path).Nodup ∧ ∀ m ∈ nodes n path, m ∉ outer
  | [], outer, n => by simp [Clear, nodes]
  | e :: path, outer, n => by
    have hnodes : nodes n (e :: path) = n :: nodes e.node path := rfl
    rw [Clear, clear_iff path, hnodes, List.nodup_cons]
    constructor
    · rintro ⟨hn, hnd, hout⟩
      refine ⟨⟨fun hm => hout n hm List.mem_cons_self, hnd⟩, fun m hm => ?_⟩
      rcases List.mem_cons.1 hm with rfl | hm
      · exact hn
      · exact fun ho => hout m hm (List.mem_cons_of_mem _ ho)
    · rintro ⟨⟨hn, hnd⟩, hout⟩
      refine ⟨hout n List.mem_cons_self, hnd, fun m hm ho => ?_⟩
      rcases List.mem_cons.1 ho with rfl | ho
      · exact hn hm
      · exact hout m (List.mem_cons_of_mem _ hm) ho

theorem clear_nil_iff {n : NodeId} {path : Path} : Clear [] n path ↔ (nodes n path).Nodup := by
  rw [clear_iff]; simp

/-- The nodes above the end of a path, and the end itself, are the nodes of the path and the outer
ones. -/
theorem mem_above {a : NodeId} : ∀ (path : Path) (outer : List NodeId) (n : NodeId),
    a ∈ last n path :: above outer n path ↔ a ∈ nodes n path ∨ a ∈ outer
  | [], outer, n => by simp [above, nodes]
  | e :: path, outer, n => by
    have hnodes : nodes n (e :: path) = n :: nodes e.node path := rfl
    rw [last_cons, above, mem_above path, hnodes, List.mem_cons, List.mem_cons]
    constructor
    · rintro (h | rfl | h)
      · exact .inl (.inr h)
      · exact .inl (.inl rfl)
      · exact .inr h
    · rintro ((rfl | h) | h)
      · exact .inr (.inl rfl)
      · exact .inl h
      · exact .inr (.inr h)

end Path

/-! ## Plans and routes -/

/-- What a walk goes by that changes nothing: the nodes, the options, the handlers, and for which
nodes a handler returns at once instead of expanding its node. -/
structure Plan (α : Type) where
  heap : Heap
  options : Options
  handlers : Handlers α
  prunes : α → NodeId → Bool

namespace Plan

variable {α : Type} (plan : Plan α)

/-- The type under which a node is handled. -/
def type (n : NodeId) : String := plan.heap.effectiveType n

/-- Whether a node has a handler. -/
def handled (n : NodeId) : Bool := (plan.handlers.get? (plan.type n)).isSome

/-- Whether a node has a handler that returns at once. -/
def pruned (n : NodeId) : Bool := (plan.handlers.get? (plan.type n)).any (plan.prunes · n)

/-- Whether the child fields of a node resolve. -/
def Resolves (n : NodeId) : Prop :=
  ∃ keys, plan.options.resolveKeys plan.heap n (plan.type n) = .ok keys

/-- The listed entries of a node. -/
def Lists (n : NodeId) (e : Entry) : Prop := plan.options.Lists plan.heap n e

/-- A path of listed entries that does not go out of a pruned node. -/
def Route : NodeId → Path → Prop
  | _, [] => True
  | n, e :: path => ¬plan.pruned n ∧ plan.Lists n e ∧ Route e.node path

@[simp] theorem route_nil (n : NodeId) : plan.Route n [] := trivial

@[simp] theorem route_cons (n : NodeId) (e : Entry) (path : Path) :
    plan.Route n (e :: path) ↔ ¬plan.pruned n ∧ plan.Lists n e ∧ plan.Route e.node path := Iff.rfl

theorem route_append : ∀ (n : NodeId) (path rest : Path),
    plan.Route n (path ++ rest) ↔ plan.Route n path ∧ plan.Route (Path.last n path) rest
  | n, [], rest => by simp
  | n, e :: path, rest => by
    simp only [List.cons_append, route_cons, Path.last_cons, route_append e.node path rest,
      and_assoc]

/-! ## How long a route gets -/

/-- How many nodes there are besides the outer ones. -/
def remaining (outer : List NodeId) : Nat :=
  ((List.range plan.heap.size).filter (· ∉ outer)).length

@[simp] theorem remaining_nil : plan.remaining [] = plan.heap.size := by
  simp [remaining]

/-- A node of the heap that is one more outer node leaves fewer nodes. -/
theorem remaining_cons_lt {outer : List NodeId} {n : NodeId} (h : n < plan.heap.size)
    (hn : n ∉ outer) : plan.remaining (n :: outer) < plan.remaining outer := by
  have hfilter : (List.range plan.heap.size).filter (· ∉ n :: outer) =
      ((List.range plan.heap.size).filter (· ∉ outer)).filter (· ≠ n) := by
    rw [List.filter_filter]
    refine List.filter_congr fun m _ => ?_
    simp
  unfold remaining
  rw [hfilter, List.length_filter_lt_length_iff_exists]
  exact ⟨n, by simp [h, hn], by simp⟩

/-- A route that repeats no node is no longer than there are nodes. -/
theorem length_le_remaining : ∀ (path : Path) (outer : List NodeId) (n : NodeId),
    plan.Route n path → Path.Clear outer n path → path.length ≤ plan.remaining outer
  | [], _, _, _, _ => Nat.zero_le _
  | e :: path, outer, n, ⟨_, hl, hr⟩, ⟨hn, hc⟩ => by
    have hlen := length_le_remaining path (n :: outer) e.node hr hc
    have hlt := plan.remaining_cons_lt (lt_size_of_lists hl) hn
    simp only [List.length_cons]
    omega

end Plan

end SyntaxWalk
