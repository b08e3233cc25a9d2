/-
The stops of a plan: what a walk would meet if no fault ended it, the calls of handlers, the nodes
whose child fields do not resolve, and the entries that lead back. They are exactly the stops at the
ends of the routes that repeat no node, and they stand in the lexicographic order of the routes. A
walk gets as far as the first fault among them.
-/
import SyntaxWalk.Proofs.Routes

namespace SyntaxWalk

/-- Something that a walk meets: the handler of the node at the end of a path is called, or there is
a fault. -/
inductive Stop where
  | call (path : Path)
  | fault (path : Path) (error : VisitError)

namespace Stop

/-- Where a stop is. -/
def path : Stop → Path
  | .call path => path
  | .fault path _ => path

/-- A stop, seen from the start of a path that leads to where it was seen from. -/
def under (start : Path) : Stop → Stop
  | .call path => .call (start ++ path)
  | .fault path e => .fault (start ++ path) e

/-- The order of stops: by their paths. At a node the handler is called before anything else. -/
def Before (x y : Stop) : Prop :=
  Path.Before x.path y.path ∨ ∃ path e, x = .call path ∧ y = .fault path e

@[simp] theorem under_nil (x : Stop) : x.under [] = x := by cases x <;> rfl

theorem under_under (p q : Path) (x : Stop) : (x.under q).under p = x.under (p ++ q) := by
  cases x <;> simp [under]

theorem before_under {x y : Stop} (e : Entry) (h : x.Before y) :
    (x.under [e]).Before (y.under [e]) := by
  rcases h with h | ⟨path, error, rfl, rfl⟩
  · refine .inl ?_
    cases x <;> cases y <;> exact .cons h
  · exact .inr ⟨e :: path, error, rfl, rfl⟩

/-- Stops under different entries are in the order of the entries. -/
theorem before_of_entries {a b : Entry} (h : a.Before b) (x y : Stop) :
    (x.under [a]).Before (y.under [b]) := by
  refine .inl ?_
  cases x <;> cases y <;> exact .rel h

end Stop

namespace Plan

variable {α : Type} (plan : Plan α)

/-! ## What there is at one node -/

/-- The stops at a node itself, when the outer nodes are being expanded. -/
inductive Here (outer : List NodeId) (n : NodeId) : Stop → Prop where
  | call (h : plan.handled n) : Here outer n (.call [])
  | unresolved {e : VisitError} (hp : ¬plan.pruned n)
    (h : plan.options.resolveKeys plan.heap n (plan.type n) = .error e) : Here outer n (.fault [] e)
  | back {e : Entry} (hp : ¬plan.pruned n) (hl : plan.Lists n e) (h : e.node ∈ n :: outer) :
    Here outer n (.fault [e] (.cyclicChild (plan.type n) e.key))

/-! ## All stops -/

/-- The stops under an entry of a node; `next` gives those from the child on. -/
def stopsUnder (next : List NodeId → NodeId → List Stop) (outer : List NodeId) (n : NodeId)
    (e : Entry) : List Stop :=
  if e.node ∈ n :: outer then [.fault [e] (.cyclicChild (plan.type n) e.key)]
  else (next (n :: outer) e.node).map (Stop.under [e])

/-- The stops when a node is expanded. -/
def stopsInside (next : List NodeId → NodeId → List Stop) (outer : List NodeId) (n : NodeId) :
    List Stop :=
  match plan.options.resolveKeys plan.heap n (plan.type n) with
  | .error e => [.fault [] e]
  | .ok _ => (plan.options.entries plan.heap n).flatMap (plan.stopsUnder next outer n)

/-- The stops from a node on, by paths of less than the given length, when the outer nodes are being
expanded. -/
def stops : Nat → List NodeId → NodeId → List Stop
  | 0, _, _ => []
  | bound + 1, outer, n =>
    (if plan.handled n then [.call []] else []) ++
      (if plan.pruned n then [] else plan.stopsInside (stops bound) outer n)

theorem resolves_of_lists {n : NodeId} {e : Entry} (h : plan.Lists n e) : plan.Resolves n := by
  obtain ⟨keys, hk, -⟩ := h
  exact ⟨keys, hk⟩

/-- A stop inside of a node: its child fields do not resolve, an entry leads back, or the stop is
one from a child on. -/
theorem mem_stopsInside {next : List NodeId → NodeId → List Stop} {outer : List NodeId} {n : NodeId}
    {x : Stop} :
    x ∈ plan.stopsInside next outer n ↔
      (∃ e, plan.options.resolveKeys plan.heap n (plan.type n) = .error e ∧ x = .fault [] e) ∨
      (∃ e, plan.Lists n e ∧ e.node ∈ n :: outer ∧
        x = .fault [e] (.cyclicChild (plan.type n) e.key)) ∨
      (∃ e, plan.Lists n e ∧ e.node ∉ n :: outer ∧
        ∃ y ∈ next (n :: outer) e.node, x = y.under [e]) := by
  unfold stopsInside
  cases hk : plan.options.resolveKeys plan.heap n (plan.type n) with
  | error e =>
    -- Without child fields there are no entries.
    have hnone : ∀ e, ¬plan.Lists n e := fun _ hl => by
      obtain ⟨keys, hk'⟩ := plan.resolves_of_lists hl
      rw [hk] at hk'; cases hk'
    simp [hnone]
  | ok keys =>
    simp only [List.mem_flatMap, mem_entries, reduceCtorEq, false_and, exists_false, false_or]
    -- Each entry has its own stops, by whether it leads back.
    constructor
    · rintro ⟨e, hl, hx⟩
      unfold stopsUnder at hx
      split at hx
      · rename_i hb
        exact .inl ⟨e, hl, hb, List.mem_singleton.1 hx⟩
      · rename_i hb
        obtain ⟨y, hy, rfl⟩ := List.mem_map.1 hx
        exact .inr ⟨e, hl, hb, y, hy, rfl⟩
    · rintro (⟨e, hl, hb, rfl⟩ | ⟨e, hl, hb, y, hy, rfl⟩)
      · refine ⟨e, hl, ?_⟩
        rw [stopsUnder, if_pos hb]; exact List.mem_singleton_self _
      · refine ⟨e, hl, ?_⟩
        rw [stopsUnder, if_neg hb]; exact List.mem_map_of_mem hy

/-- A stop is at the node itself, or under one of its entries. -/
theorem mem_stops_succ {bound : Nat} {outer : List NodeId} {n : NodeId} {x : Stop} :
    x ∈ plan.stops (bound + 1) outer n ↔ plan.Here outer n x ∨
      ¬plan.pruned n ∧ ∃ e, plan.Lists n e ∧ e.node ∉ n :: outer ∧
        ∃ y ∈ plan.stops bound (n :: outer) e.node, x = y.under [e] := by
  rw [stops, List.mem_append]
  constructor
  · rintro (h | h)
    · split at h
      · rename_i hh
        cases List.mem_singleton.1 h
        exact .inl (.call hh)
      · cases h
    · split at h
      · cases h
      · rename_i hp
        rcases plan.mem_stopsInside.1 h with ⟨e, hk, rfl⟩ | ⟨e, hl, hb, rfl⟩ | h
        · exact .inl (.unresolved hp hk)
        · exact .inl (.back hp hl hb)
        · exact .inr ⟨hp, h⟩
  · rintro (h | ⟨hp, h⟩)
    · cases h with
      | call hh => exact .inl (by rw [if_pos hh]; exact List.mem_singleton_self _)
      | unresolved hp hk =>
        rw [if_neg hp]
        exact .inr (plan.mem_stopsInside.2 (.inl ⟨_, hk, rfl⟩))
      | back hp hl hb =>
        rw [if_neg hp]
        exact .inr (plan.mem_stopsInside.2 (.inr (.inl ⟨_, hl, hb, rfl⟩)))
    · rw [if_neg hp]
      exact .inr (plan.mem_stopsInside.2 (.inr (.inr h)))

/-- The stops are those at the ends of the routes that are clear. -/
theorem mem_stops {x : Stop} : ∀ {bound : Nat} {outer : List NodeId} {n : NodeId}, n ∉ outer →
    (x ∈ plan.stops bound outer n ↔ ∃ path y, path.length < bound ∧ plan.Route n path ∧
      Path.Clear outer n path ∧ plan.Here (Path.above outer n path) (Path.last n path) y ∧
      x = y.under path)
  | 0, _, _, _ => by simp [stops]
  | bound + 1, outer, n, hn => by
    rw [mem_stops_succ]
    constructor
    · rintro (h | ⟨hp, e, hl, hb, y, hy, rfl⟩)
      · exact ⟨[], x, Nat.succ_pos _, trivial, hn, h, (x.under_nil).symm⟩
      · obtain ⟨path, z, hlen, hr, hc, hz, rfl⟩ := (mem_stops hb).1 hy
        exact ⟨e :: path, z, Nat.succ_lt_succ hlen, ⟨hp, hl, hr⟩, ⟨hn, hc⟩, hz, z.under_under _ _⟩
    · rintro ⟨_ | ⟨e, path⟩, y, hlen, hr, hc, hy, rfl⟩
      · exact .inl (by rw [Stop.under_nil]; exact hy)
      · obtain ⟨hp, hl, hr⟩ := hr
        exact .inr ⟨hp, e, hl, hc.2.head, y.under path,
          (mem_stops hc.2.head).2 ⟨path, y, Nat.lt_of_succ_lt_succ hlen, hr, hc.2, hy, rfl⟩,
          (y.under_under [e] path).symm⟩

/-! ## Their order -/

/-- Stops under entries are in the order of the entries. -/
theorem pairwise_stopsInside {next : List NodeId → NodeId → List Stop} (outer : List NodeId)
    (n : NodeId) (hnext : ∀ outer n, (next outer n).Pairwise Stop.Before) :
    (plan.stopsInside next outer n).Pairwise Stop.Before := by
  unfold stopsInside
  split
  · exact List.pairwise_singleton _ _
  · refine List.pairwise_flatMap.2 ⟨fun e _ => ?_, ?_⟩
    · unfold stopsUnder
      split
      · exact List.pairwise_singleton _ _
      · exact List.pairwise_map.2 ((hnext _ _).imp (Stop.before_under e))
    · refine (pairwise_entries _ _ n).imp fun {a b} hab x hx y hy => ?_
      have hunder : ∀ e x, x ∈ plan.stopsUnder next outer n e → ∃ z : Stop, x = z.under [e] := by
        intro e x hx
        unfold stopsUnder at hx
        split at hx
        · exact ⟨.fault [] _, List.mem_singleton.1 hx⟩
        · obtain ⟨z, -, rfl⟩ := List.mem_map.1 hx
          exact ⟨z, rfl⟩
      obtain ⟨x, rfl⟩ := hunder a x hx
      obtain ⟨y, rfl⟩ := hunder b y hy
      exact Stop.before_of_entries hab x y

/-- The stops stand in their order. -/
theorem pairwise_stops : ∀ (bound : Nat) (outer : List NodeId) (n : NodeId),
    (plan.stops bound outer n).Pairwise Stop.Before
  | 0, _, _ => .nil
  | bound + 1, outer, n => by
    unfold stops
    refine List.pairwise_append.2 ⟨?_, ?_, fun x hx y hy => ?_⟩
    · split
      · exact List.pairwise_singleton _ _
      · exact .nil
    · split
      · exact .nil
      · exact plan.pairwise_stopsInside outer n (pairwise_stops bound)
    · -- The handler of the node is called before its expansion meets anything.
      split at hx
      · cases List.mem_singleton.1 hx
        split at hy
        · cases hy
        · rcases plan.mem_stopsInside.1 hy with ⟨e, -, rfl⟩ | ⟨e, -, -, rfl⟩ | ⟨e, -, -, z, -, rfl⟩
          · exact .inr ⟨[], e, rfl, rfl⟩
          · exact .inl .nil
          · exact .inl (by cases z <;> exact .nil)
      · cases hx

end Plan

/-! ## How far a walk gets -/

namespace Stop

/-- How a walk ends that meets the given stops. -/
def outcome : List Stop → Outcome
  | [] => .ok ()
  | .call _ :: rest => outcome rest
  | .fault _ e :: _ => .error e

/-- The handler calls of a walk that meets the given stops. -/
def calls : List Stop → List Path
  | [] => []
  | .call path :: rest => path :: calls rest
  | .fault _ _ :: _ => []

/-- The first fault counts. -/
theorem outcome_append : ∀ (a b : List Stop),
    outcome (a ++ b) = match outcome a with | .ok () => outcome b | .error e => .error e
  | [], _ => rfl
  | .call _ :: a, b => outcome_append a b
  | .fault _ _ :: _, _ => rfl

/-- After a fault there are no more calls. -/
theorem calls_append : ∀ (a b : List Stop),
    calls (a ++ b) = calls a ++ match outcome a with | .ok () => calls b | .error _ => []
  | [], _ => rfl
  | .call path :: a, b => congrArg (path :: ·) (calls_append a b)
  | .fault _ _ :: _, _ => rfl

@[simp] theorem outcome_under (start : Path) : ∀ (a : List Stop),
    outcome (a.map (under start)) = outcome a
  | [] => rfl
  | .call _ :: a => outcome_under start a
  | .fault _ _ :: _ => rfl

@[simp] theorem calls_under (start : Path) : ∀ (a : List Stop),
    calls (a.map (under start)) = (calls a).map (start ++ ·)
  | [] => rfl
  | .call path :: a => congrArg ((start ++ path) :: ·) (calls_under start a)
  | .fault _ _ :: _ => rfl

/-- The stops of a walk are calls only, or calls up to the first fault. -/
theorem eq_calls_or_fault : ∀ (a : List Stop),
    (outcome a = .ok () ∧ a = (calls a).map .call) ∨
      ∃ path e rest, outcome a = .error e ∧ a = (calls a).map .call ++ .fault path e :: rest
  | [] => .inl ⟨rfl, rfl⟩
  | .fault path e :: rest => .inr ⟨path, e, rest, rfl, rfl⟩
  | .call path :: a => by
    rcases eq_calls_or_fault a with ⟨ho, ha⟩ | ⟨place, e, rest, ho, ha⟩
    · exact .inl ⟨ho, congrArg (Stop.call path :: ·) ha⟩
    · exact .inr ⟨place, e, rest, ho, congrArg (Stop.call path :: ·) ha⟩

end Stop

end SyntaxWalk
