/-
What a walk visits and how it ends, when handlers note their calls and change nothing. If no cycle
of listed entries can be reached and all child fields resolve, the walk calls the handlers at the
ends of all routes from the root, in lexicographic order. Otherwise it ends with the first fault: a
node whose child fields do not resolve, or an entry that leads back to a node on the way to it.
-/
import Mathlib.Data.List.Induction
import Mathlib.Data.List.Nodup
import SyntaxWalk.Proofs.Recording

namespace SyntaxWalk

/-! ## Parts of paths -/

namespace Path

theorem nodes_append (n : NodeId) (path rest : Path) :
    nodes n (path ++ rest) = nodes n path ++ rest.map Entry.node := by
  simp [nodes]

/-- A path can be cut at each of its nodes. -/
theorem exists_append_of_mem_nodes {m : NodeId} : ∀ {path : Path} {n : NodeId}, m ∈ nodes n path →
    ∃ front back, path = front ++ back ∧ last n front = m
  | [], n, h => ⟨[], [], rfl, (List.mem_singleton.1 h).symm⟩
  | e :: path, n, h => by
    rcases List.mem_cons.1 h with rfl | h
    · exact ⟨[], e :: path, rfl, rfl⟩
    · obtain ⟨front, back, rfl, hlast⟩ := exists_append_of_mem_nodes h
      exact ⟨e :: front, back, rfl, hlast⟩

/-- A path that is not empty ends in the node of one of its entries. -/
theorem last_mem_of_ne_nil {path : Path} (h : path ≠ []) (n : NodeId) :
    last n path ∈ path.map Entry.node := by
  cases path with
  | nil => exact (h rfl).elim
  | cons e path => exact last_mem_nodes e.node path

end Path

/-! ## Faults -/

namespace Plan

variable {α : Type} (plan : Plan α)

/-- A fault that a walk from the root can meet, where it is, and the error that it is. -/
inductive Fault (root : NodeId) : Path → VisitError → Prop where
  /-- At the end of a route the child fields do not resolve. -/
  | unknown {path : Path} (hr : plan.Route root path) (hd : (Path.nodes root path).Nodup)
    (hp : ¬plan.pruned (Path.last root path)) (h : ¬plan.Resolves (Path.last root path)) :
    Fault root path (.unknownNodeType (plan.type (Path.last root path)))
  /-- An entry at the end of a route leads back to a node on the route. -/
  | cyclic {path : Path} {e : Entry} (hr : plan.Route root path)
    (hd : (Path.nodes root path).Nodup) (hp : ¬plan.pruned (Path.last root path))
    (hl : plan.Lists (Path.last root path) e) (h : e.node ∈ Path.nodes root path) :
    Fault root (path ++ [e]) (.cyclicChild (plan.type (Path.last root path)) e.key)

/-- No route from the root leads to a node from which a route leads back to it. -/
def Acyclic (root : NodeId) : Prop :=
  ∀ path cycle, plan.Route root path → plan.Route (Path.last root path) cycle →
    Path.last (Path.last root path) cycle = Path.last root path → cycle = []

/-- The child fields of all nodes resolve to which a route leads, pruned ones apart. -/
def Resolved (root : NodeId) : Prop :=
  ∀ path, plan.Route root path → ¬plan.pruned (Path.last root path) →
    plan.Resolves (Path.last root path)

/-- Where nothing is at fault, no route repeats a node: the first entry that did would be
a fault. -/
theorem nodup_of_forall_not_fault {root : NodeId} (h : ∀ place e, ¬plan.Fault root place e)
    {path : Path} (hr : plan.Route root path) : (Path.nodes root path).Nodup := by
  -- From the end: the route without its last entry repeats no node, and the entry leads to a new
  -- one.
  induction path using List.reverseRecOn with
  | nil => exact List.nodup_singleton _
  | append_singleton path e ih =>
    obtain ⟨hr, hp, hl, -⟩ := (plan.route_append root path [e]).1 hr
    have hd := ih hr
    rw [Path.nodes_append, List.nodup_append]
    refine ⟨hd, List.nodup_singleton _, fun a ha b hb => ?_⟩
    rintro rfl
    cases List.mem_singleton.1 hb
    exact h _ _ (.cyclic hr hd hp hl ha)

theorem forall_not_fault_iff (root : NodeId) :
    (∀ place e, ¬plan.Fault root place e) ↔ plan.Acyclic root ∧ plan.Resolved root := by
  constructor
  · intro h
    refine ⟨fun path cycle hr hc hlast => ?_, fun path hr hp => ?_⟩
    · by_contra hne
      have hd := plan.nodup_of_forall_not_fault h ((plan.route_append root path cycle).2 ⟨hr, hc⟩)
      rw [Path.nodes_append, List.nodup_append] at hd
      exact hd.2.2 _ (Path.last_mem_nodes root path) _ (Path.last_mem_of_ne_nil hne _) hlast.symm
    · by_contra hn
      exact h _ _ (.unknown hr (plan.nodup_of_forall_not_fault h hr) hp hn)
  · rintro ⟨hacyclic, hresolved⟩ place e hfault
    cases hfault with
    | unknown hr _ hp h => exact h (hresolved _ hr hp)
    | @cyclic path e hr _ hp hl h =>
      -- The part of the route from the node on which the entry leads back to, and the entry.
      obtain ⟨front, back, rfl, hfront⟩ := Path.exists_append_of_mem_nodes h
      obtain ⟨hrf, hrb⟩ := (plan.route_append root front back).1 hr
      rw [Path.last_append] at hp hl
      have hcycle := hacyclic front (back ++ [e]) hrf
        ((plan.route_append _ back [e]).2 ⟨hrb, hp, hl, trivial⟩)
        (by rw [Path.last_append, hfront]; rfl)
      simp at hcycle

/-! ## The stops from a root -/

theorem mem_itinerary {root : NodeId} {x : Stop} :
    x ∈ plan.itinerary root ↔ ∃ path y, plan.Route root path ∧ (Path.nodes root path).Nodup ∧
      plan.Here (Path.above [] root path) (Path.last root path) y ∧ x = y.under path := by
  unfold itinerary
  rw [plan.mem_stops List.not_mem_nil]
  constructor
  · rintro ⟨path, y, -, hr, hc, hy, rfl⟩
    exact ⟨path, y, hr, Path.clear_nil_iff.1 hc, hy, rfl⟩
  · rintro ⟨path, y, hr, hd, hy, rfl⟩
    have hc := Path.clear_nil_iff.2 hd
    have hlen := plan.length_le_remaining path [] root hr hc
    rw [remaining_nil] at hlen
    exact ⟨path, y, Nat.lt_succ_of_le hlen, hr, hc, hy, rfl⟩

theorem call_mem_itinerary {root : NodeId} {path : Path} :
    .call path ∈ plan.itinerary root ↔ plan.Route root path ∧ (Path.nodes root path).Nodup ∧
      plan.handled (Path.last root path) := by
  rw [mem_itinerary]
  constructor
  · rintro ⟨path', y, hr, hd, hy, hx⟩
    cases hy with
    | call h =>
      simp only [Stop.under, List.append_nil, Stop.call.injEq] at hx
      subst hx
      exact ⟨hr, hd, h⟩
    | unresolved => cases hx
    | back => cases hx
  · rintro ⟨hr, hd, h⟩
    exact ⟨path, .call [], hr, hd, .call h, by simp [Stop.under]⟩

theorem fault_mem_itinerary {root : NodeId} {place : Path} {error : VisitError} :
    .fault place error ∈ plan.itinerary root ↔ plan.Fault root place error := by
  rw [mem_itinerary]
  constructor
  · rintro ⟨path, y, hr, hd, hy, hx⟩
    cases hy with
    | call h => cases hx
    | unresolved hp hk =>
      simp only [Stop.under, List.append_nil, Stop.fault.injEq] at hx
      obtain ⟨rfl, rfl⟩ := hx
      -- Child fields fail to resolve for one reason only, a type that is not known.
      rw [(Options.resolveKeys_eq_error_iff.1 hk).2.2]
      refine .unknown hr hd hp ?_
      rintro ⟨keys, hk'⟩
      rw [hk] at hk'; cases hk'
    | back hp hl h =>
      simp only [Stop.under, Stop.fault.injEq] at hx
      obtain ⟨rfl, rfl⟩ := hx
      exact .cyclic hr hd hp hl (by simpa using (Path.mem_above path [] root).1 h)
  · intro h
    cases h with
    | unknown hr hd hp h =>
      cases hk : plan.options.resolveKeys plan.heap (Path.last root place)
          (plan.type (Path.last root place)) with
      | ok keys => exact (h ⟨keys, hk⟩).elim
      | error e =>
        refine ⟨place, .fault [] e, hr, hd, .unresolved hp hk, ?_⟩
        rw [(Options.resolveKeys_eq_error_iff.1 hk).2.2, Stop.under, List.append_nil]
    | @cyclic path e hr hd hp hl h =>
      exact ⟨path, _, hr, hd, .back hp hl ((Path.mem_above path [] root).2 (.inl h)), rfl⟩

/-- The calls before the first fault stand in the order of their paths. -/
theorem pairwise_calls (root : NodeId) :
    (Stop.calls (plan.itinerary root)).Pairwise Path.Before := by
  have hsub : ((Stop.calls (plan.itinerary root)).map Stop.call).Sublist (plan.itinerary root) := by
    rcases Stop.eq_calls_or_fault (plan.itinerary root) with ⟨-, h⟩ | ⟨_, _, _, -, h⟩
    · exact (List.Sublist.refl _).trans (by rw [← h])
    · conv_rhs => rw [h]
      exact List.sublist_append_left _ _
  have hpair := List.pairwise_map.1 ((plan.pairwise_stops _ [] root).sublist hsub)
  refine hpair.imp fun {p q} h => ?_
  rcases h with h | ⟨_, _, -, h⟩
  · exact h
  · cases h

theorem itinerary_ok {root : NodeId} (h : Stop.outcome (plan.itinerary root) = .ok ()) :
    plan.itinerary root = (Stop.calls (plan.itinerary root)).map .call := by
  rcases Stop.eq_calls_or_fault (plan.itinerary root) with ⟨-, ha⟩ | ⟨_, _, _, ho, -⟩
  · exact ha
  · rw [h] at ho; cases ho

/-- A walk succeeds if there is no fault at all. -/
theorem outcome_ok_iff (root : NodeId) :
    Stop.outcome (plan.itinerary root) = .ok () ↔ ∀ place e, ¬plan.Fault root place e := by
  constructor
  · intro h place e hfault
    have hmem := plan.fault_mem_itinerary.2 hfault
    rw [plan.itinerary_ok h] at hmem
    simp at hmem
  · intro h
    rcases Stop.eq_calls_or_fault (plan.itinerary root) with ⟨ho, -⟩ | ⟨place, e, _, -, ha⟩
    · exact ho
    · refine (h place e (plan.fault_mem_itinerary.1 ?_)).elim
      rw [ha]; simp

theorem mem_calls_of_ok {root : NodeId} (h : Stop.outcome (plan.itinerary root) = .ok ())
    (path : Path) :
    path ∈ Stop.calls (plan.itinerary root) ↔ plan.Route root path ∧
      (Path.nodes root path).Nodup ∧ plan.handled (Path.last root path) := by
  rw [← plan.call_mem_itinerary]
  conv_rhs => rw [plan.itinerary_ok h]
  simp

/-- A walk that fails ends with the first fault, and has made the calls up to there. -/
theorem first_fault {root : NodeId} {error : VisitError}
    (h : Stop.outcome (plan.itinerary root) = .error error) :
    ∃ place, plan.Fault root place error ∧
      (∀ other error', plan.Fault root other error' →
        other = place ∧ error' = error ∨ Path.Before place other) ∧
      ∀ path, path ∈ Stop.calls (plan.itinerary root) ↔ plan.Route root path ∧
        (Path.nodes root path).Nodup ∧ plan.handled (Path.last root path) ∧
        (path = place ∨ Path.Before path place) := by
  rcases Stop.eq_calls_or_fault (plan.itinerary root) with ⟨ho, -⟩ | ⟨place, e, rest, ho, ha⟩
  · rw [h] at ho; cases ho
  rw [h] at ho
  cases ho
  -- The stops before the fault are calls, and their order puts all the others after it.
  have hsorted := plan.pairwise_stops (plan.heap.size + 1) [] root
  change (plan.itinerary root).Pairwise _ at hsorted
  rw [ha] at hsorted
  obtain ⟨-, hrest, hcross⟩ := List.pairwise_append.1 hsorted
  have hafter : ∀ x ∈ rest, Path.Before place x.path := fun x hx => by
    rcases (List.pairwise_cons.1 hrest).1 x hx with hb | ⟨_, _, hb, -⟩
    · exact hb
    · cases hb
  have hmem : ∀ x, x ∈ plan.itinerary root ↔
      x ∈ (Stop.calls (plan.itinerary root)).map .call ∨ x = .fault place error ∨ x ∈ rest := by
    intro x
    conv_lhs => rw [ha]
    simp
  refine ⟨place, plan.fault_mem_itinerary.1 ((hmem _).2 (.inr (.inl rfl))), ?_, fun path => ?_⟩
  · intro other error' hfault
    rcases (hmem _).1 (plan.fault_mem_itinerary.2 hfault) with hc | hc | hc
    · simp at hc
    · cases hc; exact .inl ⟨rfl, rfl⟩
    · exact .inr (hafter _ hc)
  · constructor
    · intro hp
      have hcall : Stop.call path ∈ (Stop.calls (plan.itinerary root)).map .call :=
        List.mem_map_of_mem hp
      obtain ⟨hr, hd, hh⟩ := plan.call_mem_itinerary.1 ((hmem _).2 (.inl hcall))
      refine ⟨hr, hd, hh, ?_⟩
      rcases hcross _ hcall _ List.mem_cons_self with hb | ⟨_, _, hb, hb'⟩
      · exact .inr hb
      · cases hb; cases hb'; exact .inl rfl
    · rintro ⟨hr, hd, hh, hle⟩
      rcases (hmem _).1 (plan.call_mem_itinerary.2 ⟨hr, hd, hh⟩) with hc | hc | hc
      · simpa using hc
      · cases hc
      · have hb : Path.Before place path := hafter _ hc
        rcases hle with rfl | hle
        · exact (Path.before_irrefl _ hb).elim
        · exact (Path.before_asymm hb hle).elim

/-- If entries lead to later nodes only, there is no cycle. -/
theorem acyclic_of_ascending (h : ∀ n e, plan.Lists n e → n < e.node) (root : NodeId) :
    plan.Acyclic root := by
  have hle : ∀ (path : Path) (n : NodeId), plan.Route n path → n ≤ Path.last n path := by
    intro path
    induction path with
    | nil => exact fun n _ => Nat.le_refl n
    | cons e path ih =>
      intro n hr
      exact Nat.le_trans (Nat.le_of_lt (h n e hr.2.1)) (ih e.node hr.2.2)
  rintro path (_ | ⟨e, cycle⟩) - hc hlast
  · rfl
  · have hlt := h _ e hc.2.1
    have hge := hle cycle e.node hc.2.2
    rw [Path.last_cons] at hlast
    exact (Nat.not_lt_of_le (hlast ▸ hge) hlt).elim

end Plan

/-! ## Walks -/

/-- If no cycle can be reached and the child fields of all nodes on the way resolve, a walk
succeeds. The handlers are called for the ends of all routes from the root that have one, in the
order of the routes, and the depth of a call is the length of its route. -/
theorem visit_calls_all_routes {σ α : Type} (plan : Plan α) (recorder : Recorder σ plan)
    (root : NodeId) (host : σ) (hacyclic : plan.Acyclic root) (hresolved : plan.Resolved root) :
    ∃ calls : List Path, calls.Pairwise Path.Before ∧
      (∀ path, path ∈ calls ↔ plan.Route root path ∧ plan.handled (Path.last root path)) ∧
      ∀ limit ≥ 2 * (plan.heap.size + 1), ∃ host',
        walk limit recorder.setting .visit (some root) ⟨plan.heap, host⟩ =
            some (.ok (), ⟨plan.heap, host'⟩) ∧
          recorder.log host' = recorder.log host ++
            calls.map fun path => (Path.last root path, path.length) := by
  have hno := (plan.forall_not_fault_iff root).2 ⟨hacyclic, hresolved⟩
  have hok := (plan.outcome_ok_iff root).2 hno
  refine ⟨Stop.calls (plan.itinerary root), plan.pairwise_calls root, fun path => ?_, ?_⟩
  · rw [plan.mem_calls_of_ok hok]
    constructor
    · rintro ⟨hr, -, hh⟩; exact ⟨hr, hh⟩
    · rintro ⟨hr, hh⟩; exact ⟨hr, plan.nodup_of_forall_not_fault hno hr, hh⟩
  · intro limit hl
    have hwalk := walk_follows recorder root host hl
    rwa [hok] at hwalk

/-- A node that is shared: the root holds it in a list, and through another node that it holds
twice. -/
def sharing : Plan Bool where
  heap := ⟨#[
    ⟨[("type", .string "Pair"), ("left", .node 1), ("right", .array [.node 2, .null, .node 1])],
      by simp⟩,
    ⟨[("type", .string "Wrap"), ("inner", .node 2)], by simp⟩,
    ⟨[("type", .string "Leaf"), ("name", .string "x")], by simp⟩]⟩
  options :=
    { fallback := .iteration
      overrides := .ofList [("Pair", ["left", "right"]), ("Wrap", ["inner"]), ("Leaf", [])] }
  handlers := .ofList [("Wrap", false), ("Leaf", true)]
  prunes handler _ := handler

theorem visit_calls_all_routes_sharing :
    sharing.Acyclic 0 ∧ sharing.Resolved 0 ∧ ∃ calls : List Path, calls.Pairwise Path.Before ∧
      (∀ path, path ∈ calls ↔ sharing.Route 0 path ∧ sharing.handled (Path.last 0 path)) ∧
      ∀ limit ≥ 2 * (sharing.heap.size + 1), ∃ host',
        walk limit sharing.scribe.setting .visit (some 0) ⟨sharing.heap, []⟩ =
            some (.ok (), ⟨sharing.heap, host'⟩) ∧
          sharing.scribe.log host' = sharing.scribe.log [] ++
            calls.map fun path => (Path.last 0 path, path.length) := by
  have hacyclic : sharing.Acyclic 0 := by
    refine sharing.acyclic_of_ascending (fun n e h => ?_) 0
    have hn : n < 3 := lt_size_of_lists h
    have he : e ∈ sharing.options.entries sharing.heap n := mem_entries.2 h
    have hall : ∀ m < 3, ∀ x ∈ sharing.options.entries sharing.heap m, m < x.node := by decide
    exact hall n hn e he
  have hresolved : sharing.Resolved 0 := by
    intro path _ _
    unfold Plan.Resolves Options.resolveKeys
    split
    · exact ⟨_, rfl⟩
    · exact ⟨_, rfl⟩
  exact ⟨hacyclic, hresolved,
    visit_calls_all_routes sharing sharing.scribe 0 [] hacyclic hresolved⟩

/-- A walk returns on every heap. It succeeds just if no cycle can be reached and the child fields
of all nodes on the way resolve. Otherwise it ends with the first fault in the order of the routes,
and it has called the handlers on the way there: those for the ends of the routes that come before
the fault and repeat no node, and the handler of the very node whose child fields do not resolve. -/
theorem visit_ends_with_first_fault {σ α : Type} (plan : Plan α) (recorder : Recorder σ plan)
    (root : NodeId) (host : σ) :
    ∃ (outcome : Outcome) (calls : List Path),
      (∀ limit ≥ 2 * (plan.heap.size + 1), ∃ host',
        walk limit recorder.setting .visit (some root) ⟨plan.heap, host⟩ =
            some (outcome, ⟨plan.heap, host'⟩) ∧
          recorder.log host' = recorder.log host ++
            calls.map fun path => (Path.last root path, path.length)) ∧
      calls.Pairwise Path.Before ∧
      (outcome = .ok () ↔ plan.Acyclic root ∧ plan.Resolved root) ∧
      (outcome = .ok () → ∀ path, path ∈ calls ↔ plan.Route root path ∧
        (Path.nodes root path).Nodup ∧ plan.handled (Path.last root path)) ∧
      ∀ error, outcome = .error error → ∃ place, plan.Fault root place error ∧
        (∀ other error', plan.Fault root other error' →
          other = place ∧ error' = error ∨ Path.Before place other) ∧
        ∀ path, path ∈ calls ↔ plan.Route root path ∧ (Path.nodes root path).Nodup ∧
          plan.handled (Path.last root path) ∧ (path = place ∨ Path.Before path place) := by
  refine ⟨Stop.outcome (plan.itinerary root), Stop.calls (plan.itinerary root),
    fun limit hl => walk_follows recorder root host hl, plan.pairwise_calls root, ?_,
    plan.mem_calls_of_ok, fun error h => plan.first_fault h⟩
  rw [plan.outcome_ok_iff, plan.forall_not_fault_iff]

end SyntaxWalk
