/-
Lifetimes of nodes. While a program does its errands, and its handlers what they do in walks, owners
are counted: the handles of the program, those of the calls under way, and the owning edges of
living nodes. At every moment the nodes that are alive are those with a count.
-/
import SyntaxWalk.Proofs.Clients
import SyntaxWalk.Proofs.Guarding

namespace SyntaxWalk

variable {ρ α : Type}

/-! ## What calls hold -/

theorem Hold.nodes_node (id : NodeId) (held : List Hold) :
    nodes (.node id :: held) = [id] ++ nodes held := rfl

namespace Store

variable {s : Store} {world : World (Client ρ)} {held more : List Hold} {ids : List NodeId}
  {id : NodeId}

/-- Nodes that are held in addition are counted in addition. -/
theorem fits_iff (hm : Hold.nodes more = ids ++ Hold.nodes held) :
    s.Fits world more ↔ s.Has world.heap (ids + (world.host.handles + Hold.nodes held)) := by
  unfold Fits
  rw [hm, ← Multiset.coe_add, add_left_comm]

/-- A call that ends gives up what it held. -/
theorem Fits.release (h : s.Fits world more) (hm : Hold.nodes more = ids ++ Hold.nodes held) :
    ∃ t, s.Steps t ∧ t.Fits world held :=
  ((fits_iff hm).1 h).dropAll

/-- A call may be lent a node that is held already. -/
theorem Fits.lend (h : s.Fits world held) (hid : id ∈ world.host.handles ++ Hold.nodes held) :
    ∃ t, s.Steps t ∧ t.Fits world (.node id :: held) := by
  obtain ⟨t, hst, ht⟩ := h.clone (by rwa [Multiset.coe_add])
  exact ⟨t, hst, (fits_iff (Hold.nodes_node id held)).2 ht⟩

/-- A field may be read of a node that calls under way hold. -/
theorem Fits.read (h : s.Fits world held) (hid : id ∈ Hold.nodes held) {places : List Slot}
    (hown : ∀ n ∈ places.filterMap Slot.node?, world.heap.Owns id n) :
    ∃ t, s.Steps t ∧ t.Fits world (.slots places :: held) := by
  have hmem : id ∈ (world.host.handles : Multiset NodeId) + Hold.nodes held :=
    Multiset.mem_add.2 (.inr (Multiset.mem_coe.2 hid))
  obtain ⟨t, hst, ht⟩ := Has.fetchAll hmem h hown
  exact ⟨t, hst, (fits_iff rfl).2 ht⟩

end Store

/-! ## What a field is read as -/

namespace Trace

/-! ## Counts along a run -/

/-- Counting goes from one store to another one and passes moments on its way. -/
inductive Passes : Store → List (Moment (Client ρ) α Walker) → Store → Prop where
  | done {s t} (h : s.Steps t) : Passes s [] t
  | next {s t u m ms} (h : s.Steps t) (hm : t.Fits m.state.world m.held) (hrest : Passes t ms u) :
    Passes s (m :: ms) u

section

variable {s t u : Store} {ms ns : List (Moment (Client ρ) α Walker)}

theorem Passes.head (h : s.Steps t) (hrest : Passes t ms u) : Passes s ms u := by
  cases hrest with
  | done h' => exact .done (h.trans h')
  | next h' hm hrest => exact .next (h.trans h') hm hrest

theorem Passes.append (h : Passes s ms t) (h' : Passes t ns u) : Passes s (ms ++ ns) u := by
  induction h with
  | done h => exact h'.head h
  | next h hm _ ih => exact .next h hm (ih h')

end

/-- The moments of a run are passed, and in the world in which it ends the given nodes are held. -/
def Tracked {β : Type} (ends : β → World (Client ρ)) (held : List Hold) (s : Store)
    (x : Run (Client ρ) α Walker β) : Prop :=
  ∃ t, Passes s x.moments t ∧ ∀ b, x.result = some b → t.Fits (ends b) held

section

variable {β γ : Type} {ends : β → World (Client ρ)} {ends' : γ → World (Client ρ)}
  {held more : List Hold} {s : Store} {x : Run (Client ρ) α Walker β}

theorem Tracked.pure {b : β} (h : s.Fits (ends b) held) :
    Tracked ends held s (.pure b : Run (Client ρ) α Walker β) :=
  ⟨s, .done .refl, fun _ hr => by cases hr; exact h⟩

theorem Tracked.mark {m : Moment (Client ρ) α Walker} (hm : s.Fits m.state.world m.held)
    (h : Tracked ends held s x) : Tracked ends held s (x.mark m) := by
  obtain ⟨t, hst, ht⟩ := h
  exact ⟨t, .next .refl hm hst, ht⟩

theorem Tracked.head {t : Store} (hst : s.Steps t) (h : Tracked ends held t x) :
    Tracked ends held s x := by
  obtain ⟨u, htu, hu⟩ := h
  exact ⟨u, htu.head hst, hu⟩

/-- Counting goes on where the first run ended. -/
theorem Tracked.bind {f : β → Run (Client ρ) α Walker γ} (h : Tracked ends more s x)
    (hf : ∀ (t : Store) b, t.Fits (ends b) more → Tracked ends' held t (f b)) :
    Tracked ends' held s (x.bind f) := by
  obtain ⟨t, hst, ht⟩ := h
  cases hr : x.result with
  | none =>
    refine ⟨t, by rwa [moments_bind_of_none hr], fun b hb => ?_⟩
    rw [Run.result_bind, hr] at hb
    cases hb
  | some b =>
    obtain ⟨u, htu, hu⟩ := hf t b (ht b hr)
    refine ⟨u, by rw [moments_bind_of_result hr]; exact hst.append htu, fun c hc => ?_⟩
    rw [Run.result_bind, hr] at hc
    exact hu c hc

end

/-- The moments of a call are passed, and it ends with the given nodes held. -/
abbrev Accounted (held : List Hold) (s : Store) (x : CallRun (Client ρ) α Walker) : Prop :=
  Tracked (fun r => r.2.world) held s x

/-- After a failure, what is held in addition is given up. -/
theorem Accounted.thenOk {held more : List Hold} {s : Store} {x : CallRun (Client ρ) α Walker}
    {next : State (Client ρ) Walker → CallRun (Client ρ) α Walker} (h : Accounted more s x)
    (hnext : ∀ (t : Store) st, t.Fits st.world more → Accounted held t (next st))
    (hstop : ∀ (t : Store) (st : State (Client ρ) Walker), t.Fits st.world more →
      ∃ u, t.Steps u ∧ u.Fits st.world held) :
    Accounted held s (x.thenOk next) := by
  refine h.bind fun t r ht => ?_
  obtain ⟨outcome, st⟩ := r
  cases outcome with
  | ok _ => exact hnext t st ht
  | error e =>
    obtain ⟨u, htu, hu⟩ := hstop t st ht
    exact .head htu (.pure hu)

/-! ## Step by step -/

variable {behaviour : Behaviour ρ α}

section

variable {call : Call (Client ρ) α Walker} {options : Options} {handlers : Handlers α}
  {held : List Hold} {id : NodeId} {st : State (Client ρ) Walker} {s : Store}

end

variable {s : Store} {world : World (Client ρ)}

section

variable {t : Store} {ms : List (Moment (Client ρ) α Walker)}

end

end Trace

namespace Trace

end Trace

end SyntaxWalk
