/-
Handlers that only write down that they were called and go on at the children of their node make no
difference to a walk. The call of such a handler and the expansion that it asks for do what the
walker does for a node without a handler, only nested one call deeper. What is written down goes to
a log that the other handlers do not see, and so does what is told of calls.

Two runs are compared by what can be seen of them apart from the log. A run that nests too deep is
compared by the calls it has made so far.
-/
import SyntaxWalk.Proofs.CycleCheck
import SyntaxWalk.Proofs.Heaps

namespace SyntaxWalk

variable {σ ρ α : Type}

/-! ## Hosts with a log -/

/-- What handlers see of a world in which the host keeps a log. -/
def World.seen (world : World (σ × ρ)) : World σ := ⟨world.heap, world.host.1⟩

/-- A script that does not see the log. -/
def Script.besideLog : Script σ α → Script (σ × ρ) (Option α)
  | .done outcome => .done outcome
  | .inspect next => .inspect fun world alive => (next world.seen alive).besideLog
  | .change f next =>
    .change (fun world => ⟨(f world.seen).heap, (f world.seen).host, world.host.2⟩) next.besideLog
  | .depth next => .depth fun depth => (next depth).besideLog
  | .options next => .options fun options => (next options).besideLog
  | .go mode node next => .go mode node fun outcome => (next outcome).besideLog
  | .walk mode handlers node next =>
    .walk mode (handlers.map some) node fun outcome => (next outcome).besideLog

/-- A host, the options under which it walks, and the log that it keeps. -/
structure Logging (σ ρ α : Type) where
  host : Host σ α
  options : Options
  /-- Logs what a walk tells. -/
  tell : Notice → ρ → ρ
  /-- Logs a call for a node at a depth. -/
  record : Heap → NodeId → Nat → ρ → ρ

namespace Logging

/-- What a handler does that logs its call and goes on at the children of its node. -/
def passThrough (logging : Logging σ ρ α) (id : NodeId) : Script (σ × ρ) (Option α) :=
  .depth fun depth =>
    .change (fun world =>
        ⟨world.heap, world.host.1, logging.record world.heap id depth world.host.2⟩)
      (.go .children (some id) .done)

/-- What becomes of the state that handlers see when a walk tells something. They do not see that a
handler is called. -/
def hear (logging : Logging σ ρ α) (notice : Notice) (heap : Heap) (s : σ) : σ :=
  match notice with
  | .dispatching _ => s
  | _ => logging.host.notify notice heap s

/-- The setting of a walk: `none` is the handler that logs its call and goes on. -/
def setting (logging : Logging σ ρ α) (handlers : Handlers (Option α)) :
    Walk.Setting (σ × ρ) (Option α) where
  host.behave handler id :=
    match handler with
    | some handler => (logging.host.behave handler id).besideLog
    | none => logging.passThrough id
  host.notify notice heap s := (logging.hear notice heap s.1, logging.tell notice s.2)
  options := logging.options
  handlers := handlers

theorem options_setting (logging : Logging σ ρ α) (handlers : Handlers (Option α)) :
    (logging.setting handlers).options = logging.options := rfl

end Logging

/-- Handlers, with one that logs its call and goes on for each of the given types that has none. -/
def Handlers.withPassThrough (handlers : Handlers α) (types : List String) : Handlers (Option α) :=
  layeredOver (handlers.map some) (.ofList (types.map fun type => (type, none)))

/-- A pass-through handler is found only where there is no genuine one. -/
theorem Handlers.get?_withPassThrough (handlers : Handlers α) (types : List String) (type : String) :
    (handlers.withPassThrough types).get? type =
      match handlers.get? type with
      | some handler => some (some handler)
      | none => if type ∈ types then some none else none := by
  unfold withPassThrough layeredOver extend Record.ofList
  rw [Record.get?_insertAll type _ _ (handlers.map some).distinct, Record.get?_insertAll_const]
  show ((handlers.map some).get? type).or _ = _
  rw [Record.get?_map]
  cases handlers.get? type <;> simp

/-- Two sets differ only in handlers that log their call and go on. -/
def Handlers.SameGenuine (handlers handlers' : Handlers (Option α)) : Prop :=
  ∀ type, (handlers.get? type).join = (handlers'.get? type).join

theorem Handlers.sameGenuine_withPassThrough (handlers : Handlers α) (types : List String) :
    SameGenuine (handlers.map some) (handlers.withPassThrough types) := by
  intro type
  rw [get?_withPassThrough, Record.get?_map]
  cases handlers.get? type with
  | some handler => rfl
  | none => by_cases h : type ∈ types <;> simp [h]

/-! ## Held nodes -/

/-- The same nodes are held. -/
def SameHeld (held held' : List Hold) : Prop := ∀ id, id ∈ Hold.nodes held ↔ id ∈ Hold.nodes held'

theorem SameHeld.cons {held held' : List Hold} (h : SameHeld held held') (hold : Hold) :
    SameHeld (hold :: held) (hold :: held') := by
  intro id
  unfold Hold.nodes
  rw [List.flatMap_cons, List.flatMap_cons, List.mem_append, List.mem_append]
  exact or_congr_right (h id)

/-- Holding a node twice keeps nothing more alive. -/
theorem SameHeld.alive {held held' : List Hold} (h : SameHeld held held') (heap : Heap) :
    Walk.alive heap held = Walk.alive heap held' := by
  funext handles
  refine heap.isAlive_congr fun id => ?_
  rw [List.mem_append, List.mem_append, h id]

namespace Trace

/-! ## What can be seen of a run apart from the log -/

/-- The calls of handlers that do more than log and go on. -/
def genuine (calls : List (Option α × NodeId × Nat)) : List (α × NodeId × Nat) :=
  calls.filterMap fun (handler, node, depth) => handler.map (·, node, depth)

/-- The call of a handler that does more than log and go on. -/
def Moment.genuine? (m : Moment (σ × ρ) (Option α) Walker) : Option (α × NodeId × Nat) :=
  match m.deed with
  | .call (some handler) node => some (handler, node, m.state.book.depth)
  | _ => none

/-- The calls of handlers that do more than log and go on, and how a run ends. -/
structure Digest (σ α : Type) where
  calls : List (α × NodeId × Nat)
  result : Option (Outcome × World σ × Walker)

/-- The digest of a run. -/
def CallRun.digest (x : CallRun (σ × ρ) (Option α) Walker) : Digest σ α where
  calls := x.moments.filterMap Moment.genuine?
  result := x.result.map fun (outcome, s) => (outcome, s.world.seen, s.book)

/-- Two states differ in nothing but the log. -/
inductive SameSeen : State (σ × ρ) Walker → State (σ × ρ) Walker → Prop where
  | mk (heap : Heap) (s : σ) (r r' : ρ) (w : Walker) :
    SameSeen ⟨⟨heap, s, r⟩, w⟩ ⟨⟨heap, s, r'⟩, w⟩

/-- The second run goes on where the first one nests too deep, and otherwise they are the same. -/
def Approx (x y : CallRun (σ × ρ) (Option α) Walker) : Prop :=
  x.digest = y.digest ∨ x.digest.result = none ∧ x.digest.calls <+: y.digest.calls

section

variable {x y : CallRun (σ × ρ) (Option α) Walker} {m m' : Moment (σ × ρ) (Option α) Walker}

theorem digest_skip (hm : m.genuine? = none) : CallRun.digest (x.mark m) = x.digest := by
  unfold CallRun.digest Run.mark
  rw [List.filterMap_cons_none hm]

/-- The digest of two runs is that of the second after that of the first, if the first ends. -/
theorem digest_bind (f : Outcome × State (σ × ρ) Walker → CallRun (σ × ρ) (Option α) Walker) :
    CallRun.digest (x.bind f) = match x.result with
      | none => x.digest
      | some r => ⟨x.digest.calls ++ (f r).digest.calls, (f r).digest.result⟩ := by
  obtain ⟨ms, _ | r⟩ := x
  · simp [CallRun.digest, Run.bind]
  · simp [CallRun.digest, Run.bind]

theorem Approx.calls (h : Approx x y) : x.digest.calls <+: y.digest.calls := by
  rcases h with h | ⟨-, hprefix⟩
  · exact h ▸ List.prefix_rfl
  · exact hprefix

theorem approx_tooDeep (y : CallRun (σ × ρ) (Option α) Walker) : Approx ⟨[], none⟩ y :=
  .inr ⟨rfl, List.nil_prefix⟩

theorem approx_pure (outcome : Outcome) (heap : Heap) (s : σ) (r r' : ρ) (w : Walker) :
    Approx (.pure (outcome, ⟨⟨heap, s, r⟩, w⟩) : CallRun (σ × ρ) (Option α) Walker)
      (.pure (outcome, ⟨⟨heap, s, r'⟩, w⟩)) :=
  .inl rfl

theorem Approx.skip (h : Approx x y) (hm : m.genuine? = none) (hm' : m'.genuine? = none) :
    Approx (x.mark m) (y.mark m') := by
  unfold Approx
  rw [digest_skip hm, digest_skip hm']
  exact h

theorem Approx.mark {call : α × NodeId × Nat} (hm : m.genuine? = some call)
    (hm' : m'.genuine? = some call) (h : Approx x y) : Approx (x.mark m) (y.mark m') := by
  have hdigest : ∀ {m : Moment (σ × ρ) (Option α) Walker} {x : CallRun (σ × ρ) (Option α) Walker},
      m.genuine? = some call →
      CallRun.digest (x.mark m) = ⟨call :: x.digest.calls, x.digest.result⟩ := by
    intro m x hm
    unfold CallRun.digest Run.mark
    rw [List.filterMap_cons_some hm]
  unfold Approx
  rw [hdigest hm, hdigest hm']
  rcases h with h | ⟨hnone, hprefix⟩
  · exact .inl (by rw [h])
  · exact .inr ⟨hnone, (List.prefix_cons_inj call).2 hprefix⟩

/-- A run may go on where the other one breaks off, so what follows is compared only if both have
ended. -/
theorem Approx.bind {f g : Outcome × State (σ × ρ) Walker → CallRun (σ × ρ) (Option α) Walker}
    (h : Approx x y) (hf : ∀ outcome heap s r r' w,
      Approx (f (outcome, ⟨⟨heap, s, r⟩, w⟩)) (g (outcome, ⟨⟨heap, s, r'⟩, w⟩))) :
    Approx (x.bind f) (y.bind g) := by
  obtain ⟨xs, _ | ⟨outcome, ⟨⟨heap, s, r⟩, w⟩⟩⟩ := x
  · -- The first run nests too deep, so nothing follows on it.
    refine .inr ⟨rfl, ?_⟩
    rw [digest_bind, digest_bind]
    refine h.calls.trans ?_
    split
    · exact List.prefix_rfl
    · exact List.prefix_append _ _
  · -- The first run ends, and the second one ends in the same way but for the log.
    obtain ⟨ys, yr⟩ := y
    obtain h : CallRun.digest ⟨xs, _⟩ = CallRun.digest ⟨ys, yr⟩ := h.resolve_right fun h => by
      cases h.1
    have hcalls : xs.filterMap Moment.genuine? = ys.filterMap Moment.genuine? :=
      congrArg Digest.calls h
    obtain ⟨r', rfl⟩ : ∃ r', yr = some (outcome, ⟨⟨heap, s, r'⟩, w⟩) := by
      have hresult := congrArg Digest.result h
      obtain _ | ⟨_, ⟨⟨_, _, r'⟩, _⟩⟩ := yr
      · cases hresult
      · cases hresult
        exact ⟨r', rfl⟩
    unfold Approx
    rw [digest_bind, digest_bind]
    show (Digest.mk (xs.filterMap Moment.genuine? ++ _) _ = ⟨ys.filterMap Moment.genuine? ++ _, _⟩) ∨
      _ ∧ xs.filterMap Moment.genuine? ++ _ <+: ys.filterMap Moment.genuine? ++ _
    rw [hcalls]
    rcases hf outcome heap s r r' w with hk | ⟨hnone, hprefix⟩
    · exact .inl (by rw [hk])
    · exact .inr ⟨hnone, (List.prefix_append_right_inj _).2 hprefix⟩

theorem Approx.thenOk {f g : State (σ × ρ) Walker → CallRun (σ × ρ) (Option α) Walker}
    (h : Approx x y) (hf : ∀ heap s r r' w,
      Approx (f ⟨⟨heap, s, r⟩, w⟩) (g ⟨⟨heap, s, r'⟩, w⟩)) :
    Approx (x.thenOk f) (y.thenOk g) := by
  refine h.bind fun outcome heap s r r' w => ?_
  cases outcome with
  | error e => exact approx_pure _ _ _ _ _ _
  | ok _ => exact hf heap s r r' w

end

/-! ## Step by step -/

/-- The second answer goes on where the first one nests too deep, whatever handlers that log their
call and go on there are on both sides. The node is held when the walker is called. -/
def CallsApprox (logging : Logging σ ρ α) (call call' : Call (σ × ρ) (Option α) Walker) : Prop :=
  ∀ (handlers handlers' : Handlers (Option α)), handlers.SameGenuine handlers' →
  ∀ (held held' : List Hold), SameHeld held held' →
  ∀ (mode : Mode) (id : NodeId), id ∈ Hold.nodes held →
  ∀ (heap : Heap) (s : σ) (r r' : ρ) (w : Walker),
    Approx (call (logging.setting handlers) held mode id ⟨⟨heap, s, r⟩, w⟩)
      (call' (logging.setting handlers') held' mode id ⟨⟨heap, s, r'⟩, w⟩)

section

variable {logging : Logging σ ρ α} {call call' : Call (σ × ρ) (Option α) Walker}
  {handlers handlers' : Handlers (Option α)} {held held' : List Hold} {heap : Heap} {s : σ} {r r' : ρ}
  {w : Walker} (hc : CallsApprox logging call call') (hh : handlers.SameGenuine handlers')

include hc hh

/-- A walk that comes to the children of a node does so on both sides. -/
theorem lockstep_approx (hheld : SameHeld held held') (id : NodeId) (type : String) :
    Lockstep ⟨Walker.keeping, call, logging.setting handlers, held⟩
      ⟨Walker.keeping, call', logging.setting handlers', held'⟩ id type SameSeen
      fun _ _ => Approx where
  heap h := by cases h; rfl
  isOpen h _ := by cases h; rfl
  done h := by cases h; exact approx_pure _ _ _ _ _ _
  thenOk hx hf := hx.thenOk fun heap s r r' w => hf _ _ ⟨heap, s, r, r', w⟩
  read _ hx := hx.skip rfl rfl
  refused _ _ h _ := by
    cases h
    exact (approx_pure _ _ _ _ _ _).skip rfl rfl
  visited {_ _ _ rest _ _} _ hcand h _ := by
    cases h
    have hchild := Hold.mem_nodes_of_node? (Heap.of_mem_candidates hcand).2.2 rest held
    exact (hc _ _ hh _ _ (hheld.cons _) .visit _ hchild _ _ _ _ _).skip rfl rfl

/-- Notices go to the log, so the seen parts of the worlds stay equal. -/
theorem expand_approx (hheld : SameHeld held held') (id : NodeId) (type : String) :
    Approx (expand Walker.keeping call (logging.setting handlers) held id type ⟨⟨heap, s, r⟩, w⟩)
      (expand Walker.keeping call' (logging.setting handlers') held' id type
        ⟨⟨heap, s, r'⟩, w⟩) := by
  obtain ⟨t, ht⟩ : ∃ t, ∀ handlers r, ∃ r₂, announce (logging.setting handlers) id type
      ⟨⟨heap, s, r⟩, w⟩ = ⟨⟨heap, t, r₂⟩, w⟩ := by
    simp only [announce, logging.options_setting]
    cases logging.options.notice? id type with
    | none => exact ⟨s, fun _ r => ⟨r, rfl⟩⟩
    | some notice => exact ⟨logging.hear notice heap s, fun _ r => ⟨logging.tell notice r, rfl⟩⟩
  obtain ⟨r₂, hr₂⟩ := ht handlers r
  obtain ⟨r₂', hr₂'⟩ := ht handlers' r'
  unfold expand
  rw [hr₂, hr₂', logging.options_setting, logging.options_setting]
  refine Approx.skip ?_ rfl rfl
  dsimp only
  cases logging.options.resolveKeys heap id type with
  | error e => exact approx_pure _ _ _ _ _ _
  | ok keys =>
    have hfields := (lockstep_approx hc hh (hheld.cons (.node id)) id type).walkFields keys
      ⟨heap, t, r₂, r₂', w.enter id⟩
    exact hfields.bind fun outcome heap s r r' w => (approx_pure _ _ _ _ _ _).skip rfl rfl

/-- A script beside the log cannot read it, so it takes the same steps. -/
theorem runScript_approx (hheld : SameHeld held held') (script : Script σ α) :
    ∀ (heap : Heap) (s : σ) (r r' : ρ) (w : Walker),
      Approx (runScript Walker.keeping call (logging.setting handlers) held script.besideLog
          ⟨⟨heap, s, r⟩, w⟩)
        (runScript Walker.keeping call' (logging.setting handlers') held' script.besideLog
          ⟨⟨heap, s, r'⟩, w⟩) := by
  induction script with
  | done outcome => intro heap s r r' w; exact (approx_pure _ _ _ _ _ _).skip rfl rfl
  | inspect next ih =>
    intro heap s r r' w
    refine Approx.skip ?_ rfl rfl
    show Approx (runScript _ _ _ _ (next ⟨heap, s⟩ (Walk.alive heap held)).besideLog _)
      (runScript _ _ _ _ (next ⟨heap, s⟩ (Walk.alive heap held')).besideLog _)
    rw [hheld.alive heap]
    exact ih _ _ _ _ _ _ _
  | change f next ih => intro heap s r r' w; exact (ih _ _ _ _ _).skip rfl rfl
  | depth next ih => intro heap s r r' w; exact (ih _ _ _ _ _ _).skip rfl rfl
  | options next ih => intro heap s r r' w; exact (ih _ _ _ _ _ _).skip rfl rfl
  | go mode node next ih =>
    intro heap s r r' w
    cases node with
    | none => exact (ih _ _ _ _ _ _).skip rfl rfl
    | some id =>
      have hcall := hc _ _ hh _ _ (hheld.cons (.node id)) mode id List.mem_cons_self heap s r r' w
      exact (hcall.bind fun outcome heap s r r' w => ih outcome heap s r r' w).skip rfl rfl
  | walk mode nested id next ih =>
    intro heap s r r' w
    have hcall := hc (nested.map some) _ (fun _ => rfl) _ _ (hheld.cons (.node id)) mode id
      List.mem_cons_self heap s r r' {}
    exact (hcall.bind fun outcome heap s r r' _ => ih outcome heap s r r' w).skip rfl rfl

end

/-! ## Runs -/

section

variable {logging : Logging σ ρ α} {handlers : Handlers (Option α)} {limit : Nat} {held : List Hold}
  {id : NodeId} {heap : Heap} {s : σ} {r : ρ} {w : Walker}

theorem run_visit_of_none (h : handlers.get? (heap.effectiveType id) = none) :
    run Walker.keeping (limit + 1) (logging.setting handlers) held .visit id ⟨⟨heap, s, r⟩, w⟩ =
      run Walker.keeping (limit + 1) (logging.setting handlers) held .children id
        ⟨⟨heap, s, r⟩, w⟩ := by
  have hget : (logging.setting handlers).handlers.get? (heap.effectiveType id) = none := h
  simp only [run, respond, hget]

/-- With a handler for its type, a node is visited by calling it. -/
theorem run_visit_of_some {handler : Option α}
    (h : handlers.get? (heap.effectiveType id) = some handler) :
    run Walker.keeping (limit + 1) (logging.setting handlers) held .visit id ⟨⟨heap, s, r⟩, w⟩ =
      .mark ⟨.call handler id, held, ⟨⟨heap, s, r⟩, w⟩⟩ (runScript Walker.keeping
        (run Walker.keeping limit) (logging.setting handlers) held
        ((logging.setting handlers).host.behave handler id)
        ⟨⟨heap, s, logging.tell (.dispatching (heap.effectiveType id)) r⟩, w⟩) := by
  have hget : (logging.setting handlers).handlers.get? (heap.effectiveType id) = some handler := h
  simp only [run, respond, hget]
  rfl

end

/-- A handler that logs its call and goes on does what the expansion of its node does. -/
theorem digest_passThrough {logging : Logging σ ρ α} (call : Call (σ × ρ) (Option α) Walker)
    (handlers : Handlers (Option α)) (held : List Hold) (id : NodeId) (heap : Heap) (s : σ) (r : ρ)
    (w : Walker) :
    CallRun.digest (runScript Walker.keeping call (logging.setting handlers) held
        (logging.passThrough id) ⟨⟨heap, s, r⟩, w⟩) =
      CallRun.digest (call (logging.setting handlers) (.node id :: held) .children id
        ⟨⟨heap, s, logging.record heap id w.depth r⟩, w⟩) := by
  unfold Logging.passThrough runScript runScript runScript
  rw [digest_skip rfl, digest_skip rfl, digest_skip rfl]
  -- All that is left to do after the expansion is to return its outcome.
  have hdone : ∀ x : CallRun (σ × ρ) (Option α) Walker,
      CallRun.digest (x.bind fun (outcome, t) => runScript Walker.keeping call
        (logging.setting handlers) held (.done outcome) t) = x.digest := by
    intro x
    rw [digest_bind]
    obtain ⟨ms, _ | ⟨outcome, t⟩⟩ := x
    · rfl
    · show Digest.mk (_ ++ []) _ = _
      rw [List.append_nil]
      rfl
  exact hdone _

/-- The visit of a node that has no handler, or one that logs its call and goes on, is an expansion
of the node, with the same nodes held. -/
theorem visit_passes {logging : Logging σ ρ α} {handlers : Handlers (Option α)} {held : List Hold}
    {id : NodeId} (hid : id ∈ Hold.nodes held) {heap : Heap}
    (hnone : (handlers.get? (heap.effectiveType id)).join = none) (limit : Nat) (s : σ) (r : ρ)
    (w : Walker) :
    ∃ limit₂ held₂ r₂, (limit₂ = limit + 1 ∨ limit₂ = limit) ∧ SameHeld held held₂ ∧
      CallRun.digest (run Walker.keeping (limit + 1) (logging.setting handlers) held .visit id
          ⟨⟨heap, s, r⟩, w⟩) =
        CallRun.digest (run Walker.keeping limit₂ (logging.setting handlers) held₂ .children id
          ⟨⟨heap, s, r₂⟩, w⟩) := by
  cases hget : handlers.get? (heap.effectiveType id) with
  | none =>
    refine ⟨limit + 1, held, r, .inl rfl, fun _ => Iff.rfl, ?_⟩
    rw [run_visit_of_none hget]
  | some handler =>
    obtain rfl : handler = none := by simpa [hget] using hnone
    have hsame : SameHeld held (.node id :: held) := fun other =>
      ⟨List.mem_cons_of_mem _, fun h => (List.mem_cons.1 h).elim (· ▸ hid) fun h => h⟩
    refine ⟨limit, .node id :: held, logging.record heap id w.depth
      (logging.tell (.dispatching (heap.effectiveType id)) r), .inr rfl, hsame, ?_⟩
    rw [run_visit_of_some hget, digest_skip rfl]
    exact digest_passThrough _ _ _ _ _ _ _ _

/-- How deep calls may nest in a run that is to go on where another one nests too deep. -/
def Covers : Mode → Nat → Nat → Prop
  | .visit, limit, limit' => 2 * limit ≤ limit'
  | .children, limit, limit' => 2 * limit ≤ limit' + 1

/-- A run goes on where another one nests too deep, if calls in it may nest twice as deep. -/
theorem run_approx (logging : Logging σ ρ α) : ∀ (limit limit' : Nat) (mode : Mode),
    Covers mode limit limit' →
    ∀ (handlers handlers' : Handlers (Option α)), handlers.SameGenuine handlers' →
    ∀ (held held' : List Hold), SameHeld held held' → ∀ (id : NodeId), id ∈ Hold.nodes held →
    ∀ (heap : Heap) (s : σ) (r r' : ρ) (w : Walker),
      Approx (run Walker.keeping limit (logging.setting handlers) held mode id ⟨⟨heap, s, r⟩, w⟩)
        (run Walker.keeping limit' (logging.setting handlers') held' mode id ⟨⟨heap, s, r'⟩, w⟩)
  | 0, _, _, _, _, _, _, _, _, _, _, _, _, _, _, _, _ => approx_tooDeep _
  | limit + 1, limit', mode, hl, handlers, handlers', hh, held, held', hheld, id, hid,
      heap, s, r, r', w => by
    -- A handler that logs and goes on takes two levels where a node without one takes one level, so
    -- the second limit has to be twice as large; for an expansion one level less is enough.
    have hc : ∀ l, 2 * limit ≤ l →
        CallsApprox logging (run Walker.keeping limit) (run Walker.keeping l) := by
      intro l hle handlers handlers' hh held held' hheld mode id hid
      exact run_approx logging limit l mode (by cases mode <;> simp only [Covers] <;> omega) _ _ hh
        _ _ hheld id hid
    have hchildren : ∀ l held held' r r', 2 * limit ≤ l → SameHeld held held' →
        Approx (run Walker.keeping (limit + 1) (logging.setting handlers) held .children id
            ⟨⟨heap, s, r⟩, w⟩)
          (run Walker.keeping (l + 1) (logging.setting handlers') held' .children id
            ⟨⟨heap, s, r'⟩, w⟩) :=
      fun l _ _ _ _ hle hheld => expand_approx (hc l hle) hh hheld id _
    cases mode with
    | children =>
      obtain ⟨l, rfl⟩ : ∃ l, limit' = l + 1 := ⟨limit' - 1, by simp only [Covers] at hl; omega⟩
      exact hchildren l _ _ _ _ (by simp only [Covers] at hl; omega) hheld
    | visit =>
      obtain ⟨l, rfl⟩ : ∃ l, limit' = l + 2 := ⟨limit' - 2, by simp only [Covers] at hl; omega⟩
      have hle : 2 * limit ≤ l := by simp only [Covers] at hl; omega
      cases hget : (handlers.get? (heap.effectiveType id)).join with
      | some handler =>
        have hget' := (hh (heap.effectiveType id)).symm.trans hget
        rw [run_visit_of_some (Option.join_eq_some_iff.1 hget),
          run_visit_of_some (Option.join_eq_some_iff.1 hget')]
        exact .mark rfl rfl (runScript_approx (hc (l + 1) (by omega)) hh hheld _ _ _ _ _ _)
      | none =>
        have hget' := (hh (heap.effectiveType id)).symm.trans hget
        obtain ⟨a, held₂, r₂, ha, hsame, hdigest⟩ := visit_passes hid hget limit s r w
        obtain ⟨b, held₂', r₂', hb, hsame', hdigest'⟩ :=
          visit_passes ((hheld id).1 hid) hget' (l + 1) s r' w
        have hheld₂ : SameHeld held₂ held₂' := fun other =>
          ((hsame other).symm.trans (hheld other)).trans (hsame' other)
        unfold Approx
        rw [hdigest, hdigest']
        -- Whether there is a handler on one side, on both or on none, two expansions are left.
        rcases ha with rfl | rfl
        · obtain ⟨l', rfl, hle'⟩ : ∃ l', b = l' + 1 ∧ 2 * limit ≤ l' := ⟨b - 1, by omega, by omega⟩
          exact hchildren l' _ _ _ _ hle' hheld₂
        · exact hc b (by omega) _ _ hh _ _ hheld₂ .children id ((hsame id).1 hid) _ _ _ _ _

/-! ## Walks -/

section

variable (limit : Nat) (setting : Walk.Setting (σ × ρ) (Option α)) (mode : Mode) (root : NodeId)
  (world : World (σ × ρ))

/-- The run of a walk. -/
def rootRun : CallRun (σ × ρ) (Option α) Walker :=
  run Walker.keeping limit setting [.node root] mode root ⟨world, {}⟩

/-- The genuine calls of a walk are those of the digest. -/
theorem genuine_calls :
    genuine (calls Walker.keeping (walk Walker.keeping limit setting mode (some root) world).moments) =
      (rootRun limit setting mode root world).digest.calls := by
  have hgenuine : ∀ ms : List (Moment (σ × ρ) (Option α) Walker),
      genuine (calls Walker.keeping ms) = ms.filterMap Moment.genuine? := by
    intro ms
    unfold genuine calls
    rw [List.filterMap_filterMap]
    congr 1
    funext m
    obtain ⟨deed, held, state⟩ := m
    cases deed with
    | call handler node => cases handler <;> rfl
    | _ => rfl
  rw [hgenuine]
  show (CallRun.inWorld (rootRun limit setting mode root world)).moments.filterMap _ = _
  obtain ⟨ms, _ | _⟩ := rootRun limit setting mode root world <;>
    simp [CallRun.inWorld, CallRun.digest, Run.bind, Run.pure]

theorem seen_walk :
    (SyntaxWalk.walk limit setting mode (some root) world).map (fun (o, v) => (o, v.seen)) =
      (rootRun limit setting mode root world).digest.result.map fun (o, v, _) => (o, v) := by
  rw [← walk_result]
  show (CallRun.inWorld (rootRun limit setting mode root world)).result.map _ = _
  obtain ⟨ms, _ | _⟩ := rootRun limit setting mode root world <;> rfl

end

/-- Two series of runs, each of which goes on where the other one nests too deep, end alike. -/
theorem digest_eq_of_approx {x y : Nat → CallRun (σ × ρ) (Option α) Walker}
    (hxy : ∀ l l', 2 * l ≤ l' → Approx (x l) (y l')) (hyx : ∀ l l', 2 * l ≤ l' → Approx (y l) (x l'))
    {l l' : Nat} (hx : (x l).digest.result ≠ none) (hy : (y l').digest.result ≠ none) :
    (x l).digest = (y l').digest := by
  have hfirst : (x l).digest = (y (2 * l)).digest :=
    (hxy l (2 * l) (Nat.le_refl _)).resolve_right fun h => hx h.1
  have hnext : (y (2 * l)).digest = (x (4 * l + 2 * l')).digest :=
    (hyx (2 * l) _ (by omega)).resolve_right fun h => hx (hfirst ▸ h.1)
  have hlast : (y l').digest = (x (4 * l + 2 * l')).digest :=
    (hyx l' _ (by omega)).resolve_right fun h => hy h.1
  rw [hfirst, hnext, hlast]

section

variable {logging : Logging σ ρ α} {handlers handlers' : Handlers (Option α)} {limit : Nat}
  {mode : Mode} {root : NodeId} {world : World (σ × ρ)}

/-- A pass-through handler takes one call more at each node, so the run with them needs at most
twice the depth. -/
theorem rootRun_approx (hh : handlers.SameGenuine handlers') (l l' : Nat) (hl : 2 * l ≤ l') :
    Approx (rootRun l (logging.setting handlers) mode root world)
      (rootRun l' (logging.setting handlers') mode root world) := by
  obtain ⟨heap, s, r⟩ := world
  exact run_approx logging l l' mode (by cases mode <;> simp only [Covers] <;> omega) _ _ hh _ _
    (fun _ => Iff.rfl) root List.mem_cons_self heap s r r _

theorem digest_of_walk_eq_some {setting : Walk.Setting (σ × ρ) (Option α)} {outcome : Outcome}
    {v : World (σ × ρ)} (h : SyntaxWalk.walk limit setting mode (some root) world = some (outcome, v)) :
    ∃ w, (rootRun limit setting mode root world).digest.result = some (outcome, v.seen, w) := by
  have hseen := seen_walk limit setting mode root world
  rw [h] at hseen
  obtain ⟨⟨_, _, w⟩, hresult, heq⟩ := Option.map_eq_some_iff.1 hseen.symm
  cases heq
  exact ⟨w, hresult⟩

/-- A walk returns if the walk with the other handlers does. -/
theorem walk_returns (hh : handlers.SameGenuine handlers') {result : Outcome × World (σ × ρ)}
    (h : SyntaxWalk.walk limit (logging.setting handlers) mode (some root) world = some result) :
    ∃ limit' result', SyntaxWalk.walk limit' (logging.setting handlers') mode (some root) world =
      some result' := by
  obtain ⟨w, hresult⟩ := digest_of_walk_eq_some h
  have heq := (rootRun_approx hh limit (2 * limit) (Nat.le_refl _)).resolve_right fun h => by
    rw [hresult] at h
    cases h.1
  have hseen := seen_walk (2 * limit) (logging.setting handlers') mode root world
  rw [← heq, hresult] at hseen
  obtain ⟨result', hwalk, -⟩ := Option.map_eq_some_iff.1 hseen
  exact ⟨2 * limit, result', hwalk⟩

end

end Trace

/-- The calls of handlers in a walk, but for those that only log and go on. -/
def Logging.calls (logging : Logging σ ρ α) (handlers : Handlers (Option α)) (limit : Nat) (mode : Mode)
    (root : NodeId) (world : World (σ × ρ)) : List (α × NodeId × Nat) :=
  Trace.genuine (Trace.calls Walker.keeping
    (Trace.walk Walker.keeping limit (logging.setting handlers) mode (some root) world).moments)

/-- Handlers that log their call and go on at the children of their node make no difference,
whatever other handlers do and for whatever types they are added. A walk with them returns just if
the walk without them does. Both have the same outcome and leave the same nodes and the same state
but for the log, and the other handlers are called for the same nodes at the same depths, up to any
moment also in walks that never return. -/
theorem pass_through_transparent (logging : Logging σ ρ α) (handlers : Handlers α)
    (types : List String) (mode : Mode) (root : NodeId) (world : World (σ × ρ)) :
    ((∃ limit result, walk limit (logging.setting (handlers.map some)) mode (some root) world =
        some result) ↔
      ∃ limit result, walk limit (logging.setting (handlers.withPassThrough types)) mode (some root)
        world = some result) ∧
    (∀ limit limit' outcome outcome' v v',
      walk limit (logging.setting (handlers.map some)) mode (some root) world = some (outcome, v) →
      walk limit' (logging.setting (handlers.withPassThrough types)) mode (some root) world =
        some (outcome', v') →
      outcome = outcome' ∧ v.seen = v'.seen ∧
        logging.calls (handlers.map some) limit mode root world =
          logging.calls (handlers.withPassThrough types) limit' mode root world) ∧
    ∀ limit, logging.calls (handlers.map some) limit mode root world <+:
        logging.calls (handlers.withPassThrough types) (2 * limit) mode root world ∧
      logging.calls (handlers.withPassThrough types) limit mode root world <+:
        logging.calls (handlers.map some) (2 * limit) mode root world := by
  have hh := handlers.sameGenuine_withPassThrough types
  have hh' : Handlers.SameGenuine _ _ := fun type => (hh type).symm
  refine ⟨⟨?_, ?_⟩, ?_, fun limit => ?_⟩
  · rintro ⟨limit, result, h⟩
    exact Trace.walk_returns hh h
  · rintro ⟨limit, result, h⟩
    exact Trace.walk_returns hh' h
  · intro limit limit' outcome outcome' v v' h h'
    obtain ⟨w, hresult⟩ := Trace.digest_of_walk_eq_some h
    obtain ⟨w', hresult'⟩ := Trace.digest_of_walk_eq_some h'
    have heq := Trace.digest_eq_of_approx (Trace.rootRun_approx hh) (Trace.rootRun_approx hh')
      (by rw [hresult]; exact Option.some_ne_none _) (by rw [hresult']; exact Option.some_ne_none _)
    have hends := hresult.symm.trans ((congrArg Trace.Digest.result heq).trans hresult')
    obtain ⟨houtcome, hseen, -⟩ : outcome = outcome' ∧ v.seen = v'.seen ∧ w = w' := by
      simpa using hends
    refine ⟨houtcome, hseen, ?_⟩
    unfold Logging.calls
    rw [Trace.genuine_calls, Trace.genuine_calls, heq]
  · unfold Logging.calls
    rw [Trace.genuine_calls, Trace.genuine_calls, Trace.genuine_calls, Trace.genuine_calls]
    exact ⟨(Trace.rootRun_approx hh _ _ (Nat.le_refl _)).calls,
      (Trace.rootRun_approx hh' _ _ (Nat.le_refl _)).calls⟩

end SyntaxWalk
