/-
What a walk takes from its options. Handlers that do not ask for the options may change nodes, go on
wherever they like, fail, catch errors and start walks of their own; all that the options do for a
walk is to resolve the child fields of the nodes that it expands. So options that resolve the same
at the moments at which a walk asks them lead to the same walk, in lockstep. Only the notices may
differ that tell how child fields were resolved, so what becomes of them must be out of sight of
handlers.
-/
import SyntaxWalk.Proofs.Restore

namespace SyntaxWalk

variable {σ τ α : Type}

/-! ## What is seen of the host -/

/-- A script that does not ask for the options of the walk, and for which only a part of the state
of the host counts. -/
def Script.Discreet (seen : σ → τ) : Script σ α → Prop
  | .done _ => True
  | .inspect next =>
    (∀ heap s s' alive, seen s = seen s' → next ⟨heap, s⟩ alive = next ⟨heap, s'⟩ alive) ∧
      ∀ world alive, (next world alive).Discreet seen
  | .change f next =>
    (∀ heap s s', seen s = seen s' → (f ⟨heap, s⟩).heap = (f ⟨heap, s'⟩).heap ∧
      seen (f ⟨heap, s⟩).host = seen (f ⟨heap, s'⟩).host) ∧ next.Discreet seen
  | .depth next => ∀ depth, (next depth).Discreet seen
  | .options _ => False
  | .go _ _ next => ∀ outcome, (next outcome).Discreet seen
  | .walk _ _ _ next => ∀ outcome, (next outcome).Discreet seen

/-- A script that makes do with a part of the state makes do with all of it. -/
theorem Script.Discreet.whole {seen : σ → τ} {script : Script σ α} (h : script.Discreet seen) :
    script.Discreet (id : σ → σ) := by
  induction script with
  | done outcome => trivial
  | inspect next ih =>
    refine ⟨?_, fun world alive => ih world alive (h.2 world alive)⟩
    rintro heap s _ alive rfl
    rfl
  | change f next ih =>
    refine ⟨?_, ih h.2⟩
    rintro heap s _ rfl
    exact ⟨rfl, rfl⟩
  | depth next ih => exact fun depth => ih depth (h depth)
  | options next ih => exact h.elim
  | go mode node next ih => exact fun outcome => ih outcome (h outcome)
  | walk mode handlers node next ih => exact fun outcome => ih outcome (h outcome)

/-- Notices leave the seen part of the state alone. -/
def Host.Hides (host : Host σ α) (seen : σ → τ) : Prop :=
  ∀ notice heap s, seen (host.notify notice heap s) = seen s

/-- What a notice does to the seen part of the state depends on that part only. -/
def Host.TellsAlike (host : Host σ α) (seen : σ → τ) : Prop :=
  ∀ notice heap s s', seen s = seen s' →
    seen (host.notify notice heap s) = seen (host.notify notice heap s')

theorem Host.tellsAlike_id (host : Host σ α) : host.TellsAlike (id : σ → σ) := by
  rintro notice heap s _ rfl
  rfl

/-- Two options resolve the child fields of a node alike, and as far as is seen the same is told. -/
structure Options.Agree (options options' : Options) (host : Host σ α) (seen : σ → τ) (heap : Heap)
    (id : NodeId) (type : String) : Prop where
  keys : options'.resolveKeys heap id type = options.resolveKeys heap id type
  notice : options'.notice? id type = options.notice? id type ∨ host.Hides seen

/-- Options with the same list for a type agree on it if the list is there, or if they have the same
fallback. -/
theorem Options.agree_of_listed {options options' : Options} {type : String}
    (hl : options'.listed? type = options.listed? type)
    (h : options.listed? type ≠ none ∨ options'.fallback = options.fallback) (host : Host σ α)
    (seen : σ → τ) (heap : Heap) (id : NodeId) :
    options.Agree options' host seen heap id type := by
  rcases hlisted : options.listed? type with _ | keys
  · have hf : options'.fallback = options.fallback := h.resolve_left (· hlisted)
    constructor
    · unfold Options.resolveKeys
      rw [hl, hf]
    · unfold Options.notice?
      rw [hl, hf]
      exact .inl rfl
  · constructor
    · unfold Options.resolveKeys
      rw [hl, hlisted]
    · unfold Options.notice?
      rw [hl, hlisted]
      exact .inl rfl

namespace Trace

/-! ## Runs as they are seen -/

/-- A state, with the seen part of the host. -/
def State.seen (seen : σ → τ) (s : State σ Walker) : State τ Walker :=
  ⟨⟨s.world.heap, seen s.world.host⟩, s.book⟩

/-- Two states are seen to be the same if they differ at most in what is not seen of the host. -/
theorem seen_eq_iff {seen : σ → τ} {s t : State σ Walker} :
    t.seen seen = s.seen seen ↔ t.world.heap = s.world.heap ∧
      seen t.world.host = seen s.world.host ∧ t.book = s.book := by
  simp only [State.seen, State.mk.injEq, World.mk.injEq, and_assoc]

theorem seen_withBook {seen : σ → τ} {s t : State σ Walker} (h : t.seen seen = s.seen seen)
    (w : Walker) :
    State.seen seen ⟨t.world, w⟩ = State.seen seen ⟨s.world, w⟩ := by
  obtain ⟨hheap, hhost, -⟩ := seen_eq_iff.1 h
  exact seen_eq_iff.2 ⟨hheap, hhost, rfl⟩

/-- A moment, with the seen part of the host. -/
def Moment.seen (seen : σ → τ) (m : Moment σ α Walker) : Moment τ α Walker :=
  ⟨m.deed, m.held, m.state.seen seen⟩

/-- A run, with the seen part of the host. -/
def CallRun.seen (seen : σ → τ) (x : CallRun σ α Walker) : CallRun τ α Walker :=
  ⟨x.moments.map (Moment.seen seen), x.result.map fun (outcome, s) => (outcome, s.seen seen)⟩

/-- If all the moments of a run are agreed on, then a second run is seen to be the same. -/
def Follows (seen : σ → τ) (agreed : Moment σ α Walker → Prop) (x y : CallRun σ α Walker) : Prop :=
  (∀ m ∈ x.moments, agreed m) → y.seen seen = x.seen seen

section

variable {seen : σ → τ} {agreed : Moment σ α Walker → Prop} {s t : State σ Walker}
  {x y : CallRun σ α Walker}

theorem seen_mark (m : Moment σ α Walker) (x : CallRun σ α Walker) :
    CallRun.seen seen (x.mark m) = (x.seen seen).mark (m.seen seen) := rfl

theorem Follows.pure (h : t.seen seen = s.seen seen) (outcome : Outcome) :
    Follows seen agreed (.pure (outcome, s)) (.pure (outcome, t)) := by
  intro _
  simp only [CallRun.seen, Run.pure, Option.map_some, h]

theorem Follows.mark {deed : Deed α} {held : List Hold} (hs : t.seen seen = s.seen seen)
    (h : agreed ⟨deed, held, s⟩ → Follows seen agreed x y) :
    Follows seen agreed (x.mark ⟨deed, held, s⟩) (y.mark ⟨deed, held, t⟩) := by
  intro hagreed
  have hxy := h (hagreed _ List.mem_cons_self) fun m hm => hagreed m (List.mem_cons_of_mem _ hm)
  rw [seen_mark, seen_mark, hxy]
  simp only [Moment.seen, hs]

/-- The second part of a run begins in a state that is seen to be the same. -/
theorem Follows.bind {f g : Outcome × State σ Walker → CallRun σ α Walker}
    (h : Follows seen agreed x y)
    (hf : ∀ outcome s t, t.seen seen = s.seen seen →
      Follows seen agreed (f (outcome, s)) (g (outcome, t))) :
    Follows seen agreed (x.bind f) (y.bind g) := by
  intro hagreed
  obtain ⟨hmoments, hresult⟩ :=
    Run.mk.inj (h fun m hm => hagreed m (List.mem_append_left _ hm))
  obtain ⟨ms, r⟩ := x
  obtain ⟨ns, r'⟩ := y
  dsimp only at hmoments hresult
  -- The first run nests too deep, and so does the second, or both end and are seen to end alike.
  rcases r with _ | ⟨outcome, s⟩
  · obtain rfl : r' = none := Option.map_eq_none_iff.1 hresult
    simp only [CallRun.seen, Run.bind, List.append_nil, hmoments, Option.bind_none]
  · obtain ⟨⟨outcome', t⟩, rfl, heq⟩ := Option.map_eq_some_iff.1 hresult
    obtain ⟨rfl, hs⟩ := Prod.mk.inj heq
    obtain ⟨hmoments', hresult'⟩ := Run.mk.inj
      (hf outcome' s t hs fun m hm => hagreed m (List.mem_append_right _ hm))
    simp only [CallRun.seen, Run.bind, List.map_append, Option.bind_some, hmoments, hmoments',
      hresult']

theorem Follows.thenOk {f g : State σ Walker → CallRun σ α Walker} (h : Follows seen agreed x y)
    (hf : ∀ s t, t.seen seen = s.seen seen → Follows seen agreed (f s) (g t)) :
    Follows seen agreed (x.thenOk f) (y.thenOk g) := by
  refine h.bind fun outcome s t hs => ?_
  cases outcome with
  | error e => exact .pure hs _
  | ok _ => exact hf s t hs

end

/-! ## Step by step -/

/-- Resolving child fields leads to states that are seen to be the same. -/
theorem announce_alike (options options' : Options) (handlers : Handlers α) {host : Host σ α}
    {seen : σ → τ} (hn : host.TellsAlike seen) {id : NodeId} {type : String}
    (h : options'.notice? id type = options.notice? id type ∨ host.Hides seen)
    {s t : State σ Walker} (hs : t.seen seen = s.seen seen) :
    (announce ⟨host, options', handlers⟩ id type t).seen seen =
      (announce ⟨host, options, handlers⟩ id type s).seen seen := by
  rcases h with hsame | hhides
  · obtain ⟨⟨heap, u⟩, w⟩ := s
    obtain ⟨⟨_, u'⟩, _⟩ := t
    obtain ⟨rfl, hu, rfl⟩ := seen_eq_iff.1 hs
    unfold announce
    dsimp only
    rw [hsame]
    cases options.notice? id type with
    | none => exact hs
    | some notice => exact seen_eq_iff.2 ⟨rfl, hn notice _ u' u hu, rfl⟩
  · have hhidden : ∀ (options : Options) (s : State σ Walker),
        (announce ⟨host, options, handlers⟩ id type s).seen seen = s.seen seen := by
      rintro options ⟨⟨heap, u⟩, w⟩
      obtain ⟨u', hannounce, hu'⟩ := announce_eq ⟨host, options, handlers⟩ id type heap u
      rw [hannounce]
      exact seen_eq_iff.2 ⟨rfl, hu' (seen · = seen u) rfl fun notice => hhides notice heap u, rfl⟩
    rw [hhidden, hhidden, hs]

section

variable (seen : σ → τ) (host : Host σ α) (options options' : Options)

/-- If child fields are resolved at a moment, then the second options agree on the node. -/
def Moment.Agreed (m : Moment σ α Walker) : Prop :=
  ∀ id type, m.deed = .resolve id type →
    options.Agree options' host seen m.state.world.heap id type

/-- An answer with the second options follows the one with the first. -/
def CallsFollow (call : Call σ α Walker) : Prop :=
  ∀ (handlers : Handlers α) (held : List Hold) (mode : Mode) (id : NodeId) (s t : State σ Walker),
    t.seen seen = s.seen seen →
    Follows seen (Moment.Agreed seen host options options')
      (call ⟨host, options, handlers⟩ held mode id s)
      (call ⟨host, options', handlers⟩ held mode id t)

variable {seen host options options'} {call : Call σ α Walker}
  (hc : CallsFollow seen host options options' call) {handlers : Handlers α} {held : List Hold}

include hc

/-- Options are not asked between expansions, so fields are gone through in lockstep. -/
theorem lockstep_follows (held : List Hold) (id : NodeId) (type : String) :
    Lockstep ⟨Walker.keeping, call, ⟨host, options, handlers⟩, held⟩
      ⟨Walker.keeping, call, ⟨host, options', handlers⟩, held⟩ id type
      (fun s t => t.seen seen = s.seen seen)
      fun _ _ => Follows seen (Moment.Agreed seen host options options') where
  heap hs := (seen_eq_iff.1 hs).1
  isOpen hs _ := by rw [(seen_eq_iff.1 hs).2.2]
  done hs := .pure hs _
  thenOk hx hf := hx.thenOk hf
  read hs hx := .mark hs fun _ => hx
  refused _ _ hs _ := .mark hs fun _ => .pure hs _
  visited _ _ hs _ := .mark hs fun _ => hc _ _ _ _ _ _ hs

/-- Here the options are asked, and the second ones give the same child fields. -/
theorem expand_follows (hn : host.TellsAlike seen) {s t : State σ Walker}
    (hs : t.seen seen = s.seen seen) (id : NodeId) (type : String) :
    Follows seen (Moment.Agreed seen host options options')
      (expand Walker.keeping call ⟨host, options, handlers⟩ held id type s)
      (expand Walker.keeping call ⟨host, options', handlers⟩ held id type t) := by
  unfold expand
  refine .mark hs fun hagreed => ?_
  obtain ⟨hkeys, hnotice⟩ := hagreed id type rfl
  have hs' := announce_alike options options' handlers hn hnotice hs
  dsimp only at hkeys ⊢
  rw [(seen_eq_iff.1 hs).1, hkeys]
  cases options.resolveKeys s.world.heap id type with
  | error e => exact .pure hs' _
  | ok keys =>
    dsimp only
    unfold walkInside
    rw [(seen_eq_iff.1 hs').2.2]
    refine ((lockstep_follows hc (.node id :: held) id type).walkFields keys
      (seen_withBook hs' _)).bind (fun outcome u v hu => ?_)
    refine .mark hu fun _ => .pure ?_ _
    rw [(seen_eq_iff.1 hu).2.2]
    exact seen_withBook hu _

/-- A discreet script does not ask for the options, and all else that it learns is seen to be the
same. -/
theorem runScript_follows (script : Script σ α) (hd : script.Discreet seen) (s t : State σ Walker)
    (hs : t.seen seen = s.seen seen) :
    Follows seen (Moment.Agreed seen host options options')
      (runScript Walker.keeping call ⟨host, options, handlers⟩ held script s)
      (runScript Walker.keeping call ⟨host, options', handlers⟩ held script t) := by
  induction script generalizing s t with
  | done outcome => exact .mark hs fun _ => .pure hs _
  | inspect next ih =>
    obtain ⟨⟨heap, u⟩, w⟩ := s
    obtain ⟨⟨_, u'⟩, _⟩ := t
    obtain ⟨rfl, hu, rfl⟩ := seen_eq_iff.1 hs
    -- What is seen is the same, so the script goes on with the same step.
    refine .mark hs fun _ => ?_
    dsimp only
    rw [hd.1 _ u' u _ hu]
    exact ih _ _ (hd.2 _ _) _ _ hs
  | change f next ih =>
    obtain ⟨⟨heap, u⟩, w⟩ := s
    obtain ⟨⟨_, u'⟩, _⟩ := t
    obtain ⟨rfl, hu, rfl⟩ := seen_eq_iff.1 hs
    obtain ⟨hheap, hhost⟩ := hd.1 _ u' u hu
    exact .mark hs fun _ => ih hd.2 _ _ (seen_eq_iff.2 ⟨hheap, hhost, rfl⟩)
  | depth next ih =>
    unfold runScript
    rw [(seen_eq_iff.1 hs).2.2]
    exact .mark hs fun _ => ih _ (hd _) _ _ hs
  | options next ih => exact hd.elim
  | go mode node next ih =>
    cases node with
    | none => exact .mark hs fun _ => ih _ (hd _) _ _ hs
    | some id =>
      exact .mark hs fun _ => (hc _ _ mode id s t hs).bind
        fun outcome s t hs => ih outcome (hd outcome) s t hs
  | walk mode own id next ih =>
    have hcall := hc own (.node id :: held) mode id _ _ (seen_withBook hs Walker.keeping.new)
    refine .mark hs fun _ => hcall.bind fun outcome u v hu => ih outcome (hd outcome) _ _ ?_
    rw [(seen_eq_iff.1 hs).2.2]
    exact seen_withBook hu _

end

/-- If handlers are discreet, runs under the second options follow those under the first. -/
theorem run_follows {seen : σ → τ} {host : Host σ α} (hn : host.TellsAlike seen)
    (hd : ∀ handler id, (host.behave handler id).Discreet seen) (options options' : Options) :
    ∀ (limit : Nat), CallsFollow seen host options options' (run Walker.keeping limit)
  | 0 => fun _ _ _ _ _ _ _ _ => rfl
  | limit + 1 => by
    intro handlers held mode id s t hs
    have hc := run_follows hn hd options options' limit
    obtain ⟨hheap, hhost, hbook⟩ := seen_eq_iff.1 hs
    unfold run
    cases mode with
    | children =>
      simp only [respond, hheap]
      exact expand_follows hc hn hs id _
    | visit =>
      simp only [respond, hheap]
      cases handlers.get? (s.world.heap.effectiveType id) with
      | none => exact expand_follows hc hn hs id _
      | some handler =>
        refine .mark hs fun _ => runScript_follows hc _ (hd handler id) _ _ (seen_eq_iff.2 ?_)
        unfold notify
        rw [hheap]
        exact ⟨rfl, hn _ _ _ _ hhost, hbook⟩

/-! ## Walks under other options -/

section

variable (seen : σ → τ) (limit : Nat) (host : Host σ α) (handlers : Handlers α) (mode : Mode)
  (root : NodeId) (world : World σ)

/-- A walk calls the same handlers for the same nodes at the same depths under two options, and is
seen to end alike: with the same result, the same nodes and the same seen part of the host. -/
def Unaffected (options options' : Options) : Prop :=
  calls Walker.keeping (walk Walker.keeping limit ⟨host, options', handlers⟩ mode (some root)
      world).moments =
    calls Walker.keeping (walk Walker.keeping limit ⟨host, options, handlers⟩ mode (some root)
      world).moments ∧
  (SyntaxWalk.walk limit ⟨host, options', handlers⟩ mode (some root) world).map
      (fun (outcome, last) => (outcome, last.heap, seen last.host)) =
    (SyntaxWalk.walk limit ⟨host, options, handlers⟩ mode (some root) world).map
      fun (outcome, last) => (outcome, last.heap, seen last.host)

variable {seen limit host handlers mode root world}

theorem calls_seen (ms : List (Moment σ α Walker)) :
    calls Walker.keeping (ms.map (Moment.seen seen)) = calls Walker.keeping ms := by
  unfold calls
  rw [List.filterMap_map]
  rfl

/-- How a walk is seen to end. -/
theorem result_inWorld (x : CallRun σ α Walker) :
    (x.inWorld.result.map fun (outcome, last) => (outcome, last.heap, seen last.host)) =
      (x.seen seen).result.map fun (outcome, s) => (outcome, s.world.heap, s.world.host) := by
  obtain ⟨ms, _ | _⟩ := x <;> rfl

/-- Options that agree with the first ones whenever these are asked do not affect the walk. -/
theorem unaffected_of_agreed (hn : host.TellsAlike seen)
    (hd : ∀ handler id, (host.behave handler id).Discreet seen) {options options' : Options}
    (h : ∀ m ∈ (walk Walker.keeping limit ⟨host, options, handlers⟩ mode (some root) world).moments,
      m.Agreed seen host options options') :
    Unaffected seen limit host handlers mode root world options options' := by
  have hseen := run_follows hn hd options options' limit handlers [.node root] mode root
    ⟨world, Walker.keeping.new⟩ _ rfl fun m hm => h m (List.mem_append_left _ hm)
  unfold Unaffected
  rw [← walk_result, ← walk_result]
  unfold walk
  constructor
  · rw [moments_inWorld, moments_inWorld, ← calls_seen, ← calls_seen (run _ _ _ _ _ _ _).moments]
    exact congrArg (fun x => calls Walker.keeping x.moments) hseen
  · rw [result_inWorld, result_inWorld]
    exact congrArg (Option.map _) (congrArg Run.result hseen)

variable (limit host handlers mode root world) in
/-- At some moment of a walk the child fields of a node are resolved, which is handled under the
given type, and the nodes are as given. -/
def Asks (options : Options) (heap : Heap) (id : NodeId) (type : String) : Prop :=
  ∃ m ∈ (walk Walker.keeping limit ⟨host, options, handlers⟩ mode (some root) world).moments,
    m.deed = .resolve id type ∧ m.state.world.heap = heap

theorem unaffected_of_asks (hn : host.TellsAlike seen)
    (hd : ∀ handler id, (host.behave handler id).Discreet seen) {options options' : Options}
    (h : ∀ heap id type, Asks limit host handlers mode root world options heap id type →
      options.Agree options' host seen heap id type) :
    Unaffected seen limit host handlers mode root world options options' :=
  unaffected_of_agreed hn hd fun m hm id type hdeed => h _ id type ⟨m, hm, hdeed, rfl⟩

/-- Overrides that differ in nothing that is asked for do not affect the walk. -/
theorem unaffected_of_overrides (hd : ∀ handler id, (host.behave handler id).Discreet seen)
    {options : Options} {overrides : KeyTable}
    (h : ∀ heap id type, Asks limit host handlers mode root world options heap id type →
      overrides.get? type = options.overrides.get? type) :
    Unaffected id limit host handlers mode root world options { options with overrides } := by
  refine unaffected_of_asks host.tellsAlike_id (fun handler n => (hd handler n).whole)
    fun heap n type hasks => ?_
  refine Options.agree_of_listed ?_ (.inr ?_) host _ heap n
  · unfold Options.listed?
    rw [h heap n type hasks]
  · rfl

end

/-- Let handlers not ask for the options, and let them see a part of the state of the host only. If
notices are out of their sight, then two options affect a walk alike that resolve the same whenever
the first ones are asked. If unknown types are forbidden and the walk meets none, then any other
fallback makes no difference, nor does an override for a type that the walk never asks for, be it
added, replaced or taken away; here nothing need be out of sight. -/
theorem walk_depends_on_resolved_keys (seen : σ → τ) (limit : Nat) (host : Host σ α)
    (handlers : Handlers α) (mode : Mode) (root : NodeId) (world : World σ)
    (hd : ∀ handler id, (host.behave handler id).Discreet seen) (options : Options) :
    (∀ options', host.Hides seen →
      (∀ heap id type, Asks limit host handlers mode root world options heap id type →
        options'.resolveKeys heap id type = options.resolveKeys heap id type) →
      Unaffected seen limit host handlers mode root world options options') ∧
    (∀ fallback, options.fallback = .error →
      (∀ heap id type, Asks limit host handlers mode root world options heap id type →
        options.resolveKeys heap id type ≠ .error (.unknownNodeType type)) →
      Unaffected id limit host handlers mode root world options { options with fallback }) ∧
    ∀ type, (∀ heap id, ¬Asks limit host handlers mode root world options heap id type) →
      (∀ keys, Unaffected id limit host handlers mode root world options
        (options.withKeys type keys)) ∧
      Unaffected id limit host handlers mode root world options
        { options with overrides := options.overrides.erase type } := by
  refine ⟨fun options' hhides hkeys => ?_, fun fallback herror hmet => ?_, fun type hnever => ?_⟩
  · refine unaffected_of_asks (fun notice heap s s' hs => ?_) hd fun heap id type hasks =>
      ⟨hkeys heap id type hasks, .inr hhides⟩
    rw [hhides, hhides, hs]
  · refine unaffected_of_asks host.tellsAlike_id (fun handler n => (hd handler n).whole)
      fun heap id type hasks => ?_
    have hlisted : options.listed? type ≠ none := fun hl =>
      hmet heap id type hasks (Options.resolveKeys_eq_error_iff.2 ⟨hl, herror, rfl⟩)
    refine Options.agree_of_listed ?_ (.inl hlisted) host _ heap id
    rfl
  · -- An entry for the type counts for no other type.
    have hother : ∀ heap id other, Asks limit host handlers mode root world options heap id other →
        other ≠ type := by
      rintro heap id _ hasks rfl
      exact hnever heap id hasks
    refine ⟨fun keys => unaffected_of_overrides hd fun heap id other hasks => ?_,
      unaffected_of_overrides hd fun heap id other hasks => ?_⟩
    · rw [StringMap.get?_insert]
      exact if_neg (hother heap id other hasks)
    · rw [StringMap.get?_erase]
      exact if_neg (hother heap id other hasks)

/-- A handler that expands its node, breaks the loop, and counts. The host keeps the notices
too. -/
def countingBreaker : Host (Nat × List Notice) Unit where
  behave _ id := .go .children (some id) fun _ =>
    .change (fun world => ⟨world.heap.erase id "next", world.host.1 + 1, world.host.2⟩) <|
      .inspect fun world _ => .done (if world.host.1 = 3 then .error (.handler "three") else .ok ())
  notify notice _ host := (host.1, notice :: host.2)

theorem countingBreaker_discreet (handler : Unit) (id : NodeId) :
    (countingBreaker.behave handler id).Discreet Prod.fst := by
  refine fun _ => ⟨fun heap s s' hs => ⟨rfl, congrArg (· + 1) hs⟩, fun heap s s' _ hs => ?_,
    fun _ _ => trivial⟩
  dsimp only
  rw [hs]

/-- The custom fallback takes every field but `type`, as the iteration does, but other notices are
given. -/
theorem walk_depends_on_resolved_keys_selfLoop :
    let keysOf : Heap → NodeId → List String :=
      fun heap id => (heap.fields id).keys.filter (· ≠ "type")
    countingBreaker.Hides Prod.fst ∧
      Unaffected Prod.fst 3 countingBreaker (Record.empty.insert "Loop" ()) .visit 0
        ⟨Walk.selfLoop, 0, []⟩ { fallback := .iteration } { fallback := .custom keysOf } := by
  intro keysOf
  have hhides : countingBreaker.Hides Prod.fst := fun _ _ _ => rfl
  have hkeys : ∀ (options : Options) heap id type,
      { options with fallback := .custom keysOf }.resolveKeys heap id type =
        { options with fallback := .iteration }.resolveKeys heap id type := by
    intro options heap id type
    have hlisted : ∀ fallback, { options with fallback }.listed? type = options.listed? type :=
      fun _ => rfl
    unfold Options.resolveKeys
    rw [hlisted (.custom keysOf), hlisted .iteration]
  exact ⟨hhides, (walk_depends_on_resolved_keys Prod.fst 3 countingBreaker _ .visit 0 _
    countingBreaker_discreet { fallback := .iteration }).1 { fallback := .custom keysOf } hhides
    fun heap id type _ => hkeys {} heap id type⟩

end Trace

end SyntaxWalk
