/-
Where the errors of a walk come from. Handlers may catch errors, keep them for later and pass them
on, in the same call or in another one; errors that they make themselves are errors of handlers.
Then an error with which a walk ends, however often it was caught and passed on, was raised at a
moment of the walk: an unknown type when the child fields of a node of that type were resolved, a
cycle when the turn of a field came that held a node which was being expanded, and an error of a
handler by a handler that was called.
-/
import SyntaxWalk.Proofs.Expansions
import SyntaxWalk.Proofs.Restore

namespace SyntaxWalk

variable {σ α : Type}

/-! ## Types that cannot be resolved -/

theorem Fields.ne_of_type? {fields : Fields} {type : String} (h : fields.type? = some type) :
    type ≠ "" := by
  unfold Fields.type? at h
  rw [Option.filter_eq_some_iff] at h
  exact of_decide_eq_true h.2

theorem defaultKeys_defaultType : defaultKeys.get? Fields.defaultType = some ["key", "value"] := by
  simp [defaultKeys, defaultKeyFile, StringMap.ofList, estreeKeys, Fields.defaultType,
    StringMap.get?_insert]

/-- The type of nodes without a type is in a table, whatever is overridden. -/
theorem Options.listed?_defaultType (options : Options) :
    ∃ keys, options.listed? Fields.defaultType = some keys := by
  rw [listed?_eq_or, defaultKeys_defaultType]
  cases options.overrides.get? Fields.defaultType with
  | some keys => exact ⟨keys, rfl⟩
  | none => exact ⟨_, rfl⟩

/-- A node has the type under which it is handled, if no table lists that type: the bundled table
lists the one under which nodes without a type are handled. -/
theorem Options.type?_of_not_listed {options : Options} {heap : Heap} {id : NodeId}
    (h : options.listed? (heap.effectiveType id) = none) :
    (heap.fields id).type? = some (heap.effectiveType id) := by
  unfold Heap.effectiveType Fields.effectiveType at h ⊢
  cases ht : (heap.fields id).type? with
  | some type => rw [Option.getD_some]
  | none =>
    obtain ⟨keys, hkeys⟩ := options.listed?_defaultType
    rw [ht, Option.getD_none, hkeys] at h
    cases h

/-! ## Handlers that pass errors on -/

/-- The errors that are known after an outcome was received. -/
def knownAfter (known : VisitError → Prop) (outcome : Outcome) : VisitError → Prop :=
  fun e => known e ∨ outcome = .error e

/-- A script that returns no errors, and keeps none, but those that it has received or found kept,
and errors of handlers. The state of the host keeps errors as `keeps` says, and the script knows
some already. -/
def Script.Honest (keeps : σ → VisitError → Prop) : (VisitError → Prop) → Script σ α → Prop
  | known, .done outcome => ∀ e, outcome = .error e → known e ∨ ∃ message, e = .handler message
  | known, .inspect next => ∀ world alive,
    (next world alive).Honest keeps fun e => known e ∨ keeps world.host e
  | known, .change f next =>
    (∀ world e, keeps (f world).host e →
      known e ∨ keeps world.host e ∨ ∃ message, e = .handler message) ∧ next.Honest keeps known
  | known, .depth next => ∀ depth, (next depth).Honest keeps known
  | known, .options next => ∀ options, (next options).Honest keeps known
  | known, .go _ _ next => ∀ outcome, (next outcome).Honest keeps (knownAfter known outcome)
  | known, .walk _ _ _ next => ∀ outcome, (next outcome).Honest keeps (knownAfter known outcome)

/-- A host whose handlers are honest. Notices bring no errors. -/
structure Host.Honest (host : Host σ α) (keeps : σ → VisitError → Prop) : Prop where
  behave : ∀ handler id, (host.behave handler id).Honest keeps fun _ => False
  notify : ∀ notice heap state e, keeps (host.notify notice heap state) e → keeps state e

namespace Trace

/-- A script makes an error in its run: it returns the error, or puts it into the state of the host,
and has neither received it nor found it there. -/
def Makes (keeps : σ → VisitError → Prop) (call : Call σ α Walker) (setting : Walk.Setting σ α)
    (held : List Hold) (error : VisitError) :
    (VisitError → Prop) → Script σ α → State σ Walker → Prop
  | known, .done outcome, _ => outcome = .error error ∧ ¬known error
  | known, .inspect next, s => Makes keeps call setting held error
    (fun e => known e ∨ keeps s.world.host e) (next s.world (Walk.alive s.world.heap held)) s
  | known, .change f next, s =>
    (keeps (f s.world).host error ∧ ¬known error ∧ ¬keeps s.world.host error) ∨
      Makes keeps call setting held error known next { s with world := f s.world }
  | known, .depth next, s => Makes keeps call setting held error known (next s.book.depth) s
  | known, .options next, s => Makes keeps call setting held error known (next setting.options) s
  | known, .go _ none next, s =>
    Makes keeps call setting held error (knownAfter known (.ok ())) (next (.ok ())) s
  | known, .go mode (some id) next, s => ∃ outcome t,
    (call setting (.node id :: held) mode id s).result = some (outcome, t) ∧
      Makes keeps call setting held error (knownAfter known outcome) (next outcome) t
  | known, .walk mode handlers id next, s => ∃ outcome t,
    (call { setting with handlers } (.node id :: held) mode id ⟨s.world, {}⟩).result =
        some (outcome, t) ∧
      Makes keeps call setting held error (knownAfter known outcome) (next outcome)
        ⟨t.world, s.book⟩

/-! ## Origins -/

/-- A moment falls into the expansion that begins at an earlier one: up to it, more is held than at
the beginning. -/
def Within (moments : List (Moment σ α Walker)) (first later : Moment σ α Walker) : Prop :=
  ∃ before between after, moments = before ++ first :: (between ++ later :: after) ∧
    ∀ m ∈ between ++ [later], first.held.length < m.held.length

/-- The state in which a handler begins: the host has notice of the call. -/
def dispatched (setting : Walk.Setting σ α) (id : NodeId) (s : State σ Walker) : State σ Walker :=
  notify setting (.dispatching (s.world.heap.effectiveType id)) s

/-- The call of a handler for a node. -/
def called (call : Call σ α Walker) (setting : Walk.Setting σ α) (held : List Hold) (handler : α)
    (id : NodeId) (s : State σ Walker) : CallRun σ α Walker :=
  .mark ⟨.call handler id, held, s⟩ <|
    runScript Walker.keeping call setting held (setting.host.behave handler id)
      (dispatched setting id s)

/-- How an error was raised at moments of a walk. -/
inductive Origin (host : Host σ α) (options : Options) (keeps : σ → VisitError → Prop)
    (moments : List (Moment σ α Walker)) : VisitError → Prop where
  /-- The child fields of a node with the type were resolved, in vain. -/
  | unresolved {m : Moment σ α Walker} {n : NodeId} {type : String} (hm : m ∈ moments)
    (hdeed : m.deed = .resolve n type) (htype : (m.state.world.heap.fields n).type? = some type)
    (hkeys : options.resolveKeys m.state.world.heap n type = .error (.unknownNodeType type)) :
    Origin host options keeps moments (.unknownNodeType type)
  /-- A node of the type, as it was when its expansion began, was being expanded, the key was one of
  its child fields, and when the turn of the field came it held a node to visit that was being
  expanded. -/
  | cycle {first turn : Moment σ α Walker} {n child : NodeId} {type key : String}
    {keys : List String} (hwithin : Within moments first turn)
    (hfirst : first.deed = .resolve n type)
    (htype : first.state.world.heap.effectiveType n = type)
    (hkeys : options.resolveKeys first.state.world.heap n type = .ok keys) (hkey : key ∈ keys)
    (hturn : turn.deed = .read n type key) (hheld : turn.held = .node n :: first.held)
    (hbook : turn.state.book.ancestors = n :: first.state.book.ancestors)
    (hchild : child ∈ turn.state.world.heap.visitables n type key)
    (hopen : child ∈ turn.state.book.ancestors) :
    Origin host options keeps moments (.cyclicChild type key)
  /-- A handler was called, and made the error in its run. -/
  | made {handler : α} {n : NodeId} {message : String} {limit : Nat} {handlers : Handlers α}
    {held : List Hold} {s : State σ Walker}
    (hrun : (called (run Walker.keeping limit) ⟨host, options, handlers⟩ held handler n s).moments
      <:+: moments)
    (hmakes : Makes keeps (run Walker.keeping limit) ⟨host, options, handlers⟩ held
      (.handler message) (fun _ => False) (host.behave handler n)
      (dispatched ⟨host, options, handlers⟩ n s)) :
    Origin host options keeps moments (.handler message)

theorem Within.mono {ms ms' : List (Moment σ α Walker)} {first later : Moment σ α Walker}
    (h : Within ms first later) (hms : ms <:+: ms') : Within ms' first later := by
  obtain ⟨before, between, after, rfl, hheld⟩ := h
  obtain ⟨a, b, rfl⟩ := hms
  exact ⟨a ++ before, between, after ++ b, by simp, hheld⟩

/-- What accounts for an error in a part of a walk accounts for it in the whole. -/
theorem Origin.mono {host : Host σ α} {options : Options} {keeps : σ → VisitError → Prop}
    {ms ms' : List (Moment σ α Walker)} {e : VisitError} (h : Origin host options keeps ms e)
    (hms : ms <:+: ms') : Origin host options keeps ms' e := by
  cases h with
  | unresolved hm hdeed htype hkeys => exact .unresolved (hms.subset hm) hdeed htype hkeys
  | cycle hwithin hfirst htype hkeys hkey hturn hheld hbook hchild hopen =>
    exact .cycle (hwithin.mono hms) hfirst htype hkeys hkey hturn hheld hbook hchild hopen
  | made hrun hmakes => exact .made (hrun.trans hms) hmakes

/-! ## Runs that account for their errors -/

section

variable (host : Host σ α) (options : Options) (keeps : σ → VisitError → Prop)
  (P : VisitError → Prop)

/-- If all errors have a property that are raised in a run, or kept before it, then so do the error
with which it ends and those that are kept after it. -/
def Accounts (s : State σ Walker) (x : CallRun σ α Walker) : Prop :=
  (∀ e, Origin host options keeps x.moments e → P e) → (∀ e, keeps s.world.host e → P e) →
    ∀ outcome t, x.result = some (outcome, t) →
      (∀ e, outcome = .error e → P e) ∧ ∀ e, keeps t.world.host e → P e

variable {host options keeps P} {s : State σ Walker} {x : CallRun σ α Walker}

theorem Accounts.pure {t : State σ Walker} {outcome : Outcome}
    (ht : ∀ e, keeps t.world.host e → keeps s.world.host e)
    (ho : ∀ e, outcome = .error e → P e) :
    Accounts host options keeps P s (.pure (outcome, t)) := by
  intro _ hkept outcome' t' h
  cases h
  exact ⟨ho, fun e he => hkept e (ht e he)⟩

theorem Accounts.mark (h : Accounts host options keeps P s x) (m : Moment σ α Walker) :
    Accounts host options keeps P s (x.mark m) :=
  fun hraised => h fun e he => hraised e (he.mono (List.suffix_cons m x.moments).isInfix)

/-- The second part of a run begins with the errors that the first part has left, which are
accounted for. -/
theorem Accounts.bind {f : Outcome × State σ Walker → CallRun σ α Walker}
    (h : Accounts host options keeps P s x)
    (hf : ∀ outcome t, x.result = some (outcome, t) → (∀ e, outcome = .error e → P e) →
      Accounts host options keeps P t (f (outcome, t))) :
    Accounts host options keeps P s (x.bind f) := by
  intro hraised hkept outcome' t' hr
  obtain ⟨⟨outcome, t⟩, hx, hr⟩ := Option.bind_eq_some_iff.1 hr
  rw [moments_bind_of_result hx] at hraised
  obtain ⟨ho, hkept'⟩ := h
    (fun e he => hraised e (he.mono (List.prefix_append _ _).isInfix)) hkept outcome t hx
  exact hf outcome t hx ho (fun e he => hraised e (he.mono (List.suffix_append _ _).isInfix)) hkept'
    outcome' t' hr

theorem Accounts.thenOk {next : State σ Walker → CallRun σ α Walker}
    (h : Accounts host options keeps P s x)
    (hnext : ∀ t, x.result = some (.ok (), t) → Accounts host options keeps P t (next t)) :
    Accounts host options keeps P s (x.thenOk next) := by
  refine h.bind fun outcome t hx ho => ?_
  cases outcome with
  | error e => exact .pure (fun _ he => he) ho
  | ok _ => exact hnext t hx

end

/-! ## Step by step -/

/-- What is done inside an expansion falls into it. -/
theorem within_of_mem_walkInside {limit : Nat} {setting : Walk.Setting σ α} {id : NodeId}
    {type : String} {keys : List String} {s : State σ Walker} {first m : Moment σ α Walker}
    (h : m ∈ (walkInside Walker.keeping (run Walker.keeping limit) setting first.held id type keys
      s).moments) :
    Within (.mark first (walkInside Walker.keeping (run Walker.keeping limit) setting first.held id
      type keys s) : CallRun σ α Walker).moments first m := by
  obtain ⟨before, after, hsplit⟩ := List.append_of_mem h
  refine ⟨[], before, after, congrArg (first :: ·) hsplit, fun m' hm' => ?_⟩
  apply lt_of_mem_walkInside
  rw [hsplit, List.append_cons]
  exact List.mem_append_left _ hm'

section

variable {host : Host σ α} {options : Options} {keeps : σ → VisitError → Prop}
  {P : VisitError → Prop} {limit : Nat}

variable (host options keeps P) in
/-- Calls account for their errors, if the walker is sound when they are made. -/
def CallsAccount (call : Call σ α Walker) : Prop :=
  ∀ (handlers : Handlers α) (held : List Hold) (mode : Mode) (id : NodeId) (nodes : List NodeId)
    (s : State σ Walker), s.book.Lists nodes →
    Accounts host options keeps P s (call ⟨host, options, handlers⟩ held mode id s)

variable (host options keeps P) in
/-- A run accounts for its errors, and leaves the walker as it was. -/
structure Vouches (s : State σ Walker) (x : CallRun σ α Walker) : Prop where
  accounts : Accounts host options keeps P s x
  restores : Restores s x

variable {handlers : Handlers α} {held : List Hold} {nodes : List NodeId} {s : State σ Walker}
  {x : CallRun σ α Walker}

theorem vouches_done : Vouches host options keeps P s (.pure (.ok (), s) : CallRun σ α Walker) :=
  ⟨.pure (fun _ he => he) fun _ he => (nomatch he), restores_pure _ s⟩

theorem Vouches.mark (h : Vouches host options keeps P s x) (m : Moment σ α Walker) :
    Vouches host options keeps P s (x.mark m) :=
  ⟨h.accounts.mark m, h.restores⟩

theorem Vouches.thenOk {f : State σ Walker → CallRun σ α Walker}
    (h : Vouches host options keeps P s x) (hw : s.book.Lists nodes)
    (hf : ∀ t, x.result = some (.ok (), t) → t.book.Lists nodes →
      Vouches host options keeps P t (f t)) :
    Vouches host options keeps P s (x.thenOk f) := by
  have hnext : ∀ t, x.result = some (.ok (), t) → Vouches host options keeps P t (f t) :=
    fun t ht => hf t ht ((h.restores _ t ht).lists hw)
  exact ⟨h.accounts.thenOk fun t ht => (hnext t ht).accounts,
    Restores.thenOk h.restores fun t ht => (hnext t ht).restores⟩

variable (P) in
/-- If the turn of a field comes at a moment, while what is given is held and the given nodes are
being expanded, then a node in the field that is being expanded accounts for a cycle. -/
def Turn (held : List Hold) (nodes : List NodeId) (id : NodeId) (type key : String)
    (m : Moment σ α Walker) : Prop :=
  m.deed = .read id type key → m.held = held → m.state.book.ancestors = nodes →
    ∀ child ∈ m.state.world.heap.visitables id type key, child ∈ nodes → P (.cyclicChild type key)

variable (hc : CallsAccount host options keeps P (run Walker.keeping limit))

include hc

/-- A child is refused if it is being expanded; that is a cycle. -/
theorem walkChild_vouches {type : String} {c : Candidate} (rest : List Slot)
    (hw : s.book.Lists nodes) (hcycle : c.child ∈ nodes → P (.cyclicChild type c.key)) :
    Vouches host options keeps P s (Side.walkChild ⟨Walker.keeping, run Walker.keeping limit,
      ⟨host, options, handlers⟩, held⟩ type c rest s) := by
  unfold Side.walkChild walkChild
  dsimp only
  by_cases ho : Walker.keeping.isOpen s.book c.child = true
  · rw [if_pos ho]
    refine ⟨(Accounts.pure (fun _ he => he) fun e he => ?_).mark _, restores_pure (α := α) _ s⟩
    cases he
    exact hcycle ((hw.isOpen_iff c.child).1 ho)
  · rw [if_neg ho]
    exact ⟨(hc _ _ _ _ _ _ hw).mark _, always_restores.run limit _ _ _ _ s⟩

theorem walkSlots_vouches {type key : String} (properties : Bool) (slots : List Slot)
    (hw : s.book.Lists nodes)
    (hcycle : ∀ c ∈ slotCandidates key properties slots, c.child ∈ nodes →
      P (.cyclicChild type key)) :
    Vouches host options keeps P s (walkSlots Walker.keeping (run Walker.keeping limit)
      ⟨host, options, handlers⟩ held type key properties slots s) := by
  have hchains : Chains (fun s : State σ Walker => s.book.Lists nodes)
      fun (_ : List Candidate) s (x : CallRun σ α Walker) =>
        s.book.Lists nodes → Vouches host options keeps P s x :=
    { done := fun _ _ => vouches_done
      thenOk := fun hx hf hw => (hx hw).thenOk hw fun t _ ht => hf t ht ht }
  refine hchains.walkSlots ⟨Walker.keeping, run Walker.keeping limit, ⟨host, options, handlers⟩, held⟩
    key properties slots (fun c hmem rest t ht _ => ?_) hw hw
  refine walkChild_vouches hc rest ht fun hopen => ?_
  rw [key_of_mem_slotCandidates hmem]
  exact hcycle c hmem hopen

/-- Fields account for their errors, if a cycle accounts for itself that is met when the turn of a
field comes. -/
theorem walkFields_vouches (id : NodeId) (type : String) (keys : List String)
    (hw : s.book.Lists nodes)
    (hturn : ∀ m ∈ (walkFields Walker.keeping (run Walker.keeping limit) ⟨host, options, handlers⟩
        held id type keys s).moments, ∀ key ∈ keys, Turn P held nodes id type key m) :
    Vouches host options keeps P s (walkFields Walker.keeping (run Walker.keeping limit)
      ⟨host, options, handlers⟩ held id type keys s) := by
  let side : Side σ α Walker := ⟨Walker.keeping, run Walker.keeping limit, ⟨host, options, handlers⟩,
    held⟩
  -- Turns are promised for all moments of the run, so also for those of a part of it.
  have hchains : Chains (fun s : State σ Walker => s.book.Lists nodes)
      fun keys s (x : CallRun σ α Walker) => s.book.Lists nodes →
        (∀ m ∈ x.moments, ∀ key ∈ keys, Turn P held nodes id type key m) →
        Vouches host options keeps P s x :=
    { done := fun _ _ _ => vouches_done
      thenOk := by
        intro first rest s x f hx hf hw hturn
        have hfirst := hx hw fun m hm key hkey =>
          hturn m (List.mem_append_left _ hm) key (List.mem_append_left _ hkey)
        refine hfirst.thenOk hw fun t hr ht => hf t ht ht fun m hm key hkey => ?_
        refine hturn m ?_ key (List.mem_append_right _ hkey)
        rw [CallRun.thenOk, moments_bind_of_result hr]
        exact List.mem_append_right _ hm }
  have hfield : ∀ key s, s.book.Lists nodes → s.book.Lists nodes →
      (∀ m ∈ (walkField Walker.keeping (run Walker.keeping limit) ⟨host, options, handlers⟩ held id
        type key s).moments, ∀ k ∈ [key], Turn P held nodes id type k m) →
      Vouches host options keeps P s (walkField Walker.keeping (run Walker.keeping limit)
        ⟨host, options, handlers⟩ held id type key s) := by
    intro key s _ hw hturn
    rw [walkField_eq] at hturn ⊢
    have hread := hturn _ List.mem_cons_self key List.mem_cons_self
    refine (walkSlots_vouches hc _ _ hw fun c hmem hopen => ?_).mark _
    rw [Heap.slotCandidates_placesIn] at hmem
    exact hread rfl rfl hw.ancestors c.child (Heap.of_mem_candidates hmem).2.1 hopen
  have hall := hchains.walkFields side (fun key => [key]) hfield keys hw hw
  rw [List.flatMap_singleton'] at hall
  exact hall hturn

/-- A cycle that is met in an expansion accounts for itself: the expansion began when the child
fields were resolved, and all that was done since was done while more was held. -/
theorem expand_accounts (hhost : host.Honest keeps) {id : NodeId} (hw : s.book.Lists nodes) :
    Accounts host options keeps P s (expand Walker.keeping (run Walker.keeping limit)
      ⟨host, options, handlers⟩ held id (s.world.heap.effectiveType id) s) := by
  obtain ⟨⟨heap, state⟩, book⟩ := s
  obtain ⟨state', hannounce, hstate⟩ := announce_eq ⟨host, options, handlers⟩ id
    (heap.effectiveType id) heap state
  -- The notice brings no errors.
  have hbrings : ∀ e, keeps state' e → keeps state e :=
    hstate (fun state' => ∀ e, keeps state' e → keeps state e) (fun _ he => he)
      fun notice => hhost.notify notice heap state
  intro hraised hkept
  cases hk : options.resolveKeys heap id (heap.effectiveType id) with
  | error e =>
    rw [expand_of_error _ _ _ hk, hannounce] at hraised ⊢
    obtain ⟨hlisted, -, rfl⟩ := Options.resolveKeys_eq_error_iff.1 hk
    refine (Accounts.pure hbrings fun e he => ?_).mark _ hraised hkept
    cases he
    exact hraised _ (.unresolved List.mem_cons_self rfl (Options.type?_of_not_listed hlisted) hk)
  | ok keys =>
    rw [expand_of_ok _ _ _ hk, hannounce] at hraised ⊢
    refine (Accounts.bind (walkFields_vouches hc id _ keys (hw.enter id) ?_).accounts
      fun outcome u _ ho => (Accounts.pure (fun _ he => he) ho).mark _).mark _ hraised
      fun e he => hkept e (hbrings e he)
    intro m hm key hkey hdeed hheld hancestors child hchild hopen
    exact hraised _ (.cycle (within_of_mem_walkInside (List.mem_append_left _ hm)) rfl rfl hk hkey
      hdeed hheld (by rw [hancestors, hw.ancestors]) hchild (by rwa [hancestors]))

/-- A script passes errors on that it has received, which account for themselves, and makes
others. -/
theorem runScript_accounts (script : Script σ α) {known : VisitError → Prop}
    (hs : script.Honest keeps known) (hknown : ∀ e, known e → P e)
    (hmakes : ∀ message, Makes keeps (run Walker.keeping limit) ⟨host, options, handlers⟩ held
      (.handler message) known script s → P (.handler message))
    (hw : s.book.Lists nodes) :
    Accounts host options keeps P s (runScript Walker.keeping (run Walker.keeping limit)
      ⟨host, options, handlers⟩ held script s) := by
  have hlearn : ∀ {known : VisitError → Prop} {outcome : Outcome}, (∀ e, known e → P e) →
      (∀ e, outcome = .error e → P e) → ∀ e, knownAfter known outcome e → P e := by
    rintro known outcome hk ho e (he | he)
    · exact hk e he
    · exact ho e he
  induction script generalizing known s with
  | done outcome =>
    refine (Accounts.pure (fun _ he => he) fun e he => ?_).mark _
    rcases hs e he with hk | ⟨message, rfl⟩
    · exact hknown e hk
    · by_cases hk : known (.handler message)
      · exact hknown _ hk
      · exact hmakes message ⟨he, hk⟩
  | inspect next ih =>
    refine Accounts.mark (fun hraised hkept => ?_) _
    refine ih _ _ (hs _ _) ?_ hmakes hw hraised hkept
    rintro e (he | he)
    · exact hknown e he
    · exact hkept e he
  | change f next ih =>
    refine Accounts.mark (fun hraised hkept => ?_) _
    refine ih hs.2 hknown (fun message h => hmakes message (.inr h)) hw hraised fun e he => ?_
    -- An error in the new state was known, or it was in the old one, or it is made here.
    rcases hs.1 _ e he with hk | hk | ⟨message, rfl⟩
    · exact hknown e hk
    · exact hkept e hk
    · by_cases hk : known (.handler message) ∨ keeps s.world.host (.handler message)
      · exact hk.elim (hknown _) (hkept _)
      · exact hmakes message (.inl ⟨he, not_or.1 hk⟩)
  | depth next ih => exact (ih _ (hs _) hknown hmakes hw).mark _
  | options next ih => exact (ih _ (hs _) hknown hmakes hw).mark _
  | go mode node next ih =>
    cases node with
    | none => exact (ih _ (hs _) (hlearn hknown fun e he => by cases he) hmakes hw).mark _
    | some id =>
      refine ((hc _ _ mode id nodes s hw).bind fun outcome t ht ho => ?_).mark _
      exact ih _ (hs _) (hlearn hknown ho) (fun message h => hmakes message ⟨outcome, t, ht, h⟩)
        ((always_restores.run limit _ _ mode id s outcome t ht).lists hw)
  | walk mode own id next ih =>
    refine (Accounts.bind (hc own _ mode id [] ⟨s.world, {}⟩ Walker.lists_new)
      fun outcome t ht ho => ?_).mark _
    exact ih _ (hs _) (hlearn hknown ho) (fun message h => hmakes message ⟨outcome, t, ht, h⟩) hw

end

theorem respond_accounts {host : Host σ α} {options : Options} {keeps : σ → VisitError → Prop}
    {P : VisitError → Prop} {limit : Nat} (hhost : host.Honest keeps)
    (hc : CallsAccount host options keeps P (run Walker.keeping limit)) :
    CallsAccount host options keeps P (respond Walker.keeping (run Walker.keeping limit)) := by
  intro handlers held mode id nodes s hw
  cases mode with
  | children => exact expand_accounts hc hhost hw
  | visit =>
    simp only [respond]
    cases hh : handlers.get? (s.world.heap.effectiveType id) with
    | none => exact expand_accounts hc hhost hw
    | some handler =>
      show Accounts host options keeps P s
        (called (run Walker.keeping limit) ⟨host, options, handlers⟩ held handler id s)
      intro hraised hkept
      have hbook : (dispatched ⟨host, options, handlers⟩ id s).book.Lists nodes := hw
      have hscript := runScript_accounts hc (host.behave handler id) (hhost.behave handler id)
        (fun _ he => he.elim) (fun message h => hraised _ (.made List.infix_rfl h)) hbook
      exact hscript.mark _ hraised fun e he => hkept e (hhost.notify _ _ _ e he)

/-- Whatever honest handlers do, runs account for their errors. -/
theorem run_accounts {host : Host σ α} {keeps : σ → VisitError → Prop} (hhost : host.Honest keeps)
    (options : Options) (P : VisitError → Prop) :
    ∀ (limit : Nat), CallsAccount host options keeps P (run Walker.keeping limit)
  | 0 => fun _ _ _ _ _ _ _ _ _ _ _ h => by cases h
  | limit + 1 => respond_accounts hhost (run_accounts hhost options P limit)

/-! ## The error of a walk -/

/-- Let handlers make errors of handlers only, catch the errors that they receive, and keep them and
pass them on as they like. Then the error with which a walk ends was raised at a moment of the walk,
in the way that its kind says. An unknown type has a name and is in no table, and the fallback
forbids such types. -/
theorem error_has_origin (limit : Nat) (setting : Walk.Setting σ α) (keeps : σ → VisitError → Prop)
    (hhost : setting.host.Honest keeps) (mode : Mode) (root : NodeId) (world : World σ)
    (hkept : ∀ e, ¬keeps world.host e) (e : VisitError) (world' : World σ)
    (h : SyntaxWalk.walk limit setting mode (some root) world = some (.error e, world')) :
    Origin setting.host setting.options keeps
        (walk Walker.keeping limit setting mode (some root) world).moments e ∧
      ∀ type, e = .unknownNodeType type → setting.options.fallback = .error ∧ type ≠ "" ∧
        setting.options.overrides.get? type = none ∧ defaultKeys.get? type = none := by
  have hresult := (walk_result limit setting mode (some root) world).trans h
  obtain ⟨⟨_, t⟩, ht, heq⟩ := Option.bind_eq_some_iff.1 hresult
  cases heq
  have horigin : Origin setting.host setting.options keeps (run Walker.keeping limit setting
      [.node root] mode root ⟨world, Walker.keeping.new⟩).moments e :=
    (run_accounts hhost setting.options _ limit setting.handlers [.node root] mode root []
      ⟨world, Walker.keeping.new⟩ Walker.lists_new (fun _ ho => ho) (fun e he => (hkept e he).elim)
      _ t ht).1 e rfl
  refine ⟨horigin.mono (List.prefix_append _ _).isInfix, ?_⟩
  rintro type rfl
  cases horigin with
  | unresolved hm hdeed htype hkeys =>
    obtain ⟨hlisted, hfallback, -⟩ := Options.resolveKeys_eq_error_iff.1 hkeys
    exact ⟨hfallback, Fields.ne_of_type? htype, Options.listed?_eq_none_iff.1 hlisted⟩

/-- A handler that expands its node. It puts the error that it receives into the state of the host,
and then returns the error that it finds there. -/
def errorKeeper : Walk.Setting (Option VisitError) Unit where
  host := ⟨fun _ id => .go .children (some id) fun
      | .ok () => .done (.ok ())
      | .error e => .change (fun world => { world with host := some e }) <|
        .inspect fun world _ => .done (world.host.elim (.ok ()) .error),
    fun _ _ host => host⟩
  options := { overrides := StringMap.empty.insert "Loop" ["next"] }
  handlers := Record.empty.insert "Loop" ()

theorem errorKeeper_honest : errorKeeper.host.Honest fun host e => host = some e := by
  refine ⟨fun _ id outcome => ?_, fun _ _ _ _ he => he⟩
  cases outcome with
  | ok _ => exact fun e he => by cases he
  | error e =>
    refine ⟨fun _ e' he => .inl (.inr ?_), fun world _ e' he => .inl (.inr ?_)⟩
    · cases he
      rfl
    · cases hh : world.host with
      | none => rw [hh] at he; cases he
      | some _ => rw [hh] at he; cases he; rfl

theorem error_has_origin_errorKeeper :
    SyntaxWalk.walk 2 errorKeeper .visit (some 0) ⟨Walk.selfLoop, none⟩ =
        some (.error (.cyclicChild "Loop" "next"),
          ⟨Walk.selfLoop, some (.cyclicChild "Loop" "next")⟩) ∧
      Origin errorKeeper.host errorKeeper.options (fun host e => host = some e)
        (walk Walker.keeping 2 errorKeeper .visit (some 0) ⟨Walk.selfLoop, none⟩).moments
        (.cyclicChild "Loop" "next") := by
  have hopen : (({} : Walker).enter 0).isOpen 0 = true := by simp [Walker.isOpen_enter]
  have hchild : Walk.selfLoop.child 0 "next" = .one (.node 0) := by decide
  have hkeys : errorKeeper.options.resolveKeys Walk.selfLoop 0 "Loop" = .ok ["next"] := rfl
  have hnotice : errorKeeper.options.notice? 0 "Loop" = none := rfl
  have hexpand : Walk.run 1 errorKeeper [.node 0, .node 0] .children 0 ⟨⟨Walk.selfLoop, none⟩, {}⟩ =
      some (.error (.cyclicChild "Loop" "next"),
        ⟨⟨Walk.selfLoop, none⟩, (({} : Walker).enter 0).leave 0 true⟩) := by
    show Walk.expand (Walk.run 0) errorKeeper _ 0 "Loop" _ = _
    simp [Walk.expand, hkeys, Walk.announce, hnotice, Walk.walkInside, Walk.walkFields,
      Walk.walkField, hchild, Walk.walkSlots, Slot.visitable?, Walk.walkChild, hopen]
  have h : SyntaxWalk.walk 2 errorKeeper .visit (some 0) ⟨Walk.selfLoop, none⟩ =
      some (.error (.cyclicChild "Loop" "next"),
        ⟨Walk.selfLoop, some (.cyclicChild "Loop" "next")⟩) := by
    show (Walk.runScript (Walk.run 1) errorKeeper [.node 0] (.go .children (some 0) _)
      ⟨⟨Walk.selfLoop, none⟩, {}⟩).map _ = _
    rw [Walk.runScript, hexpand]
    rfl
  exact ⟨h, (error_has_origin 2 errorKeeper _ errorKeeper_honest .visit 0 ⟨Walk.selfLoop, none⟩
    (fun _ he => by cases he) _ _ h).1⟩

end Trace

end SyntaxWalk
