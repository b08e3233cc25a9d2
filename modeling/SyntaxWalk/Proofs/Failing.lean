/-
A handler that fails ends the walk at once, and changes nothing before. Handlers note their calls,
and then return, or expand their node and return how that ended. If the calls for some nodes fail
right after the note instead, the notes are those of the first such call and of the calls before it,
and its error is how the walk ends; without such a call nothing is different.
-/
import SyntaxWalk.Proofs.Termination

namespace SyntaxWalk

variable {σ α : Type}

/-! ## Handlers that note their calls -/

/-- A script that makes the given notes and returns. Besides, it looks around, and changes what is
neither a node nor a note. -/
def Script.Notes (log : σ → List (α × NodeId)) : List (α × NodeId) → Script σ α → Prop
  | notes, .done outcome => outcome = .ok () ∧ notes = []
  | notes, .inspect next => ∀ world alive, (next world alive).Notes log notes
  | notes, .change f next => ∃ first rest, notes = first ++ rest ∧
    (∀ world, (f world).heap = world.heap ∧ log (f world).host = log world.host ++ first) ∧
    next.Notes log rest
  | notes, .depth next => ∀ depth, (next depth).Notes log notes
  | notes, .options next => ∀ options, (next options).Notes log notes
  | _, .go _ _ _ => False
  | _, .walk _ _ _ _ => False

/-- A script that returns, or expands the given node and returns how that ended. Before, it looks
around, and changes what is neither a node nor a note. -/
def Script.Proceeds (log : σ → List (α × NodeId)) (id : NodeId) : Script σ α → Prop
  | .done outcome => outcome = .ok ()
  | .inspect next => ∀ world alive, (next world alive).Proceeds log id
  | .change f next =>
    (∀ world, (f world).heap = world.heap ∧ log (f world).host = log world.host) ∧
      next.Proceeds log id
  | .depth next => ∀ depth, (next depth).Proceeds log id
  | .options next => ∀ options, (next options).Proceeds log id
  | .go mode node next => mode = .children ∧ node = some id ∧ next = .done
  | .walk _ _ _ _ => False

/-- Handlers that note their calls. -/
structure Notetaker (σ α : Type) where
  /-- The note of a call. -/
  record : α → NodeId → Script σ α
  /-- What is done after the note. -/
  rest : α → NodeId → Script σ α
  notify : Notice → Heap → σ → σ
  /-- The notes in the state of the host, oldest first. -/
  log : σ → List (α × NodeId)
  notes : ∀ handler id, (record handler id).Notes log [(handler, id)]
  proceeds : ∀ handler id, (rest handler id).Proceeds log id
  log_notify : ∀ notice heap host, log (notify notice heap host) = log host

namespace Notetaker

/-- The host of the handlers. -/
def host (taker : Notetaker σ α) : Host σ α where
  behave handler id := (taker.record handler id).thenOk (taker.rest handler id)
  notify := taker.notify

/-- The host of the same handlers, but calls for some nodes fail after the note. -/
def failingHost (taker : Notetaker σ α) (fails : NodeId → Bool) (error : α → NodeId → VisitError) :
    Host σ α where
  behave handler id := (taker.record handler id).thenOk <|
    if fails id then .done (.error (error handler id)) else taker.rest handler id
  notify := taker.notify

end Notetaker

namespace Script

variable {log : σ → List (α × NodeId)} {notes : List (α × NodeId)} {id : NodeId}

/-- A note asks the walker for nothing. -/
theorem Notes.inward_thenOk {record next : Script σ α} (h : record.Notes log notes)
    (hnext : next.Inward id) : (record.thenOk next).Inward id := by
  induction record generalizing notes with
  | done outcome =>
    obtain ⟨rfl, -⟩ := h
    exact hnext
  | inspect _ ih => exact fun world alive => ih world alive (h world alive)
  | change f _ ih =>
    obtain ⟨first, rest, -, hf, h⟩ := h
    exact ⟨fun world => (hf world).1, ih h⟩
  | depth _ ih => exact fun depth => ih depth (h depth)
  | options _ ih => exact fun options => ih options (h options)
  | go => exact h.elim
  | walk => exact h.elim

/-- What comes after the note goes inward. -/
theorem Proceeds.inward {script : Script σ α} (h : script.Proceeds log id) : script.Inward id := by
  induction script with
  | done outcome => trivial
  | inspect _ ih => exact fun world alive => ih world alive (h world alive)
  | change f _ ih => exact ⟨fun world => (h.1 world).1, ih h.2⟩
  | depth _ ih => exact fun depth => ih depth (h depth)
  | options _ ih => exact fun options => ih options (h options)
  | go mode node next =>
    obtain ⟨hmode, hnode, rfl⟩ := h
    exact ⟨⟨hmode, hnode⟩, fun _ => trivial⟩
  | walk => exact h.elim

end Script

namespace Notetaker

variable (taker : Notetaker σ α) (options : Options) (handlers : Handlers α)

theorem host_inward : (⟨taker.host, options, handlers⟩ : Walk.Setting σ α).Inward :=
  fun _ handler _ id => (taker.notes handler id).inward_thenOk (taker.proceeds handler id).inward

theorem failingHost_inward (fails : NodeId → Bool) (error : α → NodeId → VisitError) :
    (⟨taker.failingHost fails error, options, handlers⟩ : Walk.Setting σ α).Inward := by
  intro _ handler _ id
  refine (taker.notes handler id).inward_thenOk ?_
  split
  · trivial
  · exact (taker.proceeds handler id).inward

end Notetaker

/-! ## Two results -/

namespace Trace

section

variable (log : σ → List (α × NodeId)) (fails : NodeId → Bool) (error : α → NodeId → VisitError)

/-- How a run ends with handlers that fail, when the same run ends with `r` otherwise and the given
calls are noted meanwhile: in the same way, or with the error of the first call that fails. -/
inductive Halts (calls : List (α × NodeId)) (s : State σ Walker)
    (r : Option (Outcome × State σ Walker)) : Option (Outcome × State σ Walker) → Prop where
  | never (hcalls : ∀ c ∈ calls, fails c.2 = false) : Halts calls s r r
  | first {before after c t} (hcalls : calls = before ++ c :: after)
    (hbefore : ∀ b ∈ before, fails b.2 = false) (hc : fails c.2 = true)
    (hlog : log t.world.host = log s.world.host ++ (before ++ [c])) :
    Halts calls s r (some (.error (error c.1 c.2), t))

/-- If a run ends, calls were noted, and with handlers that fail it halts at the first of them that
does. -/
def Curtails (s : State σ Walker) (r r' : Option (Outcome × State σ Walker)) : Prop :=
  ∀ outcome t, r = some (outcome, t) → ∃ calls, log t.world.host = log s.world.host ++ calls ∧
    Halts log fails error calls s r r'

end

variable {log : σ → List (α × NodeId)} {fails : NodeId → Bool} {error : α → NodeId → VisitError}
  {s : State σ Walker} {r r' : Option (Outcome × State σ Walker)} {x y : CallRun σ α Walker}

theorem curtails_some {t : State σ Walker} (h : log t.world.host = log s.world.host)
    (outcome : Outcome) :
    Curtails log fails error s (some (outcome, t)) (some (outcome, t)) := by
  intro outcome' t' heq
  cases heq
  exact ⟨[], by rw [h, List.append_nil], .never fun c hc => by cases hc⟩

/-- Calls that do not fail are noted before both runs. -/
theorem Curtails.after {t : State σ Walker} {calls : List (α × NodeId)}
    (h : Curtails log fails error t r r') (hlog : log t.world.host = log s.world.host ++ calls)
    (hcalls : ∀ c ∈ calls, fails c.2 = false) : Curtails log fails error s r r' := by
  have hall : ∀ {more : List (α × NodeId)}, (∀ c ∈ more, fails c.2 = false) →
      ∀ c ∈ calls ++ more, fails c.2 = false := by
    intro more hmore c hc
    rcases List.mem_append.1 hc with hc | hc
    · exact hcalls c hc
    · exact hmore c hc
  intro outcome u hr
  obtain ⟨more, hmore, hhalts⟩ := h outcome u hr
  refine ⟨calls ++ more, by rw [hmore, hlog, List.append_assoc], ?_⟩
  cases hhalts with
  | never hnever => exact .never (hall hnever)
  | @first before rest c t' heq hbefore hc hlog' =>
    have hcut : calls ++ more = (calls ++ before) ++ c :: rest := by rw [heq, List.append_assoc]
    refine .first hcut (hall hbefore) hc ?_
    rw [hlog', hlog, List.append_assoc, List.append_assoc]

theorem Curtails.afterQuiet {t : State σ Walker} (h : Curtails log fails error t r r')
    (hlog : log t.world.host = log s.world.host) : Curtails log fails error s r r' := by
  have hnone : log t.world.host = log s.world.host ++ [] := by rw [hlog, List.append_nil]
  exact h.after hnone fun c hc => by cases hc

/-- After a failure nothing more is done; in the other run, more calls may be noted. -/
theorem Curtails.thenOk {f g : State σ Walker → CallRun σ α Walker}
    (h : Curtails log fails error s x.result y.result)
    (hnext : ∀ t, Curtails log fails error t (f t).result (g t).result) :
    Curtails log fails error s (x.thenOk f).result (y.thenOk g).result := by
  obtain ⟨ms, r⟩ := x
  obtain ⟨ns, r'⟩ := y
  rcases r with _ | ⟨e | _, t⟩
  · intro outcome u hr
    cases hr
  · -- The first run fails by itself.
    intro outcome u hr
    obtain ⟨calls, hlog, hhalts⟩ := h outcome u hr
    refine ⟨calls, hlog, ?_⟩
    cases hhalts with
    | never hcalls => exact .never hcalls
    | first hcalls hbefore hc hlog' => exact .first hcalls hbefore hc hlog'
  · obtain ⟨calls, hlog, hhalts⟩ := h _ t rfl
    cases hhalts with
    | never hcalls => exact (hnext t).after hlog hcalls
    | @first before rest c t' heq hbefore hc hlog' =>
      intro outcome u hr
      obtain ⟨more, hmore, -⟩ := hnext t outcome u hr
      have hcut : calls ++ more = before ++ c :: (rest ++ more) := by
        rw [heq, List.append_assoc, List.cons_append]
      refine ⟨calls ++ more, ?_, .first hcut hbefore hc hlog'⟩
      rw [hmore, hlog, List.append_assoc]

/-- In the end a node is left, and only what the walker remembers is changed. -/
theorem Curtails.leave (h : Curtails log fails error s x.result y.result) (held : List Hold)
    (id : NodeId) (f : Walker → Walker) :
    Curtails log fails error s
      (x.bind fun (outcome, u) => .mark ⟨.leave id, held, u⟩
        (.pure (outcome, ⟨u.world, f u.book⟩)) : CallRun σ α Walker).result
      (y.bind fun (outcome, u) => .mark ⟨.leave id, held, u⟩
        (.pure (outcome, ⟨u.world, f u.book⟩)) : CallRun σ α Walker).result := by
  obtain ⟨ms, r⟩ := x
  obtain ⟨ns, r'⟩ := y
  rcases r with _ | ⟨outcome, t⟩
  · intro outcome u hr
    cases hr
  · intro outcome' u hr
    cases hr
    obtain ⟨calls, hlog, hhalts⟩ := h outcome t rfl
    refine ⟨calls, hlog, ?_⟩
    cases hhalts with
    | never hcalls => exact .never hcalls
    | first hcalls hbefore hc hlog' => exact .first hcalls hbefore hc hlog'

/-! ## Step by step -/

section

variable (taker : Notetaker σ α) (fails : NodeId → Bool) (error : α → NodeId → VisitError)
  (options : Options) (handlers : Handlers α) (call : Call σ α Walker)

/-- Calls of the same walker with both hosts. -/
def CallsCurtail : Prop :=
  ∀ (held : List Hold) (mode : Mode) (id : NodeId) (s : State σ Walker),
    Curtails taker.log fails error s (call ⟨taker.host, options, handlers⟩ held mode id s).result
      (call ⟨taker.failingHost fails error, options, handlers⟩ held mode id s).result

variable {taker fails error options handlers call}
  (hc : CallsCurtail taker fails error options handlers call) (held : List Hold)

include hc

/-- Up to the first failure, both runs go through fields together. -/
theorem lockstep_curtails (id : NodeId) (type : String) :
    Lockstep ⟨Walker.keeping, call, ⟨taker.host, options, handlers⟩, held⟩
      ⟨Walker.keeping, call, ⟨taker.failingHost fails error, options, handlers⟩, held⟩ id type
      (fun s t => t = s)
      fun s _ x y => Curtails taker.log fails error s x.result y.result where
  heap hm := by rw [hm]
  isOpen hm _ := by rw [hm]
  done hm := by
    rw [hm]
    exact curtails_some rfl _
  thenOk hx hf := hx.thenOk fun t => hf t t rfl
  read _ hx := hx
  refused _ _ hm _ := by
    rw [hm]
    exact curtails_some rfl _
  visited _ _ hm _ := by
    rw [hm]
    exact hc _ _ _ _

/-- An expansion notes nothing itself. -/
theorem expand_curtails (id : NodeId) (type : String) (s : State σ Walker) :
    Curtails taker.log fails error s
      (expand Walker.keeping call ⟨taker.host, options, handlers⟩ held id type s).result
      (expand Walker.keeping call ⟨taker.failingHost fails error, options, handlers⟩ held id type
        s).result := by
  obtain ⟨⟨heap, state⟩, book⟩ := s
  obtain ⟨state', hannounce, hlog⟩ :=
    announce_eq ⟨taker.host, options, handlers⟩ id type heap state
  have hannounce' : announce ⟨taker.failingHost fails error, options, handlers⟩ id type
    ⟨⟨heap, state⟩, book⟩ = ⟨⟨heap, state'⟩, book⟩ := hannounce book
  -- A notice is no note.
  have hquiet : taker.log state' = taker.log state :=
    hlog (taker.log · = taker.log state) rfl fun notice => taker.log_notify notice heap state
  unfold expand
  rw [hannounce, hannounce']
  cases options.resolveKeys heap id type with
  | error e => exact curtails_some hquiet _
  | ok keys =>
    have hfields := (lockstep_curtails hc (.node id :: held) id type).walkFields keys
      (rfl (a := ⟨⟨heap, state'⟩, Walker.keeping.enter book id⟩))
    have hinside := hfields.leave (.node id :: held) id fun w =>
      Walker.keeping.leave w id (!Walker.keeping.isOpen book id)
    exact hinside.afterQuiet (s := ⟨⟨heap, state⟩, book⟩) hquiet

omit hc in
/-- A note is made in the same way by both hosts, whatever comes then. -/
theorem runScript_notes {record : Script σ α} {notes : List (α × NodeId)}
    (h : record.Notes taker.log notes) (s : State σ Walker) :
    ∃ t : State σ Walker, taker.log t.world.host = taker.log s.world.host ++ notes ∧
      ∀ (host : Host σ α) (next : Script σ α),
        (runScript Walker.keeping call ⟨host, options, handlers⟩ held (record.thenOk next) s).result =
          (runScript Walker.keeping call ⟨host, options, handlers⟩ held next t).result := by
  induction record generalizing notes s with
  | done outcome =>
    obtain ⟨rfl, rfl⟩ := h
    exact ⟨s, (List.append_nil _).symm, fun _ _ => rfl⟩
  | inspect _ ih => exact ih s.world _ (h _ _) s
  | change f _ ih =>
    obtain ⟨first, rest, rfl, hf, h⟩ := h
    obtain ⟨t, hlog, hrun⟩ := ih h ⟨f s.world, s.book⟩
    refine ⟨t, ?_, hrun⟩
    rw [hlog, (hf s.world).2, List.append_assoc]
  | depth _ ih => exact ih _ (h _) s
  | options _ ih => exact ih _ (h _) s
  | go => exact h.elim
  | walk => exact h.elim

omit hc in
theorem result_expand_script (setting : Walk.Setting σ α) (id : NodeId) (s : State σ Walker) :
    (runScript Walker.keeping call setting held (.go .children (some id) .done) s).result =
      (call setting (.node id :: held) .children id s).result := by
  unfold runScript
  rw [Run.result_mark, Run.result_bind]
  rcases (call setting (.node id :: held) .children id s).result with _ | ⟨outcome, t⟩
  · rfl
  · rfl

/-- After the note, what a handler does is the same with both hosts. -/
theorem runScript_proceeds {id : NodeId} {script : Script σ α} (h : script.Proceeds taker.log id)
    (s : State σ Walker) :
    Curtails taker.log fails error s
      (runScript Walker.keeping call ⟨taker.host, options, handlers⟩ held script s).result
      (runScript Walker.keeping call ⟨taker.failingHost fails error, options, handlers⟩ held script
        s).result := by
  induction script generalizing s with
  | done outcome => exact curtails_some rfl _
  | inspect _ ih => exact ih _ _ (h _ _) s
  | change f _ ih =>
    obtain ⟨hf, h⟩ := h
    exact (ih h ⟨f s.world, s.book⟩).afterQuiet (hf s.world).2
  | depth _ ih => exact ih _ (h _) s
  | options _ ih => exact ih _ (h _) s
  | go mode node next =>
    obtain ⟨rfl, rfl, rfl⟩ := h
    rw [result_expand_script, result_expand_script]
    exact hc (.node id :: held) .children id s
  | walk => exact h.elim

/-- A handler notes its call, and fails then, or goes on in the same way. -/
theorem behave_curtails (handler : α) (id : NodeId) (s : State σ Walker) :
    Curtails taker.log fails error s
      (runScript Walker.keeping call ⟨taker.host, options, handlers⟩ held
        (taker.host.behave handler id) s).result
      (runScript Walker.keeping call ⟨taker.failingHost fails error, options, handlers⟩ held
        ((taker.failingHost fails error).behave handler id) s).result := by
  obtain ⟨t, hlog, hrun⟩ := runScript_notes held (taker.notes handler id) s
  have hrest := runScript_proceeds hc held (taker.proceeds handler id) t
  unfold Notetaker.failingHost Notetaker.host
  dsimp only
  rw [hrun, hrun]
  by_cases hfails : fails id = true
  · rw [if_pos hfails]
    intro outcome u hu
    obtain ⟨more, hmore, -⟩ := hrest outcome u hu
    refine ⟨(handler, id) :: more, by rw [hmore, hlog, List.append_assoc]; rfl, ?_⟩
    exact .first (List.nil_append _).symm (fun b hb => by cases hb) hfails hlog
  · rw [if_neg hfails]
    refine hrest.after hlog fun c hc => ?_
    rw [List.mem_singleton.1 hc]
    exact Bool.eq_false_iff.2 hfails

theorem respond_curtails :
    CallsCurtail taker fails error options handlers (respond Walker.keeping call) := by
  intro held mode id s
  cases mode with
  | children => exact expand_curtails hc held id _ s
  | visit =>
    unfold respond
    dsimp only
    cases handlers.get? (s.world.heap.effectiveType id) with
    | none => exact expand_curtails hc held id _ s
    | some handler =>
      exact (behave_curtails hc held handler id _).afterQuiet (taker.log_notify _ _ _)

end

/-- Runs with handlers that fail halt at the first call that does. -/
theorem run_curtails (taker : Notetaker σ α) (fails : NodeId → Bool)
    (error : α → NodeId → VisitError) (options : Options) (handlers : Handlers α) :
    ∀ (limit : Nat), CallsCurtail taker fails error options handlers (run Walker.keeping limit)
  | 0 => fun _ _ _ _ _ _ h => by cases h
  | limit + 1 => respond_curtails (run_curtails taker fails error options handlers limit)

/-! ## The walk up to the first failure -/

/-- There is only one first call that fails. -/
theorem first_unique {fails : NodeId → Bool} :
    ∀ {before before' after after' : List (α × NodeId)} {c c' : α × NodeId},
      before ++ c :: after = before' ++ c' :: after' → (∀ b ∈ before, fails b.2 = false) →
      (∀ b ∈ before', fails b.2 = false) → fails c.2 = true → fails c'.2 = true →
      before = before' ∧ c = c'
  | [], [], _, _, _, _, h, _, _, _, _ => ⟨rfl, (List.cons.inj h).1⟩
  | [], b' :: _, _, _, c, _, h, _, hb', hc, _ => by
    obtain ⟨rfl, -⟩ := List.cons.inj h
    rw [hb' c List.mem_cons_self] at hc
    cases hc
  | b :: _, [], _, _, _, c', h, hb, _, _, hc' => by
    obtain ⟨rfl, -⟩ := List.cons.inj h
    rw [hb b List.mem_cons_self] at hc'
    cases hc'
  | b :: before, b' :: before', _, _, _, _, h, hb, hb', hc, hc' => by
    obtain ⟨rfl, hrest⟩ := List.cons.inj h
    obtain ⟨rfl, hcc⟩ := first_unique hrest (fun x hx => hb x (List.mem_cons_of_mem _ hx))
      (fun x hx => hb' x (List.mem_cons_of_mem _ hx)) hc hc'
    exact ⟨rfl, hcc⟩

end Trace

/-- A handler that fails stops the walk at once and changes nothing before it. Whatever the heap,
the walk with handlers that note their calls ends, and so does the walk in which calls for some
nodes fail after the note. If no call of the first walk is for such a node, both end in the same way
and with the same notes. Otherwise the notes of the second walk are those of the first one up to the
first such call, and it ends with the error of that call. -/
theorem failing_handler_stops_walk (taker : Notetaker σ α) (fails : NodeId → Bool)
    (error : α → NodeId → VisitError) (options : Options) (handlers : Handlers α) (heap : Heap)
    (mode : Mode) (root : NodeId) (host : σ) :
    ∀ limit ≥ 2 * (heap.size + 1), ∃ outcome host' calls,
      walk limit ⟨taker.host, options, handlers⟩ mode (some root) ⟨heap, host⟩ =
          some (outcome, ⟨heap, host'⟩) ∧
      taker.log host' = taker.log host ++ calls ∧
      ((∀ c ∈ calls, fails c.2 = false) →
        walk limit ⟨taker.failingHost fails error, options, handlers⟩ mode (some root)
          ⟨heap, host⟩ = some (outcome, ⟨heap, host'⟩)) ∧
      ∀ before c after, calls = before ++ c :: after → (∀ b ∈ before, fails b.2 = false) →
        fails c.2 = true → ∃ host'',
          walk limit ⟨taker.failingHost fails error, options, handlers⟩ mode (some root)
              ⟨heap, host⟩ = some (.error (error c.1 c.2), ⟨heap, host''⟩) ∧
            taker.log host'' = taker.log host ++ (before ++ [c]) := by
  intro limit hl
  obtain ⟨⟨outcome, _, hrun, host', -⟩, -⟩ := Trace.root_goesOn
    (taker.host_inward options handlers) heap mode root hl [.node root] _ (.mk host Walker.lists_new)
  obtain ⟨⟨outcome', _, hrun', host'', -⟩, -⟩ := Trace.root_goesOn
    (taker.failingHost_inward options handlers fails error) heap mode root hl [.node root] _
    (.mk host Walker.lists_new)
  obtain ⟨calls, hlog, hhalts⟩ := Trace.run_curtails taker fails error options handlers limit
    [.node root] mode root _ outcome _ hrun
  rw [Trace.walk_eq_of_run hrun, Trace.walk_eq_of_run hrun']
  rw [hrun, hrun'] at hhalts
  refine ⟨outcome, host', calls, rfl, hlog, fun hnone => ?_, fun before c after hcalls hb hc => ?_⟩
  · cases hhalts with
    | never _ => rfl
    | @first before after c _ hcalls _ hc _ =>
      rw [hnone c (by rw [hcalls]; simp)] at hc
      cases hc
  · cases hhalts with
    | never hnone =>
      rw [hnone c (by rw [hcalls]; simp)] at hc
      cases hc
    | @first before' after' c' _ hcalls' hb' hc' hlog' =>
      obtain ⟨rfl, rfl⟩ := Trace.first_unique (hcalls'.symm.trans hcalls) hb' hb hc' hc
      exact ⟨host'', rfl, hlog'⟩

/-- A handler that notes its call and expands its node. -/
def lister : Notetaker (List (Unit × NodeId)) Unit where
  record handler id :=
    .change (fun world => { world with host := world.host ++ [(handler, id)] }) (.done (.ok ()))
  rest _ id := .go .children (some id) .done
  notify _ _ host := host
  log := id
  notes handler id := ⟨[(handler, id)], [], rfl, fun _ => ⟨rfl, rfl⟩, rfl, rfl⟩
  proceeds _ _ := ⟨rfl, rfl, rfl⟩
  log_notify _ _ _ := rfl

theorem lister_walks_ring :
    walk 6 ⟨lister.host, Trace.twiceInward.options, Trace.twiceInward.handlers⟩ .visit (some 0)
        ⟨Trace.ring, []⟩ =
      some (.error (.cyclicChild "Ring" "next"), ⟨Trace.ring, [((), 0), ((), 1)]⟩) := by
  have hhandler : Trace.twiceInward.handlers.get? "Ring" = some () := rfl
  have hkeys : ∀ id, Trace.twiceInward.options.resolveKeys Trace.ring id "Ring" = .ok ["next"] :=
    fun _ => rfl
  have hnotice : ∀ id, Trace.twiceInward.options.notice? id "Ring" = none := fun _ => rfl
  have htype : Trace.ring.effectiveType 0 = "Ring" ∧ Trace.ring.effectiveType 1 = "Ring" := by
    decide
  have hnext : Trace.ring.child 0 "next" = .one (.node 1) ∧
      Trace.ring.child 1 "next" = .one (.node 0) := by decide
  simp [walk, Walker.go, Walk.run, Walk.respond, htype, hhandler, Notetaker.host, lister,
    Script.thenOk, Script.andThen, Walk.runScript, Walk.notify, Walk.expand, hkeys, Walk.announce,
    hnotice, Walk.walkInside, Walk.walkFields, Walk.walkField, hnext, Walk.walkSlots,
    Slot.visitable?, Walk.walkChild, Walker.isOpen_enter]

/-- The walk of a ring is stopped at its first node. -/
theorem failing_handler_stops_walk_ring :
    walk 6 ⟨lister.host, Trace.twiceInward.options, Trace.twiceInward.handlers⟩ .visit (some 0)
        ⟨Trace.ring, []⟩ =
      some (.error (.cyclicChild "Ring" "next"), ⟨Trace.ring, [((), 0), ((), 1)]⟩) ∧
    walk 6 ⟨lister.failingHost (· == 0) fun _ _ => .handler "stop", Trace.twiceInward.options,
        Trace.twiceInward.handlers⟩ .visit (some 0) ⟨Trace.ring, []⟩ =
      some (.error (.handler "stop"), ⟨Trace.ring, [((), 0)]⟩) := by
  obtain ⟨outcome, host', calls, hwalk, hlog, -, hfirst⟩ := failing_handler_stops_walk lister (· == 0)
    (fun _ _ => .handler "stop") Trace.twiceInward.options Trace.twiceInward.handlers Trace.ring
    .visit 0 [] 6 (by decide)
  rw [lister_walks_ring] at hwalk
  cases hwalk
  obtain ⟨host'', hfailing, hlog'⟩ := hfirst [] ((), 0) [((), 1)] hlog.symm (fun _ h => by cases h)
    rfl
  refine ⟨lister_walks_ring, hfailing.trans ?_⟩
  rw [show host'' = [((), 0)] from hlog']

end SyntaxWalk
