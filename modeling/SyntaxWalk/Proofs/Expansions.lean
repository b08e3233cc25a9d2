/-
What an expansion visits. The child fields of a node are resolved when its expansion begins. The
nodes in a field are sorted when the turn of the field comes, and they are visited in that order,
each once, until the visit of one fails. Handlers run in between and may change every node, the
fields and the type of the expanded node included; what they change before the turn of a field
counts for that field, and what they change later does not.

The moments of an expansion include those of all the calls that it makes. They are told apart by
what is held: a call holds what its caller holds, and more.
-/
import SyntaxWalk.Proofs.Lockstep

namespace SyntaxWalk

namespace Trace

variable {σ α κ : Type}

/-! ## Calls within calls -/

/-- Whether something is done to a child before it is visited. -/
def Deed.isCheck : Deed α → Bool
  | .check _ _ _ _ => true
  | _ => false

/-- All that is done, is done while what is given is held; while a child is checked, more is. -/
def Beyond {β : Type} (held : List Hold) (x : Run σ α κ β) : Prop :=
  ∀ m ∈ x.moments, held.length ≤ m.held.length ∧
    (m.deed.isCheck = true → held.length < m.held.length)

theorem beyond_of_nil {β : Type} {held : List Hold} {x : Run σ α κ β} (h : x.moments = []) :
    Beyond held x := by
  intro m hm
  rw [h] at hm
  cases hm

theorem Beyond.mark {β : Type} {held : List Hold} {x : Run σ α κ β} {m : Moment σ α κ}
    (h : Beyond held x) (hm : held.length ≤ m.held.length)
    (hcheck : m.deed.isCheck = true → held.length < m.held.length) : Beyond held (x.mark m) := by
  intro n hn
  rcases List.mem_cons.1 hn with rfl | hn
  · exact ⟨hm, hcheck⟩
  · exact h n hn

theorem Beyond.bind {β γ : Type} {held : List Hold} {x : Run σ α κ β} {f : β → Run σ α κ γ}
    (h : Beyond held x) (hf : ∀ b, Beyond held (f b)) : Beyond held (x.bind f) := by
  intro m hm
  rcases mem_moments_bind hm with hm | ⟨b, -, hm⟩
  · exact h m hm
  · exact hf b m hm

theorem Beyond.release {β : Type} {held : List Hold} {more : Hold} {x : Run σ α κ β}
    (h : Beyond (more :: held) x) : Beyond held x := by
  intro m hm
  have hlt : held.length < m.held.length := (h m hm).1
  exact ⟨Nat.le_of_lt hlt, fun _ => hlt⟩

/-- Everything that a call does is done beyond what its caller holds. -/
theorem always_beyond (keeping : Keeping κ) :
    Always keeping fun held _ (x : CallRun σ α κ) => Beyond held x where
  cut := beyond_of_nil rfl
  pure _ := beyond_of_nil rfl
  mark {_ deed _ _ _} hd hx _ := hx.mark (Nat.le_refl _) fun hcheck => by
    cases deed with
    | check => cases hd
    | _ => cases hcheck
  check _ hx := hx.mark (Nat.le_succ _) fun _ => Nat.lt_succ_self _
  release hx := hx.release
  bind hx hf := hx.bind fun r => hf r.1 r.2
  walk hx hf := hx.bind fun r => hf r.1 r.2.world r.2.book
  inside hx := hx.release.bind fun _ =>
    (beyond_of_nil rfl).mark (Nat.le_succ _) fun hcheck => by cases hcheck

/-- All that is done inside an expansion, is done while more is held. -/
theorem lt_of_mem_walkInside {limit : Nat} {setting : Walk.Setting σ α} {held : List Hold}
    {id : NodeId} {type : String} {keys : List String} {s : State σ κ} {keeping : Keeping κ}
    {m : Moment σ α κ}
    (h : m ∈ (walkInside keeping (run keeping limit) setting held id type keys s).moments) :
    held.length < m.held.length := by
  rcases mem_moments_bind h with h | ⟨_, -, h⟩
  · exact ((always_beyond keeping).walkFields limit setting (.node id :: held) id type keys _ m h).1
  · cases List.mem_singleton.1 h
    exact Nat.lt_succ_self _

/-- Everything that an answer does is done beyond what its caller holds. -/
def Nests (call : Call σ α κ) : Prop :=
  ∀ (setting : Walk.Setting σ α) (held : List Hold) (mode : Mode) (id : NodeId) (s : State σ κ),
    Beyond held (call setting held mode id s)

/-- Whatever handlers do, runs do everything beyond what their caller holds. -/
theorem run_nests (keeping : Keeping κ) (limit : Nat) : Nests (run keeping limit : Call σ α κ) :=
  (always_beyond keeping).run limit

/-! ## Turns and visits of an expansion -/

/-- The field whose turn comes at a moment, with the nodes as they are then. A field that is read
while more is held belongs to another expansion. -/
def Moment.turn? (held : List Hold) (m : Moment σ α Walker) : Option (String × Heap) :=
  match m.deed with
  | .read _ _ key =>
    if m.held.length = held.length + 1 then some (key, m.state.world.heap) else none
  | _ => none

/-- The node whose visit begins at a moment, and how the visit ends. -/
def Moment.visit? (call : Call σ α Walker) (setting : Walk.Setting σ α) (held : List Hold)
    (m : Moment σ α Walker) : Option (Candidate × Option Outcome) :=
  match m.deed, m.held with
  | .check type key child _, .slots (slot :: _) :: outer =>
    if outer.length = held.length + 1 then
      some (⟨key, child, slot⟩,
        (walkChild Walker.keeping call setting m.held type key child m.state).result.map (·.1))
    else none
  | _, _ => none

/-- The turns of an expansion that was given what is held. -/
def turns {β : Type} (held : List Hold) (x : Run σ α Walker β) : List (String × Heap) :=
  x.moments.filterMap (Moment.turn? held)

/-- The visits of an expansion that was given what is held. -/
def visits {β : Type} (call : Call σ α Walker) (setting : Walk.Setting σ α) (held : List Hold)
    (x : Run σ α Walker β) : List (Candidate × Option Outcome) :=
  x.moments.filterMap (Moment.visit? call setting held)

/-- How a run ends, apart from the state. -/
def CallRun.outcome (x : CallRun σ α κ) : Option Outcome := x.result.map (·.1)

/-- The candidates are visited in order, each once, up to the first visit that does not end well; if
there is one, all ends like that visit. -/
inductive Served : List Candidate → List (Candidate × Option Outcome) → Option Outcome → Prop where
  | done : Served [] [] (some (.ok ()))
  | next {c rest served outcome} (h : Served rest served outcome) :
    Served (c :: rest) ((c, some (.ok ())) :: served) outcome
  | stop {c rest outcome} (h : outcome ≠ some (.ok ())) : Served (c :: rest) [(c, outcome)] outcome

namespace Served

variable {cs more : List Candidate} {served later : List (Candidate × Option Outcome)}
  {outcome last : Option Outcome}

theorem append (h : Served cs served outcome) (ho : outcome = some (.ok ()))
    (hmore : Served more later last) : Served (cs ++ more) (served ++ later) last := by
  induction h with
  | done => exact hmore
  | next _ ih => exact .next (ih ho)
  | stop hne => exact (hne ho).elim

/-- If all goes well, each node is visited once, in order. -/
theorem eq_of_ok (h : Served cs served (some (.ok ()))) :
    served = cs.map (·, some (.ok ())) := by
  generalize ho : some (Except.ok ()) = outcome at h
  induction h with
  | done => rfl
  | next _ ih => rw [ih ho, List.map_cons, ho]
  | stop hne => exact (hne ho.symm).elim

/-- If not all goes well, the visits go well up to one, which is the last. -/
theorem exists_of_ne (h : Served cs served outcome) (ho : outcome ≠ some (.ok ())) :
    ∃ before c after, cs = before ++ c :: after ∧
      served = before.map (·, some (.ok ())) ++ [(c, outcome)] := by
  induction h with
  | done => exact (ho rfl).elim
  | @next c rest served outcome _ ih =>
    obtain ⟨before, d, after, rfl, rfl⟩ := ih ho
    exact ⟨c :: before, d, after, rfl, rfl⟩
  | @stop c rest outcome _ => exact ⟨[], c, rest, rfl, rfl⟩

theorem single (c : Candidate) (outcome : Option Outcome) : Served [c] [(c, outcome)] outcome := by
  by_cases ho : outcome = some (.ok ())
  · rw [ho]
    exact .next .done
  · exact .stop ho

theorem weaken (h : Served cs served outcome) (ho : outcome ≠ some (.ok ())) :
    Served (cs ++ more) served outcome := by
  induction h with
  | done => exact (ho rfl).elim
  | next _ ih => exact .next (ih ho)
  | stop hne => exact .stop hne

end Served

/-! ## Step by step -/

/-- A run that fails is not followed by anything. -/
theorem thenOk_of_ne {x : CallRun σ α κ} (h : x.outcome ≠ some (.ok ()))
    (next : State σ κ → CallRun σ α κ) : x.thenOk next = x := by
  obtain ⟨ms, _ | ⟨_ | _, s⟩⟩ := x
  · simp [CallRun.thenOk, Run.bind]
  · simp [CallRun.thenOk, Run.bind, Run.pure]
  · exact (h rfl).elim

theorem outcome_thenOk {x : CallRun σ α κ} {s : State σ κ} (h : x.result = some (.ok (), s))
    (next : State σ κ → CallRun σ α κ) : (x.thenOk next).outcome = (next s).outcome := by
  simp only [CallRun.outcome, CallRun.thenOk, Run.bind, h, Option.bind_some]

theorem turns_thenOk {x : CallRun σ α Walker} {s : State σ Walker} (h : x.result = some (.ok (), s))
    (held : List Hold) (next : State σ Walker → CallRun σ α Walker) :
    turns held (x.thenOk next) = turns held x ++ turns held (next s) := by
  simp only [turns, CallRun.thenOk, Run.bind, h, List.filterMap_append]

theorem visits_thenOk {x : CallRun σ α Walker} {s : State σ Walker}
    (h : x.result = some (.ok (), s)) (call : Call σ α Walker) (setting : Walk.Setting σ α)
    (held : List Hold) (next : State σ Walker → CallRun σ α Walker) :
    visits call setting held (x.thenOk next) =
      visits call setting held x ++ visits call setting held (next s) := by
  simp only [visits, CallRun.thenOk, Run.bind, h, List.filterMap_append]

theorem exists_of_outcome {x : CallRun σ α κ} {outcome : Outcome} (h : x.outcome = some outcome) :
    ∃ s, x.result = some (outcome, s) := by
  obtain ⟨⟨_, s⟩, hr, rfl⟩ := Option.map_eq_some_iff.1 h
  exact ⟨s, hr⟩

section

variable {call : Call σ α Walker} (setting : Walk.Setting σ α) {held : List Hold}

/-- What is done by a call that an expansion makes is no turn and no visit of that expansion. -/
theorem nothing_beyond {inner : List Hold} (hl : inner.length = held.length + 2)
    {m : Moment σ α Walker} (h : inner.length ≤ m.held.length ∧
      (m.deed.isCheck = true → inner.length < m.held.length)) :
    m.turn? held = none ∧ m.visit? call setting held = none := by
  obtain ⟨deed, all, state⟩ := m
  cases deed with
  | read id type key =>
    refine ⟨if_neg fun heq => ?_, rfl⟩
    have hle : inner.length ≤ all.length := h.1
    have heq : all.length = held.length + 1 := heq
    omega
  | check type key child refused =>
    refine ⟨rfl, ?_⟩
    have hlt : inner.length < all.length := h.2 rfl
    unfold Moment.visit?
    split
    · rename_i hall
      dsimp only at hall
      rw [hall, List.length_cons] at hlt
      exact if_neg (by omega)
    · rfl
  | _ => exact ⟨rfl, rfl⟩

/-- The visit of a child is one visit: what is done in it is done while more is held. -/
theorem walkChild_visits (hc : Nests call) {outer : List Hold} (hl : outer.length = held.length + 1)
    (type : String) (c : Candidate) (rest : List Slot) (s : State σ Walker) :
    let x := Side.walkChild ⟨Walker.keeping, call, setting, outer⟩ type c rest s
    turns held x = [] ∧ visits call setting held x = [(c, x.outcome)] := by
  intro x
  have hnone : ∀ m ∈ (if Walker.keeping.isOpen s.book c.child = true
      then Run.pure (.error (.cyclicChild type c.key), s)
      else call setting (.slots (c.slot :: rest) :: outer) .visit c.child s
        : CallRun σ α Walker).moments,
      m.turn? held = none ∧ m.visit? call setting held = none := by
    intro m hm
    split at hm
    · cases hm
    · exact nothing_beyond setting (by rw [List.length_cons, hl]) (hc _ _ _ _ _ m hm)
  constructor
  · exact List.filterMap_eq_nil_iff.2 fun m hm => by
      rcases List.mem_cons.1 hm with rfl | hm
      · rfl
      · exact (hnone m hm).1
  · have hfirst : Moment.visit? call setting held ⟨.check type c.key c.child
        (Walker.keeping.isOpen s.book c.child), .slots (c.slot :: rest) :: outer, s⟩ =
        some (c, _) := if_pos hl
    unfold visits
    rw [show x.moments = _ :: _ from rfl, List.filterMap_cons_some hfirst,
      List.filterMap_eq_nil_iff.2 fun m hm => (hnone m hm).2]
    rfl

/-- Places are served one after the other. A visit that does not end well is the last one, and all
ends like it. -/
theorem chains_served (call : Call σ α Walker) (held : List Hold) :
    Chains (fun _ => True) fun cs _ x =>
      turns held x = [] ∧ Served cs (visits call setting held x) x.outcome where
  done _ := ⟨rfl, .done⟩
  thenOk {_ _ _ x f} hx hf := by
    obtain ⟨hturns, hserved⟩ := hx
    by_cases ho : x.outcome = some (.ok ())
    · obtain ⟨t, ht⟩ := exists_of_outcome ho
      obtain ⟨hturns', hserved'⟩ := hf t trivial
      rw [turns_thenOk ht, visits_thenOk ht, outcome_thenOk ht, hturns, hturns']
      exact ⟨rfl, hserved.append ho hserved'⟩
    · rw [thenOk_of_ne ho]
      exact ⟨hturns, hserved.weaken ho⟩

/-- A field has one turn, and the nodes that are in it then are visited in order, up to the first
failure. -/
theorem walkField_serves (hc : Nests call) (held : List Hold) (id : NodeId) (type key : String)
    (s : State σ Walker) :
    turns held (walkField Walker.keeping call setting (.node id :: held) id type key s) =
        [(key, s.world.heap)] ∧
      Served (s.world.heap.candidates id type key)
        (visits call setting held
          (walkField Walker.keeping call setting (.node id :: held) id type key s))
        (walkField Walker.keeping call setting (.node id :: held) id type key s).outcome := by
  have hl : (Hold.node id :: held).length = held.length + 1 := rfl
  obtain ⟨hturns, hserved⟩ := (chains_served setting call held).walkSlots
    ⟨Walker.keeping, call, setting, .node id :: held⟩ key (s.world.heap.placesIn id type key).1
    (s.world.heap.placesIn id type key).2 (fun c _ rest s' _ => by
      obtain ⟨hturns, hvisits⟩ := walkChild_visits setting hc hl type c rest s'
      exact ⟨hturns, hvisits ▸ .single c _⟩) (s := s) trivial
  have hread : Moment.turn? held (⟨.read id type key, .node id :: held, s⟩ : Moment σ α Walker) =
      some (key, s.world.heap) := if_pos hl
  rw [walkField_eq, ← Heap.slotCandidates_placesIn]
  refine ⟨(List.filterMap_cons_some hread).trans ?_, hserved⟩
  exact congrArg _ hturns

/-- The fields have their turns in order, up to the one in which a visit fails, and the nodes that
are in a field when its turn comes are visited in order. -/
structure Courses (call : Call σ α Walker) (held : List Hold) (id : NodeId) (type : String)
    (keys : List String) (x : CallRun σ α Walker) : Prop where
  began : (turns held x).map (·.1) <+: keys
  all : x.outcome = some (.ok ()) → (turns held x).map (·.1) = keys
  served : Served ((turns held x).flatMap fun turn => turn.2.candidates id type turn.1)
    (visits call setting held x) x.outcome

theorem Courses.of_moments {id : NodeId} {type : String} {keys : List String}
    {x y : CallRun σ α Walker} (h : Courses setting call held id type keys x)
    (hturns : turns held y = turns held x)
    (hvisits : visits call setting held y = visits call setting held x)
    (houtcome : y.outcome = x.outcome) : Courses setting call held id type keys y := by
  obtain ⟨hbegan, hall, hserved⟩ := h
  constructor
  · rw [hturns]
    exact hbegan
  · rw [hturns, houtcome]
    exact hall
  · rw [hturns, hvisits, houtcome]
    exact hserved

/-- Courses over fields are chained. -/
theorem chains_courses (call : Call σ α Walker) (held : List Hold) (id : NodeId) (type : String) :
    Chains (fun _ => True) fun keys _ x => Courses setting call held id type keys x where
  done _ := ⟨List.prefix_rfl, fun _ => rfl, .done⟩
  thenOk {_ _ _ x f} hx hf := by
    by_cases ho : x.outcome = some (.ok ())
    · obtain ⟨t, ht⟩ := exists_of_outcome ho
      obtain ⟨hbegan, hall, hrest⟩ := hf t trivial
      constructor
      · rw [turns_thenOk ht, List.map_append, hx.all ho]
        exact (List.prefix_append_right_inj _).2 hbegan
      · rw [turns_thenOk ht, outcome_thenOk ht, List.map_append, hx.all ho]
        exact fun h => congrArg _ (hall h)
      · rw [turns_thenOk ht, visits_thenOk ht, outcome_thenOk ht, List.flatMap_append]
        exact hx.served.append ho hrest
    · rw [thenOk_of_ne ho]
      exact ⟨hx.began.trans (List.prefix_append _ _), fun h => (ho h).elim, hx.served⟩

/-- Fields have their turns in order, and in each turn the nodes are visited that are in the field
when its turn comes. -/
theorem walkFields_courses (hc : Nests call) (held : List Hold) (id : NodeId) (type : String)
    (keys : List String) (s : State σ Walker) : Courses setting call held id type keys
      (walkFields Walker.keeping call setting (.node id :: held) id type keys s) := by
  have hfield : ∀ key s, True → Courses setting call held id type [key]
      (walkField Walker.keeping call setting (.node id :: held) id type key s) := by
    intro key s _
    obtain ⟨hturns, hserved⟩ := walkField_serves setting hc held id type key s
    constructor
    · rw [hturns]
      exact List.prefix_rfl
    · rw [hturns]
      exact fun _ => rfl
    · rw [hturns, List.flatMap_singleton]
      exact hserved
  have h := (chains_courses setting call held id type).walkFields
    ⟨Walker.keeping, call, setting, .node id :: held⟩ (fun key => [key]) hfield keys (s := s) trivial
  rwa [List.flatMap_singleton'] at h

/-- That the expansion ends is no turn and no visit. -/
theorem walkInside_courses (hc : Nests call) (held : List Hold) (id : NodeId) (type : String)
    (keys : List String) (s : State σ Walker) : Courses setting call held id type keys
      (walkInside Walker.keeping call setting held id type keys s) := by
  have h := walkFields_courses setting hc held id type keys
    ⟨s.world, Walker.keeping.enter s.book id⟩
  unfold walkInside
  generalize walkFields Walker.keeping call setting (.node id :: held) id type keys
    ⟨s.world, Walker.keeping.enter s.book id⟩ = x at h
  obtain ⟨ms, _ | ⟨outcome, t⟩⟩ := x
  · simp only [Run.bind, List.append_nil, Option.bind_none]
    exact h
  · have hturn : (⟨.leave id, .node id :: held, t⟩ : Moment σ α Walker).turn? held = none := rfl
    have hvisit : (⟨.leave id, .node id :: held, t⟩ : Moment σ α Walker).visit? call setting held =
        none := rfl
    refine h.of_moments setting ?_ ?_ rfl
    · simp [turns, Run.bind, Run.mark, Run.pure, List.filterMap_append, hturn]
    · simp [visits, Run.bind, Run.mark, Run.pure, List.filterMap_append, hvisit]

end

/-! ## What is visited -/

/-- The nodes that are visited by the expansion of a node, whatever handlers do meanwhile. The
fields are those that are resolved when the expansion begins, and each has one turn. If it ends
well, the visits are to the nodes that were in the fields when their turns came, in order, none left
out and none repeated, and each was sorted when the turn of its field came. If it fails, they are
cut after the first visit that fails, and that is how the expansion ends. -/
theorem expansion_visits_snapshot (limit : Nat) (setting : Walk.Setting σ α) (held : List Hold)
    (id : NodeId) (type : String) (s : Walk.State σ) :
    let call : Call σ α Walker := run Walker.keeping limit
    let x := expand Walker.keeping call setting held id type (ofState s)
    let listed := (turns held x).flatMap fun (key, heap) => heap.candidates id type key
    x.result = ofResult (Walk.expand (Walk.run limit) setting held id type s) ∧
      match setting.options.resolveKeys s.world.heap id type with
      | .error e =>
        x.outcome = some (.error e) ∧ turns held x = [] ∧ visits call setting held x = []
      | .ok keys =>
        (x.outcome = some (.ok ()) → (turns held x).map (·.1) = keys ∧
          visits call setting held x = listed.map (·, some (.ok ()))) ∧
        ∀ e, x.outcome = some (.error e) → (turns held x).map (·.1) <+: keys ∧
          ∃ before c after, listed = before ++ c :: after ∧
            visits call setting held x =
              before.map (·, some (.ok ())) ++ [(c, some (.error e))] := by
  intro call x listed
  refine ⟨expand_result (run_result limit) id type s, ?_⟩
  cases hk : setting.options.resolveKeys s.world.heap id type with
  | error e =>
    have hx : x = _ := expand_of_error Walker.keeping call held hk
    rw [hx]
    exact ⟨rfl, rfl, rfl⟩
  | ok keys =>
    have hx : x = _ := expand_of_ok Walker.keeping call held hk
    have h : Courses setting call held id type keys x :=
      (walkInside_courses setting (run_nests Walker.keeping limit) held id type keys _).of_moments
        setting (by rw [hx]; rfl) (by rw [hx]; rfl) (by rw [hx]; rfl)
    have hserved : Served listed (visits call setting held x) x.outcome := h.served
    refine ⟨fun ho => ⟨h.all ho, ?_⟩, fun e ho => ⟨h.began, ?_⟩⟩
    · rw [ho] at hserved
      exact hserved.eq_of_ok
    · rw [ho] at hserved
      exact hserved.exists_of_ne (by simp)

end Trace

end SyntaxWalk
