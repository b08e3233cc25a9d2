/-
What calls under way hold, and how long a node that is being expanded is held. From each moment at
which a walker remembers a node, calls under way hold the node until an expansion of it ends, also
while a handler has another walker walk, which remembers nothing of the first one. Handlers may be
any.
-/
import SyntaxWalk.Proofs.CycleCheck

namespace SyntaxWalk.Trace

variable {σ α β γ : Type}

/-! ## Until the expansion ends -/

/-- Something holds at each of the moments up to one at which an expansion of the given node ends.
If `cut` holds, the moments may break off before. -/
inductive UntilLeft (id : NodeId) (cut : Prop) (p : Moment σ α Walker → Prop) :
    List (Moment σ α Walker) → Prop where
  | left {m rest} (hm : p m) (h : m.deed = .leave id) : UntilLeft id cut p (m :: rest)
  | later {m rest} (hm : p m) (h : UntilLeft id cut p rest) : UntilLeft id cut p (m :: rest)
  | broken (h : cut) : UntilLeft id cut p []

section

variable {id : NodeId} {cut cut' : Prop} {p q : Moment σ α Walker → Prop}
  {ms rest : List (Moment σ α Walker)}

/-- If the moments may break off, it is the later ones at which an expansion ends. -/
theorem UntilLeft.append (h : UntilLeft id cut p ms) (hrest : cut → UntilLeft id cut' p rest) :
    UntilLeft id cut' p (ms ++ rest) := by
  induction h with
  | left hm h => exact .left hm h
  | later hm _ ih => exact .later hm ih
  | broken h => exact hrest h

theorem UntilLeft.append_left (hms : ∀ m ∈ ms, p m) (h : UntilLeft id cut p rest) :
    UntilLeft id cut p (ms ++ rest) := by
  induction ms with
  | nil => exact h
  | cons m ms ih =>
    exact .later (hms m List.mem_cons_self) (ih fun n hn => hms n (List.mem_cons_of_mem _ hn))

theorem UntilLeft.imp (h : UntilLeft id cut p ms) (hpq : ∀ m ∈ ms, p m → q m) :
    UntilLeft id cut q ms := by
  induction h with
  | left hm h => exact .left (hpq _ List.mem_cons_self hm) h
  | later hm _ ih =>
    exact .later (hpq _ List.mem_cons_self hm) (ih fun n hn => hpq n (List.mem_cons_of_mem _ hn))
  | broken h => exact .broken h

end

/-! ## Runs that guard what is expanded -/

/-- The calls under way hold the node at a moment. -/
def Moment.Holds (id : NodeId) (m : Moment σ α Walker) : Prop := id ∈ Hold.nodes m.held

/-- A run goes on holding what is given. A node that is remembered at one of its moments is among
the given ones, or it is held until an expansion of it ends, which the run lives to see unless it
nests too deep. -/
structure Guards (nodes : List NodeId) (held : List Hold) (x : Run σ α Walker β) : Prop where
  held : ∀ m ∈ x.moments, Hold.nodes held ⊆ Hold.nodes m.held
  kept : ∀ before m after, x.moments = before ++ m :: after → ∀ id ∈ m.state.book.ancestors,
    id ∈ nodes ∨ UntilLeft id (x.result = none) (Moment.Holds id) (m :: after)

section

variable {nodes inner : List NodeId} {held more : List Hold} {x : Run σ α Walker β}

theorem Guards.of_nil (h : x.moments = []) : Guards nodes held x where
  held := fun m hm => by rw [h] at hm; cases hm
  kept := fun before m after heq => by
    rw [h] at heq
    exact (List.append_ne_nil_of_right_ne_nil before (List.cons_ne_nil m after) heq.symm).elim

/-- At one moment more, only the given nodes are remembered. -/
theorem Guards.mark {m : Moment σ α Walker} (hm : m.state.book.ancestors = nodes)
    (hheld : Hold.nodes held ⊆ Hold.nodes m.held) (h : Guards nodes held x) :
    Guards nodes held (x.mark m) := by
  refine ⟨fun n hn => ?_, fun before n after heq id hid => ?_⟩
  · rcases List.mem_cons.1 hn with rfl | hn
    · exact hheld
    · exact h.held n hn
  · cases before with
    | nil =>
      obtain ⟨rfl, -⟩ := List.cons.inj heq
      exact .inl (hm ▸ hid)
    | cons _ before => exact h.kept before n after (List.cons.inj heq).2 id hid

theorem Guards.release (h : Guards nodes more x) (hheld : Hold.nodes held ⊆ Hold.nodes more) :
    Guards nodes held x :=
  ⟨fun m hm _ hn => h.held m hm (hheld hn), h.kept⟩

/-- A run may go on after another one that was given no other nodes. -/
theorem Guards.bind {f : β → Run σ α Walker γ} (h : Guards inner held x) (hsub : inner ⊆ nodes)
    (hf : ∀ b, x.result = some b → Guards nodes held (f b)) : Guards nodes held (x.bind f) := by
  cases hr : x.result with
  | none =>
    have hmoments : (x.bind f).moments = x.moments := moments_bind_of_none hr
    refine ⟨fun m hm => ?_, fun before m after heq id hid => ?_⟩
    · exact h.held m (hmoments ▸ hm)
    · refine (h.kept before m after (hmoments ▸ heq) id hid).imp (@hsub id) fun hu => ?_
      have hnone : (x.bind f).result = none := by rw [Run.result_bind, hr]; rfl
      simpa using hu.append fun _ => .broken hnone
  | some b =>
    have hmoments : (x.bind f).moments = x.moments ++ (f b).moments := moments_bind_of_result hr
    have hresult : (x.bind f).result = (f b).result := by rw [Run.result_bind, hr]; rfl
    have hb := hf b hr
    refine ⟨fun m hm => ?_, fun before m after heq id hid => ?_⟩
    · rw [hmoments] at hm
      rcases List.mem_append.1 hm with hm | hm
      · exact h.held m hm
      · exact hb.held m hm
    · rw [hmoments] at heq
      rw [hresult]
      -- The moment is one of the second run, or of the first; then the second goes on from there.
      rcases List.append_eq_append_iff.1 heq with ⟨mid, rfl, hmid⟩ | ⟨mid, hmid, hrest⟩
      · exact hb.kept mid m after hmid id hid
      · cases mid with
        | nil => exact hb.kept [] m after hrest.symm id hid
        | cons n mid =>
          cases hrest
          refine (h.kept before m mid hmid id hid).imp (@hsub id) fun hu => ?_
          exact hu.append fun hnone => by rw [hr] at hnone; cases hnone

/-- A run that holds a node throughout, and whose last moment is the end of an expansion of it, need
not be given the node. -/
theorem Guards.close {id : NodeId} (h : Guards (id :: nodes) held x) (hid : id ∈ Hold.nodes held)
    (hlast : x.result = none ∨ ∃ ms m, x.moments = ms ++ [m] ∧ m.deed = .leave id) :
    Guards nodes held x := by
  refine ⟨h.held, fun before m after heq n hn => ?_⟩
  have hholds : ∀ m' ∈ m :: after, m'.Holds id := fun m' hm' =>
    h.held m' (heq ▸ List.mem_append_right before hm') hid
  rcases h.kept before m after heq n hn with hmem | hu
  · rcases List.mem_cons.1 hmem with rfl | hmem
    · refine .inr ?_
      rcases hlast with hnone | ⟨ms, last, hms, hdeed⟩
      · simpa using UntilLeft.append_left hholds (.broken hnone)
      · have hend : m :: after = (m :: after).dropLast ++ [last] := by
          have hl := congrArg List.getLast? (heq.symm.trans hms)
          rw [List.getLast?_append_cons, List.getLast?_concat] at hl
          exact (List.dropLast_append_getLast? last hl).symm
        rw [hend] at hholds ⊢
        exact UntilLeft.append_left (fun m' hm' => hholds m' (List.mem_append_left _ hm'))
          (.left (hholds last (List.mem_append_right _ List.mem_cons_self)) hdeed)
    · exact .inl hmem
  · exact .inr hu

end

/-- A call guards what is expanded, and remembers in the end what it did at first. -/
structure Safeguards (nodes : List NodeId) (held : List Hold) (x : CallRun σ α Walker) : Prop
    extends Guards nodes held x where
  ends : ∀ outcome t, x.result = some (outcome, t) → t.book.ancestors = nodes

section

variable {nodes inner : List NodeId} {held more : List Hold} {x : CallRun σ α Walker}
  {s : State σ Walker}

theorem Safeguards.pure (hs : s.book.ancestors = nodes) (outcome : Outcome) :
    Safeguards nodes held (.pure (outcome, s) : CallRun σ α Walker) where
  toGuards := .of_nil rfl
  ends := fun _ t h => by cases h; exact hs

theorem Safeguards.mark {m : Moment σ α Walker} (hm : m.state.book.ancestors = nodes)
    (hheld : Hold.nodes held ⊆ Hold.nodes m.held) (h : Safeguards nodes held x) :
    Safeguards nodes held (x.mark m) :=
  ⟨h.toGuards.mark hm hheld, h.ends⟩

/-- Calls one after the other guard what is expanded, if each does. -/
theorem Safeguards.bind {f : Outcome × State σ Walker → CallRun σ α Walker}
    (h : Safeguards inner held x) (hsub : inner ⊆ nodes)
    (hf : ∀ outcome t, t.book.ancestors = inner → Safeguards nodes held (f (outcome, t))) :
    Safeguards nodes held (x.bind f) := by
  have hnext : ∀ b, x.result = some b → Safeguards nodes held (f b) := fun b hb =>
    hf b.1 b.2 (h.ends b.1 b.2 hb)
  refine ⟨h.toGuards.bind hsub fun b hb => (hnext b hb).toGuards, fun outcome t ht => ?_⟩
  rw [Run.result_bind] at ht
  obtain ⟨b, hb, ht⟩ := Option.bind_eq_some_iff.1 ht
  exact (hnext b hb).ends outcome t ht

/-- An expansion holds its node up to the moment at which it ends. -/
theorem Safeguards.leave {id : NodeId} (h : Safeguards (id :: nodes) (.node id :: held) x)
    (opened : Bool) :
    Safeguards nodes held (x.bind fun (outcome, t) => .mark ⟨.leave id, .node id :: held, t⟩
      (.pure (outcome, ⟨t.world, t.book.leave id opened⟩))) := by
  have hall : Guards (id :: nodes) (.node id :: held) (x.bind fun (outcome, t) =>
      .mark ⟨.leave id, .node id :: held, t⟩
        (.pure (outcome, (⟨t.world, t.book.leave id opened⟩ : State σ Walker)))) :=
    h.toGuards.bind (List.Subset.refl _) fun b hb =>
      .mark (h.ends b.1 b.2 hb) (List.Subset.refl _) (.of_nil rfl)
  refine ⟨(hall.close List.mem_cons_self ?_).release (List.subset_cons_self _ _),
    fun outcome t ht => ?_⟩
  · cases hr : x.result with
    | none => exact .inl (by rw [Run.result_bind, hr]; rfl)
    | some b => exact .inr ⟨x.moments, _, moments_bind_of_result hr, rfl⟩
  · rw [Run.result_bind] at ht
    obtain ⟨b, hb, ht⟩ := Option.bind_eq_some_iff.1 ht
    cases ht
    show b.2.book.ancestors.tail = nodes
    rw [h.ends b.1 b.2 hb, List.tail_cons]

end

/-! ## Any run -/

/-- What calls under way hold: the nodes that were lent to them, those that walkers are expanding,
the innermost walker first, and the places of fields that are not finished. -/
inductive Frames : List NodeId → List (List NodeId) → List Slot → List Hold → Prop where
  | start : Frames [] [[]] [] []
  | lend {lent walkers places held} (id : NodeId) (h : Frames lent walkers places held) :
    Frames (id :: lent) walkers places (.node id :: held)
  | enter {lent nodes walkers places held} (id : NodeId)
    (h : Frames lent (nodes :: walkers) places held) :
    Frames lent ((id :: nodes) :: walkers) places (.node id :: held)
  | read {lent walkers places held} (slots : List Slot) (h : Frames lent walkers places held) :
    Frames lent walkers (slots ++ places) (.slots slots :: held)
  /-- Another walker walks meanwhile. -/
  | walk {lent walkers places held} (h : Frames lent walkers places held) :
    Frames lent ([] :: walkers) places held

/-- Nothing else is held. -/
theorem Frames.perm {lent : List NodeId} {walkers : List (List NodeId)} {places : List Slot}
    {held : List Hold} (h : Frames lent walkers places held) :
    (Hold.nodes held).Perm (lent ++ walkers.flatten ++ places.filterMap Slot.node?) := by
  induction h with
  | start => exact .nil
  | lend id _ ih => exact ih.cons id
  | @enter lent nodes walkers places held id _ ih =>
    refine (ih.cons id).trans ?_
    simp only [List.flatten_cons, List.append_assoc, List.cons_append]
    exact List.perm_middle.symm
  | @read lent walkers places held slots _ ih =>
    rw [Hold.nodes_slots, List.filterMap_append]
    exact (ih.append_left _).trans (List.perm_append_comm_assoc _ _ _)
  | walk _ ih => exact ih

/-- The walker of a state is expanding the innermost of the nodes that calls hold. -/
def State.Framed (s : State σ Walker) (held : List Hold) : Prop :=
  ∃ lent waiting places, Frames lent (s.book.ancestors :: waiting) places held

theorem State.Framed.hold {s : State σ Walker} {held : List Hold} (h : s.Framed held) (more : Hold) :
    s.Framed (more :: held) := by
  obtain ⟨lent, waiting, places, h⟩ := h
  cases more with
  | node id => exact ⟨_, _, _, h.lend id⟩
  | slots slots => exact ⟨_, _, _, h.read slots⟩

/-- When the turn of a child comes, its place is held, along with those after it. -/
def Moment.AtPlace (m : Moment σ α Walker) : Prop :=
  ∀ type key child refused, m.deed = .check type key child refused →
    ∃ slot rest held, m.held = .slots (slot :: rest) :: held ∧ slot.node? = some child

/-- If a run begins with frames, then there are such at all its moments. -/
structure StaysFramed (held : List Hold) (s : State σ Walker) (x : CallRun σ α Walker) : Prop where
  restores : Restores s x
  framed : s.Framed held → ∀ m ∈ x.moments, m.state.Framed m.held ∧ m.AtPlace

section

variable {held : List Hold} {s : State σ Walker} {x : CallRun σ α Walker}

theorem StaysFramed.mark {m : Moment σ α Walker} (h : StaysFramed held s x)
    (hm : s.Framed held → m.state.Framed m.held ∧ m.AtPlace) : StaysFramed held s (x.mark m) := by
  refine ⟨h.restores, fun hs n hn => ?_⟩
  rcases List.mem_cons.1 hn with rfl | hn
  · exact hm hs
  · exact h.framed hs n hn

end

end SyntaxWalk.Trace
