/-
Runs in lockstep. What holds of all runs, or of each two runs that are made in the same way, follows
from what holds of the steps of which they are made: how runs over places and fields are chained,
how the children in a field are refused or visited, and how scripts go on. A relation that keeps up
with these steps is a structure here, with one field for each step, and that runs keep up with it is
proved once from the fields. A property of single runs is such a relation of a run with itself.
-/
import SyntaxWalk.Proofs.Children
import SyntaxWalk.Proofs.Trace

namespace SyntaxWalk

namespace Hold

@[simp] theorem nodes_slots (places : List Slot) (held : List Hold) :
    nodes (.slots places :: held) = places.filterMap Slot.node? ++ nodes held := rfl

/-- A node is held along with the place in which it is. -/
theorem mem_nodes_of_node? {slot : Slot} {id : NodeId} (h : slot.node? = some id)
    (rest : List Slot) (held : List Hold) : id ∈ nodes (.slots (slot :: rest) :: held) := by
  simp [h]

end Hold

namespace Trace

variable {σ σ' α α' κ κ' ι : Type}

/-! ## Steps -/

/-- A field is read as places whose nodes are visited, whether it holds a list or not. -/
theorem walkField_eq (keeping : Keeping κ) (call : Call σ α κ) (setting : Walk.Setting σ α)
    (held : List Hold) (id : NodeId) (type key : String) (s : State σ κ) :
    walkField keeping call setting held id type key s =
      .mark ⟨.read id type key, held, s⟩
        (walkSlots keeping call setting held type key (s.world.heap.placesIn id type key).1
          (s.world.heap.placesIn id type key).2 s) := by
  unfold walkField Heap.placesIn
  cases s.world.heap.child id key <;> rfl

/-- Resolving child fields may give the host notice of it, and does nothing else. -/
theorem announce_eq (setting : Walk.Setting σ α) (id : NodeId) (type : String) (heap : Heap)
    (host : σ) :
    ∃ host', (∀ {κ : Type} (book : κ),
        announce setting id type ⟨⟨heap, host⟩, book⟩ = ⟨⟨heap, host'⟩, book⟩) ∧
      ∀ p : σ → Prop, p host → (∀ notice, p (setting.host.notify notice heap host)) → p host' := by
  unfold announce
  cases setting.options.notice? id type with
  | none => exact ⟨host, fun _ => rfl, fun _ hp _ => hp⟩
  | some notice => exact ⟨_, fun _ => rfl, fun _ _ hp => hp notice⟩

section

variable (keeping : Keeping κ) (call : Call σ α κ) {setting : Walk.Setting σ α} (held : List Hold)
  {id : NodeId} {type : String} {s : State σ κ}

/-- If child fields cannot be resolved, an expansion gives notice and fails. -/
theorem expand_of_error {e : VisitError}
    (h : setting.options.resolveKeys s.world.heap id type = .error e) :
    expand keeping call setting held id type s =
      .mark ⟨.resolve id type, held, s⟩ (.pure (.error e, announce setting id type s)) := by
  unfold expand
  rw [h]

/-- If child fields can be resolved, an expansion gives notice and goes inside. -/
theorem expand_of_ok {keys : List String}
    (h : setting.options.resolveKeys s.world.heap id type = .ok keys) :
    expand keeping call setting held id type s =
      .mark ⟨.resolve id type, held, s⟩
        (walkInside keeping call setting held id type keys (announce setting id type s)) := by
  unfold expand
  rw [h]

end

theorem moments_bind_of_result {β γ : Type} {x : Run σ α κ β} {f : β → Run σ α κ γ} {b : β}
    (h : x.result = some b) : (x.bind f).moments = x.moments ++ (f b).moments := by
  simp only [Run.bind, h]

theorem moments_bind_of_none {β γ : Type} {x : Run σ α κ β} {f : β → Run σ α κ γ}
    (h : x.result = none) : (x.bind f).moments = x.moments := by
  simp only [Run.bind, h, List.append_nil]

/-- A moment of two runs is one of the first, or of the second if the first has ended. -/
theorem mem_moments_bind {β γ : Type} {x : Run σ α κ β} {f : β → Run σ α κ γ} {m : Moment σ α κ}
    (h : m ∈ (x.bind f).moments) :
    m ∈ x.moments ∨ ∃ b, x.result = some b ∧ m ∈ (f b).moments := by
  rcases List.mem_append.1 h with h | h
  · exact .inl h
  · cases hr : x.result with
    | none => rw [hr] at h; cases h
    | some b => rw [hr] at h; exact .inr ⟨b, rfl, h⟩

/-! ## Chains of places and fields -/

/-- How two runs over places or fields are chained. They go on together in states that match, and a
list says what they have come to so far. -/
structure TwinChains (Match : State σ κ → State σ' κ' → Prop)
    (Rel : List ι → State σ κ → State σ' κ' → CallRun σ α κ → CallRun σ' α' κ' → Prop) : Prop where
  done : ∀ {s t}, Match s t → Rel [] s t (.pure (.ok (), s)) (.pure (.ok (), t))
  thenOk : ∀ {first rest s t x y f g}, Rel first s t x y →
    (∀ s' t', Match s' t' → Rel rest s' t' (f s') (g t')) →
    Rel (first ++ rest) s t (x.thenOk f) (y.thenOk g)

/-- One of two runs that are made in the same way: how nodes are remembered, who answers requests to
go on at another node and in which setting, and what is held. -/
structure Side (σ α κ : Type) where
  keeping : Keeping κ
  call : Call σ α κ
  setting : Walk.Setting σ α
  held : List Hold

/-- Visits a node that is in a place of a field, with other places after it. -/
def Side.walkChild (a : Side σ α κ) (type : String) (c : Candidate) (rest : List Slot) :
    State σ κ → CallRun σ α κ :=
  Trace.walkChild a.keeping a.call a.setting (.slots (c.slot :: rest) :: a.held) type c.key c.child

namespace TwinChains

variable {a : Side σ α κ} {b : Side σ' α' κ'} {Match : State σ κ → State σ' κ' → Prop}
  {type : String}

/-- Places are gone through in lockstep if the nodes in them are visited so. What the runs come to
are the nodes to visit, in order. -/
theorem walkSlots
    {Rel : List Candidate → State σ κ → State σ' κ' → CallRun σ α κ → CallRun σ' α' κ' → Prop}
    (h : TwinChains Match Rel) (key : String) (properties : Bool) :
    ∀ (slots : List Slot),
    (∀ c ∈ slotCandidates key properties slots, ∀ rest s t, Match s t →
      Rel [c] s t (a.walkChild type c rest s) (b.walkChild type c rest t)) →
    ∀ s t, Match s t → Rel (slotCandidates key properties slots) s t
      (Trace.walkSlots a.keeping a.call a.setting a.held type key properties slots s)
      (Trace.walkSlots b.keeping b.call b.setting b.held type key properties slots t)
  | [], _, _, _, hm => h.done hm
  | slot :: rest, hvisit, s, t, hm => by
    unfold Trace.walkSlots
    cases hv : slot.visitable? properties with
    | none =>
      rw [slotCandidates_cons_none hv] at hvisit ⊢
      exact h.walkSlots key properties rest hvisit s t hm
    | some child =>
      rw [slotCandidates_cons_some hv] at hvisit ⊢
      exact h.thenOk (hvisit _ List.mem_cons_self rest s t hm)
        (h.walkSlots key properties rest fun c hc => hvisit c (List.mem_cons_of_mem _ hc))

/-- Fields are gone through in lockstep if each of them is. -/
theorem walkFields {id : NodeId}
    {Rel : List ι → State σ κ → State σ' κ' → CallRun σ α κ → CallRun σ' α' κ' → Prop}
    (h : TwinChains Match Rel) (listed : String → List ι)
    (hfield : ∀ key s t, Match s t → Rel (listed key) s t
      (walkField a.keeping a.call a.setting a.held id type key s)
      (walkField b.keeping b.call b.setting b.held id type key t)) :
    ∀ (keys : List String) s t, Match s t → Rel (keys.flatMap listed) s t
      (Trace.walkFields a.keeping a.call a.setting a.held id type keys s)
      (Trace.walkFields b.keeping b.call b.setting b.held id type keys t)
  | [], _, _, hm => h.done hm
  | key :: rest, s, t, hm => by
    rw [List.flatMap_cons]
    exact h.thenOk (hfield key s t hm) (h.walkFields listed hfield rest)

end TwinChains

/-- How runs over places or fields are chained, which begin in states with an invariant. A list says
what they have come to so far. -/
structure Chains (Inv : State σ κ → Prop) (Holds : List ι → State σ κ → CallRun σ α κ → Prop) :
    Prop where
  done : ∀ {s}, Inv s → Holds [] s (.pure (.ok (), s))
  thenOk : ∀ {first rest s x f}, Holds first s x → (∀ s', Inv s' → Holds rest s' (f s')) →
    Holds (first ++ rest) s (x.thenOk f)

namespace Chains

variable {Inv : State σ κ → Prop} (a : Side σ α κ) {type : String}

/-- A chain of runs is a chain of twins, each of which is the other one. -/
theorem twin {Holds : List ι → State σ κ → CallRun σ α κ → Prop} (h : Chains Inv Holds) :
    TwinChains (fun s t => t = s ∧ Inv s) fun first s _ x (_ : CallRun σ α κ) => Holds first s x :=
  ⟨fun hm => h.done hm.2, fun hx hf => h.thenOk hx fun s' hs' => hf s' s' ⟨rfl, hs'⟩⟩

theorem walkSlots {Holds : List Candidate → State σ κ → CallRun σ α κ → Prop} (h : Chains Inv Holds)
    (key : String) (properties : Bool) (slots : List Slot)
    (hvisit : ∀ c ∈ slotCandidates key properties slots, ∀ rest s, Inv s →
      Holds [c] s (a.walkChild type c rest s)) {s : State σ κ} (hs : Inv s) :
    Holds (slotCandidates key properties slots) s
      (Trace.walkSlots a.keeping a.call a.setting a.held type key properties slots s) :=
  h.twin.walkSlots (b := a) key properties slots (fun c hc rest s _ hm => hvisit c hc rest s hm.2) s s
    ⟨rfl, hs⟩

theorem walkFields {Holds : List ι → State σ κ → CallRun σ α κ → Prop} (h : Chains Inv Holds)
    {id : NodeId} (listed : String → List ι)
    (hfield : ∀ key s, Inv s → Holds (listed key) s
      (walkField a.keeping a.call a.setting a.held id type key s))
    (keys : List String) {s : State σ κ} (hs : Inv s) :
    Holds (keys.flatMap listed) s
      (Trace.walkFields a.keeping a.call a.setting a.held id type keys s) :=
  h.twin.walkFields (b := a) listed (fun key s _ hm => hfield key s hm.2) keys s s ⟨rfl, hs⟩

end Chains

/-! ## Fields in lockstep -/

/-- Two runs over the fields of a node keep up with each other. -/
structure Lockstep (a : Side σ α κ) (b : Side σ' α' κ') (id : NodeId) (type : String)
    (Match : State σ κ → State σ' κ' → Prop)
    (Rel : State σ κ → State σ' κ' → CallRun σ α κ → CallRun σ' α' κ' → Prop) : Prop where
  heap : ∀ {s t}, Match s t → t.world.heap = s.world.heap
  isOpen : ∀ {s t}, Match s t → ∀ child,
    b.keeping.isOpen t.book child = a.keeping.isOpen s.book child
  done : ∀ {s t}, Match s t → Rel s t (.pure (.ok (), s)) (.pure (.ok (), t))
  thenOk : ∀ {s t x y f g}, Rel s t x y → (∀ s' t', Match s' t' → Rel s' t' (f s') (g t')) →
    Rel s t (x.thenOk f) (y.thenOk g)
  read : ∀ {key s t x y}, Match s t → Rel s t x y →
    Rel s t (x.mark ⟨.read id type key, a.held, s⟩) (y.mark ⟨.read id type key, b.held, t⟩)
  /-- A node that was in a field when the turn of the field came is refused. -/
  refused : ∀ {s₀ t₀ c rest s t}, Match s₀ t₀ → c ∈ s₀.world.heap.candidates id type c.key →
    Match s t → a.keeping.isOpen s.book c.child = true →
    Rel s t
      (.mark ⟨.check type c.key c.child true, .slots (c.slot :: rest) :: a.held, s⟩
        (.pure (.error (.cyclicChild type c.key), s)))
      (.mark ⟨.check type c.key c.child true, .slots (c.slot :: rest) :: b.held, t⟩
        (.pure (.error (.cyclicChild type c.key), t)))
  /-- A node that was in a field when the turn of the field came is visited. -/
  visited : ∀ {s₀ t₀ c rest s t}, Match s₀ t₀ → c ∈ s₀.world.heap.candidates id type c.key →
    Match s t → a.keeping.isOpen s.book c.child = false →
    Rel s t
      (.mark ⟨.check type c.key c.child false, .slots (c.slot :: rest) :: a.held, s⟩
        (a.call a.setting (.slots (c.slot :: rest) :: a.held) .visit c.child s))
      (.mark ⟨.check type c.key c.child false, .slots (c.slot :: rest) :: b.held, t⟩
        (b.call b.setting (.slots (c.slot :: rest) :: b.held) .visit c.child t))

namespace Lockstep

variable {a : Side σ α κ} {b : Side σ' α' κ'} {id : NodeId} {type : String}
  {Match : State σ κ → State σ' κ' → Prop}
  {Rel : State σ κ → State σ' κ' → CallRun σ α κ → CallRun σ' α' κ' → Prop}

theorem chains (h : Lockstep a b id type Match Rel) :
    TwinChains Match fun _ : List ι => Rel :=
  ⟨h.done, h.thenOk⟩

/-- Whether a child is refused is the same on both sides. -/
theorem walkChild (h : Lockstep a b id type Match Rel) {s₀ : State σ κ} {t₀ : State σ' κ'}
    {c : Candidate} (hread : Match s₀ t₀) (hc : c ∈ s₀.world.heap.candidates id type c.key)
    (rest : List Slot) {s : State σ κ} {t : State σ' κ'} (hm : Match s t) :
    Rel s t (a.walkChild type c rest s) (b.walkChild type c rest t) := by
  unfold Side.walkChild Trace.walkChild
  rw [h.isOpen hm]
  cases ho : a.keeping.isOpen s.book c.child with
  | true => exact h.refused hread hc hm ho
  | false => exact h.visited hread hc hm ho

/-- The places of a field are read alike, and each of them then gives one child to visit,
or none. -/
theorem walkField (h : Lockstep a b id type Match Rel) (key : String) {s : State σ κ}
    {t : State σ' κ'} (hm : Match s t) :
    Rel s t (walkField a.keeping a.call a.setting a.held id type key s)
      (walkField b.keeping b.call b.setting b.held id type key t) := by
  rw [walkField_eq, walkField_eq, h.heap hm]
  refine h.read hm (h.chains.walkSlots key _ _ (fun c hc rest s' t' hm' => ?_) s t hm)
  rw [Heap.slotCandidates_placesIn] at hc
  exact h.walkChild hm ((Heap.of_mem_candidates hc).1 ▸ hc) rest hm'

theorem walkFields (h : Lockstep a b id type Match Rel) (keys : List String) {s : State σ κ}
    {t : State σ' κ'} (hm : Match s t) :
    Rel s t (walkFields a.keeping a.call a.setting a.held id type keys s)
      (walkFields b.keeping b.call b.setting b.held id type keys t) :=
  h.chains.walkFields (fun _ => ([] : List Unit)) (fun key _ _ hm => h.walkField key hm) keys s t hm

end Lockstep

/-- A property of runs over the fields of a node, which begin in states with an invariant. -/
structure Steady (a : Side σ α κ) (id : NodeId) (type : String) (Inv : State σ κ → Prop)
    (Holds : State σ κ → CallRun σ α κ → Prop) : Prop where
  done : ∀ {s}, Inv s → Holds s (.pure (.ok (), s))
  thenOk : ∀ {s x f}, Holds s x → (∀ s', Inv s' → Holds s' (f s')) → Holds s (x.thenOk f)
  read : ∀ {key s x}, Inv s → Holds s x → Holds s (x.mark ⟨.read id type key, a.held, s⟩)
  refused : ∀ {s₀ c rest s}, Inv s₀ → c ∈ s₀.world.heap.candidates id type c.key → Inv s →
    a.keeping.isOpen s.book c.child = true →
    Holds s (.mark ⟨.check type c.key c.child true, .slots (c.slot :: rest) :: a.held, s⟩
      (.pure (.error (.cyclicChild type c.key), s)))
  visited : ∀ {s₀ c rest s}, Inv s₀ → c ∈ s₀.world.heap.candidates id type c.key → Inv s →
    a.keeping.isOpen s.book c.child = false →
    Holds s (.mark ⟨.check type c.key c.child false, .slots (c.slot :: rest) :: a.held, s⟩
      (a.call a.setting (.slots (c.slot :: rest) :: a.held) .visit c.child s))

/-- What holds of the steps holds of the runs over fields: they are in lockstep with themselves. -/
theorem Steady.walkFields {a : Side σ α κ} {id : NodeId} {type : String} {Inv : State σ κ → Prop}
    {Holds : State σ κ → CallRun σ α κ → Prop} (h : Steady a id type Inv Holds) (keys : List String)
    {s : State σ κ} (hs : Inv s) :
    Holds s (walkFields a.keeping a.call a.setting a.held id type keys s) := by
  have hself : Lockstep a a id type (fun s t => t = s ∧ Inv s) fun s _ x _ => Holds s x :=
    { heap := fun hm => by rw [hm.1]
      isOpen := fun hm _ => by rw [hm.1]
      done := fun hm => h.done hm.2
      thenOk := fun hx hnext => h.thenOk hx fun s' hs' => hnext s' s' ⟨rfl, hs'⟩
      read := fun hm => h.read hm.2
      refused := fun hread hc hm => h.refused hread.2 hc hm.2
      visited := fun hread hc hm => h.visited hread.2 hc hm.2 }
  exact hself.walkFields keys ⟨rfl, hs⟩

/-! ## Any handlers -/

/-- States match, for what is held, and go on matching whatever handlers do. -/
structure Matching (keeping : Keeping κ) (keeping' : Keeping κ')
    (Match : List Hold → State σ κ → State σ κ' → Prop) : Prop where
  world : ∀ {held s t}, Match held s t → t.world = s.world
  depth : ∀ {held s t}, Match held s t → keeping'.depth t.book = keeping.depth s.book
  isOpen : ∀ {held s t}, Match held s t → ∀ child,
    keeping'.isOpen t.book child = keeping.isOpen s.book child
  change : ∀ {held s t}, Match held s t → ∀ world, Match held ⟨world, s.book⟩ ⟨world, t.book⟩
  hold : ∀ {held s t}, Match held s t → ∀ more, Match (more :: held) s t
  new : ∀ held world, Match held ⟨world, keeping.new⟩ ⟨world, keeping'.new⟩
  enter : ∀ {held s t}, Match held s t → ∀ id, Match (.node id :: held)
    ⟨s.world, keeping.enter s.book id⟩ ⟨t.world, keeping'.enter t.book id⟩

/-- Whether something may be done anywhere. -/
def Deed.isPlain : Deed α → Bool
  | .check _ _ _ _ => false
  | .leave _ => false
  | _ => true

/-- Two runs with the same handlers, which may be any, are in accord. -/
structure Accord (keeping : Keeping κ) (keeping' : Keeping κ')
    (Match : List Hold → State σ κ → State σ κ' → Prop)
    (Rel : List Hold → State σ κ → State σ κ' → CallRun σ α κ → CallRun σ α κ' → Prop) : Prop
    extends Matching keeping keeping' Match where
  /-- Calls nest too deep. -/
  cut : ∀ {held s t}, Match held s t → Rel held s t ⟨[], none⟩ ⟨[], none⟩
  pure : ∀ {held s t}, Match held s t → ∀ outcome,
    Rel held s t (.pure (outcome, s)) (.pure (outcome, t))
  /-- Something is done, which may change the world. -/
  mark : ∀ {held deed s t s' t' x y}, deed.isPlain = true → Match held s t →
    Rel held s' t' x y → s'.book = s.book → t'.book = t.book →
    Rel held s t (x.mark ⟨deed, held, s⟩) (y.mark ⟨deed, held, t⟩)
  /-- It is asked whether a child is being expanded, while its place and the later ones are held. -/
  check : ∀ {held slot rest type key child s t x y}, Match held s t → slot.node? = some child →
    Rel held s t x y →
    Rel held s t
      (x.mark ⟨.check type key child (keeping.isOpen s.book child), .slots (slot :: rest) :: held, s⟩)
      (y.mark ⟨.check type key child (keeping.isOpen s.book child), .slots (slot :: rest) :: held, t⟩)
  release : ∀ {held more s t x y}, Rel (more :: held) s t x y → Rel held s t x y
  bind : ∀ {held s t x y f g}, Match held s t → Rel held s t x y →
    (∀ outcome s' t', Match held s' t' → Rel held s' t' (f (outcome, s')) (g (outcome, t'))) →
    Rel held s t (x.bind f) (y.bind g)
  /-- Another walker walks meanwhile. -/
  walk : ∀ {held s t x y f g}, Match held s t →
    Rel held ⟨s.world, keeping.new⟩ ⟨t.world, keeping'.new⟩ x y →
    (∀ outcome world book book', Rel held ⟨world, s.book⟩ ⟨world, t.book⟩
      (f (outcome, ⟨world, book⟩)) (g (outcome, ⟨world, book'⟩))) →
    Rel held s t (x.bind f) (y.bind g)
  /-- A node is entered and left. -/
  inside : ∀ {held id s t x y}, Match held s t →
    Rel (.node id :: held) ⟨s.world, keeping.enter s.book id⟩
      ⟨t.world, keeping'.enter t.book id⟩ x y →
    Rel held s t
      (x.bind fun (outcome, u) => .mark ⟨.leave id, .node id :: held, u⟩
        (.pure (outcome, ⟨u.world, keeping.leave u.book id (!keeping.isOpen s.book id)⟩)))
      (y.bind fun (outcome, u) => .mark ⟨.leave id, .node id :: held, u⟩
        (.pure (outcome, ⟨u.world, keeping'.leave u.book id (!keeping.isOpen s.book id)⟩)))

namespace Accord

variable {keeping : Keeping κ} {keeping' : Keeping κ'}
  {Match : List Hold → State σ κ → State σ κ' → Prop}
  {Rel : List Hold → State σ κ → State σ κ' → CallRun σ α κ → CallRun σ α κ' → Prop}
  {call : Call σ α κ} {call' : Call σ α κ'} {host : Host σ α} {options : Options}

variable (Match Rel host options) in
/-- Answers are in accord, for handler sets in which the same handlers are found. -/
def Calls (call : Call σ α κ) (call' : Call σ α κ') : Prop :=
  ∀ (handlers handlers' : Handlers α), (∀ type, handlers'.get? type = handlers.get? type) →
    ∀ (held : List Hold) (mode : Mode) (id : NodeId) (s : State σ κ) (t : State σ κ'),
    Match held s t → Rel held s t (call ⟨host, options, handlers⟩ held mode id s)
      (call' ⟨host, options, handlers'⟩ held mode id t)

section

variable (h : Accord keeping keeping' Match Rel) (hc : Calls Match Rel host options call call')
  {handlers handlers' : Handlers α} (hh : ∀ type, handlers'.get? type = handlers.get? type)
  {held : List Hold} {s : State σ κ} {t : State σ κ'} (hm : Match held s t)

include h

theorem thenOk {x : CallRun σ α κ} {y : CallRun σ α κ'} {f : State σ κ → CallRun σ α κ}
    {g : State σ κ' → CallRun σ α κ'} (hm : Match held s t) (hx : Rel held s t x y)
    (hf : ∀ s' t', Match held s' t' → Rel held s' t' (f s') (g t')) :
    Rel held s t (x.thenOk f) (y.thenOk g) := by
  refine h.bind hm hx fun outcome s' t' hm' => ?_
  cases outcome with
  | error e => exact h.pure hm' _
  | ok _ => exact hf s' t' hm'

include hc hh

/-- Fields are gone through in lockstep if answers are in accord. -/
theorem lockstep (held : List Hold) (id : NodeId) (type : String) :
    Lockstep ⟨keeping, call, ⟨host, options, handlers⟩, held⟩
      ⟨keeping', call', ⟨host, options, handlers'⟩, held⟩ id type (Match held)
      fun s t x y => Match held s t → Rel held s t x y where
  heap hm := by rw [h.world hm]
  isOpen := h.isOpen
  done hm _ := h.pure hm _
  thenOk hx hf hm := h.thenOk hm (hx hm) fun s' t' hm' => hf s' t' hm' hm'
  read hm hx _ := h.mark rfl hm (hx hm) rfl rfl
  refused _ hcand hm ho _ := by
    rw [← ho]
    exact h.check hm (Heap.of_mem_candidates hcand).2.2 (h.pure hm _)
  visited _ hcand hm ho _ := by
    rw [← ho]
    exact h.check hm (Heap.of_mem_candidates hcand).2.2
      (h.release (hc handlers handlers' hh _ _ _ _ _ (h.hold hm _)))

/-- Expansions are in accord if answers are: child fields are resolved alike and the host is told
the same. -/
theorem expand (hm : Match held s t) (id : NodeId) (type : String) :
    Rel held s t (expand keeping call ⟨host, options, handlers⟩ held id type s)
      (expand keeping' call' ⟨host, options, handlers'⟩ held id type t) := by
  obtain ⟨⟨heap, state⟩, book⟩ := s
  obtain ⟨_, book'⟩ := t
  obtain rfl : _ = _ := h.world hm
  -- The host learns the same on both sides.
  obtain ⟨state', hannounce, -⟩ := announce_eq ⟨host, options, handlers⟩ id type heap state
  have hannounce' : announce ⟨host, options, handlers'⟩ id type ⟨⟨heap, state⟩, book'⟩ =
    ⟨⟨heap, state'⟩, book'⟩ := hannounce book'
  have hm' : Match held ⟨⟨heap, state'⟩, book⟩ ⟨⟨heap, state'⟩, book'⟩ := h.change hm _
  unfold Trace.expand
  rw [hannounce, hannounce']
  cases options.resolveKeys heap id type with
  | error e => exact h.mark rfl hm (h.pure hm' _) rfl rfl
  | ok keys =>
    have hinside := h.inside hm' (((h.lockstep hc hh (.node id :: held) id type).walkFields keys
      (h.enter hm' id)) (h.enter hm' id))
    refine h.mark rfl hm (?_ : Rel held ⟨⟨heap, state'⟩, book⟩ ⟨⟨heap, state'⟩, book'⟩ _ _) rfl rfl
    unfold walkInside
    rwa [h.isOpen hm']

/-- Scripts are in accord if answers are. All that a script learns is in matching states, so it
takes the same steps on both sides. -/
theorem runScript (script : Script σ α) (s : State σ κ) (t : State σ κ') (hm : Match held s t) :
    Rel held s t (runScript keeping call ⟨host, options, handlers⟩ held script s)
      (runScript keeping' call' ⟨host, options, handlers'⟩ held script t) := by
  induction script generalizing s t with
  | done outcome => exact h.mark rfl hm (h.pure hm outcome) rfl rfl
  | inspect next ih =>
    unfold Trace.runScript
    rw [h.world hm]
    exact h.mark rfl hm (ih _ _ _ _ hm) rfl rfl
  | change f next ih =>
    unfold Trace.runScript
    rw [h.world hm]
    exact h.mark rfl hm (ih _ _ (h.change hm _)) rfl rfl
  | depth next ih =>
    unfold Trace.runScript
    rw [h.depth hm]
    exact h.mark rfl hm (ih _ _ _ hm) rfl rfl
  | options next ih => exact h.mark rfl hm (ih _ _ _ hm) rfl rfl
  | go mode node next ih =>
    cases node with
    | none => exact h.mark rfl hm (ih _ _ _ hm) rfl rfl
    | some id =>
      have hcall := h.release (hc handlers handlers' hh _ mode id s t (h.hold hm (.node id)))
      exact h.mark rfl hm (h.bind hm hcall fun outcome s' t' hm' => ih outcome s' t' hm') rfl rfl
  | walk mode own id next ih =>
    have hnew : Match (.node id :: held) ⟨s.world, keeping.new⟩ ⟨t.world, keeping'.new⟩ := by
      rw [h.world hm]
      exact h.new _ _
    have hcall := h.release (hc own own (fun _ => rfl) _ mode id _ _ hnew)
    refine h.mark rfl hm (h.walk hm hcall fun outcome world _ _ => ?_) rfl rfl
    exact ih outcome _ _ (h.change hm world)

omit hh in
theorem respond : Calls Match Rel host options (respond keeping call) (respond keeping' call') := by
  intro handlers handlers' hh held mode id s t hm
  cases mode with
  | children =>
    simp only [Trace.respond, h.world hm]
    exact h.expand hc hh hm id _
  | visit =>
    simp only [Trace.respond, h.world hm, hh]
    cases handlers.get? (s.world.heap.effectiveType id) with
    | none => exact h.expand hc hh hm id _
    | some handler =>
      refine h.mark rfl hm (h.runScript hc hh _ _ _ ?_) rfl rfl
      unfold notify
      rw [h.world hm]
      exact h.change hm _

end

/-- Runs are in accord, however deep calls may nest. -/
theorem run (h : Accord keeping keeping' Match Rel) (host : Host σ α) (options : Options) :
    ∀ (limit : Nat), Calls Match Rel host options (run keeping limit) (run keeping' limit)
  | 0 => fun _ _ _ _ _ _ _ _ hm => h.cut hm
  | limit + 1 => h.respond (h.run host options limit)

end Accord

/-- States match that are the same. -/
theorem matching_eq (keeping : Keeping κ) :
    Matching keeping keeping fun _ (s t : State σ κ) => t = s where
  world hm := by rw [hm]
  depth hm := by rw [hm]
  isOpen hm _ := by rw [hm]
  change hm _ := by rw [hm]
  hold hm _ := hm
  new _ _ := rfl
  enter hm _ := by rw [hm]

/-- A property of runs with any handlers, for what is held and the state in which they begin. -/
structure Always (keeping : Keeping κ) (Holds : List Hold → State σ κ → CallRun σ α κ → Prop) :
    Prop where
  cut : ∀ {held s}, Holds held s ⟨[], none⟩
  pure : ∀ {held s} outcome, Holds held s (.pure (outcome, s))
  mark : ∀ {held deed s s' x}, deed.isPlain = true → Holds held s' x → s'.book = s.book →
    Holds held s (x.mark ⟨deed, held, s⟩)
  check : ∀ {held slot rest type key child refused s x}, slot.node? = some child →
    Holds held s x →
    Holds held s (x.mark ⟨.check type key child refused, .slots (slot :: rest) :: held, s⟩)
  release : ∀ {held more s x}, Holds (more :: held) s x → Holds held s x
  bind : ∀ {held s x f}, Holds held s x → (∀ outcome s', Holds held s' (f (outcome, s'))) →
    Holds held s (x.bind f)
  walk : ∀ {held s x f}, Holds held ⟨s.world, keeping.new⟩ x →
    (∀ outcome world book, Holds held ⟨world, s.book⟩ (f (outcome, ⟨world, book⟩))) →
    Holds held s (x.bind f)
  inside : ∀ {held id s x}, Holds (.node id :: held) ⟨s.world, keeping.enter s.book id⟩ x →
    Holds held s (x.bind fun (outcome, u) => .mark ⟨.leave id, .node id :: held, u⟩
      (.pure (outcome, ⟨u.world, keeping.leave u.book id (!keeping.isOpen s.book id)⟩)))

namespace Always

variable {keeping : Keeping κ} {Holds : List Hold → State σ κ → CallRun σ α κ → Prop}

theorem accord (h : Always keeping Holds) :
    Accord keeping keeping (fun _ s t => t = s) fun held s _ x _ => Holds held s x where
  toMatching := matching_eq keeping
  cut _ := h.cut
  pure _ := h.pure
  mark hd _ hx hs _ := h.mark hd hx hs
  check _ := h.check
  release := h.release
  bind _ hx hf := h.bind hx fun outcome s' => hf outcome s' s' rfl
  walk _ hx hf := h.walk hx fun outcome world book => hf outcome world book book
  inside _ := h.inside

/-- All runs have the property. -/
theorem run (h : Always keeping Holds) (limit : Nat) (setting : Walk.Setting σ α) (held : List Hold)
    (mode : Mode) (id : NodeId) (s : State σ κ) :
    Holds held s (run keeping limit setting held mode id s) :=
  h.accord.run setting.host setting.options limit setting.handlers setting.handlers (fun _ => rfl)
    held mode id s s rfl

/-- Runs over the fields of a node have the property. -/
theorem walkFields (h : Always keeping Holds) (limit : Nat) (setting : Walk.Setting σ α)
    (held : List Hold) (id : NodeId) (type : String) (keys : List String) (s : State σ κ) :
    Holds held s
      (walkFields keeping (Trace.run keeping limit) setting held id type keys s) :=
  (h.accord.lockstep (h.accord.run setting.host setting.options limit)
    (fun type => rfl (a := setting.handlers.get? type)) held id type).walkFields keys rfl rfl

end Always

/-! ## Handler sets that differ in nothing but their order -/

/-- Runs with handler sets in which the same handlers are found are equal. -/
theorem accord_eq (keeping : Keeping κ) :
    Accord keeping keeping (fun _ (s t : State σ κ) => t = s)
      fun _ _ _ (x y : CallRun σ α κ) => y = x where
  toMatching := matching_eq keeping
  cut _ := rfl
  pure hm _ := by rw [hm]
  mark _ hm hx _ _ := by rw [hm, hx]
  check hm _ hx := by rw [hm, hx]
  release hx := hx
  bind _ hx hf := by
    rw [hx]
    exact congrArg _ (funext fun (outcome, s) => hf outcome s s rfl)
  walk _ hx hf := by
    rw [hx]
    exact congrArg _ (funext fun (outcome, s) => hf outcome s.world s.book s.book)
  inside _ hx := by rw [hx]

/-- Walks with handler sets in which the same handlers are found are the same. -/
theorem walk_congr_handlers (limit : Nat) (host : Host σ α) (options : Options)
    {handlers handlers' : Handlers α} (h : ∀ type, handlers'.get? type = handlers.get? type)
    (mode : Mode) (node : Option NodeId) (world : World σ) :
    SyntaxWalk.walk limit ⟨host, options, handlers'⟩ mode node world =
      SyntaxWalk.walk limit ⟨host, options, handlers⟩ mode node world := by
  rw [← walk_result, ← walk_result]
  cases node with
  | none => rfl
  | some id =>
    have hrun := (accord_eq Walker.keeping).run host options limit handlers handlers' h [.node id]
      mode id ⟨world, Walker.keeping.new⟩ _ rfl
    exact congrArg (fun x => (CallRun.inWorld x).result) hrun

end Trace

end SyntaxWalk
