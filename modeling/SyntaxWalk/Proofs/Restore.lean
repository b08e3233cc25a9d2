/-
A call of a walker leaves its bookkeeping as it was, however the call ends: the nodes that are being
expanded are the same, in the same order, and so is the set of them. Handlers may change nodes, go
on at nodes that are being expanded already, catch errors or fail; the walker is out of their reach,
so all they can do is call it again, and every expansion undoes its own entry.
-/
import SyntaxWalk.Proofs.Lockstep

namespace SyntaxWalk

/-! ## Entering and leaving -/

namespace Walker

/-- Two walkers remember the same: the nodes in the same order, and the same set. -/
structure Same (v w : Walker) : Prop where
  ancestors : v.ancestors = w.ancestors
  isOpen : ∀ id, v.isOpen id = w.isOpen id

theorem Same.refl (w : Walker) : w.Same w := ⟨rfl, fun _ => rfl⟩

theorem Same.trans {u v w : Walker} (h : u.Same v) (h' : v.Same w) : u.Same w :=
  ⟨h.ancestors.trans h'.ancestors, fun id => (h.isOpen id).trans (h'.isOpen id)⟩

@[simp] theorem isOpen_new (id : NodeId) : ({} : Walker).isOpen id = false := by
  simp [isOpen]

@[simp] theorem ancestors_enter (w : Walker) (id : NodeId) :
    (w.enter id).ancestors = id :: w.ancestors := rfl

theorem isOpen_enter (w : Walker) (id other : NodeId) :
    (w.enter id).isOpen other = (id == other || w.isOpen other) := by
  simp [isOpen, enter, Std.HashSet.contains_insert]

/-- A node that is left is out of the set just if its entry put it there. -/
theorem isOpen_leave (w : Walker) (id other : NodeId) (opened : Bool) :
    (w.leave id opened).isOpen other = (!(opened && id == other) && w.isOpen other) := by
  cases opened with
  | false => simp [isOpen, leave]
  | true => simp [isOpen, leave, Std.HashSet.contains_erase]

/-- Leaving undoes entering. A node that was in the set already stays there: `opened` is false for
it. -/
theorem Same.leave {v w : Walker} {id : NodeId} (h : v.Same (w.enter id)) :
    (v.leave id (!w.isOpen id)).Same w := by
  refine ⟨?_, fun other => ?_⟩
  · show v.ancestors.tail = w.ancestors
    rw [h.ancestors, ancestors_enter, List.tail_cons]
  · rw [isOpen_leave, h.isOpen, isOpen_enter]
    by_cases ho : id = other
    · subst ho
      cases w.isOpen id <;> simp
    · rw [beq_false_of_ne ho]
      simp

/-- The walker is expanding the given nodes, innermost first, and its set is the set of them. -/
structure Lists (w : Walker) (nodes : List NodeId) : Prop where
  ancestors : w.ancestors = nodes
  isOpen : ∀ id, w.isOpen id = nodes.any (· == id)

theorem lists_new : ({} : Walker).Lists [] := ⟨rfl, isOpen_new⟩

theorem Lists.enter {w : Walker} {nodes : List NodeId} (h : w.Lists nodes) (id : NodeId) :
    (w.enter id).Lists (id :: nodes) := by
  refine ⟨by rw [ancestors_enter, h.ancestors], fun other => ?_⟩
  rw [isOpen_enter, h.isOpen, List.any_cons]

theorem Same.lists {v w : Walker} {nodes : List NodeId} (h : v.Same w) (hw : w.Lists nodes) :
    v.Lists nodes :=
  ⟨h.ancestors.trans hw.ancestors, fun id => (h.isOpen id).trans (hw.isOpen id)⟩

/-- Leaving takes the innermost node away, and no other one. -/
theorem Lists.leave {v w : Walker} {nodes : List NodeId} {id : NodeId} (hv : v.Lists (id :: nodes))
    (hw : w.Lists nodes) : (v.leave id (!w.isOpen id)).Lists nodes := by
  have hsame : v.Same (w.enter id) :=
    ⟨hv.ancestors.trans (hw.enter id).ancestors.symm,
      fun other => (hv.isOpen other).trans ((hw.enter id).isOpen other).symm⟩
  exact hsame.leave.lists hw

theorem Lists.isOpen_iff {w : Walker} {nodes : List NodeId} (h : w.Lists nodes) (id : NodeId) :
    w.isOpen id = true ↔ id ∈ nodes := by
  rw [h.isOpen]; simp

end Walker

/-! ## Where a walk stands -/

namespace Trace

variable {σ α : Type}

/-- The heap is the given one, and the given nodes are being expanded. -/
inductive Standing (heap : Heap) (nodes : List NodeId) : State σ Walker → Prop where
  | mk (host : σ) {w : Walker} (hw : w.Lists nodes) : Standing heap nodes ⟨⟨heap, host⟩, w⟩

namespace Standing

variable {heap : Heap} {nodes : List NodeId} {s t : State σ Walker}

theorem heap_eq (h : Standing heap nodes s) : s.world.heap = heap := by
  cases h
  rfl

theorem lists (h : Standing heap nodes s) : s.book.Lists nodes := by
  cases h
  assumption

theorem ancestors (h : Standing heap nodes s) : s.book.ancestors = nodes := h.lists.ancestors

theorem isOpen_iff (h : Standing heap nodes s) (id : NodeId) :
    Walker.keeping.isOpen s.book id = true ↔ id ∈ nodes := h.lists.isOpen_iff id

theorem isOpen_eq_false_iff (h : Standing heap nodes s) (id : NodeId) :
    Walker.keeping.isOpen s.book id = false ↔ id ∉ nodes := by
  rw [← h.isOpen_iff, Bool.not_eq_true]

theorem notify (h : Standing heap nodes s) (setting : Walk.Setting σ α) (notice : Notice) :
    Standing heap nodes (notify setting notice s) := by
  obtain ⟨host, hw⟩ := h
  exact ⟨_, hw⟩

/-- A notice of how child fields were resolved changes the state of the host only. -/
theorem announce (h : Standing heap nodes s) (setting : Walk.Setting σ α) (id : NodeId)
    (type : String) : Standing heap nodes (announce setting id type s) := by
  obtain ⟨host, hw⟩ := h
  obtain ⟨host', hannounce, -⟩ := announce_eq setting id type heap host
  rw [hannounce]
  exact ⟨host', hw⟩

/-- A script may change the world, but not the nodes. -/
theorem change (h : Standing heap nodes s) {world : World σ} (hworld : world.heap = heap) :
    Standing heap nodes ⟨world, s.book⟩ := by
  obtain ⟨_, host⟩ := world
  cases hworld
  exact ⟨host, h.lists⟩

theorem new (h : Standing heap nodes s) : Standing heap [] ⟨s.world, Walker.keeping.new⟩ := by
  obtain ⟨host, -⟩ := h
  exact ⟨host, Walker.lists_new⟩

theorem enter (h : Standing heap nodes s) (id : NodeId) :
    Standing heap (id :: nodes) ⟨s.world, Walker.keeping.enter s.book id⟩ := by
  obtain ⟨host, hw⟩ := h
  exact ⟨host, hw.enter id⟩

/-- After an expansion, the nodes under expansion are those from before it. -/
theorem leave {id : NodeId} (ht : Standing heap (id :: nodes) t) (hs : Standing heap nodes s) :
    Standing heap nodes
      ⟨t.world, Walker.keeping.leave t.book id (!Walker.keeping.isOpen s.book id)⟩ := by
  obtain ⟨host, hw⟩ := ht
  exact ⟨host, hw.leave hs.lists⟩

end Standing

end Trace

/-! ## Calls -/

namespace Trace

variable {σ α : Type}

/-- In the end of a run the walker remembers what it did at first. -/
def Restores (s : State σ Walker) (x : CallRun σ α Walker) : Prop :=
  ∀ outcome t, x.result = some (outcome, t) → t.book.Same s.book

section

variable {s : State σ Walker} {x : CallRun σ α Walker}

theorem restores_pure (outcome : Outcome) (s : State σ Walker) :
    Restores s (.pure (outcome, s) : CallRun σ α Walker) := by
  intro _ _ h
  cases h
  exact .refl _

theorem Restores.bind {f : Outcome × State σ Walker → CallRun σ α Walker} (hx : Restores s x)
    (hf : ∀ outcome t, Restores t (f (outcome, t))) : Restores s (x.bind f) := by
  intro outcome t h
  obtain ⟨⟨o, u⟩, hu, ht⟩ := Option.bind_eq_some_iff.1 h
  exact (hf o u outcome t ht).trans (hx o u hu)

theorem Restores.thenOk {f : State σ Walker → CallRun σ α Walker} (hx : Restores s x)
    (hf : ∀ t, x.result = some (.ok (), t) → Restores t (f t)) : Restores s (x.thenOk f) := by
  intro outcome t h
  obtain ⟨⟨o, u⟩, hu, ht⟩ := Option.bind_eq_some_iff.1 h
  cases o with
  | error e =>
    cases ht
    exact hx _ _ hu
  | ok _ => exact (hf u hu outcome t ht).trans (hx _ u hu)

/-- After a walk of its own, a script goes on with the walker that it had. -/
theorem restores_walk {f : Outcome × State σ Walker → CallRun σ α Walker}
    (hf : ∀ outcome world book, Restores ⟨world, s.book⟩ (f (outcome, ⟨world, book⟩))) :
    Restores s (x.bind f) := by
  intro outcome t h
  obtain ⟨⟨o, u⟩, -, ht⟩ := Option.bind_eq_some_iff.1 h
  exact hf o u.world u.book outcome t ht

/-- Every expansion undoes its own entry. -/
theorem Restores.inside {id : NodeId} {held : List Hold}
    (hx : Restores ⟨s.world, Walker.keeping.enter s.book id⟩ x) :
    Restores s (x.bind fun (outcome, u) => .mark ⟨.leave id, held, u⟩ (.pure (outcome,
      ⟨u.world, Walker.keeping.leave u.book id (!Walker.keeping.isOpen s.book id)⟩))) := by
  intro outcome t h
  obtain ⟨⟨o, u⟩, hu, ht⟩ := Option.bind_eq_some_iff.1 h
  cases ht
  exact (hx _ u hu).leave

end

/-- A script cannot reach the walker but through calls; a walk of its own has another walker. -/
theorem always_restores :
    Always Walker.keeping fun _ (s : State σ Walker) (x : CallRun σ α Walker) => Restores s x where
  cut _ _ h := by cases h
  pure outcome := restores_pure outcome _
  mark _ hx hs outcome t h := hs ▸ hx outcome t h
  check _ hx := hx
  release hx := hx
  bind hx hf := Restores.bind hx hf
  walk _ hf := restores_walk hf
  inside hx := Restores.inside hx

end Trace

namespace Walk

variable {σ α : Type}

/-- The same holds of runs without a trace. -/
theorem run_restores {limit : Nat} {setting : Setting σ α} {held : List Hold} {mode : Mode}
    {id : NodeId} {outcome : Outcome} {s t : State σ}
    (h : run limit setting held mode id s = some (outcome, t)) : t.walker.Same s.walker := by
  have hresult := Trace.run_result limit setting held mode id s
  rw [h] at hresult
  exact Trace.always_restores.run limit setting held mode id (Trace.ofState s) outcome _ hresult

/-! ## The bookkeeping after a call -/

/-- However a call ends, and whatever handlers did meanwhile, the walker is expanding the nodes that
it was expanding before, in the same order, and its set is the same. A call by whoever holds the
walker (`Walker.go`) and a call by a handler (`runScript`) are such runs. -/
theorem call_restores_walker (limit : Nat) (setting : Setting σ α) (held : List Hold) (mode : Mode)
    (id : NodeId) (outcome : Outcome) (s t : State σ)
    (h : run limit setting held mode id s = some (outcome, t)) :
    t.walker.ancestors = s.walker.ancestors ∧ t.walker.depth = s.walker.depth ∧
      ∀ other, other ∈ t.walker.openNodes ↔ other ∈ s.walker.openNodes := by
  have hs := run_restores h
  refine ⟨hs.ancestors, congrArg List.length hs.ancestors, fun other => ?_⟩
  rw [← Std.HashSet.contains_iff_mem, ← Std.HashSet.contains_iff_mem]
  exact Bool.eq_iff_iff.1 (hs.isOpen other)

/-- A node whose field `next` leads back to it. -/
def selfLoop : Heap := ⟨#[⟨[("type", .string "Loop"), ("next", .node 0)], by simp⟩]⟩

/-- A handler that expands its node, ignores how that ends, and breaks the loop. -/
def loopBreaker : Setting Unit Unit where
  host := ⟨fun _ id => .go .children (some id) fun _ =>
      .change (fun world => { world with heap := world.heap.erase id "next" }) (.done (.ok ())),
    fun _ _ host => host⟩
  options := { overrides := StringMap.empty.insert "Loop" ["next"] }
  handlers := Record.empty.insert "Loop" ()

theorem call_restores_walker_loopBreaker :
    ∃ t, run 2 loopBreaker [.node 0] .visit 0 ⟨⟨selfLoop, ()⟩, ({} : Walker).enter 0⟩ =
        some (.ok (), t) ∧
      t.world.heap.get? 0 "next" = none ∧ t.walker.ancestors = [0] ∧ t.walker.depth = 1 ∧
      ∀ other, other ∈ t.walker.openNodes ↔ other ∈ (({} : Walker).enter 0).openNodes := by
  have hw : (({} : Walker).enter 0).isOpen 0 = true := by simp [Walker.isOpen_enter]
  have hopen : ((({} : Walker).enter 0).enter 0).isOpen 0 = true := by simp [Walker.isOpen_enter]
  have hchild : selfLoop.child 0 "next" = .one (.node 0) := by decide
  have hkeys : loopBreaker.options.resolveKeys selfLoop 0 "Loop" = .ok ["next"] := rfl
  have hnotice : loopBreaker.options.notice? 0 "Loop" = none := rfl
  -- The second entry meets the node as its own child, and fails.
  have hexpand : run 1 loopBreaker [.node 0, .node 0] .children 0
      ⟨⟨selfLoop, ()⟩, ({} : Walker).enter 0⟩ = some (.error (.cyclicChild "Loop" "next"),
        ⟨⟨selfLoop, ()⟩, ((({} : Walker).enter 0).enter 0).leave 0 false⟩) := by
    show expand (run 0) loopBreaker _ 0 "Loop" _ = _
    simp [expand, hkeys, announce, hnotice, walkInside, hw, walkFields, walkField, hchild,
      walkSlots, Slot.visitable?, walkChild, hopen]
  have h : run 2 loopBreaker [.node 0] .visit 0 ⟨⟨selfLoop, ()⟩, ({} : Walker).enter 0⟩ =
      some (.ok (), ⟨⟨selfLoop.erase 0 "next", ()⟩,
        ((({} : Walker).enter 0).enter 0).leave 0 false⟩) := by
    show runScript (run 1) loopBreaker [.node 0] (.go .children (some 0) _)
      ⟨⟨selfLoop, ()⟩, ({} : Walker).enter 0⟩ = _
    rw [runScript, hexpand]
    rfl
  exact ⟨_, h, rfl, call_restores_walker 2 loopBreaker _ _ _ _ _ _ h⟩

end Walk

end SyntaxWalk
