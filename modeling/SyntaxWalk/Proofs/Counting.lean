/-
Counting nodes is counting what a walk enters. A walk that counts has handlers for some types, which
count their node and expand it, so it takes calls of handlers where a walk without handlers has
none. Both resolve the child fields of the same nodes in the same order and end in the same way,
whatever types are counted, and the counts are the numbers of these nodes by type.
-/
import Mathlib.Data.List.Induction
import SyntaxWalk.Command.Stats
import SyntaxWalk.Proofs.Entering
import SyntaxWalk.Proofs.Termination

namespace SyntaxWalk

namespace Command

/-! ## Counts -/

/-- Counts nodes that have one of the given types. -/
def Counts.tally (heap : Heap) (types : List String) (counts : Counts) (nodes : List NodeId) : Counts :=
  nodes.foldl (fun counts n =>
    if heap.effectiveType n ∈ types then Counts.bump counts (heap.effectiveType n) else counts) counts

/-- The number of nodes of a type among nodes. -/
def occurrences (heap : Heap) (type : String) (nodes : List NodeId) : Nat :=
  nodes.countP (heap.effectiveType · = type)

theorem Counts.tally_append (heap : Heap) (types : List String) (counts : Counts)
    (a b : List NodeId) :
    Counts.tally heap types counts (a ++ b) =
      Counts.tally heap types (Counts.tally heap types counts a) b :=
  List.foldl_append

theorem occurrences_snoc (heap : Heap) (type : String) (nodes : List NodeId) (n : NodeId) :
    occurrences heap type (nodes ++ [n]) =
      occurrences heap type nodes + if heap.effectiveType n = type then 1 else 0 := by
  unfold occurrences
  rw [List.countP_append, List.countP_singleton]
  simp only [decide_eq_true_eq]

/-- A counted type has an entry if it occurs, which says how often. -/
theorem Counts.get?_tally (heap : Heap) (types : List String) (type : String) (nodes : List NodeId) :
    (Counts.tally heap types ∅ nodes).get? type =
      if type ∈ types ∧ occurrences heap type nodes ≠ 0 then some (occurrences heap type nodes)
      else none := by
  induction nodes using List.reverseRecOn with
  | nil => simp [Counts.tally, occurrences]
  | append_singleton init n ih =>
    rw [Counts.tally_append, occurrences_snoc]
    show (if heap.effectiveType n ∈ types then _ else _ : Counts).get? type = _
    by_cases hn : heap.effectiveType n = type
    · subst hn
      by_cases htypes : heap.effectiveType n ∈ types
      · rw [if_pos htypes, Counts.bump, StringMap.get?_insert, if_pos rfl, ih]
        by_cases hzero : occurrences heap (heap.effectiveType n) init = 0
        · simp [htypes, hzero]
        · simp [htypes, hzero]
      · rw [if_neg htypes, ih]
        simp [htypes]
    · rw [if_neg hn, Nat.add_zero, ← ih]
      by_cases htypes : heap.effectiveType n ∈ types
      · rw [if_pos htypes, Counts.bump, StringMap.get?_insert, if_neg (Ne.symm hn)]
      · rw [if_neg htypes]

/-- The types that are counted have a handler, and no others do. -/
theorem get?_countingHandlers (types : List String) (type : String) :
    (countingHandlers types).get? type = if type ∈ types then some () else none :=
  Record.get?_insertAll_const type () types .empty

/-! ## Two runs -/

open Trace

section

variable {σ α : Type} (heap : Heap) (types : List String)

/-- How a run that counts ends, compared with a run without handlers. Both end in the same way, and
what is counted is what the other run has entered after the given nodes. -/
inductive Tallied (nodes : List NodeId) (counts : Counts) (before : List NodeId)
    (x : CallRun σ α Walker) : Outcome × Trace.State Tally Walker → Prop where
  | mk {outcome s t ids} (ht : Standing heap nodes t) (hx : x.result = some (outcome, s))
    (hs : Standing heap nodes s) (hentered : entered x.moments = before ++ ids)
    (hcounts : t.world.host.counts = Counts.tally heap types counts ids) :
    Tallied nodes counts before x (outcome, t)

/-- A run that counts, the second one, is compared with a run without handlers if it ends. -/
def Tallies (nodes : List NodeId) (counts : Counts) (before : List NodeId) (x : CallRun σ α Walker)
    (y : CallRun Tally Unit Walker) : Prop :=
  ∀ r, y.result = some r → Tallied heap types nodes counts before x r

variable {heap types} {nodes before : List NodeId} {counts : Counts} {x : CallRun σ α Walker}
  {y : CallRun Tally Unit Walker} {s : Trace.State σ Walker} {t : Trace.State Tally Walker}

theorem tallies_pure (hs : Standing heap nodes s) (ht : Standing heap nodes t) (outcome : Outcome) :
    Tallies heap types nodes t.world.host.counts [] (.pure (outcome, s) : CallRun σ α Walker)
      (.pure (outcome, t)) := by
  intro r hr
  cases hr
  exact .mk ht rfl hs rfl rfl

/-- The node that is entered first is counted first. -/
theorem Tallies.cons (id : NodeId)
    (h : Tallies heap types nodes (Counts.tally heap types counts [id]) [id] x y) :
    Tallies heap types nodes counts [] x y := by
  intro r hr
  obtain ⟨ht, hx, hs, hentered, hcounts⟩ := h r hr
  exact .mk ht hx hs hentered (hcounts.trans (Counts.tally_append heap types counts [id] _).symm)

theorem Tallies.mark {m : Moment σ α Walker} (hm : m.deed.entered? = none)
    (h : Tallies heap types nodes counts before x y) (m' : Moment Tally Unit Walker) :
    Tallies heap types nodes counts before (x.mark m) (y.mark m') := by
  intro r hr
  obtain ⟨ht, hx, hs, hentered, hcounts⟩ := h r hr
  exact .mk ht hx hs ((entered_mark_none hm x).trans hentered) hcounts

theorem Tallies.enter {id : NodeId} {type : String} {held : List Hold}
    {s : Trace.State σ Walker} (h : Tallies heap types nodes counts [] x y)
    (m : Moment Tally Unit Walker) :
    Tallies heap types nodes counts [id] (x.mark ⟨.resolve id type, held, s⟩) (y.mark m) := by
  intro r hr
  obtain ⟨ht, hx, hs, hentered, hcounts⟩ := h r hr
  exact .mk ht hx hs (by rw [entered_mark_resolve, hentered]; rfl) hcounts

/-- What comes next is counted on top of what was counted before. -/
theorem Tallies.bind {later : List NodeId}
    {f : Outcome × Trace.State σ Walker → CallRun σ α Walker}
    {g : Outcome × Trace.State Tally Walker → CallRun Tally Unit Walker}
    (h : Tallies heap types nodes counts before x y)
    (hnext : ∀ outcome s t, Standing heap nodes s → Standing heap nodes t →
      Tallies heap types later t.world.host.counts [] (f (outcome, s)) (g (outcome, t))) :
    Tallies heap types later counts before (x.bind f) (y.bind g) := by
  intro r hr
  obtain ⟨b, hb, hr⟩ := Option.bind_eq_some_iff.1 hr
  cases h b hb with
  | @mk outcome s t ids ht hx hs hentered hcounts =>
    cases hnext outcome s t hs ht r hr with
    | @mk outcome' s' t' more ht' hf hs' hentered' hcounts' =>
      have hresult : (x.bind f).result = some (outcome', s') := by
        rw [Run.result_bind, hx]
        exact hf
      have hboth : entered (x.bind f).moments = before ++ (ids ++ more) := by
        rw [moments_bind_of_result hx, entered_append, hentered, hentered', List.nil_append,
          List.append_assoc]
      exact .mk ht' hresult hs' hboth (by rw [hcounts', hcounts, Counts.tally_append])

theorem Tallies.thenOk {f : Trace.State σ Walker → CallRun σ α Walker}
    {g : Trace.State Tally Walker → CallRun Tally Unit Walker}
    (h : Tallies heap types nodes counts before x y)
    (hnext : ∀ s t, Standing heap nodes s → Standing heap nodes t →
      Tallies heap types nodes t.world.host.counts [] (f s) (g t)) :
    Tallies heap types nodes counts before (x.thenOk f) (y.thenOk g) := by
  refine h.bind fun outcome s t hs ht => ?_
  cases outcome with
  | error e => exact tallies_pure hs ht _
  | ok _ => exact hnext s t hs ht

end

/-! ## Step by step -/

section

variable {σ α : Type} (heap : Heap) (types : List String) (host : Host σ α) (options : Options)
  (call : Trace.Call σ α Walker) (count : Trace.Call Tally Unit Walker)

/-- Visits by a walk that counts are compared with visits by a walk without handlers. -/
def VisitsTally : Prop :=
  ∀ (held held' : List Hold) (nodes : List NodeId) (id : NodeId) (s : Trace.State σ Walker)
    (t : Trace.State Tally Walker), Standing heap nodes s → Standing heap nodes t →
    Tallies heap types nodes t.world.host.counts []
      (call ⟨host, options, ∅⟩ held .visit id s)
      (count ⟨Tally.host, options, countingHandlers types⟩ held' .visit id t)

variable {heap types host options call count} (hc : VisitsTally heap types host options call count)
  (held held' : List Hold) {nodes : List NodeId}

include hc

/-- Both runs go through fields in lockstep; what they do at a child is compared visit by visit. -/
theorem lockstep_tallies (id : NodeId) (type : String) :
    Lockstep ⟨Walker.keeping, call, ⟨host, options, ∅⟩, held⟩
      ⟨Walker.keeping, count, ⟨Tally.host, options, countingHandlers types⟩, held'⟩ id type
      (fun s t => Standing heap nodes s ∧ Standing heap nodes t)
      fun _ t x y => Tallies heap types nodes t.world.host.counts [] x y where
  heap hm := hm.2.heap_eq.trans hm.1.heap_eq.symm
  isOpen hm child := (hm.2.lists.isOpen child).trans (hm.1.lists.isOpen child).symm
  done hm := tallies_pure hm.1 hm.2 _
  thenOk hx hf := hx.thenOk fun s t hs ht => hf s t ⟨hs, ht⟩
  read _ hx := hx.mark rfl _
  refused _ _ hm _ := (tallies_pure hm.1 hm.2 _).mark rfl _
  visited _ _ hm _ := (hc _ _ nodes _ _ _ hm.1 hm.2).mark rfl _

/-- Both expand a node in the same way. -/
theorem expand_tallies (id : NodeId) (type : String) {s : Trace.State σ Walker}
    {t : Trace.State Tally Walker} (hs : Standing heap nodes s) (ht : Standing heap nodes t) :
    Tallies heap types nodes t.world.host.counts [id]
      (expand Walker.keeping call ⟨host, options, ∅⟩ held id type s)
      (expand Walker.keeping count ⟨Tally.host, options, countingHandlers types⟩ held' id type
        t) := by
  obtain ⟨state, hw⟩ := hs
  obtain ⟨tally, hv⟩ := ht
  obtain ⟨state', hstate, -⟩ := announce_eq ⟨host, options, ∅⟩ id type heap state
  obtain ⟨tally', htally, hcounts⟩ :=
    announce_eq ⟨Tally.host, options, countingHandlers types⟩ id type heap tally
  unfold expand
  refine Tallies.enter ?_ _
  dsimp only
  -- A notice is no count.
  rw [hstate, htally, ← hcounts (·.counts = tally.counts) rfl fun _ => rfl]
  cases options.resolveKeys heap id type with
  | error e => exact tallies_pure ⟨state', hw⟩ ⟨tally', hv⟩ _
  | ok keys =>
    refine ((lockstep_tallies hc (.node id :: held) (.node id :: held') id type).walkFields keys
      ⟨.mk state' (hw.enter id), .mk tally' (hv.enter id)⟩).bind fun outcome u u' hu hu' => ?_
    exact (tallies_pure (hu.leave ⟨state', hw⟩) (hu'.leave ⟨tally', hv⟩) outcome).mark rfl _

end

section

variable {σ α : Type} {heap : Heap} {types : List String} {host : Host σ α} {options : Options}

/-- A handler that counts ends as the expansion does which it asks for. -/
theorem result_behave (count : Trace.Call Tally Unit Walker) (held : List Hold) (id : NodeId)
    (tally : Tally) (v : Walker) :
    (runScript Walker.keeping count ⟨Tally.host, options, countingHandlers types⟩ held
        (Tally.behave () id) ⟨⟨heap, tally⟩, v⟩).result =
      (count ⟨Tally.host, options, countingHandlers types⟩ (.node id :: held) .children id
        ⟨⟨heap, tally.count (heap.effectiveType id)⟩, v⟩).result := by
  unfold Tally.behave runScript
  rw [Run.result_mark]
  unfold runScript
  rw [Run.result_mark, Run.result_bind]
  rcases (count ⟨Tally.host, options, countingHandlers types⟩ (.node id :: held) .children id
    ⟨⟨heap, tally.count (heap.effectiveType id)⟩, v⟩).result with _ | ⟨outcome, t⟩
  · rfl
  · rfl

/-- A visit of a walk that counts takes two calls where the other one takes one, if the node is
counted. -/
theorem visit_tallies {limit countLimit : Nat}
    (hc : VisitsTally heap types host options (Trace.run Walker.keeping limit)
      (Trace.run Walker.keeping countLimit))
    (hc' : ∀ l, countLimit = l + 1 →
      VisitsTally heap types host options (Trace.run Walker.keeping limit)
        (Trace.run Walker.keeping l)) :
    VisitsTally heap types host options (Trace.run Walker.keeping (limit + 1))
      (Trace.run Walker.keeping (countLimit + 1)) := by
  intro held held' nodes id s t hs ht
  obtain ⟨tally, hv⟩ := ht
  unfold Trace.run respond
  dsimp only
  rw [Record.get?_empty, get?_countingHandlers, hs.heap_eq]
  refine Tallies.cons id ?_
  by_cases htype : heap.effectiveType id ∈ types
  · rw [if_pos htype]
    have hbump : Counts.tally heap types tally.counts [id] =
      Counts.bump tally.counts (heap.effectiveType id) := if_pos htype
    rw [hbump]
    intro r hr
    have hchildren := (result_behave (Trace.run Walker.keeping countLimit) held' id
      (Tally.notify (.dispatching (heap.effectiveType id)) heap tally) _).symm.trans hr
    cases countLimit with
    | zero => cases hchildren
    | succ l =>
      exact expand_tallies (hc' l rfl) held (.node id :: held') id _ hs ⟨_, hv⟩ r hchildren
  · rw [if_neg htype]
    have hskip : Counts.tally heap types tally.counts [id] = tally.counts := if_neg htype
    rw [hskip]
    exact expand_tallies hc held held' id _ hs ⟨tally, hv⟩

/-- A walk without handlers needs no more calls than one that counts. -/
theorem run_tallies (heap : Heap) (types : List String) (host : Host σ α) (options : Options)
    (countLimit : Nat) : ∀ limit ≥ countLimit, VisitsTally heap types host options
      (Trace.run Walker.keeping limit) (Trace.run Walker.keeping countLimit) := by
  induction countLimit using Nat.strongRecOn with
  | _ countLimit ih =>
    intro limit hlimit
    cases countLimit with
    | zero =>
      intro _ _ _ _ _ _ _ _ r hr
      cases hr
    | succ l =>
      obtain ⟨limit, rfl⟩ : ∃ m, limit = m + 1 := ⟨limit - 1, by omega⟩
      refine visit_tallies (ih l (by omega) limit (by omega)) fun k hk => ?_
      exact ih k (by omega) limit (by omega)

end

/-! ## Counts and walks -/

theorem counting_inward (options : Options) (types : List String) :
    (⟨Tally.host, options, countingHandlers types⟩ : Walk.Setting Tally Unit).Inward :=
  fun _ _ _ _ => ⟨fun _ => rfl, ⟨rfl, rfl⟩, fun _ => trivial⟩

/-- Counting ends as a walk without handlers does, and counts what that walk enters. -/
theorem exists_countNodes (heap : Heap) (root : NodeId) (types : List String) (options : Options) :
    ∃ outcome tally, countNodes heap root types options = some (outcome, tally) ∧
      ∀ {σ α : Type} (host : Host σ α) (state : σ) (limit : Nat), countingLimit heap ≤ limit →
        (∃ state', walk limit ⟨host, options, ∅⟩ .visit (some root) ⟨heap, state⟩ =
          some (outcome, ⟨heap, state'⟩)) ∧
        tally.counts =
          Counts.tally heap types ∅ (enteredFrom limit host options root ⟨heap, state⟩) := by
  have hlimit : 2 * (heap.size + 1) ≤ countingLimit heap := by
    unfold countingLimit
    omega
  obtain ⟨⟨outcome, _, hr, tally, -⟩, -⟩ := root_goesOn (counting_inward options types) heap .visit
    root hlimit [.node root] _ (.mk {} Walker.lists_new)
  refine ⟨outcome, tally, ?_, fun host state limit hle => ?_⟩
  · unfold countNodes
    rw [walk_eq_of_run hr]
    rfl
  · cases run_tallies heap types host options (countingLimit heap) limit hle [.node root]
      [.node root] [] root _ _ (.mk state Walker.lists_new) (.mk {} Walker.lists_new) _ hr with
    | @mk _ _ _ ids _ hx hs hentered hcounts =>
      obtain ⟨state', -⟩ := hs
      refine ⟨⟨state', walk_eq_of_run hx⟩, hcounts.trans ?_⟩
      unfold enteredFrom Trace.walk
      rw [moments_inWorld]
      exact congrArg (Counts.tally heap types ∅) hentered.symm

/-- A host that has no handlers and ignores notices. -/
def idleHost : Host Unit Empty := ⟨fun handler => handler.elim, fun _ _ state => state⟩

/-- Counting is counting the nodes that a walk without handlers enters. It ends as that walk does,
with the same error if there is one, and a type has an entry just if it is asked for and occurs,
which says how often. So the order of the types makes no difference, nor does asking for one twice,
and a part of the types gives a part of the counts. A tree that was read from JSON is entered node
by node, each once, if no child field is listed twice. -/
theorem counts_are_those_of_walk (heap : Heap) (root : NodeId) (types : List String)
    (options : Options) :
    ∃ outcome tally, countNodes heap root types options = some (outcome, tally) ∧
      (∀ (σ α : Type) (host : Host σ α) (state : σ), ∀ limit ≥ countingLimit heap,
        (∃ state', walk limit ⟨host, options, ∅⟩ .visit (some root) ⟨heap, state⟩ =
          some (outcome, ⟨heap, state'⟩)) ∧
        ∀ type, tally.counts.get? type =
          if type ∈ types ∧
            occurrences heap type (enteredFrom limit host options root ⟨heap, state⟩) ≠ 0
          then some (occurrences heap type (enteredFrom limit host options root ⟨heap, state⟩))
          else none) ∧
      (∀ types', (∀ type, type ∈ types' ↔ type ∈ types) →
        countNodes heap root types' options = some (outcome, tally)) ∧
      (∀ part, (∀ type ∈ part, type ∈ types) →
        ∃ tally', countNodes heap root part options = some (outcome, tally') ∧
          ∀ type, tally'.counts.get? type =
            if type ∈ part then tally.counts.get? type else none) ∧
      ∀ (base : Heap) (json : Json), json.Distinct →
        base.nodeOfJson? json = (some root, heap) → options.ListsOnce heap →
        ∀ (σ α : Type) (host : Host σ α) (state : σ) (limit : Nat),
          (enteredFrom limit host options root ⟨heap, state⟩).Nodup := by
  obtain ⟨outcome, tally, hcount, hwalk⟩ := exists_countNodes heap root types options
  refine ⟨outcome, tally, hcount, fun σ α host state limit hle => ?_, fun types' hsame => ?_,
    fun part hpart => ?_, fun base json hd hroot hkeys σ α host state limit => ?_⟩
  · obtain ⟨hends, hcounts⟩ := hwalk host state limit hle
    refine ⟨hends, fun type => ?_⟩
    rw [hcounts, Counts.get?_tally]
  · rw [← hcount]
    unfold countNodes
    rw [walk_congr_handlers _ _ _ fun type => ?_]
    rw [get?_countingHandlers, get?_countingHandlers]
    simp only [hsame type]
  · -- Both counts are compared with the same walk.
    obtain ⟨outcome', tally', hcount', hwalk'⟩ := exists_countNodes heap root part options
    obtain ⟨⟨_, hends⟩, hcounts⟩ := hwalk idleHost () (countingLimit heap) (Nat.le_refl _)
    obtain ⟨⟨_, hends'⟩, hcounts'⟩ := hwalk' idleHost () (countingLimit heap) (Nat.le_refl _)
    rw [hends] at hends'
    cases hends'
    refine ⟨tally', hcount', fun type => ?_⟩
    rw [hcounts, hcounts', Counts.get?_tally, Counts.get?_tally]
    by_cases htype : type ∈ part
    · simp [htype, hpart type htype]
    · simp [htype]
  · exact nodup_enteredFrom (Heap.planted_nodeOfJson? hd hroot).2 limit host hkeys state

/-- A shelf with two books. -/
def shelfJson : Json := .object [("type", .string "Shelf"),
  ("books", .array [.object [("type", .string "Book")], .object [("type", .string "Book")]])]

/-- The heap of the shelf and its books. -/
def shelf : Heap := ((∅ : Heap).ofJson shelfJson).2

/-- Options that list the books of a shelf, and nothing else. -/
def shelfOptions : Options where
  overrides := ((StringMap.empty.insert "Shelf" ["books"]).insert "Book" []).insert "Property" []

theorem shelf_type (id : NodeId) : shelf.effectiveType id ∈ ["Shelf", "Book", "Property"] := by
  by_cases hid : id < shelf.size
  · have hsmall : ∀ id < shelf.size, shelf.effectiveType id ∈ ["Shelf", "Book", "Property"] := by
      decide
    exact hsmall id hid
  · unfold Heap.effectiveType
    rw [Heap.fields_of_size_le (Nat.le_of_not_lt hid)]
    decide

/-- No list of the options has a field twice. -/
theorem shelfOptions_listsOnce : shelfOptions.ListsOnce shelf := by
  have hall : ∀ type ∈ ["Shelf", "Book", "Property"], ∀ id keys,
      shelfOptions.resolveKeys shelf id type = .ok keys → keys.Nodup := by
    intro type htype id keys hkeys
    simp only [List.mem_cons, List.not_mem_nil, or_false] at htype
    rcases htype with rfl | rfl | rfl
    · cases hkeys
      decide
    · cases hkeys
      decide
    · cases hkeys
      decide
  exact fun id => hall _ (shelf_type id) id

theorem shelf_counted : ∃ tally, countNodes shelf 2 ["Book", "Shelf"] shelfOptions =
    some (.ok (), tally) ∧ tally.counts.get? "Book" = some 2 := by
  have hlimit : countingLimit shelf = 8 := by decide
  have htype : shelf.effectiveType 0 = "Book" ∧ shelf.effectiveType 1 = "Book" ∧
      shelf.effectiveType 2 = "Shelf" := by decide
  have hbooks : shelf.child 2 "books" = .many [.node 0, .node 1] := by decide
  have hkeys : ∀ id, shelfOptions.resolveKeys shelf id "Shelf" = .ok ["books"] ∧
    shelfOptions.resolveKeys shelf id "Book" = .ok [] := fun _ => ⟨rfl, rfl⟩
  have hnotice : ∀ id, shelfOptions.notice? id "Shelf" = none ∧
    shelfOptions.notice? id "Book" = none := fun _ => ⟨rfl, rfl⟩
  simp [countNodes, hlimit, walk, Walker.go, Walk.run, Walk.respond, htype, get?_countingHandlers,
    Tally.host, Tally.behave, Walk.runScript, Walk.notify, Walk.expand, hkeys, Walk.announce,
    hnotice, Walk.walkInside, Walk.walkFields, Walk.walkField, hbooks, Walk.walkSlots,
    Slot.visitable?, Walk.walkChild, Walker.isOpen_enter, Walker.isOpen_leave, Tally.count,
    Counts.bump, Tally.notify, StringMap.get?_insert]

theorem counts_are_those_of_walk_shelf :
    shelfJson.Distinct ∧ (∅ : Heap).nodeOfJson? shelfJson = (some 2, shelf) ∧
    ∃ tally, countNodes shelf 2 ["Book", "Shelf"] shelfOptions = some (.ok (), tally) ∧
      occurrences shelf "Book" (enteredFrom 8 idleHost shelfOptions 2 ⟨shelf, ()⟩) = 2 ∧
      countNodes shelf 2 ["Shelf", "Book", "Shelf"] shelfOptions = some (.ok (), tally) ∧
      (∃ tally', countNodes shelf 2 ["Book"] shelfOptions = some (.ok (), tally') ∧
        tally'.counts.get? "Book" = some 2 ∧ tally'.counts.get? "Shelf" = none) ∧
      (enteredFrom 8 idleHost shelfOptions 2 ⟨shelf, ()⟩).Nodup := by
  have hd : shelfJson.Distinct := by
    simp [shelfJson, Json.Distinct, Json.DistinctAll, Json.DistinctMembers]
  have hroot : (∅ : Heap).nodeOfJson? shelfJson = (some 2, shelf) := rfl
  obtain ⟨tally, hcount, hbooks⟩ := shelf_counted
  obtain ⟨outcome, tally', hcount', hwalk, hsame, hpart, honce⟩ :=
    counts_are_those_of_walk shelf 2 ["Book", "Shelf"] shelfOptions
  rw [hcount] at hcount'
  cases hcount'
  refine ⟨hd, hroot, tally, hcount, ?_, hsame _ (by simp [or_comm]), ?_,
    honce ∅ shelfJson hd hroot shelfOptions_listsOnce _ _ idleHost () 8⟩
  · have hentry := (hwalk Unit Empty idleHost () 8 (by decide)).2 "Book"
    rw [hbooks] at hentry
    split at hentry
    · exact (Option.some.inj hentry).symm
    · cases hentry
  · obtain ⟨tally', hcount', hcounts⟩ := hpart ["Book"] (by simp)
    refine ⟨tally', hcount', ?_, ?_⟩
    · rw [hcounts, if_pos (by simp), hbooks]
    · rw [hcounts, if_neg (by decide)]

end Command

end SyntaxWalk
