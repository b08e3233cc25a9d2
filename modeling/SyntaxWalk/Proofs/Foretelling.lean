/-
What is told of the child keys of a type foretells what walks do. The description of a type is made
without a node at hand: it asks the tables, and where the fields of the node would count it says so.
A walk resolves the child fields of a node when it begins to expand it, under the type that the node
has at that moment, and then gives the fields their turns in the order in which they were resolved.
-/
import SyntaxWalk.Command.Run
import SyntaxWalk.Proofs.Entering
import SyntaxWalk.Proofs.Expansions

namespace SyntaxWalk

variable {σ α : Type}

/-! ## What is told of them -/

namespace Command

variable {options : Options} {type : String} {keys : List String}

theorem contains_tables (options : Options) (type : String) :
    (options.overrides.contains type || defaultKeys.contains type) =
      (options.listed? type).isSome := by
  rw [options.listed?_eq_or, Option.isSome_or, StringMap.contains, StringMap.contains]

/-- The lines for a type whose child fields are known. -/
def keyLines (type : String) (keys : List String) : List String :=
  if keys = [] then [type ++ " has no child keys"] else keys

/-- The line for a type whose child fields depend on the node. -/
def unlistedLine (type : String) : String :=
  type ++ " is in no key table; every own field except `type` is a child"

/-- Of a type in a table, its fields are told. -/
theorem describeKeys_of_listed (h : options.listed? type = some keys) :
    describeKeys type options = .ok (keyLines type keys) := by
  have hlines : (if keys.isEmpty then [s!"{type} has no child keys"] else keys) =
      keyLines type keys := by
    unfold keyLines
    cases keys <;> rfl
  unfold describeKeys
  rw [contains_tables, h, ← hlines]
  simp only [Option.isSome_some, options.resolveKeys_of_listed h]
  rfl

/-- Of a type in no table, it is told that all fields are taken, if they are. -/
theorem describeKeys_of_iteration (h : options.listed? type = none)
    (hf : options.fallback = .iteration) :
    describeKeys type options = .ok [unlistedLine type] := by
  unfold describeKeys
  rw [contains_tables, h, hf]
  rfl

/-- A type in no table cannot be described if unknown types are forbidden. -/
theorem describeKeys_of_forbidden (h : options.listed? type = none)
    (hf : options.fallback = .error) :
    describeKeys type options = .error (.unknownNodeType type) := by
  unfold describeKeys
  rw [contains_tables, h, hf]
  simp only [Option.isSome_none, Options.resolveKeys_eq_error_iff.2 ⟨h, hf, rfl⟩]
  rfl

end Command

/-! ## Expansions in walks -/

namespace Trace

section

variable (host : Host σ α) (options : Options)

/-- Whenever the child fields of a node are resolved, it is under the type that the node has then,
and all the moments of its expansion follow. -/
def Expands (moments : List (Moment σ α Walker)) : Prop :=
  ∀ m ∈ moments, ∀ id type, m.deed = .resolve id type →
    type = m.state.world.heap.effectiveType id ∧
    ∃ limit handlers, (expand Walker.keeping (run Walker.keeping limit) ⟨host, options, handlers⟩
      m.held id type m.state).moments <:+: moments

/-- Answers to calls of walks with the given options are made of expansions. -/
def CallsExpand (call : Call σ α Walker) : Prop :=
  ∀ handlers held mode id s, Expands host options
    (call ⟨host, options, handlers⟩ held mode id s).moments

variable {host options}

theorem Expands.of_infix {ms all : List (Moment σ α Walker)} (h : Expands host options ms)
    (hms : ms <:+: all) {m : Moment σ α Walker} (hm : m ∈ ms) {id : NodeId} {type : String}
    (hdeed : m.deed = .resolve id type) :
    type = m.state.world.heap.effectiveType id ∧
      ∃ limit handlers, (expand Walker.keeping (run Walker.keeping limit)
        ⟨host, options, handlers⟩ m.held id type m.state).moments <:+: all := by
  obtain ⟨htype, limit, handlers, hinfix⟩ := h m hm id type hdeed
  exact ⟨htype, limit, handlers, hinfix.trans hms⟩

theorem expands_nil : Expands host options ([] : List (Moment σ α Walker)) := by
  intro m hm
  cases hm

theorem Expands.append {a b : List (Moment σ α Walker)} (ha : Expands host options a)
    (hb : Expands host options b) : Expands host options (a ++ b) := by
  intro m hm id type hdeed
  rcases List.mem_append.1 hm with hm | hm
  · exact ha.of_infix (List.prefix_append a b).isInfix hm hdeed
  · exact hb.of_infix (List.suffix_append a b).isInfix hm hdeed

theorem Expands.cons {m : Moment σ α Walker} {ms : List (Moment σ α Walker)}
    (h : Expands host options ms) (hm : m.deed.entered? = none) :
    Expands host options (m :: ms) := by
  intro m' hm' id type hdeed
  rcases List.mem_cons.1 hm' with rfl | hm'
  · rw [hdeed] at hm
    cases hm
  · exact h.of_infix (List.suffix_cons m ms).isInfix hm' hdeed

theorem Expands.bind {β γ : Type} {x : Run σ α Walker β} {f : β → Run σ α Walker γ}
    (hx : Expands host options x.moments) (hf : ∀ b, Expands host options (f b).moments) :
    Expands host options (x.bind f).moments := by
  refine hx.append ?_
  cases x.result with
  | none => exact expands_nil
  | some b => exact hf b

theorem Expands.thenOk {x : CallRun σ α Walker} {next : State σ Walker → CallRun σ α Walker}
    (hx : Expands host options x.moments) (hnext : ∀ s, Expands host options (next s).moments) :
    Expands host options (x.thenOk next).moments := by
  refine hx.bind fun (outcome, s) => ?_
  cases outcome with
  | error e => exact expands_nil
  | ok _ => exact hnext s

end

section

variable {host : Host σ α} {options : Options} {call : Call σ α Walker}
  (hc : CallsExpand host options call) (handlers : Handlers α) (held : List Hold)

include hc

/-- Between expansions, child fields are not resolved. -/
theorem steady_expands (id : NodeId) (type : String) :
    Steady ⟨Walker.keeping, call, ⟨host, options, handlers⟩, held⟩ id type (fun _ => True)
      fun _ x => Expands host options x.moments where
  done _ := expands_nil
  thenOk hx hf := hx.thenOk fun s => hf s trivial
  read _ hx := hx.cons rfl
  refused _ _ _ _ := expands_nil.cons rfl
  visited _ _ _ _ := (hc _ _ _ _ _).cons rfl

theorem walkInside_expands (id : NodeId) (type : String) (keys : List String)
    (s : State σ Walker) : Expands host options
      (walkInside Walker.keeping call ⟨host, options, handlers⟩ held id type keys s).moments := by
  refine ((steady_expands hc handlers _ id type).walkFields keys trivial).bind fun r => ?_
  exact expands_nil.cons rfl

theorem runScript_expands (script : Script σ α) (s : State σ Walker) : Expands host options
    (runScript Walker.keeping call ⟨host, options, handlers⟩ held script s).moments := by
  induction script generalizing s with
  | done outcome => exact expands_nil.cons rfl
  | inspect next ih => exact (ih _ _ s).cons rfl
  | change f next ih => exact (ih _).cons rfl
  | depth next ih => exact (ih _ s).cons rfl
  | options next ih => exact (ih _ s).cons rfl
  | go mode node next ih =>
    cases node with
    | none => exact (ih _ s).cons rfl
    | some id => exact (Expands.bind (hc _ _ _ _ _) fun r => ih r.1 r.2).cons rfl
  | walk mode handlers' id next ih =>
    exact (Expands.bind (hc handlers' _ _ _ _) fun r => ih r.1 ⟨r.2.world, s.book⟩).cons rfl

end

section

variable {host : Host σ α} {options : Options} {limit : Nat}
  (hc : CallsExpand host options (run Walker.keeping limit)) (handlers : Handlers α)
  (held : List Hold)

include hc

/-- The first moment of an expansion is when the child fields are resolved. -/
theorem expand_expands (id : NodeId) (s : State σ Walker) : Expands host options
    (expand Walker.keeping (run Walker.keeping limit) ⟨host, options, handlers⟩ held id
      (s.world.heap.effectiveType id) s).moments := by
  intro m hm id' type' hdeed
  rcases List.mem_cons.1 hm with rfl | hm
  · cases hdeed
    exact ⟨rfl, limit, handlers, List.infix_rfl⟩
  · refine Expands.of_infix ?_ (List.suffix_cons _ _).isInfix hm hdeed
    cases options.resolveKeys s.world.heap id (s.world.heap.effectiveType id) with
    | error e => exact expands_nil
    | ok keys => exact walkInside_expands hc handlers held id _ keys _

theorem respond_expands :
    CallsExpand host options (respond Walker.keeping (run Walker.keeping limit)) := by
  intro handlers held mode id s
  cases mode with
  | children => exact expand_expands hc handlers held id s
  | visit =>
    unfold respond
    dsimp only
    cases handlers.get? (s.world.heap.effectiveType id) with
    | none => exact expand_expands hc handlers held id s
    | some handler => exact (runScript_expands hc handlers held _ _).cons rfl

end

/-- Whatever handlers do, child fields are resolved by expansions only. -/
theorem run_expands (host : Host σ α) (options : Options) :
    ∀ (limit : Nat), CallsExpand host options (run Walker.keeping limit)
  | 0 => fun _ _ _ _ _ => expands_nil
  | limit + 1 => respond_expands (run_expands host options limit)

theorem walk_expands (limit : Nat) (host : Host σ α) (options : Options) (handlers : Handlers α)
    (mode : Mode) (node : Option NodeId) (world : World σ) : Expands host options
      (walk Walker.keeping limit ⟨host, options, handlers⟩ mode node world).moments := by
  cases node with
  | none => exact expands_nil
  | some id =>
    unfold walk
    rw [moments_inWorld]
    exact run_expands host options limit handlers _ mode id _

/-- The fields of a node have their turns as they were resolved, up to the one in which a visit
fails; if they cannot be resolved, none has a turn. -/
theorem turns_expand (limit : Nat) (setting : Walk.Setting σ α) (held : List Hold) (id : NodeId)
    (type : String) (s : State σ Walker) :
    let x := expand Walker.keeping (run Walker.keeping limit) setting held id type s
    (∀ e, setting.options.resolveKeys s.world.heap id type = .error e →
      x.outcome = some (.error e) ∧ turns held x = []) ∧
    ∀ keys, setting.options.resolveKeys s.world.heap id type = .ok keys →
      (turns held x).map (·.1) <+: keys ∧
      (x.outcome = some (.ok ()) → (turns held x).map (·.1) = keys) := by
  intro x
  constructor
  · intro e he
    have hx : x = _ := expand_of_error Walker.keeping (run Walker.keeping limit) held he
    rw [hx]
    exact ⟨rfl, rfl⟩
  · intro keys hkeys
    have hx : x = _ := expand_of_ok Walker.keeping (run Walker.keeping limit) held hkeys
    have hcourses := walkInside_courses setting (run_nests Walker.keeping limit) held id type keys
      (announce setting id type s)
    rw [hx]
    exact ⟨hcourses.began, hcourses.all⟩

end Trace

/-! ## What is told is done -/

namespace Command

/-- Let unknown types be forbidden, or have all their fields taken. Describing the type of a node
fails just if resolving the child fields of the node does, with the same error. If a table lists the
type, all its nodes have the same child fields, and these are told, in order, or that there are
none; if none lists it, it is told that the node's own fields are taken. And walks do as they
resolve: they resolve child fields under the type that is described, and each field has its turn in
order. -/
theorem described_keys_are_walked (options : Options)
    (hfallback : options.fallback = .error ∨ options.fallback = .iteration) :
    (∀ (heap : Heap) (id : NodeId),
      let type := heap.effectiveType id
      (∀ e, describeKeys type options = .error e ↔
        options.resolveKeys heap id type = .error e) ∧
      (∀ e, describeKeys type options = .error e → e = .unknownNodeType type) ∧
      (∀ keys, (options.overrides.get? type).or (defaultKeys.get? type) = some keys →
        (∀ heap' id', options.resolveKeys heap' id' type = .ok keys) ∧
        describeKeys type options = .ok (keyLines type keys)) ∧
      (options.overrides.get? type = none → defaultKeys.get? type = none →
        options.fallback = .iteration →
        describeKeys type options = .ok [unlistedLine type] ∧
        ∃ keys, options.resolveKeys heap id type = .ok keys ∧
          keys = (heap.fields id).keys.filter (· ≠ "type") ∧ keys.Nodup)) ∧
    ∀ (σ α : Type) (host : Host σ α) (handlers : Handlers α) (limit : Nat) (mode : Mode)
      (node : Option NodeId) (world : World σ),
      let run := Trace.walk Walker.keeping limit ⟨host, options, handlers⟩ mode node world
      run.result = walk limit ⟨host, options, handlers⟩ mode node world ∧
      ∀ m ∈ run.moments, ∀ id type, m.deed = .resolve id type →
        type = m.state.world.heap.effectiveType id ∧
        ∃ limit' handlers',
          let x := Trace.expand Walker.keeping (Trace.run Walker.keeping limit')
            ⟨host, options, handlers'⟩ m.held id type m.state
          x.moments <:+: run.moments ∧
          (∀ e, options.resolveKeys m.state.world.heap id type = .error e →
            x.outcome = some (.error e) ∧ Trace.turns m.held x = []) ∧
          ∀ keys, options.resolveKeys m.state.world.heap id type = .ok keys →
            (Trace.turns m.held x).map (·.1) <+: keys ∧
            (x.outcome = some (.ok ()) → (Trace.turns m.held x).map (·.1) = keys) := by
  refine ⟨fun heap id => ?_, fun σ α host handlers limit mode node world => ?_⟩
  · intro type
    rw [← options.listed?_eq_or]
    -- The tables tell, and the fallback if the type is in none of them.
    cases hl : options.listed? type with
    | some keys =>
      rw [describeKeys_of_listed hl, options.resolveKeys_of_listed hl]
      refine ⟨fun e => by simp, fun e he => by simp at he, ?_, ?_⟩
      · rintro _ ⟨⟩
        exact ⟨options.resolveKeys_of_listed hl, rfl⟩
      · intro ho hd
        rw [options.listed?_eq_or, ho, hd] at hl
        cases hl
    | none =>
      rcases hfallback with hf | hf
      · rw [describeKeys_of_forbidden hl hf, Options.resolveKeys_eq_error_iff.2 ⟨hl, hf, rfl⟩]
        refine ⟨fun e => Iff.rfl, fun e he => by simpa using he.symm, by simp, fun _ _ hi => ?_⟩
        rw [hf] at hi
        cases hi
      · rw [describeKeys_of_iteration hl hf, options.resolveKeys_of_iteration hl hf]
        refine ⟨fun e => by simp, fun e he => by simp at he, by simp, fun _ _ _ => ⟨rfl, ?_⟩⟩
        exact ⟨_, rfl, rfl, (heap.fields id).distinct.filter _⟩
  · refine ⟨Trace.walk_result limit _ mode node world, fun m hm id type hdeed => ?_⟩
    obtain ⟨htype, limit', handlers', hinfix⟩ :=
      Trace.walk_expands limit host options handlers mode node world m hm id type hdeed
    exact ⟨htype, limit', handlers', hinfix,
      Trace.turns_expand limit' ⟨host, options, handlers'⟩ m.held id type m.state⟩

/-- A shelf, a book on it, and a lamp. -/
def furniture : Heap where
  nodes := #[⟨[("type", .string "Shelf"), ("books", .array [.node 1])], by simp⟩,
    ⟨[("type", .string "Book"), ("title", .null)], by simp⟩,
    ⟨[("bulb", .null), ("type", .string "Lamp"), ("switch", .null)], by simp⟩]

/-- Options that list shelves and books, and take all the fields of anything else. -/
def furnitureOptions : Options where
  fallback := .iteration
  overrides := (StringMap.empty.insert "Shelf" ["books"]).insert "Book" []

theorem described_keys_are_walked_furniture :
    describeKeys "Shelf" furnitureOptions = .ok ["books"] ∧
    furnitureOptions.resolveKeys furniture 0 "Shelf" = .ok ["books"] ∧
    describeKeys "Book" furnitureOptions = .ok ["Book has no child keys"] ∧
    furnitureOptions.resolveKeys furniture 1 "Book" = .ok [] ∧
    describeKeys "Lamp" furnitureOptions = .ok [unlistedLine "Lamp"] ∧
    furnitureOptions.resolveKeys furniture 2 "Lamp" = .ok ["bulb", "switch"] := by
  have htold := (described_keys_are_walked furnitureOptions (.inr rfl)).1 furniture
  have hlamp : defaultKeys.get? "Lamp" = none := by
    simp [defaultKeys, defaultKeyFile, StringMap.ofList, estreeKeys, StringMap.get?_insert]
  obtain ⟨hshelf, hshelf'⟩ := (htold 0).2.2.1 ["books"] rfl
  obtain ⟨hbook, hbook'⟩ := (htold 1).2.2.1 [] rfl
  obtain ⟨hlamp', keys, hkeys, rfl, -⟩ := (htold 2).2.2.2 rfl hlamp rfl
  exact ⟨hshelf', hshelf _ _, hbook', hbook _ _, hlamp', hkeys⟩

end Command

end SyntaxWalk
