/-
Walks of copies. Two values with the same unfolding are twins, in one heap or in two. Writing leaves
out fields that hold back-references, puts null in the place of other back-references, and writes a
shared node more than once; a walk visits no back-reference and visits a shared node more than once,
so it cannot tell twins from each other. The copy that is read from the JSON of a node is its twin.
-/
import SyntaxWalk.Proofs.Ending
import SyntaxWalk.Proofs.Parallel
import SyntaxWalk.Proofs.RoundTrip

namespace SyntaxWalk

open Relation

namespace Heap

/-! ## Twins -/

/-- Two values have the same unfolding, each in its heap. -/
def Twins (heap heap' : Heap) (a b : Value) : Prop :=
  ∃ json, heap.Unfolds a json ∧ heap'.Unfolds b json

/-- Two nodes have the same unfolding, each in its heap. -/
def NodeTwins (heap heap' : Heap) (n n' : NodeId) : Prop := Twins heap heap' (.node n) (.node n')

theorem find_lasting (heap : Heap) (id : NodeId) (key : String) :
    Record.find key (heap.lasting id) = (heap.get? id key).filter (!·.isBackRef) :=
  Record.find_filter key (fun value : Value => !value.isBackRef) (heap.fields id).distinct

variable {heap heap' : Heap}

theorem string?_of_unfolds {value : Value} {json : Json} (h : heap.Unfolds value json) :
    value.string? = json.string? := by
  cases value <;> cases json <;> simp_all [Unfolds, Value.string?, Json.string?]

theorem node_of_unfolds {value : Value} {members : List (String × Json)}
    (h : heap.Unfolds value (.object members)) : ∃ n, value = .node n := by
  cases value with
  | node n => exact ⟨n, rfl⟩
  | _ => cases h

theorem array_of_unfolds {value : Value} {items : List Json}
    (h : heap.Unfolds value (.array items)) :
    ∃ values, value = .array values ∧ heap.UnfoldsAll values items := by
  cases value with
  | array values => exact ⟨values, rfl, h⟩
  | _ => cases h

/-- Under one name, fields that unfold to the same members have twins. -/
theorem find_twins (key : String) : ∀ {members : List (String × Json)}
    {fields fields' : List (String × Value)}, heap.UnfoldsFields fields members →
    heap'.UnfoldsFields fields' members →
    Option.Rel (Twins heap heap') (Record.find key fields) (Record.find key fields')
  | [], [], [], _, _ => .none
  | (name, json) :: members, (name₁, a) :: fields, (name₂, b) :: fields', h, h' => by
    obtain ⟨rfl, ha, hfields⟩ := h
    obtain ⟨rfl, hb, hfields'⟩ := h'
    unfold Record.find
    split
    · exact .some ⟨json, ha, hb⟩
    · exact find_twins key hfields hfields'

namespace NodeTwins

variable {n n' : NodeId} (h : NodeTwins heap heap' n n')

include h

theorem unfoldsFields : ∃ members, heap.UnfoldsFields (heap.lasting n) members ∧
    heap'.UnfoldsFields (heap'.lasting n') members := by
  obtain ⟨json, hn, hn'⟩ := h
  cases json with
  | object members => exact ⟨members, hn, hn'⟩
  | _ => cases hn

/-- The values of a field are twins, if they are no back-references. -/
theorem get? (key : String) : Option.Rel (Twins heap heap')
    ((heap.get? n key).filter (!·.isBackRef)) ((heap'.get? n' key).filter (!·.isBackRef)) := by
  obtain ⟨members, hn, hn'⟩ := h.unfoldsFields
  rw [← find_lasting, ← find_lasting]
  exact find_twins key hn hn'

theorem names : (heap.lasting n).map (·.1) = (heap'.lasting n').map (·.1) := by
  obtain ⟨members, hn, hn'⟩ := h.unfoldsFields
  rw [← names_eq_of_unfoldsFields hn, ← names_eq_of_unfoldsFields hn']

/-- Twins have the same text under a name: what can be seen of a text is in what it unfolds to. -/
theorem text? : (heap.fields n).text? = (heap'.fields n').text? := by
  have hskip : ∀ o : Option Value, (o.filter (!·.isBackRef)).bind Value.string? =
      o.bind Value.string? := by
    rintro (_ | _ | _ | _ | _ | _ | _ | _) <;> rfl
  funext key
  show (heap.get? n key).bind Value.string? = (heap'.get? n' key).bind Value.string?
  rw [← hskip, ← hskip (heap'.get? n' key)]
  have hkey := h.get? key
  generalize (heap.get? n key).filter _ = o, (heap'.get? n' key).filter _ = o' at hkey ⊢
  cases hkey with
  | none => rfl
  | some htwins =>
    obtain ⟨json, ha, hb⟩ := htwins
    exact (string?_of_unfolds ha).trans (string?_of_unfolds hb).symm

theorem isTyped : (heap.fields n).isTyped = (heap'.fields n').isTyped := by
  unfold Fields.isTyped
  rw [h.text?]

theorem effectiveType : heap.effectiveType n = heap'.effectiveType n' := by
  unfold Heap.effectiveType Fields.effectiveType Fields.type?
  rw [h.text?]

/-- A twin is visited just if the other one is. -/
theorem visitable? (properties : Bool) : Option.Rel (NodeTwins heap heap')
    (heap.visitable? properties (.node n)) (heap'.visitable? properties (.node n')) := by
  show Option.Rel _ (if (heap.fields n).isTyped || properties then some n else none)
    (if (heap'.fields n').isTyped || properties then some n' else none)
  rw [h.isTyped]
  split
  · exact .some h
  · exact .none

end NodeTwins

/-! ## The children of twins -/

theorem visitable?_twins (properties : Bool) {a b : Value} (h : Twins heap heap' a b) :
    Option.Rel (NodeTwins heap heap') (heap.visitable? properties a)
      (heap'.visitable? properties b) := by
  obtain ⟨json, ha, hb⟩ := h
  cases json with
  | object members =>
    obtain ⟨n, rfl⟩ := node_of_unfolds ha
    obtain ⟨n', rfl⟩ := node_of_unfolds hb
    exact NodeTwins.visitable? ⟨.object members, ha, hb⟩ properties
  | _ =>
    cases a <;> simp only [Unfolds] at ha <;> cases b <;> simp only [Unfolds] at hb <;> exact .none

theorem forall₂_twins : ∀ {items : List Json} {as bs : List Value}, heap.UnfoldsAll as items →
    heap'.UnfoldsAll bs items → List.Forall₂ (Twins heap heap') as bs
  | [], [], [], _, _ => .nil
  | item :: _, _ :: _, _ :: _, ha, hb => .cons ⟨item, ha.1, hb.1⟩ (forall₂_twins ha.2 hb.2)

/-- The nodes to visit in twins are twins, place by place. -/
theorem visitablesIn_twins (properties : Bool) {a b : Value} (h : Twins heap heap' a b) :
    List.Forall₂ (NodeTwins heap heap') (heap.visitablesIn properties a)
      (heap'.visitablesIn properties b) := by
  obtain ⟨json, ha, hb⟩ := h
  cases json with
  | array items =>
    obtain ⟨as, rfl, has⟩ := array_of_unfolds ha
    obtain ⟨bs, rfl, hbs⟩ := array_of_unfolds hb
    exact List.rel_filterMap (fun _ _ h => visitable?_twins properties h) (forall₂_twins has hbs)
  | object members =>
    obtain ⟨n, rfl⟩ := node_of_unfolds ha
    obtain ⟨n', rfl⟩ := node_of_unfolds hb
    have hnode := NodeTwins.visitable? ⟨.object members, ha, hb⟩ false
    show List.Forall₂ _ (heap.visitable? false (.node n)).toList
      (heap'.visitable? false (.node n')).toList
    generalize heap.visitable? false _ = o, heap'.visitable? false _ = o' at hnode ⊢
    cases hnode with
    | none => exact .nil
    | some htwins => exact .cons htwins .nil
  | _ =>
    cases a <;> simp only [Unfolds] at ha <;> cases b <;> simp only [Unfolds] at hb <;> exact .nil

/-- So are those in fields of twins; a back-reference is none of them. -/
theorem NodeTwins.visitables {n n' : NodeId} (h : NodeTwins heap heap' n n') (type key : String) :
    List.Forall₂ (NodeTwins heap heap') (heap.visitables n type key)
      (heap'.visitables n' type key) := by
  have hskip : ∀ (heap : Heap) (o : Option Value),
      (o.filter (!·.isBackRef)).elim [] (heap.visitablesIn (isPropertyList type key)) =
        o.elim [] (heap.visitablesIn (isPropertyList type key)) := by
    rintro heap (_ | _ | _ | _ | _ | _ | _ | _) <;> rfl
  unfold Heap.visitables
  rw [← hskip, ← hskip heap']
  have hkey := h.get? key
  generalize (heap.get? n key).filter _ = o, (heap'.get? n' key).filter _ = o' at hkey ⊢
  cases hkey with
  | none => exact .nil
  | some htwins => exact visitablesIn_twins _ htwins

/-- The children that fields of twins hold. -/
theorem NodeTwins.children {n n' : NodeId} (h : NodeTwins heap heap' n n') (type : String)
    (keys : List String) :
    List.Forall₂ (fun a b => a.1 = b.1 ∧ NodeTwins heap heap' a.2 b.2)
      (heap.childrenIn n type keys) (heap'.childrenIn n' type keys) := by
  refine List.rel_flatMap (List.forall₂_same.2 fun key _ => (rfl : key = key)) ?_
  rintro key _ rfl
  rw [List.forall₂_map_left_iff, List.forall₂_map_right_iff]
  exact (h.visitables type key).imp fun _ _ hchild => ⟨rfl, hchild⟩

/-- Fields that hold back-references hold no children. -/
theorem children_lasting (heap : Heap) (id : NodeId) (type : String) (p : String → Bool) :
    heap.childrenIn id type ((heap.fields id).keys.filter p) =
      heap.childrenIn id type (((heap.lasting id).map (·.1)).filter p) := by
  have hnone : ∀ field ∈ (heap.fields id).entries, field.2.isBackRef = true →
      heap.visitables id type field.1 = [] := by
    intro field hfield hb
    unfold visitables get?
    rw [Record.get?_of_mem hfield]
    cases hv : field.2 <;> simp_all [Value.isBackRef]
    rfl
  unfold Record.keys lasting childrenIn
  generalize (heap.fields id).entries = entries at hnone ⊢
  induction entries with
  | nil => rfl
  | cons field rest ih =>
    have ih := ih fun other hother => hnone other (List.mem_cons_of_mem _ hother)
    have hfield := hnone field List.mem_cons_self
    -- A field with a back-reference is not there on the right, and it holds no child on the left.
    cases hb : field.2.isBackRef <;> cases hp : p field.1 <;> simp_all

end Heap

/-! ## Twins are walked alike -/

open Heap

/-- Nodes in places that are walked alike: twins, at the same depth, each below its outer nodes. -/
structure TwinPlaces (heap heap' : Heap) (outer : List NodeId) (n : NodeId) (outer' : List NodeId)
    (n' : NodeId) : Prop where
  twins : NodeTwins heap heap' n n'
  depth : outer.length = outer'.length
  below : ∀ a ∈ outer, TransGen heap.Owns a n
  below' : ∀ a ∈ outer', TransGen heap'.Owns a n'

variable {heap heap' : Heap} {outer outer' : List NodeId} {n n' : NodeId}

/-- A node that unfolds is none of those above it. -/
theorem not_mem_of_below {json : Json} (h : ∀ a ∈ outer, TransGen heap.Owns a n)
    (hjson : heap.Unfolds (.node n) json) : n ∉ outer :=
  fun hmem => acyclic_of_unfolds hjson n List.mem_cons_self n .refl (h n hmem)

theorem below_child {child : NodeId} (h : ∀ a ∈ outer, TransGen heap.Owns a n)
    (hchild : heap.Owns n child) : ∀ a ∈ n :: outer, TransGen heap.Owns a child := by
  intro a ha
  rcases List.mem_cons.1 ha with rfl | ha
  · exact .single hchild
  · exact .tail (h a ha) hchild

/-- The children that fields of nodes in such places hold are not being expanded, and they are in
such places again. -/
theorem TwinPlaces.children (h : TwinPlaces heap heap' outer n outer' n') (type : String)
    (keys : List String) :
    Crew.BranchesAlike (TwinPlaces heap heap') (n :: outer) (n' :: outer')
      (.ok (heap.childrenIn n type keys)) (.ok (heap'.childrenIn n' type keys)) := by
  obtain ⟨hlength, hzip⟩ := List.forall₂_iff_zip.1 (h.twins.children type keys)
  refine List.forall₂_iff_zip.2 ⟨hlength, fun {a b} hab => ?_⟩
  obtain ⟨ha, hb⟩ := List.of_mem_zip hab
  obtain ⟨hkey, htwins⟩ := hzip hab
  have hbelow := below_child h.below (owns_of_mem_childrenIn ha)
  have hbelow' := below_child h.below' (owns_of_mem_childrenIn hb)
  obtain ⟨json, hjson, hjson'⟩ := id htwins
  -- A child that is being expanded would be below itself.
  exact ⟨hkey, iff_of_false (not_mem_of_below hbelow hjson) (not_mem_of_below hbelow' hjson'),
    fun _ => ⟨htwins, congrArg (· + 1) h.depth, hbelow, hbelow'⟩⟩

/-- Twins branch alike, whatever the fallback but a custom one, which may see more of a node than
what it unfolds to. -/
theorem TwinPlaces.branches (h : TwinPlaces heap heap' outer n outer' n') {options : Options}
    (hfallback : ∀ keysOf, options.fallback ≠ .custom keysOf) :
    Crew.BranchesAlike (TwinPlaces heap heap') (n :: outer) (n' :: outer')
      (options.branches heap n) (options.branches heap' n') := by
  unfold Options.branches Options.resolveKeys
  rw [← h.twins.effectiveType]
  cases options.listed? (heap.effectiveType n) with
  | some keys => exact h.children _ keys
  | none =>
    cases hf : options.fallback with
    | error => exact rfl
    | custom keysOf => exact absurd hf (hfallback keysOf)
    | iteration =>
      show Crew.BranchesAlike _ _ _ (.ok (heap.childrenIn n _ _)) (.ok (heap'.childrenIn n' _ _))
      -- The copy lacks the fields that hold back-references, but these hold no children.
      rw [children_lasting, children_lasting, ← h.twins.names]
      exact h.children _ _

theorem TwinPlaces.notice? (h : TwinPlaces heap heap' outer n outer' n') {options : Options}
    (hfallback : ∀ keysOf, options.fallback ≠ .custom keysOf) :
    options.notice? n (heap.effectiveType n) = options.notice? n' (heap'.effectiveType n') := by
  unfold Options.notice?
  rw [h.twins.effectiveType]
  cases options.listed? (heap'.effectiveType n') with
  | some keys => rfl
  | none =>
    cases hf : options.fallback with
    | custom keysOf => exact absurd hf (hfallback keysOf)
    | _ => rfl

/-- What a handler can see of the type and the texts of its node. -/
def Heap.labels (heap : Heap) (id : NodeId) : String × (String → Option String) :=
  (heap.effectiveType id, (heap.fields id).text?)

variable {σ α : Type} (crew : Crew (String × (String → Option String)) σ α)

/-- At twins, walks correspond. -/
theorem TwinPlaces.corresponds (h : TwinPlaces heap heap' outer n outer' n')
    (hview : crew.view = Heap.labels)
    (hfallback : ∀ keysOf, crew.options.fallback ≠ .custom keysOf) :
    crew.Corresponds heap heap' (fun _ _ => True) (TwinPlaces heap heap') outer n outer' n' where
  pair := trivial
  depth := h.depth
  type := h.twins.effectiveType
  view := by rw [hview, labels, labels, h.twins.effectiveType, h.twins.text?]
  notice := h.notice? hfallback
  branches := h.branches hfallback

/-- Let handlers see the type of their node, the texts in its fields, the depth, and how its
expansion ends, and let the fallback be none of the caller's. Then a node that reaches no cycle is
walked like the copy of it that is read from its JSON, be it in the same heap or in another one. -/
theorem copy_walked_alike (hview : crew.view = Heap.labels)
    (hfallback : ∀ keysOf, crew.options.fallback ≠ .custom keysOf) (heap base : Heap)
    (root : NodeId) (hacyclic : heap.Acyclic (.node root)) :
    ∃ json copy later, heap.toJson? (.node root) = some json ∧
      base.nodeOfJson? json = (some copy, later) ∧
      ∀ limit ≥ 2 * (heap.size + 1), ∀ mode host, ∃ outcome host',
        walk limit crew.setting mode (some root) ⟨heap, host⟩ = some (outcome, ⟨heap, host'⟩) ∧
          walk limit crew.setting mode (some copy) ⟨later, host⟩ =
            some (outcome, ⟨later, host'⟩) := by
  obtain ⟨json, hjson⟩ := exists_toJson? hacyclic
  have hunfolds := toJson?_unfolds hjson
  obtain ⟨members, rfl⟩ : ∃ members, json = .object members := by
    cases json with
    | object members => exact ⟨members, rfl⟩
    | _ => cases hunfolds
  have hcopy := unfolds_ofJson _ base _ (distinct_of_unfolds hunfolds) (.refl _)
  refine ⟨_, _, _, hjson, rfl, ?_⟩
  intro limit hl mode host
  have hplaces : TwinPlaces heap (base.ofJson (.object members)).2 [] root []
      (base.ofMembers members).2.size := ⟨⟨_, hunfolds, hcopy⟩, rfl, by simp, by simp⟩
  obtain ⟨hresult, -⟩ := crew.survey_alike
    (fun _ _ _ _ h (_ : True) => h.corresponds crew hview hfallback) limit mode _ _ _ _
    hplaces host (fun _ _ => trivial)
  obtain ⟨outcome, host', hend⟩ := crew.survey_ends heap hl mode root host
  refine ⟨outcome, host', ?_, ?_⟩
  · rw [(Trace.walk_shows crew heap limit mode root host).2, hend]
    rfl
  · show walk limit crew.setting mode (some (base.ofMembers members).2.size)
      ⟨(base.ofJson (.object members)).2, host⟩ = _
    rw [(Trace.walk_shows crew _ limit mode _ host).2, ← hresult, hend]
    rfl

/-- A pair that owns one leaf twice. The leaf refers back to the pair and owns a node whose type is
a back-reference, and there are more back-references in a field and in a list of the pair. -/
def twigs : Heap := ⟨#[
  ⟨[("type", .string "Pair"), ("up", .backRef none), ("first", .node 1),
    ("both", .array [.backRef (some 1), .node 1, .array [.node 2]])], by simp⟩,
  ⟨[("type", .string "Leaf"), ("name", .string "x"), ("parent", .backRef (some 0)),
    ("inner", .node 2)], by simp⟩,
  ⟨[("type", .backRef (some 1)), ("name", .string "y")], by simp⟩]⟩

theorem twigs_acyclic : twigs.Acyclic (.node 0) := by
  have hinner : twigs.Unfolds (.node 2) (.object [("name", .string "y")]) := ⟨rfl, rfl, trivial⟩
  have hleaf : twigs.Unfolds (.node 1) (.object [("type", .string "Leaf"), ("name", .string "x"),
      ("inner", .object [("name", .string "y")])]) :=
    ⟨rfl, rfl, rfl, rfl, rfl, hinner, trivial⟩
  have hpair : twigs.Unfolds (.node 0) (.object [("type", .string "Pair"), ("first", _),
      ("both", .array [.null, _, .array [_]])]) :=
    ⟨rfl, rfl, rfl, hleaf, rfl, ⟨trivial, hleaf, ⟨hinner, trivial⟩, trivial⟩, trivial⟩
  exact acyclic_of_unfolds hpair

/-- Handlers that note the type and the name of their node and the depth. The one for pairs goes on
at the children, the one for leaves fails when it is called for the second time. -/
def nameNoters : Crew (String × (String → Option String)) (List (String × Option String × Nat))
    Bool where
  options.fallback := .iteration
  handlers := .ofList [("Pair", true), ("Leaf", false)]
  view := Heap.labels
  duty isPair := .look fun (type, text?) depth log => .note (· ++ [(type, text? "name", depth)]) <|
    if isPair then .expand .done
    else if log.length = 2 then .done (.error (.handler "again")) else .done (.ok ())
  tell _ host := host

theorem copy_walked_alike_twigs : twigs.Acyclic (.node 0) ∧
    ∃ json copy later, twigs.toJson? (.node 0) = some json ∧
      twigs.nodeOfJson? json = (some copy, later) ∧
      ∀ limit ≥ 8, ∀ mode host, ∃ outcome host',
        walk limit nameNoters.setting mode (some 0) ⟨twigs, host⟩ =
            some (outcome, ⟨twigs, host'⟩) ∧
          walk limit nameNoters.setting mode (some copy) ⟨later, host⟩ =
            some (outcome, ⟨later, host'⟩) :=
  ⟨twigs_acyclic,
    copy_walked_alike nameNoters rfl (fun _ => Fallback.noConfusion) twigs twigs 0 twigs_acyclic⟩

end SyntaxWalk
