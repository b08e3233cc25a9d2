/-
Two surveys side by side: one crew on two heaps. Where the surveys come to nodes that correspond, in
their type, in what handlers see of them and in their children, they call the same handlers at the
same depths and end alike. That nodes correspond is asked for only where the first survey comes.
-/
import Mathlib.Data.List.Forall2
import SyntaxWalk.Proofs.Survey

namespace SyntaxWalk

/-! ## Reports side by side -/

section

variable {σ α : Type} {known : NodeId → Prop} {pair : NodeId → NodeId → Prop}

/-- Two sights of a pair of nodes. -/
inductive Sight.Alike (pair : NodeId → NodeId → Prop) : Sight α → Sight α → Prop where
  | call {handler n m depth} (h : pair n m) :
    Alike pair (.call handler n depth) (.call handler m depth)
  | expansion {n m} (h : pair n m) : Alike pair (.expansion n) (.expansion m)

/-- Calls at pairs of equal nodes are the same calls. -/
theorem Sight.calls_eq_of_alike {x y : List (Sight α)} (h : List.Forall₂ (Sight.Alike (· = ·)) x y) :
    x.filterMap Sight.call? = y.filterMap Sight.call? := by
  have heq : x = y := List.forall₂_eq_eq_eq ▸ h.imp fun a b hab => by
    cases hab with
    | call h => rw [h]
    | expansion h => rw [h]
  rw [heq]

namespace Report

/-- If the first report is on known nodes only, both end alike, with the same state of the host, and
are on pairs of nodes. -/
def Alike (known : NodeId → Prop) (pair : NodeId → NodeId → Prop) (x y : Report σ α) : Prop :=
  (∀ sight ∈ x.sights, known sight.node) →
    x.result = y.result ∧ List.Forall₂ (Sight.Alike pair) x.sights y.sights

theorem alike_pure (outcome : Outcome) (host : σ) :
    Alike known pair (pure outcome host : Report σ α) (pure outcome host) :=
  fun _ => ⟨rfl, .nil⟩

theorem Alike.mark {x y : Report σ α} {a b : Sight α} (hs : a.Alike pair b)
    (h : Alike known pair x y) : Alike known pair (x.mark a) (y.mark b) := by
  intro hknown
  obtain ⟨hr, hsights⟩ := h fun sight hmem => hknown sight (List.mem_cons_of_mem _ hmem)
  exact ⟨hr, .cons hs hsights⟩

theorem Alike.bind {x y : Report σ α} {f g : Outcome → σ → Report σ α} (h : Alike known pair x y)
    (hf : ∀ outcome host, Alike known pair (f outcome host) (g outcome host)) :
    Alike known pair (x.bind f) (y.bind g) := by
  obtain ⟨xs, xr⟩ := x
  obtain ⟨ys, yr⟩ := y
  intro hknown
  cases xr with
  | none =>
    obtain ⟨rfl, hsights⟩ := h hknown
    exact ⟨rfl, hsights⟩
  | some r =>
    obtain ⟨outcome, host⟩ := r
    simp only [Report.bind, List.mem_append] at hknown
    obtain ⟨rfl, hsights⟩ := h fun sight hmem => hknown sight (.inl hmem)
    obtain ⟨hr, hmore⟩ := hf outcome host fun sight hmem => hknown sight (.inr hmem)
    exact ⟨hr, List.rel_append hsights hmore⟩

theorem Alike.thenOk {x y : Report σ α} {f g : σ → Report σ α} (h : Alike known pair x y)
    (hf : ∀ host, Alike known pair (f host) (g host)) :
    Alike known pair (x.thenOk f) (y.thenOk g) := by
  refine h.bind fun outcome host => ?_
  cases outcome with
  | error e => exact alike_pure _ _
  | ok _ => exact hf host

end Report

end

/-! ## Surveys side by side -/

namespace Crew

variable {ν σ α : Type} {known : NodeId → Prop} {pair : NodeId → NodeId → Prop}

/-- The children of two nodes, one by one: they are held by the same fields, a child is being
expanded just if the other one is, and otherwise their places are related. -/
def BranchesAlike (place : List NodeId → NodeId → List NodeId → NodeId → Prop)
    (nodes nodes' : List NodeId) : Except VisitError (List (String × NodeId)) →
    Except VisitError (List (String × NodeId)) → Prop
  | .error e, .error e' => e = e'
  | .ok branches, .ok branches' => List.Forall₂ (fun a b => a.1 = b.1 ∧
      (a.2 ∈ nodes ↔ b.2 ∈ nodes') ∧ (a.2 ∉ nodes → place nodes a.2 nodes' b.2)) branches branches'
  | _, _ => False

/-- Nodes that correspond, when the outer nodes are being expanded. -/
structure Corresponds (crew : Crew ν σ α) (heap heap' : Heap) (pair : NodeId → NodeId → Prop)
    (place : List NodeId → NodeId → List NodeId → NodeId → Prop) (outer : List NodeId) (n : NodeId)
    (outer' : List NodeId) (n' : NodeId) : Prop where
  pair : pair n n'
  depth : outer.length = outer'.length
  type : heap.effectiveType n = heap'.effectiveType n'
  view : crew.view heap n = crew.view heap' n'
  notice : crew.options.notice? n (heap.effectiveType n) =
    crew.options.notice? n' (heap'.effectiveType n')
  branches : BranchesAlike place (n :: outer) (n' :: outer') (crew.options.branches heap n)
    (crew.options.branches heap' n')

theorem surveyChildren_alike {visit visit' : NodeId → σ → Report σ α} (type : String)
    {nodes nodes' : List NodeId} {branches branches' : List (String × NodeId)}
    (h : List.Forall₂ (fun a b => a.1 = b.1 ∧ (a.2 ∈ nodes ↔ b.2 ∈ nodes') ∧
      (a.2 ∉ nodes → ∀ host, (visit a.2 host).Alike known pair (visit' b.2 host)))
      branches branches') (host : σ) :
    (surveyChildren visit type nodes branches host).Alike known pair
      (surveyChildren visit' type nodes' branches' host) := by
  induction h generalizing host with
  | nil => exact Report.alike_pure _ _
  | @cons a b _ _ hab _ ih =>
    obtain ⟨key, child⟩ := a
    obtain ⟨key', child'⟩ := b
    obtain ⟨rfl, hiff, hvisit⟩ := hab
    unfold surveyChildren
    refine Report.Alike.thenOk ?_ ih
    by_cases hc : child ∈ nodes
    · rw [if_pos hc, if_pos (hiff.1 hc)]
      exact Report.alike_pure _ _
    · rw [if_neg hc, if_neg (hc ∘ hiff.2)]
      exact hvisit hc host

theorem perform_alike {inside inside' : σ → Report σ α}
    (h : ∀ host, (inside host).Alike known pair (inside' host)) (seen : ν) (depth : Nat)
    (duty : Duty ν σ) (host : σ) :
    (perform inside seen depth duty host).Alike known pair
      (perform inside' seen depth duty host) := by
  induction duty generalizing host with
  | done outcome => exact Report.alike_pure _ _
  | look next ih => exact ih _ _ _ _
  | note f next ih => exact ih _
  | expand next ih => exact (h host).bind fun outcome host => ih outcome host

variable (crew : Crew ν σ α) {heap heap' : Heap}
  {place : List NodeId → NodeId → List NodeId → NodeId → Prop}

theorem surveyInside_alike {visit visit' : List NodeId → NodeId → σ → Report σ α}
    {outer outer' : List NodeId} {n n' : NodeId}
    (h : crew.Corresponds heap heap' pair place outer n outer' n')
    (hvisit : ∀ nodes child nodes' child', place nodes child nodes' child' → ∀ host,
      (visit nodes child host).Alike known pair (visit' nodes' child' host)) (host : σ) :
    (crew.surveyInside heap visit outer n host).Alike known pair
      (crew.surveyInside heap' visit' outer' n' host) := by
  have hannounced : crew.announced heap n host = crew.announced heap' n' host := by
    unfold announced
    rw [h.notice]
  have hbranches := h.branches
  unfold surveyInside
  rw [hannounced, h.type]
  refine Report.Alike.mark (.expansion h.pair) ?_
  cases hb : crew.options.branches heap n with
  | error e =>
    cases hb' : crew.options.branches heap' n' with
    | error e' =>
      rw [hb, hb'] at hbranches
      cases hbranches
      exact Report.alike_pure _ _
    | ok branches' => rw [hb, hb'] at hbranches; cases hbranches
  | ok branches =>
    cases hb' : crew.options.branches heap' n' with
    | error e' => rw [hb, hb'] at hbranches; cases hbranches
    | ok branches' =>
      rw [hb, hb'] at hbranches
      refine surveyChildren_alike _ (List.Forall₂.imp ?_ hbranches) _
      rintro a b ⟨hkey, hiff, hplace⟩
      exact ⟨hkey, hiff, fun hc => hvisit _ _ _ _ (hplace hc)⟩

/-- The node of a survey is the first one that is seen. -/
theorem known_of_survey {limit : Nat} {mode : Mode} {outer : List NodeId} {n : NodeId} {host : σ}
    (h : ∀ sight ∈ (crew.survey heap (limit + 1) mode outer n host).sights, known sight.node) :
    known n := by
  cases mode with
  | children => exact h (.expansion n) List.mem_cons_self
  | visit =>
    unfold survey at h
    cases hh : crew.handlers.get? (heap.effectiveType n) with
    | none => rw [hh] at h; exact h (.expansion n) List.mem_cons_self
    | some handler => rw [hh] at h; exact h (.call handler n outer.length) List.mem_cons_self

/-- Surveys that start at places whose known nodes correspond, and so on with the places of their
children, report alike. -/
theorem survey_alike (hplace : ∀ outer n outer' n', place outer n outer' n' → known n →
      crew.Corresponds heap heap' pair place outer n outer' n') :
    ∀ (limit : Nat) (mode : Mode) (outer : List NodeId) (n : NodeId) (outer' : List NodeId)
      (n' : NodeId), place outer n outer' n' → ∀ host,
      (crew.survey heap limit mode outer n host).Alike known pair
        (crew.survey heap' limit mode outer' n' host)
  | 0, _, _, _, _, _, _, _ => fun _ => ⟨rfl, .nil⟩
  | limit + 1, mode, outer, n, outer', n', hp, host => by
    intro hknown
    have h := hplace _ _ _ _ hp (crew.known_of_survey hknown)
    have hinside := crew.surveyInside_alike h (survey_alike hplace limit .visit)
    revert hknown
    cases mode with
    | children => exact hinside host
    | visit =>
      unfold survey
      rw [← h.type]
      cases crew.handlers.get? (heap.effectiveType n) with
      | none => exact hinside host
      | some handler =>
        rw [← h.depth, ← h.view]
        exact Report.Alike.mark (.call h.pair)
          (perform_alike (survey_alike hplace limit .children _ _ _ _ hp) _ _ _ _)

end Crew

end SyntaxWalk
