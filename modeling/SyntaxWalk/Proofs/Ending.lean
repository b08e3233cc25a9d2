/-
Surveys end. A child that is being expanded already is not visited again, so the nodes that are
being expanded are all different, and there are no more of them than the heap has nodes. For each of
them calls nest two deep at most: the visit of the node, and the expansion that its handler asks
for.
-/
import SyntaxWalk.Proofs.Heaps
import SyntaxWalk.Proofs.Survey

namespace SyntaxWalk

/-! ## Reports that end -/

namespace Report

variable {σ α : Type}

/-- The call did not nest too deep. -/
def Ends (x : Report σ α) : Prop := ∃ outcome host, x.result = some (outcome, host)

theorem ends_pure (outcome : Outcome) (host : σ) : (pure outcome host : Report σ α).Ends :=
  ⟨outcome, host, rfl⟩

theorem Ends.mark {x : Report σ α} (h : x.Ends) (sight : Sight α) : (x.mark sight).Ends := h

theorem Ends.bind {x : Report σ α} {f : Outcome → σ → Report σ α} (h : x.Ends)
    (hf : ∀ outcome host, (f outcome host).Ends) : (x.bind f).Ends := by
  obtain ⟨outcome, host, hx⟩ := h
  obtain ⟨outcome', host', hf⟩ := hf outcome host
  exact ⟨outcome', host', by simp [Report.bind, hx, hf]⟩

theorem Ends.thenOk {x : Report σ α} {f : σ → Report σ α} (h : x.Ends)
    (hf : ∀ host, (f host).Ends) : (x.thenOk f).Ends := by
  refine h.bind fun outcome host => ?_
  cases outcome with
  | error e => exact ends_pure _ _
  | ok _ => exact hf host

end Report

/-! ## Surveys that end -/

/-- Only a node of the heap has children. -/
theorem lt_size_of_mem_branches {options : Options} {heap : Heap} {n : NodeId}
    {branches : List (String × NodeId)} {branch : String × NodeId}
    (h : options.branches heap n = .ok branches) (hb : branch ∈ branches) : n < heap.size := by
  refine Nat.lt_of_not_le fun hle => ?_
  have hnone : ∀ type key, heap.visitables n type key = [] := fun type key => by
    unfold Heap.visitables Heap.get?
    rw [Heap.fields_of_size_le hle, Record.get?_empty]
    rfl
  unfold Options.branches at h
  cases hk : options.resolveKeys heap n (heap.effectiveType n) with
  | error e => rw [hk] at h; cases h
  | ok keys =>
    rw [hk] at h
    cases h
    simp [Heap.childrenIn, hnone] at hb

namespace Crew

variable {ν σ α : Type}

theorem surveyChildren_ends {visit : NodeId → σ → Report σ α} (type : String) (nodes : List NodeId) :
    ∀ (branches : List (String × NodeId)) (host : σ),
    (∀ branch ∈ branches, branch.2 ∉ nodes → ∀ host, (visit branch.2 host).Ends) →
    (surveyChildren visit type nodes branches host).Ends
  | [], host, _ => Report.ends_pure _ host
  | (key, child) :: rest, host, h => by
    unfold surveyChildren
    refine Report.Ends.thenOk ?_ fun host => surveyChildren_ends type nodes rest host
      fun branch hb => h branch (List.mem_cons_of_mem _ hb)
    by_cases hc : child ∈ nodes
    · rw [if_pos hc]
      exact Report.ends_pure _ _
    · rw [if_neg hc]
      exact h (key, child) List.mem_cons_self hc host

theorem perform_ends {inside : σ → Report σ α} (h : ∀ host, (inside host).Ends) (seen : ν)
    (depth : Nat) (duty : Duty ν σ) (host : σ) : (perform inside seen depth duty host).Ends := by
  induction duty generalizing host with
  | done outcome => exact Report.ends_pure _ _
  | look next ih => exact ih _ _ _ _
  | note f next ih => exact ih _
  | expand next ih => exact (h host).bind fun outcome host => ih outcome host

variable (crew : Crew ν σ α) {heap : Heap}

theorem surveyInside_ends {visit : List NodeId → NodeId → σ → Report σ α} {outer : List NodeId}
    {n : NodeId} (h : n < heap.size → ∀ child ∉ n :: outer, ∀ host,
      (visit (n :: outer) child host).Ends) (host : σ) :
    (crew.surveyInside heap visit outer n host).Ends := by
  unfold surveyInside
  refine Report.Ends.mark ?_ _
  cases hb : crew.options.branches heap n with
  | error e => exact Report.ends_pure _ _
  | ok branches =>
    exact surveyChildren_ends _ _ branches _ fun branch hmem =>
      h (lt_size_of_mem_branches hb hmem) branch.2

/-- A visit ends if calls may nest deep enough. With each outer node the bound goes down by one. -/
theorem visit_ends : ∀ (bound limit : Nat) (outer : List NodeId) (n : NodeId) (host : σ),
    outer.Nodup → (∀ a ∈ outer, a < heap.size) → n ∉ outer → heap.size < outer.length + bound →
    2 * bound ≤ limit → (crew.survey heap limit .visit outer n host).Ends
  | 0, _, outer, _, _, hnd, hlt, _, hb, _ => by
    have hle := Heap.length_le_size hnd hlt
    omega
  | bound + 1, 0, _, _, _, _, _, _, _, hl => by omega
  | bound + 1, 1, _, _, _, _, _, _, _, hl => by omega
  | bound + 1, limit + 2, outer, n, host, hnd, hlt, hn, hb, hl => by
    -- Both `limit` and `limit + 1` are enough for the children.
    have hinside : ∀ l, limit ≤ l → ∀ host,
        (crew.surveyInside heap (crew.survey heap l .visit) outer n host).Ends := by
      intro l hle host
      refine crew.surveyInside_ends (fun hsize child hchild host => ?_) host
      refine visit_ends bound l (n :: outer) child host (List.nodup_cons.2 ⟨hn, hnd⟩) ?_ hchild
        (by rw [List.length_cons]; omega) (by omega)
      intro a ha
      rcases List.mem_cons.1 ha with rfl | ha
      · exact hsize
      · exact hlt a ha
    unfold survey
    cases crew.handlers.get? (heap.effectiveType n) with
    | none => exact hinside (limit + 1) (Nat.le_succ _) host
    | some handler =>
      exact (perform_ends (hinside limit (Nat.le_refl _)) _ _ _ _).mark _

/-- A survey ends if calls may nest twice as deep as there are nodes, and two more. -/
theorem survey_ends (heap : Heap) {limit : Nat} (hl : 2 * (heap.size + 1) ≤ limit) (mode : Mode)
    (root : NodeId) (host : σ) : (crew.survey heap limit mode [] root host).Ends := by
  cases mode with
  | visit =>
    exact crew.visit_ends (heap.size + 1) limit [] root host .nil (by simp) List.not_mem_nil
      (by simp) hl
  | children =>
    obtain ⟨l, rfl⟩ : ∃ l, limit = l + 1 := ⟨limit - 1, by omega⟩
    refine crew.surveyInside_ends (fun hsize child hchild host => ?_) host
    exact crew.visit_ends heap.size l [root] child host (by simp)
      (by simpa using hsize) hchild (by simp) (by omega)

end Crew

end SyntaxWalk
