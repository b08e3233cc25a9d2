/-
Values that are read from a text have no object with two members of one name: a member that comes
again is put in the place of the first one. A text is read token by token, so it is enough that
each token keeps this of all that is open.
-/
import SyntaxWalk.Jsonc.Reader
import SyntaxWalk.Proofs.Unfolding

namespace SyntaxWalk

/-! ## Objects -/

theorem Record.mem_put {α : Type} {name : String} {item : α} {e : String × α} :
    ∀ {entries : List (String × α)}, e ∈ put name item entries → e = (name, item) ∨ e ∈ entries
  | [], h => by simpa [put] using h
  | first :: rest, h => by
    unfold put at h
    split at h
    · rcases List.mem_cons.1 h with h | h
      · exact .inl h
      · exact .inr (List.mem_cons_of_mem _ h)
    · rcases List.mem_cons.1 h with rfl | h
      · exact .inr List.mem_cons_self
      · exact (mem_put h).imp id (List.mem_cons_of_mem _)

/-- What is in a record has been put into it. -/
theorem Record.mem_foldl_insert {α : Type} {e : String × α} :
    ∀ {entries : List (String × α)} {r : Record α},
      e ∈ (entries.foldl (fun r e => r.insert e.1 e.2) r).entries → e ∈ entries ∨ e ∈ r.entries
  | [], _, h => .inr h
  | first :: rest, r, h => by
    rcases (mem_foldl_insert h : e ∈ rest ∨ e ∈ (r.insert first.1 first.2).entries) with h | h
    · exact .inl (List.mem_cons_of_mem _ h)
    · rcases mem_put h with rfl | h
      · exact .inl List.mem_cons_self
      · exact .inr h

namespace Json

theorem distinctAll_iff : ∀ {items : List Json}, DistinctAll items ↔ ∀ item ∈ items, item.Distinct
  | [] => by simp [DistinctAll]
  | item :: rest => by
    unfold DistinctAll
    rw [distinctAll_iff, List.forall_mem_cons]

theorem distinctMembers_iff :
    ∀ {members : List (String × Json)}, DistinctMembers members ↔ ∀ m ∈ members, m.2.Distinct
  | [] => by simp [DistinctMembers]
  | (_, json) :: rest => by
    unfold DistinctMembers
    rw [distinctMembers_iff, List.forall_mem_cons]

theorem distinct_array {items : List Json} (h : ∀ item ∈ items, item.Distinct) :
    (Json.array items).Distinct := by
  unfold Distinct
  exact distinctAll_iff.2 h

/-- An object has no name twice, whatever members it is made of. -/
theorem distinct_ofMembers {members : List (String × Json)} (h : ∀ m ∈ members, m.2.Distinct) :
    (ofMembers members).Distinct := by
  unfold ofMembers Distinct
  refine ⟨(Record.ofList members).distinct, distinctMembers_iff.2 fun m hm => ?_⟩
  rcases Record.mem_foldl_insert hm with hm | hm
  · exact h m hm
  · cases hm

end Json

namespace Jsonc

open Json (Token Frame)

/-! ## Tokens -/

/-- A token that stands for a value without repeated members. -/
def Plain : Token → Prop
  | .number value _ => value.Distinct
  | .constant value => value.Distinct
  | _ => True

theorem distinct_hexadecimal (negative : Bool) (digits : List Char) (source : String) :
    (hexadecimal negative digits source).Distinct := by
  unfold hexadecimal
  split
  · split <;> simp [Json.Distinct]
  · simp [Json.Distinct]

theorem plain_decimal {negative : Bool} {source : String} {text rest : List Char} {t : Token}
    (h : number?.decimal negative source text = some (t, rest)) : Plain t := by
  simp only [number?.decimal, Option.bind_eq_bind, Option.bind_eq_some_iff, Prod.exists] at h
  obtain ⟨literal, r, -, h⟩ := h
  cases h
  show Json.Distinct _
  split <;> simp [Json.Distinct]

/-- A number has no members, in whatever way it is written. -/
theorem plain_number? {negative : Bool} {source : String} {text rest : List Char} {t : Token}
    (h : number? negative source text = some (t, rest)) : Plain t := by
  unfold number? at h
  split at h
  · split at h
    · dsimp only at h
      split at h
      · cases h
      · cases h
        exact distinct_hexadecimal _ _ _
    · exact plain_decimal h
  · exact plain_decimal h

theorem distinct_constant? {text rest : List Char} {value : Json}
    (h : constant? text = some (value, rest)) : value.Distinct := by
  unfold constant? at h
  split at h
  all_goals simp only [Option.ite_none_left_eq_some, Option.some.injEq, Prod.mk.injEq,
    reduceCtorEq] at h
  all_goals
    obtain ⟨-, rfl, -⟩ := h
    simp [Json.Distinct]

/-- One token at a time, by the character with which it begins. -/
theorem plain_next? {c : Char} {text rest : List Char} {t : Token}
    (h : next? c text = some (t, rest)) : Plain t := by
  unfold next? at h
  split at h
  · cases h
    exact trivial
  split at h
  · simp only [string?, Option.bind_eq_bind, Option.bind_eq_some_iff, Prod.exists] at h
    obtain ⟨_, _, -, _, -, h⟩ := h
    cases h
    exact trivial
  split at h
  · exact plain_number? h
  split at h
  · exact plain_number? h
  split at h
  · exact plain_number? h
  split at h
  · rename_i hconstant
    cases h
    exact distinct_constant? hconstant
  · unfold word? at h
    dsimp only at h
    split at h
    · cases h
      exact trivial
    · cases h

/-- All tokens of a text are plain. -/
theorem plain_all? {before tokens : List Token} {text : List Char}
    (hbefore : ∀ t ∈ before, Plain t) (h : all? before text = some tokens) :
    ∀ t ∈ tokens, Plain t := by
  fun_induction all? before text with
  | case1 =>
    cases h
    simpa using hbefore
  | case2 before rest ih => exact ih hbefore h
  | case3 => cases h
  | case4 before rest after hcomment ih => exact ih hbefore h
  | case5 before c rest _ _ hblank ih => exact ih hbefore h
  | case6 => cases h
  | case7 before c rest _ _ hblank t after hnext ih =>
    refine ih (List.forall_mem_cons.2 ⟨plain_next? hnext, hbefore⟩) h

/-! ## Drafts -/

/-- What is open holds no repeated members so far. -/
def SoundFrame : Frame → Prop
  | .array items => ∀ item ∈ items, item.Distinct
  | .object members _ => ∀ m ∈ members, m.2.Distinct

/-- Nothing that was read so far has repeated members. -/
structure Draft.Sound (d : Draft) : Prop where
  frames : ∀ frame ∈ d.frames, SoundFrame frame
  value : ∀ value, d.expected = .nothing value → value.Distinct

namespace Draft

/-- A value that is complete goes into the innermost frame, or it is the whole value. -/
theorem sound_complete {value : Json} (hvalue : value.Distinct) :
    ∀ {frames : List Frame}, (∀ frame ∈ frames, SoundFrame frame) → (complete value frames).Sound
  | [], h => ⟨h, fun _ heq => by cases heq; exact hvalue⟩
  | .array items :: rest, h => by
    obtain ⟨hitems, hrest⟩ := List.forall_mem_cons.1 h
    exact ⟨List.forall_mem_cons.2 ⟨List.forall_mem_cons.2 ⟨hvalue, hitems⟩, hrest⟩,
      fun _ heq => by cases heq⟩
  | .object members name :: rest, h => by
    obtain ⟨hmembers, hrest⟩ := List.forall_mem_cons.1 h
    exact ⟨List.forall_mem_cons.2 ⟨List.forall_mem_cons.2 ⟨hvalue, hmembers⟩, hrest⟩,
      fun _ heq => by cases heq⟩

/-- A token where a value is expected completes one or opens a frame. -/
theorem sound_value? {frames : List Frame} {t : Token} {d : Draft}
    (hframes : ∀ frame ∈ frames, SoundFrame frame) (ht : Plain t) (h : value? frames t = some d) :
    d.Sound := by
  unfold value? at h
  split at h
  · cases h
    exact sound_complete (by simp [Json.Distinct]) hframes
  · cases h
    exact sound_complete ht hframes
  · cases h
    exact sound_complete ht hframes
  · cases h
  · cases h
    exact ⟨List.forall_mem_cons.2 ⟨by simp [SoundFrame], hframes⟩, fun _ heq => by cases heq⟩
  · cases h
    exact ⟨List.forall_mem_cons.2 ⟨by simp [SoundFrame], hframes⟩, fun _ heq => by cases heq⟩
  · cases h

/-- So does a token where an entry of the innermost frame is expected, or it closes the frame. -/
theorem sound_entry? {comma : Bool} {frames : List Frame} {t : Token} {d : Draft}
    (hframes : ∀ frame ∈ frames, SoundFrame frame) (ht : Plain t)
    (h : entry? comma frames t = some d) : d.Sound := by
  unfold entry? at h
  split at h
  · split at h
    · cases h
      exact ⟨hframes, fun _ heq => by cases heq⟩
    · cases h
  · cases h
    obtain ⟨hitems, hrest⟩ := List.forall_mem_cons.1 hframes
    exact sound_complete (Json.distinct_array fun item hitem =>
      hitems item (List.mem_reverse.1 hitem)) hrest
  · exact sound_value? hframes ht h
  · cases h
    obtain ⟨hmembers, hrest⟩ := List.forall_mem_cons.1 hframes
    exact sound_complete (Json.distinct_ofMembers fun m hm =>
      hmembers m (List.mem_reverse.1 hm)) hrest
  · obtain ⟨hmembers, hrest⟩ := List.forall_mem_cons.1 hframes
    simp only [Option.bind_eq_bind, Option.bind_eq_some_iff] at h
    obtain ⟨name, -, h⟩ := h
    cases h
    exact ⟨List.forall_mem_cons.2 ⟨hmembers, hrest⟩, fun _ heq => by cases heq⟩
  · cases h

theorem sound_step? {d later : Draft} {t : Token} (hd : d.Sound) (ht : Plain t)
    (h : d.step? t = some later) : later.Sound := by
  unfold step? at h
  split at h
  · exact sound_value? hd.frames ht h
  · exact sound_entry? hd.frames ht h
  · split at h
    · cases h
      exact ⟨hd.frames, fun _ heq => by cases heq⟩
    · cases h
  · cases h

/-- Token by token, what is read stays sound. -/
theorem sound_foldlM : ∀ {tokens : List Token} {d later : Draft}, d.Sound →
    (∀ t ∈ tokens, Plain t) → tokens.foldlM step? d = some later → later.Sound
  | [], d, later, hd, _, h => by
    cases h
    exact hd
  | t :: rest, d, later, hd, ht, h => by
    obtain ⟨hfirst, hrest⟩ := List.forall_mem_cons.1 ht
    rw [List.foldlM_cons, Option.bind_eq_bind, Option.bind_eq_some_iff] at h
    obtain ⟨middle, hmiddle, h⟩ := h
    exact sound_foldlM (sound_step? hd hfirst hmiddle) hrest h

end Draft

/-- The names in each object of a value that is read are different. -/
theorem distinct_read? {text : String} {json : Json} (h : read? text = some (some json)) :
    json.Distinct := by
  simp only [read?, Option.bind_eq_bind, Option.bind_eq_some_iff] at h
  obtain ⟨tokens, htokens, h⟩ := h
  unfold ofTokens? at h
  split at h
  · cases h
  · simp only [Option.bind_eq_bind, Option.bind_eq_some_iff] at h
    obtain ⟨d, hd, h⟩ := h
    have hsound : d.Sound := Draft.sound_foldlM (d := ⟨[], .value⟩)
      ⟨by simp, fun _ heq => by cases heq⟩ (plain_all? (by simp) htokens) hd
    split at h
    · rename_i value heq
      cases h
      exact hsound.value _ heq
    · cases h

end Jsonc

end SyntaxWalk
