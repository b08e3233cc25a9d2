/-
The order of texts. Texts are compared character by character, and characters by their numbers.
UTF-8 is made so that this is the order of the bytes as well: a character with a greater number
begins with a greater byte, or with the same bytes up to a greater one.
-/
import Mathlib.Data.String.Basic

namespace SyntaxWalk

/-- The bytes of a text in UTF-8. -/
def utf8Bytes (text : String) : List UInt8 := text.toUTF8.data.toList

theorem utf8Bytes_eq (text : String) :
    utf8Bytes text = text.toList.flatMap String.utf8EncodeChar := by
  have h : text.toByteArray = text.toList.utf8Encode := by
    conv => lhs; rw [← String.ofList_toList (s := text), String.toByteArray_ofList]
  unfold utf8Bytes
  rw [String.toUTF8_eq_toByteArray, h]
  exact List.toList_data_toByteArray

/-! ## Characters -/

theorem ofNat_cons_lt {a b : Nat} (hb : b < 256) {s t : List UInt8} (h : a < b ∨ a = b ∧ s < t) :
    UInt8.ofNat a :: s < UInt8.ofNat b :: t := by
  rw [List.cons_lt_cons_iff]
  rcases h with h | ⟨rfl, h⟩
  · refine .inl ?_
    rw [UInt8.lt_iff_toNat_lt, UInt8.toNat_ofNat', UInt8.toNat_ofNat']
    omega
  · exact .inr ⟨rfl, h⟩

/-- The last bytes of a character: as many digits of its number to the base 64. -/
def continuation : Nat → Nat → List UInt8
  | 0, _ => []
  | n + 1, v => UInt8.ofNat (v / 64 ^ n % 64 + 128) :: continuation n v

/-- Numbers that agree but for their last digits are compared by these. -/
theorem continuation_append_lt {s t : List UInt8} : ∀ (n : Nat) {v w : Nat}, v < w →
    v / 64 ^ n = w / 64 ^ n → continuation n v ++ s < continuation n w ++ t
  | 0, v, w, hlt, heq => by
    rw [Nat.pow_zero, Nat.div_one, Nat.div_one] at heq
    omega
  | n + 1, v, w, hlt, heq => by
    have hle : v / 64 ^ n ≤ w / 64 ^ n := Nat.div_le_div_right (Nat.le_of_lt hlt)
    rw [Nat.pow_succ, ← Nat.div_div_eq_div_mul, ← Nat.div_div_eq_div_mul] at heq
    refine ofNat_cons_lt (by omega) ?_
    rcases Nat.lt_or_eq_of_le hle with h | h
    · exact .inl (by omega)
    · exact .inr ⟨by rw [h], continuation_append_lt n hlt h⟩

/-- The first byte of a character tells how many follow; they are digits of its number. -/
theorem utf8EncodeChar_eq (c : Char) :
    String.utf8EncodeChar c =
      if c.val.toNat ≤ 127 then UInt8.ofNat c.val.toNat :: continuation 0 c.val.toNat
      else if c.val.toNat ≤ 2047 then
        UInt8.ofNat (c.val.toNat / 64 % 32 + 192) :: continuation 1 c.val.toNat
      else if c.val.toNat ≤ 65535 then
        UInt8.ofNat (c.val.toNat / 4096 % 16 + 224) :: continuation 2 c.val.toNat
      else UInt8.ofNat (c.val.toNat / 262144 % 8 + 240) :: continuation 3 c.val.toNat := by
  simp [String.utf8EncodeChar, continuation]

/-- The bytes of a lesser character are less at the first place where they differ, so it makes no
difference what comes after them. -/
theorem utf8EncodeChar_append_lt {c d : Char} (h : c < d) (s t : List UInt8) :
    String.utf8EncodeChar c ++ s < String.utf8EncodeChar d ++ t := by
  have hlt : c.val.toNat < d.val.toNat := h
  have hd : d.val.toNat < 0x110000 := by
    rcases d.valid with hd | hd <;> omega
  rw [utf8EncodeChar_eq, utf8EncodeChar_eq]
  generalize c.val.toNat = v at *
  generalize d.val.toNat = w at *
  -- More bytes have a greater first one; among as many, equal first ones leave it to the rest.
  have hrest : ∀ n, v / 64 ^ n < w / 64 ^ n ∨ v / 64 ^ n = w / 64 ^ n ∧
      continuation n v ++ s < continuation n w ++ t := by
    intro n
    rcases Nat.lt_or_eq_of_le (Nat.div_le_div_right (c := 64 ^ n) (Nat.le_of_lt hlt)) with h | h
    · exact .inl h
    · exact .inr ⟨h, continuation_append_lt n hlt h⟩
  split_ifs
  · exact ofNat_cons_lt (by omega) (.inl hlt)
  · exact ofNat_cons_lt (by omega) (.inl (by omega))
  · exact ofNat_cons_lt (by omega) (.inl (by omega))
  · exact ofNat_cons_lt (by omega) (.inl (by omega))
  · omega
  · exact ofNat_cons_lt (by omega) ((hrest 1).imp (by omega) (.imp (by omega) id))
  · exact ofNat_cons_lt (by omega) (.inl (by omega))
  · exact ofNat_cons_lt (by omega) (.inl (by omega))
  · omega
  · omega
  · exact ofNat_cons_lt (by omega) ((hrest 2).imp (by omega) (.imp (by omega) id))
  · exact ofNat_cons_lt (by omega) (.inl (by omega))
  · omega
  · omega
  · omega
  · exact ofNat_cons_lt (by omega) ((hrest 3).imp (by omega) (.imp (by omega) id))

/-! ## Texts -/

theorem flatMap_utf8EncodeChar_lt : ∀ {s t : List Char}, s < t →
    s.flatMap String.utf8EncodeChar < t.flatMap String.utf8EncodeChar
  | _, [], h => (List.not_lt_nil _ h).elim
  | [], d :: t, _ => by
    obtain ⟨byte, bytes, hbytes⟩ := List.exists_cons_of_ne_nil (@String.utf8EncodeChar_ne_nil d)
    rw [List.flatMap_cons, hbytes]
    exact List.nil_lt_cons _ _
  | c :: s, d :: t, h => by
    rw [List.flatMap_cons, List.flatMap_cons]
    rcases List.cons_lt_cons_iff.1 h with hcd | ⟨rfl, hst⟩
    · exact utf8EncodeChar_append_lt hcd _ _
    · exact List.append_left_lt (flatMap_utf8EncodeChar_lt hst)

/-- The order of texts is the order of their bytes. -/
theorem lt_iff_utf8Bytes_lt {s t : String} : s < t ↔ utf8Bytes s < utf8Bytes t := by
  have hlt : ∀ {s t : String}, s < t → utf8Bytes s < utf8Bytes t := by
    intro s t h
    rw [utf8Bytes_eq, utf8Bytes_eq]
    exact flatMap_utf8EncodeChar_lt (String.lt_iff_toList_lt.1 h)
  refine ⟨hlt, fun h => ?_⟩
  rcases lt_trichotomy s t with hst | rfl | hts
  · exact hst
  · exact (List.lt_irrefl _ h).elim
  · exact (Std.Asymm.asymm _ _ h (hlt hts)).elim

end SyntaxWalk
