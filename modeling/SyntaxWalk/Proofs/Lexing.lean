/-
How written scalars are taken apart again. A text in quotes is read as the text, whatever
characters it holds, and an integer that 64 bits hold is read as the integer, if what comes after
it cannot be part of a number.
-/
import SyntaxWalk.Json.Token
import SyntaxWalk.Json.Writer

namespace SyntaxWalk

/-! ## Characters in quotes -/

namespace Quoted

/-- How a character is written inside quotes, and the piece as which it is read: as itself, after a
backslash, or as the number of a code unit. -/
inductive Spelling (c : Char) : List Char → Piece → Prop where
  | plain (hquote : c ≠ '"') (hslash : c ≠ '\\') (hspace : ¬c < ' ') : Spelling c [c] (.char c)
  | short {e : Char} (he : escaped? '"' e = some c) (hcode : e ≠ 'u') (hspace : ¬e < ' ') :
    Spelling c ['\\', e] (.char c)
  | coded {high low : Nat} (hhigh : high < 16) (hlow : low < 16) (hc : c.toNat = 16 * high + low) :
    Spelling c ['\\', 'u', '0', '0', high.digitChar, low.digitChar] (.unit c.toNat)

theorem toList_hexDigits_four {n : Nat} (h : n < 256) :
    (Text.hexDigits 4 n).toList = ['0', '0', (n / 16).digitChar, (n % 16).digitChar] := by
  have hpad : ∀ digits : List Char, (Text.padLeft '0' 4 (String.ofList digits)).toList =
      List.replicate (4 - digits.length) '0' ++ digits := by
    intro digits
    simp [Text.padLeft, Text.fill]
  unfold Text.hexDigits
  rw [hpad, Nat.toDigits_eq_if (by omega)]
  split
  · rename_i hsmall
    rw [Nat.div_eq_of_lt hsmall, Nat.mod_eq_of_lt hsmall]
    rfl
  · rw [Nat.toDigits_of_lt_base (by omega)]
    rfl

/-- The writer spells every character in one of the ways that the reader knows. -/
theorem spelling_quotedChar (c : Char) : ∃ piece, Spelling c (Json.quotedChar c).toList piece := by
  unfold Json.quotedChar
  split
  · exact ⟨_, .short (e := '"') rfl (by decide) (by decide)⟩
  · exact ⟨_, .short (e := '\\') rfl (by decide) (by decide)⟩
  · exact ⟨_, .short (e := 'b') rfl (by decide) (by decide)⟩
  · exact ⟨_, .short (e := 't') rfl (by decide) (by decide)⟩
  · exact ⟨_, .short (e := 'n') rfl (by decide) (by decide)⟩
  · exact ⟨_, .short (e := 'f') rfl (by decide) (by decide)⟩
  · exact ⟨_, .short (e := 'r') rfl (by decide) (by decide)⟩
  · rename_i hquote hslash _ _ _ _ _
    split
    · rename_i hspace
      have hlt : c.toNat < 32 := hspace
      rw [String.toList_append, toList_hexDigits_four (by omega)]
      exact ⟨_, .coded (by omega) (by omega) (by omega)⟩
    · rename_i hspace
      rw [Char.toString_eq_singleton, String.toList_singleton]
      exact ⟨_, .plain hquote hslash hspace⟩

theorem hexValue?_digitChar : ∀ {d : Nat}, d < 16 → hexValue? d.digitChar = some d := by
  decide

theorem digitChar_printable : ∀ {d : Nat}, d < 16 →
    d.digitChar ≠ '"' ∧ d.digitChar ≠ '\\' ∧ ¬d.digitChar < ' ' := by
  decide

section

variable {c : Char} {raw : List Char} {piece : Piece}

/-- A character that is neither a quote nor a backslash ends nothing. -/
theorem split_cons_plain {d : Char} (hquote : d ≠ '"') (hslash : d ≠ '\\') (before rest : List Char) :
    split '"' before (d :: rest) = split '"' (d :: before) rest := by
  rw [split.eq_def]
  split
  · rename_i heq
    cases heq
  · rename_i heq
    exact (hslash (List.cons.inj heq).1).elim
  · rename_i heq
    cases heq
    rw [if_neg hquote]

/-- No quote inside a spelling ends the quoted text. -/
theorem Spelling.split_append (h : Spelling c raw piece) (before rest : List Char) :
    split '"' before (raw ++ rest) = split '"' (raw.reverse ++ before) rest := by
  cases h with
  | plain hquote hslash hspace => exact split_cons_plain hquote hslash before rest
  | short he hcode hspace => rfl
  | @coded high low hhigh hlow hc =>
    obtain ⟨hquote, hslash, -⟩ := digitChar_printable hhigh
    obtain ⟨hquote', hslash', -⟩ := digitChar_printable hlow
    show split '"' ('u' :: '\\' :: before) ('0' :: '0' :: high.digitChar :: low.digitChar :: rest) = _
    rw [split_cons_plain (by decide) (by decide), split_cons_plain (by decide) (by decide),
      split_cons_plain hquote hslash, split_cons_plain hquote' hslash']
    rfl

/-- No control character is left in a spelling. -/
theorem Spelling.printable (h : Spelling c raw piece) : ∀ d ∈ raw, ¬d < ' ' := by
  cases h with
  | plain hquote hslash hspace => simpa using hspace
  | short he hcode hspace =>
    simp only [List.forall_mem_cons, List.not_mem_nil, false_implies, implies_true, and_true]
    exact ⟨by decide, hspace⟩
  | coded hhigh hlow hc =>
    have hhigh := (digitChar_printable hhigh).2.2
    have hlow := (digitChar_printable hlow).2.2
    simp only [List.forall_mem_cons, List.not_mem_nil, false_implies, implies_true, and_true]
    exact ⟨by decide, by decide, by decide, by decide, hhigh, hlow⟩

/-- The reader takes a spelling for one piece, whatever comes after it. -/
theorem Spelling.pieces?_append (h : Spelling c raw piece) (before : List Piece)
    (rest : List Char) :
    pieces? '"' before (raw ++ rest) = pieces? '"' (piece :: before) rest := by
  cases h with
  | plain hquote hslash hspace =>
    show pieces? '"' before (c :: rest) = _
    rw [pieces?.eq_def]
    split <;> simp_all
  | @short e he hcode hspace =>
    show pieces? '"' before ('\\' :: e :: rest) = _
    -- Of all the ways in which a piece can begin, only a short escape has this form.
    rw [pieces?.eq_def]
    split
    · rename_i heq
      cases heq
    · rename_i heq
      cases heq
      exact (hcode rfl).elim
    · rename_i heq
      cases heq
      rw [he]
      rfl
    · rename_i heq
      cases heq
    · rename_i hslash _ heq
      cases heq
      exact (hslash _ _ rfl rfl).elim
  | @coded high low hhigh hlow hc =>
    show (hexNumber? 0 ['0', '0', high.digitChar, low.digitChar]).bind
      (fun code => pieces? '"' (.unit code :: before) rest) = _
    have hnumber : hexNumber? 0 ['0', '0', high.digitChar, low.digitChar] = some c.toNat := by
      simp [hexNumber?, hexValue?_digitChar hhigh, hexValue?_digitChar hlow, hc,
        show hexValue? '0' = some 0 from rfl]
    rw [hnumber]
    rfl

/-- A piece is joined as the character that it spells. -/
theorem Spelling.join?_cons (h : Spelling c raw piece) (before : List Char) (rest : List Piece) :
    join? before (piece :: rest) = join? (c :: before) rest := by
  cases h with
  | plain => rfl
  | short => rfl
  | @coded high low hhigh hlow hc =>
    have hunit : (isHighSurrogate c.toNat || isLowSurrogate c.toNat) = false := by
      simp [isHighSurrogate, isLowSurrogate]
      omega
    obtain ⟨hhigh', hlow'⟩ := Bool.or_eq_false_iff.1 hunit
    have hchar : Char.ofNat c.toNat = c := Char.ofNat_toNat c
    rw [join?.eq_def]
    split <;> simp_all

end

/-! ## Texts in quotes -/

/-- The content of a text in quotes, as it is written. -/
def spelled (text : List Char) : List Char := text.flatMap fun c => (Json.quotedChar c).toList

theorem spelled_cons (c : Char) (text : List Char) :
    spelled (c :: text) = (Json.quotedChar c).toList ++ spelled text :=
  List.flatMap_cons

theorem toList_quoted (text : String) :
    (Json.quoted text).toList = '"' :: spelled text.toList ++ ['"'] := by
  have hfold : ∀ (cs : List Char) (out : String),
      (cs.foldl (fun out c => out ++ Json.quotedChar c) out).toList = out.toList ++ spelled cs := by
    intro cs
    induction cs with
    | nil => simp [spelled]
    | cons c cs ih =>
      intro out
      rw [List.foldl_cons, ih, String.toList_append, spelled_cons, List.append_assoc]
  unfold Json.quoted
  rw [String.toList_append, String.foldl_eq_foldl_toList, hfold]
  rfl

/-- The quote that ends a text is the first one that is not escaped. -/
theorem split_spelled (rest : List Char) : ∀ (text before : List Char),
    split '"' before (spelled text ++ '"' :: rest) = some (before.reverse ++ spelled text, rest)
  | [], before => by simp [spelled, split]
  | c :: text, before => by
    obtain ⟨piece, hspelling⟩ := spelling_quotedChar c
    rw [spelled_cons, List.append_assoc, hspelling.split_append, split_spelled rest text]
    simp

theorem printable_spelled (text : List Char) : (spelled text).any (· < ' ') = false := by
  rw [List.any_eq_false]
  intro d hd
  obtain ⟨c, -, hd⟩ := List.mem_flatMap.1 hd
  obtain ⟨piece, hspelling⟩ := spelling_quotedChar c
  simpa using hspelling.printable d hd

/-- A spelled text is cut into pieces that join to the text. -/
theorem exists_pieces (text : List Char) : ∃ pieces : List Piece,
    (∀ before, pieces? '"' before (spelled text) = some (before.reverse ++ pieces)) ∧
      ∀ before, join? before pieces = some (before.reverse ++ text) := by
  induction text with
  | nil => exact ⟨[], fun before => by simp [spelled, pieces?], fun before => by simp [join?]⟩
  | cons c text ih =>
    obtain ⟨pieces, hpieces, hjoin⟩ := ih
    obtain ⟨piece, hspelling⟩ := spelling_quotedChar c
    refine ⟨piece :: pieces, fun before => ?_, fun before => ?_⟩
    · rw [spelled_cons, hspelling.pieces?_append, hpieces]
      simp
    · rw [hspelling.join?_cons, hjoin]
      simp

theorem decode?_spelled (text : String) : decode? '"' (spelled text.toList) = some text := by
  obtain ⟨pieces, hpieces, hjoin⟩ := exists_pieces text.toList
  simp [decode?, hpieces, hjoin]

end Quoted

/-! ## Digits -/

namespace NumberLiteral

/-- What follows cannot be part of a number. -/
def Ends (rest : List Char) : Prop :=
  ∀ c ∈ rest.head?, c.isDigit = false ∧ c ≠ '.' ∧ c ≠ 'e' ∧ c ≠ 'E'

theorem decimal_toDigits (n : Nat) : decimal (Nat.toDigits 10 n) = n := by
  have h := Nat.ofDigitChars_ten_toDigits (n := n)
  rwa [Nat.ofDigitChars_eq_foldl] at h

/-- A positive number is written without a zero in front. -/
theorem exists_toDigits (n : Nat) (h : 0 < n) :
    ∃ c more, Nat.toDigits 10 n = c :: more ∧ c ≠ '0' := by
  induction n using Nat.strongRecOn with
  | _ n ih =>
    rw [Nat.toDigits_eq_if (by omega)]
    split
    · rename_i hsmall
      have hdigit : ∀ d < 10, 0 < d → Nat.digitChar d ≠ '0' := by decide
      exact ⟨_, [], rfl, hdigit n hsmall h⟩
    · obtain ⟨c, more, hdigits, hc⟩ := ih (n / 10) (by omega) (by omega)
      rw [hdigits]
      exact ⟨c, _, rfl, hc⟩

section

variable {rest : List Char} (hrest : Ends rest)

include hrest

/-- Digits are read up to where they end. -/
theorem digits_append {ds : List Char} (hds : ∀ d ∈ ds, d.isDigit = true) :
    digits (ds ++ rest) = (ds, rest) := by
  have hnone : rest.takeWhile Char.isDigit = [] ∧ rest.dropWhile Char.isDigit = rest := by
    cases rest with
    | nil => exact ⟨rfl, rfl⟩
    | cons c rest =>
      have hc := (hrest c rfl).1
      exact ⟨List.takeWhile_cons_of_neg (by simp [hc]), List.dropWhile_cons_of_neg (by simp [hc])⟩
  unfold digits
  rw [List.takeWhile_append_of_pos hds, List.dropWhile_append_of_pos hds, hnone.1, hnone.2,
    List.append_nil]

/-- The digits of a number are read back as a whole part: none but that of zero begins with
a zero. -/
theorem whole?_toDigits (n : Nat) :
    whole? (Nat.toDigits 10 n ++ rest) = some (Nat.toDigits 10 n, rest) := by
  rcases Nat.eq_zero_or_pos n with rfl | hn
  · rfl
  · obtain ⟨c, more, hdigits, hc⟩ := exists_toDigits n hn
    have hall : ∀ d ∈ Nat.toDigits 10 n, d.isDigit = true :=
      fun d hd => Nat.isDigit_of_mem_toDigits (by omega) (by omega) hd
    rw [hdigits, List.forall_mem_cons] at hall
    rw [hdigits, List.cons_append, whole?.eq_def]
    split
    · rename_i heq
      exact (hc (List.cons.inj heq).1).elim
    · rename_i heq
      cases heq
      rw [if_pos hall.1, digits_append hrest hall.2]
    · rename_i heq
      cases heq

theorem fraction?_of_ends : fraction? rest = some (none, rest) := by
  unfold fraction?
  split
  · rename_i rest'
    exact ((hrest '.' rfl).2.1 rfl).elim
  · rfl

theorem exponent?_of_ends : exponent? rest = some (none, rest) := by
  unfold exponent?
  split
  · rename_i c rest'
    obtain ⟨-, -, he, he'⟩ := hrest c rfl
    rw [if_neg (not_or.2 ⟨he, he'⟩)]
  · rfl

theorem unsigned?_toDigits (negative : Bool) (n : Nat) :
    unsigned? negative (Nat.toDigits 10 n ++ rest) =
      some (⟨negative, Nat.toDigits 10 n, none, none⟩, rest) := by
  simp [unsigned?, whole?_toDigits hrest, fraction?_of_ends hrest, exponent?_of_ends hrest]

end

/-- A literal without fraction and exponent has the value of its digits, if that is
within bounds. -/
theorem value?_toDigits {negative : Bool} {n : Nat} {value : Int}
    (hvalue : value = if negative then -(n : Int) else n) (hzero : negative = true → n ≠ 0)
    (hfits : fits value = true) :
    value? ⟨negative, Nat.toDigits 10 n, none, none⟩ = some (.int value) := by
  unfold value?
  simp only [decimal_toDigits, ← hvalue]
  refine if_pos ⟨rfl, rfl, hfits, ?_⟩
  rintro ⟨hnegative, hvalue'⟩
  have hn := hzero hnegative
  rw [if_pos hnegative] at hvalue
  omega

end NumberLiteral

/-! ## Tokens -/

namespace Json.Token

open NumberLiteral (Ends)

theorem ne_of_test {test : Char → Bool} {c d : Char} (hc : test c = true) (hd : test d = false) :
    c ≠ d := by
  rintro rfl
  rw [hc] at hd
  cases hd

/-- What a token is, if it is none of the words, is told by its first character. -/
theorem next?_cons {c : Char} (ht : c ≠ 't') (hf : c ≠ 'f') (hn : c ≠ 'n') (rest : List Char) :
    next? (c :: rest) =
      if isMark c then some (.mark c, rest)
      else if c = '"' then string? rest
      else if c = '-' then number? true rest
      else number? false (c :: rest) := by
  unfold next?
  split <;> simp_all

/-- A quoted text is one token. -/
theorem next?_quoted (text : String) (rest : List Char) :
    next? ((quoted text).toList ++ rest) = some (.string text, rest) := by
  have hstring : string? (Quoted.spelled text.toList ++ '"' :: rest) =
      some (.string text, rest) := by
    unfold string?
    rw [Quoted.split_spelled]
    simp only [Option.bind_eq_bind, Option.bind_some, List.reverse_nil, List.nil_append,
      Quoted.printable_spelled, Quoted.decode?_spelled]
    rfl
  rw [Quoted.toList_quoted, List.append_assoc, List.cons_append,
    next?_cons (by decide) (by decide) (by decide)]
  exact hstring

theorem next?_digit {c : Char} (h : c.isDigit = true) (rest : List Char) :
    next? (c :: rest) = number? false (c :: rest) := by
  have hne : ∀ d : Char, d.isDigit = false → c ≠ d := fun d => ne_of_test h
  have hmark : isMark c = false := by
    simp [isMark, hne '\x7b' rfl, hne '\x7d' rfl, hne '[' rfl, hne ']' rfl, hne ',' rfl, hne ':' rfl]
  rw [next?_cons (hne 't' rfl) (hne 'f' rfl) (hne 'n' rfl), hmark, if_neg Bool.false_ne_true,
    if_neg (hne '"' rfl), if_neg (hne '-' rfl)]

theorem number?_toDigits (negative : Bool) (m : Nat) {n : Int}
    (hn : n = if negative then -(m : Int) else m) (hzero : negative = true → m ≠ 0)
    (hfits : NumberLiteral.fits n = true) {rest : List Char} (hrest : Ends rest) :
    number? negative (Nat.toDigits 10 m ++ rest) =
      some (.number (.number (.int n)) "", rest) := by
  simp [number?, NumberLiteral.unsigned?_toDigits hrest,
    NumberLiteral.value?_toDigits hn hzero hfits]

/-- A printed integer is one token, sign and all. -/
theorem next?_int {n : Int} (hfits : NumberLiteral.fits n = true) {rest : List Char}
    (hrest : Ends rest) :
    next? ((toString n).toList ++ rest) = some (.number (.number (.int n)) "", rest) := by
  rw [Int.toString_eq_repr, Int.repr_eq_if]
  split
  · rename_i hpos
    have hread := number?_toDigits false n.toNat
      (Int.toNat_of_nonneg hpos).symm (fun h => by cases h) hfits hrest
    rw [Nat.repr_eq_ofList_toDigits, String.toList_ofList]
    obtain ⟨c, more, hdigits⟩ := List.exists_cons_of_ne_nil
      (Nat.toDigits_ne_nil (n := n.toNat) (b := 10))
    have hdigit : c.isDigit = true :=
      Nat.isDigit_of_mem_toDigits (by omega) (by omega) (hdigits ▸ List.mem_cons_self)
    rw [hdigits, List.cons_append] at hread ⊢
    rw [next?_digit hdigit, hread]
  · rename_i hneg
    have hread := number?_toDigits true (-n).toNat (n := n)
      (by rw [if_pos rfl]; omega) (fun _ => by omega) hfits hrest
    have htext : ("-" ++ (-n).toNat.repr).toList = '-' :: Nat.toDigits 10 (-n).toNat := by
      simp [String.toList_append, Nat.repr_eq_ofList_toDigits]
    rw [htext, List.cons_append, next?_cons (by decide) (by decide) (by decide)]
    exact hread

/-! ## Texts and tokens -/

theorem all?_blank {c : Char} (h : isBlank c = true) (before : List Token) (rest : List Char) :
    all? before (c :: rest) = all? before rest := by
  rw [all?, if_pos h]

/-- No token begins with a blank. -/
theorem isBlank_of_next? {c : Char} {text after : List Char} {t : Token}
    (h : next? (c :: text) = some (t, after)) : isBlank c = false := by
  cases hblank : isBlank c with
  | false => rfl
  | true =>
    have hblanks : ((c = ' ' ∨ c = '\t') ∨ c = '\n') ∨ c = '\r' := by simpa [isBlank] using hblank
    rcases hblanks with ((rfl | rfl) | rfl) | rfl
    · cases h
    · cases h
    · cases h
    · cases h

/-- Reading tokens goes on after the first one. -/
theorem all?_next {c : Char} {text after : List Char} {t : Token}
    (h : next? (c :: text) = some (t, after)) (before : List Token) :
    all? before (c :: text) = all? (t :: before) after := by
  rw [all?, if_neg (by simp [isBlank_of_next? h])]
  split
  · rename_i hnone
    rw [hnone] at h
    cases h
  · rename_i hsome
    rw [hsome] at h
    cases h
    rfl

theorem all?_mark {c : Char} (h : isMark c = true) (before : List Token) (rest : List Char) :
    all? before (c :: rest) = all? (.mark c :: before) rest := by
  have hne : ∀ d : Char, isMark d = false → c ≠ d := fun d => ne_of_test h
  refine all?_next ?_ before
  rw [next?_cons (hne 't' rfl) (hne 'f' rfl) (hne 'n' rfl), if_pos h]

theorem all?_quoted (text : String) (before : List Token) (rest : List Char) :
    all? before ((quoted text).toList ++ rest) = all? (.string text :: before) rest := by
  have h := next?_quoted text rest
  rw [Quoted.toList_quoted, List.append_assoc, List.cons_append] at h ⊢
  exact all?_next h before

end Json.Token

end SyntaxWalk
