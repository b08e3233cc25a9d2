/-
Texts in quotes can be told apart. A character stands in quotes for itself or as an escape, and no
spelling is the beginning of another one; a quote inside a text is escaped, so the first one that
is not ends the text. So quoted texts in a row, separated or not, are the spelling of one row only.
-/
import Mathlib.Data.List.Forall2
import SyntaxWalk.Text.Display

namespace SyntaxWalk.Text

/-! ## Characters -/

/-- The characters that are escaped by one sign, each with its sign. -/
def signs : List (Char × Char) :=
  [('"', '"'), ('\\', '\\'), ('\n', 'n'), ('\t', 't'), ('\r', 'r'), ('\x00', '0')]

/-- How a character is spelled in quotes: for itself, by a sign, or by the hexadecimal digits of its
code point. -/
inductive Spells (c : Char) : List Char → Prop
  | plain (hprint : isPrintable c = true) (hquote : c ≠ '"') (hslash : c ≠ '\\') : Spells c [c]
  | short {sign : Char} (hsign : (c, sign) ∈ signs) : Spells c ['\\', sign]
  | code (hprint : isPrintable c = false) (hsign : ∀ sign, (c, sign) ∉ signs) :
    Spells c ('\\' :: 'u' :: '\x7b' :: Nat.toDigits 16 c.toNat ++ ['\x7d'])

theorem brace_notMem_toDigits (n : Nat) : '\x7d' ∉ Nat.toDigits 16 n := by
  have hdigit : ∀ d : Nat, d < 16 → '\x7d' ≠ d.digitChar := by decide
  induction n using Nat.strongRecOn with
  | _ n ih =>
    rw [Nat.toDigits_eq_if (by omega)]
    split
    · rename_i hlt
      rw [List.mem_singleton]
      exact hdigit n hlt
    · rw [List.mem_append, List.mem_singleton, not_or]
      exact ⟨ih _ (by omega), hdigit _ (by omega)⟩

/-- The digits of a number tell it. -/
theorem toDigits_inj {m n : Nat} (h : Nat.toDigits 16 m = Nat.toDigits 16 n) : m = n := by
  have hdigit : ∀ d e : Fin 16, d.val.digitChar = e.val.digitChar → d = e := by decide
  have hlast : ∀ {d e : Nat}, d < 16 → e < 16 → d.digitChar = e.digitChar → d = e :=
    fun hd he heq => congrArg Fin.val (hdigit ⟨_, hd⟩ ⟨_, he⟩ heq)
  induction m using Nat.strongRecOn generalizing n with
  | _ m ih =>
    rw [Nat.toDigits_eq_if (by omega), Nat.toDigits_eq_if (n := n) (by omega)] at h
    split at h <;> split at h
    · exact hlast ‹_› ‹_› (List.singleton_inj.1 h)
    · -- One digit is not two.
      have hlen := congrArg List.length h
      have hpos := List.length_pos_of_ne_nil (Nat.toDigits_ne_nil (n := n / 16) (b := 16))
      rw [List.length_append, List.length_singleton, List.length_singleton] at hlen
      omega
    · have hlen := congrArg List.length h
      have hpos := List.length_pos_of_ne_nil (Nat.toDigits_ne_nil (n := m / 16) (b := 16))
      rw [List.length_append, List.length_singleton, List.length_singleton] at hlen
      omega
    · obtain ⟨hmore, hdigits⟩ := List.append_inj' h rfl
      have hdiv : m / 16 = n / 16 := ih (m / 16) (by omega) hmore
      have hmod : m % 16 = n % 16 := hlast (by omega) (by omega) (List.singleton_inj.1 hdigits)
      omega

theorem spells_quoteChar (c : Char) : Spells c (quoteChar c).toList := by
  unfold quoteChar
  split
  · exact .short (by decide)
  · exact .short (by decide)
  · exact .short (by decide)
  · exact .short (by decide)
  · exact .short (by decide)
  · exact .short (by decide)
  · rename_i hquote hslash hline htab hreturn hnul
    split
    · rename_i hprint
      rw [Char.toString_eq_singleton, String.toList_singleton]
      exact .plain hprint hquote hslash
    · rename_i hprint
      have hcode : (codePoint c).toList =
          '\\' :: 'u' :: '\x7b' :: Nat.toDigits 16 c.toNat ++ ['\x7d'] := by
        have hlen := List.length_pos_of_ne_nil (Nat.toDigits_ne_nil (n := c.toNat) (b := 16))
        simp [codePoint, hexDigits, padLeft, fill, Nat.sub_eq_zero_of_le hlen]
      rw [hcode]
      refine .code (Bool.not_eq_true _ ▸ hprint) fun sign hsign => ?_
      simp only [signs, List.mem_cons, List.not_mem_nil, Prod.mk.injEq, or_false] at hsign
      rcases hsign with ⟨h, -⟩ | ⟨h, -⟩ | ⟨h, -⟩ | ⟨h, -⟩ | ⟨h, -⟩ | ⟨h, -⟩
      exacts [hquote h, hslash h, hline h, htab h, hreturn h, hnul h]

/-- Up to the first place of a sign, lists in which it comes later are told apart. -/
theorem append_cons_inj {sign : Char} : ∀ {xs ys s t : List Char}, sign ∉ xs → sign ∉ ys →
    xs ++ sign :: s = ys ++ sign :: t → xs = ys ∧ s = t
  | [], [], s, t, _, _, h => ⟨rfl, (List.cons.inj h).2⟩
  | [], y :: ys, s, t, _, hy, h => (hy ((List.cons.inj h).1 ▸ List.mem_cons_self)).elim
  | x :: xs, [], s, t, hx, _, h => (hx ((List.cons.inj h).1 ▸ List.mem_cons_self)).elim
  | x :: xs, y :: ys, s, t, hx, hy, h => by
    obtain ⟨rfl, hrest⟩ := List.cons.inj h
    obtain ⟨rfl, hst⟩ := append_cons_inj (fun hm => hx (List.mem_cons_of_mem _ hm))
      (fun hm => hy (List.mem_cons_of_mem _ hm)) hrest
    exact ⟨rfl, hst⟩

/-- No spelling is the beginning of another one, so what comes after it can be told from it. -/
theorem Spells.append_inj {c d : Char} {a b s t : List Char} (ha : Spells c a) (hb : Spells d b)
    (h : a ++ s = b ++ t) : c = d ∧ s = t := by
  -- Signs differ, and none of them is the one after which digits come.
  have hsigns : ∀ p ∈ signs, p.2 ≠ 'u' ∧ ∀ q ∈ signs, p.2 = q.2 → p = q := by decide
  cases ha with
  | plain _ _ hc =>
    cases hb with
    | plain _ _ _ => exact List.cons.inj h
    | short _ => exact (hc (List.cons.inj h).1).elim
    | code _ _ => exact (hc (List.cons.inj h).1).elim
  | short hc =>
    cases hb with
    | plain _ _ hd => exact (hd (List.cons.inj h).1.symm).elim
    | short hd =>
      obtain ⟨hsign, hrest⟩ := List.cons.inj (List.cons.inj h).2
      exact ⟨congrArg Prod.fst ((hsigns _ hc).2 _ hd hsign), hrest⟩
    | code _ _ => exact ((hsigns _ hc).1 (List.cons.inj (List.cons.inj h).2).1).elim
  | code _ _ =>
    cases hb with
    | plain _ _ hd => exact (hd (List.cons.inj h).1.symm).elim
    | short hd => exact ((hsigns _ hd).1 (List.cons.inj (List.cons.inj h).2).1.symm).elim
    | code _ _ =>
      have hdigits : Nat.toDigits 16 c.toNat ++ '\x7d' :: s =
          Nat.toDigits 16 d.toNat ++ '\x7d' :: t := by simpa using h
      obtain ⟨hcode, hrest⟩ := append_cons_inj (brace_notMem_toDigits _) (brace_notMem_toDigits _)
        hdigits
      exact ⟨Char.toNat_inj.1 (toDigits_inj hcode), hrest⟩

/-- No spelling begins with a quote. -/
theorem Spells.head {c : Char} {a : List Char} (h : Spells c a) :
    ∃ first rest, a = first :: rest ∧ first ≠ '"' := by
  cases h with
  | plain _ hquote _ => exact ⟨c, [], rfl, hquote⟩
  | short _ => exact ⟨'\\', _, rfl, by decide⟩
  | code _ _ => exact ⟨'\\', _, rfl, by decide⟩

/-! ## Texts -/

/-- The spellings of characters, one after the other. -/
inductive SpellsAll : List Char → List Char → Prop
  | nil : SpellsAll [] []
  | cons {c : Char} {cs a b : List Char} (hc : Spells c a) (hcs : SpellsAll cs b) :
    SpellsAll (c :: cs) (a ++ b)

/-- What a text is in quotes. -/
def Quotes (text quoted : String) : Prop :=
  ∃ body, SpellsAll text.toList body ∧ quoted.toList = '"' :: body ++ ['"']

theorem spellsAll_flatMap : ∀ cs : List Char,
    SpellsAll cs (cs.flatMap fun c => (quoteChar c).toList)
  | [] => .nil
  | c :: cs => .cons (spells_quoteChar c) (spellsAll_flatMap cs)

theorem toList_foldl_quoteChar : ∀ (cs : List Char) (out : String),
    (cs.foldl (fun out c => out ++ quoteChar c) out).toList =
      out.toList ++ cs.flatMap fun c => (quoteChar c).toList
  | [], out => by simp
  | c :: cs, out => by
    rw [List.foldl_cons, toList_foldl_quoteChar cs, String.toList_append, List.flatMap_cons,
      List.append_assoc]

theorem quotes_quote (text : String) : Quotes text (quote text) := by
  refine ⟨_, spellsAll_flatMap text.toList, ?_⟩
  unfold quote
  rw [String.toList_append, String.foldl_eq_foldl_toList, toList_foldl_quoteChar]
  rfl

/-- The quote that ends a text is the first one that is not escaped. -/
theorem SpellsAll.append_inj {cs ds a b s t : List Char} (ha : SpellsAll cs a)
    (hb : SpellsAll ds b) (h : a ++ '"' :: s = b ++ '"' :: t) : cs = ds ∧ s = t := by
  induction ha generalizing ds b with
  | nil =>
    cases hb with
    | nil => exact ⟨rfl, (List.cons.inj h).2⟩
    | cons hd _ =>
      obtain ⟨first, rest, rfl, hfirst⟩ := hd.head
      exact (hfirst (List.cons.inj h).1.symm).elim
  | cons hc hcs ih =>
    cases hb with
    | nil =>
      obtain ⟨first, rest, rfl, hfirst⟩ := hc.head
      exact (hfirst (List.cons.inj h).1).elim
    | cons hd hds =>
      rw [List.append_assoc, List.append_assoc] at h
      obtain ⟨rfl, hrest⟩ := hc.append_inj hd h
      obtain ⟨rfl, hst⟩ := ih hds hrest
      exact ⟨rfl, hst⟩

theorem Quotes.append_inj {x y p q : String} {s t : List Char} (hx : Quotes x p) (hy : Quotes y q)
    (h : p.toList ++ s = q.toList ++ t) : x = y ∧ s = t := by
  obtain ⟨a, ha, hp⟩ := hx
  obtain ⟨b, hb, hq⟩ := hy
  rw [hp, hq, List.cons_append, List.cons_append, List.append_assoc, List.append_assoc] at h
  obtain ⟨hxy, hst⟩ := ha.append_inj hb (List.cons.inj h).2
  exact ⟨String.toList_inj.1 hxy, hst⟩

/-! ## Rows of texts -/

/-- What comes after the first of several texts that commas separate. -/
def others (quoted : List String) : List Char := quoted.flatMap fun q => ',' :: ' ' :: q.toList

theorem toList_intercalate_cons (q : String) : ∀ quoted : List String,
    (", ".intercalate (q :: quoted)).toList = q.toList ++ others quoted
  | [] => by simp [others]
  | r :: quoted => by
    have ih := toList_intercalate_cons r quoted
    rw [String.toList_intercalate, List.map_cons] at ih
    rw [String.toList_intercalate, List.map_cons, List.map_cons, List.intercalate_cons_cons, ih]
    simp [others]

theorem others_inj : ∀ {xs ys ps qs : List String}, List.Forall₂ Quotes xs ps →
    List.Forall₂ Quotes ys qs → others ps = others qs → xs = ys
  | [], [], _, _, _, _, _ => rfl
  | [], _ :: _, _, _, .nil, .cons _ _, h => by simp [others] at h
  | _ :: _, [], _, _, .cons _ _, .nil, h => by simp [others] at h
  | x :: xs, y :: ys, _, _, .cons hx hxs, .cons hy hys, h => by
    obtain ⟨rfl, hrest⟩ := hx.append_inj hy (List.cons.inj (List.cons.inj h).2).2
    rw [others_inj hxs hys hrest]

/-- Quoted texts with commas between them are the spelling of one row of texts only. -/
theorem intercalate_inj {xs ys ps qs : List String} (hx : List.Forall₂ Quotes xs ps)
    (hy : List.Forall₂ Quotes ys qs) (h : ", ".intercalate ps = ", ".intercalate qs) : xs = ys := by
  -- A row that is not empty begins with a quote.
  have hne : ∀ {x p ps}, Quotes x p → ("" : String) ≠ ", ".intercalate (p :: ps) := by
    rintro x p ps ⟨body, -, hp⟩ heq
    have hlist := congrArg String.toList heq
    rw [toList_intercalate_cons, hp] at hlist
    cases hlist
  cases hx with
  | nil =>
    cases hy with
    | nil => rfl
    | cons hy _ => exact (hne hy h).elim
  | cons hx hxs =>
    cases hy with
    | nil => exact (hne hx h.symm).elim
    | cons hy hys =>
      have hlist := congrArg String.toList h
      rw [toList_intercalate_cons, toList_intercalate_cons] at hlist
      obtain ⟨rfl, hrest⟩ := hx.append_inj hy hlist
      rw [others_inj hxs hys hrest]

/-! ## Plain texts -/

/-- Texts of ASCII characters that can be printed and need no escape. -/
def Plain (text : String) : Prop :=
  ∀ c ∈ text.toList, 0x20 ≤ c.toNat ∧ c.toNat < 0x7F ∧ c ≠ '"' ∧ c ≠ '\\'

instance (text : String) : Decidable (Plain text) :=
  List.decidableBAll _ text.toList

theorem isPrintable_of_ascii {c : Char} (hlow : 0x20 ≤ c.toNat) (hhigh : c.toNat < 0x7F) :
    isPrintable c = true := by
  have hruns : ∀ run ∈ concealedRanges, run.2 < 0x20 ∨ 0x7F ≤ run.1 := by decide +kernel
  unfold isPrintable liesIn
  rw [Bool.not_eq_true', List.any_eq_false]
  intro run hrun
  have := hruns run hrun
  simp
  omega

/-- In quotes, a plain text stands for itself. -/
theorem Quotes.eq_of_plain {text quoted : String} (h : Quotes text quoted) (hplain : Plain text) :
    quoted = "\"" ++ text ++ "\"" := by
  have hsigns : ∀ p ∈ signs, p.1 = '"' ∨ p.1 = '\\' ∨ p.1.toNat < 0x20 := by decide
  -- A plain character is none of those that have a sign or a code.
  have hself : ∀ {cs a : List Char}, (∀ c ∈ cs, 0x20 ≤ c.toNat ∧ c.toNat < 0x7F ∧ c ≠ '"' ∧
      c ≠ '\\') → SpellsAll cs a → a = cs := by
    intro cs a hcs ha
    induction ha with
    | nil => rfl
    | cons hc _ ih =>
      obtain ⟨⟨hlow, hhigh, hquote, hslash⟩, hrest⟩ := List.forall_mem_cons.1 hcs
      rw [ih hrest]
      cases hc with
      | plain _ _ _ => rfl
      | short hsign =>
        rcases hsigns _ hsign with h | h | h
        · exact (hquote h).elim
        · exact (hslash h).elim
        · exact (Nat.not_lt.2 hlow h).elim
      | code hprint _ =>
        rw [isPrintable_of_ascii hlow hhigh] at hprint
        cases hprint
  obtain ⟨body, hbody, hquoted⟩ := h
  rw [hself hplain hbody] at hquoted
  refine String.ext ?_
  rw [hquoted]
  simp

end SyntaxWalk.Text
