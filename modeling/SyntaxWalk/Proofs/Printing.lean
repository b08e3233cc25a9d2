/-
Printed JSON is read back. The indented text of a value is divided into the tokens of the value, and
these are put together to the value again, if its numbers are integers that 64 bits hold, the
members of each object have different names, and no more lists and objects are open at a time than
may be.
-/
import Mathlib.Data.List.Forall2
import SyntaxWalk.Json.Reader
import SyntaxWalk.Proofs.Lexing

namespace SyntaxWalk.Json

open NumberLiteral (Ends)

/-- Values that are read back from their text, if `depth` lists and objects may be open at
a time. -/
inductive Readable : Nat → Json → Prop where
  | null {depth : Nat} : Readable depth .null
  | bool {depth : Nat} (value : Bool) : Readable depth (.bool value)
  | int {depth : Nat} {n : Int} (hfits : NumberLiteral.fits n = true) :
    Readable depth (.number (.int n))
  | string {depth : Nat} (text : String) : Readable depth (.string text)
  | array {depth : Nat} {items : List Json} (hitems : ∀ item ∈ items, Readable depth item) :
    Readable (depth + 1) (.array items)
  | object {depth : Nat} {members : List (String × Json)} (hnames : (members.map (·.1)).Nodup)
    (hmembers : ∀ m ∈ members, Readable depth m.2) : Readable (depth + 1) (.object members)

/-! ## The tokens of a value -/

mutual

/-- The tokens of a value. -/
def tokens : Json → List Token
  | .null => [.constant .null]
  | .bool b => [.constant (.bool b)]
  | .number n => [.number (.number n) ""]
  | .string s => [.string s]
  | .array items => .mark '[' :: [.mark ','].intercalate (itemTokens items) ++ [.mark ']']
  | .object members =>
    .mark '\x7b' :: [.mark ','].intercalate (memberTokens members) ++ [.mark '\x7d']

/-- The tokens of items. -/
def itemTokens : List Json → List (List Token)
  | [] => []
  | item :: rest => tokens item :: itemTokens rest

/-- The tokens of members. -/
def memberTokens : List (String × Json) → List (List Token)
  | [] => []
  | (name, value) :: rest => (.string name :: .mark ':' :: tokens value) :: memberTokens rest

end

/-! ## From text to tokens -/

/-- A text is divided into tokens, if nothing after it belongs to a number at its end. -/
def Lexes (text : String) (ts : List Token) : Prop :=
  ∀ (before : List Token) {rest : List Char}, Ends rest →
    Token.all? before (text.toList ++ rest) = Token.all? (ts.reverse ++ before) rest

/-- Indentation is no token. -/
theorem all?_indent (depth : Nat) (before : List Token) (rest : List Char) :
    Token.all? before ((indent depth).toList ++ rest) = Token.all? before rest := by
  have hspaces : ∀ n : Nat,
      Token.all? before (List.replicate n ' ' ++ rest) = Token.all? before rest := by
    intro n
    induction n with
    | zero => rfl
    | succ n ih => rw [List.replicate_succ, List.cons_append, Token.all?_blank rfl, ih]
  unfold indent Text.fill
  rw [String.toList_ofList, hspaces]

theorem ends_cons {c : Char} (h : c.isDigit = false ∧ c ≠ '.' ∧ c ≠ 'e' ∧ c ≠ 'E')
    (rest : List Char) : Ends (c :: rest) := by
  rintro d ⟨⟩
  exact h

theorem all?_comma (before : List Token) (rest : List Char) :
    Token.all? before (",\n".toList ++ rest) = Token.all? (.mark ',' :: before) rest := by
  show Token.all? before (',' :: '\n' :: rest) = _
  rw [Token.all?_mark rfl, Token.all?_blank rfl]

/-- Lines with commas between them are divided line by line. -/
theorem all?_lines (depth : Nat) (rest : List Char) : ∀ {lines : List String}
    {tss : List (List Token)}, List.Forall₂ Lexes lines tss → lines ≠ [] →
    ∀ before : List Token,
      Token.all? before ((",\n".intercalate (lines.map (indent depth ++ ·))).toList ++ '\n' :: rest) =
        Token.all? (([Token.mark ','].intercalate tss).reverse ++ before) rest
  | [line], [ts], .cons hline .nil, _, before => by
    have hends : Ends ('\n' :: rest) := ends_cons (by decide) rest
    rw [String.toList_intercalate, List.map_singleton, List.map_singleton,
      List.intercalate_singleton, List.intercalate_singleton, String.toList_append,
      List.append_assoc, all?_indent, hline before hends, Token.all?_blank rfl]
  | line :: next :: lines, ts :: us :: tss, .cons hline hlines, _, before => by
    have ih := all?_lines depth rest hlines (List.cons_ne_nil _ _)
      (.mark ',' :: (ts.reverse ++ before))
    have hends : ∀ more, Ends (",\n".toList ++ more) := fun more => ends_cons (by decide) _
    rw [String.toList_intercalate, List.map_cons, List.map_cons] at ih
    rw [String.toList_intercalate, List.map_cons, List.map_cons, List.map_cons, List.map_cons,
      List.intercalate_cons_cons, List.intercalate_cons_cons, String.toList_append]
    simp only [List.append_assoc]
    rw [all?_indent, hline before (hends _), all?_comma, ih]
    simp

/-- Lines between brackets are divided into the brackets and what stands between them. -/
theorem lexes_block {opening closing : String} {first last : Char}
    (hopening : opening.toList = [first]) (hclosing : closing.toList = [last])
    (hfirst : Token.isMark first = true) (hlast : Token.isMark last = true) (depth : Nat)
    {lines : List String} {tss : List (List Token)} (h : List.Forall₂ Lexes lines tss) :
    Lexes (block opening closing depth lines)
      (.mark first :: [Token.mark ','].intercalate tss ++ [.mark last]) := by
  intro before rest hrest
  unfold block
  cases h with
  | nil =>
    rw [if_pos List.isEmpty_nil, String.toList_append, hopening, hclosing]
    show Token.all? before (first :: last :: rest) = _
    rw [Token.all?_mark hfirst, Token.all?_mark hlast]
    rfl
  | @cons line ts lines tss hline hlines =>
    rw [if_neg (by simp)]
    simp only [String.toList_append, hopening, hclosing, List.append_assoc, List.singleton_append]
    show Token.all? before (first :: '\n' :: _) = _
    rw [Token.all?_mark hfirst, Token.all?_blank rfl]
    show Token.all? _ (_ ++ '\n' :: ((indent depth).toList ++ last :: rest)) = _
    rw [all?_lines (depth + 1) _ (.cons hline hlines) (List.cons_ne_nil _ _), all?_indent,
      Token.all?_mark hlast]
    simp

theorem lexes_of_next? {text : String} {t : Token}
    (h : ∀ {rest}, Ends rest → Token.next? (text.toList ++ rest) = some (t, rest)) :
    Lexes text [t] := by
  intro before rest hrest
  have hnext := h hrest
  cases htext : text.toList ++ rest with
  | nil =>
    rw [htext] at hnext
    cases hnext
  | cons c more =>
    rw [htext] at hnext
    exact Token.all?_next hnext before

/-- A member is its name, a colon, and its value. -/
theorem lexes_member (name : String) {text : String} {ts : List Token} (h : Lexes text ts) :
    Lexes (quoted name ++ ": " ++ text) (.string name :: .mark ':' :: ts) := by
  intro before rest hrest
  rw [String.toList_append, String.toList_append, List.append_assoc, List.append_assoc,
    Token.all?_quoted]
  show Token.all? _ (':' :: ' ' :: (text.toList ++ rest)) = _
  rw [Token.all?_mark rfl, Token.all?_blank rfl, h _ hrest]
  simp

theorem forall₂_lexes_items (depth : Nat) : ∀ {items : List Json},
    (∀ item ∈ items, Lexes (indentedAt depth item) (tokens item)) →
      List.Forall₂ Lexes (indentedItems depth items) (itemTokens items)
  | [], _ => by
    rw [indentedItems, itemTokens]
    exact .nil
  | item :: rest, h => by
    obtain ⟨hitem, hrest⟩ := List.forall_mem_cons.1 h
    rw [indentedItems, itemTokens]
    exact .cons hitem (forall₂_lexes_items depth hrest)

theorem forall₂_lexes_members (depth : Nat) : ∀ {members : List (String × Json)},
    (∀ m ∈ members, Lexes (indentedAt depth m.2) (tokens m.2)) →
      List.Forall₂ Lexes (indentedMembers depth members) (memberTokens members)
  | [], _ => by
    rw [indentedMembers, memberTokens]
    exact .nil
  | (name, value) :: rest, h => by
    obtain ⟨hvalue, hrest⟩ := List.forall_mem_cons.1 h
    rw [indentedMembers, memberTokens]
    exact .cons (lexes_member name hvalue) (forall₂_lexes_members depth hrest)

/-- The indented text of a value is divided into its tokens. -/
theorem lexes_indentedAt {d : Nat} {json : Json} (h : Readable d json) :
    ∀ depth, Lexes (indentedAt depth json) (tokens json) := by
  induction h with
  | null =>
    intro depth
    simp only [indentedAt, compact, tokens]
    exact lexes_of_next? fun _ => rfl
  | bool value =>
    intro depth
    simp only [indentedAt, compact, tokens]
    cases value with
    | false => exact lexes_of_next? fun _ => rfl
    | true => exact lexes_of_next? fun _ => rfl
  | int hfits =>
    intro depth
    simp only [indentedAt, compact, tokens]
    exact lexes_of_next? (Token.next?_int hfits)
  | string text =>
    intro depth
    simp only [indentedAt, compact, tokens]
    exact lexes_of_next? fun _ => Token.next?_quoted text _
  | array hitems ih =>
    intro depth
    rw [indentedAt, tokens]
    exact lexes_block rfl rfl rfl rfl depth
      (forall₂_lexes_items _ fun item hitem => ih item hitem _)
  | object hnames hmembers ih =>
    intro depth
    rw [indentedAt, tokens]
    exact lexes_block rfl rfl rfl rfl depth
      (forall₂_lexes_members _ fun m hm => ih m hm _)

/-! ## From tokens to values -/

section

variable (limit depth : Nat)

/-- The tokens of a value are put together to the value where a value is expected, if `depth` more
lists and objects may be opened. -/
def Builds (json : Json) : Prop :=
  ∀ frames : List Frame, frames.length + depth ≤ limit →
    (tokens json).foldlM (Draft.step? limit) ⟨frames, .value⟩ = some (Draft.complete json frames)

/-- The first item of a list is put together like any other value: it begins with no bracket that
closes. -/
theorem foldlM_firstItem (json : Json) (more : List Token) (frames : List Frame) :
    (tokens json ++ more).foldlM (Draft.step? limit) ⟨frames, .firstItem⟩ =
      (tokens json ++ more).foldlM (Draft.step? limit) ⟨frames, .value⟩ := by
  cases json <;> rw [tokens] <;> rfl

variable {limit depth}

/-- Items are built one after the other, with a comma between each two. -/
theorem foldlM_items {frames : List Frame} (hframes : frames.length + (depth + 1) ≤ limit) :
    ∀ (rest : List Json) (item : Json) (before : List Json),
      (∀ i ∈ item :: rest, Builds limit depth i) →
      ([Token.mark ','].intercalate (itemTokens (item :: rest))).foldlM (Draft.step? limit)
          ⟨.array before :: frames, .value⟩ =
        some ⟨.array ((item :: rest).reverse ++ before) :: frames, .separator⟩ := by
  intro rest
  induction rest with
  | nil =>
    intro item before h
    have hitem := h item List.mem_cons_self (.array before :: frames) (by simp; omega)
    rw [itemTokens, itemTokens, List.intercalate_singleton, hitem]
    rfl
  | cons next rest ih =>
    intro item before h
    obtain ⟨hitem, hrest⟩ := List.forall_mem_cons.1 h
    have hfirst := hitem (.array before :: frames) (by simp; omega)
    have htail := ih next (item :: before) hrest
    rw [itemTokens] at htail ⊢
    rw [itemTokens, List.intercalate_cons_cons, List.append_assoc, List.foldlM_append, hfirst]
    show ([Token.mark ','].intercalate _).foldlM (Draft.step? limit)
      ⟨.array (item :: before) :: frames, .value⟩ = _
    rw [htail]
    simp

/-- Members are built one after the other, with a comma between each two. -/
theorem foldlM_members {frames : List Frame} (hframes : frames.length + (depth + 1) ≤ limit) :
    ∀ (rest : List (String × Json)) (m : String × Json) (before : List (String × Json)),
      (∀ n ∈ m :: rest, Builds limit depth n.2) →
      ([Token.mark ','].intercalate (memberTokens (m :: rest))).foldlM (Draft.step? limit)
          ⟨.object before "" :: frames, .name⟩ =
        some ⟨.object ((m :: rest).reverse ++ before) "" :: frames, .separator⟩ := by
  intro rest
  induction rest with
  | nil =>
    rintro ⟨name, value⟩ before h
    have hvalue := h _ List.mem_cons_self (.object before name :: frames) (by simp; omega)
    rw [memberTokens, memberTokens, List.intercalate_singleton]
    exact hvalue
  | cons next rest ih =>
    rintro ⟨name, value⟩ before h
    obtain ⟨hm, hrest⟩ := List.forall_mem_cons.1 h
    have hfirst := hm (.object before name :: frames) (by simp; omega)
    have htail := ih next ((name, value) :: before) hrest
    obtain ⟨name', value'⟩ := next
    rw [memberTokens] at htail ⊢
    rw [memberTokens, List.intercalate_cons_cons, List.append_assoc]
    show (tokens value ++ _).foldlM (Draft.step? limit) ⟨.object before name :: frames, .value⟩ = _
    rw [List.foldlM_append, hfirst]
    show ([Token.mark ','].intercalate _).foldlM (Draft.step? limit)
      ⟨.object ((name, value) :: before) "" :: frames, .name⟩ = _
    rw [htail]
    simp

/-- A list is built from what its items are built from. -/
theorem builds_array {items : List Json} (h : ∀ item ∈ items, Builds limit depth item) :
    Builds limit (depth + 1) (.array items) := by
  intro frames hframes
  have hroom : frames.length < limit := by omega
  have hopen : Draft.step? limit ⟨frames, .value⟩ (.mark '[') =
      some ⟨.array [] :: frames, .firstItem⟩ := if_pos hroom
  rw [tokens, List.cons_append, List.foldlM_cons, hopen]
  cases items with
  | nil => rfl
  | cons item rest =>
    have hitems := foldlM_items hframes rest item [] h
    obtain ⟨more, hmore⟩ : ∃ more,
        [Token.mark ','].intercalate (itemTokens (item :: rest)) = tokens item ++ more := by
      rw [itemTokens]
      cases itemTokens rest with
      | nil => exact ⟨[], by simp⟩
      | cons ts tss => exact ⟨_, List.intercalate_cons_cons.trans (List.append_assoc _ _ _)⟩
    show ([Token.mark ','].intercalate (itemTokens (item :: rest)) ++ [Token.mark ']']).foldlM
      (Draft.step? limit) ⟨.array [] :: frames, .firstItem⟩ = _
    rw [hmore, List.append_assoc, foldlM_firstItem, ← List.append_assoc, ← hmore,
      List.foldlM_append, hitems, List.append_nil]
    show some (Draft.complete (.array (item :: rest).reverse.reverse) frames) = _
    rw [List.reverse_reverse]

/-- An object is built from what its members are built from; none of them takes the place of another
one, since the names are different. -/
theorem builds_object {members : List (String × Json)} (hnames : (members.map (·.1)).Nodup)
    (h : ∀ m ∈ members, Builds limit depth m.2) :
    Builds limit (depth + 1) (.object members) := by
  intro frames hframes
  have hroom : frames.length < limit := by omega
  have hopen : Draft.step? limit ⟨frames, .value⟩ (.mark '\x7b') =
      some ⟨.object [] "" :: frames, .firstName⟩ := if_pos hroom
  rw [tokens, List.cons_append, List.foldlM_cons, hopen]
  cases members with
  | nil => rfl
  | cons m rest =>
    have hmembers := foldlM_members hframes rest m [] h
    -- The first name is taken as any other one is.
    have hfirst : ([Token.mark ','].intercalate (memberTokens (m :: rest)) ++
        [Token.mark '\x7d']).foldlM (Draft.step? limit) ⟨.object [] "" :: frames, .firstName⟩ =
      ([Token.mark ','].intercalate (memberTokens (m :: rest)) ++ [Token.mark '\x7d']).foldlM
        (Draft.step? limit) ⟨.object [] "" :: frames, .name⟩ := by
      obtain ⟨name, value⟩ := m
      rw [memberTokens]
      cases memberTokens rest with
      | nil => rfl
      | cons ts tss =>
        rw [List.intercalate_cons_cons]
        rfl
    refine hfirst.trans ?_
    rw [List.foldlM_append, hmembers, List.append_nil]
    show some (Draft.complete (ofMembers (m :: rest).reverse.reverse) frames) = _
    rw [List.reverse_reverse]
    unfold ofMembers
    rw [Record.entries_ofList hnames]

theorem Readable.builds {json : Json} (h : Readable depth json) : Builds limit depth json := by
  induction h with
  | null => exact fun frames _ => by rw [tokens]; rfl
  | bool value => exact fun frames _ => by rw [tokens]; rfl
  | int hfits => exact fun frames _ => by rw [tokens]; rfl
  | string text => exact fun frames _ => by rw [tokens]; rfl
  | array hitems ih => exact builds_array ih
  | object hnames hmembers ih => exact builds_object hnames ih

end

/-! ## Reading what was printed -/

/-- A value that is printed is read back. -/
theorem readWithin?_indented {depth : Nat} {json : Json} (h : Readable depth json) :
    readWithin? depth json.indented = some json := by
  have hends : Ends [] := fun c hc => by cases hc
  have htokens : Token.all? [] json.indented.toList = some (tokens json) := by
    have hlexes := lexes_indentedAt h 0 [] hends
    rw [List.append_nil, List.append_nil] at hlexes
    unfold indented
    rw [hlexes, Token.all?, List.reverse_reverse]
  have hbuilds := h.builds [] (Nat.le_of_eq (Nat.zero_add depth))
  unfold readWithin? ofTokens?
  rw [htokens]
  show ((tokens json).foldlM (Draft.step? depth) ⟨[], .value⟩).bind _ = _
  rw [hbuilds]
  rfl

/-- A document is read back from its indented text. -/
theorem read?_indented {json : Json} (h : Readable documentDepth json) :
    read? json.indented = some json :=
  readWithin?_indented h

end SyntaxWalk.Json
