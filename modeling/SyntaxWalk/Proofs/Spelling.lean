/-
Which JSON values spell which configurations. A configuration is an object with a fallback and a
table, or a list of the two, and either part may be missing; nothing else is let through, however
deep in the value it stands. Each reader is characterised by the values that it accepts, and the
readers are then put together.
-/
import Mathlib.Data.Set.List
import SyntaxWalk.Config
import SyntaxWalk.Proofs.DistinctMembers

namespace SyntaxWalk

/-! ## Shapes -/

theorem bind_eq_ok_iff {α β : Type} {x : Shaped α} {f : α → Shaped β} {b : β} :
    x >>= f = .ok b ↔ ∃ a, x = .ok a ∧ f a = .ok b := by
  cases x with
  | error e => exact ⟨fun h => (by cases h), fun ⟨_, h, _⟩ => by cases h⟩
  | ok a => exact ⟨fun h => ⟨a, rfl, h⟩, fun ⟨_, h, hf⟩ => by cases h; exact hf⟩

/-- If a reader accepts just what `write` writes, then so it is for lists. -/
theorem mapM_eq_ok_iff {α β : Type} {read : α → Shaped β} {write : β → α}
    (h : ∀ x y, read x = .ok y ↔ x = write y) :
    ∀ {xs : List α} {ys : List β}, xs.mapM read = .ok ys ↔ xs = ys.map write
  | [], ys => by
    rw [List.mapM_nil]
    constructor
    · intro hys
      cases hys
      rfl
    · intro hys
      rw [List.map_eq_nil_iff.1 hys.symm]
      rfl
  | x :: xs, ys => by
    rw [List.mapM_cons, bind_eq_ok_iff]
    simp only [bind_eq_ok_iff]
    constructor
    · rintro ⟨y, hy, rest, hrest, hys⟩
      cases hys
      rw [(h x y).1 hy, (mapM_eq_ok_iff h).1 hrest, List.map_cons]
    · intro hys
      obtain ⟨y, rest, rfl, hy, hrest⟩ := List.map_eq_cons_iff.1 hys.symm
      exact ⟨y, (h x y).2 hy.symm, rest, (mapM_eq_ok_iff h).2 hrest.symm, rfl⟩

namespace Shape

theorem text_eq_ok_iff {json : Json} {s : String} : text json = .ok s ↔ json = .string s := by
  cases json <;> simp [text]

theorem texts_eq_ok_iff {json : Json} {keys : List String} :
    texts json = .ok keys ↔ json = .array (keys.map .string) := by
  cases json <;> simp [texts]
  exact mapM_eq_ok_iff fun _ _ => text_eq_ok_iff

/-- A member of a table: a type with its child fields. -/
def member (entry : String × List String) : String × Json := (entry.1, .array (entry.2.map .string))

/-- A table is read from an object whose members are lists of texts; of members with one name the
last one counts. -/
theorem table_eq_ok_iff {json : Json} {table : KeyTable} :
    Shape.table json = .ok table ↔
      ∃ entries, json = .object (entries.map member) ∧ StringMap.ofList entries = table := by
  cases json with
  | object members =>
    have hread : ∀ (x : String × Json) (y : String × List String),
        (do return (x.1, ← texts x.2) : Shaped _) = .ok y ↔ x = member y := by
      rintro ⟨name, json⟩ ⟨type, keys⟩
      simp only [bind_eq_ok_iff, texts_eq_ok_iff, member, Prod.mk.injEq]
      constructor
      · rintro ⟨keys, rfl, h⟩
        cases h
        exact ⟨rfl, rfl⟩
      · rintro ⟨rfl, rfl⟩
        exact ⟨keys, rfl, rfl⟩
    unfold Shape.table
    rw [bind_eq_ok_iff]
    constructor
    · rintro ⟨entries, hentries, htable⟩
      cases htable
      exact ⟨entries, by rw [(mapM_eq_ok_iff hread).1 hentries], rfl⟩
    · rintro ⟨entries, hjson, rfl⟩
      cases hjson
      exact ⟨entries, (mapM_eq_ok_iff hread).2 rfl, rfl⟩
  | _ => simp [Shape.table]

end Shape

/-! ## Tables -/

namespace KeyTable

/-- An object that maps names to lists of texts. -/
def IsTable (json : Json) : Prop :=
  ∃ members, json = .object members ∧
    ∀ m ∈ members, ∃ keys : List String, m.2 = .array (keys.map .string)

/-- A table is spelled by an object that has just its types, each with its list. -/
def SpelledBy (table : KeyTable) (json : Json) : Prop :=
  ∃ members, json = .object members ∧ ∀ type (keys : List String),
    table.get? type = some keys ↔ (type, .array (keys.map .string)) ∈ members

theorem member_injective : Function.Injective Shape.member := by
  rintro ⟨type, keys⟩ ⟨type', keys'⟩ h
  simp only [Shape.member, Prod.mk.injEq, Json.array.injEq] at h
  have hkeys : keys = keys' :=
    List.map_injective_iff.2 (fun _ _ heq => Json.string.inj heq) h.2
  rw [h.1, hkeys]

theorem mem_map_member {entries : List (String × List String)} {type : String}
    {keys : List String} :
    (type, .array (keys.map .string)) ∈ entries.map Shape.member ↔ (type, keys) ∈ entries :=
  List.mem_map_of_injective member_injective (a := (type, keys))

theorem names_map_member (entries : List (String × List String)) :
    (entries.map Shape.member).map (·.1) = entries.map (·.1) :=
  List.map_map

/-- An object is a table just if each member lists texts. -/
theorem isTable_iff {json : Json} :
    IsTable json ↔ ∃ entries : List (String × List String),
      json = .object (entries.map Shape.member) := by
  constructor
  · rintro ⟨members, rfl, hlists⟩
    have hrange : members ∈ Set.range (List.map Shape.member) := by
      rw [Set.range_list_map]
      intro m hm
      obtain ⟨keys, hkeys⟩ := hlists m hm
      exact ⟨(m.1, keys), Prod.ext rfl hkeys.symm⟩
    obtain ⟨entries, rfl⟩ := hrange
    exact ⟨entries, rfl⟩
  · rintro ⟨entries, rfl⟩
    refine ⟨_, rfl, fun m hm => ?_⟩
    obtain ⟨⟨type, keys⟩, -, rfl⟩ := List.mem_map.1 hm
    exact ⟨keys, rfl⟩

theorem exists_table {json : Json} : (∃ table, Shape.table json = .ok table) ↔ IsTable json := by
  rw [isTable_iff]
  constructor
  · rintro ⟨table, h⟩
    obtain ⟨entries, hentries, -⟩ := Shape.table_eq_ok_iff.1 h
    exact ⟨entries, hentries⟩
  · rintro ⟨entries, h⟩
    exact ⟨_, Shape.table_eq_ok_iff.2 ⟨entries, h, rfl⟩⟩

theorem spelledBy_of_table {json : Json} {table : KeyTable} (hd : json.Distinct)
    (h : Shape.table json = .ok table) : table.SpelledBy json := by
  obtain ⟨entries, rfl, rfl⟩ := Shape.table_eq_ok_iff.1 h
  unfold Json.Distinct at hd
  rw [names_map_member] at hd
  refine ⟨_, rfl, fun type keys => ?_⟩
  rw [StringMap.get?_ofList hd.1, mem_map_member]

end KeyTable

/-! ## Fallbacks -/

namespace FallbackKind

/-- The name of a fallback. -/
def Named (kind : FallbackKind) (text : String) : Prop :=
  text = "error" ∧ kind = .error ∨ text = "iteration" ∧ kind = .iteration

/-- A fallback is spelled by its name, or by an object that maps the name to null. -/
def SpelledBy (kind : FallbackKind) (json : Json) : Prop :=
  ∃ text, kind.Named text ∧ (json = .string text ∨ json = .object [(text, .null)])

/-- A fallback is read from its name, and from nothing else. -/
theorem ofText_eq_ok_iff {text : String} {kind : FallbackKind} :
    ofText text = .ok kind ↔ kind.Named text := by
  unfold ofText ofName? Named name
  split_ifs with h₁ h₂ <;> cases kind <;> simp_all

/-- A fallback is read from its name, or from an object whose one member has its name, with nothing
in it. -/
theorem ofJson_eq_ok_iff {json : Json} {kind : FallbackKind} :
    ofJson json = .ok kind ↔ kind.SpelledBy json := by
  unfold SpelledBy
  cases json with
  | string text =>
    show ofText text = .ok kind ↔ _
    rw [ofText_eq_ok_iff]
    constructor
    · exact fun h => ⟨text, h, .inl rfl⟩
    · rintro ⟨_, h, htext | htext⟩
      · cases htext
        exact h
      · cases htext
  | object members =>
    rcases members with _ | ⟨⟨text, item⟩, _ | ⟨second, rest⟩⟩
    · simp [ofJson]
    · show (ofText text >>= _) = _ ↔ _
      rw [bind_eq_ok_iff]
      constructor
      · rintro ⟨kind', hkind, hitem⟩
        cases item <;> cases hitem
        exact ⟨text, ofText_eq_ok_iff.1 hkind, .inr rfl⟩
      · rintro ⟨_, h, htext | htext⟩
        · cases htext
        · cases htext
          exact ⟨kind, ofText_eq_ok_iff.2 h, rfl⟩
    · simp [ofJson]
  | _ => simp [ofJson]

end FallbackKind

/-! ## Configurations -/

namespace Config

/-- What becomes of a part: if a value is found for it, the part is read from that; otherwise it
stays as it is. -/
def Takes {β : Type} (read : Json → Shaped β) (found : Option Json) (before after : β) : Prop :=
  found.elim (after = before) fun json => read json = .ok after

@[simp] theorem takes_none {β : Type} {read : Json → Shaped β} {before after : β} :
    Takes read none before after ↔ after = before := Iff.rfl

@[simp] theorem takes_some {β : Type} {read : Json → Shaped β} {json : Json} {before after : β} :
    Takes read (some json) before after ↔ read json = .ok after := Iff.rfl

/-- The names of the parts. -/
def IsPart (name : String) : Prop := name = "fallback" ∨ name = "childVisitorKeys"

/-- A member of a configuration sets the part whose name it has, and leaves the other one. With any
other name it is not read. -/
theorem readMember_eq_ok_iff {config later : Config} {name : String} {json : Json} :
    config.readMember (name, json) = .ok later ↔
      (name = "fallback" ∧ FallbackKind.ofJson json = .ok later.fallback ∧
        later.childVisitorKeys = config.childVisitorKeys) ∨
      (name = "childVisitorKeys" ∧ Shape.table json = .ok later.childVisitorKeys ∧
        later.fallback = config.fallback) := by
  unfold readMember
  -- One case for each part, and one for all other names, which are errors.
  split
  · rename_i item heq
    cases heq
    rw [bind_eq_ok_iff]
    constructor
    · rintro ⟨kind, hkind, h⟩
      cases h
      exact .inl ⟨rfl, hkind, rfl⟩
    · rintro (⟨-, hkind, hkeys⟩ | ⟨h, -⟩)
      · exact ⟨later.fallback, hkind, by rw [← hkeys]; rfl⟩
      · simp at h
  · rename_i item heq
    cases heq
    rw [bind_eq_ok_iff]
    constructor
    · rintro ⟨table, htable, h⟩
      cases h
      exact .inr ⟨rfl, htable, rfl⟩
    · rintro (⟨h, -⟩ | ⟨-, htable, hfallback⟩)
      · simp at h
      · exact ⟨later.childVisitorKeys, htable, by rw [← hfallback]; rfl⟩
  · rename_i name' json' hfallback hkeys heq
    cases heq
    constructor
    · intro h
      cases h
    · rintro (⟨rfl, -⟩ | ⟨rfl, -⟩)
      · exact (hfallback rfl).elim
      · exact (hkeys rfl).elim

/-- Members with different names are read as if each part looked for its own. -/
theorem foldlM_readMember_eq_ok_iff : ∀ {members : List (String × Json)} {config later : Config},
    (members.map (·.1)).Nodup →
    (members.foldlM readMember config = .ok later ↔
      (∀ m ∈ members, IsPart m.1) ∧
      Takes FallbackKind.ofJson (Record.find "fallback" members) config.fallback later.fallback ∧
      Takes Shape.table (Record.find "childVisitorKeys" members) config.childVisitorKeys
        later.childVisitorKeys)
  | [], config, later, _ => by
    simp only [List.foldlM_nil, Record.find, takes_none]
    constructor
    · intro h
      cases h
      exact ⟨by simp, rfl, rfl⟩
    · rintro ⟨-, hfallback, hkeys⟩
      obtain ⟨fallback, keys⟩ := later
      cases hfallback
      cases hkeys
      rfl
  | (name, json) :: rest, config, later, hnd => by
    obtain ⟨hname, hrest⟩ := List.nodup_cons.1 hnd
    have hnone : Record.find name rest = none := Record.find_of_not_mem hname
    -- Each name comes once, so nothing that follows has a say about the part that is read here.
    rw [List.foldlM_cons, bind_eq_ok_iff]
    simp only [readMember_eq_ok_iff, foldlM_readMember_eq_ok_iff hrest, List.forall_mem_cons]
    constructor
    · rintro ⟨middle, ⟨rfl, hread, hkept⟩ | ⟨rfl, hread, hkept⟩, hparts, hfallback, hkeys⟩
      · rw [hnone, takes_none] at hfallback
        rw [hkept] at hkeys
        exact ⟨⟨.inl rfl, hparts⟩, by simpa [Record.find, hfallback] using hread,
          by simpa [Record.find] using hkeys⟩
      · rw [hnone, takes_none] at hkeys
        rw [hkept] at hfallback
        exact ⟨⟨.inr rfl, hparts⟩, by simpa [Record.find] using hfallback,
          by simpa [Record.find, hkeys] using hread⟩
    · rintro ⟨⟨rfl | rfl, hparts⟩, hfallback, hkeys⟩
      · refine ⟨{ config with fallback := later.fallback }, .inl ⟨rfl, ?_, rfl⟩, hparts, ?_, ?_⟩
        · simpa [Record.find] using hfallback
        · rw [hnone, takes_none]
        · simpa [Record.find] using hkeys
      · refine ⟨{ config with childVisitorKeys := later.childVisitorKeys }, .inr ⟨rfl, ?_, rfl⟩,
          hparts, ?_, ?_⟩
        · simpa [Record.find] using hkeys
        · simpa [Record.find] using hfallback
        · rw [hnone, takes_none]

/-- A configuration in a list has its parts by place: the fallback first and the table second, and
each may be missing from the end. -/
theorem ofItems_eq_ok_iff {items : List Json} {config : Config} :
    ofItems items = .ok config ↔ items.length ≤ 2 ∧
      Takes FallbackKind.ofJson items[0]? .error config.fallback ∧
      Takes Shape.table items[1]? ∅ config.childVisitorKeys := by
  obtain ⟨fallback, keys⟩ := config
  -- No items, the fallback alone, or both parts; with a third item nothing is read.
  rcases items with _ | ⟨first, _ | ⟨second, rest⟩⟩
  · simp only [ofItems, List.getElem?_nil, takes_none]
    constructor
    · intro h
      cases h
      exact ⟨by simp, rfl, rfl⟩
    · rintro ⟨-, rfl, rfl⟩
      rfl
  · simp only [ofItems, bind_eq_ok_iff, List.getElem?_cons_zero, takes_some]
    constructor
    · rintro ⟨kind, hkind, h⟩
      cases h
      exact ⟨by simp, hkind, rfl⟩
    · rintro ⟨-, hkind, hkeys⟩
      cases hkeys
      exact ⟨fallback, hkind, rfl⟩
  · simp only [ofItems, bind_eq_ok_iff, List.getElem?_cons_zero, List.getElem?_cons_succ,
      takes_some]
    constructor
    · rintro ⟨kind, hkind, table, htable, h⟩
      split at h
      · rename_i hrest
        cases h
        rw [List.isEmpty_iff.1 hrest]
        exact ⟨by simp, hkind, htable⟩
      · cases h
    · rintro ⟨hlen, hkind, htable⟩
      have hrest : rest = [] := by
        rw [← List.length_eq_zero_iff]
        simp only [List.length_cons] at hlen
        omega
      subst hrest
      exact ⟨fallback, hkind, keys, htable, rfl⟩

/-! ## What is accepted -/

/-- The value from which a part is read: a member with its name, or an item at its place. -/
def part? (json : Json) (name : String) (place : Nat) : Option Json :=
  match json with
  | .object members => Record.find name members
  | .array items => items[place]?
  | _ => none

/-- A value that spells a configuration, as far as its own kind and its members go. -/
def IsFrame : Json → Prop
  | .object members => ∀ m ∈ members, IsPart m.1
  | .array items => items.length ≤ 2
  | _ => False

/-- A configuration is read part by part, whether it is an object or a list. -/
theorem ofJson_eq_ok_iff {json : Json} {config : Config} (hd : json.Distinct) :
    ofJson json = .ok config ↔ IsFrame json ∧
      Takes FallbackKind.ofJson (part? json "fallback" 0) .error config.fallback ∧
      Takes Shape.table (part? json "childVisitorKeys" 1) ∅ config.childVisitorKeys := by
  cases json with
  | object members =>
    unfold Json.Distinct at hd
    exact foldlM_readMember_eq_ok_iff hd.1
  | array items => exact ofItems_eq_ok_iff
  | _ => simp [ofJson, IsFrame]

theorem distinct_part? {json item : Json} {name : String} {place : Nat} (hd : json.Distinct)
    (h : part? json name place = some item) : item.Distinct := by
  unfold part? at h
  split at h
  · unfold Json.Distinct at hd
    exact Json.distinctMembers_iff.1 hd.2 _ (Record.mem_of_find h)
  · unfold Json.Distinct at hd
    exact Json.distinctAll_iff.1 hd item (List.mem_of_getElem? h)
  · cases h

/-- A value that spells a configuration. -/
structure IsConfig (json : Json) : Prop where
  frame : IsFrame json
  fallback : ∀ item, part? json "fallback" 0 = some item → ∃ kind : FallbackKind,
    kind.SpelledBy item
  keys : ∀ item, part? json "childVisitorKeys" 1 = some item → KeyTable.IsTable item

/-- The configuration that a value spells, with the defaults for what is missing. -/
structure SpelledBy (config : Config) (json : Json) : Prop where
  fallback : ∀ item, part? json "fallback" 0 = some item → config.fallback.SpelledBy item
  noFallback : part? json "fallback" 0 = none → config.fallback = .error
  keys : ∀ item, part? json "childVisitorKeys" 1 = some item →
    config.childVisitorKeys.SpelledBy item
  noKeys : part? json "childVisitorKeys" 1 = none → config.childVisitorKeys = ∅

/-- A part can be taken if the value that is found for it, if any, can be read. -/
theorem exists_takes {β : Type} (read : Json → Shaped β) (found : Option Json) (before : β) :
    (∃ after, Takes read found before after) ↔
      ∀ item, found = some item → ∃ after, read item = .ok after := by
  cases found with
  | none => simp
  | some item => simp

/-- What can be read as a configuration is what is one. -/
theorem exists_ofJson {json : Json} (hd : json.Distinct) :
    (∃ config, ofJson json = .ok config) ↔ IsConfig json := by
  have hfallback := exists_takes FallbackKind.ofJson (part? json "fallback" 0) .error
  have hkeys := exists_takes Shape.table (part? json "childVisitorKeys" 1) ∅
  simp only [FallbackKind.ofJson_eq_ok_iff] at hfallback
  simp only [KeyTable.exists_table] at hkeys
  constructor
  · rintro ⟨config, h⟩
    obtain ⟨hframe, hf, hk⟩ := (ofJson_eq_ok_iff hd).1 h
    exact ⟨hframe, hfallback.1 ⟨_, hf⟩, hkeys.1 ⟨_, hk⟩⟩
  · rintro ⟨hframe, hf, hk⟩
    obtain ⟨kind, hkind⟩ := hfallback.2 hf
    obtain ⟨table, htable⟩ := hkeys.2 hk
    exact ⟨⟨kind, table⟩, (ofJson_eq_ok_iff hd).2 ⟨hframe, hkind, htable⟩⟩

/-- A configuration that is read is the one that is spelled. -/
theorem spelledBy_of_ofJson {json : Json} {config : Config} (hd : json.Distinct)
    (h : ofJson json = .ok config) : config.SpelledBy json := by
  obtain ⟨-, hfallback, hkeys⟩ := (ofJson_eq_ok_iff hd).1 h
  refine ⟨fun item hitem => ?_, fun hnone => ?_, fun item hitem => ?_, fun hnone => ?_⟩
  · rw [hitem, takes_some] at hfallback
    exact FallbackKind.ofJson_eq_ok_iff.1 hfallback
  · rwa [hnone, takes_none] at hfallback
  · rw [hitem, takes_some] at hkeys
    exact KeyTable.spelledBy_of_table (distinct_part? hd hitem) hkeys
  · rwa [hnone, takes_none] at hkeys

/-- What becomes of a text: by what is read from it, if anything, a configuration or an error. -/
inductive Reading : Option (Option Json) → Except ConfigError Config → Prop
  | malformed (reason : String) : Reading none (.error (.malformed reason))
  | blank : Reading (some none) (.ok ⟨.error, ∅⟩)
  | accepted {json : Json} {config : Config} (shape : IsConfig json)
    (spelled : config.SpelledBy json) : Reading (some (some json)) (.ok config)
  | refused {json : Json} (shape : ¬IsConfig json) (reason : String) :
    Reading (some (some json)) (.error (.invalid reason))

/-- A configuration is read from just the texts that spell one. -/
theorem text_accepted_as_described (text : String) :
    Reading (Jsonc.read? text) (ofText text) := by
  unfold ofText
  rcases hread : Jsonc.read? text with _ | _ | json
  · exact .malformed _
  · exact .blank
  · have hd := Jsonc.distinct_read? hread
    dsimp only
    cases h : ofJson json with
    | error e =>
      refine .refused (fun hshape => ?_) _
      obtain ⟨config, hconfig⟩ := (exists_ofJson hd).2 hshape
      rw [h] at hconfig
      cases hconfig
    | ok config => exact .accepted ((exists_ofJson hd).1 ⟨config, h⟩) (spelledBy_of_ofJson hd h)

end Config

end SyntaxWalk
