/-
Configurations and key table files survive being written and read back. A table is written without
an order of its own, so the members of the written objects may come in any order; whatever it is,
the value that is read is the one that was written.
-/
import Mathlib.Data.List.Forall2
import Mathlib.Data.List.Nodup
import SyntaxWalk.Proofs.Spelling

namespace SyntaxWalk

/-! ## Other orders -/

/-- The second JSON value is the first one, but for the order of the members of its objects. -/
inductive Json.Reordered : Json → Json → Prop
  | refl (json : Json) : Reordered json json
  | array {items later : List Json} (h : List.Forall₂ Reordered items later) :
    Reordered (.array items) (.array later)
  | object {members moved later : List (String × Json)} (order : members.Perm moved)
    (names : moved.map (·.1) = later.map (·.1))
    (values : List.Forall₂ Reordered (moved.map (·.2)) (later.map (·.2))) :
    Reordered (.object members) (.object later)

namespace Json

theorem eq_of_reordered_string {s : String} {json : Json} (h : (Json.string s).Reordered json) :
    json = .string s := by
  cases h
  rfl

theorem eq_of_forall₂_reordered {texts : List String} : ∀ {items : List Json},
    List.Forall₂ Reordered (texts.map .string) items → items = texts.map .string := by
  induction texts with
  | nil =>
    intro items h
    cases h
    rfl
  | cons text rest ih =>
    intro items h
    cases h with
    | cons hfirst hrest => rw [eq_of_reordered_string hfirst, ih hrest, List.map_cons]

/-- There are no members in a list of texts, so reordering leaves it as it is. -/
theorem eq_of_reordered_texts {texts : List String} {json : Json}
    (h : (Json.array (texts.map .string)).Reordered json) : json = .array (texts.map .string) := by
  cases h with
  | refl => rfl
  | array h => rw [eq_of_forall₂_reordered h]

theorem exists_of_forall₂ {name : String} {item : Json} : ∀ {moved later : List (String × Json)},
    moved.map (·.1) = later.map (·.1) →
    List.Forall₂ Reordered (moved.map (·.2)) (later.map (·.2)) → (name, item) ∈ moved →
    ∃ other, (name, other) ∈ later ∧ item.Reordered other
  | [], _, _, _, h => by cases h
  | _ :: _, [], hnames, _, _ => by cases hnames
  | first :: moved, second :: later, hnames, hvalues, h => by
    obtain ⟨hname, hnames⟩ := List.cons_eq_cons.1 hnames
    obtain ⟨hvalue, hvalues⟩ := List.forall₂_cons.1 hvalues
    rcases List.mem_cons.1 h with rfl | h
    · obtain rfl : name = second.1 := hname
      exact ⟨second.2, List.mem_cons_self, hvalue⟩
    · obtain ⟨other, hother, hre⟩ := exists_of_forall₂ hnames hvalues h
      exact ⟨other, List.mem_cons_of_mem _ hother, hre⟩

/-- In another order an object has the same names, and under each name the same value but for the
order. -/
theorem Reordered.members {members : List (String × Json)} {json : Json}
    (h : (Json.object members).Reordered json) :
    ∃ later, json = .object later ∧ (members.map (·.1)).Perm (later.map (·.1)) ∧
      ∀ name item, (name, item) ∈ members →
        ∃ other, (name, other) ∈ later ∧ item.Reordered other := by
  cases h with
  | refl => exact ⟨members, rfl, .refl _, fun name item h => ⟨item, h, .refl item⟩⟩
  | object order names values =>
    refine ⟨_, rfl, names ▸ order.map _, fun name item h => ?_⟩
    exact exists_of_forall₂ names values (order.mem_iff.1 h)

theorem find_of_mem {members : List (String × Json)} (hnd : (members.map (·.1)).Nodup)
    {name : String} {item : Json} (h : (name, item) ∈ members) :
    Record.find name members = some item :=
  Record.get?_of_mem (r := ⟨members, hnd⟩) h

/-- An object whose values leave no other order only has its members moved. -/
theorem Reordered.perm {members : List (String × Json)} {json : Json}
    (h : (Json.object members).Reordered json) (hnd : (members.map (·.1)).Nodup)
    (hrigid : ∀ m ∈ members, ∀ other, m.2.Reordered other → other = m.2) :
    ∃ later, json = .object later ∧ members.Perm later := by
  obtain ⟨later, rfl, hnames, hvalues⟩ := h.members
  have hsub : members ⊆ later := by
    rintro ⟨name, item⟩ hm
    obtain ⟨other, hother, hre⟩ := hvalues name item hm
    rwa [hrigid _ hm other hre] at hother
  have hlen : later.length ≤ members.length := by
    simpa using hnames.length_eq.ge
  exact ⟨later, rfl, (List.subperm_of_subset (List.Nodup.of_map _ hnd) hsub).perm_of_length_le hlen⟩

end Json

/-! ## Tables -/

theorem tableJson_eq (table : KeyTable) :
    KeyTableFile.tableJson table = .object (table.entries.map Shape.member) := rfl

/-- A table that is written is read back, in whatever order its members are. -/
theorem table_of_reordered {table : KeyTable} {json : Json}
    (h : (KeyTableFile.tableJson table).Reordered json) : Shape.table json = .ok table := by
  have hnd : ((table.entries.map Shape.member).map (·.1)).Nodup := by
    rw [KeyTable.names_map_member]
    exact table.nodup_keys
  -- The lists in a table have no members, so it is the types alone that change places.
  have hrigid : ∀ m ∈ table.entries.map Shape.member, ∀ other, m.2.Reordered other →
      other = m.2 := by
    intro m hm other hre
    obtain ⟨⟨type, keys⟩, -, rfl⟩ := List.mem_map.1 hm
    exact Json.eq_of_reordered_texts hre
  rw [tableJson_eq] at h
  obtain ⟨later, rfl, hperm⟩ := h.perm hnd hrigid
  have htable : KeyTable.IsTable (.object later) := by
    refine ⟨later, rfl, fun m hm => ?_⟩
    obtain ⟨⟨type, keys⟩, -, rfl⟩ := List.mem_map.1 (hperm.mem_iff.2 hm)
    exact ⟨keys, rfl⟩
  obtain ⟨entries, hentries⟩ := KeyTable.isTable_iff.1 htable
  cases hentries
  refine Shape.table_eq_ok_iff.2 ⟨entries, rfl, ?_⟩
  have hdistinct : (entries.map (·.1)).Nodup := by
    rw [← KeyTable.names_map_member]
    exact (hperm.map _).nodup_iff.1 hnd
  refine StringMap.ext fun type => Option.ext fun keys => ?_
  rw [StringMap.get?_ofList hdistinct, ← StringMap.mem_entries_iff, ← KeyTable.mem_map_member,
    ← KeyTable.mem_map_member, hperm.mem_iff]

/-! ## Configurations -/

theorem FallbackKind.ofJson_name (kind : FallbackKind) : ofJson (.string kind.name) = .ok kind := by
  cases kind <;> rfl

/-- A configuration that is written is read back, in whatever order its members are. -/
theorem Config.ofJson_of_reordered {config : Config} {json : Json}
    (h : config.toJson.Reordered json) : Config.ofJson json = .ok config := by
  obtain ⟨members, rfl, hnames, hvalues⟩ := h.members
  have hnd : (members.map (·.1)).Nodup := hnames.nodup_iff.1 (by simp)
  obtain ⟨fallback, hfallback, hkind⟩ := hvalues _ _ (.head _)
  obtain ⟨keys, hkeys, htable⟩ := hvalues _ _ (.tail _ (.head _))
  rw [Json.eq_of_reordered_string hkind] at hfallback
  refine (foldlM_readMember_eq_ok_iff hnd).2 ⟨fun m hm => ?_, ?_, ?_⟩
  · have hname := hnames.mem_iff.2 (List.mem_map_of_mem hm)
    simpa [IsPart] using hname
  · rw [Json.find_of_mem hnd hfallback, takes_some, FallbackKind.ofJson_name]
  · rw [Json.find_of_mem hnd hkeys, takes_some, table_of_reordered htable]

/-! ## Key table files -/

namespace KeyTableFile

open Config (Takes takes_none takes_some)

theorem exists_of_map_some {β : Type} {x : Shaped β} {item : Option β}
    (h : some <$> x = .ok item) : ∃ b, x = .ok b ∧ item = some b := by
  cases x with
  | error e => cases h
  | ok b =>
    cases h
    exact ⟨b, rfl, rfl⟩

/-- If each member that is looked for can be read, then so can all members, in any order. -/
theorem foldlM_read_of_takes : ∀ {members : List (String × Json)} {draft later : Draft},
    (members.map (·.1)).Nodup →
    Takes (some <$> Shape.text ·) (Record.find "grammar" members) draft.grammar later.grammar →
    Takes (some <$> Shape.text ·) (Record.find "version" members) draft.version later.version →
    Takes (some <$> Shape.table ·) (Record.find "keys" members) draft.keys later.keys →
    members.foldlM Draft.read draft = .ok later
  | [], draft, later, _, hgrammar, hversion, hkeys => by
    obtain ⟨grammar, version, keys⟩ := later
    cases hgrammar
    cases hversion
    cases hkeys
    rfl
  | (name, json) :: rest, draft, later, hnd, hgrammar, hversion, hkeys => by
    obtain ⟨hname, hrest⟩ := List.nodup_cons.1 hnd
    have hnone : Record.find name rest = none := Record.find_of_not_mem hname
    rw [List.foldlM_cons, bind_eq_ok_iff]
    -- Each name comes once, so nothing that follows has a say about the part that is read here.
    unfold Draft.read
    split
    · rename_i item heq
      cases heq
      simp only [Record.find, String.reduceEq, if_true, if_false, takes_some]
        at hgrammar hversion hkeys
      obtain ⟨text, htext, hlater⟩ := exists_of_map_some hgrammar
      refine ⟨{ draft with grammar := some text }, by rw [htext]; rfl, ?_⟩
      exact foldlM_read_of_takes hrest (by rw [hnone]; exact hlater) hversion hkeys
    · rename_i item heq
      cases heq
      simp only [Record.find, String.reduceEq, if_true, if_false, takes_some]
        at hgrammar hversion hkeys
      obtain ⟨text, htext, hlater⟩ := exists_of_map_some hversion
      refine ⟨{ draft with version := some text }, by rw [htext]; rfl, ?_⟩
      exact foldlM_read_of_takes hrest hgrammar (by rw [hnone]; exact hlater) hkeys
    · rename_i item heq
      cases heq
      simp only [Record.find, String.reduceEq, if_true, if_false, takes_some]
        at hgrammar hversion hkeys
      obtain ⟨table, htable, hlater⟩ := exists_of_map_some hkeys
      refine ⟨{ draft with keys := some table }, by rw [htable]; rfl, ?_⟩
      exact foldlM_read_of_takes hrest hgrammar hversion (by rw [hnone]; exact hlater)
    · rename_i hg hv hk
      refine ⟨draft, rfl, foldlM_read_of_takes hrest ?_ ?_ ?_⟩
      · rwa [Record.find, if_neg fun heq => hg json (Prod.ext heq rfl)] at hgrammar
      · rwa [Record.find, if_neg fun heq => hv json (Prod.ext heq rfl)] at hversion
      · rwa [Record.find, if_neg fun heq => hk json (Prod.ext heq rfl)] at hkeys

/-- A file that is written is read back, in whatever order its members are. -/
theorem ofJson_of_reordered {file : KeyTableFile} {json : Json}
    (h : file.toJson.Reordered json) : ofJson json = .ok file := by
  obtain ⟨members, rfl, hnames, hvalues⟩ := h.members
  have hnd : (members.map (·.1)).Nodup := hnames.nodup_iff.1 (by simp)
  obtain ⟨grammar, hgrammar, hgrammar'⟩ := hvalues _ _ (.head _)
  obtain ⟨version, hversion, hversion'⟩ := hvalues _ _ (.tail _ (.head _))
  obtain ⟨keys, hkeys, hkeys'⟩ := hvalues _ _ (.tail _ (.tail _ (.head _)))
  rw [Json.eq_of_reordered_string hgrammar'] at hgrammar
  rw [Json.eq_of_reordered_string hversion'] at hversion
  have hread : members.foldlM Draft.read {} =
      .ok ⟨some file.grammar, some file.version, some file.keys⟩ := by
    refine foldlM_read_of_takes hnd ?_ ?_ ?_
    · rw [Json.find_of_mem hnd hgrammar]
      rfl
    · rw [Json.find_of_mem hnd hversion]
      rfl
    · rw [Json.find_of_mem hnd hkeys, takes_some, table_of_reordered hkeys']
      rfl
  show members.foldlM Draft.read {} >>= _ = _
  rw [hread]
  rfl

end KeyTableFile

/-- What is written is read back, in whatever order it was written, and the options of a
configuration that was read back resolve the same child fields. -/
theorem written_files_read_back :
    (∀ (config : Config) (json : Json), config.toJson.Reordered json →
      ∃ reread, Config.ofJson json = .ok reread ∧ reread = config ∧
        ∀ heap id type, reread.options.resolveKeys heap id type =
          config.options.resolveKeys heap id type) ∧
    (∀ (file : KeyTableFile) (json : Json), file.toJson.Reordered json →
      KeyTableFile.ofJson json = .ok file) :=
  ⟨fun config _ h => ⟨config, Config.ofJson_of_reordered h, rfl, fun _ _ _ => rfl⟩,
    fun _ _ h => KeyTableFile.ofJson_of_reordered h⟩

/-- A configuration for two types. -/
def twoTypes : Config where
  fallback := .iteration
  childVisitorKeys := ⟨[("Leaf", []), ("Pair", ["left", "right"])], by decide⟩

/-- The configuration for two types, with all members the other way round. -/
def twoTypesSwapped : Json :=
  .object
    [("childVisitorKeys", .object
        [("Pair", .array [.string "left", .string "right"]), ("Leaf", .array [])]),
      ("fallback", .string "iteration")]

theorem written_files_read_back_twoTypes :
    twoTypes.toJson.Reordered twoTypesSwapped ∧ Config.ofJson twoTypesSwapped = .ok twoTypes := by
  have h : twoTypes.toJson.Reordered twoTypesSwapped := by
    refine .object (List.Perm.swap _ _ _) rfl (.cons ?_ (.cons (.refl _) .nil))
    exact .object (List.Perm.swap _ _ _) rfl (.cons (.refl _) (.cons (.refl _) .nil))
  obtain ⟨reread, hread, rfl, -⟩ := written_files_read_back.1 twoTypes _ h
  exact ⟨h, hread⟩

end SyntaxWalk
