/-
Finite maps keyed by text. The entries stand in strictly ascending order of their keys, so a map
lists its keys in that order whatever the order of insertion, and two maps with the same look-ups
are equal. Key tables, handler sets and counts are such maps.
-/

namespace SyntaxWalk

/-! ## Entry lists -/

/-- Every key is below all the keys that follow it. -/
abbrev Ascending {α : Type} (entries : List (String × α)) : Prop :=
  entries.Pairwise (fun a b => a.1 < b.1)

/-- Puts an entry at its place, over an entry with the same key. -/
def insertEntry {α : Type} (key : String) (item : α) : List (String × α) → List (String × α)
  | [] => [(key, item)]
  | e :: rest =>
    if key < e.1 then (key, item) :: e :: rest
    else if key = e.1 then (key, item) :: rest
    else e :: insertEntry key item rest

/-- The item under a key. -/
def findEntry {α : Type} (key : String) : List (String × α) → Option α
  | [] => none
  | e :: rest => if key = e.1 then some e.2 else findEntry key rest

theorem mem_insertEntry {α : Type} {key : String} {item : α} {e : String × α} :
    ∀ {entries : List (String × α)}, e ∈ insertEntry key item entries →
      e = (key, item) ∨ e ∈ entries
  | [], h => by simpa [insertEntry] using h
  | x :: rest, h => by
    unfold insertEntry at h
    split at h
    · simpa using h
    · split at h
      · rcases List.mem_cons.1 h with h | h
        · exact .inl h
        · exact .inr (List.mem_cons_of_mem _ h)
      · rcases List.mem_cons.1 h with h | h
        · exact .inr (h ▸ List.mem_cons_self)
        · exact (mem_insertEntry h).imp id (List.mem_cons_of_mem _)

theorem ascending_insertEntry {α : Type} {key : String} {item : α} :
    ∀ {entries : List (String × α)}, Ascending entries → Ascending (insertEntry key item entries)
  | [], _ => by simp [insertEntry, Ascending]
  | x :: rest, h => by
    obtain ⟨hx, hr⟩ := List.pairwise_cons.1 h
    unfold insertEntry
    split
    · rename_i hlt
      refine List.pairwise_cons.2 ⟨fun e he => ?_, h⟩
      rcases List.mem_cons.1 he with rfl | he
      · exact hlt
      · exact String.lt_trans hlt (hx e he)
    · rename_i hlt
      split
      · rename_i heq
        exact List.pairwise_cons.2 ⟨fun e he => heq ▸ hx e he, hr⟩
      · rename_i hne
        refine List.pairwise_cons.2 ⟨fun e he => ?_, ascending_insertEntry hr⟩
        rcases mem_insertEntry he with rfl | he
        · exact Std.lt_of_le_of_ne (String.not_lt.1 hlt) (Ne.symm hne)
        · exact hx e he

theorem findEntry_insertEntry {α : Type} (key other : String) (item : α) :
    ∀ (entries : List (String × α)), findEntry other (insertEntry key item entries) =
      if other = key then some item else findEntry other entries
  | [] => rfl
  | x :: rest => by
    unfold insertEntry
    split
    · rfl
    · split
      · rename_i heq
        subst heq
        by_cases h : other = x.1 <;> simp [findEntry, h]
      · rename_i hne
        by_cases h : other = x.1
        · have hk : other ≠ key := fun hk => hne (hk ▸ h)
          simp [findEntry, h, h ▸ hk]
        · simp [findEntry, h, findEntry_insertEntry key other item rest]

theorem findEntry_of_forall_lt {α : Type} {key : String} :
    ∀ {entries : List (String × α)}, (∀ e ∈ entries, key < e.1) → findEntry key entries = none
  | [], _ => rfl
  | x :: rest, h => by
    have hx : key ≠ x.1 := fun heq => String.lt_irrefl _ (heq ▸ h x List.mem_cons_self)
    rw [findEntry, if_neg hx]
    exact findEntry_of_forall_lt (fun e he => h e (List.mem_cons_of_mem _ he))

theorem findEntry_filter {α : Type} (key other : String) :
    ∀ (entries : List (String × α)), findEntry other (entries.filter (fun e => e.1 ≠ key)) =
      if other = key then none else findEntry other entries
  | [] => by simp [findEntry]
  | x :: rest => by
    have ih := findEntry_filter key other rest
    by_cases hx : x.1 = key
    · rw [List.filter_cons_of_neg (by simp [hx]), ih]
      by_cases ho : other = key
      · simp [ho]
      · simp [ho, findEntry, hx]
    · rw [List.filter_cons_of_pos (by simp [hx])]
      by_cases ho : other = x.1
      · simp [findEntry, ho, hx]
      · simp only [findEntry, if_neg ho, ih]

theorem findEntry_of_not_mem {α : Type} {key : String} :
    ∀ {entries : List (String × α)}, key ∉ entries.map (·.1) → findEntry key entries = none
  | [], _ => rfl
  | x :: rest, h => by
    rw [List.map_cons, List.mem_cons, not_or] at h
    rw [findEntry, if_neg h.1, findEntry_of_not_mem h.2]

theorem mem_of_findEntry {α : Type} {key : String} {item : α} :
    ∀ {entries : List (String × α)}, findEntry key entries = some item → (key, item) ∈ entries
  | x :: rest, h => by
    unfold findEntry at h
    split at h
    · rename_i hx
      cases h
      exact hx ▸ List.mem_cons_self
    · exact List.mem_cons_of_mem _ (mem_of_findEntry h)

theorem findEntry_of_mem {α : Type} {key : String} {item : α} :
    ∀ {entries : List (String × α)}, (entries.map (·.1)).Nodup → (key, item) ∈ entries →
      findEntry key entries = some item
  | x :: rest, hnd, h => by
    obtain ⟨hx, hrest⟩ := List.nodup_cons.1 hnd
    rcases List.mem_cons.1 h with rfl | h
    · rw [findEntry, if_pos rfl]
    · have hne : key ≠ x.1 := fun heq => hx (List.mem_map.2 ⟨(key, item), h, heq⟩)
      rw [findEntry, if_neg hne, findEntry_of_mem hrest h]

/-- Ascending entries are determined by what is found in them. -/
theorem eq_of_findEntry_eq {α : Type} :
    ∀ {a b : List (String × α)}, Ascending a → Ascending b →
      (∀ key, findEntry key a = findEntry key b) → a = b
  | [], [], _, _, _ => rfl
  | [], y :: ys, _, _, h => by have := h y.1; simp [findEntry] at this
  | x :: xs, [], _, _, h => by have := h x.1; simp [findEntry] at this
  | x :: xs, y :: ys, ha, hb, h => by
    obtain ⟨hx, hxs⟩ := List.pairwise_cons.1 ha
    obtain ⟨hy, hys⟩ := List.pairwise_cons.1 hb
    -- A key that comes before the first one of the other list is not found there.
    have absurd_lt : ∀ {u v : String × α} {us vs : List (String × α)}, u.1 < v.1 →
        (∀ e ∈ vs, v.1 < e.1) → findEntry u.1 (u :: us) = findEntry u.1 (v :: vs) → False := by
      intro u v us vs hlt hv he
      have hnone : findEntry u.1 (v :: vs) = none := findEntry_of_forall_lt (fun e hm => by
        rcases List.mem_cons.1 hm with rfl | hm
        · exact hlt
        · exact String.lt_trans hlt (hv e hm))
      rw [hnone] at he
      simp [findEntry] at he
    by_cases hlt : x.1 < y.1
    · exact (absurd_lt hlt hy (h x.1)).elim
    · by_cases hgt : y.1 < x.1
      · exact (absurd_lt hgt hx (h y.1).symm).elim
      · have hkey : x.1 = y.1 := String.le_antisymm (String.not_lt.1 hgt) (String.not_lt.1 hlt)
        have hitem : x.2 = y.2 := by have := h x.1; simpa [findEntry, hkey] using this
        have htail : xs = ys := by
          refine eq_of_findEntry_eq hxs hys (fun key => ?_)
          by_cases hk : key = x.1
          · subst hk
            rw [findEntry_of_forall_lt hx, findEntry_of_forall_lt (hkey ▸ hy)]
          · have := h key
            simpa [findEntry, hk, hkey ▸ hk] using this
        rw [htail, Prod.ext hkey hitem]

/-! ## Maps -/

/-- A finite map from texts to `α`. -/
structure StringMap (α : Type) where
  /-- Keys with their items, keys ascending. -/
  entries : List (String × α)
  ascending : Ascending entries
deriving DecidableEq

namespace StringMap

variable {α : Type}

/-- The map without entries. -/
def empty : StringMap α := ⟨[], .nil⟩

instance : EmptyCollection (StringMap α) := ⟨empty⟩

instance : Inhabited (StringMap α) := ⟨empty⟩

/-- The item under a key. -/
def get? (map : StringMap α) (key : String) : Option α := findEntry key map.entries

/-- Whether there is an item under a key. -/
def contains (map : StringMap α) (key : String) : Bool := (map.get? key).isSome

/-- Sets the item under a key. -/
def insert (map : StringMap α) (key : String) (item : α) : StringMap α :=
  ⟨insertEntry key item map.entries, ascending_insertEntry map.ascending⟩

/-- Forgets a key. -/
def erase (map : StringMap α) (key : String) : StringMap α :=
  ⟨map.entries.filter (fun e => e.1 ≠ key), map.ascending.sublist List.filter_sublist⟩

/-- The keys, ascending. -/
def keys (map : StringMap α) : List String := map.entries.map (·.1)

/-- The number of keys. -/
def size (map : StringMap α) : Nat := map.entries.length

/-- Both maps in one; where both have a key, the second one's item stays. -/
def override (base derived : StringMap α) : StringMap α :=
  derived.entries.foldl (fun m e => m.insert e.1 e.2) base

/-- The map of a list of entries; of entries with one key the last one stays. -/
def ofList (entries : List (String × α)) : StringMap α :=
  entries.foldl (fun m e => m.insert e.1 e.2) ∅

/-! ## Look-ups

A map is what its look-ups are, and each operation is determined by what it does to them. -/

theorem ext {a b : StringMap α} (h : ∀ key, a.get? key = b.get? key) : a = b := by
  obtain ⟨as, ha⟩ := a
  obtain ⟨bs, hb⟩ := b
  obtain rfl := eq_of_findEntry_eq ha hb h
  rfl

@[simp] theorem get?_empty (key : String) : (∅ : StringMap α).get? key = none := rfl

theorem get?_insert (m : StringMap α) (key other : String) (item : α) :
    (m.insert key item).get? other = if other = key then some item else m.get? other :=
  findEntry_insertEntry key other item m.entries

theorem get?_erase (m : StringMap α) (key other : String) :
    (m.erase key).get? other = if other = key then none else m.get? other :=
  findEntry_filter key other m.entries

/-! ## Entries and keys -/

theorem pairwise_keys (m : StringMap α) : m.keys.Pairwise (· < ·) := List.pairwise_map.2 m.ascending

theorem nodup_keys (m : StringMap α) : m.keys.Nodup :=
  m.pairwise_keys.imp fun {a b} (hlt : a < b) (heq : a = b) => String.lt_irrefl b (heq ▸ hlt)

theorem mem_entries_iff {m : StringMap α} {key : String} {item : α} :
    (key, item) ∈ m.entries ↔ m.get? key = some item :=
  ⟨findEntry_of_mem m.nodup_keys, mem_of_findEntry⟩

theorem mem_keys_iff {m : StringMap α} {key : String} : key ∈ m.keys ↔ (m.get? key).isSome := by
  constructor
  · intro h
    obtain ⟨⟨_, item⟩, he, rfl⟩ := List.mem_map.1 h
    rw [mem_entries_iff.1 he]
    rfl
  · intro h
    obtain ⟨item, hitem⟩ := Option.isSome_iff_exists.1 h
    exact List.mem_map.2 ⟨(key, item), mem_entries_iff.2 hitem, rfl⟩

theorem get?_foldl_insert (key : String) :
    ∀ (entries : List (String × α)) (base : StringMap α), (entries.map (·.1)).Nodup →
      (entries.foldl (fun m e => m.insert e.1 e.2) base).get? key =
        (findEntry key entries).or (base.get? key)
  | [], base, _ => by simp [findEntry]
  | x :: rest, base, h => by
    obtain ⟨hx, hrest⟩ := List.nodup_cons.1 h
    rw [List.foldl_cons, get?_foldl_insert key rest _ hrest, get?_insert]
    by_cases hk : key = x.1
    · subst hk
      simp [findEntry, findEntry_of_not_mem hx]
    · simp [findEntry, hk]

theorem get?_override (base derived : StringMap α) (key : String) :
    (base.override derived).get? key = (derived.get? key).or (base.get? key) :=
  get?_foldl_insert key derived.entries base derived.nodup_keys

/-- Entries with different keys are all kept. -/
theorem get?_ofList {entries : List (String × α)} (h : (entries.map (·.1)).Nodup) {key : String}
    {item : α} : (ofList entries).get? key = some item ↔ (key, item) ∈ entries := by
  unfold ofList
  rw [get?_foldl_insert key entries ∅ h, get?_empty, Option.or_none]
  exact ⟨mem_of_findEntry, findEntry_of_mem h⟩

end StringMap

end SyntaxWalk
