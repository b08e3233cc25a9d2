/-
Records: fields in the order in which they came in, no two of them with the same name. Setting a
field that is there keeps its place, a new one goes to the end, and a field that was erased and set
again goes to the end too. The fields of nodes and the members of JSON objects are records, and so
are sets of handlers, where the order does not count.
-/

namespace SyntaxWalk

namespace Record

variable {α : Type}

/-! ## Entry lists -/

/-- The item of the first entry with the given name. -/
def find (name : String) : List (String × α) → Option α
  | [] => none
  | e :: rest => if e.1 = name then some e.2 else find name rest

/-- Replaces the item of the first entry with the given name, or adds an entry at the end. -/
def put (name : String) (item : α) : List (String × α) → List (String × α)
  | [] => [(name, item)]
  | e :: rest => if e.1 = name then (name, item) :: rest else e :: put name item rest

/-- Drops the first entry with the given name. -/
def drop (name : String) : List (String × α) → List (String × α)
  | [] => []
  | e :: rest => if e.1 = name then rest else e :: drop name rest

theorem mem_names_put {name other : String} {item : α} :
    ∀ {entries : List (String × α)}, other ∈ (put name item entries).map (·.1) →
      other = name ∨ other ∈ entries.map (·.1)
  | [], h => by simpa [put] using h
  | e :: rest, h => by
    unfold put at h
    split at h
    · rcases List.mem_cons.1 h with h | h
      · exact .inl h
      · exact .inr (List.mem_cons_of_mem _ h)
    · rcases List.mem_cons.1 h with h | h
      · exact .inr (h ▸ List.mem_cons_self)
      · exact (mem_names_put h).imp id (List.mem_cons_of_mem _)

/-- An entry under a new name goes to the end. -/
theorem put_of_not_mem {name : String} {item : α} :
    ∀ {entries : List (String × α)}, name ∉ entries.map (·.1) →
      put name item entries = entries ++ [(name, item)]
  | [], _ => rfl
  | e :: rest, h => by
    rw [List.map_cons, List.mem_cons, not_or] at h
    rw [put, if_neg (Ne.symm h.1), put_of_not_mem h.2, List.cons_append]

theorem nodup_put {name : String} {item : α} :
    ∀ {entries : List (String × α)}, (entries.map (·.1)).Nodup →
      ((put name item entries).map (·.1)).Nodup
  | [], _ => by simp [put]
  | e :: rest, h => by
    obtain ⟨he, hrest⟩ := List.nodup_cons.1 h
    unfold put
    split
    · rename_i heq
      exact heq ▸ h
    · rename_i hne
      refine List.nodup_cons.2 ⟨fun hm => ?_, nodup_put hrest⟩
      exact (mem_names_put hm).elim hne he

theorem drop_sublist (name : String) :
    ∀ (entries : List (String × α)), (drop name entries).Sublist entries
  | [] => .slnil
  | e :: rest => by
    unfold drop
    split
    · exact List.sublist_cons_self _ _
    · exact (drop_sublist name rest).cons_cons e

end Record

/-! ## Records -/

/-- Named items in order. -/
structure Record (α : Type) where
  entries : List (String × α)
  /-- No two entries have the same name. -/
  distinct : (entries.map (·.1)).Nodup
deriving DecidableEq

namespace Record

variable {α : Type}

/-- The record without fields. -/
def empty : Record α := ⟨[], .nil⟩

instance : EmptyCollection (Record α) := ⟨empty⟩

instance : Inhabited (Record α) := ⟨empty⟩

/-- The item under a name. -/
def get? (r : Record α) (name : String) : Option α := find name r.entries

/-- Whether there is an item under a name. -/
def contains (r : Record α) (name : String) : Bool := r.entries.any (·.1 = name)

/-- Sets the item under a name. -/
def insert (r : Record α) (name : String) (item : α) : Record α :=
  ⟨put name item r.entries, nodup_put r.distinct⟩

/-- Forgets a name. -/
def erase (r : Record α) (name : String) : Record α :=
  ⟨drop name r.entries, r.distinct.sublist ((drop_sublist name r.entries).map _)⟩

/-- Takes out the entry with a name, found by its place, and gives its item. -/
def remove (r : Record α) (name : String) : Option α × Record α :=
  match r.entries.findIdx? (·.1 = name) with
  | none => (none, r)
  | some i => (r.entries[i]?.map (·.2),
      ⟨r.entries.eraseIdx i, r.distinct.sublist ((List.eraseIdx_sublist r.entries i).map _)⟩)

/-- The names in order. -/
def keys (r : Record α) : List String := r.entries.map (·.1)

/-- The number of fields. -/
def size (r : Record α) : Nat := r.entries.length

/-- Whether there are no fields. -/
def isEmpty (r : Record α) : Bool := r.entries.isEmpty

/-- The record that arises when entries are set one after the other. -/
def insertAll (r : Record α) (entries : List (String × α)) : Record α :=
  entries.foldl (fun r e => r.insert e.1 e.2) r

/-- The record of the entries, of which the last one counts where names are the same. -/
def ofList (entries : List (String × α)) : Record α := insertAll ∅ entries

/-- Changes all items. -/
def map {β : Type} (f : α → β) (r : Record α) : Record β :=
  ⟨r.entries.map fun e => (e.1, f e.2), by rw [List.map_map]; exact r.distinct⟩

/-! ## Look-ups -/

@[simp] theorem get?_empty (name : String) : (∅ : Record α).get? name = none := rfl

/-- What is put is found, and nothing else is touched. -/
theorem find_put (name other : String) (item : α) :
    ∀ (entries : List (String × α)), find other (put name item entries) =
      if other = name then some item else find other entries
  | [] => by by_cases h : other = name <;> simp [put, find, h, Ne.symm]
  | e :: rest => by
    unfold put
    split
    · rename_i he
      by_cases h : other = name
      · simp [find, h]
      · simp [find, h, Ne.symm h, he]
    · rename_i he
      by_cases h : e.1 = other
      · have hn : other ≠ name := fun hn => he (h.trans hn)
        simp [find, h, hn]
      · simp [find, h, find_put name other item rest]

theorem get?_insert (r : Record α) (name other : String) (item : α) :
    (r.insert name item).get? other = if other = name then some item else r.get? other :=
  find_put name other item r.entries

theorem find_of_not_mem {name : String} :
    ∀ {entries : List (String × α)}, name ∉ entries.map (·.1) → find name entries = none
  | [], _ => rfl
  | e :: rest, h => by
    rw [List.map_cons, List.mem_cons, not_or] at h
    rw [find, if_neg (Ne.symm h.1), find_of_not_mem h.2]

theorem mem_of_find {name : String} {item : α} :
    ∀ {entries : List (String × α)}, find name entries = some item → (name, item) ∈ entries
  | e :: rest, h => by
    unfold find at h
    split at h
    · rename_i he
      cases h
      exact he ▸ List.mem_cons_self
    · exact List.mem_cons_of_mem _ (mem_of_find h)

/-- Names are distinct, so an entry is what is found under its name. -/
theorem get?_of_mem {r : Record α} {e : String × α} (h : e ∈ r.entries) :
    r.get? e.1 = some e.2 := by
  obtain ⟨entries, distinct⟩ := r
  show find e.1 entries = some e.2
  replace h : e ∈ entries := h
  induction entries with
  | nil => cases h
  | cons first rest ih =>
    obtain ⟨hfirst, hrest⟩ := List.nodup_cons.1 distinct
    rcases List.mem_cons.1 h with rfl | h
    · rw [find, if_pos rfl]
    · have hne : first.1 ≠ e.1 := fun heq => hfirst (List.mem_map.2 ⟨e, h, heq.symm⟩)
      rw [find, if_neg hne, ih hrest h]

/-- Among entries with different names, those with some items are looked up like all of them. -/
theorem find_filter (name : String) (p : α → Bool) :
    ∀ {entries : List (String × α)}, (entries.map (·.1)).Nodup →
      find name (entries.filter (p ·.2)) = (find name entries).filter p
  | [], _ => rfl
  | e :: rest, h => by
    obtain ⟨he, hrest⟩ := List.nodup_cons.1 h
    have ih := find_filter name p hrest
    by_cases hn : e.1 = name
    · have hnone : find name rest = none := find_of_not_mem (hn ▸ he)
      rw [hnone] at ih
      cases hp : p e.2 <;> simp [find, Option.filter, hn, hp, ih]
    · cases hp : p e.2 <;> simp [find, hn, hp, ih]

theorem isSome_find (name : String) : ∀ (entries : List (String × α)),
    (find name entries).isSome = entries.any (·.1 = name)
  | [] => rfl
  | e :: rest => by
    rw [List.any_cons, ← isSome_find name rest, find]
    by_cases h : e.1 = name <;> simp [h]

/-- A record contains the names under which something is found. -/
theorem contains_eq (r : Record α) (name : String) : r.contains name = (r.get? name).isSome :=
  (isSome_find name r.entries).symm

theorem find_map {β : Type} (f : α → β) (name : String) : ∀ (entries : List (String × α)),
    find name (entries.map fun e => (e.1, f e.2)) = (find name entries).map f
  | [] => rfl
  | e :: rest => by
    rw [List.map_cons, find, find, find_map f name rest]
    split <;> rfl

theorem get?_map {β : Type} (f : α → β) (r : Record α) (name : String) :
    (r.map f).get? name = (r.get? name).map f :=
  find_map f name r.entries

theorem mem_keys_iff {r : Record α} {name : String} : name ∈ r.keys ↔ (r.get? name).isSome := by
  constructor
  · intro h
    obtain ⟨e, he, rfl⟩ := List.mem_map.1 h
    rw [get?_of_mem he]
    rfl
  · intro h
    obtain ⟨item, hitem⟩ := Option.isSome_iff_exists.1 h
    exact List.mem_map.2 ⟨(name, item), mem_of_find hitem, rfl⟩

/-! ## Order -/

theorem names_put_of_mem {name : String} {item : α} :
    ∀ {entries : List (String × α)}, name ∈ entries.map (·.1) →
      (put name item entries).map (·.1) = entries.map (·.1)
  | e :: rest, h => by
    unfold put
    split
    · rename_i he
      rw [List.map_cons, List.map_cons, he]
    · rename_i he
      have hrest : name ∈ rest.map (·.1) := by
        rcases List.mem_cons.1 h with h | h
        · exact (he h.symm).elim
        · exact h
      rw [List.map_cons, List.map_cons, names_put_of_mem hrest]

/-- A name that is there keeps its place, and a new one goes to the end. -/
theorem keys_insert (r : Record α) (name : String) (item : α) :
    (r.insert name item).keys = if name ∈ r.keys then r.keys else r.keys ++ [name] := by
  split
  · rename_i h
    exact names_put_of_mem h
  · rename_i h
    show (put name item r.entries).map (·.1) = _
    rw [put_of_not_mem h, List.map_append]
    rfl

/-- The entry that is dropped is the one that is found, and all others stay in their order. -/
theorem drop_of_find {name : String} {item : α} :
    ∀ {entries : List (String × α)}, find name entries = some item →
      ∃ before after, entries = before ++ (name, item) :: after ∧ drop name entries = before ++ after
  | e :: rest, h => by
    unfold find at h
    unfold drop
    split at h
    · rename_i he
      cases h
      exact ⟨[], rest, by rw [← he]; rfl, if_pos he⟩
    · rename_i he
      obtain ⟨before, after, rfl, hdrop⟩ := drop_of_find h
      exact ⟨e :: before, after, rfl, by rw [if_neg he, hdrop]; rfl⟩

/-- Dropping what is not there does nothing. -/
theorem drop_of_find_none {name : String} :
    ∀ {entries : List (String × α)}, find name entries = none → drop name entries = entries
  | [], _ => rfl
  | e :: rest, h => by
    unfold find at h
    unfold drop
    split at h
    · cases h
    · rename_i he
      rw [if_neg he, drop_of_find_none h]

/-- Names are distinct, so with the first entry of a name all of them are gone. -/
theorem find_drop (name other : String) :
    ∀ {entries : List (String × α)}, (entries.map (·.1)).Nodup →
      find other (drop name entries) = if other = name then none else find other entries
  | [], _ => by simp [drop, find]
  | e :: rest, h => by
    obtain ⟨he, hrest⟩ := List.nodup_cons.1 h
    unfold drop
    split
    · rename_i hn
      by_cases ho : other = name
      · rw [if_pos ho, find_of_not_mem (by rwa [ho, ← hn])]
      · rw [if_neg ho, find, if_neg fun heq => ho (heq.symm.trans hn)]
    · rename_i hn
      rw [find, find, find_drop name other hrest]
      split
      · rename_i heq
        rw [if_neg fun ho => hn (heq.trans ho)]
      · rfl

theorem get?_erase (r : Record α) (name other : String) :
    (r.erase name).get? other = if other = name then none else r.get? other :=
  find_drop name other r.distinct

/-- At the place that is found, there is the item that is found, and without it the entries are
those of which it was dropped. -/
theorem of_findIdx? {name : String} : ∀ {entries : List (String × α)} {i : Nat},
    entries.findIdx? (·.1 = name) = some i →
      entries[i]?.map (·.2) = find name entries ∧ entries.eraseIdx i = drop name entries
  | e :: rest, i, h => by
    rw [List.findIdx?_cons] at h
    unfold find drop
    by_cases he : e.1 = name
    · obtain rfl : 0 = i := by simpa [he] using h
      simp [he]
    · obtain ⟨j, hj, rfl⟩ : ∃ j, rest.findIdx? (·.1 = name) = some j ∧ j + 1 = i := by
        simpa [he] using h
      obtain ⟨hitem, hrest⟩ := of_findIdx? hj
      rw [if_neg he, if_neg he, List.getElem?_cons_succ, List.eraseIdx_cons_succ, hitem, hrest]
      exact ⟨rfl, rfl⟩

/-- What is removed is what was there. -/
theorem remove_eq (r : Record α) (name : String) : r.remove name = (r.get? name, r.erase name) := by
  unfold remove get? erase
  split
  · rename_i h
    have hnone : find name r.entries = none := find_of_not_mem fun hmem => by
      obtain ⟨e, he, hname⟩ := List.mem_map.1 hmem
      simpa [hname] using List.findIdx?_eq_none_iff.1 h e he
    simp only [hnone, drop_of_find_none hnone]
  · rename_i i h
    obtain ⟨hitem, hrest⟩ := of_findIdx? h
    simp only [hitem, hrest]

/-! ## Records from lists -/

/-- Of what is inserted and what was there, the former is found first. -/
theorem get?_insertAll (name : String) :
    ∀ (entries : List (String × α)) (r : Record α), (entries.map (·.1)).Nodup →
      (r.insertAll entries).get? name = (find name entries).or (r.get? name)
  | [], _, _ => rfl
  | e :: rest, r, h => by
    obtain ⟨he, hrest⟩ := List.nodup_cons.1 h
    show ((r.insert e.1 e.2).insertAll rest).get? name = _
    rw [get?_insertAll name rest _ hrest, get?_insert, find]
    by_cases hn : e.1 = name
    · rw [if_pos hn, if_pos hn.symm, find_of_not_mem (hn ▸ he)]
      rfl
    · rw [if_neg hn, if_neg (Ne.symm hn)]

/-- One item under all of the names. -/
theorem get?_insertAll_const (name : String) (item : α) : ∀ (names : List String) (r : Record α),
    (r.insertAll (names.map fun n => (n, item))).get? name =
      if name ∈ names then some item else r.get? name
  | [], _ => by simp [insertAll]
  | first :: rest, r => by
    show ((r.insert first item).insertAll (rest.map fun n => (n, item))).get? name = _
    rw [get?_insertAll_const name item rest, get?_insert]
    by_cases hfirst : name = first <;> by_cases hrest : name ∈ rest <;> simp [hfirst, hrest]

/-- Entries under new names go to the end, in their order. -/
theorem entries_insertAll :
    ∀ (entries : List (String × α)) (r : Record α), ((r.entries ++ entries).map (·.1)).Nodup →
      (r.insertAll entries).entries = r.entries ++ entries
  | [], r, _ => (List.append_nil _).symm
  | e :: rest, r, h => by
    have hsplit : r.entries ++ e :: rest = (r.entries ++ [(e.1, e.2)]) ++ rest := by simp
    have hnew : e.1 ∉ r.entries.map (·.1) := by
      rw [List.map_append, List.nodup_append] at h
      exact fun hm => h.2.2 _ hm _ List.mem_cons_self rfl
    have hput : (r.insert e.1 e.2).entries = r.entries ++ [(e.1, e.2)] := put_of_not_mem hnew
    show ((r.insert e.1 e.2).insertAll rest).entries = _
    rw [entries_insertAll rest _ (by rwa [hput, ← hsplit]), hput, hsplit]

/-- Entries with different names are all kept, in their order. -/
theorem entries_ofList {entries : List (String × α)} (h : (entries.map (·.1)).Nodup) :
    (ofList entries).entries = entries :=
  entries_insertAll entries ∅ h

end Record

end SyntaxWalk
