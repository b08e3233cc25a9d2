/-
What a report on a document says. A report has one row for each type that was asked for, or, if none
was, for each listed type that occurs, and the count in the row is the number of nodes of the type
that a walk visits. The rows come in one order, and the totals are those of the rows. The report in
JSON says the same, and so does the value that is read back from its text.
-/
import Mathlib.Algebra.GroupWithZero.Nat
import Mathlib.Algebra.Order.BigOperators.Group.List
import SyntaxWalk.Command.Run
import SyntaxWalk.Proofs.ByteOrder
import SyntaxWalk.Proofs.Counting
import SyntaxWalk.Proofs.Printing

namespace SyntaxWalk.Command

/-! ## Rows -/

namespace Report

/-- A row stands before another one: its count is greater, or it is the same and the bytes of its
type come first. -/
def Before (a b : String × Nat) : Prop := b.2 < a.2 ∨ a.2 = b.2 ∧ utf8Bytes a.1 < utf8Bytes b.1

instance : DecidableRel Before := fun a b =>
  inferInstanceAs (Decidable (b.2 < a.2 ∨ a.2 = b.2 ∧ utf8Bytes a.1 < utf8Bytes b.1))

theorem precedes_iff {a b : String × Nat} :
    precedes a b = true ↔ b.2 < a.2 ∨ a.2 = b.2 ∧ a.1 ≤ b.1 := by
  simp [precedes]

/-- Rows are ordered. -/
theorem precedes_trans (a b c : String × Nat) (hab : precedes a b = true)
    (hbc : precedes b c = true) : precedes a c = true := by
  rw [precedes_iff] at *
  rcases hab with hab | ⟨hab, hab'⟩
  · rcases hbc with hbc | ⟨hbc, -⟩
    · exact .inl (by omega)
    · exact .inl (by omega)
  · rcases hbc with hbc | ⟨hbc, hbc'⟩
    · exact .inl (by omega)
    · exact .inr ⟨by omega, le_trans hab' hbc'⟩

theorem precedes_total (a b : String × Nat) : (precedes a b || precedes b a) = true := by
  rw [Bool.or_eq_true, precedes_iff, precedes_iff]
  rcases Nat.lt_trichotomy a.2 b.2 with h | h | h
  · exact .inr (.inl h)
  · rcases le_total a.1 b.1 with h' | h'
    · exact .inl (.inr ⟨h, h'⟩)
    · exact .inr (.inr ⟨h.symm, h'⟩)
  · exact .inl (.inl h)

/-- Rows of different types are strictly ordered. -/
theorem before_of_precedes {a b : String × Nat} (h : precedes a b = true) (hne : a.1 ≠ b.1) :
    Before a b := by
  rcases precedes_iff.1 h with h | ⟨h, hle⟩
  · exact .inl h
  · exact .inr ⟨h, lt_iff_utf8Bytes_lt.1 (lt_of_le_of_ne hle hne)⟩

theorem Before.asymm {a b : String × Nat} (hab : Before a b) : ¬Before b a := by
  rintro (hba | ⟨hba, hba'⟩)
  · rcases hab with hab | ⟨hab, -⟩ <;> omega
  · rcases hab with hab | ⟨-, hab'⟩
    · omega
    · exact Std.Asymm.asymm _ _ hab' hba'

variable (r : Report)

theorem rows_perm : r.rows.Perm r.counts.entries := List.mergeSort_perm _ _

theorem mem_rows {type : String} {n : Nat} : (type, n) ∈ r.rows ↔ r.counts.get? type = some n :=
  r.rows_perm.mem_iff.trans StringMap.mem_entries_iff

theorem nodup_types : (r.rows.map (·.1)).Nodup :=
  (r.rows_perm.map Prod.fst).nodup_iff.2 r.counts.nodup_keys

/-- Equal counts are told apart by their types, so no two rows are equal in order. -/
theorem pairwise_rows : r.rows.Pairwise Before := by
  have hsorted : r.rows.Pairwise (fun a b => precedes a b = true) :=
    List.pairwise_mergeSort precedes_trans precedes_total r.counts.entries
  have hdistinct : r.rows.Pairwise (fun a b => a.1 ≠ b.1) := List.pairwise_map.1 r.nodup_types
  exact hsorted.imp₂ (fun _ _ => before_of_precedes) hdistinct

theorem total_eq : r.total = (r.rows.map (·.2)).sum := by
  have hfold : r.total = (r.counts.entries.map (·.2)).sum := by
    unfold total
    rw [List.sum_eq_foldl_nat, List.foldl_map]
  rw [hfold]
  exact (r.rows_perm.map Prod.snd).sum_nat.symm

theorem occurring_eq : r.occurring = r.rows.countP (0 < ·.2) := by
  unfold occurring
  rw [← List.countP_eq_length_filter]
  exact (r.rows_perm.countP_eq _).symm

/-- The rows are determined by what is in them. -/
theorem eq_of_pairwise {a b : List (String × Nat)} (ha : a.Pairwise Before)
    (hb : b.Pairwise Before) (h : ∀ row, row ∈ a ↔ row ∈ b) : a = b := by
  have hnodup : ∀ {rows : List (String × Nat)}, rows.Pairwise Before → rows.Nodup :=
    fun hrows => hrows.imp fun hab heq => (heq ▸ hab).asymm (heq ▸ hab)
  have hperm : a.Perm b := (List.perm_ext_iff_of_nodup (hnodup ha) (hnodup hb)).2 h
  exact hperm.eq_of_pairwise (fun _ _ _ _ hxy hyx => (hxy.asymm hyx).elim) ha hb

end Report

/-! ## Counts -/

/-- A requested type that was not counted is reported with zero. -/
theorem get?_reported (types : List String) (type : String) : ∀ counts : Counts,
    (reported types counts).get? type =
      (counts.get? type).or (if type ∈ types then some 0 else none) := by
  induction types with
  | nil => intro counts; simp [reported]
  | cons head rest ih =>
    intro counts
    show (reported rest (if counts.contains head then counts else counts.insert head 0)).get? type = _
    rw [ih]
    by_cases hhead : type = head
    · subst hhead
      cases hget : counts.get? type with
      | some n => simp [StringMap.contains, hget]
      | none => simp [StringMap.contains, hget, StringMap.get?_insert]
    · have hsame : (if counts.contains head then counts else counts.insert head 0).get? type =
          counts.get? type := by
        split
        · rfl
        · rw [StringMap.get?_insert, if_neg hhead]
      rw [hsame]
      simp [hhead]

/-- If no types are asked for, those are counted that a table lists. -/
theorem mem_countedTypes {options : Options} {type : String} :
    type ∈ countedTypes options ↔ type ∈ defaultKeys.keys ∨ type ∈ options.overrides.keys := by
  unfold countedTypes
  rw [StringMap.mem_keys_iff, StringMap.mem_keys_iff, StringMap.mem_keys_iff,
    StringMap.get?_override, Option.isSome_or, Bool.or_eq_true, or_comm]

/-- Whether a type is reported, of which so many nodes were visited. -/
def IsReported (options : Options) (types : List String) (type : String) (n : Nat) : Prop :=
  if types = [] then (type ∈ defaultKeys.keys ∨ type ∈ options.overrides.keys) ∧ 0 < n
  else type ∈ types

/-- The counts that are reported are the numbers of the visited nodes. -/
theorem get?_reported_tally (heap : Heap) (options : Options) (types : List String)
    (nodes : List NodeId) (type : String) (n : Nat) :
    (reported types (Counts.tally heap (if types.isEmpty then countedTypes options else types) ∅
        nodes)).get? type = some n ↔
      n = occurrences heap type nodes ∧ IsReported options types type n := by
  rw [get?_reported, Counts.get?_tally]
  unfold IsReported
  generalize occurrences heap type nodes = count
  cases types with
  | nil =>
    rw [if_pos rfl, if_pos List.isEmpty_nil, if_neg List.not_mem_nil, Option.or_none,
      Option.ite_none_right_eq_some, mem_countedTypes]
    constructor
    · rintro ⟨⟨hlisted, hcount⟩, ⟨⟩⟩
      exact ⟨rfl, hlisted, Nat.pos_of_ne_zero hcount⟩
    · rintro ⟨rfl, hlisted, hcount⟩
      exact ⟨⟨hlisted, Nat.ne_of_gt hcount⟩, rfl⟩
  | cons head rest =>
    have hcounted : (if (head :: rest).isEmpty = true then countedTypes options else head :: rest) =
      head :: rest := if_neg (by simp)
    rw [if_neg (List.cons_ne_nil head rest), hcounted]
    by_cases htype : type ∈ head :: rest
    · by_cases hcount : count = 0
      · subst hcount
        simp [htype, eq_comm]
      · simp [htype, hcount, eq_comm]
    · simp [htype]

/-! ## Documents -/

open Trace (enteredFrom)

section

variable {heap : Heap} {root : NodeId} {options : Options} {σ α : Type} {host : Host σ α} {state : σ}
  {limit : Nat}

/-- Counting succeeds if a walk without handlers does. -/
theorem exists_statsOf (types : List String) (hlimit : countingLimit heap ≤ limit)
    {world : World σ} (h : walk limit ⟨host, options, ∅⟩ .visit (some root) ⟨heap, state⟩ =
      some (.ok (), world)) :
    ∃ counts, (statsOf heap root types options).1 = .ok counts := by
  obtain ⟨outcome, tally, hcount, hwalk⟩ := exists_countNodes heap root
    (if types.isEmpty then countedTypes options else types) options
  obtain ⟨⟨_, hends⟩, -⟩ := hwalk host state limit hlimit
  rw [h] at hends
  cases hends
  unfold statsOf
  dsimp only
  rw [hcount]
  exact ⟨_, rfl⟩

/-- Counting succeeds only if a walk without handlers does, and then tells how many nodes of each
type that walk visits. -/
theorem statsOf_eq_ok {types : List String} {counts : Counts}
    (h : (statsOf heap root types options).1 = .ok counts) (host : Host σ α) (state : σ)
    (hlimit : countingLimit heap ≤ limit) :
    (∃ state', walk limit ⟨host, options, ∅⟩ .visit (some root) ⟨heap, state⟩ =
      some (.ok (), ⟨heap, state'⟩)) ∧
    ∀ type n, counts.get? type = some n ↔
      n = occurrences heap type (enteredFrom limit host options root ⟨heap, state⟩) ∧
        IsReported options types type n := by
  obtain ⟨outcome, tally, hcount, hwalk⟩ := exists_countNodes heap root
    (if types.isEmpty then countedTypes options else types) options
  obtain ⟨hends, hcounts⟩ := hwalk host state limit hlimit
  unfold statsOf at h
  dsimp only at h
  rw [hcount] at h
  cases outcome with
  | error e => cases h
  | ok _ =>
    cases h
    refine ⟨hends, fun type n => ?_⟩
    rw [hcounts]
    exact get?_reported_tally heap options types _ type n

end

section

variable {files : Files} {path : String} {types : List String} {options : Options}

/-- If the file can be read, holds a tree and its nodes are counted, the report is printed. -/
theorem stats_result {text : String} {json : Json} {root : NodeId} {heap : Heap} {counts : Counts}
    (htext : files.read? path = some text) (hjson : Json.read? text = some json)
    (hroot : (∅ : Heap).nodeOfJson? json = (some root, heap))
    (hcounts : (statsOf heap root types options).1 = .ok counts) (format : Format) :
    (stats files path types format options).result =
      .ok (Report.print ⟨path, counts⟩ format) := by
  unfold stats
  simp only [htext, hjson, hroot, hcounts]
  rfl

/-- A report is printed only if the file holds an object and its nodes can be counted; then it is
printed in either format. -/
theorem stats_eq_ok {format : Format} {lines : List String}
    (h : (stats files path types format options).result = .ok lines) :
    ∃ text json root heap counts, files.read? path = some text ∧ Json.read? text = some json ∧
      (∅ : Heap).nodeOfJson? json = (some root, heap) ∧
      (statsOf heap root types options).1 = .ok counts ∧
      ∀ format, (stats files path types format options).result =
        .ok (Report.print ⟨path, counts⟩ format) := by
  unfold stats at h
  cases htext : files.read? path with
  | none =>
    rw [htext] at h
    cases h
  | some text =>
    cases hjson : Json.read? text with
    | none =>
      simp only [htext, hjson] at h
      cases h
    | some json =>
      rcases hroot : (∅ : Heap).nodeOfJson? json with ⟨_ | root, heap⟩
      · simp only [htext, hjson, hroot] at h
        cases h
      · simp only [htext, hjson, hroot] at h
        cases hcounts : (statsOf heap root types options).1 with
        | error e =>
          rw [hcounts] at h
          cases h
        | ok counts =>
          exact ⟨text, json, root, heap, counts, rfl, hjson, hroot, hcounts,
            stats_result htext hjson hroot hcounts⟩

end

/-! ## The report in JSON -/

namespace Report

/-- The members of the counts in the report are the rows of the report as text. -/
theorem perm_countsJson (r : Report) : ∃ members, countsJson r.counts = .object members ∧
    members.Perm (r.rows.map fun row => (row.1, Json.number (.int row.2))) :=
  ⟨_, rfl, (r.rows_perm.map _).symm⟩

/-- A report can be read back if 64 bits hold its total. -/
theorem readable_toJson (r : Report) (h : r.total < 2 ^ 64) (depth : Nat) :
    r.toJson.Readable (depth + 2) := by
  have hfits : ∀ n : Nat, n ≤ r.total → NumberLiteral.fits n = true := by
    intro n hn
    simp [NumberLiteral.fits]
    omega
  have hcounts : (countsJson r.counts).Readable (depth + 1) := by
    refine .object ?_ ?_
    · rw [List.map_map]
      exact r.counts.nodup_keys
    · intro m hm
      obtain ⟨row, hrow, rfl⟩ := List.mem_map.1 hm
      refine .int (hfits row.2 ?_)
      rw [total_eq]
      exact List.le_sum_of_mem (List.mem_map_of_mem (r.rows_perm.mem_iff.2 hrow))
  refine .object (by simp) ?_
  simp only [List.forall_mem_cons, List.not_mem_nil, false_implies, implies_true, and_true]
  exact ⟨.string r.path, .int (hfits r.total (Nat.le_refl _)), hcounts⟩

end Report

/-! ## Reports are complete and in order -/

/-- If a report on a file can be printed, it is as follows, in either format. The file holds a JSON
object. A type has a row just if it was requested or, where no type was, if a table lists it and it
occurs; there is one row for a type, and its count is the number of nodes of the type that a walk
without handlers visits. Greater counts come first, and among equal counts the types in the order of
their bytes. The total is the sum of the counts, and the number of types that of the rows without a
zero. The report in JSON has the same total and the same counts, and its text is read back as this
report, if 64 bits hold the total. -/
theorem stats_report_complete {files : Files} {path : String} {types : List String}
    {format : Format} {options : Options} {lines : List String}
    (h : (stats files path types format options).result = .ok lines) :
    ∃ (text : String) (json : Json) (root : NodeId) (heap : Heap) (rows : List (String × Nat))
      (report : Json) (members : List (String × Json)),
      files.read? path = some text ∧ Json.read? text = some json ∧
      (∅ : Heap).nodeOfJson? json = (some root, heap) ∧
      (∀ (σ α : Type) (host : Host σ α) (state : σ), ∀ limit ≥ countingLimit heap,
        (∃ state', walk limit ⟨host, options, ∅⟩ .visit (some root) ⟨heap, state⟩ =
          some (.ok (), ⟨heap, state'⟩)) ∧
        ∀ type n, (type, n) ∈ rows ↔
          n = occurrences heap type (enteredFrom limit host options root ⟨heap, state⟩) ∧
            IsReported options types type n) ∧
      (rows.map (·.1)).Nodup ∧ rows.Pairwise Report.Before ∧
      (stats files path types .text options).result =
        .ok ((path ++ ":") :: rows.map Report.rowText ++
          ["", s!"Counted {(rows.map (·.2)).sum} nodes of {rows.countP (0 < ·.2)} types"]) ∧
      (stats files path types .json options).result = .ok [report.indented] ∧
      report = .object [("path", .string path),
        ("total", .number (.int ((rows.map (·.2)).sum : Nat))), ("counts", .object members)] ∧
      members.Perm (rows.map fun row => (row.1, .number (.int row.2))) ∧
      ((rows.map (·.2)).sum < 2 ^ 64 → Json.read? report.indented = some report) := by
  obtain ⟨text, json, root, heap, counts, htext, hjson, hroot, hcounts, hprint⟩ := stats_eq_ok h
  let r : Report := ⟨path, counts⟩
  obtain ⟨members, hmembers, hperm⟩ := r.perm_countsJson
  refine ⟨text, json, root, heap, r.rows, r.toJson, members, htext, hjson, hroot, ?_,
    r.nodup_types, r.pairwise_rows, ?_, hprint .json, ?_, hperm, ?_⟩
  · intro σ α host state limit hlimit
    obtain ⟨hends, hoccur⟩ := statsOf_eq_ok hcounts host state hlimit
    exact ⟨hends, fun type n => r.mem_rows.trans (hoccur type n)⟩
  · rw [hprint .text, ← r.total_eq, ← r.occurring_eq]
    rfl
  · rw [← r.total_eq, ← hmembers]
    rfl
  · intro htotal
    rw [← r.total_eq] at htotal
    exact Json.read?_indented (r.readable_toJson htotal 125)

theorem read?_of_text {files : Files} {path text : String} (h : files path = .file text.toUTF8) :
    files.read? path = some text := by
  have hvalid : text.toUTF8.IsValidUTF8 := text.isValidUTF8
  unfold Files.read?
  rw [h]
  show String.fromUTF8? text.toUTF8 = some text
  unfold String.fromUTF8?
  rw [dif_pos hvalid]
  rfl

/-- A file that holds the shelf. -/
def shelfFiles : Files
  | "shelf.json" => .file shelfJson.indented.toUTF8
  | _ => .absent

theorem shelfJson_readable (depth : Nat) : shelfJson.Readable (depth + 3) := by
  have hbook : (Json.object [("type", .string "Book")]).Readable (depth + 1) := by
    refine .object (by simp) ?_
    simpa using Json.Readable.string "Book"
  refine .object (by simp) ?_
  simp only [List.forall_mem_cons, List.not_mem_nil, false_implies, implies_true, and_true]
  refine ⟨.string "Shelf", .array ?_⟩
  simpa using hbook

theorem shelf_reported : ∃ counts,
    (statsOf shelf 2 ["Lamp", "Book", "Chair", "Lamp"] shelfOptions).1 = .ok counts ∧
      occurrences shelf "Book" (enteredFrom 8 idleHost shelfOptions 2 ⟨shelf, ()⟩) = 2 := by
  obtain ⟨tally, hcount, hbooks⟩ := shelf_counted
  obtain ⟨outcome, tally', hcount', hwalk⟩ := exists_countNodes shelf 2 ["Book", "Shelf"]
    shelfOptions
  rw [hcount] at hcount'
  cases hcount'
  obtain ⟨⟨_, hends⟩, hcounts⟩ := hwalk idleHost () 8 (by decide)
  obtain ⟨counts, hreported⟩ := exists_statsOf ["Lamp", "Book", "Chair", "Lamp"] (by decide) hends
  refine ⟨counts, hreported, ?_⟩
  rw [hcounts, Counts.get?_tally] at hbooks
  split at hbooks
  · exact Option.some.inj hbooks
  · cases hbooks

theorem shelf_unvisited {type : String} (htype : type ∉ ["Shelf", "Book", "Property"])
    (nodes : List NodeId) : occurrences shelf type nodes = 0 := by
  refine List.countP_eq_zero.2 fun id _ hid => htype ?_
  rw [← of_decide_eq_true hid]
  exact shelf_type id

theorem stats_report_complete_shelf :
    (stats shelfFiles "shelf.json" ["Lamp", "Book", "Chair", "Lamp"] .text shelfOptions).result =
      .ok ["shelf.json:", "  Book                                  2",
        "  Chair                                 0", "  Lamp                                  0", "",
        "Counted 2 nodes of 1 types"] := by
  have hread : Json.read? shelfJson.indented = some shelfJson :=
    Json.read?_indented (shelfJson_readable 124)
  have htext : shelfFiles.read? "shelf.json" = some shelfJson.indented := read?_of_text rfl
  have hshelf : (∅ : Heap).nodeOfJson? shelfJson = (some 2, shelf) := rfl
  obtain ⟨counts, hcounts, hbooks⟩ := shelf_reported
  obtain ⟨text, json, root, heap, rows, report, members, htext', hjson, hroot, hvisited, -, hordered,
    hlines, -⟩ := stats_report_complete (stats_result htext hread hshelf hcounts .json)
  rw [htext] at htext'
  cases htext'
  rw [hread] at hjson
  cases hjson
  rw [hshelf] at hroot
  cases hroot
  have hlamp := @shelf_unvisited "Lamp" (by decide)
  have hchair := @shelf_unvisited "Chair" (by decide)
  have hrows : rows = [("Book", 2), ("Chair", 0), ("Lamp", 0)] := by
    refine Report.eq_of_pairwise hordered ?_ fun (type, n) => ?_
    · decide
    · rw [(hvisited Unit Empty idleHost () 8 (by decide)).2 type n]
      constructor
      · rintro ⟨rfl, htype⟩
        replace htype : type ∈ ["Lamp", "Book", "Chair", "Lamp"] := htype
        simp only [List.mem_cons, List.not_mem_nil, or_false] at htype
        rcases htype with rfl | rfl | rfl | rfl <;> simp [hbooks, hlamp, hchair]
      · simp only [List.mem_cons, List.not_mem_nil, or_false, Prod.mk.injEq]
        rintro (⟨rfl, rfl⟩ | ⟨rfl, rfl⟩ | ⟨rfl, rfl⟩) <;> simp [IsReported, hbooks, hlamp, hchair]
  rw [hlines, hrows]
  rfl

end SyntaxWalk.Command
