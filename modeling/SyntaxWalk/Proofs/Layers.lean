/-
Handler sets are maps from types to handlers, and laying one set over another is the union of maps
in which the upper one wins. So what a set holds can be read off how it was built, whatever the
nesting: a handler that was set or laid on last counts, and one that was removed is gone, with no
older one below it. The types of a set are stored in some order or other, and its description
sorts them by their bytes: it shows which types there are, and not in what order they came in.
-/
import Mathlib.Data.List.Perm.Basic
import Mathlib.Logic.Function.Basic
import SyntaxWalk.Proofs.ByteOrder
import SyntaxWalk.Proofs.Quoting
import SyntaxWalk.Walk.Visitor

namespace SyntaxWalk

variable {α : Type}

/-! ## Ways to build -/

/-- A way to build a handler set. -/
inductive Assembly (α : Type) where
  | empty
  /-- Sets the handler of a type, in a set of its own or in place. -/
  | on (set : Assembly α) (type : String) (handler : α)
  | remove (set : Assembly α) (type : String)
  | extend (base derived : Assembly α)
  | layeredOver (derived base : Assembly α)

/-- A map over another one: where both have an item, the upper one's stays. -/
def overlay (upper lower : String → Option α) : String → Option α :=
  fun type => (upper type).or (lower type)

namespace Assembly

/-- The set that is built. -/
def handlers : Assembly α → Handlers α
  | .empty => ∅
  | .on set type handler => set.handlers.insert type handler
  | .remove set type => (set.handlers.remove type).2
  | .extend base derived => base.handlers.extend derived.handlers
  | .layeredOver derived base => derived.handlers.layeredOver base.handlers

/-- The map that the set should be. -/
def meaning : Assembly α → String → Option α
  | .empty => fun _ => none
  | .on set type handler => Function.update set.meaning type (some handler)
  | .remove set type => Function.update set.meaning type none
  | .extend base derived => overlay derived.meaning base.meaning
  | .layeredOver derived base => overlay derived.meaning base.meaning

end Assembly

/-- A change of a visitor. -/
inductive Addition (α : Type) where
  | on (type : String) (handler : α)
  | extend (derived : Assembly α)

/-- The visitor after a change. -/
def Visitor.add (v : Visitor α) : Addition α → Visitor α
  | .on type handler => v.on type handler
  | .extend derived => v.extend derived.handlers

/-- The map after a change. -/
def Addition.meaning (map : String → Option α) : Addition α → String → Option α
  | .on type handler => Function.update map type (some handler)
  | .extend derived => overlay derived.meaning map

/-! ## Look-ups -/

namespace Handlers

theorem get?_insert_eq (set : Handlers α) (type : String) (handler : α) :
    (set.insert type handler).get? = Function.update set.get? type (some handler) := by
  funext other
  rw [Record.get?_insert, Function.update_apply]

theorem get?_remove_eq (set : Handlers α) (type : String) :
    (set.remove type).2.get? = Function.update set.get? type none := by
  funext other
  unfold remove
  rw [Record.remove_eq, Function.update_apply]
  exact Record.get?_erase set type other

theorem get?_extend_eq (base derived : Handlers α) :
    (base.extend derived).get? = overlay derived.get? base.get? := by
  funext other
  exact Record.get?_insertAll other derived.entries base derived.distinct

theorem get?_layeredOver_eq (derived base : Handlers α) :
    (derived.layeredOver base).get? = overlay derived.get? base.get? :=
  get?_extend_eq base derived

end Handlers

/-- However a set is built, look-ups in it are those in its map: by induction on how it is built. -/
theorem Assembly.get?_handlers (assembly : Assembly α) :
    assembly.handlers.get? = assembly.meaning := by
  induction assembly with
  | empty => rfl
  | on set type handler ih => rw [handlers, Handlers.get?_insert_eq, ih, meaning]
  | remove set type ih => rw [handlers, Handlers.get?_remove_eq, ih, meaning]
  | extend base derived ihb ihd => rw [handlers, Handlers.get?_extend_eq, ihb, ihd, meaning]
  | layeredOver derived base ihd ihb =>
    rw [handlers, Handlers.get?_layeredOver_eq, ihb, ihd, meaning]

theorem Visitor.get?_add (v : Visitor α) (addition : Addition α) :
    (v.add addition).handlers.get? = addition.meaning v.handlers.get? := by
  cases addition with
  | on type handler => exact Handlers.get?_insert_eq v.handlers type handler
  | extend derived =>
    rw [Addition.meaning, ← derived.get?_handlers]
    exact Handlers.get?_extend_eq v.handlers derived.handlers

/-- Changes of a visitor are changes of its map, one after the other. -/
theorem Visitor.get?_foldl_add : ∀ (additions : List (Addition α)) (v : Visitor α),
    (additions.foldl Visitor.add v).handlers.get? =
      additions.foldl Addition.meaning v.handlers.get?
  | [], _ => rfl
  | addition :: rest, v => by
    rw [List.foldl_cons, List.foldl_cons, get?_foldl_add rest, v.get?_add]

theorem Visitor.options_foldl_add : ∀ (additions : List (Addition α)) (v : Visitor α),
    (additions.foldl Visitor.add v).options = v.options
  | [], _ => rfl
  | addition :: rest, v => by
    rw [List.foldl_cons, options_foldl_add rest]
    cases addition <;> rfl

/-! ## Types -/

/-- What a handler set tells of its types. -/
structure Handlers.TellsTypes (set : Handlers α) : Prop where
  contains_iff : ∀ type, set.contains type = true ↔ ∃ handler, set.get? type = some handler
  removed_iff : ∀ type, (set.remove type).1 = true ↔ set.contains type = true
  nodup : set.types.Nodup
  mem_iff : ∀ type, type ∈ set.types ↔ set.contains type = true
  size_eq : ∀ types : List String, types.Nodup →
    (∀ type, type ∈ types ↔ set.contains type = true) → set.size = types.length
  /-- The description lists the types in quotes, the one with the least bytes first. -/
  described : ∃ listing quoted : List String, listing.Perm set.types ∧
    listing.Pairwise (fun a b => utf8Bytes a < utf8Bytes b) ∧
    List.Forall₂ Text.Quotes listing quoted ∧
    set.describe = "Handlers \x7b types: [" ++ ", ".intercalate quoted ++ "] \x7d"
  /-- The description shows which types there are, and nothing else. -/
  describe_eq_iff : ∀ other : Handlers α, other.describe = set.describe ↔
    ∀ type, other.contains type = set.contains type

namespace Handlers

theorem contains_iff (set : Handlers α) (type : String) :
    set.contains type = true ↔ ∃ handler, set.get? type = some handler := by
  rw [Record.contains_eq]
  exact Option.isSome_iff_exists

theorem mem_types (set : Handlers α) (type : String) :
    type ∈ set.types ↔ set.contains type = true := by
  rw [Record.contains_eq]
  exact Record.mem_keys_iff

theorem nodup_types (set : Handlers α) : set.types.Nodup := set.distinct

/-- Sets with the same types list the same ones, in whatever order. -/
theorem types_perm {a b : Handlers α} (h : ∀ type, a.contains type = b.contains type) :
    a.types.Perm b.types :=
  (List.perm_ext_iff_of_nodup a.nodup_types b.nodup_types).2
    fun type => by rw [mem_types, mem_types, h]

theorem sortedTypes_perm (set : Handlers α) : set.sortedTypes.Perm set.types :=
  List.mergeSort_perm set.types _

/-- The types are sorted, and none comes twice, so each is less than the next. -/
theorem pairwise_sortedTypes (set : Handlers α) : set.sortedTypes.Pairwise (· < ·) := by
  have htrans : ∀ a b c : String, decide (a ≤ b) = true → decide (b ≤ c) = true →
      decide (a ≤ c) = true :=
    fun _ _ _ hab hbc => decide_eq_true (le_trans (of_decide_eq_true hab) (of_decide_eq_true hbc))
  have htotal : ∀ a b : String, (decide (a ≤ b) || decide (b ≤ a)) = true := by
    intro a b
    rw [Bool.or_eq_true, decide_eq_true_iff, decide_eq_true_iff]
    exact le_total a b
  have hle : set.sortedTypes.Pairwise (fun a b => decide (a ≤ b) = true) :=
    List.pairwise_mergeSort htrans htotal set.types
  have hne : set.sortedTypes.Nodup := set.sortedTypes_perm.nodup_iff.2 set.nodup_types
  exact (hle.and hne).imp fun h => lt_of_le_of_ne (of_decide_eq_true h.1) h.2

/-- Ascending lists of the same texts are equal. -/
theorem sortedTypes_eq {a b : Handlers α} (h : ∀ type, a.contains type = b.contains type) :
    a.sortedTypes = b.sortedTypes := by
  have hperm : a.sortedTypes.Perm b.sortedTypes :=
    (a.sortedTypes_perm.trans (types_perm h)).trans b.sortedTypes_perm.symm
  exact hperm.eq_of_pairwise (fun _ _ _ _ hab hba => (lt_asymm hab hba).elim)
    a.pairwise_sortedTypes b.pairwise_sortedTypes

theorem describe_eq (set : Handlers α) : set.describe =
    "Handlers \x7b types: [" ++ ", ".intercalate (set.sortedTypes.map Text.quote) ++ "] \x7d" := by
  unfold describe Text.quoteAll Text.bracket
  refine String.ext ?_
  simp only [String.toList_append, List.append_assoc]
  rfl

theorem forall₂_quotes (texts : List String) :
    List.Forall₂ Text.Quotes texts (texts.map Text.quote) :=
  List.forall₂_map_right_iff.2 (List.forall₂_same.2 fun text _ => Text.quotes_quote text)

/-- Quoted types can be told apart, so a description tells which types there are. -/
theorem describe_eq_iff (a b : Handlers α) :
    a.describe = b.describe ↔ ∀ type, a.contains type = b.contains type := by
  refine ⟨fun h type => ?_, fun h => ?_⟩
  · rw [describe_eq, describe_eq] at h
    have hrow : ", ".intercalate (a.sortedTypes.map Text.quote) =
        ", ".intercalate (b.sortedTypes.map Text.quote) := by
      have hlist := congrArg String.toList h
      rw [String.toList_append, String.toList_append, String.toList_append,
        String.toList_append] at hlist
      exact String.ext (List.append_cancel_left (List.append_cancel_right hlist))
    have hsorted := Text.intercalate_inj (forall₂_quotes _) (forall₂_quotes _) hrow
    rw [Bool.eq_iff_iff, ← mem_types, ← mem_types, ← a.sortedTypes_perm.mem_iff,
      ← b.sortedTypes_perm.mem_iff, hsorted]
  · rw [describe_eq, describe_eq, sortedTypes_eq h]

theorem tellsTypes (set : Handlers α) : set.TellsTypes where
  contains_iff := set.contains_iff
  removed_iff type := by
    unfold remove
    rw [Record.remove_eq, Record.contains_eq]
  nodup := set.nodup_types
  mem_iff := set.mem_types
  size_eq types hnd hmem := by
    have hperm : set.types.Perm types := (List.perm_ext_iff_of_nodup set.nodup_types hnd).2
      fun type => by rw [mem_types, hmem]
    rw [← hperm.length_eq]
    exact (List.length_map _).symm
  described := ⟨set.sortedTypes, _, set.sortedTypes_perm,
    set.pairwise_sortedTypes.imp lt_iff_utf8Bytes_lt.1, forall₂_quotes _, set.describe_eq⟩
  describe_eq_iff other := other.describe_eq_iff set

/-! ## Layers -/

/-- Sets with the same handlers. They may be stored in different orders. -/
def Same (a b : Handlers α) : Prop := ∀ type, a.get? type = b.get? type

theorem Same.contains_eq {a b : Handlers α} (h : a.Same b) (type : String) :
    a.contains type = b.contains type := by
  rw [Record.contains_eq, Record.contains_eq, h]

theorem layeredOver_assoc (a b c : Handlers α) :
    ((a.layeredOver b).layeredOver c).Same (a.layeredOver (b.layeredOver c)) := by
  intro type
  simp only [get?_layeredOver_eq, overlay, Option.or_assoc]

theorem empty_layeredOver (a : Handlers α) : (layeredOver ∅ a).Same a := by
  intro type
  simp only [get?_layeredOver_eq, overlay, Record.get?_empty, Option.none_or]

theorem layeredOver_empty (a : Handlers α) : (a.layeredOver ∅).Same a := by
  intro type
  simp only [get?_layeredOver_eq, overlay, Record.get?_empty, Option.or_none]

/-- Where types are disjoint, it makes no difference which set is the upper one. -/
theorem layeredOver_comm {a b : Handlers α}
    (h : ∀ type, ¬(a.contains type = true ∧ b.contains type = true)) :
    (a.layeredOver b).Same (b.layeredOver a) := by
  intro type
  simp only [get?_layeredOver_eq, overlay]
  cases ha : a.get? type with
  | none => rw [Option.none_or, Option.or_none]
  | some handler =>
    have hb : b.get? type = none := by
      rw [Option.eq_none_iff_forall_ne_some]
      exact fun other hb => h type ⟨(a.contains_iff type).2 ⟨_, ha⟩, (b.contains_iff type).2 ⟨_, hb⟩⟩
    rw [hb, Option.none_or, Option.or_none]

end Handlers

/-- Handler sets are maps, however they are built; layers are unions in which the upper one wins;
and sets tell their types, those with the same handlers in the same words. -/
theorem handler_sets_layer_as_maps (α : Type) :
    (∀ assembly : Assembly α, ∀ type,
      assembly.handlers.get? type = assembly.meaning type) ∧
    (∀ (seed : Option (Assembly α)) (options : Options) (additions : List (Addition α)),
      let v := additions.foldl Visitor.add (.new (seed.map Assembly.handlers) options)
      v.options = options ∧ ∀ type, v.handlers.get? type =
        additions.foldl Addition.meaning ((seed.getD .empty).meaning) type) ∧
    (∀ set : Handlers α, set.TellsTypes) ∧
    (∀ a b : Handlers α, a.Same b →
      a.types.Perm b.types ∧ a.size = b.size ∧ a.describe = b.describe) ∧
    (∀ a b c : Handlers α,
      ((a.layeredOver b).layeredOver c).Same (a.layeredOver (b.layeredOver c))) ∧
    (∀ a : Handlers α, (Handlers.layeredOver ∅ a).Same a ∧ (a.layeredOver ∅).Same a) ∧
    (∀ a b : Handlers α, (∀ type, ¬(a.contains type = true ∧ b.contains type = true)) →
      (a.layeredOver b).Same (b.layeredOver a)) := by
  refine ⟨fun assembly type => congrFun assembly.get?_handlers type,
    fun seed options additions => ⟨?_, fun type => ?_⟩, Handlers.tellsTypes, fun a b hab => ?_,
    Handlers.layeredOver_assoc,
    fun a => ⟨a.empty_layeredOver, a.layeredOver_empty⟩, fun a b h => Handlers.layeredOver_comm h⟩
  · exact Visitor.options_foldl_add additions _
  · rw [Visitor.get?_foldl_add]
    -- A visitor begins with the set that it is given, and without one with the empty set.
    have hseed : (Visitor.new (seed.map Assembly.handlers) options).handlers.get? =
        (seed.getD .empty).meaning := by
      cases seed with
      | none => exact Assembly.empty.get?_handlers
      | some assembly => exact assembly.get?_handlers
    rw [hseed]
  · have hperm := Handlers.types_perm hab.contains_eq
    refine ⟨hperm, ?_, (a.describe_eq_iff b).2 hab.contains_eq⟩
    exact ((List.length_map _).symm.trans hperm.length_eq).trans (List.length_map _)

/-- Of two types, the one that came in first is listed last. -/
theorem handler_sets_layer_as_maps_twoTypes :
    let a : Handlers Nat := Record.empty.insert "Literal" 1
    let b : Handlers Nat := Record.empty.insert "Identifier" 2
    let both : Handlers Nat := a.insert "Identifier" 2
    (∀ type, ¬(a.contains type = true ∧ b.contains type = true)) ∧
      (a.layeredOver b).Same (b.layeredOver a) ∧ both.types = ["Literal", "Identifier"] ∧
      both.describe = "Handlers \x7b types: [\"Identifier\", \"Literal\"] \x7d" := by
  intro a b both
  have hdisjoint : ∀ type, ¬(a.contains type = true ∧ b.contains type = true) := by
    rintro type ⟨ha, hb⟩
    have ha' : type = "Literal" := by
      by_contra hne
      simp [a, Record.contains_eq, Record.get?_insert, hne] at ha
      cases ha
    rw [ha'] at hb
    simp [b, Record.contains_eq, Record.get?_insert] at hb
    cases hb
  obtain ⟨-, -, htells, -, -, -, hcomm⟩ := handler_sets_layer_as_maps Nat
  refine ⟨hdisjoint, hcomm a b hdisjoint, rfl, ?_⟩
  obtain ⟨listing, quoted, hperm, hsorted, hquoted, hdescribe⟩ := (htells both).described
  -- Of the two orders, only one is ascending.
  obtain rfl : listing = ["Identifier", "Literal"] := by
    refine (hperm.trans (List.Perm.swap _ _ _)).eq_of_pairwise
      (fun _ _ _ _ hab hba => (Std.Asymm.asymm _ _ hab hba).elim) hsorted ?_
    rw [List.pairwise_pair]
    exact lt_iff_utf8Bytes_lt.1 (by decide)
  obtain - | ⟨hfirst, - | ⟨hsecond, - | _⟩⟩ := hquoted
  rw [hdescribe, hfirst.eq_of_plain (by decide), hsecond.eq_of_plain (by decide)]
  rfl

end SyntaxWalk
