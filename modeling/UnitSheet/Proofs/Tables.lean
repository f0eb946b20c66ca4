/-
This file says what is found in tables.

A table made of a list of entries has under every key the last value that the list has for it.
-/

import Mathlib.Order.Bounds.Defs
import UnitSheet.Table

namespace UnitSheet.Table

variable {α : Type}

theorem mem_of_lookup {entries : List (String × α)} {key : String} {value : α}
    (found : entries.lookup key = some value) : (key, value) ∈ entries := by
  obtain ⟨before, after, split, _⟩ := List.lookup_eq_some_iff.mp found
  rw [split]
  exact List.mem_append_right _ List.mem_cons_self

/-- After several values are put, the last one under a key is found. -/
theorem find?_putAll (table : Table α) (entries : List (String × α)) (key : String) :
    (table.putAll entries).find? key = (entries.reverse.lookup key).or (table.find? key) := by
  induction entries generalizing table with
  | nil => rfl
  | cons entry rest inductionHypothesis =>
    obtain ⟨known, value⟩ := entry
    rw [show table.putAll ((known, value) :: rest) = (table.put known value).putAll rest from rfl,
      inductionHypothesis, find?_put, List.reverse_cons, List.lookup_append, lookup_cons,
      Option.or_assoc]
    by_cases same : key = known
    · rw [if_pos same, if_pos same, Option.some_or]
    · rw [if_neg same, if_neg same, List.lookup_nil, Option.none_or]

theorem find?_ofList (entries : List (String × α)) (key : String) :
    (ofList entries).find? key = entries.reverse.lookup key := by
  rw [ofList, find?_putAll, show (empty : Table α).find? key = none from rfl, Option.or_none]

theorem mem_of_find?_ofList {entries : List (String × α)} {key : String} {value : α}
    (found : (ofList entries).find? key = some value) : (key, value) ∈ entries := by
  rw [find?_ofList] at found
  exact List.mem_reverse.mp (mem_of_lookup found)

/-- The keys are those under which something is found. -/
theorem mem_keys_iff (table : Table α) (key : String) :
    key ∈ table.keys ↔ ∃ value, table.find? key = some value := by
  rw [← Option.isSome_iff_exists, find?, List.lookup_isSome_iff, keys, List.mem_map]
  constructor
  · rintro ⟨entry, member, rfl⟩
    exact ⟨entry, member, beq_self_eq_true _⟩
  · rintro ⟨entry, member, same⟩
    exact ⟨entry, member, (eq_of_beq same).symm⟩

theorem mem_keys_ofList (entries : List (String × α)) (key : String) :
    key ∈ (ofList entries).keys ↔ ∃ value, (key, value) ∈ entries := by
  rw [mem_keys_iff, ← Option.isSome_iff_exists, find?_ofList, List.lookup_isSome_iff]
  constructor
  · rintro ⟨⟨_, value⟩, member, same⟩
    cases eq_of_beq same
    exact ⟨value, List.mem_reverse.mp member⟩
  · rintro ⟨value, member⟩
    exact ⟨(key, value), List.mem_reverse.mpr member, beq_self_eq_true key⟩

/-- In a list with decreasing values the first one under a key is the greatest. -/
theorem lookup_eq_some_iff_isGreatest {entries : List (String × Nat)}
    (decreasing : entries.Pairwise fun first second => second.2 < first.2) (key : String)
    (value : Nat) :
    entries.lookup key = some value ↔ IsGreatest {other | (key, other) ∈ entries} value := by
  induction entries with
  | nil => exact ⟨nofun, fun greatest => absurd greatest.1 List.not_mem_nil⟩
  | cons entry rest inductionHypothesis =>
    obtain ⟨known, first⟩ := entry
    obtain ⟨below, decreasing⟩ := List.pairwise_cons.mp decreasing
    rw [lookup_cons]
    by_cases same : key = known
    · subst same
      rw [if_pos rfl]
      constructor
      · rintro equal
        cases equal
        refine ⟨List.mem_cons_self, fun other member => ?_⟩
        rcases List.mem_cons.mp member with equal | member
        · exact Nat.le_of_eq (congrArg Prod.snd equal)
        · exact Nat.le_of_lt (below _ member)
      · rintro ⟨member, greatest⟩
        rcases List.mem_cons.mp member with equal | member
        · exact congrArg some (congrArg Prod.snd equal).symm
        · exact absurd (below _ member) (Nat.not_lt_of_le (greatest List.mem_cons_self))
    · have inRest : ∀ other, (key, other) ∈ (known, first) :: rest ↔ (key, other) ∈ rest := by
        intro other
        rw [List.mem_cons, or_iff_right]
        exact fun equal => same (congrArg Prod.fst equal)
      rw [if_neg same, inductionHypothesis decreasing]
      simp only [inRest]

end UnitSheet.Table
