/-
This file says which tokens a line is cut into.

Both ways of cutting a line make the same tokens where they make any (`eq_scan_of_read`), and
the text of an operator is one of the five operators that have a level
(`operator_mem_foldOrder`).
-/

import UnitSheet.Expression.Line
import UnitSheet.Proofs.Result
import UnitSheet.Token.Scan

namespace UnitSheet.Token

/-- Every token of a line stands at the start of some rest of it. -/
theorem exists_leading_of_mem_scan {token : Token} (line : List Char) (member : token ∈ scan line) :
    ∃ first rest, token = leading first rest := by
  match line with
  | [] =>
    rw [scan] at member
    cases member
  | first :: rest =>
    rw [scan] at member
    rcases List.mem_cons.mp member with same | member
    · exact ⟨first, rest, same⟩
    · exact exists_leading_of_mem_scan (afterLeading first rest) member
termination_by line.length
decreasing_by exact length_afterLeading_lt first rest

/-- A line that is read has the tokens that it is cut into permissively. -/
theorem eq_scan_of_readFrom (column : Nat) (line : List Char) {tokens : List Token}
    (equal : readFrom column line = .ok tokens) : tokens = scan line := by
  match line with
  | [] =>
    rw [readFrom] at equal
    cases equal
    rw [scan]
  | first :: rest =>
    rw [readFrom] at equal
    split at equal
    · cases equal
    · obtain ⟨others, restEqual, equal⟩ := bind_eq_ok.mp equal
      cases equal
      rw [scan, eq_scan_of_readFrom _ (afterLeading first rest) restEqual]
termination_by line.length
decreasing_by exact length_afterLeading_lt first rest

theorem eq_scan_of_read {line : List Char} {tokens : List Token}
    (equal : read line = .ok tokens) : tokens = scan line :=
  eq_scan_of_readFrom 1 line equal

/-- Only an operator begins a token of that kind. -/
theorem isOperator_of_ofFirst {first : Char} (operator : Kind.ofFirst first = .operator) :
    isOperator first = true := by
  unfold Kind.ofFirst at operator
  repeat' split at operator
  all_goals first | assumption | cases operator

/-- An operator that is cut from a line is one of those that are folded. -/
theorem operator_mem_foldOrder {token : Token} {line : List Char} (member : token ∈ scan line)
    (operator : token.kind = .operator) : token.text ∈ Node.foldOrder := by
  obtain ⟨first, rest, rfl⟩ := exists_leading_of_mem_scan line member
  have kind : Kind.ofFirst first = .operator := operator
  have text : (leading first rest).text = String.ofList [first] := by
    have none : rest.takeWhile (Kind.ofFirst first).continues = [] := by
      rw [kind]
      cases rest <;> rfl
    show String.ofList (first :: rest.takeWhile (Kind.ofFirst first).continues) = _
    rw [none]
  have signs := isOperator_of_ofFirst kind
  simp only [isOperator, Bool.or_eq_true, beq_iff_eq] at signs
  rw [text]
  rcases signs with (((rfl | rfl) | rfl) | rfl) | rfl <;> decide

end UnitSheet.Token
