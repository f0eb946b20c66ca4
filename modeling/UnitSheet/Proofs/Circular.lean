/-
This file says which documents are refused for a cycle.

What a line depends on is known from its tokens, before it is read: every declared name counts,
also where it stands in a unit bracket or is that of a constant. What a line reads is less: the
declared names outside of brackets that are not those of constants, which are exactly the names
in its tree (`Grammar.within_ofLine_iff`). So a cycle of lines that read each other is refused,
and so is a line that only mentions a name whose line leads back to it; a document without either
is not.
-/

import UnitSheet.Proofs.Cycles
import UnitSheet.Proofs.Linked

namespace UnitSheet

/-! ### Tokens outside of brackets -/

namespace Token

/-- The tokens that stand outside of unit brackets, given whether a bracket is open before them. A
bracket reaches to the first closing sign. -/
def outside (inUnit : Bool) : List Token → List Token
  | [] => []
  | token :: rest =>
    if inUnit then outside (!token.isSign .bracket "]") rest
    else if token.isSign .bracket "[" then outside true rest
    else token :: outside false rest

variable {tokens others : List Token} {token : Token}

theorem outside_cons (notOpening : token.isSign .bracket "[" = false) (rest : List Token) :
    outside false (token :: rest) = token :: outside false rest := by
  rw [outside, if_neg Bool.false_ne_true, if_neg (Bool.eq_false_iff.mp notOpening)]

theorem outside_sublist (inUnit : Bool) (tokens : List Token) :
    (outside inUnit tokens).Sublist tokens := by
  induction tokens generalizing inUnit with
  | nil => exact List.Sublist.slnil
  | cons token rest inductionHypothesis =>
    rw [outside]
    split
    · exact (inductionHypothesis _).cons _
    · split
      · exact (inductionHypothesis _).cons _
      · exact (inductionHypothesis _).cons_cons _

/-- No bracket is left open, so that what follows is outside of brackets again. -/
def Closed (tokens : List Token) : Prop :=
  ∀ rest, outside false (tokens ++ rest) = outside false tokens ++ outside false rest

theorem closed_nil : Closed [] :=
  fun _ => rfl

theorem closed_singleton (notOpening : token.isSign .bracket "[" = false) : Closed [token] := by
  intro rest
  rw [List.singleton_append, outside_cons notOpening, outside_cons notOpening]
  rfl

theorem Closed.append (first : Closed tokens) (second : Closed others) :
    Closed (tokens ++ others) := by
  intro rest
  rw [List.append_assoc, first, first, second, List.append_assoc]

/-- What can stand in a bracket does not close it. -/
theorem outside_contents {catalog : Catalog} {contents : List Token} {atoms : List UnitAtom}
    (pieces : contents.mapM (UnitAtom.ofToken catalog) = .ok atoms) (rest : List Token) :
    outside true (contents ++ ⟨.bracket, "]"⟩ :: rest) = outside false rest := by
  induction contents generalizing atoms with
  | nil => rfl
  | cons token contents inductionHypothesis =>
    rw [List.mapM_cons] at pieces
    obtain ⟨atom, piece, pieces⟩ := bind_eq_ok.mp pieces
    obtain ⟨others, atRest, _⟩ := bind_eq_ok.mp pieces
    have notClosing : token.isSign .bracket "]" = false := by
      obtain ⟨kind, text⟩ := token
      cases kind <;> first | rfl | cases piece
    rw [List.cons_append, outside, if_pos rfl, notClosing]
    exact inductionHypothesis atRest

section

variable {catalog : Catalog} {contents : List Token} {atoms : List UnitAtom}
  (pieces : contents.mapM (UnitAtom.ofToken catalog) = .ok atoms)

include pieces

/-- A whole bracket leaves no token outside. -/
theorem outside_bracket : outside false (⟨.bracket, "["⟩ :: (contents ++ [⟨.bracket, "]"⟩])) = [] :=
  outside_contents pieces []

theorem closed_bracket : Closed (⟨.bracket, "["⟩ :: (contents ++ [⟨.bracket, "]"⟩])) := by
  intro rest
  rw [outside_bracket pieces, List.cons_append, List.append_assoc]
  exact outside_contents pieces rest

end

/-! ### Names that are read -/

/-- A name that is used as a value: it stands outside of brackets and is not that of a constant. -/
def Reads (tokens : List Token) (name : String) : Prop :=
  name ∉ Vocabulary.constants ∧ ⟨.literal, name⟩ ∈ outside false tokens

variable {name : String}

theorem not_reads_nil : ¬ Reads [] name :=
  fun reads => absurd reads.2 List.not_mem_nil

theorem Closed.reads_append_iff (closed : Closed tokens) :
    Reads (tokens ++ others) name ↔ Reads tokens name ∨ Reads others name := by
  simp only [Reads, closed others, List.mem_append, and_or_left]

theorem reads_cons_iff (notOpening : token.isSign .bracket "[" = false) :
    Reads (token :: tokens) name ↔
      name ∉ Vocabulary.constants ∧ ⟨.literal, name⟩ = token ∨ Reads tokens name := by
  rw [Reads, outside_cons notOpening, List.mem_cons, and_or_left]
  rfl

theorem reads_name_iff {known : String} :
    Reads (⟨.literal, known⟩ :: tokens) name ↔
      known ∉ Vocabulary.constants ∧ name = known ∨ Reads tokens name := by
  rw [reads_cons_iff rfl, Token.mk.injEq, and_iff_right rfl]
  exact or_congr_left (and_congr_left fun same => same ▸ Iff.rfl)

/-- Numbers, operators and parentheses are not names. -/
theorem reads_sign_iff (kind : Kind) {text : String} (notName : kind ≠ .literal)
    (notBracket : kind ≠ .bracket) : Reads (⟨kind, text⟩ :: tokens) name ↔ Reads tokens name := by
  have notOpening : isSign ⟨kind, text⟩ .bracket "[" = false := by
    rw [isSign, beq_false_of_ne notBracket, Bool.false_and]
  rw [reads_cons_iff notOpening, or_iff_right]
  rintro ⟨_, same⟩
  exact notName (congrArg Token.kind same).symm

theorem not_reads_bracket {catalog : Catalog} {contents : List Token} {atoms : List UnitAtom}
    (pieces : contents.mapM (UnitAtom.ofToken catalog) = .ok atoms) :
    ¬ Reads (⟨.bracket, "["⟩ :: (contents ++ [⟨.bracket, "]"⟩])) name := by
  rintro ⟨_, member⟩
  rw [outside_bracket pieces] at member
  cases member

end Token

/-! ### Names in trees -/

namespace Grammar

variable {vocabulary : Vocabulary} {name : String}

mutual

/-- The tokens of an operand leave no bracket open. -/
theorem closed_of_operand {tokens : List Token} {tree : Node} :
    Operand vocabulary tokens tree → Token.Closed tokens
  | .number _ => Token.closed_singleton rfl
  | .constant _ => Token.closed_singleton rfl
  | .reference _ => Token.closed_singleton rfl
  | .function _ argument => (Token.closed_singleton rfl).append (closed_of_operand argument)
  | .parenthesis group => (Token.closed_singleton rfl).append
      ((closed_of_group group).append (Token.closed_singleton rfl))

theorem closed_of_sequence {tokens : List Token} {items : List Node} {unit : CompoundUnit Float} :
    Sequence vocabulary tokens items unit → Token.Closed tokens
  | .empty => Token.closed_nil
  | .operand sequence operand => (closed_of_sequence sequence).append (closed_of_operand operand)
  | .operator _ sequence => (closed_of_sequence sequence).append (Token.closed_singleton rfl)
  | .bracket sequence contents _ =>
    (closed_of_sequence sequence).append (Token.closed_bracket contents)

theorem closed_of_group {tokens : List Token} {tree : Node} :
    Group vocabulary tokens tree → Token.Closed tokens
  | .group sequence _ _ => closed_of_sequence sequence

end

mutual

/-- The declared names in the tree of an operand are those that are read. -/
theorem within_operand_iff (declared : name ∈ vocabulary.declared) {tokens : List Token}
    {tree : Node} : Operand vocabulary tokens tree →
      (Node.Within (.reference name) tree ↔ Token.Reads tokens name)
  | .number _ => by
    rw [Token.reads_sign_iff .number nofun nofun, Node.within_iff_eq rfl]
    exact iff_of_false nofun Token.not_reads_nil
  | .constant known => by
    rw [Token.reads_name_iff, Node.within_iff_eq rfl]
    refine iff_of_false nofun ?_
    rintro (⟨notConstant, _⟩ | reads)
    · exact notConstant known
    · exact Token.not_reads_nil reads
  | .reference known => by
    rw [Token.reads_name_iff, Node.within_iff_eq rfl, or_iff_left Token.not_reads_nil,
      and_iff_right known.1, Node.reference.injEq]
  | .function known argument => by
    rw [Node.within_function_iff (Node.isKept_reference name), within_operand_iff declared argument,
      Token.reads_name_iff, or_iff_right]
    rintro ⟨_, rfl⟩
    exact known.2.1 declared
  | .parenthesis group => by
    rw [within_group_iff declared group, Token.reads_sign_iff .paren nofun nofun,
      (closed_of_group group).reads_append_iff, Token.reads_sign_iff .paren nofun nofun,
      or_iff_left Token.not_reads_nil]

/-- The declared names among the items of a group are those that are read. -/
theorem within_sequence_iff (declared : name ∈ vocabulary.declared) {tokens : List Token}
    {items : List Node} {unit : CompoundUnit Float} : Sequence vocabulary tokens items unit →
      ((∃ item ∈ items, Node.Within (.reference name) item) ↔ Token.Reads tokens name)
  | .empty => iff_of_false nofun Token.not_reads_nil
  | .operand sequence operand => by
    rw [(closed_of_sequence sequence).reads_append_iff, ← within_sequence_iff declared sequence,
      ← within_operand_iff declared operand]
    simp only [List.mem_append, List.mem_singleton, or_and_right, exists_or, exists_eq_left]
  | .operator _ sequence => by
    rw [(closed_of_sequence sequence).reads_append_iff, ← within_sequence_iff declared sequence,
      Token.reads_sign_iff .operator nofun nofun, or_iff_left Token.not_reads_nil]
    simp only [List.mem_append, List.mem_singleton, or_and_right, exists_or, exists_eq_left,
      not_within_sign (Node.isKept_reference name), or_false]
  | .bracket sequence contents _ => by
    rw [(closed_of_sequence sequence).reads_append_iff,
      or_iff_left (Token.not_reads_bracket contents), within_sequence_iff declared sequence]

/-- The declared names in the tree of a group are those that are read. -/
theorem within_group_iff (declared : name ∈ vocabulary.declared) {tokens : List Token}
    {tree : Node} : Group vocabulary tokens tree →
      (Node.Within (.reference name) tree ↔ Token.Reads tokens name)
  | .group sequence signed level => by
    have kept := Node.isKept_reference name
    rw [Node.within_group_iff, within_level_iff kept level, ← within_signed_iff kept signed,
      within_sequence_iff declared sequence]

end

/-- The names in the tree of a line are the declared ones that are read. -/
theorem within_ofLine_iff {tokens : List Token} {tree : Node}
    (scanned : ∀ token ∈ tokens, ∃ line, token ∈ Token.scan line)
    (equal : Node.ofLine vocabulary tokens = .ok tree) :
    Node.Within (.reference name) tree ↔ name ∈ vocabulary.declared ∧ Token.Reads tokens name := by
  by_cases blank : tokens = []
  · subst blank
    cases equal
    exact iff_of_false (Node.not_within_blank name) fun reads => Token.not_reads_nil reads.2
  · by_cases declared : name ∈ vocabulary.declared
    · rw [within_group_iff declared (group_of_ofLine blank (operators_of_scanned scanned) equal),
        and_iff_right declared]
    · have expression := expression_of_ofLine blank scanned equal
      exact iff_of_false (fun within => declared (expression.refers_of_within within).1.2)
        fun reads => declared reads.1

end Grammar

/-! ### Documents -/

namespace Draft

variable {drafts : List Draft} {line other : Nat}

/-- A line reads another one: it uses a name as a value that stands for the other line. -/
def ReadsLine (drafts : List Draft) (line other : Nat) : Prop :=
  ∃ draft name, drafts[line]? = some draft ∧ Token.Reads draft.tokens name ∧
    (declarations drafts).find? name = some other

/-- A line has a name that stands for another line but does not use it as a value: it is that of a
constant, or stands in brackets only. -/
def OnlyMentions (drafts : List Draft) (line other : Nat) : Prop :=
  ∃ draft name, drafts[line]? = some draft ∧ ⟨.literal, name⟩ ∈ draft.tokens ∧
    ¬ Token.Reads draft.tokens name ∧ (declarations drafts).find? name = some other

/-- A line depends on those that it reads and on those that it only mentions. -/
theorem dependsOn_iff : (dependencies drafts).DependsOn line other ↔
    ReadsLine drafts line other ∨ OnlyMentions drafts line other := by
  rw [dependencies, dependsOn_mentioned_iff]
  constructor
  · rintro ⟨draft, name, found, member, stands⟩
    by_cases reads : Token.Reads draft.tokens name
    · exact .inl ⟨draft, name, found, reads, stands⟩
    · exact .inr ⟨draft, name, found, member, reads, stands⟩
  · rintro (⟨draft, name, found, reads, stands⟩ | ⟨draft, name, found, member, _, stands⟩)
    · exact ⟨draft, name, found, (Token.outside_sublist _ _).subset reads.2, stands⟩
    · exact ⟨draft, name, found, member, stands⟩

/-- A way along dependencies is one of readings alone, or passes through a mere mention. -/
theorem reads_or_mentions (leads : Relation.TransGen (dependencies drafts).DependsOn line other) :
    Relation.TransGen (ReadsLine drafts) line other ∨
      ∃ first second, OnlyMentions drafts first second ∧
        (dependencies drafts).Leads line first ∧ (dependencies drafts).Leads second other := by
  induction leads with
  | single depends =>
    rcases dependsOn_iff.mp depends with reads | mentions
    · exact .inl (.single reads)
    · exact .inr ⟨_, _, mentions, .refl, .refl⟩
  | tail before depends inductionHypothesis =>
    rcases inductionHypothesis with readings | ⟨first, second, mentions, toFirst, fromSecond⟩
    · rcases dependsOn_iff.mp depends with reads | mentions
      · exact .inl (readings.tail reads)
      · exact .inr ⟨_, _, mentions, before.to_reflTransGen, .refl⟩
    · exact .inr ⟨first, second, mentions, toFirst, fromSecond.tail depends⟩

/-- A cycle is one of lines that read each other, or it has a mere mention that is led back from. -/
theorem isCyclic_dependencies_iff (drafts : List Draft) :
    (dependencies drafts).isCyclic = true ↔
      (∃ line, Relation.TransGen (ReadsLine drafts) line line) ∨
        ∃ line other, OnlyMentions drafts line other ∧
          (dependencies drafts).Leads other line := by
  have valid := valid_dependencies drafts
  constructor
  · intro cyclic
    obtain ⟨line, cycle⟩ := Dependencies.exists_cycle_of_isCyclic valid cyclic
    rcases reads_or_mentions cycle with readings | ⟨first, second, mentions, toFirst, fromSecond⟩
    · exact .inl ⟨line, readings⟩
    · exact .inr ⟨first, second, mentions, fromSecond.trans toFirst⟩
  · rintro (⟨line, readings⟩ | ⟨line, other, mentions, back⟩)
    · have cycle : Relation.TransGen (dependencies drafts).DependsOn line line :=
        readings.lift id fun _ _ reads => dependsOn_iff.mpr (.inl reads)
      exact Dependencies.isCyclic_of_cycle valid cycle
    · have cycle : Relation.TransGen (dependencies drafts).DependsOn line line :=
        Relation.TransGen.head' (dependsOn_iff.mpr (.inr mentions)) back
      exact Dependencies.isCyclic_of_cycle valid cycle

end Draft

namespace Sheet

/-- A document is refused exactly when some line leads back to itself through names that lines use
as values, or some line merely mentions a name, as that of a unit or of a constant, whose line
leads back to it. The names in the tree of a line are exactly the declared ones that it uses as
values. -/
theorem compile_refuses (catalog : Catalog) (source : String) :
    let drafts := (Text.sheetLines source).map Draft.ofText
    let names := Draft.declarations drafts
    (compile catalog source = .error ⟨⟩ ↔
      (∃ line, Relation.TransGen (Draft.ReadsLine drafts) line line) ∨
        ∃ line other, Draft.OnlyMentions drafts line other ∧
          (Draft.dependencies drafts).Leads other line) ∧
    (∀ draft ∈ drafts, ∀ tree, (Line.ofDraft catalog names draft).tree = .ok tree → ∀ name,
      Node.Within (.reference name) tree ↔ name ∈ names.keys ∧ Token.Reads draft.tokens name) := by
  intro drafts names
  constructor
  · exact compile_eq_error_iff.trans (Draft.isCyclic_dependencies_iff drafts)
  · intro draft member tree equal name
    obtain ⟨text, _, rfl⟩ := List.mem_map.mp member
    exact Grammar.within_ofLine_iff (Draft.scanned_ofText text) (Line.ofLine_of_tree equal)

/-- A name that is also that of the unit it is given in: the line reads nothing, but the document
is refused. -/
theorem compile_refuses_unit_name :
    (∀ line, ¬ Relation.TransGen
      (Draft.ReadsLine ((Text.sheetLines "m: 5 [m]").map Draft.ofText)) line line) ∧
    compile Catalog.builtin "m: 5 [m]" = .error ⟨⟩ := by
  have outside : ((Text.sheetLines "m: 5 [m]").map Draft.ofText).map
      (fun draft => Token.outside false draft.tokens) = [[⟨.number, "5"⟩]] := by
    cbv
  have cyclic : (Draft.dependencies
      ((Text.sheetLines "m: 5 [m]").map Draft.ofText)).isCyclic = true := by
    cbv
  constructor
  · intro line cycle
    obtain ⟨_, ⟨draft, name, found, reads, _⟩, _⟩ := Relation.TransGen.head'_iff.mp cycle
    have member := List.mem_map_of_mem (f := fun draft => Token.outside false draft.tokens)
      (List.mem_of_getElem? found)
    rw [outside, List.mem_singleton] at member
    rw [Token.Reads, member, List.mem_singleton] at reads
    cases reads.2
  · exact compile_eq_error_iff.mpr cyclic

end Sheet

end UnitSheet
