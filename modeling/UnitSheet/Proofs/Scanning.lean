/-
This file says that a line is cut into tokens in one way only.

What the tokens of a line are is stated without a scanner: their texts make up the line, each text
follows the rule of its kind, a comment is last, and no token is followed by a character that would
go on with it (`Token.Cuts`). The first character of a text decides its kind, because no character
begins texts of two kinds, and the end of a token is where it cannot go on. So the first token of a
line is known, and by induction all are (`cuts_iff_eq_scan`).
-/

import UnitSheet.Proofs.Words

namespace UnitSheet.Token

/-! ### The rules -/

/-- The texts of each kind of token, apart from characters that begin none of them. -/
inductive Rule : Kind → List Char → Prop
  | comment (rest : List Char) : Rule .comment ('#' :: rest)
  | whitespace {first : Char} {rest : List Char} : isSpacing first = true →
      (∀ next ∈ rest, isSpacing next = true) → Rule .whitespace (first :: rest)
  | paren {sign : Char} : sign = '(' ∨ sign = ')' → Rule .paren [sign]
  | bracket {sign : Char} : sign = '[' ∨ sign = ']' → Rule .bracket [sign]
  | definition : Rule .definition [':']
  | operator {sign : Char} : sign ∈ ['+', '-', '*', '/', '^'] → Rule .operator [sign]
  | number {first : Char} {rest : List Char} : first.isDigit = true →
      (∀ next ∈ rest, isNumeric next = true) → Rule .number (first :: rest)
  | literal {first : Char} {rest : List Char} : beginsName first = true →
      (∀ next ∈ rest, continuesName next = true) → Rule .literal (first :: rest)

/-- The texts of each kind of token. An unknown character is one that begins no text of any other
kind. -/
inductive Fits : Kind → List Char → Prop
  | rule {kind : Kind} {text : List Char} : Rule kind text → Fits kind text
  | unknown {character : Char} : (∀ kind rest, ¬ Rule kind (character :: rest)) →
      Fits .unknown [character]

/-- A character that would go on with a token of a kind. -/
def Extends : Kind → Char → Prop
  | .whitespace, next => isSpacing next = true
  | .number, next => isNumeric next = true
  | .literal, next => continuesName next = true
  | _, _ => False

/-- The texts of tokens, one after the other. -/
def texts (tokens : List Token) : List Char :=
  tokens.flatMap fun token => token.text.toList

/-- A line is cut into tokens: nothing of it is lost, every token follows a rule, a comment is the
last token, and every token is as long as it can be. -/
structure Cuts (line : List Char) (tokens : List Token) : Prop where
  whole : texts tokens = line
  nonempty : ∀ token ∈ tokens, token.text ≠ ""
  fits : ∀ token ∈ tokens, Fits token.kind token.text.toList
  comment : ∀ token after, token :: after <:+ tokens → token.kind = .comment → after = []
  maximal : ∀ token after, token :: after <:+ tokens →
    ∀ next ∈ (texts after).head?, ¬ Extends token.kind next

variable {kind : Kind} {first : Char} {line run rest : List Char} {token : Token}
  {tokens : List Token}

/-! ### The kind of a token -/

theorem ofFirst_of_isDigit (digit : first.isDigit = true) : Kind.ofFirst first = .number := by
  obtain ⟨value, rfl⟩ := Decimal.exists_asciiDigit digit
  clear digit
  revert value
  decide

/-- The first character decides which rule a text follows. -/
theorem ofFirst_of_rule (rule : Rule kind (first :: rest)) : Kind.ofFirst first = kind := by
  cases rule with
  | comment => rfl
  | whitespace blank =>
    rw [isSpacing, Bool.or_eq_true, beq_iff_eq, beq_iff_eq] at blank
    rcases blank with rfl | rfl <;> rfl
  | paren sign => rcases sign with rfl | rfl <;> rfl
  | bracket sign => rcases sign with rfl | rfl <;> rfl
  | definition => rfl
  | operator sign =>
    revert sign
    simp only [List.mem_cons, List.not_mem_nil, or_false]
    rintro (rfl | rfl | rfl | rfl | rfl) <;> rfl
  | number digit => exact ofFirst_of_isDigit digit
  | literal begins => exact ofFirst_of_beginsName begins

/-- The rest of a text goes on with its kind. -/
theorem continues_of_rule (rule : Rule kind (first :: rest)) :
    ∀ next ∈ rest, kind.continues next = true := by
  cases rule with
  | comment => exact fun _ _ => rfl
  | whitespace _ goesOn | number _ goesOn | literal _ goesOn => exact goesOn
  | paren | bracket | definition | operator => exact fun _ member => absurd member List.not_mem_nil

/-- A rule that a character begins is followed as long as the kind goes on. -/
theorem Rule.regrow (rule : Rule kind (first :: rest))
    (goesOn : ∀ next ∈ run, kind.continues next = true) : Rule kind (first :: run) := by
  have alone (stops : ∀ next, kind.continues next = false) : run = [] := by
    cases run with
    | nil => rfl
    | cons next others => exact absurd (goesOn next List.mem_cons_self) (by simp [stops])
  cases rule with
  | comment => exact .comment run
  | whitespace begins => exact .whitespace begins goesOn
  | paren sign => exact alone (fun _ => rfl) ▸ .paren sign
  | bracket sign => exact alone (fun _ => rfl) ▸ .bracket sign
  | definition => exact alone (fun _ => rfl) ▸ .definition
  | operator sign => exact alone (fun _ => rfl) ▸ .operator sign
  | number begins => exact .number begins goesOn
  | literal begins => exact .literal begins goesOn

/-- A character of a known kind begins a text of that kind. -/
theorem unknown_or_rule (first : Char) :
    Kind.ofFirst first = .unknown ∨ Rule (Kind.ofFirst first) [first] := by
  have none (continues : Char → Bool) : ∀ next ∈ [], continues next = true :=
    fun _ member => absurd member List.not_mem_nil
  unfold Kind.ofFirst
  split_ifs with comment blank paren bracket definition operator digit name
  · rw [eq_of_beq comment]
    exact .inr (.comment [])
  · exact .inr (.whitespace blank (none _))
  · rw [Bool.or_eq_true, beq_iff_eq, beq_iff_eq] at paren
    exact .inr (.paren paren)
  · rw [Bool.or_eq_true, beq_iff_eq, beq_iff_eq] at bracket
    exact .inr (.bracket bracket)
  · rw [eq_of_beq definition]
    exact .inr .definition
  · simp only [isOperator, Bool.or_eq_true, beq_iff_eq, or_assoc] at operator
    exact .inr (.operator (by simpa using operator))
  · exact .inr (.number digit (none _))
  · exact .inr (.literal name (none _))
  · exact .inl rfl

/-- A text that goes on with the kind of its first character fits that kind. -/
theorem fits_ofFirst (goesOn : ∀ next ∈ run, (Kind.ofFirst first).continues next = true) :
    Fits (Kind.ofFirst first) (first :: run) := by
  rcases unknown_or_rule first with unknown | rule
  · rw [unknown] at goesOn ⊢
    have alone : run = [] := by
      cases run with
      | nil => rfl
      | cons next others => exact absurd (goesOn next List.mem_cons_self) Bool.false_ne_true
    rw [alone]
    refine .unknown fun kind rest rule => ?_
    rw [ofFirst_of_rule rule] at unknown
    subst unknown
    cases rule
  · exact .rule (rule.regrow goesOn)

/-- A text that fits a kind has a first character of that kind and goes on with it. -/
theorem Fits.exists_cons {text : List Char} (fits : Fits kind text) : ∃ first run,
    text = first :: run ∧ Kind.ofFirst first = kind ∧ ∀ next ∈ run, kind.continues next = true := by
  cases fits with
  | rule rule =>
    obtain ⟨first, run, rfl⟩ : ∃ first run, text = first :: run := by
      cases rule <;> exact ⟨_, _, rfl⟩
    exact ⟨first, run, rfl, ofFirst_of_rule rule, continues_of_rule rule⟩
  | @unknown character unknown =>
    refine ⟨character, [], rfl, ?_, fun _ member => absurd member List.not_mem_nil⟩
    exact (unknown_or_rule character).resolve_right (unknown _ _)

/-- Apart from comments, which go on to the end of the line, a token goes on with what extends
it. -/
theorem extends_iff (other : kind ≠ .comment) {next : Char} :
    Extends kind next ↔ kind.continues next = true := by
  cases kind <;> first | exact Iff.rfl | exact (other rfl).elim | exact iff_of_false id nofun

/-! ### One token after the other -/

theorem texts_cons (token : Token) (tokens : List Token) :
    texts (token :: tokens) = token.text.toList ++ texts tokens :=
  List.flatMap_cons

/-- A line is cut into a first token and those of the rest of it. -/
theorem cuts_cons_iff : Cuts line (token :: tokens) ↔
    ∃ rest, line = token.text.toList ++ rest ∧ token.text ≠ "" ∧
      Fits token.kind token.text.toList ∧ (token.kind = .comment → tokens = []) ∧
      (∀ next ∈ rest.head?, ¬ Extends token.kind next) ∧ Cuts rest tokens := by
  constructor
  · intro cuts
    have inTail {after : List Token} (suffix : after <:+ tokens) : after <:+ token :: tokens :=
      suffix.trans (List.suffix_cons token tokens)
    refine ⟨texts tokens, ?_, cuts.nonempty token List.mem_cons_self,
      cuts.fits token List.mem_cons_self, cuts.comment token tokens (List.suffix_refl _),
      cuts.maximal token tokens (List.suffix_refl _), rfl, ?_, ?_, ?_, ?_⟩
    · rw [← cuts.whole, texts_cons]
    · exact fun other member => cuts.nonempty other (List.mem_cons_of_mem _ member)
    · exact fun other member => cuts.fits other (List.mem_cons_of_mem _ member)
    · exact fun other after suffix => cuts.comment other after (inTail suffix)
    · exact fun other after suffix => cuts.maximal other after (inTail suffix)
  · rintro ⟨rest, rfl, nonempty, fits, comment, maximal, cuts⟩
    -- A suffix is the whole list, which is about the first token, or one of the tail.
    refine ⟨?_, List.forall_mem_cons.mpr ⟨nonempty, cuts.nonempty⟩,
      List.forall_mem_cons.mpr ⟨fits, cuts.fits⟩, ?_, ?_⟩
    · rw [texts_cons, cuts.whole]
    · intro other after suffix
      rcases List.suffix_cons_iff.mp suffix with same | suffix
      · cases same
        exact comment
      · exact cuts.comment other after suffix
    · intro other after suffix
      rcases List.suffix_cons_iff.mp suffix with same | suffix
      · cases same
        rw [cuts.whole]
        exact maximal
      · exact cuts.maximal other after suffix

theorem cuts_nil_iff : Cuts line [] ↔ line = [] := by
  constructor
  · exact fun cuts => cuts.whole.symm
  · rintro rfl
    exact ⟨rfl, nofun, nofun, fun _ _ suffix => absurd suffix (by simp),
      fun _ _ suffix => absurd suffix (by simp)⟩

/-- Scanning a line cuts it. -/
theorem cuts_scan (line : List Char) : Cuts line (scan line) := by
  induction line using scan.induct with
  | case1 =>
    rw [scan]
    exact cuts_nil_iff.mpr rfl
  | case2 first rest inductionHypothesis =>
    have text : (leading first rest).text.toList =
        first :: rest.takeWhile (Kind.ofFirst first).continues := String.toList_ofList
    rw [scan]
    refine cuts_cons_iff.mpr ⟨afterLeading first rest, ?_, ?_, ?_, ?_, ?_, inductionHypothesis⟩
    · rw [text, List.cons_append, afterLeading, List.takeWhile_append_dropWhile]
    · rintro empty
      rw [empty] at text
      cases text
    · rw [text]
      exact fits_ofFirst fun _ => List.mem_takeWhile_imp
    · intro comment
      have goesOn (next : Char) : (Kind.ofFirst first).continues next = true := by
        rw [show Kind.ofFirst first = .comment from comment]
        rfl
      rw [afterLeading, List.dropWhile_eq_nil_iff.mpr fun next _ => goesOn next, scan]
    · intro next member extended
      have stops : (Kind.ofFirst first).continues next = false := by
        have atHead := List.head?_dropWhile_not (Kind.ofFirst first).continues rest
        rw [show (rest.dropWhile _).head? = some next from member] at atHead
        exact atHead
      by_cases comment : Kind.ofFirst first = .comment
      · rw [show (leading first rest).kind = .comment from comment] at extended
        exact extended
      · exact Bool.eq_false_iff.mp stops ((extends_iff comment).mp extended)

/-- A line is cut in the way in which it is scanned, and in no other one. -/
theorem cuts_iff_eq_scan : Cuts line tokens ↔ tokens = scan line := by
  constructor
  · intro cuts
    induction tokens generalizing line with
    | nil => rw [cuts_nil_iff.mp cuts, scan]
    | cons token tokens inductionHypothesis =>
      obtain ⟨rest, rfl, _, fits, comment, maximal, cuts⟩ := cuts_cons_iff.mp cuts
      obtain ⟨first, run, spelled, kind, goesOn⟩ := fits.exists_cons
      have stops : ∀ next ∈ rest.head?, (Kind.ofFirst first).continues next = false := by
        intro next member
        rw [kind]
        by_cases last : token.kind = .comment
        · have empty : rest = [] := cuts_nil_iff.mp (comment last ▸ cuts)
          rw [empty] at member
          cases member
        · exact Bool.eq_false_iff.mpr fun goes => maximal next member ((extends_iff last).mpr goes)
      have same : token = ⟨Kind.ofFirst first, String.ofList (first :: run)⟩ := by
        rw [kind, ← spelled, String.ofList_toList]
      rw [spelled, List.cons_append, scan_run (kind ▸ goesOn) stops, ← same,
        inductionHypothesis cuts]
  · rintro rfl
    exact cuts_scan line

/-- Cutting a single line permissively gives tokens, and they are the only ones that the line can be
cut into. -/
theorem ofLine_cuts {text : String} (single : '\n' ∉ text.toList) :
    ∃ tokens, ofLine true text = .ok tokens ∧ Cuts text.toList tokens ∧
      ∀ others, Cuts text.toList others → others = tokens := by
  have contains : text.toList.contains '\n' = false :=
    Bool.eq_false_iff.mpr fun feed => single (List.contains_iff_mem.mp feed)
  refine ⟨scan text.toList, ?_, cuts_scan _, fun others => cuts_iff_eq_scan.mp⟩
  rw [ofLine, contains, if_neg Bool.false_ne_true, if_pos rfl]

/-- A line with a token of every kind; the comment keeps what would be an unknown character. -/
theorem ofLine_cuts_every_kind : ∃ tokens, ofLine true "x:(1,5§)*[m]\t #§" = .ok tokens ∧
    (∀ others, Cuts "x:(1,5§)*[m]\t #§".toList others → others = tokens) ∧
    tokens.map Token.text = ["x", ":", "(", "1,5", "§", ")", "*", "[", "m", "]", "\t ", "#§"] ∧
    tokens.map Token.kind = [.literal, .definition, .paren, .number, .unknown, .paren, .operator,
      .bracket, .literal, .bracket, .whitespace, .comment] := by
  obtain ⟨tokens, cut, cuts, only⟩ := @ofLine_cuts "x:(1,5§)*[m]\t #§" (by decide)
  refine ⟨tokens, cut, only, ?_⟩
  rw [cuts_iff_eq_scan.mp cuts]
  constructor
  · cbv
  · cbv

end UnitSheet.Token
