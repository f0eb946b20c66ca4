/-
This file says that highlighting a document loses nothing and adds nothing but its tags.

A reader of the markup is written down: it breaks the markup at `<br/>`, drops the tags that begin
and end the span of a token, and reads the five entities. None of the three depends on what the
document was, so a document that spells tags or entities itself could mislead the reader. It does
not, because the escaped text of a token has no angle bracket and no quotation mark. A piece of
markup is therefore broken nowhere (`Unbroken`), its tags are the generated ones, and what is left
of a line without them is the escaped text of its tokens, which is the escaped line.
-/

import UnitSheet.Markup
import UnitSheet.Proofs.Scanning

namespace UnitSheet.Markup

/-! ### A reader of markup -/

/-- The lines of a markup. -/
def breakLines : List Char → List (List Char)
  | [] => [[]]
  | '<' :: 'b' :: 'r' :: '/' :: '>' :: rest => [] :: breakLines rest
  | character :: rest => (breakLines rest).modifyHead (character :: ·)

/-- The names of classes are made of small letters and hyphens. -/
def inClassName (character : Char) : Bool :=
  character.isLower || character == '-'

/-- The tag that begins the span of a token, up to the name of its class. -/
def opening : List Char :=
  "<span class=\"calc-token-".toList

/-- The same tag, after the name. -/
def ending : List Char :=
  "\">".toList

/-- The tag that ends a span. -/
def closing : List Char :=
  "</span>".toList

/-- What follows the tag at the start of a text, if there is one. -/
def afterTag? (text : List Char) : Option (List Char) :=
  match text.dropPrefix? opening with
  | some named => (named.dropWhile inClassName).dropPrefix? ending
  | none => text.dropPrefix? closing

theorem length_le_of_dropPrefix? {text mark rest : List Char}
    (found : text.dropPrefix? mark = some rest) : rest.length + mark.length ≤ text.length := by
  obtain ⟨start, rfl, same⟩ := List.dropPrefix?_eq_some_iff.mp found
  rw [eq_of_beq same, List.length_append, Nat.add_comm]

/-- What follows a tag is shorter. -/
theorem length_lt_of_afterTag? {text rest : List Char} (found : afterTag? text = some rest) :
    rest.length < text.length := by
  unfold afterTag? at found
  split at found
  · next named opened =>
    have first := length_le_of_dropPrefix? opened
    have last := length_le_of_dropPrefix? found
    have shorter : (named.dropWhile inClassName).length ≤ named.length :=
      (List.dropWhile_suffix _).length_le
    have nonempty : 0 < opening.length := by decide
    omega
  · exact Nat.lt_of_lt_of_le (Nat.lt_add_of_pos_right (by decide)) (length_le_of_dropPrefix? found)

/-- A text without its tags. -/
def withoutTags : List Char → List Char
  | [] => []
  | character :: rest =>
    match _found : afterTag? (character :: rest) with
    | some after => withoutTags after
    | none => character :: withoutTags rest
termination_by text => text.length
decreasing_by
  · exact length_lt_of_afterTag? _found
  · exact Nat.lt_succ_self _

/-- A text with its entities read. -/
def withoutEntities : List Char → List Char
  | [] => []
  | '&' :: 'a' :: 'm' :: 'p' :: ';' :: rest => '&' :: withoutEntities rest
  | '&' :: 'l' :: 't' :: ';' :: rest => '<' :: withoutEntities rest
  | '&' :: 'g' :: 't' :: ';' :: rest => '>' :: withoutEntities rest
  | '&' :: 'q' :: 'u' :: 'o' :: 't' :: ';' :: rest => '"' :: withoutEntities rest
  | '&' :: '#' :: 'x' :: '2' :: '7' :: ';' :: rest => '\'' :: withoutEntities rest
  | character :: rest => character :: withoutEntities rest

variable {character : Char} {piece other rest : List Char}

/-! ### Escaped texts -/

/-- A character that is no part of a tag. -/
def IsPlain (character : Char) : Prop :=
  character ≠ '<' ∧ character ≠ '>' ∧ character ≠ '"'

theorem isPlain_of_mem_escapeCharacter : ∀ next ∈ escapeCharacter character, IsPlain next := by
  unfold escapeCharacter
  split_ifs with _ less greater quotation
  · simp [IsPlain]
  · simp [IsPlain]
  · simp [IsPlain]
  · simp [IsPlain]
  · simp [IsPlain]
  · exact List.forall_mem_singleton.mpr ⟨less, greater, quotation⟩

/-- An escaped text has no character of a tag. -/
theorem isPlain_of_mem_escaped {text : List Char} :
    ∀ next ∈ text.flatMap escapeCharacter, IsPlain next := by
  intro next member
  obtain ⟨character, _, escaped⟩ := List.mem_flatMap.mp member
  exact isPlain_of_mem_escapeCharacter next escaped

theorem withoutEntities_cons (other : character ≠ '&') :
    withoutEntities (character :: rest) = character :: withoutEntities rest := by
  rw [withoutEntities]
  all_goals exact fun _ ampersand => absurd ampersand other

/-- The entity of a character is read as the character. -/
theorem withoutEntities_escapeCharacter_append :
    withoutEntities (escapeCharacter character ++ rest) = character :: withoutEntities rest := by
  unfold escapeCharacter
  split_ifs with ampersand less greater quotation apostrophe
  · rw [ampersand]; rfl
  · rw [less]; rfl
  · rw [greater]; rfl
  · rw [quotation]; rfl
  · rw [apostrophe]; rfl
  · exact withoutEntities_cons ampersand

/-- Reading entities undoes escaping. -/
theorem withoutEntities_escaped (text : List Char) :
    withoutEntities (text.flatMap escapeCharacter) = text := by
  induction text with
  | nil => rfl
  | cons character rest inductionHypothesis =>
    rw [List.flatMap_cons, withoutEntities_escapeCharacter_append, inductionHypothesis]

/-! ### Tags -/

theorem withoutTags_of_tag (found : afterTag? piece = some rest) :
    withoutTags piece = withoutTags rest := by
  cases piece with
  | nil => exact absurd found nofun
  | cons character following =>
    rw [withoutTags]
    split
    · next after same => rw [Option.some.inj (found.symm.trans same)]
    · next missing => exact absurd (found.symm.trans missing) nofun

/-- An angle bracket is the first character of the tag and no other one. -/
theorem exists_opening : ∃ tail, opening = '<' :: 's' :: tail ∧ ∀ next ∈ tail, next ≠ '<' :=
  ⟨"pan class=\"calc-token-".toList, rfl, by simp⟩

theorem exists_closing : ∃ tail, closing = '<' :: '/' :: tail ∧ ∀ next ∈ tail, next ≠ '<' :=
  ⟨"span>".toList, rfl, by simp⟩

theorem afterTag?_cons (other : character ≠ '<') : afterTag? (character :: rest) = none := by
  obtain ⟨_, opens, _⟩ := exists_opening
  obtain ⟨_, closes, _⟩ := exists_closing
  simp [afterTag?, opens, closes, List.dropPrefix?, beq_false_of_ne other]

theorem withoutTags_cons (other : character ≠ '<') :
    withoutTags (character :: rest) = character :: withoutTags rest := by
  rw [withoutTags]
  split
  · next after found => exact absurd (found.symm.trans (afterTag?_cons other)) nofun
  · rfl

/-- A text without angle brackets stays. -/
theorem withoutTags_append (plain : ∀ next ∈ piece, IsPlain next) :
    withoutTags (piece ++ rest) = piece ++ withoutTags rest := by
  induction piece with
  | nil => rfl
  | cons character others inductionHypothesis =>
    obtain ⟨first, plain⟩ := List.forall_mem_cons.mp plain
    rw [List.cons_append, withoutTags_cons first.1, inductionHypothesis plain, List.cons_append]

theorem afterTag?_closing : afterTag? (closing ++ rest) = some rest := by
  have other : (closing ++ rest).dropPrefix? opening = none := by
    obtain ⟨_, opens, _⟩ := exists_opening
    obtain ⟨_, closes, _⟩ := exists_closing
    simp [opens, closes, List.dropPrefix?]
  rw [afterTag?, other]
  exact List.dropPrefix?_append_of_beq rest (beq_self_eq_true _)

theorem afterTag?_opening {name : List Char} (named : ∀ next ∈ name, inClassName next = true) :
    afterTag? (opening ++ (name ++ (ending ++ rest))) = some rest := by
  have ends : (name ++ (ending ++ rest)).dropWhile inClassName = ending ++ rest := by
    rw [List.dropWhile_append_of_pos named]
    rfl
  rw [afterTag?, List.dropPrefix?_append_of_beq _ (beq_self_eq_true _)]
  dsimp only
  rw [ends, List.dropPrefix?_append_of_beq _ (beq_self_eq_true _)]

/-! ### Breaks -/

/-- A piece of a markup in which no line ends. -/
def Unbroken (piece : List Char) : Prop :=
  ∀ rest, breakLines (piece ++ rest) = (breakLines rest).modifyHead (piece ++ ·)

theorem unbroken_nil : Unbroken [] := by
  intro rest
  exact (congrFun List.modifyHead_id (breakLines rest)).symm

theorem Unbroken.append (first : Unbroken piece) (second : Unbroken other) :
    Unbroken (piece ++ other) := by
  intro rest
  rw [List.append_assoc, first, second, List.modifyHead_modifyHead]
  exact congrArg (fun change => (breakLines rest).modifyHead change)
    (funext fun line => (List.append_assoc piece other line).symm)

theorem unbroken_singleton (plain : character ≠ '<') : Unbroken [character] := by
  intro rest
  show breakLines (character :: rest) = _
  rw [breakLines]
  · rfl
  · exact fun _ bracket => absurd bracket plain

/-- Only what begins like `<b` can be a break. -/
theorem unbroken_bracket {second : Char} (other : second ≠ 'b')
    (unbroken : Unbroken (second :: piece)) : Unbroken ('<' :: second :: piece) := by
  intro rest
  have passed : breakLines ('<' :: second :: (piece ++ rest)) =
      (breakLines (second :: (piece ++ rest))).modifyHead ('<' :: ·) := by
    rw [breakLines]
    rintro following - same
    exact other (List.cons.inj same).1
  show breakLines ('<' :: second :: (piece ++ rest)) = _
  rw [passed, ← List.cons_append, unbroken, List.modifyHead_modifyHead]
  rfl

theorem unbroken_of_no_bracket (plain : ∀ next ∈ piece, next ≠ '<') : Unbroken piece := by
  induction piece with
  | nil => exact unbroken_nil
  | cons character others inductionHypothesis =>
    obtain ⟨first, plain⟩ := List.forall_mem_cons.mp plain
    exact (unbroken_singleton first).append (inductionHypothesis plain)

theorem breakLines_of_unbroken (unbroken : Unbroken piece) : breakLines piece = [piece] := by
  rw [← List.append_nil piece, unbroken, List.append_nil]
  show [piece ++ []] = [piece]
  rw [List.append_nil]

theorem breakLines_break (unbroken : Unbroken piece) :
    breakLines (piece ++ ("<br/>".toList ++ rest)) = piece :: breakLines rest := by
  rw [unbroken]
  show (piece ++ []) :: breakLines rest = _
  rw [List.append_nil]

/-- Lines that are put together with breaks are found again. -/
theorem breakLines_intercalate {lines : List (List Char)} (nonempty : lines ≠ [])
    (unbroken : ∀ line ∈ lines, Unbroken line) :
    breakLines ("<br/>".toList.intercalate lines) = lines := by
  induction lines with
  | nil => exact absurd rfl nonempty
  | cons first others inductionHypothesis =>
    obtain ⟨firstUnbroken, othersUnbroken⟩ := List.forall_mem_cons.mp unbroken
    cases others with
    | nil =>
      rw [List.intercalate_singleton]
      exact breakLines_of_unbroken firstUnbroken
    | cons second others =>
      rw [List.intercalate_cons_cons, List.append_assoc, breakLines_break firstUnbroken,
        inductionHypothesis (List.cons_ne_nil _ _) othersUnbroken]

/-! ### Tokens -/

theorem inClassName_of_mem_kindName (kind : Token.Kind) :
    ∀ next ∈ kind.name.toList, inClassName next = true := by
  cases kind <;> exact List.all_eq_true.mp rfl

theorem inClassName_of_mem_tokenClass (token : Token) :
    ∀ next ∈ (tokenClass token).toList, inClassName next = true := by
  unfold tokenClass
  split_ifs
  · exact inClassName_of_mem_kindName token.kind
  · exact List.all_eq_true.mp rfl
  · exact List.all_eq_true.mp rfl
  · exact List.all_eq_true.mp rfl

/-- The classes of tokens are names, and their texts are kept. -/
theorem classifyFrom_spec (inUnit : Bool) (tokens : List Token) :
    (∀ entry ∈ classifyFrom inUnit tokens, ∀ next ∈ entry.1.toList, inClassName next = true) ∧
      (classifyFrom inUnit tokens).map Prod.snd = tokens.map Token.text := by
  induction tokens generalizing inUnit with
  | nil => exact ⟨nofun, rfl⟩
  | cons token tokens inductionHypothesis =>
    obtain ⟨named, kept⟩ := inductionHypothesis
      ((inUnit || token.isSign .bracket "[") && !token.isSign .bracket "]")
    rw [classifyFrom]
    refine ⟨List.forall_mem_cons.mpr ⟨?_, named⟩, ?_⟩
    · dsimp only
      split_ifs
      · rw [String.toList_append]
        exact List.forall_mem_append.mpr
          ⟨inClassName_of_mem_tokenClass token, List.all_eq_true.mp rfl⟩
      · exact inClassName_of_mem_tokenClass token
    · rw [List.map_cons, kept, List.map_cons]

/-- The markup of a token is its escaped text between two tags. -/
theorem toList_span (name text : String) : (span name text).toList =
    opening ++ (name.toList ++ (ending ++ (text.toList.flatMap escapeCharacter ++ closing))) := by
  have joined (first second third fourth fifth : String) :
      (first ++ second ++ third ++ fourth ++ fifth).toList = first.toList ++
        (second.toList ++ (third.toList ++ (fourth.toList ++ fifth.toList))) := by
    simp only [String.toList_append, List.append_assoc]
  have escaped : (escape text).toList = text.toList.flatMap escapeCharacter := String.toList_ofList
  rw [← escaped]
  exact joined _ name _ (escape text) _

variable {name text : String}

theorem withoutTags_span_append (named : ∀ next ∈ name.toList, inClassName next = true) :
    withoutTags ((span name text).toList ++ rest) =
      text.toList.flatMap escapeCharacter ++ withoutTags rest := by
  simp only [toList_span, List.append_assoc]
  rw [withoutTags_of_tag (afterTag?_opening named), withoutTags_append isPlain_of_mem_escaped,
    withoutTags_of_tag afterTag?_closing]

theorem unbroken_opening : Unbroken opening := by
  obtain ⟨tail, opens, plain⟩ := exists_opening
  rw [opens]
  refine unbroken_bracket (by decide) (unbroken_of_no_bracket ?_)
  exact List.forall_mem_cons.mpr ⟨by decide, plain⟩

theorem unbroken_ending : Unbroken ending :=
  unbroken_of_no_bracket (by simp [ending])

theorem unbroken_closing : Unbroken closing := by
  obtain ⟨tail, closes, plain⟩ := exists_closing
  rw [closes]
  refine unbroken_bracket (by decide) (unbroken_of_no_bracket ?_)
  exact List.forall_mem_cons.mpr ⟨by decide, plain⟩

theorem unbroken_span (named : ∀ next ∈ name.toList, inClassName next = true) :
    Unbroken (span name text).toList := by
  have classed : Unbroken name.toList := unbroken_of_no_bracket fun next member bracket => by
    rw [bracket] at member
    exact absurd (named _ member) (by decide)
  have escaped : Unbroken (text.toList.flatMap escapeCharacter) :=
    unbroken_of_no_bracket fun next member => (isPlain_of_mem_escaped next member).1
  rw [toList_span]
  exact unbroken_opening.append
    (classed.append (unbroken_ending.append (escaped.append unbroken_closing)))

/-! ### Lines and documents -/

theorem toList_line (tokens : List Token) : (line tokens).toList =
    (classify tokens).flatMap fun entry => (span entry.1 entry.2).toList := by
  rw [line, String.toList_join, List.flatMap_map]

theorem unbroken_line (tokens : List Token) : Unbroken (line tokens).toList := by
  have named := (classifyFrom_spec false tokens).1
  rw [toList_line, classify]
  generalize classifyFrom false tokens = entries at named ⊢
  induction entries with
  | nil => exact unbroken_nil
  | cons entry others inductionHypothesis =>
    obtain ⟨first, named⟩ := List.forall_mem_cons.mp named
    exact (unbroken_span first).append (inductionHypothesis named)

/-- Without its tags, the markup of a line is the escaped line. -/
theorem withoutTags_line (tokens : List Token) :
    withoutTags (line tokens).toList = (Token.texts tokens).flatMap escapeCharacter := by
  obtain ⟨named, kept⟩ := classifyFrom_spec false tokens
  have texts : Token.texts tokens =
      ((classifyFrom false tokens).map Prod.snd).flatMap String.toList := by
    rw [kept, List.flatMap_map]
    rfl
  rw [toList_line, texts, classify]
  clear kept texts
  generalize classifyFrom false tokens = entries at named ⊢
  induction entries with
  | nil =>
    rw [List.flatMap_nil, withoutTags]
    rfl
  | cons entry others inductionHypothesis =>
    obtain ⟨first, named⟩ := List.forall_mem_cons.mp named
    rw [List.flatMap_cons, withoutTags_span_append first, inductionHypothesis named, List.map_cons,
      List.flatMap_cons, List.flatMap_append]

theorem withoutTags_line_scan (text : List Char) :
    withoutTags (line (Token.scan text)).toList = text.flatMap escapeCharacter := by
  rw [withoutTags_line, (Token.cuts_scan text).whole]

/-- The markup of a document is broken into the markups of its lines. -/
theorem breakLines_document (source : String) : breakLines (document source).toList =
    (Text.sheetLines source).map fun text => (line (Token.scan text)).toList := by
  have nonempty : Text.sheetLines source ≠ [] := by
    rw [Text.sheetLines, Ne, List.map_eq_nil_iff]
    exact Text.splitLineFeeds_ne_nil source.toList
  rw [document, tokens, String.toList_intercalate, List.map_map, List.map_map]
  refine breakLines_intercalate (mt List.map_eq_nil_iff.mp nonempty) fun markup member => ?_
  obtain ⟨text, _, rfl⟩ := List.mem_map.mp member
  exact unbroken_line _

/-- Reading the markup of a document gives its lines, and apart from breaks and from the tags of
spans no angle bracket and no quotation mark is in it, whatever the document spells. -/
theorem document_read_back (source : String) :
    (breakLines (document source).toList).map (fun line => withoutEntities (withoutTags line)) =
        Text.sheetLines source ∧
      ∀ line ∈ breakLines (document source).toList, ∀ character ∈ withoutTags line,
        character ≠ '<' ∧ character ≠ '>' ∧ character ≠ '"' := by
  rw [breakLines_document]
  constructor
  · rw [List.map_map]
    refine (List.map_congr_left fun text _ => ?_).trans (List.map_id _)
    show withoutEntities (withoutTags (line (Token.scan text)).toList) = text
    rw [withoutTags_line_scan, withoutEntities_escaped]
  · rintro _ member
    obtain ⟨text, _, rfl⟩ := List.mem_map.mp member
    rw [withoutTags_line_scan]
    exact isPlain_of_mem_escaped

end UnitSheet.Markup
