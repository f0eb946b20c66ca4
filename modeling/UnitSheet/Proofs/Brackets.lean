/-
This file says which unit brackets are accepted.

The documented form of a bracket is a `Bracket`: perhaps a number, names with exponents, and
perhaps a bar with more of them. The reading does not follow this form. It remembers whether a
name and whether the bar has been met (`Tracks`), and takes a token if it fits these: before the
first name it skips any number, and after it an exponent may stand anywhere and replaces that of
the last name. What is accepted is stated token by token (`Accepted`), and it has the documented
form exactly if also no two neighbours are out of place (`Adjacent`).
-/

import UnitSheet.Proofs.Merging
import UnitSheet.Proofs.ReadBack

namespace UnitSheet

/-! ### The documented form -/

namespace Bracket

/-- The sign before an exponent. -/
def powerSign : Token := ⟨.operator, "^"⟩

/-- The sign before the names below the division. -/
def bar : Token := ⟨.operator, "/"⟩

/-- A name in a bracket, perhaps with an exponent. -/
structure Atom where
  name : String
  exponent : Option String

def Atom.tokens (atom : Atom) : List Token :=
  ⟨.literal, atom.name⟩ ::
    match atom.exponent with
    | none => []
    | some text => [powerSign, ⟨.number, text⟩]

/-- The tokens of the names below the division, if there is one. -/
def tokensBelow : Option (List Atom) → List Token
  | none => []
  | some atoms => bar :: atoms.flatMap Atom.tokens

end Bracket

/-- A bracket as it is documented: a number, names, and names below the division. -/
structure Bracket where
  number : Option String
  above : List Bracket.Atom
  below : Option (List Bracket.Atom)

namespace Bracket

/-- The tokens between the signs that open and close a bracket. -/
def tokens (bracket : Bracket) : List Token :=
  (bracket.number.toList.map fun text => ⟨.number, text⟩) ++
    (bracket.above.flatMap Atom.tokens ++ tokensBelow bracket.below)

/-! ### Tokens that fit -/

/-- A token is taken after those before it, with those after it still to come. A number is skipped
before the first name, or else it is an exponent; an exponent can be read, and some name is before
it; the bar comes once. -/
inductive Fits : List Token → Token → List Token → Prop
  | name (text : String) {before after : List Token} : Fits before ⟨.literal, text⟩ after
  | skipped (text : String) {before after : List Token} :
      (∀ token ∈ before, token.kind ≠ .literal) → Fits before ⟨.number, text⟩ after
  | exponent (text : String) {before after : List Token} : before.getLast? = some powerSign →
      Fits before ⟨.number, text⟩ after
  | power {before after : List Token} {text : String} {exponent : Float} :
      (∃ token ∈ before, token.kind = .literal) → Decimal.read? text = some exponent →
      Fits before powerSign (⟨.number, text⟩ :: after)
  | bar {before after : List Token} : bar ∉ before → Fits before bar after

/-- Every token fits between those before it and those after it. -/
def Accepted (before contents : List Token) : Prop :=
  ∀ earlier token later, contents = earlier ++ token :: later → Fits (before ++ earlier) token later

/-- What the documented form asks of neighbours besides: a sign for an exponent comes directly
after a name, and a number directly after such a sign. -/
def Adjacent (first second : Token) : Prop :=
  (second = powerSign → first.kind = .literal) ∧ (second.kind = .number → first = powerSign)

variable {before after contents rest : List Token} {token : Token}

theorem fits_number {text : String} : Fits before ⟨.number, text⟩ after ↔
    (∀ token ∈ before, token.kind ≠ .literal) ∨ before.getLast? = some powerSign := by
  constructor
  · intro fits
    cases fits with
    | skipped _ nameless => exact .inl nameless
    | exponent _ sign => exact .inr sign
  · rintro (nameless | sign)
    · exact .skipped text nameless
    · exact .exponent text sign

theorem fits_powerSign : Fits before powerSign after ↔ (∃ token ∈ before, token.kind = .literal) ∧
    ∃ text exponent rest, after = ⟨.number, text⟩ :: rest ∧ Decimal.read? text = some exponent := by
  constructor
  · intro fits
    generalize same : powerSign = token at fits
    cases fits with
    | power name read => exact ⟨name, _, _, _, rfl, read⟩
    | bar once => exact absurd same (by decide)
    | _ => cases same
  · rintro ⟨name, text, exponent, rest, rfl, read⟩
    exact .power name read

theorem fits_bar : Fits before bar after ↔ bar ∉ before := by
  constructor
  · intro fits
    generalize same : bar = token at fits
    cases fits with
    | power name read => exact absurd same (by decide)
    | bar once => exact once
    | _ => cases same
  · exact .bar

theorem accepted_nil : Accepted before [] := by
  intro earlier token later split
  cases earlier <;> cases split

theorem accepted_cons : Accepted before (token :: rest) ↔
    Fits before token rest ∧ Accepted (before ++ [token]) rest := by
  constructor
  · intro accepted
    refine ⟨?_, fun earlier later after split => ?_⟩
    · have fits := accepted [] token rest rfl
      rwa [List.append_nil] at fits
    · rw [List.append_assoc]
      exact accepted (token :: earlier) later after (congrArg (token :: ·) split)
  · rintro ⟨fits, accepted⟩ earlier later after split
    cases earlier with
    | nil =>
      cases split
      rwa [List.append_nil]
    | cons first earlier =>
      cases split
      have fits := accepted earlier later after rfl
      rwa [List.append_assoc] at fits

/-! ### Reading pieces -/

section Pieces

variable {catalog : Catalog} {unit : NamedUnit Float} {text : String}

theorem exists_of_named (piece : UnitAtom.ofToken catalog token = .ok (.named unit)) :
    ∃ name, token = ⟨.literal, name⟩ ∧ unit = UnitAtom.unitOfName catalog name := by
  obtain ⟨kind, text⟩ := token
  cases kind with
  | literal =>
    cases piece
    exact ⟨text, rfl, rfl⟩
  | operator =>
    simp only [UnitAtom.ofToken] at piece
    repeat' split at piece
    all_goals cases piece
  | _ => cases piece

theorem eq_of_number (piece : UnitAtom.ofToken catalog token = .ok (.number text)) :
    token = ⟨.number, text⟩ := by
  obtain ⟨kind, known⟩ := token
  cases kind with
  | number =>
    cases piece
    rfl
  | operator =>
    simp only [UnitAtom.ofToken] at piece
    repeat' split at piece
    all_goals cases piece
  | _ => cases piece

theorem eq_of_power (piece : UnitAtom.ofToken catalog token = .ok .power) : token = powerSign := by
  obtain ⟨kind, text⟩ := token
  cases kind with
  | operator =>
    simp only [UnitAtom.ofToken] at piece
    split at piece
    · rename_i same
      exact congrArg (Token.mk .operator) same
    · split at piece <;> cases piece
  | _ => cases piece

theorem eq_of_division (piece : UnitAtom.ofToken catalog token = .ok .division) : token = bar := by
  obtain ⟨kind, text⟩ := token
  cases kind with
  | operator =>
    simp only [UnitAtom.ofToken] at piece
    split at piece
    · cases piece
    · split at piece
      · rename_i same
        exact congrArg (Token.mk .operator) same
      · cases piece
  | _ => cases piece

/-- What fits is a piece of a bracket. -/
theorem Fits.exists_piece (catalog : Catalog) (fits : Fits before token after) :
    ∃ atom, UnitAtom.ofToken catalog token = .ok atom := by
  cases fits with
  | name text => exact ⟨_, rfl⟩
  | skipped text => exact ⟨_, rfl⟩
  | exponent text => exact ⟨_, rfl⟩
  | power => exact ⟨.power, rfl⟩
  | bar => exact ⟨.division, rfl⟩

theorem Accepted.exists_pieces (catalog : Catalog) (accepted : Accepted before contents) :
    ∃ atoms, contents.mapM (UnitAtom.ofToken catalog) = .ok atoms := by
  refine exists_mapM_iff.mpr fun token member => ?_
  obtain ⟨earlier, later, split⟩ := List.append_of_mem member
  exact (accepted earlier token later split).exists_piece catalog

end Pieces

/-! ### What the reading remembers -/

/-- What is remembered of the tokens read so far: whether the bar was among them, and whether a
name was. No exponent is left open. -/
structure Tracks (before : List Token) (below : Bool) (named : List (UnitPower Float)) :
    Prop where
  bar : below = true ↔ bar ∈ before
  names : named = [] ↔ ∀ token ∈ before, token.kind ≠ .literal
  closed : before.getLast? ≠ some powerSign

namespace Tracks

variable {below : Bool} {named : List (UnitPower Float)}

theorem start : Tracks [] false [] where
  bar := by simp
  names := by simp
  closed := by simp

/-- An exponent replaces that of the last name. -/
theorem concat_exponent {last other : UnitPower Float} {earlier : List (UnitPower Float)}
    (tracks : Tracks before below (last :: earlier)) (text : String) :
    Tracks (before ++ [powerSign] ++ [⟨.number, text⟩]) below (other :: earlier) where
  bar := by simp [tracks.bar, Bracket.bar, powerSign]
  names := by
    have named := mt tracks.names.mpr (List.cons_ne_nil last earlier)
    refine iff_of_false (List.cons_ne_nil other earlier) fun nameless => named ?_
    intro token member
    exact nameless token (List.mem_append_left _ (List.mem_append_left _ member))
  closed := by simp [powerSign]

theorem concat_number (tracks : Tracks before below named) (text : String) :
    Tracks (before ++ [⟨.number, text⟩]) below named where
  bar := by simp [tracks.bar, Bracket.bar]
  names := by simp [tracks.names, or_imp, forall_and]
  closed := by simp [powerSign]

theorem concat_name (tracks : Tracks before below named) (name : String)
    (power : UnitPower Float) : Tracks (before ++ [⟨.literal, name⟩]) below (power :: named) where
  bar := by simp [tracks.bar, Bracket.bar]
  names := by simp [or_imp, forall_and]
  closed := by simp [powerSign]

theorem concat_bar (tracks : Tracks before below named) :
    Tracks (before ++ [Bracket.bar]) true named where
  bar := by simp
  names := by simp [tracks.names, or_imp, forall_and, Bracket.bar]
  closed := by simp [powerSign, Bracket.bar]

end Tracks

/-! ### What is accepted -/

section Reading

variable {catalog : Catalog} {below : Bool} {named powers : List (UnitPower Float)}
  {atoms : List UnitAtom}

/-- The names among tokens. -/
def names (contents : List Token) : List String :=
  (contents.filter fun token => token.kind == .literal).map Token.text

/-- The tokens that are pieces of a bracket, one by one. -/
def Pieces (catalog : Catalog) (contents : List Token) (atoms : List UnitAtom) : Prop :=
  List.Forall₂ (fun token atom => UnitAtom.ofToken catalog token = .ok atom) contents atoms

/-- Pieces name powers exactly if each token fits. -/
theorem exists_powers_iff (tracks : Tracks before below named)
    (pieces : Pieces catalog contents atoms) :
    (∃ powers, CompoundUnit.namedPowers below named atoms = .ok powers) ↔
      Accepted before contents := by
  -- The reading takes a sign and the exponent after it at once, and every other token alone.
  induction below, named, atoms using CompoundUnit.namedPowers.induct
    generalizing before contents with
  | case1 below named =>
    cases pieces
    exact iff_of_true ⟨_, rfl⟩ accepted_nil
  | case2 below named unit rest inductionHypothesis =>
    obtain ⟨token, contents, piece, remaining, rfl⟩ := List.forall₂_cons_right_iff.mp pieces
    obtain ⟨name, rfl, _⟩ := exists_of_named piece
    rw [CompoundUnit.namedPowers, accepted_cons,
      inductionHypothesis (tracks.concat_name name _) remaining]
    exact (and_iff_right (.name name)).symm
  | case3 named rest =>
    obtain ⟨token, contents, piece, remaining, rfl⟩ := List.forall₂_cons_right_iff.mp pieces
    obtain rfl := eq_of_division piece
    refine iff_of_false (by simp [CompoundUnit.namedPowers]) fun accepted => ?_
    exact fits_bar.mp (accepted_cons.mp accepted).1 (tracks.bar.mp rfl)
  | case4 below named rest above inductionHypothesis =>
    obtain ⟨token, contents, piece, remaining, rfl⟩ := List.forall₂_cons_right_iff.mp pieces
    obtain rfl := eq_of_division piece
    have once : bar ∉ before := fun met => above (tracks.bar.mpr met)
    rw [CompoundUnit.namedPowers, if_neg above, accepted_cons,
      inductionHypothesis tracks.concat_bar remaining]
    exact (and_iff_right (.bar once)).symm
  | case5 below rest =>
    obtain ⟨token, contents, piece, remaining, rfl⟩ := List.forall₂_cons_right_iff.mp pieces
    obtain rfl := eq_of_power piece
    refine iff_of_false (by simp [CompoundUnit.namedPowers]) fun accepted => ?_
    obtain ⟨⟨token, member, literal⟩, _⟩ := fits_powerSign.mp (accepted_cons.mp accepted).1
    exact tracks.names.mp rfl token member literal
  | case6 below last earlier text others exponent read inductionHypothesis =>
    obtain ⟨token, contents, piece, remaining, rfl⟩ := List.forall₂_cons_right_iff.mp pieces
    obtain ⟨exponentToken, contents, number, further, rfl⟩ :=
      List.forall₂_cons_right_iff.mp remaining
    obtain rfl := eq_of_power piece
    obtain rfl := eq_of_number number
    have name : ∃ token ∈ before, token.kind = .literal := by
      have met := mt tracks.names.mpr (List.cons_ne_nil last earlier)
      simpa using met
    rw [CompoundUnit.namedPowers, read, accepted_cons, accepted_cons]
    dsimp only
    rw [inductionHypothesis (tracks.concat_exponent text) further, and_iff_right (.power name read),
      and_iff_right (.exponent text List.getLast?_concat)]
  | case7 below last earlier text others read =>
    obtain ⟨token, contents, piece, remaining, rfl⟩ := List.forall₂_cons_right_iff.mp pieces
    obtain ⟨exponentToken, contents, number, further, rfl⟩ :=
      List.forall₂_cons_right_iff.mp remaining
    obtain rfl := eq_of_power piece
    obtain rfl := eq_of_number number
    refine iff_of_false (by simp [CompoundUnit.namedPowers, read]) fun accepted => ?_
    obtain ⟨_, _, _, _, equal, found⟩ := fits_powerSign.mp (accepted_cons.mp accepted).1
    cases equal
    rw [read] at found
    cases found
  | case8 below rest head tail noNumber =>
    obtain ⟨token, contents, piece, remaining, rfl⟩ := List.forall₂_cons_right_iff.mp pieces
    obtain rfl := eq_of_power piece
    refine iff_of_false ?_ fun accepted => ?_
    · rintro ⟨powers, equal⟩
      rw [CompoundUnit.namedPowers] at equal
      · cases equal
      · exact noNumber
    · obtain ⟨_, text, _, rest, rfl, _⟩ := fits_powerSign.mp (accepted_cons.mp accepted).1
      obtain ⟨atom, others, number, _, rfl⟩ := List.forall₂_cons_left_iff.mp remaining
      cases number
      exact noNumber _ _ rfl
  | case9 below named text rest first inductionHypothesis =>
    obtain ⟨token, contents, piece, remaining, rfl⟩ := List.forall₂_cons_right_iff.mp pieces
    obtain rfl := eq_of_number piece
    have nameless := tracks.names.mp (List.isEmpty_iff.mp first)
    rw [CompoundUnit.namedPowers, if_pos first, accepted_cons,
      inductionHypothesis (tracks.concat_number text) remaining]
    exact (and_iff_right (.skipped text nameless)).symm
  | case10 below named text rest later =>
    obtain ⟨token, contents, piece, remaining, rfl⟩ := List.forall₂_cons_right_iff.mp pieces
    obtain rfl := eq_of_number piece
    refine iff_of_false (by simp [CompoundUnit.namedPowers, later]) fun accepted => ?_
    rcases fits_number.mp (accepted_cons.mp accepted).1 with nameless | sign
    · exact later (List.isEmpty_iff.mpr (tracks.names.mpr nameless))
    · exact tracks.closed sign

/-- The powers that pieces name are of the units of the names, in order. -/
theorem units_of_namedPowers (pieces : Pieces catalog contents atoms)
    (equal : CompoundUnit.namedPowers below named atoms = .ok powers) :
    powers.map UnitPower.unit = (named.map UnitPower.unit).reverse ++
      (names contents).map (UnitAtom.unitOfName catalog) := by
  induction below, named, atoms using CompoundUnit.namedPowers.induct generalizing contents with
  | case1 below named =>
    cases pieces
    cases equal
    simp [names]
  | case2 below named unit rest inductionHypothesis =>
    obtain ⟨token, contents, piece, remaining, rfl⟩ := List.forall₂_cons_right_iff.mp pieces
    obtain ⟨name, rfl, rfl⟩ := exists_of_named piece
    rw [CompoundUnit.namedPowers] at equal
    rw [inductionHypothesis remaining equal]
    simp [names]
  | case3 named rest => simp [CompoundUnit.namedPowers] at equal
  | case4 below named rest above inductionHypothesis =>
    obtain ⟨token, contents, piece, remaining, rfl⟩ := List.forall₂_cons_right_iff.mp pieces
    obtain rfl := eq_of_division piece
    rw [CompoundUnit.namedPowers, if_neg above] at equal
    have units := inductionHypothesis remaining equal
    exact units
  | case5 below rest => simp [CompoundUnit.namedPowers] at equal
  | case6 below last earlier text others exponent read inductionHypothesis =>
    obtain ⟨token, contents, piece, remaining, rfl⟩ := List.forall₂_cons_right_iff.mp pieces
    obtain ⟨exponentToken, contents, number, further, rfl⟩ :=
      List.forall₂_cons_right_iff.mp remaining
    obtain rfl := eq_of_power piece
    obtain rfl := eq_of_number number
    rw [CompoundUnit.namedPowers, read] at equal
    have units := inductionHypothesis further equal
    exact units
  | case7 below last earlier text others read =>
    simp [CompoundUnit.namedPowers, read] at equal
  | case8 below rest head tail noNumber =>
    rw [CompoundUnit.namedPowers] at equal
    · cases equal
    · exact noNumber
  | case9 below named text rest first inductionHypothesis =>
    obtain ⟨token, contents, piece, remaining, rfl⟩ := List.forall₂_cons_right_iff.mp pieces
    obtain rfl := eq_of_number piece
    rw [CompoundUnit.namedPowers, if_pos first] at equal
    have units := inductionHypothesis remaining equal
    exact units
  | case10 below named text rest later => simp [CompoundUnit.namedPowers, later] at equal

end Reading

open CompoundUnit (ofContents Unmixed)

/-! ### Neighbours -/

/-- A token that may stand after any other. -/
def Free (token : Token) : Prop :=
  token ≠ powerSign ∧ token.kind ≠ .number

theorem Free.adjacent {second : Token} (free : Free second) (first : Token) :
    Adjacent first second :=
  ⟨fun same => absurd same free.1, fun same => absurd same free.2⟩

theorem free_bar : Free bar :=
  ⟨by decide, by decide⟩

theorem free_name (name : String) : Free ⟨.literal, name⟩ :=
  ⟨by simp [powerSign], by simp⟩

/-- Tokens that are in order whatever they stand after. -/
def Detached (tokens : List Token) : Prop :=
  tokens.IsChain Adjacent ∧ ∀ token ∈ tokens.head?, Free token

theorem isChain_append {first second : List Token} (left : first.IsChain Adjacent)
    (right : Detached second) : (first ++ second).IsChain Adjacent :=
  List.isChain_append.mpr
    ⟨left, right.1, fun _ _ token member => (right.2 token member).adjacent _⟩

theorem Detached.append {first second : List Token} (left : Detached first)
    (right : Detached second) : Detached (first ++ second) := by
  refine ⟨isChain_append left.1 right, fun token member => ?_⟩
  cases first with
  | nil => exact right.2 token member
  | cons head rest => exact left.2 token member

theorem detached_atom (atom : Atom) : Detached atom.tokens := by
  refine ⟨?_, fun token member => ?_⟩
  · rw [Atom.tokens]
    cases atom.exponent with
    | none => exact .singleton _
    | some text => simp [Adjacent, powerSign]
  · cases member
    exact free_name atom.name

theorem detached_atoms (atoms : List Atom) : Detached (atoms.flatMap Atom.tokens) := by
  induction atoms with
  | nil => exact ⟨.nil, by simp⟩
  | cons atom atoms inductionHypothesis => exact (detached_atom atom).append inductionHypothesis

theorem detached_below (below : Option (List Atom)) : Detached (tokensBelow below) := by
  cases below with
  | none => exact ⟨.nil, by simp [tokensBelow]⟩
  | some atoms =>
    have sign : Detached [bar] := ⟨.singleton bar, by simpa using free_bar⟩
    exact sign.append (detached_atoms atoms)

/-- In the documented form no neighbours are out of place. -/
theorem isChain_tokens (bracket : Bracket) : bracket.tokens.IsChain Adjacent := by
  refine isChain_append ?_ ((detached_atoms bracket.above).append (detached_below bracket.below))
  cases bracket.number with
  | none => exact .nil
  | some text => exact .singleton _

theorem detached_of_cons {first : Token} {rest : List Token}
    (chain : (first :: rest).IsChain Adjacent) (closed : first ≠ powerSign)
    (final : first.kind = .literal → rest.head? ≠ some powerSign) : Detached rest := by
  obtain ⟨adjacent, chain⟩ := List.isChain_cons.mp chain
  refine ⟨chain, fun token member => ⟨?_, fun number => closed ((adjacent token member).2 number)⟩⟩
  rintro rfl
  exact final ((adjacent powerSign member).1 rfl) member

/-- What is accepted without neighbours out of place is made of names with exponents above and
below the bar. -/
theorem exists_sides {before contents : List Token} (accepted : Accepted before contents)
    (detached : Detached contents) : ∃ above below,
      contents = List.flatMap Atom.tokens above ++ tokensBelow below ∧
        (bar ∈ before → below = none) := by
  match contents, accepted, detached with
  | [], _, _ => exact ⟨[], none, rfl, fun _ => rfl⟩
  | token :: rest, accepted, ⟨chain, free⟩ =>
    obtain ⟨fits, accepted⟩ := accepted_cons.mp accepted
    have here : Free token := free token rfl
    cases fits with
    | name name =>
      by_cases sign : rest.head? = some powerSign
      · obtain ⟨others, rfl⟩ := List.head?_eq_some_iff.mp sign
        obtain ⟨fits, accepted⟩ := accepted_cons.mp accepted
        obtain ⟨_, text, _, others, rfl, _⟩ := fits_powerSign.mp fits
        obtain ⟨_, accepted⟩ := accepted_cons.mp accepted
        obtain ⟨above, below, rfl, once⟩ := exists_sides accepted
          (detached_of_cons chain.tail.tail (by simp [powerSign]) (by simp))
        exact ⟨⟨name, some text⟩ :: above, below, rfl, fun met => once (by simp [met])⟩
      · obtain ⟨above, below, rfl, once⟩ := exists_sides accepted
          (detached_of_cons chain (by simp [powerSign]) fun _ => sign)
        exact ⟨⟨name, none⟩ :: above, below, rfl, fun met => once (by simp [met])⟩
    | skipped text => exact absurd rfl here.2
    | exponent text => exact absurd rfl here.2
    | power => exact absurd rfl here.1
    | bar unmet =>
      obtain ⟨above, below, rfl, once⟩ := exists_sides accepted
        (detached_of_cons chain (by decide) (by simp [bar]))
      obtain rfl := once (by simp)
      exact ⟨[], some above, by simp [tokensBelow], fun met => absurd met unmet⟩
termination_by contents.length

/-- What is accepted has the documented form exactly if no neighbours are out of place. -/
theorem exists_bracket_iff {contents : List Token} (accepted : Accepted [] contents) :
    (∃ bracket : Bracket, bracket.tokens = contents) ↔ contents.IsChain Adjacent := by
  constructor
  · rintro ⟨bracket, rfl⟩
    exact bracket.isChain_tokens
  · intro chain
    cases contents with
    | nil => exact ⟨⟨none, [], none⟩, rfl⟩
    | cons token rest =>
      obtain ⟨fits, following⟩ := accepted_cons.mp accepted
      by_cases number : token.kind = .number
      · obtain ⟨_, text⟩ := token
        cases number
        obtain ⟨above, below, rfl, _⟩ := exists_sides following
          (detached_of_cons chain (by simp [powerSign]) (by simp))
        exact ⟨⟨some text, above, below⟩, rfl⟩
      · have nonPower : token ≠ powerSign := by
          rintro rfl
          obtain ⟨⟨_, member, _⟩, _⟩ := fits_powerSign.mp fits
          cases member
        have detached : Detached (token :: rest) := by
          refine ⟨chain, fun first member => ?_⟩
          cases member
          exact ⟨nonPower, number⟩
        obtain ⟨above, below, equal, _⟩ := exists_sides accepted detached
        exact ⟨⟨none, above, below⟩, equal.symm⟩

/-! ### The language of brackets -/

/-- A bracket has a unit exactly if each of its tokens fits and no two of its names are of different
units of one family. Of the brackets whose tokens fit exactly those have the documented form in
which no neighbours are out of place. -/
theorem ofContents_accepts (catalog : Catalog) (contents : List Token) :
    ((∃ unit, ofContents catalog contents = .ok unit) ↔ Accepted [] contents ∧
      Unmixed ((names contents).map (UnitAtom.unitOfName catalog))) ∧
    ((Accepted [] contents ∧ ∃ bracket : Bracket, bracket.tokens = contents) ↔
      Accepted [] contents ∧ contents.IsChain Adjacent) := by
  refine ⟨?_, and_congr_right exists_bracket_iff⟩
  constructor
  · rintro ⟨unit, equal⟩
    obtain ⟨atoms, pieces, equal⟩ := bind_eq_ok.mp equal
    obtain ⟨powers, named, equal⟩ := bind_eq_ok.mp equal
    have pieces := mapM_eq_ok_iff.mp pieces
    have units := units_of_namedPowers pieces named
    refine ⟨(exists_powers_iff .start pieces).mp ⟨powers, named⟩, ?_⟩
    rw [List.map_nil, List.reverse_nil, List.nil_append] at units
    rw [← units]
    exact CompoundUnit.exists_ofPowers_iff.mp ⟨unit, equal⟩
  · rintro ⟨accepted, unmixed⟩
    obtain ⟨atoms, pieces⟩ := accepted.exists_pieces catalog
    have related := mapM_eq_ok_iff.mp pieces
    obtain ⟨powers, named⟩ := (exists_powers_iff .start related).mpr accepted
    have units := units_of_namedPowers related named
    rw [List.map_nil, List.reverse_nil, List.nil_append] at units
    rw [← units] at unmixed
    obtain ⟨unit, equal⟩ := CompoundUnit.exists_ofPowers_iff.mpr unmixed
    exact ⟨unit, bind_eq_ok.mpr ⟨atoms, pieces, bind_eq_ok.mpr ⟨powers, named, equal⟩⟩⟩

/-- A second exponent of one name is accepted, but is not of the documented form. -/
theorem exists_undocumented :
    let contents : List Token :=
      [⟨.literal, "m"⟩, powerSign, ⟨.number, "2"⟩, powerSign, ⟨.number, "3"⟩]
    (∃ unit, ofContents Catalog.builtin contents = .ok unit) ∧
      ¬ ∃ bracket : Bracket, bracket.tokens = contents := by
  intro contents
  constructor
  · generalize named : UnitAtom.unitOfName Catalog.builtin "m" = metre
    have pieces : contents.mapM (UnitAtom.ofToken Catalog.builtin) =
        .ok [.named metre, .power, .number "2", .power, .number "3"] := named ▸ rfl
    obtain ⟨two, readTwo⟩ := Option.isSome_iff_exists.mp
      (show (Decimal.read? "2").isSome = true by decide +kernel)
    obtain ⟨three, readThree⟩ := Option.isSome_iff_exists.mp
      (show (Decimal.read? "3").isSome = true by decide +kernel)
    have powers : CompoundUnit.namedPowers false []
        [.named metre, .power, .number "2", .power, .number "3"] = .ok [⟨metre, three * 1⟩] := by
      simp [CompoundUnit.namedPowers, readTwo, readThree]
    have unmixed : Unmixed ([⟨metre, three * 1⟩].map UnitPower.unit) := by simp [Unmixed]
    obtain ⟨unit, equal⟩ := CompoundUnit.exists_ofPowers_iff.mpr unmixed
    exact ⟨unit, bind_eq_ok.mpr ⟨_, pieces, bind_eq_ok.mpr ⟨_, powers, equal⟩⟩⟩
  · rintro ⟨bracket, equal⟩
    have chain := equal ▸ bracket.isChain_tokens
    simp [contents, Adjacent, powerSign] at chain

end Bracket

end UnitSheet
