/-
This file says how a command line ends.

A command takes its steps in order, and each step succeeds, fails with a message or breaks off.
A command that breaks off has no message, so it ends in order exactly if no step breaks off
(`ends_in_order_iff`). Five steps can: settings that are there and cannot be read as a text, a level
of logging that does not exist, a file of rates that is not well formed or has an integer in it that
is too large or too long, a path with a zero character in it, and a result with surrogates.
Evaluation is not among them, since every document that compiles runs.

All of this holds whatever value a text holds and whatever settings entries make up, as long as a
text without a value is refused as malformed (`ReadsOrRefuses`).
-/

import UnitSheet.Command.Run
import UnitSheet.Proofs.Totality

namespace UnitSheet.Command

/-! ### Endings -/

/-- A command ends in order if it writes a result and a line end and has nothing to complain of, or
exits with status one, writes nothing and complains in one line. -/
def Ending.InOrder (isResult : String → Prop) (ending : Ending) : Prop :=
  (∃ result, isResult result ∧ ending.status = 0 ∧ ending.output = result ++ "\n" ∧
    ending.complaints = []) ∨
  ∃ message, ending.status = 1 ∧ ending.output = "" ∧ ending.complaints = ["Error: " ++ message]

/-- A step breaks off. -/
def Breaks {α : Type} (action : Except Ending α) : Prop :=
  ∃ breakdown, action = .error (.broken breakdown)

/-- A step that has no result fails with a message or breaks off. -/
def Told {α : Type} (action : Except Ending α) : Prop :=
  ∀ ending, action = .error ending →
    (∃ message, ending = .failed message) ∨ ∃ breakdown, ending = .broken breakdown

/-- A step that has no result fails with a message. -/
def Foreseen {α : Type} (action : Except Ending α) : Prop :=
  ∀ ending, action = .error ending → ∃ message, ending = .failed message

section Steps

variable {α β : Type} {action : Except Ending α} {next : α → Except Ending β}

theorem Foreseen.not_breaks (foreseen : Foreseen action) : ¬ Breaks action := by
  rintro ⟨breakdown, equal⟩
  obtain ⟨_, other⟩ := foreseen _ equal
  cases other

theorem Foreseen.told (foreseen : Foreseen action) : Told action :=
  fun ending equal => .inl (foreseen ending equal)

theorem foreseen_ok (value : α) : Foreseen (.ok value) :=
  nofun

theorem foreseen_failed (message : String) :
    Foreseen (.error (.failed message) : Except Ending α) := by
  intro ending equal
  cases equal
  exact ⟨message, rfl⟩

theorem told_broken (breakdown : Breakdown) :
    Told (.error (.broken breakdown) : Except Ending α) := by
  intro ending equal
  cases equal
  exact .inr ⟨breakdown, rfl⟩

theorem foreseen_mapError {ε : Type} {result : Except ε α} {change : ε → Ending}
    (each : ∀ cause, ∃ message, change cause = .failed message) :
    Foreseen (result.mapError change) := by
  intro ending equal
  obtain ⟨cause, _, rfl⟩ := mapError_eq_error.mp equal
  exact each cause

/-- Two steps break off if the first does, or the second after a result of the first. -/
theorem breaks_bind : Breaks (action >>= next) ↔
    Breaks action ∨ ∃ value, action = .ok value ∧ Breaks (next value) := by
  cases action with
  | ok value =>
    constructor
    · exact fun breaks => .inr ⟨value, rfl, breaks⟩
    · rintro (breaks | ⟨_, ⟨⟩, breaks⟩)
      · exact absurd breaks (foreseen_ok value).not_breaks
      · exact breaks
  | error ending =>
    constructor
    · rintro ⟨breakdown, equal⟩
      cases equal
      exact .inl ⟨breakdown, rfl⟩
    · rintro (⟨breakdown, equal⟩ | ⟨_, ⟨⟩, _⟩)
      cases equal
      exact ⟨breakdown, rfl⟩

theorem Told.bind (first : Told action) (second : ∀ value, Told (next value)) :
    Told (action >>= next) := by
  cases action with
  | ok value => exact second value
  | error ending =>
    intro other equal
    cases equal
    exact first ending rfl

end Steps

/-! ### Settings -/

variable {readers : Readers}

/-- A text at one of the paths holds a value, or is refused as malformed. -/
def ReadsOrRefuses (readers : Readers) (files : Files) : Prop :=
  ∀ path text fault, files.read path = .ok text → readers.value text = .error fault →
    fault = .malformed

/-- There is something at the path of the settings, and it cannot be read as a text. -/
inductive SettingsOverlooked (files : Files) (path : String) : Prop
  | directory : files.read path = .error (.file (.directory path)) → SettingsOverlooked files path
  | refused {reason : String} : files.read path = .error (.refused reason path) →
      SettingsOverlooked files path

/-- The failures of settings with which a command breaks off. -/
def IsOverlooked : SettingsError → Prop
  | .file _ | .access _ | .word _ => True
  | _ => False

/-- A directory that is found at a path, and a path that is refused, is the path that is read. -/
theorem eq_of_read {files : Files} {path other : String} {error : AccessError}
    (read : files.read path = .error error)
    (names : error = .file (.directory other) ∨ ∃ reason, error = .refused reason other) :
    other = path := by
  rw [Files.read] at read
  rcases names with rfl | ⟨reason, rfl⟩
  all_goals
    split at read
    · cases read
    · cases found : files path <;> simp_all

/-- Settings that are read from a text are loaded or fail with a message. -/
theorem not_overlooked_settingsOfText {path text : String} {error : SettingsError}
    (refuses : ∀ fault, readers.value text = .error fault → fault = .malformed)
    (failed : readers.settingsOfText path text = .error error) : ¬ IsOverlooked error := by
  rw [Readers.settingsOfText] at failed
  cases read : readers.value text with
  | error fault =>
    cases refuses fault read
    rw [read] at failed
    cases failed
    exact id
  | ok datum =>
    rw [read] at failed
    cases datum with
    | null => cases failed
    | mapping entries =>
      obtain ⟨complaints, _, rfl⟩ := mapError_eq_error.mp failed
      exact id
    | _ =>
      cases failed
      exact id

theorem overlooked_settingsOfFile_iff {files : Files} {path : String}
    (refuses : ReadsOrRefuses readers files) :
    (∃ error, readers.settingsOfFile files path = .error error ∧ IsOverlooked error) ↔
      SettingsOverlooked files path := by
  rw [Readers.settingsOfFile]
  cases read : files.read path with
  | ok text =>
    refine iff_of_false ?_ ?_
    · rintro ⟨error, failed, overlooked⟩
      exact not_overlooked_settingsOfText (fun fault => refuses path text fault read) failed
        overlooked
    · rintro (directory | refused)
      · cases read.symm.trans directory
      · cases read.symm.trans refused
  | error error =>
    have unread : SettingsOverlooked files path ↔ error = .file (.directory path) ∨
        ∃ reason, error = .refused reason path := by
      constructor
      · rintro (directory | refused)
        · cases read.symm.trans directory
          exact .inl rfl
        · cases read.symm.trans refused
          exact .inr ⟨_, rfl⟩
      · rintro (rfl | ⟨reason, rfl⟩)
        · exact .directory read
        · exact .refused read
    rw [unread]
    cases error with
    | file error =>
      cases error with
      | directory other =>
        cases eq_of_read read (.inl rfl)
        exact iff_of_true ⟨_, rfl, trivial⟩ (.inl rfl)
      | _ => simp [IsOverlooked]
    | refused reason other =>
      cases eq_of_read read (.inr ⟨reason, rfl⟩)
      exact iff_of_true ⟨_, rfl, trivial⟩ (.inr ⟨reason, rfl⟩)
    | _ => simp [IsOverlooked]

variable {surroundings : Surroundings} {arguments : Arguments}

/-- The file that the settings are loaded from, if any is named. -/
def settingsPath? (surroundings : Surroundings) (arguments : Arguments) : Option String :=
  ((arguments.config.or surroundings.configVariable).filter (· ≠ "")).map Text.plainPath

theorem loadSettings_eq (readers : Readers) (surroundings : Surroundings)
    (arguments : Arguments) :
    readers.loadSettings surroundings.files arguments.config surroundings.configVariable =
      match settingsPath? surroundings arguments with
      | none => .ok Settings.standard
      | some path => readers.settingsOfFile surroundings.files path := by
  rw [Readers.loadSettings, settingsPath?]
  cases arguments.config.or surroundings.configVariable with
  | none => rfl
  | some path =>
    by_cases empty : path = ""
    · subst empty
      rfl
    · simp [Option.filter, empty]

theorem breaks_loadSettings_iff (refuses : ReadsOrRefuses readers surroundings.files) :
    Breaks (loadSettings readers surroundings arguments) ↔
      ∃ path, settingsPath? surroundings arguments = some path ∧
        SettingsOverlooked surroundings.files path := by
  have overlooked : Breaks (loadSettings readers surroundings arguments) ↔ ∃ error,
      readers.loadSettings surroundings.files arguments.config surroundings.configVariable =
        .error error ∧ IsOverlooked error := by
    rw [loadSettings]
    cases readers.loadSettings surroundings.files arguments.config
      surroundings.configVariable with
    | ok settings => simp [Breaks, Except.mapError]
    | error error => cases error <;> simp [Breaks, Except.mapError, IsOverlooked]
  rw [overlooked, loadSettings_eq]
  cases settingsPath? surroundings arguments with
  | none => simp
  | some path =>
    simp only [Option.some.injEq, exists_eq_left']
    exact overlooked_settingsOfFile_iff refuses

theorem told_loadSettings : Told (loadSettings readers surroundings arguments) := by
  intro ending equal
  obtain ⟨error, _, rfl⟩ := mapError_eq_error.mp equal
  cases error with
  | file error => exact .inr ⟨_, rfl⟩
  | access error => exact .inr ⟨_, rfl⟩
  | word fault => exact .inr ⟨_, rfl⟩
  | _ => exact .inl ⟨_, rfl⟩

/-! ### Levels of logging -/

/-- The level of logging of the settings exists, or is not asked for. -/
def HasLevel (arguments : Arguments) (settings : Settings) : Prop :=
  arguments.verbose = true ∨ ∃ level ∈ logLevels, settings.logLevel = .plain level

theorem hasLevel_iff {settings : Settings} : HasLevel arguments settings ↔
    (arguments.verbose || logLevels.any (settings.logLevel == .plain ·)) = true := by
  simp only [HasLevel, Bool.or_eq_true, List.any_eq_true, beq_iff_eq]

theorem checkLevel_eq_ok_iff {settings : Settings} {value : Unit} :
    checkLevel arguments settings = .ok value ↔ HasLevel arguments settings := by
  rw [hasLevel_iff, checkLevel]
  split
  · rename_i known
    exact iff_of_true rfl known
  · rename_i unknown
    exact iff_of_false nofun unknown

theorem breaks_checkLevel_iff {settings : Settings} :
    Breaks (checkLevel arguments settings) ↔ ¬ HasLevel arguments settings := by
  rw [hasLevel_iff, checkLevel]
  split
  · rename_i known
    exact iff_of_false (foreseen_ok _).not_breaks (not_not_intro known)
  · rename_i unknown
    exact iff_of_true ⟨_, rfl⟩ unknown

theorem told_checkLevel {settings : Settings} : Told (checkLevel arguments settings) := by
  rw [checkLevel]
  split
  · exact (foreseen_ok ()).told
  · exact told_broken _

/-! ### Exchange rates -/

/-- A value that is read as a rate. -/
def IsRate : Datum → Prop
  | .real _ => True
  | .integer value => (Datum.realOfInteger value).isInf = false
  | _ => False

/-- An integer that is too large for a rate. -/
def IsTooLarge : Datum → Prop
  | .integer value => (Datum.realOfInteger value).isInf = true
  | _ => False

/-- What a file of rates is not to be: at a path with a zero character, without a value, or with an
entry that has an integer of too many digits for its key or a too large one for its rate, where
all entries before it are in order. -/
inductive RatesOverlooked (readers : Readers) (files : Files) (path : String) : Prop
  | zeroCharacter : files.read path = .error .zeroCharacter → RatesOverlooked readers files path
  | malformed {text : String} : files.read path = .ok text →
      readers.value text = .error .malformed → RatesOverlooked readers files path
  | entry {text : String} {before after : List (Datum × Datum)} {key value : Datum} :
      files.read path = .ok text →
      readers.value text = .ok (.mapping (before ++ (key, value) :: after)) →
      (∀ entry ∈ before, IsRate entry.2 ∧ entry.1.isTooLong = false) →
      key.isTooLong = true ∨ IsTooLarge value → RatesOverlooked readers files path

/-- The failures of rates with which a command breaks off. -/
def IsOverlookedRate : RatesError → Prop
  | .access .zeroCharacter | .malformed _ | .word _ | .tooLarge | .longKey => True
  | _ => False

theorem ofEntry_integer (path : String) (key : Datum) (value : Int) :
    Rates.ofEntry path (key, .integer value) =
      if (Datum.realOfInteger value).isInf then .error .tooLarge
      else do return (← Rates.keyWord key, Datum.realOfInteger value) :=
  rfl

/-- An entry whose key is too long is never in order. -/
theorem ofEntry_of_long {path : String} {key : Datum} (long : key.isTooLong = true)
    (value : Datum) :
    ∃ error, Rates.ofEntry path (key, value) = .error error ∧ IsOverlookedRate error := by
  have keyWord : Rates.keyWord key = .error .longKey := by
    rw [Rates.keyWord, Datum.word?, if_pos long]
    rfl
  cases value with
  | integer value =>
    rw [ofEntry_integer, keyWord]
    split
    · exact ⟨.tooLarge, rfl, trivial⟩
    · exact ⟨.longKey, rfl, trivial⟩
  | _ =>
    rw [Rates.ofEntry, keyWord]
    exact ⟨.longKey, rfl, trivial⟩

/-- An entry whose key is not too long is as its value is. -/
theorem ofEntry_of_short {path : String} {key : Datum} (short : key.isTooLong = false)
    (value : Datum) :
    ((∃ rate, Rates.ofEntry path (key, value) = .ok rate) ↔ IsRate value) ∧
    ((∃ error, Rates.ofEntry path (key, value) = .error error ∧ IsOverlookedRate error) ↔
      IsTooLarge value) := by
  have keyWord : Rates.keyWord key = .ok key.keyText := by
    rw [Rates.keyWord, Datum.word?, short]
    rfl
  cases value with
  | real rate =>
    rw [Rates.ofEntry, keyWord]
    exact ⟨iff_of_true ⟨_, rfl⟩ trivial, iff_of_false (by rintro ⟨_, ⟨⟩, _⟩) id⟩
  | integer value =>
    rw [ofEntry_integer, keyWord, IsRate, IsTooLarge]
    cases (Datum.realOfInteger value).isInf with
    | true => exact ⟨iff_of_false (by simp) nofun, iff_of_true ⟨.tooLarge, rfl, trivial⟩ rfl⟩
    | false => exact ⟨iff_of_true ⟨_, rfl⟩ rfl, iff_of_false (by rintro ⟨_, ⟨⟩, _⟩) nofun⟩
  | _ =>
    rw [Rates.ofEntry, keyWord]
    refine ⟨iff_of_false (by rintro ⟨_, ⟨⟩⟩) id, iff_of_false ?_ id⟩
    rintro ⟨error, ⟨⟩, overlooked⟩
    exact overlooked

/-- An entry has a rate if both its parts are in order. -/
theorem exists_ofEntry_iff {path : String} {entry : Datum × Datum} :
    (∃ rate, Rates.ofEntry path entry = .ok rate) ↔
      IsRate entry.2 ∧ entry.1.isTooLong = false := by
  obtain ⟨key, value⟩ := entry
  by_cases long : key.isTooLong = true
  · obtain ⟨error, failed, _⟩ := @ofEntry_of_long path key long value
    refine iff_of_false ?_ fun both => Bool.noConfusion (long.symm.trans both.2)
    rintro ⟨rate, equal⟩
    cases equal.symm.trans failed
  · have short := Bool.eq_false_iff.mpr long
    exact (ofEntry_of_short short value).1.trans (and_iff_left short).symm

theorem overlooked_ofEntry_iff {path : String} {key value : Datum} :
    (∃ error, Rates.ofEntry path (key, value) = .error error ∧ IsOverlookedRate error) ↔
      key.isTooLong = true ∨ IsTooLarge value := by
  by_cases long : key.isTooLong = true
  · exact iff_of_true (ofEntry_of_long long value) (.inl long)
  · exact (ofEntry_of_short (Bool.eq_false_iff.mpr long) value).2.trans (or_iff_right long).symm

/-- The entries of a file of rates are overlooked if one is, after others that are in order. -/
theorem overlooked_entries_iff {path : String} {entries : List (Datum × Datum)} :
    (∃ error, entries.mapM (Rates.ofEntry path) = .error error ∧ IsOverlookedRate error) ↔
      ∃ before key value after, entries = before ++ (key, value) :: after ∧
        (∀ entry ∈ before, IsRate entry.2 ∧ entry.1.isTooLong = false) ∧
        (key.isTooLong = true ∨ IsTooLarge value) := by
  simp only [mapM_eq_error_iff, exists_ofEntry_iff]
  constructor
  · rintro ⟨error, ⟨before, ⟨key, value⟩, after, split, rates, failed⟩, overlooked⟩
    exact ⟨before, key, value, after, split, rates,
      overlooked_ofEntry_iff.mp ⟨error, failed, overlooked⟩⟩
  · rintro ⟨before, key, value, after, split, rates, cause⟩
    obtain ⟨error, failed, overlooked⟩ := (@overlooked_ofEntry_iff path key value).mpr cause
    exact ⟨error, ⟨before, _, after, split, rates, failed⟩, overlooked⟩

/-- Collecting the rates of entries fails as reading the entries does. -/
theorem collected_eq_error_iff {path : String} {entries : List (Datum × Datum)}
    {error : RatesError} :
    (do return Table.ofList (← entries.mapM (Rates.ofEntry path))) =
        (.error error : Except RatesError (Table Float)) ↔
      entries.mapM (Rates.ofEntry path) = .error error := by
  cases entries.mapM (Rates.ofEntry path) with
  | ok rates => exact iff_of_false nofun nofun
  | error known =>
    constructor
    · rintro ⟨⟩
      rfl
    · rintro ⟨⟩
      rfl

/-- A text of rates is overlooked if it is malformed, or holds an entry that is. -/
theorem overlooked_ratesOfText_iff {path text : String}
    (refuses : ∀ fault, readers.value text = .error fault → fault = .malformed) :
    (∃ error, readers.ratesOfText path text = .error error ∧ IsOverlookedRate error) ↔
      readers.value text = .error .malformed ∨ ∃ before key value after,
        readers.value text = .ok (.mapping (before ++ (key, value) :: after)) ∧
          (∀ entry ∈ before, IsRate entry.2 ∧ entry.1.isTooLong = false) ∧
          (key.isTooLong = true ∨ IsTooLarge value) := by
  rw [Readers.ratesOfText]
  cases holds : readers.value text with
  | error fault =>
    cases refuses fault holds
    exact iff_of_true ⟨_, rfl, trivial⟩ (.inl rfl)
  | ok datum =>
    cases datum with
    | mapping entries =>
      simp only [collected_eq_error_iff, overlooked_entries_iff, Except.ok.injEq,
        Datum.mapping.injEq, reduceCtorEq, false_or]
    | _ => simp [IsOverlookedRate]

theorem overlooked_ratesOfFile_iff {files : Files} {path : String}
    (refuses : ReadsOrRefuses readers files) :
    (∃ error, readers.ratesOfFile files path = .error error ∧ IsOverlookedRate error) ↔
      RatesOverlooked readers files path := by
  rw [Readers.ratesOfFile]
  cases read : files.read path with
  | error error =>
    have unread : RatesOverlooked readers files path ↔ error = .zeroCharacter := by
      constructor
      · rintro (zero | ⟨found, _⟩ | ⟨found, _, _, _⟩)
        · cases read.symm.trans zero
          rfl
        · cases read.symm.trans found
        · cases read.symm.trans found
      · rintro rfl
        exact .zeroCharacter read
    rw [unread]
    cases error with
    | zeroCharacter => exact iff_of_true ⟨_, rfl, trivial⟩ rfl
    | _ =>
      refine iff_of_false ?_ nofun
      rintro ⟨_, ⟨⟩, overlooked⟩
      exact overlooked
  | ok text =>
    refine (overlooked_ratesOfText_iff fun fault => refuses path text fault read).trans ?_
    constructor
    · rintro (malformed | ⟨before, key, value, after, holds, rates, cause⟩)
      · exact .malformed read malformed
      · exact .entry read holds rates cause
    · rintro (zero | ⟨found, malformed⟩ | ⟨found, holds, rates, cause⟩)
      · cases read.symm.trans zero
      · cases read.symm.trans found
        exact .inl malformed
      · cases read.symm.trans found
        exact .inr ⟨_, _, _, _, holds, rates, cause⟩

theorem loadRates_cases (readers : Readers) (surroundings : Surroundings)
    (arguments : Arguments) :
    (Breaks (loadRates readers surroundings arguments) ↔ ∃ path, arguments.rates = some path ∧
      ∃ error, readers.ratesOfFile surroundings.files path = .error error ∧
        IsOverlookedRate error) ∧
    Told (loadRates readers surroundings arguments) := by
  rw [loadRates]
  cases arguments.rates with
  | none => exact ⟨iff_of_false (foreseen_ok _).not_breaks (by simp), (foreseen_ok _).told⟩
  | some path =>
    simp only [Option.some.injEq, exists_eq_left']
    cases readers.ratesOfFile surroundings.files path with
    | ok rates => exact ⟨iff_of_false (foreseen_ok _).not_breaks (by simp), (foreseen_ok _).told⟩
    | error error =>
      simp only [Except.error.injEq, exists_eq_left']
      cases error with
      | access error =>
        cases error with
        | zeroCharacter => exact ⟨iff_of_true ⟨_, rfl⟩ trivial, told_broken _⟩
        | _ => exact ⟨iff_of_false (foreseen_failed _).not_breaks id, (foreseen_failed _).told⟩
      | malformed | word | tooLarge | longKey =>
        exact ⟨iff_of_true ⟨_, rfl⟩ trivial, told_broken _⟩
      | _ => exact ⟨iff_of_false (foreseen_failed _).not_breaks id, (foreseen_failed _).told⟩

theorem breaks_loadRates_iff (refuses : ReadsOrRefuses readers surroundings.files) :
    Breaks (loadRates readers surroundings arguments) ↔ ∃ path, arguments.rates = some path ∧
      RatesOverlooked readers surroundings.files path := by
  simp only [(loadRates_cases readers surroundings arguments).1,
    overlooked_ratesOfFile_iff refuses]

/-! ### Sources -/

/-- The document is at a path with a zero character in it. -/
def SourceOverlooked (surroundings : Surroundings) (arguments : Arguments) : Prop :=
  ∃ path, arguments.file = some path ∧ surroundings.files.read path = .error .zeroCharacter

theorem loadSource_cases (surroundings : Surroundings) (arguments : Arguments) :
    (Breaks (loadSource surroundings arguments) ↔ SourceOverlooked surroundings arguments) ∧
    Told (loadSource surroundings arguments) := by
  rw [loadSource, SourceOverlooked]
  cases arguments.file with
  | none => exact ⟨iff_of_false (foreseen_ok _).not_breaks (by simp), (foreseen_ok _).told⟩
  | some path =>
    simp only [Option.some.injEq, exists_eq_left']
    cases surroundings.files.read path with
    | ok text => exact ⟨iff_of_false (foreseen_ok _).not_breaks nofun, (foreseen_ok _).told⟩
    | error error =>
      cases error with
      | zeroCharacter => exact ⟨iff_of_true ⟨_, rfl⟩ rfl, told_broken _⟩
      | _ => exact ⟨iff_of_false (foreseen_failed _).not_breaks nofun, (foreseen_failed _).told⟩

/-! ### Results -/

theorem foreseen_withRates {catalog : Catalog} {rates : List (String × Float)} :
    Foreseen (withRates catalog rates) :=
  foreseen_mapError fun _ => ⟨_, rfl⟩

/-- The result of an action: the page for a document, or the report of its worksheet. -/
def IsResult (settings : Settings) (catalog : Catalog) (source : String) : Action → String → Prop
  | .colorize, result => result = Markup.document source
  | .execute, result => ∃ sheet outcomes, Sheet.run catalog source = .ok (sheet, outcomes) ∧
      sheet.report settings outcomes = .plain result

/-- A line of the report of a document is a marker of the settings with surrogates in it. -/
def Unwritable (settings : Settings) (catalog : Catalog) (source : String) : Action → Prop
  | .colorize => False
  | .execute => ∃ sheet outcomes, Sheet.run catalog source = .ok (sheet, outcomes) ∧
      ∃ line ∈ sheet.lineTexts settings outcomes, line.written? = none

/-- The surrogates of a report are those of a marker of the settings. -/
theorem Unwritable.marker {settings : Settings} {catalog : Catalog} {source : String}
    {action : Action} (unwritable : Unwritable settings catalog source action) :
    settings.errorMarker.written? = none ∨ settings.emptyMarker.written? = none := by
  cases action with
  | colorize => exact unwritable.elim
  | execute =>
    obtain ⟨sheet, outcomes, _, text, member, refused⟩ := unwritable
    rw [Sheet.lineTexts, ← List.map_uncurry_zip_eq_zipWith] at member
    obtain ⟨⟨line, outcome⟩, _, rfl⟩ := List.mem_map.mp member
    cases outcome with
    | error error => exact .inl refused
    | ok quantity =>
      have shown : (if line.isBlank then settings.emptyMarker
          else .plain (quantity.text settings.precision)).written? = none := refused
      split at shown
      · exact .inr shown
      · cases shown

/-- A result is written unless it has surrogates in it. -/
theorem writeResult_cases (result : RawText) :
    (Breaks (writeResult result) ↔ result.written? = none) ∧ Told (writeResult result) ∧
      ∀ text, writeResult result = .ok text → result = .plain text := by
  cases result with
  | plain text =>
    refine ⟨iff_of_false (foreseen_ok _).not_breaks nofun, (foreseen_ok _).told, ?_⟩
    rintro written ⟨⟩
    rfl
  | surrogates codes unpaired => exact ⟨iff_of_true ⟨_, rfl⟩ rfl, told_broken _, nofun⟩

/-- A document has a result, or is refused with a message, or has a result that is not written. -/
theorem produce_cases (action : Action) (settings : Settings) (catalog : Catalog)
    (source : String) :
    (Breaks (produce action settings catalog source) ↔
      Unwritable settings catalog source action) ∧
    Told (produce action settings catalog source) ∧
    ∀ result, produce action settings catalog source = .ok result →
      IsResult settings catalog source action result := by
  cases action with
  | colorize =>
    refine ⟨iff_of_false (foreseen_ok _).not_breaks id, (foreseen_ok _).told, ?_⟩
    rintro result ⟨⟩
    rfl
  | execute =>
    cases compiled : Sheet.compile catalog source with
    | error cyclic =>
      have refused : Sheet.run catalog source = .error (.cyclic cyclic) := by
        rw [Sheet.run, compiled]
        rfl
      rw [produce, refused]
      refine ⟨iff_of_false (foreseen_failed _).not_breaks ?_, (foreseen_failed _).told, ?_⟩
      · rintro ⟨sheet, outcomes, ran, _⟩
        cases refused.symm.trans ran
      · rintro result ⟨⟩
    | ok sheet =>
      obtain ⟨outcomes, ran, _⟩ := Sheet.exists_run_of_compile compiled
      obtain ⟨breaks, told, written⟩ := writeResult_cases (sheet.report settings outcomes)
      have unwritable : Unwritable settings catalog source .execute ↔
          (sheet.report settings outcomes).written? = none := by
        rw [Sheet.report, RawText.written?_joinLines_eq_none_iff]
        constructor
        · rintro ⟨_, _, again, refused⟩
          cases ran.symm.trans again
          exact refused
        · exact fun refused => ⟨sheet, outcomes, ran, refused⟩
      rw [produce, ran]
      exact ⟨breaks.trans unwritable.symm, told,
        fun result equal => ⟨sheet, outcomes, ran, written result equal⟩⟩

/-! ### Commands -/

/-- What a command has set up before it reads its document: settings with a level of logging, and
the catalogue with the exchange rates of the settings and those of a file. -/
structure Prepared (readers : Readers) (surroundings : Surroundings) (arguments : Arguments)
    (settings : Settings) (catalog : Catalog) : Prop where
  ofSettings : readers.loadSettings surroundings.files arguments.config
    surroundings.configVariable = .ok settings
  hasLevel : HasLevel arguments settings
  ofRates : ∃ configured rates,
    Catalog.builtin.setRates settings.currencyRates.entries = .ok configured ∧
    loadRates readers surroundings arguments = .ok rates ∧ configured.setRates rates = .ok catalog

/-- What a command works with: what it has set up, and its document. -/
structure Loaded (readers : Readers) (surroundings : Surroundings) (arguments : Arguments)
    (settings : Settings) (catalog : Catalog) (source : String) : Prop where
  prepared : Prepared readers surroundings arguments settings catalog
  ofSource : loadSource surroundings arguments = .ok source

/-- What a command is not prepared for, step by step: settings that are there and cannot be read, a
level of logging that does not exist, rates that are overlooked, a path of the document with a
zero character, and a result with surrogates. -/
inductive Unprepared (readers : Readers) (surroundings : Surroundings) (arguments : Arguments) :
    Prop
  | settings {path : String} : settingsPath? surroundings arguments = some path →
      SettingsOverlooked surroundings.files path → Unprepared readers surroundings arguments
  | level {settings : Settings} :
      readers.loadSettings surroundings.files arguments.config surroundings.configVariable =
        .ok settings →
      ¬ HasLevel arguments settings → Unprepared readers surroundings arguments
  | rates {settings : Settings} {configured : Catalog} {path : String} :
      readers.loadSettings surroundings.files arguments.config surroundings.configVariable =
        .ok settings →
      HasLevel arguments settings →
      Catalog.builtin.setRates settings.currencyRates.entries = .ok configured →
      arguments.rates = some path → RatesOverlooked readers surroundings.files path →
      Unprepared readers surroundings arguments
  | source {settings : Settings} {catalog : Catalog} :
      Prepared readers surroundings arguments settings catalog →
      SourceOverlooked surroundings arguments → Unprepared readers surroundings arguments
  | result {settings : Settings} {catalog : Catalog} {source : String} :
      Loaded readers surroundings arguments settings catalog source →
      Unwritable settings catalog source arguments.action →
      Unprepared readers surroundings arguments

theorem loadSettings_eq_ok_iff {settings : Settings} :
    loadSettings readers surroundings arguments = .ok settings ↔
      readers.loadSettings surroundings.files arguments.config surroundings.configVariable =
        .ok settings :=
  mapError_eq_ok

theorem breaks_perform_iff (refuses : ReadsOrRefuses readers surroundings.files) :
    Breaks (perform readers surroundings arguments) ↔
      Unprepared readers surroundings arguments := by
  simp only [perform, breaks_bind, breaks_loadSettings_iff refuses, breaks_checkLevel_iff,
    breaks_loadRates_iff refuses, foreseen_withRates.not_breaks,
    (loadSource_cases surroundings arguments).1, (produce_cases _ _ _ _).1,
    loadSettings_eq_ok_iff, checkLevel_eq_ok_iff, false_or]
  constructor
  · rintro (⟨path, named, overlooked⟩ | ⟨settings, loaded, unknown | ⟨_, known, configured, set,
      ⟨path, named, overlooked⟩ | ⟨rates, read, catalog, also, overlooked | ⟨source, found,
        unwritable⟩⟩⟩⟩)
    · exact .settings named overlooked
    · exact .level loaded unknown
    · exact .rates loaded known (mapError_eq_ok.mp set) named overlooked
    · exact .source ⟨loaded, known, configured, rates, mapError_eq_ok.mp set, read,
        mapError_eq_ok.mp also⟩ overlooked
    · exact .result ⟨⟨loaded, known, configured, rates, mapError_eq_ok.mp set, read,
        mapError_eq_ok.mp also⟩, found⟩ unwritable
  · rintro (⟨named, overlooked⟩ | ⟨loaded, unknown⟩ | ⟨loaded, known, set, named, overlooked⟩ |
      ⟨⟨loaded, known, configured, rates, set, read, also⟩, overlooked⟩ |
      ⟨⟨⟨loaded, known, configured, rates, set, read, also⟩, found⟩, unwritable⟩)
    · exact .inl ⟨_, named, overlooked⟩
    · exact .inr ⟨_, loaded, .inl unknown⟩
    · exact .inr ⟨_, loaded, .inr ⟨(), known, _, mapError_eq_ok.mpr set,
        .inl ⟨_, named, overlooked⟩⟩⟩
    · exact .inr ⟨_, loaded, .inr ⟨(), known, _, mapError_eq_ok.mpr set,
        .inr ⟨_, read, _, mapError_eq_ok.mpr also, .inl overlooked⟩⟩⟩
    · exact .inr ⟨_, loaded, .inr ⟨(), known, _, mapError_eq_ok.mpr set,
        .inr ⟨_, read, _, mapError_eq_ok.mpr also, .inr ⟨_, found, unwritable⟩⟩⟩⟩

theorem told_perform : Told (perform readers surroundings arguments) :=
  told_loadSettings.bind fun _ => told_checkLevel.bind fun _ =>
    foreseen_withRates.told.bind fun _ =>
      (loadRates_cases readers surroundings arguments).2.bind fun _ =>
        foreseen_withRates.told.bind fun _ => (loadSource_cases surroundings arguments).2.bind
          fun _ => (produce_cases _ _ _ _).2.1

/-- The output of a command is the result for what it has loaded. -/
theorem exists_loaded_of_perform {result : String}
    (equal : perform readers surroundings arguments = .ok result) : ∃ settings catalog source,
      Loaded readers surroundings arguments settings catalog source ∧
        IsResult settings catalog source arguments.action result := by
  obtain ⟨settings, loaded, equal⟩ := bind_eq_ok.mp equal
  obtain ⟨_, level, equal⟩ := bind_eq_ok.mp equal
  obtain ⟨configured, set, equal⟩ := bind_eq_ok.mp equal
  obtain ⟨rates, read, equal⟩ := bind_eq_ok.mp equal
  obtain ⟨catalog, also, equal⟩ := bind_eq_ok.mp equal
  obtain ⟨source, found, equal⟩ := bind_eq_ok.mp equal
  have prepared : Prepared readers surroundings arguments settings catalog :=
    ⟨loadSettings_eq_ok_iff.mp loaded, checkLevel_eq_ok_iff.mp level, configured, rates,
      mapError_eq_ok.mp set, read, mapError_eq_ok.mp also⟩
  have isResult := (produce_cases arguments.action settings catalog source).2.2 result equal
  exact ⟨settings, catalog, source, ⟨prepared, found⟩, isResult⟩

theorem not_inOrder_broken (isResult : String → Prop) (breakdown : Breakdown) :
    ¬ (Ending.broken breakdown).InOrder isResult := by
  rintro (⟨_, _, status, _⟩ | ⟨_, _, _, complaints⟩)
  · cases status
  · cases complaints

/-- A command line ends in order, with the result for what it has loaded or with one complaint,
exactly if the command is prepared for everything that it reads, and it breaks off otherwise. -/
theorem ends_in_order_iff {texts : List String} (read : Arguments.read texts = .ok arguments)
    (refuses : ReadsOrRefuses readers surroundings.files) :
    ((runWith readers surroundings texts).InOrder (fun result => ∃ settings catalog source,
        Loaded readers surroundings arguments settings catalog source ∧
          IsResult settings catalog source arguments.action result) ↔
      ¬ Unprepared readers surroundings arguments) ∧
    ((∃ breakdown, runWith readers surroundings texts = .broken breakdown) ↔
      Unprepared readers surroundings arguments) := by
  rw [runWith, read]
  dsimp only
  rw [← breaks_perform_iff refuses]
  cases performed : perform readers surroundings arguments with
  | ok result =>
    refine ⟨iff_of_true (.inl ⟨result, exists_loaded_of_perform performed, rfl, rfl, rfl⟩)
      (foreseen_ok result).not_breaks, iff_of_false nofun (foreseen_ok result).not_breaks⟩
  | error ending =>
    rcases told_perform ending performed with ⟨message, rfl⟩ | ⟨breakdown, rfl⟩
    · have foreseen := (@foreseen_failed String message).not_breaks
      exact ⟨iff_of_true (.inr ⟨message, rfl, rfl, rfl⟩) foreseen, iff_of_false nofun foreseen⟩
    · exact ⟨iff_of_false (not_inOrder_broken _ breakdown) (not_not_intro ⟨breakdown, rfl⟩),
        iff_of_true ⟨breakdown, rfl⟩ ⟨breakdown, rfl⟩⟩

/-- Surroundings with settings that ask for a level of logging that does not exist. -/
def loud : Surroundings where
  files path := if path = "c.yaml" then .text "log_level: LOUD" else .missing
  input := "1"
  configVariable := none

theorem content_loud : loud.files.read "c.yaml" = .ok "log_level: LOUD" := by
  have feeds : String.ofList (Text.withLineFeeds "log_level: LOUD".toList) = "log_level: LOUD" := by
    decide +kernel
  have proper : ¬ ("c.yaml".toList.contains '\x00' = true) := by decide +kernel
  have found : loud.files "c.yaml" = .text "log_level: LOUD" := by simp [loud]
  rw [Files.read, if_neg proper, found]
  exact congrArg Except.ok feeds

/-- There is no other file. -/
theorem eq_of_read_loud {path text : String} (read : loud.files.read path = .ok text) :
    text = "log_level: LOUD" := by
  by_cases same : path = "c.yaml"
  · subst same
    cases content_loud.symm.trans read
    rfl
  · have absent : loud.files path = .missing := if_neg same
    rw [Files.read, absent] at read
    split at read <;> cases read

theorem value_loud : Yaml.read "log_level: LOUD" =
    .ok (.mapping [(.text "log_level", .text "LOUD")]) := by
  have tokens : Yaml.tokens "log_level: LOUD".toList = .ok [.entriesStart, .key,
      .scalar true "log_level", .colon, .scalar true "LOUD", .blockEnd] := by
    cbv
  have tree : Yaml.Node.ofTokens [.entriesStart, .key, .scalar true "log_level", .colon,
      .scalar true "LOUD", .blockEnd] = some (.mapping none
        [(.scalar none true "log_level", .scalar none true "LOUD")]) := by
    cbv
  have key : Yaml.Kind.ofWord "log_level" = .text := by decide +kernel
  have level : Yaml.Kind.ofWord "LOUD" = .text := by decide +kernel
  rw [Yaml.read]
  refine bind_eq_ok.mpr ⟨_, tokens, bind_eq_ok.mpr ⟨_, congrArg Yaml.orMalformed tree, ?_⟩⟩
  simp [Yaml.Node.datum, Yaml.Node.entryData, Yaml.Node.broughtData, Yaml.Node.ownData,
    Yaml.Node.kind, Yaml.scalarKind, Yaml.tagKind, Yaml.Kind.read, Yaml.mappingOf,
    Datum.putEntry, Datum.isKey, RawText.shown, key, level, bind, Except.bind, pure, Except.pure]

theorem refuses_loud : ReadsOrRefuses Readers.standard loud.files := by
  intro path text fault read failed
  have holds : Readers.standard.value text = .ok (.mapping [(.text "log_level", .text "LOUD")]) :=
    (congrArg Yaml.read (eq_of_read_loud read)).trans value_loud
  cases holds.symm.trans failed

theorem load_loud : Readers.standard.loadSettings loud.files (some "c.yaml") loud.configVariable =
    .ok { Settings.standard with logLevel := "LOUD" } := by
  have plain : Text.plainPath "c.yaml" = "c.yaml" := by decide +kernel
  have holds : Readers.standard.value "log_level: LOUD" =
      .ok (.mapping [(.text "log_level", .text "LOUD")]) := value_loud
  rw [Readers.loadSettings]
  show Readers.standard.settingsOfFile loud.files (Text.plainPath "c.yaml") = _
  rw [plain, Readers.settingsOfFile, content_loud]
  show Readers.standard.settingsOfText "c.yaml" "log_level: LOUD" = _
  rw [Readers.settingsOfText, holds]
  rfl

/-- A verbose command does not ask for the level of the settings, and ends in order. -/
theorem ends_in_order_of_verbose :
    let arguments : Arguments := ⟨.execute, none, some "c.yaml", none, true⟩
    Arguments.read ["execute", "-v", "--config", "c.yaml"] = .ok arguments ∧
      ReadsOrRefuses Readers.standard loud.files ∧
      (run loud ["execute", "-v", "--config", "c.yaml"]).InOrder fun result =>
        ∃ settings catalog source,
          Loaded Readers.standard loud arguments settings catalog source ∧
            IsResult settings catalog source .execute result := by
  intro arguments
  have read : Arguments.read ["execute", "-v", "--config", "c.yaml"] = .ok arguments := by
    rfl
  refine ⟨read, refuses_loud, (ends_in_order_iff read refuses_loud).1.mpr ?_⟩
  rintro (⟨named, overlooked⟩ | ⟨_, unknown⟩ | ⟨_, _, _, named, _⟩ | ⟨_, _, named, _⟩ |
    ⟨loaded, unwritable⟩)
  · have breaks := (breaks_loadSettings_iff refuses_loud).mpr ⟨_, named, overlooked⟩
    rw [loadSettings_eq_ok_iff.mpr load_loud] at breaks
    exact (foreseen_ok _).not_breaks breaks
  · exact unknown (.inl rfl)
  · cases named
  · cases named
  · have same := loaded.prepared.ofSettings.symm.trans load_loud
    cases same
    rcases unwritable.marker with errorMarker | emptyMarker
    · cases errorMarker
    · cases emptyMarker

/-- A command breaks off for a level of logging that does not exist. -/
theorem not_in_order_of_level :
    ¬ ∃ isResult, (run loud ["execute", "--config", "c.yaml"]).InOrder isResult := by
  have read : Arguments.read ["execute", "--config", "c.yaml"] =
      .ok ⟨.execute, none, some "c.yaml", none, false⟩ := by
    rfl
  have unknown : ¬ HasLevel ⟨.execute, none, some "c.yaml", none, false⟩
      { Settings.standard with logLevel := "LOUD" } := by
    simp [HasLevel, logLevels]
  obtain ⟨breakdown, breaks⟩ := (breaks_perform_iff refuses_loud).mpr (.level load_loud unknown)
  rintro ⟨isResult, inOrder⟩
  rw [run, runWith, read] at inOrder
  dsimp only at inOrder
  rw [breaks] at inOrder
  exact not_inOrder_broken isResult breakdown inOrder

end UnitSheet.Command
