/-
This file holds tables: values under text keys, in the order in which the keys came.

Putting a value under a known key replaces the value and keeps the place of the key.
-/

namespace UnitSheet

/-- Values under distinct keys. -/
structure Table (α : Type) where
  entries : List (String × α)

namespace Table

variable {α : Type}

/-- The table without keys. -/
def empty : Table α := ⟨[]⟩

/-- The value under a key. -/
def find? (table : Table α) (key : String) : Option α :=
  table.entries.lookup key

/-- Whether there is a value under a key. -/
def contains (table : Table α) (key : String) : Bool :=
  (table.find? key).isSome

/-- The keys, oldest first. -/
def keys (table : Table α) : List String :=
  table.entries.map Prod.fst

/-- Entries with one more value; a known key keeps its place. -/
def putEntry (key : String) (value : α) : List (String × α) → List (String × α)
  | [] => [(key, value)]
  | (known, old) :: rest =>
    if key = known then (key, value) :: rest else (known, old) :: putEntry key value rest

/-- The table with one more value. -/
def put (table : Table α) (key : String) (value : α) : Table α :=
  ⟨putEntry key value table.entries⟩

/-- The table with more values, put in order. -/
def putAll (table : Table α) (entries : List (String × α)) : Table α :=
  entries.foldl (fun current (key, value) => current.put key value) table

/-- The table of a list of values, put in order. -/
def ofList (entries : List (String × α)) : Table α :=
  empty.putAll entries

/-! ### What is found after a value is put -/

/-- A key is found at the first entry that has it. -/
theorem lookup_cons (key known : String) (value : α) (rest : List (String × α)) :
    ((known, value) :: rest).lookup key = if key = known then some value else rest.lookup key := by
  by_cases same : key = known
  · subst same
    rw [List.lookup_cons_self, if_pos rfl]
  · have differs : (key == known) = false := beq_false_of_ne same
    rw [List.lookup_cons, differs, if_neg same]

/-- Putting an entry changes what is found under its key and nothing else. -/
theorem lookup_putEntry (key other : String) (value : α) (entries : List (String × α)) :
    (putEntry key value entries).lookup other =
      if other = key then some value else entries.lookup other := by
  induction entries with
  | nil => simp only [putEntry, lookup_cons]
  | cons entry rest inductionHypothesis =>
    obtain ⟨known, old⟩ := entry
    by_cases same : key = known
    · subst same
      simp only [putEntry, if_pos, lookup_cons]
      split <;> rfl
    · simp only [putEntry, if_neg same, lookup_cons, inductionHypothesis]
      by_cases found : other = known
      · simp [found, Ne.symm same]
      · simp [found]

/-- Under the key just put there is the new value, and under every other key what was there. -/
theorem find?_put (table : Table α) (key other : String) (value : α) :
    (table.put key value).find? other = if other = key then some value else table.find? other :=
  lookup_putEntry key other value table.entries

end Table

end UnitSheet
