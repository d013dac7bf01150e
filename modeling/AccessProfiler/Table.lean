/-!
# Finite tables

A table holds at most one value for a key and keeps its keys in the order in which they first came
in.  The main statement is `get?_put`: after a value is put under a key, that key has it and every
other key has what it had.
-/

namespace AccessProfiler

/-- A table from keys to values. -/
structure Table (Key Value : Type) where
  entries : List (Key × Value)
deriving DecidableEq

namespace Table

variable {Key Value : Type} [DecidableEq Key]

/-- No key has a value. -/
def empty : Table Key Value := ⟨[]⟩

instance : Inhabited (Table Key Value) := ⟨.empty⟩

/-- The value of a key. -/
def get? (table : Table Key Value) (key : Key) : Option Value :=
  (table.entries.find? fun entry => entry.1 = key).map Prod.snd

/-- The entries with a value put under a key, in the place of an earlier one. -/
def putEntry (key : Key) (value : Value) : List (Key × Value) → List (Key × Value)
  | [] => [(key, value)]
  | entry :: rest =>
    if entry.1 = key then (key, value) :: rest else entry :: putEntry key value rest

/-- Put a value under a key. -/
def put (table : Table Key Value) (key : Key) (value : Value) : Table Key Value :=
  ⟨putEntry key value table.entries⟩

/-- The keys, in the order in which they first came in. -/
def keys (table : Table Key Value) : List Key :=
  table.entries.map Prod.fst

/-- The values, in the order of their keys. -/
def values (table : Table Key Value) : List Value :=
  table.entries.map Prod.snd

@[simp]
theorem get?_empty (key : Key) :
    (Table.empty : Table Key Value).get? key = none :=
  rfl

theorem find?_putEntry
    (key other : Key)
    (value : Value)
    (entries : List (Key × Value)) :
    ((putEntry key value entries).find? fun entry => entry.1 = other).map Prod.snd =
      if other = key then some value
      else (entries.find? fun entry => entry.1 = other).map Prod.snd := by
  induction entries with
  | nil =>
    by_cases equal : other = key
    · simp [putEntry, equal]
    · simp [putEntry, equal, Ne.symm equal]
  | cons entry rest hypothesis =>
    unfold putEntry
    by_cases present : entry.1 = key
    · subst present
      by_cases equal : other = entry.1
      · simp [equal]
      · simp [equal, Ne.symm equal]
    · by_cases equal : entry.1 = other
      · subst equal
        simp [present]
      · simp [present, equal, hypothesis]

/-- After a value is put under a key, that key has it and the other keys keep theirs. -/
@[simp]
theorem get?_put
    (table : Table Key Value)
    (key other : Key)
    (value : Value) :
    (table.put key value).get? other = if other = key then some value else table.get? other :=
  find?_putEntry key other value table.entries

/-- No key comes in but the one that a value is put under. -/
theorem keys_putEntry_subset
    (key : Key)
    (value : Value)
    (entries : List (Key × Value)) :
    ∀ entry ∈ putEntry key value entries,
      entry.1 = key ∨ entry.1 ∈ entries.map Prod.fst := by
  induction entries with
  | nil => simp [putEntry]
  | cons first rest hypothesis =>
    unfold putEntry
    split
    · rename_i same
      intro entry member
      rcases List.mem_cons.1 member with rfl | later
      · exact .inl rfl
      · exact .inr (List.mem_map.2 ⟨entry, List.mem_cons_of_mem _ later, rfl⟩)
    · intro entry member
      rcases List.mem_cons.1 member with rfl | later
      · exact .inr (by simp)
      · exact (hypothesis entry later).imp_right (List.mem_cons_of_mem _)

end Table
end AccessProfiler
