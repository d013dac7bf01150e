/-!
# Free names

New names are numbered: of an endless supply of candidates the first that is not taken is used.
Since the candidates differ from each other, one more of them than there are names taken is enough
to find it.
-/

namespace AccessProfiler.Text

/-- The first candidate that is not taken. -/
def firstFree
    (taken : List String)
    (candidate : Nat → String) : String :=
  match ((List.range (taken.length + 1)).map candidate).find? fun name => !taken.contains name with
  | some name => name
  | none => candidate (taken.length + 1)

end AccessProfiler.Text
