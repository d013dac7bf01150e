import AccessProfiler.Text.Fresh
import Mathlib.Data.List.Nodup
import Mathlib.Data.List.Perm.Subperm

/-!
# Free names are found

Numbers are spelled in different ways, so candidates that are numbered differ from each other.  Of such
candidates at most as many are tried in vain as there are names taken (`Text.firstFree_eq`,
`Text.length_of_taken`): the search for a free name comes to an end.
-/

namespace AccessProfiler.Text

theorem toString_injective : Function.Injective (toString : Nat → String) := by
  intro first second same
  have letters := congrArg String.toList same
  simp only [Nat.toString_eq_repr, Nat.toList_repr] at letters
  rw [← Nat.ofDigitChars_ten_toDigits (n := first), letters, Nat.ofDigitChars_ten_toDigits]

variable {taken : List String} {candidate : Nat → String}

/-- No more candidates can be taken than there are names. -/
theorem length_of_taken
    (injective : Function.Injective candidate)
    {attempts : Nat}
    (all : ∀ attempt < attempts, candidate attempt ∈ taken) :
    attempts ≤ taken.length := by
  have within : (List.range attempts).map candidate ⊆ taken := by
    intro name member
    obtain ⟨attempt, tried, rfl⟩ := List.mem_map.1 member
    exact all attempt (List.mem_range.1 tried)
  have distinct : ((List.range attempts).map candidate).Nodup :=
    List.nodup_range.map injective
  simpa using (List.subperm_of_subset distinct within).length_le

variable (taken)

/-- If the candidates differ from each other, the first free one is free. -/
theorem firstFree_not_mem (injective : Function.Injective candidate) :
    firstFree taken candidate ∉ taken := by
  unfold firstFree
  split
  · rename_i name found
    have free := List.find?_some found
    simpa using free
  · rename_i unfound
    have all : ∀ attempt < taken.length + 1, candidate attempt ∈ taken := by
      intro attempt tried
      simpa using List.find?_eq_none.1 unfound (candidate attempt)
        (List.mem_map.2 ⟨attempt, List.mem_range.2 tried, rfl⟩)
    have bound := length_of_taken injective all
    omega

/-- The candidates are tried in their order: all before the first free one are taken. -/
theorem firstFree_eq (injective : Function.Injective candidate) :
    ∃ attempt, firstFree taken candidate = candidate attempt ∧ candidate attempt ∉ taken ∧
      ∀ earlier < attempt, candidate earlier ∈ taken := by
  have free := firstFree_not_mem taken injective
  unfold firstFree at free ⊢
  split at free
  · rename_i name found
    obtain ⟨-, attempt, bounded, rfl, before⟩ := List.find?_eq_some_iff_getElem.1 found
    rw [List.getElem_map, List.getElem_range] at free
    refine ⟨attempt, by simp, free, fun earlier less => ?_⟩
    simpa using before earlier less
  · rename_i unfound
    refine ⟨taken.length + 1, by simp, free, fun earlier less => ?_⟩
    simpa using List.find?_eq_none.1 unfound (candidate earlier)
      (List.mem_map.2 ⟨earlier, List.mem_range.2 less, rfl⟩)

end AccessProfiler.Text
