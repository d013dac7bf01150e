import AccessProfiler.Number.Numeral
import AccessProfiler.Proofs.Spelling
import AccessProfiler.Text.Searching

/-!
# Parts of joined texts

A text that was joined from parts is taken apart by searching for what stands between them.  The first
occurrence of a pattern is the one that it was joined with if the pattern begins with a character that
the part in front does not have; the last occurrence is found by searching from the other end.  Lines
that were joined by line feeds are found again (`lines_intercalate`), and so is a number that was spelled
in digits (`Number.long?_toString`).
-/

namespace AccessProfiler

namespace Text

variable {first character : Char} {tail before after ending text line rest : List Char}

/-- A pattern in front is found there. -/
theorem cutFirst?_append (pattern rest : List Char) :
    cutFirst? pattern (pattern ++ rest) = some ([], rest) := by
  cases joined : pattern ++ rest with
  | nil =>
    obtain ⟨rfl, rfl⟩ := List.append_eq_nil_iff.1 joined
    rfl
  | cons character others =>
    have inFront : pattern.isPrefixOf (character :: others) := by
      rw [← joined, List.isPrefixOf_iff_prefix]
      exact List.prefix_append pattern rest
    rw [cutFirst?, if_pos inFront, ← joined, List.drop_left]

/-- A pattern is found if it occurs anywhere. -/
theorem cutFirst?_isSome_iff {pattern : List Char} : (cutFirst? pattern text).isSome ↔ pattern <:+: text := by
  induction text with
  | nil => cases pattern <;> simp [cutFirst?]
  | cons character others hypothesis =>
    rw [cutFirst?, List.infix_cons_iff, ← hypothesis, ← List.isPrefixOf_iff_prefix]
    split
    · rename_i inFront
      exact iff_of_true rfl (.inl inFront)
    · rename_i elsewhere
      rw [Option.isSome_map, or_iff_right elsewhere]

/-- A pattern is found behind a text without its first character. -/
theorem cutFirst?_of_not_mem (absent : first ∉ before) :
    cutFirst? (first :: tail) (before ++ first :: tail ++ after) = some (before, after) := by
  induction before with
  | nil => exact cutFirst?_append (first :: tail) after
  | cons character others hypothesis =>
    rw [List.mem_cons, not_or] at absent
    have elsewhere : ¬ (first :: tail).isPrefixOf (character :: (others ++ first :: tail ++ after)) := by
      simp [absent.1]
    rw [List.cons_append, List.cons_append, cutFirst?, if_neg elsewhere, hypothesis absent.2,
      Option.map_some]

/-- The last occurrence of a pattern stands in front of a text without its last character. -/
theorem cutLast?_of_not_mem (absent : first ∉ after) :
    cutLast? (tail ++ [first]) (before ++ (tail ++ [first]) ++ after) = some (before, after) := by
  have absentReversed : first ∉ after.reverse := by simpa using absent
  have reversed :
      (before ++ (tail ++ [first]) ++ after).reverse =
        after.reverse ++ first :: tail.reverse ++ before.reverse := by
    simp
  rw [cutLast?, reversed, List.reverse_append, List.reverse_singleton, List.singleton_append,
    cutFirst?_of_not_mem absentReversed, Option.map_some]
  simp only [List.reverse_reverse]

theorem beforeEnding?_append (before ending : List Char) :
    beforeEnding? ending (before ++ ending) = some before := by
  unfold beforeEnding?
  rw [if_pos, List.length_append, Nat.add_sub_cancel, List.take_left]
  rw [List.reverse_append, List.isPrefixOf_iff_prefix]
  exact List.prefix_append _ _

/-- A text does not end in a word whose last character is another one. -/
theorem beforeEnding?_eq_none {last : Char} (differs : last ≠ character) :
    beforeEnding? (ending ++ [last]) (before ++ [character]) = none := by
  unfold beforeEnding?
  rw [if_neg]
  simp [differs]

/-- A text between visible characters has no blanks at its ends. -/
theorem trim_eq_self_of_ends
    (head : ∀ character ∈ text.head?, isBlank character = false)
    (last : ∀ character ∈ text.getLast?, isBlank character = false) :
    trim text = text := by
  have fromRight : trimLeft text.reverse = text.reverse :=
    trimLeft_eq_self fun character found => last character (by simpa using found)
  rw [trim, trimLeft_eq_self head, trimRight, fromRight, List.reverse_reverse]

/-! ## Lines -/

/-- The text is a whole line: it is not empty, no line feed occurs in it, and it does not end in a
carriage return. -/
structure IsLine (line : List Char) : Prop where
  nonempty : line ≠ []
  unbroken : '\n' ∉ line
  ended : line.getLast? ≠ some '\r'

theorem lines_eq_singleton (nonempty : line ≠ []) (unbroken : '\n' ∉ line) : lines line = [line] := by
  induction line with
  | nil => exact absurd rfl nonempty
  | cons character others hypothesis =>
    rw [List.mem_cons, not_or] at unbroken
    cases others with
    | nil =>
      unfold lines linesOf
      rw [if_neg (Ne.symm unbroken.1)]
    | cons next others =>
      have differs : ¬ (character = '\r' ∧ next = '\n') := by
        rintro ⟨-, rfl⟩
        exact unbroken.2 List.mem_cons_self
      have further := hypothesis (List.cons_ne_nil _ _) unbroken.2
      unfold lines at further ⊢
      rw [linesOf, if_neg differs, if_neg (Ne.symm unbroken.1), further]
      rfl

/-- A line is taken off a text. -/
theorem lines_append
    (unbroken : '\n' ∉ line)
    (ended : line.getLast? ≠ some '\r') :
    lines (line ++ '\n' :: rest) = line :: lines rest := by
  induction line with
  | nil =>
    unfold lines
    cases rest with
    | nil => rfl
    | cons next others =>
      rw [List.nil_append, linesOf, if_neg (by simp), if_pos rfl]
  | cons character others hypothesis =>
    rw [List.mem_cons, not_or] at unbroken
    have endedFurther : others.getLast? ≠ some '\r' := by
      intro last
      cases others with
      | nil => cases last
      | cons next others => exact ended (by rw [List.getLast?_cons_cons, last])
    have further := hypothesis unbroken.2 endedFurther
    cases joined : others ++ '\n' :: rest with
    | nil => exact absurd joined (by simp)
    | cons next later =>
      have differs : ¬ (character = '\r' ∧ next = '\n') := by
        rintro ⟨rfl, rfl⟩
        cases others with
        | nil => exact ended rfl
        | cons other others =>
          cases joined
          exact unbroken.2 List.mem_cons_self
      rw [joined] at further
      unfold lines at further ⊢
      rw [List.cons_append, joined, linesOf, if_neg differs, if_neg (Ne.symm unbroken.1), further]
      rfl

/-- Lines that were joined by line feeds are found again. -/
theorem lines_intercalate
    {parts : List (List Char)}
    (areLines : ∀ line ∈ parts, IsLine line) :
    lines (['\n'].intercalate parts) = parts := by
  induction parts with
  | nil => rfl
  | cons line others hypothesis =>
    have isLine := areLines line List.mem_cons_self
    cases others with
    | nil =>
      rw [List.intercalate_singleton]
      exact lines_eq_singleton isLine.nonempty isLine.unbroken
    | cons next others =>
      rw [List.intercalate_cons_cons, List.append_assoc, List.singleton_append,
        lines_append isLine.unbroken isLine.ended,
        hypothesis fun other member => areLines other (List.mem_cons_of_mem _ member)]

end Text

/-! ## Numbers -/

namespace Number

theorem digits?_toDigits (number : Nat) : digits? (Nat.toDigits 10 number) = some number := by
  have areDigits : (Nat.toDigits 10 number).all Char.isDigit := by
    rw [List.all_eq_true]
    exact fun digit member => Nat.isDigit_of_mem_toDigits (by decide) (by decide) member
  have nonempty : (Nat.toDigits 10 number).isEmpty = false := by
    simp [Nat.toDigits_ne_nil]
  unfold digits?
  rw [nonempty, areDigits]
  exact congrArg some Nat.ofDigitChars_ten_toDigits

/-- The spelling of an integer: the digits of a number, behind a minus if it is negative. -/
theorem toList_toString (value : Int) :
    (toString value).toList =
      (if value < 0 then ['-'] else []) ++ Nat.toDigits 10 value.natAbs := by
  cases value with
  | ofNat number =>
    rw [if_neg (by simp)]
    exact Nat.toList_repr
  | negSucc number =>
    rw [if_pos (Int.negSucc_lt_zero number)]
    show ("-" ++ (number + 1).repr).toList = _
    rw [String.toList_append, Nat.toList_repr]
    rfl

/-- The characters of a number are digits, except for the minus. -/
theorem eq_minus_or_isDigit
    {value : Int}
    {character : Char}
    (member : character ∈ (toString value).toList) :
    character = '-' ∨ character.isDigit := by
  rw [toList_toString] at member
  rcases List.mem_append.1 member with sign | digit
  · split at sign
    · exact .inl (List.mem_singleton.1 sign)
    · cases sign
  · exact .inr (Nat.isDigit_of_mem_toDigits (by decide) (by decide) digit)

/-- No character of a number is blank. -/
theorem isBlank_eq_false_of_mem_toString
    {value : Int}
    {character : Char}
    (member : character ∈ (toString value).toList) :
    Text.isBlank character = false := by
  rcases eq_minus_or_isDigit member with rfl | digit
  · rfl
  · refine Text.isBlank_eq_false_of_isAlphanumeric ?_
    simp [Text.isAlphanumeric, Char.isAlphanum, digit]

theorem toString_ne_nil (value : Int) : (toString value).toList ≠ [] := by
  rw [toList_toString]
  simp [Nat.toDigits_ne_nil]

/-- A number of sixty-four bits is read back from its digits. -/
theorem long?_toString
    {value : Int}
    (lower : -Int.pow 2 63 ≤ value)
    (upper : value < Int.pow 2 63) :
    long? (toString value).toList = some value := by
  have inRange : decide (-Int.pow 2 63 ≤ value ∧ value < Int.pow 2 63) = true :=
    decide_eq_true ⟨lower, upper⟩
  have isDigit : ∀ character ∈ Nat.toDigits 10 value.natAbs, character.isDigit :=
    fun character member => Nat.isDigit_of_mem_toDigits (by decide) (by decide) member
  unfold long?
  rw [toList_toString]
  split_ifs with negative
  · have number : -(value.natAbs : Int) = value := by omega
    simp only [List.singleton_append, digits?_toDigits]
    show Option.filter _ (some (-(value.natAbs : Int))) = some value
    rw [number]
    exact Option.filter_some_pos inRange
  · have number : (value.natAbs : Int) = value := by omega
    rw [List.nil_append]
    split
    · rename_i rest spelled
      exact absurd (isDigit '-' (spelled ▸ List.mem_cons_self)) (by decide)
    · rename_i rest spelled
      exact absurd (isDigit '+' (spelled ▸ List.mem_cons_self)) (by decide)
    · rw [digits?_toDigits]
      show Option.filter _ (some (value.natAbs : Int)) = some value
      rw [number]
      exact Option.filter_some_pos inRange

end Number
end AccessProfiler
