import AccessProfiler.Language.Flags
import AccessProfiler.Language.TyReader
import Mathlib.Data.List.TakeWhile

/-!
# Spellings that are read back

Types and sets of flags are exchanged as texts.  The types that can be read are those that go down to a
keyword or to the name of a class, without arrays of nothing (`Ty.isSpelled_iff`), and each is read back
from its own spelling (`Ty.parse_render`).  Every set of flags is read back from its spelling, bits
without a name included, as long as each name stands for one bit (`Flags.parse?_render`).
-/

namespace AccessProfiler

namespace Text

/-- A code point of the first ranges is in none of the second. -/
theorem inRanges_eq_false
    {ranges others : List (Nat × Nat)}
    (apart : ∀ range ∈ ranges, ∀ other ∈ others, range.2 < other.1 ∨ other.2 < range.1)
    {codePoint : Nat}
    (inside : inRanges ranges codePoint) :
    inRanges others codePoint = false := by
  simp only [inRanges, List.any_eq_true, Bool.and_eq_true, decide_eq_true_eq] at inside
  obtain ⟨range, member, lower, upper⟩ := inside
  simp only [inRanges, List.any_eq_false, Bool.and_eq_true, decide_eq_true_eq]
  intro other memberOther
  have := apart range member other memberOther
  omega

theorem alphanumericRanges_apart_blankRanges :
    ∀ range ∈ alphanumericRanges, ∀ blank ∈ blankRanges,
      range.2 < blank.1 ∨ blank.2 < range.1 := by
  decide +kernel

/-- The letters and digits of ASCII. -/
theorem inRanges_of_isAlphanum {character : Char} (alphanumeric : character.isAlphanum) :
    inRanges [(0x30, 0x39), (0x41, 0x5a), (0x61, 0x7a)] character.toNat := by
  change
    ((decide (65 ≤ character.val ∧ character.val ≤ 90) ||
        (decide (97 ≤ character.val) && decide (character.val ≤ 122))) ||
      (decide (48 ≤ character.val) && decide (character.val ≤ 57))) = true at alphanumeric
  simp only [Bool.or_eq_true, Bool.and_eq_true, decide_eq_true_eq, UInt32.le_iff_toNat_le,
    UInt32.reduceToNat] at alphanumeric
  simp only [inRanges, List.any_cons, List.any_nil, Bool.or_false, Bool.or_eq_true,
    Bool.and_eq_true, decide_eq_true_eq, Char.toNat]
  omega

theorem isBlank_eq_false_of_isAlphanumeric
    {character : Char}
    (alphanumeric : isAlphanumeric character) :
    isBlank character = false := by
  simp only [isAlphanumeric, Bool.or_eq_true, Bool.and_eq_true] at alphanumeric
  rcases alphanumeric with ascii | ⟨-, other⟩
  · exact inRanges_eq_false (by decide) (inRanges_of_isAlphanum ascii)
  · exact inRanges_eq_false alphanumericRanges_apart_blankRanges other

theorem hexadecimalDigit?_digitChar : ∀ digit < 16, hexadecimalDigit? digit.digitChar = some digit := by
  decide

/-- The digits of a number have the values that add up to it. -/
theorem mapM_hexadecimalDigit?_toDigits (number : Nat) :
    ∃ values, (Nat.toDigits 16 number).mapM hexadecimalDigit? = some values ∧
      values.foldl (fun number digit => 16 * number + digit) 0 = number := by
  induction number using Nat.strongRecOn with
  | ind number hypothesis =>
    rw [Nat.toDigits_eq_if (by decide)]
    split
    · rename_i small
      refine ⟨[number], ?_, by simp⟩
      simp [hexadecimalDigit?_digitChar number small]
    · rename_i large
      obtain ⟨values, read, total⟩ := hypothesis (number / 16) (by omega)
      refine ⟨values ++ [number % 16], ?_, ?_⟩
      · have last : hexadecimalDigit? (number % 16).digitChar = some (number % 16) :=
          hexadecimalDigit?_digitChar _ (Nat.mod_lt _ (by decide))
        simp [List.mapM_append, read, last]
      · rw [List.foldl_append, total, List.foldl_cons, List.foldl_nil]
        omega

theorem ofHexadecimal?_toDigits (number : Nat) :
    ofHexadecimal? (Nat.toDigits 16 number) = some number := by
  obtain ⟨values, read, total⟩ := mapM_hexadecimalDigit?_toDigits number
  unfold ofHexadecimal?
  rw [if_neg (by simp [Nat.toDigits_ne_nil]), read, Option.map_some, total]

/-- Only digits occur in the spelling of a number. -/
theorem exists_digit_of_mem_toDigits
    {number : Nat}
    {character : Char}
    (member : character ∈ Nat.toDigits 16 number) :
    ∃ digit < 16, character = digit.digitChar := by
  induction number using Nat.strongRecOn with
  | ind number hypothesis =>
    rw [Nat.toDigits_eq_if (by decide)] at member
    split at member
    · rename_i small
      exact ⟨number, small, List.mem_singleton.1 member⟩
    · rename_i large
      rcases List.mem_append.1 member with front | last
      · exact hypothesis (number / 16) (by omega) front
      · exact ⟨number % 16, Nat.mod_lt _ (by decide), List.mem_singleton.1 last⟩

/-- The text can stand between the separators of a list: it is not empty, and no blank or separator
occurs in it. -/
def IsPart (separator : Char) (part : List Char) : Prop :=
  part ≠ [] ∧ ∀ character ∈ part, isBlank character = false ∧ character ≠ separator

instance (separator : Char) (part : List Char) : Decidable (IsPart separator part) :=
  have : Decidable (∀ character ∈ part, isBlank character = false ∧ character ≠ separator) :=
    List.decidableBAll _ _
  instDecidableAnd

theorem splitAll_eq_singleton
    {separator : Char}
    {part : List Char}
    (absent : separator ∉ part) :
    splitAll separator part = [part] := by
  induction part with
  | nil => rfl
  | cons character rest hypothesis =>
    rw [List.mem_cons, not_or] at absent
    rw [splitAll, if_neg (Ne.symm absent.1), hypothesis absent.2]

theorem splitAll_append
    {separator : Char}
    {part rest : List Char}
    (absent : separator ∉ part) :
    splitAll separator (part ++ separator :: rest) = part :: splitAll separator rest := by
  induction part with
  | nil => rw [List.nil_append, splitAll, if_pos rfl]
  | cons character others hypothesis =>
    rw [List.mem_cons, not_or] at absent
    rw [List.cons_append, splitAll, if_neg (Ne.symm absent.1), hypothesis absent.2]

theorem trimLeft_cons_of_blank {character : Char} {rest : List Char} (blank : isBlank character) :
    trimLeft (character :: rest) = trimLeft rest :=
  List.dropWhile_cons_of_pos blank

theorem trimLeft_eq_self
    {text : List Char}
    (visible : ∀ first ∈ text.head?, isBlank first = false) :
    trimLeft text = text := by
  cases text with
  | nil => rfl
  | cons first rest => exact List.dropWhile_cons_of_neg (by simp [visible first rfl])

theorem trim_eq_self
    {text : List Char}
    (visible : ∀ character ∈ text, isBlank character = false) :
    trim text = text := by
  have fromRight : trimLeft text.reverse = text.reverse :=
    trimLeft_eq_self fun first head =>
      visible first (List.mem_reverse.1 (List.mem_of_mem_head? head))
  rw [trim, trimLeft_eq_self fun first head => visible first (List.mem_of_mem_head? head),
    trimRight, fromRight, List.reverse_reverse]

theorem trim_append_blank
    {separator blank : Char}
    {part : List Char}
    (isPart : IsPart separator part)
    (isBlankBlank : isBlank blank) :
    trim (part ++ [blank]) = part := by
  have visible : ∀ character ∈ part, isBlank character = false :=
    fun character member => (isPart.2 character member).1
  have fromLeft : trimLeft (part ++ [blank]) = part ++ [blank] := by
    obtain ⟨first, rest, rfl⟩ := List.exists_cons_of_ne_nil isPart.1
    refine trimLeft_eq_self fun head same => visible head ?_
    cases same
    exact List.mem_cons_self
  have fromRight : trimLeft part.reverse = part.reverse :=
    trimLeft_eq_self fun first head =>
      visible first (List.mem_reverse.1 (List.mem_of_mem_head? head))
  rw [trim, fromLeft, trimRight, List.reverse_append, List.reverse_singleton, List.singleton_append,
    trimLeft_cons_of_blank isBlankBlank, fromRight, List.reverse_reverse]

theorem splitAll_ne_nil (separator : Char) (text : List Char) : splitAll separator text ≠ [] := by
  cases text with
  | nil => exact List.cons_ne_nil _ _
  | cons character rest =>
    rw [splitAll]
    split
    · exact List.cons_ne_nil _ _
    · split <;> exact List.cons_ne_nil _ _

/-- A blank in front is trimmed from the first part. -/
theorem map_trim_splitAll_cons
    {separator blank : Char}
    (isBlankBlank : isBlank blank)
    (differs : blank ≠ separator)
    (text : List Char) :
    (splitAll separator (blank :: text)).map trim = (splitAll separator text).map trim := by
  rw [splitAll, if_neg differs]
  cases parts : splitAll separator text with
  | nil => exact absurd parts (splitAll_ne_nil _ _)
  | cons part others =>
    dsimp only
    rw [List.map_cons, List.map_cons, trim, trim, trimLeft_cons_of_blank isBlankBlank]

/-- Parts that were joined by a separator between blanks are found again. -/
theorem map_trim_splitAll_intercalate
    {separator blank : Char}
    (isBlankBlank : isBlank blank)
    (differs : blank ≠ separator)
    {parts : List (List Char)}
    (nonempty : parts ≠ [])
    (areParts : ∀ part ∈ parts, IsPart separator part) :
    (splitAll separator ([blank, separator, blank].intercalate parts)).map trim = parts := by
  induction parts with
  | nil => exact absurd rfl nonempty
  | cons part rest hypothesis =>
    have isPart := areParts part List.mem_cons_self
    have absent : separator ∉ part := fun member => (isPart.2 separator member).2 rfl
    cases rest with
    | nil =>
      rw [List.intercalate_singleton, splitAll_eq_singleton absent, List.map_singleton,
        trim_eq_self fun character member => (isPart.2 character member).1]
    | cons next others =>
      have joined :
          [blank, separator, blank].intercalate (part :: next :: others) =
            (part ++ [blank]) ++
              separator :: blank :: [blank, separator, blank].intercalate (next :: others) := by
        rw [List.intercalate_cons_cons]
        simp
      have absentWithBlank : separator ∉ part ++ [blank] := by
        simp [absent, Ne.symm differs]
      rw [joined, splitAll_append absentWithBlank, List.map_cons, trim_append_blank isPart isBlankBlank,
        map_trim_splitAll_cons isBlankBlank differs,
        hypothesis (List.cons_ne_nil _ _) fun other member =>
          areParts other (List.mem_cons_of_mem _ member)]

theorem mem_intercalate_cons
    {separator part : List Char}
    {character : Char}
    (member : character ∈ part)
    (rest : List (List Char)) :
    character ∈ separator.intercalate (part :: rest) := by
  cases rest with
  | nil =>
    rw [List.intercalate_singleton]
    exact member
  | cons next others =>
    rw [List.intercalate_cons_cons]
    exact List.mem_append_left _ (List.mem_append_left _ member)

/-- A text with a visible character does not vanish when it is trimmed. -/
theorem trim_ne_nil
    {text : List Char}
    {character : Char}
    (member : character ∈ text)
    (visible : isBlank character = false) :
    trim text ≠ [] := by
  have survives {text : List Char} (member : character ∈ text) : character ∈ trimLeft text := by
    rw [← List.takeWhile_append_dropWhile (p := isBlank) (l := text), List.mem_append] at member
    rcases member with blank | rest
    · rw [List.mem_takeWhile_imp blank] at visible
      cases visible
    · exact rest
  have remains : character ∈ trim text :=
    List.mem_reverse.2 (survives (List.mem_reverse.2 (survives member)))
  exact List.ne_nil_of_mem remains

end Text

theorem isClassName_iff {name : List Char} :
    isClassName name ↔
      name ≠ [] ∧ name.head? ≠ some '.' ∧ name.getLast? ≠ some '.' ∧ hasDoublePoint name = false ∧
        ∀ character ∈ name, isNameCharacter character := by
  simp only [isClassName, Bool.and_eq_true, Bool.not_eq_true', bne_iff_ne, List.isEmpty_eq_false_iff,
    List.all_eq_true, and_assoc]

/-- A character of a name is neither blank nor a bracket. -/
theorem isBlank_eq_false_of_isNameCharacter
    {character : Char}
    (inName : isNameCharacter character) :
    Text.isBlank character = false := by
  simp only [isNameCharacter, Bool.or_eq_true, beq_iff_eq] at inName
  rcases inName with ((alphanumeric | rfl) | rfl) | rfl
  · exact Text.isBlank_eq_false_of_isAlphanumeric alphanumeric
  all_goals decide

namespace Ty

/-- The type goes down to a keyword or to the name of a class, and no array is of `void` or of the type
of `null`. -/
def IsSpelled : Ty → Prop
  | .object name => isClassName name.toList ∧ ofKeyword? name = none
  | .array element => element ≠ .void ∧ element ≠ .null ∧ element.IsSpelled
  | _ => True

theorem isSpelled_of_ofKeyword? {spelling : String} {type : Ty}
    (found : ofKeyword? spelling = some type) :
    type.IsSpelled := by
  unfold ofKeyword? at found
  split at found <;> cases found <;> trivial

theorem isSpelled_of_ofName {name : List Char} {type : Ty} (read : ofName name = .ok type) :
    type.IsSpelled := by
  unfold ofName at read
  dsimp only at read
  split at read
  · rename_i keyword found
    cases read
    exact isSpelled_of_ofKeyword? found
  · rename_i unfound
    split at read
    · rename_i isName
      cases read
      exact ⟨by rwa [String.toList_ofList], unfound⟩
    · cases read

theorem isSpelled_of_ofElement
    {reversed : List Char}
    {element type : Ty}
    (spelled : element.IsSpelled)
    (read : ofElement reversed element = .ok type) :
    type.IsSpelled := by
  unfold ofElement at read
  split at read
  · cases read
  · cases read
  · rename_i notVoid notNull
    cases read
    exact ⟨notVoid, notNull, spelled⟩

theorem parseReversed_cons
    {last : Char}
    {rest : List Char}
    (notBrackets : ∀ others, last = ']' → rest = '[' :: others → False) :
    parseReversed (last :: rest) =
      if Text.isBlank last then parseReversed rest else ofName (last :: rest).reverse := by
  rw [parseReversed]
  exact notBrackets

theorem isSpelled_of_parseReversed
    {reversed : List Char}
    {type : Ty}
    (read : parseReversed reversed = .ok type) :
    type.IsSpelled := by
  induction reversed using parseReversed.induct generalizing type with
  | case1 => exact isSpelled_of_ofName read
  | case2 rest hypothesis =>
    rw [parseReversed] at read
    cases inner : parseReversed rest with
    | error problem =>
      rw [inner] at read
      cases read
    | ok element =>
      rw [inner] at read
      exact isSpelled_of_ofElement (hypothesis inner) read
  | case3 last rest notBrackets blank hypothesis =>
    rw [parseReversed_cons notBrackets, if_pos blank] at read
    exact hypothesis read
  | case4 last rest notBrackets visible =>
    rw [parseReversed_cons notBrackets, if_neg visible] at read
    exact isSpelled_of_ofName read

/-- A name is read as the class of that name. -/
theorem ofName_eq_ok {name : String} (spelled : (object name).IsSpelled) :
    ofName name.toList = .ok (.object name) := by
  unfold ofName
  dsimp only
  rw [String.ofList_toList, spelled.2]
  exact if_pos spelled.1

/-- The name of a class is not empty, and neither begins nor ends with a blank or a bracket. -/
theorem name_ends {name : List Char} (isName : isClassName name) :
    (∀ first ∈ name.head?, Text.isBlank first = false) ∧
      ∃ last rest, name.reverse = last :: rest ∧ Text.isBlank last = false ∧ last ≠ ']' := by
  obtain ⟨nonempty, -, -, -, allowed⟩ := isClassName_iff.1 isName
  have visible (character : Char) (member : character ∈ name) :
      Text.isBlank character = false ∧ character ≠ ']' := by
    refine ⟨isBlank_eq_false_of_isNameCharacter (allowed character member), ?_⟩
    rintro rfl
    exact absurd (allowed _ member) (by decide)
  refine ⟨fun first head => (visible first (List.mem_of_mem_head? head)).1, ?_⟩
  cases reversed : name.reverse with
  | nil =>
    exact absurd (List.reverse_eq_nil_iff.1 reversed) nonempty
  | cons last rest =>
    have member : last ∈ name := by
      rw [← List.mem_reverse, reversed]
      exact List.mem_cons_self
    exact ⟨last, rest, rfl, visible last member⟩

theorem parseReversed_render {type : Ty} (spelled : type.IsSpelled) :
    parseReversed type.render.toList.reverse = .ok type := by
  induction type with
  | object name =>
    obtain ⟨-, last, rest, reversed, visible, notBracket⟩ := name_ends spelled.1
    have notBrackets : ∀ others, last = ']' → rest = '[' :: others → False :=
      fun _ bracket => absurd bracket notBracket
    rw [render, reversed, parseReversed_cons notBrackets, if_neg (by simp [visible]), ← reversed,
      List.reverse_reverse]
    exact ofName_eq_ok spelled
  | array element hypothesis =>
    obtain ⟨notVoid, notNull, spelledElement⟩ := spelled
    have reversed :
        (element.array).render.toList.reverse =
          ']' :: '[' :: element.render.toList.reverse := by
      rw [render, String.toList_append, List.reverse_append]
      rfl
    rw [reversed, parseReversed, hypothesis spelledElement]
    show ofElement _ element = _
    unfold ofElement
    split
    · exact absurd rfl notVoid
    · exact absurd rfl notNull
    · rfl
  | _ => decide

/-- A spelling does not begin with a blank. -/
theorem trimLeft_render {type : Ty} (spelled : type.IsSpelled) :
    Text.trimLeft type.render.toList = type.render.toList := by
  have visible : ∀ first ∈ type.render.toList.head?, Text.isBlank first = false := by
    induction type with
    | object name => exact (name_ends spelled.1).1
    | array element hypothesis =>
      have ofElement := hypothesis spelled.2.2
      rw [render, String.toList_append]
      cases characters : element.render.toList with
      | nil =>
        rintro _ ⟨⟩
        decide
      | cons first rest =>
        rw [characters] at ofElement
        exact ofElement
    | _ =>
      rintro _ ⟨⟩
      decide
  exact Text.trimLeft_eq_self visible

/-- A type that can be spelled is read back from its spelling. -/
theorem parse_render {type : Ty} (spelled : type.IsSpelled) : parse type.render = .ok type := by
  rw [parse, trimLeft_render spelled, parseReversed_render spelled]

/-- The types that can be spelled are those that can be read. -/
theorem isSpelled_iff {type : Ty} : type.IsSpelled ↔ ∃ text, parse text = .ok type :=
  ⟨fun spelled => ⟨_, parse_render spelled⟩, fun ⟨_, read⟩ => isSpelled_of_parseReversed read⟩

end Ty


/-- The names of flags can be told apart: each is found again among them, can stand in a list, and
stands for one bit. -/
structure FlagNames.Clear (names : FlagNames) : Prop where
  found : ∀ entry ∈ names, Flags.part? names entry.1.toList = some entry.2
  parts : ∀ entry ∈ names, Text.IsPart '|' entry.1.toList
  single :
    ∀ entry ∈ names, ∀ i < 32, ∀ j < 32,
      entry.2.toBitVec.getLsbD i → entry.2.toBitVec.getLsbD j → i = j

namespace Flags

variable {names : FlagNames} {flags : Flags} {position : Nat}

/-- A bit of several words together is a bit of one of them. -/
theorem getLsbD_foldl_or {Item : Type} (word : Item → UInt32) (items : List Item) (start : UInt32) :
    (items.foldl (fun covered item => covered ||| word item) start).toBitVec.getLsbD position =
      (start.toBitVec.getLsbD position ||
        items.any fun item => (word item).toBitVec.getLsbD position) := by
  induction items generalizing start with
  | nil => simp
  | cons item rest hypothesis =>
    rw [List.foldl_cons, hypothesis, List.any_cons, UInt32.toBitVec_or, BitVec.getLsbD_or,
      Bool.or_assoc]

theorem includes_iff {marks : Flags} :
    flags.includes marks ↔
      ∀ position, marks.bits.toBitVec.getLsbD position → flags.bits.toBitVec.getLsbD position := by
  rw [includes, beq_iff_eq, ← UInt32.toBitVec_inj, UInt32.toBitVec_and]
  constructor
  · intro same position set
    rw [← same, BitVec.getLsbD_and, Bool.and_eq_true] at set
    exact set.1
  · intro covered
    refine BitVec.eq_of_getLsbD_eq fun position _ => ?_
    rw [BitVec.getLsbD_and]
    cases set : marks.bits.toBitVec.getLsbD position with
    | false => rw [Bool.and_false]
    | true => rw [covered position set, Bool.and_true]

theorem getLsbD_unnamed :
    (flags.unnamed names).toBitVec.getLsbD position ↔
      flags.bits.toBitVec.getLsbD position ∧
        ∀ entry ∈ names, entry.2.toBitVec.getLsbD position = false := by
  rw [unnamed, UInt32.toBitVec_and, BitVec.getLsbD_and, UInt32.toBitVec_not, BitVec.getLsbD_not,
    getLsbD_foldl_or]
  simp only [UInt32.toBitVec_ofNat, BitVec.getLsbD_zero, Bool.false_or, Bool.and_eq_true,
    decide_eq_true_eq, Bool.not_eq_true', List.any_eq_false, Bool.not_eq_true]
  constructor
  · rintro ⟨set, -, uncovered⟩
    exact ⟨set, uncovered⟩
  · rintro ⟨set, uncovered⟩
    exact ⟨set, BitVec.lt_of_getLsbD set, uncovered⟩

/-- The words of the parts of a spelling. -/
def words (names : FlagNames) (flags : Flags) : List UInt32 :=
  (names.filter fun entry => flags.includes ⟨entry.2⟩).map Prod.snd ++
    if flags.unnamed names = 0 then [] else [flags.unnamed names]

/-- The words of the parts are all bits of the set. -/
theorem foldl_words (clear : names.Clear) :
    (flags.words names).foldl (· ||| ·) 0 = flags.bits := by
  rw [← UInt32.toBitVec_inj]
  refine BitVec.eq_of_getLsbD_eq fun position bounded => ?_
  show ((flags.words names).foldl (fun covered word => covered ||| id word) 0).toBitVec.getLsbD
    position = _
  rw [getLsbD_foldl_or, Bool.eq_iff_iff]
  simp only [UInt32.toBitVec_ofNat, BitVec.getLsbD_zero, Bool.false_or, List.any_eq_true, id]
  constructor
  · rintro ⟨word, among, set⟩
    rcases List.mem_append.1 among with named | rest
    · obtain ⟨entry, kept, rfl⟩ := List.mem_map.1 named
      exact includes_iff.1 (List.mem_filter.1 kept).2 position set
    · split at rest
      · cases rest
      · obtain rfl := List.mem_singleton.1 rest
        exact (getLsbD_unnamed.1 set).1
  · intro set
    by_cases covered : ∃ entry ∈ names, entry.2.toBitVec.getLsbD position
    · obtain ⟨entry, member, marked⟩ := covered
      have included : flags.includes ⟨entry.2⟩ := by
        refine includes_iff.2 fun other markedOther => ?_
        rwa [← clear.single entry member position bounded other
          (BitVec.lt_of_getLsbD markedOther) marked markedOther]
      refine ⟨entry.2, List.mem_append_left _ (List.mem_map.2 ⟨entry, ?_, rfl⟩), marked⟩
      exact List.mem_filter.2 ⟨member, included⟩
    · have rest : (flags.unnamed names).toBitVec.getLsbD position :=
        getLsbD_unnamed.2 ⟨set, fun entry member => by
          simpa using fun marked => covered ⟨entry, member, marked⟩⟩
      refine ⟨flags.unnamed names, List.mem_append_right _ ?_, rest⟩
      split
      · rename_i none
        rw [none] at rest
        simp at rest
      · exact List.mem_cons_self

theorem toList_hexadecimal (word : UInt32) :
    ("0x" ++ Text.hexadecimal word.toNat).toList =
      '0' :: 'x' :: Nat.toDigits 16 word.toNat := by
  have digits : (Text.hexadecimal word.toNat).toList = Nat.toDigits 16 word.toNat :=
    String.toList_ofList
  rw [String.toList_append, digits]
  rfl

theorem part?_hexadecimal (word : UInt32) :
    part? names ("0x" ++ Text.hexadecimal word.toNat).toList = some word := by
  rw [toList_hexadecimal]
  show hexadecimalBits? _ = _
  unfold hexadecimalBits?
  dsimp only
  split
  · rename_i rest signed
    obtain ⟨digit, small, same⟩ := Text.exists_digit_of_mem_toDigits (signed ▸ List.mem_cons_self)
    have unsigned : ∀ digit < 16, '+' ≠ Nat.digitChar digit := by decide
    exact absurd same (unsigned digit small)
  · rw [Text.ofHexadecimal?_toDigits]
    show (if word.toNat < Nat.pow 2 32 then some (UInt32.ofNat word.toNat) else Option.none) = _
    rw [if_pos word.toNat_lt, UInt32.ofNat_toNat]

theorem isPart_hexadecimal (word : UInt32) :
    Text.IsPart '|' ("0x" ++ Text.hexadecimal word.toNat).toList := by
  have digits : ∀ digit < 16, Text.isBlank (Nat.digitChar digit) = false ∧ digit.digitChar ≠ '|' := by
    decide
  rw [toList_hexadecimal]
  refine ⟨List.cons_ne_nil _ _, fun character member => ?_⟩
  rcases List.mem_cons.1 member with rfl | member
  · decide
  · rcases List.mem_cons.1 member with rfl | member
    · decide
    · obtain ⟨digit, small, rfl⟩ := Text.exists_digit_of_mem_toDigits member
      exact digits digit small

/-- The parts of a spelling, each the spelling of its word. -/
def parts (names : FlagNames) (flags : Flags) : List String :=
  (names.filter fun entry => flags.includes ⟨entry.2⟩).map Prod.fst ++
    if flags.unnamed names = 0 then [] else ["0x" ++ Text.hexadecimal (flags.unnamed names).toNat]

theorem render_eq : flags.render names = " | ".intercalate (flags.parts names) := by
  unfold render parts
  dsimp only
  split <;> simp

theorem isPart_of_mem_parts
    (clear : names.Clear)
    {part : String}
    (member : part ∈ flags.parts names) :
    Text.IsPart '|' part.toList := by
  rcases List.mem_append.1 member with named | rest
  · obtain ⟨entry, kept, rfl⟩ := List.mem_map.1 named
    exact clear.parts entry (List.mem_filter.1 kept).1
  · split at rest
    · cases rest
    · obtain rfl := List.mem_singleton.1 rest
      exact isPart_hexadecimal _

/-- The parts are read as their words. -/
theorem mapM_part?_parts (clear : names.Clear) :
    (flags.parts names).mapM (fun part => part? names part.toList) = some (flags.words names) := by
  have named {list : FlagNames} (among : ∀ entry ∈ list, entry ∈ names) :
      (list.map Prod.fst).mapM (fun part => part? names part.toList) = some (list.map Prod.snd) := by
    induction list with
    | nil => rfl
    | cons entry rest hypothesis =>
      have others := hypothesis fun other member => among other (List.mem_cons_of_mem _ member)
      simp [clear.found entry (among entry List.mem_cons_self), others]
  unfold parts words
  rw [List.mapM_append, named fun entry kept => (List.mem_filter.1 kept).1]
  split
  · simp
  · simp only [List.mapM_cons, List.mapM_nil, part?_hexadecimal]
    rfl

/-- A set of flags is read back from its spelling. -/
theorem parse?_render (clear : names.Clear) : parse? names (flags.render names) = some flags := by
  have total : (flags.words names).foldl (· ||| ·) 0 = flags.bits := foldl_words clear
  unfold parse?
  rw [render_eq, String.toList_intercalate]
  dsimp only
  cases given : flags.parts names with
  | nil =>
    have read : (flags.parts names).mapM (fun part => part? names part.toList) = some _ :=
      mapM_part?_parts clear
    rw [given, List.mapM_nil] at read
    rw [← Option.some.inj read] at total
    exact congrArg (fun bits => some (Flags.mk bits)) total
  | cons first rest =>
    have areParts : ∀ part ∈ (first :: rest).map String.toList, Text.IsPart '|' part := by
      intro part member
      obtain ⟨text, among, rfl⟩ := List.mem_map.1 member
      exact isPart_of_mem_parts clear (given ▸ among)
    have isPart := areParts first.toList List.mem_cons_self
    obtain ⟨character, characters, spelled⟩ := List.exists_cons_of_ne_nil isPart.1
    have here : character ∈ first.toList := spelled ▸ List.mem_cons_self
    have visible :
        Text.trim (" | ".toList.intercalate ((first :: rest).map String.toList)) ≠ [] :=
      Text.trim_ne_nil (Text.mem_intercalate_cons here _) (isPart.2 character here).1
    have split :
        (Text.splitAll '|' (" | ".toList.intercalate ((first :: rest).map String.toList))).map
            Text.trim = (first :: rest).map String.toList :=
      Text.map_trim_splitAll_intercalate (by decide) (by decide) (List.cons_ne_nil _ _) areParts
    have read : ((first :: rest).map String.toList).mapM (part? names) = some (flags.words names) := by
      rw [List.mapM_map, ← given]
      exact mapM_part?_parts clear
    rw [← split, List.mapM_map] at read
    rw [if_neg (by simpa using visible)]
    show (List.mapM (part? names ∘ Text.trim) _).bind _ = _
    rw [read, Option.bind_some]
    exact congrArg (fun bits => some (Flags.mk bits)) total

end Flags
end AccessProfiler
