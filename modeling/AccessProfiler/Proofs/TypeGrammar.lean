import AccessProfiler.Proofs.Spelling
import Mathlib.Data.List.Induction
import Mathlib.Logic.Function.Iterate

/-!
# The grammar of types

A spelled type is a core with any number of brackets behind it, and blanks are allowed in front of each
pair.  The core is a keyword or the name of a class; `void` and `null` stand alone (`SpellsType`).  Reading a
type accepts exactly these texts, between blanks (`Ty.parse_eq_ok_iff`).  The reader goes from the end to the
front, and what it has taken off at any time is a part of the brackets and some blanks behind the rest, so
both directions follow its recursion.  The text that a type is written as is one of those that are read as
the type, and no two types are written alike (`Ty.parse_accepts_grammar`).
-/

namespace AccessProfiler

/-- The type is no class and no array, so that its spelling is a keyword. -/
def Ty.IsBasic : Ty → Prop
  | .object _ | .array _ => False
  | _ => True

/-- The text is made of letters, numbers and `.`, `_` and `$`, with no point at either end and no two points
next to each other. -/
structure SpellsClass (name : List Char) : Prop where
  nonempty : name ≠ []
  allowed : ∀ character ∈ name, Text.isAlphanumeric character ∨ character ∈ ['.', '_', '$']
  first : name.head? ≠ some '.'
  last : name.getLast? ≠ some '.'
  single : ¬ ['.', '.'] <:+: name

/-- The text is a keyword, or the name of a class and no keyword. -/
inductive SpellsCore : List Char → Ty → Prop
  | keyword {type : Ty} (basic : type.IsBasic) : SpellsCore type.render.toList type
  | className
      {name : List Char}
      (spells : SpellsClass name)
      (noKeyword : ∀ type : Ty, type.IsBasic → name ≠ type.render.toList) :
      SpellsCore name (.object (String.ofList name))

/-- A pair of brackets behind each of the gaps. -/
def brackets (gaps : List (List Char)) : List Char :=
  gaps.flatMap fun gap => gap ++ ['[', ']']

/-- The text is a core and brackets with blanks in front of each pair. -/
inductive SpellsType : List Char → Ty → Prop
  | array
      {core : List Char}
      {type : Ty}
      {gaps : List (List Char)}
      (spells : SpellsCore core type)
      (holdsValues : gaps ≠ [] → type ≠ .void ∧ type ≠ .null)
      (blank : ∀ gap ∈ gaps, ∀ character ∈ gap, Text.isBlank character) :
      SpellsType (core ++ brackets gaps) (Ty.array^[gaps.length] type)

/-! ## Cores -/

theorem hasDoublePoint_iff {name : List Char} : hasDoublePoint name ↔ ['.', '.'] <:+: name := by
  fun_induction hasDoublePoint name with
  | case1 rest => exact iff_of_true rfl ⟨[], rest, rfl⟩
  | case2 first rest single hypothesis =>
    have notHere : ¬ ['.', '.'] <+: first :: rest := by
      rintro ⟨others, same⟩
      obtain ⟨point, rfl⟩ := List.cons.inj same
      exact single others point.symm rfl
    rw [hypothesis, List.infix_cons_iff, or_iff_right notHere]
  | case3 => simp

theorem isNameCharacter_iff {character : Char} :
    isNameCharacter character ↔ Text.isAlphanumeric character ∨ character ∈ ['.', '_', '$'] := by
  simp [isNameCharacter, or_assoc]

theorem isClassName_iff_spellsClass {name : List Char} : isClassName name ↔ SpellsClass name := by
  rw [isClassName_iff, ← Bool.not_eq_true, hasDoublePoint_iff]
  simp only [isNameCharacter_iff]
  constructor
  · rintro ⟨nonempty, first, last, single, allowed⟩
    exact ⟨nonempty, allowed, first, last, single⟩
  · rintro ⟨nonempty, allowed, first, last, single⟩
    exact ⟨nonempty, first, last, single, allowed⟩

namespace Ty

/-- The keywords are the spellings of the basic types. -/
theorem ofKeyword?_eq_some_iff {spelling : String} {type : Ty} :
    ofKeyword? spelling = some type ↔ type.IsBasic ∧ type.render = spelling := by
  constructor
  · intro found
    unfold ofKeyword? at found
    split at found <;> cases found <;> exact ⟨trivial, rfl⟩
  · rintro ⟨basic, rfl⟩
    cases type with
    | object name => exact basic.elim
    | array element => exact basic.elim
    | _ => rfl

theorem ofKeyword?_eq_none_iff {spelling : String} :
    ofKeyword? spelling = none ↔ ∀ type : Ty, type.IsBasic → type.render ≠ spelling := by
  simp only [Option.eq_none_iff_forall_ne_some, ne_eq, ofKeyword?_eq_some_iff, not_and]

/-- A name is read exactly if it is a core. -/
theorem ofName_eq_ok_iff {name : List Char} {type : Ty} :
    ofName name = .ok type ↔ SpellsCore name type := by
  unfold ofName
  dsimp only
  constructor
  · intro read
    split at read
    · rename_i keyword found
      cases read
      obtain ⟨basic, spelled⟩ := ofKeyword?_eq_some_iff.1 found
      rw [← String.toList_ofList (l := name), ← spelled]
      exact .keyword basic
    · rename_i unfound
      split at read
      · rename_i isName
        cases read
        refine .className (isClassName_iff_spellsClass.1 isName) fun type basic same => ?_
        refine ofKeyword?_eq_none_iff.1 unfound type basic ?_
        rw [same, String.ofList_toList]
      · cases read
  · intro spells
    cases spells with
    | keyword basic => rw [String.ofList_toList, ofKeyword?_eq_some_iff.2 ⟨basic, rfl⟩]
    | className spells noKeyword =>
      have unfound : ofKeyword? (String.ofList name) = none := by
        refine ofKeyword?_eq_none_iff.2 fun type basic same => noKeyword type basic ?_
        rw [same, String.toList_ofList]
      rw [unfound]
      exact if_pos (isClassName_iff_spellsClass.2 spells)

end Ty

/-- A core is made of characters of names. -/
theorem SpellsCore.allowed
    {core : List Char}
    {type : Ty}
    (spells : SpellsCore core type) :
    core ≠ [] ∧ ∀ character ∈ core, isNameCharacter character := by
  cases spells with
  | className spells _ =>
    exact ⟨spells.nonempty, fun _ member => isNameCharacter_iff.2 (spells.allowed _ member)⟩
  | keyword basic =>
    cases type with
    | object name => exact basic.elim
    | array element => exact basic.elim
    | _ => exact ⟨by decide +kernel, List.all_eq_true.1 (by decide +kernel)⟩

/-- A core ends in a character that is neither a blank nor a bracket. -/
theorem SpellsCore.exists_last
    {core : List Char}
    {type : Ty}
    (spells : SpellsCore core type) :
    ∃ last rest, core.reverse = last :: rest ∧ Text.isBlank last = false ∧ last ≠ ']' := by
  obtain ⟨nonempty, allowed⟩ := spells.allowed
  obtain ⟨last, rest, reversed⟩ := List.exists_cons_of_ne_nil (List.reverse_ne_nil_iff.2 nonempty)
  have inName : isNameCharacter last := by
    refine allowed last (List.mem_reverse.1 ?_)
    rw [reversed]
    exact List.mem_cons_self
  refine ⟨last, rest, reversed, isBlank_eq_false_of_isNameCharacter inName, ?_⟩
  rintro rfl
  exact absurd inName (by decide)

/-! ## Brackets -/

@[simp]
theorem brackets_append_singleton (gaps : List (List Char)) (gap : List Char) :
    brackets (gaps ++ [gap]) = brackets gaps ++ gap ++ ['[', ']'] := by
  simp [brackets]

/-- A core stands for its type without any brackets. -/
theorem SpellsCore.spellsType
    {core : List Char}
    {type : Ty}
    (spells : SpellsCore core type) :
    SpellsType core type := by
  have bare : SpellsType (core ++ brackets []) (Ty.array^[0] type) :=
    .array spells (fun some => absurd rfl some) (List.forall_mem_nil _)
  simpa [brackets] using bare

/-- Brackets behind a spelled type, with blanks in front of them, make an array of it if it has values. -/
theorem SpellsType.append_brackets
    {text gap : List Char}
    {element : Ty}
    (spells : SpellsType text element)
    (notVoid : element ≠ .void)
    (notNull : element ≠ .null)
    (blankGap : ∀ character ∈ gap, Text.isBlank character) :
    SpellsType (text ++ gap ++ ['[', ']']) (.array element) := by
  cases spells with
  | @array core type gaps spells holdsValues blank =>
    have nested : Ty.array^[(gaps ++ [gap]).length] type = .array (Ty.array^[gaps.length] type) := by
      rw [List.length_append, List.length_singleton, Function.iterate_succ_apply']
    have joined : core ++ brackets gaps ++ gap ++ ['[', ']'] = core ++ brackets (gaps ++ [gap]) := by
      simp
    rw [joined, ← nested]
    refine .array spells (fun _ => ?_) fun other member => ?_
    · by_cases bare : gaps = []
      · subst bare
        exact ⟨notVoid, notNull⟩
      · exact holdsValues bare
    · rcases List.mem_append.1 member with earlier | here
      · exact blank other earlier
      · exact List.mem_singleton.1 here ▸ blankGap

/-- A spelled type ends in a bracket or as its core does. -/
theorem SpellsType.exists_last
    {text : List Char}
    {type : Ty}
    (spells : SpellsType text type) :
    ∃ last rest, text.reverse = last :: rest ∧ Text.isBlank last = false := by
  cases spells with
  | @array core _ gaps spells _ _ =>
    rcases List.eq_nil_or_concat gaps with rfl | ⟨front, gap, rfl⟩
    · obtain ⟨last, rest, reversed, visible, -⟩ := spells.exists_last
      exact ⟨last, rest, by simpa [brackets] using reversed, visible⟩
    · refine ⟨']', '[' :: (core ++ (brackets front ++ gap)).reverse, ?_, by decide⟩
      rw [List.concat_eq_append, brackets_append_singleton]
      simp

namespace Ty

theorem parseReversed_cons_of_blank
    {blank : Char}
    {rest : List Char}
    (isBlank : Text.isBlank blank) :
    parseReversed (blank :: rest) = parseReversed rest := by
  have notBrackets : ∀ others, blank = ']' → rest = '[' :: others → False := by
    rintro _ rfl _
    exact absurd isBlank (by decide)
  rw [parseReversed_cons notBrackets, if_pos isBlank]

/-- Blanks at the end are skipped. -/
theorem parseReversed_append_of_blank
    {blanks rest : List Char}
    (areBlank : ∀ character ∈ blanks, Text.isBlank character) :
    parseReversed (blanks ++ rest) = parseReversed rest := by
  induction blanks with
  | nil => rfl
  | cons blank others hypothesis =>
    rw [List.cons_append, parseReversed_cons_of_blank (areBlank blank List.mem_cons_self)]
    exact hypothesis fun character member => areBlank character (List.mem_cons_of_mem _ member)

theorem ofElement_eq_ok_iff {reversed : List Char} {element type : Ty} :
    ofElement reversed element = .ok type ↔
      element ≠ .void ∧ element ≠ .null ∧ type = .array element := by
  cases element <;> simp [ofElement, eq_comm]

/-- What is read from the end is a spelled type and blanks behind it. -/
theorem exists_spellsType_of_parseReversed
    {reversed : List Char}
    {type : Ty}
    (read : parseReversed reversed = .ok type) :
    ∃ text blanks, reversed.reverse = text ++ blanks ∧ SpellsType text type ∧
      ∀ character ∈ blanks, Text.isBlank character := by
  induction reversed using parseReversed.induct generalizing type with
  | case1 => exact absurd rfl (ofName_eq_ok_iff.1 read).allowed.1
  | case2 rest hypothesis =>
    rw [parseReversed] at read
    cases inner : parseReversed rest with
    | error problem =>
      rw [inner] at read
      cases read
    | ok element =>
      rw [inner] at read
      obtain ⟨notVoid, notNull, rfl⟩ := ofElement_eq_ok_iff.1 read
      obtain ⟨text, gap, parts, spells, blankGap⟩ := hypothesis inner
      have array := spells.append_brackets notVoid notNull blankGap
      refine ⟨text ++ gap ++ ['[', ']'], [], ?_, array, List.forall_mem_nil _⟩
      rw [List.reverse_cons, List.reverse_cons, parts]
      simp
  | case3 last rest notBrackets blank hypothesis =>
    rw [parseReversed_cons notBrackets, if_pos blank] at read
    obtain ⟨text, blanks, parts, spells, areBlank⟩ := hypothesis read
    refine ⟨text, blanks ++ [last], ?_, spells, fun character member => ?_⟩
    · rw [List.reverse_cons, parts, List.append_assoc]
    · rcases List.mem_append.1 member with earlier | here
      · exact areBlank character earlier
      · exact List.mem_singleton.1 here ▸ blank
  | case4 last rest notBrackets visible =>
    rw [parseReversed_cons notBrackets, if_neg visible] at read
    exact ⟨(last :: rest).reverse, [], (List.append_nil _).symm,
      (ofName_eq_ok_iff.1 read).spellsType, List.forall_mem_nil _⟩

/-- A spelled type is read from the end. -/
theorem parseReversed_of_spellsType
    {text : List Char}
    {type : Ty}
    (spells : SpellsType text type) :
    parseReversed text.reverse = .ok type := by
  cases spells with
  | @array core type gaps spells holdsValues blank =>
    induction gaps using List.reverseRecOn with
    | nil =>
      obtain ⟨last, rest, reversed, visible, notBracket⟩ := spells.exists_last
      have notBrackets : ∀ others, last = ']' → rest = '[' :: others → False :=
        fun _ bracket => absurd bracket notBracket
      have noGaps : core ++ brackets [] = core := List.append_nil core
      rw [noGaps, reversed, parseReversed_cons notBrackets, if_neg (by simp [visible]), ← reversed,
        List.reverse_reverse]
      exact ofName_eq_ok_iff.2 spells
    | append_singleton gaps gap hypothesis =>
      have values := holdsValues (List.append_ne_nil_of_right_ne_nil _ (List.cons_ne_nil _ _))
      have element := hypothesis (fun _ => values) fun other member =>
        blank other (List.mem_append_left _ member)
      have reversed :
          (core ++ brackets (gaps ++ [gap])).reverse =
            ']' :: '[' :: (gap.reverse ++ (core ++ brackets gaps).reverse) := by
        simp
      have blankGap : ∀ character ∈ gap.reverse, Text.isBlank character := fun character member =>
        blank gap (List.mem_append_right _ List.mem_cons_self) character (List.mem_reverse.1 member)
      rw [reversed, parseReversed, parseReversed_append_of_blank blankGap, element]
      refine ofElement_eq_ok_iff.2 ⟨?_, ?_, ?_⟩
      · cases gaps.length with
        | zero => exact values.1
        | succ count => rw [Function.iterate_succ_apply']; exact Ty.noConfusion
      · cases gaps.length with
        | zero => exact values.2
        | succ count => rw [Function.iterate_succ_apply']; exact Ty.noConfusion
      · rw [List.length_append, List.length_singleton, Function.iterate_succ_apply']

end Ty

/-! ## Blanks around a type -/

/-- A text is what is left when it is trimmed, with blanks around it. -/
theorem Text.exists_blanks_trim (text : List Char) :
    ∃ blanks, trimLeft text = trim text ++ blanks ∧ ∀ character ∈ blanks, isBlank character := by
  refine ⟨((trimLeft text).reverse.takeWhile isBlank).reverse, ?_, fun character member => ?_⟩
  · rw [trim, trimRight, ← List.reverse_append]
    exact List.reverse_eq_iff.1 List.takeWhile_append_dropWhile.symm
  · exact List.mem_takeWhile_imp (List.mem_reverse.1 member)

namespace Ty

/-- A type is read exactly from its spellings, between blanks. -/
theorem parse_eq_ok_iff {text : String} {type : Ty} :
    parse text = .ok type ↔ SpellsType (Text.trim text.toList) type := by
  unfold parse
  constructor
  · intro read
    obtain ⟨spelled, blanks, parts, spells, areBlank⟩ := exists_spellsType_of_parseReversed read
    obtain ⟨last, rest, reversed, visible⟩ := spells.exists_last
    rw [List.reverse_reverse] at parts
    have trimmed : Text.trim text.toList = spelled := by
      have skipped : Text.trimLeft (blanks.reverse ++ spelled.reverse) = spelled.reverse := by
        rw [Text.trimLeft, List.dropWhile_append_of_pos fun character member =>
          areBlank character (List.mem_reverse.1 member), reversed]
        exact Text.trimLeft_eq_self (by rintro _ ⟨⟩; exact visible)
      rw [Text.trim, Text.trimRight, parts, List.reverse_append, skipped, List.reverse_reverse]
    rw [trimmed]
    exact spells
  · intro spells
    obtain ⟨blanks, parts, areBlank⟩ := Text.exists_blanks_trim text.toList
    rw [parts, List.reverse_append, parseReversed_append_of_blank fun character member =>
      areBlank character (List.mem_reverse.1 member)]
    exact parseReversed_of_spellsType spells

/-- Reading a type accepts exactly the grammar.  A type that was read is read again from the text that it is
written as, and so two of them that are written alike are the same. -/
theorem parse_accepts_grammar :
    (∀ text type, parse text = .ok type ↔ SpellsType (Text.trim text.toList) type) ∧
      (∀ text type, parse text = .ok type → parse type.render = .ok type) ∧
      ∀ text other type another, parse text = .ok type → parse other = .ok another →
        type.render = another.render → type = another := by
  have again (text : String) (type : Ty) (read : parse text = .ok type) :
      parse type.render = .ok type :=
    parse_render (isSpelled_iff.2 ⟨text, read⟩)
  refine ⟨fun _ _ => parse_eq_ok_iff, again, fun text other type another read readOther alike => ?_⟩
  have same := again text type read
  rw [alike, again other another readOther] at same
  exact (Except.ok.inj same).symm

/-- Blanks around a type and in front of its brackets do not matter. -/
theorem rowsOfNames_read :
    parse " java.lang.String\t[] [] " = .ok (.array (.array string)) ∧
      SpellsType (Text.trim " java.lang.String\t[] [] ".toList) (.array (.array string)) ∧
      parse (Ty.array (.array string)).render = .ok (.array (.array string)) := by
  have read : parse " java.lang.String\t[] [] " = .ok (.array (.array string)) := by
    decide +kernel
  obtain ⟨accepts, again, -⟩ := parse_accepts_grammar
  exact ⟨read, (accepts _ _).1 read, again _ _ read⟩

end Ty
end AccessProfiler
