import AccessProfiler.Proofs.FittingSessions
import AccessProfiler.Proofs.Spelling

/-!
# Names that are generated for wrappers

The name of a class can be any text, but only some are the spelling of a type.  A wrapper is named by
its element type: the spelling without points, the word `Array`, and in front of it the package of the
generated classes.  Such a name is a class name as long as the package is none at all or a class name
itself, and it is never a keyword because none ends as `Array` does (`Ty.isSpelled_of_nameFor?`).
-/

namespace AccessProfiler

variable {name package : List Char}

/-! ## Class names -/

theorem hasDoublePoint_cons
    {first : Char}
    (single : ∀ others, first = '.' → name = '.' :: others → False) :
    hasDoublePoint (first :: name) = hasDoublePoint name := by
  rw [hasDoublePoint]
  exact single

theorem hasDoublePoint_eq_false_of_notMem (pointless : '.' ∉ name) : hasDoublePoint name = false := by
  induction name with
  | nil => rfl
  | cons first rest hypothesis =>
    rw [List.mem_cons, not_or] at pointless
    rw [hasDoublePoint_cons fun _ point _ => pointless.1 point.symm, hypothesis pointless.2]

/-- A point between two parts does not stand next to another. -/
theorem hasDoublePoint_append_point
    (single : hasDoublePoint package = false)
    (last : package.getLast? ≠ some '.')
    (pointless : '.' ∉ name) :
    hasDoublePoint (package ++ '.' :: name) = false := by
  have notTwo : ∀ others, '.' = '.' → name = '.' :: others → False :=
    fun others _ same => pointless (same ▸ List.mem_cons_self)
  induction package with
  | nil =>
    rw [List.nil_append, hasDoublePoint_cons notTwo, hasDoublePoint_eq_false_of_notMem pointless]
  | cons character rest hypothesis =>
    rw [List.cons_append]
    cases rest with
    | nil =>
      have other : ∀ others, character = '.' → [] ++ '.' :: name = '.' :: others → False :=
        fun _ point _ => last (congrArg some point)
      rw [hasDoublePoint_cons other]
      exact hypothesis rfl nofun
    | cons next others =>
      have apart : character = '.' → next ≠ '.' := by
        rintro rfl rfl
        cases single
      rw [hasDoublePoint_cons fun _ point same => apart point (List.cons.inj same).1] at single
      rw [List.cons_append,
        hasDoublePoint_cons fun _ point same => apart point (List.cons.inj same).1]
      exact hypothesis single last

section Part

variable
    (nonempty : name ≠ [])
    (allowed : ∀ character ∈ name, isNameCharacter character)
    (pointless : '.' ∉ name)

include nonempty allowed pointless

/-- A name without points is the name of a class in no package. -/
theorem isClassName_of_pointless : isClassName name :=
  isClassName_iff.2
    ⟨nonempty, fun first => pointless (List.mem_of_mem_head? first),
      fun last => pointless (List.mem_of_getLast? last), hasDoublePoint_eq_false_of_notMem pointless,
      allowed⟩

/-- A name without points in a package is the name of a class. -/
theorem isClassName_append (isPackage : isClassName package) :
    isClassName (package ++ '.' :: name) := by
  obtain ⟨inhabited, first, last, single, allowedPackage⟩ := isClassName_iff.1 isPackage
  obtain ⟨start, rest, rfl⟩ := List.exists_cons_of_ne_nil inhabited
  refine isClassName_iff.2
    ⟨List.cons_ne_nil _ _, first, ?_, hasDoublePoint_append_point single last pointless, ?_⟩
  · intro last
    rw [List.getLast?_append_cons, List.getLast?_cons_of_ne_nil nonempty] at last
    exact pointless (List.mem_of_getLast? last)
  · refine List.forall_mem_append.2 ⟨allowedPackage, List.forall_mem_cons.2 ⟨?_, allowed⟩⟩
    decide

end Part

/-! ## Spelled types -/

namespace Ty

/-- Whether a type can be spelled is decided by going down to its name. -/
def decidableIsSpelled : (type : Ty) → Decidable type.IsSpelled
  | .object name => inferInstanceAs (Decidable (isClassName name.toList ∧ ofKeyword? name = none))
  | .array element =>
    have := element.decidableIsSpelled
    inferInstanceAs (Decidable (element ≠ .void ∧ element ≠ .null ∧ element.IsSpelled))
  | .void | .boolean | .byte | .char | .short | .int | .long | .float | .double | .null =>
    isTrue trivial

instance : DecidablePred IsSpelled := decidableIsSpelled

/-- No keyword ends in the letter that the names of wrappers end in. -/
theorem ofKeyword?_eq_none {spelling : String} (ends : spelling.toList.getLast? = some 'y') :
    ofKeyword? spelling = none := by
  unfold ofKeyword?
  split <;> first | rfl | exact absurd ends (by decide)

/-- The letters of a spelling that is no array are those of a name. -/
theorem isNameCharacter_of_mem_render
    {type : Ty}
    (spelled : type.IsSpelled)
    (single : type.isArray = false)
    {character : Char}
    (member : character ∈ type.render.toList) :
    isNameCharacter character := by
  have keyword (text : String) (letters : text.toList.all isNameCharacter)
      (member : character ∈ text.toList) : isNameCharacter character :=
    List.all_eq_true.1 letters character member
  cases type with
  | object name => exact (isClassName_iff.1 spelled.1).2.2.2.2 character member
  | array element => cases single
  | _ => exact keyword _ (by decide +kernel) member

end Ty

/-- The brackets at the end are spelled as a word, whatever stands in front of them. -/
theorem Text.spellBracketsIn_append (word text : List Char) :
    spellBracketsIn word (text ++ ['[', ']']) = spellBracketsIn word text ++ word := by
  fun_induction spellBracketsIn word text with
  | case1 rest hypothesis =>
    rw [List.cons_append, List.cons_append, spellBracketsIn, hypothesis, List.append_assoc]
  | case2 character rest single hypothesis =>
    rw [List.cons_append, spellBracketsIn, hypothesis, List.cons_append]
    rintro others rfl closed
    cases rest with
    | nil => cases closed
    | cons next rest =>
      cases closed
      exact single rest rfl rfl
  | case3 => exact List.append_nil word

/-- A text without brackets stays as it is. -/
theorem Text.spellBracketsIn_eq_self
    {word : List Char}
    (noBracket : '[' ∉ name) :
    spellBracketsIn word name = name := by
  induction name with
  | nil => rfl
  | cons first rest hypothesis =>
    rw [List.mem_cons, not_or] at noBracket
    rw [spellBracketsIn, hypothesis noBracket.2]
    intro _ bracket _
    exact noBracket.1 bracket.symm

/-- The name of a wrapper within its package is the spelling of its element type without points, and the
word for its brackets. -/
theorem Wrapper.nameFor?_eq_qualify
    {settings : Settings}
    {element : Ty}
    {name : String}
    (named : nameFor? settings element = some name) :
    element.isArray = false ∧
      name = settings.qualify (String.ofList
        (Text.spellBracketsIn "Array".toList (Text.without ['.'] element.render).toList ++
          "Array".toList)) := by
  have whole : element.isArray = false ∧ name = settings.qualify
      (Text.spellBrackets "Array" (Text.without ['.'] (Ty.array element).render)) := by
    unfold nameFor? at named
    split at named
    · cases named
    · cases named
    · cases named
    · rename_i notArray _ _
      refine ⟨?_, (Option.some.inj named).symm⟩
      cases element <;> first | rfl | exact absurd rfl (notArray _)
  have brackets :
      ("[]".toList.filter fun character => !List.contains ['.'] character) = ['[', ']'] := by decide
  have pointsLeftOut :
      (Text.without ['.'] (Ty.array element).render).toList =
        (Text.without ['.'] element.render).toList ++ ['[', ']'] := by
    rw [Text.without, Text.without, String.toList_ofList, String.toList_ofList, Ty.render,
      String.toList_append, List.filter_append, brackets]
  refine ⟨whole.1, ?_⟩
  rw [whole.2, Text.spellBrackets, pointsLeftOut, Text.spellBracketsIn_append]

/-- The name of a wrapper within its package consists of the letters of its element type and the word
for its brackets. -/
theorem Wrapper.nameFor?_eq_some
    {settings : Settings}
    {element : Ty}
    {name : String}
    (spelled : element.IsSpelled)
    (named : nameFor? settings element = some name) :
    ∃ letters : List Char, (∀ character ∈ letters, isNameCharacter character) ∧ '.' ∉ letters ∧
      name = settings.qualify (String.ofList (letters ++ "Array".toList)) := by
  obtain ⟨single, same⟩ := nameFor?_eq_qualify named
  have kept {character : Char} (member : character ∈ (Text.without ['.'] element.render).toList) :
      character ∈ element.render.toList ∧ character ≠ '.' := by
    rw [Text.without, String.toList_ofList] at member
    simpa using List.mem_filter.1 member
  have allowed character (member : character ∈ (Text.without ['.'] element.render).toList) :
      isNameCharacter character :=
    Ty.isNameCharacter_of_mem_render spelled single (kept member).1
  have noBracket : '[' ∉ (Text.without ['.'] element.render).toList :=
    fun member => absurd (allowed _ member) (by decide)
  rw [Text.spellBracketsIn_eq_self noBracket] at same
  exact ⟨_, allowed, fun member => (kept member).2 rfl, same⟩

/-- The class of a wrapper can be spelled if its element type can and its package is a class name. -/
theorem Ty.isSpelled_of_nameFor?
    {settings : Settings}
    {element : Ty}
    {name : String}
    (package : settings.package = "" ∨ isClassName settings.package.toList)
    (spelled : element.IsSpelled)
    (named : Wrapper.nameFor? settings element = some name) :
    (Ty.object name).IsSpelled := by
  obtain ⟨letters, allowedLetters, pointlessLetters, rfl⟩ := Wrapper.nameFor?_eq_some spelled named
  let simple := letters ++ "Array".toList
  have nonempty : simple ≠ [] := List.append_ne_nil_of_right_ne_nil _ (by decide)
  have word : "Array".toList.all isNameCharacter := by decide +kernel
  have allowed : ∀ character ∈ simple, isNameCharacter character :=
    List.forall_mem_append.2 ⟨allowedLetters, List.all_eq_true.1 word⟩
  have pointless : '.' ∉ simple := fun member =>
    (List.mem_append.1 member).elim pointlessLetters (by decide)
  have last : simple.getLast? = some 'y' := by
    rw [List.getLast?_append_of_ne_nil _ (by decide)]
    rfl
  rcases package with empty | isPackage
  · have whole : (settings.qualify (String.ofList simple)).toList = simple := by
      rw [Settings.qualify, empty]
      exact String.toList_ofList
    refine ⟨?_, ofKeyword?_eq_none ?_⟩
    · rw [whole]
      exact isClassName_of_pointless nonempty allowed pointless
    · rw [whole]
      exact last
  · have inhabited : settings.package.isEmpty = false := by
      rw [← Bool.not_eq_true, String.isEmpty_iff]
      intro empty
      rw [empty] at isPackage
      cases isPackage
    have whole :
        (settings.qualify (String.ofList simple)).toList =
          settings.package.toList ++ '.' :: simple := by
      rw [Settings.qualify, inhabited, if_neg Bool.false_ne_true, String.toList_append,
        String.toList_append, @String.toList_ofList simple]
      exact List.append_assoc _ ['.'] simple
    refine ⟨?_, ofKeyword?_eq_none ?_⟩
    · rw [whole]
      exact isClassName_append nonempty allowed pointless isPackage
    · rw [whole, List.getLast?_append_cons, List.getLast?_cons_of_ne_nil nonempty, last]

/-! ## What may be admitted -/

theorem Settings.admission_all (settings : Settings) : settings.Admission fun _ => True where
  simple _ _ _ := trivial
  text := trivial
  element _ _ := trivial
  wrappers _ _ _ _ _ := trivial

/-- Only types that can be spelled come in if the package of the wrappers is a class name. -/
theorem Settings.admission_isSpelled
    {settings : Settings}
    (package : settings.arrays → settings.package = "" ∨ isClassName settings.package.toList) :
    settings.Admission Ty.IsSpelled where
  simple type notClass notArray := by
    cases type <;> trivial
  text := by decide +kernel
  element _ spelled := spelled.2.2
  wrappers wraps _ _ spelled named := Ty.isSpelled_of_nameFor? (package wraps) spelled.2.2 named

end AccessProfiler
