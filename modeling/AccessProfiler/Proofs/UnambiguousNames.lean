import AccessProfiler.Proofs.PreparedSessions
import AccessProfiler.Proofs.SpelledNames
import AccessProfiler.Proofs.TandemCounting

/-!
# Names that stay different

Points are left out of the names of counters, and so different classes can ask for one name.  If no two
of the types that accesses are counted for become one in this way, nor two of the methods whose calls are
counted, and no two element types have one wrapper, nothing that is generated depends on who asked first
(`Program.Unambiguous`).  The lists are computed, so that the condition can be tested.
-/

namespace AccessProfiler

/-- The type that a binding of a parameter states. -/
def Instruction.parameterType? : Instruction → Option Ty
  | .bind _ (.parameter _ type) => some type
  | _ => none

/-- The types that accesses to an instance field are counted for. -/
def Expression.countedNames : Expression → List String
  | .instanceField _ field => [field.owner, field.type.render]
  | _ => []

/-- The types that accesses to elements of a local are counted for. -/
def LocalDecl.countedNames (declaration : LocalDecl) : List String :=
  [Text.spellBrackets "Array" declaration.type.render, Text.spellBrackets "" declaration.type.render]

/-- Different names are different without points. -/
def Text.ApartWithoutPoints (names : List String) : Prop :=
  ∀ first ∈ names, ∀ second ∈ names, without ['.'] first = without ['.'] second → first = second

instance (names : List String) : Decidable (Text.ApartWithoutPoints names) :=
  inferInstanceAs (Decidable (∀ first ∈ names, ∀ second ∈ names, _ → first = second))

/-- Types that are spelled differently have wrappers of different names. -/
def Settings.WrapsApart (settings : Settings) (types : List Ty) : Prop :=
  ∀ first ∈ types, ∀ second ∈ types, (settings.wrapperName? first).isSome →
    settings.wrapperName? first = settings.wrapperName? second → first = second

instance (settings : Settings) (types : List Ty) : Decidable (settings.WrapsApart types) :=
  inferInstanceAs (Decidable (∀ first ∈ types, ∀ second ∈ types, _ → _ → first = second))

namespace Program

/-- The classes that can come in: that of the counters, and the wrappers if arrays are wrapped. -/
def reservedNames (program : Program) (settings : Settings) : List String :=
  settings.counterClassName ::
    if settings.arrays then program.mentionedTypes.filterMap settings.wrapperName? else []

/-- The types that are spelled anywhere in the program. -/
def spelledTypes (program : Program) : List Ty :=
  program.mentionedTypes ++ program.expressions.filterMap Expression.statedType? ++
    program.bodies.flatMap fun body => body.instructions.filterMap Instruction.parameterType?

/-- The names of all types that accesses are counted for. -/
def countedNames (program : Program) : List String :=
  "int" :: program.names ++ program.expressions.flatMap Expression.countedNames ++
    program.bodies.flatMap fun body => body.locals.flatMap LocalDecl.countedNames

/-- The names under which calls are counted. -/
def callNames (program : Program) : List String :=
  program.classes.flatMap fun declaration =>
    declaration.methods.map fun method => Transform.callCounterName declaration.name method.name

/-- Nothing that comes in has a name that the program uses, and no two things that are asked for have
one name. -/
structure Unambiguous (settings : Settings) (program : Program) : Prop where
  wellNamed : program.WellNamed
  apart : program.NamesApart settings.counterClassName
  classes :
    ∀ name ∈ program.reservedNames settings,
      name ∉ objectClass :: stringClass :: program.namedClasses
  types :
    ∀ type ∈ program.spelledTypes, ∀ name ∈ type.innermost.className?,
      name ∉ program.reservedNames settings
  wrappers :
    settings.arrays → settings.WrapsApart program.mentionedTypes ∧
      some settings.counterClassName ∉ program.mentionedTypes.map settings.wrapperName?
  counted : settings.typeProfiling → Text.ApartWithoutPoints program.countedNames
  calls : settings.callTracking → Text.ApartWithoutPoints program.callNames

instance (settings : Settings) (program : Program) : Decidable (program.Unambiguous settings) :=
  decidable_of_iff
    (program.WellNamed ∧ program.NamesApart settings.counterClassName ∧
      (∀ name ∈ program.reservedNames settings,
        name ∉ objectClass :: stringClass :: program.namedClasses) ∧
      (∀ type ∈ program.spelledTypes, ∀ name ∈ type.innermost.className?,
        name ∉ program.reservedNames settings) ∧
      (settings.arrays → settings.WrapsApart program.mentionedTypes ∧
        some settings.counterClassName ∉ program.mentionedTypes.map settings.wrapperName?) ∧
      (settings.typeProfiling → Text.ApartWithoutPoints program.countedNames) ∧
      (settings.callTracking → Text.ApartWithoutPoints program.callNames))
    ⟨fun ⟨wellNamed, apart, classes, types, wrappers, counted, calls⟩ =>
        ⟨wellNamed, apart, classes, types, wrappers, counted, calls⟩,
      fun unambiguous =>
        ⟨unambiguous.wellNamed, unambiguous.apart, unambiguous.classes, unambiguous.types,
          unambiguous.wrappers, unambiguous.counted, unambiguous.calls⟩⟩

/-- The owners that can ask for a counter, apart from classes that are instrumented. -/
def Asks (settings : Settings) (program : Program) : CounterOwner → Prop
  | .instances name => settings.arrays ∧ name ∈ program.mentionedTypes.filterMap settings.wrapperName?
  | .reads name | .writes name => settings.typeProfiling ∧ name ∈ program.countedNames
  | .calls name => settings.callTracking ∧ name ∈ program.callNames

/-- The element types that can ask for a wrapper. -/
def Elements (settings : Settings) (program : Program) (element : Ty) : Prop :=
  settings.arrays ∧ .array element ∈ program.mentionedTypes

end Program

/-! ## Keys of counters -/

section Keys

/-- The last letter of the keys under which owners ask, by what is counted. -/
def CounterOwner.lastLetter : CounterOwner → Char
  | .instances _ => 'y'
  | .reads _ => 'd'
  | .writes _ => 'e'
  | .calls _ => 'l'

/-- A text that ends with a letter is found again in front of digits. -/
theorem eq_of_append_digits_eq
    {first second digits others : List Char}
    {last lastToo : Char}
    (ends : first.getLast? = some last)
    (endsToo : second.getLast? = some lastToo)
    (letter : last.isDigit = false)
    (letterToo : lastToo.isDigit = false)
    (areDigits : ∀ character ∈ digits, character.isDigit)
    (areDigitsToo : ∀ character ∈ others, character.isDigit)
    (same : first ++ digits = second ++ others) :
    first = second := by
  have cut
      {text tail : List Char}
      {last : Char}
      (ends : text.getLast? = some last)
      (letter : last.isDigit = false)
      (areDigits : ∀ character ∈ tail, character.isDigit) :
      (text ++ tail).reverse.dropWhile Char.isDigit = text.reverse := by
    rw [List.reverse_append, List.dropWhile_append_of_pos fun character member =>
      areDigits character (List.mem_reverse.1 member)]
    rw [List.getLast?_eq_head?_reverse] at ends
    obtain ⟨rest, shape⟩ := List.head?_eq_some_iff.1 ends
    rw [shape, List.dropWhile_cons_of_neg (by simp [letter])]
  have reversed := (cut ends letter areDigits).symm.trans
    ((congrArg (fun text => text.reverse.dropWhile Char.isDigit) same).trans
      (cut endsToo letterToo areDigitsToo))
  exact List.reverse_injective reversed

/-- Which key a name was tried for can be told if keys end with letters. -/
theorem CounterTable.key_eq_of_candidate_eq
    {key other : String}
    {last lastToo : Char}
    (ends : key.toList.getLast? = some last)
    (endsToo : other.toList.getLast? = some lastToo)
    (letter : last.isDigit = false)
    (letterToo : lastToo.isDigit = false)
    {attempt attemptToo : Nat}
    (same : candidate key attempt = candidate other attemptToo) :
    key = other := by
  have numbered (key : String) (attempt : Nat) :
      ∃ digits : List Char, (∀ character ∈ digits, character.isDigit) ∧
        (candidate key attempt).toList = key.toList ++ digits ++ counterEnding.toList := by
    cases attempt with
    | zero => exact ⟨[], List.forall_mem_nil _, by simp [candidate]⟩
    | succ attempt =>
      refine ⟨Nat.toDigits 10 (attempt + 2), fun character digit =>
        Nat.isDigit_of_mem_toDigits (by decide) (by decide) digit, ?_⟩
      simp [candidate]
  obtain ⟨digits, areDigits, first⟩ := numbered key attempt
  obtain ⟨others, areDigitsToo, second⟩ := numbered other attemptToo
  rw [same, second] at first
  exact String.toList_inj.1 (eq_of_append_digits_eq ends endsToo letter letterToo areDigits
    areDigitsToo (List.append_cancel_right first.symm))

/-- Brackets are spelled without points. -/
theorem Text.not_mem_spellBracketsIn
    {word text : List Char}
    (pointless : '.' ∉ word)
    (without : '.' ∉ text) :
    '.' ∉ spellBracketsIn word text := by
  fun_induction spellBracketsIn word text with
  | case1 rest hypothesis =>
    simp only [List.mem_append, List.mem_cons, not_or] at without ⊢
    exact ⟨pointless, hypothesis without.2.2⟩
  | case2 character rest single hypothesis =>
    simp only [List.mem_cons, not_or] at without ⊢
    exact ⟨without.1, hypothesis without.2⟩
  | case3 => exact without

/-- Without points the name of a wrapper is that of its package and then that of the wrapper there. -/
theorem Wrapper.flattenedName_eq
    {settings : Settings}
    {element : Ty}
    {name : String}
    (named : nameFor? settings element = some name) :
    ∃ letters : List Char, name = settings.qualify (String.ofList (letters ++ "Array".toList)) ∧
      (Profile.flattenedName name).toList =
        (Text.without ['.'] settings.package).toList ++ letters ++ "Array".toList := by
  obtain ⟨-, rfl⟩ := nameFor?_eq_qualify named
  have pointless : '.' ∉ (Text.without ['.'] element.render).toList := by
    rw [Text.without, String.toList_ofList]
    exact fun member => absurd (List.mem_filter.1 member).2 (by decide)
  have word : '.' ∉ "Array".toList := by decide
  have letters := Text.not_mem_spellBracketsIn word pointless
  refine ⟨_, rfl, ?_⟩
  generalize Text.spellBracketsIn "Array".toList (Text.without ['.'] element.render).toList = spelled
    at letters ⊢
  generalize "Array".toList = brackets at word ⊢
  have kept : (spelled ++ brackets).filter (fun character => !List.contains ['.'] character) =
      spelled ++ brackets := by
    refine List.filter_eq_self.2 fun character member => ?_
    have differs : character ≠ '.' := by
      rintro rfl
      exact (List.mem_append.1 member).elim letters word
    simpa using differs
  have simple : (String.ofList (spelled ++ brackets)).toList = spelled ++ brackets :=
    String.toList_ofList
  unfold Profile.flattenedName Settings.qualify
  split
  · rename_i empty
    rw [String.isEmpty_iff] at empty
    rw [Text.without, Text.without, String.toList_ofList, simple, kept, empty]
    rfl
  · rw [Text.without, Text.without, String.toList_ofList, String.toList_ofList, String.toList_append,
      String.toList_append, List.filter_append, List.filter_append, simple, kept, List.append_assoc,
      List.append_assoc]
    rfl

/-- Wrappers of different names have different names without points. -/
theorem Wrapper.eq_of_flattenedName_eq
    {settings : Settings}
    {element other : Ty}
    {name nameToo : String}
    (named : nameFor? settings element = some name)
    (namedToo : nameFor? settings other = some nameToo)
    (same : Profile.flattenedName name = Profile.flattenedName nameToo) :
    name = nameToo := by
  obtain ⟨letters, rfl, flat⟩ := flattenedName_eq named
  obtain ⟨others, rfl, flatToo⟩ := flattenedName_eq namedToo
  rw [same, flatToo] at flat
  rw [List.append_cancel_left (List.append_cancel_right flat)]

end Keys

variable {settings : Settings} {program : Program} {base : Session}

/-- The key under which an owner asks ends with a letter that tells what is counted. -/
theorem Program.Asks.getLast?_key
    {owner : CounterOwner}
    (asks : program.Asks settings owner) :
    owner.key.toList.getLast? = some owner.lastLetter := by
  cases owner with
  | instances name =>
    obtain ⟨type, -, named⟩ := List.mem_filterMap.1 asks.2
    cases type with
    | array element =>
      obtain ⟨letters, -, flat⟩ := Wrapper.flattenedName_eq named
      rw [CounterOwner.key, flat, List.getLast?_append]
      rfl
    | _ => cases named
  | _ =>
    rw [CounterOwner.key, String.toList_append, List.getLast?_append]
    rfl

namespace Program.Unambiguous

variable (unambiguous : program.Unambiguous settings)
include unambiguous

/-- No two owners ask for names that could be the same. -/
theorem apart_asks : CounterTable.Apart (program.Asks settings) := by
  intro first asks second asksToo attempt other same
  have letters (owner : CounterOwner) : owner.lastLetter.isDigit = false := by cases owner <;> rfl
  have keys : first.key = second.key :=
    CounterTable.key_eq_of_candidate_eq asks.getLast?_key asksToo.getLast?_key (letters first)
      (letters second) same
  have kinds : first.lastLetter = second.lastLetter := by
    have ends := asks.getLast?_key
    rw [keys, asksToo.getLast?_key] at ends
    exact (Option.some.inj ends).symm
  have cut {text other ending : String} (same : text ++ ending = other ++ ending) : text = other :=
    String.append_left_inj ending |>.1 same
  cases first with
  | instances name =>
    cases second with
    | instances other =>
      obtain ⟨type, -, named⟩ := List.mem_filterMap.1 asks.2
      obtain ⟨typeToo, -, namedToo⟩ := List.mem_filterMap.1 asksToo.2
      cases type with
      | array element =>
        cases typeToo with
        | array elementToo => exact congrArg _ (Wrapper.eq_of_flattenedName_eq named namedToo keys)
        | _ => cases namedToo
      | _ => cases named
    | _ => simp [CounterOwner.lastLetter] at kinds
  | reads name =>
    cases second with
    | reads other =>
      exact congrArg _ (unambiguous.counted asks.1 _ asks.2 _ asksToo.2 (cut keys))
    | _ => simp [CounterOwner.lastLetter] at kinds
  | writes name =>
    cases second with
    | writes other =>
      exact congrArg _ (unambiguous.counted asks.1 _ asks.2 _ asksToo.2 (cut keys))
    | _ => simp [CounterOwner.lastLetter] at kinds
  | calls name =>
    cases second with
    | calls other =>
      exact congrArg _ (unambiguous.calls asks.1 _ asks.2 _ asksToo.2 (cut keys))
    | _ => simp [CounterOwner.lastLetter] at kinds

end Program.Unambiguous

end AccessProfiler
