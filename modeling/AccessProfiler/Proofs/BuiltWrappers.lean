import AccessProfiler.Proofs.SpelledNames
import AccessProfiler.Proofs.WrapperRequests

/-!
# Wrappers that were built

The wrappers that a session remembers are those that requests made (`Session.BuiltWrappers`).  Such a
wrapper has the name that it is remembered under, and it keeps arrays of its element type in its field.
Texts are never instances of one, as the name of a wrapper ends in the word for its brackets.
-/

namespace AccessProfiler

open Transform

/-- Whatever is remembered as a wrapper was made by a request, under the name for its element type. -/
def Session.BuiltWrappers (session : Session) : Prop :=
  ∀ name wrapper, session.wrappers.get? name = some wrapper →
    ∃ element before after, Wrapper.nameFor? before.settings element = some name ∧
      before.wrappers.get? name = none ∧ Ends (wrapperFor element) before (some wrapper) after

/-- The wrapper has the name that it is remembered under, which is not that of the class of texts, and its
instances keep arrays of its elements. -/
structure Wrapper.Faithful (name : String) (wrapper : Wrapper) : Prop where
  named : wrapper.name = name
  field : wrapper.arrayField.type = wrapper.arrayType
  apart : name ≠ stringClass

/-- The name of a wrapper ends in the word for the brackets of an array. -/
theorem Wrapper.name_ne_stringClass
    {settings : Settings}
    {element : Ty}
    {name : String}
    (named : nameFor? settings element = some name) :
    name ≠ stringClass := by
  obtain ⟨front, ending⟩ : ∃ front, name.toList = front ++ "Array".toList := by
    have brackets :
        ("[]".toList.filter fun character => !List.contains ['.'] character) = ['[', ']'] := by decide
    have simple :
        (Text.spellBrackets "Array" (Text.without ['.'] (Ty.array element).render)).toList =
          Text.spellBracketsIn "Array".toList
              (element.render.toList.filter fun character => !List.contains ['.'] character) ++
            "Array".toList := by
      simp only [Text.spellBrackets, Text.without, Ty.render, String.toList_append,
        String.toList_ofList, List.filter_append, brackets, Text.spellBracketsIn_append]
    have whole :
        name =
          settings.qualify
            (Text.spellBrackets "Array" (Text.without ['.'] (Ty.array element).render)) := by
      unfold nameFor? at named
      split at named <;> first | exact (Option.some.inj named).symm | cases named
    rw [whole, Settings.qualify]
    split
    · exact ⟨_, simple⟩
    · rw [String.toList_append, simple, ← List.append_assoc]
      exact ⟨_, rfl⟩
  rintro rfl
  have last := congrArg List.getLast? ending
  rw [List.getLast?_append_of_ne_nil _ (by decide)] at last
  exact absurd last (by decide)

theorem Transform.buildWrapper_faithful
    {name : String}
    {element : Ty}
    {wrapper : Wrapper}
    {before after : Session}
    (ends : Ends (buildWrapper name element) before wrapper after) :
    wrapper.name = name ∧ wrapper.arrayField.type = wrapper.arrayType := by
  unfold buildWrapper at ends
  simp only [Ends.bind_iff, Ends.pure_iff] at ends
  obtain ⟨field, _, adds, _, _, _, _, _, _, _, _, _, _, _, _, _, _, _, rfl, -⟩ := ends
  obtain ⟨program, added, -⟩ := ends_changeProgram.1 adds
  obtain ⟨declaration, extended, -, extending, -⟩ := Program.addField_eq_ok added
  refine ⟨rfl, ?_⟩
  rcases Class.addField_cases extending with ⟨declared, -, typed, rfl, -⟩ | ⟨-, rfl, -⟩
  · exact typed
  · rfl

/-- What a request made is faithful to the name that it made it under. -/
theorem Session.BuiltWrappers.faithful
    {session : Session}
    {name : String}
    {wrapper : Wrapper}
    (built : session.BuiltWrappers)
    (known : session.wrappers.get? name = some wrapper) :
    wrapper.Faithful name := by
  obtain ⟨element, before, after, named, unknown, ends⟩ := built name wrapper known
  unfold wrapperFor at ends
  rw [Ends.get_bind_iff, named] at ends
  dsimp only at ends
  rw [unknown] at ends
  simp only [Ends.bind_iff] at ends
  obtain ⟨_, _, -, made, _, builds, ends⟩ := ends
  have same : made = wrapper := by
    obtain ⟨_, _, -, ends⟩ := ends
    split at ends
    · simp only [Ends.bind_iff, Ends.pure_iff] at ends
      obtain ⟨_, _, -, same, -⟩ := ends
      exact (Option.some.inj same).symm
    · simp only [Ends.pure_iff] at ends
      exact (Option.some.inj ends.1).symm
  subst same
  obtain ⟨own, field⟩ := buildWrapper_faithful builds
  exact ⟨own, field, Wrapper.name_ne_stringClass named⟩

/-- Where no class has a name that could be generated, the wrappers are those that requests made. -/
theorem Transform.requests_build
    {settings : Settings}
    {program : Program}
    (vacant : ∀ name, settings.Generates name → program.class? name = none)
    (requests : List Ty) :
    Succeeds (requests.mapM wrapperFor) (.start settings program) fun _ after =>
      after.Served settings program requests ∧ after.BuiltWrappers := by
  refine Succeeds.mapM
    (fun done _ (between : Session) => between.Served settings program done ∧ between.BuiltWrappers)
    ⟨.start vacant, nofun⟩ ?_
  rintro done request rest found between - ⟨served, built⟩
  obtain ⟨answer, after, ends, servedAfter, remembered, answered⟩ := wrapperFor_served served request
  refine ⟨answer, after, ends, servedAfter, fun name wrapper known => ?_⟩
  cases earlier : between.wrappers.get? name with
  | some wrapperBefore =>
    obtain rfl := Option.some.inj ((remembered earlier).symm.trans known)
    exact built name wrapperBefore earlier
  | none =>
    have named : Wrapper.nameFor? settings request = some name := by
      obtain ⟨other, member, named⟩ :=
        (servedAfter.isSome_get?_iff name).1 (by rw [known]; rfl)
      rcases List.mem_append.1 member with before | last
      · have isSome := (served.isSome_get?_iff name).2 ⟨other, before, named⟩
        rw [earlier] at isSome
        cases isSome
      · rwa [List.mem_singleton.1 last] at named
    rw [Session.answer, named, Option.bind_some, known] at answered
    subst answered
    refine ⟨request, between, after, ?_, earlier, ends⟩
    rw [served.ready.settings]
    exact named

end AccessProfiler
