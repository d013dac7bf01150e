import AccessProfiler.Proofs.WrappingRoom
import Mathlib.Data.Finset.Card
import Mathlib.Data.Finset.Image

/-!
# Requests for wrappers

A wrapper is remembered under the name of its class, and that name is the spelling of the array type
without points.  Element types of one name share a wrapper: the first request for the name decides which
elements it has (`Session.Served`).  Requests always succeed where no class is in the way, and each
element type gets a wrapper of its own exactly if the names tell the requested types apart.
-/

namespace AccessProfiler

/-- Arrays of arrays have no wrapper, and neither `void` nor `null` is a type of elements. -/
def Ty.isWrappable : Ty → Bool
  | .array _ | .void | .null => false
  | _ => true

theorem Wrapper.isSome_nameFor? (settings : Settings) (element : Ty) :
    (Wrapper.nameFor? settings element).isSome = element.isWrappable := by
  cases element <;> rfl

/-- The names of the wrappers tell the requested element types apart. -/
def Settings.TellsApart (settings : Settings) (requests : List Ty) : Prop :=
  ∀ first ∈ requests, ∀ second ∈ requests, first.isWrappable →
    Wrapper.nameFor? settings first = Wrapper.nameFor? settings second → first = second

instance (settings : Settings) (requests : List Ty) : Decidable (settings.TellsApart requests) :=
  inferInstanceAs (Decidable (∀ first ∈ requests, ∀ second ∈ requests, first.isWrappable →
    Wrapper.nameFor? settings first = Wrapper.nameFor? settings second → first = second))

/-- Each of the requested element types has a wrapper of its own. -/
structure Session.OwnWrappers
    (requests : List Ty)
    (found : List (Option Wrapper))
    (after : Session) : Prop where
  element :
    ∀ {request : Ty} {wrapper : Wrapper},
      (request, some wrapper) ∈ requests.zip found → wrapper.element = request
  same :
    ∀ {first second : Ty} {wrapper other : Wrapper},
      (first, some wrapper) ∈ requests.zip found → (second, some other) ∈ requests.zip found →
        (wrapper.name = other.name ↔ first = second)
  registered :
    (after.program.names.filter after.isWrapper).length =
      (requests.filter Ty.isWrappable).dedup.length

/-- Requests for some wrappers were served, and there is room for further ones. -/
structure Session.Served
    (settings : Settings)
    (program : Program)
    (requests : List Ty)
    (session : Session) : Prop where
  ready : session.Ready settings
  elements :
    ∀ name, (session.wrappers.get? name).map Wrapper.element =
      requests.find? fun request => Wrapper.nameFor? settings request = some name
  named :
    ∀ {name : String} {wrapper : Wrapper},
      session.wrappers.get? name = some wrapper → wrapper.name = name
  registered :
    ∀ {name : String},
      (session.wrappers.get? name).isSome → (session.program.class? name).isSome
  added :
    ∀ {name : String}, (session.program.class? name).isSome →
      (program.class? name).isSome ∨ (session.wrappers.get? name).isSome ∨
        name = settings.counterClassName
  bare :
    ∀ {name : String}, settings.Generates name → session.wrappers.get? name = none →
      session.program.Bare name

/-- The wrappers that were made are still the same. -/
def Session.Remembered (before after : Session) : Prop :=
  ∀ {name : String} {wrapper : Wrapper},
    before.wrappers.get? name = some wrapper → after.wrappers.get? name = some wrapper

/-- What a request is answered with once it has been served. -/
def Session.answer (settings : Settings) (session : Session) (request : Ty) : Option Wrapper :=
  (Wrapper.nameFor? settings request).bind session.wrappers.get?

/-- A list is paired with the images of its items. -/
theorem mem_zip_map_iff
    {Item Value : Type}
    {list : List Item}
    {image : Item → Value}
    {item : Item}
    {value : Value} :
    (item, value) ∈ list.zip (list.map image) ↔ item ∈ list ∧ image item = value := by
  simp [← List.map_prod_left_eq_zip]

namespace Session.Served

variable {settings : Settings} {program : Program} {requests : List Ty} {session : Session}

/-- Nothing has been requested, and no class has a name that could be generated. -/
theorem start (vacant : ∀ name, settings.Generates name → program.class? name = none) :
    (Session.start settings program).Served settings program [] where
  ready :=
    { className := rfl
      classes := fun generates found => absurd ((vacant _ generates).symm.trans found) nofun
      settings := rfl }
  elements _ := rfl
  named found := nomatch found
  registered found := nomatch found
  added := .inl
  bare generates _ := by
    unfold Program.Bare
    show (program.class? _).bind _ = none
    rw [vacant _ generates]
    rfl

/-- Some request made a name known exactly if it is one for that name. -/
theorem isSome_get?_iff (served : session.Served settings program requests) (name : String) :
    (session.wrappers.get? name).isSome ↔
      ∃ request ∈ requests, Wrapper.nameFor? settings request = some name := by
  rw [← Option.isSome_map (f := Wrapper.element), served.elements, List.find?_isSome]
  simp

/-- A wrapper is the answer to a request exactly if it is kept under the name. -/
theorem answer_name
    (served : session.Served settings program requests)
    {request : Ty}
    {wrapper : Wrapper}
    (answered : session.answer settings request = some wrapper) :
    Wrapper.nameFor? settings request = some wrapper.name := by
  obtain ⟨name, named, kept⟩ := Option.bind_eq_some_iff.1 answered
  rw [named, served.named kept]

theorem isSome_answer
    (served : session.Served settings program requests)
    {request : Ty}
    (member : request ∈ requests) :
    (session.answer settings request).isSome = request.isWrappable := by
  rw [← Wrapper.isSome_nameFor? settings, Session.answer]
  cases named : Wrapper.nameFor? settings request with
  | none => rfl
  | some name => exact (served.isSome_get?_iff name).2 ⟨request, member, named⟩

/-- The elements of an answer are of the type for which its name was requested first. -/
theorem answer_element
    (served : session.Served settings program requests)
    (apart : settings.TellsApart requests)
    {request : Ty}
    {wrapper : Wrapper}
    (member : request ∈ requests)
    (answered : session.answer settings request = some wrapper) :
    wrapper.element = request := by
  obtain ⟨name, named, kept⟩ := Option.bind_eq_some_iff.1 answered
  have first := served.elements name
  rw [kept, Option.map_some] at first
  have firstNamed : Wrapper.nameFor? settings wrapper.element = some name := by
    simpa using List.find?_some first.symm
  have wrappable : wrapper.element.isWrappable := by
    rw [← Wrapper.isSome_nameFor? settings, firstNamed]
    rfl
  exact apart _ (List.mem_of_find?_eq_some first.symm) _ member wrappable
    (firstNamed.trans named.symm)

/-- The registered wrapper classes are those under the names of the requested types. -/
theorem mem_wrapperNames_iff (served : session.Served settings program requests) (name : String) :
    name ∈ session.program.names.filter session.isWrapper ↔
      ∃ request ∈ requests, Wrapper.nameFor? settings request = some name := by
  rw [List.mem_filter, ← served.isSome_get?_iff name]
  refine ⟨And.right, fun known => ⟨?_, known⟩⟩
  obtain ⟨declaration, found⟩ := Option.isSome_iff_exists.1 (served.registered known)
  exact List.mem_map_of_mem (Program.mem_entries_of_class? found)

/-- As many wrapper classes are registered as names were requested. -/
theorem length_wrapperNames
    (served : session.Served settings program requests)
    (apart : settings.TellsApart requests) :
    (session.program.names.filter session.isWrapper).length =
      (requests.filter Ty.isWrappable).dedup.length := by
  have wrappable (request : Ty) (name : String)
      (named : Wrapper.nameFor? settings request = some name) : request.isWrappable := by
    rw [← Wrapper.isSome_nameFor? settings, named]
    rfl
  have same :
      ((session.program.names.filter session.isWrapper).map some).toFinset =
        (requests.filter Ty.isWrappable).toFinset.image (Wrapper.nameFor? settings) := by
    ext named
    simp only [List.mem_toFinset, List.mem_map, Finset.mem_image, served.mem_wrapperNames_iff]
    constructor
    · rintro ⟨name, ⟨request, member, requested⟩, rfl⟩
      exact ⟨request, List.mem_filter.2 ⟨member, wrappable request name requested⟩, requested⟩
    · rintro ⟨request, member, rfl⟩
      obtain ⟨requested, isWrappable⟩ := List.mem_filter.1 member
      rw [← Wrapper.isSome_nameFor? settings] at isWrappable
      obtain ⟨name, named⟩ := Option.isSome_iff_exists.1 isWrappable
      exact ⟨name, ⟨request, requested, named⟩, named.symm⟩
  have injective :
      Set.InjOn (Wrapper.nameFor? settings) (requests.filter Ty.isWrappable).toFinset := by
    intro first firstMember second secondMember equal
    have firstMember := List.mem_filter.1 (List.mem_toFinset.1 (Finset.mem_coe.1 firstMember))
    have secondMember := List.mem_filter.1 (List.mem_toFinset.1 (Finset.mem_coe.1 secondMember))
    exact apart first firstMember.1 second secondMember.1 firstMember.2 equal
  have once : ((session.program.names.filter session.isWrapper).map some).Nodup :=
    (session.program.distinct.filter _).map (Option.some_injective _)
  rw [← List.length_map some, ← List.toFinset_card_of_nodup once, same,
    Finset.card_image_of_injOn injective, List.card_toFinset]

/-- If the names tell the requested types apart, each of them has a wrapper of its own. -/
theorem ownWrappers
    (served : session.Served settings program requests)
    (apart : settings.TellsApart requests) :
    session.OwnWrappers requests (requests.map (session.answer settings)) where
  element paired := by
    obtain ⟨member, answered⟩ := mem_zip_map_iff.1 paired
    exact served.answer_element apart member answered
  same paired pairedOther := by
    obtain ⟨member, answered⟩ := mem_zip_map_iff.1 paired
    obtain ⟨memberOther, answeredOther⟩ := mem_zip_map_iff.1 pairedOther
    constructor
    · intro equal
      refine apart _ member _ memberOther ?_ ?_
      · rw [← served.isSome_answer member, answered]
        rfl
      · rw [served.answer_name answered, served.answer_name answeredOther, equal]
    · rintro rfl
      rw [Option.some.inj (answered.symm.trans answeredOther)]
  registered := served.length_wrapperNames apart

/-- Two types that have one name have one wrapper. -/
theorem tellsApart
    (served : session.Served settings program requests)
    (own : session.OwnWrappers requests (requests.map (session.answer settings))) :
    settings.TellsApart requests := by
  intro first firstMember second secondMember wrappable equal
  rw [← served.isSome_answer firstMember] at wrappable
  obtain ⟨wrapper, answered⟩ := Option.isSome_iff_exists.1 wrappable
  have answeredSecond : session.answer settings second = some wrapper := by
    rw [← answered, Session.answer, Session.answer, equal]
  exact (own.same (mem_zip_map_iff.2 ⟨firstMember, answered⟩)
    (mem_zip_map_iff.2 ⟨secondMember, answeredSecond⟩)).1 rfl

/-- A further request for a wrapper that is known, or for none, changes nothing. -/
theorem again
    {request : Ty}
    (served : session.Served settings program requests)
    (known :
      ∀ name, Wrapper.nameFor? settings request = some name →
        (session.wrappers.get? name).isSome) :
    session.Served settings program (requests ++ [request]) := by
  refine { served with elements := fun name => ?_ }
  rw [List.find?_append, ← served.elements name]
  by_cases named : Wrapper.nameFor? settings request = some name
  · obtain ⟨wrapper, kept⟩ := Option.isSome_iff_exists.1 (known name named)
    rw [kept]
    rfl
  · simp [named]

/-- A new wrapper is remembered under its name, and its class is registered. -/
theorem put
    {request : Ty}
    {name : String}
    {wrapper : Wrapper}
    {ensured built : Session}
    (served : session.Served settings program requests)
    (named : Wrapper.nameFor? settings request = some name)
    (fresh : session.wrappers.get? name = none)
    (made : wrapper.name = name ∧ wrapper.element = request)
    (registers : session.Registers name ensured)
    (advances : ensured.Advances settings (· ≠ name) built)
    (ready : built.Ready settings)
    (journal : Journal) :
    Session.Served settings program (requests ++ [request])
      { built with wrappers := session.wrappers.put name wrapper, journal } where
  ready := ready.annotate rfl rfl rfl
  elements other := by
    rw [Table.get?_put, List.find?_append, ← served.elements other]
    by_cases same : other = name
    · rw [if_pos same, same, fresh]
      simp [named, made.2]
    · have others : some name ≠ some other := fun equal => same (Option.some.inj equal).symm
      rw [if_neg same]
      simp [named, others]
  named kept := by
    rw [Table.get?_put] at kept
    split at kept
    · rename_i same
      rw [← Option.some.inj kept, made.1, same]
    · exact served.named kept
  registered kept := by
    apply advances.kept
    rw [Table.get?_put] at kept
    rw [registers.classes]
    split at kept
    · rename_i same
      exact .inr same
    · exact .inl (served.registered kept)
  added registered := by
    rw [Table.get?_put]
    split
    · exact .inr (.inl rfl)
    · rename_i differs
      rcases advances.added registered with before | counts
      · exact served.added (((registers.classes _).1 before).resolve_right differs)
      · exact .inr (.inr counts)
  bare generates unkept := by
    rw [Table.get?_put] at unkept
    split at unkept
    · cases unkept
    · rename_i differs
      exact advances.bare differs (registers.bare (served.bare generates unkept))

end Session.Served

namespace Transform

variable {settings : Settings} {program : Program} {before : Session}

/-- The members of a wrapper can be declared on a class that keeps no arrays yet; no other class begins
to keep them. -/
theorem buildWrapper_ready
    {name : String}
    (ready : before.Ready settings)
    (generates : settings.Generates name)
    (registered : (before.program.class? name).isSome)
    (bare : before.program.Bare name)
    (element : Ty) :
    Succeeds (buildWrapper name element) before fun wrapper after =>
      (wrapper.name = name ∧ wrapper.element = element) ∧
        after.Ready settings ∧ before.Advances settings (· ≠ name) after := by
  unfold buildWrapper
  refine (addArrays_ready ready generates registered bare element).bind ?_
  rintro field first ⟨readyFirst, toFirst⟩
  refine (instrument_ready (· ≠ name) readyFirst generates (toFirst.kept registered)).bind ?_
  rintro profile second ⟨readySecond, further⟩
  have toSecond := toFirst.trans further
  refine (addMember_ready (· ≠ name) readySecond generates (toSecond.kept registered) _ _ _ _ rfl).bind ?_
  rintro fromArray third ⟨readyThird, further⟩
  have toThird := toSecond.trans further
  refine (addMember_ready (· ≠ name) readyThird generates (toThird.kept registered) _ _ _ _ rfl).bind ?_
  rintro withLength fourth ⟨readyFourth, further⟩
  have toFourth := toThird.trans further
  refine (addMember_ready (· ≠ name) readyFourth generates (toFourth.kept registered) _ _ _ _ rfl).bind ?_
  rintro get fifth ⟨readyFifth, further⟩
  have toFifth := toFourth.trans further
  refine (addMember_ready (· ≠ name) readyFifth generates (toFifth.kept registered) _ _ _ _ rfl).bind ?_
  rintro set sixth ⟨readySixth, further⟩
  exact .pure ⟨⟨rfl, rfl⟩, readySixth, toFifth.trans further⟩

/-- The class of a wrapper is registered on the first request, and becomes complete. -/
theorem makeWrapper_served
    {requests : List Ty}
    {request : Ty}
    {name : String}
    (served : before.Served settings program requests)
    (named : Wrapper.nameFor? settings request = some name)
    (fresh : before.wrappers.get? name = none) :
    Succeeds (wrapperFor request) before fun found after =>
      after.Served settings program (requests ++ [request]) ∧ before.Remembered after ∧
        found = after.answer settings request := by
  have generates : settings.Generates name := .inr ⟨request, named⟩
  have concrete : (Wrapper.declaration name).isInterface = false := by
    show (Class.syntheticFlag.union Class.wrapperFlag).includes Class.interfaceFlag = false
    decide
  unfold wrapperFor
  apply Succeeds.get_bind
  rw [served.ready.settings, named]
  dsimp only
  rw [fresh]
  refine (ensureClass_ready served.ready concrete rfl).bind ?_
  rintro created ensured ⟨readyEnsured, registers⟩
  refine (buildWrapper_ready readyEnsured generates ((registers.classes name).2 (.inr rfl))
    (registers.bare (served.bare generates fresh)) request).bind ?_
  rintro wrapper built ⟨made, readyBuilt, advances⟩
  have wrappers : built.wrappers = before.wrappers := advances.wrappers.trans registers.wrappers
  apply Succeeds.modify_bind
  rw [wrappers]
  have reached := served.put named fresh made registers advances readyBuilt
  have kept (journal : Journal) :
      Session.answer settings { built with wrappers := before.wrappers.put name wrapper, journal }
        request = some wrapper := by
    rw [Session.answer, named, Option.bind_some, Table.get?_put, if_pos rfl]
  have remembered (journal : Journal) :
      before.Remembered
        { built with wrappers := before.wrappers.put name wrapper, journal } := by
    intro other earlier known
    have differs : other ≠ name := by
      rintro rfl
      exact absurd (fresh.symm.trans known) nofun
    rwa [Table.get?_put, if_neg differs]
  cases created with
  | true =>
    apply record_bind
    intro journal
    exact .pure ⟨reached journal, remembered journal, (kept journal).symm⟩
  | false => exact .pure ⟨reached _, remembered _, (kept _).symm⟩

/-- The first request for a name makes its wrapper; the following ones are answered with it. -/
theorem wrapperFor_served
    {requests : List Ty}
    (served : before.Served settings program requests)
    (request : Ty) :
    Succeeds (wrapperFor request) before fun found after =>
      after.Served settings program (requests ++ [request]) ∧ before.Remembered after ∧
        found = after.answer settings request := by
  cases named : Wrapper.nameFor? settings request with
  | none =>
    unfold wrapperFor
    apply Succeeds.get_bind
    rw [served.ready.settings, named]
    refine .pure ⟨served.again fun name requested => ?_, id, ?_⟩
    · rw [named] at requested
      cases requested
    · rw [Session.answer, named]
      rfl
  | some name =>
    cases known : before.wrappers.get? name with
    | none => exact makeWrapper_served served named known
    | some wrapper =>
      unfold wrapperFor
      apply Succeeds.get_bind
      rw [served.ready.settings, named]
      dsimp only
      rw [known]
      refine .pure ⟨served.again fun other requested => ?_, id, ?_⟩
      · obtain rfl := Option.some.inj (named.symm.trans requested)
        rw [known]
        rfl
      · rw [Session.answer, named, Option.bind_some, known]

/-- Every request is answered, and the answers stay what they are. -/
theorem requests_served
    (vacant : ∀ name, settings.Generates name → program.class? name = none)
    (requests : List Ty) :
    Succeeds (requests.mapM wrapperFor) (.start settings program) fun found after =>
      after.Served settings program requests ∧ found = requests.map (after.answer settings) := by
  refine Succeeds.mapM
    (fun done found (between : Session) =>
      between.Served settings program done ∧ found = done.map (between.answer settings))
    ⟨.start vacant, rfl⟩ ?_
  rintro done request rest found between - ⟨served, rfl⟩
  refine (wrapperFor_served served request).mono ?_
  rintro answer after ⟨servedAfter, remembered, rfl⟩
  refine ⟨servedAfter, ?_⟩
  rw [List.map_append, List.map_singleton]
  congr 1
  refine List.map_congr_left fun earlier member => ?_
  cases answered : between.answer settings earlier with
  | none =>
    have unnamed : Wrapper.nameFor? settings earlier = none := by
      rw [← Option.not_isSome_iff_eq_none, Wrapper.isSome_nameFor?, ← served.isSome_answer member,
        answered]
      exact Bool.false_ne_true
    rw [Session.answer, unnamed, Option.bind_none]
  | some wrapper =>
    obtain ⟨name, named, known⟩ := Option.bind_eq_some_iff.1 answered
    rw [Session.answer, named, Option.bind_some, remembered known]

/-- Where no class has a name that could be generated, every sequence of requests is served: the types
that are wrappable get a wrapper, and no class is registered but those of the wrappers and of the
counters.  Each of the types has a wrapper of its own exactly if the names tell them apart. -/
theorem wrapperFor_distinguishes
    (settings : Settings)
    (program : Program)
    (vacant : ∀ name, settings.Generates name → program.class? name = none)
    (requests : List Ty) :
    ∃ found after,
      Ends (requests.mapM wrapperFor) (.start settings program) found after ∧
        found.map Option.isSome = requests.map Ty.isWrappable ∧
        (∀ {name : String}, after.program.contains name →
          program.contains name ∨ after.isWrapper name ∨ name = settings.counterClassName) ∧
        (after.OwnWrappers requests found ↔ settings.TellsApart requests) := by
  obtain ⟨found, after, ends, served, rfl⟩ := requests_served vacant requests
  refine ⟨_, after, ends, ?_, served.added, served.tellsApart, served.ownWrappers⟩
  rw [List.map_map]
  exact List.map_congr_left fun request member => served.isSome_answer member

/-- Numbers and items are kept apart, however often their wrappers are requested. -/
theorem numbersAndItems_own_wrappers :
    (∀ name, Settings.standard.Generates name → Program.empty.class? name = none) ∧
      ∃ found after,
        Ends ([.int, .object "shop.Item", .int].mapM wrapperFor) (.start .standard .empty) found after ∧
          found.map Option.isSome = [true, true, true] ∧
          after.OwnWrappers [.int, .object "shop.Item", .int] found := by
  have vacant : ∀ name, Settings.standard.Generates name → Program.empty.class? name = none :=
    fun _ _ => rfl
  obtain ⟨found, after, ends, answered, -, own⟩ :=
    wrapperFor_distinguishes .standard .empty vacant [.int, .object "shop.Item", .int]
  exact ⟨vacant, found, after, ends, answered, own.2 (by decide +kernel)⟩

/-- Two classes whose names differ in their points only share a wrapper. -/
theorem flattenedNames_share_wrapper :
    ∃ found after,
      Ends ([.object "a.bC", .object "ab.C"].mapM wrapperFor) (.start .standard .empty) found after ∧
        ¬ after.OwnWrappers [.object "a.bC", .object "ab.C"] found := by
  have vacant : ∀ name, Settings.standard.Generates name → Program.empty.class? name = none :=
    fun _ _ => rfl
  obtain ⟨found, after, ends, served, rfl⟩ :=
    requests_served vacant [.object "a.bC", .object "ab.C"]
  have shared : ¬ Settings.standard.TellsApart [.object "a.bC", .object "ab.C"] := by
    decide +kernel
  exact ⟨_, after, ends, fun own => shared (served.tellsApart own)⟩

end Transform
end AccessProfiler
