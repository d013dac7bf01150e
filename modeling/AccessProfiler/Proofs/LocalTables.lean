import AccessProfiler.Instrument.Profile
import AccessProfiler.Proofs.FreeNames

/-!
# Tables of locals

A body is asked to declare locals, under a given name or under a generated one, and to declare other types
for locals.  Whatever it is asked, and whatever becomes of it, the locals that are there keep their
numbers and names, and as long as the names differ from each other they go on to do so
(`Body.localNames_request_nodup`).

Bodies are edited in no other way, so it is said of a step what it does to the table by giving the
requests that it amounts to (`Body.DeclaresTo`).
-/

namespace AccessProfiler

/-- A request to the table of locals of a body. -/
inductive LocalRequest
  | add (name : String) (type : Ty)
  | generate (stem : String) (type : Ty)
  | retype (id : LocalId) (type : Ty)

namespace Body

/-- Make one request.  What is returned is the local that was declared, if one was asked for; a body that
refuses a request stays as it is. -/
def request (body : Body) : LocalRequest → Except Defect (Option LocalId) × Body
  | .add name type =>
    match body.addLocal name type with
    | .ok (id, changed) => (.ok (some id), changed)
    | .error defect => (.error defect, body)
  | .generate stem type => (.ok (some (body.newLocal stem type).1), (body.newLocal stem type).2)
  | .retype id type => (.ok none, body.setLocalType id type)

/-- Make requests one after the other, whatever becomes of each of them. -/
def requestAll (body : Body) (requests : List LocalRequest) : Body :=
  requests.foldl (fun body request => (body.request request).2) body

theorem requestAll_append (body : Body) (first second : List LocalRequest) :
    body.requestAll (first ++ second) = (body.requestAll first).requestAll second :=
  List.foldl_append

variable {body : Body}

/-! ## Generated names -/

/-- The search for the number of a generated name starts at how many locals there are, passes over taken
names only, and ends at a free one, after at most as many attempts in vain as there are locals. -/
theorem freshName_eq (body : Body) (stem : String) :
    ∃ offset ≤ body.locals.length,
      body.freshName stem = stem ++ toString (body.locals.length + offset) ∧
        body.freshName stem ∉ body.localNames ∧
          ∀ earlier < offset,
            stem ++ toString (body.locals.length + earlier) ∈ body.localNames := by
  have injective :
      Function.Injective fun offset => stem ++ toString (body.locals.length + offset) := by
    intro first second same
    have letters := congrArg String.toList same
    simp only [String.toList_append, List.append_cancel_left_eq, String.toList_inj] at letters
    exact Nat.add_left_cancel (Text.toString_injective letters)
  obtain ⟨offset, named, free, passed⟩ := Text.firstFree_eq body.localNames injective
  have bounded := Text.length_of_taken injective passed
  rw [localNames, List.length_map] at bounded
  refine ⟨offset, bounded, named, ?_, passed⟩
  rw [freshName, named]
  exact free

theorem freshName_not_mem (body : Body) (stem : String) : body.freshName stem ∉ body.localNames := by
  obtain ⟨_, _, _, free, _⟩ := body.freshName_eq stem
  exact free

/-! ## One request -/

/-- A name that is taken is refused, and every other is declared. -/
theorem request_add (body : Body) (name : String) (type : Ty) :
    body.request (.add name type) =
      if name ∈ body.localNames then (.error (.duplicateLocal name), body)
      else
        (.ok (some ⟨body.locals.length⟩), { body with locals := body.locals ++ [⟨name, type⟩] }) := by
  by_cases taken : name ∈ body.localNames
  · have refused : body.addLocal name type = .error (.duplicateLocal name) :=
      if_pos (List.contains_iff_mem.2 taken)
    rw [if_pos taken]
    simp only [Body.request, refused]
  · have accepted : body.addLocal name type =
        .ok (⟨body.locals.length⟩, { body with locals := body.locals ++ [⟨name, type⟩] }) :=
      if_neg (mt List.contains_iff_mem.1 taken)
    rw [if_neg taken]
    simp only [Body.request, accepted]

/-- Another type leaves the names as they are. -/
theorem localNames_setLocalType (body : Body) (id : LocalId) (type : Ty) :
    (body.setLocalType id type).localNames = body.localNames := by
  refine List.ext_getElem? fun index => ?_
  rw [localNames, localNames, List.getElem?_map, List.getElem?_map]
  by_cases same : id.index = index
  · subst same
    rw [setLocalType, List.getElem?_modify_eq, Option.map_eq_map, Option.map_map]
    rfl
  · rw [setLocalType, List.getElem?_modify_ne _ _ same]

/-- A request adds a free name at the end or leaves the names as they are. -/
theorem localNames_request (body : Body) (request : LocalRequest) :
    (body.request request).2.localNames = body.localNames ∨
      ∃ name, name ∉ body.localNames ∧
        (body.request request).2.localNames = body.localNames ++ [name] := by
  cases request with
  | add name type =>
    rw [request_add]
    split
    · exact .inl rfl
    · rename_i free
      exact .inr ⟨name, free, List.map_append⟩
  | generate stem type =>
    exact .inr ⟨body.freshName stem, body.freshName_not_mem stem, List.map_append⟩
  | retype id type => exact .inl (body.localNames_setLocalType id type)

theorem localNames_request_nodup
    (distinct : body.localNames.Nodup)
    (request : LocalRequest) :
    (body.request request).2.localNames.Nodup := by
  rcases body.localNames_request request with same | ⟨name, free, extended⟩
  · rw [same]
    exact distinct
  · rw [extended, ← List.concat_eq_append]
    exact distinct.concat free

/-! ## Sequences of requests -/

/-- Names go on to differ from each other. -/
theorem localNames_requestAll_nodup
    (distinct : body.localNames.Nodup)
    (requests : List LocalRequest) :
    (body.requestAll requests).localNames.Nodup := by
  induction requests generalizing body with
  | nil => exact distinct
  | cons request rest hypothesis => exact hypothesis (localNames_request_nodup distinct request)

/-- Names are only added at the end. -/
theorem localNames_prefix_requestAll (body : Body) (requests : List LocalRequest) :
    body.localNames <+: (body.requestAll requests).localNames := by
  induction requests generalizing body with
  | nil => exact List.prefix_refl _
  | cons request rest hypothesis =>
    refine List.IsPrefix.trans ?_ (hypothesis (body.request request).2)
    rcases body.localNames_request request with same | ⟨name, -, extended⟩
    · exact ⟨[], (List.append_nil _).trans same.symm⟩
    · exact ⟨[name], extended.symm⟩

/-- A local that is there keeps its number and its name, whatever becomes of its type. -/
theorem local?_requestAll
    {id : LocalId}
    {declaration : LocalDecl}
    (declared : body.local? id = some declaration)
    (requests : List LocalRequest) :
    ∃ type, (body.requestAll requests).local? id = some ⟨declaration.name, type⟩ := by
  have named : body.localNames[id.index]? = some declaration.name := by
    rw [localNames, List.getElem?_map]
    exact congrArg (Option.map LocalDecl.name) declared
  obtain ⟨added, extended⟩ := localNames_prefix_requestAll body requests
  have bounded := (List.getElem?_eq_some_iff.1 named).1
  have kept : (body.requestAll requests).localNames[id.index]? = some declaration.name := by
    rw [← extended, List.getElem?_append_left bounded, named]
  rw [localNames, List.getElem?_map] at kept
  obtain ⟨⟨name, type⟩, now, same⟩ := Option.map_eq_some_iff.1 kept
  obtain rfl : name = declaration.name := same
  exact ⟨type, now⟩

end Body

/-- A constructor that is patched gets one local and other instructions. -/
theorem Profile.exists_instructions_of_patched
    {profile : Profile}
    {sink : Sink}
    {body patched : Body}
    (patches : profile.patchConstructor sink body = .ok (.ok patched)) :
    ∃ instructions, patched = { (body.newLocal "$serial" .int).2 with instructions } := by
  unfold Profile.patchConstructor at patches
  split at patches
  · cases patches
  · split at patches
    · cases patches
    · cases patches
      exact ⟨_, rfl⟩

namespace Body

variable {body : Body}

/-! ## Steps that amount to requests -/

/-- Requests depend on the table alone, and so does what becomes of it. -/
theorem locals_request_congr
    {first second : Body}
    (same : first.locals = second.locals)
    (request : LocalRequest) :
    (first.request request).2.locals = (second.request request).2.locals := by
  have names : first.localNames = second.localNames := congrArg (List.map LocalDecl.name) same
  cases request with
  | add name type =>
    rw [request_add, request_add, names, same]
    split
    · exact same
    · rfl
  | generate stem type =>
    simp only [Body.request, newLocal, freshName, names, same]
  | retype id type => simp only [Body.request, setLocalType, same]

/-- The table of the one body becomes that of the other by requests. -/
def DeclaresTo (before after : Body) : Prop :=
  ∃ requests, after.locals = (before.requestAll requests).locals

namespace DeclaresTo

variable {start before after : Body}

theorem refl (body : Body) : body.DeclaresTo body :=
  ⟨[], rfl⟩

/-- One more request is made. -/
theorem request
    (declares : start.DeclaresTo body)
    (request : LocalRequest) :
    start.DeclaresTo (body.request request).2 := by
  obtain ⟨requests, same⟩ := declares
  refine ⟨requests ++ [request], ?_⟩
  rw [requestAll_append]
  exact locals_request_congr same request

/-- The instructions do not matter. -/
theorem withInstructions
    (declares : start.DeclaresTo body)
    (instructions : List Instruction) :
    start.DeclaresTo { body with instructions } :=
  declares

/-- Names that differ from each other go on to do so. -/
theorem nodup
    (declares : before.DeclaresTo after)
    (distinct : before.localNames.Nodup) :
    after.localNames.Nodup := by
  obtain ⟨requests, same⟩ := declares
  rw [localNames, same]
  exact localNames_requestAll_nodup distinct requests

end DeclaresTo

/-- Whether a constructor is patched or skipped, its locals have different names afterwards if they had
before. -/
theorem localNames_patchConstructor_nodup
    (distinct : body.localNames.Nodup)
    {profile : Profile}
    {sink : Sink}
    {outcome : Except Profile.Skip Body}
    (patches : profile.patchConstructor sink body = .ok outcome) :
    (outcome.toOption.getD body).localNames.Nodup := by
  cases outcome with
  | error skip => exact distinct
  | ok patched =>
    obtain ⟨instructions, rfl⟩ := Profile.exists_instructions_of_patched patches
    exact localNames_request_nodup distinct (.generate "$serial" .int)

end Body

/-- If the method has a body, the locals there have different names. -/
def Method.DistinctLocals (method : Method) : Prop :=
  ∀ body, method.body = some body → body.localNames.Nodup

theorem Method.DistinctLocals.of_body
    {method : Method}
    {body : Body}
    (bodied : method.body = some body)
    (distinct : body.localNames.Nodup) :
    method.DistinctLocals := by
  intro other same
  obtain rfl := Option.some.inj (bodied.symm.trans same)
  exact distinct

end AccessProfiler
