import AccessProfiler.Proofs.ConfinedPasses

/-!
# Locals go on to have different names

What a pass makes of a body, whether it succeeds or fails, differs from it in the table of locals by
requests only (`Pass.onBody_declares`), and bodies that are generated have tables that are known.  So
if the locals of every body of a program have different names, they have in the transformed program
(`localTables_stay_distinct`).
-/

namespace AccessProfiler

/-- In every body of the program the locals have different names. -/
def Program.DistinctLocals (program : Program) : Prop :=
  ∀ declaration ∈ program.classes, ∀ method ∈ declaration.methods, method.DistinctLocals

instance (method : Method) : Decidable method.DistinctLocals :=
  decidable_of_iff (∀ body ∈ method.body, body.localNames.Nodup) Iff.rfl

instance (program : Program) : Decidable program.DistinctLocals :=
  inferInstanceAs
    (Decidable (∀ declaration ∈ program.classes, ∀ method ∈ declaration.methods, method.DistinctLocals))

namespace Program.DistinctLocals

variable {program after : Program}

theorem of_class?
    (distinct : program.DistinctLocals)
    {name : String}
    {declaration : Class}
    (found : program.class? name = some declaration) :
    ∀ method ∈ declaration.methods, method.DistinctLocals := by
  obtain ⟨entry, first, rfl⟩ := Option.map_eq_some_iff.1 found
  exact distinct entry.2 (List.mem_map_of_mem (List.mem_of_find?_eq_some first))

theorem of_body?
    (distinct : program.DistinctLocals)
    {id : MethodId}
    {body : Body}
    (found : program.body? id = some body) :
    body.localNames.Nodup := by
  obtain ⟨method, declared, bodied⟩ := Option.bind_eq_some_iff.1 found
  obtain ⟨declaration, located, indexed⟩ := Option.bind_eq_some_iff.1 declared
  exact distinct.of_class? located method (List.mem_of_getElem? indexed) body bodied

/-- A class is replaced by one whose bodies are as they should be. -/
theorem modifyClass
    (distinct : program.DistinctLocals)
    (name : String)
    {change : Class → Class}
    (changed :
      ∀ declaration ∈ program.classes, ∀ method ∈ (change declaration).methods,
        method.DistinctLocals) :
    (program.modifyClass name change).DistinctLocals := by
  intro declaration member
  obtain ⟨_, entry, rfl⟩ := List.mem_map.1 member
  obtain ⟨⟨other, old⟩, present, rfl⟩ := List.mem_map.1 entry
  have known : old ∈ program.classes := List.mem_map_of_mem present
  dsimp only
  split
  · exact changed old known
  · exact distinct old known

theorem modifyMethod
    (distinct : program.DistinctLocals)
    (id : MethodId)
    {change : Method → Method}
    (changed : ∀ method : Method, method.DistinctLocals → (change method).DistinctLocals) :
    (program.modifyMethod id change).DistinctLocals := by
  refine distinct.modifyClass id.owner fun declaration known method member => ?_
  obtain ⟨index, indexed⟩ := List.mem_iff_getElem?.1 member
  rw [List.getElem?_modify] at indexed
  obtain ⟨old, present, rfl⟩ := Option.map_eq_some_iff.1 indexed
  have before := distinct declaration known old (List.mem_of_getElem? present)
  split
  · exact changed old before
  · exact before

theorem addField
    (distinct : program.DistinctLocals)
    {owner : String}
    {field : Field}
    {reference : FieldRef}
    (added : program.addField owner field = .ok (reference, after)) :
    after.DistinctLocals := by
  obtain ⟨declaration, extended, found, extending, rfl⟩ := Program.addField_eq_ok added
  have methods := distinct.of_class? found
  refine distinct.modifyClass owner fun _ _ => ?_
  rcases Class.addField_cases extending with ⟨_, _, _, _, rfl⟩ | ⟨_, _, rfl⟩
  · exact methods
  · exact methods

theorem addMethod
    (distinct : program.DistinctLocals)
    {owner : String}
    {method : Method}
    {id : MethodId}
    (distinctToo : method.DistinctLocals)
    (added : program.addMethod owner method = .ok (id, after)) :
    after.DistinctLocals := by
  obtain ⟨declaration, found, -, rfl⟩ := Program.addMethod_eq_ok added
  refine distinct.modifyClass owner fun _ _ other member => ?_
  rcases List.mem_append.1 member with old | new
  · exact distinct.of_class? found other old
  · rw [List.mem_singleton.1 new]
    exact distinctToo

/-- A class is registered that has no members. -/
theorem ensureClass
    (distinct : program.DistinctLocals)
    (name : String)
    (flags : Flags) :
    (program.ensureClass name (.plain name flags)).2.DistinctLocals := by
  unfold Program.ensureClass
  split
  · exact distinct
  · intro declaration member
    obtain ⟨entry, present, rfl⟩ := List.mem_map.1 member
    rcases List.mem_append.1 present with old | new
    · exact distinct entry.2 (List.mem_map_of_mem old)
    · rw [List.mem_singleton.1 new]
      exact fun _ none => absurd none List.not_mem_nil

theorem unaffected (settings : Settings) : settings.Unaffected Program.DistinctLocals where
  ensureClass _ _ distinct := distinct.ensureClass _ _
  addField _ distinct added := distinct.addField added
  addMethod _ distinctToo distinct added := distinct.addMethod distinctToo added

end Program.DistinctLocals

namespace Pass

/-- Whatever a pass does to the table of locals, and however it ends, amounts to requests. -/
theorem onBody_declares (pass : Pass) (id : MethodId) (body : Body) (session : Session) :
    body.DeclaresTo ((pass.onBody id).on body session).1.2 := by
  have edits : Draft.IgnoresEdits fun edited _ => body.DeclaresTo edited :=
    { notes := fun _ _ _ _ _ declares => declares
      instructions := fun _ _ instructions declares => declares.withInstructions instructions
      newLocal := fun _ _ stem type declares => declares.request (.generate stem type)
      retype := fun _ _ id type declares => declares.request (.retype id type) }
  have ignores : Draft.IgnoresGenerated fun edited _ => body.DeclaresTo edited :=
    { edits := edits
      typeCounter := fun _ _ _ declares => declares
      callCounter := fun _ _ _ declares => declares
      wrapperFor := fun _ _ _ declares => declares }
  exact onBody_leaves ignores pass id body session (.refl body)

/-- The body that is put back has locals of different names if the one that was taken had. -/
theorem onMethod_leaves_distinct
    {settings : Settings}
    {before : Session}
    (confined : before.Confined settings Program.DistinctLocals)
    (pass : Pass)
    (id : MethodId) :
    Transform.Leaves (Session.Confined settings Program.DistinctLocals) before
      (pass.onMethod id) := by
  have distinct :
      Draft.Leaves (fun body _ => body.localNames.Nodup) (pass.onBody id) := fun body session nodup =>
    (onBody_declares pass id body session).nodup nodup
  have works :=
    distinct.and
      (onBody_leaves (Session.Confined.ignoresGenerated (Program.DistinctLocals.unaffected settings))
        pass id)
  refine onMethod_leaves_of Session.Confined.ignoresNotes confined ?_ works ?_ ?_
  · intro body found
    refine ⟨confined.program.of_body? found, confined.withProgram ?_⟩
    refine confined.program.modifyMethod id fun _ _ other bodied => ?_
    cases bodied
  · intro session body error waits _
    exact waits.2
  · intro session body waits
    exact waits.2.withProgram
      (waits.2.program.modifyMethod id fun _ _ => .of_body rfl waits.1)

theorem admitsPasses_distinctLocals (settings : Settings) :
    settings.AdmitsPasses Program.DistinctLocals fun _ => True where
  unaffected := Program.DistinctLocals.unaffected settings
  transforms _ _ := trivial
  counts _ :=
    { field := fun _ distinct added => distinct.addField added
      method := fun _ distinctToo distinct added => distinct.addMethod distinctToo added }
  signature _ _ _ distinct := distinct.modifyMethod _ fun _ distinctToo => distinctToo
  body pass _ confined := onMethod_leaves_distinct confined pass _

end Pass

open Body in
/-- Tables of locals stay well-formed.  Through all requests, different names stay different, and the locals
that are there keep their numbers and names.  A name that is taken is refused, and the body stays as it is;
every other is declared at the end, and its position is returned.  A generated name is declared likewise,
for the search from the number of locals upwards comes to an end at the first number that gives a free
one.  So if the locals of every body of a program have different names, they have in the program that is
transformed, however the transformation ends. -/
theorem localTables_stay_distinct :
    (∀ (body : Body) (requests : List LocalRequest), body.localNames.Nodup →
        (body.requestAll requests).localNames.Nodup ∧
          ∀ id declaration, body.local? id = some declaration →
            ∃ type, (body.requestAll requests).local? id = some ⟨declaration.name, type⟩) ∧
      (∀ (body : Body) (name : String) (type : Ty),
        (name ∈ body.localNames →
            body.request (.add name type) = (.error (.duplicateLocal name), body)) ∧
          (name ∉ body.localNames →
            body.request (.add name type) =
              (.ok (some ⟨body.locals.length⟩),
                { body with locals := body.locals ++ [⟨name, type⟩] }))) ∧
      (∀ (body : Body) (stem : String) (type : Ty), ∃ offset ≤ body.locals.length,
        body.request (.generate stem type) =
            (.ok (some ⟨body.locals.length⟩),
              { body with
                locals :=
                  body.locals ++ [⟨stem ++ toString (body.locals.length + offset), type⟩] }) ∧
          stem ++ toString (body.locals.length + offset) ∉ body.localNames ∧
            ∀ earlier < offset,
              stem ++ toString (body.locals.length + earlier) ∈ body.localNames) ∧
      ∀ (program : Program) (settings : Settings), program.DistinctLocals →
        (transformProgram program settings).2.program.DistinctLocals := by
  refine ⟨fun body requests distinct => ⟨?_, ?_⟩, fun body name type => ⟨?_, ?_⟩, ?_, ?_⟩
  · exact localNames_requestAll_nodup distinct requests
  · exact fun id declaration declared => local?_requestAll declared requests
  · intro taken
    rw [request_add, if_pos taken]
  · intro free
    rw [request_add, if_neg free]
  · intro body stem type
    obtain ⟨offset, bounded, named, free, passed⟩ := body.freshName_eq stem
    refine ⟨offset, bounded, ?_, named ▸ free, passed⟩
    rw [← named]
    rfl
  · intro program settings distinct
    exact Pass.transformProgram_leaves_of (Pass.admitsPasses_distinctLocals settings) distinct

/-- A constructor that has a local of the name that the local for its serial number would get. -/
def crateBody : Body where
  locals := [⟨"this", .object "shop.Crate"⟩, ⟨"$serial2", .int⟩]
  instructions :=
    [.bind ⟨0⟩ (.receiver (.object "shop.Crate")),
      .invoke (.ofSpecial ⟨0⟩ ⟨objectClass, constructorName, [], .void⟩ []),
      .assign (.variable ⟨1⟩) (.literal (.int 0)),
      .return none]

/-- The class of that constructor. -/
def crateProgram : Program where
  entries :=
    [("shop.Crate",
      { name := "shop.Crate"
        superclass := some objectClass
        interfaces := []
        kind := .application
        flags := ⟨0⟩
        fields := []
        methods := [⟨constructorName, [], .void, ⟨0⟩, some crateBody⟩] })]
  distinct := List.nodup_singleton _

/-- A name that is taken, a generated one that would clash, and another type. -/
def crateRequests : List LocalRequest :=
  [.add "$serial2" .int, .generate "$serial" .int, .retype ⟨1⟩ .void]

/-- The taken name is refused, the local that has it keeps it, and both the request for a generated name and
the pass on constructors pass it over. -/
theorem crateProgram_stays_distinct :
    ((crateBody.requestAll crateRequests).localNames.Nodup ∧
        ∃ type, (crateBody.requestAll crateRequests).local? ⟨1⟩ = some ⟨"$serial2", type⟩) ∧
      crateBody.request (.add "$serial2" .int) = (.error (.duplicateLocal "$serial2"), crateBody) ∧
      crateBody.request (.add "count" .int) =
        (.ok (some ⟨2⟩), { crateBody with locals := crateBody.locals ++ [⟨"count", .int⟩] }) ∧
      (crateBody.requestAll crateRequests).localNames = ["this", "$serial2", "$serial3"] ∧
      (transformProgram crateProgram .standard).2.program.DistinctLocals ∧
      ((transformProgram crateProgram .standard).2.program.body? ⟨"shop.Crate", 0⟩).map
          Body.localNames = some ["this", "$serial2", "$serial3"] := by
  obtain ⟨requests, additions, -, transformations⟩ := localTables_stay_distinct
  obtain ⟨distinct, kept⟩ := requests crateBody crateRequests (by decide)
  refine ⟨⟨distinct, kept ⟨1⟩ ⟨"$serial2", .int⟩ rfl⟩, ?_, ?_, by decide +kernel, ?_, by decide +kernel⟩
  · exact (additions crateBody "$serial2" .int).1 (by decide)
  · exact (additions crateBody "count" .int).2 (by decide)
  · exact transformations crateProgram .standard (by decide)

end AccessProfiler
