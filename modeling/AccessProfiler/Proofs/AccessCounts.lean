import AccessProfiler.Proofs.Accounts
import AccessProfiler.Proofs.SparingCode

/-!
# Counts of accesses

The first instrumented class on the superclass chain of the class of an object has two fields of the
object that count: after every run that ends normally they hold how often assignments have read and
written fields of the object that instrumented classes declare.
-/

namespace AccessProfiler

/-- A field that counting did not add holds no count. -/
theorem Access.ne_countField_of_plain
    (access : Access)
    {name : String}
    (plain : isInstrumentationName name = false) :
    name ≠ access.countField := by
  rintro rfl
  rw [access.isInstrumentationName_countField] at plain
  cases plain

namespace Session

section Counts

variable (settings : Settings) (program : Program) (session : Session)

/-- What is done is an access of the kind to the object in the slot, and it is counted: accesses are
counted in the method, an instrumented class declares the field, and counting did not add it. -/
def countsFor (access : Access) (slot : Nat) : Act → Bool
  | .accesses actor kind place field =>
    decide (kind = access) && decide (place = slot) && counts settings program actor.method &&
      (session.profiles.get? field.owner).isSome && !isInstrumentationName field.name
  | .calls _ _ _ => false

/-- How many accesses of the kind to the object in the slot were to be counted. -/
def accessCount (past : List Act) (access : Access) (slot : Nat) : Nat :=
  past.countP (session.countsFor settings program access slot)

/-- What is done is no access that is counted. -/
def Uncounted (act : Act) : Prop :=
  ∀ access slot, session.countsFor settings program access slot act = false

/-- Each object holds its counts, and what is not there yet was not accessed. -/
structure HoldsCounts (past : List Act) (heap : Heap) : Prop where
  held :
    ∀ {slot : Nat} {className counting : String} {fields : FieldTable},
      heap.objects[slot]? = some (.instanceOf className fields) →
      session.countingClass? className = some counting → ∀ (access : Access) (owner : String),
        fields.read (.ofInstance owner access.countField .int) =
          .int (if owner = counting then
            .ofNat (session.accessCount settings program past access slot) else 0)
  later :
    ∀ {slot : Nat}, heap.size ≤ slot → ∀ access, session.accessCount settings program past access slot = 0

/-- The account of the accesses that are counted. -/
def accessAccount : Account :=
  fun past heap _ => session.HoldsCounts settings program past heap

end Counts

variable
    {settings : Settings}
    {program : Program}
    {session : Session}
    {past log others : List Act}
    {heap : Heap}
    {access : Access}
    {slot : Nat}

theorem accessCount_append :
    session.accessCount settings program (past ++ log) access slot =
      session.accessCount settings program past access slot +
        session.accessCount settings program log access slot :=
  List.countP_append

theorem accessCount_of_uncounted (quiet : ∀ act ∈ log, session.Uncounted settings program act) :
    session.accessCount settings program log access slot = 0 :=
  List.countP_eq_zero.2 fun act member => by rw [quiet act member]; exact Bool.false_ne_true

/-- An account depends on what was counted only. -/
theorem HoldsCounts.congr
    (same :
      ∀ access slot, session.accessCount settings program others access slot =
        session.accessCount settings program past access slot)
    (holds : session.HoldsCounts settings program past heap) :
    session.HoldsCounts settings program others heap where
  held located first access owner := by
    rw [same]
    exact holds.held located first access owner
  later outside access := by
    rw [same]
    exact holds.later outside access

/-- What is not counted does not matter. -/
theorem HoldsCounts.insert_iff
    (quiet : ∀ act ∈ log, session.Uncounted settings program act) :
    session.HoldsCounts settings program (past ++ log ++ others) heap ↔
      session.HoldsCounts settings program (past ++ others) heap := by
  have same (access : Access) (slot : Nat) :
      session.accessCount settings program (past ++ log ++ others) access slot =
        session.accessCount settings program (past ++ others) access slot := by
    rw [accessCount_append, accessCount_append, accessCount_append, accessCount_of_uncounted quiet,
      Nat.add_zero]
  exact ⟨.congr fun access slot => (same access slot).symm, .congr same⟩

theorem HoldsCounts.append_iff
    (quiet : ∀ act ∈ log, session.Uncounted settings program act) :
    session.HoldsCounts settings program (past ++ log) heap ↔
      session.HoldsCounts settings program past heap := by
  have inserted :
      session.HoldsCounts settings program (past ++ log ++ []) heap ↔
        session.HoldsCounts settings program (past ++ []) heap :=
    insert_iff quiet
  rwa [List.append_nil, List.append_nil] at inserted

/-- The order in which accesses were made does not matter. -/
theorem HoldsCounts.swap
    (holds : session.HoldsCounts settings program (past ++ log ++ others) heap) :
    session.HoldsCounts settings program (past ++ others ++ log) heap := by
  refine holds.congr fun access slot => ?_
  simp only [accessCount_append]
  omega

theorem uncounted_calls (actor : Activation) (target : Call) (receiver : Option Datum) :
    session.Uncounted settings program (.calls actor target receiver) :=
  fun _ _ => rfl

theorem Uncounted.ignored
    {act : Act}
    (quiet : session.Uncounted settings program act) :
    (session.accessAccount settings program).Ignores act := by
  intro past heap statics holds
  refine (HoldsCounts.append_iff fun other member => ?_).2 holds
  rw [List.mem_singleton.1 member]
  exact quiet

/-- Accesses to fields that counting added are not counted. -/
theorem uncounted_of_isInstrumentationName
    {actor : Activation}
    {kind : Access}
    {place : Nat}
    {field : FieldRef}
    (instruments : isInstrumentationName field.name = true) :
    session.Uncounted settings program (.accesses actor kind place field) := by
  intro access slot
  simp [countsFor, instruments]

/-- What a field of a replaced object reads, if nothing was stored in the field. -/
theorem HoldsCounts.replace
    {className : String}
    {fields changed : FieldTable}
    (holds : session.HoldsCounts settings program past heap)
    (located : heap.objects[slot]? = some (.instanceOf className fields))
    (same :
      ∀ (access : Access) (owner : String),
        changed.read (.ofInstance owner access.countField .int) =
          fields.read (.ofInstance owner access.countField .int)) :
    session.HoldsCounts settings program past (heap.replace slot (.instanceOf className changed)) where
  held := by
    intro other name counting table found first access owner
    rw [Heap.replace_get?] at found
    split at found
    · rename_i here
      obtain ⟨rfl, -⟩ := here
      cases found
      rw [same]
      exact holds.held located first access owner
    · exact holds.held found first access owner
  later outside access := holds.later (Heap.replace_size ▸ outside) access

/-- Storing in fields that do not count leaves the account in order. -/
theorem accessAccount_tolerates :
    (session.accessAccount settings program).Tolerates
      (fun field => ∀ access : Access, field.name ≠ access.countField) fun _ => True where
  write := by
    intro past heap statics slot className fields field value free located holds
    refine HoldsCounts.replace holds located fun access owner => ?_
    refine FieldTable.read_write_of_ne (fun same => ?_) value
    exact free access (Prod.mk.inj same).2.symm
  writeStatic _ _ holds := holds
  writeElement := by
    intro past heap statics slot element values others located holds
    refine ⟨?_, fun outside access => holds.later (Heap.replace_size ▸ outside) access⟩
    intro other name counting table found first access owner
    rw [Heap.replace_get?] at found
    split at found
    · cases found
    · exact holds.held found first access owner
  allocateInstance := by
    intro past heap statics className holds
    constructor
    · intro other name counting table found first access owner
      rw [Array.getElem?_push] at found
      split at found
      · rename_i newest
        cases found
        have none : session.accessCount settings program past access other = 0 :=
          holds.later (Nat.le_of_eq newest.symm) access
        rw [none]
        exact (congrArg Datum.int (ite_self (0 : Int32))).symm
      · exact holds.held found first access owner
    · intro other outside access
      refine holds.later (Nat.le_trans ?_ outside) access
      simp [Heap.size]
  allocateArray := by
    intro past heap statics element values holds
    constructor
    · intro other name counting table found first access owner
      rw [Array.getElem?_push] at found
      split at found
      · cases found
      · exact holds.held found first access owner
    · intro other outside access
      refine holds.later (Nat.le_trans ?_ outside) access
      simp [Heap.size]
  calls actor target receiver holds := (uncounted_calls actor target receiver).ignored holds

/-- One access more is counted, if the object is counted at all. -/
theorem HoldsCounts.count
    {className owner : String}
    {fields : FieldTable}
    {number : Int32}
    {act : Act}
    (holds : session.HoldsCounts settings program past heap)
    (located : heap.objects[slot]? = some (.instanceOf className fields))
    (first :
      ∀ counting, session.countingClass? className = some counting →
        owner = counting ∧
          number = .ofNat (session.accessCount settings program past access slot))
    (counted :
      ∀ kind place, session.countsFor settings program kind place act =
        (decide (access = kind) && decide (slot = place))) :
    session.HoldsCounts settings program (past ++ [act])
      (heap.replace slot
        (.instanceOf className
          (fields.write (.ofInstance owner access.countField .int) (.int (number + 1))))) := by
  have single (kind : Access) (place : Nat) :
      session.accessCount settings program (past ++ [act]) kind place =
        session.accessCount settings program past kind place +
          if access = kind ∧ slot = place then 1 else 0 := by
    rw [accessCount_append, accessCount, accessCount, List.countP_singleton, counted]
    simp only [Bool.and_eq_true, decide_eq_true_eq]
  constructor
  · intro other name counting table found here kind holder
    rw [single]
    rw [Heap.replace_get?] at found
    split at found
    · rename_i same
      obtain ⟨rfl, -⟩ := same
      cases found
      obtain ⟨rfl, now⟩ := first counting here
      by_cases self : kind = access ∧ holder = owner
      · obtain ⟨rfl, rfl⟩ := self
        rw [FieldTable.read_write_self, if_pos rfl, if_pos ⟨rfl, rfl⟩, now, Int32.ofNat_add]
        rfl
      · rw [FieldTable.read_write_of_ne, holds.held located here kind holder]
        · split
          · rename_i mine
            rw [if_neg fun both => self ⟨both.1.symm, mine⟩, Nat.add_zero]
          · rfl
        · intro same
          have names : kind.countField = access.countField := (Prod.mk.inj same).2
          refine self ⟨?_, (Prod.mk.inj same).1⟩
          cases kind <;> cases access <;> first | rfl | exact absurd names (by decide)
    · rename_i differs
      have elsewhere : ¬ (access = kind ∧ slot = other) := by
        rintro ⟨-, rfl⟩
        exact differs ⟨rfl, Heap.lt_size_of_get? found⟩
      rw [if_neg elsewhere, Nat.add_zero]
      exact holds.held found here kind holder
  · intro other outside kind
    rw [Heap.replace_size] at outside
    have elsewhere : ¬ (access = kind ∧ slot = other) := by
      rintro ⟨-, rfl⟩
      exact absurd (Heap.lt_size_of_get? located) (Nat.not_lt.2 outside)
    rw [single, if_neg elsewhere, holds.later outside]

end Session
end AccessProfiler
