import AccessProfiler.Language.Sink
import AccessProfiler.Proofs.JoinedTexts
import AccessProfiler.Proofs.LatestValues

/-!
# Reports are read back

Inserted code prints a name, what is counted and a number on one line behind a tag.  Tag and name are
arbitrary texts, and the reader searches: for the first occurrence of the tag, for the last equals sign,
for endings, and for the first blank.  All the same, a printed line is read as what was reported
(`Report.parse?_render`), because the tag stands in front, the number has no blanks, and neither has the
name.  So the summary of what was printed consists of all the reports (`summarize_reports`).
-/

namespace AccessProfiler

/-- The shapes of the labels under which inserted code reports: a serial number, the accesses to an
instance, the accesses to a type, and the calls of a method. -/
inductive ReportShape
  | serial
  | reads
  | writes
  | typeReads
  | typeWrites
  | calls
deriving DecidableEq

namespace ReportShape

/-- The label for a name. -/
def label (name : String) : ReportShape → String
  | .serial => Sink.serialLabel name
  | .reads => Sink.counterLabel name "reads"
  | .writes => Sink.counterLabel name "writes"
  | .typeReads => name ++ " read" ++ " counter = "
  | .typeWrites => name ++ " write" ++ " counter = "
  | .calls => name ++ " function call" ++ " counter = "

/-- What the number under the label says. -/
def operation : ReportShape → Operation
  | .serial => .serial
  | .reads | .typeReads => .read
  | .writes | .typeWrites => .write
  | .calls => .functionCall

/-- The words between a name and the equals sign. -/
def words : ReportShape → String
  | .serial => " serial id"
  | .reads => " reads counter"
  | .writes => " writes counter"
  | .typeReads => " read counter"
  | .typeWrites => " write counter"
  | .calls => " function call counter"

theorem toList_label (shape : ReportShape) (name : String) :
    (shape.label name).toList = name.toList ++ shape.words.toList ++ " = ".toList := by
  cases shape <;> simp [label, words, Sink.serialLabel, Sink.counterLabel]

/-- A line feed is not among the words. -/
theorem unbroken_words (shape : ReportShape) : '\n' ∉ shape.words.toList := by
  cases shape <;> simp [words]

/-- The words of a counter are told from those of a serial number by their last character, and from the
name by the blank in front. -/
theorem label?_counted
    {name words : List Char}
    {operation : Operation}
    (absent : ' ' ∉ name)
    (meant : Operation.ofLabel? (String.ofList words) = some operation) :
    LogRecord.label? (name ++ ' ' :: words ++ " counter".toList) = some (name, operation) := by
  have noSerial :
      Text.beforeEnding? " serial id".toList (name ++ ' ' :: words ++ " counter".toList) = none := by
    have ending : " serial id".toList = " serial i".toList ++ ['d'] := by simp
    have joined :
        name ++ ' ' :: words ++ " counter".toList =
          name ++ ' ' :: words ++ " counte".toList ++ ['r'] := by
      simp
    rw [ending, joined]
    exact Text.beforeEnding?_eq_none (by decide)
  have parted : Text.cutFirst? [' '] (name ++ [' '] ++ words) = some (name, words) :=
    Text.cutFirst?_of_not_mem absent
  rw [List.append_assoc, List.singleton_append] at parted
  unfold LogRecord.label?
  rw [noSerial, Text.beforeEnding?_append]
  simp [parted, meant]

/-- Name and operation are told apart if the name has no blanks. -/
theorem label?_words (shape : ReportShape) {name : List Char} (absent : ' ' ∉ name) :
    LogRecord.label? (name ++ shape.words.toList) = some (name, shape.operation) := by
  have counted
      (words : String)
      (operation : Operation)
      (spelled : shape.words = " " ++ words ++ " counter")
      (meant : Operation.ofLabel? words = some operation) :
      LogRecord.label? (name ++ shape.words.toList) = some (name, operation) := by
    have read :
        LogRecord.label? (name ++ ' ' :: words.toList ++ " counter".toList) =
          some (name, operation) :=
      label?_counted absent (by rw [String.ofList_toList, meant])
    rw [spelled, String.toList_append, String.toList_append, ← List.append_assoc]
    simpa using read
  cases shape with
  | serial =>
    unfold LogRecord.label? words
    rw [Text.beforeEnding?_append]
    rfl
  | reads => exact counted "reads" .read rfl rfl
  | writes => exact counted "writes" .write rfl rfl
  | typeReads => exact counted "read" .read rfl rfl
  | typeWrites => exact counted "write" .write rfl rfl
  | calls => exact counted "function call" .functionCall rfl rfl

end ReportShape

/-- A number of sixty-four bits that is reported for a name without blanks. -/
structure Report where
  name : String
  shape : ReportShape
  value : Int
  named : name ≠ ""
  visible : ∀ character ∈ name.toList, Text.isBlank character = false
  lower : -Int.pow 2 63 ≤ value
  upper : value < Int.pow 2 63

namespace Report

/-- The line that is printed behind a tag. -/
def line (report : Report) (tag : String) : TraceLine :=
  ⟨tag, report.shape.label report.name, report.value⟩

/-- What the line says. -/
def record (report : Report) : LogRecord :=
  ⟨none, report.name, report.shape.operation, report.value⟩

/-- The counter that the line is about, with its value. -/
def entry (report : Report) : CounterEntry :=
  ⟨report.name, report.shape.operation, report.value⟩

variable (report : Report) (tag : String)

/-- What stands behind the tag and the blank. -/
def payload : List Char :=
  report.name.toList ++ report.shape.words.toList ++ " = ".toList ++ (toString report.value).toList

theorem toList_render :
    (report.line tag).render.toList = LogRecord.marker tag ++ ' ' :: report.payload := by
  simp [line, TraceLine.render, LogRecord.marker, payload, ReportShape.toList_label]

theorem name_ne_nil : report.name.toList ≠ [] := by
  simpa using report.named

theorem payload_ne_nil : report.payload ≠ [] := by
  simp [payload]

/-- The line ends in a character of the number, which is not blank. -/
theorem last_visible : ∀ character ∈ report.payload.getLast?, Text.isBlank character = false := by
  intro character last
  unfold payload at last
  rw [List.getLast?_append_of_ne_nil _ (Number.toString_ne_nil _)] at last
  exact Number.isBlank_eq_false_of_mem_toString (List.mem_of_getLast? last)

/-- Nothing but the blank in front is trimmed. -/
theorem trim_payload : Text.trim (' ' :: report.payload) = report.payload := by
  have head : ∀ character ∈ report.payload.head?, Text.isBlank character = false := by
    intro character front
    obtain ⟨first, rest, spelled⟩ := List.exists_cons_of_ne_nil report.name_ne_nil
    unfold payload at front
    rw [spelled] at front
    cases front
    exact report.visible character (spelled ▸ List.mem_cons_self)
  have blank : Text.isBlank ' ' := by decide
  rw [Text.trim, Text.trimLeft_cons_of_blank blank, ← Text.trim,
    Text.trim_eq_self_of_ends head report.last_visible]

/-- A printed line is read as what was reported, without a timestamp. -/
theorem parse?_render : LogRecord.parse? tag (report.line tag).render = some report.record := by
  have noBlank : ' ' ∉ report.name.toList :=
    fun member => absurd (report.visible ' ' member) (by decide)
  have noBlankBehind : ' ' ∉ (toString report.value).toList :=
    fun member => absurd (Number.isBlank_eq_false_of_mem_toString member) (by decide)
  have parted :
      Text.cutLast? ([' ', '='] ++ [' ']) report.payload =
        some (report.name.toList ++ report.shape.words.toList, (toString report.value).toList) :=
    Text.cutLast?_of_not_mem noBlankBehind
  have value : Text.trim (toString report.value).toList = (toString report.value).toList :=
    Text.trim_eq_self fun _ member => Number.isBlank_eq_false_of_mem_toString member
  have visible : report.name.toList.any Text.isBlank = false :=
    List.any_eq_false.2 fun character member => by simp [report.visible character member]
  unfold LogRecord.parse?
  rw [toList_render, Text.cutFirst?_append]
  simp only [Option.bind_eq_bind, Option.bind_some, trim_payload]
  rw [show " = ".toList = [' ', '='] ++ [' '] from rfl, parted]
  simp only [Option.bind_some, value, Number.long?_toString report.lower report.upper,
    report.shape.label?_words noBlank]
  simp [visible, report.named, record, LogRecord.timestamp?, Text.words]

/-- A printed line is one line of a text. -/
theorem isLine (unbroken : '\n' ∉ tag.toList) : Text.IsLine (report.line tag).render.toList where
  nonempty := by
    rw [toList_render]
    simp
  unbroken := by
    have inName : '\n' ∉ report.name.toList :=
      fun member => absurd (report.visible '\n' member) (by decide)
    have inNumber : '\n' ∉ (toString report.value).toList :=
      fun member => absurd (Number.isBlank_eq_false_of_mem_toString member) (by decide)
    rw [toList_render]
    simp only [LogRecord.marker, payload, List.mem_append, List.mem_cons, unbroken, inName, inNumber,
      report.shape.unbroken_words]
    decide
  ended := by
    intro last
    rw [toList_render, List.append_cons,
      List.getLast?_append_of_ne_nil _ report.payload_ne_nil] at last
    exact absurd (report.last_visible _ last) (by decide)

end Report

/-! ## Summaries -/

namespace Summarizer

/-- Lines that are read as reports are counted, and their values are put in one after the other. -/
theorem foldl_feedLine
    {tag : String}
    (reports : List Report)
    {summarizer : Summarizer}
    (tagged : summarizer.settings.tag = tag) :
    (reports.map fun report => (report.line tag).render).foldl
        (fun state line => (state.feedLine line).2) summarizer =
      { summarizer with
        records := summarizer.records + reports.length
        latest := (reports.map Report.entry).foldl
          (fun counters entry => putCounter entry counters) summarizer.latest } := by
  induction reports generalizing summarizer with
  | nil => rfl
  | cons report rest hypothesis =>
    have fed : (summarizer.feedLine (report.line tag).render).2 =
        { summarizer with
          records := summarizer.records + 1
          latest := putCounter report.entry summarizer.latest } := by
      unfold feedLine
      rw [tagged, report.parse?_render]
      rfl
    rw [List.map_cons, List.foldl_cons, fed, hypothesis]
    · rw [List.length_cons, List.map_cons, List.foldl_cons, Nat.add_assoc, Nat.add_comm 1]
    · exact tagged

end Summarizer

/-- Printed lines are read as what was reported, whatever tag they stand behind.  If there is no line
feed in the tag, the summary of the lines counts all of them as records and none as malformed, takes no
snapshots, and keeps for each name and operation the value that was reported last. -/
theorem summarize_reports (tag : String) (interval : Number.Binary64) (reports : List Report) :
    (∀ report ∈ reports,
      LogRecord.parse? tag (report.line tag).render =
        some ⟨none, report.name, report.shape.operation, report.value⟩) ∧
      ('\n' ∉ tag.toList →
        ∃ latest,
          summarize ⟨tag, interval⟩
              ("\n".intercalate (reports.map fun report => (report.line tag).render)) =
            ⟨reports.length, 0, [], latest⟩ ∧
          KeepsLast (reports.map Report.entry) latest) := by
  refine ⟨fun report _ => report.parse?_render tag, fun unbroken => ?_⟩
  have lines :
      Text.lines ("\n".intercalate (reports.map fun report => (report.line tag).render)).toList =
        (reports.map fun report => (report.line tag).render).map String.toList := by
    rw [String.toList_intercalate]
    refine Text.lines_intercalate fun line member => ?_
    rw [List.map_map] at member
    obtain ⟨report, -, rfl⟩ := List.mem_map.1 member
    exact report.isLine tag unbroken
  refine ⟨_, ?_, keepsLast_foldl_putCounter keepsLast_nil _⟩
  unfold summarize Summarizer.feedText
  rw [lines, List.foldl_map]
  simp only [String.ofList_toList]
  have tagged : (Summarizer.start ⟨tag, interval⟩).settings.tag = tag := rfl
  rw [Summarizer.foldl_feedLine reports tagged]
  simp [Summarizer.finish, Summarizer.start]

/-- Names and numbers that look like parts of other lines. -/
def trickyReports : List Report :=
  [⟨"log:", .serial, 1, by simp, by simp; decide, by decide, by decide⟩,
    ⟨"=", .calls, -9223372036854775808, by simp, by simp; decide, by decide, by decide⟩,
    ⟨"serial", .reads, 9223372036854775807, by simp, by simp; decide, by decide, by decide⟩,
    ⟨"=", .calls, 12, by simp, by simp; decide, by decide, by decide⟩]

/-- They are told apart behind a tag that looks like a line itself. -/
theorem trickyReports_summarized :
    '\n' ∉ "log: a.B serial id = 7".toList ∧
      ∃ latest,
        summarize ⟨"log: a.B serial id = 7", .ofInt 10⟩
            ("\n".intercalate
              (trickyReports.map fun report => (report.line "log: a.B serial id = 7").render)) =
          ⟨4, 0, [], latest⟩ ∧
        (⟨"=", .functionCall, 12⟩ : CounterEntry) ∈ latest := by
  have unbroken : '\n' ∉ "log: a.B serial id = 7".toList := by decide
  obtain ⟨latest, summary, keeps⟩ :=
    (summarize_reports "log: a.B serial id = 7" (.ofInt 10) trickyReports).2 unbroken
  exact ⟨unbroken, latest, summary, (keeps.mem_iff _).2 (by decide)⟩

end AccessProfiler
