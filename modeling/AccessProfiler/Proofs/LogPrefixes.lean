import AccessProfiler.Proofs.JoinedTexts
import AccessProfiler.Proofs.LatestValues
import Mathlib.Data.List.Forall2
import Mathlib.Data.List.Infix

/-!
# Summaries and the prefixes of a log

A summary counts the lines that are read as records and those that only look like one, and it keeps the
last values of all records.  Snapshots are taken at some of the records with a timestamp, in the order of
the log and never at the first of them, and each of them holds the last values of the log up to its record
(`Summarizer.SnapshotAt`).  One is taken exactly when at least an interval has passed since the one before
it or since the first timestamp (`Summarizer.IsDue`).  All this holds before the first line and is kept by
every line (`Summarizer.Summarizes.feedLine`), so it holds of every log
(`Summarizer.feed_summarizes_prefixes`).
-/

namespace AccessProfiler

open Number

/-- What a record says about a counter. -/
def LogRecord.entry (record : LogRecord) : CounterEntry :=
  ⟨record.name, record.operation, record.value⟩

namespace Summarizer

section Positions

variable (tag : String) (log : List String)

/-- What the records of a log say, in its order. -/
def reported : List CounterEntry :=
  (log.filterMap (LogRecord.parse? tag)).map LogRecord.entry

/-- The timestamp of the line at a position, if it is a record with one. -/
def timeAt? (position : Nat) : Option Timestamp :=
  (log[position]?.bind (LogRecord.parse? tag)).bind LogRecord.timestamp

/-- The snapshot belongs to the record at a position, which has a timestamp but not the first one, and holds
the last values of the log up to there. -/
structure SnapshotAt (position : Nat) (snapshot : Snapshot) : Prop where
  timed : timeAt? tag log position = some snapshot.time
  later : ∃ earlier < position, (timeAt? tag log earlier).isSome
  counters : KeepsLast (reported tag (log.take (position + 1))) snapshot.counters

end Positions

/-! ## The clock -/

section Clock

variable
    {interval : Binary64}
    {times timesAfter : Nat → Option Timestamp}
    {taken takenAfter : List Nat}
    {position : Nat}

/-- The clock was started at the position: a snapshot was taken there, or it has the first timestamp. -/
def StartsClock (times : Nat → Option Timestamp) (taken : List Nat) (position : Nat) : Prop :=
  position ∈ taken ∨ ((times position).isSome ∧ ∀ earlier < position, times earlier = none)

/-- At the timestamp of the position, at least an interval has passed since the clock was last started. -/
def IsDue
    (interval : Binary64)
    (times : Nat → Option Timestamp)
    (taken : List Nat)
    (position : Nat) : Prop :=
  ∃ start < position, ∃ last now, StartsClock times taken start ∧
    (∀ between ∈ taken, between < position → between ≤ start) ∧
    times start = some last ∧ times position = some now ∧
    interval.le (Summarizer.elapsed last.ofDay now.ofDay)

/-- The time at which the clock was last started; none if there was no timestamp. -/
def Shows (times : Nat → Option Timestamp) (taken : List Nat) : Option Binary64 → Prop
  | none => ∀ position, times position = none
  | some mark =>
    ∃ start last, StartsClock times taken start ∧ (∀ other ∈ taken, other ≤ start) ∧
      times start = some last ∧ last.ofDay = mark

theorem StartsClock.mono
    (starts : StartsClock times taken position)
    (kept : ∀ earlier ≤ position, timesAfter earlier = times earlier)
    (remains : position ∈ taken → position ∈ takenAfter) :
    StartsClock timesAfter takenAfter position := by
  rcases starts with snapshot | ⟨timed, first⟩
  · exact .inl (remains snapshot)
  · refine .inr ⟨kept position le_rfl ▸ timed, fun earlier before => ?_⟩
    rw [kept earlier before.le, first earlier before]

/-- Whether a snapshot is due is decided by what stands before. -/
theorem IsDue.mono
    (due : IsDue interval times taken position)
    (kept : ∀ earlier ≤ position, timesAfter earlier = times earlier)
    (same : ∀ earlier < position, earlier ∈ takenAfter ↔ earlier ∈ taken) :
    IsDue interval timesAfter takenAfter position := by
  obtain ⟨start, before, last, now, starts, latest, timedStart, timed, passed⟩ := due
  refine ⟨start, before, last, now, ?_, ?_, ?_, ?_, passed⟩
  · exact starts.mono (fun earlier below => kept earlier (below.trans before.le)) (same start before).2
  · exact fun between member below => latest between ((same between below).1 member) below
  · rw [kept start before.le, timedStart]
  · rw [kept position le_rfl, timed]

/-- There is one position at which the clock was last started. -/
theorem StartsClock.le_of_latest
    (timed : ∀ other ∈ taken, ∃ time, times other = some time)
    {start other : Nat}
    (starts : StartsClock times taken start)
    (startsOther : StartsClock times taken other)
    (latest : ∀ between ∈ taken, between < position → between ≤ start)
    (before : other < position) :
    other ≤ start := by
  rcases startsOther with snapshot | ⟨-, first⟩
  · exact latest other snapshot before
  · by_contra later
    obtain ⟨time, timedStart⟩ : ∃ time, times start = some time :=
      starts.elim (timed start) fun isFirst => Option.isSome_iff_exists.1 isFirst.1
    rw [first start (not_le.1 later)] at timedStart
    cases timedStart

/-- At a timestamp behind all others, a snapshot is due if the clock says so. -/
theorem isDue_iff_of_shows
    {mark : Binary64}
    {now : Timestamp}
    (timed : ∀ other ∈ taken, ∃ time, times other = some time)
    (shows : Shows times taken (some mark))
    (started : ∀ other time, times other = some time → other < position)
    (kept : ∀ earlier < position, timesAfter earlier = times earlier)
    (timedNow : timesAfter position = some now)
    (same : ∀ earlier < position, earlier ∈ takenAfter ↔ earlier ∈ taken) :
    IsDue interval timesAfter takenAfter position ↔
      interval.le (Summarizer.elapsed mark now.ofDay) := by
  obtain ⟨start, last, starts, latest, timedStart, rfl⟩ := shows
  have before : start < position := started start last timedStart
  have startsAfter : StartsClock timesAfter takenAfter start :=
    starts.mono (fun earlier below => kept earlier (below.trans_lt before)) (same start before).2
  constructor
  · rintro ⟨other, beforeOther, lastOther, nowToo, startsOther, latestOther, timedOther, timedToo, passed⟩
    have startsOtherBefore : StartsClock times taken other :=
      startsOther.mono (fun earlier below => (kept earlier (below.trans_lt beforeOther)).symm)
        (same other beforeOther).1
    obtain rfl : other = start := by
      apply le_antisymm
      · exact starts.le_of_latest timed startsOtherBefore
          (fun between member _ => latest between member) beforeOther
      · exact startsOtherBefore.le_of_latest timed starts
          (fun between member below => latestOther between ((same between below).2 member) below) before
    rw [kept other before, timedStart] at timedOther
    rw [timedNow] at timedToo
    cases timedOther
    cases timedToo
    exact passed
  · intro passed
    refine ⟨start, before, last, now, startsAfter, ?_, ?_, timedNow, passed⟩
    · exact fun between member below => latest between ((same between below).1 member)
    · rw [kept start before, timedStart]

end Clock

/-! ## One more line -/

section Lines

variable {tag line : String} {log : List String} {position : Nat}

theorem timeAt?_append (tag : String) (log : List String) (line : String) (position : Nat) :
    timeAt? tag (log ++ [line]) position =
      if position = log.length then (LogRecord.parse? tag line).bind LogRecord.timestamp
      else timeAt? tag log position := by
  unfold timeAt?
  rcases lt_trichotomy position log.length with before | rfl | behind
  · rw [List.getElem?_append_left before, if_neg before.ne]
  · rw [List.getElem?_concat_length, if_pos rfl, Option.bind_some]
  · have outside : (log ++ [line]).length ≤ position := by
      rw [List.length_append, List.length_singleton]
      exact behind
    rw [List.getElem?_eq_none outside, List.getElem?_eq_none behind.le, if_neg behind.ne']

theorem lt_of_timeAt? {time : Timestamp} (timed : timeAt? tag log position = some time) :
    position < log.length := by
  by_contra behind
  unfold timeAt? at timed
  rw [List.getElem?_eq_none (not_lt.1 behind)] at timed
  cases timed

/-- A line without a timestamp gives no position one. -/
theorem timeAt?_append_of_untimed
    (untimed : (LogRecord.parse? tag line).bind LogRecord.timestamp = none) :
    timeAt? tag (log ++ [line]) = timeAt? tag log := by
  funext position
  rw [timeAt?_append, untimed]
  split
  · rename_i same
    exact (Option.eq_none_iff_forall_ne_some.2 fun _ timed => (same ▸ lt_of_timeAt? timed).false).symm
  · rfl

theorem reported_append_of_record {record : LogRecord} (read : LogRecord.parse? tag line = some record) :
    reported tag (log ++ [line]) = reported tag log ++ [record.entry] := by
  simp [reported, read]

theorem reported_append_of_no_record (unread : LogRecord.parse? tag line = none) :
    reported tag (log ++ [line]) = reported tag log := by
  simp [reported, unread]

theorem SnapshotAt.lt_length {snapshot : Snapshot} (taken : SnapshotAt tag log position snapshot) :
    position < log.length :=
  lt_of_timeAt? taken.timed

/-- What was taken stays right when the log goes on. -/
theorem SnapshotAt.append
    {snapshot : Snapshot}
    (taken : SnapshotAt tag log position snapshot) :
    SnapshotAt tag (log ++ [line]) position snapshot where
  timed := by
    rw [timeAt?_append, if_neg taken.lt_length.ne, taken.timed]
  later := by
    obtain ⟨earlier, before, timed⟩ := taken.later
    refine ⟨earlier, before, ?_⟩
    rw [timeAt?_append, if_neg (before.trans taken.lt_length).ne]
    exact timed
  counters := by
    rw [List.take_append_of_le_length taken.lt_length]
    exact taken.counters

end Lines

/-- The counters of a summary in the making are those of the lines that were fed. -/
structure Counts (settings : LogSettings) (log : List String) (summarizer : Summarizer) : Prop where
  settings_eq : summarizer.settings = settings
  records : summarizer.records = log.countP fun line => (LogRecord.parse? settings.tag line).isSome
  malformed :
    summarizer.malformed =
      log.countP fun line =>
        (LogRecord.parse? settings.tag line).isNone && LogRecord.isMarked settings.tag line
  latest : KeepsLast (reported settings.tag log) summarizer.latest

/-- Snapshots were taken at the given positions of the log, and these are the ones at which they were due. -/
structure Takes
    (settings : LogSettings)
    (log : List String)
    (taken : List Nat)
    (snapshots : List Snapshot)
    (clock : Option Binary64) : Prop where
  ordered : taken.Pairwise (· < ·)
  snapshots : List.Forall₂ (SnapshotAt settings.tag log) taken snapshots
  due : ∀ position, position ∈ taken ↔ IsDue settings.interval (timeAt? settings.tag log) taken position
  clock : Shows (timeAt? settings.tag log) taken clock

namespace Takes

variable
    {settings : LogSettings}
    {log : List String}
    {line : String}
    {taken : List Nat}
    {snapshots : List Snapshot}
    {clock : Option Binary64}

theorem exists_of_mem
    (takes : Takes settings log taken snapshots clock)
    {position : Nat}
    (member : position ∈ taken) :
    ∃ time, timeAt? settings.tag log position = some time := by
  obtain ⟨-, -, -, now, -, -, -, timed, -⟩ := (takes.due position).1 member
  exact ⟨now, timed⟩

theorem lt_of_mem
    (takes : Takes settings log taken snapshots clock)
    {position : Nat}
    (member : position ∈ taken) :
    position < log.length := by
  obtain ⟨time, timed⟩ := takes.exists_of_mem member
  exact lt_of_timeAt? timed

/-- A line without a timestamp does not matter. -/
theorem untimed
    (takes : Takes settings log taken snapshots clock)
    (without : (LogRecord.parse? settings.tag line).bind LogRecord.timestamp = none) :
    Takes settings (log ++ [line]) taken snapshots clock where
  ordered := takes.ordered
  snapshots := takes.snapshots.imp fun _ _ => SnapshotAt.append
  due := by
    rw [timeAt?_append_of_untimed without]
    exact takes.due
  clock := by
    rw [timeAt?_append_of_untimed without]
    exact takes.clock

variable {record : LogRecord} {now : Timestamp}

/-- What was due stays due, so only the new line is to be looked at. -/
theorem due_append
    (takes : Takes settings log taken snapshots clock)
    {takenAfter : List Nat}
    (same : ∀ earlier < log.length, earlier ∈ takenAfter ↔ earlier ∈ taken)
    (within : ∀ position ∈ takenAfter, position ≤ log.length)
    (here :
      log.length ∈ takenAfter ↔
        IsDue settings.interval (timeAt? settings.tag (log ++ [line])) takenAfter log.length)
    (position : Nat) :
    position ∈ takenAfter ↔
      IsDue settings.interval (timeAt? settings.tag (log ++ [line])) takenAfter position := by
  rcases lt_trichotomy position log.length with before | rfl | behind
  · have kept (earlier : Nat) (below : earlier ≤ position) :
        timeAt? settings.tag (log ++ [line]) earlier = timeAt? settings.tag log earlier := by
      rw [timeAt?_append, if_neg (below.trans_lt before).ne]
    have sameBelow (earlier : Nat) (below : earlier < position) :
        earlier ∈ takenAfter ↔ earlier ∈ taken :=
      same earlier (below.trans before)
    rw [same position before, takes.due position]
    exact ⟨fun due => due.mono kept sameBelow,
      fun due => due.mono (fun earlier below => (kept earlier below).symm)
        fun earlier below => (sameBelow earlier below).symm⟩
  · exact here
  · refine iff_of_false (fun member => (within position member).not_gt behind) ?_
    rintro ⟨-, -, -, now, -, -, -, timed, -⟩
    have inside := lt_of_timeAt? timed
    rw [List.length_append, List.length_singleton] at inside
    omega

/-- The first timestamp starts the clock. -/
theorem start
    (takes : Takes settings log taken snapshots none)
    (timed : (LogRecord.parse? settings.tag line).bind LogRecord.timestamp = some now) :
    Takes settings (log ++ [line]) taken snapshots (some now.ofDay) := by
  have untimed : ∀ position, timeAt? settings.tag log position = none := takes.clock
  have nothing (position : Nat) : position ∉ taken := by
    intro member
    obtain ⟨time, timed⟩ := takes.exists_of_mem member
    rw [untimed position] at timed
    cases timed
  have none (position : Nat) (before : position < log.length) :
      timeAt? settings.tag (log ++ [line]) position = none := by
    rw [timeAt?_append, if_neg before.ne, untimed position]
  have here : timeAt? settings.tag (log ++ [line]) log.length = some now := by
    rw [timeAt?_append, if_pos rfl, timed]
  refine ⟨takes.ordered, takes.snapshots.imp fun _ _ => SnapshotAt.append,
    takes.due_append (fun _ _ => Iff.rfl) (fun _ member => absurd member (nothing _)) ?_, ?_⟩
  · refine iff_of_false (nothing _) ?_
    rintro ⟨start, before, last, -, -, -, timedStart, -⟩
    rw [none start before] at timedStart
    cases timedStart
  · exact ⟨log.length, now, .inr ⟨here ▸ rfl, none⟩, fun _ member => absurd member (nothing _), here, rfl⟩

variable {mark : Binary64}

/-- The new line has a timestamp, and it is due if the clock says so. -/
theorem isDue_iff
    (takes : Takes settings log taken snapshots (some mark))
    (timed : (LogRecord.parse? settings.tag line).bind LogRecord.timestamp = some now)
    {takenAfter : List Nat}
    (same : ∀ earlier < log.length, earlier ∈ takenAfter ↔ earlier ∈ taken) :
    IsDue settings.interval (timeAt? settings.tag (log ++ [line])) takenAfter log.length ↔
      settings.interval.le (Summarizer.elapsed mark now.ofDay) := by
  refine isDue_iff_of_shows (fun other => takes.exists_of_mem) takes.clock
    (fun other time => lt_of_timeAt?) (fun earlier before => ?_) ?_ same
  · rw [timeAt?_append, if_neg before.ne]
  · rw [timeAt?_append, if_pos rfl, timed]

/-- A timestamp that comes too early is passed over. -/
theorem pass
    (takes : Takes settings log taken snapshots (some mark))
    (timed : (LogRecord.parse? settings.tag line).bind LogRecord.timestamp = some now)
    (early : ¬ settings.interval.le (Summarizer.elapsed mark now.ofDay)) :
    Takes settings (log ++ [line]) taken snapshots (some mark) := by
  have notHere : log.length ∉ taken := fun member => (takes.lt_of_mem member).false
  refine ⟨takes.ordered, takes.snapshots.imp fun _ _ => SnapshotAt.append,
    takes.due_append (fun _ _ => Iff.rfl) (fun _ member => (takes.lt_of_mem member).le) ?_, ?_⟩
  · rw [takes.isDue_iff timed fun _ _ => Iff.rfl]
    exact iff_of_false notHere early
  · obtain ⟨start, last, starts, latest, timedStart, shown⟩ := takes.clock
    have before : start < log.length := lt_of_timeAt? timedStart
    have kept (earlier : Nat) (below : earlier ≤ start) :
        timeAt? settings.tag (log ++ [line]) earlier = timeAt? settings.tag log earlier := by
      rw [timeAt?_append, if_neg (below.trans_lt before).ne]
    exact ⟨start, last, starts.mono kept id, latest, (kept start le_rfl).trans timedStart, shown⟩

/-- A timestamp that is due takes a snapshot and starts the clock again. -/
theorem take
    (takes : Takes settings log taken snapshots (some mark))
    (timed : (LogRecord.parse? settings.tag line).bind LogRecord.timestamp = some now)
    (due : settings.interval.le (Summarizer.elapsed mark now.ofDay))
    {counters : List CounterEntry}
    (latest : KeepsLast (reported settings.tag (log ++ [line])) counters) :
    Takes settings (log ++ [line]) (taken ++ [log.length]) (snapshots ++ [⟨now, counters⟩])
      (some now.ofDay) := by
  have same (earlier : Nat) (before : earlier < log.length) :
      earlier ∈ taken ++ [log.length] ↔ earlier ∈ taken := by
    rw [List.mem_append, List.mem_singleton, or_iff_left before.ne]
  have within : ∀ position ∈ taken ++ [log.length], position ≤ log.length := by
    intro position member
    rcases List.mem_append.1 member with earlier | here
    · exact (takes.lt_of_mem earlier).le
    · exact (List.mem_singleton.1 here).le
  have here : timeAt? settings.tag (log ++ [line]) log.length = some now := by
    rw [timeAt?_append, if_pos rfl, timed]
  have snapshot : SnapshotAt settings.tag (log ++ [line]) log.length ⟨now, counters⟩ := by
    obtain ⟨start, last, -, -, timedStart, -⟩ := takes.clock
    have before : start < log.length := lt_of_timeAt? timedStart
    refine ⟨here, ⟨start, before, ?_⟩, ?_⟩
    · rw [timeAt?_append, if_neg before.ne, timedStart]
      rfl
    · have whole : (log ++ [line]).take (log.length + 1) = log ++ [line] :=
        List.take_of_length_le (by simp)
      rwa [whole]
  refine ⟨?_, ?_, takes.due_append same within ?_, ?_⟩
  · refine List.pairwise_append.2 ⟨takes.ordered, List.pairwise_singleton _ _, ?_⟩
    intro earlier member position single
    exact List.mem_singleton.1 single ▸ takes.lt_of_mem member
  · exact List.rel_append (takes.snapshots.imp fun _ _ => SnapshotAt.append)
      (.cons snapshot .nil)
  · rw [takes.isDue_iff timed same]
    exact iff_of_true (List.mem_append_right _ List.mem_cons_self) due
  · exact ⟨log.length, now, .inl (List.mem_append_right _ List.mem_cons_self), within, here, rfl⟩

end Takes

section Feeding

variable
    {settings : LogSettings}
    {log : List String}
    {line : String}
    {taken : List Nat}
    {summarizer : Summarizer}

/-- A line that is no record is malformed if it looks like one. -/
theorem Counts.append_no_record
    (counts : Counts settings log summarizer)
    (unread : LogRecord.parse? settings.tag line = none) :
    Counts settings (log ++ [line]) (summarizer.feedLine line).2 := by
  obtain ⟨rfl, records, malformed, latest⟩ := counts
  unfold Summarizer.feedLine
  rw [unread]
  refine ⟨rfl, ?_, ?_, ?_⟩
  · simpa [List.countP_append, unread] using records
  · simp [List.countP_append, List.countP_singleton, unread, malformed]
  · rw [reported_append_of_no_record unread]
    exact latest

/-- A record is counted, and its value is the last one from then on. -/
theorem Counts.append_record
    (counts : Counts settings log summarizer)
    {record : LogRecord}
    (read : LogRecord.parse? settings.tag line = some record) :
    Counts settings (log ++ [line])
      { summarizer with
        records := summarizer.records + 1
        latest := putCounter record.entry summarizer.latest } := by
  obtain ⟨rfl, records, malformed, latest⟩ := counts
  refine ⟨rfl, ?_, ?_, ?_⟩
  · simp [List.countP_append, read, records]
  · simpa [List.countP_append, read] using malformed
  · rw [reported_append_of_record read]
    exact latest.putCounter record.entry

/-- The clock does not touch the counters. -/
theorem Counts.advance (counts : Counts settings log summarizer) (time : Timestamp) :
    Counts settings log (summarizer.advance time) := by
  obtain ⟨rfl, records, malformed, latest⟩ := counts
  unfold Summarizer.advance
  dsimp only
  split
  · exact ⟨rfl, records, malformed, latest⟩
  · split <;> exact ⟨rfl, records, malformed, latest⟩

/-- A timestamp starts the clock, is passed over, or takes a snapshot. -/
theorem Counts.takes_advance
    (counts : Counts settings (log ++ [line]) summarizer)
    (takes : Takes settings log taken summarizer.snapshots summarizer.clock)
    {now : Timestamp}
    (timed : (LogRecord.parse? settings.tag line).bind LogRecord.timestamp = some now) :
    ∃ taken, Takes settings (log ++ [line]) taken (summarizer.advance now).snapshots
      (summarizer.advance now).clock := by
  unfold Summarizer.advance
  rw [counts.settings_eq]
  dsimp only
  cases shown : summarizer.clock with
  | none =>
    rw [shown] at takes
    exact ⟨taken, takes.start timed⟩
  | some mark =>
    rw [shown] at takes
    dsimp only
    split
    · rename_i due
      exact ⟨taken ++ [log.length], takes.take timed due counts.latest⟩
    · rename_i early
      rw [shown]
      exact ⟨taken, takes.pass timed early⟩

end Feeding

/-- What a summary in the making has to do with the lines that were fed. -/
structure Summarizes (settings : LogSettings) (log : List String) (summarizer : Summarizer) : Prop where
  counts : Counts settings log summarizer
  takes : ∃ taken, Takes settings log taken summarizer.snapshots summarizer.clock

namespace Summarizes

variable {settings : LogSettings} {log : List String} {summarizer : Summarizer}

theorem start (settings : LogSettings) : Summarizes settings [] (Summarizer.start settings) where
  counts := ⟨rfl, rfl, rfl, keepsLast_nil⟩
  takes := by
    refine ⟨[], List.Pairwise.nil, .nil, fun position => iff_of_false List.not_mem_nil ?_, fun _ => rfl⟩
    rintro ⟨-, -, -, now, -, -, -, timed, -⟩
    cases timed

theorem feedLine (summarizes : Summarizes settings log summarizer) (line : String) :
    Summarizes settings (log ++ [line]) (summarizer.feedLine line).2 := by
  obtain ⟨counts, taken, takes⟩ := summarizes
  cases read : LogRecord.parse? settings.tag line with
  | none =>
    refine ⟨counts.append_no_record read, taken, ?_⟩
    unfold Summarizer.feedLine
    rw [counts.settings_eq, read]
    exact takes.untimed (by rw [read]; rfl)
  | some record =>
    have counted := counts.append_record read
    unfold Summarizer.feedLine
    rw [counts.settings_eq, read]
    dsimp only [Summarizer.feed]
    cases time : record.timestamp with
    | none => exact ⟨counted, taken, takes.untimed (by rw [read]; exact time)⟩
    | some now =>
      exact ⟨counted.advance now, counted.takes_advance takes (by rw [read]; exact time)⟩

/-- Whatever lines are fed, the summary in the making is one of them. -/
theorem foldl_feedLine (summarizes : Summarizes settings log summarizer) (lines : List String) :
    Summarizes settings (log ++ lines)
      (lines.foldl (fun state line => (state.feedLine line).2) summarizer) := by
  induction lines generalizing log summarizer with
  | nil =>
    rw [List.append_nil]
    exact summarizes
  | cons line rest hypothesis =>
    rw [List.append_cons]
    exact hypothesis (summarizes.feedLine line)

end Summarizes

/-- For every configuration and every list of lines: the records are the lines that can be read, the
malformed lines those that cannot and have the tag and a colon in them, and the last values are those of all
records.  The snapshots were taken at records with a timestamp, in the order of the log and not at the first
of them, and each has the timestamp of its record and the last values of the log up to that record.  One was
taken wherever it was due. -/
theorem feed_summarizes_prefixes (settings : LogSettings) (log : List String) :
    let summary :=
      (log.foldl (fun state line => (state.feedLine line).2) (Summarizer.start settings)).finish
    summary.records = log.countP (fun line => (LogRecord.parse? settings.tag line).isSome) ∧
      summary.malformed =
        log.countP (fun line => LogRecord.parse? settings.tag line = none ∧
          settings.tag.toList ++ [':'] <:+: line.toList) ∧
      KeepsLast (reported settings.tag log) summary.latest ∧
      ∃ taken : List Nat,
        taken.Pairwise (· < ·) ∧
        List.Forall₂ (SnapshotAt settings.tag log) taken summary.snapshots ∧
        ∀ position,
          position ∈ taken ↔
            IsDue settings.interval (timeAt? settings.tag log) taken position := by
  obtain ⟨counts, taken, takes⟩ := (Summarizes.start settings).foldl_feedLine log
  rw [List.nil_append] at counts takes
  refine ⟨counts.records, counts.malformed.trans (List.countP_congr fun line _ => ?_), counts.latest,
    taken, takes.ordered, takes.snapshots, takes.due⟩
  simp [LogRecord.isMarked, LogRecord.marker, Text.cutFirst?_isSome_iff]

end Summarizer
end AccessProfiler
