import CpuUsageTracker.CircularBufferRefinement
import CpuUsageTracker.LogBuffers
import CpuUsageTracker.ProcStat

/-!
# The bytes of a log record

What `logger.c` does with the text of a message. `Log` formats it into one array on its stack, then
this together with the time, the level and the thread's name into a second one, and writes that to
the circular buffer. `logAllFromCbuf` reads each record into an array of its own and passes it to
`fputs`. All three arrays have 1024 bytes, and what they hold at first is indeterminate.

**Theorem (`cString_record`).** The string in a record is the header and the text, cut to 1023
bytes together with the newline. So the newline is there only if the line fits.

**Theorem (`runBatches_eq`).** Records written in batches that fit the buffer, each batch drained
by `logAllFromCbuf`, come out as these strings, one after another.
-/

namespace CpuUsageTracker

def logMessageMaxLength : ℕ := 1024
def logTimeStringMaxLength : ℕ := 20

/-- An array on the stack, with its indeterminate contents. -/
abbrev Block (n : ℕ) := {bytes : List UInt8 // bytes.length = n}

/-- A call of `Log`: its level, the text that `format` and the arguments expand to, the name of the
calling thread, what `strftime` makes of the time, and the arrays of the call. The strings are
without their null characters. -/
structure LogEntry where
  level : LogLevel
  text : List UInt8
  threadName : List UInt8
  time : List UInt8
  timestrbuf : Block logTimeStringMaxLength
  msgbuf : Block logMessageMaxLength
  outbuf : Block logMessageMaxLength

/-! ## Formatting -/

/-- `snprintf` and `vsnprintf`, where `s` is what the format expands to: as much of it as fits, and
a null character. -/
def snprintf (buf : List UInt8) (size : ℕ) (s : List UInt8) : List UInt8 :=
  s.take (size - 1) ++ 0 :: buf.drop ((s.take (size - 1)).length + 1)

/-- `strftime`. The contents are indeterminate if the string does not fit. -/
def strftime (buf : List UInt8) (size : ℕ) (s : List UInt8) : List UInt8 :=
  if s.length < size then s ++ 0 :: buf.drop (s.length + 1) else buf

/-- `"%19s"` -/
def logFormatTimestamp (s : List UInt8) : List UInt8 := List.replicate (19 - s.length) 32 ++ s

/-- `"%-8s"` -/
def logFormatThreadname (s : List UInt8) : List UInt8 := s ++ List.replicate (8 - s.length) 32

/-- What stands between the time and the name, such as `" [F] "`. -/
def LogLevel.tag : LogLevel → List UInt8
  | none => []
  | fatal => [32, 91, 70, 93, 32]
  | error => [32, 91, 69, 93, 32]
  | warning => [32, 91, 87, 93, 32]
  | info => [32, 91, 73, 93, 32]
  | debug => [32, 91, 68, 93, 32]
  | trace => [32, 91, 84, 93, 32]

/-- The time, the level and the name, up to `" :: "`. -/
def logHeader (level : LogLevel) (time name : List UInt8) : List UInt8 :=
  logFormatTimestamp time ++ level.tag ++ logFormatThreadname name ++ [32, 58, 58, 32]

/-- What `BASE_FORMATS[level]` expands to. -/
def baseFormats (level : LogLevel) (time name msg : List UInt8) : List UInt8 :=
  if level = .none then [] else logHeader level time name ++ msg ++ [10]

namespace LogEntry

def header (e : LogEntry) : List UInt8 := logHeader e.level e.time e.threadName

/-- The header, the text, the newline and the null character fit the array. -/
def Fits (e : LogEntry) : Prop := e.header.length + e.text.length + 1 < logMessageMaxLength

instance (e : LogEntry) : Decidable e.Fits := inferInstanceAs (Decidable (_ < _))

/-- What there is room for of the header and the text. -/
def line (e : LogEntry) : List UInt8 := (e.header ++ e.text).take (logMessageMaxLength - 1)

/-- `outbuf` when `Log` has filled it. -/
def record (e : LogEntry) : List UInt8 :=
  let timestrbuf :=
    (strftime e.timestrbuf logTimeStringMaxLength e.time).set (logTimeStringMaxLength - 1) 0
  let msgbuf := snprintf e.msgbuf logMessageMaxLength e.text
  snprintf e.outbuf logMessageMaxLength
    (baseFormats e.level (cString timestrbuf) e.threadName (cString msgbuf))

end LogEntry

/-! ## Writing and draining -/

/-- `Log`, if it gets the mutex. -/
def log (programLoggingLevel : LogLevel) (gInBuf : CircularBuffer) (e : LogEntry) :
    Option CircularBuffer :=
  if e.level.toNat > programLoggingLevel.toNat then some gInBuf else gInBuf.write e.record

/-- The loop of `logAllFromCbuf`, for at most `n` calls of `CircularBuffer_read`. Returns what was
written to the file. -/
def logAllLoop : ℕ → List UInt8 → CircularBuffer → Option (List UInt8 × CircularBuffer)
  | 0, _, _ => none
  | n + 1, msgbuf, cbuf =>
    (cbuf.read msgbuf).bind fun (ok, out, cbuf) =>
      if ok then
        let msgbuf := out.set (logMessageMaxLength - 1) 0
        (logAllLoop n msgbuf cbuf).map fun (written, cbuf) => (cString msgbuf ++ written, cbuf)
      else some ([], cbuf)

/-- One call more than there are items. -/
def logAllFromCbuf (msgbuf : List UInt8) (cbuf : CircularBuffer) :
    Option (List UInt8 × CircularBuffer) :=
  logAllLoop (cbuf.itemCount.toNat + 1) msgbuf cbuf

/-- Calls of `Log` followed by one of `logAllFromCbuf`, with its array. -/
structure Batch where
  entries : List LogEntry
  msgbuf : Block logMessageMaxLength

/-- What the file contains after the batches. -/
def runBatches (programLoggingLevel : LogLevel) :
    CircularBuffer → List Batch → Option (List UInt8)
  | _, [] => some []
  | cbuf, b :: bs =>
    (b.entries.foldlM (log programLoggingLevel) cbuf).bind fun cbuf =>
      (logAllFromCbuf b.msgbuf cbuf).bind fun (written, cbuf) =>
        (runBatches programLoggingLevel cbuf bs).map fun rest => written ++ rest

/-! ## The string in a record -/

/-- What the source relies on, and what is said of a message: it is logged, its text is one line,
the thread's name fits its array, and the time is what `strftime` makes of a year with at most four
digits. -/
structure Loggable (programLoggingLevel : LogLevel) (e : LogEntry) : Prop where
  level : e.level ≠ .none
  enabled : e.level.toNat ≤ programLoggingLevel.toNat
  text : 0 ∉ e.text
  line : 10 ∉ e.text
  name : 0 ∉ e.threadName
  nameLength : e.threadName.length ≤ 63
  time : 0 ∉ e.time
  timeLine : 10 ∉ e.time
  timeLength : e.time.length ≤ 19

theorem cString_append {s rest : List UInt8} (hs : 0 ∉ s) : cString (s ++ 0 :: rest) = s := by
  unfold cString
  rw [List.takeWhile_append_of_pos, List.takeWhile_cons_of_neg (by simp), List.append_nil]
  intro b hb
  have hne : b ≠ 0 := fun h => hs (h ▸ hb)
  simpa using hne

/-- A null character put behind the string does not change it. -/
theorem cString_set {s rest : List UInt8} {i : ℕ} (hs : 0 ∉ s) (hi : s.length ≤ i) :
    cString ((s ++ 0 :: rest).set i 0) = s := by
  rw [List.set_append_right i 0 hi]
  cases i - s.length with
  | zero => exact cString_append hs
  | succ k => exact cString_append hs

theorem length_snprintf {buf : List UInt8} {size : ℕ} (hbuf : buf.length = size) (hsize : 0 < size)
    (s : List UInt8) : (snprintf buf size s).length = size := by
  simp only [snprintf, List.length_append, List.length_cons, List.length_take, List.length_drop]
  omega

theorem cString_strftime {buf s : List UInt8} {size : ℕ} (hs : 0 ∉ s) (hsize : s.length < size) :
    cString ((strftime buf size s).set (size - 1) 0) = s := by
  rw [strftime, if_pos hsize]
  exact cString_set hs (by omega)

/-- Cutting `t` first makes no difference, and `x` is left if everything fits. -/
theorem take_append_take_append {α : Type*} (h t : List α) (x : α) (n : ℕ) :
    (h ++ t.take n ++ [x]).take n =
      (h ++ t).take n ++ if h.length + t.length < n then [x] else [] := by
  by_cases hfits : h.length + t.length < n
  · rw [if_pos hfits, List.take_of_length_le (by omega : t.length ≤ n), List.take_of_length_le,
      List.take_of_length_le]
    · rw [List.length_append]
      omega
    · simp only [List.length_append, List.length_singleton]
      omega
  · rw [if_neg hfits, List.append_nil, List.take_append_of_le_length, List.take_append,
      List.take_append, List.take_take, Nat.min_eq_left (Nat.sub_le n h.length)]
    simp only [List.length_append, List.length_take]
    omega

namespace LogEntry

variable {programLoggingLevel : LogLevel} {e : LogEntry}

/-- The bytes that reach the file. -/
def written (e : LogEntry) : List UInt8 := e.line ++ if e.Fits then [10] else []

theorem length_header (h : Loggable programLoggingLevel e) :
    e.header.length = 28 + max 8 e.threadName.length := by
  have htime := h.timeLength
  have htag : e.level.tag.length = 5 := by
    have hlevel := h.level
    cases hl : e.level with
    | none => exact absurd hl hlevel
    | _ => rfl
  simp only [header, logHeader, logFormatTimestamp, logFormatThreadname, List.length_append,
    List.length_replicate, htag, List.length_cons, List.length_nil]
  omega

theorem not_mem_tag (level : LogLevel) : 0 ∉ level.tag ∧ 10 ∉ level.tag := by
  cases level <;> decide

theorem zero_not_mem_header (h : Loggable programLoggingLevel e) : 0 ∉ e.header := by
  simp [header, logHeader, logFormatTimestamp, logFormatThreadname, h.time, h.name,
    (not_mem_tag e.level).1]

theorem newline_not_mem_header (h : Loggable programLoggingLevel e) (hname : 10 ∉ e.threadName) :
    10 ∉ e.header := by
  simp [header, logHeader, logFormatTimestamp, logFormatThreadname, h.timeLine, hname,
    (not_mem_tag e.level).2]

theorem mem_header_of_mem_name {x : UInt8} (h : x ∈ e.threadName) : x ∈ e.header := by
  simp [header, logHeader, logFormatThreadname, h]

theorem zero_not_mem_written (h : Loggable programLoggingLevel e) : 0 ∉ e.written := by
  have hline : 0 ∉ e.line := by
    intro hmem
    rcases List.mem_append.1 (List.mem_of_mem_take hmem) with hmem | hmem
    · exact zero_not_mem_header h hmem
    · exact h.text hmem
  unfold written
  by_cases hfits : e.Fits
  · simp [hfits, hline]
  · simp [hfits, hline]

/-- The record is the string that reaches the file, a null character and what was there before. -/
theorem record_eq (h : Loggable programLoggingLevel e) :
    ∃ rest, e.record = e.written ++ 0 :: rest := by
  have htext : cString (snprintf e.msgbuf logMessageMaxLength e.text) =
      e.text.take (logMessageMaxLength - 1) :=
    cString_append fun hmem => h.text (List.mem_of_mem_take hmem)
  have htime : cString ((strftime e.timestrbuf logTimeStringMaxLength e.time).set
      (logTimeStringMaxLength - 1) 0) = e.time :=
    cString_strftime h.time (Nat.lt_succ_of_le h.timeLength)
  have hwritten : (e.header ++ e.text.take (logMessageMaxLength - 1) ++ [10]).take
      (logMessageMaxLength - 1) = e.written := by
    rw [take_append_take_append, written, line]
    have hfits : e.header.length + e.text.length < logMessageMaxLength - 1 ↔ e.Fits := by
      unfold Fits logMessageMaxLength
      omega
    simp only [hfits]
  have hrecord : e.record = snprintf e.outbuf logMessageMaxLength
      (e.header ++ e.text.take (logMessageMaxLength - 1) ++ [10]) := by
    rw [record, htext, htime, baseFormats, if_neg h.level]
    rfl
  rw [hrecord, snprintf, hwritten]
  exact ⟨_, rfl⟩

theorem cString_record (h : Loggable programLoggingLevel e) : cString e.record = e.written := by
  obtain ⟨rest, hrest⟩ := record_eq h
  rw [hrest]
  exact cString_append (zero_not_mem_written h)

end LogEntry

theorem LogEntry.length_record (e : LogEntry) : e.record.length = logMessageMaxLength :=
  length_snprintf e.outbuf.2 (Nat.succ_pos _) _

/-! ## Through the buffer -/

open CircularBuffer

variable {programLoggingLevel : LogLevel} {c : ℕ} {cb : CircularBuffer} {q : ItemQueue c}

/-- Records are added at the end while there is room. -/
theorem foldlM_log {entries : List LogEntry} (h : Refines logMessageMaxLength cb q)
    (hroom : q.items.length + entries.length ≤ c)
    (hlog : ∀ e ∈ entries, Loggable programLoggingLevel e) :
    ∃ (cb' : CircularBuffer) (q' : ItemQueue c),
      entries.foldlM (log programLoggingLevel) cb = some cb' ∧
        Refines logMessageMaxLength cb' q' ∧
        q'.items = q.items ++ entries.map LogEntry.record := by
  induction entries generalizing cb q with
  | nil => exact ⟨cb, q, rfl, h, by simp⟩
  | cons e es ih =>
    have he := hlog e List.mem_cons_self
    obtain ⟨cb₁, hwrite, h₁⟩ := refines_write h e.record e.length_record.ge
    have hitems : (q.write (e.record.take logMessageMaxLength)).items = q.items ++ [e.record] := by
      rw [List.take_of_length_le e.length_record.le, Fifo.items_write_of_not_full]
      rw [Fifo.isFull_eq_false_iff]
      simp only [List.length_cons] at hroom
      omega
    obtain ⟨cb₂, q₂, hfold, h₂, hitems₂⟩ := ih h₁
      (by
        rw [hitems]
        simp only [List.length_append, List.length_cons, List.length_nil] at hroom ⊢
        omega)
      (fun e' he' => hlog e' (List.mem_cons_of_mem e he'))
    refine ⟨cb₂, q₂, ?_, h₂, ?_⟩
    · rw [List.foldlM_cons, log, if_neg (Nat.not_lt.2 he.enabled), hwrite]
      exact hfold
    · rw [hitems₂, hitems, List.map_cons, List.append_assoc, List.singleton_append]

/-- The strings of the items, if each of them has one. -/
theorem logAllLoop_eq {n : ℕ} {msgbuf : List UInt8} (h : Refines logMessageMaxLength cb q)
    (hitems : ∀ x ∈ q.items, ∃ s rest, x = s ++ 0 :: rest ∧ 0 ∉ s) (hn : q.items.length < n)
    (hbuf : msgbuf.length = logMessageMaxLength) :
    ∃ cb', logAllLoop n msgbuf cb = some (q.items.flatMap cString, cb') ∧
      Refines logMessageMaxLength cb' (.empty : ItemQueue c) := by
  induction n generalizing cb q msgbuf with
  | zero => exact absurd hn (Nat.not_lt_zero _)
  | succ n ih =>
    obtain ⟨cb₁, hread, h₁⟩ := refines_read h msgbuf fun _ => hbuf.ge
    cases hq : q.items with
    | nil =>
      have hempty : q.read.2 = .empty := Fifo.ext (by simp [Fifo.read, hq])
      refine ⟨cb₁, ?_, hempty ▸ h₁⟩
      simp [logAllLoop, hread, Fifo.isEmpty, hq]
    | cons x l =>
      have hx : x ∈ q.items := hq ▸ List.mem_cons_self
      have hlength := h.length_item hx
      obtain ⟨s, rest, rfl, hs⟩ := hitems x hx
      have hlast : s.length ≤ logMessageMaxLength - 1 := by
        simp only [List.length_append, List.length_cons] at hlength
        omega
      have hout : fill q.read.1.toList logMessageMaxLength msgbuf = s ++ 0 :: rest := by
        simp [fill, Fifo.read, hq, hbuf]
      have hrest : q.read.2.items = l := by simp [Fifo.read, hq]
      have hitems' : ∀ y ∈ q.read.2.items, ∃ s rest, y = s ++ 0 :: rest ∧ 0 ∉ s :=
        fun y hy => hitems y (hq ▸ List.mem_cons_of_mem _ (hrest ▸ hy))
      have hn' : q.read.2.items.length < n := by
        rw [hq, List.length_cons] at hn
        rw [hrest]
        omega
      have hbuf' : ((s ++ 0 :: rest).set (logMessageMaxLength - 1) 0).length =
          logMessageMaxLength := by
        rw [List.length_set, hlength]
      obtain ⟨cb₂, hloop, h₂⟩ := ih h₁ hitems' hn' hbuf'
      refine ⟨cb₂, ?_, h₂⟩
      rw [logAllLoop, hread, hout, Option.bind_some]
      simp only [Fifo.isEmpty, hq, List.isEmpty_cons, Bool.not_false, if_true, hloop, hrest,
        Option.map_some, cString_set hs hlast, List.flatMap_cons, cString_append hs]

/-- One batch: the strings of its records are written, and the buffer is empty again. -/
theorem batch_eq {b : Batch} (h : Refines logMessageMaxLength cb (.empty : ItemQueue c))
    (hroom : b.entries.length ≤ c) (hlog : ∀ e ∈ b.entries, Loggable programLoggingLevel e) :
    ∃ cb₁ cb₂, b.entries.foldlM (log programLoggingLevel) cb = some cb₁ ∧
      logAllFromCbuf b.msgbuf cb₁ = some (b.entries.flatMap LogEntry.written, cb₂) ∧
      Refines logMessageMaxLength cb₂ (.empty : ItemQueue c) := by
  obtain ⟨cb₁, q₁, hfold, h₁, hitems⟩ := foldlM_log h (by simpa using hroom) hlog
  rw [Fifo.items_empty, List.nil_append] at hitems
  have hstrings : ∀ x ∈ q₁.items, ∃ s rest, x = s ++ 0 :: rest ∧ 0 ∉ s := by
    intro x hx
    rw [hitems] at hx
    obtain ⟨e, he, rfl⟩ := List.mem_map.1 hx
    obtain ⟨rest, hrest⟩ := LogEntry.record_eq (hlog e he)
    exact ⟨e.written, rest, hrest, LogEntry.zero_not_mem_written (hlog e he)⟩
  have hcount : q₁.items.length < cb₁.itemCount.toNat + 1 := by
    rw [h₁.count]
    exact Nat.lt_succ_self _
  obtain ⟨cb₂, hloop, h₂⟩ := logAllLoop_eq h₁ hstrings hcount b.msgbuf.2
  refine ⟨cb₁, cb₂, hfold, ?_, h₂⟩
  rw [logAllFromCbuf, hloop, hitems, List.flatMap_map]
  have hcString : ∀ e ∈ b.entries, cString e.record = e.written :=
    fun e he => LogEntry.cString_record (hlog e he)
  rw [List.flatMap_congr hcString]

theorem runBatches_eq {batches : List Batch}
    (h : Refines logMessageMaxLength cb (.empty : ItemQueue c))
    (hroom : ∀ b ∈ batches, b.entries.length ≤ c)
    (hlog : ∀ b ∈ batches, ∀ e ∈ b.entries, Loggable programLoggingLevel e) :
    runBatches programLoggingLevel cb batches =
      some ((batches.flatMap Batch.entries).flatMap LogEntry.written) := by
  induction batches generalizing cb with
  | nil => rfl
  | cons b bs ih =>
    have hb : b ∈ b :: bs := List.mem_cons_self
    obtain ⟨cb₁, cb₂, hfold, hdrain, h₂⟩ := batch_eq h (hroom b hb) (hlog b hb)
    have hrest := ih h₂ (fun b' hb' => hroom b' (List.mem_cons_of_mem b hb'))
      fun b' hb' => hlog b' (List.mem_cons_of_mem b hb')
    rw [runBatches, hfold, Option.bind_some, hdrain, Option.bind_some]
    simp only [hrest, Option.map_some, List.flatMap_cons, List.flatMap_append]

end CpuUsageTracker
