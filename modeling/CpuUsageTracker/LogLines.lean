import CpuUsageTracker.Library.Lines
import CpuUsageTracker.LogRecords
import Mathlib.Data.List.Forall2

/-!
# One line for each message

**Theorem (`oneLinePerCall_iff`).** Let calls of `Log` at the levels from `LLEVEL_FATAL` to
`LLEVEL_TRACE`, with texts of any length without a newline, fill the circular buffer in batches
that fit it, each drained by `logAllFromCbuf`. The output has one line for each call, in order,
made of the call's header and a prefix of its text, exactly if

* no thread name contains a newline, and
* every line but the last one fits the array together with its newline.

A line that does not fit loses its newline. The next message then continues it, and there is one
line less (`Lines.length_lines_joined_iff`).
-/

namespace CpuUsageTracker

open CircularBuffer Lines

/-- The line of a call: its header and a prefix of its text. -/
def LineOf (e : LogEntry) (line : List UInt8) : Prop := ∃ t, t <+: e.text ∧ line = e.header ++ t

/-- The batches run, with a fresh buffer, and the lines of the output are those of the calls. -/
def OneLinePerCall (programLoggingLevel : LogLevel) (block : List UInt8) (batches : List Batch) :
    Prop :=
  ∃ cbuf output, create 1024 100 true (some block) = some cbuf ∧
    runBatches programLoggingLevel cbuf batches = some output ∧
    List.Forall₂ LineOf (batches.flatMap Batch.entries) (lines 10 output)

variable {programLoggingLevel : LogLevel} {e : LogEntry} {batches : List Batch}
  {block : List UInt8}

/-! ## One record -/

theorem LogEntry.lineOf_line (h : Loggable programLoggingLevel e) : LineOf e e.line := by
  have hlength := length_header h
  have hname := h.nameLength
  refine ⟨e.text.take (logMessageMaxLength - 1 - e.header.length), List.take_prefix _ _, ?_⟩
  rw [line, List.take_append, List.take_of_length_le]
  unfold logMessageMaxLength
  omega

theorem LogEntry.line_ne_nil (h : Loggable programLoggingLevel e) : e.line ≠ [] := by
  have hlength := length_header h
  have hpos : 0 < e.line.length := by
    simp only [line, List.length_take, List.length_append, logMessageMaxLength]
    omega
  exact List.length_pos_iff.1 hpos

theorem LogEntry.newline_not_mem_line (h : Loggable programLoggingLevel e)
    (hname : 10 ∉ e.threadName) : 10 ∉ e.line := by
  intro hmem
  rcases List.mem_append.1 (List.mem_of_mem_take hmem) with hmem | hmem
  · exact newline_not_mem_header h hname hmem
  · exact h.line hmem

/-! ## The output -/

/-- The output is the calls' lines, each with its newline if it fits. -/
theorem runBatches_eq_joined (hblock : block.length = (allocSize 1024 100).toNat)
    (hroom : ∀ b ∈ batches, b.entries.length ≤ loggerMessageBufferItemCount)
    (hlog : ∀ b ∈ batches, ∀ e ∈ b.entries, Loggable programLoggingLevel e) :
    runBatches programLoggingLevel ⟨block, 100, 0, 0, 1024⟩ batches =
      some (joined 10 LogEntry.line LogEntry.Fits (batches.flatMap Batch.entries)) := by
  have hfresh : Refines 1024 ⟨block, 100, 0, 0, 1024⟩ (.empty : ItemQueue 100) :=
    refines_create (by decide) (by decide) (by decide) hblock
  exact runBatches_eq hfresh hroom hlog

/-- A line never contains a newline, and neither does a name in it. -/
theorem newline_not_mem_name {entries : List LogEntry} {output : List UInt8}
    (h : List.Forall₂ LineOf entries (lines 10 output)) : ∀ e ∈ entries, 10 ∉ e.threadName := by
  have hlines : List.Forall₂ (fun line e => 10 ∉ line ∧ LineOf e line) (lines 10 output) entries :=
    (List.forall₂_and_left _ _).2 ⟨fun _ => sep_not_mem, h.flip⟩
  have hnames : List.Forall₂ (fun e line => 10 ∉ e.threadName ∧ LineOf e line) entries
      (lines 10 output) := by
    refine hlines.flip.imp fun e line hline => ?_
    obtain ⟨hnewline, t, ht, rfl⟩ := hline
    refine ⟨fun hname => hnewline ?_, t, ht, rfl⟩
    exact List.mem_append_left t (LogEntry.mem_header_of_mem_name hname)
  exact ((List.forall₂_and_left _ _).1 hnames).1

section

variable (hblock : block.length = (allocSize 1024 100).toNat)
  (hroom : ∀ b ∈ batches, b.entries.length ≤ loggerMessageBufferItemCount)
  (hlog : ∀ b ∈ batches, ∀ e ∈ b.entries, Loggable programLoggingLevel e)

include hlog in
theorem loggable_entries : ∀ e ∈ batches.flatMap Batch.entries, Loggable programLoggingLevel e := by
  intro e he
  obtain ⟨b, hb, he⟩ := List.mem_flatMap.1 he
  exact hlog b hb e he

include hblock hroom hlog

/-- Each call has its line only if no name breaks its header and no line loses its newline. -/
theorem fits_of_oneLinePerCall (h : OneLinePerCall programLoggingLevel block batches) :
    (∀ e ∈ batches.flatMap Batch.entries, 10 ∉ e.threadName) ∧
      ∀ e ∈ (batches.flatMap Batch.entries).dropLast, e.Fits := by
  obtain ⟨cbuf, output, hcreate, hout, hlines⟩ := h
  have hrun := runBatches_eq_joined hblock hroom hlog
  have hloggable := loggable_entries hlog
  obtain rfl := Option.some.inj hcreate
  obtain rfl := Option.some.inj (hrun.symm.trans hout)
  have hnames := newline_not_mem_name hlines
  refine ⟨hnames, (length_lines_joined_iff (fun e he => ?_) fun e he => ?_).1
    hlines.length_eq.symm⟩
  · exact LogEntry.line_ne_nil (hloggable e he)
  · exact LogEntry.newline_not_mem_line (hloggable e he) (hnames e he)

theorem oneLinePerCall_of_fits
    (hnames : ∀ e ∈ batches.flatMap Batch.entries, 10 ∉ e.threadName)
    (hfits : ∀ e ∈ (batches.flatMap Batch.entries).dropLast, e.Fits) :
    OneLinePerCall programLoggingLevel block batches := by
  have hloggable := loggable_entries hlog
  refine ⟨_, _, rfl, runBatches_eq_joined hblock hroom hlog, ?_⟩
  rw [lines_joined (fun e he => LogEntry.line_ne_nil (hloggable e he))
    (fun e he => LogEntry.newline_not_mem_line (hloggable e he) (hnames e he)) hfits,
    List.forall₂_map_right_iff, List.forall₂_same]
  exact fun e he => LogEntry.lineOf_line (hloggable e he)

/-- The lines of the output are those of the calls exactly if all of them but the last one fit,
and no name contains a newline. -/
theorem oneLinePerCall_iff :
    OneLinePerCall programLoggingLevel block batches ↔
      (∀ e ∈ batches.flatMap Batch.entries, 10 ∉ e.threadName) ∧
        ∀ e ∈ (batches.flatMap Batch.entries).dropLast, e.Fits := by
  constructor
  · exact fits_of_oneLinePerCall hblock hroom hlog
  · rintro ⟨hnames, hfits⟩
    exact oneLinePerCall_of_fits hblock hroom hlog hnames hfits

end

/-! ## A message of a given length -/

/-- A message of the reader, with a text of `n` bytes. -/
def readerEntry (n : ℕ) : LogEntry where
  level := .info
  text := List.replicate n 65
  threadName := [82, 101, 97, 100, 101, 114]
  time := List.replicate 19 48
  timestrbuf := ⟨List.replicate 20 255, List.length_replicate⟩
  msgbuf := ⟨List.replicate logMessageMaxLength 255, List.length_replicate⟩
  outbuf := ⟨List.replicate logMessageMaxLength 255, List.length_replicate⟩

theorem readerEntry_loggable (n : ℕ) : Loggable .info (readerEntry n) where
  level := nofun
  enabled := le_rfl
  text h := absurd (List.eq_of_mem_replicate h) (by decide)
  line h := absurd (List.eq_of_mem_replicate h) (by decide)
  name := show 0 ∉ ([82, 101, 97, 100, 101, 114] : List UInt8) by decide
  nameLength := show 6 ≤ 63 by decide
  time h := absurd (List.eq_of_mem_replicate h) (by decide)
  timeLine h := absurd (List.eq_of_mem_replicate h) (by decide)
  timeLength := by simp [readerEntry]

theorem readerEntry_fits_iff (n : ℕ) : (readerEntry n).Fits ↔ n ≤ 986 := by
  have hheader : (readerEntry n).header.length = 36 :=
    LogEntry.length_header (readerEntry_loggable n)
  have htext : (readerEntry n).text.length = n := List.length_replicate
  unfold LogEntry.Fits logMessageMaxLength
  rw [hheader, htext]
  omega

/-- Two calls, the first one with a text of `n` bytes. -/
def twoCalls (n : ℕ) : List Batch :=
  [⟨[readerEntry n, readerEntry 0],
    ⟨List.replicate logMessageMaxLength 255, List.length_replicate⟩⟩]

theorem twoCalls_loggable (n : ℕ) : ∀ b ∈ twoCalls n, ∀ e ∈ b.entries, Loggable .info e := by
  intro b hb e he
  obtain rfl := List.mem_singleton.1 hb
  rcases List.mem_cons.1 he with rfl | he
  · exact readerEntry_loggable n
  · obtain rfl := List.mem_singleton.1 he
    exact readerEntry_loggable 0

theorem twoCalls_room (n : ℕ) :
    ∀ b ∈ twoCalls n, b.entries.length ≤ loggerMessageBufferItemCount := by
  intro b hb
  obtain rfl := List.mem_singleton.1 hb
  show 2 ≤ 100
  decide

theorem oneLinePerCall_iff_short :
    OneLinePerCall .info (List.replicate (allocSize 1024 100).toNat 0) (twoCalls 10) := by
  refine (oneLinePerCall_iff List.length_replicate (twoCalls_room 10)
    (twoCalls_loggable 10)).2 ⟨fun e he => ?_, fun e he => ?_⟩
  · rcases List.mem_cons.1 he with rfl | he
    · exact show 10 ∉ ([82, 101, 97, 100, 101, 114] : List UInt8) by decide
    · obtain rfl := List.mem_singleton.1 he
      exact show 10 ∉ ([82, 101, 97, 100, 101, 114] : List UInt8) by decide
  · obtain rfl := List.mem_singleton.1 he
    exact (readerEntry_fits_iff 10).2 (by decide)

/-- With one byte more than fits, both messages share a line. -/
theorem not_oneLinePerCall :
    ¬∀ (programLoggingLevel : LogLevel) (block : List UInt8) (batches : List Batch),
      block.length = (allocSize 1024 100).toNat →
      (∀ b ∈ batches, b.entries.length ≤ loggerMessageBufferItemCount) →
      (∀ b ∈ batches, ∀ e ∈ b.entries, Loggable programLoggingLevel e) →
      OneLinePerCall programLoggingLevel block batches := by
  intro h
  have hlines := h .info (List.replicate (allocSize 1024 100).toNat 0) (twoCalls 987)
    List.length_replicate (twoCalls_room 987) (twoCalls_loggable 987)
  have hfits := (fits_of_oneLinePerCall List.length_replicate (twoCalls_room 987)
    (twoCalls_loggable 987) hlines).2 (readerEntry 987) List.mem_cons_self
  exact absurd ((readerEntry_fits_iff 987).1 hfits) (by decide)

end CpuUsageTracker
