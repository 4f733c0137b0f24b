import CpuUsageTracker.Ownership

/-!
# What the printer prints

After a read that fails, `AnalyzerThread` starts its loop again. `PrinterThread` logs the failure
and goes on: it prints what its local buffer held before, which is the last record or, in the
first iteration, whatever `malloc` found.

**Theorem (`printed_eq_taken`).** In every run in which unlocking an owned mutex succeeds and the
printer reads only while there is a record, the records printed, and the one in hand, are the
records read, in order.

`printer_prints_unwritten` is a run in which the printer's first wait times out and it prints
from its fresh buffer.
-/

namespace CpuUsageTracker

open Threads

variable {ω V : Type} [DecidableEq ω] [PercentageValue V]

/-- The record that was read and not yet printed. -/
def PrinterPc.inHand : PrinterPc V → List (CpuUsageInfo V)
  | .unlock u | .print u => [u]
  | _ => []

/-- What was printed is what was read. -/
def PrinterPc.PrintsTaken (p : Pipeline V) (pc : PrinterPc V) : Prop :=
  p.printed ++ pc.inHand = p.usageInfoCbuf.taken

/-- If the printer's next instruction is a read, there is something to read. -/
def PrinterPc.findsRecord (p : Pipeline V) : PrinterPc V → Bool
  | .read _ => !p.usageInfoCbuf.isEmpty
  | _ => true

/-- The printer's reads do not fail. -/
def ReadsRecords (s : SysState ω V) (lab : SysLabel ω V) : Prop :=
  lab.actor = some .printer → (s.loc .printer).pc.findsRecord s.data.pipeline = true

instance (s : SysState ω V) (lab : SysLabel ω V) : Decidable (ReadsRecords s lab) :=
  inferInstanceAs (Decidable (_ → _))

/-- Unlocking an owned mutex succeeds, and the printer's reads do. -/
def UnlocksAndReads (s : SysState ω V) (lab : SysLabel ω V) : Prop :=
  (program ω V).UnlocksSucceed s lab ∧ ReadsRecords s lab

def FindsRecord (p : Pipeline V) : (t : Thread ω) → Loc V t → Prop
  | .printer, l => l.pc.findsRecord p = true
  | _, _ => True

def PrintsTaken : (t : Thread ω) → Pc V t → Bool → Pipeline V → Prop
  | .printer, pc, _, p => pc.PrintsTaken p
  | _, _, _, _ => True

omit [PercentageValue V] in
theorem Printer.printsTaken {pc : PrinterPc V} {d : Data ω V} (o : Set Mutex)
    (h : pc.PrintsTaken d.pipeline) :
    (code pc).Post (Data.perform .printer)
      (fun ev => (code pc).OnReturn (Call.UnlockSucceeds .univ) ev ∧
        pc.findsRecord d.pipeline = true)
      (fun l _ d => l.pc.PrintsTaken d.pipeline) o d := by
  cases pc with
  | waiting u w =>
    refine inNotEmpty.post_of_data (Q := fun pc d => PrinterPc.PrintsTaken d.pipeline pc)
      (fun _ => ?_) ?_ w <;> exact h
  | malloc =>
    intro i _
    simp only
    split <;> exact h
  | read u =>
    rintro i ⟨-, hread⟩
    obtain ⟨x, hx⟩ : ∃ x, d.pipeline.usageInfoCbuf.read.1 = some x := by
      rw [← Option.ne_none_iff_exists', ne_eq, Channel.read_eq_none_iff]
      simpa [PrinterPc.findsRecord] using hread
    simp only [PrinterPc.PrintsTaken, PrinterPc.inHand, List.append_nil] at h
    simp only [Data.perform, PipeAct.perform, hx, PrinterPc.PrintsTaken, PrinterPc.inHand,
      Control.pc_goto]
    rw [Channel.taken_read, hx, h]
    rfl
  | unlock u =>
    simp only [PrinterPc.PrintsTaken, PrinterPc.inHand] at h
    simp [code, PrinterPc.PrintsTaken, PrinterPc.inHand, h]
  | print u =>
    intro i _
    simp only [PrinterPc.PrintsTaken, PrinterPc.inHand] at h
    simp [Data.perform, PipeAct.perform, PrinterPc.PrintsTaken, PrinterPc.inHand, h]
  | _ =>
    simp only [PrinterPc.PrintsTaken, PrinterPc.inHand] at h
    simp [code, exiting, PrinterPc.PrintsTaken, PrinterPc.inHand, Data.perform, h]

omit [DecidableEq ω] [PercentageValue V] in
theorem PrinterPc.PrintsTaken.others {a : PipeAct V} {p : Pipeline V} {pc : PrinterPc V}
    (ha : a.actor ≠ some (.printer : Thread ω)) (file : FileRead) (h : pc.PrintsTaken p) :
    pc.PrintsTaken (a.perform file p).1 := by
  cases a with
  | usageInfoRead | print x => exact absurd rfl ha
  | loadFromFile | destroy x | test x | procStatWrite x | procStatRead | usageInfoWrite x => exact h

theorem printsTaken_outline : PipelineOutline
    (fun t l _ d ev => (t ≠ .logger →
      ((program ω V).code t l).OnReturn (Call.UnlockSucceeds .univ) ev) ∧ FindsRecord d.pipeline t l)
    (PrintsTaken : (t : Thread ω) → Pc V t → Bool → Pipeline V → Prop) where
  own t pc o d h := by
    cases t with
    | printer =>
      exact (Printer.printsTaken o h).mono (fun _ _ _ h => h) fun ev hev => ⟨hev.1 (by simp), hev.2⟩
    | _ => exact Instr.post_of_forall (fun _ _ _ => trivial) _
  others t u htu pc pc' k p a next file h _ hc := by
    cases t with
    | printer => exact PrinterPc.PrintsTaken.others (fun ha => htu (body_actor hc ha)) file h
    | _ => trivial
  killed t pc k p h := by
    cases t <;> exact h

theorem printed_eq_taken {s : SysState ω V} (hs : Run UnlocksAndReads s) :
    s.data.pipeline.printed ++ (s.loc .printer).pc.inHand = s.data.pipeline.usageInfoCbuf.taken := by
  refine Run.pipeline printsTaken_outline (fun t => ?_) (fun s lab hs hok t ev hev => ⟨?_, ?_⟩) hs
    .printer
  · cases t with
    | printer => rfl
    | _ => trivial
  · exact Run.unlock_succeeds (fun _ _ h => h.1) hs hok hev
  · cases t with
    | printer => exact hok.2 (Label.actor_of_event hev)
    | _ => trivial

/-- A record is written, read and printed. -/
theorem printed_eq_taken_oneRecord : ∃ s : SysState Empty ℚ,
    s.data.pipeline.printed.map (·.values) = [[60]] ∧
      s.data.pipeline.printed ++ (s.loc .printer).pc.inHand =
        s.data.pipeline.usageInfoCbuf.taken := by
  have hrun : ∃ s : SysState Empty ℚ, Run UnlocksAndReads s ∧
      (s.data.pipeline.printed.map (·.values) == [[60]]) = true := by
    apply Run.play (fun s lab => decide (ReadsRecords s lab))
      (fun _ _ hn h => ⟨hn.unlocksSucceed, of_decide_eq_true h⟩)
      (steps .reader 30 (.userIdle 10 10) ++ steps .analyzer 30 (.userIdle 0 0) ++
        steps .reader 20 (.userIdle 40 30) ++ steps .analyzer 40 (.userIdle 0 0) ++
        steps .printer 30 (.userIdle 0 0))
    decide +kernel
  obtain ⟨s, hs, hprinted⟩ := hrun
  exact ⟨s, by simpa using hprinted, printed_eq_taken hs⟩

/-- The first wait times out. -/
theorem printer_prints_unwritten : ∃ s : SysState Empty ℚ, Run (program Empty ℚ).Nominal s ∧
    s.data.pipeline.printed ++ (s.loc .printer).pc.inHand ≠
      s.data.pipeline.usageInfoCbuf.taken := by
  have hrun : ∃ s : SysState Empty ℚ, Run (program Empty ℚ).Nominal s ∧
      (s.data.pipeline.printed.length == 1 &&
        s.data.pipeline.usageInfoCbuf.taken.length == 0) = true := by
    apply Run.play (fun _ _ => true) (fun _ _ h _ => h)
      (steps .printer 13 (.userIdle 0 0) ++ [.env (.tick 2000000000), .wake .printer .timedout] ++
        steps .printer 30 (.userIdle 0 0))
    decide +kernel
  obtain ⟨s, hs, hcount⟩ := hrun
  simp only [Bool.and_eq_true, beq_iff_eq] at hcount
  refine ⟨s, hs, fun h => ?_⟩
  have hlen := congrArg List.length h
  rw [List.length_append, hcount.1, hcount.2] at hlen
  omega

end CpuUsageTracker
