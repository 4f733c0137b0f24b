import CpuUsageTracker.Library.Sampling
import CpuUsageTracker.Ownership

/-!
# The measurement intervals tile

**Theorem (`measurementIntervals_tile`).** In every run in which unlocking an owned mutex
succeeds, the records that the analyzer has written are `CpuUsageInfo_calculate` of consecutive
samples among those it has read, beginning with the first one; their places among all samples
written increase.

`AnalyzerPc.Intervals` annotates each location of the analyzer with the `Sampling` that holds
there: which sample `oldStatBuffer` is, and whether `newStatBuffer` holds a later one. The reader
may write at any time, to a full buffer too. The paths that abandon an iteration give the pending
sample up. On the paths of a failed unlock, which the ownership annotation excludes, the invariant
would break: the flag or the pointers would not follow what was read or written.
-/

namespace CpuUsageTracker

open Threads

variable {ω V : Type} [DecidableEq ω] [PercentageValue V]

def Pipeline.Sampled (p : Pipeline V) (current pending : Option ProcStat) : Prop :=
  Sampling CpuUsageInfo.calculate p.procStatCbuf p.usageInfoCbuf.written current pending

/-- The last sample that was used, which is the start of the next interval. -/
def AnalyzerVars.current (v : AnalyzerVars V) : Option ProcStat :=
  if v.oldStatBufferInitialized then some v.oldStatBuffer else none

/-- What is known after a sample has been read into `newStatBuffer`. -/
def AnalyzerVars.HasRead (v : AnalyzerVars V) (p : Pipeline V) : Prop :=
  if v.oldStatBufferInitialized then p.Sampled (some v.oldStatBuffer) (some v.newStatBuffer)
  else p.Sampled (some v.newStatBuffer) none

/-- What is known after the record has been calculated. -/
def AnalyzerVars.HasRecord (v : AnalyzerVars V) (p : Pipeline V) : Prop :=
  v.oldStatBufferInitialized = true ∧
    v.usageInfoBuffer = .calculate v.oldStatBuffer v.newStatBuffer ∧
    p.Sampled (some v.oldStatBuffer) (some v.newStatBuffer)

def AnalyzerPc.Intervals (p : Pipeline V) : AnalyzerPc V → Prop
  | .threadInfoSet | .mallocOld | .mallocNew _ | .mallocUsageInfo _ _ => p.Sampled none none
  | .head v | .lockIn v | .waitingIn v _ | .killTestIn v | .read v | .emptyUnlock v =>
    p.Sampled v.current none
  | .unlockIn v | .notifyIn v => v.HasRead p
  | .lockOut v | .waitingOut v _ | .killTestOut v | .write v => v.HasRecord p
  | .unlockOut v | .notifyOut v =>
    v.oldStatBufferInitialized = true ∧ p.Sampled (some v.newStatBuffer) none
  | .breakUnlockIn | .breakUnlockOut | .exited => ∃ current, p.Sampled current none

def Intervals : (t : Thread ω) → Pc V t → Bool → Pipeline V → Prop
  | .analyzer, pc, _, p => pc.Intervals p
  | _, _, _, _ => True

/-! ## The analyzer's instructions -/

/-- What the instructions of the analyzer have to establish. Every unlock succeeds. -/
abbrev Analyzer.IntervalsPost (d : Data ω V) (o : Set Mutex) (g : Code V (Control (AnalyzerPc V))) :
    Prop :=
  g.Post (Data.perform .analyzer) (g.OnReturn (Call.UnlockSucceeds .univ))
    (fun l _ d => l.pc.Intervals d.pipeline) o d

omit [DecidableEq ω] in
theorem AnalyzerPc.Intervals.haveSample {v : AnalyzerVars V} {p : Pipeline V} (h : v.HasRead p) :
    (Analyzer.haveSample v).pc.Intervals p := by
  unfold Analyzer.haveSample
  unfold AnalyzerVars.HasRead at h
  by_cases hinit : v.oldStatBufferInitialized = true
  · rw [if_pos hinit] at h ⊢
    exact ⟨hinit, rfl, h⟩
  · rw [if_neg hinit] at h ⊢
    exact h

omit [DecidableEq ω] in
/-- A sample is read: the first one starts the first interval. -/
theorem AnalyzerVars.hasRead {v : AnalyzerVars V} {p : Pipeline V} {x : ProcStat}
    (h : p.Sampled v.current none) (hx : p.procStatCbuf.read.1 = some x) :
    HasRead { v with newStatBuffer := x } { p with procStatCbuf := p.procStatCbuf.read.2 } := by
  unfold AnalyzerVars.HasRead
  unfold AnalyzerVars.current at h
  by_cases hinit : v.oldStatBufferInitialized = true
  · rw [if_pos hinit] at h ⊢
    exact Sampling.read h hx
  · rw [if_neg hinit] at h ⊢
    exact Sampling.start h hx

omit [DecidableEq ω] in
/-- The iteration is abandoned before the record is written. -/
theorem AnalyzerVars.HasRecord.abandon {v : AnalyzerVars V} {p : Pipeline V} (h : v.HasRecord p) :
    p.Sampled v.current none := by
  obtain ⟨hinit, -, h⟩ := h
  unfold AnalyzerVars.current
  rw [if_pos hinit]
  exact h.skip

omit [DecidableEq ω] in
theorem AnalyzerVars.HasRecord.write {v : AnalyzerVars V} {p : Pipeline V} (h : v.HasRecord p) :
    Pipeline.Sampled { p with usageInfoCbuf := p.usageInfoCbuf.write v.usageInfoBuffer }
      (some v.newStatBuffer) none := by
  obtain ⟨-, hrecord, h⟩ := h
  unfold Pipeline.Sampled
  rw [Channel.written_write, hrecord]
  exact Sampling.use h

theorem Analyzer.intervals {pc : AnalyzerPc V} {d : Data ω V} (o : Set Mutex)
    (h : pc.Intervals d.pipeline) : Analyzer.IntervalsPost d o (Analyzer.code pc) := by
  cases pc with
  | threadInfoSet =>
    intro i _
    cases hi : i.ok
    · simp only [Data.perform, hi]
      exact ⟨_, h⟩
    · simp only [Data.perform, hi]
      exact h
  | mallocOld | mallocNew old => exact fun _ _ => h
  | mallocUsageInfo old new =>
    intro i _
    simp only
    split
    · exact h
    · exact ⟨_, h⟩
  | head v | killTestIn v =>
    intro i _
    simp only
    split
    · exact ⟨_, h⟩
    · exact h
  | waitingIn v w =>
    refine inNotEmpty.post_of_data (Q := fun pc d => AnalyzerPc.Intervals d.pipeline pc)
      (fun _ => ?_) ?_ w <;> exact h
  | lockIn v =>
    simp only [IntervalsPost, code, Instr.post_tryLock]
    exact ⟨fun _ _ => h, fun _ => h, fun _ => h⟩
  | emptyUnlock v => simpa [IntervalsPost, code, AnalyzerPc.Intervals] using h
  | breakUnlockIn | breakUnlockOut =>
    simpa [IntervalsPost, code, exiting, AnalyzerPc.Intervals] using h
  | read v =>
    intro i _
    simp only [Data.perform, PipeAct.perform]
    cases hread : d.pipeline.procStatCbuf.read.1 with
    | none =>
      rw [Channel.read_of_isEmpty ((Channel.read_eq_none_iff _).1 hread)]
      exact h
    | some x => exact AnalyzerVars.hasRead h hread
  | unlockIn v | unlockOut v => simpa [IntervalsPost, code, AnalyzerPc.Intervals] using h
  | notifyIn v =>
    simpa only [IntervalsPost, code, Instr.post_notify, Control.pc_logUnless] using
      ⟨fun _ => AnalyzerPc.Intervals.haveSample h, fun _ => AnalyzerPc.Intervals.haveSample h,
        fun _ => AnalyzerPc.Intervals.haveSample h⟩
  | lockOut v =>
    simp only [IntervalsPost, code, Instr.post_tryLock]
    exact ⟨fun _ _ => h, fun _ => h.abandon, fun _ => h.abandon⟩
  | waitingOut v w =>
    refine outNotFull.post_of_data (Q := fun pc d => AnalyzerPc.Intervals d.pipeline pc)
      (fun _ => ?_) ?_ w <;> exact h
  | killTestOut v =>
    intro i _
    simp only
    split
    · exact ⟨_, h.2.2.skip⟩
    · exact h
  | write v => exact fun i _ => ⟨h.1, AnalyzerVars.HasRecord.write h⟩
  | notifyOut v =>
    have hhead : d.pipeline.Sampled v.swap.current none := by
      unfold AnalyzerVars.current
      rw [if_pos (show v.swap.oldStatBufferInitialized = true from h.1)]
      exact h.2
    simpa [IntervalsPost, code, AnalyzerPc.Intervals] using hhead
  | exited => trivial

/-! ## The other threads -/

omit [DecidableEq ω] in
/-- What the other threads do to the pipeline keeps the invariant. -/
theorem Pipeline.Sampled.others {a : PipeAct V} {p : Pipeline V} {current pending : Option ProcStat}
    (ha : a.actor ≠ some (.analyzer : Thread ω)) (file : FileRead)
    (h : p.Sampled current pending) : (a.perform file p).1.Sampled current pending := by
  cases a with
  | procStatWrite x => exact Sampling.write h x
  | procStatRead | usageInfoWrite x => exact absurd rfl ha
  | loadFromFile | destroy x | test x | usageInfoRead | print x => exact h

omit [DecidableEq ω] in
theorem AnalyzerPc.Intervals.mono {pc : AnalyzerPc V} {p p' : Pipeline V} (h : pc.Intervals p)
    (hp : ∀ current pending, p.Sampled current pending → p'.Sampled current pending) :
    pc.Intervals p' := by
  cases pc with
  | unlockIn v | notifyIn v =>
    simp only [AnalyzerPc.Intervals, AnalyzerVars.HasRead] at h ⊢
    by_cases hinit : v.oldStatBufferInitialized = true
    · rw [if_pos hinit] at h ⊢
      exact hp _ _ h
    · rw [if_neg hinit] at h ⊢
      exact hp _ _ h
  | lockOut v | waitingOut v w | killTestOut v | write v => exact ⟨h.1, h.2.1, hp _ _ h.2.2⟩
  | unlockOut v | notifyOut v => exact ⟨h.1, hp _ _ h.2⟩
  | breakUnlockIn | breakUnlockOut | exited =>
    obtain ⟨current, h⟩ := h
    exact ⟨current, hp _ _ h⟩
  | _ => exact hp _ _ h

omit [DecidableEq ω] in
theorem AnalyzerPc.Intervals.sampled {pc : AnalyzerPc V} {p : Pipeline V} (h : pc.Intervals p) :
    ∃ current pending, p.Sampled current pending := by
  cases pc with
  | unlockIn v | notifyIn v =>
    simp only [AnalyzerPc.Intervals, AnalyzerVars.HasRead] at h
    split at h <;> exact ⟨_, _, h⟩
  | lockOut v | waitingOut v w | killTestOut v | write v => exact ⟨_, _, h.2.2⟩
  | unlockOut v | notifyOut v => exact ⟨_, _, h.2⟩
  | breakUnlockIn | breakUnlockOut | exited =>
    obtain ⟨current, h⟩ := h
    exact ⟨_, _, h⟩
  | _ => exact ⟨_, _, h⟩

theorem intervals_outline : PipelineOutline
    (fun t l _ _ ev => t ≠ .logger → ((program ω V).code t l).OnReturn (Call.UnlockSucceeds .univ) ev)
    (Intervals : (t : Thread ω) → Pc V t → Bool → Pipeline V → Prop) where
  own t pc o d h := by
    cases t with
    | analyzer => exact (Analyzer.intervals o h).mono (fun _ _ _ h => h) fun ev hev => hev (by simp)
    | _ => exact Instr.post_of_forall (fun _ _ _ => trivial) _
  others t u htu pc pc' k p a next file h _ hc := by
    cases t with
    | analyzer =>
      refine AnalyzerPc.Intervals.mono h fun _ _ hs => hs.others (ω := ω) (fun ha => ?_) file
      exact htu (body_actor hc ha)
    | _ => trivial
  killed t pc k p h := by
    cases t <;> exact h

theorem measurementIntervals_tile {s : SysState ω V}
    (hs : Run (program ω V).UnlocksSucceed s) :
    Tiles CpuUsageInfo.calculate s.data.pipeline.procStatCbuf.written
      s.data.pipeline.procStatCbuf.taken s.data.pipeline.usageInfoCbuf.written := by
  have h : (s.loc .analyzer).pc.Intervals s.data.pipeline := by
    refine Run.pipeline intervals_outline (fun t => ?_) (fun s lab hs hok t ev hev ht => ?_) hs
      .analyzer
    · cases t with
      | analyzer => exact Sampling.empty
      | _ => trivial
    · exact Run.unlock_succeeds (fun _ _ h => h) hs hok hev ht
  obtain ⟨current, pending, hsampled⟩ := h.sampled
  exact Sampling.tiles hsampled

/-- Two samples and one record. -/
theorem measurementIntervals_tile_twoSamples : ∃ s : SysState Empty ℚ,
    s.data.pipeline.usageInfoCbuf.written.map (·.values) = [[60]] ∧
      Tiles CpuUsageInfo.calculate s.data.pipeline.procStatCbuf.written
        s.data.pipeline.procStatCbuf.taken s.data.pipeline.usageInfoCbuf.written := by
  have hrun : ∃ s : SysState Empty ℚ, Run (program Empty ℚ).UnlocksSucceed s ∧
      (s.data.pipeline.usageInfoCbuf.written.map (·.values) == [[60]]) = true := by
    apply Run.play (fun _ _ => true) (fun _ _ h _ => h.unlocksSucceed)
      (steps .reader 30 (.userIdle 10 10) ++ steps .analyzer 30 (.userIdle 0 0) ++
        steps .reader 20 (.userIdle 40 30) ++ steps .analyzer 40 (.userIdle 0 0))
    decide +kernel
  obtain ⟨s, hs, hrecord⟩ := hrun
  exact ⟨s, by simpa using hrecord, measurementIntervals_tile hs⟩

end CpuUsageTracker
