import CpuUsageTracker.LoggerOwnership

/-!
# Does the logger touch its buffers under the lock?

The body of the logger's main loop is executed when the lock attempt does *not* succeed.

**Theorem (`logger_exclusive`).** In every run in which no lock attempt of the logger's main loop
has returned, the logger tests the input buffer, waits, swaps the buffers and unlocks `g_inMtx`
only while it owns that mutex, and it does not own it at the head of the loop and at its end.

**Theorem (`not_logger_exclusive_of_return`).** Whatever such an attempt returns, the property
breaks: at once if it succeeds, and otherwise at the logger's next test of the input buffer.
-/

namespace CpuUsageTracker

open Threads

variable {ω V : Type}

/-- The logger is about to test the input buffer, to wait, to swap the buffers or to unlock. -/
def LoggerPc.critical : LoggerPc → Bool
  | .isEmpty _ | .wait _ | .swap | .finalSwap | .breakUnlock | .unlock | .finalUnlock => true
  | _ => false

structure LoggerExclusive (s : SysState ω V) : Prop where
  critical : ∀ pc, s.loc .logger = .goto pc → s.status .logger = .ready → pc.critical = true →
    s.owner .gInMtx = some .logger
  head : s.loc .logger = .goto .head → s.owner .gInMtx ≠ some .logger
  exited : s.loc .logger = .goto .exited → s.owner .gInMtx ≠ some .logger

/-- The body of the main loop. -/
def LoggerPc.inBody : LoggerPc → Bool
  | .timePoint | .isEmpty _ | .killSwitch _ | .wait _ | .killTest | .breakUnlock | .swap | .unlock
  | .drain .loop | .fputs .loop _ => true
  | _ => false

theorem LoggerPc.final_of_critical {pc : LoggerPc} (hcritical : pc.critical = true)
    (hbody : pc.inBody = false) : pc = .finalSwap ∨ pc = .finalUnlock := by
  cases pc with
  | finalSwap => exact .inl rfl
  | finalUnlock => exact .inr rfl
  | isEmpty | wait | swap | breakUnlock | unlock => cases hbody
  | _ => cases hcritical

def LoggerOutside : (t : Thread ω) → Pc V t → Bool → Pipeline V → Prop
  | .logger, pc, _, _ => pc.inBody = false
  | _, _, _, _ => True

variable [DecidableEq ω] [PercentageValue V] {s s' : SysState ω V} {r : ThrdResult}

/-- No lock attempt of the main loop returns. -/
def LoopLockPending (s : SysState ω V) (lab : SysLabel ω V) : Prop :=
  ∀ r, lab.event = some (.logger, .ret r) → s.loc .logger ≠ .goto .lock

def UnlocksWithLoopLockPending (s : SysState ω V) (lab : SysLabel ω V) : Prop :=
  (program ω V).UnlocksSucceed s lab ∧ LoopLockPending s lab

omit [PercentageValue V] in
theorem Logger.outside {pc : LoggerPc} {o : Set Mutex} {d : Data ω V} (h : pc.inBody = false) :
    (code pc : Code V (Control LoggerPc)).Post (Data.perform .logger)
      (fun ev => ∀ r, ev = .ret r → Control.goto pc ≠ .goto .lock)
      (fun l _ _ => l.pc.inBody = false) o d := by
  cases pc with
  | lock => exact fun r _ hallow => absurd rfl (hallow r rfl)
  | drain k =>
    have hnext : ∀ x, (drainNext k x).pc.inBody = false := by
      intro x
      cases k with
      | loop => cases h
      | finalInBuf | finalSecondaryBuf => cases x <;> rfl
    cases k <;> exact fun i _ => hnext _
  | fputs k item =>
    cases k with
    | loop => cases h
    | finalInBuf | finalSecondaryBuf => exact fun i _ => rfl
  | threadInfoSet | fopen | head =>
    intro i _
    simp only
    split <;> rfl
  | finalLock | finalSwap | finalUnlock | exited => simp [code, exiting, LoggerPc.inBody]
  | _ => cases h

theorem loggerOutside_outline : PipelineOutline
    (fun t l _ _ ev => match t, l with
      | .logger, l => ∀ r, ev = .ret r → l ≠ .goto .lock
      | _, _ => True)
    (LoggerOutside : (t : Thread ω) → Pc V t → Bool → Pipeline V → Prop) where
  own t pc o d h := by
    cases t with
    | logger => exact Logger.outside h
    | _ => exact Instr.post_of_forall (fun _ _ _ => trivial) _
  others t u htu pc pc' k p a next file h _ _ := by
    cases t <;> exact h
  killed t pc k p h := by
    cases t <;> exact h

theorem Run.logger_outside (hs : Run UnlocksWithLoopLockPending s) :
    (s.loc .logger).pc.inBody = false := by
  refine Run.pipeline loggerOutside_outline (fun t => ?_) (fun s lab _ hok t ev hev => ?_) hs
    .logger
  · cases t <;> trivial
  · cases t with
    | logger =>
      rintro r rfl
      exact hok.2 r hev
    | _ => trivial

theorem Run.logger_staysOut (hs : Run UnlocksWithLoopLockPending s) :
    Run (fun s lab => (program ω V).UnlocksSucceed s lab ∧ LoggerStaysOut s lab) s := by
  refine Reach.mono hs fun s lab hs hok => ⟨hok.1, fun r hr hcalls => ?_⟩
  have houtside := Run.logger_outside hs
  have hlock := hok.2 r hr
  generalize hl : s.loc .logger = l at *
  obtain ⟨calls, pc⟩ := l
  cases pc with
  | lock =>
    cases hcalls
    exact absurd rfl hlock
  | wait tp => cases houtside
  | _ => trivial

theorem logger_exclusive (hs : Run UnlocksWithLoopLockPending s) : LoggerExclusive s := by
  have howns := Run.logger_ownership (fun _ _ h => h) hs.logger_staysOut
  have houtside := hs.logger_outside
  have hhead : ∀ pc, s.loc .logger = .goto pc → pc = .head ∨ pc = .exited →
      s.owner .gInMtx ≠ some .logger := by
    rintro pc hpc hcase howner
    rw [hpc] at howns
    rcases hcase with rfl | rfl <;>
      rcases (howns.owns.mem_iff .gInMtx trivial).1 (.inl howner) with h | h <;> cases h
  refine ⟨fun pc hpc hready hcritical => ?_, fun hpc => hhead _ hpc (.inl rfl),
    fun hpc => hhead _ hpc (.inr rfl)⟩
  rw [hpc] at howns houtside
  rw [← mem_held_of_ready hready]
  obtain rfl | rfl := LoggerPc.final_of_critical hcritical houtside
  · exact (howns.owns.mem_iff .gInMtx trivial).2 (.inl rfl)
  · exact (howns.owns.mem_iff .gInMtx trivial).2 (.inl rfl)

/-- The kill switch is on when the logger reaches its main loop. -/
theorem logger_exclusive_flush : ∃ s : SysState Empty ℚ,
    (s.loc .logger).pc = .exited ∧ s.data.log.written.length = 1 ∧ LoggerExclusive s := by
  have hrun : ∃ s : SysState Empty ℚ, Run UnlocksWithLoopLockPending s ∧
      (decide ((s.loc .logger).pc = .exited) && s.data.log.written.length == 1) = true := by
    refine Run.play (fun s _ => decide ((s.loc .logger).pc ≠ .lock)) (fun s lab hn hg => ?_)
      (steps .logger 2 (.userIdle 0 0) ++ [.env .signal] ++ steps .logger 14 (.userIdle 0 0)) ?_
    · refine ⟨hn.unlocksSucceed, fun r _ hlock => ?_⟩
      rw [hlock] at hg
      cases hg
    · decide +kernel
  obtain ⟨s, hs, hcheck⟩ := hrun
  simp only [Bool.and_eq_true, decide_eq_true_eq, beq_iff_eq] at hcheck
  exact ⟨s, hcheck.1, hcheck.2, logger_exclusive hs⟩

/-- The logger reads the clock and goes on to the test of the input buffer. -/
theorem Run.logger_timePoint (hs : Run (program ω V).UnlocksSucceed s)
    (hpc : s.loc .logger = .goto .timePoint) (hready : s.status .logger = .ready) :
    ∃ s', Run (program ω V).UnlocksSucceed s' ∧
      s'.loc .logger = .goto (.isEmpty (timePointMs (timespecGet s.data.clock)
        Logger.condvarWaitTimeMs)) ∧
      s'.status .logger = .ready ∧ s'.owner = s.owner := by
  have hcode : (program ω V).code .logger (s.loc .logger) =
      .act (.timePointMs Logger.condvarWaitTimeMs) fun tp => .goto (.isEmpty tp) := by
    rw [hpc]
    rfl
  refine ⟨_, hs.next ?_ (.act (i := Input.succeeding (ProcStat.userIdle 0 0)) hready hcode), ?_⟩
  · intro t ev hev
    cases hev
    rw [hcode]
    trivial
  · exact ⟨by simp [program, Data.perform], by simpa using hready, by simp⟩

/-- Every step by which a lock attempt of the main loop returns leads to a violation. -/
theorem not_logger_exclusive_of_return (hs : Run UnlocksWithLoopLockPending s)
    (hlock : s.loc .logger = .goto .lock) (hstep : Step (program ω V) s (.ret .logger r) s') :
    ∃ s'', Run (program ω V).UnlocksSucceed s'' ∧ ¬LoggerExclusive s'' := by
  have howns := Run.logger_ownership (fun _ _ h => h) hs.logger_staysOut
  have hrun : Run (program ω V).UnlocksSucceed s := Reach.mono hs fun _ _ _ h => h.1
  have hcode : (program ω V).code .logger (s.loc .logger) =
      .call (.tryLock .gInMtx Logger.mutexWaitTimeMs)
        fun r => if r ≠ .success then .goto .timePoint else .goto .head := by
    rw [hlock]
    rfl
  have hok : (program ω V).UnlocksSucceed s (.ret .logger r) := by
    intro t ev hev
    cases hev
    rw [hcode]
    trivial
  have hrun' : Run (program ω V).UnlocksSucceed s' := hrun.next hok hstep
  cases hstep with
  | @lock t m ms next hready hc hfree =>
    rw [hcode] at hc
    cases hc
    refine ⟨_, hrun', fun h => h.head ?_ ?_⟩
    · simp
    · simp
  | @lockFailed t m ms next r hready hc hne =>
    rw [hcode] at hc
    cases hc
    have hfree : s.owner .gInMtx ≠ some .logger := by
      intro howner
      rw [hlock] at howns
      rcases (howns.owns.mem_iff .gInMtx trivial).1 (.inl howner) with h | h <;> cases h
    simp only [if_pos hne] at hrun'
    obtain ⟨s'', hrun'', hloc, hready'', howner⟩ :=
      Run.logger_timePoint hrun' (by simp) (by simpa using hready)
    exact ⟨s'', hrun'', fun h => hfree (howner ▸ h.critical _ hloc hready'' rfl)⟩
  | unlock _ hc | unlockFailed _ hc =>
    rw [hcode] at hc
    cases hc

/-- The first lock attempt succeeds. -/
theorem logger_owns_at_head :
    ∃ s : SysState Empty ℚ, Run (program Empty ℚ).Nominal s ∧ ¬LoggerExclusive s := by
  have hrun : ∃ s : SysState Empty ℚ, Run (program Empty ℚ).Nominal s ∧
      (decide ((s.loc .logger).pc = .head) && (s.loc .logger).calls.isEmpty &&
        decide (s.owner .gInMtx = some .logger)) = true := by
    apply Run.play (fun _ _ => true) (fun _ _ h _ => h) (steps .logger 9 (.userIdle 0 0))
    decide +kernel
  obtain ⟨s, hs, hcheck⟩ := hrun
  simp only [Bool.and_eq_true, decide_eq_true_eq, List.isEmpty_iff] at hcheck
  obtain ⟨⟨hpc, hcalls⟩, howner⟩ := hcheck
  refine ⟨s, hs, fun h => h.head ?_ howner⟩
  generalize s.loc .logger = l at *
  cases l
  cases hpc
  cases hcalls
  rfl

end CpuUsageTracker
