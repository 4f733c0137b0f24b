import CpuUsageTracker.System
import CpuUsageTracker.TimespecArithmetic

/-!
# The watchdog's verdict

From the moment at which `WatchdogThread` is about to set its own timestamp, an iteration of its
loop takes five instructions if it raises the kill switch and two if it does not.

**Theorem (`watchdog_verdict`).** Let the timestamps and the watchdog's reading of the clock be
normalised, in any order. If the kill switch is off and nobody else activates it or touches
`g_timestamps`, the iteration ends, and it has raised the kill switch exactly if some timestamp is
more than two seconds older than the reading, and then names a thread with the oldest timestamp.

`IterationPhase` is the invariant: at each instruction of the iteration, what the thread knows. The
verdict itself is `Watchdog.check_cases`, put together from what the search, the difference and
the comparison do.
-/

namespace CpuUsageTracker

open Threads

/-- Some thread has been silent for more than the time it is allowed. -/
def Overdue (now : Timespec) (timestamps : ThreadId → Timespec) : Prop :=
  ∃ t, now.nanoseconds - (timestamps t).nanoseconds > Watchdog.allowedUnresponsiveMs * 1000000

/-- No timestamp is older than the one of `t`. -/
def IsOldest (timestamps : ThreadId → Timespec) (t : ThreadId) : Prop :=
  ∀ u, (timestamps t).nanoseconds ≤ (timestamps u).nanoseconds

def ThreadId.unresponsiveLog (t : ThreadId) : Frame :=
  .log (.level ⟨.fatal, "thread \"" ++ t.name ++ "\" unresponsive, terminating"⟩)

/-- The evaluation of the loop's condition and the end of the loop. -/
def WatchdogPc.endsIteration : WatchdogPc → Bool
  | .head _ | .finalUnlock _ => true
  | _ => false

/-- The instructions that are left in the iteration, at most. -/
def WatchdogPc.left : WatchdogPc → ℕ
  | .setTimestamp _ => 5
  | .findOldest _ => 4
  | .killTest _ _ => 3
  | .retval _ => 2
  | .raise _ _ => 1
  | _ => 0

/-! ## The check -/

theorem ThreadId.mem_all (t : ThreadId) : t ∈ all := by cases t <;> simp [all]

theorem Watchdog.timestampsArray_getD (timestamps : ThreadId → Timespec) :
    ∃ t, ThreadId.all[findLowestTimespecIndex (timestampsArray timestamps)]? = some t ∧
      (timestampsArray timestamps).getD
        (findLowestTimespecIndex (timestampsArray timestamps)) ⟨0, 0⟩ = timestamps t := by
  have hlt : findLowestTimespecIndex (timestampsArray timestamps) < ThreadId.all.length := by
    have hlength : 0 < (timestampsArray timestamps).length := Nat.succ_pos _
    simpa [timestampsArray] using findLowestTimespecIndex_lt hlength
  generalize findLowestTimespecIndex (timestampsArray timestamps) = ii at *
  refine ⟨ThreadId.all[ii], List.getElem?_eq_getElem hlt, ?_⟩
  rw [List.getD_eq_getElem _ _ (by simpa [timestampsArray] using hlt)]
  simp [timestampsArray]

/-- The index names a thread with the oldest timestamp, and some thread is overdue. -/
structure Alarm (now : Timespec) (timestamps : ThreadId → Timespec) (ii : ℕ) : Prop where
  overdue : Overdue now timestamps
  oldest : ∃ t, ThreadId.all[ii]? = some t ∧ IsOldest timestamps t

theorem Watchdog.check_cases {now : Timespec} {timestamps : ThreadId → Timespec}
    (hnow : now.Normalised) (h : ∀ t, (timestamps t).Normalised) :
    (∃ ii oldest, check now timestamps = .goto (.killTest ii oldest) ∧ Alarm now timestamps ii) ∨
      ∃ timePoint, check now timestamps = .goto (.head timePoint) ∧ ¬Overdue now timestamps := by
  obtain ⟨t, hall, hget⟩ := timestampsArray_getD timestamps
  have hmem : ∀ u, timestamps u ∈ timestampsArray timestamps :=
    fun u => List.mem_map_of_mem u.mem_all
  have hnormalised : ∀ x ∈ timestampsArray timestamps, x.Normalised := by
    intro x hx
    obtain ⟨u, -, rfl⟩ := List.mem_map.1 hx
    exact h u
  have holdest : IsOldest timestamps t := by
    intro u
    rw [← hget]
    exact findLowestTimespecIndex_le hnormalised (hmem u)
  have hallowed : allowedUnresponsiveTime = ⟨2, 0⟩ := by decide
  simp only [check, hget, hallowed, timespecCompare_difference_pos_iff hnow (h t)]
  split
  · rename_i hlate
    refine .inl ⟨_, _, rfl, ⟨t, ?_⟩, t, hall, holdest⟩
    simpa [allowedUnresponsiveMs] using hlate
  · rename_i hlate
    refine .inr ⟨_, rfl, ?_⟩
    rintro ⟨u, hu⟩
    have hle := holdest u
    simp only [allowedUnresponsiveMs] at hu
    omega

/-! ## The iteration -/

variable {ω V : Type} [DecidableEq ω] [PercentageValue V]

/-- What the watchdog knows at an instruction of the iteration, given its reading of the clock and
the timestamps that others have set. The other arguments are its location, the kill switch and
`g_timestamps`. -/
inductive IterationPhase (now : Timespec) (timestamps : ThreadId → Timespec) :
    Control WatchdogPc → Bool → (ThreadId → Timespec) → Prop
  | setTimestamp : IterationPhase now timestamps (.goto (.setTimestamp now)) false timestamps
  | findOldest : IterationPhase now timestamps (.goto (.findOldest now)) false
      (Function.update timestamps .watchdog now)
  | killTest {ii oldest ts} : Alarm now (Function.update timestamps .watchdog now) ii →
      IterationPhase now timestamps (.goto (.killTest ii oldest)) false ts
  | retval {ii ts} : Alarm now (Function.update timestamps .watchdog now) ii →
      IterationPhase now timestamps (.goto (.retval ii)) false ts
  | raise {ii retval ts} : Alarm now (Function.update timestamps .watchdog now) ii →
      IterationPhase now timestamps (.goto (.raise ii retval)) false ts
  | raised {t retval ts} : Overdue now (Function.update timestamps .watchdog now) →
      IsOldest (Function.update timestamps .watchdog now) t →
      IterationPhase now timestamps ⟨[t.unresponsiveLog], .finalUnlock retval⟩ true ts
  | passed {timePoint ts} : ¬Overdue now (Function.update timestamps .watchdog now) →
      IterationPhase now timestamps (.goto (.head timePoint)) false ts

variable {now : Timespec} {timestamps ts : ThreadId → Timespec} {l : Control WatchdogPc} {k : Bool}
  {d : Data ω V}

theorem IterationPhase.exists_act (h : IterationPhase now timestamps l k ts)
    (hl : l.pc.endsIteration = false) :
    ∃ a next, (program ω V).code .watchdog l = .act a next := by
  cases h with
  | raised | passed => cases hl
  | _ => exact ⟨_, _, rfl⟩

theorem IterationPhase.post {o : Set Mutex} (h : IterationPhase now timestamps l k ts)
    (hnow : now.Normalised) (hts : ∀ t, (timestamps t).Normalised)
    (hl : l.pc.endsIteration = false) (hk : d.killSwitch = k) (hd : d.timestamps = ts) :
    ((program ω V).code .watchdog l).Post ((program ω V).perform .watchdog)
      (fun ev => ∀ i, ev = .act i → i.ok = true)
      (fun l' _ d' => IterationPhase now timestamps l' d'.killSwitch d'.timestamps ∧
        l'.pc.left < l.pc.left) o d := by
  have hset : ∀ t, (Function.update timestamps .watchdog now t).Normalised := by
    intro t
    by_cases ht : t = .watchdog
    · subst ht
      rwa [Function.update_self]
    · rw [Function.update_of_ne ht]
      exact hts t
  cases h with
  | setTimestamp =>
    intro i _
    show IterationPhase now timestamps _ d.killSwitch (Function.update d.timestamps _ _) ∧ _
    rw [hk, hd]
    exact ⟨.findOldest, Nat.lt_succ_self _⟩
  | findOldest =>
    intro i _
    show IterationPhase now timestamps (Watchdog.check now d.timestamps) d.killSwitch _ ∧
      (Watchdog.check now d.timestamps).pc.left < _
    rw [hk, hd]
    rcases Watchdog.check_cases hnow hset with ⟨ii, oldest, hcheck, halarm⟩ | ⟨tp, hcheck, hnot⟩
    · rw [hcheck]
      exact ⟨.killTest halarm, Nat.lt_succ_self _⟩
    · rw [hcheck]
      exact ⟨.passed hnot, Nat.zero_lt_succ _⟩
  | killTest halarm =>
    intro i _
    simp only [program, Data.perform, hk]
    exact ⟨.retval halarm, Nat.lt_succ_self _⟩
  | retval halarm =>
    intro i _
    simp only [program, Data.perform, hk]
    exact ⟨.raise halarm, Nat.lt_succ_self _⟩
  | @raise ii retval ts halarm =>
    intro i hi
    obtain ⟨t, ht, holdest⟩ := halarm.oldest
    have hlog : Frame.log (.level ⟨.fatal, Watchdog.unresponsive ii⟩) = t.unresponsiveLog := by
      rw [Watchdog.unresponsive, ht]
      rfl
    simp only [program, Data.perform, hi i rfl, if_true, Bool.or_true, Control.log, Control.goto,
      hlog]
    exact ⟨.raised halarm.overdue holdest, Nat.zero_lt_succ _⟩
  | raised | passed => cases hl

/-- A step within the iteration: the others neither activate the kill switch nor touch
`g_timestamps`, the watchdog has not come to the end of the iteration, and `raise` succeeds. -/
structure IterationStep (s : SysState ω V) (lab : SysLabel ω V) : Prop where
  others : lab.actor ≠ some .watchdog → ∀ s', Step (program ω V) s lab s' →
    s'.data.killSwitch = s.data.killSwitch ∧ s'.data.timestamps = s.data.timestamps
  running : lab.actor = some .watchdog → (s.loc .watchdog).pc.endsIteration = false
  raised : ∀ i, lab = .act .watchdog i → i.ok = true

/-- The states that the iteration leads to. -/
abbrev Iteration (s : SysState ω V) : SysState ω V → Prop :=
  Reach (· = s) (Step (program ω V)) IterationStep

structure InPhase (now : Timespec) (timestamps : ThreadId → Timespec) (s : SysState ω V) : Prop where
  ready : s.status .watchdog = .ready
  phase : IterationPhase now timestamps (s.loc .watchdog) s.data.killSwitch s.data.timestamps

variable {s s' : SysState ω V} {lab : SysLabel ω V}

theorem InPhase.step (h : InPhase now timestamps s) (hnow : now.Normalised)
    (hts : ∀ t, (timestamps t).Normalised) (hok : IterationStep s lab)
    (hstep : Step (program ω V) s lab s') :
    InPhase now timestamps s' ∧
      (lab.actor = some .watchdog → (s'.loc .watchdog).pc.left < (s.loc .watchdog).pc.left) := by
  by_cases hactor : lab.actor = some .watchdog
  · obtain ⟨a, next, hc⟩ := h.phase.exists_act (V := V) (hok.running hactor)
    obtain ⟨i, rfl, hready, rfl⟩ := Step.eq_act hstep hactor hc
    have hpost := h.phase.post (o := ∅) hnow hts (hok.running hactor) rfl rfl
    rw [hc] at hpost
    obtain ⟨hphase, hleft⟩ := hpost i fun j hj => by
      cases hj
      exact hok.raised i rfl
    refine ⟨⟨by simpa using hready, by simpa using hphase⟩, fun _ => by simpa using hleft⟩
  · obtain ⟨-, hstatus, hloc⟩ := Step.unchanged hstep hactor
    obtain ⟨hk, hd⟩ := hok.others hactor s' hstep
    refine ⟨⟨hstatus.2 h.ready, ?_⟩, fun h => absurd h hactor⟩
    rw [hloc, hk, hd]
    exact h.phase

/-- The watchdog alone can end the iteration. -/
theorem InPhase.ends {s₀ : SysState ω V} (hs : Iteration s₀ s) (h : InPhase now timestamps s)
    (hnow : now.Normalised) (hts : ∀ t, (timestamps t).Normalised) :
    ∃ s', Iteration s₀ s' ∧ (s'.loc .watchdog).pc.endsIteration = true := by
  induction hleft : (s.loc .watchdog).pc.left using Nat.strong_induction_on generalizing s with
  | _ n ih =>
    by_cases hend : (s.loc .watchdog).pc.endsIteration = true
    · exact ⟨s, hs, hend⟩
    · rw [Bool.not_eq_true] at hend
      obtain ⟨a, next, hc⟩ := h.phase.exists_act (V := V) hend
      have hstep := Step.act (i := Input.succeeding (ProcStat.userIdle 0 0)) h.ready hc
      have hok : IterationStep s (.act .watchdog (Input.succeeding (ProcStat.userIdle 0 0))) :=
        ⟨fun hne => absurd rfl hne, fun _ => hend, fun i hi => by cases hi; rfl⟩
      obtain ⟨h', hlt⟩ := h.step hnow hts hok hstep
      exact ih _ (hleft ▸ hlt rfl) (hs.next hok hstep) h' rfl

theorem watchdog_verdict (hloc : s.loc .watchdog = .goto (.setTimestamp now))
    (hready : s.status .watchdog = .ready) (hoff : s.data.killSwitch = false)
    (hnow : now.Normalised) (hts : ∀ t, (s.data.timestamps t).Normalised) :
    (∃ s', Iteration s s' ∧ (s'.loc .watchdog).pc.endsIteration = true) ∧
      ∀ s', Iteration s s' → (s'.loc .watchdog).pc.endsIteration = true →
        (s'.data.killSwitch = true ↔
          Overdue now (Function.update s.data.timestamps .watchdog now)) ∧
        (s'.data.killSwitch = true → ∃ t,
          IsOldest (Function.update s.data.timestamps .watchdog now) t ∧
          (s'.loc .watchdog).calls = [t.unresponsiveLog]) := by
  have hstart : InPhase now s.data.timestamps s := by
    refine ⟨hready, ?_⟩
    rw [hloc, hoff]
    exact .setTimestamp
  refine ⟨hstart.ends (.start rfl) hnow hts, fun s' hs' hend => ?_⟩
  have h : InPhase now s.data.timestamps s' := by
    refine Reach.invariant hs' ?_ fun _ _ _ _ h hok hstep => (h.step hnow hts hok hstep).1
    rintro _ rfl
    exact hstart
  obtain ⟨-, hphase⟩ := h
  generalize s'.loc .watchdog = l at *
  generalize s'.data.killSwitch = k at *
  generalize s'.data.timestamps = ts at *
  cases hphase with
  | raised hoverdue holdest => exact ⟨iff_of_true rfl hoverdue, fun _ => ⟨_, holdest, rfl⟩⟩
  | passed hnot => exact ⟨iff_of_false Bool.false_ne_true hnot, nofun⟩
  | _ => cases hend

/-- All timestamps are zero, and the watchdog reads five seconds. -/
theorem watchdog_verdict_five :
    ∃ s' : SysState Empty ℚ,
      Iteration (initialState.goto .watchdog (.goto (.setTimestamp ⟨5, 0⟩))) s' ∧
        s'.data.killSwitch = true := by
  have hzero : Timespec.Normalised ⟨0, 0⟩ := by decide
  obtain ⟨⟨s', hs', hend⟩, hall⟩ := watchdog_verdict
    (State.loc_goto_self (initialState : SysState Empty ℚ) .watchdog (.goto (.setTimestamp ⟨5, 0⟩)))
    rfl rfl (by decide) fun _ => hzero
  exact ⟨s', hs', (hall s' hs' hend).1.2 ⟨.reader, by decide⟩⟩

end CpuUsageTracker
