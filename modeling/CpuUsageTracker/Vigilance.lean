import CpuUsageTracker.ShutdownTime

/-!
# The watchdog notices silence

`CpuUsageTracker.Responsiveness` is about threads that report. This module is about threads that do
not: because they have returned early, or because they are slow. Runs have a clock, and the
watchdog's waits return no error. (An error makes it wait once more after a call of `Log`, and
nothing bounds the number of errors.)

**Theorem (`vigilant`).** In every run, as long as the watchdog is in its loop and the kill switch
is off, no timestamp is older than `noticedMs` milliseconds.

This is the length of a wait and of the lock attempt in `Log` after it. The invariant says so of
the time at which the watchdog got to its location (`WatchdogPc.Vigilant`): it waits until two
seconds after the oldest timestamp, and timestamps only grow.
-/

namespace CpuUsageTracker

open Threads

variable {ω V : Type}

/-- No timestamp is more than `ms` milliseconds older than `n`. -/
def Recent (timestamps : ThreadId → Timespec) (ms n : ℕ) : Prop :=
  ∀ tid, n ≤ (timestamps tid).toNs + ms * 1000000

/-- The time that a thread is allowed, and a lock attempt. -/
def noticedMs : ℕ := 2050

/-- What holds while the watchdog is at a location to which it got at `since`, with `calls` to make
first. -/
def WatchdogPc.Vigilant (since : ℕ) (timestamps : ThreadId → Timespec) (calls : List Frame) :
    WatchdogPc → Prop
  | .threadInfoSet | .startTime | .finalUnlock _ | .exited _ => True
  | .lock time => calls = [] ∧ time = timespecGet since
  | .initTimestamps time => calls = [] ∧ ∃ n, time = timespecGet n ∧ since ≤ n + 50 * 1000000
  | .head tp | .wait tp =>
    calls = [] ∧ Recent timestamps 2000 since ∧ Recent timestamps 2000 tp.toNs
  | .now => Recent timestamps noticedMs (since + callsWeight Frame.ms calls * 1000000)
  | .setTimestamp time | .findOldest time =>
    calls = [] ∧ time = timespecGet since ∧ Recent timestamps noticedMs since
  | .killTest _ _ | .retval _ | .raise _ _ => calls = [] ∧ Recent timestamps noticedMs since

theorem Recent.mono {timestamps timestamps' : ThreadId → Timespec} {ms ms' m n : ℕ}
    (h : Recent timestamps ms n) (hgrow : ∀ tid, (timestamps tid).toNs ≤ (timestamps' tid).toNs)
    (hms : ms ≤ ms') (hmn : m ≤ n) : Recent timestamps' ms' m := by
  intro tid
  have htid := h tid
  have hle := hgrow tid
  have hmul := Nat.mul_le_mul_right 1000000 hms
  omega

/-- Others may set timestamps to later times. -/
theorem WatchdogPc.Vigilant.mono {timestamps timestamps' : ThreadId → Timespec} {since : ℕ}
    {calls : List Frame} {pc : WatchdogPc} (h : pc.Vigilant since timestamps calls)
    (hgrow : ∀ tid, (timestamps tid).toNs ≤ (timestamps' tid).toNs) :
    pc.Vigilant since timestamps' calls := by
  cases pc with
  | threadInfoSet | startTime | finalUnlock | exited => trivial
  | lock | initTimestamps => exact h
  | head tp | wait tp =>
    exact ⟨h.1, h.2.1.mono hgrow (le_refl _) (le_refl _), h.2.2.mono hgrow (le_refl _) (le_refl _)⟩
  | now => exact Recent.mono h hgrow (le_refl _) (le_refl _)
  | setTimestamp | findOldest =>
    exact ⟨h.1, h.2.1, h.2.2.mono hgrow (le_refl _) (le_refl _)⟩
  | killTest | retval | raise => exact ⟨h.1, h.2.mono hgrow (le_refl _) (le_refl _)⟩

/-- A wait of the watchdog returns without an error. -/
@[simp] def Call.WatchdogWaits : Thread ω → Call Mutex CondVar Timespec → ThrdResult → Prop
  | .watchdog, .waitUntil _ _ _, r => r ≠ .error
  | _, _, _ => True

instance : (t : Thread ω) → (c : Call Mutex CondVar Timespec) → (r : ThrdResult) →
    Decidable (Call.WatchdogWaits t c r)
  | .watchdog, .waitUntil _ _ _, r => inferInstanceAs (Decidable (r ≠ .error))
  | .watchdog, .tryLock _ _, _ | .watchdog, .unlock _, _ | .watchdog, .notify _, _
  | .reader, _, _ | .analyzer, _, _ | .printer, _, _ | .logger, _, _ | .other _, _, _ =>
    isTrue trivial

variable [DecidableEq ω] [PercentageValue V]

/-- The watchdog's waits return without errors. -/
def WatchdogWaits (x : TimedState ω V) (lab : SysLabel ω V) : Prop :=
  (program ω V).EveryReturn (fun _ t => Call.WatchdogWaits t) x.sys lab

instance (x : TimedState ω V) (lab : SysLabel ω V) : Decidable (WatchdogWaits x lab) :=
  inferInstanceAs (Decidable ((program ω V).EveryReturn _ x.sys lab))

variable {d : Data ω V} {since : ℕ} {o : Set Mutex}

omit [DecidableEq ω] [PercentageValue V] in
/-- A wait is over by the end of its time point, or was never one. -/
theorem WatchdogPc.Vigilant.recent {tp : Timespec} {n : ℕ} {calls : List Frame}
    (h : (WatchdogPc.wait tp).Vigilant since d.timestamps calls) (hn : n ≤ max since tp.toNs) :
    Recent d.timestamps 2000 n := by
  intro tid
  have hsince := h.2.1 tid
  have htp := h.2.2 tid
  omega

/-! ## The instructions of the watchdog -/

omit [DecidableEq ω] [PercentageValue V] in
/-- The comparison finds every timestamp recent, or else the thread is about to raise `SIGTERM`. -/
theorem Watchdog.check_vigilant (hd : Stamped d) {n : ℕ} (hn : Recent d.timestamps noticedMs n) :
    (check (timespecGet n) d.timestamps).pc.Vigilant n d.timestamps
      (check (timespecGet n) d.timestamps).calls := by
  obtain ⟨t, -, hget⟩ := timestampsArray_getD d.timestamps
  obtain ⟨k, -, hk⟩ := hd t
  have holdest : ∀ tid, k ≤ (d.timestamps tid).toNs := by
    intro tid
    have hle := Watchdog.oldest_le (fun tid => hd.normalised tid) tid
    rw [oldest, hget, hk, nanoseconds_timespecGet] at hle
    show k ≤ (d.timestamps tid).nanoseconds.toNat
    omega
  have hallowed : allowedUnresponsiveTime = ⟨2, 0⟩ := by decide
  have hiff := timespecCompare_difference_pos_iff (normalised_timespecGet n)
    (normalised_timespecGet k) 2
  simp only [nanoseconds_timespecGet, ← hallowed] at hiff
  simp only [check, hget, hk, hiff]
  split
  · exact ⟨rfl, hn⟩
  · rename_i hlate
    refine ⟨rfl, fun tid => ?_, fun tid => ?_⟩
    · have hle := holdest tid
      omega
    · have hle := holdest tid
      have hadd := toNs_timespecAdd_le k
      have hns : allowedNs = 2000 * 1000000 := rfl
      omega

/-- The instructions of `WatchdogThread`, each executed before its deadline. -/
theorem Watchdog.vigilant_next {pc : WatchdogPc}
    (h : pc.Vigilant since d.timestamps []) (hd : Stamped d) (hsince : since ≤ d.clock)
    (hdue : ∀ due ∈ (clock ω V).deadline since (code pc : Code V (Control WatchdogPc)),
      d.clock ≤ due) :
    (code pc : Code V (Control WatchdogPc)).Post (Data.perform (.watchdog : Thread ω))
      (fun ev => (code pc : Code V (Control WatchdogPc)).OnReturn
        (Call.WatchdogWaits (.watchdog : Thread ω)) ev)
      (fun l _ d => d.killSwitch = false → l.pc.Vigilant d.clock d.timestamps l.calls) o d := by
  cases pc with
  | threadInfoSet =>
    intro i _
    simp only
    split <;> exact fun _ => trivial
  | startTime => exact fun i _ _ => ⟨rfl, rfl⟩
  | lock time =>
    obtain ⟨-, htime⟩ := h
    have hclock : d.clock ≤ since + 50 * 1000000 := hdue _ rfl
    intro r _ _ _
    cases r with
    | success => exact ⟨rfl, since, htime, hclock⟩
    | timedout | error => trivial
  | initTimestamps time =>
    obtain ⟨-, n, rfl, hle⟩ := h
    have hclock : d.clock ≤ since := hdue _ rfl
    have hadd := toNs_timespecAdd_le n
    have hns : allowedNs = 2000 * 1000000 := rfl
    refine fun i _ _ => ⟨rfl, fun _ => ?_, fun _ => ?_⟩
    · show d.clock ≤ (timespecGet n).toNs + 2000 * 1000000
      rw [toNs_timespecGet]
      omega
    · show (timespecAdd (timespecGet n) allowedUnresponsiveTime).toNs ≤
        (timespecGet n).toNs + 2000 * 1000000
      rw [toNs_timespecGet]
      omega
  | head tp =>
    obtain ⟨-, hrecent, htp⟩ := h
    have hclock : d.clock ≤ since := hdue _ rfl
    intro i _ hk
    have hoff : d.killSwitch = false := hk
    simp only [Data.perform, hoff]
    exact ⟨rfl, hrecent.mono (fun _ => le_refl _) (le_refl _) hclock, htp⟩
  | wait tp =>
    have hrecent := h.recent (hdue _ rfl)
    intro r _ hr _
    cases r with
    | error => exact absurd rfl hr
    | success =>
      intro tid
      have htid := hrecent tid
      show d.clock + 0 * 1000000 ≤ (d.timestamps tid).toNs + 2050 * 1000000
      omega
    | timedout =>
      intro tid
      have htid := hrecent tid
      show d.clock + 50 * 1000000 ≤ (d.timestamps tid).toNs + 2050 * 1000000
      omega
  | now =>
    have hclock : d.clock ≤ since := hdue _ rfl
    refine fun i _ _ => ⟨rfl, rfl, Recent.mono h (fun _ => le_refl _) (le_refl _) ?_⟩
    exact hclock.trans (Nat.le_add_right _ _)
  | setTimestamp time =>
    obtain ⟨-, rfl, hrecent⟩ := h
    obtain rfl : since = d.clock := le_antisymm hsince (hdue _ rfl)
    refine fun i _ _ => ⟨rfl, rfl, fun tid => ?_⟩
    show d.clock ≤ (Function.update d.timestamps .watchdog (timespecGet d.clock) tid).toNs + _
    by_cases htid : tid = .watchdog
    · subst htid
      rw [Function.update_self, toNs_timespecGet]
      exact Nat.le_add_right _ _
    · rw [Function.update_of_ne htid]
      exact hrecent tid
  | findOldest time =>
    obtain ⟨-, rfl, hrecent⟩ := h
    obtain rfl : since = d.clock := le_antisymm hsince (hdue _ rfl)
    exact fun i _ _ => check_vigilant hd hrecent
  | killTest iiOldest oldest =>
    have hclock : d.clock ≤ since := hdue _ rfl
    intro i _ hk
    have hoff : d.killSwitch = false := hk
    simp only [Data.perform, hoff]
    exact ⟨rfl, h.2.mono (fun _ => le_refl _) (le_refl _) hclock⟩
  | retval iiOldest =>
    have hclock : d.clock ≤ since := hdue _ rfl
    exact fun i _ _ => ⟨rfl, h.2.mono (fun _ => le_refl _) (le_refl _) hclock⟩
  | raise iiOldest retval =>
    intro i _
    simp only
    split <;> exact fun _ => trivial
  | finalUnlock retval =>
    intro r _ _ _
    cases r <;> trivial
  | exited => trivial

/-! ## The calls of the watchdog, and the other threads -/

omit [PercentageValue V] in
theorem Stamped.grow {u : Thread ω} {a : Act V} {i : Input V} (h : Stamped d)
    (ha : a.setsTimestamps = false) (tid : ThreadId) :
    (d.timestamps tid).toNs ≤ ((d.perform u a i).1.timestamps tid).toNs := by
  rcases Data.timestamps_perform (u := u) (i := i) ha tid with htid | htid
  · rw [htid]
  · obtain ⟨n, hn, htid'⟩ := h tid
    rw [htid, htid', toNs_timespecGet, toNs_timespecGet]
    exact hn

/-- A call of `Log` takes its time, and only at the reading of the clock the watchdog makes one. -/
theorem WatchdogPc.Vigilant.next_call {pc : WatchdogPc} {f : Frame} {fs : List Frame}
    (h : pc.Vigilant since d.timestamps (f :: fs)) (hd : Stamped d)
    (hdue : ∀ due ∈ (clock ω V).deadline since (f.code : Code V (List Frame)), d.clock ≤ due) :
    (f.code : Code V (List Frame)).Post (Data.perform (.watchdog : Thread ω)) (fun _ => True)
      (fun gs _ d => pc.Vigilant d.clock d.timestamps (gs ++ fs)) o d := by
  obtain ⟨due, hdeadline, hle⟩ := f.deadline (ω := ω) (V := V) since
  have hclock := hdue due hdeadline
  have hkeep : ∀ gs timestamps', ownMs (f.code : Code V (List Frame)) +
      callsWeight Frame.ms gs ≤ f.ms →
      (∀ tid, (d.timestamps tid).toNs ≤ (timestamps' tid).toNs) →
      pc.Vigilant d.clock timestamps' (gs ++ fs) := by
    intro gs timestamps' hms hgrow
    cases pc with
    | threadInfoSet | startTime | finalUnlock | exited => trivial
    | now =>
      refine Recent.mono h hgrow (le_refl _) ?_
      rw [callsWeight_append, callsWeight_cons]
      omega
    | lock | initTimestamps | head | wait | setTimestamp | findOldest | killTest | retval
    | raise => exact absurd h.1 (List.cons_ne_nil _ _)
  have hlasts := (f.lasts (t := (.watchdog : Thread ω)) (d := d)).of_empty (o := o) fun _ h => h
  cases hf : (f.code : Code V (List Frame)) with
  | call c next =>
    rw [hf] at hlasts hkeep
    exact fun r hr _ => hkeep _ _ (hlasts r hr trivial) fun _ => le_refl _
  | act a next =>
    rw [hf] at hlasts hkeep
    intro i _
    show pc.Vigilant (d.perform .watchdog a i).1.clock _ _
    rw [Data.clock_perform]
    exact hkeep _ _ (hlasts i trivial) (hd.grow (Frame.setsTimestamps hf))
  | sleep ms next =>
    rw [hf] at hlasts hkeep
    exact hkeep _ _ hlasts fun _ => le_refl _
  | exit => trivial

/-! ## Runs -/

variable {ok : TimedState ω V → SysLabel ω V → Prop} {x x' : TimedState ω V} {lab : SysLabel ω V}

/-- The watchdog's annotation in a state of a run with a clock. -/
def Vigilance (x : TimedState ω V) : Prop :=
  x.sys.data.killSwitch = false →
    (x.sys.loc .watchdog).pc.Vigilant (x.since .watchdog) x.sys.data.timestamps
      (x.sys.loc .watchdog).calls

/-- The watchdog's own steps. -/
theorem Vigilance.own (h : Vigilance x) (hx : TimedRun ok x) (hok : WatchdogWaits x lab)
    (hstep : TimedStep (clock ω V) reports x lab x') (hactor : lab.actor = some .watchdog) :
    Vigilance x' := by
  intro hk
  have hoff := Step.killSwitch_eq_false hstep.step hk
  have hrun : Run (fun _ _ => True) x.sys := hx.untimed fun _ _ _ => trivial
  have hstamped := (hrun.times .watchdog).1
  have hsince : x.since .watchdog ≤ x.sys.data.clock := hx.since_le _
  have hclock : x'.since .watchdog = x'.sys.data.clock := by
    have hnow := hstep.step.now_eq (c := clock ω V) fun e he => by
      rw [he] at hactor
      cases hactor
    rw [hstep.since, if_pos hactor]
    exact hnow.symm
  have hdue := hx.on_time .watchdog
  have hreturn := hok .watchdog
  have hvigilant := h hoff
  rw [hclock]
  unfold Clock.due at hdue
  refine hstep.step.post (Q := fun l _ d => d.killSwitch = false →
    l.pc.Vigilant d.clock d.timestamps l.calls) hactor hreturn (fun _ m hm _ => ?_) ?_ hk
  · generalize x.sys.loc .watchdog = l at *
    obtain ⟨calls, pc⟩ := l
    cases calls with
    | nil =>
      cases pc with
      | wait tp => exact ⟨rfl, hvigilant.recent (hdue _ rfl), hvigilant.2.2⟩
      | _ => cases hm
    | cons f fs =>
      rw [program_code_cons, Instr.waitsWith_map] at hm
      exact absurd hm (f.not_waits m)
  · generalize x.sys.loc .watchdog = l at *
    obtain ⟨calls, pc⟩ := l
    cases calls with
    | nil => exact Watchdog.vigilant_next hvigilant hstamped hsince hdue
    | cons f fs =>
      rw [program_code_cons, Clock.deadline_map] at hdue
      rw [program_code_cons, Instr.post_map]
      exact (hvigilant.next_call hstamped hdue).mono (fun _ _ _ h _ => h) fun _ _ => trivial

/-- The steps of the other threads, and of the environment. -/
theorem Vigilance.others (h : Vigilance x) (hx : TimedRun ok x)
    (hstep : TimedStep (clock ω V) reports x lab x') (hactor : lab.actor ≠ some .watchdog) :
    Vigilance x' := by
  intro hk
  have hvigilant := h (Step.killSwitch_eq_false hstep.step hk)
  have hrun : Run (fun _ _ => True) x.sys := hx.untimed fun _ _ _ => trivial
  rw [(hstep.step.unchanged hactor).2.2, hstep.since, if_neg hactor]
  rcases hstep.step.data_cases with hdata | ⟨u, i, a, next, rfl, hc, hdata⟩ | ⟨e, rfl, hdata⟩
  · rw [hdata]
    exact hvigilant
  · have hu : u ≠ .watchdog := fun hu => hactor (congrArg some hu)
    rw [hdata]
    exact hvigilant.mono ((hrun.times .watchdog).1.grow (program_setsTimestamps hu hc))
  · rw [hdata]
    cases e <;> exact hvigilant

theorem TimedRun.vigilance (hok : ∀ x lab, ok x lab → WatchdogWaits x lab) (hx : TimedRun ok x) :
    Vigilance x := by
  refine hx.invariant (I := Vigilance) ?_ fun x lab x' hx h hxlab hstep => ?_
  · rintro x ⟨s, hs, rfl⟩ -
    rw [Clock.start, hs.2.1]
    trivial
  · by_cases hactor : lab.actor = some .watchdog
    · exact h.own hx (hok _ _ hxlab) hstep hactor
    · exact h.others hx hstep hactor

/-- The clock does not get away from the timestamps. -/
theorem vigilant (hok : ∀ x lab, ok x lab → WatchdogWaits x lab) (hx : TimedRun ok x)
    (hk : x.sys.data.killSwitch = false)
    (hwatches : (x.sys.loc .watchdog).pc.watches = true) :
    Recent x.sys.data.timestamps noticedMs ((clock ω V).time x) := by
  have hvigilant := hx.vigilance hok hk
  have hdue := hx.on_time .watchdog
  unfold Clock.due at hdue
  generalize x.sys.loc .watchdog = l at *
  obtain ⟨calls, pc⟩ := l
  cases pc with
  | threadInfoSet | startTime | lock | initTimestamps | finalUnlock | exited => cases hwatches
  | head tp =>
    obtain ⟨rfl, hrecent, -⟩ := hvigilant
    exact hrecent.mono (fun _ => le_refl _) (by decide) (hdue _ rfl)
  | wait tp =>
    obtain rfl : calls = [] := hvigilant.1
    exact (hvigilant.recent (hdue _ rfl)).mono (fun _ => le_refl _) (by decide) (le_refl _)
  | now =>
    refine Recent.mono hvigilant (fun _ => le_refl _) (le_refl _) ?_
    cases calls with
    | nil => exact (hdue _ rfl).trans (Nat.le_add_right _ _)
    | cons f fs =>
      obtain ⟨due, hdeadline, hle⟩ := f.deadline (ω := ω) (V := V) (x.since .watchdog)
      have hown := ownMs_le (f.lasts (t := (.watchdog : Thread ω)) (d := x.sys.data))
      have htime := hdue due (by rwa [program_code_cons, Clock.deadline_map])
      rw [callsWeight_cons]
      omega
  | setTimestamp | findOldest =>
    obtain ⟨rfl, -, hrecent⟩ := hvigilant
    exact hrecent.mono (fun _ => le_refl _) (le_refl _) (hdue _ rfl)
  | killTest | retval | raise =>
    obtain ⟨rfl, hrecent⟩ := hvigilant
    exact hrecent.mono (fun _ => le_refl _) (le_refl _) (hdue _ rfl)

end CpuUsageTracker
