import CpuUsageTracker.Identity
import CpuUsageTracker.ReportIntervals

/-!
# When the watchdog is right to be silent

A timeout for each call is not enough (`printer_raises_alarm`). What is enough are shorter calls.

**Theorem (`no_false_alarm`).** Let the calls of the workers take no longer than some `Durations`
permit while the kill switch is off, and let the lock attempts in `Watchdog_reportActive` succeed
then. If the durations add up, for every worker, to at most `WATCHDOG_ALLOWED_UNRESPONSIVE_MS`
(`Durations.Fit`), then two consecutive reports of a worker are at most that far apart, and the
watchdog does not raise `SIGTERM`.

Added up are one round (`Durations.roundMs`), the lock attempt of the next report, and the lock
attempt before which the watchdog reads the clock for the first timestamps. It is enough, for
example, that the reader waits at most 850 milliseconds for room, the analyzer at most 650
milliseconds in each of its loops, and the printer and the logger at most 1550 milliseconds for
something to do, even if every lock attempt takes as long as its timeout (`Durations.generous`).

The timestamps follow from the reports: a worker sets its timestamp at most one lock attempt after
its report (`Durations.stampLimit`). The watchdog compares them at the time at which it has read
the clock (`WatchdogPc.At`).
-/

namespace CpuUsageTracker

open Threads

variable {ω V : Type} [DecidableEq ω] [PercentageValue V]

/-- The time for which a worker's timestamp may stay the same. -/
def Durations.stampMs (b : Durations) (w : Worker) : ℕ := b.roundMs w + b.lock

/-- The durations add up to what the watchdog allows. -/
def Durations.Fit (b : Durations) : Prop :=
  ∀ w, b.stampMs w + Watchdog.mutexWaitTimeMs ≤ Watchdog.allowedUnresponsiveMs

instance (b : Durations) : Decidable b.Fit :=
  inferInstanceAs (Decidable (∀ w, b.stampMs w + Watchdog.mutexWaitTimeMs ≤ _))

/-- Lock attempts may take as long as their timeouts. -/
def Durations.generous : Durations where
  lock := maxLockTimeMs
  reader := 850
  analyzerIn := 650
  analyzerOut := 650
  printer := 1550
  logger := 1550

example : Durations.generous.Fit := by decide

/-- While the kill switch is off, the workers' calls take no longer than `b` permits, and their lock
attempts in `Watchdog_reportActive` succeed. -/
structure Durations.Respected (b : Durations) (x : TimedState ω V) (lab : SysLabel ω V) : Prop where
  kept : b.Kept x lab
  locks : x.sys.data.killSwitch = false → ∀ (w : Worker) r, lab.event = some (w.thread, .ret r) →
    ∀ tid, (x.sys.loc w.thread).calls.head? = some (.report (.lock tid)) → r = .success

variable {b : Durations} {x x' : TimedState ω V} {lab : SysLabel ω V} {w : Worker}

/-! ## When a worker sets its timestamp -/

/-- By when a thread sets its timestamp that got to `l` at `since`. -/
def Durations.stampLimit (b : Durations) (t : Thread ω) (l : Loc V t) (since : ℕ) : ℕ :=
  match l.calls with
  | .report (.stamp _) :: _ => since
  | .report .threadInfo :: _ | .report (.lock _) :: _ => since + b.lock * 1000000
  | _ => b.limit t l since + b.lock * 1000000

omit [DecidableEq ω] [PercentageValue V] in
theorem Durations.stampLimit_le (t : Thread ω) (l : Loc V t) (since : ℕ) :
    b.stampLimit t l since ≤ b.limit t l since + b.lock * 1000000 := by
  have hle := b.le_limit_self t l since
  unfold stampLimit
  split
  · exact hle.trans (Nat.le_add_right _ _)
  · exact Nat.add_le_add_right hle _
  · exact Nat.add_le_add_right hle _
  · exact le_refl _

theorem Durations.InTime.le_stampLimit {l : Loc V (w.thread : Thread ω)} {since now : ℕ}
    (hin : b.InTime w.thread l since now) : now ≤ b.stampLimit w.thread l since := by
  have hlimit := hin.le_limit
  have hcall := hin.call
  obtain ⟨calls, pc⟩ := l
  unfold stampLimit
  split <;> rename_i hcalls
  · obtain rfl : calls = _ := hcalls
    exact hcall 0 rfl
  · exact (hcall 0 (by obtain rfl : calls = _ := hcalls; rfl)).trans (Nat.le_add_right _ _)
  · obtain rfl : calls = _ := hcalls
    exact hcall _ rfl
  · exact hlimit.trans (Nat.le_add_right _ _)

omit [DecidableEq ω] in
/-- What the thread of a worker is known as. -/
theorem Worker.info (w : Worker) :
    ∃ info, (w.thread : Thread ω).info = some info ∧ info.tid = w.tid := by
  cases w <;> exact ⟨_, rfl, rfl⟩

/-- A worker's own step does not move its next timestamp back, unless it sets it. -/
theorem stampLimit_step (hx : TimedRun b.Respected x) (hok : b.Respected x lab)
    (hk : x.sys.data.killSwitch = false) (hstep : TimedStep (clock ω V) reports x lab x')
    (hactor : lab.actor = some w.thread)
    (hstamp : ∀ tid, (x.sys.loc w.thread).calls.head? ≠ some (.report (.stamp tid))) :
    b.stampLimit w.thread (x'.sys.loc w.thread) ((clock ω V).time x) ≤
      b.stampLimit w.thread (x.sys.loc w.thread) (x.since w.thread) := by
  have hrun : Run (fun _ _ => True) x.sys := hx.untimed fun _ _ _ => trivial
  have hin := hx.inTime (fun _ _ h => h.kept) hk w
  obtain ⟨info, hinfo, -⟩ := w.info (ω := ω)
  have hknown := hrun.known hinfo
  have hlocks := fun r hev => hok.locks hk w r hev
  have hlimit := limit_step (fun _ _ h => h.kept) hx hk hstep hactor
  have hpost := fun Q (allow : Event (Input V) → Prop)
    (hallow : ∀ ev, lab.event = some (w.thread, ev) → allow ev) =>
      hstep.step.post (Q := Q) hactor hallow
  generalize x.sys.loc w.thread = l at *
  obtain ⟨calls, pc⟩ := l
  -- outside of `Watchdog_reportActive`, the next report comes first
  have hother : (⟨calls, pc⟩ : Loc V (w.thread : Thread ω)).reports = false →
      b.stampLimit w.thread ⟨calls, pc⟩ (x.since w.thread) =
        b.limit w.thread ⟨calls, pc⟩ (x.since w.thread) + b.lock * 1000000 →
      b.stampLimit w.thread (x'.sys.loc w.thread) ((clock ω V).time x) ≤
        b.stampLimit w.thread ⟨calls, pc⟩ (x.since w.thread) := by
    intro hreports heq
    rw [heq]
    exact (Durations.stampLimit_le _ _ _).trans (Nat.add_le_add_right (hlimit hreports) _)
  cases calls with
  | nil => exact hother rfl rfl
  | cons f fs =>
    cases f with
    | log f => exact hother rfl rfl
    | report f =>
      cases f with
      | threadInfo =>
        have hnow := hin.call 0 rfl
        refine hpost (fun l _ _ => b.stampLimit w.thread l ((clock ω V).time x) ≤
          b.stampLimit w.thread ⟨.report .threadInfo :: fs, pc⟩ (x.since w.thread)) (fun _ => True)
          (fun _ _ => trivial) (fun _ m hm => hm.elim) ?_
        rw [program_code_cons, Instr.post_map]
        intro i _
        have hsome : ((program ω V).perform w.thread .threadInfoGet i x.sys.data).2 = some info :=
          hknown (List.cons_ne_nil _ _)
        rw [hsome]
        exact Nat.add_le_add_right hnow _
      | lock tid =>
        have hnow := hin.call b.lock rfl
        refine hpost (fun l _ _ => b.stampLimit w.thread l ((clock ω V).time x) ≤
          b.stampLimit w.thread ⟨.report (.lock tid) :: fs, pc⟩ (x.since w.thread))
          (fun ev => ∀ r, ev = .ret r → r = .success)
          (fun ev hev r hr => hlocks r (hr ▸ hev) tid rfl) (fun _ m hm => hm.elim) ?_
        rw [program_code_cons, Instr.post_map]
        simp only [Frame.code, ReportPc.code, Instr.post_tryLock]
        refine ⟨fun _ _ => ?_, fun hr => ?_, fun hr => ?_⟩
        · exact hnow
        · cases hr _ rfl
        · cases hr _ rfl
      | stamp tid => exact absurd rfl (hstamp tid)
      | unlock | notify => exact hother rfl rfl

/-- `n` is no more than one lock attempt of the watchdog after the worker's timestamp, once the
watchdog is in its loop. -/
def StampedAfter (w : Worker) (n : ℕ) (watches : Bool) (d : Data ω V) : Prop :=
  watches = true → n ≤ (d.timestamps w.tid).toNs + Watchdog.mutexWaitTimeMs * 1000000

/-- The worker sets its timestamp again in time. -/
def Durations.Stamps (b : Durations) (w : Worker) (x : TimedState ω V) : Prop :=
  ∃ n ≤ (clock ω V).time x,
    b.stampLimit w.thread (x.sys.loc w.thread) (x.since w.thread) ≤ n + b.stampMs w * 1000000 ∧
    StampedAfter w n (x.sys.loc .watchdog).pc.watches x.sys.data

/-- Within the bounds, a timestamp is recent. -/
theorem Durations.Stamps.recent (hb : b.Fit) (hx : TimedRun b.Respected x)
    (hk : x.sys.data.killSwitch = false) (h : b.Stamps w x)
    (hwatches : (x.sys.loc .watchdog).pc.watches = true) :
    x.sys.data.clock ≤ (x.sys.data.timestamps w.tid).toNs + allowedNs := by
  obtain ⟨n, -, hlimit, hstamp⟩ := h
  have hin := (hx.inTime (fun _ _ h => h.kept) hk w).le_stampLimit
  have hfit := Nat.mul_le_mul_right 1000000 (hb w)
  rw [Nat.add_mul] at hfit
  calc x.sys.data.clock
      ≤ n + b.stampMs w * 1000000 := hin.trans hlimit
    _ ≤ (x.sys.data.timestamps w.tid).toNs + Watchdog.mutexWaitTimeMs * 1000000 +
          b.stampMs w * 1000000 := Nat.add_le_add_right (hstamp hwatches) _
    _ = (x.sys.data.timestamps w.tid).toNs +
          (b.stampMs w * 1000000 + Watchdog.mutexWaitTimeMs * 1000000) := by
        rw [Nat.add_assoc, Nat.add_comm (Watchdog.mutexWaitTimeMs * 1000000)]
    _ ≤ (x.sys.data.timestamps w.tid).toNs + allowedNs := Nat.add_le_add_left hfit _

/-! ## The watchdog -/

/-- What holds while the watchdog is at `pc`, with `calls` to make first. It got there at
`since`. -/
def WatchdogPc.At (since : ℕ) (d : Data ω V) (calls : List Frame) : WatchdogPc → Prop
  | .lock time => calls = [] ∧ time = timespecGet since
  | .initTimestamps time => calls = [] ∧
    ∃ n, time = timespecGet n ∧ d.clock ≤ n + Watchdog.mutexWaitTimeMs * 1000000
  | .setTimestamp time => calls = [] ∧ time = timespecGet d.clock
  | .findOldest time => calls = [] ∧ time = timespecGet d.clock ∧ d.timestamps .watchdog = time
  | .killTest _ _ => d.killSwitch = true
  | .retval _ | .raise _ _ => False
  | _ => True

variable {d : Data ω V} {since : ℕ} {calls : List Frame} {pc : WatchdogPc} {u : Thread ω}
  {a : Act V} {i : Input V} {o : Set Mutex}

omit [PercentageValue V] in
/-- The actions inside the calls and the actions of other threads. -/
theorem WatchdogPc.At.perform (h : pc.At since d calls) (ha : a.setsTimestamps = false) :
    pc.At since (d.perform u a i).1 calls := by
  have hclock : (d.perform u a i).1.clock = d.clock := Data.clock_perform u a i d
  cases pc with
  | lock now => exact h
  | initTimestamps now =>
    obtain ⟨hcalls, n, hn, hle⟩ := h
    exact ⟨hcalls, n, hn, hclock ▸ hle⟩
  | setTimestamp now =>
    obtain ⟨hcalls, hnow⟩ := h
    exact ⟨hcalls, hclock ▸ hnow⟩
  | findOldest now =>
    obtain ⟨hcalls, hnow, hown⟩ := h
    refine ⟨hcalls, hclock ▸ hnow, ?_⟩
    rcases Data.timestamps_perform (u := u) (i := i) ha .watchdog with htid | htid
    · rw [htid]
      exact hown
    · rw [htid]
      exact hnow.symm
  | killTest =>
    show (d.perform u a i).1.killSwitch = true
    by_contra hoff
    rw [Bool.not_eq_true] at hoff
    cases (Data.killSwitch_perform hoff).symm.trans h
  | retval | raise => exact h.elim
  | _ => trivial

omit [DecidableEq ω] [PercentageValue V] in
theorem WatchdogPc.At.signal (h : pc.At since d calls) : pc.At since (d.env .signal) calls := by
  cases pc with
  | killTest => rfl
  | _ => exact h

omit [DecidableEq ω] [PercentageValue V] in
theorem WatchdogPc.At.of_calls {since' : ℕ} {calls' : List Frame} (h : pc.At since d calls)
    (hcalls : calls ≠ []) : pc.At since' d calls' := by
  cases pc with
  | lock | initTimestamps | setTimestamp | findOldest => exact absurd h.1 hcalls
  | _ => exact h

/-- No worker's timestamp is too old. -/
def Fresh (d : Data ω V) : Prop :=
  d.killSwitch = false → ∀ w : Worker, d.clock ≤ (d.timestamps w.tid).toNs + allowedNs

omit [DecidableEq ω] [PercentageValue V] in
/-- Every timestamp that the watchdog compares with `now` is recent. -/
theorem Fresh.timestamps_le (h : Fresh d) (hd : Stamped d) (hk : d.killSwitch = false)
    (hown : d.timestamps .watchdog = timespecGet d.clock) (tid : ThreadId) :
    timespecCompare (timespecDifference (timespecGet d.clock) (d.timestamps tid))
      Watchdog.allowedUnresponsiveTime ≤ 0 := by
  obtain ⟨n, -, hn⟩ := hd tid
  have hle : d.clock ≤ n + 2000000000 := by
    have hworker : ∀ w : Worker, w.tid = tid → d.clock ≤ n + 2000000000 := by
      rintro w rfl
      have hw := h hk w
      rwa [hn, toNs_timespecGet] at hw
    cases tid with
    | reader => exact hworker .reader rfl
    | analyzer => exact hworker .analyzer rfl
    | printer => exact hworker .printer rfl
    | logger => exact hworker .logger rfl
    | watchdog =>
      have hnow : d.clock = n := by
        rw [← toNs_timespecGet d.clock, ← hown, hn, toNs_timespecGet]
      omega
  rw [hn]
  exact timespecCompare_difference hle

omit [DecidableEq ω] [PercentageValue V] in
theorem Watchdog.check_at (h : Fresh d) (hd : Stamped d)
    (hown : d.timestamps .watchdog = timespecGet d.clock) :
    (check (timespecGet d.clock) d.timestamps).pc.At since d
      (check (timespecGet d.clock) d.timestamps).calls := by
  simp only [check]
  split
  · rename_i hlate
    show d.killSwitch = true
    by_contra hk
    rw [Bool.not_eq_true] at hk
    have hlength : 0 < (timestampsArray d.timestamps).length := Nat.succ_pos _
    rw [List.getD_eq_getElem?_getD, List.getElem?_eq_getElem (findLowestTimespecIndex_lt hlength)]
      at hlate
    simp only [timestampsArray, List.getElem_map, Option.getD_some] at hlate
    exact absurd hlate (not_lt.2 (h.timestamps_le hd hk hown _))
  · trivial

omit [PercentageValue V] in
/-- The instructions of `WatchdogThread`. -/
theorem Watchdog.at_next (h : pc.At since d [])
    (hlock : ∀ time, pc = .lock time → d.clock ≤ since + mutexWaitTimeMs * 1000000)
    (hd : Stamped d) (hfresh : pc.watches = true → Fresh d) :
    (code pc : Code V (Control WatchdogPc)).Post (Data.perform (.watchdog : Thread ω))
      (fun _ => True) (fun l _ d => l.pc.At d.clock d l.calls) o d := by
  cases pc with
  | threadInfoSet =>
    intro i _
    simp only
    split
    · trivial
    · trivial
  | startTime => exact fun i _ => ⟨rfl, rfl⟩
  | lock time =>
    obtain ⟨-, htime⟩ := h
    simp only [code, Instr.post_tryLock]
    exact ⟨fun _ _ => ⟨rfl, since, htime, hlock _ rfl⟩, fun _ => trivial, fun _ => trivial⟩
  | initTimestamps time => exact fun i _ => trivial
  | head tp =>
    intro i _
    simp only
    split <;> trivial
  | wait tp =>
    intro r _ _
    cases r <;> trivial
  | now => exact fun i _ => ⟨rfl, rfl⟩
  | setTimestamp time =>
    obtain ⟨-, rfl⟩ := h
    have hself : Function.update d.timestamps .watchdog (timespecGet d.clock) .watchdog =
        timespecGet d.clock := Function.update_self ..
    exact fun i _ => ⟨rfl, rfl, hself⟩
  | findOldest time =>
    obtain ⟨-, rfl, hown⟩ := h
    exact fun i _ => check_at (hfresh rfl) hd hown
  | killTest iiOldest oldest =>
    have hk : d.killSwitch = true := h
    intro i _
    simp only [Data.perform, hk, if_true]
    trivial
  | retval | raise => exact h.elim
  | finalUnlock retval =>
    intro r _ _
    cases r <;> trivial
  | exited => trivial

omit [PercentageValue V] in
/-- In its loop, the watchdog sets no timestamp but its own. -/
theorem Watchdog.keeps_stamps (hpc : pc.watches = true) (w : Worker) :
    (code pc : Code V (Control WatchdogPc)).Post (Data.perform (.watchdog : Thread ω))
      (fun _ => True) (fun _ _ d' => d'.timestamps w.tid = d.timestamps w.tid) o d := by
  cases pc with
  | threadInfoSet | startTime | lock | initTimestamps | finalUnlock | exited => cases hpc
  | setTimestamp time => exact fun i _ => Function.update_of_ne w.tid_ne_watchdog ..
  | wait tp => exact fun r _ _ => rfl
  | _ => exact fun i _ => rfl

omit [PercentageValue V] in
/-- It enters its loop with the initialisation of the timestamps. -/
theorem Watchdog.enters (hpc : pc.watches = false) :
    (code pc : Code V (Control WatchdogPc)).Post (Data.perform (.watchdog : Thread ω))
      (fun _ => True) (fun l _ d' => l.pc.watches = true →
        ∃ time, pc = .initTimestamps time ∧ ∀ tid, d'.timestamps tid = time) o d := by
  cases pc with
  | initTimestamps time => exact fun i _ _ => ⟨time, rfl, fun _ => rfl⟩
  | startTime => exact fun i _ h => by cases h
  | threadInfoSet =>
    intro i _
    simp only
    split <;> exact fun h => by cases h
  | lock time =>
    intro r _ _
    simp only
    split <;> exact fun h => by cases h
  | finalUnlock retval =>
    intro r _ _
    simp only
    split <;> exact fun h => by cases h
  | exited retval => trivial
  | _ => cases hpc

/-- The watchdog's annotation in a state of a run with a clock. -/
def Watching (x : TimedState ω V) : Prop :=
  (x.sys.loc .watchdog).pc.At (x.since .watchdog) x.sys.data (x.sys.loc .watchdog).calls

omit [PercentageValue V] in
theorem StampedAfter.perform {n : ℕ} {watches : Bool} (h : StampedAfter w n watches d)
    (hn : n ≤ d.clock) (ha : a.setsTimestamps = false) :
    StampedAfter w n watches (d.perform u a i).1 := by
  intro hwatches
  rcases Data.timestamps_perform (u := u) (i := i) ha w.tid with htid | htid
  · rw [htid]
    exact h hwatches
  · rw [htid, toNs_timespecGet]
    exact hn.trans (Nat.le_add_right _ _)

theorem StampedAfter.step {n : ℕ}
    (h : StampedAfter w n (x.sys.loc .watchdog).pc.watches x.sys.data) (hn : n ≤ x.sys.data.clock)
    (hwatching : Watching x) (hstep : TimedStep (clock ω V) reports x lab x') :
    StampedAfter w n (x'.sys.loc .watchdog).pc.watches x'.sys.data := by
  by_cases hactor : lab.actor = some .watchdog
  · unfold Watching at hwatching
    refine hstep.step.post (Q := fun l _ d => StampedAfter w n l.pc.watches d) hactor
      (fun _ _ => trivial) (fun _ _ _ => h) ?_
    generalize x.sys.loc .watchdog = l at *
    obtain ⟨calls, pc⟩ := l
    cases calls with
    | nil =>
      cases hpc : pc.watches with
      | true =>
        refine (Watchdog.keeps_stamps hpc w).mono (fun _ _ d hd _ => ?_) fun _ h => h
        rw [hd]
        exact h hpc
      | false =>
        refine (Watchdog.enters hpc).mono (fun l _ d hd hwatches => ?_) fun _ h => h
        obtain ⟨time, rfl, htime⟩ := hd hwatches
        obtain ⟨-, m, rfl, hm⟩ := hwatching
        rw [htime, toNs_timespecGet]
        exact hn.trans hm
    | cons f fs =>
      rw [program_code_cons, Instr.post_map]
      cases hf : (f.code : Code V (List Frame)) with
      | call c next => exact fun _ _ _ => h
      | act a next => exact fun i _ => h.perform hn (Frame.setsTimestamps hf)
      | sleep ms next => exact h
      | exit => trivial
  · rw [(hstep.step.unchanged hactor).2.2]
    rcases hstep.step.data_cases with hdata | ⟨u, i, a, next, rfl, hc, hdata⟩ | ⟨e, rfl, hdata⟩
    · rw [hdata]
      exact h
    · have hu : u ≠ .watchdog := fun hu => hactor (congrArg some hu)
      rw [hdata]
      exact h.perform hn (program_setsTimestamps hu hc)
    · rw [hdata]
      cases e <;> exact h

/-! ## Runs -/

/-- Setting its timestamp, a worker sets the one that the watchdog compares. -/
theorem stamped_now (hrun : Run (fun _ _ => True) x.sys)
    (hstep : TimedStep (clock ω V) reports x lab x') (hactor : lab.actor = some w.thread)
    {tid : ThreadId} (hstamp : (x.sys.loc w.thread).calls.head? = some (.report (.stamp tid))) :
    x'.sys.data.timestamps w.tid = timespecGet x.sys.data.clock := by
  obtain ⟨info, hinfo, htid⟩ := w.info (ω := ω)
  have hown := (hrun.ownStamps w.thread).own info hinfo
  rw [htid] at hown
  refine hstep.step.post (Q := fun _ _ d => d.timestamps w.tid = timespecGet x.sys.data.clock)
    hactor (fun _ _ => trivial) (fun _ m hm => ?_) ?_ <;>
    generalize x.sys.loc w.thread = l at * <;> obtain ⟨calls, pc⟩ := l <;>
    obtain ⟨fs, rfl⟩ := List.head?_eq_some_iff.1 hstamp
  · exact hm.elim
  · obtain rfl : tid = w.tid := hown _ List.mem_cons_self tid rfl
    rw [program_code_cons, Instr.post_map]
    exact fun i _ => Function.update_self ..

theorem Durations.Stamps.step (hx : TimedRun b.Respected x) (hok : b.Respected x lab)
    (hstep : TimedStep (clock ω V) reports x lab x') (hwatching : Watching x)
    (h : x.sys.data.killSwitch = false → b.Stamps w x) (hk' : x'.sys.data.killSwitch = false) :
    b.Stamps w x' := by
  have hk := Step.killSwitch_eq_false hstep.step hk'
  have htime : (clock ω V).time x ≤ (clock ω V).time x' := hstep.step.now_le
  obtain ⟨n, hn, hlimit, hstamp⟩ := h hk
  have hstamp' := hstamp.step hn hwatching hstep
  by_cases hactor : lab.actor = some w.thread
  · have hsince : x'.since w.thread = (clock ω V).time x := by rw [hstep.since, if_pos hactor]
    by_cases hsets : ∃ tid, (x.sys.loc w.thread).calls.head? = some (.report (.stamp tid))
    · obtain ⟨tid, htid⟩ := hsets
      have hnow : (clock ω V).time x' = (clock ω V).time x := by
        refine hstep.step.now_eq fun e he => ?_
        rw [he] at hactor
        cases hactor
      obtain ⟨m, hm, hdue, -⟩ := TimedRun.due (w := w) (fun _ _ h => h.kept) (hx.next hok hstep)
        (.inl hk')
      refine ⟨_, htime, ?_, fun _ => ?_⟩
      · calc b.stampLimit w.thread (x'.sys.loc w.thread) (x'.since w.thread)
            ≤ b.limit w.thread (x'.sys.loc w.thread) (x'.since w.thread) + b.lock * 1000000 :=
              Durations.stampLimit_le ..
          _ ≤ m + b.roundMs w * 1000000 + b.lock * 1000000 := Nat.add_le_add_right hdue _
          _ = m + b.stampMs w * 1000000 := by
              rw [Nat.add_assoc, ← Nat.add_mul, Durations.stampMs]
          _ ≤ (clock ω V).time x + b.stampMs w * 1000000 :=
              Nat.add_le_add_right (hm.trans_eq hnow) _
      · rw [stamped_now (hx.untimed fun _ _ _ => trivial) hstep hactor htid, toNs_timespecGet]
        exact Nat.le_add_right _ _
    · rw [not_exists] at hsets
      refine ⟨n, hn.trans htime, ?_, hstamp'⟩
      rw [hsince]
      exact (stampLimit_step hx hok hk hstep hactor hsets).trans hlimit
  · refine ⟨n, hn.trans htime, ?_, hstamp'⟩
    rwa [(hstep.step.unchanged hactor).2.2, hstep.since, if_neg hactor]

/-- Where the annotation mentions the time, the watchdog has no time to spare. -/
theorem Watching.tick {ns : ℕ} (h : Watching x) (hx : TimedRun b.Respected x)
    (hstep : TimedStep (clock ω V) reports x (.env (.tick ns)) x') : Watching x' := by
  have hloc := (hstep.step.unchanged (u := .watchdog) (by simp [Label.actor])).2.2
  have hsince : x'.since .watchdog = x.since .watchdog := by simp [hstep.since, Label.actor]
  have hdata : x'.sys.data = x.sys.data.env (.tick ns) := hstep.step.data_env
  have hurgent : (clock ω V).due x .watchdog = some (x.since .watchdog) →
      x'.sys.data = x.sys.data := by
    intro hdue
    have hle : x.sys.data.clock + ns ≤ x.since .watchdog := hstep.punctual _ _ hdue
    have hge : x.since .watchdog ≤ x.sys.data.clock := hx.since_le _
    obtain rfl : ns = 0 := by omega
    exact hdata
  unfold Watching at *
  rw [hloc, hsince]
  unfold Clock.due at hurgent
  generalize x.sys.loc .watchdog = l at *
  obtain ⟨calls, pc⟩ := l
  cases pc with
  | lock time => exact h
  | initTimestamps time | setTimestamp time | findOldest time =>
    obtain rfl : calls = [] := h.1
    rw [hurgent rfl]
    exact h
  | killTest =>
    rw [hdata]
    exact h
  | retval | raise => exact h.elim
  | _ => trivial

/-- The watchdog's own steps. -/
theorem Watching.own (h : Watching x) (hx : TimedRun b.Respected x)
    (hfresh : (x.sys.loc .watchdog).pc.watches = true → Fresh x.sys.data)
    (hstep : TimedStep (clock ω V) reports x lab x') (hactor : lab.actor = some .watchdog) :
    Watching x' := by
  have hrun : Run (fun _ _ => True) x.sys := hx.untimed fun _ _ _ => trivial
  have hclock : x'.sys.data.clock = x.sys.data.clock := by
    refine hstep.step.now_eq (c := clock ω V) fun e he => ?_
    rw [he] at hactor
    cases hactor
  have hsince : x'.since .watchdog = x'.sys.data.clock := by
    rw [hstep.since, if_pos hactor, hclock]
    rfl
  have hstamped : Stamped x.sys.data := (hrun.times .watchdog).1
  have hdue := hx.on_time .watchdog
  unfold Watching at *
  rw [hsince]
  unfold Clock.due at hdue
  refine hstep.step.post (Q := fun l _ d => l.pc.At d.clock d l.calls) hactor (fun _ _ => trivial)
    (fun _ m hm => ?_) ?_
  · generalize x.sys.loc .watchdog = l at *
    obtain ⟨calls, pc⟩ := l
    cases calls with
    | nil =>
      cases pc with
      | wait tp => exact h
      | _ => cases hm
    | cons f fs =>
      rw [program_code_cons, Instr.waitsWith_map] at hm
      exact absurd hm (f.not_waits m)
  · generalize x.sys.loc .watchdog = l at *
    obtain ⟨calls, pc⟩ := l
    cases calls with
    | nil =>
      refine Watchdog.at_next h (fun time htime => ?_) hstamped hfresh
      subst htime
      exact hdue _ rfl
    | cons f fs =>
      rw [program_code_cons, Instr.post_map]
      cases hf : (f.code : Code V (List Frame)) with
      | call c next => exact fun _ _ _ => h.of_calls (List.cons_ne_nil _ _)
      | act a next =>
        exact fun i _ => (h.of_calls (List.cons_ne_nil _ _)).perform (Frame.setsTimestamps hf)
      | sleep ms next => exact h.of_calls (List.cons_ne_nil _ _)
      | exit => trivial

/-- The steps of the other threads, and signals. -/
theorem Watching.others (h : Watching x) (hstep : TimedStep (clock ω V) reports x lab x')
    (hactor : lab.actor ≠ some .watchdog) (htick : ∀ ns, lab ≠ .env (.tick ns)) :
    Watching x' := by
  unfold Watching at *
  rw [(hstep.step.unchanged hactor).2.2, hstep.since, if_neg hactor]
  rcases hstep.step.data_cases with hdata | ⟨u, i, a, next, rfl, hc, hdata⟩ | ⟨e, rfl, hdata⟩
  · rw [hdata]
    exact h
  · have hu : u ≠ .watchdog := fun hu => hactor (congrArg some hu)
    rw [hdata]
    exact h.perform (program_setsTimestamps hu hc)
  · rw [hdata]
    cases e with
    | signal => exact h.signal
    | tick ns => exact absurd rfl (htick ns)

theorem Watching.step (h : Watching x) (hx : TimedRun b.Respected x)
    (hfresh : (x.sys.loc .watchdog).pc.watches = true → Fresh x.sys.data)
    (hstep : TimedStep (clock ω V) reports x lab x') : Watching x' := by
  by_cases htick : ∃ ns, lab = .env (.tick ns)
  · obtain ⟨ns, rfl⟩ := htick
    exact h.tick hx hstep
  · by_cases hactor : lab.actor = some .watchdog
    · exact h.own hx hfresh hstep hactor
    · exact h.others hstep hactor fun ns hns => htick ⟨ns, hns⟩

theorem TimedRun.watching (hb : b.Fit) (hx : TimedRun b.Respected x) : Watching x := by
  refine (hx.invariant (I := fun x => Watching x ∧
    ∀ w, x.sys.data.killSwitch = false → b.Stamps w x) ?_ ?_).1
  · rintro x ⟨s, hs, rfl⟩
    have hwatchdog : s.loc .watchdog = _ := hs.2.1 .watchdog
    refine ⟨?_, fun w _ => ⟨(clock ω V).now s.data, le_refl _, ?_, ?_⟩⟩
    · unfold Watching
      rw [Clock.start, hwatchdog]
      trivial
    · have hround : b.limit w.thread (s.loc w.thread) s.data.clock ≤ _ := limit_start hs w
      refine (Durations.stampLimit_le ..).trans ?_
      rw [Durations.stampMs, Nat.add_mul, ← Nat.add_assoc]
      exact Nat.add_le_add_right hround _
    · intro hwatches
      rw [Clock.start, hwatchdog] at hwatches
      cases hwatches
  · intro x lab x' hx ⟨hwatching, hstamps⟩ hok hstep
    refine ⟨hwatching.step hx (fun hwatches hk w => ?_) hstep, fun w =>
      Durations.Stamps.step hx hok hstep hwatching (hstamps w)⟩
    exact (hstamps w hk).recent hb hx hk hwatches

theorem TimedRun.reports_in_time (hb : b.Fit) (hx : TimedRun b.Respected x) (w : Worker)
    (hreports : (x.sys.loc w.thread).reports = true) :
    ∀ n ∈ x.last w.thread, (clock ω V).time x ≤ n + allowedNs := by
  intro n hn
  obtain ⟨m, -, hlimit, hlast⟩ := hx.due (fun _ _ h => h.kept) (.inr hreports)
  obtain rfl := hlast n hn
  rw [Durations.limit_of_reports hreports] at hlimit
  have hround : b.roundMs w ≤ Watchdog.allowedUnresponsiveMs :=
    (Nat.le_add_right _ _).trans ((Nat.le_add_right _ _).trans (hb w))
  calc (clock ω V).time x
      ≤ x.since w.thread := hx.on_time _ _ (due_of_reports hreports)
    _ ≤ n + b.roundMs w * 1000000 := hlimit
    _ ≤ n + allowedNs := Nat.add_le_add_left (Nat.mul_le_mul_right _ hround) _

theorem no_false_alarm (hb : b.Fit) (hx : TimedRun b.Respected x) : Responsive x where
  reports w := hx.reports_in_time hb w
  silent iiOldest retval hraise := by
    have hwatching := hx.watching hb
    unfold Watching at hwatching
    rw [hraise] at hwatching
    exact hwatching

/-- A sufficient test for schedules. -/
def Durations.respects (b : Durations) (x : TimedState ω V) : SysLabel ω V → Bool
  | .env e => decide (∀ w : Worker, b.InTime w.thread (x.sys.loc w.thread) (x.since w.thread)
      ((clock ω V).time x + e.elapsed))
  | .ret t r | .resume t r | .signal t r _ =>
    match (x.sys.loc t).calls.head? with
    | some (.report (.lock _)) => r == .success
    | _ => true
  | _ => true

theorem Durations.Respected.of_respects (h : b.respects x lab = true) : b.Respected x lab where
  kept := by
    rintro e rfl -
    exact of_decide_eq_true h
  locks := by
    intro _ w r hev tid hhead
    cases lab <;> cases hev <;>
      · simp only [respects, hhead] at h
        exact beq_iff_eq.1 h

/-- The printer's lock attempt takes one millisecond, as in `slowWaits`, and its wait ends with the
analyzer's signal, once the reader has loaded a second sample. So the printer reports again after
500 milliseconds. -/
theorem no_false_alarm_signalled : ∃ x : TimedState Empty ℚ,
    (x.sys.loc .printer).reports = true ∧ x.last .printer = some 0 ∧
    (clock Empty ℚ).time x = 500000000 ∧ Responsive x := by
  have hrun : ∃ x : TimedState Empty ℚ, TimedRun Durations.generous.Respected x ∧
      ((x.sys.loc .printer).reports && decide (x.last .printer = some 0) &&
        decide ((clock Empty ℚ).time x = 500000000)) = true := by
    refine TimedRun.play Durations.generous.respects (fun _ _ _ h => .of_respects h)
      (steps .watchdog 6 (.userIdle 0 0) ++ steps .logger 25 (.userIdle 0 0) ++
        steps .analyzer 15 (.userIdle 0 0) ++ steps .printer 8 (.userIdle 0 0) ++
        steps .reader 25 (.userIdle 0 0) ++ pass 1 ++ steps .printer 5 (.userIdle 0 0) ++
        steps .analyzer 24 (.userIdle 0 0) ++ pass 499 ++ steps .reader 25 (.userIdle 30 10) ++
        steps .analyzer 42 (.userIdle 0 0) ++ steps .printer 15 (.userIdle 0 0)) ?_
    decide +kernel
  obtain ⟨x, hx, hcheck⟩ := hrun
  simp only [Bool.and_eq_true, decide_eq_true_eq] at hcheck
  obtain ⟨⟨hreports, hlast⟩, htime⟩ := hcheck
  exact ⟨x, hreports, hlast, htime, no_false_alarm (b := Durations.generous) (by decide) hx⟩

end CpuUsageTracker
