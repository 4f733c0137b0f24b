import CpuUsageTracker.Identity
import CpuUsageTracker.Vigilance

/-!
# A silent thread ends the program

The watchdog sees timestamps, not threads. To say what it notices of a thread, the timestamp of the
thread has to stop when the thread falls silent.

**Theorem (`silence_noticed`).** In a run of the five threads, let the watchdog be in its loop, and
from then on let a worker make no call of `Watchdog_reportActive`. When more than `silenceMs`
milliseconds have passed, the kill switch is on, and when `shutdownMs` more have passed, all
threads have ended. The watchdog's waits return no error, and its call of `raise` succeeds.

A thread sets no other thread's timestamp (`Run.ownStamps`), and it sets its own at most one lock
attempt after it has called (`Muted`). So the first part follows from `vigilant`, and the second
from `TimedRun.finished_or_le`, at the step that switches the kill switch on.
-/

namespace CpuUsageTracker

open Threads

/-! ## Who sets a timestamp -/

def Thread.tid : Thread Empty → ThreadId
  | .reader => .reader
  | .analyzer => .analyzer
  | .printer => .printer
  | .logger => .logger
  | .watchdog => .watchdog
  | .other w => w.elim

variable {V : Type} {t u : Thread Empty} {d : Data Empty V} {a : Act V} {i : Input V}
  {o : Set Mutex}

/-- What a thread is known as. -/
theorem Thread.info_tid (t : Thread Empty) : ∃ info, t.info = some info ∧ info.tid = t.tid := by
  cases t with
  | other w => exact w.elim
  | _ => exact ⟨_, rfl, rfl⟩

variable [PercentageValue V]

theorem Run.tid_of_stamps {ok : SysState Empty V → SysLabel Empty V → Prop} {s : SysState Empty V}
    (hs : Run ok s) {f : Frame} (hf : f ∈ (s.loc t).calls) {tid : ThreadId}
    (htid : tid ∈ f.stamps) : tid = t.tid := by
  obtain ⟨info, hinfo, hself⟩ := t.info_tid
  rw [← hself]
  exact (hs.ownStamps t).own info hinfo f hf tid htid

/-! ## When the timestamp of a worker changes -/

/-- The watchdog has got past the initialisation of the timestamps. -/
def WatchdogPc.initialised : WatchdogPc → Bool
  | .threadInfoSet | .startTime | .lock _ | .initTimestamps _ => false
  | _ => true

theorem body_guard_of_ne {pc : Pc V u} {next : a.Result → Loc V u} (hu : u ≠ .watchdog)
    (h : body u pc = .act a next) : a.guard ≠ some .gTimestampsMtx := by
  cases u with
  | reader =>
    cases pc with
    | waiting p w => cases w <;> cases h <;> nofun
    | _ => cases h <;> nofun
  | analyzer =>
    cases pc with
    | waitingIn v w | waitingOut v w => cases w <;> cases h <;> nofun
    | _ => cases h <;> nofun
  | printer =>
    cases pc with
    | waiting u w => cases w <;> cases h <;> nofun
    | _ => cases h <;> nofun
  | logger =>
    cases pc with
    | drain k => cases k <;> cases h <;> nofun
    | _ => cases h <;> nofun
  | watchdog => exact absurd rfl hu
  | other w => exact w.elim

omit [PercentageValue V] in
theorem Watchdog.timestamps_perform {pc : WatchdogPc} {next : a.Result → Control WatchdogPc}
    (hpc : pc.initialised = true) (h : (code pc : Code V (Control WatchdogPc)) = .act a next)
    {tid : ThreadId} (htid : tid ≠ .watchdog) :
    (d.perform u a i).1.timestamps tid = d.timestamps tid := by
  cases pc with
  | setTimestamp time =>
    cases h
    exact Function.update_of_ne htid ..
  | initTimestamps | startTime | threadInfoSet | lock => cases hpc
  | _ =>
    cases h
    try rfl

/-- After the initialisation, a worker's timestamp is set by `Watchdog_reportActive` only. -/
theorem timestamps_or_stamp {s : SysState Empty V} {next : a.Result → Loc V u} {w : Worker}
    (hpc : (s.loc .watchdog).pc.initialised = true)
    (h : (program Empty V).code u (s.loc u) = .act a next) :
    (d.perform u a i).1.timestamps w.tid = d.timestamps w.tid ∨
      ∃ fs, (s.loc u).calls = .report (.stamp w.tid) :: fs := by
  rcases hl : s.loc u with ⟨calls, pc⟩
  rw [hl] at h
  cases calls with
  | nil =>
    left
    by_cases hu : u = .watchdog
    · subst hu
      rw [hl] at hpc
      exact Watchdog.timestamps_perform hpc h w.tid_ne_watchdog
    · rw [Data.timestamps_of_guard (body_guard_of_ne hu h)]
  | cons f fs =>
    rw [program_code_cons] at h
    obtain ⟨next', hf, -⟩ := Instr.map_eq_act h
    rcases f with x | x
    · left
      cases x <;> cases hf <;> rfl
    · cases x with
      | stamp tid =>
        cases hf
        by_cases htid : w.tid = tid
        · exact .inr ⟨fs, by rw [htid]⟩
        · exact .inl (Function.update_of_ne htid ..)
      | _ =>
        left
        cases hf
        try rfl

/-! ## A muted worker -/

/-- How long after the last call the timestamp may still change. -/
def stampDelay : List Frame → Option ℕ
  | .report (.lock _) :: _ => some 0
  | .report (.stamp _) :: _ => some 50
  | _ => none

variable {w : Worker} {x x' x₀ : TimedState Empty V} {lab : SysLabel Empty V}

/-- A worker that has not called `Watchdog_reportActive` after `n`. -/
structure Muted (w : Worker) (n : ℕ) (x : TimedState Empty V) : Prop where
  timestamp : (x.sys.data.timestamps w.tid).toNs ≤ n + 50 * 1000000
  delay : ∀ ms ∈ stampDelay (x.sys.loc w.thread).calls,
    x.since w.thread ≤ n + ms * 1000000

/-- The step is none in which the worker reports. -/
def NoReport (w : Worker) (x : TimedState Empty V) (lab : SysLabel Empty V) : Prop :=
  lab.actor = some w.thread → (x.sys.loc w.thread).reports = false

theorem stampDelay_of_none {calls : List Frame} (h : ∀ f ∈ calls, f.stamps = none) :
    stampDelay calls = none := by
  cases calls with
  | nil => rfl
  | cons f fs =>
    have hf := h f List.mem_cons_self
    rcases f with x | x
    · rfl
    · cases x <;> first | rfl | cases hf

omit [PercentageValue V] in
/-- Only a lock attempt leads to the setting of a timestamp. -/
theorem Frame.delays (f : Frame) (hf : f ≠ .report .threadInfo) :
    (f.code : Code V (List Frame)).Post (Data.perform t) (fun _ => True)
      (fun gs _ _ => (∀ g ∈ gs, g.stamps = none) ∨
        ∃ tid, f = .report (.lock tid) ∧ gs = [.report (.stamp tid)]) o d := by
  cases f with
  | log f => cases f <;> simp [code, LogPc.code, stamps]
  | report f =>
    cases f with
    | threadInfo => exact absurd rfl hf
    | _ => simp [code, ReportPc.code, stamps, logError]

theorem Worker.thread_ne_watchdog (w : Worker) : (w.thread : Thread Empty) ≠ .watchdog := by
  cases w <;> nofun

theorem Worker.thread_of_tid {w : Worker} {u : Thread Empty} (h : w.tid = u.tid) :
    u = w.thread := by
  cases u with
  | other v => exact v.elim
  | _ => cases w <;> first | rfl | cases h

variable {ok : TimedState Empty V → SysLabel Empty V → Prop} {n : ℕ}

/-- Setting the timestamp takes no time. -/
theorem due_of_stamp {tid : ThreadId} {fs : List Frame}
    (h : (x.sys.loc t).calls = .report (.stamp tid) :: fs) :
    (clock Empty V).due x t = some (x.since t) := by
  unfold Clock.due
  generalize x.sys.loc t = l at *
  obtain ⟨calls, pc⟩ := l
  obtain rfl : calls = _ := h
  rfl

theorem Muted.timestamp_step (h : Muted w n x) (hx : TimedRun ok x)
    (hpc : (x.sys.loc .watchdog).pc.initialised = true)
    (hstep : TimedStep (clock Empty V) reports x lab x') :
    (x'.sys.data.timestamps w.tid).toNs ≤ n + 50 * 1000000 := by
  have hrun : Run (fun _ _ => True) x.sys := hx.untimed fun _ _ _ => trivial
  rcases hstep.step.data_cases with hdata | ⟨u, i, a, next, rfl, hc, hdata⟩ | ⟨e, rfl, hdata⟩
  · rw [hdata]
    exact h.timestamp
  · rw [hdata]
    rcases timestamps_or_stamp (i := i) (w := w) hpc hc with hkeep | ⟨fs, hcalls⟩
    · show ((x.sys.data.perform u a i).1.timestamps w.tid).toNs ≤ _
      rw [hkeep]
      exact h.timestamp
    · have htid : w.tid = u.tid :=
        hrun.tid_of_stamps (f := .report (.stamp w.tid)) (by simp [hcalls]) rfl
      obtain rfl := Worker.thread_of_tid htid
      have hsince : x.since w.thread ≤ n + 50 * 1000000 := h.delay 50 (by rw [hcalls]; rfl)
      have hclock : x.sys.data.clock ≤ x.since w.thread := hx.on_time _ _ (due_of_stamp hcalls)
      have hset := program_setsTimestamps w.thread_ne_watchdog hc
      show ((x.sys.data.perform w.thread a i).1.timestamps w.tid).toNs ≤ _
      rcases Data.timestamps_perform (u := (w.thread : Thread Empty)) (i := i) hset w.tid with
        hkeep | hstamp
      · rw [hkeep]
        exact h.timestamp
      · rw [hstamp, toNs_timespecGet]
        exact hclock.trans hsince
  · rw [hdata]
    cases e <;> exact h.timestamp

/-- A lock attempt that is over leaves less time to the setting of the timestamp. -/
theorem Muted.delay_step (h : Muted w n x) (hx : TimedRun ok x) (hquiet : NoReport w x lab)
    (hstep : TimedStep (clock Empty V) reports x lab x') :
    ∀ ms ∈ stampDelay (x'.sys.loc w.thread).calls, x'.since w.thread ≤ n + ms * 1000000 := by
  by_cases hactor : lab.actor = some w.thread
  · have hrun : Run (fun _ _ => True) x.sys := hx.untimed fun _ _ _ => trivial
    have hown := hrun.ownStamps w.thread
    have hreports := hquiet hactor
    have hdue := hx.on_time w.thread
    have hdelay := h.delay
    rw [hstep.since, if_pos hactor]
    unfold Clock.due at hdue
    refine hstep.step.post (Q := fun l _ _ => ∀ ms ∈ stampDelay l.calls,
      (clock Empty V).time x ≤ n + ms * 1000000) hactor (fun _ _ => trivial)
      (fun _ m hm => ?_) ?_
    · generalize x.sys.loc w.thread = l at *
      obtain ⟨calls, pc⟩ := l
      cases calls with
      | nil => nofun
      | cons f fs =>
        rw [program_code_cons, Instr.waitsWith_map] at hm
        exact absurd hm (f.not_waits m)
    · generalize x.sys.loc w.thread = l at *
      obtain ⟨calls, pc⟩ := l
      cases calls with
      | nil =>
        have hfew := (body_fewCalls Frame.callWeight_stampWeight w.thread pc
          (d := x.sys.data)).of_empty (o := (program Empty V).held x.sys w.thread) fun _ h => h
        refine hfew.mono (fun l _ _ hl ms hms => ?_) fun _ h => h
        rw [stampDelay_of_none (stamps_of_callsWeight hl)] at hms
        cases hms
      | cons f fs =>
        have hf : f ≠ .report .threadInfo := by
          rintro rfl
          cases hreports
        rw [program_code_cons, Instr.post_map]
        refine (f.delays hf).mono (fun gs _ _ hgs ms hms => ?_) fun _ h => h
        rcases hgs with hgs | ⟨tid, rfl, rfl⟩
        · have hnone : ∀ g ∈ gs ++ fs, g.stamps = none := fun g hg =>
            (List.mem_append.1 hg).elim (hgs g) (hown.first g)
          rw [stampDelay_of_none hnone] at hms
          cases hms
        · obtain rfl : 50 = ms := Option.some.inj hms
          have htime : (clock Empty V).time x ≤ x.since w.thread + 50 * 1000000 := hdue _ rfl
          have hsince : x.since w.thread ≤ n + 0 * 1000000 := hdelay 0 rfl
          omega
  · rw [hstep.since, if_neg hactor, (hstep.step.unchanged hactor).2.2]
    exact h.delay

/-! ## The watchdog stays in its loop -/

/-- Unless the kill switch is on, the watchdog is in its loop. -/
structure Posted (d : Data Empty V) (pc : WatchdogPc) : Prop where
  initialised : pc.initialised = true
  watches : d.killSwitch = false → pc.watches = true

/-- The watchdog's waits return no error, and `raise` succeeds. -/
structure Attentive (x : TimedState Empty V) (lab : SysLabel Empty V) : Prop where
  waits : WatchdogWaits x lab
  raises : ∀ i, lab = .act .watchdog i → i.ok = true

omit [PercentageValue V] in
theorem act_watchdog_iff {i : Input V} :
    (t = .watchdog → i.ok = true) ↔
      ∀ j, (.act t i : SysLabel Empty V) = .act .watchdog j → j.ok = true := by
  constructor
  · rintro h j hj
    cases hj
    exact h rfl
  · rintro h rfl
    exact h i rfl

omit [PercentageValue V] in
theorem not_act_watchdog (h : ∀ i, lab ≠ .act .watchdog i) :
    ∀ i, lab = .act .watchdog i → i.ok = true :=
  fun i hi => absurd hi (h i)

instance (lab : SysLabel Empty V) : Decidable (∀ i, lab = .act .watchdog i → i.ok = true) :=
  match lab with
  | .act _ _ => decidable_of_iff _ act_watchdog_iff
  | .ret _ _ | .block _ | .wake _ _ | .resume _ _ | .signal _ _ _ | .sleep _ | .env _ =>
    isTrue (not_act_watchdog fun _ h => by cases h)

instance (x : TimedState Empty V) (lab : SysLabel Empty V) : Decidable (Attentive x lab) :=
  decidable_of_iff (WatchdogWaits x lab ∧ ∀ i, lab = .act .watchdog i → i.ok = true)
    ⟨fun h => ⟨h.1, h.2⟩, fun h => ⟨h.1, h.2⟩⟩

omit [PercentageValue V] in
theorem Watchdog.posted {pc : WatchdogPc} (h : Posted d pc) :
    (code pc : Code V (Control WatchdogPc)).Post (Data.perform (.watchdog : Thread Empty))
      (fun ev => ∀ i, ev = .act i → i.ok = true) (fun l _ d => Posted d l.pc) o d := by
  obtain ⟨hinit, hwatches⟩ := h
  cases pc with
  | threadInfoSet | startTime | lock | initTimestamps => cases hinit
  | head tp =>
    intro i _
    cases hk : d.killSwitch <;> simp only [Data.perform, hk] <;>
      exact ⟨rfl, fun hoff => by first | rfl | cases hk.symm.trans hoff⟩
  | wait tp =>
    intro r _ _
    cases r <;> exact ⟨rfl, fun _ => rfl⟩
  | findOldest time =>
    intro i _
    simp only [check]
    split <;> exact ⟨rfl, fun _ => rfl⟩
  | killTest iiOldest oldest =>
    intro i _
    simp only
    split <;> exact ⟨rfl, fun _ => rfl⟩
  | raise iiOldest retval =>
    intro i hi
    simp only [Data.perform, hi i rfl, if_true, Bool.or_true]
    exact ⟨rfl, fun hoff => by cases hoff⟩
  | finalUnlock retval =>
    intro r _ _
    cases r <;> exact ⟨rfl, hwatches⟩
  | exited => trivial
  | _ => exact fun i _ => ⟨rfl, fun _ => rfl⟩

omit [PercentageValue V] in
theorem Posted.perform {pc : WatchdogPc} (h : Posted d pc) : Posted (d.perform u a i).1 pc :=
  ⟨h.initialised, fun hk => h.watches (Data.killSwitch_perform hk)⟩

theorem Posted.step (h : Posted x.sys.data (x.sys.loc .watchdog).pc)
    (hraises : ∀ i, lab = .act .watchdog i → i.ok = true)
    (hstep : TimedStep (clock Empty V) reports x lab x') :
    Posted x'.sys.data (x'.sys.loc .watchdog).pc := by
  by_cases hactor : lab.actor = some .watchdog
  · have hallow : ∀ ev, lab.event = some (.watchdog, ev) → ∀ i, ev = .act i → i.ok = true := by
      rintro _ hev i rfl
      cases lab <;> cases hev
      exact hraises _ rfl
    refine hstep.step.post (Q := fun l _ d => Posted d l.pc) hactor hallow (fun _ _ _ => h) ?_
    generalize x.sys.loc .watchdog = l at *
    obtain ⟨calls, pc⟩ := l
    cases calls with
    | nil => exact Watchdog.posted h
    | cons f fs =>
      rw [program_code_cons, Instr.post_map]
      cases (f.code : Code V (List Frame)) with
      | call c next => exact fun _ _ _ => h
      | act a next => exact fun _ _ => h.perform
      | sleep ms next => exact h
      | exit => trivial
  · rw [(hstep.step.unchanged hactor).2.2]
    rcases hstep.step.data_cases with hdata | ⟨u, i, a, next, -, -, hdata⟩ | ⟨e, -, hdata⟩
    · rw [hdata]
      exact h
    · rw [hdata]
      exact h.perform
    · rw [hdata]
      cases e with
      | signal => exact ⟨h.initialised, nofun⟩
      | tick ns => exact ⟨h.initialised, h.watches⟩

/-! ## What happens to a silent thread -/

/-- The watchdog notices, at the latest a lock attempt after the last call. -/
def silenceMs : ℕ := noticedMs + 50

/-- Nothing goes wrong in the watchdog, and the worker does not report. -/
def Silent (w : Worker) (x : TimedState Empty V) (lab : SysLabel Empty V) : Prop :=
  Attentive x lab ∧ NoReport w x lab

instance (w : Worker) (x : TimedState Empty V) (lab : SysLabel Empty V) :
    Decidable (Silent w x lab) :=
  inferInstanceAs (Decidable (Attentive x lab ∧ (_ → _)))

/-- The runs that go on from `x₀` while the worker is silent. -/
def SilentRun (w : Worker) (x₀ : TimedState Empty V) : TimedState Empty V → Prop :=
  Reach (· = x₀) (TimedStep (clock Empty V) reports) (Silent w)

/-- What holds while the worker is silent. -/
structure SilentState (w : Worker) (n : ℕ) (x : TimedState Empty V) : Prop where
  run : TimedRun Attentive x
  posted : Posted x.sys.data (x.sys.loc .watchdog).pc
  muted : Muted w n x

theorem SilentRun.state (h : SilentRun w x₀ x) (hx₀ : TimedRun Attentive x₀)
    (hwatches : (x₀.sys.loc .watchdog).pc.watches = true) :
    SilentState w ((clock Empty V).time x₀) x := by
  refine h.invariant (I := SilentState w ((clock Empty V).time x₀)) ?_ ?_
  · rintro x rfl
    have hrun : Run (fun _ _ => True) x.sys := hx₀.untimed fun _ _ _ => trivial
    refine ⟨hx₀, ⟨?_, fun _ => hwatches⟩, ?_, fun ms _ => ?_⟩
    · cases hpc : (x.sys.loc .watchdog).pc <;> rw [hpc] at hwatches <;> first | rfl | cases hwatches
    · obtain ⟨n, hn, htid⟩ := (hrun.times .watchdog).1 w.tid
      rw [htid, toNs_timespecGet]
      exact hn.trans (Nat.le_add_right _ _)
    · exact (hx₀.since_le _).trans (Nat.le_add_right _ _)
  · intro x lab x' _ ⟨hrun, hposted, hmuted⟩ ⟨hattentive, hquiet⟩ hstep
    exact ⟨hrun.next hattentive hstep, hposted.step hattentive.raises hstep,
      hmuted.timestamp_step hrun hposted.initialised hstep, hmuted.delay_step hrun hquiet hstep⟩

theorem SilentState.time_le (h : SilentState w n x) (hk : x.sys.data.killSwitch = false) :
    (clock Empty V).time x ≤ n + silenceMs * 1000000 := by
  have hrecent := vigilant (fun _ _ h => h.waits) h.run hk (h.posted.watches hk) w.tid
  have htimestamp := h.muted.timestamp
  unfold noticedMs at hrecent
  unfold silenceMs noticedMs
  omega

/-- No time passes in the step that switches the kill switch on. -/
theorem TimedStep.time_of_killed (hstep : TimedStep (clock Empty V) reports x lab x')
    (hk : x.sys.data.killSwitch = false) (hk' : x'.sys.data.killSwitch = true) :
    (clock Empty V).time x' = (clock Empty V).time x := by
  by_cases henv : ∃ e, lab = .env e
  · obtain ⟨e, rfl⟩ := henv
    cases e with
    | signal => exact hstep.step.now_env
    | tick ns =>
      rw [hstep.step.data_env] at hk'
      cases hk.symm.trans hk'
  · exact hstep.step.now_eq fun e he => henv ⟨e, he⟩

/-- The kill switch has been switched on in time. -/
theorem SilentRun.killed (h : SilentRun w x₀ x) (hx₀ : TimedRun Attentive x₀)
    (hwatches : (x₀.sys.loc .watchdog).pc.watches = true) :
    x.sys.data.killSwitch = false ∨ ∃ x₁, TimedRun Attentive x₁ ∧ x₁.sys.data.killSwitch = true ∧
      (clock Empty V).time x₁ ≤ (clock Empty V).time x₀ + silenceMs * 1000000 ∧
      Reach (· = x₁) (TimedStep (clock Empty V) reports) Attentive x := by
  induction h with
  | start h =>
    subst h
    cases hk : (_ : TimedState Empty V).sys.data.killSwitch with
    | false => exact .inl rfl
    | true => exact .inr ⟨_, hx₀, hk, Nat.le_add_right _ _, .start rfl⟩
  | @next x x' lab hx hok hstep ih =>
    have hstate := SilentRun.state hx hx₀ hwatches
    rcases ih with hoff | ⟨x₁, hx₁, hk, htime, hreach⟩
    · cases hk : x'.sys.data.killSwitch with
      | false => exact .inl rfl
      | true =>
        refine .inr ⟨x', hstate.run.next hok.1 hstep, hk, ?_, .start rfl⟩
        rw [TimedStep.time_of_killed hstep hoff hk]
        exact hstate.time_le hoff
    · exact .inr ⟨x₁, hx₁, hk, htime, hreach.next hok.1 hstep⟩

theorem silence_noticed (hx₀ : TimedRun Attentive x₀)
    (hwatches : (x₀.sys.loc .watchdog).pc.watches = true) (h : SilentRun w x₀ x) :
    ((clock Empty V).time x₀ + silenceMs * 1000000 < (clock Empty V).time x →
        x.sys.data.killSwitch = true) ∧
      ((clock Empty V).time x₀ + (silenceMs + shutdownMs) * 1000000 < (clock Empty V).time x →
        ∀ t, (program Empty V).Finished x.sys t) := by
  have hnoticed : (clock Empty V).time x₀ + silenceMs * 1000000 < (clock Empty V).time x →
      x.sys.data.killSwitch = true := by
    intro hlate
    by_contra hoff
    rw [Bool.not_eq_true] at hoff
    exact absurd ((h.state hx₀ hwatches).time_le hoff) (not_le.2 hlate)
  refine ⟨hnoticed, fun hlate t => ?_⟩
  rw [Nat.add_mul, ← Nat.add_assoc] at hlate
  rcases h.killed hx₀ hwatches with hoff | ⟨x₁, hx₁, hk, htime, hreach⟩
  · have hon := hnoticed ((Nat.le_add_right _ _).trans_lt hlate)
    cases hoff.symm.trans hon
  · refine (hx₁.finished_or_le hk hreach nofun).resolve_right (not_le.2 ?_)
    exact (Nat.add_le_add_right htime _).trans_lt hlate

/-- The workers cannot set their thread information and return, and the watchdog waits. -/
def workersReturn : List (Move (Thread Empty) (Input ℚ) Data.Env) :=
  ([Thread.reader, .analyzer, .printer, .logger].map fun t =>
    .run t { Input.succeeding (.userIdle 0 0) with ok := false }) ++
  steps .watchdog 6 (.userIdle 0 0)

/-- The wait times out, the lock attempt in `Log` takes a millisecond, and time passes. -/
def watchdogNotices : List (Move (Thread Empty) (Input ℚ) Data.Env) :=
  [pass 2000, [.wake .watchdog .timedout], steps .watchdog 4 (.userIdle 0 0), pass 1,
    steps .watchdog 28 (.userIdle 0 0), pass 2300].flatten

/-- The printer has returned at time zero. After 4301 milliseconds, the program has ended. -/
theorem silence_noticed_printer : ∃ x : TimedState Empty ℚ,
    (clock Empty ℚ).time x = 4301 * 1000000 ∧ x.sys.data.killSwitch = true ∧
      ∀ t, (program Empty ℚ).Finished x.sys t := by
  have hrun : ((timedPlay (fun x lab => decide (Attentive x lab)) workersReturn).any fun x₀ =>
      (x₀.sys.loc .watchdog).pc.watches && (clock Empty ℚ).time x₀ == 0 &&
        (execAll ((clock Empty ℚ).play reports [.reader, .analyzer, .printer, .logger, .watchdog]
          fun x lab => decide (Silent .printer x lab)) x₀ watchdogNotices).any fun x =>
            (clock Empty ℚ).time x == 4301 * 1000000) = true := by
    decide +kernel
  obtain ⟨x₀, hx₀, hcheck⟩ := (Option.any_eq_true _ _).1 hrun
  simp only [Bool.and_eq_true, beq_iff_eq] at hcheck
  obtain ⟨⟨hwatches, hzero⟩, hcheck⟩ := hcheck
  obtain ⟨x, hx, htime⟩ := (Option.any_eq_true _ _).1 hcheck
  have htime := eq_of_beq htime
  have hreach : TimedRun Attentive x₀ :=
    TimedReach.play (fun _ _ _ h => of_decide_eq_true h) (.start ⟨_, init_initialState, rfl⟩) hx₀
  have hsilent : SilentRun .printer x₀ x :=
    Reach.playTimed (fun _ _ _ h => of_decide_eq_true h) (.start rfl) hx
  have hnoticed := silence_noticed hreach hwatches hsilent
  rw [htime, hzero, Nat.zero_add, Nat.zero_add] at hnoticed
  exact ⟨x, htime, hnoticed.1 (by decide), hnoticed.2 (by decide)⟩

end CpuUsageTracker
