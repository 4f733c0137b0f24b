import CpuUsageTracker.Library.Timed
import CpuUsageTracker.Reports

/-!
# Does the watchdog stop responsive threads?

The reader, the analyzer, the printer and the logger report in every iteration, and the watchdog
raises `SIGTERM` when a thread has not reported for `WATCHDOG_ALLOWED_UNRESPONSIVE_MS`. Runs have
a clock here: every call keeps to its timeout, and everything else takes no time.

**Theorem (`printer_raises_alarm`).** That is not enough for the threads to be taken for responsive.
A wait alone may take as long, and the threads other than the logger do not report between the lock
attempt and the wait: a printer whose lock attempt takes one millisecond and whose wait times out is
taken for unresponsive.

How long the calls may take instead is in `CpuUsageTracker.FalseAlarms`.
-/

namespace CpuUsageTracker

open Threads

/-! ## The clock -/

/-- Actions take no time, but another thread may do what it likes between its calls. -/
def Act.patient {V : Type} : Act V → Bool
  | .apiCall => true
  | _ => false

def Data.Env.elapsed : Data.Env → ℕ
  | .signal => 0
  | .tick ns => ns

/-- The threads that report. -/
inductive Worker
  | reader
  | analyzer
  | printer
  | logger
  deriving DecidableEq, Repr

namespace Worker

instance : Fintype Worker where
  elems := {reader, analyzer, printer, logger}
  complete w := by cases w <;> decide

def thread {ω : Type} : Worker → Thread ω
  | reader => .reader
  | analyzer => .analyzer
  | printer => .printer
  | logger => .logger

def tid : Worker → ThreadId
  | reader => .reader
  | analyzer => .analyzer
  | printer => .printer
  | logger => .logger

theorem tid_ne_watchdog (w : Worker) : w.tid ≠ .watchdog := by
  cases w <;> decide

end Worker

variable {ω V : Type} [DecidableEq ω] [PercentageValue V]

omit [PercentageValue V] in
theorem Data.clock_perform (t : Thread ω) (a : Act V) (i : Input V) (d : Data ω V) :
    (d.perform t a i).1.clock = d.clock := by
  cases a <;> rfl

def clock (ω V : Type) [DecidableEq ω] [PercentageValue V] : Clock (program ω V) where
  now d := d.clock
  perMs := 1000000
  point := Timespec.toNs
  elapsed := Data.Env.elapsed
  patient := Act.patient
  now_perform := Data.clock_perform
  now_env e d := by cases e <;> rfl

abbrev TimedState (ω V : Type) := Timed Mutex (Data ω V) (Loc V : Thread ω → Type)

def reports (t : Thread ω) (l : Loc V t) : Bool := l.reports

/-- The states reached by runs with a clock whose steps all meet `ok`. -/
def TimedRun (ok : TimedState ω V → SysLabel ω V → Prop) : TimedState ω V → Prop :=
  TimedReach (clock ω V) reports Init ok

/-- `WATCHDOG_ALLOWED_UNRESPONSIVE_MS` in nanoseconds. -/
def allowedNs : ℕ := Watchdog.allowedUnresponsiveMs * 1000000

/-- A worker that reports has last done so not too long ago, and the watchdog does not raise
`SIGTERM`. -/
structure Responsive (x : TimedState ω V) : Prop where
  reports : ∀ w : Worker, (x.sys.loc w.thread).reports = true →
    ∀ n ∈ x.last w.thread, (clock ω V).time x ≤ n + allowedNs
  silent : ∀ iiOldest retval, (x.sys.loc .watchdog).pc ≠ .raise iiOldest retval

/-- Reporting takes no time. -/
theorem due_of_reports {x : TimedState ω V} {t : Thread ω} (h : (x.sys.loc t).reports = true) :
    (clock ω V).due x t = some (x.since t) := by
  unfold Clock.due
  generalize x.sys.loc t = l at *
  obtain ⟨calls, pc⟩ := l
  cases calls with
  | nil => cases h
  | cons f fs =>
    rw [program_code_cons, Clock.deadline_map]
    rcases f with y | y <;> cases y <;> first | rfl | cases h

/-! ## The watchdog and the timestamps -/

/-- The watchdog has initialised the timestamps and is in its loop. -/
def WatchdogPc.watches : WatchdogPc → Bool
  | .threadInfoSet | .startTime | .lock _ | .initTimestamps _ | .finalUnlock _ | .exited _ => false
  | _ => true

variable {d : Data ω V} {u : Thread ω} {a : Act V} {i : Input V}

omit [DecidableEq ω] [PercentageValue V] in
theorem Worker.ne_other (w : Worker) (v : ω) : (w.thread : Thread ω) ≠ .other v := by
  cases w <;> nofun

def Act.setsTimestamps : Act V → Bool
  | .setTimestamp _ _ | .initTimestamps _ => true
  | _ => false

omit [PercentageValue V] in
theorem Data.killSwitch_perform (h : (d.perform u a i).1.killSwitch = false) :
    d.killSwitch = false := by
  cases a with
  | raiseSigterm =>
    simp only [Data.perform, Bool.or_eq_false_iff] at h
    exact h.1
  | _ => exact h

omit [PercentageValue V] in
theorem Data.timestamps_perform (ha : a.setsTimestamps = false) (tid : ThreadId) :
    (d.perform u a i).1.timestamps tid = d.timestamps tid ∨
      (d.perform u a i).1.timestamps tid = timespecGet d.clock := by
  cases a with
  | stamp tid' =>
    by_cases htid : tid = tid'
    · subst htid
      exact .inr (Function.update_self ..)
    · exact .inl (Function.update_of_ne htid ..)
  | setTimestamp | initTimestamps => cases ha
  | _ => exact .inl rfl

omit [PercentageValue V] in
theorem Frame.setsTimestamps {f : Frame} {next : a.Result → List Frame} (h : f.code = .act a next) :
    a.setsTimestamps = false := by
  rcases f with x | x <;> cases x <;> cases h <;> rfl

omit [DecidableEq ω] in
theorem body_setsTimestamps {pc : Pc V u} {next : a.Result → Loc V u} (hu : u ≠ .watchdog)
    (h : body u pc = .act a next) : a.setsTimestamps = false := by
  cases u with
  | reader =>
    cases pc with
    | waiting p w => cases w <;> cases h <;> rfl
    | _ => cases h <;> rfl
  | analyzer =>
    cases pc with
    | waitingIn v w | waitingOut v w => cases w <;> cases h <;> rfl
    | _ => cases h <;> rfl
  | printer =>
    cases pc with
    | waiting u w => cases w <;> cases h <;> rfl
    | _ => cases h <;> rfl
  | logger =>
    cases pc with
    | drain k => cases k <;> cases h <;> rfl
    | _ => cases h <;> rfl
  | watchdog => exact absurd rfl hu
  | other w =>
    cases pc
    cases h
    rfl

theorem program_setsTimestamps {l : Loc V u} {next : a.Result → Loc V u} (hu : u ≠ .watchdog)
    (h : (program ω V).code u l = .act a next) : a.setsTimestamps = false := by
  obtain ⟨calls, pc⟩ := l
  cases calls with
  | nil => exact body_setsTimestamps hu h
  | cons f fs =>
    rw [program_code_cons] at h
    obtain ⟨next', hf, -⟩ := Instr.map_eq_act h
    exact Frame.setsTimestamps hf

/-! ## Schedules with a clock -/

/-- The state after the moves, in a program of five threads that starts at time zero. -/
def timedPlay (guard : TimedState Empty V → SysLabel Empty V → Bool)
    (moves : List (Move (Thread Empty) (Input V) Data.Env)) : Option (TimedState Empty V) :=
  execAll ((clock Empty V).play reports [.reader, .analyzer, .printer, .logger, .watchdog] guard)
    ((clock Empty V).start initialState) moves

theorem TimedRun.play {ok : TimedState Empty V → SysLabel Empty V → Prop}
    (guard : TimedState Empty V → SysLabel Empty V → Bool)
    (hok : ∀ x lab, (program Empty V).Nominal x.sys lab → guard x lab = true → ok x lab)
    (moves : List (Move (Thread Empty) (Input V) Data.Env)) {check : TimedState Empty V → Bool}
    (h : (timedPlay guard moves).any check = true) : ∃ x, TimedRun ok x ∧ check x = true := by
  obtain ⟨x, hx, hcheck⟩ := (Option.any_eq_true _ _).1 h
  exact ⟨x, TimedReach.play hok (.start ⟨_, init_initialState, rfl⟩) hx, hcheck⟩

/-- `ms` milliseconds pass. -/
def pass (ms : ℕ) : List (Move (Thread Empty) (Input V) Data.Env) := [.env (.tick (ms * 1000000))]

/-- The printer's lock attempt takes one millisecond, and its wait lasts until its time point. The
analyzer and the logger, although notified, also return from their waits at the last moment only,
and the watchdog spends one millisecond on the lock attempt in `Log`. -/
def slowWaits : List (Move (Thread Empty) (Input ℚ) Data.Env) :=
  [steps .watchdog 6 (.userIdle 0 0), steps .logger 25 (.userIdle 0 0),
    steps .analyzer 15 (.userIdle 0 0), steps .printer 8 (.userIdle 0 0),
    steps .reader 25 (.userIdle 0 0), pass 1, steps .printer 5 (.userIdle 0 0),
    pass 499, steps .reader 25 (.userIdle 0 0), pass 500, steps .reader 25 (.userIdle 0 0),
    pass 500, steps .reader 25 (.userIdle 0 0), pass 500, steps .reader 25 (.userIdle 0 0),
    steps .logger 25 (.userIdle 0 0), steps .analyzer 19 (.userIdle 0 0),
    steps .watchdog 6 (.userIdle 0 0), [.wake .watchdog .timedout],
    steps .watchdog 4 (.userIdle 0 0), pass 1, [.wake .printer .timedout],
    steps .printer 23 (.userIdle 0 0), steps .watchdog 10 (.userIdle 0 0)].flatten

/-- In the schedule `slowWaits`, the printer's second report comes 2001 milliseconds after its
first. -/
theorem printer_raises_alarm : ∃ x : TimedState Empty ℚ,
    TimedRun (fun x lab => (program Empty ℚ).Nominal x.sys lab) x ∧
    (x.sys.loc .printer).reports = true ∧ x.last .printer = some 0 ∧
    (clock Empty ℚ).time x = 2001000000 ∧ (x.sys.loc .watchdog).pc = .raise 2 0 ∧
    ¬Responsive x := by
  have hrun : ∃ x : TimedState Empty ℚ,
      TimedRun (fun x lab => (program Empty ℚ).Nominal x.sys lab) x ∧
      ((x.sys.loc .printer).reports && decide (x.last .printer = some 0) &&
        decide ((clock Empty ℚ).time x = 2001000000) &&
        decide ((x.sys.loc .watchdog).pc = .raise 2 0)) = true := by
    apply TimedRun.play (fun _ _ => true) (fun _ _ h _ => h) slowWaits
    decide +kernel
  obtain ⟨x, hx, hcheck⟩ := hrun
  simp only [Bool.and_eq_true, decide_eq_true_eq] at hcheck
  obtain ⟨⟨⟨hreports, hlast⟩, htime⟩, hraise⟩ := hcheck
  exact ⟨x, hx, hreports, hlast, htime, hraise, fun h => h.silent _ _ hraise⟩

end CpuUsageTracker
