import CpuUsageTracker.CallWeights
import CpuUsageTracker.TimePoints

/-!
# From one report to the next

How long does a worker take from one call of `Watchdog_reportActive` to the next? That depends on
how long its calls take. `Durations` bounds them: a lock attempt, and each of the wait loops.

**Theorem (`TimedRun.due`).** In every run in which the workers keep to these durations while the
kill switch is off (`InTime`), each worker reports again within one round (`Durations.roundMs`).

A round is the longest path through an iteration of the thread function: the lock attempts, those
inside `Watchdog_reportActive` and `Log` included, the wait loops, and the reader's sleep.
Every location gets the time from there to the next report (`Durations.pcMs`), and each
instruction spends some of it (`body_spends`), so the time of the next report does not move back
(`Durations.limit`). A wait loop ends at a time that is fixed when it reads the clock
(`Durations.loopEnd`), however often its wait fails.
-/

namespace CpuUsageTracker

open Threads

/-- Milliseconds that a lock attempt takes at most, and a wait loop from the reading of the clock
on. -/
structure Durations where
  lock : ℕ
  reader : ℕ
  analyzerIn : ℕ
  analyzerOut : ℕ
  printer : ℕ
  logger : ℕ
  deriving DecidableEq, Repr

variable {ω V : Type}

/-- When the loop has to be left, if it has read the clock. The time point is that reading and
`CONDVAR_WAIT_TIME_MS`. -/
def WaitPc.endBy (ms : ℕ) : WaitPc → Option ℕ
  | timePoint => none
  | test tp | killSwitch tp | wait tp =>
    some (tp.toNs + ms * 1000000 - Reader.condvarWaitTimeMs * 1000000)

namespace Durations

variable (b : Durations)

/-- The end of the wait loop that the location is in. The logger is in its loop while it waits. -/
def loopEnd : (t : Thread ω) → Pc V t → Option ℕ
  | .reader, .waiting _ w => w.endBy b.reader
  | .analyzer, .waitingIn _ w => w.endBy b.analyzerIn
  | .analyzer, .waitingOut _ w => w.endBy b.analyzerOut
  | .printer, .waiting _ w => w.endBy b.printer
  | .logger, .wait tp => (WaitPc.wait tp).endBy b.logger
  | _, _ => none

/-- The time that an instruction takes at most, unless it is a wait. -/
def callMs {K : Type} : Code V K → Option ℕ
  | .call (.tryLock _ _) _ => some b.lock
  | .call (.waitUntil _ _ _) _ => none
  | .sleep ms _ => some ms
  | _ => some 0

/-- A thread that got to `l` at `since` may still be there at `now`. One that has returned from its
function may not, if it got there before. -/
structure InTime [DecidableEq ω] [PercentageValue V] (t : Thread ω) (l : Loc V t)
    (since now : ℕ) : Prop where
  call : ∀ ms ∈ b.callMs ((program ω V).code t l), now ≤ since + ms * 1000000
  loop : ∀ n ∈ b.loopEnd t l.pc, now ≤ max since n

instance [DecidableEq ω] [PercentageValue V] (t : Thread ω) (l : Loc V t) (since now : ℕ) :
    Decidable (b.InTime t l since now) :=
  decidable_of_iff ((∀ ms ∈ b.callMs ((program ω V).code t l), now ≤ since + ms * 1000000) ∧
    ∀ n ∈ b.loopEnd t l.pc, now ≤ max since n) ⟨fun h => ⟨h.1, h.2⟩, fun h => ⟨h.1, h.2⟩⟩

end Durations

/-! ## The time to the next report -/

/-- The lock attempts that a call still makes, of `k` milliseconds each. -/
def Frame.lockMs (k : ℕ) : Frame → ℕ
  | log (.level _) | log (.timeStr _) | log (.threadInfo _ _) | log (.lock _) => k
  | log _ => 0
  | report .threadInfo | report (.lock _) => 3 * k
  | report (.stamp _) | report .unlock => 2 * k
  | report .notify => k

/-- `exit` is the time behind the loop. -/
def WaitPc.reportMs (ms exit : ℕ) : WaitPc → ℕ
  | timePoint => ms + exit
  | _ => exit

def ReaderPc.reportMs (b : Durations) : ReaderPc → ℕ
  | exited | threadInfoSet | head => 0
  | load => b.reader + 8 * b.lock + 500
  | lock _ => b.reader + 6 * b.lock + 500
  | waiting _ w => w.reportMs b.reader (5 * b.lock + 500)
  | killTest _ | write _ | unlock _ => 4 * b.lock + 500
  | breakUnlock => 2 * b.lock
  | notify _ => 3 * b.lock + 500
  | destroy _ | sleep => 500

def AnalyzerPc.reportMs (b : Durations) : AnalyzerPc V → ℕ
  | exited | threadInfoSet | mallocOld | mallocNew _ | mallocUsageInfo _ _ | head _ => 0
  | lockIn _ => b.analyzerIn + b.analyzerOut + 9 * b.lock
  | waitingIn _ w => w.reportMs b.analyzerIn (b.analyzerOut + 8 * b.lock)
  | killTestIn _ | read _ | unlockIn _ | notifyIn _ => b.analyzerOut + 7 * b.lock
  | emptyUnlock _ => b.lock
  | lockOut _ => b.analyzerOut + 6 * b.lock
  | waitingOut _ w => w.reportMs b.analyzerOut (5 * b.lock)
  | killTestOut _ | write _ | unlockOut _ | notifyOut _ => 4 * b.lock
  | breakUnlockIn | breakUnlockOut => 2 * b.lock

def PrinterPc.reportMs (b : Durations) : PrinterPc V → ℕ
  | exited | threadInfoSet | malloc | head _ => 0
  | lock _ => b.printer + 4 * b.lock
  | waiting _ w => w.reportMs b.printer (3 * b.lock)
  | killTest _ | read _ | breakUnlock => 2 * b.lock
  | unlock _ | print _ => b.lock

/-- Two lock attempts at most: the logger reports before it waits. -/
def LoggerPc.reportMs (b : Durations) : LoggerPc → ℕ
  | exited | threadInfoSet | fopen | head | drain .loop | fputs .loop _ => 0
  | lock | wait _ => 2 * b.lock
  | timePoint | isEmpty _ | killSwitch _ | killTest | swap | unlock => b.lock
  | drain .finalSecondaryBuf | fputs .finalSecondaryBuf _ => b.lock
  | finalUnlock | drain .finalInBuf | fputs .finalInBuf _ | finalSwap => 2 * b.lock
  | finalLock => 3 * b.lock
  | breakUnlock => 4 * b.lock

namespace Durations

variable (b : Durations)

def pcMs : (t : Thread ω) → Pc V t → ℕ
  | .reader => ReaderPc.reportMs b
  | .analyzer => AnalyzerPc.reportMs b
  | .printer => PrinterPc.reportMs b
  | .logger => LoggerPc.reportMs b
  | .watchdog | .other _ => fun _ => 0

/-- The time from one report to the next. -/
def roundMs : Worker → ℕ
  | .reader => b.reader + 11 * b.lock + 500
  | .analyzer => b.analyzerIn + b.analyzerOut + 12 * b.lock
  | .printer => b.printer + 7 * b.lock
  | .logger => b.logger + 7 * b.lock

/-- By when a thread reports that got to `l` at `since`. -/
def limit (t : Thread ω) (l : Loc V t) (since : ℕ) : ℕ :=
  if l.reports then since
  else match b.loopEnd t l.pc with
    | some n => max since n + b.pcMs t l.pc * 1000000
    | none => since + l.weigh (Frame.lockMs b.lock) (b.pcMs t) * 1000000

variable {b} {t : Thread ω} {l : Loc V t} {since : ℕ}

theorem limit_of_reports (h : l.reports = true) : b.limit t l since = since := if_pos h

theorem le_limit_self (t : Thread ω) (l : Loc V t) (since : ℕ) : since ≤ b.limit t l since := by
  unfold limit
  split
  · exact le_refl _
  · split
    · exact (le_max_left _ _).trans (Nat.le_add_right _ _)
    · exact Nat.le_add_right _ _

theorem limit_of_loop {n : ℕ} (hl : l.reports = false) (h : b.loopEnd t l.pc = some n) :
    b.limit t l since = max since n + b.pcMs t l.pc * 1000000 := by
  unfold limit
  rw [h, hl]
  rfl

theorem limit_of_weigh (hl : l.reports = false) (h : b.loopEnd t l.pc = none) :
    b.limit t l since = since + l.weigh (Frame.lockMs b.lock) (b.pcMs t) * 1000000 := by
  unfold limit
  rw [h, hl]
  rfl

theorem limit_nil {pc : Pc V t} (h : b.loopEnd t pc = none) :
    b.limit t ⟨[], pc⟩ since = since + b.pcMs t pc * 1000000 := by
  have hweigh : (⟨[], pc⟩ : Loc V t).weigh (Frame.lockMs b.lock) (b.pcMs t) = b.pcMs t pc :=
    Nat.zero_add _
  rw [limit_of_weigh rfl h, hweigh]

theorem limit_le_of_loop {n : ℕ} (h : b.loopEnd t l.pc = some n) :
    b.limit t l since ≤ max since n + b.pcMs t l.pc * 1000000 := by
  cases hl : l.reports with
  | true =>
    rw [limit_of_reports hl]
    exact (le_max_left _ _).trans (Nat.le_add_right _ _)
  | false => exact (limit_of_loop hl h).le

theorem limit_le_of_weigh (h : b.loopEnd t l.pc = none) :
    b.limit t l since ≤ since + l.weigh (Frame.lockMs b.lock) (b.pcMs t) * 1000000 := by
  cases hl : l.reports with
  | true =>
    rw [limit_of_reports hl]
    exact Nat.le_add_right _ _
  | false => exact (limit_of_weigh hl h).le

end Durations

/-! ## Every instruction spends its time -/

section

variable [DecidableEq ω] {b : Durations} {t : Thread ω} {d : Data ω V}

@[simp] theorem Control.reports_goto {P : Type} (pc : P) : (Control.goto pc).reports = false := rfl

@[simp] theorem Control.reports_log {P : Type} (level : LogLevel) (text : String) (l : Control P) :
    (l.log level text).reports = false := rfl

@[simp] theorem Control.reports_reportActive {P : Type} (l : Control P) :
    l.reportActive.reports = true := rfl

@[simp] theorem Frame.lockMs_level (k : ℕ) (call : LogCall) :
    (Frame.log (.level call)).lockMs k = k := rfl

/-- The location is in a wait loop. -/
def pcLoops : (t : Thread ω) → Pc V t → Bool
  | .reader, .waiting _ _ | .analyzer, .waitingIn _ _ | .analyzer, .waitingOut _ _
  | .printer, .waiting _ _ | .logger, .wait _ => true
  | _, _ => false

/-- At a location with `n` milliseconds left, the instruction does not take more, together with
what the thread takes from there on, unless the thread reports. It does not lead into a wait. -/
def Spends (b : Durations) (t : Thread ω) (n : ℕ) (d : Data ω V) (g : Code V (Loc V t)) : Prop :=
  g.Post (Data.perform t) (fun _ => True)
    (fun l _ _ => l.reports = true ∧ (b.callMs g).getD 0 ≤ n ∨ b.loopEnd t l.pc = none ∧
      (b.callMs g).getD 0 + l.weigh (Frame.lockMs b.lock) (b.pcMs t) ≤ n) ∅ d

theorem Reader.spends (hk : d.killSwitch = false) (pc : ReaderPc)
    (hloop : pcLoops (V := V) (.reader : Thread ω) pc = false) :
    Spends b (.reader : Thread ω) (pc.reportMs b) d (Reader.code pc) := by
  cases pc with
  | waiting p w => cases hloop
  | load =>
    intro i _
    have hlogs := Nat.mul_le_mul_left b.lock i.file.length_logs_le
    simp only [Data.perform, PipeAct.perform]
    cases i.file.result with
    | none =>
      refine .inr ?_
      simp [code, weigh_logAll (Frame.lockMs_level b.lock), Durations.loopEnd, Durations.pcMs,
        ReaderPc.reportMs, Durations.callMs]
      omega
    | some p =>
      refine .inr ?_
      simp [code, weigh_logAll (Frame.lockMs_level b.lock), Durations.loopEnd, Durations.pcMs,
        ReaderPc.reportMs, Durations.callMs]
      omega
  | _ =>
    simp [Spends, code, exiting, hk, Durations.loopEnd, Durations.pcMs, ReaderPc.reportMs,
      WaitPc.endBy, WaitPc.reportMs, Durations.callMs, sleepTimeMs, Data.perform]
    try omega

theorem Analyzer.spends [PercentageValue V] (hk : d.killSwitch = false) (pc : AnalyzerPc V)
    (hloop : pcLoops (.analyzer : Thread ω) pc = false) :
    Spends b (.analyzer : Thread ω) (pc.reportMs b) d (Analyzer.code pc) := by
  cases pc with
  | waitingIn v w | waitingOut v w => cases hloop
  | mallocUsageInfo old new =>
    intro i _
    simp only [Data.perform]
    cases old <;> cases new <;> cases i.ok <;>
      simp [code, Durations.loopEnd, Durations.pcMs, AnalyzerPc.reportMs, Durations.callMs]
  | read v =>
    intro i _
    simp only [Data.perform, PipeAct.perform]
    cases d.pipeline.procStatCbuf.read.1 <;>
      simp [code, Durations.loopEnd, Durations.pcMs, AnalyzerPc.reportMs, Durations.callMs]
    omega
  | notifyIn v =>
    have hsample : b.loopEnd (.analyzer : Thread ω) (haveSample v).pc = none ∧
        (haveSample v).weigh (Frame.lockMs b.lock) (AnalyzerPc.reportMs b) ≤
          b.analyzerOut + 6 * b.lock := by
      unfold haveSample
      split <;> simp [Durations.loopEnd, AnalyzerPc.reportMs]
    intro r _ _
    refine .inr ?_
    cases r <;>
      simp [code, hsample, Durations.pcMs, AnalyzerPc.reportMs, Durations.callMs] <;> omega
  | _ =>
    simp [Spends, code, exiting, hk, Durations.loopEnd, Durations.pcMs, AnalyzerPc.reportMs,
      WaitPc.endBy, WaitPc.reportMs, Durations.callMs, traceLogs,
      weigh_logAll (Frame.lockMs_level b.lock), Data.perform]
    try omega

theorem Printer.spends (hk : d.killSwitch = false) (pc : PrinterPc V)
    (hloop : pcLoops (.printer : Thread ω) pc = false) :
    Spends b (.printer : Thread ω) (pc.reportMs b) d (Printer.code pc) := by
  cases pc with
  | waiting u w => cases hloop
  | malloc =>
    intro i _
    simp only [Data.perform]
    cases i.ok <;> simp [code, Durations.loopEnd, Durations.pcMs, PrinterPc.reportMs,
      Durations.callMs]
  | read u =>
    intro i _
    simp only [Data.perform, PipeAct.perform]
    cases d.pipeline.usageInfoCbuf.read.1 <;>
      simp [code, Durations.loopEnd, Durations.pcMs, PrinterPc.reportMs, Durations.callMs] <;> omega
  | _ =>
    simp [Spends, code, exiting, hk, Durations.loopEnd, Durations.pcMs, PrinterPc.reportMs,
      WaitPc.endBy, WaitPc.reportMs, Durations.callMs, Data.perform]
    try omega

theorem Logger.spends (hk : d.killSwitch = false) (pc : LoggerPc)
    (hloop : pcLoops (V := V) (.logger : Thread ω) pc = false) :
    Spends (V := V) b (.logger : Thread ω) (pc.reportMs b) d (Logger.code pc) := by
  have hnext : ∀ k x, b.loopEnd (V := V) (.logger : Thread ω) (drainNext k x).pc = none ∧
      (drainNext k x).weigh (Frame.lockMs b.lock) (LoggerPc.reportMs b) ≤
        (LoggerPc.drain k).reportMs b := by
    intro k x
    cases k <;> cases x <;>
      simp [drainNext, drained, exiting, Durations.loopEnd, LoggerPc.reportMs]
  cases pc with
  | wait tp => cases hloop
  | drain k =>
    have hdrain : ∀ x, b.loopEnd (V := V) (.logger : Thread ω) (drainNext k x).pc = none ∧
        0 + (drainNext k x).weigh (Frame.lockMs b.lock) (LoggerPc.reportMs b) ≤
          (LoggerPc.drain k).reportMs b := by
      intro x
      rw [Nat.zero_add]
      exact hnext k x
    cases k <;> exact fun i _ => .inr (hdrain _)
  | fputs k item =>
    cases k <;> simp [Spends, code, Durations.loopEnd, Durations.pcMs, LoggerPc.reportMs,
      Durations.callMs]
  | _ =>
    simp [Spends, code, exiting, hk, Durations.loopEnd, Durations.pcMs, LoggerPc.reportMs,
      Durations.callMs, Data.perform]
    try omega

/-- The lock attempts of the calls. -/
theorem Frame.spends (f : Frame) : (f.code : Code V (List Frame)).Post (Data.perform t)
    (fun _ => True) (fun gs _ _ => (b.callMs (f.code : Code V (List Frame))).getD 0 +
      callsWeight (lockMs b.lock) gs ≤ f.lockMs b.lock) ∅ d := by
  cases f with
  | log f => cases f <;> simp [code, LogPc.code, callsWeight, lockMs, Durations.callMs]
  | report f =>
    cases f with
    | threadInfo =>
      intro i _
      simp only [Data.perform]
      split <;> simp [code, ReportPc.code, callsWeight, lockMs, Durations.callMs]
    | _ =>
      simp [code, ReportPc.code, callsWeight, lockMs, Durations.callMs, logError]
      try omega

/-! ## The next location -/

variable {n since now : ℕ} {o : Set Mutex}

/-- At the next location, the thread reports no later. -/
def Nears (b : Durations) (t : Thread ω) (n now : ℕ) (o : Set Mutex) (d : Data ω V)
    (g : Code V (Loc V t)) : Prop :=
  g.Post (Data.perform t) (fun _ => True) (fun l _ _ => b.limit t l now ≤ n) o d

theorem Spends.nears {g : Code V (Loc V t)} (h : Spends b t n d g)
    (hcall : ∀ ms ∈ b.callMs g, now ≤ since + ms * 1000000) (hg : b.callMs g ≠ none) :
    Nears b t (since + n * 1000000) now o d g := by
  obtain ⟨ms, hms⟩ := Option.ne_none_iff_exists'.1 hg
  have hnow := hcall ms hms
  have hown : (b.callMs g).getD 0 = ms := by rw [hms, Option.getD_some]
  refine (h.mono (fun l _ _ hl => ?_) fun _ h => h).of_empty fun _ h => h
  rw [hown] at hl
  rcases hl with ⟨hreports, hle⟩ | ⟨hend, hle⟩
  · rw [Durations.limit_of_reports hreports]
    exact hnow.trans (Nat.add_le_add_left (Nat.mul_le_mul_right _ hle) _)
  · have hlimit : b.limit t l now ≤ _ := Durations.limit_le_of_weigh hend
    omega

theorem near_endBy {tp : Timespec} {ms : ℕ} (h : Near n tp) :
    ∀ m ∈ (WaitPc.wait tp).endBy ms, m ≤ n + ms * 1000000 := by
  intro m hm
  obtain rfl := Option.some.inj hm
  exact Nat.sub_le_of_le_add ((Nat.add_le_add_right h.le _).trans_eq (Nat.add_right_comm ..))

/-- The locations of a wait loop of at most `ms` milliseconds, with `exit` behind it. -/
structure Durations.Loops (b : Durations) (t : Thread ω) (ms : ℕ) (here : WaitPc → Pc V t)
    (exit : Pc V t) : Prop where
  loopEnd_here : ∀ x, b.loopEnd t (here x) = x.endBy ms
  pcMs_here : ∀ x, b.pcMs t (here x) = x.reportMs ms (b.lock + b.pcMs t exit)
  loopEnd_exit : b.loopEnd t exit = none

namespace Durations.Loops

variable {ms m : ℕ} {here : WaitPc → Pc V t} {exit : Pc V t} {l : Loc V t} {x : WaitPc}

omit [DecidableEq ω]

theorem pcMs_of_end (h : b.Loops t ms here exit) (hm : m ∈ x.endBy ms) :
    b.pcMs t (here x) = b.lock + b.pcMs t exit := by
  rw [h.pcMs_here]
  cases x <;> first | rfl | cases hm

/-- Once the clock has been read, the end of the loop is fixed. -/
theorem limit_here (h : b.Loops t ms here exit) (hm : m ∈ x.endBy ms) :
    b.limit t ⟨[], here x⟩ since = max since m + (b.lock + b.pcMs t exit) * 1000000 := by
  have hend : b.loopEnd t (here x) = some m := by rwa [h.loopEnd_here]
  have hlimit : b.limit t ⟨[], here x⟩ since = _ := limit_of_loop rfl hend
  rw [hlimit, h.pcMs_of_end hm]

theorem limit_timePoint (h : b.Loops t ms here exit) :
    b.limit t ⟨[], here .timePoint⟩ since =
      since + ms * 1000000 + (b.lock + b.pcMs t exit) * 1000000 := by
  have hend : b.loopEnd t (here .timePoint) = none := h.loopEnd_here _
  rw [limit_nil hend, h.pcMs_here, WaitPc.reportMs, Nat.add_mul, Nat.add_assoc]

/-- The thread stays in the loop. -/
theorem limit_stay (h : b.Loops t ms here exit) (hm : m ∈ x.endBy ms) (hl : l.pc = here x) :
    b.limit t l now ≤ max now m + (b.lock + b.pcMs t exit) * 1000000 := by
  have hlimit : b.limit t l now ≤ _ := limit_le_of_loop (n := m) (by rwa [hl, h.loopEnd_here])
  rwa [hl, h.pcMs_of_end hm] at hlimit

/-- The thread leaves the loop, and makes one lock attempt at most on the way. -/
theorem limit_leave (h : b.Loops t ms here exit) (hl : l.pc = exit)
    (hle : l.weigh (Frame.lockMs b.lock) (b.pcMs t) ≤ b.lock + b.pcMs t exit) :
    b.limit t l now ≤ now + (b.lock + b.pcMs t exit) * 1000000 := by
  have hend : b.loopEnd t l.pc = none := by rw [hl, h.loopEnd_exit]
  exact (limit_le_of_weigh hend).trans (Nat.add_le_add_left (Nat.mul_le_mul_right _ hle) _)

end Durations.Loops

/-- The instructions of a wait loop. The time point is two seconds ahead of the clock. -/
theorem WaitLoop.nears (w : WaitLoop) (hwait : w.ms = 2000) {ms : ℕ}
    {here : WaitPc → Pc V t} {exit : Pc V t} (h : b.Loops t ms here exit) {pc : WaitPc}
    (hnow : d.clock = now) (hcall : pc = .timePoint → now ≤ since)
    (hloop : ∀ m ∈ b.loopEnd t (here pc), now ≤ max since m) :
    Nears b t (b.limit t ⟨[], here pc⟩ since) now o d (w.code here (.goto exit) pc) := by
  rw [h.loopEnd_here] at hloop
  have hstay : ∀ (l : Loc V t) (x : WaitPc), ∀ m ∈ pc.endBy ms, m ∈ x.endBy ms → l.pc = here x →
      b.limit t l now ≤ b.limit t ⟨[], here pc⟩ since := by
    intro l x m hm hx hl
    rw [h.limit_here hm]
    have hin := max_le (hloop m hm) (le_max_right since m)
    exact (h.limit_stay hx hl).trans (Nat.add_le_add_right hin _)
  have hleave : ∀ l : Loc V t, ∀ m ∈ pc.endBy ms, l.pc = exit →
      l.weigh (Frame.lockMs b.lock) (b.pcMs t) ≤ b.lock + b.pcMs t exit →
      b.limit t l now ≤ b.limit t ⟨[], here pc⟩ since := by
    intro l m hm hl hle
    rw [h.limit_here hm]
    exact (h.limit_leave hl hle).trans (Nat.add_le_add_right (hloop m hm) _)
  cases pc with
  | timePoint =>
    intro i _
    obtain ⟨m, hm⟩ :
        ∃ m, (WaitPc.test (timePointMs (timespecGet d.clock) 2000)).endBy ms = some m :=
      ⟨_, rfl⟩
    have hnear : m ≤ now + ms * 1000000 := by
      rw [← hnow]
      exact near_endBy (near_timePointMs d.clock) m hm
    simp only [Data.perform, hwait]
    refine (h.limit_stay hm rfl).trans ?_
    rw [h.limit_timePoint]
    refine Nat.add_le_add_right (max_le ((hcall rfl).trans (Nat.le_add_right _ _)) ?_) _
    exact hnear.trans (Nat.add_le_add_right (hcall rfl) _)
  | test tp =>
    intro i _
    simp only
    split
    · exact hstay _ (.killSwitch tp) _ rfl rfl rfl
    · exact hleave _ _ rfl rfl (by simp)
  | killSwitch tp =>
    intro i _
    simp only
    split
    · exact hleave _ _ rfl rfl (by simp)
    · exact hstay _ (.wait tp) _ rfl rfl rfl
  | wait tp =>
    intro r _ _
    cases r with
    | success | timedout => exact hleave _ _ rfl rfl (by simp; omega)
    | error => exact hstay _ (.test tp) _ rfl rfl rfl

variable [PercentageValue V] {w : Worker}

omit [DecidableEq ω] in
/-- Outside of the loops no instruction takes longer than the time that is left. -/
theorem body_callMs (w : Worker) (pc : Pc V (w.thread : Thread ω))
    (h : b.loopEnd w.thread pc = none) :
    ∃ ms ∈ b.callMs (body w.thread pc), ms ≤ b.pcMs w.thread pc := by
  cases w with
  | reader =>
    cases pc with
    | waiting p w => cases w <;> first | exact ⟨0, rfl, Nat.zero_le _⟩ | cases h
    | lock p =>
      refine ⟨_, rfl, ?_⟩
      simp only [Durations.pcMs, Worker.thread, ReaderPc.reportMs]
      omega
    | sleep => exact ⟨500, rfl, le_refl _⟩
    | _ => exact ⟨0, rfl, Nat.zero_le _⟩
  | analyzer =>
    cases pc with
    | waitingIn v w | waitingOut v w =>
      cases w <;> first | exact ⟨0, rfl, Nat.zero_le _⟩ | cases h
    | lockIn v | lockOut v =>
      exact ⟨_, rfl, by simp only [Durations.pcMs, Worker.thread, AnalyzerPc.reportMs]; omega⟩
    | _ => exact ⟨0, rfl, Nat.zero_le _⟩
  | printer =>
    cases pc with
    | waiting u w => cases w <;> first | exact ⟨0, rfl, Nat.zero_le _⟩ | cases h
    | lock u =>
      exact ⟨_, rfl, by simp only [Durations.pcMs, Worker.thread, PrinterPc.reportMs]; omega⟩
    | _ => exact ⟨0, rfl, Nat.zero_le _⟩
  | logger =>
    cases pc with
    | wait tp => cases h
    | drain k => cases k <;> exact ⟨0, rfl, Nat.zero_le _⟩
    | lock | finalLock =>
      exact ⟨_, rfl, by simp only [Durations.pcMs, Worker.thread, LoggerPc.reportMs]; omega⟩
    | _ => exact ⟨0, rfl, Nat.zero_le _⟩

omit [DecidableEq ω] [PercentageValue V] in
theorem loopEnd_of_pcLoops {pc : Pc V t} (h : pcLoops t pc = false) : b.loopEnd t pc = none := by
  cases t with
  | reader | printer | analyzer | logger =>
    cases pc <;> first | rfl | cases h
  | watchdog | other w => rfl

/-- The thread functions outside of the wait loops. -/
theorem body_spends (hk : d.killSwitch = false) (w : Worker) (pc : Pc V (w.thread : Thread ω))
    (h : pcLoops w.thread pc = false) :
    Spends b w.thread (b.pcMs w.thread pc) d (body w.thread pc) := by
  cases w with
  | reader => exact Reader.spends hk pc h
  | analyzer => exact Analyzer.spends hk pc h
  | printer => exact Printer.spends hk pc h
  | logger => exact Logger.spends hk pc h

section

omit [DecidableEq ω] [PercentageValue V]

theorem Reader.loops (p : Sample) :
    b.Loops (V := V) (.reader : Thread ω) b.reader (.waiting p) (.killTest p) where
  loopEnd_here _ := rfl
  pcMs_here x := by
    cases x <;> simp only [Durations.pcMs, ReaderPc.reportMs, WaitPc.reportMs] <;> omega
  loopEnd_exit := rfl

theorem Analyzer.loopsIn (v : AnalyzerVars V) :
    b.Loops (.analyzer : Thread ω) b.analyzerIn (.waitingIn v) (.killTestIn v) where
  loopEnd_here _ := rfl
  pcMs_here x := by
    cases x <;> simp only [Durations.pcMs, AnalyzerPc.reportMs, WaitPc.reportMs] <;> omega
  loopEnd_exit := rfl

theorem Analyzer.loopsOut (v : AnalyzerVars V) :
    b.Loops (.analyzer : Thread ω) b.analyzerOut (.waitingOut v) (.killTestOut v) where
  loopEnd_here _ := rfl
  pcMs_here x := by
    cases x <;> simp only [Durations.pcMs, AnalyzerPc.reportMs, WaitPc.reportMs] <;> omega
  loopEnd_exit := rfl

theorem Printer.loops (u : CpuUsageInfo V) :
    b.Loops (.printer : Thread ω) b.printer (.waiting u) (.killTest u) where
  loopEnd_here _ := rfl
  pcMs_here x := by
    cases x <;> simp only [Durations.pcMs, PrinterPc.reportMs, WaitPc.reportMs] <;> omega
  loopEnd_exit := rfl

end

omit [PercentageValue V] in
/-- The wait of the logger. -/
theorem Logger.nears_wait {tp : Timespec}
    (hloop : ∀ m ∈ b.loopEnd (V := V) (.logger : Thread ω) (.wait tp), now ≤ max since m) :
    Nears (V := V) b (.logger : Thread ω)
      (b.limit (V := V) (.logger : Thread ω) ⟨[], .wait tp⟩ since) now o d
      (Logger.code (.wait tp)) := by
  obtain ⟨m, hm⟩ : ∃ m, b.loopEnd (V := V) (.logger : Thread ω) (.wait tp) = some m := ⟨_, rfl⟩
  have hin := hloop m hm
  have hlimit : b.limit (V := V) (.logger : Thread ω) ⟨[], .wait tp⟩ since =
      max since m + 2 * b.lock * 1000000 := Durations.limit_of_loop rfl hm
  rw [hlimit]
  intro r _ _
  refine (Durations.limit_le_of_weigh ?_).trans (Nat.add_le_add hin (Nat.mul_le_mul_right _ ?_))
  · cases r <;> rfl
  · cases r <;> simp [Durations.pcMs, LoggerPc.reportMs] <;> omega

/-- The instructions of the thread functions. -/
theorem body_nears (hk : d.killSwitch = false) (hnow : d.clock = now) (w : Worker)
    (pc : Pc V (w.thread : Thread ω))
    (hcall : ∀ ms ∈ b.callMs (body w.thread pc), now ≤ since + ms * 1000000)
    (hloop : ∀ m ∈ b.loopEnd w.thread pc, now ≤ max since m) :
    Nears b w.thread (b.limit w.thread ⟨[], pc⟩ since) now o d (body w.thread pc) := by
  by_cases hloops : pcLoops w.thread pc = false
  · have hend : b.loopEnd w.thread pc = none := loopEnd_of_pcLoops hloops
    obtain ⟨ms, hms, -⟩ := body_callMs w pc hend
    rw [Durations.limit_nil hend]
    exact (body_spends hk w pc hloops).nears hcall (Option.ne_none_iff_exists'.2 ⟨ms, hms⟩)
  · cases w with
    | reader =>
      cases pc with
      | waiting p w =>
        exact WaitLoop.nears Reader.outNotFull rfl (Reader.loops p) hnow
          (by rintro rfl; exact hcall 0 rfl) hloop
      | _ => exact absurd rfl hloops
    | analyzer =>
      cases pc with
      | waitingIn v w =>
        exact WaitLoop.nears Analyzer.inNotEmpty rfl (Analyzer.loopsIn v) hnow
          (by rintro rfl; exact hcall 0 rfl) hloop
      | waitingOut v w =>
        exact WaitLoop.nears Analyzer.outNotFull rfl (Analyzer.loopsOut v) hnow
          (by rintro rfl; exact hcall 0 rfl) hloop
      | _ => exact absurd rfl hloops
    | printer =>
      cases pc with
      | waiting u w =>
        exact WaitLoop.nears Printer.inNotEmpty rfl (Printer.loops u) hnow
          (by rintro rfl; exact hcall 0 rfl) hloop
      | _ => exact absurd rfl hloops
    | logger =>
      cases pc with
      | wait tp => exact Logger.nears_wait hloop
      | _ => exact absurd rfl hloops

omit [DecidableEq ω] [PercentageValue V] in
/-- No call waits. -/
theorem Frame.callMs (f : Frame) :
    ∃ ms ∈ b.callMs (f.code : Code V (List Frame)), ms ≤ f.lockMs b.lock := by
  rcases f with x | x
  · cases x <;> first | exact ⟨0, rfl, Nat.zero_le _⟩ | exact ⟨b.lock, rfl, le_refl _⟩
  · cases x with
    | lock tid => exact ⟨b.lock, rfl, Nat.le_mul_of_pos_left _ (by decide)⟩
    | _ => exact ⟨0, rfl, Nat.zero_le _⟩

omit [DecidableEq ω] [PercentageValue V] in
@[simp] theorem Durations.callMs_map {K K' : Type} (f : K → K') (g : Code V K) :
    b.callMs (g.map f) = b.callMs g := by
  rcases g with (_ | _ | _ | _) | _ | _ | _ <;> rfl

/-- A worker's instructions, except at the beginning of `Watchdog_reportActive`. -/
theorem program_nears (hk : d.killSwitch = false) (hnow : d.clock = now) {w : Worker}
    {l : Loc V (w.thread : Thread ω)} (hl : l.reports = false)
    (hin : b.InTime w.thread l since now) :
    Nears b w.thread (b.limit w.thread l since) now o d ((program ω V).code w.thread l) := by
  obtain ⟨hcall, hloop⟩ := hin
  obtain ⟨calls, pc⟩ := l
  cases calls with
  | nil => exact body_nears hk hnow w pc hcall hloop
  | cons f fs =>
    rw [program_code_cons] at hcall ⊢
    unfold Nears
    rw [Instr.post_map]
    cases hend : b.loopEnd w.thread pc with
    | some m =>
      have hlimit : b.limit w.thread ⟨f :: fs, pc⟩ since = _ := Durations.limit_of_loop hl hend
      rw [hlimit]
      refine Instr.post_of_forall (fun gs _ _ => ?_) _
      have hle := max_le (hloop m hend) (le_max_right since m)
      exact (Durations.limit_le_of_loop hend).trans (Nat.add_le_add_right hle _)
    | none =>
      have hlimit : b.limit w.thread ⟨f :: fs, pc⟩ since = _ := Durations.limit_of_weigh hl hend
      rw [hlimit]
      rw [Durations.callMs_map] at hcall
      obtain ⟨ms, hms, -⟩ := f.callMs (b := b) (V := V)
      have hnext := f.spends (b := b) (t := w.thread) (d := d)
      rw [hms, Option.getD_some] at hnext
      refine (hnext.mono (fun gs _ _ hgs => ?_) fun _ h => h).of_empty fun _ h => h
      refine (Durations.limit_le_of_weigh hend).trans ?_
      have hweigh : ms + (⟨gs ++ fs, pc⟩ : Loc V (w.thread : Thread ω)).weigh (Frame.lockMs b.lock)
          (b.pcMs w.thread) ≤ (⟨f :: fs, pc⟩ : Loc V (w.thread : Thread ω)).weigh
          (Frame.lockMs b.lock) (b.pcMs w.thread) := by
        simp only [Control.weigh, callsWeight_append, callsWeight_cons]
        omega
      calc now + _ * 1000000
          ≤ since + ms * 1000000 + _ * 1000000 := Nat.add_le_add_right (hcall ms hms) _
        _ = since + (ms + _) * 1000000 := by rw [Nat.add_assoc, ← Nat.add_mul]
        _ ≤ _ := Nat.add_le_add_left (Nat.mul_le_mul_right _ hweigh) _

/-- A worker that is in time has not passed its limit. -/
theorem Durations.InTime.le_limit {w : Worker} {l : Loc V (w.thread : Thread ω)}
    (hin : b.InTime w.thread l since now) : now ≤ b.limit w.thread l since := by
  obtain ⟨hcall, hloop⟩ := hin
  cases hl : l.reports with
  | true =>
    rw [limit_of_reports hl]
    obtain ⟨f, fs, hcalls, rfl⟩ : ∃ f fs, l.calls = f :: fs ∧ f = .report .threadInfo := by
      unfold Control.reports at hl
      split at hl
      · exact ⟨_, _, rfl, rfl⟩
      · cases hl
    have hnow := hcall 0 (by
      obtain ⟨calls, pc⟩ := l
      obtain rfl : calls = _ := hcalls
      rfl)
    rwa [Nat.zero_mul] at hnow
  | false =>
    cases hend : b.loopEnd w.thread l.pc with
    | some m =>
      rw [limit_of_loop hl hend]
      exact (hloop m hend).trans (Nat.le_add_right _ _)
    | none =>
      rw [limit_of_weigh hl hend]
      obtain ⟨calls, pc⟩ := l
      obtain ⟨ms, hms, hle⟩ : ∃ ms ∈ b.callMs ((program ω V).code w.thread ⟨calls, pc⟩),
          ms ≤ (⟨calls, pc⟩ : Loc V (w.thread : Thread ω)).weigh (Frame.lockMs b.lock)
            (b.pcMs w.thread) := by
        cases calls with
        | nil =>
          obtain ⟨ms, hms, hle⟩ := body_callMs w pc hend
          exact ⟨ms, hms, hle.trans (Nat.le_add_left _ _)⟩
        | cons f fs =>
          obtain ⟨ms, hms, hle⟩ := f.callMs (b := b) (V := V)
          refine ⟨ms, by rwa [program_code_cons, callMs_map], hle.trans ?_⟩
          rw [Control.weigh, callsWeight_cons, Nat.add_assoc]
          exact Nat.le_add_right _ _
      exact (hcall ms hms).trans (Nat.add_le_add_left (Nat.mul_le_mul_right _ hle) _)

/-- A wait that begins late is over no later. -/
theorem Durations.InTime.limit_of_waits {w : Worker} {l : Loc V (w.thread : Thread ω)} {m : Mutex}
    (hin : b.InTime w.thread l since now) (hm : ((program ω V).code w.thread l).waitsWith m) :
    b.limit w.thread l now ≤ b.limit w.thread l since := by
  obtain ⟨calls, pc⟩ := l
  cases calls with
  | nil =>
    cases hend : b.loopEnd w.thread pc with
    | some n =>
      have hsince : b.limit w.thread ⟨[], pc⟩ since = _ := limit_of_loop rfl hend
      have hle := max_le (hin.loop n hend) (le_max_right since n)
      rw [hsince]
      exact (limit_le_of_loop hend).trans (Nat.add_le_add_right hle _)
    | none =>
      obtain ⟨ms, hms, -⟩ := body_callMs w pc hend
      rw [program_code_nil] at hm
      generalize body w.thread pc = g at hm hms
      rcases g with (_ | _ | _ | _) | _ | _ | _ <;> first | exact hm.elim | cases hms
  | cons f fs =>
    rw [program_code_cons, Instr.waitsWith_map] at hm
    exact absurd hm (f.not_waits m)

end

/-! ## A round -/

section

variable {b : Durations} {t : Thread ω} {now : ℕ}

theorem ReaderPc.reportMs_le (pc : ReaderPc) :
    3 * b.lock + pc.reportMs b ≤ b.roundMs .reader := by
  cases pc with
  | waiting p x => cases x <;> simp only [reportMs, WaitPc.reportMs, Durations.roundMs] <;> omega
  | _ =>
    simp only [reportMs, Durations.roundMs]
    omega

theorem AnalyzerPc.reportMs_le (pc : AnalyzerPc V) :
    3 * b.lock + pc.reportMs b ≤ b.roundMs .analyzer := by
  cases pc with
  | waitingIn v x | waitingOut v x =>
    cases x <;> simp only [reportMs, WaitPc.reportMs, Durations.roundMs] <;> omega
  | _ =>
    simp only [reportMs, Durations.roundMs]
    omega

theorem PrinterPc.reportMs_le (pc : PrinterPc V) :
    3 * b.lock + pc.reportMs b ≤ b.roundMs .printer := by
  cases pc with
  | waiting u x => cases x <;> simp only [reportMs, WaitPc.reportMs, Durations.roundMs] <;> omega
  | _ =>
    simp only [reportMs, Durations.roundMs]
    omega

theorem LoggerPc.reportMs_le (pc : LoggerPc) :
    3 * b.lock + pc.reportMs b ≤ b.roundMs .logger := by
  cases pc with
  | drain k | fputs k item => cases k <;> simp only [reportMs, Durations.roundMs] <;> omega
  | _ =>
    simp only [reportMs, Durations.roundMs]
    omega

theorem pcMs_le_round (w : Worker) (pc : Pc V (w.thread : Thread ω)) :
    3 * b.lock + b.pcMs w.thread pc ≤ b.roundMs w := by
  cases w with
  | reader => exact ReaderPc.reportMs_le pc
  | analyzer => exact AnalyzerPc.reportMs_le pc
  | printer => exact PrinterPc.reportMs_le pc
  | logger => exact LoggerPc.reportMs_le pc

/-- The rest of a wait loop. -/
theorem WaitPc.endBy_le {ms rest round : ℕ} (h : ms + rest ≤ round) {x : WaitPc}
    (hx : x.Times now) : ∀ m ∈ x.endBy ms,
      m + x.reportMs ms rest * 1000000 ≤ now + round * 1000000 := by
  intro m hm
  have hend : ∀ tp : Timespec, Near now tp → m ∈ (WaitPc.wait tp).endBy ms →
      m + rest * 1000000 ≤ now + round * 1000000 := by
    intro tp htp hm
    calc m + rest * 1000000
        ≤ now + ms * 1000000 + rest * 1000000 := Nat.add_le_add_right (near_endBy htp m hm) _
      _ = now + (ms + rest) * 1000000 := by rw [Nat.add_assoc, ← Nat.add_mul]
      _ ≤ now + round * 1000000 := Nat.add_le_add_left (Nat.mul_le_mul_right _ h) _
  cases x with
  | timePoint => cases hm
  | test tp | killSwitch tp | wait tp => exact hend tp hx hm

theorem loopEnd_le_round {w : Worker} {pc : Pc V (w.thread : Thread ω)}
    (hpc : PcTimes now w.thread pc) : ∀ m ∈ b.loopEnd w.thread pc,
      m + b.pcMs w.thread pc * 1000000 ≤ now + b.roundMs w * 1000000 := by
  intro m hm
  cases w with
  | reader =>
    cases pc with
    | waiting p x => exact x.endBy_le (by simp only [Durations.roundMs]; omega) hpc m hm
    | _ => cases hm
  | analyzer =>
    cases pc with
    | waitingIn v x => exact x.endBy_le (by simp only [Durations.roundMs]; omega) hpc m hm
    | waitingOut v x => exact x.endBy_le (by simp only [Durations.roundMs]; omega) hpc m hm
    | _ => cases hm
  | printer =>
    cases pc with
    | waiting u x => exact x.endBy_le (by simp only [Durations.roundMs]; omega) hpc m hm
    | _ => cases hm
  | logger =>
    cases pc with
    | wait tp =>
      have hround : b.logger + 2 * b.lock ≤ b.roundMs .logger := by
        simp only [Durations.roundMs]
        omega
      exact (WaitPc.wait tp).endBy_le hround hpc m hm
    | _ => cases hm

/-- Three lock attempts at most are made before the thread goes on. -/
theorem limit_le_round {w : Worker} {calls : List Frame} {pc : Pc V (w.thread : Thread ω)}
    (hpc : PcTimes now w.thread pc)
    (hcalls : callsWeight (Frame.lockMs b.lock) calls ≤ 3 * b.lock) :
    b.limit w.thread ⟨calls, pc⟩ now ≤ now + b.roundMs w * 1000000 := by
  have hms := pcMs_le_round (b := b) w pc
  cases hend : b.loopEnd w.thread pc with
  | some m =>
    refine (Durations.limit_le_of_loop hend).trans ?_
    rw [← Nat.add_max_add_right]
    refine max_le (Nat.add_le_add_left (Nat.mul_le_mul_right _ ?_) _)
      (loopEnd_le_round hpc m hend)
    exact (Nat.le_add_left _ _).trans hms
  | none =>
    refine (Durations.limit_le_of_weigh hend).trans ?_
    exact Nat.add_le_add_left (Nat.mul_le_mul_right _
      ((Nat.add_le_add_right hcalls _).trans hms)) _

end

/-! ## Runs -/

variable [DecidableEq ω] [PercentageValue V]

/-- A report is the only call that a thread then has to make. -/
theorem lone_outline : Outline (program ω V) (fun _ _ _ _ _ => True)
    fun t l _ _ => (∀ w, t ≠ .other w) → Quiet l ∨ l.calls = [.report .threadInfo] where
  own t l o d h := by
    by_cases ht : ∀ w, t ≠ .other w
    · obtain ⟨calls, pc⟩ := l
      cases calls with
      | nil =>
        exact (body_calls ht pc).mono (fun _ _ _ h _ => h.imp_right And.left) fun _ h => h
      | cons f fs =>
        rw [program_code_cons, Instr.post_map]
        refine f.calls.mono (fun gs _ _ hgs _ => .inl fun g hg => ?_) fun _ h => h
        rcases List.mem_append.1 hg with hg | hg
        · exact hgs g hg
        · rcases h ht with hquiet | hcalls
          · exact hquiet g (List.mem_cons_of_mem _ hg)
          · obtain ⟨-, rfl⟩ := List.cons.inj hcalls
            cases hg
    · exact Instr.post_of_forall (fun _ _ _ h => absurd h ht) _
  wait t l o d m _ h := h
  others t u htu l l' o o' d a next i h _ _ _ _ := h
  env t l o d e h := h

theorem Run.calls_of_reports {ok : SysState ω V → SysLabel ω V → Prop} {s : SysState ω V}
    (hs : Run ok s) {t : Thread ω} (ht : ∀ w, t ≠ .other w) (hreports : (s.loc t).reports = true) :
    (s.loc t).calls = [.report .threadInfo] := by
  have h := Reach.outline lone_outline (fun s hs => ⟨hs.1, fun t _ => by
    rw [hs.2.1 t]
    exact .inl (quiet_goto _)⟩) (fun _ _ _ _ _ _ _ => trivial) hs t ht
  refine h.resolve_left fun hquiet => ?_
  cases (Control.reports_eq_false hquiet).symm.trans hreports

/-- While the kill switch is off, time passes only as far as the workers' durations permit. -/
def Durations.Kept (b : Durations) (x : TimedState ω V) (lab : SysLabel ω V) : Prop :=
  ∀ e, lab = .env e → x.sys.data.killSwitch = false → ∀ w : Worker,
    b.InTime w.thread (x.sys.loc w.thread) (x.since w.thread) ((clock ω V).time x + e.elapsed)

variable {b : Durations} {ok : TimedState ω V → SysLabel ω V → Prop} {x x' : TimedState ω V}
  {lab : SysLabel ω V} {w : Worker}

theorem TimedRun.inTime (hok : ∀ x lab, ok x lab → b.Kept x lab) (hx : TimedRun ok x)
    (hk : x.sys.data.killSwitch = false) (w : Worker) :
    b.InTime w.thread (x.sys.loc w.thread) (x.since w.thread) ((clock ω V).time x) := by
  refine TimedReach.in_time (b.InTime w.thread) (fun d : Data ω V => d.killSwitch = false)
    (fun l n => ?_) (fun s lab s' h hs' => Step.killSwitch_eq_false h hs')
    (fun x e hkept hk => hok _ _ hkept e rfl hk w) hx hk
  exact ⟨fun _ _ => Nat.le_add_right _ _, fun _ _ => le_max_left _ _⟩

/-- The next report is due within a round after the last one, or after the start. -/
def Durations.Due (b : Durations) (w : Worker) (x : TimedState ω V) : Prop :=
  ∃ n ≤ (clock ω V).time x,
    b.limit w.thread (x.sys.loc w.thread) (x.since w.thread) ≤ n + b.roundMs w * 1000000 ∧
    ∀ m ∈ x.last w.thread, m = n

/-- A worker's own step does not move the next report back. -/
theorem limit_step (hok : ∀ x lab, ok x lab → b.Kept x lab) (hx : TimedRun ok x)
    (hk : x.sys.data.killSwitch = false) (hstep : TimedStep (clock ω V) reports x lab x')
    (hactor : lab.actor = some w.thread) (hreports : (x.sys.loc w.thread).reports = false) :
    b.limit w.thread (x'.sys.loc w.thread) ((clock ω V).time x) ≤
      b.limit w.thread (x.sys.loc w.thread) (x.since w.thread) := by
  have hin := hx.inTime hok hk w
  exact hstep.step.post (Q := fun l _ _ => b.limit w.thread l ((clock ω V).time x) ≤
      b.limit w.thread (x.sys.loc w.thread) (x.since w.thread)) hactor (fun _ _ => trivial)
    (fun _ m hm => hin.limit_of_waits hm) (program_nears hk rfl hreports hin)

/-- With a report a new round begins. -/
theorem limit_report (hrun : Run (fun _ _ => True) x.sys)
    (hstep : TimedStep (clock ω V) reports x lab x') (hactor : lab.actor = some w.thread)
    (hreports : (x.sys.loc w.thread).reports = true) :
    b.limit w.thread (x'.sys.loc w.thread) ((clock ω V).time x) ≤
      (clock ω V).time x + b.roundMs w * 1000000 := by
  have hcalls := hrun.calls_of_reports w.ne_other hreports
  have htimes : PcTimes ((clock ω V).time x) w.thread (x.sys.loc w.thread).pc :=
    (hrun.times w.thread).2
  refine hstep.step.post (Q := fun l _ _ => b.limit w.thread l ((clock ω V).time x) ≤
      (clock ω V).time x + b.roundMs w * 1000000) hactor (fun _ _ => trivial)
    (fun _ m hm => ?_) ?_ <;> generalize x.sys.loc w.thread = l at *
  · obtain ⟨calls, pc⟩ := l
    obtain rfl : calls = _ := hcalls
    exact hm.elim
  · obtain ⟨calls, pc⟩ := l
    obtain rfl : calls = _ := hcalls
    rw [program_code_cons, Instr.post_map]
    intro i _
    refine limit_le_round htimes ?_
    simp only [List.append_nil]
    split
    · exact le_refl _
    · exact Nat.zero_le _

/-- A worker reports only if it has found the kill switch off. -/
theorem Step.killSwitch_of_worker {s s' : SysState ω V} (hs : Run (fun _ _ => True) s)
    (hstep : Step (program ω V) s lab s') (hactor : lab.actor = some w.thread)
    (h : s'.data.killSwitch = false ∨ (s'.loc w.thread).reports = true) :
    s.data.killSwitch = false := by
  rcases h with hk | hreports
  · exact Step.killSwitch_eq_false hstep hk
  · exact Step.report_begun hstep w.ne_other hactor (hs.report_first _) hreports

theorem Durations.Due.step (hok : ∀ x lab, ok x lab → b.Kept x lab) (hx : TimedRun ok x)
    (hstep : TimedStep (clock ω V) reports x lab x')
    (h : x.sys.data.killSwitch = false ∨ (x.sys.loc w.thread).reports = true → b.Due w x)
    (hx' : x'.sys.data.killSwitch = false ∨ (x'.sys.loc w.thread).reports = true) :
    b.Due w x' := by
  have hrun : Run (fun _ _ => True) x.sys := hx.untimed fun _ _ _ => trivial
  have htime : (clock ω V).time x ≤ (clock ω V).time x' := hstep.step.now_le
  by_cases hactor : lab.actor = some w.thread
  · have hk := Step.killSwitch_of_worker hrun hstep.step hactor hx'
    have hsince : x'.since w.thread = (clock ω V).time x := by rw [hstep.since, if_pos hactor]
    unfold Durations.Due
    rw [hsince]
    cases hreports : (x.sys.loc w.thread).reports with
    | true =>
      refine ⟨_, htime, limit_report hrun hstep hactor hreports, fun m hm => ?_⟩
      rw [hstep.last, if_pos ⟨hactor, hreports⟩] at hm
      exact (Option.some.inj hm).symm
    | false =>
      obtain ⟨n, hn, hlimit, hlast⟩ := h (.inl hk)
      refine ⟨n, hn.trans htime, (limit_step hok hx hk hstep hactor hreports).trans hlimit, ?_⟩
      rwa [hstep.last, if_neg fun h => by cases hreports.symm.trans h.2]
  · have hloc := (hstep.step.unchanged hactor).2.2
    obtain ⟨n, hn, hlimit, hlast⟩ := h (by
      rw [hloc] at hx'
      exact hx'.imp_left (Step.killSwitch_eq_false hstep.step))
    refine ⟨n, hn.trans htime, ?_, ?_⟩
    · rwa [hloc, hstep.since, if_neg hactor]
    · rwa [hstep.last, if_neg fun h => hactor h.1]

/-- The first round begins with the program. -/
theorem limit_start {s : SysState ω V} (hs : Init s) (w : Worker) :
    b.limit w.thread (s.loc w.thread) s.data.clock ≤ s.data.clock + b.roundMs w * 1000000 := by
  have hrun : Run (fun _ _ => True) s := .start hs
  have hstart : b.limit w.thread ⟨[], (s.loc w.thread).pc⟩ s.data.clock ≤ _ :=
    limit_le_round (hrun.times w.thread).2 (Nat.zero_le _)
  rw [hs.2.1] at hstart ⊢
  exact hstart

theorem TimedRun.due (hok : ∀ x lab, ok x lab → b.Kept x lab) (hx : TimedRun ok x)
    (h : x.sys.data.killSwitch = false ∨ (x.sys.loc w.thread).reports = true) : b.Due w x := by
  refine hx.invariant (I := fun x => x.sys.data.killSwitch = false ∨
    (x.sys.loc w.thread).reports = true → b.Due w x) ?_ (fun x lab x' hx h hok' hstep =>
      Durations.Due.step hok hx hstep h) h
  rintro x ⟨s, hs, rfl⟩ -
  exact ⟨(clock ω V).now s.data, le_refl _, limit_start hs w, nofun⟩

end CpuUsageTracker
