import CpuUsageTracker.CallWeights
import CpuUsageTracker.Library.TimeLimit
import CpuUsageTracker.Shutdown
import CpuUsageTracker.TimePoints

/-!
# The threads end in time

How long do the five threads go on after the kill switch? Runs have a clock here, as in
`CpuUsageTracker.Responsiveness`: every call keeps to its timeout, and everything else takes no
time.

**Theorem (`shutdown_in_time`).** In every run, when more than `shutdownMs` milliseconds have
passed with the kill switch on, the five threads have ended, whatever the other threads do and
whatever the calls return.

Every location gets the time that a thread may take from there to its end (`pcMs`), apart from a
wait that it is about to begin or in (`pcTimePoint`). Each instruction spends some of it
(`body_lasts`), so the `TimeLimit` of a thread is not exceeded. A wait is over after two seconds
(`Run.times`), and no new one begins.
-/

namespace CpuUsageTracker

open Threads

/-! ## How long a thread takes -/

/-- `Log` gives up after one lock attempt. -/
def Frame.ms : Frame → ℕ
  | log (.level _) | log (.timeStr _) | log (.threadInfo _ _) | log (.lock _) => 50
  | log _ => 0
  | report .threadInfo | report (.lock _) => 150
  | report (.stamp _) | report .unlock => 100
  | report .notify => 50

/-- `exit` is what the thread takes behind the loop. -/
def WaitPc.ms (exit : ℕ) : WaitPc → ℕ
  | wait _ => exit + 50
  | _ => exit

def ReaderPc.ms : ReaderPc → ℕ
  | exited => 0
  | threadInfoSet | head => 50
  | load => 250
  | lock _ => 150
  | waiting _ w => w.ms 100
  | killTest _ | breakUnlock => 100
  | write _ | unlock _ => 750
  | notify _ => 700
  | destroy _ | sleep => 550

def AnalyzerPc.ms {V : Type} : AnalyzerPc V → ℕ
  | exited => 0
  | threadInfoSet | mallocOld | mallocNew _ | mallocUsageInfo _ _ | head _ => 50
  | lockIn _ | lockOut _ => 150
  | waitingIn _ w | waitingOut _ w => w.ms 100
  | killTestIn _ | breakUnlockIn | killTestOut _ | breakUnlockOut | emptyUnlock _ => 100
  | read _ | unlockIn _ | notifyIn _ => 200
  | write _ | unlockOut _ | notifyOut _ => 250

def PrinterPc.ms {V : Type} : PrinterPc V → ℕ
  | exited => 0
  | threadInfoSet | malloc | head _ => 50
  | lock _ | read _ => 150
  | waiting _ w => w.ms 100
  | killTest _ | breakUnlock | unlock _ | print _ => 100

def LoggerPc.ms : LoggerPc → ℕ
  | exited => 0
  | drain .finalSecondaryBuf | fputs .finalSecondaryBuf _ => 50
  | finalUnlock | drain .finalInBuf | fputs .finalInBuf _ | finalSwap | finalLock => 100
  | threadInfoSet | fopen | head | drain .loop | fputs .loop _ => 100
  | timePoint | isEmpty _ | killSwitch _ | killTest | breakUnlock | swap | unlock => 150
  | lock | wait _ => 200

def WatchdogPc.ms : WatchdogPc → ℕ
  | exited _ => 0
  | finalUnlock _ | head _ | now | setTimestamp _ | findOldest _ | killTest _ _
  | initTimestamps _ => 50
  | threadInfoSet | startTime | lock _ | wait _ => 100
  | retval _ | raise _ _ => 150

variable {ω V : Type}

def pcMs : (t : Thread ω) → Pc V t → ℕ
  | .reader => ReaderPc.ms
  | .analyzer => AnalyzerPc.ms
  | .printer => PrinterPc.ms
  | .logger => LoggerPc.ms
  | .watchdog => WatchdogPc.ms
  | .other _ => fun _ => 0

def WaitPc.timePoint? : WaitPc → Option Timespec
  | wait tp => some tp
  | _ => none

/-- The end of the wait at the location. -/
def pcTimePoint : (t : Thread ω) → Pc V t → Option Timespec
  | .reader, .waiting _ w => w.timePoint?
  | .analyzer, .waitingIn _ w => w.timePoint?
  | .analyzer, .waitingOut _ w => w.timePoint?
  | .printer, .waiting _ w => w.timePoint?
  | .logger, .wait tp => some tp
  | .watchdog, .wait tp => some tp
  | _, _ => none

/-- When a wait is over that begins at `n`. -/
def waitEnd (n : ℕ) : Option Timespec → ℕ
  | some tp => max n tp.toNs
  | none => n

/-- The time that the instruction takes, apart from a wait. -/
def ownMs {K : Type} : Code V K → ℕ
  | .call (.tryLock _ ms) _ => ms
  | .sleep ms _ => ms
  | _ => 0

/-! ## Every instruction spends its time -/

section

variable {P : Type} {ms : P → ℕ} {tp : P → Option Timespec} {t : Thread ω} [DecidableEq ω]
  {d : Data ω V}

/-- At a location with `n` milliseconds left, the instruction does not take more, together with
what the thread takes from there on. It does not lead to a wait. -/
def Lasts (t : Thread ω) (ms : P → ℕ) (tp : P → Option Timespec) (n : ℕ) (d : Data ω V)
    (g : Code V (Control P)) : Prop :=
  g.Post (Data.perform t) (fun _ => True)
    (fun l _ _ => tp l.pc = none ∧ ownMs g + l.weigh Frame.ms ms ≤ n) ∅ d

@[simp] theorem Frame.ms_level (call : LogCall) : (Frame.log (.level call)).ms = 50 := rfl

@[simp] theorem Frame.ms_threadInfo : (Frame.report .threadInfo).ms = 150 := rfl

theorem WaitLoop.lasts (w : WaitLoop) (ms : P → ℕ) (tp : P → Option Timespec) {here : WaitPc → P}
    {exit : Control P} {n : ℕ} (hhere : ∀ x, ms (here x) = x.ms n ∧ tp (here x) = x.timePoint?)
    (hexit : exit.weigh Frame.ms ms = n ∧ tp exit.pc = none) (hk : d.killSwitch = true)
    (pc : WaitPc) : Lasts t ms tp (pc.ms n) d (w.code here exit pc) := by
  cases pc with
  | timePoint => simp [Lasts, code, hhere, WaitPc.ms, WaitPc.timePoint?, ownMs]
  | test tp =>
    cases htest : w.test.eval d.pipeline <;>
      simp [Lasts, code, hhere, hexit, htest, WaitPc.ms, WaitPc.timePoint?, ownMs, Data.perform,
        PipeAct.perform]
  | killSwitch tp => simp [Lasts, code, hexit, hk, WaitPc.ms, ownMs, Data.perform]
  | wait tp =>
    intro r _ _
    cases r <;> simp [code, hexit, hhere, WaitPc.ms, WaitPc.timePoint?, ownMs]

theorem Reader.lasts (hk : d.killSwitch = true) (pc : ReaderPc) :
    Lasts t ReaderPc.ms (pcTimePoint (V := V) (.reader : Thread ω)) pc.ms d (Reader.code pc) := by
  cases pc with
  | waiting p w =>
    refine outNotFull.lasts _ _ (fun _ => ?_) ?_ hk w <;> exact ⟨rfl, rfl⟩
  | load =>
    intro i _
    have hlogs := i.file.length_logs_le
    simp only [Data.perform, PipeAct.perform]
    cases i.file.result with
    | none =>
      simp [code, weigh_logAll Frame.ms_level, pcTimePoint, ReaderPc.ms, ownMs]
      omega
    | some p =>
      simp [code, weigh_logAll Frame.ms_level, pcTimePoint, ReaderPc.ms, ownMs]
      omega
  | _ => simp [Lasts, code, exiting, hk, pcTimePoint, ReaderPc.ms, WaitPc.ms, WaitPc.timePoint?,
      ownMs, mutexWaitTimeMs, sleepTimeMs, Data.perform]

theorem Analyzer.lasts [PercentageValue V] (hk : d.killSwitch = true) (pc : AnalyzerPc V) :
    Lasts t AnalyzerPc.ms (pcTimePoint (.analyzer : Thread ω)) pc.ms d (Analyzer.code pc) := by
  cases pc with
  | waitingIn v w =>
    refine inNotEmpty.lasts _ _ (fun _ => ?_) ?_ hk w <;> exact ⟨rfl, rfl⟩
  | waitingOut v w =>
    refine outNotFull.lasts _ _ (fun _ => ?_) ?_ hk w <;> exact ⟨rfl, rfl⟩
  | mallocUsageInfo old new =>
    intro i _
    simp only [Data.perform]
    cases old <;> cases new <;> cases i.ok <;> simp [code, pcTimePoint, AnalyzerPc.ms, ownMs]
  | read v =>
    intro i _
    simp only [Data.perform, PipeAct.perform]
    cases d.pipeline.procStatCbuf.read.1 <;> simp [code, pcTimePoint, AnalyzerPc.ms, ownMs]
  | notifyIn v =>
    have hsample : pcTimePoint (.analyzer : Thread ω) (haveSample v).pc = none ∧
        (haveSample v).weigh Frame.ms AnalyzerPc.ms ≤ 150 := by
      unfold haveSample
      split <;> simp [pcTimePoint, AnalyzerPc.ms]
    intro r _ _
    cases r <;> simp [code, hsample, AnalyzerPc.ms, ownMs]
    omega
  | _ => simp [Lasts, code, exiting, hk, pcTimePoint, AnalyzerPc.ms, WaitPc.ms, WaitPc.timePoint?,
      ownMs, mutexWaitTimeMs, traceLogs, weigh_logAll Frame.ms_level, Data.perform]

theorem Printer.lasts (hk : d.killSwitch = true) (pc : PrinterPc V) :
    Lasts t PrinterPc.ms (pcTimePoint (.printer : Thread ω)) pc.ms d (Printer.code pc) := by
  cases pc with
  | waiting u w =>
    refine inNotEmpty.lasts _ _ (fun _ => ?_) ?_ hk w <;> exact ⟨rfl, rfl⟩
  | malloc =>
    intro i _
    simp only [Data.perform]
    cases i.ok <;> simp [code, pcTimePoint, PrinterPc.ms, ownMs]
  | read u =>
    intro i _
    simp only [Data.perform, PipeAct.perform]
    cases d.pipeline.usageInfoCbuf.read.1 <;> simp [code, pcTimePoint, PrinterPc.ms, ownMs]
  | _ => simp [Lasts, code, exiting, hk, pcTimePoint, PrinterPc.ms, WaitPc.ms, WaitPc.timePoint?,
      ownMs, mutexWaitTimeMs, Data.perform]

theorem Logger.lasts (hk : d.killSwitch = true) (pc : LoggerPc) :
    Lasts t LoggerPc.ms (pcTimePoint (V := V) (.logger : Thread ω)) pc.ms d (Logger.code pc) := by
  have hnext : ∀ k x, pcTimePoint (V := V) (.logger : Thread ω) (drainNext k x).pc = none ∧
      (drainNext k x).weigh Frame.ms LoggerPc.ms ≤ (LoggerPc.drain k).ms := by
    intro k x
    cases k <;> cases x <;> simp [drainNext, drained, exiting, pcTimePoint, LoggerPc.ms]
  cases pc with
  | drain k =>
    have hdrain : ∀ x, pcTimePoint (V := V) (.logger : Thread ω) (drainNext k x).pc = none ∧
        0 + (drainNext k x).weigh Frame.ms LoggerPc.ms ≤ (LoggerPc.drain k).ms := by
      intro x
      rw [Nat.zero_add]
      exact hnext k x
    cases k <;> exact fun i _ => hdrain _
  | fputs k item => cases k <;> simp [Lasts, code, pcTimePoint, LoggerPc.ms, ownMs]
  | _ => simp [Lasts, code, exiting, hk, pcTimePoint, LoggerPc.ms, ownMs, mutexWaitTimeMs,
      Data.perform]

theorem Watchdog.lasts (hk : d.killSwitch = true) (pc : WatchdogPc) :
    Lasts t WatchdogPc.ms (pcTimePoint (V := V) (.watchdog : Thread ω)) pc.ms d
      (Watchdog.code pc) := by
  cases pc with
  | findOldest now =>
    intro i _
    simp only [check]
    split <;> simp [code, pcTimePoint, WatchdogPc.ms, ownMs]
  | raise iiOldest retval =>
    intro i _
    simp only
    split <;> simp [code, pcTimePoint, WatchdogPc.ms, ownMs]
  | _ => simp [Lasts, code, hk, pcTimePoint, WatchdogPc.ms, ownMs, mutexWaitTimeMs, Data.perform]

theorem Frame.lasts (f : Frame) : (f.code : Code V (List Frame)).Post (Data.perform t)
    (fun _ => True)
    (fun gs _ _ => ownMs (f.code : Code V (List Frame)) + callsWeight Frame.ms gs ≤ f.ms) ∅ d := by
  cases f with
  | log f =>
    cases f <;> simp [code, LogPc.code, callsWeight, Frame.ms, ownMs, loggerMutexWaitTimeMs]
  | report f =>
    cases f with
    | threadInfo =>
      intro i _
      simp only [Data.perform]
      split <;> simp [code, ReportPc.code, callsWeight, Frame.ms, ownMs]
    | _ => simp [code, ReportPc.code, callsWeight, Frame.ms, ownMs, logError, maxLockTimeMs]

end

variable [DecidableEq ω] [PercentageValue V] {t : Thread ω} {d : Data ω V}

theorem body_lasts (ht : ∀ w, t ≠ .other w) (hk : d.killSwitch = true) (pc : Pc V t) :
    Lasts t (pcMs t) (pcTimePoint t) (pcMs t pc) d (body t pc) := by
  cases t with
  | reader => exact Reader.lasts hk pc
  | analyzer => exact Analyzer.lasts hk pc
  | printer => exact Printer.lasts hk pc
  | logger => exact Logger.lasts hk pc
  | watchdog => exact Watchdog.lasts hk pc
  | other w => exact absurd rfl (ht w)

/-! ## Deadlines -/

theorem le_waitEnd (n : ℕ) (tp : Option Timespec) : n ≤ waitEnd n tp := by
  cases tp with
  | none => exact le_refl _
  | some tp => exact le_max_left _ _

theorem waitEnd_mono {m n : ℕ} (h : m ≤ n) (tp : Option Timespec) :
    waitEnd m tp ≤ waitEnd n tp := by
  cases tp with
  | none => exact h
  | some tp => exact max_le_max_right _ h

omit [DecidableEq ω] [PercentageValue V] in
theorem WaitLoop.timePoint_of_code (w : WaitLoop) {P : Type} {here : WaitPc → P} {exit : Control P}
    {pc : WaitPc} {c : CondVar} {m : Mutex} {tp : Timespec} {next : ThrdResult → Control P}
    (h : (w.code here exit pc : Code V (Control P)) = .call (.waitUntil c m tp) next) :
    pc.timePoint? = some tp := by
  cases pc <;> cases h
  rfl

omit [DecidableEq ω] in
theorem body_timePoint {pc : Pc V t} {c : CondVar} {m : Mutex} {tp : Timespec}
    {next : ThrdResult → Loc V t} (h : body t pc = .call (.waitUntil c m tp) next) :
    pcTimePoint t pc = some tp := by
  cases t with
  | reader =>
    cases pc with
    | waiting p w => exact Reader.outNotFull.timePoint_of_code h
    | _ => cases h
  | analyzer =>
    cases pc with
    | waitingIn v w => exact Analyzer.inNotEmpty.timePoint_of_code h
    | waitingOut v w => exact Analyzer.outNotFull.timePoint_of_code h
    | _ => cases h
  | printer =>
    cases pc with
    | waiting u w => exact Printer.inNotEmpty.timePoint_of_code h
    | _ => cases h
  | logger =>
    cases pc with
    | drain k => cases k <;> cases h
    | _ =>
      cases h
      try rfl
  | watchdog =>
    cases pc <;> cases h
    rfl
  | other w =>
    cases pc
    cases h

omit [DecidableEq ω] in
theorem body_patient {pc : Pc V t} {a : Act V} {next : a.Result → Loc V t}
    (ht : ∀ w, t ≠ .other w) (h : body t pc = .act a next) : a.patient = false := by
  cases t with
  | reader =>
    cases pc with
    | waiting p w => cases w <;> cases h <;> rfl
    | _ => cases h <;> rfl
  | analyzer =>
    cases pc with
    | waitingIn v w | waitingOut v w => cases w <;> cases h <;> rfl
    | _ => cases h <;> rfl
  | printer =>
    cases pc with
    | waiting u w => cases w <;> cases h <;> rfl
    | _ => cases h <;> rfl
  | logger =>
    cases pc with
    | drain k => cases k <;> cases h <;> rfl
    | _ => cases h <;> rfl
  | watchdog => cases pc <;> cases h <;> rfl
  | other w => exact absurd rfl (ht w)

omit [DecidableEq ω] [PercentageValue V] in
/-- The wait at a location is over two seconds from now at the latest. -/
theorem PcTimes.near {n : ℕ} {pc : Pc V t} {tp : Timespec} (h : PcTimes n t pc)
    (htp : pcTimePoint t pc = some tp) : Near n tp := by
  have hloop : ∀ w : WaitPc, w.Times n → w.timePoint? = some tp → Near n tp := by
    intro w hw hsome
    cases w <;> cases hsome
    exact hw
  cases t with
  | reader =>
    cases pc with
    | waiting p w => exact hloop w h htp
    | _ => cases htp
  | analyzer =>
    cases pc with
    | waitingIn v w | waitingOut v w => exact hloop w h htp
    | _ => cases htp
  | printer =>
    cases pc with
    | waiting u w => exact hloop w h htp
    | _ => cases htp
  | logger =>
    cases pc <;> cases htp
    exact h
  | watchdog =>
    cases pc <;> cases htp
    exact h
  | other w => cases htp

theorem deadline_le {K : Type} {g : Code V K} {tp : Option Timespec} (since : ℕ)
    (hexit : g ≠ .exit) (hpatient : ∀ a next, g = .act a next → a.patient = false)
    (hwait : ∀ c m x next, g = .call (.waitUntil c m x) next → tp = some x) :
    ∃ due, (clock ω V).deadline since g = some due ∧
      due ≤ waitEnd since tp + ownMs g * 1000000 := by
  cases g with
  | call c next =>
    cases c with
    | tryLock m ms => exact ⟨_, rfl, Nat.add_le_add_right (le_waitEnd _ _) _⟩
    | waitUntil c m x =>
      rw [hwait _ _ _ _ rfl]
      exact ⟨_, rfl, Nat.le_add_right _ _⟩
    | _ => exact ⟨_, rfl, (le_waitEnd _ _).trans (Nat.le_add_right _ _)⟩
  | act a next =>
    refine ⟨since, ?_, (le_waitEnd _ _).trans (Nat.le_add_right _ _)⟩
    show (if a.patient = true then none else some since) = some since
    simp [hpatient a next rfl]
  | sleep ms next => exact ⟨_, rfl, Nat.add_le_add_right (le_waitEnd _ _) _⟩
  | exit => exact absurd rfl hexit

/-- A wait that begins at its end is over then. -/
theorem waitEnd_deadline {pc : Pc V t} {since due : ℕ} {m : Mutex} (hm : (body t pc).waitsWith m)
    (hdue : (clock ω V).deadline since (body t pc) = some due) :
    waitEnd due (pcTimePoint t pc) = waitEnd since (pcTimePoint t pc) := by
  cases hc : body t pc with
  | call c next =>
    cases c with
    | waitUntil c m tp =>
      rw [hc] at hdue
      cases hdue
      rw [body_timePoint hc]
      exact max_eq_left (le_max_right _ _)
    | _ =>
      rw [hc] at hm
      cases hm
  | _ =>
    rw [hc] at hm
    cases hm

theorem body_deadline (ht : ∀ w, t ≠ .other w) (pc : Pc V t) (since : ℕ)
    (hexit : body t pc ≠ .exit) :
    ∃ due, (clock ω V).deadline since (body t pc) = some due ∧
      due ≤ waitEnd since (pcTimePoint t pc) + ownMs (body t pc) * 1000000 :=
  deadline_le since hexit (fun _ _ h => body_patient ht h) fun _ _ _ _ h => body_timePoint h

theorem Frame.deadline (f : Frame) (since : ℕ) :
    ∃ due, (clock ω V).deadline since (f.code : Code V (List Frame)) = some due ∧
      due ≤ since + ownMs (f.code : Code V (List Frame)) * 1000000 := by
  show ∃ due, _ ∧ due ≤ waitEnd since none + _
  refine deadline_le since ?_ ?_ ?_
  · rcases f with x | x <;> cases x <;> exact fun h => by cases h
  · intro a next h
    rcases f with x | x <;> cases x <;> cases h <;> rfl
  · intro c m x next h
    have hwaits : (f.code : Code V (List Frame)).waitsWith m := by
      rw [h]
      rfl
    exact absurd hwaits (f.not_waits m)

/-! ## The limit -/

/-- When a thread has ended that got to `l` at `since`. -/
def endLimit (t : Thread ω) (l : Loc V t) (since : ℕ) : ℕ :=
  waitEnd (since + callsWeight Frame.ms l.calls * 1000000) (pcTimePoint t l.pc) +
    pcMs t l.pc * 1000000

omit [DecidableEq ω] [PercentageValue V] in
theorem endLimit_mono (l : Loc V t) {m n : ℕ} (h : m ≤ n) : endLimit t l m ≤ endLimit t l n := by
  have hwait := waitEnd_mono (Nat.add_le_add_right h (callsWeight Frame.ms l.calls * 1000000))
    (pcTimePoint t l.pc)
  unfold endLimit
  omega

omit [DecidableEq ω] [PercentageValue V] in
/-- Where no wait begins, the limit is the time that is left. -/
theorem endLimit_eq {l : Loc V t} (h : pcTimePoint t l.pc = none) (since : ℕ) :
    endLimit t l since = since + l.weigh Frame.ms (pcMs t) * 1000000 := by
  simp only [endLimit, h, waitEnd, Control.weigh]
  omega

omit [DecidableEq ω] [PercentageValue V] in
theorem endLimit_nil (pc : Pc V t) (since : ℕ) :
    endLimit t ⟨[], pc⟩ since = waitEnd since (pcTimePoint t pc) + pcMs t pc * 1000000 := by
  have hcalls : callsWeight Frame.ms [] = 0 := rfl
  simp only [endLimit, hcalls, Nat.zero_mul, Nat.add_zero]

omit [DecidableEq ω] [PercentageValue V] in
/-- The time that is left in a call comes first. -/
theorem endLimit_append (pc : Pc V t) (fs gs : List Frame) (since : ℕ) :
    endLimit t ⟨gs ++ fs, pc⟩ since =
      endLimit t ⟨fs, pc⟩ (since + callsWeight Frame.ms gs * 1000000) := by
  simp only [endLimit, callsWeight_append, Nat.add_mul, Nat.add_assoc]

omit [DecidableEq ω] [PercentageValue V] in
theorem endLimit_cons (pc : Pc V t) (f : Frame) (fs : List Frame) (since : ℕ) :
    endLimit t ⟨f :: fs, pc⟩ since = endLimit t ⟨fs, pc⟩ (since + f.ms * 1000000) := by
  have happend := endLimit_append pc fs [f] since
  rwa [callsWeight_singleton] at happend

omit [PercentageValue V] in
theorem ownMs_le {K : Type} {g : Code V K} {f : K → ℕ} {n : ℕ}
    (h : g.Post (Data.perform t) (fun _ => True) (fun k _ _ => ownMs g + f k ≤ n) ∅ d) :
    ownMs g ≤ n := by
  cases g with
  | call c next =>
    cases c with
    | tryLock m ms => exact (Nat.le_add_right _ _).trans (h .timedout trivial trivial)
    | _ => exact Nat.zero_le _
  | act a next => exact Nat.zero_le _
  | sleep ms next => exact (Nat.le_add_right _ _).trans h
  | exit => exact Nat.zero_le _

omit [DecidableEq ω] [PercentageValue V] in
theorem le_endLimit (pc : Pc V t) (fs : List Frame) (since : ℕ) :
    since ≤ endLimit t ⟨fs, pc⟩ since := by
  have hwait := le_waitEnd (since + callsWeight Frame.ms fs * 1000000) (pcTimePoint t pc)
  simp only [endLimit]
  omega

/-- While the kill switch is on, every instruction spends the time of its thread. -/
def shutdownLimit (ht : ∀ w, t ≠ .other w) :
    TimeLimit (clock ω V) (fun d => d.killSwitch = true) t where
  limit := endLimit t
  mono l m n h := endLimit_mono l h
  due l since d hk hexit := by
    obtain ⟨calls, pc⟩ := l
    cases calls with
    | nil =>
      obtain ⟨due, hdue, hle⟩ := body_deadline ht pc since hexit
      have hown := ownMs_le ((body_lasts ht hk pc).mono (fun _ _ _ h => h.2) fun _ h => h)
      have hlimit := endLimit_nil pc since
      exact ⟨due, hdue, by omega⟩
    | cons f fs =>
      obtain ⟨due, hdue, hle⟩ := f.deadline (ω := ω) (V := V) since
      have hown := ownMs_le (f.lasts (t := t) (d := d))
      have hlimit := endLimit_cons pc f fs since
      have hrest := le_endLimit pc fs (since + f.ms * 1000000)
      exact ⟨due, by rwa [program_code_cons, Clock.deadline_map], by omega⟩
  wait l since due m hm hdue := by
    obtain ⟨calls, pc⟩ := l
    cases calls with
    | nil =>
      have hdone : waitEnd due (pcTimePoint t pc) = waitEnd since (pcTimePoint t pc) :=
        waitEnd_deadline hm hdue
      rw [endLimit_nil, endLimit_nil, hdone]
    | cons f fs =>
      rw [program_code_cons, Instr.waitsWith_map] at hm
      exact absurd hm (f.not_waits m)
  code l since due d hk hdue := by
    obtain ⟨calls, pc⟩ := l
    cases calls with
    | nil =>
      have hexit : body t pc ≠ .exit := fun h => by
        rw [program_code_nil, h] at hdue
        cases hdue
      obtain ⟨due', hdue', hle⟩ := body_deadline ht pc since hexit
      obtain rfl := Option.some.inj (hdue'.symm.trans hdue)
      refine (body_lasts ht hk pc).mono (fun l _ _ hl => ?_) fun _ h => h
      have hlimit := endLimit_nil pc since
      have hnext := endLimit_eq hl.1 due'
      omega
    | cons f fs =>
      rw [program_code_cons, Clock.deadline_map] at hdue
      obtain ⟨due', hdue', hle⟩ := f.deadline (ω := ω) (V := V) since
      obtain rfl := Option.some.inj (hdue'.symm.trans hdue)
      rw [program_code_cons, Instr.post_map]
      refine f.lasts.mono (fun gs _ _ hgs => ?_) fun _ h => h
      rw [endLimit_append, endLimit_cons]
      exact endLimit_mono _ (by omega)

/-! ## The bound -/

theorem Frame.callWeight_ms : CallWeight ms 50 where
  log _ := rfl
  report := by decide

omit [PercentageValue V] in
theorem Frame.shrinks_ms : Shrinks ω V ms := by
  intro t f d
  refine (f.lasts (t := t) (d := d)).mono (fun gs _ _ h => ?_) fun _ h => h
  omega

omit [DecidableEq ω] [PercentageValue V] in
theorem pcMs_le (t : Thread ω) (pc : Pc V t) :
    pcMs t pc ≤ 750 ∧ (pcTimePoint t pc ≠ none → pcMs t pc ≤ 200) := by
  have hloop : ∀ w : WaitPc, w.ms 100 ≤ 200 := by
    intro w
    cases w <;> simp [WaitPc.ms]
  cases t with
  | reader =>
    cases pc with
    | waiting p w => exact ⟨(hloop w).trans (by decide), fun _ => hloop w⟩
    | _ => simp [pcMs, pcTimePoint, ReaderPc.ms]
  | analyzer =>
    cases pc with
    | waitingIn v w | waitingOut v w => exact ⟨(hloop w).trans (by decide), fun _ => hloop w⟩
    | _ => simp [pcMs, pcTimePoint, AnalyzerPc.ms]
  | printer =>
    cases pc with
    | waiting u w => exact ⟨(hloop w).trans (by decide), fun _ => hloop w⟩
    | _ => simp [pcMs, pcTimePoint, PrinterPc.ms]
  | logger =>
    cases pc with
    | drain k | fputs k item => cases k <;> simp [pcMs, pcTimePoint, LoggerPc.ms]
    | _ => simp [pcMs, pcTimePoint, LoggerPc.ms]
  | watchdog => cases pc <;> simp [pcMs, pcTimePoint, WatchdogPc.ms]
  | other w => simp [pcMs, pcTimePoint]

/-- A wait, four calls of `Log` and the rest of an iteration. -/
def shutdownMs : ℕ := 2200

variable {ok : TimedState ω V → SysLabel ω V → Prop} {x x' : TimedState ω V}

theorem TimedRun.endLimit_le (hx : TimedRun ok x) (t : Thread ω) :
    endLimit t (x.sys.loc t) (x.since t) ≤ (clock ω V).time x + shutdownMs * 1000000 := by
  have hrun : Run (fun _ _ => True) x.sys := hx.untimed fun _ _ _ => trivial
  have hsince := hx.since_le t
  have hcalls := hrun.callsWeight_le Frame.callWeight_ms Frame.shrinks_ms t
  have htimes : PcTimes ((clock ω V).time x) t (x.sys.loc t).pc := (hrun.times t).2
  obtain ⟨hms, hwaiting⟩ := pcMs_le t (x.sys.loc t).pc
  unfold endLimit shutdownMs
  cases htp : pcTimePoint t (x.sys.loc t).pc with
  | none =>
    simp only [waitEnd]
    omega
  | some tp =>
    have hnear := (htimes.near htp).le
    have hallowed : allowedNs = 2000 * 1000000 := rfl
    have hle := hwaiting (by simp [htp])
    simp only [waitEnd]
    omega

theorem TimedRun.finished_or_le (hx : TimedRun ok x) (hk : x.sys.data.killSwitch = true)
    (h : Reach (· = x) (TimedStep (clock ω V) reports) ok x') (ht : ∀ w, t ≠ .other w) :
    (program ω V).Finished x'.sys t ∨
      (clock ω V).time x' ≤ (clock ω V).time x + shutdownMs * 1000000 := by
  rcases (shutdownLimit ht).finishes killSwitch_persistent hx hk h with hfinished | hle
  · exact .inl hfinished
  · have hend : (clock ω V).time x' ≤ endLimit t (x.sys.loc t) (x.since t) := hle
    exact .inr (hend.trans (hx.endLimit_le t))

theorem shutdown_in_time (hx : TimedRun ok x) (hk : x.sys.data.killSwitch = true)
    (h : Reach (· = x) (TimedStep (clock ω V) reports) ok x')
    (hlate : (clock ω V).time x + shutdownMs * 1000000 < (clock ω V).time x')
    (ht : ∀ w, t ≠ .other w) : (program ω V).Finished x'.sys t :=
  (hx.finished_or_le hk h ht).resolve_right (not_le.2 hlate)

/-- The reader's sleep ends, the threads go on as in `windDown`, and time passes. -/
def lateWindDown : List (Move (Thread Empty) (Input ℚ) Data.Env) :=
  pass 500 ++ windDown ++ pass 1701

/-- A signal arrives at time zero, and the program is looked at 2201 milliseconds later. -/
theorem shutdown_in_time_interrupted : ∃ x x' : TimedState Empty ℚ,
    x.sys.data.killSwitch = true ∧
    (clock Empty ℚ).time x' = (clock Empty ℚ).time x + 2201 * 1000000 ∧
    ∀ t, (program Empty ℚ).Finished x'.sys t := by
  have hrun : ((timedPlay (fun _ _ => true) interrupted).any fun x => x.sys.data.killSwitch &&
      (execAll ((clock Empty ℚ).play reports [.reader, .analyzer, .printer, .logger, .watchdog]
        (fun _ _ => true)) x lateWindDown).any fun x' =>
          (clock Empty ℚ).time x' == (clock Empty ℚ).time x + 2201 * 1000000) = true := by
    decide +kernel
  obtain ⟨x, hx, hcheck⟩ := (Option.any_eq_true _ _).1 hrun
  rw [Bool.and_eq_true] at hcheck
  obtain ⟨hk, hcheck⟩ := hcheck
  obtain ⟨x', hx', htime⟩ := (Option.any_eq_true _ _).1 hcheck
  have htime := eq_of_beq htime
  have hreach : TimedRun (fun _ _ => True) x :=
    TimedReach.play (fun _ _ _ _ => trivial) (.start ⟨_, init_initialState, rfl⟩) hx
  have hcont : Reach (· = x) (TimedStep (clock Empty ℚ) reports) (fun _ _ => True) x' :=
    Reach.playTimed (fun _ _ _ _ => trivial) (.start rfl) hx'
  refine ⟨x, x', hk, htime, fun t => shutdown_in_time hreach hk hcont ?_ nofun⟩
  rw [htime]
  exact Nat.add_lt_add_left (by decide) _

end CpuUsageTracker
