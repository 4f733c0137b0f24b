import CpuUsageTracker.System
import Mathlib.Algebra.GroupWithZero.Nat

/-!
# The weight of the calls that a thread is in

A weight for the locations of `Log` and `Watchdog_reportActive` gives every list of calls a weight,
and together with a weight for the locations of the thread function it weighs every location of a
thread (`Control.weigh`).

**Theorem (`Run.callsWeight_le`).** If the weight does not grow inside the calls and the beginning
of `Watchdog_reportActive` weighs at most as much as four calls of `Log`, then so do the calls of
every thread in every reachable state. Four is the number of messages that the analyzer logs at
the end of an iteration.
-/

namespace CpuUsageTracker

open Threads

variable {ω V P : Type} {frame : Frame → ℕ} {w : P → ℕ}

def callsWeight (frame : Frame → ℕ) (calls : List Frame) : ℕ := (calls.map frame).sum

/-- The weight of a location, where `w` is the weight of the locations in the thread's function. -/
def Control.weigh (frame : Frame → ℕ) (w : P → ℕ) (l : Control P) : ℕ :=
  callsWeight frame l.calls + w l.pc

theorem callsWeight_cons (f : Frame) (fs : List Frame) :
    callsWeight frame (f :: fs) = frame f + callsWeight frame fs := by
  simp only [callsWeight, List.map_cons, List.sum_cons]

theorem callsWeight_singleton (f : Frame) : callsWeight frame [f] = frame f := by
  simp only [callsWeight, List.map_cons, List.map_nil, List.sum_singleton]

theorem callsWeight_append (fs gs : List Frame) :
    callsWeight frame (fs ++ gs) = callsWeight frame fs + callsWeight frame gs := by
  simp only [callsWeight, List.map_append, List.sum_append]

@[simp] theorem weigh_goto (pc : P) : (Control.goto pc).weigh frame w = w pc := Nat.zero_add _

@[simp] theorem weigh_log (level : LogLevel) (text : String) (l : Control P) :
    (l.log level text).weigh frame w =
      l.weigh frame w + frame (.log (.level ⟨level, text⟩)) := by
  simp only [Control.weigh, Control.log, callsWeight_cons]
  omega

theorem weigh_logAll {n : ℕ} (hlog : ∀ call, frame (.log (.level call)) = n)
    (calls : List LogCall) (l : Control P) :
    (l.logAll calls).weigh frame w = l.weigh frame w + n * calls.length := by
  have hcalls : callsWeight frame (calls.map fun call => .log (.level call)) =
      n * calls.length := by
    simp [callsWeight, Function.comp_def, hlog, Nat.mul_comm]
  simp only [Control.weigh, Control.logAll, callsWeight_append, hcalls]
  omega

@[simp] theorem weigh_logUnless (r : ThrdResult) (text : String) (l : Control P) :
    (l.logUnless r text).weigh frame w =
      l.weigh frame w + if r = .success then 0 else frame (.log (.level ⟨.error, text⟩)) := by
  unfold Control.logUnless
  split
  · rfl
  · exact weigh_log _ _ _

@[simp] theorem weigh_reportActive (l : Control P) :
    l.reportActive.weigh frame w = l.weigh frame w + frame (.report .threadInfo) := by
  simp only [Control.weigh, Control.reportActive, callsWeight_cons]
  omega

theorem FileRead.length_logs_le (file : FileRead) : file.logs.length ≤ 2 := by
  cases file with
  | cannotOpen => simp [logs]
  | readError closed => cases closed <;> simp [logs, closeLog]
  | read complete closed parsed => cases complete <;> cases closed <;> simp [logs, closeLog]

/-! ## Four calls at most -/

/-- A call of `Log` weighs `n`, one of `Watchdog_reportActive` at most as much as four of them. -/
structure CallWeight (frame : Frame → ℕ) (n : ℕ) : Prop where
  log : ∀ call, frame (.log (.level call)) = n
  report : frame (.report .threadInfo) ≤ 4 * n

variable [DecidableEq ω]

/-- The weight does not grow inside a call. -/
def Shrinks (ω V : Type) [DecidableEq ω] (frame : Frame → ℕ) : Prop :=
  ∀ (t : Thread ω) f (d : Data ω V), (f.code : Code V (List Frame)).Post (Data.perform t)
    (fun _ => True) (fun gs _ _ => callsWeight frame gs ≤ frame f) ∅ d

variable {n : ℕ} {t : Thread ω} {d : Data ω V}

/-- The calls that the instruction leads to weigh at most as much as four calls of `Log`. -/
def FewCalls (frame : Frame → ℕ) (n : ℕ) (t : Thread ω) (d : Data ω V)
    (g : Code V (Control P)) : Prop :=
  g.Post (Data.perform t) (fun _ => True) (fun l _ _ => l.weigh frame (fun _ => 0) ≤ 4 * n) ∅ d

theorem WaitLoop.fewCalls (hn : CallWeight frame n) (w : WaitLoop) {here : WaitPc → P}
    {exit : Control P} (hexit : exit.weigh frame (fun _ => 0) = 0) (pc : WaitPc) :
    FewCalls frame n t d (w.code here exit pc) := by
  cases pc with
  | wait tp =>
    intro r _ _
    cases r <;> simp [hexit, hn.log] <;> omega
  | test tp =>
    cases htest : w.test.eval d.pipeline <;>
      simp [FewCalls, code, hexit, htest, Data.perform, PipeAct.perform]
  | _ => simp [FewCalls, code, hexit]

theorem Reader.fewCalls (hn : CallWeight frame n) (pc : ReaderPc) :
    FewCalls frame n t d (Reader.code pc) := by
  have hreport := hn.report
  cases pc with
  | waiting p w => exact outNotFull.fewCalls hn (weigh_goto _) w
  | load =>
    intro i _
    have hlogs := Nat.mul_le_mul_left n i.file.length_logs_le
    simp only [Data.perform, PipeAct.perform]
    cases i.file.result <;> simp [weigh_logAll hn.log, hn.log] <;> omega
  | _ =>
    simp [FewCalls, code, exiting, hn.log]
    try omega

theorem Analyzer.fewCalls [PercentageValue V] (hn : CallWeight frame n) (pc : AnalyzerPc V) :
    FewCalls frame n t d (Analyzer.code pc) := by
  have hreport := hn.report
  cases pc with
  | waitingIn v w => exact inNotEmpty.fewCalls hn (weigh_goto _) w
  | waitingOut v w => exact outNotFull.fewCalls hn (weigh_goto _) w
  | mallocUsageInfo old new =>
    intro i _
    simp only [Data.perform]
    cases old <;> cases new <;> cases i.ok <;> simp
  | read v =>
    intro i _
    simp only [Data.perform, PipeAct.perform]
    cases d.pipeline.procStatCbuf.read.1 <;> simp [hn.log]
    omega
  | notifyIn v =>
    have hsample : (haveSample v).weigh frame (fun _ => 0) = 0 := by
      unfold haveSample
      split <;> exact weigh_goto _
    intro r _ _
    cases r <;> simp [hsample, hn.log] <;> omega
  | _ =>
    simp [FewCalls, code, exiting, traceLogs, weigh_logAll hn.log, hn.log]
    try omega

theorem Printer.fewCalls (hn : CallWeight frame n) (pc : PrinterPc V) :
    FewCalls frame n t d (Printer.code pc) := by
  have hreport := hn.report
  cases pc with
  | waiting u w => exact inNotEmpty.fewCalls hn (weigh_goto _) w
  | malloc =>
    intro i _
    simp only [Data.perform]
    cases i.ok <;> simp
  | read u =>
    intro i _
    simp only [Data.perform, PipeAct.perform]
    cases d.pipeline.usageInfoCbuf.read.1 <;> simp [hn.log]
    omega
  | _ =>
    simp [FewCalls, code, exiting, hn.log]
    try omega

theorem Logger.fewCalls (hn : CallWeight frame n) (pc : LoggerPc) :
    FewCalls frame n t d (Logger.code pc) := by
  have hreport := hn.report
  have hnext : ∀ k x, (drainNext k x).weigh frame (fun _ => 0) ≤ 4 * n := by
    intro k x
    cases x with
    | none =>
      cases k <;> simp [drainNext, drained, exiting, hn.log]
      omega
    | some item => simp [drainNext]
  cases pc with
  | drain k => cases k <;> exact fun i _ => hnext _ _
  | _ =>
    simp [FewCalls, code, exiting, hn.log]
    try omega

theorem Watchdog.fewCalls (hn : CallWeight frame n) (pc : WatchdogPc) :
    FewCalls frame n t d (Watchdog.code pc) := by
  cases pc with
  | findOldest now =>
    intro i _
    simp only [check]
    split <;> simp
  | raise iiOldest retval =>
    intro i _
    simp only
    split <;> simp [hn.log] <;> omega
  | _ =>
    simp [FewCalls, code, hn.log]
    try omega

theorem Other.fewCalls (hn : CallWeight frame n) (pc : OtherPc) :
    FewCalls frame n t d (Other.code pc) := by
  have hreport := hn.report
  cases pc with
  | idle =>
    intro i _
    simp only
    split <;> simp [hn.log] <;> omega

variable [PercentageValue V]

theorem body_fewCalls (hn : CallWeight frame n) (t : Thread ω) (pc : Pc V t) :
    FewCalls frame n t d (body t pc) := by
  cases t with
  | reader => exact Reader.fewCalls hn pc
  | analyzer => exact Analyzer.fewCalls hn pc
  | printer => exact Printer.fewCalls hn pc
  | logger => exact Logger.fewCalls hn pc
  | watchdog => exact Watchdog.fewCalls hn pc
  | other w => exact Other.fewCalls hn pc

theorem fewCalls_outline (hn : CallWeight frame n) (hcode : Shrinks ω V frame) :
    Outline (program ω V) (fun _ _ _ _ _ => True)
      fun _ l _ _ => callsWeight frame l.calls ≤ 4 * n where
  own t l o d h := by
    obtain ⟨calls, pc⟩ := l
    cases calls with
    | nil => exact (body_fewCalls hn t pc).of_empty fun _ h => h
    | cons f fs =>
      rw [program_code_cons, Instr.post_map]
      have hcons : frame f + callsWeight frame fs ≤ 4 * n := by rwa [← callsWeight_cons]
      refine ((hcode t f d).mono (fun gs _ _ hgs => ?_) fun _ h => h).of_empty fun _ h => h
      rw [callsWeight_append]
      omega
  wait t l o d m _ h := h
  others t u htu l l' o o' d a next i h _ _ _ _ := h
  env t l o d e h := h

theorem Run.callsWeight_le (hn : CallWeight frame n) (hcode : Shrinks ω V frame)
    {ok : SysState ω V → SysLabel ω V → Prop} {s : SysState ω V} (hs : Run ok s) (t : Thread ω) :
    callsWeight frame (s.loc t).calls ≤ 4 * n := by
  refine Reach.outline (fewCalls_outline hn hcode) (fun s hs => ⟨hs.1, fun t => ?_⟩)
    (fun _ _ _ _ _ _ _ => trivial) hs t
  rw [hs.2.1 t]
  exact Nat.zero_le _

end CpuUsageTracker
