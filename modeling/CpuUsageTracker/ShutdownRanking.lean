import CpuUsageTracker.CallWeights
import CpuUsageTracker.Library.Ranking
import CpuUsageTracker.Responsiveness
import Mathlib.Algebra.Group.Action.Defs

/-!
# What is left to do once the kill switch is on

Every location of the five threads gets a rank that no path from there exceeds while the kill
switch is on (`shutdownRanking`): every loop ends at its next test, and the loops over the log
buffers are paid for by the messages that they remove. `Log` adds a message, so its rank covers
that one too.

**Theorem (`Run.measure_le`).** In a reachable state the measure is at most `shutdownSteps`: a
thread is in at most a few calls at a time (`Run.callsWeight_le`), and each buffer holds at most
`LOGGER_MESSAGE_BUFFER_ITEM_COUNT` messages.
-/

namespace CpuUsageTracker

open Threads

/-! ## Ranks -/

def LogPc.rank : LogPc → ℕ
  | level _ => 10
  | timeStr _ => 9
  | threadInfo _ _ => 8
  | lock _ => 7
  | inBuf _ => 6
  | write _ _ => 5
  | unlock => 2
  | notify => 1

def ReportPc.rank : ReportPc → ℕ
  | threadInfo => 25
  | lock _ => 24
  | stamp _ => 23
  | unlock => 22
  | notify => 11

def Frame.rank : Frame → ℕ
  | log pc => pc.rank
  | report pc => pc.rank

/-- `exit` is the rank of the location behind the loop. -/
def WaitPc.rank (exit : ℕ) : WaitPc → ℕ
  | timePoint => exit + 3
  | test _ => exit + 2
  | killSwitch _ => exit + 1
  | wait _ => exit + 13

def ReaderPc.rank : ReaderPc → ℕ
  | threadInfoSet => 12
  | head => 11
  | load => 47
  | lock _ => 26
  | waiting _ w => w.rank 22
  | killTest _ => 22
  | breakUnlock => 21
  | write _ => 56
  | unlock _ => 55
  | notify _ => 44
  | destroy _ => 13
  | sleep => 12
  | exited => 0

def AnalyzerPc.rank {V : Type} : AnalyzerPc V → ℕ
  | threadInfoSet => 15
  | mallocOld => 14
  | mallocNew _ => 13
  | mallocUsageInfo _ _ => 12
  | head _ => 11
  | lockIn _ => 26
  | waitingIn _ w => w.rank 22
  | killTestIn _ => 22
  | breakUnlockIn => 21
  | read _ => 39
  | emptyUnlock _ => 22
  | unlockIn _ => 38
  | notifyIn _ => 37
  | lockOut _ => 26
  | waitingOut _ w => w.rank 22
  | killTestOut _ => 22
  | breakUnlockOut => 21
  | write _ => 54
  | unlockOut _ => 53
  | notifyOut _ => 52
  | exited => 0

def PrinterPc.rank {V : Type} : PrinterPc V → ℕ
  | threadInfoSet => 13
  | malloc => 12
  | head _ => 11
  | lock _ => 26
  | waiting _ w => w.rank 22
  | killTest _ => 22
  | breakUnlock => 21
  | read _ => 34
  | unlock _ => 23
  | print _ => 22
  | exited => 0

/-- The loops over the buffers are counted in the potential. -/
def LoggerPc.rank : LoggerPc → ℕ
  | threadInfoSet => 28
  | fopen => 27
  | head => 26
  | lock => 41
  | timePoint => 40
  | isEmpty _ => 39
  | killSwitch _ => 38
  | wait _ => 50
  | killTest => 37
  | breakUnlock => 36
  | swap => 39
  | unlock => 38
  | drain .loop => 27
  | fputs .loop _ => 28
  | finalLock => 25
  | finalSwap => 24
  | drain .finalInBuf => 23
  | fputs .finalInBuf _ => 24
  | finalUnlock => 22
  | drain .finalSecondaryBuf => 11
  | fputs .finalSecondaryBuf _ => 12
  | exited => 0

def WatchdogPc.rank : WatchdogPc → ℕ
  | threadInfoSet => 16
  | startTime => 15
  | lock _ => 14
  | initTimestamps _ => 13
  | head _ => 12
  | wait _ => 27
  | now => 16
  | setTimestamp _ => 15
  | findOldest _ => 14
  | killTest _ _ => 13
  | retval _ => 33
  | raise _ _ => 32
  | finalUnlock _ => 11
  | exited _ => 0

variable {V : Type}

def pcRank : (t : Thread Empty) → Pc V t → ℕ
  | .reader => ReaderPc.rank
  | .analyzer => AnalyzerPc.rank
  | .printer => PrinterPc.rank
  | .logger => LoggerPc.rank
  | .watchdog => WatchdogPc.rank
  | .other w => w.elim

/-- The number of messages in the two buffers. -/
def LogBuffers.held (b : LogBuffers) : ℕ :=
  (b.buffers true).items.length + (b.buffers false).items.length

/-- The logger takes two steps for each message. -/
def Data.potential {ω : Type} (d : Data ω V) : ℕ := 2 * d.log.held

@[simp] theorem Frame.rank_level (call : LogCall) : (Frame.log (.level call)).rank = 10 := rfl

@[simp] theorem Frame.rank_threadInfo : (Frame.report .threadInfo).rank = 25 := rfl

/-! ## Every instruction lowers the rank -/

section

variable {P : Type} {rank : P → ℕ} {t : Thread Empty} {d : Data Empty V}

/-- The instruction leads from rank `n` to a lower one, and the potential pays for what it adds
there. -/
def Falls (t : Thread Empty) (rank : P → ℕ) (n : ℕ) (d : Data Empty V)
    (g : Code V (Control P)) : Prop :=
  g.Post (Data.perform t) (fun _ => True)
    (fun l _ d' => l.weigh Frame.rank rank + d'.potential < n + d.potential) ∅ d

theorem WaitLoop.falls (w : WaitLoop) (rank : P → ℕ) {here : WaitPc → P} {exit : Control P} {n : ℕ}
    (hhere : ∀ x, rank (here x) = x.rank n) (hexit : exit.weigh Frame.rank rank = n)
    (hk : d.killSwitch = true) (pc : WaitPc) :
    Falls t rank (pc.rank n) d (w.code here exit pc) := by
  cases pc with
  | timePoint => simp [Falls, code, hhere, WaitPc.rank, Data.perform]
  | test tp =>
    cases htest : w.test.eval d.pipeline <;>
      simp [Falls, code, hhere, hexit, htest, WaitPc.rank, Data.perform, PipeAct.perform,
        Data.potential]
  | killSwitch tp => simp [Falls, code, hexit, hk, WaitPc.rank, Data.perform]
  | wait tp =>
    intro r _ _
    cases r <;> simp [hexit, hhere, WaitPc.rank]

theorem Reader.falls (hk : d.killSwitch = true) (pc : ReaderPc) :
    Falls t ReaderPc.rank pc.rank d (Reader.code pc) := by
  cases pc with
  | waiting p w => exact outNotFull.falls ReaderPc.rank (fun _ => rfl) (weigh_goto _) hk w
  | load =>
    intro i _
    have hlogs := i.file.length_logs_le
    simp only [Data.perform, PipeAct.perform]
    cases i.file.result with
    | none =>
      simp [weigh_logAll Frame.rank_level, ReaderPc.rank, Data.potential]
      omega
    | some p =>
      simp [weigh_logAll Frame.rank_level, ReaderPc.rank, Data.potential]
      omega
  | _ => simp [Falls, code, exiting, hk, ReaderPc.rank, WaitPc.rank, Data.perform, PipeAct.perform,
      Data.potential]

theorem Analyzer.falls [PercentageValue V] (hk : d.killSwitch = true) (pc : AnalyzerPc V) :
    Falls t AnalyzerPc.rank pc.rank d (Analyzer.code pc) := by
  cases pc with
  | waitingIn v w =>
    exact inNotEmpty.falls AnalyzerPc.rank (fun _ => rfl) (weigh_goto _) hk w
  | waitingOut v w =>
    exact outNotFull.falls AnalyzerPc.rank (fun _ => rfl) (weigh_goto _) hk w
  | mallocUsageInfo old new =>
    intro i _
    simp only [Data.perform]
    cases old <;> cases new <;> cases i.ok <;> simp [AnalyzerPc.rank]
  | read v =>
    intro i _
    simp only [Data.perform, PipeAct.perform]
    cases d.pipeline.procStatCbuf.read.1 <;> simp [AnalyzerPc.rank, Data.potential]
  | notifyIn v =>
    intro r _ _
    have hsample : (haveSample v).weigh Frame.rank AnalyzerPc.rank ≤ 26 := by
      unfold haveSample
      split <;> simp [AnalyzerPc.rank]
    cases r <;> simp [AnalyzerPc.rank] <;> omega
  | _ => simp [Falls, code, exiting, hk, AnalyzerPc.rank, WaitPc.rank, traceLogs,
      weigh_logAll Frame.rank_level, Data.perform, PipeAct.perform, Data.potential]

theorem Printer.falls (hk : d.killSwitch = true) (pc : PrinterPc V) :
    Falls t PrinterPc.rank pc.rank d (Printer.code pc) := by
  cases pc with
  | waiting u w =>
    exact inNotEmpty.falls PrinterPc.rank (fun _ => rfl) (weigh_goto _) hk w
  | malloc =>
    intro i _
    simp only [Data.perform]
    cases i.ok <;> simp [PrinterPc.rank]
  | read u =>
    intro i _
    simp only [Data.perform, PipeAct.perform]
    cases d.pipeline.usageInfoCbuf.read.1 <;> simp [PrinterPc.rank, Data.potential]
  | _ => simp [Falls, code, exiting, hk, PrinterPc.rank, WaitPc.rank, Data.perform, PipeAct.perform,
      Data.potential]

theorem Watchdog.falls (hk : d.killSwitch = true) (pc : WatchdogPc) :
    Falls t WatchdogPc.rank pc.rank d (Watchdog.code pc) := by
  cases pc with
  | findOldest now =>
    intro i _
    simp only [check]
    split <;> simp [WatchdogPc.rank, Data.perform]
  | raise iiOldest retval =>
    intro i _
    simp only
    split <;> simp [WatchdogPc.rank, Data.perform, Data.potential]
  | _ => simp [Falls, code, hk, WatchdogPc.rank, Data.perform, Data.potential]

theorem LogBuffers.held_setBuffer (b : LogBuffers) (i : Bool)
    (q : Fifo LogItem loggerMessageBufferItemCount) :
    (b.setBuffer i q).held + (b.buffers i).items.length = b.held + q.items.length := by
  simp only [held, setBuffer]
  cases i <;> simp <;> omega

/-- Reading a message takes it out of the buffers. -/
theorem held_performRead (b : LogBuffers) (i : Bool) :
    (LogAct.performRead b i).1.held + (b.buffers i).items.head?.toList.length = b.held := by
  have hset := b.held_setBuffer i (b.buffers i).read.2
  have hsplit : (b.buffers i).read.2.items.length + (b.buffers i).items.head?.toList.length =
      (b.buffers i).items.length := by
    simp only [Fifo.read]
    cases (b.buffers i).items <;> rfl
  show (b.setBuffer i _).held + _ = _
  omega

theorem held_performWrite_le (b : LogBuffers) (i : Bool) (message : LogMessage) :
    (LogAct.performWrite b i message).held ≤ b.held + 1 := by
  have hlen : ((b.buffers i).write ⟨b.written.length, message⟩).items.length ≤
      (b.buffers i).items.length + 1 := by
    refine (lastN_suffix _ _).length_le.trans ?_
    rw [List.length_append, List.length_singleton]
  have hset := b.held_setBuffer i ((b.buffers i).write ⟨b.written.length, message⟩)
  show (b.setBuffer i _).held ≤ _
  omega

theorem Logger.falls_drain (k : Drain) (i : Bool) {n : ℕ}
    (hdrained : (drained k).weigh Frame.rank LoggerPc.rank < n)
    (hfputs : ∀ item, LoggerPc.rank (.fputs k item) = n + 1) :
    (drainNext k (LogAct.performRead d.log i).2).weigh Frame.rank LoggerPc.rank +
      2 * (LogAct.performRead d.log i).1.held < n + d.potential := by
  have hread := held_performRead d.log i
  have hresult : (LogAct.performRead d.log i).2 = (d.log.buffers i).items.head? := rfl
  rw [hresult]
  unfold Data.potential
  cases hhead : (d.log.buffers i).items.head? with
  | none =>
    simp only [hhead, Option.toList_none, List.length_nil, drainNext] at *
    omega
  | some item =>
    simp only [hhead, Option.toList_some, List.length_singleton, drainNext, weigh_goto, hfputs] at *
    omega

theorem Logger.falls (hk : d.killSwitch = true) (pc : LoggerPc) :
    Falls t LoggerPc.rank pc.rank d (Logger.code pc) := by
  cases pc with
  | drain k =>
    cases k with
    | loop => exact fun i _ => falls_drain .loop _ (by simp [drained, LoggerPc.rank]) fun _ => rfl
    | finalInBuf =>
      exact fun i _ => falls_drain .finalInBuf _ (by simp [drained, LoggerPc.rank]) fun _ => rfl
    | finalSecondaryBuf =>
      exact fun i _ => falls_drain .finalSecondaryBuf _
        (by simp [drained, exiting, LoggerPc.rank]) fun _ => rfl
  | fputs k item =>
    cases k <;>
      simp [Falls, code, LoggerPc.rank, Data.perform, LogAct.perform, Data.potential,
        LogBuffers.held]
  | _ => simp [Falls, code, exiting, hk, LoggerPc.rank, Data.perform, LogAct.perform,
      Data.potential, LogBuffers.held]

theorem Frame.falls (f : Frame) :
    (f.code : Code V (List Frame)).Post (Data.perform t) (fun _ => True)
      (fun gs _ d' => callsWeight Frame.rank gs + d'.potential < f.rank + d.potential) ∅ d := by
  cases f with
  | log f =>
    cases f with
    | level call =>
      simp [Frame.code, LogPc.code, callsWeight, Frame.rank, LogPc.rank, Data.perform]
    | write buf message =>
      intro i _
      have hheld := held_performWrite_le d.log buf message
      show 2 + 2 * (LogAct.performWrite d.log buf message).held < 5 + 2 * d.log.held
      omega
    | _ => simp [Frame.code, LogPc.code, callsWeight, Frame.rank, LogPc.rank, Data.perform,
        LogAct.perform, Data.potential]
  | report f =>
    cases f with
    | threadInfo =>
      intro i _
      simp only [Data.perform]
      split <;> simp [callsWeight, Frame.rank, ReportPc.rank]
    | _ => simp [Frame.code, ReportPc.code, callsWeight, Frame.rank, Frame.logError,
        LogPc.rank, ReportPc.rank, Data.perform, Data.potential]

end

variable [PercentageValue V]

theorem body_falls {d : Data Empty V} (hk : d.killSwitch = true) (t : Thread Empty) (pc : Pc V t) :
    Falls t (pcRank t) (pcRank t pc) d (body t pc) := by
  cases t with
  | reader => exact Reader.falls hk pc
  | analyzer => exact Analyzer.falls hk pc
  | printer => exact Printer.falls hk pc
  | logger => exact Logger.falls hk pc
  | watchdog => exact Watchdog.falls hk pc
  | other w => exact w.elim

/-- Nothing switches the kill switch off. -/
theorem killSwitch_persistent {ω : Type} [DecidableEq ω] :
    (program ω V).Persistent fun d => d.killSwitch = true where
  perform t a i d hk := by
    by_contra hoff
    rw [Bool.not_eq_true] at hoff
    cases (Data.killSwitch_perform hoff).symm.trans hk
  env e d hk := by
    cases e with
    | signal => rfl
    | tick ns => exact hk

theorem code_falls {t : Thread Empty} {l : Loc V t} {d : Data Empty V}
    (hk : d.killSwitch = true) :
    ((program Empty V).code t l).Post (Data.perform t) (fun _ => True)
      (fun l' _ d' => l'.weigh Frame.rank (pcRank t) + d'.potential <
        l.weigh Frame.rank (pcRank t) + d.potential) ∅ d := by
  obtain ⟨calls, pc⟩ := l
  cases calls with
  | nil =>
    refine (body_falls hk t pc).mono (fun l _ d' h => ?_) fun _ h => h
    rwa [← Nat.zero_add (pcRank t pc)] at h
  | cons f fs =>
    rw [program_code_cons, Instr.post_map]
    refine f.falls.mono (fun gs _ d' h => ?_) fun _ h => h
    simp only [Control.weigh, callsWeight_append, callsWeight_cons]
    omega

/-- While the kill switch is on, every step gets a thread closer to its end. -/
def shutdownRanking (V : Type) [PercentageValue V] :
    Ranking (program Empty V) fun d => d.killSwitch = true where
  rank t l := l.weigh Frame.rank (pcRank t)
  potential := Data.potential
  potential_env e d := by cases e <;> exact Nat.le_refl _
  code _ _ _ hk := code_falls hk

/-! ## Bounds -/

theorem Frame.callWeight_rank : CallWeight rank 10 where
  log _ := rfl
  report := by decide

omit [PercentageValue V] in
theorem Frame.shrinks_rank : Shrinks Empty V rank := by
  intro t f d
  cases f with
  | log f =>
    cases f <;> simp [code, LogPc.code, callsWeight, rank, LogPc.rank]
  | report f =>
    cases f with
    | threadInfo =>
      intro i _
      simp only [Data.perform]
      split <;> simp [callsWeight, rank, ReportPc.rank]
    | _ => simp [code, ReportPc.code, callsWeight, rank, logError, LogPc.rank, ReportPc.rank]

omit [PercentageValue V] in
theorem pcRank_le (t : Thread Empty) (pc : Pc V t) : pcRank t pc ≤ 56 := by
  cases t with
  | reader =>
    cases pc with
    | waiting p w => cases w <;> simp [pcRank, ReaderPc.rank, WaitPc.rank]
    | _ => simp [pcRank, ReaderPc.rank]
  | analyzer =>
    cases pc with
    | waitingIn v w | waitingOut v w => cases w <;> simp [pcRank, AnalyzerPc.rank, WaitPc.rank]
    | _ => simp [pcRank, AnalyzerPc.rank]
  | printer =>
    cases pc with
    | waiting u w => cases w <;> simp [pcRank, PrinterPc.rank, WaitPc.rank]
    | _ => simp [pcRank, PrinterPc.rank]
  | logger =>
    cases pc with
    | drain k | fputs k item => cases k <;> simp [pcRank, LoggerPc.rank]
    | _ => simp [pcRank, LoggerPc.rank]
  | watchdog => cases pc <;> simp [pcRank, WatchdogPc.rank]
  | other w => exact w.elim

/-- Two steps for each message that the buffers hold, at most 96 for the calls and the location of
a thread, each counted three times, and two for its status. -/
def shutdownSteps : ℕ := 3 * (2 * (2 * loggerMessageBufferItemCount) + 5 * 96) + 5 * 2

theorem Run.measure_le {ok : SysState Empty V → SysLabel Empty V → Prop} {s : SysState Empty V}
    (hs : Run ok s) : (shutdownRanking V).measure s ≤ shutdownSteps := by
  have hpotential : s.data.potential ≤ 2 * (2 * loggerMessageBufferItemCount) := by
    have htrue := (s.data.log.buffers true).length_le
    have hfalse := (s.data.log.buffers false).length_le
    simp only [Data.potential, LogBuffers.held]
    omega
  have hrank : ∑ t, (s.loc t).weigh Frame.rank (pcRank t) ≤ ∑ _t : Thread Empty, 96 := by
    refine Finset.sum_le_sum fun t _ => ?_
    have hcalls := hs.callsWeight_le Frame.callWeight_rank Frame.shrinks_rank t
    have hpc := pcRank_le t (s.loc t).pc
    unfold Control.weigh
    omega
  have hweight : ∑ t, (s.status t).weight ≤ ∑ _t : Thread Empty, 2 := by
    refine Finset.sum_le_sum fun t _ => ?_
    cases s.status t <;> simp [Status.weight]
  have hcard : Fintype.card (Thread Empty) = 5 := rfl
  rw [Finset.sum_const, Finset.card_univ, hcard] at hrank hweight
  simp only [smul_eq_mul] at hrank hweight
  show 3 * (s.data.potential + ∑ t, (s.loc t).weigh Frame.rank (pcRank t)) +
    ∑ t, (s.status t).weight ≤ _
  unfold shutdownSteps
  omega

end CpuUsageTracker
