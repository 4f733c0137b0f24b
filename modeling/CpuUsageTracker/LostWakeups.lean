import CpuUsageTracker.Library.Signalling
import CpuUsageTracker.Ownership

/-!
# Lost wake-ups between producer and consumer

The four wait loops over the pipeline's buffers are named by their tests (`PipeTest`): a thread
waits while the test holds, and the thread at the other end of the buffer ends that and signals.

**Theorem (`no_lost_wakeup`).** In every run in which unlocking an owned mutex and signalling
succeed, and the printer removes no record while the analyzer is blocked for room, a thread that
is blocked in a wait loop still has to wait, or the signal for it is still to be sent.

The condition on the printer stands in for the signal that it never sends.
`printer_removes_without_signal` is a run in which the analyzer stays blocked although the
printer has emptied the buffer.
-/

namespace CpuUsageTracker

open Threads

variable {ω V : Type}

namespace PipeTest

/-- The thread that waits while the test holds. -/
def waiter : PipeTest → Thread ω
  | procStatIsEmpty => .analyzer
  | procStatIsFull => .reader
  | usageInfoIsEmpty => .printer
  | usageInfoIsFull => .analyzer

/-- The thread at the other end of the buffer. -/
def signaller : PipeTest → Thread ω
  | procStatIsEmpty => .reader
  | procStatIsFull => .analyzer
  | usageInfoIsEmpty => .analyzer
  | usageInfoIsFull => .printer

def cv : PipeTest → CondVar
  | procStatIsEmpty => .procStatNotEmptyCv
  | procStatIsFull => .procStatNotFullCv
  | usageInfoIsEmpty => .usageInfoNotEmptyCv
  | usageInfoIsFull => .usageInfoNotFullCv

def mtx : PipeTest → Mutex
  | procStatIsEmpty | procStatIsFull => .procStatMtx
  | usageInfoIsEmpty | usageInfoIsFull => .usageInfoMtx

/-- Between the operation that ends the test and the signal. The printer sends none. -/
def pending : (x : PipeTest) → Pc V (x.signaller : Thread ω) → Prop
  | procStatIsEmpty, pc => ∃ p, pc = ReaderPc.unlock p ∨ pc = ReaderPc.notify p
  | procStatIsFull, pc => ∃ v, pc = AnalyzerPc.unlockIn v ∨ pc = AnalyzerPc.notifyIn v
  | usageInfoIsEmpty, pc => ∃ v, pc = AnalyzerPc.unlockOut v ∨ pc = AnalyzerPc.notifyOut v
  | usageInfoIsFull, _ => False

end PipeTest

/-- The wait loop that a location is in. -/
def waitPc : (t : Thread ω) → Pc V t → Option (PipeTest × WaitPc)
  | .reader, .waiting _ w => some (.procStatIsFull, w)
  | .analyzer, .waitingIn _ w => some (.procStatIsEmpty, w)
  | .analyzer, .waitingOut _ w => some (.usageInfoIsFull, w)
  | .printer, .waiting _ w => some (.usageInfoIsEmpty, w)
  | _, _ => none

/-- The locations behind the test of the wait loop. -/
def WaitPc.tested : WaitPc → Bool
  | .killSwitch _ | .wait _ => true
  | .timePoint | .test _ => false

/-- The thread has found that the test holds, and owns the mutex since. -/
def Knows (x : PipeTest) (t : Thread ω) (pc : Pc V t) : Prop :=
  ∃ w, waitPc t pc = some (x, w) ∧ w.tested = true

variable [DecidableEq ω] [PercentageValue V]

/-- A thread that is blocked in a wait loop still has to wait, or will be signalled. -/
def NoLostWakeup (s : SysState ω V) : Prop :=
  ∀ x : PipeTest, (program ω V).BlockedOn s x.waiter x.cv →
    x.eval s.data.pipeline = true ∨ x.pending (s.loc x.signaller).pc

def PrinterPc.isRead : PrinterPc V → Bool
  | .read _ => true
  | _ => false

/-- The printer does not remove a record while the analyzer is blocked for room. -/
def RemovesUnawaited (s : SysState ω V) (lab : SysLabel ω V) : Prop :=
  lab.actor = some .printer → (s.loc .printer).pc.isRead = true →
    ¬(program ω V).BlockedOn s .analyzer .usageInfoNotFullCv

/-- Unlocking an owned mutex and signalling succeed, and the printer does not remove a record
while the analyzer is blocked for room. -/
structure SignalsOrUnawaited (s : SysState ω V) (lab : SysLabel ω V) : Prop where
  unlocks : (program ω V).UnlocksSucceed s lab
  signals : (program ω V).EveryReturn (fun _ _ => Call.NotifySucceeds) s lab
  removes : RemovesUnawaited s lab

variable {t : Thread ω} {x : PipeTest}

/-! ## The waiters -/

omit [DecidableEq ω] [PercentageValue V] in
theorem WaitLoop.tested_of_waitsOn {P : Type} {w : WaitLoop} {here : WaitPc → P}
    {exit : Control P} {pc : WaitPc} {c : CondVar}
    (h : (w.code here exit pc : Code V (Control P)).waitsOn c) : w.cv = c ∧ pc.tested = true := by
  cases pc with
  | wait tp => exact ⟨h, rfl⟩
  | _ => cases h

omit [DecidableEq ω] in
/-- Only the waiter of a wait loop waits on its condition variable, after the test. -/
theorem body_waitsOn {pc : Pc V t} (h : (body t pc).waitsOn x.cv) :
    t = x.waiter ∧ Knows x t pc := by
  cases t with
  | reader =>
    cases pc with
    | waiting p w =>
      obtain ⟨hcv, hw⟩ := WaitLoop.tested_of_waitsOn h
      cases x <;> cases hcv
      exact ⟨rfl, w, rfl, hw⟩
    | _ => cases h
  | analyzer =>
    cases pc with
    | waitingIn v w | waitingOut v w =>
      obtain ⟨hcv, hw⟩ := WaitLoop.tested_of_waitsOn h
      cases x <;> cases hcv
      exact ⟨rfl, w, rfl, hw⟩
    | _ => cases h
  | printer =>
    cases pc with
    | waiting u w =>
      obtain ⟨hcv, hw⟩ := WaitLoop.tested_of_waitsOn h
      cases x <;> cases hcv
      exact ⟨rfl, w, rfl, hw⟩
    | _ => cases h
  | logger =>
    cases pc with
    | wait tp => cases x <;> cases h
    | drain k => cases k <;> cases h
    | _ => cases h
  | watchdog =>
    cases pc with
    | wait tp => cases x <;> cases h
    | _ => cases h
  | other w =>
    cases pc
    cases h

/-- The same for the program. -/
theorem program_waitsOn {l : Loc V t} (h : ((program ω V).code t l).waitsOn x.cv) :
    t = x.waiter ∧ Knows x t l.pc := by
  obtain ⟨calls, pc⟩ := l
  cases calls with
  | nil => exact body_waitsOn h
  | cons f fs =>
    rw [program_code_cons, Instr.waitsOn_map] at h
    exact absurd h (f.not_waitsOn _)

omit [DecidableEq ω] [PercentageValue V] in
theorem Knows.mutex {pc : Pc V t} (h : Knows x t pc) : pcMutex t pc = some x.mtx := by
  obtain ⟨w, hw, -⟩ := h
  cases t with
  | reader | analyzer | printer =>
    cases pc <;> cases hw <;> rfl
  | logger | watchdog | other w => cases hw

omit [DecidableEq ω] [PercentageValue V] in
theorem not_knows {pc : Pc V t} (h : waitPc t pc = none) : ¬Knows x t pc := by
  rintro ⟨w, hw, -⟩
  cases h.symm.trans hw

/-- What the waiter's instructions have to establish. -/
abbrev KnowsPost (x : PipeTest) (t : Thread ω) (o : Set Mutex) (d : Data ω V)
    (g : Code V (Loc V t)) : Prop :=
  g.Post (Data.perform t) (fun _ => True)
    (fun l _ d => Knows x t l.pc → x.eval d.pipeline = true) o d

omit [PercentageValue V] in
/-- A wait loop goes on to the locations behind the test only if the test holds. -/
theorem WaitLoop.knows (w : WaitLoop) {here : WaitPc → Pc V t} {exit : Loc V t} {o : Set Mutex}
    {d : Data ω V} (hhere : ∀ pc, waitPc t (here pc) = some (w.test, pc))
    (hexit : waitPc t exit.pc = none) (pc : WaitPc)
    (h : (∀ c, ¬(w.code here exit pc : Code V (Loc V t)).waitsOn c) → Knows x t (here pc) →
      x.eval d.pipeline = true) :
    KnowsPost x t o d (w.code here exit pc) := by
  have hknows : ∀ {pc}, Knows x t (here pc) → x = w.test ∧ pc.tested = true := by
    rintro pc ⟨w', hw, htested⟩
    cases (hhere pc).symm.trans hw
    exact ⟨rfl, htested⟩
  cases pc with
  | timePoint =>
    intro i _ hk
    cases (hknows hk).2
  | test tp =>
    intro i _
    simp only
    split
    · rename_i htest
      intro hk
      rw [(hknows hk).1]
      exact htest
    · exact fun hk => absurd hk (not_knows hexit)
  | killSwitch tp =>
    intro i _
    simp only
    split
    · exact fun hk => absurd hk (not_knows hexit)
    · intro hk
      refine h (fun c => id) ⟨.killSwitch tp, ?_, rfl⟩
      rw [hhere, (hknows hk).1]
  | wait tp =>
    intro r _ _
    cases r with
    | success | timedout => exact fun hk => absurd hk (not_knows hexit)
    | error =>
      intro hk
      cases (hknows hk).2

omit [PercentageValue V] in
theorem Reader.knows {pc : ReaderPc} {o : Set Mutex} {d : Data ω V}
    (h : (∀ c, ¬(code pc : Code V (Control ReaderPc)).waitsOn c) →
      Knows (V := V) x (.reader : Thread ω) pc → x.eval d.pipeline = true) :
    KnowsPost x .reader o d (code pc) := by
  cases pc with
  | waiting p w => exact outNotFull.knows (fun _ => rfl) rfl w h
  | load =>
    intro i _
    simp only
    split <;> exact fun hk => absurd hk (not_knows rfl)
  | _ => simp [KnowsPost, code, exiting, Knows, waitPc, WaitPc.tested]

theorem Analyzer.knows {pc : AnalyzerPc V} {o : Set Mutex} {d : Data ω V}
    (h : (∀ c, ¬(code pc).waitsOn c) → Knows x (.analyzer : Thread ω) pc →
      x.eval d.pipeline = true) : KnowsPost x .analyzer o d (code pc) := by
  cases pc with
  | waitingIn v w => exact inNotEmpty.knows (fun _ => rfl) rfl w h
  | waitingOut v w => exact outNotFull.knows (fun _ => rfl) rfl w h
  | mallocUsageInfo | read =>
    intro i _
    simp only
    split <;> exact fun hk => absurd hk (not_knows rfl)
  | notifyIn v =>
    have hsample : waitPc (.analyzer : Thread ω) (haveSample v).pc = none := by
      unfold haveSample
      split <;> rfl
    simp [KnowsPost, code, not_knows hsample]
  | _ => simp [KnowsPost, code, exiting, Knows, waitPc, WaitPc.tested]

omit [PercentageValue V] in
theorem Printer.knows {pc : PrinterPc V} {o : Set Mutex} {d : Data ω V}
    (h : (∀ c, ¬(code pc : Code V (Control (PrinterPc V))).waitsOn c) →
      Knows x (.printer : Thread ω) pc → x.eval d.pipeline = true) :
    KnowsPost x .printer o d (code pc) := by
  cases pc with
  | waiting u w => exact inNotEmpty.knows (fun _ => rfl) rfl w h
  | malloc | read =>
    intro i _
    simp only
    split <;> exact fun hk => absurd hk (not_knows rfl)
  | _ => simp [KnowsPost, code, exiting, Knows, waitPc, WaitPc.tested]

theorem body_knows {pc : Pc V t} {o : Set Mutex} {d : Data ω V}
    (h : (∀ c, ¬(body t pc).waitsOn c) → Knows x t pc → x.eval d.pipeline = true) :
    KnowsPost x t o d (body t pc) := by
  cases t with
  | reader => exact Reader.knows h
  | analyzer => exact Analyzer.knows h
  | printer => exact Printer.knows h
  | logger | watchdog | other w =>
    exact Instr.post_of_forall (fun _ _ _ hk => absurd hk (not_knows rfl)) _

omit [PercentageValue V] in
/-- The calls of `Log` and `Watchdog_reportActive` leave the pipeline alone. -/
theorem Frame.post_of_pipeline {allow : Event (Input V) → Prop} {φ : Pipeline V → Prop}
    {o : Set Mutex} {d : Data ω V} (f : Frame) (h : φ d.pipeline) :
    (f.code : Code V (List Frame)).Post (Data.perform t) allow (fun _ _ d => φ d.pipeline) o d := by
  cases hf : (f.code : Code V (List Frame)) with
  | call c next => exact fun r _ _ => h
  | act a next =>
    intro i _
    rw [(Data.perform_of_ne_pipe t (Frame.code_ne_pipe hf) i d).1]
    exact h
  | sleep ms next => exact h
  | exit => trivial

theorem program_knows {l : Loc V t} {o : Set Mutex} {d : Data ω V}
    (h : (∀ c, ¬((program ω V).code t l).waitsOn c) → Knows x t l.pc →
      x.eval d.pipeline = true) : KnowsPost x t o d ((program ω V).code t l) := by
  obtain ⟨calls, pc⟩ := l
  cases calls with
  | nil => exact body_knows h
  | cons f fs =>
    rw [KnowsPost, program_code_cons, Instr.post_map]
    refine f.post_of_pipeline (φ := fun p => Knows x t pc → x.eval p = true) (h fun c => ?_)
    rw [program_code_cons, Instr.waitsOn_map]
    exact f.not_waitsOn c

/-! ## The signallers -/

omit [DecidableEq ω] [PercentageValue V] in
/-- Only the signaller ends the test. -/
theorem PipeTest.eval_perform {a : PipeAct V} (ha : a.actor ≠ some (x.signaller : Thread ω))
    (file : FileRead) {p : Pipeline V} (h : x.eval p = true) :
    x.eval (a.perform file p).1 = true := by
  cases a with
  | procStatWrite y =>
    cases x with
    | procStatIsEmpty => exact absurd rfl ha
    | procStatIsFull => exact Fifo.isFull_write h y
    | usageInfoIsEmpty | usageInfoIsFull => exact h
  | procStatRead =>
    cases x with
    | procStatIsEmpty => exact Channel.isEmpty_read h
    | usageInfoIsFull => exact h
    | procStatIsFull | usageInfoIsEmpty => exact absurd rfl ha
  | usageInfoWrite y =>
    cases x with
    | procStatIsEmpty => exact h
    | usageInfoIsFull => exact Fifo.isFull_write h y
    | procStatIsFull | usageInfoIsEmpty => exact absurd rfl ha
  | usageInfoRead =>
    cases x with
    | usageInfoIsEmpty => exact Channel.isEmpty_read h
    | usageInfoIsFull => exact absurd rfl ha
    | procStatIsEmpty | procStatIsFull => exact h
  | loadFromFile | destroy y | test y | print y => cases x <;> exact h

omit [DecidableEq ω] in
/-- The operation that ends the test is performed under the mutex, and a signal follows. -/
theorem body_ends {pc : Pc V (x.signaller : Thread ω)} {a : PipeAct V} {file : FileRead}
    {next : a.Result → Loc V (x.signaller : Thread ω)} {p : Pipeline V}
    (hc : body x.signaller pc = .act (.pipe a) next) (h : x.eval p = true)
    (hnot : x.eval (a.perform file p).1 = false) :
    pcMutex x.signaller pc = some x.mtx ∧
      (x ≠ .usageInfoIsFull → x.pending (next (a.perform file p).2).pc) := by
  cases x with
  | procStatIsEmpty =>
    cases pc with
    | write q =>
      cases hc
      exact ⟨rfl, fun _ => ⟨q, .inl rfl⟩⟩
    | waiting q w =>
      cases w <;> cases hc
      cases h.symm.trans hnot
    | _ => cases hc <;> cases h.symm.trans hnot
  | procStatIsFull =>
    cases pc with
    | read v =>
      cases hc
      refine ⟨rfl, fun _ => ?_⟩
      cases hread : p.procStatCbuf.read.1 with
      | none =>
        rw [Channel.read_eq_none_iff] at hread
        simp only [PipeAct.perform, PipeTest.eval, Channel.read_of_isEmpty hread] at hnot
        cases h.symm.trans hnot
      | some y =>
        simp only [PipeAct.perform, hread]
        exact ⟨_, .inl rfl⟩
    | waitingIn v w | waitingOut v w =>
      cases w <;> cases hc
      cases h.symm.trans hnot
    | _ => cases hc <;> cases h.symm.trans hnot
  | usageInfoIsEmpty =>
    cases pc with
    | write v =>
      cases hc
      exact ⟨rfl, fun _ => ⟨v, .inl rfl⟩⟩
    | waitingIn v w | waitingOut v w =>
      cases w <;> cases hc
      cases h.symm.trans hnot
    | _ => cases hc <;> cases h.symm.trans hnot
  | usageInfoIsFull =>
    cases pc with
    | read u =>
      cases hc
      exact ⟨rfl, fun hx => absurd rfl hx⟩
    | waiting u w =>
      cases w <;> cases hc
      cases h.symm.trans hnot
    | _ => cases hc <;> cases h.symm.trans hnot

omit [DecidableEq ω] [PercentageValue V] in
/-- The printer makes room by reading. -/
theorem Printer.isRead_of_ends {pc : PrinterPc V} {a : PipeAct V} {file : FileRead}
    {next : a.Result → Control (PrinterPc V)} {p : Pipeline V}
    (hc : code pc = .act (.pipe a) next) (h : p.usageInfoCbuf.isFull = true)
    (hnot : (a.perform file p).1.usageInfoCbuf.isFull = false) : pc.isRead = true := by
  cases pc with
  | read u => rfl
  | waiting u w =>
    cases w <;> cases hc
    cases h.symm.trans hnot
  | _ => cases hc <;> cases h.symm.trans hnot

omit [DecidableEq ω] in
/-- A pending signal stays pending until it is sent. -/
theorem body_sends {pc : Pc V (x.signaller : Thread ω)} (h : x.pending pc) :
    (body x.signaller pc).Sends x.cv fun l => x.pending l.pc := by
  cases x with
  | procStatIsEmpty =>
    obtain ⟨p, rfl | rfl⟩ := h
    · exact ⟨p, .inr rfl⟩
    · exact .inl rfl
  | procStatIsFull | usageInfoIsEmpty =>
    obtain ⟨v, rfl | rfl⟩ := h
    · exact ⟨v, .inr rfl⟩
    · exact .inl rfl
  | usageInfoIsFull => exact h.elim

theorem program_sends {l : Loc V (x.signaller : Thread ω)} (h : x.pending l.pc) :
    ((program ω V).code x.signaller l).Sends x.cv fun l => x.pending l.pc := by
  obtain ⟨calls, pc⟩ := l
  cases calls with
  | nil => exact body_sends h
  | cons f fs =>
    rw [program_code_cons, Instr.sends_map]
    exact Instr.sends_of_forall (fun _ => h) _

/-- An action on the pipeline belongs to the thread's own function. -/
theorem program_pipe {l : Loc V t} {a : PipeAct V} {next : a.Result → Loc V t}
    (h : (program ω V).code t l = .act (.pipe a) next) :
    l.calls = [] ∧ body t l.pc = .act (.pipe a) next := by
  obtain ⟨calls, pc⟩ := l
  cases calls with
  | nil => exact ⟨rfl, h⟩
  | cons f fs =>
    rw [program_code_cons] at h
    obtain ⟨next', hf, -⟩ := Instr.map_eq_act h
    exact absurd rfl (Frame.code_ne_pipe hf a)

/-! ## The whole program -/

/-- A thread other than the logger owns the mutex of its location when its next instruction is
not a wait that it is already in. -/
theorem Run.owner {s : SysState ω V} {m : Mutex} (hs : Run SignalsOrUnawaited s)
    (hpc : pcMutex t (s.loc t).pc = some m) (ht : t ≠ .logger)
    (hnot : s.status t = .ready ∨ ¬((program ω V).code t (s.loc t)).waitsWith m) :
    s.owner m = some t := by
  have howns := Run.ownership (fun _ _ h => h.unlocks) hs t
  rcases (howns.mem_iff m (mem_concerned ht m)).2 (.inl hpc) with howner | ⟨hready, hwaits⟩
  · exact howner
  · rcases hnot with hnot | hnot
    · exact absurd hnot hready
    · exact absurd hwaits hnot

theorem signalling (x : PipeTest) : Signalling (program ω V) Init SignalsOrUnawaited x.waiter
    x.signaller x.cv x.mtx (fun d => x.eval d.pipeline = true)
    (fun l => Knows x (x.waiter : Thread ω) l.pc) (fun l => x.pending l.pc) where
  ne := by cases x <;> simp [PipeTest.waiter, PipeTest.signaller]
  only_waiter t l h := (program_waitsOn h).1
  knows_wait l h := (program_waitsOn h).2
  owner s hs hready hk := by
    refine Run.owner hs hk.mutex ?_ (.inl hready)
    cases x <;> simp [PipeTest.waiter]
  learns l o d h := program_knows h
  keeps s t a next i _ ht hc h := by
    by_cases ha : ∃ b, a = .pipe b
    · obtain ⟨b, rfl⟩ := ha
      exact PipeTest.eval_perform (fun hb => ht (body_actor (program_pipe hc).2 hb).symm) i.file h
    · show x.eval (Data.perform t a i s.data).1.pipeline = true
      rw [(Data.perform_of_ne_pipe t (fun b hb => ha ⟨b, hb⟩) i s.data).1]
      exact h
  ends s a next i hs hok hc h hnot := by
    obtain ⟨b, rfl⟩ : ∃ b, a = .pipe b := by
      by_contra ha
      refine hnot ?_
      show x.eval (Data.perform _ a i s.data).1.pipeline = true
      rw [(Data.perform_of_ne_pipe _ (fun b hb => ha ⟨b, hb⟩) i s.data).1]
      exact h
    have hbody := (program_pipe hc).2
    have hnot' : x.eval (b.perform i.file s.data.pipeline).1 = false :=
      Bool.eq_false_of_not_eq_true hnot
    obtain ⟨hmtx, hpending⟩ := body_ends hbody h hnot'
    refine ⟨Run.owner hs hmtx ?_ (.inr ?_), fun hb => hpending ?_⟩
    · cases x <;> simp [PipeTest.signaller]
    · rw [hc]
      exact id
    · rintro rfl
      exact hok.removes rfl (Printer.isRead_of_ends hbody h hnot') hb
  env e d h := by cases e <;> exact h
  sends l h := program_sends h
  sent s lab ev hs hok hev := by
    have hlogger : (x.signaller : Thread ω) ≠ .logger := by
      cases x <;> simp [PipeTest.signaller]
    have hunlock := Run.unlock_succeeds (fun _ _ h => h.unlocks) hs hok hev hlogger
    have hnotify := hok.signals _ ev hev
    cases hc : (program ω V).code x.signaller (s.loc x.signaller) with
    | call c next =>
      rw [hc] at hunlock hnotify
      cases ev with
      | ret r =>
        cases c with
        | unlock m => exact hunlock trivial
        | notify cv => exact hnotify
        | _ => trivial
      | act i => trivial
    | _ => trivial

theorem no_lost_wakeup {s : SysState ω V} (hs : Run SignalsOrUnawaited s) : NoLostWakeup s := by
  intro x hb
  refine (signalling x).signal_pending (fun s hs => ⟨hs.1, ?_⟩) hs hb
  rw [hs.2.1]
  refine not_knows ?_
  cases x <;> rfl

/-- The reader is blocked, and the analyzer, which has made room, has not yet signalled. -/
theorem no_lost_wakeup_pending : ∃ s : SysState Empty ℚ,
    (program Empty ℚ).BlockedOn s .reader .procStatNotFullCv ∧
      s.data.pipeline.procStatCbuf.isFull = false ∧ NoLostWakeup s := by
  have hrun : ∃ s : SysState Empty ℚ, Run SignalsOrUnawaited s ∧
      (decide ((program Empty ℚ).BlockedOn s .reader .procStatNotFullCv) &&
        !s.data.pipeline.procStatCbuf.isFull) = true := by
    refine Run.play (fun _ lab => decide (lab.actor ≠ some .printer)) (fun s lab hn hg => ?_)
      (steps .reader 263 (.userIdle 0 0) ++ steps .analyzer 15 (.userIdle 0 0)) ?_
    · exact ⟨hn.unlocksSucceed, hn.notifySucceeds,
        fun hactor => absurd hactor (of_decide_eq_true hg)⟩
    · decide +kernel
  obtain ⟨s, hs, hcheck⟩ := hrun
  simp only [Bool.and_eq_true, decide_eq_true_eq, Bool.not_eq_true'] at hcheck
  exact ⟨s, hcheck.1, hcheck.2, no_lost_wakeup hs⟩

/-- The printer has removed a record and waits for the next one, and the analyzer still waits for
room. -/
theorem printer_removes_without_signal : ∃ s : SysState Empty ℚ, Run (program Empty ℚ).Nominal s ∧
    (program Empty ℚ).BlockedOn s .printer .usageInfoNotEmptyCv ∧ ¬NoLostWakeup s := by
  have hrun : ∃ s : SysState Empty ℚ, Run (program Empty ℚ).Nominal s ∧
      (decide ((program Empty ℚ).BlockedOn s .analyzer .usageInfoNotFullCv) &&
        decide ((program Empty ℚ).BlockedOn s .printer .usageInfoNotEmptyCv) &&
        !s.data.pipeline.usageInfoCbuf.isFull) = true := by
    apply Run.play (fun _ _ => true) (fun _ _ h _ => h)
      (steps .reader 100 (.userIdle 0 0) ++ steps .analyzer 66 (.userIdle 0 0) ++
        steps .printer 27 (.userIdle 0 0))
    decide +kernel
  obtain ⟨s, hs, hcheck⟩ := hrun
  simp only [Bool.and_eq_true, decide_eq_true_eq, Bool.not_eq_true'] at hcheck
  obtain ⟨⟨hanalyzer, hprinter⟩, hroom⟩ := hcheck
  refine ⟨s, hs, hprinter, fun h => ?_⟩
  rcases h .usageInfoIsFull hanalyzer with hfull | hpending
  · cases hroom.symm.trans hfull
  · exact hpending

end CpuUsageTracker
