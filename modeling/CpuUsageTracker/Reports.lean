import CpuUsageTracker.System

/-!
# Where the threads report

A thread reports by a call of `Watchdog_reportActive`, and it does so right after it has found the
kill switch off (`Step.report_begun`). The call is the first that it makes then, and neither `Log`
nor `Watchdog_reportActive` contains another one.
-/

namespace CpuUsageTracker

open Threads

/-- The thread is about to execute a call of `Watchdog_reportActive`. -/
def Control.reports {P : Type} : Control P → Bool
  | ⟨.report .threadInfo :: _, _⟩ => true
  | _ => false

variable {ω V : Type} [DecidableEq ω] [PercentageValue V]

section

variable {P : Type} {l : Control P} {c : Control P} {k : Bool} {t : Thread ω} {o : Set Mutex}
  {d : Data ω V}

/-- No call of `Watchdog_reportActive` is to be made. -/
def Quiet (l : Control P) : Prop := ∀ f ∈ l.calls, f ≠ .report .threadInfo

@[simp] theorem quiet_goto (pc : P) : Quiet (Control.goto pc) := by
  intro f hf
  cases hf

@[simp] theorem quiet_log (level : LogLevel) (text : String) :
    Quiet (c.log level text) ↔ Quiet c := by
  simp [Quiet, Control.log]

@[simp] theorem quiet_logAll (calls : List LogCall) : Quiet (c.logAll calls) ↔ Quiet c := by
  simp only [Quiet, Control.logAll, List.forall_mem_append, and_iff_right_iff_imp]
  intro _ f hf
  obtain ⟨call, -, rfl⟩ := List.mem_map.1 hf
  nofun

@[simp] theorem quiet_logUnless (r : ThrdResult) (text : String) :
    Quiet (c.logUnless r text) ↔ Quiet c := by
  unfold Control.logUnless
  split
  · rfl
  · exact quiet_log _ _

/-- After an instruction of a thread function: a thread reports next only if it has found the kill
switch off. -/
def Calling (k : Bool) (l : Control P) : Prop :=
  Quiet l ∨ l.calls = [.report .threadInfo] ∧ k = false

theorem Calling.tail (h : Calling k l) : ∀ f ∈ l.calls.tail, f ≠ .report .threadInfo := by
  rcases h with h | ⟨h, -⟩
  · exact fun f hf => h f (List.mem_of_mem_tail hf)
  · rw [h]
    nofun

@[simp] theorem calling_goto (pc : P) : Calling k (Control.goto pc) := .inl (quiet_goto pc)

@[simp] theorem calling_log (level : LogLevel) (text : String) :
    Calling k (c.log level text) ↔ Quiet c := by
  refine ⟨fun h => ?_, fun h => .inl ((quiet_log level text).2 h)⟩
  rcases h with h | ⟨h, -⟩
  · exact (quiet_log level text).1 h
  · cases h

theorem Quiet.calling (h : Quiet l) : Calling k l := .inl h

@[simp] theorem calling_report (pc : P) : Calling k (Control.goto pc).reportActive ↔ k = false := by
  refine ⟨fun h => ?_, fun h => .inr ⟨rfl, h⟩⟩
  rcases h with h | ⟨-, h⟩
  · exact absurd rfl (h _ List.mem_cons_self)
  · exact h

/-- The calls after an instruction of a thread function. -/
def BodyCalls (t : Thread ω) (o : Set Mutex) (d : Data ω V) (g : Code V (Control P)) : Prop :=
  g.Post (Data.perform t) (fun _ => True) (fun l _ d => Calling d.killSwitch l) o d

omit [PercentageValue V] in
theorem WaitLoop.calls (w : WaitLoop) {here : WaitPc → P} {exit : Control P} (hexit : Quiet exit)
    (pc : WaitPc) : BodyCalls t o d (w.code here exit pc) := by
  cases pc with
  | timePoint => exact fun _ _ => calling_goto _
  | test tp | killSwitch tp =>
    intro i _
    simp only
    split
    all_goals first | exact calling_goto _ | exact hexit.calling
  | wait tp =>
    intro r _ _
    cases r <;> simp [hexit]

omit [PercentageValue V] in
theorem Reader.calls (pc : ReaderPc) : BodyCalls t o d (Reader.code pc) := by
  cases pc with
  | waiting p w => exact outNotFull.calls (quiet_goto _) w
  | load =>
    intro i _
    simp only
    split <;> exact Quiet.calling (by simp)
  | _ => simp [BodyCalls, code, exiting, Quiet.calling, Data.perform]

theorem Analyzer.calls (pc : AnalyzerPc V) : BodyCalls t o d (Analyzer.code pc) := by
  cases pc with
  | waitingIn v w => exact inNotEmpty.calls (quiet_goto _) w
  | waitingOut v w => exact outNotFull.calls (quiet_goto _) w
  | mallocUsageInfo | read =>
    intro i _
    simp only
    split <;> simp
  | notifyIn v =>
    have hsample : Quiet (haveSample v) := by
      unfold haveSample
      split <;> exact quiet_goto _
    exact fun r _ _ => Quiet.calling ((quiet_logUnless _ _).2 hsample)
  | _ => simp [BodyCalls, code, exiting, Quiet.calling, Data.perform]

omit [PercentageValue V] in
theorem Printer.calls (pc : PrinterPc V) : BodyCalls t o d (Printer.code pc) := by
  cases pc with
  | waiting u w => exact inNotEmpty.calls (quiet_goto _) w
  | malloc | read =>
    intro i _
    simp only
    split <;> simp
  | _ => simp [BodyCalls, code, exiting, Quiet.calling, Data.perform]

omit [PercentageValue V] in
theorem Watchdog.calls (pc : WatchdogPc) : BodyCalls t o d (Watchdog.code pc) := by
  cases pc with
  | findOldest now =>
    intro i _
    simp only [check]
    split <;> exact calling_goto _
  | raise iiOldest retval =>
    intro i _
    simp only
    split <;> simp
  | _ => simp [BodyCalls, code, Data.perform]

omit [PercentageValue V] in
theorem Logger.calls (pc : LoggerPc) : BodyCalls t o d (Logger.code pc) := by
  have hnext : ∀ k x, Quiet (drainNext k x) := by
    intro k x
    cases x with
    | none => cases k <;> simp [drainNext, drained, exiting]
    | some item => exact quiet_goto _
  cases pc with
  | drain k => cases k <;> exact fun i _ => (hnext _ _).calling
  | _ => simp [BodyCalls, code, exiting, Quiet.calling, Data.perform]

theorem body_calls (ht : ∀ w, t ≠ .other w) (pc : Pc V t) : BodyCalls t o d (body t pc) := by
  cases t with
  | reader => exact Reader.calls pc
  | analyzer => exact Analyzer.calls pc
  | printer => exact Printer.calls pc
  | watchdog => exact Watchdog.calls pc
  | logger => exact Logger.calls pc
  | other w => exact absurd rfl (ht w)

/-- A report is the first of the calls. -/
theorem body_tail (pc : Pc V t) : (body t pc).Post (Data.perform t) (fun _ => True)
    (fun l _ _ => ∀ f ∈ l.calls.tail, f ≠ .report .threadInfo) o d := by
  by_cases ht : ∃ w, t = .other w
  · obtain ⟨w, rfl⟩ := ht
    cases pc
    intro i _
    simp only
    split <;> nofun
  · exact (body_calls (fun w hw => ht ⟨w, hw⟩) pc).mono (fun _ _ _ h => h.tail) fun _ h => h

omit [PercentageValue V] in
/-- Nothing inside the calls of `Log` and `Watchdog_reportActive` reports. -/
theorem Frame.calls (f : Frame) : (f.code : Code V (List Frame)).Post (Data.perform t)
    (fun _ => True) (fun gs _ _ => ∀ g ∈ gs, g ≠ .report .threadInfo) o d := by
  rcases f with pc | pc
  · cases pc with
    | level call =>
      intro i _
      simp only
      split <;> simp
    | _ => simp [Frame.code, LogPc.code]
  · cases pc with
    | threadInfo =>
      intro i _
      simp only
      split <;> simp
    | _ => simp [Frame.code, ReportPc.code, Frame.logError]

/-- In every location a report is the first of the calls. -/
theorem tail_outline : Outline (program ω V) (fun _ _ _ _ _ => True)
    (fun _ l _ _ => ∀ f ∈ l.calls.tail, f ≠ .report .threadInfo) where
  own t l o d h := by
    obtain ⟨calls, pc⟩ := l
    cases calls with
    | nil => exact body_tail pc
    | cons f fs =>
      rw [program_code_cons, Instr.post_map]
      refine f.calls.mono (fun gs _ _ hgs g hg => ?_) fun _ h => h
      rcases List.mem_append.1 (List.mem_of_mem_tail hg) with hg | hg
      · exact hgs g hg
      · exact h g hg
  wait t l o d m _ h := h
  others t u htu l l' o o' d a next i h _ _ _ _ := h
  env t l o d e h := h

theorem Run.report_first {ok : SysState ω V → SysLabel ω V → Prop} {s : SysState ω V}
    (hs : Run ok s) (t : Thread ω) : ∀ f ∈ (s.loc t).calls.tail, f ≠ .report .threadInfo := by
  refine Reach.outline tail_outline (fun s hs => ⟨hs.1, fun t => ?_⟩) (fun _ _ _ _ _ _ _ => trivial)
    hs t
  rw [hs.2.1 t]
  nofun

end

variable {s s' : SysState ω V} {lab : SysLabel ω V} {t : Thread ω}

/-- Nothing switches the kill switch off. -/
theorem Step.killSwitch_eq_false (h : Step (program ω V) s lab s')
    (hs' : s'.data.killSwitch = false) : s.data.killSwitch = false := by
  cases h with
  | @act t a next i hr hc =>
    cases a with
    | raiseSigterm =>
      simp only [State.data_goto, State.data_setData, program, Data.perform,
        Bool.or_eq_false_iff] at hs'
      exact hs'.1
    | _ => exact hs'
  | @env e =>
    cases e with
    | signal => cases hs'
    | tick ns => exact hs'
  | _ => simpa using hs'

omit [DecidableEq ω] [PercentageValue V] in
theorem Control.reports_eq_false {P : Type} {l : Control P}
    (h : ∀ f ∈ l.calls, f ≠ .report .threadInfo) : l.reports = false := by
  obtain ⟨calls, pc⟩ := l
  cases calls with
  | nil => rfl
  | cons f fs =>
    have hf := h f List.mem_cons_self
    rcases f with x | x <;> cases x <;> first | rfl | exact absurd rfl hf

/-- A thread begins to report only while the kill switch is off. -/
theorem Step.report_begun (h : Step (program ω V) s lab s') (ht : ∀ w, t ≠ .other w)
    (hactor : lab.actor = some t)
    (hfirst : ∀ f ∈ (s.loc t).calls.tail, f ≠ .report .threadInfo)
    (hreports : (s'.loc t).reports = true) : s.data.killSwitch = false := by
  refine Step.killSwitch_eq_false h ?_
  refine h.post (Q := fun l _ d => l.reports = true → d.killSwitch = false) hactor
    (fun _ _ => trivial) (fun _ m hm hreports => ?_) ?_ hreports
  · generalize s.loc t = l at *
    obtain ⟨calls, pc⟩ := l
    cases calls with
    | nil => cases hreports
    | cons f fs =>
      rw [program_code_cons, Instr.waitsWith_map] at hm
      exact absurd hm (f.not_waits m)
  · generalize s.loc t = l at *
    obtain ⟨calls, pc⟩ := l
    cases calls with
    | nil =>
      refine (body_calls ht pc).mono (fun l _ d hcalling hreports => ?_) fun _ h => h
      rcases hcalling with hquiet | ⟨-, hk⟩
      · cases (Control.reports_eq_false hquiet).symm.trans hreports
      · exact hk
    | cons f fs =>
      rw [program_code_cons, Instr.post_map]
      refine f.calls.mono (fun gs _ d hgs hreports => ?_) fun _ h => h
      have hquiet : ∀ g ∈ gs ++ fs, g ≠ .report .threadInfo := by
        intro g hg
        rcases List.mem_append.1 hg with hg | hg
        · exact hgs g hg
        · exact hfirst g hg
      cases (Control.reports_eq_false (l := ⟨gs ++ fs, pc⟩) hquiet).symm.trans hreports

end CpuUsageTracker
