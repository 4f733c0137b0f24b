import CpuUsageTracker.Shutdown

/-!
# No thread ends before it is told to

A thread may end early: it gives up when it cannot set its information, when `malloc` or `fopen`
fails, and the watchdog also when its first lock attempt does. These are the calls that the
program needs (`needs`). The watchdog's `raise` is another one: if it fails, the watchdog ends with
the kill switch off.

**Theorem (`runs_until_told`).** In every run in which the needed calls succeed, and unlocking an
owned mutex does, the program goes on as long as the kill switch is off: no thread has ended, and
some thread can take a step. All other calls may fail at any time.

Each location from which a thread only goes to its end is reached with the kill switch on
(`Told`).
-/

namespace CpuUsageTracker

open Threads

variable {ω V : Type} [DecidableEq ω] [PercentageValue V] {d : Data ω V}

/-! ## The calls that the program needs -/

/-- A thread that is at the instruction ends early if it fails. -/
def needs : (t : Thread ω) → Pc V t → Bool
  | .reader, .threadInfoSet | .analyzer, .threadInfoSet | .printer, .threadInfoSet
  | .logger, .threadInfoSet | .watchdog, .threadInfoSet => true
  | .analyzer, .mallocOld | .analyzer, .mallocNew _ | .analyzer, .mallocUsageInfo _ _
  | .printer, .malloc | .logger, .fopen => true
  | .watchdog, .lock _ | .watchdog, .raise _ _ => true
  | _, _ => false

def Succeeds : Event (Input V) → Prop
  | .ret r => r = .success
  | .act i => i.ok = true

instance : (ev : Event (Input V)) → Decidable (Succeeds ev)
  | .ret r => inferInstanceAs (Decidable (r = .success))
  | .act i => inferInstanceAs (Decidable (i.ok = true))

def NeededSucceeds (t : Thread ω) (l : Loc V t) (ev : Event (Input V)) : Prop :=
  l.calls = [] → needs t l.pc = true → Succeeds ev

/-- A call that the program needs succeeds. -/
def Granted (s : SysState ω V) (lab : SysLabel ω V) : Prop :=
  ∀ t ev, lab.event = some (t, ev) → NeededSucceeds t (s.loc t) ev

instance (t : Thread ω) (l : Loc V t) (ev : Event (Input V)) :
    Decidable (NeededSucceeds t l ev) :=
  inferInstanceAs (Decidable (_ → _ → _))

instance (s : SysState ω V) (lab : SysLabel ω V) : Decidable (Granted s lab) :=
  decidable_of_iff (∀ x ∈ lab.event, NeededSucceeds x.1 (s.loc x.1) x.2)
    ⟨fun h t ev hev => h (t, ev) hev, fun h x hx => h x.1 x.2 hx⟩

/-! ## Where the kill switch is on -/

def ReaderPc.Told (k : Bool) : ReaderPc → Prop
  | .breakUnlock | .exited => k = true
  | _ => True

def AnalyzerPc.Told (k : Bool) : AnalyzerPc V → Prop
  | .mallocNew old => old.isSome = true
  | .mallocUsageInfo old new => old.isSome = true ∧ new.isSome = true
  | .breakUnlockIn | .breakUnlockOut | .exited => k = true
  | _ => True

def PrinterPc.Told (k : Bool) : PrinterPc V → Prop
  | .breakUnlock | .exited => k = true
  | _ => True

def LoggerPc.Told (k : Bool) : LoggerPc → Prop
  | .breakUnlock | .finalLock | .finalSwap | .finalUnlock | .exited => k = true
  | .drain .loop | .fputs .loop _ => True
  | .drain _ | .fputs _ _ => k = true
  | _ => True

def WatchdogPc.Told (k : Bool) : WatchdogPc → Prop
  | .finalUnlock _ | .exited _ => k = true
  | _ => True

def Told : (t : Thread ω) → Pc V t → Bool → Pipeline V → Prop
  | .reader, pc, k, _ => pc.Told k
  | .analyzer, pc, k, _ => pc.Told k
  | .printer, pc, k, _ => pc.Told k
  | .logger, pc, k, _ => pc.Told k
  | .watchdog, pc, k, _ => pc.Told k
  | .other _, _, _, _ => True

section

omit [PercentageValue V]

theorem Reader.told {pc : ReaderPc} (o : Set Mutex) (h : pc.Told d.killSwitch) :
    (code pc : Code V _).Post (Data.perform (.reader : Thread ω))
      (NeededSucceeds .reader (.goto pc : Loc V (.reader : Thread ω)))
      (fun l _ d => l.pc.Told d.killSwitch) o d := by
  cases pc with
  | threadInfoSet =>
    intro i hok
    have hi : i.ok = true := hok rfl rfl
    simp only [Data.perform, hi]
    trivial
  | head | killTest x =>
    intro i _
    cases hk : d.killSwitch <;> simp only [Data.perform, hk]
    · trivial
    · exact rfl
  | load =>
    intro i _
    simp only [Data.perform, PipeAct.perform]
    cases i.file.result <;> trivial
  | lock x =>
    intro r _ _
    cases r <;> trivial
  | waiting x w =>
    refine outNotFull.post_of_data (Q := fun pc (d : Data ω V) => ReaderPc.Told d.killSwitch pc)
      (fun _ => ?_) ?_ w <;> trivial
  | breakUnlock =>
    intro r _ _
    rw [Control.pc_logUnless]
    exact h
  | unlock x | notify x =>
    intro r _ _
    rw [Control.pc_logUnless]
    trivial
  | exited => trivial
  | _ => simp [code, ReaderPc.Told]

theorem Analyzer.told [PercentageValue V] {pc : AnalyzerPc V} (o : Set Mutex)
    (h : pc.Told d.killSwitch) :
    (code pc).Post (Data.perform (.analyzer : Thread ω))
      (NeededSucceeds .analyzer (.goto pc : Loc V (.analyzer : Thread ω)))
      (fun l _ d => l.pc.Told d.killSwitch) o d := by
  cases pc with
  | threadInfoSet =>
    intro i hok
    have hi : i.ok = true := hok rfl rfl
    simp only [Data.perform, hi]
    trivial
  | mallocOld =>
    intro i hok
    have hi : i.ok = true := hok rfl rfl
    simp [Data.perform, hi, AnalyzerPc.Told]
  | mallocNew old =>
    intro i hok
    have hi : i.ok = true := hok rfl rfl
    have hold : old.isSome = true := h
    simp [Data.perform, hi, AnalyzerPc.Told, hold]
  | mallocUsageInfo old new =>
    intro i hok
    have hi : i.ok = true := hok rfl rfl
    obtain ⟨hold, hnew⟩ := h
    obtain ⟨old, rfl⟩ := Option.isSome_iff_exists.1 hold
    obtain ⟨new, rfl⟩ := Option.isSome_iff_exists.1 hnew
    simp only [Data.perform, hi]
    trivial
  | head v | killTestIn v | killTestOut v =>
    intro i _
    cases hk : d.killSwitch <;> simp only [Data.perform, hk]
    · trivial
    · exact rfl
  | read v =>
    intro i _
    simp only [Data.perform, PipeAct.perform]
    cases d.pipeline.procStatCbuf.read.1 <;> trivial
  | lockIn v | lockOut v | unlockIn v | unlockOut v =>
    intro r _ _
    cases r <;> trivial
  | waitingIn v w =>
    refine inNotEmpty.post_of_data (Q := fun pc (d : Data ω V) => AnalyzerPc.Told d.killSwitch pc)
      (fun _ => ?_) ?_ w <;> trivial
  | waitingOut v w =>
    refine outNotFull.post_of_data (Q := fun pc (d : Data ω V) => AnalyzerPc.Told d.killSwitch pc)
      (fun _ => ?_) ?_ w <;> trivial
  | breakUnlockIn | breakUnlockOut =>
    intro r _ _
    rw [Control.pc_logUnless]
    exact h
  | emptyUnlock v =>
    intro r _ _
    rw [Control.pc_logUnless]
    trivial
  | notifyIn v =>
    intro r _ _
    rw [Control.pc_logUnless]
    unfold haveSample
    split <;> trivial
  | notifyOut v =>
    intro r _ _
    cases r <;> trivial
  | write v => exact fun _ _ => trivial
  | exited => trivial

theorem Printer.told {pc : PrinterPc V} (o : Set Mutex) (h : pc.Told d.killSwitch) :
    (code pc).Post (Data.perform (.printer : Thread ω))
      (NeededSucceeds .printer (.goto pc : Loc V (.printer : Thread ω)))
      (fun l _ d => l.pc.Told d.killSwitch) o d := by
  cases pc with
  | threadInfoSet | malloc =>
    intro i hok
    have hi : i.ok = true := hok rfl rfl
    simp only [Data.perform, hi]
    trivial
  | head u | killTest u =>
    intro i _
    cases hk : d.killSwitch <;> simp only [Data.perform, hk]
    · trivial
    · exact rfl
  | lock u | unlock u =>
    intro r _ _
    cases r <;> trivial
  | waiting u w =>
    refine inNotEmpty.post_of_data (Q := fun pc (d : Data ω V) => PrinterPc.Told d.killSwitch pc)
      (fun _ => ?_) ?_ w <;> trivial
  | breakUnlock =>
    intro r _ _
    rw [Control.pc_logUnless]
    exact h
  | read u =>
    intro i _
    simp only [Data.perform, PipeAct.perform]
    cases d.pipeline.usageInfoCbuf.read.1 <;> trivial
  | print u => exact fun _ _ => trivial
  | exited => trivial

/-- The logger goes on to its end only from the loops that empty the buffers at the end. -/
theorem LoggerPc.told_drainNext {k : Bool} {x : Option LogItem} {y : Drain}
    (h : LoggerPc.Told k (.drain y)) : (Logger.drainNext y x).pc.Told k := by
  cases x with
  | none => cases y <;> exact h
  | some item => cases y <;> exact h

theorem Logger.told {pc : LoggerPc} (o : Set Mutex) (h : pc.Told d.killSwitch) :
    (code pc : Code V _).Post (Data.perform (.logger : Thread ω))
      (NeededSucceeds .logger (.goto pc : Loc V (.logger : Thread ω)))
      (fun l _ d => l.pc.Told d.killSwitch) o d := by
  cases pc with
  | threadInfoSet | fopen =>
    intro i hok
    have hi : i.ok = true := hok rfl rfl
    simp only [Data.perform, hi]
    trivial
  | head | killTest =>
    intro i _
    cases hk : d.killSwitch <;> simp only [Data.perform, hk]
    · trivial
    · exact rfl
  | killSwitch tp =>
    intro i _
    simp only
    split <;> trivial
  | isEmpty tp =>
    intro i _
    simp only
    split <;> trivial
  | lock | wait tp =>
    intro r _ _
    cases r <;> trivial
  | breakUnlock =>
    intro r _ _
    rw [Control.pc_logUnless]
    exact h
  | unlock =>
    intro r _ _
    rw [Control.pc_logUnless]
    trivial
  | finalUnlock =>
    intro r _ _
    rw [Control.pc_logUnless]
    exact h
  | finalLock =>
    intro r _ _
    cases r <;> exact h
  | drain k => cases k <;> exact fun i _ => LoggerPc.told_drainNext h
  | fputs k item => cases k <;> exact fun i _ => h
  | finalSwap => exact fun i _ => h
  | timePoint | swap => exact fun i _ => trivial
  | exited => trivial

theorem Watchdog.told {pc : WatchdogPc} (o : Set Mutex) (h : pc.Told d.killSwitch) :
    (code pc : Code V _).Post (Data.perform (.watchdog : Thread ω))
      (NeededSucceeds .watchdog (.goto pc : Loc V (.watchdog : Thread ω)))
      (fun l _ d => l.pc.Told d.killSwitch) o d := by
  cases pc with
  | threadInfoSet =>
    intro i hok
    have hi : i.ok = true := hok rfl rfl
    simp only [Data.perform, hi]
    trivial
  | lock time =>
    intro r _ hok
    obtain rfl : r = .success := hok rfl rfl
    trivial
  | head tp =>
    intro i _
    cases hk : d.killSwitch <;> simp only [Data.perform, hk]
    · trivial
    · exact rfl
  | wait tp =>
    intro r _ _
    cases r <;> trivial
  | findOldest time =>
    intro i _
    simp only [check]
    split <;> trivial
  | killTest iiOldest oldest =>
    intro i _
    simp only
    split <;> trivial
  | raise iiOldest retval =>
    intro i hok
    have hi : i.ok = true := hok rfl rfl
    simp only [Data.perform, hi, Bool.or_true, if_true]
    exact rfl
  | finalUnlock retval =>
    intro r _ _
    cases r <;> exact h
  | exited => trivial
  | _ => exact fun _ _ => trivial

end

theorem told_outline : PipelineOutline (fun t l _ _ ev => NeededSucceeds t l ev)
    (Told : (t : Thread ω) → Pc V t → Bool → Pipeline V → Prop) where
  own t pc o d h := by
    cases t with
    | reader => exact Reader.told o h
    | analyzer => exact Analyzer.told o h
    | printer => exact Printer.told o h
    | logger => exact Logger.told o h
    | watchdog => exact Watchdog.told o h
    | other w => exact Instr.post_of_forall (fun _ _ _ => trivial) _
  others t u _ pc pc' k p a next file h _ _ := by
    cases t <;> exact h
  killed t pc k p h := by
    cases t with
    | analyzer => cases pc <;> first | rfl | exact h
    | logger =>
      cases pc with
      | drain y => cases y <;> first | rfl | trivial
      | fputs y item => cases y <;> first | rfl | trivial
      | _ => first | rfl | trivial
    | other w => trivial
    | _ => cases pc <;> first | rfl | trivial

/-! ## Runs -/

variable {ok : SysState ω V → SysLabel ω V → Prop} {s : SysState ω V} {t : Thread ω}

/-- A thread that has ended was told to. -/
theorem Run.told (hok : ∀ s lab, ok s lab → Granted s lab) (hs : Run ok s)
    (ht : (program ω V).Finished s t) : s.data.killSwitch = true := by
  have htold := Run.pipeline told_outline (fun t => by cases t <;> trivial)
    (fun s lab _ h t ev hev => hok s lab h t ev hev) hs t
  obtain ⟨-, hexit⟩ := Finished.in_body ht
  cases t with
  | other w => cases hexit
  | logger =>
    generalize (s.loc .logger).pc = pc at *
    cases pc with
    | drain k => cases k <;> cases hexit
    | exited => exact htold
    | _ => cases hexit
  | reader =>
    generalize (s.loc .reader).pc = pc at *
    cases pc with
    | waiting x w => cases w <;> cases hexit
    | exited => exact htold
    | _ => cases hexit
  | analyzer =>
    generalize (s.loc .analyzer).pc = pc at *
    cases pc with
    | waitingIn x w | waitingOut x w => cases w <;> cases hexit
    | exited => exact htold
    | _ => cases hexit
  | printer =>
    generalize (s.loc .printer).pc = pc at *
    cases pc with
    | waiting x w => cases w <;> cases hexit
    | exited => exact htold
    | _ => cases hexit
  | watchdog =>
    generalize (s.loc .watchdog).pc = pc at *
    cases pc with
    | exited code => exact htold
    | _ => cases hexit

/-- The needed calls succeed, and unlocking an owned mutex does. -/
def GrantedAndUnlocks (s : SysState ω V) (lab : SysLabel ω V) : Prop :=
  Granted s lab ∧ (program ω V).UnlocksSucceed s lab

theorem runs_until_told (hs : Run GrantedAndUnlocks s) (hk : s.data.killSwitch = false) :
    (∀ t, ¬(program ω V).Finished s t) ∧ (program ω V).CanStep s := by
  have hnot : ∀ t, ¬(program ω V).Finished s t := by
    intro t ht
    have hon := hs.told (fun _ _ h => h.1) ht
    rw [hk] at hon
    cases hon
  refine ⟨hnot, (hs.progress fun _ _ h => h.2).resolve_right fun hall => ?_⟩
  exact hnot .reader (hall .reader)

/-- Four threads are in their loops, and `/proc/stat` cannot be opened. -/
theorem runs_until_told_cannotOpen : ∃ s : SysState Empty ℚ,
    s.data.killSwitch = false ∧ s.data.log.written.length = 1 ∧
      (∀ t, ¬(program Empty ℚ).Finished s t) ∧ (program Empty ℚ).CanStep s := by
  have hrun : ∃ s : SysState Empty ℚ, Run GrantedAndUnlocks s ∧
      (!s.data.killSwitch && s.data.log.written.length == 1) = true := by
    apply Run.play (fun s lab => decide (Granted s lab))
      (fun _ _ hn h => ⟨of_decide_eq_true h, hn.unlocksSucceed⟩)
      ([steps .watchdog 6 (.userIdle 0 0), steps .logger 8 (.userIdle 0 0),
        steps .analyzer 15 (.userIdle 0 0),
        List.replicate 18 (.run .reader
          { Input.succeeding (.userIdle 0 0) with file := .cannotOpen })].flatten)
    decide +kernel
  obtain ⟨s, hs, hcheck⟩ := hrun
  simp only [Bool.and_eq_true, Bool.not_eq_true', beq_iff_eq] at hcheck
  obtain ⟨hk, hwritten⟩ := hcheck
  exact ⟨s, hk, hwritten, runs_until_told hs hk⟩

end CpuUsageTracker
