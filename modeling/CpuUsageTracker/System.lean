import CpuUsageTracker.Library.Schedule
import CpuUsageTracker.Threads.Analyzer
import CpuUsageTracker.Threads.Logger
import CpuUsageTracker.Threads.Printer
import CpuUsageTracker.Threads.Watchdog

/-!
# The whole program

The five threads and any number of others, over the shared data, as a `Threads.Program`. A run
starts in a state that `main` has set up: no thread has executed an instruction, the logging
level is `LLEVEL_DEBUG`, and all buffers are empty. `Run ok` is the set of states reached by runs
whose steps meet `ok`.

Most properties of the pipeline are about the location of a thread, the kill switch and the
pipeline's data, and not about the calls of `Log` and `Watchdog_reportActive` in between.
`PipelineOutline` is the rule for them: those calls, and the actions outside the pipeline, need no
proof.
-/

namespace CpuUsageTracker

open Threads

variable {ω V : Type}

/-- Another thread makes one call after another. -/
inductive OtherPc
  | idle
  deriving DecidableEq, Repr

def Other.code : OtherPc → Code V (Control OtherPc)
  | .idle => .act .apiCall fun
    | .log call => (Control.goto .idle).log call.level call.text
    | .reportActive => (Control.goto .idle).reportActive

@[reducible] def Pc (V : Type) : Thread ω → Type
  | .reader => ReaderPc
  | .analyzer => AnalyzerPc V
  | .printer => PrinterPc V
  | .logger => LoggerPc
  | .watchdog => WatchdogPc
  | .other _ => OtherPc

abbrev Loc (V : Type) (t : Thread ω) : Type := Control (Pc V t)

def start : (t : Thread ω) → Pc V t
  | .reader => .threadInfoSet
  | .analyzer => .threadInfoSet
  | .printer => .threadInfoSet
  | .logger => .threadInfoSet
  | .watchdog => .threadInfoSet
  | .other _ => .idle

/-- The thread functions. -/
def body [PercentageValue V] : (t : Thread ω) → Pc V t → Code V (Loc V t)
  | .reader => Reader.code
  | .analyzer => Analyzer.code
  | .printer => Printer.code
  | .logger => Logger.code
  | .watchdog => Watchdog.code
  | .other _ => Other.code

abbrev SysState (ω V : Type) := State Mutex (Data ω V) (Loc V : Thread ω → Type)

abbrev SysLabel (ω V : Type) := Label (Thread ω) (Input V) Data.Env

variable [DecidableEq ω] [PercentageValue V]

def program (ω V : Type) [DecidableEq ω] [PercentageValue V] :
    Program (Thread ω) Mutex CondVar Timespec (Act V) Act.Result (Input V) Data.Env (Data ω V)
      (Loc V) where
  code t := Control.code (body t)
  perform := Data.perform
  env := Data.env

@[simp] theorem program_code_nil (t : Thread ω) (pc : Pc V t) :
    (program ω V).code t ⟨[], pc⟩ = body t pc := rfl

@[simp] theorem program_code_cons (t : Thread ω) (f : Frame) (fs : List Frame) (pc : Pc V t) :
    (program ω V).code t ⟨f :: fs, pc⟩ = f.code.map fun gs => ⟨gs ++ fs, pc⟩ := rfl

theorem program_code_of_calls {t : Thread ω} {l : Loc V t} (h : l.calls = []) :
    (program ω V).code t l = body t l.pc := by
  obtain ⟨calls, pc⟩ := l
  obtain rfl : calls = [] := h
  rfl

/-- A thread that is in a call stays at its location. -/
theorem pc_of_calls {s s' : SysState ω V} {lab : SysLabel ω V} {t : Thread ω}
    (hstep : Step (program ω V) s lab s') (hactor : lab.actor = some t)
    (hcalls : (s.loc t).calls ≠ []) : (s'.loc t).pc = (s.loc t).pc := by
  refine hstep.post (Q := fun l _ _ => l.pc = (s.loc t).pc) hactor (fun _ _ => trivial)
    (fun _ _ _ => rfl) ?_
  generalize s.loc t = l at *
  obtain ⟨calls, pc⟩ := l
  cases calls with
  | nil => exact absurd rfl hcalls
  | cons f fs =>
    rw [program_code_cons, Instr.post_map]
    exact Instr.post_of_forall (fun _ _ _ => rfl) _

/-- What `main` has set up when it starts the threads. Other threads may have their information
set already. -/
structure Data.Initial (d : Data ω V) : Prop where
  killSwitch : d.killSwitch = false
  programLoggingLevel : d.programLoggingLevel = .debug
  threadInfo : ∀ t, d.threadInfo t ≠ none → ∃ w, t = .other w
  pipeline : d.pipeline = .initial
  log : d.log = .initial
  timestamps : ∀ tid, d.timestamps tid = ⟨0, 0⟩

def Init (s : SysState ω V) : Prop :=
  s.Idle ∧ (∀ t, s.loc t = .goto (start t)) ∧ s.data.Initial

/-- The state at time zero in which no other thread has set its information. -/
def initialState : SysState ω V where
  owner := fun _ => none
  status := fun _ => .ready
  loc := fun t => .goto (start t)
  data :=
    { killSwitch := false
      programLoggingLevel := .debug
      threadInfo := fun _ => none
      clock := 0
      pipeline := .initial
      log := .initial
      timestamps := fun _ => ⟨0, 0⟩ }

omit [DecidableEq ω] [PercentageValue V] in
theorem init_initialState : Init (initialState : SysState ω V) :=
  ⟨⟨fun _ => rfl, fun _ => rfl⟩, fun _ => rfl, ⟨rfl, rfl, fun _ h => absurd rfl h, rfl, rfl,
    fun _ => rfl⟩⟩

/-- The states reached by runs whose steps all meet `ok`. -/
def Run (ok : SysState ω V → SysLabel ω V → Prop) : SysState ω V → Prop :=
  Reach Init (Step (program ω V)) ok

/-! ## Schedules -/

/-- The system calls succeed, and `/proc/stat` reads as `stat`. -/
def Input.succeeding (stat : ProcStat) : Input V where
  ok := true
  file := .read true true (some stat)
  procStat := stat
  usageInfo := ⟨[]⟩
  time := ""
  call := .reportActive

/-- One line of `/proc/stat`, with user and idle time only. -/
def ProcStat.userIdle (user idle : UInt64) : ProcStat where
  cpuStatsLength := 1
  cpuStats := fun _ => ⟨fun
    | .user => user
    | .idle => idle
    | _ => 0⟩

/-- `n` steps of one thread, while `/proc/stat` reads as `stat`. -/
def steps (t : Thread Empty) (n : ℕ) (stat : ProcStat) :
    List (Move (Thread Empty) (Input V) Data.Env) :=
  List.replicate n (.run t (.succeeding stat))

/-- The state after the moves, in a program of five threads. -/
def play (guard : SysState Empty V → SysLabel Empty V → Bool)
    (moves : List (Move (Thread Empty) (Input V) Data.Env)) : Option (SysState Empty V) :=
  execAll ((program Empty V).play [.reader, .analyzer, .printer, .logger, .watchdog] guard)
    initialState moves

/-- A schedule that can be played reaches a state that passes the check. -/
theorem Run.play {ok : SysState Empty V → SysLabel Empty V → Prop}
    (guard : SysState Empty V → SysLabel Empty V → Bool)
    (hok : ∀ s lab, (program Empty V).Nominal s lab → guard s lab = true → ok s lab)
    (moves : List (Move (Thread Empty) (Input V) Data.Env)) {check : SysState Empty V → Bool}
    (h : (play guard moves).any check = true) : ∃ s, Run ok s ∧ check s = true := by
  obtain ⟨s, hs, hcheck⟩ := (Option.any_eq_true _ _).1 h
  exact ⟨s, Reach.play hok (.start init_initialState) hs, hcheck⟩

/-- The state after more moves. -/
def playOn (guard : SysState Empty V → SysLabel Empty V → Bool) (s : SysState Empty V)
    (moves : List (Move (Thread Empty) (Input V) Data.Env)) : Option (SysState Empty V) :=
  execAll ((program Empty V).play [.reader, .analyzer, .printer, .logger, .watchdog] guard) s moves

/-- A schedule in two parts, with a check of the states at the end of each. -/
theorem Run.play_on {ok : SysState Empty V → SysLabel Empty V → Prop}
    (guard : SysState Empty V → SysLabel Empty V → Bool)
    (hok : ∀ s lab, (program Empty V).Nominal s lab → guard s lab = true → ok s lab)
    (moves moves' : List (Move (Thread Empty) (Input V) Data.Env))
    {check : SysState Empty V → SysState Empty V → Bool}
    (h : ((CpuUsageTracker.play guard moves).any fun s₁ =>
      (playOn guard s₁ moves').any (check s₁)) = true) :
    ∃ s₁ s₂, Run ok s₁ ∧ Reach (· = s₁) (Step (program Empty V)) ok s₂ ∧ check s₁ s₂ = true := by
  obtain ⟨s₁, hs₁, h⟩ := (Option.any_eq_true _ _).1 h
  obtain ⟨s₂, hs₂, hcheck⟩ := (Option.any_eq_true _ _).1 h
  exact ⟨s₁, s₂, Reach.play hok (.start init_initialState) hs₁, Reach.play hok (.start rfl) hs₂,
    hcheck⟩

/-! ## The calls do not touch the pipeline -/

omit [PercentageValue V] in
/-- Only its own actions change the pipeline, and nothing switches the kill switch off. -/
theorem Data.perform_of_ne_pipe (t : Thread ω) {a : Act V} (ha : ∀ b, a ≠ .pipe b) (i : Input V)
    (d : Data ω V) :
    (d.perform t a i).1.pipeline = d.pipeline ∧
      ((d.perform t a i).1.killSwitch = d.killSwitch ∨ (d.perform t a i).1.killSwitch = true) := by
  cases a with
  | pipe b => exact absurd rfl (ha b)
  | raiseSigterm => cases h : i.ok <;> simp [Data.perform, h]
  | _ => simp [Data.perform]

omit [PercentageValue V] in
theorem Frame.code_ne_pipe {f : Frame} {a : Act V} {next : a.Result → List Frame}
    (h : f.code = .act a next) (b : PipeAct V) : a ≠ .pipe b := by
  rintro rfl
  rcases f with pc | pc <;> cases pc <;> cases h

/-- The thread that performs the action, if only one does. -/
def PipeAct.actor : PipeAct V → Option (Thread ω)
  | loadFromFile | destroy _ | procStatWrite _ => some .reader
  | procStatRead | usageInfoWrite _ => some .analyzer
  | usageInfoRead | print _ => some .printer
  | test _ => none

omit [DecidableEq ω] in
theorem body_actor {t u : Thread ω} {pc : Pc V u} {a : PipeAct V} {next : a.Result → Loc V u}
    (h : body u pc = .act (.pipe a) next) (ha : a.actor = some t) : t = u := by
  cases u with
  | reader =>
    cases pc with
    | waiting p w =>
      cases w <;> cases h
      cases ha
    | _ => cases h <;> cases ha <;> rfl
  | analyzer =>
    cases pc with
    | waitingIn v w | waitingOut v w =>
      cases w <;> cases h
      cases ha
    | _ => cases h <;> cases ha <;> rfl
  | printer =>
    cases pc with
    | waiting u w =>
      cases w <;> cases h
      cases ha
    | _ => cases h <;> cases ha <;> rfl
  | logger =>
    cases pc with
    | drain k => cases k <;> cases h
    | _ => cases h
  | watchdog => cases pc <;> cases h
  | other w =>
    cases pc
    cases h

/-- An annotation of the locations by facts about the kill switch and the pipeline's data. -/
structure PipelineOutline
    (allow : (t : Thread ω) → Loc V t → Set Mutex → Data ω V → Event (Input V) → Prop)
    (φ : (t : Thread ω) → Pc V t → Bool → Pipeline V → Prop) : Prop where
  own : ∀ t pc o d, φ t pc d.killSwitch d.pipeline →
    (body t pc).Post (Data.perform t) (allow t (.goto pc) o d)
      (fun l _ d => φ t l.pc d.killSwitch d.pipeline) o d
  others : ∀ t u, t ≠ u → ∀ pc pc' k p a next file, φ t pc k p → φ u pc' k p →
    body u pc' = .act (.pipe a) next → φ t pc k (a.perform file p).1
  killed : ∀ t pc k p, φ t pc k p → φ t pc true p

variable {allow : (t : Thread ω) → Loc V t → Set Mutex → Data ω V → Event (Input V) → Prop}
  {φ : (t : Thread ω) → Pc V t → Bool → Pipeline V → Prop}

theorem PipelineOutline.perform_of_ne_pipe (h : PipelineOutline allow φ) (t u : Thread ω)
    {a : Act V} (ha : ∀ b, a ≠ .pipe b) (i : Input V) {pc : Pc V t} {d : Data ω V}
    (hφ : φ t pc d.killSwitch d.pipeline) :
    φ t pc (d.perform u a i).1.killSwitch (d.perform u a i).1.pipeline := by
  obtain ⟨hp, hk | hk⟩ := Data.perform_of_ne_pipe u ha i d
  · rw [hp, hk]
    exact hφ
  · rw [hp, hk]
    exact h.killed t pc _ _ hφ

theorem PipelineOutline.outline (h : PipelineOutline allow φ) :
    Outline (program ω V) allow fun t l _ d => φ t l.pc d.killSwitch d.pipeline where
  own t l o d hφ := by
    obtain ⟨calls, pc⟩ := l
    cases calls with
    | nil => exact h.own t pc o d hφ
    | cons f fs =>
      rw [program_code_cons, Instr.post_map]
      cases hf : (f.code : Code V (List Frame)) with
      | call c next => exact fun r _ _ => hφ
      | act a next => exact fun i _ => h.perform_of_ne_pipe t t (Frame.code_ne_pipe hf) i hφ
      | sleep ms next => exact hφ
      | exit => trivial
  wait t l o d m _ hφ := hφ
  others t u htu l l' o o' d a next i hφ hφ' hc _ _ := by
    by_cases ha : ∃ b, a = .pipe b
    · obtain ⟨b, rfl⟩ := ha
      obtain ⟨calls, pc'⟩ := l'
      cases calls with
      | nil => exact h.others t u htu _ _ _ _ b next i.file hφ hφ' hc
      | cons f fs =>
        rw [program_code_cons] at hc
        obtain ⟨next', hf, -⟩ := Instr.map_eq_act hc
        exact absurd rfl (Frame.code_ne_pipe hf b)
    · exact h.perform_of_ne_pipe t u (fun b hb => ha ⟨b, hb⟩) i hφ
  env t l o d e hφ := by
    cases e with
    | signal => exact h.killed t _ _ _ hφ
    | tick ns => exact hφ

theorem Run.pipeline {ok : SysState ω V → SysLabel ω V → Prop} {s : SysState ω V}
    (h : PipelineOutline allow φ) (hstart : ∀ t, φ t (start t) false .initial)
    (hallow : ∀ s lab, Run ok s → ok s lab → ∀ t ev, lab.event = some (t, ev) →
      allow t (s.loc t) ((program ω V).held s t) s.data ev)
    (hs : Run ok s) (t : Thread ω) : φ t (s.loc t).pc s.data.killSwitch s.data.pipeline := by
  refine Reach.outline h.outline (fun s hs => ⟨hs.1, fun t => ?_⟩) hallow hs t
  obtain ⟨-, hloc, hdata⟩ := hs
  rw [hloc, hdata.killSwitch, hdata.pipeline]
  exact hstart t

end CpuUsageTracker
