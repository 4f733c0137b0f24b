import CpuUsageTracker.Library.Handles
import CpuUsageTracker.System

/-!
# Who owns the reader's samples

The reader obtains a sample at the top of its loop and destroys it at the bottom. In between there
are two ways out that forget it: the `continue` after a failed lock attempt, and the `break` when
the kill switch turns out to be on after the wait loop.

**Theorem (`reader_ownsNothing`).** In every run in which the reader takes neither of them, at
each head of its loop and at its exit every sample was destroyed exactly once.

**Theorem (`destroyed_nodup`).** In all runs, whatever happens, no sample is destroyed twice.

The samples are the `Handles` of the reader, and each of its instructions is a step of these
(`Reader.handles_step`). `reader_leaks` is a run in which a lock attempt times out and the loop
starts over with a live sample.
-/

namespace CpuUsageTracker

open Threads

variable {ω V : Type}

/-! ## The reader's steps -/

/-- The sample in the reader's hands. -/
def ReaderPc.sample : ReaderPc → Option Sample
  | lock x | waiting x _ | killTest x | write x | unlock x | notify x | destroy x => some x
  | threadInfoSet | head | load | breakUnlock | sleep | exited => none

/-- The head of the loop and the exit. -/
def ReaderPc.isBetween : ReaderPc → Bool
  | head | exited => true
  | _ => false

theorem ReaderPc.sample_of_isBetween {pc : ReaderPc} (h : pc.isBetween = true) :
    pc.sample = none := by
  cases pc with
  | head | exited => rfl
  | _ => cases h

/-- The samples, obtained from `ProcStat_loadFromFile` and released by `ProcStat_destroy`. -/
def handles (p : Pipeline V) (pc : ReaderPc) : Handles where
  obtained := p.allocated
  released := p.destroyed
  held := pc.sample.map Sample.index

/-- The lock attempt succeeds, and the kill switch is off after the wait loop. -/
def ReaderPc.Keeps (killSwitch : Bool) : ReaderPc → Event (Input V) → Prop
  | lock _, .ret r => r = .success
  | killTest _, .act _ => killSwitch = false
  | _, _ => True

instance (killSwitch : Bool) : (pc : ReaderPc) → (ev : Event (Input V)) →
    Decidable (pc.Keeps killSwitch ev)
  | .lock _, .ret r => inferInstanceAs (Decidable (r = .success))
  | .killTest _, .act _ => inferInstanceAs (Decidable (killSwitch = false))
  | .lock _, .act _ | .killTest _, .ret _ => isTrue trivial
  | .threadInfoSet, _ | .head, _ | .load, _ | .waiting _ _, _ | .breakUnlock, _ | .write _, _
  | .unlock _, _ | .notify _, _ | .destroy _, _ | .sleep, _ | .exited, _ => isTrue trivial

/-- The reader forgets its sample only in one of the two ways. -/
theorem Reader.handles_step [DecidableEq ω] {mayForget : Prop} {allow : Event (Input V) → Prop}
    {pc : ReaderPc} {d : Data ω V} (o : Set Mutex)
    (hallow : ∀ ev, allow ev → mayForget ∨ pc.Keeps d.killSwitch ev) :
    (code pc : Code V _).Post (Data.perform .reader) allow
      (fun l _ d' => (handles d.pipeline pc).Step mayForget (handles d'.pipeline l.pc)) o d := by
  cases pc with
  | load =>
    intro i _
    simp only [Data.perform, PipeAct.perform]
    cases i.file.result with
    | none => exact .idle
    | some stat => exact .obtain rfl
  | lock x =>
    intro r _ hr
    simp only
    by_cases hsuccess : r = .success
    · rw [if_pos hsuccess]
      exact .idle
    · rw [if_neg hsuccess]
      exact .forget ((hallow _ hr).resolve_right hsuccess)
  | waiting x w =>
    refine outNotFull.post_of_data (Q := fun pc d' =>
      (handles d.pipeline (.waiting x w)).Step mayForget (handles d'.pipeline pc)) ?_ ?_ w
    · exact fun _ => .idle
    · exact .idle
  | killTest x =>
    intro i hi
    simp only
    split
    · rename_i hkilled
      refine .forget ((hallow _ hi).resolve_right fun hoff => ?_)
      exact Bool.false_ne_true (Eq.trans (Eq.symm hoff) hkilled)
    · exact .idle
  | destroy x => exact fun i _ => .release rfl
  | threadInfoSet | head =>
    intro i _
    simp only
    split <;> exact .idle
  | write x => exact fun i _ => .idle
  | unlock x | notify x | breakUnlock =>
    intro r _ _
    simp only [Control.pc_logUnless]
    exact .idle
  | sleep => exact .idle
  | exited => trivial

/-! ## Runs -/

variable [DecidableEq ω] [PercentageValue V]

/-- If the reader executes an instruction of its own in this step, it does not forget its
sample. -/
def KeepsSample (s : SysState ω V) (lab : SysLabel ω V) : Prop :=
  ∀ ev, lab.event = some (.reader, ev) → (s.loc .reader).calls = [] →
    (s.loc .reader).pc.Keeps s.data.killSwitch ev

instance (s : SysState ω V) (lab : SysLabel ω V) : Decidable (KeepsSample s lab) :=
  match h : lab.event with
  | some (.reader, ev) =>
    decidable_of_iff
      ((s.loc .reader).calls = [] → (s.loc .reader).pc.Keeps s.data.killSwitch ev)
      ⟨fun hkeeps ev' hev => by
        cases h.symm.trans hev
        exact hkeeps, fun hkeeps => hkeeps ev h⟩
  | none | some (.analyzer, _) | some (.printer, _) | some (.logger, _) | some (.watchdog, _)
  | some (.other _, _) => isTrue fun ev hev => by simp [h] at hev

/-- A fact about the handles, as a fact about the reader's location. -/
def OfReader (I : Handles → Prop) : (t : Thread ω) → Pc V t → Bool → Pipeline V → Prop
  | .reader, pc, _, p => I (handles p pc)
  | _, _, _, _ => True

def MayStep (mayForget : Prop) :
    (t : Thread ω) → Loc V t → Set Mutex → Data ω V → Event (Input V) → Prop
  | .reader, l, _, d, ev => mayForget ∨ (l.calls = [] → l.pc.Keeps d.killSwitch ev)
  | _, _, _, _, _ => True

omit [DecidableEq ω] [PercentageValue V] in
theorem handles_others {a : PipeAct V} (ha : a.actor ≠ some (.reader : Thread ω))
    (file : FileRead) (p : Pipeline V) (pc : ReaderPc) :
    handles (a.perform file p).1 pc = handles p pc := by
  cases a with
  | loadFromFile | destroy x | procStatWrite x => exact absurd rfl ha
  | _ => rfl

theorem handles_outline {I : Handles → Prop} {mayForget : Prop}
    (hI : ∀ s s', I s → Handles.Step mayForget s s' → I s') :
    PipelineOutline (MayStep mayForget)
      (OfReader I : (t : Thread ω) → Pc V t → Bool → Pipeline V → Prop) where
  own t pc o d h := by
    cases t with
    | reader =>
      have hallow : ∀ ev, MayStep mayForget (.reader : Thread ω) (.goto pc) o d ev →
          mayForget ∨ ReaderPc.Keeps d.killSwitch pc ev :=
        fun ev hev => Or.imp_right (fun hkeeps => hkeeps rfl) hev
      exact (Reader.handles_step o hallow).mono (fun l _ d' => hI _ _ h) fun _ hev => hev
    | _ => exact Instr.post_of_forall (fun _ _ _ => trivial) _
  others t u htu pc pc' k p a next file h _ hc := by
    cases t with
    | reader =>
      show I (handles (a.perform file p).1 pc)
      rw [handles_others (fun ha => htu (body_actor hc ha))]
      exact h
    | _ => trivial
  killed t pc k p h := by
    cases t with
    | reader => exact h
    | _ => trivial

/-- What every step of the handles keeps holds in every run. -/
theorem Run.handles {I : Handles → Prop} {mayForget : Prop}
    {ok : SysState ω V → SysLabel ω V → Prop} {s : SysState ω V}
    (hI : ∀ s s', I s → Handles.Step mayForget s s' → I s') (hstart : I .start)
    (hok : ∀ s lab, ok s lab → mayForget ∨ KeepsSample s lab) (hs : Run ok s) :
    I (CpuUsageTracker.handles s.data.pipeline (s.loc .reader).pc) := by
  refine Run.pipeline (handles_outline hI) (fun t => ?_) (fun s lab _ h t ev hev => ?_) hs .reader
  · cases t with
    | reader => exact hstart
    | _ => trivial
  · cases t with
    | reader => exact (hok s lab h).imp_right fun hkeeps => hkeeps ev hev
    | _ => trivial

/-- No sample is destroyed twice. -/
theorem destroyed_nodup {ok : SysState ω V → SysLabel ω V → Prop} {s : SysState ω V}
    (hs : Run ok s) : s.data.pipeline.destroyed.Nodup := by
  have hsound : (handles s.data.pipeline (s.loc .reader).pc).Sound :=
    Run.handles (fun _ _ h hstep => h.step hstep) Handles.sound_start
      (fun _ _ _ => Or.inl trivial) hs
  exact hsound.nodup

/-- At the head of its loop and at its exit the reader has destroyed every sample it obtained,
each of them once. -/
def OwnsNothing (s : SysState ω V) : Prop :=
  (s.loc .reader).pc.isBetween = true → (handles s.data.pipeline (s.loc .reader).pc).Settled

theorem reader_ownsNothing {s : SysState ω V} (hs : Run KeepsSample s) : OwnsNothing s := by
  have htidy : (handles s.data.pipeline (s.loc .reader).pc).Tidy :=
    Run.handles (fun _ _ h hstep => h.step hstep) Handles.tidy_start (fun _ _ => Or.inr) hs
  intro hbetween
  refine htidy.settled ?_
  show (s.loc .reader).pc.sample.map Sample.index = none
  rw [ReaderPc.sample_of_isBetween hbetween]
  rfl

/-- The analyzer owns the buffer's mutex when the reader tries to lock it. -/
theorem reader_leaks :
    ∃ s : SysState Empty ℚ, Run (program Empty ℚ).Nominal s ∧ ¬OwnsNothing s := by
  have hrun : ∃ s : SysState Empty ℚ, Run (program Empty ℚ).Nominal s ∧
      ((s.loc .reader).pc.isBetween && decide (0 ∈ (handles s.data.pipeline .head).live)) =
        true := by
    apply Run.play (fun _ _ => true) (fun _ _ h _ => h)
      (steps .analyzer 12 (.userIdle 0 0) ++ steps .reader 9 (.userIdle 0 0))
    decide +kernel
  obtain ⟨s, hs, hcheck⟩ := hrun
  obtain ⟨hbetween, hlive⟩ := Bool.and_eq_true_iff.1 hcheck
  refine ⟨s, hs, fun h => ?_⟩
  have hmem : 0 ∈ (handles s.data.pipeline (s.loc .reader).pc).live := of_decide_eq_true hlive
  rw [(h hbetween).live] at hmem
  exact Finset.notMem_empty 0 hmem

/-- Two iterations. -/
theorem reader_ownsNothing_twoSamples : ∃ s : SysState Empty ℚ,
    s.data.pipeline.allocated = 2 ∧ (s.loc .reader).pc.isBetween = true ∧ OwnsNothing s := by
  have hrun : ∃ s : SysState Empty ℚ, Run KeepsSample s ∧
      (s.data.pipeline.allocated == 2 && (s.loc .reader).pc.isBetween) = true := by
    apply Run.play (fun s lab => decide (KeepsSample s lab)) (fun _ _ _ h => of_decide_eq_true h)
      (steps .reader 51 (.userIdle 0 0))
    decide +kernel
  obtain ⟨s, hs, hcheck⟩ := hrun
  obtain ⟨hallocated, hbetween⟩ := Bool.and_eq_true_iff.1 hcheck
  exact ⟨s, beq_iff_eq.1 hallocated, hbetween, reader_ownsNothing hs⟩

end CpuUsageTracker
