import CpuUsageTracker.Responsiveness

/-!
# The reader pauses

The reader sleeps after each sample, to keep its probing frequency low. Runs have a clock, as in
`CpuUsageTracker.Responsiveness`.

**Theorem (`probes_paced`).** In every run, any two samples that the reader writes to its buffer
were loaded at least half a second apart.

Samples that it does not write may be loaded at any time: after a lock attempt that fails, the
reader goes on with the next sample at once.

The times are a memory of the run (`Probes`). From every location there is an earliest time at which
the next sample may have been loaded that is written (`ReaderPc.nextLoad`), and no step makes it
earlier (`Reader.nextLoad`). The write makes it later, by the time that the reader is going to
sleep.
-/

namespace CpuUsageTracker

open Threads

variable {ω V : Type}

/-! ## The memory -/

/-- `loadedAt` is the time of the reader's last load. Each sample that was written comes with the
time at which it was loaded. -/
structure Probes where
  loadedAt : ℕ
  written : List (ℕ × ProcStat)

namespace Probes

def empty : Probes := ⟨0, []⟩

/-- The reader executes an instruction of its own function. -/
def note (m : Probes) (now : ℕ) : ReaderPc → Probes
  | .load => { m with loadedAt := now }
  | .write procStat => { m with written := m.written ++ [(m.loadedAt, procStat.stat)] }
  | _ => m

end Probes

variable [DecidableEq ω] [PercentageValue V]

def recordProbes (x : TimedState ω V) (lab : SysLabel ω V) (m : Probes) : Probes :=
  if lab.actor = some .reader ∧ (x.sys.loc .reader).calls = [] then
    m.note ((clock ω V).time x) (x.sys.loc .reader).pc
  else m

/-- The states reached by runs with a clock whose steps all meet `ok`, each with the memory. -/
def ProbeRun (ok : TimedState ω V → SysLabel ω V → Prop) : TimedState ω V × Probes → Prop :=
  Reach (fun y => (∃ s, Init s ∧ y.1 = (clock ω V).start s) ∧ y.2 = .empty)
    (Recorded recordProbes (TimedStep (clock ω V) reports)) fun y lab => ok y.1 lab

variable {ok : TimedState ω V → SysLabel ω V → Prop} {y y' : TimedState ω V × Probes}
  {lab : SysLabel ω V} {m : Probes} {since now : ℕ}

theorem ProbeRun.timed (hy : ProbeRun ok y) : TimedRun ok y.1 := Reach.unrecorded hy

theorem TimedRun.exists_probes {x : TimedState ω V} (hx : TimedRun ok x) :
    ∃ m, ProbeRun ok (x, m) := Reach.recorded _ _ hx

theorem recordProbes_eq {x : TimedState ω V} (hactor : lab.actor = some .reader)
    (hcalls : (x.sys.loc .reader).calls = []) :
    recordProbes x lab m = m.note ((clock ω V).time x) (x.sys.loc .reader).pc :=
  if_pos ⟨hactor, hcalls⟩

theorem recordProbes_of_calls {x : TimedState ω V} (hcalls : (x.sys.loc .reader).calls ≠ []) :
    recordProbes x lab m = m :=
  if_neg fun h => hcalls h.2

theorem recordProbes_of_ne {x : TimedState ω V} (hactor : lab.actor ≠ some .reader) :
    recordProbes x lab m = m :=
  if_neg fun h => hactor h.1

/-! ## The next load -/

/-- The time of a pause. -/
def pauseNs : ℕ := Reader.sleepTimeMs * 1000000

/-- The reader got to the location at `since`. -/
def ReaderPc.nextLoad (m : Probes) (since : ℕ) : ReaderPc → ℕ
  | .lock _ | .waiting _ _ | .killTest _ | .write _ => m.loadedAt
  | .unlock _ | .notify _ | .destroy _ | .sleep => since + pauseNs
  | .threadInfoSet | .head | .load | .breakUnlock | .exited => since

theorem ReaderPc.nextLoad_mono (pc : ReaderPc) (h : since ≤ now) :
    pc.nextLoad m since ≤ pc.nextLoad m now := by
  cases pc <;> simp only [nextLoad, Nat.add_le_add_iff_right, le_refl, h]

theorem ReaderPc.nextLoad_le (pc : ReaderPc) (h : m.loadedAt ≤ since) :
    pc.nextLoad m since ≤ since + pauseNs := by
  cases pc <;>
    first | exact le_refl _ | exact Nat.le_add_right _ _ | exact h.trans (Nat.le_add_right _ _)

theorem ReaderPc.loadedAt_note_le (pc : ReaderPc) (h : m.loadedAt ≤ now) :
    (m.note now pc).loadedAt ≤ now := by
  cases pc <;> first | exact h | exact le_refl now

omit [PercentageValue V] in
theorem Reader.nextLoad {pc : ReaderPc} {o : Set Mutex} {d : Data ω V} (hsince : since ≤ now)
    (hloaded : m.loadedAt ≤ now) (hsleep : pc = .sleep → now = since + pauseNs) :
    (code pc : Code V _).Post (Data.perform .reader) (fun _ => True)
      (fun l _ _ => pc.nextLoad m since ≤ l.pc.nextLoad (m.note now pc) now) o d := by
  have hpause : since + pauseNs ≤ now + pauseNs := Nat.add_le_add_right hsince _
  cases pc with
  | threadInfoSet | head =>
    intro i _
    simp only
    split <;> exact hsince
  | load =>
    intro i _
    simp only [Data.perform, PipeAct.perform]
    cases i.file.result <;> simpa [ReaderPc.nextLoad, Probes.note] using hsince
  | lock x =>
    simp only [code, Instr.post_tryLock]
    refine ⟨fun _ _ => le_refl _, fun _ => ?_, fun _ => ?_⟩ <;> exact hloaded
  | waiting x w =>
    exact outNotFull.post_of_data
      (Q := fun pc _ => m.loadedAt ≤ ReaderPc.nextLoad m now pc) (fun _ => le_refl _) (le_refl _) w
  | killTest x =>
    intro i _
    simp only
    split
    · exact hloaded
    · exact le_refl _
  | breakUnlock => simpa [code, exiting, ReaderPc.nextLoad, Probes.note] using hsince
  | write x => exact fun i _ => hloaded.trans (Nat.le_add_right _ _)
  | unlock x | notify x => simpa [code, ReaderPc.nextLoad, Probes.note] using hpause
  | destroy x => exact fun i _ => hpause
  | sleep => exact (hsleep rfl).ge
  | exited => trivial

/-- What the instruction adds to the samples written. -/
def ReaderPc.writes (m : Probes) : ReaderPc → List (ℕ × ProcStat)
  | .write procStat => [(m.loadedAt, procStat.stat)]
  | _ => []

theorem ReaderPc.written_note (pc : ReaderPc) :
    (m.note now pc).written = m.written ++ pc.writes m := by
  cases pc <;> first | rfl | exact (List.append_nil _).symm

theorem ReaderPc.pairwise_writes (pc : ReaderPc) {R : ℕ × ProcStat → ℕ × ProcStat → Prop} :
    (pc.writes m).Pairwise R := by
  cases pc <;> simp [writes]

theorem ReaderPc.nextLoad_of_writes {pc : ReaderPc} {w : ℕ × ProcStat} (hw : w ∈ pc.writes m) :
    pc.nextLoad m since = w.1 := by
  cases pc with
  | write x =>
    obtain rfl := List.mem_singleton.1 hw
    rfl
  | _ => cases hw

omit [PercentageValue V] in
theorem Reader.nextLoad_of_writes {pc : ReaderPc} {o : Set Mutex} {d : Data ω V}
    (hloaded : m.loadedAt ≤ now) :
    (code pc : Code V _).Post (Data.perform .reader) (fun _ => True)
      (fun l _ _ => ∀ w ∈ pc.writes m, w.1 + pauseNs ≤ l.pc.nextLoad (m.note now pc) now) o d := by
  cases pc with
  | write x =>
    intro i _ w hw
    obtain rfl := List.mem_singleton.1 hw
    exact Nat.add_le_add_right hloaded _
  | _ => exact Instr.post_of_forall (fun _ _ _ w hw => by cases hw) _

omit [PercentageValue V] in
/-- The instruction at which the reader blocks. -/
theorem Reader.waiting_of_waits {pc : ReaderPc} {n : Mutex}
    (h : (code pc : Code V (Control ReaderPc)).waitsWith n) : ∃ x w, pc = .waiting x w := by
  cases pc with
  | waiting x w => exact ⟨x, w, rfl⟩
  | _ => cases h

/-- The instruction at `pc` was executed at `now`, and led to `pc'`. -/
structure ReaderPc.Follows (m : Probes) (since now : ℕ) (pc pc' : ReaderPc) : Prop where
  nextLoad : pc.nextLoad m since ≤ pc'.nextLoad (m.note now pc) now
  writes : ∀ w ∈ pc.writes m, w.1 + pauseNs ≤ pc'.nextLoad (m.note now pc) now

theorem Reader.follows {x x' : TimedState ω V} (hx : TimedRun ok x)
    (hstep : TimedStep (clock ω V) reports x lab x') (hactor : lab.actor = some .reader)
    (hcalls : (x.sys.loc .reader).calls = []) (hloaded : m.loadedAt ≤ (clock ω V).time x) :
    (x.sys.loc .reader).pc.Follows m (x.since .reader) ((clock ω V).time x)
      (x'.sys.loc .reader).pc := by
  have hsince := hx.since_le .reader
  have hsleep : (x.sys.loc .reader).pc = .sleep →
      (clock ω V).time x = x.since .reader + pauseNs := by
    intro hpc
    have hcode : (program ω V).code .reader (x.sys.loc .reader) =
        .sleep sleepTimeMs (.goto .head) := by
      rw [program_code_of_calls hcalls, hpc]
      rfl
    exact hstep.time_of_sleep hactor hcode
  refine hstep.step.post (Q := fun l _ _ => (x.sys.loc .reader).pc.Follows m (x.since .reader)
    ((clock ω V).time x) l.pc) hactor (fun _ _ => trivial) (fun _ n hn => ?_) ?_
  · rw [program_code_of_calls hcalls] at hn
    obtain ⟨sample, w, hpc⟩ := waiting_of_waits hn
    rw [hpc]
    exact ⟨le_refl _, fun w hw => by cases hw⟩
  · rw [program_code_of_calls hcalls]
    exact ((Reader.nextLoad hsince hloaded hsleep).and (Reader.nextLoad_of_writes hloaded)).mono
      (fun _ _ _ h => ⟨h.1, h.2⟩) fun _ _ => ⟨trivial, trivial⟩

/-! ## The pauses -/

/-- The samples written were loaded at least a pause apart, and so will be the next one. -/
structure ReaderPc.Paced (m : Probes) (since : ℕ) (pc : ReaderPc) : Prop where
  loadedAt : m.loadedAt ≤ since
  next : ∀ w ∈ m.written, w.1 + pauseNs ≤ pc.nextLoad m since
  written : m.written.Pairwise fun w w' => w.1 + pauseNs ≤ w'.1

namespace ReaderPc.Paced

variable {pc pc' : ReaderPc}

theorem empty (since : ℕ) (pc : ReaderPc) : pc.Paced .empty since where
  loadedAt := Nat.zero_le _
  next w hw := by cases hw
  written := List.Pairwise.nil

theorem mono (h : pc.Paced m since) (hle : since ≤ now) : pc.Paced m now where
  loadedAt := h.loadedAt.trans hle
  next w hw := (h.next w hw).trans (pc.nextLoad_mono hle)
  written := h.written

theorem follows (h : pc.Paced m since) (hle : since ≤ now) (hf : pc.Follows m since now pc') :
    pc'.Paced (m.note now pc) now where
  loadedAt := pc.loadedAt_note_le (h.loadedAt.trans hle)
  next w hw := by
    rw [pc.written_note] at hw
    rcases List.mem_append.1 hw with hw | hw
    · exact (h.next w hw).trans hf.nextLoad
    · exact hf.writes w hw
  written := by
    rw [pc.written_note]
    refine List.pairwise_append.2 ⟨h.written, pc.pairwise_writes, fun w hw w' hw' => ?_⟩
    rw [← ReaderPc.nextLoad_of_writes hw']
    exact h.next w hw

end ReaderPc.Paced

theorem paced_step {x x' : TimedState ω V} (hx : TimedRun ok x)
    (hstep : TimedStep (clock ω V) reports x lab x')
    (h : (x.sys.loc .reader).pc.Paced m (x.since .reader)) :
    (x'.sys.loc .reader).pc.Paced (recordProbes x lab m) (x'.since .reader) := by
  have hsince := hx.since_le .reader
  rw [hstep.since]
  by_cases hactor : lab.actor = some .reader
  · rw [if_pos hactor]
    by_cases hcalls : (x.sys.loc .reader).calls = []
    · rw [recordProbes_eq hactor hcalls]
      exact h.follows hsince
        (Reader.follows hx hstep hactor hcalls (h.loadedAt.trans hsince))
    · rw [recordProbes_of_calls hcalls, pc_of_calls hstep.step hactor hcalls]
      exact h.mono hsince
  · rw [if_neg hactor, recordProbes_of_ne hactor, (hstep.step.unchanged hactor).2.2]
    exact h

theorem ProbeRun.paced (hy : ProbeRun ok y) :
    (y.1.sys.loc .reader).pc.Paced y.2 (y.1.since .reader) := by
  refine hy.invariant (I := fun y => (y.1.sys.loc .reader).pc.Paced y.2 (y.1.since .reader)) ?_ ?_
  · rintro y ⟨-, hm⟩
    rw [hm]
    exact ReaderPc.Paced.empty _ _
  · rintro y lab y' hy h - ⟨hstep, hm⟩
    rw [hm]
    exact paced_step (ProbeRun.timed hy) hstep h

/-! ## What is written -/

omit [PercentageValue V] in
theorem Reader.written {pc : ReaderPc} {o : Set Mutex} {d : Data ω V} :
    (code pc : Code V _).Post (Data.perform .reader) (fun _ => True)
      (fun _ _ d' => d'.pipeline.procStatCbuf.written =
        d.pipeline.procStatCbuf.written ++ (pc.writes m).map Prod.snd) o d := by
  cases pc with
  | write x => exact fun i _ => Channel.written_write _ _
  | waiting x w =>
    exact outNotFull.post_of_data (Q := fun _ d' => d'.pipeline.procStatCbuf.written = _)
      (fun _ => (List.append_nil _).symm) (List.append_nil _).symm w
  | lock x | breakUnlock | unlock x | notify x => exact fun _ _ _ => (List.append_nil _).symm
  | sleep => exact (List.append_nil _).symm
  | exited => trivial
  | _ => exact fun _ _ => (List.append_nil _).symm

/-- Only the reader's own function writes to the reader's buffer. -/
theorem written_of_not_reader {s s' : SysState ω V} (hstep : Step (program ω V) s lab s')
    (hnot : ¬(lab.actor = some .reader ∧ (s.loc .reader).calls = [])) :
    s'.data.pipeline.procStatCbuf.written = s.data.pipeline.procStatCbuf.written := by
  rcases hstep.data_cases with hdata | ⟨u, i, a, next, rfl, hc, hdata⟩ | ⟨e, rfl, hdata⟩
  · rw [hdata]
  · rw [hdata]
    by_cases hpipe : ∃ b, a = .pipe b
    · obtain ⟨b, rfl⟩ := hpipe
      cases b with
      | procStatWrite x =>
        refine absurd ?_ hnot
        rcases hl : s.loc u with ⟨calls, pc⟩
        rw [hl] at hc
        cases calls with
        | nil =>
          obtain rfl : .reader = u := body_actor hc rfl
          exact ⟨rfl, by rw [hl]⟩
        | cons f fs =>
          rw [program_code_cons] at hc
          obtain ⟨next', hf, -⟩ := Instr.map_eq_act hc
          exact absurd rfl (Frame.code_ne_pipe hf _)
      | procStatRead => exact Channel.written_read _
      | _ => rfl
    · exact congrArg (·.procStatCbuf.written)
        (Data.perform_of_ne_pipe u (fun b hb => hpipe ⟨b, hb⟩) i s.data).1
  · rw [hdata]
    cases e <;> rfl

theorem written_step {x x' : TimedState ω V} (hstep : TimedStep (clock ω V) reports x lab x')
    (h : m.written.map Prod.snd = x.sys.data.pipeline.procStatCbuf.written) :
    (recordProbes x lab m).written.map Prod.snd =
      x'.sys.data.pipeline.procStatCbuf.written := by
  by_cases hreader : lab.actor = some .reader ∧ (x.sys.loc .reader).calls = []
  · obtain ⟨hactor, hcalls⟩ := hreader
    rw [recordProbes_eq hactor hcalls, ReaderPc.written_note, List.map_append, h]
    refine (hstep.step.post (Q := fun _ _ d => d.pipeline.procStatCbuf.written =
      _ ++ ((x.sys.loc .reader).pc.writes m).map Prod.snd) hactor (fun _ _ => trivial)
      (fun _ n hn => ?_) ?_).symm
    · rw [program_code_of_calls hcalls] at hn
      obtain ⟨sample, w, hpc⟩ := Reader.waiting_of_waits hn
      rw [hpc]
      exact (List.append_nil _).symm
    · rw [program_code_of_calls hcalls]
      exact Reader.written
  · rw [written_of_not_reader hstep.step hreader, ← h]
    unfold recordProbes
    rw [if_neg hreader]

theorem ProbeRun.written (hy : ProbeRun ok y) :
    y.2.written.map Prod.snd = y.1.sys.data.pipeline.procStatCbuf.written := by
  refine hy.invariant (I := fun y => y.2.written.map Prod.snd =
    y.1.sys.data.pipeline.procStatCbuf.written) ?_ ?_
  · rintro ⟨x, m⟩ ⟨⟨s, ⟨-, -, hdata⟩, rfl⟩, rfl⟩
    show [] = s.data.pipeline.procStatCbuf.written
    rw [hdata.pipeline]
    rfl
  · rintro y lab y' - h - ⟨hstep, hm⟩
    rw [hm]
    exact written_step hstep h

theorem probes_paced (hy : ProbeRun ok y) :
    y.2.written.map Prod.snd = y.1.sys.data.pipeline.procStatCbuf.written ∧
      y.2.written.Pairwise fun w w' => w.1 + pauseNs ≤ w'.1 :=
  ⟨ProbeRun.written hy, (ProbeRun.paced hy).written⟩

/-- The others wait, while the reader writes one sample and then, half a second later, another. -/
def twoProbes : List (Move (Thread Empty) (Input ℚ) Data.Env) :=
  [steps .watchdog 6 (.userIdle 0 0), steps .logger 25 (.userIdle 0 0),
    steps .analyzer 15 (.userIdle 0 0), steps .printer 13 (.userIdle 0 0),
    steps .reader 25 (.userIdle 0 0), pass 500, steps .reader 25 (.userIdle 0 0)].flatten

theorem probes_paced_twoProbes : ∃ y : TimedState Empty ℚ × Probes,
    y.1.sys.data.pipeline.procStatCbuf.written.length = 2 ∧
      y.2.written.map Prod.snd = y.1.sys.data.pipeline.procStatCbuf.written ∧
      y.2.written.Pairwise fun w w' => w.1 + pauseNs ≤ w'.1 := by
  have hrun : ∃ x : TimedState Empty ℚ, TimedRun (fun _ _ => True) x ∧
      (x.sys.data.pipeline.procStatCbuf.written.length == 2) = true := by
    refine TimedRun.play (fun _ _ => true) (fun _ _ _ _ => trivial) twoProbes ?_
    decide +kernel
  obtain ⟨x, hx, hcheck⟩ := hrun
  obtain ⟨m, hm⟩ := TimedRun.exists_probes hx
  exact ⟨(x, m), eq_of_beq hcheck, probes_paced hm⟩

end CpuUsageTracker
