import CpuUsageTracker.Ownership

/-!
# When the pipeline loses nothing

The producers wait while their buffer is full, but they leave the wait loop after any wait that
returns `thrd_success` or `thrd_timedout`, and then write with `CircularBuffer_write`, which drops
the oldest item of a full buffer.

**Theorem (`pipeline_lossless`).** In every run in which such a wait returns only when the buffer
has room (or the kill switch is on), the producers write to buffers that are not full, and for
both buffers what was written is what was read followed by what is held.

`pipeline_loses` is a run in which a wait times out and a sample is lost.
-/

namespace CpuUsageTracker

open Threads

variable {ω V : Type} [DecidableEq ω] [PercentageValue V]

/-- The producers write to buffers with room, and no item was dropped. -/
structure NothingLost (s : SysState ω V) : Prop where
  reader : ∀ procStat, s.loc .reader = .goto (.write procStat) →
    s.data.pipeline.procStatCbuf.isFull = false
  analyzer : ∀ v, s.loc .analyzer = .goto (.write v) →
    s.data.pipeline.usageInfoCbuf.isFull = false
  procStatCbuf : s.data.pipeline.procStatCbuf.Lossless
  usageInfoCbuf : s.data.pipeline.usageInfoCbuf.Lossless

/-- There is room in `c`, or it does not matter any more. -/
def RoomOrKilled {α : Type} {cap : ℕ} (c : Channel α cap) (killSwitch : Bool) : Prop :=
  c.isFull = false ∨ killSwitch = true

instance {α : Type} {cap : ℕ} (c : Channel α cap) (killSwitch : Bool) :
    Decidable (RoomOrKilled c killSwitch) :=
  inferInstanceAs (Decidable (_ ∨ _))

/-- A wait for room that returns `thrd_success` or `thrd_timedout`, and so ends the wait loop,
returns when there is room. -/
def RoomOnReturn (p : Pipeline V) (killSwitch : Bool) :
    Call Mutex CondVar Timespec → ThrdResult → Prop
  | .waitUntil .procStatNotFullCv _ _, r => r ≠ .error → RoomOrKilled p.procStatCbuf killSwitch
  | .waitUntil .usageInfoNotFullCv _ _, r => r ≠ .error → RoomOrKilled p.usageInfoCbuf killSwitch
  | _, _ => True

instance (p : Pipeline V) (killSwitch : Bool) : (c : Call Mutex CondVar Timespec) →
    (r : ThrdResult) → Decidable (RoomOnReturn p killSwitch c r)
  | .waitUntil .procStatNotFullCv _ _, r =>
    inferInstanceAs (Decidable (r ≠ .error → RoomOrKilled p.procStatCbuf killSwitch))
  | .waitUntil .usageInfoNotFullCv _ _, r =>
    inferInstanceAs (Decidable (r ≠ .error → RoomOrKilled p.usageInfoCbuf killSwitch))
  | .waitUntil .gInNotEmptyCv _ _, _ | .waitUntil .gTimestampsUpdatedCv _ _, _
  | .waitUntil .procStatNotEmptyCv _ _, _ | .waitUntil .usageInfoNotEmptyCv _ _, _
  | .tryLock _ _, _ | .unlock _, _ | .notify _, _ => isTrue trivial

/-- Every wait for room that ends the wait loop in this step returns when there is room. -/
def WaitsForRoom : SysState ω V → SysLabel ω V → Prop :=
  (program ω V).EveryReturn fun s _ => RoomOnReturn s.data.pipeline s.data.killSwitch

instance (s : SysState ω V) (lab : SysLabel ω V) : Decidable (WaitsForRoom s lab) :=
  inferInstanceAs (Decidable (Program.EveryReturn ..))

/-- What the reader knows about its buffer. -/
def ReaderPc.Room (killSwitch : Bool) (p : Pipeline V) (pc : ReaderPc) : Prop :=
  p.procStatCbuf.Lossless ∧
    match pc with
    | .killTest _ => RoomOrKilled p.procStatCbuf killSwitch
    | .write _ => p.procStatCbuf.isFull = false
    | _ => True

/-- What the analyzer knows about its output buffer. -/
def AnalyzerPc.Room (killSwitch : Bool) (p : Pipeline V) (pc : AnalyzerPc V) : Prop :=
  p.usageInfoCbuf.Lossless ∧
    match pc with
    | .killTestOut _ => RoomOrKilled p.usageInfoCbuf killSwitch
    | .write _ => p.usageInfoCbuf.isFull = false
    | _ => True

def Room : (t : Thread ω) → Pc V t → Bool → Pipeline V → Prop
  | .reader, pc, k, p => pc.Room k p
  | .analyzer, pc, k, p => pc.Room k p
  | _, _, _, _ => True

omit [PercentageValue V] in
theorem Reader.room {pc : ReaderPc} {d : Data ω V} (o : Set Mutex)
    (h : pc.Room d.killSwitch d.pipeline) :
    (code pc : Code V _).Post (Data.perform .reader)
      ((code pc : Code V _).OnReturn (RoomOnReturn d.pipeline d.killSwitch))
      (fun l _ d => l.pc.Room d.killSwitch d.pipeline) o d := by
  obtain ⟨hlossless, hroom⟩ := h
  cases pc with
  | waiting p w =>
    cases w with
    | timePoint => exact fun _ _ => ⟨hlossless, trivial⟩
    | test tp =>
      intro i _
      simp only
      split
      · exact ⟨hlossless, trivial⟩
      · rename_i hfull
        exact ⟨hlossless, .inl (Bool.eq_false_of_not_eq_true hfull)⟩
    | killSwitch tp =>
      intro i _
      simp only
      split
      · rename_i hkill
        exact ⟨hlossless, .inr hkill⟩
      · exact ⟨hlossless, trivial⟩
    | wait tp =>
      intro r _ hreturn
      cases r with
      | success | timedout => exact ⟨hlossless, hreturn (by simp)⟩
      | error => exact ⟨hlossless, trivial⟩
  | killTest p =>
    intro i _
    simp only
    split
    · exact ⟨hlossless, trivial⟩
    · rename_i hkill
      exact ⟨hlossless, hroom.resolve_right hkill⟩
  | write p => exact fun i _ => ⟨hlossless.write hroom _, trivial⟩
  | load =>
    intro i _
    simp only [Data.perform, PipeAct.perform]
    cases i.file.result <;> exact ⟨hlossless, trivial⟩
  | _ => simp [code, exiting, ReaderPc.Room, Data.perform, PipeAct.perform, hlossless]

theorem Analyzer.room {pc : AnalyzerPc V} {d : Data ω V} (o : Set Mutex)
    (h : pc.Room d.killSwitch d.pipeline) :
    (code pc).Post (Data.perform .analyzer)
      ((code pc).OnReturn (RoomOnReturn d.pipeline d.killSwitch))
      (fun l _ d => l.pc.Room d.killSwitch d.pipeline) o d := by
  obtain ⟨hlossless, hroom⟩ := h
  cases pc with
  | waitingIn v w =>
    refine inNotEmpty.post_of_data
      (Q := fun pc d => AnalyzerPc.Room d.killSwitch d.pipeline pc) (fun _ => ?_) ?_ w
    · exact ⟨hlossless, trivial⟩
    · exact ⟨hlossless, trivial⟩
  | waitingOut v w =>
    cases w with
    | timePoint => exact fun _ _ => ⟨hlossless, trivial⟩
    | test tp =>
      intro i _
      simp only
      split
      · exact ⟨hlossless, trivial⟩
      · rename_i hfull
        exact ⟨hlossless, .inl (Bool.eq_false_of_not_eq_true hfull)⟩
    | killSwitch tp =>
      intro i _
      simp only
      split
      · rename_i hkill
        exact ⟨hlossless, .inr hkill⟩
      · exact ⟨hlossless, trivial⟩
    | wait tp =>
      intro r _ hreturn
      cases r with
      | success | timedout => exact ⟨hlossless, hreturn (by simp)⟩
      | error => exact ⟨hlossless, trivial⟩
  | killTestOut v =>
    intro i _
    simp only
    split
    · exact ⟨hlossless, trivial⟩
    · rename_i hkill
      exact ⟨hlossless, hroom.resolve_right hkill⟩
  | write v => exact fun i _ => ⟨hlossless.write hroom _, trivial⟩
  | mallocUsageInfo | read =>
    intro i _
    simp only
    split <;> exact ⟨hlossless, trivial⟩
  | notifyIn v =>
    have hsample : (haveSample v).pc.Room d.killSwitch d.pipeline := by
      unfold haveSample
      split <;> exact ⟨hlossless, trivial⟩
    simp [code, hsample]
  | _ => simp [code, exiting, AnalyzerPc.Room, Data.perform, hlossless]

/-! ## The other threads -/

theorem RoomOrKilled.read {α : Type} {cap : ℕ} {c : Channel α cap} {k : Bool}
    (h : RoomOrKilled c k) : RoomOrKilled c.read.2 k :=
  h.imp_left Fifo.isFull_read_of_not_full

omit [DecidableEq ω] [PercentageValue V] in
theorem ReaderPc.Room.others {a : PipeAct V} {p : Pipeline V} {k : Bool} {pc : ReaderPc}
    (ha : a.actor ≠ some (.reader : Thread ω)) (file : FileRead) (h : pc.Room k p) :
    pc.Room k (a.perform file p).1 := by
  cases a with
  | procStatRead =>
    refine ⟨h.1.read, ?_⟩
    cases pc with
    | killTest x => exact RoomOrKilled.read h.2
    | write x => exact Fifo.isFull_read_of_not_full h.2
    | _ => trivial
  | loadFromFile | destroy x | procStatWrite x => exact absurd rfl ha
  | test x | usageInfoWrite x | usageInfoRead | print x => exact h

omit [DecidableEq ω] [PercentageValue V] in
theorem AnalyzerPc.Room.others {a : PipeAct V} {p : Pipeline V} {k : Bool} {pc : AnalyzerPc V}
    (ha : a.actor ≠ some (.analyzer : Thread ω)) (file : FileRead) (h : pc.Room k p) :
    pc.Room k (a.perform file p).1 := by
  cases a with
  | usageInfoRead =>
    refine ⟨h.1.read, ?_⟩
    cases pc with
    | killTestOut v => exact RoomOrKilled.read h.2
    | write v => exact Fifo.isFull_read_of_not_full h.2
    | _ => trivial
  | procStatRead | usageInfoWrite x => exact absurd rfl ha
  | loadFromFile | destroy x | test x | procStatWrite x | print x => exact h

theorem room_outline : PipelineOutline
    (fun t l _ d ev =>
      ((program ω V).code t l).OnReturn (RoomOnReturn d.pipeline d.killSwitch) ev)
    (Room : (t : Thread ω) → Pc V t → Bool → Pipeline V → Prop) where
  own t pc o d h := by
    cases t with
    | reader => exact Reader.room o h
    | analyzer => exact Analyzer.room o h
    | _ => exact Instr.post_of_forall (fun _ _ _ => trivial) _
  others t u htu pc pc' k p a next file h _ hc := by
    cases t with
    | reader => exact ReaderPc.Room.others (fun ha => htu (body_actor hc ha)) file h
    | analyzer => exact AnalyzerPc.Room.others (fun ha => htu (body_actor hc ha)) file h
    | _ => trivial
  killed t pc k p h := by
    cases t with
    | reader =>
      refine ⟨h.1, ?_⟩
      cases pc with
      | killTest x => exact .inr rfl
      | write x => exact h.2
      | _ => trivial
    | analyzer =>
      refine ⟨h.1, ?_⟩
      cases pc with
      | killTestOut v => exact .inr rfl
      | write v => exact h.2
      | _ => trivial
    | _ => trivial

theorem pipeline_lossless {s : SysState ω V} (hs : Run WaitsForRoom s) : NothingLost s := by
  have hroom : ∀ t, Room t (s.loc t).pc s.data.killSwitch s.data.pipeline := by
    refine Run.pipeline room_outline (fun t => ?_) (fun s lab _ hok t ev hev => hok t ev hev) hs
    cases t with
    | reader | analyzer => exact ⟨Channel.lossless_empty, trivial⟩
    | _ => trivial
  obtain ⟨hreader, hreader'⟩ := hroom .reader
  obtain ⟨hanalyzer, hanalyzer'⟩ := hroom .analyzer
  refine ⟨fun procStat hpc => ?_, fun v hpc => ?_, hreader, hanalyzer⟩
  · rw [hpc] at hreader'
    exact hreader'
  · rw [hpc] at hanalyzer'
    exact hanalyzer'

/-- Eleven samples are written within the thirty seconds in which the analyzer does not run. -/
theorem pipeline_loses :
    ∃ s : SysState Empty ℚ, Run (program Empty ℚ).Nominal s ∧ ¬NothingLost s := by
  have hrun : ∃ s : SysState Empty ℚ, Run (program Empty ℚ).Nominal s ∧
      (s.data.pipeline.procStatCbuf.written.length == 11 &&
        s.data.pipeline.procStatCbuf.taken.length == 0) = true := by
    apply Run.play (fun _ _ => true) (fun _ _ h _ => h)
      (steps .reader 263 (.userIdle 0 0) ++ [.env (.tick 2000000000), .wake .reader .timedout] ++
        steps .reader 12 (.userIdle 0 0))
    decide +kernel
  obtain ⟨s, hs, hcount⟩ := hrun
  refine ⟨s, hs, fun h => ?_⟩
  have hlen := congrArg List.length h.procStatCbuf
  have hcap := s.data.pipeline.procStatCbuf.queue.length_le
  simp only [Bool.and_eq_true, beq_iff_eq] at hcount
  simp only [List.length_append, hcount.1, hcount.2, procstatCbufCapacity] at hlen hcap
  omega

/-- The reader waits with the buffer full, and the analyzer makes room. -/
theorem pipeline_lossless_elevenSamples : ∃ s : SysState Empty ℚ,
    s.data.pipeline.procStatCbuf.written.length = 11 ∧
      s.data.pipeline.procStatCbuf.taken.length = 1 ∧ NothingLost s := by
  have hrun : ∃ s : SysState Empty ℚ, Run WaitsForRoom s ∧
      (s.data.pipeline.procStatCbuf.written.length == 11 &&
        s.data.pipeline.procStatCbuf.taken.length == 1) = true := by
    apply Run.play (fun s lab => decide (WaitsForRoom s lab)) (fun _ _ _ h => of_decide_eq_true h)
      (steps .reader 263 (.userIdle 0 0) ++ steps .analyzer 17 (.userIdle 0 0) ++
        steps .reader 12 (.userIdle 0 0))
    decide +kernel
  obtain ⟨s, hs, hcount⟩ := hrun
  simp only [Bool.and_eq_true, beq_iff_eq] at hcount
  exact ⟨s, hcount.1, hcount.2, pipeline_lossless hs⟩

end CpuUsageTracker
