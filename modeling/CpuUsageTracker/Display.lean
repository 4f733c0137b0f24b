import CpuUsageTracker.Intervals
import CpuUsageTracker.Library.Display
import CpuUsageTracker.PrintedRecords

/-!
# From the file to the screen

**Theorem (`screen_shows`).** In every run in which unlocking an owned mutex succeeds, the screen
is a display of CPU usage: what the printer has printed (with the record in its hand) begins with
what its buffer held when it was allocated, any number of times, and goes on with the records that
the printer has read, in order and each at least once. These are among the usages between
neighbours of a list of samples, and the samples are among those that the reader has loaded from
`/proc/stat`, in this order.

Samples and records may get lost: when a lock attempt fails, when a buffer overflows, or when a
thread ends. The other way around, nothing on the screen comes from elsewhere, and nothing goes
back in time.

The samples that were loaded, and what the printer's buffer held at first, are memories of the run
(`recordLoaded`, `recordFresh`). From the file to the reader's buffer it is `ReaderPc.toWrite` that
says which sample is under way, between the buffers `Intervals`, and at the end
`PrinterPc.Displaying`.
-/

namespace CpuUsageTracker

open Threads

variable {ω V : Type} [DecidableEq ω] [PercentageValue V]
  {ok : SysState ω V → SysLabel ω V → Prop} {s s' : SysState ω V} {lab : SysLabel ω V}

/-! ## The buffers keep the order -/

structure Pipeline.InOrder (p : Pipeline V) : Prop where
  procStatCbuf : p.procStatCbuf.InOrder
  usageInfoCbuf : p.usageInfoCbuf.InOrder

omit [PercentageValue V] in
theorem Pipeline.InOrder.perform {p : Pipeline V} (h : p.InOrder) (file : FileRead)
    (a : PipeAct V) : (a.perform file p).1.InOrder := by
  cases a with
  | procStatWrite x => exact ⟨h.procStatCbuf.write x, h.usageInfoCbuf⟩
  | procStatRead => exact ⟨h.procStatCbuf.read, h.usageInfoCbuf⟩
  | usageInfoWrite x => exact ⟨h.procStatCbuf, h.usageInfoCbuf.write x⟩
  | usageInfoRead => exact ⟨h.procStatCbuf, h.usageInfoCbuf.read⟩
  | loadFromFile | destroy x | test x | print x => exact ⟨h.procStatCbuf, h.usageInfoCbuf⟩

theorem Run.inOrder (hs : Run ok s) : s.data.pipeline.InOrder := by
  refine hs.invariant (I := fun s => s.data.pipeline.InOrder) ?_ ?_
  · rintro s ⟨-, -, hdata⟩
    rw [hdata.pipeline]
    exact ⟨Channel.inOrder_empty, Channel.inOrder_empty⟩
  · intro s lab s' _ h _ hstep
    cases hstep with
    | @act t a next i =>
      by_cases ha : ∃ b, a = .pipe b
      · obtain ⟨b, rfl⟩ := ha
        exact h.perform i.file b
      · show (s.data.perform t a i).1.pipeline.InOrder
        rwa [(Data.perform_of_ne_pipe t (fun b hb => ha ⟨b, hb⟩) i s.data).1]
    | @env e => cases e <;> exact h
    | block => simpa using h
    | _ => exact h

/-! ## What the printer shows -/

/-- What the printer's buffer holds when the event has allocated it. -/
def PrinterPc.mallocs : Event (Input V) → PrinterPc V → Option (CpuUsageInfo V)
  | .act i, .malloc => if i.ok then some i.usageInfo else none
  | _, _ => none

/-- What the printer's buffer holds that is allocated in a step, if it is. -/
def freshIn (s : SysState ω V) (lab : SysLabel ω V) : Option (CpuUsageInfo V) :=
  match lab.event with
  | some (.printer, ev) =>
    if (s.loc .printer).calls = [] then (s.loc .printer).pc.mallocs ev else none
  | _ => none

def recordFresh (s : SysState ω V) (lab : SysLabel ω V) (fresh : Option (CpuUsageInfo V)) :
    Option (CpuUsageInfo V) :=
  (freshIn s lab).or fresh

/-- The states reached by runs whose steps all meet `ok`, each with what the printer's buffer held
when it was allocated. -/
def FreshRun (ok : SysState ω V → SysLabel ω V → Prop) :
    SysState ω V × Option (CpuUsageInfo V) → Prop :=
  Reach (fun x => Init x.1 ∧ x.2 = none) (Recorded recordFresh (Step (program ω V)))
    fun x lab => ok x.1 lab

/-- The printer's buffer held `fresh` at first, and `u` is what it holds now. -/
def Pipeline.Shows (fresh : Option (CpuUsageInfo V)) (p : Pipeline V) (u : CpuUsageInfo V)
    (shown : List (CpuUsageInfo V)) : Prop :=
  ∃ first, fresh = some first ∧ Displays first p.usageInfoCbuf.taken shown ∧
    (first :: p.usageInfoCbuf.taken).getLast? = some u

def PrinterPc.Displaying (fresh : Option (CpuUsageInfo V)) (p : Pipeline V) :
    PrinterPc V → Prop
  | .threadInfoSet | .malloc => fresh = none ∧ p.usageInfoCbuf.taken = [] ∧ p.printed = []
  | .head u | .lock u | .waiting u _ | .killTest u | .read u => p.Shows fresh u p.printed
  | .unlock u | .print u => p.Shows fresh u (p.printed ++ [u])
  | .breakUnlock | .exited => DisplaysFrom fresh p.usageInfoCbuf.taken p.printed

def Displaying (fresh : Option (CpuUsageInfo V)) :
    (t : Thread ω) → Pc V t → Bool → Pipeline V → Prop
  | .printer, pc, _, p => pc.Displaying fresh p
  | _, _, _, _ => True

omit [DecidableEq ω] [PercentageValue V] in
theorem Pipeline.Shows.displays {fresh : Option (CpuUsageInfo V)} {p : Pipeline V}
    {u : CpuUsageInfo V} {shown : List (CpuUsageInfo V)} (h : p.Shows fresh u shown) :
    DisplaysFrom fresh p.usageInfoCbuf.taken shown := by
  obtain ⟨first, rfl, hdisplays, -⟩ := h
  exact hdisplays

omit [PercentageValue V] in
/-- The instructions that do not allocate the buffer. -/
theorem Printer.displaying {fresh : Option (CpuUsageInfo V)} {pc : PrinterPc V} {d : Data ω V}
    (o : Set Mutex) (h : pc.Displaying fresh d.pipeline) :
    (code pc).Post (Data.perform .printer)
      (fun ev => (code pc).OnReturn (Call.UnlockSucceeds .univ) ev ∧ pc.mallocs ev = none)
      (fun l _ d => l.pc.Displaying fresh d.pipeline) o d := by
  cases pc with
  | threadInfoSet =>
    obtain ⟨rfl, htaken, hprinted⟩ := h
    intro i _
    cases hi : i.ok
    · simp only [Data.perform, hi]
      exact ⟨htaken, hprinted⟩
    · simp only [Data.perform, hi]
      exact ⟨rfl, htaken, hprinted⟩
  | malloc =>
    obtain ⟨rfl, htaken, hprinted⟩ := h
    rintro i ⟨-, hnone⟩
    cases hi : i.ok
    · simp only [Data.perform, hi]
      exact ⟨htaken, hprinted⟩
    · simp [PrinterPc.mallocs, hi] at hnone
  | head u | killTest u =>
    intro i _
    simp only
    split
    · exact h.displays
    · exact h
  | lock u =>
    simp only [code, Instr.post_tryLock]
    exact ⟨fun _ _ => h, fun _ => h, fun _ => h⟩
  | waiting u w =>
    refine inNotEmpty.post_of_data (Q := fun pc d => PrinterPc.Displaying fresh d.pipeline pc)
      (fun _ => ?_) ?_ w <;> exact h
  | breakUnlock =>
    rintro r - -
    cases r <;> exact h
  | read u =>
    obtain ⟨first, rfl, hshown, hlast⟩ := h
    intro i _
    simp only [Data.perform, PipeAct.perform]
    cases hread : d.pipeline.usageInfoCbuf.read.1 with
    | none =>
      rw [Channel.read_of_isEmpty ((Channel.read_eq_none_iff _).1 hread)]
      exact ⟨first, rfl, hshown.again hlast, hlast⟩
    | some x =>
      refine ⟨first, rfl, ?_, ?_⟩
      · rw [Channel.taken_read, hread]
        exact hshown.next x
      · rw [Channel.taken_read, hread, Option.toList_some, ← List.cons_append]
        exact List.getLast?_concat
  | unlock u =>
    rintro r - ⟨hr, -⟩
    obtain rfl : r = .success := hr trivial
    exact h
  | print u => exact fun i _ => h
  | exited => trivial

omit [PercentageValue V] in
/-- The allocation of the buffer. -/
theorem Printer.displaying_malloc {fresh : Option (CpuUsageInfo V)} {first : CpuUsageInfo V}
    {d : Data ω V} (o : Set Mutex) (h : PrinterPc.malloc.Displaying fresh d.pipeline) :
    (code (.malloc : PrinterPc V)).Post (Data.perform .printer)
      (fun ev => PrinterPc.malloc.mallocs ev = some first)
      (fun l _ d => l.pc.Displaying (some first) d.pipeline) o d := by
  obtain ⟨-, htaken, hprinted⟩ := h
  intro i hsome
  cases hi : i.ok
  · simp [PrinterPc.mallocs, hi] at hsome
  · obtain rfl : i.usageInfo = first := by simpa [PrinterPc.mallocs, hi] using hsome
    simp only [Data.perform, hi, if_true]
    refine ⟨_, rfl, ?_, ?_⟩
    · rw [htaken, hprinted]
      exact .empty _
    · rw [htaken]
      rfl

omit [DecidableEq ω] [PercentageValue V] in
theorem PrinterPc.Displaying.others {fresh : Option (CpuUsageInfo V)} {a : PipeAct V}
    {p : Pipeline V} {pc : PrinterPc V} (ha : a.actor ≠ some (.printer : Thread ω))
    (file : FileRead) (h : pc.Displaying fresh p) :
    pc.Displaying fresh (a.perform file p).1 := by
  have htaken : (a.perform file p).1.usageInfoCbuf.taken = p.usageInfoCbuf.taken := by
    cases a <;> first | rfl | exact absurd rfl ha
  have hprinted : (a.perform file p).1.printed = p.printed := by
    cases a <;> first | rfl | exact absurd rfl ha
  cases pc <;> simpa only [Displaying, Pipeline.Shows, htaken, hprinted] using h

def MallocsNothing : (t : Thread ω) → Loc V t → Event (Input V) → Prop
  | .printer, l, ev => l.calls = [] → l.pc.mallocs ev = none
  | _, _, _ => True

theorem displaying_outline (fresh : Option (CpuUsageInfo V)) : PipelineOutline
    (fun t l _ _ ev => (t ≠ .logger →
      ((program ω V).code t l).OnReturn (Call.UnlockSucceeds .univ) ev) ∧ MallocsNothing t l ev)
    (Displaying fresh : (t : Thread ω) → Pc V t → Bool → Pipeline V → Prop) where
  own t pc o d h := by
    cases t with
    | printer =>
      exact (Printer.displaying o h).mono (fun _ _ _ h => h) fun ev hev =>
        ⟨hev.1 (by simp), hev.2 rfl⟩
    | _ => exact Instr.post_of_forall (fun _ _ _ => trivial) _
  others t u htu pc pc' k p a next file h _ hc := by
    cases t with
    | printer => exact PrinterPc.Displaying.others (fun ha => htu (body_actor hc ha)) file h
    | _ => trivial
  killed t pc k p h := by
    cases t <;> exact h

omit [DecidableEq ω] [PercentageValue V] in
theorem freshIn_of_event {ev : Event (Input V)} (hev : lab.event = some (.printer, ev))
    (hcalls : (s.loc .printer).calls = []) :
    freshIn s lab = (s.loc .printer).pc.mallocs ev := by
  unfold freshIn
  rw [hev]
  exact if_pos hcalls

omit [DecidableEq ω] [PercentageValue V] in
/-- Only the allocation is remembered. -/
theorem exists_malloc {first : CpuUsageInfo V} (h : freshIn s lab = some first) :
    ∃ ev, lab.event = some (.printer, ev) ∧ s.loc .printer = .goto .malloc ∧
      PrinterPc.malloc.mallocs ev = some first := by
  unfold freshIn at h
  split at h
  · rename_i ev hev
    split at h
    · rename_i hcalls
      refine ⟨ev, hev, ?_⟩
      generalize s.loc .printer = l at *
      obtain ⟨calls, pc⟩ := l
      obtain rfl : calls = [] := hcalls
      cases pc with
      | malloc => exact ⟨rfl, h⟩
      | _ => cases ev <;> cases h
    · cases h
  · cases h

theorem displaying_step {fresh : Option (CpuUsageInfo V)} (hstep : Step (program ω V) s lab s')
    (hallow : ∀ t ev, lab.event = some (t, ev) → t ≠ .logger →
      ((program ω V).code t (s.loc t)).OnReturn (Call.UnlockSucceeds .univ) ev)
    (h : (s.loc .printer).pc.Displaying fresh s.data.pipeline) :
    (s'.loc .printer).pc.Displaying (recordFresh s lab fresh) s'.data.pipeline := by
  unfold recordFresh
  cases hfresh : freshIn s lab with
  | none =>
    rw [Option.none_or]
    refine (displaying_outline fresh).outline.step hstep
      (fun t ev hev => ⟨hallow t ev hev, ?_⟩) (fun t => ?_) .printer
    · cases t with
      | printer =>
        intro hcalls
        rwa [freshIn_of_event hev hcalls] at hfresh
      | _ => trivial
    · cases t with
      | printer => exact h
      | _ => trivial
  | some first =>
    obtain ⟨ev, hev, hloc, hmalloc⟩ := exists_malloc hfresh
    rw [Option.some_or]
    rw [hloc] at h
    have hpost : ((program ω V).code .printer (s.loc .printer)).Post (Data.perform .printer)
        (fun ev' => PrinterPc.malloc.mallocs ev' = some first)
        (fun l _ d => l.pc.Displaying (some first) d.pipeline)
        ((program ω V).held s .printer) s.data := by
      rw [hloc]
      exact Printer.displaying_malloc _ h
    refine hstep.post (Label.actor_of_event hev) (fun ev' hev' => ?_) (fun hlab => ?_) hpost
    · rw [hev] at hev'
      obtain ⟨-, rfl⟩ := Prod.mk.inj (Option.some.inj hev')
      exact hmalloc
    · rw [hlab] at hev
      cases hev

omit [DecidableEq ω] [PercentageValue V] in
theorem PrinterPc.Displaying.displays {fresh : Option (CpuUsageInfo V)} {p : Pipeline V}
    {pc : PrinterPc V} (h : pc.Displaying fresh p) :
    DisplaysFrom fresh p.usageInfoCbuf.taken (p.printed ++ pc.inHand) := by
  cases pc with
  | threadInfoSet | malloc =>
    obtain ⟨rfl, htaken, hprinted⟩ := h
    exact ⟨htaken, by rw [hprinted]; rfl⟩
  | unlock u | print u => exact Pipeline.Shows.displays h
  | breakUnlock | exited => simpa [inHand, Displaying] using h
  | _ => simpa [inHand] using Pipeline.Shows.displays h

theorem FreshRun.displaying {x : SysState ω V × Option (CpuUsageInfo V)}
    (hx : FreshRun (program ω V).UnlocksSucceed x) :
    (x.1.loc .printer).pc.Displaying x.2 x.1.data.pipeline := by
  refine Reach.invariant (I := fun x => (x.1.loc .printer).pc.Displaying x.2 x.1.data.pipeline)
    hx ?_ ?_
  · rintro x ⟨⟨-, hloc, hdata⟩, hfresh⟩
    rw [hloc, hdata.pipeline, hfresh]
    exact ⟨rfl, rfl, rfl⟩
  · rintro x lab x' hx h hok ⟨hstep, hfresh⟩
    rw [hfresh]
    have hs : Run (program ω V).UnlocksSucceed x.1 := Reach.unrecorded hx
    exact displaying_step hstep
      (fun t ev hev ht => Run.unlock_succeeds (fun _ _ h => h) hs hok hev ht) h

/-! ## What the reader has loaded -/

def ReaderPc.loads : Event (Input V) → ReaderPc → List ProcStat
  | .act i, .load => i.file.result.toList
  | _, _ => []

/-- The sample that is loaded in a step, if one is. -/
def loadedIn (s : SysState ω V) (lab : SysLabel ω V) : List ProcStat :=
  match lab.event with
  | some (.reader, ev) =>
    if (s.loc .reader).calls = [] then (s.loc .reader).pc.loads ev else []
  | _ => []

def recordLoaded (s : SysState ω V) (lab : SysLabel ω V) (loaded : List ProcStat) :
    List ProcStat :=
  loaded ++ loadedIn s lab

/-- The states reached by runs whose steps all meet `ok`, each with the samples loaded. -/
def LoadRun (ok : SysState ω V → SysLabel ω V → Prop) : SysState ω V × List ProcStat → Prop :=
  Reach (fun x => Init x.1 ∧ x.2 = []) (Recorded recordLoaded (Step (program ω V)))
    fun x lab => ok x.1 lab

/-- The sample that the reader has loaded and not yet written. -/
def ReaderPc.toWrite : ReaderPc → List ProcStat
  | .lock x | .waiting x _ | .killTest x | .write x => [x.stat]
  | _ => []

/-- What was written, and what is to be written, was loaded in this order. -/
def ReaderPc.Loaded (loaded : List ProcStat) (p : Pipeline V) (pc : ReaderPc) : Prop :=
  (p.procStatCbuf.written ++ pc.toWrite).Sublist loaded

omit [DecidableEq ω] [PercentageValue V] in
theorem ReaderPc.Loaded.written {loaded : List ProcStat} {p : Pipeline V} {pc : ReaderPc}
    (h : pc.Loaded loaded p) : p.procStatCbuf.written.Sublist loaded :=
  (List.sublist_append_left _ _).trans h

omit [PercentageValue V] in
theorem Reader.loaded {loaded news : List ProcStat} {pc : ReaderPc} {d : Data ω V} (o : Set Mutex)
    (h : pc.Loaded loaded d.pipeline) :
    (code pc : Code V _).Post (Data.perform .reader) (fun ev => pc.loads ev = news)
      (fun l _ d => l.pc.Loaded (loaded ++ news) d.pipeline) o d := by
  have hmore : loaded.Sublist (loaded ++ news) := List.sublist_append_left _ _
  have hkeep : pc.Loaded (loaded ++ news) d.pipeline := h.trans hmore
  have hwritten := hkeep.written
  cases pc with
  | load =>
    intro i hnews
    have hnews : i.file.result.toList = news := hnews
    simp only [Data.perform, PipeAct.perform]
    cases hfile : i.file.result with
    | none => simpa [ReaderPc.Loaded, ReaderPc.toWrite] using hwritten
    | some stat =>
      obtain rfl : [stat] = news := by rw [← hnews, hfile, Option.toList_some]
      simpa [ReaderPc.Loaded, ReaderPc.toWrite] using h.written
  | threadInfoSet | head =>
    intro i _
    simp only
    split <;> simpa [exiting, ReaderPc.Loaded, ReaderPc.toWrite, Data.perform] using hwritten
  | lock x =>
    simp only [code, Instr.post_tryLock]
    refine ⟨fun _ _ => hkeep, fun _ => ?_, fun _ => ?_⟩ <;>
      simpa [ReaderPc.Loaded, ReaderPc.toWrite] using hwritten
  | waiting x w =>
    refine outNotFull.post_of_data
      (Q := fun pc d => ReaderPc.Loaded (loaded ++ news) d.pipeline pc) (fun _ => ?_) ?_ w <;>
      exact hkeep
  | killTest x =>
    intro i _
    simp only
    split
    · simpa [ReaderPc.Loaded, ReaderPc.toWrite, Data.perform] using hwritten
    · exact hkeep
  | write x =>
    intro i _
    simpa [ReaderPc.Loaded, ReaderPc.toWrite, Data.perform, PipeAct.perform] using hkeep
  | breakUnlock | unlock x | notify x | destroy x | sleep =>
    simp [code, exiting, ReaderPc.Loaded, ReaderPc.toWrite, Data.perform, PipeAct.perform, hwritten]
  | exited => trivial

omit [DecidableEq ω] [PercentageValue V] in
/-- What the other threads do to the pipeline. -/
theorem ReaderPc.Loaded.others {a : PipeAct V} {loaded : List ProcStat} {p : Pipeline V}
    {pc : ReaderPc} (ha : a.actor ≠ some (.reader : Thread ω)) (file : FileRead)
    (h : pc.Loaded loaded p) : pc.Loaded loaded (a.perform file p).1 := by
  cases a with
  | loadFromFile | destroy x | procStatWrite x => exact absurd rfl ha
  | test x | procStatRead | usageInfoWrite x | usageInfoRead | print x => exact h

def Loaded (loaded : List ProcStat) : (t : Thread ω) → Pc V t → Bool → Pipeline V → Prop
  | .reader, pc, _, p => pc.Loaded loaded p
  | _, _, _, _ => True

def LoadsNothing : (t : Thread ω) → Loc V t → Event (Input V) → Prop
  | .reader, l, ev => l.calls = [] → l.pc.loads ev = []
  | _, _, _ => True

theorem loaded_outline (loaded : List ProcStat) : PipelineOutline
    (fun t l _ _ ev => LoadsNothing t l ev)
    (Loaded loaded : (t : Thread ω) → Pc V t → Bool → Pipeline V → Prop) where
  own t pc o d h := by
    cases t with
    | reader =>
      have hpost : (Reader.code pc : Code V _).Post (Data.perform .reader)
          (fun ev => pc.loads ev = []) (fun l _ d => l.pc.Loaded (loaded ++ []) d.pipeline) o d :=
        Reader.loaded o h
      rw [List.append_nil] at hpost
      exact hpost.mono (fun _ _ _ h => h) fun ev hev => hev rfl
    | _ => exact Instr.post_of_forall (fun _ _ _ => trivial) _
  others t u htu pc pc' k p a next file h _ hc := by
    cases t with
    | reader => exact ReaderPc.Loaded.others (fun ha => htu (body_actor hc ha)) file h
    | _ => trivial
  killed t pc k p h := by
    cases t <;> exact h

omit [DecidableEq ω] [PercentageValue V] in
theorem loadedIn_of_event {ev : Event (Input V)} (hev : lab.event = some (.reader, ev))
    (hcalls : (s.loc .reader).calls = []) : loadedIn s lab = (s.loc .reader).pc.loads ev := by
  unfold loadedIn
  rw [hev]
  exact if_pos hcalls

theorem loaded_step {loaded : List ProcStat} (hstep : Step (program ω V) s lab s')
    (h : (s.loc .reader).pc.Loaded loaded s.data.pipeline) :
    (s'.loc .reader).pc.Loaded (recordLoaded s lab loaded) s'.data.pipeline := by
  unfold recordLoaded
  by_cases hnothing : loadedIn s lab = []
  · rw [hnothing, List.append_nil]
    refine (loaded_outline loaded).outline.step hstep (fun t ev hev => ?_) (fun t => ?_) .reader
    · cases t with
      | reader =>
        intro hcalls
        rwa [loadedIn_of_event hev hcalls] at hnothing
      | _ => trivial
    · cases t with
      | reader => exact h
      | _ => trivial
  · -- the reader is in its own function, and loads a sample
    obtain ⟨ev, hev, hcalls⟩ :
        ∃ ev, lab.event = some (.reader, ev) ∧ (s.loc .reader).calls = [] := by
      unfold loadedIn at hnothing
      split at hnothing
      · rename_i ev hev
        refine ⟨ev, hev, ?_⟩
        by_contra hcalls
        exact hnothing (if_neg hcalls)
      · exact absurd rfl hnothing
    obtain ⟨news, hnews⟩ : ∃ news, (s.loc .reader).pc.loads ev = news := ⟨_, rfl⟩
    have hpost : ((program ω V).code .reader (s.loc .reader)).Post (Data.perform .reader)
        (fun ev' => (s.loc .reader).pc.loads ev' = news)
        (fun l _ d => l.pc.Loaded (loaded ++ news) d.pipeline)
        ((program ω V).held s .reader) s.data := by
      rw [program_code_of_calls hcalls]
      exact Reader.loaded _ h
    rw [loadedIn_of_event hev hcalls, hnews]
    refine hstep.post (Label.actor_of_event hev) (fun ev' hev' => ?_) (fun hlab => ?_) hpost
    · rw [hev] at hev'
      obtain ⟨-, rfl⟩ := Prod.mk.inj (Option.some.inj hev')
      exact hnews
    · rw [hlab] at hev
      cases hev

theorem LoadRun.loaded {x : SysState ω V × List ProcStat} (hx : LoadRun ok x) :
    (x.1.loc .reader).pc.Loaded x.2 x.1.data.pipeline := by
  refine Reach.invariant (I := fun x => (x.1.loc .reader).pc.Loaded x.2 x.1.data.pipeline) hx ?_ ?_
  · rintro x ⟨⟨-, hloc, hdata⟩, -⟩
    rw [hloc, hdata.pipeline]
    exact List.nil_sublist _
  · rintro x lab x' - h - ⟨hstep, hloaded⟩
    rw [hloaded]
    exact loaded_step hstep h

/-! ## From one end to the other -/

theorem Run.tiles (hs : Run (program ω V).UnlocksSucceed s) :
    Tiles CpuUsageInfo.calculate s.data.pipeline.procStatCbuf.written
      s.data.pipeline.procStatCbuf.taken s.data.pipeline.usageInfoCbuf.written := by
  have h : (s.loc .analyzer).pc.Intervals s.data.pipeline := by
    refine Run.pipeline intervals_outline (fun t => ?_) (fun s lab hs hok t ev hev ht => ?_) hs
      .analyzer
    · cases t with
      | analyzer => exact Sampling.empty
      | _ => trivial
    · exact Run.unlock_succeeds (fun _ _ h => h) hs hok hev ht
  obtain ⟨current, pending, hsampled⟩ := h.sampled
  exact Sampling.tiles hsampled

/-- The states reached by runs whose steps all meet `ok`, each with the samples loaded and with what
the printer's buffer held when it was allocated. -/
def ScreenRun (ok : SysState ω V → SysLabel ω V → Prop) :
    SysState ω V × List ProcStat × Option (CpuUsageInfo V) → Prop :=
  Reach (fun x => Init x.1 ∧ x.2 = ([], none))
    (Recorded (recordBoth recordLoaded recordFresh) (Step (program ω V))) fun x lab => ok x.1 lab

theorem screen_shows {x : SysState ω V × List ProcStat × Option (CpuUsageInfo V)}
    (hx : ScreenRun (program ω V).UnlocksSucceed x) :
    ∃ used, used.Sublist x.2.1 ∧
      x.1.data.pipeline.usageInfoCbuf.taken.Sublist (consecutive CpuUsageInfo.calculate used) ∧
      DisplaysFrom x.2.2 x.1.data.pipeline.usageInfoCbuf.taken
        (x.1.data.pipeline.printed ++ (x.1.loc .printer).pc.inHand) := by
  have hs : Run (program ω V).UnlocksSucceed x.1 := Reach.unrecorded hx
  have hload : LoadRun (program ω V).UnlocksSucceed (x.1, x.2.1) := Reach.memory_fst hx
  have hfresh : FreshRun (program ω V).UnlocksSucceed (x.1, x.2.2) := Reach.memory_snd hx
  have horder := hs.inOrder
  obtain ⟨reads, tile, -, -, htaken, htile, -, hrecords⟩ := hs.tiles
  refine ⟨tile.map Prod.snd, ?_, ?_, hfresh.displaying.displays⟩
  · -- used, read, written, loaded
    calc (tile.map Prod.snd).Sublist (reads.map Prod.snd) := htile.map _
      _ = x.1.data.pipeline.procStatCbuf.taken := htaken
      List.Sublist _ x.1.data.pipeline.procStatCbuf.written := horder.procStatCbuf.taken_sublist
      List.Sublist _ x.2.1 := hload.loaded.written
  · rw [← hrecords]
    exact horder.usageInfoCbuf.taken_sublist

/-- Two samples are loaded, and then the printer's second wait times out. -/
theorem screen_shows_twice :
    ∃ x : SysState Empty ℚ × List ProcStat × Option (CpuUsageInfo ℚ),
    x.1.data.pipeline.printed.map (·.values) = [[60], [60]] ∧ x.2.1.length = 2 ∧
      x.2.2.map (·.values) = some [] ∧
      ∃ used, used.Sublist x.2.1 ∧
        x.1.data.pipeline.usageInfoCbuf.taken.Sublist
          (consecutive CpuUsageInfo.calculate used) ∧
        DisplaysFrom x.2.2 x.1.data.pipeline.usageInfoCbuf.taken
          (x.1.data.pipeline.printed ++ (x.1.loc .printer).pc.inHand) := by
  have hrun : ((execAll ((program Empty ℚ).playRecorded (recordBoth recordLoaded recordFresh)
      [.reader, .analyzer, .printer, .logger, .watchdog] fun _ _ => true)
      (initialState, [], none)
      (steps .reader 30 (.userIdle 10 10) ++ steps .analyzer 30 (.userIdle 0 0) ++
        steps .reader 20 (.userIdle 40 30) ++ steps .analyzer 40 (.userIdle 0 0) ++
        steps .printer 37 (.userIdle 0 0) ++ [.env (.tick 2000000000), .wake .printer .timedout] ++
        steps .printer 30 (.userIdle 0 0))).any fun x =>
      x.1.data.pipeline.printed.map (·.values) == [[60], [60]] && x.2.1.length == 2 &&
        x.2.2.map (·.values) == some []) = true := by
    decide +kernel
  obtain ⟨x, hx, hcheck⟩ := (Option.any_eq_true _ _).1 hrun
  simp only [Bool.and_eq_true, beq_iff_eq] at hcheck
  obtain ⟨⟨hprinted, hlength⟩, hfirst⟩ := hcheck
  have hreach : ScreenRun (program Empty ℚ).UnlocksSucceed x :=
    Reach.playRecorded (fun _ _ h _ => h.unlocksSucceed) (.start ⟨init_initialState, rfl⟩) hx
  exact ⟨x, hprinted, hlength, hfirst, screen_shows hreach⟩

end CpuUsageTracker
