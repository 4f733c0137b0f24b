import CpuUsageTracker.Library.Blocks
import CpuUsageTracker.System

/-!
# The analyzer's and the printer's memory

The two threads work on blocks that they get from `malloc`. In the source there are pointers to
them, and the analyzer swaps two of these. The thread functions of `CpuUsageTracker.System` have the
contents of the blocks instead, as values. This module has the pointers.

**Theorem (`analyzer_memory`).** Let what the analyzer does in a run be carried out on blocks. Then
it never touches a block that is not live, and it frees none twice. In the loop its three pointers
lead to three different blocks, which hold the values of the model. When the thread has ended, no
block is live, unless the first or the second allocation has failed: the blocks that were allocated
behind it are then left (`AnalyzerMemory.leaked`), because the error exits pass over them.

**Theorem (`printer_memory`).** The printer uses its only block in the same way, and leaves nothing
behind.

A thread's blocks are a memory of the run that only the thread itself changes (`MemoryRun`). The
release at the end counts as part of the step that leaves the loop: there is only a call of `Log` in
between.
-/

namespace CpuUsageTracker

open Threads

variable {ω V M : Type} {t : Thread ω}

/-! ## Memory of one thread -/

section

variable [DecidableEq ω] [PercentageValue V] {ok : SysState ω V → SysLabel ω V → Prop}
  {s s' : SysState ω V} {lab : SysLabel ω V}

/-- What the instruction at a location does to the memory when it gets a result. `none` is a
fault. -/
abbrev MemoryCode (V : Type) (t : Thread ω) (M : Type) :=
  Pc V t → Event (Input V) → Data ω V → M → Option M

variable {f : MemoryCode V t M} {φ : Pc V t → M → Prop} {m m₀ : M}

def recordMemory (f : MemoryCode V t M) (s : SysState ω V) (lab : SysLabel ω V) (m : Option M) :
    Option M :=
  match lab.event with
  | some (u, ev) =>
    if u = t ∧ (s.loc t).calls = [] then m.bind (f (s.loc t).pc ev s.data) else m
  | none => m

/-- The states reached by runs whose steps all meet `ok`, each with the memory. -/
def MemoryRun (f : MemoryCode V t M) (m₀ : M) (ok : SysState ω V → SysLabel ω V → Prop) :
    SysState ω V × Option M → Prop :=
  Reach (fun x => Init x.1 ∧ x.2 = some m₀) (Recorded (recordMemory f) (Step (program ω V)))
    fun x lab => ok x.1 lab

/-- No instruction leads to a fault, and `φ` holds again at the next location. -/
structure Keeps (f : MemoryCode V t M) (φ : Pc V t → M → Prop) : Prop where
  own : ∀ (pc : Pc V t) m o d ev, φ pc m →
    (body t pc : Code V (Loc V t)).Post (Data.perform t) (fun ev' => ev' = ev)
      (fun l _ _ => ∃ m', f pc ev d m = some m' ∧ φ l.pc m') o d
  awake : ∀ (pc : Pc V t) ms next, (body t pc : Code V (Loc V t)) ≠ .sleep ms next

theorem Keeps.step (h : Keeps f φ) (hstep : Step (program ω V) s lab s')
    (hm : φ (s.loc t).pc m) :
    ∃ m', recordMemory f s lab (some m) = some m' ∧ φ (s'.loc t).pc m' := by
  unfold recordMemory
  by_cases hown : lab.actor = some t ∧ (s.loc t).calls = []
  · obtain ⟨hactor, hcalls⟩ := hown
    cases hev : lab.event with
    | none =>
      refine ⟨m, rfl, ?_⟩
      have hpost : ((program ω V).code t (s.loc t)).Post (Data.perform t) (fun _ => False)
          (fun l _ _ => φ l.pc m) ((program ω V).held s t) s.data := by
        rw [program_code_of_calls hcalls]
        cases hbody : body t (s.loc t).pc with
        | call c next => exact fun r _ hr => hr.elim
        | act a next => exact fun i hi => hi.elim
        | sleep ms next => exact absurd hbody (h.awake _ ms next)
        | exit => trivial
      refine hstep.post hactor (fun ev hev' => ?_) (fun _ _ _ => hm) hpost
      rw [hev] at hev'
      cases hev'
    | some ev =>
      obtain ⟨u, ev⟩ := ev
      obtain rfl : u = t := Option.some.inj ((Label.actor_of_event hev).symm.trans hactor)
      simp only [hcalls, and_self, if_true, Option.bind_some]
      have hpost := h.own (s.loc u).pc m ((program ω V).held s u) s.data ev hm
      rw [← program_code_of_calls hcalls] at hpost
      refine hstep.post hactor (fun ev' hev' => ?_) (fun hlab => ?_) hpost
      · rw [hev] at hev'
        obtain ⟨-, rfl⟩ := Prod.mk.inj (Option.some.inj hev')
        rfl
      · rw [hlab] at hev
        cases hev
  · refine ⟨m, ?_, ?_⟩
    · split
      · rename_i u ev hev
        refine if_neg fun hu => hown ⟨?_, hu.2⟩
        rw [Label.actor_of_event hev, hu.1]
      · rfl
    · by_cases hactor : lab.actor = some t
      · rw [pc_of_calls hstep hactor fun hcalls => hown ⟨hactor, hcalls⟩]
        exact hm
      · rw [(hstep.unchanged hactor).2.2]
        exact hm

theorem MemoryRun.keeps (h : Keeps f φ) (h₀ : φ (start t) m₀) {x : SysState ω V × Option M}
    (hx : MemoryRun f m₀ ok x) : ∃ m, x.2 = some m ∧ φ (x.1.loc t).pc m := by
  refine Reach.invariant (I := fun x => ∃ m, x.2 = some m ∧ φ (x.1.loc t).pc m) hx ?_ ?_
  · rintro x ⟨⟨-, hloc, -⟩, hm⟩
    refine ⟨m₀, hm, ?_⟩
    rw [hloc]
    exact h₀
  · rintro x lab x' - ⟨m, hm, hφ⟩ - ⟨hstep, hm'⟩
    rw [hm', hm]
    exact h.step hstep hφ

end

/-! ## The analyzer's blocks -/

/-- What a block holds. The two kinds differ in size. -/
inductive Cell (V : Type)
  | procStat (x : ProcStat)
  | usageInfo (u : CpuUsageInfo V)

namespace Cell

variable {b : Blocks (Cell V)} {p : Option ℕ} {l : List (Option ℕ × Option (Cell V))}

def loadProcStat (b : Blocks (Cell V)) (p : Option ℕ) : Option ProcStat :=
  match b.load p with
  | some (.procStat x) => some x
  | _ => none

def loadUsageInfo (b : Blocks (Cell V)) (p : Option ℕ) : Option (CpuUsageInfo V) :=
  match b.load p with
  | some (.usageInfo u) => some u
  | _ => none

def storeProcStat (b : Blocks (Cell V)) (x : ProcStat) (p : Option ℕ) : Option (Blocks (Cell V)) :=
  (loadProcStat b p).bind fun _ => b.store (.procStat x) p

def storeUsageInfo (b : Blocks (Cell V)) (u : CpuUsageInfo V) (p : Option ℕ) :
    Option (Blocks (Cell V)) :=
  (loadUsageInfo b p).bind fun _ => b.store (.usageInfo u) p

theorem loadProcStat_eq {x : ProcStat} (h : b.Holds ((p, some (.procStat x)) :: l)) :
    loadProcStat b p = some x := by
  rw [loadProcStat, h.load]

theorem loadUsageInfo_eq {u : CpuUsageInfo V} (h : b.Holds ((p, some (.usageInfo u)) :: l)) :
    loadUsageInfo b p = some u := by
  rw [loadUsageInfo, h.load]

theorem storeProcStat_eq {x : ProcStat} (h : b.Holds ((p, some (.procStat x)) :: l))
    (y : ProcStat) :
    ∃ b', storeProcStat b y p = some b' ∧ b'.Holds ((p, some (.procStat y)) :: l) := by
  rw [storeProcStat, loadProcStat_eq h]
  exact h.store rfl _

theorem storeUsageInfo_eq {u : CpuUsageInfo V} (h : b.Holds ((p, some (.usageInfo u)) :: l))
    (v : CpuUsageInfo V) :
    ∃ b', storeUsageInfo b v p = some b' ∧ b'.Holds ((p, some (.usageInfo v)) :: l) := by
  rw [storeUsageInfo, loadUsageInfo_eq h]
  exact h.store rfl _

end Cell

/-- The analyzer's blocks and its pointers to them, which are null before their allocation. -/
structure AnalyzerMemory (V : Type) where
  blocks : Blocks (Cell V)
  oldStatBuffer : Option ℕ
  newStatBuffer : Option ℕ
  usageInfoBuffer : Option ℕ

namespace AnalyzerMemory

def start : AnalyzerMemory V := ⟨.empty, none, none, none⟩

def mallocOld (m : AnalyzerMemory V) (x : Option ProcStat) : AnalyzerMemory V :=
  { m with
    oldStatBuffer := (m.blocks.malloc (x.map .procStat)).1
    blocks := (m.blocks.malloc (x.map .procStat)).2 }

def mallocNew (m : AnalyzerMemory V) (x : Option ProcStat) : AnalyzerMemory V :=
  { m with
    newStatBuffer := (m.blocks.malloc (x.map .procStat)).1
    blocks := (m.blocks.malloc (x.map .procStat)).2 }

def mallocUsageInfo (m : AnalyzerMemory V) (u : Option (CpuUsageInfo V)) : AnalyzerMemory V :=
  { m with
    usageInfoBuffer := (m.blocks.malloc (u.map .usageInfo)).1
    blocks := (m.blocks.malloc (u.map .usageInfo)).2 }

def free (m : AnalyzerMemory V) (ps : List (Option ℕ)) : Option (AnalyzerMemory V) :=
  (m.blocks.freeAll ps).map fun b => { m with blocks := b }

/-- The tests behind the allocations. -/
def testPointers (m : AnalyzerMemory V) : Option (AnalyzerMemory V) :=
  -- `error_exit_1` frees nothing
  if m.oldStatBuffer = none then some m
  -- `error_exit_2`
  else if m.newStatBuffer = none then m.free [m.oldStatBuffer]
  -- `error_exit_3`
  else if m.usageInfoBuffer = none then m.free [m.newStatBuffer, m.oldStatBuffer]
  else some m

/-- `CircularBuffer_read` of an item that there is. -/
def read (m : AnalyzerMemory V) (x : ProcStat) : Option (AnalyzerMemory V) :=
  (Cell.storeProcStat m.blocks x m.newStatBuffer).map fun b => { m with blocks := b }

def calculate [PercentageValue V] (m : AnalyzerMemory V) : Option (AnalyzerMemory V) :=
  match Cell.loadProcStat m.blocks m.oldStatBuffer, Cell.loadProcStat m.blocks m.newStatBuffer with
  | some old, some new =>
    (Cell.storeUsageInfo m.blocks (.calculate old new) m.usageInfoBuffer).map fun b =>
      { m with blocks := b }
  | _, _ => none

/-- `CircularBuffer_write` reads the block. -/
def write (m : AnalyzerMemory V) : Option (AnalyzerMemory V) :=
  (Cell.loadUsageInfo m.blocks m.usageInfoBuffer).map fun _ => m

def swap (m : AnalyzerMemory V) : AnalyzerMemory V :=
  { m with oldStatBuffer := m.newStatBuffer, newStatBuffer := m.oldStatBuffer }

/-- The end of an iteration. The messages at level `trace` read all blocks. -/
def endIteration (m : AnalyzerMemory V) : Option (AnalyzerMemory V) :=
  match Cell.loadProcStat m.blocks m.oldStatBuffer, Cell.loadProcStat m.blocks m.newStatBuffer,
    Cell.loadUsageInfo m.blocks m.usageInfoBuffer with
  | some _, some _, some _ => some m.swap
  | _, _, _ => none

def leaveLoop (m : AnalyzerMemory V) : Option (AnalyzerMemory V) :=
  m.free [m.newStatBuffer, m.oldStatBuffer, m.usageInfoBuffer]

/-- The pointers that lead to live blocks after the thread. -/
def leaked (m : AnalyzerMemory V) : List (Option ℕ) :=
  if m.oldStatBuffer = none then [m.newStatBuffer, m.usageInfoBuffer]
  else if m.newStatBuffer = none then [m.usageInfoBuffer]
  else []

end AnalyzerMemory

/-- `AnalyzerThread`, with its pointers. -/
def Analyzer.onEvent [DecidableEq ω] [PercentageValue V] :
    MemoryCode V (.analyzer : Thread ω) (AnalyzerMemory V)
  | .mallocOld, .act i, d, m =>
    some (m.mallocOld (d.perform (.analyzer : Thread ω) .mallocProcStat i).2)
  | .mallocNew _, .act i, d, m =>
    some (m.mallocNew (d.perform (.analyzer : Thread ω) .mallocProcStat i).2)
  | .mallocUsageInfo _ _, .act i, d, m =>
    (m.mallocUsageInfo (d.perform (.analyzer : Thread ω) .mallocUsageInfo i).2).testPointers
  | .head _, .act _, d, m => if d.killSwitch then m.leaveLoop else some m
  | .breakUnlockIn, .ret _, _, m => m.leaveLoop
  | .read _, .act i, d, m =>
    match (d.perform (.analyzer : Thread ω) (.pipe .procStatRead) i).2 with
    | some x => m.read x
    | none => some m
  | .notifyIn v, .ret _, _, m =>
    if v.oldStatBufferInitialized then m.calculate else some m.swap
  | .breakUnlockOut, .ret _, _, m => m.leaveLoop
  | .write _, .act _, _, m => m.write
  | .notifyOut _, .ret _, _, m => m.endIteration
  | _, _, _, m => some m

namespace AnalyzerMemory

/-- The pointers lead to blocks with these contents, and no other block is live. There are none for
a null pointer. -/
def Holds (m : AnalyzerMemory V) (old new : Option ProcStat) (u : Option (CpuUsageInfo V)) :
    Prop :=
  m.blocks.Holds [(m.oldStatBuffer, old.map .procStat), (m.newStatBuffer, new.map .procStat),
    (m.usageInfoBuffer, u.map .usageInfo)]

/-- The pointers lead to blocks with the values of the variables. -/
def HoldsVars (m : AnalyzerMemory V) (v : AnalyzerVars V) : Prop :=
  m.Holds v.oldStatBuffer v.newStatBuffer v.usageInfoBuffer

/-- The live blocks are the leaked ones. -/
def Released (m : AnalyzerMemory V) : Prop :=
  ∃ l, m.blocks.Holds l ∧ l.map Prod.fst = m.leaked

variable {m : AnalyzerMemory V} {old new : Option ProcStat} {u : Option (CpuUsageInfo V)}
  {v : AnalyzerVars V} {l k : List (Option ℕ × Option (Cell V))}

theorem holds_start : (start : AnalyzerMemory V).Holds none none none :=
  Blocks.Holds.null_cons.2 (Blocks.Holds.null_cons.2 (Blocks.Holds.null_cons.2 Blocks.holds_empty))

theorem Holds.mallocOld (h : m.Holds none none none) (x : Option ProcStat) :
    (m.mallocOld x).Holds x none none :=
  (Blocks.Holds.head_null h).2.malloc _

theorem Holds.mallocNew (h : m.Holds old none none) (x : Option ProcStat) :
    (m.mallocNew x).Holds old x none :=
  ((Blocks.Holds.swap h).head_null.2.malloc _).swap

theorem Holds.mallocUsageInfo (h : m.Holds old new none) (x : Option (CpuUsageInfo V)) :
    (m.mallocUsageInfo x).Holds old new x :=
  ((Blocks.Holds.rotate h).head_null.2.malloc _).rotate.rotate

theorem free_eq (h : m.blocks.Holds (l ++ k)) :
    ∃ m', m.free (l.map Prod.fst) = some m' ∧ m'.blocks.Holds k ∧ m'.leaked = m.leaked := by
  obtain ⟨b, hb, hl⟩ := h.freeAll
  exact ⟨{ m with blocks := b }, by rw [free, hb, Option.map_some], hl, rfl⟩

/-- No pointer is null where all three blocks have contents. -/
theorem HoldsVars.ne_none (h : m.HoldsVars v) :
    m.oldStatBuffer ≠ none ∧ m.newStatBuffer ≠ none ∧ m.usageInfoBuffer ≠ none :=
  ⟨Blocks.Holds.ne_none h, Blocks.Holds.ne_none (Blocks.Holds.swap h),
    Blocks.Holds.ne_none (Blocks.Holds.rotate h)⟩

theorem Holds.released (h : m.Holds none new u) : m.Released := by
  obtain ⟨hold, hblocks⟩ := Blocks.Holds.head_null h
  exact ⟨_, hblocks, (if_pos hold).symm⟩

theorem Holds.testPointers (h : m.Holds old new u) :
    ∃ m', m.testPointers = some m' ∧
      match old, new, u with
      | some old, some new, some u => m'.HoldsVars ⟨old, new, u, false⟩
      | _, _, _ => m'.Released := by
  cases old with
  | none =>
    have hold := (Blocks.Holds.head_null h).1
    exact ⟨m, by rw [AnalyzerMemory.testPointers, if_pos hold], h.released⟩
  | some old =>
    have hold : m.oldStatBuffer ≠ none := Blocks.Holds.ne_none h
    cases new with
    | none =>
      -- the first block is freed, and the third is left
      have hnew := (Blocks.Holds.swap h).head_null.1
      obtain ⟨m', hfree, hblocks, hleaked⟩ := free_eq (l := [_]) (k := [_, _]) h
      refine ⟨m', ?_, _, hblocks.head_null.2, ?_⟩
      · rw [AnalyzerMemory.testPointers, if_neg hold, if_pos hnew, ← hfree]
        rfl
      · rw [hleaked, leaked, if_neg hold, if_pos hnew]
        rfl
    | some new =>
      have hnew : m.newStatBuffer ≠ none := Blocks.Holds.ne_none (Blocks.Holds.swap h)
      cases u with
      | none =>
        have hu := (Blocks.Holds.rotate h).head_null.1
        obtain ⟨m', hfree, hblocks, hleaked⟩ :=
          free_eq (l := [_, _]) (k := [_]) (Blocks.Holds.swap h)
        refine ⟨m', ?_, _, hblocks.head_null.2, ?_⟩
        · rw [AnalyzerMemory.testPointers, if_neg hold, if_neg hnew, if_pos hu, ← hfree]
          rfl
        · rw [hleaked, leaked, if_neg hold, if_neg hnew]
          rfl
      | some u =>
        have hu : m.usageInfoBuffer ≠ none := Blocks.Holds.ne_none (Blocks.Holds.rotate h)
        refine ⟨m, ?_, h⟩
        rw [AnalyzerMemory.testPointers, if_neg hold, if_neg hnew, if_neg hu]

theorem HoldsVars.read (h : m.HoldsVars v) (x : ProcStat) :
    ∃ m', m.read x = some m' ∧ m'.HoldsVars { v with newStatBuffer := x } := by
  obtain ⟨b, hb, hblocks⟩ := Cell.storeProcStat_eq (Blocks.Holds.swap h) x
  exact ⟨{ m with blocks := b }, by rw [AnalyzerMemory.read, hb, Option.map_some], hblocks.swap⟩

theorem HoldsVars.swap (h : m.HoldsVars v) : m.swap.HoldsVars v.swap := Blocks.Holds.swap h

theorem HoldsVars.loads (h : m.HoldsVars v) :
    Cell.loadProcStat m.blocks m.oldStatBuffer = some v.oldStatBuffer ∧
      Cell.loadProcStat m.blocks m.newStatBuffer = some v.newStatBuffer ∧
      Cell.loadUsageInfo m.blocks m.usageInfoBuffer = some v.usageInfoBuffer :=
  ⟨Cell.loadProcStat_eq h, Cell.loadProcStat_eq (Blocks.Holds.swap h),
    Cell.loadUsageInfo_eq (Blocks.Holds.rotate h)⟩

theorem HoldsVars.calculate [PercentageValue V] (h : m.HoldsVars v) :
    ∃ m', m.calculate = some m' ∧ m'.HoldsVars v.calculate := by
  obtain ⟨hold, hnew, -⟩ := h.loads
  obtain ⟨b, hb, hblocks⟩ := Cell.storeUsageInfo_eq (Blocks.Holds.rotate h)
    (.calculate v.oldStatBuffer v.newStatBuffer)
  refine ⟨{ m with blocks := b }, ?_, hblocks.rotate.rotate⟩
  simp only [AnalyzerMemory.calculate, hold, hnew, hb, Option.map_some]

theorem HoldsVars.endIteration (h : m.HoldsVars v) :
    ∃ m', m.endIteration = some m' ∧ m'.HoldsVars v.swap := by
  obtain ⟨hold, hnew, hu⟩ := h.loads
  refine ⟨m.swap, ?_, h.swap⟩
  rw [AnalyzerMemory.endIteration, hold, hnew, hu]

theorem HoldsVars.leaveLoop (h : m.HoldsVars v) :
    ∃ m', m.leaveLoop = some m' ∧ m'.Released := by
  obtain ⟨hold, hnew, -⟩ := h.ne_none
  obtain ⟨m', hfree, hblocks, hleaked⟩ :=
    free_eq (l := [_, _, _]) (k := []) (Blocks.Holds.swap h)
  refine ⟨m', hfree, _, hblocks, ?_⟩
  rw [hleaked, leaked, if_neg hold, if_neg hnew]
  rfl

theorem Released.live_iff (h : m.Released) (q : ℕ) :
    (m.blocks.cell q).isSome = true ↔ some q ∈ m.leaked := by
  obtain ⟨l, hblocks, hl⟩ := h
  rw [hblocks.live_iff, hl]

/-- What the memory is like when the analyzer is at a location. -/
def At (m : AnalyzerMemory V) : AnalyzerPc V → Prop
  | .threadInfoSet | .mallocOld => m.Holds none none none
  | .mallocNew old => m.Holds old none none
  | .mallocUsageInfo old new => m.Holds old new none
  | .head v | .lockIn v | .waitingIn v _ | .killTestIn v | .read v | .emptyUnlock v | .unlockIn v
  | .notifyIn v | .lockOut v | .waitingOut v _ | .killTestOut v | .write v | .unlockOut v
  | .notifyOut v => m.HoldsVars v
  | .breakUnlockIn | .breakUnlockOut => ∃ v, m.HoldsVars v
  | .exited => m.Released

end AnalyzerMemory

/-- The variables in the loop. -/
def AnalyzerPc.vars : AnalyzerPc V → Option (AnalyzerVars V)
  | .head v | .lockIn v | .waitingIn v _ | .killTestIn v | .read v | .emptyUnlock v | .unlockIn v
  | .notifyIn v | .lockOut v | .waitingOut v _ | .killTestOut v | .write v | .unlockOut v
  | .notifyOut v => some v
  | .threadInfoSet | .mallocOld | .mallocNew _ | .mallocUsageInfo _ _ | .breakUnlockIn
  | .breakUnlockOut | .exited => none

theorem AnalyzerMemory.At.holdsVars {m : AnalyzerMemory V} {pc : AnalyzerPc V} {v : AnalyzerVars V}
    (h : m.At pc) (hv : pc.vars = some v) : m.HoldsVars v := by
  cases pc <;> cases hv <;> exact h

section

variable [DecidableEq ω] [PercentageValue V] {ok : SysState ω V → SysLabel ω V → Prop}

theorem Analyzer.keeps : Keeps (t := (.analyzer : Thread ω)) (Analyzer.onEvent (V := V))
    (fun pc m => m.At pc) where
  own pc m o d ev h := by
    cases pc with
    | threadInfoSet =>
      intro i hev
      refine ⟨m, rfl, ?_⟩
      dsimp only
      split
      · exact h
      · exact AnalyzerMemory.Holds.released h
    | mallocOld =>
      rintro i rfl
      exact ⟨_, rfl, AnalyzerMemory.Holds.mallocOld h _⟩
    | mallocNew old =>
      rintro i rfl
      exact ⟨_, rfl, AnalyzerMemory.Holds.mallocNew h _⟩
    | mallocUsageInfo old new =>
      -- the tests of the pointers come out as the tests of the results in the thread's function
      rintro i rfl
      obtain ⟨m', hm', hnext⟩ := (AnalyzerMemory.Holds.mallocUsageInfo h
        (d.perform (.analyzer : Thread ω) .mallocUsageInfo i).2).testPointers
      refine ⟨m', hm', ?_⟩
      revert hnext
      generalize (d.perform (.analyzer : Thread ω) .mallocUsageInfo i).2 = u
      rcases old with _ | old <;> rcases new with _ | new <;> rcases u with _ | u <;>
        exact id
    | head v =>
      rintro i rfl
      cases hk : d.killSwitch with
      | true =>
        obtain ⟨m', hm', hreleased⟩ := AnalyzerMemory.HoldsVars.leaveLoop h
        refine ⟨m', by simp [Analyzer.onEvent, hk, hm'], ?_⟩
        simp only [Data.perform, hk, if_true]
        exact hreleased
      | false =>
        refine ⟨m, by simp [Analyzer.onEvent, hk], ?_⟩
        simp only [Data.perform, hk]
        exact h
    | waitingIn v w | waitingOut v w =>
      refine WaitLoop.post_of_data _ (Q := fun pc _ =>
        ∃ m', Analyzer.onEvent _ ev d m = some m' ∧ m'.At pc) (fun _ => ?_) ?_ w <;>
        exact ⟨m, rfl, h⟩
    | killTestIn v | killTestOut v =>
      intro i hev
      refine ⟨m, rfl, ?_⟩
      dsimp only
      split
      · exact ⟨v, h⟩
      · exact h
    | breakUnlockIn | breakUnlockOut =>
      obtain ⟨v, h⟩ := h
      obtain ⟨m', hm', hreleased⟩ := h.leaveLoop
      rintro r - rfl
      refine ⟨m', hm', ?_⟩
      rw [Control.pc_logUnless]
      exact hreleased
    | read v =>
      rintro i rfl
      cases hx : (d.perform (.analyzer : Thread ω) (.pipe .procStatRead) i).2 with
      | none => exact ⟨m, by simp only [Analyzer.onEvent, hx], h⟩
      | some x =>
        obtain ⟨m', hm', hread⟩ := AnalyzerMemory.HoldsVars.read h x
        exact ⟨m', by simp only [Analyzer.onEvent, hx, hm'], hread⟩
    | notifyIn v =>
      rintro r - rfl
      cases hinit : v.oldStatBufferInitialized with
      | true =>
        obtain ⟨m', hm', hcalculate⟩ := AnalyzerMemory.HoldsVars.calculate h
        refine ⟨m', by simp [Analyzer.onEvent, hinit, hm'], ?_⟩
        rw [Control.pc_logUnless, Analyzer.haveSample, if_pos hinit]
        exact hcalculate
      | false =>
        refine ⟨m.swap, by simp [Analyzer.onEvent, hinit], ?_⟩
        rw [Control.pc_logUnless, Analyzer.haveSample, if_neg (Bool.eq_false_iff.1 hinit)]
        exact AnalyzerMemory.HoldsVars.swap h
    | write v =>
      rintro i rfl
      refine ⟨m, ?_, h⟩
      show m.write = some m
      rw [AnalyzerMemory.write, (AnalyzerMemory.HoldsVars.loads h).2.2, Option.map_some]
    | notifyOut v =>
      rintro r - rfl
      obtain ⟨m', hm', hend⟩ := AnalyzerMemory.HoldsVars.endIteration h
      refine ⟨m', hm', ?_⟩
      dsimp only
      split <;> exact hend
    | emptyUnlock v =>
      intro r _ hev
      refine ⟨m, rfl, ?_⟩
      rw [Control.pc_logUnless]
      exact h
    | lockIn v | unlockIn v | lockOut v | unlockOut v =>
      intro r _ hev
      refine ⟨m, rfl, ?_⟩
      dsimp only
      split <;> exact h
    | exited => trivial
  awake pc ms next hsleep := by
    cases pc with
    | waitingIn v w | waitingOut v w => cases w <;> cases hsleep
    | _ => cases hsleep

theorem analyzer_memory {x : SysState ω V × Option (AnalyzerMemory V)}
    (hx : MemoryRun Analyzer.onEvent AnalyzerMemory.start ok x) :
    ∃ m, x.2 = some m ∧
      (∀ v, (x.1.loc .analyzer).pc.vars = some v → m.HoldsVars v) ∧
      ((x.1.loc .analyzer).pc = .exited →
        ∀ q, (m.blocks.cell q).isSome = true ↔ some q ∈ m.leaked) := by
  obtain ⟨m, hm, hat⟩ := hx.keeps Analyzer.keeps AnalyzerMemory.holds_start
  refine ⟨m, hm, fun v hv => hat.holdsVars hv, fun hexited => ?_⟩
  rw [hexited] at hat
  exact AnalyzerMemory.Released.live_iff hat

end

def AnalyzerPc.hasExited : AnalyzerPc V → Bool
  | .exited => true
  | _ => false

theorem AnalyzerPc.eq_exited {pc : AnalyzerPc V} (h : pc.hasExited = true) : pc = .exited := by
  cases pc with
  | exited => rfl
  | _ => cases h

/-- The analyzer takes one sample, and then the program ends. -/
def oneSample : List (Move (Thread Empty) (Input ℚ) Data.Env) :=
  [steps .reader 25 (.userIdle 7 9), steps .analyzer 17 (.userIdle 0 0), [.env .signal],
    steps .analyzer 1 (.userIdle 0 0)].flatten

/-- The pointers have been exchanged, and nothing is left behind. -/
theorem analyzer_memory_oneSample : ∃ x : SysState Empty ℚ × Option (AnalyzerMemory ℚ),
    (x.1.loc .analyzer).pc = .exited ∧ ∃ m, x.2 = some m ∧
      (m.oldStatBuffer, m.newStatBuffer, m.leaked) = (some 1, some 0, []) ∧
      ∀ q, (m.blocks.cell q).isSome = true ↔ some q ∈ m.leaked := by
  have hrun : ((execAll ((program Empty ℚ).playRecorded (recordMemory Analyzer.onEvent)
      [.reader, .analyzer, .printer, .logger, .watchdog] fun _ _ => true)
      (initialState, some AnalyzerMemory.start) oneSample).any fun x =>
      (x.1.loc .analyzer).pc.hasExited &&
        x.2.map (fun m => (m.oldStatBuffer, m.newStatBuffer, m.leaked)) ==
          some (some 1, some 0, [])) = true := by
    decide +kernel
  obtain ⟨x, hx, hcheck⟩ := (Option.any_eq_true _ _).1 hrun
  rw [Bool.and_eq_true, beq_iff_eq] at hcheck
  obtain ⟨hexited, hpointers⟩ := hcheck
  have hreach : MemoryRun Analyzer.onEvent AnalyzerMemory.start
      (program Empty ℚ).UnlocksSucceed x :=
    Reach.playRecorded (fun _ _ h _ => h.unlocksSucceed) (.start ⟨init_initialState, rfl⟩) hx
  obtain ⟨m, hm, -, hlive⟩ := analyzer_memory hreach
  rw [hm] at hpointers
  exact ⟨x, AnalyzerPc.eq_exited hexited, m, hm, Option.some.inj hpointers,
    hlive (AnalyzerPc.eq_exited hexited)⟩

/-! ## The printer's block -/

structure PrinterMemory (V : Type) where
  blocks : Blocks (CpuUsageInfo V)
  usageInfoBuffer : Option ℕ

namespace PrinterMemory

def start : PrinterMemory V := ⟨.empty, none⟩

def malloc (m : PrinterMemory V) (u : Option (CpuUsageInfo V)) : PrinterMemory V where
  blocks := (m.blocks.malloc u).2
  usageInfoBuffer := (m.blocks.malloc u).1

def free (m : PrinterMemory V) : Option (PrinterMemory V) :=
  (m.blocks.free m.usageInfoBuffer).map fun b => { m with blocks := b }

/-- `CircularBuffer_read` of an item that there is. -/
def read (m : PrinterMemory V) (u : CpuUsageInfo V) : Option (PrinterMemory V) :=
  (m.blocks.store u m.usageInfoBuffer).map fun b => { m with blocks := b }

/-- `printFormattedCpuUsage` reads the block. -/
def print (m : PrinterMemory V) : Option (PrinterMemory V) :=
  (m.blocks.load m.usageInfoBuffer).map fun _ => m

end PrinterMemory

/-- `PrinterThread`, with its pointer. -/
def Printer.onEvent [DecidableEq ω] : MemoryCode V (.printer : Thread ω) (PrinterMemory V)
  | .malloc, .act i, d, m =>
    some (m.malloc (d.perform (.printer : Thread ω) .mallocUsageInfo i).2)
  | .head _, .act _, d, m => if d.killSwitch then m.free else some m
  | .breakUnlock, .ret _, _, m => m.free
  | .read _, .act i, d, m =>
    match (d.perform (.printer : Thread ω) (.pipe .usageInfoRead) i).2 with
    | some u => m.read u
    | none => some m
  | .print _, .act _, _, m => m.print
  | _, _, _, m => some m

namespace PrinterMemory

variable {m : PrinterMemory V} {u : CpuUsageInfo V}

/-- The pointer leads to the only live block. -/
def HoldsVar (m : PrinterMemory V) (u : CpuUsageInfo V) : Prop :=
  m.blocks.Holds [(m.usageInfoBuffer, some u)]

theorem malloc_some (h : m.blocks.Holds []) (u : CpuUsageInfo V) : (m.malloc u).HoldsVar u :=
  h.malloc (some u)

theorem HoldsVar.free (h : m.HoldsVar u) : ∃ m', m.free = some m' ∧ m'.blocks.Holds [] := by
  obtain ⟨b, hb, hblocks⟩ := Blocks.Holds.free h
  exact ⟨{ m with blocks := b }, by rw [PrinterMemory.free, hb, Option.map_some], hblocks⟩

theorem HoldsVar.read (h : m.HoldsVar u) (u' : CpuUsageInfo V) :
    ∃ m', m.read u' = some m' ∧ m'.HoldsVar u' := by
  obtain ⟨b, hb, hblocks⟩ := Blocks.Holds.store h rfl u'
  exact ⟨{ m with blocks := b }, by rw [PrinterMemory.read, hb, Option.map_some], hblocks⟩

theorem HoldsVar.print (h : m.HoldsVar u) : m.print = some m := by
  rw [PrinterMemory.print, Blocks.Holds.load h, Option.map_some]

/-- What the memory is like when the printer is at a location. -/
def At (m : PrinterMemory V) : PrinterPc V → Prop
  | .threadInfoSet | .malloc | .exited => m.blocks.Holds []
  | .head u | .lock u | .waiting u _ | .killTest u | .read u | .unlock u | .print u => m.HoldsVar u
  | .breakUnlock => ∃ u, m.HoldsVar u

end PrinterMemory

/-- What the block holds in the loop. -/
def PrinterPc.usageInfoBuffer : PrinterPc V → Option (CpuUsageInfo V)
  | .head u | .lock u | .waiting u _ | .killTest u | .read u | .unlock u | .print u => some u
  | .threadInfoSet | .malloc | .breakUnlock | .exited => none

section

variable [DecidableEq ω] [PercentageValue V] {ok : SysState ω V → SysLabel ω V → Prop}

theorem Printer.keeps : Keeps (t := (.printer : Thread ω)) (Printer.onEvent (V := V))
    (fun pc m => m.At pc) where
  own pc m o d ev h := by
    cases pc with
    | threadInfoSet =>
      intro i hev
      refine ⟨m, rfl, ?_⟩
      dsimp only
      split <;> exact h
    | malloc =>
      rintro i rfl
      refine ⟨_, rfl, ?_⟩
      simp only [Data.perform]
      split
      · exact PrinterMemory.malloc_some h _
      · exact h
    | head u =>
      rintro i rfl
      cases hk : d.killSwitch with
      | true =>
        obtain ⟨m', hm', hfree⟩ := PrinterMemory.HoldsVar.free h
        refine ⟨m', by simp [Printer.onEvent, hk, hm'], ?_⟩
        simp only [Data.perform, hk, if_true]
        exact hfree
      | false =>
        refine ⟨m, by simp [Printer.onEvent, hk], ?_⟩
        simp only [Data.perform, hk]
        exact h
    | waiting u w =>
      refine WaitLoop.post_of_data _ (Q := fun pc _ =>
        ∃ m', Printer.onEvent _ ev d m = some m' ∧ m'.At pc) (fun _ => ?_) ?_ w <;>
        exact ⟨m, rfl, h⟩
    | killTest u =>
      intro i hev
      refine ⟨m, rfl, ?_⟩
      dsimp only
      split
      · exact ⟨u, h⟩
      · exact h
    | breakUnlock =>
      obtain ⟨u, h⟩ := h
      obtain ⟨m', hm', hfree⟩ := h.free
      rintro r - rfl
      refine ⟨m', hm', ?_⟩
      rw [Control.pc_logUnless]
      exact hfree
    | read u =>
      rintro i rfl
      cases hx : (d.perform (.printer : Thread ω) (.pipe .usageInfoRead) i).2 with
      | none => exact ⟨m, by simp only [Printer.onEvent, hx], h⟩
      | some x =>
        obtain ⟨m', hm', hread⟩ := PrinterMemory.HoldsVar.read h x
        exact ⟨m', by simp only [Printer.onEvent, hx, hm'], hread⟩
    | print u =>
      rintro i rfl
      exact ⟨m, PrinterMemory.HoldsVar.print h, h⟩
    | lock u | unlock u =>
      intro r _ hev
      refine ⟨m, rfl, ?_⟩
      dsimp only
      split <;> exact h
    | exited => trivial
  awake pc ms next hsleep := by
    cases pc with
    | waiting u w => cases w <;> cases hsleep
    | _ => cases hsleep

theorem printer_memory {x : SysState ω V × Option (PrinterMemory V)}
    (hx : MemoryRun Printer.onEvent PrinterMemory.start ok x) :
    ∃ m, x.2 = some m ∧
      (∀ u, (x.1.loc .printer).pc.usageInfoBuffer = some u → m.HoldsVar u) ∧
      ((x.1.loc .printer).pc = .exited → m.blocks.Holds []) := by
  have hstart : (PrinterMemory.start : PrinterMemory V).At .threadInfoSet := Blocks.holds_empty
  obtain ⟨m, hm, hat⟩ := hx.keeps Printer.keeps hstart
  refine ⟨m, hm, fun u hu => ?_, fun hexited => ?_⟩
  · generalize (x.1.loc .printer).pc = pc at *
    cases pc <;> cases hu <;> exact hat
  · rw [hexited] at hat
    exact hat

end

end CpuUsageTracker
