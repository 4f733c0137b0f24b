import CpuUsageTracker.Ownership

/-!
# The monitors of the pipeline and of the watchdog

`procStatMtx`, `usageInfoMtx` and `g_timestampsMtx` each guard one object: the two buffers and
`g_timestamps` (`Act.guard`).

**Theorem (`monitorDiscipline`).** In every run in which unlocking an owned mutex succeeds,
whatever the timed calls return and whenever the kill switch is activated, the threads access the
three objects only under their mutexes, unlock and wait with these mutexes only as their owners,
own at most one of them, and own none at the heads of their loops or at their ends.

All parts are read off from `Run.ownership`, given what an instruction needs: an access, an unlock
or a wait names the mutex that the location owns, and an exit owns none.
-/

namespace CpuUsageTracker

open Threads

variable {ω V : Type}

def PipeTest.guard : PipeTest → Mutex
  | procStatIsEmpty | procStatIsFull => .procStatMtx
  | usageInfoIsEmpty | usageInfoIsFull => .usageInfoMtx

def PipeAct.guard : PipeAct V → Option Mutex
  | test x => some x.guard
  | procStatWrite _ | procStatRead => some .procStatMtx
  | usageInfoWrite _ | usageInfoRead => some .usageInfoMtx
  | loadFromFile | destroy _ | print _ => none

/-- The mutex of the object that the action accesses. -/
def Act.guard : Act V → Option Mutex
  | stamp _ | setTimestamp _ _ | initTimestamps _ | timestamps => some .gTimestampsMtx
  | pipe a => a.guard
  | _ => none

def monitorMutexes : Set Mutex := {.procStatMtx, .usageInfoMtx, .gTimestampsMtx}

section

variable [DecidableEq ω] [PercentageValue V]

structure MonitorDiscipline (s : SysState ω V) : Prop where
  access : ∀ t a next m, s.status t = .ready → (program ω V).code t (s.loc t) = .act a next →
    a.guard = some m → s.owner m = some t
  /-- Where it goes on without an alarm, the source reads `g_timestamps[iiOldest]` once more. -/
  killTest : ∀ iiOldest oldest, s.loc .watchdog = .goto (.killTest iiOldest oldest) →
    s.owner .gTimestampsMtx = some .watchdog
  unlock : ∀ t m next, m ∈ monitorMutexes → s.status t = .ready →
    (program ω V).code t (s.loc t) = .call (.unlock m) next → s.owner m = some t
  wait : ∀ t c m timePoint next, m ∈ monitorMutexes → s.status t = .ready →
    (program ω V).code t (s.loc t) = .call (.waitUntil c m timePoint) next → s.owner m = some t
  single : ∀ t, ∀ m ∈ monitorMutexes, ∀ n ∈ monitorMutexes,
    s.owner m = some t → s.owner n = some t → m = n
  readerHead : s.loc .reader = .goto .head → ∀ m ∈ monitorMutexes, s.owner m ≠ some .reader
  analyzerHead : ∀ v, s.loc .analyzer = .goto (.head v) →
    ∀ m ∈ monitorMutexes, s.owner m ≠ some .analyzer
  printerHead : ∀ u, s.loc .printer = .goto (.head u) →
    ∀ m ∈ monitorMutexes, s.owner m ≠ some .printer
  exited : ∀ t, (program ω V).code t (s.loc t) = .exit →
    ∀ m ∈ monitorMutexes, s.owner m ≠ some t

end

theorem monitorMutexes_subset (t : Thread ω) : monitorMutexes ⊆ concerned t := by
  rintro m (rfl | rfl | rfl) <;> cases t <;> simp [concerned]

/-! ## What an instruction needs -/

theorem PipeTest.guard_mem (x : PipeTest) : x.guard ∈ monitorMutexes := by
  cases x <;> simp [guard, monitorMutexes]

theorem PipeAct.guard_mem {a : PipeAct V} {m : Mutex} (h : a.guard = some m) :
    m ∈ monitorMutexes := by
  cases a with
  | test x =>
    obtain rfl := Option.some.inj h
    exact x.guard_mem
  | loadFromFile | destroy _ | print _ => cases h
  | _ =>
    obtain rfl := Option.some.inj h
    simp [monitorMutexes]

theorem Act.guard_mem {a : Act V} {m : Mutex} (h : a.guard = some m) : m ∈ monitorMutexes := by
  cases a with
  | pipe b => exact b.guard_mem h
  | stamp _ | setTimestamp _ _ | initTimestamps _ | timestamps =>
    obtain rfl := Option.some.inj h
    simp [monitorMutexes]
  | _ => cases h

theorem WaitLoop.guards (w : WaitLoop) {P : Type} {here : WaitPc → P} {exit : Control P}
    {pc : WaitPc} {a : Act V} {next : a.Result → Control P} {m : Mutex}
    (h : w.code here exit pc = .act a next) (hm : a.guard = some m) : w.test.guard = m := by
  cases pc with
  | test tp =>
    cases h
    exact Option.some.inj hm
  | _ => cases h <;> cases hm

theorem Frame.guards {f : Frame} {a : Act V} {next : a.Result → List Frame} {m : Mutex}
    (h : f.code = .act a next) (hm : a.guard = some m) : f.owned = some m := by
  rcases f with pc | pc
  · cases pc <;> cases h <;> cases hm
  · cases pc <;> cases h <;> exact hm

section

variable [PercentageValue V] {t : Thread ω} {pc : Pc V t} {m : Mutex}

/-- A thread function accesses an object only where it owns the mutex. -/
theorem body_guards {a : Act V} {next : a.Result → Loc V t} (h : body t pc = .act a next)
    (hm : a.guard = some m) : pcMutex t pc = some m := by
  cases t with
  | reader =>
    cases pc with
    | waiting p w => exact congrArg some (Reader.outNotFull.guards h hm)
    | _ => cases h <;> first | exact hm | cases hm
  | analyzer =>
    cases pc with
    | waitingIn v w => exact congrArg some (Analyzer.inNotEmpty.guards h hm)
    | waitingOut v w => exact congrArg some (Analyzer.outNotFull.guards h hm)
    | _ => cases h <;> first | exact hm | cases hm
  | printer =>
    cases pc with
    | waiting u w => exact congrArg some (Printer.inNotEmpty.guards h hm)
    | _ => cases h <;> first | exact hm | cases hm
  | logger =>
    cases pc with
    | drain k => cases k <;> cases h <;> cases hm
    | _ => cases h <;> cases hm
  | watchdog =>
    cases pc with
    | _ => cases h <;> first | exact hm | cases hm
  | other w =>
    cases pc
    cases h
    cases hm

theorem body_exit (h : body t pc = .exit) : pcMutex t pc = none := by
  cases t with
  | reader =>
    cases pc with
    | waiting p w => cases w <;> cases h
    | exited => rfl
    | _ => cases h
  | analyzer =>
    cases pc with
    | waitingIn v w | waitingOut v w => cases w <;> cases h
    | exited => rfl
    | _ => cases h
  | printer =>
    cases pc with
    | waiting u w => cases w <;> cases h
    | exited => rfl
    | _ => cases h
  | watchdog =>
    cases pc with
    | exited r => rfl
    | _ => cases h
  | logger | other w => rfl

/-! ## What the annotation gives -/

variable {o : Set Mutex} {l : Loc V t}

theorem Owns.guards {a : Act V} {next : a.Result → Loc V t}
    (h : Owns (pcMutex t) (concerned t) o l) (hc : Control.code (body t) l = .act a next)
    (hm : a.guard = some m) : m ∈ o := by
  rw [h.mem_iff m (monitorMutexes_subset t (Act.guard_mem hm))]
  obtain ⟨calls, pc⟩ := l
  cases calls with
  | nil => exact .inl (body_guards hc hm)
  | cons f fs =>
    rw [Control.code] at hc
    obtain ⟨next', hf, -⟩ := Instr.map_eq_act hc
    exact .inr (Frame.guards hf hm)

theorem Owns.waits (h : Owns (pcMutex t) (concerned t) o l) (hm : m ∈ monitorMutexes)
    (hc : (Control.code (body t) l).waitsWith m) : m ∈ o := by
  rw [h.mem_iff m (monitorMutexes_subset t hm)]
  obtain ⟨calls, pc⟩ := l
  cases calls with
  | nil => exact .inl (body_waits hc (monitorMutexes_subset t hm))
  | cons f fs =>
    rw [Control.code, Instr.waitsWith_map] at hc
    exact absurd hc (f.not_waits m)

omit [PercentageValue V] in
/-- Among the calls, only those of `Watchdog_reportActive` own one of the three mutexes, and they
are made where the caller owns nothing. -/
theorem Owns.pcMutex_eq_none (h : Owns (pcMutex t) (concerned t) o l) (hm : m ∈ monitorMutexes)
    (hframe : l.frameMutex = some m) : pcMutex t l.pc = none := by
  obtain ⟨calls, pc⟩ := l
  cases calls with
  | nil => cases hframe
  | cons f fs =>
    refine h.report f List.mem_cons_self ?_
    rcases f with pc | pc
    · cases pc <;> cases hframe <;> simp [monitorMutexes] at hm
    · rfl

omit [PercentageValue V] in
theorem Owns.monitor_eq {n : Mutex} (h : Owns (pcMutex t) (concerned t) o l)
    (hm : m ∈ monitorMutexes) (hn : n ∈ monitorMutexes) (hmo : m ∈ o) (hno : n ∈ o) : m = n := by
  rw [h.mem_iff m (monitorMutexes_subset t hm)] at hmo
  rw [h.mem_iff n (monitorMutexes_subset t hn)] at hno
  rcases hmo with hpc | hframe
  · rcases hno with hpc' | hframe'
    · exact Option.some.inj (hpc.symm.trans hpc')
    · cases (h.pcMutex_eq_none hn hframe').symm.trans hpc
  · rcases hno with hpc' | hframe'
    · cases (h.pcMutex_eq_none hm hframe).symm.trans hpc'
    · exact Option.some.inj (hframe.symm.trans hframe')

omit [PercentageValue V] in
/-- A thread that is in no call owns what its location owns. -/
theorem Owns.not_mem (h : Owns (pcMutex t) (concerned t) o (.goto pc))
    (hpc : pcMutex t pc = none) (hm : m ∈ monitorMutexes) : m ∉ o := by
  rw [h.mem_iff m (monitorMutexes_subset t hm)]
  simp [Control.goto, Control.frameMutex, hpc]

end

variable [DecidableEq ω] [PercentageValue V]

theorem monitorDiscipline {s : SysState ω V} (hs : Run (program ω V).UnlocksSucceed s) :
    MonitorDiscipline s := by
  have howns := fun t => hs.ownership (fun _ _ h => h) t
  have hfree : ∀ (t : Thread ω) (pc : Pc V t), s.loc t = .goto pc → pcMutex t pc = none →
      ∀ m ∈ monitorMutexes, s.owner m ≠ some t := by
    intro t pc hloc hpc m hm howner
    have h := howns t
    rw [hloc] at h
    exact h.not_mem hpc hm (.inl howner)
  refine
    { access := fun t a next m hready hc hm => ?_
      killTest := fun iiOldest oldest hloc => ?_
      unlock := fun t m next hm hready hc => ?_
      wait := fun t c m timePoint next hm hready hc => ?_
      single := fun t m hm n hn hmo hno => (howns t).monitor_eq hm hn (.inl hmo) (.inl hno)
      readerHead := fun hloc => hfree .reader .head hloc rfl
      analyzerHead := fun v hloc => hfree .analyzer (.head v) hloc rfl
      printerHead := fun u hloc => hfree .printer (.head u) hloc rfl
      exited := fun t hc => ?_ }
  · exact (mem_held_of_ready hready m).1 ((howns t).guards hc hm)
  · have hmem : .gTimestampsMtx ∈ (program ω V).held s .watchdog := by
      rw [(howns .watchdog).mem_iff _ trivial, hloc]
      exact .inl rfl
    rcases hmem with howner | ⟨-, hwaits⟩
    · exact howner
    · rw [hloc] at hwaits
      exact hwaits.elim
  · exact (mem_held_of_ready hready m).1 ((howns t).unlocks (monitorMutexes_subset t hm) hc)
  · refine (mem_held_of_ready hready m).1 ((howns t).waits hm ?_)
    change ((program ω V).code t (s.loc t)).waitsWith m
    rw [hc]
    rfl
  · cases hloc : s.loc t with
    | mk calls pc =>
      rw [hloc] at hc
      cases calls with
      | nil => exact hfree t pc hloc (body_exit hc)
      | cons f fs =>
        rcases f with pc | pc <;> cases pc <;> cases hc

/-- The reader is about to write its sample, and the watchdog is about to wait. -/
theorem monitorDiscipline_write : ∃ s : SysState Empty ℚ,
    s.owner .procStatMtx = some .reader ∧ s.owner .gTimestampsMtx = some .watchdog ∧
      MonitorDiscipline s := by
  have hrun : ∃ s : SysState Empty ℚ, Run (program Empty ℚ).UnlocksSucceed s ∧
      (decide (s.owner .procStatMtx = some .reader) &&
        decide (s.owner .gTimestampsMtx = some .watchdog)) = true := by
    apply Run.play (fun _ _ => true) (fun _ _ hn _ => hn.unlocksSucceed)
      (steps .reader 12 (.userIdle 0 0) ++ steps .watchdog 5 (.userIdle 0 0))
    decide +kernel
  obtain ⟨s, hs, hcheck⟩ := hrun
  simp only [Bool.and_eq_true, decide_eq_true_eq] at hcheck
  exact ⟨s, hcheck.1, hcheck.2, monitorDiscipline hs⟩

end CpuUsageTracker
