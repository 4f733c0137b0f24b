import CpuUsageTracker.Deadlines
import CpuUsageTracker.MonitorDiscipline
import CpuUsageTracker.Responsiveness
import CpuUsageTracker.WatchdogVerdict

/-!
# The time points that the threads keep

The threads read the clock at different times and keep what they computed from it: `g_timestamps`,
the time points of their waits, and the reading that the watchdog compares the timestamps with.

**Theorem (`timePoints`).** In every run in which unlocking an owned mutex succeeds, every
timestamp is a reading of the clock, no thread waits for a time point that is more than two seconds
ahead, and where `timespecDifference` takes the oldest timestamp from the watchdog's reading, the
timestamp is not the later one of the two. For a later one its behaviour is undefined. The clock
only moves forward here (`Data.env`): nobody sets it back.

The first two parts hold in all runs, by an annotation of the locations (`PcTimes`). The third is
about the watchdog's own timestamp. No other thread changes it between the watchdog's reading and
the comparison, because the watchdog owns `g_timestampsMtx` (`ownStamp_outline`), and the oldest
timestamp is not later.
-/

namespace CpuUsageTracker

open Threads

/-- `t` is a reading of a clock that stands at `clock` now. The zeros that `g_timestamps` holds at
the beginning are a reading, too. -/
def ReadBy (clock : ℕ) (t : Timespec) : Prop := ∃ n ≤ clock, t = timespecGet n

/-- `t` is at most two seconds ahead of `clock`. -/
structure Near (clock : ℕ) (t : Timespec) : Prop where
  le : t.toNs ≤ clock + allowedNs

theorem ReadBy.mono {m n : ℕ} {t : Timespec} (h : ReadBy m t) (hmn : m ≤ n) : ReadBy n t := by
  obtain ⟨k, hk, rfl⟩ := h
  exact ⟨k, hk.trans hmn, rfl⟩

theorem Near.mono {m n : ℕ} {t : Timespec} (h : Near m t) (hmn : m ≤ n) : Near n t :=
  ⟨h.le.trans (Nat.add_le_add_right hmn _)⟩

theorem normalised_timespecGet (n : ℕ) : (timespecGet n).Normalised := by
  constructor <;> simp only [timespecGet] <;> omega

theorem nanoseconds_timespecGet (n : ℕ) : (timespecGet n).nanoseconds = n := by
  simp only [Timespec.nanoseconds, timespecGet]
  omega

theorem near_timePointMs (n : ℕ) : Near n (timePointMs (timespecGet n) 2000) := by
  have hvalue := (timePointMs_denotes (normalised_timespecGet n) 2000).nanoseconds
  simp only [deadline, nanoseconds_timespecGet] at hvalue
  constructor
  show (timePointMs (timespecGet n) 2000).nanoseconds.toNat ≤ n + 2000 * 1000000
  omega

/-- The seconds may wrap, and then the time point is in the past. -/
theorem toNs_timespecAdd_le (n : ℕ) :
    (timespecAdd (timespecGet n) Watchdog.allowedUnresponsiveTime).toNs ≤ n + allowedNs := by
  have hne : (timespecGet n).tvNsec + (2000 % 1000 : ℤ) * 1000000 ≠ 1000000000 := by
    have hlt := (normalised_timespecGet n).lt
    omega
  have hadd : timespecAdd (timespecGet n) (msToTimespec 2000) = _ :=
    timespecAdd_msToTimespec (normalised_timespecGet n) hne
  have hsum : deadline (timespecGet n) 2000 = n + 2000 * 1000000 := by
    simp only [deadline, nanoseconds_timespecGet]
    rfl
  show (timespecAdd (timespecGet n) (msToTimespec 2000)).toNs ≤ n + 2000 * 1000000
  simp only [hadd, Timespec.toNs, deadlineSeconds, hsum]
  omega

theorem ReadBy.near_timespecAdd {n : ℕ} {t : Timespec} (h : ReadBy n t) :
    Near n (timespecAdd t Watchdog.allowedUnresponsiveTime) := by
  obtain ⟨k, hk, rfl⟩ := h
  exact ⟨(toNs_timespecAdd_le k).trans (Nat.add_le_add_right hk _)⟩

/-! ## Annotations -/

/-- The time point in the wait loops. -/
def WaitPc.Times (clock : ℕ) : WaitPc → Prop
  | .timePoint => True
  | .test tp | .killSwitch tp | .wait tp => Near clock tp

def LoggerPc.Times (clock : ℕ) : LoggerPc → Prop
  | .isEmpty tp | .killSwitch tp | .wait tp => Near clock tp
  | _ => True

def WatchdogPc.Times (clock : ℕ) : WatchdogPc → Prop
  | .lock t | .initTimestamps t | .setTimestamp t | .findOldest t | .killTest _ t => ReadBy clock t
  | .head tp | .wait tp => Near clock tp
  | _ => True

/-- What a location says about the time points that the thread keeps. -/
def PcTimes {ω V : Type} (clock : ℕ) : (t : Thread ω) → Pc V t → Prop
  | .reader, .waiting _ w => w.Times clock
  | .analyzer, .waitingIn _ w => w.Times clock
  | .analyzer, .waitingOut _ w => w.Times clock
  | .printer, .waiting _ w => w.Times clock
  | .logger, pc => LoggerPc.Times clock pc
  | .watchdog, pc => WatchdogPc.Times clock pc
  | _, _ => True

variable {ω V : Type} {t u : Thread ω} {d : Data ω V} {a : Act V} {i : Input V} {o : Set Mutex}

theorem WaitPc.Times.mono {m n : ℕ} {pc : WaitPc} (h : pc.Times m) (hmn : m ≤ n) : pc.Times n := by
  cases pc with
  | timePoint => trivial
  | test | killSwitch | wait => exact Near.mono h hmn

theorem LoggerPc.Times.mono {m n : ℕ} {pc : LoggerPc} (h : pc.Times m) (hmn : m ≤ n) :
    pc.Times n := by
  cases pc with
  | isEmpty | killSwitch | wait => exact Near.mono h hmn
  | _ => trivial

theorem WatchdogPc.Times.mono {m n : ℕ} {pc : WatchdogPc} (h : pc.Times m) (hmn : m ≤ n) :
    pc.Times n := by
  cases pc with
  | lock | initTimestamps | setTimestamp | findOldest | killTest => exact ReadBy.mono h hmn
  | head | wait => exact Near.mono h hmn
  | _ => trivial

theorem PcTimes.mono {m n : ℕ} {pc : Pc V t} (h : PcTimes m t pc) (hmn : m ≤ n) :
    PcTimes n t pc := by
  cases t with
  | reader =>
    cases pc with
    | waiting p w => exact WaitPc.Times.mono h hmn
    | _ => trivial
  | analyzer =>
    cases pc with
    | waitingIn v w | waitingOut v w => exact WaitPc.Times.mono h hmn
    | _ => trivial
  | printer =>
    cases pc with
    | waiting u w => exact WaitPc.Times.mono h hmn
    | _ => trivial
  | logger => exact LoggerPc.Times.mono h hmn
  | watchdog => exact WatchdogPc.Times.mono h hmn
  | other w => trivial

/-- All timestamps are readings of the clock. -/
def Stamped (d : Data ω V) : Prop := ∀ tid, ReadBy d.clock (d.timestamps tid)

/-! ## The instructions -/

variable [DecidableEq ω]

theorem Stamped.perform (h : Stamped d) (ha : a.setsTimestamps = false) :
    Stamped (d.perform u a i).1 := by
  intro tid
  rw [Data.clock_perform]
  rcases Data.timestamps_perform (u := u) (i := i) ha tid with htid | htid <;> rw [htid]
  · exact h tid
  · exact ⟨_, le_refl _, rfl⟩

variable [PercentageValue V]

/-- The watchdog sets timestamps to what it has read before. -/
theorem Stamped.next {l : Loc V u} {next : a.Result → Loc V u} (h : Stamped d)
    (hl : PcTimes d.clock u l.pc) (hc : (program ω V).code u l = .act a next) :
    Stamped (d.perform u a i).1 := by
  by_cases ha : a.setsTimestamps = false
  · exact h.perform ha
  · have hu : u = .watchdog := by
      by_contra hu
      exact ha (program_setsTimestamps hu hc)
    subst hu
    obtain ⟨calls, pc⟩ := l
    cases calls with
    | nil =>
      cases pc <;> cases hc <;> try exact absurd rfl ha
      · exact fun _ => hl
      · intro tid
        have hnow : ReadBy d.clock _ := hl
        by_cases htid : tid = .watchdog
        · subst htid
          simpa [Data.perform] using hnow
        · simpa [Data.perform, htid] using h tid
    | cons f fs =>
      rw [program_code_cons] at hc
      obtain ⟨next', hf, -⟩ := Instr.map_eq_act hc
      exact absurd (Frame.setsTimestamps hf) ha

/-- The next location keeps near time points again. -/
def KeepsTimes (t : Thread ω) (o : Set Mutex) (d : Data ω V) (g : Code V (Loc V t)) : Prop :=
  g.Post (Data.perform t) (fun _ => True) (fun l _ d => PcTimes d.clock t l.pc) o d

omit [PercentageValue V] in
theorem WaitLoop.times (w : WaitLoop) (hms : w.ms = 2000) {here : WaitPc → Pc V t}
    {exit : Loc V t} (hhere : ∀ n x, PcTimes n t (here x) ↔ x.Times n)
    (hexit : ∀ n, PcTimes n t exit.pc) {pc : WaitPc} (h : pc.Times d.clock) :
    KeepsTimes t o d (w.code here exit pc) := by
  cases pc with
  | timePoint =>
    intro i _
    refine (hhere _ _).2 ?_
    simp only [WaitPc.Times, Data.perform, hms]
    exact near_timePointMs d.clock
  | test tp =>
    intro i _
    simp only
    split
    · exact (hhere _ _).2 h
    · exact hexit _
  | killSwitch tp =>
    intro i _
    simp only
    split
    · exact hexit _
    · exact (hhere _ _).2 h
  | wait tp =>
    intro r _ _
    cases r with
    | success | timedout => exact hexit _
    | error => exact (hhere _ _).2 h

omit [PercentageValue V] in
theorem Reader.times (pc : ReaderPc) (h : PcTimes (V := V) d.clock (.reader : Thread ω) pc) :
    KeepsTimes (.reader : Thread ω) o d (Reader.code pc) := by
  cases pc with
  | waiting p w => exact outNotFull.times rfl (fun _ _ => Iff.rfl) (fun _ => by trivial) h
  | load =>
    intro i _
    simp only
    split <;> trivial
  | _ => simp [KeepsTimes, code, exiting, PcTimes, WaitPc.Times]

theorem Analyzer.times (pc : AnalyzerPc V) (h : PcTimes d.clock (.analyzer : Thread ω) pc) :
    KeepsTimes (.analyzer : Thread ω) o d (Analyzer.code pc) := by
  cases pc with
  | waitingIn v w => exact inNotEmpty.times rfl (fun _ _ => Iff.rfl) (fun _ => by trivial) h
  | waitingOut v w => exact outNotFull.times rfl (fun _ _ => Iff.rfl) (fun _ => by trivial) h
  | mallocUsageInfo | read =>
    intro i _
    simp only
    split <;> trivial
  | notifyIn v =>
    intro r _ _
    have hpc : PcTimes d.clock (.analyzer : Thread ω) (haveSample v).pc := by
      unfold haveSample
      split <;> trivial
    rwa [Control.pc_logUnless]
  | _ => simp [KeepsTimes, code, exiting, PcTimes, WaitPc.Times]

omit [PercentageValue V] in
theorem Printer.times (pc : PrinterPc V) (h : PcTimes d.clock (.printer : Thread ω) pc) :
    KeepsTimes (.printer : Thread ω) o d (Printer.code pc) := by
  cases pc with
  | waiting u w => exact inNotEmpty.times rfl (fun _ _ => Iff.rfl) (fun _ => by trivial) h
  | malloc | read =>
    intro i _
    simp only
    split <;> trivial
  | _ => simp [KeepsTimes, code, exiting, PcTimes, WaitPc.Times]

omit [PercentageValue V] in
theorem Logger.times (pc : LoggerPc) (h : LoggerPc.Times d.clock pc) :
    KeepsTimes (.logger : Thread ω) o d (Logger.code pc) := by
  have hnext : ∀ n k x, LoggerPc.Times n (drainNext k x).pc := by
    intro n k x
    cases x with
    | none => cases k <;> trivial
    | some item => trivial
  cases pc with
  | drain k => cases k <;> exact fun i _ => hnext _ _ _
  | timePoint =>
    intro i _
    simp only [PcTimes, LoggerPc.Times, Control.pc_goto, Data.perform, condvarWaitTimeMs]
    exact near_timePointMs d.clock
  | isEmpty tp | killSwitch tp =>
    intro i _
    simp only
    split
    all_goals first | exact h | trivial
  | wait tp =>
    intro r _ _
    cases r with
    | error => exact h
    | _ => trivial
  | _ => simp [KeepsTimes, code, exiting, PcTimes, LoggerPc.Times]

omit [DecidableEq ω] [PercentageValue V] in
theorem Stamped.normalised (h : Stamped d) (tid : ThreadId) : (d.timestamps tid).Normalised := by
  obtain ⟨n, -, hn⟩ := h tid
  rw [hn]
  exact normalised_timespecGet n

omit [PercentageValue V] in
theorem Watchdog.times (hd : Stamped d) (pc : WatchdogPc) (h : WatchdogPc.Times d.clock pc) :
    KeepsTimes (.watchdog : Thread ω) o d (Watchdog.code pc) := by
  cases pc with
  | startTime | now => exact fun i _ => ⟨_, le_refl _, rfl⟩
  | lock time =>
    simp only [KeepsTimes, code, Instr.post_tryLock]
    exact ⟨fun _ _ => h, fun _ => trivial, fun _ => trivial⟩
  | initTimestamps time => exact fun i _ => ReadBy.near_timespecAdd h
  | head tp =>
    intro i _
    simp only
    split
    · trivial
    · exact h
  | wait tp =>
    intro r _ _
    cases r with
    | error => exact h
    | _ => trivial
  | setTimestamp time => exact fun i _ => h
  | findOldest time =>
    obtain ⟨tid, -, holdest⟩ := timestampsArray_getD d.timestamps
    intro i _
    simp only [Data.perform, check, holdest]
    split
    · exact hd tid
    · exact ReadBy.near_timespecAdd (hd tid)
  | killTest iiOldest oldest =>
    intro i _
    simp only
    split
    · exact ReadBy.near_timespecAdd h
    · trivial
  | _ => simp [KeepsTimes, code, PcTimes, WatchdogPc.Times]

theorem body_times (hd : Stamped d) (pc : Pc V t) (h : PcTimes d.clock t pc) :
    KeepsTimes t o d (body t pc) := by
  cases t with
  | reader => exact Reader.times pc h
  | analyzer => exact Analyzer.times pc h
  | printer => exact Printer.times pc h
  | logger => exact Logger.times pc h
  | watchdog => exact Watchdog.times hd pc h
  | other w =>
    cases pc
    intro i _
    trivial

/-! ## Runs -/

theorem times_outline : Outline (program ω V) (fun _ _ _ _ _ => True)
    fun t l _ d => Stamped d ∧ PcTimes d.clock t l.pc where
  own t l o d h := by
    obtain ⟨hd, hpc⟩ := h
    have hnext : ((program ω V).code t l).Post ((program ω V).perform t) (fun _ => True)
        (fun l _ d => PcTimes d.clock t l.pc) o d := by
      obtain ⟨calls, pc⟩ := l
      cases calls with
      | nil => exact body_times hd pc hpc
      | cons f fs =>
        rw [program_code_cons, Instr.post_map]
        cases (f.code : Code V (List Frame)) with
        | call c next => exact fun _ _ _ => hpc
        | act a next => exact fun i _ => hpc.mono (Data.clock_perform t a i d).ge
        | sleep ms next => exact hpc
        | exit => trivial
    cases hc : (program ω V).code t l with
    | call c next =>
      rw [hc] at hnext
      exact fun r hr ha => ⟨hd, hnext r hr ha⟩
    | act a next =>
      rw [hc] at hnext
      exact fun i ha => ⟨hd.next hpc hc, hnext i ha⟩
    | sleep ms next =>
      rw [hc] at hnext
      exact ⟨hd, hnext⟩
    | exit => trivial
  wait t l o d m _ h := h
  others t u htu l l' o o' d a next i h h' hc _ _ :=
    ⟨h.1.next h'.2 hc, h.2.mono (Data.clock_perform u a i d).ge⟩
  env t l o d e h := by
    have hle : d.clock ≤ (d.env e).clock := by cases e <;> simp [Data.env]
    refine ⟨fun tid => ?_, h.2.mono hle⟩
    have htid : (d.env e).timestamps tid = d.timestamps tid := by cases e <;> rfl
    rw [show ((program ω V).env e d) = d.env e from rfl, htid]
    exact (h.1 tid).mono hle

theorem Run.times {ok : SysState ω V → SysLabel ω V → Prop} {s : SysState ω V} (hs : Run ok s)
    (t : Thread ω) : Stamped s.data ∧ PcTimes s.data.clock t (s.loc t).pc := by
  refine Reach.outline times_outline (fun s hs => ⟨hs.1, fun t => ⟨fun tid => ?_, ?_⟩⟩)
    (fun _ _ _ _ _ _ _ => trivial) hs t
  · rw [hs.2.2.timestamps]
    exact ⟨0, Nat.zero_le _, rfl⟩
  · rw [hs.2.1]
    cases t <;> trivial

/-! ## The comparison -/

/-- The reading that the watchdog compares the timestamps with is its own timestamp. -/
def OwnStamp (timestamps : ThreadId → Timespec) : (t : Thread ω) → Loc V t → Prop
  | .watchdog, ⟨calls, .findOldest time⟩ => calls = [] ∧ timestamps .watchdog = time
  | _, _ => True

omit [DecidableEq ω] [PercentageValue V] in
theorem ownStamp_of_ne {timestamps : ThreadId → Timespec} (ht : t ≠ .watchdog) (l : Loc V t) :
    OwnStamp timestamps t l := by
  cases t with
  | watchdog => exact absurd rfl ht
  | _ => trivial

omit [PercentageValue V] in
theorem Data.timestamps_of_guard (h : a.guard ≠ some .gTimestampsMtx) :
    (d.perform u a i).1.timestamps = d.timestamps := by
  cases a with
  | stamp | setTimestamp | initTimestamps => exact absurd rfl h
  | _ => rfl

omit [PercentageValue V] in
theorem Watchdog.ownStamp (pc : WatchdogPc) :
    (code pc : Code V (Control WatchdogPc)).Post (Data.perform (.watchdog : Thread ω))
      (fun _ => True)
      (fun l _ d => OwnStamp (V := V) d.timestamps (.watchdog : Thread ω) l) o d := by
  cases pc with
  | setTimestamp time =>
    refine fun i _ => ⟨rfl, ?_⟩
    simp [Data.perform]
  | findOldest time =>
    intro i _
    simp only [check]
    split <;> trivial
  | wait tp =>
    intro r _ _
    cases r <;> trivial
  | finalUnlock retval =>
    intro r _ _
    cases r <;> trivial
  | raise ii retval =>
    intro i _
    simp only
    split <;> trivial
  | lock time =>
    intro r _ _
    cases r <;> trivial
  | head | killTest | threadInfoSet =>
    intro i _
    simp only
    split <;> trivial
  | exited => trivial
  | _ => exact fun i _ => trivial

theorem ownStamp_outline : Outline (program ω V)
    (fun t l o _ ev => ((program ω V).code t l).OnReturn (Call.UnlockSucceeds o) ev)
    fun t l o d => Owns (pcMutex t) (concerned t) o l ∧ OwnStamp d.timestamps t l where
  own t l o d h := by
    obtain ⟨howns, hstamp⟩ := h
    have hnext : ((program ω V).code t l).Post ((program ω V).perform t) (fun _ => True)
        (fun l _ d => OwnStamp d.timestamps t l) o d := by
      by_cases ht : t = .watchdog
      · subst ht
        obtain ⟨calls, pc⟩ := l
        cases calls with
        | nil => exact Watchdog.ownStamp pc
        | cons f fs =>
          rw [program_code_cons, Instr.post_map]
          refine Instr.post_of_forall (fun gs o d => ?_) _
          cases pc with
          | findOldest time => exact absurd hstamp.1 (List.cons_ne_nil _ _)
          | _ => trivial
      · exact Instr.post_of_forall (fun _ _ _ => ownStamp_of_ne ht _) _
    exact ((ownership_outline.own t l o d howns).and hnext).mono (fun _ _ _ h => h)
      fun ev h => ⟨h, trivial⟩
  wait t l o d m hm h := ⟨ownership_outline.wait t l o d m hm h.1, h.2⟩
  others t u htu l l' o o' d a next i h h' hc _ hapart := by
    refine ⟨h.1, ?_⟩
    obtain ⟨howns, hstamp⟩ := h
    by_cases hguard : a.guard = some .gTimestampsMtx
    · have hmem : .gTimestampsMtx ∈ o' := h'.1.guards hc hguard
      by_cases ht : t = .watchdog
      · subst ht
        obtain ⟨calls, pc⟩ := l
        cases pc with
        | findOldest time =>
          obtain rfl : calls = [] := hstamp.1
          have hown : .gTimestampsMtx ∈ o := (howns.mem_iff _ trivial).2 (.inl rfl)
          exact (hapart _ hown hmem).elim
        | _ => trivial
      · exact ownStamp_of_ne ht l
    · show OwnStamp (d.perform u a i).1.timestamps t l
      rw [Data.timestamps_of_guard hguard]
      exact hstamp
  env t l o d e h := by
    have htimestamps : (d.env e).timestamps = d.timestamps := by cases e <;> rfl
    refine ⟨h.1, ?_⟩
    show OwnStamp (d.env e).timestamps t l
    rw [htimestamps]
    exact h.2

theorem Run.ownStamp {s : SysState ω V} (hs : Run (program ω V).UnlocksSucceed s) {now : Timespec}
    (hloc : (s.loc .watchdog).pc = .findOldest now) : s.data.timestamps .watchdog = now := by
  have hall : ∀ t, Owns (pcMutex t) (concerned t) ((program ω V).held s t) (s.loc t) ∧
      OwnStamp s.data.timestamps t (s.loc t) := by
    refine Reach.outline ownStamp_outline (fun s hs => ⟨hs.1, fun t => ⟨?_, ?_⟩⟩)
      (fun s lab _ hlab t ev hev => hlab.held hev) hs
    · rw [hs.2.1 t]
      refine Arrives.to_owns (arrives_goto.2 fun m _ => ?_)
      cases t <;> simp [pcMutex, start]
    · rw [hs.2.1 t]
      cases t <;> trivial
  have hstamp := (hall .watchdog).2
  rcases hl : s.loc .watchdog with ⟨calls, pc⟩
  rw [hl] at hstamp hloc
  obtain rfl : pc = .findOldest now := hloc
  exact hstamp.2

/-- `g_timestamps[iiOldest]`. -/
def Watchdog.oldest (timestamps : ThreadId → Timespec) : Timespec :=
  (timestampsArray timestamps).getD (findLowestTimespecIndex (timestampsArray timestamps)) ⟨0, 0⟩

theorem Watchdog.oldest_le {timestamps : ThreadId → Timespec}
    (h : ∀ tid, (timestamps tid).Normalised) (tid : ThreadId) :
    (oldest timestamps).nanoseconds ≤ (timestamps tid).nanoseconds := by
  refine findLowestTimespecIndex_le (fun x hx => ?_) (List.mem_map_of_mem tid.mem_all)
  obtain ⟨u, -, rfl⟩ := List.mem_map.1 hx
  exact h u

omit [DecidableEq ω] [PercentageValue V] in
theorem WaitLoop.near_of_code (w : WaitLoop) {P : Type} {here : WaitPc → P} {exit : Control P}
    {pc : WaitPc} {n : ℕ} {c : CondVar} {m : Mutex} {tp : Timespec}
    {next : ThrdResult → Control P} (h : pc.Times n)
    (hc : (w.code here exit pc : Code V (Control P)) = .call (.waitUntil c m tp) next) :
    Near n tp := by
  cases pc <;> cases hc
  exact h

omit [DecidableEq ω] in
/-- A thread waits until the time point at its location. -/
theorem PcTimes.near_of_code {n : ℕ} {pc : Pc V t} {c : CondVar} {m : Mutex} {tp : Timespec}
    {next : ThrdResult → Loc V t} (h : PcTimes n t pc)
    (hc : body t pc = .call (.waitUntil c m tp) next) : Near n tp := by
  cases t with
  | reader =>
    cases pc with
    | waiting p w => exact Reader.outNotFull.near_of_code h hc
    | _ => cases hc
  | analyzer =>
    cases pc with
    | waitingIn v w => exact Analyzer.inNotEmpty.near_of_code h hc
    | waitingOut v w => exact Analyzer.outNotFull.near_of_code h hc
    | _ => cases hc
  | printer =>
    cases pc with
    | waiting u w => exact Printer.inNotEmpty.near_of_code h hc
    | _ => cases hc
  | logger =>
    cases pc with
    | drain k => cases k <;> cases hc
    | _ =>
      cases hc
      try exact h
  | watchdog =>
    cases pc <;> cases hc
    exact h
  | other w =>
    cases pc
    cases hc

/-- What the time points in a state are. -/
structure TimePoints (s : SysState ω V) : Prop where
  stamped : ∀ tid, ReadBy s.data.clock (s.data.timestamps tid)
  near : ∀ t c m tp next, (program ω V).code t (s.loc t) = .call (.waitUntil c m tp) next →
    tp.toNs ≤ s.data.clock + allowedNs
  ordered : ∀ now, (s.loc .watchdog).pc = .findOldest now →
    ReadBy s.data.clock now ∧
      (∀ tid, (Watchdog.oldest s.data.timestamps).nanoseconds ≤
        (s.data.timestamps tid).nanoseconds) ∧
      (Watchdog.oldest s.data.timestamps).nanoseconds ≤ now.nanoseconds

theorem timePoints {s : SysState ω V} (hs : Run (program ω V).UnlocksSucceed s) :
    TimePoints s where
  stamped := (hs.times .watchdog).1
  near t c m tp next hc := by
    have hpc := (hs.times t).2
    rcases hl : s.loc t with ⟨calls, pc⟩
    rw [hl] at hc hpc
    cases calls with
    | nil => exact (hpc.near_of_code hc).le
    | cons f fs =>
      have hwaits : ((program ω V).code t ⟨f :: fs, pc⟩).waitsWith m := by
        rw [hc]
        rfl
      rw [program_code_cons, Instr.waitsWith_map] at hwaits
      exact absurd hwaits (f.not_waits m)
  ordered now hloc := by
    obtain ⟨hstamped, hpc⟩ := hs.times .watchdog
    have hread : ReadBy s.data.clock now := by
      rw [hloc] at hpc
      exact hpc
    have holdest := Watchdog.oldest_le fun tid => hstamped.normalised tid
    refine ⟨hread, holdest, ?_⟩
    have hown := holdest .watchdog
    rwa [hs.ownStamp hloc] at hown

/-- After three seconds without a report, the watchdog is about to compare the timestamps. -/
theorem timePoints_findOldest : ∃ s : SysState Empty ℚ,
    (s.loc .watchdog).pc = .findOldest ⟨3, 0⟩ ∧ TimePoints s := by
  have hrun : ∃ s : SysState Empty ℚ, Run (program Empty ℚ).UnlocksSucceed s ∧
      decide ((s.loc .watchdog).pc = .findOldest ⟨3, 0⟩) = true := by
    apply Run.play (fun _ _ => true) (fun _ _ hn _ => hn.unlocksSucceed)
      ([steps .watchdog 6 (.userIdle 0 0), [.env (.tick 3000000000), .wake .watchdog .timedout],
        steps .watchdog 11 (.userIdle 0 0)].flatten)
    decide +kernel
  obtain ⟨s, hs, hcheck⟩ := hrun
  exact ⟨s, of_decide_eq_true hcheck, timePoints hs⟩

end CpuUsageTracker
