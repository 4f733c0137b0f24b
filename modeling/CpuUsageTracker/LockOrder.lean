import CpuUsageTracker.Library.LockOrder
import CpuUsageTracker.LoggerOwnership

/-!
# The order of the locks

`Log` takes `g_inMtx`, and all threads call it inside their critical sections. `g_timestampsMtx` is
taken where no other mutex is owned. So `g_inMtx` comes last, as long as the logger, which owns
`g_inMtx` at its end, does not own it where it calls these functions.

**Theorem (`lockOrder_acyclic`).** In the runs in which unlocking an owned mutex succeeds, no lock
attempt of the logger's main loop succeeds and no wait of the logger returns, no mutex is reached
from itself by going from a mutex that some thread owns to one that it requests. So no threads
wait for one another in a cycle.

`logger_requests_owned` is a run in which the logger requests the mutex that it owns.
-/

namespace CpuUsageTracker

open Threads Relation

variable {ω V : Type} [DecidableEq ω] [PercentageValue V]

/-- In some run some thread requests `b` while it owns `a`. -/
def RequestedWhileOwned (ok : SysState ω V → SysLabel ω V → Prop) (a b : Mutex) : Prop :=
  ∃ s, Run ok s ∧ (program ω V).RequestsWhileOwning s a b

/-- Unlocking an owned mutex succeeds, and the logger stays out of its main loop. -/
def UnlocksAndStaysOut (s : SysState ω V) (lab : SysLabel ω V) : Prop :=
  (program ω V).UnlocksSucceed s lab ∧ LoggerStaysOut s lab

/-- `g_inMtx` comes after the others. -/
def Mutex.rank : Mutex → ℕ
  | .gInMtx => 1
  | .gTimestampsMtx | .procStatMtx | .usageInfoMtx => 0

variable {t : Thread ω}

omit [DecidableEq ω] in
/-- A thread function locks only where it owns nothing. -/
theorem body_locks {pc : Pc V t} {m : Mutex} {ms : ℕ} {next : ThrdResult → Loc V t}
    (h : body t pc = .call (.tryLock m ms) next) : pcMutex t pc = none := by
  cases t with
  | reader =>
    cases pc with
    | waiting p w => cases w <;> cases h
    | _ => cases h <;> rfl
  | analyzer =>
    cases pc with
    | waitingIn v w | waitingOut v w => cases w <;> cases h
    | _ => cases h <;> rfl
  | printer =>
    cases pc with
    | waiting u w => cases w <;> cases h
    | _ => cases h <;> rfl
  | watchdog =>
    cases pc <;> cases h
    rfl
  | logger | other w => rfl

omit [DecidableEq ω] [PercentageValue V] in
theorem Logger.locks {pc : LoggerPc} {m : Mutex} {ms : ℕ} {next : ThrdResult → Control LoggerPc}
    (h : (code pc : Code V (Control LoggerPc)) = .call (.tryLock m ms) next) :
    pc.mutex = none := by
  cases pc with
  | drain k => cases k <;> cases h
  | _ => cases h <;> rfl

omit [DecidableEq ω] [PercentageValue V] in
theorem Frame.locks {f : Frame} {m : Mutex} {ms : ℕ} {next : ThrdResult → List Frame}
    (h : (f.code : Code V (List Frame)) = .call (.tryLock m ms) next) :
    f.owned = none ∧ (m = .gInMtx ∨ f.isReport = true) := by
  rcases f with pc | pc
  · cases pc <;> cases h
    exact ⟨rfl, .inl rfl⟩
  · cases pc <;> cases h
    exact ⟨rfl, .inr rfl⟩

omit [DecidableEq ω] in
/-- A thread that is about to lock a mutex while it owns another one is about to lock `g_inMtx`,
inside a call. -/
theorem Owns.locks {mutex : Pc V t → Option Mutex} {ms o : Set Mutex} {l : Loc V t} {m n : Mutex}
    {ms' : ℕ} {next : ThrdResult → Loc V t} (h : Owns mutex ms o l) (hn : n ∈ ms) (hno : n ∈ o)
    (hbody : ∀ pc next, body t pc = .call (.tryLock m ms') next → mutex pc = none)
    (hc : Control.code (body t) l = .call (.tryLock m ms') next) :
    m = .gInMtx ∧ mutex l.pc = some n ∧ l.calls ≠ [] := by
  obtain ⟨calls, pc⟩ := l
  rw [h.mem_iff n hn] at hno
  cases calls with
  | nil =>
    rw [hbody pc next hc] at hno
    rcases hno with hno | hno <;> cases hno
  | cons f fs =>
    rw [Control.code] at hc
    obtain ⟨next', hf⟩ := Instr.map_eq_call hc
    obtain ⟨howned, hm⟩ := Frame.locks hf
    have hpc : mutex pc = some n := by
      rcases hno with hno | hno
      · exact hno
      · cases howned.symm.trans hno
    refine ⟨hm.resolve_right fun hreport => ?_, hpc, List.cons_ne_nil _ _⟩
    rw [h.report f List.mem_cons_self hreport] at hpc
    cases hpc

omit [DecidableEq ω] [PercentageValue V] in
theorem pcMutex_ne_gInMtx (t : Thread ω) (pc : Pc V t) : pcMutex t pc ≠ some .gInMtx := by
  cases t <;> cases pc <;> simp [pcMutex]

omit [DecidableEq ω] [PercentageValue V] in
theorem Logger.annotated_of_locks {l : Control LoggerPc} {m : Mutex} {ms : ℕ}
    {next : ThrdResult → Control LoggerPc}
    (h : Control.code code l = (.call (.tryLock m ms) next : Code V (Control LoggerPc))) :
    annotated l = .univ := by
  obtain ⟨calls, pc⟩ := l
  cases calls with
  | nil =>
    cases pc with
    | wait tp => cases h
    | _ => rfl
  | cons f fs => rfl

theorem Logger.mem_annotated {n : Mutex} (hn : n ≠ .gInMtx) (l : Control LoggerPc) :
    n ∈ annotated l := by
  unfold annotated
  split
  · exact hn
  · trivial

/-- A thread that is to take the mutex again that it waits with owns at most this one. -/
theorem waits_with_owned {s : SysState ω V} (hs : Run UnlocksAndStaysOut s) {n m : Mutex}
    (howner : s.owner n = some t) (h : ((program ω V).code t (s.loc t)).waitsWith m) : n = m := by
  have hheld : n ∈ (program ω V).held s t := .inl howner
  obtain ⟨hframe, hbody⟩ := waits_in_body h
  by_cases ht : t = .logger
  · subst ht
    obtain ⟨rfl, tp, hpc⟩ := Logger.waits hbody
    by_contra hn
    have howns := (Run.logger_ownership (fun _ _ h => h) hs).owns
    rw [howns.mem_iff n (Logger.mem_annotated hn _), hpc, hframe] at hheld
    rcases hheld with hheld | hheld <;> cases hheld
  · have howns := Run.ownership (fun _ _ h => h.1) hs t
    rw [howns.mem_iff n (mem_concerned ht n), body_waits hbody (mem_concerned ht m),
      hframe] at hheld
    rcases hheld with hheld | hheld
    · exact (Option.some.inj hheld).symm
    · cases hheld

/-- Only `g_inMtx` is requested while a mutex is owned, and that is another one. -/
theorem requestsWhileOwning {s : SysState ω V} (hs : Run UnlocksAndStaysOut s) {n m : Mutex}
    (h : (program ω V).RequestsWhileOwning s n m) : m = .gInMtx ∧ n ≠ .gInMtx := by
  obtain ⟨t, howner, hreq⟩ := h
  have hheld : n ∈ (program ω V).held s t := .inl howner
  rcases hreq with ⟨hready, ms, next, hc⟩ | ⟨r, hwoken, hwaits⟩
  · by_cases ht : t = .logger
    · subst ht
      have howns := Run.logger_ownership (fun _ _ h => h) hs
      have hn : n ∈ Logger.annotated (s.loc .logger) := by
        rw [Logger.annotated_of_locks hc]
        trivial
      have hbody : ∀ (pc : LoggerPc) next,
          (Logger.code pc : Code V (Control LoggerPc)) = .call (.tryLock m ms) next →
            pc.mutex = none := fun pc next h => Logger.locks h
      obtain ⟨-, hpc, hcalls⟩ := howns.owns.locks hn hheld hbody hc
      refine absurd (howns.silent ?_) hcalls
      rw [hpc]
      simp
    · have howns := Run.ownership (fun _ _ h => h.1) hs t
      obtain ⟨rfl, hpc, -⟩ :=
        howns.locks (mem_concerned ht n) hheld (fun pc next h => body_locks h) hc
      refine ⟨rfl, ?_⟩
      rintro rfl
      exact pcMutex_ne_gInMtx _ _ hpc
  · have hnot := hs.waiting_not_owner (fun s hs => hs.1) t m (by simp [hwoken]) hwaits
    rw [waits_with_owned hs howner hwaits] at howner
    exact absurd howner hnot

theorem lockOrder_acyclic :
    (∀ m, ¬TransGen (RequestedWhileOwned (UnlocksAndStaysOut : SysState ω V → _)) m m) ∧
      ∀ s : SysState ω V, Run UnlocksAndStaysOut s → ∀ t, ¬TransGen ((program ω V).WaitsFor s) t t := by
  have hacyclic : ∀ m,
      ¬TransGen (RequestedWhileOwned (UnlocksAndStaysOut : SysState ω V → _)) m m := by
    refine acyclic_of_rank Mutex.rank ?_
    rintro n m ⟨s, hs, hreq⟩
    obtain ⟨rfl, hn⟩ := requestsWhileOwning hs hreq
    cases n with
    | gInMtx => exact absurd rfl hn
    | _ => exact Nat.zero_lt_one
  refine ⟨hacyclic, fun s hs t => waitsFor_acyclic (fun m hm => hacyclic m ?_) t⟩
  exact hm.lift id fun n m hreq => ⟨s, hs, hreq⟩

/-- A call of `Log` is about to take `g_inMtx`. -/
def Control.locksInLog {P : Type} : Control P → Bool
  | ⟨.log (.lock _) :: _, _⟩ => true
  | _ => false

/-- The analyzer logs a timeout while it owns the mutex of its input buffer. -/
theorem lockOrder_acyclic_log : ∃ s : SysState Empty ℚ,
    (program Empty ℚ).RequestsWhileOwning s .procStatMtx .gInMtx ∧
      (∀ m, ¬TransGen (RequestedWhileOwned (UnlocksAndStaysOut : SysState Empty ℚ → _)) m m) ∧
      ∀ t, ¬TransGen ((program Empty ℚ).WaitsFor s) t t := by
  have hrun : ∃ s : SysState Empty ℚ, Run UnlocksAndStaysOut s ∧
      ((s.loc .analyzer).locksInLog && decide (s.status .analyzer = .ready) &&
        decide (s.owner .procStatMtx = some .analyzer)) = true := by
    refine Run.play (fun _ lab => decide (lab.actor ≠ some .logger)) (fun s lab hn hg => ?_)
      (steps .analyzer 15 (.userIdle 0 0) ++ [.wake .analyzer .timedout] ++
        steps .analyzer 4 (.userIdle 0 0)) ?_
    · refine ⟨hn.unlocksSucceed, fun r hr => absurd (Label.actor_of_event hr) ?_⟩
      exact of_decide_eq_true hg
    · decide +kernel
  obtain ⟨s, hs, hcheck⟩ := hrun
  simp only [Bool.and_eq_true, decide_eq_true_eq] at hcheck
  obtain ⟨⟨hcalls, hready⟩, howner⟩ := hcheck
  refine ⟨s, ⟨.analyzer, howner, .inl ⟨hready, ?_⟩⟩, lockOrder_acyclic.1, lockOrder_acyclic.2 s hs⟩
  generalize s.loc .analyzer = l at *
  unfold Control.locksInLog at hcalls
  split at hcalls
  · exact ⟨_, _, rfl⟩
  · cases hcalls

/-- The logger's second lock attempt is made with the mutex owned. -/
theorem logger_requests_owned :
    TransGen (RequestedWhileOwned (program Empty ℚ).Nominal) .gInMtx .gInMtx := by
  have hrun : ∃ s : SysState Empty ℚ, Run (program Empty ℚ).Nominal s ∧
      (decide ((s.loc .logger).pc = .lock) && (s.loc .logger).calls.isEmpty &&
        decide (s.status .logger = .ready) && decide (s.owner .gInMtx = some .logger)) = true := by
    apply Run.play (fun _ _ => true) (fun _ _ h _ => h) (steps .logger 15 (.userIdle 0 0))
    decide +kernel
  obtain ⟨s, hs, hcheck⟩ := hrun
  simp only [Bool.and_eq_true, decide_eq_true_eq, List.isEmpty_iff] at hcheck
  obtain ⟨⟨⟨hpc, hcalls⟩, hready⟩, howner⟩ := hcheck
  refine .single ⟨s, hs, .logger, howner, .inl ⟨hready, ?_⟩⟩
  generalize s.loc .logger = l at *
  cases l
  cases hpc
  cases hcalls
  exact ⟨_, _, rfl⟩

end CpuUsageTracker
