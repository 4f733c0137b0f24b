import CpuUsageTracker.Library.Progress
import CpuUsageTracker.LockOrder
import CpuUsageTracker.MonitorDiscipline
import CpuUsageTracker.ShutdownRanking

/-!
# The program ends after the kill switch

**Theorem (`shutdown_completes`).** In the runs in which unlocking an owned mutex succeeds, once
the kill switch is on, the five threads take at most `shutdownSteps` more steps, whatever their
order, the results of their calls and the further signals. And they do not stop before: a run that
no thread can continue is one in which all five have come to their end.

The first part is `Ranking.bound`. The second is `Program.progress`: the owner of a mutex is never
a thread that has ended, nor one that waits (`Run.owner_ready`). The logger may end while it owns
`g_inMtx`, but nobody else waits with that mutex.
-/

namespace CpuUsageTracker

open Threads

variable {ω V : Type} [DecidableEq ω] [PercentageValue V]
  {ok : SysState ω V → SysLabel ω V → Prop} {s : SysState ω V} {t u : Thread ω} {m : Mutex}

/-- A thread ends in its own function. -/
theorem Finished.in_body (h : (program ω V).Finished s t) :
    (s.loc t).frameMutex = none ∧ body t (s.loc t).pc = .exit := by
  unfold Program.Finished at h
  rcases hloc : s.loc t with ⟨calls, pc⟩
  rw [hloc] at h
  cases calls with
  | nil => exact ⟨rfl, h⟩
  | cons f fs =>
    rw [program_code_cons] at h
    rcases f with x | x <;> cases x <;> cases h

/-- The owner of a mutex that a thread is to take again can go on. -/
theorem Run.owner_ready (hok : ∀ s lab, ok s lab → (program ω V).UnlocksSucceed s lab)
    (hs : Run ok s) {r : ThrdResult} (ht : s.status t = .woken r)
    (hm : ((program ω V).code t (s.loc t)).waitsWith m) (hu : s.owner m = some u) :
    s.status u = .ready ∧ ¬(program ω V).Finished s u := by
  have hidle : ∀ s : SysState ω V, Init s → s.Idle := fun s hs => hs.1
  have hnot : ∀ v n, s.status v ≠ .ready → ((program ω V).code v (s.loc v)).waitsWith n →
      s.owner n ≠ some v := hs.waiting_not_owner hidle
  have hconcerned : m ∈ concerned u := by
    by_contra hout
    have hlogger : u = .logger := by
      by_contra hne
      exact hout (mem_concerned hne m)
    subst hlogger
    obtain rfl : m = .gInMtx := not_not.1 hout
    obtain ⟨-, hbody⟩ := waits_in_body hm
    by_cases htl : t = .logger
    · subst htl
      exact hnot _ _ (by simp [ht]) hm hu
    · exact pcMutex_ne_gInMtx _ _ (body_waits hbody (mem_concerned htl _))
  have howns := ((hs.ownership hok u).mem_iff m hconcerned).1 (.inl hu)
  refine ⟨?_, fun hfinished => ?_⟩
  · by_contra hready
    obtain ⟨n, hn⟩ := hs.waits hidle u hready
    obtain ⟨hframe, hbody⟩ := waits_in_body hn
    rw [hframe, or_iff_left (by simp)] at howns
    have hne : u ≠ .logger := by
      rintro rfl
      cases howns
    rw [body_waits hbody (mem_concerned hne n)] at howns
    obtain rfl := Option.some.inj howns
    exact hnot u n hready hn hu
  · obtain ⟨hframe, hbody⟩ := Finished.in_body hfinished
    rw [hframe, body_exit hbody] at howns
    rcases howns with howns | howns <;> cases howns

instance : Nonempty (Input V) := ⟨.succeeding (.userIdle 0 0)⟩

/-- Some thread can take a step until all have ended. -/
theorem Run.progress (hok : ∀ s lab, ok s lab → (program ω V).UnlocksSucceed s lab)
    (hs : Run ok s) : (program ω V).CanStep s ∨ ∀ t, (program ω V).Finished s t :=
  Program.progress (hs.waits fun _ hs => hs.1) fun _ _ _ _ hr hm hu => hs.owner_ready hok hr hm hu

/-! ## Once the kill switch is on -/

/-- Runs that go on from `s`, with the number of steps that threads take in them. -/
def Continuation (s : SysState Empty V) : SysState Empty V × ℕ → Prop :=
  Reach (· = (s, 0)) (Recorded (fun _ lab n => n + lab.count) (Step (program Empty V)))
    fun x lab => (program Empty V).UnlocksSucceed x.1 lab

theorem Continuation.run {s s' : SysState Empty V} {n : ℕ} (h : Continuation s (s', n))
    (hs : Run (program Empty V).UnlocksSucceed s) : Run (program Empty V).UnlocksSucceed s' := by
  refine Reach.invariant (I := fun x => Run (program Empty V).UnlocksSucceed x.1) h ?_ ?_
  · rintro x rfl
    exact hs
  · intro x lab x' _ hx hok hstep
    exact .next hx hok hstep.1

theorem shutdown_completes {s s' : SysState Empty V} {n : ℕ}
    (hs : Run (program Empty V).UnlocksSucceed s) (hk : s.data.killSwitch = true)
    (h : Continuation s (s', n)) :
    n ≤ shutdownSteps ∧
      ((program Empty V).CanStep s' ∨ ∀ t, (program Empty V).Finished s' t) := by
  refine ⟨?_, (h.run hs).progress fun _ _ h => h⟩
  have hbound := (shutdownRanking V).bound killSwitch_persistent hk h
  have hmeasure := hs.measure_le
  omega

/-- The threads are in their loops, and the printer waits, when a signal arrives. -/
def interrupted : List (Move (Thread Empty) (Input ℚ) Data.Env) :=
  [steps .watchdog 6 (.userIdle 0 0), steps .logger 25 (.userIdle 0 0),
    steps .analyzer 15 (.userIdle 0 0), steps .printer 13 (.userIdle 0 0),
    steps .reader 25 (.userIdle 0 0), [.env .signal]].flatten

/-- Each thread goes to its end, the logger last. -/
def windDown : List (Move (Thread Empty) (Input ℚ) Data.Env) :=
  [steps .reader 10 (.userIdle 0 0), steps .analyzer 19 (.userIdle 0 0),
    [.wake .printer .timedout], steps .printer 19 (.userIdle 0 0),
    steps .watchdog 14 (.userIdle 0 0), steps .logger 34 (.userIdle 0 0)].flatten

/-- After `interrupted`, the threads take the 97 steps of `windDown`. -/
theorem shutdown_completes_interrupted : ∃ s s' : SysState Empty ℚ,
    s.data.killSwitch = true ∧ Continuation s (s', 97) ∧ 97 ≤ shutdownSteps ∧
      ((program Empty ℚ).CanStep s' ∨ ∀ t, (program Empty ℚ).Finished s' t) := by
  have hrun : ((play (fun _ _ => true) interrupted).any fun s => s.data.killSwitch &&
      (execAll ((program Empty ℚ).playRecorded (fun _ lab n => n + lab.count)
        [.reader, .analyzer, .printer, .logger, .watchdog] (fun _ _ => true)) (s, 0)
        windDown).any fun x => x.2 == 97) = true := by
    decide +kernel
  obtain ⟨s, hs, hcheck⟩ := (Option.any_eq_true _ _).1 hrun
  rw [Bool.and_eq_true] at hcheck
  obtain ⟨hk, hcheck⟩ := hcheck
  obtain ⟨⟨s', n⟩, hx, hn⟩ := (Option.any_eq_true _ _).1 hcheck
  obtain rfl : n = 97 := eq_of_beq hn
  have hok : ∀ (s : SysState Empty ℚ) lab, (program Empty ℚ).Nominal s lab → true = true →
      (program Empty ℚ).UnlocksSucceed s lab := fun _ _ h _ => h.unlocksSucceed
  have hreach : Run (program Empty ℚ).UnlocksSucceed s :=
    Reach.play hok (.start init_initialState) hs
  have hcont : Continuation s (s', 97) := Reach.playRecorded hok (.start rfl) hx
  exact ⟨s, s', hk, hcont, shutdown_completes hreach hk hcont⟩

end CpuUsageTracker
