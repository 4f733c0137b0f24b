import CpuUsageTracker.Library.ForkJoin
import CpuUsageTracker.Shutdown

/-!
# `main`

`main` starts the five threads, joins them, destroys what they have used and prints their results.
It is the parent of the program (`Process`). What it does before it starts the first thread is in
`Init`. All calls of `thrd_create` are taken to succeed; the source does not look at their results.

The list of what is destroyed is the source's: `usageInfoNotEmptyCv` comes twice,
`procStatNotEmptyCv` and `g_timestampsUpdatedCv` do not come at all.

**Theorem (`main_ends`).** In every run in which unlocking an owned mutex succeeds, no thread takes
a step after `main` has destroyed something. And once the kill switch is on, the process takes at
most `shutdownSteps + main.length` more steps, and does not stop before `main` has printed the
results.

Both rest on the order of `main` (`orderly_main`): it joins all threads before it destroys
anything, and it has started all of them before it waits for the first one.
-/

namespace CpuUsageTracker

open Threads

/-- The calls of `main` after the joins, those of the three finalizing functions included. -/
inductive Cleanup
  | cndDestroy (c : CondVar)
  | mtxDestroy (m : Mutex)
  | destroyUsageInfoCbuf
  | destroyProcStatCbuf
  | tssDelete
  | destroyGSecondaryBuf
  | destroyGInBuf
  | printResults
  deriving DecidableEq, Repr

/-- In the order of `thrd_create`. -/
def created : List (Thread Empty) := [.watchdog, .logger, .reader, .analyzer, .printer]

/-- In the order of `thrd_join`. -/
def joined : List (Thread Empty) := [.printer, .analyzer, .reader, .logger, .watchdog]

def cleanup : List Cleanup :=
  [.cndDestroy .usageInfoNotFullCv, .cndDestroy .usageInfoNotEmptyCv,
    .cndDestroy .procStatNotFullCv, .cndDestroy .usageInfoNotEmptyCv,
    .mtxDestroy .usageInfoMtx, .mtxDestroy .procStatMtx,
    .destroyUsageInfoCbuf, .destroyProcStatCbuf,
    -- `ThreadInfo_finalize`
    .tssDelete,
    -- `Watchdog_finalize`
    .mtxDestroy .gTimestampsMtx,
    -- `Logger_finalize`
    .destroyGSecondaryBuf, .destroyGInBuf, .cndDestroy .gInNotEmptyCv, .mtxDestroy .gInMtx,
    .printResults]

def main : List (Duty (Thread Empty) Cleanup) :=
  created.map .fork ++ (joined.map .join ++ cleanup.map .act)

theorem orderly_main : Orderly main := by
  refine orderly_phases ?_ ?_ <;> rintro (_ | _ | _ | _ | _ | w) <;>
    first | exact w.elim | decide

abbrev MainProcess (V : Type) :=
  Process Mutex (Data Empty V) (Loc V : Thread Empty → Type) Cleanup

variable {V : Type} [PercentageValue V] {x x' : MainProcess V} {n : ℕ}

/-- The processes reached by runs in which unlocking an owned mutex succeeds. -/
def MainRun : MainProcess V → Prop :=
  ProcessReach (program Empty V) Init (program Empty V).UnlocksSucceed main

/-- Runs that go on from `x`, with the number of steps in them. -/
def MainContinuation (x : MainProcess V) : MainProcess V × ℕ → Prop :=
  Reach (· = (x, 0)) (Recorded (fun _ lab n => n + lab.count) (ProcessStep (program Empty V)))
    fun x lab => OnSys (program Empty V).UnlocksSucceed x.1 lab

theorem MainContinuation.run (h : MainContinuation x (x', n)) (hx : MainRun x) : MainRun x' := by
  refine Reach.invariant (I := fun x => MainRun x.1) h ?_ ?_
  · rintro x rfl
    exact hx
  · intro x lab x' _ hx hok hstep
    exact .next hx hok hstep.1

theorem MainRun.measure_le (hx : MainRun x) :
    x.measure (shutdownRanking V) ≤ shutdownSteps + main.length := by
  have hsys : Run (program Empty V).UnlocksSucceed x.sys := Process.sys_reach hx
  have hlength := congrArg List.length (Process.done_append_todo hx)
  rw [List.length_append] at hlength
  exact Nat.add_le_add hsys.measure_le ((Nat.le_add_left _ _).trans hlength.le)

theorem main_ends (hx : MainRun x) :
    (∀ c, .act c ∈ x.done → ∀ lab s', Step (program Empty V) x.sys lab s' → lab.actor = none) ∧
      (x.sys.data.killSwitch = true → ∀ x' n, MainContinuation x (x', n) →
        n ≤ shutdownSteps + main.length ∧
          (Process.CanStep (program Empty V) x' ∨ x'.todo = [])) := by
  constructor
  · intro c hc lab s' hstep
    cases hactor : lab.actor with
    | none => rfl
    | some t => exact absurd (Process.quiet orderly_main hx hc t) (hstep.not_finished hactor)
  · intro hk x' n h
    have hx' := h.run hx
    have hsys' : Run (program Empty V).UnlocksSucceed x'.sys := Process.sys_reach hx'
    have hbound := Process.bound (shutdownRanking V) killSwitch_persistent hk h
    have hmeasure := hx.measure_le
    refine ⟨by omega, Process.progress orderly_main hx' (hsys'.progress fun _ _ h => h)⟩

/-- The thread has come to its end. -/
def ended (s : SysState Empty V) (t : Thread Empty) : Bool :=
  match (program Empty V).code t (s.loc t) with
  | .exit => true
  | _ => false

theorem finished_of_ended {s : SysState Empty V} {t : Thread Empty} (h : ended s t = true) :
    (program Empty V).Finished s t := by
  unfold Program.Finished
  unfold ended at h
  split at h
  · assumption
  · cases h

/-- A signal arrives, the threads end, and so does `main`. -/
theorem main_ends_interrupted : ∃ x : MainProcess ℚ, .act .printResults ∈ x.done ∧
    x.sys.data.killSwitch = true ∧
    ∀ lab s', Step (program Empty ℚ) x.sys lab s' → lab.actor = none := by
  have hrun : ((play (fun _ _ => true) (interrupted ++ windDown)).any fun s =>
      s.data.killSwitch && joined.all (ended s)) = true := by
    decide +kernel
  obtain ⟨s, hs, hcheck⟩ := (Option.any_eq_true _ _).1 hrun
  rw [Bool.and_eq_true, List.all_eq_true] at hcheck
  obtain ⟨hk, hended⟩ := hcheck
  have hreach : Reach (· = initialState) (Step (program Empty ℚ))
      (program Empty ℚ).UnlocksSucceed s :=
    Reach.play (fun _ _ h _ => h.unlocksSucceed) (.start rfl) hs
  -- all threads are started, then they run, then they are joined
  have hstart : MainRun (⟨initialState, [], main⟩ : MainProcess ℚ) :=
    .start ⟨init_initialState, rfl, rfl⟩
  have hforked : MainRun (⟨initialState, created.map .fork,
      joined.map .join ++ cleanup.map .act⟩ : MainProcess ℚ) :=
    Process.carryOut hstart rfl (by simp)
  have hlifted := Process.lift hforked (by rintro (_ | _ | _ | _ | _ | w) <;>
    first | exact w.elim | decide) hreach
  have hend : MainRun (⟨s, main, []⟩ : MainProcess ℚ) :=
    Process.carryOut hlifted (List.append_nil _).symm fun t ht =>
      finished_of_ended (hended t (by simpa using ht))
  have hprinted : .act .printResults ∈ main := by decide
  exact ⟨_, hprinted, hk, (main_ends hend).1 .printResults hprinted⟩

end CpuUsageTracker
