import CpuUsageTracker.LogBuffers
import CpuUsageTracker.TimespecArithmetic

/-!
# Forced sleep

`Thread_forceSleepMs` calls `thrd_sleep` until it returns 0, each time with the remaining time
that the call before has stored in the request itself. `Thread_forceSleep` multiplies its seconds
by 1000, as an `unsigned`.

The functions run on a list of calls of `thrd_sleep`, with what each of them returns, sleeps and
stores, and have a result once one of these returns 0.

**Theorem (`neverEarly_iff`).** If every interrupted call stores at least the time that is missing
and the last call sleeps its request, the total time slept is at least the duration asked for,
in milliseconds always, and in seconds exactly if the product fits 32 bits.

What carries the induction is that the time slept so far and the current request add up to at
least the first request.
-/

namespace CpuUsageTracker

/-- One call of `thrd_sleep`: what it returns, the nanoseconds slept, and what its second argument
holds afterwards. -/
structure SleepCall where
  result : ℤ
  slept : ℤ
  remaining : Timespec

/-- A call of one of the functions: the requests it made, the nanoseconds slept in all of them,
and its messages. -/
structure SleepRun where
  requests : List Timespec
  slept : ℤ
  messages : List LogCall

def sleepMessage (result : ℤ) : LogCall :=
  if result = 0 then ⟨.debug, "thread sleep successful"⟩
  else if result = -1 then ⟨.warning, "thread sleep interrupted"⟩
  else ⟨.error, "error encountered while attempting to sleep"⟩

/-- The `do` loop. The request is overwritten in place. -/
def forceSleepLoop (sleepTime : Timespec) : List SleepCall → Option SleepRun
  | [] => none
  | call :: calls =>
    if call.result = 0 then some ⟨[sleepTime], call.slept, [sleepMessage call.result]⟩
    else (forceSleepLoop call.remaining calls).map fun run =>
      ⟨sleepTime :: run.requests, call.slept + run.slept,
        sleepMessage call.result :: run.messages⟩

/-- The first request: `milliseconds - (secs * 1000)` has type `time_t`. -/
def sleepTime (milliseconds : UInt32) : Timespec :=
  let secs : ℤ := (milliseconds / 1000).toNat
  let nsecs : ℤ := (milliseconds.toNat - secs * 1000) * 1000000
  ⟨secs, nsecs⟩

def threadForceSleepMs (milliseconds : UInt32) (calls : List SleepCall) : Option SleepRun :=
  forceSleepLoop (sleepTime milliseconds) calls

def threadForceSleep (seconds : UInt32) (calls : List SleepCall) : Option SleepRun :=
  threadForceSleepMs (seconds * 1000) calls

/-! ## What `thrd_sleep` promises -/

/-- Calls of `thrd_sleep`, the first one with the given request: all are interrupted, and store
what is missing of their request, but the last one, which sleeps its request. -/
inductive Interruptions : Timespec → List SleepCall → Prop
  | elapsed {request : Timespec} {call : SleepCall} (hresult : call.result = 0)
      (hslept : request.nanoseconds ≤ call.slept) : Interruptions request [call]
  | interrupted {request : Timespec} {call : SleepCall} {calls : List SleepCall}
      (hresult : call.result = -1) (hnormalised : call.remaining.Normalised)
      (hslept : request.nanoseconds ≤ call.slept + call.remaining.nanoseconds)
      (hcalls : Interruptions call.remaining calls) : Interruptions request (call :: calls)

/-! ## The loop -/

/-- The loop returns, and has slept its first request. Each request is one that `thrd_sleep`
accepts. -/
theorem forceSleepLoop_interruptions {request : Timespec} {calls : List SleepCall}
    (hrequest : request.Normalised) (h : Interruptions request calls) :
    ∃ run, forceSleepLoop request calls = some run ∧ request.nanoseconds ≤ run.slept ∧
      ∀ t ∈ run.requests, t.Normalised := by
  induction h with
  | @elapsed request call hresult hslept =>
    refine ⟨⟨[request], call.slept, [sleepMessage call.result]⟩, ?_, hslept, ?_⟩
    · simp [forceSleepLoop, hresult]
    · intro t ht
      obtain rfl := List.mem_singleton.1 ht
      exact hrequest
  | @interrupted request call calls hresult hnormalised hslept _ ih =>
    obtain ⟨run, hrun, hrest, hrequests⟩ := ih hnormalised
    refine ⟨⟨request :: run.requests, call.slept + run.slept,
      sleepMessage call.result :: run.messages⟩, ?_, ?_, ?_⟩
    · simp [forceSleepLoop, hresult, hrun]
    · exact hslept.trans (Int.add_le_add_left hrest call.slept)
    · intro t ht
      rcases List.mem_cons.1 ht with rfl | ht
      · exact hrequest
      · exact hrequests t ht

theorem sleepTime_normalised (milliseconds : UInt32) : (sleepTime milliseconds).Normalised := by
  have hsecs : (milliseconds / 1000).toNat = milliseconds.toNat / 1000 :=
    UInt32.toNat_div milliseconds 1000
  constructor <;> simp only [sleepTime, hsecs] <;> omega

theorem nanoseconds_sleepTime (milliseconds : UInt32) :
    (sleepTime milliseconds).nanoseconds = milliseconds.toNat * 1000000 := by
  simp only [sleepTime, Timespec.nanoseconds]
  omega

/-! ## Never early -/

/-- However often the sleep is interrupted, the function returns and has slept its duration. -/
def NeverEarlyMs (milliseconds : UInt32) : Prop :=
  ∀ calls, Interruptions (sleepTime milliseconds) calls →
    ∃ run, threadForceSleepMs milliseconds calls = some run ∧
      (milliseconds.toNat : ℤ) * 1000000 ≤ run.slept

/-- The same for a duration in seconds, where the first request is the one for the product. -/
def NeverEarly (seconds : UInt32) : Prop :=
  ∀ calls, Interruptions (sleepTime (seconds * 1000)) calls →
    ∃ run, threadForceSleep seconds calls = some run ∧
      (seconds.toNat : ℤ) * 1000000000 ≤ run.slept

theorem neverEarlyMs (milliseconds : UInt32) : NeverEarlyMs milliseconds := by
  intro calls h
  obtain ⟨run, hrun, hslept, -⟩ :=
    forceSleepLoop_interruptions (sleepTime_normalised milliseconds) h
  rw [nanoseconds_sleepTime] at hslept
  exact ⟨run, hrun, hslept⟩

theorem neverEarly_of_lt {seconds : UInt32} (hlt : seconds.toNat * 1000 < 2 ^ 32) :
    NeverEarly seconds := by
  intro calls h
  obtain ⟨run, hrun, hslept⟩ := neverEarlyMs (seconds * 1000) calls h
  have hproduct : (seconds * 1000).toNat = seconds.toNat * 1000 := by
    rw [UInt32.toNat_mul]
    exact Nat.mod_eq_of_lt hlt
  rw [hproduct] at hslept
  refine ⟨run, hrun, ?_⟩
  omega

/-- An undisturbed sleep is as long as its request, which is too short if the product wraps. -/
theorem not_neverEarly_of_le {seconds : UInt32} (hle : 2 ^ 32 ≤ seconds.toNat * 1000) :
    ¬NeverEarly seconds := by
  intro h
  have hundisturbed := h [⟨0, (sleepTime (seconds * 1000)).nanoseconds, ⟨0, 0⟩⟩]
    (.elapsed rfl le_rfl)
  obtain ⟨run, hrun, hslept⟩ := hundisturbed
  obtain rfl := Option.some.inj hrun
  rw [show SleepRun.slept _ = (sleepTime (seconds * 1000)).nanoseconds from rfl,
    nanoseconds_sleepTime, UInt32.toNat_mul] at hslept
  have hmod : seconds.toNat * (1000 : UInt32).toNat % 2 ^ 32 < seconds.toNat * 1000 :=
    (Nat.mod_lt _ (by decide)).trans_le hle
  omega

/-- Milliseconds are always slept, and seconds exactly if their product with 1000 fits. -/
theorem neverEarly_iff (seconds milliseconds : UInt32) :
    NeverEarly seconds ∧ NeverEarlyMs milliseconds ↔ seconds.toNat * 1000 < 2 ^ 32 := by
  constructor
  · rintro ⟨h, -⟩
    by_contra hle
    exact not_neverEarly_of_le (not_lt.1 hle) h
  · intro hlt
    exact ⟨neverEarly_of_lt hlt, neverEarlyMs milliseconds⟩

/-- The least duration that wraps: of almost fifty days, 704 ms are slept. -/
theorem not_neverEarly :
    ¬∀ seconds milliseconds : UInt32, NeverEarly seconds ∧ NeverEarlyMs milliseconds := by
  intro h
  have hwraps : 2 ^ 32 ≤ (4294968 : UInt32).toNat * 1000 := by decide
  exact not_neverEarly_of_le hwraps (h 4294968 0).1

end CpuUsageTracker
