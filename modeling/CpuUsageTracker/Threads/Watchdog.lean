import CpuUsageTracker.Calls

/-!
# `WatchdogThread`

A translation of `watchdog.c`, apart from `Watchdog_reportActive`, which is in
`CpuUsageTracker.Calls`. The thread holds `g_timestampsMtx` all through its loop, except while it
waits.
-/

namespace CpuUsageTracker

open Threads

inductive WatchdogPc
  | threadInfoSet
  | startTime
  | lock (now : Timespec)
  | initTimestamps (now : Timespec)
  | head (timeoutPoint : Timespec)
  | wait (timeoutPoint : Timespec)
  | now
  | setTimestamp (now : Timespec)
  | findOldest (now : Timespec)
  | killTest (iiOldest : ℕ) (oldest : Timespec)
  | retval (iiOldest : ℕ)
  | raise (iiOldest : ℕ) (retval : ℤ)
  | finalUnlock (retval : ℤ)
  | exited (retval : ℤ)
  deriving DecidableEq, Repr

namespace Watchdog

def allowedUnresponsiveMs : ℕ := 2000
def mutexWaitTimeMs : ℕ := 50

def threadInfo : ThreadInfo := ⟨.watchdog, "Watchdog"⟩

def allowedUnresponsiveTime : Timespec := msToTimespec allowedUnresponsiveMs

/-- `g_timestamps` as an array. -/
def timestampsArray (timestamps : ThreadId → Timespec) : List Timespec :=
  ThreadId.all.map timestamps

/-- The check that ends an iteration of the loop. -/
def check (now : Timespec) (timestamps : ThreadId → Timespec) : Control WatchdogPc :=
  let array := timestampsArray timestamps
  let iiOldest := findLowestTimespecIndex array
  let oldest := array.getD iiOldest ⟨0, 0⟩
  if timespecCompare (timespecDifference now oldest) allowedUnresponsiveTime > 0 then
    .goto (.killTest iiOldest oldest)
  else .goto (.head (timespecAdd oldest allowedUnresponsiveTime))

def unresponsive (iiOldest : ℕ) : String :=
  "thread \"" ++ (ThreadId.all[iiOldest]?.map ThreadId.name).getD "" ++
    "\" unresponsive, terminating"

def code {V : Type} : WatchdogPc → Code V (Control WatchdogPc)
  | .threadInfoSet => .act (.threadInfoSet threadInfo) fun r =>
    if r = .success then .goto .startTime else .goto (.exited (-1))
  | .startTime => .act .currentTime fun now => .goto (.lock now)
  | .lock now => .call (.tryLock .gTimestampsMtx mutexWaitTimeMs) fun r =>
    if r = .success then .goto (.initTimestamps now)
    else (Control.goto (.exited (-2))).log .fatal "cannot acquire timestamps mutex"
  | .initTimestamps now => .act (.initTimestamps now) fun _ =>
    .goto (.head (timespecAdd now allowedUnresponsiveTime))
  | .head tp => .act .killSwitchStatus fun killed =>
    if killed then .goto (.finalUnlock 0) else .goto (.wait tp)
  | .wait tp => .call (.waitUntil .gTimestampsUpdatedCv .gTimestampsMtx tp) fun
    | .error => (Control.goto (.head tp)).log .error
        "error while waiting on tiemstamps condition variable"
    | .timedout => (Control.goto .now).log .warning
        "timeout while waiting on timestamps condition variable"
    | .success => .goto .now
  | .now => .act .currentTime fun now => .goto (.setTimestamp now)
  | .setTimestamp now => .act (.setTimestamp .watchdog now) fun _ => .goto (.findOldest now)
  | .findOldest now => .act .timestamps fun timestamps => check now timestamps
  | .killTest iiOldest oldest => .act .killSwitchStatus fun killed =>
    if killed then .goto (.head (timespecAdd oldest allowedUnresponsiveTime))
    else .goto (.retval iiOldest)
  | .retval iiOldest => .act .killSwitchStatus fun killed =>
    .goto (.raise iiOldest (if killed then iiOldest + 1 else 0))
  | .raise iiOldest retval => .act .raiseSigterm fun raised =>
    let c := (Control.goto (.finalUnlock retval)).log .fatal (unresponsive iiOldest)
    if raised then c else c.log .fatal "unable to raise SIGTERM signal"
  | .finalUnlock retval => .call (.unlock .gTimestampsMtx) fun r =>
    if r = .success then (Control.goto (.exited retval)).log .info "thread exiting"
    else (Control.goto (.exited (-3))).log .error "couldn't release timestamps mutex"
  | .exited _ => .exit

end Watchdog
end CpuUsageTracker
