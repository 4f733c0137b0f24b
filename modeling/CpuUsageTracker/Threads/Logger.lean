import CpuUsageTracker.Calls

/-!
# `LoggerThread`

A translation of `logger.c`, apart from `Log`, which is in `CpuUsageTracker.Calls`. The test of
the first lock attempt is the source's: the body of the loop is executed when the attempt does
*not* return `thrd_success`.

Nobody but this thread changes the pointers to the two buffers, so it may be taken to read a
pointer and use it in one step.
-/

namespace CpuUsageTracker

open Threads

/-- The three calls of `logAllFromCbuf`: in the main loop, and the two at the end. -/
inductive Drain
  | loop
  | finalInBuf
  | finalSecondaryBuf
  deriving DecidableEq, Repr

inductive LoggerPc
  | threadInfoSet
  | fopen
  | head
  | lock
  | timePoint
  | isEmpty (timePoint : Timespec)
  | killSwitch (timePoint : Timespec)
  | wait (timePoint : Timespec)
  | killTest
  | breakUnlock
  | swap
  | unlock
  | drain (k : Drain)
  | fputs (k : Drain) (item : LogItem)
  | finalLock
  | finalSwap
  | finalUnlock
  | exited
  deriving DecidableEq, Repr

namespace Logger

def mutexWaitTimeMs : ℕ := 50
def condvarWaitTimeMs : ℕ := 2000

def threadInfo : ThreadInfo := ⟨.logger, "Logger"⟩

def exiting : Control LoggerPc := (Control.goto .exited).log .info "thread exiting"

/-- Where the thread goes when `logAllFromCbuf` returns. -/
def drained : Drain → Control LoggerPc
  | .loop => .goto .head
  | .finalInBuf => .goto .finalUnlock
  | .finalSecondaryBuf => exiting

/-- Where it goes after a read. -/
def drainNext (k : Drain) : Option LogItem → Control LoggerPc
  | some item => .goto (.fputs k item)
  | none => drained k

def code {V : Type} : LoggerPc → Code V (Control LoggerPc)
  | .threadInfoSet => .act (.threadInfoSet threadInfo) fun r =>
    if r = .success then .goto .fopen else .goto .exited
  | .fopen => .act .fopen fun opened => if opened then .goto .head else .goto .exited
  | .head => .act .killSwitchStatus fun killed =>
    if killed then .goto .finalLock else (Control.goto .lock).reportActive
  | .lock => .call (.tryLock .gInMtx mutexWaitTimeMs) fun r =>
    if r ≠ .success then .goto .timePoint else .goto .head
  | .timePoint => .act (.timePointMs condvarWaitTimeMs) fun tp => .goto (.isEmpty tp)
  | .isEmpty tp => .act (.log .inBufIsEmpty) fun empty =>
    if empty then .goto (.killSwitch tp) else .goto .killTest
  | .killSwitch tp => .act .killSwitchStatus fun killed =>
    if killed then .goto .killTest else (Control.goto (.wait tp)).reportActive
  | .wait tp => .call (.waitUntil .gInNotEmptyCv .gInMtx tp) fun
    | .success =>
      (Control.goto .killTest).log .debug "received notification on input condition variable"
    | .timedout =>
      (Control.goto .killTest).log .warning "timeout while waiting on input condition variable"
    | .error =>
      (Control.goto (.isEmpty tp)).log .error "error while waiting on input condition variable"
  | .killTest => .act .killSwitchStatus fun killed =>
    if killed then .goto .breakUnlock else .goto .swap
  | .breakUnlock => .call (.unlock .gInMtx) fun r =>
    (Control.goto .finalLock).logUnless r "couldn't release input buffer mutex"
  | .swap => .act (.log .swap) fun _ => .goto .unlock
  | .unlock => .call (.unlock .gInMtx) fun r =>
    (Control.goto (.drain .loop)).logUnless r "couldn't release input buffer mutex"
  | .drain .finalInBuf => .act (.log .readInBuf) (drainNext .finalInBuf)
  | .drain .loop => .act (.log .readSecondaryBuf) (drainNext .loop)
  | .drain .finalSecondaryBuf => .act (.log .readSecondaryBuf) (drainNext .finalSecondaryBuf)
  | .fputs k item => .act (.log (.fputs item)) fun _ => .goto (.drain k)
  | .finalLock => .call (.tryLock .gInMtx 0) fun r =>
    if r = .success then .goto .finalSwap
    else exiting.log .error "finalization routine - couldn't acquire input buffer mutex"
  | .finalSwap => .act (.log .swap) fun _ => .goto (.drain .finalInBuf)
  | .finalUnlock => .call (.unlock .gInMtx) fun r =>
    (Control.goto (.drain .finalSecondaryBuf)).logUnless r
      "finalization routine - couldn't release input buffer mutex"
  | .exited => .exit

end Logger
end CpuUsageTracker
