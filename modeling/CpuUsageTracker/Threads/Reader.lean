import CpuUsageTracker.Calls

/-!
# `ReaderThread`

A translation of `reader.c`. The thread's parameters are those that `main` passes: `outMtx` is
`procStatMtx`, `outNotEmptyCv` and `outNotFullCv` are `procStatNotEmptyCv` and
`procStatNotFullCv`, and `outBuf` is `procStatCbuf`.
-/

namespace CpuUsageTracker

open Threads

inductive ReaderPc
  | threadInfoSet
  | head
  | load
  | lock (procStat : Sample)
  | waiting (procStat : Sample) (w : WaitPc)
  | killTest (procStat : Sample)
  | breakUnlock
  | write (procStat : Sample)
  | unlock (procStat : Sample)
  | notify (procStat : Sample)
  | destroy (procStat : Sample)
  | sleep
  | exited

namespace Reader

def mutexWaitTimeMs : ℕ := 50
def condvarWaitTimeMs : ℕ := 2000
def sleepTimeMs : ℕ := 500

def threadInfo : ThreadInfo := ⟨.reader, "Reader"⟩

def outNotFull : WaitLoop where
  test := .procStatIsFull
  cv := .procStatNotFullCv
  mtx := .procStatMtx
  ms := condvarWaitTimeMs
  name := "input not full condition variable"

/-- The counters in the message at level `trace`. -/
def rawData (label : String) (procStat : ProcStat) : String :=
  [CpuStatIndex.user, .nice, .system, .idle, .iowait, .irq, .softirq, .steal, .guest,
    .guestnice].foldl (fun text i => text ++ " " ++ toString ((procStat.cpuStats 0).values i))
    label

def exiting : Control ReaderPc := (Control.goto .exited).log .info "thread exiting"

def code {V : Type} : ReaderPc → Code V (Control ReaderPc)
  | .threadInfoSet => .act (.threadInfoSet threadInfo) fun r =>
    if r = .success then .goto .head else .goto .exited
  | .head => .act .killSwitchStatus fun killed =>
    if killed then exiting else (Control.goto .load).reportActive
  | .load => .act (.pipe .loadFromFile) fun (logs, procStat) =>
    match procStat with
    | none =>
      ((Control.goto .head).log .error "cannot load data from /proc/stat file").logAll logs
    | some procStat => (Control.goto (.lock procStat)).logAll logs
  | .lock procStat => .call (.tryLock .procStatMtx mutexWaitTimeMs) fun r =>
    if r = .success then .goto (.waiting procStat .timePoint)
    else (Control.goto .head).log .warning "couldn't acquire buffer mutex"
  | .waiting procStat w => outNotFull.code (.waiting procStat) (.goto (.killTest procStat)) w
  | .killTest procStat => .act .killSwitchStatus fun killed =>
    if killed then .goto .breakUnlock else .goto (.write procStat)
  | .breakUnlock => .call (.unlock .procStatMtx) fun r =>
    exiting.logUnless r "couldn't release input buffer mutex"
  | .write procStat => .act (.pipe (.procStatWrite procStat.stat)) fun _ =>
    .goto (.unlock procStat)
  | .unlock procStat => .call (.unlock .procStatMtx) fun r =>
    (Control.goto (.notify procStat)).logUnless r "couldn't release input buffer mutex"
  | .notify procStat => .call (.notify .procStatNotEmptyCv) fun r =>
    (((Control.goto (.destroy procStat)).log .trace
      (rawData "raw data:" procStat.stat ++ " ")).log .debug "procstat data sent").logUnless r
      "couldn't notify on input not empty condition variable"
  | .destroy procStat => .act (.pipe (.destroy procStat)) fun _ => .goto .sleep
  | .sleep => .sleep sleepTimeMs (.goto .head)
  | .exited => .exit

end Reader
end CpuUsageTracker
