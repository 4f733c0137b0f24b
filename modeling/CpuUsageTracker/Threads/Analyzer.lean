import CpuUsageTracker.Threads.Reader

/-!
# `AnalyzerThread`

A translation of `analyzer.c`, with the parameters that `main` passes: the input buffer is
`procStatCbuf`, the output buffer is `usageInfoCbuf`. The three local buffers and the flag are
values of the thread (`AnalyzerVars`), so exchanging the two pointers exchanges the contents.
-/

namespace CpuUsageTracker

open Threads

structure AnalyzerVars (V : Type) where
  oldStatBuffer : ProcStat
  newStatBuffer : ProcStat
  usageInfoBuffer : CpuUsageInfo V
  oldStatBufferInitialized : Bool

inductive AnalyzerPc (V : Type)
  | threadInfoSet
  | mallocOld
  | mallocNew (old : Option ProcStat)
  | mallocUsageInfo (old new : Option ProcStat)
  | head (v : AnalyzerVars V)
  | lockIn (v : AnalyzerVars V)
  | waitingIn (v : AnalyzerVars V) (w : WaitPc)
  | killTestIn (v : AnalyzerVars V)
  | breakUnlockIn
  | read (v : AnalyzerVars V)
  | emptyUnlock (v : AnalyzerVars V)
  | unlockIn (v : AnalyzerVars V)
  | notifyIn (v : AnalyzerVars V)
  | lockOut (v : AnalyzerVars V)
  | waitingOut (v : AnalyzerVars V) (w : WaitPc)
  | killTestOut (v : AnalyzerVars V)
  | breakUnlockOut
  | write (v : AnalyzerVars V)
  | unlockOut (v : AnalyzerVars V)
  | notifyOut (v : AnalyzerVars V)
  | exited

namespace AnalyzerVars

variable {V : Type}

def swap (v : AnalyzerVars V) : AnalyzerVars V :=
  { v with oldStatBuffer := v.newStatBuffer, newStatBuffer := v.oldStatBuffer }

def calculate [PercentageValue V] (v : AnalyzerVars V) : AnalyzerVars V :=
  { v with usageInfoBuffer := .calculate v.oldStatBuffer v.newStatBuffer }

end AnalyzerVars

namespace Analyzer

def mutexWaitTimeMs : ℕ := 50
def condvarWaitTimeMs : ℕ := 2000

def threadInfo : ThreadInfo := ⟨.analyzer, "Analyzer"⟩

def inNotEmpty : WaitLoop where
  test := .procStatIsEmpty
  cv := .procStatNotEmptyCv
  mtx := .procStatMtx
  ms := condvarWaitTimeMs
  name := "input condition variable"

def outNotFull : WaitLoop where
  test := .usageInfoIsFull
  cv := .usageInfoNotFullCv
  mtx := .usageInfoMtx
  ms := condvarWaitTimeMs
  name := "output condition variable"

variable {V : Type} [PercentageValue V]

def exiting : Control (AnalyzerPc V) := (Control.goto .exited).log .info "thread exiting"

/-- Where the thread goes once it has a sample and has tried to signal. -/
def haveSample (v : AnalyzerVars V) : Control (AnalyzerPc V) :=
  if v.oldStatBufferInitialized then .goto (.lockOut v.calculate)
  else .goto (.head { v.swap with oldStatBufferInitialized := true })

/-- The messages at level `trace` that end an iteration. -/
def traceLogs (v : AnalyzerVars V) : List LogCall :=
  [⟨.trace, Reader.rawData "old data:" v.oldStatBuffer⟩,
    ⟨.trace, Reader.rawData "new data:" v.newStatBuffer⟩,
    ⟨.trace, "result: " ++ (v.usageInfoBuffer.values.head?.map PercentageValue.format).getD ""⟩]

def code : AnalyzerPc V → Code V (Control (AnalyzerPc V))
  | .threadInfoSet => .act (.threadInfoSet threadInfo) fun r =>
    if r = .success then .goto .mallocOld else .goto .exited
  | .mallocOld => .act .mallocProcStat fun old => .goto (.mallocNew old)
  | .mallocNew old => .act .mallocProcStat fun new => .goto (.mallocUsageInfo old new)
  | .mallocUsageInfo old new => .act .mallocUsageInfo fun usageInfo =>
    match old, new, usageInfo with
    | some old, some new, some usageInfo => .goto (.head ⟨old, new, usageInfo, false⟩)
    | _, _, _ => .goto .exited
  | .head v => .act .killSwitchStatus fun killed =>
    if killed then exiting else (Control.goto (.lockIn v)).reportActive
  | .lockIn v => .call (.tryLock .procStatMtx mutexWaitTimeMs) fun r =>
    if r = .success then .goto (.waitingIn v .timePoint)
    else (Control.goto (.head v)).log .warning "couldn't acquire input buffer mutex"
  | .waitingIn v w => inNotEmpty.code (.waitingIn v) (.goto (.killTestIn v)) w
  | .killTestIn v => .act .killSwitchStatus fun killed =>
    if killed then .goto .breakUnlockIn else .goto (.read v)
  | .breakUnlockIn => .call (.unlock .procStatMtx) fun r =>
    exiting.logUnless r "couldn't release input buffer mutex"
  | .read v => .act (.pipe .procStatRead) fun x =>
    match x with
    | none => (Control.goto (.emptyUnlock v)).log .error "attempted read from empty buffer"
    | some x => .goto (.unlockIn { v with newStatBuffer := x })
  | .emptyUnlock v => .call (.unlock .procStatMtx) fun r =>
    (Control.goto (.head v)).logUnless r "couldn't release input buffer mutex"
  | .unlockIn v => .call (.unlock .procStatMtx) fun r =>
    if r = .success then .goto (.notifyIn v)
    else (Control.goto (.head v)).log .error "couldn't release input buffer mutex"
  | .notifyIn v => .call (.notify .procStatNotFullCv) fun r =>
    (haveSample v).logUnless r "couldn't notify on input condition variable"
  | .lockOut v => .call (.tryLock .usageInfoMtx mutexWaitTimeMs) fun r =>
    if r = .success then .goto (.waitingOut v .timePoint)
    else (Control.goto (.head v)).log .warning "couldn't acquire output buffer mutex"
  | .waitingOut v w => outNotFull.code (.waitingOut v) (.goto (.killTestOut v)) w
  | .killTestOut v => .act .killSwitchStatus fun killed =>
    if killed then .goto .breakUnlockOut else .goto (.write v)
  | .breakUnlockOut => .call (.unlock .usageInfoMtx) fun r =>
    exiting.logUnless r "couldn't release output buffer mutex"
  | .write v => .act (.pipe (.usageInfoWrite v.usageInfoBuffer)) fun _ => .goto (.unlockOut v)
  | .unlockOut v => .call (.unlock .usageInfoMtx) fun r =>
    if r = .success then .goto (.notifyOut v)
    else (Control.goto (.head v)).log .error "couldn't release output buffer mutex"
  | .notifyOut v => .call (.notify .usageInfoNotEmptyCv) fun r =>
    let c := (Control.goto (.head v.swap)).logAll (traceLogs v)
    if r = .success then c.log .debug "notification sent on output condition variable"
    else c.log .error "couldn't notify on output condition variable"
  | .exited => .exit

end Analyzer
end CpuUsageTracker
