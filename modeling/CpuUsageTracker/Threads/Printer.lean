import CpuUsageTracker.Calls

/-!
# `PrinterThread`

A translation of `printer.c`. The input buffer is `usageInfoCbuf`. `main` also passes
`inNotFullCv`, which the function does not use.

The records that `printFormattedCpuUsage` is called with are what the model keeps of the output.
-/

namespace CpuUsageTracker

open Threads

inductive PrinterPc (V : Type)
  | threadInfoSet
  | malloc
  | head (usageInfoBuffer : CpuUsageInfo V)
  | lock (usageInfoBuffer : CpuUsageInfo V)
  | waiting (usageInfoBuffer : CpuUsageInfo V) (w : WaitPc)
  | killTest (usageInfoBuffer : CpuUsageInfo V)
  | breakUnlock
  | read (usageInfoBuffer : CpuUsageInfo V)
  | unlock (usageInfoBuffer : CpuUsageInfo V)
  | print (usageInfoBuffer : CpuUsageInfo V)
  | exited

namespace Printer

def mutexWaitTimeMs : ℕ := 50
def condvarWaitTimeMs : ℕ := 2000

def threadInfo : ThreadInfo := ⟨.printer, "Printer"⟩

def inNotEmpty : WaitLoop where
  test := .usageInfoIsEmpty
  cv := .usageInfoNotEmptyCv
  mtx := .usageInfoMtx
  ms := condvarWaitTimeMs
  name := "input condition variable"

variable {V : Type}

def exiting : Control (PrinterPc V) := (Control.goto .exited).log .info "thread exiting"

def code : PrinterPc V → Code V (Control (PrinterPc V))
  | .threadInfoSet => .act (.threadInfoSet threadInfo) fun r =>
    if r = .success then .goto .malloc else .goto .exited
  | .malloc => .act .mallocUsageInfo fun u =>
    match u with
    | some u => .goto (.head u)
    | none => .goto .exited
  | .head u => .act .killSwitchStatus fun killed =>
    if killed then exiting else (Control.goto (.lock u)).reportActive
  | .lock u => .call (.tryLock .usageInfoMtx mutexWaitTimeMs) fun r =>
    if r = .success then .goto (.waiting u .timePoint)
    else (Control.goto (.head u)).log .warning "couldn't acquire input buffer mutex"
  | .waiting u w => inNotEmpty.code (.waiting u) (.goto (.killTest u)) w
  | .killTest u => .act .killSwitchStatus fun killed =>
    if killed then .goto .breakUnlock else .goto (.read u)
  | .breakUnlock => .call (.unlock .usageInfoMtx) fun r =>
    exiting.logUnless r "couldn't release input buffer mutex"
  -- a failed read is logged, and the iteration goes on with what the buffer held before
  | .read u => .act (.pipe .usageInfoRead) fun x =>
    match x with
    | none => (Control.goto (.unlock u)).log .error "attempted read from empty buffer"
    | some x => .goto (.unlock x)
  | .unlock u => .call (.unlock .usageInfoMtx) fun r =>
    if r = .success then .goto (.print u)
    else (Control.goto (.head u)).log .error "couldn't release input buffer mutex"
  | .print u => .act (.pipe (.print u)) fun _ =>
    (Control.goto (.head u)).log .trace "usage statistics printed to standard output"
  | .exited => .exit

end Printer
end CpuUsageTracker
