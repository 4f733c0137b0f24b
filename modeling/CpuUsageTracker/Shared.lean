import CpuUsageTracker.Library.Threads
import CpuUsageTracker.Pipeline
import CpuUsageTracker.Timespec
import Mathlib.Data.Fintype.Sum
import Mathlib.Tactic.DeriveFintype

/-!
# The program's threads, its synchronisation objects and its shared data

Besides the five threads that `main` starts there may be others, one for each element of `ω`.
They call `Log` and `Watchdog_reportActive`.

`Act` lists the atomic actions on shared data, `Data.perform` is their effect. What the system
decides about an action (whether `malloc` succeeds, what `/proc/stat` contains, what the clock's
time looks like as text) comes in as an `Input`. Signals and the passing of time are the doing of
the environment (`Data.env`).
-/

namespace CpuUsageTracker

open Threads

inductive ThreadId
  | reader
  | analyzer
  | printer
  | logger
  | watchdog
  deriving DecidableEq, Repr

namespace ThreadId

/-- The threads in the order of their numbers, which index `g_timestamps`. -/
def all : List ThreadId := [reader, analyzer, printer, logger, watchdog]

/-- `THREAD_NAMES`. -/
def name : ThreadId → String
  | reader => "Reader"
  | analyzer => "Analyzer"
  | printer => "Printer"
  | logger => "Logger"
  | watchdog => "Watchdog"

end ThreadId

structure ThreadInfo where
  tid : ThreadId
  name : String
  deriving DecidableEq, Repr

inductive Thread (ω : Type)
  | reader
  | analyzer
  | printer
  | logger
  | watchdog
  | other (w : ω)
  deriving DecidableEq, Fintype

inductive Mutex
  | gInMtx
  | gTimestampsMtx
  | procStatMtx
  | usageInfoMtx
  deriving DecidableEq, Repr

inductive CondVar
  | gInNotEmptyCv
  | gTimestampsUpdatedCv
  | procStatNotEmptyCv
  | procStatNotFullCv
  | usageInfoNotEmptyCv
  | usageInfoNotFullCv
  deriving DecidableEq, Repr

/-- `threadInfo` is the thread-specific storage, `clock` the time in nanoseconds. -/
structure Data (ω V : Type) where
  killSwitch : Bool
  programLoggingLevel : LogLevel
  threadInfo : Thread ω → Option ThreadInfo
  clock : ℕ
  pipeline : Pipeline V
  log : LogBuffers
  timestamps : ThreadId → Timespec

/-- The calls that other threads make. -/
inductive ApiCall
  | log (call : LogCall)
  | reportActive

structure Input (V : Type) where
  /-- Whether the system call succeeds. -/
  ok : Bool
  file : FileRead
  procStat : ProcStat
  usageInfo : CpuUsageInfo V
  time : String
  call : ApiCall

inductive Act (V : Type)
  | killSwitchStatus
  | raiseSigterm
  | threadInfoSet (info : ThreadInfo)
  | threadInfoGet
  | loggingLevel
  | timeStr
  | timePointMs (ms : ℕ)
  | currentTime
  | mallocProcStat
  | mallocUsageInfo
  | fopen
  | stamp (tid : ThreadId)
  | setTimestamp (tid : ThreadId) (now : Timespec)
  | initTimestamps (now : Timespec)
  | timestamps
  | pipe (a : PipeAct V)
  | log (a : LogAct)
  | apiCall

namespace Act

variable {V : Type}

@[reducible] def Result : Act V → Type
  | killSwitchStatus => Bool
  | raiseSigterm => Bool
  | threadInfoSet _ => ThrdResult
  | threadInfoGet => Option ThreadInfo
  | loggingLevel => LogLevel
  | timeStr => String
  | timePointMs _ => Timespec
  | currentTime => Timespec
  | mallocProcStat => Option ProcStat
  | mallocUsageInfo => Option (CpuUsageInfo V)
  | fopen => Bool
  | stamp _ | setTimestamp _ _ | initTimestamps _ => Unit
  | timestamps => ThreadId → Timespec
  | pipe a => a.Result
  | log a => a.Result
  | apiCall => ApiCall

end Act

namespace Data

variable {ω V : Type} [DecidableEq ω]

/-- What an action of thread `t` does. -/
def perform (t : Thread ω) : (a : Act V) → Input V → Data ω V → Data ω V × a.Result
  | .killSwitchStatus, _, d => (d, d.killSwitch)
  -- the handler of `SIGTERM` runs before `raise` returns
  | .raiseSigterm, i, d => ({ d with killSwitch := d.killSwitch || i.ok }, i.ok)
  | .threadInfoSet info, i, d =>
    ({ d with
        threadInfo := if i.ok then Function.update d.threadInfo t (some info) else d.threadInfo },
      if i.ok then .success else .error)
  | .threadInfoGet, _, d => (d, d.threadInfo t)
  | .loggingLevel, _, d => (d, d.programLoggingLevel)
  | .timeStr, i, d => (d, i.time)
  | .timePointMs ms, _, d => (d, CpuUsageTracker.timePointMs (timespecGet d.clock) ms)
  | .currentTime, _, d => (d, timespecGet d.clock)
  -- a fresh block has arbitrary contents
  | .mallocProcStat, i, d => (d, if i.ok then some i.procStat else none)
  | .mallocUsageInfo, i, d => (d, if i.ok then some i.usageInfo else none)
  | .fopen, i, d => (d, i.ok)
  | .stamp tid, _, d =>
    ({ d with timestamps := Function.update d.timestamps tid (timespecGet d.clock) }, ())
  | .setTimestamp tid now, _, d =>
    ({ d with timestamps := Function.update d.timestamps tid now }, ())
  | .initTimestamps now, _, d => ({ d with timestamps := fun _ => now }, ())
  | .timestamps, _, d => (d, d.timestamps)
  | .pipe a, i, d =>
    ({ d with pipeline := (a.perform i.file d.pipeline).1 }, (a.perform i.file d.pipeline).2)
  | .log a, _, d => ({ d with log := (a.perform d.log).1 }, (a.perform d.log).2)
  | .apiCall, i, d => (d, i.call)

/-- `SIGINT` or `SIGTERM` arrives, or `ns` nanoseconds pass. -/
inductive Env
  | signal
  | tick (ns : ℕ)
  deriving DecidableEq, Repr

def env : Env → Data ω V → Data ω V
  | .signal, d => { d with killSwitch := true }
  | .tick ns, d => { d with clock := d.clock + ns }

end Data
end CpuUsageTracker
