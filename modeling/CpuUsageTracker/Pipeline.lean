import CpuUsageTracker.CpuUsage
import CpuUsageTracker.LogBuffers

/-!
# The data that flows through the pipeline

The reader's samples, the two buffers that `main` creates and the records that were printed.
`CircularBuffer_create` gives both buffers a capacity at which they behave as `Fifo`s
(`CircularBuffer.run_refines`), so a `Channel` stands for each: the queue, with everything that
was ever written to it and read from it.

A `ProcStat_t` on the heap is a `Sample`: its contents and its place in the order of
allocation. The two `malloc`ed buffers that the analyzer swaps are local to it and not modelled
as heap objects.
-/

namespace CpuUsageTracker

def procstatCbufCapacity : ℕ := 10
def usageinfoCbufCapacity : ℕ := 1

/-- What happens while `ProcStat_loadFromFile` reads `/proc/stat`: whether the file opens, reads,
ends within the buffer and closes, and what parsing its contents gives. -/
inductive FileRead
  | cannotOpen
  | readError (closed : Bool)
  | read (complete closed : Bool) (parsed : Option ProcStat)

namespace FileRead

def closeLog (closed : Bool) : List LogCall :=
  if closed then []
  else [⟨.error, "an error has been encountered while attempting to close file: /proc/stat"⟩]

/-- The messages of `ReadFileContent`. -/
def logs : FileRead → List LogCall
  | cannotOpen => [⟨.error, "cannot open file: /proc/stat"⟩]
  | readError closed =>
    ⟨.error, "an error has been encountered while attempting to read from file: /proc/stat"⟩ ::
      closeLog closed
  | read complete closed _ =>
    (if complete then [] else [⟨.warning, "file is too large for provided buffer: /proc/stat"⟩]) ++
      closeLog closed

def result : FileRead → Option ProcStat
  | read _ true parsed => parsed
  | _ => none

end FileRead

structure Sample where
  index : ℕ
  stat : ProcStat

structure Pipeline (V : Type) where
  /-- The number of samples allocated so far. -/
  allocated : ℕ
  destroyed : List ℕ
  procStatCbuf : Channel ProcStat procstatCbufCapacity
  usageInfoCbuf : Channel (CpuUsageInfo V) usageinfoCbufCapacity
  printed : List (CpuUsageInfo V)

def Pipeline.initial {V : Type} : Pipeline V where
  allocated := 0
  destroyed := []
  procStatCbuf := .empty
  usageInfoCbuf := .empty
  printed := []

/-- The tests of the three wait loops over the pipeline's buffers. -/
inductive PipeTest
  | procStatIsEmpty
  | procStatIsFull
  | usageInfoIsEmpty
  | usageInfoIsFull
  deriving DecidableEq, Repr

def PipeTest.eval {V : Type} (p : Pipeline V) : PipeTest → Bool
  | procStatIsEmpty => p.procStatCbuf.isEmpty
  | procStatIsFull => p.procStatCbuf.isFull
  | usageInfoIsEmpty => p.usageInfoCbuf.isEmpty
  | usageInfoIsFull => p.usageInfoCbuf.isFull

/-- The operations on the pipeline's data. -/
inductive PipeAct (V : Type)
  | loadFromFile
  | destroy (procStat : Sample)
  | test (x : PipeTest)
  | procStatWrite (x : ProcStat)
  | procStatRead
  | usageInfoWrite (x : CpuUsageInfo V)
  | usageInfoRead
  | print (x : CpuUsageInfo V)

namespace PipeAct

variable {V : Type}

@[reducible] def Result : PipeAct V → Type
  | loadFromFile => List LogCall × Option Sample
  | test _ => Bool
  | procStatRead => Option ProcStat
  | usageInfoRead => Option (CpuUsageInfo V)
  | destroy _ | procStatWrite _ | usageInfoWrite _ | print _ => Unit

/-- `file` is what happens if the action reads `/proc/stat`. -/
def perform (file : FileRead) (p : Pipeline V) : (a : PipeAct V) → Pipeline V × a.Result
  | loadFromFile =>
    ({ p with allocated := if file.result.isSome then p.allocated + 1 else p.allocated },
      file.logs, file.result.map fun stat => ⟨p.allocated, stat⟩)
  | destroy x => ({ p with destroyed := p.destroyed ++ [x.index] }, ())
  | test x => (p, x.eval p)
  | procStatWrite x => ({ p with procStatCbuf := p.procStatCbuf.write x }, ())
  | procStatRead => ({ p with procStatCbuf := p.procStatCbuf.read.2 }, p.procStatCbuf.read.1)
  | usageInfoWrite x => ({ p with usageInfoCbuf := p.usageInfoCbuf.write x }, ())
  | usageInfoRead => ({ p with usageInfoCbuf := p.usageInfoCbuf.read.2 }, p.usageInfoCbuf.read.1)
  | print x => ({ p with printed := p.printed ++ [x] }, ())

end PipeAct
end CpuUsageTracker
