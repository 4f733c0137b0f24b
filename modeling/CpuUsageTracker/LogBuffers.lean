import CpuUsageTracker.Library.Fifo

/-!
# The data of the logger

The logging level, the two message buffers of `logger.c` with the pointers to them, and the log
file. Each buffer holds at most 100 messages and drops its oldest one when it overflows.

A write and a read are single steps, even though the logger empties its buffers without a lock. When
that makes no difference is in `CpuUsageTracker.LogConservation`.

For the sake of the specification every message written gets a number, and the state keeps the
list of all messages written and the list of those that were dropped. The program never looks at
these.
-/

namespace CpuUsageTracker

def loggerMessageBufferItemCount : ℕ := 100

inductive LogLevel
  | none
  | fatal
  | error
  | warning
  | info
  | debug
  | trace
  deriving DecidableEq, Repr

def LogLevel.toNat : LogLevel → ℕ
  | none => 0
  | fatal => 1
  | error => 2
  | warning => 3
  | info => 4
  | debug => 5
  | trace => 6

/-- The arguments of one call of `Log`, with the message already formatted. -/
structure LogCall where
  level : LogLevel
  text : String
  deriving DecidableEq, Repr

/-- What `Log` formats into one message. -/
structure LogMessage where
  time : String
  level : LogLevel
  threadName : String
  text : String
  deriving DecidableEq, Repr

structure LogItem where
  seq : ℕ
  message : LogMessage
  deriving DecidableEq, Repr

/-- `gInBuf` is the pointer to the input buffer: it tells which of the two buffers that is. The
other one is `g_secondaryBuf`. -/
structure LogBuffers where
  buffers : Bool → Fifo LogItem loggerMessageBufferItemCount
  gInBuf : Bool
  written : List LogItem
  overwritten : List LogItem
  file : List LogItem

namespace LogBuffers

def initial : LogBuffers where
  buffers := fun _ => .empty
  gInBuf := false
  written := []
  overwritten := []
  file := []

def gSecondaryBuf (b : LogBuffers) : Bool := !b.gInBuf

def setBuffer (b : LogBuffers) (i : Bool) (q : Fifo LogItem loggerMessageBufferItemCount) :
    LogBuffers :=
  { b with buffers := Function.update b.buffers i q }

end LogBuffers

/-- The operations on the logger's buffers and file. -/
inductive LogAct
  | inBuf
  | inBufIsEmpty
  | write (buf : Bool) (message : LogMessage)
  | swap
  | readInBuf
  | readSecondaryBuf
  | fputs (item : LogItem)
  deriving DecidableEq, Repr

namespace LogAct

@[reducible] def Result : LogAct → Type
  | inBuf | inBufIsEmpty => Bool
  | readInBuf | readSecondaryBuf => Option LogItem
  | write _ _ | swap | fputs _ => Unit

/-- `CircularBuffer_write` of the next message to buffer `i`. -/
def performWrite (b : LogBuffers) (i : Bool) (message : LogMessage) : LogBuffers :=
  let item : LogItem := ⟨b.written.length, message⟩
  { b.setBuffer i ((b.buffers i).write item) with
    written := b.written ++ [item]
    overwritten := b.overwritten ++
      if (b.buffers i).isFull then (b.buffers i).items.head?.toList else [] }

def performRead (b : LogBuffers) (i : Bool) : LogBuffers × Option LogItem :=
  (b.setBuffer i (b.buffers i).read.2, (b.buffers i).read.1)

def perform (b : LogBuffers) : (a : LogAct) → LogBuffers × a.Result
  | inBuf => (b, b.gInBuf)
  | inBufIsEmpty => (b, (b.buffers b.gInBuf).isEmpty)
  | write i message => (performWrite b i message, ())
  | swap => ({ b with gInBuf := b.gSecondaryBuf }, ())
  | readInBuf => performRead b b.gInBuf
  | readSecondaryBuf => performRead b b.gSecondaryBuf
  | fputs item => ({ b with file := b.file ++ [item] }, ())

end LogAct
end CpuUsageTracker
