import CpuUsageTracker.Library.Ring

/-!
# `CircularBuffer`: the library in `libs/circbuf`

A translation of `circbuf.c`. Index arithmetic is `UInt32` and byte offsets are `UInt64`, as
in the source. A pointer into the caller's memory is the list of bytes from it to the end of
the block it points into, so advancing it drops bytes. The two `memcpy` calls are the only
accesses to memory; an operation is `none` when one of them would leave its block.

The `NULL` tests of the source are left out: `self` and the caller's pointers are values here.
-/

namespace CpuUsageTracker

/-- The control structure. `buffer` is the block that `malloc` returned. -/
structure CircularBuffer where
  buffer : List UInt8
  capacity : UInt32
  readOffset : UInt32
  itemCount : UInt32
  itemSize : UInt64


namespace CircularBuffer

def uint32Min (a b : UInt32) : UInt32 := if a < b then a else b

/-- The byte offset that the macro `offsetBy` adds to its base pointer. -/
def offsetBy (offset : UInt32) (unitSize : UInt64) : UInt64 := offset.toUInt64 * unitSize

/-- The size that `create` passes to `malloc`. -/
def allocSize (itemSize : UInt64) (capacity : UInt32) : UInt64 := itemSize * capacity.toUInt64

/-- `control` tells whether the control structure was allocated, `block` is the result of the
second `malloc`. -/
def create (itemSize : UInt64) (capacity : UInt32) (control : Bool)
    (block : Option (List UInt8)) : Option CircularBuffer :=
  if control then
    block.map fun buffer => { buffer, capacity, readOffset := 0, itemCount := 0, itemSize }
  else none

def clear (self : CircularBuffer) : CircularBuffer :=
  { self with itemCount := 0, readOffset := 0 }

/-! ## Single items -/

/-- The slot that `write` writes to. -/
def writeOffset (self : CircularBuffer) : UInt32 :=
  let writeOffset := self.readOffset + self.itemCount
  if self.capacity ≤ writeOffset then writeOffset - self.capacity else writeOffset

/-- The bookkeeping of `write`, before the copy. -/
def advance (self : CircularBuffer) : CircularBuffer :=
  if self.writeOffset = self.readOffset ∧ 0 < self.itemCount then
    { self with
      readOffset := if self.writeOffset + 1 < self.capacity then self.writeOffset + 1 else 0 }
  else { self with itemCount := self.itemCount + 1 }

def write (self : CircularBuffer) (itemPtr : List UInt8) : Option CircularBuffer :=
  (memcpy self.buffer (offsetBy self.writeOffset self.itemSize).toNat itemPtr
    self.itemSize.toNat).map fun buffer => { self.advance with buffer }

def tryWrite (self : CircularBuffer) (itemPtr : List UInt8) : Option (Bool × CircularBuffer) :=
  if self.capacity ≤ self.itemCount then some (false, self)
  else (self.write itemPtr).map fun self => (true, self)

/-- Returns whether there was an item, and the caller's memory after the call. -/
def peek (self : CircularBuffer) (itemOutPtr : List UInt8) : Option (Bool × List UInt8) :=
  if self.itemCount < 1 then some (false, itemOutPtr)
  else (memcpy itemOutPtr 0
    (self.buffer.drop (offsetBy self.readOffset self.itemSize).toNat)
    self.itemSize.toNat).map fun out => (true, out)

def read (self : CircularBuffer) (itemOutPtr : List UInt8) :
    Option (Bool × List UInt8 × CircularBuffer) :=
  if self.itemCount < 1 then some (false, itemOutPtr, self)
  else (self.peek itemOutPtr).map fun (_, out) =>
    (true, out, { self with
      itemCount := self.itemCount - 1
      readOffset := if self.readOffset + 1 = self.capacity then 0 else self.readOffset + 1 })

/-! ## Many items -/

/-- The loop of `writeMany`, with `n` items to go. -/
def writeManyLoop (itemSize : ℕ) : ℕ → CircularBuffer → List UInt8 → Option CircularBuffer
  | 0, self, _ => some self
  | n + 1, self, inputBuffer =>
    (self.write inputBuffer).bind fun self =>
      writeManyLoop itemSize n self (inputBuffer.drop itemSize)

def writeMany (self : CircularBuffer) (inputBuffer : List UInt8) (itemCount : UInt32) :
    Option CircularBuffer :=
  if itemCount < 1 then some self
  else writeManyLoop self.itemSize.toNat itemCount.toNat self inputBuffer

def tryWriteMany (self : CircularBuffer) (inputBuffer : List UInt8) (itemCount : UInt32) :
    Option (UInt32 × CircularBuffer) :=
  if itemCount = 0 then some (0, self)
  else
    let availableCapacity := self.capacity - self.itemCount
    let writeCount := uint32Min itemCount availableCapacity
    (self.writeMany inputBuffer writeCount).map fun self => (writeCount, self)

/-- The loop of `readMany`, with `n` items left to ask for. -/
def readManyLoop (itemSize : ℕ) :
    ℕ → CircularBuffer → List UInt8 → Option (UInt32 × List UInt8 × CircularBuffer)
  | 0, self, outputBuffer => some (0, outputBuffer, self)
  | n + 1, self, outputBuffer =>
    (self.read outputBuffer).bind fun (ok, out, self) =>
      if ok then
        (readManyLoop itemSize n self (out.drop itemSize)).map fun (count, rest, self) =>
          (count + 1, out.take itemSize ++ rest, self)
      else some (0, out, self)

def readMany (self : CircularBuffer) (outputBuffer : List UInt8) (itemCount : UInt32) :
    Option (UInt32 × List UInt8 × CircularBuffer) :=
  if itemCount < 1 then some (0, outputBuffer, self)
  else readManyLoop self.itemSize.toNat itemCount.toNat self outputBuffer

/-- The loop of `peekMany`, with `n` items left to ask for. -/
def peekManyLoop (self : CircularBuffer) (itemSize : ℕ) :
    ℕ → List UInt8 → Option (UInt32 × List UInt8)
  | 0, outputBuffer => some (0, outputBuffer)
  | n + 1, outputBuffer =>
    (self.peek outputBuffer).bind fun (ok, out) =>
      if ok then
        (peekManyLoop self itemSize n (out.drop itemSize)).map fun (count, rest) =>
          (count + 1, out.take itemSize ++ rest)
      else some (0, out)

def peekMany (self : CircularBuffer) (outputBuffer : List UInt8) (itemCount : UInt32) :
    Option (UInt32 × List UInt8) :=
  if itemCount < 1 then some (0, outputBuffer)
  else peekManyLoop self self.itemSize.toNat itemCount.toNat outputBuffer

/-! ## Queries -/

def getCapacity (self : CircularBuffer) : UInt32 := self.capacity

def getItemCount (self : CircularBuffer) : UInt32 := self.itemCount

def isEmpty (self : CircularBuffer) : Bool := 0 == self.itemCount

def isFull (self : CircularBuffer) : Bool := self.itemCount == self.capacity

def getItemSize (self : CircularBuffer) : UInt64 := self.itemSize

/-! ## Sequences of operations -/

/-- A call of a public operation, with the caller's memory. -/
inductive Op
  | write (itemPtr : List UInt8)
  | tryWrite (itemPtr : List UInt8)
  | writeMany (inputBuffer : List UInt8) (itemCount : UInt32)
  | tryWriteMany (inputBuffer : List UInt8) (itemCount : UInt32)
  | read (itemOutPtr : List UInt8)
  | readMany (outputBuffer : List UInt8) (itemCount : UInt32)
  | peek (itemOutPtr : List UInt8)
  | clear

/-- What a call returns. -/
inductive Ret
  | void
  | flag (b : Bool)
  | count (n : UInt32)
  deriving DecidableEq

/-- What a call returns, with the caller's output buffer after it. -/
structure Outcome where
  ret : Ret
  out : List UInt8
  deriving DecidableEq

def exec (self : CircularBuffer) : Op → Option (Outcome × CircularBuffer)
  | .write item => (self.write item).map fun self => (⟨.void, []⟩, self)
  | .tryWrite item => (self.tryWrite item).map fun (b, self) => (⟨.flag b, []⟩, self)
  | .writeMany input n => (self.writeMany input n).map fun self => (⟨.void, []⟩, self)
  | .tryWriteMany input n =>
    (self.tryWriteMany input n).map fun (k, self) => (⟨.count k, []⟩, self)
  | .read out => (self.read out).map fun (b, out, self) => (⟨.flag b, out⟩, self)
  | .readMany out n => (self.readMany out n).map fun (k, out, self) => (⟨.count k, out⟩, self)
  | .peek out => (self.peek out).map fun (b, out) => (⟨.flag b, out⟩, self)
  | .clear => some (⟨.void, []⟩, self.clear)

/-- Run a sequence of calls, collecting the outcomes. -/
def run (self : CircularBuffer) : List Op → Option (List Outcome × CircularBuffer)
  | [] => some ([], self)
  | op :: ops => (self.exec op).bind fun (o, self) =>
    (run self ops).map fun (os, self) => (o :: os, self)

/-- The caller's memory is as large as the call needs: one item, `itemCount` items, and for the
bulk read as many items as it can return. -/
def Op.Fits (itemSize capacity : ℕ) : Op → Prop
  | .write item | .tryWrite item => itemSize ≤ item.length
  | .writeMany input n | .tryWriteMany input n => n.toNat * itemSize ≤ input.length
  | .read out | .peek out => itemSize ≤ out.length
  | .readMany out n => min n.toNat capacity * itemSize ≤ out.length
  | .clear => True

end CircularBuffer

end CpuUsageTracker
