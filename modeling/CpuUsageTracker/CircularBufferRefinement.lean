import CpuUsageTracker.CircularBuffer
import CpuUsageTracker.Library.Fifo

/-!
# `CircularBuffer` refines a bounded queue

The abstract object is an `ItemQueue c`: a `Fifo` of byte strings that drops its oldest item.
`Refines sz cb q` says that the byte array holds `q`: item `i` of the queue is the content of
slot `(readOffset + i) mod capacity`.

Each operation has one lemma (`refines_write`, `refines_read`, …): it stays inside its blocks,
returns what the queue operation returns, and leaves a state that refines the new queue. The
bulk operations go by induction on the items still to move. `run_refines` puts the operations
together for a sequence of calls of any length.

The capacity is at most `2 ^ 31`, so `readOffset + itemCount` does not wrap, and the size of the
block is below `2 ^ 64`, so byte offsets do not wrap either (`toNat_writeOffset`,
`toNat_offsetBy`).
-/

namespace CpuUsageTracker

namespace CircularBuffer

/-! ## The abstract queue -/

/-- A queue of items, each of them a string of bytes. -/
abbrev ItemQueue (c : ℕ) := Fifo (List UInt8) c

/-- The caller's output buffer. -/
def Op.outputBuffer : Op → List UInt8
  | .read out | .readMany out _ | .peek out => out
  | _ => []

/-- `out` with the items `xs` at its start. -/
def fill (xs : List (List UInt8)) (sz : ℕ) (out : List UInt8) : List UInt8 :=
  xs.flatten ++ out.drop (xs.length * sz)

/-- What each call means for the queue. -/
def ItemQueue.exec {c : ℕ} (sz : ℕ) (q : ItemQueue c) : Op → Outcome × ItemQueue c
  | .write item => (⟨.void, []⟩, q.write (item.take sz))
  | .tryWrite item =>
    if q.isFull then (⟨.flag false, []⟩, q) else (⟨.flag true, []⟩, q.write (item.take sz))
  | .writeMany input n => (⟨.void, []⟩, q.writeMany (slots input sz n.toNat))
  | .tryWriteMany input n =>
    (⟨.count (UInt32.ofNat (q.tryWriteMany (slots input sz n.toNat)).1), []⟩,
      (q.tryWriteMany (slots input sz n.toNat)).2)
  | .read out => (⟨.flag !q.isEmpty, fill q.read.1.toList sz out⟩, q.read.2)
  | .readMany out n =>
    (⟨.count (UInt32.ofNat (q.readMany n.toNat).1.length), fill (q.readMany n.toNat).1 sz out⟩,
      (q.readMany n.toNat).2)
  | .peek out => (⟨.flag !q.isEmpty, fill q.read.1.toList sz out⟩, q)
  | .clear => (⟨.void, []⟩, .empty)

def ItemQueue.run {c : ℕ} (sz : ℕ) (q : ItemQueue c) : List Op → List Outcome × ItemQueue c
  | [] => ([], q)
  | op :: ops => ((q.exec sz op).1 :: (run sz (q.exec sz op).2 ops).1, (run sz (q.exec sz op).2 ops).2)

/-- The call returned `false` or `0`. -/
def Outcome.Refused (o : Outcome) : Prop := o.ret = .flag false ∨ o.ret = .count 0

/-! ## Arithmetic -/

variable {c sz : ℕ} {cb : CircularBuffer} {q : ItemQueue c}

theorem toNat_add_of_lt {a b : UInt32} (h : a.toNat + b.toNat < 2 ^ 32) :
    (a + b).toNat = a.toNat + b.toNat := by
  rw [UInt32.toNat_add, Nat.mod_eq_of_lt h]

/-- The write slot is the mathematical one while `readOffset + itemCount` does not wrap. -/
theorem toNat_writeOffset (hr : cb.readOffset.toNat < cb.capacity.toNat)
    (hn : cb.itemCount.toNat ≤ cb.capacity.toNat) (hc : cb.capacity.toNat ≤ 2 ^ 31) :
    cb.writeOffset.toNat =
      (cb.readOffset.toNat + cb.itemCount.toNat) % cb.capacity.toNat := by
  have hsum := toNat_add_of_lt (a := cb.readOffset) (b := cb.itemCount) (by omega)
  rw [mod_eq_ite_of_lt_two_mul (by omega), writeOffset]
  by_cases hle : cb.capacity ≤ cb.readOffset + cb.itemCount
  · have hle' := UInt32.le_iff_toNat_le.1 hle
    rw [if_pos hle, if_neg (by omega), UInt32.toNat_sub_of_le _ _ hle, hsum]
  · have hle' := mt UInt32.le_iff_toNat_le.2 hle
    rw [if_neg hle, if_pos (by omega), hsum]

/-- Byte offsets of slots do not wrap while the whole block is below `2 ^ 64` bytes. -/
theorem toNat_offsetBy {o : UInt32} (unitSize : UInt64) (ho : o.toNat < c)
    (hsz : unitSize.toNat * c < 2 ^ 64) :
    (offsetBy o unitSize).toNat = o.toNat * unitSize.toNat := by
  have hle : o.toNat * unitSize.toNat ≤ unitSize.toNat * c := by
    have := slot_mem unitSize.toNat ho
    omega
  rw [offsetBy, UInt64.toNat_mul, UInt32.toNat_toUInt64, Nat.mod_eq_of_lt (by omega)]

/-! ## The refinement relation -/

/-- The byte array holds the queue: item `i` is in slot `(readOffset + i) mod capacity`. -/
structure Refines (sz : ℕ) (cb : CircularBuffer) (q : ItemQueue c) : Prop where
  capacity : cb.capacity.toNat = c
  itemSize : cb.itemSize.toNat = sz
  length : cb.buffer.length = sz * c
  count : cb.itemCount.toNat = q.items.length
  offset : cb.readOffset.toNat < c
  window : Window (slotAt cb.buffer sz) c cb.readOffset.toNat q.items
  /-- The bounds under which the index arithmetic does not wrap. -/
  small : c ≤ 2 ^ 31 ∧ sz * c < 2 ^ 64

theorem refines_create {itemSize : UInt64} {capacity : UInt32} {block : List UInt8}
    (hpos : 1 ≤ capacity.toNat) (hc : capacity.toNat ≤ 2 ^ 31)
    (hsz : itemSize.toNat * capacity.toNat < 2 ^ 64)
    (hblock : block.length = (allocSize itemSize capacity).toNat) :
    Refines itemSize.toNat ⟨block, capacity, 0, 0, itemSize⟩
      (.empty : ItemQueue capacity.toNat) where
  capacity := rfl
  itemSize := rfl
  length := by
    rw [hblock, allocSize, UInt64.toNat_mul, UInt32.toNat_toUInt64, Nat.mod_eq_of_lt hsz]
  count := rfl
  offset := hpos
  window := Window.nil _ _ _
  small := ⟨hc, hsz⟩

namespace Refines

theorem count_le (h : Refines sz cb q) : cb.itemCount.toNat ≤ c := h.count ▸ q.length_le

theorem toNat_writeOffset (h : Refines sz cb q) :
    cb.writeOffset.toNat = (cb.readOffset.toNat + q.items.length) % c := by
  have hw := @CircularBuffer.toNat_writeOffset cb (by rw [h.capacity]; exact h.offset)
    (by rw [h.capacity]; exact h.count_le) (by rw [h.capacity]; exact h.small.1)
  rwa [h.capacity, h.count] at hw

theorem toNat_offsetBy (h : Refines sz cb q) {o : UInt32} (ho : o.toNat < c) :
    (offsetBy o cb.itemSize).toNat = o.toNat * sz := by
  have := CircularBuffer.toNat_offsetBy cb.itemSize ho
    (by rw [h.itemSize]; exact h.small.2)
  rwa [h.itemSize] at this

theorem isEmpty_eq (h : Refines sz cb q) : cb.isEmpty = q.isEmpty := by
  have hcount := h.count
  rw [Bool.eq_iff_iff, Fifo.isEmpty_iff, ← List.length_eq_zero_iff, ← hcount, isEmpty, beq_iff_eq,
    eq_comm, ← UInt32.toNat_inj]
  rfl

theorem isFull_eq (h : Refines sz cb q) : cb.isFull = q.isFull := by
  rw [Bool.eq_iff_iff, Fifo.isFull_iff, ← h.count, isFull, beq_iff_eq, ← UInt32.toNat_inj,
    h.capacity]

/-- The slots of the items have the item size. -/
theorem length_item (h : Refines sz cb q) {x : List UInt8} (hx : x ∈ q.items) :
    x.length = sz := by
  obtain ⟨i, hi, rfl⟩ := List.mem_iff_getElem.1 hx
  have hslot := h.window i _ (List.getElem?_eq_getElem hi)
  have hmem := slot_mem sz (Nat.mod_lt (cb.readOffset.toNat + i)
    (Nat.lt_of_le_of_lt (Nat.zero_le _) h.offset))
  rw [← hslot, slotAt, List.length_take, List.length_drop, h.length]
  omega

end Refines

/-! ## Writing -/

/-- The bookkeeping of a write that finds room. -/
theorem advance_of_room (h : Refines sz cb q) (hroom : q.items.length < c) :
    cb.advance = { cb with itemCount := cb.itemCount + 1 } ∧
      (cb.itemCount + 1).toNat = q.items.length + 1 := by
  have hcount := h.count
  have hsmall := h.small.1
  constructor
  · refine if_neg fun ⟨heq, hpos⟩ => ?_
    have heq' := congrArg UInt32.toNat heq
    rw [h.toNat_writeOffset] at heq'
    have hmod : (cb.readOffset.toNat + q.items.length) % c =
        (cb.readOffset.toNat + 0) % c := by
      rw [heq', Nat.add_zero, Nat.mod_eq_of_lt h.offset]
    have hzero := add_mod_inj hroom (by omega) hmod
    have hpos' := UInt32.lt_iff_toNat_lt.1 hpos
    simp only [UInt32.toNat_zero] at hpos'
    omega
  · rw [toNat_add_of_lt (by simp only [UInt32.toNat_one]; omega), UInt32.toNat_one, hcount]

/-- The bookkeeping of a write that finds the buffer full. -/
theorem advance_of_full (h : Refines sz cb q) (hfull : q.items.length = c) :
    ∃ r : UInt32, cb.advance = { cb with readOffset := r } ∧
      r.toNat = (cb.readOffset.toNat + 1) % c := by
  have hcount := h.count
  have hsmall := h.small.1
  have hoff := h.offset
  have hw : cb.writeOffset = cb.readOffset := by
    rw [← UInt32.toNat_inj, h.toNat_writeOffset, hfull, Nat.add_mod_right, Nat.mod_eq_of_lt hoff]
  have hpos : 0 < cb.itemCount := by
    rw [UInt32.lt_iff_toNat_lt, hcount, hfull]
    exact Nat.lt_of_le_of_lt (Nat.zero_le _) hoff
  refine ⟨_, if_pos ⟨hw, hpos⟩, ?_⟩
  have hsucc : (cb.readOffset + 1).toNat = cb.readOffset.toNat + 1 := by
    rw [toNat_add_of_lt (by simp only [UInt32.toNat_one]; omega), UInt32.toNat_one]
  rw [hw, mod_eq_ite_of_lt_two_mul (by omega)]
  by_cases hlt : cb.readOffset + 1 < cb.capacity
  · have hlt' := UInt32.lt_iff_toNat_lt.1 hlt
    rw [hsucc, h.capacity] at hlt'
    rw [if_pos hlt, if_pos hlt', hsucc]
  · have hlt' := mt UInt32.lt_iff_toNat_lt.2 hlt
    rw [hsucc, h.capacity] at hlt'
    rw [if_neg hlt, if_neg hlt', UInt32.toNat_zero]
    omega

theorem refines_write (h : Refines sz cb q) (item : List UInt8) (hitem : sz ≤ item.length) :
    ∃ cb', cb.write item = some cb' ∧ Refines sz cb' (q.write (item.take sz)) := by
  have hpos : 0 < c := Nat.lt_of_le_of_lt (Nat.zero_le _) h.offset
  have hlt : cb.writeOffset.toNat < c := by
    rw [h.toNat_writeOffset]
    exact Nat.mod_lt _ hpos
  -- The copy stays inside the block and changes one slot only.
  obtain ⟨mem, hmem⟩ : ∃ mem,
      memcpy cb.buffer (cb.writeOffset.toNat * sz) item sz = some mem :=
    ⟨_, memcpy_eq_some (by rw [h.length]; exact slot_mem sz hlt) hitem⟩
  have hnew : slotAt mem sz ((cb.readOffset.toNat + q.items.length) % c) = item.take sz := by
    rw [← h.toNat_writeOffset]
    exact slot_memcpy_same hmem
  have hold : ∀ j < c, j ≠ (cb.readOffset.toNat + q.items.length) % c →
      slotAt mem sz j = slotAt cb.buffer sz j := by
    intro j _ hj
    rw [← h.toNat_writeOffset] at hj
    exact slot_memcpy_ne hmem hj
  refine ⟨{ cb.advance with buffer := mem }, ?_, ?_⟩
  · rw [write, h.toNat_offsetBy hlt, h.itemSize, hmem]
    rfl
  rcases Nat.lt_or_ge q.items.length c with hroom | hge
  · obtain ⟨hadv, hcount⟩ := advance_of_room h hroom
    have hitems := Fifo.items_write_of_not_full ((Fifo.isFull_eq_false_iff q).2 hroom)
      (item.take sz)
    rw [hadv]
    exact {
      capacity := h.capacity
      itemSize := h.itemSize
      length := (length_memcpy hmem).trans h.length
      count := by rw [hitems, List.length_append, List.length_singleton]; exact hcount
      offset := h.offset
      window := by rw [hitems]; exact h.window.push hroom hnew hold
      small := h.small }
  · have hfull : q.items.length = c := Nat.le_antisymm q.length_le hge
    obtain ⟨r, hadv, hr⟩ := advance_of_full h hfull
    have hitems := Fifo.items_write_of_full hpos ((Fifo.isFull_iff q).2 hfull) (item.take sz)
    obtain ⟨y, l, hyl⟩ : ∃ y l, q.items = y :: l := by
      cases hq : q.items with
      | nil => rw [hq] at hfull; exact absurd hfull (by simp; omega)
      | cons y l => exact ⟨y, l, rfl⟩
    have hl : l.length + 1 = c := by rw [← hfull, hyl, List.length_cons]
    have hslot : (cb.readOffset.toNat + q.items.length) % c = cb.readOffset.toNat % c := by
      rw [hfull, Nat.add_mod_right]
    rw [hslot] at hnew hold
    have hwin := h.window
    rw [hyl] at hwin hitems
    rw [hadv]
    exact {
      capacity := h.capacity
      itemSize := h.itemSize
      length := (length_memcpy hmem).trans h.length
      count := by
        rw [hitems, List.tail_cons, List.length_append, List.length_singleton, hl, ← hfull]
        exact h.count
      offset := by rw [hr]; exact Nat.mod_lt _ hpos
      window := by rw [hitems, hr]; exact hwin.overwrite hl hnew hold
      small := h.small }

theorem refines_writeManyLoop (n : ℕ) : ∀ {cb : CircularBuffer} {q : ItemQueue c}
    (input : List UInt8), Refines sz cb q → n * sz ≤ input.length →
    ∃ cb', writeManyLoop sz n cb input = some cb' ∧
      Refines sz cb' (q.writeMany (slots input sz n)) := by
  induction n with
  | zero =>
    intro cb q input h _
    exact ⟨cb, rfl, by rw [slots, Fifo.writeMany_nil]; exact h⟩
  | succ n ih =>
    intro cb q input h hlen
    rw [Nat.succ_mul] at hlen
    obtain ⟨cb₁, hw, h₁⟩ := refines_write h input (by omega)
    obtain ⟨cb₂, hloop, h₂⟩ := ih (input.drop sz) h₁ (by rw [List.length_drop]; omega)
    refine ⟨cb₂, by rw [writeManyLoop, hw]; exact hloop, ?_⟩
    rw [slots, Fifo.writeMany_cons]
    exact h₂

theorem refines_writeMany (h : Refines sz cb q) (input : List UInt8) {n : UInt32}
    (hlen : n.toNat * sz ≤ input.length) :
    ∃ cb', cb.writeMany input n = some cb' ∧
      Refines sz cb' (q.writeMany (slots input sz n.toNat)) := by
  obtain ⟨cb', hloop, h'⟩ := refines_writeManyLoop n.toNat input h hlen
  refine ⟨cb', ?_, h'⟩
  rw [writeMany, h.itemSize, hloop]
  split_ifs with hn
  · have hzero : n.toNat = 0 := by
      have := UInt32.lt_iff_toNat_lt.1 hn
      simp only [UInt32.toNat_one] at this
      omega
    rw [hzero] at hloop
    exact hloop
  · rfl

theorem toNat_uint32Min (a b : UInt32) : (uint32Min a b).toNat = min a.toNat b.toNat := by
  unfold uint32Min
  split_ifs with h
  · exact (Nat.min_eq_left (UInt32.lt_iff_toNat_lt.1 h).le).symm
  · exact (Nat.min_eq_right (Nat.le_of_not_lt (mt UInt32.lt_iff_toNat_lt.2 h))).symm

theorem refines_tryWriteMany (h : Refines sz cb q) {input : List UInt8} {n : UInt32}
    (hlen : n.toNat * sz ≤ input.length) :
    ∃ cb', cb.tryWriteMany input n =
        some (UInt32.ofNat (q.tryWriteMany (slots input sz n.toNat)).1, cb') ∧
      Refines sz cb' (q.tryWriteMany (slots input sz n.toNat)).2 := by
  have hroom : (cb.capacity - cb.itemCount).toNat = q.room := by
    have hle : cb.itemCount ≤ cb.capacity := by
      rw [UInt32.le_iff_toNat_le, h.capacity]
      exact h.count_le
    rw [UInt32.toNat_sub_of_le _ _ hle, h.capacity, h.count]
    rfl
  set k := min n.toNat q.room with hk
  have hcount : (q.tryWriteMany (slots input sz n.toNat)).1 = k := by
    simp [Fifo.tryWriteMany, hk]
  have hqueue : (q.tryWriteMany (slots input sz n.toNat)).2 = q.writeMany (slots input sz k) := by
    ext1
    rw [Fifo.writeMany_of_le_room (by rw [length_slots]; exact Nat.min_le_right _ _)]
    simp only [Fifo.tryWriteMany, length_slots]
    rw [slots_take, ← hk, Nat.min_eq_left (Nat.min_le_left _ _)]
  rw [hcount, hqueue, tryWriteMany]
  split_ifs with hn
  · have hzero : k = 0 := by rw [hk, hn, UInt32.toNat_zero, Nat.zero_min]
    refine ⟨cb, by rw [hzero]; rfl, ?_⟩
    rw [hzero, slots, Fifo.writeMany_nil]
    exact h
  · have hmin : (uint32Min n (cb.capacity - cb.itemCount)).toNat = k := by
      rw [toNat_uint32Min, hroom]
    obtain ⟨cb', hw, h'⟩ := refines_writeMany h input
      (n := uint32Min n (cb.capacity - cb.itemCount)) (by
        rw [hmin]
        exact (Nat.mul_le_mul_right sz (Nat.min_le_left _ _)).trans hlen)
    rw [hmin] at h'
    refine ⟨cb', ?_, h'⟩
    simp only [hw, Option.map_some]
    rw [← hmin, UInt32.ofNat_toNat]

theorem refines_tryWrite (h : Refines sz cb q) {item : List UInt8} (hitem : sz ≤ item.length) :
    (q.isFull = true → cb.tryWrite item = some (false, cb)) ∧
      (q.isFull = false → ∃ cb', cb.tryWrite item = some (true, cb') ∧
        Refines sz cb' (q.write (item.take sz))) := by
  have hle : cb.capacity ≤ cb.itemCount ↔ q.isFull = true := by
    rw [UInt32.le_iff_toNat_le, Fifo.isFull_iff, h.capacity, h.count]
    exact ⟨Nat.le_antisymm q.length_le, fun h => h.ge⟩
  refine ⟨fun hf => if_pos (hle.2 hf), fun hf => ?_⟩
  obtain ⟨cb', hw, h'⟩ := refines_write h item hitem
  refine ⟨cb', ?_, h'⟩
  rw [tryWrite, if_neg (mt hle.1 (by rw [hf]; exact Bool.false_ne_true)), hw]
  rfl

/-! ## Reading -/

theorem itemCount_lt_one (h : Refines sz cb q) : cb.itemCount < 1 ↔ q.items = [] := by
  rw [UInt32.lt_iff_toNat_lt, UInt32.toNat_one, h.count, Nat.lt_one_iff, List.length_eq_zero_iff]

theorem peek_nil (h : Refines sz cb q) (hq : q.items = []) (out : List UInt8) :
    cb.peek out = some (false, out) :=
  if_pos ((itemCount_lt_one h).2 hq)

theorem peek_cons (h : Refines sz cb q) {x : List UInt8} {l : List (List UInt8)}
    (hq : q.items = x :: l) {out : List UInt8} (hout : sz ≤ out.length) :
    cb.peek out = some (true, x ++ out.drop sz) := by
  have hslot : slotAt cb.buffer sz cb.readOffset.toNat = x := by
    have hwin := h.window
    rw [hq] at hwin
    have := hwin.head
    rwa [Nat.mod_eq_of_lt h.offset] at this
  have hsrc : sz ≤ (cb.buffer.drop (cb.readOffset.toNat * sz)).length := by
    have := slot_mem sz h.offset
    rw [List.length_drop, h.length]
    omega
  rw [peek, if_neg (by rw [itemCount_lt_one h, hq]; simp), h.toNat_offsetBy h.offset, h.itemSize,
    memcpy_eq_some (by omega) hsrc]
  rw [slotAt] at hslot
  simp [hslot]

theorem refines_peek (h : Refines sz cb q) {out : List UInt8} (hout : sz ≤ out.length) :
    cb.peek out = some (!q.isEmpty, fill q.read.1.toList sz out) := by
  cases hq : q.items with
  | nil => rw [peek_nil h hq]; simp [Fifo.isEmpty, Fifo.read, hq, fill]
  | cons x l => rw [peek_cons h hq hout]; simp [Fifo.isEmpty, Fifo.read, hq, fill]

/-- The state that `read` leaves when there is an item. -/
def afterRead (cb : CircularBuffer) : CircularBuffer :=
  { cb with
    itemCount := cb.itemCount - 1
    readOffset := if cb.readOffset + 1 = cb.capacity then 0 else cb.readOffset + 1 }

@[simp] theorem readOffset_afterRead (cb : CircularBuffer) : cb.afterRead.readOffset =
    if cb.readOffset + 1 = cb.capacity then 0 else cb.readOffset + 1 := rfl

theorem refines_afterRead (h : Refines sz cb q) (hne : q.items ≠ []) :
    Refines sz cb.afterRead q.read.2 := by
  obtain ⟨x, l, hq⟩ := List.exists_cons_of_ne_nil hne
  have hoff := h.offset
  have hsmall := h.small.1
  have hone : 1 ≤ cb.itemCount := by
    rw [UInt32.le_iff_toNat_le, h.count, hq]
    simp
  have hsucc : (cb.readOffset + 1).toNat = cb.readOffset.toNat + 1 := by
    rw [toNat_add_of_lt (by simp only [UInt32.toNat_one]; omega), UInt32.toNat_one]
  have hr : cb.afterRead.readOffset.toNat = (cb.readOffset.toNat + 1) % c := by
    rw [readOffset_afterRead, mod_eq_ite_of_lt_two_mul (by omega)]
    by_cases heq : cb.readOffset + 1 = cb.capacity
    · have heq' := congrArg UInt32.toNat heq
      rw [hsucc, h.capacity] at heq'
      rw [if_pos heq, if_neg (by omega), UInt32.toNat_zero, heq', Nat.sub_self]
    · have heq' : cb.readOffset.toNat + 1 ≠ c := by
        rw [← hsucc, ← h.capacity]
        exact mt UInt32.toNat_inj.1 heq
      rw [if_neg heq, if_pos (by omega), hsucc]
  have hwin := h.window
  rw [hq] at hwin
  exact {
    capacity := h.capacity
    itemSize := h.itemSize
    length := h.length
    count := by
      show (cb.itemCount - 1).toNat = q.items.tail.length
      rw [UInt32.toNat_sub_of_le _ _ hone, UInt32.toNat_one, h.count, List.length_tail]
    offset := by
      rw [hr]
      exact Nat.mod_lt _ (by omega)
    window := by
      rw [hr]
      show Window (slotAt cb.buffer sz) c _ q.items.tail
      rw [hq]
      exact hwin.tail
    small := h.small }

theorem refines_read (h : Refines sz cb q) (out : List UInt8)
    (hout : q.items ≠ [] → sz ≤ out.length) :
    ∃ cb', cb.read out = some (!q.isEmpty, fill q.read.1.toList sz out, cb') ∧
      Refines sz cb' q.read.2 := by
  cases hq : q.items with
  | nil =>
    refine ⟨cb, ?_, ?_⟩
    · rw [read, if_pos ((itemCount_lt_one h).2 hq)]
      simp [Fifo.isEmpty, Fifo.read, hq, fill]
    · rwa [show q.read.2 = q from Fifo.ext (by simp [Fifo.read, hq])]
  | cons x l =>
    have hne : q.items ≠ [] := by simp [hq]
    refine ⟨cb.afterRead, ?_, refines_afterRead h hne⟩
    rw [read, if_neg (by rwa [itemCount_lt_one h]), refines_peek h (hout hne)]
    simp [Fifo.isEmpty, hq, afterRead]

theorem refines_readManyLoop (n : ℕ) : ∀ {cb : CircularBuffer} {q : ItemQueue c}
    (out : List UInt8), Refines sz cb q → min n q.items.length * sz ≤ out.length →
    ∃ cb', readManyLoop sz n cb out =
        some (UInt32.ofNat (q.readMany n).1.length, fill (q.readMany n).1 sz out, cb') ∧
      Refines sz cb' (q.readMany n).2 := by
  induction n with
  | zero =>
    intro cb q out h _
    exact ⟨cb, by simp [readManyLoop, Fifo.readMany, fill], by rwa [Fifo.readMany_zero]⟩
  | succ n ih =>
    intro cb q out h hlen
    cases hq : q.items with
    | nil =>
      obtain ⟨cb', hr, h'⟩ := refines_read h out (fun hne => absurd hq hne)
      refine ⟨cb', ?_, ?_⟩
      · rw [readManyLoop, hr]
        simp [Fifo.isEmpty, Fifo.read, Fifo.readMany, hq, fill]
      · rwa [show (q.readMany (n + 1)).2 = q.read.2 from
          Fifo.ext (by simp [Fifo.readMany, Fifo.read, hq])]
    | cons x l =>
      have hx : x.length = sz := h.length_item (by rw [hq]; exact List.mem_cons_self)
      rw [hq, List.length_cons, Nat.succ_min_succ, Nat.succ_mul] at hlen
      obtain ⟨cb₁, hr, h₁⟩ := refines_read h out (fun _ => by omega)
      obtain ⟨cb₂, hloop, h₂⟩ := ih (out.drop sz) h₁ (by
        rw [List.length_drop]
        simp only [Fifo.read, hq, List.tail_cons]
        omega)
      have hfill : fill q.read.1.toList sz out = x ++ out.drop sz := by
        simp [fill, Fifo.read, hq]
      rw [hfill, Fifo.isEmpty, hq] at hr
      refine ⟨cb₂, ?_, by rwa [Fifo.readMany_succ]⟩
      rw [readManyLoop, hr]
      simp only [List.isEmpty_cons, Bool.not_false, Option.bind_some, if_true]
      rw [List.drop_append_of_le_length hx.ge, List.drop_eq_nil_of_le hx.le, List.nil_append,
        List.take_append_of_le_length hx.ge, List.take_of_length_le hx.le, hloop,
        Fifo.readMany_succ]
      simp [Fifo.read, hq, fill, UInt32.ofNat_add, Nat.succ_mul, Nat.add_comm sz]

theorem refines_readMany (h : Refines sz cb q) {out : List UInt8} {n : UInt32}
    (hlen : min n.toNat q.items.length * sz ≤ out.length) :
    ∃ cb', cb.readMany out n =
        some (UInt32.ofNat (q.readMany n.toNat).1.length, fill (q.readMany n.toNat).1 sz out,
          cb') ∧
      Refines sz cb' (q.readMany n.toNat).2 := by
  obtain ⟨cb', hloop, h'⟩ := refines_readManyLoop n.toNat out h hlen
  refine ⟨cb', ?_, h'⟩
  rw [readMany, h.itemSize, hloop]
  split_ifs with hn
  · have hzero : n.toNat = 0 := by
      have := UInt32.lt_iff_toNat_lt.1 hn
      simp only [UInt32.toNat_one] at this
      omega
    rw [hzero] at hloop ⊢
    exact hloop
  · rfl

/-! ## Sequences of calls -/

theorem refines_clear (h : Refines sz cb q) : Refines sz cb.clear (.empty : ItemQueue c) where
  capacity := h.capacity
  itemSize := h.itemSize
  length := h.length
  count := rfl
  offset := Nat.lt_of_le_of_lt (Nat.zero_le _) h.offset
  window := Window.nil _ _ _
  small := h.small

/-- Every call returns what the queue returns and leaves the new queue. -/
theorem exec_refines (h : Refines sz cb q) {op : Op} (hop : op.Fits sz c) :
    ∃ cb', cb.exec op = some ((q.exec sz op).1, cb') ∧
      Refines sz cb' (q.exec sz op).2 := by
  cases op with
  | write item =>
    obtain ⟨cb', hw, h'⟩ := refines_write h item hop
    exact ⟨cb', by rw [exec, hw]; rfl, h'⟩
  | tryWrite item =>
    obtain ⟨hfull, hroom⟩ := refines_tryWrite h hop
    cases hq : q.isFull with
    | true => exact ⟨cb, by simp [exec, hfull hq, ItemQueue.exec, hq],
        by simpa [ItemQueue.exec, hq] using h⟩
    | false =>
      obtain ⟨cb', hw, h'⟩ := hroom hq
      exact ⟨cb', by simp [exec, hw, ItemQueue.exec, hq], by simpa [ItemQueue.exec, hq] using h'⟩
  | writeMany input n =>
    obtain ⟨cb', hw, h'⟩ := refines_writeMany h input hop
    exact ⟨cb', by rw [exec, hw]; rfl, h'⟩
  | tryWriteMany input n =>
    obtain ⟨cb', hw, h'⟩ := refines_tryWriteMany h hop
    exact ⟨cb', by rw [exec, hw]; rfl, h'⟩
  | read out =>
    obtain ⟨cb', hr, h'⟩ := refines_read h out (fun _ => hop)
    exact ⟨cb', by rw [exec, hr]; rfl, h'⟩
  | readMany out n =>
    have hlen : min n.toNat q.items.length * sz ≤ out.length := by
      refine (Nat.mul_le_mul_right sz ?_).trans hop
      have := q.length_le
      omega
    obtain ⟨cb', hr, h'⟩ := refines_readMany h hlen
    exact ⟨cb', by rw [exec, hr]; rfl, h'⟩
  | peek out => exact ⟨cb, by rw [exec, refines_peek h hop]; rfl, h⟩
  | clear => exact ⟨cb.clear, rfl, refines_clear h⟩

theorem run_refines (ops : List Op) : ∀ {cb : CircularBuffer} {q : ItemQueue c},
    Refines sz cb q → (∀ op ∈ ops, op.Fits sz c) →
    ∃ cb', cb.run ops = some ((q.run sz ops).1, cb') ∧ Refines sz cb' (q.run sz ops).2 := by
  induction ops with
  | nil => exact fun h _ => ⟨_, rfl, h⟩
  | cons op ops ih =>
    intro cb q h hops
    obtain ⟨cb₁, he, h₁⟩ := exec_refines h (hops op List.mem_cons_self)
    obtain ⟨cb₂, hr, h₂⟩ := ih h₁ fun op' hop' => hops op' (List.mem_cons_of_mem _ hop')
    exact ⟨cb₂, by rw [run, he, Option.bind_some]; simp only [hr]; rfl, h₂⟩

/-- A refused call leaves the queue and the caller's output buffer as they were. -/
theorem exec_of_refused (q : ItemQueue c) (sz : ℕ) (hc : c < 2 ^ 32) {op : Op}
    (h : (q.exec sz op).1.Refused) :
    (q.exec sz op).2 = q ∧ (q.exec sz op).1.out = op.outputBuffer := by
  have hq := q.length_le
  cases op with
  | write item => rcases h with h | h <;> cases h
  | writeMany input n => rcases h with h | h <;> cases h
  | clear => rcases h with h | h <;> cases h
  | tryWrite item =>
    cases hf : q.isFull with
    | true => simp [ItemQueue.exec, hf, Op.outputBuffer]
    | false => simp [ItemQueue.exec, hf, Outcome.Refused] at h
  | tryWriteMany input n =>
    obtain h | h : _ ∨ _ := h
    · cases h
    · have hzero : (q.tryWriteMany (slots input sz n.toNat)).1 = 0 := by
        have hlt : (q.tryWriteMany (slots input sz n.toNat)).1 < 2 ^ 32 := by
          simp only [Fifo.tryWriteMany, Fifo.room]
          omega
        have := congrArg UInt32.toNat (Ret.count.inj h)
        rwa [UInt32.toNat_ofNat_of_lt' hlt] at this
      refine ⟨Fifo.ext ?_, rfl⟩
      show q.items ++ (slots input sz n.toNat).take (q.tryWriteMany (slots input sz n.toNat)).1 =
        q.items
      rw [hzero, List.take_zero, List.append_nil]
  | read out | peek out =>
    obtain h | h : _ ∨ _ := h
    · have hnil : q.items = [] := by simpa [ItemQueue.exec, Fifo.isEmpty] using h
      refine ⟨Fifo.ext ?_, ?_⟩ <;> simp [ItemQueue.exec, Fifo.read, hnil, fill, Op.outputBuffer]
    · cases h
  | readMany out n =>
    obtain h | h : _ ∨ _ := h
    · cases h
    · have hzero : (q.readMany n.toNat).1 = [] := by
        have hlt : (q.readMany n.toNat).1.length < 2 ^ 32 := by
          simp only [Fifo.readMany, List.length_take]
          omega
        have := congrArg UInt32.toNat (Ret.count.inj h)
        rw [UInt32.toNat_ofNat_of_lt' hlt] at this
        exact List.length_eq_zero_iff.1 this
      refine ⟨Fifo.ext ?_, by simp [ItemQueue.exec, hzero, fill, Op.outputBuffer]⟩
      have happ := List.take_append_drop n.toNat q.items
      simp only [Fifo.readMany] at hzero
      rw [hzero, List.nil_append] at happ
      exact happ

/-- **A circular buffer is a bounded queue that drops its oldest item.** Any sequence of calls
on a fresh buffer returns what the queue returns, and the byte array holds the queue afterwards.
The queries agree with the queue, and a further call that returns `false` or `0` changes neither
the queue nor the caller's output buffer. -/
theorem circularBuffer_refines_queue {itemSize : UInt64} {capacity : UInt32}
    (hpos : 1 ≤ capacity.toNat) (hc : capacity.toNat ≤ 2 ^ 31)
    (hsz : itemSize.toNat * capacity.toNat < 2 ^ 64) {block : List UInt8}
    (hblock : block.length = (allocSize itemSize capacity).toNat) {ops : List Op}
    (hops : ∀ op ∈ ops, op.Fits itemSize.toNat capacity.toNat)
    {outcomes : List Outcome} {q : ItemQueue capacity.toNat}
    (hq : ItemQueue.run itemSize.toNat .empty ops = (outcomes, q)) :
    ∃ cb₀ cb, create itemSize capacity true (some block) = some cb₀ ∧
      cb₀.run ops = some (outcomes, cb) ∧ Refines itemSize.toNat cb q ∧
      cb.getItemCount.toNat = q.items.length ∧ cb.isEmpty = q.isEmpty ∧ cb.isFull = q.isFull ∧
      ∀ op : Op, op.Fits itemSize.toNat capacity.toNat →
        ∃ cb', cb.exec op = some ((q.exec itemSize.toNat op).1, cb') ∧
          Refines itemSize.toNat cb' (q.exec itemSize.toNat op).2 ∧
          ((q.exec itemSize.toNat op).1.Refused → (q.exec itemSize.toNat op).2 = q ∧
            (q.exec itemSize.toNat op).1.out = op.outputBuffer) := by
  obtain ⟨cb, hrun, h⟩ := run_refines ops (refines_create hpos hc hsz hblock) hops
  rw [hq] at hrun h
  refine ⟨_, cb, rfl, hrun, h, h.count, h.isEmpty_eq, h.isFull_eq, fun op hop => ?_⟩
  obtain ⟨cb', he, h'⟩ := exec_refines h hop
  exact ⟨cb', he, h', exec_of_refused q _ (by omega)⟩

/-- Four two-byte items written to a buffer of three, then a bulk read that asks for five: the
oldest item is gone, the other three come out in order across the wrap. -/
theorem circularBuffer_refines_queue_wrap :
    ∃ cb : CircularBuffer,
      (CircularBuffer.mk [0, 0, 0, 0, 0, 0] 3 0 0 2).run
        [.writeMany [1, 2, 3, 4, 5, 6, 7, 8] 4, .readMany [0, 0, 0, 0, 0, 0] 5] =
      some ([⟨.void, []⟩, ⟨.count 3, [3, 4, 5, 6, 7, 8]⟩], cb) := by
  obtain ⟨cb₀, cb, hnew, hrun, -⟩ :=
    @circularBuffer_refines_queue 2 3 (by decide) (by decide) (by decide) [0, 0, 0, 0, 0, 0]
      (by decide) [.writeMany [1, 2, 3, 4, 5, 6, 7, 8] 4, .readMany [0, 0, 0, 0, 0, 0] 5]
      (by simp [Op.Fits]) _ _ rfl
  obtain rfl := Option.some.inj hnew
  exact ⟨cb, hrun⟩

end CircularBuffer

end CpuUsageTracker
