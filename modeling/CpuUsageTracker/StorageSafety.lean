import CpuUsageTracker.CircularBufferRefinement

/-!
# Which buffers `CircularBuffer_create` hands out are safe

`create` checks nothing but the two `malloc` results, so it hands out buffers of every item size
and every capacity. `StorageSafe itemSize capacity` says that such a buffer stays within its
bounds at every point of every sequence of calls, the points inside the loops of the bulk
operations included (`Point`).

**Theorem (`storageSafe_iff`).** A buffer is safe exactly when its capacity is between `1` and
`2 ^ 31` and its block has fewer than `2 ^ 64` bytes.

The three ways out are: a capacity of zero, where the first write counts one item into a buffer
for none; a capacity above `2 ^ 31`, where `readOffset + itemCount` wraps once the buffer is full
and `readOffset` has moved far enough; and a block size that wraps, where the last slot lies
beyond the bytes that were allocated.
-/

namespace CpuUsageTracker

namespace CircularBuffer

/-- The bookkeeping is within its bounds, and the slots of the next write and of the next read
lie inside the block. -/
structure Safe (cb : CircularBuffer) : Prop where
  itemCount_le : cb.itemCount.toNat ≤ cb.capacity.toNat
  writeOffset_eq :
    cb.writeOffset.toNat = (cb.readOffset.toNat + cb.itemCount.toNat) % cb.capacity.toNat
  write_mem : (cb.writeOffset.toNat + 1) * cb.itemSize.toNat ≤ cb.buffer.length
  read_mem : 0 < cb.itemCount.toNat →
    (cb.readOffset.toNat + 1) * cb.itemSize.toNat ≤ cb.buffer.length

/-- The states that calls pass through: between two calls, and after `k` rounds of the loop of a
bulk write or a bulk read. -/
inductive Point (cb₀ : CircularBuffer) : CircularBuffer → Prop
  | start : Point cb₀ cb₀
  | call {cb cb' : CircularBuffer} {op : Op} {o : Outcome} :
      Point cb₀ cb → op.Fits cb.itemSize.toNat cb.capacity.toNat →
      cb.exec op = some (o, cb') → Point cb₀ cb'
  | writing {cb cb' : CircularBuffer} {input : List UInt8} {n : UInt32} {k : ℕ} :
      Point cb₀ cb → (Op.writeMany input n).Fits cb.itemSize.toNat cb.capacity.toNat →
      k ≤ n.toNat → writeManyLoop cb.itemSize.toNat k cb input = some cb' → Point cb₀ cb'
  | reading {cb cb' : CircularBuffer} {out out' : List UInt8} {n count : UInt32} {k : ℕ} :
      Point cb₀ cb → (Op.readMany out n).Fits cb.itemSize.toNat cb.capacity.toNat →
      k ≤ n.toNat → readManyLoop cb.itemSize.toNat k cb out = some (count, out', cb') →
      Point cb₀ cb'

/-- No sequence of calls on a fresh buffer leaves its bounds, and every further call stays
inside the block. -/
def StorageSafe (itemSize : UInt64) (capacity : UInt32) : Prop :=
  ∀ (block : List UInt8) (cb₀ cb : CircularBuffer),
    block.length = (allocSize itemSize capacity).toNat →
    create itemSize capacity true (some block) = some cb₀ → Point cb₀ cb →
    cb.Safe ∧ ∀ op : Op, op.Fits itemSize.toNat capacity.toNat → (cb.exec op).isSome

/-! ## Safe buffers -/

variable {c sz : ℕ} {cb cb₀ : CircularBuffer} {itemSize : UInt64} {capacity : UInt32}

theorem Refines.safe {q : ItemQueue c} (h : Refines sz cb q) : cb.Safe := by
  have hpos : 0 < c := Nat.lt_of_le_of_lt (Nat.zero_le _) h.offset
  have hw := h.toNat_writeOffset
  exact {
    itemCount_le := by rw [h.capacity]; exact h.count_le
    writeOffset_eq := by rw [hw, h.capacity, h.count]
    write_mem := by
      have := slot_mem sz (Nat.mod_lt (cb.readOffset.toNat + q.items.length) hpos)
      rw [hw, h.itemSize, h.length, Nat.succ_mul]
      exact this
    read_mem := fun _ => by
      have := slot_mem sz h.offset
      rw [h.itemSize, h.length, Nat.succ_mul]
      exact this }

/-- Every point holds some queue. -/
theorem Point.refines {q₀ : ItemQueue c} (h₀ : Refines sz cb₀ q₀) (hp : Point cb₀ cb) :
    ∃ q : ItemQueue c, Refines sz cb q := by
  induction hp with
  | start => exact ⟨q₀, h₀⟩
  | call _ hfits hexec ih =>
    obtain ⟨q, h⟩ := ih
    rw [h.itemSize, h.capacity] at hfits
    obtain ⟨cb', he, h'⟩ := exec_refines h hfits
    rw [hexec, Option.some.injEq, Prod.mk.injEq] at he
    obtain ⟨-, rfl⟩ := he
    exact ⟨_, h'⟩
  | writing _ hfits hk hloop ih =>
    obtain ⟨q, h⟩ := ih
    rw [h.itemSize] at hfits hloop
    obtain ⟨cb', he, h'⟩ := refines_writeManyLoop _ _ h ((Nat.mul_le_mul_right sz hk).trans hfits)
    rw [hloop, Option.some.injEq] at he
    exact ⟨_, he ▸ h'⟩
  | @reading _ _ _ _ n _ k _ hfits hk hloop ih =>
    obtain ⟨q, h⟩ := ih
    rw [h.itemSize, h.capacity] at hfits
    rw [h.itemSize] at hloop
    have hle := q.length_le
    have hcount : min k q.items.length ≤ min n.toNat c := by omega
    obtain ⟨cb', he, h'⟩ := refines_readManyLoop _ _ h
      ((Nat.mul_le_mul_right sz hcount).trans hfits)
    rw [hloop, Option.some.injEq, Prod.mk.injEq, Prod.mk.injEq] at he
    obtain ⟨-, -, rfl⟩ := he
    exact ⟨_, h'⟩

/-! ## Repeated writes -/

/-- A safe point is followed by the point after one more write. -/
theorem Point.next (hp : Point cb₀ cb) (item : List UInt8)
    (hitem : cb.itemSize.toNat ≤ item.length) (hsome : (cb.exec (.write item)).isSome) :
    ∃ mem : List UInt8, mem.length = cb.buffer.length ∧
      Point cb₀ { cb.advance with buffer := mem } := by
  obtain ⟨⟨o, cb'⟩, he⟩ := Option.isSome_iff_exists.1 hsome
  have hpoint : Point cb₀ cb' := hp.call (show (Op.write item).Fits _ _ from hitem) he
  simp only [exec, write, Option.map_eq_some_iff] at he
  obtain ⟨_, ⟨mem, hmem, rfl⟩, he⟩ := he
  obtain ⟨-, rfl⟩ := Prod.mk.inj he
  exact ⟨mem, length_memcpy hmem, hpoint⟩

/-- `cb` is a buffer as `create` made it, with these offsets and counts. -/
structure Holds (itemSize : UInt64) (capacity : UInt32) (cb : CircularBuffer) (r n : ℕ) :
    Prop where
  itemSize_eq : cb.itemSize = itemSize
  capacity_eq : cb.capacity = capacity
  length : cb.buffer.length = (allocSize itemSize capacity).toNat
  readOffset : cb.readOffset.toNat = r
  itemCount : cb.itemCount.toNat = n

/-- The bookkeeping of a write at an offset sum that does not wrap. -/
theorem Holds.writeOffset {r n : ℕ} (h : Holds itemSize capacity cb r n) (hlt : r + n < 2 ^ 32) :
    cb.writeOffset.toNat = if capacity.toNat ≤ r + n then r + n - capacity.toNat else r + n := by
  have hsum : (cb.readOffset + cb.itemCount).toNat = r + n := by
    rw [toNat_add_of_lt (by rw [h.readOffset, h.itemCount]; exact hlt), h.readOffset, h.itemCount]
  have hle : cb.capacity ≤ cb.readOffset + cb.itemCount ↔ capacity.toNat ≤ r + n := by
    rw [UInt32.le_iff_toNat_le, hsum, h.capacity_eq]
  rw [CircularBuffer.writeOffset]
  by_cases hc : capacity.toNat ≤ r + n
  · rw [if_pos (hle.2 hc), if_pos hc, UInt32.toNat_sub_of_le _ _ (hle.2 hc), hsum, h.capacity_eq]
  · rw [if_neg (mt hle.1 hc), if_neg hc, hsum]

theorem StorageSafe.next (hs : StorageSafe itemSize capacity) {block : List UInt8}
    (hblock : block.length = (allocSize itemSize capacity).toNat)
    (hnew : create itemSize capacity true (some block) = some cb₀) (hp : Point cb₀ cb)
    {r n : ℕ} (h : Holds itemSize capacity cb r n) :
    ∃ mem : List UInt8, mem.length = cb.buffer.length ∧
      Point cb₀ { cb.advance with buffer := mem } := by
  refine hp.next (List.replicate itemSize.toNat 0) ?_ ?_
  · rw [h.itemSize_eq, List.length_replicate]
  · refine (hs block cb₀ cb hblock hnew hp).2 _ ?_
    simp [Op.Fits]

/-- While there is room, each write counts one more item. -/
theorem StorageSafe.fill (hs : StorageSafe itemSize capacity) {block : List UInt8}
    (hblock : block.length = (allocSize itemSize capacity).toNat)
    (hnew : create itemSize capacity true (some block) = some cb₀) (n : ℕ)
    (hn : n ≤ capacity.toNat) : ∃ cb, Point cb₀ cb ∧ Holds itemSize capacity cb 0 n := by
  have hc := capacity.toNat_lt
  induction n with
  | zero =>
    obtain rfl := Option.some.inj hnew
    exact ⟨_, .start, rfl, rfl, hblock, rfl, rfl⟩
  | succ n ih =>
    obtain ⟨cb, hp, h⟩ := ih (by omega)
    obtain ⟨mem, hlen, hp'⟩ := hs.next hblock hnew hp h
    have hw := h.writeOffset (by omega)
    rw [if_neg (by omega), Nat.zero_add] at hw
    have hadv : cb.advance = { cb with itemCount := cb.itemCount + 1 } := by
      refine if_neg fun ⟨heq, hpos⟩ => ?_
      have heq' := congrArg UInt32.toNat heq
      have hpos' := UInt32.lt_iff_toNat_lt.1 hpos
      rw [hw, h.readOffset] at heq'
      rw [h.itemCount, UInt32.toNat_zero] at hpos'
      omega
    refine ⟨_, hp', ?_⟩
    rw [hadv]
    exact ⟨h.itemSize_eq, h.capacity_eq, hlen.trans h.length, h.readOffset, by
      show (cb.itemCount + 1).toNat = n + 1
      rw [toNat_add_of_lt (by rw [h.itemCount, UInt32.toNat_one]; omega), h.itemCount,
        UInt32.toNat_one]⟩

/-- Once the buffer is full, each write moves the read offset by one, until the sum wraps. -/
theorem StorageSafe.turn (hs : StorageSafe itemSize capacity) {block : List UInt8}
    (hblock : block.length = (allocSize itemSize capacity).toNat)
    (hnew : create itemSize capacity true (some block) = some cb₀)
    (hc : 2 ^ 31 < capacity.toNat) (r : ℕ) (hr : r ≤ 2 ^ 32 - capacity.toNat) :
    ∃ cb, Point cb₀ cb ∧ Holds itemSize capacity cb r capacity.toNat := by
  have hlt := capacity.toNat_lt
  induction r with
  | zero => exact hs.fill hblock hnew _ le_rfl
  | succ r ih =>
    obtain ⟨cb, hp, h⟩ := ih (by omega)
    obtain ⟨mem, hlen, hp'⟩ := hs.next hblock hnew hp h
    have hw := h.writeOffset (by omega)
    rw [if_pos (by omega), Nat.add_sub_cancel] at hw
    have hsucc : (cb.writeOffset + 1).toNat = r + 1 := by
      rw [toNat_add_of_lt (by rw [hw, UInt32.toNat_one]; omega), hw, UInt32.toNat_one]
    have hadv : cb.advance = { cb with readOffset := cb.writeOffset + 1 } := by
      have hcond : cb.writeOffset = cb.readOffset ∧ 0 < cb.itemCount := by
        rw [← UInt32.toNat_inj, hw, h.readOffset, UInt32.lt_iff_toNat_lt, h.itemCount,
          UInt32.toNat_zero]
        exact ⟨rfl, by omega⟩
      have hnext : cb.writeOffset + 1 < cb.capacity := by
        rw [UInt32.lt_iff_toNat_lt, hsucc, h.capacity_eq]
        omega
      rw [advance, if_pos hcond, if_pos hnext]
    refine ⟨_, hp', ?_⟩
    rw [hadv]
    exact ⟨h.itemSize_eq, h.capacity_eq, hlen.trans h.length, hsucc, h.itemCount⟩

/-! ## The exact condition -/

theorem StorageSafe.capacity_pos (hs : StorageSafe itemSize capacity) : 1 ≤ capacity.toNat := by
  by_contra hzero
  have hblock : (List.replicate (allocSize itemSize capacity).toNat (0 : UInt8)).length =
      (allocSize itemSize capacity).toNat := List.length_replicate
  obtain ⟨cb, hp, h⟩ := hs.fill hblock rfl 0 (Nat.zero_le _)
  obtain ⟨mem, -, hp'⟩ := hs.next hblock rfl hp h
  have hle := (hs _ _ _ hblock rfl hp').1.itemCount_le
  have hadv : cb.advance = { cb with itemCount := cb.itemCount + 1 } := by
    refine if_neg fun ⟨_, hpos⟩ => ?_
    have hpos' := UInt32.lt_iff_toNat_lt.1 hpos
    rw [h.itemCount] at hpos'
    exact absurd hpos' (Nat.not_lt_zero _)
  rw [hadv] at hle
  change (cb.itemCount + 1).toNat ≤ cb.capacity.toNat at hle
  rw [toNat_add_of_lt (by rw [h.itemCount]; decide), h.itemCount, h.capacity_eq,
    UInt32.toNat_one] at hle
  omega

theorem StorageSafe.capacity_le (hs : StorageSafe itemSize capacity) :
    capacity.toNat ≤ 2 ^ 31 := by
  by_contra hc
  have hlt := capacity.toNat_lt
  have hblock : (List.replicate (allocSize itemSize capacity).toNat (0 : UInt8)).length =
      (allocSize itemSize capacity).toNat := List.length_replicate
  obtain ⟨cb, hp, h⟩ := hs.turn hblock rfl (by omega) (2 ^ 32 - capacity.toNat) le_rfl
  have hslot := (hs _ _ _ hblock rfl hp).1.writeOffset_eq
  -- The sum is `2 ^ 32`, which the code computes as zero.
  have hw : cb.writeOffset = 0 := by
    have hsum : cb.readOffset + cb.itemCount = 0 := by
      rw [← UInt32.toNat_inj, UInt32.toNat_add, h.readOffset, h.itemCount, UInt32.toNat_zero,
        Nat.sub_add_cancel hlt.le, Nat.mod_self]
    have hcap : ¬ cb.capacity ≤ 0 := by
      rw [UInt32.le_iff_toNat_le, h.capacity_eq, UInt32.toNat_zero]
      omega
    rw [writeOffset, hsum, if_neg hcap]
  rw [hw, h.readOffset, h.itemCount, h.capacity_eq, Nat.add_mod_right,
    Nat.mod_eq_of_lt (by omega), UInt32.toNat_zero] at hslot
  omega

theorem StorageSafe.size_lt (hs : StorageSafe itemSize capacity) :
    itemSize.toNat * capacity.toNat < 2 ^ 64 := by
  have hpos := hs.capacity_pos
  have hlt := capacity.toNat_lt
  have hblock : (List.replicate (allocSize itemSize capacity).toNat (0 : UInt8)).length =
      (allocSize itemSize capacity).toNat := List.length_replicate
  obtain ⟨cb, hp, h⟩ := hs.fill hblock rfl (capacity.toNat - 1) (Nat.sub_le _ _)
  have hmem := (hs _ _ _ hblock rfl hp).1.write_mem
  have hw := h.writeOffset (by omega)
  rw [if_neg (by omega), Nat.zero_add] at hw
  rw [hw, Nat.sub_add_cancel hpos, h.itemSize_eq, h.length, allocSize, UInt64.toNat_mul,
    UInt32.toNat_toUInt64, Nat.mul_comm] at hmem
  exact hmem.trans_lt (Nat.mod_lt _ (by decide))

/-- **The buffers that are safe.** -/
theorem storageSafe_iff (itemSize : UInt64) (capacity : UInt32) :
    StorageSafe itemSize capacity ↔
      1 ≤ capacity.toNat ∧ capacity.toNat ≤ 2 ^ 31 ∧
        itemSize.toNat * capacity.toNat < 2 ^ 64 := by
  refine ⟨fun hs => ⟨hs.capacity_pos, hs.capacity_le, hs.size_lt⟩, ?_⟩
  rintro ⟨hpos, hc, hsz⟩ block cb₀ cb hblock hnew hp
  obtain rfl := Option.some.inj hnew
  obtain ⟨q, h⟩ := hp.refines (refines_create hpos hc hsz hblock)
  refine ⟨h.safe, fun op hop => ?_⟩
  obtain ⟨cb', he, -⟩ := exec_refines h hop
  rw [he]
  rfl

/-- The first write to a buffer of capacity zero leaves the block, which has no bytes. -/
theorem not_storageSafe_capacity_zero :
    ¬ ∀ (itemSize : UInt64) (capacity : UInt32), StorageSafe itemSize capacity := by
  intro h
  have hsome := (h 1 0 [] _ _ rfl rfl .start).2 (.write [7]) (by simp [Op.Fits])
  exact absurd hsome (by decide)

end CircularBuffer

end CpuUsageTracker
