import CpuUsageTracker.CircularBufferRefinement

/-!
# What `CircularBuffer_peekMany` returns

The loop of `readMany` reads and so advances the buffer. The loop of `peekMany` is the same with
`peek` in place of `read`, and nothing in it advances: it copies the oldest item again and again,
and it ends only when it has as many copies as were asked for (`peekManyLoop_cons`).

**Theorem (`peekMany_agrees_iff`).** For a buffer that any sequence of calls has left and that
holds the items `L`, `peekMany` agrees with `readMany` on a request for `n` items exactly if `L` is
empty, or `n` is at most the number of items and the first `n` of them are all equal.
-/

namespace CpuUsageTracker

namespace CircularBuffer

variable {c sz : ℕ} {cb : CircularBuffer} {q : ItemQueue c}

/-- `peekMany` returns as many of the items as are there, in order and at the start of the output,
and `readMany` would return the same. -/
def PeekManyAgrees (cb : CircularBuffer) (sz : ℕ) (items : List (List UInt8)) (out : List UInt8)
    (n : UInt32) : Prop :=
  cb.peekMany out n =
      some (UInt32.ofNat (min n.toNat items.length), fill (items.take n.toNat) sz out) ∧
    ∃ cb', cb.readMany out n =
      some (UInt32.ofNat (min n.toNat items.length), fill (items.take n.toNat) sz out, cb')

/-- The requests that a loop over the oldest item answers rightly. -/
def PeekManyRegular (items : List (List UInt8)) (n : ℕ) : Prop :=
  items = [] ∨ n ≤ items.length ∧ ∀ x ∈ items.take n, ∀ y ∈ items.take n, x = y

/-! ## The loop -/

theorem peekManyLoop_nil (h : Refines sz cb q) (hq : q.items = []) (n : ℕ) (out : List UInt8) :
    peekManyLoop cb sz n out = some (0, out) := by
  cases n with
  | zero => rfl
  | succ n => simp [peekManyLoop, peek_nil h hq]

theorem peekManyLoop_cons (h : Refines sz cb q) {x : List UInt8} {l : List (List UInt8)}
    (hq : q.items = x :: l) (n : ℕ) {out : List UInt8} (hout : n * sz ≤ out.length) :
    peekManyLoop cb sz n out = some (UInt32.ofNat n, fill (List.replicate n x) sz out) := by
  have hx : x.length = sz := h.length_item (by rw [hq]; exact List.mem_cons_self)
  induction n generalizing out with
  | zero => simp [peekManyLoop, fill]
  | succ n ih =>
    rw [Nat.succ_mul] at hout
    have hrest : n * sz ≤ (out.drop sz).length := by
      rw [List.length_drop]
      omega
    rw [peekManyLoop, peek_cons h hq (by omega)]
    simp only [Option.bind_some, if_true]
    rw [List.drop_append_of_le_length hx.ge, List.drop_eq_nil_of_le hx.le, List.nil_append,
      List.take_append_of_le_length hx.ge, List.take_of_length_le hx.le, ih hrest]
    simp [fill, List.replicate_succ, UInt32.ofNat_add, Nat.succ_mul, Nat.add_comm sz]

/-- Whatever the room in the output, the loop does not end before it has made all copies. -/
theorem count_peekManyLoop (h : Refines sz cb q) (hq : q.items ≠ []) {n : ℕ} {out out' : List UInt8}
    {count : UInt32} (hloop : peekManyLoop cb sz n out = some (count, out')) :
    count = UInt32.ofNat n := by
  have hcount : ¬cb.itemCount < 1 := by rwa [itemCount_lt_one h]
  induction n generalizing out out' count with
  | zero =>
    cases hloop
    rfl
  | succ n ih =>
    rw [peekManyLoop, peek, if_neg hcount] at hloop
    simp only [Option.bind_eq_some_iff, Option.map_eq_some_iff] at hloop
    obtain ⟨_, ⟨out₁, -, rfl⟩, hloop⟩ := hloop
    simp only [if_true, Option.map_eq_some_iff] at hloop
    obtain ⟨⟨count', rest⟩, hrest, heq⟩ := hloop
    cases heq
    rw [ih hrest, UInt32.ofNat_add]
    rfl

theorem peekMany_eq_loop (h : Refines sz cb q) (out : List UInt8) (n : UInt32) :
    cb.peekMany out n = peekManyLoop cb sz n.toNat out := by
  rw [peekMany, h.itemSize]
  split
  · rename_i hn
    have hzero : n.toNat = 0 := by
      have := UInt32.lt_iff_toNat_lt.1 hn
      simp only [UInt32.toNat_one] at this
      omega
    rw [hzero, peekManyLoop]
  · rfl

/-! ## Copies and items -/

theorem fill_inj {xs ys : List (List UInt8)} {out : List UInt8} (hxs : ∀ x ∈ xs, x.length = sz)
    (hys : ∀ y ∈ ys, y.length = sz) (hlength : xs.length = ys.length) :
    fill xs sz out = fill ys sz out ↔ xs = ys := by
  have hmap : xs.map List.length = ys.map List.length := by
    rw [List.map_congr_left hxs, List.map_congr_left hys, List.map_const', List.map_const', hlength]
  constructor
  · intro h
    rw [fill, fill, hlength] at h
    exact List.eq_iff_flatten_eq.2 ⟨List.append_cancel_right h, hmap⟩
  · rintro rfl
    rfl

/-- Copies of the first item are the first items if these are all equal. -/
theorem replicate_eq_take_iff {α : Type*} {x : α} {l : List α} {n : ℕ} (hn : n ≤ l.length + 1) :
    List.replicate n x = (x :: l).take n ↔
      ∀ y ∈ (x :: l).take n, ∀ z ∈ (x :: l).take n, y = z := by
  constructor
  · intro h y hy z hz
    rw [← h] at hy hz
    rw [List.eq_of_mem_replicate hy, List.eq_of_mem_replicate hz]
  · intro h
    cases n with
    | zero => rfl
    | succ n =>
      refine (List.eq_replicate_iff.2 ⟨?_, fun y hy => h y hy x ?_⟩).symm
      · rw [List.length_take, List.length_cons]
        omega
      · rw [List.take_succ_cons]
        exact List.mem_cons_self

theorem peekMany_iff (h : Refines sz cb q) {out : List UInt8} {n : UInt32}
    (hout : min n.toNat q.items.length * sz ≤ out.length) :
    PeekManyAgrees cb sz q.items out n ↔ PeekManyRegular q.items n.toNat := by
  have hread : ∃ cb', cb.readMany out n =
      some (UInt32.ofNat (min n.toNat q.items.length), fill (q.items.take n.toNat) sz out, cb') := by
    obtain ⟨cb', hread, -⟩ := refines_readMany h hout
    refine ⟨cb', ?_⟩
    rw [hread]
    simp [Fifo.readMany]
  rw [PeekManyAgrees, and_iff_left hread, peekMany_eq_loop h, PeekManyRegular]
  cases hq : q.items with
  | nil =>
    rw [peekManyLoop_nil h hq]
    simp [fill]
  | cons x l =>
    by_cases hle : n.toNat ≤ (x :: l).length
    · rw [hq, min_eq_left hle] at hout
      have hx : ∀ y ∈ x :: l, y.length = sz := fun y hy => h.length_item (by rwa [hq])
      have hinj : fill (List.replicate n.toNat x) sz out = fill ((x :: l).take n.toNat) sz out ↔
          List.replicate n.toNat x = (x :: l).take n.toNat := by
        refine fill_inj (fun y hy => ?_) (fun y hy => hx y (List.mem_of_mem_take hy)) ?_
        · rw [List.eq_of_mem_replicate hy]
          exact hx x List.mem_cons_self
        · rw [List.length_replicate, List.length_take, min_eq_left hle]
      rw [peekManyLoop_cons h hq _ hout, min_eq_left hle, Option.some_inj, Prod.mk_right_inj, hinj,
        replicate_eq_take_iff hle, or_iff_right (List.cons_ne_nil x l), and_iff_right hle]
    · refine iff_of_false (fun hloop => hle ?_) ?_
      · have hlt : n.toNat < UInt32.size := n.toNat_lt
        have hcount := congrArg UInt32.toNat (count_peekManyLoop h (by simp [hq]) hloop)
        rw [UInt32.toNat_ofNat_of_lt' hlt, UInt32.toNat_ofNat_of_lt' (by omega)] at hcount
        omega
      · rintro (hnil | ⟨hn, -⟩)
        · cases hnil
        · exact hle hn

/-! ## Reachable buffers -/

theorem peekMany_agrees_iff {itemSize : UInt64} {capacity : UInt32} (hpos : 1 ≤ capacity.toNat)
    (hc : capacity.toNat ≤ 2 ^ 31) (hsz : itemSize.toNat * capacity.toNat < 2 ^ 64)
    {block : List UInt8} (hblock : block.length = (allocSize itemSize capacity).toNat)
    {ops : List Op} (hops : ∀ op ∈ ops, op.Fits itemSize.toNat capacity.toNat)
    {outcomes : List Outcome} {q : ItemQueue capacity.toNat}
    (hq : ItemQueue.run itemSize.toNat .empty ops = (outcomes, q)) :
    ∃ cb₀ cb, create itemSize capacity true (some block) = some cb₀ ∧
      cb₀.run ops = some (outcomes, cb) ∧
      ∀ (out : List UInt8) (n : UInt32),
        min n.toNat q.items.length * itemSize.toNat ≤ out.length →
        (PeekManyAgrees cb itemSize.toNat q.items out n ↔ PeekManyRegular q.items n.toNat) := by
  obtain ⟨cb, hrun, h⟩ := run_refines ops (refines_create hpos hc hsz hblock) hops
  rw [hq] at hrun h
  exact ⟨_, cb, rfl, hrun, fun out n hout => peekMany_iff h hout⟩

/-- Two equal items. -/
theorem peekMany_agrees_iff_equal :
    ∃ cb₀ cb, create 1 3 true (some [0, 0, 0]) = some cb₀ ∧
      cb₀.run [.write [7], .write [7]] = some ([⟨.void, []⟩, ⟨.void, []⟩], cb) ∧
      PeekManyAgrees cb 1 [[7], [7]] [0, 0] 2 := by
  obtain ⟨cb₀, cb, hnew, hrun, h⟩ := @peekMany_agrees_iff 1 3 (by decide) (by decide) (by decide)
    [0, 0, 0] (by decide) [.write [7], .write [7]] (by simp [Op.Fits]) _ _ rfl
  exact ⟨cb₀, cb, hnew, hrun, (h [0, 0] 2 (by decide)).2 (by unfold PeekManyRegular; decide)⟩

/-- Two different items: `peekMany` returns the first one twice. -/
theorem peekMany_repeats :
    ∃ cb, (CircularBuffer.mk [0, 0, 0] 3 0 0 1).run [.write [7], .write [8]] =
        some ([⟨.void, []⟩, ⟨.void, []⟩], cb) ∧
      cb.peekMany [0, 0] 2 = some (2, [7, 7]) ∧ ¬PeekManyAgrees cb 1 [[7], [8]] [0, 0] 2 := by
  refine ⟨⟨[7, 8, 0], 3, 0, 2, 1⟩, rfl, by decide, ?_⟩
  rintro ⟨h, -⟩
  exact absurd h (by decide)

end CircularBuffer

end CpuUsageTracker
