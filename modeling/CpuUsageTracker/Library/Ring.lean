import Mathlib.Tactic.Common
import Mathlib.Tactic.Linarith
import Mathlib.Data.Nat.ModEq

/-!
# Rings of slots over a block of memory

Two pieces that any ring buffer is made of.

**Windows.** `Window slot c r l` says that the list `l` lies in the slots `r, r + 1, …` of a
ring of `c` slots. The three ways a ring buffer moves are `Window.push` (write after the last
item), `Window.overwrite` (a full ring: write over the oldest item and advance) and
`Window.pop` (take the oldest item and advance).

**Blocks.** A block of memory is a list of bytes, and `memcpy` is partial: it is `none` when it
would leave one of its blocks. Slot `i` of a block holds the bytes `[i * sz, (i + 1) * sz)`;
a copy into one slot leaves the others alone (`slot_memcpy_ne`).
-/

/-! ## Windows -/

/-- The list `l` lies in the slots `r, r + 1, …` of a ring of `c` slots. -/
def Window {α : Type*} (slot : ℕ → α) (c r : ℕ) (l : List α) : Prop :=
  ∀ i x, l[i]? = some x → slot ((r + i) % c) = x

theorem add_mod_inj {c r i j : ℕ} (hi : i < c) (hj : j < c) (h : (r + i) % c = (r + j) % c) :
    i = j := by
  have h' : i ≡ j [MOD c] := Nat.ModEq.add_left_cancel' r h
  rwa [Nat.ModEq, Nat.mod_eq_of_lt hi, Nat.mod_eq_of_lt hj] at h'

/-- One conditional subtraction computes a remainder below twice the modulus. -/
theorem mod_eq_ite_of_lt_two_mul {a c : ℕ} (h : a < 2 * c) :
    a % c = if a < c then a else a - c := by
  split_ifs with hc
  · exact Nat.mod_eq_of_lt hc
  · rw [Nat.mod_eq_sub_mod (by omega), Nat.mod_eq_of_lt (by omega)]

namespace Window

variable {α : Type*} {slot slot' : ℕ → α} {c r : ℕ} {l : List α} {x y : α}

theorem nil (slot : ℕ → α) (c r : ℕ) : Window slot c r [] := fun i x h => by simp at h

/-- Writing the slot after the last item appends. -/
theorem push (hw : Window slot c r l) (hlen : l.length < c)
    (hnew : slot' ((r + l.length) % c) = x)
    (hold : ∀ j < c, j ≠ (r + l.length) % c → slot' j = slot j) :
    Window slot' c r (l ++ [x]) := by
  intro i z hz
  rcases Nat.lt_trichotomy i l.length with hi | rfl | hi
  · rw [List.getElem?_append_left hi] at hz
    have hne : (r + i) % c ≠ (r + l.length) % c := fun h =>
      absurd (add_mod_inj (hi.trans hlen) hlen h) (Nat.ne_of_lt hi)
    rw [hold _ (Nat.mod_lt _ (by omega)) hne]
    exact hw i z hz
  · obtain rfl : x = z := by simpa using hz
    exact hnew
  · rw [List.getElem?_eq_none (by simpa using Nat.succ_le_of_lt hi)] at hz
    cases hz

/-- Taking the oldest item leaves the rest in place, one slot further. -/
theorem tail (hw : Window slot c r (y :: l)) : Window slot c ((r + 1) % c) l := by
  intro i z hz
  have h := hw (i + 1) z (by simpa using hz)
  rwa [Nat.mod_add_mod, Nat.add_assoc, Nat.add_comm 1 i]

theorem head (hw : Window slot c r (y :: l)) : slot (r % c) = y := hw 0 y rfl

/-- On a full ring the slot after the last item is the oldest one, so writing it drops the
oldest item. -/
theorem overwrite (hw : Window slot c r (y :: l)) (hlen : l.length + 1 = c)
    (hnew : slot' (r % c) = x) (hold : ∀ j < c, j ≠ r % c → slot' j = slot j) :
    Window slot' c ((r + 1) % c) (l ++ [x]) := by
  have hslot : ((r + 1) % c + l.length) % c = r % c := by
    rw [Nat.mod_add_mod, Nat.add_assoc, Nat.add_comm 1, hlen, Nat.add_mod_right]
  refine hw.tail.push (by omega) ?_ ?_
  · rw [hslot]
    exact hnew
  · rw [hslot]
    exact hold

end Window

/-! ## Blocks of memory -/

section Memory

variable {β : Type*}

/-- Copy `n` elements from the start of `src` to offset `off` of `dst`; `none` when the copy
would leave either block. -/
def memcpy (dst : List β) (off : ℕ) (src : List β) (n : ℕ) : Option (List β) :=
  if off + n ≤ dst.length ∧ n ≤ src.length then
    some (dst.take off ++ src.take n ++ dst.drop (off + n))
  else none

/-- Slot `i` of a block that is cut into slots of `sz` elements. -/
def slotAt (mem : List β) (sz i : ℕ) : List β := (mem.drop (i * sz)).take sz

theorem memcpy_eq_some {dst src : List β} {off n : ℕ} (hd : off + n ≤ dst.length)
    (hs : n ≤ src.length) :
    memcpy dst off src n = some (dst.take off ++ src.take n ++ dst.drop (off + n)) :=
  if_pos ⟨hd, hs⟩

theorem memcpy_bounds {dst src mem : List β} {off n : ℕ} (h : memcpy dst off src n = some mem) :
    off + n ≤ dst.length ∧ n ≤ src.length := by
  by_contra hc
  rw [memcpy, if_neg hc] at h
  cases h

theorem length_memcpy {dst src mem : List β} {off n : ℕ} (h : memcpy dst off src n = some mem) :
    mem.length = dst.length := by
  obtain ⟨hd, hs⟩ := memcpy_bounds h
  rw [memcpy_eq_some hd hs, Option.some.injEq] at h
  subst h
  simp only [List.length_append, List.length_take, List.length_drop]
  omega

/-- Distinct slots are disjoint byte ranges. -/
theorem slot_disjoint {i j : ℕ} (sz : ℕ) (h : i < j) : i * sz + sz ≤ j * sz := by
  have := Nat.mul_le_mul_right sz (Nat.succ_le_of_lt h)
  rwa [Nat.succ_mul] at this

/-- Every slot of a block of `c` slots lies inside the block. -/
theorem slot_mem {i c : ℕ} (sz : ℕ) (h : i < c) : i * sz + sz ≤ sz * c := by
  rw [Nat.mul_comm sz c]
  exact slot_disjoint sz h

theorem slot_memcpy_same {dst src mem : List β} {sz j : ℕ}
    (h : memcpy dst (j * sz) src sz = some mem) : slotAt mem sz j = src.take sz := by
  obtain ⟨hd, hs⟩ := memcpy_bounds h
  rw [memcpy_eq_some hd hs, Option.some.injEq] at h
  subst h
  have hlen : (dst.take (j * sz)).length = j * sz := by
    rw [List.length_take]
    omega
  have htake : (src.take sz).length = sz := by
    rw [List.length_take]
    omega
  rw [slotAt, List.append_assoc, List.drop_append, hlen, Nat.sub_self, List.drop_zero,
    List.drop_eq_nil_of_le hlen.le, List.nil_append, List.take_append, htake, Nat.sub_self,
    List.take_zero, List.append_nil, List.take_take, Nat.min_self]

theorem slot_memcpy_ne {dst src mem : List β} {sz i j : ℕ}
    (h : memcpy dst (j * sz) src sz = some mem) (hne : i ≠ j) :
    slotAt mem sz i = slotAt dst sz i := by
  obtain ⟨hd, hs⟩ := memcpy_bounds h
  rw [memcpy_eq_some hd hs, Option.some.injEq] at h
  subst h
  have hpre : (dst.take (j * sz)).length = j * sz := by
    rw [List.length_take]
    omega
  have hmid : (src.take sz).length = sz := by
    rw [List.length_take]
    omega
  unfold slotAt
  rcases Nat.lt_or_gt_of_ne hne with hij | hij
  · -- The slot lies in the part before the copy.
    have hle := slot_disjoint sz hij
    rw [List.append_assoc, List.drop_append_of_le_length (by omega),
      List.take_append_of_le_length (by rw [List.length_drop]; omega), List.drop_take,
      List.take_take, Nat.min_eq_left (by omega)]
  · -- The slot lies in the part after the copy.
    have hle := slot_disjoint sz hij
    have hlen : (dst.take (j * sz) ++ src.take sz).length = j * sz + sz := by
      rw [List.length_append, hpre, hmid]
    rw [List.drop_append, hlen, List.drop_eq_nil_of_le (by omega), List.nil_append,
      List.drop_drop]
    congr 2
    omega

/-- The first `n` slots of a block. -/
def slots (mem : List β) (sz : ℕ) : ℕ → List (List β)
  | 0 => []
  | n + 1 => mem.take sz :: slots (mem.drop sz) sz n

@[simp] theorem length_slots (mem : List β) (sz n : ℕ) : (slots mem sz n).length = n := by
  induction n generalizing mem with
  | zero => rfl
  | succ n ih => rw [slots, List.length_cons, ih]

theorem slots_take (mem : List β) (sz n k : ℕ) :
    (slots mem sz n).take k = slots mem sz (min k n) := by
  induction n generalizing mem k with
  | zero => simp [slots]
  | succ n ih =>
    cases k with
    | zero => simp [slots]
    | succ k => rw [slots, List.take_succ_cons, ih, Nat.succ_min_succ, slots]

end Memory
