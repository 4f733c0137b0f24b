import CpuUsageTracker.TimespecArithmetic
import Mathlib.Algebra.Order.Ring.Int

/-!
# The oldest timestamp

`timespecCompare` promises 0 for equal time points, and `findLowestTimespecIndex` the lowest index
if there are several oldest ones. Both are missed on ties: the comparison returns `-1` on equal
time points, so every later one of the oldest time points replaces an earlier one.

**Theorem (`oldestTimestamp_iff`).** For normalised time points, the comparison is the three-way
comparison of nanoseconds exactly on different time points whose seconds have a `time_t` for their
difference, and the search returns the first index of a minimum exactly if the minimum is attained
once and none of the comparisons made overflows.

The search compares each element with the oldest one before it. So its comparisons do not overflow
if the seconds of each element and the least seconds before it have a difference.
-/

namespace CpuUsageTracker

open Argmin

variable {a b : Timespec} {array : List Timespec}

/-! ## Overflow -/

/-- The difference of the seconds is a `time_t`. -/
def SecondsComparable (a b : Timespec) : Prop :=
  -2 ^ 63 ≤ a.tvSec - b.tvSec ∧ a.tvSec - b.tvSec < 2 ^ 63

instance : DecidableRel SecondsComparable := fun _ _ => inferInstanceAs (Decidable (_ ∧ _))

/-- `timespecCompare`, without a result where `a.tv_sec - b.tv_sec` overflows. -/
def timespecCompareChecked (a b : Timespec) : Option ℤ :=
  if SecondsComparable a b then some (timespecCompare a b) else none

/-- `findLowestTimespecIndex`, without a result where one of its comparisons has none. -/
def findLowestTimespecIndexChecked (array : List Timespec) : Option ℕ :=
  (List.range array.length).foldlM (fun iiOldest ii =>
    (timespecCompareChecked (array.getD ii ⟨0, 0⟩) (array.getD iiOldest ⟨0, 0⟩)).map fun c =>
      if c < 0 then ii else iiOldest) 0

theorem timespecCompareChecked_eq_some_iff {c : ℤ} :
    timespecCompareChecked a b = some c ↔ SecondsComparable a b ∧ timespecCompare a b = c := by
  unfold timespecCompareChecked
  by_cases h : SecondsComparable a b <;> simp [h]

theorem findLowestTimespecIndexChecked_eq (array : List Timespec) :
    findLowestTimespecIndexChecked array =
      if ∀ i < array.length,
          SecondsComparable (array.getD i ⟨0, 0⟩) (array.getD (oldestBefore array i) ⟨0, 0⟩) then
        some (findLowestTimespecIndex array)
      else none := by
  have hstep : ∀ iiOldest ii : ℕ,
      ((timespecCompareChecked (array.getD ii ⟨0, 0⟩) (array.getD iiOldest ⟨0, 0⟩)).map fun c =>
        if c < 0 then ii else iiOldest) =
      if SecondsComparable (array.getD ii ⟨0, 0⟩) (array.getD iiOldest ⟨0, 0⟩) then
        some (if timespecCompare (array.getD ii ⟨0, 0⟩) (array.getD iiOldest ⟨0, 0⟩) < 0 then ii
          else iiOldest)
      else none := by
    intro iiOldest ii
    unfold timespecCompareChecked
    split <;> rfl
  unfold findLowestTimespecIndexChecked
  simp only [hstep]
  exact foldlM_range
    (fun ii iiOldest => SecondsComparable (array.getD ii ⟨0, 0⟩) (array.getD iiOldest ⟨0, 0⟩))
    (fun iiOldest ii =>
      if timespecCompare (array.getD ii ⟨0, 0⟩) (array.getD iiOldest ⟨0, 0⟩) < 0 then ii
      else iiOldest) 0 array.length

/-! ## The comparison -/

/-- What the comparison of `a` with `b` has to be: the sign of the difference, 0 exactly on equal
time points, and an order together with the other comparisons that have a result. -/
structure ThreeWay (a b : Timespec) : Prop where
  sign : timespecCompareChecked a b = some (a.nanoseconds - b.nanoseconds).sign
  zero_iff : timespecCompareChecked a b = some 0 ↔ a = b
  antisymmetric : ∀ x y, timespecCompareChecked a b = some x →
    timespecCompareChecked b a = some y → y = -x
  transitive : ∀ c : Timespec, c.Normalised → ∀ x y, timespecCompareChecked a b = some x →
    timespecCompareChecked b c = some x → timespecCompareChecked a c = some y → y = x

theorem timespecCompare_eq (ha : a.Normalised) (hb : b.Normalised) :
    timespecCompare a b = if a.nanoseconds ≤ b.nanoseconds then -1 else 1 := by
  have hneg := timespecCompare_neg_iff ha hb
  have hvalues : timespecCompare a b = 1 ∨ timespecCompare a b = -1 := by
    simp only [timespecCompare]
    generalize (if a.tvSec - b.tvSec = 0 then a.tvNsec - b.tvNsec else a.tvSec - b.tvSec) = r
    by_cases hr : 0 < r
    · exact Or.inl (if_pos hr)
    · refine Or.inr ?_
      rw [if_neg hr, if_pos (by omega)]
  split <;> omega

theorem threeWay_iff (ha : a.Normalised) (hb : b.Normalised) :
    ThreeWay a b ↔ SecondsComparable a b ∧ a ≠ b := by
  constructor
  · intro h
    have hsign := timespecCompareChecked_eq_some_iff.1 h.sign
    refine ⟨hsign.1, fun hab => ?_⟩
    have hzero := (timespecCompareChecked_eq_some_iff.1 (h.zero_iff.2 hab)).2
    rw [timespecCompare_eq ha hb] at hzero
    split at hzero <;> omega
  · rintro ⟨hcomp, hne⟩
    have hns : a.nanoseconds ≠ b.nanoseconds := fun h => hne (ha.ext hb h)
    constructor
    · rw [timespecCompareChecked_eq_some_iff, timespecCompare_eq ha hb]
      refine ⟨hcomp, ?_⟩
      split
      · exact (Int.sign_eq_neg_one_of_neg (by omega)).symm
      · exact (Int.sign_eq_one_of_pos (by omega)).symm
    · refine iff_of_false ?_ hne
      rw [timespecCompareChecked_eq_some_iff, timespecCompare_eq ha hb]
      split <;> omega
    · intro x y hx hy
      rw [timespecCompareChecked_eq_some_iff, timespecCompare_eq ha hb] at hx
      rw [timespecCompareChecked_eq_some_iff, timespecCompare_eq hb ha] at hy
      obtain ⟨-, rfl⟩ := hx
      obtain ⟨-, rfl⟩ := hy
      split <;> split <;> omega
    · intro c hc x y hx hx' hy
      rw [timespecCompareChecked_eq_some_iff, timespecCompare_eq ha hb] at hx
      rw [timespecCompareChecked_eq_some_iff, timespecCompare_eq hb hc] at hx'
      rw [timespecCompareChecked_eq_some_iff, timespecCompare_eq ha hc] at hy
      obtain ⟨-, rfl⟩ := hx
      obtain ⟨-, rfl⟩ := hy
      have hx' := hx'.2
      split <;> split at hx' <;> split at hx' <;> omega

/-! ## The search -/

/-- The search has a result, the first index of a minimum. -/
def FirstOldest (array : List Timespec) : Prop :=
  ∃ i, findLowestTimespecIndexChecked array = some i ∧
    FirstMin (nanosecondsAt array) array.length i

/-- The seconds of each element and the least seconds before it have a difference. -/
def PrefixesComparable (array : List Timespec) : Prop :=
  ∀ i < array.length, 0 < i → ∃ j < i,
    (∀ k < i, (array.getD j ⟨0, 0⟩).tvSec ≤ (array.getD k ⟨0, 0⟩).tvSec) ∧
      SecondsComparable (array.getD i ⟨0, 0⟩) (array.getD j ⟨0, 0⟩)

/-- An older time point does not have more seconds. -/
theorem tvSec_le (ha : a.Normalised) (hb : b.Normalised) (h : a.nanoseconds ≤ b.nanoseconds) :
    a.tvSec ≤ b.tvSec := by
  obtain ⟨ha0, ha1⟩ := ha
  obtain ⟨hb0, hb1⟩ := hb
  unfold Timespec.nanoseconds at h
  omega

theorem prefixesComparable_iff (h : ∀ t ∈ array, t.Normalised) :
    PrefixesComparable array ↔ ∀ i < array.length,
      SecondsComparable (array.getD i ⟨0, 0⟩) (array.getD (oldestBefore array i) ⟨0, 0⟩) := by
  have holdest : ∀ i < array.length, 0 < i → oldestBefore array i < i ∧ ∀ k < i,
      (array.getD (oldestBefore array i) ⟨0, 0⟩).tvSec ≤ (array.getD k ⟨0, 0⟩).tvSec := by
    intro i hi hpos
    have hlast := lastMin_oldestBefore h hi.le hpos
    refine ⟨hlast.lt, fun k hk => ?_⟩
    exact tvSec_le (normalised_getD h (hlast.lt.trans hi)) (normalised_getD h (hk.trans hi))
      (hlast.le k hk)
  constructor
  · intro hprefix i hi
    rcases Nat.eq_zero_or_pos i with rfl | hpos
    · show SecondsComparable (array.getD 0 ⟨0, 0⟩) (array.getD 0 ⟨0, 0⟩)
      simp [SecondsComparable]
    · obtain ⟨hlt, hle⟩ := holdest i hi hpos
      obtain ⟨j, hj, hleast, hcomp⟩ := hprefix i hi hpos
      have hsec := le_antisymm (hle j hj) (hleast _ hlt)
      unfold SecondsComparable at *
      rwa [hsec]
  · intro hcomp i hi hpos
    obtain ⟨hlt, hle⟩ := holdest i hi hpos
    exact ⟨oldestBefore array i, hlt, hle, hcomp i hi⟩

theorem firstOldest_iff (h : ∀ t ∈ array, t.Normalised) (hne : array ≠ []) :
    FirstOldest array ↔
      PrefixesComparable array ∧ Once (nanosecondsAt array) array.length := by
  have hlast := lastMin_findLowestTimespecIndex h (List.length_pos_iff.2 hne)
  unfold FirstOldest
  rw [findLowestTimespecIndexChecked_eq, ← hlast.firstMin_iff, prefixesComparable_iff h]
  constructor
  · rintro ⟨i, hi, hfirst⟩
    split at hi
    next hcomp =>
      obtain rfl := Option.some.inj hi
      exact ⟨hcomp, hfirst⟩
    next => cases hi
  · rintro ⟨hcomp, hfirst⟩
    exact ⟨_, if_pos hcomp, hfirst⟩

/-- The comparison is right exactly on different time points, and the search exactly without
ties, where nothing overflows. -/
theorem oldestTimestamp_iff (ha : a.Normalised) (hb : b.Normalised)
    (harray : ∀ t ∈ array, t.Normalised) (hne : array ≠ []) :
    (ThreeWay a b ↔ SecondsComparable a b ∧ a ≠ b) ∧
      (FirstOldest array ↔
        PrefixesComparable array ∧ Once (nanosecondsAt array) array.length) :=
  ⟨threeWay_iff ha hb, firstOldest_iff harray hne⟩

/-- Two seconds before half a second. -/
theorem oldestTimestamp_iff_seconds :
    (ThreeWay ⟨2, 0⟩ ⟨0, 500000000⟩ ↔
      SecondsComparable ⟨2, 0⟩ ⟨0, 500000000⟩ ∧ (⟨2, 0⟩ : Timespec) ≠ ⟨0, 500000000⟩) ∧
      (FirstOldest [⟨2, 0⟩, ⟨0, 500000000⟩] ↔
        PrefixesComparable [⟨2, 0⟩, ⟨0, 500000000⟩] ∧
          Once (nanosecondsAt [⟨2, 0⟩, ⟨0, 500000000⟩]) 2) :=
  oldestTimestamp_iff (by decide) (by decide) (by decide) (by decide)

/-- Two equal time points, as the watchdog starts with. -/
theorem not_oldestTimestamp :
    (¬∀ a b : Timespec, a.Normalised → b.Normalised → ThreeWay a b) ∧
      ¬∀ array : List Timespec, (∀ t ∈ array, t.Normalised) → array ≠ [] → FirstOldest array := by
  constructor
  · intro h
    have hzero := (h ⟨0, 0⟩ ⟨0, 0⟩ (by decide) (by decide)).zero_iff.2 rfl
    exact absurd hzero (by decide)
  · intro h
    obtain ⟨i, hi, hfirst⟩ := h [⟨0, 0⟩, ⟨0, 0⟩] (by decide) (by decide)
    obtain rfl : 1 = i := Option.some.inj hi
    exact absurd (hfirst.first 0 Nat.zero_lt_one) (by decide)

end CpuUsageTracker
