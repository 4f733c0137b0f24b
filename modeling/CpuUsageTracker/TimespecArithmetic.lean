import CpuUsageTracker.Library.Argmin
import CpuUsageTracker.Timespec
import Mathlib.Algebra.Order.Group.Int
import Mathlib.Data.List.GetD

/-!
# What the arithmetic of time points denotes

A time point denotes a number of nanoseconds (`Timespec.nanoseconds`), and normalised time points
denote different numbers.

**Theorem (`timespec_exact_iff`).** For normalised `a` and `b` with seconds that are not negative,
`timespecAdd` and `timespecDifference` are exact and inverse to each other exactly if four boundary
cases are avoided (`TimespecRegular`):

* `timespecAdd` carries on `nsecs > 1000000000`, so a sum of exactly one second is not carried,
* it passes the seconds through `unsigned`, so they have to be below `2 ^ 32`,
* `timespecDifference` borrows on `a.tv_nsec <= b.tv_nsec`, so equal nanoseconds borrow in vain,
* and taking `b` from `a + b` meets that case if `a.tv_nsec` is zero.

The difference denotes the right number even then. It is the normal form that is missed, and the
comparison with two seconds does not notice (`timespecCompare_difference_pos_iff`).
-/

namespace CpuUsageTracker

open Argmin

namespace Timespec

def nanoseconds (t : Timespec) : ℤ := t.tvSec * 1000000000 + t.tvNsec

structure Normalised (t : Timespec) : Prop where
  nonneg : 0 ≤ t.tvNsec
  lt : t.tvNsec < 1000000000

instance (t : Timespec) : Decidable t.Normalised :=
  decidable_of_iff (0 ≤ t.tvNsec ∧ t.tvNsec < 1000000000) ⟨fun h => ⟨h.1, h.2⟩, fun h => ⟨h.1, h.2⟩⟩

theorem Normalised.ext {a b : Timespec} (ha : a.Normalised) (hb : b.Normalised)
    (h : a.nanoseconds = b.nanoseconds) : a = b := by
  obtain ⟨ha0, ha1⟩ := ha
  obtain ⟨hb0, hb1⟩ := hb
  unfold nanoseconds at h
  cases a
  cases b
  simp only [mk.injEq] at *
  omega

end Timespec

variable {a b : Timespec}

/-! ## Sums and differences -/

/-- The sum is normalised and denotes the sum. -/
structure AddExact (a b : Timespec) : Prop where
  normalised : (timespecAdd a b).Normalised
  nanoseconds : (timespecAdd a b).nanoseconds = a.nanoseconds + b.nanoseconds

/-- The difference is normalised and denotes the difference. -/
structure DifferenceExact (a b : Timespec) : Prop where
  normalised : (timespecDifference a b).Normalised
  nanoseconds : (timespecDifference a b).nanoseconds = a.nanoseconds - b.nanoseconds

/-- Taking away what was added gives the same fields. -/
def RoundTrip (a b : Timespec) : Prop := timespecDifference (timespecAdd a b) b = a

/-- Whole seconds of the sum, with the carry. -/
def carriedSeconds (a b : Timespec) : ℤ :=
  a.tvSec + b.tvSec + if 1000000000 ≤ a.tvNsec + b.tvNsec then 1 else 0

theorem timespecDifference_nanoseconds (a b : Timespec) :
    (timespecDifference a b).nanoseconds = a.nanoseconds - b.nanoseconds := by
  unfold timespecDifference Timespec.nanoseconds
  split <;> simp only <;> omega

theorem differenceExact_iff (ha : a.Normalised) (hb : b.Normalised) :
    DifferenceExact a b ↔ a.tvNsec ≠ b.tvNsec := by
  obtain ⟨ha0, ha1⟩ := ha
  obtain ⟨hb0, hb1⟩ := hb
  constructor
  · intro h heq
    have hlt := h.normalised.lt
    simp only [timespecDifference, heq, le_refl, if_true] at hlt
    omega
  · intro hne
    refine ⟨?_, timespecDifference_nanoseconds a b⟩
    unfold timespecDifference
    split
    · constructor <;> simp only <;> omega
    · constructor <;> simp only <;> omega

theorem addExact_iff (ha : a.Normalised) (hb : b.Normalised) (ha0 : 0 ≤ a.tvSec)
    (hb0 : 0 ≤ b.tvSec) :
    AddExact a b ↔ a.tvNsec + b.tvNsec ≠ 1000000000 ∧ carriedSeconds a b < 2 ^ 32 := by
  obtain ⟨han, han'⟩ := ha
  obtain ⟨hbn, hbn'⟩ := hb
  have hnsecs : (a.tvNsec + b.tvNsec) % 2 ^ 32 = a.tvNsec + b.tvNsec := by omega
  constructor
  · intro h
    obtain ⟨⟨hnonneg, hlt⟩, hvalue⟩ := h
    simp only [timespecAdd, hnsecs, Timespec.nanoseconds] at hnonneg hlt hvalue
    unfold carriedSeconds
    split at hlt <;> rename_i hcarry <;> simp only [hcarry, if_true, if_false] at hlt hvalue
    · rw [if_pos (by omega)]
      omega
    · rw [if_neg (by omega)]
      omega
  · rintro ⟨hne, hsecs⟩
    unfold carriedSeconds at hsecs
    by_cases hcarry : a.tvNsec + b.tvNsec > 1000000000
    · rw [if_pos (by omega)] at hsecs
      have hsec : (a.tvSec + b.tvSec) % 2 ^ 32 = a.tvSec + b.tvSec := by omega
      have hsec' : (a.tvSec + b.tvSec + 1) % 2 ^ 32 = a.tvSec + b.tvSec + 1 := by omega
      constructor
      · constructor <;> simp only [timespecAdd, hnsecs, hcarry, if_true] <;> omega
      · simp only [timespecAdd, Timespec.nanoseconds, hnsecs, hcarry, if_true, hsec, hsec']
        omega
    · rw [if_neg (by omega)] at hsecs
      have hsec : (a.tvSec + b.tvSec) % 2 ^ 32 = a.tvSec + b.tvSec := by omega
      constructor
      · constructor <;> simp only [timespecAdd, hnsecs, hcarry, if_false] <;> omega
      · simp only [timespecAdd, Timespec.nanoseconds, hnsecs, hcarry, if_false, hsec]
        omega

/-- Given an exact sum, the round trip goes wrong only on whole seconds. -/
theorem roundTrip_iff (ha : a.Normalised) (hb : b.Normalised) (h : AddExact a b) :
    RoundTrip a b ↔ a.tvNsec ≠ 0 := by
  have hback : (timespecDifference (timespecAdd a b) b).nanoseconds = a.nanoseconds := by
    rw [timespecDifference_nanoseconds, h.nanoseconds]
    omega
  have hnsec : (timespecAdd a b).tvNsec = b.tvNsec ↔ a.tvNsec = 0 := by
    have hvalue := h.nanoseconds
    obtain ⟨hs0, hs1⟩ := h.normalised
    obtain ⟨ha0, ha1⟩ := ha
    obtain ⟨hb0, hb1⟩ := hb
    unfold Timespec.nanoseconds at hvalue
    omega
  constructor
  · intro hround hzero
    have hlt := ha.lt
    rw [← show timespecDifference (timespecAdd a b) b = a from hround] at hlt
    simp only [timespecDifference, hnsec.2 hzero, le_refl, if_true] at hlt
    omega
  · intro hne
    have hexact := (differenceExact_iff h.normalised hb).2 (mt hnsec.1 hne)
    exact hexact.normalised.ext ha hback

/-- The inputs that avoid the boundary cases. -/
structure TimespecRegular (a b : Timespec) : Prop where
  noFullSecond : a.tvNsec + b.tvNsec ≠ 1000000000
  seconds : carriedSeconds a b < 2 ^ 32
  distinct : b.nanoseconds ≤ a.nanoseconds → a.tvNsec ≠ b.tvNsec
  fraction : a.tvNsec ≠ 0

/-- The two operations are exact, where the difference is not negative, and inverse. -/
theorem timespec_exact_iff (ha : a.Normalised) (hb : b.Normalised) (ha0 : 0 ≤ a.tvSec)
    (hb0 : 0 ≤ b.tvSec) :
    (AddExact a b ∧ (b.nanoseconds ≤ a.nanoseconds → DifferenceExact a b) ∧ RoundTrip a b) ↔
      TimespecRegular a b := by
  rw [differenceExact_iff ha hb]
  constructor
  · rintro ⟨hadd, hdiff, hround⟩
    obtain ⟨hne, hsecs⟩ := (addExact_iff ha hb ha0 hb0).1 hadd
    exact ⟨hne, hsecs, hdiff, (roundTrip_iff ha hb hadd).1 hround⟩
  · intro h
    have hadd := (addExact_iff ha hb ha0 hb0).2 ⟨h.noFullSecond, h.seconds⟩
    exact ⟨hadd, h.distinct, (roundTrip_iff ha hb hadd).2 h.fraction⟩

/-- 1.25 s and 0.5 s. -/
theorem timespec_exact_iff_fractions :
    AddExact ⟨1, 250000000⟩ ⟨0, 500000000⟩ ∧
      (Timespec.nanoseconds ⟨0, 500000000⟩ ≤ Timespec.nanoseconds ⟨1, 250000000⟩ →
        DifferenceExact ⟨1, 250000000⟩ ⟨0, 500000000⟩) ∧
      RoundTrip ⟨1, 250000000⟩ ⟨0, 500000000⟩ :=
  (timespec_exact_iff (by decide) (by decide) (by decide) (by decide)).2
    ⟨by decide, by decide, by decide, by decide⟩

/-- Two half seconds. -/
theorem timespec_not_exact :
    ¬∀ a b : Timespec, a.Normalised → b.Normalised → 0 ≤ a.tvSec → 0 ≤ b.tvSec →
      a.tvSec + b.tvSec < 2 ^ 63 →
      AddExact a b ∧ (b.nanoseconds ≤ a.nanoseconds → DifferenceExact a b) ∧ RoundTrip a b := by
  intro h
  have hexact := (h ⟨0, 500000000⟩ ⟨0, 500000000⟩ (by decide) (by decide) (by decide) (by decide)
    (by decide)).1
  exact absurd hexact.normalised (by decide)

/-! ## Comparison -/

/-- A negative result means at most, not less. -/
theorem timespecCompare_neg_iff (ha : a.Normalised) (hb : b.Normalised) :
    timespecCompare a b < 0 ↔ a.nanoseconds ≤ b.nanoseconds := by
  obtain ⟨ha0, ha1⟩ := ha
  obtain ⟨hb0, hb1⟩ := hb
  unfold timespecCompare Timespec.nanoseconds
  by_cases hsec : a.tvSec - b.tvSec = 0
  · simp only [hsec, if_true]
    split <;> [skip; split] <;> omega
  · simp only [hsec, if_false]
    split <;> [skip; split] <;> omega

/-- The difference of normalised time points may have a full second of nanoseconds. -/
theorem timespecCompare_difference_pos_iff (ha : a.Normalised) (hb : b.Normalised) (secs : ℤ) :
    timespecCompare (timespecDifference a b) ⟨secs, 0⟩ > 0 ↔
      a.nanoseconds - b.nanoseconds > secs * 1000000000 := by
  have hvalue := timespecDifference_nanoseconds a b
  have hrange : 0 < (timespecDifference a b).tvNsec ∧
      (timespecDifference a b).tvNsec ≤ 1000000000 := by
    obtain ⟨ha0, ha1⟩ := ha
    obtain ⟨hb0, hb1⟩ := hb
    unfold timespecDifference
    split <;> simp only <;> omega
  rw [← hvalue]
  generalize timespecDifference a b = d at *
  unfold timespecCompare Timespec.nanoseconds
  by_cases hsec : d.tvSec - secs = 0
  · simp only [hsec, if_true]
    split <;> [skip; split] <;> omega
  · simp only [hsec, if_false]
    split <;> [skip; split] <;> omega

/-! ## The oldest time point -/

/-- The values that the search compares. -/
def nanosecondsAt (array : List Timespec) (i : ℕ) : ℤ := (array.getD i ⟨0, 0⟩).nanoseconds

theorem normalised_getD {array : List Timespec} (h : ∀ t ∈ array, t.Normalised) {i : ℕ}
    (hi : i < array.length) : (array.getD i ⟨0, 0⟩).Normalised := by
  rw [List.getD_eq_getElem array _ hi]
  exact h _ (List.getElem_mem hi)

/-- The loop of `findLowestTimespecIndex` up to the index `m`. -/
def oldestBefore (array : List Timespec) (m : ℕ) : ℕ :=
  (List.range m).foldl (fun iiOldest ii =>
    if timespecCompare (array.getD ii ⟨0, 0⟩) (array.getD iiOldest ⟨0, 0⟩) < 0 then ii
    else iiOldest) 0

/-- A tie counts as less, so the search ends at the last one of the oldest time points. -/
theorem lastMin_oldestBefore {array : List Timespec} (h : ∀ t ∈ array, t.Normalised) {m : ℕ}
    (hm : m ≤ array.length) (hpos : 0 < m) :
    LastMin (nanosecondsAt array) m (oldestBefore array m) := by
  refine lastMin_foldl
    (fun i j => timespecCompare (array.getD i ⟨0, 0⟩) (array.getD j ⟨0, 0⟩) < 0) ?_ hpos
  intro i hi j hj
  exact timespecCompare_neg_iff (normalised_getD h (hi.trans_le hm))
    (normalised_getD h (hj.trans_le hm))

theorem lastMin_findLowestTimespecIndex {array : List Timespec} (h : ∀ t ∈ array, t.Normalised)
    (hne : 0 < array.length) :
    LastMin (nanosecondsAt array) array.length (findLowestTimespecIndex array) :=
  lastMin_oldestBefore h le_rfl hne

theorem findLowestTimespecIndex_le {array : List Timespec} (h : ∀ t ∈ array, t.Normalised)
    {t : Timespec} (ht : t ∈ array) :
    (array.getD (findLowestTimespecIndex array) ⟨0, 0⟩).nanoseconds ≤ t.nanoseconds := by
  obtain ⟨k, hk, rfl⟩ := List.mem_iff_getElem.1 ht
  rw [← List.getD_eq_getElem array ⟨0, 0⟩ hk]
  exact (lastMin_findLowestTimespecIndex h (Nat.zero_lt_of_lt hk)).le k hk

end CpuUsageTracker
