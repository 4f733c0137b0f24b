import Mathlib.Algebra.Group.Int.Defs
import Mathlib.Algebra.Group.Nat.Defs
import Mathlib.Data.Int.Notation
import Mathlib.Data.Nat.Notation
import Mathlib.Tactic.Common

/-!
# Time points

`struct timespec` with the functions of `helpers.c` and `watchdog.c` that compute with it. The
fields are integers. Where the source passes a value through `unsigned` or
`unsigned long long`, the model reduces it modulo `2 ^ 32` or `2 ^ 64`; sums and differences of
`time_t` and `long` do not overflow here.

The clock counts nanoseconds, and `timespec_get` splits its reading into the two fields.
-/

namespace CpuUsageTracker

structure Timespec where
  tvSec : ℤ
  tvNsec : ℤ
  deriving DecidableEq, Repr

/-- What `timespec_get` stores when the clock reads `clock`. -/
def timespecGet (clock : ℕ) : Timespec := ⟨clock / 1000000000, clock % 1000000000⟩

/-- `TimePointMs`, called at `now`. -/
def timePointMs (now : Timespec) (ms : ℕ) : Timespec :=
  let seconds : ℤ := ms / 1000
  let nanoseconds : ℤ := (ms - seconds * 1000) * 1000000
  if (now.tvNsec + nanoseconds) % 2 ^ 64 < 1000000000 then
    ⟨now.tvSec + seconds, now.tvNsec + nanoseconds⟩
  else ⟨now.tvSec + seconds + 1, now.tvNsec + nanoseconds - 1000000000⟩

def timespecAdd (a b : Timespec) : Timespec :=
  let secs := (a.tvSec + b.tvSec) % 2 ^ 32
  let nsecs := (a.tvNsec + b.tvNsec) % 2 ^ 32
  if nsecs > 1000000000 then ⟨(secs + 1) % 2 ^ 32, nsecs - 1000000000⟩ else ⟨secs, nsecs⟩

/-- The last line of the source returns `-1` for every difference below 1. -/
def timespecCompare (a b : Timespec) : ℤ :=
  let diff := a.tvSec - b.tvSec
  let retval := if diff = 0 then a.tvNsec - b.tvNsec else diff
  if retval > 0 then 1 else if retval < 1 then -1 else 0

def findLowestTimespecIndex (array : List Timespec) : ℕ :=
  (List.range array.length).foldl (fun iiOldest ii =>
    if timespecCompare (array.getD ii ⟨0, 0⟩) (array.getD iiOldest ⟨0, 0⟩) < 0 then ii
    else iiOldest) 0

def timespecDifference (a b : Timespec) : Timespec :=
  if a.tvNsec ≤ b.tvNsec then
    ⟨a.tvSec - b.tvSec - 1, 1000000000 - (b.tvNsec - a.tvNsec)⟩
  else ⟨a.tvSec - b.tvSec, a.tvNsec - b.tvNsec⟩

def msToTimespec (ms : ℕ) : Timespec :=
  let secs : ℕ := ms / 1000 % 2 ^ 32
  let nsecs : ℕ := (ms - secs * 1000 % 2 ^ 32) * 1000000 % 2 ^ 64 % 2 ^ 32
  ⟨secs, nsecs⟩

/-! ## What they mean -/

/-- The time point in nanoseconds. -/
def Timespec.toNs (t : Timespec) : ℕ := (t.tvSec * 1000000000 + t.tvNsec).toNat

@[simp] theorem toNs_timespecGet (clock : ℕ) : (timespecGet clock).toNs = clock := by
  simp only [Timespec.toNs, timespecGet]
  omega

theorem timespecCompare_nonpos {a b : Timespec}
    (h : a.tvSec < b.tvSec ∨ a.tvSec = b.tvSec ∧ a.tvNsec ≤ b.tvNsec) :
    timespecCompare a b ≤ 0 := by
  have hretval :
      (if a.tvSec - b.tvSec = 0 then a.tvNsec - b.tvNsec else a.tvSec - b.tvSec) ≤ 0 := by
    split <;> omega
  simp only [timespecCompare]
  rw [if_neg (Int.not_lt.2 hretval)]
  split <;> omega

/-- The difference of two readings of the clock is at most two seconds. -/
theorem timespecCompare_difference {m n : ℕ} (h : n ≤ m + 2000000000) :
    timespecCompare (timespecDifference (timespecGet n) (timespecGet m)) ⟨2, 0⟩ ≤ 0 := by
  apply timespecCompare_nonpos
  unfold timespecDifference
  split
  · simp only [timespecGet] at *
    omega
  · simp only [timespecGet] at *
    omega

/-- The search stays inside the array. -/
theorem findLowestTimespecIndex_lt {array : List Timespec} (h : 0 < array.length) :
    findLowestTimespecIndex array < array.length := by
  unfold findLowestTimespecIndex
  refine List.foldlRecOn (motive := fun ii => ii < array.length) _ _ h
    fun iiOldest hOldest ii hii => ?_
  split
  · exact List.mem_range.1 hii
  · exact hOldest

end CpuUsageTracker
