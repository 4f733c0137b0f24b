import CpuUsageTracker.TimespecArithmetic

/-!
# Two ways to compute a deadline

The waiting threads take their deadline from `TimePointMs`. The watchdog adds `msToTimespec` to a
time point. Both mean "now plus `ms`", and agree on most inputs.

**Theorem (`deadlinesExact_iff`).** Let `now` be normalised. The two computations denote
`now + ms`, in normal form, exactly if

* the nanoseconds do not add up to one full second, which `timespecAdd` does not carry, and
* the deadline has between 0 and `2 ^ 32 - 1` seconds, because `timespecAdd` passes the seconds
  through `unsigned`.

`TimePointMs` is exact on all inputs (`timePointMs_denotes`). So is the fraction that
`msToTimespec` computes, although it subtracts a product that wraps: the error is a multiple of
`2 ^ 32` (`tvNsec_msToTimespec`). The seconds wrap, and an exact deadline is met by wrapping once
more if `now` lies before 1970.
-/

namespace CpuUsageTracker

/-- `t` is the normal form of a number of nanoseconds. -/
structure Timespec.Denotes (t : Timespec) (ns : ℤ) : Prop where
  normalised : t.Normalised
  nanoseconds : t.nanoseconds = ns

theorem Timespec.Denotes.unique {s t : Timespec} {ns : ℤ} (hs : s.Denotes ns)
    (ht : t.Denotes ns) : s = t :=
  hs.normalised.ext ht.normalised (hs.nanoseconds.trans ht.nanoseconds.symm)

variable {now : Timespec} {ms : ℕ}

/-- `ms` milliseconds after `now`. -/
def deadline (now : Timespec) (ms : ℕ) : ℤ := now.nanoseconds + ms * 1000000

def deadlineSeconds (now : Timespec) (ms : ℕ) : ℤ := deadline now ms / 1000000000

/-- Both computations are exact, as far as `ms` fits the parameter, and agree. -/
structure DeadlinesExact (now : Timespec) (ms : ℕ) : Prop where
  watchdog : (timespecAdd now (msToTimespec ms)).Denotes (deadline now ms)
  helper : ms < 2 ^ 32 → (timePointMs now ms).Denotes (deadline now ms)
  agree : ms < 2 ^ 32 → timePointMs now ms = timespecAdd now (msToTimespec ms)

/-! ## `TimePointMs` -/

theorem timePointMs_denotes (hnow : now.Normalised) (ms : ℕ) :
    (timePointMs now ms).Denotes (deadline now ms) := by
  obtain ⟨hnonneg, hlt⟩ := hnow
  have hsum : (now.tvNsec + ((ms : ℤ) - (ms : ℤ) / 1000 * 1000) * 1000000) % 2 ^ 64 =
      now.tvNsec + ((ms : ℤ) - (ms : ℤ) / 1000 * 1000) * 1000000 := by
    omega
  simp only [timePointMs, hsum, deadline]
  by_cases hcarry : now.tvNsec + ((ms : ℤ) - (ms : ℤ) / 1000 * 1000) * 1000000 < 1000000000
  · rw [if_pos hcarry]
    refine ⟨⟨?_, hcarry⟩, ?_⟩
    · show 0 ≤ now.tvNsec + ((ms : ℤ) - (ms : ℤ) / 1000 * 1000) * 1000000
      omega
    · simp only [Timespec.nanoseconds]
      omega
  · rw [if_neg hcarry]
    refine ⟨⟨?_, ?_⟩, ?_⟩
    · exact Int.sub_nonneg_of_le (not_lt.1 hcarry)
    · show now.tvNsec + ((ms : ℤ) - (ms : ℤ) / 1000 * 1000) * 1000000 - 1000000000 < 1000000000
      omega
    · simp only [Timespec.nanoseconds]
      omega

/-! ## `timespecAdd` and `msToTimespec` -/

theorem tvSec_msToTimespec (ms : ℕ) : (msToTimespec ms).tvSec = (ms / 1000 : ℤ) % 2 ^ 32 := by
  simp only [msToTimespec]
  omega

theorem tvNsec_msToTimespec (ms : ℕ) :
    (msToTimespec ms).tvNsec = (ms % 1000 : ℤ) * 1000000 := by
  simp only [msToTimespec]
  omega

/-- Without a full second, only the seconds may be wrong, by a multiple of `2 ^ 32`. -/
theorem timespecAdd_msToTimespec (hnow : now.Normalised)
    (hne : now.tvNsec + (ms % 1000 : ℤ) * 1000000 ≠ 1000000000) :
    timespecAdd now (msToTimespec ms) =
      ⟨deadlineSeconds now ms % 2 ^ 32, deadline now ms % 1000000000⟩ := by
  obtain ⟨hnonneg, hlt⟩ := hnow
  have hnsecs : (now.tvNsec + (ms % 1000 : ℤ) * 1000000) % 2 ^ 32 =
      now.tvNsec + (ms % 1000 : ℤ) * 1000000 := by
    omega
  simp only [timespecAdd, tvSec_msToTimespec, tvNsec_msToTimespec, hnsecs, deadlineSeconds,
    deadline, Timespec.nanoseconds]
  by_cases hcarry : now.tvNsec + (ms % 1000 : ℤ) * 1000000 > 1000000000
  · rw [if_pos hcarry, Timespec.mk.injEq]
    constructor <;> omega
  · rw [if_neg hcarry, Timespec.mk.injEq]
    constructor <;> omega

/-- A full second stays in the nanoseconds. -/
theorem timespecAdd_msToTimespec_tvNsec
    (heq : now.tvNsec + (ms % 1000 : ℤ) * 1000000 = 1000000000) :
    (timespecAdd now (msToTimespec ms)).tvNsec = 1000000000 := by
  simp only [timespecAdd, tvNsec_msToTimespec, heq]
  rfl

theorem timespecAdd_msToTimespec_denotes_iff (hnow : now.Normalised) :
    (timespecAdd now (msToTimespec ms)).Denotes (deadline now ms) ↔
      now.tvNsec + (ms % 1000 : ℤ) * 1000000 ≠ 1000000000 ∧
        0 ≤ deadlineSeconds now ms ∧ deadlineSeconds now ms < 2 ^ 32 := by
  constructor
  · intro h
    have hne : now.tvNsec + (ms % 1000 : ℤ) * 1000000 ≠ 1000000000 := by
      intro heq
      have hlt := h.normalised.lt
      rw [timespecAdd_msToTimespec_tvNsec heq] at hlt
      exact lt_irrefl _ hlt
    have hvalue := h.nanoseconds
    rw [timespecAdd_msToTimespec hnow hne] at hvalue
    simp only [Timespec.nanoseconds, deadlineSeconds] at *
    omega
  · rintro ⟨hne, h0, h32⟩
    rw [timespecAdd_msToTimespec hnow hne]
    unfold deadlineSeconds at *
    constructor
    · constructor <;> simp only <;> omega
    · simp only [Timespec.nanoseconds]
      omega

/-! ## Both -/

/-- The two deadlines are exact, and equal, exactly away from the two boundaries. -/
theorem deadlinesExact_iff (hnow : now.Normalised) :
    DeadlinesExact now ms ↔
      now.tvNsec + (ms % 1000 : ℤ) * 1000000 ≠ 1000000000 ∧
        0 ≤ deadlineSeconds now ms ∧ deadlineSeconds now ms < 2 ^ 32 := by
  rw [← timespecAdd_msToTimespec_denotes_iff hnow]
  constructor
  · exact DeadlinesExact.watchdog
  · intro h
    have hhelper := timePointMs_denotes hnow ms
    exact ⟨h, fun _ => hhelper, fun _ => hhelper.unique h⟩

/-- A quarter of a second, from half a second on. -/
theorem deadlinesExact_iff_quarter :
    DeadlinesExact ⟨0, 500000000⟩ 250 ↔
      (500000000 : ℤ) + ((250 : ℕ) % 1000 : ℤ) * 1000000 ≠ 1000000000 ∧
        0 ≤ deadlineSeconds ⟨0, 500000000⟩ 250 ∧ deadlineSeconds ⟨0, 500000000⟩ 250 < 2 ^ 32 :=
  deadlinesExact_iff (by decide)

/-- Half a second, from half a second on. -/
theorem not_deadlinesExact :
    ¬∀ (now : Timespec) (ms : ℕ), now.Normalised → ms < 2 ^ 64 →
      -2 ^ 63 ≤ now.tvSec → deadlineSeconds now ms < 2 ^ 63 → DeadlinesExact now ms := by
  intro h
  have hexact := h ⟨0, 500000000⟩ 500 (by decide) (by decide) (by decide) (by decide)
  exact absurd hexact.watchdog.normalised (by decide)

end CpuUsageTracker
