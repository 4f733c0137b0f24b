import Mathlib.Algebra.Order.Ring.Rat
import Mathlib.Data.Int.Notation
import Mathlib.Data.Nat.Notation
import Mathlib.Logic.Function.Basic
import Mathlib.Tactic.Common

/-!
# CPU usage

`procstat.h` and `cpuusage.c`: the counters of one line of `/proc/stat`, and the percentages
computed from two samples. The counters are `UInt64`, so sums and differences wrap as in the
source.

`PercentageValue_t` is `double`. Its operations are parameters (`PercentageValue`), so nothing
here depends on rounding.
-/

namespace CpuUsageTracker

inductive CpuStatIndex
  | user
  | nice
  | system
  | idle
  | iowait
  | irq
  | softirq
  | steal
  | guest
  | guestnice
  deriving DecidableEq, Repr

/-- One line of `/proc/stat`. -/
structure CpuStat where
  values : CpuStatIndex → UInt64

/-- `cpuStats` is a flexible array member: all that lies behind the length in memory. -/
structure ProcStat where
  cpuStatsLength : UInt64
  cpuStats : ℕ → CpuStat

/-- The operations on `double` that the program uses. -/
class PercentageValue (V : Type) where
  ofCounter : UInt64 → V
  ofInt : ℤ → V
  sub : V → V → V
  div : V → V → V
  mul : V → V → V
  /-- The conversion `%.2f`. -/
  format : V → String

/-- Exact arithmetic in place of `double`. -/
instance : PercentageValue ℚ where
  ofCounter n := n.toNat
  ofInt n := n
  sub := (· - ·)
  div := (· / ·)
  mul := (· * ·)
  format q :=
    let size := (if q < 0 then -q else q) * 100
    let below := size.floor.toNat
    -- a tie goes to the even digit
    let up := 1 / 2 < size - below ∨ size - below = 1 / 2 ∧ below % 2 = 1
    let hundredths := if up then below + 1 else below
    (if q < 0 then "-" else "") ++ toString (hundredths / 100) ++ "." ++
      toString (hundredths % 100 / 10) ++ toString (hundredths % 10)

/-- The first `valuesLength` entries of the structure, which are all that is ever read. -/
structure CpuUsageInfo (V : Type) where
  values : List V

/-- The same structure as memory that `CpuUsageInfo_calculate` writes to. -/
structure CpuUsageBuffer (V : Type) where
  valuesLength : UInt64
  values : ℕ → V

section

open PercentageValue

variable {V : Type} [PercentageValue V]

def calculateCpuUsagePercentage (oldStat newStat : CpuStat) : V :=
  let prevIdle := oldStat.values .idle + oldStat.values .iowait
  let idle := newStat.values .idle + newStat.values .iowait
  let prevNonIdle := oldStat.values .user + oldStat.values .nice + oldStat.values .system +
    oldStat.values .irq + oldStat.values .softirq + oldStat.values .steal
  let nonIdle := newStat.values .user + newStat.values .nice + newStat.values .system +
    newStat.values .irq + newStat.values .softirq + newStat.values .steal
  let prevTotal := prevIdle + prevNonIdle
  let total := idle + nonIdle
  let totald := total - prevTotal
  let idled := idle - prevIdle
  let result : V :=
    if totald ≠ 0 then div (sub (ofCounter totald) (ofCounter idled)) (ofCounter totald)
    else ofInt (-1)
  mul result (ofInt 100)

def CpuUsageInfo.calculate (oldProcStat newProcStat : ProcStat) : CpuUsageInfo V where
  values := (List.range oldProcStat.cpuStatsLength.toNat).map fun ii =>
    calculateCpuUsagePercentage (oldProcStat.cpuStats ii) (newProcStat.cpuStats ii)

/-- The loop of `CpuUsageInfo_calculate`. Its counter is an `unsigned`, which is compared with a
`size_t`. -/
def calculateLoop (oldProcStat newProcStat : ProcStat) (cpuLineCount : UInt64) :
    ℕ → UInt32 → (ℕ → V) → Option (ℕ → V)
  | 0, _, _ => none
  | fuel + 1, ii, values =>
    if ii.toUInt64 < cpuLineCount then
      calculateLoop oldProcStat newProcStat cpuLineCount fuel (ii + 1) <|
        Function.update values ii.toNat <|
          calculateCpuUsagePercentage (oldProcStat.cpuStats ii.toNat)
            (newProcStat.cpuStats ii.toNat)
    else some values

/-- `CpuUsageInfo_calculate`, if its loop ends within `fuel` iterations. The samples may be null,
the output is not. -/
def CpuUsageBuffer.calculate (fuel : ℕ) (oldProcStat newProcStat : Option ProcStat)
    (output : CpuUsageBuffer V) : Option (CpuUsageBuffer V) :=
  match oldProcStat, newProcStat with
  | some oldProcStat, some newProcStat =>
    let cpuLineCount := oldProcStat.cpuStatsLength
    (calculateLoop oldProcStat newProcStat cpuLineCount fuel 0 output.values).map fun values =>
      ⟨cpuLineCount, values⟩
  | _, _ => some output

end

end CpuUsageTracker
