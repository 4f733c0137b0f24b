import CpuUsageTracker.CpuUsage
import CpuUsageTracker.Library.Wrapping
import Mathlib.Algebra.BigOperators.Group.List.Basic
import Mathlib.Algebra.Order.Field.Basic
import Mathlib.Tactic.FieldSimp
import Mathlib.Tactic.Linarith
import Mathlib.Tactic.Positivity
import Mathlib.Tactic.Ring

/-!
# What the usage formula computes

`calculateCpuUsagePercentage` adds and subtracts 64-bit counters, and all that wraps cancels: the
total and the idle difference are the differences of the sums, modulo `2 ^ 64` (`advance`). In
exact arithmetic the result is `100 * (total - idle) / total`.

**Theorem (`usage_exact`).** If each counter advances by some amount modulo `2 ^ 64`, and the total
of the amounts is positive and below `2 ^ 64`, every entry is the percentage of the total that is
neither idle nor waiting. The guest columns do not matter.

**Theorem (`usage_inRange_iff`).** For arbitrary counters an entry is in the range from 0 to 100 or
equal to the error value -1 exactly if the total difference is not zero and the idle difference is
not above it, or is 101/100 of it by chance. Where the total difference is zero, the entry is -100:
the error value is scaled like a result.

`calculateLoop_eq` and `calculate_values` connect the loop over memory with the list that the rest
of the model uses.
-/

namespace CpuUsageTracker

open Wrapping

/-! ## The differences -/

/-- The columns that count as the total. Time as a guest is contained in `user` and `nice`. -/
def totalColumns : List CpuStatIndex :=
  [.idle, .iowait, .user, .nice, .system, .irq, .softirq, .steal]

def idleColumns : List CpuStatIndex := [.idle, .iowait]

def CpuStat.sum (columns : List CpuStatIndex) (s : CpuStat) : ℤ :=
  (columns.map fun j => ((s.values j).toNat : ℤ)).sum

/-- By how much the columns advance from one sample to the next, as far as 64 bits can tell. -/
def advance (columns : List CpuStatIndex) (oldStat newStat : CpuStat) : ℤ :=
  (newStat.sum columns - oldStat.sum columns) % 2 ^ 64

/-- The formula over the two differences. -/
def percentage (total idle : ℤ) : ℚ :=
  if total = 0 then -100 else 100 * (total - idle) / total

theorem wraps_idle (s : CpuStat) :
    Wraps (s.values .idle + s.values .iowait) (s.sum idleColumns) := by
  have h := (wraps_toNat (s.values .idle)).add (wraps_toNat (s.values .iowait))
  simpa [CpuStat.sum, idleColumns] using h

theorem wraps_total (s : CpuStat) :
    Wraps (s.values .idle + s.values .iowait +
      (s.values .user + s.values .nice + s.values .system + s.values .irq + s.values .softirq +
        s.values .steal)) (s.sum totalColumns) := by
  have hnonIdle := ((((wraps_toNat (s.values .user)).add (wraps_toNat (s.values .nice))).add
    (wraps_toNat (s.values .system))).add (wraps_toNat (s.values .irq))).add
    (wraps_toNat (s.values .softirq)) |>.add (wraps_toNat (s.values .steal))
  have hsum : s.sum totalColumns = s.sum idleColumns +
      ((s.values .user).toNat + (s.values .nice).toNat + (s.values .system).toNat +
        (s.values .irq).toNat + (s.values .softirq).toNat + (s.values .steal).toNat) := by
    simp only [CpuStat.sum, totalColumns, idleColumns, List.map_cons, List.map_nil, List.sum_cons,
      List.sum_nil]
    ring
  rw [hsum]
  exact (wraps_idle s).add hnonIdle

open PercentageValue in
theorem percentage_of_wraps {totald idled : UInt64} {total idle : ℤ} (htotal : Wraps totald total)
    (hidle : Wraps idled idle) :
    (mul (if totald ≠ 0 then div (sub (ofCounter totald) (ofCounter idled)) (ofCounter totald)
      else ofInt (-1)) (ofInt 100) : ℚ) = percentage (total % 2 ^ 64) (idle % 2 ^ 64) := by
  have hzero : totald = 0 ↔ total % 2 ^ 64 = 0 := by
    rw [← htotal, ← UInt64.toNat_inj]
    simp
  unfold percentage
  by_cases h : totald = 0
  · rw [if_neg (not_not.2 h), if_pos (hzero.1 h)]
    simp only [mul, ofInt]
    norm_num
  · rw [if_pos h, if_neg (mt hzero.2 h), ← htotal, ← hidle]
    simp only [mul, div, sub, ofCounter, ofInt, Int.cast_natCast]
    push_cast
    ring

theorem calculateCpuUsagePercentage_eq (oldStat newStat : CpuStat) :
    (calculateCpuUsagePercentage oldStat newStat : ℚ) =
      percentage (advance totalColumns oldStat newStat) (advance idleColumns oldStat newStat) :=
  percentage_of_wraps ((wraps_total newStat).sub (wraps_total oldStat))
    ((wraps_idle newStat).sub (wraps_idle oldStat))

/-! ## The formula -/

variable {total idle : ℤ}

theorem percentage_nonneg_iff (h : 0 < total) : 0 ≤ percentage total idle ↔ idle ≤ total := by
  have hpos : (0 : ℚ) < total := Int.cast_pos.2 h
  rw [percentage, if_neg h.ne', le_div_iff₀ hpos, zero_mul, mul_nonneg_iff_of_pos_left
    (by norm_num), sub_nonneg, Int.cast_le]

theorem percentage_le (h : 0 < total) (h₀ : 0 ≤ idle) : percentage total idle ≤ 100 := by
  have hpos : (0 : ℚ) < total := Int.cast_pos.2 h
  have hidle : (0 : ℚ) ≤ idle := Int.cast_nonneg h₀
  rw [percentage, if_neg h.ne', div_le_iff₀ hpos]
  linarith

theorem percentage_eq_neg_one_iff (h : 0 < total) :
    percentage total idle = -1 ↔ 100 * idle = 101 * total := by
  have hpos : (total : ℚ) ≠ 0 := Int.cast_ne_zero.2 h.ne'
  rw [percentage, if_neg h.ne', div_eq_iff hpos, ← Int.cast_inj (α := ℚ)]
  push_cast
  constructor <;> intro h <;> linarith

/-- A percentage, or the error value. -/
def InRange (v : ℚ) : Prop := 0 ≤ v ∧ v ≤ 100 ∨ v = -1

theorem percentage_inRange_iff (h : 0 ≤ total) (h₀ : 0 ≤ idle) :
    InRange (percentage total idle) ↔ total ≠ 0 ∧ (idle ≤ total ∨ 100 * idle = 101 * total) := by
  by_cases hzero : total = 0
  · rw [percentage, if_pos hzero]
    refine iff_of_false ?_ fun hne => hne.1 hzero
    rintro (⟨hnonneg, -⟩ | herror)
    · norm_num at hnonneg
    · norm_num at herror
  · have hpos : 0 < total := lt_of_le_of_ne h (Ne.symm hzero)
    rw [InRange, percentage_nonneg_iff hpos, percentage_eq_neg_one_iff hpos,
      and_iff_left (percentage_le hpos h₀), and_iff_right hzero]

/-! ## The loop -/

section

variable {V : Type} [PercentageValue V] {oldProcStat newProcStat : ProcStat}

theorem calculateLoop_eq {cpuLineCount : UInt64} (h : cpuLineCount.toNat < 2 ^ 32) {fuel : ℕ}
    {ii : UInt32} {values : ℕ → V} (hii : ii.toNat ≤ cpuLineCount.toNat)
    (hfuel : cpuLineCount.toNat < ii.toNat + fuel) :
    calculateLoop oldProcStat newProcStat cpuLineCount fuel ii values =
      some fun k => if ii.toNat ≤ k ∧ k < cpuLineCount.toNat then
        calculateCpuUsagePercentage (oldProcStat.cpuStats k) (newProcStat.cpuStats k)
      else values k := by
  induction fuel generalizing ii values with
  | zero => omega
  | succ fuel ih =>
    have hlt : ii.toUInt64 < cpuLineCount ↔ ii.toNat < cpuLineCount.toNat := by
      rw [UInt64.lt_iff_toNat_lt, UInt32.toNat_toUInt64]
    unfold calculateLoop
    by_cases hii' : ii.toNat < cpuLineCount.toNat
    · have hsucc : (ii + 1).toNat = ii.toNat + 1 := by
        rw [UInt32.toNat_add, UInt32.toNat_one, Nat.mod_eq_of_lt (by omega)]
      rw [if_pos (hlt.2 hii'), ih (by omega) (by omega), hsucc]
      congr 1
      funext k
      by_cases hk : k = ii.toNat
      · subst hk
        simp [hii']
      · rw [Function.update_of_ne hk]
        exact if_congr (by omega) rfl rfl
    · rw [if_neg (mt hlt.1 hii')]
      congr 1
      funext k
      rw [if_neg (by omega)]

/-- The loop ends, and it writes the list of the entries. -/
theorem calculate_values (newProcStat : ProcStat)
    (h : oldProcStat.cpuStatsLength.toNat < 2 ^ 32) {fuel : ℕ}
    (hfuel : oldProcStat.cpuStatsLength.toNat < fuel) (output : CpuUsageBuffer V) :
    ∃ values : ℕ → V,
      output.calculate fuel (some oldProcStat) (some newProcStat) =
        some ⟨oldProcStat.cpuStatsLength, values⟩ ∧
      (CpuUsageInfo.calculate oldProcStat newProcStat).values =
        (List.range oldProcStat.cpuStatsLength.toNat).map values ∧
      ∀ k, oldProcStat.cpuStatsLength.toNat ≤ k → values k = output.values k := by
  refine ⟨fun k => if k < oldProcStat.cpuStatsLength.toNat then
    calculateCpuUsagePercentage (oldProcStat.cpuStats k) (newProcStat.cpuStats k)
    else output.values k, ?_, ?_, ?_⟩
  · have h₀ : (0 : UInt32).toNat = 0 := rfl
    simp only [CpuUsageBuffer.calculate]
    rw [calculateLoop_eq h (by omega) (by omega), Option.map_some, h₀]
    simp only [Nat.zero_le, true_and]
  · refine List.map_congr_left fun k hk => ?_
    rw [if_pos (List.mem_range.1 hk)]
  · exact fun k hk => if_neg (not_lt.2 hk)

end

/-! ## The entries -/

/-- Every counter of the total advances by `d`, modulo `2 ^ 64`. -/
def Advances (d : CpuStatIndex → ℕ) (oldStat newStat : CpuStat) : Prop :=
  ∀ j ∈ totalColumns, (newStat.values j).toNat = ((oldStat.values j).toNat + d j) % 2 ^ 64

def totalAdvance (d : CpuStatIndex → ℕ) : ℕ :=
  d .user + d .nice + d .system + d .idle + d .iowait + d .irq + d .softirq + d .steal

variable {oldStat newStat : CpuStat} {d : CpuStatIndex → ℕ}

/-- Below `2 ^ 64`, 64 bits can tell. -/
theorem advance_eq {columns : List CpuStatIndex} (hcolumns : columns ⊆ totalColumns)
    (h : Advances d oldStat newStat) (hlt : (columns.map d).sum < 2 ^ 64) :
    advance columns oldStat newStat = (columns.map d).sum := by
  have hmod : newStat.sum columns ≡ oldStat.sum columns + (columns.map d).sum [ZMOD 2 ^ 64] := by
    clear hlt
    induction columns with
    | nil => exact Int.ModEq.rfl
    | cons j columns ih =>
      have hj : ((newStat.values j).toNat : ℤ) ≡ (oldStat.values j).toNat + d j [ZMOD 2 ^ 64] := by
        rw [h j (hcolumns List.mem_cons_self)]
        exact_mod_cast Nat.mod_modEq _ _
      have hrest := ih fun k hk => hcolumns (.tail _ hk)
      have hsum := hj.add hrest
      simp only [CpuStat.sum, List.map_cons, List.sum_cons] at hsum ⊢
      push_cast at hsum ⊢
      convert hsum using 1
      ring
  have hsub := hmod.sub_right (oldStat.sum columns)
  rw [add_sub_cancel_left] at hsub
  rw [advance, hsub, Int.emod_eq_of_lt (Int.natCast_nonneg _)]
  exact_mod_cast hlt

theorem percentage_advance (h : Advances d oldStat newStat) (hpos : 0 < totalAdvance d)
    (hlt : totalAdvance d < 2 ^ 64) :
    (calculateCpuUsagePercentage oldStat newStat : ℚ) =
      100 * (totalAdvance d - d .idle - d .iowait) / totalAdvance d := by
  have hsum : (totalColumns.map d).sum = totalAdvance d := by
    simp only [totalColumns, totalAdvance, List.map_cons, List.map_nil, List.sum_cons,
      List.sum_nil]
    omega
  have hidle : (idleColumns.map d).sum = d .idle + d .iowait := by simp [idleColumns]
  have hle : d .idle + d .iowait ≤ totalAdvance d := by
    unfold totalAdvance
    omega
  rw [calculateCpuUsagePercentage_eq, advance_eq (List.Subset.refl _) h (hsum ▸ hlt),
    advance_eq (by simp [idleColumns, totalColumns]) h (by omega), hsum, hidle, percentage,
    if_neg (by omega)]
  push_cast
  ring

theorem percentage_advance_range (hpos : 0 < totalAdvance d) :
    (0 : ℚ) ≤ 100 * (totalAdvance d - d .idle - d .iowait) / totalAdvance d ∧
      (100 * (totalAdvance d - d .idle - d .iowait) / totalAdvance d : ℚ) ≤ 100 := by
  have hle : (d .idle + d .iowait : ℚ) ≤ totalAdvance d := by
    have hle : d .idle + d .iowait ≤ totalAdvance d := by
      unfold totalAdvance
      omega
    exact_mod_cast hle
  have hpos' : (0 : ℚ) < totalAdvance d := Nat.cast_pos.2 hpos
  have hidle : (0 : ℚ) ≤ d .idle := Nat.cast_nonneg _
  have hiowait : (0 : ℚ) ≤ d .iowait := Nat.cast_nonneg _
  rw [le_div_iff₀ hpos', div_le_iff₀ hpos']
  constructor <;> linarith

theorem usage_exact {oldProcStat newProcStat : ProcStat} {d : ℕ → CpuStatIndex → ℕ} {fuel : ℕ}
    (hlength : oldProcStat.cpuStatsLength.toNat < 2 ^ 31)
    (hd : ∀ i < oldProcStat.cpuStatsLength.toNat,
      Advances (d i) (oldProcStat.cpuStats i) (newProcStat.cpuStats i))
    (hpos : ∀ i < oldProcStat.cpuStatsLength.toNat, 0 < totalAdvance (d i))
    (hlt : ∀ i < oldProcStat.cpuStatsLength.toNat, totalAdvance (d i) < 2 ^ 64)
    (hfuel : oldProcStat.cpuStatsLength.toNat < fuel) (output : CpuUsageBuffer ℚ) :
    ∃ values : ℕ → ℚ,
      output.calculate fuel (some oldProcStat) (some newProcStat) =
        some ⟨oldProcStat.cpuStatsLength, values⟩ ∧
      (∀ i < oldProcStat.cpuStatsLength.toNat,
        values i = 100 * (totalAdvance (d i) - d i .idle - d i .iowait) / totalAdvance (d i) ∧
        0 ≤ values i ∧ values i ≤ 100) ∧
      ∀ i, oldProcStat.cpuStatsLength.toNat ≤ i → values i = output.values i := by
  obtain ⟨values, hcalculate, hlist, hrest⟩ :=
    calculate_values newProcStat (by omega) hfuel output
  refine ⟨values, hcalculate, fun i hi => ?_, hrest⟩
  have hvalue : calculateCpuUsagePercentage (oldProcStat.cpuStats i) (newProcStat.cpuStats i) =
      values i := List.map_inj_left.1 hlist i (List.mem_range.2 hi)
  rw [← hvalue, percentage_advance (hd i hi) (hpos i hi) (hlt i hi)]
  exact ⟨rfl, percentage_advance_range (hpos i hi)⟩

/-- User time advances by 5 past `2 ^ 64`, and idle time by 5. -/
theorem usage_exact_wrap :
    ∃ values : ℕ → ℚ,
      (⟨0, fun _ => 0⟩ : CpuUsageBuffer ℚ).calculate 2
        (some ⟨1, fun _ => ⟨fun
          | .user => 18446744073709551615
          | _ => 0⟩⟩)
        (some ⟨1, fun _ => ⟨fun
          | .user => 4
          | .idle => 5
          | _ => 0⟩⟩) = some ⟨1, values⟩ ∧
      values 0 = 50 := by
  obtain ⟨values, hcalculate, hvalues, -⟩ := @usage_exact
    ⟨1, fun _ => ⟨fun
      | .user => 18446744073709551615
      | _ => 0⟩⟩
    ⟨1, fun _ => ⟨fun
      | .user => 4
      | .idle => 5
      | _ => 0⟩⟩
    (fun _ => fun
      | .user => 5
      | .idle => 5
      | _ => 0)
    2 (by decide) (fun _ _ j _ => by cases j <;> simp) (fun _ _ => by decide)
    (fun _ _ => by decide) (by decide) ⟨0, fun _ => 0⟩
  refine ⟨values, hcalculate, ?_⟩
  rw [(hvalues 0 (by decide)).1]
  norm_num [totalAdvance]

/-! ## Arbitrary counters -/

/-- The total advances, and it advances at least as much as the idle time does. The alternative is
a coincidence. -/
def RegularAdvance (oldStat newStat : CpuStat) : Prop :=
  advance totalColumns oldStat newStat ≠ 0 ∧
    (advance idleColumns oldStat newStat ≤ advance totalColumns oldStat newStat ∨
      100 * advance idleColumns oldStat newStat = 101 * advance totalColumns oldStat newStat)

theorem usage_inRange_iff (oldProcStat newProcStat : ProcStat) :
    (∀ v ∈ (CpuUsageInfo.calculate oldProcStat newProcStat : CpuUsageInfo ℚ).values, InRange v) ↔
      ∀ ii < oldProcStat.cpuStatsLength.toNat,
        RegularAdvance (oldProcStat.cpuStats ii) (newProcStat.cpuStats ii) := by
  simp only [CpuUsageInfo.calculate, List.forall_mem_map, List.mem_range]
  refine forall₂_congr fun ii _ => ?_
  rw [calculateCpuUsagePercentage_eq]
  exact percentage_inRange_iff (Int.emod_nonneg _ (by decide)) (Int.emod_nonneg _ (by decide))

/-- Two samples that are equal. -/
theorem usage_not_inRange :
    ¬∀ oldProcStat newProcStat : ProcStat,
      ∀ v ∈ (CpuUsageInfo.calculate oldProcStat newProcStat : CpuUsageInfo ℚ).values, InRange v := by
  intro h
  have hentry : (-100 : ℚ) ∈ (CpuUsageInfo.calculate ⟨1, fun _ => ⟨fun _ => 0⟩⟩
      ⟨1, fun _ => ⟨fun _ => 0⟩⟩ : CpuUsageInfo ℚ).values := by
    refine List.mem_map.2 ⟨0, by decide, ?_⟩
    rw [calculateCpuUsagePercentage_eq, percentage, if_pos (by decide)]
  have hrange := h _ _ _ hentry
  unfold InRange at hrange
  norm_num at hrange

end CpuUsageTracker
