import Mathlib.Data.List.Basic
import Mathlib.Data.Nat.Basic
import Mathlib.Order.Lattice
import Mathlib.Order.Nat

/-!
# Searching for a minimum

A loop over the indices below `n` keeps the index of the best value so far. Where a tie replaces
the index kept, the loop returns the last index of the minimum (`lastMin_foldl`), and this is the
first one exactly if the minimum is attained once (`LastMin.firstMin_iff`).

A comparison may fail to have a result. Then the loop has none, and otherwise it has the one of
the loop that ignores this (`foldlM_range`).
-/

namespace Argmin

section

variable {α : Type*} [LinearOrder α] {v : ℕ → α} {n i : ℕ}

/-- No index below `n` has a smaller value than `i`. -/
structure Minimal (v : ℕ → α) (n i : ℕ) : Prop where
  lt : i < n
  le : ∀ k < n, v i ≤ v k

structure FirstMin (v : ℕ → α) (n i : ℕ) : Prop extends Minimal v n i where
  first : ∀ k < i, v i < v k

structure LastMin (v : ℕ → α) (n i : ℕ) : Prop extends Minimal v n i where
  last : ∀ k < n, i < k → v i < v k

/-- The minimum is not attained twice. -/
def Once (v : ℕ → α) (n : ℕ) : Prop := ∀ i j, Minimal v n i → Minimal v n j → i = j

theorem LastMin.firstMin_iff (h : LastMin v n i) : FirstMin v n i ↔ Once v n := by
  constructor
  · intro hfirst
    have hunique : ∀ k, Minimal v n k → k = i := by
      intro k hk
      rcases lt_trichotomy k i with hki | hki | hki
      · exact absurd (hfirst.first k hki) (not_lt.2 (hk.le i h.lt))
      · exact hki
      · exact absurd (h.last k hk.lt hki) (not_lt.2 (hk.le i h.lt))
    intro j k hj hk
    rw [hunique j hj, hunique k hk]
  · intro honce
    refine ⟨h.toMinimal, fun k hk => ?_⟩
    have hkn := hk.trans h.lt
    refine lt_of_le_of_ne (h.le k hkn) fun heq => ?_
    have hmin : Minimal v n k := ⟨hkn, fun l hl => heq ▸ h.le l hl⟩
    exact hk.ne (honce k i hmin h.toMinimal)

theorem LastMin.succ (h : LastMin v n i) : LastMin v (n + 1) (if v n ≤ v i then n else i) := by
  by_cases hle : v n ≤ v i
  · rw [if_pos hle]
    refine ⟨⟨Nat.lt_succ_self n, fun k hk => ?_⟩, fun k hk hnk => ?_⟩
    · rcases Nat.lt_succ_iff_lt_or_eq.1 hk with hk | rfl
      · exact hle.trans (h.le k hk)
      · exact le_rfl
    · exact absurd (Nat.lt_succ_iff.1 hk) (not_le.2 hnk)
  · rw [if_neg hle]
    have hlt := not_le.1 hle
    refine ⟨⟨h.lt.trans (Nat.lt_succ_self n), fun k hk => ?_⟩, fun k hk hik => ?_⟩
    · rcases Nat.lt_succ_iff_lt_or_eq.1 hk with hk | rfl
      · exact h.le k hk
      · exact hlt.le
    · rcases Nat.lt_succ_iff_lt_or_eq.1 hk with hk | rfl
      · exact h.last k hk hik
      · exact hlt

/-- A loop in which a tie replaces the best index so far. -/
theorem lastMin_foldl (better : ℕ → ℕ → Prop) [DecidableRel better]
    (hbetter : ∀ i < n, ∀ j < n, better i j ↔ v i ≤ v j) (hn : 0 < n) :
    LastMin v n ((List.range n).foldl (fun best i => if better i best then i else best) 0) := by
  have hprefix : ∀ m, 1 ≤ m → m ≤ n → LastMin v m
      ((List.range m).foldl (fun best i => if better i best then i else best) 0) := by
    intro m hm
    induction m, hm using Nat.le_induction with
    | base =>
      intro _
      refine ⟨⟨by simp, fun k hk => ?_⟩, fun k hk h0k => ?_⟩
      · obtain rfl := Nat.lt_one_iff.1 hk
        simp
      · obtain rfl := Nat.lt_one_iff.1 hk
        simp at h0k
    | succ m hm ih =>
      intro hmn
      have hbest := ih (Nat.le_of_succ_le hmn)
      rw [List.range_succ, List.foldl_append, List.foldl_cons, List.foldl_nil]
      generalize (List.range m).foldl (fun best i => if better i best then i else best) 0 = best
        at *
      have hiff := hbetter m hmn best (hbest.lt.trans hmn)
      simpa only [hiff] using hbest.succ
  exact hprefix n hn le_rfl

end

/-- A loop that fails once a step is not `ok`. -/
theorem foldlM_range {β : Type*} (ok : ℕ → β → Prop) [∀ i b, Decidable (ok i b)]
    (f : β → ℕ → β) (b : β) (n : ℕ) :
    (List.range n).foldlM (fun b i => if ok i b then some (f b i) else none) b =
      if ∀ i < n, ok i ((List.range i).foldl f b) then some ((List.range n).foldl f b)
      else none := by
  induction n with
  | zero => simp
  | succ n ih =>
    rw [List.range_succ, List.foldlM_append, ih]
    by_cases hpre : ∀ i < n, ok i ((List.range i).foldl f b)
    · rw [if_pos hpre]
      by_cases hlast : ok n ((List.range n).foldl f b)
      · have hall : ∀ i < n + 1, ok i ((List.range i).foldl f b) := by
          intro i hi
          rcases Nat.lt_succ_iff_lt_or_eq.1 hi with hi | rfl
          · exact hpre i hi
          · exact hlast
        rw [if_pos hall]
        simp [hlast]
      · have hall : ¬∀ i < n + 1, ok i ((List.range i).foldl f b) :=
          fun h => hlast (h n (Nat.lt_succ_self n))
        rw [if_neg hall]
        simp [hlast]
    · have hall : ¬∀ i < n + 1, ok i ((List.range i).foldl f b) :=
        fun h => hpre fun i hi => h i (Nat.lt_succ_of_lt hi)
      rw [if_neg hpre, if_neg hall]
      rfl

end Argmin
