import CpuUsageTracker.Library.Threads
import Mathlib.Algebra.BigOperators.Group.Finset.Basic
import Mathlib.Algebra.Order.BigOperators.Group.Finset

/-!
# Threads that run out of steps

A `Ranking` gives every location a rank and the data a potential, such that every instruction
lowers the rank by more than it raises the potential. The environment does not raise the
potential.

**Theorem (`Ranking.bound`).** Every step of a thread lowers `Ranking.measure`, so a run from `s`
contains at most `measure s` steps of threads, in any order and with any results of the calls.

A wait takes three steps at one location (the thread blocks, is woken and returns), and a thread
may be woken by the step of another. So the rank counts three times, and the status of the thread
makes up for the steps in between (`Status.weight`).
-/

namespace Threads

variable {T M C D A I E σ : Type} {R : A → Type} {L : T → Type}

/-- A condition on the data that stays true. -/
structure Program.Persistent (p : Program T M C D A R I E σ L) (Q : σ → Prop) : Prop where
  perform : ∀ t a i d, Q d → Q (p.perform t a i d).1
  env : ∀ e d, Q d → Q (p.env e d)

theorem Program.Persistent.step [DecidableEq T] [DecidableEq M]
    {p : Program T M C D A R I E σ L} {Q : σ → Prop} (hp : p.Persistent Q) {s s' : State M σ L}
    {lab : Label T I E} (h : Step p s lab s') (hQ : Q s.data) : Q s'.data := by
  cases h with
  | act => exact hp.perform _ _ _ _ hQ
  | env => exact hp.env _ _ hQ
  | _ => simpa using hQ

/-- The ranking relies on `Q`. -/
structure Ranking (p : Program T M C D A R I E σ L) (Q : σ → Prop) where
  rank : (t : T) → L t → ℕ
  potential : σ → ℕ
  potential_env : ∀ e d, potential (p.env e d) ≤ potential d
  code : ∀ t l d, Q d → (p.code t l).Post (p.perform t) (fun _ => True)
    (fun l' _ d' => rank t l' + potential d' < rank t l + potential d) ∅ d

/-- The steps that a thread may still take before it gets to its next location. -/
def Status.weight : Status → ℕ
  | .ready => 2
  | .blocked => 1
  | .woken _ => 0

/-- The steps of threads count. -/
def Label.count : Label T I E → ℕ
  | .env _ => 0
  | .ret _ _ | .block _ | .wake _ _ | .resume _ _ | .signal _ _ _ | .act _ _ | .sleep _ => 1

section

variable [Fintype T] [DecidableEq T]

theorem sum_update_add (f : (t : T) → L t → ℕ) (g : (t : T) → L t) (t : T) (l : L t) :
    (∑ u, f u (Function.update g t l u)) + f t (g t) = (∑ u, f u (g u)) + f t l := by
  have hrest : ∑ u ∈ Finset.univ.erase t, f u (Function.update g t l u) =
      ∑ u ∈ Finset.univ.erase t, f u (g u) := by
    refine Finset.sum_congr rfl fun u hu => ?_
    rw [Function.update_of_ne (Finset.ne_of_mem_erase hu)]
  rw [← Finset.add_sum_erase _ _ (Finset.mem_univ t), hrest, Function.update_self,
    ← Finset.add_sum_erase _ (fun u => f u (g u)) (Finset.mem_univ t)]
  omega

end

namespace Ranking

variable {p : Program T M C D A R I E σ L} {Q : σ → Prop} (r : Ranking p Q)
  {s s' : State M σ L} {lab : Label T I E} [Fintype T]

def measure (s : State M σ L) : ℕ :=
  3 * (r.potential s.data + ∑ t, r.rank t (s.loc t)) + ∑ t, (s.status t).weight

variable [DecidableEq T]

/-- A thread goes to a lower location and does not gain more than one step by its status. -/
theorem measure_goto (s s' : State M σ L) (t : T) (l : L t) (hloc : s'.loc = (s.goto t l).loc)
    (hstatus : ∑ u, (s'.status u).weight ≤ ∑ u, (s.status u).weight + 2)
    (hrank : r.rank t l + r.potential s'.data < r.rank t (s.loc t) + r.potential s.data) :
    r.measure s' < r.measure s := by
  have hsum := sum_update_add r.rank s.loc t l
  unfold measure
  rw [hloc]
  show 3 * (_ + ∑ u, r.rank u (Function.update s.loc t l u)) + _ < _
  omega

/-- A thread takes a step at its location. -/
theorem measure_status (s s' : State M σ L) (t : T) (x : Status) (hloc : s'.loc = s.loc)
    (hdata : s'.data = s.data) (hstatus : s'.status = Function.update s.status t x)
    (hx : x.weight < (s.status t).weight) : r.measure s' < r.measure s := by
  have hsum := sum_update_add (L := fun _ : T => Status) (fun _ => Status.weight) s.status t x
  unfold measure
  rw [hloc, hdata, hstatus]
  omega

omit [Fintype T] [DecidableEq T] in
/-- Whatever a call returns, the thread gets to a lower location. -/
theorem rank_return {t : T} {c : Call M C D} {next : ThrdResult → L t} (hQ : Q s.data)
    (hc : p.code t (s.loc t) = .call c next) (x : ThrdResult) :
    r.rank t (next x) < r.rank t (s.loc t) := by
  have hpost := r.code t (s.loc t) s.data hQ
  rw [hc] at hpost
  have hcan : c.CanReturn ∅ x := by
    cases c with
    | tryLock m ms => cases x <;> simp [Call.CanReturn]
    | _ => trivial
  exact Nat.lt_of_add_lt_add_right (hpost x hcan trivial)

variable [DecidableEq M]

/-- Every step of a thread lowers the measure. -/
theorem step (h : Step p s lab s') (hQ : Q s.data) (henv : ∀ e, lab ≠ .env e) :
    r.measure s' < r.measure s := by
  cases h with
  | @lock t m ms next hr hc hm | @unlock t m next hr hc hm =>
    exact r.measure_goto _ _ t _ rfl (Nat.le_add_right _ _)
      (Nat.add_lt_add_right (r.rank_return hQ hc _) _)
  | @lockFailed t m ms next x hr hc hne | @unlockFailed t m next x hr hc hne =>
    exact r.measure_goto _ _ t _ rfl (Nat.le_add_right _ _)
      (Nat.add_lt_add_right (r.rank_return hQ hc _) _)
  | @signalNone t c next hr hc hb =>
    exact r.measure_goto _ _ t _ rfl (Nat.le_add_right _ _)
      (Nat.add_lt_add_right (r.rank_return hQ hc _) _)
  | @signalFailed t c next x hr hc hne =>
    exact r.measure_goto _ _ t _ rfl (Nat.le_add_right _ _)
      (Nat.add_lt_add_right (r.rank_return hQ hc _) _)
  | @block t c m d next hr hc =>
    refine r.measure_status _ _ t .blocked (by simp) (by simp) ?_ ?_
    · simp only [State.setStatus, State.status_release]
    · rw [hr]
      decide
  | @wake t x hb =>
    refine r.measure_status _ _ t (.woken x) rfl rfl rfl ?_
    rw [hb]
    exact Nat.zero_lt_one
  | @resume t c m d next x hr hc hm =>
    refine r.measure_goto _ _ t (next x) rfl ?_ (Nat.add_lt_add_right (r.rank_return hQ hc _) _)
    have hsum := sum_update_add (L := fun _ : T => Status) (fun _ => Status.weight) s.status t
      .ready
    rw [hr] at hsum
    exact hsum.le
  | @signal t w c next hr hc hb =>
    refine r.measure_goto _ _ t (next .success) rfl ?_
      (Nat.add_lt_add_right (r.rank_return hQ hc _) _)
    have hsum := sum_update_add (L := fun _ : T => Status) (fun _ => Status.weight) s.status w
      (.woken .success)
    rw [hb.1] at hsum
    exact (Nat.le_of_add_right_le hsum.le).trans (Nat.le_add_right _ _)
  | @act t a next i hr hc =>
    have hpost := r.code t (s.loc t) s.data hQ
    rw [hc] at hpost
    exact r.measure_goto _ _ t _ rfl (Nat.le_add_right _ _) (hpost i trivial)
  | @sleep t ms next hr hc =>
    have hpost := r.code t (s.loc t) s.data hQ
    rw [hc] at hpost
    exact r.measure_goto _ _ t _ rfl (Nat.le_add_right _ _) hpost
  | env => exact absurd rfl (henv _)

/-- A step is paid for with the measure. -/
theorem pays (h : Step p s lab s') (hQ : Q s.data) : r.measure s' + lab.count ≤ r.measure s := by
  by_cases henv : ∃ e, lab = .env e
  · obtain ⟨e, rfl⟩ := henv
    cases h
    have hpot := r.potential_env e s.data
    exact Nat.add_le_add_right (Nat.mul_le_mul_left 3 (Nat.add_le_add_right hpot _)) _
  · have hlt := r.step h hQ fun e he => henv ⟨e, he⟩
    have hcount : lab.count ≤ 1 := by cases lab <;> simp [Label.count]
    omega

/-- A run contains at most as many steps of threads as the measure says. -/
theorem bound {s₀ : State M σ L} {n : ℕ} {ok : State M σ L × ℕ → Label T I E → Prop}
    (hp : p.Persistent Q) (hQ : Q s₀.data)
    (h : Reach (· = (s₀, 0)) (Recorded (fun _ lab n => n + lab.count) (Step p)) ok (s, n)) :
    Q s.data ∧ r.measure s + n ≤ r.measure s₀ := by
  refine h.invariant (I := fun x => Q x.1.data ∧ r.measure x.1 + x.2 ≤ r.measure s₀) ?_ ?_
  · rintro x rfl
    exact ⟨hQ, le_refl _⟩
  · rintro ⟨s, n⟩ lab ⟨s', n'⟩ - ⟨hQ, hle⟩ - ⟨hstep, rfl⟩
    have hpays := r.pays hstep hQ
    refine ⟨hp.step hstep hQ, ?_⟩
    simp only at *
    omega

end Ranking

end Threads
