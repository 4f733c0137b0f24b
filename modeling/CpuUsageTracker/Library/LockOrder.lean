import CpuUsageTracker.Library.Threads
import Mathlib.Logic.Relation

/-!
# Lock order

A thread requests a mutex when its next step is an attempt to lock it, or when it has been woken
and is about to take the mutex it waits with again. If no mutex is reached from itself by going
from an owned mutex to a requested one, then no threads wait for one another in a cycle
(`waitsFor_acyclic`).
-/

namespace Threads

open Relation

variable {T M C D A I E σ : Type} {R : A → Type} {L : T → Type}
  {p : Program T M C D A R I E σ L} {s s' : State M σ L} {lab : Label T I E}

/-- `t` is about to take `m`. -/
def Program.Requests (p : Program T M C D A R I E σ L) (s : State M σ L) (t : T) (m : M) : Prop :=
  (s.status t = .ready ∧ ∃ ms next, p.code t (s.loc t) = .call (.tryLock m ms) next) ∨
    ∃ r, s.status t = .woken r ∧ (p.code t (s.loc t)).waitsWith m

/-- Some thread requests `b` while it owns `a`. -/
def Program.RequestsWhileOwning (p : Program T M C D A R I E σ L) (s : State M σ L) (a b : M) :
    Prop :=
  ∃ t, s.owner a = some t ∧ p.Requests s t b

/-- `t` requests a mutex that `u` owns. -/
def Program.WaitsFor (p : Program T M C D A R I E σ L) (s : State M σ L) (t u : T) : Prop :=
  ∃ m, p.Requests s t m ∧ s.owner m = some u

/-- A chain of threads that wait for one another is a chain of mutexes. -/
theorem exists_mutex_of_waitsFor {t u : T} (h : TransGen (p.WaitsFor s) t u) :
    ∃ a b, p.Requests s t a ∧ s.owner b = some u ∧
      ReflTransGen (p.RequestsWhileOwning s) a b := by
  induction h with
  | single h =>
    obtain ⟨m, hreq, howner⟩ := h
    exact ⟨m, m, hreq, howner, .refl⟩
  | tail _ h ih =>
    obtain ⟨a, b, hreq, howner, hchain⟩ := ih
    obtain ⟨c, hreq', howner'⟩ := h
    exact ⟨a, c, hreq, howner', hchain.tail ⟨_, howner, hreq'⟩⟩

theorem waitsFor_acyclic (h : ∀ m, ¬TransGen (p.RequestsWhileOwning s) m m) (t : T) :
    ¬TransGen (p.WaitsFor s) t t := by
  intro hcycle
  obtain ⟨a, b, hreq, howner, hchain⟩ := exists_mutex_of_waitsFor hcycle
  exact h a (.tail' hchain ⟨t, howner, hreq⟩)

/-- A relation along which a rank increases has no cycles. -/
theorem acyclic_of_rank {α : Type} {r : α → α → Prop} (rank : α → ℕ)
    (h : ∀ a b, r a b → rank a < rank b) (a : α) : ¬TransGen r a a := by
  intro hcycle
  have hlt : TransGen (· < ·) (rank a) (rank a) := hcycle.lift rank h
  rw [transGen_eq_self] at hlt
  exact lt_irrefl _ hlt

variable [DecidableEq T] [DecidableEq M]

theorem Step.waiting_not_owner (h : Step p s lab s')
    (hs : ∀ t m, s.status t ≠ .ready → (p.code t (s.loc t)).waitsWith m → s.owner m ≠ some t)
    (t : T) (m : M) (ht : s'.status t ≠ .ready) (hm : (p.code t (s'.loc t)).waitsWith m) :
    s'.owner m ≠ some t := by
  by_cases hactor : lab.actor = some t
  · cases h with
    | @block u c n d next hr hc =>
      cases hactor
      simp only [State.loc_setStatus, State.loc_release, hc, Instr.waitsWith] at hm
      subst hm
      simp [State.owner_release_self]
    | lock hr | lockFailed hr | unlock hr | unlockFailed hr | signalNone hr | signalFailed hr
    | act hr | sleep hr =>
      cases hactor
      exact absurd (by simpa using hr) ht
    | resume =>
      cases hactor
      exact absurd (by simp) ht
    | @signal u w c next hr hc hb =>
      cases hactor
      have hne : t ≠ w := by
        rintro rfl
        simp [hb.1] at hr
      exact absurd (by simpa [State.status_setStatus_of_ne _ _ hne] using hr) ht
    | wake | env => cases hactor
  · obtain ⟨howner, hstatus, hloc⟩ := h.unchanged hactor
    rw [hloc] at hm
    rw [ne_eq, hstatus] at ht
    rw [ne_eq, howner]
    exact hs t m ht hm

/-- While a thread waits, it does not own the mutex it waits with. -/
theorem Reach.waiting_not_owner {init : State M σ L → Prop}
    {ok : State M σ L → Label T I E → Prop} (hinit : ∀ s, init s → s.Idle)
    (h : Reach init (Step p) ok s) (t : T) (m : M) (ht : s.status t ≠ .ready)
    (hm : (p.code t (s.loc t)).waitsWith m) : s.owner m ≠ some t := by
  refine h.invariant (I := fun s => ∀ t m, s.status t ≠ .ready →
    (p.code t (s.loc t)).waitsWith m → s.owner m ≠ some t) (fun s hs t m ht => ?_)
    (fun s lab s' _ hs _ hstep => hstep.waiting_not_owner hs) t m ht hm
  exact absurd ((hinit s hs).2 t) ht

end Threads
