import CpuUsageTracker.Library.Progress
import CpuUsageTracker.Library.Timed

/-!
# When a thread finishes

A `TimeLimit` says by when a thread finishes, given its location and the time at which it got
there. An instruction may take until its deadline, and the limit at the next location is counted
from then on.

**Theorem (`TimeLimit.finishes`).** In a run with a clock, whatever the other threads do, the
thread has finished when the limit of its first location has passed.
-/

namespace Threads

variable {T M C D A I E σ : Type} {R : A → Type} {L : T → Type}
  {p : Program T M C D A R I E σ L} {x x₀ x' : Timed M σ L} {lab : Label T I E} {t : T}

/-- The limit relies on `Q`. A thread that blocks starts its wait at that time. -/
structure TimeLimit (c : Clock p) (Q : σ → Prop) (t : T) where
  limit : L t → ℕ → ℕ
  mono : ∀ l m n, m ≤ n → limit l m ≤ limit l n
  due : ∀ l since d, Q d → p.code t l ≠ .exit →
    ∃ due, c.deadline since (p.code t l) = some due ∧ due ≤ limit l since
  wait : ∀ l since due m, (p.code t l).waitsWith m → c.deadline since (p.code t l) = some due →
    limit l due ≤ limit l since
  code : ∀ l since due d, Q d → c.deadline since (p.code t l) = some due →
    (p.code t l).Post (p.perform t) (fun _ => True) (fun l' _ _ => limit l' due ≤ limit l since) ∅ d

namespace TimeLimit

variable [DecidableEq T] [DecidableEq M] {c : Clock p} {Q : σ → Prop}
  {reports : (t : T) → L t → Bool} {init : State M σ L → Prop}
  {ok : Timed M σ L → Label T I E → Prop} (f : TimeLimit c Q t)

theorem step (hx : TimedReach c reports init ok x) (hQ : Q x.sys.data)
    (h : TimedStep c reports x lab x') :
    f.limit (x'.sys.loc t) (x'.since t) ≤ f.limit (x.sys.loc t) (x.since t) := by
  by_cases hactor : lab.actor = some t
  · obtain ⟨due, hdue, -⟩ := f.due _ (x.since t) _ hQ (h.step.not_finished hactor)
    have hsince : x'.since t ≤ due := by
      rw [h.since, if_pos hactor]
      exact hx.on_time t due hdue
    refine (f.mono _ _ _ hsince).trans ?_
    exact h.step.post (Q := fun l _ _ => f.limit l due ≤ f.limit (x.sys.loc t) (x.since t)) hactor
      (fun _ _ => trivial) (fun _ m hm => f.wait _ _ _ m hm hdue)
      ((f.code _ _ _ _ hQ hdue).of_empty fun _ h => h)
  · rw [(h.step.unchanged hactor).2.2, h.since, if_neg hactor]

theorem finishes (hp : p.Persistent Q) (hx₀ : TimedReach c reports init ok x₀)
    (hQ : Q x₀.sys.data) (h : Reach (· = x₀) (TimedStep c reports) ok x) :
    p.Finished x.sys t ∨ c.time x ≤ f.limit (x₀.sys.loc t) (x₀.since t) := by
  have hinv : TimedReach c reports init ok x ∧ Q x.sys.data ∧
      f.limit (x.sys.loc t) (x.since t) ≤ f.limit (x₀.sys.loc t) (x₀.since t) := by
    refine h.invariant (I := fun x => TimedReach c reports init ok x ∧ Q x.sys.data ∧
      f.limit (x.sys.loc t) (x.since t) ≤ f.limit (x₀.sys.loc t) (x₀.since t)) ?_ ?_
    · rintro x rfl
      exact ⟨hx₀, hQ, le_refl _⟩
    · intro x lab x' _ ⟨hx, hQ, hle⟩ hok hstep
      exact ⟨hx.next hok hstep, hp.step hstep.step hQ, (f.step hx hQ hstep).trans hle⟩
  obtain ⟨hx, hQx, hle⟩ := hinv
  by_cases hf : p.Finished x.sys t
  · exact .inl hf
  · obtain ⟨d, hd, hlimit⟩ := f.due _ (x.since t) _ hQx hf
    exact .inr ((hx.on_time t d hd).trans (hlimit.trans hle))

end TimeLimit

end Threads
