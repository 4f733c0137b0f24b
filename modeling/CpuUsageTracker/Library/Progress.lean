import CpuUsageTracker.Library.Ranking
import CpuUsageTracker.Library.Signalling

/-!
# Deadlock freedom

A lock attempt has a timeout, a wait may be woken at any time, and no other call waits. So a
thread that has not finished can take a step, except for one that has been woken and finds the
mutex taken (`Program.canStep_or_requests`). If the owner of such a mutex is always a thread that
can go on, then some thread can take a step until all have finished (`Program.progress`).
-/

namespace Threads

variable {T M C D A I E σ : Type} {R : A → Type} {L : T → Type}
  {p : Program T M C D A R I E σ L} {s s' : State M σ L} {lab : Label T I E} {t : T}

/-- The thread has come to the end of its text. -/
def Program.Finished (p : Program T M C D A R I E σ L) (s : State M σ L) (t : T) : Prop :=
  p.code t (s.loc t) = .exit

variable [DecidableEq T] [DecidableEq M]

/-- A thread that takes a step has not finished. -/
theorem Step.not_finished (h : Step p s lab s') (hactor : lab.actor = some t) :
    ¬p.Finished s t := by
  intro hf
  unfold Program.Finished at hf
  cases h with
  | wake | env => cases hactor
  | lock _ hc | lockFailed _ hc | unlock _ hc | unlockFailed _ hc | block _ hc | resume _ hc
  | signal _ hc | signalNone _ hc | signalFailed _ hc | act _ hc | sleep _ hc =>
    cases hactor
    cases hf.symm.trans hc

/-- Some thread can take a step in which unlocking an owned mutex does not fail. -/
def Program.CanStep (p : Program T M C D A R I E σ L) (s : State M σ L) : Prop :=
  ∃ lab s', lab.count = 1 ∧ p.UnlocksSucceed s lab ∧ Step p s lab s'

/-- A thread at an instruction that it has not begun yet. -/
theorem Program.canStep_of_ready [Nonempty I] (hr : s.status t = .ready) (hf : ¬p.Finished s t) :
    p.CanStep s := by
  cases hc : p.code t (s.loc t) with
  | call c next =>
    cases c with
    | tryLock m ms =>
      refine ⟨.ret t .timedout, _, rfl, fun u ev hev => ?_, .lockFailed hr hc (by decide)⟩
      cases hev
      rw [hc]
      trivial
    | unlock m =>
      by_cases hm : s.owner m = some t
      · refine ⟨.ret t .success, _, rfl, fun u ev hev => ?_, .unlock hr hc hm⟩
        cases hev
        rw [hc]
        exact fun _ => rfl
      · refine ⟨.ret t .success, _, rfl, fun u ev hev => ?_, .unlockFailed hr hc fun h => hm h.1⟩
        cases hev
        rw [hc]
        exact fun _ => rfl
    | waitUntil cv m tp =>
      refine ⟨.block t, _, rfl, fun u ev hev => ?_, .block hr hc⟩
      cases hev
    | notify cv =>
      refine ⟨.signal t .error none, _, rfl, fun u ev hev => ?_, .signalFailed hr hc (by decide)⟩
      cases hev
      rw [hc]
      trivial
  | act a next =>
    obtain ⟨i⟩ := ‹Nonempty I›
    refine ⟨.act t i, _, rfl, fun u ev hev => ?_, .act hr hc⟩
    cases hev
    rw [hc]
    trivial
  | sleep ms next =>
    refine ⟨.sleep t, _, rfl, fun u ev hev => ?_, .sleep hr hc⟩
    cases hev
  | exit => exact absurd hc hf

/-- A thread that is not ready waits with a mutex. -/
theorem Reach.waits {init : State M σ L → Prop} {ok : State M σ L → Label T I E → Prop}
    (hinit : ∀ s, init s → s.Idle) (h : Reach init (Step p) ok s) (t : T)
    (ht : s.status t ≠ .ready) : ∃ m, (p.code t (s.loc t)).waitsWith m := by
  refine h.invariant (I := fun s => ∀ t, s.status t ≠ .ready →
    ∃ m, (p.code t (s.loc t)).waitsWith m) (fun s hs t ht => absurd ((hinit s hs).2 t) ht) ?_ t ht
  intro s lab s' _ hs _ hstep t ht
  by_cases hactor : lab.actor = some t
  · by_cases hblock : lab = .block t
    · subst hblock
      cases hstep with
      | @block u c m d next hr hc =>
        refine ⟨m, ?_⟩
        simp only [State.loc_setStatus, State.loc_release, hc, Instr.waitsWith]
    · exact absurd (hstep.ready_of_actor hactor hblock).1 ht
  · obtain ⟨-, hstatus, hloc⟩ := hstep.unchanged hactor
    rw [hloc]
    exact hs t fun hr => ht (hstatus.2 hr)

/-- Only a thread that is to take its mutex again may have to wait for another one. -/
theorem Program.canStep_or_requests [Nonempty I] (hf : ¬p.Finished s t)
    (hwaits : s.status t ≠ .ready → ∃ m, (p.code t (s.loc t)).waitsWith m) :
    p.CanStep s ∨ ∃ r m u, s.status t = .woken r ∧ (p.code t (s.loc t)).waitsWith m ∧
      s.owner m = some u := by
  cases hstatus : s.status t with
  | ready => exact .inl (canStep_of_ready hstatus hf)
  | blocked =>
    refine .inl ⟨.wake t .timedout, _, rfl, fun u ev hev => ?_, .wake hstatus⟩
    cases hev
  | woken r =>
    obtain ⟨m, hm⟩ := hwaits (by simp [hstatus])
    cases howner : s.owner m with
    | some u => exact .inr ⟨r, m, u, rfl, hm, howner⟩
    | none =>
      cases hc : p.code t (s.loc t) with
      | call c next =>
        rw [hc] at hm
        cases c with
        | waitUntil cv n tp =>
          cases hm
          refine .inl ⟨.resume t r, _, rfl, fun u ev hev => ?_, .resume hstatus hc howner⟩
          cases hev
          rw [hc]
          trivial
        | _ => cases hm
      | _ =>
        rw [hc] at hm
        cases hm

/-- If no thread waits for one that has finished or waits itself, then some thread can take a
step, or all have finished. -/
theorem Program.progress [Nonempty I]
    (hwaits : ∀ t, s.status t ≠ .ready → ∃ m, (p.code t (s.loc t)).waitsWith m)
    (howner : ∀ t r m u, s.status t = .woken r → (p.code t (s.loc t)).waitsWith m →
      s.owner m = some u → s.status u = .ready ∧ ¬p.Finished s u) :
    p.CanStep s ∨ ∀ t, p.Finished s t := by
  by_cases hall : ∀ t, p.Finished s t
  · exact .inr hall
  · obtain ⟨t, hf⟩ := not_forall.1 hall
    rcases canStep_or_requests hf (hwaits t) with hstep | ⟨r, m, u, hr, hm, hu⟩
    · exact .inl hstep
    · obtain ⟨hready, hfu⟩ := howner t r m u hr hm hu
      exact .inl (canStep_of_ready hready hfu)

end Threads
