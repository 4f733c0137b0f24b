import CpuUsageTracker.Library.Progress
import CpuUsageTracker.Library.Ranking

/-!
# A parent that forks and joins

The threads of a program are started by a parent, which then waits for them, and then does
something by itself: a list of `Duty`s, one after the other. A thread takes no step before it has
been forked, and it can be joined when it has finished. In an orderly list the joins come after
all forks and the parent's own duties after all joins.

**Theorem (`Process.quiet`).** When the parent of an orderly list has carried out a duty of its
own, all threads have finished.

**Theorem (`Process.bound`).** A `Ranking` of the program bounds the steps of the process, too.

**Theorem (`Process.progress`).** If the threads can go on until they have finished, then so can
the process, until the parent has come to the end of the list.
-/

namespace Threads

variable {T M C D A I E σ X : Type} {R : A → Type} {L : T → Type}

/-- `act x` is what the parent does by itself. -/
inductive Duty (T X : Type)
  | fork (t : T)
  | join (t : T)
  | act (x : X)
  deriving DecidableEq

/-- The state of the threads, with what the parent has done and what it has to do. -/
structure Process (M σ : Type) (L : T → Type) (X : Type) where
  sys : State M σ L
  done : List (Duty T X)
  todo : List (Duty T X)

/-- A step of the parent, or one of the threads. -/
inductive ProcessLabel (T I E : Type)
  | parent
  | sys (lab : Label T I E)

def ProcessLabel.count : ProcessLabel T I E → ℕ
  | parent => 1
  | sys lab => lab.count

/-- Joins come after all forks, other duties after all joins. -/
structure Orderly (duties : List (Duty T X)) : Prop where
  join : ∀ done t todo, duties = done ++ .join t :: todo → ∀ u, .fork u ∈ done
  act : ∀ done x todo, duties = done ++ .act x :: todo → ∀ u, .join u ∈ done

/-- What stands in front of something is done before it. -/
theorem mem_done_of_phase {phase rest done todo : List (Duty T X)} {d : Duty T X}
    (h : phase ++ rest = done ++ d :: todo) (hd : d ∉ phase) : ∀ e ∈ phase, e ∈ done := by
  rcases List.append_eq_append_iff.1 h with ⟨more, rfl, -⟩ | ⟨more, rfl, htodo⟩
  · exact fun e he => List.mem_append_left _ he
  · cases more with
    | nil => simp
    | cons e more =>
      obtain ⟨rfl, -⟩ := List.cons.inj htodo
      exact absurd (List.mem_append_right _ List.mem_cons_self) hd

/-- One phase after the other. -/
theorem orderly_phases {forks joins : List T} {acts : List X} (hforks : ∀ t, t ∈ forks)
    (hjoins : ∀ t, t ∈ joins) :
    Orderly (forks.map .fork ++ (joins.map .join ++ acts.map .act)) where
  join done t todo h u := mem_done_of_phase h (by simp) _ (List.mem_map_of_mem (hforks u))
  act done x todo h u := by
    rw [← List.append_assoc] at h
    exact mem_done_of_phase h (by simp) _ (List.mem_append_right _ (List.mem_map_of_mem (hjoins u)))

variable [DecidableEq T] [DecidableEq M] {p : Program T M C D A R I E σ L}

inductive ProcessStep (p : Program T M C D A R I E σ L) :
    Process M σ L X → ProcessLabel T I E → Process M σ L X → Prop
  | parent {s done d todo} : (∀ t, d = .join t → p.Finished s t) →
      ProcessStep p ⟨s, done, d :: todo⟩ .parent ⟨s, done ++ [d], todo⟩
  | sys {s s' done todo lab} : (∀ t, lab.actor = some t → .fork t ∈ done) → Step p s lab s' →
      ProcessStep p ⟨s, done, todo⟩ (.sys lab) ⟨s', done, todo⟩

/-- The condition on the steps of the threads. -/
def OnSys (ok : State M σ L → Label T I E → Prop) (x : Process M σ L X) :
    ProcessLabel T I E → Prop
  | .parent => True
  | .sys lab => ok x.sys lab

/-- The processes reached by runs from an initial state of the threads. -/
def ProcessReach (p : Program T M C D A R I E σ L) (init : State M σ L → Prop)
    (ok : State M σ L → Label T I E → Prop) (duties : List (Duty T X)) : Process M σ L X → Prop :=
  Reach (fun x => init x.sys ∧ x.done = [] ∧ x.todo = duties) (ProcessStep p) (OnSys ok)

namespace Process

variable {init : State M σ L → Prop} {ok : State M σ L → Label T I E → Prop}
  {duties : List (Duty T X)} {x x' : Process M σ L X} {lab : ProcessLabel T I E}

/-- The threads run as they do without a parent. -/
theorem sys_reach (h : ProcessReach p init ok duties x) : Reach init (Step p) ok x.sys := by
  induction h with
  | start h => exact .start h.1
  | next _ hok hstep ih =>
    cases hstep with
    | parent => exact ih
    | sys _ hstep => exact ih.next hok hstep

theorem done_append_todo (h : ProcessReach p init ok duties x) : x.done ++ x.todo = duties := by
  refine h.invariant (I := fun x => x.done ++ x.todo = duties) ?_ ?_
  · rintro x ⟨-, hdone, htodo⟩
    rw [hdone, htodo, List.nil_append]
  · intro x lab x' _ hx _ hstep
    cases hstep with
    | parent => rwa [List.append_assoc, List.singleton_append]
    | sys => exact hx

/-- A thread that has finished stays where it is. -/
theorem finished_step {s s' : State M σ L} {l : Label T I E} {t : T}
    (hf : p.Finished s t) (h : Step p s l s') : p.Finished s' t := by
  by_cases hactor : l.actor = some t
  · exact absurd hf (h.not_finished hactor)
  · unfold Program.Finished
    rw [(h.unchanged hactor).2.2]
    exact hf

theorem joined (h : ProcessReach p init ok duties x) {t : T} (ht : .join t ∈ x.done) :
    p.Finished x.sys t := by
  refine h.invariant (I := fun x => .join t ∈ x.done → p.Finished x.sys t) ?_ ?_ ht
  · rintro x ⟨-, hdone, -⟩ hmem
    rw [hdone] at hmem
    cases hmem
  · intro x lab x' _ hx _ hstep hmem
    cases hstep with
    | parent hjoin =>
      rcases List.mem_append.1 hmem with hmem | hmem
      · exact hx hmem
      · exact hjoin t (List.mem_singleton.1 hmem).symm
    | sys _ hstep => exact finished_step (hx hmem) hstep

theorem quiet (ho : Orderly duties) (h : ProcessReach p init ok duties x) {y : X}
    (hy : .act y ∈ x.done) (t : T) : p.Finished x.sys t := by
  obtain ⟨before, after, hdone⟩ := List.append_of_mem hy
  have hduties := done_append_todo h
  rw [hdone, List.append_assoc, List.cons_append] at hduties
  refine joined h ?_
  rw [hdone]
  exact List.mem_append_left _ (ho.act _ _ _ hduties.symm t)

/-! ## Every run of the threads is one of the process -/

/-- The parent goes on if it does not have to wait. -/
theorem carryOut (h : ProcessReach p init ok duties x)
    {now later : List (Duty T X)} (htodo : x.todo = now ++ later)
    (hjoin : ∀ t, .join t ∈ now → p.Finished x.sys t) :
    ProcessReach p init ok duties ⟨x.sys, x.done ++ now, later⟩ := by
  induction now generalizing x with
  | nil =>
    obtain ⟨s, done, todo⟩ := x
    obtain rfl : todo = later := htodo
    rwa [List.append_nil]
  | cons d now ih =>
    obtain ⟨s, done, todo⟩ := x
    obtain rfl : todo = d :: (now ++ later) := htodo
    have hd : ∀ t, d = .join t → p.Finished s t := by
      rintro t rfl
      exact hjoin t List.mem_cons_self
    have hnext := ih (h.next (l := .parent) trivial (.parent hd)) rfl fun t ht =>
      hjoin t (List.mem_cons_of_mem _ ht)
    rwa [List.append_assoc, List.singleton_append] at hnext

/-- When all threads have been forked, they run as they do without a parent. -/
theorem lift (h : ProcessReach p init ok duties x) (hfork : ∀ t, .fork t ∈ x.done)
    {s : State M σ L} (hs : Reach (· = x.sys) (Step p) ok s) :
    ProcessReach p init ok duties ⟨s, x.done, x.todo⟩ := by
  induction hs with
  | start hs =>
    subst hs
    exact h
  | next _ hok hstep ih => exact ih.next (l := .sys _) hok (.sys (fun t _ => hfork t) hstep)

/-! ## How long it takes -/

section

variable [Fintype T] {Q : σ → Prop} (r : Ranking p Q)

def measure (x : Process M σ L X) : ℕ := r.measure x.sys + x.todo.length

theorem bound {x₀ : Process M σ L X} {n : ℕ}
    {ok : Process M σ L X × ℕ → ProcessLabel T I E → Prop} (hp : p.Persistent Q)
    (hQ : Q x₀.sys.data)
    (h : Reach (· = (x₀, 0)) (Recorded (fun _ lab n => n + lab.count) (ProcessStep p)) ok (x, n)) :
    measure r x + n ≤ measure r x₀ := by
  refine (h.invariant (I := fun x => Q x.1.sys.data ∧ measure r x.1 + x.2 ≤ measure r x₀) ?_
    ?_).2
  · rintro x rfl
    exact ⟨hQ, le_refl _⟩
  · rintro ⟨x, n⟩ lab ⟨x', n'⟩ - ⟨hQ, hle⟩ - ⟨hstep, rfl⟩
    cases hstep with
    | parent =>
      refine ⟨hQ, ?_⟩
      simp only [measure, ProcessLabel.count, List.length_cons] at *
      omega
    | sys _ hstep =>
      have hpays := r.pays hstep hQ
      refine ⟨hp.step hstep hQ, ?_⟩
      simp only [measure, ProcessLabel.count] at *
      omega

end

/-- The parent or a thread can take a step. -/
def CanStep (p : Program T M C D A R I E σ L) (x : Process M σ L X) : Prop :=
  ∃ lab x', lab.count = 1 ∧ OnSys p.UnlocksSucceed x lab ∧ ProcessStep p x lab x'

theorem progress (ho : Orderly duties) (h : ProcessReach p init ok duties x)
    (hsys : p.CanStep x.sys ∨ ∀ t, p.Finished x.sys t) : CanStep p x ∨ x.todo = [] := by
  have hduties := done_append_todo h
  obtain ⟨s, done, todo⟩ := x
  cases todo with
  | nil => exact .inr rfl
  | cons d todo =>
    left
    by_cases hjoin : ∀ t, d = .join t → p.Finished s t
    · exact ⟨.parent, _, rfl, trivial, .parent hjoin⟩
    · -- the parent waits for a thread, and all have been forked
      simp only [not_forall] at hjoin
      obtain ⟨t, rfl, ht⟩ := hjoin
      rcases hsys with ⟨lab, s', hcount, hok, hstep⟩ | hfinished
      · exact ⟨.sys lab, _, hcount, hok, .sys (fun u _ => ho.join _ _ _ hduties.symm u) hstep⟩
      · exact absurd (hfinished t) ht

end Process

end Threads
