import CpuUsageTracker.Library.Schedule

/-!
# Programs and a clock

A `Clock` says how to read the time off the data, and how much of it an instruction may take: a
lock attempt and a sleep last as long as their argument says, the former at most and the latter
exactly, a wait is over at its time point at the latest, actions that are `patient` take as long
as they like, and everything else takes no time. So every instruction has a deadline, which
depends on when the thread got to it (`Clock.deadline`). Time passes only as far as all deadlines
permit (`Clock.Punctual`).

`Timed` adds to the state of a program when each thread got to its instruction, and when it last
was at a location that counts as a report. A run with a clock is a run of the program
(`TimedReach.untimed`) in which no deadline is missed (`TimedReach.on_time`).
-/

namespace Threads

variable {T M C D A I E σ K K' : Type} {R : A → Type} {L : T → Type}

/-- The reading of the clock is part of the data, and only the environment changes it. -/
structure Clock (p : Program T M C D A R I E σ L) where
  now : σ → ℕ
  perMs : ℕ
  point : D → ℕ
  elapsed : E → ℕ
  patient : A → Bool
  now_perform : ∀ t a i d, now (p.perform t a i d).1 = now d
  now_env : ∀ e d, now (p.env e d) = now d + elapsed e

/-- `since t` is when `t` got to its instruction, `last t` when it last was at a report. -/
structure Timed (M σ : Type) (L : T → Type) where
  sys : State M σ L
  since : T → ℕ
  last : T → Option ℕ

variable {p : Program T M C D A R I E σ L} {s s' : State M σ L} {lab : Label T I E} {t : T}
  {x x' : Timed M σ L}

namespace Clock

variable (c : Clock p)

/-- When an instruction has to be over that was reached at `since`. -/
def deadline (since : ℕ) : Instr M C D A R K → Option ℕ
  | .call (.tryLock _ ms) _ => some (since + ms * c.perMs)
  | .call (.waitUntil _ _ d) _ => some (max since (c.point d))
  | .call (.unlock _) _ | .call (.notify _) _ => some since
  | .act a _ => if c.patient a then none else some since
  | .sleep ms _ => some (since + ms * c.perMs)
  | .exit => none

@[simp] theorem deadline_map (since : ℕ) (f : K → K') (g : Instr M C D A R K) :
    c.deadline since (g.map f) = c.deadline since g := by
  rcases g with (_ | _ | _ | _) | _ | _ | _ <;> rfl

theorem le_deadline {since d : ℕ} {g : Instr M C D A R K} (h : d ∈ c.deadline since g) :
    since ≤ d := by
  cases g with
  | call call next =>
    cases call with
    | tryLock m ms =>
      cases h
      exact Nat.le_add_right _ _
    | waitUntil cv m tp =>
      cases h
      exact le_max_left _ _
    | _ =>
      cases h
      exact le_refl _
  | act a next =>
    simp only [deadline, Option.mem_def, Option.ite_none_left_eq_some, Option.some.injEq] at h
    exact h.2.le
  | sleep ms next =>
    cases h
    exact Nat.le_add_right _ _
  | exit => cases h

def time (x : Timed M σ L) : ℕ := c.now x.sys.data

/-- The deadline of the thread. -/
def due (x : Timed M σ L) (t : T) : Option ℕ := c.deadline (x.since t) (p.code t (x.sys.loc t))

/-- A sleep is over at its deadline, and time does not pass beyond any deadline. -/
def Punctual (x : Timed M σ L) : Label T I E → Prop
  | .sleep t => c.due x t = some (c.time x)
  | .env e => ∀ t, ∀ d ∈ c.due x t, c.time x + c.elapsed e ≤ d
  | _ => True

instance [Fintype T] (x : Timed M σ L) :
    (lab : Label T I E) → Decidable (c.Punctual x lab)
  | .sleep t => inferInstanceAs (Decidable (c.due x t = some (c.time x)))
  | .env e =>
    inferInstanceAs (Decidable (∀ t, ∀ d ∈ c.due x t, c.time x + c.elapsed e ≤ d))
  | .ret _ _ | .block _ | .wake _ _ | .resume _ _ | .signal _ _ _ | .act _ _ => isTrue trivial

def start (s : State M σ L) : Timed M σ L := ⟨s, fun _ => c.now s.data, fun _ => none⟩

end Clock

variable [DecidableEq T] [DecidableEq M] {c : Clock p} {reports : (t : T) → L t → Bool}

structure TimedStep (c : Clock p) (reports : (t : T) → L t → Bool) (x : Timed M σ L)
    (lab : Label T I E) (x' : Timed M σ L) : Prop where
  step : Step p x.sys lab x'.sys
  punctual : c.Punctual x lab
  since : ∀ t, x'.since t = if lab.actor = some t then c.time x else x.since t
  last : ∀ t, x'.last t =
    if lab.actor = some t ∧ reports t (x.sys.loc t) = true then some (c.time x) else x.last t

/-- The states reached by runs with a clock. -/
def TimedReach (c : Clock p) (reports : (t : T) → L t → Bool) (init : State M σ L → Prop) :
    (Timed M σ L → Label T I E → Prop) → Timed M σ L → Prop :=
  Reach (fun x => ∃ s, init s ∧ x = c.start s) (TimedStep c reports)

/-! ## What a step does to the clock -/

theorem Step.data_env {e : E} (h : Step p s (.env e) s') : s'.data = p.env e s.data := by
  cases h
  rfl

theorem Step.now_env {e : E} (h : Step p s (.env e) s') :
    c.now s'.data = c.now s.data + c.elapsed e := by
  rw [h.data_env, c.now_env]

/-- Only the environment lets time pass. -/
theorem Step.now_eq (h : Step p s lab s') (henv : ∀ e, lab ≠ .env e) :
    c.now s'.data = c.now s.data := by
  by_cases hact : ∃ t i, lab = .act t i
  · obtain ⟨t, i, rfl⟩ := hact
    cases h
    simp [c.now_perform]
  · rw [h.data_eq (fun t i hlab => hact ⟨t, i, hlab⟩) henv]

theorem Step.now_le (h : Step p s lab s') : c.now s.data ≤ c.now s'.data := by
  by_cases henv : ∃ e, lab = .env e
  · obtain ⟨e, rfl⟩ := henv
    rw [h.now_env]
    exact Nat.le_add_right _ _
  · rw [h.now_eq fun e he => henv ⟨e, he⟩]

/-! ## Runs with a clock -/

section

variable {init : State M σ L → Prop} {ok : Timed M σ L → Label T I E → Prop}
  {ok' : State M σ L → Label T I E → Prop}

/-- Forget the clock. -/
theorem TimedReach.untimed (h : TimedReach c reports init ok x)
    (hok : ∀ x lab, ok x lab → ok' x.sys lab) : Reach init (Step p) ok' x.sys := by
  induction h with
  | start h =>
    obtain ⟨s, hs, rfl⟩ := h
    exact .start hs
  | next _ hx hstep ih => exact ih.next (hok _ _ hx) hstep.step

theorem TimedReach.since_le (h : TimedReach c reports init ok x) (t : T) :
    x.since t ≤ c.time x := by
  refine h.invariant (I := fun x => x.since t ≤ c.time x) ?_ ?_
  · rintro x ⟨s, -, rfl⟩
    exact le_refl _
  · intro x lab x' _ hle _ hstep
    have hnow : c.time x ≤ c.time x' := hstep.step.now_le
    rw [hstep.since]
    by_cases hactor : lab.actor = some t
    · rw [if_pos hactor]
      exact hnow
    · rw [if_neg hactor]
      exact hle.trans hnow

/-- A thread that sleeps takes no other step, and not before its deadline. -/
theorem TimedStep.time_of_sleep {ms : ℕ} {next : L t} (h : TimedStep c reports x lab x')
    (hactor : lab.actor = some t) (hc : p.code t (x.sys.loc t) = .sleep ms next) :
    c.time x = x.since t + ms * c.perMs := by
  obtain rfl : lab = .sleep t := h.step.eq_sleep hactor hc
  have hdue : c.due x t = some (c.time x) := h.punctual
  unfold Clock.due at hdue
  rw [hc] at hdue
  exact (Option.some.inj hdue).symm

/-- A thread that does not act keeps its deadline. -/
theorem TimedStep.due_eq (h : TimedStep c reports x lab x') (hactor : lab.actor ≠ some t) :
    c.due x' t = c.due x t := by
  unfold Clock.due
  rw [h.since, if_neg hactor, (h.step.unchanged hactor).2.2]

/-- No deadline is missed. -/
theorem TimedReach.on_time (h : TimedReach c reports init ok x) (t : T) :
    ∀ d ∈ c.due x t, c.time x ≤ d := by
  refine h.invariant (I := fun x => ∀ d ∈ c.due x t, c.time x ≤ d) ?_ ?_
  · rintro x ⟨s, -, rfl⟩ d hd
    exact c.le_deadline hd
  · intro x lab x' _ hontime _ hstep d hd
    by_cases henv : ∃ e, lab = .env e
    · obtain ⟨e, rfl⟩ := henv
      have hnow : c.time x' = c.time x + c.elapsed e := hstep.step.now_env
      rw [hstep.due_eq (by simp [Label.actor])] at hd
      rw [hnow]
      exact hstep.punctual t d hd
    · have hnow : c.time x' = c.time x := hstep.step.now_eq fun e he => henv ⟨e, he⟩
      rw [hnow]
      by_cases hactor : lab.actor = some t
      · have hle := c.le_deadline hd
        rwa [hstep.since, if_pos hactor] at hle
      · rw [hstep.due_eq hactor] at hd
        exact hontime d hd

/-- Let time pass only as far as `InTime` permits while `Q` holds, of the thread's location and of
when it got there. Then it has never passed further. -/
theorem TimedReach.in_time (InTime : L t → ℕ → ℕ → Prop) (Q : σ → Prop)
    (hrefl : ∀ l n, InTime l n n)
    (hQ : ∀ s lab s', Step p s lab s' → Q s'.data → Q s.data)
    (hok : ∀ x e, ok x (.env e) → Q x.sys.data →
      InTime (x.sys.loc t) (x.since t) (c.time x + c.elapsed e))
    (h : TimedReach c reports init ok x) (hx : Q x.sys.data) :
    InTime (x.sys.loc t) (x.since t) (c.time x) := by
  refine h.invariant (I := fun x => Q x.sys.data → InTime (x.sys.loc t) (x.since t) (c.time x))
    ?_ ?_ hx
  · rintro x ⟨s, -, rfl⟩ -
    exact hrefl _ _
  · intro x lab x' _ hin hok' hstep hx'
    have hx := hQ _ _ _ hstep.step hx'
    by_cases henv : ∃ e, lab = .env e
    · obtain ⟨e, rfl⟩ := henv
      have hnow : c.time x' = c.time x + c.elapsed e := hstep.step.now_env
      have hactor : (Label.env e : Label T I E).actor ≠ some t := by simp [Label.actor]
      rw [(hstep.step.unchanged hactor).2.2, hstep.since, if_neg hactor, hnow]
      exact hok x e hok' hx
    · have hnow : c.time x' = c.time x := hstep.step.now_eq fun e he => henv ⟨e, he⟩
      rw [hnow, hstep.since]
      by_cases hactor : lab.actor = some t
      · rw [if_pos hactor]
        exact hrefl _ _
      · rw [if_neg hactor, (hstep.step.unchanged hactor).2.2]
        exact hin hx

end

/-! ## Schedules -/

variable [DecidableEq C] [Fintype T] {threads : List T} {guard : Timed M σ L → Label T I E → Bool}

/-- The state after a step that leads to `s'`. -/
def Clock.next (c : Clock p) (reports : (t : T) → L t → Bool) (x : Timed M σ L)
    (lab : Label T I E) (s' : State M σ L) : Timed M σ L where
  sys := s'
  since t := if lab.actor = some t then c.time x else x.since t
  last t :=
    if lab.actor = some t ∧ reports t (x.sys.loc t) = true then some (c.time x) else x.last t

/-- The state after a move, if the move is possible at this time and `guard` permits it. -/
def Clock.play (c : Clock p) (reports : (t : T) → L t → Bool) (threads : List T)
    (guard : Timed M σ L → Label T I E → Bool) (x : Timed M σ L) (mv : Move T I E) :
    Option (Timed M σ L) :=
  (p.label threads x.sys mv).bind fun lab =>
    if guard x lab = true ∧ c.Punctual x lab then
      (p.exec x.sys lab).map (c.next reports x lab)
    else none

theorem Clock.play_eq_some {mv : Move T I E} (h : c.play reports threads guard x mv = some x') :
    ∃ lab, p.label threads x.sys mv = some lab ∧ guard x lab = true ∧
      TimedStep c reports x lab x' := by
  obtain ⟨lab, hlab, hexec⟩ := Option.bind_eq_some_iff.1 h
  split at hexec
  · rename_i hguard
    obtain ⟨s', hs', rfl⟩ := Option.map_eq_some_iff.1 hexec
    exact ⟨lab, hlab, hguard.1, Program.exec_step hs', hguard.2, fun _ => rfl, fun _ => rfl⟩
  · cases hexec

theorem Reach.playTimed {init : Timed M σ L → Prop} {ok : Timed M σ L → Label T I E → Prop}
    {moves : List (Move T I E)}
    (hok : ∀ x lab, p.Nominal x.sys lab → guard x lab = true → ok x lab)
    (hx : Reach init (TimedStep c reports) ok x)
    (h : execAll (c.play reports threads guard) x moves = some x') :
    Reach init (TimedStep c reports) ok x' := by
  refine hx.execAll (fun x mv x' hmv => ?_) h
  obtain ⟨lab, hlab, hguard, hstep⟩ := Clock.play_eq_some hmv
  exact ⟨lab, hok x lab (Program.label_nominal hlab hstep.step) hguard, hstep⟩

theorem TimedReach.play {init : State M σ L → Prop} {ok : Timed M σ L → Label T I E → Prop}
    {moves : List (Move T I E)}
    (hok : ∀ x lab, p.Nominal x.sys lab → guard x lab = true → ok x lab)
    (hx : TimedReach c reports init ok x)
    (h : execAll (c.play reports threads guard) x moves = some x') :
    TimedReach c reports init ok x' :=
  Reach.playTimed hok hx h

end Threads
