import CpuUsageTracker.Library.Signalling

/-!
# Schedules

A schedule is a list of moves: a thread takes its next step, a blocked thread wakes up, the
environment acts. The results of the calls follow from the state: an attempt to lock a free mutex
succeeds and an attempt on any other times out, unlocking succeeds, and a signal goes to the
first waiter in a given list of threads. A schedule can be evaluated, and the state it leads to
is reached by a run in which all calls behave so (`Program.Nominal`).
-/

namespace Threads

variable {T M C D A I E σ : Type} {R : A → Type} {L : T → Type}
  {p : Program T M C D A R I E σ L} {s s' : State M σ L} {lab : Label T I E}

/-- The call behaves as it does in the absence of errors: a lock attempt succeeds on a free mutex
and times out on any other, unlocking an owned mutex succeeds, and so does a signal. -/
def Call.Nominal (s : State M σ L) (t : T) : Call M C D → ThrdResult → Prop
  | .tryLock m _, r => if s.owner m = none then r = .success else r = .timedout
  | .unlock m, r => s.owner m = some t → r = .success
  | .waitUntil _ _ _, _ => True
  | .notify _, r => r = .success

/-- Every call that returns in this step behaves as it does in the absence of errors. -/
def Program.Nominal (p : Program T M C D A R I E σ L) : State M σ L → Label T I E → Prop :=
  p.EveryReturn Call.Nominal

theorem Program.Nominal.unlocksSucceed (h : p.Nominal s lab) : p.UnlocksSucceed s lab := by
  intro t ev hev
  have ht := h t ev hev
  cases hc : p.code t (s.loc t) with
  | call c next =>
    rw [hc] at ht
    cases c with
    | unlock m => cases ev <;> exact ht
    | _ => cases ev <;> trivial
  | _ => trivial

theorem Program.Nominal.notifySucceeds (h : p.Nominal s lab) :
    p.EveryReturn (fun _ _ => Call.NotifySucceeds) s lab := by
  intro t ev hev
  have ht := h t ev hev
  cases hc : p.code t (s.loc t) with
  | call c next =>
    rw [hc] at ht
    cases c with
    | notify cv => cases ev <;> exact ht
    | _ => cases ev <;> trivial
  | _ => trivial

theorem Program.Nominal.timedLock (h : p.Nominal s lab) :
    p.EveryReturn (fun s _ => Call.TimedLock s.owner) s lab := by
  intro t ev hev
  have ht := h t ev hev
  cases hc : p.code t (s.loc t) with
  | call c next =>
    rw [hc] at ht
    cases c with
    | tryLock m ms => cases ev <;> exact ht
    | _ => cases ev <;> trivial
  | _ => trivial

inductive Move (T I E : Type)
  | run (t : T) (i : I)
  | wake (t : T) (r : ThrdResult)
  | env (e : E)

def Move.map {J : Type} (f : J → I) : Move T J E → Move T I E
  | .run t j => .run t (f j)
  | .wake t r => .wake t r
  | .env e => .env e

variable [DecidableEq T] [DecidableEq M] [DecidableEq C]

/-- The label of a move. A signal goes to the first waiter in `threads`. -/
def Program.label (p : Program T M C D A R I E σ L) (threads : List T) (s : State M σ L) :
    Move T I E → Option (Label T I E)
  | .run t i =>
    match s.status t with
    | .blocked => none
    | .woken r => some (.resume t r)
    | .ready =>
      match p.code t (s.loc t) with
      | .call (.tryLock m _) _ =>
        some (.ret t (if s.owner m = none then .success else .timedout))
      | .call (.unlock _) _ => some (.ret t .success)
      | .call (.waitUntil _ _ _) _ => some (.block t)
      | .call (.notify c) _ => some (.signal t .success
          (threads.find? fun w => s.status w = .blocked ∧ (p.code w (s.loc w)).waitsOn c))
      | .act _ _ => some (.act t i)
      | .sleep _ _ => some (.sleep t)
      | .exit => none
  | .wake t r => some (.wake t r)
  | .env e => some (.env e)

theorem Program.label_nominal {threads : List T} {mv : Move T I E}
    (h : p.label threads s mv = some lab) (hstep : Step p s lab s') : p.Nominal s lab := by
  intro t ev hev
  cases mv with
  | run u i =>
    simp only [Program.label] at h
    split at h
    · cases h
    · cases h
      cases hev
      cases hstep with
      | resume hr hc hm =>
        rw [hc]
        trivial
    · split at h <;> cases h <;> cases hev <;> rename_i hc <;> rw [hc]
      · rename_i m _ _ _ _
        by_cases hm : s.owner m = none <;> simp [Call.Nominal, hm]
      · exact fun _ => rfl
      · exact rfl
      · trivial
  | wake u x =>
    cases h
    cases hev
  | env e =>
    cases h
    cases hev

omit [DecidableEq T] [DecidableEq M] in
theorem Program.label_act {threads : List T} {mv : Move T I E} {t : T} {i : I}
    (h : p.label threads s mv = some (.act t i)) : mv = .run t i := by
  cases mv with
  | run u j =>
    simp only [Program.label] at h
    split at h
    · cases h
    · cases h
    · split at h <;> cases h
      rfl
  | wake u r => cases h
  | env e => cases h

/-- The state after a move, if the move is possible and `guard` permits it. -/
def Program.play [Fintype T] (p : Program T M C D A R I E σ L) (threads : List T)
    (guard : State M σ L → Label T I E → Bool) (s : State M σ L) (mv : Move T I E) :
    Option (State M σ L) :=
  (p.label threads s mv).bind fun lab => if guard s lab then p.exec s lab else none

/-- A schedule that can be played reaches its last state, in a run without errors. -/
theorem Reach.play [Fintype T] {init : State M σ L → Prop}
    {ok : State M σ L → Label T I E → Prop} {guard : State M σ L → Label T I E → Bool}
    {threads : List T} {moves : List (Move T I E)}
    (hok : ∀ s lab, p.Nominal s lab → guard s lab = true → ok s lab)
    (hs : Reach init (Step p) ok s) (h : execAll (p.play threads guard) s moves = some s') :
    Reach init (Step p) ok s' := by
  refine hs.execAll (fun s mv s' hmv => ?_) h
  obtain ⟨lab, hlab, hexec⟩ := Option.bind_eq_some_iff.1 hmv
  split at hexec
  · rename_i hguard
    have hstep := Program.exec_step hexec
    exact ⟨lab, hok s lab (Program.label_nominal hlab hstep) hguard, hstep⟩
  · cases hexec

/-- The state and the memory after a move. -/
def Program.playRecorded [Fintype T] {H : Type*} (p : Program T M C D A R I E σ L)
    (record : State M σ L → Label T I E → H → H) (threads : List T)
    (guard : State M σ L → Label T I E → Bool) (x : State M σ L × H) (mv : Move T I E) :
    Option (State M σ L × H) :=
  (p.label threads x.1 mv).bind fun lab =>
    if guard x.1 lab then (p.exec x.1 lab).map fun s' => (s', record x.1 lab x.2) else none

/-- The same for a run with a memory. -/
theorem Reach.playRecorded [Fintype T] {H : Type*} {record : State M σ L → Label T I E → H → H}
    {init : State M σ L × H → Prop} {ok : State M σ L → Label T I E → Prop}
    {guard : State M σ L → Label T I E → Bool} {threads : List T} {moves : List (Move T I E)}
    {x x' : State M σ L × H} (hok : ∀ s lab, p.Nominal s lab → guard s lab = true → ok s lab)
    (hx : Reach init (Recorded record (Step p)) (fun x lab => ok x.1 lab) x)
    (h : execAll (p.playRecorded record threads guard) x moves = some x') :
    Reach init (Recorded record (Step p)) (fun x lab => ok x.1 lab) x' := by
  refine hx.execAll (fun x mv x' hmv => ?_) h
  obtain ⟨lab, hlab, hexec⟩ := Option.bind_eq_some_iff.1 hmv
  split at hexec
  · rename_i hguard
    obtain ⟨s', hs', rfl⟩ := Option.map_eq_some_iff.1 hexec
    have hstep := Program.exec_step hs'
    exact ⟨lab, hok x.1 lab (Program.label_nominal hlab hstep) hguard, hstep, rfl⟩
  · cases hexec

end Threads
