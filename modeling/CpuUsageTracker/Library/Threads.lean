import CpuUsageTracker.Library.Transition
import Mathlib.Data.Fintype.Defs
import Mathlib.Data.Set.Insert
import Mathlib.Logic.Function.Basic

/-!
# Threads with timed mutexes and condition variables

A program gives every thread a control location and every location one instruction: a call of
the C11 thread library, an atomic action on shared data, a sleep, or the end of the thread. A
step lets one thread execute its instruction, or wakes a blocked thread, or lets the environment
change the data. The calls behave as follows.

* `tryLock` succeeds only on a free mutex. It may fail at any time, with any other result.
* `unlock` by the owner frees the mutex or fails without effect. By another thread it has no
  effect.
* `waitUntil` releases the mutex and blocks. A blocked thread is woken by a signal, or at any
  time and with any result. It returns that result once it has the mutex again.
* `notify` wakes one thread that is blocked on the condition variable, if there is one, or fails
  without effect.

**Theorem (`Reach.outline`).** Let `Q t` be a property of thread `t`'s location, of the mutexes
it holds and of the data. If every instruction of `t` establishes `Q t` at the next location, and
no action of another thread destroys it, then `Q t` holds in every reachable state.

This is the rule of Owicki and Gries. A thread that waits counts as holding the mutex it will
return with, so `Q t` may describe a monitor's data across the wait. Mutual exclusion enters the
second premise: the acting thread and `t` hold no mutex in common, unless `t` waits on it.
-/

namespace Threads

/-- The results of the thread library's functions. -/
inductive ThrdResult
  | success
  | timedout
  | error
  deriving DecidableEq, Repr

inductive Status
  | ready
  | blocked
  | woken (r : ThrdResult)
  deriving DecidableEq, Repr

/-- Calls of the thread library. `D` is the type of time points. -/
inductive Call (M C D : Type)
  | tryLock (m : M) (ms : ℕ)
  | unlock (m : M)
  | waitUntil (c : C) (m : M) (timePoint : D)
  | notify (c : C)

/-- An instruction with the locations that follow it. -/
inductive Instr (M C D A : Type) (R : A → Type) (K : Type)
  | call (c : Call M C D) (next : ThrdResult → K)
  | act (a : A) (next : R a → K)
  | sleep (ms : ℕ) (next : K)
  | exit

variable {T M C D A I E σ K K' : Type} {R : A → Type} {L : T → Type}

namespace Instr

def map (f : K → K') : Instr M C D A R K → Instr M C D A R K'
  | call c next => call c fun r => f (next r)
  | act a next => act a fun r => f (next r)
  | sleep ms next => sleep ms (f next)
  | exit => exit

/-- The instruction waits on `c`. -/
def waitsOn (c : C) : Instr M C D A R K → Prop
  | call (.waitUntil c' _ _) _ => c' = c
  | _ => False

/-- The instruction waits and returns with `m`. -/
def waitsWith (m : M) : Instr M C D A R K → Prop
  | call (.waitUntil _ m' _) _ => m' = m
  | _ => False

instance [DecidableEq C] (c : C) : (g : Instr M C D A R K) → Decidable (g.waitsOn c)
  | call (.waitUntil c' _ _) _ => inferInstanceAs (Decidable (c' = c))
  | call (.tryLock _ _) _ | call (.unlock _) _ | call (.notify _) _ | act _ _ | sleep _ _ | exit =>
    inferInstanceAs (Decidable False)

@[simp] theorem waitsOn_map (f : K → K') (g : Instr M C D A R K) (c : C) :
    (g.map f).waitsOn c ↔ g.waitsOn c := by
  rcases g with (_ | _ | _ | _) | _ | _ | _ <;> rfl

@[simp] theorem waitsWith_map (f : K → K') (g : Instr M C D A R K) (m : M) :
    (g.map f).waitsWith m ↔ g.waitsWith m := by
  rcases g with (_ | _ | _ | _) | _ | _ | _ <;> rfl

theorem map_eq_act {f : K → K'} {g : Instr M C D A R K} {a : A} {next : R a → K'}
    (h : g.map f = act a next) : ∃ next', g = act a next' ∧ next = fun r => f (next' r) := by
  cases g with
  | act a' next' =>
    cases h
    exact ⟨next', rfl, rfl⟩
  | _ => cases h

theorem map_eq_call {f : K → K'} {g : Instr M C D A R K} {c : Call M C D}
    {next : ThrdResult → K'} (h : g.map f = call c next) : ∃ next', g = call c next' := by
  cases g with
  | call c' next' =>
    cases h
    exact ⟨next', rfl⟩
  | _ => cases h

end Instr

/-- `code` is the threads' text, `perform` the effect of an action under an input that the
environment chooses, `env` what the environment does by itself. -/
structure Program (T M C D A : Type) (R : A → Type) (I E σ : Type) (L : T → Type) where
  code : (t : T) → L t → Instr M C D A R (L t)
  perform : T → (a : A) → I → σ → σ × R a
  env : E → σ → σ

@[ext] structure State (M σ : Type) (L : T → Type) where
  owner : M → Option T
  status : T → Status
  loc : (t : T) → L t
  data : σ

inductive Label (T I E : Type)
  | ret (t : T) (r : ThrdResult)
  | block (t : T)
  | wake (t : T) (r : ThrdResult)
  | resume (t : T) (r : ThrdResult)
  | signal (t : T) (r : ThrdResult) (woken : Option T)
  | act (t : T) (i : I)
  | sleep (t : T)
  | env (e : E)

/-- What a thread gets from outside when it moves to its next location. -/
inductive Event (I : Type)
  | ret (r : ThrdResult)
  | act (i : I)

/-- The thread that executes its instruction. Waking up is not its own doing. -/
def Label.actor : Label T I E → Option T
  | ret t _ | block t | resume t _ | signal t _ _ | act t _ | sleep t => some t
  | wake _ _ | env _ => none

def Label.event : Label T I E → Option (T × Event I)
  | ret t r | resume t r | signal t r _ => some (t, .ret r)
  | act t i => some (t, .act i)
  | block _ | wake _ _ | sleep _ | env _ => none

theorem Label.actor_of_event {lab : Label T I E} {t : T} {ev : Event I}
    (h : lab.event = some (t, ev)) : lab.actor = some t := by
  cases lab <;> cases h <;> rfl

namespace State

section

variable [DecidableEq M] (s : State M σ L) (t u : T) (m n : M) (o : Option T) (d : σ)

def setOwner (s : State M σ L) (m : M) (o : Option T) : State M σ L :=
  { s with owner := Function.update s.owner m o }

@[simp] theorem status_setOwner : (s.setOwner m o).status = s.status := rfl
@[simp] theorem loc_setOwner : (s.setOwner m o).loc = s.loc := rfl
@[simp] theorem data_setOwner : (s.setOwner m o).data = s.data := rfl
@[simp] theorem owner_setOwner : (s.setOwner m o).owner = Function.update s.owner m o := rfl

end

section

variable (s : State M σ L) (d : σ)

def setData (s : State M σ L) (d : σ) : State M σ L := { s with data := d }

@[simp] theorem owner_setData : (s.setData d).owner = s.owner := rfl
@[simp] theorem status_setData : (s.setData d).status = s.status := rfl
@[simp] theorem loc_setData : (s.setData d).loc = s.loc := rfl
@[simp] theorem data_setData : (s.setData d).data = d := rfl

end

variable [DecidableEq T]

def goto (s : State M σ L) (t : T) (l : L t) : State M σ L :=
  { s with loc := Function.update s.loc t l }

def setStatus (s : State M σ L) (t : T) (x : Status) : State M σ L :=
  { s with status := Function.update s.status t x }

/-- Free `m` if `t` owns it. -/
def release [DecidableEq M] (s : State M σ L) (t : T) (m : M) : State M σ L :=
  if s.owner m = some t then s.setOwner m none else s

section

variable (s : State M σ L) (t u : T) (l : L t) (x : Status)

@[simp] theorem owner_goto : (s.goto t l).owner = s.owner := rfl
@[simp] theorem status_goto : (s.goto t l).status = s.status := rfl
@[simp] theorem data_goto : (s.goto t l).data = s.data := rfl
@[simp] theorem loc_goto_self : (s.goto t l).loc t = l := Function.update_self ..
@[simp] theorem owner_setStatus : (s.setStatus t x).owner = s.owner := rfl
@[simp] theorem loc_setStatus : (s.setStatus t x).loc = s.loc := rfl
@[simp] theorem data_setStatus : (s.setStatus t x).data = s.data := rfl
@[simp] theorem status_setStatus_self : (s.setStatus t x).status t = x := Function.update_self ..

variable {t u}

theorem loc_goto_of_ne (h : u ≠ t) : (s.goto t l).loc u = s.loc u := Function.update_of_ne h ..

theorem status_setStatus_of_ne (h : u ≠ t) : (s.setStatus t x).status u = s.status u :=
  Function.update_of_ne h ..

end

section

variable [DecidableEq M] (s : State M σ L) {t u : T} (m n : M)

@[simp] theorem status_release : (s.release t m).status = s.status := by
  unfold release
  split <;> rfl

@[simp] theorem loc_release : (s.release t m).loc = s.loc := by
  unfold release
  split <;> rfl

@[simp] theorem data_release : (s.release t m).data = s.data := by
  unfold release
  split <;> rfl

theorem owner_release_of_ne (h : u ≠ t) :
    (s.release t m).owner n = some u ↔ s.owner n = some u := by
  unfold release
  split
  · rename_i hm
    by_cases hn : n = m
    · subst hn
      simp [hm, h.symm]
    · simp [hn]
  · rfl

theorem owner_release_self : (s.release t m).owner n = some t ↔ s.owner n = some t ∧ n ≠ m := by
  unfold release
  split
  · by_cases hn : n = m
    · simp [hn]
    · simp [hn]
  · rename_i hm
    by_cases hn : n = m
    · simp [hn, hm]
    · simp [hn]

end

end State

/-! ## What a thread holds -/

variable {p : Program T M C D A R I E σ L} {s s' : State M σ L} {lab : Label T I E} {t u : T}

/-- `t` is blocked in a wait on `c`. -/
def Program.BlockedOn (p : Program T M C D A R I E σ L) (s : State M σ L) (t : T) (c : C) : Prop :=
  s.status t = .blocked ∧ (p.code t (s.loc t)).waitsOn c

instance [DecidableEq C] (t : T) (c : C) : Decidable (p.BlockedOn s t c) :=
  inferInstanceAs (Decidable (_ ∧ _))

/-- The mutexes that `t` owns, and the one it will own when its wait returns. -/
def Program.held (p : Program T M C D A R I E σ L) (s : State M σ L) (t : T) : Set M :=
  {m | s.owner m = some t ∨ s.status t ≠ .ready ∧ (p.code t (s.loc t)).waitsWith m}

theorem mem_held_of_ready (h : s.status t = .ready) (m : M) :
    m ∈ p.held s t ↔ s.owner m = some t := by
  simp [Program.held, h]

theorem held_congr (hown : ∀ m, s'.owner m = some t ↔ s.owner m = some t)
    (hstatus : s'.status t = .ready ↔ s.status t = .ready) (hloc : s'.loc t = s.loc t) :
    p.held s' t = p.held s t := by
  ext m
  simp only [Program.held, Set.mem_ofPred_eq, hown, hloc, ne_eq, hstatus]

theorem held_goto [DecidableEq T] (hr : s.status t = .ready) (l : L t) :
    p.held (s.goto t l) t = p.held s t := by
  ext m
  rw [mem_held_of_ready (by simpa using hr), mem_held_of_ready hr]
  rfl

namespace Call

/-- A thread cannot lock a mutex that it holds. -/
def CanReturn (o : Set M) : Call M C D → ThrdResult → Prop
  | tryLock m _, .success => m ∉ o
  | _, _ => True

/-- What a thread holds after the call, if it held `o` before. -/
def heldAfter (o : Set M) : Call M C D → ThrdResult → Set M
  | tryLock m _, .success => insert m o
  | unlock m, .success => o \ {m}
  | waitUntil _ m _, _ => insert m o
  | _, _ => o

end Call

/-- `Q` holds at the next location, whatever the instruction returns. -/
def Instr.Post (perform : (a : A) → I → σ → σ × R a) (allow : Event I → Prop)
    (Q : K → Set M → σ → Prop) (o : Set M) (d : σ) : Instr M C D A R K → Prop
  | call c next =>
    ∀ r, c.CanReturn o r → allow (.ret r) → Q (next r) (c.heldAfter o r) d
  | act a next => ∀ i, allow (.act i) → Q (next (perform a i d).2) o (perform a i d).1
  | sleep _ next => Q next o d
  | exit => True

section

variable (perform : (a : A) → I → σ → σ × R a) (allow : Event I → Prop) (Q : K → Set M → σ → Prop)
  (o : Set M) (d : σ) (m : M)

@[simp] theorem Instr.post_tryLock (ms : ℕ) (next : ThrdResult → K) :
    (call (.tryLock m ms) next : Instr M C D A R K).Post perform allow Q o d ↔
      (m ∉ o → allow (.ret .success) → Q (next .success) (insert m o) d) ∧
      (allow (.ret .timedout) → Q (next .timedout) o d) ∧
      (allow (.ret .error) → Q (next .error) o d) := by
  refine ⟨fun h => ⟨h .success, h .timedout trivial, h .error trivial⟩, ?_⟩
  rintro ⟨hs, ht, he⟩ (_ | _ | _) hr
  exacts [hs hr, ht, he]

@[simp] theorem Instr.post_unlock (next : ThrdResult → K) :
    (call (.unlock m) next : Instr M C D A R K).Post perform allow Q o d ↔
      (allow (.ret .success) → Q (next .success) (o \ {m}) d) ∧
      (allow (.ret .timedout) → Q (next .timedout) o d) ∧
      (allow (.ret .error) → Q (next .error) o d) := by
  refine ⟨fun h => ⟨h .success trivial, h .timedout trivial, h .error trivial⟩, ?_⟩
  rintro ⟨hs, ht, he⟩ (_ | _ | _) -
  exacts [hs, ht, he]

@[simp] theorem Instr.post_waitUntil (c : C) (timePoint : D) (next : ThrdResult → K) :
    (call (.waitUntil c m timePoint) next : Instr M C D A R K).Post perform allow Q o d ↔
      (allow (.ret .success) → Q (next .success) (insert m o) d) ∧
      (allow (.ret .timedout) → Q (next .timedout) (insert m o) d) ∧
      (allow (.ret .error) → Q (next .error) (insert m o) d) := by
  refine ⟨fun h => ⟨h .success trivial, h .timedout trivial, h .error trivial⟩, ?_⟩
  rintro ⟨hs, ht, he⟩ (_ | _ | _) -
  exacts [hs, ht, he]

@[simp] theorem Instr.post_notify (c : C) (next : ThrdResult → K) :
    (call (.notify c) next : Instr M C D A R K).Post perform allow Q o d ↔
      (allow (.ret .success) → Q (next .success) o d) ∧
      (allow (.ret .timedout) → Q (next .timedout) o d) ∧
      (allow (.ret .error) → Q (next .error) o d) := by
  refine ⟨fun h => ⟨h .success trivial, h .timedout trivial, h .error trivial⟩, ?_⟩
  rintro ⟨hs, ht, he⟩ (_ | _ | _) -
  exacts [hs, ht, he]

@[simp] theorem Instr.post_act (a : A) (next : R a → K) :
    (act a next : Instr M C D A R K).Post perform allow Q o d ↔
      ∀ i, allow (.act i) → Q (next (perform a i d).2) o (perform a i d).1 := Iff.rfl

@[simp 1100] theorem Instr.post_act_ite (a : A) (c : R a → Prop) [DecidablePred c] (f g : R a → K) :
    (act a (fun r => if c r then f r else g r) : Instr M C D A R K).Post perform allow Q o d ↔
      ∀ i, allow (.act i) →
        (c (perform a i d).2 → Q (f (perform a i d).2) o (perform a i d).1) ∧
        (¬c (perform a i d).2 → Q (g (perform a i d).2) o (perform a i d).1) := by
  refine forall₂_congr fun i _ => ?_
  by_cases hc : c (perform a i d).2 <;> simp [hc]

@[simp] theorem Instr.post_sleep (ms : ℕ) (next : K) :
    (sleep ms next : Instr M C D A R K).Post perform allow Q o d ↔ Q next o d := Iff.rfl

@[simp] theorem Instr.post_exit :
    (exit : Instr M C D A R K).Post perform allow Q o d ↔ True := Iff.rfl

end

theorem Instr.post_of_forall {perform : (a : A) → I → σ → σ × R a} {allow : Event I → Prop}
    {Q : K → Set M → σ → Prop} {o : Set M} {d : σ} (hQ : ∀ k o d, Q k o d)
    (g : Instr M C D A R K) : g.Post perform allow Q o d := by
  cases g with
  | call c next => exact fun r _ _ => hQ _ _ _
  | act a next => exact fun i _ => hQ _ _ _
  | sleep ms next => exact hQ _ _ _
  | exit => trivial

theorem Instr.Post.mono {perform : (a : A) → I → σ → σ × R a} {allow allow' : Event I → Prop}
    {Q Q' : K → Set M → σ → Prop} {o : Set M} {d : σ} {g : Instr M C D A R K}
    (h : g.Post perform allow Q o d) (hQ : ∀ k o d, Q k o d → Q' k o d)
    (hallow : ∀ ev, allow' ev → allow ev) : g.Post perform allow' Q' o d := by
  cases g with
  | call c next => exact fun r hr ha => hQ _ _ _ (h r hr (hallow _ ha))
  | act a next => exact fun i ha => hQ _ _ _ (h i (hallow _ ha))
  | sleep ms next => exact hQ _ _ _ h
  | exit => trivial

theorem Instr.Post.and {perform : (a : A) → I → σ → σ × R a} {allow allow' : Event I → Prop}
    {Q Q' : K → Set M → σ → Prop} {o : Set M} {d : σ} {g : Instr M C D A R K}
    (h : g.Post perform allow Q o d) (h' : g.Post perform allow' Q' o d) :
    g.Post perform (fun ev => allow ev ∧ allow' ev) (fun k o d => Q k o d ∧ Q' k o d) o d := by
  cases g with
  | call c next => exact fun r hr ha => ⟨h r hr ha.1, h' r hr ha.2⟩
  | act a next => exact fun i ha => ⟨h i ha.1, h' i ha.2⟩
  | sleep ms next => exact ⟨h, h'⟩
  | exit => trivial

/-- What holds of the next location whatever the thread holds. -/
theorem Instr.Post.of_empty {perform : (a : A) → I → σ → σ × R a} {allow allow' : Event I → Prop}
    {Q : K → σ → Prop} {o : Set M} {d : σ} {g : Instr M C D A R K}
    (h : g.Post perform allow (fun k _ d => Q k d) ∅ d) (hallow : ∀ ev, allow' ev → allow ev) :
    g.Post perform allow' (fun k _ d => Q k d) o d := by
  cases g with
  | call c next =>
    intro r _ ha
    refine h r ?_ (hallow _ ha)
    cases c with
    | tryLock m ms => cases r <;> simp [Call.CanReturn]
    | _ => trivial
  | act a next => exact fun i ha => h i (hallow _ ha)
  | sleep ms next => exact h
  | exit => trivial

theorem Instr.post_map {perform : (a : A) → I → σ → σ × R a} {allow : Event I → Prop}
    {Q : K' → Set M → σ → Prop} {o : Set M} {d : σ} (f : K → K') (g : Instr M C D A R K) :
    (g.map f).Post perform allow Q o d ↔ g.Post perform allow (fun k => Q (f k)) o d := by
  cases g <;> rfl

/-! ## Conditions on what the calls return -/

/-- If the event is the return of the instruction's call, then with a result that satisfies `P`. -/
@[simp] def Instr.OnReturn (P : Call M C D → ThrdResult → Prop) :
    Instr M C D A R K → Event I → Prop
  | call c _, .ret r => P c r
  | _, _ => True

instance {P : Call M C D → ThrdResult → Prop} [∀ c r, Decidable (P c r)] :
    (g : Instr M C D A R K) → (ev : Event I) → Decidable (g.OnReturn P ev)
  | .call c _, .ret r => inferInstanceAs (Decidable (P c r))
  | .call _ _, .act _ | .act _ _, _ | .sleep _ _, _ | .exit, _ => isTrue (by simp)

@[simp] theorem Instr.onReturn_map {P : Call M C D → ThrdResult → Prop} (f : K → K')
    (g : Instr M C D A R K) (ev : Event I) : (g.map f).OnReturn P ev ↔ g.OnReturn P ev := by
  cases g <;> cases ev <;> rfl

/-- Every call that returns in this step returns a result that satisfies `P`, which may depend on
the state before the step and on the thread. -/
def Program.EveryReturn (p : Program T M C D A R I E σ L)
    (P : State M σ L → T → Call M C D → ThrdResult → Prop) (s : State M σ L) (lab : Label T I E) :
    Prop :=
  ∀ t ev, lab.event = some (t, ev) → (p.code t (s.loc t)).OnReturn (P s t) ev

instance {P : State M σ L → T → Call M C D → ThrdResult → Prop}
    [∀ s t c r, Decidable (P s t c r)] : Decidable (p.EveryReturn P s lab) :=
  match h : lab.event with
  | none => isTrue fun _ _ hev => by simp [h] at hev
  | some (t, ev) => decidable_of_iff ((p.code t (s.loc t)).OnReturn (P s t) ev)
      ⟨fun hP t' ev' hev => by
        cases h.symm.trans hev
        exact hP, fun hP => hP t ev h⟩

/-- A lock attempt succeeds on a free mutex and times out on any other, also if the caller is the
owner. -/
@[simp] def Call.TimedLock (owner : M → Option T) : Call M C D → ThrdResult → Prop
  | tryLock m _, r => if owner m = none then r = .success else r = .timedout
  | _, _ => True

/-- Unlocking one of the mutexes in `o` succeeds. -/
@[simp] def Call.UnlockSucceeds (o : Set M) : Call M C D → ThrdResult → Prop
  | unlock m, r => m ∈ o → r = .success
  | _, _ => True

instance {o : Set M} [∀ m, Decidable (m ∈ o)] :
    (c : Call M C D) → (r : ThrdResult) → Decidable (c.UnlockSucceeds o r)
  | .unlock m, r => inferInstanceAs (Decidable (m ∈ o → r = .success))
  | .tryLock _ _, _ | .waitUntil _ _ _, _ | .notify _, _ => isTrue trivial

/-- Unlocking an owned mutex succeeds. -/
def Program.UnlocksSucceed (p : Program T M C D A R I E σ L) :
    State M σ L → Label T I E → Prop :=
  p.EveryReturn fun s t => Call.UnlockSucceeds {m | s.owner m = some t}

theorem Program.UnlocksSucceed.held (h : p.UnlocksSucceed s lab) {ev : Event I}
    (hev : lab.event = some (t, ev)) :
    (p.code t (s.loc t)).OnReturn (Call.UnlockSucceeds (p.held s t)) ev := by
  have ht := h t ev hev
  cases hc : p.code t (s.loc t) with
  | call c next =>
    rw [hc] at ht
    cases c with
    | unlock m =>
      cases ev with
      | ret r =>
        intro hm
        rcases hm with hm | ⟨-, hm⟩
        · exact ht hm
        · rw [hc] at hm
          exact hm.elim
      | act i => trivial
    | _ => cases ev <;> trivial
  | _ => trivial

/-! ## Steps -/

section Step

variable [DecidableEq T] [DecidableEq M]

inductive Step (p : Program T M C D A R I E σ L) :
    State M σ L → Label T I E → State M σ L → Prop
  | lock {s t m ms next} : s.status t = .ready →
      p.code t (s.loc t) = .call (.tryLock m ms) next → s.owner m = none →
      Step p s (.ret t .success) ((s.setOwner m (some t)).goto t (next .success))
  | lockFailed {s t m ms next r} : s.status t = .ready →
      p.code t (s.loc t) = .call (.tryLock m ms) next → r ≠ .success →
      Step p s (.ret t r) (s.goto t (next r))
  | unlock {s t m next} : s.status t = .ready →
      p.code t (s.loc t) = .call (.unlock m) next → s.owner m = some t →
      Step p s (.ret t .success) ((s.setOwner m none).goto t (next .success))
  | unlockFailed {s t m next r} : s.status t = .ready →
      p.code t (s.loc t) = .call (.unlock m) next → ¬(s.owner m = some t ∧ r = .success) →
      Step p s (.ret t r) (s.goto t (next r))
  | block {s t c m d next} : s.status t = .ready →
      p.code t (s.loc t) = .call (.waitUntil c m d) next →
      Step p s (.block t) ((s.release t m).setStatus t .blocked)
  | wake {s t r} : s.status t = .blocked → Step p s (.wake t r) (s.setStatus t (.woken r))
  | resume {s t c m d next r} : s.status t = .woken r →
      p.code t (s.loc t) = .call (.waitUntil c m d) next → s.owner m = none →
      Step p s (.resume t r) (((s.setOwner m (some t)).setStatus t .ready).goto t (next r))
  | signal {s t w c next} : s.status t = .ready →
      p.code t (s.loc t) = .call (.notify c) next → p.BlockedOn s w c →
      Step p s (.signal t .success (some w))
        ((s.setStatus w (.woken .success)).goto t (next .success))
  | signalNone {s t c next} : s.status t = .ready →
      p.code t (s.loc t) = .call (.notify c) next → (∀ w, ¬ p.BlockedOn s w c) →
      Step p s (.signal t .success none) (s.goto t (next .success))
  | signalFailed {s t c next r} : s.status t = .ready →
      p.code t (s.loc t) = .call (.notify c) next → r ≠ .success →
      Step p s (.signal t r none) (s.goto t (next r))
  | act {s t a next i} : s.status t = .ready → p.code t (s.loc t) = .act a next →
      Step p s (.act t i)
        ((s.setData (p.perform t a i s.data).1).goto t (next (p.perform t a i s.data).2))
  | sleep {s t ms next} : s.status t = .ready → p.code t (s.loc t) = .sleep ms next →
      Step p s (.sleep t) (s.goto t next)
  | env {s e} : Step p s (.env e) (s.setData (p.env e s.data))

/-- A step leaves the threads alone that do not act. -/
theorem Step.unchanged (h : Step p s lab s') (hu : lab.actor ≠ some u) :
    (∀ m, s'.owner m = some u ↔ s.owner m = some u) ∧
      (s'.status u = .ready ↔ s.status u = .ready) ∧ s'.loc u = s.loc u := by
  have hne : ∀ t, lab.actor = some t → u ≠ t := fun t ht hut => hu (hut ▸ ht)
  cases h with
  | @lock t m ms next hr hc hm =>
    have htu := hne t rfl
    refine ⟨fun n => ?_, by simp, State.loc_goto_of_ne _ _ htu⟩
    by_cases hn : n = m
    · subst hn
      simp [hm, htu.symm]
    · simp [hn]
  | @unlock t m next hr hc hm =>
    have htu := hne t rfl
    refine ⟨fun n => ?_, by simp, State.loc_goto_of_ne _ _ htu⟩
    by_cases hn : n = m
    · subst hn
      simp [hm, htu.symm]
    · simp [hn]
  | @block t c m d next hr hc =>
    have htu := hne t rfl
    refine ⟨fun n => s.owner_release_of_ne m n htu, ?_, by simp⟩
    rw [State.status_setStatus_of_ne _ _ htu, State.status_release]
  | @wake t r hb =>
    refine ⟨fun n => by simp, ?_, by simp⟩
    by_cases htu : u = t
    · subst htu
      simp [hb]
    · rw [State.status_setStatus_of_ne _ _ htu]
  | @resume t c m d next r hr hc hm =>
    have htu := hne t rfl
    refine ⟨fun n => ?_, ?_, ?_⟩
    · by_cases hn : n = m
      · subst hn
        simp [hm, htu.symm]
      · simp [hn]
    · rw [State.status_goto, State.status_setStatus_of_ne _ _ htu, State.status_setOwner]
    · rw [State.loc_goto_of_ne _ _ htu, State.loc_setStatus, State.loc_setOwner]
  | @signal t w c next hr hc hb =>
    have htu := hne t rfl
    refine ⟨fun n => by simp, ?_, ?_⟩
    · by_cases hw : u = w
      · subst hw
        simp [hb.1]
      · rw [State.status_goto, State.status_setStatus_of_ne _ _ hw]
    · rw [State.loc_goto_of_ne _ _ htu, State.loc_setStatus]
  | lockFailed | unlockFailed | signalNone | signalFailed | sleep =>
    exact ⟨fun n => by simp, by simp, State.loc_goto_of_ne _ _ (hne _ rfl)⟩
  | act => exact ⟨fun n => by simp, by simp, State.loc_goto_of_ne _ _ (hne _ rfl)⟩
  | env => exact ⟨fun n => by simp, by simp, rfl⟩

theorem Step.frame (h : Step p s lab s') (hu : lab.actor ≠ some u) :
    s'.loc u = s.loc u ∧ p.held s' u = p.held s u := by
  obtain ⟨howner, hstatus, hloc⟩ := h.unchanged hu
  exact ⟨hloc, held_congr howner hstatus hloc⟩

/-- A thread that has come to an action takes no other step. -/
theorem Step.eq_act {a : A} {next : R a → L t} (h : Step p s lab s') (hactor : lab.actor = some t)
    (hc : p.code t (s.loc t) = .act a next) :
    ∃ i, lab = .act t i ∧ s.status t = .ready ∧
      s' = (s.setData (p.perform t a i s.data).1).goto t (next (p.perform t a i s.data).2) := by
  cases h with
  | @act u b next' i hr hc' =>
    cases hactor
    cases hc.symm.trans hc'
    exact ⟨i, rfl, hr, rfl⟩
  | wake | env => cases hactor
  | lock _ hc' | lockFailed _ hc' | unlock _ hc' | unlockFailed _ hc' | block _ hc'
  | resume _ hc' | signal _ hc' | signalNone _ hc' | signalFailed _ hc' | sleep _ hc' =>
    cases hactor
    cases hc.symm.trans hc'

theorem Step.eq_sleep {ms : ℕ} {next : L t} (h : Step p s lab s') (hactor : lab.actor = some t)
    (hc : p.code t (s.loc t) = .sleep ms next) : lab = .sleep t := by
  cases h with
  | sleep _ _ =>
    cases hactor
    rfl
  | wake | env => cases hactor
  | lock _ hc' | lockFailed _ hc' | unlock _ hc' | unlockFailed _ hc' | block _ hc'
  | resume _ hc' | signal _ hc' | signalNone _ hc' | signalFailed _ hc' | act _ hc' =>
    cases hactor
    cases hc.symm.trans hc'

/-- What the acting thread finds at its next location. -/
theorem Step.post {Q : L t → Set M → σ → Prop} {allow : Event I → Prop} (h : Step p s lab s')
    (hactor : lab.actor = some t) (hallow : ∀ ev, lab.event = some (t, ev) → allow ev)
    (hwait : lab = .block t → ∀ m, (p.code t (s.loc t)).waitsWith m →
      Q (s.loc t) (insert m (p.held s t)) s.data)
    (hpost : (p.code t (s.loc t)).Post (p.perform t) allow Q (p.held s t) s.data) :
    Q (s'.loc t) (p.held s' t) s'.data := by
  cases h with
  | @lock t m ms next hr hc hm =>
    cases hactor
    rw [hc] at hpost
    have hnot : m ∉ p.held s t := by simp [mem_held_of_ready hr, hm]
    have hheld : p.held ((s.setOwner m (some t)).goto t (next .success)) t =
        insert m (p.held s t) := by
      ext n
      rw [mem_held_of_ready (by simpa using hr), Set.mem_insert_iff, mem_held_of_ready hr]
      by_cases hn : n = m <;> simp [hn]
    rw [hheld]
    simpa [Call.heldAfter] using hpost .success hnot (hallow _ rfl)
  | @lockFailed t m ms next r hr hc hne =>
    cases hactor
    rw [hc] at hpost
    rw [held_goto hr]
    cases r with
    | success => exact absurd rfl hne
    | timedout => simpa [Call.heldAfter] using hpost .timedout trivial (hallow _ rfl)
    | error => simpa [Call.heldAfter] using hpost .error trivial (hallow _ rfl)
  | @unlock t m next hr hc hm =>
    cases hactor
    rw [hc] at hpost
    have hheld : p.held ((s.setOwner m none).goto t (next .success)) t = p.held s t \ {m} := by
      ext n
      rw [mem_held_of_ready (by simpa using hr), Set.mem_sdiff, mem_held_of_ready hr]
      by_cases hn : n = m <;> simp [hn]
    rw [hheld]
    simpa [Call.heldAfter] using hpost .success trivial (hallow _ rfl)
  | @unlockFailed t m next r hr hc hne =>
    cases hactor
    rw [hc] at hpost
    rw [held_goto hr]
    cases r with
    | success =>
      have hnot : m ∉ p.held s t := by
        rw [mem_held_of_ready hr]
        exact fun hm => hne ⟨hm, rfl⟩
      have := hpost .success trivial (hallow _ rfl)
      rw [Call.heldAfter, Set.sdiff_singleton_eq_self hnot] at this
      simpa using this
    | timedout => simpa [Call.heldAfter] using hpost .timedout trivial (hallow _ rfl)
    | error => simpa [Call.heldAfter] using hpost .error trivial (hallow _ rfl)
  | @block t c m d next hr hc =>
    cases hactor
    have hheld : p.held ((s.release t m).setStatus t .blocked) t = insert m (p.held s t) := by
      ext n
      rw [Set.mem_insert_iff, mem_held_of_ready hr]
      simp only [Program.held, Set.mem_ofPred_eq, State.owner_setStatus, State.owner_release_self,
        State.status_setStatus_self, State.loc_setStatus, State.loc_release, hc, Instr.waitsWith]
      by_cases hn : n = m
      · simp [hn]
      · simp [hn, Ne.symm hn]
    rw [hheld]
    simpa [hc, Instr.waitsWith] using hwait rfl m
  | wake => cases hactor
  | @resume t c m d next r hr hc hm =>
    cases hactor
    rw [hc] at hpost
    have hheld : p.held (((s.setOwner m (some t)).setStatus t .ready).goto t (next r)) t =
        insert m (p.held s t) := by
      ext n
      rw [mem_held_of_ready (by simp), Set.mem_insert_iff]
      simp only [Program.held, Set.mem_ofPred_eq, State.owner_goto, State.owner_setStatus,
        State.owner_setOwner, hr, hc, Instr.waitsWith]
      by_cases hn : n = m
      · simp [hn]
      · simp [hn, Ne.symm hn]
    rw [hheld]
    simpa [Call.heldAfter] using hpost r trivial (hallow _ rfl)
  | @signal t w c next hr hc hb =>
    cases hactor
    rw [hc] at hpost
    have hw : t ≠ w := by
      rintro rfl
      simp [hb.1] at hr
    have hheld : p.held ((s.setStatus w (.woken .success)).goto t (next .success)) t =
        p.held s t := by
      ext n
      rw [mem_held_of_ready (by simpa [State.status_setStatus_of_ne _ _ hw] using hr),
        mem_held_of_ready hr]
      rfl
    rw [hheld]
    simpa [Call.heldAfter] using hpost .success trivial (hallow _ rfl)
  | @signalNone t c next hr hc hb =>
    cases hactor
    rw [hc] at hpost
    rw [held_goto hr]
    simpa [Call.heldAfter] using hpost .success trivial (hallow _ rfl)
  | @signalFailed t c next r hr hc hne =>
    cases hactor
    rw [hc] at hpost
    rw [held_goto hr]
    simpa [Call.heldAfter] using hpost r trivial (hallow _ rfl)
  | @act t a next i hr hc =>
    cases hactor
    rw [hc] at hpost
    have hheld : p.held (s.setData (p.perform t a i s.data).1) t = p.held s t := rfl
    rw [held_goto (by simpa using hr), hheld]
    simpa using hpost i (hallow _ rfl)
  | @sleep t ms next hr hc =>
    cases hactor
    rw [hc] at hpost
    rw [held_goto hr]
    simpa using hpost
  | env => cases hactor

/-! ## Proof outlines -/

/-- Every mutex is free and every thread is about to execute its first instruction. -/
def State.Idle (s : State M σ L) : Prop := (∀ m, s.owner m = none) ∧ ∀ t, s.status t = .ready

omit [DecidableEq T] [DecidableEq M] in
theorem State.Idle.held (h : s.Idle) (t : T) : p.held s t = ∅ := by
  ext m
  simp [Program.held, h.1, h.2]

/-- `Q t` annotates the text of `t`: the instructions of `t` establish it (`own`, `wait`), and the
actions of the other threads and of the environment keep it (`others`, `env`). Every premise may
use that the events satisfy `allow`. -/
structure Outline (p : Program T M C D A R I E σ L)
    (allow : (t : T) → L t → Set M → σ → Event I → Prop)
    (Q : (t : T) → L t → Set M → σ → Prop) : Prop where
  own : ∀ t l o d, Q t l o d →
    (p.code t l).Post (p.perform t) (allow t l o d) (Q t) o d
  wait : ∀ t l o d m, (p.code t l).waitsWith m → Q t l o d → Q t l (insert m o) d
  others : ∀ t u, t ≠ u → ∀ l l' o o' d a next i, Q t l o d → Q u l' o' d →
    p.code u l' = .act a next → allow u l' o' d (.act i) →
    (∀ m ∈ o, m ∈ o' → (p.code t l).waitsWith m) → Q t l o (p.perform u a i d).1
  env : ∀ t l o d e, Q t l o d → Q t l o (p.env e d)

variable {allow : (t : T) → L t → Set M → σ → Event I → Prop}
  {Q : (t : T) → L t → Set M → σ → Prop}

theorem Outline.step (hQ : Outline p allow Q) (h : Step p s lab s')
    (hallow : ∀ t ev, lab.event = some (t, ev) → allow t (s.loc t) (p.held s t) s.data ev)
    (hs : ∀ t, Q t (s.loc t) (p.held s t) s.data) (t : T) :
    Q t (s'.loc t) (p.held s' t) s'.data := by
  by_cases hactor : lab.actor = some t
  · exact h.post hactor (fun ev => hallow t ev) (fun _ m hm => hQ.wait t _ _ _ m hm (hs t))
      (hQ.own t _ _ _ (hs t))
  · obtain ⟨hloc, hheld⟩ := h.frame hactor
    rw [hloc, hheld]
    cases h with
    | @act u a next i hr hc =>
      have htu : t ≠ u := fun htu => hactor (by rw [htu]; rfl)
      refine hQ.others t u htu _ _ _ _ _ a next i (hs t) (hs u) hc (hallow u _ rfl) ?_
      intro m hm hm'
      rw [mem_held_of_ready hr] at hm'
      rcases hm with hm | ⟨-, hm⟩
      · rw [hm] at hm'
        exact absurd (Option.some.inj hm') htu
      · exact hm
    | env => exact hQ.env t _ _ _ _ (hs t)
    | block => simpa using hs t
    | _ => exact hs t

/-- The annotations of an outline hold in every reachable state. -/
theorem Reach.outline {init : State M σ L → Prop} {ok : State M σ L → Label T I E → Prop}
    (hQ : Outline p allow Q) (hinit : ∀ s, init s → s.Idle ∧ ∀ t, Q t (s.loc t) ∅ s.data)
    (hallow : ∀ s lab, Reach init (Step p) ok s → ok s lab → ∀ t ev,
      lab.event = some (t, ev) → allow t (s.loc t) (p.held s t) s.data ev)
    (h : Reach init (Step p) ok s) : ∀ t, Q t (s.loc t) (p.held s t) s.data := by
  refine h.invariant (fun s hs t => ?_) fun s lab s' hr hs hok hstep =>
    hQ.step hstep (hallow s lab hr hok) hs
  obtain ⟨hidle, hstart⟩ := hinit s hs
  rw [hidle.held]
  exact hstart t

/-! ## Execution -/

/-- The step with a given label, as a function. -/
def Program.exec [Fintype T] [DecidableEq C] (p : Program T M C D A R I E σ L)
    (s : State M σ L) : Label T I E → Option (State M σ L)
  | .ret t r =>
    if s.status t = .ready then
      match p.code t (s.loc t) with
      | .call (.tryLock m _) next =>
        if r ≠ .success then some (s.goto t (next r))
        else if s.owner m = none then some ((s.setOwner m (some t)).goto t (next .success))
        else none
      | .call (.unlock m) next =>
        if s.owner m = some t ∧ r = .success then
          some ((s.setOwner m none).goto t (next .success))
        else some (s.goto t (next r))
      | _ => none
    else none
  | .block t =>
    if s.status t = .ready then
      match p.code t (s.loc t) with
      | .call (.waitUntil _ m _) _ => some ((s.release t m).setStatus t .blocked)
      | _ => none
    else none
  | .wake t r => if s.status t = .blocked then some (s.setStatus t (.woken r)) else none
  | .resume t r =>
    if s.status t = .woken r then
      match p.code t (s.loc t) with
      | .call (.waitUntil _ m _) next =>
        if s.owner m = none then
          some (((s.setOwner m (some t)).setStatus t .ready).goto t (next r))
        else none
      | _ => none
    else none
  | .signal t r woken =>
    if s.status t = .ready then
      match p.code t (s.loc t), woken with
      | .call (.notify c) next, some w =>
        if s.status w = .blocked ∧ (p.code w (s.loc w)).waitsOn c ∧ r = .success then
          some ((s.setStatus w (.woken .success)).goto t (next .success))
        else none
      | .call (.notify c) next, none =>
        if r ≠ .success ∨ ∀ w, ¬(s.status w = .blocked ∧ (p.code w (s.loc w)).waitsOn c) then
          some (s.goto t (next r))
        else none
      | _, _ => none
    else none
  | .act t i =>
    if s.status t = .ready then
      match p.code t (s.loc t) with
      | .act a next =>
        some ((s.setData (p.perform t a i s.data).1).goto t (next (p.perform t a i s.data).2))
      | _ => none
    else none
  | .sleep t =>
    if s.status t = .ready then
      match p.code t (s.loc t) with
      | .sleep _ next => some (s.goto t next)
      | _ => none
    else none
  | .env e => some (s.setData (p.env e s.data))

theorem Program.exec_step [Fintype T] [DecidableEq C] (h : p.exec s lab = some s') :
    Step p s lab s' := by
  cases lab with
  | ret t r =>
    simp only [Program.exec] at h
    split at h <;> [rename_i hr; cases h]
    split at h
    · rename_i m ms next hc
      by_cases hne : r = .success
      · subst hne
        split at h <;> rename_i hm
        · exact absurd rfl hm
        · split at h <;> rename_i hm <;> cases h
          exact .lock hr hc hm
      · rw [if_pos hne] at h
        cases h
        exact .lockFailed hr hc hne
    · rename_i m next hc
      split at h <;> rename_i hm <;> cases h
      · obtain ⟨hm, rfl⟩ := hm
        exact .unlock hr hc hm
      · exact .unlockFailed hr hc hm
    · cases h
  | block t =>
    simp only [Program.exec] at h
    split at h <;> [rename_i hr; cases h]
    split at h <;> [rename_i hc; cases h]
    cases h
    exact .block hr hc
  | wake t r =>
    simp only [Program.exec] at h
    split at h <;> rename_i hb <;> cases h
    exact .wake hb
  | resume t r =>
    simp only [Program.exec] at h
    split at h <;> [rename_i hr; cases h]
    split at h <;> [rename_i hc; cases h]
    split at h <;> rename_i hm <;> cases h
    exact .resume hr hc hm
  | signal t r woken =>
    simp only [Program.exec] at h
    split at h <;> [rename_i hr; cases h]
    split at h
    · rename_i w c next hc
      split at h <;> rename_i hw <;> cases h
      obtain ⟨hb, hc', rfl⟩ := hw
      exact .signal hr hc ⟨hb, hc'⟩
    · rename_i c next hc
      split at h <;> rename_i hw <;> cases h
      by_cases hne : r = .success
      · subst hne
        exact .signalNone hr hc (hw.resolve_left (· rfl))
      · exact .signalFailed hr hc hne
    · cases h
  | act t i =>
    simp only [Program.exec] at h
    split at h <;> [rename_i hr; cases h]
    split at h <;> [rename_i hc; cases h]
    cases h
    exact .act hr hc
  | sleep t =>
    simp only [Program.exec] at h
    split at h <;> [rename_i hr; cases h]
    split at h <;> [rename_i hc; cases h]
    cases h
    exact .sleep hr hc
  | env e =>
    cases h
    exact .env

end Step

end Threads
