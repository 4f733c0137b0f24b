import CpuUsageTracker.Library.Threads

/-!
# No lost wake-up

One thread, the waiter, waits on a condition variable `c` for the end of a condition on the data.
Another one, the signaller, ends the condition while it owns a mutex `m`, and signals `c`
afterwards: between the two steps its location is `pending`. The waiter knows at some of its
locations that the condition holds, because it has tested it and still owns `m`.

**Theorem (`Signalling.signal_pending`).** In every reachable state in which the waiter is
blocked on `c`, the condition holds or the signaller's location is `pending`.

The proof is an invariant with two parts: what a waiter that is not waiting knows, and the
statement itself. Blocking leads from the first to the second.
-/

namespace Threads

variable {T M C D A I E σ K K' : Type} {R : A → Type} {L : T → Type}

/-- Signalling succeeds. -/
@[simp] def Call.NotifySucceeds : Call M C D → ThrdResult → Prop
  | notify _, r => r = .success
  | _, _ => True

/-- A call that belongs to sending a signal succeeds. -/
@[simp] def Call.Sent : Call M C D → ThrdResult → Prop
  | unlock _, r | notify _, r => r = .success
  | _, _ => True

/-- If `c` is not signalled here, the signal is still pending at the next location. -/
def Instr.Sends (c : C) (pending : K → Prop) : Instr M C D A R K → Prop
  | call (.notify c') next => c' = c ∨ pending (next .success)
  | call (.unlock _) next => pending (next .success)
  | call _ next => ∀ r, pending (next r)
  | act _ next => ∀ x, pending (next x)
  | sleep _ next => pending next
  | exit => True

theorem Instr.sends_of_forall {c : C} {pending : K → Prop} (h : ∀ k, pending k)
    (g : Instr M C D A R K) : g.Sends c pending := by
  cases g with
  | call x next =>
    cases x with
    | notify c' => exact .inr (h _)
    | unlock m => exact h _
    | _ => exact fun r => h _
  | act a next => exact fun x => h _
  | sleep ms next => exact h _
  | exit => trivial

@[simp] theorem Instr.sends_map {c : C} {pending : K' → Prop} (f : K → K')
    (g : Instr M C D A R K) : (g.map f).Sends c pending ↔ g.Sends c fun k => pending (f k) := by
  rcases g with (_ | _ | _ | _) | _ | _ | _ <;> rfl

variable [DecidableEq T] [DecidableEq M] {p : Program T M C D A R I E σ L}
  {s s' : State M σ L} {lab : Label T I E} {t u w : T} {c : C}

/-- A step of a thread with a pending signal keeps it pending or sends it. -/
theorem Step.sends {pending : L u → Prop} (h : Step p s lab s') (hactor : lab.actor = some u)
    (hsent : ∀ ev, lab.event = some (u, ev) → (p.code u (s.loc u)).OnReturn Call.Sent ev)
    (hp : pending (s.loc u)) (hsends : (p.code u (s.loc u)).Sends c pending) :
    pending (s'.loc u) ∨ ∃ next x, p.code u (s.loc u) = .call (.notify c) next ∧
      lab = .signal u .success x := by
  cases h with
  | @lock t m ms next hr hc hm =>
    cases hactor
    rw [hc] at hsends
    refine .inl ?_
    rw [State.loc_goto_self]
    exact hsends .success
  | @lockFailed t m ms next r hr hc hne =>
    cases hactor
    rw [hc] at hsends
    refine .inl ?_
    rw [State.loc_goto_self]
    exact hsends r
  | @unlock t m next hr hc hm =>
    cases hactor
    rw [hc] at hsends
    refine .inl ?_
    rw [State.loc_goto_self]
    exact hsends
  | @unlockFailed t m next r hr hc hne =>
    cases hactor
    have hret := hsent _ rfl
    rw [hc] at hsends hret
    obtain rfl : r = .success := hret
    refine .inl ?_
    rw [State.loc_goto_self]
    exact hsends
  | @block t c' m d next hr hc =>
    cases hactor
    exact .inl (by simpa using hp)
  | @resume t c' m d next r hr hc hm =>
    cases hactor
    rw [hc] at hsends
    refine .inl ?_
    rw [State.loc_goto_self]
    exact hsends r
  | @signal t w c' next hr hc hb =>
    cases hactor
    rw [hc] at hsends
    rcases hsends with rfl | hsends
    · exact .inr ⟨next, _, hc, rfl⟩
    · refine .inl ?_
      rw [State.loc_goto_self]
      exact hsends
  | @signalNone t c' next hr hc hb =>
    cases hactor
    rw [hc] at hsends
    rcases hsends with rfl | hsends
    · exact .inr ⟨next, _, hc, rfl⟩
    · refine .inl ?_
      rw [State.loc_goto_self]
      exact hsends
  | @signalFailed t c' next r hr hc hne =>
    cases hactor
    have hret := hsent _ rfl
    rw [hc] at hret
    exact absurd hret hne
  | @act t a next i hr hc =>
    cases hactor
    rw [hc] at hsends
    refine .inl ?_
    rw [State.loc_goto_self]
    exact hsends _
  | @sleep t ms next hr hc =>
    cases hactor
    rw [hc] at hsends
    refine .inl ?_
    rw [State.loc_goto_self]
    exact hsends
  | wake | env => cases hactor

/-- A thread that is blocked after the step of another one was blocked before. -/
theorem Step.blocked_of_blocked (h : Step p s lab s') (hactor : lab.actor ≠ some w)
    (hb : s'.status w = .blocked) : s.status w = .blocked := by
  have hne : ∀ t, lab.actor = some t → w ≠ t := fun t ht hwt => hactor (hwt ▸ ht)
  cases h with
  | @block t c m d next hr hc =>
    rwa [State.status_setStatus_of_ne _ _ (hne t rfl), State.status_release] at hb
  | @wake t r ht =>
    by_cases hwt : w = t
    · subst hwt
      exact ht
    · rwa [State.status_setStatus_of_ne _ _ hwt] at hb
  | @resume t c m d next r hr hc hm =>
    rwa [State.status_goto, State.status_setStatus_of_ne _ _ (hne t rfl)] at hb
  | @signal t v c next hr hc hv =>
    by_cases hwv : w = v
    · subst hwv
      exact hv.1
    · rwa [State.status_goto, State.status_setStatus_of_ne _ _ hwv] at hb
  | _ => exact hb

/-- A thread that takes a step and does not block is ready afterwards, and it was ready before
unless it was waiting. -/
theorem Step.ready_of_actor (h : Step p s lab s') (hactor : lab.actor = some w)
    (hblock : lab ≠ .block w) :
    s'.status w = .ready ∧ (s.status w = .ready ∨ ∃ c, (p.code w (s.loc w)).waitsOn c) := by
  cases h with
  | block hr hc =>
    cases hactor
    exact absurd rfl hblock
  | @resume t c m d next r hr hc hm =>
    cases hactor
    refine ⟨by simp, .inr ⟨c, ?_⟩⟩
    rw [hc]
    rfl
  | @signal t v c next hr hc hv =>
    cases hactor
    have hne : w ≠ v := by
      rintro rfl
      simp [hv.1] at hr
    exact ⟨by simpa [State.status_setStatus_of_ne _ _ hne] using hr, .inl hr⟩
  | lock hr | lockFailed hr | unlock hr | unlockFailed hr | signalNone hr | signalFailed hr | act hr
  | sleep hr =>
    cases hactor
    exact ⟨by simpa using hr, .inl hr⟩
  | wake | env => cases hactor

/-- Only actions and the environment change the data. -/
theorem Step.data_eq (h : Step p s lab s') (hact : ∀ t i, lab ≠ .act t i)
    (henv : ∀ e, lab ≠ .env e) : s'.data = s.data := by
  cases h with
  | act => exact absurd rfl (hact _ _)
  | env => exact absurd rfl (henv _)
  | _ => simp

/-- What a step does to the data. -/
theorem Step.data_cases (h : Step p s lab s') :
    s'.data = s.data ∨
    (∃ t i a next, lab = .act t i ∧ p.code t (s.loc t) = .act a next ∧
      s'.data = (p.perform t a i s.data).1) ∨
    ∃ e, lab = .env e ∧ s'.data = p.env e s.data := by
  cases h with
  | @act t a next i hr hc => exact .inr (.inl ⟨t, i, a, next, rfl, hc, rfl⟩)
  | @env e => exact .inr (.inr ⟨e, rfl, rfl⟩)
  | _ => exact .inl (by simp)

/-- How the waiter and the signaller use the condition variable and the mutex. -/
structure Signalling (p : Program T M C D A R I E σ L) (init : State M σ L → Prop)
    (ok : State M σ L → Label T I E → Prop) (waiter signaller : T) (c : C) (m : M)
    (cond : σ → Prop) (knows : L waiter → Prop) (pending : L signaller → Prop) : Prop where
  ne : waiter ≠ signaller
  only_waiter : ∀ t l, (p.code t l).waitsOn c → t = waiter
  knows_wait : ∀ l, (p.code waiter l).waitsOn c → knows l
  owner : ∀ s, Reach init (Step p) ok s → s.status waiter = .ready → knows (s.loc waiter) →
    s.owner m = some waiter
  learns : ∀ l o d, ((∀ c', ¬(p.code waiter l).waitsOn c') → knows l → cond d) →
    (p.code waiter l).Post (p.perform waiter) (fun _ => True) (fun l _ d => knows l → cond d) o d
  keeps : ∀ s t a next i, Reach init (Step p) ok s → t ≠ signaller →
    p.code t (s.loc t) = .act a next → cond s.data → cond (p.perform t a i s.data).1
  ends : ∀ s a next i, Reach init (Step p) ok s → ok s (.act signaller i) →
    p.code signaller (s.loc signaller) = .act a next → cond s.data →
    ¬cond (p.perform signaller a i s.data).1 → s.owner m = some signaller ∧
      (p.BlockedOn s waiter c → pending (next (p.perform signaller a i s.data).2))
  env : ∀ e d, cond d → cond (p.env e d)
  sends : ∀ l, pending l → (p.code signaller l).Sends c pending
  sent : ∀ s lab ev, Reach init (Step p) ok s → ok s lab → lab.event = some (signaller, ev) →
    (p.code signaller (s.loc signaller)).OnReturn Call.Sent ev

variable {init : State M σ L → Prop} {ok : State M σ L → Label T I E → Prop} {m : M}
  {cond : σ → Prop} {knows : L w → Prop} {pending : L u → Prop}

namespace Signalling

/-- What a waiter that is not waiting knows, and that no wake-up is lost. -/
structure Inv (p : Program T M C D A R I E σ L) (c : C) (cond : σ → Prop) (knows : L w → Prop)
    (pending : L u → Prop) (s : State M σ L) : Prop where
  known : s.status w = .ready → knows (s.loc w) → cond s.data
  blocked : p.BlockedOn s w c → cond s.data ∨ pending (s.loc u)

/-- The waiter's own steps. -/
theorem inv_own (h : Signalling p init ok w u c m cond knows pending) (hstep : Step p s lab s')
    (hactor : lab.actor = some w) (hs : Inv p c cond knows pending s) :
    Inv p c cond knows pending s' := by
  by_cases hblock : lab = .block w
  · subst hblock
    cases hstep with
    | @block t c' n d next hr hc =>
      refine ⟨fun hready => ?_, fun hb => .inl ?_⟩
      · simp at hready
      · simp only [Program.BlockedOn, State.loc_setStatus, State.loc_release] at hb
        simpa using hs.known hr (h.knows_wait _ hb.2)
  · obtain ⟨hready', hready⟩ := hstep.ready_of_actor hactor hblock
    refine ⟨fun _ => ?_, fun hb => ?_⟩
    · refine hstep.post (Q := fun l _ d => knows l → cond d) hactor (fun _ _ => trivial)
        (fun hlab => absurd hlab hblock) (h.learns _ _ _ fun hnot hk => ?_)
      rcases hready with hready | ⟨c', hwaits⟩
      · exact hs.known hready hk
      · exact absurd hwaits (hnot c')
    · cases hready'.symm.trans hb.1

/-- The actions of the other threads. -/
theorem inv_act (h : Signalling p init ok w u c m cond knows pending) {a : A} {i : I}
    {next : R a → L t} (hr : Reach init (Step p) ok s) (hok : ok s (.act t i))
    (hc : p.code t (s.loc t) = .act a next) (hne : w ≠ t)
    (hs : Inv p c cond knows pending s) :
    Inv p c cond knows pending
      ((s.setData (p.perform t a i s.data).1).goto t (next (p.perform t a i s.data).2)) := by
  have hloc : ∀ d l, ((s.setData d).goto t l).loc w = s.loc w :=
    fun d l => State.loc_goto_of_ne _ _ hne
  refine ⟨fun hready hk => ?_, fun hb => ?_⟩
  · rw [hloc] at hk
    have hcond := hs.known hready hk
    by_cases htu : t = u
    · subst htu
      by_contra hnot
      obtain ⟨howner, -⟩ := h.ends s a next i hr hok hc hcond hnot
      rw [h.owner s hr hready hk] at howner
      exact hne (Option.some.inj howner)
    · exact h.keeps s t a next i hr htu hc hcond
  · have hb' : p.BlockedOn s w c := by
      unfold Program.BlockedOn at hb ⊢
      rwa [hloc] at hb
    by_cases htu : t = u
    · subst htu
      rw [State.loc_goto_self]
      rcases hs.blocked hb' with hcond | hp
      · by_cases hcond' : cond (p.perform t a i s.data).1
        · exact .inl hcond'
        · exact .inr ((h.ends s a next i hr hok hc hcond hcond').2 hb')
      · have hsends := h.sends _ hp
        rw [hc] at hsends
        exact .inr (hsends _)
    · rw [State.loc_goto_of_ne _ _ (Ne.symm htu)]
      exact (hs.blocked hb').imp_left (h.keeps s t a next i hr htu hc)

/-- The other steps of the other threads, which leave the data alone. -/
theorem inv_call (h : Signalling p init ok w u c m cond knows pending)
    (hr : Reach init (Step p) ok s) (hok : ok s lab) (hstep : Step p s lab s')
    (hactor : lab.actor ≠ some w) (hdata : s'.data = s.data)
    (hs : Inv p c cond knows pending s) : Inv p c cond knows pending s' := by
  obtain ⟨-, hstatus, hloc⟩ := hstep.unchanged hactor
  refine ⟨fun hready hk => ?_, fun hb => ?_⟩
  · rw [hloc] at hk
    rw [hdata]
    exact hs.known (hstatus.1 hready) hk
  · have hb' : p.BlockedOn s w c := ⟨hstep.blocked_of_blocked hactor hb.1, hloc ▸ hb.2⟩
    rw [hdata]
    rcases hs.blocked hb' with hcond | hp
    · exact .inl hcond
    · by_cases hu : lab.actor = some u
      · rcases hstep.sends hu (fun ev hev => h.sent s lab ev hr hok hev) hp (h.sends _ hp) with
          hp | ⟨next, x, hc, rfl⟩
        · exact .inr hp
        · -- the signal wakes the waiter, since nobody else waits on `c`
          cases hstep with
          | @signal t v c' next' hready hc' hv =>
            rw [hc] at hc'
            cases hc'
            obtain rfl := h.only_waiter v _ hv.2
            simp [Program.BlockedOn] at hb
          | @signalNone t c' next' hready hc' hnone =>
            rw [hc] at hc'
            cases hc'
            exact absurd hb' (hnone w)
          | signalFailed hready hc' hne => exact absurd rfl hne
      · rw [(hstep.unchanged hu).2.2]
        exact .inr hp

end Signalling

/-- No wake-up is lost. -/
theorem Signalling.signal_pending (h : Signalling p init ok w u c m cond knows pending)
    (hinit : ∀ s, init s → s.Idle ∧ ¬knows (s.loc w)) (hr : Reach init (Step p) ok s)
    (hb : p.BlockedOn s w c) : cond s.data ∨ pending (s.loc u) := by
  have hinv : Inv p c cond knows pending s := by
    refine hr.invariant (fun s hs => ⟨fun _ hk => ?_, fun hb => ?_⟩)
      fun s lab s' hr hs hok hstep => ?_
    · exact absurd hk (hinit s hs).2
    · cases ((hinit s hs).1.2 w).symm.trans hb.1
    · by_cases hactor : lab.actor = some w
      · exact h.inv_own hstep hactor hs
      · cases lab with
        | act t i =>
          cases hstep with
          | act hready hc => exact h.inv_act hr hok hc (fun hwt => hactor (by rw [hwt]; rfl)) hs
        | env e =>
          cases hstep with
          | env => exact ⟨fun hready hk => h.env _ _ (hs.known hready hk),
              fun hb => (hs.blocked hb).imp_left (h.env _ _)⟩
        | _ => exact h.inv_call hr hok hstep hactor (hstep.data_eq (by simp) (by simp)) hs
  exact hinv.blocked hb

end Threads
