import Mathlib.Tactic.Common

/-!
# Labelled transition systems and their runs

A system is a set of initial states and a labelled step relation. `Reach init step ok` is the set
of states reached by runs all of whose steps meet the condition `ok`, a condition on the state
before the step and the label. `Reach.invariant` is the only induction over runs that is needed:
an invariant may use, at each step, that the state before is reached and that the step meets the
condition.

A run may remember what happened in it (`Recorded`). Every run can be told with such a memory, and
is a run without it. Two memories may be kept at once (`recordBoth`).

A function that takes one allowed step for each input gives runs that evaluate (`execAll`), and a
run that evaluates reaches its last state (`Reach.execAll`).
-/

section Transition

variable {S L : Type*} {init : S → Prop} {step : S → L → S → Prop} {ok ok' : S → L → Prop}

/-- The states reached by runs whose steps all meet `ok`. -/
inductive Reach (init : S → Prop) (step : S → L → S → Prop) (ok : S → L → Prop) : S → Prop
  | start {s : S} : init s → Reach init step ok s
  | next {s s' : S} {l : L} : Reach init step ok s → ok s l → step s l s' → Reach init step ok s'

theorem Reach.mono {s : S} (h : Reach init step ok s)
    (himp : ∀ s l, Reach init step ok s → ok s l → ok' s l) : Reach init step ok' s := by
  induction h with
  | start h => exact .start h
  | next hr hok hs ih => exact .next ih (himp _ _ hr hok) hs

/-- A property that holds initially and is kept by every allowed step of a reached state holds
in every reached state. -/
theorem Reach.invariant {I : S → Prop} {s : S} (h : Reach init step ok s)
    (h₀ : ∀ s, init s → I s)
    (hstep : ∀ s l s', Reach init step ok s → I s → ok s l → step s l s' → I s') : I s := by
  induction h with
  | start h => exact h₀ _ h
  | next hr hok hs ih => exact hstep _ _ _ hr ih hok hs

/-- A step, with what `record` makes of the memory. -/
def Recorded {H : Type*} (record : S → L → H → H) (step : S → L → S → Prop) (x : S × H) (l : L)
    (x' : S × H) : Prop :=
  step x.1 l x'.1 ∧ x'.2 = record x.1 l x.2

theorem Reach.recorded {H : Type*} (record : S → L → H → H) (h₀ : H) {s : S}
    (h : Reach init step ok s) :
    ∃ m, Reach (fun x => init x.1 ∧ x.2 = h₀) (Recorded record step) (fun x l => ok x.1 l)
      (s, m) := by
  induction h with
  | start h => exact ⟨h₀, .start ⟨h, rfl⟩⟩
  | @next s s' l hr hok hs ih =>
    obtain ⟨m, hm⟩ := ih
    exact ⟨record s l m, hm.next hok ⟨hs, rfl⟩⟩

theorem Reach.unrecorded {H : Type*} {record : S → L → H → H} {h₀ : H} {x : S × H}
    (h : Reach (fun x => init x.1 ∧ x.2 = h₀) (Recorded record step) (fun x l => ok x.1 l) x) :
    Reach init step ok x.1 := by
  induction h with
  | start h => exact .start h.1
  | next _ hok hs ih => exact ih.next hok hs.1

/-- A function that takes allowed steps of one system to allowed steps of another. -/
theorem Reach.map {S' : Type*} {init' : S' → Prop} {step' : S' → L → S' → Prop}
    {ok' : S' → L → Prop} {s : S} (h : Reach init step ok s) (f : S → S')
    (hinit : ∀ s, init s → init' (f s))
    (hstep : ∀ s l s', ok s l → step s l s' → ok' (f s) l ∧ step' (f s) l (f s')) :
    Reach init' step' ok' (f s) := by
  induction h with
  | start h => exact .start (hinit _ h)
  | next _ hok hs ih =>
    obtain ⟨hok', hs'⟩ := hstep _ _ _ hok hs
    exact ih.next hok' hs'

/-- Two memories at once. -/
def recordBoth {H₁ H₂ : Type*} (r₁ : S → L → H₁ → H₁) (r₂ : S → L → H₂ → H₂) (s : S) (l : L)
    (m : H₁ × H₂) : H₁ × H₂ :=
  (r₁ s l m.1, r₂ s l m.2)

section

variable {H₁ H₂ : Type*} {I : S → Prop} {r₁ : S → L → H₁ → H₁} {r₂ : S → L → H₂ → H₂} {m₁ : H₁}
  {m₂ : H₂} {x : S × H₁ × H₂}

theorem Reach.memory_fst (h : Reach (fun x => I x.1 ∧ x.2 = (m₁, m₂))
    (Recorded (recordBoth r₁ r₂) step) (fun x l => ok x.1 l) x) :
    Reach (fun x => I x.1 ∧ x.2 = m₁) (Recorded r₁ step) (fun x l => ok x.1 l)
      (x.1, x.2.1) := by
  refine h.map (fun x => (x.1, x.2.1)) (fun x hx => ?_) fun x l x' hok hs => ?_
  · exact ⟨hx.1, congrArg Prod.fst hx.2⟩
  · exact ⟨hok, hs.1, congrArg Prod.fst hs.2⟩

theorem Reach.memory_snd (h : Reach (fun x => I x.1 ∧ x.2 = (m₁, m₂))
    (Recorded (recordBoth r₁ r₂) step) (fun x l => ok x.1 l) x) :
    Reach (fun x => I x.1 ∧ x.2 = m₂) (Recorded r₂ step) (fun x l => ok x.1 l)
      (x.1, x.2.2) := by
  refine h.map (fun x => (x.1, x.2.2)) (fun x hx => ?_) fun x l x' hok hs => ?_
  · exact ⟨hx.1, congrArg Prod.snd hx.2⟩
  · exact ⟨hok, hs.1, congrArg Prod.snd hs.2⟩

end

/-- Run a partial function along a list of inputs. -/
def execAll {X : Type*} (f : S → X → Option S) : S → List X → Option S
  | s, [] => some s
  | s, x :: xs => (f s x).bind fun s' => execAll f s' xs

/-- A function that takes allowed steps leads to reached states. -/
theorem Reach.execAll {X : Type*} {f : S → X → Option S}
    (hf : ∀ s x s', f s x = some s' → ∃ l, ok s l ∧ step s l s') {s s' : S}
    (h : Reach init step ok s) {xs : List X} (he : execAll f s xs = some s') :
    Reach init step ok s' := by
  induction xs generalizing s with
  | nil =>
    obtain rfl := Option.some.inj he
    exact h
  | cons x xs ih =>
    obtain ⟨s₁, h₁, he'⟩ := Option.bind_eq_some_iff.1 he
    obtain ⟨l, hok, hs⟩ := hf s x s₁ h₁
    exact ih (h.next hok hs) he'

end Transition
