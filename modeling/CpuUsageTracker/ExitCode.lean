import CpuUsageTracker.System

/-!
# The watchdog's exit code

The watchdog reads the kill switch three times: in the loop's condition, before it raises the kill
switch, and right after that, when it selects the exit code. The third read selects `iiOldest + 1`
if the kill switch is on, but the watchdog has not raised it yet. So the code is that of a thread
only if somebody else has activated the kill switch since the second read.

**Theorem (`exitCode_names_culprit`).** In every run in which that is so whenever the third read
takes place, and in which the final unlock succeeds, the exit code is `iiOldest + 1` if the loop
was left because thread `iiOldest` was unresponsive, and 0 if it was left because the kill switch
was on.

**Theorem (`exitCode_eq`).** Without the first condition, the exit code is `iiOldest + 1` or 0
according to the third read, and negative if the watchdog did not get to its loop.

The runs remember why the loop was left (`Departure`), and the kill switch at the third read. The
invariant relates this to the watchdog's location (`WatchdogPc.Agrees`).
-/

namespace CpuUsageTracker

open Threads

variable {ω V : Type}

/-! ## Why the loop is left -/

/-- `killed` is the kill switch at the third read. -/
inductive Departure
  | unresponsive (iiOldest : ℕ) (killed : Bool)
  | killSwitch
  deriving DecidableEq, Repr

namespace Departure

/-- The exit code that names the culprit. -/
def culprit : Departure → ℤ
  | unresponsive iiOldest _ => iiOldest + 1
  | killSwitch => 0

/-- The exit code of the program. -/
def retval : Departure → ℤ
  | unresponsive iiOldest true => iiOldest + 1
  | unresponsive _ false => 0
  | killSwitch => 0

theorem retval_eq_culprit_iff (d : Departure) :
    d.retval = d.culprit ↔ ∀ ii, d ≠ unresponsive ii false := by
  cases d with
  | unresponsive ii killed =>
    cases killed with
    | false =>
      refine iff_of_false ?_ fun h => h ii rfl
      show ¬(0 : ℤ) = ii + 1
      omega
    | true => exact iff_of_true rfl fun ii' h => by cases h
  | killSwitch => exact iff_of_true rfl fun ii h => by cases h

end Departure

/-- The departure that an instruction of the watchdog decides on. -/
def departure (killSwitch : Bool) : WatchdogPc → Option Departure
  | .head _ => if killSwitch then some .killSwitch else none
  | .retval iiOldest => some (.unresponsive iiOldest killSwitch)
  | _ => none

def WatchdogPc.Agrees (departed : Option Departure) : WatchdogPc → Prop
  | .raise ii code =>
    ∃ killed, departed = some (.unresponsive ii killed) ∧
      code = (Departure.unresponsive ii killed).retval
  | .finalUnlock code => ∃ d, departed = some d ∧ code = d.retval
  | .exited code => (∃ d, departed = some d ∧ code = d.retval) ∨ departed = none ∧ code < 0
  | _ => departed = none

def WatchdogPc.isFinalUnlock : WatchdogPc → Bool
  | finalUnlock _ => true
  | _ => false

def WatchdogPc.isRetval : WatchdogPc → Bool
  | retval _ => true
  | _ => false

/-- Only the third read makes a thread the culprit. -/
theorem isRetval_of_departure {killSwitch killed : Bool} {pc : WatchdogPc} {ii : ℕ}
    (h : departure killSwitch pc = some (.unresponsive ii killed)) :
    pc.isRetval = true ∧ killSwitch = killed := by
  cases pc with
  | retval ii' =>
    cases h
    exact ⟨rfl, rfl⟩
  | head tp => cases killSwitch <;> cases h
  | _ => cases h

theorem Watchdog.check_agrees (now : Timespec) (timestamps : ThreadId → Timespec) :
    (check now timestamps).pc.Agrees none := by
  simp only [check]
  split <;> rfl

theorem Watchdog.agrees [DecidableEq ω] {pc : WatchdogPc} {departed : Option Departure}
    {d : Data ω V} (o : Set Mutex) {allow : Event (Input V) → Prop}
    (hallow : ∀ r, allow (.ret r) → pc.isFinalUnlock = true → r = .success)
    (h : pc.Agrees departed) :
    (code pc : Code V _).Post (Data.perform .watchdog) allow
      (fun l _ _ => l.pc.Agrees ((departure d.killSwitch pc).or departed)) o d := by
  cases pc with
  | threadInfoSet =>
    intro i _
    simp only
    split
    · exact h
    · exact .inr ⟨h, by decide⟩
  | startTime | now => exact fun i _ => h
  | lock now =>
    intro r _ _
    simp only
    split
    · exact h
    · exact .inr ⟨h, by decide⟩
  | initTimestamps now | setTimestamp now => exact fun i _ => h
  | head tp =>
    intro i _
    show WatchdogPc.Agrees ((if d.killSwitch = true then some .killSwitch else none).or departed)
      (if d.killSwitch = true then Control.goto (.finalUnlock 0) else .goto (.wait tp)).pc
    by_cases hkilled : d.killSwitch = true
    · rw [if_pos hkilled, if_pos hkilled]
      exact ⟨.killSwitch, rfl, rfl⟩
    · rw [if_neg hkilled, if_neg hkilled]
      exact h
  | wait tp =>
    intro r _ _
    cases r with
    | success | timedout | error => exact h
  | findOldest now =>
    intro i _
    obtain rfl : departed = none := h
    exact check_agrees now _
  | killTest ii oldest =>
    intro i _
    simp only
    split <;> exact h
  | retval ii =>
    intro i _
    refine ⟨d.killSwitch, rfl, ?_⟩
    show (if d.killSwitch = true then (ii + 1 : ℤ) else 0) = _
    by_cases hkilled : d.killSwitch = true
    · rw [if_pos hkilled, hkilled]
      rfl
    · rw [if_neg hkilled, Bool.eq_false_of_not_eq_true hkilled]
      rfl
  | raise ii retval =>
    obtain ⟨killed, hdeparted, hretval⟩ := h
    intro i _
    simp only
    split <;> exact ⟨_, hdeparted, hretval⟩
  | finalUnlock retval =>
    intro r _ hr
    obtain rfl := hallow r hr rfl
    exact .inl h
  | exited retval => trivial

/-! ## Runs -/

variable [DecidableEq ω] [PercentageValue V]

/-- What a step adds to the memory. -/
def recordDeparture (s : SysState ω V) (lab : SysLabel ω V) (departed : Option Departure) :
    Option Departure :=
  if lab.actor = some .watchdog ∧ (s.loc .watchdog).calls = [] then
    (departure s.data.killSwitch (s.loc .watchdog).pc).or departed
  else departed

/-- The states reached by runs whose steps all meet `ok`, each with the watchdog's departure, if
it has left its loop. -/
def DepartureRun (ok : SysState ω V → SysLabel ω V → Prop) :
    SysState ω V × Option Departure → Prop :=
  Reach (fun x => Init x.1 ∧ x.2 = none) (Recorded recordDeparture (Step (program ω V)))
    fun x lab => ok x.1 lab

/-- Every run has such a memory. -/
theorem Run.departure {ok : SysState ω V → SysLabel ω V → Prop} {s : SysState ω V}
    (hs : Run ok s) : ∃ departed, DepartureRun ok (s, departed) := Reach.recorded _ _ hs

/-- If this step returns from the watchdog's final unlock, that has succeeded. -/
def FinalUnlockSucceeds : SysState ω V → SysLabel ω V → Prop :=
  (program ω V).EveryReturn fun s t _ r =>
    t = .watchdog → (s.loc .watchdog).calls = [] → (s.loc .watchdog).pc.isFinalUnlock = true →
      r = .success

/-- If this step is the watchdog's third read, the kill switch is on. -/
def KilledBeforeRetval (s : SysState ω V) (lab : SysLabel ω V) : Prop :=
  lab.actor = some .watchdog → (s.loc .watchdog).calls = [] →
    (s.loc .watchdog).pc.isRetval = true → s.data.killSwitch = true

instance (s : SysState ω V) (lab : SysLabel ω V) : Decidable (FinalUnlockSucceeds s lab) :=
  inferInstanceAs (Decidable (Program.EveryReturn ..))

instance (s : SysState ω V) (lab : SysLabel ω V) : Decidable (KilledBeforeRetval s lab) :=
  inferInstanceAs (Decidable (_ → _ → _ → _))

variable {s s' : SysState ω V} {lab : SysLabel ω V} {departed : Option Departure}

theorem agrees_step (hstep : Step (program ω V) s lab s') (hok : FinalUnlockSucceeds s lab)
    (h : (s.loc .watchdog).pc.Agrees departed) :
    (s'.loc .watchdog).pc.Agrees (recordDeparture s lab departed) := by
  by_cases hactor : lab.actor = some .watchdog
  · have hreturn := hok .watchdog
    rcases hloc : s.loc .watchdog with ⟨calls, pc⟩
    rw [hloc] at h hreturn
    cases calls with
    | nil =>
      have hrecord : recordDeparture s lab departed =
          (departure s.data.killSwitch pc).or departed := by
        rw [recordDeparture, hloc, if_pos ⟨hactor, rfl⟩]
      rw [hrecord]
      refine Step.post (Q := fun l _ _ =>
        l.pc.Agrees ((departure s.data.killSwitch pc).or departed)) hstep hactor hreturn ?_ ?_
      · intro _ m hm
        rw [hloc] at hm ⊢
        cases pc with
        | wait tp => exact h
        | _ => cases hm
      · rw [hloc]
        refine Watchdog.agrees _ (fun r hr hunlock => ?_) h
        cases pc with
        | finalUnlock code => exact hr rfl (by rw [hloc]) (by rw [hloc]; rfl)
        | _ => cases hunlock
    | cons f fs =>
      have hrecord : recordDeparture s lab departed = departed := by
        rw [recordDeparture, hloc, if_neg fun h => List.cons_ne_nil f fs h.2]
      rw [hrecord]
      refine Step.post (Q := fun l _ _ => l.pc.Agrees departed) hstep hactor hreturn ?_ ?_
      · intro _ m hm
        rw [hloc]
        exact h
      · rw [hloc, program_code_cons, Instr.post_map]
        exact Instr.post_of_forall (fun _ _ _ => h) _
  · rw [recordDeparture, if_neg fun h => hactor h.1, (Step.unchanged hstep hactor).2.2]
    exact h

/-- At its exit the watchdog has the exit code that goes with its departure, or never got to its
loop. -/
theorem exitCode_eq {x : SysState ω V × Option Departure} (hx : DepartureRun FinalUnlockSucceeds x)
    {code : ℤ} (hexited : (x.1.loc .watchdog).pc = .exited code) :
    (∃ d, x.2 = some d ∧ code = d.retval) ∨ x.2 = none ∧ code < 0 := by
  have hagrees : (x.1.loc .watchdog).pc.Agrees x.2 := by
    refine Reach.invariant (I := fun x => (x.1.loc .watchdog).pc.Agrees x.2) hx
      (fun x hinit => ?_) fun x lab x' _ h hok hstep => ?_
    · obtain ⟨⟨-, hloc, -⟩, hnone⟩ := hinit
      rw [hloc]
      exact hnone
    · rw [hstep.2]
      exact agrees_step hstep.1 hok h
  rw [hexited] at hagrees
  exact hagrees

/-- The kill switch was on at the third read. -/
theorem departure_killed {ok : SysState ω V → SysLabel ω V → Prop}
    (hok : ∀ s lab, ok s lab → KilledBeforeRetval s lab) {x : SysState ω V × Option Departure}
    (hx : DepartureRun ok x) (ii : ℕ) : x.2 ≠ some (.unresponsive ii false) := by
  refine Reach.invariant (I := fun x => x.2 ≠ some (.unresponsive ii false)) hx
    (fun x hinit h => ?_) fun x lab x' _ h hokx hstep => ?_
  · rw [hinit.2] at h
    cases h
  · rw [hstep.2]
    unfold recordDeparture
    split
    · rename_i hcond
      intro hd
      rcases Option.or_eq_some_iff.1 hd with hd | ⟨-, hd⟩
      · obtain ⟨hretval, hoff⟩ := isRetval_of_departure hd
        have hon := hok _ _ hokx hcond.1 hcond.2 hretval
        exact Bool.false_ne_true (hoff.symm.trans hon)
      · exact h hd
    · exact h

/-- The exit code is the one that the recorded reason for leaving the loop stands for. -/
def NamesCulprit (x : SysState ω V × Option Departure) : Prop :=
  ∀ code d, (x.1.loc .watchdog).pc = .exited code → x.2 = some d → code = d.culprit

/-- One run: the code is right exactly if the third read came late enough. -/
theorem exitCode_eq_culprit_iff {x : SysState ω V × Option Departure}
    (hx : DepartureRun FinalUnlockSucceeds x) {code : ℤ}
    (hexited : (x.1.loc .watchdog).pc = .exited code) {d : Departure} (hd : x.2 = some d) :
    code = d.culprit ↔ ∀ ii, d ≠ .unresponsive ii false := by
  rcases exitCode_eq hx hexited with ⟨d', hd', rfl⟩ | ⟨hnone, -⟩
  · obtain rfl := Option.some.inj (hd.symm.trans hd')
    exact d.retval_eq_culprit_iff
  · rw [hnone] at hd
    cases hd

theorem exitCode_names_culprit {x : SysState ω V × Option Departure}
    (hx : DepartureRun (fun s lab => FinalUnlockSucceeds s lab ∧ KilledBeforeRetval s lab) x) :
    NamesCulprit x := by
  have hunlock : DepartureRun FinalUnlockSucceeds x := Reach.mono hx fun _ _ _ h => h.1
  intro code d hexited hd
  refine (exitCode_eq_culprit_iff hunlock hexited hd).2 fun ii h => ?_
  exact departure_killed (fun _ _ h => h.2) hx ii (h ▸ hd)

/-! ## Two runs -/

/-- The state and the departure after the moves, in a program of five threads in which the final
unlock succeeds. -/
def playDeparture (guard : SysState Empty V → SysLabel Empty V → Bool)
    (moves : List (Move (Thread Empty) (Input V) Data.Env)) :
    Option (SysState Empty V × Option Departure) :=
  execAll ((program Empty V).playRecorded recordDeparture
    [.reader, .analyzer, .printer, .logger, .watchdog] guard) (initialState, none) moves

theorem DepartureRun.play {ok : SysState Empty V → SysLabel Empty V → Prop}
    (guard : SysState Empty V → SysLabel Empty V → Bool)
    (hok : ∀ s lab, (program Empty V).Nominal s lab → guard s lab = true → ok s lab)
    (moves : List (Move (Thread Empty) (Input V) Data.Env))
    {check : SysState Empty V × Option Departure → Bool}
    (h : (playDeparture guard moves).any check = true) :
    ∃ x, DepartureRun ok x ∧ check x = true := by
  obtain ⟨x, hx, hcheck⟩ := (Option.any_eq_true _ _).1 h
  exact ⟨x, Reach.playRecorded hok (.start ⟨init_initialState, rfl⟩) hx, hcheck⟩

/-- No thread reports for three seconds, and the watchdog is about to select its exit code. -/
def silence : List (Move (Thread Empty) (Input ℚ) Data.Env) :=
  [steps .watchdog 6 (.userIdle 0 0), [.env (.tick 3000000000), .wake .watchdog .timedout],
    steps .watchdog 13 (.userIdle 0 0)].flatten

/-- Nobody else activates the kill switch. -/
theorem exitCode_zero : ∃ x : SysState Empty ℚ × Option Departure,
    DepartureRun FinalUnlockSucceeds x ∧ ¬NamesCulprit x := by
  have hrun : ∃ x : SysState Empty ℚ × Option Departure, DepartureRun FinalUnlockSucceeds x ∧
      (decide ((x.1.loc .watchdog).pc = .exited 0) &&
        decide (x.2 = some (.unresponsive 3 false))) = true := by
    apply DepartureRun.play (fun s lab => decide (FinalUnlockSucceeds s lab))
      (fun _ _ _ h => of_decide_eq_true h) (silence ++ steps .watchdog 19 (.userIdle 0 0))
    decide +kernel
  obtain ⟨x, hx, hcheck⟩ := hrun
  simp only [Bool.and_eq_true, decide_eq_true_eq] at hcheck
  exact ⟨x, hx, fun h => absurd (h 0 _ hcheck.1 hcheck.2) (by decide)⟩

/-- A signal arrives between the second and the third read. -/
theorem exitCode_names_culprit_logger : ∃ x : SysState Empty ℚ × Option Departure,
    (x.1.loc .watchdog).pc = .exited 4 ∧ x.2 = some (.unresponsive 3 true) ∧ NamesCulprit x := by
  have hrun : ∃ x : SysState Empty ℚ × Option Departure,
      DepartureRun (fun s lab => FinalUnlockSucceeds s lab ∧ KilledBeforeRetval s lab) x ∧
      (decide ((x.1.loc .watchdog).pc = .exited 4) &&
        decide (x.2 = some (.unresponsive 3 true))) = true := by
    apply DepartureRun.play
      (fun s lab => decide (FinalUnlockSucceeds s lab ∧ KilledBeforeRetval s lab))
      (fun _ _ _ h => of_decide_eq_true h)
      (silence ++ .env .signal :: steps .watchdog 19 (.userIdle 0 0))
    decide +kernel
  obtain ⟨x, hx, hcheck⟩ := hrun
  simp only [Bool.and_eq_true, decide_eq_true_eq] at hcheck
  exact ⟨x, hcheck.1, hcheck.2, exitCode_names_culprit hx⟩

end CpuUsageTracker
