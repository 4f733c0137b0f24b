import CpuUsageTracker.System

/-!
# Who owns which mutex where

`pcMutex` names the mutex that a thread owns at a location of its own function, `Frame.owned` the
one that it owns inside `Log` or `Watchdog_reportActive`.

**Theorem (`Run.ownership`).** In every run in which unlocking an owned mutex succeeds, every
thread owns exactly these. The one exception is the logger's ownership of `g_inMtx`, about which
nothing is said.
-/

namespace CpuUsageTracker

open Threads

variable {ω V : Type}

def Frame.owned : Frame → Option Mutex
  | .log (.inBuf _) | .log (.write _ _) | .log .unlock => some .gInMtx
  | .report (.stamp _) | .report .unlock => some .gTimestampsMtx
  | _ => none

@[simp] def Frame.isReport : Frame → Bool
  | .log _ => false
  | .report _ => true

@[simp] def ReaderPc.mutex : ReaderPc → Option Mutex
  | .waiting _ _ | .killTest _ | .breakUnlock | .write _ | .unlock _ => some .procStatMtx
  | _ => none

@[simp] def AnalyzerPc.mutex : AnalyzerPc V → Option Mutex
  | .waitingIn _ _ | .killTestIn _ | .breakUnlockIn | .read _ | .emptyUnlock _ | .unlockIn _ =>
    some .procStatMtx
  | .waitingOut _ _ | .killTestOut _ | .breakUnlockOut | .write _ | .unlockOut _ =>
    some .usageInfoMtx
  | _ => none

@[simp] def PrinterPc.mutex : PrinterPc V → Option Mutex
  | .waiting _ _ | .killTest _ | .breakUnlock | .read _ | .unlock _ => some .usageInfoMtx
  | _ => none

@[simp] def WatchdogPc.mutex : WatchdogPc → Option Mutex
  | .threadInfoSet | .startTime | .lock _ | .exited _ => none
  | _ => some .gTimestampsMtx

def pcMutex : (t : Thread ω) → Pc V t → Option Mutex
  | .reader => ReaderPc.mutex
  | .analyzer => AnalyzerPc.mutex
  | .printer => PrinterPc.mutex
  | .watchdog => WatchdogPc.mutex
  | .logger | .other _ => fun _ => none

def Control.frameMutex {P : Type} : Control P → Option Mutex
  | ⟨[], _⟩ => none
  | ⟨f :: _, _⟩ => f.owned

/-- Among the mutexes in `ms`, a thread that owns `o` owns `x`, if that is one, and no other. -/
def OwnsOnly (ms o : Set Mutex) (x : Option Mutex) : Prop := ∀ m ∈ ms, (m ∈ o ↔ x = some m)

section

variable {P : Type} {mutex : P → Option Mutex} {ms o : Set Mutex} {l : Control P} {pc : P}

/-- The annotation of a location: the thread owns what the location says, a call owns no mutex
that its caller owns, the thread reports to the watchdog only while it owns no mutex, and the
calls still to be made own nothing. -/
structure Owns (mutex : P → Option Mutex) (ms o : Set Mutex) (l : Control P) : Prop where
  mem_iff : ∀ m ∈ ms, (m ∈ o ↔ mutex l.pc = some m ∨ l.frameMutex = some m)
  apart : ∀ m ∈ ms, mutex l.pc = some m → l.frameMutex ≠ some m
  report : ∀ f ∈ l.calls, f.isReport = true → mutex l.pc = none
  tail : ∀ f ∈ l.calls.tail, f.owned = none

/-- The annotation of a location that an instruction of the thread's own function leads to: none
of the calls has begun. -/
structure Arrives (mutex : P → Option Mutex) (ms o : Set Mutex) (l : Control P) : Prop where
  owns : OwnsOnly ms o (mutex l.pc)
  report : ∀ f ∈ l.calls, f.isReport = true → mutex l.pc = none
  begun : ∀ f ∈ l.calls, f.owned = none

theorem Control.frameMutex_eq_none (h : ∀ f ∈ l.calls, f.owned = none) : l.frameMutex = none := by
  obtain ⟨calls, pc⟩ := l
  cases calls with
  | nil => rfl
  | cons f fs => exact h f List.mem_cons_self

theorem Arrives.to_owns (h : Arrives mutex ms o l) : Owns mutex ms o l where
  mem_iff m hm := by
    rw [h.owns m hm, Control.frameMutex_eq_none h.begun]
    simp
  apart m _ _ := by
    rw [Control.frameMutex_eq_none h.begun]
    simp
  report := h.report
  tail f hf := h.begun f (List.mem_of_mem_tail hf)

theorem OwnsOnly.lock (h : OwnsOnly ms o none) (m : Mutex) :
    OwnsOnly ms (insert m o) (some m) := by
  intro n hn
  rw [Set.mem_insert_iff, h n hn, Option.some_inj]
  simp [eq_comm]

theorem OwnsOnly.unlock {m : Mutex} (h : OwnsOnly ms o (some m)) :
    OwnsOnly ms (o \ {m}) none := by
  intro n hn
  rw [Set.mem_sdiff, h n hn]
  simp [eq_comm]

theorem OwnsOnly.unlockFailed {m : Mutex} (h : OwnsOnly ms o (some m)) (hm : m ∉ o) :
    OwnsOnly ms o none := by
  intro n hn
  rw [h n hn]
  refine iff_of_false ?_ (by simp)
  rintro ⟨⟩
  exact hm ((h m hn).2 rfl)

theorem OwnsOnly.wait {m : Mutex} (h : OwnsOnly ms o (some m)) :
    OwnsOnly ms (insert m o) (some m) := by
  intro n hn
  rw [Set.mem_insert_iff, h n hn]
  simp [eq_comm]

theorem ownsOnly_insert {m : Mutex} (hm : m ∉ ms) {x : Option Mutex} :
    OwnsOnly ms (insert m o) x ↔ OwnsOnly ms o x := by
  refine forall₂_congr fun n hn => ?_
  rw [Set.mem_insert_iff, or_iff_right (ne_of_mem_of_not_mem hn hm)]

theorem ownsOnly_sdiff {m : Mutex} (hm : m ∉ ms) {x : Option Mutex} :
    OwnsOnly ms (o \ {m}) x ↔ OwnsOnly ms o x := by
  refine forall₂_congr fun n hn => ?_
  rw [Set.mem_sdiff, Set.mem_singleton_iff, and_iff_left (ne_of_mem_of_not_mem hn hm)]

theorem OwnsOnly.mem {m : Mutex} (h : OwnsOnly ms o (some m)) (hm : m ∈ ms) : m ∈ o :=
  (h m hm).2 rfl

/-! ## Where an instruction leads -/

@[simp] theorem arrives_goto :
    Arrives mutex ms o (.goto pc) ↔ OwnsOnly ms o (mutex pc) := by
  refine ⟨fun h => h.owns, fun h => ⟨h, ?_, ?_⟩⟩ <;> simp [Control.goto]

@[simp] theorem arrives_log {level : LogLevel} {text : String} :
    Arrives mutex ms o (l.log level text) ↔ Arrives mutex ms o l := by
  constructor
  · intro h
    exact ⟨h.owns, fun f hf => h.report f (.tail _ hf), fun f hf => h.begun f (.tail _ hf)⟩
  · intro h
    refine ⟨h.owns, ?_, ?_⟩ <;> simp only [Control.log, List.mem_cons, forall_eq_or_imp]
    · exact ⟨by simp [Frame.isReport], h.report⟩
    · exact ⟨rfl, h.begun⟩

@[simp] theorem arrives_logUnless {r : ThrdResult} {text : String} :
    Arrives mutex ms o (l.logUnless r text) ↔ Arrives mutex ms o l := by
  unfold Control.logUnless
  split
  · rfl
  · exact arrives_log

@[simp] theorem arrives_logAll {calls : List LogCall} :
    Arrives mutex ms o (l.logAll calls) ↔ Arrives mutex ms o l := by
  constructor
  · intro h
    exact ⟨h.owns, fun f hf => h.report f (List.mem_append_right _ hf),
      fun f hf => h.begun f (List.mem_append_right _ hf)⟩
  · intro h
    refine ⟨h.owns, ?_, ?_⟩ <;> simp only [Control.logAll, List.mem_append, List.mem_map]
    · rintro f (⟨call, -, rfl⟩ | hf) hr
      · cases hr
      · exact h.report f hf hr
    · rintro f (⟨call, -, rfl⟩ | hf)
      · rfl
      · exact h.begun f hf

@[simp] theorem arrives_reportActive :
    Arrives mutex ms o (Control.goto pc).reportActive ↔
      OwnsOnly ms o none ∧ mutex pc = none := by
  constructor
  · intro h
    have hpc : mutex pc = none := h.report _ List.mem_cons_self rfl
    exact ⟨hpc ▸ h.owns, hpc⟩
  · rintro ⟨h, hpc⟩
    refine ⟨hpc ▸ h, ?_, ?_⟩
    · intro _ _ _
      exact hpc
    · simp [Control.reportActive, Control.goto, Frame.owned]

@[simp] theorem arrives_ite {c : Prop} [Decidable c] {l' : Control P} :
    Arrives mutex ms o (if c then l else l') ↔
      (c → Arrives mutex ms o l) ∧ (¬c → Arrives mutex ms o l') := by
  split <;> simp [*]

end

section

variable [DecidableEq ω] [PercentageValue V] {P : Type} {mutex : P → Option Mutex}
  {ms o : Set Mutex} {t : Thread ω} {d : Data ω V}

/-- What the instructions of a thread function have to establish. -/
abbrev BodyPost (t : Thread ω) (mutex : P → Option Mutex) (ms o : Set Mutex) (d : Data ω V)
    (g : Code V (Control P)) : Prop :=
  g.Post (Data.perform t) (g.OnReturn (Call.UnlockSucceeds o)) (fun l o _ => Arrives mutex ms o l) o d

omit [PercentageValue V] in
theorem WaitLoop.ownership (w : WaitLoop) {here : WaitPc → P} {exit : Control P}
    (hhere : ∀ x, mutex (here x) = some w.mtx)
    (hexit : ∀ o, OwnsOnly ms o (some w.mtx) → Arrives mutex ms o exit) (pc : WaitPc)
    (h : OwnsOnly ms o (some w.mtx)) : BodyPost t mutex ms o d (w.code here exit pc) := by
  have hw := h.wait
  cases pc <;> simp [BodyPost, WaitLoop.code, hhere, hexit, h, hw]

omit [PercentageValue V] in
theorem Reader.ownership (pc : ReaderPc) (h : OwnsOnly ms o pc.mutex) :
    BodyPost t ReaderPc.mutex ms o d (Reader.code pc) := by
  cases pc with
  | waiting p w =>
    refine outNotFull.ownership ?_ ?_ w h
    · exact fun _ => rfl
    · exact fun _ h => arrives_goto.2 h
  | lock => simpa [BodyPost, code] using ⟨fun _ => h.lock _, h⟩
  | unlock | breakUnlock =>
    simpa [BodyPost, code, exiting] using ⟨h.unlock, h.unlockFailed⟩
  | load =>
    intro i _
    simp only
    split <;> simpa using h
  | _ =>
    simp only [ReaderPc.mutex] at h
    simp [BodyPost, code, exiting, h]

theorem Analyzer.ownership (pc : AnalyzerPc V) (h : OwnsOnly ms o pc.mutex) :
    BodyPost t AnalyzerPc.mutex ms o d (Analyzer.code pc) := by
  cases pc with
  | waitingIn v w =>
    refine inNotEmpty.ownership ?_ ?_ w h
    · exact fun _ => rfl
    · exact fun _ h => arrives_goto.2 h
  | waitingOut v w =>
    refine outNotFull.ownership ?_ ?_ w h
    · exact fun _ => rfl
    · exact fun _ h => arrives_goto.2 h
  | lockIn | lockOut => simpa [BodyPost, code] using ⟨fun _ => h.lock _, h⟩
  | unlockIn | unlockOut | emptyUnlock | breakUnlockIn | breakUnlockOut =>
    simpa [BodyPost, code, exiting] using ⟨h.unlock, h.unlockFailed⟩
  | mallocUsageInfo | read =>
    intro i _
    simp only
    split <;> simpa using h
  | notifyIn v =>
    have hsample : Arrives AnalyzerPc.mutex ms o (haveSample v) := by
      unfold haveSample
      split <;> simpa using h
    simpa [BodyPost, code] using hsample
  | _ =>
    simp only [AnalyzerPc.mutex] at h
    simp [BodyPost, code, exiting, h]

omit [PercentageValue V] in
theorem Printer.ownership (pc : PrinterPc V) (h : OwnsOnly ms o pc.mutex) :
    BodyPost t PrinterPc.mutex ms o d (Printer.code pc) := by
  cases pc with
  | waiting u w =>
    refine inNotEmpty.ownership ?_ ?_ w h
    · exact fun _ => rfl
    · exact fun _ h => arrives_goto.2 h
  | lock => simpa [BodyPost, code] using ⟨fun _ => h.lock _, h⟩
  | unlock | breakUnlock =>
    simpa [BodyPost, code, exiting] using ⟨h.unlock, h.unlockFailed⟩
  | malloc | read =>
    intro i _
    simp only
    split <;> simpa using h
  | _ =>
    simp only [PrinterPc.mutex] at h
    simp [BodyPost, code, exiting, h]

omit [PercentageValue V] in
theorem Watchdog.ownership (pc : WatchdogPc) (h : OwnsOnly ms o pc.mutex) :
    BodyPost t WatchdogPc.mutex ms o d (Watchdog.code pc) := by
  cases pc with
  | lock => simpa [BodyPost, code] using ⟨fun _ => h.lock _, h⟩
  | wait => simpa [BodyPost, code] using h.wait
  | finalUnlock => simpa [BodyPost, code] using ⟨h.unlock, h.unlockFailed⟩
  | findOldest now =>
    intro i _
    simp only [check]
    split <;> simpa using h
  | _ =>
    simp only [WatchdogPc.mutex] at h
    simp [BodyPost, code, h]

/-- The mutexes that the annotation is about. -/
def concerned : Thread ω → Set Mutex
  | .logger => {.gInMtx}ᶜ
  | _ => .univ

omit [DecidableEq ω] [PercentageValue V] in
theorem mem_concerned (ht : t ≠ .logger) (m : Mutex) : m ∈ concerned t := by
  cases t with
  | logger => exact absurd rfl ht
  | _ => trivial

omit [PercentageValue V] in
/-- `LoggerThread` itself touches no mutex but `g_inMtx`. -/
theorem Logger.ownership (hin : .gInMtx ∉ ms) (pc : LoggerPc) (h : OwnsOnly ms o none) :
    BodyPost t (fun _ => none) ms o d (Logger.code pc) := by
  have hins : OwnsOnly ms (insert .gInMtx o) none := (ownsOnly_insert hin).2 h
  have hdel : OwnsOnly ms (o \ {.gInMtx}) none := (ownsOnly_sdiff hin).2 h
  have hnext : ∀ k x, Arrives (fun _ => none) ms o (drainNext k x) := by
    intro k x
    cases x with
    | none => cases k <;> simpa [drainNext, drained, exiting] using h
    | some item => simpa [drainNext] using h
  cases pc with
  | drain k =>
    cases k <;> exact fun i _ => hnext _ _
  | _ => simp [BodyPost, code, exiting, h, hins, hdel]

omit [PercentageValue V] in
theorem Other.ownership (pc : OtherPc) (h : OwnsOnly ms o none) :
    BodyPost t (fun _ => none) ms o d (Other.code pc) := by
  cases pc with
  | idle =>
    intro i _
    simp only
    split <;> simpa using h

/-! ## Inside the calls -/

omit [DecidableEq ω] [PercentageValue V] in
/-- A call that goes on with `gs` leaves the annotation of what comes after it alone. -/
theorem Owns.next {f : Frame} {fs gs : List Frame} {pc : P} {o' : Set Mutex}
    (h : Owns mutex ms o ⟨f :: fs, pc⟩) (hreport : ∀ g ∈ gs, g.isReport = true → f.isReport = true)
    (htail : ∀ g ∈ gs.tail, g.owned = none)
    (hmem : ∀ m ∈ ms, (m ∈ o' ↔ mutex pc = some m ∨ gs.head?.bind Frame.owned = some m) ∧
      (mutex pc = some m → gs.head?.bind Frame.owned ≠ some m)) :
    Owns mutex ms o' ⟨gs ++ fs, pc⟩ := by
  cases gs with
  | nil =>
    have hnone : Control.frameMutex ⟨fs, pc⟩ = none := by
      cases fs with
      | nil => rfl
      | cons g fs => exact h.tail g List.mem_cons_self
    refine ⟨fun m hm => ?_, fun m _ _ => ?_, fun g hg => h.report g (.tail _ hg),
      fun g hg => h.tail g (List.mem_of_mem_tail hg)⟩
    · rw [(hmem m hm).1, List.nil_append, hnone]
      rfl
    · rw [List.nil_append, hnone]
      simp
  | cons g gs =>
    refine ⟨fun m hm => (hmem m hm).1, fun m hm => (hmem m hm).2, fun g' hg' hr => ?_,
      fun g' hg' => ?_⟩
    · rcases List.mem_append.1 hg' with hg' | hg'
      · exact h.report f List.mem_cons_self (hreport g' hg' hr)
      · exact h.report g' (.tail _ hg') hr
    · rcases List.mem_append.1 hg' with hg' | hg'
      · exact htail g' hg'
      · exact h.tail g' hg'

omit [DecidableEq ω] [PercentageValue V] in
/-- A call that unlocks `x` owns what the location owns. -/
theorem mem_after_unlock {x m : Mutex} {y : Option Mutex} (hx : y = some m → some x ≠ some m)
    (hm : m ∈ o ↔ y = some m ∨ some x = some m) : m ∈ o \ {x} ↔ y = some m := by
  rw [Set.mem_sdiff, hm, Set.mem_singleton_iff]
  by_cases hxm : x = m
  · subst hxm
    simpa using hx
  · simp [hxm, Ne.symm hxm]

omit [DecidableEq ω] [PercentageValue V] in
theorem mem_of_unlock_failed {x m : Mutex} {y : Option Mutex} (hx : x ∉ o)
    (hm : m ∈ o ↔ y = some m ∨ some x = some m) : m ∈ o ↔ y = some m := by
  by_cases hxm : x = m
  · subst hxm
    simp [hx] at hm
  · simpa [hxm] using hm

omit [PercentageValue V] in
theorem Frame.ownership {f : Frame} {fs : List Frame} {pc : P}
    (h : Owns mutex ms o ⟨f :: fs, pc⟩) :
    (f.code : Code V (List Frame)).Post (Data.perform t)
      ((f.code : Code V (List Frame)).OnReturn (Call.UnlockSucceeds o))
      (fun gs o _ => Owns mutex ms o ⟨gs ++ fs, pc⟩) o d := by
  have hmem : ∀ m ∈ ms, (m ∈ o ↔ mutex pc = some m ∨ f.owned = some m) ∧
      (mutex pc = some m → f.owned ≠ some m) := fun m hm => ⟨h.mem_iff m hm, h.apart m hm⟩
  have hlock : ∀ x, f.owned = none → x ∉ o → ∀ m ∈ ms,
      (m ∈ insert x o ↔ mutex pc = some m ∨ some x = some m) ∧
        (mutex pc = some m → some x ≠ some m) := by
    intro x hf hx m hm
    have hmo := (hmem m hm).1
    rw [hf] at hmo
    refine ⟨?_, fun hpc hxm => hx ?_⟩
    · rw [Set.mem_insert_iff, hmo]
      simp [eq_comm, or_comm]
    · rw [Option.some.inj hxm, hmo]
      exact .inl hpc
  have hunlock : ∀ x, f.owned = some x → ∀ m ∈ ms,
      (m ∈ o \ {x} ↔ mutex pc = some m ∨ (none : Option Mutex) = some m) ∧
        (mutex pc = some m → (none : Option Mutex) ≠ some m) := by
    intro x hf m hm
    obtain ⟨hmo, hapart⟩ := hmem m hm
    rw [hf] at hmo hapart
    simpa using mem_after_unlock hapart hmo
  have hfailed : ∀ x, f.owned = some x → x ∉ o → ∀ m ∈ ms,
      (m ∈ o ↔ mutex pc = some m ∨ (none : Option Mutex) = some m) ∧
        (mutex pc = some m → (none : Option Mutex) ≠ some m) := by
    intro x hf hx m hm
    have hmo := (hmem m hm).1
    rw [hf] at hmo
    simpa using mem_of_unlock_failed hx hmo
  cases f with
  | log f =>
    cases f with
    | level call =>
      intro i _
      simp only
      split <;> exact h.next (by simp) (by simp) hmem
    | lock message =>
      simp only [Frame.code, LogPc.code, Instr.post_tryLock]
      refine ⟨fun hnot _ => h.next (by simp) (by simp) (hlock _ rfl hnot), fun _ => ?_,
        fun _ => ?_⟩
      · exact h.next (by simp) (by simp) hmem
      · exact h.next (by simp) (by simp) hmem
    | unlock =>
      simp only [Frame.code, LogPc.code, Instr.post_unlock]
      refine ⟨fun _ => h.next (by simp) (by simp) (hunlock _ rfl), fun hs => ?_, fun hs => ?_⟩
      · exact h.next (by simp) (by simp) (hfailed _ rfl (by simpa using hs))
      · exact h.next (by simp) (by simp) (hfailed _ rfl (by simpa using hs))
    | notify =>
      simp only [Frame.code, LogPc.code, Instr.post_notify]
      refine ⟨fun _ => ?_, fun _ => ?_, fun _ => ?_⟩ <;>
        exact h.next (by simp) (by simp) hmem
    | _ => exact fun i _ => h.next (by simp) (by simp) hmem
  | report f =>
    cases f with
    | threadInfo =>
      intro i _
      simp only
      split <;> exact h.next (by simp) (by simp) hmem
    | lock tid =>
      simp only [Frame.code, ReportPc.code, Instr.post_tryLock]
      refine ⟨fun hnot _ => h.next (by simp) (by simp) (hlock _ rfl hnot), fun _ => ?_,
        fun _ => ?_⟩
      · exact h.next (by simp [Frame.logError]) (by simp) hmem
      · exact h.next (by simp [Frame.logError]) (by simp) hmem
    | stamp tid => exact fun i _ => h.next (by simp) (by simp) hmem
    | unlock =>
      simp only [Frame.code, ReportPc.code, Instr.post_unlock]
      refine ⟨fun _ => h.next (by simp) (by simp) (hunlock _ rfl), fun hs => ?_, fun hs => ?_⟩
      · exact h.next (by simp) (by simp [Frame.owned]) (hfailed _ rfl (by simpa using hs))
      · exact h.next (by simp) (by simp [Frame.owned]) (hfailed _ rfl (by simpa using hs))
    | notify =>
      simp only [Frame.code, ReportPc.code, Instr.post_notify]
      refine ⟨fun _ => ?_, fun _ => ?_, fun _ => ?_⟩ <;>
        exact h.next (by simp [Frame.logError]) (by simp) hmem

/-! ## The whole program -/

theorem body_ownership (hms : ms ⊆ concerned t) (pc : Pc V t)
    (h : OwnsOnly ms o (pcMutex t pc)) : BodyPost t (pcMutex t) ms o d (body t pc) := by
  cases t with
  | reader => exact Reader.ownership pc h
  | analyzer => exact Analyzer.ownership pc h
  | printer => exact Printer.ownership pc h
  | logger => exact Logger.ownership (fun hin => hms hin rfl) pc h
  | watchdog => exact Watchdog.ownership pc h
  | other w => exact Other.ownership pc h

omit [PercentageValue V] in
theorem WaitLoop.mutex_of_waits (w : WaitLoop) {here : WaitPc → P} {exit : Control P} {pc : WaitPc}
    {m : Mutex} (h : (w.code here exit pc : Code V (Control P)).waitsWith m) : w.mtx = m := by
  cases pc with
  | wait tp => exact h
  | _ => cases h

omit [DecidableEq ω] in
/-- Where a thread waits, it owns the mutex it waits with. -/
theorem body_waits {pc : Pc V t} {m : Mutex} (h : (body t pc).waitsWith m)
    (hm : m ∈ concerned t) : pcMutex t pc = some m := by
  cases t with
  | reader =>
    cases pc with
    | waiting p w => exact congrArg some (Reader.outNotFull.mutex_of_waits h)
    | _ => cases h
  | analyzer =>
    cases pc with
    | waitingIn v w => exact congrArg some (Analyzer.inNotEmpty.mutex_of_waits h)
    | waitingOut v w => exact congrArg some (Analyzer.outNotFull.mutex_of_waits h)
    | _ => cases h
  | printer =>
    cases pc with
    | waiting u w => exact congrArg some (Printer.inNotEmpty.mutex_of_waits h)
    | _ => cases h
  | logger =>
    cases pc with
    | wait tp => exact absurd (Eq.symm h) hm
    | drain k => cases k <;> cases h
    | _ => cases h
  | watchdog =>
    cases pc with
    | wait tp => exact congrArg some h
    | _ => cases h
  | other w =>
    cases pc with
    | idle => cases h

/-- A thread waits in its own function only. -/
theorem waits_in_body {l : Loc V t} {m : Mutex} (h : ((program ω V).code t l).waitsWith m) :
    l.frameMutex = none ∧ (body t l.pc).waitsWith m := by
  obtain ⟨calls, pc⟩ := l
  cases calls with
  | nil => exact ⟨rfl, h⟩
  | cons f fs =>
    rw [program_code_cons, Instr.waitsWith_map] at h
    exact absurd h (f.not_waits m)

omit [DecidableEq ω] [PercentageValue V] in
theorem Logger.waits {pc : LoggerPc} {m : Mutex}
    (h : (code pc : Code V (Control LoggerPc)).waitsWith m) :
    m = .gInMtx ∧ ∃ tp, pc = .wait tp := by
  cases pc with
  | wait tp => exact ⟨Eq.symm h, tp, rfl⟩
  | drain k => cases k <;> cases h
  | _ => cases h

theorem ownership_outline : Outline (program ω V)
    (fun t l o _ ev => ((program ω V).code t l).OnReturn (Call.UnlockSucceeds o) ev)
    fun t l o _ => Owns (pcMutex t) (concerned t) o l where
  own t l o d h := by
    obtain ⟨calls, pc⟩ := l
    cases calls with
    | nil =>
      have hpc : OwnsOnly (concerned t) o (pcMutex t pc) := by
        intro m hm
        simpa [Control.frameMutex] using h.mem_iff m hm
      exact (body_ownership subset_rfl pc hpc).mono (fun _ _ _ h => h.to_owns) fun _ h => h
    | cons f fs =>
      rw [program_code_cons, Instr.post_map]
      exact (Frame.ownership h).mono (fun _ _ _ h => h)
        fun ev h => (Instr.onReturn_map _ _ ev).1 h
  wait t l o d m hm h := by
    obtain ⟨calls, pc⟩ := l
    cases calls with
    | nil =>
      refine ⟨fun n hn => ?_, h.apart, h.report, h.tail⟩
      rw [← h.mem_iff n hn, Set.mem_insert_iff, or_iff_right_iff_imp]
      rintro rfl
      exact (h.mem_iff n hn).2 (.inl (body_waits hm hn))
    | cons f fs =>
      rw [program_code_cons, Instr.waitsWith_map] at hm
      exact absurd hm (f.not_waits m)
  others t u htu l l' o o' d a next i h _ _ _ _ := h
  env t l o d e h := h

theorem Run.ownership {ok : SysState ω V → SysLabel ω V → Prop} {s : SysState ω V}
    (hok : ∀ s lab, ok s lab → (program ω V).UnlocksSucceed s lab) (hs : Run ok s)
    (t : Thread ω) : Owns (pcMutex t) (concerned t) ((program ω V).held s t) (s.loc t) := by
  refine Reach.outline ownership_outline (fun s hs => ⟨hs.1, fun t => ?_⟩)
    (fun s lab _ hlab t ev hev => (hok s lab hlab).held hev) hs t
  rw [hs.2.1 t]
  refine Arrives.to_owns (arrives_goto.2 fun m _ => ?_)
  cases t <;> simp [pcMutex, start]

/-! ## Unlocks -/

omit [DecidableEq ω] in
/-- A thread function unlocks only what it owns. -/
theorem body_unlocks {pc : Pc V t} {m : Mutex} {next : ThrdResult → Loc V t}
    (hm : m ∈ concerned t) (h : body t pc = .call (.unlock m) next) : pcMutex t pc = some m := by
  cases t with
  | logger =>
    cases pc with
    | drain k => cases k <;> cases h
    | _ => cases h <;> exact absurd rfl hm
  | reader =>
    cases pc with
    | waiting p w => cases w <;> cases h
    | _ => cases h <;> rfl
  | analyzer =>
    cases pc with
    | waitingIn v w | waitingOut v w => cases w <;> cases h
    | _ => cases h <;> rfl
  | printer =>
    cases pc with
    | waiting u w => cases w <;> cases h
    | _ => cases h <;> rfl
  | watchdog =>
    cases pc <;> cases h
    rfl
  | other w =>
    cases pc
    cases h

omit [DecidableEq ω] [PercentageValue V] in
theorem Frame.unlocks {f : Frame} {m : Mutex} {next : ThrdResult → List Frame}
    (h : (f.code : Code V (List Frame)) = .call (.unlock m) next) : f.owned = some m := by
  rcases f with pc | pc <;> cases pc <;> cases h <;> rfl

theorem Owns.unlocks {l : Loc V t} {m : Mutex} {next : ThrdResult → Loc V t}
    (h : Owns (pcMutex t) (concerned t) o l) (hm : m ∈ concerned t)
    (hc : (program ω V).code t l = .call (.unlock m) next) : m ∈ o := by
  obtain ⟨calls, pc⟩ := l
  rw [h.mem_iff m hm]
  cases calls with
  | nil => exact .inl (body_unlocks hm hc)
  | cons f fs =>
    rw [program_code_cons] at hc
    obtain ⟨next', hf⟩ := Instr.map_eq_call hc
    exact .inr (Frame.unlocks hf)

/-- If unlocking an owned mutex succeeds, every unlock of a thread other than the logger does. -/
theorem Run.unlock_succeeds {ok : SysState ω V → SysLabel ω V → Prop} {s : SysState ω V}
    {lab : SysLabel ω V} (hok : ∀ s lab, ok s lab → (program ω V).UnlocksSucceed s lab)
    (hs : Run ok s) (hlab : ok s lab) {ev : Event (Input V)} (hev : lab.event = some (t, ev))
    (ht : t ≠ .logger) :
    ((program ω V).code t (s.loc t)).OnReturn (Call.UnlockSucceeds .univ) ev := by
  have h := (hok s lab hlab).held hev
  cases hc : (program ω V).code t (s.loc t) with
  | call c next =>
    rw [hc] at h
    cases c with
    | unlock m =>
      cases ev with
      | ret r => exact fun _ => h ((hs.ownership hok t).unlocks (mem_concerned ht m) hc)
      | act i => trivial
    | _ => cases ev <;> trivial
  | _ => trivial

end

end CpuUsageTracker
