import CpuUsageTracker.Ownership

/-!
# A logger that stays out of its main loop

`CpuUsageTracker.Ownership` says nothing about the logger and `g_inMtx`. It cannot: the logger
goes back to the head of its loop when its lock attempt succeeds, and into the loop's body when
the attempt fails, so what it owns depends on what happened before.

**Theorem (`Run.logger_ownership`).** In every run in which no lock attempt of the logger's main
loop succeeds and no wait of the logger returns, the logger owns `g_inMtx` inside `Log` and while
it flushes the input buffer at its end, and nowhere else.
-/

namespace CpuUsageTracker

open Threads

variable {ω V : Type}

@[simp] def LoggerPc.mutex : LoggerPc → Option Mutex
  | .finalSwap | .drain .finalInBuf | .fputs .finalInBuf _ | .finalUnlock => some .gInMtx
  | _ => none

/-- The two returns after which the logger owns `g_inMtx` in its main loop are excluded. -/
def LoggerPc.StaysOut : LoggerPc → ThrdResult → Prop
  | .lock, r => r ≠ .success
  | .wait _, _ => False
  | _, _ => True

/-- No lock attempt of the logger's main loop succeeds, and no wait of the logger returns. -/
def LoggerStaysOut (s : SysState ω V) (lab : SysLabel ω V) : Prop :=
  ∀ r, lab.event = some (.logger, .ret r) → (s.loc .logger).calls = [] →
    (s.loc .logger).pc.StaysOut r

/-- The mutexes about which the annotation of the logger says something. A wait that was not
begun with `g_inMtx` owned will nevertheless return with it. -/
def Logger.annotated : Control LoggerPc → Set Mutex
  | ⟨[], .wait _⟩ => {.gInMtx}ᶜ
  | _ => .univ

section

variable {P : Type} {mutex : P → Option Mutex} {ms ms' o : Set Mutex} {l : Control P}

theorem Owns.subset (h : Owns mutex ms o l) (hms : ms' ⊆ ms) : Owns mutex ms' o l :=
  ⟨fun m hm => h.mem_iff m (hms hm), fun m hm => h.apart m (hms hm), h.report, h.tail⟩

theorem OwnsOnly.sdiff (h : OwnsOnly ms o none) (x : Set Mutex) : OwnsOnly ms (o \ x) none := by
  intro m hm
  rw [Set.mem_sdiff, h m hm]
  simp

end

section

variable [DecidableEq ω] [PercentageValue V] {o : Set Mutex} {t : Thread ω} {d : Data ω V}

omit [PercentageValue V] in
theorem Logger.ownership_of_staysOut (pc : LoggerPc) (h : OwnsOnly .univ o pc.mutex) :
    (code pc : Code V (Control LoggerPc)).Post (Data.perform t)
      (fun ev => (code pc : Code V (Control LoggerPc)).OnReturn (Call.UnlockSucceeds o) ev ∧
        ∀ r, ev = .ret r → pc.StaysOut r)
      (fun l o _ => Arrives LoggerPc.mutex .univ o l) o d := by
  cases pc with
  | lock => simpa [code, LoggerPc.StaysOut] using h
  | wait tp => simp [code, LoggerPc.StaysOut]
  | breakUnlock | unlock =>
    have hdel := h.sdiff {.gInMtx}
    simp only [LoggerPc.mutex] at h
    simp [code, h, hdel]
  | drain k =>
    simp only [LoggerPc.mutex] at h
    have hnext : ∀ x, Arrives LoggerPc.mutex .univ o (drainNext k x) := by
      intro x
      cases k <;> cases x <;> simpa [drainNext, drained, exiting] using h
    cases k <;> exact fun i _ => hnext _
  | fputs k item =>
    cases k <;> simpa [code] using fun _ => h
  | finalLock => simpa [code, exiting] using ⟨fun _ _ => h.lock _, fun _ => h, fun _ => h⟩
  | finalUnlock => simpa [code, h.mem] using fun _ => h.unlock
  | _ =>
    simp only [LoggerPc.mutex] at h
    simp [code, h]

/-- While it flushes the input buffer, the logger calls neither `Log` nor
`Watchdog_reportActive`. -/
def Logger.Silent (l : Control LoggerPc) : Prop := l.pc.mutex ≠ none → l.calls = []

omit [PercentageValue V] in
theorem Logger.silent (pc : LoggerPc) :
    (code pc : Code V (Control LoggerPc)).Post (Data.perform t) (fun _ => True)
      (fun l _ _ => Silent l) o d := by
  cases pc with
  | drain k =>
    have hnext : ∀ x, Silent (drainNext k x) := by
      intro x
      cases k <;> cases x <;> simp [Silent, drainNext, drained, exiting, Control.goto]
    cases k <;> exact fun i _ => hnext _
  | threadInfoSet | fopen | head | isEmpty | killSwitch | killTest =>
    intro i _
    simp only
    split <;> simp [Silent, Control.goto]
  | fputs k item => exact fun _ _ _ => rfl
  | _ => simp [code, exiting, Silent, Control.goto]

/-- The annotation of the logger. -/
structure Logger.Owns (o : Set Mutex) (l : Control LoggerPc) : Prop where
  owns : CpuUsageTracker.Owns LoggerPc.mutex (annotated l) o l
  silent : Silent l

omit [DecidableEq ω] in
theorem Logger.Owns.of_univ {l : Control LoggerPc}
    (h : CpuUsageTracker.Owns LoggerPc.mutex .univ o l) (hl : Silent l) : Logger.Owns o l :=
  ⟨h.subset (Set.subset_univ _), hl⟩

def LoggerOwns : (t : Thread ω) → Loc V t → Set Mutex → Data ω V → Prop
  | .logger, l, o, _ => Logger.Owns o l
  | _, _, _, _ => True

theorem loggerOwns_outline : Outline (program ω V)
    (fun t l o _ ev => ((program ω V).code t l).OnReturn (Call.UnlockSucceeds o) ev ∧
      match t, l with
      | .logger, l => ∀ r, ev = .ret r → l.calls = [] → l.pc.StaysOut r
      | _, _ => True)
    LoggerOwns where
  own t l o d h := by
    cases t with
    | logger =>
      obtain ⟨calls, pc⟩ := l
      cases calls with
      | nil =>
        by_cases hwait : ∃ tp, pc = .wait tp
        · obtain ⟨tp, rfl⟩ := hwait
          exact fun r _ hallow => (hallow.2 r rfl rfl).elim
        · have hpc : OwnsOnly .univ o pc.mutex := by
            intro m _
            have hm : m ∈ Logger.annotated (.goto pc) := by
              cases pc with
              | wait tp => exact absurd ⟨tp, rfl⟩ hwait
              | _ => trivial
            simpa [Control.frameMutex] using h.owns.mem_iff m hm
          exact ((Logger.ownership_of_staysOut pc hpc).and (Logger.silent pc)).mono
            (fun _ _ _ h => .of_univ h.1.to_owns h.2)
            fun ev hev => ⟨⟨hev.1, fun r hr => hev.2 r hr rfl⟩, trivial⟩
      | cons f fs =>
        rw [program_code_cons, Instr.post_map]
        have hpc : pc.mutex = none := by
          by_contra hpc
          cases h.silent hpc
        exact (Frame.ownership h.owns).mono (fun _ _ _ h => .of_univ h fun hne => absurd hpc hne)
          fun ev hev => (Instr.onReturn_map _ _ ev).1 hev.1
    | _ => exact Instr.post_of_forall (fun _ _ _ => trivial) _
  wait t l o d m hm h := by
    cases t with
    | logger =>
      obtain ⟨calls, pc⟩ := l
      cases calls with
      | nil =>
        cases pc with
        | wait tp =>
          have hm : m = .gInMtx := Eq.symm hm
          subst hm
          obtain ⟨howns, hsilent⟩ := h
          refine ⟨⟨fun n hn => ?_, howns.apart, howns.report, howns.tail⟩, hsilent⟩
          have hne : n ≠ .gInMtx := hn
          rw [Set.mem_insert_iff, or_iff_right hne]
          exact howns.mem_iff n hn
        | drain k => cases k <;> cases hm
        | _ => cases hm
      | cons f fs =>
        rw [program_code_cons, Instr.waitsWith_map] at hm
        exact absurd hm (f.not_waits m)
    | _ => trivial
  others t u htu l l' o o' d a next i h _ _ _ _ := by
    cases t with
    | logger => exact h
    | _ => trivial
  env t l o d e h := by
    cases t with
    | logger => exact h
    | _ => trivial

theorem Run.logger_ownership {ok : SysState ω V → SysLabel ω V → Prop} {s : SysState ω V}
    (hok : ∀ s lab, ok s lab → (program ω V).UnlocksSucceed s lab ∧ LoggerStaysOut s lab)
    (hs : Run ok s) : Logger.Owns ((program ω V).held s .logger) (s.loc .logger) := by
  refine Reach.outline loggerOwns_outline (fun s hs => ⟨hs.1, fun t => ?_⟩)
    (fun s lab _ hlab t ev hev => ⟨(hok s lab hlab).1.held hev, ?_⟩) hs .logger
  · cases t with
    | logger =>
      rw [hs.2.1]
      refine .of_univ (Arrives.to_owns (arrives_goto.2 fun m _ => ?_)) fun _ => rfl
      simp [start]
    | _ => trivial
  · cases t with
    | logger =>
      rintro r rfl hcalls
      exact (hok s lab hlab).2 r hev hcalls
    | _ => trivial

end

end CpuUsageTracker
