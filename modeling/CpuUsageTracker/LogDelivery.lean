import CpuUsageTracker.LogAccounting
import CpuUsageTracker.Ownership

/-!
# What reaches the log file

**Theorem (`log_delivered`).** Let the logger leave its main loop and then exit, in a run in which
(a) no other thread owns `g_inMtx` when a lock attempt of the main loop returns, (b) the last lock
attempt finds the mutex free, or the input buffer empty, and (c) no message is written between the
main loop and that attempt. Then the log file consists of the messages written before the logger
left the main loop, in order and each once, without those that were overwritten.

The lock test of the main loop is the wrong way around, and yet messages get through in such runs:
an attempt that succeeds makes the next one time out, because the logger itself holds the mutex,
and the body is then executed under the lock. The annotation of the logger, `Logger.Delivers`,
says where it holds the mutex and where the messages are; the other threads keep it because they
write to the buffer that `g_inBuf` points to, and only while they own the mutex (`InLog`).

**Theorem (`log_not_delivered`).** A logger that leaves the main loop while it owns the mutex
delivers nothing.
-/

namespace CpuUsageTracker

open Threads LogBuffers Delivery

variable {ω V : Type} [DecidableEq ω] [PercentageValue V]

/-! ## Inside `Log` -/

section

variable {P : Type} {o o' : Set Mutex} {b b' : LogBuffers} {l : Control P} {pc : P} {f : Frame}
  {fs gs : List Frame} {t : Thread ω} {d : Data ω V}

/-- A thread that is between the lock and the unlock of `Log` holds `g_inMtx`, and the buffer that
it is about to write to is the input buffer. -/
structure InLog (o : Set Mutex) (b : LogBuffers) (l : Control P) : Prop where
  holds : l.frameMutex = some .gInMtx → .gInMtx ∈ o
  target : ∀ buf message, l.calls.head? = some (.log (.write buf message)) → buf = b.gInBuf
  tail : ∀ f ∈ l.calls.tail, f.owned = none

omit [DecidableEq ω] [PercentageValue V] in
/-- None of the calls has begun. -/
theorem InLog.of_begun (h : ∀ f ∈ l.calls, f.owned = none) : InLog o b l := by
  obtain ⟨calls, pc⟩ := l
  cases calls with
  | nil => exact ⟨nofun, nofun, nofun⟩
  | cons f fs =>
    have hf := h f List.mem_cons_self
    refine ⟨fun hm => ?_, fun buf message hw => ?_, fun g hg => h g (.tail _ hg)⟩
    · cases hf.symm.trans hm
    · cases Option.some.inj hw
      cases hf

omit [DecidableEq ω] [PercentageValue V] in
theorem InLog.next (h : InLog o b ⟨f :: fs, pc⟩)
    (hholds : gs.head?.bind Frame.owned = some .gInMtx → .gInMtx ∈ o')
    (htarget : ∀ buf message, gs.head? = some (.log (.write buf message)) → buf = b'.gInBuf)
    (htail : ∀ g ∈ gs.tail, g.owned = none) : InLog o' b' ⟨gs ++ fs, pc⟩ := by
  cases gs with
  | nil => exact InLog.of_begun h.tail
  | cons g gs =>
    refine ⟨hholds, htarget, fun g' hg' => ?_⟩
    rcases List.mem_append.1 hg' with hg' | hg'
    · exact htail g' hg'
    · exact h.tail g' hg'

omit [PercentageValue V] in
theorem Frame.inLog (h : InLog o d.log ⟨f :: fs, pc⟩) :
    (f.code : Code V (List Frame)).Post (Data.perform t) (fun _ => True)
      (fun gs o d => InLog o d.log ⟨gs ++ fs, pc⟩) o d := by
  have hholds : f.owned = some .gInMtx → .gInMtx ∈ o := h.holds
  cases f with
  | log f =>
    cases f with
    | level call =>
      intro i _
      simp only
      split <;> exact h.next (by simp [Frame.owned]) (by simp) (by simp)
    | lock message =>
      simp only [Frame.code, LogPc.code, Instr.post_tryLock]
      refine ⟨fun _ _ => ?_, fun _ => ?_, fun _ => ?_⟩ <;>
        exact h.next (by simp) (by simp) (by simp)
    | inBuf message =>
      intro i _
      refine h.next (fun _ => hholds rfl) ?_ (by simp)
      rintro buf message ⟨⟩
      rfl
    | write buf message => exact fun i _ => h.next (fun _ => hholds rfl) (by simp) (by simp)
    | unlock =>
      simp only [Frame.code, LogPc.code, Instr.post_unlock]
      refine ⟨fun _ => ?_, fun _ => ?_, fun _ => ?_⟩ <;>
        exact h.next (by simp [Frame.owned]) (by simp) (by simp)
    | notify =>
      simp only [Frame.code, LogPc.code, Instr.post_notify]
      refine ⟨fun _ => ?_, fun _ => ?_, fun _ => ?_⟩ <;>
        exact h.next (by simp) (by simp) (by simp)
    | _ => exact fun i _ => h.next (by simp [Frame.owned]) (by simp) (by simp)
  | report f =>
    cases f with
    | threadInfo =>
      intro i _
      simp only
      split <;> exact h.next (by simp [Frame.owned]) (by simp) (by simp)
    | stamp tid => exact fun i _ => h.next (by simp [Frame.owned]) (by simp) (by simp)
    | lock tid =>
      simp only [Frame.code, ReportPc.code, Instr.post_tryLock]
      refine ⟨fun _ _ => ?_, fun _ => ?_, fun _ => ?_⟩ <;>
        exact h.next (by simp [Frame.owned, Frame.logError]) (by simp [Frame.logError])
          (by simp [Frame.owned])
    | unlock =>
      simp only [Frame.code, ReportPc.code, Instr.post_unlock]
      refine ⟨fun _ => ?_, fun _ => ?_, fun _ => ?_⟩ <;>
        exact h.next (by simp [Frame.owned, Frame.logError]) (by simp [Frame.logError])
          (by simp [Frame.owned])
    | notify =>
      simp only [Frame.code, ReportPc.code, Instr.post_notify]
      refine ⟨fun _ => ?_, fun _ => ?_, fun _ => ?_⟩ <;>
        exact h.next (by simp [Frame.owned, Frame.logError]) (by simp [Frame.logError])
          (by simp [Frame.owned])

/-- The instructions of a thread function begin no call. -/
theorem body_begun (pc : Pc V t) : (body t pc).Post (Data.perform t) (fun _ => True)
    (fun l _ _ => ∀ f ∈ l.calls, f.owned = none) o d := by
  have hpost : BodyPost t (pcMutex t) ∅ ∅ d (body t pc) :=
    body_ownership (Set.empty_subset _) pc (fun m hm => hm.elim)
  refine Instr.Post.of_empty (hpost.mono (fun l _ _ h => h.begun) fun _ h => h) fun ev _ => ?_
  cases body t pc with
  | call c next =>
    cases ev with
    | ret r =>
      cases c with
      | unlock m => exact fun hm => hm.elim
      | _ => trivial
    | act i => trivial
  | _ => trivial

end

/-! ## The logger -/

/-- The logger has to hold `g_inMtx` here. -/
def LoggerPc.guarded : LoggerPc → Bool
  | .timePoint | .isEmpty _ | .killSwitch _ | .wait _ | .killTest | .breakUnlock | .swap | .unlock
  | .finalSwap | .drain .finalInBuf | .fputs .finalInBuf _ => true
  | _ => false

theorem unguarded {pc : LoggerPc} {p : Prop} (h : pc.guarded = false) (hpc : pc.guarded = true) :
    p :=
  absurd (h.symm.trans hpc) Bool.false_ne_true

theorem forall_mem_none {α : Type*} {p : α → Prop} : ∀ v ∈ (none : Option α), p v :=
  fun v hv => absurd hv (Option.not_mem_none v)

/-- Where the messages are. Once the logger has taken `g_inMtx` for the last time, `w` is what it
has to flush, if that matters; up to then it is `none`. -/
def LoggerPc.Accounts (w : Option (List LogItem)) (b : LogBuffers) : LoggerPc → Prop
  | .threadInfoSet | .fopen | .head | .lock | .timePoint | .isEmpty _ | .killSwitch _ | .wait _
  | .killTest | .breakUnlock | .swap | .finalLock =>
    w = none ∧ b.Conserved [] ∧ b.secondaryItems = []
  | .unlock | .drain .loop => w = none ∧ b.Conserved []
  | .fputs .loop item => w = none ∧ b.Conserved [item]
  | .finalSwap => b.Conserved [] ∧ b.secondaryItems = [] ∧ ∀ v ∈ w, b.written = v
  | .drain .finalInBuf => ∀ v ∈ w, b.Flushing v [] ∧ b.inItems = []
  | .fputs .finalInBuf _ => w = none
  | .finalUnlock | .drain .finalSecondaryBuf => ∀ v ∈ w, b.Flushing v []
  | .fputs .finalSecondaryBuf item => ∀ v ∈ w, b.Flushing v [item]
  | .exited => ∀ v ∈ w, b.Flushing v [] ∧ b.secondaryItems = []

variable {w : Option (List LogItem)} {b : LogBuffers} {pc : LoggerPc} {message : LogMessage}
  {o : Set Mutex} {d : Data ω V} {t : Thread ω}

omit [DecidableEq ω] [PercentageValue V] in
/-- A message is written while the logger does not hold the mutex, or is inside its wait. -/
theorem LoggerPc.Accounts.write (h : pc.Accounts w b)
    (hpc : pc.guarded = true → ∃ tp, pc = .wait tp) :
    pc.Accounts w (LogAct.performWrite b b.gInBuf message) := by
  cases pc with
  | threadInfoSet | fopen | head | lock | wait | finalLock =>
    obtain ⟨hw, hconserved, hsecondary⟩ := h
    exact ⟨hw, hconserved.write, by rw [LogAct.secondaryItems_performWrite, hsecondary]⟩
  | drain k =>
    cases k with
    | loop => exact ⟨h.1, h.2.write⟩
    | finalInBuf => obtain ⟨tp, ⟨⟩⟩ := hpc rfl
    | finalSecondaryBuf => exact fun v hv => (h v hv).write
  | fputs k item =>
    cases k with
    | loop => exact ⟨h.1, h.2.write⟩
    | finalInBuf => exact h
    | finalSecondaryBuf => exact fun v hv => (h v hv).write
  | finalUnlock => exact fun v hv => (h v hv).write
  | exited =>
    intro v hv
    exact ⟨(h v hv).1.write, by rw [LogAct.secondaryItems_performWrite, (h v hv).2]⟩
  | _ => obtain ⟨tp, ⟨⟩⟩ := hpc rfl

omit [PercentageValue V] in
theorem Data.log_perform {a : Act V} (ha : ∀ x, a ≠ .log x) (i : Input V) :
    (d.perform t a i).1.log = d.log := by
  cases a with
  | log x => exact absurd rfl (ha x)
  | _ => rfl

/-- What the logger's annotation says besides `InLog`. -/
structure Logger.Delivers (w : Option (List LogItem)) (o : Set Mutex) (l : Control LoggerPc)
    (b : LogBuffers) : Prop where
  guarded : l.pc.guarded = true → .gInMtx ∈ o ∧ l.frameMutex ≠ some .gInMtx
  accounts : l.pc.Accounts w b

omit [PercentageValue V] in
/-- The logger's own instructions. A lock attempt of the main loop fails only if the logger holds
the mutex itself. -/
theorem Logger.delivers (hguarded : pc.guarded = true → .gInMtx ∈ o)
    (h : pc.Accounts w d.log) :
    (code pc : Code V (Control LoggerPc)).Post (Data.perform t)
      (fun ev => pc = .lock → ∀ r, ev = .ret r → r ≠ .success → .gInMtx ∈ o)
      (fun l o d => (l.pc.guarded = true → .gInMtx ∈ o) ∧ l.pc.Accounts w d.log) o d := by
  cases pc with
  | threadInfoSet | fopen =>
    intro i _
    obtain ⟨rfl, -⟩ := id h
    simp only
    split
    · exact ⟨unguarded rfl, h⟩
    · exact ⟨unguarded rfl, forall_mem_none⟩
  | head =>
    intro i _
    simp only
    split <;> exact ⟨unguarded rfl, h⟩
  | lock =>
    simp only [code, Instr.post_tryLock]
    refine ⟨fun _ _ => ⟨unguarded rfl, h⟩, fun hfailed => ⟨fun _ => ?_, h⟩,
      fun hfailed => ⟨fun _ => ?_, h⟩⟩
    · exact hfailed trivial _ rfl (by decide)
    · exact hfailed trivial _ rfl (by decide)
  | timePoint => exact fun i _ => ⟨fun _ => hguarded rfl, h⟩
  | isEmpty tp | killSwitch tp | killTest =>
    intro i _
    simp only
    split <;> exact ⟨fun _ => hguarded rfl, h⟩
  | wait tp =>
    intro r _ _
    cases r <;> exact ⟨fun _ => Set.mem_insert _ _, h⟩
  | breakUnlock =>
    intro r _ _
    simp only [Control.pc_logUnless]
    exact ⟨unguarded rfl, h⟩
  | swap => exact fun i _ => ⟨fun _ => hguarded rfl, h.1, h.2.1.swap h.2.2⟩
  | unlock =>
    intro r _ _
    simp only [Control.pc_logUnless]
    exact ⟨unguarded rfl, h⟩
  | drain k =>
    cases k with
    | loop =>
      intro i _
      have hread := h.2.read
      simp only [Data.perform]
      cases hx : (LogAct.readSecondaryBuf.perform d.log).2 with
      | none =>
        rw [hx] at hread
        exact ⟨unguarded rfl, h.1, hread, secondaryItems_read_none hx⟩
      | some item =>
        rw [hx] at hread
        exact ⟨unguarded rfl, h.1, hread⟩
    | finalInBuf =>
      intro i _
      simp only [Data.perform]
      cases w with
      | none =>
        cases (LogAct.readInBuf.perform d.log).2 with
        | none => exact ⟨unguarded rfl, forall_mem_none⟩
        | some item => exact ⟨fun _ => hguarded rfl, rfl⟩
      | some v =>
        rw [readInBuf_of_empty (h v rfl).2]
        exact ⟨unguarded rfl, fun v hv => (h v hv).1⟩
    | finalSecondaryBuf =>
      intro i _
      have hread : ∀ v ∈ w, (LogAct.readSecondaryBuf.perform d.log).1.Flushing v
          (LogAct.readSecondaryBuf.perform d.log).2.toList := fun v hv => (h v hv).read
      simp only [Data.perform]
      cases hx : (LogAct.readSecondaryBuf.perform d.log).2 with
      | none =>
        rw [hx] at hread
        exact ⟨unguarded rfl, fun v hv => ⟨hread v hv, secondaryItems_read_none hx⟩⟩
      | some item =>
        rw [hx] at hread
        exact ⟨unguarded rfl, hread⟩
  | fputs k item =>
    cases k with
    | loop => exact fun i _ => ⟨unguarded rfl, h.1, h.2.fputs⟩
    | finalInBuf =>
      obtain rfl := id h
      exact fun i _ => ⟨fun _ => hguarded rfl, forall_mem_none⟩
    | finalSecondaryBuf => exact fun i _ => ⟨unguarded rfl, fun v hv => (h v hv).fputs⟩
  | finalLock =>
    obtain ⟨rfl, hconserved, hsecondary⟩ := h
    simp only [code, Instr.post_tryLock]
    refine ⟨fun _ _ => ⟨fun _ => Set.mem_insert _ _, hconserved, hsecondary, forall_mem_none⟩,
      fun _ => ⟨unguarded rfl, forall_mem_none⟩, fun _ => ⟨unguarded rfl, forall_mem_none⟩⟩
  | finalSwap =>
    obtain ⟨hconserved, hsecondary, hw⟩ := h
    refine fun i _ => ⟨fun _ => hguarded rfl, fun v hv => ⟨?_, hsecondary⟩⟩
    rw [← hw v hv]
    exact hconserved.swap_flushing hsecondary
  | finalUnlock =>
    intro r _ _
    simp only [Control.pc_logUnless]
    exact ⟨unguarded rfl, h⟩
  | exited => trivial

omit [DecidableEq ω] [PercentageValue V] in
theorem Logger.Delivers.next {fs gs : List Frame} (hfs : ∀ f ∈ fs, f.owned = none)
    (hguarded : pc.guarded = true → .gInMtx ∈ o ∧ gs.head?.bind Frame.owned ≠ some .gInMtx)
    (h : pc.Accounts w b) : Logger.Delivers w o ⟨gs ++ fs, pc⟩ b := by
  refine ⟨fun hpc => ⟨(hguarded hpc).1, ?_⟩, h⟩
  cases gs with
  | nil =>
    rw [List.nil_append, Control.frameMutex_eq_none hfs]
    simp
  | cons g gs => exact (hguarded hpc).2

omit [PercentageValue V] in
/-- The logger's calls of `Log` and `Watchdog_reportActive`. -/
theorem Frame.delivers {f : Frame} {fs : List Frame} (hin : InLog o d.log ⟨f :: fs, pc⟩)
    (hguarded : pc.guarded = true → .gInMtx ∈ o ∧ f.owned ≠ some .gInMtx)
    (h : pc.Accounts w d.log) :
    (f.code : Code V (List Frame)).Post (Data.perform t) (fun _ => True)
      (fun gs o d => Logger.Delivers w o ⟨gs ++ fs, pc⟩ d.log) o d := by
  have hfs : ∀ f ∈ fs, f.owned = none := hin.tail
  cases f with
  | log f =>
    cases f with
    | level call =>
      intro i _
      simp only
      split <;> exact .next hfs (fun hpc => ⟨(hguarded hpc).1, by simp [Frame.owned]⟩) h
    | lock message =>
      simp only [Frame.code, LogPc.code, Instr.post_tryLock]
      refine ⟨fun hnot _ => ?_, fun _ => ?_, fun _ => ?_⟩
      · exact .next hfs (fun hpc => absurd (hguarded hpc).1 hnot) h
      · exact .next hfs (fun hpc => ⟨(hguarded hpc).1, by simp⟩) h
      · exact .next hfs (fun hpc => ⟨(hguarded hpc).1, by simp⟩) h
    | inBuf message => exact fun i _ => .next hfs (fun hpc => absurd rfl (hguarded hpc).2) h
    | write buf message =>
      intro i _
      obtain rfl := hin.target buf message rfl
      refine .next hfs (fun hpc => absurd rfl (hguarded hpc).2) (h.write fun hpc => ?_)
      exact absurd rfl (hguarded hpc).2
    | unlock =>
      simp only [Frame.code, LogPc.code, Instr.post_unlock]
      refine ⟨fun _ => ?_, fun _ => ?_, fun _ => ?_⟩ <;>
        exact .next hfs (fun hpc => absurd rfl (hguarded hpc).2) h
    | notify =>
      simp only [Frame.code, LogPc.code, Instr.post_notify]
      refine ⟨fun _ => ?_, fun _ => ?_, fun _ => ?_⟩ <;>
        exact .next hfs (fun hpc => ⟨(hguarded hpc).1, by simp⟩) h
    | _ => exact fun i _ => .next hfs (fun hpc => ⟨(hguarded hpc).1, by simp [Frame.owned]⟩) h
  | report f =>
    have hnext : ∀ {gs : List Frame}, gs.head?.bind Frame.owned ≠ some .gInMtx →
        Logger.Delivers w o ⟨gs ++ fs, pc⟩ d.log :=
      fun hgs => .next hfs (fun hpc => ⟨(hguarded hpc).1, hgs⟩) h
    cases f with
    | threadInfo =>
      intro i _
      simp only
      split <;> exact hnext (by simp [Frame.owned])
    | stamp tid => exact fun i _ => hnext (by simp [Frame.owned])
    | lock tid =>
      simp only [Frame.code, ReportPc.code, Instr.post_tryLock]
      refine ⟨fun _ _ => ?_, fun _ => ?_, fun _ => ?_⟩
      · exact .next hfs (fun hpc => ⟨.inr (hguarded hpc).1, by simp [Frame.owned]⟩) h
      · exact hnext (by simp [Frame.owned, Frame.logError])
      · exact hnext (by simp [Frame.owned, Frame.logError])
    | unlock =>
      simp only [Frame.code, ReportPc.code, Instr.post_unlock]
      refine ⟨fun _ => ?_, fun _ => ?_, fun _ => ?_⟩
      · exact .next hfs (fun hpc => ⟨⟨(hguarded hpc).1, by simp⟩, by simp [Frame.owned]⟩) h
      · exact hnext (by simp [Frame.owned, Frame.logError])
      · exact hnext (by simp [Frame.owned, Frame.logError])
    | notify =>
      simp only [Frame.code, ReportPc.code, Instr.post_notify]
      refine ⟨fun _ => ?_, fun _ => ?_, fun _ => ?_⟩ <;>
        exact hnext (by simp [Frame.owned, Frame.logError])

/-! ## All threads -/

def LoggerDelivers (w : Option (List LogItem)) :
    (t : Thread ω) → Loc V t → Set Mutex → LogBuffers → Prop
  | .logger, l, o, b => Logger.Delivers w o l b
  | _, _, _, _ => True

/-- The annotation of all threads. -/
def Delivers (w : Option (List LogItem)) (t : Thread ω) (l : Loc V t) (o : Set Mutex)
    (d : Data ω V) : Prop :=
  InLog o d.log l ∧ LoggerDelivers w t l o d.log

/-- A lock attempt of the main loop fails only if the logger holds the mutex itself. -/
def LocksOrOwns : (t : Thread ω) → Loc V t → Set Mutex → Data ω V → Event (Input V) → Prop
  | .logger, l, o, _, ev => l = .goto .lock → ∀ r, ev = .ret r → r ≠ .success → .gInMtx ∈ o
  | _, _, _, _, _ => True

theorem delivers_of_post {allow : Event (Input V) → Prop}
    (h : (Logger.code pc : Code V (Control LoggerPc)).Post (Data.perform (.logger : Thread ω)) allow
      (fun l o d => (l.pc.guarded = true → .gInMtx ∈ o) ∧ l.pc.Accounts w d.log) o d) :
    (body (.logger : Thread ω) pc).Post (Data.perform .logger) allow (Delivers w .logger) o d := by
  refine (h.and (body_begun (t := .logger) pc)).mono (fun l o d h => ?_) fun _ hev => ⟨hev, trivial⟩
  obtain ⟨⟨hguarded, haccounts⟩, hbegun⟩ := h
  refine ⟨.of_begun hbegun, fun hpc => ⟨hguarded hpc, ?_⟩, haccounts⟩
  rw [Control.frameMutex_eq_none hbegun]
  simp

variable {u : Thread ω}

omit [DecidableEq ω] in
/-- The other thread functions do not use the logger's buffers. -/
theorem body_log {pc : Pc V u} {x : LogAct} {next : x.Result → Loc V u}
    (h : body u pc = .act (.log x) next) : u = .logger := by
  cases u with
  | logger => rfl
  | reader =>
    cases pc with
    | waiting p w => cases w <;> cases h
    | _ => cases h
  | analyzer =>
    cases pc with
    | waitingIn v w | waitingOut v w => cases w <;> cases h
    | _ => cases h
  | printer =>
    cases pc with
    | waiting u w => cases w <;> cases h
    | _ => cases h
  | watchdog => cases pc <;> cases h
  | other w =>
    cases pc
    cases h

/-- They do so inside `Log`. -/
theorem program_log {l : Loc V u} {x : LogAct} {next : x.Result → Loc V u} (hu : u ≠ .logger)
    (h : (program ω V).code u l = .act (.log x) next) :
    x = .inBuf ∨ ∃ buf message, x = .write buf message ∧
      l.calls.head? = some (.log (.write buf message)) := by
  obtain ⟨calls, pc⟩ := l
  cases calls with
  | nil => exact absurd (body_log h) hu
  | cons f fs =>
    rw [program_code_cons] at h
    obtain ⟨next', hf, -⟩ := Instr.map_eq_act h
    rcases f with pc | pc <;> cases pc <;> cases hf
    · exact .inl rfl
    · exact .inr ⟨_, _, rfl, rfl⟩

/-- Where the logger swaps the buffers, it has to hold the mutex. -/
theorem guarded_of_swap {l : Control LoggerPc} {next : Unit → Control LoggerPc}
    (h : (program ω V).code .logger l = .act (.log .swap) next) : l.pc.guarded = true := by
  obtain ⟨calls, pc⟩ := l
  cases calls with
  | nil =>
    cases pc with
    | swap | finalSwap => rfl
    | drain k => cases k <;> cases h
    | _ => cases h
  | cons f fs =>
    rw [program_code_cons] at h
    obtain ⟨next', hf, -⟩ := Instr.map_eq_act h
    rcases f with pc | pc <;> cases pc <;> cases hf

omit [DecidableEq ω] [PercentageValue V] in
theorem frameMutex_of_write {P : Type} {l : Control P} {buf : Bool}
    (h : l.calls.head? = some (.log (.write buf message))) : l.frameMutex = some .gInMtx := by
  obtain ⟨calls, pc⟩ := l
  cases calls with
  | nil => cases h
  | cons f fs =>
    cases h
    rfl

omit [DecidableEq ω] [PercentageValue V] in
theorem InLog.others {P : Type} {b' : LogBuffers} {l : Control P} (h : InLog o b l)
    (hb : ∀ buf message, l.calls.head? = some (.log (.write buf message)) →
      b'.gInBuf = b.gInBuf) : InLog o b' l :=
  ⟨h.holds, fun buf message hw => (h.target buf message hw).trans (hb buf message hw).symm, h.tail⟩

theorem delivers_outline (w : Option (List LogItem)) :
    Outline (program ω V) LocksOrOwns (Delivers w) where
  own t l o d h := by
    obtain ⟨hin, hlogger⟩ := h
    obtain ⟨calls, pc⟩ := l
    cases calls with
    | nil =>
      cases t with
      | logger =>
        have hguarded : pc.guarded = true → .gInMtx ∈ o := fun hpc => (hlogger.guarded hpc).1
        have hpost := delivers_of_post (Logger.delivers hguarded hlogger.accounts)
        refine hpost.mono (fun _ _ _ h => h) fun ev hev => ?_
        rintro rfl
        exact hev rfl
      | _ => exact (body_begun pc).mono (fun _ _ _ h => ⟨.of_begun h, trivial⟩) fun _ _ => trivial
    | cons f fs =>
      rw [program_code_cons, Instr.post_map]
      cases t with
      | logger =>
        exact ((Frame.inLog hin).and (Frame.delivers hin hlogger.guarded hlogger.accounts)).mono
          (fun _ _ _ h => h) fun _ _ => ⟨trivial, trivial⟩
      | _ => exact (Frame.inLog hin).mono (fun _ _ _ h => ⟨h, trivial⟩) fun _ _ => trivial
  wait t l o d m _ h := by
    obtain ⟨hin, hlogger⟩ := h
    refine ⟨⟨fun hm => .inr (hin.holds hm), hin.target, hin.tail⟩, ?_⟩
    cases t with
    | logger =>
      exact ⟨fun hpc => ⟨.inr (hlogger.guarded hpc).1, (hlogger.guarded hpc).2⟩, hlogger.accounts⟩
    | _ => trivial
  others t u htu l l' o o' d a next i h h' hc _ hshared := by
    by_cases ha : ∃ x, a = .log x
    · obtain ⟨x, rfl⟩ := ha
      by_cases hu : u = .logger
      · subst hu
        refine ⟨h.1.others fun buf message hw => ?_, ?_⟩
        · cases x with
          | swap =>
            -- both hold the mutex, and a thread inside `Log` does not wait
            have hmutex := frameMutex_of_write hw
            have hwaits := hshared .gInMtx (h.1.holds hmutex)
              (h'.2.guarded (guarded_of_swap hc)).1
            cases (waits_in_body hwaits).1.symm.trans hmutex
          | _ => rfl
        · cases t with
          | logger => exact absurd rfl htu
          | _ => trivial
      · rcases program_log hu hc with rfl | ⟨buf, message, rfl, hw⟩
        · exact h
        · obtain rfl := h'.1.target buf message hw
          refine ⟨h.1.others fun _ _ _ => rfl, ?_⟩
          cases t with
          | logger =>
            refine ⟨h.2.guarded, h.2.accounts.write fun hpc => ?_⟩
            have hwaits := hshared .gInMtx (h.2.guarded hpc).1
              (h'.1.holds (frameMutex_of_write hw))
            exact (Logger.waits (waits_in_body hwaits).2).2
          | _ => trivial
    · have hlog : ((program ω V).perform u a i d).1.log = d.log :=
        Data.log_perform (fun x hx => ha ⟨x, hx⟩) i
      unfold Delivers
      rw [hlog]
      exact h
  env t l o d e h := by
    cases e <;> exact h

/-! ## Leaving the main loop -/

/-- The thread is about to write a message. -/
def Control.writes {P : Type} : Control P → Bool
  | ⟨.log (.write _ _) :: _, _⟩ => true
  | _ => false

variable {s s' s₁ s₂ : SysState ω V} {lab : SysLabel ω V}

/-- The runs in which the logger delivers the messages. -/
structure DeliveryConditions (s : SysState ω V) (lab : SysLabel ω V) : Prop where
  /-- A lock attempt succeeds on a free mutex and times out on any other. -/
  locks : (program ω V).EveryReturn (fun s _ => Call.TimedLock s.owner) s lab
  /-- No other thread owns `g_inMtx` when a lock attempt of the main loop returns. -/
  loopLock : ∀ r, lab.event = some (.logger, .ret r) → s.loc .logger = .goto .lock →
    ∀ u, s.owner .gInMtx = some u → u = .logger
  /-- Nobody owns `g_inMtx` when the last lock attempt returns, or there is nothing to flush. -/
  finalLock : ∀ r, lab.event = some (.logger, .ret r) → s.loc .logger = .goto .finalLock →
    s.owner .gInMtx = none ∨ s.data.log.inItems = []
  /-- No message is written between the main loop and the last lock attempt. -/
  window : (s.loc .logger).pc = .finalLock → ∀ t, lab.actor = some t → (s.loc t).writes = false

theorem program_write {l : Loc V t} {buf : Bool} {next : Unit → Loc V t}
    (h : (program ω V).code t l = .act (.log (.write buf message)) next) : l.writes = true := by
  obtain ⟨calls, pc⟩ := l
  cases calls with
  | nil =>
    obtain rfl := body_log h
    cases pc with
    | drain k => cases k <;> cases h
    | _ => cases h
  | cons f fs =>
    rw [program_code_cons] at h
    obtain ⟨next', hf, -⟩ := Instr.map_eq_act h
    rcases f with pc | pc <;> cases pc <;> cases hf
    rfl

theorem Step.written_eq (h : Step (program ω V) s lab s')
    (hw : ∀ t, lab.actor = some t → (s.loc t).writes = false) :
    s'.data.log.written = s.data.log.written := by
  cases h with
  | @act t a next i hr hc =>
    cases a with
    | log x =>
      cases x with
      | write buf message => cases (hw t rfl).symm.trans (program_write hc)
      | _ => rfl
    | _ => rfl
  | @env e => cases e <;> rfl
  | _ => simp

/-- A call does not change the location of its caller. -/
theorem Step.pc_eq (h : Step (program ω V) s lab s') (hactor : lab.actor = some t)
    (hcalls : (s.loc t).calls ≠ []) : (s'.loc t).pc = (s.loc t).pc := by
  refine h.post (Q := fun l _ _ => l.pc = (s.loc t).pc) hactor (fun _ _ => trivial)
    (fun _ _ _ => rfl) ?_
  generalize s.loc t = l at *
  obtain ⟨calls, pc⟩ := l
  cases calls with
  | nil => exact absurd rfl hcalls
  | cons f fs =>
    rw [program_code_cons, Instr.post_map]
    cases (f.code : Code V (List Frame)) with
    | call c next => exact fun _ _ _ => rfl
    | act a next => exact fun _ _ => rfl
    | sleep ms next => rfl
    | exit => trivial

theorem DeliveryConditions.locksOrOwns (h : DeliveryConditions s lab) {ev : Event (Input V)}
    (hev : lab.event = some (t, ev)) :
    LocksOrOwns t (s.loc t) ((program ω V).held s t) s.data ev := by
  cases t with
  | logger =>
    rintro hlock r rfl hr
    have hlocks := h.locks _ _ hev
    rw [hlock] at hlocks
    change if s.owner .gInMtx = none then r = .success else r = .timedout at hlocks
    refine .inl ?_
    cases howner : s.owner .gInMtx with
    | none => exact absurd (by rwa [if_pos howner] at hlocks) hr
    | some u => rw [h.loopLock r hev hlock u howner]
  | _ => trivial

theorem Run.delivers (hs : Run DeliveryConditions s) (t : Thread ω) :
    Delivers none t (s.loc t) ((program ω V).held s t) s.data := by
  refine Reach.outline (delivers_outline none) (fun s hs => ⟨hs.1, fun t => ?_⟩)
    (fun s lab _ hok t ev hev => hok.locksOrOwns hev) hs t
  obtain ⟨-, hloc, hdata⟩ := hs
  unfold Delivers
  rw [hloc, hdata.log]
  refine ⟨.of_begun nofun, ?_⟩
  cases t with
  | logger => exact ⟨nofun, rfl, conserved_initial, secondaryItems_initial⟩
  | _ => trivial

omit [PercentageValue V] in
/-- The last lock attempt. If it fails, nothing is left to flush. -/
theorem Logger.finalLock_delivers (hpc : pc = .finalLock) (h : pc.Accounts none d.log) :
    (code pc : Code V (Control LoggerPc)).Post (Data.perform t)
      (fun ev => ∀ r, ev = .ret r → r ≠ .success → d.log.inItems = [])
      (fun l o d' => (l.pc.guarded = true → .gInMtx ∈ o) ∧
        l.pc.Accounts (some d.log.written) d'.log) o d := by
  subst hpc
  obtain ⟨-, hconserved, hsecondary⟩ := h
  simp only [code, Instr.post_tryLock]
  refine ⟨fun _ _ => ⟨fun _ => Set.mem_insert _ _, hconserved, hsecondary, ?_⟩,
    fun hfailed => ⟨unguarded rfl, ?_⟩, fun hfailed => ⟨unguarded rfl, ?_⟩⟩
  · rintro v ⟨⟩
    rfl
  · rintro v ⟨⟩
    exact ⟨hconserved.flushing (hfailed _ rfl (by decide)), hsecondary⟩
  · rintro v ⟨⟩
    exact ⟨hconserved.flushing (hfailed _ rfl (by decide)), hsecondary⟩

theorem DeliveryConditions.finalLock_fails (h : DeliveryConditions s lab)
    (hpc : s.loc .logger = .goto .finalLock) {r : ThrdResult}
    (hev : lab.event = some (.logger, .ret r)) (hr : r ≠ .success) : s.data.log.inItems = [] := by
  have hlocks := h.locks _ _ hev
  rw [hpc] at hlocks
  change if s.owner .gInMtx = none then r = .success else r = .timedout at hlocks
  rcases h.finalLock r hev hpc with hfree | hempty
  · rw [if_pos hfree] at hlocks
    exact absurd hlocks hr
  · exact hempty

theorem DeliveryConditions.finalLock_delivers (h : DeliveryConditions s lab)
    (hstep : Step (program ω V) s lab s') (hactor : lab.actor = some .logger)
    (hloc : s.loc .logger = .goto .finalLock)
    (hdelivers : Delivers none .logger (s.loc .logger) ((program ω V).held s .logger) s.data) :
    Delivers (some s.data.log.written) .logger (s'.loc .logger) ((program ω V).held s' .logger)
      s'.data := by
  have hcode : (program ω V).code .logger (s.loc .logger) = body .logger .finalLock := by
    rw [hloc]
    rfl
  have haccounts := hdelivers.2.accounts
  rw [hloc] at haccounts
  have hpost := delivers_of_post (Logger.finalLock_delivers (t := .logger)
    (o := (program ω V).held s .logger) rfl haccounts)
  rw [← hcode] at hpost
  refine hstep.post hactor (fun ev hev => ?_) (fun _ m hm => ?_) hpost
  · rintro r rfl hr
    exact h.finalLock_fails hloc hev hr
  · rw [hcode] at hm
    exact hm.elim

/-- `w` is what the logger has to deliver. It is about to take `g_inMtx` for the last time, or it
is past that. -/
def Leaving (w : List LogItem) (s : SysState ω V) : Prop :=
  ((s.loc .logger).pc = .finalLock ∧ s.data.log.written = w ∧
    ∀ t, Delivers none t (s.loc t) ((program ω V).held s t) s.data) ∨
  ∀ t, Delivers (some w) t (s.loc t) ((program ω V).held s t) s.data

theorem Leaving.step {w : List LogItem} (h : Leaving w s) (hok : DeliveryConditions s lab)
    (hstep : Step (program ω V) s lab s') : Leaving w s' := by
  rcases h with ⟨hpc, rfl, hdelivers⟩ | hdelivers
  · have hdelivers' := (delivers_outline none).step hstep (fun _ _ hev => hok.locksOrOwns hev)
      hdelivers
    have hwritten := Step.written_eq hstep (hok.window hpc)
    by_cases hactor : lab.actor = some .logger
    · by_cases hcalls : (s.loc .logger).calls = []
      · refine .inr fun t => ?_
        cases t with
        | logger =>
          have hloc : s.loc .logger = .goto .finalLock := by
            rw [← hpc, Control.goto, ← hcalls]
          exact hok.finalLock_delivers hstep hactor hloc (hdelivers .logger)
        | _ => exact ⟨(hdelivers' _).1, trivial⟩
      · exact .inl ⟨(Step.pc_eq hstep hactor hcalls).trans hpc, hwritten, hdelivers'⟩
    · exact .inl ⟨by rw [(hstep.unchanged hactor).2.2, hpc], hwritten, hdelivers'⟩
  · exact .inr ((delivers_outline (some w)).step hstep (fun _ _ hev => hok.locksOrOwns hev)
      hdelivers)

/-- `s₁` is a state in which the logger has left its main loop, and `s₂` one in which it has
exited. -/
theorem log_delivered (h₁ : Run DeliveryConditions s₁)
    (hleft : (s₁.loc .logger).pc = .finalLock)
    (h₂ : Reach (· = s₁) (Step (program ω V)) DeliveryConditions s₂)
    (hexit : (s₂.loc .logger).pc = .exited) :
    s₂.data.log.file = kept s₁.data.log.written s₂.data.log.overwritten ∧
      s₁.data.log.written.Nodup := by
  have hleaving : Leaving s₁.data.log.written s₂ := by
    refine h₂.invariant ?_ fun s lab s' _ h hok hstep => h.step hok hstep
    rintro s rfl
    exact .inl ⟨hleft, rfl, h₁.delivers⟩
  rcases hleaving with ⟨hpc, -, -⟩ | hdelivers
  · cases hpc.symm.trans hexit
  · have haccounts := (hdelivers .logger).2.accounts
    rw [hexit] at haccounts
    obtain ⟨hflushing, hsecondary⟩ := haccounts _ rfl
    have hkept := hflushing.kept_eq
    rw [hsecondary, List.append_nil, List.append_nil] at hkept
    exact ⟨hkept.symm, hflushing.nodup.sublist hflushing.before.sublist⟩

/-- The schedules that meet the conditions. -/
def permitsDelivery (s : SysState Empty V) (lab : SysLabel Empty V) : Bool :=
  match (s.loc .logger).pc with
  | .lock => s.owner .gInMtx = none || s.owner .gInMtx = some .logger
  | .finalLock => s.owner .gInMtx = none && lab.actor.all fun t => !(s.loc t).writes
  | _ => true

theorem deliveryConditions_of_permits {s : SysState Empty V} {lab : SysLabel Empty V}
    (hn : (program Empty V).Nominal s lab) (h : permitsDelivery s lab = true) :
    DeliveryConditions s lab where
  locks := hn.timedLock
  loopLock r _ hlock u howner := by simpa [permitsDelivery, hlock, howner] using h
  finalLock r _ hlock := by
    simp only [permitsDelivery, hlock, Control.pc_goto, Bool.and_eq_true, decide_eq_true_eq] at h
    exact .inl h.1
  window hpc t ht := by
    simp only [permitsDelivery, hpc, ht, Bool.and_eq_true] at h
    simpa using h.2

/-- One message is delivered in the main loop and another one at the end. -/
theorem log_delivered_both : ∃ s₁ s₂ : SysState Empty ℚ,
    (s₁.loc .logger).pc = .finalLock ∧ (s₂.loc .logger).pc = .exited ∧
    s₁.data.log.file.length = 1 ∧ s₂.data.log.file.length = 2 ∧
    s₂.data.log.file = kept s₁.data.log.written s₂.data.log.overwritten ∧
    s₁.data.log.written.Nodup := by
  have hrun : ∃ s₁ s₂ : SysState Empty ℚ, Run DeliveryConditions s₁ ∧
      Reach (· = s₁) (Step (program Empty ℚ)) DeliveryConditions s₂ ∧
      (decide ((s₁.loc .logger).pc = .finalLock) && decide ((s₂.loc .logger).pc = .exited) &&
        s₁.data.log.file.length == 1 && s₂.data.log.file.length == 2) = true := by
    refine Run.play_on permitsDelivery (fun _ _ => deliveryConditions_of_permits)
      (steps .reader 26 (.userIdle 0 0) ++ steps .logger 24 (.userIdle 0 0) ++
        steps .reader 26 (.userIdle 0 0) ++ [.env .signal] ++ steps .logger 1 (.userIdle 0 0))
      (steps .logger 8 (.userIdle 0 0)) ?_
    decide +kernel
  obtain ⟨s₁, s₂, h₁, h₂, hcheck⟩ := hrun
  simp only [Bool.and_eq_true, decide_eq_true_eq, beq_iff_eq] at hcheck
  obtain ⟨⟨⟨hleft, hexit⟩, hfile₁⟩, hfile₂⟩ := hcheck
  exact ⟨s₁, s₂, hleft, hexit, hfile₁, hfile₂, log_delivered h₁ hleft h₂ hexit⟩

/-- The logger's first lock attempt succeeds, and the kill switch is on when it gets back to the
head of the loop: its last attempt finds the mutex held, by itself. -/
theorem log_not_delivered : ∃ s₁ s₂ : SysState Empty ℚ,
    Run (program Empty ℚ).Nominal s₁ ∧ (s₁.loc .logger).pc = .finalLock ∧
    Reach (· = s₁) (Step (program Empty ℚ)) (program Empty ℚ).Nominal s₂ ∧
    (s₂.loc .logger).pc = .exited ∧
    s₂.data.log.file ≠ kept s₁.data.log.written s₂.data.log.overwritten := by
  have hrun : ∃ s₁ s₂ : SysState Empty ℚ, Run (program Empty ℚ).Nominal s₁ ∧
      Reach (· = s₁) (Step (program Empty ℚ)) (program Empty ℚ).Nominal s₂ ∧
      (decide ((s₁.loc .logger).pc = .finalLock) && decide ((s₂.loc .logger).pc = .exited) &&
        decide (s₂.data.log.file ≠ kept s₁.data.log.written s₂.data.log.overwritten)) = true := by
    refine Run.play_on (fun _ _ => true) (fun _ _ h _ => h)
      (steps .reader 26 (.userIdle 0 0) ++ steps .logger 9 (.userIdle 0 0) ++ [.env .signal] ++
        steps .logger 1 (.userIdle 0 0))
      (steps .logger 9 (.userIdle 0 0)) ?_
    decide +kernel
  obtain ⟨s₁, s₂, h₁, h₂, hcheck⟩ := hrun
  simp only [Bool.and_eq_true, decide_eq_true_eq] at hcheck
  obtain ⟨⟨hleft, hexit⟩, hfile⟩ := hcheck
  exact ⟨s₁, s₂, h₁, hleft, h₂, hexit, hfile⟩

end CpuUsageTracker
