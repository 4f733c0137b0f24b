import CpuUsageTracker.CallWeights
import CpuUsageTracker.Identity
import CpuUsageTracker.LogDelivery

/-!
# Where the messages come from

**Theorem (`log_genuine`).** In every run, the messages that a thread has written to the buffers
are of calls of `Log` that this thread has made, in this order and each for one call. Their levels
are at most `debug`, the level that `main` sets, and those of the five threads bear the name of the
thread that has written them.

Both lists are a memory of the run (`LogMemory`). Between its beginning and the write, a call is
under way in the first of the frames that the thread is in (`Genuine`), and nowhere else.
-/

namespace CpuUsageTracker

open Threads

variable {ω V P : Type}

/-- The call that the message is of. -/
def LogMessage.call (message : LogMessage) : LogCall := ⟨message.level, message.text⟩

namespace Frame

/-- The message that is about to be written. -/
def message? : Frame → Option LogMessage
  | log (.lock message) | log (.inBuf message) | log (.write _ message) => some message
  | _ => none

/-- The call of `Log` that has begun, until its message is written. -/
def underway : Frame → List LogCall
  | log (.timeStr call) | log (.threadInfo call _) => [call]
  | log (.lock message) | log (.inBuf message) | log (.write _ message) => [message.call]
  | _ => []

theorem message?_of_underway {f : Frame} (h : f.underway = []) : f.message? = none := by
  rcases f with pc | pc <;> cases pc <;> first | rfl | cases h

def underwayWeight (f : Frame) : ℕ := f.underway.length

theorem callWeight_underwayWeight : CallWeight underwayWeight 0 where
  log _ := rfl
  report := by decide

end Frame

theorem underway_of_callsWeight {calls : List Frame}
    (h : callsWeight Frame.underwayWeight calls ≤ 0) : calls.flatMap Frame.underway = [] := by
  induction calls with
  | nil => rfl
  | cons f fs ih =>
    rw [callsWeight_cons, Frame.underwayWeight] at h
    rw [List.flatMap_cons, ih (by omega), List.append_nil]
    exact List.eq_nil_of_length_eq_zero (by omega)

/-! ## The memory -/

/-- The calls of `Log` that have begun, and the messages that were written, with the thread. -/
structure LogMemory (ω : Type) where
  called : List (Thread ω × LogCall)
  wrote : List (Thread ω × LogItem)

namespace LogMemory

def empty : LogMemory ω := ⟨[], []⟩

/-- Thread `t` executes the instruction of a frame. The next message gets the number `n`. -/
def note (m : LogMemory ω) (t : Thread ω) (n : ℕ) : Frame → LogMemory ω
  | .log (.level call) => { m with called := m.called ++ [(t, call)] }
  | .log (.write _ message) => { m with wrote := m.wrote ++ [(t, ⟨n, message⟩)] }
  | _ => m

variable [DecidableEq ω]

/-- What one thread has called, in order. -/
def calledBy (m : LogMemory ω) (t : Thread ω) : List LogCall :=
  (m.called.filter (·.1 = t)).map Prod.snd

def wroteBy (m : LogMemory ω) (t : Thread ω) : List LogItem :=
  (m.wrote.filter (·.1 = t)).map Prod.snd

@[simp] theorem calledBy_empty (t : Thread ω) : (empty : LogMemory ω).calledBy t = [] := rfl
@[simp] theorem wroteBy_empty (t : Thread ω) : (empty : LogMemory ω).wroteBy t = [] := rfl

variable {m : LogMemory ω} {t u : Thread ω} {n : ℕ}

theorem calledBy_level (call : LogCall) :
    (m.note t n (.log (.level call))).calledBy t = m.calledBy t ++ [call] := by
  simp [note, calledBy, List.filter_append]

theorem wroteBy_write (buf : Bool) (message : LogMessage) :
    (m.note t n (.log (.write buf message))).wroteBy t = m.wroteBy t ++ [⟨n, message⟩] := by
  simp [note, wroteBy, List.filter_append]

/-- Nothing is noted for the other threads. -/
theorem note_of_ne (h : t ≠ u) (f : Frame) :
    (m.note u n f).calledBy t = m.calledBy t ∧ (m.note u n f).wroteBy t = m.wroteBy t := by
  unfold note
  split <;> simp [calledBy, wroteBy, List.filter_append, h.symm]

omit [DecidableEq ω] in
theorem wrote_note {f : Frame} (hf : ∀ buf message, f ≠ .log (.write buf message)) :
    (m.note t n f).wrote = m.wrote := by
  unfold note
  split
  · rfl
  · exact absurd rfl (hf _ _)
  · rfl

end LogMemory

def recordLog (s : SysState ω V) (lab : SysLabel ω V) (m : LogMemory ω) : LogMemory ω :=
  match lab.actor with
  | some t =>
    match (s.loc t).calls with
    | f :: _ => m.note t s.data.log.written.length f
    | [] => m
  | none => m

variable [DecidableEq ω] [PercentageValue V]

/-- The states reached by runs whose steps all meet `ok`, each with such a memory. -/
def LogRun (ok : SysState ω V → SysLabel ω V → Prop) : SysState ω V × LogMemory ω → Prop :=
  Reach (fun x => Init x.1 ∧ x.2 = .empty) (Recorded recordLog (Step (program ω V)))
    fun x lab => ok x.1 lab

/-! ## One thread -/

/-- The level is at most the program's, and the name is the thread's. -/
structure LogMessage.Genuine (t : Thread ω) (message : LogMessage) : Prop where
  level : message.level.toNat ≤ LogLevel.debug.toNat
  name : ∀ info, t.info = some info → message.threadName = info.name

/-- What a thread has written, and what it is about to write. -/
structure Genuine (t : Thread ω) (m : LogMemory ω) (calls : List Frame) : Prop where
  order :
    ((m.wroteBy t).map (·.message.call) ++ calls.flatMap Frame.underway).Sublist (m.calledBy t)
  wrote : ∀ item ∈ m.wroteBy t, item.message.Genuine t
  level : ∀ call ∈ calls.flatMap Frame.underway, call.level.toNat ≤ LogLevel.debug.toNat
  name : ∀ f ∈ calls, ∀ message ∈ f.message?, ∀ info, t.info = some info →
    message.threadName = info.name
  first : calls.tail.flatMap Frame.underway = []

theorem genuine_empty (t : Thread ω) : Genuine t .empty [] where
  order := .slnil
  wrote := by simp
  level := by simp
  name := by simp
  first := rfl

namespace Genuine

variable {t : Thread ω} {m m' : LogMemory ω} {f : Frame} {fs gs : List Frame} {n : ℕ}

omit [PercentageValue V]

theorem congr (h : Genuine t m fs) (hcalled : m'.calledBy t = m.calledBy t)
    (hwrote : m'.wroteBy t = m.wroteBy t) : Genuine t m' fs where
  order := by
    rw [hcalled, hwrote]
    exact h.order
  wrote := by
    rw [hwrote]
    exact h.wrote
  level := h.level
  name := h.name
  first := h.first

/-- Only what was under way may go on. -/
theorem next (h : Genuine t m (f :: fs))
    (hunderway : (gs.flatMap Frame.underway).Sublist f.underway)
    (hname : ∀ g ∈ gs, ∀ message ∈ g.message?, ∀ info, t.info = some info →
      message.threadName = info.name)
    (hfirst : gs.tail.flatMap Frame.underway = []) : Genuine t m (gs ++ fs) := by
  have hsub : ((gs ++ fs).flatMap Frame.underway).Sublist
      ((f :: fs).flatMap Frame.underway) := by
    rw [List.flatMap_append, List.flatMap_cons]
    exact hunderway.append_right _
  have hrest : fs.flatMap Frame.underway = [] := h.first
  refine ⟨(hsub.append_left _).trans h.order, h.wrote, fun call hcall => h.level call
    (hsub.subset hcall), fun g hg => ?_, ?_⟩
  · rcases List.mem_append.1 hg with hg | hg
    · exact hname g hg
    · exact h.name g (List.mem_cons_of_mem _ hg)
  · cases gs with
    | nil =>
      refine List.eq_nil_of_subset_nil fun call hcall => ?_
      rw [← hrest]
      obtain ⟨g, hg, hcall⟩ := List.mem_flatMap.1 hcall
      exact List.mem_flatMap.2 ⟨g, List.mem_of_mem_tail hg, hcall⟩
    | cons g gs => rw [List.cons_append, List.tail_cons, List.flatMap_append, hrest,
        List.append_nil, ← hfirst, List.tail_cons]

/-- No call is under way any more. -/
theorem idle (h : Genuine t m fs) (hgs : gs.flatMap Frame.underway = []) : Genuine t m gs := by
  have hnone : ∀ g ∈ gs, g.underway = [] := List.flatMap_eq_nil_iff.1 hgs
  refine ⟨?_, h.wrote, fun call hcall => ?_, fun g hg message hmessage => ?_, ?_⟩
  · rw [hgs, List.append_nil]
    exact (List.sublist_append_left _ _).trans h.order
  · rw [hgs] at hcall
    cases hcall
  · rw [Frame.message?_of_underway (hnone g hg)] at hmessage
    cases hmessage
  · exact List.flatMap_eq_nil_iff.2 fun g hg => hnone g (List.mem_of_mem_tail hg)

theorem stop (h : Genuine t m (f :: fs)) (hgs : gs.flatMap Frame.underway = []) :
    Genuine t m (gs ++ fs) := by
  refine h.idle ?_
  rw [List.flatMap_append, hgs]
  exact h.first

/-- A call begins, if its level is not above the program's. -/
theorem begin {call : LogCall} (h : Genuine t m (.log (.level call) :: fs))
    (hlevel : call.level.toNat ≤ LogLevel.debug.toNat) :
    Genuine t (m.note t n (.log (.level call))) (.log (.timeStr call) :: fs) where
  order := by
    have hrest : fs.flatMap Frame.underway = [] := h.first
    have horder := h.order
    rw [List.flatMap_cons, hrest] at *
    rw [LogMemory.calledBy_level]
    exact ((List.sublist_append_left _ _).trans horder).append_right [call]
  wrote := h.wrote
  level c hc := by
    rw [List.flatMap_cons, show fs.flatMap Frame.underway = [] from h.first] at hc
    rw [List.mem_singleton.1 hc]
    exact hlevel
  name g hg message hmessage := by
    rcases List.mem_cons.1 hg with rfl | hg
    · cases hmessage
    · exact h.name g (List.mem_cons_of_mem _ hg) message hmessage
  first := h.first

/-- A call is not made any more, so it does no harm to have noted it. -/
theorem ignore {call : LogCall} (h : Genuine t m (.log (.level call) :: fs)) :
    Genuine t (m.note t n (.log (.level call))) fs := by
  have hstop : Genuine t m ([] ++ fs) := h.stop rfl
  refine ⟨?_, hstop.wrote, hstop.level, hstop.name, hstop.first⟩
  rw [LogMemory.calledBy_level]
  exact hstop.order.trans (List.sublist_append_left _ _)

/-- The message is written. -/
theorem write {buf : Bool} {message : LogMessage}
    (h : Genuine t m (.log (.write buf message) :: fs)) :
    Genuine t (m.note t n (.log (.write buf message))) (.log .unlock :: fs) where
  order := by
    have horder := h.order
    rw [LogMemory.wroteBy_write, List.map_append, List.append_assoc]
    exact horder
  wrote item hitem := by
    rw [LogMemory.wroteBy_write] at hitem
    rcases List.mem_append.1 hitem with hitem | hitem
    · exact h.wrote item hitem
    · rw [List.mem_singleton.1 hitem]
      exact ⟨h.level message.call (by simp [Frame.underway]),
        h.name _ List.mem_cons_self message rfl⟩
  level := fun c hc => h.level c (List.mem_append_right _ hc)
  name g hg message' hmessage := by
    rcases List.mem_cons.1 hg with rfl | hg
    · cases hmessage
    · exact h.name g (List.mem_cons_of_mem _ hg) message' hmessage
  first := h.first

/-- The instructions of `Log` and `Watchdog_reportActive`. -/
theorem frame {d : Data ω V} (h : Genuine t m (f :: fs)) (o : Set Mutex)
    (hlevel : d.programLoggingLevel = .debug)
    (hinfo : ∀ info, t.info = some info → d.threadInfo t = some info) :
    (f.code : Code V (List Frame)).Post (Data.perform t) (fun _ => True)
      (fun gs _ _ => Genuine t (m.note t n f) (gs ++ fs)) o d := by
  rcases f with pc | pc
  · cases pc with
    | level call =>
      intro i _
      simp only [Data.perform, hlevel]
      split
      · exact h.ignore
      · rename_i hle
        exact h.begin (not_lt.1 hle)
    | timeStr call =>
      exact fun i _ => h.next (List.Sublist.refl _) (by simp [Frame.message?]) rfl
    | threadInfo call time =>
      intro i _
      refine h.next (List.Sublist.refl _) ?_ rfl
      intro g hg message hmessage info ht
      rw [List.mem_singleton.1 hg] at hmessage
      obtain rfl := Option.some.inj hmessage
      simp only [Data.perform, hinfo info ht]
    | lock message =>
      intro r _ _
      simp only
      split
      · exact h.next (List.Sublist.refl _) (fun g hg message' hmessage => by
          rw [List.mem_singleton.1 hg] at hmessage
          exact h.name _ List.mem_cons_self message' hmessage) rfl
      · exact h.stop rfl
    | inBuf message =>
      refine fun i _ => h.next (List.Sublist.refl _) (fun g hg message' hmessage => ?_) rfl
      rw [List.mem_singleton.1 hg] at hmessage
      exact h.name _ List.mem_cons_self message' hmessage
    | write buf message => exact fun i _ => h.write
    | unlock | notify => exact fun r _ _ => h.stop rfl
  · cases pc with
    | threadInfo =>
      intro i _
      simp only
      split <;> exact h.stop rfl
    | stamp tid => exact fun i _ => h.stop rfl
    | lock tid | unlock | notify =>
      intro r _ _
      simp only
      split <;> exact h.stop rfl

end Genuine

/-! ## Runs -/

variable {ok : SysState ω V → SysLabel ω V → Prop} {s s' : SysState ω V} {lab : SysLabel ω V}
  {t u : Thread ω} {m : LogMemory ω}

/-- Nothing changes the level that `main` has set. -/
theorem Run.programLoggingLevel (hs : Run ok s) : s.data.programLoggingLevel = .debug := by
  refine hs.invariant (I := fun s => s.data.programLoggingLevel = .debug) ?_ ?_
  · rintro s ⟨-, -, hdata⟩
    exact hdata.programLoggingLevel
  · intro s lab s' _ h _ hstep
    cases hstep with
    | @act t a next i => cases a <;> exact h
    | @env e => cases e <;> exact h
    | block => simpa using h
    | _ => exact h

omit [DecidableEq ω] [PercentageValue V] in
theorem recordLog_cons {f : Frame} {fs : List Frame} (hactor : lab.actor = some t)
    (hcalls : (s.loc t).calls = f :: fs) :
    recordLog s lab m = m.note t s.data.log.written.length f := by
  unfold recordLog
  rw [hactor]
  simp only [hcalls]

omit [DecidableEq ω] [PercentageValue V] in
theorem recordLog_nil (hactor : lab.actor = some t) (hcalls : (s.loc t).calls = []) :
    recordLog s lab m = m := by
  unfold recordLog
  rw [hactor]
  simp only [hcalls]

omit [PercentageValue V] in
theorem recordLog_of_ne (hactor : lab.actor ≠ some t) :
    (recordLog s lab m).calledBy t = m.calledBy t ∧
      (recordLog s lab m).wroteBy t = m.wroteBy t := by
  unfold recordLog
  split
  · rename_i u hu
    split
    · exact LogMemory.note_of_ne (fun htu => hactor (by rw [hu, htu])) _
    · exact ⟨rfl, rfl⟩
  · exact ⟨rfl, rfl⟩

/-- Nothing that the thread's own function calls is under way. -/
theorem genuine_body {pc : Pc V t} {d : Data ω V} (o : Set Mutex) (h : Genuine t m []) :
    (body t pc).Post (Data.perform t) (fun _ => True) (fun l _ _ => Genuine t m l.calls) o d :=
  ((body_fewCalls Frame.callWeight_underwayWeight t pc).of_empty fun _ h => h).mono
    (fun _ _ _ hl => h.idle (underway_of_callsWeight hl)) fun _ h => h

theorem calls_of_waits {l : Loc V t} {n : Mutex} (h : ((program ω V).code t l).waitsWith n) :
    l.calls = [] := by
  obtain ⟨calls, pc⟩ := l
  cases calls with
  | nil => rfl
  | cons f fs =>
    rw [program_code_cons, Instr.waitsWith_map] at h
    exact absurd h (f.not_waits n)

theorem genuine_step (hs : Run ok s) (hstep : Step (program ω V) s lab s')
    (h : Genuine t m (s.loc t).calls) :
    Genuine t (recordLog s lab m) (s'.loc t).calls := by
  by_cases hactor : lab.actor = some t
  · refine hstep.post (Q := fun l _ _ => Genuine t (recordLog s lab m) l.calls) hactor
      (fun _ _ => trivial) (fun hblock n hn => ?_) ?_
    · -- a thread waits in its own function
      rw [recordLog_nil hactor (calls_of_waits hn)]
      exact h
    · rcases hloc : s.loc t with ⟨calls, pc⟩
      rw [hloc] at h
      cases calls with
      | nil =>
        rw [recordLog_nil hactor (by rw [hloc])]
        exact genuine_body _ h
      | cons f fs =>
        rw [recordLog_cons hactor (by rw [hloc]), program_code_cons, Instr.post_map]
        exact h.frame _ hs.programLoggingLevel fun info ht => hs.known ht (by simp [hloc])
  · obtain ⟨hcalled, hwrote⟩ := recordLog_of_ne (s := s) (m := m) hactor
    rw [(hstep.unchanged hactor).2.2]
    exact h.congr hcalled hwrote

/-- The write is noted with the number that the message gets. -/
theorem wrote_step (hstep : Step (program ω V) s lab s')
    (h : m.wrote.map Prod.snd = s.data.log.written) :
    (recordLog s lab m).wrote.map Prod.snd = s'.data.log.written := by
  by_cases hw : ∃ t, lab.actor = some t ∧ (s.loc t).writes = true
  · obtain ⟨t, hactor, hw⟩ := hw
    rcases hloc : s.loc t with ⟨calls, pc⟩
    rw [hloc] at hw
    obtain ⟨buf, message, fs, rfl⟩ : ∃ buf message fs,
        calls = .log (.write buf message) :: fs := by
      unfold Control.writes at hw
      split at hw
      · rename_i heq
        cases heq
        exact ⟨_, _, _, rfl⟩
      · cases hw
    have hc : (program ω V).code t (s.loc t) = .act (.log (.write buf message))
        fun _ => ⟨.log .unlock :: fs, pc⟩ := by
      rw [hloc]
      rfl
    obtain ⟨i, -, -, rfl⟩ := hstep.eq_act hactor hc
    rw [recordLog_cons hactor (by rw [hloc])]
    show (m.wrote ++ [_]).map Prod.snd = s.data.log.written ++ [_]
    rw [List.map_append, h]
    rfl
  · have hwrites : ∀ t, lab.actor = some t → (s.loc t).writes = false := fun t ht =>
      Bool.eq_false_of_not_eq_true fun hwt => hw ⟨t, ht, hwt⟩
    rw [Step.written_eq hstep hwrites, ← h]
    cases hactor : lab.actor with
    | none =>
      unfold recordLog
      rw [hactor]
    | some t =>
      have hwt := hwrites t hactor
      rcases hloc : s.loc t with ⟨calls, pc⟩
      rw [hloc] at hwt
      cases calls with
      | nil => rw [recordLog_nil hactor (by rw [hloc])]
      | cons f fs =>
        rw [recordLog_cons hactor (by rw [hloc]), LogMemory.wrote_note]
        rintro buf message rfl
        cases hwt

theorem LogRun.genuine {x : SysState ω V × LogMemory ω} (hx : LogRun ok x) :
    Run ok x.1 ∧ x.2.wrote.map Prod.snd = x.1.data.log.written ∧
      ∀ t, Genuine t x.2 (x.1.loc t).calls := by
  refine Reach.invariant (I := fun x => Run ok x.1 ∧
    x.2.wrote.map Prod.snd = x.1.data.log.written ∧ ∀ t, Genuine t x.2 (x.1.loc t).calls) hx ?_ ?_
  · rintro x ⟨hinit, hm⟩
    have hdata : x.1.data.Initial := hinit.2.2
    refine ⟨.start hinit, ?_, fun t => ?_⟩
    · rw [hm, hdata.log]
      rfl
    · rw [hm, hinit.2.1 t]
      exact genuine_empty t
  · rintro x lab x' - ⟨hs, hwrote, hgenuine⟩ hok ⟨hstep, hm⟩
    rw [hm]
    exact ⟨hs.next hok hstep, wrote_step hstep hwrote,
      fun t => genuine_step hs hstep (hgenuine t)⟩

theorem log_genuine {x : SysState ω V × LogMemory ω} (hx : LogRun ok x) :
    x.2.wrote.map Prod.snd = x.1.data.log.written ∧
      ∀ t, ((x.2.wroteBy t).map (·.message.call)).Sublist (x.2.calledBy t) ∧
        ∀ item ∈ x.2.wroteBy t, item.message.Genuine t := by
  obtain ⟨-, hwrote, hgenuine⟩ := hx.genuine
  exact ⟨hwrote, fun t => ⟨(List.sublist_append_left _ _).trans (hgenuine t).order,
    (hgenuine t).wrote⟩⟩

/-- The reader makes four calls, and two of them are at a level that is written. -/
theorem log_genuine_reader : ∃ x : SysState Empty ℚ × LogMemory Empty,
    (x.2.wroteBy .reader).length = 2 ∧ (x.2.calledBy .reader).length = 4 ∧
      x.2.wrote.map Prod.snd = x.1.data.log.written ∧
        ∀ t, ((x.2.wroteBy t).map (·.message.call)).Sublist (x.2.calledBy t) ∧
          ∀ item ∈ x.2.wroteBy t, item.message.Genuine t := by
  have hrun : ((execAll ((program Empty ℚ).playRecorded recordLog
      [.reader, .analyzer, .printer, .logger, .watchdog] fun _ _ => true) (initialState, .empty)
      (steps .reader 52 (.userIdle 10 10))).any fun x =>
      (x.2.wroteBy .reader).length == 2 && (x.2.calledBy .reader).length == 4) = true := by
    decide +kernel
  obtain ⟨x, hx, hcheck⟩ := (Option.any_eq_true _ _).1 hrun
  rw [Bool.and_eq_true, beq_iff_eq, beq_iff_eq] at hcheck
  have hreach : LogRun (program Empty ℚ).UnlocksSucceed x :=
    Reach.playRecorded (fun _ _ h _ => h.unlocksSucceed) (.start ⟨init_initialState, rfl⟩) hx
  exact ⟨x, hcheck.1, hcheck.2, log_genuine hreach⟩

end CpuUsageTracker
