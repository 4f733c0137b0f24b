import CpuUsageTracker.CallWeights

/-!
# Who a thread says it is

Each of the five threads sets its information once, at its beginning, and ends if that fails. So it
calls nothing before it is known (`Run.known`): `Log` finds its name and `Watchdog_reportActive` its
number. So the timestamp that it sets is its own (`Run.ownStamps`).
-/

namespace CpuUsageTracker

open Threads

variable {ω V : Type} {t u : Thread ω}

/-- What the thread sets as its information. -/
def Thread.info : Thread ω → Option ThreadInfo
  | .reader => some Reader.threadInfo
  | .analyzer => some Analyzer.threadInfo
  | .printer => some Printer.threadInfo
  | .logger => some Logger.threadInfo
  | .watchdog => some Watchdog.threadInfo
  | .other _ => none

variable [DecidableEq ω] {d : Data ω V} {a : Act V} {i : Input V}

theorem Data.threadInfo_of_ne (h : t ≠ u) :
    (d.perform u a i).1.threadInfo t = d.threadInfo t := by
  cases a with
  | threadInfoSet info => cases hok : i.ok <;> simp [Data.perform, hok, h]
  | _ => rfl

/-- A thread's information is the one it had, or the one it has set. -/
theorem Data.threadInfo_perform :
    (d.perform t a i).1.threadInfo t = d.threadInfo t ∨
      ∃ info, a = .threadInfoSet info ∧ (d.perform t a i).1.threadInfo t = some info := by
  cases a with
  | threadInfoSet info => cases hok : i.ok <;> simp [Data.perform, hok]
  | _ => exact .inl rfl

variable [PercentageValue V]

omit [DecidableEq ω] in
theorem body_threadInfo {pc : Pc V t} {info : ThreadInfo} {next : ThrdResult → Loc V t}
    (h : body t pc = .act (.threadInfoSet info) next) : t.info = some info := by
  cases t with
  | reader =>
    cases pc with
    | waiting p w => cases w <;> cases h
    | _ =>
      cases h
      try rfl
  | analyzer =>
    cases pc with
    | waitingIn v w | waitingOut v w => cases w <;> cases h
    | _ =>
      cases h
      try rfl
  | printer =>
    cases pc with
    | waiting u w => cases w <;> cases h
    | _ =>
      cases h
      try rfl
  | logger =>
    cases pc with
    | drain k => cases k <;> cases h
    | _ =>
      cases h
      try rfl
  | watchdog =>
    cases pc <;> cases h
    rfl
  | other w =>
    cases pc
    cases h

theorem program_threadInfo {l : Loc V t} {info : ThreadInfo} {next : ThrdResult → Loc V t}
    (h : (program ω V).code t l = .act (.threadInfoSet info) next) : t.info = some info := by
  obtain ⟨calls, pc⟩ := l
  cases calls with
  | nil => exact body_threadInfo h
  | cons f fs =>
    rw [program_code_cons] at h
    obtain ⟨next', hf, -⟩ := Instr.map_eq_act h
    rcases f with x | x <;> cases x <;> cases hf

/-- The thread has set its information, or has not begun, or has failed to set it and ended. -/
def Known (t : Thread ω) (l : Loc V t) (d : Data ω V) : Prop :=
  ∀ info, t.info = some info →
    d.threadInfo t = some info ∨ l.calls = [] ∧ (l.pc = start t ∨ body t l.pc = .exit)

/-- The first instruction. -/
theorem start_known {d : Data ω V} {info : ThreadInfo} (o : Set Mutex) (ht : t.info = some info) :
    (body t (start t)).Post (Data.perform t) (fun _ => True)
      (fun l _ d => d.threadInfo t = some info ∨ l.calls = [] ∧ body t l.pc = .exit) o d := by
  cases t with
  | other w => cases ht
  | _ =>
    obtain rfl := Option.some.inj ht
    intro i _
    cases hok : i.ok
    · simp only [Data.perform, hok]
      exact .inr ⟨rfl, rfl⟩
    · simp only [Data.perform, hok, if_true]
      exact .inl (Function.update_self ..)

/-- A thread that is known stays known. -/
theorem threadInfo_kept {l : Loc V t} {info : ThreadInfo} (o : Set Mutex)
    (ht : t.info = some info) (h : d.threadInfo t = some info) :
    ((program ω V).code t l).Post (Data.perform t) (fun _ => True)
      (fun _ _ d => d.threadInfo t = some info) o d := by
  cases hc : (program ω V).code t l with
  | call c next => exact fun _ _ _ => h
  | act a next =>
    intro i _
    rcases Data.threadInfo_perform (t := t) (d := d) (a := a) (i := i) with
      hkept | ⟨info', rfl, hset⟩
    · exact hkept.trans h
    · rw [hset, ← program_threadInfo hc, ht]
  | sleep ms next => exact h
  | exit => trivial

theorem known_outline :
    Outline (program ω V) (fun _ _ _ _ _ => True) fun t l _ d => Known t l d where
  own t l o d h := by
    cases ht : t.info with
    | none => exact Instr.post_of_forall (fun _ _ _ info hinfo => by cases ht.symm.trans hinfo) _
    | some info =>
      have hpost : ((program ω V).code t l).Post (Data.perform t) (fun _ => True)
          (fun l _ d => d.threadInfo t = some info ∨
            l.calls = [] ∧ (l.pc = start t ∨ body t l.pc = .exit)) o d := by
        obtain hset | ⟨hcalls, hpc⟩ := h info ht
        · exact (threadInfo_kept o ht hset).mono (fun _ _ _ h => .inl h) fun _ h => h
        · obtain ⟨calls, pc⟩ := l
          obtain rfl : calls = [] := hcalls
          obtain rfl | hexit := hpc
          · exact (start_known o ht).mono (fun _ _ _ h => h.imp_right fun h => ⟨h.1, .inr h.2⟩)
              fun _ h => h
          · rw [program_code_nil, hexit]
            trivial
      refine hpost.mono (fun l _ d h info' hinfo' => ?_) fun _ h => h
      obtain rfl : info = info' := Option.some.inj (ht.symm.trans hinfo')
      exact h
  wait t l o d m _ h := h
  others t u htu l l' o o' d a next i h _ _ _ _ := by
    intro info hinfo
    rw [show ((program ω V).perform u a i d).1.threadInfo t = d.threadInfo t from
      Data.threadInfo_of_ne htu]
    exact h info hinfo
  env t l o d e h := by
    cases e <;> exact h

theorem Run.known {ok : SysState ω V → SysLabel ω V → Prop} {s : SysState ω V} (hs : Run ok s)
    {info : ThreadInfo} (ht : t.info = some info) (hcalls : (s.loc t).calls ≠ []) :
    s.data.threadInfo t = some info := by
  have h : Known t (s.loc t) s.data := by
    refine Reach.outline known_outline (fun s hs => ⟨hs.1, fun t info _ => ?_⟩)
      (fun _ _ _ _ _ _ _ => trivial) hs t
    rw [hs.2.1 t]
    exact .inr ⟨rfl, .inl rfl⟩
  exact (h info ht).resolve_right fun h => hcalls h.1

/-! ## Whose timestamp a thread sets -/

/-- The timestamp that is about to be set. -/
def Frame.stamps : Frame → Option ThreadId
  | .report (.lock tid) | .report (.stamp tid) => some tid
  | _ => none

/-- One for a call that is about to set a timestamp. -/
def Frame.stampWeight (f : Frame) : ℕ := if f.stamps = none then 0 else 1

theorem Frame.callWeight_stampWeight : CallWeight stampWeight 0 where
  log _ := rfl
  report := by decide

theorem stamps_of_callsWeight {calls : List Frame} (h : callsWeight Frame.stampWeight calls ≤ 0) :
    ∀ f ∈ calls, f.stamps = none := by
  induction calls with
  | nil => exact fun f hf => by cases hf
  | cons g gs ih =>
    rw [callsWeight_cons] at h
    intro f hf
    rcases List.mem_cons.1 hf with rfl | hf
    · by_contra hne
      rw [Frame.stampWeight, if_neg hne] at h
      omega
    · exact ih (by omega) f hf

/-- The thread is about to set no other timestamp than its own. Only the first of its calls has got
that far. -/
structure OwnStamps (t : Thread ω) (calls : List Frame) : Prop where
  own : ∀ info, t.info = some info → ∀ f ∈ calls, ∀ tid ∈ f.stamps, tid = info.tid
  first : ∀ f ∈ calls.tail, f.stamps = none

omit [PercentageValue V] in
theorem Frame.ownStamps {info : ThreadInfo} {o : Set Mutex} (f : Frame)
    (hinfo : d.threadInfo t = some info) (hown : ∀ tid ∈ f.stamps, tid = info.tid) :
    (f.code : Code V (List Frame)).Post (Data.perform t) (fun _ => True)
      (fun gs _ _ => ∀ g ∈ gs, ∀ tid ∈ g.stamps, tid = info.tid) o d := by
  cases f with
  | log f => cases f <;> simp [code, LogPc.code, stamps]
  | report f =>
    cases f with
    | threadInfo =>
      intro i _
      simp only [Data.perform, hinfo]
      simp [stamps]
    | lock tid =>
      have htid : tid = info.tid := hown tid rfl
      simp [code, ReportPc.code, stamps, logError, htid]
    | _ => simp [code, ReportPc.code, stamps, logError]

omit [PercentageValue V] in
theorem Frame.firstStamps {o : Set Mutex} (f : Frame) :
    (f.code : Code V (List Frame)).Post (Data.perform t) (fun _ => True)
      (fun gs _ _ => ∀ g ∈ gs.tail, g.stamps = none) o d := by
  cases f with
  | log f => cases f <;> simp [code, LogPc.code]
  | report f =>
    cases f with
    | threadInfo =>
      intro i _
      simp only [Data.perform]
      split <;> simp
    | _ => simp [code, ReportPc.code, stamps, logError]

theorem ownStamps_outline : Outline (program ω V) (fun _ _ _ _ _ => True)
    fun t l _ d => Known t l d ∧ OwnStamps t l.calls where
  own t l o d h := by
    have hcalls : ((program ω V).code t l).Post (Data.perform t) (fun _ => True)
        (fun l _ _ => OwnStamps t l.calls) o d := by
      obtain ⟨calls, pc⟩ := l
      cases calls with
      | nil =>
        have hfew := (body_fewCalls Frame.callWeight_stampWeight t pc (d := d)).of_empty (o := o)
          fun _ h => h
        refine hfew.mono (fun l _ _ hl => ?_) fun _ h => h
        have hnone := stamps_of_callsWeight hl
        refine ⟨fun info _ f hf tid htid => ?_, fun f hf => hnone f (List.mem_of_mem_tail hf)⟩
        rw [hnone f hf] at htid
        cases htid
      | cons f fs =>
        rw [program_code_cons, Instr.post_map]
        have hown : (f.code : Code V (List Frame)).Post (Data.perform t) (fun _ => True)
            (fun gs _ _ => ∀ info, t.info = some info → ∀ g ∈ gs, ∀ tid ∈ g.stamps,
              tid = info.tid) o d := by
          cases ht : t.info with
          | none => exact Instr.post_of_forall (fun _ _ _ info hinfo => by cases hinfo) _
          | some info =>
            have hset := (h.1 info ht).resolve_right fun h => by cases h.1
            refine (f.ownStamps hset (h.2.own info ht f List.mem_cons_self)).mono
              (fun gs _ _ hgs info' hinfo' => ?_) fun _ h => h
            obtain rfl := Option.some.inj hinfo'
            exact hgs
        refine (hown.and f.firstStamps).mono (fun gs _ _ hgs => ⟨fun info hinfo g hg => ?_,
          fun g hg => ?_⟩) fun _ h => ⟨h, h⟩
        · rcases List.mem_append.1 hg with hg | hg
          · exact hgs.1 info hinfo g hg
          · exact h.2.own info hinfo g (List.mem_cons_of_mem _ hg)
        · cases gs with
          | nil => exact h.2.first g (List.mem_of_mem_tail hg)
          | cons g' gs =>
            rcases List.mem_append.1 hg with hg | hg
            · exact hgs.2 g hg
            · exact h.2.first g hg
    exact (known_outline.own t l o d h.1).and hcalls |>.mono (fun _ _ _ h => h)
      fun _ h => ⟨h, h⟩
  wait t l o d m hm h := ⟨known_outline.wait t l o d m hm h.1, h.2⟩
  others t u htu l l' o o' d a next i h h' hc ha hm :=
    ⟨known_outline.others t u htu l l' o o' d a next i h.1 h'.1 hc ha hm, h.2⟩
  env t l o d e h := ⟨known_outline.env t l o d e h.1, h.2⟩

theorem Run.ownStamps {ok : SysState ω V → SysLabel ω V → Prop} {s : SysState ω V} (hs : Run ok s)
    (t : Thread ω) : OwnStamps t (s.loc t).calls := by
  have h : Known t (s.loc t) s.data ∧ OwnStamps t (s.loc t).calls := by
    refine Reach.outline ownStamps_outline (fun s hs => ⟨hs.1, fun t => ⟨fun info _ => ?_, ?_⟩⟩)
      (fun _ _ _ _ _ _ _ => trivial) hs t
    · rw [hs.2.1 t]
      exact .inr ⟨rfl, .inl rfl⟩
    · rw [hs.2.1 t]
      exact ⟨fun _ _ _ hf => absurd hf List.not_mem_nil, fun _ hf => absurd hf List.not_mem_nil⟩
  exact h.2

end CpuUsageTracker
