import CpuUsageTracker.Display
import CpuUsageTracker.Pacing
import CpuUsageTracker.ProcStatTruncation
import CpuUsageTracker.UsageExactness

/-!
# What the screen says about the machine

The kernel counts, and `/proc/stat` shows its counters as text. Runs have a clock here, as in
`CpuUsageTracker.Pacing`.

**Theorem (`screen_exact`).** Let the files that the reader loads show the counters at the time of
the load. In every run in which unlocking an owned mutex succeeds, the records that the printer has
read are then exact: each one has, for every line of the file, the percentage of the time that was
neither idle nor waiting, between two consecutive points of a list of times, in this order and at
least half a second apart. All values are between 0 and 100. The screen shows these records, in
order and each at least once, and before them nothing but what the printer's buffer held when it was
allocated: after a read that finds no record, the printer shows its buffer as it is.

The kernel's part (`Counters`) is that no counter goes down and that each line moves within half a
second, and no line has counted 2^64 since time 0 (`Counters.WithinRound`). This is why the reader's
pause matters: the entry for an interval in which nothing is counted is -100.
-/

namespace CpuUsageTracker

open Threads

/-! ## The counters -/

/-- `count n i j` is what line `i` of the file shows in column `j` at time `n`, if it does not
overflow. -/
structure Counters where
  count : ℕ → ℕ → CpuStatIndex → ℕ
  mono : ∀ i j m n, m ≤ n → count m i j ≤ count n i j
  moves : ∀ i n, totalAdvance (count n i) < totalAdvance (count (n + pauseNs) i)

namespace Counters

variable {c : Counters} {cpuCount m n : ℕ} {text : List UInt8} {file : FileRead}

/-- What is counted from `m` to `n`. -/
def during (c : Counters) (m n i : ℕ) (j : CpuStatIndex) : ℕ := c.count n i j - c.count m i j

/-- The percentages of the time from `m` to `n`. -/
def usage (c : Counters) (cpuCount m n : ℕ) : CpuUsageInfo ℚ where
  values := (List.range (cpuCount + 1)).map fun i =>
    100 * (totalAdvance (c.during m n i) - c.during m n i .idle - c.during m n i .iowait) /
      totalAdvance (c.during m n i)

/-- The sample that shows the counters at time `n`. -/
def sample (c : Counters) (cpuCount n : ℕ) : ProcStat where
  cpuStatsLength := UInt64.ofNat (cpuCount + 1)
  cpuStats i :=
    if i < cpuCount + 1 then ⟨fun j => UInt64.ofNat (c.count n i j)⟩ else ⟨fun _ => 0⟩

theorem totalAdvance_during (hmn : m ≤ n) (i : ℕ) :
    totalAdvance (c.during m n i) = totalAdvance (c.count n i) - totalAdvance (c.count m i) := by
  have hle := fun j => c.mono i j m n hmn
  have huser := hle .user
  have hnice := hle .nice
  have hsystem := hle .system
  have hidle := hle .idle
  have hiowait := hle .iowait
  have hirq := hle .irq
  have hsoftirq := hle .softirq
  have hsteal := hle .steal
  simp only [totalAdvance, during]
  omega

theorem total_mono (i : ℕ) (hmn : m ≤ n) :
    totalAdvance (c.count m i) ≤ totalAdvance (c.count n i) := by
  have hle := fun j => c.mono i j m n hmn
  unfold totalAdvance
  gcongr <;> exact hle _

/-- The reader's pause is long enough. -/
theorem totalAdvance_during_pos (hmn : m + pauseNs ≤ n) (i : ℕ) :
    0 < totalAdvance (c.during m n i) := by
  have hmoves := c.moves i m
  have hmono : totalAdvance (c.count (m + pauseNs) i) ≤ totalAdvance (c.count n i) :=
    total_mono i hmn
  rw [totalAdvance_during ((Nat.le_add_right _ _).trans hmn)]
  omega

theorem advances_sample (hmn : m ≤ n) {i : ℕ} (hi : i < cpuCount + 1) :
    Advances (c.during m n i) ((c.sample cpuCount m).cpuStats i)
      ((c.sample cpuCount n).cpuStats i) := by
  intro j _
  have hle := c.mono i j m n hmn
  simp only [sample, if_pos hi, during, UInt64.toNat_ofNat']
  omega

/-- The counters have not gone all the way round at `now`. -/
def WithinRound (c : Counters) (cpuCount now : ℕ) : Prop :=
  ∀ i < cpuCount + 1, totalAdvance (c.count now i) < totalAdvance (c.count 0 i) + 2 ^ 64

theorem calculate_sample {now : ℕ} (hcount : cpuCount < maxFileLineCount)
    (hround : c.WithinRound cpuCount now) (hmn : m + pauseNs ≤ n) (hn : n ≤ now) :
    CpuUsageInfo.calculate (c.sample cpuCount m) (c.sample cpuCount n) = c.usage cpuCount m n := by
  have hle : m ≤ n := (Nat.le_add_right _ _).trans hmn
  have hlength : (c.sample cpuCount m).cpuStatsLength.toNat = cpuCount + 1 :=
    UInt64.toNat_ofNat_of_lt' ((Nat.succ_le_of_lt hcount).trans_lt (by decide))
  simp only [CpuUsageInfo.calculate, usage, hlength, CpuUsageInfo.mk.injEq]
  refine List.map_congr_left fun i hi => ?_
  have hi := List.mem_range.1 hi
  have hlt : totalAdvance (c.during m n i) < 2 ^ 64 := by
    have hfirst : totalAdvance (c.count 0 i) ≤ totalAdvance (c.count m i) :=
      total_mono i (Nat.zero_le _)
    have hlast : totalAdvance (c.count n i) ≤ totalAdvance (c.count now i) := total_mono i hn
    have hnow := hround i hi
    rw [totalAdvance_during hle]
    omega
  exact percentage_advance (advances_sample hle hi) (totalAdvance_during_pos hmn i) hlt

theorem usage_range (hmn : m + pauseNs ≤ n) :
    ∀ v ∈ (c.usage cpuCount m n).values, 0 ≤ v ∧ v ≤ 100 := by
  simp only [usage, List.forall_mem_map]
  exact fun i _ => percentage_advance_range (totalAdvance_during_pos hmn i)

/-! ## The file -/

/-- The text shows the counters at time `n`, and fits into the buffer and into the table. -/
structure Shown (c : Counters) (cpuCount n : ℕ) (text : List UInt8) : Prop where
  zero_not_mem : 0 ∉ text
  length_lt : text.length < maxExpectedProcstatLength
  length_lines_le : (nonEmptyLines text).length ≤ maxFileLineCount
  lines : ∃ (rows : ∀ i, RenderedRow fun j => UInt64.ofNat (c.count n i j))
    (others : List (List UInt8)),
    nonEmptyLines text = (List.range (cpuCount + 1)).map (fun i => (rows i).bytes) ++ others

namespace Shown

theorem fitsTable (h : c.Shown cpuCount n text) : FitsTable cpuCount text := by
  obtain ⟨rows, others, hlines⟩ := h.lines
  refine ⟨h.length_lines_le, ?_⟩
  rw [hlines, List.length_append, List.length_map, List.length_range]
  exact Nat.le_add_right _ _

theorem ne_nil (h : c.Shown cpuCount n text) : text ≠ [] := by
  rintro rfl
  exact absurd h.fitsTable.2 (Nat.not_succ_le_zero _)

theorem parsed_eq (h : c.Shown cpuCount n text) :
    parsed cpuCount (nonEmptyLines text) = c.sample cpuCount n := by
  obtain ⟨rows, others, hlines⟩ := h.lines
  simp only [parsed, sample, ProcStat.mk.injEq, true_and]
  funext i
  by_cases hi : i < cpuCount + 1
  · have hline : (nonEmptyLines text).getD i [] = (rows i).bytes := by
      rw [hlines, List.getD_eq_getElem?_getD, List.getElem?_append_left (by simpa using hi),
        List.getElem?_map, List.getElem?_range hi]
      rfl
    rw [if_pos hi, if_pos hi, hline]
    exact congrArg CpuStat.mk (rows i).row_bytes
  · rw [if_neg hi, if_neg hi]

/-- Loading undoes showing. -/
theorem loadFromFile (h : c.Shown cpuCount n text) (allocated : Bool) :
    (ProcStat.loadFromFile cpuCount allocated (.content text true)).2 =
      .ok (if allocated then some (c.sample cpuCount n) else none) := by
  have hdelivered : delivered text = text :=
    List.take_of_length_le (Nat.le_sub_one_of_lt h.length_lt)
  rw [loadFromFile_content h.ne_nil h.zero_not_mem, hdelivered]
  cases allocated with
  | false => rfl
  | true => rw [parse_eq_ok h.fitsTable, h.parsed_eq, if_pos rfl]

end Shown

/-- What `ProcStat_loadFromFile` meets at time `n`: it cannot open or read the file, or the file
shows the counters. -/
def Feeds (c : Counters) (cpuCount n : ℕ) (file : FileRead) : Prop :=
  ∃ (allocated : Bool) (input : FileInput) (result : Option ProcStat),
    (ProcStat.loadFromFile cpuCount allocated input).2 = .ok result ∧
    file = input.toFileRead result ∧
    ∀ text closed, input = .content text closed → c.Shown cpuCount n text

theorem Feeds.result (h : c.Feeds cpuCount n file) :
    ∀ stat ∈ file.result, stat = c.sample cpuCount n := by
  obtain ⟨allocated, input, result, hload, rfl, hshown⟩ := h
  intro stat hstat
  cases input with
  | cannotOpen => cases hstat
  | readError closed => cases hstat
  | content text closed =>
    cases closed with
    | false => cases hstat
    | true =>
      obtain rfl : result = some stat := hstat
      rw [(hshown text true rfl).loadFromFile] at hload
      obtain ⟨-, rfl⟩ : allocated = true ∧ c.sample cpuCount n = stat := by simpa using hload
      rfl

end Counters

/-! ## The samples -/

section

variable {ω : Type} [DecidableEq ω] {c : Counters} {cpuCount now : ℕ} {m : Probes}
  {lab : SysLabel ω ℚ} {y : TimedState ω ℚ × Probes}

/-- Unlocking an owned mutex succeeds, and the reader loads what the kernel shows. -/
structure Counters.Measures (c : Counters) (cpuCount : ℕ) (x : TimedState ω ℚ)
    (lab : SysLabel ω ℚ) : Prop where
  unlocks : (program ω ℚ).UnlocksSucceed x.sys lab
  feeds : ∀ i, lab = .act .reader i → x.sys.loc .reader = .goto .load →
    c.Feeds cpuCount ((clock ω ℚ).time x) i.file

/-- The samples are those of the times at which they were loaded. -/
structure ReaderPc.Measured (c : Counters) (cpuCount : ℕ) (m : Probes) (pc : ReaderPc) : Prop where
  written : ∀ w ∈ m.written, w.2 = c.sample cpuCount w.1
  toWrite : ∀ stat ∈ pc.toWrite, stat = c.sample cpuCount m.loadedAt

theorem Reader.measured_start : ReaderPc.threadInfoSet.Measured c cpuCount .empty where
  written w hw := by cases hw
  toWrite stat hstat := by cases hstat

theorem ReaderPc.Measured.goto {pc pc' : ReaderPc} (h : pc.Measured c cpuCount m)
    (hpc : pc'.toWrite = [] ∨ pc'.toWrite = pc.toWrite) : pc'.Measured c cpuCount m := by
  refine ⟨h.written, ?_⟩
  rcases hpc with hpc | hpc
  · rw [hpc]
    exact fun stat hstat => by cases hstat
  · rw [hpc]
    exact h.toWrite

theorem Reader.measured {pc : ReaderPc} {o : Set Mutex} {d : Data ω ℚ}
    (h : pc.Measured c cpuCount m) :
    (code pc : Code ℚ _).Post (Data.perform .reader)
      (fun ev => ∀ i, ev = .act i → pc = .load → c.Feeds cpuCount now i.file)
      (fun l _ _ => l.pc.Measured c cpuCount (m.note now pc)) o d := by
  cases pc with
  | load =>
    intro i hfeeds
    have hresult := (hfeeds i rfl rfl).result
    simp only [Data.perform, PipeAct.perform]
    cases hfile : i.file.result with
    | none => exact ⟨h.written, fun stat hstat => by cases hstat⟩
    | some stat =>
      refine ⟨h.written, fun stat' hstat' => ?_⟩
      obtain rfl : stat' = stat := List.mem_singleton.1 hstat'
      exact hresult _ hfile
  | write x =>
    intro i _
    refine ⟨fun w hw => ?_, fun stat hstat => by cases hstat⟩
    rcases List.mem_append.1 hw with hw | hw
    · exact h.written w hw
    · obtain rfl := List.mem_singleton.1 hw
      exact h.toWrite _ List.mem_cons_self
  | threadInfoSet | head =>
    intro i _
    simp only
    split <;> exact h.goto (.inl rfl)
  | lock x =>
    simp only [code, Instr.post_tryLock]
    exact ⟨fun _ _ => h.goto (.inr rfl), fun _ => h.goto (.inl rfl), fun _ => h.goto (.inl rfl)⟩
  | waiting x w =>
    refine outNotFull.post_of_data (Q := fun pc _ => ReaderPc.Measured c cpuCount m pc)
      (fun _ => ?_) ?_ w <;> exact h.goto (.inr rfl)
  | killTest x =>
    intro i _
    simp only
    split
    · exact h.goto (.inl rfl)
    · exact h.goto (.inr rfl)
  | breakUnlock | unlock x | notify x =>
    exact fun _ _ _ => by simpa [Probes.note] using h.goto (.inl rfl)
  | destroy x => exact fun _ _ => h.goto (.inl rfl)
  | sleep => exact h.goto (.inl rfl)
  | exited => trivial

theorem measured_step {x x' : TimedState ω ℚ} (hok : c.Measures cpuCount x lab)
    (hstep : TimedStep (clock ω ℚ) reports x lab x')
    (h : (x.sys.loc .reader).pc.Measured c cpuCount m) :
    (x'.sys.loc .reader).pc.Measured c cpuCount (recordProbes x lab m) := by
  by_cases hactor : lab.actor = some .reader
  · by_cases hcalls : (x.sys.loc .reader).calls = []
    · rw [recordProbes_eq hactor hcalls]
      have hpost : ((program ω ℚ).code .reader (x.sys.loc .reader)).Post (Data.perform .reader)
          (fun ev => ∀ i, ev = .act i → (x.sys.loc .reader).pc = .load →
            c.Feeds cpuCount ((clock ω ℚ).time x) i.file)
          (fun l _ _ => l.pc.Measured c cpuCount
            (m.note ((clock ω ℚ).time x) (x.sys.loc .reader).pc))
          ((program ω ℚ).held x.sys .reader) x.sys.data := by
        rw [program_code_of_calls hcalls]
        exact Reader.measured h
      refine hstep.step.post hactor ?_ (fun _ n hn => ?_) hpost
      · rintro ev hev i rfl hpc
        refine hok.feeds i ?_ ?_
        · cases lab <;> cases hev
          rfl
        · rcases hl : x.sys.loc .reader with ⟨calls, pc⟩
          rw [hl] at hcalls hpc
          obtain rfl : calls = [] := hcalls
          obtain rfl : pc = .load := hpc
          rfl
      · rw [program_code_of_calls hcalls] at hn
        obtain ⟨sample, w, hpc⟩ := Reader.waiting_of_waits hn
        rw [hpc] at h ⊢
        exact h
    · rw [recordProbes_of_calls hcalls, pc_of_calls hstep.step hactor hcalls]
      exact h
  · rw [recordProbes_of_ne hactor, (hstep.step.unchanged hactor).2.2]
    exact h

theorem ProbeRun.measured (hy : ProbeRun (c.Measures cpuCount) y) :
    (y.1.sys.loc .reader).pc.Measured c cpuCount y.2 := by
  refine hy.invariant (I := fun y => (y.1.sys.loc .reader).pc.Measured c cpuCount y.2) ?_ ?_
  · rintro ⟨x, m⟩ ⟨⟨s, ⟨-, hloc, -⟩, rfl⟩, rfl⟩
    show (s.loc .reader).pc.Measured c cpuCount .empty
    rw [hloc]
    exact Reader.measured_start
  · rintro y lab y' - h hok ⟨hstep, hm⟩
    rw [hm]
    exact measured_step hok hstep h

/-! ## The screen -/

/-- Two samples with the times at which they were loaded. -/
structure Interval (c : Counters) (cpuCount now : ℕ) (w w' : ℕ × ProcStat) : Prop where
  first : w.2 = c.sample cpuCount w.1
  last : w'.2 = c.sample cpuCount w'.1
  pause : w.1 + pauseNs ≤ w'.1
  past : w'.1 ≤ now

theorem ProbeRun.intervals (hy : ProbeRun (c.Measures cpuCount) y) :
    y.2.written.Pairwise (Interval c cpuCount ((clock ω ℚ).time y.1)) := by
  have hpaced := ProbeRun.paced hy
  have hmeasured := (ProbeRun.measured hy).written
  have hsince := (ProbeRun.timed hy).since_le .reader
  refine hpaced.written.imp_of_mem fun {w w'} hw hw' hpause => ?_
  refine ⟨hmeasured w hw, hmeasured w' hw', hpause, ?_⟩
  have hnext := hpaced.next w' hw'
  have hle := (y.1.sys.loc .reader).pc.nextLoad_le hpaced.loadedAt
  omega

/-- The states reached by runs with a clock whose steps all meet `ok`, each with the loads and with
what the printer's buffer held when it was allocated. -/
def ScreenTimedRun (ok : TimedState ω ℚ → SysLabel ω ℚ → Prop) :
    TimedState ω ℚ × Probes × Option (CpuUsageInfo ℚ) → Prop :=
  Reach (fun z => (∃ s, Init s ∧ z.1 = (clock ω ℚ).start s) ∧ z.2 = (.empty, none))
    (Recorded (recordBoth recordProbes fun x => recordFresh x.sys) (TimedStep (clock ω ℚ) reports))
    fun z lab => ok z.1 lab

theorem ScreenTimedRun.probes {ok : TimedState ω ℚ → SysLabel ω ℚ → Prop}
    {z : TimedState ω ℚ × Probes × Option (CpuUsageInfo ℚ)} (hz : ScreenTimedRun ok z) :
    ProbeRun ok (z.1, z.2.1) :=
  Reach.memory_fst (I := fun x => ∃ s, Init s ∧ x = (clock ω ℚ).start s) hz

/-- Without the clock and the loads. -/
theorem ScreenTimedRun.fresh {ok : TimedState ω ℚ → SysLabel ω ℚ → Prop}
    {ok' : SysState ω ℚ → SysLabel ω ℚ → Prop}
    {z : TimedState ω ℚ × Probes × Option (CpuUsageInfo ℚ)} (hz : ScreenTimedRun ok z)
    (hok : ∀ x lab, ok x lab → ok' x.sys lab) : FreshRun ok' (z.1.sys, z.2.2) := by
  have hfresh := Reach.memory_snd (I := fun x => ∃ s, Init s ∧ x = (clock ω ℚ).start s) hz
  refine hfresh.map (fun x => (x.1.sys, x.2)) ?_ ?_
  · rintro ⟨x, fresh⟩ ⟨⟨s, hs, rfl⟩, rfl⟩
    exact ⟨hs, rfl⟩
  · rintro x lab x' h ⟨hstep, hx'⟩
    exact ⟨hok _ _ h, hstep.step, hx'⟩

theorem screen_exact {z : TimedState ω ℚ × Probes × Option (CpuUsageInfo ℚ)}
    (hcount : cpuCount < maxFileLineCount) (hz : ScreenTimedRun (c.Measures cpuCount) z)
    (hround : c.WithinRound cpuCount ((clock ω ℚ).time z.1)) :
    ∃ times, times.Sublist (z.2.1.written.map Prod.fst) ∧
      times.Pairwise (fun m n => m + pauseNs ≤ n) ∧
      z.1.sys.data.pipeline.usageInfoCbuf.taken.Sublist
        (consecutive (c.usage cpuCount) times) ∧
      (∀ u ∈ z.1.sys.data.pipeline.usageInfoCbuf.taken, ∀ v ∈ u.values, 0 ≤ v ∧ v ≤ 100) ∧
      DisplaysFrom z.2.2 z.1.sys.data.pipeline.usageInfoCbuf.taken
        (z.1.sys.data.pipeline.printed ++ (z.1.sys.loc .printer).pc.inHand) := by
  have hy := hz.probes
  have hs : Run (program ω ℚ).UnlocksSucceed z.1.sys :=
    (ProbeRun.timed hy).untimed fun _ _ hok => hok.unlocks
  have hfresh : FreshRun (program ω ℚ).UnlocksSucceed (z.1.sys, z.2.2) :=
    hz.fresh fun _ _ hok => hok.unlocks
  have horder := hs.inOrder
  obtain ⟨reads, tile, -, -, htaken, htile, -, hrecords⟩ := hs.tiles
  -- the samples that the analyzer used, with their times
  have hused : (tile.map Prod.snd).Sublist (z.2.1.written.map Prod.snd) := by
    rw [ProbeRun.written hy]
    calc (tile.map Prod.snd).Sublist (reads.map Prod.snd) := htile.map _
      _ = z.1.sys.data.pipeline.procStatCbuf.taken := htaken
      List.Sublist _ z.1.sys.data.pipeline.procStatCbuf.written :=
        horder.procStatCbuf.taken_sublist
  obtain ⟨used, hsub, hstats⟩ := List.sublist_map_iff.1 hused
  have hintervals := (ProbeRun.intervals hy).sublist hsub
  have hexact : consecutive CpuUsageInfo.calculate (tile.map Prod.snd) =
      consecutive (c.usage cpuCount) (used.map Prod.fst) := by
    rw [hstats, consecutive_map, consecutive_map]
    refine consecutive_congr hintervals fun w w' h => ?_
    rw [h.first, h.last]
    exact Counters.calculate_sample hcount hround h.pause h.past
  have htimes : (used.map Prod.fst).Pairwise fun m n => m + pauseNs ≤ n :=
    List.pairwise_map.2 (hintervals.imp fun h => h.pause)
  have hrecord : z.1.sys.data.pipeline.usageInfoCbuf.taken.Sublist
      (consecutive (c.usage cpuCount) (used.map Prod.fst)) := by
    rw [← hexact, ← hrecords]
    exact horder.usageInfoCbuf.taken_sublist
  refine ⟨used.map Prod.fst, hsub.map _, htimes, hrecord, fun u hu => ?_,
    hfresh.displaying.displays⟩
  obtain ⟨m, n, hmn, rfl⟩ := exists_of_mem_consecutive htimes (hrecord.subset hu)
  exact Counters.usage_range hmn

end

/-! ## An example -/

/-- In each pause, the machine is busy for three units of time and idle for two. -/
def busyAt (k : ℕ) : CpuStatIndex → ℕ
  | .user => 3 * k
  | .idle => 2 * k
  | _ => 0

theorem busyAt_mono {k l : ℕ} (h : k ≤ l) (j : CpuStatIndex) : busyAt k j ≤ busyAt l j := by
  cases j <;> simp only [busyAt] <;> omega

theorem totalAdvance_busyAt (k : ℕ) : totalAdvance (busyAt k) = 5 * k := by
  simp only [totalAdvance, busyAt]
  omega

theorem busy_moves (n : ℕ) :
    totalAdvance (busyAt (n / pauseNs)) < totalAdvance (busyAt ((n + pauseNs) / pauseNs)) := by
  rw [totalAdvance_busyAt, totalAdvance_busyAt, Nat.add_div_right n (by decide)]
  omega

def busy : Counters where
  count n _ := busyAt (n / pauseNs)
  mono _ j _ _ hmn := busyAt_mono (Nat.div_le_div_right hmn) j
  moves _ := busy_moves

/-- A number with one digit behind a blank. -/
def digitOf (v : Fin 10) : Scanf.Field :=
  { zeroField with
    digits := [Scanf.digit v]
    value := UInt64.ofNat v.val
    digits_ne := Scanf.singleton_digit_ne_nil v
    isDigit_of_mem := Scanf.isDigit_of_mem_singleton_digit v
    digitsValue_eq := Scanf.digitsValue_singleton_digit v }

theorem value_digitOf {k : ℕ} (hk : k < 4) (j : CpuStatIndex) :
    (digitOf (Fin.ofNat 10 (busyAt k j))).value = UInt64.ofNat (busyAt k j) := by
  have hlt : busyAt k j < 10 := by
    cases j <;> simp only [busyAt] <;> omega
  show UInt64.ofNat (busyAt k j % 10) = _
  rw [Nat.mod_eq_of_lt hlt]

def busyRow {k : ℕ} (hk : k < 4) : RenderedRow fun j => UInt64.ofNat (busyAt k j) where
  label := asciiBytes "cpu"
  fields j := digitOf (Fin.ofNat 10 (busyAt k j))
  rest := []
  label_ne := cpu_ne_nil
  not_isSpace_of_mem := isSpace_cpu
  value_eq := value_digitOf hk
  startsBlank := Scanf.startsBlank_nil

/-- The line of the file. -/
def busyLine (k : ℕ) : List UInt8 :=
  asciiBytes "cpu" ++
    (CpuStatIndex.all.map fun j => digitOf (Fin.ofNat 10 (busyAt k j))).flatMap Scanf.Field.bytes

theorem bytes_busyRow {k : ℕ} (hk : k < 4) : (busyRow hk).bytes = busyLine k :=
  congrArg (asciiBytes "cpu" ++ ·) (List.append_nil _)

def busyText (k : ℕ) : List UInt8 := busyLine k ++ [10]

theorem busyText_lines : ∀ k < 4, 0 ∉ busyText k ∧ (busyText k).length = 24 ∧
    nonEmptyLines (busyText k) = [busyLine k] := by
  decide +kernel

theorem busy_shown {n : ℕ} (hn : n / pauseNs < 4) : busy.Shown 0 n (busyText (n / pauseNs)) := by
  obtain ⟨hzero, hlength, hlines⟩ := busyText_lines _ hn
  refine ⟨hzero, ?_, ?_, fun _ => busyRow hn, [], ?_⟩
  · rw [hlength]
    decide
  · rw [hlines]
    exact Nat.succ_le_of_lt (by decide)
  · rw [hlines, ← bytes_busyRow hn]
    rfl

/-- What the system calls deliver at time `n`. -/
def busyInput (n : ℕ) : Input ℚ := .succeeding (busy.sample 0 n)

theorem feeds_busyInput {n : ℕ} (hn : n / pauseNs < 4) : busy.Feeds 0 n (busyInput n).file := by
  have hshown := busy_shown hn
  refine ⟨true, .content (busyText (n / pauseNs)) true, some (busy.sample 0 n), ?_, ?_, ?_⟩
  · exact hshown.loadFromFile true
  · have hlength : (busyText (n / pauseNs)).length = 24 := (busyText_lines _ hn).2.1
    simp only [FileInput.toFileRead, hlength]
    rfl
  · rintro text closed h
    cases h
    exact hshown

/-- The state after the moves, if the time remains below four pauses. -/
def busyPlay (moves : List (Move (Thread Empty) Unit Data.Env)) : Option (TimedState Empty ℚ) :=
  execAll (fun x mv =>
      (clock Empty ℚ).play reports [.reader, .analyzer, .printer, .logger, .watchdog]
        (fun x _ => (clock Empty ℚ).time x / pauseNs < 4) x
        (mv.map fun _ => busyInput ((clock Empty ℚ).time x)))
    ((clock Empty ℚ).start initialState) moves

theorem timedRun_of_busyPlay {moves : List (Move (Thread Empty) Unit Data.Env)}
    {x : TimedState Empty ℚ} (h : busyPlay moves = some x) : TimedRun (busy.Measures 0) x := by
  have hstart : TimedRun (busy.Measures 0) ((clock Empty ℚ).start initialState) :=
    .start ⟨_, init_initialState, rfl⟩
  refine Reach.execAll (fun x mv x' hmv => ?_) hstart h
  obtain ⟨lab, hlab, hguard, hstep⟩ := Clock.play_eq_some hmv
  refine ⟨lab, ⟨(Program.label_nominal hlab hstep.step).unlocksSucceed, ?_⟩, hstep⟩
  rintro i rfl -
  have hmove := Program.label_act hlab
  cases mv with
  | run t u =>
    cases hmove
    exact feeds_busyInput (of_decide_eq_true hguard)
  | wake t r => cases hmove
  | env e => cases hmove

def turns (t : Thread Empty) (n : ℕ) : List (Move (Thread Empty) Unit Data.Env) :=
  List.replicate n (.run t ())

/-- The reader writes two samples, the analyzer computes a record and the printer prints it. -/
def twoSamples : List (Move (Thread Empty) Unit Data.Env) :=
  [turns .watchdog 6, turns .logger 25, turns .analyzer 15, turns .printer 13, turns .reader 25,
    [.env (.tick pauseNs)], turns .reader 25, turns .analyzer 43, turns .printer 14].flatten

theorem screen_exact_twoSamples :
    ∃ z : TimedState Empty ℚ × Probes × Option (CpuUsageInfo ℚ),
    z.1.sys.data.pipeline.printed.map (·.values) = [[60]] ∧
    z.1.sys.data.pipeline.usageInfoCbuf.taken.map (·.values) = [[60]] ∧
    ∃ times, times.Sublist (z.2.1.written.map Prod.fst) ∧
      times.Pairwise (fun m n => m + pauseNs ≤ n) ∧
      z.1.sys.data.pipeline.usageInfoCbuf.taken.Sublist
        (consecutive (busy.usage 0) times) ∧
      (∀ u ∈ z.1.sys.data.pipeline.usageInfoCbuf.taken, ∀ v ∈ u.values, 0 ≤ v ∧ v ≤ 100) ∧
      DisplaysFrom z.2.2 z.1.sys.data.pipeline.usageInfoCbuf.taken
        (z.1.sys.data.pipeline.printed ++ (z.1.sys.loc .printer).pc.inHand) := by
  have hrun : ((busyPlay twoSamples).any fun x =>
      x.sys.data.pipeline.printed.map (·.values) == [[60]] &&
        x.sys.data.pipeline.usageInfoCbuf.taken.map (·.values) == [[60]] &&
          (clock Empty ℚ).time x == pauseNs) = true := by
    decide +kernel
  obtain ⟨x, hx, hcheck⟩ := (Option.any_eq_true _ _).1 hrun
  simp only [Bool.and_eq_true, beq_iff_eq] at hcheck
  obtain ⟨⟨hprinted, htaken⟩, htime⟩ := hcheck
  obtain ⟨m, hm⟩ := Reach.recorded _ _ (timedRun_of_busyPlay hx)
  have hround : busy.WithinRound 0 ((clock Empty ℚ).time x) := by
    intro i _
    rw [htime]
    show totalAdvance (busyAt _) < totalAdvance (busyAt _) + 2 ^ 64
    rw [totalAdvance_busyAt, totalAdvance_busyAt]
    decide
  exact ⟨(x, m), hprinted, htaken, screen_exact (by decide) hm hround⟩

end CpuUsageTracker
