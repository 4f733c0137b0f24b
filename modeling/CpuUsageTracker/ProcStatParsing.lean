import CpuUsageTracker.ProcStat

/-!
# What `parse` returns

The first loop of `parse` fills `linesQueue` with the non-empty lines of the text, the second scans
the first `CpuCount_get() + 1` of them into rows (`row`).

**Theorem (`parse_safe_iff`).** The function stays inside `linesQueue` and scans no null pointer
exactly if the text has at most 2048 non-empty lines and at least as many as there are rows to
fill, or the result could not be allocated.

**Theorem (`parse_renders`).** A table of counters is read back from every text that renders it,
whatever labels, white space and further fields it uses.

**Theorem (`rejectsMalformed_iff`).** Lines that are not lines of counters are never rejected: they
give rows like any other line.
-/

namespace CpuUsageTracker

open Scanf Tokens

def nonEmptyLines (content : List UInt8) : List (List UInt8) := tokens (· == 10) content

/-- The counters that `sscanf` reads from a line, zero where it reads none. -/
def row (line : List UInt8) : CpuStat := ⟨fun j => (scanf sscanfFormat line).getD j.toNat 0⟩

/-- What `parse` makes of the lines, if it gets through. -/
def parsed (cpuCount : ℕ) (lines : List (List UInt8)) : ProcStat where
  cpuStatsLength := UInt64.ofNat (cpuCount + 1)
  cpuStats i := if i < cpuCount + 1 then row (lines.getD i []) else ⟨fun _ => 0⟩

/-! ## The loops -/

def queueOf (lines : List (List UInt8)) : LinesQueue := fun k => lines[k.val]?

variable {lines : List (List UInt8)} {cpuCount : ℕ} {content : List UInt8}

theorem update_queueOf (p : List UInt8) (h : lines.length < maxFileLineCount) :
    Function.update (queueOf lines) ⟨lines.length, h⟩ (some p) = queueOf (lines ++ [p]) := by
  funext k
  by_cases hk : k = ⟨lines.length, h⟩
  · subst hk
    simp [queueOf]
  · have hne : k.val ≠ lines.length := fun heq => hk (Fin.ext heq)
    rw [Function.update_of_ne hk, queueOf, queueOf, List.getElem?_append]
    by_cases hlt : k.val < lines.length
    · rw [if_pos hlt]
    · rw [if_neg hlt, List.getElem?_eq_none (by omega), List.getElem?_eq_none (by simp; omega)]

/-- The queue holds the lines that `strtok` has returned so far. -/
theorem saveLines_eq (lines ps : List (List UInt8)) (h : lines.length ≤ maxFileLineCount) :
    saveLines ps lines.length (queueOf lines) =
      if (lines ++ ps).length ≤ maxFileLineCount then .ok (queueOf (lines ++ ps))
      else .error (.store maxFileLineCount) := by
  induction ps generalizing lines with
  | nil => rw [List.append_nil, if_pos h, saveLines]
  | cons p ps ih =>
    rw [saveLines]
    by_cases hlt : lines.length < maxFileLineCount
    · have hlength : (lines ++ [p]).length = lines.length + 1 := by simp
      rw [dif_pos hlt, update_queueOf p hlt, ← hlength, ih _ (by omega), List.append_assoc,
        List.singleton_append]
    · have heq : lines.length = maxFileLineCount := by omega
      rw [dif_neg hlt, if_neg, heq]
      simp only [List.length_append, List.length_cons]
      omega

theorem scanLines_ok (hmax : lines.length ≤ maxFileLineCount) {n ii : ℕ} {result : ProcStat}
    (h : ii + n ≤ lines.length) :
    scanLines (queueOf lines) n ii result = .ok { result with
      cpuStats := fun i => if ii ≤ i ∧ i < ii + n then
        ⟨fun j => (scanf sscanfFormat (lines.getD i [])).getD j.toNat ((result.cpuStats i).values j)⟩
        else result.cpuStats i } := by
  induction n generalizing ii result with
  | zero =>
    have hempty : ∀ i, ¬(ii ≤ i ∧ i < ii + 0) := by omega
    simp only [scanLines, hempty, if_false]
  | succ n ih =>
    have hii : ii < lines.length := by omega
    have hline : queueOf lines ⟨ii, by omega⟩ = some (lines.getD ii []) := by
      rw [queueOf, List.getD_eq_getElem?_getD, List.getElem?_eq_getElem hii, Option.getD_some]
    rw [scanLines, dif_pos (by omega)]
    simp only [hline]
    rw [ih (by omega)]
    simp only [ProcStat.assign]
    congr 2
    funext i
    by_cases hi : i = ii
    · subst hi
      rw [if_neg (by omega), if_pos (by omega), Function.update_self]
    · rw [Function.update_of_ne hi]
      exact if_congr (by omega) rfl rfl

theorem scanLines_error {n ii : ℕ} {result : ProcStat} (hii : ii ≤ lines.length)
    (h : lines.length < ii + n) :
    ∃ fault, scanLines (queueOf lines) n ii result = .error fault := by
  induction n generalizing ii result with
  | zero => omega
  | succ n ih =>
    rw [scanLines]
    by_cases hlt : ii < maxFileLineCount
    · rw [dif_pos hlt]
      by_cases hline : ii < lines.length
      · rw [queueOf, List.getElem?_eq_getElem hline]
        exact ih (by omega) (by omega)
      · have hnone : queueOf lines ⟨ii, hlt⟩ = none := List.getElem?_eq_none (not_lt.1 hline)
        rw [hnone]
        exact ⟨_, rfl⟩
    · rw [dif_neg hlt]
      exact ⟨_, rfl⟩

/-! ## The function -/

/-- The text has as many lines as are scanned, and no more than `linesQueue` can hold. -/
def FitsTable (cpuCount : ℕ) (content : List UInt8) : Prop :=
  (nonEmptyLines content).length ≤ maxFileLineCount ∧
    cpuCount + 1 ≤ (nonEmptyLines content).length

theorem parse_eq (cpuCount : ℕ) (content : List UInt8) :
    parse cpuCount true content =
      if (nonEmptyLines content).length ≤ maxFileLineCount then
        (scanLines (queueOf (nonEmptyLines content)) (cpuCount + 1) 0
          ⟨UInt64.ofNat (cpuCount + 1), fun _ => ⟨fun _ => 0⟩⟩).map some
      else .error (.store maxFileLineCount) := by
  have hlines : strtokAll (· == 10) (content.length + 1) content = nonEmptyLines content :=
    strtokAll_eq_tokens (Nat.lt_succ_self _)
  have hsave : saveLines (nonEmptyLines content) 0 (queueOf []) =
      if ([] ++ nonEmptyLines content).length ≤ maxFileLineCount then
        .ok (queueOf ([] ++ nonEmptyLines content))
      else .error (.store maxFileLineCount) := saveLines_eq [] _ (Nat.zero_le _)
  rw [List.nil_append] at hsave
  change ((saveLines (strtokAll (· == 10) (content.length + 1) content) 0 (queueOf [])).bind _) = _
  rw [hlines, hsave]
  split <;> rfl

theorem parse_eq_ok (h : FitsTable cpuCount content) :
    parse cpuCount true content = .ok (some (parsed cpuCount (nonEmptyLines content))) := by
  obtain ⟨hmax, hcount⟩ := h
  rw [parse_eq, if_pos hmax, scanLines_ok hmax (by omega)]
  simp only [Except.map, parsed, row, Nat.zero_le, true_and, Nat.zero_add]

theorem parse_eq_error (h : ¬FitsTable cpuCount content) :
    ∃ fault, parse cpuCount true content = .error fault := by
  rw [parse_eq]
  by_cases hmax : (nonEmptyLines content).length ≤ maxFileLineCount
  · have hcount : (nonEmptyLines content).length < 0 + (cpuCount + 1) := by
      by_contra hle
      exact h ⟨hmax, by omega⟩
    obtain ⟨fault, hfault⟩ := scanLines_error (Nat.zero_le _) hcount
    exact ⟨fault, by rw [if_pos hmax, hfault]; rfl⟩
  · exact ⟨_, if_neg hmax⟩

theorem parse_eq_ok_iff {result : Option ProcStat} :
    parse cpuCount true content = .ok result ↔
      FitsTable cpuCount content ∧ result = some (parsed cpuCount (nonEmptyLines content)) := by
  by_cases h : FitsTable cpuCount content
  · rw [parse_eq_ok h, Except.ok.injEq, and_iff_right h, eq_comm]
  · obtain ⟨fault, hfault⟩ := parse_eq_error h
    rw [hfault]
    exact iff_of_false (fun heq => by cases heq) fun hand => h hand.1

/-- With enough memory the function never reports a failure. -/
theorem parse_ne_none : parse cpuCount true content ≠ .ok none := by
  intro hnone
  obtain ⟨-, hsome⟩ := parse_eq_ok_iff.1 hnone
  cases hsome

/-- No index leaves `linesQueue`, and no line is null. -/
def ParseSafe (cpuCount : ℕ) (allocated : Bool) (content : List UInt8) : Prop :=
  ∀ fault, parse cpuCount allocated content ≠ .error fault

theorem parse_safe_iff (cpuCount : ℕ) (allocated : Bool) (content : List UInt8) :
    ParseSafe cpuCount allocated content ↔ allocated = false ∨ FitsTable cpuCount content := by
  cases allocated with
  | false => exact iff_of_true (fun fault h => by cases h) (.inl rfl)
  | true =>
    rw [or_iff_right Bool.noConfusion]
    by_cases h : FitsTable cpuCount content
    · refine iff_of_true (fun fault hfault => ?_) h
      rw [parse_eq_ok h] at hfault
      cases hfault
    · obtain ⟨fault, hfault⟩ := parse_eq_error h
      exact iff_of_false (fun hsafe => hsafe fault hfault) h

/-- The text has no line at all. -/
theorem parse_not_safe : ¬∀ (cpuCount : ℕ) (content : List UInt8),
    ParseSafe cpuCount true content := by
  intro h
  exact h 0 [] (.nullLine 0) rfl

/-! ## Rendered tables -/

def CpuStatIndex.all : List CpuStatIndex :=
  [user, nice, system, idle, iowait, irq, softirq, steal, guest, guestnice]

/-- A line that shows a row of counters: a label, the ten numbers, and further fields. -/
structure RenderedRow (values : CpuStatIndex → UInt64) where
  label : List UInt8
  fields : CpuStatIndex → Field
  rest : List UInt8
  label_ne : label ≠ []
  not_isSpace_of_mem : ∀ b ∈ label, isSpace b = false
  value_eq : ∀ j, (fields j).value = values j
  startsBlank : StartsBlank rest

def RenderedRow.bytes {values : CpuStatIndex → UInt64} (r : RenderedRow values) : List UInt8 :=
  r.label ++ ((CpuStatIndex.all.map r.fields).flatMap Field.bytes ++ r.rest)

theorem RenderedRow.map_value {values : CpuStatIndex → UInt64} (r : RenderedRow values)
    (columns : List CpuStatIndex) :
    (columns.map r.fields).map Field.value = columns.map values := by
  rw [List.map_map]
  exact List.map_congr_left fun j _ => r.value_eq j

theorem RenderedRow.scanf_bytes {values : CpuStatIndex → UInt64} (r : RenderedRow values) :
    scanf sscanfFormat r.bytes = CpuStatIndex.all.map values := by
  have hfields := scanf_fields (CpuStatIndex.all.map r.fields) r.startsBlank []
  rw [r.map_value, scanf, List.append_nil] at hfields
  rw [RenderedRow.bytes, sscanfFormat, scanf_skipWord r.not_isSpace_of_mem r.label_ne
    (startsBlank_fields _ r.startsBlank)]
  exact hfields

theorem RenderedRow.row_bytes {values : CpuStatIndex → UInt64} (r : RenderedRow values) :
    (row r.bytes).values = values := by
  funext j
  simp only [row, r.scanf_bytes]
  cases j <;> rfl

theorem cString_eq {block : List UInt8} (h : 0 ∉ block) : cString block = block := by
  refine List.takeWhile_eq_self_iff.2 fun b hb => ?_
  have hne : b ≠ 0 := fun hzero => h (hzero ▸ hb)
  simpa using hne

/-- Parsing undoes rendering. -/
theorem parse_renders {cpuCount : ℕ} (hcount : cpuCount + 1 ≤ maxFileLineCount)
    {table : ℕ → CpuStatIndex → UInt64} (rows : ∀ i, RenderedRow (table i))
    {others : List (List UInt8)} {text : List UInt8} (hnul : 0 ∉ text)
    (htext : nonEmptyLines text =
      ((List.range (cpuCount + 1)).map fun i => (rows i).bytes) ++ others)
    (hmax : (nonEmptyLines text).length ≤ maxFileLineCount) :
    ∃ stat : ProcStat, ProcStat.parse cpuCount true true (some text) = ([], .ok (some stat)) ∧
      stat.cpuStatsLength.toNat = cpuCount + 1 ∧
      ∀ i < cpuCount + 1, (stat.cpuStats i).values = table i := by
  have hfits : FitsTable cpuCount text := by
    refine ⟨hmax, ?_⟩
    rw [htext, List.length_append, List.length_map, List.length_range]
    exact Nat.le_add_right _ _
  refine ⟨parsed cpuCount (nonEmptyLines text), ?_, ?_, fun i hi => ?_⟩
  · rw [ProcStat.parse, if_pos rfl, cString_eq hnul, parse_eq_ok hfits]
  · exact UInt64.toNat_ofNat_of_lt' (hcount.trans_lt (by decide))
  · have hline : (nonEmptyLines text).getD i [] = (rows i).bytes := by
      rw [htext, List.getD_eq_getElem?_getD, List.getElem?_append_left (by simpa using hi),
        List.getElem?_map, List.getElem?_range hi]
      rfl
    simp only [parsed, if_pos hi]
    rw [hline, (rows i).row_bytes]

/-- A text in ASCII. -/
def asciiBytes (s : String) : List UInt8 := s.toList.map fun c => c.toNat.toUInt8

theorem mem_cpu {b : UInt8} (hb : b ∈ asciiBytes "cpu") : b = 99 ∨ b = 112 ∨ b = 117 := by
  simpa [asciiBytes] using hb

theorem cpu_ne_nil : asciiBytes "cpu" ≠ [] := by
  decide

theorem isSpace_cpu : ∀ b ∈ asciiBytes "cpu", isSpace b = false := by
  intro b hb
  rcases mem_cpu hb with rfl | rfl | rfl <;> rfl

/-- Column `j` shows the digit `j`, behind two blanks. -/
def digitField (j : CpuStatIndex) : Field where
  blanks := [32, 32]
  digits := [48 + UInt8.ofNat j.toNat]
  value := UInt64.ofNat j.toNat
  blanks_ne := List.cons_ne_nil _ _
  isSpace_of_mem := List.all_eq_true.1 rfl
  digits_ne := List.cons_ne_nil _ _
  isDigit_of_mem := List.all_eq_true.1 (by cases j <;> rfl)
  digitsValue_eq := by cases j <;> decide

def digitRow : RenderedRow fun j => UInt64.ofNat j.toNat where
  label := asciiBytes "cpu"
  fields := digitField
  rest := asciiBytes " ?"
  label_ne := cpu_ne_nil
  not_isSpace_of_mem := isSpace_cpu
  value_eq _ := rfl
  startsBlank b hb := by cases hb; rfl

/-- Two rows, an empty line and another line. -/
theorem parse_renders_digits :
    ∃ stat : ProcStat, ProcStat.parse 1 true true (some
        (digitRow.bytes ++ asciiBytes "\n\n" ++ digitRow.bytes ++ asciiBytes "\nintr 5")) =
          ([], .ok (some stat)) ∧
      stat.cpuStatsLength.toNat = 2 ∧
      ∀ i < 2, (stat.cpuStats i).values = fun j => UInt64.ofNat j.toNat :=
  have hlines : nonEmptyLines
      (digitRow.bytes ++ asciiBytes "\n\n" ++ digitRow.bytes ++ asciiBytes "\nintr 5") =
        ((List.range (1 + 1)).map fun _ => digitRow.bytes) ++ [asciiBytes "intr 5"] := by
    decide +kernel
  parse_renders (by decide) (fun _ => digitRow) (by decide +kernel) hlines (by rw [hlines]; decide)

/-! ## Malformed lines -/

/-- `cpu`, or `cpu` and a number. -/
def isCpuLabel (word : List UInt8) : Bool :=
  word.take 3 == asciiBytes "cpu" && (word.drop 3).all isDigit

/-- A decimal number that fits into 64 bits. -/
def isCounter (word : List UInt8) : Bool :=
  !word.isEmpty && word.all isDigit && digitsValue word < 2 ^ 64

/-- A line of a CPU: its label and ten counters, and possibly further fields. -/
def isCpuLine (line : List UInt8) : Bool :=
  match tokens isSpace line with
  | [] => false
  | label :: fields =>
    isCpuLabel label && 10 ≤ fields.length && (fields.take 10).all isCounter

/-- The lines that are scanned into rows. -/
def significantLines (cpuCount : ℕ) (fileContent : List UInt8) : List (List UInt8) :=
  (nonEmptyLines (cString fileContent)).take (cpuCount + 1)

/-- A line that shows no counters makes `ProcStat_parse` fail. -/
def RejectsMalformed (cpuCount : ℕ) (copied allocated : Bool) (fileContent : List UInt8) : Prop :=
  (∃ line ∈ significantLines cpuCount fileContent, isCpuLine line = false) →
    (ProcStat.parse cpuCount copied allocated (some fileContent)).2 = .ok none

/-- What the lines show plays no part in whether the function fails. -/
theorem parse_eq_none_iff (cpuCount : ℕ) (copied allocated : Bool) (fileContent : List UInt8) :
    (ProcStat.parse cpuCount copied allocated (some fileContent)).2 = .ok none ↔
      copied = false ∨ allocated = false := by
  cases copied with
  | false => exact iff_of_true rfl (.inl rfl)
  | true =>
    cases allocated with
    | false => exact iff_of_true rfl (.inr rfl)
    | true =>
      refine iff_of_false ?_ (by decide)
      rw [ProcStat.parse, if_pos rfl]
      exact parse_ne_none

theorem rejectsMalformed_iff (cpuCount : ℕ) (copied allocated : Bool) (fileContent : List UInt8) :
    RejectsMalformed cpuCount copied allocated fileContent ↔
      copied = false ∨ allocated = false ∨
        ∀ line ∈ significantLines cpuCount fileContent, isCpuLine line = true := by
  rw [RejectsMalformed, parse_eq_none_iff, ← or_assoc]
  by_cases hall : ∀ line ∈ significantLines cpuCount fileContent, isCpuLine line = true
  · refine iff_of_true ?_ (.inr hall)
    intro hmalformed
    obtain ⟨line, hline, hfalse⟩ := hmalformed
    rw [hall line hline] at hfalse
    cases hfalse
  · have hmalformed : ∃ line ∈ significantLines cpuCount fileContent, isCpuLine line = false := by
      simpa using hall
    rw [or_iff_left hall]
    constructor
    · intro hrejects
      exact hrejects hmalformed
    · intro hfails _
      exact hfails

/-- The line of the interrupts is taken for the row of all CPUs. -/
theorem parse_accepts_malformed :
    FitsTable 0 (cString (asciiBytes "intr 5")) ∧
      ¬RejectsMalformed 0 true true (asciiBytes "intr 5") := by
  refine ⟨⟨by decide +kernel, by decide +kernel⟩, fun h => ?_⟩
  have hnone := h ⟨asciiBytes "intr 5", by decide +kernel, by decide +kernel⟩
  cases hnone

end CpuUsageTracker
