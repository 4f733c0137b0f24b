import CpuUsageTracker.ProcStatParsing
import Mathlib.Data.List.GetD
import Mathlib.Tactic.IntervalCases

/-!
# Files that are longer than their buffer

`ProcStat_loadFromFile` parses what `ReadFileContent` delivers, the first 16383 bytes of the file.
If the file is longer there is a warning, but no failure. `ProcStat_parse` gets the whole text.

Two lines at the same place in the cut text and in the whole one are equal, except that the last
line of the cut text may be a part of the other (`tokens_append_getElem?`). From a part no more
numbers are read (`length_scanf_append`). So the two functions can only differ in the last row,
and they agree there if all that the rest of the line shows is zeros.

**Theorem (`entryPoints_agree_iff`).** The two functions agree exactly if the file cannot be closed
or the result cannot be allocated, or the whole text has at most 2048 non-empty lines, the cut
text has a line for each row, and the line of the last row is continued behind the cut by zeros
only.

In a line of counters that means: the cut is behind the tenth number (`continuedByZeros`), or the
number in which it lies keeps its value and all further numbers are zero
(`continuedByZeros_cut_iff`).
-/

namespace CpuUsageTracker

open Scanf Tokens

/-- What `ReadFileContent` delivers of a file. -/
def delivered (content : List UInt8) : List UInt8 := content.take (maxExpectedProcstatLength - 1)

/-- The line that is scanned into the last row. -/
def lastLine (cpuCount : ℕ) (content : List UInt8) : List UInt8 :=
  (nonEmptyLines content).getD cpuCount []

/-- `ProcStat_loadFromFile` fails, or its rows are those that `ProcStat_parse` makes of the whole
content. -/
def EntryPointsAgree (cpuCount : ℕ) (allocated closed : Bool) (content : List UInt8) : Prop :=
  (ProcStat.loadFromFile cpuCount allocated (.content content closed)).2 = .ok none ∨
    ∃ loaded whole : ProcStat,
      (ProcStat.loadFromFile cpuCount allocated (.content content closed)).2 = .ok (some loaded) ∧
      (ProcStat.parse cpuCount true true (some content)).2 = .ok (some whole) ∧
      ∀ i < cpuCount + 1, loaded.cpuStats i = whole.cpuStats i

/-- The numbers that `sscanf` finds in `line` are those in `part`, followed by zeros: behind `part`
no number goes on and only zeros are shown. -/
def ContinuedByZeros (part line : List UInt8) : Prop :=
  ∃ k, scanf sscanfFormat line = scanf sscanfFormat part ++ List.replicate k 0

variable {cpuCount : ℕ} {content : List UInt8}

/-! ## Rows -/

theorem eq_append_replicate_iff {a b : List UInt64} {n : ℕ} (hab : a.length ≤ b.length)
    (hb : b.length ≤ n) :
    (∀ i < n, a.getD i 0 = b.getD i 0) ↔ ∃ k, b = a ++ List.replicate k 0 := by
  constructor
  · intro h
    refine ⟨b.length - a.length, List.ext_getElem (by simp; omega) fun i hi hi' => ?_⟩
    have hget : b[i] = a.getD i 0 := by
      rw [h i (by omega), List.getD_eq_getElem b 0 hi]
    rw [hget]
    by_cases hia : i < a.length
    · rw [List.getElem_append_left hia, List.getD_eq_getElem a 0 hia]
    · rw [List.getElem_append_right (not_lt.1 hia), List.getElem_replicate,
        List.getD_eq_default a 0 (not_lt.1 hia)]
  · intro h i _
    obtain ⟨k, rfl⟩ := h
    by_cases hia : i < a.length
    · rw [List.getD_append a _ 0 i hia]
    · rw [List.getD_append_right a _ 0 i (not_lt.1 hia), List.getD_eq_default a 0 (not_lt.1 hia),
        List.getD_eq_getElem?_getD, List.getElem?_getD_replicate_default_eq]

theorem CpuStatIndex.toNat_lt (j : CpuStatIndex) : j.toNat < 10 := by cases j <;> decide

theorem CpuStatIndex.exists_toNat {i : ℕ} (h : i < 10) : ∃ j : CpuStatIndex, j.toNat = i := by
  refine ⟨all.get ⟨i, h⟩, ?_⟩
  interval_cases i <;> rfl

theorem row_eq_iff (part rest : List UInt8) :
    row part = row (part ++ rest) ↔ ContinuedByZeros part (part ++ rest) := by
  have hcount : (scanf sscanfFormat (part ++ rest)).length ≤ 10 := length_scanf_le sscanfFormat _
  rw [ContinuedByZeros, ← eq_append_replicate_iff (length_scanf_append _ part rest) hcount]
  constructor
  · intro h i hi
    obtain ⟨j, rfl⟩ := CpuStatIndex.exists_toNat hi
    exact congrFun (congrArg CpuStat.values h) j
  · intro h
    exact congrArg CpuStat.mk (funext fun j => h _ j.toNat_lt)

/-! ## Lines -/

theorem delivered_append (content : List UInt8) :
    delivered content ++ content.drop (maxExpectedProcstatLength - 1) = content :=
  List.take_append_drop _ content

theorem length_nonEmptyLines_delivered (content : List UInt8) :
    (nonEmptyLines (delivered content)).length ≤ (nonEmptyLines content).length := by
  have h := length_tokens_le (· == 10) (delivered content)
    (content.drop (maxExpectedProcstatLength - 1))
  rwa [delivered_append] at h

/-- A line of the cut text is a part of the line of the whole text, and all of it unless it is the
last one. -/
theorem line_delivered {i : ℕ} (hi : i < (nonEmptyLines (delivered content)).length) :
    ∃ rest, (nonEmptyLines content).getD i [] =
        (nonEmptyLines (delivered content)).getD i [] ++ rest ∧
      (i + 1 < (nonEmptyLines (delivered content)).length → rest = []) := by
  obtain ⟨rest, hrest, hlast⟩ := tokens_append_getElem?
    (content.drop (maxExpectedProcstatLength - 1)) (List.getElem?_eq_getElem hi)
  rw [delivered_append] at hrest
  refine ⟨rest, ?_, hlast⟩
  rw [List.getD_eq_getElem _ _ hi, List.getD_eq_getElem?_getD, nonEmptyLines, hrest]
  rfl

/-- Only the last row can differ. -/
theorem rows_eq_iff (h : cpuCount + 1 ≤ (nonEmptyLines (delivered content)).length) :
    (∀ i < cpuCount + 1, row ((nonEmptyLines (delivered content)).getD i []) =
        row ((nonEmptyLines content).getD i [])) ↔
      ContinuedByZeros (lastLine cpuCount (delivered content)) (lastLine cpuCount content) := by
  have hlast : row (lastLine cpuCount (delivered content)) = row (lastLine cpuCount content) ↔
      ContinuedByZeros (lastLine cpuCount (delivered content)) (lastLine cpuCount content) := by
    obtain ⟨rest, hrest, -⟩ := line_delivered (Nat.lt_of_succ_le h)
    rw [lastLine, lastLine, hrest]
    exact row_eq_iff _ rest
  rw [← hlast]
  constructor
  · intro hrows
    exact hrows cpuCount (Nat.lt_succ_self _)
  · intro hrow i hi
    rcases Nat.lt_succ_iff_lt_or_eq.1 hi with hlt | rfl
    · obtain ⟨rest, hrest, hnil⟩ := line_delivered (hi.trans_le h)
      rw [hrest, hnil (by omega), List.append_nil]
    · exact hrow

/-! ## The functions -/

theorem retval_content_pos {fileName : String} {bufSz : ℕ} (hne : content ≠ []) (h : 1 < bufSz) :
    1 ≤ (readFileContent fileName (.content content true) bufSz).retval := by
  have hlength : 1 ≤ content.length := List.length_pos_iff.2 hne
  rw [readFileContent, if_neg (by omega)]
  simp only [if_true, intMax]
  split_ifs <;> omega

theorem loadFromFile_content (hne : content ≠ []) (hnul : 0 ∉ content) (cpuCount : ℕ)
    (allocated : Bool) :
    (ProcStat.loadFromFile cpuCount allocated (.content content true)).2 =
      parse cpuCount allocated (delivered content) := by
  have hretval : 1 ≤ (readFileContent "/proc/stat" (.content content true)
      maxExpectedProcstatLength).retval := retval_content_pos hne (by decide)
  have hbuffer : (readFileContent "/proc/stat" (.content content true)
      maxExpectedProcstatLength).buffer = delivered content := rfl
  have hmem : 0 ∉ delivered content := fun h => hnul (List.mem_of_mem_take h)
  simp only [ProcStat.loadFromFile]
  rw [if_neg (by omega), hbuffer, cString_eq hmem]

theorem fitsTable_delivered_iff :
    FitsTable cpuCount (delivered content) ∧ FitsTable cpuCount content ↔
      (nonEmptyLines content).length ≤ maxFileLineCount ∧
        cpuCount + 1 ≤ (nonEmptyLines (delivered content)).length := by
  have hle := length_nonEmptyLines_delivered content
  constructor
  · intro h
    obtain ⟨⟨-, hcount⟩, hmax, -⟩ := h
    exact ⟨hmax, hcount⟩
  · intro h
    obtain ⟨hmax, hcount⟩ := h
    exact ⟨⟨hle.trans hmax, hcount⟩, hmax, hcount.trans hle⟩

theorem parse_delivered_iff (cpuCount : ℕ) (content : List UInt8) :
    (∃ loaded whole : ProcStat, parse cpuCount true (delivered content) = .ok (some loaded) ∧
        parse cpuCount true content = .ok (some whole) ∧
        ∀ i < cpuCount + 1, loaded.cpuStats i = whole.cpuStats i) ↔
      (nonEmptyLines content).length ≤ maxFileLineCount ∧
        cpuCount + 1 ≤ (nonEmptyLines (delivered content)).length ∧
        ContinuedByZeros (lastLine cpuCount (delivered content)) (lastLine cpuCount content) := by
  simp only [parse_eq_ok_iff, Option.some.injEq]
  rw [← and_assoc, ← fitsTable_delivered_iff]
  constructor
  · intro h
    obtain ⟨loaded, whole, ⟨hload, rfl⟩, ⟨hwhole, rfl⟩, hrows⟩ := h
    refine ⟨⟨hload, hwhole⟩, (rows_eq_iff hload.2).1 ?_⟩
    intro i hi
    simpa only [parsed, if_pos hi] using hrows i hi
  · intro h
    obtain ⟨⟨hload, hwhole⟩, hzeros⟩ := h
    refine ⟨_, _, ⟨hload, rfl⟩, ⟨hwhole, rfl⟩, fun i hi => ?_⟩
    simpa only [parsed, if_pos hi] using (rows_eq_iff hload.2).2 hzeros i hi

/-- If nothing fails, only the text matters. -/
theorem entryPointsAgree_iff_delivered (hne : content ≠ []) (hnul : 0 ∉ content) (cpuCount : ℕ) :
    EntryPointsAgree cpuCount true true content ↔
      (nonEmptyLines content).length ≤ maxFileLineCount ∧
        cpuCount + 1 ≤ (nonEmptyLines (delivered content)).length ∧
        ContinuedByZeros (lastLine cpuCount (delivered content)) (lastLine cpuCount content) := by
  rw [EntryPointsAgree, loadFromFile_content hne hnul, or_iff_right parse_ne_none, ProcStat.parse,
    if_pos rfl, cString_eq hnul]
  exact parse_delivered_iff cpuCount content

theorem entryPoints_agree_iff (hne : content ≠ []) (hnul : 0 ∉ content) (cpuCount : ℕ)
    (allocated closed : Bool) :
    EntryPointsAgree cpuCount allocated closed content ↔
      closed = false ∨ allocated = false ∨
        ((nonEmptyLines content).length ≤ maxFileLineCount ∧
          cpuCount + 1 ≤ (nonEmptyLines (delivered content)).length ∧
          ContinuedByZeros (lastLine cpuCount (delivered content)) (lastLine cpuCount content)) := by
  cases closed with
  | false => exact iff_of_true (.inl rfl) (.inl rfl)
  | true =>
    cases allocated with
    | false =>
      refine iff_of_true (.inl ?_) (.inr (.inl rfl))
      rw [loadFromFile_content hne hnul]
      rfl
    | true =>
      rw [entryPointsAgree_iff_delivered hne hnul]
      simp only [Bool.true_eq_false, false_or]

/-- The whole file fits into the buffer. -/
theorem entryPoints_agree_iff_short :
    EntryPointsAgree 0 true true (asciiBytes "cpu 4705 150 1120 16250 520 0 17 0 0 0\nintr 5\n") :=
  (entryPoints_agree_iff (by decide) (by decide +kernel) 0 true true).2
    (.inr (.inr ⟨by decide +kernel, by decide +kernel, 0, by decide +kernel⟩))

/-! ## Where the cut does no harm -/

/-- A file that fits into the buffer and into the table. -/
theorem entryPointsAgree_of_length (hne : content ≠ []) (hnul : 0 ∉ content)
    (hlength : content.length ≤ maxExpectedProcstatLength - 1) (h : FitsTable cpuCount content) :
    EntryPointsAgree cpuCount true true content := by
  have hwhole : delivered content = content := List.take_of_length_le hlength
  rw [entryPointsAgree_iff_delivered hne hnul, hwhole]
  exact ⟨h.1, h.2, 0, (List.append_nil _).symm⟩

/-- A cut behind the tenth number, if something else stands between them. -/
theorem RenderedRow.continuedByZeros {values : CpuStatIndex → UInt64} (r : RenderedRow values)
    (hrest : r.rest ≠ []) (u : List UInt8) : ContinuedByZeros r.bytes (r.bytes ++ u) := by
  have hblank : StartsBlank (r.rest ++ u) := by
    intro b hb
    rw [List.head?_append_of_ne_nil _ hrest] at hb
    exact r.startsBlank b hb
  have hbytes : r.bytes ++ u = ({ r with rest := r.rest ++ u, startsBlank := hblank } :
      RenderedRow values).bytes := by
    simp only [RenderedRow.bytes, List.append_assoc]
  exact ⟨0, by rw [hbytes, scanf_bytes, scanf_bytes, List.replicate_zero, List.append_nil]⟩

/-! ## What a cut changes -/

/-- A row of which the digits `ds` of column `j` are the last that is read. -/
def RenderedRow.cut {values : CpuStatIndex → UInt64} (r : RenderedRow values)
    (before : List CpuStatIndex) (j : CpuStatIndex) (ds : List UInt8) : List UInt8 :=
  r.label ++ ((before.map r.fields).flatMap Field.bytes ++ ((r.fields j).blanks ++ ds))

theorem RenderedRow.scanf_cut {values : CpuStatIndex → UInt64} (r : RenderedRow values)
    {before after : List CpuStatIndex} {j : CpuStatIndex}
    (hall : CpuStatIndex.all = before ++ j :: after) {ds es : List UInt8}
    (hdigits : (r.fields j).digits = ds ++ es) :
    scanf sscanfFormat (r.cut before j ds) =
      before.map values ++ if ds = [] then [] else [UInt64.ofNat (digitsValue ds)] := by
  have hformat : sscanfFormat = .skipWord ::
      (((before.map r.fields).flatMap fun _ => [.white, .unsignedLongLong]) ++
        (.white :: .unsignedLongLong :: after.flatMap fun _ => [.white, .unsignedLongLong])) := by
    have hcolumns : sscanfFormat =
        .skipWord :: CpuStatIndex.all.flatMap fun _ => [.white, .unsignedLongLong] := rfl
    rw [hcolumns, hall, List.flatMap_append, List.flatMap_map]
    rfl
  have hblank := (r.fields j).startsBlank ds
  rw [hformat, RenderedRow.cut, scanf_skipWord r.not_isSpace_of_mem r.label_ne
    (startsBlank_fields _ hblank), scanf_fields _ hblank, r.map_value, Scanf.scanf_cut _ hdigits]

theorem exists_eq_replicate_iff {l : List UInt64} :
    (∃ k, l = List.replicate k 0) ↔ ∀ b ∈ l, b = 0 := by
  constructor
  · intro h b hb
    obtain ⟨k, rfl⟩ := h
    exact List.eq_of_mem_replicate hb
  · intro h
    exact ⟨l.length, List.eq_replicate_iff.2 ⟨rfl, h⟩⟩

theorem exists_eq_append_replicate_iff {a : UInt64} {l : List UInt64} {ds : List UInt8}
    (hlt : digitsValue ds < 2 ^ 64) :
    (∃ k, a :: l = (if ds = [] then [] else [UInt64.ofNat (digitsValue ds)]) ++
        List.replicate k 0) ↔ digitsValue ds = a.toNat ∧ ∀ b ∈ l, b = 0 := by
  by_cases hne : ds = []
  · have ha : a = 0 ↔ digitsValue ds = a.toNat := by
      rw [hne, ← UInt64.toNat_inj, eq_comm]
      rfl
    rw [if_pos hne, ← ha]
    exact exists_eq_replicate_iff.trans List.forall_mem_cons
  · have ha : a = UInt64.ofNat (digitsValue ds) ↔ digitsValue ds = a.toNat := by
      rw [← UInt64.toNat_inj, UInt64.toNat_ofNat_of_lt' hlt, eq_comm]
    rw [if_neg hne, ← ha, ← exists_eq_replicate_iff]
    simp only [List.singleton_append, List.cons.injEq, exists_and_left]

/-- A cut in or in front of a number does no harm exactly if the digits in front of it already
denote the number, and all further numbers are zero. -/
theorem RenderedRow.continuedByZeros_cut_iff {values : CpuStatIndex → UInt64}
    (r : RenderedRow values) {before after : List CpuStatIndex} {j : CpuStatIndex}
    (hall : CpuStatIndex.all = before ++ j :: after) {ds es : List UInt8}
    (hdigits : (r.fields j).digits = ds ++ es) :
    ContinuedByZeros (r.cut before j ds) r.bytes ↔
      digitsValue ds = (values j).toNat ∧ ∀ k ∈ after, values k = 0 := by
  have hlt : digitsValue ds < 2 ^ 64 := by
    have hle := digitsValue_le_append ds es
    rw [← hdigits, (r.fields j).digitsValue_eq] at hle
    exact hle.trans_lt (UInt64.toNat_lt _)
  have hwhole : CpuStatIndex.all.map values =
      before.map values ++ values j :: after.map values := by
    rw [hall, List.map_append, List.map_cons]
  rw [ContinuedByZeros, r.scanf_bytes, r.scanf_cut hall hdigits, hwhole]
  simp only [List.append_assoc, List.append_cancel_left_eq]
  rw [exists_eq_append_replicate_iff hlt, List.forall_mem_map]

/-! ## A cut in a number -/

/-- `12` behind `n + 1` blanks. -/
def paddedField (n : ℕ) : Field where
  blanks := List.replicate (n + 1) 32
  digits := [49, 50]
  value := 12
  blanks_ne := by simp
  isSpace_of_mem b hb := by
    rw [List.eq_of_mem_replicate hb]
    rfl
  digits_ne := List.cons_ne_nil _ _
  isDigit_of_mem := List.all_eq_true.1 rfl
  digitsValue_eq := rfl

def zeroField : Field where
  blanks := [32]
  digits := [48]
  value := 0
  blanks_ne := List.cons_ne_nil _ _
  isSpace_of_mem := List.all_eq_true.1 rfl
  digits_ne := List.cons_ne_nil _ _
  isDigit_of_mem := List.all_eq_true.1 rfl
  digitsValue_eq := rfl

/-- `cpu`, `n + 1` blanks, `12`, and nine zeros. -/
def paddedRow (n : ℕ) : RenderedRow fun
    | .user => 12
    | _ => 0 where
  label := asciiBytes "cpu"
  fields
    | .user => paddedField n
    | _ => zeroField
  rest := []
  label_ne := cpu_ne_nil
  not_isSpace_of_mem := isSpace_cpu
  value_eq j := by cases j <;> rfl
  startsBlank b hb := by cases hb

theorem paddedRow_bytes (n : ℕ) :
    (paddedRow n).bytes = (paddedRow n).cut [] .user [49] ++ asciiBytes "2 0 0 0 0 0 0 0 0 0" := by
  simp only [RenderedRow.bytes, RenderedRow.cut, CpuStatIndex.all, List.map_cons,
    List.flatMap_cons, Field.bytes, List.append_assoc]
  rfl

theorem paddedRow_cut (n : ℕ) :
    (paddedRow n).cut [] .user [49] = asciiBytes "cpu" ++ (List.replicate (n + 1) 32 ++ [49]) := rfl

/-- Neither the end of the text nor of a line. -/
def isText (b : UInt8) : Bool := b != 0 && b != 10

theorem all_isText_cut (n : ℕ) : ((paddedRow n).cut [] .user [49]).all isText = true := by
  rw [paddedRow_cut, List.all_append, List.all_append, List.all_replicate,
    if_neg (Nat.succ_ne_zero n)]
  decide

theorem all_isText_bytes (n : ℕ) : (paddedRow n).bytes.all isText = true := by
  rw [paddedRow_bytes, List.all_append, all_isText_cut]
  decide

theorem nonEmptyLines_of_isText {line : List UInt8} (h : line.all isText = true) (hne : line ≠ []) :
    nonEmptyLines line = [line] := by
  refine tokens_of_forall (fun b hb => ?_) hne
  have htext := List.all_eq_true.1 h b hb
  simp only [isText, Bool.and_eq_true, bne_iff_ne] at htext
  simpa using htext.2

theorem lastLine_of_isText {line : List UInt8} (h : line.all isText = true) (hne : line ≠ []) :
    lastLine 0 line = line := by
  rw [lastLine, nonEmptyLines_of_isText h hne]
  rfl

/-- The file ends with `12 0 0 0 0 0 0 0 0 0`, and the digit 1 is the last one that is delivered. -/
theorem delivered_paddedRow :
    delivered (paddedRow 16378).bytes = (paddedRow 16378).cut [] .user [49] := by
  rw [paddedRow_bytes, delivered]
  refine List.take_left' ?_
  rw [paddedRow_cut, List.length_append, List.length_append, List.length_replicate]
  decide

/-- The first value of the row is 1 where the file has 12. -/
theorem entryPoints_disagree : ¬∀ (cpuCount : ℕ) (content : List UInt8), content ≠ [] →
    0 ∉ content → EntryPointsAgree cpuCount true true content := by
  intro h
  have hcut : (paddedRow 16378).cut [] .user [49] ≠ [] := List.cons_ne_nil _ _
  have hne : (paddedRow 16378).bytes ≠ [] := List.cons_ne_nil _ _
  have hnul : 0 ∉ (paddedRow 16378).bytes := by
    intro hzero
    have htext := List.all_eq_true.1 (all_isText_bytes 16378) 0 hzero
    cases htext
  obtain ⟨-, -, hzeros⟩ := (entryPointsAgree_iff_delivered hne hnul 0).1 (h 0 _ hne hnul)
  rw [delivered_paddedRow, lastLine_of_isText (all_isText_cut _) hcut,
    lastLine_of_isText (all_isText_bytes _) hne] at hzeros
  have hdigits : ((paddedRow 16378).fields .user).digits = [49] ++ [50] := rfl
  have hvalue := ((paddedRow 16378).continuedByZeros_cut_iff rfl hdigits).1 hzeros
  exact absurd hvalue.1 (by decide)

end CpuUsageTracker
