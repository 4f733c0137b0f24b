import Mathlib.Algebra.Group.Nat.Defs
import Mathlib.Data.List.TakeWhile
import Mathlib.Tactic.Common

/-!
# Scanning numbers from a string

The part of `sscanf` that reads words and 64-bit decimal numbers, in the "C" locale. A string is
the list of its bytes before the terminating null character. `scanf` returns the values that are
assigned, in order; it stops at the first directive that does not match.

**Theorem (`scanf_fields`).** Numbers that are written in decimal, each preceded by white space, are
read back one by one, whatever white space was used and whatever follows it.

**Theorem (`length_scanf_append`).** If a string is cut, no more numbers are read from it. Where a
number is cut, the digits in front of the cut are read (`scanf_cut`).
-/

namespace Scanf

def isSpace (b : UInt8) : Bool := b == 32 || 9 ≤ b && b ≤ 13

def isDigit (b : UInt8) : Bool := 48 ≤ b && b ≤ 57

/-- The number that a string of digits denotes. -/
def digitsValue (digits : List UInt8) : ℕ :=
  digits.foldl (fun v d => 10 * v + (d.toNat - 48)) 0

/-- What `strtoull` makes of a sign and digits: the largest number if the digits denote more, else
the number or, modulo `2 ^ 64`, its negative. -/
def strtoull (negative : Bool) (digits : List UInt8) : UInt64 :=
  if digitsValue digits < 2 ^ 64 then
    if negative then 0 - UInt64.ofNat (digitsValue digits) else UInt64.ofNat (digitsValue digits)
  else 18446744073709551615

/-- Take off a sign. -/
def sign : List UInt8 → Bool × List UInt8
  | [] => (false, [])
  | b :: s => if b = 45 then (true, s) else if b = 43 then (false, s) else (false, b :: s)

/-- The directive `%llu` behind its white space: the number, and what follows it. -/
def scanNumber (s : List UInt8) : Option (UInt64 × List UInt8) :=
  if (sign s).2.takeWhile isDigit = [] then none
  else some (strtoull (sign s).1 ((sign s).2.takeWhile isDigit), (sign s).2.dropWhile isDigit)

/-- A blank in the format, `%*s` and `%llu`. -/
inductive Directive
  | white
  | skipWord
  | unsignedLongLong
  deriving DecidableEq, Repr

def scanf : List Directive → List UInt8 → List UInt64
  | [], _ => []
  | .white :: format, s => scanf format (s.dropWhile isSpace)
  | .skipWord :: format, s =>
    if s.dropWhile isSpace = [] then []
    else scanf format ((s.dropWhile isSpace).dropWhile fun b => !isSpace b)
  | .unsignedLongLong :: format, s =>
    match scanNumber (s.dropWhile isSpace) with
    | none => []
    | some (v, rest) => v :: scanf format rest

/-! ## Numerals -/

/-- A number as it is written: white space and decimal digits, with leading zeros or without. -/
structure Field where
  blanks : List UInt8
  digits : List UInt8
  value : UInt64
  blanks_ne : blanks ≠ []
  isSpace_of_mem : ∀ b ∈ blanks, isSpace b = true
  digits_ne : digits ≠ []
  isDigit_of_mem : ∀ b ∈ digits, isDigit b = true
  digitsValue_eq : digitsValue digits = value.toNat

def Field.bytes (f : Field) : List UInt8 := f.blanks ++ f.digits

/-- The string is empty or starts with white space. -/
def StartsBlank (s : List UInt8) : Prop := ∀ b ∈ s.head?, isSpace b = true

theorem startsBlank_nil : StartsBlank [] := by
  intro b hb
  cases hb

/-- The digit for a number below ten. -/
def digit (v : Fin 10) : UInt8 := 48 + UInt8.ofNat v.val

theorem singleton_digit_ne_nil (v : Fin 10) : [digit v] ≠ [] := List.cons_ne_nil _ _

theorem isDigit_of_mem_singleton_digit (v : Fin 10) : ∀ b ∈ [digit v], isDigit b = true := by
  intro b hb
  obtain rfl := List.mem_singleton.1 hb
  revert v
  decide

theorem digitsValue_singleton_digit :
    ∀ v : Fin 10, digitsValue [digit v] = (UInt64.ofNat v.val).toNat := by
  decide

theorem isDigit_eq_false_of_isSpace {b : UInt8} (h : isSpace b = true) : isDigit b = false := by
  simp only [isSpace, isDigit, Bool.or_eq_true, beq_iff_eq, Bool.and_eq_true, decide_eq_true_eq,
    Bool.and_eq_false_iff, decide_eq_false_iff_not, UInt8.le_iff_toNat_le] at *
  rcases h with rfl | ⟨-, hle⟩
  · exact .inl (by decide)
  · refine .inl fun hge => ?_
    have hle' : b.toNat ≤ 13 := hle
    have hge' : 48 ≤ b.toNat := hge
    omega

theorem sign_of_isDigit {b : UInt8} (h : isDigit b = true) (s : List UInt8) :
    sign (b :: s) = (false, b :: s) := by
  have hminus : b ≠ 45 := by rintro rfl; cases h
  have hplus : b ≠ 43 := by rintro rfl; cases h
  rw [sign, if_neg hminus, if_neg hplus]

theorem takeWhile_isDigit {s : List UInt8} (h : StartsBlank s) : s.takeWhile isDigit = [] := by
  cases s with
  | nil => rfl
  | cons b s =>
    have hb := isDigit_eq_false_of_isSpace (h b rfl)
    rw [List.takeWhile_cons_of_neg (by simp [hb])]

theorem scanNumber_digits (f : Field) {s : List UInt8} (h : StartsBlank s) :
    scanNumber (f.digits ++ s) = some (f.value, s) := by
  have hsign : sign (f.digits ++ s) = (false, f.digits ++ s) := by
    cases hd : f.digits with
    | nil => exact absurd hd f.digits_ne
    | cons b t =>
      have hb : isDigit b = true := f.isDigit_of_mem b (by rw [hd]; exact List.mem_cons_self)
      exact sign_of_isDigit hb (t ++ s)
  have htake : (f.digits ++ s).takeWhile isDigit = f.digits := by
    rw [List.takeWhile_append_of_pos f.isDigit_of_mem, takeWhile_isDigit h, List.append_nil]
  have hdrop : (f.digits ++ s).dropWhile isDigit = s := by
    have happend := List.takeWhile_append_dropWhile (p := isDigit) (l := f.digits ++ s)
    rw [htake] at happend
    exact List.append_cancel_left happend
  have hvalue : strtoull false f.digits = f.value := by
    rw [strtoull, f.digitsValue_eq, if_pos f.value.toNat_lt, if_neg Bool.false_ne_true,
      UInt64.ofNat_toNat]
  rw [scanNumber, hsign]
  simp only
  rw [htake, if_neg f.digits_ne, hdrop, hvalue]

theorem Field.dropWhile_digits (f : Field) (s : List UInt8) :
    (f.digits ++ s).dropWhile isSpace = f.digits ++ s := by
  cases hd : f.digits with
  | nil => exact absurd hd f.digits_ne
  | cons b t =>
    have hb : isDigit b = true := f.isDigit_of_mem b (by rw [hd]; exact List.mem_cons_self)
    rw [List.cons_append, List.dropWhile_cons_of_neg]
    intro hspace
    rw [isDigit_eq_false_of_isSpace hspace] at hb
    cases hb

theorem Field.dropWhile_bytes (f : Field) (s : List UInt8) :
    (f.bytes ++ s).dropWhile isSpace = f.digits ++ s := by
  rw [Field.bytes, List.append_assoc, List.dropWhile_append_of_pos f.isSpace_of_mem,
    f.dropWhile_digits]

theorem Field.startsBlank (f : Field) (s : List UInt8) : StartsBlank (f.blanks ++ s) := by
  intro b hb
  cases hf : f.blanks with
  | nil => exact absurd hf f.blanks_ne
  | cons b' t =>
    simp only [hf, List.cons_append, List.head?_cons, Option.mem_some_iff] at hb
    subst hb
    exact f.isSpace_of_mem _ (by rw [hf]; exact List.mem_cons_self)

theorem startsBlank_fields (fields : List Field) {s : List UInt8} (h : StartsBlank s) :
    StartsBlank (fields.flatMap Field.bytes ++ s) := by
  cases fields with
  | nil => exact h
  | cons f fields =>
    rw [List.flatMap_cons, List.append_assoc, Field.bytes, List.append_assoc]
    exact f.startsBlank _

/-- A field is read and taken off. -/
theorem scanf_field (f : Field) {s : List UInt8} (h : StartsBlank s) (format : List Directive) :
    scanf (.white :: .unsignedLongLong :: format) (f.bytes ++ s) = f.value :: scanf format s := by
  rw [scanf, f.dropWhile_bytes, scanf, f.dropWhile_digits, scanNumber_digits f h]

theorem scanf_fields (fields : List Field) {s : List UInt8} (h : StartsBlank s)
    (format : List Directive) :
    scanf ((fields.flatMap fun _ => [.white, .unsignedLongLong]) ++ format)
      (fields.flatMap Field.bytes ++ s) = fields.map Field.value ++ scanf format s := by
  induction fields with
  | nil => rfl
  | cons f fields ih =>
    simp only [List.flatMap_cons, List.map_cons, List.cons_append, List.nil_append,
      List.append_assoc]
    rw [scanf_field f (startsBlank_fields fields h), ih]

/-- A word in front of the fields is skipped. -/
theorem scanf_skipWord {word : List UInt8} (hword : ∀ b ∈ word, isSpace b = false) (hne : word ≠ [])
    {s : List UInt8} (h : StartsBlank s) (format : List Directive) :
    scanf (.skipWord :: format) (word ++ s) = scanf format s := by
  have hspace : (word ++ s).dropWhile isSpace = word ++ s := by
    cases word with
    | nil => exact absurd rfl hne
    | cons b t =>
      rw [List.cons_append, List.dropWhile_cons_of_neg (by simp [hword b List.mem_cons_self])]
  have hdrop : (word ++ s).dropWhile (fun b => !isSpace b) = s := by
    rw [List.dropWhile_append_of_pos (by simpa using hword)]
    cases s with
    | nil => rfl
    | cons b t => rw [List.dropWhile_cons_of_neg (by simp [h b rfl])]
  rw [scanf, hspace, if_neg (by simp [hne]), hdrop]

/-! ## Cut strings -/

theorem dropWhile_append_of_ne {p : UInt8 → Bool} {s : List UInt8} (h : s.dropWhile p ≠ [])
    (r : List UInt8) : (s ++ r).dropWhile p = s.dropWhile p ++ r := by
  rw [List.dropWhile_append, if_neg (by simpa using h)]

theorem scanf_nil (format : List Directive) : scanf format [] = [] := by
  induction format with
  | nil => rfl
  | cons d format ih => cases d with
    | white => exact ih
    | skipWord => rfl
    | unsignedLongLong => rfl

theorem length_scanf_le (format : List Directive) (s : List UInt8) :
    (scanf format s).length ≤ format.count .unsignedLongLong := by
  induction format generalizing s with
  | nil => exact Nat.zero_le _
  | cons d format ih => cases d with
    | white =>
      rw [scanf, List.count_cons_of_ne (by decide)]
      exact ih _
    | skipWord =>
      rw [scanf, List.count_cons_of_ne (by decide)]
      split
      · exact Nat.zero_le _
      · exact ih _
    | unsignedLongLong =>
      rw [scanf, List.count_cons_self]
      cases scanNumber (s.dropWhile isSpace) with
      | none => exact Nat.zero_le _
      | some x => exact Nat.succ_le_succ (ih x.2)

theorem digitsValue_le_append (ds es : List UInt8) : digitsValue ds ≤ digitsValue (ds ++ es) := by
  rw [digitsValue, digitsValue, List.foldl_append]
  generalize ds.foldl (fun v d => 10 * v + (d.toNat - 48)) 0 = v
  induction es generalizing v with
  | nil => exact le_rfl
  | cons e es ih =>
    calc v ≤ 10 * v + (e.toNat - 48) := by omega
      _ ≤ _ := ih _

/-- A field whose last digits are cut off. -/
def Field.cut (f : Field) (ds es : List UInt8) (h : f.digits = ds ++ es) (hne : ds ≠ []) :
    Field where
  blanks := f.blanks
  digits := ds
  value := UInt64.ofNat (digitsValue ds)
  blanks_ne := f.blanks_ne
  isSpace_of_mem := f.isSpace_of_mem
  digits_ne := hne
  isDigit_of_mem b hb := f.isDigit_of_mem b (h ▸ List.mem_append_left es hb)
  digitsValue_eq := by
    have hle := digitsValue_le_append ds es
    rw [← h, f.digitsValue_eq] at hle
    exact (UInt64.toNat_ofNat_of_lt' (hle.trans_lt f.value.toNat_lt)).symm

theorem scanf_cut (f : Field) {ds es : List UInt8} (h : f.digits = ds ++ es)
    (format : List Directive) :
    scanf (.white :: .unsignedLongLong :: format) (f.blanks ++ ds) =
      if ds = [] then [] else [UInt64.ofNat (digitsValue ds)] := by
  by_cases hne : ds = []
  · have hnil : f.blanks.dropWhile isSpace = [] := List.dropWhile_eq_nil_iff.2 f.isSpace_of_mem
    rw [if_pos hne, hne, List.append_nil, scanf, hnil, scanf_nil]
  · have hfield := scanf_field (f.cut ds es h hne) (s := []) (fun b hb => by cases hb) format
    rw [List.append_nil, scanf_nil] at hfield
    rw [if_neg hne]
    exact hfield

theorem sign_append {s : List UInt8} (hne : s ≠ []) (r : List UInt8) :
    sign (s ++ r) = ((sign s).1, (sign s).2 ++ r) := by
  cases s with
  | nil => exact absurd rfl hne
  | cons b s =>
    simp only [List.cons_append, sign]
    split_ifs <;> rfl

/-- A number at the front of a cut string is at the front of the whole string too, though not
always the same one. -/
theorem scanNumber_append {s rest : List UInt8} {v : UInt64} (h : scanNumber s = some (v, rest))
    (r : List UInt8) :
    ∃ v' rest', scanNumber (s ++ r) = some (v', rest') ∧ (rest ≠ [] → rest' = rest ++ r) := by
  have hne : s ≠ [] := by
    rintro rfl
    cases h
  rw [scanNumber] at h
  by_cases hdigits : (sign s).2.takeWhile isDigit = []
  · rw [if_pos hdigits] at h
    cases h
  · rw [if_neg hdigits] at h
    obtain ⟨-, rfl⟩ := Prod.mk.inj (Option.some.inj h)
    have hdigits' : ((sign s).2 ++ r).takeWhile isDigit ≠ [] := by
      cases hs : (sign s).2 with
      | nil => exact absurd (by rw [hs]; rfl) hdigits
      | cons b t =>
        have hb : isDigit b = true := by
          by_contra hb
          exact hdigits (by rw [hs, List.takeWhile_cons_of_neg hb])
        rw [List.cons_append, List.takeWhile_cons_of_pos hb]
        exact List.cons_ne_nil _ _
    refine ⟨_, _, by rw [scanNumber, sign_append hne, if_neg hdigits'], fun hrest => ?_⟩
    exact dropWhile_append_of_ne hrest r

/-- Where nothing is left of the cut string, nothing more is read from it. -/
theorem length_scanf_dropWhile {format : List Directive}
    (h : ∀ s r, (scanf format s).length ≤ (scanf format (s ++ r)).length) (p : UInt8 → Bool)
    (s r : List UInt8) :
    (scanf format (s.dropWhile p)).length ≤ (scanf format ((s ++ r).dropWhile p)).length := by
  by_cases hnil : s.dropWhile p = []
  · rw [hnil, scanf_nil]
    exact Nat.zero_le _
  · rw [dropWhile_append_of_ne hnil]
    exact h _ r

theorem length_scanf_append (format : List Directive) (s r : List UInt8) :
    (scanf format s).length ≤ (scanf format (s ++ r)).length := by
  induction format generalizing s r with
  | nil => exact le_rfl
  | cons d format ih => cases d with
    | white => exact length_scanf_dropWhile ih isSpace s r
    | skipWord =>
      rw [scanf, scanf]
      by_cases hnil : s.dropWhile isSpace = []
      · rw [if_pos hnil]
        exact Nat.zero_le _
      · rw [if_neg hnil, dropWhile_append_of_ne hnil, if_neg (by simp [hnil])]
        exact length_scanf_dropWhile ih _ _ r
    | unsignedLongLong =>
      rw [scanf, scanf]
      cases hs : scanNumber (s.dropWhile isSpace) with
      | none => exact Nat.zero_le _
      | some x =>
        obtain ⟨v, rest⟩ := x
        have hne : s.dropWhile isSpace ≠ [] := by
          intro hnil
          rw [hnil] at hs
          cases hs
        obtain ⟨v', rest', hsr, hrest⟩ := scanNumber_append hs r
        simp only [dropWhile_append_of_ne hne, hsr]
        apply Nat.succ_le_succ
        by_cases hnil : rest = []
        · rw [hnil, scanf_nil]
          exact Nat.zero_le _
        · rw [hrest hnil]
          exact ih rest r

end Scanf
