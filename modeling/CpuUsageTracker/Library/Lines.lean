import Mathlib.Data.List.Basic

/-!
# Lines

`lines sep l` cuts `l` at each `sep`. A nonempty rest behind the last `sep` is a line as well.

**Theorem (`lines_joined`).** Let the parts of a text have no `sep` but the one that may close
them. If all parts are closed, except perhaps the last one, the lines are the parts.

**Theorem (`length_lines_joined_iff`).** If another part is not closed, there are fewer lines
than parts, because the next part continues its line.
-/

namespace Lines

variable {α ι : Type*} [DecidableEq α] {sep : α} {body rest : List α}

def lines (sep : α) : List α → List (List α)
  | [] => []
  | x :: xs =>
    if x = sep then [] :: lines sep xs
    else match lines sep xs with
      | [] => [[x]]
      | l :: ls => (x :: l) :: ls

@[simp] theorem lines_nil : lines sep [] = [] := rfl

theorem lines_sep (rest : List α) : lines sep (sep :: rest) = [] :: lines sep rest :=
  if_pos rfl

theorem lines_cons_of_ne {x : α} (hx : x ≠ sep) (xs : List α) :
    lines sep (x :: xs) = (x :: (lines sep xs).headD []) :: (lines sep xs).tail := by
  rw [lines, if_neg hx]
  cases lines sep xs <;> rfl

theorem lines_ne_nil (h : rest ≠ []) : lines sep rest ≠ [] := by
  cases rest with
  | nil => exact absurd rfl h
  | cons x xs =>
    by_cases hx : x = sep
    · subst hx
      rw [lines_sep]
      exact List.cons_ne_nil _ _
    · rw [lines_cons_of_ne hx]
      exact List.cons_ne_nil _ _

/-- No line contains the separator. -/
theorem sep_not_mem {l : List α} {text : List α} (h : l ∈ lines sep text) : sep ∉ l := by
  induction text generalizing l with
  | nil => cases h
  | cons x xs ih =>
    by_cases hx : x = sep
    · subst hx
      rw [lines_sep] at h
      rcases List.mem_cons.1 h with rfl | h
      · exact List.not_mem_nil
      · exact ih h
    · rw [lines_cons_of_ne hx] at h
      rcases List.mem_cons.1 h with rfl | h
      · intro hmem
        rcases List.mem_cons.1 hmem with heq | hmem
        · exact hx heq.symm
        · cases hlines : lines sep xs with
          | nil =>
            rw [hlines] at hmem
            cases hmem
          | cons l ls =>
            rw [hlines] at hmem
            refine @ih l ?_ hmem
            rw [hlines]
            exact List.mem_cons_self
      · exact ih (List.mem_of_mem_tail h)

/-- Text without the separator continues the first line. -/
theorem lines_append (hsep : sep ∉ body) (hne : body ≠ []) (rest : List α) :
    lines sep (body ++ rest) =
      (body ++ (lines sep rest).headD []) :: (lines sep rest).tail := by
  induction body with
  | nil => exact absurd rfl hne
  | cons x xs ih =>
    have hx : x ≠ sep := fun h => hsep (h ▸ List.mem_cons_self)
    have hxs : sep ∉ xs := fun h => hsep (List.mem_cons_of_mem x h)
    rw [List.cons_append, lines_cons_of_ne hx]
    by_cases hnil : xs = []
    · subst hnil
      rfl
    · rw [ih hxs hnil]
      rfl

/-- A part and the separator that closes it. -/
theorem lines_closed (hsep : sep ∉ body) (rest : List α) :
    lines sep (body ++ [sep] ++ rest) = body :: lines sep rest := by
  rw [List.append_assoc, List.singleton_append]
  by_cases hne : body = []
  · subst hne
    exact lines_sep rest
  · rw [lines_append hsep hne, lines_sep]
    simp

theorem lines_of_sep_not_mem (hsep : sep ∉ body) (hne : body ≠ []) : lines sep body = [body] := by
  have h := lines_append hsep hne []
  simpa using h

/-! ## Texts in parts -/

section

variable {l : List ι} {part : ι → List α} {closed : ι → Prop} [DecidablePred closed]

/-- The parts one after another, each with the separator if it is closed. -/
def joined (sep : α) (part : ι → List α) (closed : ι → Prop) [DecidablePred closed]
    (l : List ι) : List α :=
  l.flatMap fun i => part i ++ if closed i then [sep] else []

omit [DecidableEq α] in
theorem joined_cons (i : ι) (l : List ι) :
    joined sep part closed (i :: l) =
      part i ++ (if closed i then [sep] else []) ++ joined sep part closed l := rfl

omit [DecidableEq α] in
theorem joined_ne_nil (hne : ∀ i ∈ l, part i ≠ []) (h : l ≠ []) :
    joined sep part closed l ≠ [] := by
  cases l with
  | nil => exact absurd rfl h
  | cons i l =>
    rw [joined_cons]
    simp [hne i List.mem_cons_self]

theorem lines_joined_singleton {i : ι} (hne : part i ≠ []) (hsep : sep ∉ part i) :
    lines sep (joined sep part closed [i]) = [part i] := by
  show lines sep (part i ++ (if closed i then [sep] else []) ++ []) = [part i]
  by_cases hclosed : closed i
  · rw [if_pos hclosed, lines_closed hsep]
    rfl
  · rw [if_neg hclosed, List.append_nil, List.append_nil]
    exact lines_of_sep_not_mem hsep hne

theorem lines_joined (hne : ∀ i ∈ l, part i ≠ []) (hsep : ∀ i ∈ l, sep ∉ part i)
    (hclosed : ∀ i ∈ l.dropLast, closed i) :
    lines sep (joined sep part closed l) = l.map part := by
  induction l with
  | nil => rfl
  | cons i l ih =>
    have hi : i ∈ i :: l := List.mem_cons_self
    cases l with
    | nil => exact lines_joined_singleton (hne i hi) (hsep i hi)
    | cons j l =>
      have hrest := ih (fun k hk => hne k (List.mem_cons_of_mem i hk))
        (fun k hk => hsep k (List.mem_cons_of_mem i hk))
        (fun k hk => hclosed k (List.mem_cons_of_mem i hk))
      rw [joined_cons, if_pos (hclosed i List.mem_cons_self), lines_closed (hsep i hi), hrest]
      rfl

/-- Each part but the last one ends a line exactly if it is closed. -/
theorem length_lines_joined (hne : ∀ i ∈ l, part i ≠ []) (hsep : ∀ i ∈ l, sep ∉ part i)
    (h : l ≠ []) :
    (lines sep (joined sep part closed l)).length =
      (l.dropLast.countP fun i => decide (closed i)) + 1 := by
  induction l with
  | nil => exact absurd rfl h
  | cons i l ih =>
    have hi : i ∈ i :: l := List.mem_cons_self
    cases l with
    | nil =>
      rw [lines_joined_singleton (hne i hi) (hsep i hi)]
      rfl
    | cons j l =>
      have hne' : ∀ k ∈ j :: l, part k ≠ [] := fun k hk => hne k (List.mem_cons_of_mem i hk)
      have hrest := ih hne' (fun k hk => hsep k (List.mem_cons_of_mem i hk))
        (List.cons_ne_nil j l)
      rw [joined_cons, List.dropLast_cons_cons, List.countP_cons]
      by_cases hclosed : closed i
      · rw [if_pos hclosed, lines_closed (hsep i hi), List.length_cons, hrest]
        simp [hclosed]
      · have hjoined : joined sep part closed (j :: l) ≠ [] :=
          joined_ne_nil hne' (List.cons_ne_nil j l)
        have hlines : lines sep (joined sep part closed (j :: l)) ≠ [] := lines_ne_nil hjoined
        rw [if_neg hclosed, List.append_nil, lines_append (hsep i hi) (hne i hi),
          List.length_cons, List.length_tail,
          Nat.sub_add_cancel (List.length_pos_iff.2 hlines), hrest]
        simp [hclosed]

theorem length_lines_joined_iff (hne : ∀ i ∈ l, part i ≠ []) (hsep : ∀ i ∈ l, sep ∉ part i) :
    (lines sep (joined sep part closed l)).length = l.length ↔ ∀ i ∈ l.dropLast, closed i := by
  constructor
  · intro hlength
    by_cases h : l = []
    · subst h
      exact fun i hi => absurd hi List.not_mem_nil
    · have hdrop : l.dropLast.length = l.length - 1 := List.length_dropLast
      have hpos := List.length_pos_iff.2 h
      rw [length_lines_joined hne hsep h] at hlength
      have hall : (l.dropLast.countP fun i => decide (closed i)) = l.dropLast.length := by omega
      intro i hi
      exact of_decide_eq_true (List.countP_eq_length.1 hall i hi)
  · intro hclosed
    rw [lines_joined hne hsep hclosed, List.length_map]

end

end Lines
