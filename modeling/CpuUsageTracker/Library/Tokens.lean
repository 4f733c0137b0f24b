import Mathlib.Data.List.TakeWhile
import Mathlib.Tactic.Common

/-!
# Splitting into tokens

`strtok` finds one token after another: it skips delimiters, and the token extends to the next
delimiter or the end. All tokens together are the pieces between delimiters that are not empty
(`strtokAll_eq_tokens`), which is `tokens` by definition.

If a string is cut, its tokens stay the same except possibly the last one, which is cut, and they
do not become more (`tokens_append_getElem?`, `length_tokens_le`).
-/

namespace Tokens

variable {α : Type*} {delim : α → Bool}

/-- The pieces between delimiters that are not empty. -/
def tokens (delim : α → Bool) (s : List α) : List (List α) :=
  (s.splitOnP delim).filter fun t => !t.isEmpty

/-- One call of `strtok`: the token, and what is left for the next call. -/
def strtok (delim : α → Bool) (s : List α) : Option (List α × List α) :=
  match s.dropWhile delim with
  | [] => none
  | c :: cs =>
    some ((c :: cs).takeWhile fun x => !delim x, ((c :: cs).dropWhile fun x => !delim x).tail)

/-- The tokens of at most `n` calls. -/
def strtokAll (delim : α → Bool) : ℕ → List α → List (List α)
  | 0, _ => []
  | n + 1, s => match strtok delim s with
    | none => []
    | some (t, rest) => t :: strtokAll delim n rest

/-! ## The pieces -/

@[simp] theorem tokens_nil : tokens delim [] = [] := rfl

/-- A delimiter splits the tokens. -/
theorem tokens_append_cons (s r : List α) {d : α} (hd : delim d = true) :
    tokens delim (s ++ d :: r) = tokens delim s ++ tokens delim r := by
  rw [tokens, List.splitOnP_append_cons s r hd, List.filter_append]
  rfl

theorem tokens_cons_delim (s : List α) {d : α} (hd : delim d = true) :
    tokens delim (d :: s) = tokens delim s := tokens_append_cons [] s hd

/-- A string without delimiters is one token, unless it is empty. -/
theorem tokens_of_forall {t : List α} (h : ∀ x ∈ t, delim x = false) (ht : t ≠ []) :
    tokens delim t = [t] := by
  rw [tokens, List.splitOnP_eq_singleton h]
  simp [ht]

theorem tokens_append_of_forall {t : List α} (h : ∀ x ∈ t, delim x = false) (ht : t ≠ [])
    (s : List α) {d : α} (hd : delim d = true) :
    tokens delim (t ++ d :: s) = t :: tokens delim s := by
  rw [tokens_append_cons t s hd, tokens_of_forall h ht, List.singleton_append]

theorem tokens_dropWhile (s : List α) : tokens delim (s.dropWhile delim) = tokens delim s := by
  induction s with
  | nil => rfl
  | cons x s ih =>
    by_cases hx : delim x = true
    · rw [List.dropWhile_cons_of_pos hx, ih, tokens_cons_delim s hx]
    · rw [List.dropWhile_cons_of_neg hx]

/-! ## One token after another -/

theorem tokens_eq_strtok (s : List α) :
    tokens delim s = match strtok delim s with
      | none => []
      | some (t, rest) => t :: tokens delim rest := by
  rw [← tokens_dropWhile s, strtok]
  cases hs : s.dropWhile delim with
  | nil => rfl
  | cons c cs =>
    have hc : delim c = false := by
      simpa [hs] using List.head_dropWhile_not delim (l := s) (by simp [hs])
    have ht : ((c :: cs).takeWhile fun x => !delim x) ≠ [] := by simp [hc]
    have hforall : ∀ x ∈ (c :: cs).takeWhile fun x => !delim x, delim x = false := by
      intro x hx
      simpa using List.mem_takeWhile_imp hx
    have happend := List.takeWhile_append_dropWhile (p := fun x => !delim x) (l := c :: cs)
    cases hr : (c :: cs).dropWhile fun x => !delim x with
    | nil =>
      rw [hr, List.append_nil] at happend
      simp only [hr, List.tail_nil, tokens_nil]
      rw [happend, tokens_of_forall (happend ▸ hforall) (List.cons_ne_nil c cs)]
    | cons d r =>
      have hd : delim d = true := by
        have := List.head_dropWhile_not (fun x => !delim x) (l := c :: cs) (by simp [hr])
        simpa [hr] using this
      rw [hr] at happend
      simp only [hr, List.tail_cons]
      rw [← tokens_append_of_forall hforall ht r hd, happend]

theorem length_strtok {s t rest : List α} (h : strtok delim s = some (t, rest)) :
    rest.length < s.length := by
  unfold strtok at h
  have hle := List.length_dropWhile_le delim s
  cases hs : s.dropWhile delim with
  | nil => simp [hs] at h
  | cons c cs =>
    rw [hs] at h hle
    obtain ⟨-, rfl⟩ := Prod.mk.inj (Option.some.inj h)
    have hle' := List.length_dropWhile_le (fun x => !delim x) (c :: cs)
    rw [List.length_tail]
    simp only [List.length_cons] at *
    omega

/-- As many calls as there are characters find all tokens. -/
theorem strtokAll_eq_tokens {n : ℕ} {s : List α} (h : s.length < n) :
    strtokAll delim n s = tokens delim s := by
  induction n generalizing s with
  | zero => omega
  | succ n ih =>
    rw [strtokAll, tokens_eq_strtok]
    cases hs : strtok delim s with
    | none => rfl
    | some x =>
      obtain ⟨t, rest⟩ := x
      have hlt := length_strtok hs
      simp only [ih (show rest.length < n by omega)]

/-! ## Cut strings -/

/-- A string has no delimiter, or a last one. -/
theorem exists_last_delim (delim : α → Bool) (s : List α) :
    (∀ x ∈ s, delim x = false) ∨
      ∃ s' d t, s = s' ++ d :: t ∧ delim d = true ∧ ∀ x ∈ t, delim x = false := by
  induction s with
  | nil => exact .inl (by simp)
  | cons x s ih =>
    rcases ih with h | ⟨s', d, t, rfl, hd, ht⟩
    · by_cases hx : delim x = true
      · exact .inr ⟨[], x, s, rfl, hx, h⟩
      · rw [Bool.not_eq_true] at hx
        exact .inl (by simp [hx]; exact h)
    · exact .inr ⟨x :: s', d, t, rfl, hd, ht⟩

/-- The tokens of a cut string and of the whole one agree up to a last token, which the whole
string continues. -/
theorem tokens_append (delim : α → Bool) (s r : List α) :
    ∃ ts t, tokens delim s = ts ++ (if t = [] then [] else [t]) ∧
      tokens delim (s ++ r) = ts ++ tokens delim (t ++ r) ∧ ∀ x ∈ t, delim x = false := by
  rcases exists_last_delim delim s with h | ⟨s', d, t, rfl, hd, ht⟩
  · refine ⟨[], s, ?_, rfl, h⟩
    by_cases hs : s = []
    · simp [hs]
    · rw [if_neg hs, tokens_of_forall h hs]
      rfl
  · refine ⟨tokens delim s', t, ?_, ?_, ht⟩
    · rw [tokens_append_cons s' t hd]
      by_cases hnil : t = []
      · simp [hnil]
      · rw [if_neg hnil, tokens_of_forall ht hnil]
    · rw [List.append_assoc, List.cons_append, tokens_append_cons s' (t ++ r) hd]

/-- A string that starts with a token continues it up to the next delimiter. -/
theorem head?_tokens_append {t : List α} (ht : ∀ x ∈ t, delim x = false) (hne : t ≠ [])
    (r : List α) : ∃ u, (tokens delim (t ++ r)).head? = some (t ++ u) := by
  cases t with
  | nil => exact absurd rfl hne
  | cons x t =>
    have hx : delim x = false := ht x List.mem_cons_self
    have htake : ((x :: t) ++ r).takeWhile (fun x => !delim x) =
        (x :: t) ++ r.takeWhile fun x => !delim x :=
      List.takeWhile_append_of_pos fun y hy => by simp [ht y hy]
    have hdrop : ((x :: t) ++ r).dropWhile delim = (x :: t) ++ r := by
      rw [List.cons_append, List.dropWhile_cons_of_neg (by simp [hx])]
    refine ⟨r.takeWhile fun x => !delim x, ?_⟩
    rw [tokens_eq_strtok, strtok, hdrop]
    exact congrArg some htake

/-- A token of a cut string is continued by the one of the whole string, and is the same if it is
not the last one. -/
theorem tokens_append_getElem? {s : List α} (r : List α) {i : ℕ} {t : List α}
    (h : (tokens delim s)[i]? = some t) :
    ∃ u, (tokens delim (s ++ r))[i]? = some (t ++ u) ∧
      (i + 1 < (tokens delim s).length → u = []) := by
  obtain ⟨ts, t', hs, hsr, ht'⟩ := tokens_append delim s r
  rw [hsr]
  by_cases hi : i < ts.length
  · rw [hs, List.getElem?_append_left hi] at h
    refine ⟨[], ?_, fun _ => rfl⟩
    rw [List.getElem?_append_left hi, h, List.append_nil]
  · rw [hs, List.getElem?_append_right (not_lt.1 hi)] at h
    by_cases hne : t' = []
    · rw [if_pos hne] at h
      cases h
    · rw [if_neg hne] at h
      have hlast : i - ts.length = 0 := by
        obtain ⟨hlt, -⟩ := List.getElem?_eq_some_iff.1 h
        rw [List.length_singleton] at hlt
        omega
      rw [hlast] at h
      obtain rfl : t' = t := Option.some.inj h
      obtain ⟨u, hu⟩ := head?_tokens_append ht' hne r
      refine ⟨u, ?_, fun hnot => ?_⟩
      · rw [List.getElem?_append_right (not_lt.1 hi), hlast, ← List.head?_eq_getElem?, hu]
      · rw [hs, if_neg hne, List.length_append, List.length_singleton] at hnot
        omega

theorem length_tokens_le (delim : α → Bool) (s r : List α) :
    (tokens delim s).length ≤ (tokens delim (s ++ r)).length := by
  by_contra hlt
  have hsome := List.getElem?_eq_getElem (not_le.1 hlt)
  obtain ⟨u, hu, -⟩ := tokens_append_getElem? r hsome
  rw [List.getElem?_eq_none le_rfl] at hu
  cases hu

end Tokens
