import Mathlib.Tactic.Common

/-!
# What a display shows

A display gets items one after the other and is refreshed from time to time. A refresh shows the
item that it got last, so an item may be shown more than once. Before it gets the first one, a
display shows what it held when it was made.

`Displays first source shown` says that every item of `source` is shown, in order and as often as
there is a refresh before the next one. As long as there is no display (`DisplaysFrom`), nothing is
shown.
-/

variable {α : Type*} {first x : α} {source shown : List α}

def Displays (first : α) (source shown : List α) : Prop :=
  ∃ (before : ℕ) (counts : List ℕ), counts.length = source.length ∧ (∀ n ∈ counts, 0 < n) ∧
    shown = List.replicate before first ++ (List.zipWith List.replicate counts source).flatten

/-- `first` is what the display held when it was made, if it was. -/
def DisplaysFrom (first : Option α) (source shown : List α) : Prop :=
  match first with
  | some first => Displays first source shown
  | none => source = [] ∧ shown = []

namespace Displays

theorem empty (first : α) : Displays first [] [] := ⟨0, [], rfl, by simp, rfl⟩

/-- The next item is shown. -/
theorem next (h : Displays first source shown) (x : α) :
    Displays first (source ++ [x]) (shown ++ [x]) := by
  obtain ⟨before, counts, hlength, hcounts, rfl⟩ := h
  refine ⟨before, counts ++ [1], by simp [hlength], ?_, ?_⟩
  · intro n hn
    rcases List.mem_append.1 hn with hn | hn
    · exact hcounts n hn
    · exact (List.mem_singleton.1 hn) ▸ Nat.one_pos
  · simp [List.zipWith_append hlength]

/-- The last item is shown once more. -/
theorem again (h : Displays first source shown) (hx : (first :: source).getLast? = some x) :
    Displays first source (shown ++ [x]) := by
  obtain ⟨before, counts, hlength, hcounts, rfl⟩ := h
  rcases List.eq_nil_or_concat source with rfl | ⟨source, y, rfl⟩
  · obtain rfl : first = x := by simpa using hx
    obtain rfl : counts = [] := List.eq_nil_of_length_eq_zero hlength
    exact ⟨before + 1, [], rfl, by simp, by simp [List.replicate_succ']⟩
  · -- the last count goes up by one
    obtain rfl : y = x := by simpa [List.getLast?_cons] using hx
    rcases List.eq_nil_or_concat counts with rfl | ⟨counts, n, rfl⟩
    · simp at hlength
    · have hlen : counts.length = source.length := by simpa using hlength
      refine ⟨before, counts ++ [n + 1], by simp [hlen], ?_, ?_⟩
      · intro k hk
        rcases List.mem_append.1 hk with hk | hk
        · exact hcounts k (by simp [hk])
        · exact (List.mem_singleton.1 hk) ▸ Nat.succ_pos n
      · simp [List.zipWith_append hlen, List.replicate_succ']

end Displays
