import Mathlib.Data.List.Nodup
import Mathlib.Data.List.Perm.Basic
import Mathlib.Logic.Function.Basic

/-!
# Blocks of memory

Blocks are numbered in the order in which they are allocated, and no number is used again. A pointer
is a number or null. To load or to store through the null pointer is a fault, and so is any
operation on a block that is not live. `free` of the null pointer has no effect.

`Holds b l` says that the pointers in the list `l` are null or lead to different blocks, that these
hold what the list says, and that no other block is live. The rules have the form of those of
separation logic: an operation looks at the first entry of the list and leaves the rest alone,
and the list may be brought into any order (`Holds.perm`).
-/

/-- `cell p` is what block `p` holds, if it is live. -/
structure Blocks (α : Type*) where
  next : ℕ
  cell : ℕ → Option α

namespace Blocks

variable {α : Type*} {b : Blocks α} {l l' : List (Option ℕ × Option α)}
  {r r' r'' : Option ℕ × Option α} {p : Option ℕ} {x : Option α} {y : α}

def empty : Blocks α := ⟨0, fun _ => none⟩

/-- The pointer that `malloc` returns and the blocks after it. `x` is what the new block holds, if
there is one. -/
def malloc (b : Blocks α) : (x : Option α) → Option ℕ × Blocks α
  | some x => (some b.next, ⟨b.next + 1, Function.update b.cell b.next (some x)⟩)
  | none => (none, b)

def load (b : Blocks α) (p : Option ℕ) : Option α := p.bind b.cell

def store (b : Blocks α) (y : α) : (p : Option ℕ) → Option (Blocks α)
  | some q =>
    if (b.cell q).isSome then some { b with cell := Function.update b.cell q (some y) } else none
  | none => none

def free (b : Blocks α) : (p : Option ℕ) → Option (Blocks α)
  | some q =>
    if (b.cell q).isSome then some { b with cell := Function.update b.cell q none } else none
  | none => some b

def freeAll (b : Blocks α) : (ps : List (Option ℕ)) → Option (Blocks α)
  | [] => some b
  | p :: ps => (b.free p).bind (freeAll · ps)

structure Holds (b : Blocks α) (l : List (Option ℕ × Option α)) : Prop where
  isSome : ∀ r ∈ l, r.1.isSome = r.2.isSome
  nodup : (l.filterMap Prod.fst).Nodup
  cell : ∀ q y, b.cell q = some y ↔ (some q, some y) ∈ l
  lt : ∀ q, some q ∈ l.map Prod.fst → q < b.next

theorem holds_empty : (empty : Blocks α).Holds [] where
  isSome r hr := by cases hr
  nodup := List.nodup_nil
  cell q y := by simp [empty]
  lt q hq := by cases hq

namespace Holds

theorem perm (h : b.Holds l) (hl : l.Perm l') : b.Holds l' where
  isSome r hr := h.isSome r (hl.mem_iff.2 hr)
  nodup := (hl.filterMap Prod.fst).nodup_iff.1 h.nodup
  cell q y := (h.cell q y).trans hl.mem_iff
  lt q hq := h.lt q ((hl.map Prod.fst).mem_iff.2 hq)

theorem swap (h : b.Holds (r :: r' :: l)) : b.Holds (r' :: r :: l) := h.perm (.swap r' r l)

theorem rotate (h : b.Holds (r :: r' :: r'' :: l)) : b.Holds (r'' :: r :: r' :: l) :=
  h.perm (((List.Perm.swap r'' r' l).cons r).trans (.swap r'' r _))

/-- Null pointers say nothing about the blocks. -/
theorem null_cons : b.Holds ((none, none) :: l) ↔ b.Holds l := by
  constructor
  · intro h
    refine ⟨fun r hr => h.isSome r (.tail _ hr), h.nodup, fun q y => ?_, fun q hq => ?_⟩
    · simpa using h.cell q y
    · exact h.lt q (.tail _ hq)
  · intro h
    refine ⟨fun r hr => ?_, h.nodup, fun q y => ?_, fun q hq => ?_⟩
    · rcases List.mem_cons.1 hr with rfl | hr
      · rfl
      · exact h.isSome r hr
    · simpa using h.cell q y
    · exact h.lt q (by simpa using hq)

/-- A pointer that is not null leads to a live block. -/
theorem head_some {q : ℕ} (h : b.Holds ((some q, x) :: l)) :
    ∃ y, x = some y ∧ b.cell q = some y ∧ some q ∉ l.map Prod.fst := by
  obtain ⟨y, rfl⟩ := Option.isSome_iff_exists.1 (h.isSome _ List.mem_cons_self).symm
  refine ⟨y, rfl, (h.cell q y).2 List.mem_cons_self, fun hmem => ?_⟩
  obtain ⟨r, hr, hq⟩ := List.mem_map.1 hmem
  exact (List.nodup_cons.1 h.nodup).1 (List.mem_filterMap.2 ⟨r, hr, hq⟩)

theorem head_none (h : b.Holds ((none, x) :: l)) : x = none := by
  have hx := h.isSome _ List.mem_cons_self
  cases x with
  | none => rfl
  | some y => cases hx

theorem head_null (h : b.Holds ((p, none) :: l)) : p = none ∧ b.Holds l := by
  cases p with
  | none => exact ⟨rfl, null_cons.1 h⟩
  | some q =>
    obtain ⟨y, hy, -⟩ := h.head_some
    cases hy

theorem ne_none (h : b.Holds ((p, some y) :: l)) : p ≠ none :=
  Option.isSome_iff_ne_none.1 (h.isSome _ List.mem_cons_self)

theorem malloc (h : b.Holds l) (x : Option α) :
    (b.malloc x).2.Holds (((b.malloc x).1, x) :: l) := by
  cases x with
  | none => exact null_cons.2 h
  | some x =>
    have hnew : some b.next ∉ l.map Prod.fst := fun hmem => Nat.lt_irrefl _ (h.lt _ hmem)
    refine ⟨fun r hr => ?_, List.nodup_cons.2 ⟨fun hmem => ?_, h.nodup⟩, fun q y => ?_,
      fun q hq => ?_⟩
    · rcases List.mem_cons.1 hr with rfl | hr
      · rfl
      · exact h.isSome r hr
    · obtain ⟨r, hr, hnext⟩ := List.mem_filterMap.1 hmem
      exact hnew (List.mem_map.2 ⟨r, hr, hnext⟩)
    · by_cases hq : q = b.next
      · subst hq
        have hnot : (some b.next, some y) ∉ l := fun hmem => hnew (List.mem_map.2 ⟨_, hmem, rfl⟩)
        simp [Blocks.malloc, hnot, eq_comm]
      · simp [Blocks.malloc, hq, h.cell]
    · rcases List.mem_cons.1 hq with hq | hq
      · rw [Option.some.inj hq]
        exact Nat.lt_succ_self _
      · exact Nat.lt_succ_of_lt (h.lt q hq)

theorem load (h : b.Holds ((p, some y) :: l)) : b.load p = some y := by
  obtain ⟨q, rfl⟩ := Option.ne_none_iff_exists'.1 h.ne_none
  exact (h.cell q y).2 List.mem_cons_self

theorem store (h : b.Holds ((p, x) :: l)) (hx : x.isSome = true) (y : α) :
    ∃ b', b.store y p = some b' ∧ b'.Holds ((p, some y) :: l) := by
  obtain ⟨z, rfl⟩ := Option.isSome_iff_exists.1 hx
  obtain ⟨q, rfl⟩ := Option.ne_none_iff_exists'.1 h.ne_none
  obtain ⟨_, -, hcell, hnot⟩ := h.head_some
  refine ⟨_, if_pos (by rw [hcell]; rfl), fun r hr => ?_, h.nodup, fun q' z' => ?_, h.lt⟩
  · rcases List.mem_cons.1 hr with rfl | hr
    · rfl
    · exact h.isSome r (.tail _ hr)
  · by_cases hq : q' = q
    · subst hq
      have hnot' : (some q', some z') ∉ l := fun hmem => hnot (List.mem_map.2 ⟨_, hmem, rfl⟩)
      simp [hnot', eq_comm]
    · simpa [hq] using h.cell q' z'

theorem free (h : b.Holds ((p, x) :: l)) : ∃ b', b.free p = some b' ∧ b'.Holds l := by
  cases p with
  | none =>
    obtain rfl := h.head_none
    exact ⟨b, rfl, null_cons.1 h⟩
  | some q =>
    obtain ⟨y, rfl, hcell, hnot⟩ := h.head_some
    refine ⟨_, if_pos (by rw [hcell]; rfl), fun r hr => h.isSome r (.tail _ hr),
      (List.nodup_cons.1 h.nodup).2, fun q' z' => ?_, fun q' hq' => h.lt q' (.tail _ hq')⟩
    by_cases hq : q' = q
    · subst hq
      have hnot' : (some q', some z') ∉ l := fun hmem => hnot (List.mem_map.2 ⟨_, hmem, rfl⟩)
      simp [hnot']
    · simpa [hq] using h.cell q' z'

theorem freeAll (h : b.Holds (l ++ l')) :
    ∃ b', b.freeAll (l.map Prod.fst) = some b' ∧ b'.Holds l' := by
  induction l generalizing b with
  | nil => exact ⟨b, rfl, h⟩
  | cons r l ih =>
    obtain ⟨b₁, hfree, h₁⟩ := h.free
    obtain ⟨b', hfreeAll, h'⟩ := ih h₁
    exact ⟨b', by rw [List.map_cons, Blocks.freeAll, hfree, Option.bind_some, hfreeAll], h'⟩

/-- The live blocks are those that the pointers lead to. -/
theorem live_iff (h : b.Holds l) (q : ℕ) :
    (b.cell q).isSome = true ↔ some q ∈ l.map Prod.fst := by
  rw [Option.isSome_iff_exists, List.mem_map]
  constructor
  · rintro ⟨y, hy⟩
    exact ⟨_, (h.cell q y).1 hy, rfl⟩
  · rintro ⟨⟨p, x⟩, hr, rfl⟩
    obtain ⟨y, rfl⟩ := Option.isSome_iff_exists.1 (h.isSome _ hr).symm
    exact ⟨y, (h.cell q y).2 hr⟩

end Holds

end Blocks
