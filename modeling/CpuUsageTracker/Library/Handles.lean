import Mathlib.Data.Finset.Filter
import Mathlib.Data.Finset.Range
import Mathlib.Data.List.Nodup

/-!
# Handles with one owner

An owner obtains handles, numbered in the order in which they are obtained, holds one at a time
and releases it. It may also forget the one it holds.

**Theorem (`Sound.step`).** No handle is released twice, whether the owner forgets some or not:
the handle held is always the last one, and those released came before it.

**Theorem (`Tidy.step`).** An owner that never forgets a handle has released all that it obtained,
except the one it holds. So whenever it holds none, no handle is live (`Tidy.settled`).
-/

/-- The number of handles obtained, those released, and the one that the owner holds. -/
structure Handles where
  obtained : ℕ
  released : List ℕ
  held : Option ℕ

namespace Handles

variable {mayForget : Prop} {s s' : Handles}

def start : Handles := ⟨0, [], none⟩

/-- What the owner does at a time. It forgets a handle only if `mayForget`. -/
inductive Step (mayForget : Prop) (s : Handles) : Handles → Prop
  | idle : Step mayForget s s
  | obtain (hheld : s.held = none) :
      Step mayForget s ⟨s.obtained + 1, s.released, some s.obtained⟩
  | forget (hmay : mayForget) : Step mayForget s ⟨s.obtained, s.released, none⟩
  | release {i : ℕ} (hheld : s.held = some i) :
      Step mayForget s ⟨s.obtained, s.released ++ [i], none⟩

/-- The handles obtained and not released. -/
def live (s : Handles) : Finset ℕ := (Finset.range s.obtained).filter (· ∉ s.released)

/-- The handles obtained are those released, and each was released once. -/
structure Settled (s : Handles) : Prop where
  live : s.live = ∅
  nodup : s.released.Nodup
  obtained : ∀ i ∈ s.released, i < s.obtained

/-- The owner is done with the handles below this number. -/
def done (s : Handles) : ℕ := s.held.getD s.obtained

structure Sound (s : Handles) : Prop where
  last : ∀ i, s.held = some i → i + 1 = s.obtained
  nodup : s.released.Nodup
  below : ∀ i ∈ s.released, i < s.done

structure Tidy (s : Handles) : Prop where
  last : ∀ i, s.held = some i → i + 1 = s.obtained
  all : s.released = List.range s.done

theorem sound_start : start.Sound := ⟨nofun, List.nodup_nil, nofun⟩

theorem tidy_start : start.Tidy := ⟨nofun, rfl⟩

theorem Sound.done_le (h : s.Sound) : s.done ≤ s.obtained := by
  unfold done
  cases hheld : s.held with
  | none => exact le_rfl
  | some i => exact (h.last i hheld) ▸ Nat.le_succ i

theorem Sound.step (h : s.Sound) (hstep : Step mayForget s s') : s'.Sound := by
  cases hstep with
  | idle => exact h
  | obtain hheld =>
    refine ⟨fun i hi => ?_, h.nodup, fun i hi => ?_⟩
    · obtain rfl := Option.some.inj hi
      rfl
    · exact (h.below i hi).trans_le h.done_le
  | forget _ =>
    refine ⟨fun i hi => ?_, h.nodup, fun i hi => ?_⟩
    · cases hi
    · exact (h.below i hi).trans_le h.done_le
  | @release i hheld =>
    have hbelow : ∀ j ∈ s.released, j < i := by
      intro j hj
      have hlt := h.below j hj
      rwa [done, hheld] at hlt
    refine ⟨fun j hj => ?_, ?_, fun j hj => ?_⟩
    · cases hj
    · refine List.nodup_append.2 ⟨h.nodup, List.nodup_singleton i, fun j hj k hk => ?_⟩
      obtain rfl := List.mem_singleton.1 hk
      exact (hbelow j hj).ne
    · show j < s.obtained
      have hlast := h.last i hheld
      rcases List.mem_append.1 hj with hj | hj
      · have hlt := hbelow j hj
        omega
      · obtain rfl := List.mem_singleton.1 hj
        omega

theorem Tidy.step (h : s.Tidy) (hstep : Step False s s') : s'.Tidy := by
  cases hstep with
  | idle => exact h
  | obtain hheld =>
    refine ⟨fun i hi => ?_, ?_⟩
    · obtain rfl := Option.some.inj hi
      rfl
    · have hall := h.all
      rwa [done, hheld] at hall
  | forget hmay => exact hmay.elim
  | @release i hheld =>
    refine ⟨fun j hj => ?_, ?_⟩
    · cases hj
    · show s.released ++ [i] = List.range s.obtained
      have hall := h.all
      rw [done, hheld] at hall
      rw [hall, ← h.last i hheld, List.range_succ]
      rfl

theorem Tidy.settled (h : s.Tidy) (hheld : s.held = none) : s.Settled := by
  have hall := h.all
  rw [done, hheld] at hall
  refine ⟨?_, hall ▸ List.nodup_range, fun i hi => ?_⟩
  · unfold live
    rw [hall]
    simp
  · rw [hall] at hi
    exact List.mem_range.1 hi

end Handles
