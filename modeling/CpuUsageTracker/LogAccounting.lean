import CpuUsageTracker.Library.Delivery
import CpuUsageTracker.LogBuffers
import Mathlib.Data.List.Nodup

/-!
# Where the messages are

In the main loop every message that was written and not dropped is in the file, in the logger's
hand, in the secondary buffer or in the input buffer, in this order (`LogBuffers.Conserved`). At
the end the logger flushes what was written up to some point `w`, and what is written after that
stays in the input buffer (`LogBuffers.Flushing`).
-/

namespace CpuUsageTracker

open Delivery

namespace LogBuffers

variable {b : LogBuffers} {hand w : List LogItem} {item : LogItem} {message : LogMessage}

def inItems (b : LogBuffers) : List LogItem := (b.buffers b.gInBuf).items

def secondaryItems (b : LogBuffers) : List LogItem := (b.buffers b.gSecondaryBuf).items

/-- The messages are numbered as they are written, and only what was written was dropped or is
in the input buffer. -/
structure Sound (b : LogBuffers) : Prop where
  numbered : b.written.map (·.seq) = List.range b.written.length
  overwritten : b.overwritten ⊆ b.written
  pending : b.inItems ⊆ b.written

theorem Sound.nodup (h : b.Sound) : b.written.Nodup := by
  refine List.Nodup.of_map (·.seq) ?_
  rw [h.numbered]
  exact List.nodup_range

theorem Sound.seq_lt (h : b.Sound) (hx : item ∈ b.written) : item.seq < b.written.length := by
  have hmem : item.seq ∈ b.written.map (·.seq) := List.mem_map_of_mem hx
  rwa [h.numbered, List.mem_range] at hmem

/-- The next message is a new one. -/
theorem Sound.fresh (h : b.Sound) : ⟨b.written.length, message⟩ ∉ b.written :=
  fun hx => lt_irrefl _ (h.seq_lt hx)

/-- While the logger drains the secondary buffer or has drained it. -/
structure Conserved (b : LogBuffers) (hand : List LogItem) : Prop extends Sound b where
  kept_eq : kept b.written b.overwritten = b.file ++ hand ++ b.secondaryItems ++ b.inItems

/-- While the logger flushes `w`. -/
structure Flushing (w : List LogItem) (b : LogBuffers) (hand : List LogItem) : Prop
    extends Sound b where
  before : w <+: b.written
  kept_eq : kept w b.overwritten = b.file ++ hand ++ b.secondaryItems
  later : ∀ x ∈ b.inItems, x ∉ w

theorem conserved_initial : initial.Conserved [] where
  numbered := rfl
  overwritten := List.Subset.refl _
  pending := List.Subset.refl _
  kept_eq := rfl

theorem secondaryItems_initial : initial.secondaryItems = [] := rfl

end LogBuffers

open LogBuffers LogAct

variable {b : LogBuffers} {hand w : List LogItem} {item : LogItem} {message : LogMessage}

/-! ## Writing to the input buffer -/

namespace LogAct

@[simp] theorem file_performWrite (i : Bool) : (performWrite b i message).file = b.file := rfl

@[simp] theorem gInBuf_performWrite (i : Bool) : (performWrite b i message).gInBuf = b.gInBuf := rfl

@[simp] theorem written_performWrite (i : Bool) :
    (performWrite b i message).written = b.written ++ [⟨b.written.length, message⟩] := rfl

@[simp] theorem overwritten_performWrite (i : Bool) :
    (performWrite b i message).overwritten = b.overwritten ++ overflow (b.buffers i) := rfl

theorem inItems_performWrite : (performWrite b b.gInBuf message).inItems =
    ((b.buffers b.gInBuf).write ⟨b.written.length, message⟩).items := by
  simp [inItems, performWrite, setBuffer]

theorem secondaryItems_performWrite :
    (performWrite b b.gInBuf message).secondaryItems = b.secondaryItems := by
  have hne : b.gSecondaryBuf ≠ b.gInBuf := by simp [gSecondaryBuf]
  show (Function.update b.buffers b.gInBuf _ b.gSecondaryBuf).items = _
  rw [Function.update_of_ne hne]
  rfl

end LogAct

namespace LogBuffers

theorem Sound.write (h : b.Sound) : (performWrite b b.gInBuf message).Sound where
  numbered := by
    rw [written_performWrite, List.map_append, h.numbered, List.length_append,
      List.length_singleton, List.range_succ]
    rfl
  overwritten := by
    rw [written_performWrite, overwritten_performWrite]
    refine List.append_subset.2 ⟨?_, ?_⟩
    · exact List.Subset.trans h.overwritten (List.subset_append_left _ _)
    · have hdropped : overflow (b.buffers b.gInBuf) ⊆ b.written :=
        List.Subset.trans (overflow_subset _) h.pending
      exact List.Subset.trans hdropped (List.subset_append_left _ _)
  pending := by
    intro x hx
    rw [inItems_performWrite] at hx
    rw [written_performWrite]
    rcases List.mem_append.1 (Fifo.items_write_subset hx) with hx | hx
    · exact List.mem_append_left _ (h.pending hx)
    · exact List.mem_append_right _ hx

theorem Conserved.write (h : b.Conserved hand) :
    (performWrite b b.gInBuf message).Conserved hand where
  toSound := h.toSound.write
  kept_eq := by
    have hsound : (performWrite b b.gInBuf message).Sound := h.toSound.write
    have hnodup := hsound.nodup
    rw [written_performWrite] at hnodup ⊢
    rw [overwritten_performWrite, secondaryItems_performWrite, inItems_performWrite,
      file_performWrite]
    exact kept_write (by decide) hnodup (fun hx => h.fresh (h.overwritten hx)) h.kept_eq

/-- What is written after `w` drops no message of `w`. -/
theorem Flushing.write (h : b.Flushing w hand) :
    (performWrite b b.gInBuf message).Flushing w hand where
  toSound := h.toSound.write
  before := by
    rw [written_performWrite]
    exact h.before.trans (List.prefix_append _ _)
  kept_eq := by
    rw [overwritten_performWrite, secondaryItems_performWrite, file_performWrite,
      kept_drop_of_not_mem fun x hx => h.later x (overflow_subset _ hx)]
    exact h.kept_eq
  later x hx hw := by
    rw [inItems_performWrite] at hx
    rcases List.mem_append.1 (Fifo.items_write_subset hx) with hx | hx
    · exact h.later x hx hw
    · rw [List.mem_singleton.1 hx] at hw
      exact h.fresh (h.before.subset hw)

/-! ## Swapping and draining -/

theorem inItems_swap : (LogAct.swap.perform b).1.inItems = b.secondaryItems := rfl

theorem secondaryItems_swap : (LogAct.swap.perform b).1.secondaryItems = b.inItems := by
  simp [secondaryItems, inItems, LogAct.perform, gSecondaryBuf]

theorem Conserved.swap (h : b.Conserved []) (hsecondary : b.secondaryItems = []) :
    (LogAct.swap.perform b).1.Conserved [] where
  numbered := h.numbered
  overwritten := h.overwritten
  pending := by
    rw [inItems_swap, hsecondary]
    exact List.nil_subset _
  kept_eq := by
    rw [inItems_swap, secondaryItems_swap, hsecondary, List.append_nil]
    have hkept := h.kept_eq
    rw [hsecondary, List.append_nil] at hkept
    exact hkept

/-- Nothing is left to flush if the input buffer is empty. -/
theorem Conserved.flushing (h : b.Conserved hand) (hin : b.inItems = []) :
    b.Flushing b.written hand where
  toSound := h.toSound
  before := List.prefix_refl _
  kept_eq := by
    have hkept := h.kept_eq
    rwa [hin, List.append_nil] at hkept
  later := by simp [hin]

/-- After the last swap everything written so far is in the file or in the secondary buffer. -/
theorem Conserved.swap_flushing (h : b.Conserved []) (hsecondary : b.secondaryItems = []) :
    (LogAct.swap.perform b).1.Flushing b.written [] :=
  (h.swap hsecondary).flushing hsecondary

theorem inItems_read : (LogAct.readSecondaryBuf.perform b).1.inItems = b.inItems := by
  have hne : b.gInBuf ≠ b.gSecondaryBuf := by simp [gSecondaryBuf]
  show (Function.update b.buffers b.gSecondaryBuf _ b.gInBuf).items = _
  rw [Function.update_of_ne hne]
  rfl

/-- A read takes the oldest message from the secondary buffer. -/
theorem secondaryItems_read : b.secondaryItems =
    (LogAct.readSecondaryBuf.perform b).2.toList ++
      (LogAct.readSecondaryBuf.perform b).1.secondaryItems := by
  have hitems : (LogAct.readSecondaryBuf.perform b).1.secondaryItems = b.secondaryItems.tail := by
    show (Function.update b.buffers b.gSecondaryBuf _ b.gSecondaryBuf).items = _
    rw [Function.update_self]
    rfl
  have hhead : (LogAct.readSecondaryBuf.perform b).2 = b.secondaryItems.head? := rfl
  rw [hitems, hhead]
  cases b.secondaryItems <;> rfl

theorem secondaryItems_read_none (h : (LogAct.readSecondaryBuf.perform b).2 = none) :
    (LogAct.readSecondaryBuf.perform b).1.secondaryItems = [] := by
  have hnil : b.secondaryItems = [] := List.head?_eq_none_iff.1 h
  have hread := secondaryItems_read (b := b)
  rw [h, hnil] at hread
  exact hread.symm

theorem Sound.read (h : b.Sound) : (LogAct.readSecondaryBuf.perform b).1.Sound where
  numbered := h.numbered
  overwritten := h.overwritten
  pending := by
    rw [inItems_read]
    exact h.pending

theorem Conserved.read (h : b.Conserved []) :
    (LogAct.readSecondaryBuf.perform b).1.Conserved
      (LogAct.readSecondaryBuf.perform b).2.toList where
  toSound := h.toSound.read
  kept_eq := by
    have hkept := h.kept_eq
    rw [List.append_nil, secondaryItems_read, ← List.append_assoc] at hkept
    rw [inItems_read]
    exact hkept

theorem Flushing.read (h : b.Flushing w []) :
    (LogAct.readSecondaryBuf.perform b).1.Flushing w
      (LogAct.readSecondaryBuf.perform b).2.toList where
  toSound := h.toSound.read
  before := h.before
  kept_eq := by
    have hkept := h.kept_eq
    rw [List.append_nil, secondaryItems_read, ← List.append_assoc] at hkept
    exact hkept
  later := by
    rw [inItems_read]
    exact h.later

theorem Conserved.fputs (h : b.Conserved [item]) :
    ((LogAct.fputs item).perform b).1.Conserved [] where
  numbered := h.numbered
  overwritten := h.overwritten
  pending := h.pending
  kept_eq := by
    have hkept := h.kept_eq
    show _ = b.file ++ [item] ++ [] ++ b.secondaryItems ++ b.inItems
    rw [List.append_nil]
    exact hkept

theorem Flushing.fputs (h : b.Flushing w [item]) :
    ((LogAct.fputs item).perform b).1.Flushing w [] where
  numbered := h.numbered
  overwritten := h.overwritten
  pending := h.pending
  before := h.before
  kept_eq := by
    have hkept := h.kept_eq
    show _ = b.file ++ [item] ++ [] ++ b.secondaryItems
    rw [List.append_nil]
    exact hkept
  later := h.later

/-- Draining an input buffer that is empty. -/
theorem readInBuf_of_empty (h : b.inItems = []) : LogAct.readInBuf.perform b = (b, none) := by
  have hread : (b.buffers b.gInBuf).read = (none, b.buffers b.gInBuf) :=
    Fifo.read_of_isEmpty ((Fifo.isEmpty_iff _).2 h)
  show (b.setBuffer b.gInBuf _, _) = _
  rw [hread]
  simp [setBuffer]

end LogBuffers

end CpuUsageTracker
