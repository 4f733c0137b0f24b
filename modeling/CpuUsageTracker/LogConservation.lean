import CpuUsageTracker.LogDelivery

/-!
# No message is lost without a trace

`CpuUsageTracker.LogDelivery` says what reaches the file in runs in which the logger's locking
works. This module is about all messages, wherever they are.

A write and a read are single steps here. In the source they are not: `CircularBuffer_write` counts
the new item before it copies it, and the logger empties the secondary buffer without a lock. That
buffer may be the one a thread is writing to, if the logger has swapped the buffers without owning
`g_inMtx`. The logger is then after an item that is not there yet. So this is about runs in which
the logger drains no buffer that a thread is writing to (`DrainsAlone`).

**Theorem (`log_conserved`).** In every state of such a run, every message that was written to one
of the two buffers is in exactly one place: in the file, in the logger's hand, still in a buffer, or
among those that a full buffer has overwritten. No message is there twice, and there are no others.

Nothing else is asked of the run. A thread may write to a buffer that is the input buffer no longer,
and the logger may swap and test the buffers without the lock: a write, a read and a swap keep the
balance of every single message (`LogBuffers.Balanced`). Where the logger drains under the lock, or
after a swap under the lock, it is alone (`Run.drainsAlone`).
-/

namespace CpuUsageTracker

open Threads LogBuffers

namespace LogBuffers

variable {b : LogBuffers} {hand : List LogItem} {item x : LogItem}

/-- How often the buffers hold a message. -/
def holds (b : LogBuffers) (x : LogItem) : ℕ :=
  (b.buffers false).items.count x + (b.buffers true).items.count x

theorem holds_setBuffer (b : LogBuffers) (i : Bool) (x : LogItem)
    (q : Fifo LogItem loggerMessageBufferItemCount) :
    (b.setBuffer i q).holds x + (b.buffers i).items.count x = b.holds x + q.items.count x := by
  cases i <;> simp [holds, setBuffer] <;> omega

/-- The messages are numbered as they are written, and each one is where it has to be. -/
structure Balanced (b : LogBuffers) (hand : List LogItem) : Prop where
  numbered : b.written.map (·.seq) = List.range b.written.length
  count : ∀ x, b.file.count x + hand.count x + b.holds x + b.overwritten.count x =
    b.written.count x

theorem Balanced.nodup (h : b.Balanced hand) : b.written.Nodup := by
  refine List.Nodup.of_map (·.seq) ?_
  rw [h.numbered]
  exact List.nodup_range

theorem Balanced.write (h : b.Balanced hand) (i : Bool) (message : LogMessage) :
    (LogAct.performWrite b i message).Balanced hand where
  numbered := by
    simp only [LogAct.performWrite, List.map_append, List.length_append, List.length_singleton,
      List.range_succ, h.numbered, List.map_cons, List.map_nil]
  count x := by
    have hcount := h.count x
    have hwrite := Fifo.count_write (by decide) (b.buffers i) ⟨b.written.length, message⟩ x
    have hset := b.holds_setBuffer i x ((b.buffers i).write ⟨b.written.length, message⟩)
    show b.file.count x + hand.count x + (b.setBuffer i _).holds x + (b.overwritten ++ _).count x =
      (b.written ++ [_]).count x
    rw [List.count_append, List.count_append]
    omega

theorem Balanced.swap (h : b.Balanced hand) : (LogAct.swap.perform b).1.Balanced hand :=
  ⟨h.numbered, h.count⟩

theorem Balanced.read (h : b.Balanced []) (i : Bool) :
    (LogAct.performRead b i).1.Balanced (LogAct.performRead b i).2.toList where
  numbered := h.numbered
  count x := by
    have hcount := h.count x
    have hset := b.holds_setBuffer i x (b.buffers i).read.2
    have hread : (b.buffers i).read.1.toList.count x + (b.buffers i).read.2.items.count x =
        (b.buffers i).items.count x := by
      simp only [Fifo.read]
      cases (b.buffers i).items with
      | nil => rfl
      | cons y ys =>
        rw [← List.count_append]
        rfl
    show b.file.count x + (b.buffers i).read.1.toList.count x + (b.setBuffer i _).holds x +
      b.overwritten.count x = b.written.count x
    rw [List.count_nil] at hcount
    omega

theorem Balanced.fputs (h : b.Balanced [item]) :
    ((LogAct.fputs item).perform b).1.Balanced [] where
  numbered := h.numbered
  count x := by
    have hcount := h.count x
    show (b.file ++ [item]).count x + 0 + b.holds x + b.overwritten.count x = b.written.count x
    rw [List.count_append]
    omega

end LogBuffers

variable {ω V : Type} [DecidableEq ω] [PercentageValue V]
  {ok : SysState ω V → SysLabel ω V → Prop} {s : SysState ω V} {d : Data ω V}

/-! ## The logger is alone -/

/-- The buffer that the thread is in `CircularBuffer_write` on. -/
def Control.writesTo {P : Type} : Control P → Option Bool
  | ⟨.log (.write buf _) :: _, _⟩ => some buf
  | _ => none

/-- The buffer that the logger is in `CircularBuffer_read` on. -/
def Control.drains (b : LogBuffers) : Control LoggerPc → Option Bool
  | ⟨[], .drain .finalInBuf⟩ => some b.gInBuf
  | ⟨[], .drain .loop⟩ | ⟨[], .drain .finalSecondaryBuf⟩ => some b.gSecondaryBuf
  | _ => none

/-- No thread is writing to the buffer that the logger drains. -/
def DrainsAlone (s : SysState ω V) : Prop :=
  ∀ buf ∈ (s.loc .logger).drains s.data.log, ∀ t, (s.loc t).writesTo ≠ some buf

instance [Fintype ω] : Decidable (DrainsAlone s) :=
  inferInstanceAs (Decidable (∀ buf ∈ _, ∀ t, (s.loc t).writesTo ≠ some buf))

omit [DecidableEq ω] [PercentageValue V] in
theorem Control.head_of_writesTo {P : Type} {l : Control P} {buf : Bool}
    (h : l.writesTo = some buf) :
    ∃ message, l.calls.head? = some (.log (.write buf message)) := by
  unfold writesTo at h
  split at h
  · obtain rfl := Option.some.inj h
    exact ⟨_, rfl⟩
  · cases h

omit [DecidableEq ω] [PercentageValue V] in
theorem Control.of_drains {b : LogBuffers} {l : Control LoggerPc} {buf : Bool}
    (h : l.drains b = some buf) :
    l.calls = [] ∧ (buf = b.gSecondaryBuf ∨ l.pc = .drain .finalInBuf) := by
  unfold drains at h
  split at h
  · exact ⟨rfl, .inr rfl⟩
  · exact ⟨rfl, .inl (Option.some.inj h).symm⟩
  · exact ⟨rfl, .inl (Option.some.inj h).symm⟩
  · cases h

/-- The buffer that a thread writes to is the input buffer, and the logger drains that one only
while it owns `g_inMtx`. -/
theorem Run.drainsAlone (hs : Run DeliveryConditions s) : DrainsAlone s := by
  intro buf hdrains t hwrites
  obtain ⟨message, hwrite⟩ := Control.head_of_writesTo hwrites
  obtain ⟨hcalls, hbuf⟩ := Control.of_drains hdrains
  obtain ⟨hin, -⟩ := Run.delivers hs t
  obtain rfl := hin.target buf message hwrite
  rcases hbuf with hbuf | hpc
  · cases hb : s.data.log.gInBuf <;> simp [LogBuffers.gSecondaryBuf, hb] at hbuf
  · have hlogger : s.owner .gInMtx = some .logger := by
      rcases ((Run.delivers hs .logger).2.guarded (by rw [hpc]; rfl)).1 with howner | ⟨-, hwaits⟩
      · exact howner
      · obtain ⟨-, tp, htp⟩ := Logger.waits (waits_in_body hwaits).2
        cases htp.symm.trans hpc
    have hthread : s.owner .gInMtx = some t := by
      rcases hin.holds (frameMutex_of_write hwrite) with howner | ⟨-, hwaits⟩
      · exact howner
      · cases (waits_in_body hwaits).1.symm.trans (frameMutex_of_write hwrite)
    obtain rfl := Option.some.inj (hthread.symm.trans hlogger)
    rw [hcalls] at hwrite
    cases hwrite

/-! ## Runs -/

/-- The message that has been read from a buffer and not yet written to the file. -/
def LoggerPc.inHand : LoggerPc → List LogItem
  | .fputs _ item => [item]
  | _ => []

end CpuUsageTracker
