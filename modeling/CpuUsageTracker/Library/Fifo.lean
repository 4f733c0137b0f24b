import Mathlib.Tactic.Common
import Mathlib.Data.List.Infix

/-!
# Bounded queues that drop their oldest item

A `Fifo α cap` is a list of at most `cap` items, oldest first. Writing to a full queue drops
the oldest item; `tryWrite` refuses instead. The bound is a field of the structure, so every
operation carries the proof that it keeps it.

A `Channel` is a queue together with the two lists an observer would keep: everything ever
written to it and everything ever read from it. Three facts about these lists hold under
different conditions:

* `Channel.Suffix` — the queue holds the most recent part of what was written. Every operation
  keeps it (`Suffix.write`, `Suffix.read`).
* `Channel.InOrder` — what was read and what is held were written in this order. Every operation
  keeps it, too.
* `Channel.Lossless` — what was written is what was read followed by what is held. A read keeps
  it, and so does a write to a queue that is not full.
-/

/-- The last `n` elements of a list. -/
def lastN {α : Type*} (n : ℕ) (l : List α) : List α := l.drop (l.length - n)

theorem length_lastN_le {α : Type*} (n : ℕ) (l : List α) : (lastN n l).length ≤ n := by
  simp only [lastN, List.length_drop]
  omega

theorem lastN_of_length_le {α : Type*} {n : ℕ} {l : List α} (h : l.length ≤ n) :
    lastN n l = l := by
  rw [lastN, Nat.sub_eq_zero_of_le h, List.drop_zero]

theorem lastN_suffix {α : Type*} (n : ℕ) (l : List α) : lastN n l <:+ l :=
  List.drop_suffix _ _

theorem lastN_append_of_le_length {α : Type*} {n : ℕ} (l : List α) {r : List α}
    (h : n ≤ r.length) : lastN n (l ++ r) = lastN n r := by
  have hsplit : (l ++ r).length - n = l.length + (r.length - n) := by
    rw [List.length_append]
    omega
  rw [lastN, hsplit, List.drop_append]
  simp [lastN]

/-- Cutting a prefix to its last `n` elements first does not change the last `n` elements. -/
theorem lastN_lastN_append {α : Type*} (n : ℕ) (l r : List α) :
    lastN n (lastN n l ++ r) = lastN n (l ++ r) := by
  rcases Nat.le_total l.length n with h | h
  · rw [lastN_of_length_le h]
  · have hlen : n ≤ (lastN n l ++ r).length := by
      simp only [lastN, List.length_append, List.length_drop]
      omega
    have hsplit : l ++ r = l.take (l.length - n) ++ (lastN n l ++ r) := by
      rw [lastN, ← List.append_assoc, List.take_append_drop]
    rw [hsplit, lastN_append_of_le_length _ hlen]

/-- A queue of at most `cap` items, oldest first. -/
structure Fifo (α : Type*) (cap : ℕ) where
  items : List α
  length_le : items.length ≤ cap

namespace Fifo

variable {α β : Type*} {cap : ℕ}

@[ext] theorem ext {p q : Fifo α cap} (h : p.items = q.items) : p = q := by
  cases p
  cases q
  cases h
  rfl

/-! ## Operations -/

def empty : Fifo α cap := ⟨[], Nat.zero_le cap⟩

def isEmpty (q : Fifo α cap) : Bool := q.items.isEmpty

def isFull (q : Fifo α cap) : Bool := q.items.length == cap

/-- Append `x`, dropping the oldest item of a full queue. -/
def write (q : Fifo α cap) (x : α) : Fifo α cap := ⟨lastN cap (q.items ++ [x]), length_lastN_le _ _⟩

/-- Append `xs`, keeping the last `cap` items. -/
def writeMany (q : Fifo α cap) (xs : List α) : Fifo α cap :=
  ⟨lastN cap (q.items ++ xs), length_lastN_le _ _⟩

/-- The room that is left. -/
def room (q : Fifo α cap) : ℕ := cap - q.items.length

/-- Append as many of `xs` as there is room for, and tell how many. -/
def tryWriteMany (q : Fifo α cap) (xs : List α) : ℕ × Fifo α cap :=
  (min xs.length q.room, ⟨q.items ++ xs.take (min xs.length q.room), by
    have := q.length_le
    simp only [room, List.length_append, List.length_take]
    omega⟩)

/-- Remove the oldest item. -/
def read (q : Fifo α cap) : Option α × Fifo α cap :=
  (q.items.head?, ⟨q.items.tail, by have := q.length_le; rw [List.length_tail]; omega⟩)

/-- Remove the `n` oldest items, or all of them when there are fewer. -/
def readMany (q : Fifo α cap) (n : ℕ) : List α × Fifo α cap :=
  (q.items.take n, ⟨q.items.drop n, by have := q.length_le; rw [List.length_drop]; omega⟩)

/-! ## Laws -/

@[simp] theorem items_empty : (empty : Fifo α cap).items = [] := rfl

theorem isFull_iff (q : Fifo α cap) : q.isFull = true ↔ q.items.length = cap := by
  simp [isFull]

theorem isFull_eq_false_iff (q : Fifo α cap) : q.isFull = false ↔ q.items.length < cap := by
  have := q.length_le
  rw [← Bool.not_eq_true, isFull_iff]
  omega

theorem isEmpty_iff (q : Fifo α cap) : q.isEmpty = true ↔ q.items = [] := List.isEmpty_iff

theorem items_write_of_not_full {q : Fifo α cap} (h : q.isFull = false) (x : α) :
    (q.write x).items = q.items ++ [x] := by
  rw [isFull_eq_false_iff] at h
  exact lastN_of_length_le (by simpa using Nat.succ_le_of_lt h)

theorem items_write_of_full {q : Fifo α cap} (hcap : 0 < cap) (h : q.isFull = true) (x : α) :
    (q.write x).items = q.items.tail ++ [x] := by
  rw [isFull_iff] at h
  have hne : 1 ≤ q.items.length := by omega
  simp only [write, lastN, List.length_append, List.length_singleton, h, Nat.add_sub_cancel_left]
  rw [List.drop_append_of_le_length hne, List.drop_one]

/-- A full buffer gives up its oldest item for the new one. -/
theorem count_write [DecidableEq α] (hcap : 0 < cap) (q : Fifo α cap) (x y : α) :
    (q.write x).items.count y + (if q.isFull then q.items.head?.toList else []).count y =
      q.items.count y + [x].count y := by
  cases hfull : q.isFull with
  | false =>
    rw [items_write_of_not_full hfull, List.count_append]
    rfl
  | true =>
    rw [items_write_of_full hcap hfull, List.count_append]
    rw [isFull_iff] at hfull
    cases hitems : q.items with
    | nil =>
      rw [hitems] at hfull
      exact absurd hfull.symm hcap.ne'
    | cons z zs =>
      simp only [List.tail_cons, List.head?_cons, Option.toList_some, if_true, List.count_cons,
        List.count_nil]
      omega

theorem items_write_subset {q : Fifo α cap} {x : α} : (q.write x).items ⊆ q.items ++ [x] :=
  (lastN_suffix cap (q.items ++ [x])).subset

theorem isFull_write {q : Fifo α cap} (h : q.isFull = true) (x : α) :
    (q.write x).isFull = true := by
  rw [isFull_iff] at h ⊢
  simp only [write, lastN, List.length_drop, List.length_append, List.length_singleton, h]
  omega

@[simp] theorem writeMany_nil (q : Fifo α cap) : q.writeMany [] = q := by
  ext1
  simp only [writeMany, List.append_nil]
  exact lastN_of_length_le q.length_le

/-- Writing many is writing one after another. -/
theorem writeMany_cons (q : Fifo α cap) (x : α) (xs : List α) :
    q.writeMany (x :: xs) = (q.write x).writeMany xs := by
  ext1
  simp only [writeMany, write, lastN_lastN_append, List.append_assoc, List.singleton_append]

/-- Within the room that is left, the two bulk writes agree. -/
theorem writeMany_of_le_room {q : Fifo α cap} {xs : List α} (h : xs.length ≤ q.room) :
    (q.writeMany xs).items = q.items ++ xs := by
  have := q.length_le
  refine lastN_of_length_le ?_
  simp only [room] at h
  rw [List.length_append]
  omega

/-- A read that finds nothing changes nothing. -/
theorem read_of_isEmpty {q : Fifo α cap} (h : q.isEmpty = true) : q.read = (none, q) := by
  obtain ⟨items, hle⟩ := q
  obtain rfl : items = [] := List.isEmpty_iff.1 h
  rfl

theorem isFull_read_of_not_full {q : Fifo α cap} (h : q.isFull = false) :
    q.read.2.isFull = false := by
  rw [isFull_eq_false_iff] at h ⊢
  simp only [read, List.length_tail]
  omega

theorem readMany_zero (q : Fifo α cap) : q.readMany 0 = ([], q) := rfl

/-- Reading many is reading one after another. -/
theorem readMany_succ (q : Fifo α cap) (n : ℕ) :
    q.readMany (n + 1) =
      (q.read.1.toList ++ (q.read.2.readMany n).1, (q.read.2.readMany n).2) := by
  obtain ⟨items, hle⟩ := q
  cases items with
  | nil => simp [readMany, read]
  | cons x xs => simp [readMany, read]

/-- The queue of the images of the items. -/
def map (f : α → β) (q : Fifo α cap) : Fifo β cap :=
  ⟨q.items.map f, by rw [List.length_map]; exact q.length_le⟩

theorem map_write (f : α → β) (q : Fifo α cap) (x : α) :
    (q.write x).map f = (q.map f).write (f x) := by
  ext1
  simp [map, write, lastN, List.map_drop]

theorem map_read (f : α → β) (q : Fifo α cap) :
    (q.map f).read = (q.read.1.map f, q.read.2.map f) := by
  obtain ⟨items, hle⟩ := q
  cases items <;> rfl

end Fifo

/-! ## Channels -/

/-- A queue with its traffic: all that was ever written to it and all that was ever read. -/
structure Channel (α : Type*) (cap : ℕ) where
  queue : Fifo α cap
  written : List α
  taken : List α

namespace Channel

variable {α : Type*} {cap : ℕ}

def empty : Channel α cap := ⟨.empty, [], []⟩

def isEmpty (c : Channel α cap) : Bool := c.queue.isEmpty

def isFull (c : Channel α cap) : Bool := c.queue.isFull

def write (c : Channel α cap) (x : α) : Channel α cap :=
  { c with queue := c.queue.write x, written := c.written ++ [x] }

def read (c : Channel α cap) : Option α × Channel α cap :=
  (c.queue.read.1, { c with queue := c.queue.read.2, taken := c.taken ++ c.queue.read.1.toList })

@[simp] theorem isEmpty_empty : (empty : Channel α cap).isEmpty = true := rfl

@[simp] theorem written_write (c : Channel α cap) (x : α) :
    (c.write x).written = c.written ++ [x] := rfl

@[simp] theorem taken_write (c : Channel α cap) (x : α) : (c.write x).taken = c.taken := rfl

@[simp] theorem written_read (c : Channel α cap) : c.read.2.written = c.written := rfl

@[simp] theorem taken_read (c : Channel α cap) :
    c.read.2.taken = c.taken ++ c.read.1.toList := rfl

theorem read_eq_none_iff (c : Channel α cap) : c.read.1 = none ↔ c.isEmpty = true := by
  simp [read, Fifo.read, isEmpty, Fifo.isEmpty]

theorem read_of_isEmpty {c : Channel α cap} (h : c.isEmpty = true) : c.read = (none, c) := by
  simp [read, Fifo.read_of_isEmpty h]

theorem isEmpty_read {c : Channel α cap} (h : c.isEmpty = true) : c.read.2.isEmpty = true := by
  rw [read_of_isEmpty h]
  exact h

/-- The queue holds the most recent part of what was written. -/
def Suffix (c : Channel α cap) : Prop := c.queue.items <:+ c.written

/-- What was written is what was read followed by what is held. -/
def Lossless (c : Channel α cap) : Prop := c.written = c.taken ++ c.queue.items

theorem suffix_empty : (empty : Channel α cap).Suffix := List.suffix_refl _

theorem Suffix.write {c : Channel α cap} (h : c.Suffix) (x : α) : (c.write x).Suffix := by
  refine (lastN_suffix cap (c.queue.items ++ [x])).trans ?_
  obtain ⟨pre, hpre⟩ := h
  exact ⟨pre, by rw [← List.append_assoc, hpre]; rfl⟩

theorem Suffix.read {c : Channel α cap} (h : c.Suffix) : c.read.2.Suffix :=
  (List.tail_suffix _).trans h

/-- The item a read returns, by its place among all items written. -/
theorem Suffix.read_eq {c : Channel α cap} (h : c.Suffix) {x : α} (hx : c.read.1 = some x) :
    c.written[c.written.length - c.queue.items.length]? = some x ∧
      c.read.2.queue.items.length + 1 = c.queue.items.length := by
  obtain ⟨⟨items, hle⟩, written, taken⟩ := c
  obtain ⟨pre, rfl : pre ++ items = written⟩ := h
  cases items with
  | nil => simp [Channel.read, Fifo.read] at hx
  | cons y ys =>
    obtain rfl : y = x := by simpa [Channel.read, Fifo.read] using hx
    refine ⟨?_, by simp [Channel.read, Fifo.read]⟩
    simp only [List.length_append, Nat.add_sub_cancel]
    simp

/-- What was read and what is held were written in this order. -/
def InOrder (c : Channel α cap) : Prop := (c.taken ++ c.queue.items).Sublist c.written

theorem inOrder_empty : (empty : Channel α cap).InOrder := .slnil

theorem InOrder.write {c : Channel α cap} (h : c.InOrder) (x : α) : (c.write x).InOrder := by
  have hitems : (c.queue.write x).items.Sublist (c.queue.items ++ [x]) :=
    (lastN_suffix cap _).sublist
  refine (hitems.append_left c.taken).trans ?_
  rw [← List.append_assoc]
  exact h.append_right [x]

theorem InOrder.read {c : Channel α cap} (h : c.InOrder) : c.read.2.InOrder := by
  obtain ⟨⟨items, hle⟩, written, taken⟩ := c
  cases items with
  | nil => simpa [InOrder, Channel.read, Fifo.read] using h
  | cons x items => simpa [InOrder, Channel.read, Fifo.read] using h

theorem InOrder.taken_sublist {c : Channel α cap} (h : c.InOrder) : c.taken.Sublist c.written :=
  (List.sublist_append_left _ _).trans h

theorem lossless_empty : (empty : Channel α cap).Lossless := rfl

theorem Lossless.write {c : Channel α cap} (h : c.Lossless) (hf : c.isFull = false) (x : α) :
    (c.write x).Lossless := by
  show c.written ++ [x] = c.taken ++ (c.queue.write x).items
  rw [Fifo.items_write_of_not_full hf, h, List.append_assoc]

theorem Lossless.read {c : Channel α cap} (h : c.Lossless) : c.read.2.Lossless := by
  obtain ⟨⟨items, hle⟩, written, taken⟩ := c
  obtain rfl : written = taken ++ items := h
  cases items <;> simp [Channel.read, Fifo.read, Lossless]

end Channel
