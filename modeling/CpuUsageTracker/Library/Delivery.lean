import CpuUsageTracker.Library.Fifo

/-!
# What a bounded queue delivers

Items are written to a bounded queue that drops its oldest item when it overflows. What has to be
delivered is what was `kept`: what was written, without what was dropped. If the items are
distinct, a write changes both sides of the balance "kept is delivered followed by pending" in the
same way (`kept_write`), and items dropped elsewhere do not matter (`kept_drop_of_not_mem`).
-/

namespace Delivery

variable {α : Type*} [DecidableEq α] {w d l r : List α} {x : α}

/-- What was written and not dropped. -/
def kept (written dropped : List α) : List α := written.filter fun x => x ∉ dropped

@[simp] theorem kept_nil (d : List α) : kept [] d = [] := rfl

theorem kept_concat (hx : x ∉ d) : kept (w ++ [x]) d = kept w d ++ [x] := by
  simp [kept, List.filter_append, hx]

theorem kept_drop_of_not_mem {e : List α} (he : ∀ x ∈ e, x ∉ w) : kept w (d ++ e) = kept w d := by
  refine List.filter_congr fun x hx => ?_
  have hxe : x ∉ e := fun h => he x h hx
  simp [hxe]

theorem kept_drop (hw : w.Nodup) (h : kept w d = l ++ x :: r) : kept w (d ++ [x]) = l ++ r := by
  have hstep : kept w (d ++ [x]) = (kept w d).filter fun y => y ≠ x := by
    simp only [kept, List.filter_filter]
    refine List.filter_congr fun y _ => ?_
    simp [and_comm]
  have hnodup : (l ++ x :: r).Nodup := h ▸ hw.filter _
  obtain ⟨-, hx, hdisjoint⟩ := List.nodup_append.1 hnodup
  have hl : l.filter (fun y => y ≠ x) = l := by
    rw [List.filter_eq_self]
    intro y hy
    simpa using hdisjoint y hy x List.mem_cons_self
  have hr : r.filter (fun y => y ≠ x) = r := by
    rw [List.filter_eq_self]
    intro y hy
    have hyx : y ≠ x := fun hyx => (List.nodup_cons.1 hx).1 (hyx ▸ hy)
    simpa using hyx
  rw [hstep, h, List.filter_append, hl, List.filter_cons_of_neg (by simp), hr]

variable {cap : ℕ}

/-- The item that the next write drops. -/
def overflow (q : Fifo α cap) : List α := if q.isFull then q.items.head?.toList else []

omit [DecidableEq α] in
theorem overflow_subset (q : Fifo α cap) : overflow q ⊆ q.items := by
  unfold overflow
  split
  · cases hq : q.items with
    | nil => simp
    | cons y ys => simp
  · simp

/-- A write to the queue that holds what is pending. -/
theorem kept_write {q : Fifo α cap} (hcap : 0 < cap) (hw : (w ++ [x]).Nodup) (hd : x ∉ d)
    (h : kept w d = l ++ q.items) :
    kept (w ++ [x]) (d ++ overflow q) = l ++ (q.write x).items := by
  cases hfull : q.isFull with
  | false =>
    simp only [overflow, hfull, Bool.false_eq_true, if_false, List.append_nil]
    rw [kept_concat hd, h, Fifo.items_write_of_not_full hfull, List.append_assoc]
  | true =>
    have hlen := (Fifo.isFull_iff q).1 hfull
    simp only [overflow, hfull, if_true]
    rw [Fifo.items_write_of_full hcap hfull]
    cases hq : q.items with
    | nil =>
      rw [hq] at hlen
      exact absurd hlen hcap.ne
    | cons y ys =>
      rw [hq] at h
      have hkept : kept (w ++ [x]) d = l ++ y :: (ys ++ [x]) := by
        rw [kept_concat hd, h]
        simp
      simpa using kept_drop hw hkept

end Delivery
