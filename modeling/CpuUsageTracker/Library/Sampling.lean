import CpuUsageTracker.Library.Fifo

/-!
# Consecutive samples taken from a lossy channel

One party writes items to a channel, which may drop some. Another one reads items, skips some of
those it has read, and writes down `f x y` for each two consecutive items `x` and `y` that it
uses. `Tiles` is what can be said about its records: the used items are among those read, they
start with the first one read, and their places among all items written increase. So the records
describe intervals that follow one another without gap or overlap.

`Sampling` is the invariant. It names the last item that was used (`current`) and one that was
read after it and may still be used (`pending`). It is kept when an item is written
(`Sampling.write`), when one is read (`Sampling.start` for the first, `Sampling.read` for the
others), when the pending item is given up (`Sampling.skip`) and when it is used
(`Sampling.use`).
-/

variable {α β : Type*} {cap : ℕ}

/-- `f` of each two neighbours in the list. -/
def consecutive (f : α → α → β) (xs : List α) : List β := List.zipWith f xs xs.tail

theorem consecutive_concat (f : α → α → β) {xs : List α} {x : α} (h : xs.getLast? = some x)
    (y : α) : consecutive f (xs ++ [y]) = consecutive f xs ++ [f x y] := by
  induction xs with
  | nil => cases h
  | cons z zs ih =>
    cases zs with
    | nil =>
      obtain rfl : z = x := by simpa using h
      rfl
    | cons w ws =>
      have := ih (by simpa [List.getLast?_cons_cons] using h)
      simpa [consecutive] using this

theorem consecutive_map {γ : Type*} (f : β → β → γ) (g : α → β) (xs : List α) :
    consecutive f (xs.map g) = consecutive (fun x y => f (g x) (g y)) xs := by
  rw [consecutive, ← List.map_tail, List.zipWith_map, consecutive]

section

variable {R : α → α → Prop} {xs : List α}

theorem consecutive_congr {f g : α → α → β} (h : xs.Pairwise R)
    (hfg : ∀ x y, R x y → f x y = g x y) : consecutive f xs = consecutive g xs := by
  induction xs with
  | nil => rfl
  | cons x xs ih =>
    obtain ⟨hx, hxs⟩ := List.pairwise_cons.1 h
    cases xs with
    | nil => rfl
    | cons y ys =>
      have hrest : consecutive f (y :: ys) = consecutive g (y :: ys) := ih hxs
      exact congrArg₂ List.cons (hfg x y (hx y List.mem_cons_self)) hrest

theorem exists_of_mem_consecutive {f : α → α → β} {z : β} (h : xs.Pairwise R)
    (hz : z ∈ consecutive f xs) : ∃ x y, R x y ∧ z = f x y := by
  induction xs with
  | nil => cases hz
  | cons x xs ih =>
    obtain ⟨hx, hxs⟩ := List.pairwise_cons.1 h
    cases xs with
    | nil => cases hz
    | cons y ys =>
      rcases List.mem_cons.1 hz with rfl | hz
      · exact ⟨x, y, hx y List.mem_cons_self, rfl⟩
      · exact ih hxs hz

end

/-- The records `f x₀ x₁`, `f x₁ x₂`, … of items with increasing places in `written`, beginning
with the first of the items `taken`. -/
def Tiles (f : α → α → β) (written taken : List α) (records : List β) : Prop :=
  ∃ reads tile : List (ℕ × α),
    (∀ r ∈ reads, written[r.1]? = some r.2) ∧ reads.Pairwise (fun r r' => r.1 < r'.1) ∧
    reads.map Prod.snd = taken ∧ tile.Sublist reads ∧ tile.head? = reads.head? ∧
    records = consecutive f (tile.map Prod.snd)

/-- The invariant, with the places of all items that were read and of those that were used. -/
structure SamplingOf (f : α → α → β) (c : Channel α cap) (records : List β)
    (current pending : Option α) (reads tile : List (ℕ × α)) : Prop where
  suffix : c.Suffix
  written : ∀ r ∈ reads, c.written[r.1]? = some r.2
  before : ∀ r ∈ reads, r.1 + c.queue.items.length < c.written.length
  increasing : reads.Pairwise fun r r' => r.1 < r'.1
  taken : reads.map Prod.snd = c.taken
  sublist : tile.Sublist reads
  head : tile.head? = reads.head?
  records : records = consecutive f (tile.map Prod.snd)
  current : (tile.map Prod.snd).getLast? = current
  pending : ∀ x ∈ pending, ∃ j, (tile ++ [(j, x)]).Sublist reads

def Sampling (f : α → α → β) (c : Channel α cap) (records : List β)
    (current pending : Option α) : Prop :=
  ∃ reads tile, SamplingOf f c records current pending reads tile

variable {f : α → α → β} {c : Channel α cap} {records : List β} {current pending : Option α}
  {x y : α} {reads tile : List (ℕ × α)}

/-- Reading puts the item's place at the end of the places read. -/
theorem SamplingOf.read
    (h : SamplingOf f c records current pending reads tile) (hx : c.read.1 = some x) :
    ∃ j, (∀ r ∈ reads ++ [(j, x)], c.read.2.written[r.1]? = some r.2) ∧
      (∀ r ∈ reads ++ [(j, x)],
        r.1 + c.read.2.queue.items.length < c.read.2.written.length) ∧
      (reads ++ [(j, x)]).Pairwise (fun r r' => r.1 < r'.1) ∧
      (reads ++ [(j, x)]).map Prod.snd = c.read.2.taken := by
  obtain ⟨hat, hlen⟩ := h.suffix.read_eq hx
  have hle := h.suffix.length_le
  refine ⟨c.written.length - c.queue.items.length, fun r hr => ?_, fun r hr => ?_, ?_, ?_⟩
  · rcases List.mem_append.1 hr with hr | hr
    · exact h.written r hr
    · obtain rfl := List.mem_singleton.1 hr
      exact hat
  · rw [Channel.written_read]
    rcases List.mem_append.1 hr with hr | hr
    · have := h.before r hr
      omega
    · obtain rfl := List.mem_singleton.1 hr
      simp only
      omega
  · refine List.pairwise_append.2 ⟨h.increasing, List.pairwise_singleton _ _, fun r hr r' hr' => ?_⟩
    obtain rfl := List.mem_singleton.1 hr'
    have := h.before r hr
    simp only
    omega
  · simp [h.taken, hx]

namespace Sampling

theorem tiles (h : Sampling f c records current pending) : Tiles f c.written c.taken records := by
  obtain ⟨reads, tile, h⟩ := h
  exact ⟨reads, tile, h.written, h.increasing, h.taken, h.sublist, h.head, h.records⟩

theorem empty : Sampling f (.empty : Channel α cap) [] none none :=
  ⟨[], [], Channel.suffix_empty, by simp, by simp, .nil, rfl, .slnil, rfl, rfl, rfl, by simp⟩

theorem write (h : Sampling f c records current pending) (x : α) :
    Sampling f (c.write x) records current pending := by
  obtain ⟨reads, tile, h⟩ := h
  refine ⟨reads, tile, h.suffix.write x, fun r hr => ?_, fun r hr => ?_, h.increasing, h.taken,
    h.sublist, h.head, h.records, h.current, h.pending⟩
  · have := h.before r hr
    rw [Channel.written_write, List.getElem?_append_left (by omega)]
    exact h.written r hr
  · have hlt := h.before r hr
    have hlen : (c.write x).queue.items.length ≤ c.queue.items.length + 1 := by
      simp only [Channel.write, Fifo.write, lastN, List.length_drop, List.length_append,
        List.length_singleton]
      omega
    rw [Channel.written_write, List.length_append, List.length_singleton]
    omega

/-- The first item that is read is used. -/
theorem start (h : Sampling f c records none none) (hx : c.read.1 = some x) :
    Sampling f c.read.2 records (some x) none := by
  obtain ⟨reads, tile, h⟩ := h
  obtain rfl : tile = [] := by simpa using h.current
  obtain rfl : reads = [] := List.head?_eq_none_iff.1 h.head.symm
  obtain ⟨j, hwritten, hbefore, hincreasing, htaken⟩ := h.read hx
  exact ⟨[(j, x)], [(j, x)], h.suffix.read, hwritten, hbefore, hincreasing, htaken, .refl _, rfl,
    h.records, rfl, by simp⟩

/-- Another item is read. -/
theorem read (h : Sampling f c records (some y) none) (hx : c.read.1 = some x) :
    Sampling f c.read.2 records (some y) (some x) := by
  obtain ⟨reads, tile, h⟩ := h
  obtain ⟨j, hwritten, hbefore, hincreasing, htaken⟩ := h.read hx
  refine ⟨reads ++ [(j, x)], tile, h.suffix.read, hwritten, hbefore, hincreasing, htaken,
    h.sublist.trans (List.sublist_append_left _ _), ?_, h.records, h.current, ?_⟩
  · cases htile : tile with
    | nil =>
      have := h.current
      simp [htile] at this
    | cons r rs =>
      rw [List.head?_append, ← h.head, htile]
      rfl
  · intro z hz
    obtain rfl := Option.mem_some_iff.1 hz
    exact ⟨j, h.sublist.append_right _⟩

/-- The item that was read is not used. -/
theorem skip (h : Sampling f c records current pending) : Sampling f c records current none := by
  obtain ⟨reads, tile, h⟩ := h
  exact ⟨reads, tile, { h with pending := by simp }⟩

/-- The item that was read is used. -/
theorem use (h : Sampling f c records (some y) (some x)) :
    Sampling f c (records ++ [f y x]) (some x) none := by
  obtain ⟨reads, tile, h⟩ := h
  obtain ⟨j, hj⟩ := h.pending x rfl
  refine ⟨reads, tile ++ [(j, x)], { h with
    sublist := hj
    head := ?_
    records := ?_
    current := by simp
    pending := by simp }⟩
  · cases htile : tile with
    | nil =>
      have := h.current
      simp [htile] at this
    | cons r rs => rw [← h.head, htile, List.cons_append, List.head?_cons, List.head?_cons]
  · rw [List.map_append, List.map_singleton, consecutive_concat f h.current, h.records]

end Sampling
