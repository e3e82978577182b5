import Mathlib

/-!
Ring buffers with two indices.

The slots are numbered modulo a capacity, one index says where to read next and the other where
to write next. One slot stays unused, so that equal indices mean an empty ring.

* `Ring.count`, `Ring.contents`: what lies between the two indices;
* `Ring.contents_put`: writing the next free slot and moving the write index appends;
* `Ring.contents_take`: moving the read index removes the head;
* `Ring.next_eq_iff`: the write index cannot move on exactly if one slot is left.
-/

namespace Ring

variable {α : Type} {n r w : ℕ} {slot : ℕ → α}

/-- How many slots lie between the read index and the write index. -/
def count (n r w : ℕ) : ℕ := (w + n - r) % n

/-- The entries between the read index and the write index, in order. -/
def contents (n : ℕ) (slot : ℕ → α) (r w : ℕ) : List α :=
  (List.range (count n r w)).map fun i => slot ((r + i) % n)

@[simp] lemma length_contents : (contents n slot r w).length = count n r w := by
  simp [contents]

lemma count_of_le (hw : w < n) (h : r ≤ w) : count n r w = w - r := by
  rw [count, show w + n - r = w - r + n by omega, Nat.add_mod_right]
  exact Nat.mod_eq_of_lt (by omega)

lemma count_of_lt (hr : r < n) (h : w < r) : count n r w = w + n - r :=
  Nat.mod_eq_of_lt (by omega)

lemma count_lt (hr : r < n) : count n r w < n := Nat.mod_lt _ (by omega)

lemma next_of_lt {i : ℕ} (h : i + 1 < n) : (i + 1) % n = i + 1 := Nat.mod_eq_of_lt h

lemma next_of_eq {i : ℕ} (h : i + 1 = n) : (i + 1) % n = 0 := by
  rw [h, Nat.mod_self]

/-- Equal indices: an empty ring. -/
lemma count_eq_zero_iff (hr : r < n) (hw : w < n) : count n r w = 0 ↔ r = w := by
  rcases Nat.lt_or_ge w r with h | h
  · rw [count_of_lt hr h]
    omega
  · rw [count_of_le hw h]
    omega

/-- The write index cannot move on: one slot is left. -/
lemma next_eq_iff (hr : r < n) (hw : w < n) : (w + 1) % n = r ↔ count n r w = n - 1 := by
  rcases Nat.lt_or_ge (w + 1) n with hlast | hlast
  · rw [next_of_lt hlast]
    rcases Nat.lt_or_ge w r with h | h
    · rw [count_of_lt hr h]
      omega
    · rw [count_of_le hw h]
      omega
  · rw [next_of_eq (by omega)]
    rcases Nat.lt_or_ge w r with h | h
    · rw [count_of_lt hr h]
      omega
    · rw [count_of_le hw h]
      omega

/-- The write index moves on. -/
lemma count_put (hr : r < n) (hw : w < n) (h : (w + 1) % n ≠ r) :
    count n r ((w + 1) % n) = count n r w + 1 := by
  rcases Nat.lt_or_ge (w + 1) n with hlast | hlast
  · rw [next_of_lt hlast] at h ⊢
    rcases Nat.lt_or_ge w r with hwr | hwr
    · rw [count_of_lt hr hwr, count_of_lt hr (by omega)]
      omega
    · rw [count_of_le hw hwr, count_of_le hlast (by omega)]
      omega
  · rw [next_of_eq (by omega)] at h ⊢
    rw [count_of_le hw (by omega), count_of_lt hr (by omega)]
    omega

/-- The read index moves on. -/
lemma count_take (hr : r < n) (hw : w < n) (h : r ≠ w) :
    count n ((r + 1) % n) w + 1 = count n r w := by
  rcases Nat.lt_or_ge (r + 1) n with hlast | hlast
  · rw [next_of_lt hlast]
    rcases Nat.lt_or_ge w r with hwr | hwr
    · rw [count_of_lt hr hwr, count_of_lt hlast (by omega)]
      omega
    · rw [count_of_le hw hwr, count_of_le hw (by omega)]
      omega
  · rw [next_of_eq (by omega), count_of_le hw (by omega), count_of_lt hr (by omega)]
    omega

/-- The slot at the write index is not between the indices. -/
lemma slot_ne (hr : r < n) (hw : w < n) {i : ℕ} (hi : i < count n r w) : (r + i) % n ≠ w := by
  rcases Nat.lt_or_ge w r with h | h
  · rw [count_of_lt hr h] at hi
    rcases Nat.lt_or_ge (r + i) n with hlt | hge
    · rw [Nat.mod_eq_of_lt hlt]
      omega
    · rw [Nat.mod_eq_sub_mod hge, Nat.mod_eq_of_lt (by omega)]
      omega
  · rw [count_of_le hw h] at hi
    rw [Nat.mod_eq_of_lt (by omega)]
    omega

/-- The slot after the last entry is the one at the write index. -/
lemma slot_count (hr : r < n) (hw : w < n) : (r + count n r w) % n = w := by
  rcases Nat.lt_or_ge w r with h | h
  · rw [count_of_lt hr h, show r + (w + n - r) = w + n by omega, Nat.add_mod_right]
    exact Nat.mod_eq_of_lt hw
  · rw [count_of_le hw h, show r + (w - r) = w by omega]
    exact Nat.mod_eq_of_lt hw

/-- **Writing** the slot at the write index and moving the index on appends an entry. -/
lemma contents_put (slot : ℕ → α) (hr : r < n) (hw : w < n) (h : (w + 1) % n ≠ r) (x : α) :
    contents n (Function.update slot w x) r ((w + 1) % n) = contents n slot r w ++ [x] := by
  rw [contents, count_put hr hw h, List.range_succ, List.map_append, List.map_singleton,
    slot_count hr hw, Function.update_self]
  congr 1
  refine List.map_congr_left fun i hi => ?_
  exact Function.update_of_ne (slot_ne hr hw (List.mem_range.mp hi)) _ _

/-- **Reading**: the slot at the read index holds the head, and moving the index on removes it. -/
lemma contents_take (slot : ℕ → α) (hr : r < n) (hw : w < n) (h : r ≠ w) :
    contents n slot r w = slot r :: contents n slot ((r + 1) % n) w := by
  rw [contents, ← count_take hr hw h, List.range_succ_eq_map, List.map_cons, List.map_map, contents]
  congr 1
  · rw [Nat.add_zero, Nat.mod_eq_of_lt hr]
  · refine List.map_congr_left fun i _ => ?_
    simp only [Function.comp_apply, Nat.succ_eq_add_one]
    rw [Nat.mod_add_mod]
    congr 2
    omega

end Ring
