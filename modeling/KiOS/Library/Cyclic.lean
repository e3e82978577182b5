import Mathlib

/-!
Searching a list around its end.

* `cyclicDist`: how many steps it takes from one index to another, modulo the length;
* `cyclicDist_add`: a walk that has not arrived comes closer with every step;
* `cyclicOrder`: the elements in the order of such a walk; `cyclicOrder_find?`: what a search in
  this order finds, and what it has passed;
* `length_lt_of_pairwise`: a list along which a measure falls is shorter than it was at first.
-/

variable {α : Type} {n i j k start : ℕ} {l : List α}

/-- The steps from `i` to `j` modulo `n`. -/
def cyclicDist (n i j : ℕ) : ℕ := (j + n - i) % n

lemma cyclicDist_eq (hi : i < n) (hj : j < n) :
    cyclicDist n i j = if i ≤ j then j - i else j + n - i := by
  rw [cyclicDist]
  split_ifs with h
  · rw [Nat.sub_add_comm h, Nat.add_mod_right, Nat.mod_eq_of_lt (by omega)]
  · exact Nat.mod_eq_of_lt (by omega)

lemma cyclicDist_pos (hi : i < n) (hj : j < n) (h : i ≠ j) : 0 < cyclicDist n i j := by
  rw [cyclicDist_eq hi hj]
  split_ifs <;> omega

lemma cyclicDist_lt (hi : i < n) : cyclicDist n i j < n := Nat.mod_lt _ (by omega)

/-- An index after some steps. -/
lemma add_mod_eq (hi : i < n) (hk : k ≤ n) :
    (i + k) % n = if i + k < n then i + k else i + k - n := by
  split_ifs with h
  · exact Nat.mod_eq_of_lt h
  · rw [Nat.mod_eq_sub_mod (by omega), Nat.mod_eq_of_lt (by omega)]

/-- The walk arrives. -/
lemma add_cyclicDist (hi : i < n) (hj : j < n) : (i + cyclicDist n i j) % n = j := by
  have hlt := cyclicDist_lt (j := j) hi
  rw [add_mod_eq hi hlt.le, cyclicDist_eq hi hj]
  split_ifs <;> omega

/-- **A walk comes closer** with every step until it arrives. -/
lemma cyclicDist_add (hi : i < n) (hj : j < n) (hk : k ≤ cyclicDist n i j) :
    cyclicDist n ((i + k) % n) j = cyclicDist n i j - k := by
  have hlt := cyclicDist_lt (j := j) hi
  have hstep : (i + k) % n < n := Nat.mod_lt _ (by omega)
  rw [cyclicDist_eq hstep hj, add_mod_eq hi (by omega)]
  rw [cyclicDist_eq hi hj] at hk ⊢
  split_ifs at hk ⊢ <;> omega

/-- The elements from an index on, around the end of the list. -/
def cyclicOrder (l : List α) (start : ℕ) : List α :=
  (List.range l.length).filterMap fun i => l[(start + i) % l.length]?

/-- **A search around the end**: what it finds after some steps, and that nothing it has passed was
what it looks for. -/
lemma cyclicOrder_find? {p : α → Bool} {u : α} (h : (cyclicOrder l start).find? p = some u) :
    ∃ k < l.length, l[(start + k) % l.length]? = some u
      ∧ ∀ i < k, ∀ v, l[(start + i) % l.length]? = some v → p v = false := by
  have horder : cyclicOrder l start
      = (List.range l.length).filterMap fun i => l[(start + i) % l.length]? := rfl
  rw [horder] at h
  generalize l.length = n at h
  suffices H : ∀ m, ((List.range m).filterMap fun i => l[(start + i) % n]?).find? p = some u →
      ∃ k < m, l[(start + k) % n]? = some u
        ∧ ∀ i < k, ∀ v, l[(start + i) % n]? = some v → p v = false from H n h
  intro m
  induction m with
  | zero => intro hm; cases hm
  | succ m ih =>
      intro hm
      rw [List.range_succ, List.filterMap_append, List.find?_append] at hm
      cases hbefore : ((List.range m).filterMap fun i => l[(start + i) % n]?).find? p with
      | some w =>
          rw [hbefore, Option.some_or] at hm
          obtain ⟨k, hk, hfound, hpassed⟩ := ih (hbefore.trans hm)
          exact ⟨k, hk.trans (Nat.lt_succ_self m), hfound, hpassed⟩
      | none =>
          rw [hbefore, Option.none_or] at hm
          have hpassed := List.find?_eq_none.mp hbefore
          refine ⟨m, Nat.lt_succ_self m, ?_, fun i hi v hv => ?_⟩
          · obtain ⟨v, hv, hvu⟩ := List.mem_filterMap.mp (List.mem_of_find?_eq_some hm)
            rw [List.mem_singleton.mp hv] at hvu
            exact hvu
          · exact Bool.eq_false_iff.mpr
              (hpassed v (List.mem_filterMap.mpr ⟨i, List.mem_range.mpr hi, hv⟩))

/-- A measure that falls along a list bounds its length. -/
lemma length_lt_of_pairwise {f : α → ℕ} {x : α} (h : (x :: l).Pairwise fun a b => f b < f a)
    (hpos : ∀ a ∈ x :: l, 0 < f a) : l.length < f x := by
  induction l generalizing x with
  | nil => exact hpos x List.mem_cons_self
  | cons y l ih =>
      obtain ⟨hx, hl⟩ := List.pairwise_cons.mp h
      have hy := ih hl fun a ha => hpos a (List.mem_cons_of_mem x ha)
      exact Nat.lt_of_le_of_lt hy (hx y List.mem_cons_self)
