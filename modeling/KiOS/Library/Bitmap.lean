import Mathlib

/-!
Bitmaps kept in an array of `w`-bit cells.

Bit `i` lives in cell `i / w` at position `i % w`, as in every allocator that keeps one bit
for each block. `testBit`, `setBit` and `clearBit` are the three accesses written with the
masks a program uses (`x & (1 << k)`, `x |= 1 << k`, `x &= ~(1 << k)`), and `count` is the
number of set bits among the first `n`. The lemmas say what one write does to every bit
(`testBit_setBit`, `testBit_clearBit`) and to the count (`count_setBit`, `count_clearBit`).
-/

namespace Bitmap

variable {w : ℕ} {b : Array (BitVec w)} {i j n : ℕ}

/-- Bit `i`, clear outside the array. -/
def testBit (b : Array (BitVec w)) (i : ℕ) : Bool :=
  (b.getD (i / w) 0).getLsbD (i % w)

/-- Bit `i` set: `cell |= 1 << k`. -/
def setBit (b : Array (BitVec w)) (i : ℕ) : Array (BitVec w) :=
  b.modify (i / w) (· ||| 1#w <<< (i % w))

/-- Bit `i` cleared: `cell &= ~(1 << k)`. -/
def clearBit (b : Array (BitVec w)) (i : ℕ) : Array (BitVec w) :=
  b.modify (i / w) (· &&& ~~~(1#w <<< (i % w)))

/-- The number of set bits among the first `n`. -/
def count (b : Array (BitVec w)) (n : ℕ) : ℕ :=
  ((Finset.range n).filter fun i => testBit b i = true).card

@[simp] lemma size_setBit : (setBit b i).size = b.size := by simp [setBit]

@[simp] lemma size_clearBit : (clearBit b i).size = b.size := by simp [clearBit]

/-- The mask test `x & (1 << k)` reads bit `k`. -/
lemma and_shiftLeft_ne_zero {x : BitVec w} {k : ℕ} :
    x &&& (1#w <<< k) ≠ 0#w ↔ x.getLsbD k = true := by
  rw [← BitVec.twoPow_eq, BitVec.and_twoPow]
  by_cases h : x.getLsbD k = true
  · have hk : k < w := BitVec.lt_of_getLsbD h
    have hne : (BitVec.twoPow w k).getLsbD k = true := by simp [hk]
    simp only [h, if_true, iff_true]
    intro h0
    rw [h0] at hne
    simp at hne
  · simp [h]

lemma testBit_eq_getLsbD (h : i / w < b.size) : testBit b i = b[i / w].getLsbD (i % w) := by
  simp [testBit, Array.getD, h]

private lemma div_ne_of_mod_eq (hij : i ≠ j) (h : i / w = j / w) : i % w ≠ j % w := by
  intro hm
  exact hij (by rw [← Nat.div_add_mod i w, ← Nat.div_add_mod j w, h, hm])

/-- What setting one bit does to every bit. -/
lemma testBit_setBit (hw : 0 < w) (hi : i / w < b.size) :
    testBit (setBit b i) j = (decide (i = j) || testBit b j) := by
  by_cases hj : j / w < b.size
  · rw [testBit_eq_getLsbD (by simpa using hj), testBit_eq_getLsbD hj]
    by_cases hc : i / w = j / w
    · have hmod := Nat.mod_lt i hw
      by_cases hij : i = j
      · subst hij
        simp [setBit, Array.getElem_modify, hmod]
      · have hne := div_ne_of_mod_eq hij hc
        simp only [setBit, Array.getElem_modify, hc, if_true, BitVec.getLsbD_or, hij, decide_false,
          Bool.false_or, BitVec.getLsbD_shiftLeft, BitVec.getLsbD_one]
        simp
        omega
    · have hij : i ≠ j := fun h => hc (by rw [h])
      simp [setBit, Array.getElem_modify, hc, hij]
  · have hij : i ≠ j := fun h => hj (by rw [← h]; exact hi)
    simp [testBit, Array.getD, hj, hij]

/-- What clearing one bit does to every bit. -/
lemma testBit_clearBit (hw : 0 < w) :
    testBit (clearBit b i) j = (!decide (i = j) && testBit b j) := by
  by_cases hj : j / w < b.size
  · rw [testBit_eq_getLsbD (by simpa using hj), testBit_eq_getLsbD hj]
    by_cases hc : i / w = j / w
    · have hmod := Nat.mod_lt i hw
      by_cases hij : i = j
      · subst hij
        simp [clearBit, Array.getElem_modify, hmod]
      · have hne := div_ne_of_mod_eq hij hc
        have hmj := Nat.mod_lt j hw
        simp [clearBit, Array.getElem_modify, hc, hij]
        omega
    · have hij : i ≠ j := fun h => hc (by rw [h])
      simp [clearBit, Array.getElem_modify, hc, hij]
  · simp [testBit, Array.getD, hj]

/-! ### Counting the set bits -/

lemma count_le : count b n ≤ n := by
  simpa [count] using Finset.card_filter_le (Finset.range n) fun i => testBit b i = true

/-- Setting a clear bit below `n` raises the count by one. -/
lemma count_setBit (hw : 0 < w) (hi : i / w < b.size) (hin : i < n) (hclear : testBit b i = false) :
    count (setBit b i) n = count b n + 1 := by
  have hset : (Finset.range n).filter (fun j => testBit (setBit b i) j = true)
      = insert i ((Finset.range n).filter fun j => testBit b j = true) := by
    ext j
    by_cases hij : i = j
    · subst hij
      simp [testBit_setBit hw hi, hin]
    · simp [testBit_setBit hw hi, hij, Ne.symm hij]
  rw [count, hset, Finset.card_insert_of_notMem (by simp [hclear]), count]

/-- Clearing a set bit below `n` lowers the count by one. -/
lemma count_clearBit (hw : 0 < w) (hin : i < n) (hset : testBit b i = true) :
    count (clearBit b i) n + 1 = count b n := by
  have hins : (Finset.range n).filter (fun j => testBit b j = true)
      = insert i ((Finset.range n).filter fun j => testBit (clearBit b i) j = true) := by
    ext j
    by_cases hij : i = j
    · subst hij
      simp [hset, hin]
    · simp [testBit_clearBit hw, hij, Ne.symm hij]
  have hni : i ∉ (Finset.range n).filter fun j => testBit (clearBit b i) j = true := by
    simp [testBit_clearBit hw]
  rw [count, count, hins, Finset.card_insert_of_notMem hni]

/-- The count is full exactly when every bit is set. -/
lemma count_eq_iff : count b n = n ↔ ∀ i < n, testBit b i = true := by
  have h := Finset.card_filter_eq_iff (s := Finset.range n) (p := fun i => testBit b i = true)
  simpa [count] using h

end Bitmap
