import Mathlib

/-!
Words as sets of bits, with the bit of least number first.

* `BitVec.withBit`, `BitVec.withoutBit`: a bit set and a bit cleared, written with the masks a
  program uses (`x | 1 << i`, `x & ~(1 << i)`);
* `getLsbD_withBit`, `getLsbD_withoutBit`: what they do to every bit;
* `BitVec.lowest`: the number of the lowest bit that is set, as a priority encoder computes it.
-/

namespace BitVec

variable {w : ℕ} {b c : BitVec w} {i j : ℕ}

/-- Bit `i` set: `b | 1 << i`. -/
def withBit (b : BitVec w) (i : ℕ) : BitVec w := b ||| 1#w <<< i

/-- Bit `i` cleared: `b & ~(1 << i)`. -/
def withoutBit (b : BitVec w) (i : ℕ) : BitVec w := b &&& ~~~(1#w <<< i)

/-- The lowest bit that is set. -/
def lowest (b : BitVec w) : Option (Fin w) := Fin.find? fun i => b.getLsbD i

lemma getLsbD_one_shiftLeft (hj : j < w) : (1#w <<< i).getLsbD j = decide (j = i) := by
  rw [getLsbD_shiftLeft, getLsbD_one]
  simp only [hj, decide_true, Bool.true_and]
  by_cases h : j = i
  · simp [h, show 0 < w by omega]
  · simp [h]
    omega

/-- What setting one bit does to every bit. -/
lemma getLsbD_withBit (hj : j < w) : (b.withBit i).getLsbD j = (b.getLsbD j || decide (j = i)) := by
  rw [withBit, getLsbD_or, getLsbD_one_shiftLeft hj]

/-- What clearing one bit does to every bit. -/
lemma getLsbD_withoutBit (hj : j < w) :
    (b.withoutBit i).getLsbD j = (b.getLsbD j && !decide (j = i)) := by
  rw [withoutBit, getLsbD_and, getLsbD_not, getLsbD_one_shiftLeft hj]
  simp [hj]

/-- Clearing a bit that is clear changes nothing. -/
lemma withoutBit_of_clear (h : b.getLsbD i = false) : b.withoutBit i = b := by
  refine eq_of_getLsbD_eq fun j hj => ?_
  rw [getLsbD_withoutBit hj]
  by_cases hji : j = i
  · simp [hji, h]
  · simp [hji]

/-- Clearing takes back what setting did. -/
lemma withoutBit_withBit (h : b.getLsbD i = false) : (b.withBit i).withoutBit i = b := by
  refine eq_of_getLsbD_eq fun j hj => ?_
  rw [getLsbD_withoutBit hj, getLsbD_withBit hj]
  by_cases hji : j = i
  · simp [hji, h]
  · simp [hji]

/-! ### The lowest bit -/

/-- The lowest bit is set and none below it. -/
lemma lowest_eq_some {i : Fin w} :
    b.lowest = some i ↔ b.getLsbD i = true ∧ ∀ j < i, b.getLsbD j = false :=
  Fin.find?_eq_some_iff

lemma lowest_eq_none : b.lowest = none ↔ b = 0 := by
  rw [lowest, Fin.find?_eq_none_iff]
  constructor
  · intro h
    refine eq_of_getLsbD_eq fun j hj => ?_
    simpa using h ⟨j, hj⟩
  · rintro rfl i
    simp

lemma getLsbD_of_lowest_eq_none (h : b.lowest = none) (i : ℕ) : b.getLsbD i = false := by
  rw [lowest_eq_none.mp h]
  exact getLsbD_zero

lemma lowest_zero : (0 : BitVec w).lowest = none := lowest_eq_none.mpr rfl

/-- The lowest bit of a word with a single one. -/
lemma lowest_withBit_zero (i : Fin w) : ((0 : BitVec w).withBit i).lowest = some i := by
  refine lowest_eq_some.mpr ⟨?_, fun j hj => ?_⟩
  · rw [getLsbD_withBit i.isLt]
    simp
  · rw [getLsbD_withBit j.isLt]
    simp [Fin.val_ne_of_ne (ne_of_lt hj)]

end BitVec
