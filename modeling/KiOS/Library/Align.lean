import Mathlib

/-!
Rounding machine words to a power of two.

Programs round an address down with `x & ~(2^k - 1)` and up with
`(x + 2^k - 1) & ~(2^k - 1)`. `alignDown_eq_shift` reads the mask as two shifts and
`toNat_alignDown` as arithmetic on the numbers meant.
-/

namespace BitVec

variable {w k : ℕ} {x : BitVec w}

/-- `x & ~(2^k - 1)`. -/
def alignDown (k : ℕ) (x : BitVec w) : BitVec w := x &&& ~~~(BitVec.ofNat w (2 ^ k - 1))

lemma getLsbD_low_mask {i : ℕ} :
    (BitVec.ofNat w (2 ^ k - 1)).getLsbD i = decide (i < w ∧ i < k) := by
  rw [BitVec.getLsbD_ofNat, Nat.testBit_two_pow_sub_one]
  by_cases h : i < w <;> simp [h]

/-- Masking the low bits off shifts them out and zeros in. -/
lemma alignDown_eq_shift : x.alignDown k = (x >>> k) <<< k := by
  refine BitVec.eq_of_getLsbD_eq fun i hi => ?_
  rw [alignDown, BitVec.getLsbD_and, BitVec.getLsbD_not, getLsbD_low_mask,
    BitVec.getLsbD_shiftLeft, BitVec.getLsbD_ushiftRight]
  by_cases hk : i < k
  · simp [hi, hk]
  · simp [hi, hk, show k + (i - k) = i by omega]

/-- Rounding down, on numbers. -/
lemma toNat_alignDown : (x.alignDown k).toNat = x.toNat / 2 ^ k * 2 ^ k := by
  rw [alignDown_eq_shift, BitVec.toNat_shiftLeft, BitVec.toNat_ushiftRight, Nat.shiftLeft_eq,
    Nat.shiftRight_eq_div_pow]
  exact Nat.mod_eq_of_lt (lt_of_le_of_lt (Nat.div_mul_le_self _ _) x.isLt)

end BitVec
