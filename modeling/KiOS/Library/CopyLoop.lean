import Mathlib

/-!
Copying upwards through a memory, one element after the other.

* `copyUp`: a number of elements, each of some bytes, from one address on to another one on;
* `copyUp_outside`: nothing else changes;
* `copyUp_inside`: a byte arrives as it was before the copy, if the copy runs downwards in the
  memory or the byte lies before the target.
-/

variable {α : Type}

/-- One element of `w` bytes. -/
def copyElement (w src dst : ℕ) (m : ℕ → α) : ℕ → α := fun a =>
  if dst ≤ a ∧ a < dst + w then m (src + (a - dst)) else m a

/-- `n` elements of `w` bytes, the lowest one first. -/
def copyUp (w : ℕ) : ℕ → ℕ → ℕ → (ℕ → α) → ℕ → α
  | 0, _, _, m => m
  | n + 1, src, dst, m => copyUp w n (src + w) (dst + w) (copyElement w src dst m)

variable {w n src dst a j : ℕ} {m : ℕ → α}

lemma copyElement_outside (h : a < dst ∨ dst + w ≤ a) : copyElement w src dst m a = m a :=
  if_neg (by omega)

lemma copyElement_inside (h : j < w) : copyElement w src dst m (dst + j) = m (src + j) := by
  rw [copyElement, if_pos (by omega), Nat.add_sub_cancel_left]

/-- **Outside the target** nothing changes. -/
lemma copyUp_outside (h : a < dst ∨ dst + w * n ≤ a) : copyUp w n src dst m a = m a := by
  induction n generalizing src dst m with
  | zero => rfl
  | succ n ih =>
      rw [Nat.mul_succ] at h
      rw [copyUp, ih (by omega), copyElement_outside (by omega)]

/-- **Inside the target** lies what the source held, where no byte is overwritten before it is
read. -/
lemma copyUp_inside (hj : j < w * n) (h : dst ≤ src ∨ src + j < dst) :
    copyUp w n src dst m (dst + j) = m (src + j) := by
  induction n generalizing src dst m j with
  | zero => exact absurd hj (Nat.not_lt_zero j)
  | succ n ih =>
      rw [Nat.mul_succ] at hj
      rw [copyUp]
      by_cases hfirst : j < w
      · rw [copyUp_outside (by omega), copyElement_inside hfirst]
      · have hdst : dst + j = dst + w + (j - w) := by omega
        have hsrc : src + w + (j - w) = src + j := by omega
        rw [hdst, ih (by omega) (by omega), hsrc, copyElement_outside (by omega)]
