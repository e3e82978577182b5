import Mathlib

/-!
Numerals: lists of digits, the most significant one first.

* `Numeral.value`: the number that a list of digits stands for;
* `Numeral.Canonical`: at least one digit, and no leading zero but in the numeral of zero;
* `ofNat`, `canonical_ofNat`: the digits that repeated division leaves behind, read backwards;
* `fixedDigits`: the last digits, a given number of them;
* `strip`, `canonical_strip`: leading zeros taken off a list of digits;
* `Canonical.length_le`: no list of digits with the same value is shorter.
-/

namespace Numeral

variable {b : ℕ} {d : ℕ} {ds es : List ℕ}

/-- The number that a list of digits stands for. -/
def value (b : ℕ) (ds : List ℕ) : ℕ := ds.foldl (fun n d => b * n + d) 0

/-- At least one digit, each less than the base, and no needless zero in front. -/
structure Canonical (b : ℕ) (ds : List ℕ) : Prop where
  ne_nil : ds ≠ []
  digit_lt : ∀ d ∈ ds, d < b
  head_ne_zero : ds.head? = some 0 → ds = [0]

lemma value_append_singleton : value b (ds ++ [d]) = b * value b ds + d := by
  rw [value, List.foldl_append]
  rfl

lemma value_eq_ofDigits : value b ds = Nat.ofDigits b ds.reverse := by
  induction ds using List.reverseRecOn with
  | nil => rfl
  | append_singleton ds d ih =>
      rw [value_append_singleton, List.reverse_append, List.reverse_singleton,
        List.singleton_append, Nat.ofDigits_cons, ih, add_comm]

/-- The digits of repeated division come last digit first. -/
lemma value_reverse_digits (b n : ℕ) : value b (Nat.digits b n).reverse = n := by
  rw [value_eq_ofDigits, List.reverse_reverse, Nat.ofDigits_digits]

lemma canonical_reverse_digits {n : ℕ} (hb : 1 < b) (hn : n ≠ 0) :
    Canonical b (Nat.digits b n).reverse := by
  have hne : Nat.digits b n ≠ [] := Nat.digits_ne_nil_iff_ne_zero.mpr hn
  refine ⟨by simpa using hne, fun d hd => ?_, fun hhead => ?_⟩
  · exact Nat.digits_lt_base hb (List.mem_reverse.mp hd)
  · rw [List.head?_reverse, List.getLast?_eq_some_getLast hne, Option.some.injEq] at hhead
    exact absurd hhead (Nat.getLast_digit_ne_zero b hn)

lemma canonical_zero (hb : 1 < b) : Canonical b [0] :=
  ⟨by simp, by simpa using zero_lt_one.trans hb, fun _ => rfl⟩

/-- The canonical numeral of a number. -/
def ofNat (b n : ℕ) : List ℕ := if n = 0 then [0] else (Nat.digits b n).reverse

lemma canonical_ofNat (hb : 1 < b) (n : ℕ) : Canonical b (ofNat b n) := by
  rw [ofNat]
  split_ifs with hn
  · exact canonical_zero hb
  · exact canonical_reverse_digits hb hn

lemma value_ofNat (b n : ℕ) : value b (ofNat b n) = n := by
  rw [ofNat]
  split_ifs with hn
  · rw [hn]
    rfl
  · exact value_reverse_digits b n

/-- A canonical numeral of at least two digits stands for at least the power of its length. -/
lemma Canonical.pow_le (h : Canonical b ds) (hlen : 1 < ds.length) :
    b ^ (ds.length - 1) ≤ value b ds := by
  obtain ⟨d, ds, rfl⟩ := List.exists_cons_of_ne_nil h.ne_nil
  have hd : d ≠ 0 := by
    rintro rfl
    have h0 := h.head_ne_zero rfl
    simp [h0] at hlen
  rw [value_eq_ofDigits, List.reverse_cons, Nat.ofDigits_append, Nat.ofDigits_singleton,
    List.length_reverse, List.length_cons, Nat.add_sub_cancel]
  calc b ^ ds.length = b ^ ds.length * 1 := (mul_one _).symm
    _ ≤ b ^ ds.length * d := Nat.mul_le_mul_left _ (Nat.one_le_iff_ne_zero.mpr hd)
    _ ≤ Nat.ofDigits b ds.reverse + b ^ ds.length * d := Nat.le_add_left _ _

/-- **A canonical numeral is a shortest one.** -/
lemma Canonical.length_le (hb : 1 < b) (h : Canonical b ds) (hne : es ≠ [])
    (hlt : ∀ d ∈ es, d < b) (heq : value b es = value b ds) : ds.length ≤ es.length := by
  rcases Nat.lt_or_ge 1 ds.length with hlen | hlen
  · have hpow : b ^ (ds.length - 1) < b ^ es.length := by
      calc b ^ (ds.length - 1) ≤ value b ds := h.pow_le hlen
        _ = Nat.ofDigits b es.reverse := by rw [← heq, value_eq_ofDigits]
        _ < b ^ es.reverse.length :=
          Nat.ofDigits_lt_base_pow_length hb fun d hd => hlt d (List.mem_reverse.mp hd)
        _ = b ^ es.length := by rw [List.length_reverse]
    have hlt := (Nat.pow_lt_pow_iff_right hb).mp hpow
    omega
  · exact hlen.trans (List.length_pos_of_ne_nil hne)

/-! ### Digits of a fixed number -/

/-- The last `w` digits. -/
def fixedDigits (b : ℕ) : ℕ → ℕ → List ℕ
  | 0, _ => []
  | w + 1, n => n / b ^ w % b :: fixedDigits b w n

lemma length_fixedDigits {w n : ℕ} : (fixedDigits b w n).length = w := by
  induction w with
  | zero => rfl
  | succ w ih => rw [fixedDigits, List.length_cons, ih]

lemma fixedDigits_lt {w n : ℕ} (hb : 0 < b) : ∀ d ∈ fixedDigits b w n, d < b := by
  induction w with
  | zero => exact fun d hd => absurd hd List.not_mem_nil
  | succ w ih =>
      intro d hd
      rcases List.mem_cons.mp hd with rfl | hd
      · exact Nat.mod_lt _ hb
      · exact ih d hd

lemma value_cons : value b (d :: ds) = d * b ^ ds.length + value b ds := by
  rw [value_eq_ofDigits, value_eq_ofDigits, List.reverse_cons, Nat.ofDigits_append,
    Nat.ofDigits_singleton, List.length_reverse]
  ring

lemma value_fixedDigits {w n : ℕ} : value b (fixedDigits b w n) = n % b ^ w := by
  induction w with
  | zero => rw [pow_zero, Nat.mod_one]; rfl
  | succ w ih =>
      rw [fixedDigits, value_cons, length_fixedDigits, ih, Nat.mod_pow_succ]
      ring

/-! ### Leading zeros -/

/-- Leading zeros are taken off, but never the last digit. -/
def strip : List ℕ → List ℕ
  | 0 :: d :: ds => strip (d :: ds)
  | ds => ds

lemma value_cons_zero : value b (0 :: ds) = value b ds := by
  rw [value, List.foldl_cons, mul_zero, add_zero, value]

lemma value_strip : value b (strip ds) = value b ds := by
  fun_induction strip ds with
  | case1 d ds ih => rw [ih, value_cons_zero]
  | case2 ds => rfl

lemma canonical_strip (hne : ds ≠ []) (hlt : ∀ d ∈ ds, d < b) : Canonical b (strip ds) := by
  fun_induction strip ds with
  | case1 d ds ih => exact ih (by simp) fun e he => hlt e (List.mem_cons_of_mem _ he)
  | case2 ds hno =>
      refine ⟨hne, hlt, fun hhead => ?_⟩
      cases ds with
      | nil => exact absurd rfl hne
      | cons d ds =>
          rw [List.head?_cons, Option.some.injEq] at hhead
          subst hhead
          cases ds with
          | nil => rfl
          | cons e es => exact absurd rfl (hno e es)

end Numeral
