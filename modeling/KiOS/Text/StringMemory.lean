import KiOS.Library.ByteMemory
import KiOS.Text.CString

/-!
Copying strings in memory (`strncpy` of `string.h`).

The first loop stores the final zero without counting it, so the second one starts one byte
further and stores as many zeros as before: one byte too many whenever the string is shorter
than the field.

* `strncpyCopy`, `strncpyPad`, `strncpyMemory`: the two loops and the function of the source;
* `IsStringAt`: a string in memory;
* `strncpyMemory_eq`: the bytes that are written;
* `CopiesExactly`: the field holds the string and zeros, and nothing else changes;
* `strncpy_exact_iff`: when this is so;
* `strncpy_overrun`: a name of one character in a task control block.
-/

namespace KiOS

open ByteMemory

/-- `while (n && (*dest++ = *src++)) n--`: the memory, `dest` and `n` at its end. -/
def strncpyCopy : ℕ → BitVec 64 → BitVec 64 → ByteMemory → ByteMemory × BitVec 64 × ℕ
  | 0, dest, _, m => (m, dest, 0)
  | n + 1, dest, src, m =>
      let c := m src
      let m := Function.update m dest c
      if c ≠ 0 then strncpyCopy n (dest + 1) (src + 1) m else (m, dest + 1, n + 1)

/-- `while (n--) *dest++ = 0`. -/
def strncpyPad : ℕ → BitVec 64 → ByteMemory → ByteMemory
  | 0, _, m => m
  | n + 1, dest, m => strncpyPad n (dest + 1) (Function.update m dest 0)

/-- `strncpy`. -/
def strncpyMemory (dest src n : BitVec 64) (m : ByteMemory) : ByteMemory :=
  let (m, dest, n) := strncpyCopy n.toNat dest src m
  strncpyPad n dest m

/-- The memory holds a string. -/
structure IsStringAt (m : ByteMemory) (src : BitVec 64) (cs : Chars) : Prop where
  no_zero : 0 ∉ cs
  length_lt : cs.length < 2 ^ 64
  char : ∀ i < cs.length, m (src + BitVec.ofNat 64 i) = cs.getD i 0
  zero : m (src + BitVec.ofNat 64 cs.length) = 0

/-- The destination starts inside the string. -/
def StartsInside (dest src : BitVec 64) (cs : Chars) : Prop :=
  0 < (dest - src).toNat ∧ (dest - src).toNat ≤ cs.length

instance (dest src : BitVec 64) (cs : Chars) : Decidable (StartsInside dest src cs) :=
  inferInstanceAs (Decidable (_ ∧ _))

/-- The field holds the string, cut off or followed by zeros, and no byte outside it changed. -/
def CopiesExactly (m : ByteMemory) (dest n : BitVec 64) (cs : Chars) (m' : ByteMemory) : Prop :=
  (∀ i < n.toNat, m' (dest + BitVec.ofNat 64 i) = cs.getD i 0)
    ∧ ∀ a, n.toNat ≤ (a - dest).toNat → m' a = m a

variable {m m' : ByteMemory} {dest src : BitVec 64} {n k : ℕ} {w : ℕ → BitVec 8} {cs : Chars}

lemma copiesExactly_iff {n : BitVec 64} :
    CopiesExactly m dest n cs m' ↔ m' = m.put dest (fun i => cs.getD i 0) n.toNat :=
  (eq_put_iff n.isLt.le).symm

/-! ### The loops -/

/-- **The first loop**, as long as it reads characters: they are stored one behind the other. -/
lemma strncpyCopy_put (hk : k ≤ n) (hn : n ≤ 2 ^ 64)
    (hread : ∀ i < k, m.put dest w i (src + BitVec.ofNat 64 i) = w i) (hw : ∀ i < k, w i ≠ 0) :
    strncpyCopy n dest src m
      = strncpyCopy (n - k) (dest + BitVec.ofNat 64 k) (src + BitVec.ofNat 64 k)
          (m.put dest w k) := by
  induction k with
  | zero => simp
  | succ k ih =>
      rw [ih (by omega) (fun i hi => hread i (by omega)) fun i hi => hw i (by omega),
        show n - k = n - (k + 1) + 1 by omega, strncpyCopy]
      simp only [hread k (Nat.lt_succ_self k)]
      rw [if_pos (hw k (Nat.lt_succ_self k)), update_put (by omega), ofNat_succ, add_assoc,
        add_assoc]

/-- **The second loop** stores zeros. -/
lemma strncpyPad_eq (hn : n ≤ 2 ^ 64) : strncpyPad n dest m = m.put dest (fun _ => 0) n := by
  induction n generalizing dest m with
  | zero => exact put_zero.symm
  | succ n ih =>
      have hone : (1 : BitVec 64) = BitVec.ofNat 64 1 := rfl
      rw [strncpyPad, ih (by omega), update_eq_put, hone, put_put (by omega), Nat.add_comm 1 n]
      exact put_congr fun i _ => ite_self 0

variable (m dest src) in
/-- Whatever it reads, the first loop stores the bytes it steps over, and leaves at most one more
to the second one than there were. -/
lemma strncpyCopy_outside (hn : n < 2 ^ 64) : ∃ k n' m', strncpyCopy n dest src m
      = (m', dest + BitVec.ofNat 64 k, n') ∧ k ≤ n ∧ k + n' ≤ n + 1
    ∧ ∀ a, k ≤ (a - dest).toNat → m' a = m a := by
  induction n generalizing dest src m with
  | zero => exact ⟨0, 0, m, by simp [strncpyCopy], le_rfl, by simp, fun _ _ => rfl⟩
  | succ n ih =>
      have hfirst : ∀ a, 1 ≤ (a - dest).toNat → Function.update m dest (m src) a = m a := by
        intro a ha
        rw [update_eq_put]
        exact put_outside ha
      rw [strncpyCopy]
      split_ifs with hc
      · obtain ⟨k, n', m', heq, hk, hle, hout⟩ := ih (Function.update m dest (m src))
          (dest + 1) (src + 1) (by omega)
        refine ⟨k + 1, n', m', ?_, by omega, by omega, fun a ha => ?_⟩
        · rw [heq, ofNat_succ, add_assoc, add_comm 1]
        · have hone : (1 : BitVec 64).toNat = 1 := rfl
          have hoff : (a - (dest + 1)).toNat = (a - dest).toNat - 1 := by
            rw [← sub_sub]
            exact BitVec.toNat_sub_of_le (BitVec.le_def.mpr (by rw [hone]; omega))
          rw [hout a (by rw [hoff]; omega), hfirst a (by omega)]
      · exact ⟨1, n + 1, _, rfl, by omega, by omega, hfirst⟩

/-- **No copy writes more than one byte behind the field**, whatever lies at `src`. -/
lemma strncpyMemory_outside {n a : BitVec 64} (ha : n.toNat + 1 ≤ (a - dest).toNat) :
    strncpyMemory dest src n m a = m a := by
  have hn := n.isLt
  obtain ⟨k, n', m', heq, hk, hle, hout⟩ := strncpyCopy_outside m dest src hn
  have hoff : (a - (dest + BitVec.ofNat 64 k)).toNat = (a - dest).toNat - k := by
    have hk' : (BitVec.ofNat 64 k).toNat = k := by
      rw [BitVec.toNat_ofNat]
      exact Nat.mod_eq_of_lt (by omega)
    rw [← sub_sub, BitVec.toNat_sub_of_le (BitVec.le_def.mpr (by rw [hk']; omega)), hk']
  rw [strncpyMemory, heq]
  dsimp only
  rw [strncpyPad_eq (by omega), put_outside (by rw [hoff]; omega)]
  exact hout a (by omega)

/-! ### The bytes that are written -/

/-- A string that the destination does not start in is read as it was. -/
lemma IsStringAt.read (h : IsStringAt m src cs) (hout : ¬ StartsInside dest src cs) {i : ℕ}
    (hi : i ≤ cs.length) : m.put dest (fun i => cs.getD i 0) i (src + BitVec.ofNat 64 i)
      = cs.getD i 0 := by
  have hlen := h.length_lt
  rw [StartsInside, not_and_or] at hout
  refine put_ahead (by omega) (fun _ => ?_) fun hpos hle => by omega
  rcases hi.lt_or_eq with hlt | rfl
  · exact h.char i hlt
  · rw [h.zero, List.getD_eq_default _ _ le_rfl]

/-- A string that the destination starts in is read as far as there, and then again. -/
lemma IsStringAt.read_inside (h : IsStringAt m src cs) (hin : StartsInside dest src cs)
    (hn : n ≤ 2 ^ 64) {i : ℕ} (hi : i < n) :
    m.put dest (fun i => cs.getD (i % (dest - src).toNat) 0) i (src + BitVec.ofNat 64 i)
      = cs.getD (i % (dest - src).toNat) 0 := by
  obtain ⟨hpos, hle⟩ := hin
  refine put_ahead (w := fun i => cs.getD (i % (dest - src).toNat) 0) (by omega) (fun hbefore => ?_)
    fun _ hbehind => ?_
  · rw [Nat.mod_eq_of_lt (by omega)]
    exact h.char i (by omega)
  · rw [← Nat.mod_eq_sub_mod hbehind]

/-- **The bytes written**: one more than the field has, if the string is shorter than the field. -/
lemma strncpyMemory_eq {n : BitVec 64} (h : IsStringAt m src cs) :
    strncpyMemory dest src n m
      = if StartsInside dest src cs then
          m.put dest (fun i => cs.getD (i % (dest - src).toNat) 0) n.toNat
        else m.put dest (fun i => cs.getD i 0)
          (if n.toNat ≤ cs.length then n.toNat else n.toNat + 1) := by
  have hn := n.isLt
  have hchar : ∀ i < cs.length, cs.getD i 0 ≠ 0 := by
    intro i hi h0
    rw [List.getD_eq_getElem _ _ hi] at h0
    exact h.no_zero (h0 ▸ List.getElem_mem hi)
  split_ifs with hin hle
  · have hw : ∀ i < n.toNat, cs.getD (i % (dest - src).toNat) 0 ≠ 0 := fun i _ =>
      hchar _ ((Nat.mod_lt _ hin.1).trans_le hin.2)
    rw [strncpyMemory, strncpyCopy_put le_rfl hn.le (fun i hi => h.read_inside hin hn.le hi) hw,
      Nat.sub_self]
    rfl
  · rw [strncpyMemory, strncpyCopy_put (w := fun i => cs.getD i 0) le_rfl hn.le
      (fun i hi => h.read hin (by omega)) fun i hi => hchar i (by omega), Nat.sub_self]
    rfl
  · -- the zero of the string is stored, and then as many again as were left before it
    have hzero : cs.getD cs.length 0 = 0 := List.getD_eq_default _ _ le_rfl
    have hstop := h.read hin le_rfl
    rw [strncpyMemory, strncpyCopy_put (k := cs.length) (w := fun i => cs.getD i 0) (by omega) hn.le
      (fun i hi => h.read hin hi.le) hchar,
      show n.toNat - cs.length = n.toNat - cs.length - 1 + 1 by omega, strncpyCopy]
    simp only [hstop]
    rw [if_neg (not_not.mpr hzero)]
    dsimp only
    rw [update_put (by omega), strncpyPad_eq (by omega), add_assoc, ← ofNat_succ,
      put_put (by omega),
      show cs.length + 1 + (n.toNat - cs.length - 1 + 1) = n.toNat + 1 by omega]
    refine put_congr fun i hi => ?_
    split_ifs with hlt
    · rfl
    · exact (List.getD_eq_default _ _ (by omega)).symm

/-- **Exact copies**: no byte behind the field is changed exactly if the string fills the field, or
the byte behind it is zero anyway. A copy into the string itself repeats its beginning. -/
theorem strncpy_exact_iff {m : ByteMemory} {dest src n : BitVec 64} {cs : Chars}
    (h : IsStringAt m src cs) :
    CopiesExactly m dest n cs (strncpyMemory dest src n m)
      ↔ if StartsInside dest src cs then
          n.toNat ≤ cs.length ∧ ∀ i < n.toNat, cs.getD (i % (dest - src).toNat) 0 = cs.getD i 0
        else n.toNat ≤ cs.length ∨ m (dest + n) = 0 := by
  have hn := n.isLt
  rw [copiesExactly_iff, strncpyMemory_eq h]
  split_ifs with hin hle
  · rw [put_eq_put_iff hn.le]
    refine ⟨fun heq => ⟨?_, heq⟩, fun heq => heq.2⟩
    -- what is repeated is never zero
    by_contra hlt
    have hpast := heq cs.length (by omega)
    have hmod := (Nat.mod_lt cs.length hin.1).trans_le hin.2
    rw [List.getD_eq_getElem _ _ hmod, List.getD_eq_default _ _ le_rfl] at hpast
    exact h.no_zero (hpast ▸ List.getElem_mem hmod)
  · exact iff_of_true rfl (Or.inl hle)
  · rw [put_succ_eq_iff hn, BitVec.ofNat_toNat, BitVec.setWidth_eq, or_iff_right hle,
      List.getD_eq_default _ _ (by omega)]

/-- A task control block at 0x2000, with a state that is not zero, and the name `a` at 0x1000. -/
def nameMemory : ByteMemory := fun a =>
  if a = 0x1000 then 0x61 else if a = 0x2024 then 1 else 0

/-- The name is a string, and is not where it is copied to. -/
lemma isStringAt_nameMemory : IsStringAt nameMemory 0x1000 [0x61] := by
  refine ⟨by decide, by decide, fun i hi => ?_, by decide⟩
  obtain rfl : i = 0 := Nat.lt_one_iff.mp hi
  decide

/-- The field is copied to exactly if the byte behind it is zero. -/
theorem strncpy_exact_iff_name :
    CopiesExactly nameMemory 0x3000 32 [0x61] (strncpyMemory 0x3000 0x1000 32 nameMemory)
      ↔ nameMemory (0x3000 + 32) = 0 := by
  have h : CopiesExactly nameMemory 0x3000 32 [0x61] (strncpyMemory 0x3000 0x1000 32 nameMemory)
      ↔ _ := strncpy_exact_iff isStringAt_nameMemory
  rw [if_neg (by decide), or_iff_right (by decide)] at h
  exact h

/-- **One byte too many**: the name field starts at offset 4 of the task control block, and the
first byte behind its 32 bytes, which belongs to `state`, is overwritten. -/
theorem strncpy_overrun :
    nameMemory (0x2004 + 32) = 1
      ∧ strncpyMemory 0x2004 0x1000 32 nameMemory (0x2004 + 32) = 0
      ∧ ¬ CopiesExactly nameMemory 0x2004 32 [0x61]
        (strncpyMemory 0x2004 0x1000 32 nameMemory) := by
  have hbyte : strncpyMemory 0x2004 0x1000 32 nameMemory (0x2004 + 32) = 0 := by
    rw [strncpyMemory_eq isStringAt_nameMemory]
    decide
  have hold : nameMemory (0x2004 + 32) = 1 := by decide
  refine ⟨hold, hbyte, fun hexact => ?_⟩
  have hsame := hexact.2 (0x2004 + 32) (by decide)
  rw [hbyte, hold] at hsame
  exact absurd hsame (by decide)

end KiOS
