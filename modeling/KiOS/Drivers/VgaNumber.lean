import KiOS.Drivers.Vga
import KiOS.Library.Numeral
import KiOS.Text.CString

/-!
Numbers on the screen (`vga_print_dec`, `vga_print_hex`).

Both functions collect digits in a local buffer whose first contents are arbitrary, and hand the
characters to `vga_putchar`, which is a parameter here.

* `vgaPrintDec`, `vgaPrintHex`: the functions of the source;
* `vgaPrintDec_spec`, `vgaPrintHex_spec`: the characters that they put out;
* `readDecimal`, `readNumeral`: numerals read back;
* `IsDecimal`, `IsHexadecimal`: the canonical numerals, which read back;
* `printsNumbers`: the output is canonical, but for the least signed number;
* `intMin_undefined`: the negation of that one overflows, which C leaves undefined.
-/

namespace KiOS

open Numeral

/-- The character of a digit. -/
def digitChar (d : ℕ) : BitVec 8 := chr ("0123456789ABCDEF".toList.getD d '0')

section

variable {σ : Type} (putchar : BitVec 8 → σ → σ)

/-- `vga_print`, character by character from a pointer. -/
def vgaPrintBytes : Chars → σ → Option σ
  | [], _ => none
  | c :: str, s => if c = 0 then some s else vgaPrintBytes str (putchar c s)

/-- One digit of `vga_print_hex`: `buffer[17 - i] = hex_chars[value & 0xF]; value >>= 4`. -/
def hexDigitStep (s : BitVec 64 × Chars) (i : ℕ) : Option (BitVec 64 × Chars) := do
  let c ← loadAt (literal "0123456789ABCDEF") (s.1 &&& 0xF).toNat
  let buffer ← storeAt s.2 (17 - i) c
  some (s.1 >>> 4, buffer)

/-- `while (*ptr == '0' && *(ptr + 1) != 0) ptr++`. -/
def skipZeros : Chars → Option Chars
  | [] => none
  | c :: ptr =>
      if c = chr '0' then do
        let d ← loadAt ptr 0
        if d ≠ 0 then skipZeros ptr else some (c :: ptr)
      else some (c :: ptr)

/-- `vga_print_hex`. -/
def vgaPrintHex (value : BitVec 64) (buffer : Chars) (s : σ) : Option σ := do
  let buffer ← storeAt buffer 0 (chr '0')
  let buffer ← storeAt buffer 1 (chr 'x')
  let buffer ← storeAt buffer 18 0
  let (_, buffer) ← (List.range 16).foldlM hexDigitStep (value, buffer)
  let ptr ← skipZeros (buffer.drop 2)
  let s ← vgaPrintBytes putchar (literal "0x") s
  vgaPrintBytes putchar ptr s

lemma toInt_sdiv_ten (value : BitVec 64) : (value.sdiv 10).toInt = value.toInt.tdiv 10 :=
  BitVec.toInt_sdiv_of_ne_or_ne _ _ (Or.inr (by decide))

/-- `while (value > 0) { buffer[i++] = '0' + (value % 10); value /= 10; }`. -/
def decDigitLoop (value : BitVec 64) (i : ℕ) (buffer : Chars) : Option (ℕ × Chars) :=
  if h : 0 < value.toInt then
    (storeAt buffer i (chr '0' + (value.srem 10).setWidth 8)).bind fun buffer =>
      decDigitLoop (value.sdiv 10) (i + 1) buffer
  else some (i, buffer)
termination_by value.toInt.toNat
decreasing_by
  rw [toInt_sdiv_ten, Int.tdiv_eq_ediv_of_nonneg h.le]
  omega

/-- `while (i > 0) vga_putchar(buffer[--i])`. -/
def decPutLoop (buffer : Chars) : ℕ → σ → Option σ
  | 0, s => some s
  | i + 1, s => (loadAt buffer i).bind fun c => decPutLoop buffer i (putchar c s)

/-- `-value` of an `int64_t`. C leaves the negation of the least one undefined. -/
def negateInt64 (value : BitVec 64) : Option (BitVec 64) :=
  if value = BitVec.intMin 64 then none else some (-value)

/-- `vga_print_dec`, `none` where C leaves its behaviour undefined: the negation overflows, or an
access is outside the buffer. -/
def vgaPrintDec (value : BitVec 64) (buffer : Chars) (s : σ) : Option σ := do
  let (value, s) ←
    if value.toInt < 0 then (negateInt64 value).map fun value => (value, putchar (chr '-') s)
    else some (value, s)
  if value = 0 then some (putchar (chr '0') s)
  else
    let (i, buffer) ← decDigitLoop value 0 buffer
    decPutLoop putchar buffer i s

end

/-! ### Digits -/

lemma digitChar_eq_zero_iff : ∀ d < 16, (digitChar d = chr '0' ↔ d = 0) ∧ digitChar d ≠ 0 := by
  decide

lemma chr_zero_add : ∀ d < 10, chr '0' + BitVec.ofNat 8 d = digitChar d := by decide

lemma loadAt_hexChars : ∀ d < 16,
    loadAt (literal "0123456789ABCDEF") (d : ℕ) = some (digitChar d) := by
  decide

/-! ### The decimal loops -/

section

variable {σ : Type} {putchar : BitVec 8 → σ → σ} {value : BitVec 64} {buffer : Chars} {s : σ}

/-- **The digit loop** writes the digits, the last one first, behind what it wrote before. -/
lemma decDigitLoop_spec (n : ℕ) (pre : Chars) {rest : Chars} (hvalue : value.toInt = n)
    (hlen : (Nat.digits 10 n).length ≤ rest.length) :
    decDigitLoop value pre.length (pre ++ rest)
      = some (pre.length + (Nat.digits 10 n).length,
          pre ++ (Nat.digits 10 n).map digitChar ++ rest.drop (Nat.digits 10 n).length) := by
  induction n using Nat.strong_induction_on generalizing value pre rest with
  | h n ih =>
      rcases Nat.eq_zero_or_pos n with rfl | hn
      · rw [decDigitLoop, dif_neg (by omega)]
        simp
      · rw [Nat.digits_def' (by norm_num) hn, List.length_cons] at hlen ⊢
        cases rest with
        | nil => cases hlen
        | cons c rest =>
            have hdigit : (value.srem 10).setWidth 8 = BitVec.ofNat 8 (n % 10) := by
              have hrem : value.srem 10 = BitVec.ofNat 64 (n % 10) := by
                have hmod : (value.srem 10).toInt = ((n % 10 : ℕ) : ℤ) := by
                  rw [BitVec.toInt_srem, hvalue]
                  rfl
                rw [← BitVec.ofInt_toInt (x := value.srem 10), hmod, BitVec.ofInt_natCast]
              rw [hrem, BitVec.setWidth_ofNat_of_le (by norm_num)]
            have hnext : (value.sdiv 10).toInt = ((n / 10 : ℕ) : ℤ) := by
              rw [toInt_sdiv_ten, hvalue]
              rfl
            have hrec := ih (n / 10) (Nat.div_lt_self hn (by norm_num))
              (pre ++ [digitChar (n % 10)])
              hnext (Nat.le_of_succ_le_succ hlen)
            rw [List.length_append, List.length_singleton, List.append_assoc,
              List.singleton_append] at hrec
            rw [decDigitLoop, dif_pos (by omega), hdigit,
              chr_zero_add _ (Nat.mod_lt n (by norm_num)),
              storeAt_append, Option.bind_some, hrec]
            simp only [List.map_cons, List.drop_succ_cons, List.append_assoc, List.cons_append,
              List.nil_append, Option.some.injEq, Prod.mk.injEq, and_true]
            omega

/-- The second loop puts the bytes out backwards. -/
lemma decPutLoop_spec {i : ℕ} (hi : i ≤ buffer.length) :
    decPutLoop putchar buffer i s
      = some ((buffer.take i).reverse.foldl (fun s c => putchar c s) s) := by
  induction i generalizing s with
  | zero => rfl
  | succ i ih =>
      have hlt : i < buffer.length := hi
      rw [decPutLoop, loadAt_natCast, List.getElem?_eq_getElem hlt, Option.bind_some, ih hlt.le,
        List.take_succ_eq_append_getElem hlt, List.reverse_append, List.reverse_singleton,
        List.singleton_append, List.foldl_cons]

/-- What is printed for a number that is not negative. -/
lemma dec_nonneg (n : ℕ) (hvalue : value.toInt = n) (hbuf : buffer.length = 21) :
    (if value = 0 then some (putchar (chr '0') s)
      else (decDigitLoop value 0 buffer).bind fun r => decPutLoop putchar r.2 r.1 s)
      = some (((Numeral.ofNat 10 n).map digitChar).foldl (fun s c => putchar c s) s) := by
  have hzero : value = 0 ↔ n = 0 := by
    rw [← BitVec.toInt_inj, hvalue]
    exact Int.natCast_eq_zero
  by_cases hn : n = 0
  · rw [if_pos (hzero.mpr hn), Numeral.ofNat, if_pos hn]
    rfl
  · have hlen : (Nat.digits 10 n).length ≤ buffer.length := by
      rw [hbuf, Nat.digits_length_le_iff (by norm_num)]
      have := BitVec.toInt_lt (x := value)
      norm_num at this ⊢
      omega
    have hloop := decDigitLoop_spec n [] hvalue hlen
    rw [List.length_nil, List.nil_append, List.nil_append, Nat.zero_add] at hloop
    have htake : (((Nat.digits 10 n).map digitChar
        ++ buffer.drop (Nat.digits 10 n).length).take (Nat.digits 10 n).length)
        = (Nat.digits 10 n).map digitChar := by
      rw [List.take_append_of_le_length (by simp), List.take_of_length_le (by simp)]
    rw [if_neg (mt hzero.mp hn), hloop, Option.bind_some, decPutLoop_spec (by simp), htake,
      Numeral.ofNat,
      if_neg hn, List.map_reverse]

/-- The text that `vga_print_dec` should print. -/
def decText (z : ℤ) : Chars :=
  (if z < 0 then [chr '-'] else []) ++ (Numeral.ofNat 10 z.natAbs).map digitChar

/-- **`vga_print_dec`** puts out the text, but for the least number. -/
lemma vgaPrintDec_spec (hmin : value ≠ BitVec.intMin 64) (hbuf : buffer.length = 21) :
    vgaPrintDec putchar value buffer s
      = some ((decText value.toInt).foldl (fun s c => putchar c s) s) := by
  rw [decText, List.foldl_append]
  by_cases hneg : value.toInt < 0
  · have habs : (-value).toInt = ((value.toInt.natAbs : ℕ) : ℤ) := by
      rw [BitVec.toInt_neg_of_ne_intMin hmin]
      omega
    have hdef : negateInt64 value = some (-value) := if_neg hmin
    rw [if_pos hneg, List.foldl_cons, List.foldl_nil, ← dec_nonneg _ habs hbuf]
    simp only [vgaPrintDec, if_pos hneg, hdef]
    rfl
  · have habs : value.toInt = ((value.toInt.natAbs : ℕ) : ℤ) := by omega
    rw [if_neg hneg, List.foldl_nil, ← dec_nonneg _ habs hbuf]
    simp only [vgaPrintDec, if_neg hneg]
    rfl

/-! ### The hexadecimal loops -/

variable (value) in
/-- **The digit loop** fills the buffer from its end. -/
lemma hexDigitLoop_spec {k : ℕ} (hk : k ≤ 16) (hbuf : buffer.length = 19) :
    (List.range k).foldlM hexDigitStep (value, buffer)
      = some (value >>> (4 * k), buffer.take (18 - k)
          ++ ((fixedDigits 16 k value.toNat).map digitChar ++ buffer.drop 18)) := by
  induction k with
  | zero =>
      rw [List.range_zero, List.foldlM_nil, fixedDigits, List.map_nil, List.nil_append,
        List.take_append_drop]
      simp
  | succ k ih =>
      have hlt : 17 - k < buffer.length := by omega
      have hdigit : (value >>> (4 * k) &&& 0xF).toNat = value.toNat / 16 ^ k % 16 := by
        rw [BitVec.toNat_and, BitVec.toNat_ushiftRight, Nat.shiftRight_eq_div_pow, pow_mul]
        exact Nat.and_two_pow_sub_one_eq_mod _ 4
      have htake : buffer.take (18 - k) = buffer.take (17 - k) ++ [buffer[17 - k]] := by
        rw [show 18 - k = 17 - k + 1 by omega, List.take_succ_eq_append_getElem hlt]
      have hpos : (17 : ℤ) - k = ((buffer.take (17 - k)).length : ℕ) := by
        rw [List.length_take, min_eq_left hlt.le]
        omega
      rw [List.range_succ, List.foldlM_append, ih (by omega), Option.bind_eq_bind, Option.bind_some,
        List.foldlM_cons, hexDigitStep, hdigit,
        loadAt_hexChars _ (Nat.mod_lt _ (by norm_num)), htake, hpos, List.append_assoc,
        List.singleton_append]
      simp only [Option.bind_eq_bind, Option.bind_some, storeAt_append, List.foldlM_nil]
      rw [← BitVec.shiftRight_add, fixedDigits, show 18 - (k + 1) = 17 - k by omega, Nat.mul_succ]
      rfl

lemma skipZeros_spec {ds : List ℕ} (hne : ds ≠ []) (hlt : ∀ d ∈ ds, d < 16) :
    skipZeros (ds.map digitChar ++ [0]) = some ((strip ds).map digitChar ++ [0]) := by
  fun_induction strip ds with
  | case1 d ds ih =>
      have hd := digitChar_eq_zero_iff d (hlt d (by simp))
      have hnext := ih (by simp) fun e he => hlt e (List.mem_cons_of_mem _ he)
      rw [List.map_cons, List.cons_append] at hnext
      rw [List.map_cons, List.map_cons, List.cons_append, List.cons_append, skipZeros,
        if_pos ((digitChar_eq_zero_iff 0 (by norm_num)).1.mpr rfl)]
      exact (if_pos hd.2).trans hnext
  | case2 ds hno =>
      cases ds with
      | nil => exact absurd rfl hne
      | cons d ds =>
          have hd := digitChar_eq_zero_iff d (hlt d (by simp))
          rw [List.map_cons, List.cons_append, skipZeros]
          split_ifs with h0
          · obtain rfl := hd.1.mp h0
            cases ds with
            | nil => rfl
            | cons e es => exact absurd rfl (hno e es)
          · rfl

lemma vgaPrintBytes_spec {str cs : Chars} (h : IsCString str cs) :
    vgaPrintBytes putchar str s = some (cs.foldl (fun s c => putchar c s) s) := by
  obtain ⟨rest, rfl⟩ := h.2
  have h0 := h.1
  clear h
  induction cs generalizing s with
  | nil => rfl
  | cons c cs ih =>
      rw [List.mem_cons, not_or] at h0
      rw [List.cons_append, vgaPrintBytes, if_neg (Ne.symm h0.1), ih h0.2]
      rfl

/-- The text that `vga_print_hex` should print. -/
def hexText (n : ℕ) : Chars :=
  [chr '0', chr 'x'] ++ (strip (fixedDigits 16 16 n)).map digitChar

/-- **`vga_print_hex`** puts out the text. -/
lemma vgaPrintHex_spec (hbuf : buffer.length = 19) :
    vgaPrintHex putchar value buffer s
      = some ((hexText value.toNat).foldl (fun s c => putchar c s) s) := by
  set ds := fixedDigits 16 16 value.toNat with hds
  have hne : ds ≠ [] := by
    rw [← List.length_pos_iff_ne_nil, hds, length_fixedDigits]
    norm_num
  have hlt : ∀ d ∈ ds, d < 16 := fixedDigits_lt (by norm_num)
  set b := ((buffer.set 0 (chr '0')).set 1 (chr 'x')).set 18 0 with hb
  have hblen : b.length = 19 := by
    rw [hb, List.length_set, List.length_set, List.length_set, hbuf]
  have hend : b.drop 18 = [0] := by
    rw [hb, List.set_eq_take_append_cons_drop, if_pos (by simp [hbuf])]
    simp [hbuf]
  have hloop := hexDigitLoop_spec value le_rfl hblen
  rw [hend, ← hds] at hloop
  have hdrop : (b.take (18 - 16) ++ (ds.map digitChar ++ [0])).drop 2
      = ds.map digitChar ++ [0] := by
    rw [List.drop_append_of_le_length (by simp [hblen])]
    simp
  have hcstr : IsCString ((strip ds).map digitChar ++ [0]) ((strip ds).map digitChar) := by
    refine ⟨fun hmem => ?_, [], rfl⟩
    obtain ⟨d, hd, hd0⟩ := List.mem_map.mp hmem
    exact (digitChar_eq_zero_iff d ((canonical_strip hne hlt).digit_lt d hd)).2 hd0
  have hprefix : IsCString (literal "0x") [chr '0', chr 'x'] := ⟨by decide, [], rfl⟩
  have h0 : storeAt buffer 0 (chr '0') = some (buffer.set 0 (chr '0')) :=
    storeAt_natCast (i := 0) (by omega)
  have h1 : storeAt (buffer.set 0 (chr '0')) 1 (chr 'x')
      = some ((buffer.set 0 (chr '0')).set 1 (chr 'x')) :=
    storeAt_natCast (i := 1) (by rw [List.length_set]; omega)
  have h18 : storeAt ((buffer.set 0 (chr '0')).set 1 (chr 'x')) 18 0 = some b :=
    storeAt_natCast (i := 18) (by rw [List.length_set, List.length_set]; omega)
  rw [hexText, List.foldl_append, ← hds]
  simp only [vgaPrintHex, Option.bind_eq_bind, h0, h1, h18, hloop, hdrop, Option.bind_some,
    skipZeros_spec hne hlt, vgaPrintBytes_spec hprefix, vgaPrintBytes_spec hcstr]

end

/-! ### Reading the numerals back -/

/-- The value of a digit. -/
def digitValue (c : BitVec 8) : Option ℕ :=
  if chr '0' ≤ c ∧ c ≤ chr '9' then some (c.toNat - (chr '0').toNat)
  else if chr 'A' ≤ c ∧ c ≤ chr 'F' then some (c.toNat - (chr 'A').toNat + 10)
  else none

/-- One more digit is read. -/
def readDigit (b n : ℕ) (c : BitVec 8) : Option ℕ := do
  let d ← digitValue c
  if d < b then some (b * n + d) else none

/-- A numeral is read: at least one digit, and nothing else. -/
def readNumeral (b : ℕ) (text : Chars) : Option ℕ :=
  if text = [] then none else text.foldlM (readDigit b) 0

/-- A decimal number with its sign is read. -/
def readDecimal (text : Chars) : Option ℤ :=
  if text.head? = some (chr '-') then (readNumeral 10 text.tail).map fun n : ℕ => -(n : ℤ)
  else (readNumeral 10 text).map fun n : ℕ => (n : ℤ)

lemma digitValue_digitChar : ∀ d < 16, digitValue (digitChar d) = some d := by decide

lemma readNumeral_map {b : ℕ} {ds : List ℕ} (hb : b ≤ 16) (hds : Numeral.Canonical b ds) :
    readNumeral b (ds.map digitChar) = some (Numeral.value b ds) := by
  have hrun : ∀ ds : List ℕ, (∀ d ∈ ds, d < b) → ∀ n,
      (ds.map digitChar).foldlM (readDigit b) n = some (ds.foldl (fun n d => b * n + d) n) := by
    intro ds
    induction ds with
    | nil => exact fun _ n => rfl
    | cons d ds ih =>
        intro hlt n
        have hd : d < b := hlt d List.mem_cons_self
        have hread : readDigit b n (digitChar d) = some (b * n + d) := by
          rw [readDigit, digitValue_digitChar d (hd.trans_le hb)]
          exact if_pos hd
        rw [List.map_cons, List.foldlM_cons, hread, List.foldl_cons]
        exact ih (fun e he => hlt e (List.mem_cons_of_mem _ he)) _
  rw [readNumeral, if_neg (by simpa using hds.ne_nil)]
  exact hrun ds hds.digit_lt 0

/-! ### Canonical output -/

/-- The canonical decimal numeral of a number: a minus sign exactly if the number is negative,
then the digits, and it reads back. -/
def IsDecimal (text : Chars) (z : ℤ) : Prop :=
  (∃ ds, Numeral.Canonical 10 ds ∧ text = (if z < 0 then [chr '-'] else []) ++ ds.map digitChar)
    ∧ readDecimal text = some z

/-- The prefix and the shortest hexadecimal numeral of a number, which reads back. -/
def IsHexadecimal (text : Chars) (n : ℕ) : Prop :=
  ∃ ds, Numeral.Canonical 16 ds ∧ text = [chr '0', chr 'x'] ++ ds.map digitChar
    ∧ readNumeral 16 (ds.map digitChar) = some n
    ∧ ∀ es, es ≠ [] → (∀ d ∈ es, d < 16) → Numeral.value 16 es = n → ds.length ≤ es.length

/-- The characters that a printing function hands to `vga_putchar`. -/
def emitted (print : (BitVec 8 → Chars → Chars) → Chars → Option Chars) : Option Chars :=
  print (fun c out => out ++ [c]) []

/-- `vga_print_dec` is defined, stays within its buffer and prints the numeral. -/
def PrintsDec (value : BitVec 64) : Prop :=
  ∀ buffer : Chars, buffer.length = 21 →
    ∃ text, emitted (fun putchar => vgaPrintDec putchar value buffer) = some text
      ∧ IsDecimal text value.toInt

/-- `vga_print_hex` stays within its buffer and prints the numeral. -/
def PrintsHex (value : BitVec 64) : Prop :=
  ∀ buffer : Chars, buffer.length = 19 →
    ∃ text, emitted (fun putchar => vgaPrintHex putchar value buffer) = some text
      ∧ IsHexadecimal text value.toNat

lemma foldl_concat (text out : Chars) :
    text.foldl (fun out c => out ++ [c]) out = out ++ text := by
  induction text generalizing out with
  | nil => rw [List.foldl_nil, List.append_nil]
  | cons c text ih => rw [List.foldl_cons, ih, List.append_assoc, List.singleton_append]

lemma isDecimal_decText (z : ℤ) : IsDecimal (decText z) z := by
  have hcan := canonical_ofNat (b := 10) (by norm_num) z.natAbs
  have hread := readNumeral_map (by norm_num) hcan
  rw [value_ofNat] at hread
  refine ⟨⟨_, hcan, rfl⟩, ?_⟩
  rw [decText, readDecimal]
  split_ifs with hneg hhead hhead
  · rw [List.singleton_append, List.tail_cons, hread, Option.map_some, Option.some.injEq]
    omega
  · exact absurd rfl hhead
  · -- no digit is a minus sign
    obtain ⟨d, ds, hds⟩ := List.exists_cons_of_ne_nil hcan.ne_nil
    have hminus : ∀ d < 10, digitChar d ≠ chr '-' := by decide
    rw [hds, List.nil_append, List.map_cons, List.head?_cons, Option.some.injEq] at hhead
    exact absurd hhead (hminus d (hcan.digit_lt d (hds ▸ List.mem_cons_self)))
  · rw [List.nil_append, hread, Option.map_some, Option.some.injEq]
    omega

lemma isHexadecimal_hexText {n : ℕ} (hn : n < 2 ^ 64) : IsHexadecimal (hexText n) n := by
  have hne : fixedDigits 16 16 n ≠ [] := by simp [fixedDigits]
  have hcan := canonical_strip hne (fixedDigits_lt (by norm_num))
  have hvalue : Numeral.value 16 (strip (fixedDigits 16 16 n)) = n := by
    rw [value_strip, value_fixedDigits]
    exact Nat.mod_eq_of_lt hn
  refine ⟨_, hcan, rfl, ?_, fun es hes hlt heq => ?_⟩
  · rw [readNumeral_map le_rfl hcan, hvalue]
  · exact hcan.length_le (by norm_num) hes hlt (heq.trans hvalue.symm)

/-- For the least number nothing is said of the output: its negation overflows. -/
lemma dec_intMin (buffer : Chars) :
    emitted (fun putchar => vgaPrintDec putchar (BitVec.intMin 64) buffer) = none := by
  have hneg : (BitVec.intMin 64).toInt < 0 := by decide
  have hover : negateInt64 (BitVec.intMin 64) = none := if_pos rfl
  simp only [emitted, vgaPrintDec, if_pos hneg, hover]
  rfl

/-- **Numbers are printed faithfully**, but for the least signed one. -/
theorem printsNumbers (value : BitVec 64) :
    (PrintsDec value ↔ value ≠ BitVec.intMin 64) ∧ PrintsHex value := by
  refine ⟨⟨?_, fun hmin buffer hbuf => ?_⟩, fun buffer hbuf => ?_⟩
  · rintro hprint rfl
    obtain ⟨text, htext, -⟩ := hprint (List.replicate 21 0) List.length_replicate
    rw [dec_intMin] at htext
    cases htext
  · refine ⟨decText value.toInt, ?_, isDecimal_decText _⟩
    rw [emitted, vgaPrintDec_spec hmin hbuf, foldl_concat, List.nil_append]
  · refine ⟨hexText value.toNat, ?_, isHexadecimal_hexText value.isLt⟩
    rw [emitted, vgaPrintHex_spec hbuf, foldl_concat, List.nil_append]

/-- For the least number C promises no output, whatever a compiler makes of the negation. -/
theorem intMin_undefined :
    (∀ buffer : Chars,
      emitted (fun putchar => vgaPrintDec putchar (BitVec.intMin 64) buffer) = none)
      ∧ ¬ PrintsDec (BitVec.intMin 64) := by
  refine ⟨dec_intMin, fun hprint => ?_⟩
  obtain ⟨text, htext, -⟩ := hprint (List.replicate 21 0) List.length_replicate
  rw [dec_intMin] at htext
  cases htext

end KiOS
