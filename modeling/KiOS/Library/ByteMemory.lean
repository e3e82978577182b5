import Mathlib

/-!
Memory as bytes, and stacks that grow downwards in it.

* `ByteMemory`: a byte at each 64-bit address;
* `ByteMemory.read`, `ByteMemory.write`: words of eight bytes, the lowest byte first. Addresses
  wrap at the end of the address space;
* `read_write_self`, `read_write_of_apart`: a word reads back what was written, and a write does
  not reach a word that starts eight bytes away or further;
* `put`: a run of bytes; `put_put`, `update_put`, `put_update`: runs one behind the other;
* `put_ahead`: a byte that is read while a run is stored, from a place the run may reach;
* `Slot`, `storeFields`, `Holds`: the fields of a record; `storeFields_outside`,
  `storeFields_of_apart`, `holds_storeFields`: what stores into them do;
* `Stack`, `Stack.pushAll`: a memory with a stack pointer, and a list of words pushed onto it;
* `Stack.read_pushAll`, `Stack.read_sp_pushAll`: the words pushed lie below the old stack pointer,
  one after the other;
* `Stack.read_pushAll_above`: what lies above it is not touched;
* `Stack.pushAll_outside`: nor is any other byte outside the words pushed.
-/

/-- A byte at each address. -/
abbrev ByteMemory := BitVec 64 → BitVec 8

namespace ByteMemory

/-- The word at an address. -/
def read (m : ByteMemory) (a : BitVec 64) : BitVec 64 :=
  BitVec.ofFnLE fun i : Fin 64 => (m (a + BitVec.ofNat 64 (i / 8))).getLsbD (i % 8)

/-- A word is stored at an address. -/
def write (m : ByteMemory) (a v : BitVec 64) : ByteMemory := fun b =>
  if (b - a).toNat < 8 then v.extractLsb' (8 * (b - a).toNat) 8 else m b

variable {m m' : ByteMemory} {a b v : BitVec 64}

lemma getLsbD_read {i : ℕ} (hi : i < 64) :
    (m.read a).getLsbD i = (m (a + BitVec.ofNat 64 (i / 8))).getLsbD (i % 8) := by
  rw [read, BitVec.getLsbD_ofFnLE]
  simp [hi]

/-- A word depends on its eight bytes only. -/
lemma read_congr (h : ∀ k < 8, m (a + BitVec.ofNat 64 k) = m' (a + BitVec.ofNat 64 k)) :
    m.read a = m'.read a := by
  refine BitVec.eq_of_getLsbD_eq fun i hi => ?_
  rw [getLsbD_read hi, getLsbD_read hi, h (i / 8) (by omega)]

@[simp] lemma read_write_self : (m.write a v).read a = v := by
  refine BitVec.eq_of_getLsbD_eq fun i hi => ?_
  have hoff : (a + BitVec.ofNat 64 (i / 8) - a).toNat = i / 8 := by
    rw [add_sub_cancel_left, BitVec.toNat_ofNat]
    exact Nat.mod_eq_of_lt (by omega)
  rw [getLsbD_read hi, write, hoff, if_pos (by omega), BitVec.getLsbD_extractLsb']
  simp only [Nat.mod_lt i (show 0 < 8 by norm_num), decide_true, Bool.true_and, Nat.div_add_mod]

/-- A byte that lies eight bytes behind the write or further is not touched. -/
lemma write_of_apart (h : 8 ≤ (b - a).toNat) : m.write a v b = m b := if_neg (by omega)

/-- The words at both addresses share no byte. -/
def Apart (a b : BitVec 64) : Prop := 8 ≤ (b - a).toNat ∧ (b - a).toNat + 8 ≤ 2 ^ 64

lemma read_write_of_apart (h : Apart a b) : (m.write a v).read b = m.read b := by
  refine read_congr fun k hk => write_of_apart ?_
  have hoff : (b + BitVec.ofNat 64 k - a).toNat = (b - a).toNat + k := by
    rw [add_sub_right_comm, BitVec.toNat_add, BitVec.toNat_ofNat]
    rw [Nat.mod_eq_of_lt (show k < 2 ^ 64 by omega)]
    refine Nat.mod_eq_of_lt ?_
    have h2 := h.2
    omega
  have h1 := h.1
  omega

/-! ### Runs of bytes -/

/-- `k` bytes are stored from an address on. -/
def put (m : ByteMemory) (a : BitVec 64) (w : ℕ → BitVec 8) (k : ℕ) : ByteMemory := fun b =>
  if (b - a).toNat < k then w (b - a).toNat else m b

variable {w w' : ℕ → BitVec 8} {i k l : ℕ}

lemma toNat_offset (hi : i < 2 ^ 64) : (a + BitVec.ofNat 64 i - a).toNat = i := by
  rw [add_sub_cancel_left, BitVec.toNat_ofNat, Nat.mod_eq_of_lt hi]

lemma put_inside (hi : i < k) (hk : k ≤ 2 ^ 64) : m.put a w k (a + BitVec.ofNat 64 i) = w i := by
  rw [put, toNat_offset (hi.trans_le hk), if_pos hi]

lemma put_outside (h : k ≤ (b - a).toNat) : m.put a w k b = m b := if_neg (by omega)

@[simp] lemma put_zero : m.put a w 0 = m := funext fun _ => put_outside (Nat.zero_le _)

lemma ofNat_succ (k : ℕ) : BitVec.ofNat 64 (k + 1) = BitVec.ofNat 64 k + 1 := BitVec.ofNat_add _ _

lemma put_congr (h : ∀ i < k, w i = w' i) : m.put a w k = m.put a w' k := by
  funext b
  rw [put, put]
  split_ifs with hb
  · exact h _ hb
  · rfl

/-- A run is known by its bytes and by what lies outside. -/
lemma eq_put_iff (hk : k ≤ 2 ^ 64) :
    m' = m.put a w k
      ↔ (∀ i < k, m' (a + BitVec.ofNat 64 i) = w i) ∧ ∀ b, k ≤ (b - a).toNat → m' b = m b := by
  constructor
  · rintro rfl
    exact ⟨fun i hi => put_inside hi hk, fun b hb => put_outside hb⟩
  · rintro ⟨hin, hout⟩
    funext b
    rw [put]
    split_ifs with hb
    · rw [← hin _ hb, BitVec.ofNat_toNat, BitVec.setWidth_eq, add_sub_cancel]
    · exact hout b (by omega)

lemma put_eq_put_iff (hk : k ≤ 2 ^ 64) :
    m.put a w k = m.put a w' k ↔ ∀ i < k, w i = w' i := by
  refine ⟨fun h i hi => ?_, put_congr⟩
  rw [← put_inside (m := m) (a := a) (w := w) hi hk, h, put_inside hi hk]

/-- Two runs one behind the other are one run. -/
lemma put_put (hkl : k + l ≤ 2 ^ 64) :
    (m.put a w k).put (a + BitVec.ofNat 64 k) w' l
      = m.put a (fun i => if i < k then w i else w' (i - k)) (k + l) := by
  funext b
  have hoff : (b - (a + BitVec.ofNat 64 k)).toNat
      = if (b - a).toNat < k then (b - a).toNat + 2 ^ 64 - k else (b - a).toNat - k := by
    have hlt := (b - a).isLt
    rw [← sub_sub, BitVec.toNat_sub, BitVec.toNat_ofNat]
    split_ifs with hb <;> omega
  simp only [put, hoff]
  split_ifs <;> first | rfl | omega

lemma update_eq_put {c : BitVec 8} : Function.update m a c = m.put a (fun _ => c) 1 := by
  funext b
  rw [put, Function.update_apply]
  refine if_congr ?_ rfl rfl
  rw [Nat.lt_one_iff, ← sub_eq_zero, ← BitVec.toNat_inj]
  rfl

/-- One byte more. -/
lemma update_put (hk : k < 2 ^ 64) :
    Function.update (m.put a w k) (a + BitVec.ofNat 64 k) (w k) = m.put a w (k + 1) := by
  rw [update_eq_put, put_put hk]
  refine put_congr fun i hi => ?_
  split_ifs with h
  · rfl
  · rw [show i = k by omega]

/-- A run up to a byte that is stored already. -/
lemma put_update (hk : k < 2 ^ 64) :
    put (Function.update m (a + BitVec.ofNat 64 k) (w k)) a w k = m.put a w (k + 1) := by
  funext b
  by_cases hb : b = a + BitVec.ofNat 64 k
  · subst hb
    rw [put_outside (by rw [toNat_offset hk]), Function.update_self,
      put_inside (Nat.lt_succ_self k) hk]
  · have hoff : (b - a).toNat ≠ k := by
      rintro rfl
      rw [BitVec.ofNat_toNat, BitVec.setWidth_eq, add_sub_cancel] at hb
      exact hb rfl
    rw [put, put, Function.update_of_ne hb]
    refine if_congr ?_ rfl rfl
    omega

lemma toNat_add_sub : (b + BitVec.ofNat 64 i - a).toNat = ((b - a).toNat + i) % 2 ^ 64 := by
  rw [add_sub_right_comm, BitVec.toNat_add, BitVec.toNat_ofNat, Nat.add_mod_mod]

/-- **Reading from `b` on while a run from `a` on is stored.** Before the run is met the byte is the
one that was there. Behind that it is one of the run, as many bytes back as `a` lies behind `b`. -/
lemma put_ahead (hi : i < 2 ^ 64)
    (hbefore : (a - b).toNat = 0 ∨ i < (a - b).toNat → m (b + BitVec.ofNat 64 i) = w i)
    (hbehind : 0 < (a - b).toNat → (a - b).toNat ≤ i → w (i - (a - b).toNat) = w i) :
    m.put a w i (b + BitVec.ofNat 64 i) = w i := by
  have hoff : (b + BitVec.ofNat 64 i - a).toNat = (i + (2 ^ 64 - (a - b).toNat)) % 2 ^ 64 := by
    rw [← neg_sub b a, BitVec.toNat_neg, toNat_add_sub]
    have hlt := (b - a).isLt
    omega
  have hlt := (a - b).isLt
  by_cases hmeet : (a - b).toNat = 0 ∨ i < (a - b).toNat
  · rw [put_outside (by rw [hoff]; omega)]
    exact hbefore hmeet
  · have hback : (b + BitVec.ofNat 64 i - a).toNat = i - (a - b).toNat := by
      rw [hoff]
      omega
    rw [put, hback, if_pos (by omega)]
    exact hbehind (by omega) (by omega)

/-- The last byte of a run was there before. -/
lemma put_succ_eq_iff (hk : k < 2 ^ 64) :
    m.put a w (k + 1) = m.put a w k ↔ m (a + BitVec.ofNat 64 k) = w k := by
  have hlast : m.put a w k (a + BitVec.ofNat 64 k) = m (a + BitVec.ofNat 64 k) :=
    put_outside (by rw [toNat_offset hk])
  rw [← update_put hk, Function.update_eq_self_iff, hlast, eq_comm]

lemma toNat_add_offset (h : a.toNat + i < 2 ^ 64) :
    (a + BitVec.ofNat 64 i).toNat = a.toNat + i := by
  rw [BitVec.toNat_add, BitVec.toNat_ofNat, Nat.add_mod_mod]
  exact Nat.mod_eq_of_lt h

/-- What lies below a run that does not wrap is outside it. -/
lemma le_toNat_sub_of_lt (h : b.toNat < a.toNat) (hk : a.toNat + k ≤ 2 ^ 64) :
    k ≤ (b - a).toNat := by
  rw [BitVec.toNat_sub]
  omega

/-- So is what lies above it. -/
lemma le_toNat_sub_of_le (h : a.toNat + k ≤ b.toNat) : k ≤ (b - a).toNat := by
  have hlt := b.isLt
  rw [BitVec.toNat_sub]
  omega

/-- Nothing else is outside it. -/
lemma le_toNat_sub_iff (hk : a.toNat + k ≤ 2 ^ 64) :
    k ≤ (b - a).toNat ↔ b.toNat < a.toNat ∨ a.toNat + k ≤ b.toNat := by
  refine ⟨fun h => ?_, fun h => h.elim (le_toNat_sub_of_lt · hk) le_toNat_sub_of_le⟩
  by_contra hn
  rw [BitVec.toNat_sub_of_le (BitVec.le_def.mpr (by omega))] at h
  omega

/-! ### Fields of a record -/

/-- A byte of a word, the lowest one first. -/
def wordByte (v : BitVec 64) (i : ℕ) : BitVec 8 := v.extractLsb' (8 * i) 8

/-- The lowest `k` bytes of a word are stored at an address. -/
def store (m : ByteMemory) (k : ℕ) (a v : BitVec 64) : ByteMemory := m.put a (wordByte v) k

/-- The `k` bytes at an address are the lowest ones of a word. -/
def Holds (m : ByteMemory) (k : ℕ) (a v : BitVec 64) : Prop :=
  ∀ i < k, m (a + BitVec.ofNat 64 i) = wordByte v i

lemma store_outside (h : k ≤ (b - a).toNat) : m.store k a v b = m b := put_outside h

lemma holds_store (hk : k ≤ 2 ^ 64) : (m.store k a v).Holds k a v := fun _ hi => put_inside hi hk

lemma Holds.congr (h : m.Holds k a v)
    (hsame : ∀ i < k, m' (a + BitVec.ofNat 64 i) = m (a + BitVec.ofNat 64 i)) : m'.Holds k a v :=
  fun i hi => (hsame i hi).trans (h i hi)

/-- Distances within a record. -/
lemma toNat_offset_sub {o j : ℕ} (ho : o < 2 ^ 32) (hj : j < 2 ^ 32) :
    (a + BitVec.ofNat 64 j - (a + BitVec.ofNat 64 o)).toNat
      = if o ≤ j then j - o else j + 2 ^ 64 - o := by
  rw [add_sub_add_left_eq_sub, BitVec.toNat_sub, BitVec.toNat_ofNat, BitVec.toNat_ofNat]
  split_ifs <;> omega

/-- A store into another field. -/
lemma store_field {o j : ℕ} (ho : o < 2 ^ 32) (hj : j < 2 ^ 32) (hk : k ≤ 2 ^ 32)
    (hout : j < o ∨ o + k ≤ j) :
    m.store k (a + BitVec.ofNat 64 o) v (a + BitVec.ofNat 64 j) = m (a + BitVec.ofNat 64 j) := by
  refine store_outside ?_
  rw [toNat_offset_sub ho hj]
  split_ifs <;> omega

/-- A field of a record: where it lies, its length in bytes and what is stored in it. -/
structure Slot where
  offset : ℕ
  width : ℕ
  value : BitVec 64
  deriving DecidableEq, Repr

/-- Two fields share no byte. -/
def Slot.Apart (f g : Slot) : Prop :=
  f.offset + f.width ≤ g.offset ∨ g.offset + g.width ≤ f.offset

instance (f g : Slot) : Decidable (f.Apart g) := inferInstanceAs (Decidable (_ ∨ _))

/-- Some fields of the record at an address are stored, one after the other. -/
def storeFields (m : ByteMemory) (a : BitVec 64) (fs : List Slot) : ByteMemory :=
  fs.foldl (fun m f => m.store f.width (a + BitVec.ofNat 64 f.offset) f.value) m

variable {f : Slot} {fs : List Slot} {n : ℕ}

lemma storeFields_cons : m.storeFields a (f :: fs)
    = (m.store f.width (a + BitVec.ofNat 64 f.offset) f.value).storeFields a fs := rfl

/-- Nothing but the record changes. -/
lemma storeFields_outside (hn : n < 2 ^ 32) (hfs : ∀ f ∈ fs, f.offset + f.width ≤ n)
    (hb : n ≤ (b - a).toNat) : m.storeFields a fs b = m b := by
  induction fs generalizing m with
  | nil => rfl
  | cons f fs ih =>
      have hf := hfs f List.mem_cons_self
      rw [storeFields_cons, ih fun g hg => hfs g (List.mem_cons_of_mem _ hg)]
      refine store_outside ?_
      have hlt := (b - a).isLt
      rw [← sub_sub, BitVec.toNat_sub, BitVec.toNat_ofNat]
      omega

/-- Nor do the fields that are not stored. -/
lemma storeFields_of_apart {g : Slot} {i : ℕ} (hn : n < 2 ^ 32)
    (hfs : ∀ f ∈ fs, f.offset + f.width ≤ n) (hg : g.offset + g.width ≤ n)
    (hapart : ∀ f ∈ fs, g.Apart f) (hi : i < g.width) :
    m.storeFields a fs (a + BitVec.ofNat 64 (g.offset + i))
      = m (a + BitVec.ofNat 64 (g.offset + i)) := by
  induction fs generalizing m with
  | nil => rfl
  | cons f fs ih =>
      have hf := hfs f List.mem_cons_self
      have hfg : g.offset + g.width ≤ f.offset ∨ f.offset + f.width ≤ g.offset :=
        hapart f List.mem_cons_self
      rw [storeFields_cons, ih (fun k hk => hfs k (List.mem_cons_of_mem _ hk))
        fun k hk => hapart k (List.mem_cons_of_mem _ hk)]
      exact store_field (by omega) (by omega) (by omega) (by omega)

/-- Where fields lie does not depend on their values. -/
lemma pairwise_apart_iff :
    fs.Pairwise Slot.Apart ↔ (fs.map fun f => { f with value := 0 }).Pairwise Slot.Apart := by
  rw [List.pairwise_map]
  rfl

/-- **Each field holds its word**, if no two overlap. -/
lemma holds_storeFields (hn : n < 2 ^ 32) (hfs : ∀ f ∈ fs, f.offset + f.width ≤ n)
    (hapart : fs.Pairwise Slot.Apart) (hf : f ∈ fs) :
    (m.storeFields a fs).Holds f.width (a + BitVec.ofNat 64 f.offset) f.value := by
  induction fs generalizing m with
  | nil => cases hf
  | cons g fs ih =>
      rw [List.pairwise_cons] at hapart
      rw [storeFields_cons]
      have htail := fun k (hk : k ∈ fs) => hfs k (List.mem_cons_of_mem _ hk)
      rcases List.mem_cons.mp hf with rfl | hf
      · have hbound := hfs f List.mem_cons_self
        refine Holds.congr (holds_store (m := m) (show f.width ≤ 2 ^ 64 by omega)) fun i hi => ?_
        rw [add_assoc, ← BitVec.ofNat_add]
        exact storeFields_of_apart hn htail hbound hapart.1 hi
      · exact ih htail hapart.2 hf

/-- A word that is held is read. -/
lemma Holds.read_eq (h : m.Holds 8 a v) : m.read a = v := by
  have hwrite : (m.write a v).read a = v := read_write_self
  rw [← hwrite]
  refine read_congr fun k hk => ?_
  rw [h k hk, write, toNat_offset (by omega), if_pos hk]
  rfl

end ByteMemory

/-- A memory with a stack pointer. -/
structure Stack where
  mem : ByteMemory
  sp : BitVec 64

namespace Stack

/-- `push`. -/
def push (s : Stack) (v : BitVec 64) : Stack := ⟨s.mem.write (s.sp - 8) v, s.sp - 8⟩

/-- A list of words, the first one pushed first. -/
def pushAll (s : Stack) (vs : List (BitVec 64)) : Stack := vs.foldl push s

variable {s : Stack} {vs : List (BitVec 64)} {a : BitVec 64}

lemma sp_pushAll : (s.pushAll vs).sp = s.sp - BitVec.ofNat 64 (8 * vs.length) := by
  induction vs generalizing s with
  | nil => simp [pushAll]
  | cons v vs ih =>
      have hcons : s.pushAll (v :: vs) = (s.push v).pushAll vs := rfl
      have hsp : (s.push v).sp = s.sp - 8 := rfl
      have hlen : BitVec.ofNat 64 (8 * (v :: vs).length) = 8 + BitVec.ofNat 64 (8 * vs.length) := by
        rw [List.length_cons, Nat.mul_succ, Nat.add_comm, BitVec.ofNat_add]
        rfl
      rw [hcons, ih, hsp, hlen, sub_add_eq_sub_sub]

/-- The part of the memory above the stack pointer, as far as the stack does not reach it from
below, is not touched. -/
lemma read_pushAll_above (h : (a - s.sp).toNat + 8 * vs.length + 8 ≤ 2 ^ 64) :
    (s.pushAll vs).mem.read a = s.mem.read a := by
  induction vs generalizing s with
  | nil => rfl
  | cons v vs ih =>
      have hcons : s.pushAll (v :: vs) = (s.push v).pushAll vs := rfl
      rw [List.length_cons] at h
      have hoff : (a - (s.sp - 8)).toNat = (a - s.sp).toNat + 8 := by
        have h8 : (8 : BitVec 64).toNat = 8 := rfl
        rw [show a - (s.sp - 8) = a - s.sp + 8 by rw [sub_sub_eq_add_sub, add_sub_right_comm],
          BitVec.toNat_add, h8]
        exact Nat.mod_eq_of_lt (by omega)
      have hpush : (s.push v).sp = s.sp - 8 := rfl
      rw [hcons, ih (by rw [hpush, hoff]; omega)]
      exact ByteMemory.read_write_of_apart ⟨by omega, by omega⟩

/-- **The words pushed** lie below the old stack pointer, the last one at the new one. -/
lemma read_pushAll {i : ℕ} (hi : i < vs.length) (hlen : 8 * vs.length ≤ 2 ^ 64) :
    (s.pushAll vs).mem.read (s.sp - BitVec.ofNat 64 (8 * (i + 1))) = vs[i] := by
  induction vs generalizing s i with
  | nil => cases hi
  | cons v vs ih =>
      have hcons : s.pushAll (v :: vs) = (s.push v).pushAll vs := rfl
      rw [List.length_cons] at hi hlen
      rw [hcons]
      cases i with
      | zero =>
          have hself : ((s.push v).pushAll vs).mem.read (s.sp - 8)
              = (s.push v).mem.read (s.sp - 8) := by
            refine read_pushAll_above ?_
            have h0 : (s.sp - 8 - (s.push v).sp).toNat = 0 := by
              rw [show (s.push v).sp = s.sp - 8 from rfl, sub_self]
              rfl
            omega
          rw [show BitVec.ofNat 64 (8 * (0 + 1)) = 8 from rfl, hself, push,
            ByteMemory.read_write_self]
          rfl
      | succ i =>
          have hnext := ih (s := s.push v) (i := i) (by omega) (by omega)
          rw [show (s.push v).sp = s.sp - 8 from rfl, sub_sub] at hnext
          rw [show 8 * (i + 1 + 1) = 8 + 8 * (i + 1) by ring, BitVec.ofNat_add]
          exact hnext

/-- The words pushed, counted from the new stack pointer on. -/
lemma read_sp_pushAll (s : Stack) (vs : List (BitVec 64)) {i : ℕ} (hi : i < vs.length)
    (hlen : 8 * vs.length ≤ 2 ^ 64) :
    (s.pushAll vs).mem.read ((s.pushAll vs).sp + BitVec.ofNat 64 (8 * i))
      = vs[vs.length - 1 - i] := by
  have haddr : (s.pushAll vs).sp + BitVec.ofNat 64 (8 * i)
      = s.sp - BitVec.ofNat 64 (8 * (vs.length - 1 - i + 1)) := by
    rw [sp_pushAll, show 8 * vs.length = 8 * (vs.length - 1 - i + 1) + 8 * i by omega,
      BitVec.ofNat_add, sub_add_eq_sub_sub, sub_add_cancel]
  rw [haddr, read_pushAll _ hlen]

/-- Only the bytes between the new stack pointer and the old one change. -/
lemma pushAll_outside {b : BitVec 64} (h : 8 * vs.length ≤ (b - (s.pushAll vs).sp).toNat) :
    (s.pushAll vs).mem b = s.mem b := by
  induction vs generalizing s with
  | nil => rfl
  | cons v vs ih =>
      have hcons : s.pushAll (v :: vs) = (s.push v).pushAll vs := rfl
      rw [hcons, List.length_cons] at h
      rw [hcons, ih (by omega)]
      have hlt := (b - ((s.push v).pushAll vs).sp).isLt
      have hsp : s.sp - 8 = ((s.push v).pushAll vs).sp + BitVec.ofNat 64 (8 * vs.length) := by
        rw [sp_pushAll, sub_add_cancel]
        rfl
      refine ByteMemory.write_of_apart ?_
      rw [hsp, ← sub_sub, BitVec.toNat_sub_of_le, BitVec.toNat_ofNat]
      · omega
      · rw [BitVec.le_def, BitVec.toNat_ofNat]
        omega

end Stack
