import KiOS.Mm.Mapping

/-!
The other reader and the first writer of the page tables.

* `mmuWalk`: the walk of the processor. It stops at a large page, and an address is writable or
  accessible to Ring 3 only if every entry on the way says so;
* `mmuWalk_eq`: in proper tables the entry of the page decides alone;
* `setupPaging`: the tables stage 2 builds, an identity map of the first gigabyte in pages of
  2 MB; `Tables.boot` and `entryAt_boot` describe the result.
-/

namespace KiOS

/-! ### The walk of the processor -/

/-- What the processor makes of a virtual address. -/
structure Translation where
  phys : BitVec 64
  write : Bool
  user : Bool
  deriving DecidableEq, Repr

/-- The frame in bits 51 to 12 of an entry. -/
def mmuFrame (e : Pte) : Frame := frameOf (e &&& 0x000FFFFFFFFFF000)

/-- The translation of a 4 KB page. -/
def smallPage (e : Pte) (virt : BitVec 64) (write user : Bool) : Translation where
  phys := (e &&& 0x000FFFFFFFFFF000) ||| (virt &&& 0xFFF)
  write := write
  user := user

/-- The translation of a 2 MB page. -/
def largePage (e : Pte) (virt : BitVec 64) (write user : Bool) : Translation where
  phys := (e &&& 0x000FFFFFFFE00000) ||| (virt &&& 0x1FFFFF)
  write := write
  user := user

/-- The translation of a 1 GB page. -/
def hugePage (e : Pte) (virt : BitVec 64) (write user : Bool) : Translation where
  phys := (e &&& 0x000FFFFFC0000000) ||| (virt &&& 0x3FFFFFFF)
  write := write
  user := user

/-- The walk of the processor, `none` for a page fault. -/
def mmuWalk (m : PhysMem) (pml4 : Frame) (virt : BitVec 64) : Option Translation :=
  let e4 := m.word pml4 (pml4Index virt)
  if ¬ Present e4 then none else
  let e3 := m.word (mmuFrame e4) (pdptIndex virt)
  if ¬ Present e3 then none else
  let write := decide (Writable e4) && decide (Writable e3)
  let user := decide (User e4) && decide (User e3)
  if Large e3 then some (hugePage e3 virt write user) else
  let e2 := m.word (mmuFrame e3) (pdIndex virt)
  if ¬ Present e2 then none else
  let write := write && decide (Writable e2)
  let user := user && decide (User e2)
  if Large e2 then some (largePage e2 virt write user) else
  let e1 := m.word (mmuFrame e2) (ptIndex virt)
  if ¬ Present e1 then none else
  some (smallPage e1 virt (write && decide (Writable e1)) (user && decide (User e1)))

variable {m : PhysMem} {r f g : Frame} {p q : List Idx} {i j : Idx} {e x : Pte}
  {virt phys : BitVec 64}

/-- Bits 51 to 12 are the whole frame number if that is small. -/
lemma mmuFrame_eq (h : (frameOf e).toNat < 2 ^ 40) : mmuFrame e = frameOf e := by
  have hmask : (0x000FFFFFFFFFF000 : BitVec 64).extractLsb' 12 52
      = BitVec.ofNat 52 (2 ^ 40 - 1) := by
    decide
  rw [mmuFrame, frameOf, BitVec.extractLsb'_and, hmask]
  refine BitVec.eq_of_toNat_eq ?_
  rw [BitVec.toNat_and, BitVec.toNat_ofNat,
    show (2 ^ 40 - 1) % 2 ^ 52 = 2 ^ 40 - 1 by norm_num, Nat.and_two_pow_sub_one_eq_mod]
  exact Nat.mod_eq_of_lt h

/-- An entry above the last level that is present and no large page leads to a table. -/
lemma Tables.next (ht : Tables m r) (hp : tableAt m r p = some f) (hlen : p.length ≤ 2)
    (hpr : Present (m.word f i)) (hnl : ¬ Large (m.word f i)) :
    tableAt m r (p ++ [i]) = some (mmuFrame (m.word f i)) := by
  have hch : tableAt m r (p ++ [i]) = some (frameOf (m.word f i)) := by
    rw [tableAt_snoc, entryAt_of_table hp]
    exact child_eq_some.mpr ⟨hpr, hnl, rfl⟩
  have hlow := ht.low _ _ (by simp; omega) hch
  rw [hch, mmuFrame_eq (by omega)]

lemma tableAt_eq_none (hp : tableAt m r p = some f)
    (h : ¬ Present (m.word f i) ∨ Large (m.word f i)) :
    tableAt m r (p ++ [i]) = none := by
  rw [tableAt_snoc, entryAt_of_table hp, child, if_neg]
  tauto

/-- Below a missing table there is none. -/
lemma tableAt_append_none (h : tableAt m r p = none) (q : List Idx) :
    tableAt m r (p ++ q) = none := by
  by_contra hs
  obtain ⟨g, hg⟩ := Option.ne_none_iff_exists'.mp hs
  obtain ⟨g', hg'⟩ := Radix.walk_prefix hg
  cases h.symm.trans hg'

/-- **The walk of the processor in proper tables**: a large page, or the entry of the page, and
nothing above it restricts what that entry permits. -/
theorem mmuWalk_eq (ht : Tables m r) : mmuWalk m r virt =
    let e2 := entryAt m r [pml4Index virt, pdptIndex virt] (pdIndex virt)
    if LargePage e2 then some (largePage e2 virt (decide (Writable e2)) (decide (User e2)))
    else if Present (leafAt m r virt) then
      some (smallPage (leafAt m r virt) virt (decide (Writable (leafAt m r virt)))
        (decide (User (leafAt m r virt))))
    else none := by
  unfold mmuWalk
  have h4 : tableAt m r [] = some r := rfl
  by_cases hp4 : Present (m.word r (pml4Index virt))
  swap
  · have hn : tableAt m r [pml4Index virt] = none := tableAt_eq_none (p := []) h4 (Or.inl hp4)
    have hn2 : tableAt m r [pml4Index virt, pdptIndex virt] = none :=
      tableAt_append_none hn [pdptIndex virt]
    have hn1 : tableAt m r (tablePath virt) = none :=
      tableAt_append_none hn [pdptIndex virt, pdIndex virt]
    simp [hp4, entryAt_of_none hn2, entryAt_of_none hn1, LargePage]
  have hl4 : ¬ Large (m.word r (pml4Index virt)) := fun hl =>
    absurd (ht.large [] _ (by simp) ⟨hp4, hl⟩) (by simp)
  have h3 := ht.next (p := []) h4 (by simp) hp4 hl4
  have hw4 := ht.writable [] (pml4Index virt) (by simp) hp4
  set f3 := mmuFrame (m.word r (pml4Index virt)) with hf3
  by_cases hp3 : Present (m.word f3 (pdptIndex virt))
  swap
  · have hn2 : tableAt m r [pml4Index virt, pdptIndex virt] = none :=
      tableAt_eq_none h3 (Or.inl hp3)
    have hn1 : tableAt m r (tablePath virt) = none := tableAt_append_none hn2 [pdIndex virt]
    simp [hp4, ← hf3, hp3, entryAt_of_none hn2, entryAt_of_none hn1, LargePage]
  have he3 : entryAt m r [pml4Index virt] (pdptIndex virt) = m.word f3 (pdptIndex virt) :=
    entryAt_of_table h3
  have hl3 : ¬ Large (m.word f3 (pdptIndex virt)) := fun hl =>
    absurd (ht.large [pml4Index virt] (pdptIndex virt) (by simp) (he3 ▸ ⟨hp3, hl⟩)) (by simp)
  have h2 := ht.next h3 (by simp) hp3 hl3
  have hw3 := ht.writable [pml4Index virt] (pdptIndex virt) (by simp) (he3 ▸ hp3)
  rw [he3] at hw3
  have hu3 := ht.user [] (pml4Index virt) (pdptIndex virt) (by simp)
  set f2 := mmuFrame (m.word f3 (pdptIndex virt)) with hf2
  have he2 : entryAt m r [pml4Index virt, pdptIndex virt] (pdIndex virt)
      = m.word f2 (pdIndex virt) := entryAt_of_table h2
  by_cases hp2 : Present (m.word f2 (pdIndex virt))
  swap
  · have hn1 : tableAt m r (tablePath virt) = none := tableAt_eq_none h2 (Or.inl hp2)
    simp [hp4, ← hf3, hp3, hl3, ← hf2, hp2, he2, entryAt_of_none hn1, LargePage]
  have hw2 := ht.writable [pml4Index virt, pdptIndex virt] (pdIndex virt) (by simp) (he2 ▸ hp2)
  rw [he2] at hw2
  have hu2 := ht.user [pml4Index virt] (pdptIndex virt) (pdIndex virt) (by simp)
  rw [List.singleton_append, he2, he3] at hu2
  rw [List.nil_append, he3, entryAt_of_table h4] at hu3
  rw [entryAt_of_table h4] at hw4
  by_cases hl2 : Large (m.word f2 (pdIndex virt))
  · -- a large page: what permits it is permitted above
    have huser : User (m.word f2 (pdIndex virt)) → User (m.word r (pml4Index virt)) :=
      fun hu => hu3 (hu2 hu)
    by_cases hu : User (m.word f2 (pdIndex virt)) <;>
      simp [hp4, ← hf3, hp3, hl3, ← hf2, hp2, he2, hl2, LargePage, hw4, hw3, hw2, hu, hu2, huser]
  · have h1 := ht.next h2 (by simp) hp2 hl2
    have hu1 := ht.user [pml4Index virt, pdptIndex virt] (pdIndex virt) (ptIndex virt) (by simp)
    set f1 := mmuFrame (m.word f2 (pdIndex virt)) with hf1
    have he1 : leafAt m r virt = m.word f1 (ptIndex virt) := entryAt_of_table h1
    rw [he2, show entryAt m r ([pml4Index virt, pdptIndex virt] ++ [pdIndex virt]) (ptIndex virt)
      = m.word f1 (ptIndex virt) from he1] at hu1
    have huser : User (m.word f1 (ptIndex virt)) → User (m.word r (pml4Index virt)) :=
      fun hu => hu3 (hu2 (hu1 hu))
    by_cases hp1 : Present (m.word f1 (ptIndex virt))
    · by_cases hu : User (m.word f1 (ptIndex virt)) <;>
        simp [hp4, ← hf3, hp3, hl3, ← hf2, hp2, he2, hl2, ← hf1, he1, hp1, LargePage, hw4, hw3, hw2,
          hu, hu1, hu2, huser]
    · simp [hp4, ← hf3, hp3, hl3, ← hf2, hp2, he2, hl2, ← hf1, he1, hp1, LargePage]

/-- The processor looks at the large pages and at the entry of the page. -/
lemma Tables.mmuWalk_congr {m m' : PhysMem} (ht : Tables m r) (ht' : Tables m' r)
    (hlarge : ∀ q j, q.length ≤ 2 → LargePage (entryAt m r q j) ∨ LargePage (entryAt m' r q j) →
      entryAt m' r q j = entryAt m r q j)
    (hleaf : leafAt m' r virt = leafAt m r virt) :
    mmuWalk m' r virt = mmuWalk m r virt := by
  rw [mmuWalk_eq ht', mmuWalk_eq ht, hleaf]
  by_cases hl : LargePage (entryAt m r [pml4Index virt, pdptIndex virt] (pdIndex virt))
    ∨ LargePage (entryAt m' r [pml4Index virt, pdptIndex virt] (pdIndex virt))
  · rw [hlarge _ _ (by simp) hl]
  · rw [not_or] at hl
    simp only [hl.1, hl.2, if_false]

/-! ### The tables of stage 2 -/

/-- The frame of `pml4_table`. -/
def bootPml4 (pml4Table : BitVec 32) : Frame := frameOf (pml4Table.setWidth 64)

/-- The frame of `pdpt_table`, the next one. -/
def bootPdpt (pml4Table : BitVec 32) : Frame := frameOf ((pml4Table + 0x1000).setWidth 64)

/-- The frame of `pd_table`, the next one again. -/
def bootPd (pml4Table : BitVec 32) : Frame := frameOf ((pml4Table + 0x2000).setWidth 64)

/-- `mov eax, pdpt_table; or eax, 0b11`. -/
def bootPml4Entry (pml4Table : BitVec 32) : Pte := ((pml4Table + 0x1000) ||| 0b11).setWidth 64

/-- `mov eax, pd_table; or eax, 0b11`. -/
def bootPdptEntry (pml4Table : BitVec 32) : Pte := ((pml4Table + 0x2000) ||| 0b11).setWidth 64

/-- `.fill_pd`: the directory gets one page of 2 MB after the other. -/
def fillPd (m : PhysMem) (pd : Frame) (n : ℕ) : PhysMem × BitVec 32 :=
  (List.range n).foldl
    (fun st i => (st.1.store pd (BitVec.ofNat 9 i) (st.2.setWidth 64), st.2 + 0x200000))
    (m, 0b10000011)

/-- `setup_paging`. -/
def setupPaging (pml4Table : BitVec 32) (m : PhysMem) : PhysMem :=
  let m := m.zeroTable (bootPml4 pml4Table)
  let m := m.zeroTable (bootPdpt pml4Table)
  let m := m.zeroTable (bootPd pml4Table)
  let m := m.store (bootPml4 pml4Table) 0 (bootPml4Entry pml4Table)
  let m := m.store (bootPdpt pml4Table) 0 (bootPdptEntry pml4Table)
  (fillPd m (bootPd pml4Table) 512).1

/-- Where stage 2 keeps its tables: aligned, behind its load address and below 1 MB. -/
structure Stage2Tables (pml4Table : BitVec 32) : Prop where
  aligned : pml4Table.toNat % 4096 = 0
  loaded : 0x7E00 ≤ pml4Table.toNat
  low : pml4Table.toNat + 0x3000 ≤ 0x100000

/-- The entry for the `i`-th page of 2 MB. -/
def bootEntry (i : ℕ) : Pte := BitVec.ofNat 64 (0x83 + i * 0x200000)

lemma fillPd_eq {pd : Frame} {n : ℕ} (hn : n ≤ 512) :
    (fillPd m pd n).2 = BitVec.ofNat 32 (0x83 + n * 0x200000)
      ∧ ∀ f i, (fillPd m pd n).1.word f i
        = if f = pd ∧ i.toNat < n then bootEntry i.toNat else m.word f i := by
  induction n with
  | zero => simp [fillPd]
  | succ n ih =>
      obtain ⟨hacc, hword⟩ := ih (by omega)
      have hsucc : fillPd m pd (n + 1)
          = ((fillPd m pd n).1.store pd (BitVec.ofNat 9 n) ((fillPd m pd n).2.setWidth 64),
            (fillPd m pd n).2 + 0x200000) := by
        simp [fillPd, List.range_succ]
      have hentry : (BitVec.ofNat 32 (0x83 + n * 0x200000)).setWidth 64 = bootEntry n := by
        refine BitVec.eq_of_toNat_eq ?_
        rw [bootEntry, BitVec.toNat_setWidth, BitVec.toNat_ofNat, BitVec.toNat_ofNat]
        omega
      rw [hsucc]
      refine ⟨?_, fun f i => ?_⟩
      · dsimp only
        rw [hacc]
        refine BitVec.eq_of_toNat_eq ?_
        have hstep : (0x200000 : BitVec 32).toNat = 0x200000 := rfl
        rw [BitVec.toNat_add, BitVec.toNat_ofNat, BitVec.toNat_ofNat, hstep]
        omega
      · have hi : i = BitVec.ofNat 9 n ↔ i.toNat = n := by
          rw [← BitVec.toNat_inj, BitVec.toNat_ofNat, Nat.mod_eq_of_lt (by omega)]
        simp only [PhysMem.store_word, Radix.write, hword, hacc, hentry, hi]
        by_cases hn' : i.toNat = n
        · simp [hn']
        · have hlt : i.toNat < n + 1 ↔ i.toNat < n := by omega
          simp [hn', hlt]

/-- The flags of a page of 2 MB. -/
lemma bootEntry_flags {i : ℕ} (hi : i < 512) :
    Present (bootEntry i) ∧ Writable (bootEntry i) ∧ Large (bootEntry i)
      ∧ ¬ User (bootEntry i) := by
  have hbit : ∀ k < 21, (bootEntry i).getLsbD k = (0x83 : ℕ).testBit k := by
    intro k hk
    rw [← BitVec.testBit_toNat, bootEntry, BitVec.toNat_ofNat,
      Nat.mod_eq_of_lt (by omega), show 0x83 + i * 0x200000 = 2 ^ 21 * i + 0x83 by ring,
      Nat.testBit_two_pow_mul_add _ (by norm_num), if_pos hk]
  rw [present_iff, writable_iff, large_iff, user_iff, hbit 0 (by omega), hbit 1 (by omega),
    hbit 7 (by omega), hbit 2 (by omega)]
  decide

section

variable {pml4Table : BitVec 32}

namespace Stage2Tables

lemma toNat_frames (h : Stage2Tables pml4Table) :
    (bootPml4 pml4Table).toNat = pml4Table.toNat / 4096
      ∧ (bootPdpt pml4Table).toNat = pml4Table.toNat / 4096 + 1
      ∧ (bootPd pml4Table).toNat = pml4Table.toNat / 4096 + 2 := by
  have hal := h.aligned
  have hlow := h.low
  have h1 : (0x1000 : BitVec 32).toNat = 0x1000 := rfl
  have h2 : (0x2000 : BitVec 32).toNat = 0x2000 := rfl
  refine ⟨?_, ?_, ?_⟩
  · rw [bootPml4, toNat_frameOf, BitVec.toNat_setWidth]
    omega
  · rw [bootPdpt, toNat_frameOf, BitVec.toNat_setWidth, BitVec.toNat_add, h1]
    omega
  · rw [bootPd, toNat_frameOf, BitVec.toNat_setWidth, BitVec.toNat_add, h2]
    omega

lemma frames_ne (h : Stage2Tables pml4Table) :
    bootPdpt pml4Table ≠ bootPml4 pml4Table ∧ bootPd pml4Table ≠ bootPml4 pml4Table
      ∧ bootPd pml4Table ≠ bootPdpt pml4Table := by
  obtain ⟨h4, h3, h2⟩ := h.toNat_frames
  exact ⟨fun he => by rw [he] at h3; omega, fun he => by rw [he] at h2; omega,
    fun he => by rw [he] at h2; omega⟩

/-- The memory after `setup_paging`. -/
lemma word_eq (h : Stage2Tables pml4Table) (m : PhysMem) (f : Frame) (i : Idx) :
    (setupPaging pml4Table m).word f i =
      if f = bootPml4 pml4Table then if i = 0 then bootPml4Entry pml4Table else 0
      else if f = bootPdpt pml4Table then if i = 0 then bootPdptEntry pml4Table else 0
      else if f = bootPd pml4Table then bootEntry i.toNat
      else m.word f i := by
  obtain ⟨h43, h42, h32⟩ := h.frames_ne
  have hi : i.toNat < 512 := i.isLt
  unfold setupPaging
  rw [(fillPd_eq le_rfl).2]
  simp only [PhysMem.store_word, PhysMem.zeroTable_word, Radix.write, Radix.zeroed, hi, and_true]
  by_cases hf4 : f = bootPml4 pml4Table
  · simp [hf4, h43.symm, h42.symm]
  · by_cases hf3 : f = bootPdpt pml4Table
    · simp [hf3, h43, h32.symm]
    · by_cases hf2 : f = bootPd pml4Table
      · simp [hf2, h42, h32]
      · simp [hf4, hf3, hf2]

/-- The two links: a frame below 1 MB and no USER bit. -/
lemma links (h : Stage2Tables pml4Table) :
    child (bootPml4Entry pml4Table) = some (bootPdpt pml4Table)
      ∧ child (bootPdptEntry pml4Table) = some (bootPd pml4Table)
      ∧ Writable (bootPml4Entry pml4Table) ∧ Writable (bootPdptEntry pml4Table)
      ∧ ¬ User (bootPml4Entry pml4Table) ∧ ¬ User (bootPdptEntry pml4Table) := by
  have hlink : ∀ x : BitVec 32, x.toNat % 4096 = 0 →
      child ((x ||| 0b11).setWidth 64) = some (frameOf (x.setWidth 64))
        ∧ Writable ((x ||| 0b11).setWidth 64) ∧ ¬ User ((x ||| 0b11).setWidth 64) := by
    intro x hx
    have heq : (x ||| 0b11).setWidth 64 = x.setWidth 64 ||| parentFlags 0 := by
      rw [BitVec.setWidth_or]
      rfl
    have hal : (x.setWidth 64).toNat % 4096 = 0 := by
      rw [BitVec.toNat_setWidth]
      omega
    obtain ⟨hp, hw, hl, hu⟩ := link_entry 0 hal
    rw [heq]
    exact ⟨child_eq_some.mpr ⟨hp, hl, frameOf_or_parentFlags⟩, hw,
      fun h => absurd (hu.mp h) (by decide)⟩
  have hal := h.aligned
  have hlow := h.low
  have h1 : (0x1000 : BitVec 32).toNat = 0x1000 := rfl
  have h2 : (0x2000 : BitVec 32).toNat = 0x2000 := rfl
  obtain ⟨hc4, hw4, hu4⟩ := hlink (pml4Table + 0x1000) (by rw [BitVec.toNat_add, h1]; omega)
  obtain ⟨hc3, hw3, hu3⟩ := hlink (pml4Table + 0x2000) (by rw [BitVec.toNat_add, h2]; omega)
  exact ⟨hc4, hc3, hw4, hw3, hu4, hu3⟩

/-- The tables after `setup_paging`: nothing but the three. -/
def bootTable (pml4Table : BitVec 32) (q : List Idx) : Option Frame :=
  if q = [] then some (bootPml4 pml4Table) else if q = [0] then some (bootPdpt pml4Table)
  else if q = [0, 0] then some (bootPd pml4Table) else none

/-- The entries after `setup_paging`. -/
def bootSlot (pml4Table : BitVec 32) (q : List Idx) (j : Idx) : Pte :=
  if q = [] then if j = 0 then bootPml4Entry pml4Table else 0
  else if q = [0] then if j = 0 then bootPdptEntry pml4Table else 0
  else if q = [0, 0] then bootEntry j.toNat else 0

lemma slot_eq (h : Stage2Tables pml4Table) (m : PhysMem) {q : List Idx}
    (hq : tableAt (setupPaging pml4Table m) (bootPml4 pml4Table) q = bootTable pml4Table q)
    (j : Idx) :
    entryAt (setupPaging pml4Table m) (bootPml4 pml4Table) q j = bootSlot pml4Table q j := by
  obtain ⟨h43, h42, h32⟩ := h.frames_ne
  unfold bootTable at hq
  unfold bootSlot
  split_ifs at hq ⊢ with hq0 hj hq1 hj hq2 <;>
    first
    | rw [entryAt_of_none hq]
    | rw [entryAt_of_table hq, h.word_eq]
      simp_all

lemma tableAt_eq (h : Stage2Tables pml4Table) (m : PhysMem) : ∀ q, q.length ≤ 3 →
    tableAt (setupPaging pml4Table m) (bootPml4 pml4Table) q = bootTable pml4Table q := by
  obtain ⟨hc4, hc3, -⟩ := h.links
  refine Radix.walk_eq_of child_zero (S := bootSlot pml4Table) rfl (fun q j hq => ?_)
    fun q j _ hq => h.slot_eq m hq j
  have hlarge : child (bootEntry j.toNat) = none :=
    if_neg fun hl => hl.2 (bootEntry_flags j.isLt).2.2.1
  match q, hq with
  | [], _ => by_cases hj : j = 0#9 <;> simp [bootTable, bootSlot, hj, hc4]
  | [a], _ =>
      by_cases ha : a = 0#9 <;> by_cases hj : j = 0#9 <;>
        simp [bootTable, bootSlot, ha, hj, hc3]
  | [a, b], _ =>
      by_cases hab : a = 0#9 ∧ b = 0#9 <;> simp [bootTable, bootSlot, hab, hlarge]

lemma entryAt_eq (h : Stage2Tables pml4Table) (m : PhysMem) {q : List Idx} (hq : q.length ≤ 3)
    (j : Idx) :
    entryAt (setupPaging pml4Table m) (bootPml4 pml4Table) q j = bootSlot pml4Table q j :=
  h.slot_eq m (h.tableAt_eq m q hq) j

/-- **The tables of stage 2 are proper.** -/
theorem tables (h : Stage2Tables pml4Table) (m : PhysMem) :
    Tables (setupPaging pml4Table m) (bootPml4 pml4Table) := by
  obtain ⟨h4, h3, h2⟩ := h.toNat_frames
  obtain ⟨hc4, hc3, hw4, hw3, hu4, hu3⟩ := h.links
  have hlow := h.low
  refine ⟨fun p q f hp hq hwp hwq => ?_, fun q f hq hf => ?_, fun q j hq hpr => ?_,
    fun q j hq hl => ?_, fun q i j hq hu => ?_⟩
  · have hwp' : bootTable pml4Table p = some f := (h.tableAt_eq m p hp).symm.trans hwp
    have hwq' : bootTable pml4Table q = some f := (h.tableAt_eq m q hq).symm.trans hwq
    unfold bootTable at hwp' hwq'
    -- the three frames are three
    split_ifs at hwp' hwq' <;> simp only [Option.some.injEq] at hwp' hwq' <;>
      first
      | exfalso
        rw [← hwq'] at hwp'
        have := congrArg BitVec.toNat hwp'
        omega
      | simp [*]
  · have hf' : bootTable pml4Table q = some f := (h.tableAt_eq m q hq).symm.trans hf
    unfold bootTable at hf'
    split_ifs at hf' <;> simp only [Option.some.injEq] at hf' <;> subst hf' <;> omega
  · rw [h.entryAt_eq m (by omega)] at hpr ⊢
    unfold bootSlot at hpr ⊢
    split_ifs at hpr ⊢
    · exact hw4
    · simp at hpr
    · exact hw3
    · simp at hpr
    · exact (bootEntry_flags j.isLt).2.1
    · simp at hpr
  · rw [h.entryAt_eq m (by omega)] at hl
    unfold bootSlot at hl
    split_ifs at hl with h0 hj h1 hj h2
    · exact absurd hl.2 (child_eq_some.mp hc4).2.1
    · exact absurd hl.1 not_present_zero
    · exact absurd hl.2 (child_eq_some.mp hc3).2.1
    · exact absurd hl.1 not_present_zero
    · exact h2
    · exact absurd hl.1 not_present_zero
  · rw [h.entryAt_eq m (by simp; omega)] at hu
    unfold bootSlot at hu
    split_ifs at hu
    · exact absurd hu hu4
    · exact absurd hu not_user_zero
    · exact absurd hu hu3
    · exact absurd hu not_user_zero
    · exact absurd hu (bootEntry_flags j.isLt).2.2.2
    · exact absurd hu not_user_zero

end Stage2Tables

end

end KiOS
