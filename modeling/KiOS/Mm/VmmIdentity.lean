import KiOS.Mm.VmmRefinement

/-!
The VMM in the identity map of stage 2.

Below 1 GB the walk of the VMM does not stop at the pages of 2 MB. It takes the first 4 KB of
such a page for a page table, so that a lookup returns what happens to be in memory there and
`vmm_map_page` overwrites memory that belongs to somebody else.

* `IdentityAgrees`: the VMM agrees with the processor about an address below 1 GB;
* `IdentityMisread`: what it does instead. A lookup is right only by chance, and mapping never is;
* `identity_misread`: this is so for every address and every content of memory;
* `usertest_maps_in_vain`: what that means for the code page of `cmd_usertest`.
-/

namespace KiOS

/-- The memory after stage 2, with an empty log. -/
def booted (pml4Table : BitVec 32) (ram : PhysMem) : PhysMem where
  word := (setupPaging pml4Table ram).word
  dirty := fun _ _ => false

lemma booted_word (pml4Table : BitVec 32) (ram : PhysMem) :
    (booted pml4Table ram).word = (setupPaging pml4Table ram).word := by
  rw [booted]

/-- The frame the VMM takes for the page table of an address in the identity map. -/
def fakeTable (virt : BitVec 64) : Frame := BitVec.ofNat 52 (virt.toNat / 2 ^ 21 * 512)

section

variable {σ : Type}

/-- The VMM agrees with the processor about `virt`, and about `vmm_map_page(virt, phys, flags)` in
the state `m`. -/
structure IdentityAgrees (alloc : σ → BitVec 64 × σ) (pml4 : Frame) (m : PhysMem) (s : σ)
    (virt phys : BitVec 64) (flags : BitVec 32) : Prop where
  lookup : vmmVirtToPhys pml4 virt m = virt
  map_walk : (vmmMapPage alloc pml4 virt phys flags m s).1 = none →
    (mmuWalk (vmmMapPage alloc pml4 virt phys flags m s).2.1 pml4 virt).map Translation.phys
      = some (phys + (virt &&& 0xFFF))
  map_others : (vmmMapPage alloc pml4 virt phys flags m s).1 = none →
    ∀ w, Canonical w → vpage w ≠ vpage virt →
      (mmuWalk (vmmMapPage alloc pml4 virt phys flags m s).2.1 pml4 w).map Translation.phys
        = (mmuWalk m pml4 w).map Translation.phys
  map_writes : (vmmMapPage alloc pml4 virt phys flags m s).1 = none →
    ∀ f i, (vmmMapPage alloc pml4 virt phys flags m s).2.1.dirty f i = true →
      m.dirty f i = true ∨ ∃ q, q.length ≤ 3
        ∧ tableAt (vmmMapPage alloc pml4 virt phys flags m s).2.1 pml4 q = some f

variable {pml4Table : BitVec 32} {ram : PhysMem} {virt phys : BitVec 64} {flags : BitVec 32}

lemma tablePath_of_low (hv : virt.toNat < 2 ^ 30) :
    pml4Index virt = 0 ∧ pdptIndex virt = 0 ∧ (pdIndex virt).toNat = virt.toNat / 2 ^ 21 := by
  refine ⟨?_, ?_, ?_⟩
  · refine BitVec.eq_of_toNat_eq ?_
    rw [pml4Index, toNat_index]
    simp
    omega
  · refine BitVec.eq_of_toNat_eq ?_
    rw [pdptIndex, toNat_index]
    simp
    omega
  · rw [pdIndex, toNat_index]
    omega

/-- Where a page of 2 MB starts. -/
lemma frameOf_bootEntry (virt : BitVec 64) :
    frameOf (bootEntry (virt.toNat / 2 ^ 21)) = fakeTable virt := by
  refine BitVec.eq_of_toNat_eq ?_
  rw [toNat_frameOf, bootEntry, fakeTable, BitVec.toNat_ofNat, BitVec.toNat_ofNat]
  omega

/-- The VMM takes the first frame of a page of 2 MB for a page table. -/
lemma softWalk_booted (ram : PhysMem) (hboot : Stage2Tables pml4Table) (hv : virt.toNat < 2 ^ 30) :
    Radix.walk softChild (booted pml4Table ram).word (bootPml4 pml4Table) (tablePath virt)
      = some (fakeTable virt) := by
  obtain ⟨h4, h3, h2⟩ := tablePath_of_low hv
  obtain ⟨hc4, hc3, -⟩ := hboot.links
  obtain ⟨h43, h42, h32⟩ := hboot.frames_ne
  have hs4 : softChild (bootPml4Entry pml4Table) = some (bootPdpt pml4Table) := by
    rw [softChild_eq fun hl => (child_eq_some.mp hc4).2.1 hl.2, hc4]
  have hs3 : softChild (bootPdptEntry pml4Table) = some (bootPd pml4Table) := by
    rw [softChild_eq fun hl => (child_eq_some.mp hc3).2.1 hl.2, hc3]
  have hs2 : softChild (bootEntry (virt.toNat / 2 ^ 21)) = some (fakeTable virt) := by
    rw [softChild, if_pos (bootEntry_flags (by omega)).1, frameOf_bootEntry]
  simp only [tablePath, Radix.walk, h4, h3, booted, hboot.word_eq, if_true, hs4, Option.bind_some,
    h43, if_false, hs3, h42, h32, h2, hs2]

/-- The USER bit does not matter to where the processor goes. -/
lemma mmuFrame_or_pageUser {e : Pte} : mmuFrame (e ||| pageUser) = mmuFrame e := by
  have hmask : pageUser &&& 0x000FFFFFFFFFF000 = 0#64 := by decide
  rw [mmuFrame, mmuFrame, BitVec.and_or_distrib_right, hmask, BitVec.or_zero]

/-- Where a page of 2 MB of stage 2 leads. -/
lemma phys_bootEntry {w u : Bool} : (largePage (bootEntry (pdIndex virt).toNat) virt w u).phys
    = BitVec.ofNat 64 (virt.toNat % 2 ^ 30) := by
  have hidx : (pdIndex virt).toNat = virt.toNat / 2 ^ 21 % 512 := toNat_index
  have hlt := (pdIndex virt).isLt
  have hmask : (0x000FFFFFFFE00000 : BitVec 64).toNat = 2 ^ 21 * (2 ^ 31 - 1) := rfl
  have hlow : (0x1FFFFF : BitVec 64).toNat = 2 ^ 21 - 1 := rfl
  have hentry : (bootEntry (pdIndex virt).toNat).toNat
      = 2 ^ 21 * (pdIndex virt).toNat + 0x83 := by
    rw [bootEntry, BitVec.toNat_ofNat]
    omega
  have hand : (2 ^ 21 * (pdIndex virt).toNat + 0x83) &&& (2 ^ 21 * (2 ^ 31 - 1))
      = 2 ^ 21 * (pdIndex virt).toNat := by
    refine Nat.eq_of_testBit_eq fun i => ?_
    rw [Nat.testBit_and, Nat.testBit_two_pow_mul_add _ (by norm_num), Nat.testBit_two_pow_mul,
      Nat.testBit_two_pow_mul, Nat.testBit_two_pow_sub_one]
    by_cases hi : i < 21
    · simp [show ¬ 21 ≤ i by omega]
    · rw [if_neg hi]
      by_cases hi' : i - 21 < 31
      · simp [show 21 ≤ i by omega, hi']
      · rw [Nat.testBit_lt_two_pow (lt_of_lt_of_le hlt (Nat.pow_le_pow_right (by norm_num)
          (show 9 ≤ i - 21 by omega)))]
        simp
  refine BitVec.eq_of_toNat_eq ?_
  simp only [largePage]
  rw [BitVec.toNat_or, BitVec.toNat_and, BitVec.toNat_and, hentry, hlow,
    Nat.and_two_pow_sub_one_eq_mod, BitVec.toNat_ofNat, hmask, hand,
    ← Nat.two_pow_add_eq_or_of_lt (Nat.mod_lt _ (by norm_num)), hidx]
  omega

lemma largePage_or_pageUser {e : Pte} {w u : Bool} :
    (largePage (e ||| pageUser) virt w u).phys = (largePage e virt w u).phys := by
  have hmask : pageUser &&& 0x000FFFFFFFE00000 = 0#64 := by decide
  simp only [largePage]
  rw [BitVec.and_or_distrib_right, hmask, BitVec.or_zero]

/-- The tables of stage 2 map the first gigabyte to itself, whatever USER bits they got. -/
lemma mmuWalk_booted (hboot : Stage2Tables pml4Table) {m : PhysMem}
    (h : ∀ f i, f = bootPml4 pml4Table ∨ f = bootPdpt pml4Table ∨ f = bootPd pml4Table →
      m.word f i = (booted pml4Table ram).word f i
        ∨ m.word f i = (booted pml4Table ram).word f i ||| pageUser) (virt : BitVec 64) :
    (mmuWalk m (bootPml4 pml4Table) virt).map Translation.phys
      = if pml4Index virt = 0 ∧ pdptIndex virt = 0 then some (BitVec.ofNat 64 (virt.toNat % 2 ^ 30))
        else none := by
  obtain ⟨hc4, hc3, -⟩ := hboot.links
  obtain ⟨hf4, hf3, hf2⟩ := hboot.toNat_frames
  obtain ⟨h43, h42, h32⟩ := hboot.frames_ne
  have hlow := hboot.low
  have hframe : ∀ {e : Pte} {f : Frame}, child e = some f → f.toNat < 2 ^ 40 →
      Present e ∧ ¬ Large e ∧ mmuFrame e = f := fun {e f} he hlt => by
    obtain ⟨hp, hl, rfl⟩ := child_eq_some.mp he
    exact ⟨hp, hl, mmuFrame_eq hlt⟩
  obtain ⟨hp4, -, hm4⟩ := hframe hc4 (by omega)
  obtain ⟨hp3, hl3, hm3⟩ := hframe hc3 (by omega)
  obtain ⟨hp2, -, hl2, -⟩ := bootEntry_flags (pdIndex virt).isLt
  have hnu : ¬ Present pageUser := by decide
  -- the three words on the way, each as stage 2 left it or with the USER bit
  have w4 := h (bootPml4 pml4Table) (pml4Index virt) (Or.inl rfl)
  have w3 := h (bootPdpt pml4Table) (pdptIndex virt) (Or.inr (Or.inl rfl))
  have w2 := h (bootPd pml4Table) (pdIndex virt) (Or.inr (Or.inr rfl))
  simp only [booted, hboot.word_eq, if_true, h43, h42, h32, if_false] at w4 w3 w2
  unfold mmuWalk
  by_cases h4 : pml4Index virt = 0
  swap
  · have hno : ¬ (pml4Index virt = 0 ∧ pdptIndex virt = 0) := fun h' => h4 h'.1
    rw [if_neg h4] at w4
    rw [if_neg hno]
    rcases w4 with w4 | w4 <;> simp [w4, hnu]
  rw [if_pos h4] at w4
  by_cases h3 : pdptIndex virt = 0
  swap
  · have hno : ¬ (pml4Index virt = 0 ∧ pdptIndex virt = 0) := fun h' => h3 h'.2
    rw [if_neg h3] at w3
    rw [if_neg hno]
    rcases w4 with w4 | w4 <;> rcases w3 with w3 | w3 <;>
      simp [hp4, present_or_pageUser, mmuFrame_or_pageUser, hm4, w4, w3, hnu]
  rw [if_pos h3] at w3
  rw [if_pos (show pml4Index virt = 0 ∧ pdptIndex virt = 0 from ⟨h4, h3⟩)]
  rcases w4 with w4 | w4 <;> rcases w3 with w3 | w3 <;> rcases w2 with w2 | w2 <;>
    simp only [w4, w3, w2, hp4, hp3, hp2, hl3, hl2, present_or_pageUser, large_or_pageUser,
      mmuFrame_or_pageUser, hm4, hm3, largePage_or_pageUser, phys_bootEntry, not_true,
      if_false, if_true, Option.map_some]

lemma toNat_fakeTable (hv : virt.toNat < 2 ^ 30) :
    (fakeTable virt).toNat = virt.toNat / 2 ^ 21 * 512 := by
  rw [fakeTable, BitVec.toNat_ofNat]
  omega

/-- No table lies where the VMM finds one: the tables are below 1 MB, but not in page 0. -/
lemma ne_fakeTable (hboot : Stage2Tables pml4Table) (hv : virt.toNat < 2 ^ 30) {f : Frame}
    (hf : f = bootPml4 pml4Table ∨ f = bootPdpt pml4Table ∨ f = bootPd pml4Table) :
    f ≠ fakeTable virt := by
  rintro rfl
  obtain ⟨h4, h3, h2⟩ := hboot.toNat_frames
  have hlow := hboot.low
  have hloaded := hboot.loaded
  have hfake := toNat_fakeTable hv
  rcases hf with hf | hf | hf <;> rw [hf] at hfake <;> omega

lemma tableAt_ne_fakeTable (hboot : Stage2Tables pml4Table) (hv : virt.toNat < 2 ^ 30)
    {q : List Idx} (hq : q.length ≤ 3) :
    tableAt (booted pml4Table ram) (bootPml4 pml4Table) q ≠ some (fakeTable virt) := by
  have htable := hboot.tableAt_eq ram q hq
  rw [tableAt, ← booted_word, Stage2Tables.bootTable] at htable
  intro hf
  rw [tableAt, htable] at hf
  split_ifs at hf <;> simp only [Option.some.injEq] at hf
  · exact ne_fakeTable hboot hv (Or.inl rfl) hf
  · exact ne_fakeTable hboot hv (Or.inr (Or.inl rfl)) hf
  · exact ne_fakeTable hboot hv (Or.inr (Or.inr rfl)) hf

/-- The one word a call writes, apart from USER bits. -/
lemma vmmMapPage_booted (ram : PhysMem) (phys : BitVec 64) (flags : BitVec 32)
    (hboot : Stage2Tables pml4Table) (hv : virt.toNat < 2 ^ 30)
    (alloc : σ → BitVec 64 × σ) (s : σ) :
    ∃ m₁ : PhysMem, vmmMapPage alloc (bootPml4 pml4Table) virt phys flags (booted pml4Table ram) s
        = (none, m₁.store (fakeTable virt) (ptIndex virt) (mapEntry phys flags), s)
      ∧ ∀ f i, m₁.word f i = (booted pml4Table ram).word f i
        ∨ m₁.word f i = (booted pml4Table ram).word f i ||| pageUser := by
  obtain ⟨m₁, hdesc, hword⟩ := vmmDescend_present flags alloc s
    (softWalk_booted ram hboot hv)
  refine ⟨m₁, ?_, hword⟩
  rw [vmmMapPage, vmmGetPteFlags, hdesc]
  rfl

/-- What `vmm_virt_to_phys` and `vmm_map_page` really do at `virt`. -/
structure IdentityMisread (alloc : σ → BitVec 64 × σ) (pml4 : Frame) (m : PhysMem) (s : σ)
    (virt phys : BitVec 64) (flags : BitVec 32) : Prop where
  /-- The processor maps the address to itself. -/
  walk : (mmuWalk m pml4 virt).map Translation.phys = some virt
  /-- A lookup reports what is in memory at the page of 2 MB. -/
  lookup : vmmVirtToPhys pml4 virt m = virt ↔
    if Present (m.word (fakeTable virt) (ptIndex virt))
      then m.word (fakeTable virt) (ptIndex virt) &&& ~~~(0xFFF : BitVec 64)
        = virt &&& ~~~(0xFFF : BitVec 64)
      else virt = 0
  /-- Mapping reports success and changes the way of no address. -/
  map_walk : (vmmMapPage alloc pml4 virt phys flags m s).1 = none
    ∧ ∀ w, (mmuWalk (vmmMapPage alloc pml4 virt phys flags m s).2.1 pml4 w).map Translation.phys
      = (mmuWalk m pml4 w).map Translation.phys
  /-- What it writes is a word of ordinary memory. -/
  map_writes : (vmmMapPage alloc pml4 virt phys flags m s).2.1.word (fakeTable virt) (ptIndex virt)
      = mapEntry phys flags
    ∧ (vmmMapPage alloc pml4 virt phys flags m s).2.1.dirty (fakeTable virt) (ptIndex virt) = true
    ∧ ∀ q, q.length ≤ 3 →
      tableAt (vmmMapPage alloc pml4 virt phys flags m s).2.1 pml4 q ≠ some (fakeTable virt)

/-- Splitting an address into page and offset. -/
lemma or_offset_eq_iff {x : BitVec 64} :
    (x &&& ~~~(0xFFF : BitVec 64)) ||| (virt &&& 0xFFF) = virt
      ↔ x &&& ~~~(0xFFF : BitVec 64) = virt &&& ~~~(0xFFF : BitVec 64) := by
  have hdown : ∀ y : BitVec 64, (y &&& ~~~(0xFFF : BitVec 64)).toNat = y.toNat / 4096 * 4096 :=
    fun y => BitVec.toNat_alignDown (k := 12)
  have hmask : (0xFFF : BitVec 64).toNat = 2 ^ 12 - 1 := rfl
  have hoff : (virt &&& 0xFFF).toNat = virt.toNat % 4096 := by
    rw [BitVec.toNat_and, hmask, Nat.and_two_pow_sub_one_eq_mod]
  have hx := x.isLt
  rw [or_eq_add (by rw [hdown]; omega) toNat_offset, ← BitVec.toNat_inj, ← BitVec.toNat_inj,
    BitVec.toNat_add, hdown, hdown, hoff]
  omega

/-- **The VMM never agrees with the processor below 1 GB**: whatever is in memory and whatever is
mapped where, mapping a page overwrites a word that belongs to no page table. -/
theorem identity_misread (hboot : Stage2Tables pml4Table) (ram : PhysMem)
    (hv : virt.toNat < 2 ^ 30) (alloc : σ → BitVec 64 × σ) (s : σ) (phys : BitVec 64)
    (flags : BitVec 32) :
    IdentityMisread alloc (bootPml4 pml4Table) (booted pml4Table ram) s virt phys flags
      ∧ ¬ IdentityAgrees alloc (bootPml4 pml4Table) (booted pml4Table ram) s virt phys flags := by
  have hmis : IdentityMisread alloc (bootPml4 pml4Table) (booted pml4Table ram) s virt phys
      flags := by
    obtain ⟨m₁, heq, hword⟩ := vmmMapPage_booted ram phys flags hboot hv alloc s
    have hwalk : ∀ q, tableAt m₁ (bootPml4 pml4Table) q
        = tableAt (booted pml4Table ram) (bootPml4 pml4Table) q := fun q =>
      Radix.walk_of_child_eq fun f i => by
        rcases hword f i with h | h <;> rw [h]
        exact child_or_pageUser
    have hself : pml4Index virt = 0 ∧ pdptIndex virt = 0 :=
      ⟨(tablePath_of_low hv).1, (tablePath_of_low hv).2.1⟩
    refine ⟨?_, ?_, ⟨by rw [heq], fun w => ?_⟩, ?_⟩
    · rw [mmuWalk_booted hboot (fun _ _ _ => Or.inl rfl), if_pos hself, Option.some.injEq]
      refine BitVec.eq_of_toNat_eq ?_
      rw [BitVec.toNat_ofNat]
      omega
    · rw [vmmVirtToPhys, vmmGetPte_eq, softWalk_booted ram hboot hv]
      simp only [Option.map_some, Present, ne_eq]
      by_cases hpr : (booted pml4Table ram).word (fakeTable virt) (ptIndex virt) &&& pagePresent = 0
      · simp only [hpr, if_true, not_true, if_false]
        exact eq_comm
      · simp only [hpr, if_false, not_false_eq_true, if_true]
        exact or_offset_eq_iff
    · have hstore : ∀ f i,
          f = bootPml4 pml4Table ∨ f = bootPdpt pml4Table ∨ f = bootPd pml4Table →
          (m₁.store (fakeTable virt) (ptIndex virt) (mapEntry phys flags)).word f i
            = m₁.word f i := fun f i hf => by
        rw [PhysMem.store_word, Radix.write, if_neg fun h => ne_fakeTable hboot hv hf h.1]
      rw [heq, mmuWalk_booted hboot (fun _ _ _ => Or.inl rfl),
        mmuWalk_booted hboot fun f i hf => by rw [hstore f i hf]; exact hword f i]
    · rw [heq]
      refine ⟨by simp [Radix.write], by simp [PhysMem.store], fun q hq => ?_⟩
      rw [tableAt, PhysMem.store_word, (Radix.slot_write_of_apart child_zero fun q hq => ?_).1 q hq]
      all_goals exact fun h => tableAt_ne_fakeTable hboot hv hq ((hwalk q).symm.trans h)
  refine ⟨hmis, fun h => ?_⟩
  obtain ⟨-, hdirty, hne⟩ := hmis.map_writes
  rcases h.map_writes hmis.map_walk.1 _ _ hdirty with h' | ⟨q, hq, h'⟩
  · cases h'
  · exact hne q hq h'

end

/-- The statement for the code page of `cmd_usertest`. -/
theorem identity_misread_usertest :
    IdentityMisread pageScript.alloc (bootPml4 0x9000) (booted 0x9000 zeroRam)
        [] 0x400000 0x200000 7
      ∧ ¬ IdentityAgrees pageScript.alloc (bootPml4 0x9000) (booted 0x9000 zeroRam) [] 0x400000
        0x200000 7 :=
  identity_misread stage2Tables_9000 zeroRam (by decide) pageScript.alloc [] 0x200000 7

/-- **`cmd_usertest` maps its code page in vain**: at boot `0x400000` is not mapped for the VMM,
and the call that reports success leaves the processor at `0x400000`, not at `0x200000`. -/
theorem usertest_maps_in_vain :
    vmmVirtToPhys (bootPml4 0x9000) 0x400000 (booted 0x9000 zeroRam) = 0
      ∧ (mmuWalk (vmmMapPage pageScript.alloc (bootPml4 0x9000) 0x400000 0x200000 7
          (booted 0x9000 zeroRam) []).2.1 (bootPml4 0x9000) 0x400000).map Translation.phys
        = some 0x400000
      ∧ ¬ IdentityAgrees pageScript.alloc (bootPml4 0x9000) (booted 0x9000 zeroRam) [] 0x400000
        0x200000 7 := by
  have hlookup : vmmVirtToPhys (bootPml4 0x9000) 0x400000 (booted 0x9000 zeroRam) = 0 := by
    decide +kernel
  refine ⟨hlookup, by decide +kernel, fun h => ?_⟩
  have hagree := h.lookup
  rw [hlookup] at hagree
  exact absurd hagree (by decide)

end KiOS
