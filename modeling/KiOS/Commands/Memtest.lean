import KiOS.Commands.Holding

/-!
What `cmd_memtest` leaves behind.

* `memtestAlloc_triple`, `memtestMap_triple`: the tests that run out of pages. They return with all
  that they have got;
* `memtestWrite_triple`, `memtestVerify_triple`, `memtestUnmap_triple`, `memtestFree_triple`: the
  tests that succeed once the pages are mapped;
* `MemtestServed`: the condition: no page is free, or enough for the pages and their tables;
* `cmdMemtest_triple`: the command returns, and leaves nothing behind exactly under the condition.
-/

namespace KiOS

open Program Command

/-! ### The pages of `memtest` -/

section

variable {pml4 : Frame} {s₀ : HeapRun Pmm} {i j : ℕ} {v : VPage}

lemma toNat_memtestAddr (hi : i < testPages) :
    (memtestAddr i).toNat = 0xFFFF900000000000 + i * 4096 := by
  have hbase : (0xFFFF900000000000 : BitVec 64).toNat = 0xFFFF900000000000 := rfl
  unfold testPages at hi
  rw [memtestAddr, BitVec.toNat_add, BitVec.toNat_ofNat, hbase]
  omega

/-- All test pages have one page table, and the PML4 leads to it outside the identity map. -/
lemma memtestAddr_walk (hi : i < testPages) :
    pml4Index (memtestAddr i) ≠ 0 ∧ tablePath (memtestAddr i) = tablePath (memtestAddr 0) := by
  have haddr := toNat_memtestAddr hi
  have hzero := toNat_memtestAddr (i := 0) (by decide)
  unfold testPages at hi
  refine ⟨fun h0 => ?_, ?_⟩
  · have hidx : (pml4Index (memtestAddr i)).toNat = (memtestAddr i).toNat / 2 ^ 39 % 512 :=
      toNat_index
    rw [h0] at hidx
    simp at hidx
    omega
  · simp only [tablePath, List.cons.injEq, and_true, ← BitVec.toNat_inj, pml4Index, pdptIndex,
      pdIndex, toNat_index, haddr, hzero]
    omega

lemma missing_memtestAddr (hi : i < testPages) (m : PhysMem) :
    missing m pml4 (memtestAddr i) = missing m pml4 (memtestAddr 0) := by
  rw [missing, missing, (memtestAddr_walk hi).2]

/-- The test pages are pages of their own. -/
lemma memtestAddr_inj (hi : i < testPages) (hj : j < testPages)
    (h : vpage (memtestAddr i) = vpage (memtestAddr j)) : i = j := by
  have h1 := toNat_memtestAddr hi
  have h2 := toNat_memtestAddr hj
  unfold testPages at hi hj
  rw [vpage_eq_iff_of_canonical (Or.inr (by omega)) (Or.inr (by omega))] at h
  omega

/-- **Test 1** ends with all pages, or with all that there were. -/
lemma memtestAlloc_triple (h₀ : VmmOk pmmFrames pml4 s₀.kernel.mem s₀.kernel.pmm) :
    Triple (fun s => s = s₀) memtestAlloc
      (fun pages s => OnlyTaken pml4 s₀ pages s ∧ pages.length = testPages)
      (fun e s => e = .returned ∧ s₀.kernel.pmm.freePages < testPages
        ∧ ∃ pages, OnlyTaken pml4 s₀ pages s ∧ pages.length = s₀.kernel.pmm.freePages) := by
  refine (Triple.foldlM (fun p pages s => OnlyTaken pml4 s₀ pages s ∧ pages.length = p.length)
    ?_).conseq ?_ ?_ fun _ _ h => h
  · intro p b r pages hl
    obtain ⟨rfl, hb⟩ := range_prefix hl
    refine Triple.assume fun hlen => Triple.bind (OnlyTaken.alloc_triple pml4 s₀ pages) fun page =>
      Triple.bind (Q := fun _ => OnlyTaken pml4 s₀ (pages ++ [page]))
        (Triple.stopIf (fun h0 s hs => ?_) fun hne s hs => hs.2 hne) fun _ =>
        Triple.pure fun s hs => ⟨hs, by simp [hlen]⟩
    obtain ⟨hs, hall⟩ := hs.1 h0
    exact ⟨rfl, by omega, pages, hs, hall⟩
  · rintro s rfl
    exact ⟨OnlyTaken.nil h₀, rfl⟩
  · rintro pages s ⟨hs, hlen⟩
    exact ⟨hs, by rwa [List.length_range] at hlen⟩

lemma memtestAddr_offset (hi : i < testPages) : memtestAddr i &&& 0xFFF = 0 := by
  have haddr := toNat_memtestAddr hi
  have hmask : (0xFFF : BitVec 64).toNat = 2 ^ 12 - 1 := rfl
  refine BitVec.eq_of_toNat_eq ?_
  rw [BitVec.toNat_and, hmask, Nat.and_two_pow_sub_one_eq_mod, haddr]
  simp

/-- The first `n` test pages are mapped, and nothing else. -/
structure MappedUpTo (pages : List (BitVec 64)) (n : ℕ) (mapped : VPage → Option Pte) : Prop where
  entry : ∀ j < n, mapped (vpage (memtestAddr j)) = some (mapEntry (pages.getD j 0) 3)
  only : ∀ v e, mapped v = some e → ∃ j < n, v = vpage (memtestAddr j)

lemma MappedUpTo.succ {pages : List (BitVec 64)} {mapped : VPage → Option Pte}
    (h : MappedUpTo pages i mapped) (hi : i < testPages) :
    MappedUpTo pages (i + 1) (Function.update mapped (vpage (memtestAddr i))
      (some (mapEntry (pages.getD i 0) 3))) := by
  refine ⟨fun j hj => ?_, fun v e hv => ?_⟩
  · rcases (Nat.lt_succ_iff.mp hj).eq_or_lt with rfl | hlt
    · exact Function.update_self ..
    · rw [Function.update_of_ne fun heq => hlt.ne (memtestAddr_inj (by omega) hi heq)]
      exact h.entry j hlt
  · by_cases hvi : v = vpage (memtestAddr i)
    · exact ⟨i, Nat.lt_succ_self i, hvi⟩
    · rw [Function.update_of_ne hvi] at hv
      obtain ⟨j, hj, hvj⟩ := h.only v e hv
      exact ⟨j, by omega, hvj⟩

variable {pages : List (BitVec 64)} {s : HeapRun Pmm} {mapped : VPage → Option Pte}

/-- The entry of a page that is mapped. -/
lemma Holding.leaf_memtestAddr (h : Holding pml4 s₀ pages mapped s) {e : Pte}
    (he : mapped (vpage (memtestAddr i)) = some e) :
    leafAt s.kernel.mem pml4 (memtestAddr i) = e := by
  rw [h.footprint.leaf, he, Option.getD_some]

/-- What `vmm_virt_to_phys` says of a test page. -/
lemma Holding.lookup_memtestAddr (h : Holding pml4 s₀ pages mapped s) (hi : i < testPages) :
    vmmVirtToPhys pml4 (memtestAddr i) s.kernel.mem
      = if Present (leafAt s.kernel.mem pml4 (memtestAddr i)) then
          leafAt s.kernel.mem pml4 (memtestAddr i) &&& ~~~(0xFFF : BitVec 64)
        else 0 := by
  have hnl := h.footprint.ok.tables.not_hitsLarge (memtestAddr_walk hi).1
  have hzero : ∀ x : BitVec 64, x ||| 0 = x := fun _ => BitVec.or_zero
  rw [vmmVirtToPhys_eq h.footprint.ok.tables hnl, memtestAddr_offset hi, hzero]

/-- Where the processor finds a test page. -/
lemma Holding.walk_memtestAddr (h : Holding pml4 s₀ pages mapped s) (hi : i < testPages)
    (hlen : i < pages.length)
    (he : mapped (vpage (memtestAddr i)) = some (mapEntry (pages.getD i 0) 3)) :
    ∃ t, mmuWalk s.kernel.mem pml4 (memtestAddr i) = some t ∧ t.phys = pages.getD i 0 :=
  h.footprint.walk_of_mapped (h.pageFrame hlen) (memtestAddr_walk hi).1 (memtestAddr_offset hi) he

variable (s₀) in
/-- **Test 2** maps all pages, if there are pages for the tables as well. -/
lemma memtestMap_triple (hlen : pages.length = testPages) :
    Triple (OnlyTaken pml4 s₀ pages) ((List.range testPages).forM (memtestMap pml4 pages))
      (fun _ s => (∃ mapped, Holding pml4 s₀ pages mapped s ∧ MappedUpTo pages testPages mapped)
        ∧ testPages + missing s₀.kernel.mem pml4 (memtestAddr 0) ≤ s₀.kernel.pmm.freePages)
      (fun e s => e = .returned ∧ testPages ≤ s₀.kernel.pmm.freePages
        ∧ s₀.kernel.pmm.freePages < testPages + missing s₀.kernel.mem pml4 (memtestAddr 0)
        ∧ ∃ mapped, Holding pml4 s₀ pages mapped s ∧ MappedUpTo pages 0 mapped) := by
  let I (p : List ℕ) (s : HeapRun Pmm) : Prop :=
    (∃ mapped, Holding pml4 s₀ pages mapped s ∧ MappedUpTo pages p.length mapped)
    ∧ (p = [] → s.kernel.pmm.freePages + testPages = s₀.kernel.pmm.freePages
      ∧ s.kernel.mem = s₀.kernel.mem)
    ∧ (p ≠ [] → missing s.kernel.mem pml4 (memtestAddr 0) = 0
      ∧ testPages + missing s₀.kernel.mem pml4 (memtestAddr 0) ≤ s₀.kernel.pmm.freePages)
  let F (s : HeapRun Pmm) : Prop :=
    testPages ≤ s₀.kernel.pmm.freePages
    ∧ s₀.kernel.pmm.freePages < testPages + missing s₀.kernel.mem pml4 (memtestAddr 0)
    ∧ ∃ mapped, Holding pml4 s₀ pages mapped s ∧ MappedUpTo pages 0 mapped
  refine (Triple.forM I fun p b r hl => ?_).conseq ?_ ?_ fun _ _ h => h
  · obtain ⟨rfl, hb⟩ := range_prefix hl
    have hpage : p.length < pages.length := hlen ▸ hb
    obtain ⟨hne, hpath⟩ := memtestAddr_walk hb
    refine Triple.bind (Q := fun _ s => I (p ++ [p.length]) s
        ∧ leafAt s.kernel.mem pml4 (memtestAddr p.length) = mapEntry (pages.getD p.length 0) 3
      ∨ F s ∧ ¬ Present (leafAt s.kernel.mem pml4 (memtestAddr p.length))) (Triple.step ?_) fun _ =>
      Triple.bind (Q := fun resolved s => if resolved = pages.getD p.length 0 then
        I (p ++ [p.length]) s else F s) (Triple.step ?_) fun resolved => Triple.stopIf ?_ ?_
    · rintro s ⟨⟨mapped, hs, hm⟩, hfirst, hlater⟩
      obtain ⟨err, m, q, heq, hok, hs'⟩ := hs.map (pages.getD p.length 0) 3 hne
      dsimp only
      rw [heq]
      by_cases herr : err = none
      · subst herr
        rw [if_pos rfl] at hs'
        have hm' := hm.succ hb
        refine Or.inl ⟨⟨⟨_, hs', by simpa using hm'⟩, by simp, fun _ => ⟨?_, ?_⟩⟩,
          hs'.leaf_memtestAddr (hm'.entry _ (Nat.lt_succ_self _))⟩
        · rw [missing_eq_zero_iff, ← hpath]
          exact hok.table rfl
        · by_cases hp : p = []
          · obtain ⟨hfree, hmem⟩ := hfirst hp
            have hspent : q.freePages + missing s.kernel.mem pml4 (memtestAddr p.length)
                = s.kernel.pmm.freePages := hok.free rfl
            rw [missing_memtestAddr hb, hmem] at hspent
            omega
          · exact (hlater hp).2
      · -- only the first page can lack a table
        rw [if_neg herr] at hs'
        have hshort : s.kernel.pmm.freePages < missing s.kernel.mem pml4 (memtestAddr p.length) :=
          hok.fails_iff.mp herr
        rw [missing_memtestAddr hb] at hshort
        have hp : p = [] := by
          by_contra hp
          rw [(hlater hp).1] at hshort
          omega
        obtain ⟨hfree, hmem⟩ := hfirst hp
        rw [hmem] at hshort
        refine Or.inr ⟨⟨by omega, by omega, mapped, hs', by simpa [hp] using hm⟩, ?_⟩
        exact hok.not_present herr
    · rintro s (⟨hI, hleaf⟩ | ⟨hF, hleaf⟩)
      · obtain ⟨mapped, hs, -⟩ := hI.1
        dsimp only
        rw [hs.lookup_memtestAddr hb, hleaf, if_pos present_mapEntry,
          frame_mapEntry (hs.pageFrame hpage) plainFlags_three, if_pos rfl]
        exact hI
      · obtain ⟨mapped, hs, -⟩ := hF.2.2
        dsimp only
        rw [hs.lookup_memtestAddr hb, if_neg hleaf, if_neg (hs.pageFrame hpage).pos.symm]
        exact hF
    · intro hr s hs
      rw [if_neg hr] at hs
      exact ⟨rfl, hs⟩
    · intro hr s hs
      rw [if_pos (not_not.mp hr)] at hs
      exact hs
  · intro s hs
    exact ⟨⟨_, hs.holding, by simp, by simp⟩, fun _ => ⟨hlen ▸ hs.free, hs.mem⟩,
      fun h => absurd rfl h⟩
  · rintro - s ⟨hs, -, hlater⟩
    rw [List.length_range] at hs
    exact ⟨hs, (hlater (by simp [testPages])).2⟩

/-- The word at the start of a page. -/
lemma PageFrame.wordIndex {phys : BitVec 64} (h : PageFrame phys) : wordIndex phys = 0 := by
  have hal := h.aligned
  refine BitVec.eq_of_toNat_eq ?_
  rw [KiOS.wordIndex, BitVec.extractLsb'_toNat, Nat.shiftRight_eq_div_pow]
  simp
  omega

/-- All pages are mapped, and the first `n` ones hold their words. -/
def Written (pml4 : Frame) (s₀ : HeapRun Pmm) (pages : List (BitVec 64)) (n : ℕ)
    (s : HeapRun Pmm) : Prop :=
  (∃ mapped, Holding pml4 s₀ pages mapped s ∧ MappedUpTo pages testPages mapped)
    ∧ ∀ j < n, s.kernel.mem.word (frameOf (pages.getD j 0)) 0 = memtestPattern j

variable (s₀) in
/-- **Test 3** writes to all pages and reads them back. -/
lemma memtestWrite_triple {E : CommandStop → HeapRun Pmm → Prop} (hlen : pages.length = testPages) :
    Triple (Written pml4 s₀ pages 0) ((List.range testPages).forM (memtestWrite pml4))
      (fun _ => Written pml4 s₀ pages testPages) E := by
  refine (Triple.forM (fun p => Written pml4 s₀ pages p.length) fun p b r hl => ?_).conseq
    (fun s hs => hs) (fun _ s hs => by rwa [List.length_range] at hs) fun _ _ h => h
  obtain ⟨rfl, hb⟩ := range_prefix hl
  have hpage : p.length < pages.length := hlen ▸ hb
  rw [memtestWrite, storeWord]
  refine access_triple (fun s hs hnone => ?_) fun s t hs hwalk => ?_
  all_goals
    obtain ⟨⟨mapped, hs, hm⟩, hword⟩ := hs
    obtain ⟨t', hwalk', hphys⟩ := hs.walk_memtestAddr hb hpage (hm.entry _ hb)
  · rw [hwalk'] at hnone
    cases hnone
  · obtain rfl : t = t' := Option.some.inj (hwalk.symm.trans hwalk')
    have hframe := hs.pageFrame hpage
    rw [hphys, hframe.wordIndex]
    refine ⟨⟨mapped, hs.of_footprint (hs.footprint.store (hs.not_isTable hpage)), hm⟩, ?_⟩
    intro j hj
    simp only [HeapRun.withMem, PhysMem.store_word, Radix.write, and_true]
    rw [List.length_append, List.length_singleton] at hj
    rcases (Nat.lt_succ_iff.mp hj).eq_or_lt with rfl | hlt
    · rw [if_pos rfl]
    · rw [if_neg fun heq => hlt.ne (hs.frameOf_inj (by omega) hpage heq)]
      exact hword j hlt

variable (s₀) in
lemma memtestVerify_triple {E : CommandStop → HeapRun Pmm → Prop}
    (hlen : pages.length = testPages) :
    Triple (Written pml4 s₀ pages testPages) ((List.range testPages).forM (memtestVerify pml4))
      (fun _ => Written pml4 s₀ pages testPages) E := by
  refine (Triple.forM (fun _ => Written pml4 s₀ pages testPages) fun p b r hl => ?_).conseq
    (fun s hs => hs) (fun _ s hs => hs) fun _ _ h => h
  obtain ⟨rfl, hb⟩ := range_prefix hl
  have hpage : p.length < pages.length := hlen ▸ hb
  refine Triple.bind (Q := fun value s => value = memtestPattern p.length
    ∧ Written pml4 s₀ pages testPages s)
    (access_triple (fun s hs hnone => ?_) fun s t hs hwalk => ?_)
    fun value => Triple.stopIf (fun hne s hs => absurd hs.1 hne) fun _ s hs => hs.2
  all_goals
    obtain ⟨mapped, hs', hm⟩ := hs.1
    obtain ⟨t', hwalk', hphys⟩ := hs'.walk_memtestAddr hb hpage (hm.entry _ hb)
  · rw [hwalk'] at hnone
    cases hnone
  · obtain rfl : t = t' := Option.some.inj (hwalk.symm.trans hwalk')
    refine ⟨?_, hs⟩
    rw [PhysMem.wordAt, hphys, (hs'.pageFrame hpage).wordIndex]
    exact hs.2 _ hb

/-- The first `n` test pages are unmapped again, the others are still mapped. -/
structure UnmappedUpTo (pages : List (BitVec 64)) (n : ℕ) (mapped : VPage → Option Pte) : Prop where
  cleared : ∀ j < n, mapped (vpage (memtestAddr j)) = some 0
  entry : ∀ j, n ≤ j → j < testPages →
    mapped (vpage (memtestAddr j)) = some (mapEntry (pages.getD j 0) 3)
  only : ∀ v e, mapped v = some e → ∃ j < testPages, v = vpage (memtestAddr j)

lemma UnmappedUpTo.succ (h : UnmappedUpTo pages i mapped) (hi : i < testPages) :
    UnmappedUpTo pages (i + 1) (Function.update mapped (vpage (memtestAddr i)) (some 0)) := by
  refine ⟨fun j hj => ?_, fun j hj hjt => ?_, fun v e hv => ?_⟩
  · rcases (Nat.lt_succ_iff.mp hj).eq_or_lt with rfl | hlt
    · exact Function.update_self ..
    · rw [Function.update_of_ne fun heq => hlt.ne (memtestAddr_inj (by omega) hi heq)]
      exact h.cleared j hlt
  · rw [Function.update_of_ne fun heq => by have := memtestAddr_inj hjt hi heq; omega]
    exact h.entry j (by omega) hjt
  · by_cases hvi : v = vpage (memtestAddr i)
    · exact ⟨i, hi, hvi⟩
    · rw [Function.update_of_ne hvi] at hv
      exact h.only v e hv

variable (s₀ pages) in
/-- **Test 4** unmaps all pages. -/
lemma memtestUnmap_triple {E : CommandStop → HeapRun Pmm → Prop} :
    Triple (fun s => ∃ mapped, Holding pml4 s₀ pages mapped s ∧ UnmappedUpTo pages 0 mapped)
      ((List.range testPages).forM (memtestUnmap pml4))
      (fun _ s => ∃ mapped, Holding pml4 s₀ pages mapped s ∧ UnmappedUpTo pages testPages mapped)
      E := by
  refine (Triple.forM (fun p s => ∃ mapped, Holding pml4 s₀ pages mapped s
    ∧ UnmappedUpTo pages p.length mapped) fun p b r hl => ?_).conseq
    (fun s hs => hs) (fun _ s hs => by rwa [List.length_range] at hs) fun _ _ h => h
  obtain ⟨rfl, hb⟩ := range_prefix hl
  have hnz := (memtestAddr_walk hb).1
  refine Triple.bind (Q := fun _ s => ∃ mapped, Holding pml4 s₀ pages mapped s
      ∧ UnmappedUpTo pages (p.length + 1) mapped) (Triple.step ?_) fun _ =>
    Triple.bind (Q := fun resolved s => resolved = 0 ∧ ∃ mapped, Holding pml4 s₀ pages mapped s
      ∧ UnmappedUpTo pages (p.length + 1) mapped) (Triple.step ?_) fun resolved =>
    Triple.stopIf (fun hne s hs => absurd hs.1 hne) fun _ s hs => ?_
  · rintro s ⟨mapped, hs, hm⟩
    have hpr : Present (leafAt s.kernel.mem pml4 (memtestAddr p.length)) := by
      rw [hs.leaf_memtestAddr (hm.entry _ le_rfl hb)]
      exact present_mapEntry
    have hfoot := hs.footprint.unmap (hs.footprint.ok.tables.not_hitsLarge hnz)
    rw [if_pos hpr] at hfoot
    exact ⟨_, hs.of_footprint hfoot, hm.succ hb⟩
  · rintro s ⟨mapped, hs, hm⟩
    refine ⟨?_, mapped, hs, hm⟩
    dsimp only
    rw [hs.lookup_memtestAddr hb, hs.leaf_memtestAddr (hm.cleared _ (Nat.lt_succ_self _)),
      if_neg (show ¬ Present (0 : Pte) from not_present_zero)]
  · simpa using hs.2

/-- **Test 5** gives all pages back. -/
lemma memtestFree_triple {E : CommandStop → HeapRun Pmm → Prop} :
    Triple (Holding pml4 s₀ pages mapped) (pages.forM freePage)
      (fun _ s => Holding pml4 s₀ [] mapped s ∧ pages.length ≤ s.kernel.pmm.freePages) E := by
  refine (Triple.forM (fun p s => Holding pml4 s₀ (pages.drop p.length) mapped s
    ∧ p.length ≤ s.kernel.pmm.freePages) fun p page r hl => ?_).conseq
    (fun s hs => ⟨hs, Nat.zero_le _⟩) (fun _ s hs => by rwa [List.drop_length] at hs) fun _ _ h => h
  refine Triple.step fun s hs => ?_
  have hdrop : pages.drop p.length = page :: pages.drop (p ++ [page]).length := by
    rw [hl, List.drop_left, show p ++ page :: r = (p ++ [page]) ++ r by simp, List.drop_left]
  rw [hdrop] at hs
  obtain ⟨hs', hcount⟩ := hs.1.free
  refine ⟨hs', ?_⟩
  have hle := hs.2
  rw [List.length_append, List.length_singleton]
  exact (Nat.succ_le_succ hle).trans_eq hcount.symm

/-! ### The whole test -/

lemma UnmappedUpTo.all (h : UnmappedUpTo pages testPages mapped) {e : Pte}
    (hv : mapped v = some e) :
    e = 0 ∧ ∃ j < testPages, v = vpage (memtestAddr j) := by
  obtain ⟨j, hj, rfl⟩ := h.only v e hv
  exact ⟨Option.some.inj (hv.symm.trans (h.cleared j hj)), j, hj, rfl⟩

/-- The test pages are not in the heap. -/
lemma vpage_ne_memtestAddr {w : BitVec 64} (hw : InHeap w) (hi : i < testPages) :
    vpage w ≠ vpage (memtestAddr i) := by
  have haddr := toNat_memtestAddr hi
  have hstart : heapStart.toNat = 0xFFFF800000000000 := rfl
  have hsize : heapSize.toNat = 0x1000000 := rfl
  have hlt := hw.2
  unfold testPages at hi
  rw [Ne, vpage_eq_iff_of_canonical hw.canonical (Or.inr (by omega))]
  omega

variable {held : Finset (BitVec 64)} {s₁ : HeapRun Pmm}

/-- **Test 6**, with fifty pages free. -/
lemma memtestHeap_triple (h₁ : (s₁.with held).Inv pml4)
    (hfree : testPages ≤ s₁.kernel.pmm.freePages) :
    Triple (fun s => s = s₁)
      ((List.range testHeapAllocs).foldlM (memtestBlock pml4) [] >>= fun ptrs =>
        (List.range testHeapAllocs).forM (memtestVerifyBlock pml4 ptrs))
      (fun _ s => HeapGrown pml4 held s₁ s)
      (fun e s => e = .returned ∧ HeapGrown pml4 held s₁ s) := by
  refine Triple.bind (memtestBlocks_triple h₁ hfree) fun ptrs s hs => ?_
  exact memtestVerifyBlocks_triple hs.2.1 s ⟨hs.1, hs.2.2⟩

/-- The condition: no page is free, or all pages and the tables on their way can be had. -/
def MemtestServed (pml4 : Frame) (k : Kernel Pmm) : Prop :=
  k.pmm.freePages = 0 ∨ testPages + missing k.mem pml4 (memtestAddr 0) ≤ k.pmm.freePages

/-- **`cmd_memtest`** returns. It leaves the kernel in order, and nothing behind exactly under the
condition. -/
lemma cmdMemtest_triple (h₀ : (s₀.with held).Inv pml4) :
    Triple (fun s => s = s₀) (cmdMemtest pml4)
      (fun _ s => (Clean pml4 s₀.kernel s.kernel ↔ MemtestServed pml4 s₀.kernel)
        ∧ Aftermath pml4 held ∅ s₀ s)
      (fun e s => e = .returned ∧ (Clean pml4 s₀.kernel s.kernel ↔ MemtestServed pml4 s₀.kernel)
        ∧ Aftermath pml4 held ∅ s₀ s) := by
  have hok : VmmOk pmmFrames pml4 s₀.kernel.mem s₀.kernel.pmm := h₀.ledger.ok
  rw [cmdMemtest]
  refine Triple.bind ((memtestAlloc_triple hok).conseq (fun s hs => hs) (fun pages s hs => hs) ?_)
    fun pages => ?_
  · rintro e s ⟨rfl, hfew, pages, hs, hlen⟩
    refine ⟨rfl, ?_, Aftermath.of_footprint h₀ hs.holding.footprint (by simp)⟩
    rw [hs.holding.clean_iff hok, ← List.length_eq_zero_iff, hlen]
    unfold MemtestServed
    omega
  refine Triple.assume fun hlen => ?_
  refine Triple.bind ((memtestMap_triple s₀ hlen).conseq (fun s hs => hs) (fun _ s hs => hs) ?_)
    fun _ => ?_
  · rintro e s ⟨rfl, henough, hshort, mapped, hs, hm⟩
    obtain ⟨page, rest, rfl⟩ : ∃ page rest, pages = page :: rest := by
      cases pages with
      | nil => simp [testPages] at hlen
      | cons page rest => exact ⟨page, rest, rfl⟩
    refine ⟨rfl, iff_of_false (hs.footprint.not_clean List.mem_cons_self) ?_,
      Aftermath.of_footprint h₀ hs.footprint fun w e _ hw => ?_⟩
    · unfold MemtestServed testPages
      unfold testPages at henough hshort
      omega
    · obtain ⟨j, hj, -⟩ := hm.only _ e hw
      omega
  refine Triple.assume fun hserved => ?_
  refine Triple.bind ((memtestWrite_triple s₀ hlen).conseq (fun s hs => ⟨hs, by simp⟩)
    (fun _ s hs => hs) fun _ _ h => h) fun _ => ?_
  refine Triple.bind (memtestVerify_triple s₀ hlen) fun _ => ?_
  refine Triple.bind ((memtestUnmap_triple s₀ pages).conseq ?_ (fun _ s hs => hs) fun _ _ h => h)
    fun _ => ?_
  · rintro s ⟨⟨mapped, hs, hm⟩, -⟩
    exact ⟨mapped, hs, by simp, fun j _ hj => hm.entry j hj, hm.only⟩
  refine Triple.of_eq fun s₃ ⟨mapped, hs₃, hm₃⟩ => ?_
  refine Triple.bind (memtestFree_triple.conseq (fun s hs => hs ▸ hs₃) (fun _ s hs => hs)
    fun _ _ h => h) fun _ => ?_
  refine Triple.of_eq fun s₁ ⟨hs₁, hfree₁⟩ => ?_
  have hempty : {f | f ∈ ([] : List (BitVec 64)).map frameOf} = ∅ := by simp
  have hfoot : Footprint pml4 s₀ ∅ mapped s₁ := hempty ▸ hs₁.footprint
  have hafter : Aftermath pml4 held ∅ s₀ s₁ := by
    refine Aftermath.of_footprint h₀ hfoot fun w e hw he => ?_
    obtain ⟨-, j, hj, heq⟩ := hm₃.all he
    exact absurd heq (vpage_ne_memtestAddr hw hj)
  have hclean : Clean pml4 s₀.kernel s₁.kernel := by
    refine hfoot.clean hok fun w e he => ?_
    obtain ⟨h0, j, hj, heq⟩ := hm₃.all he
    have hpath := (vpage_eq_iff.mp heq).1
    simp only [tablePath, List.cons.injEq] at hpath
    exact ⟨h0, hpath.1 ▸ (memtestAddr_walk hj).1⟩
  have hgrown : ∀ s, HeapGrown pml4 held s₁ s →
      (Clean pml4 s₀.kernel s.kernel ↔ MemtestServed pml4 s₀.kernel)
        ∧ Aftermath pml4 held ∅ s₀ s := fun s hs =>
    ⟨iff_of_true (hs.clean hok.inv hfoot.ok.tables hfoot.ptr hfoot.total hclean) (Or.inr hserved),
      hafter.trans (Aftermath.of_grown hs)⟩
  exact (memtestHeap_triple hafter.inv (hlen ▸ hfree₁)).conseq (fun s hs => hs)
    (fun _ s hs => hgrown s hs) fun e s hs => ⟨hs.1, hgrown s hs.2⟩

end

end KiOS
