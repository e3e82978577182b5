import KiOS.Commands.Footprint

/-!
The last test of `cmd_memtest`: a hundred blocks of 256 bytes.

* `mapHeapPages_frame`: what the loop of `kmalloc` leaves alone, and what it costs at most;
* `HeapGrown`: what calls of `kmalloc` may have done that were all served;
* `HeapGrown.kmalloc`: a call for which there are enough pages;
* `spentPages`: the pages of the heap the blocks so far can have cost. A block that starts in the
  page where the last one ended costs no page for it;
* `memtestBlocks_triple`, `memtestVerifyBlocks_triple`: 50 free pages are enough for all blocks.
-/

namespace KiOS

open Program Command

/-! ### The loop of `kmalloc` -/

section

variable {σ : Type} {A : FrameSource σ} {r : Frame} {m : PhysMem} {s : σ}
  {pages : List (BitVec 64)} {known : List Idx → Bool}

/-- A page costs three tables at most. -/
lemma heapDemand_le : heapDemand known pages ≤ 4 * pages.length := by
  induction pages generalizing known with
  | nil => simp [heapDemand]
  | cons page pages ih =>
      have hpage : demand known page ≤ 4 := by
        have hle := List.countP_le_length (p := fun q => !known q) (l := tablesFor page)
        simp only [tablesFor, List.length_cons, List.length_nil] at hle
        simp only [demand, tablesFor]
        omega
      have hrest : heapDemand (fun q => known q || decide (q ∈ tablesFor page)) pages
          ≤ 4 * pages.length := ih
      rw [heapDemand, List.length_cons]
      omega

/-- What a call of `vmm_map_page` costs at most. -/
lemma MapOk.free_le {virt phys : BitVec 64} {flags : BitVec 32} {err : Option String}
    {m' : PhysMem} {s' : σ} (hok : MapOk A r virt phys flags m s err m' s') :
    A.free s ≤ A.free s' + 3 := by
  have hmiss := missing_le (m := m) (r := r) virt
  by_cases herr : err = none
  · have hfree := hok.free herr
    omega
  · have hfail := hok.fails_iff.mp herr
    omega

/-- The loop leaves other pages alone, and large pages. -/
lemma mapHeapPages_frame (h : VmmOk A r m s) (hne : ∀ page ∈ pages, pml4Index page ≠ 0) :
    VmmOk A r (mapHeapPages A.alloc r pages m s).2.1 (mapHeapPages A.alloc r pages m s).2.2
      ∧ (∀ w, (∀ page ∈ pages, vpage w ≠ vpage page) →
        leafAt (mapHeapPages A.alloc r pages m s).2.1 r w = leafAt m r w)
      ∧ (∀ q j, q.length ≤ 2 → LargePage (entryAt m r q j)
          ∨ LargePage (entryAt (mapHeapPages A.alloc r pages m s).2.1 r q j) →
        entryAt (mapHeapPages A.alloc r pages m s).2.1 r q j = entryAt m r q j)
      ∧ A.free s ≤ A.free (mapHeapPages A.alloc r pages m s).2.2 + 4 * pages.length := by
  induction pages generalizing m s with
  | nil => exact ⟨h, fun _ _ => rfl, fun _ _ _ _ => rfl, le_rfl⟩
  | cons page pages ih =>
      have hrest : ∀ p ∈ pages, pml4Index p ≠ 0 := fun p hp => hne p (List.mem_cons_of_mem _ hp)
      have hskip : ∀ w, (∀ p ∈ page :: pages, vpage w ≠ vpage p) → ∀ p ∈ pages, vpage w ≠ vpage p :=
        fun w hw p hp => hw p (List.mem_cons_of_mem _ hp)
      by_cases h0 : vmmVirtToPhys r page m = 0
      swap
      · obtain ⟨hok, hleaf, hlarge, hfree⟩ := ih h hrest
        rw [mapHeapPages, if_neg h0, List.length_cons]
        exact ⟨hok, fun w hw => hleaf w (hskip w hw), hlarge, by omega⟩
      rcases Nat.eq_zero_or_pos (A.free s) with hz | hpos
      · have hnull : mapHeapPages A.alloc r (page :: pages) m s = (false, m, s) := by
          simp [mapHeapPages, h0, A.alloc_zero s h.inv hz]
        rw [hnull]
        exact ⟨h, fun _ _ => rfl, fun _ _ _ _ => rfl, by omega⟩
      have hcount := A.alloc_free s h.inv hpos
      have htaken : VmmOk A r m (A.alloc s).2 :=
        ⟨h.tables, A.alloc_inv s h.inv hpos, fun q f hq hf =>
        (A.alloc_taken s h.inv hpos f).mpr (Or.inl (h.owned q f hq hf))⟩
      obtain ⟨err, m₂, s₂, hmap, hmok⟩ := vmmMapPage_spec (A.alloc s).1 3 htaken
        (htaken.tables.not_hitsLarge (hne page List.mem_cons_self))
      have hspent := hmok.free_le
      rw [mapHeapPages_cons h0 (A.alloc_ne_zero s h.inv hpos), hmap]
      obtain ⟨hok, hleaf, hlarge, hfree⟩ := ih hmok.ok hrest
      dsimp only
      refine ⟨hok, fun w hw => ?_, fun q j hq hl => ?_, by rw [List.length_cons]; omega⟩
      · rw [hleaf w (hskip w hw), leafAt, hmok.leaf _ _ (by simp [tablePath]),
          if_neg fun h' => hw page List.mem_cons_self (vpage_eq_iff.mpr h'.2)]
      · rcases hl with hl | hl
        · have heq := hmok.grows.large q j hq (Or.inl hl)
          exact (hlarge q j hq (Or.inl (heq.symm ▸ hl))).trans heq
        · have heq := hlarge q j hq (Or.inr hl)
          exact heq.trans (hmok.grows.large q j hq (Or.inr (heq ▸ hl)))

/-- What every allocation keeps, the loop keeps. -/
lemma mapHeapPages_keeps {alloc : σ → BitVec 64 × σ} {I : σ → Prop}
    (halloc : ∀ s, I s → I (alloc s).2) (hs : I s) :
    I (mapHeapPages alloc r pages m s).2.2 := by
  induction pages generalizing m s with
  | nil => exact hs
  | cons page pages ih =>
      rw [mapHeapPages]
      split_ifs
      · dsimp only
        split_ifs
        · exact halloc s hs
        · exact ih (vmmMapPage_keeps halloc (halloc s hs))
      · exact ih hs

end

/-! ### Blocks from the heap -/

/-- The kernel with the pages others hold. -/
def HeapRun.with (s : HeapRun Pmm) (held : Finset (BitVec 64)) : KernelRun := ⟨s, held⟩

/-- Calls of `kmalloc` that all got their pages, and stores to the blocks. -/
structure HeapGrown (pml4 : Frame) (held : Finset (BitVec 64)) (s₁ s : HeapRun Pmm) : Prop where
  inv : (s.with held).Inv pml4
  start_le : heapStart.toNat ≤ s₁.kernel.heapCurrentPtr.toNat
  ptr_le : s₁.kernel.heapCurrentPtr.toNat ≤ s.kernel.heapCurrentPtr.toNat
  keeps : ∀ w, Present (leafAt s₁.kernel.mem pml4 w) →
    leafAt s.kernel.mem pml4 w = leafAt s₁.kernel.mem pml4 w
  leaf : ∀ w, leafAt s.kernel.mem pml4 w = leafAt s₁.kernel.mem pml4 w
    ∨ GivenOut s₁.kernel s.kernel w
  backed : ∀ w : BitVec 64, s₁.kernel.heapCurrentPtr.toNat ≤ w.toNat →
    w.toNat < s.kernel.heapCurrentPtr.toNat → Present (leafAt s.kernel.mem pml4 w)
  tables : ∀ f, IsTable s₁.kernel.mem pml4 f → IsTable s.kernel.mem pml4 f
  taken : ∀ f : Frame, s₁.kernel.pmm.Used f.toNat → s.kernel.pmm.Used f.toNat
  placed : ∀ f : Frame, s.kernel.pmm.Used f.toNat → s₁.kernel.pmm.Used f.toNat
    ∨ IsTable s.kernel.mem pml4 f
    ∨ ∃ w, InHeap w ∧ GivenOut s₁.kernel s.kernel w ∧ Present (leafAt s.kernel.mem pml4 w)
      ∧ frameOf (leafAt s.kernel.mem pml4 w) = f
  large : ∀ q j, q.length ≤ 2 →
    LargePage (entryAt s₁.kernel.mem pml4 q j) ∨ LargePage (entryAt s.kernel.mem pml4 q j) →
    entryAt s.kernel.mem pml4 q j = entryAt s₁.kernel.mem pml4 q j
  total : s.kernel.pmm.totalPages = s₁.kernel.pmm.totalPages
  blocks : ∀ b ∈ s.blocks, b ∈ s₁.blocks ∨ s₁.kernel.heapCurrentPtr.toNat ≤ b.addr.toNat
  old : ∀ b ∈ s₁.blocks, b ∈ s.blocks

lemma GivenOut.mono {k k₁ k' k₁' : Kernel Pmm} {w : BitVec 64} (h : GivenOut k k' w)
    (h₁ : k₁.heapCurrentPtr.toNat ≤ k.heapCurrentPtr.toNat)
    (h₁' : k'.heapCurrentPtr.toNat ≤ k₁'.heapCurrentPtr.toNat) : GivenOut k₁ k₁' w := by
  obtain ⟨a, hle, hlt, ha⟩ := h
  exact ⟨a, by omega, by omega, ha⟩

namespace HeapGrown

variable {pml4 : Frame} {held : Finset (BitVec 64)} {s₁ s t : HeapRun Pmm} {size : BitVec 64}
  {f : Frame} {i : Idx} {x : Pte} {w : BitVec 64}

lemma refl (h : (s.with held).Inv pml4) : HeapGrown pml4 held s s where
  inv := h
  start_le := h.bounds.start_le
  ptr_le := le_rfl
  keeps _ _ := rfl
  leaf _ := Or.inl rfl
  backed w hle hlt := by omega
  tables _ := id
  taken _ := id
  placed _ := Or.inl
  large _ _ _ _ := rfl
  total := rfl
  blocks _ := Or.inl
  old _ := id

lemma trans (h : HeapGrown pml4 held s₁ s) (h' : HeapGrown pml4 held s t) :
    HeapGrown pml4 held s₁ t where
  inv := h'.inv
  start_le := h.start_le
  ptr_le := h.ptr_le.trans h'.ptr_le
  keeps w hw := by
    have hw' : Present (leafAt s.kernel.mem pml4 w) := (h.keeps w hw).symm ▸ hw
    exact (h'.keeps w hw').trans (h.keeps w hw)
  leaf w := by
    rcases h'.leaf w with hw | hw
    · exact (h.leaf w).imp hw.trans fun hg => hg.mono le_rfl h'.ptr_le
    · exact Or.inr (hw.mono h.ptr_le le_rfl)
  backed w hle hlt := by
    by_cases hw : w.toNat < s.kernel.heapCurrentPtr.toNat
    · have hp := h.backed w hle hw
      exact (h'.keeps w hp).symm ▸ hp
    · exact h'.backed w (by omega) hlt
  tables f hf := h'.tables f (h.tables f hf)
  taken f hf := h'.taken f (h.taken f hf)
  placed f hf := by
    rcases h'.placed f hf with hf | hf | ⟨w, hin, hg, hp, hwf⟩
    · rcases h.placed f hf with hf | hf | ⟨w, hin, hg, hp, hwf⟩
      · exact Or.inl hf
      · exact Or.inr (Or.inl (h'.tables f hf))
      · have hkeep := h'.keeps w hp
        exact Or.inr (Or.inr ⟨w, hin, hg.mono le_rfl h'.ptr_le, hkeep.symm ▸ hp, hkeep.symm ▸ hwf⟩)
    · exact Or.inr (Or.inl hf)
    · exact Or.inr (Or.inr ⟨w, hin, hg.mono h.ptr_le le_rfl, hp, hwf⟩)
  large q j hq hl := by
    rcases hl with hl | hl
    · have heq := h.large q j hq (Or.inl hl)
      exact (h'.large q j hq (Or.inl (heq.symm ▸ hl))).trans heq
    · have heq := h'.large q j hq (Or.inr hl)
      exact heq.trans (h.large q j hq (Or.inr (heq ▸ hl)))
  total := h'.total.trans h.total
  blocks b hb := by
    rcases h'.blocks b hb with hb | hb
    · exact h.blocks b hb
    · exact Or.inr (h.ptr_le.trans hb)
  old b hb := h'.old b (h.old b hb)

/-- What the processor finds at an address of a block. -/
lemma walk (h : HeapGrown pml4 held s₁ s) (hle : s₁.kernel.heapCurrentPtr.toNat ≤ w.toNat)
    (hlt : w.toNat < s.kernel.heapCurrentPtr.toNat) (hstart : heapStart.toNat ≤ w.toNat) :
    ∃ t, mmuWalk s.kernel.mem pml4 w = some t ∧ ¬ IsTable s.kernel.mem pml4 (frameOf t.phys) := by
  have hin : InHeap w := ⟨hstart, hlt.trans h.inv.bounds.lt_end⟩
  have hp := h.backed w hle hlt
  have hled : Ledger pmmFrames pml4 (s.with held).heldFrames s.kernel.mem s.kernel.pmm :=
    h.inv.ledger
  have hwalk := hled.mmuWalk_eq hin
  rw [if_pos hp] at hwalk
  obtain ⟨-, hframe, -⟩ := hled.frameOf_phys hin hwalk
  refine ⟨_, hwalk, ?_⟩
  rw [hframe]
  exact hled.page_table _ ⟨w, hin, hp, rfl⟩

/-- A store to a frame that is no table. -/
lemma store (h : HeapGrown pml4 held s₁ s) (hf : ¬ IsTable s.kernel.mem pml4 f) :
    HeapGrown pml4 held s₁ (s.withMem (s.kernel.mem.store f i x)) := by
  obtain ⟨hwalk, hslot⟩ := store_apart (i := i) (x := x) hf
  have htable : ∀ g, IsTable (s.kernel.mem.store f i x) pml4 g ↔ IsTable s.kernel.mem pml4 g :=
    fun g => ⟨fun ⟨q, hq, hqg⟩ => ⟨q, hq, hwalk q hq ▸ hqg⟩,
      fun ⟨q, hq, hqg⟩ => ⟨q, hq, (hwalk q hq).trans hqg⟩⟩
  have hleaf : ∀ w, leafAt (s.kernel.mem.store f i x) pml4 w = leafAt s.kernel.mem pml4 w :=
    fun w => hslot _ _ (by simp [tablePath])
  have hstep : ((s.withMem (s.kernel.mem.store f i x)).with held).Inv pml4 :=
    h.inv.step (e := .store f i x) hf rfl
  exact
    { inv := hstep
      start_le := h.start_le
      ptr_le := h.ptr_le
      keeps := fun w hw => (hleaf w).trans (h.keeps w hw)
      leaf := fun w => (h.leaf w).imp_left (hleaf w).trans
      backed := fun w hle hlt => (hleaf w).symm ▸ h.backed w hle hlt
      tables := fun g hg => (htable g).mpr (h.tables g hg)
      taken := h.taken
      placed := fun g hg => by
        rcases h.placed g hg with hg | hg | ⟨w, hin, hgo, hp, hwf⟩
        · exact Or.inl hg
        · exact Or.inr (Or.inl ((htable g).mpr hg))
        · exact Or.inr (Or.inr ⟨w, hin, hgo, (hleaf w).symm ▸ hp, (hleaf w).symm ▸ hwf⟩)
      large := fun q j hq hl => by
        have heq := hslot q j (by omega)
        exact heq.trans (h.large q j hq (hl.imp_right fun hl => heq ▸ hl))
      total := h.total
      blocks := h.blocks
      old := h.old }

/-- Nothing but blocks, their pages and page tables is left behind. -/
lemma clean {s₀ : HeapRun Pmm} (h : HeapGrown pml4 held s₁ s) (h₁ : PmmOk s₀.kernel.pmm)
    (ht : Tables s₁.kernel.mem pml4) (hptr : s₁.kernel.heapCurrentPtr = s₀.kernel.heapCurrentPtr)
    (htotal : s₁.kernel.pmm.totalPages = s₀.kernel.pmm.totalPages)
    (hc : Clean pml4 s₀.kernel s₁.kernel) : Clean pml4 s₀.kernel s.kernel := by
  have hled : Ledger pmmFrames pml4 (s.with held).heldFrames s.kernel.mem s.kernel.pmm :=
    h.inv.ledger
  have hnew : ∀ w, ¬ GivenOut s₀.kernel s₁.kernel w := by
    rintro w ⟨a, hle, hlt, -⟩
    rw [hptr] at hlt
    omega
  have hkept : ∀ f : Frame, s₀.kernel.pmm.Used f.toNat → s.kernel.pmm.Used f.toNat := fun f hf =>
    h.taken f (hc.kept f hf)
  have hgiven : ∀ w, GivenOut s₁.kernel s.kernel w → GivenOut s₀.kernel s.kernel w := fun w hw =>
    hw.mono (hptr ▸ le_rfl) le_rfl
  refine ⟨hkept, fun f hf => ?_, fun w t hw => ?_,
    usedPages_eq h₁ hled.ok.inv (h.total.trans htotal) hkept⟩
  · rcases h.placed f hf with hf | hf | ⟨w, hin, hg, hp, hwf⟩
    · rcases hc.placed f hf with hf | hf | ⟨w, t, hg, -⟩
      · exact Or.inl hf
      · exact Or.inr (Or.inl (h.tables f hf))
      · exact absurd hg (hnew w)
    · exact Or.inr (Or.inl hf)
    · have hwalk := hled.mmuWalk_eq hin
      rw [if_pos hp] at hwalk
      exact Or.inr (Or.inr ⟨w, _, hgiven w hg, hwalk, (hled.frameOf_phys hin hwalk).2.1.trans hwf⟩)
  · rcases h.leaf w with hleaf | hg
    · rw [ht.mmuWalk_congr hled.ok.tables h.large hleaf] at hw
      exact (hc.unmapped w t hw).imp_right fun hg => absurd hg (hnew w)
    · exact Or.inr (hgiven w hg)

end HeapGrown

/-! ### One block more -/

section

variable {pml4 : Frame} {held : Finset (BitVec 64)} {s₁ s : HeapRun Pmm} {size : BitVec 64}

variable (pml4) in
/-- A call that passes the limit check leaves what its loop leaves. -/
lemma kmalloc_mem (h0 : size ≠ 0)
    (hlimit : s.kernel.heapCurrentPtr + roundUp16 size < heapStart + heapSize) :
    (kmalloc pmmAlloc pml4 size s.kernel).2.mem
        = (mapHeapPages pmmAlloc pml4 (heapPages s.kernel.heapCurrentPtr (roundUp16 size))
          s.kernel.mem s.kernel.pmm).2.1
      ∧ (kmalloc pmmAlloc pml4 size s.kernel).2.pmm
        = (mapHeapPages pmmAlloc pml4 (heapPages s.kernel.heapCurrentPtr (roundUp16 size))
          s.kernel.mem s.kernel.pmm).2.2 := by
  rcases kmalloc_cases pmmAlloc pml4 size s.kernel with
    ⟨hor, -⟩ | ⟨-, -, ok, m, p, hmap, heq⟩
  · rcases hor with hor | hor
    · exact absurd hor h0
    · exact absurd hlimit (BitVec.not_lt.mpr hor)
  · rw [hmap, heq]
    cases ok <;> exact ⟨rfl, rfl⟩

/-- A page of a call has an address that the call gives out. -/
lemma givenOut_of_mem {k k' : Kernel Pmm} {page w : BitVec 64} (hstart : InHeap k.heapCurrentPtr)
    (hend : k.heapCurrentPtr.toNat + size.toNat < heapStart.toNat + heapSize.toNat)
    (hptr : k'.heapCurrentPtr.toNat = k.heapCurrentPtr.toNat + size.toNat) (hpos : 0 < size.toNat)
    (hp : page ∈ heapPages k.heapCurrentPtr size) (hw : vpage w = vpage page) :
    GivenOut k k' w := by
  have hpage := heapPages_inHeap hstart hend hp
  obtain ⟨hal, hge, hlt⟩ := (mem_heapPages hstart hend).mp hp
  by_cases hle : k.heapCurrentPtr.toNat ≤ page.toNat
  · exact ⟨page, hle, by omega, hw.symm⟩
  · refine ⟨k.heapCurrentPtr, le_rfl, by omega, Eq.trans ?_ hw.symm⟩
    rw [vpage_eq_iff_of_canonical hstart.canonical hpage.canonical]
    omega

/-- **A call for which there are enough pages** returns the next block. -/
lemma KernelRun.Inv.grown (h : (s.with held).Inv pml4) (h0 : size ≠ 0)
    (hfit : SizeFits s.kernel size)
    (hlimit : s.kernel.heapCurrentPtr + roundUp16 size < heapStart + heapSize)
    (hfree : heapDemand (knownTables s.kernel.mem pml4) (neededPages pml4 s.kernel size)
      ≤ s.kernel.pmm.freePages) :
    (kmalloc pmmAlloc pml4 size s.kernel).1 = s.kernel.heapCurrentPtr
      ∧ (kmalloc pmmAlloc pml4 size s.kernel).2.heapCurrentPtr.toNat
        = s.kernel.heapCurrentPtr.toNat + (roundUp16 size).toNat
      ∧ HeapGrown pml4 held s ⟨(kmalloc pmmAlloc pml4 size s.kernel).2,
        s.blocks ++ [⟨s.kernel.heapCurrentPtr, size⟩]⟩ := by
  have hfit' := hfit.resolve_left h0
  have hout : heapOutcome (knownTables s.kernel.mem pml4) (neededPages pml4 s.kernel size)
      s.kernel.pmm.freePages = .backed := (heapOutcome_eq_backed _ _ _).mpr hfree
  obtain ⟨ok, hok, htrue, -⟩ := h.kmalloc_eq hfit h0 hlimit
  change LoopOk pmmFrames pml4 _ _ s.kernel.mem s.kernel.pmm (heapOutcome (knownTables s.kernel.mem
    pml4) (neededPages pml4 s.kernel size) s.kernel.pmm.freePages) ok _ _ at hok
  rw [hout] at hok
  have hret : (kmalloc pmmAlloc pml4 size s.kernel).1 = s.kernel.heapCurrentPtr :=
    htrue (hok.ok_iff.mpr (Or.inl rfl))
  have hne : s.kernel.heapCurrentPtr ≠ 0 := h.bounds.ne_zero
  have hptr : (kmalloc pmmAlloc pml4 size s.kernel).2.heapCurrentPtr.toNat
      = s.kernel.heapCurrentPtr.toNat + (roundUp16 size).toNat := by
    rcases kmalloc_bump pmmAlloc pml4 size s.kernel with ⟨hnull, -⟩ | ⟨-, -, -, hbump, -⟩
    · exact absurd (hret.symm.trans hnull) hne
    · rw [hbump]
      exact (h.bounds.toNat_advance hfit').2
  have hstart : InHeap s.kernel.heapCurrentPtr := ⟨h.bounds.start_le, h.bounds.lt_end⟩
  have hend : s.kernel.heapCurrentPtr.toNat + (roundUp16 size).toNat
      < heapStart.toNat + heapSize.toNat := h.bounds.reserved_lt hfit' hlimit
  have hpos : 0 < (roundUp16 size).toNat := by
    have hsize : size.toNat ≠ 0 := fun hz => h0 (BitVec.eq_of_toNat_eq hz)
    rw [(h.bounds.toNat_advance hfit').1]
    omega
  have hinv : KernelRun.Inv pml4 (HeapRun.with ⟨(kmalloc pmmAlloc pml4 size s.kernel).2,
      s.blocks ++ [⟨s.kernel.heapCurrentPtr, size⟩]⟩ held) := by
    have hstep := h.step_kmalloc hfit rfl
    simp only [HeapRun.with, hret, if_neg hne] at hstep
    exact hstep
  have hled : Ledger pmmFrames pml4 (s.with held).heldFrames s.kernel.mem s.kernel.pmm := h.ledger
  obtain ⟨hmem, hpmm⟩ := kmalloc_mem pml4 h0 hlimit
  obtain ⟨-, hleaf, hlarge, -⟩ := mapHeapPages_frame (A := pmmFrames) hled.ok
    fun page hp => (heapPages_inHeap hstart hend hp).pml4Index_ne
  change ∀ w, _ → leafAt (mapHeapPages pmmAlloc pml4 _ s.kernel.mem s.kernel.pmm).2.1 pml4 w = _
    at hleaf
  -- a page that is mapped now was mapped before, or the call goes through it
  have hcases : ∀ w, leafAt (kmalloc pmmAlloc pml4 size s.kernel).2.mem pml4 w
      = leafAt s.kernel.mem pml4 w
        ∨ GivenOut s.kernel (kmalloc pmmAlloc pml4 size s.kernel).2 w := by
    intro w
    by_cases hw : ∃ page ∈ heapPages s.kernel.heapCurrentPtr (roundUp16 size), vpage w = vpage page
    · obtain ⟨page, hp, hwp⟩ := hw
      exact Or.inr (givenOut_of_mem hstart hend hptr hpos hp hwp)
    · push Not at hw
      exact Or.inl (hmem ▸ hleaf w hw)
  refine ⟨hret, hptr,
    { inv := hinv
      start_le := h.bounds.start_le
      ptr_le := by dsimp only; omega
      keeps := hok.keeps
      leaf := hcases
      backed := fun w hle hlt => ?_
      tables := hok.tables
      taken := hok.taken
      placed := fun f hf => ?_
      large := fun q j hq hl => ?_
      total := ?_
      blocks := fun b hb => ?_
      old := fun b hb => List.mem_append_left _ hb }⟩
  · dsimp only at hlt ⊢
    rw [hptr] at hlt
    obtain ⟨page, hpage, hwp⟩ := exists_heapPage hstart hend ⟨hle, hlt⟩
    have heq : leafAt (kmalloc pmmAlloc pml4 size s.kernel).2.mem pml4 w
        = leafAt (kmalloc pmmAlloc pml4 size s.kernel).2.mem pml4 page := by
      obtain ⟨h1, h2⟩ := vpage_eq_iff.mp hwp
      rw [leafAt, leafAt, h1, h2]
    exact heq ▸ hok.present rfl page hpage
  · rcases hok.placed (Or.inl rfl) f hf with hf | hf | ⟨w, hin, hp, hwf⟩
    · exact Or.inl hf
    · exact Or.inr (Or.inl hf)
    · rcases hcases w with heq | hg
      · exact Or.inl (hled.page_taken f ⟨w, hin, heq ▸ hp, heq ▸ hwf⟩)
      · exact Or.inr (Or.inr ⟨w, hin, hg, hp, hwf⟩)
  · have hl' := hl
    rw [show (kmalloc pmmAlloc pml4 size s.kernel).2.mem = _ from hmem] at hl' ⊢
    exact hlarge q j hq hl'
  · rw [show (kmalloc pmmAlloc pml4 size s.kernel).2.pmm = _ from hpmm]
    exact mapHeapPages_keeps (I := fun p => p.totalPages = s.kernel.pmm.totalPages)
      (fun p hp => (pmmAlloc_totalPages p).trans hp) rfl
  · rcases List.mem_append.mp hb with hb | hb
    · exact Or.inl hb
    · rw [List.mem_singleton.mp hb]
      exact Or.inr le_rfl

/-- The pages that the blocks since `s₁` can have cost, the tables apart. -/
def spentPages (s₁ s : HeapRun Pmm) : ℕ :=
  if s.kernel.heapCurrentPtr = s₁.kernel.heapCurrentPtr then 0
  else (s.kernel.heapCurrentPtr.toNat + 4095) / 4096 - s₁.kernel.heapCurrentPtr.toNat / 4096

/-- The pages of a call that the blocks before have not got. -/
lemma HeapGrown.newPages (h : HeapGrown pml4 held s₁ s)
    (hend : s.kernel.heapCurrentPtr.toNat + size.toNat < heapStart.toNat + heapSize.toNat) :
    ∃ pages, (∀ page ∈ pages, page ∈ heapPages s.kernel.heapCurrentPtr size)
      ∧ mapHeapPages pmmAlloc pml4 (heapPages s.kernel.heapCurrentPtr size) s.kernel.mem
          s.kernel.pmm
        = mapHeapPages pmmAlloc pml4 pages s.kernel.mem s.kernel.pmm
      ∧ unmapped s.kernel.mem pml4 (heapPages s.kernel.heapCurrentPtr size)
        = unmapped s.kernel.mem pml4 pages
      ∧ pages.length + spentPages s₁ s ≤ (s.kernel.heapCurrentPtr.toNat + size.toNat + 4095) / 4096
        - s₁.kernel.heapCurrentPtr.toNat / 4096 := by
  have hle := h.ptr_le
  have hstart : InHeap s.kernel.heapCurrentPtr := ⟨h.inv.bounds.start_le, h.inv.bounds.lt_end⟩
  have hlength : (heapPages s.kernel.heapCurrentPtr size).length
      = (s.kernel.heapCurrentPtr.toNat + size.toNat + 4095) / 4096
        - s.kernel.heapCurrentPtr.toNat / 4096 := by
    rw [heapPages_eq hend, List.length_map, List.length_range]
  by_cases hfirst : s.kernel.heapCurrentPtr = s₁.kernel.heapCurrentPtr
  · refine ⟨_, fun _ hp => hp, rfl, rfl, ?_⟩
    rw [hlength, spentPages, if_pos hfirst, hfirst]
    omega
  have hne : s₁.kernel.heapCurrentPtr.toNat ≠ s.kernel.heapCurrentPtr.toNat := fun heq =>
    hfirst (BitVec.eq_of_toNat_eq heq.symm)
  rw [spentPages, if_neg hfirst]
  by_cases hal : s.kernel.heapCurrentPtr.toNat % 4096 = 0
  · refine ⟨_, fun _ hp => hp, rfl, rfl, ?_⟩
    rw [hlength]
    omega
  -- the first page is that of the byte before
  cases hlist : heapPages s.kernel.heapCurrentPtr size with
  | nil =>
      refine ⟨[], by simp, rfl, rfl, ?_⟩
      simp only [List.length_nil]
      omega
  | cons page pages =>
      have hpage : page.toNat / 4096 = s.kernel.heapCurrentPtr.toNat / 4096 := by
        have heq := heapPages_eq hend
        obtain ⟨n, hn⟩ : ∃ n, (s.kernel.heapCurrentPtr.toNat + size.toNat + 4095) / 4096
            - s.kernel.heapCurrentPtr.toNat / 4096 = n + 1 := by
          rw [← hlength, hlist]
          exact ⟨_, rfl⟩
        rw [hlist, hn, List.range_succ_eq_map, List.map_cons] at heq
        obtain ⟨rfl, -⟩ := List.cons.inj heq
        rw [toNat_heapPage hstart (by norm_num)]
        omega
      have hin : InHeap page := heapPages_inHeap hstart hend (hlist ▸ List.mem_cons_self)
      have hlast : (s.kernel.heapCurrentPtr - 1).toNat = s.kernel.heapCurrentPtr.toNat - 1 :=
        BitVec.toNat_sub_of_le (show 1 ≤ s.kernel.heapCurrentPtr.toNat by omega)
      have hmapped : Present (leafAt s.kernel.mem pml4 page) := by
        have hp := h.backed (s.kernel.heapCurrentPtr - 1) (by omega) (by omega)
        have hcan : Canonical (s.kernel.heapCurrentPtr - 1) := by
          have h1 := hstart.canonical
          have h2 := hstart.1
          have hnum : heapStart.toNat = 0xFFFF800000000000 := rfl
          unfold Canonical at h1 ⊢
          omega
        have hsame : vpage page = vpage (s.kernel.heapCurrentPtr - 1) := by
          rw [vpage_eq_iff_of_canonical hin.canonical hcan]
          omega
        obtain ⟨h1, h2⟩ := vpage_eq_iff.mp hsame
        rwa [leafAt, h1, h2]
      have hlookup : vmmVirtToPhys pml4 page s.kernel.mem ≠ 0 := fun h0 =>
        (h.inv.ledger.lookup_eq_zero_iff hin).mp h0 hmapped
      refine ⟨pages, fun p hp => List.mem_cons_of_mem _ hp, ?_, unmapped_cons_of_mapped hlookup, ?_⟩
      · rw [mapHeapPages, if_neg hlookup]
      · rw [hlist, List.length_cons] at hlength
        omega

/-- **One block more**, if there are four pages for each page of the heap up to its end. -/
lemma HeapGrown.kmalloc (h : HeapGrown pml4 held s₁ s) (h0 : size ≠ 0)
    (hfit : SizeFits s.kernel size)
    (hlimit : s.kernel.heapCurrentPtr + roundUp16 size < heapStart + heapSize)
    (hfree : 4 * ((s.kernel.heapCurrentPtr.toNat + (roundUp16 size).toNat + 4095) / 4096
      - s₁.kernel.heapCurrentPtr.toNat / 4096) ≤ s.kernel.pmm.freePages + 4 * spentPages s₁ s) :
    ∃ t : HeapRun Pmm, KiOS.kmalloc pmmAlloc pml4 size s.kernel
        = (s.kernel.heapCurrentPtr, t.kernel)
      ∧ t.blocks = s.blocks ++ [⟨s.kernel.heapCurrentPtr, size⟩]
      ∧ HeapGrown pml4 held s₁ t
      ∧ t.kernel.heapCurrentPtr.toNat = s.kernel.heapCurrentPtr.toNat + (roundUp16 size).toNat
      ∧ s.kernel.pmm.freePages + 4 * spentPages s₁ s
        ≤ t.kernel.pmm.freePages + 4 * spentPages s₁ t := by
  have hfit' := hfit.resolve_left h0
  have hle := h.ptr_le
  have hend := h.inv.bounds.reserved_lt hfit' hlimit
  have hstart : InHeap s.kernel.heapCurrentPtr := ⟨h.inv.bounds.start_le, h.inv.bounds.lt_end⟩
  obtain ⟨pages, hsub, hloop, hunmapped, hlength⟩ := h.newPages hend
  have hdemand : heapDemand (knownTables s.kernel.mem pml4) (neededPages pml4 s.kernel size)
      ≤ 4 * pages.length := by
    have hpages : (unmapped s.kernel.mem pml4 pages).length ≤ pages.length :=
      List.length_filter_le _ _
    rw [neededPages, hunmapped]
    exact heapDemand_le.trans (by omega)
  obtain ⟨hret, hptr, hgrown⟩ := h.inv.grown h0 hfit hlimit (by omega)
  refine ⟨⟨(KiOS.kmalloc pmmAlloc pml4 size s.kernel).2,
    s.blocks ++ [⟨s.kernel.heapCurrentPtr, size⟩]⟩, Prod.ext hret rfl, rfl,
    h.trans hgrown, hptr, ?_⟩
  obtain ⟨-, hpmm⟩ := kmalloc_mem pml4 h0 hlimit
  obtain ⟨-, -, -, hcost⟩ := mapHeapPages_frame (A := pmmFrames) h.inv.ledger.ok
    fun page (hp : page ∈ pages) => (heapPages_inHeap hstart hend (hsub page hp)).pml4Index_ne
  rw [hloop] at hpmm
  have hcost' : s.kernel.pmm.freePages
      ≤ (KiOS.kmalloc pmmAlloc pml4 size s.kernel).2.pmm.freePages + 4 * pages.length := by
    rw [hpmm]
    exact hcost
  have hpos : 0 < (roundUp16 size).toNat := by
    have hsize : size.toNat ≠ 0 := fun hz => h0 (BitVec.eq_of_toNat_eq hz)
    rw [(h.inv.bounds.toNat_advance hfit').1]
    omega
  have hspent : spentPages s₁ ⟨(KiOS.kmalloc pmmAlloc pml4 size s.kernel).2,
      s.blocks ++ [⟨s.kernel.heapCurrentPtr, size⟩]⟩
      = (s.kernel.heapCurrentPtr.toNat + (roundUp16 size).toNat + 4095) / 4096
        - s₁.kernel.heapCurrentPtr.toNat / 4096 := by
    rw [spentPages, if_neg fun heq => ?_]
    · dsimp only
      rw [hptr]
    · dsimp only at heq
      rw [heq] at hptr
      omega
  rw [hspent]
  dsimp only
  omega

/-! ### The test -/

/-- The blocks lie between the pointers. -/
def BlocksBetween (s₁ s : HeapRun Pmm) (ptrs : List (BitVec 64)) : Prop :=
  ∀ p ∈ ptrs, s₁.kernel.heapCurrentPtr.toNat ≤ p.toNat
    ∧ p.toNat + 256 ≤ s.kernel.heapCurrentPtr.toNat

/-- An access to a byte of a block meets a page that is no table. -/
lemma HeapGrown.block_access {α : Type} {I : HeapRun Pmm → Prop} {Q : α → HeapRun Pmm → Prop}
    {E : CommandStop → HeapRun Pmm → Prop} {f : BitVec 64 → HeapRun Pmm → α × HeapRun Pmm}
    {ptr : BitVec 64} {j : ℕ} (hj : j < 256)
    (hI : ∀ s, I s → HeapGrown pml4 held s₁ s ∧ s₁.kernel.heapCurrentPtr.toNat ≤ ptr.toNat
      ∧ ptr.toNat + 256 ≤ s.kernel.heapCurrentPtr.toNat)
    (hQ : ∀ s phys, I s → ¬ IsTable s.kernel.mem pml4 (frameOf phys)
      → Q (f phys s).1 (f phys s).2) :
    Triple I (access pml4 (ptr + BitVec.ofNat 64 j) f) Q E := by
  have haddr : ∀ s, I s → ∃ t, mmuWalk s.kernel.mem pml4 (ptr + BitVec.ofNat 64 j) = some t
      ∧ ¬ IsTable s.kernel.mem pml4 (frameOf t.phys) := by
    intro s hs
    obtain ⟨hg, hge, hlt⟩ := hI s hs
    have hptr := s.kernel.heapCurrentPtr.isLt
    have hj' : (BitVec.ofNat 64 j).toNat = j := by
      rw [BitVec.toNat_ofNat]
      omega
    have hsum : (ptr + BitVec.ofNat 64 j).toNat = ptr.toNat + j := by
      rw [BitVec.toNat_add_of_lt (by omega), hj']
    -- the heap starts below the first block
    have hstart : heapStart.toNat ≤ ptr.toNat := hg.start_le.trans hge
    exact hg.walk (by omega) (by omega) (by omega)
  refine access_triple (fun s hs hnone => ?_) fun s t hs hwalk => ?_
  · obtain ⟨t, ht, -⟩ := haddr s hs
    rw [ht] at hnone
    cases hnone
  · obtain ⟨t', ht, htable⟩ := haddr s hs
    obtain rfl : t = t' := Option.some.inj (hwalk.symm.trans ht)
    exact hQ s t.phys hs htable

/-- **Test 6** gets all its blocks if there were fifty pages, unless the heap ends before. -/
lemma memtestBlocks_triple (h₁ : (s₁.with held).Inv pml4)
    (hfree : testPages ≤ s₁.kernel.pmm.freePages) :
    Triple (fun s => s = s₁) ((List.range testHeapAllocs).foldlM (memtestBlock pml4) [])
      (fun ptrs s => HeapGrown pml4 held s₁ s ∧ ptrs.length = testHeapAllocs
        ∧ BlocksBetween s₁ s ptrs)
      (fun e s => e = .returned ∧ HeapGrown pml4 held s₁ s) := by
  let I (p : List ℕ) (ptrs : List (BitVec 64)) (s : HeapRun Pmm) : Prop :=
    HeapGrown pml4 held s₁ s ∧ ptrs.length = p.length ∧ BlocksBetween s₁ s ptrs
    ∧ s.kernel.heapCurrentPtr.toNat = s₁.kernel.heapCurrentPtr.toNat + 256 * p.length
    ∧ testPages ≤ s.kernel.pmm.freePages + 4 * spentPages s₁ s
  refine (Triple.foldlM I fun p b r ptrs hl => ?_).conseq ?_ ?_ fun _ _ h => h
  · obtain ⟨rfl, hb⟩ := range_prefix hl
    refine Triple.bind (Q := fun ptr s => if ptr = 0 then HeapGrown pml4 held s₁ s
      else I (p ++ [p.length]) (ptrs ++ [ptr]) s) (Triple.step ?_) fun ptr =>
      Triple.bind (Q := fun _ s => I (p ++ [p.length]) (ptrs ++ [ptr]) s)
        (Triple.stopIf (fun h0 s hs => ?_) fun hne s hs => ?_) fun _ =>
      Triple.bind (Q := fun _ s => I (p ++ [p.length]) (ptrs ++ [ptr]) s)
        ((Triple.forM (fun _ => I (p ++ [p.length]) (ptrs ++ [ptr])) fun q j r hl => ?_).conseq
          (fun s hs => hs) (fun _ s hs => hs) fun _ _ h => h) fun _ => Triple.pure fun s hs => hs
    · rintro s ⟨hg, hlen, hbetween, hptr, hspent⟩
      have h256 : (256 : BitVec 64).toNat = 256 := rfl
      have hround : (roundUp16 256).toNat = 256 := rfl
      have hlow := hg.inv.bounds.lt_end
      have hheap : heapStart.toNat + heapSize.toNat = 0xFFFF800001000000 := rfl
      change s.kernel.heapCurrentPtr.toNat < heapStart.toNat + heapSize.toNat at hlow
      by_cases hlimit : s.kernel.heapCurrentPtr + roundUp16 256 < heapStart + heapSize
      · obtain ⟨t, hret, hblocks, hgrown, hptr', hspent'⟩ :=
          hg.kmalloc (show (256 : BitVec 64) ≠ 0 by decide)
          (Or.inr (by omega)) hlimit (by
            unfold testPages at hspent
            unfold testHeapAllocs at hb
            rw [hround]
            omega)
        have hne : s.kernel.heapCurrentPtr ≠ 0 := hg.inv.bounds.ne_zero
        have ht : t = ⟨t.kernel, s.blocks ++ [⟨s.kernel.heapCurrentPtr, 256⟩]⟩ := by
          rw [← hblocks]
        dsimp only
        rw [hret]
        dsimp only
        rw [if_neg hne, if_neg hne, ← ht]
        rw [hround] at hptr'
        refine ⟨hgrown, by simp [hlen], fun q hq => ?_, ?_, by omega⟩
        · rcases List.mem_append.mp hq with hq | hq
          · have := hbetween q hq
            omega
          · rw [List.mem_singleton.mp hq]
            omega
        · rw [hptr', hptr, List.length_append, List.length_singleton]
          ring
      · have hnull : kmalloc pmmAlloc pml4 256 s.kernel = (0, s.kernel) := by
          rw [kmalloc, if_neg (by decide), if_pos (BitVec.not_lt.mp hlimit)]
        dsimp only
        rw [hnull]
        exact hg
    · rw [if_pos h0] at hs
      exact ⟨rfl, hs⟩
    · rwa [if_neg hne] at hs
    · obtain ⟨rfl, hj⟩ := range_prefix hl
      rw [storeByte]
      refine HeapGrown.block_access hj (fun s hs => ⟨hs.1, ?_⟩) fun s phys hs htable => ?_
      · exact hs.2.2.1 ptr (by simp)
      · exact ⟨hs.1.store htable, hs.2⟩
  · rintro s rfl
    exact ⟨HeapGrown.refl h₁, rfl, by simp [BlocksBetween], by simp, by omega⟩
  · rintro ptrs s ⟨hg, hlen, hbetween, -⟩
    rw [List.length_range] at hlen
    exact ⟨hg, hlen, hbetween⟩

/-- The blocks can be read back. -/
lemma memtestVerifyBlocks_triple {ptrs : List (BitVec 64)} (hlen : ptrs.length = testHeapAllocs) :
    Triple (fun s => HeapGrown pml4 held s₁ s ∧ BlocksBetween s₁ s ptrs)
      ((List.range testHeapAllocs).forM (memtestVerifyBlock pml4 ptrs))
      (fun _ s => HeapGrown pml4 held s₁ s)
      (fun e s => e = .returned ∧ HeapGrown pml4 held s₁ s) := by
  let I (s : HeapRun Pmm) : Prop := HeapGrown pml4 held s₁ s ∧ BlocksBetween s₁ s ptrs
  refine (Triple.forM (fun _ => I) fun p i r hl => ?_).conseq (fun s hs => hs)
    (fun _ s hs => hs.1) fun _ _ h => h
  obtain ⟨rfl, hi⟩ := range_prefix hl
  rw [memtestVerifyBlock]
  refine (Triple.forM (fun _ => I) fun q j r hl => ?_).conseq (fun s hs => hs)
    (fun _ s hs => hs) fun _ _ h => h
  obtain ⟨rfl, hj⟩ := range_prefix hl
  rw [loadByte]
  refine Triple.bind (Q := fun _ => I) ?_ fun value =>
    Triple.stopIf (fun _ s hs => ⟨rfl, hs.1⟩) fun _ s hs => hs
  refine HeapGrown.block_access hj (fun s hs => ⟨hs.1, hs.2 _ ?_⟩) fun s phys hs _ => hs
  rw [List.getD_eq_getElem _ _ (hlen ▸ hi)]
  exact List.getElem_mem _

end

end KiOS
