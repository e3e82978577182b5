import KiOS.Mm.PmmAccounting

/-!
Which pages `pmm_init` makes free, against the memory map.

`pmm_init` rounds the base of a usable entry down and its length down, each on its own. An entry
that starts inside a page so gives this page away and may lose its last one. It also looks at one
entry at a time: a page that only several entries make up is lost, and one that an entry of
another type overlaps is not.

* `Usable`: the pages that should be free;
* `RoundsRight`: the condition on the memory map, one field for each of the four cases;
* `pmmInit_free_iff`: the free pages are the usable ones exactly under this condition;
* `roundsRight_of_aligned`: it holds of a map whose usable entries consist of whole pages that no
  other entry overlaps;
* `partial_page_free`: a map on which a page is free of which only one half is usable.
-/

namespace KiOS

/-- A byte of the page lies in an entry that is not usable. -/
def Foreign (entries : List MemoryMapEntry) (page : ℕ) : Prop :=
  ∃ a, page * 4096 ≤ a ∧ a < (page + 1) * 4096
    ∧ ∃ e ∈ entries, e.type ≠ 1 ∧ e.base.toNat ≤ a ∧ a < e.base.toNat + e.length.toNat

/-- The page should be free. -/
structure Usable (entries : List MemoryMapEntry) (kernelEnd : BitVec 64) (page : ℕ) : Prop where
  covered : Covered entries page
  not_foreign : ¬ Foreign entries page
  above : 0x100000 ≤ page * 4096
  not_image : ¬ Touches 0x100000 kernelEnd.toNat page
  not_bitmap : ¬ Touches (bitmapBase kernelEnd).toNat (bitmapEnd entries kernelEnd) page

/-- The whole page lies in the entry. -/
def MemoryMapEntry.Contains (e : MemoryMapEntry) (page : ℕ) : Prop :=
  e.base.toNat ≤ page * 4096 ∧ (page + 1) * 4096 ≤ e.base.toNat + e.length.toNat

/-- The page behind those the entry gives away. -/
def MemoryMapEntry.nextPage (e : MemoryMapEntry) : ℕ :=
  e.base.toNat / 4096 + e.length.toNat / 4096

/-- The condition, for the pages behind the bitmap. -/
structure RoundsRight (entries : List MemoryMapEntry) (kernelEnd : BitVec 64) : Prop where
  /-- The first page of an entry that starts inside it is made up by other entries. -/
  first : ∀ e ∈ entries, e.type = 1 → e.base.toNat % 4096 ≠ 0 → 4096 ≤ e.length.toNat →
    bitmapEnd entries kernelEnd ≤ e.base.toNat / 4096 * 4096 →
      Covered entries (e.base.toNat / 4096)
  /-- The page that is lost when the two remainders make up a page is given away by another
  entry, or not all usable. -/
  last : ∀ e ∈ entries, e.type = 1 → 4096 ≤ e.base.toNat % 4096 + e.length.toNat % 4096 →
    4096 ≤ e.length.toNat → bitmapEnd entries kernelEnd ≤ e.nextPage * 4096 →
      Released entries e.nextPage ∨ Foreign entries e.nextPage
  /-- So is a page that only several entries make up. -/
  joint : ∀ page, Covered entries page → (∀ e ∈ entries, e.type = 1 → ¬ e.Contains page) →
    bitmapEnd entries kernelEnd ≤ page * 4096 → Released entries page ∨ Foreign entries page
  /-- No entry of another type overlaps a page that is given away. -/
  apart : ∀ e ∈ entries, e.type = 1 → ∀ page ∈ e.pages,
    bitmapEnd entries kernelEnd ≤ page * 4096 → ¬ Foreign entries page

variable {entries : List MemoryMapEntry} {e : MemoryMapEntry} {kernelEnd : BitVec 64} {page : ℕ}

/-! ### The pages of an entry -/

lemma MemoryMapEntry.mem_pages :
    page ∈ e.pages ↔ e.base.toNat / 4096 ≤ page ∧ page < e.nextPage := by
  rw [MemoryMapEntry.pages, List.mem_range'_1, MemoryMapEntry.nextPage]

/-- A page in a usable entry is covered. -/
lemma MemoryMapEntry.Contains.covered (h : e.Contains page) (he : e ∈ entries)
    (htype : e.type = 1) :
    Covered entries page := by
  intro a ha ha'
  exact ⟨e, he, htype, h.1.trans ha, ha'.trans_le h.2⟩

/-- **An entry gives away** the pages in it, and the first one if it starts inside. -/
lemma MemoryMapEntry.contains_of_mem_pages (h : page ∈ e.pages) :
    e.Contains page
      ∨ page = e.base.toNat / 4096 ∧ e.base.toNat % 4096 ≠ 0 ∧ 4096 ≤ e.length.toNat := by
  rw [MemoryMapEntry.mem_pages, MemoryMapEntry.nextPage] at h
  by_cases hfirst : e.base.toNat ≤ page * 4096
  · exact Or.inl ⟨hfirst, by omega⟩
  · exact Or.inr (by omega)

/-- **A page in an entry** is given away, or the one that its remainders make up. -/
lemma MemoryMapEntry.Contains.mem_pages_or (h : e.Contains page) :
    page ∈ e.pages
      ∨ page = e.nextPage ∧ 4096 ≤ e.base.toNat % 4096 + e.length.toNat % 4096
        ∧ 4096 ≤ e.length.toNat := by
  obtain ⟨hlo, hhi⟩ := h
  rw [MemoryMapEntry.mem_pages, MemoryMapEntry.nextPage]
  by_cases hlast : page < e.base.toNat / 4096 + e.length.toNat / 4096
  · exact Or.inl (by omega)
  · exact Or.inr (by omega)

lemma MemoryMapEntry.contains_nextPage
    (h : 4096 ≤ e.base.toNat % 4096 + e.length.toNat % 4096) (hlen : 4096 ≤ e.length.toNat) :
    e.Contains e.nextPage := by
  rw [MemoryMapEntry.Contains, MemoryMapEntry.nextPage]
  omega

/-! ### The free set -/

/-- Behind the bitmap a page is none of those reserved. -/
lemma KernelMap.usable_iff (h : KernelMap entries kernelEnd) :
    Usable entries kernelEnd page
      ↔ bitmapEnd entries kernelEnd ≤ page * 4096 ∧ Covered entries page
        ∧ ¬ Foreign entries page := by
  have hbase := h.toNat_bitmapBase
  have hpos := h.image_pos
  have hend : bitmapEnd entries kernelEnd
      = (bitmapBase kernelEnd).toNat + (pageTotal entries + 7) / 8 := rfl
  have htot := h.lt_pageTotal
  constructor
  · rintro ⟨hcov, hfor, habove, himage, hbitmap⟩
    refine ⟨?_, hcov, hfor⟩
    rw [Touches] at himage hbitmap
    omega
  · rintro ⟨hbehind, hcov, hfor⟩
    refine ⟨hcov, hfor, by omega, ?_, ?_⟩ <;> rw [Touches] <;> omega

/-- A page is free if an entry gives it away and it lies behind the bitmap. -/
lemma KernelMap.exists_free_iff (h : KernelMap entries kernelEnd) :
    ∃ m, pmmInit entries 0x100000 kernelEnd = some m ∧ ∀ page,
      (m.Free page ↔ bitmapEnd entries kernelEnd ≤ page * 4096 ∧ Released entries page) := by
  obtain ⟨m, hm, -, htot, hbits⟩ := pmmInit_spec h
  refine ⟨m, hm, fun page => ?_⟩
  have hlow : 0x100000 < bitmapEnd entries kernelEnd := by
    have hbase := h.toNat_bitmapBase
    have hpos := h.image_pos
    rw [bitmapEnd]
    omega
  rw [Pmm.Free, htot]
  constructor
  · rintro ⟨hlt, hfree⟩
    have hset := (not_congr (hbits page hlt)).mp (by simp [hfree])
    simp only [not_or, not_not] at hset
    exact ⟨by omega, hset.1⟩
  · rintro ⟨hbehind, e, he, htype, hmem⟩
    have hlt := h.page_lt he hmem
    refine ⟨hlt, ?_⟩
    rw [← Bool.not_eq_true, hbits page hlt]
    simp only [not_or, not_not]
    exact ⟨⟨e, he, htype, hmem⟩, by omega, by omega⟩

/-- The condition says that behind the bitmap the pages given away are the usable ones. -/
lemma roundsRight_iff :
    RoundsRight entries kernelEnd
      ↔ ∀ page, bitmapEnd entries kernelEnd ≤ page * 4096 →
        (Released entries page ↔ Covered entries page ∧ ¬ Foreign entries page) := by
  constructor
  · intro h page hpage
    constructor
    · rintro ⟨e, he, htype, hmem⟩
      refine ⟨?_, h.apart e he htype page hmem hpage⟩
      cases e.contains_of_mem_pages hmem with
      | inl hin => exact hin.covered he htype
      | inr hfirst =>
          obtain ⟨rfl, hmod, hlen⟩ := hfirst
          exact h.first e he htype hmod hlen hpage
    · rintro ⟨hcov, hfor⟩
      by_cases hsingle : ∃ e ∈ entries, e.type = 1 ∧ e.Contains page
      · obtain ⟨e, he, htype, hin⟩ := hsingle
        cases hin.mem_pages_or with
        | inl hmem => exact ⟨e, he, htype, hmem⟩
        | inr hlast =>
            obtain ⟨rfl, hmod, hlen⟩ := hlast
            exact (h.last e he htype hmod hlen hpage).resolve_right hfor
      · have hnone : ∀ e ∈ entries, e.type = 1 → ¬ e.Contains page :=
          fun e he htype hin => hsingle ⟨e, he, htype, hin⟩
        exact (h.joint page hcov hnone hpage).resolve_right hfor
  · intro h
    have hcov : ∀ page, Covered entries page → bitmapEnd entries kernelEnd ≤ page * 4096 →
        Released entries page ∨ Foreign entries page := by
      intro page hcov hpage
      by_cases hfor : Foreign entries page
      · exact Or.inr hfor
      · exact Or.inl ((h page hpage).mpr ⟨hcov, hfor⟩)
    refine ⟨?_, ?_, fun page hc _ hpage => hcov page hc hpage, ?_⟩
    · intro e he htype hmod hlen hpage
      refine ((h _ hpage).mp ⟨e, he, htype, ?_⟩).1
      rw [MemoryMapEntry.mem_pages, MemoryMapEntry.nextPage]
      omega
    · intro e he htype hmod hlen hpage
      exact hcov _ ((e.contains_nextPage hmod hlen).covered he htype) hpage
    · intro e he htype page hmem hpage
      exact ((h page hpage).mp ⟨e, he, htype, hmem⟩).2

/-- **The free set** after `pmm_init` is the right one exactly if the memory map rounds right. -/
theorem pmmInit_free_iff (h : KernelMap entries kernelEnd) :
    ∃ m, pmmInit entries 0x100000 kernelEnd = some m
      ∧ ((∀ page, m.Free page ↔ Usable entries kernelEnd page)
        ↔ RoundsRight entries kernelEnd) := by
  obtain ⟨m, hm, hfree⟩ := h.exists_free_iff
  refine ⟨m, hm, ?_⟩
  rw [roundsRight_iff]
  refine forall_congr' fun page => ?_
  rw [hfree, h.usable_iff, and_congr_right_iff]

/-- The statement for the map of stage 2. -/
theorem pmmInit_free_iff_fallback :
    ∃ m, pmmInit createFallbackMemoryMap 0x100000 0x200000 = some m
      ∧ ((∀ page, m.Free page ↔ Usable createFallbackMemoryMap 0x200000 page)
        ↔ RoundsRight createFallbackMemoryMap 0x200000) :=
  pmmInit_free_iff (kernelMap_fallback (by decide) (by decide))

/-- A map whose usable entries consist of whole pages, apart from the other entries. -/
lemma roundsRight_of_aligned
    (hbase : ∀ e ∈ entries, e.type = 1 → e.base.toNat % 4096 = 0 ∧ e.length.toNat % 4096 = 0)
    (hapart : ∀ e ∈ entries, e.type = 1 → ∀ page ∈ e.pages, ¬ Foreign entries page) :
    RoundsRight entries kernelEnd := by
  refine ⟨?_, ?_, ?_, fun e he htype page hmem _ => hapart e he htype page hmem⟩
  · intro e he htype hmod
    exact absurd (hbase e he htype).1 hmod
  · intro e he htype hmod
    have h := hbase e he htype
    omega
  · intro page hcov hnone _
    -- the entry of the first byte has all of the page
    obtain ⟨e, he, htype, hlo, hhi⟩ := hcov (page * 4096) le_rfl (by omega)
    have h := hbase e he htype
    exact absurd ⟨hlo, by omega⟩ (hnone e he htype)

/-- The map of stage 2 and 8 KB of usable memory that start in the middle of a page. -/
def halfPageMap : List MemoryMapEntry := createFallbackMemoryMap ++ [⟨0x08000800, 0x2000, 1⟩]

/-- The kernel runs on this map. -/
lemma kernelMap_halfPage : KernelMap halfPageMap 0x200000 := by
  have hcov : ∀ page, 256 ≤ page → page < 32768 → Covered halfPageMap page := by
    intro page h₁ h₂ a ha ha'
    obtain ⟨e, he, hin⟩ := covered_fallback h₁ h₂ a ha ha'
    exact ⟨e, List.mem_append_left _ he, hin⟩
  have hbase : (bitmapBase 0x200000).toNat = 0x200000 := by decide
  have hend : bitmapEnd halfPageMap 0x200000 = 0x201001 := by decide
  refine ⟨by decide, by decide, fun page h => ?_, fun page h => ?_⟩
  · obtain ⟨hlo, hhi⟩ := h
    have hkernel : (0x200000 : BitVec 64).toNat = 0x200000 := rfl
    exact hcov page (by omega) (by omega)
  · rw [hbase, hend] at h
    obtain ⟨hlo, hhi⟩ := h
    exact hcov page (by omega) (by omega)

/-- **Half a page is handed out**: page `0x8000` is free, and its first byte in no entry. -/
theorem partial_page_free :
    KernelMap halfPageMap 0x200000 ∧ ∃ m, pmmInit halfPageMap 0x100000 0x200000 = some m
      ∧ m.Free 0x8000 ∧ ¬ Usable halfPageMap 0x200000 0x8000 := by
  obtain ⟨m, hm, hfree⟩ := kernelMap_halfPage.exists_free_iff
  refine ⟨kernelMap_halfPage, m, hm, (hfree 0x8000).mpr ⟨by decide, ?_⟩, fun h => ?_⟩
  · exact ⟨⟨0x08000800, 0x2000, 1⟩, by decide, rfl, by decide⟩
  · obtain ⟨e, he, -, hlo, hhi⟩ := h.covered 0x8000000 (by decide) (by decide)
    revert he hlo hhi
    revert e
    decide

end KiOS
