import KiOS.Library.Align
import KiOS.Mm.Pmm

/-!
What `pmm_init` leaves behind, for every memory map on which the kernel can run.

* `KernelMap`: the maps considered: no entry wraps, and the usable entries contain every
  page that the kernel image or the bitmap touches;
* `KernelMap.page_lt`, `mem_kernelPages`: under it all pages that `pmm_init` looks at exist;
* `pmmInit_spec`: it never leaves the bitmap, its counter agrees with the bitmap, and a page
  is free exactly if a usable entry gives it away and neither reservation takes it back.
-/

namespace KiOS

/-- A page has a byte in `[lo, hi)`. -/
def Touches (lo hi page : ℕ) : Prop := page * 4096 < hi ∧ lo < (page + 1) * 4096

/-- Every byte of the page lies in a usable entry. -/
def Covered (entries : List MemoryMapEntry) (page : ℕ) : Prop :=
  ∀ a, page * 4096 ≤ a → a < (page + 1) * 4096 →
    ∃ e ∈ entries, e.type = 1 ∧ e.base.toNat ≤ a ∧ a < e.base.toNat + e.length.toNat

/-- `total_pages` of a memory map. -/
def pageTotal (entries : List MemoryMapEntry) : ℕ := (maxAddr entries).toNat / 4096

/-- The address behind the bitmap. -/
def bitmapEnd (entries : List MemoryMapEntry) (kernelEnd : BitVec 64) : ℕ :=
  (bitmapBase kernelEnd).toNat + (pageTotal entries + 7) / 8

/-- The kernel, loaded at 1 MB, sits with its bitmap in usable memory. -/
structure KernelMap (entries : List MemoryMapEntry) (kernelEnd : BitVec 64) : Prop where
  nowrap : ∀ e ∈ entries, e.base.toNat + e.length.toNat < 2 ^ 64
  image_pos : 0x100000 < kernelEnd.toNat
  image : ∀ page, Touches 0x100000 kernelEnd.toNat page → Covered entries page
  bitmap : ∀ page, Touches (bitmapBase kernelEnd).toNat (bitmapEnd entries kernelEnd) page →
    Covered entries page

/-! ### The size of memory -/

private lemma le_foldl_maxAddr {x : ℕ} : ∀ (entries : List MemoryMapEntry) (m : BitVec 64),
    (x ≤ m.toNat ∨ ∃ e ∈ entries, e.base.toNat + e.length.toNat < 2 ^ 64
        ∧ x ≤ e.base.toNat + e.length.toNat) →
      x ≤ (entries.foldl
        (fun m e => if m < e.base + e.length then e.base + e.length else m) m).toNat
  | [], m, h => by simpa using h
  | e :: es, m, h => by
      refine le_foldl_maxAddr es _ ?_
      rcases h with h | ⟨e', he', hw, hx⟩
      · left
        dsimp only
        split
        · rename_i hlt
          exact h.trans hlt.le
        · exact h
      · rcases List.mem_cons.mp he' with rfl | hmem
        · left
          have hsum := BitVec.toNat_add_of_lt hw
          dsimp only
          split
          · rw [hsum]
            exact hx
          · rename_i hlt
            have hle : (e'.base + e'.length).toNat ≤ m.toNat := by
              simpa [BitVec.lt_def] using hlt
            omega
        · exact Or.inr ⟨e', hmem, hw, hx⟩

lemma le_maxAddr {entries : List MemoryMapEntry} {e : MemoryMapEntry} (he : e ∈ entries)
    (hw : e.base.toNat + e.length.toNat < 2 ^ 64) :
    e.base.toNat + e.length.toNat ≤ (maxAddr entries).toNat :=
  le_foldl_maxAddr entries 0 (Or.inr ⟨e, he, hw, le_rfl⟩)

/-- Rounding the end of the kernel up, where the sum does not wrap. -/
lemma toNat_bitmapBase_of_le (kernelEnd : BitVec 64) (h : kernelEnd.toNat ≤ 2 ^ 64 - 4096) :
    (bitmapBase kernelEnd).toNat = (kernelEnd.toNat + 4095) / 4096 * 4096 := by
  have hsum : (kernelEnd + 4096 - 1).toNat = kernelEnd.toNat + 4095 := by
    rw [show kernelEnd + 4096 - 1 = kernelEnd + 4095 by grind]
    exact BitVec.toNat_add_of_lt (by simp; omega)
  have halign := BitVec.toNat_alignDown (k := 12) (x := kernelEnd + 4096 - 1)
  rw [hsum] at halign
  exact halign

namespace KernelMap

variable {entries : List MemoryMapEntry} {kernelEnd : BitVec 64}

/-- A page of usable memory is below `total_pages`. -/
lemma covered_lt (h : KernelMap entries kernelEnd) {page : ℕ} (hc : Covered entries page) :
    page < pageTotal entries := by
  obtain ⟨e, he, _, _, hlt⟩ := hc ((page + 1) * 4096 - 1) (by omega) (by omega)
  have := le_maxAddr he (h.nowrap e he)
  rw [pageTotal]
  omega

/-- The pages an entry gives away exist: rounding base and length down separately loses
pages, it never gains one. -/
lemma page_lt (h : KernelMap entries kernelEnd) {e : MemoryMapEntry} (he : e ∈ entries) {page : ℕ}
    (hp : page ∈ e.pages) : page < pageTotal entries := by
  have hle := le_maxAddr he (h.nowrap e he)
  simp only [MemoryMapEntry.pages, List.mem_range'_1] at hp
  rw [pageTotal]
  omega

lemma pageTotal_lt (entries : List MemoryMapEntry) : pageTotal entries < 2 ^ 52 := by
  have := (maxAddr entries).isLt
  rw [pageTotal]
  omega

lemma kernelEnd_le (h : KernelMap entries kernelEnd) :
    kernelEnd.toNat ≤ pageTotal entries * 4096 := by
  have hpos := h.image_pos
  have := h.covered_lt (h.image ((kernelEnd.toNat - 1) / 4096) ⟨by omega, by omega⟩)
  omega

lemma toNat_bitmapBase (h : KernelMap entries kernelEnd) :
    (bitmapBase kernelEnd).toNat = (kernelEnd.toNat + 4095) / 4096 * 4096 := by
  have hle := h.kernelEnd_le
  have htot := pageTotal_lt entries
  exact toNat_bitmapBase_of_le kernelEnd (by omega)

/-- More than one megabyte of memory: the kernel's first page exists. -/
lemma lt_pageTotal (h : KernelMap entries kernelEnd) : 256 < pageTotal entries := by
  have := h.kernelEnd_le
  have := h.image_pos
  omega

lemma bitmapEnd_le (h : KernelMap entries kernelEnd) :
    bitmapEnd entries kernelEnd ≤ pageTotal entries * 4096 := by
  have hbase := h.toNat_bitmapBase
  have hpos := h.image_pos
  have htot := h.lt_pageTotal
  have hend : bitmapEnd entries kernelEnd
      = (bitmapBase kernelEnd).toNat + (pageTotal entries + 7) / 8 := rfl
  have := h.covered_lt
    (h.bitmap ((bitmapEnd entries kernelEnd - 1) / 4096) ⟨by omega, by omega⟩)
  omega

/-- The kernel's pages are those from 1 MB to the end of the bitmap. -/
lemma mem_kernelPages (h : KernelMap entries kernelEnd) {page : ℕ} :
    page ∈ kernelPages 0x100000 kernelEnd (pageTotal entries)
      ↔ 256 ≤ page ∧ page * 4096 < bitmapEnd entries kernelEnd := by
  have hle := h.bitmapEnd_le
  have htot := pageTotal_lt entries
  have hend : bitmapEnd entries kernelEnd
      = (bitmapBase kernelEnd).toNat + (pageTotal entries + 7) / 8 := rfl
  have hbm : (bitmapBase kernelEnd + BitVec.ofNat 64 ((pageTotal entries + 7) / 8)).toNat
      = bitmapEnd entries kernelEnd := by
    have hsize : (BitVec.ofNat 64 ((pageTotal entries + 7) / 8)).toNat
        = (pageTotal entries + 7) / 8 := by
      rw [BitVec.toNat_ofNat]
      exact Nat.mod_eq_of_lt (by omega)
    rw [BitVec.toNat_add_of_lt (by omega), hsize, hend]
  have hup : (bitmapBase kernelEnd + BitVec.ofNat 64 ((pageTotal entries + 7) / 8)
      + 4096 - 1).toNat = bitmapEnd entries kernelEnd + 4095 := by
    rw [← hbm]
    generalize bitmapBase kernelEnd + BitVec.ofNat 64 ((pageTotal entries + 7) / 8) = x at hbm ⊢
    rw [show x + 4096 - 1 = x + 4095 by grind]
    exact BitVec.toNat_add_of_lt (by simp; omega)
  simp only [kernelPages, hup, List.mem_range'_1]
  have hstart : (0x100000 : BitVec 64).toNat / 4096 = 256 := rfl
  rw [hstart]
  omega

end KernelMap

/-! ### The bits after initialisation -/

lemma Pmm.full_isSet {totalPages page : ℕ} (h : page < totalPages) :
    (Pmm.full totalPages).isSet page = true := by
  have hb : page / 8 < (Array.replicate ((totalPages + 7) / 8) (0xFF : BitVec 8)).size := by
    simp
    omega
  have hones : ∀ k < 8, (0xFF : BitVec 8).getLsbD k = true := by decide
  rw [Pmm.isSet, Pmm.full, Bitmap.testBit_eq_getLsbD hb, Array.getElem_replicate]
  exact hones _ (Nat.mod_lt page (by norm_num))

lemma Pmm.full_accounted {totalPages : ℕ} (h : totalPages < 2 ^ 52) :
    (Pmm.full totalPages).Accounted := by
  refine ⟨h, ?_⟩
  have hcount : Bitmap.count (Pmm.full totalPages).bitmap totalPages = totalPages :=
    Bitmap.count_eq_iff.mpr fun i hi => Pmm.full_isSet hi
  rw [show (Pmm.full totalPages).totalPages = totalPages from rfl, hcount]
  simp only [Pmm.full, BitVec.toNat_ofNat]
  omega

/-- A usable entry gives the page away. -/
def Released (entries : List MemoryMapEntry) (page : ℕ) : Prop :=
  ∃ e ∈ entries, e.type = 1 ∧ page ∈ e.pages

/-- The loop over the memory map clears exactly the bits of the pages given away. -/
lemma KernelMap.foldlM_freeEntry {entries : List MemoryMapEntry} {kernelEnd : BitVec 64}
    (h : KernelMap entries kernelEnd) :
    ∃ m, entries.foldlM Pmm.freeEntry (Pmm.full (pageTotal entries)) = some m ∧ m.Accounted
      ∧ m.totalPages = pageTotal entries
      ∧ ∀ i < pageTotal entries, (m.isSet i = true ↔ ¬ Released entries i) := by
  refine foldlM_invariant (fun p (m : Pmm) => m.Accounted ∧ m.totalPages = pageTotal entries
      ∧ ∀ i < pageTotal entries, (m.isSet i = true ↔ ¬ Released p i))
    ⟨Pmm.full_accounted (pageTotal_lt entries), rfl,
      fun i hi => by simp [Pmm.full_isSet hi, Released]⟩ ?_
  rintro p e r hl m ⟨hacc, htot, hbits⟩
  have hsplit : ∀ i, Released (p ++ [e]) i ↔ Released p i ∨ (e.type = 1 ∧ i ∈ e.pages) := by
    intro i
    simp only [Released, List.mem_append, List.mem_singleton]
    grind
  by_cases htype : e.type = 1
  · obtain ⟨m', h', hacc', htot', hbits'⟩ := Pmm.foldlM_release hacc (l := e.pages)
      fun page hp => htot ▸ h.page_lt (by simp [hl]) hp
    have hstep : m.freeEntry e = some m' := by rw [Pmm.freeEntry, if_neg (not_not.mpr htype), h']
    refine ⟨m', hstep, hacc', htot'.trans htot, fun i hi => ?_⟩
    simp only [hbits', hbits i hi, hsplit, not_or, htype, true_and]
  · refine ⟨m, by rw [Pmm.freeEntry, if_pos htype], hacc, htot, fun i hi => ?_⟩
    simp only [hbits i hi, hsplit, htype, false_and, or_false]

/-- **`pmm_init`**: every access is inside the bitmap, the counter agrees with the bitmap, and
a page is taken unless a usable entry gives it away, it lies above the first megabyte and
belongs neither to the kernel nor to the bitmap. -/
theorem pmmInit_spec {entries : List MemoryMapEntry} {kernelEnd : BitVec 64}
    (h : KernelMap entries kernelEnd) :
    ∃ m, pmmInit entries 0x100000 kernelEnd = some m ∧ m.Accounted
      ∧ m.totalPages = pageTotal entries
      ∧ ∀ i < pageTotal entries, (m.isSet i = true ↔ ¬ Released entries i ∨ i < 256
          ∨ (256 ≤ i ∧ i * 4096 < bitmapEnd entries kernelEnd)) := by
  -- the usable entries, one after the other
  obtain ⟨m₁, h₁, hacc₁, htot₁, hbits₁⟩ := h.foldlM_freeEntry
  -- the first megabyte
  obtain ⟨m₂, h₂, hacc₂, htot₂, hbits₂⟩ := Pmm.foldlM_reserve hacc₁
    (l := List.range (0x100000 / 4096)) fun page hp => by
      have := h.lt_pageTotal
      simp only [List.mem_range] at hp
      omega
  -- the kernel and the bitmap
  obtain ⟨m₃, h₃, hacc₃, htot₃, hbits₃⟩ := Pmm.foldlM_reserve hacc₂
    (l := kernelPages 0x100000 kernelEnd (pageTotal entries)) fun page hp => by
      have hp' := h.mem_kernelPages.mp hp
      have := h.bitmapEnd_le
      rw [htot₂, htot₁]
      omega
  refine ⟨m₃, ?_, hacc₃, htot₃.trans (htot₂.trans htot₁), fun i hi => ?_⟩
  · have hdef : pmmInit entries 0x100000 kernelEnd
        = (entries.foldlM Pmm.freeEntry (Pmm.full (pageTotal entries))).bind fun m =>
          ((List.range (0x100000 / 4096)).foldlM Pmm.reserve m).bind fun m =>
            (kernelPages 0x100000 kernelEnd (pageTotal entries)).foldlM Pmm.reserve m := rfl
    rw [hdef, h₁, Option.bind_some, h₂, Option.bind_some, h₃]
  · rw [hbits₃, hbits₂, hbits₁ i hi, h.mem_kernelPages, List.mem_range, or_assoc]

/-! ### The map stage 2 builds -/

/-- `create_fallback_memory_map` of stage 2: 640 KB from 0 and 127 MB from 1 MB. -/
def createFallbackMemoryMap : List MemoryMapEntry :=
  [⟨0x00000000, 0x000A0000, 1⟩, ⟨0x00100000, 0x07F00000, 1⟩]

lemma pageTotal_fallback : pageTotal createFallbackMemoryMap = 32768 := by decide

lemma covered_fallback {page : ℕ} (h₁ : 256 ≤ page) (h₂ : page < 32768) :
    Covered createFallbackMemoryMap page := by
  intro a ha₁ ha₂
  refine ⟨⟨0x00100000, 0x07F00000, 1⟩, by simp [createFallbackMemoryMap], rfl, ?_, ?_⟩
  · simp
    omega
  · simp
    omega

/-- The kernel runs on this map if its image and the 4 KB bitmap end within 128 MB. -/
lemma kernelMap_fallback {kernelEnd : BitVec 64} (h₁ : 0x100000 < kernelEnd.toNat)
    (h₂ : kernelEnd.toNat ≤ 0x7FFF000) : KernelMap createFallbackMemoryMap kernelEnd := by
  have hbase := toNat_bitmapBase_of_le kernelEnd (by omega)
  have hend : bitmapEnd createFallbackMemoryMap kernelEnd
      = (bitmapBase kernelEnd).toNat + 4096 := by
    rw [bitmapEnd, pageTotal_fallback]
  refine ⟨?_, h₁, fun page h => covered_fallback ?_ ?_, fun page h => covered_fallback ?_ ?_⟩
  · decide
  all_goals
    obtain ⟨h3, h4⟩ := h
    omega

end KiOS
