import KiOS.Mm.PmmAccounting
import KiOS.Mm.Vmm

/-!
The physical memory manager as the allocator of the VMM and the heap.

* `pmmAlloc`: `pmm_alloc_page` without the case of an access outside the bitmap, which never
  occurs;
* `PmmOk`: the manager is accounted for, never gives page 0 away and manages physical memory;
* `Pmm.Used`: the bit of a page is set;
* `pmmFrames`: it does what is relied upon in `pmm_alloc_page`;
* `PmmOk.freePage`: what `pmm_free_page` does to the pages in use.
-/

namespace KiOS

/-- `pmm_alloc_page`. -/
def pmmAlloc (m : Pmm) : BitVec 64 × Pmm := (pmmAllocPage m).getD (0, m)

/-- `pmm_free_page`. -/
def pmmFree (m : Pmm) (phys : BitVec 64) : Pmm := (pmmFreePage m phys).getD m

/-- A page that is allocated or reserved. -/
def Pmm.Used (m : Pmm) (page : ℕ) : Prop := page < m.totalPages ∧ m.isSet page = true

/-- What holds of the manager in every run. Physical addresses have 52 bits. -/
structure PmmOk (m : Pmm) : Prop where
  run : PmmRun.Inv ⟨m, ∅⟩
  total_le : m.totalPages ≤ 2 ^ 40

namespace PmmOk

variable {m : Pmm}

/-- An allocation, by the number of free pages. -/
lemma alloc_cases (h : PmmOk m) :
    (0 < m.totalPages - m.usedPages.toNat ∧ ∃ i, 0 < i ∧ i < m.totalPages ∧ m.isSet i = false
        ∧ pmmAlloc m = (BitVec.ofNat 64 (i * 4096), m.taken i))
      ∨ (m.totalPages - m.usedPages.toNat = 0 ∧ pmmAlloc m = (0, m)) := by
  have hused := h.run.accounted.used_eq
  have hle := h.run.accounted.used_le
  dsimp only at hused hle
  rcases h.run.alloc_cases with ⟨phys, _, hal, hpos, ⟨hlt, hs⟩, heq⟩ | ⟨hall, heq⟩
  · refine Or.inl ⟨?_, phys.toNat / 4096, hpos, hlt, hs, ?_⟩
    · by_contra hn
      have hset := Bitmap.count_eq_iff.mp (hused.symm.trans (by omega)) _ hlt
      exact absurd hset (by simpa [Pmm.isSet] using hs)
    · rw [pmmAlloc, heq, Option.getD_some, Nat.div_mul_cancel (Nat.dvd_of_mod_eq_zero hal)]
      simp
  · have hfull : Bitmap.count m.bitmap m.totalPages = m.totalPages := Bitmap.count_eq_iff.mpr hall
    refine Or.inr ⟨by omega, by rw [pmmAlloc, heq, Option.getD_some]⟩

lemma alloc_eq (h : PmmOk m) (hfree : 0 < m.totalPages - m.usedPages.toNat) :
    ∃ i, 0 < i ∧ i < m.totalPages ∧ m.isSet i = false
      ∧ (BitVec.ofNat 64 (i * 4096)).toNat = i * 4096
      ∧ (frameOf (BitVec.ofNat 64 (i * 4096))).toNat = i
      ∧ pmmAlloc m = (BitVec.ofNat 64 (i * 4096), m.taken i) := by
  rcases h.alloc_cases with ⟨-, i, hpos, hlt, hs, heq⟩ | ⟨hz, -⟩
  · have hnat := toNat_pageAddr (i := i) (by have := h.total_le; omega)
    exact ⟨i, hpos, hlt, hs, hnat, by rw [toNat_frameOf, hnat]; omega, heq⟩
  · omega

lemma taken {i : ℕ} (h : PmmOk m) (hlt : i < m.totalPages) (hs : m.isSet i = false) :
    PmmOk (m.taken i) := by
  refine ⟨⟨h.run.accounted.taken hlt hs, ?_, by simp, by simp, by simp, by simp⟩, h.total_le⟩
  have hzero : m.isSet 0 = true := h.run.zero_taken
  simp [Pmm.isSet_taken hlt, hzero]

/-- `pmm_free_page` of a page in use other than page 0. -/
lemma freePage {phys : BitVec 64} (h : PmmOk m) (hal : phys.toNat % 4096 = 0)
    (hpos : 0 < phys.toNat / 4096) (hs : m.Used (phys.toNat / 4096)) :
    PmmOk (pmmFree m phys)
      ∧ ∀ i, (pmmFree m phys).Used i ↔ m.Used i ∧ i ≠ phys.toNat / 4096 := by
  obtain ⟨hlt, hset⟩ := hs
  have hrun : PmmRun.Inv ⟨m, {phys}⟩ := ⟨h.run.accounted, h.run.zero_taken, by simpa using hal,
    by simpa using hpos, by simpa using hlt, by simpa using hset⟩
  have heq := Pmm.pmmFreePage_eq hlt hset
  have hfree : pmmFree m phys = m.cleared (phys.toNat / 4096) := by
    rw [pmmFree, heq, Option.getD_some]
  have hstep : pmmMachine.step ⟨m, {phys}⟩ (.free phys)
      = some ⟨m.cleared (phys.toNat / 4096), ∅⟩ := by
    simp [pmmMachine, heq]
  rw [hfree]
  refine ⟨⟨hrun.step_free (Finset.mem_singleton_self phys) hstep, h.total_le⟩, fun i => ?_⟩
  simp only [Pmm.Used, Pmm.cleared_totalPages, Pmm.isSet_cleared, Bool.and_eq_true,
    Bool.not_eq_true', decide_eq_false_iff_not]
  tauto

end PmmOk

/-- **The physical memory manager is a source of frames.** -/
def pmmFrames : FrameSource Pmm where
  alloc := pmmAlloc
  Inv := PmmOk
  Taken m f := m.Used f.toNat
  free m := m.totalPages - m.usedPages.toNat
  alloc_zero m h hz := by
    rcases h.alloc_cases with ⟨hfree, -⟩ | ⟨-, heq⟩
    · omega
    · exact heq
  alloc_inv m h hfree := by
    obtain ⟨i, -, hlt, hs, -, -, heq⟩ := h.alloc_eq hfree
    rw [heq]
    exact h.taken hlt hs
  alloc_ne_zero m h hfree := by
    obtain ⟨i, hpos, -, -, hnat, -, heq⟩ := h.alloc_eq hfree
    rw [heq]
    intro h0
    have := congrArg BitVec.toNat h0
    dsimp only at this
    rw [hnat] at this
    simp at this
    omega
  alloc_aligned m h hfree := by
    obtain ⟨i, -, -, -, hnat, -, heq⟩ := h.alloc_eq hfree
    rw [heq, hnat]
    omega
  alloc_lt m h hfree := by
    obtain ⟨i, -, hlt, -, hnat, -, heq⟩ := h.alloc_eq hfree
    have := h.total_le
    rw [heq, hnat]
    omega
  alloc_fresh m h hfree := by
    obtain ⟨i, -, hlt, hs, -, hframe, heq⟩ := h.alloc_eq hfree
    rw [heq, hframe]
    exact fun hused => absurd hused.2 (by simp [hs])
  alloc_taken m h hfree f := by
    obtain ⟨i, -, hlt, hs, -, hframe, heq⟩ := h.alloc_eq hfree
    rw [heq]
    simp only [Pmm.Used, Pmm.taken_totalPages, Pmm.isSet_taken hlt, ← BitVec.toNat_inj, hframe,
      Bool.or_eq_true, decide_eq_true_eq]
    constructor
    · rintro ⟨h1, h2 | h2⟩
      · exact Or.inr h2.symm
      · exact Or.inl ⟨h1, h2⟩
    · rintro (h1 | h1)
      · exact ⟨h1.1, Or.inr h1.2⟩
      · exact ⟨h1 ▸ hlt, Or.inl h1.symm⟩
  alloc_free m h hfree := by
    obtain ⟨i, -, hlt, hs, -, -, heq⟩ := h.alloc_eq hfree
    have hacc := h.run.accounted.taken hlt hs
    have hcount := hacc.used_eq
    have hused := h.run.accounted.used_eq
    have hset := Bitmap.count_setBit (by omega) (Pmm.byte_lt hlt) hlt hs
    rw [heq]
    dsimp only [Pmm.taken] at hcount hused ⊢
    omega

end KiOS
