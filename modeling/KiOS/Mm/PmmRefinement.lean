import KiOS.Mm.PmmAccounting

/-!
The physical memory manager as a set of free pages.

* `PageSet`: the manager in its own terms: a finite set, from which an allocation takes the least
  page and to which a free adds one;
* `PmmLog`: the manager of the source with the addresses it has returned;
* `PmmLog.Refines`: the bitmap is the set, and the counter what is left of the pages;
* `pmm_refines_set`: whatever pages are freed, outstanding or not, once or again, the two return
  the same addresses and stay in step.
-/

namespace KiOS

/-! ### The two levels -/

/-- A set of free pages and the addresses returned so far. -/
structure PageSet where
  free : Finset ℕ
  returned : List (BitVec 64)

/-- What the calls do to the set: the least page is given away, NULL if there is none. -/
def PageSet.step (s : PageSet) : PmmEvent → PageSet
  | .alloc =>
      if h : s.free.Nonempty then
        { free := s.free.erase (s.free.min' h)
          returned := s.returned ++ [BitVec.ofNat 64 (s.free.min' h * 4096)] }
      else { s with returned := s.returned ++ [0] }
  | .free phys => { s with free := insert (phys.toNat / 4096) s.free }

/-- The manager and the addresses returned so far. -/
structure PmmLog where
  pmm : Pmm
  returned : List (BitVec 64)

/-- The calls of the source. -/
def PmmLog.step (s : PmmLog) : PmmEvent → Option PmmLog
  | .alloc => (pmmAllocPage s.pmm).map fun r => ⟨r.2, s.returned ++ [r.1]⟩
  | .free phys => (pmmFreePage s.pmm phys).map fun m => ⟨m, s.returned⟩

/-- The pages whose bit is clear. -/
def Pmm.freeSet (m : Pmm) : Finset ℕ :=
  (Finset.range m.totalPages).filter fun i => m.isSet i = false

/-- The calls that stay inside the bitmap: any page of the memory map may be freed. -/
def Pmm.Covers (m : Pmm) : PmmEvent → Prop
  | .alloc => True
  | .free phys => phys.toNat / 4096 < m.totalPages

/-- The set describes the manager. -/
structure PmmLog.Refines (s : PmmLog) (a : PageSet) : Prop where
  returned : s.returned = a.returned
  free : s.pmm.freeSet = a.free
  used : s.pmm.usedPages.toNat + a.free.card = s.pmm.totalPages

/-! ### One call -/

namespace Pmm

variable {m : Pmm} {i page : ℕ} {phys : BitVec 64}

lemma mem_freeSet : i ∈ m.freeSet ↔ i < m.totalPages ∧ m.isSet i = false := by
  rw [freeSet, Finset.mem_filter, Finset.mem_range]

lemma freeSet_taken (h : page < m.totalPages) : (m.taken page).freeSet = m.freeSet.erase page := by
  ext i
  rw [Finset.mem_erase, mem_freeSet, mem_freeSet, taken_totalPages, isSet_taken h,
    Bool.or_eq_false_iff, decide_eq_false_iff_not, eq_comm (a := page)]
  tauto

lemma freeSet_cleared (h : page < m.totalPages) :
    (m.cleared page).freeSet = insert page m.freeSet := by
  ext i
  rw [Finset.mem_insert, mem_freeSet, mem_freeSet, cleared_totalPages, isSet_cleared,
    Bool.and_eq_false_iff, Bool.not_eq_false', decide_eq_true_eq, eq_comm (a := page)]
  constructor
  · tauto
  · rintro (rfl | hi)
    · exact ⟨h, Or.inl rfl⟩
    · exact ⟨hi.1, Or.inr hi.2⟩

/-- The counter is the number of pages that are not free. -/
lemma Accounted.used_add_card (h : m.Accounted) :
    m.usedPages.toNat + m.freeSet.card = m.totalPages := by
  have htaken : m.freeSet = (Finset.range m.totalPages).filter fun i => ¬ m.isSet i = true := by
    ext i
    rw [mem_freeSet, Finset.mem_filter, Finset.mem_range, Bool.not_eq_true]
  have hsplit := Finset.card_filter_add_card_filter_not (s := Finset.range m.totalPages)
    fun i => m.isSet i = true
  rw [Finset.card_range, ← htaken] at hsplit
  rw [h.used_eq]
  exact hsplit

/-- The allocation in terms of the set. -/
lemma pmmAllocPage_freeSet (m : Pmm) :
    (∃ h : m.freeSet.Nonempty, m.freeSet.min' h < m.totalPages
        ∧ m.isSet (m.freeSet.min' h) = false
        ∧ pmmAllocPage m = some (BitVec.ofNat 64 (m.freeSet.min' h * 4096),
          m.taken (m.freeSet.min' h)))
      ∨ (m.freeSet = ∅ ∧ pmmAllocPage m = some (0, m)) := by
  rcases m.pmmAllocPage_cases with ⟨i, hi, hbelow, hs, heq⟩ | ⟨hall, heq⟩
  · have hmem : i ∈ m.freeSet := mem_freeSet.mpr ⟨hi, hs⟩
    have hmin : m.freeSet.min' ⟨i, hmem⟩ = i := by
      refine le_antisymm (Finset.min'_le _ i hmem) (Finset.le_min' _ _ _ fun j hj => ?_)
      by_contra hlt
      have hset := hbelow j (by omega)
      rw [(mem_freeSet.mp hj).2] at hset
      cases hset
    exact Or.inl ⟨⟨i, hmem⟩, hmin.symm ▸ ⟨hi, hs, heq⟩⟩
  · refine Or.inr ⟨Finset.eq_empty_of_forall_notMem fun i hi => ?_, heq⟩
    obtain ⟨hlt, hs⟩ := mem_freeSet.mp hi
    rw [hall i hlt] at hs
    cases hs

end Pmm

/-! ### All calls -/

/-- The manager keeps its books and the set describes it. -/
structure PmmLog.Inv (total : ℕ) (s : PmmLog) (a : PageSet) : Prop where
  accounted : s.pmm.Accounted
  total : s.pmm.totalPages = total
  returned : s.returned = a.returned
  free : s.pmm.freeSet = a.free

namespace PmmLog.Inv

variable {total : ℕ} {s : PmmLog} {a : PageSet}

lemma step_alloc (h : s.Inv total a) :
    ∃ s', s.step .alloc = some s' ∧ s'.Inv total (a.step .alloc) := by
  rw [PmmLog.step, PageSet.step, ← h.free, ← h.returned]
  rcases s.pmm.pmmAllocPage_freeSet with ⟨hne, hlt, hs, heq⟩ | ⟨hnone, heq⟩
  · rw [heq, dif_pos hne]
    exact ⟨_, rfl, h.accounted.taken hlt hs, h.total, rfl, Pmm.freeSet_taken hlt⟩
  · rw [heq, dif_neg (by rw [hnone]; exact Finset.not_nonempty_empty)]
    exact ⟨_, rfl, h.accounted, h.total, rfl, rfl⟩

/-- A page is freed, or was free before: then its bit is clear and nothing is changed. -/
lemma step_free {phys : BitVec 64} (h : s.Inv total a) (hlt : phys.toNat / 4096 < total) :
    ∃ s', s.step (.free phys) = some s' ∧ s'.Inv total (a.step (.free phys)) := by
  rw [← h.total] at hlt
  rw [PmmLog.step, PageSet.step, ← h.free, pmmFreePage, Pmm.release_eq hlt]
  by_cases hs : s.pmm.isSet (phys.toNat / 4096) = true
  · rw [if_pos hs]
    exact ⟨_, rfl, h.accounted.cleared hlt hs, h.total, h.returned, Pmm.freeSet_cleared hlt⟩
  · rw [if_neg hs]
    refine ⟨_, rfl, h.accounted, h.total, h.returned, (Finset.insert_eq_self.mpr ?_).symm⟩
    exact Pmm.mem_freeSet.mpr ⟨hlt, by simpa using hs⟩

lemma refines (h : s.Inv total a) : s.Refines a :=
  ⟨h.returned, h.free, h.free ▸ h.accounted.used_add_card⟩

end PmmLog.Inv

/-- **The PMM refines a set of free pages**: after `pmm_init`, and whatever calls follow, freeing
any pages of the memory map, outstanding or not and as often as one likes, no call leaves the
bitmap, the addresses returned are those of the set from which an allocation takes the least page,
and the counter is the number of pages not in the set. -/
theorem pmm_refines_set {entries : List MemoryMapEntry} {kernelEnd : BitVec 64}
    (h : KernelMap entries kernelEnd) :
    ∃ m, pmmInit entries 0x100000 kernelEnd = some m
      ∧ ∀ es : List PmmEvent, (∀ e ∈ es, m.Covers e) →
        ∃ s, es.foldlM PmmLog.step ⟨m, []⟩ = some s
          ∧ s.Refines (es.foldl PageSet.step ⟨m.freeSet, []⟩) := by
  obtain ⟨m, hm, hacc, -, -⟩ := pmmInit_spec h
  refine ⟨m, hm, fun es hes => ?_⟩
  obtain ⟨s, hs, hinv⟩ := foldlM_invariant
    (fun (done : List PmmEvent) (s : PmmLog) =>
      s.Inv m.totalPages (done.foldl PageSet.step ⟨m.freeSet, []⟩))
    (l := es) (f := PmmLog.step) (a := ⟨m, []⟩) ⟨hacc, rfl, rfl, rfl⟩
    (by
      rintro done e rest rfl s hs
      rw [List.foldl_append, List.foldl_cons, List.foldl_nil]
      cases e with
      | alloc => exact hs.step_alloc
      | free phys => exact hs.step_free (hes (.free phys) (by simp)))
  exact ⟨s, hs, hinv.refines⟩

/-- The statement at the map stage 2 builds, for a kernel that ends at `0x120000`. -/
theorem pmm_refines_set_fallback :
    ∃ m, pmmInit createFallbackMemoryMap 0x100000 0x120000 = some m
      ∧ ∀ es : List PmmEvent, (∀ e ∈ es, m.Covers e) →
        ∃ s, es.foldlM PmmLog.step ⟨m, []⟩ = some s
          ∧ s.Refines (es.foldl PageSet.step ⟨m.freeSet, []⟩) :=
  pmm_refines_set (kernelMap_fallback (by decide) (by decide))

end KiOS
