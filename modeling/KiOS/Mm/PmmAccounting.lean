import KiOS.Mm.PmmInit

/-!
Accounting and exclusivity of the physical memory manager over whole runs.

* `pmmMachine`: a run of `pmm_alloc_page` and `pmm_free_page` in which only outstanding pages
  are freed; the set of outstanding pages is a ghost beside the source's state;
* `PmmRun.Inv`: the invariant, with `inv_alloc` and `inv_free` for the two steps;
* `AllocOk`, `FreeOk`: what one call owes to its caller;
* `pmm_accounting`: from `pmm_init` on, in every run, the counter is the number of set bits,
  no access leaves the bitmap and every call keeps its promise.
-/

namespace KiOS

/-- The manager with the pages handed out and not returned since. -/
structure PmmRun where
  pmm : Pmm
  outstanding : Finset (BitVec 64)

inductive PmmEvent where
  | alloc
  | free (phys : BitVec 64)

/-- Runs of the manager: only outstanding pages are freed. -/
def pmmMachine : EventMachine PmmRun PmmEvent where
  admissible s
    | .alloc => True
    | .free phys => phys ∈ s.outstanding
  step s
    | .alloc => (pmmAllocPage s.pmm).map fun r =>
        ⟨r.2, if r.1 = 0 then s.outstanding else insert r.1 s.outstanding⟩
    | .free phys => (pmmFreePage s.pmm phys).map fun m => ⟨m, s.outstanding.erase phys⟩

/-- A page that `pmm_alloc_page` may return. -/
def Pmm.Free (m : Pmm) (page : ℕ) : Prop := page < m.totalPages ∧ m.isSet page = false

/-- What `pmm_alloc_page` owes: NULL exactly when every page is used, and then nothing is
changed; otherwise a page other than page 0 that was free, is not outstanding and is the only
one to become taken. -/
structure AllocOk (s : PmmRun) (phys : BitVec 64) (m : Pmm) : Prop where
  null_iff : phys = 0 ↔ s.pmm.usedPages.toNat = s.pmm.totalPages
  unchanged : phys = 0 → m = s.pmm
  aligned : phys.toNat % 4096 = 0
  fresh : phys ≠ 0 → phys ∉ s.outstanding
  page_zero : ¬ s.pmm.Free 0
  was_free : phys ≠ 0 → s.pmm.Free (phys.toNat / 4096)
  free_iff : phys ≠ 0 → ∀ i, m.Free i ↔ s.pmm.Free i ∧ i ≠ phys.toNat / 4096

/-- What `pmm_free_page` owes: exactly that one page becomes allocatable again. -/
structure FreeOk (s : PmmRun) (phys : BitVec 64) (m : Pmm) : Prop where
  was_taken : ¬ s.pmm.Free (phys.toNat / 4096)
  free_iff : ∀ i, m.Free i ↔ s.pmm.Free i ∨ i = phys.toNat / 4096

/-- Everything claimed of a state: the counter, and both calls from it. -/
structure PmmRun.Correct (s : PmmRun) : Prop where
  used_eq : s.pmm.usedPages.toNat = Bitmap.count s.pmm.bitmap s.pmm.totalPages
  used_le : s.pmm.usedPages.toNat ≤ s.pmm.totalPages
  alloc : ∃ phys m, pmmAllocPage s.pmm = some (phys, m) ∧ AllocOk s phys m
  free : ∀ phys ∈ s.outstanding, ∃ m, pmmFreePage s.pmm phys = some m ∧ FreeOk s phys m

/-! ### The invariant -/

/-- The invariant of a run. -/
structure PmmRun.Inv (s : PmmRun) : Prop where
  accounted : s.pmm.Accounted
  zero_taken : s.pmm.isSet 0 = true
  out_aligned : ∀ phys ∈ s.outstanding, phys.toNat % 4096 = 0
  out_pos : ∀ phys ∈ s.outstanding, 0 < phys.toNat / 4096
  out_lt : ∀ phys ∈ s.outstanding, phys.toNat / 4096 < s.pmm.totalPages
  out_taken : ∀ phys ∈ s.outstanding, s.pmm.isSet (phys.toNat / 4096) = true

/-- The address of a page, read back. -/
lemma toNat_pageAddr {i : ℕ} (h : i < 2 ^ 52) : (BitVec.ofNat 64 (i * 4096)).toNat = i * 4096 := by
  rw [BitVec.toNat_ofNat]
  exact Nat.mod_eq_of_lt (by omega)

namespace PmmRun.Inv

variable {s : PmmRun}

lemma init {entries : List MemoryMapEntry} {kernelEnd : BitVec 64} {m : Pmm}
    (h : KernelMap entries kernelEnd) (hm : pmmInit entries 0x100000 kernelEnd = some m) :
    PmmRun.Inv ⟨m, ∅⟩ := by
  obtain ⟨m', hm', hacc, htot, hbits⟩ := pmmInit_spec h
  rw [hm, Option.some.injEq] at hm'
  subst hm'
  have hpos := h.lt_pageTotal
  refine ⟨hacc, (hbits 0 (by omega)).mpr (Or.inr (Or.inl (by omega))), ?_, ?_, ?_, ?_⟩ <;> simp

/-- `pmm_alloc_page` from a state of a run: a page other than page 0, or NULL. -/
lemma alloc_cases (h : s.Inv) :
    (∃ phys, phys ≠ 0 ∧ phys.toNat % 4096 = 0 ∧ 0 < phys.toNat / 4096
        ∧ s.pmm.Free (phys.toNat / 4096)
        ∧ pmmAllocPage s.pmm = some (phys, s.pmm.taken (phys.toNat / 4096)))
      ∨ ((∀ i < s.pmm.totalPages, s.pmm.isSet i = true)
        ∧ pmmAllocPage s.pmm = some (0, s.pmm)) := by
  rcases s.pmm.pmmAllocPage_cases with ⟨i, hi, _, hs, heq⟩ | hall
  · have hlt := h.accounted.pages_lt
    have hpos : 0 < i := by
      rcases Nat.eq_zero_or_pos i with rfl | hpos
      · simp [h.zero_taken] at hs
      · exact hpos
    have hnat := toNat_pageAddr (i := i) (by omega)
    have hdiv : (BitVec.ofNat 64 (i * 4096)).toNat / 4096 = i := by omega
    refine Or.inl ⟨BitVec.ofNat 64 (i * 4096), fun h0 => ?_, by omega, by omega, ?_, ?_⟩
    · rw [h0] at hnat
      simp at hnat
      omega
    · rw [hdiv]
      exact ⟨hi, hs⟩
    · rw [hdiv]
      exact heq
  · exact Or.inr hall

lemma step_alloc (h : s.Inv) {u : PmmRun} (hst : pmmMachine.step s .alloc = some u) : u.Inv := by
  simp only [pmmMachine] at hst
  rcases h.alloc_cases with ⟨phys, hne, hal, hpos, ⟨hlt, hs⟩, heq⟩ | ⟨_, heq⟩
  · rw [heq, Option.map_some, Option.some.injEq, if_neg hne] at hst
    subst hst
    refine ⟨h.accounted.taken hlt hs, ?_, ?_, ?_, ?_, ?_⟩
    · simp [Pmm.isSet_taken hlt, h.zero_taken]
    · exact Finset.forall_mem_insert _ _ _ |>.mpr ⟨hal, h.out_aligned⟩
    · exact Finset.forall_mem_insert _ _ _ |>.mpr ⟨hpos, h.out_pos⟩
    · exact Finset.forall_mem_insert _ _ _ |>.mpr ⟨hlt, h.out_lt⟩
    · refine Finset.forall_mem_insert _ _ _ |>.mpr ⟨?_, fun p hp => ?_⟩
      · simp [Pmm.isSet_taken hlt]
      · simp [Pmm.isSet_taken hlt, h.out_taken p hp]
  · rw [heq, Option.map_some, Option.some.injEq] at hst
    subst hst
    simpa using h

lemma step_free (h : s.Inv) {phys : BitVec 64} {u : PmmRun} (hmem : phys ∈ s.outstanding)
    (hst : pmmMachine.step s (.free phys) = some u) : u.Inv := by
  simp only [pmmMachine] at hst
  have hlt := h.out_lt phys hmem
  rw [Pmm.pmmFreePage_eq hlt (h.out_taken phys hmem), Option.map_some, Option.some.injEq] at hst
  subst hst
  have hsub : ∀ p ∈ s.outstanding.erase phys, p ∈ s.outstanding := fun p hp =>
    Finset.mem_of_mem_erase hp
  have hne : ∀ p ∈ s.outstanding.erase phys, phys.toNat / 4096 ≠ p.toNat / 4096 := by
    intro p hp hdiv
    have h1 := h.out_aligned phys hmem
    have h2 := h.out_aligned p (hsub p hp)
    exact Finset.ne_of_mem_erase hp (BitVec.eq_of_toNat_eq (by omega))
  have hpos := h.out_pos phys hmem
  refine ⟨h.accounted.cleared hlt (h.out_taken phys hmem), ?_,
    fun p hp => h.out_aligned p (hsub p hp),
    fun p hp => h.out_pos p (hsub p hp), fun p hp => h.out_lt p (hsub p hp), fun p hp => ?_⟩
  · have : phys.toNat / 4096 ≠ 0 := by omega
    simp [Pmm.isSet_cleared, h.zero_taken, this]
  · simp [Pmm.isSet_cleared, hne p hp, h.out_taken p (hsub p hp)]

/-- The invariant holds in every state of a run. -/
lemma run {es : List PmmEvent} {t : PmmRun} (h : s.Inv) (hrun : pmmMachine.Run s es t) : t.Inv := by
  refine EventMachine.Run.invariant h (fun t e u ht hadm hst => ?_) hrun
  cases e with
  | alloc => exact ht.step_alloc hst
  | free phys => exact ht.step_free hadm hst

/-! ### The promises -/

lemma not_free_zero (h : s.Inv) : ¬ s.pmm.Free 0 := fun hf => by
  have := hf.2
  rw [h.zero_taken] at this
  exact absurd this (by simp)

lemma alloc_ok (h : s.Inv) : ∃ phys m, pmmAllocPage s.pmm = some (phys, m) ∧ AllocOk s phys m := by
  rcases h.alloc_cases with ⟨phys, hne, hal, hpos, hfree, heq⟩ | ⟨hall, heq⟩
  · refine ⟨_, _, heq, ⟨⟨fun h0 => absurd h0 hne, fun hfull => ?_⟩, fun h0 => absurd h0 hne, hal,
      fun _ hmem => ?_, h.not_free_zero, fun _ => hfree, fun _ j => ?_⟩⟩
    · rw [h.accounted.used_eq] at hfull
      have hset := Bitmap.count_eq_iff.mp hfull _ hfree.1
      exact absurd hset (by simpa [Pmm.isSet] using hfree.2)
    · have hset := h.out_taken _ hmem
      rw [hfree.2] at hset
      exact absurd hset (by simp)
    · simp only [Pmm.Free, Pmm.taken_totalPages, Pmm.isSet_taken hfree.1]
      rw [Bool.or_eq_false_iff, decide_eq_false_iff_not]
      tauto
  · refine ⟨_, _, heq, ⟨⟨fun _ => ?_, fun _ => rfl⟩, fun _ => rfl, by simp, fun h0 => absurd rfl h0,
      h.not_free_zero, fun h0 => absurd rfl h0, fun h0 => absurd rfl h0⟩⟩
    rw [h.accounted.used_eq]
    exact Bitmap.count_eq_iff.mpr hall

lemma free_ok (h : s.Inv) {phys : BitVec 64} (hmem : phys ∈ s.outstanding) :
    ∃ m, pmmFreePage s.pmm phys = some m ∧ FreeOk s phys m := by
  have hlt := h.out_lt phys hmem
  have hs := h.out_taken phys hmem
  refine ⟨_, Pmm.pmmFreePage_eq hlt hs, ⟨fun hf => ?_, fun i => ?_⟩⟩
  · rw [Pmm.Free, hs] at hf
    simp at hf
  · simp only [Pmm.Free, Pmm.cleared_totalPages, Pmm.isSet_cleared]
    rw [Bool.and_eq_false_iff, Bool.not_eq_false', decide_eq_true_eq]
    constructor
    · tauto
    · rintro (hf | rfl)
      · tauto
      · exact ⟨hlt, Or.inl rfl⟩

lemma correct (h : s.Inv) : s.Correct :=
  ⟨h.accounted.used_eq, h.accounted.used_le, h.alloc_ok, fun _ hmem => h.free_ok hmem⟩

end PmmRun.Inv

/-- **Accounting and exclusivity of the PMM**: for every memory map the kernel can run on,
`pmm_init` succeeds, and in every state reached by allocations and by frees of outstanding
pages the counter is the number of taken pages and both calls stay inside the bitmap and do
exactly what they promise. -/
theorem pmm_accounting {entries : List MemoryMapEntry} {kernelEnd : BitVec 64}
    (h : KernelMap entries kernelEnd) :
    ∃ m₀, pmmInit entries 0x100000 kernelEnd = some m₀
      ∧ ∀ es s, pmmMachine.Run ⟨m₀, ∅⟩ es s → s.Correct := by
  obtain ⟨m₀, hm₀, -⟩ := pmmInit_spec h
  exact ⟨m₀, hm₀, fun _ _ hrun => ((PmmRun.Inv.init h hm₀).run hrun).correct⟩

/-- The statement at the map stage 2 builds, for a kernel that ends at `0x120000`. -/
theorem pmm_accounting_fallback :
    ∃ m₀, pmmInit createFallbackMemoryMap 0x100000 0x120000 = some m₀
      ∧ ∀ es s, pmmMachine.Run ⟨m₀, ∅⟩ es s → s.Correct :=
  pmm_accounting (kernelMap_fallback (by decide) (by decide))

end KiOS
