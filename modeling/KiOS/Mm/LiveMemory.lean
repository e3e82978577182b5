import KiOS.Mm.PmmAccounting

/-!
The memory the running kernel still owns, and what `pmm_alloc_page` does to it.

Four regions are live: the first megabyte, the kernel image with its BSS, the bitmap, and the
boot stack that `entry.asm` places directly below `0x500000`. `pmm_init` reserves the first
three and forgets the last one.

* `Live`: the live bytes, for a boot stack that is `depth` bytes deep;
* `StackSafe`: the condition under which the next allocation spares the boot stack: a page
  below it is still free, or none of its own pages is;
* `alloc_clear_iff`: in every state of a run the page returned is clear of live memory exactly
  under that condition;
* `outstanding_clear`: in every run that keeps to it, all pages handed out are clear;
* `boot_stack_handed_out`: a run of plain allocations that is given the boot stack.
-/

namespace KiOS

/-- `mov rsp, 0x500000`. -/
def bootStackTop : ℕ := 0x500000

/-- The bytes the running kernel owns, its boot stack being `depth` bytes deep. -/
def Live (kernelEnd : BitVec 64) (depth a : ℕ) : Prop :=
  a < 0x100000
    ∨ (0x100000 ≤ a ∧ a < kernelEnd.toNat)
    ∨ ((bitmapBase kernelEnd).toNat ≤ a ∧ a < bitmapEnd createFallbackMemoryMap kernelEnd)
    ∨ (bootStackTop - depth ≤ a ∧ a < bootStackTop)

/-- No byte of the page at `phys` is live. -/
def Clear (kernelEnd : BitVec 64) (depth : ℕ) (phys : BitVec 64) : Prop :=
  ∀ a, phys.toNat ≤ a → a < phys.toNat + 4096 → ¬ Live kernelEnd depth a

/-- The lowest page of the boot stack. -/
def stackPage (depth : ℕ) : ℕ := (bootStackTop - depth) / 4096

/-- The next allocation spares the boot stack: a page below it is free, or none of its own
pages is. -/
def StackSafe (depth : ℕ) (m : Pmm) : Prop :=
  (∃ i < stackPage depth, m.Free i) ∨ ∀ i, stackPage depth ≤ i → i < 0x500 → ¬ m.Free i

/-- The condition on the events of a run. -/
def StackSafeEvent (depth : ℕ) (s : PmmRun) : PmmEvent → Prop
  | .alloc => StackSafe depth s.pmm
  | .free _ => True

section

variable {kernelEnd : BitVec 64} {depth : ℕ}

/-! ### The reserved regions stay taken -/

/-- What a run keeps of the reservations of `pmm_init`. -/
structure PmmRun.Reserved (kernelEnd : BitVec 64) (s : PmmRun) : Prop where
  inv : s.Inv
  taken : ∀ i, (i < 256 ∨ (256 ≤ i ∧ i * 4096 < bitmapEnd createFallbackMemoryMap kernelEnd)) →
    s.pmm.isSet i = true ∧ ∀ phys ∈ s.outstanding, phys.toNat / 4096 ≠ i

namespace PmmRun.Reserved

variable {s : PmmRun}

lemma init (h : KernelMap createFallbackMemoryMap kernelEnd) {m : Pmm}
    (hm : pmmInit createFallbackMemoryMap 0x100000 kernelEnd = some m) :
    PmmRun.Reserved kernelEnd ⟨m, ∅⟩ := by
  refine ⟨PmmRun.Inv.init h hm, fun i hi => ⟨?_, by simp⟩⟩
  obtain ⟨m', hm', _, _, hbits⟩ := pmmInit_spec h
  rw [hm, Option.some.injEq] at hm'
  subst hm'
  have hlt := h.lt_pageTotal
  have hle := h.bitmapEnd_le
  exact (hbits i (by omega)).mpr (Or.inr hi)

lemma run {es : List PmmEvent} {t : PmmRun} (h : s.Reserved kernelEnd)
    (hrun : pmmMachine.Run s es t) : t.Reserved kernelEnd := by
  refine EventMachine.Run.invariant h (fun t e u ht hadm hst => ?_) hrun
  cases e with
  | alloc =>
      refine ⟨ht.inv.step_alloc hst, fun i hi => ?_⟩
      obtain ⟨hset, hout⟩ := ht.taken i hi
      simp only [pmmMachine] at hst
      rcases ht.inv.alloc_cases with ⟨phys, hne, _, _, ⟨hlt, hclear⟩, heq⟩ | ⟨_, heq⟩
      · rw [heq, Option.map_some, Option.some.injEq, if_neg hne] at hst
        subst hst
        refine ⟨by simp [Pmm.isSet_taken hlt, hset],
          Finset.forall_mem_insert _ _ _ |>.mpr ⟨?_, hout⟩⟩
        rintro rfl
        simp [hset] at hclear
      · rw [heq, Option.map_some, Option.some.injEq, if_pos rfl] at hst
        subst hst
        exact ⟨hset, hout⟩
  | free phys =>
      refine ⟨ht.inv.step_free hadm hst, fun i hi => ?_⟩
      obtain ⟨hset, hout⟩ := ht.taken i hi
      simp only [pmmMachine] at hst
      rw [Pmm.pmmFreePage_eq (ht.inv.out_lt phys hadm) (ht.inv.out_taken phys hadm),
        Option.map_some, Option.some.injEq] at hst
      subst hst
      exact ⟨by simp [Pmm.isSet_cleared, hset, hout phys hadm],
        fun p hp => hout p (Finset.mem_of_mem_erase hp)⟩

/-- A free page lies above the first megabyte and behind the bitmap. -/
lemma free_page (h : s.Reserved kernelEnd) {i : ℕ} (hf : s.pmm.Free i) :
    256 ≤ i ∧ bitmapEnd createFallbackMemoryMap kernelEnd ≤ i * 4096 := by
  have key : ¬ (i < 256
      ∨ (256 ≤ i ∧ i * 4096 < bitmapEnd createFallbackMemoryMap kernelEnd)) := by
    intro hi
    have := hf.2
    rw [(h.taken i hi).1] at this
    simp at this
  omega

end PmmRun.Reserved

/-- A page behind the bitmap is clear exactly if it is not one of the boot stack's. -/
lemma clear_iff (h : KernelMap createFallbackMemoryMap kernelEnd)
    {phys : BitVec 64} (hal : phys.toNat % 4096 = 0)
    (hfirst : 256 ≤ phys.toNat / 4096)
    (hbehind : bitmapEnd createFallbackMemoryMap kernelEnd ≤ phys.toNat / 4096 * 4096) :
    Clear kernelEnd depth phys ↔ ¬ (stackPage depth ≤ phys.toNat / 4096
      ∧ phys.toNat / 4096 < 0x500) := by
  have hbase := h.toNat_bitmapBase
  have hend : bitmapEnd createFallbackMemoryMap kernelEnd
      = (bitmapBase kernelEnd).toNat + (pageTotal createFallbackMemoryMap + 7) / 8 := rfl
  have htop : bootStackTop = 0x500000 := rfl
  constructor
  · rintro hclear ⟨h1, h2⟩
    rw [stackPage] at h1
    -- the last byte of the page, or of the stack, is live
    refine hclear (phys.toNat + 4095) (by omega) (by omega) ?_
    exact Or.inr (Or.inr (Or.inr ⟨by omega, by omega⟩))
  · intro hns a h1 h2 hlive
    rw [stackPage] at hns
    rcases hlive with h3 | ⟨_, h3⟩ | ⟨_, h3⟩ | ⟨h3, h4⟩
    · omega
    · omega
    · omega
    · exact hns ⟨by omega, by omega⟩

/-- **The next page and live memory**: in every state of a run from `pmm_init`, the page
`pmm_alloc_page` returns is clear of live memory exactly if a page below the boot stack is
free or none of the stack's own pages is. -/
lemma alloc_clear_iff (h : KernelMap createFallbackMemoryMap kernelEnd) {s : PmmRun}
    (hs : s.Reserved kernelEnd) {phys : BitVec 64} {m : Pmm}
    (heq : pmmAllocPage s.pmm = some (phys, m)) (hne : phys ≠ 0) :
    Clear kernelEnd depth phys ↔ StackSafe depth s.pmm := by
  have hlt := hs.inv.accounted.pages_lt
  rcases s.pmm.pmmAllocPage_cases with ⟨i, hi, hlow, hclear, hi'⟩ | ⟨_, hnull⟩
  · rw [heq, Option.some.injEq, Prod.mk.injEq] at hi'
    obtain ⟨rfl, -⟩ := hi'
    have hnat := toNat_pageAddr (i := i) (by omega)
    have hdiv : (BitVec.ofNat 64 (i * 4096)).toNat / 4096 = i := by omega
    obtain ⟨h256, hbehind⟩ := hs.free_page ⟨hi, hclear⟩
    rw [clear_iff h (by omega) (by omega) (by rwa [hdiv]), hdiv]
    constructor
    · intro hns
      by_cases hbelow : i < stackPage depth
      · exact Or.inl ⟨i, hbelow, hi, hclear⟩
      · refine Or.inr fun j hj hj' hf => ?_
        have hij : i ≤ j := by
          by_contra hji
          have := hf.2
          rw [hlow j (by omega)] at this
          simp at this
        omega
    · rintro (⟨j, hj, hf⟩ | hnone) ⟨h1, h2⟩
      · have := hf.2
        rw [hlow j (by omega)] at this
        simp at this
      · exact hnone i h1 h2 ⟨hi, hclear⟩
  · rw [heq, Option.some.injEq, Prod.mk.injEq] at hnull
    exact absurd hnull.1 hne

/-- **Live memory is spared exactly under the condition**: with the map of stage 2, in every
run whose allocations all find a page below the boot stack free (or none of the stack's pages
free) every page handed out is clear of live memory; and an allocation in any other state
returns a page that is not. -/
theorem outstanding_clear (h₁ : 0x100000 < kernelEnd.toNat)
    (h₂ : kernelEnd.toNat ≤ 0x7FFF000) :
    ∃ m₀, pmmInit createFallbackMemoryMap 0x100000 kernelEnd = some m₀
      ∧ (∀ es s, (pmmMachine.restrict (StackSafeEvent depth)).Run ⟨m₀, ∅⟩ es s →
          ∀ phys ∈ s.outstanding, Clear kernelEnd depth phys)
      ∧ ∀ es s, pmmMachine.Run ⟨m₀, ∅⟩ es s → ∀ phys m, pmmAllocPage s.pmm = some (phys, m) →
          phys ≠ 0 → (Clear kernelEnd depth phys ↔ StackSafe depth s.pmm) := by
  have h := kernelMap_fallback h₁ h₂
  obtain ⟨m₀, hm₀, -⟩ := pmmInit_spec h
  have h0 := PmmRun.Reserved.init h hm₀
  refine ⟨m₀, hm₀, fun es s hrun => ?_, fun es s hrun phys m heq hne =>
    alloc_clear_iff h (h0.run hrun) heq hne⟩
  induction hrun with
  | nil => simp
  | @snoc es t u e hrun hadm hst ih =>
      have ht := h0.run hrun.of_restrict
      cases e with
      | alloc =>
          simp only [EventMachine.restrict, pmmMachine] at hst
          rcases ht.inv.alloc_cases with ⟨phys, hne, _, _, _, heq⟩ | ⟨_, heq⟩
          · rw [heq, Option.map_some, Option.some.injEq, if_neg hne] at hst
            subst hst
            refine Finset.forall_mem_insert _ _ _ |>.mpr ⟨?_, ih⟩
            exact (alloc_clear_iff h ht heq hne).mpr hadm.2
          · rw [heq, Option.map_some, Option.some.injEq, if_pos rfl] at hst
            subst hst
            exact ih
      | free phys =>
          simp only [EventMachine.restrict, pmmMachine, Option.map_eq_some_iff] at hst
          obtain ⟨m, _, rfl⟩ := hst
          exact fun p hp => ih p (Finset.mem_of_mem_erase hp)

end

/-- The theorem for a kernel that ends at `0x120000` and a stack of one return address. -/
theorem outstanding_clear_small :
    ∃ m₀, pmmInit createFallbackMemoryMap 0x100000 0x120000 = some m₀
      ∧ (∀ es s, (pmmMachine.restrict (StackSafeEvent 8)).Run ⟨m₀, ∅⟩ es s →
          ∀ phys ∈ s.outstanding, Clear 0x120000 8 phys)
      ∧ ∀ es s, pmmMachine.Run ⟨m₀, ∅⟩ es s → ∀ phys m, pmmAllocPage s.pmm = some (phys, m) →
          phys ≠ 0 → (Clear 0x120000 8 phys ↔ StackSafe 8 s.pmm) :=
  outstanding_clear (by decide) (by decide)

/-! ### A run that reaches the boot stack -/

/-- The free pages below page `q`. -/
def freeBelow (m : Pmm) (q : ℕ) : Finset ℕ := (Finset.range q).filter fun i => m.isSet i = false

/-- An allocation returns the free page `q` or takes a free page below it. -/
lemma PmmRun.Inv.alloc_below {s : PmmRun} (h : s.Inv) {q : ℕ} (hq : s.pmm.Free q) :
    (∃ m, pmmAllocPage s.pmm = some (BitVec.ofNat 64 (q * 4096), m))
      ∨ ∃ t, pmmMachine.step s .alloc = some t ∧ t.pmm.Free q
        ∧ (freeBelow t.pmm q).card < (freeBelow s.pmm q).card := by
  rcases s.pmm.pmmAllocPage_cases with ⟨i, hi, hlow, hclear, heq⟩ | ⟨hall, _⟩
  · have hiq : i ≤ q := by
      by_contra hlt
      have := hq.2
      rw [hlow q (by omega)] at this
      simp at this
    rcases Nat.eq_or_lt_of_le hiq with rfl | hlt
    · exact Or.inl ⟨_, heq⟩
    · have hne : BitVec.ofNat 64 (i * 4096) ≠ 0 := by
        intro h0
        have hnat := toNat_pageAddr (i := i) (by have := h.accounted.pages_lt; omega)
        rw [h0] at hnat
        have hi0 : i = 0 := by simpa using hnat
        rw [hi0, h.zero_taken] at hclear
        simp at hclear
      refine Or.inr ⟨⟨s.pmm.taken i, insert (BitVec.ofNat 64 (i * 4096)) s.outstanding⟩, ?_, ?_, ?_⟩
      · simp only [pmmMachine, heq, Option.map_some, if_neg hne]
      · have hiq' : i ≠ q := by omega
        exact ⟨hq.1, by simp [Pmm.isSet_taken hi, hq.2, hiq']⟩
      · refine Finset.card_lt_card (Finset.ssubset_iff_of_subset ?_ |>.mpr ⟨i, ?_, ?_⟩)
        · intro j hj
          simp only [freeBelow, Finset.mem_filter, Pmm.isSet_taken hi, Bool.or_eq_false_iff] at hj ⊢
          exact ⟨hj.1, hj.2.2⟩
        · simp [freeBelow, hlt, hclear]
        · simp [freeBelow, Pmm.isSet_taken hi]
  · have := hq.2
    rw [hall q hq.1] at this
    simp at this

/-- Enough allocations reach any free page: each takes a page below it, until none is left. -/
lemma exists_run_to {q : ℕ} (n : ℕ) : ∀ s : PmmRun, s.Inv → s.pmm.Free q →
    (freeBelow s.pmm q).card ≤ n → ∃ es t, pmmMachine.Run s es t
      ∧ ∃ m, pmmAllocPage t.pmm = some (BitVec.ofNat 64 (q * 4096), m) := by
  induction n with
  | zero =>
      intro s hinv hq hn
      rcases hinv.alloc_below hq with hm | ⟨t, _, _, hlt⟩
      · exact ⟨[], s, .nil, hm⟩
      · omega
  | succ n ih =>
      intro s hinv hq hn
      rcases hinv.alloc_below hq with hm | ⟨t, hst, hqt, hlt⟩
      · exact ⟨[], s, .nil, hm⟩
      · obtain ⟨es, u, hrun, hm⟩ := ih t (hinv.step_alloc hst) hqt (by omega)
        exact ⟨.alloc :: es, u, hrun.cons trivial hst, hm⟩

/-- **The boot stack is handed out**: with a kernel that ends at `0x120000`, a run of plain
allocations returns the page at `0x4FF000`, on which the return address of `kernel_main`
lies. -/
theorem boot_stack_handed_out :
    ∃ m₀ es s m, pmmInit createFallbackMemoryMap 0x100000 0x120000 = some m₀
      ∧ pmmMachine.Run ⟨m₀, ∅⟩ es s ∧ pmmAllocPage s.pmm = some (0x4FF000, m)
      ∧ ¬ Clear 0x120000 8 0x4FF000 := by
  have h : KernelMap createFallbackMemoryMap 0x120000 :=
    kernelMap_fallback (by decide) (by decide)
  obtain ⟨m₀, hm₀, _, htot, hbits⟩ := pmmInit_spec h
  have hq : m₀.Free 0x4FF := by
    have h4FF : (0x4FF : ℕ) < pageTotal createFallbackMemoryMap := by
      rw [pageTotal_fallback]; decide
    refine ⟨htot ▸ h4FF, ?_⟩
    by_contra hset
    have hbase : bitmapEnd createFallbackMemoryMap 0x120000 = 0x121000 := by decide
    rcases (hbits 0x4FF h4FF).mp (by simpa using hset) with hrel | hlt | ⟨_, hlt⟩
    · refine hrel ⟨⟨0x00100000, 0x07F00000, 1⟩, by simp [createFallbackMemoryMap], rfl, ?_⟩
      simp [MemoryMapEntry.pages]
    · omega
    · omega
  obtain ⟨es, t, hrun, m, heq⟩ := exists_run_to _ _ (PmmRun.Inv.init h hm₀) hq le_rfl
  refine ⟨m₀, es, t, m, hm₀, hrun, heq, fun hclear => ?_⟩
  refine hclear 0x4FFFFF (by decide) (by decide) (Or.inr (Or.inr (Or.inr ⟨?_, ?_⟩)))
  · simp [bootStackTop]
  · simp [bootStackTop]

end KiOS
