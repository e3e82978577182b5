import KiOS.Mm.Heap
import KiOS.Mm.VmmRefinement

/-!
Where the blocks of `kmalloc` lie.

The bounds of the heap are checked with `heap_current_ptr + size >= HEAP_START + HEAP_SIZE`, after
`size` has been rounded up. Both sums are modulo `2^64`, so that a huge size passes the check.

* `heapMachine`: any calls of `kmalloc`, and anything done to memory and PMM in between;
* `KmallocBounds`: what a call owes: NULL and nothing changed, or an aligned block inside the
  heap that no other block overlaps;
* `SizeFits`, `HeapFits`: the condition: none of the sums wraps;
* `kmalloc_bounds`: in every run that keeps to it, a call keeps its promise exactly if it meets
  the condition or returns NULL;
* `HeapRun.BoundsInv.fresh`: what the scheduler relies upon in `kmalloc`;
* `kmalloc_wraps`: the first call of all, with the largest size.
-/

namespace KiOS

/-- The kernel with the blocks `kmalloc` has returned. -/
structure HeapRun (σ : Type) where
  kernel : Kernel σ
  blocks : List Block

inductive HeapEvent (σ : Type) where
  | kmalloc (size : BitVec 64)
  /-- Anything else the kernel does to memory and to the PMM. -/
  | other (mem : PhysMem) (pmm : σ)

variable {σ : Type}

/-- Runs of the heap. -/
def heapMachine (alloc : σ → BitVec 64 × σ) (pml4 : Frame) :
    EventMachine (HeapRun σ) (HeapEvent σ) where
  admissible _ _ := True
  step s
    | .kmalloc size =>
        let r := kmalloc alloc pml4 size s.kernel
        some ⟨r.2, if r.1 = 0 then s.blocks else s.blocks ++ [⟨r.1, size⟩]⟩
    | .other mem pmm => some { s with kernel := { s.kernel with mem := mem, pmm := pmm } }

/-- What `kmalloc(size)` owes when it returns `p` and leaves `k'`. -/
structure KmallocBounds (s : HeapRun σ) (size p : BitVec 64) (k' : Kernel σ) : Prop where
  null : p = 0 → k'.heapCurrentPtr = s.kernel.heapCurrentPtr
    ∧ k'.heapTotalAlloc = s.kernel.heapTotalAlloc
  aligned : p ≠ 0 → p.toNat % 16 = 0
  inside : p ≠ 0 → heapStart.toNat ≤ p.toNat
    ∧ p.toNat + size.toNat ≤ heapStart.toNat + heapSize.toNat
  disjoint : p ≠ 0 → ∀ b ∈ s.blocks, b.Disjoint ⟨p, size⟩
  advance : p ≠ 0 → p.toNat + size.toNat ≤ k'.heapCurrentPtr.toNat
    ∧ k'.heapCurrentPtr.toNat ≤ heapStart.toNat + heapSize.toNat

/-- No sum of `kmalloc(size)` wraps. -/
def SizeFits (k : Kernel σ) (size : BitVec 64) : Prop :=
  size = 0 ∨ size.toNat + 16 + k.heapCurrentPtr.toNat ≤ 2 ^ 64

instance (k : Kernel σ) (size : BitVec 64) : Decidable (SizeFits k size) :=
  inferInstanceAs (Decidable (_ ∨ _))

/-- No sum of a call wraps. -/
def HeapFits (s : HeapRun σ) : HeapEvent σ → Prop
  | .kmalloc size => SizeFits s.kernel size
  | .other _ _ => True

/-- The blocks lie one after the other below `heap_current_ptr`. -/
structure HeapRun.BoundsInv (s : HeapRun σ) : Prop where
  start_le : heapStart.toNat ≤ s.kernel.heapCurrentPtr.toNat
  lt_end : s.kernel.heapCurrentPtr.toNat < heapStart.toNat + heapSize.toNat
  aligned : s.kernel.heapCurrentPtr.toNat % 16 = 0
  below : ∀ b ∈ s.blocks, b.addr.toNat + b.size.toNat ≤ s.kernel.heapCurrentPtr.toNat

section

variable {alloc : σ → BitVec 64 × σ} {pml4 : Frame} {s u : HeapRun σ} {size : BitVec 64}
  {e : HeapEvent σ}

lemma toNat_heapEnd : (heapStart + heapSize).toNat = heapStart.toNat + heapSize.toNat := by decide

namespace HeapRun.BoundsInv

lemma ne_zero (h : s.BoundsInv) : s.kernel.heapCurrentPtr ≠ 0 := by
  intro h0
  have hle := h.start_le
  rw [h0] at hle
  exact absurd hle (by decide)

/-- The pointer behind the block, where nothing wraps. -/
lemma toNat_advance (h : s.BoundsInv)
    (hfit : size.toNat + 16 + s.kernel.heapCurrentPtr.toNat ≤ 2 ^ 64) :
    (roundUp16 size).toNat = (size.toNat + 15) / 16 * 16
      ∧ (s.kernel.heapCurrentPtr + roundUp16 size).toNat
        = s.kernel.heapCurrentPtr.toNat + (roundUp16 size).toNat := by
  have hstart : heapStart.toNat = 0xFFFF800000000000 := rfl
  have hle := h.start_le
  have hal := h.aligned
  have hround := toNat_roundUp16 size (by omega)
  exact ⟨hround, BitVec.toNat_add_of_lt (by omega)⟩

/-- What a call that passes the limit check reserves ends inside the heap. -/
lemma reserved_lt (h : s.BoundsInv)
    (hfit : size.toNat + 16 + s.kernel.heapCurrentPtr.toNat ≤ 2 ^ 64)
    (hlimit : s.kernel.heapCurrentPtr + roundUp16 size < heapStart + heapSize) :
    s.kernel.heapCurrentPtr.toNat + (roundUp16 size).toNat
      < heapStart.toNat + heapSize.toNat := by
  rw [← (h.toNat_advance hfit).2, ← toNat_heapEnd]
  exact hlimit

/-- A call whose sums do not wrap keeps its promise. -/
lemma kmallocBounds (alloc : σ → BitVec 64 × σ) (pml4 : Frame) (h : s.BoundsInv)
    (hfit : HeapFits s (.kmalloc size)) :
    KmallocBounds s size (kmalloc alloc pml4 size s.kernel).1
      (kmalloc alloc pml4 size s.kernel).2 := by
  rcases kmalloc_bump alloc pml4 size s.kernel with
    ⟨hp, hptr, htotal⟩ | ⟨h0, hlimit, hp, hptr, -⟩
  · exact ⟨fun _ => ⟨hptr, htotal⟩, by simp [hp], by simp [hp], by simp [hp], by simp [hp]⟩
  · obtain ⟨hround, hadv⟩ := h.toNat_advance (hfit.resolve_left h0)
    have hle := h.start_le
    have hend := h.reserved_lt (hfit.resolve_left h0) hlimit
    rw [hp]
    refine ⟨fun hnull => absurd hnull h.ne_zero, fun _ => h.aligned, fun _ => ⟨hle, by omega⟩,
      fun _ b hb => Or.inl (h.below b hb), fun _ => ?_⟩
    rw [hptr]
    omega

/-- A call whose sums wrap returns more than there is, if it returns anything. -/
lemma not_kmallocBounds (h : s.BoundsInv) (hfit : ¬ HeapFits s (.kmalloc size)) {p : BitVec 64}
    {k' : Kernel σ} (hp : p ≠ 0) : ¬ KmallocBounds s size p k' := by
  intro hb
  have hin := hb.inside hp
  have hlt := h.lt_end
  have hstart : heapStart.toNat = 0xFFFF800000000000 := rfl
  have hsize : heapSize.toNat = 0x1000000 := rfl
  simp only [HeapFits, SizeFits, not_or, not_le] at hfit
  omega

lemma step (alloc : σ → BitVec 64 × σ) (pml4 : Frame) (h : s.BoundsInv)
    (hadm : ((heapMachine alloc pml4).restrict HeapFits).admissible s e)
    (hst : ((heapMachine alloc pml4).restrict HeapFits).step s e = some u) : u.BoundsInv := by
  have hfit := hadm.2
  cases e with
  | other mem pmm =>
      simp only [EventMachine.restrict, heapMachine, Option.some.injEq] at hst
      subst hst
      exact ⟨h.start_le, h.lt_end, h.aligned, h.below⟩
  | kmalloc size =>
      have hb := h.kmallocBounds alloc pml4 hfit
      simp only [EventMachine.restrict, heapMachine, Option.some.injEq] at hst
      subst hst
      rcases kmalloc_bump alloc pml4 size s.kernel with
        ⟨hp, hptr, -⟩ | ⟨h0, hlimit, hp, hptr, -⟩
      · rw [if_pos hp]
        exact ⟨by rw [hptr]; exact h.start_le, by rw [hptr]; exact h.lt_end,
          by rw [hptr]; exact h.aligned, fun b hb => by rw [hptr]; exact h.below b hb⟩
      · have hne : (kmalloc alloc pml4 size s.kernel).1 ≠ 0 := hp ▸ h.ne_zero
        obtain ⟨hround, hadv⟩ := h.toNat_advance (hfit.resolve_left h0)
        have hal := h.aligned
        have hle := h.start_le
        rw [if_neg hne]
        refine ⟨?_, ?_, ?_, fun b hmem => ?_⟩ <;> dsimp only at * <;> rw [hptr]
        · omega
        · exact toNat_heapEnd ▸ hlimit
        · omega
        · rcases List.mem_append.mp hmem with hmem | hmem
          · have := h.below b hmem
            omega
          · rw [List.mem_singleton.mp hmem]
            have hadvance := (hb.advance hne).1
            rw [hptr] at hadvance
            exact hadvance

end HeapRun.BoundsInv

/-- The state after `heap_init`. -/
def heapBoot (mem : PhysMem) (pmm : σ) : HeapRun σ := ⟨heapInit ⟨mem, pmm, 0, 0⟩, []⟩

lemma HeapRun.BoundsInv.of_run {mem : PhysMem} {pmm : σ} {es : List (HeapEvent σ)}
    (hrun : ((heapMachine alloc pml4).restrict HeapFits).Run (heapBoot mem pmm) es s) :
    s.BoundsInv := by
  have hinit : (heapBoot mem pmm).BoundsInv := by
    refine ⟨le_rfl, ?_, ?_, by simp [heapBoot]⟩ <;> simp only [heapBoot, heapInit] <;> decide
  exact EventMachine.Run.invariant hinit (fun _ _ _ ht hadm hst => ht.step alloc pml4 hadm hst) hrun

/-- **The bounds of the heap**: in every run whose sums do not wrap, a call keeps its promise if
its own sums do not wrap either. Otherwise it does so only by returning NULL. -/
theorem kmalloc_bounds (alloc : σ → BitVec 64 × σ) (pml4 : Frame) (mem : PhysMem) (pmm : σ)
    {es : List (HeapEvent σ)} {s : HeapRun σ}
    (hrun : ((heapMachine alloc pml4).restrict HeapFits).Run (heapBoot mem pmm) es s)
    (size : BitVec 64) :
    (HeapFits s (.kmalloc size) → KmallocBounds s size (kmalloc alloc pml4 size s.kernel).1
        (kmalloc alloc pml4 size s.kernel).2)
      ∧ (KmallocBounds s size (kmalloc alloc pml4 size s.kernel).1
          (kmalloc alloc pml4 size s.kernel).2 →
        HeapFits s (.kmalloc size) ∨ (kmalloc alloc pml4 size s.kernel).1 = 0) := by
  have h := HeapRun.BoundsInv.of_run hrun
  refine ⟨fun hfit => h.kmallocBounds alloc pml4 hfit, fun hb => ?_⟩
  by_contra hnot
  rw [not_or] at hnot
  exact h.not_kmallocBounds hnot.1 hnot.2 hb

/-- What the scheduler relies upon: the block is fresh memory. -/
lemma HeapRun.BoundsInv.fresh (h : s.BoundsInv) (hfit : HeapFits s (.kmalloc size)) :
    Fresh s.blocks size (if (kmalloc alloc pml4 size s.kernel).1 = 0 then none
      else some (kmalloc alloc pml4 size s.kernel).1) := by
  have hb := h.kmallocBounds alloc pml4 hfit
  split_ifs with hp
  · trivial
  · have hin := (hb.inside hp).2
    have hstart : heapStart.toNat = 0xFFFF800000000000 := rfl
    have hsize : heapSize.toNat = 0x1000000 := rfl
    exact ⟨hp, hb.aligned hp, by omega, hb.disjoint hp⟩

end

/-- Six free pages, and the first page of the heap not mapped. -/
def heapStartOfDay : HeapRun (List (BitVec 64)) :=
  heapBoot (setupPaging 0x9000 zeroRam)
    [0x300000, 0x301000, 0x302000, 0x303000, 0x304000, 0x305000]

/-- The statement for a block of 64 bytes behind one that ends in the second page. -/
theorem kmalloc_bounds_second : ∃ s, ((heapMachine pageScript.alloc (bootPml4 0x9000)).restrict
    HeapFits).Run heapStartOfDay [.kmalloc 4200] s
      ∧ KmallocBounds s 64 (kmalloc pageScript.alloc (bootPml4 0x9000) 64 s.kernel).1
        (kmalloc pageScript.alloc (bootPml4 0x9000) 64 s.kernel).2 := by
  have hfit : HeapFits heapStartOfDay (.kmalloc 4200) := Or.inr (by decide)
  have hrun := EventMachine.Run.single (M := (heapMachine pageScript.alloc
    (bootPml4 0x9000)).restrict HeapFits) ⟨trivial, hfit⟩ rfl
  refine ⟨_, hrun, (kmalloc_bounds pageScript.alloc (bootPml4 0x9000) _ _ hrun 64).1 (Or.inr ?_)⟩
  decide +kernel

/-- **`kmalloc(2^64 - 1)` succeeds**: it returns the start of the heap and reserves nothing, so
that the next call returns the same address. -/
theorem kmalloc_wraps :
    (kmalloc pageScript.alloc (bootPml4 0x9000) 0xFFFFFFFFFFFFFFFF heapStartOfDay.kernel).1
        = heapStart
      ∧ (kmalloc pageScript.alloc (bootPml4 0x9000) 64
          (kmalloc pageScript.alloc (bootPml4 0x9000) 0xFFFFFFFFFFFFFFFF
            heapStartOfDay.kernel).2).1 = heapStart
      ∧ ¬ KmallocBounds heapStartOfDay 0xFFFFFFFFFFFFFFFF
        (kmalloc pageScript.alloc (bootPml4 0x9000) 0xFFFFFFFFFFFFFFFF heapStartOfDay.kernel).1
        (kmalloc pageScript.alloc (bootPml4 0x9000) 0xFFFFFFFFFFFFFFFF
          heapStartOfDay.kernel).2 := by
  have hfirst : (kmalloc pageScript.alloc (bootPml4 0x9000) 0xFFFFFFFFFFFFFFFF
      heapStartOfDay.kernel).1 = heapStart := by decide +kernel
  refine ⟨hfirst, by decide +kernel, fun h => ?_⟩
  have hin := h.inside (by rw [hfirst]; decide)
  rw [hfirst] at hin
  exact absurd hin.2 (by decide)

end KiOS
