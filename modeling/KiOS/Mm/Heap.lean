import KiOS.Mm.Vmm
import KiOS.Library.Align

/-!
The kernel heap (`mm/heap.c`), a bump allocator that maps its pages when it reaches them.

* `Kernel`: the memory, the physical memory manager and the two variables of the heap;
* `mapHeapPages`: the loop of `kmalloc`. It gives up when `pmm_alloc_page` returns NULL, and does
  not learn of it when `vmm_map_page` fails;
* `kmalloc`: the allocator, all arithmetic modulo `2^64` as in the source;
* `kmalloc_cases`: the ways a call ends.
-/

namespace KiOS

/-- `HEAP_START`. -/
def heapStart : BitVec 64 := 0xFFFF800000000000

/-- `HEAP_SIZE`. -/
def heapSize : BitVec 64 := 16 * 1024 * 1024

/-- A block `kmalloc` returned: where it starts and its size. -/
structure Block where
  addr : BitVec 64
  size : BitVec 64
  deriving DecidableEq, Repr

/-- Two blocks share no byte. -/
def Block.Disjoint (a b : Block) : Prop :=
  a.addr.toNat + a.size.toNat ≤ b.addr.toNat ∨ b.addr.toNat + b.size.toNat ≤ a.addr.toNat

instance (a b : Block) : Decidable (a.Disjoint b) := inferInstanceAs (Decidable (_ ∨ _))

/-- `kmalloc(size)` returned NULL, or a block that is aligned to 16 bytes, does not wrap and is
disjoint from all blocks returned before. -/
def Fresh (blocks : List Block) (size : BitVec 64) : Option (BitVec 64) → Prop
  | none => True
  | some p => p ≠ 0 ∧ p.toNat % 16 = 0 ∧ p.toNat + size.toNat ≤ 2 ^ 64
      ∧ ∀ b ∈ blocks, b.Disjoint ⟨p, size⟩

instance (blocks : List Block) (size : BitVec 64) :
    (p : Option (BitVec 64)) → Decidable (Fresh blocks size p)
  | none => inferInstanceAs (Decidable True)
  | some _ => inferInstanceAs (Decidable (_ ∧ _))

/-- The memory management of the kernel. -/
structure Kernel (σ : Type) where
  mem : PhysMem
  pmm : σ
  heapCurrentPtr : BitVec 64
  heapTotalAlloc : BitVec 64

variable {σ : Type}

/-- `heap_init`. -/
def heapInit (k : Kernel σ) : Kernel σ :=
  { k with heapCurrentPtr := heapStart, heapTotalAlloc := 0 }

/-- The pages of `for (page = start_page; page < end_page; page += 0x1000)`. -/
def pagesBelow (startPage endPage : BitVec 64) : List (BitVec 64) :=
  (List.range ((endPage.toNat - startPage.toNat + 0xFFF) / 0x1000)).map
    fun i => startPage + BitVec.ofNat 64 (i * 0x1000)

/-- The body of that loop for one page after the other, `false` when the loop returns NULL. -/
def mapHeapPages (alloc : σ → BitVec 64 × σ) (pml4 : Frame) :
    List (BitVec 64) → PhysMem → σ → Bool × PhysMem × σ
  | [], m, s => (true, m, s)
  | page :: pages, m, s =>
      if vmmVirtToPhys pml4 page m = 0 then
        let (physPage, s) := alloc s
        if physPage = 0 then (false, m, s) else
        -- `vmm_map_page` returns nothing: whether it printed an error is not looked at
        let (_, m, s) := vmmMapPage alloc pml4 page physPage 3 m s
        mapHeapPages alloc pml4 pages m s
      else mapHeapPages alloc pml4 pages m s

/-- `(size + 15) & ~15`. -/
def roundUp16 (size : BitVec 64) : BitVec 64 := (size + 15) &&& ~~~(15 : BitVec 64)

/-- The pages that a call which passes the limit check goes through. -/
def heapPages (startAddr size : BitVec 64) : List (BitVec 64) :=
  let endAddr := startAddr + size
  let startPage := startAddr &&& ~~~(0xFFF : BitVec 64)
  let endPage := (endAddr + 0xFFF) &&& ~~~(0xFFF : BitVec 64)
  pagesBelow startPage endPage

/-- `kmalloc`, `0` for NULL. -/
def kmalloc (alloc : σ → BitVec 64 × σ) (pml4 : Frame) (size : BitVec 64) (k : Kernel σ) :
    BitVec 64 × Kernel σ :=
  if size = 0 then (0, k) else
  let size := roundUp16 size
  if heapStart + heapSize ≤ k.heapCurrentPtr + size then (0, k) else
  match mapHeapPages alloc pml4 (heapPages k.heapCurrentPtr size) k.mem k.pmm with
  | (false, mem, pmm) => (0, { k with mem := mem, pmm := pmm })
  | (true, mem, pmm) =>
      (k.heapCurrentPtr,
        { mem := mem
          pmm := pmm
          heapCurrentPtr := k.heapCurrentPtr + size
          heapTotalAlloc := k.heapTotalAlloc + size })

section

variable {alloc : σ → BitVec 64 × σ} {pml4 : Frame} {size : BitVec 64} {k : Kernel σ}

/-- **The ways a call ends**: refused before anything is done, or after the loop over its pages
gave up, or with a block. -/
lemma kmalloc_cases (alloc : σ → BitVec 64 × σ) (pml4 : Frame) (size : BitVec 64) (k : Kernel σ) :
    ((size = 0 ∨ heapStart + heapSize ≤ k.heapCurrentPtr + roundUp16 size)
        ∧ kmalloc alloc pml4 size k = (0, k))
      ∨ (size ≠ 0 ∧ k.heapCurrentPtr + roundUp16 size < heapStart + heapSize
        ∧ ∃ ok m s,
          mapHeapPages alloc pml4 (heapPages k.heapCurrentPtr (roundUp16 size)) k.mem k.pmm
            = (ok, m, s)
          ∧ kmalloc alloc pml4 size k
            = if ok then
                (k.heapCurrentPtr,
                  { mem := m
                    pmm := s
                    heapCurrentPtr := k.heapCurrentPtr + roundUp16 size
                    heapTotalAlloc := k.heapTotalAlloc + roundUp16 size })
              else (0, { k with mem := m, pmm := s })) := by
  unfold kmalloc
  by_cases h0 : size = 0
  · exact Or.inl ⟨Or.inl h0, if_pos h0⟩
  rw [if_neg h0]
  by_cases hlimit : heapStart + heapSize ≤ k.heapCurrentPtr + roundUp16 size
  · exact Or.inl ⟨Or.inr hlimit, if_pos hlimit⟩
  rw [if_neg hlimit]
  refine Or.inr ⟨h0, BitVec.not_le.mp hlimit, ?_⟩
  rcases mapHeapPages alloc pml4 (heapPages k.heapCurrentPtr (roundUp16 size)) k.mem k.pmm
    with ⟨ok, m, s⟩
  refine ⟨ok, m, s, rfl, ?_⟩
  cases ok <;> rfl

/-- What a call does to the two variables of the heap. -/
lemma kmalloc_bump (alloc : σ → BitVec 64 × σ) (pml4 : Frame) (size : BitVec 64) (k : Kernel σ) :
    ((kmalloc alloc pml4 size k).1 = 0
        ∧ (kmalloc alloc pml4 size k).2.heapCurrentPtr = k.heapCurrentPtr
        ∧ (kmalloc alloc pml4 size k).2.heapTotalAlloc = k.heapTotalAlloc)
      ∨ (size ≠ 0 ∧ k.heapCurrentPtr + roundUp16 size < heapStart + heapSize
        ∧ (kmalloc alloc pml4 size k).1 = k.heapCurrentPtr
        ∧ (kmalloc alloc pml4 size k).2.heapCurrentPtr = k.heapCurrentPtr + roundUp16 size
        ∧ (kmalloc alloc pml4 size k).2.heapTotalAlloc = k.heapTotalAlloc + roundUp16 size) := by
  rcases kmalloc_cases alloc pml4 size k with
    ⟨-, heq⟩ | ⟨h0, hlimit, ok, m, s, -, heq⟩ <;> rw [heq]
  · exact Or.inl ⟨rfl, rfl, rfl⟩
  · cases ok with
    | false => exact Or.inl ⟨rfl, rfl, rfl⟩
    | true => exact Or.inr ⟨h0, hlimit, rfl, rfl, rfl⟩

/-! ### Rounding -/

lemma toNat_roundUp16 (size : BitVec 64) (h : size.toNat + 15 < 2 ^ 64) :
    (roundUp16 size).toNat = (size.toNat + 15) / 16 * 16 := by
  have hround : (roundUp16 size).toNat = (size + 15).toNat / 2 ^ 4 * 2 ^ 4 :=
    BitVec.toNat_alignDown (k := 4)
  rw [hround, BitVec.toNat_add_of_lt (show size.toNat + (15 : BitVec 64).toNat < 2 ^ 64 from h)]
  rfl

end

end KiOS
