import KiOS.Library.Program
import KiOS.Mm.HeapBounds
import KiOS.Mm.PmmFrames

/-!
The commands that test the memory management (`commands/memtest.c`, `commands/vmtest.c`,
`commands/usertest.c`).

* `Command`: programs over the kernel and the blocks `kmalloc` has returned, which return early or
  run into a page fault;
* `Command.allocPage`, `Command.mapPage`, …: the calls they make;
* `Command.storeWord`, `Command.storeByte`, …: memory accesses through the page tables. The
  kernel writes to whatever is mapped, `CR0.WP` is clear;
* `cmdMemtest`, `cmdVmtest`, `cmdUsertest`: the commands. `cmdUsertest` ends with its jump to
  Ring 3.
-/

namespace KiOS

open Program

/-- Why a command does not reach its last line. -/
inductive CommandStop where
  | returned
  | pageFault
  deriving DecidableEq, Repr

/-- A program of the kernel. -/
abbrev Command (α : Type) := Program (HeapRun Pmm) CommandStop α

/-! ### Memory accesses -/

/-- The word of a table or a page that a physical address lies in. -/
def wordIndex (phys : BitVec 64) : Idx := phys.extractLsb' 3 9

namespace PhysMem

/-- The word at a physical address. -/
def wordAt (m : PhysMem) (phys : BitVec 64) : BitVec 64 := m.word (frameOf phys) (wordIndex phys)

/-- The byte at a physical address. -/
def byteAt (m : PhysMem) (phys : BitVec 64) : BitVec 8 :=
  (m.wordAt phys).extractLsb' (8 * (phys.toNat % 8)) 8

/-- The word with one byte replaced. -/
def setByte (x : BitVec 64) (i : ℕ) (b : BitVec 8) : BitVec 64 :=
  (x &&& ~~~((0xFF : BitVec 64) <<< (8 * i))) ||| (b.setWidth 64 <<< (8 * i))

/-- A byte is stored at a physical address. -/
def storeByteAt (m : PhysMem) (phys : BitVec 64) (b : BitVec 8) : PhysMem :=
  m.store (frameOf phys) (wordIndex phys) (setByte (m.wordAt phys) (phys.toNat % 8) b)

end PhysMem

/-- The kernel with another memory. -/
def HeapRun.withMem (s : HeapRun Pmm) (m : PhysMem) : HeapRun Pmm :=
  { s with kernel := { s.kernel with mem := m } }

/-- The kernel with another PMM. -/
def HeapRun.withPmm (s : HeapRun Pmm) (p : Pmm) : HeapRun Pmm :=
  { s with kernel := { s.kernel with pmm := p } }

namespace Command

/-- An access to the physical address behind a virtual one, if there is one. -/
def access {α : Type} (pml4 : Frame) (virt : BitVec 64)
    (f : BitVec 64 → HeapRun Pmm → α × HeapRun Pmm) : Command α := do
  let t ← step fun s => (mmuWalk s.kernel.mem pml4 virt, s)
  match t with
  | none => stop .pageFault
  | some t => step (f t.phys)

/-- `*ptr` for a word. -/
def loadWord (pml4 : Frame) (virt : BitVec 64) : Command (BitVec 64) :=
  access pml4 virt fun phys s => (s.kernel.mem.wordAt phys, s)

/-- `*ptr = value` for a word. -/
def storeWord (pml4 : Frame) (virt value : BitVec 64) : Command Unit :=
  access pml4 virt fun phys s =>
    ((), s.withMem (s.kernel.mem.store (frameOf phys) (wordIndex phys) value))

/-- `*ptr` for a byte. -/
def loadByte (pml4 : Frame) (virt : BitVec 64) : Command (BitVec 8) :=
  access pml4 virt fun phys s => (s.kernel.mem.byteAt phys, s)

/-- `*ptr = value` for a byte. -/
def storeByte (pml4 : Frame) (virt : BitVec 64) (value : BitVec 8) : Command Unit :=
  access pml4 virt fun phys s => ((), s.withMem (s.kernel.mem.storeByteAt phys value))

/-! ### Calls -/

/-- A call of `pmm_alloc_page`. -/
def allocPage : Command (BitVec 64) := step fun s =>
  let r := pmmAlloc s.kernel.pmm
  (r.1, s.withPmm r.2)

/-- A call of `pmm_free_page`. -/
def freePage (phys : BitVec 64) : Command Unit := step fun s =>
  ((), s.withPmm (pmmFree s.kernel.pmm phys))

/-- A call of `vmm_map_page`. -/
def mapPage (pml4 : Frame) (virt phys : BitVec 64) (flags : BitVec 32) : Command Unit :=
  step fun s =>
    let r := vmmMapPage pmmAlloc pml4 virt phys flags s.kernel.mem s.kernel.pmm
    ((), (s.withMem r.2.1).withPmm r.2.2)

/-- A call of `vmm_unmap_page`. -/
def unmapPage (pml4 : Frame) (virt : BitVec 64) : Command Unit := step fun s =>
  ((), s.withMem (vmmUnmapPage pml4 virt s.kernel.mem))

/-- A call of `vmm_virt_to_phys`. -/
def virtToPhys (pml4 : Frame) (virt : BitVec 64) : Command (BitVec 64) := step fun s =>
  (vmmVirtToPhys pml4 virt s.kernel.mem, s)

/-- A call of `kmalloc`. -/
def mallocBlock (pml4 : Frame) (size : BitVec 64) : Command (BitVec 64) := step fun s =>
  let r := kmalloc pmmAlloc pml4 size s.kernel
  (r.1, ⟨r.2, if r.1 = 0 then s.blocks else s.blocks ++ [⟨r.1, size⟩]⟩)

end Command

open Command

/-! ### `memtest` -/

/-- `TEST_PAGES`. -/
def testPages : ℕ := 50

/-- `TEST_HEAP_ALLOCS`. -/
def testHeapAllocs : ℕ := 100

/-- `virt_base + (i * 0x1000)`. -/
def memtestAddr (i : ℕ) : BitVec 64 := 0xFFFF900000000000 + BitVec.ofNat 64 (i * 0x1000)

/-- `0xDEADBEEF00000000ULL | i`. -/
def memtestPattern (i : ℕ) : BitVec 64 := 0xDEADBEEF00000000 ||| BitVec.ofNat 64 i

/-- Test 1: the pages. -/
def memtestAlloc : Command (List (BitVec 64)) :=
  (List.range testPages).foldlM (fun pages _ => do
    let page ← allocPage
    stopIf (page = 0) .returned
    pure (pages ++ [page])) []

/-- Test 2, for one page: it is mapped and looked up. -/
def memtestMap (pml4 : Frame) (pages : List (BitVec 64)) (i : ℕ) : Command Unit := do
  mapPage pml4 (memtestAddr i) (pages.getD i 0) 3
  let resolved ← virtToPhys pml4 (memtestAddr i)
  stopIf (resolved ≠ pages.getD i 0) .returned

/-- Test 3, for one page: a word is written. -/
def memtestWrite (pml4 : Frame) (i : ℕ) : Command Unit :=
  storeWord pml4 (memtestAddr i) (memtestPattern i)

/-- Test 3, for one page: the word is read back. -/
def memtestVerify (pml4 : Frame) (i : ℕ) : Command Unit := do
  let value ← loadWord pml4 (memtestAddr i)
  stopIf (value ≠ memtestPattern i) .returned

/-- Test 4, for one page: it is unmapped and looked up. -/
def memtestUnmap (pml4 : Frame) (i : ℕ) : Command Unit := do
  unmapPage pml4 (memtestAddr i)
  let resolved ← virtToPhys pml4 (memtestAddr i)
  stopIf (resolved ≠ 0) .returned

/-- Test 6, for one block: it is allocated and filled. -/
def memtestBlock (pml4 : Frame) (ptrs : List (BitVec 64)) (i : ℕ) : Command (List (BitVec 64)) := do
  let ptr ← mallocBlock pml4 256
  stopIf (ptr = 0) .returned
  (List.range 256).forM fun j =>
    storeByte pml4 (ptr + BitVec.ofNat 64 j) (BitVec.ofNat 8 (i + j))
  pure (ptrs ++ [ptr])

/-- Test 6, for one block: it is read back. -/
def memtestVerifyBlock (pml4 : Frame) (ptrs : List (BitVec 64)) (i : ℕ) : Command Unit :=
  (List.range 256).forM fun j => do
    let value ← loadByte pml4 (ptrs.getD i 0 + BitVec.ofNat 64 j)
    stopIf (value ≠ BitVec.ofNat 8 (i + j)) .returned

/-- `cmd_memtest`. -/
def cmdMemtest (pml4 : Frame) : Command Unit := do
  let pages ← memtestAlloc
  (List.range testPages).forM (memtestMap pml4 pages)
  (List.range testPages).forM (memtestWrite pml4)
  (List.range testPages).forM (memtestVerify pml4)
  (List.range testPages).forM (memtestUnmap pml4)
  pages.forM freePage
  let ptrs ← (List.range testHeapAllocs).foldlM (memtestBlock pml4) []
  (List.range testHeapAllocs).forM (memtestVerifyBlock pml4 ptrs)

/-! ### `vmtest` -/

/-- The address that `cmd_vmtest` maps, in the heap. -/
def vmtestAddr : BitVec 64 := 0xFFFF800000001000

/-- `cmd_vmtest`. What it looks up it only prints. -/
def cmdVmtest (pml4 : Frame) : Command Unit := do
  let physPage ← allocPage
  stopIf (physPage = 0) .returned
  mapPage pml4 vmtestAddr physPage 3
  let _ ← virtToPhys pml4 vmtestAddr
  storeWord pml4 vmtestAddr 0xDEADBEEFCAFEBABE
  let _ ← loadWord pml4 vmtestAddr
  unmapPage pml4 vmtestAddr
  let _ ← virtToPhys pml4 vmtestAddr
  freePage physPage

/-! ### `usertest` -/

/-- `user_code`. -/
def userCode : List (BitVec 8) :=
  [0x48, 0x8d, 0x35, 0x22, 0x00, 0x00, 0x00, 0x48, 0xc7, 0xc0, 0x01, 0x00, 0x00, 0x00,
    0x48, 0xc7, 0xc7, 0x01, 0x00, 0x00, 0x00, 0x48, 0xc7, 0xc2, 0x0e, 0x00, 0x00, 0x00,
    0x0f, 0x05, 0x48, 0xc7, 0xc0, 0x00, 0x00, 0x00, 0x00, 0x0f, 0x05, 0xeb, 0xfe,
    0x48, 0x65, 0x6c, 0x6c, 0x6f, 0x20, 0x52, 0x69, 0x6e, 0x67, 0x20, 0x33, 0x21, 0x0a, 0x00]

/-- `USER_CODE_VADDR`. -/
def userCodeVaddr : BitVec 64 := 0x400000

/-- `USER_STACK_VADDR`. -/
def userStackVaddr : BitVec 64 := 0x800000

/-- `cmd_usertest` up to `jump_to_usermode`, less the stacks of TSS and system calls. -/
def cmdUsertest (pml4 : Frame) : Command Unit := do
  let codePhys ← allocPage
  let stackPhys ← allocPage
  stopIf (codePhys = 0 ∨ stackPhys = 0) .returned
  mapPage pml4 userCodeVaddr codePhys 7
  mapPage pml4 userStackVaddr stackPhys 7
  (List.range userCode.length).forM fun i =>
    storeByte pml4 (userCodeVaddr + BitVec.ofNat 64 i) (userCode.getD i 0)

end KiOS
