import KiOS.Cpu.IrqStub
import KiOS.Mm.HeapBounds
import KiOS.Task.Runs
import KiOS.Text.StringMemory

/-!
The bytes that `task_create` writes.

The frame of a new task goes where the sum of the stack's address and its size leads, rounded
down to 16, less the 208 bytes of a frame. Neither is the size compared with 208, nor the sum
with the end of the address space.

* `TaskMemory`, `taskCreateMemory`: the kernel with its bytes, and the source's function;
* `tcbFields`, `frameFields`: the fields in the order of the source's assignments;
* `TaskSound`: what a new task owes: its frame lies inside its stack, and nothing but its fields,
  its name and its frame is written;
* `task_sound_iff`: when this is so;
* `small_stack_overlaps`: a stack of 64 bytes, whose frame lies on the task control block.
-/

namespace KiOS

open ByteMemory

/-- The values of `task_state_t`. -/
def TaskState.code : TaskState → BitVec 64
  | .ready => 0
  | .running => 1
  | .blocked => 2
  | .sleeping => 3
  | .zombie => 4

/-- What `task_create` works with: the heap, the variables of `task.c`, and a byte at every
address. The pages that `kmalloc` maps have held the bytes they show from the beginning. -/
structure TaskMemory (σ : Type) where
  kernel : Kernel σ
  bytes : ByteMemory
  taskList : List Ptr
  currentTask : Option Ptr
  nextPid : BitVec 32

/-- The assignments to the block of the task behind its name. -/
def tcbFields (stack stackSize stackTop : BitVec 64) : List Slot :=
  [⟨36, 4, TaskState.ready.code⟩, ⟨48, 8, stack⟩, ⟨56, 8, stackSize⟩, ⟨64, 8, 0⟩, ⟨72, 8, 0⟩,
    ⟨40, 8, stackTop⟩]

/-- The assignments to the frame. -/
def frameFields (entry stackTop : BitVec 64) : List Slot :=
  [⟨144, 8, 0⟩, ⟨136, 8, 0⟩, ⟨128, 8, 0⟩, ⟨120, 8, 0⟩, ⟨112, 8, 0⟩, ⟨104, 8, 0⟩, ⟨96, 8, 0⟩,
    ⟨88, 8, 0⟩, ⟨80, 8, 0⟩, ⟨72, 8, 0⟩, ⟨64, 8, 0⟩, ⟨56, 8, 0⟩, ⟨48, 8, 0⟩, ⟨40, 8, 0⟩, ⟨32, 8, 0⟩,
    ⟨168, 8, entry⟩, ⟨192, 8, stackTop⟩,
    ⟨176, 8, 0x08⟩, ⟨24, 8, 0x10⟩, ⟨16, 8, 0x10⟩, ⟨8, 8, 0x10⟩, ⟨0, 8, 0x10⟩, ⟨200, 8, 0x10⟩,
    ⟨184, 8, 0x202⟩, ⟨152, 8, 0⟩, ⟨160, 8, 0⟩]

/-- The assignments to the block of the task. -/
def writeTcb (task stack name stackSize : BitVec 64) (pid : BitVec 32) (m : ByteMemory) :
    ByteMemory :=
  let m := m.store 4 task (pid.setWidth 64)
  let m := strncpyMemory (task + 4) name (BitVec.ofNat 64 taskNameMax) m
  m.storeFields task (tcbFields stack stackSize (stackFrame stack stackSize))

/-- What `task_create` writes into its two blocks. The first task becomes the current one. -/
def writeTask (task stack name entry stackSize : BitVec 64) (pid : BitVec 32) (first : Bool)
    (m : ByteMemory) : ByteMemory :=
  let stackTop := stackFrame stack stackSize
  let m := writeTcb task stack name stackSize pid m
  let m := m.storeFields stackTop (frameFields entry stackTop)
  if first then m.store 4 (task + 36) TaskState.running.code else m

/-- `task_create`, `0` for NULL. -/
def taskCreateMemory {σ : Type} (alloc : σ → BitVec 64 × σ) (pml4 : Frame)
    (name entry stackSize : BitVec 64) (t : TaskMemory σ) : BitVec 64 × TaskMemory σ :=
  if maxTasks ≤ t.taskList.length then (0, t) else
  let (task, kernel) := kmalloc alloc pml4 sizeofTask t.kernel
  let t := { t with kernel := kernel }
  if task = 0 then (0, t) else
  let (stack, kernel) := kmalloc alloc pml4 stackSize t.kernel
  let t := { t with kernel := kernel }
  -- `kfree(task)` does nothing
  if stack = 0 then (0, t) else
  (task,
    { t with
      bytes := writeTask task stack name entry stackSize t.nextPid t.currentTask.isNone t.bytes
      nextPid := t.nextPid + 1
      taskList := t.taskList ++ [task]
      currentTask := t.currentTask.or (some task) })

/-- What a new task owes, with its block at `task`, its stack at `stack` and the bytes `m'` where
`m` was before. -/
structure TaskSound (task stack entry stackSize : BitVec 64) (pid : BitVec 32) (state : TaskState)
    (blocks : List Block) (m m' : ByteMemory) : Prop where
  frame_inside : ∀ i < 208, stack.toNat ≤ (stackFrame stack stackSize + BitVec.ofNat 64 i).toNat
    ∧ (stackFrame stack stackSize + BitVec.ofNat 64 i).toNat < stack.toNat + stackSize.toNat
  /-- The frame is the one the scheduler starts a task with. -/
  frame : readFrame m' (stackFrame stack stackSize)
    = initialRegisters entry (stackFrame stack stackSize)
  rsp_aligned : (readFrame m' (stackFrame stack stackSize)).rsp.toNat % 16 = 0
  rsp_inside : stack.toNat ≤ (readFrame m' (stackFrame stack stackSize)).rsp.toNat
    ∧ (readFrame m' (stackFrame stack stackSize)).rsp.toNat < stack.toNat + stackSize.toNat
  pid : m'.Holds 4 task (pid.setWidth 64)
  state : m'.Holds 4 (task + 36) state.code
  regs : m'.Holds 8 (task + 40) (stackFrame stack stackSize)
  stackBase : m'.Holds 8 (task + 48) stack
  stackSize : m'.Holds 8 (task + 56) stackSize
  sleepUntil : m'.Holds 8 (task + 64) 0
  next : m'.Holds 8 (task + 72) 0
  others : ∀ b ∈ blocks, ∀ a : BitVec 64, b.addr.toNat ≤ a.toNat →
    a.toNat < b.addr.toNat + b.size.toNat → m' a = m a

variable {task stack name entry stackSize stackTop : BitVec 64} {pid : BitVec 32} {first : Bool}
  {m : ByteMemory} {a : BitVec 64}

variable (stack stackSize stackTop) in
lemma tcbFields_bound : ∀ f ∈ tcbFields stack stackSize stackTop, f.offset + f.width ≤ 80 := by
  simp [tcbFields]

variable (stack stackSize stackTop) in
lemma tcbFields_apart : (tcbFields stack stackSize stackTop).Pairwise Slot.Apart := by
  have hlayout : ((tcbFields 0 0 0).map fun f => { f with value := 0 }).Pairwise Slot.Apart := by
    decide
  exact pairwise_apart_iff.mpr hlayout

lemma frameFields_bound : ∀ f ∈ frameFields entry stackTop, f.offset + f.width ≤ 208 := by
  simp [frameFields]

lemma frameFields_apart : (frameFields entry stackTop).Pairwise Slot.Apart := by
  have hlayout : ((frameFields 0 0).map fun f => { f with value := 0 }).Pairwise Slot.Apart := by
    decide
  exact pairwise_apart_iff.mpr hlayout

/-! ### The bytes that are written -/

/-- Nothing outside the block of the task and the frame is written. -/
lemma writeTask_outside (htask : 80 ≤ (a - task).toNat)
    (hframe : 208 ≤ (a - stackFrame stack stackSize).toNat) :
    writeTask task stack name entry stackSize pid first m a = m a := by
  have hlt := (a - task).isLt
  have hname : (BitVec.ofNat 64 taskNameMax).toNat + 1 ≤ (a - (task + 4)).toNat := by
    have h33 : (BitVec.ofNat 64 taskNameMax).toNat + 1 = 33 := rfl
    have h4 : (4 : BitVec 64).toNat = 4 := rfl
    rw [h33, ← sub_sub, BitVec.toNat_sub, h4]
    omega
  have hstate : 4 ≤ (a - (task + 36)).toNat := by
    have h36 : (36 : BitVec 64).toNat = 36 := rfl
    rw [← sub_sub, BitVec.toNat_sub, h36]
    omega
  have hfields : (writeTcb task stack name stackSize pid m).storeFields
      (stackFrame stack stackSize) (frameFields entry (stackFrame stack stackSize)) a = m a := by
    rw [storeFields_outside (by norm_num) frameFields_bound hframe, writeTcb,
      storeFields_outside (by norm_num) (tcbFields_bound _ _ _) htask, strncpyMemory_outside hname,
      store_outside (by omega)]
  simp only [writeTask]
  split_ifs
  · rw [store_outside hstate, hfields]
  · exact hfields

/-- The frame lies behind the block of the task. -/
structure FrameBehind (task stackTop : BitVec 64) : Prop where
  le : task.toNat + 80 ≤ stackTop.toNat
  fits : stackTop.toNat + 208 ≤ 2 ^ 64

namespace FrameBehind

lemma toNat_task (h : FrameBehind task stackTop) {j : ℕ} (hj : j < 80) :
    (task + BitVec.ofNat 64 j).toNat = task.toNat + j := by
  obtain ⟨hle, hfits⟩ := h
  exact toNat_add_offset (by omega)

/-- The stores into the frame do not reach the block of the task. -/
lemma storeFields_frame (h : FrameBehind task stackTop) {j : ℕ} (hj : j < 80) :
    m.storeFields stackTop (frameFields entry stackTop) (task + BitVec.ofNat 64 j)
      = m (task + BitVec.ofNat 64 j) := by
  refine storeFields_outside (by norm_num) frameFields_bound ?_
  have hj' := h.toNat_task hj
  exact le_toNat_sub_of_lt (by have := h.le; omega) h.fits

/-- The other way round. -/
lemma store_state (h : FrameBehind task stackTop) {v : BitVec 64} {j : ℕ} (hj : j < 208) :
    m.store 4 (task + 36) v (stackTop + BitVec.ofNat 64 j)
      = m (stackTop + BitVec.ofNat 64 j) := by
  have hstate : (task + 36).toNat = task.toNat + 36 := h.toNat_task (by norm_num : 36 < 80)
  obtain ⟨hle, hfits⟩ := h
  refine store_outside (le_toNat_sub_of_le ?_)
  rw [toNat_add_offset (by omega), hstate]
  omega

end FrameBehind

/-! ### What the bytes hold then -/

/-- The block of the task as `writeTcb` leaves it, but for the state. -/
lemma writeTask_tcb (h : FrameBehind task (stackFrame stack stackSize)) {j : ℕ} (hj : j < 80)
    (hstate : j < 36 ∨ 40 ≤ j) :
    writeTask task stack name entry stackSize pid first m (task + BitVec.ofNat 64 j)
      = writeTcb task stack name stackSize pid m (task + BitVec.ofNat 64 j) := by
  have hframe : (writeTcb task stack name stackSize pid m).storeFields (stackFrame stack stackSize)
      (frameFields entry (stackFrame stack stackSize)) (task + BitVec.ofNat 64 j)
      = writeTcb task stack name stackSize pid m (task + BitVec.ofNat 64 j) :=
        h.storeFields_frame hj
  rw [← hframe]
  simp only [writeTask]
  split_ifs
  · exact store_field (o := 36) (by norm_num) (by omega) (by norm_num) hstate
  · rfl

/-- The PID lies before the name. -/
lemma holds_writeTask_pid (h : FrameBehind task (stackFrame stack stackSize)) :
    (writeTask task stack name entry stackSize pid first m).Holds 4 task (pid.setWidth 64) := by
  refine (holds_store (m := m) (by norm_num)).congr fun i hi => ?_
  have h33 : (BitVec.ofNat 64 taskNameMax).toNat + 1 = 33 := rfl
  have hoff := toNat_offset_sub (a := task) (o := 4) (j := i) (by norm_num) (by omega)
  rw [if_neg (by omega)] at hoff
  have hfields := storeFields_of_apart (a := task) (g := ⟨0, 4, 0⟩) (i := i)
    (m := strncpyMemory (task + 4) name (BitVec.ofNat 64 taskNameMax)
      (m.store 4 task (pid.setWidth 64)))
    (by norm_num) (tcbFields_bound stack stackSize (stackFrame stack stackSize)) (by norm_num)
    (by simp [tcbFields, Slot.Apart]) hi
  rw [Nat.zero_add] at hfields
  rw [writeTask_tcb h (by omega) (by omega), writeTcb, hfields]
  exact strncpyMemory_outside
    (by rw [h33, show task + 4 = task + BitVec.ofNat 64 4 from rfl, hoff]; omega)

/-- The fields behind the state. -/
lemma holds_writeTask (h : FrameBehind task (stackFrame stack stackSize)) {f : Slot}
    (hf : f ∈ tcbFields stack stackSize (stackFrame stack stackSize)) (hstate : 40 ≤ f.offset) :
    (writeTask task stack name entry stackSize pid first m).Holds f.width
      (task + BitVec.ofNat 64 f.offset) f.value := by
  have hbound := tcbFields_bound _ _ _ f hf
  refine Holds.congr (holds_storeFields (m := strncpyMemory (task + 4) name
    (BitVec.ofNat 64 taskNameMax) (m.store 4 task (pid.setWidth 64))) (by norm_num)
    (tcbFields_bound _ _ _) (tcbFields_apart _ _ _) hf) fun i hi => ?_
  rw [add_assoc, ← BitVec.ofNat_add]
  exact writeTask_tcb h (by omega) (by omega)

/-- The state. -/
lemma holds_writeTask_state (h : FrameBehind task (stackFrame stack stackSize)) :
    (writeTask task stack name entry stackSize pid first m).Holds 4 (task + 36)
      (if first then TaskState.running else .ready).code := by
  simp only [writeTask]
  split_ifs
  · exact holds_store (by norm_num)
  · refine Holds.congr (holds_storeFields (f := ⟨36, 4, TaskState.ready.code⟩)
      (m := strncpyMemory (task + 4) name (BitVec.ofNat 64 taskNameMax)
        (m.store 4 task (pid.setWidth 64))) (by norm_num) (tcbFields_bound _ _ _)
      (tcbFields_apart stack stackSize (stackFrame stack stackSize)) (by simp [tcbFields]))
      fun i hi => ?_
    rw [add_assoc, show (36 : BitVec 64) = BitVec.ofNat 64 36 from rfl, ← BitVec.ofNat_add]
    exact h.storeFields_frame (by omega)

/-- **The frame** is the one of a new task. -/
lemma readFrame_writeTask (h : FrameBehind task (stackFrame stack stackSize)) :
    readFrame (writeTask task stack name entry stackSize pid first m) (stackFrame stack stackSize)
      = initialRegisters entry (stackFrame stack stackSize) := by
  have hword : ∀ f ∈ frameFields entry (stackFrame stack stackSize), f.width = 8 →
      (writeTask task stack name entry stackSize pid first m).read
        (stackFrame stack stackSize + BitVec.ofNat 64 f.offset) = f.value := by
    intro f hf h8
    have hbound := frameFields_bound f hf
    have hheld := holds_storeFields (a := stackFrame stack stackSize)
      (m := writeTcb task stack name stackSize pid m) (by norm_num) frameFields_bound
      frameFields_apart hf
    rw [h8] at hheld
    refine Holds.read_eq (hheld.congr fun i hi => ?_)
    rw [add_assoc, ← BitVec.ofNat_add]
    simp only [writeTask]
    split_ifs
    · exact h.store_state (by omega)
    · rfl
  have hslot := fun (i : ℕ) (v : BitVec 64)
    (hf : (⟨8 * i, 8, v⟩ : Slot) ∈ frameFields entry (stackFrame stack stackSize)) =>
      hword _ hf rfl
  simp only [frameFields, List.mem_cons, Slot.mk.injEq] at hslot
  simp only [readFrame, initialRegisters, Registers.mk.injEq]
  refine ⟨?_, ?_, ?_, ?_, ?_, ?_, ?_, ?_, ?_, ?_, ?_, ?_, ?_, ?_, ?_, ?_, ?_, ?_, ?_, ?_, ?_, ?_,
    ?_, ?_, ?_, ?_⟩ <;> exact hslot _ _ (by simp)

/-! ### When a new task is sound -/

variable (stack stackSize) in
/-- The frame lies inside the stack exactly if it fits and the stack does not wrap, but for the
bytes that are rounded off. -/
lemma frame_inside_iff (hal : stack.toNat % 16 = 0) (hstack : 208 ≤ stack.toNat) :
    (∀ i < 208, stack.toNat ≤ (stackFrame stack stackSize + BitVec.ofNat 64 i).toNat
        ∧ (stackFrame stack stackSize + BitVec.ofNat 64 i).toNat
          < stack.toNat + stackSize.toNat)
      ↔ 208 ≤ stackSize.toNat ∧ stack.toNat + stackSize.toNat < 2 ^ 64 + 16 := by
  have hframe := toNat_stackFrame stack stackSize
  have hlt := stackSize.isLt
  have hlt' := stack.isLt
  have hbyte : ∀ i < 208, (stackFrame stack stackSize + BitVec.ofNat 64 i).toNat
      = ((stackFrame stack stackSize).toNat + i) % 2 ^ 64 := by
    intro i hi
    rw [BitVec.toNat_add, BitVec.toNat_ofNat, Nat.add_mod_mod]
  constructor
  · intro h
    have hfirst := h 0 (by norm_num)
    have hlast := h 207 (by norm_num)
    rw [hbyte _ (by norm_num)] at hfirst hlast
    omega
  · rintro ⟨hfit, hwrap⟩ i hi
    rw [hbyte i hi]
    omega

section

variable {σ : Type} {alloc : σ → BitVec 64 × σ} {pml4 : Frame} {t : TaskMemory σ}

/-- **What `task_create` has done** when it returns a task. -/
lemma taskCreateMemory_some (hret : (taskCreateMemory alloc pml4 name entry stackSize t).1 ≠ 0) :
    let k := (kmalloc alloc pml4 sizeofTask t.kernel).2
    let stack := (kmalloc alloc pml4 stackSize k).1
    stack ≠ 0
      ∧ (taskCreateMemory alloc pml4 name entry stackSize t).1
        = (kmalloc alloc pml4 sizeofTask t.kernel).1
      ∧ (taskCreateMemory alloc pml4 name entry stackSize t).2.bytes
        = writeTask (kmalloc alloc pml4 sizeofTask t.kernel).1 stack name entry stackSize t.nextPid
            t.currentTask.isNone t.bytes := by
  dsimp only
  revert hret
  simp only [taskCreateMemory]
  split_ifs with hmax htask hstack
  · exact fun h => absurd rfl h
  · exact fun h => absurd rfl h
  · exact fun h => absurd rfl h
  · exact fun _ => ⟨hstack, rfl, rfl⟩

/-- Where the two blocks lie: one behind the other at the end of the heap. -/
lemma taskCreateMemory_blocks {s : HeapRun σ} (h : s.BoundsInv)
    (htask : (kmalloc alloc pml4 sizeofTask s.kernel).1 ≠ 0)
    (hstack : (kmalloc alloc pml4 stackSize (kmalloc alloc pml4 sizeofTask s.kernel).2).1 ≠ 0) :
    (kmalloc alloc pml4 sizeofTask s.kernel).1 = s.kernel.heapCurrentPtr
      ∧ (kmalloc alloc pml4 stackSize (kmalloc alloc pml4 sizeofTask s.kernel).2).1.toNat
        = s.kernel.heapCurrentPtr.toNat + 80 := by
  have hround : roundUp16 sizeofTask = 80 := rfl
  rcases kmalloc_bump alloc pml4 sizeofTask s.kernel with
    ⟨h0, -⟩ | ⟨-, -, htask', hptr, -⟩
  · exact absurd h0 htask
  rcases kmalloc_bump alloc pml4 stackSize (kmalloc alloc pml4 sizeofTask s.kernel).2 with
    ⟨h0, -⟩ | ⟨-, -, hstack', -⟩
  · exact absurd h0 hstack
  have hlt := h.lt_end
  have hend : heapStart.toNat + heapSize.toNat = 0xFFFF800001000000 := rfl
  refine ⟨htask', ?_⟩
  have h80 : (80 : BitVec 64).toNat = 80 := rfl
  rw [hstack', hptr, hround]
  exact BitVec.toNat_add_of_lt (by omega)

/-- **New tasks**: on a heap none of whose sums has wrapped, a task that `task_create` returns is
sound exactly if a frame fits into its stack and the stack does not wrap. -/
theorem task_sound_iff (alloc : σ → BitVec 64 × σ) (pml4 : Frame) (mem : PhysMem) (pmm : σ)
    {es : List (HeapEvent σ)} {s : HeapRun σ}
    (hrun : ((heapMachine alloc pml4).restrict HeapFits).Run (heapBoot mem pmm) es s)
    (t : TaskMemory σ) (hkernel : t.kernel = s.kernel) (name entry stackSize : BitVec 64)
    (hret : (taskCreateMemory alloc pml4 name entry stackSize t).1 ≠ 0) :
    TaskSound (taskCreateMemory alloc pml4 name entry stackSize t).1
        (kmalloc alloc pml4 stackSize (kmalloc alloc pml4 sizeofTask s.kernel).2).1 entry stackSize
        t.nextPid (if t.currentTask.isNone then .running else .ready) s.blocks t.bytes
        (taskCreateMemory alloc pml4 name entry stackSize t).2.bytes
      ↔ 208 ≤ stackSize.toNat
        ∧ s.kernel.heapCurrentPtr.toNat + 80 + stackSize.toNat < 2 ^ 64 + 16 := by
  have h := HeapRun.BoundsInv.of_run hrun
  obtain ⟨hstack, htask, hbytes⟩ := taskCreateMemory_some hret
  rw [htask] at hret
  rw [hkernel] at hret hstack htask hbytes
  rw [htask, hbytes]
  obtain ⟨hfirst, hsecond⟩ := taskCreateMemory_blocks h hret hstack
  have hal := h.aligned
  have hle := h.start_le
  have hstart : heapStart.toNat = 0xFFFF800000000000 := rfl
  rw [hfirst, ← hsecond]
  generalize (kmalloc alloc pml4 stackSize (kmalloc alloc pml4 sizeofTask s.kernel).2).1
    = stack at hsecond ⊢
  have hinside := frame_inside_iff stack stackSize (by omega) (by omega)
  refine ⟨fun hsound => hinside.mp hsound.frame_inside, fun hfits => ?_⟩
  have hframe := hinside.mpr hfits
  have hpos := toNat_stackFrame stack stackSize
  have hsize := stackSize.isLt
  have hzero := hframe 0 (by norm_num)
  have hbehind : FrameBehind s.kernel.heapCurrentPtr (stackFrame stack stackSize) := by
    constructor <;> omega
  have hread : readFrame (writeTask s.kernel.heapCurrentPtr stack name entry stackSize t.nextPid
      t.currentTask.isNone t.bytes) (stackFrame stack stackSize)
      = initialRegisters entry (stackFrame stack stackSize) := readFrame_writeTask hbehind
  have hfield : ∀ f ∈ tcbFields stack stackSize (stackFrame stack stackSize), 40 ≤ f.offset →
      (writeTask s.kernel.heapCurrentPtr stack name entry stackSize t.nextPid t.currentTask.isNone
        t.bytes).Holds f.width (s.kernel.heapCurrentPtr + BitVec.ofNat 64 f.offset) f.value :=
    fun f hf ho => holds_writeTask hbehind hf ho
  have hrsp : (initialRegisters entry (stackFrame stack stackSize)).rsp
      = stackFrame stack stackSize := rfl
  refine
    { frame_inside := hframe
      frame := hread
      rsp_aligned := ?_
      rsp_inside := ?_
      pid := holds_writeTask_pid hbehind
      state := holds_writeTask_state hbehind
      regs := hfield ⟨40, 8, stackFrame stack stackSize⟩ (by simp [tcbFields]) le_rfl
      stackBase := hfield ⟨48, 8, _⟩ (by simp [tcbFields]) (by norm_num)
      stackSize := hfield ⟨56, 8, _⟩ (by simp [tcbFields]) (by norm_num)
      sleepUntil := hfield ⟨64, 8, _⟩ (by simp [tcbFields]) (by norm_num)
      next := hfield ⟨72, 8, _⟩ (by simp [tcbFields]) (by norm_num)
      others := ?_ }
  · rw [hread, hrsp]
    omega
  · rw [hread, hrsp]
    simpa using hzero
  · -- the blocks returned before lie below the block of the task
    intro b hb a _ ha
    have hbelow := h.below b hb
    exact writeTask_outside (le_toNat_sub_of_lt (by omega) (by omega))
      (le_toNat_sub_of_lt (by have := hbehind.le; omega) hbehind.fits)

end

/-- The kernel after a first block of 4096 bytes, with a task of its own. -/
def taskStartOfDay : TaskMemory (List (BitVec 64)) where
  kernel := (kmalloc pageScript.alloc (bootPml4 0x9000) 4096 heapStartOfDay.kernel).2
  bytes := fun _ => 0
  taskList := [0x1000]
  currentTask := some 0x1000
  nextPid := 1

lemma run_taskStartOfDay : ∃ s, ((heapMachine pageScript.alloc (bootPml4 0x9000)).restrict
    HeapFits).Run heapStartOfDay [.kmalloc 4096] s ∧ taskStartOfDay.kernel = s.kernel
      ∧ s.blocks = [⟨heapStart, 4096⟩] := by
  have hfit : HeapFits heapStartOfDay (.kmalloc 4096) := Or.inr (by decide)
  have hrun := EventMachine.Run.single (M := (heapMachine pageScript.alloc
    (bootPml4 0x9000)).restrict HeapFits) ⟨trivial, hfit⟩ rfl
  exact ⟨_, hrun, rfl, by decide +kernel⟩

/-- The second task of `main.c`, with a stack of 4096 bytes. -/
theorem task_sound_iff_worker : ∃ stack, TaskSound
    (taskCreateMemory pageScript.alloc (bootPml4 0x9000) 0x2000 0x100000 4096 taskStartOfDay).1
    stack 0x100000 4096 1 .ready [⟨heapStart, 4096⟩] taskStartOfDay.bytes
    (taskCreateMemory pageScript.alloc (bootPml4 0x9000) 0x2000 0x100000 4096
      taskStartOfDay).2.bytes := by
  obtain ⟨s, hrun, hkernel, hblocks⟩ := run_taskStartOfDay
  have hiff := task_sound_iff pageScript.alloc (bootPml4 0x9000) _ _ hrun taskStartOfDay hkernel
    0x2000 0x100000 4096 (by decide +kernel)
  rw [hblocks, ← hkernel] at hiff
  exact ⟨_, hiff.mpr ⟨by decide, by decide +kernel⟩⟩

/-- **A stack of 64 bytes**: the frame starts 64 bytes below the block of the task. It overwrites
the end of the first block, and the field `regs` of the task itself with zero. -/
theorem small_stack_overlaps :
    (∃ s, ((heapMachine pageScript.alloc (bootPml4 0x9000)).restrict HeapFits).Run heapStartOfDay
        [.kmalloc 4096] s ∧ taskStartOfDay.kernel = s.kernel ∧ s.blocks = [⟨heapStart, 4096⟩])
      ∧ (taskCreateMemory pageScript.alloc (bootPml4 0x9000) 0x2000 0x100000 64 taskStartOfDay).1
        = heapStart + 4096
      ∧ (taskCreateMemory pageScript.alloc (bootPml4 0x9000) 0x2000 0x100000 64
          taskStartOfDay).2.bytes (heapStart + 4032) = 0x10
      ∧ (taskCreateMemory pageScript.alloc (bootPml4 0x9000) 0x2000 0x100000 64
          taskStartOfDay).2.bytes.read (heapStart + 4136) = 0
      ∧ ¬ TaskSound (heapStart + 4096) (heapStart + 4176) 0x100000 64 1 .ready
        [⟨heapStart, 4096⟩] taskStartOfDay.bytes
        (taskCreateMemory pageScript.alloc (bootPml4 0x9000) 0x2000 0x100000 64
          taskStartOfDay).2.bytes := by
  have hbyte : (taskCreateMemory pageScript.alloc (bootPml4 0x9000) 0x2000 0x100000 64
      taskStartOfDay).2.bytes (heapStart + 4032) = 0x10 := by decide +kernel
  refine ⟨run_taskStartOfDay, by decide +kernel, hbyte, by decide +kernel, fun hsound => ?_⟩
  have hkept := hsound.others _ (List.mem_singleton_self _) (heapStart + 4032)
    (by decide) (by decide)
  rw [hbyte] at hkept
  exact absurd hkept (by decide)

end KiOS
