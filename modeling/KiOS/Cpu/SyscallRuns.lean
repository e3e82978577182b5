import KiOS.Cpu.IrqStub
import KiOS.Cpu.Syscall
import KiOS.Library.Align

/-!
System calls of several tasks, with the interrupts between and inside them.

All tasks share one `cpu_data`, one kernel stack and the pair of GS bases, and `syscall_handler`
runs with interrupts enabled. So a task can be switched away from in the middle of a system call.
Another one can start its own then: `swapgs` takes `cpu_data` away from the first. Or it can be
interrupted in ring 3: `cmd_usertest` gives the task state segment the same kernel stack, and the
frame of the interrupt overwrites what the first one has saved there. The other way round, a system
call overwrites the frame of a task that was interrupted in ring 3.

* `SyscallRun`: the processor, the saved contexts of the tasks that do not run, and as a ghost the
  state in which each task executed its last `syscall`;
* `SyscallRun.resumed`: what a task goes on with: what it was switched away with, or in ring 3 what
  lies in its frame by then;
* `syscallMachine`: any interleaving of what tasks do outside their system calls and in their
  handlers, of `syscall_entry` instruction by instruction, and of interrupts wherever they are
  enabled, with a task switch or without;
* `Alone`: the condition: while a task is in a system call, no other one starts its own or is
  interrupted in ring 3; and what was interrupted in ring 3 does not go on in ring 0;
* `Parked`, `Masked`: what holds of a task in a system call, where it may lose the processor and
  where it may not;
* `sysret_returns`: in every run that keeps to it each `sysret` gives a task its state back;
* `sysret_mixed_up`: two system calls at a time, and an interrupt in ring 3 during one.
-/

namespace KiOS

/-- Where a task is. -/
inductive Place where
  /-- In kernel code, before `jump_to_usermode`. -/
  | kernel
  | user
  /-- Before an instruction of `syscallHead`, at its end before the call. -/
  | head (i : ℕ)
  /-- In `syscall_handler`. -/
  | handler
  /-- Before an instruction of `syscallTail`. -/
  | tail (i : ℕ)
  deriving DecidableEq, Repr

/-- Between its `syscall` and its `sysret`. -/
def Place.InSyscall : Place → Prop
  | .kernel => False
  | .user => False
  | .head _ => True
  | .handler => True
  | .tail _ => True

instance : DecidablePred Place.InSyscall
  | .kernel => inferInstanceAs (Decidable False)
  | .user => inferInstanceAs (Decidable False)
  | .head _ => inferInstanceAs (Decidable True)
  | .handler => inferInstanceAs (Decidable True)
  | .tail _ => inferInstanceAs (Decidable True)

/-- The processor and the tasks. -/
structure SyscallRun where
  machine : Machine
  place : Place
  current : ℕ
  /-- The registers the other tasks were interrupted with, and where they are. -/
  saved : ℕ → Cpu × Place
  /-- `tss.rsp0`. -/
  rsp0 : BitVec 64
  /-- The machine at the last `syscall` of a task. -/
  entry : ℕ → Machine
  /-- The registers at the last call of `syscall_handler`. -/
  called : ℕ → Cpu

inductive SyscallEvent where
  | enter (userStack userRip : BitVec 64)
  /-- Code of the current task runs. -/
  | run (cpu : Cpu) (mem : ByteMemory)
  | syscall
  | step
  | ret (cpu : Cpu) (mem : ByteMemory)
  /-- The interrupt of a line, with the memory that `irq_handler` leaves and the task it returns
  to. -/
  | interrupt (line : ℕ) (mem : ByteMemory) (t : ℕ)

/-- `jump_to_usermode`. The words it pushes for its `iretq` lie on the stack of the task. -/
def jumpToUsermode (userStack userRip : BitVec 64) (c : Cpu) : Cpu where
  gpr := Function.update (Function.update c.gpr .rax (setLow16 (c.gpr .rax) 0x1B)) .rsp userStack
  rip := userRip
  rflags := 0x202
  cs := 0x23
  ss := 0x1B
  seg _ := 0x1B

/-- What `syscall_handler` keeps to, called with the registers `called`: the System V ABI, its own
part of the kernel stack, and no access to `cpu_data`. -/
structure HandlerOk (L : SyscallLayout) (called : Cpu) (m : ByteMemory) (cpu : Cpu)
    (mem : ByteMemory) : Prop where
  saved : ∀ r ∈ calleeSaved, cpu.gpr r = called.gpr r
  stack : ∀ k < 64, mem (called.gpr .rsp + BitVec.ofNat 64 k)
    = m (called.gpr .rsp + BitVec.ofNat 64 k)
  data : ∀ k < 24, mem (L.cpuData + BitVec.ofNat 64 k) = m (L.cpuData + BitVec.ofNat 64 k)

instance (L : SyscallLayout) (called : Cpu) (m : ByteMemory) (cpu : Cpu) (mem : ByteMemory) :
    Decidable (HandlerOk L called m cpu mem) :=
  decidable_of_iff ((∀ r ∈ calleeSaved, cpu.gpr r = called.gpr r)
      ∧ (∀ k < 64, mem (called.gpr .rsp + BitVec.ofNat 64 k)
        = m (called.gpr .rsp + BitVec.ofNat 64 k))
      ∧ ∀ k < 24, mem (L.cpuData + BitVec.ofNat 64 k) = m (L.cpuData + BitVec.ofNat 64 k))
    ⟨fun h => ⟨h.1, h.2.1, h.2.2⟩, fun h => ⟨h.saved, h.stack, h.data⟩⟩

/-- Code that touches neither `cpu_data` nor the registers saved on the kernel stack. -/
structure LeavesAlone (L : SyscallLayout) (m m' : ByteMemory) : Prop where
  stack : ∀ k < 64, m' (L.kernelStack - 64 + BitVec.ofNat 64 k)
    = m (L.kernelStack - 64 + BitVec.ofNat 64 k)
  data : ∀ k < 24, m' (L.cpuData + BitVec.ofNat 64 k) = m (L.cpuData + BitVec.ofNat 64 k)

instance (L : SyscallLayout) (m m' : ByteMemory) : Decidable (LeavesAlone L m m') :=
  decidable_of_iff ((∀ k < 64, m' (L.kernelStack - 64 + BitVec.ofNat 64 k)
        = m (L.kernelStack - 64 + BitVec.ofNat 64 k))
      ∧ ∀ k < 24, m' (L.cpuData + BitVec.ofNat 64 k) = m (L.cpuData + BitVec.ofNat 64 k))
    ⟨fun h => ⟨h.1, h.2⟩, fun h => ⟨h.stack, h.data⟩⟩

/-- A stack pointer of `syscall_handler`: below the saved registers, and above the end of the 8 KB
by the frame of an interrupt. -/
def SyscallLayout.OnStack (L : SyscallLayout) (sp : BitVec 64) : Prop :=
  L.kernelStack.toNat + 224 ≤ sp.toNat + 8192 ∧ sp.toNat + 64 ≤ L.kernelStack.toNat

instance (L : SyscallLayout) : DecidablePred L.OnStack :=
  fun _ => inferInstanceAs (Decidable (_ ∧ _))

namespace SyscallRun

/-- After `tss_init` and `syscall_init`, with all tasks in kernel code. -/
def init (L : SyscallLayout) (cpu : ℕ → Cpu) (mem : ByteMemory) : SyscallRun where
  machine := ⟨cpu 0, 0, L.cpuData, mem⟩
  place := .kernel
  current := 0
  saved t := (cpu t, .kernel)
  rsp0 := 0
  entry _ := ⟨cpu 0, 0, L.cpuData, mem⟩
  called := cpu

/-- The registers of a task and its place, wherever they are. -/
def context (s : SyscallRun) (t : ℕ) : Cpu × Place :=
  if t = s.current then (s.machine.cpu, s.place) else s.saved t

/-- The machine with the registers of a task. -/
def view (s : SyscallRun) (t : ℕ) : Machine := { s.machine with cpu := (s.context t).1 }

/-- The end of `cmd_usertest`: `tss_set_kernel_stack` and `syscall_set_kernel_stack`, which get the
same stack, and `jump_to_usermode`. -/
def enter (L : SyscallLayout) (userStack userRip : BitVec 64) (s : SyscallRun) : SyscallRun :=
  { s with
    machine :=
      { s.machine with
        cpu := jumpToUsermode userStack userRip s.machine.cpu
        mem := s.machine.mem.write L.cpuData L.kernelStack }
    place := .user
    rsp0 := L.kernelStack }

/-- Code of the current task runs, and what it leaves behind. -/
def run (cpu : Cpu) (mem : ByteMemory) (s : SyscallRun) : SyscallRun :=
  { s with machine := { s.machine with cpu := cpu, mem := mem } }

/-- The instruction `syscall`. -/
def syscall (s : SyscallRun) : SyscallRun :=
  { s with
    machine := s.machine.syscall
    place := .head 0
    entry := Function.update s.entry s.current s.machine }

/-- `syscall_handler` returns. -/
def ret (cpu : Cpu) (mem : ByteMemory) (s : SyscallRun) : SyscallRun :=
  { s.run cpu mem with place := .tail 0 }

/-- The next instruction of `syscall_entry`, with the call of the handler behind the head. -/
def step (s : SyscallRun) : Option SyscallRun :=
  match s.place with
  | .head i =>
      match syscallHead[i]? with
      | some instr => some { s with machine := s.machine.step instr, place := .head (i + 1) }
      | none =>
          some
            { s with
              place := .handler
              called := Function.update s.called s.current s.machine.cpu }
  | .tail i =>
      match syscallTail[i]? with
      | some instr =>
          some
            { s with
              machine := s.machine.step instr
              place := if i + 1 = syscallTail.length then .user else .tail (i + 1) }
      | none => none
  | _ => none

/-- The stack of an interrupt: in ring 3 that of the task state segment, else the one in use,
rounded down to 16. -/
def interruptTop (s : SyscallRun) : BitVec 64 :=
  (if s.place = .user then s.rsp0 else s.machine.cpu.gpr .rsp) &&& ~~~(0xF : BitVec 64)

/-- The memory with the frame that the processor and the stub of a line push. -/
def pushed (s : SyscallRun) (line : ℕ) : ByteMemory :=
  (irqEnter line s.interruptTop s.machine).mem

/-- The frame of a task that was interrupted in ring 3. All of them lie at the top of the one stack
of the task state segment. -/
def userFrame (s : SyscallRun) (mem : ByteMemory) : Registers :=
  readFrame mem ((s.rsp0 &&& ~~~(0xF : BitVec 64)) - 208)

/-- The registers and the place a task goes on with. A switch exchanges them, but in ring 3 those of
the frame are loaded, whoever has overwritten it: its code segment is still that of ring 3, or it is
the kernel's, or `iretq` faults. -/
def resumed (s : SyscallRun) (mem : ByteMemory) (t : ℕ) : Option (Cpu × Place) :=
  if (s.context t).2 ≠ .user then some (s.context t)
  else if (s.userFrame mem).cs.setWidth 16 = 0x23 then some ((s.userFrame mem).cpu, .user)
  else if (s.userFrame mem).cs.setWidth 16 = 0x08 then some ((s.userFrame mem).cpu, .kernel)
  else none

/-- An interrupt that returns to a task, the interrupted one or another. -/
def interrupt (s : SyscallRun) (mem : ByteMemory) (t : ℕ) : Option SyscallRun :=
  (s.resumed mem t).map fun c =>
    { s with
      machine := { s.machine with cpu := c.1, mem := mem }
      place := c.2
      current := t
      saved := Function.update s.saved s.current (s.machine.cpu, s.place) }

end SyscallRun

/-- Any interleaving. `irq_handler` leaves the saved registers and `cpu_data` as it finds them; the
stack of a task in kernel code is its own. -/
def syscallMachine (L : SyscallLayout) : EventMachine SyscallRun SyscallEvent where
  admissible s
    | .enter _ _ => s.place = .kernel
    | .run cpu mem => LeavesAlone L s.machine.mem mem
        ∧ (s.place.InSyscall → s.place = .handler ∧ L.OnStack (cpu.gpr .rsp))
    | .syscall => s.place = .user
    | .step => True
    | .ret cpu mem => s.place = .handler
        ∧ HandlerOk L (s.called s.current) s.machine.mem cpu mem
    | .interrupt line mem _ => s.machine.cpu.rflags &&& interruptFlag ≠ 0
        ∧ LeavesAlone L (s.pushed line) mem
        ∧ (s.place = .kernel → LeavesAlone L s.machine.mem (s.pushed line))
  step s
    | .enter userStack userRip => some (s.enter L userStack userRip)
    | .run cpu mem => some (s.run cpu mem)
    | .syscall => some s.syscall
    | .step => s.step
    | .ret cpu mem => some (s.ret cpu mem)
    | .interrupt _ mem t => s.interrupt mem t

instance (L : SyscallLayout) (s : SyscallRun) :
    (e : SyscallEvent) → Decidable ((syscallMachine L).admissible s e)
  | .enter _ _ => inferInstanceAs (Decidable (_ = _))
  | .run _ _ => inferInstanceAs (Decidable (_ ∧ (_ → _)))
  | .syscall => inferInstanceAs (Decidable (_ = _))
  | .step => inferInstanceAs (Decidable True)
  | .ret _ _ => inferInstanceAs (Decidable (_ ∧ _))
  | .interrupt _ _ _ => inferInstanceAs (Decidable (_ ∧ _ ∧ (_ → _)))

/-- The condition: where a system call begins, or ring 3 is interrupted, no other task is in a
system call; and no frame of ring 3 leads to ring 0. -/
def Alone (s : SyscallRun) : SyscallEvent → Prop
  | .syscall => ∀ t, t ≠ s.current → ¬ (s.saved t).2.InSyscall
  | .interrupt _ mem t => (s.place = .user → ∀ v, v ≠ s.current → ¬ (s.saved v).2.InSyscall)
      ∧ ((s.context t).2 = .user → (s.userFrame mem).cs.setWidth 16 ≠ 0x08)
  | _ => True

/-- The next instruction, if it is `sysret`, returns to where the task made its system call. -/
def SysretOk (s : SyscallRun) : Prop :=
  ∀ i u, s.place = .tail i → syscallTail[i]? = some .sysret → s.step = some u →
    Returned (s.entry s.current) u.machine

/-! ### The code cannot be interrupted -/

/-- A prefix of a piece of code and the next instruction. -/
lemma Machine.exec_take_succ {is : List Instr} {i : ℕ} {instr : Instr} (h : is[i]? = some instr)
    (s : Machine) : exec (is.take (i + 1)) s = (exec (is.take i) s).step instr := by
  rw [List.take_add_one, h, exec_append]
  rfl

lemma and_not_sfmask (x : BitVec 64) : x &&& ~~~sfmask &&& interruptFlag = 0 := by
  rw [BitVec.and_assoc, show ~~~sfmask &&& interruptFlag = 0 by decide]
  exact BitVec.and_zero

lemma and_not_interruptFlag (x : BitVec 64) : x &&& ~~~interruptFlag &&& interruptFlag = 0 := by
  rw [BitVec.and_assoc, show ~~~interruptFlag &&& interruptFlag = 0 by decide]
  exact BitVec.and_zero

/-- The head enables interrupts with its last instruction. -/
lemma head_masked (e : Machine) {i : ℕ} (hi : i < syscallHead.length) :
    (Machine.exec (syscallHead.take i) e.syscall).cpu.rflags &&& interruptFlag = 0 := by
  have hflags : (Machine.exec (syscallHead.take i) e.syscall).cpu.rflags
      = e.cpu.rflags &&& ~~~sfmask := by
    have hi' : i < 16 := hi
    interval_cases i <;> rfl
  rw [hflags, and_not_sfmask]

/-- The tail disables them with its first one. -/
lemma tail_masked (s : Machine) {i : ℕ} (hpos : 0 < i) (hi : i < syscallTail.length) :
    (Machine.exec (syscallTail.take i) s).cpu.rflags &&& interruptFlag = 0 := by
  have hflags : (Machine.exec (syscallTail.take i) s).cpu.rflags
      = s.cpu.rflags &&& ~~~interruptFlag := by
    have hi' : i < 12 := hi
    interval_cases i <;> rfl
  rw [hflags, and_not_interruptFlag]

/-! ### The invariant -/

/-- What holds of a task in a system call where it may lose the processor: `e` is the state of its
`syscall`, `c` the registers its handler was called with, `s` the machine with its registers. -/
def Parked (L : SyscallLayout) (e : Machine) (c : Cpu) (s : Machine) : Place → Prop
  | .head i => i = syscallHead.length ∧ Suspended L e s
  | .handler => Kept L e s ∧ HandlerCall L e c ∧ L.OnStack (s.cpu.gpr .rsp)
  | .tail i => i = 0 ∧ Suspended L e s
  | _ => False

/-- What holds of it where interrupts are disabled. -/
def Masked (L : SyscallLayout) (e s : Machine) : Place → Prop
  | .head i => i < syscallHead.length ∧ SyscallReady L e
      ∧ s = Machine.exec (syscallHead.take i) e.syscall
  | .tail i => 0 < i ∧ i < syscallTail.length
      ∧ ∃ t, Suspended L e t ∧ s = Machine.exec (syscallTail.take i) t
  | _ => False

/-- The invariant of a run that keeps to the condition. -/
structure SyscallRun.Inv (L : SyscallLayout) (s : SyscallRun) : Prop where
  /-- At most one task is in a system call. -/
  alone : ∀ t u, (s.context t).2.InSyscall → (s.context u).2.InSyscall → t = u
  /-- Else the bases of GS are those of ring 3, and a task that is there has set the stack. -/
  idle : (∀ t, ¬ (s.context t).2.InSyscall) →
    s.machine.gsBase = 0 ∧ s.machine.kernelGsBase = L.cpuData
      ∧ ∀ t, (s.context t).2 ≠ .kernel → s.machine.mem.read L.cpuData = L.kernelStack
  /-- It has set that of the task state segment too. -/
  rsp0 : ∀ t, (s.context t).2 ≠ .kernel → s.rsp0 = L.kernelStack
  /-- A task in a system call has lost the processor where it may, or it is the current one. -/
  busy : ∀ t, (s.context t).2.InSyscall →
    Parked L (s.entry t) (s.called t) (s.view t) (s.context t).2
      ∨ t = s.current ∧ Masked L (s.entry t) (s.view t) (s.context t).2

namespace SyscallLayout

variable (L : SyscallLayout)

/-- The addresses of `cpu_data` and of the saved registers. -/
lemma toNat_data {k : ℕ} (hk : k < 24) :
    (L.cpuData + BitVec.ofNat 64 k).toNat = L.cpuData.toNat + k := by
  have hdata := L.data_le
  rw [BitVec.toNat_add, BitVec.toNat_ofNat]
  omega

lemma toNat_saved : (L.kernelStack - 64).toNat = L.kernelStack.toNat - 64 := by
  have hge := L.stack_ge
  have hlt := L.kernelStack.isLt
  have h64 : (64 : BitVec 64).toNat = 64 := rfl
  rw [BitVec.toNat_sub, h64]
  omega

lemma toNat_saved_add {k : ℕ} (hk : k < 64) :
    (L.kernelStack - 64 + BitVec.ofNat 64 k).toNat = L.kernelStack.toNat - 64 + k := by
  have hge := L.stack_ge
  have hlt := L.kernelStack.isLt
  rw [BitVec.toNat_add, L.toNat_saved, BitVec.toNat_ofNat]
  omega

lemma onStack_saved : L.OnStack (L.kernelStack - 64) := by
  have hge := L.stack_ge
  rw [OnStack, L.toNat_saved]
  omega

end SyscallLayout

/-! ### Frames of interrupts -/

/-- A stack pointer rounded down to 16. -/
lemma toNat_roundDown (sp : BitVec 64) :
    (sp &&& ~~~(0xF : BitVec 64)).toNat = sp.toNat / 16 * 16 := BitVec.toNat_alignDown (k := 4)

/-- An interrupt of the handler leaves what the tail needs alone. -/
lemma SyscallLayout.OnStack.leavesAlone {L : SyscallLayout} {sp : BitVec 64} (h : L.OnStack sp)
    (m : ByteMemory) (line : ℕ) (c : Cpu) :
    LeavesAlone L m (Stack.pushAll ⟨m, sp &&& ~~~0xF⟩ (irqWords line c)).mem := by
  obtain ⟨hlow, hhigh⟩ := h
  have hround := toNat_roundDown sp
  have hdata := L.data_le
  have hge := L.stack_ge
  refine ⟨fun k hk => irqWords_outside line c (by omega) (Or.inl ?_),
    fun k hk => irqWords_outside line c (by omega) ?_⟩
  · rw [L.toNat_saved_add hk]
    omega
  · rw [L.toNat_data hk]
    rcases L.apart with hapart | hapart <;> omega

/-- An interrupt in ring 3 leaves `cpu_data` alone. -/
lemma SyscallLayout.pushed_data (L : SyscallLayout) (m : ByteMemory) (line : ℕ) (c : Cpu) {k : ℕ}
    (hk : k < 24) : (Stack.pushAll ⟨m, L.kernelStack &&& ~~~0xF⟩ (irqWords line c)).mem
      (L.cpuData + BitVec.ofNat 64 k) = m (L.cpuData + BitVec.ofNat 64 k) := by
  have hge := L.stack_ge
  have hround := toNat_roundDown L.kernelStack
  refine irqWords_outside line c (by omega) ?_
  rw [L.toNat_data hk]
  rcases L.apart with hapart | hapart <;> omega

/-! ### What a parked task keeps -/

lemma LeavesAlone.trans {L : SyscallLayout} {m m' m'' : ByteMemory} (h : LeavesAlone L m m')
    (h' : LeavesAlone L m' m'') : LeavesAlone L m m'' :=
  ⟨fun k hk => (h'.stack k hk).trans (h.stack k hk),
    fun k hk => (h'.data k hk).trans (h.data k hk)⟩

section

variable {L : SyscallLayout} {e s u : Machine} {c : Cpu} {place : Place}

/-- What lies in memory is kept, whoever runs. -/
lemma Kept.congr (h : Kept L e s)
    (hwords : ∀ i < 8, u.mem.read (L.kernelStack - 64 + BitVec.ofNat 64 (8 * i))
      = s.mem.read (L.kernelStack - 64 + BitVec.ofNat 64 (8 * i)))
    (huser : u.mem.read (L.cpuData + 8) = s.mem.read (L.cpuData + 8))
    (hstack : u.mem.read L.cpuData = L.kernelStack)
    (hgs : u.gsBase = s.gsBase) (hkernelGs : u.kernelGsBase = s.kernelGsBase) : Kept L e u where
  words i hi := (hwords i hi).trans (h.words i hi)
  userStack := huser.trans h.userStack
  kernelStack := hstack
  gsBase := hgs.trans h.gsBase
  kernelGsBase := hkernelGs.trans h.kernelGsBase
  before := h.before

/-- Setting the kernel stack anew disturbs no handler. -/
lemma Kept.write (h : Kept L e s) (hmem : u.mem = s.mem.write L.cpuData L.kernelStack)
    (hgs : u.gsBase = s.gsBase) (hkernelGs : u.kernelGsBase = s.kernelGsBase) : Kept L e u := by
  refine h.congr (fun i hi => ?_) ?_ ?_ hgs hkernelGs <;> rw [hmem]
  · have hapart := L.apart_stack hi (d := 0) (by decide)
    rw [show L.cpuData + BitVec.ofNat 64 0 = L.cpuData from add_zero _] at hapart
    exact ByteMemory.read_write_of_apart hapart
  · exact ByteMemory.read_write_of_apart (apart_add_eight _)
  · exact ByteMemory.read_write_self

/-- Nor does code that leaves its registers alone. -/
lemma Kept.leavesAlone (h : Kept L e s) (hmem : LeavesAlone L s.mem u.mem)
    (hgs : u.gsBase = s.gsBase) (hkernelGs : u.kernelGsBase = s.kernelGsBase) : Kept L e u := by
  refine h.congr (fun i hi => ?_) ?_ ?_ hgs hkernelGs
  · refine ByteMemory.read_congr fun k hk => ?_
    have hbyte := hmem.stack (8 * i + k) (by omega)
    rw [BitVec.ofNat_add, ← add_assoc] at hbyte
    exact hbyte
  · refine ByteMemory.read_congr fun k hk => ?_
    have hbyte := hmem.data (8 + k) (by omega)
    rw [BitVec.ofNat_add, ← add_assoc] at hbyte
    exact hbyte
  · exact (ByteMemory.read_congr fun k hk => hmem.data k (by omega)).trans h.kernelStack

lemma Parked.kept (h : Parked L e c s place) : Kept L e s := by
  cases place with
  | head i => exact h.2.toKept
  | handler => exact h.1
  | tail i => exact h.2.toKept
  | kernel | user => exact absurd h id

/-- The stack pointer of a parked task. -/
lemma Parked.onStack (h : Parked L e c s place) : L.OnStack (s.cpu.gpr .rsp) := by
  cases place with
  | head i => exact h.2.rsp ▸ L.onStack_saved
  | handler => exact h.2.2
  | tail i => exact h.2.rsp ▸ L.onStack_saved
  | kernel | user => exact absurd h id

/-- A parked task stays so while others run. -/
lemma Parked.congr (h : Parked L e c s place) (hcpu : u.cpu = s.cpu) (hkept : Kept L e u) :
    Parked L e c u place := by
  cases place with
  | head i => exact ⟨h.1, ⟨hkept, hcpu ▸ h.2.toHandlerCall⟩⟩
  | handler => exact ⟨hkept, h.2.1, hcpu ▸ h.2.2⟩
  | tail i => exact ⟨h.1, ⟨hkept, hcpu ▸ h.2.toHandlerCall⟩⟩
  | kernel | user => exact absurd h id

/-- A handler that keeps to its contract gives the registers back. -/
lemma Suspended.of_handlerOk (hkept : Kept L e s) (hcall : HandlerCall L e c) {cpu : Cpu}
    {mem : ByteMemory} (hok : HandlerOk L c s.mem cpu mem) :
    Suspended L e { s with cpu := cpu, mem := mem } where
  toKept := hkept.leavesAlone ⟨hcall.rsp ▸ hok.stack, hok.data⟩ rfl rfl
  gpr r hr hne := (hok.saved r hr).trans (hcall.gpr r hr hne)
  rsp := (hok.saved .rsp (by decide)).trans hcall.rsp

/-- Where interrupts are enabled the code is not masked. -/
lemma Masked.not_enabled (h : Masked L e s place) : s.cpu.rflags &&& interruptFlag = 0 := by
  cases place with
  | head i =>
      obtain ⟨hi, -, rfl⟩ := h
      exact head_masked _ hi
  | tail i =>
      obtain ⟨hpos, hi, t, -, rfl⟩ := h
      exact tail_masked t hpos hi
  | kernel | user | handler => exact absurd h id

end

namespace SyscallRun

variable {L : SyscallLayout} {s u : SyscallRun} {t : ℕ}

lemma context_current (s : SyscallRun) : s.context s.current = (s.machine.cpu, s.place) :=
  if_pos rfl

lemma context_other (h : t ≠ s.current) : s.context t = s.saved t := if_neg h

lemma view_current (s : SyscallRun) : s.view s.current = s.machine := by
  rw [view, context_current]

/-- **An interrupt** takes a task up where it was, and outside of ring 3 with its registers. -/
lemma interrupt_cases {mem : ByteMemory}
    (hring : (s.context t).2 = .user → (s.userFrame mem).cs.setWidth 16 ≠ 0x08)
    (hst : s.interrupt mem t = some u) :
    ∃ cpu, ((s.context t).2 ≠ .user → cpu = (s.context t).1)
      ∧ u = { s with
              machine := { s.machine with cpu := cpu, mem := mem }
              place := (s.context t).2
              current := t
              saved := Function.update s.saved s.current (s.machine.cpu, s.place) } := by
  obtain ⟨c, hc, rfl⟩ := Option.map_eq_some_iff.mp hst
  refine ⟨c.1, fun hne => ?_, ?_⟩
  · rw [resumed, if_pos hne] at hc
    exact congrArg Prod.fst (Option.some.inj hc).symm
  · have hplace : c.2 = (s.context t).2 := by
      by_cases huser : (s.context t).2 = .user
      · rw [resumed, if_neg (not_not_intro huser), if_neg (hring huser)] at hc
        split at hc
        · exact (congrArg Prod.snd (Option.some.inj hc)).symm.trans huser.symm
        · cases hc
      · rw [resumed, if_pos huser] at hc
        exact congrArg Prod.snd (Option.some.inj hc).symm
    rw [hplace]

/-- So it leaves the place of every task alone, and outside of ring 3 its registers. -/
lemma context_interrupt {mem : ByteMemory}
    (hring : (s.context t).2 = .user → (s.userFrame mem).cs.setWidth 16 ≠ 0x08)
    (hst : s.interrupt mem t = some u) (v : ℕ) :
    (u.context v).2 = (s.context v).2
      ∧ ((s.context v).2 ≠ .user → (u.context v).1 = (s.context v).1) := by
  obtain ⟨cpu, hcpu, rfl⟩ := interrupt_cases hring hst
  by_cases hv : v = t
  · subst hv
    rw [context, if_pos rfl]
    exact ⟨rfl, hcpu⟩
  · rw [context, if_neg hv]
    by_cases hc : v = s.current
    · dsimp only
      rw [hc, context_current, Function.update_self]
      exact ⟨rfl, fun _ => rfl⟩
    · dsimp only
      rw [context_other hc, Function.update_of_ne hc]
      exact ⟨rfl, fun _ => rfl⟩

lemma view_interrupt {mem : ByteMemory}
    (hring : (s.context t).2 = .user → (s.userFrame mem).cs.setWidth 16 ≠ 0x08)
    (hst : s.interrupt mem t = some u) {v : ℕ} (hv : (s.context v).2.InSyscall) :
    u.view v = { s.view v with mem := mem } := by
  have hne : (s.context v).2 ≠ .user := by
    intro huser
    rw [huser] at hv
    exact hv
  rw [view, (context_interrupt hring hst v).2 hne]
  obtain ⟨cpu, -, rfl⟩ := interrupt_cases hring hst
  rfl

/-- The other tasks, where only the current one does something. -/
lemma context_eq (hcurrent : u.current = s.current) (hsaved : u.saved = s.saved)
    (ht : t ≠ s.current) : u.context t = s.context t := by
  rw [context_other ht, context_other (hcurrent ▸ ht), hsaved]

/-- The places of the tasks depend on that of the current one and on what is saved. -/
lemma place_eq (hcurrent : s.current = u.current) (hsaved : s.saved = u.saved)
    (hplace : s.place = u.place) (t : ℕ) : (s.context t).2 = (u.context t).2 := by
  by_cases hc : t = u.current
  · rw [hc, context_current, ← hcurrent, context_current]
    exact hplace
  · rw [context_other hc, context_other (hcurrent ▸ hc), hsaved]

namespace Inv

/-- Another task in a system call is parked. -/
lemma parked_of_ne (h : s.Inv L) (ht : (s.context t).2.InSyscall) (hne : t ≠ s.current) :
    Parked L (s.entry t) (s.called t) (s.view t) (s.context t).2 :=
  (h.busy t ht).resolve_right fun hmasked => hne hmasked.1

/-- What holds of the current task in its system call. -/
lemma busy_current (h : s.Inv L) (hin : s.place.InSyscall) :
    Parked L (s.entry s.current) (s.called s.current) s.machine s.place
      ∨ Masked L (s.entry s.current) s.machine s.place := by
  have hbusy := h.busy s.current (by rwa [context_current])
  rw [context_current, view_current] at hbusy
  exact hbusy.imp_right And.right

/-- Where interrupts are enabled it is parked too. -/
lemma parked_current (h : s.Inv L) (hin : s.place.InSyscall)
    (hmask : s.machine.cpu.rflags &&& interruptFlag ≠ 0) :
    Parked L (s.entry s.current) (s.called s.current) s.machine s.place :=
  (h.busy_current hin).resolve_right fun hmasked => hmask hmasked.not_enabled

lemma init (L : SyscallLayout) (cpu : ℕ → Cpu) (mem : ByteMemory) :
    (SyscallRun.init L cpu mem).Inv L := by
  have hplace : ∀ t, ((SyscallRun.init L cpu mem).context t).2 = .kernel := by
    intro t
    by_cases ht : t = 0
    · rw [ht]
      rfl
    · rw [context_other ht]
      rfl
  have hnone : ∀ t, ¬ ((SyscallRun.init L cpu mem).context t).2.InSyscall := by
    intro t ht
    rw [hplace] at ht
    exact ht
  exact ⟨fun t _ ht => absurd ht (hnone t),
    fun _ => ⟨rfl, rfl, fun t ht => absurd (hplace t) ht⟩, fun t ht => absurd (hplace t) ht,
    fun t ht => absurd ht (hnone t)⟩

/-- An event of the current task, with what it does to itself and to a parked task. -/
lemma of_current (h : s.Inv L) (hcurrent : u.current = s.current) (hsaved : u.saved = s.saved)
    (hentry : ∀ t ≠ s.current, u.entry t = s.entry t ∧ u.called t = s.called t)
    (hother : ∀ t ≠ s.current, (s.context t).2.InSyscall →
      Kept L (s.entry t) (s.view t) → Kept L (s.entry t) (u.view t))
    (halone : u.place.InSyscall → ∀ t ≠ s.current, ¬ (s.context t).2.InSyscall)
    (hidle : ¬ u.place.InSyscall → (∀ t ≠ s.current, ¬ (s.context t).2.InSyscall) →
      u.machine.gsBase = 0 ∧ u.machine.kernelGsBase = L.cpuData
        ∧ ∀ t, (u.context t).2 ≠ .kernel → u.machine.mem.read L.cpuData = L.kernelStack)
    (hrsp0 : u.rsp0 = L.kernelStack ∨ u.rsp0 = s.rsp0 ∧ (u.place ≠ .kernel → s.place ≠ .kernel))
    (hbusy : u.place.InSyscall →
      Parked L (u.entry s.current) (u.called s.current) u.machine u.place
        ∨ Masked L (u.entry s.current) u.machine u.place) :
    u.Inv L := by
  have hsame : ∀ t ≠ s.current, u.context t = s.context t :=
    fun t ht => context_eq hcurrent hsaved ht
  have hself : (u.context s.current).2 = u.place := by rw [← hcurrent, context_current]
  refine ⟨fun t t' ht ht' => ?_, fun hnone => ?_, fun t ht => ?_, fun t ht => ?_⟩
  · by_cases hc : t = s.current
    · by_cases hc' : t' = s.current
      · rw [hc, hc']
      · rw [hc, hself] at ht
        rw [hsame t' hc'] at ht'
        exact absurd ht' (halone ht t' hc')
    · rw [hsame t hc] at ht
      by_cases hc' : t' = s.current
      · rw [hc', hself] at ht'
        exact absurd ht (halone ht' t hc)
      · rw [hsame t' hc'] at ht'
        exact h.alone t t' ht ht'
  · refine hidle (hself ▸ hnone s.current) fun t ht => ?_
    rw [← hsame t ht]
    exact hnone t
  · rcases hrsp0 with hset | ⟨hsame', hplace⟩
    · exact hset
    · rw [hsame']
      by_cases hc : t = s.current
      · rw [hc, hself] at ht
        exact h.rsp0 s.current (by rw [context_current]; exact hplace ht)
      · rw [hsame t hc] at ht
        exact h.rsp0 t ht
  · by_cases hc : t = s.current
    · subst hc
      rw [hself] at ht ⊢
      have hview : u.view s.current = u.machine := by rw [← hcurrent, view_current]
      rw [hview]
      exact (hbusy ht).imp_right fun hmasked => ⟨hcurrent.symm, hmasked⟩
    · have hctx := hsame t hc
      rw [hctx] at ht ⊢
      rw [(hentry t hc).1, (hentry t hc).2]
      have hparked := h.parked_of_ne ht hc
      refine Or.inl (hparked.congr ?_ (hother t hc ht hparked.kept))
      rw [view, view, hctx]

/-- Where the current task is in none, nobody may be in a system call. -/
lemma idle_of_others (h : s.Inv L) (hplace : ¬ s.place.InSyscall)
    (hothers : ∀ t ≠ s.current, ¬ (s.context t).2.InSyscall) :
    s.machine.gsBase = 0 ∧ s.machine.kernelGsBase = L.cpuData
      ∧ ∀ t, (s.context t).2 ≠ .kernel → s.machine.mem.read L.cpuData = L.kernelStack := by
  refine h.idle fun t => ?_
  by_cases hc : t = s.current
  · rw [hc, context_current]
    exact hplace
  · exact hothers t hc

/-- In a system call of the current task nobody else is in one. -/
lemma others (h : s.Inv L) (hin : s.place.InSyscall) :
    ∀ t ≠ s.current, ¬ (s.context t).2.InSyscall := by
  intro t ht hin'
  refine ht (h.alone t s.current hin' ?_)
  rwa [context_current]

/-- The condition speaks of the saved places. -/
lemma others_of_saved (h : ∀ t, t ≠ s.current → ¬ (s.saved t).2.InSyscall) :
    ∀ t ≠ s.current, ¬ (s.context t).2.InSyscall := by
  intro t ht
  rw [context_other ht]
  exact h t ht

/-- `jump_to_usermode`. -/
lemma enter (h : s.Inv L) (hplace : s.place = .kernel) (userStack userRip : BitVec 64) :
    (s.enter L userStack userRip).Inv L := by
  have hnone : ¬ (s.enter L userStack userRip).place.InSyscall := id
  refine h.of_current rfl rfl (fun _ _ => ⟨rfl, rfl⟩) (fun t ht _ hs => hs.write rfl rfl rfl)
    (fun hin => absurd hin hnone) (fun _ hothers => ?_) (Or.inl rfl) (fun hin => absurd hin hnone)
  obtain ⟨hgs, hkernelGs, -⟩ := h.idle_of_others (hplace ▸ id) hothers
  exact ⟨hgs, hkernelGs, fun _ _ => ByteMemory.read_write_self⟩

/-- Code that leaves `cpu_data` alone leaves the stack of system calls set. -/
lemma idle_of_data {mem : ByteMemory} (hidle : s.machine.gsBase = 0
      ∧ s.machine.kernelGsBase = L.cpuData
      ∧ ∀ t, (s.context t).2 ≠ .kernel → s.machine.mem.read L.cpuData = L.kernelStack)
    (hdata : ∀ k < 24, mem (L.cpuData + BitVec.ofNat 64 k)
      = s.machine.mem (L.cpuData + BitVec.ofNat 64 k)) :
    ∀ t, (s.context t).2 ≠ .kernel → mem.read L.cpuData = L.kernelStack := by
  intro t ht
  have hword : mem.read L.cpuData = s.machine.mem.read L.cpuData :=
    ByteMemory.read_congr fun k hk => hdata k (by omega)
  exact hword.trans (hidle.2.2 t ht)

/-- A task runs, outside its system calls or in its handler. -/
lemma run (h : s.Inv L) {cpu : Cpu} {mem : ByteMemory} (hmem : LeavesAlone L s.machine.mem mem)
    (hin : s.place.InSyscall → s.place = .handler ∧ L.OnStack (cpu.gpr .rsp)) :
    (s.run cpu mem).Inv L := by
  refine h.of_current rfl rfl (fun _ _ => ⟨rfl, rfl⟩)
    (fun t ht _ hs => hs.leavesAlone hmem rfl rfl) (fun hcall => h.others hcall)
    (fun hnone hothers => ?_) (Or.inr ⟨rfl, id⟩) fun hcall => Or.inl ?_
  · have hidle := h.idle_of_others hnone hothers
    refine ⟨hidle.1, hidle.2.1, fun t ht => idle_of_data hidle hmem.data t ?_⟩
    have hplace : ((s.run cpu mem).context t).2 = (s.context t).2 :=
      place_eq (u := s) (s := s.run cpu mem) rfl rfl rfl t
    exact hplace ▸ ht
  · obtain ⟨hplace, hsp⟩ := hin hcall
    have hbusy := h.busy_current hcall
    have hplace' : (s.run cpu mem).place = .handler := hplace
    rw [hplace] at hbusy
    rw [hplace']
    obtain ⟨hkept, hcalled, -⟩ := hbusy.resolve_right id
    exact ⟨hkept.leavesAlone hmem rfl rfl, hcalled, hsp⟩

/-- **A system call begins**, alone. -/
lemma syscall (h : s.Inv L) (hplace : s.place = .user) (halone : Alone s .syscall) :
    s.syscall.Inv L := by
  have hothers := others_of_saved halone
  obtain ⟨hgs, hkernelGs, hstack⟩ := h.idle_of_others (hplace ▸ id) hothers
  have huser : s.place ≠ .kernel := by
    rw [hplace]
    exact fun hk => by cases hk
  have hready : SyscallReady L s.machine :=
    ⟨hstack s.current (by rw [context_current]; exact huser), hgs, hkernelGs⟩
  have hentry : s.syscall.entry s.current = s.machine := Function.update_self ..
  refine h.of_current rfl rfl (fun t ht => ⟨Function.update_of_ne ht .., rfl⟩)
    (fun t ht hin => absurd hin (hothers t ht)) (fun _ => hothers) (fun hn => absurd trivial hn)
    (Or.inr ⟨rfl, fun _ => huser⟩) fun _ => Or.inr ⟨by decide, ?_, ?_⟩
  · rw [hentry]
    exact hready
  · rw [hentry]
    rfl

/-- The current task goes on in its system call. -/
lemma continues (h : s.Inv L) (hin : s.place.InSyscall) {m : Machine} {place : Place}
    {called : ℕ → Cpu} (hcalled : ∀ t ≠ s.current, called t = s.called t)
    (hcall : Parked L (s.entry s.current) (called s.current) m place
      ∨ Masked L (s.entry s.current) m place) (hplace : place.InSyscall) :
    Inv L { s with machine := m, place := place, called := called } := by
  refine h.of_current rfl rfl (fun t ht => ⟨rfl, hcalled t ht⟩)
    (fun t ht hin' _ => absurd hin' (h.others hin t ht)) (fun _ => h.others hin)
    (fun hn => absurd hplace hn) (Or.inr ⟨rfl, fun _ hk => ?_⟩) fun _ => hcall
  rw [hk] at hin
  exact hin

/-- The current task returns to ring 3. -/
lemma returns (h : s.Inv L) (hin : s.place.InSyscall) {m : Machine}
    (hgs : m.gsBase = 0 ∧ m.kernelGsBase = L.cpuData)
    (hstack : m.mem.read L.cpuData = L.kernelStack) :
    Inv L { s with machine := m, place := .user } := by
  refine h.of_current rfl rfl (fun _ _ => ⟨rfl, rfl⟩)
    (fun t ht hin' _ => absurd hin' (h.others hin t ht)) (fun hu => absurd hu id)
    (fun _ _ => ⟨hgs.1, hgs.2, fun _ _ => hstack⟩) (Or.inr ⟨rfl, fun _ hk => ?_⟩)
    fun hu => absurd hu id
  rw [hk] at hin
  exact hin

/-- **An instruction of the head.** -/
lemma step_head (h : s.Inv L) {i : ℕ} (hplace : s.place = .head i) (hst : s.step = some u) :
    u.Inv L := by
  have hin : s.place.InSyscall := hplace ▸ trivial
  have hbusy := h.busy_current hin
  rw [hplace] at hbusy
  rw [SyscallRun.step, hplace] at hst
  dsimp only at hst
  rcases hbusy with ⟨hi, hs⟩ | ⟨hi, hready, hmachine⟩
  · rw [List.getElem?_eq_none hi.ge] at hst
    obtain rfl := Option.some.inj hst
    refine h.continues hin (fun t ht => Function.update_of_ne ht ..) (Or.inl ?_) trivial
    rw [Function.update_self]
    exact ⟨hs.toKept, hs.toHandlerCall, hs.rsp ▸ L.onStack_saved⟩
  · have hinstr := List.getElem?_eq_getElem hi
    rw [hinstr] at hst
    obtain rfl := Option.some.inj hst
    have hnext := Machine.exec_take_succ hinstr (s.entry s.current).syscall
    rw [← hmachine] at hnext
    refine h.continues hin (fun _ _ => rfl) ?_ trivial
    by_cases hlast : i + 1 < syscallHead.length
    · exact Or.inr ⟨hlast, hready, hnext.symm⟩
    · have hend : i + 1 = syscallHead.length := by omega
      rw [List.take_of_length_le hend.ge] at hnext
      exact Or.inl ⟨hend, hnext ▸ suspended_head hready⟩

/-- The state of the tail as a prefix of it. -/
lemma exists_tail (h : s.Inv L) {i : ℕ} (hplace : s.place = .tail i) :
    i < syscallTail.length ∧ ∃ t, Suspended L (s.entry s.current) t
      ∧ s.machine = Machine.exec (syscallTail.take i) t := by
  have hbusy := h.busy_current (hplace ▸ trivial)
  rw [hplace] at hbusy
  rcases hbusy with ⟨rfl, hs⟩ | ⟨-, hi, ht⟩
  · exact ⟨by decide, s.machine, hs, rfl⟩
  · exact ⟨hi, ht⟩

/-- What an instruction of the tail does. -/
lemma step_tail_eq (h : s.Inv L) {i : ℕ} (hplace : s.place = .tail i) (hst : s.step = some u) :
    ∃ t, Suspended L (s.entry s.current) t
      ∧ u = { s with
              machine := Machine.exec (syscallTail.take (i + 1)) t
              place := if i + 1 = syscallTail.length then .user else .tail (i + 1) } := by
  obtain ⟨hi, t, ht, hmachine⟩ := h.exists_tail hplace
  have hinstr := List.getElem?_eq_getElem hi
  rw [SyscallRun.step, hplace] at hst
  dsimp only at hst
  rw [hinstr] at hst
  refine ⟨t, ht, ?_⟩
  rw [Machine.exec_take_succ hinstr, ← hmachine]
  exact (Option.some.inj hst).symm

/-- **An instruction of the tail.** -/
lemma step_tail (h : s.Inv L) {i : ℕ} (hplace : s.place = .tail i) (hst : s.step = some u) :
    u.Inv L := by
  have hin : s.place.InSyscall := hplace ▸ trivial
  have hi := (h.exists_tail hplace).1
  obtain ⟨t, ht, rfl⟩ := h.step_tail_eq hplace hst
  by_cases hlast : i + 1 = syscallTail.length
  · rw [if_pos hlast, List.take_of_length_le hlast.ge]
    obtain ⟨hret, hmem⟩ := ht.returned
    refine h.returns hin ⟨hret.gsBase.trans ht.before.1, hret.kernelGsBase.trans ht.before.2⟩ ?_
    rw [hmem]
    exact ht.kernelStack
  · rw [if_neg hlast]
    exact h.continues hin (fun _ _ => rfl)
      (Or.inr ⟨Nat.succ_pos i, by omega, t, ht, rfl⟩) trivial

/-- The handler returns. -/
lemma ret (h : s.Inv L) (hplace : s.place = .handler) {cpu : Cpu} {mem : ByteMemory}
    (hok : HandlerOk L (s.called s.current) s.machine.mem cpu mem) : (s.ret cpu mem).Inv L := by
  have hin : s.place.InSyscall := hplace ▸ trivial
  have hbusy := h.busy_current hin
  rw [hplace] at hbusy
  obtain ⟨hkept, hcalled, -⟩ := hbusy.resolve_right id
  exact h.continues hin (fun _ _ => rfl) (Or.inl ⟨rfl, .of_handlerOk hkept hcalled hok⟩) trivial

section interrupt

variable {mem : ByteMemory} {line : ℕ}

/-- Outside of ring 3 the frame of an interrupt lies on another stack, or further down. -/
lemma pushed_leavesAlone (h : s.Inv L) (hmask : s.machine.cpu.rflags &&& interruptFlag ≠ 0)
    (hown : s.place = .kernel → LeavesAlone L s.machine.mem (s.pushed line))
    (huser : s.place ≠ .user) : LeavesAlone L s.machine.mem (s.pushed line) := by
  by_cases hkernel : s.place = .kernel
  · exact hown hkernel
  · have hin : s.place.InSyscall := by
      cases hplace : s.place with
      | kernel => exact absurd hplace hkernel
      | user => exact absurd hplace huser
      | head i | handler | tail i => trivial
    rw [pushed, irqEnter_mem, interruptTop, if_neg huser]
    exact (h.parked_current hin hmask).onStack.leavesAlone _ line _

/-- In ring 3 it lies on the kernel stack, away from `cpu_data`. -/
lemma pushed_data (h : s.Inv L) (huser : s.place = .user) {k : ℕ} (hk : k < 24) :
    s.pushed line (L.cpuData + BitVec.ofNat 64 k)
      = s.machine.mem (L.cpuData + BitVec.ofNat 64 k) := by
  have hrsp0 : s.rsp0 = L.kernelStack := by
    refine h.rsp0 s.current ?_
    rw [context_current, huser]
    exact fun hk => by cases hk
  rw [pushed, irqEnter_mem, interruptTop, if_pos huser, hrsp0]
  exact L.pushed_data _ line _ hk

/-- What an interrupt does to `cpu_data`: nothing. -/
lemma interrupt_data (h : s.Inv L) (hmask : s.machine.cpu.rflags &&& interruptFlag ≠ 0)
    (hleaves : LeavesAlone L (s.pushed line) mem)
    (hown : s.place = .kernel → LeavesAlone L s.machine.mem (s.pushed line)) :
    ∀ k < 24, mem (L.cpuData + BitVec.ofNat 64 k)
      = s.machine.mem (L.cpuData + BitVec.ofNat 64 k) := by
  intro k hk
  refine (hleaves.data k hk).trans ?_
  by_cases huser : s.place = .user
  · exact h.pushed_data huser hk
  · exact (h.pushed_leavesAlone hmask hown huser).data k hk

/-- What it does to the registers of a task in a system call: nothing, if it is not taken in ring 3
while another task is in one. -/
lemma interrupt_leavesAlone (h : s.Inv L) (hmask : s.machine.cpu.rflags &&& interruptFlag ≠ 0)
    (hleaves : LeavesAlone L (s.pushed line) mem)
    (hown : s.place = .kernel → LeavesAlone L s.machine.mem (s.pushed line))
    (halone : Alone s (.interrupt line mem t)) {v : ℕ} (hv : (s.context v).2.InSyscall) :
    LeavesAlone L s.machine.mem mem := by
  refine (h.pushed_leavesAlone hmask hown fun huser => ?_).trans hleaves
  have hne : v ≠ s.current := by
    rintro rfl
    rw [context_current, huser] at hv
    exact hv
  exact others_of_saved (halone.1 huser) v hne hv

/-- **An interrupt**, with a switch or without. -/
lemma interrupt (h : s.Inv L) (hmask : s.machine.cpu.rflags &&& interruptFlag ≠ 0)
    (hleaves : LeavesAlone L (s.pushed line) mem)
    (hown : s.place = .kernel → LeavesAlone L s.machine.mem (s.pushed line))
    (halone : Alone s (.interrupt line mem t)) (hst : s.interrupt mem t = some u) : u.Inv L := by
  have hplaces := fun v => (context_interrupt halone.2 hst v).1
  have hviews := fun v => view_interrupt halone.2 hst (v := v)
  obtain ⟨cpu, -, rfl⟩ := interrupt_cases halone.2 hst
  refine ⟨fun v v' => ?_, fun hnone => ?_, fun v hv => ?_, fun v hv => ?_⟩
  · rw [hplaces, hplaces]
    exact h.alone v v'
  · have hidle := h.idle fun v => hplaces v ▸ hnone v
    have hdata := h.interrupt_data hmask hleaves hown
    exact ⟨hidle.1, hidle.2.1, fun v hv => idle_of_data hidle hdata v (hplaces v ▸ hv)⟩
  · exact h.rsp0 v (hplaces v ▸ hv)
  · rw [hplaces] at hv ⊢
    rw [hviews v hv]
    have hparked : Parked L (s.entry v) (s.called v) (s.view v) (s.context v).2 := by
      by_cases hc : v = s.current
      · subst hc
        rw [context_current] at hv ⊢
        rw [view_current]
        exact h.parked_current hv hmask
      · exact h.parked_of_ne hv hc
    have hmem := h.interrupt_leavesAlone hmask hleaves hown halone hv
    exact Or.inl (hparked.congr rfl (hparked.kept.leavesAlone hmem rfl rfl))

end interrupt

variable {ev : SyscallEvent}

lemma event (h : s.Inv L) (hadm : ((syscallMachine L).restrict Alone).admissible s ev)
    (hst : ((syscallMachine L).restrict Alone).step s ev = some u) : u.Inv L := by
  cases ev with
  | enter userStack userRip =>
      obtain rfl := Option.some.inj hst
      exact h.enter hadm.1 userStack userRip
  | run cpu mem =>
      obtain rfl := Option.some.inj hst
      exact h.run hadm.1.1 hadm.1.2
  | syscall =>
      obtain rfl := Option.some.inj hst
      exact h.syscall hadm.1 hadm.2
  | step =>
      have hst' : s.step = some u := hst
      cases hplace : s.place with
      | head i => exact h.step_head hplace hst'
      | tail i => exact h.step_tail hplace hst'
      | kernel => rw [SyscallRun.step, hplace] at hst'; cases hst'
      | user => rw [SyscallRun.step, hplace] at hst'; cases hst'
      | handler => rw [SyscallRun.step, hplace] at hst'; cases hst'
  | ret cpu mem =>
      obtain rfl := Option.some.inj hst
      exact h.ret hadm.1.1 hadm.1.2
  | interrupt line mem t =>
      obtain ⟨⟨hmask, hleaves, hown⟩, halone⟩ := hadm
      exact h.interrupt hmask hleaves hown halone hst

/-- **A `sysret`** returns to where the system call was made. -/
lemma sysretOk (h : s.Inv L) : SysretOk s := by
  intro i u hplace hinstr hst
  obtain ⟨t, ht, rfl⟩ := h.step_tail_eq hplace hst
  have hlast : syscallTail.take (i + 1) = syscallTail := by
    have hi : i < syscallTail.length := (List.getElem?_eq_some_iff.mp hinstr).1
    have hi' : i < 12 := hi
    interval_cases i <;> first | rfl | exact absurd hinstr (by decide)
  dsimp only
  rw [hlast]
  exact ht.returned.1

end Inv

end SyscallRun

/-- **System calls return** to where they were made, with the registers, the flags and the GS bases
of that moment, in every run in which, while a task is in one, no other task begins one or is
interrupted in ring 3, and in which no frame of ring 3 leads to ring 0. -/
theorem sysret_returns (L : SyscallLayout) (cpu : ℕ → Cpu) (mem : ByteMemory)
    {es : List SyscallEvent} {s : SyscallRun}
    (hrun : ((syscallMachine L).restrict Alone).Run (SyscallRun.init L cpu mem) es s) :
    SysretOk s :=
  (EventMachine.Run.invariant (SyscallRun.Inv.init L cpu mem)
    (fun _ _ _ ht hadm hst => ht.event hadm hst) hrun).sysretOk

/-! ### Runs of given tasks -/

section given

variable {L : SyscallLayout} {G : SyscallRun → SyscallEvent → Prop} {s u : SyscallRun} {n : ℕ}

/-- A number of instructions of `syscall_entry`. -/
def SyscallRun.steps (n : ℕ) (s : SyscallRun) : Option SyscallRun :=
  (fun o => o.bind SyscallRun.step)^[n] (some s)

/-- They are a run. -/
lemma run_steps (hG : ∀ t, G t .step) (h : s.steps n = some u) :
    ((syscallMachine L).restrict G).Run s (List.replicate n .step) u := by
  induction n generalizing u with
  | zero =>
      obtain rfl := Option.some.inj h
      exact .nil
  | succ n ih =>
      rw [SyscallRun.steps, Function.iterate_succ_apply'] at h
      obtain ⟨t, ht, hst⟩ := Option.bind_eq_some_iff.mp h
      rw [List.replicate_succ']
      exact .snoc (ih ht) ⟨trivial, hG t⟩ hst

/-- The current task executes `syscall` and comes to the handler. -/
def SyscallRun.toHandler (s : SyscallRun) : SyscallRun := (s.syscall.steps 17).getD s

lemma run_toHandler (hG : ∀ t, G t .step) (hsyscall : G s .syscall) (hplace : s.place = .user)
    (hsome : (s.syscall.steps 17).isSome = true) :
    ((syscallMachine L).restrict G).Run s (.syscall :: List.replicate 17 .step) s.toHandler := by
  refine .cons ⟨hplace, hsyscall⟩ rfl (run_steps hG ?_)
  rw [SyscallRun.toHandler, Option.getD_of_ne_none (Option.isSome_iff_ne_none.mp hsome)]

/-- A handler that does nothing returns, and a number of instructions of the tail follows. -/
def SyscallRun.fromHandler (n : ℕ) (s : SyscallRun) : SyscallRun :=
  ((s.ret (s.called s.current) s.machine.mem).steps n).getD s

lemma run_fromHandler (hG : ∀ t, G t .step) (hret : G s (.ret (s.called s.current) s.machine.mem))
    (hplace : s.place = .handler)
    (hsome : ((s.ret (s.called s.current) s.machine.mem).steps n).isSome = true) :
    ((syscallMachine L).restrict G).Run s
      (.ret (s.called s.current) s.machine.mem :: List.replicate n .step) (s.fromHandler n) := by
  refine .cons ⟨⟨hplace, fun _ _ => rfl, fun _ _ => rfl, fun _ _ => rfl⟩, hret⟩ rfl
    (run_steps hG ?_)
  rw [SyscallRun.fromHandler, Option.getD_of_ne_none (Option.isSome_iff_ne_none.mp hsome)]

/-- The timer interrupts, and `irq_handler` returns to a task. -/
def SyscallRun.preempt (t : ℕ) (s : SyscallRun) : SyscallRun :=
  (s.interrupt (s.pushed 0) t).getD s

lemma run_preempt {t : ℕ} (hG : G s (.interrupt 0 (s.pushed 0) t))
    (hmask : s.machine.cpu.rflags &&& interruptFlag ≠ 0)
    (hown : s.place = .kernel → LeavesAlone L s.machine.mem (s.pushed 0))
    (hsome : (s.interrupt (s.pushed 0) t).isSome = true) :
    ((syscallMachine L).restrict G).Run s [.interrupt 0 (s.pushed 0) t] (s.preempt t) := by
  refine .single ⟨⟨hmask, ⟨fun _ _ => rfl, fun _ _ => rfl⟩, hown⟩, hG⟩ ?_
  rw [SyscallRun.preempt, Option.getD_of_ne_none (Option.isSome_iff_ne_none.mp hsome)]
  rfl

lemma run_enter (userStack userRip : BitVec 64) (hG : G s (.enter userStack userRip))
    (hplace : s.place = .kernel) :
    ((syscallMachine L).restrict G).Run s [.enter userStack userRip]
      (s.enter L userStack userRip) :=
  .single ⟨hplace, hG⟩ rfl

/-- The tasks from the third on stay in kernel code. -/
def SyscallRun.TwoTasks (s : SyscallRun) : Prop :=
  s.current < 2 ∧ ∀ t, 2 ≤ t → (s.saved t).2 = .kernel

namespace SyscallRun.TwoTasks

/-- So the condition is one on the first two. -/
lemma others (h : s.TwoTasks) (htwo : ∀ t < 2, t ≠ s.current → ¬ (s.saved t).2.InSyscall) :
    ∀ t, t ≠ s.current → ¬ (s.saved t).2.InSyscall := by
  intro t ht
  by_cases hlt : t < 2
  · exact htwo t hlt ht
  · rw [h.2 t (by omega)]
    exact id

lemma preempt (h : s.TwoTasks) {t : ℕ} (ht : t < 2) : (s.preempt t).TwoTasks := by
  rw [SyscallRun.preempt]
  cases hs : s.interrupt (s.pushed 0) t with
  | none => exact h
  | some u =>
      obtain ⟨c, -, rfl⟩ := Option.map_eq_some_iff.mp hs
      refine ⟨ht, fun v hv => ?_⟩
      have hne : v ≠ s.current := by
        have hcurrent := h.1
        omega
      exact (congrArg Prod.snd (Function.update_of_ne hne ..)).trans (h.2 v hv)

lemma enter (h : s.TwoTasks) (userStack userRip : BitVec 64) :
    (s.enter L userStack userRip).TwoTasks := h

lemma step (h : s.TwoTasks) (hst : s.step = some u) : u.TwoTasks := by
  unfold SyscallRun.step at hst
  split at hst
  · split at hst
    · obtain rfl := Option.some.inj hst
      exact h
    · obtain rfl := Option.some.inj hst
      exact h
  · split at hst
    · obtain rfl := Option.some.inj hst
      exact h
    · cases hst
  · cases hst

lemma steps (h : s.TwoTasks) (hst : s.steps n = some u) : u.TwoTasks := by
  induction n generalizing u with
  | zero =>
      obtain rfl := Option.some.inj hst
      exact h
  | succ n ih =>
      rw [SyscallRun.steps, Function.iterate_succ_apply'] at hst
      obtain ⟨t, ht, hst'⟩ := Option.bind_eq_some_iff.mp hst
      exact (ih ht).step hst'

lemma toHandler (h : s.TwoTasks) : s.toHandler.TwoTasks := by
  rw [SyscallRun.toHandler]
  cases hs : s.syscall.steps 17 with
  | none => exact h
  | some u => exact steps (s := s.syscall) h hs

lemma fromHandler (h : s.TwoTasks) : (s.fromHandler n).TwoTasks := by
  rw [SyscallRun.fromHandler]
  cases hs : (s.ret (s.called s.current) s.machine.mem).steps n with
  | none => exact h
  | some u => exact steps (s := s.ret (s.called s.current) s.machine.mem) h hs

end SyscallRun.TwoTasks

end given

/-- A place for `cpu_data` and the kernel stack. -/
def linkedLayout : SyscallLayout where
  cpuData := 0x120000
  kernelStack := 0x124000
  data_le := by decide
  stack_ge := by decide
  apart := by decide

/-- Registers of a task in kernel code, on its own stack. -/
def taskCpu (t : ℕ) : Cpu where
  gpr := Function.update (fun _ => 0) .rsp (0x300000 + BitVec.ofNat 64 (0x4000 * t))
  rip := 0x101000
  rflags := 0x202
  cs := 0x08
  ss := 0x10
  seg _ := 0x10

/-- The word at the address 0, where no `cpu_data` lies. -/
def lowMemory : ByteMemory := ByteMemory.write (fun _ => 0) 0 0x80000

/-- Two tasks, before either is in ring 3. -/
def syscallBoot : SyscallRun := SyscallRun.init linkedLayout taskCpu lowMemory

/-- The second one gets the processor and enters ring 3. -/
def secondEnters : SyscallRun := (syscallBoot.preempt 1).enter linkedLayout 0x800FF0 0x400000

/-- It is interrupted there, the first one runs in kernel code, and it goes on. -/
def secondResumes : SyscallRun := (secondEnters.preempt 0).preempt 1

/-- Its handler is interrupted, the first one runs in kernel code, and it goes on. -/
def handlerResumes : SyscallRun := (secondResumes.toHandler.preempt 0).preempt 1

/-- It has returned, and the first one enters ring 3. -/
def firstEnters : SyscallRun :=
  ((handlerResumes.fromHandler 12).preempt 0).enter linkedLayout 0x800FF0 0x400000

lemma twoTasks_syscallBoot : syscallBoot.TwoTasks := ⟨by decide, fun _ _ => rfl⟩

lemma twoTasks_secondEnters : secondEnters.TwoTasks :=
  (twoTasks_syscallBoot.preempt (by decide)).enter ..

lemma twoTasks_secondResumes : secondResumes.TwoTasks :=
  (twoTasks_secondEnters.preempt (by decide)).preempt (by decide)

lemma twoTasks_handlerResumes : handlerResumes.TwoTasks :=
  (twoTasks_secondResumes.toHandler.preempt (by decide)).preempt (by decide)

lemma twoTasks_firstEnters : firstEnters.TwoTasks :=
  (twoTasks_handlerResumes.fromHandler.preempt (by decide)).enter ..

/-- The second task in ring 3, after an interrupt there. -/
lemma run_secondResumes : ∃ es,
    ((syscallMachine linkedLayout).restrict Alone).Run syscallBoot es secondResumes := by
  have haway := run_preempt (L := linkedLayout) (G := Alone) (s := syscallBoot) (t := 1)
    ⟨fun hu => absurd hu (by decide), fun hu => absurd hu (by decide)⟩ (by decide +kernel)
    (fun _ => by decide +kernel) (by decide +kernel)
  have henter := run_enter (L := linkedLayout) (G := Alone) (s := syscallBoot.preempt 1)
    0x800FF0 0x400000 trivial (by decide +kernel)
  have hfirst := run_preempt (L := linkedLayout) (G := Alone) (s := secondEnters) (t := 0)
    ⟨fun _ => twoTasks_secondEnters.others (by decide +kernel),
      fun hu => absurd hu (by decide +kernel)⟩
    (by decide +kernel) (fun hk => absurd hk (by decide +kernel)) (by decide +kernel)
  have hsecond := run_preempt (L := linkedLayout) (G := Alone) (s := secondEnters.preempt 0)
    (t := 1) ⟨fun hu => absurd hu (by decide +kernel), fun _ => by decide +kernel⟩
    (by decide +kernel) (fun _ => by decide +kernel) (by decide +kernel)
  exact ⟨_, ((haway.append henter).append hfirst).append hsecond⟩

/-- The handler of the second task with a switch there and back. -/
lemma run_handlerResumes : ∃ es,
    ((syscallMachine linkedLayout).restrict Alone).Run syscallBoot es handlerResumes := by
  obtain ⟨es, hresumes⟩ := run_secondResumes
  have hcall := run_toHandler (L := linkedLayout) (G := Alone) (s := secondResumes)
    (fun _ => trivial) (twoTasks_secondResumes.others (by decide +kernel)) (by decide +kernel)
    (by decide +kernel)
  have hfirst := run_preempt (L := linkedLayout) (G := Alone) (s := secondResumes.toHandler)
    (t := 0) ⟨fun hu => absurd hu (by decide +kernel), fun hu => absurd hu (by decide +kernel)⟩
    (by decide +kernel) (fun hk => absurd hk (by decide +kernel)) (by decide +kernel)
  have hsecond := run_preempt (L := linkedLayout) (G := Alone)
    (s := secondResumes.toHandler.preempt 0) (t := 1)
    ⟨fun hu => absurd hu (by decide +kernel), fun hu => absurd hu (by decide +kernel)⟩
    (by decide +kernel) (fun _ => by decide +kernel) (by decide +kernel)
  exact ⟨_, ((hresumes.append hcall).append hfirst).append hsecond⟩

/-- A system call of the second task, which has been interrupted in ring 3 before and is switched
away from in its handler, and then one of the first task. -/
theorem sysret_returns_switched :
    ((handlerResumes.fromHandler 11).current = 1
        ∧ (handlerResumes.fromHandler 11).place = .tail 11
        ∧ SysretOk (handlerResumes.fromHandler 11))
      ∧ (firstEnters.toHandler.fromHandler 11).current = 0
      ∧ (firstEnters.toHandler.fromHandler 11).place = .tail 11
      ∧ SysretOk (firstEnters.toHandler.fromHandler 11) := by
  obtain ⟨es, hresumes⟩ := run_handlerResumes
  have htail := run_fromHandler (L := linkedLayout) (G := Alone) (s := handlerResumes) (n := 11)
    (fun _ => trivial) trivial (by decide +kernel) (by decide +kernel)
  have hreturn := run_fromHandler (L := linkedLayout) (G := Alone) (s := handlerResumes) (n := 12)
    (fun _ => trivial) trivial (by decide +kernel) (by decide +kernel)
  have hswitch := run_preempt (L := linkedLayout) (G := Alone)
    (s := handlerResumes.fromHandler 12) (t := 0)
    ⟨fun _ => twoTasks_handlerResumes.fromHandler.others (by decide +kernel),
      fun hu => absurd hu (by decide +kernel)⟩
    (by decide +kernel) (fun hk => absurd hk (by decide +kernel)) (by decide +kernel)
  have henter := run_enter (L := linkedLayout) (G := Alone)
    (s := (handlerResumes.fromHandler 12).preempt 0)
    0x800FF0 0x400000 trivial (by decide +kernel)
  have hcall := run_toHandler (L := linkedLayout) (G := Alone) (s := firstEnters)
    (fun _ => trivial) (twoTasks_firstEnters.others (by decide +kernel)) rfl (by decide +kernel)
  have htail' := run_fromHandler (L := linkedLayout) (G := Alone) (s := firstEnters.toHandler)
    (n := 11) (fun _ => trivial) trivial (by decide +kernel) (by decide +kernel)
  have hlast := (((hresumes.append hreturn).append hswitch).append henter).append hcall
  exact ⟨⟨by decide +kernel, by decide +kernel,
      sysret_returns linkedLayout taskCpu lowMemory (hresumes.append htail)⟩,
    by decide +kernel, by decide +kernel,
    sysret_returns linkedLayout taskCpu lowMemory (hlast.append htail')⟩

/-- The second task, alone in ring 3, pushes a word onto its stack. -/
def secondCpu : Cpu := { secondEnters.machine.cpu.set .rsp 0x800FE8 with rip := 0x400001 }

/-- It comes to its handler. -/
def secondCalls : SyscallRun :=
  (secondEnters.run secondCpu secondEnters.machine.mem).toHandler

/-- The handler takes 1 KB of its stack. -/
def handlerCpu : Cpu := secondCalls.machine.cpu.set .rsp 0x123C00

/-- It is interrupted, and the first task enters ring 3. -/
def firstMeanwhile : SyscallRun :=
  ((secondCalls.run handlerCpu secondCalls.machine.mem).preempt 0).enter linkedLayout 0x800FF0
    0x400000

lemma run_firstMeanwhile {G : SyscallRun → SyscallEvent → Prop} (hG : ∀ s e, G s e) : ∃ es,
    ((syscallMachine linkedLayout).restrict G).Run syscallBoot es firstMeanwhile := by
  have haway := run_preempt (L := linkedLayout) (G := G) (s := syscallBoot) (t := 1) (hG _ _)
    (by decide +kernel) (fun _ => by decide +kernel) (by decide +kernel)
  have hsecond := run_enter (L := linkedLayout) (G := G) (s := syscallBoot.preempt 1)
    0x800FF0 0x400000 (hG _ _) (by decide +kernel)
  have hpush : ((syscallMachine linkedLayout).restrict G).Run secondEnters
      [.run secondCpu secondEnters.machine.mem]
      (secondEnters.run secondCpu secondEnters.machine.mem) :=
    .single ⟨⟨⟨fun _ _ => rfl, fun _ _ => rfl⟩, fun hin => absurd hin (by decide +kernel)⟩,
      hG _ _⟩ rfl
  have hcall := run_toHandler (L := linkedLayout) (G := G)
    (s := secondEnters.run secondCpu secondEnters.machine.mem) (fun _ => hG _ _) (hG _ _) rfl
    (by decide +kernel)
  have hdeep : ((syscallMachine linkedLayout).restrict G).Run secondCalls
      [.run handlerCpu secondCalls.machine.mem]
      (secondCalls.run handlerCpu secondCalls.machine.mem) :=
    .single ⟨⟨⟨fun _ _ => rfl, fun _ _ => rfl⟩, fun _ => by decide +kernel⟩, hG _ _⟩ rfl
  have hback := run_preempt (L := linkedLayout) (G := G)
    (s := secondCalls.run handlerCpu secondCalls.machine.mem) (t := 0) (hG _ _)
    (by decide +kernel) (fun hk => absurd hk (by decide +kernel)) (by decide +kernel)
  have hfirst := run_enter (L := linkedLayout) (G := G)
    (s := (secondCalls.run handlerCpu secondCalls.machine.mem).preempt 0)
    0x800FF0 0x400000 (hG _ _) (by decide +kernel)
  have hlast := ((((haway.append hsecond).append hpush).append hcall).append hdeep).append hback
  exact ⟨_, hlast.append hfirst⟩

/-- The first one makes a system call of its own. -/
def callsMixed : SyscallRun := (firstMeanwhile.toHandler.preempt 1).fromHandler 11

/-- Or it is interrupted in ring 3. -/
def userInterrupted : SyscallRun := (firstMeanwhile.preempt 1).fromHandler 11

lemma run_callsMixed {G : SyscallRun → SyscallEvent → Prop} (hG : ∀ s e, G s e) : ∃ es,
    ((syscallMachine linkedLayout).restrict G).Run syscallBoot es callsMixed := by
  obtain ⟨es, hfirst⟩ := run_firstMeanwhile hG
  have hcall := run_toHandler (L := linkedLayout) (G := G) (s := firstMeanwhile)
    (fun _ => hG _ _) (hG _ _) rfl (by decide +kernel)
  have hback := run_preempt (L := linkedLayout) (G := G) (s := firstMeanwhile.toHandler)
    (t := 1) (hG _ _) (by decide +kernel) (fun hk => absurd hk (by decide +kernel))
    (by decide +kernel)
  have htail := run_fromHandler (L := linkedLayout) (G := G)
    (s := firstMeanwhile.toHandler.preempt 1)
    (n := 11) (fun _ => hG _ _) (hG _ _) (by decide +kernel) (by decide +kernel)
  exact ⟨_, ((hfirst.append hcall).append hback).append htail⟩

lemma run_userInterrupted {G : SyscallRun → SyscallEvent → Prop} (hG : ∀ s e, G s e) : ∃ es,
    ((syscallMachine linkedLayout).restrict G).Run syscallBoot es userInterrupted := by
  obtain ⟨es, hfirst⟩ := run_firstMeanwhile hG
  have hback := run_preempt (L := linkedLayout) (G := G) (s := firstMeanwhile) (t := 1) (hG _ _)
    (by decide +kernel) (fun hk => absurd hk (by decide +kernel)) (by decide +kernel)
  have htail := run_fromHandler (L := linkedLayout) (G := G) (s := firstMeanwhile.preempt 1)
    (n := 11) (fun _ => hG _ _) (hG _ _) (by decide +kernel) (by decide +kernel)
  exact ⟨_, (hfirst.append hback).append htail⟩

/-- A `sysret` that gives a word back that is none of the task. -/
lemma not_sysretOk {α : Type} {s : SyscallRun} (f : Cpu → α)
    (hf : ∀ e m : Machine, Returned e m → f m.cpu = f e.cpu) {a b : α}
    (hplace : s.place = .tail 11) (hstep : s.step.map (fun u => f u.machine.cpu) = some a)
    (hentry : f (s.entry s.current).cpu = b) (hne : a ≠ b) : ¬ SysretOk s := by
  intro hok
  obtain ⟨u, hu, ha⟩ := Option.map_eq_some_iff.mp hstep
  exact hne (ha.symm.trans ((hf _ _ (hok 11 u hplace rfl hu)).trans hentry))

/-- **System calls mixed up**: the second task returns with the stack pointer of the first one,
which made a system call meanwhile, or to the selector of a segment, where the first one has been
interrupted in ring 3. -/
theorem sysret_mixed_up :
    ((∃ es, (syscallMachine linkedLayout).Run (SyscallRun.init linkedLayout taskCpu lowMemory) es
          callsMixed)
        ∧ ¬ SysretOk callsMixed)
      ∧ (∃ es, (syscallMachine linkedLayout).Run
          (SyscallRun.init linkedLayout taskCpu lowMemory) es userInterrupted)
        ∧ ¬ SysretOk userInterrupted := by
  obtain ⟨es, hmixed⟩ := run_callsMixed (G := fun _ _ => True) fun _ _ => trivial
  obtain ⟨fs, hinterrupted⟩ := run_userInterrupted (G := fun _ _ => True) fun _ _ => trivial
  refine ⟨⟨⟨es, hmixed.of_restrict⟩, ?_⟩, ⟨fs, hinterrupted.of_restrict⟩, ?_⟩
  · exact not_sysretOk (fun c => c.gpr .rsp) (fun _ _ h => h.gpr .rsp (by decide))
      (a := 0x800FF0) (b := 0x800FE8) (by decide +kernel) (by decide +kernel) (by decide +kernel)
      (by decide)
  · exact not_sysretOk Cpu.rip (fun _ _ h => h.rip) (a := 0x1B) (b := 0x400001)
      (by decide +kernel) (by decide +kernel) (by decide +kernel) (by decide)

end KiOS
