import KiOS.Cpu.Machine
import KiOS.Library.EventMachine

/-!
The entry of system calls (`syscall_asm.asm`, `syscall_init`) in one task.

* `syscallHead`, `syscallTail`: the code of `syscall_entry` before and behind the call of
  `syscall_handler`;
* `SyscallLayout`: where the linker puts `cpu_data` and the kernel stack;
* `Kept`: what holds of the machine while the handler of a task runs: its registers lie on the
  kernel stack, its stack pointer in `cpu_data`, and the bases of GS are exchanged;
* `Suspended`: with the registers that the handler has to give back;
* `suspended_head`: the head leads there; `Suspended.returned`: from there the tail leads back.
-/

namespace KiOS

/-- `syscall_entry` up to the call of `syscall_handler`. -/
def syscallHead : List Instr :=
  [.swapgs, .storeGs 0x08 .rsp, .loadGs .rsp 0x00,
    .push .rcx, .push .r11, .push .rbx, .push .rbp, .push .r12, .push .r13, .push .r14, .push .r15,
    .mov .rcx .rdx, .mov .rdx .rsi, .mov .rsi .rdi, .mov .rdi .rax, .sti]

/-- The rest of `syscall_entry`. -/
def syscallTail : List Instr :=
  [.cli, .pop .r15, .pop .r14, .pop .r13, .pop .r12, .pop .rbp, .pop .rbx, .pop .r11, .pop .rcx,
    .loadGs .rsp 0x08, .swapgs, .sysret]

/-- The flags that `SFMASK` clears: IF, TF and DF. -/
def sfmask : BitVec 64 := 0x700

/-- The `syscall` instruction, for the MSRs of `syscall_init`. `rip` is the address behind it. -/
def Machine.syscall (s : Machine) : Machine :=
  { s with
    cpu :=
      { ((s.cpu.set .rcx s.cpu.rip).set .r11 s.cpu.rflags) with
        rflags := s.cpu.rflags &&& ~~~sfmask
        cs := 0x08
        ss := 0x10 } }

/-- The registers that a function of the System V ABI gives back. -/
def calleeSaved : List Gpr := [.rbx, .rbp, .rsp, .r12, .r13, .r14, .r15]

/-- The addresses of `cpu_data` and of the end of the 8 KB kernel stack, apart from each other. -/
structure SyscallLayout where
  cpuData : BitVec 64
  kernelStack : BitVec 64
  data_le : cpuData.toNat + 24 ≤ 2 ^ 64
  stack_ge : 8192 ≤ kernelStack.toNat
  apart : cpuData.toNat + 24 ≤ kernelStack.toNat - 8192 ∨ kernelStack.toNat ≤ cpuData.toNat

/-- What a `sysret` owes to the task that executed a `syscall` in the state `e`. -/
structure Returned (e s : Machine) : Prop where
  rip : s.cpu.rip = e.cpu.rip
  rflags : s.cpu.rflags = sysretFlags e.cpu.rflags
  gpr : ∀ r ∈ calleeSaved, s.cpu.gpr r = e.cpu.gpr r
  gsBase : s.gsBase = e.gsBase
  kernelGsBase : s.kernelGsBase = e.kernelGsBase

instance (e s : Machine) : Decidable (Returned e s) :=
  decidable_of_iff (s.cpu.rip = e.cpu.rip ∧ s.cpu.rflags = sysretFlags e.cpu.rflags
      ∧ (∀ r ∈ calleeSaved, s.cpu.gpr r = e.cpu.gpr r) ∧ s.gsBase = e.gsBase
      ∧ s.kernelGsBase = e.kernelGsBase)
    ⟨fun h => ⟨h.1, h.2.1, h.2.2.1, h.2.2.2.1, h.2.2.2.2⟩,
      fun h => ⟨h.rip, h.rflags, h.gpr, h.gsBase, h.kernelGsBase⟩⟩

/-! ### The code without interruption -/

/-- The registers on the kernel stack, the one on its top first. -/
def savedWords (e : Machine) : List (BitVec 64) :=
  [e.cpu.gpr .r15, e.cpu.gpr .r14, e.cpu.gpr .r13, e.cpu.gpr .r12, e.cpu.gpr .rbp, e.cpu.gpr .rbx,
    e.cpu.rflags, e.cpu.rip]

/-- `kernel_stack` is set and the bases of GS are those of a task in ring 3. -/
structure SyscallReady (L : SyscallLayout) (s : Machine) : Prop where
  stack : s.mem.read L.cpuData = L.kernelStack
  gsBase : s.gsBase = 0
  kernelGsBase : s.kernelGsBase = L.cpuData

/-- What the tail needs of the machine while the handler runs for a `syscall` in the state `e`. -/
structure Kept (L : SyscallLayout) (e s : Machine) : Prop where
  words : ∀ i < 8, s.mem.read (L.kernelStack - 64 + BitVec.ofNat 64 (8 * i))
    = (savedWords e).getD i 0
  userStack : s.mem.read (L.cpuData + 8) = e.cpu.gpr .rsp
  kernelStack : s.mem.read L.cpuData = L.kernelStack
  gsBase : s.gsBase = L.cpuData
  kernelGsBase : s.kernelGsBase = 0
  before : e.gsBase = 0 ∧ e.kernelGsBase = L.cpuData

/-- The registers that the handler has to give back. -/
structure HandlerCall (L : SyscallLayout) (e : Machine) (c : Cpu) : Prop where
  gpr : ∀ r ∈ calleeSaved, r ≠ .rsp → c.gpr r = e.cpu.gpr r
  rsp : c.gpr .rsp = L.kernelStack - 64

/-- The machine where the handler is called or has returned. -/
structure Suspended (L : SyscallLayout) (e s : Machine) : Prop
    extends Kept L e s, HandlerCall L e s.cpu

variable {L : SyscallLayout} {e s : Machine}

/-- No word of the kernel stack overlaps one of `cpu_data`. -/
lemma SyscallLayout.apart_stack (L : SyscallLayout) {i d : ℕ} (hi : i < 8) (hd : d ≤ 8) :
    ByteMemory.Apart (L.cpuData + BitVec.ofNat 64 d)
      (L.kernelStack - 64 + BitVec.ofNat 64 (8 * i)) := by
  have hdata := L.data_le
  have hstack := L.stack_ge
  have hapart := L.apart
  have h64 : (64 : BitVec 64).toNat = 64 := rfl
  have hd' : (L.cpuData + BitVec.ofNat 64 d).toNat = L.cpuData.toNat + d := by
    rw [BitVec.toNat_add, BitVec.toNat_ofNat]
    omega
  have hk : (L.kernelStack - 64 + BitVec.ofNat 64 (8 * i)).toNat
      = L.kernelStack.toNat - 64 + 8 * i := by
    rw [BitVec.toNat_add, BitVec.toNat_sub, BitVec.toNat_ofNat, h64]
    have hlt := L.kernelStack.isLt
    omega
  have hlt := L.kernelStack.isLt
  rw [ByteMemory.Apart, BitVec.toNat_sub, hd', hk]
  omega

/-- The two words of `cpu_data` are apart. -/
lemma apart_cpuData (a : BitVec 64) : ByteMemory.Apart (a + 8) a := by
  have h8 : (8 : BitVec 64).toNat = 8 := rfl
  rw [ByteMemory.Apart, sub_add_cancel_left, BitVec.toNat_neg, h8]
  decide

lemma apart_add_eight (a : BitVec 64) : ByteMemory.Apart a (a + 8) := by
  have h8 : (8 : BitVec 64).toNat = 8 := rfl
  rw [ByteMemory.Apart, add_sub_cancel_left, h8]
  decide

/-- The stack when the handler is called. -/
def handlerStack (e : Machine) : Stack :=
  let m := e.mem.write (e.kernelGsBase + 8) (e.cpu.gpr .rsp)
  Stack.pushAll ⟨m, m.read (e.kernelGsBase + 0)⟩ (savedWords e).reverse

/-- The registers that the head pushes. -/
def pushedSaved : List Gpr := [.rcx, .r11, .rbx, .rbp, .r12, .r13, .r14, .r15]

/-- The head in three parts. -/
lemma exec_syscallHead (s : Machine) :
    Machine.exec syscallHead s = Machine.exec (syscallHead.drop 11)
      (Machine.exec (pushedSaved.map .push) (Machine.exec (syscallHead.take 3) s)) :=
  rfl

/-- The head up to the first push. -/
lemma stack_syscallHead (e : Machine) :
    (Machine.exec (syscallHead.take 3) e.syscall).stack.mem
        = e.mem.write (e.kernelGsBase + 8) (e.cpu.gpr .rsp)
      ∧ (Machine.exec (syscallHead.take 3) e.syscall).stack.sp
        = (e.mem.write (e.kernelGsBase + 8) (e.cpu.gpr .rsp)).read (e.kernelGsBase + 0) :=
  ⟨rfl, rfl⟩

/-- The head behind the last push. -/
lemma exec_syscallHead_drop (s : Machine) :
    (Machine.exec (syscallHead.drop 11) s).stack = s.stack
      ∧ (∀ r ∈ calleeSaved, (Machine.exec (syscallHead.drop 11) s).cpu.gpr r = s.cpu.gpr r)
      ∧ (Machine.exec (syscallHead.drop 11) s).gsBase = s.gsBase
      ∧ (Machine.exec (syscallHead.drop 11) s).kernelGsBase = s.kernelGsBase := by
  refine ⟨rfl, fun r hr => ?_, rfl, rfl⟩
  fin_cases hr <;> rfl

/-- What the head does to the machine. -/
lemma syscallHead_spec (e : Machine) :
    (Machine.exec syscallHead e.syscall).stack = handlerStack e
      ∧ (∀ r ∈ calleeSaved, r ≠ .rsp →
        (Machine.exec syscallHead e.syscall).cpu.gpr r = e.cpu.gpr r)
      ∧ (Machine.exec syscallHead e.syscall).gsBase = e.kernelGsBase
      ∧ (Machine.exec syscallHead e.syscall).kernelGsBase = e.gsBase := by
  rw [exec_syscallHead]
  obtain ⟨hmem, hsp⟩ := stack_syscallHead e
  have hwords : pushedSaved.map (Machine.exec (syscallHead.take 3) e.syscall).cpu.gpr
      = (savedWords e).reverse := rfl
  have hgpr : ∀ r ∈ calleeSaved, r ≠ .rsp →
      (Machine.exec (syscallHead.take 3) e.syscall).cpu.gpr r = e.cpu.gpr r := by
    intro r hr hne
    fin_cases hr <;> first | rfl | exact absurd rfl hne
  have hgs : (Machine.exec (syscallHead.take 3) e.syscall).gsBase = e.kernelGsBase := rfl
  have hkernelGs : (Machine.exec (syscallHead.take 3) e.syscall).kernelGsBase = e.gsBase := rfl
  generalize Machine.exec (syscallHead.take 3) e.syscall = t at *
  obtain ⟨hstack, hgpr', hgs', hkernelGs'⟩ := Machine.exec_pushes pushedSaved (by decide) t
  rw [hwords] at hstack
  generalize Machine.exec (pushedSaved.map .push) t = u at *
  obtain ⟨hstack'', hgpr'', hgs'', hkernelGs''⟩ := exec_syscallHead_drop u
  refine ⟨?_, fun r hr hne => ?_, hgs''.trans (hgs'.trans hgs),
    hkernelGs''.trans (hkernelGs'.trans hkernelGs)⟩
  · rw [hstack'', hstack, handlerStack, ← hsp, ← hmem]
  · rw [hgpr'' r hr, hgpr' r hne, hgpr r hr hne]

/-- What the head leaves behind is what the tail needs. -/
lemma suspended_of_stack (h : SyscallReady L e) (hmachine : s.stack = handlerStack e)
    (hgpr : ∀ r ∈ calleeSaved, r ≠ .rsp → s.cpu.gpr r = e.cpu.gpr r)
    (hgs : s.gsBase = e.kernelGsBase) (hkernelGs : s.kernelGsBase = e.gsBase) :
    Suspended L e s := by
  have hstart : (e.mem.write (L.cpuData + 8) (e.cpu.gpr .rsp)).read (L.cpuData + 0)
      = L.kernelStack := by
    rw [add_zero, ByteMemory.read_write_of_apart (apart_cpuData _), h.stack]
  have hstack : handlerStack e = Stack.pushAll
      ⟨e.mem.write (L.cpuData + 8) (e.cpu.gpr .rsp), L.kernelStack⟩ (savedWords e).reverse := by
    rw [← hstart, ← h.kernelGsBase]
    rfl
  have hmem : s.mem = (handlerStack e).mem := congrArg Stack.mem hmachine
  have hrsp : s.cpu.gpr .rsp = (handlerStack e).sp := congrArg Stack.sp hmachine
  have hlen : (savedWords e).reverse.length = 8 := rfl
  have hsp : (handlerStack e).sp = L.kernelStack - 64 := by
    rw [hstack, Stack.sp_pushAll, hlen]
    rfl
  -- what lies in `cpu_data` is not on the stack
  have habove : ∀ d : ℕ, d ≤ 8 → s.mem.read (L.cpuData + BitVec.ofNat 64 d)
      = (e.mem.write (L.cpuData + 8) (e.cpu.gpr .rsp)).read (L.cpuData + BitVec.ofNat 64 d) := by
    intro d hd
    have hdata := L.data_le
    have hge := L.stack_ge
    have hapart := L.apart
    have hlt := L.kernelStack.isLt
    have hsum : (L.cpuData + BitVec.ofNat 64 d).toNat = L.cpuData.toNat + d := by
      rw [BitVec.toNat_add, BitVec.toNat_ofNat]
      omega
    rw [hmem, hstack, Stack.read_pushAll_above]
    rw [hlen, BitVec.toNat_sub, hsum]
    dsimp only
    omega
  refine ⟨⟨fun i hi => ?_, ?_, ?_, hgs.trans h.kernelGsBase, hkernelGs.trans h.gsBase, h.gsBase,
    h.kernelGsBase⟩, hgpr, hrsp.trans hsp⟩
  · have hword := Stack.read_sp_pushAll ⟨e.mem.write (L.cpuData + 8) (e.cpu.gpr .rsp),
      L.kernelStack⟩ (savedWords e).reverse (i := i) (by omega) (by omega)
    rw [← hstack, hsp] at hword
    rw [hmem, hword, List.getElem_reverse, List.getD_eq_getElem _ _ (by exact hi)]
    congr 1
    rw [hlen, show (savedWords e).length = 8 from rfl]
    omega
  · exact (habove 8 le_rfl).trans ByteMemory.read_write_self
  · have hzero := habove 0 (Nat.zero_le 8)
    rw [show L.cpuData + BitVec.ofNat 64 0 = L.cpuData from add_zero _,
      ByteMemory.read_write_of_apart (apart_cpuData _), h.stack] at hzero
    exact hzero

/-- **The head** saves what the tail needs. -/
lemma suspended_head (h : SyscallReady L e) :
    Suspended L e (Machine.exec syscallHead e.syscall) :=
  suspended_of_stack h (syscallHead_spec e).1 (syscallHead_spec e).2.1 (syscallHead_spec e).2.2.1
    (syscallHead_spec e).2.2.2

/-- The words that the tail pops. -/
def poppedSaved : List Gpr := [.r15, .r14, .r13, .r12, .rbp, .rbx, .r11, .rcx]

/-- The tail in three parts. -/
lemma exec_syscallTail (s : Machine) :
    Machine.exec syscallTail s = Machine.exec [.loadGs .rsp 0x08, .swapgs, .sysret]
      (Machine.exec (poppedSaved.map .pop) (s.step .cli)) :=
  rfl

/-- A run of pops leaves the bases of GS alone. -/
lemma Machine.exec_pops_gs (rs : List Gpr) (s : Machine) :
    (exec (rs.map .pop) s).gsBase = s.gsBase
      ∧ (exec (rs.map .pop) s).kernelGsBase = s.kernelGsBase := by
  induction rs generalizing s with
  | nil => exact ⟨rfl, rfl⟩
  | cons r rs ih => exact ih (s.step (.pop r))

/-- The tail behind the last pop. -/
lemma syscallTail_end (t : Machine) :
    (Machine.exec [.loadGs .rsp 0x08, .swapgs, .sysret] t).cpu.rip = t.cpu.gpr .rcx
      ∧ (Machine.exec [.loadGs .rsp 0x08, .swapgs, .sysret] t).cpu.rflags
        = sysretFlags (t.cpu.gpr .r11)
      ∧ (Machine.exec [.loadGs .rsp 0x08, .swapgs, .sysret] t).cpu.gpr
        = (t.cpu.set .rsp (t.mem.read (t.gsBase + 0x08))).gpr
      ∧ (Machine.exec [.loadGs .rsp 0x08, .swapgs, .sysret] t).gsBase = t.kernelGsBase
      ∧ (Machine.exec [.loadGs .rsp 0x08, .swapgs, .sysret] t).kernelGsBase = t.gsBase
      ∧ (Machine.exec [.loadGs .rsp 0x08, .swapgs, .sysret] t).mem = t.mem := by
  have hne : ∀ r, r ≠ .rsp →
      (t.cpu.set .rsp (t.mem.read (t.gsBase + 0x08))).gpr r = t.cpu.gpr r :=
    fun r hr => t.cpu.gpr_set_ne _ hr
  exact ⟨hne .rcx (by decide), congrArg sysretFlags (hne .r11 (by decide)), rfl, rfl, rfl, rfl⟩

/-- **The tail** gives the task its registers back. -/
lemma Suspended.returned (h : Suspended L e s) :
    Returned e (Machine.exec syscallTail s) ∧ (Machine.exec syscallTail s).mem = s.mem := by
  rw [exec_syscallTail]
  obtain ⟨hmem, -, -, hrest, hpop⟩ := Machine.exec_pops poppedSaved (by decide)
    (by decide) (s.step .cli)
  obtain ⟨hgs, hkernelGs⟩ := Machine.exec_pops_gs poppedSaved (s.step .cli)
  have hrsp : (s.step .cli).cpu.gpr .rsp = L.kernelStack - 64 := h.rsp
  rw [hrsp] at hpop
  generalize Machine.exec (poppedSaved.map .pop) (s.step .cli) = t at *
  have hword : ∀ i (hi : i < poppedSaved.length), t.cpu.gpr poppedSaved[i]
      = (savedWords e).getD i 0 := fun i hi => (hpop i hi).trans (h.words i hi)
  have huser : t.mem.read (t.gsBase + 0x08) = e.cpu.gpr .rsp := by
    rw [hmem, hgs]
    exact (congrArg (fun a => s.mem.read (a + 0x08)) h.gsBase).trans h.userStack
  obtain ⟨hrip, hflags, hgpr, hgs', hkernelGs', hmem'⟩ := syscallTail_end t
  generalize Machine.exec [.loadGs .rsp 0x08, .swapgs, .sysret] t = u at *
  have hcallee : ∀ r ∈ calleeSaved, r ≠ .rsp → t.cpu.gpr r = e.cpu.gpr r := by
    intro r hr hne
    fin_cases hr
    · exact hword 5 (by decide)
    · exact hword 4 (by decide)
    · exact absurd rfl hne
    · exact hword 3 (by decide)
    · exact hword 2 (by decide)
    · exact hword 1 (by decide)
    · exact hword 0 (by decide)
  refine ⟨⟨hrip.trans (hword 7 (by decide)), hflags.trans (congrArg _ (hword 6 (by decide))),
    fun r hr => ?_, ?_, ?_⟩, hmem'.trans hmem⟩
  · rw [hgpr]
    by_cases hne : r = .rsp
    · rw [hne, Cpu.gpr_set_self, huser]
    · rw [Cpu.gpr_set_ne _ _ hne, hcallee r hr hne]
  · rw [hgs', hkernelGs, h.before.1]
    exact h.kernelGsBase
  · rw [hkernelGs', hgs, h.before.2]
    exact h.gsBase

end KiOS
