import KiOS.Library.ByteMemory

/-!
The processor, as far as the assembly of the kernel uses it (`idt_asm.asm`, `syscall_asm.asm`).

* `Cpu`: the registers that an interrupt frame holds; `Machine`: with the bases of GS and memory;
* `Instr`, `Machine.step`, `Machine.exec`: the instructions of the two files. `rip` is kept up to
  date only where a piece of code is entered or left;
* `Machine.interrupt`: what the processor does before the first instruction of a stub;
* `Machine.stack`: the machine's stack, for the rules of pushing.
-/

namespace KiOS

/-- The general registers. -/
inductive Gpr where
  | rax | rbx | rcx | rdx | rsi | rdi | rbp | rsp
  | r8 | r9 | r10 | r11 | r12 | r13 | r14 | r15
  deriving DecidableEq, Repr

/-- The segment registers of data that the stubs save. -/
inductive DataSeg where
  | ds | es
  deriving DecidableEq, Repr

/-- The registers of a context. -/
structure Cpu where
  gpr : Gpr → BitVec 64
  rip : BitVec 64
  rflags : BitVec 64
  cs : BitVec 16
  ss : BitVec 16
  seg : DataSeg → BitVec 16

/-- The processor with the two bases that `swapgs` exchanges, and the memory. -/
structure Machine where
  cpu : Cpu
  gsBase : BitVec 64
  kernelGsBase : BitVec 64
  mem : ByteMemory

/-- The instructions. -/
inductive Instr where
  | push (r : Gpr)
  | pushImm (v : BitVec 64)
  | pop (r : Gpr)
  | mov (dst src : Gpr)
  /-- `mov ax, imm16`. -/
  | movAx (v : BitVec 16)
  /-- `mov ax, ds`. -/
  | movAxSeg (s : DataSeg)
  /-- `mov ds, ax`. -/
  | movSegAx (s : DataSeg)
  /-- `add rsp, n`, without the flags, which the `iretq` behind it loads. -/
  | addRsp (n : BitVec 64)
  /-- `mov [gs:offset], src`. -/
  | storeGs (offset : BitVec 64) (src : Gpr)
  /-- `mov dst, [gs:offset]`. -/
  | loadGs (dst : Gpr) (offset : BitVec 64)
  | swapgs
  | sti
  | cli
  | iretq
  | sysret
  deriving DecidableEq, Repr

/-- The table that `gdt_init` loads, without the task state segment. -/
def gdt : List (BitVec 64) :=
  [0, 0x00af9a000000ffff, 0x00af92000000ffff, 0x00aff2000000ffff, 0x00affa000000ffff]

/-- The privilege level of the descriptor that a selector names. -/
def dpl (sel : BitVec 16) : BitVec 2 :=
  (gdt.getD (sel.toNat / 8) 0).extractLsb' 45 2

/-- The privilege level of the code that a selector of a code segment names. -/
def rpl (sel : BitVec 16) : BitVec 2 := sel.extractLsb' 0 2

/-- IF. -/
def interruptFlag : BitVec 64 := 0x200

/-- What `sysret` makes of R11: RF and VM are cleared. -/
def sysretFlags (r11 : BitVec 64) : BitVec 64 := (r11 &&& 0x3C7FD7) ||| 2

/-- The low 16 bits are replaced. -/
def setLow16 (x : BitVec 64) (v : BitVec 16) : BitVec 64 := x.extractLsb' 16 48 ++ v

namespace Cpu

/-- `r = v`. -/
def set (c : Cpu) (r : Gpr) (v : BitVec 64) : Cpu := { c with gpr := Function.update c.gpr r v }

@[simp] lemma gpr_set_self (c : Cpu) (r : Gpr) (v : BitVec 64) : (c.set r v).gpr r = v :=
  Function.update_self ..

lemma gpr_set_ne (c : Cpu) {r r' : Gpr} (v : BitVec 64) (h : r' ≠ r) :
    (c.set r v).gpr r' = c.gpr r' :=
  Function.update_of_ne h ..

/-- On the way to an outer ring a data segment of an inner one is lost. -/
def returnSeg (rplNew : BitVec 2) (sel : BitVec 16) : BitVec 16 :=
  if dpl sel < rplNew then 0 else sel

end Cpu

namespace Machine

/-- The stack of the machine. -/
def stack (s : Machine) : Stack := ⟨s.mem, s.cpu.gpr .rsp⟩

/-- `r = v`. -/
def set (s : Machine) (r : Gpr) (v : BitVec 64) : Machine := { s with cpu := s.cpu.set r v }

/-- A word is pushed. -/
def push (s : Machine) (v : BitVec 64) : Machine :=
  { s.set .rsp (s.cpu.gpr .rsp - 8) with mem := s.mem.write (s.cpu.gpr .rsp - 8) v }

/-- A word on the stack, counted from its top. -/
def peek (s : Machine) (i : ℕ) : BitVec 64 :=
  s.mem.read (s.cpu.gpr .rsp + BitVec.ofNat 64 (8 * i))

/-- `iretq`, for a frame whose loads do not fault. -/
def iretq (s : Machine) : Machine :=
  { s with
    cpu :=
      { gpr := Function.update s.cpu.gpr .rsp (s.peek 3)
        rip := s.peek 0
        rflags := s.peek 2
        cs := (s.peek 1).setWidth 16
        ss := (s.peek 4).setWidth 16
        seg := fun seg => Cpu.returnSeg (rpl ((s.peek 1).setWidth 16)) (s.cpu.seg seg) } }

/-- `o64 sysret`, for the `STAR` that `syscall_init` sets up. -/
def sysret (s : Machine) : Machine :=
  { s with
    cpu :=
      { s.cpu with
        rip := s.cpu.gpr .rcx
        rflags := sysretFlags (s.cpu.gpr .r11)
        cs := 0x23
        ss := 0x1B } }

/-- One instruction. -/
def step (s : Machine) : Instr → Machine
  | .push r => s.push (s.cpu.gpr r)
  | .pushImm v => s.push v
  | .pop r => (s.set .rsp (s.cpu.gpr .rsp + 8)).set r (s.peek 0)
  | .mov dst src => s.set dst (s.cpu.gpr src)
  | .movAx v => s.set .rax (setLow16 (s.cpu.gpr .rax) v)
  | .movAxSeg seg => s.set .rax (setLow16 (s.cpu.gpr .rax) (s.cpu.seg seg))
  | .movSegAx seg =>
      { s with
        cpu := { s.cpu with seg := Function.update s.cpu.seg seg ((s.cpu.gpr .rax).setWidth 16) } }
  | .addRsp n => s.set .rsp (s.cpu.gpr .rsp + n)
  | .storeGs offset src => { s with mem := s.mem.write (s.gsBase + offset) (s.cpu.gpr src) }
  | .loadGs dst offset => s.set dst (s.mem.read (s.gsBase + offset))
  | .swapgs => { s with gsBase := s.kernelGsBase, kernelGsBase := s.gsBase }
  | .sti => { s with cpu := { s.cpu with rflags := s.cpu.rflags ||| interruptFlag } }
  | .cli => { s with cpu := { s.cpu with rflags := s.cpu.rflags &&& ~~~interruptFlag } }
  | .iretq => s.iretq
  | .sysret => s.sysret

/-- A piece of straight code. -/
def exec (is : List Instr) (s : Machine) : Machine := is.foldl step s

@[simp] lemma exec_nil (s : Machine) : exec [] s = s := rfl

@[simp] lemma exec_cons (i : Instr) (is : List Instr) (s : Machine) :
    exec (i :: is) s = exec is (s.step i) := rfl

lemma exec_append (is js : List Instr) (s : Machine) : exec (is ++ js) s = exec js (exec is s) :=
  List.foldl_append

@[simp] lemma iretq_rsp (s : Machine) : s.iretq.cpu.gpr .rsp = s.peek 3 := by
  simp only [iretq, Function.update_self]

lemma iretq_gpr (s : Machine) {r : Gpr} (h : r ≠ .rsp) : s.iretq.cpu.gpr r = s.cpu.gpr r :=
  Function.update_of_ne h ..

/-- **A run of pushes** puts the registers on the stack, one after the other. -/
lemma exec_pushes (rs : List Gpr) (hrsp : Gpr.rsp ∉ rs) (s : Machine) :
    (exec (rs.map .push) s).stack = s.stack.pushAll (rs.map s.cpu.gpr)
      ∧ (∀ r ≠ .rsp, (exec (rs.map .push) s).cpu.gpr r = s.cpu.gpr r)
      ∧ (exec (rs.map .push) s).gsBase = s.gsBase
      ∧ (exec (rs.map .push) s).kernelGsBase = s.kernelGsBase := by
  induction rs generalizing s with
  | nil => exact ⟨rfl, fun _ _ => rfl, rfl, rfl⟩
  | cons r rs ih =>
      obtain ⟨hne, hrsp⟩ := not_or.mp (List.mem_cons.not.mp hrsp)
      obtain ⟨hstack, hgpr, hgs, hkernelGs⟩ := ih hrsp (s.step (.push r))
      have hsame : ∀ r' ≠ .rsp, (s.step (.push r)).cpu.gpr r' = s.cpu.gpr r' :=
        fun r' hr' => s.cpu.gpr_set_ne _ hr'
      have hpush : (s.step (.push r)).stack = s.stack.push (s.cpu.gpr r) :=
        congrArg (Stack.mk _) (Cpu.gpr_set_self ..)
      have hmap : rs.map (s.step (.push r)).cpu.gpr = rs.map s.cpu.gpr := by
        refine List.map_congr_left fun r' hr' => hsame r' ?_
        rintro rfl
        exact hrsp hr'
      rw [List.map_cons, exec_cons]
      refine ⟨?_, fun r' hr' => (hgpr r' hr').trans (hsame r' hr'), hgs, hkernelGs⟩
      rw [hstack, hpush, hmap]
      rfl

/-- **A run of pops** loads the registers from the words of the stack, one after the other. -/
lemma exec_pops (rs : List Gpr) (hnodup : rs.Nodup) (hrsp : Gpr.rsp ∉ rs) (s : Machine) :
    (exec (rs.map .pop) s).mem = s.mem
      ∧ (exec (rs.map .pop) s).cpu.seg = s.cpu.seg
      ∧ (exec (rs.map .pop) s).cpu.gpr .rsp = s.cpu.gpr .rsp + BitVec.ofNat 64 (8 * rs.length)
      ∧ (∀ r ∉ rs, r ≠ .rsp → (exec (rs.map .pop) s).cpu.gpr r = s.cpu.gpr r)
      ∧ ∀ i (hi : i < rs.length), (exec (rs.map .pop) s).cpu.gpr rs[i]
        = s.mem.read (s.cpu.gpr .rsp + BitVec.ofNat 64 (8 * i)) := by
  induction rs generalizing s with
  | nil =>
      refine ⟨rfl, rfl, (add_zero _).symm, fun _ _ _ => rfl, fun i hi => ?_⟩
      cases hi
  | cons r rs ih =>
      obtain ⟨hr, hnodup⟩ := List.nodup_cons.mp hnodup
      obtain ⟨hne, hrsp⟩ := not_or.mp (List.mem_cons.not.mp hrsp)
      obtain ⟨hmem, hseg, hsp, hrest, hpop⟩ := ih hnodup hrsp (s.step (.pop r))
      have hsp' : (s.step (.pop r)).cpu.gpr .rsp = s.cpu.gpr .rsp + 8 :=
        ((s.cpu.set .rsp _).gpr_set_ne _ hne).trans (Cpu.gpr_set_self ..)
      rw [List.map_cons, exec_cons]
      refine ⟨hmem, hseg, ?_, fun r' hr' hne' => ?_, fun i hi => ?_⟩
      · rw [hsp, hsp', List.length_cons, Nat.mul_succ, Nat.add_comm, BitVec.ofNat_add, add_assoc]
        rfl
      · obtain ⟨hr₁, hr₂⟩ := not_or.mp (List.mem_cons.not.mp hr')
        exact (hrest r' hr₂ hne').trans
          (((s.cpu.set .rsp _).gpr_set_ne _ hr₁).trans (s.cpu.gpr_set_ne _ hne'))
      · cases i with
        | zero =>
            exact (hrest r hr (Ne.symm hne)).trans (Cpu.gpr_set_self ..)
        | succ i =>
            refine (hpop i (Nat.lt_of_succ_lt_succ hi)).trans ?_
            rw [hsp', Nat.mul_succ, Nat.add_comm (8 * i), BitVec.ofNat_add, ← add_assoc]
            rfl

/-- An interrupt through a gate of `idt.c`. The frame goes below `top`: the stack pointer rounded
down to 16 in ring 0, that of the task state segment in ring 3. Two things are left out: the bit RF
that a fault sets in the RFLAGS it pushes, and pushes that fault themselves. -/
def interrupt (top : BitVec 64) (s : Machine) : Machine :=
  let c := s.cpu
  let frame := [c.ss.setWidth 64, c.gpr .rsp, c.rflags, c.cs.setWidth 64, c.rip]
  let stack := Stack.pushAll ⟨s.mem, top⟩ frame
  { s with
    cpu :=
      { c.set .rsp stack.sp with
        rflags := c.rflags &&& ~~~interruptFlag
        cs := 0x08
        ss := if rpl c.cs = 0 then c.ss else 0 }
    mem := stack.mem }

end Machine

end KiOS
