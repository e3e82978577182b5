import KiOS.Cpu.DescriptorTables
import KiOS.Cpu.IrqStub
import KiOS.Library.Align

/-!
Exceptions (`idt_asm.asm`), from the processor's push to the frame that `isr_handler` gets.

The processor pushes an error code for some exceptions, and the stub of an exception pushes a zero
in its place where the source says `ISR_NOERRCODE`. The frame fits its structure only where the two
agree.

* `pushesErrorCode`, `stubErrorCode`: the two conventions;
* `Machine.raise`: the processor's part, through the interrupt table and the task state segment;
* `isrHead`: the stub up to the call of `isr_handler`;
* `FrameTruthful`: what `isr_handler` is owed;
* `exception_frames`: for which exceptions it gets it;
* `double_fault_stack`: the double fault leaves every byte outside its own stack alone.
-/

namespace KiOS

/-- The exceptions for which the processor pushes an error code. -/
def pushesErrorCode (v : Fin 32) : Bool := v.val ∈ [8, 10, 11, 12, 13, 14, 17, 21, 29, 30]

/-- The exceptions whose stub is an `ISR_ERRCODE`. -/
def stubErrorCode (v : Fin 32) : Bool := v.val ∈ [8, 10, 11, 12, 13, 14, 17, 30]

/-- `isr_common_stub` up to the call of `isr_handler`. -/
def isrCommonHead : List Instr :=
  [.push .rax, .push .rbx, .push .rcx, .push .rdx, .push .rsi, .push .rdi, .push .rbp,
    .push .r8, .push .r9, .push .r10, .push .r11, .push .r12, .push .r13, .push .r14, .push .r15,
    .movAxSeg .ds, .push .rax, .movAxSeg .es, .push .rax, .pushImm 0, .pushImm 0,
    .movAx 0x10, .movSegAx .ds, .movSegAx .es, .mov .rdi .rsp]

/-- `isr<v>`. -/
def isrHead (v : Fin 32) : List Instr :=
  (if stubErrorCode v then [] else [.pushImm 0]) ++ .pushImm (BitVec.ofNat 64 v) :: isrCommonHead

/-- The tables that the processor uses. -/
structure CpuTables where
  idt : Idt
  tss : BitVec 832

/-- The stack pointer that the frame of an interrupt goes below: that of the interrupt stack table,
of ring 0, or the old one, rounded down to 16. -/
def entryStack (t : CpuTables) (g : Gate) (s : Machine) : BitVec 64 :=
  (if g.ist ≠ 0 then tssIst t.tss g.ist
    else if rpl s.cpu.cs = 0 then s.cpu.gpr .rsp
    else tssRsp0 t.tss) &&& ~~~(0xF : BitVec 64)

/-- An exception with its error code, up to the first instruction of the stub; `none` if the
vector has no gate. As in `Machine.interrupt` the pushed RF is that of before, and no push
faults. -/
def Machine.raise (t : CpuTables) (v : Fin 32) (code : BitVec 64) (s : Machine) : Option Machine :=
  (gateAt t.idt idtLimit (BitVec.ofNat 8 v)).bind fun g =>
    if g.present then
      let m := s.interrupt (entryStack t g s)
      let m := if pushesErrorCode v then m.push code else m
      some { m with cpu := { m.cpu with rip := g.offset, cs := g.selector } }
    else none

/-- The machine when `isr_handler` is called. -/
def isrEnter (t : CpuTables) (v : Fin 32) (code : BitVec 64) (s : Machine) : Option Machine :=
  (s.raise t v code).map (Machine.exec (isrHead v))

/-- What `isr_handler` is owed of the frame at `rdi`: it holds the interrupted registers, the number
of the exception and its error code, `0` if it has none. -/
structure FrameTruthful (v : Fin 32) (code : BitVec 64) (s m : Machine) : Prop where
  holds : (readFrame m.mem (m.cpu.gpr .rdi)).Holds s.cpu
  int_no : (readFrame m.mem (m.cpu.gpr .rdi)).int_no = BitVec.ofNat 64 v
  err_code : (readFrame m.mem (m.cpu.gpr .rdi)).err_code = if pushesErrorCode v then code else 0

/-- The tables that the kernel has set up. -/
def kernelTables (stub : ℕ → BitVec 64) (dfStack kernelStack : BitVec 64) : CpuTables where
  idt := idtInit stub
  tss := (tssSetKernelStack kernelStack (tssInit dfStack 8192)).bits

/-! ### The words on the stack -/

/-- What the common part of the stub pushes. -/
def commonWords (c : Cpu) : List (BitVec 64) :=
  [c.gpr .rax, c.gpr .rbx, c.gpr .rcx, c.gpr .rdx, c.gpr .rsi, c.gpr .rdi, c.gpr .rbp,
    c.gpr .r8, c.gpr .r9, c.gpr .r10, c.gpr .r11, c.gpr .r12, c.gpr .r13, c.gpr .r14, c.gpr .r15,
    setLow16 (c.gpr .rax) (c.seg .ds),
    setLow16 (setLow16 (c.gpr .rax) (c.seg .ds)) (c.seg .es), 0, 0]

/-- What the processor pushes. -/
def cpuWords (v : Fin 32) (code : BitVec 64) (c : Cpu) : List (BitVec 64) :=
  [c.ss.setWidth 64, c.gpr .rsp, c.rflags, c.cs.setWidth 64, c.rip]
    ++ if pushesErrorCode v then [code] else []

/-- All of them, in the order they are pushed. -/
def isrWords (v : Fin 32) (code : BitVec 64) (c : Cpu) : List (BitVec 64) :=
  cpuWords v code c ++ (if stubErrorCode v then [] else [0]) ++ [BitVec.ofNat 64 v] ++ commonWords c

/-- The words lie below the stack that the gate chose. -/
lemma isrEnter_stack {t : CpuTables} {v : Fin 32} {g : Gate} (s : Machine) (code : BitVec 64)
    (hg : gateAt t.idt idtLimit (BitVec.ofNat 8 v) = some g) (hp : g.present = true) :
    ∃ m, isrEnter t v code s = some m
      ∧ m.mem = (Stack.pushAll ⟨s.mem, entryStack t g s⟩ (isrWords v code s.cpu)).mem
      ∧ m.cpu.gpr .rdi = (Stack.pushAll ⟨s.mem, entryStack t g s⟩ (isrWords v code s.cpu)).sp := by
  have hraise : s.raise t v code = some
      (let m := s.interrupt (entryStack t g s)
       let m := if pushesErrorCode v then m.push code else m
       { m with cpu := { m.cpu with rip := g.offset, cs := g.selector } }) := by
    rw [Machine.raise, hg, Option.bind_some, if_pos hp]
  refine ⟨_, by rw [isrEnter, hraise, Option.map_some], ?_, ?_⟩
  · rw [isrHead, isrWords, cpuWords]
    cases pushesErrorCode v <;> cases stubErrorCode v <;> rfl
  · rw [isrHead, isrWords, cpuWords]
    cases pushesErrorCode v <;> cases stubErrorCode v <;> rfl

/-- The two conventions differ for two exceptions. -/
lemma pushesErrorCode_eq_iff (v : Fin 32) :
    pushesErrorCode v = stubErrorCode v ↔ v ≠ 21 ∧ v ≠ 29 := by
  revert v
  decide

/-- The stub does not push a zero where the processor pushes no error code only there. -/
lemma stub_of_pushesErrorCode {v : Fin 32} (h : v = 21 ∨ v = 29) :
    pushesErrorCode v = true ∧ stubErrorCode v = false := by
  rcases h with rfl | rfl <;> decide

lemma pushesErrorCode_of_stub {v : Fin 32} (h : stubErrorCode v = true) :
    pushesErrorCode v = true := by
  revert v
  decide

/-- Where they agree, the words are those of a `registers_t`. -/
lemma isrWords_of_agree {v : Fin 32} (h : pushesErrorCode v = stubErrorCode v) (code : BitVec 64)
    (c : Cpu) :
    isrWords v code c = [c.ss.setWidth 64, c.gpr .rsp, c.rflags, c.cs.setWidth 64, c.rip,
      if pushesErrorCode v then code else 0, BitVec.ofNat 64 v] ++ commonWords c := by
  rw [isrWords, cpuWords, ← h]
  cases pushesErrorCode v <;> rfl

/-- A word of the frame: the last one pushed is the first one. -/
lemma read_isrEnter {s m : Machine} {top : BitVec 64} {v : Fin 32} {code : BitVec 64}
    (hmem : m.mem = (Stack.pushAll ⟨s.mem, top⟩ (isrWords v code s.cpu)).mem)
    (hrdi : m.cpu.gpr .rdi = (Stack.pushAll ⟨s.mem, top⟩ (isrWords v code s.cpu)).sp) {i : ℕ}
    (hi : i < 26) :
    m.mem.read (m.cpu.gpr .rdi + BitVec.ofNat 64 (8 * i))
      = (isrWords v code s.cpu).getD ((isrWords v code s.cpu).length - 1 - i) 0 := by
  have hlen : 26 ≤ (isrWords v code s.cpu).length ∧ (isrWords v code s.cpu).length ≤ 27 := by
    rw [isrWords, cpuWords]
    have hagree := pushesErrorCode_of_stub (v := v)
    cases hp : pushesErrorCode v <;> cases hs : stubErrorCode v
    · exact ⟨le_rfl, Nat.le_succ _⟩
    · exact absurd (hagree hs) (by rw [hp]; decide)
    · exact ⟨Nat.le_succ _, le_rfl⟩
    · exact ⟨le_rfl, Nat.le_succ _⟩
  rw [hmem, hrdi, Stack.read_sp_pushAll _ _ (by omega) (by omega),
    List.getD_eq_getElem _ _ (by omega)]

/-- **The frame of an exception** fits, if the stub knows whether there is an error code. -/
lemma frameTruthful_of_agree {s m : Machine} {top : BitVec 64} {v : Fin 32} {code : BitVec 64}
    (h : pushesErrorCode v = stubErrorCode v)
    (hmem : m.mem = (Stack.pushAll ⟨s.mem, top⟩ (isrWords v code s.cpu)).mem)
    (hrdi : m.cpu.gpr .rdi = (Stack.pushAll ⟨s.mem, top⟩ (isrWords v code s.cpu)).sp) :
    FrameTruthful v code s m := by
  have hword := fun i (hi : i < 26) => read_isrEnter hmem hrdi hi
  rw [isrWords_of_agree h] at hword
  refine ⟨⟨fun x => ?_, fun x => ?_, hword 21 (by decide), ?_, hword 23 (by decide), ?_⟩,
    hword 19 (by decide), hword 20 (by decide)⟩
  · have hslot : frameSlot x < 26 := by cases x <;> decide
    rw [readFrame_gpr, hword _ hslot]
    cases x <;> rfl
  · cases x with
    | ds =>
        exact (congrArg (BitVec.setWidth 16) (hword 3 (by decide))).trans (setWidth_setLow16 _ _)
    | es =>
        exact (congrArg (BitVec.setWidth 16) (hword 2 (by decide))).trans (setWidth_setLow16 _ _)
  · refine (congrArg (BitVec.setWidth 16) (hword 22 (by decide))).trans ?_
    exact (BitVec.setWidth_setWidth_of_le _ (by decide : 16 ≤ 64)).trans (BitVec.setWidth_eq _)
  · refine (congrArg (BitVec.setWidth 16) (hword 25 (by decide))).trans ?_
    exact (BitVec.setWidth_setWidth_of_le _ (by decide : 16 ≤ 64)).trans (BitVec.setWidth_eq _)

/-- Where they do not, the error code is read from the zero of the stub. -/
lemma err_code_of_pushesErrorCode {s m : Machine} {top : BitVec 64} {v : Fin 32} {code : BitVec 64}
    (h : pushesErrorCode v = true ∧ stubErrorCode v = false)
    (hmem : m.mem = (Stack.pushAll ⟨s.mem, top⟩ (isrWords v code s.cpu)).mem)
    (hrdi : m.cpu.gpr .rdi = (Stack.pushAll ⟨s.mem, top⟩ (isrWords v code s.cpu)).sp) :
    (readFrame m.mem (m.cpu.gpr .rdi)).err_code = 0 := by
  have hword := read_isrEnter hmem hrdi (show 20 < 26 by decide)
  rw [isrWords, cpuWords, h.1, h.2] at hword
  exact hword

/-! ### Every exception -/

/-- The gate of an exception in the kernel's table. -/
lemma gateAt_kernelTables (stub : ℕ → BitVec 64) (dfStack kernelStack : BitVec 64) (v : Fin 32) :
    gateAt (kernelTables stub dfStack kernelStack).idt idtLimit (BitVec.ofNat 8 v)
      = some ⟨stub v, 0x08, if v = 8 then 1 else 0, 0xE, 0, true⟩ := by
  have hv : (BitVec.ofNat 8 v).toNat = v := by
    rw [BitVec.toNat_ofNat]
    exact Nat.mod_eq_of_lt (by omega)
  have h8 : BitVec.ofNat 8 (v : ℕ) = 8 ↔ v = 8 := by
    revert v
    decide
  rw [kernelTables, gateAt_idtInit, hv, if_pos (by omega)]
  simp only [h8]

/-- **The frames of the exceptions**: with the kernel's tables `isr_handler` gets the interrupted
registers, the number and the error code of every exception, whatever the machine was doing, but
for the two with an error code that the stubs do not know. -/
theorem exception_frames (stub : ℕ → BitVec 64) (dfStack kernelStack : BitVec 64) (v : Fin 32) :
    (∀ s code, ∃ m, isrEnter (kernelTables stub dfStack kernelStack) v code s = some m
      ∧ FrameTruthful v code s m) ↔ v ≠ 21 ∧ v ≠ 29 := by
  have hgate := gateAt_kernelTables stub dfStack kernelStack v
  constructor
  · intro h
    by_contra hv
    have hv : v = 21 ∨ v = 29 := by tauto
    -- an error code that is not zero is lost
    obtain ⟨m, hm, htruth⟩ := h idleMachine 1
    obtain ⟨m', hm', hmem, hrdi⟩ := isrEnter_stack idleMachine 1 hgate rfl
    obtain rfl : m = m' := Option.some_inj.mp (hm.symm.trans hm')
    have hpush := stub_of_pushesErrorCode hv
    have herr := htruth.err_code
    rw [err_code_of_pushesErrorCode hpush hmem hrdi, if_pos hpush.1] at herr
    exact absurd herr (by decide)
  · intro hv s code
    obtain ⟨m, hm, hmem, hrdi⟩ := isrEnter_stack s code hgate rfl
    exact ⟨m, hm, frameTruthful_of_agree ((pushesErrorCode_eq_iff v).mpr hv) hmem hrdi⟩

/-- Rounding down to 16 drops less than 16. -/
lemma and_not_15 (x : BitVec 64) :
    ∃ r < 16, x &&& ~~~(0xF : BitVec 64) = x - BitVec.ofNat 64 r := by
  have hdown : (x &&& ~~~(0xF : BitVec 64)).toNat = x.toNat / 2 ^ 4 * 2 ^ 4 :=
    BitVec.toNat_alignDown (k := 4) (x := x)
  refine ⟨x.toNat % 16, Nat.mod_lt _ (by norm_num), BitVec.eq_of_toNat_eq ?_⟩
  have hlt := x.isLt
  rw [hdown, BitVec.toNat_sub, BitVec.toNat_ofNat]
  omega

/-- **The stack of the double fault**: wherever the stack pointer was, `isr_handler` gets its frame,
and no byte outside the stack that the kernel set aside has changed. -/
theorem double_fault_stack (stub : ℕ → BitVec 64) (dfStack kernelStack : BitVec 64) (s : Machine)
    (code : BitVec 64) :
    ∃ m, isrEnter (kernelTables stub dfStack kernelStack) 8 code s = some m
      ∧ FrameTruthful 8 code s m ∧ ∀ b, 8192 ≤ (b - dfStack).toNat → m.mem b = s.mem b := by
  have hgate := gateAt_kernelTables stub dfStack kernelStack 8
  obtain ⟨m, hm, hmem, hrdi⟩ := isrEnter_stack s code hgate rfl
  refine ⟨m, hm, frameTruthful_of_agree rfl hmem hrdi, fun b hb => ?_⟩
  have hist : tssIst (kernelTables stub dfStack kernelStack).tss 1 = dfStack + 8192 :=
    (tss_stacks (tssSetKernelStack kernelStack (tssInit dfStack 8192))).2.1
  obtain ⟨r, hr, htop⟩ := and_not_15 (dfStack + 8192)
  have hentry : entryStack (kernelTables stub dfStack kernelStack)
      ⟨stub ↑(8 : Fin 32), 0x08, if (8 : Fin 32) = 8 then 1 else 0, 0xE, 0, true⟩ s
      = dfStack + 8192 - BitVec.ofNat 64 r := by
    rw [if_pos rfl, entryStack, if_pos (show (1 : BitVec 3) ≠ 0 by decide), hist, htop]
  have hlen : (isrWords 8 code s.cpu).length = 26 := rfl
  rw [hmem]
  refine Stack.pushAll_outside ?_
  have hsp : (Stack.pushAll ⟨s.mem, dfStack + 8192 - BitVec.ofNat 64 r⟩ (isrWords 8 code s.cpu)).sp
      = dfStack + BitVec.ofNat 64 (8192 - r - 208) := by
    rw [Stack.sp_pushAll, hlen]
    bv_omega
  rw [hentry, hsp, hlen]
  have hlt := (b - dfStack).isLt
  rw [← sub_sub, BitVec.toNat_sub, BitVec.toNat_ofNat]
  omega

end KiOS
