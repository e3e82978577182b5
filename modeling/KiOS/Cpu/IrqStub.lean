import KiOS.Cpu.Machine
import KiOS.Task.Scheduler

/-!
The stub of the hardware interrupts (`idt_asm.asm`) and the frame it builds.

* `readFrame`: the words at an address as a `registers_t`;
* `irqHead`, `irqTail`: the code of `irq<k>` and `irq_common_stub` before and behind the call of
  `irq_handler`;
* `Registers.Holds`: the fields of a frame hold the registers of a processor;
* `irqHead_frame`: the frame holds the interrupted state;
* `irqTail_loads`: the tail and `iretq` load the registers from a frame;
* `irq_round_trip`: both, with what follows for an unmodified frame and for a new task.
-/

namespace KiOS

/-- The `registers_t` at an address. -/
def readFrame (m : ByteMemory) (p : Ptr) : Registers :=
  let word (i : ℕ) := m.read (p + BitVec.ofNat 64 (8 * i))
  { gs := word 0
    fs := word 1
    es := word 2
    ds := word 3
    r15 := word 4
    r14 := word 5
    r13 := word 6
    r12 := word 7
    r11 := word 8
    r10 := word 9
    r9 := word 10
    r8 := word 11
    rbp := word 12
    rdi := word 13
    rsi := word 14
    rdx := word 15
    rcx := word 16
    rbx := word 17
    rax := word 18
    int_no := word 19
    err_code := word 20
    rip := word 21
    cs := word 22
    rflags := word 23
    rsp := word 24
    ss := word 25 }

namespace Registers

/-- The field of a general register. -/
def gpr (r : Registers) : Gpr → BitVec 64
  | .rax => r.rax
  | .rbx => r.rbx
  | .rcx => r.rcx
  | .rdx => r.rdx
  | .rsi => r.rsi
  | .rdi => r.rdi
  | .rbp => r.rbp
  | .rsp => r.rsp
  | .r8 => r.r8
  | .r9 => r.r9
  | .r10 => r.r10
  | .r11 => r.r11
  | .r12 => r.r12
  | .r13 => r.r13
  | .r14 => r.r14
  | .r15 => r.r15

/-- The field of a data segment. -/
def seg (r : Registers) : DataSeg → BitVec 64
  | .ds => r.ds
  | .es => r.es

/-- Every field holds the register of the same name, those of segments in their low 16 bits. -/
structure Holds (r : Registers) (c : Cpu) : Prop where
  gpr : ∀ x, r.gpr x = c.gpr x
  seg : ∀ x, (r.seg x).setWidth 16 = c.seg x
  rip : r.rip = c.rip
  cs : r.cs.setWidth 16 = c.cs
  rflags : r.rflags = c.rflags
  ss : r.ss.setWidth 16 = c.ss

/-- The registers a frame describes. -/
def cpu (r : Registers) : Cpu where
  gpr := r.gpr
  rip := r.rip
  rflags := r.rflags
  cs := r.cs.setWidth 16
  ss := r.ss.setWidth 16
  seg x := (r.seg x).setWidth 16

lemma holds_cpu (r : Registers) : r.Holds r.cpu :=
  ⟨fun _ => rfl, fun _ => rfl, rfl, rfl, rfl, rfl⟩

/-- The segments of a frame can be loaded: none of an inner ring than the code. -/
def WellFormed (r : Registers) : Prop :=
  ∀ x, (r.seg x).setWidth 16 = 0 ∨ rpl (r.cs.setWidth 16) ≤ dpl ((r.seg x).setWidth 16)

end Registers

/-- The place of a general register in the frame, in words. -/
def frameSlot : Gpr → ℕ
  | .rax => 18
  | .rbx => 17
  | .rcx => 16
  | .rdx => 15
  | .rsi => 14
  | .rdi => 13
  | .rbp => 12
  | .rsp => 24
  | .r8 => 11
  | .r9 => 10
  | .r10 => 9
  | .r11 => 8
  | .r12 => 7
  | .r13 => 6
  | .r14 => 5
  | .r15 => 4

lemma readFrame_gpr (m : ByteMemory) (p : Ptr) (x : Gpr) :
    (readFrame m p).gpr x = m.read (p + BitVec.ofNat 64 (8 * frameSlot x)) := by
  cases x <;> rfl

/-- `irq<k>` and `irq_common_stub` up to the call of `irq_handler`. -/
def irqHead (k : ℕ) : List Instr :=
  [.pushImm 0, .pushImm (BitVec.ofNat 64 (32 + k)),
    .push .rax, .push .rbx, .push .rcx, .push .rdx, .push .rsi, .push .rdi, .push .rbp,
    .push .r8, .push .r9, .push .r10, .push .r11, .push .r12, .push .r13, .push .r14, .push .r15,
    .movAxSeg .ds, .push .rax, .movAxSeg .es, .push .rax, .pushImm 0, .pushImm 0,
    .movAx 0x10, .movSegAx .ds, .movSegAx .es, .mov .rdi .rsp]

/-- The rest of `irq_common_stub`. -/
def irqTail : List Instr :=
  [.mov .rsp .rax, .pop .rax, .pop .rax, .pop .rax, .movSegAx .es, .pop .rax, .movSegAx .ds,
    .pop .r15, .pop .r14, .pop .r13, .pop .r12, .pop .r11, .pop .r10, .pop .r9, .pop .r8,
    .pop .rbp, .pop .rdi, .pop .rsi, .pop .rdx, .pop .rcx, .pop .rbx, .pop .rax,
    .addRsp 16, .iretq]

/-- The machine when `irq_handler` is called. -/
def irqEnter (k : ℕ) (top : BitVec 64) (s : Machine) : Machine :=
  Machine.exec (irqHead k) (s.interrupt top)

/-- The words on the stack then, in the order they were pushed. -/
def irqWords (k : ℕ) (c : Cpu) : List (BitVec 64) :=
  [c.ss.setWidth 64, c.gpr .rsp, c.rflags, c.cs.setWidth 64, c.rip,
    0, BitVec.ofNat 64 (32 + k),
    c.gpr .rax, c.gpr .rbx, c.gpr .rcx, c.gpr .rdx, c.gpr .rsi, c.gpr .rdi, c.gpr .rbp,
    c.gpr .r8, c.gpr .r9, c.gpr .r10, c.gpr .r11, c.gpr .r12, c.gpr .r13, c.gpr .r14, c.gpr .r15,
    setLow16 (c.gpr .rax) (c.seg .ds),
    setLow16 (setLow16 (c.gpr .rax) (c.seg .ds)) (c.seg .es), 0, 0]

lemma irqEnter_mem (k : ℕ) (top : BitVec 64) (s : Machine) :
    (irqEnter k top s).mem = (Stack.pushAll ⟨s.mem, top⟩ (irqWords k s.cpu)).mem := by
  rfl

lemma irqEnter_rdi (k : ℕ) (top : BitVec 64) (s : Machine) :
    (irqEnter k top s).cpu.gpr .rdi = (Stack.pushAll ⟨s.mem, top⟩ (irqWords k s.cpu)).sp := by
  rfl

/-- The words of the frame: the last one pushed is the first one. -/
lemma read_irqEnter (k : ℕ) (top : BitVec 64) (s : Machine) {i : ℕ} (hi : i < 26) :
    (irqEnter k top s).mem.read ((irqEnter k top s).cpu.gpr .rdi + BitVec.ofNat 64 (8 * i))
      = (irqWords k s.cpu).getD (25 - i) 0 := by
  have hlen : (irqWords k s.cpu).length = 26 := rfl
  rw [irqEnter_mem, irqEnter_rdi, Stack.read_sp_pushAll _ _ (by omega) (by omega),
    List.getD_eq_getElem _ _ (by omega)]
  rfl

/-- A frame lies below the top of its stack. -/
lemma irqWords_outside {m : ByteMemory} {top b : BitVec 64} (line : ℕ) (c : Cpu)
    (htop : 208 ≤ top.toNat) (hb : top.toNat ≤ b.toNat ∨ b.toNat + 208 < top.toNat) :
    (Stack.pushAll ⟨m, top⟩ (irqWords line c)).mem b = m b := by
  have hlt := top.isLt
  have hlen : 8 * (irqWords line c).length = 208 := rfl
  have hsp : (top - BitVec.ofNat 64 208).toNat = top.toNat - 208 := by
    rw [BitVec.toNat_sub, BitVec.toNat_ofNat]
    omega
  refine Stack.pushAll_outside ?_
  rw [Stack.sp_pushAll, hlen]
  dsimp only
  rcases hb with hb | hb
  · exact ByteMemory.le_toNat_sub_of_le (by omega)
  · exact ByteMemory.le_toNat_sub_of_lt (by omega) (by omega)

lemma setWidth_setLow16 (x : BitVec 64) (v : BitVec 16) : (setLow16 x v).setWidth 16 = v := by
  refine BitVec.eq_of_getLsbD_eq fun i hi => ?_
  rw [setLow16, BitVec.getLsbD_setWidth, BitVec.getLsbD_append]
  simp [hi]

/-- **The frame** that `irq_handler` gets holds the interrupted state. -/
lemma irqHead_frame (k : ℕ) (top : BitVec 64) (s : Machine) :
    (readFrame (irqEnter k top s).mem ((irqEnter k top s).cpu.gpr .rdi)).Holds s.cpu
      ∧ (readFrame (irqEnter k top s).mem ((irqEnter k top s).cpu.gpr .rdi)).int_no
        = BitVec.ofNat 64 (32 + k) := by
  have hword := fun i (hi : i < 26) => read_irqEnter k top s hi
  refine ⟨⟨fun x => ?_, fun x => ?_, hword 21 (by decide), ?_, hword 23 (by decide), ?_⟩,
    hword 19 (by decide)⟩
  · have hslot : frameSlot x < 26 := by cases x <;> decide
    rw [readFrame_gpr, hword _ hslot]
    cases x <;> rfl
  · cases x with
    | ds =>
        exact (congrArg (BitVec.setWidth 16) (hword 3 (by decide))).trans (setWidth_setLow16 _ _)
    | es =>
        exact (congrArg (BitVec.setWidth 16) (hword 2 (by decide))).trans (setWidth_setLow16 _ _)
  · refine (congrArg (BitVec.setWidth 16) (hword 22 (by decide))).trans ?_
    exact (BitVec.setWidth_setWidth_of_le _ (by decide : 16 ≤ 64)).trans (BitVec.setWidth_eq _)
  · refine (congrArg (BitVec.setWidth 16) (hword 25 (by decide))).trans ?_
    exact (BitVec.setWidth_setWidth_of_le _ (by decide : 16 ≤ 64)).trans (BitVec.setWidth_eq _)

/-! ### The way back -/

/-- A segment of a well-formed frame is not lost. -/
lemma Registers.WellFormed.returnSeg {r : Registers} (h : r.WellFormed) (x : DataSeg) :
    Cpu.returnSeg (rpl (r.cs.setWidth 16)) ((r.seg x).setWidth 16) = (r.seg x).setWidth 16 := by
  cases h x with
  | inl h0 => simp [Cpu.returnSeg, h0]
  | inr hle => exact if_neg (BitVec.not_lt.mpr hle)

/-- The registers that the tail pops one after the other. -/
def poppedGprs : List Gpr :=
  [.r15, .r14, .r13, .r12, .r11, .r10, .r9, .r8, .rbp, .rdi, .rsi, .rdx, .rcx, .rbx, .rax]

/-- The tail in three parts: the segments, the general registers, and the rest. -/
lemma exec_irqTail (s : Machine) :
    Machine.exec irqTail s = ((Machine.exec (poppedGprs.map .pop)
      (Machine.exec (irqTail.take 7) s)).step (.addRsp 16)).iretq :=
  rfl

/-- The machine once the segments are loaded. -/
lemma exec_segments (s : Machine) :
    (Machine.exec (irqTail.take 7) s).mem = s.mem
      ∧ (Machine.exec (irqTail.take 7) s).cpu.gpr .rsp = s.cpu.gpr .rax + 8 + 8 + 8 + 8
      ∧ ∀ x, (Machine.exec (irqTail.take 7) s).cpu.seg x
        = ((readFrame s.mem (s.cpu.gpr .rax)).seg x).setWidth 16 := by
  refine ⟨rfl, rfl, fun x => ?_⟩
  cases x with
  | ds =>
      have haddr : s.cpu.gpr .rax + 8 + 8 + 8 + BitVec.ofNat 64 (8 * 0)
          = s.cpu.gpr .rax + BitVec.ofNat 64 (8 * 3) := by
        rw [add_assoc, add_assoc, add_assoc,
          show (8 : BitVec 64) + (8 + (8 + BitVec.ofNat 64 (8 * 0)))
          = BitVec.ofNat 64 (8 * 3) by decide]
      exact congrArg (fun a => (s.mem.read a).setWidth 16) haddr
  | es =>
      have haddr : s.cpu.gpr .rax + 8 + 8 + BitVec.ofNat 64 (8 * 0)
          = s.cpu.gpr .rax + BitVec.ofNat 64 (8 * 2) := by
        rw [add_assoc, add_assoc, show (8 : BitVec 64) + (8 + BitVec.ofNat 64 (8 * 0))
          = BitVec.ofNat 64 (8 * 2) by decide]
      exact congrArg (fun a => (s.mem.read a).setWidth 16) haddr

/-- **The tail** of the stub loads the frame that `rax` points to. -/
lemma irqTail_loads (s : Machine) (h : (readFrame s.mem (s.cpu.gpr .rax)).WellFormed) :
    (readFrame s.mem (s.cpu.gpr .rax)).Holds (Machine.exec irqTail s).cpu := by
  rw [exec_irqTail]
  obtain ⟨hmem, hsp, hseg⟩ := exec_segments s
  obtain ⟨hmem', hseg', hsp', hrest, hpop⟩ := Machine.exec_pops poppedGprs (by decide)
    (by decide) (Machine.exec (irqTail.take 7) s)
  rw [hmem, hsp] at hpop
  rw [hmem] at hmem'
  rw [hsp] at hsp'
  generalize Machine.exec (irqTail.take 7) s = t at *
  generalize Machine.exec (poppedGprs.map .pop) t = u at *
  have hsp₄ : s.cpu.gpr .rax + 8 + 8 + 8 + 8 = s.cpu.gpr .rax + BitVec.ofNat 64 (8 * 4) := by
    rw [add_assoc, add_assoc, add_assoc, show (8 : BitVec 64) + (8 + (8 + 8))
      = BitVec.ofNat 64 (8 * 4) by decide]
  have hword : ∀ i (hi : i < poppedGprs.length), s.mem.read
      (s.cpu.gpr .rax + BitVec.ofNat 64 (8 * (4 + i))) = u.cpu.gpr poppedGprs[i] := by
    intro i hi
    rw [hpop i hi, hsp₄, add_assoc, ← BitVec.ofNat_add, ← Nat.mul_add]
  have hiretq : ∀ j, s.mem.read (s.cpu.gpr .rax + BitVec.ofNat 64 (8 * (21 + j)))
      = (u.step (.addRsp 16)).peek j := by
    intro j
    have hrsp : (u.step (.addRsp 16)).cpu.gpr .rsp
        = s.cpu.gpr .rax + BitVec.ofNat 64 (8 * 21) := by
      refine (Cpu.gpr_set_self ..).trans ?_
      rw [hsp', hsp₄, add_assoc, add_assoc, show BitVec.ofNat 64 (8 * 4)
        + (BitVec.ofNat 64 (8 * poppedGprs.length) + 16) = BitVec.ofNat 64 (8 * 21) by decide]
    rw [Machine.peek, hrsp, add_assoc, ← BitVec.ofNat_add, ← Nat.mul_add]
    exact congrArg (fun m => ByteMemory.read m _) hmem'.symm
  refine ⟨fun x => ?_, fun x => ?_, ?_, ?_, ?_, ?_⟩
  · rw [readFrame_gpr]
    by_cases hx : x = .rsp
    · rw [hx, Machine.iretq_rsp]
      exact hiretq 3
    · obtain ⟨i, hi, rfl, hslot⟩ :
          ∃ i, ∃ hi : i < poppedGprs.length, poppedGprs[i] = x ∧ frameSlot x = 4 + i := by
        refine ⟨frameSlot x - 4, ?_, ?_, ?_⟩ <;> cases x <;>
          first | rfl | decide | exact absurd rfl hx
      rw [hslot, hword i hi, Machine.iretq_gpr _ hx]
      exact (u.cpu.gpr_set_ne _ hx).symm
  · refine (h.returnSeg x).symm.trans ?_
    rw [← hseg x, ← hseg']
    exact congrArg (fun cs => Cpu.returnSeg (rpl cs) (u.cpu.seg x))
      (congrArg (BitVec.setWidth 16) (hiretq 1))
  · exact hiretq 0
  · exact congrArg (BitVec.setWidth 16) (hiretq 1)
  · exact hiretq 2
  · exact congrArg (BitVec.setWidth 16) (hiretq 4)

/-- The stub leaves memory and the bases of GS alone. -/
lemma irqTail_frame (s : Machine) :
    (Machine.exec irqTail s).mem = s.mem ∧ (Machine.exec irqTail s).gsBase = s.gsBase
      ∧ (Machine.exec irqTail s).kernelGsBase = s.kernelGsBase :=
  ⟨rfl, rfl, rfl⟩

/-- A frame holds the registers of at most one processor. -/
lemma Registers.Holds.unique {r : Registers} {c d : Cpu} (hc : r.Holds c) (hd : r.Holds d) :
    c = d := by
  obtain ⟨gpr, rip, rflags, cs, ss, seg⟩ := c
  obtain ⟨gpr', rip', rflags', cs', ss', seg'⟩ := d
  obtain rfl : gpr = gpr' := funext fun x => (hc.gpr x).symm.trans (hd.gpr x)
  obtain rfl : seg = seg' := funext fun x => (hc.seg x).symm.trans (hd.seg x)
  obtain rfl : rip = rip' := hc.rip.symm.trans hd.rip
  obtain rfl : rflags = rflags' := hc.rflags.symm.trans hd.rflags
  obtain rfl : cs = cs' := hc.cs.symm.trans hd.cs
  obtain rfl : ss = ss' := hc.ss.symm.trans hd.ss
  rfl

/-! ### The round trip -/

/-- The data segments of a processor are none of an inner ring than its code. Loading one there
faults, and the way there takes it away. -/
def Cpu.SegmentsOk (c : Cpu) : Prop := ∀ x, c.seg x = 0 ∨ rpl c.cs ≤ dpl (c.seg x)

lemma Registers.Holds.wellFormed {r : Registers} {c : Cpu} (h : r.Holds c) (hc : c.SegmentsOk) :
    r.WellFormed := by
  intro x
  rw [h.seg, h.cs]
  exact hc x

/-- The frame of a new task sets the segments of the kernel. -/
lemma wellFormed_initialRegisters (entry stackTop : BitVec 64) :
    (initialRegisters entry stackTop).WellFormed := by
  have hkernel : rpl (BitVec.setWidth 16 (0x08 : BitVec 64))
      ≤ dpl (BitVec.setWidth 16 (0x10 : BitVec 64)) := by decide
  intro x
  cases x <;> exact Or.inr hkernel

/-- What `task_create` leaves in the block of the task and in its frame. -/
lemma taskCreate_frame {name : List Char} {entry stackSize : BitVec 64} {task stack : Option Ptr}
    {sched : Sched} {t : Ptr}
    (h : (taskCreate name entry stackSize task stack sched).1 = some t) :
    (taskCreate name entry stackSize task stack sched).2.frame
        ((taskCreate name entry stackSize task stack sched).2.tcb t).regs
      = initialRegisters entry
        ((taskCreate name entry stackSize task stack sched).2.tcb t).regs := by
  unfold taskCreate at *
  by_cases hfull : maxTasks ≤ sched.taskList.length
  · rw [if_pos hfull] at h
    cases h
  rw [if_neg hfull] at *
  cases task with
  | none => cases h
  | some t' =>
      cases stack with
      | none => cases h
      | some p =>
          cases hc : sched.currentTask <;> rw [hc] at h <;> cases h <;>
            simp only [Function.update_self]

/-- **The round trip of an interrupt**: the frame that `irq_handler` gets holds the interrupted
state and the number of the interrupt, the frame it returns is loaded, so an unmodified frame
restores the state, and the first switch to a new task starts it at its entry. -/
theorem irq_round_trip :
    (∀ (k : Fin 16) (top : BitVec 64) (s : Machine),
      (readFrame (irqEnter k top s).mem ((irqEnter k top s).cpu.gpr .rdi)).Holds s.cpu
        ∧ (readFrame (irqEnter k top s).mem ((irqEnter k top s).cpu.gpr .rdi)).int_no
          = BitVec.ofNat 64 (32 + k))
    ∧ (∀ s : Machine, (readFrame s.mem (s.cpu.gpr .rax)).WellFormed →
      (readFrame s.mem (s.cpu.gpr .rax)).Holds (Machine.exec irqTail s).cpu
        ∧ (Machine.exec irqTail s).gsBase = s.gsBase
        ∧ (Machine.exec irqTail s).kernelGsBase = s.kernelGsBase)
    ∧ (∀ (k : Fin 16) (top : BitVec 64) (s : Machine) (irqHandler : Machine → Machine),
      s.cpu.SegmentsOk →
      (irqHandler (irqEnter k top s)).cpu.gpr .rax = (irqEnter k top s).cpu.gpr .rdi →
      readFrame (irqHandler (irqEnter k top s)).mem ((irqEnter k top s).cpu.gpr .rdi)
        = readFrame (irqEnter k top s).mem ((irqEnter k top s).cpu.gpr .rdi) →
      (Machine.exec irqTail (irqHandler (irqEnter k top s))).cpu = s.cpu)
    ∧ (∀ name entry stackSize task stack sched t,
      (taskCreate name entry stackSize task stack sched).1 = some t →
      ∀ s : Machine,
        s.cpu.gpr .rax = ((taskCreate name entry stackSize task stack sched).2.tcb t).regs →
        readFrame s.mem (s.cpu.gpr .rax)
          = (taskCreate name entry stackSize task stack sched).2.frame (s.cpu.gpr .rax) →
        (Machine.exec irqTail s).cpu.rip = entry
          ∧ (Machine.exec irqTail s).cpu.gpr .rsp
            = ((taskCreate name entry stackSize task stack sched).2.frame (s.cpu.gpr .rax)).rsp
          ∧ (Machine.exec irqTail s).cpu.rflags = 0x202) := by
  refine ⟨fun k top s => irqHead_frame k top s, fun s h => ?_, ?_, ?_⟩
  · exact ⟨irqTail_loads s h, (irqTail_frame s).2⟩
  · intro k top s irqHandler hseg hrax hframe
    have hsaved := (irqHead_frame k top s).1
    rw [← hframe, ← hrax] at hsaved
    exact (irqTail_loads _ (hsaved.wellFormed hseg)).unique hsaved
  · intro name entry stackSize task stack sched t ht s hrax hframe
    have hinitial := taskCreate_frame ht
    rw [← hrax] at hinitial
    rw [hinitial] at hframe ⊢
    have hloads := irqTail_loads s (hframe ▸ wellFormed_initialRegisters _ _)
    rw [hframe] at hloads
    exact ⟨hloads.rip.symm, (hloads.gpr .rsp).symm, hloads.rflags.symm⟩

/-- A processor in the loop of the kernel. -/
def idleCpu : Cpu where
  gpr _ := 0x4FFF00
  rip := 0x101000
  rflags := 0x202
  cs := 0x08
  ss := 0x10
  seg _ := 0x10

/-- The machine around it. -/
def idleMachine : Machine := ⟨idleCpu, 0, 0x120000, fun _ => 0⟩

/-- A handler that returns the frame it got. -/
def returnFrame (s : Machine) : Machine := s.set .rax (s.cpu.gpr .rdi)

lemma returnFrame_mem (s : Machine) : (returnFrame s).mem = s.mem := rfl

lemma returnFrame_rax (s : Machine) : (returnFrame s).cpu.gpr .rax = s.cpu.gpr .rdi :=
  Cpu.gpr_set_self ..

/-- The statement for a timer interrupt that does not switch. -/
theorem irq_round_trip_idle :
    (Machine.exec irqTail (returnFrame (irqEnter (0 : Fin 16) 0x4FFF00 idleMachine))).cpu
      = idleMachine.cpu := by
  have hseg : idleMachine.cpu.SegmentsOk := fun x => Or.inr (by cases x <;> decide)
  refine irq_round_trip.2.2.1 0 0x4FFF00 idleMachine returnFrame hseg (returnFrame_rax _) ?_
  rw [returnFrame_mem]

end KiOS
