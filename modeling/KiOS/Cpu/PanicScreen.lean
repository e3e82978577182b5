import KiOS.Commands.Report
import KiOS.Cpu.Exceptions

/-!
The report of an exception (`isr_handler`).

* `exceptionMessages`, `isrHandler`: the function of the source, up to its `cli` and the loop of
  `hlt`;
* `PanicData`: what the report is about, and its lines;
* `lines_injective`: the lines tell it all;
* `panic_screen`: the screen shows the truth about the exception.
-/

namespace KiOS

/-- `exception_messages`. -/
def exceptionMessages : List String :=
  ["Division By Zero", "Debug", "Non Maskable Interrupt", "Breakpoint", "Overflow",
    "Bound Range Exceeded", "Invalid Opcode", "Device Not Available", "Double Fault",
    "Coprocessor Segment Overrun", "Invalid TSS", "Segment Not Present", "Stack Fault",
    "General Protection Fault", "Page Fault", "Reserved", "x87 FPU Error", "Alignment Check",
    "Machine Check", "SIMD Floating-Point Exception", "Reserved", "Reserved", "Reserved",
    "Reserved", "Reserved", "Reserved", "Reserved", "Reserved", "Reserved", "Reserved",
    "Security Exception", "Reserved"]

/-- The two rules of the report. -/
def panicRule : String := "==========================================="

open VgaRun in
/-- `isr_handler`, for what each call of `vga_print_dec` and `vga_print_hex` finds in its local
buffer: the screen with which the system halts. -/
def isrHandler (dec hex : ℕ → Chars) (regs : Registers) : VgaRun → Option VgaRun :=
  inTurn
    [setColor 15 4,
      println "",
      println panicRule,
      print "  EXCEPTION: ",
      if regs.int_no < 32 then println (exceptionMessages.getD regs.int_no.toNat "")
      else inTurn [print "Unknown Exception #", printDec (dec 0) regs.int_no, println ""],
      println panicRule,
      setColor 7 0,
      print "  INT#:    ", printDec (dec 1) regs.int_no, println "",
      print "  ERRCODE: 0x", printHex (hex 0) regs.err_code, println "",
      print "  RIP:     0x", printHex (hex 1) regs.rip, println "",
      print "  CS:      0x", printHex (hex 2) regs.cs, println "",
      print "  RFLAGS:  0x", printHex (hex 3) regs.rflags, println "",
      print "  RSP:     0x", printHex (hex 4) regs.rsp, println "",
      print "  SS:      0x", printHex (hex 5) regs.ss, println "",
      println "",
      print "  RAX: 0x", printHex (hex 6) regs.rax,
      print "  RBX: 0x", printHex (hex 7) regs.rbx, println "",
      print "  RCX: 0x", printHex (hex 8) regs.rcx,
      print "  RDX: 0x", printHex (hex 9) regs.rdx, println "",
      println panicRule,
      setColor 15 0,
      println "",
      println "System halted."]

/-- What a report is about. -/
structure PanicData where
  number : BitVec 64
  code : BitVec 64
  rip : BitVec 64
  cs : BitVec 64
  rflags : BitVec 64
  rsp : BitVec 64
  ss : BitVec 64
  rax : BitVec 64
  rbx : BitVec 64
  rcx : BitVec 64
  rdx : BitVec 64

/-- What `isr_handler` reads of its frame. -/
def Registers.panicData (r : Registers) : PanicData :=
  ⟨r.int_no, r.err_code, r.rip, r.cs, r.rflags, r.rsp, r.ss, r.rax, r.rbx, r.rcx, r.rdx⟩

/-- The truth about an exception. -/
def PanicData.of (v : Fin 32) (code : BitVec 64) (c : Cpu) : PanicData where
  number := BitVec.ofNat 64 v
  code := if pushesErrorCode v then code else 0
  rip := c.rip
  cs := c.cs.setWidth 64
  rflags := c.rflags
  rsp := c.gpr .rsp
  ss := c.ss.setWidth 64
  rax := c.gpr .rax
  rbx := c.gpr .rbx
  rcx := c.gpr .rcx
  rdx := c.gpr .rdx

namespace PanicData

/-- The name of the exception. -/
def name (d : PanicData) : Chars :=
  if d.number < 32 then spelling (exceptionMessages.getD d.number.toNat "")
  else spelling "Unknown Exception #" ++ decText d.number.toInt

/-- The lines of the report. The prefix of the numbers is there twice, as `vga_print_hex` puts one
out itself. -/
def lines (d : PanicData) : List Chars :=
  [spelling panicRule,
    spelling "  EXCEPTION: " ++ d.name,
    spelling panicRule,
    spelling "  INT#:    " ++ decText d.number.toInt,
    spelling "  ERRCODE: 0x" ++ hexText d.code.toNat,
    spelling "  RIP:     0x" ++ hexText d.rip.toNat,
    spelling "  CS:      0x" ++ hexText d.cs.toNat,
    spelling "  RFLAGS:  0x" ++ hexText d.rflags.toNat,
    spelling "  RSP:     0x" ++ hexText d.rsp.toNat,
    spelling "  SS:      0x" ++ hexText d.ss.toNat,
    [],
    spelling "  RAX: 0x" ++ hexText d.rax.toNat ++ spelling "  RBX: 0x" ++ hexText d.rbx.toNat,
    spelling "  RCX: 0x" ++ hexText d.rcx.toNat ++ spelling "  RDX: 0x" ++ hexText d.rdx.toNat,
    spelling panicRule,
    [],
    spelling "System halted."]

end PanicData

/-! ### The lines printed -/

section

variable {dec hex : ℕ → Chars} {regs : Registers}

/-- No literal of the function holds a NUL, so each is printed as it is spelled. -/
lemma prints_name (hdec : ∀ n, (dec n).length = 21) (hmin : regs.int_no ≠ BitVec.intMin 64) :
    Prints (if regs.int_no < 32 then VgaRun.println (exceptionMessages.getD regs.int_no.toNat "")
      else inTurn [VgaRun.print "Unknown Exception #", VgaRun.printDec (dec 0) regs.int_no,
        VgaRun.println ""]) (regs.panicData.name ++ [chr '\n']) := by
  have hmessage : ∀ n < 32, 0 ∉ spelling (exceptionMessages.getD n "") := by decide
  have hempty : Prints (VgaRun.println "") [chr '\n'] := .println "" (by decide)
  by_cases hlt : regs.int_no < 32
  · rw [PanicData.name, if_pos hlt, if_pos (show regs.panicData.number < 32 from hlt)]
    exact .println _ (hmessage _ hlt)
  · rw [PanicData.name, if_neg hlt, if_neg (show ¬ regs.panicData.number < 32 from hlt)]
    have hturn := Prints.inTurn <| .cons (.print "Unknown Exception #" (by decide)) <|
      .cons (.printDec hmin (hdec 0)) <| .cons hempty .nil
    rw [List.flatten_cons, List.flatten_cons, List.flatten_singleton, ← List.append_assoc] at hturn
    exact hturn

/-- **`isr_handler` prints the lines of its report**, from a new line on. -/
lemma isrHandler_prints (hdec : ∀ n, (dec n).length = 21) (hhex : ∀ n, (hex n).length = 19)
    (hmin : regs.int_no ≠ BitVec.intMin 64) :
    Prints (isrHandler dec hex regs) (chr '\n' :: lineText regs.panicData.lines) := by
  have hempty : Prints (VgaRun.println "") [chr '\n'] := .println "" (by decide)
  have hrule : Prints (VgaRun.println panicRule) (spelling panicRule ++ [chr '\n']) :=
    .println panicRule (by decide)
  have hcalls := Prints.inTurn <|
    .cons (.setColor 15 4) <| .cons hempty <| .cons hrule <|
    .cons (.print "  EXCEPTION: " (by decide)) <| .cons (prints_name hdec hmin) <|
    .cons hrule <| .cons (.setColor 7 0) <|
    .cons (.print "  INT#:    " (by decide)) <| .cons (.printDec hmin (hdec 1)) <|
    .cons hempty <|
    .cons (.print "  ERRCODE: 0x" (by decide)) <|
    .cons (.printHex regs.err_code (hhex 0)) <| .cons hempty <|
    .cons (.print "  RIP:     0x" (by decide)) <|
    .cons (.printHex regs.rip (hhex 1)) <| .cons hempty <|
    .cons (.print "  CS:      0x" (by decide)) <|
    .cons (.printHex regs.cs (hhex 2)) <| .cons hempty <|
    .cons (.print "  RFLAGS:  0x" (by decide)) <|
    .cons (.printHex regs.rflags (hhex 3)) <| .cons hempty <|
    .cons (.print "  RSP:     0x" (by decide)) <|
    .cons (.printHex regs.rsp (hhex 4)) <| .cons hempty <|
    .cons (.print "  SS:      0x" (by decide)) <|
    .cons (.printHex regs.ss (hhex 5)) <| .cons hempty <| .cons hempty <|
    .cons (.print "  RAX: 0x" (by decide)) <| .cons (.printHex regs.rax (hhex 6)) <|
    .cons (.print "  RBX: 0x" (by decide)) <| .cons (.printHex regs.rbx (hhex 7)) <|
    .cons hempty <|
    .cons (.print "  RCX: 0x" (by decide)) <| .cons (.printHex regs.rcx (hhex 8)) <|
    .cons (.print "  RDX: 0x" (by decide)) <| .cons (.printHex regs.rdx (hhex 9)) <|
    .cons hempty <| .cons hrule <| .cons (.setColor 15 0) <| .cons hempty <|
    .cons (.println "System halted." (by decide)) .nil
  simp only [List.flatten_cons, List.flatten_nil, List.append_assoc, List.nil_append,
    List.append_nil, List.cons_append] at hcalls
  simp only [PanicData.lines, lineText, List.flatMap_cons, List.flatMap_nil, List.append_assoc,
    List.nil_append, List.append_nil, List.cons_append]
  exact hcalls

end

/-! ### The lines read back -/

namespace PanicData

variable {d d' : PanicData} {label m : Chars} {a b a' b' : BitVec 64}

lemma hexWord_injective (h : hexText a.toNat = hexText b.toNat) : a = b :=
  BitVec.eq_of_toNat_eq (hexText_injective a.isLt b.isLt h)

lemma hex_injective (h : label ++ hexText a.toNat = label ++ hexText b.toNat) : a = b :=
  hexWord_injective (List.append_cancel_left h)

/-- Two numbers in one line are separated by the space behind the first one. -/
lemma hexPair_injective
    (h : label ++ hexText a.toNat ++ (chr ' ' :: m) ++ hexText b.toNat
      = label ++ hexText a'.toNat ++ (chr ' ' :: m) ++ hexText b'.toNat) : a = a' ∧ b = b' := by
  simp only [List.append_assoc, List.append_cancel_left_eq, List.cons_append] at h
  obtain ⟨hfirst, hrest⟩ :=
    split_at_space (hexText_line a.isLt).2 (hexText_line a'.isLt).2 h
  exact ⟨hexWord_injective hfirst, hex_injective hrest⟩

/-- **The lines tell it all.** -/
lemma lines_injective : Function.Injective PanicData.lines := by
  intro d d' h
  simp only [lines, List.cons.injEq, true_and, and_true] at h
  obtain ⟨-, hnumber, hcode, hrip, hcs, hrflags, hrsp, hss, hpair, hpair'⟩ := h
  rw [List.append_cancel_left_eq] at hnumber
  have hnumber := BitVec.eq_of_toInt_eq (decText_injective hnumber)
  obtain ⟨hrax, hrbx⟩ := hexPair_injective hpair
  obtain ⟨hrcx, hrdx⟩ := hexPair_injective hpair'
  cases d
  cases d'
  simp only [PanicData.mk.injEq]
  exact ⟨hnumber, hex_injective hcode, hex_injective hrip, hex_injective hcs,
    hex_injective hrflags, hex_injective hrsp, hex_injective hss, hrax, hrbx, hrcx, hrdx⟩

/-- The report of an exception fits on the screen. -/
lemma lines_fit (hlt : d.number < 32) : ∀ l ∈ d.lines, Fits 79 l := by
  have hname : Fits 30 d.name := by
    have hmessage : ∀ n < 32, exceptionMessages.getD n "" ∈ exceptionMessages := by decide
    have hall : ∀ m ∈ exceptionMessages, Fits 30 (spelling m) := by decide +kernel
    rw [name, if_pos hlt]
    exact hall _ (hmessage _ hlt)
  have hdec : Fits 2 (decText d.number.toInt) := by
    have hnat : d.number.toNat < 32 := hlt
    rw [BitVec.toInt_eq_toNat_of_lt (by omega)]
    exact (decText_line two_ne_zero (by omega)).1
  have hhex : ∀ x : BitVec 64, Fits 18 (hexText x.toNat) := fun x => (hexText_line x.isLt).1
  have hrule : Fits 79 (spelling panicRule) := by decide +kernel
  have hlabel : ∀ s ∈ ["  EXCEPTION: ", "  INT#:    ", "  ERRCODE: 0x", "  RIP:     0x",
      "  CS:      0x", "  RFLAGS:  0x", "  RSP:     0x", "  SS:      0x", "  RAX: 0x", "  RBX: 0x",
      "  RCX: 0x", "  RDX: 0x"], Fits 13 (spelling s) := by decide +kernel
  simp only [List.forall_mem_cons] at hlabel
  obtain ⟨hexc, hint, herr, hrip, hcs, hfl, hrsp, hss, hrax, hrbx, hrcx, hrdx, -⟩ := hlabel
  simp only [lines, List.forall_mem_cons]
  exact ⟨hrule, (hexc.append hname).mono (by norm_num), hrule,
    (hint.append hdec).mono (by norm_num),
    (herr.append (hhex _)).mono (by norm_num), (hrip.append (hhex _)).mono (by norm_num),
    (hcs.append (hhex _)).mono (by norm_num), (hfl.append (hhex _)).mono (by norm_num),
    (hrsp.append (hhex _)).mono (by norm_num), (hss.append (hhex _)).mono (by norm_num),
    by decide,
    (((hrax.append (hhex _)).append hrbx).append (hhex _)).mono (by norm_num),
    (((hrcx.append (hhex _)).append hrdx).append (hhex _)).mono (by norm_num),
    hrule, by decide, by decide +kernel, by simp⟩

end PanicData

/-! ### The frame -/

/-- What `isr_handler` reads of the frame is the truth, if the stub knows whether there is an error
code. -/
lemma panicData_of_agree {s m : Machine} {top : BitVec 64} {v : Fin 32} {code : BitVec 64}
    (h : pushesErrorCode v = stubErrorCode v)
    (hmem : m.mem = (Stack.pushAll ⟨s.mem, top⟩ (isrWords v code s.cpu)).mem)
    (hrdi : m.cpu.gpr .rdi = (Stack.pushAll ⟨s.mem, top⟩ (isrWords v code s.cpu)).sp) :
    (readFrame m.mem (m.cpu.gpr .rdi)).panicData = PanicData.of v code s.cpu := by
  have hword := fun i (hi : i < 26) => read_isrEnter hmem hrdi hi
  rw [isrWords_of_agree h] at hword
  rw [Registers.panicData, PanicData.of, PanicData.mk.injEq]
  exact ⟨hword 19 (by decide), hword 20 (by decide), hword 21 (by decide), hword 22 (by decide),
    hword 23 (by decide), hword 24 (by decide), hword 25 (by decide), hword 18 (by decide),
    hword 17 (by decide), hword 16 (by decide), hword 15 (by decide)⟩

/-- **The screen of a panic**: whatever the machine was doing and whatever was output before, after
an exception whose stub fits the screen shows the whole report, with the number of the exception,
its error code and the interrupted registers, and no other report has these lines. -/
theorem panic_screen (stub : ℕ → BitVec 64) (dfStack kernelStack : BitVec 64) {v : Fin 32}
    (hv : v ≠ 21 ∧ v ≠ 29) (code : BitVec 64) (m : Machine) (vga : Vga) {es : List VgaEvent}
    {s : VgaRun} (hrun : vgaMachine.Run (VgaRun.init vga) es s) {dec hex : ℕ → Chars}
    (hdec : ∀ n, (dec n).length = 21) (hhex : ∀ n, (hex n).length = 19) :
    ∃ m' u, isrEnter (kernelTables stub dfStack kernelStack) v code m = some m'
      ∧ isrHandler dec hex (readFrame m'.mem (m'.cpu.gpr .rdi)) s = some u
      ∧ u.vga.ShowsLines (PanicData.of v code m.cpu).lines
      ∧ ∀ d : PanicData, d.lines = (PanicData.of v code m.cpu).lines
        → d = PanicData.of v code m.cpu := by
  obtain ⟨m', hm, hmem, hrdi⟩ :=
    isrEnter_stack m code (gateAt_kernelTables stub dfStack kernelStack v) rfl
  have hdata := panicData_of_agree ((pushesErrorCode_eq_iff v).mpr hv) hmem hrdi
  have hinv : s.Inv :=
    EventMachine.Run.invariant (VgaRun.Inv.init vga) (fun _ _ _ h _ hst => h.step hst) hrun
  have hlt : (PanicData.of v code m.cpu).number < 32 := by
    have hnat : (BitVec.ofNat 64 (v : ℕ)).toNat = v := by
      rw [BitVec.toNat_ofNat]
      exact Nat.mod_eq_of_lt (by omega)
    refine BitVec.lt_def.mpr ?_
    rw [PanicData.of, hnat]
    exact v.isLt
  have hmin : (readFrame m'.mem (m'.cpu.gpr .rdi)).int_no ≠ BitVec.intMin 64 := by
    have hnumber := congrArg PanicData.number hdata
    change (readFrame m'.mem (m'.cpu.gpr .rdi)).int_no = _ at hnumber
    rw [hnumber]
    rintro heq
    rw [heq] at hlt
    exact absurd hlt (by decide)
  have hprints := isrHandler_prints hdec hhex hmin
  rw [hdata] at hprints
  have hlen : (PanicData.of v code m.cpu).lines.length = 16 := rfl
  obtain ⟨u, hu, -, hshows⟩ := showsLines_of_prints hprints hinv (by omega)
    (PanicData.lines_fit hlt)
  exact ⟨m', u, hm, hu, hshows, fun d hd => PanicData.lines_injective hd⟩

/-- The statement for a page fault of the idle machine on a screen just cleared. -/
theorem panic_screen_pageFault : ∃ m' u,
    isrEnter (kernelTables (fun n => BitVec.ofNat 64 (0x100000 + 16 * n)) 0x200000 0x300000) 14 2
      idleMachine = some m'
    ∧ isrHandler (fun _ => List.replicate 21 0) (fun _ => List.replicate 19 0)
      (readFrame m'.mem (m'.cpu.gpr .rdi)) (VgaRun.init bootVga) = some u
    ∧ u.vga.ShowsLines (PanicData.of 14 2 idleMachine.cpu).lines
    ∧ ∀ d : PanicData, d.lines = (PanicData.of 14 2 idleMachine.cpu).lines
      → d = PanicData.of 14 2 idleMachine.cpu :=
  panic_screen _ _ _ (by decide) 2 idleMachine bootVga .nil (fun _ => by simp) fun _ => by simp

end KiOS
