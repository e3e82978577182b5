import KiOS.Cpu.Machine

/-!
The tables that lead the processor to an interrupt's code and stack (`gdt.c`, `tss.c`, `idt.c`).

Each table has two sides: the words that the kernel puts into it, field by field as the C
structures lay them out, and what the processor reads from them.

* `TssDescriptor`, `gdtInit`: the task state segment in the descriptor table;
* `Tss`, `tssInit`, `tssSetKernelStack`: the task state segment; `Tss.bits`: its 104 bytes;
* `IdtEntry`, `idtSetGate`, `idtInit`: the interrupt table; `Gate.decode`: a gate;
* `gdtInit_tss`, `tss_stacks`, `decode_idtInit`: what the processor finds;
* `TablesOk`, `tables_ok`: all of it for the kernel's tables, wherever they lie.
-/

namespace KiOS

/-! ### The descriptor of the task state segment -/

/-- What `ltr` reads from the two words of a descriptor. -/
structure TssDescriptor where
  base : BitVec 64
  /-- In bytes, as the granularity is. -/
  limit : BitVec 20
  kind : BitVec 4
  system : Bool
  dpl : BitVec 2
  present : Bool
  granular : Bool
  deriving DecidableEq

/-- The fields of a descriptor, its second word above its first one. -/
def TssDescriptor.decode (low high : BitVec 64) : TssDescriptor where
  base := high.extractLsb' 0 32 ++ low.extractLsb' 56 8 ++ low.extractLsb' 16 24
  limit := low.extractLsb' 48 4 ++ low.extractLsb' 0 16
  kind := low.extractLsb' 40 4
  system := !low.getLsbD 44
  dpl := low.extractLsb' 45 2
  present := low.getLsbD 47
  granular := low.getLsbD 55

/-- `gdt[5]`. `tss_size - 1` is an `int`. -/
def gdtTssLow (tssPtr : BitVec 64) (tssSize : BitVec 16) : BitVec 64 :=
  ((tssSize.setWidth 32 - 1).signExtend 64) ||| ((tssPtr &&& 0xFFFFFF) <<< 16)
    ||| ((0x89 : BitVec 64) <<< 40) ||| ((tssPtr &&& 0xFF000000) <<< 32)

/-- The words that `gdt_init` writes. -/
def gdtInit (tssPtr : BitVec 64) (tssSize : BitVec 16) : List (BitVec 64) :=
  gdt ++ [gdtTssLow tssPtr tssSize, tssPtr >>> 32] ++ List.replicate 9 0

/-- `gdt_ptr.limit`. -/
def gdtLimit : ℕ := 8 * 7 - 1

/-- The selector of `ltr`. -/
def gdtTss : BitVec 16 := 0x28

/-- The two words that the processor reads for a selector of a system segment, if they lie within
the limit. -/
def systemDescriptor (table : List (BitVec 64)) (limit : ℕ) (sel : BitVec 16) :
    Option TssDescriptor :=
  let i := sel.toNat / 8
  if 8 * i + 15 ≤ limit then some (.decode (table.getD i 0) (table.getD (i + 1) 0)) else none

/-! ### The task state segment -/

/-- `tss_t`. -/
structure Tss where
  reserved0 : BitVec 32
  rsp0 : BitVec 64
  rsp1 : BitVec 64
  rsp2 : BitVec 64
  reserved1 : BitVec 64
  ist1 : BitVec 64
  ist2 : BitVec 64
  ist3 : BitVec 64
  ist4 : BitVec 64
  ist5 : BitVec 64
  ist6 : BitVec 64
  ist7 : BitVec 64
  reserved2 : BitVec 64
  reserved3 : BitVec 16
  ioMapBase : BitVec 16
  deriving DecidableEq

/-- `sizeof(tss_t)`. -/
def sizeofTss : BitVec 16 := 104

/-- The bytes of the packed structure, its first field lowest. -/
def Tss.bits (t : Tss) : BitVec 832 :=
  t.ioMapBase ++ t.reserved3 ++ t.reserved2 ++ t.ist7 ++ t.ist6 ++ t.ist5 ++ t.ist4 ++ t.ist3
    ++ t.ist2 ++ t.ist1 ++ t.reserved1 ++ t.rsp2 ++ t.rsp1 ++ t.rsp0 ++ t.reserved0

/-- The stack pointer that the processor loads for ring 0. -/
def tssRsp0 (b : BitVec 832) : BitVec 64 := b.extractLsb' (8 * 4) 64

/-- The stack pointer that the processor loads for an entry of the interrupt stack table. -/
def tssIst (b : BitVec 832) (ist : BitVec 3) : BitVec 64 :=
  b.extractLsb' (8 * (36 + 8 * (ist.toNat - 1))) 64

/-- Where the processor looks for the permission map of the ports. -/
def tssIoMapBase (b : BitVec 832) : BitVec 16 := b.extractLsb' (8 * 102) 16

/-- `tss_init`. -/
def tssInit (dfStack dfStackSize : BitVec 64) : Tss where
  reserved0 := 0
  rsp0 := 0
  rsp1 := 0
  rsp2 := 0
  reserved1 := 0
  ist1 := dfStack + dfStackSize
  ist2 := 0
  ist3 := 0
  ist4 := 0
  ist5 := 0
  ist6 := 0
  ist7 := 0
  reserved2 := 0
  reserved3 := 0
  ioMapBase := sizeofTss

/-- `tss_set_kernel_stack`. -/
def tssSetKernelStack (stackTop : BitVec 64) (t : Tss) : Tss := { t with rsp0 := stackTop }

/-! ### The interrupt table -/

/-- `idt_entry_t`. -/
structure IdtEntry where
  offsetLow : BitVec 16
  selector : BitVec 16
  ist : BitVec 8
  typeAttr : BitVec 8
  offsetMid : BitVec 16
  offsetHigh : BitVec 32
  reserved : BitVec 32
  deriving DecidableEq

/-- The bytes of the packed structure. -/
def IdtEntry.bits (e : IdtEntry) : BitVec 128 :=
  e.reserved ++ e.offsetHigh ++ e.offsetMid ++ e.typeAttr ++ e.ist ++ e.selector ++ e.offsetLow

/-- An entry of zeros. -/
def IdtEntry.zero : IdtEntry := ⟨0, 0, 0, 0, 0, 0, 0⟩

/-- What the processor reads from an entry. -/
structure Gate where
  offset : BitVec 64
  selector : BitVec 16
  ist : BitVec 3
  kind : BitVec 4
  dpl : BitVec 2
  present : Bool
  deriving DecidableEq

def Gate.decode (b : BitVec 128) : Gate where
  offset := b.extractLsb' 64 32 ++ b.extractLsb' 48 16 ++ b.extractLsb' 0 16
  selector := b.extractLsb' 16 16
  ist := b.extractLsb' 32 3
  kind := b.extractLsb' 40 4
  dpl := b.extractLsb' 45 2
  present := b.getLsbD 47

/-- `idt`. -/
abbrev Idt := BitVec 8 → IdtEntry

/-- `IDT_TYPE_INTERRUPT`. -/
def idtTypeInterrupt : BitVec 8 := 0x8E

/-- `idt_set_gate_ist`. -/
def idtSetGateIst (num : BitVec 8) (handler : BitVec 64) (selector : BitVec 16)
    (flags ist : BitVec 8) (idt : Idt) : Idt :=
  Function.update idt num
    { offsetLow := (handler &&& 0xFFFF).setWidth 16
      offsetMid := ((handler >>> 16) &&& 0xFFFF).setWidth 16
      offsetHigh := ((handler >>> 32) &&& 0xFFFFFFFF).setWidth 32
      selector := selector
      ist := ist
      typeAttr := flags
      reserved := 0 }

/-- `idt_set_gate`. -/
def idtSetGate (num : BitVec 8) (handler : BitVec 64) (selector : BitVec 16) (flags : BitVec 8)
    (idt : Idt) : Idt :=
  idtSetGateIst num handler selector flags 0 idt

/-- The call of `idt_init` for one vector: `isr<n>`, with a stack of its own for the double fault,
or `irq<n - 32>`. -/
def idtInitGate (stub : ℕ → BitVec 64) (idt : Idt) (n : ℕ) : Idt :=
  if n = 8 then idtSetGateIst (BitVec.ofNat 8 n) (stub n) 0x08 idtTypeInterrupt 1 idt
  else idtSetGate (BitVec.ofNat 8 n) (stub n) 0x08 idtTypeInterrupt idt

/-- `idt_init`, for the addresses of the stubs. -/
def idtInit (stub : ℕ → BitVec 64) : Idt :=
  (List.range 48).foldl (idtInitGate stub) fun _ => .zero

/-- `idtp.limit`. -/
def idtLimit : ℕ := 16 * 256 - 1

/-- The gate that the processor reads for a vector, if it lies within the limit. -/
def gateAt (idt : Idt) (limit : ℕ) (vector : BitVec 8) : Option Gate :=
  if 16 * vector.toNat + 15 ≤ limit then some (.decode (idt vector).bits) else none

/-! ### What the processor finds -/

/-- The size is at least one, so the `int` is not negative. -/
lemma signExtend_sub_one {n : BitVec 16} (hn : n ≠ 0) :
    (n.setWidth 32 - 1).signExtend 64 = (n - 1).setWidth 64 := by
  have hpos : 0 < n.toNat :=
    Nat.pos_of_ne_zero fun h => hn (BitVec.eq_of_toNat_eq (h.trans BitVec.toNat_zero.symm))
  have hlt := n.isLt
  have hsub : (n.setWidth 32 - 1).toNat = n.toNat - 1 := by
    rw [BitVec.toNat_sub, BitVec.toNat_setWidth, show (1 : BitVec 32).toNat = 1 from rfl]
    omega
  have hmsb : (n.setWidth 32 - 1).msb = false := by
    rw [BitVec.msb_eq_false_iff_two_mul_lt, hsub]
    omega
  have hsub' : (n - 1).toNat = n.toNat - 1 := by
    rw [BitVec.toNat_sub, show (1 : BitVec 16).toNat = 1 from rfl]
    omega
  rw [BitVec.signExtend_eq_setWidth_of_msb_false hmsb]
  refine BitVec.eq_of_toNat_eq ?_
  rw [BitVec.toNat_setWidth, BitVec.toNat_setWidth, hsub, hsub']

/-- The bits of the first word. -/
lemma getLsbD_gdtTssLow (tssPtr : BitVec 64) {tssSize : BitVec 16} (hsize : tssSize ≠ 0) {i : ℕ}
    (hi : i < 64) : (gdtTssLow tssPtr tssSize).getLsbD i
      = ((tssSize - 1).getLsbD i || (decide (16 ≤ i ∧ i < 40) && tssPtr.getLsbD (i - 16))
        || decide (i = 40 ∨ i = 43 ∨ i = 47)
        || (decide (56 ≤ i) && tssPtr.getLsbD (i - 32))) := by
  have hlow : ∀ i < 64, (0xFFFFFF : BitVec 64).getLsbD i = decide (i < 24) := by decide
  have hhigh : ∀ i < 64, (0xFF000000 : BitVec 64).getLsbD i = decide (24 ≤ i ∧ i < 32) := by decide
  have hkind : ∀ i < 64, ((0x89 : BitVec 64) <<< 40).getLsbD i
      = decide (i = 40 ∨ i = 43 ∨ i = 47) := by decide
  rw [gdtTssLow, signExtend_sub_one hsize]
  simp only [BitVec.getLsbD_or, hkind i hi, BitVec.getLsbD_shiftLeft, BitVec.getLsbD_and,
    BitVec.getLsbD_setWidth, hlow _ (show i - 16 < 64 by omega),
    hhigh _ (show i - 32 < 64 by omega)]
  grind

/-- **The descriptor of the task state segment** reads back, for every address and every size but
none. -/
lemma decode_gdtTss (tssPtr : BitVec 64) {tssSize : BitVec 16} (hsize : tssSize ≠ 0) :
    TssDescriptor.decode (gdtTssLow tssPtr tssSize) (tssPtr >>> 32)
      = ⟨tssPtr, (tssSize - 1).setWidth 20, 9, true, 0, true, false⟩ := by
  have hbit := fun i (hi : i < 64) => getLsbD_gdtTssLow tssPtr hsize hi
  have hsize0 : ∀ i, 16 ≤ i → (tssSize - 1).getLsbD i = false := fun i => BitVec.getLsbD_of_ge _ i
  rw [TssDescriptor.decode, TssDescriptor.mk.injEq]
  refine ⟨?_, ?_, ?_, ?_, ?_, ?_, ?_⟩
  · -- the base lies in three pieces
    refine BitVec.eq_of_getLsbD_eq fun i hi => ?_
    simp only [BitVec.getLsbD_append, BitVec.getLsbD_extractLsb', BitVec.getLsbD_ushiftRight]
    split_ifs with h24 h32
    · rw [hbit _ (by omega), hsize0 _ (by omega)]
      grind
    · rw [hbit _ (by omega), hsize0 _ (by omega)]
      grind
    · grind
  · refine BitVec.eq_of_getLsbD_eq fun i hi => ?_
    simp only [BitVec.getLsbD_append, BitVec.getLsbD_extractLsb', BitVec.getLsbD_setWidth]
    split_ifs with h16
    · rw [hbit _ (by omega)]
      grind
    · rw [hbit _ (by omega)]
      grind
  · have hnine : ∀ i < 4, (9 : BitVec 4).getLsbD i = decide (i = 0 ∨ i = 3) := by decide
    refine BitVec.eq_of_getLsbD_eq fun i hi => ?_
    rw [BitVec.getLsbD_extractLsb', hbit _ (by omega), hsize0 _ (by omega), hnine i hi]
    grind
  · rw [hbit _ (by omega), hsize0 _ (by omega)]
    simp
  · refine BitVec.eq_of_getLsbD_eq fun i hi => ?_
    rw [BitVec.getLsbD_extractLsb', hbit _ (by omega), hsize0 _ (by omega)]
    grind
  · rw [hbit _ (by omega)]
    simp
  · rw [hbit _ (by omega), hsize0 _ (by omega)]
    simp

/-- What lies below the place where a field is read is skipped. -/
lemma extractLsb'_append_high {v w : ℕ} (x : BitVec v) (y : BitVec w) {start len : ℕ}
    (h : w ≤ start) : (x ++ y).extractLsb' start len = x.extractLsb' (start - w) len := by
  refine BitVec.eq_of_getLsbD_eq fun i hi => ?_
  rw [BitVec.getLsbD_extractLsb', BitVec.getLsbD_extractLsb', BitVec.getLsbD_append,
    if_neg (by omega), Nat.sub_add_comm h]

/-- What lies inside the lowest field is read from it. -/
lemma extractLsb'_append_low {v w : ℕ} (x : BitVec v) (y : BitVec w) {start len : ℕ}
    (h : start + len ≤ w) : (x ++ y).extractLsb' start len = y.extractLsb' start len := by
  refine BitVec.eq_of_getLsbD_eq fun i hi => ?_
  rw [BitVec.getLsbD_extractLsb', BitVec.getLsbD_extractLsb', BitVec.getLsbD_append,
    if_pos (by omega)]

/-- A bit as a field. -/
lemma getLsbD_eq_extractLsb' {w : ℕ} (x : BitVec w) (i : ℕ) :
    x.getLsbD i = (x.extractLsb' i 1).getLsbD 0 := by
  rw [BitVec.getLsbD_extractLsb']
  simp

/-- **The stacks of the task state segment** are where the processor reads them. -/
lemma tss_stacks (t : Tss) :
    tssRsp0 t.bits = t.rsp0 ∧ tssIst t.bits 1 = t.ist1 ∧ tssIoMapBase t.bits = t.ioMapBase := by
  refine ⟨?_, ?_, ?_⟩
  · rw [tssRsp0, Tss.bits, extractLsb'_append_high _ _ (by decide)]
    exact (extractLsb'_append_low _ _ (by decide)).trans BitVec.extractLsb'_eq_self
  · rw [tssIst, Tss.bits]
    repeat rw [extractLsb'_append_high _ _ (by decide)]
    exact (extractLsb'_append_low _ _ (by decide)).trans BitVec.extractLsb'_eq_self
  · rw [tssIoMapBase, Tss.bits]
    repeat rw [extractLsb'_append_high _ _ (by decide)]
    exact BitVec.extractLsb'_eq_self

/-- The three pieces of an address are the address. -/
lemma append_pieces (a : BitVec 64) :
    ((a >>> 32) &&& 0xFFFFFFFF).setWidth 32 ++ ((a >>> 16) &&& 0xFFFF).setWidth 16
      ++ (a &&& 0xFFFF).setWidth 16 = a := by
  have hlow : ∀ i < 64, (0xFFFF : BitVec 64).getLsbD i = decide (i < 16) := by decide
  have hhigh : ∀ i < 64, (0xFFFFFFFF : BitVec 64).getLsbD i = decide (i < 32) := by decide
  refine BitVec.eq_of_getLsbD_eq fun i hi => ?_
  simp only [BitVec.getLsbD_append, BitVec.getLsbD_setWidth, BitVec.getLsbD_and,
    BitVec.getLsbD_ushiftRight]
  split_ifs with h16 h32
  · rw [hlow _ hi]
    grind
  · rw [hlow _ (by omega)]
    grind
  · rw [hhigh _ (by omega)]
    grind

/-- **A gate** reads back. -/
lemma decode_idtSetGateIst (num : BitVec 8) (handler : BitVec 64) (selector : BitVec 16)
    (flags ist : BitVec 8) (idt : Idt) :
    Gate.decode (idtSetGateIst num handler selector flags ist idt num).bits
      = ⟨handler, selector, ist.extractLsb' 0 3, flags.extractLsb' 0 4, flags.extractLsb' 5 2,
        flags.getLsbD 7⟩ := by
  rw [idtSetGateIst, Function.update_self, Gate.decode, Gate.mk.injEq]
  simp only [IdtEntry.bits]
  refine ⟨?_, ?_, ?_, ?_, ?_, ?_⟩
  · refine Eq.trans ?_ (append_pieces handler)
    refine congrArg₂ _ (congrArg₂ _ ?_ ?_) ?_ <;>
      repeat rw [extractLsb'_append_high _ _ (by decide)]
    all_goals exact (extractLsb'_append_low _ _ (by decide)).trans BitVec.extractLsb'_eq_self
  · rw [extractLsb'_append_high _ _ (by decide)]
    exact (extractLsb'_append_low _ _ (by decide)).trans BitVec.extractLsb'_eq_self
  · repeat rw [extractLsb'_append_high _ _ (by decide)]
    exact extractLsb'_append_low _ _ (by decide)
  · repeat rw [extractLsb'_append_high _ _ (by decide)]
    exact extractLsb'_append_low _ _ (by decide)
  · repeat rw [extractLsb'_append_high _ _ (by decide)]
    exact extractLsb'_append_low _ _ (by decide)
  · rw [getLsbD_eq_extractLsb' _ 47]
    repeat rw [extractLsb'_append_high _ _ (by decide)]
    rw [extractLsb'_append_low _ _ (by decide), getLsbD_eq_extractLsb' _ 7]

/-- The table behind the first calls of `idt_init`. -/
lemma idtInit_prefix (stub : ℕ → BitVec 64) {n : ℕ} (hn : n ≤ 48) (v : BitVec 8) :
    (List.range n).foldl (idtInitGate stub) (fun _ => .zero) v
      = if v.toNat < n then
          idtSetGateIst v (stub v.toNat) 0x08 idtTypeInterrupt (if v = 8 then 1 else 0)
            (fun _ => .zero) v
        else .zero := by
  induction n with
  | zero => rfl
  | succ n ih =>
      have hnum : (BitVec.ofNat 8 n).toNat = n := by
        rw [BitVec.toNat_ofNat]
        omega
      have h8 : (BitVec.ofNat 8 n = 8) ↔ n = 8 := by
        rw [← BitVec.toNat_inj, hnum]
        rfl
      rw [List.range_succ, List.foldl_append, List.foldl_cons, List.foldl_nil]
      have hgate : ∀ idt, idtInitGate stub idt n = idtSetGateIst (BitVec.ofNat 8 n) (stub n) 0x08
          idtTypeInterrupt (if n = 8 then 1 else 0) idt := by
        intro idt
        rw [idtInitGate]
        split_ifs <;> rfl
      rw [hgate]
      by_cases hv : v = BitVec.ofNat 8 n
      · subst hv
        have hlt : (BitVec.ofNat 8 n).toNat < n + 1 := by omega
        rw [if_pos hlt, hnum]
        simp only [idtSetGateIst, Function.update_self, h8]
      · have hne : v.toNat ≠ n := fun h' => hv (BitVec.eq_of_toNat_eq (h'.trans hnum.symm))
        rw [idtSetGateIst, Function.update_of_ne hv, ih (by omega)]
        simp only [show v.toNat < n + 1 ↔ v.toNat < n by omega]

/-- **The interrupt table** as the processor reads it. -/
lemma gateAt_idtInit (stub : ℕ → BitVec 64) (v : BitVec 8) :
    gateAt (idtInit stub) idtLimit v
      = some (if v.toNat < 48 then ⟨stub v.toNat, 0x08, if v = 8 then 1 else 0, 0xE, 0, true⟩
        else ⟨0, 0, 0, 0, 0, false⟩) := by
  have hlimit : 16 * v.toNat + 15 ≤ idtLimit := by
    have hlt := v.isLt
    rw [idtLimit]
    omega
  rw [gateAt, if_pos hlimit, idtInit, idtInit_prefix stub le_rfl]
  split_ifs with hv h8
  · rw [decode_idtSetGateIst]
    rfl
  · rw [decode_idtSetGateIst]
    rfl
  · rfl

/-- The descriptor that `ltr` reads. -/
lemma systemDescriptor_gdtInit (tssPtr : BitVec 64) :
    systemDescriptor (gdtInit tssPtr sizeofTss) gdtLimit gdtTss
      = some ⟨tssPtr, 103, 9, true, 0, true, false⟩ := by
  have hentry : systemDescriptor (gdtInit tssPtr sizeofTss) gdtLimit gdtTss
      = some (.decode (gdtTssLow tssPtr sizeofTss) (tssPtr >>> 32)) := rfl
  rw [hentry, decode_gdtTss tssPtr (by decide)]
  rfl

/-- What the processor finds in the kernel's tables. -/
structure TablesOk (stub : ℕ → BitVec 64) (tssPtr dfStack kernelStack : BitVec 64) : Prop where
  /-- An exception or a hardware interrupt leads to its own stub, with interrupts off. -/
  gates : ∀ v : BitVec 8, v.toNat < 48 → gateAt (idtInit stub) idtLimit v
    = some ⟨stub v.toNat, 0x08, if v = 8 then 1 else 0, 0xE, 0, true⟩
  /-- No other vector has a gate. -/
  absent : ∀ v : BitVec 8, 48 ≤ v.toNat → ∃ g, gateAt (idtInit stub) idtLimit v = some g
    ∧ g.present = false
  /-- The descriptor is one of an available task state segment, with all of its bytes. -/
  tss : systemDescriptor (gdtInit tssPtr sizeofTss) gdtLimit gdtTss
    = some ⟨tssPtr, 103, 9, true, 0, true, false⟩
  /-- The stack of the double fault, also after the stack of ring 0 is set. -/
  ist : tssIst (tssSetKernelStack kernelStack (tssInit dfStack 8192)).bits 1 = dfStack + 8192
  rsp0 : tssRsp0 (tssSetKernelStack kernelStack (tssInit dfStack 8192)).bits = kernelStack
  /-- There is no permission map: ring 3 reaches no port. -/
  ioMap : 103 < tssIoMapBase (tssSetKernelStack kernelStack (tssInit dfStack 8192)).bits

/-- **The descriptor tables**: wherever the stubs, the task state segment and the stacks lie, the
processor finds in the kernel's packed words what the kernel put into them. -/
theorem tables_ok (stub : ℕ → BitVec 64) (tssPtr dfStack kernelStack : BitVec 64) :
    TablesOk stub tssPtr dfStack kernelStack := by
  obtain ⟨hrsp0, hist, hmap⟩ := tss_stacks (tssSetKernelStack kernelStack (tssInit dfStack 8192))
  refine ⟨fun v hv => ?_, fun v hv => ⟨_, gateAt_idtInit stub v, ?_⟩,
    systemDescriptor_gdtInit tssPtr, hist, hrsp0, ?_⟩
  · rw [gateAt_idtInit, if_pos hv]
  · rw [if_neg (by omega)]
  · rw [hmap]
    exact (by decide : (103 : BitVec 16) < 104)

end KiOS
