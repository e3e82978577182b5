import KiOS.Cpu.Syscall
import KiOS.Drivers.Vga
import KiOS.Mm.VmmIsolation

/-!
What a system call reveals (`syscall_handler`).

* `AddressSpace`: what the page tables make of an address; `addressSpace` reads it off them;
* `KernelData`: the memory, with the video memory and the variables of `vga.c`, which
  `vga_putchar` changes while a buffer is written;
* `syscallHandler`: the handler, with the characters it sends to `vga_putchar`;
* `Undisclosed`: what it sends and returns depends on nothing but the bytes Ring 3 can read;
* `undisclosed_iff`: this is so exactly where `SYS_WRITE` meets no other byte in its buffer;
* `kernel_byte_disclosed`: a buffer in the kernel.
-/

namespace KiOS

/-- `SYS_EXIT`. -/
def sysExit : BitVec 64 := 0

/-- `SYS_WRITE`. -/
def sysWrite : BitVec 64 := 1

/-- `SYS_READ`. -/
def sysRead : BitVec 64 := 2

/-- `SYS_YIELD`. -/
def sysYield : BitVec 64 := 3

/-- What the page tables make of an address, `none` for an exception. -/
abbrev AddressSpace := BitVec 64 → Option Translation

/-- The address space of page tables. -/
def addressSpace (m : PhysMem) (pml4 : Frame) : AddressSpace := fun virt =>
  if Canonical virt then mmuWalk m pml4 virt else none

/-- `VGA_MEMORY`. -/
def vgaMemory : BitVec 64 := 0xB8000

/-- Where the variables of `vga.c` lie in the physical memory. -/
structure VgaLayout where
  cursorX : BitVec 64
  cursorY : BitVec 64
  color : BitVec 64

/-- The data in memory. -/
structure KernelData where
  ram : BitVec 64 → BitVec 8
  vga : Vga

/-- A byte of the physical memory. -/
def KernelData.byte (L : VgaLayout) (s : KernelData) (p : BitVec 64) : BitVec 8 :=
  if (p - vgaMemory).toNat < 4000 then
    (s.vga.buffer.cell ((p - vgaMemory).toNat / 2 : ℕ)).extractLsb'
      (8 * ((p - vgaMemory).toNat % 2)) 8
  else if (p - L.cursorX).toNat < 4 then
    (BitVec.ofInt 32 s.vga.cursorX).extractLsb' (8 * (p - L.cursorX).toNat) 8
  else if (p - L.cursorY).toNat < 4 then
    (BitVec.ofInt 32 s.vga.cursorY).extractLsb' (8 * (p - L.cursorY).toNat) 8
  else if p = L.color then s.vga.color
  else s.ram p

/-- How a call of the handler ends. -/
inductive HandlerEnd where
  | returned (rax : BitVec 64)
  /-- An exception on the way. -/
  | faulted
  /-- The endless loop of `SYS_EXIT`. -/
  | halted
  deriving DecidableEq, Repr

/-- `for (i = i; i < i + n; i++) vga_putchar(buf[i])`: the characters, whether the loop comes to its
end, and the data then. -/
def writeLoop (L : VgaLayout) (A : AddressSpace) (buf : BitVec 64) :
    ℕ → ℕ → KernelData → List (BitVec 8) × Bool × KernelData
  | 0, _, s => ([], true, s)
  | n + 1, i, s =>
      match A (buf + BitVec.ofNat 64 i) with
      | none => ([], false, s)
      | some t =>
          let c := s.byte L t.phys
          let r := writeLoop L A buf n (i + 1) { s with vga := vgaPutchar c s.vga }
          (c :: r.1, r.2)

/-- `syscall_handler`: the characters sent to `vga_putchar`, the end, and the data then. -/
def syscallHandler (L : VgaLayout) (A : AddressSpace) (syscallNum arg1 arg2 arg3 : BitVec 64)
    (s : KernelData) : List (BitVec 8) × HandlerEnd × KernelData :=
  if syscallNum = sysExit then ([], .halted, s)
  else if syscallNum = sysWrite then
    if arg1 = 1 then
      let r := writeLoop L A arg2 arg3.toNat 0 s
      (r.1, if r.2.1 then .returned arg3 else .faulted, r.2.2)
    else ([], .returned (-1), s)
  else if syscallNum = sysRead then ([], .returned (-1), s)
  else if syscallNum = sysYield then ([], .returned 0, s)
  else ([], .returned (-1), s)

/-- A task chooses all four arguments: they are its RAX, RDI, RSI and RDX. -/
lemma syscallHead_args (e : Machine) :
    (Machine.exec syscallHead e.syscall).cpu.gpr .rdi = e.cpu.gpr .rax
      ∧ (Machine.exec syscallHead e.syscall).cpu.gpr .rsi = e.cpu.gpr .rdi
      ∧ (Machine.exec syscallHead e.syscall).cpu.gpr .rdx = e.cpu.gpr .rsi
      ∧ (Machine.exec syscallHead e.syscall).cpu.gpr .rcx = e.cpu.gpr .rdx :=
  ⟨rfl, rfl, rfl, rfl⟩

/-! ### Two runs -/

/-- Ring 3 can read the byte, through some page. -/
def UserReadable (A : AddressSpace) (p : BitVec 64) : Prop :=
  ∃ virt t, A virt = some t ∧ t.user = true ∧ t.phys = p

/-- The bytes that `vga_putchar` changes. -/
def InScreen (L : VgaLayout) (p : BitVec 64) : Prop :=
  (p - vgaMemory).toNat < 4000 ∨ (p - L.cursorX).toNat < 4 ∨ (p - L.cursorY).toNat < 4 ∨ p = L.color

/-- Ring 3 can read neither the screen nor the variables of `vga.c`: `pmm_init` keeps the first
megabyte and the kernel back, so that no frame of theirs is mapped for it. -/
def PrivateScreen (L : VgaLayout) (A : AddressSpace) : Prop :=
  ∀ p, UserReadable A p → ¬ InScreen L p

/-- Ring 3 sees no difference. -/
def AgreeOnUser (L : VgaLayout) (A : AddressSpace) (s s' : KernelData) : Prop :=
  ∀ p, UserReadable A p → s.byte L p = s'.byte L p

/-- Where Ring 3 sees no difference before the call, there is none in its output and its result. -/
def Undisclosed (L : VgaLayout) (A : AddressSpace) (syscallNum arg1 arg2 arg3 : BitVec 64) : Prop :=
  ∀ s s', AgreeOnUser L A s s' →
    (syscallHandler L A syscallNum arg1 arg2 arg3 s).1
        = (syscallHandler L A syscallNum arg1 arg2 arg3 s').1
      ∧ (syscallHandler L A syscallNum arg1 arg2 arg3 s).2.1
        = (syscallHandler L A syscallNum arg1 arg2 arg3 s').2.1

/-- The condition: what lies in the buffer before the first address without a page Ring 3 can
read. -/
def OnlyUserBytes (A : AddressSpace) (buf : BitVec 64) (n : ℕ) : Prop :=
  ∀ k < n, (∀ j < k, A (buf + BitVec.ofNat 64 j) ≠ none) →
    ∀ t, A (buf + BitVec.ofNat 64 k) = some t → UserReadable A t.phys

variable {L : VgaLayout} {A : AddressSpace} {s s' : KernelData} {buf p : BitVec 64} {n i k : ℕ}
  {t : Translation}

lemma byte_of_not_inScreen (h : ¬ InScreen L p) : s.byte L p = s.ram p := by
  obtain ⟨h₁, h₂⟩ := not_or.mp h
  obtain ⟨h₂, h₃⟩ := not_or.mp h₂
  obtain ⟨h₃, h₄⟩ := not_or.mp h₃
  rw [KernelData.byte, if_neg h₁, if_neg h₂, if_neg h₃, if_neg h₄]

/-! ### The loop -/

lemma add_zero_index (buf : BitVec 64) : buf + BitVec.ofNat 64 0 = buf := add_zero buf

/-- The addresses of the rest of the buffer. -/
lemma add_succ_index (buf : BitVec 64) (k : ℕ) :
    buf + BitVec.ofNat 64 (k + 1) = buf + 1 + BitVec.ofNat 64 k := by
  rw [Nat.add_comm, BitVec.ofNat_add, ← add_assoc]
  rfl

/-- The loop from an index on is the loop over the rest of the buffer. -/
lemma writeLoop_succ : writeLoop L A buf n (i + 1) s = writeLoop L A (buf + 1) n i s := by
  induction n generalizing i s with
  | zero => rfl
  | succ n ih =>
      rw [writeLoop, writeLoop, add_succ_index]
      cases A (buf + 1 + BitVec.ofNat 64 i) with
      | none => rfl
      | some t =>
          dsimp only
          rw [ih]

lemma writeLoop_none (h : A buf = none) : writeLoop L A buf (n + 1) 0 s = ([], false, s) := by
  rw [writeLoop, add_zero_index, h]

lemma writeLoop_some (h : A buf = some t) :
    writeLoop L A buf (n + 1) 0 s
      = (s.byte L t.phys :: (writeLoop L A (buf + 1) n 0
          { s with vga := vgaPutchar (s.byte L t.phys) s.vga }).1,
        (writeLoop L A (buf + 1) n 0
          { s with vga := vgaPutchar (s.byte L t.phys) s.vga }).2) := by
  rw [writeLoop, add_zero_index, h]
  dsimp only
  rw [writeLoop_succ]

/-- The condition for the first byte. -/
lemma OnlyUserBytes.head (h : OnlyUserBytes A buf (n + 1)) (ht : A buf = some t) :
    UserReadable A t.phys :=
  h 0 (Nat.succ_pos n) (fun _ hj => absurd hj (Nat.not_lt_zero _)) t
    (by rw [add_zero_index, ht])

/-- The condition for the rest. -/
lemma OnlyUserBytes.tail (h : OnlyUserBytes A buf (n + 1)) (ht : A buf = some t) :
    OnlyUserBytes A (buf + 1) n := by
  intro k hk hmapped t' ht'
  refine h (k + 1) (Nat.succ_lt_succ hk) (fun j hj => ?_) t' (by rwa [add_succ_index])
  cases j with
  | zero =>
      rw [add_zero_index, ht]
      exact Option.some_ne_none t
  | succ j =>
      rw [add_succ_index]
      exact hmapped j (Nat.lt_of_succ_lt_succ hj)

/-- What `vga_putchar` does Ring 3 cannot read. -/
lemma AgreeOnUser.putchar (hscreen : PrivateScreen L A) (h : AgreeOnUser L A s s')
    (v v' : Vga) : AgreeOnUser L A { s with vga := v } { s' with vga := v' } := by
  intro p hp
  have hram := h p hp
  rw [byte_of_not_inScreen (hscreen p hp), byte_of_not_inScreen (hscreen p hp)] at hram ⊢
  exact hram

/-- **A buffer that Ring 3 can read** is written alike in both runs. -/
lemma writeLoop_congr (hscreen : PrivateScreen L A) (hagree : AgreeOnUser L A s s')
    (h : OnlyUserBytes A buf n) :
    (writeLoop L A buf n 0 s).1 = (writeLoop L A buf n 0 s').1
      ∧ (writeLoop L A buf n 0 s).2.1 = (writeLoop L A buf n 0 s').2.1 := by
  induction n generalizing buf s s' with
  | zero => exact ⟨rfl, rfl⟩
  | succ n ih =>
      cases ht : A buf with
      | none =>
          rw [writeLoop_none ht, writeLoop_none ht]
          exact ⟨rfl, rfl⟩
      | some t =>
          have hbyte := hagree t.phys (h.head ht)
          obtain ⟨hout, hend⟩ := ih (hagree.putchar hscreen (vgaPutchar (s.byte L t.phys) s.vga)
            (vgaPutchar (s'.byte L t.phys) s'.vga)) (h.tail ht)
          rw [writeLoop_some ht, writeLoop_some ht]
          exact ⟨congrArg₂ List.cons hbyte hout, hend⟩

/-! ### Telling memories apart -/

/-- A character that `vga_putchar` ignores. -/
lemma vgaPutchar_one {v : Vga} (hx : v.cursorX < 80) (hy : v.cursorY < 25) :
    vgaPutchar 1 v = vgaUpdateCursor v := by
  have hscroll : vgaScrollIfNeeded v = v := if_neg (by simp only [vgaHeight]; omega)
  have hswitch : vgaSwitch 1 v = v := by
    rw [vgaSwitch, if_neg (by decide), if_neg (by decide), if_neg (by decide),
      if_neg (by decide), if_neg (by decide)]
  have hwrap : vgaWrap v = v := if_neg (by simp only [vgaWidth]; omega)
  rw [vgaPutchar, hscroll, hswitch, hwrap, hscroll]

/-- All that Ring 3 can read is such characters, and the cursor is on the screen. -/
structure Quiet (L : VgaLayout) (A : AddressSpace) (s : KernelData) : Prop where
  cursorX : s.vga.cursorX < 80
  cursorY : s.vga.cursorY < 25
  byte : ∀ p, UserReadable A p → s.byte L p = 1

/-- There what Ring 3 can read changes nothing that lies in memory. -/
lemma Quiet.putchar (h : Quiet L A s) :
    Quiet L A { s with vga := vgaPutchar 1 s.vga }
      ∧ ∀ p, KernelData.byte L { s with vga := vgaPutchar 1 s.vga } p = s.byte L p := by
  rw [vgaPutchar_one h.cursorX h.cursorY]
  exact ⟨⟨h.cursorX, h.cursorY, h.byte⟩, fun _ => rfl⟩

/-- **The first byte that Ring 3 cannot read** comes out as it is. -/
lemma Quiet.writeLoop_getElem (h : Quiet L A s) (hk : k < n)
    (hbefore : ∀ j < k, ∃ u, A (buf + BitVec.ofNat 64 j) = some u ∧ UserReadable A u.phys)
    (ht : A (buf + BitVec.ofNat 64 k) = some t) :
    (writeLoop L A buf n 0 s).1[k]? = some (s.byte L t.phys) := by
  induction k generalizing buf n s with
  | zero =>
      obtain ⟨n, rfl⟩ := Nat.exists_eq_add_of_lt hk
      rw [add_zero_index] at ht
      rw [Nat.zero_add, writeLoop_some ht]
      rfl
  | succ k ih =>
      obtain ⟨n, rfl⟩ : ∃ m, n = m + 1 := ⟨n - 1, by omega⟩
      obtain ⟨u, hu, hreadable⟩ := hbefore 0 (Nat.succ_pos k)
      rw [add_zero_index] at hu
      rw [writeLoop_some hu, h.byte u.phys hreadable, List.getElem?_cons_succ]
      obtain ⟨hquiet, hbyte⟩ := h.putchar
      rw [← hbyte t.phys]
      refine ih hquiet (Nat.lt_of_succ_lt_succ hk) (fun j hj => ?_) (by rwa [← add_succ_index])
      rw [← add_succ_index]
      exact hbefore (j + 1) (Nat.succ_lt_succ hj)

/-- Two memories with which the kernel can differ in the byte at `p`. -/
def darkData (p : BitVec 64) : KernelData where
  ram q := if q = p then 0 else 1
  vga := ⟨⟨fun _ => 0, fun _ => false⟩, 0, 0, 0, 0⟩

def brightData (p : BitVec 64) : KernelData where
  ram q := if q = p then 2 else 1
  vga := ⟨⟨fun _ => -1, fun _ => false⟩, -1, -1, -1, 0⟩

lemma byte_dark_ne_bright (p : BitVec 64) : (darkData p).byte L p ≠ (brightData p).byte L p := by
  have hcell : ∀ d < 2,
      (0 : BitVec 16).extractLsb' (8 * d) 8 ≠ (-1 : BitVec 16).extractLsb' (8 * d) 8 := by
    decide
  have hvar : ∀ d < 4, (BitVec.ofInt 32 0).extractLsb' (8 * d) 8
      ≠ (BitVec.ofInt 32 (-1)).extractLsb' (8 * d) 8 := by
    decide
  rw [KernelData.byte, KernelData.byte]
  split_ifs with h₁ h₂ h₃ h₄
  · exact hcell _ (Nat.mod_lt _ (by decide))
  · exact hvar _ h₂
  · exact hvar _ h₃
  · exact (by decide : (0 : BitVec 8) ≠ -1)
  · simp only [darkData, brightData, if_true]
    decide

/-- What Ring 3 can read in them it cannot tell apart. -/
lemma quiet_dark_bright (hscreen : PrivateScreen L A) (hp : ¬ UserReadable A p) :
    Quiet L A (darkData p) ∧ Quiet L A (brightData p) := by
  have hne : ∀ q, UserReadable A q → q ≠ p := fun q hq heq => hp (heq ▸ hq)
  have hpos : (0 : ℤ) < 80 ∧ (0 : ℤ) < 25 := by decide
  have hneg : (-1 : ℤ) < 80 ∧ (-1 : ℤ) < 25 := by decide
  refine ⟨⟨hpos.1, hpos.2, fun q hq => ?_⟩, ⟨hneg.1, hneg.2, fun q hq => ?_⟩⟩ <;>
    rw [byte_of_not_inScreen (hscreen q hq)] <;>
    exact if_neg (hne q hq)

/-- **A byte that Ring 3 cannot read** shows in the output. -/
lemma exists_writeLoop_ne (hscreen : PrivateScreen L A) (h : ¬ OnlyUserBytes A buf n) :
    ∃ s s', AgreeOnUser L A s s' ∧ (writeLoop L A buf n 0 s).1 ≠ (writeLoop L A buf n 0 s').1 := by
  classical
  -- the first one
  have hex : ∃ k, k < n ∧ (∀ j < k, A (buf + BitVec.ofNat 64 j) ≠ none)
      ∧ ∃ t, A (buf + BitVec.ofNat 64 k) = some t ∧ ¬ UserReadable A t.phys := by
    rw [OnlyUserBytes] at h
    push Not at h
    exact h
  obtain ⟨hk, hmapped, t, ht, hsecret⟩ := Nat.find_spec hex
  have hbefore : ∀ j < Nat.find hex,
      ∃ u, A (buf + BitVec.ofNat 64 j) = some u ∧ UserReadable A u.phys := by
    intro j hj
    obtain ⟨u, hu⟩ := Option.ne_none_iff_exists'.mp (hmapped j hj)
    refine ⟨u, hu, ?_⟩
    by_contra hsecret'
    exact Nat.find_min hex hj
      ⟨hj.trans hk, fun i hi => hmapped i (hi.trans hj), u, hu, hsecret'⟩
  obtain ⟨hdark, hbright⟩ := quiet_dark_bright hscreen hsecret
  refine ⟨darkData t.phys, brightData t.phys,
    fun q hq => (hdark.byte q hq).trans (hbright.byte q hq).symm, fun hout => ?_⟩
  have hout' := congrArg (fun l => l[Nat.find hex]?) hout
  rw [hdark.writeLoop_getElem hk hbefore ht, hbright.writeLoop_getElem hk hbefore ht] at hout'
  exact byte_dark_ne_bright t.phys (Option.some.inj hout')

/-- All other system calls look at no memory. -/
lemma undisclosed_of_not_write {syscallNum arg1 arg2 arg3 : BitVec 64}
    (h : ¬ (syscallNum = sysWrite ∧ arg1 = 1)) : Undisclosed L A syscallNum arg1 arg2 arg3 := by
  intro s s' _
  rw [syscallHandler, syscallHandler]
  split_ifs with h₁ h₂ h₃ h₄ h₅
  · exact ⟨rfl, rfl⟩
  · exact absurd ⟨h₂, h₃⟩ h
  all_goals exact ⟨rfl, rfl⟩

/-- `SYS_WRITE` to the standard output. -/
lemma syscallHandler_write {arg2 arg3 : BitVec 64} :
    (syscallHandler L A sysWrite 1 arg2 arg3 s).1 = (writeLoop L A arg2 arg3.toNat 0 s).1
      ∧ (syscallHandler L A sysWrite 1 arg2 arg3 s).2.1
        = if (writeLoop L A arg2 arg3.toNat 0 s).2.1 then .returned arg3 else .faulted :=
  ⟨rfl, rfl⟩

/-- **System calls reveal nothing** exactly where `SYS_WRITE` has only such bytes in its buffer that
Ring 3 can read itself. -/
theorem undisclosed_iff (hscreen : PrivateScreen L A) (syscallNum arg1 arg2 arg3 : BitVec 64) :
    Undisclosed L A syscallNum arg1 arg2 arg3
      ↔ (syscallNum = sysWrite → arg1 = 1 → OnlyUserBytes A arg2 arg3.toNat) := by
  by_cases hwrite : syscallNum = sysWrite ∧ arg1 = 1
  · obtain ⟨rfl, rfl⟩ := hwrite
    refine ⟨fun h _ _ => ?_, fun h s s' hagree => ?_⟩
    · by_contra hbytes
      obtain ⟨s, s', hagree, hne⟩ := exists_writeLoop_ne hscreen hbytes
      exact hne (h s s' hagree).1
    · obtain ⟨hout, hend⟩ := writeLoop_congr hscreen hagree (h rfl rfl)
      rw [syscallHandler_write.2, syscallHandler_write.2, hend]
      exact ⟨hout, rfl⟩
  · exact ⟨fun _ h₁ h₂ => absurd ⟨h₁, h₂⟩ hwrite, fun _ => undisclosed_of_not_write hwrite⟩

/-- The variables of `vga.c` in the kernel. -/
def linkedVga : VgaLayout where
  cursorX := 0x110000
  cursorY := 0x110004
  color := 0x110008

/-- One page for Ring 3, in an identity map of the first gigabyte. -/
def taskSpace : AddressSpace := fun virt =>
  if 0x400000 ≤ virt.toNat ∧ virt.toNat < 0x401000 then some ⟨virt - 0x100000, true, true⟩
  else if virt.toNat < 0x40000000 then some ⟨virt, true, false⟩ else none

lemma privateScreen_taskSpace : PrivateScreen linkedVga taskSpace := by
  rintro p ⟨virt, t, ht, huser, rfl⟩ hin
  rw [taskSpace] at ht
  split_ifs at ht with hpage hlow
  · obtain rfl := Option.some.inj ht
    have hphys : (virt - 0x100000).toNat = virt.toNat - 0x100000 := by
      have h1 : (0x100000 : BitVec 64).toNat = 0x100000 := rfl
      rw [BitVec.toNat_sub, h1]
      omega
    have hfar : ∀ b : BitVec 64, b.toNat ≤ 0x200000 →
        (virt - 0x100000 - b).toNat = virt.toNat - 0x100000 - b.toNat := by
      intro b hb
      rw [BitVec.toNat_sub, hphys]
      omega
    have hfar' : ∀ b : BitVec 64, b.toNat ≤ 0x200000 → ¬ (virt - 0x100000 - b).toNat < 4000 := by
      intro b hb
      rw [hfar b hb]
      omega
    have hcolor : linkedVga.color.toNat = 0x110008 := rfl
    obtain h | h | h | h := hin
    · exact hfar' vgaMemory (by decide) h
    · exact hfar' linkedVga.cursorX (by decide) (h.trans (by decide))
    · exact hfar' linkedVga.cursorY (by decide) (h.trans (by decide))
    · dsimp only at h
      rw [h, hcolor] at hphys
      omega
  · obtain rfl := Option.some.inj ht
    cases huser

/-- The system call of the program of `cmd_usertest`. -/
theorem undisclosed_hello : Undisclosed linkedVga taskSpace sysWrite 1 0x400029 14 := by
  refine (undisclosed_iff privateScreen_taskSpace sysWrite 1 0x400029 14).mpr
    fun _ _ k hk _ t ht => ?_
  have hk' : k < 14 := hk
  have haddr : (0x400029 + BitVec.ofNat 64 k : BitVec 64).toNat = 0x400029 + k := by
    have h1 : (0x400029 : BitVec 64).toNat = 0x400029 := rfl
    rw [BitVec.toNat_add, BitVec.toNat_ofNat, h1]
    omega
  refine ⟨_, t, ht, ?_, rfl⟩
  rw [taskSpace, if_pos (by omega)] at ht
  exact (congrArg Translation.user (Option.some.inj ht)).symm

/-- Nothing in the page tables of stage 2 is accessible to Ring 3. -/
lemma not_userReadable_boot {pml4Table : BitVec 32} (hboot : Stage2Tables pml4Table) (ram : PhysMem)
    (p : BitVec 64) :
    ¬ UserReadable (addressSpace (setupPaging pml4Table ram) (bootPml4 pml4Table)) p := by
  rintro ⟨virt, t, ht, huser, -⟩
  rw [addressSpace] at ht
  split_ifs at ht with hcanonical
  rw [← bootVmm_mem] at ht
  have hconf := (VmmRun.IsolationInv.boot hboot ram).confined
  exact Bool.false_ne_true (hconf virt hcanonical t ht huser)

/-- Where stage 2 put them. -/
def bootSpace : AddressSpace := addressSpace (setupPaging 0x9000 zeroRam) (bootPml4 0x9000)

/-- **A byte of the kernel is disclosed**: the first one of its code. -/
theorem kernel_byte_disclosed : ¬ Undisclosed linkedVga bootSpace sysWrite 1 0x100000 1 := by
  intro h
  have hspace : bootSpace 0x100000 = some ⟨0x100000, true, false⟩ := by decide +kernel
  have hout := (h (darkData 0x100000) (brightData 0x100000)
    fun p hp => absurd hp (not_userReadable_boot stage2Tables_9000 zeroRam p)).1
  rw [syscallHandler_write.1, syscallHandler_write.1] at hout
  have hlen : (1 : BitVec 64).toNat = 0 + 1 := rfl
  rw [hlen, writeLoop_some hspace, writeLoop_some hspace] at hout
  exact byte_dark_ne_bright 0x100000 (List.cons.inj hout).1

end KiOS
