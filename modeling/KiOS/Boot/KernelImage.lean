import KiOS.Boot.LoadKernel
import KiOS.Mm.VmmRefinement

/-!
The memory of the kernel when it starts: from the build (`makefile`, `linker.ld`) through stage 2
and `entry.asm` to the call of `kernel_main`.

* `KernelBuild`: what `objcopy` emits and where the linker puts the rest; `kernelBin`,
  `kernelSectors`: what the makefile makes of it;
* `bootMemory`: everything that writes to the memory, from `load_kernel_16` on;
* `BootIndependent`: the image is the same whatever the memory held before, and BSS is zero;
* `bootIndependent_iff`: this is so exactly where the sectors read from the disk cover BSS.
-/

namespace KiOS

/-- A linked kernel. -/
structure KernelBuild where
  /-- `.text`, `.rodata` and `.data`, as `objcopy -O binary` emits them. -/
  sections : List (BitVec 8)
  /-- `__bss_start`. -/
  bssStart : ℕ
  /-- `__bss_end`, which is `__kernel_end` too. -/
  kernelEnd : ℕ
  /-- `reboot_counter` in `.data`. -/
  rebootCounter : ℕ
  sections_le : kernelPhysAddr + sections.length ≤ bssStart
  aligned : bssStart % 4096 = 0
  bss_le : bssStart ≤ kernelEnd
  counter_ge : kernelPhysAddr ≤ rebootCounter
  counter_le : rebootCounter + 8 ≤ kernelPhysAddr + sections.length
  /-- `kernel_sectors` is a 16-bit operand. -/
  sectors_lt : sections.length ≤ 512 * 65535

namespace KernelBuild

/-- `kernel.bin`, filled up to 32 KB. -/
def kernelBin (K : KernelBuild) : List (BitVec 8) :=
  K.sections ++ List.replicate (32768 - K.sections.length) 0

/-- `KERNEL_SECTORS`. -/
def kernelSectors (K : KernelBuild) : ℕ := (K.kernelBin.length + 511) / 512

/-- The disk, with `kernel.bin` from sector 34 on. -/
def disk (K : KernelBuild) (rest : Bytes) : Bytes := fun a =>
  if 512 * 34 ≤ a ∧ a < 512 * 34 + K.kernelBin.length then K.kernelBin.getD (a - 512 * 34) 0
  else rest a

end KernelBuild

/-- The addresses that the code of stage 2 and of `entry.asm` contains. -/
structure BootCode where
  pml4Table : BitVec 32
  tables : Stage2Tables pml4Table
  /-- Behind `call setup_paging`. -/
  afterPaging : BitVec 32
  /-- Behind `call rax`. -/
  afterKernel : BitVec 64
  /-- Behind `call print_number_to_vga`. -/
  afterPrint : BitVec 64
  /-- Behind `call kernel_main`. -/
  afterMain : BitVec 64

/-! ### Writing to the memory -/

/-- A value of `w` bytes is stored. -/
def storeBytes {b : ℕ} (a w : ℕ) (v : BitVec b) (m : Bytes) : Bytes := fun x =>
  if a ≤ x ∧ x < a + w then v.extractLsb' (8 * (x - a)) 8 else m x

/-- `rep stosq`. -/
def repStosq (a n : ℕ) (v : BitVec 64) (m : Bytes) : Bytes := fun x =>
  if a ≤ x ∧ x < a + 8 * n then v.extractLsb' (8 * ((x - a) % 8)) 8 else m x

/-- A word of eight bytes. -/
def qword (m : Bytes) (a : ℕ) : BitVec 64 :=
  BitVec.ofFnLE fun i : Fin 64 => (m (a + i / 8)).getLsbD (i % 8)

/-- The tables of `setup_paging`, which it zeroes before it fills them. -/
def pagingBytes (pml4Table : BitVec 32) (m : Bytes) : Bytes := fun x =>
  if pml4Table.toNat ≤ x ∧ x < pml4Table.toNat + 0x3000 then
    ((setupPaging pml4Table zeroRam).word (BitVec.ofNat 52 (x / 4096))
      (BitVec.ofNat 9 (x % 4096 / 8))).extractLsb' (8 * (x % 8)) 8
  else m x

/-- What is stored between the window of the VGA and 1 MB need not be there when it is read. -/
def overlay (window m : Bytes) : Bytes := fun x =>
  if vgaWindow ≤ x ∧ x < kernelPhysAddr then window x else m x

/-- Stage 2 from `load_kernel_16` on. What was written before, by the BIOS and by both stages, lies
below the buffer and is a part of `ram`. -/
def stage2Memory (K : KernelBuild) (C : BootCode) (rest window ram : Bytes) : Bytes :=
  let m := transferAll (K.disk rest) (loadKernel16 K.kernelSectors) ram
  let m := protectedModeCopy K.kernelSectors (overlay window m)
  let m := storeBytes (0x90000 - 4) 4 C.afterPaging m
  let m := pagingBytes C.pml4Table m
  storeBytes (0x90000 - 8) 8 C.afterKernel m

/-- `_start` in `entry.asm` up to the first instruction of `kernel_main`. -/
def entryMemory (K : KernelBuild) (C : BootCode) (m : Bytes) : Bytes :=
  let m := repStosq 0xB8000 500 0x0720072007200720 m
  let m := repStosq 0xB8000 500 0x4141414141414141 m
  let m := repStosq 0xB8000 500 0x0720072007200720 m
  let m := repStosq 0xB8000 500 0x0720072007200720 m
  -- `inc qword [reboot_counter]`
  let m := storeBytes K.rebootCounter 8 (qword m K.rebootCounter + 1) m
  let m := storeBytes (0x500000 - 8) 8 C.afterPrint m
  storeBytes (0x500000 - 8) 8 C.afterMain m

/-- The memory when `kernel_main` begins. -/
def bootMemory (K : KernelBuild) (C : BootCode) (rest window ram : Bytes) : Bytes :=
  entryMemory K C (stage2Memory K C rest window ram)

/-- Nothing of what the memory held before is left in the image, and BSS is zero. -/
def BootIndependent (K : KernelBuild) (C : BootCode) (rest : Bytes) : Prop :=
  ∀ window window' ram ram',
    (∀ a, kernelPhysAddr ≤ a → a < K.kernelEnd →
      bootMemory K C rest window ram a = bootMemory K C rest window' ram' a)
      ∧ ∀ a, K.bssStart ≤ a → a < K.kernelEnd → bootMemory K C rest window ram a = 0

variable {K : KernelBuild} {C : BootCode} {rest window window' ram ram' m m' : Bytes} {a k : ℕ}

lemma storeBytes_outside {b w x : ℕ} {v : BitVec b} (h : x < a ∨ a + w ≤ x) :
    storeBytes a w v m x = m x :=
  if_neg (by omega)

lemma storeBytes_inside {b w : ℕ} {v : BitVec b} (h : k < w) :
    storeBytes a w v m (a + k) = v.extractLsb' (8 * k) 8 := by
  rw [storeBytes, if_pos (by omega), Nat.add_sub_cancel_left]

lemma repStosq_outside {n x : ℕ} {v : BitVec 64} (h : x < a ∨ a + 8 * n ≤ x) :
    repStosq a n v m x = m x :=
  if_neg (by omega)

/-- A byte of a word. -/
lemma extractLsb'_qword (hk : k < 8) : (qword m a).extractLsb' (8 * k) 8 = m (a + k) := by
  refine BitVec.eq_of_getLsbD_eq fun i hi => ?_
  have hdiv : (8 * k + i) / 8 = k := by omega
  have hmod : (8 * k + i) % 8 = i := by omega
  rw [BitVec.getLsbD_extractLsb', qword, BitVec.getLsbD_ofFnLE]
  simp [hi, hdiv, hmod, show 8 * k + i < 64 by omega]

lemma qword_congr (h : ∀ k < 8, m (a + k) = m' (a + k)) : qword m a = qword m' a := by
  refine BitVec.eq_of_getLsbD_eq fun i hi => ?_
  rw [qword, qword, BitVec.getLsbD_ofFnLE, BitVec.getLsbD_ofFnLE]
  simp only [hi, dite_true]
  rw [h (i / 8) (by omega)]

/-- A word is its bytes. -/
lemma eq_of_extractLsb' {v v' : BitVec 64}
    (h : ∀ k < 8, v.extractLsb' (8 * k) 8 = v'.extractLsb' (8 * k) 8) : v = v' := by
  refine BitVec.eq_of_getLsbD_eq fun i hi => ?_
  have hbit := congrArg (fun b => b.getLsbD (i % 8)) (h (i / 8) (by omega))
  have hsum : 8 * (i / 8) + i % 8 = i := by omega
  simp only [BitVec.getLsbD_extractLsb', hsum, Nat.mod_lt i (show 0 < 8 by norm_num), decide_true,
    Bool.true_and] at hbit
  exact hbit

/-! ### The two halves of the way -/

/-- Above 1 MB stage 2 writes with its copy only. -/
lemma stage2Memory_high (ha : kernelPhysAddr ≤ a) :
    stage2Memory K C rest window ram a
      = protectedModeCopy K.kernelSectors
        (overlay window (transferAll (K.disk rest) (loadKernel16 K.kernelSectors) ram)) a := by
  have hlow := C.tables.low
  rw [kernelPhysAddr] at ha
  rw [stage2Memory, storeBytes_outside (by omega), pagingBytes, if_neg (by omega),
    storeBytes_outside (by omega)]

/-- `entry.asm` leaves the image alone but for its counter. -/
lemma entryMemory_of_ne (ha : kernelPhysAddr ≤ a) (hstack : a + 8 < 0x500000)
    (hcounter : a < K.rebootCounter ∨ K.rebootCounter + 8 ≤ a) : entryMemory K C m a = m a := by
  rw [kernelPhysAddr] at ha
  rw [entryMemory, storeBytes_outside (by omega), storeBytes_outside (by omega),
    storeBytes_outside hcounter, repStosq_outside (by omega), repStosq_outside (by omega),
    repStosq_outside (by omega), repStosq_outside (by omega)]

/-- The counter. -/
lemma entryMemory_counter (hstack : K.rebootCounter + 16 < 0x500000) (hk : k < 8) :
    entryMemory K C m (K.rebootCounter + k)
      = (qword m K.rebootCounter + 1).extractLsb' (8 * k) 8 := by
  have hge := K.counter_ge
  rw [kernelPhysAddr] at hge
  rw [entryMemory, storeBytes_outside (by omega), storeBytes_outside (by omega),
    storeBytes_inside hk]
  have hscreen : ∀ j < 8, repStosq 0xB8000 500 0x0720072007200720
      (repStosq 0xB8000 500 0x0720072007200720 (repStosq 0xB8000 500 0x4141414141414141
        (repStosq 0xB8000 500 0x0720072007200720 m))) (K.rebootCounter + j)
      = m (K.rebootCounter + j) := by
    intro j hj
    rw [repStosq_outside (by omega), repStosq_outside (by omega), repStosq_outside (by omega),
      repStosq_outside (by omega)]
  rw [qword_congr hscreen]

/-- **What differs before `entry.asm` differs after it.** -/
lemma entryMemory_inj (h : ∀ x, kernelPhysAddr ≤ x → x < K.kernelEnd →
      entryMemory K C m x = entryMemory K C m' x) (ha : kernelPhysAddr ≤ a) (hend : a < K.kernelEnd)
    (hstack : a < 0x400000) : m a = m' a := by
  have hge := K.counter_ge
  have hle := K.counter_le
  have hsec := K.sections_le
  have hbss := K.bss_le
  by_cases hcounter : a < K.rebootCounter ∨ K.rebootCounter + 8 ≤ a
  · have hsame := h a ha hend
    rwa [entryMemory_of_ne ha (by omega) hcounter, entryMemory_of_ne ha (by omega) hcounter]
      at hsame
  · have hword : qword m K.rebootCounter + 1 = qword m' K.rebootCounter + 1 := by
      refine eq_of_extractLsb' fun k hk => ?_
      rw [← entryMemory_counter (C := C) (by omega) hk,
        ← entryMemory_counter (C := C) (by omega) hk]
      exact h _ (by omega) (by omega)
    have hoff : a = K.rebootCounter + (a - K.rebootCounter) := by omega
    rw [hoff, ← extractLsb'_qword (m := m) (by omega), ← extractLsb'_qword (m := m') (by omega),
      add_right_cancel hword]

lemma kernelSectors_lt (K : KernelBuild) : K.kernelSectors < 2 ^ 16 := by
  have hlt := K.sectors_lt
  rw [KernelBuild.kernelSectors, KernelBuild.kernelBin, List.length_append, List.length_replicate]
  omega

/-- What the copy brings, up to the window. -/
lemma stage2Memory_loaded (hn : K.kernelSectors ≤ 256) {j : ℕ} (hj : j < 512 * K.kernelSectors) :
    stage2Memory K C rest window ram (kernelPhysAddr + j) = K.disk rest (512 * 34 + j) := by
  have hlow : loadBuffer + j < vgaWindow := by
    rw [loadBuffer, vgaWindow]
    omega
  have hbelow : loadBuffer + j < kernelPhysAddr := hlow.trans (by decide)
  rw [stage2Memory_high (Nat.le_add_right _ _),
    protectedModeCopy_inside (kernelSectors_lt K) hj hbelow, overlay,
    if_neg (fun h => absurd h.1 (by omega)), transferAll_loadKernel16 hn, if_pos (by omega),
    Nat.add_sub_cancel_left]

/-- What it does not bring. -/
lemma stage2Memory_rest (hn : K.kernelSectors ≤ 256)
    (ha : kernelPhysAddr + 512 * K.kernelSectors ≤ a) :
    stage2Memory K C rest window ram a = ram a := by
  have hbuffer : loadBuffer + 512 * K.kernelSectors ≤ a := by
    rw [kernelPhysAddr] at ha
    rw [loadBuffer]
    omega
  rw [stage2Memory_high (by omega), protectedModeCopy_outside (kernelSectors_lt K) (Or.inr ha),
    overlay, if_neg (by omega), transferAll_loadKernel16 hn, if_neg (by omega)]

/-- What it brings from the window. -/
lemma stage2Memory_window (hn : 256 < K.kernelSectors) :
    stage2Memory K C rest window ram (kernelPhysAddr + 0x20000) = window vgaWindow := by
  have haddr : loadBuffer + 0x20000 = vgaWindow := rfl
  rw [stage2Memory_high (Nat.le_add_right _ _),
    protectedModeCopy_inside (kernelSectors_lt K) (by omega) (by decide), haddr, overlay,
    if_pos (by decide)]

/-- The length of `kernel.bin`. -/
lemma length_kernelBin (K : KernelBuild) :
    K.kernelBin.length = max K.sections.length 32768 := by
  rw [KernelBuild.kernelBin, List.length_append, List.length_replicate]
  omega

/-- The filling is zero. -/
lemma disk_filling {j : ℕ} (hge : K.sections.length ≤ j) (hlt : j < K.kernelBin.length) :
    K.disk rest (512 * 34 + j) = 0 := by
  rw [KernelBuild.disk, if_pos (by omega), Nat.add_sub_cancel_left, KernelBuild.kernelBin,
    List.getD_append_right _ _ _ _ hge]
  exact List.getD_replicate 0 (by rw [length_kernelBin] at hlt; omega)

/-! ### The condition -/

/-- More sectors than the buffer holds leave a byte of the window in the image. -/
lemma BootIndependent.sectors_le (h : BootIndependent K C rest) : K.kernelSectors ≤ 256 := by
  by_contra hn
  have hsec := K.sections_le
  have hbss := K.bss_le
  have hlen : 0x20000 < K.sections.length := by
    have hbin := length_kernelBin K
    rw [KernelBuild.kernelSectors] at hn
    omega
  obtain ⟨hsame, -⟩ := h (fun _ => 0) (fun _ => 1) (fun _ => 0) (fun _ => 0)
  have hbyte := entryMemory_inj hsame (a := kernelPhysAddr + 0x20000) (by omega) (by omega)
    (by decide)
  rw [stage2Memory_window (by omega), stage2Memory_window (by omega)] at hbyte
  exact absurd hbyte (by decide)

/-- A part of the image that is not loaded keeps what the memory held. -/
lemma BootIndependent.kernelEnd_le (h : BootIndependent K C rest) :
    K.kernelEnd ≤ kernelPhysAddr + 512 * K.kernelSectors := by
  by_contra hend
  have hn := h.sectors_le
  obtain ⟨hsame, -⟩ := h (fun _ => 0) (fun _ => 0) (fun _ => 0) (fun _ => 1)
  have hlow : kernelPhysAddr + 512 * K.kernelSectors < 0x400000 := by
    rw [kernelPhysAddr]
    omega
  have hbyte := entryMemory_inj hsame (a := kernelPhysAddr + 512 * K.kernelSectors) (by omega)
    (by omega) hlow
  rw [stage2Memory_rest hn le_rfl, stage2Memory_rest hn le_rfl] at hbyte
  exact absurd hbyte (by decide)

/-- In a loaded image BSS lies in the filling. -/
lemma bss_in_filling (hend : K.kernelEnd ≤ kernelPhysAddr + 512 * K.kernelSectors)
    (ha : K.bssStart ≤ a) (hlt : a < K.kernelEnd) : a - kernelPhysAddr < K.kernelBin.length := by
  have hsec := K.sections_le
  have haligned := K.aligned
  have hbin := length_kernelBin K
  rw [KernelBuild.kernelSectors] at hend
  rw [kernelPhysAddr] at *
  omega

/-- **The boot does not depend on what the memory held** exactly where the kernel has at most 256
sectors and the sectors cover its image up to the end of BSS. -/
theorem bootIndependent_iff (K : KernelBuild) (C : BootCode) (rest : Bytes) :
    BootIndependent K C rest
      ↔ K.kernelSectors ≤ 256 ∧ K.kernelEnd ≤ kernelPhysAddr + 512 * K.kernelSectors := by
  refine ⟨fun h => ⟨h.sectors_le, h.kernelEnd_le⟩, fun h window window' ram ram' => ?_⟩
  obtain ⟨hn, hend⟩ := h
  have hsec := K.sections_le
  have hbss := K.bss_le
  have hge := K.counter_ge
  have hle := K.counter_le
  have hstack : kernelPhysAddr + 512 * K.kernelSectors < 0x400000 := by
    rw [kernelPhysAddr]
    omega
  -- what stage 2 leaves in the image comes from the disk
  have hloaded : ∀ window ram x, kernelPhysAddr ≤ x → x < K.kernelEnd →
      stage2Memory K C rest window ram x = K.disk rest (512 * 34 + (x - kernelPhysAddr)) := by
    intro window ram x hx hlt
    have hoff : x = kernelPhysAddr + (x - kernelPhysAddr) := by omega
    have hsame : stage2Memory K C rest window ram (kernelPhysAddr + (x - kernelPhysAddr)) = _ :=
      stage2Memory_loaded hn (by omega)
    rwa [← hoff] at hsame
  refine ⟨fun a ha hlt => ?_, fun a ha hlt => ?_⟩
  · by_cases hcounter : a < K.rebootCounter ∨ K.rebootCounter + 8 ≤ a
    · rw [bootMemory, bootMemory, entryMemory_of_ne ha (by omega) hcounter,
        entryMemory_of_ne ha (by omega) hcounter, hloaded _ _ a ha hlt, hloaded _ _ a ha hlt]
    · have hoff : a = K.rebootCounter + (a - K.rebootCounter) := by omega
      have hword : qword (stage2Memory K C rest window ram) K.rebootCounter
          = qword (stage2Memory K C rest window' ram') K.rebootCounter := by
        refine qword_congr fun k hk => ?_
        rw [hloaded _ _ _ (by omega) (by omega), hloaded _ _ _ (by omega) (by omega)]
      rw [bootMemory, bootMemory, hoff, entryMemory_counter (by omega) (by omega),
        entryMemory_counter (by omega) (by omega), hword]
  · rw [bootMemory, entryMemory_of_ne (by omega) (by omega) (by omega),
      hloaded _ _ a (by omega) hlt]
    exact disk_filling (by omega) (bss_in_filling hend ha hlt)

/-- A kernel of 80 sectors with five pages of BSS. -/
def linkedKernel : KernelBuild where
  sections := List.replicate 40960 0x90
  bssStart := 0x10A000
  kernelEnd := 0x10F000
  rebootCounter := 0x109000
  sections_le := by rw [List.length_replicate]; decide
  aligned := by decide
  bss_le := by decide
  counter_ge := by decide
  counter_le := by rw [List.length_replicate]; decide
  sectors_lt := by rw [List.length_replicate]; decide

/-- The addresses in stage 2 and `entry.asm`. -/
def linkedCode : BootCode where
  pml4Table := 0x9000
  tables := stage2Tables_9000
  afterPaging := 0x8180
  afterKernel := 0x8240
  afterPrint := 0x1000F0
  afterMain := 0x1000F5

/-- **BSS as the memory held it**: the boot of such a kernel. -/
theorem bss_not_zeroed : ¬ BootIndependent linkedKernel linkedCode (fun _ => 0) := by
  intro h
  have hend := h.kernelEnd_le
  have hbin := length_kernelBin linkedKernel
  have hlen : linkedKernel.sections.length = 40960 := List.length_replicate
  rw [KernelBuild.kernelSectors, hbin, hlen] at hend
  exact absurd hend (by decide)

end KiOS
