import KiOS.Library.CopyLoop

/-!
Stage 2 loads the kernel (`load_kernel_16`) and copies it to its place (`protected_mode_entry`).

* `Dap`: a request to the BIOS, with the sectors it reads and where they go;
* `loadNext`: the loop, in its 16-bit registers; `loadKernel16`: all its requests;
* `transferAll`, `protectedModeCopy`: what the requests and the copy do to the memory;
* `LoadsExactly`: the requests are small, in order and inside conventional memory, and the copy is
  the kernel;
* `loadsExactly_iff`: this is so up to 256 sectors and no further.
-/

namespace KiOS

/-- The physical memory, or a disk, byte by byte. -/
abbrev Bytes := ℕ → BitVec 8

/-- `kernel_lba_start`. -/
def kernelLbaStart : BitVec 16 := 34

/-- `KERNEL_PHYS_ADDR`. -/
def kernelPhysAddr : ℕ := 0x100000

/-- Where the BIOS loads the kernel. -/
def loadBuffer : ℕ := 0x80000

/-- Behind the conventional memory: the window of the VGA. -/
def vgaWindow : ℕ := 0xA0000

/-- `dap`: the fields that change. -/
structure Dap where
  sectors : BitVec 16
  offset : BitVec 16
  segment : BitVec 16
  lba : BitVec 16
  deriving DecidableEq, Repr

/-- The address of the buffer. -/
def Dap.buffer (d : Dap) : ℕ := d.segment.toNat * 16 + d.offset.toNat

/-- The sectors it reads, each with the address it goes to. -/
def Dap.reads (d : Dap) : List (ℕ × ℕ) :=
  (List.range d.sectors.toNat).map fun i => (d.lba.toNat + i, d.buffer + 512 * i)

/-- INT 13h, AH = 42h. -/
def Dap.transfer (disk : Bytes) (m : Bytes) (d : Dap) : Bytes := fun a =>
  if d.buffer ≤ a ∧ a < d.buffer + 512 * d.sectors.toNat then
    disk (512 * d.lba.toNat + (a - d.buffer))
  else m a

/-- `cmp ax, 16; jle .use_ax; mov ax, 16`. The comparison is a signed one. -/
def chunk (cx : BitVec 16) : BitVec 16 := if cx.sle 16 then cx else 16

lemma chunk_le (cx : BitVec 16) : (chunk cx).toNat ≤ cx.toNat := by
  rw [chunk]
  split_ifs with h
  · exact le_rfl
  · have hlt : (16 : BitVec 16).slt cx = true := by
      rw [BitVec.sle_eq_not_slt] at h
      simpa using h
    rw [BitVec.slt_eq_decide, decide_eq_true_iff] at hlt
    have h16 : (16 : BitVec 16).toInt = 16 := rfl
    have hle : cx.toInt ≤ cx.toNat := by
      rw [BitVec.toInt_eq_toNat_cond]
      split_ifs <;> omega
    have h16' : (16 : BitVec 16).toNat = 16 := rfl
    omega

lemma chunk_pos {cx : BitVec 16} (h : cx ≠ 0) : 0 < (chunk cx).toNat := by
  rw [chunk]
  split_ifs
  · have h0 : cx.toNat ≠ 0 := fun h0 => h (BitVec.eq_of_toNat_eq h0)
    omega
  · decide

/-- `.load_next`, with the count of sectors left, the segment of the buffer and the next sector. -/
def loadNext (cx bx lba : BitVec 16) : List Dap :=
  if cx = 0 then []
  else
    let bp := chunk cx
    ⟨bp, 0, bx, lba⟩ :: loadNext (cx - bp) (bx + (bp <<< 5)) (lba + bp)
termination_by cx.toNat
decreasing_by
  have hle := chunk_le cx
  have hpos := chunk_pos ‹¬ cx = 0›
  rw [BitVec.toNat_sub]
  omega

/-- The requests of `load_kernel_16`. -/
def loadKernel16 (kernelSectors : ℕ) : List Dap :=
  loadNext (BitVec.ofNat 16 kernelSectors) 0x8000 kernelLbaStart

/-- What they do to the memory. -/
def transferAll (disk : Bytes) (ds : List Dap) (m : Bytes) : Bytes :=
  ds.foldl (Dap.transfer disk) m

/-- The copy in `protected_mode_entry`. -/
def protectedModeCopy (kernelSectors : ℕ) (m : Bytes) : Bytes :=
  let ecx := (BitVec.ofNat 32 kernelSectors <<< 9) >>> 2
  copyUp 4 ecx.toNat loadBuffer kernelPhysAddr m

/-- The kernel comes to its place sector by sector. -/
structure LoadsExactly (n : ℕ) : Prop where
  small : ∀ d ∈ loadKernel16 n, d.sectors.toNat ≤ 16
  reads : (loadKernel16 n).flatMap Dap.reads
    = (List.range n).map fun i => (34 + i, loadBuffer + 512 * i)
  conventional : ∀ r ∈ (loadKernel16 n).flatMap Dap.reads, r.2 + 512 ≤ vgaWindow
  copied : ∀ disk m, ∀ j < 512 * n,
    protectedModeCopy n (transferAll disk (loadKernel16 n) m) (kernelPhysAddr + j)
      = disk (512 * 34 + j)

/-! ### The loop -/

variable {cx bx lba : BitVec 16} {n k r : ℕ} {disk m : Bytes}

/-- The count is small enough for the signed comparison. -/
lemma toNat_chunk (h : cx.toNat < 2 ^ 15) : (chunk cx).toNat = min cx.toNat 16 := by
  have hint : cx.toInt = cx.toNat := BitVec.toInt_eq_toNat_of_lt (by omega)
  have h16 : (16 : BitVec 16).toInt = 16 := rfl
  have h16' : (16 : BitVec 16).toNat = 16 := rfl
  rw [chunk, BitVec.sle_eq_decide, hint, h16]
  by_cases hle : (cx.toNat : ℤ) ≤ 16
  · rw [if_pos (decide_eq_true hle)]
    omega
  · rw [if_neg (by simpa using hle), h16']
    omega

lemma loadNext_zero : loadNext 0 bx lba = [] := by
  rw [loadNext, if_pos rfl]

lemma loadNext_of_ne (h : cx ≠ 0) :
    loadNext cx bx lba
      = ⟨chunk cx, 0, bx, lba⟩ ::
        loadNext (cx - chunk cx) (bx + (chunk cx <<< 5)) (lba + chunk cx) := by
  rw [loadNext, if_neg h]

/-- The registers after `k` sectors, with `r` left. -/
structure LoadState (k r : ℕ) (cx bx lba : BitVec 16) : Prop where
  le : k + r ≤ 256
  cx : cx.toNat = r
  bx : bx.toNat = 0x8000 + 32 * k
  lba : lba.toNat = 34 + k

/-- **A chunk** takes the registers on. -/
lemma LoadState.next (h : LoadState k r cx bx lba) :
    LoadState (k + min r 16) (r - min r 16) (cx - chunk cx) (bx + (chunk cx <<< 5))
      (lba + chunk cx) := by
  have hle := h.le
  have hcx := h.cx
  have hbx := h.bx
  have hlba := h.lba
  have hchunk : (chunk cx).toNat = min r 16 := by
    rw [toNat_chunk (by omega), hcx]
  refine ⟨by omega, ?_, ?_, ?_⟩
  · rw [BitVec.toNat_sub, hchunk]
    omega
  · rw [BitVec.toNat_add, BitVec.toNat_shiftLeft, hchunk, Nat.shiftLeft_eq]
    omega
  · rw [BitVec.toNat_add, hchunk]
    omega

/-- **The requests** from such registers on: at most 16 sectors each, one after the other. -/
lemma loadNext_spec (h : LoadState k r cx bx lba) :
    (∀ d ∈ loadNext cx bx lba, d.sectors.toNat ≤ 16)
      ∧ (loadNext cx bx lba).flatMap Dap.reads
        = (List.range r).map fun i => (34 + (k + i), loadBuffer + 512 * (k + i)) := by
  induction r using Nat.strong_induction_on generalizing k cx bx lba with
  | _ r ih =>
      have hle := h.le
      by_cases hr : r = 0
      · subst hr
        have hcx : cx = 0 := BitVec.eq_of_toNat_eq h.cx
        rw [hcx, loadNext_zero]
        exact ⟨fun d hd => absurd hd List.not_mem_nil, rfl⟩
      · have hne : cx ≠ 0 := by
          rintro rfl
          exact hr h.cx.symm
        have hchunk : (chunk cx).toNat = min r 16 := by
          rw [toNat_chunk (by have := h.cx; omega), h.cx]
        obtain ⟨hsmall, hreads⟩ := ih (r - min r 16) (by omega) h.next
        rw [loadNext_of_ne hne]
        refine ⟨fun d hd => ?_, ?_⟩
        · cases List.mem_cons.mp hd with
          | inl hfirst =>
              rw [hfirst]
              exact hchunk.trans_le (Nat.min_le_right r 16)
          | inr hrest => exact hsmall d hrest
        · have hsplit : r = min r 16 + (r - min r 16) := by omega
          have hbuffer : (⟨chunk cx, 0, bx, lba⟩ : Dap).buffer = loadBuffer + 512 * k := by
            have hbx := h.bx
            have h0 : (0 : BitVec 16).toNat = 0 := rfl
            rw [Dap.buffer, h0, loadBuffer]
            dsimp only
            omega
          have hfirst : (⟨chunk cx, 0, bx, lba⟩ : Dap).reads
              = (List.range (min r 16)).map
                fun i => (34 + (k + i), loadBuffer + 512 * (k + i)) := by
            rw [Dap.reads, hbuffer]
            dsimp only
            rw [hchunk, h.lba]
            exact List.map_congr_left fun i _ => Prod.ext (by omega) (by dsimp only; omega)
          rw [List.flatMap_cons, hfirst, hreads]
          conv_rhs => rw [hsplit, List.range_add, List.map_append, List.map_map]
          refine congrArg _ (List.map_congr_left fun i _ => ?_)
          dsimp only [Function.comp_apply]
          rw [Nat.add_assoc]

lemma loadState_init (h : n ≤ 256) : LoadState 0 n (BitVec.ofNat 16 n) 0x8000 kernelLbaStart := by
  refine ⟨by omega, ?_, rfl, rfl⟩
  rw [BitVec.toNat_ofNat]
  omega

/-! ### The memory -/

/-- One sector arrives. -/
def readSector (disk m : Bytes) (r : ℕ × ℕ) : Bytes := fun a =>
  if r.2 ≤ a ∧ a < r.2 + 512 then disk (512 * r.1 + (a - r.2)) else m a

/-- Sectors that lie one after the other on the disk and in the memory. -/
lemma foldl_readSector (disk m : Bytes) (lba buffer n a : ℕ) :
    ((List.range n).map fun i => (lba + i, buffer + 512 * i)).foldl (readSector disk) m a
      = if buffer ≤ a ∧ a < buffer + 512 * n then disk (512 * lba + (a - buffer)) else m a := by
  induction n with
  | zero =>
      have hno : ¬ (buffer ≤ a ∧ a < buffer + 512 * 0) := by omega
      rw [if_neg hno]
      rfl
  | succ n ih =>
      rw [List.range_succ, List.map_append, List.foldl_append, List.map_singleton,
        List.foldl_cons, List.foldl_nil, readSector]
      dsimp only
      rw [ih]
      by_cases hlast : buffer + 512 * n ≤ a ∧ a < buffer + 512 * n + 512
      · have hin : buffer ≤ a ∧ a < buffer + 512 * (n + 1) := by omega
        have haddr : 512 * (lba + n) + (a - (buffer + 512 * n)) = 512 * lba + (a - buffer) := by
          omega
        rw [if_pos hlast, if_pos hin, haddr]
      · rw [if_neg hlast]
        have hiff : (buffer ≤ a ∧ a < buffer + 512 * n)
            ↔ buffer ≤ a ∧ a < buffer + 512 * (n + 1) := by
          omega
        simp only [hiff]

/-- A request is the sum of its sectors. -/
lemma transfer_eq (disk m : Bytes) (d : Dap) :
    d.transfer disk m = d.reads.foldl (readSector disk) m := by
  funext a
  rw [Dap.reads, foldl_readSector, Dap.transfer]

lemma transferAll_eq (disk m : Bytes) (ds : List Dap) :
    transferAll disk ds m = (ds.flatMap Dap.reads).foldl (readSector disk) m := by
  induction ds generalizing m with
  | nil => rfl
  | cons d ds ih =>
      have hcons : transferAll disk (d :: ds) m = transferAll disk ds (d.transfer disk m) := rfl
      rw [hcons, ih, List.flatMap_cons, List.foldl_append, transfer_eq]

/-- **The memory after loading**: up to 256 sectors lie in the buffer. -/
lemma transferAll_loadKernel16 (h : n ≤ 256) (disk m : Bytes) (a : ℕ) :
    transferAll disk (loadKernel16 n) m a
      = if loadBuffer ≤ a ∧ a < loadBuffer + 512 * n then disk (512 * 34 + (a - loadBuffer))
        else m a := by
  have hreads := (loadNext_spec (loadState_init h)).2
  simp only [Nat.zero_add] at hreads
  rw [transferAll_eq, loadKernel16, hreads, foldl_readSector]

/-- The count of the copy, in bytes. -/
lemma copyCount (h : n < 2 ^ 16) : 4 * ((BitVec.ofNat 32 n <<< 9) >>> 2).toNat = 512 * n := by
  rw [BitVec.toNat_ushiftRight, BitVec.toNat_shiftLeft, BitVec.toNat_ofNat, Nat.shiftLeft_eq,
    Nat.shiftRight_eq_div_pow]
  omega

/-- **The copy**: a byte arrives as long as the source lies below the target. -/
lemma protectedModeCopy_inside {j : ℕ} (hn : n < 2 ^ 16) (hj : j < 512 * n)
    (hlow : loadBuffer + j < kernelPhysAddr) :
    protectedModeCopy n m (kernelPhysAddr + j) = m (loadBuffer + j) :=
  copyUp_inside (by rw [copyCount hn]; exact hj) (Or.inr hlow)

lemma protectedModeCopy_outside {a : ℕ} (hn : n < 2 ^ 16)
    (ha : a < kernelPhysAddr ∨ kernelPhysAddr + 512 * n ≤ a) :
    protectedModeCopy n m a = m a :=
  copyUp_outside (by rw [copyCount hn]; exact ha)

/-- A 257th sector would go to the window. -/
lemma LoadsExactly.le (h : LoadsExactly n) : n ≤ 256 := by
  by_contra hn
  have hmem : (34 + 256, loadBuffer + 512 * 256) ∈ (loadKernel16 n).flatMap Dap.reads := by
    rw [h.reads]
    exact List.mem_map.mpr ⟨256, List.mem_range.mpr (by omega), rfl⟩
  exact absurd (h.conventional _ hmem) (by decide)

/-- **Loading is exact** up to 256 sectors, which fill the memory between the buffer and the window
of the VGA. -/
theorem loadsExactly_iff (n : ℕ) : LoadsExactly n ↔ n ≤ 256 := by
  refine ⟨LoadsExactly.le, fun h => ?_⟩
  obtain ⟨hsmall, hreads⟩ := loadNext_spec (loadState_init h)
  simp only [Nat.zero_add] at hreads
  refine ⟨hsmall, hreads, fun r hr => ?_, fun disk m j hj => ?_⟩
  · rw [loadKernel16, hreads] at hr
    obtain ⟨i, hi, rfl⟩ := List.mem_map.mp hr
    have hi' := List.mem_range.mp hi
    rw [loadBuffer, vgaWindow]
    omega
  · have hbuffer : loadBuffer + j < kernelPhysAddr := by
      rw [loadBuffer, kernelPhysAddr]
      omega
    rw [protectedModeCopy_inside (by omega) hj hbuffer, transferAll_loadKernel16 h,
      if_pos (by omega), Nat.add_sub_cancel_left]

/-- **A kernel of 257 sectors**: the last one goes to the window of the VGA. -/
theorem load_257 : ¬ LoadsExactly 257 :=
  fun h => absurd h.le (by decide)

end KiOS
