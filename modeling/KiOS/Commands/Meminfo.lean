import KiOS.Commands.HeapTest
import KiOS.Commands.Report
import KiOS.Mm.HeapBacking
import KiOS.Mm.PmmRefinement

/-!
The command `meminfo` (`commands/meminfo.c`): the accounts of the memory managers, on the screen.

* `cmdMeminfo`: the function of the source, which breaks down where it would divide by zero;
* `MemFacts`: what the report is about, and its lines; `MemFacts.of`: the truth in a run;
* `KernelRun.Books`: the counters of PMM and heap agree with the free pages and the blocks;
* `meminfo_true`: in every state the kernel reaches the report tells the truth and can be read.
-/

namespace KiOS

/-- `heap_total_allocated`. -/
def heapTotalAllocated (k : Kernel Pmm) : BitVec 64 := k.heapTotalAlloc

/-- `heap_current_size`. -/
def heapCurrentSize (k : Kernel Pmm) : BitVec 64 := k.heapCurrentPtr - heapStart

open VgaRun in
/-- One line about pages: their number and their size. -/
def meminfoPages (label : String) (dec dec' : Chars) (pages : BitVec 64) :
    VgaRun → Option VgaRun :=
  inTurn [print label, printDec dec pages, print " (", printDec dec' (pages * 4), println " KB)"]

open VgaRun in
/-- `cmd_meminfo`, for what each call of `vga_print_dec` and `vga_print_hex` finds in its local
buffer and what CR3 holds. -/
def cmdMeminfo (dec hex : ℕ → Chars) (cr3 : BitVec 64) (k : Kernel Pmm) :
    VgaRun → Option VgaRun :=
  let totalPages := BitVec.ofNat 64 k.pmm.totalPages
  let usedPages := k.pmm.usedPages
  let freePages := totalPages - usedPages
  let usagePercent := usedPages * 100 / totalPages
  let heapPages := (heapCurrentSize k + 4095) / 4096
  let colored := fun str s => some (s.printColored (String.toList str) 11 0)
  inTurn
    [println "", println "=== Memory Information ===", println "",
      colored "Physical Memory Manager (PMM):", println "",
      meminfoPages "  Total Pages:  " (dec 0) (dec 1) totalPages,
      meminfoPages "  Used Pages:   " (dec 2) (dec 3) usedPages,
      meminfoPages "  Free Pages:   " (dec 4) (dec 5) freePages,
      if totalPages = 0 then fun _ => none else print "  Usage:        ",
      printDec (dec 6) usagePercent, println "%", println "",
      colored "Virtual Memory Manager (VMM):", println "",
      print "  PML4 Address: ", printHex (hex 0) cr3, println "",
      print "  Page Size:    ", println "4 KB",
      print "  Levels:       ", println "4 (PML4 -> PDPT -> PD -> PT)", println "",
      colored "Kernel Heap:", println "",
      print "  Base Address: ", printHex (hex 1) 0xFFFF800000000000, println "",
      print "  Allocated:    ", printDec (dec 7) (heapTotalAllocated k), println " bytes",
      print "  Current Size: ", printDec (dec 8) (heapCurrentSize k), println " bytes",
      print "  Pages Mapped: ", printDec (dec 9) heapPages, println "",
      println "", println "=========================", println ""]

/-- What a report is about: all pages, the free ones, the bytes of the heap that are given away,
and the tables. -/
structure MemFacts where
  total : ℕ
  free : ℕ
  heap : ℕ
  cr3 : BitVec 64

/-- The bytes of a block with those that round it up. -/
def Block.rounded (b : Block) : ℕ := (b.size.toNat + 15) / 16 * 16

/-- The truth about a state of the kernel. -/
def MemFacts.of (entries : List MemoryMapEntry) (cr3 : BitVec 64) (s : KernelRun) : MemFacts where
  total := pageTotal entries
  free := s.kernel.pmm.freeSet.card
  heap := (s.blocks.map Block.rounded).sum
  cr3 := cr3

namespace MemFacts

/-- A number of pages and the kilobytes they hold. -/
def pagesText (n : ℕ) : Chars :=
  decText n ++ (spelling " (" ++ (decText ↑(4 * n) ++ spelling " KB)"))

/-- The lines of the report. -/
def lines (f : MemFacts) : List Chars :=
  [spelling "=== Memory Information ===",
    [],
    spelling "Physical Memory Manager (PMM):",
    spelling "  Total Pages:  " ++ pagesText f.total,
    spelling "  Used Pages:   " ++ pagesText (f.total - f.free),
    spelling "  Free Pages:   " ++ pagesText f.free,
    spelling "  Usage:        " ++ (decText ↑((f.total - f.free) * 100 / f.total) ++ spelling "%"),
    [],
    spelling "Virtual Memory Manager (VMM):",
    spelling "  PML4 Address: " ++ hexText f.cr3.toNat,
    spelling "  Page Size:    " ++ spelling "4 KB",
    spelling "  Levels:       " ++ spelling "4 (PML4 -> PDPT -> PD -> PT)",
    [],
    spelling "Kernel Heap:",
    spelling "  Base Address: " ++ hexText heapStart.toNat,
    spelling "  Allocated:    " ++ (decText f.heap ++ spelling " bytes"),
    spelling "  Current Size: " ++ (decText f.heap ++ spelling " bytes"),
    spelling "  Pages Mapped: " ++ decText ↑((f.heap + 4095) / 4096),
    [],
    spelling "=========================",
    []]

end MemFacts

/-! ### The accounts -/

/-- The counters agree with the free pages and with the blocks. -/
structure KernelRun.Books (total : ℕ) (s : KernelRun) : Prop where
  total : s.kernel.pmm.totalPages = total
  ptr : s.kernel.heapCurrentPtr.toNat = heapStart.toNat + (s.blocks.map Block.rounded).sum
  alloc : s.kernel.heapTotalAlloc = s.kernel.heapCurrentPtr - heapStart

namespace KernelRun.Books

variable {pml4 : Frame} {total : ℕ} {s u : KernelRun} {e : KernelEvent} {size : BitVec 64}

lemma pmmFree_totalPages (m : Pmm) (phys : BitVec 64) :
    (pmmFree m phys).totalPages = m.totalPages := by
  rw [pmmFree, pmmFreePage, Pmm.release]
  cases m.bitmap[phys.toNat / 4096 / 8]? with
  | none => rfl
  | some cell =>
      dsimp only
      split_ifs <;> rfl

lemma kmalloc_totalPages (pml4 : Frame) (size : BitVec 64) (k : Kernel Pmm) :
    (kmalloc pmmAlloc pml4 size k).2.pmm.totalPages = k.pmm.totalPages := by
  rcases kmalloc_cases pmmAlloc pml4 size k with ⟨-, heq⟩ | ⟨-, -, ok, m, p, hmap, heq⟩
  · rw [heq]
  · have hkeeps : (mapHeapPages pmmAlloc pml4 (heapPages k.heapCurrentPtr (roundUp16 size)) k.mem
        k.pmm).2.2.totalPages = k.pmm.totalPages :=
      mapHeapPages_keeps (I := fun q => q.totalPages = k.pmm.totalPages)
        (fun q hq => (pmmAlloc_totalPages q).trans hq) rfl
    rw [hmap] at hkeeps
    rw [heq]
    cases ok <;> exact hkeeps

/-- **`kmalloc`** moves the pointer by what it rounds the size up to. -/
lemma kmalloc (h : s.Books total) (hinv : s.Inv pml4) (hfit : SizeFits s.kernel size)
    (hst : (kernelMachine pml4).step s (.kmalloc size) = some u) : u.Books total := by
  obtain rfl := Option.some.inj hst
  have htotal := (kmalloc_totalPages pml4 size s.kernel).trans h.total
  rcases kmalloc_bump pmmAlloc pml4 size s.kernel with
    ⟨hp, hptr, halloc⟩ | ⟨h0, -, hp, hptr, halloc⟩
  · refine ⟨htotal, ?_, ?_⟩
    · dsimp only
      rw [if_pos hp, hptr]
      exact h.ptr
    · dsimp only
      rw [halloc, hptr]
      exact h.alloc
  · obtain ⟨hround, hadv⟩ := hinv.bounds.toNat_advance (hfit.resolve_left h0)
    have hne : (KiOS.kmalloc pmmAlloc pml4 size s.kernel).1 ≠ 0 := hp ▸ hinv.bounds.ne_zero
    have hblock : Block.rounded ⟨s.kernel.heapCurrentPtr, size⟩ = (roundUp16 size).toNat :=
      hround.symm
    refine ⟨htotal, ?_, ?_⟩
    · dsimp only
      rw [if_neg hne, hptr, hadv, h.ptr, List.map_append, List.sum_append, hp, List.map_singleton,
        List.sum_singleton, hblock, Nat.add_assoc]
    · dsimp only
      rw [halloc, hptr, h.alloc, sub_add_eq_add_sub]

lemma step (h : s.Books total) (hinv : s.Inv pml4) (hadm : (kernelMachine pml4).admissible s e)
    (hst : (kernelMachine pml4).step s e = some u) : u.Books total := by
  cases e with
  | kmalloc size => exact h.kmalloc hinv hadm hst
  | allocPage =>
      obtain rfl := Option.some.inj hst
      exact ⟨(pmmAlloc_totalPages _).trans h.total, h.ptr, h.alloc⟩
  | freePage phys =>
      obtain rfl := Option.some.inj hst
      exact ⟨(pmmFree_totalPages _ _).trans h.total, h.ptr, h.alloc⟩
  | mapPage virt phys flags =>
      obtain rfl := Option.some.inj hst
      have hkeeps : (vmmMapPage pmmAlloc pml4 virt phys flags s.kernel.mem
          s.kernel.pmm).2.2.totalPages = s.kernel.pmm.totalPages :=
        vmmMapPage_keeps (I := fun q => q.totalPages = s.kernel.pmm.totalPages)
          (fun q hq => (pmmAlloc_totalPages q).trans hq) rfl
      exact ⟨hkeeps.trans h.total, h.ptr, h.alloc⟩
  | unmapPage virt =>
      obtain rfl := Option.some.inj hst
      exact ⟨h.total, h.ptr, h.alloc⟩
  | store frame idx value =>
      obtain rfl := Option.some.inj hst
      exact ⟨h.total, h.ptr, h.alloc⟩

/-- After boot. -/
lemma boot {entries : List MemoryMapEntry} {kernelEnd : BitVec 64} {pml4Table : BitVec 32}
    {pmm : Pmm}
    (hmap : KernelMap entries kernelEnd) (hpmm : pmmInit entries 0x100000 kernelEnd = some pmm)
    (ram : PhysMem) : (bootKernel pml4Table ram pmm).Books (pageTotal entries) := by
  obtain ⟨pmm', hpmm', -, htot, -⟩ := pmmInit_spec hmap
  rw [hpmm, Option.some.injEq] at hpmm'
  subst hpmm'
  exact ⟨htot, rfl, (BitVec.sub_self _).symm⟩

end KernelRun.Books

/-! ### The report -/

/-- The variables hold the facts. -/
structure MemFacts.Hold (f : MemFacts) (k : Kernel Pmm) : Prop where
  total : k.pmm.totalPages = f.total
  total_pos : 0 < f.total
  total_le : f.total ≤ 2 ^ 40
  used : k.pmm.usedPages.toNat = f.total - f.free
  free_le : f.free ≤ f.total
  size : (heapCurrentSize k).toNat = f.heap
  alloc : (heapTotalAllocated k).toNat = f.heap
  heap_le : f.heap ≤ 2 ^ 24

section

variable {dec hex : ℕ → Chars} {f : MemFacts} {k : Kernel Pmm}

/-- What the function works out. -/
lemma MemFacts.Hold.toNat (h : f.Hold k) :
    (BitVec.ofNat 64 k.pmm.totalPages).toNat = f.total
      ∧ (BitVec.ofNat 64 k.pmm.totalPages - k.pmm.usedPages).toNat = f.free
      ∧ (k.pmm.usedPages * 100 / BitVec.ofNat 64 k.pmm.totalPages).toNat
        = (f.total - f.free) * 100 / f.total
      ∧ ((heapCurrentSize k + 4095) / 4096).toNat = (f.heap + 4095) / 4096 := by
  have hle := h.total_le
  have hused := h.used
  have hfree := h.free_le
  have hsize := h.size
  have hheap := h.heap_le
  have h100 : (100 : BitVec 64).toNat = 100 := rfl
  have h4095 : (4095 : BitVec 64).toNat = 4095 := rfl
  have h4096 : (4096 : BitVec 64).toNat = 4096 := rfl
  have htotal : (BitVec.ofNat 64 k.pmm.totalPages).toNat = f.total := by
    rw [BitVec.toNat_ofNat, h.total]
    omega
  refine ⟨htotal, ?_, ?_, ?_⟩
  · rw [BitVec.toNat_sub, htotal, hused]
    omega
  · rw [BitVec.toNat_udiv, BitVec.toNat_mul, htotal, hused, h100, Nat.mod_eq_of_lt (by omega)]
  · rw [BitVec.toNat_udiv, BitVec.toNat_add, hsize, h4095, h4096, Nat.mod_eq_of_lt (by omega)]

/-- A line about pages. -/
lemma prints_meminfoPages (label : String) {b b' : Chars} {pages : BitVec 64} {n : ℕ}
    (h0 : 0 ∉ spelling label) (hb : b.length = 21) (hb' : b'.length = 21) (hn : pages.toNat = n)
    (hle : n ≤ 2 ^ 40) : Prints (meminfoPages label b b' pages)
      (spelling label ++ MemFacts.pagesText n ++ [chr '\n']) := by
  have h4 : (pages * 4).toNat = 4 * n := by
    have hfour : (4 : BitVec 64).toNat = 4 := rfl
    rw [BitVec.toNat_mul, hn, hfour]
    omega
  have hcalls := Prints.inTurn <| .cons (.print label h0) <| .cons (.printNat hn (by omega) hb) <|
    .cons (.print " (" (by decide)) <| .cons (.printNat h4 (by omega) hb') <|
    .cons (.println " KB)" (by decide)) .nil
  simp only [List.flatten_cons, List.flatten_nil, List.append_nil] at hcalls
  simp only [MemFacts.pagesText, List.append_assoc]
  exact hcalls

/-- **`cmd_meminfo` prints the lines of its report**, from a new line on. -/
lemma cmdMeminfo_prints (h : f.Hold k) (hdec : ∀ n, (dec n).length = 21)
    (hhex : ∀ n, (hex n).length = 19) :
    Prints (cmdMeminfo dec hex f.cr3 k) (chr '\n' :: lineText f.lines) := by
  obtain ⟨htotal, hfree, hpercent, hpages⟩ := h.toNat
  have hpos := h.total_pos
  have hle := h.total_le
  have hheap := h.heap_le
  have hfreele := h.free_le
  have hne : BitVec.ofNat 64 k.pmm.totalPages ≠ 0 := by
    intro h0
    rw [h0] at htotal
    exact hpos.ne htotal
  have hshare : (f.total - f.free) * 100 / f.total ≤ (f.total - f.free) * 100 := Nat.div_le_self _ _
  have hempty : Prints (VgaRun.println "") [chr '\n'] := .println "" (by decide)
  have hcalls := Prints.inTurn <|
    .cons hempty <| .cons (.println "=== Memory Information ===" (by decide)) <| .cons hempty <|
    .cons (.printColored "Physical Memory Manager (PMM):" 11 0) <| .cons hempty <|
    .cons (prints_meminfoPages "  Total Pages:  " (by decide) (hdec 0) (hdec 1) htotal
      hle) <|
    .cons (prints_meminfoPages "  Used Pages:   " (by decide) (hdec 2) (hdec 3) h.used
      (by omega)) <|
    .cons (prints_meminfoPages "  Free Pages:   " (by decide) (hdec 4) (hdec 5) hfree
      (by omega)) <|
    .cons (.print "  Usage:        " (by decide)) <|
    .cons (.printNat hpercent (by omega) (hdec 6)) <| .cons (.println "%" (by decide)) <|
    .cons hempty <|
    .cons (.printColored "Virtual Memory Manager (VMM):" 11 0) <| .cons hempty <|
    .cons (.print "  PML4 Address: " (by decide)) <| .cons (.printHex f.cr3 (hhex 0)) <|
    .cons hempty <|
    .cons (.print "  Page Size:    " (by decide)) <| .cons (.println "4 KB" (by decide)) <|
    .cons (.print "  Levels:       " (by decide)) <|
    .cons (.println "4 (PML4 -> PDPT -> PD -> PT)" (by decide)) <| .cons hempty <|
    .cons (.printColored "Kernel Heap:" 11 0) <| .cons hempty <|
    .cons (.print "  Base Address: " (by decide)) <|
    .cons (.printHex 0xFFFF800000000000 (hhex 1)) <| .cons hempty <|
    .cons (.print "  Allocated:    " (by decide)) <|
    .cons (.printNat h.alloc (by omega) (hdec 7)) <|
    .cons (.println " bytes" (by decide)) <|
    .cons (.print "  Current Size: " (by decide)) <| .cons (.printNat h.size (by omega) (hdec 8)) <|
    .cons (.println " bytes" (by decide)) <|
    .cons (.print "  Pages Mapped: " (by decide)) <| .cons (.printNat hpages (by omega) (hdec 9)) <|
    .cons hempty <| .cons hempty <| .cons (.println "=========================" (by decide)) <|
    .cons hempty .nil
  simp only [List.flatten_cons, List.flatten_nil, List.append_assoc, List.nil_append,
    List.append_nil, List.cons_append] at hcalls
  simp only [MemFacts.lines, lineText, List.flatMap_cons, List.flatMap_nil, List.append_assoc,
    List.nil_append, List.append_nil, List.cons_append]
  simp only [cmdMeminfo, if_neg hne]
  exact hcalls

end

/-! ### The lines read back -/

namespace MemFacts

variable {label rest rest' : Chars} {n n' : ℕ}

/-- A number is read up to the space behind it. -/
lemma dec_injective (h : label ++ (decText n ++ (chr ' ' :: rest))
    = label ++ (decText n' ++ (chr ' ' :: rest'))) : n = n' := by
  have hline : ∀ k : ℕ, chr ' ' ∉ decText k := fun k =>
    (decText_line (w := k + 1) (Nat.succ_ne_zero k)
      ((Nat.lt_pow_self (by norm_num)).trans (Nat.pow_lt_pow_right (by norm_num) k.lt_succ_self))).2
  have hsplit := split_at_space (hline n) (hline n') (List.append_cancel_left h)
  exact Int.ofNat_inj.mp (decText_injective hsplit.1)

lemma pagesText_injective (h : label ++ pagesText n = label ++ pagesText n') : n = n' := by
  have hparen : spelling " (" = [chr ' ', chr '('] := by decide
  rw [pagesText, pagesText, hparen] at h
  exact dec_injective h

/-- **The lines tell it all.** -/
lemma lines_injective : Function.Injective lines := by
  intro f g h
  have hbytes : spelling " bytes" = chr ' ' :: spelling "bytes" := by decide
  simp only [lines, hbytes, List.cons.injEq, true_and, and_true] at h
  obtain ⟨htotal, -, hfree, -, hcr3, hheap, -⟩ := h
  have hword := hexText_injective f.cr3.isLt g.cr3.isLt (List.append_cancel_left hcr3)
  cases f
  cases g
  rw [MemFacts.mk.injEq]
  exact ⟨pagesText_injective htotal, pagesText_injective hfree, dec_injective hheap,
    BitVec.eq_of_toNat_eq hword⟩

variable {f : MemFacts} {k : Kernel Pmm}

lemma pagesText_fits (hn : n ≤ 2 ^ 40) : Fits 33 (pagesText n) := by
  have hdec := (decText_line (n := n) (w := 13) (by norm_num) (by omega)).1
  have hdec' := (decText_line (n := 4 * n) (w := 13) (by norm_num) (by omega)).1
  have hparen : Fits 2 (spelling " (") := by decide
  have hunit : Fits 5 (spelling " KB)") := by decide
  exact hdec.append (hparen.append (hdec'.append hunit))

/-- The report fits on the screen. -/
lemma lines_fit (h : f.Hold k) : ∀ l ∈ f.lines, Fits 79 l := by
  have hle := h.total_le
  have hheap := h.heap_le
  have hshare : (f.total - f.free) * 100 / f.total ≤ 100 :=
    Nat.div_le_of_le_mul (Nat.mul_le_mul_right _ (Nat.sub_le _ _))
  have hliteral : ∀ s ∈ ["=== Memory Information ===", "Physical Memory Manager (PMM):",
      "Virtual Memory Manager (VMM):", "  Page Size:    ", "4 KB", "  Levels:       ",
      "4 (PML4 -> PDPT -> PD -> PT)", "Kernel Heap:", "========================="],
      Fits 30 (spelling s) := by decide +kernel
  have hlabel : ∀ s ∈ ["  Total Pages:  ", "  Used Pages:   ", "  Free Pages:   ",
      "  Usage:        ", "  PML4 Address: ", "  Base Address: ", "  Allocated:    ",
      "  Current Size: ", "  Pages Mapped: ", "%", " bytes"], Fits 16 (spelling s) := by
    decide +kernel
  simp only [List.forall_mem_cons] at hliteral hlabel
  obtain ⟨htitle, hpmm, hvmm, hsize, hkb, hlevels, htables, hkernel, hrule, -⟩ := hliteral
  obtain ⟨ltotal, lused, lfree, lusage, lpml4, lbase, lalloc, lcurrent, lpages,
    lpercent, lbytes, -⟩ :=
    hlabel
  have hbytes := (decText_line (n := f.heap) (w := 8) (by norm_num) (by omega)).1
  have hpercent := (decText_line (n := (f.total - f.free) * 100 / f.total) (w := 3) (by norm_num)
    (by omega)).1
  have hmapped := (decText_line (n := (f.heap + 4095) / 4096) (w := 8) (by norm_num) (by omega)).1
  have hempty : Fits 79 [] := by decide
  simp only [lines, List.forall_mem_cons]
  exact ⟨htitle.mono (by norm_num), hempty, hpmm.mono (by norm_num),
    (ltotal.append (pagesText_fits hle)).mono (by norm_num),
    (lused.append (pagesText_fits (by omega))).mono (by norm_num),
    (lfree.append (pagesText_fits (h.free_le.trans hle))).mono (by norm_num),
    (lusage.append (hpercent.append lpercent)).mono (by norm_num), hempty, hvmm.mono (by norm_num),
    (lpml4.append (hexText_line f.cr3.isLt).1).mono (by norm_num),
    (hsize.append hkb).mono (by norm_num), (hlevels.append htables).mono (by norm_num), hempty,
    hkernel.mono (by norm_num), (lbase.append (hexText_line heapStart.isLt).1).mono (by norm_num),
    (lalloc.append (hbytes.append lbytes)).mono (by norm_num),
    (lcurrent.append (hbytes.append lbytes)).mono (by norm_num),
    (lpages.append hmapped).mono (by norm_num), hempty, hrule.mono (by norm_num), hempty, by simp⟩

end MemFacts

/-! ### The truth -/

/-- In a state that the kernel reaches, the variables hold the truth. -/
lemma KernelRun.Inv.hold {pml4 : Frame} {entries : List MemoryMapEntry} (cr3 : BitVec 64)
    {s : KernelRun} (h : s.Inv pml4) (hbooks : s.Books (pageTotal entries))
    (hpos : 0 < pageTotal entries) (htotal : pageTotal entries ≤ 2 ^ 40) :
    (MemFacts.of entries cr3 s).Hold s.kernel := by
  have hcount := h.ledger.ok.inv.run.accounted.used_add_card
  have hlt := h.bounds.lt_end
  have hptr := hbooks.ptr
  have htot := hbooks.total
  have hsize : heapSize.toNat = 2 ^ 24 := rfl
  have hheap : (heapCurrentSize s.kernel).toNat = (s.blocks.map Block.rounded).sum := by
    rw [heapCurrentSize, BitVec.toNat_sub_of_le (BitVec.le_def.mpr h.bounds.start_le), hptr,
      Nat.add_sub_cancel_left]
  refine ⟨htot, hpos, htotal, ?_, ?_, hheap, ?_, ?_⟩
  · dsimp only [MemFacts.of] at *
    omega
  · dsimp only [MemFacts.of] at *
    omega
  · rw [heapTotalAllocated, hbooks.alloc]
    exact hheap
  · dsimp only [MemFacts.of] at *
    omega

/-- **`meminfo` tells the truth**: in every state the kernel can reach, and whatever was output
before, the command does not break down and leaves the whole report on the screen, with the pages
of the memory map, those that are free, the bytes of all blocks and the tables in use; and no
other facts have this report. -/
theorem meminfo_true {entries : List MemoryMapEntry} {kernelEnd : BitVec 64} {pml4Table : BitVec 32}
    {pmm : Pmm} (hmap : KernelMap entries kernelEnd) (htotal : pageTotal entries ≤ 2 ^ 40)
    (hpmm : pmmInit entries 0x100000 kernelEnd = some pmm) (hboot : Stage2Tables pml4Table)
    (ram : PhysMem) {es : List KernelEvent} {s : KernelRun}
    (hrun : (kernelMachine (bootPml4 pml4Table)).Run (bootKernel pml4Table ram pmm) es s)
    (vga : Vga) {vs : List VgaEvent} {v : VgaRun} (hscreen : vgaMachine.Run (VgaRun.init vga) vs v)
    {dec hex : ℕ → Chars} (hdec : ∀ n, (dec n).length = 21) (hhex : ∀ n, (hex n).length = 19) :
    ∃ u, cmdMeminfo dec hex (pml4Table.setWidth 64) s.kernel v = some u
      ∧ u.vga.ShowsLines (MemFacts.of entries (pml4Table.setWidth 64) s).lines
      ∧ ∀ f : MemFacts, f.lines = (MemFacts.of entries (pml4Table.setWidth 64) s).lines
        → f = MemFacts.of entries (pml4Table.setWidth 64) s := by
  have hstate : s.Inv (bootPml4 pml4Table) ∧ s.Books (pageTotal entries) :=
    EventMachine.Run.invariant
      (I := fun t => t.Inv (bootPml4 pml4Table) ∧ t.Books (pageTotal entries))
      ⟨KernelRun.Inv.boot hmap htotal hpmm hboot ram, KernelRun.Books.boot hmap hpmm ram⟩
      (fun _ _ _ ht hadm hst => ⟨ht.1.step hadm hst, ht.2.step ht.1 hadm hst⟩) hrun
  have hinv : v.Inv :=
    EventMachine.Run.invariant (VgaRun.Inv.init vga) (fun _ _ _ h _ hst => h.step hst) hscreen
  have hhold := hstate.1.hold (pml4Table.setWidth 64) hstate.2
    (by have := hmap.lt_pageTotal; omega) htotal
  have hlen : (MemFacts.of entries (pml4Table.setWidth 64) s).lines.length = 21 := rfl
  obtain ⟨u, hu, -, hshows⟩ := showsLines_of_prints (cmdMeminfo_prints hhold hdec hhex) hinv
    (by omega) (MemFacts.lines_fit hhold)
  exact ⟨u, hu, hshows, fun f hf => MemFacts.lines_injective hf⟩

/-- The statement with one block in the heap, on the map stage 2 builds and a screen just
cleared. -/
theorem meminfo_true_block : ∃ pmm s,
    pmmInit createFallbackMemoryMap 0x100000 0x120000 = some pmm
    ∧ (kernelMachine (bootPml4 0x9000)).Run (bootKernel 0x9000 zeroRam pmm) [.kmalloc 250] s
    ∧ ∃ u, cmdMeminfo (fun _ => List.replicate 21 0) (fun _ => List.replicate 19 0)
        ((0x9000 : BitVec 32).setWidth 64) s.kernel (VgaRun.init bootVga) = some u
      ∧ u.vga.ShowsLines
        (MemFacts.of createFallbackMemoryMap ((0x9000 : BitVec 32).setWidth 64) s).lines
      ∧ ∀ f : MemFacts, f.lines
          = (MemFacts.of createFallbackMemoryMap ((0x9000 : BitVec 32).setWidth 64) s).lines
        → f = MemFacts.of createFallbackMemoryMap ((0x9000 : BitVec 32).setWidth 64) s := by
  have hmap : KernelMap createFallbackMemoryMap 0x120000 :=
    kernelMap_fallback (by decide) (by decide)
  obtain ⟨pmm, hpmm, -⟩ := pmmInit_spec hmap
  have hfit : SizeFits (bootKernel 0x9000 zeroRam pmm).kernel 250 := Or.inr (by
    simp only [bootKernel, heapInit]
    decide)
  have hrun := EventMachine.Run.single (M := kernelMachine (bootPml4 0x9000)) (e := .kmalloc 250)
    hfit rfl
  exact ⟨pmm, _, hpmm, hrun, meminfo_true hmap (by rw [pageTotal_fallback]; norm_num) hpmm
    stage2Tables_9000 zeroRam hrun bootVga .nil (fun _ => by simp) fun _ => by simp⟩

end KiOS
