import KiOS.Commands.CommandRuns

/-!
Which pages the memory commands leave behind.

* `LeavesNothing`: a command returns, and everything it took is given back or lies under page
  tables and blocks of the heap;
* `FailsCleanly`: the same of the early return of `cmd_usertest`;
* `leavesNothing_iff`: in every state reached the commands keep this promise exactly if no page is
  free or enough are;
* `memtest_leaks`: with one page free `cmd_memtest` takes it and returns.
-/

namespace KiOS

open Program Command

/-- A command returns, with nothing left behind. -/
structure LeavesNothing (pml4 : Frame) (c : Command Unit) (s : HeapRun Pmm) : Prop where
  ends : Ends (fun _ t => Clean pml4 s.kernel t.kernel)
    (fun e t => e = .returned ∧ Clean pml4 s.kernel t.kernel) (exec c s)

/-- A command that returns early leaves nothing behind. -/
structure FailsCleanly (pml4 : Frame) (c : Command Unit) (s : HeapRun Pmm) : Prop where
  ends : Ends (fun _ _ => True) (fun e t => e = .returned → Clean pml4 s.kernel t.kernel) (exec c s)

section

variable {pml4 : Frame} {s : KernelRun}

lemma leavesNothing_memtest (h : s.Inv pml4) :
    LeavesNothing pml4 (cmdMemtest pml4) s.toHeapRun ↔ MemtestServed pml4 s.kernel := by
  have hinv : (s.toHeapRun.with s.held).Inv pml4 := h
  have hends := cmdMemtest_triple hinv s.toHeapRun rfl
  refine (⟨LeavesNothing.ends, LeavesNothing.mk⟩ : _ ↔ _).trans ?_
  generalize exec (cmdMemtest pml4) s.toHeapRun = r at hends ⊢
  rcases r with ⟨e | a, t⟩
  · obtain ⟨rfl, hiff, -⟩ := hends
    exact (and_iff_right rfl).trans hiff
  · exact hends.1

lemma leavesNothing_vmtest (h : s.Inv pml4) :
    LeavesNothing pml4 (cmdVmtest pml4) s.toHeapRun ↔ VmtestServed pml4 s.kernel := by
  have hinv : (s.toHeapRun.with s.held).Inv pml4 := h
  have hends := cmdVmtest_triple hinv s.toHeapRun rfl
  refine (⟨LeavesNothing.ends, LeavesNothing.mk⟩ : _ ↔ _).trans ?_
  generalize exec (cmdVmtest pml4) s.toHeapRun = r at hends ⊢
  rcases r with ⟨e | a, t⟩
  · rcases hends with ⟨rfl, hzero, hclean, -⟩ | ⟨rfl, hn⟩
    · exact iff_of_true ⟨rfl, hclean⟩ (Or.inl hzero)
    · exact iff_of_false (fun h => by cases h.1) hn
  · exact iff_of_true hends.2.1 (Or.inr hends.1)

lemma failsCleanly_usertest (h : s.Inv pml4) :
    FailsCleanly pml4 (cmdUsertest pml4) s.toHeapRun ↔ s.kernel.pmm.freePages ≠ 1 := by
  have hends := cmdUsertest_failing h.ledger.ok s.toHeapRun rfl
  refine (⟨FailsCleanly.ends, FailsCleanly.mk⟩ : _ ↔ _).trans ?_
  generalize exec (cmdUsertest pml4) s.toHeapRun = r at hends ⊢
  rcases r with ⟨e | a, t⟩
  · rcases hends with ⟨rfl, hiff⟩ | ⟨rfl, henough⟩
    · exact ⟨fun hc => hiff.mp (hc rfl), fun hn _ => hiff.mpr hn⟩
    · exact iff_of_true (fun h => by cases h) (by omega)
  · change 2 ≤ s.kernel.pmm.freePages at hends
    exact iff_of_true trivial (by omega)

end

/-- **The memory commands leave nothing behind** exactly if no page is free or enough are: in every
state that the kernel and its shell can reach, whatever pages are free and whatever is mapped.
`cmd_memtest` needs its fifty pages and their tables, `cmd_vmtest` its one and the tables on its
way, and `cmd_usertest` fails cleanly unless the one page left is the first of its two. -/
theorem leavesNothing_iff {entries : List MemoryMapEntry} {kernelEnd : BitVec 64}
    {pml4Table : BitVec 32} {pmm : Pmm} (hmap : KernelMap entries kernelEnd)
    (htotal : pageTotal entries ≤ 2 ^ 40)
    (hpmm : pmmInit entries 0x100000 kernelEnd = some pmm) (hboot : Stage2Tables pml4Table)
    (ram : PhysMem) {es : List CommandEvent} {s : KernelRun}
    (hrun : (commandMachine (bootPml4 pml4Table)).Run (bootKernel pml4Table ram pmm) es s) :
    (LeavesNothing (bootPml4 pml4Table) (cmdMemtest (bootPml4 pml4Table)) s.toHeapRun
        ↔ MemtestServed (bootPml4 pml4Table) s.kernel)
      ∧ (LeavesNothing (bootPml4 pml4Table) (cmdVmtest (bootPml4 pml4Table)) s.toHeapRun
        ↔ VmtestServed (bootPml4 pml4Table) s.kernel)
      ∧ (FailsCleanly (bootPml4 pml4Table) (cmdUsertest (bootPml4 pml4Table)) s.toHeapRun
        ↔ s.kernel.pmm.freePages ≠ 1) := by
  have h := CommandInv.of_run hmap htotal hpmm hboot hrun
  exact ⟨leavesNothing_memtest h.inv, leavesNothing_vmtest h.inv, failsCleanly_usertest h.inv⟩

/-- The statement behind a first block of 256 bytes, on the map stage 2 builds. -/
theorem leavesNothing_iff_second : ∃ pmm s,
    pmmInit createFallbackMemoryMap 0x100000 0x120000 = some pmm
      ∧ (commandMachine (bootPml4 0x9000)).Run (bootKernel 0x9000 zeroRam pmm)
        [.kernel (.kmalloc 256)] s
      ∧ (LeavesNothing (bootPml4 0x9000) (cmdMemtest (bootPml4 0x9000)) s.toHeapRun
        ↔ MemtestServed (bootPml4 0x9000) s.kernel) := by
  have hmap : KernelMap createFallbackMemoryMap 0x120000 :=
    kernelMap_fallback (by decide) (by decide)
  obtain ⟨pmm, hpmm, -⟩ := pmmInit_spec hmap
  have hfit : SizeFits (bootKernel 0x9000 zeroRam pmm).kernel 256 := Or.inr (by
    simp only [bootKernel, heapInit]
    decide)
  have hrun := EventMachine.Run.single (M := commandMachine (bootPml4 0x9000))
    (e := .kernel (.kmalloc 256)) hfit rfl
  exact ⟨pmm, _, hpmm, hrun, (leavesNothing_iff hmap (by rw [pageTotal_fallback]; norm_num) hpmm
    stage2Tables_9000 zeroRam hrun).1⟩

/-- **With one page free** `cmd_memtest` takes it, finds no second one and returns without giving it
back. -/
theorem memtest_leaks :
    pmmInit tightMap 0x100000 0x110000 = some tightPmm ∧ tightPmm.usedPages = 273
      ∧ (exec (cmdMemtest (bootPml4 0x9000)) (bootKernel 0x9000 zeroRam tightPmm).toHeapRun).1
        = .error .returned
      ∧ (exec (cmdMemtest (bootPml4 0x9000))
          (bootKernel 0x9000 zeroRam tightPmm).toHeapRun).2.kernel.pmm.usedPages = 274
      ∧ ¬ LeavesNothing (bootPml4 0x9000) (cmdMemtest (bootPml4 0x9000))
        (bootKernel 0x9000 zeroRam tightPmm).toHeapRun := by
  obtain ⟨hfree, hbefore, hret, hused⟩ :
      (bootKernel 0x9000 zeroRam tightPmm).kernel.pmm.freePages = 1
        ∧ tightPmm.usedPages = 273
        ∧ (exec (cmdMemtest (bootPml4 0x9000))
          (bootKernel 0x9000 zeroRam tightPmm).toHeapRun).1 = .error .returned
        ∧ (exec (cmdMemtest (bootPml4 0x9000))
          (bootKernel 0x9000 zeroRam tightPmm).toHeapRun).2.kernel.pmm.usedPages = 274 := by
    decide +kernel
  have htotal : pageTotal tightMap = 274 := by decide
  have hinv := KernelRun.Inv.boot kernelMap_tight (by rw [htotal]; norm_num) pmmInit_tight
    stage2Tables_9000 zeroRam
  have hserved : ¬ MemtestServed (bootPml4 0x9000) (bootKernel 0x9000 zeroRam tightPmm).kernel := by
    rw [MemtestServed, hfree]
    unfold testPages
    omega
  exact ⟨pmmInit_tight, hbefore, hret, hused,
    fun hclean => hserved ((leavesNothing_memtest hinv).mp hclean)⟩

end KiOS
