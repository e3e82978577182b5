import KiOS.Commands.CommandRuns

/-!
Live heap memory stays mapped.

* `HeapAlive`: the blocks of one state in a later one: every address is mapped to the same frame,
  and the frame is taken;
* `SparesHeap`: the condition. A call of `kmalloc` is served or refused, and `vmtest` is typed while
  no block lies in the page it maps;
* `HeapKept.of_kernel`: the events of the kernel keep the heap;
* `LiveInv.step`: under the condition every event keeps the blocks mapped;
* `heap_stays_mapped`: in every run under the condition the blocks of every state are alive in
  every later one;
* `vmtest_unmaps_stack`: `vmtest` typed when the first task has its stack.
-/

namespace KiOS

open Program Command

/-- The addresses of a block. -/
def Block.Has (b : Block) (w : BitVec 64) : Prop :=
  b.addr.toNat ≤ w.toNat ∧ w.toNat < b.addr.toNat + b.size.toNat

/-- The blocks of `s` are mapped to the same frames in `s'`, and these are taken. -/
def HeapAlive (pml4 : Frame) (s s' : KernelRun) : Prop :=
  ∀ b ∈ s.blocks, ∀ w, b.Has w → ∃ t, mmuWalk s.kernel.mem pml4 w = some t
    ∧ mmuWalk s'.kernel.mem pml4 w = some t ∧ s'.kernel.pmm.Used (frameOf t.phys).toNat

/-- The page that `cmd_vmtest` maps. -/
def vmtestPage : Block := ⟨vmtestAddr, 0x1000⟩

/-- The condition. -/
def SparesHeap (pml4 : Frame) (s : KernelRun) : CommandEvent → Prop
  | .kernel (.kmalloc size) => size = 0 ∨ Served pml4 s.kernel size
  | .vmtest => s.kernel.pmm.freePages = 0 ∨ ∀ b ∈ s.blocks, b.Disjoint vmtestPage
  | _ => True

section

variable {pml4 : Frame} {s s' t : KernelRun} {e : KernelEvent}

/-- The events of the kernel. -/
lemma HeapKept.of_kernel (h : s.Inv pml4) (hadm : (kernelMachine pml4).admissible s e)
    (hg : SparesHeap pml4 s (.kernel e)) (hst : (kernelMachine pml4).step s e = some t) :
    HeapKept pml4 ∅ s.toHeapRun t.toHeapRun := by
  have hinv := h.step hadm hst
  cases e with
  | kmalloc size =>
      have hback : size ≠ 0 → KmallocBacked pml4 s size (kmalloc pmmAlloc pml4 size s.kernel).1
          (kmalloc pmmAlloc pml4 size s.kernel).2 := fun h0 =>
        (h.kmallocBacked_iff hadm h0).mpr (hg.resolve_left h0)
      have hkeep : ∀ w, Present (leafAt s.kernel.mem pml4 w) →
          leafAt (kmalloc pmmAlloc pml4 size s.kernel).2.mem pml4 w
            = leafAt s.kernel.mem pml4 w := by
        rcases kmalloc_cases pmmAlloc pml4 size s.kernel with ⟨-, heq⟩ | ⟨h0, hlimit, -⟩
        · rw [heq]
          exact fun _ _ => rfl
        · obtain ⟨ok, hok, -⟩ := h.kmalloc_eq hadm h0 hlimit
          exact hok.keeps
      simp only [kernelMachine, Option.some.injEq] at hst
      subst hst
      refine ⟨fun w _ _ hp => hkeep w hp, fun b hb => ?_, fun b hb => ?_⟩
      · dsimp only
        split_ifs
        · exact hb
        · exact List.mem_append_left _ hb
      · have hmem := hb
        dsimp only at hb
        split_ifs at hb with hnull
        · exact Or.inl hb
        rcases List.mem_append.mp hb with hb | hb
        · exact Or.inl hb
        -- the new block is backed
        obtain rfl := List.mem_singleton.mp hb
        have h0 : size ≠ 0 := fun h0 => hnull (by rw [kmalloc, if_pos h0])
        refine Or.inr fun w hge hlt => ?_
        obtain ⟨u, hu, -⟩ := (hback h0).backed hnull w hge hlt
        exact (hinv.ledger.frameOf_phys (hinv.inHeap_of_block hmem hge hlt) hu).1
  | allocPage =>
      simp only [kernelMachine, Option.some.injEq] at hst
      subst hst
      exact ⟨fun _ _ _ _ => rfl, fun _ hb => hb, fun _ hb => Or.inl hb⟩
  | freePage phys =>
      simp only [kernelMachine, Option.some.injEq] at hst
      subst hst
      exact ⟨fun _ _ _ _ => rfl, fun _ hb => hb, fun _ hb => Or.inl hb⟩
  | mapPage virt phys flags =>
      obtain ⟨err, m, p, heq, hok⟩ := vmmMapPage_spec phys flags h.ledger.ok hadm.2
      change vmmMapPage pmmAlloc pml4 virt phys flags s.kernel.mem s.kernel.pmm = _ at heq
      simp only [kernelMachine, heq, Option.some.injEq] at hst
      subst hst
      refine ⟨fun w hw _ _ => ?_, fun _ hb => hb, fun _ hb => Or.inl hb⟩
      rw [leafAt, hok.leaf _ _ (by simp [tablePath]),
        if_neg fun h' => hadm.1 w hw (vpage_eq_iff.mpr h'.2)]
  | unmapPage virt =>
      simp only [kernelMachine, Option.some.injEq] at hst
      subst hst
      obtain ⟨-, -, hslot⟩ := vmmUnmapPage_spec h.ledger.ok.tables hadm.2
      refine ⟨fun w hw _ _ => ?_, fun _ hb => hb, fun _ hb => Or.inl hb⟩
      rw [leafAt, hslot _ _ (by simp [tablePath]),
        if_neg fun h' => hadm.1 w hw (vpage_eq_iff.mpr ⟨h'.1, h'.2.1⟩)]
  | store frame idx value =>
      simp only [kernelMachine, Option.some.injEq] at hst
      subst hst
      exact ⟨fun w _ _ _ => (store_apart hadm).2 _ _ (by simp [tablePath]), fun _ hb => hb,
        fun _ hb => Or.inl hb⟩

/-- The invariant: all blocks are mapped. -/
structure LiveInv (pml4 : Frame) (s : KernelRun) : Prop extends CommandInv pml4 s where
  mapped : ∀ b ∈ s.blocks, ∀ w, b.Has w → Present (leafAt s.kernel.mem pml4 w)

namespace LiveInv

lemma inHeap (h : LiveInv pml4 s) {b : Block} {w : BitVec 64} (hb : b ∈ s.blocks)
    (hw : b.Has w) : InHeap w :=
  h.inv.inHeap_of_block hb hw.1 hw.2

/-- Under the condition an event clears no page of a block. -/
lemma not_lost (h : LiveInv pml4 s) {e : CommandEvent} (hg : SparesHeap pml4 s e) {b : Block}
    {w : BitVec 64} (hb : b ∈ s.blocks) (hw : b.Has w) : vpage w ∉ e.lost s := by
  cases e with
  | vmtest =>
      rintro ⟨heq, hfree⟩
      have hdisj := hg.resolve_left hfree b hb
      rw [vpage_eq_iff_of_canonical (h.inHeap hb hw).canonical inHeap_vmtestAddr.canonical] at heq
      have haddr : vmtestAddr.toNat = 0xFFFF800000001000 := rfl
      have hsize : (0x1000 : BitVec 64).toNat = 0x1000 := rfl
      simp only [Block.Disjoint, vmtestPage, haddr, hsize] at hdisj
      unfold Block.Has at hw
      omega
  | kernel k => exact Set.notMem_empty _
  | memtest => exact Set.notMem_empty _
  | usertest => exact Set.notMem_empty _

/-- **One event** keeps all blocks, and each of them mapped as it was. -/
lemma step {e : CommandEvent} (h : LiveInv pml4 s)
    (hadm : ((commandMachine pml4).restrict (SparesHeap pml4)).admissible s e)
    (hst : ((commandMachine pml4).restrict (SparesHeap pml4)).step s e = some t) :
    LiveInv pml4 t ∧ ∀ b ∈ s.blocks, b ∈ t.blocks ∧ ∀ w, b.Has w →
      leafAt t.kernel.mem pml4 w = leafAt s.kernel.mem pml4 w := by
  obtain ⟨hadm, hg⟩ := hadm
  have hinv := h.toCommandInv.step hadm hst
  have hkept : HeapKept pml4 (e.lost s) s.toHeapRun t.toHeapRun := by
    by_cases he : ∃ k, e = .kernel k
    · obtain ⟨k, rfl⟩ := he
      exact HeapKept.of_kernel h.inv hadm hg hst
    · push Not at he
      exact (h.toCommandInv.command he hadm hst).1.toHeapKept
  have hleaf : ∀ b ∈ s.blocks, ∀ w, b.Has w →
      leafAt t.kernel.mem pml4 w = leafAt s.kernel.mem pml4 w := fun b hb w hw =>
    hkept.kept w (h.inHeap hb hw) (h.not_lost hg hb hw) (h.mapped b hb w hw)
  refine ⟨⟨hinv, fun b hb w hw => ?_⟩, fun b hb => ⟨hkept.old b hb, hleaf b hb⟩⟩
  rcases hkept.new b hb with hb | hnew
  · exact hleaf b hb w hw ▸ h.mapped b hb w hw
  · exact hnew w hw.1 hw.2

/-- **Whole runs**, by induction on the events. -/
lemma run {es : List CommandEvent} (h : LiveInv pml4 s)
    (hrun : ((commandMachine pml4).restrict (SparesHeap pml4)).Run s es t) :
    LiveInv pml4 t ∧ ∀ b ∈ s.blocks, b ∈ t.blocks ∧ ∀ w, b.Has w →
      leafAt t.kernel.mem pml4 w = leafAt s.kernel.mem pml4 w := by
  induction hrun with
  | nil => exact ⟨h, fun b hb => ⟨hb, fun _ _ => rfl⟩⟩
  | snoc _ hadm hst ih =>
      obtain ⟨hlive, hsame⟩ := ih
      obtain ⟨hlive', hsame'⟩ := hlive.step hadm hst
      refine ⟨hlive', fun b hb => ?_⟩
      obtain ⟨hb', hleaf⟩ := hsame b hb
      obtain ⟨hb'', hleaf'⟩ := hsame' b hb'
      exact ⟨hb'', fun w hw => (hleaf' w hw).trans (hleaf w hw)⟩

/-- What the entries say of the processor. -/
lemma alive (h : LiveInv pml4 s) (h' : LiveInv pml4 s')
    (hsame : ∀ b ∈ s.blocks, b ∈ s'.blocks ∧ ∀ w, b.Has w →
      leafAt s'.kernel.mem pml4 w = leafAt s.kernel.mem pml4 w) : HeapAlive pml4 s s' := by
  intro b hb w hw
  have hin := h.inHeap hb hw
  have hp := h.mapped b hb w hw
  have hleaf := (hsame b hb).2 w hw
  have hwalk := h.inv.ledger.mmuWalk_eq hin
  have hwalk' := h'.inv.ledger.mmuWalk_eq hin
  rw [hleaf] at hwalk'
  rw [if_pos hp] at hwalk hwalk'
  have hframe := (h'.inv.ledger.frameOf_phys hin hwalk').2.1
  refine ⟨_, hwalk, hwalk', ?_⟩
  rw [hframe]
  exact h'.inv.ledger.page_taken _ ⟨w, hin, hleaf.symm ▸ hp, rfl⟩

end LiveInv

end

/-- **Live heap memory stays mapped**: in every run of the kernel and its shell whose events meet
the condition, the blocks of every state are mapped to the same frames in every later one. -/
theorem heap_stays_mapped {entries : List MemoryMapEntry} {kernelEnd : BitVec 64}
    {pml4Table : BitVec 32} {pmm : Pmm} (hmap : KernelMap entries kernelEnd)
    (htotal : pageTotal entries ≤ 2 ^ 40)
    (hpmm : pmmInit entries 0x100000 kernelEnd = some pmm) (hboot : Stage2Tables pml4Table)
    (ram : PhysMem) {es es' : List CommandEvent} {s s' : KernelRun}
    (hrun : ((commandMachine (bootPml4 pml4Table)).restrict
      (SparesHeap (bootPml4 pml4Table))).Run (bootKernel pml4Table ram pmm) es s)
    (hrun' : ((commandMachine (bootPml4 pml4Table)).restrict
      (SparesHeap (bootPml4 pml4Table))).Run s es' s') :
    HeapAlive (bootPml4 pml4Table) s s' := by
  have hinit : LiveInv (bootPml4 pml4Table) (bootKernel pml4Table ram pmm) :=
    ⟨CommandInv.boot hmap htotal hpmm hboot ram, by simp [bootKernel]⟩
  obtain ⟨h, -⟩ := hinit.run hrun
  obtain ⟨h', hsame⟩ := h.run hrun'
  exact h.alive h' hsame

/-! ### `vmtest` behind the first task -/

/-- Memory for a kernel of 64 KB, its bitmap and 15 pages more. -/
def roomyMap : List MemoryMapEntry := [⟨0x100000, 0x20000, 1⟩]

/-- The PMM after `pmm_init` there. -/
def roomyPmm : Pmm := (pmmInit roomyMap 0x100000 0x110000).getD (Pmm.full 0)

lemma kernelMap_roomy : KernelMap roomyMap 0x110000 := kernelMap_single (by decide) (by decide)

lemma pmmInit_roomy : pmmInit roomyMap 0x100000 0x110000 = some roomyPmm := by
  obtain ⟨pmm, hpmm, -⟩ := pmmInit_spec kernelMap_roomy
  rw [roomyPmm, hpmm, Option.getD_some]

/-- The kernel after an event, if there is one. -/
def commandAfter (s : KernelRun) (e : CommandEvent) : KernelRun :=
  ((commandMachine (bootPml4 0x9000)).step s e).getD s

/-- The kernel with the task block of its first task. -/
def firstBlock : KernelRun :=
  commandAfter (bootKernel 0x9000 zeroRam roomyPmm) (.kernel (.kmalloc 80))

/-- And with its stack. -/
def firstStack : KernelRun := commandAfter firstBlock (.kernel (.kmalloc 4096))

/-- The statement for a `vmtest` before the first stack is there. -/
theorem heap_stays_mapped_block :
    HeapAlive (bootPml4 0x9000) firstBlock (commandAfter firstBlock .vmtest) := by
  obtain ⟨hserved, hspares, hends⟩ :
      Served (bootPml4 0x9000) (bootKernel 0x9000 zeroRam roomyPmm).kernel 80
        ∧ (∀ b ∈ firstBlock.blocks, b.Disjoint vmtestPage)
        ∧ (exec (cmdVmtest (bootPml4 0x9000)) firstBlock.toHeapRun).1 ≠ .error .pageFault := by
    decide +kernel
  have hfit : SizeFits (bootKernel 0x9000 zeroRam roomyPmm).kernel 80 := Or.inr (by decide)
  have htotal : pageTotal roomyMap = 288 := by decide
  have hstep : (commandMachine (bootPml4 0x9000)).step firstBlock .vmtest
      = some (commandAfter firstBlock .vmtest) := by
    simp only [commandAfter, commandMachine, commandEnd, if_neg hends, Option.getD_some]
  have hrun := EventMachine.Run.single_restrict (M := commandMachine (bootPml4 0x9000))
    (G := SparesHeap (bootPml4 0x9000)) (s := bootKernel 0x9000 zeroRam roomyPmm) (t := firstBlock)
    (e := .kernel (.kmalloc 80)) hfit (Or.inr hserved) rfl
  have hrun' := EventMachine.Run.single_restrict (M := commandMachine (bootPml4 0x9000))
    (G := SparesHeap (bootPml4 0x9000)) (e := .vmtest) trivial (Or.inr hspares) hstep
  exact heap_stays_mapped kernelMap_roomy (by rw [htotal]; norm_num) pmmInit_roomy
    stage2Tables_9000 zeroRam hrun hrun'

/-- **`vmtest` unmaps the stack of the first task**, which lies in the page it maps. -/
theorem vmtest_unmaps_stack :
    pmmInit roomyMap 0x100000 0x110000 = some roomyPmm
      ∧ (commandMachine (bootPml4 0x9000)).Run (bootKernel 0x9000 zeroRam roomyPmm)
        [.kernel (.kmalloc 80), .kernel (.kmalloc 4096)] firstStack
      ∧ (commandMachine (bootPml4 0x9000)).Run firstStack [.vmtest]
        (commandAfter firstStack .vmtest)
      ∧ ⟨heapStart + 80, 4096⟩ ∈ firstStack.blocks
      ∧ mmuWalk (commandAfter firstStack .vmtest).kernel.mem (bootPml4 0x9000) vmtestAddr = none
      ∧ ¬ HeapAlive (bootPml4 0x9000) firstStack (commandAfter firstStack .vmtest) := by
  have hfit : SizeFits (bootKernel 0x9000 zeroRam roomyPmm).kernel 80 := Or.inr (by decide)
  obtain ⟨hfit', hblock, hends, hwalk⟩ : SizeFits firstBlock.kernel 4096
      ∧ ⟨heapStart + 80, 4096⟩ ∈ firstStack.blocks
      ∧ (exec (cmdVmtest (bootPml4 0x9000)) firstStack.toHeapRun).1 ≠ .error .pageFault
      ∧ mmuWalk (commandAfter firstStack .vmtest).kernel.mem (bootPml4 0x9000) vmtestAddr
        = none := by
    decide +kernel
  have hstep : (commandMachine (bootPml4 0x9000)).step firstStack .vmtest
      = some (commandAfter firstStack .vmtest) := by
    simp only [commandAfter, commandMachine, commandEnd, if_neg hends, Option.getD_some]
  refine ⟨pmmInit_roomy, .snoc (.single hfit rfl) hfit' rfl, .single trivial hstep, hblock, hwalk,
    fun h => ?_⟩
  obtain ⟨t, -, ht, -⟩ := h _ hblock vmtestAddr (by unfold Block.Has; decide)
  rw [hwalk] at ht
  cases ht

end KiOS
