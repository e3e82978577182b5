import KiOS.Commands.Memtest
import KiOS.Commands.Usertest
import KiOS.Commands.Vmtest

/-!
Runs of the kernel with the commands of its shell.

* `commandMachine`: the kernel, and `memtest`, `vmtest` and `usertest` typed at any time. A page
  fault stops the kernel for good;
* `CommandInv`: the invariant of the kernel, with the identity map of stage 2 in place;
* `CommandInv.command`: what a command leaves when it ends;
* `CommandInv.step`, `CommandInv.of_run`: every event keeps the invariant, and it holds in every
  state reached from boot.
-/

namespace KiOS

open Program Command

inductive CommandEvent where
  | kernel (e : KernelEvent)
  | memtest
  | vmtest
  | usertest

/-- The kernel when a command has ended. `isr_handler` does not return. -/
def commandEnd (held : Finset (BitVec 64)) (r : Except CommandStop Unit × HeapRun Pmm) :
    Option KernelRun :=
  if r.1 = .error .pageFault then none else some (r.2.with held)

/-- Runs of the kernel with its shell. `cmd_usertest` is typed only where it overwrites no page
table. -/
def commandMachine (pml4 : Frame) : EventMachine KernelRun CommandEvent where
  admissible s
    | .kernel e => (kernelMachine pml4).admissible s e
    | .memtest => True
    | .vmtest => True
    | .usertest => SparesTables pml4 s.kernel.mem
  step s
    | .kernel e => (kernelMachine pml4).step s e
    | .memtest => commandEnd s.held (exec (cmdMemtest pml4) s.toHeapRun)
    | .vmtest => commandEnd s.held (exec (cmdVmtest pml4) s.toHeapRun)
    | .usertest => commandEnd s.held (exec (cmdUsertest pml4) s.toHeapRun)

/-- What holds in every run. -/
structure CommandInv (pml4 : Frame) (s : KernelRun) : Prop where
  inv : s.Inv pml4
  identity : IdentityMap s.kernel.mem pml4

section

variable {pml4 : Frame} {s t : KernelRun} {e : KernelEvent}

/-- No event of the kernel touches the large pages. -/
lemma IdentityMap.step (hid : IdentityMap s.kernel.mem pml4) (h : s.Inv pml4)
    (hadm : (kernelMachine pml4).admissible s e) (hst : (kernelMachine pml4).step s e = some t) :
    IdentityMap t.kernel.mem pml4 := by
  cases e with
  | kmalloc size =>
      simp only [kernelMachine, Option.some.injEq] at hst
      subst hst
      rcases kmalloc_cases pmmAlloc pml4 size s.kernel with ⟨-, heq⟩ | ⟨h0, hlimit, -⟩
      · rw [heq]
        exact hid
      · have hstart : InHeap s.kernel.heapCurrentPtr := ⟨h.bounds.start_le, h.bounds.lt_end⟩
        have hend := h.bounds.reserved_lt (hadm.resolve_left h0) hlimit
        obtain ⟨-, -, hlarge, -⟩ := mapHeapPages_frame (A := pmmFrames) h.ledger.ok
          fun page hp => (heapPages_inHeap hstart hend hp).pml4Index_ne
        obtain ⟨hmem, -⟩ := kmalloc_mem pml4 (s := s.toHeapRun) h0 hlimit
        rw [hmem]
        exact hid.of_large fun q j hq hl => hlarge q j hq (Or.inl hl)
  | allocPage =>
      simp only [kernelMachine, Option.some.injEq] at hst
      subst hst
      exact hid
  | freePage phys =>
      simp only [kernelMachine, Option.some.injEq] at hst
      subst hst
      exact hid
  | mapPage virt phys flags =>
      obtain ⟨err, m, p, heq, hok⟩ := vmmMapPage_spec phys flags h.ledger.ok hadm.2
      change vmmMapPage pmmAlloc pml4 virt phys flags s.kernel.mem s.kernel.pmm = _ at heq
      simp only [kernelMachine, heq, Option.some.injEq] at hst
      subst hst
      exact hid.of_large fun q j hq hl => hok.grows.large q j hq (Or.inl hl)
  | unmapPage virt =>
      simp only [kernelMachine, Option.some.injEq] at hst
      subst hst
      obtain ⟨-, -, hslot⟩ := vmmUnmapPage_spec h.ledger.ok.tables hadm.2
      refine hid.of_large fun q j hq _ => ?_
      rw [hslot q j (by omega), if_neg fun h' => ?_]
      have hlen := congrArg List.length h'.1
      simp only [tablePath, List.length_cons, List.length_nil] at hlen
      omega
  | store frame idx value =>
      simp only [kernelMachine, Option.some.injEq] at hst
      subst hst
      exact hid.of_large fun q j hq _ => (store_apart hadm).2 q j (by omega)

end

/-- The pages of the heap that an event may clear. -/
def CommandEvent.lost (s : KernelRun) : CommandEvent → Set VPage
  | .vmtest => {v | v = vpage vmtestAddr ∧ s.kernel.pmm.freePages ≠ 0}
  | _ => ∅

namespace CommandInv

variable {pml4 : Frame} {s t : KernelRun}

lemma of_aftermath {lost : Set VPage} (h : CommandInv pml4 s)
    (ha : Aftermath pml4 s.held lost s.toHeapRun t.toHeapRun) (hheld : t.held = s.held) :
    CommandInv pml4 t := by
  have ht : t = t.toHeapRun.with s.held := by rw [← hheld]; rfl
  rw [ht]
  exact ⟨ha.inv, ha.identity h.identity⟩

/-- What a command leaves if it ends. -/
lemma aftermath {lost : Set VPage} {c : Command Unit} {E : CommandStop → HeapRun Pmm → Prop}
    (hc : Triple (fun t => t = s.toHeapRun) c
      (fun _ t => Aftermath pml4 s.held lost s.toHeapRun t) E)
    (hE : ∀ e t, E e t → e = .pageFault ∨ Aftermath pml4 s.held lost s.toHeapRun t)
    (hst : commandEnd s.held (exec c s.toHeapRun) = some t) :
    Aftermath pml4 s.held lost s.toHeapRun t.toHeapRun ∧ t.held = s.held := by
  have hends := hc s.toHeapRun rfl
  rw [commandEnd] at hst
  split_ifs at hst with hfault
  obtain rfl := Option.some.inj hst
  generalize exec c s.toHeapRun = r at hends hfault
  rcases r with ⟨e | a, u⟩
  · refine ⟨(hE e u hends).resolve_left fun he => hfault (by rw [he]), rfl⟩
  · exact ⟨hends, rfl⟩

/-- **The commands** leave the kernel in order. -/
lemma command {e : CommandEvent} (h : CommandInv pml4 s) (he : ∀ k, e ≠ .kernel k)
    (hadm : (commandMachine pml4).admissible s e) (hst : (commandMachine pml4).step s e = some t) :
    Aftermath pml4 s.held (e.lost s) s.toHeapRun t.toHeapRun ∧ t.held = s.held := by
  cases e with
  | kernel k => exact absurd rfl (he k)
  | memtest =>
      exact aftermath ((cmdMemtest_triple h.inv).conseq (fun _ h => h) (fun _ _ h => h.2)
        fun _ _ h => h) (fun _ _ h => Or.inr h.2.2) hst
  | vmtest =>
      refine aftermath ((cmdVmtest_triple h.inv).conseq (fun _ h => h) (fun _ u hu => ?_)
        fun _ _ h => h) (fun e u hu => ?_) hst
      · refine hu.2.2.mono fun v hv => ⟨hv, ?_⟩
        have hfree : 1 + missing s.kernel.mem pml4 vmtestAddr ≤ s.kernel.pmm.freePages := hu.1
        omega
      · rcases hu with ⟨-, -, -, hu⟩ | ⟨he, -⟩
        · exact Or.inr (hu.mono (Set.empty_subset _))
        · exact Or.inl he
  | usertest =>
      exact aftermath (cmdUsertest_triple h.inv h.identity hadm) (fun _ _ h => Or.inr h.2) hst

lemma step {e : CommandEvent} (h : CommandInv pml4 s)
    (hadm : (commandMachine pml4).admissible s e) (hst : (commandMachine pml4).step s e = some t) :
    CommandInv pml4 t := by
  by_cases he : ∃ k, e = .kernel k
  · obtain ⟨k, rfl⟩ := he
    exact ⟨h.inv.step hadm hst, h.identity.step h.inv hadm hst⟩
  · push Not at he
    obtain ⟨ha, hheld⟩ := h.command he hadm hst
    exact h.of_aftermath ha hheld

lemma boot {entries : List MemoryMapEntry} {kernelEnd : BitVec 64} {pml4Table : BitVec 32}
    {pmm : Pmm} (hmap : KernelMap entries kernelEnd) (htotal : pageTotal entries ≤ 2 ^ 40)
    (hpmm : pmmInit entries 0x100000 kernelEnd = some pmm) (hboot : Stage2Tables pml4Table)
    (ram : PhysMem) : CommandInv (bootPml4 pml4Table) (bootKernel pml4Table ram pmm) := by
  refine ⟨KernelRun.Inv.boot hmap htotal hpmm hboot ram, fun j => Or.inl ?_⟩
  rw [bootKernel_mem, hboot.entryAt_eq ram (by simp)]
  simp [Stage2Tables.bootSlot]

/-- **The invariant** of runs from boot. -/
lemma of_run {entries : List MemoryMapEntry} {kernelEnd : BitVec 64} {pml4Table : BitVec 32}
    {pmm : Pmm} (hmap : KernelMap entries kernelEnd) (htotal : pageTotal entries ≤ 2 ^ 40)
    (hpmm : pmmInit entries 0x100000 kernelEnd = some pmm) (hboot : Stage2Tables pml4Table)
    {ram : PhysMem} {es : List CommandEvent}
    (hrun : (commandMachine (bootPml4 pml4Table)).Run (bootKernel pml4Table ram pmm) es s) :
    CommandInv (bootPml4 pml4Table) s :=
  EventMachine.Run.invariant (boot hmap htotal hpmm hboot ram)
    (fun _ _ _ ht hadm hst => ht.step hadm hst) hrun

end CommandInv

end KiOS
