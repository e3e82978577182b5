import KiOS.Commands.Holding

/-!
What `cmd_vmtest` leaves behind.

* `VmtestServed`: the condition: no page is free, or one and those for its tables;
* `cmdVmtest_triple`: the command leaves nothing behind under the condition, but a page of the heap
  that was mapped where it maps its own. Otherwise the processor stops it at an address that is
  not mapped.
-/

namespace KiOS

open Program Command

section

variable {pml4 : Frame} {s₀ s : HeapRun Pmm} {held : Finset (BitVec 64)}

lemma inHeap_vmtestAddr : InHeap vmtestAddr := by decide

/-- The condition: no page is free, or the page and the tables on its way can be had. -/
def VmtestServed (pml4 : Frame) (k : Kernel Pmm) : Prop :=
  k.pmm.freePages = 0 ∨ 1 + missing k.mem pml4 vmtestAddr ≤ k.pmm.freePages

/-- The test address holds the page, and nothing else has changed. -/
def VmtestMapped (pml4 : Frame) (s₀ : HeapRun Pmm) (page : BitVec 64) (e : Pte)
    (s : HeapRun Pmm) : Prop :=
  Holding pml4 s₀ [page] (Function.update (fun _ => none) (vpage vmtestAddr) (some e)) s
    ∧ 1 + missing s₀.kernel.mem pml4 vmtestAddr ≤ s₀.kernel.pmm.freePages

/-- Where the processor finds the test address. -/
lemma VmtestMapped.walk {page : BitVec 64} (h : VmtestMapped pml4 s₀ page (mapEntry page 3) s) :
    ∃ t, mmuWalk s.kernel.mem pml4 vmtestAddr = some t ∧ t.phys = page :=
  h.1.footprint.walk_of_mapped (h.1.frames page (List.mem_singleton_self page))
    inHeap_vmtestAddr.pml4Index_ne (by decide) (Function.update_self ..)

/-- **`cmd_vmtest`** leaves the kernel in order and nothing behind under the condition, and runs
into a page fault otherwise. -/
lemma cmdVmtest_triple (h₀ : (s₀.with held).Inv pml4) :
    Triple (fun s => s = s₀) (cmdVmtest pml4)
      (fun _ s => 1 + missing s₀.kernel.mem pml4 vmtestAddr ≤ s₀.kernel.pmm.freePages
        ∧ Clean pml4 s₀.kernel s.kernel ∧ Aftermath pml4 held {vpage vmtestAddr} s₀ s)
      (fun e s => (e = .returned ∧ s₀.kernel.pmm.freePages = 0 ∧ Clean pml4 s₀.kernel s.kernel
          ∧ Aftermath pml4 held ∅ s₀ s)
        ∨ (e = .pageFault ∧ ¬ VmtestServed pml4 s₀.kernel)) := by
  have hok : VmmOk pmmFrames pml4 s₀.kernel.mem s₀.kernel.pmm := h₀.ledger.ok
  have hne := inHeap_vmtestAddr.pml4Index_ne
  rw [cmdVmtest]
  refine Triple.bind ((OnlyTaken.alloc_triple pml4 s₀ []).conseq ?_ (fun _ s hs => hs)
      fun _ _ h => h) fun page =>
    Triple.bind (Q := fun _ => OnlyTaken pml4 s₀ [page]) (Triple.stopIf (fun h0 s hs => ?_)
      fun hp s hs => hs.2 hp) fun _ =>
    Triple.bind (Q := fun _ s => VmtestMapped pml4 s₀ page (mapEntry page 3) s
      ∨ mmuWalk s.kernel.mem pml4 vmtestAddr = none ∧ ¬ VmtestServed pml4 s₀.kernel)
      (Triple.step ?_) fun _ =>
    Triple.bind (Q := fun _ s => VmtestMapped pml4 s₀ page (mapEntry page 3) s
      ∨ mmuWalk s.kernel.mem pml4 vmtestAddr = none ∧ ¬ VmtestServed pml4 s₀.kernel)
      (Triple.step fun s hs => hs) fun _ =>
    Triple.bind (Q := fun _ => VmtestMapped pml4 s₀ page (mapEntry page 3))
      (access_triple ?_ ?_) fun _ =>
    Triple.bind (Q := fun _ => VmtestMapped pml4 s₀ page (mapEntry page 3))
      (access_triple ?_ fun s t hs _ => hs) fun _ =>
    Triple.bind (Q := fun _ => VmtestMapped pml4 s₀ page 0) (Triple.step ?_) fun _ =>
    Triple.bind (Q := fun _ => VmtestMapped pml4 s₀ page 0) (Triple.step fun s hs => hs) fun _ =>
    Triple.step ?_
  · rintro s rfl
    exact OnlyTaken.nil hok
  · obtain ⟨hs, hall⟩ := hs.1 h0
    exact Or.inl ⟨rfl, hall.symm, (hs.holding.clean_iff hok).mpr rfl,
      Aftermath.of_footprint h₀ hs.holding.footprint (by simp)⟩
  · rintro s ⟨hs, hfree, hmem⟩
    rw [List.length_singleton] at hfree
    obtain ⟨err, m, p, heq, hmok, hs'⟩ := hs.map page 3 hne
    dsimp only
    rw [heq]
    by_cases herr : err = none
    · have hspent : p.freePages + missing s.kernel.mem pml4 vmtestAddr = s.kernel.pmm.freePages :=
        hmok.free herr
      rw [if_pos herr] at hs'
      rw [hmem] at hspent
      exact Or.inl ⟨hs', by omega⟩
    · have hshort : s.kernel.pmm.freePages < missing s.kernel.mem pml4 vmtestAddr :=
        hmok.fails_iff.mp herr
      rw [hmem] at hshort
      refine Or.inr ⟨?_, ?_⟩
      · rw [hs'.footprint.mmuWalk_eq hne]
        exact if_neg (hmok.not_present herr)
      · unfold VmtestServed
        omega
  · rintro s (hs | ⟨-, hs⟩) hnone
    · obtain ⟨t, ht, -⟩ := hs.walk
      rw [ht] at hnone
      cases hnone
    · exact Or.inr ⟨rfl, hs⟩
  · rintro s t (hs | ⟨hs, -⟩) hwalk
    · obtain ⟨t', ht, hphys⟩ := hs.walk
      obtain rfl : t = t' := Option.some.inj (hwalk.symm.trans ht)
      rw [hphys]
      exact ⟨hs.1.of_footprint (hs.1.footprint.store
        (hs.1.not_isTable (i := 0) (by simp))), hs.2⟩
    · rw [hs] at hwalk
      cases hwalk
  · intro s hs hnone
    obtain ⟨t, ht, -⟩ := hs.walk
    rw [ht] at hnone
    cases hnone
  · rintro s ⟨hs, hserved⟩
    have hleaf := hs.footprint.leaf vmtestAddr
    rw [Function.update_self, Option.getD_some] at hleaf
    have hpr : Present (leafAt s.kernel.mem pml4 vmtestAddr) := hleaf ▸ present_mapEntry
    have hfoot := hs.footprint.unmap (hs.footprint.ok.tables.not_hitsLarge hne)
    rw [if_pos hpr, Function.update_idem] at hfoot
    exact ⟨hs.of_footprint hfoot, hserved⟩
  · rintro s ⟨hs, hserved⟩
    obtain ⟨hs', -⟩ := hs.free
    have hempty : {f | f ∈ ([] : List (BitVec 64)).map frameOf} = ∅ := by simp
    have hfoot := hempty ▸ hs'.footprint
    have hmapped : ∀ w e, Function.update (fun _ => none) (vpage vmtestAddr) (some 0) (vpage w)
        = some e → (e : Pte) = 0 ∧ vpage w = vpage vmtestAddr := by
      intro w e he
      by_cases hw : vpage w = vpage vmtestAddr
      · rw [hw, Function.update_self] at he
        exact ⟨(Option.some.inj he).symm, hw⟩
      · rw [Function.update_of_ne hw] at he
        cases he
    refine ⟨hserved, hfoot.clean hok fun w e he => ?_,
      Aftermath.of_footprint h₀ hfoot fun w e _ he => hmapped w e he⟩
    obtain ⟨h0, hw⟩ := hmapped w e he
    have hpath := (vpage_eq_iff.mp hw).1
    simp only [tablePath, List.cons.injEq] at hpath
    exact ⟨h0, hpath.1 ▸ hne⟩

end

end KiOS
