import KiOS.Commands.HeapTest

/-!
The kernel after a command.

* `IdentityMap`: the pages of 2 MB of stage 2, whatever USER bits they got;
* `HeapKept`: the heap is mapped as it was, apart from pages that may have been cleared;
* `Aftermath`: this, the invariant of the kernel holds again, and the identity map is in place;
* `Aftermath.of_footprint`, `Aftermath.of_grown`, `Aftermath.trans`: what a command does with pages
  of its own, what it does with blocks of the heap, and both one after the other.
-/

namespace KiOS

/-- The directory of stage 2 is in place. -/
def IdentityMap (m : PhysMem) (pml4 : Frame) : Prop :=
  ∀ j, entryAt m pml4 [0, 0] j = bootEntry j.toNat
    ∨ entryAt m pml4 [0, 0] j = bootEntry j.toNat ||| pageUser

section

variable {pml4 : Frame} {m m' : PhysMem}

lemma IdentityMap.largePage (h : IdentityMap m pml4) (j : Idx) :
    LargePage (entryAt m pml4 [0, 0] j) := by
  obtain ⟨hp, -, hl, -⟩ := bootEntry_flags j.isLt
  rcases h j with heq | heq <;> rw [heq]
  · exact ⟨hp, hl⟩
  · exact ⟨present_or_pageUser.mpr hp, large_or_pageUser.mpr hl⟩

/-- Whoever keeps large pages keeps the identity map. -/
lemma IdentityMap.of_large (h : IdentityMap m pml4)
    (hlarge : ∀ q j, q.length ≤ 2 → LargePage (entryAt m pml4 q j) →
      entryAt m' pml4 q j = entryAt m pml4 q j) : IdentityMap m' pml4 := by
  intro j
  rw [hlarge [0, 0] j le_rfl (h.largePage j)]
  exact h j

end

/-- The heap is mapped as it was, apart from pages in `lost`, and new blocks are mapped. -/
structure HeapKept (pml4 : Frame) (lost : Set VPage) (s₀ s : HeapRun Pmm) : Prop where
  kept : ∀ w, InHeap w → vpage w ∉ lost → Present (leafAt s₀.kernel.mem pml4 w) →
    leafAt s.kernel.mem pml4 w = leafAt s₀.kernel.mem pml4 w
  old : ∀ b ∈ s₀.blocks, b ∈ s.blocks
  new : ∀ b ∈ s.blocks, b ∈ s₀.blocks ∨ ∀ w : BitVec 64, b.addr.toNat ≤ w.toNat →
    w.toNat < b.addr.toNat + b.size.toNat → Present (leafAt s.kernel.mem pml4 w)

/-- What a command leaves, when pages in `lost` may have been cleared. -/
structure Aftermath (pml4 : Frame) (held : Finset (BitVec 64)) (lost : Set VPage)
    (s₀ s : HeapRun Pmm) : Prop extends HeapKept pml4 lost s₀ s where
  inv : (s.with held).Inv pml4
  identity : IdentityMap s₀.kernel.mem pml4 → IdentityMap s.kernel.mem pml4

namespace Aftermath

variable {pml4 : Frame} {held : Finset (BitVec 64)} {lost : Set VPage} {s₀ s₁ s : HeapRun Pmm}
  {own : Set Frame} {mapped : VPage → Option Pte}

lemma mono {lost' : Set VPage} (h : Aftermath pml4 held lost s₀ s) (hsub : lost ⊆ lost') :
    Aftermath pml4 held lost' s₀ s :=
  ⟨⟨fun w hw hn hp => h.kept w hw (fun hl => hn (hsub hl)) hp, h.old, h.new⟩, h.inv, h.identity⟩

lemma trans (h : Aftermath pml4 held lost s₀ s₁) (h' : Aftermath pml4 held ∅ s₁ s) :
    Aftermath pml4 held lost s₀ s where
  inv := h'.inv
  identity := h'.identity ∘ h.identity
  kept w hw hn hp := by
    have heq := h.kept w hw hn hp
    exact (h'.kept w hw (Set.notMem_empty _) (heq.symm ▸ hp)).trans heq
  old b hb := h'.old b (h.old b hb)
  new b hb := by
    rcases h'.new b hb with hb | hb
    · refine (h.new b hb).imp_right fun hp w hge hlt => ?_
      have hw : InHeap w := h.inv.inHeap_of_block hb hge hlt
      have hpr := hp w hge hlt
      exact (h'.kept w hw (Set.notMem_empty _) hpr).symm ▸ hpr
    · exact Or.inr hb

/-- A command that has got its mappings cleared again. -/
lemma of_footprint (h₀ : (s₀.with held).Inv pml4) (h : Footprint pml4 s₀ own mapped s)
    (hm : ∀ w e, InHeap w → mapped (vpage w) = some e → e = 0 ∧ vpage w ∈ lost) :
    Aftermath pml4 held lost s₀ s := by
  have hleaf : ∀ w, InHeap w → Present (leafAt s.kernel.mem pml4 w) →
      leafAt s.kernel.mem pml4 w = leafAt s₀.kernel.mem pml4 w := by
    intro w hw hp
    have hl := h.leaf w
    cases hmw : mapped (vpage w) with
    | none => rwa [hmw] at hl
    | some e =>
        obtain ⟨rfl, -⟩ := hm w e hw hmw
        rw [hmw, Option.getD_some] at hl
        rw [hl] at hp
        exact absurd hp not_present_zero
  have hinv : (s.with held).Inv pml4 := by
    have hled := h.ledger h₀.ledger hleaf
    have hbounds : s.BoundsInv := ⟨h.ptr ▸ h₀.bounds.start_le, h.ptr ▸ h₀.bounds.lt_end,
      h.ptr ▸ h₀.bounds.aligned, fun b hb => h.ptr ▸ h₀.bounds.below b (h.blocks ▸ hb)⟩
    exact ⟨hbounds, fun b hb => h₀.blocks_start b (h.blocks ▸ hb), hled, h₀.held_aligned,
      h₀.held_pos⟩
  refine ⟨⟨fun w hw hn hp => ?_, fun b hb => h.blocks.symm ▸ hb,
    fun b hb => Or.inl (h.blocks ▸ hb)⟩, hinv,
    fun hid => hid.of_large fun q j hq hl => h.large q j hq (Or.inl hl)⟩
  have hl := h.leaf w
  cases hmw : mapped (vpage w) with
  | none => rwa [hmw] at hl
  | some e => exact absurd (hm w e hw hmw).2 hn

/-- A command that has taken blocks of the heap. -/
lemma of_grown (h : HeapGrown pml4 held s₁ s) : Aftermath pml4 held ∅ s₁ s where
  inv := h.inv
  identity hid := hid.of_large fun q j hq hl => h.large q j hq (Or.inl hl)
  kept w _ _ hp := h.keeps w hp
  old := h.old
  new b hb := by
    refine (h.blocks b hb).imp_right fun hle w hge hlt => ?_
    have hbelow := h.inv.bounds.below b hb
    exact h.backed w (by omega) (hlt.trans_le hbelow)

end Aftermath

end KiOS
