import KiOS.Mm.VmmRefinement

/-!
What Ring 3 can reach.

`vmm_map_page` hands the USER bit on to every entry on its way. Where that entry is a page table
this only permits what the entries below permit. In the identity map it is a page of 2 MB, which
then belongs to Ring 3 as a whole.

* `UserConfined`: every address Ring 3 can reach lies in a page mapped for it;
* `SparesLargePages`: the condition: where a walk meets a large page, the call neither asks for the
  USER bit nor takes one of the tables for the page table;
* `user_confined`: in every run that keeps to it the processor keeps Ring 3 confined. Unmapping
  is not restricted: it clears some word, and that never permits anything;
* `usertest_opens_kernel_memory`: the first call of `cmd_usertest` does not keep to it.
-/

namespace KiOS

/-- Ring 3 reaches only pages `vmm_map_page` was called for with the USER flag. -/
def UserConfined (pml4 : Frame) (s : VmmRun) : Prop :=
  ∀ virt, Canonical virt → ∀ t, mmuWalk s.mem pml4 virt = some t → t.user = true →
    s.userMapped (vpage virt) = true

/-- The condition: a large page is not mapped anew for Ring 3, and the word that a call writes into
a large page lies in none of the tables. -/
def SparesLargePages (pml4 : Frame) (s : VmmRun) : VmmEvent → Prop
  | .map virt _ flags _ => HitsLarge s.mem pml4 virt →
      ¬ User (flags.setWidth 64) ∧ ¬ IsTable s.mem pml4 (largeFrame s.mem pml4 virt)
  | .unmap _ => True

/-- The invariant behind the condition. -/
structure VmmRun.IsolationInv (pml4 : Frame) (s : VmmRun) : Prop where
  tables : Tables s.mem pml4
  large_supervisor : ∀ q j, q.length ≤ 2 → LargePage (entryAt s.mem pml4 q j) →
    ¬ User (entryAt s.mem pml4 q j)
  leaf_user : ∀ virt, User (leafAt s.mem pml4 virt) → s.userMapped (vpage virt) = true

namespace VmmRun.IsolationInv

variable {pml4 : Frame} {s u : VmmRun} {virt phys : BitVec 64} {flags : BitVec 32}
  {pages : List (BitVec 64)} {e : VmmEvent}

/-- A call whose walk meets no large page. -/
lemma map_small (h : s.IsolationInv pml4)
    (hadm : (vmmMachine pml4).admissible s (.map virt phys flags pages))
    (hv : ¬ HitsLarge s.mem pml4 virt)
    (hst : (vmmMachine pml4).step s (.map virt phys flags pages) = some u) :
    u.IsolationInv pml4 := by
  obtain ⟨err, m', s', heq, hok⟩ := vmmMapPage_spec phys flags
    (vmmOk_of_admissible h.tables hadm) hv
  simp only [vmmMachine, heq, Option.some.injEq] at hst
  subst hst
  refine ⟨hok.ok.tables, fun q j hq hl => ?_, fun w hu => ?_⟩ <;> dsimp only at *
  · have hsame := hok.grows.large q j hq (Or.inr hl)
    rw [hsame] at hl ⊢
    exact h.large_supervisor q j hq hl
  · have hkeep : s.userMapped (vpage w) = true →
        (if User (flags.setWidth 64) then Function.update s.userMapped (vpage virt) true
          else s.userMapped) (vpage w) = true := by
      intro hw
      split_ifs
      · by_cases hwv : vpage w = vpage virt <;> simp [hwv, hw]
      · exact hw
    rw [leafAt, hok.leaf _ _ (by simp [tablePath])] at hu
    split_ifs at hu with hthis
    · have hwv : vpage w = vpage virt := vpage_eq_iff.mpr hthis.2
      rw [if_pos (user_mapEntry.mp hu), hwv, Function.update_self]
    · exact hkeep (h.leaf_user w hu)

/-- Memory with the same tables permits the same. -/
lemma of_eq (h : s.IsolationInv pml4)
    (hwalk : ∀ q, q.length ≤ 3 → tableAt u.mem pml4 q = tableAt s.mem pml4 q)
    (hslot : ∀ q j, q.length ≤ 3 → entryAt u.mem pml4 q j = entryAt s.mem pml4 q j)
    (huser : u.userMapped = s.userMapped) : u.IsolationInv pml4 := by
  refine ⟨h.tables.of_eq hwalk hslot, fun q j hq hl => ?_, fun w hu => ?_⟩
  · rw [hslot q j (by omega)] at hl ⊢
    exact h.large_supervisor q j hq hl
  · rw [leafAt, hslot _ _ (by simp [tablePath])] at hu
    rw [huser]
    exact h.leaf_user w hu

/-- A call on a large page that the condition admits writes into that page, and no more. -/
lemma map_large (h : s.IsolationInv pml4) (hl : HitsLarge s.mem pml4 virt)
    (hg : SparesLargePages pml4 s (.map virt phys flags pages))
    (hst : (vmmMachine pml4).step s (.map virt phys flags pages) = some u) :
    u.IsolationInv pml4 := by
  obtain ⟨huser, htable⟩ := hg hl
  have heq := vmmMapPage_large pageScript.alloc pages phys h.tables hl huser
  obtain ⟨hwalk, hslot⟩ := store_apart (i := ptIndex virt) (x := mapEntry phys flags) htable
  simp only [vmmMachine, heq, huser, if_false, Option.some.injEq] at hst
  subst hst
  exact h.of_eq hwalk hslot rfl

lemma map (h : s.IsolationInv pml4)
    (hadm : (vmmMachine pml4).admissible s (.map virt phys flags pages))
    (hg : SparesLargePages pml4 s (.map virt phys flags pages))
    (hst : (vmmMachine pml4).step s (.map virt phys flags pages) = some u) :
    u.IsolationInv pml4 := by
  by_cases hl : HitsLarge s.mem pml4 virt
  · exact h.map_large hl hg hst
  · exact h.map_small hadm hl hst

/-- Clearing words permits nothing. -/
lemma of_le (h : s.IsolationInv pml4)
    (hle : ∀ f i, u.mem.word f i = s.mem.word f i ∨ u.mem.word f i = 0)
    (huser : u.userMapped = s.userMapped) : u.IsolationInv pml4 := by
  have hslot : ∀ q j, entryAt u.mem pml4 q j = entryAt s.mem pml4 q j
      ∨ entryAt u.mem pml4 q j = 0 := fun q j => Radix.slot_of_le child_zero hle
  refine ⟨h.tables.of_le hle, fun q j hq hl => ?_, fun w hu => ?_⟩
  · rcases hslot q j with h' | h' <;> rw [h'] at hl ⊢
    · exact h.large_supervisor q j hq hl
    · exact not_user_zero
  · rcases hslot (tablePath w) (ptIndex w) with h' | h' <;> rw [leafAt, h'] at hu
    · rw [huser]
      exact h.leaf_user w hu
    · exact absurd hu not_user_zero

lemma step (h : s.IsolationInv pml4)
    (hadm : ((vmmMachine pml4).restrict (SparesLargePages pml4)).admissible s e)
    (hst : ((vmmMachine pml4).restrict (SparesLargePages pml4)).step s e = some u) :
    u.IsolationInv pml4 := by
  cases e with
  | map virt phys flags pages => exact h.map hadm.1 hadm.2 hst
  | unmap virt =>
      simp only [EventMachine.restrict, vmmMachine, Option.some.injEq] at hst
      subst hst
      exact h.of_le vmmUnmapPage_le rfl

lemma boot {pml4Table : BitVec 32} (hboot : Stage2Tables pml4Table) (ram : PhysMem) :
    (bootVmm pml4Table ram).IsolationInv (bootPml4 pml4Table) := by
  have hu : ∀ q j, q.length ≤ 3 →
      ¬ User (entryAt (setupPaging pml4Table ram) (bootPml4 pml4Table) q j) := by
    obtain ⟨-, -, -, -, hu4, hu3⟩ := hboot.links
    intro q j hq
    rw [hboot.entryAt_eq ram hq, Stage2Tables.bootSlot]
    split_ifs
    · exact hu4
    · exact not_user_zero
    · exact hu3
    · exact not_user_zero
    · exact (bootEntry_flags j.isLt).2.2.2
    · exact not_user_zero
  refine ⟨?_, fun q j hq _ => ?_, fun w hw => ?_⟩
  · rw [bootVmm_mem]
    exact hboot.tables ram
  · rw [bootVmm_mem]
    exact hu q j (by omega)
  · rw [bootVmm_mem] at hw
    exact absurd hw (hu _ _ (by simp [tablePath]))

/-- A page above the identity map that is mapped for Ring 3, with the pages for its tables. -/
lemma user_of_map (h : s.IsolationInv pml4)
    (hadm : (vmmMachine pml4).admissible s (.map virt phys flags pages))
    (hv : pml4Index virt ≠ 0) (huser : User (flags.setWidth 64)) (hpages : 3 ≤ pages.length)
    (hst : (vmmMachine pml4).step s (.map virt phys flags pages) = some u) :
    (mmuWalk u.mem pml4 virt).map Translation.user = some true := by
  obtain ⟨err, m', s', heq, hok⟩ := vmmMapPage_spec phys flags
    (vmmOk_of_admissible h.tables hadm) (h.tables.not_hitsLarge hv)
  simp only [vmmMachine, heq, Option.some.injEq] at hst
  subst hst
  have hok' : err = none := by
    by_contra herr
    have hlt : pages.length < missing s.mem pml4 virt := hok.fails_iff.mp herr
    have hle := missing_le (m := s.mem) (r := pml4) virt
    omega
  have hleaf : leafAt m' pml4 virt = mapEntry phys flags := by
    rw [leafAt, hok.leaf _ _ (by simp [tablePath]), if_pos ⟨hok', rfl, rfl⟩]
  have hnl : ¬ LargePage (entryAt m' pml4 [pml4Index virt, pdptIndex virt] (pdIndex virt)) :=
    hok.ok.tables.not_hitsLarge hv
  rw [mmuWalk_eq hok.ok.tables, hleaf]
  dsimp only
  rw [if_neg hnl, if_pos present_mapEntry, Option.map_some]
  exact congrArg some (decide_eq_true (user_mapEntry.mpr huser))

/-- What the invariant says of the processor. -/
lemma confined (h : s.IsolationInv pml4) : UserConfined pml4 s := by
  intro virt _ t ht hu
  rw [mmuWalk_eq h.tables] at ht
  dsimp only at ht
  split_ifs at ht with hl hpr <;> rw [Option.some.injEq] at ht <;> subst ht
  · exact absurd (of_decide_eq_true hu) (h.large_supervisor _ _ (by simp) hl)
  · exact h.leaf_user virt (of_decide_eq_true hu)

end VmmRun.IsolationInv

/-- **Isolation**: as long as no page of the identity map is mapped anew for Ring 3, and no table
is overwritten there, Ring 3 reaches only pages that were mapped for it. -/
theorem user_confined {pml4Table : BitVec 32} (hboot : Stage2Tables pml4Table) (ram : PhysMem)
    {es : List VmmEvent} {s : VmmRun}
    (hrun : ((vmmMachine (bootPml4 pml4Table)).restrict
      (SparesLargePages (bootPml4 pml4Table))).Run (bootVmm pml4Table ram) es s) :
    UserConfined (bootPml4 pml4Table) s :=
  (EventMachine.Run.invariant (VmmRun.IsolationInv.boot hboot ram)
    (fun _ _ _ ht hadm hst => ht.step hadm hst) hrun).confined

/-- No call of the VMM breaks down. -/
lemma vmm_step_total (pml4 : Frame) (s : VmmRun) (e : VmmEvent) :
    ∃ u, (vmmMachine pml4).step s e = some u := by
  cases e <;> exact ⟨_, rfl⟩

/-- Where stage 2 put its tables, a page of the identity map is mapped for the kernel and a page
above it for Ring 3. -/
def kernelThenUser : List VmmEvent :=
  [.map 0x400000 0x200000 3 [], .map 0x8000000000 0x200000 7 tablePages]

/-- The statement for these calls. Ring 3 reaches its page. -/
theorem user_confined_kernelThenUser : ∃ s, ((vmmMachine (bootPml4 0x9000)).restrict
    (SparesLargePages (bootPml4 0x9000))).Run (bootVmm 0x9000 zeroRam) kernelThenUser s
      ∧ (mmuWalk s.mem (bootPml4 0x9000) 0x8000000000).map Translation.user = some true
      ∧ UserConfined (bootPml4 0x9000) s := by
  have hboot := stage2Tables_9000
  have hlow : ∀ q f, q.length ≤ 3 →
      tableAt (bootVmm 0x9000 zeroRam).mem (bootPml4 0x9000) q = some f → f.toNat < 0x100 :=
    fun q f hq hf => hboot.apart zeroRam hq (by rwa [bootVmm_mem] at hf)
  have hlarge : HitsLarge (bootVmm 0x9000 zeroRam).mem (bootPml4 0x9000) 0x400000 :=
    show LargePage _ by decide +kernel
  have hframe : (largeFrame (bootVmm 0x9000 zeroRam).mem (bootPml4 0x9000) 0x400000).toNat
      = 0x400 := by
    decide +kernel
  have hspares : ¬ IsTable (bootVmm 0x9000 zeroRam).mem (bootPml4 0x9000)
      (largeFrame (bootVmm 0x9000 zeroRam).mem (bootPml4 0x9000) 0x400000) := by
    rintro ⟨q, hq, hf⟩
    have hlt := hlow q _ hq hf
    omega
  -- the call in the identity map writes one word outside the tables
  have hadm₁ : ((vmmMachine (bootPml4 0x9000)).restrict
      (SparesLargePages (bootPml4 0x9000))).admissible (bootVmm 0x9000 zeroRam)
      (.map 0x400000 0x200000 3 []) :=
    ⟨⟨show Canonical 0x400000 by decide, ⟨by simp, by simp⟩, fun _ _ _ _ => by simp⟩,
      fun _ => ⟨by decide, hspares⟩⟩
  obtain ⟨s₁, hst₁⟩ := vmm_step_total (bootPml4 0x9000) (bootVmm 0x9000 zeroRam)
    (.map 0x400000 0x200000 3 [])
  have hinv₀ : (bootVmm 0x9000 zeroRam).IsolationInv (bootPml4 0x9000) := .boot hboot zeroRam
  have hinv₁ : s₁.IsolationInv (bootPml4 0x9000) := hinv₀.step hadm₁ hst₁
  have htables : ∀ q, q.length ≤ 3 → tableAt s₁.mem (bootPml4 0x9000) q
      = tableAt (bootVmm 0x9000 zeroRam).mem (bootPml4 0x9000) q := by
    have heq := vmmMapPage_large pageScript.alloc [] 0x200000 hinv₀.tables hlarge
      (show ¬ User ((3 : BitVec 32).setWidth 64) by decide)
    simp only [vmmMachine, heq, Option.some.injEq] at hst₁
    subst hst₁
    exact (store_apart hspares).1
  -- the call above it links three tables
  have hadm₂ : ((vmmMachine (bootPml4 0x9000)).restrict
      (SparesLargePages (bootPml4 0x9000))).admissible s₁
      (.map 0x8000000000 0x200000 7 tablePages) := by
    refine ⟨⟨show Canonical 0x8000000000 by decide, tablePages_inv.1, fun q f hq hf hmem => ?_⟩,
      fun hl => absurd hl (hinv₁.tables.not_hitsLarge (by decide))⟩
    have hlt := hlow q f hq ((htables q hq).symm.trans hf)
    have hge := tablePages_inv.2 f hmem
    omega
  obtain ⟨s₂, hst₂⟩ := vmm_step_total (bootPml4 0x9000) s₁
    (.map 0x8000000000 0x200000 7 tablePages)
  have hrun := (EventMachine.Run.single hadm₁ hst₁).append (.single hadm₂ hst₂)
  exact ⟨s₂, hrun, hinv₁.user_of_map hadm₂.1 (by decide) (by decide) (by decide) hst₂,
    user_confined hboot zeroRam hrun⟩

/-- The state after `vmm_map_page(0x400000, 0x200000, PAGE_PRESENT | PAGE_WRITE | PAGE_USER)`. -/
def afterUserMap : VmmRun where
  mem := (vmmMapPage pageScript.alloc (bootPml4 0x9000) 0x400000 0x200000 7
    (bootVmm 0x9000 zeroRam).mem []).2.1
  mapped := Function.update (fun _ => none) (vpage 0x400000) (some (0x200000, 7))
  userMapped := Function.update (fun _ => false) (vpage 0x400000) true

/-- **`cmd_usertest` opens kernel memory**: after it maps its code page at `0x400000`, Ring 3
reaches `0x401000`, which was never mapped for it. -/
theorem usertest_opens_kernel_memory :
    (vmmMachine (bootPml4 0x9000)).Run (bootVmm 0x9000 zeroRam)
        [.map 0x400000 0x200000 7 []] afterUserMap
      ∧ ¬ UserConfined (bootPml4 0x9000) afterUserMap := by
  have hadm : (vmmMachine (bootPml4 0x9000)).admissible (bootVmm 0x9000 zeroRam)
      (.map 0x400000 0x200000 7 []) :=
    ⟨show Canonical 0x400000 by decide, ⟨by simp, by simp⟩, fun _ _ _ _ => by simp⟩
  have herr : (vmmMapPage pageScript.alloc (bootPml4 0x9000) 0x400000 0x200000 7
      (bootVmm 0x9000 zeroRam).mem []).1 = none := by decide +kernel
  have hflags : User ((7 : BitVec 32).setWidth 64) := by decide
  have hstep : (vmmMachine (bootPml4 0x9000)).step (bootVmm 0x9000 zeroRam)
      (.map 0x400000 0x200000 7 []) = some afterUserMap := by
    simp only [vmmMachine, herr, hflags, if_true]
    rfl
  refine ⟨EventMachine.Run.single hadm hstep, fun hconf => ?_⟩
  have hwalk : (mmuWalk afterUserMap.mem (bootPml4 0x9000) 0x401000).map Translation.user
      = some true := by decide +kernel
  obtain ⟨t, ht, hu⟩ := Option.map_eq_some_iff.mp hwalk
  have huser := hconf 0x401000 (by decide) t ht hu
  exact absurd huser (by decide)

end KiOS
