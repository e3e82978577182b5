import KiOS.Mm.Mmu
import KiOS.Library.EventMachine
import KiOS.Library.Align

/-!
Above the identity map the VMM is a finite map from pages to frames.

* `pageScript`: an arbitrary `pmm_alloc_page`: the pages it returns before it returns NULL;
* `vmmMachine`: any sequence of `vmm_map_page` and `vmm_unmap_page`. Beside the memory a run
  keeps the finite map its successful calls describe and the pages ever mapped for Ring 3;
* `AboveIdentity`: the calls the refinement is about;
* `vmm_refines_map`: in every state reached the processor and `vmm_virt_to_phys` find what the
  finite map says, and a failing call changes no translation.
-/

namespace KiOS

/-! ### Pages -/

/-- Bits 47 to 12 of an address. -/
abbrev VPage := BitVec 36

/-- The page of an address. -/
def vpage (virt : BitVec 64) : VPage := virt.extractLsb' 12 36

/-- Bits 63 to 48 repeat bit 47. -/
def Canonical (virt : BitVec 64) : Prop := virt.toNat < 2 ^ 47 ∨ 2 ^ 64 - 2 ^ 47 ≤ virt.toNat

instance : DecidablePred Canonical := fun _ => inferInstanceAs (Decidable (_ ∨ _))

lemma toNat_index {virt : BitVec 64} {k : ℕ} :
    (((virt >>> k) &&& 0x1FF).setWidth 9 : BitVec 9).toNat = virt.toNat / 2 ^ k % 512 := by
  have hmask : (0x1FF : BitVec 64).toNat = 2 ^ 9 - 1 := rfl
  rw [BitVec.toNat_setWidth, BitVec.toNat_and, BitVec.toNat_ushiftRight, Nat.shiftRight_eq_div_pow,
    hmask, Nat.and_two_pow_sub_one_eq_mod]
  omega

/-- Two addresses lie in one page if their walks agree. -/
lemma vpage_eq_iff {v w : BitVec 64} :
    vpage v = vpage w ↔ tablePath v = tablePath w ∧ ptIndex v = ptIndex w := by
  simp only [tablePath, List.cons.injEq, and_true, ← BitVec.toNat_inj, pml4Index, pdptIndex,
    pdIndex, ptIndex, toNat_index, vpage, BitVec.extractLsb'_toNat, Nat.shiftRight_eq_div_pow]
  omega

/-- For canonical addresses this is the page. -/
lemma vpage_eq_iff_of_canonical {v w : BitVec 64} (hv : Canonical v) (hw : Canonical w) :
    vpage v = vpage w ↔ v.toNat / 4096 = w.toNat / 4096 := by
  have h1 := v.isLt
  have h2 := w.isLt
  simp only [← BitVec.toNat_inj, vpage, BitVec.extractLsb'_toNat, Nat.shiftRight_eq_div_pow]
  unfold Canonical at hv hw
  omega

/-! ### An arbitrary allocator -/

/-- The pages `pmm_alloc_page` returns before it returns NULL. -/
def pageScript : FrameSource (List (BitVec 64)) where
  alloc
    | [] => (0, [])
    | a :: as => (a, as)
  Inv as := (∀ a ∈ as, a ≠ 0 ∧ a.toNat % 4096 = 0 ∧ a.toNat < 2 ^ 52) ∧ (as.map frameOf).Nodup
  Taken as f := f ∉ as.map frameOf
  free := List.length
  alloc_zero
    | [], _, _ => rfl
    | _ :: _, _, h => by simp at h
  alloc_inv
    | [], _, h => by simp at h
    | _ :: _, ⟨h, hnd⟩, _ =>
        ⟨fun b hb => h b (List.mem_cons_of_mem _ hb), (List.nodup_cons.mp hnd).2⟩
  alloc_ne_zero
    | [], _, h => by simp at h
    | a :: _, ⟨h, _⟩, _ => (h a List.mem_cons_self).1
  alloc_aligned
    | [], _, h => by simp at h
    | a :: _, ⟨h, _⟩, _ => (h a List.mem_cons_self).2.1
  alloc_lt
    | [], _, h => by simp at h
    | a :: _, ⟨h, _⟩, _ => (h a List.mem_cons_self).2.2
  alloc_fresh
    | [], _, h => by simp at h
    | _ :: _, _, _ => by simp
  alloc_taken
    | [], _, h => by simp at h
    | a :: as, ⟨_, hnd⟩, _ => fun f => by
        have hnot := (List.nodup_cons.mp hnd).1
        dsimp only
        rw [List.map_cons, List.mem_cons, not_or]
        by_cases hf : f = frameOf a
        · simp only [hf, iff_true, or_true]
          exact hnot
        · tauto
  alloc_free
    | [], _, h => by simp at h
    | _ :: _, _, _ => rfl

/-! ### Runs -/

/-- A run of the VMM. -/
structure VmmRun where
  mem : PhysMem
  /-- What the last successful map or unmap of a page left. -/
  mapped : VPage → Option (BitVec 64 × BitVec 32)
  /-- The pages `vmm_map_page` was called for with the USER flag. -/
  userMapped : VPage → Bool

inductive VmmEvent where
  | map (virt phys : BitVec 64) (flags : BitVec 32) (pages : List (BitVec 64))
  | unmap (virt : BitVec 64)

/-- Runs of the VMM over the tables at `pml4`: the pages `pmm_alloc_page` returns during a call
are distinct physical pages and no page tables. -/
def vmmMachine (pml4 : Frame) : EventMachine VmmRun VmmEvent where
  admissible s
    | .map virt _ _ pages => Canonical virt ∧ pageScript.Inv pages
        ∧ ∀ q f, q.length ≤ 3 → tableAt s.mem pml4 q = some f → f ∉ pages.map frameOf
    | .unmap virt => Canonical virt
  step s
    | .map virt phys flags pages =>
        let r := vmmMapPage pageScript.alloc pml4 virt phys flags s.mem pages
        some
          { mem := r.2.1
            mapped :=
              if r.1 = none then Function.update s.mapped (vpage virt) (some (phys, flags))
              else s.mapped
            userMapped :=
              if User (flags.setWidth 64) then Function.update s.userMapped (vpage virt) true
              else s.userMapped }
    | .unmap virt =>
        some
          { s with
            mem := vmmUnmapPage pml4 virt s.mem
            mapped := Function.update s.mapped (vpage virt) none }

/-- The state stage 2 leaves. -/
def bootVmm (pml4Table : BitVec 32) (ram : PhysMem) : VmmRun where
  mem := setupPaging pml4Table ram
  mapped := fun _ => none
  userMapped := fun _ => false

lemma bootVmm_mem (pml4Table : BitVec 32) (ram : PhysMem) :
    (bootVmm pml4Table ram).mem = setupPaging pml4Table ram := by
  rw [bootVmm]

/-- A page frame that an entry can hold. -/
structure PageFrame (phys : BitVec 64) : Prop where
  aligned : phys.toNat % 4096 = 0
  pos : phys ≠ 0
  lt : phys.toNat < 2 ^ 52

/-- No flags but PRESENT, WRITE, USER and NOCACHE. -/
def PlainFlags (flags : BitVec 32) : Prop :=
  flags.setWidth 64 &&& ~~~(pagePresent ||| pageWrite ||| pageUser ||| pageNocache) = 0

/-- The calls the refinement is about. -/
def AboveIdentity (_ : VmmRun) : VmmEvent → Prop
  | .map virt phys flags _ => pml4Index virt ≠ 0 ∧ PageFrame phys ∧ PlainFlags flags
  | .unmap virt => pml4Index virt ≠ 0

/-- What the finite map says of an address. -/
def VmmRun.translation (s : VmmRun) (virt : BitVec 64) : Option Translation :=
  (s.mapped (vpage virt)).map fun r =>
    { phys := r.1 + (virt &&& 0xFFF)
      write := decide (Writable (r.2.setWidth 64))
      user := decide (User (r.2.setWidth 64)) }

/-! ### Reading an entry back -/

section

variable {phys virt x y : BitVec 64} {flags : BitVec 32}

/-- Or-ing an offset to an aligned address adds it. -/
lemma or_eq_add (hx : x.toNat % 4096 = 0) (hy : y.toNat < 4096) : x ||| y = x + y := by
  refine BitVec.eq_of_toNat_eq ?_
  have hlt := x.isLt
  have hor : x.toNat ||| y.toNat = x.toNat + y.toNat := by
    rw [show x.toNat = 2 ^ 12 * (x.toNat / 4096) by omega]
    exact (Nat.two_pow_add_eq_or_of_lt hy _).symm
  rw [BitVec.toNat_or, hor, BitVec.toNat_add]
  omega

lemma toNat_offset : (virt &&& 0xFFF).toNat < 4096 := by
  have hmask : (0xFFF : BitVec 64).toNat = 0xFFF := rfl
  rw [BitVec.toNat_and, hmask]
  exact lt_of_le_of_lt Nat.and_le_right (by norm_num)

/-- A word without the bits outside a mask is its own part in the mask. -/
lemma and_eq_self (h : x &&& ~~~y = 0) : x &&& y = x := by
  refine BitVec.eq_of_getLsbD_eq fun i hi => ?_
  have hbit : (x &&& ~~~y).getLsbD i = false := by simp [h]
  rw [BitVec.getLsbD_and, BitVec.getLsbD_not] at hbit
  rw [BitVec.getLsbD_and]
  cases hx : x.getLsbD i <;> simp_all

/-- Plain flags leave the frame number alone. -/
lemma PlainFlags.low (h : PlainFlags flags) : (flags.setWidth 64 ||| pagePresent).toNat < 4096 := by
  have hfl : (flags.setWidth 64).toNat < 2 ^ 12 := by
    rw [← and_eq_self h, BitVec.toNat_and]
    exact lt_of_le_of_lt Nat.and_le_right (by decide)
  rw [BitVec.toNat_or]
  exact Nat.or_lt_two_pow hfl (by decide)

/-- The entry, as a number. -/
lemma mapEntry_eq (hp : PageFrame phys) (hf : PlainFlags flags) :
    mapEntry phys flags = phys + (flags.setWidth 64 ||| pagePresent) := by
  have hal : phys &&& ~~~(0xFFF : BitVec 64) = phys := by
    refine BitVec.eq_of_toNat_eq ?_
    rw [show phys &&& ~~~(0xFFF : BitVec 64) = phys.alignDown 12 from rfl, BitVec.toNat_alignDown]
    have := hp.aligned
    omega
  rw [mapEntry, hal, BitVec.or_assoc, or_eq_add hp.aligned hf.low]

lemma frame_mapEntry (hp : PageFrame phys) (hf : PlainFlags flags) :
    mapEntry phys flags &&& ~~~(0xFFF : BitVec 64) = phys := by
  have hal := hp.aligned
  have hlt := hp.lt
  have hlow := hf.low
  refine BitVec.eq_of_toNat_eq ?_
  rw [show mapEntry phys flags &&& ~~~(0xFFF : BitVec 64) = (mapEntry phys flags).alignDown 12 from
    rfl, BitVec.toNat_alignDown, mapEntry_eq hp hf, BitVec.toNat_add]
  omega

/-- What the processor makes of the entry. -/
lemma smallPage_mapEntry (hp : PageFrame phys) (hf : PlainFlags flags) :
    smallPage (mapEntry phys flags) virt (decide (Writable (mapEntry phys flags)))
        (decide (User (mapEntry phys flags)))
      = { phys := phys + (virt &&& 0xFFF), write := decide (Writable (flags.setWidth 64)),
          user := decide (User (flags.setWidth 64)) } := by
  have hmask : (0x000FFFFFFFFFF000 : BitVec 64) = ~~~0xFFF &&& BitVec.ofNat 64 (2 ^ 52 - 1) := by
    decide
  have hframe : mapEntry phys flags &&& 0x000FFFFFFFFFF000 = phys := by
    rw [hmask, ← BitVec.and_assoc, frame_mapEntry hp hf]
    refine BitVec.eq_of_toNat_eq ?_
    rw [BitVec.toNat_and, BitVec.toNat_ofNat, show (2 ^ 52 - 1) % 2 ^ 64 = 2 ^ 52 - 1 by norm_num,
      Nat.and_two_pow_sub_one_eq_mod]
    exact Nat.mod_eq_of_lt hp.lt
  simp only [smallPage, hframe, or_eq_add hp.aligned toNat_offset, writable_mapEntry, user_mapEntry]

end

/-! ### The refinement -/

/-- The finite map describes the entries of all pages above the identity map. -/
structure VmmRun.RefineInv (pml4 : Frame) (s : VmmRun) : Prop where
  tables : Tables s.mem pml4
  mapped : ∀ virt phys flags, pml4Index virt ≠ 0 → s.mapped (vpage virt) = some (phys, flags) →
    leafAt s.mem pml4 virt = mapEntry phys flags ∧ PageFrame phys ∧ PlainFlags flags
  unmapped : ∀ virt, pml4Index virt ≠ 0 → s.mapped (vpage virt) = none →
    ¬ Present (leafAt s.mem pml4 virt)

section

variable {pml4 : Frame} {s u : VmmRun} {virt phys : BitVec 64} {flags : BitVec 32}
  {pages : List (BitVec 64)} {e : VmmEvent}

/-- Large pages lie in the identity map. -/
lemma Tables.not_hitsLarge {m : PhysMem} (ht : Tables m pml4) (hv : pml4Index virt ≠ 0) :
    ¬ HitsLarge m pml4 virt := fun hl => by
  have := ht.large _ _ (by simp) hl
  simp only [List.cons.injEq] at this
  exact hv this.1

/-- The tables and what `pmm_alloc_page` may return in one call. -/
lemma vmmOk_of_admissible (ht : Tables s.mem pml4)
    (hadm : (vmmMachine pml4).admissible s (.map virt phys flags pages)) :
    VmmOk pageScript pml4 s.mem pages :=
  ⟨ht, hadm.2.1, hadm.2.2⟩

namespace VmmRun.RefineInv

lemma map (h : s.RefineInv pml4)
    (hadm : (vmmMachine pml4).admissible s (.map virt phys flags pages))
    (hg : AboveIdentity s (.map virt phys flags pages))
    (hst : (vmmMachine pml4).step s (.map virt phys flags pages) = some u) :
    u.RefineInv pml4 := by
  obtain ⟨hv, hp, hf⟩ := hg
  obtain ⟨err, m', s', heq, hok⟩ := vmmMapPage_spec phys flags
    (vmmOk_of_admissible h.tables hadm) (h.tables.not_hitsLarge hv)
  simp only [vmmMachine, heq, Option.some.injEq] at hst
  subst hst
  have hleaf : ∀ w, leafAt m' pml4 w
      = if err = none ∧ vpage w = vpage virt then mapEntry phys flags else leafAt s.mem pml4 w := by
    intro w
    rw [leafAt, hok.leaf _ _ (by simp [tablePath])]
    simp only [vpage_eq_iff]
  refine ⟨hok.ok.tables, fun w p fl hw hm => ?_, fun w hw hm => ?_⟩ <;> dsimp only at hm ⊢ <;>
    rw [hleaf w]
  · split_ifs at hm with herr
    · by_cases hwv : vpage w = vpage virt
      · rw [hwv, Function.update_self, Option.some.injEq, Prod.mk.injEq] at hm
        obtain ⟨rfl, rfl⟩ := hm
        rw [if_pos ⟨herr, hwv⟩]
        exact ⟨rfl, hp, hf⟩
      · rw [Function.update_of_ne hwv] at hm
        rw [if_neg fun h' => hwv h'.2]
        exact h.mapped w p fl hw hm
    · rw [if_neg fun h' => herr h'.1]
      exact h.mapped w p fl hw hm
  · split_ifs at hm with herr
    · by_cases hwv : vpage w = vpage virt
      · rw [hwv, Function.update_self] at hm
        cases hm
      · rw [Function.update_of_ne hwv] at hm
        rw [if_neg fun h' => hwv h'.2]
        exact h.unmapped w hw hm
    · rw [if_neg fun h' => herr h'.1]
      exact h.unmapped w hw hm

lemma unmap (h : s.RefineInv pml4) (hv : pml4Index virt ≠ 0)
    (hst : (vmmMachine pml4).step s (.unmap virt) = some u) : u.RefineInv pml4 := by
  obtain ⟨ht, -, hslot⟩ := vmmUnmapPage_spec h.tables (h.tables.not_hitsLarge hv)
  simp only [vmmMachine, Option.some.injEq] at hst
  subst hst
  have hleaf : ∀ w, leafAt (vmmUnmapPage pml4 virt s.mem) pml4 w
      = if vpage w = vpage virt ∧ Present (leafAt s.mem pml4 virt) then 0
        else leafAt s.mem pml4 w := by
    intro w
    rw [leafAt, hslot _ _ (by simp [tablePath])]
    simp only [vpage_eq_iff, and_assoc]
  refine ⟨ht, fun w p fl hw hm => ?_, fun w hw hm => ?_⟩ <;> dsimp only at hm ⊢ <;> rw [hleaf w] <;>
    by_cases hwv : vpage w = vpage virt
  · rw [hwv, Function.update_self] at hm
    cases hm
  · rw [Function.update_of_ne hwv] at hm
    rw [if_neg fun h' => hwv h'.1]
    exact h.mapped w p fl hw hm
  · have hsame : leafAt s.mem pml4 w = leafAt s.mem pml4 virt := by
      obtain ⟨h1, h2⟩ := vpage_eq_iff.mp hwv
      rw [leafAt, leafAt, h1, h2]
    split_ifs with hpr
    · exact not_present_zero
    · rw [hsame]
      exact fun h' => hpr ⟨hwv, h'⟩
  · rw [Function.update_of_ne hwv] at hm
    rw [if_neg fun h' => hwv h'.1]
    exact h.unmapped w hw hm

lemma step (h : s.RefineInv pml4)
    (hadm : ((vmmMachine pml4).restrict AboveIdentity).admissible s e)
    (hst : ((vmmMachine pml4).restrict AboveIdentity).step s e = some u) : u.RefineInv pml4 := by
  cases e with
  | map virt phys flags pages => exact h.map hadm.1 hadm.2 hst
  | unmap virt => exact h.unmap hadm.2 hst

/-- Both walks find what the finite map says. -/
lemma translation_eq (h : s.RefineInv pml4) (hv : pml4Index virt ≠ 0) :
    mmuWalk s.mem pml4 virt = s.translation virt
      ∧ vmmVirtToPhys pml4 virt s.mem
        = match s.translation virt with
          | some t => t.phys
          | none => 0 := by
  have hnl := h.tables.not_hitsLarge hv
  rw [mmuWalk_eq h.tables, vmmVirtToPhys_eq h.tables hnl]
  simp only [show ¬ LargePage (entryAt s.mem pml4 [pml4Index virt, pdptIndex virt] (pdIndex virt))
    from hnl, if_false]
  cases hm : s.mapped (vpage virt) with
  | none =>
      have hpr := h.unmapped virt hv hm
      simp [VmmRun.translation, hm, hpr]
  | some r =>
      obtain ⟨phys, flags⟩ := r
      obtain ⟨hleaf, hp, hf⟩ := h.mapped virt phys flags hv hm
      rw [hleaf, if_pos present_mapEntry, if_pos present_mapEntry, smallPage_mapEntry hp hf,
        frame_mapEntry hp hf, or_eq_add hp.aligned toNat_offset]
      simp [VmmRun.translation, hm]

end VmmRun.RefineInv

/-- A failing `vmm_map_page` changes no translation, of no address at all. -/
lemma mmuWalk_of_failed (ht : Tables s.mem pml4) (hv : pml4Index virt ≠ 0)
    (hadm : (vmmMachine pml4).admissible s (.map virt phys flags pages))
    (hfail : (vmmMapPage pageScript.alloc pml4 virt phys flags s.mem pages).1 ≠ none)
    (w : BitVec 64) :
    mmuWalk (vmmMapPage pageScript.alloc pml4 virt phys flags s.mem pages).2.1 pml4 w
      = mmuWalk s.mem pml4 w := by
  obtain ⟨err, m', s', heq, hok⟩ := vmmMapPage_spec phys flags
    (vmmOk_of_admissible ht hadm) (ht.not_hitsLarge hv)
  rw [heq] at hfail ⊢
  have hleaf : leafAt m' pml4 w = leafAt s.mem pml4 w := by
    rw [leafAt, hok.leaf _ _ (by simp [tablePath]), if_neg fun h' => hfail h'.1]
  rw [mmuWalk_eq hok.ok.tables, mmuWalk_eq ht, hleaf]
  by_cases hl : LargePage (entryAt s.mem pml4 [pml4Index w, pdptIndex w] (pdIndex w))
    ∨ LargePage (entryAt m' pml4 [pml4Index w, pdptIndex w] (pdIndex w))
  · rw [hok.grows.large _ _ (by simp) hl]
  · rw [not_or] at hl
    simp only [hl.1, hl.2, if_false]

end

/-- The state is described by its finite map. -/
structure VmmRun.Refines (pml4 : Frame) (s : VmmRun) : Prop where
  /-- The processor finds what the last successful call on the page left. -/
  walk : ∀ virt, Canonical virt → pml4Index virt ≠ 0 → mmuWalk s.mem pml4 virt = s.translation virt
  /-- So does `vmm_virt_to_phys`, which returns `0` for what is not mapped. -/
  lookup : ∀ virt, Canonical virt → pml4Index virt ≠ 0 → vmmVirtToPhys pml4 virt s.mem
    = match s.translation virt with
      | some t => t.phys
      | none => 0
  /-- A call that runs out of pages changes no translation. -/
  failed : ∀ virt phys flags pages,
    ((vmmMachine pml4).restrict AboveIdentity).admissible s (.map virt phys flags pages) →
    (vmmMapPage pageScript.alloc pml4 virt phys flags s.mem pages).1 ≠ none →
    ∀ w, mmuWalk (vmmMapPage pageScript.alloc pml4 virt phys flags s.mem pages).2.1 pml4 w
      = mmuWalk s.mem pml4 w

/-- **The VMM refines a finite map above the identity map**, in every state reached from the
tables of stage 2. -/
theorem vmm_refines_map {pml4Table : BitVec 32} (hboot : Stage2Tables pml4Table) (ram : PhysMem)
    {es : List VmmEvent} {s : VmmRun}
    (hrun : ((vmmMachine (bootPml4 pml4Table)).restrict AboveIdentity).Run
      (bootVmm pml4Table ram) es s) : s.Refines (bootPml4 pml4Table) := by
  have hinit : (bootVmm pml4Table ram).RefineInv (bootPml4 pml4Table) := by
    refine ⟨by rw [bootVmm_mem]; exact hboot.tables ram, fun _ _ _ _ hm => by simp [bootVmm] at hm,
      fun virt hv _ => ?_⟩
    have hslot : leafAt (setupPaging pml4Table ram) (bootPml4 pml4Table) virt = 0 := by
      rw [leafAt, hboot.entryAt_eq ram (by simp [tablePath])]
      simp [Stage2Tables.bootSlot, tablePath]
    intro hpr
    rw [bootVmm_mem, hslot] at hpr
    exact not_present_zero hpr
  have h := EventMachine.Run.invariant hinit (fun _ _ _ ht hadm hst => ht.step hadm hst) hrun
  exact ⟨fun virt _ hv => (h.translation_eq hv).1, fun virt _ hv => (h.translation_eq hv).2,
    fun virt phys flags pages hadm hfail => mmuWalk_of_failed h.tables hadm.2.1 hadm.1 hfail⟩

/-! ### One call -/

lemma stage2Tables_9000 : Stage2Tables 0x9000 := ⟨by decide, by decide, by decide⟩

/-- Memory that is all zero. -/
def zeroRam : PhysMem := ⟨fun _ _ => 0, fun _ _ => false⟩

/-- Pages above 1 MB are none of the tables of stage 2. -/
lemma Stage2Tables.apart {pml4Table : BitVec 32} (h : Stage2Tables pml4Table) (m : PhysMem)
    {q : List Idx} {f : Frame} (hq : q.length ≤ 3)
    (hf : tableAt (setupPaging pml4Table m) (bootPml4 pml4Table) q = some f) : f.toNat < 0x100 := by
  obtain ⟨h4, h3, h2⟩ := h.toNat_frames
  have hlow := h.low
  rw [h.tableAt_eq m q hq, Stage2Tables.bootTable] at hf
  split_ifs at hf <;> simp only [Option.some.injEq] at hf <;> subst hf <;> omega

/-- Three pages above 1 MB. -/
def tablePages : List (BitVec 64) := [0x300000, 0x301000, 0x302000]

lemma tablePages_inv :
    pageScript.Inv tablePages ∧ ∀ g ∈ tablePages.map frameOf, 0x100 ≤ g.toNat := by
  refine ⟨⟨fun a ha => ?_, by decide⟩, fun g hg => ?_⟩
  · simp only [tablePages, List.mem_cons, List.not_mem_nil, or_false] at ha
    rcases ha with rfl | rfl | rfl <;> decide
  · simp only [tablePages, List.map_cons, List.map_nil, List.mem_cons, List.not_mem_nil,
      or_false] at hg
    rcases hg with rfl | rfl | rfl <;> decide

/-- The statement after the first page of the heap is mapped. -/
theorem vmm_refines_map_heap : ∃ s, ((vmmMachine (bootPml4 0x9000)).restrict AboveIdentity).Run
    (bootVmm 0x9000 zeroRam)
    [.map 0xFFFF800000000000 0x200000 3 [0x300000, 0x301000, 0x302000]] s
      ∧ s.Refines (bootPml4 0x9000) := by
  obtain ⟨hpages, hhigh⟩ := tablePages_inv
  have hadm : ((vmmMachine (bootPml4 0x9000)).restrict AboveIdentity).admissible
      (bootVmm 0x9000 zeroRam)
      (.map 0xFFFF800000000000 0x200000 3 [0x300000, 0x301000, 0x302000]) := by
    refine ⟨⟨by decide, hpages, fun q f hq hf hmem => ?_⟩, by decide,
      ⟨by decide, by decide, by decide⟩, by unfold PlainFlags; decide⟩
    rw [bootVmm_mem] at hf
    have hlow := stage2Tables_9000.apart zeroRam hq hf
    exact absurd (hhigh f hmem) (by omega)
  have hrun := EventMachine.Run.single hadm rfl
  exact ⟨_, hrun, vmm_refines_map stage2Tables_9000 zeroRam hrun⟩

end KiOS
