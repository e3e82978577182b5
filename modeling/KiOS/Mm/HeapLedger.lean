import KiOS.Mm.Heap
import KiOS.Mm.VmmRefinement

/-!
Where the pages of the kernel are.

* `Ledger`: a frame that is taken is in one place at most: it is a page table, or the page of the
  heap it is mapped at, or held by whoever called `pmm_alloc_page`;
* `Ledger.alloc`, `Ledger.map`, `Ledger.mapHeap`, `Ledger.unmap`, `Ledger.store`, `Ledger.release`:
  each of the operations of the kernel keeps the ledger;
* `Placed`: a frame is a table or a page of the heap, that is, it is not lost.
-/

namespace KiOS

/-- The addresses of the heap. -/
def InHeap (virt : BitVec 64) : Prop :=
  heapStart.toNat ≤ virt.toNat ∧ virt.toNat < heapStart.toNat + heapSize.toNat

instance : DecidablePred InHeap := fun _ => inferInstanceAs (Decidable (_ ∧ _))

variable {σ : Type} {A : FrameSource σ} {r : Frame} {held held' : Set Frame} {m m' : PhysMem}
  {s s' : σ} {f : Frame} {i : Idx} {v w virt phys : BitVec 64} {flags : BitVec 32} {x : Pte}
  {err : Option String}

lemma InHeap.canonical (h : InHeap virt) : Canonical virt := by
  have hstart : heapStart.toNat = 0xFFFF800000000000 := rfl
  unfold InHeap at h
  unfold Canonical
  omega

lemma InHeap.pml4Index_ne (h : InHeap virt) : pml4Index virt ≠ 0 := by
  have hstart : heapStart.toNat = 0xFFFF800000000000 := rfl
  have hsize : heapSize.toNat = 0x1000000 := rfl
  unfold InHeap at h
  intro h0
  have hidx : (pml4Index virt).toNat = virt.toNat / 2 ^ 39 % 512 := toNat_index
  rw [h0] at hidx
  simp at hidx
  omega

/-- A frame is a page of the heap. -/
def IsHeapPage (m : PhysMem) (r f : Frame) : Prop :=
  ∃ w, InHeap w ∧ Present (leafAt m r w) ∧ frameOf (leafAt m r w) = f

/-- A frame is in use. -/
def Placed (m : PhysMem) (r f : Frame) : Prop := IsTable m r f ∨ IsHeapPage m r f

/-- Every taken frame is in one place. -/
structure Ledger (A : FrameSource σ) (r : Frame) (held : Set Frame) (m : PhysMem) (s : σ) :
    Prop where
  ok : VmmOk A r m s
  held_taken : ∀ f ∈ held, A.Taken s f
  held_table : ∀ f ∈ held, ¬ IsTable m r f
  page_writable : ∀ w, InHeap w → Present (leafAt m r w) → Writable (leafAt m r w)
  page_ne_zero : ∀ w, InHeap w → Present (leafAt m r w) →
    leafAt m r w &&& ~~~(0xFFF : BitVec 64) ≠ 0
  page_low : ∀ w, InHeap w → Present (leafAt m r w) → (frameOf (leafAt m r w)).toNat < 2 ^ 40
  page_taken : ∀ f, IsHeapPage m r f → A.Taken s f
  page_table : ∀ f, IsHeapPage m r f → ¬ IsTable m r f
  page_held : ∀ f, IsHeapPage m r f → f ∉ held
  own : ∀ v w, InHeap v → InHeap w → Present (leafAt m r v) → Present (leafAt m r w) →
    frameOf (leafAt m r v) = frameOf (leafAt m r w) → vpage v = vpage w

lemma plainFlags_three : PlainFlags 3 := by unfold PlainFlags; decide

/-- The frame of an entry that `vmm_map_page` writes. -/
lemma frameOf_mapEntry (h : PageFrame phys) : frameOf (mapEntry phys 3) = frameOf phys := by
  have hdown : (mapEntry phys 3 &&& ~~~(0xFFF : BitVec 64)).toNat
      = (mapEntry phys 3).toNat / 4096 * 4096 := BitVec.toNat_alignDown (k := 12)
  rw [frame_mapEntry h plainFlags_three] at hdown
  refine BitVec.eq_of_toNat_eq ?_
  rw [toNat_frameOf, toNat_frameOf, hdown]
  omega

/-- The frame of a translated address is that of the entry. -/
lemma frameOf_smallPage {write user : Bool} (h : (frameOf x).toNat < 2 ^ 40) :
    frameOf (smallPage x virt write user).phys = frameOf x := by
  have hoff : (virt &&& 0xFFF).extractLsb' 12 52 = 0 := by
    have hzero : (virt &&& 0xFFF).toNat / 2 ^ 12 = 0 := Nat.div_eq_of_lt toNat_offset
    refine BitVec.eq_of_toNat_eq ?_
    rw [BitVec.extractLsb'_toNat, Nat.shiftRight_eq_div_pow, hzero]
    rfl
  rw [smallPage, frameOf_or hoff]
  exact mmuFrame_eq h

namespace Ledger

lemma not_hitsLarge (h : Ledger A r held m s) (hw : InHeap w) : ¬ HitsLarge m r w :=
  h.ok.tables.not_hitsLarge hw.pml4Index_ne

/-- What the processor finds in the heap. -/
lemma mmuWalk_eq (h : Ledger A r held m s) (hw : InHeap w) : mmuWalk m r w
    = if Present (leafAt m r w) then
        some (smallPage (leafAt m r w) w (decide (Writable (leafAt m r w)))
          (decide (User (leafAt m r w))))
      else none := by
  rw [KiOS.mmuWalk_eq h.ok.tables]
  exact if_neg (h.not_hitsLarge hw)

lemma frameOf_phys (h : Ledger A r held m s) (hw : InHeap w) {t : Translation}
    (ht : mmuWalk m r w = some t) :
    Present (leafAt m r w) ∧ frameOf t.phys = frameOf (leafAt m r w)
      ∧ t.write = decide (Writable (leafAt m r w)) := by
  rw [h.mmuWalk_eq hw] at ht
  split_ifs at ht with hp
  rw [Option.some.injEq] at ht
  subst ht
  exact ⟨hp, frameOf_smallPage (h.page_low w hw hp), rfl⟩

/-- Whoever holds fewer frames holds them by the same ledger. -/
lemma mono (h : Ledger A r held m s) (hsub : held' ⊆ held) : Ledger A r held' m s where
  ok := h.ok
  held_taken f hf := h.held_taken f (hsub hf)
  held_table f hf := h.held_table f (hsub hf)
  page_writable := h.page_writable
  page_ne_zero := h.page_ne_zero
  page_low := h.page_low
  page_taken := h.page_taken
  page_table := h.page_table
  page_held f hf hh := h.page_held f hf (hsub hh)
  own := h.own

/-- A frame just allocated is held. -/
lemma alloc (h : Ledger A r held m s) (hfree : 0 < A.free s) :
    Ledger A r (insert (frameOf (A.alloc s).1) held) m (A.alloc s).2 where
  ok := ⟨h.ok.tables, A.alloc_inv s h.ok.inv hfree, fun q f hq hf =>
    (A.alloc_taken s h.ok.inv hfree f).mpr (Or.inl (h.ok.owned q f hq hf))⟩
  held_taken f hf := (A.alloc_taken s h.ok.inv hfree f).mpr (hf.symm.imp_left (h.held_taken f))
  held_table f hf := by
    rcases hf with rfl | hf
    · rintro ⟨q, hq, hqf⟩
      exact A.alloc_fresh s h.ok.inv hfree (h.ok.owned q _ hq hqf)
    · exact h.held_table f hf
  page_writable := h.page_writable
  page_ne_zero := h.page_ne_zero
  page_low := h.page_low
  page_taken f hf := (A.alloc_taken s h.ok.inv hfree f).mpr (Or.inl (h.page_taken f hf))
  page_table := h.page_table
  page_held f hf := by
    rintro (rfl | hh)
    · exact A.alloc_fresh s h.ok.inv hfree (h.page_taken _ hf)
    · exact h.page_held f hf hh
  own := h.own

/-- A held frame given back. -/
lemma release (h : Ledger A r held m s) (hinv : A.Inv s') (hf : f ∈ held)
    (htaken : ∀ g, A.Taken s' g ↔ A.Taken s g ∧ g ≠ f) : Ledger A r (held \ {f}) m s' where
  ok := ⟨h.ok.tables, hinv, fun q g hq hg => (htaken g).mpr ⟨h.ok.owned q g hq hg, fun hgf =>
    h.held_table f hf ⟨q, hq, hgf ▸ hg⟩⟩⟩
  held_taken g hg := (htaken g).mpr ⟨h.held_taken g hg.1, hg.2⟩
  held_table g hg := h.held_table g hg.1
  page_writable := h.page_writable
  page_ne_zero := h.page_ne_zero
  page_low := h.page_low
  page_taken g hg := (htaken g).mpr ⟨h.page_taken g hg, fun hgf => h.page_held f (hgf ▸ hg) hf⟩
  page_table := h.page_table
  page_held g hg hh := h.page_held g hg hh.1
  own := h.own

/-- A change of memory that keeps the tables, and clears pages of the heap at most. -/
lemma of_leaf (h : Ledger A r held m s) (ht : Tables m' r)
    (htable : ∀ q, q.length ≤ 3 → tableAt m' r q = tableAt m r q)
    (hleaf : ∀ w, InHeap w → Present (leafAt m' r w) → leafAt m' r w = leafAt m r w) :
    Ledger A r held m' s := by
  have hpr : ∀ w, InHeap w → Present (leafAt m' r w) → Present (leafAt m r w) := fun w hw hp =>
    hleaf w hw hp ▸ hp
  have hpage : ∀ f, IsHeapPage m' r f → IsHeapPage m r f := by
    rintro f ⟨w, hw, hp, hf⟩
    exact ⟨w, hw, hpr w hw hp, hleaf w hw hp ▸ hf⟩
  have htab : ∀ f, IsTable m' r f → IsTable m r f := by
    rintro f ⟨q, hq, hf⟩
    exact ⟨q, hq, htable q hq ▸ hf⟩
  exact
    { ok := ⟨ht, h.ok.inv, fun q f hq hf => h.ok.owned q f hq (htable q hq ▸ hf)⟩
      held_taken := h.held_taken
      held_table := fun f hf hft => h.held_table f hf (htab f hft)
      page_writable := fun w hw hp => hleaf w hw hp ▸ h.page_writable w hw (hpr w hw hp)
      page_ne_zero := fun w hw hp => hleaf w hw hp ▸ h.page_ne_zero w hw (hpr w hw hp)
      page_low := fun w hw hp => hleaf w hw hp ▸ h.page_low w hw (hpr w hw hp)
      page_taken := fun f hf => h.page_taken f (hpage f hf)
      page_table := fun f hf hft => h.page_table f (hpage f hf) (htab f hft)
      page_held := fun f hf => h.page_held f (hpage f hf)
      own := fun v w hv hw hpv hpw heq => h.own v w hv hw (hpr v hv hpv) (hpr w hw hpw)
        (hleaf v hv hpv ▸ hleaf w hw hpw ▸ heq) }

/-- Unmapping any page: a page of the heap that was mapped there is lost, not used twice. -/
lemma unmap (h : Ledger A r held m s) (hv : ¬ HitsLarge m r virt) :
    Ledger A r held (vmmUnmapPage r virt m) s := by
  obtain ⟨ht, htable, hslot⟩ := vmmUnmapPage_spec h.ok.tables hv
  refine h.of_leaf ht htable fun w _ hp => ?_
  rw [leafAt, hslot _ _ (by simp [tablePath])] at hp ⊢
  split_ifs at hp ⊢
  · exact absurd hp not_present_zero
  · rfl

/-- A store to a frame that is no table. -/
lemma store (h : Ledger A r held m s) (hf : ¬ IsTable m r f) :
    Ledger A r held (m.store f i x) s := by
  obtain ⟨hwalk, hslot⟩ := store_apart (i := i) (x := x) hf
  refine h.of_leaf (h.ok.tables.of_eq hwalk hslot) hwalk fun w _ _ => ?_
  exact hslot _ _ (by simp [tablePath])

/-- Tables built by a call are frames nobody had taken. -/
lemma not_isTable (hok : MapOk A r virt phys flags m s err m' s') (ht : A.Taken s f)
    (hf : ¬ IsTable m r f) : ¬ IsTable m' r f := by
  rintro ⟨q, hq, hqf⟩
  cases hm : tableAt m r q with
  | none => exact hok.grows.fresh q f hq hm hqf ht
  | some g =>
      have hgf : g = f := Option.some.inj ((hok.grows.mono q g hq hm).symm.trans hqf)
      exact hf ⟨q, hq, hgf ▸ hm⟩

/-- Mapping a page outside the heap, or trying to map any page. -/
lemma map (h : Ledger A r held m s) (hok : MapOk A r virt phys flags m s err m' s')
    (hout : err = none → ∀ w, InHeap w → vpage w ≠ vpage virt) : Ledger A r held m' s' := by
  have hleaf : ∀ w, InHeap w → leafAt m' r w = leafAt m r w := fun w hw => by
    rw [leafAt, hok.leaf _ _ (by simp [tablePath]),
      if_neg fun h' => hout h'.1 w hw (vpage_eq_iff.mpr h'.2)]
  have hpage : ∀ f, IsHeapPage m' r f → IsHeapPage m r f := by
    rintro f ⟨w, hw, hp, hf⟩
    exact ⟨w, hw, hleaf w hw ▸ hp, hleaf w hw ▸ hf⟩
  exact
    { ok := hok.ok
      held_taken := fun f hf => (hok.grows.taken f).mpr (Or.inl (h.held_taken f hf))
      held_table := fun f hf => not_isTable hok (h.held_taken f hf) (h.held_table f hf)
      page_writable := fun w hw hp => by
        rw [hleaf w hw] at hp ⊢
        exact h.page_writable w hw hp
      page_ne_zero := fun w hw hp => by
        rw [hleaf w hw] at hp ⊢
        exact h.page_ne_zero w hw hp
      page_low := fun w hw hp => by
        rw [hleaf w hw] at hp ⊢
        exact h.page_low w hw hp
      page_taken := fun f hf => (hok.grows.taken f).mpr (Or.inl (h.page_taken f (hpage f hf)))
      page_table := fun f hf =>
        not_isTable hok (h.page_taken f (hpage f hf)) (h.page_table f (hpage f hf))
      page_held := fun f hf => h.page_held f (hpage f hf)
      own := fun v w hv hw hpv hpw heq => by
        rw [hleaf v hv] at hpv heq
        rw [hleaf w hw] at hpw heq
        exact h.own v w hv hw hpv hpw heq }

/-- Mapping a held frame into the heap: from then on it is a page of the heap. -/
lemma mapHeap (h : Ledger A r held m s) (hok : MapOk A r virt phys 3 m s none m' s')
    (hphys : PageFrame phys) (hf : frameOf phys ∈ held) :
    Ledger A r (held \ {frameOf phys}) m' s' := by
  have hleaf : ∀ w, leafAt m' r w
      = if vpage w = vpage virt then mapEntry phys 3 else leafAt m r w := fun w => by
    rw [leafAt, hok.leaf _ _ (by simp [tablePath])]
    simp only [vpage_eq_iff, true_and]
  have hpage : ∀ f, IsHeapPage m' r f → f = frameOf phys ∨ IsHeapPage m r f := by
    rintro f ⟨w, hw, hp, hf⟩
    rw [hleaf w] at hp hf
    split_ifs at hp hf with hwv
    · exact Or.inl (hf ▸ frameOf_mapEntry hphys)
    · exact Or.inr ⟨w, hw, hp, hf⟩
  have hnot : ∀ w, InHeap w → Present (leafAt m r w) → frameOf (leafAt m r w) ≠ frameOf phys :=
    fun w hw hp heq => h.page_held _ ⟨w, hw, hp, rfl⟩ (heq ▸ hf)
  exact
    { ok := hok.ok
      held_taken := fun f hf => (hok.grows.taken f).mpr (Or.inl (h.held_taken f hf.1))
      held_table := fun f hf => not_isTable hok (h.held_taken f hf.1) (h.held_table f hf.1)
      page_writable := fun w hw hp => by
        rw [hleaf w] at hp ⊢
        split_ifs at hp ⊢
        · exact writable_mapEntry.mpr (by decide)
        · exact h.page_writable w hw hp
      page_ne_zero := fun w hw hp => by
        rw [hleaf w] at hp ⊢
        split_ifs at hp ⊢
        · rw [frame_mapEntry hphys plainFlags_three]
          exact hphys.pos
        · exact h.page_ne_zero w hw hp
      page_low := fun w hw hp => by
        rw [hleaf w] at hp ⊢
        split_ifs at hp ⊢
        · have hlt := hphys.lt
          rw [frameOf_mapEntry hphys, toNat_frameOf]
          omega
        · exact h.page_low w hw hp
      page_taken := fun f hf' => (hok.grows.taken f).mpr <| Or.inl <| by
        rcases hpage f hf' with rfl | hf'
        · exact h.held_taken _ hf
        · exact h.page_taken f hf'
      page_table := fun f hf' => by
        rcases hpage f hf' with rfl | hf'
        · exact not_isTable hok (h.held_taken _ hf) (h.held_table _ hf)
        · exact not_isTable hok (h.page_taken f hf') (h.page_table f hf')
      page_held := fun f hf' hh => by
        rcases hpage f hf' with rfl | hf'
        · exact hh.2 rfl
        · exact h.page_held f hf' hh.1
      own := fun v w hv hw hpv hpw heq => by
        rw [hleaf v] at hpv heq
        rw [hleaf w] at hpw heq
        split_ifs at hpv hpw heq with hvv hwv hwv
        · rw [hvv, hwv]
        · exact absurd (heq.symm.trans (frameOf_mapEntry hphys)) (hnot w hw hpw)
        · exact absurd (heq.trans (frameOf_mapEntry hphys)) (hnot v hv hpv)
        · exact h.own v w hv hw hpv hpw heq }

end Ledger

end KiOS
