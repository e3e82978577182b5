import KiOS.Commands.Holding
import KiOS.Mm.VmmIdentity

/-!
What `cmd_usertest` does.

* `vmmMapPage_identity`: the calls of `vmm_map_page` at the addresses of the user code and the user
  stack. They set USER bits and write a word where the VMM takes a page of 2 MB for a table;
* `SparesTables`: no page table lies there;
* `cmdUsertest_failing`: with one page free the command takes it and returns;
* `cmdUsertest_triple`: up to its jump the command leaves the kernel in order, if it spares the
  tables.
-/

namespace KiOS

open Program Command

/-! ### Mapping in the identity map -/

section

variable {σ : Type} {A : FrameSource σ} {r f : Frame} {m m' m'' : PhysMem} {s : σ} {i : Idx}
  {p : List Idx} {virt : BitVec 64}

/-- A descent goes one part of the path after the other. -/
lemma vmmDescend_append (alloc : σ → BitVec 64 × σ) (create : Bool) (flags : BitVec 32)
    (p q : List Idx) : vmmDescend alloc create flags (p ++ q) f m s
      = match vmmDescend alloc create flags p f m s with
        | (none, m, s) => (none, m, s)
        | (some g, m, s) => vmmDescend alloc create flags q g m s := by
  induction p generalizing f m s with
  | nil => rfl
  | cons i p ih =>
      rw [List.cons_append, vmmDescend, vmmDescend]
      generalize vmmNextTable alloc create flags f i m s = next
      rcases next with ⟨_ | g, m, s⟩
      · rfl
      · exact ih

/-- A large page gets the USER bit. -/
lemma Tables.promote_large (ht : Tables m r) (hp : tableAt m r p = some f) (hlen : p.length ≤ 2)
    (hl : LargePage (m.word f i)) (hup : ∀ q i', p = q ++ [i'] → User (entryAt m r q i')) :
    Tables (m.store f i (m.word f i ||| pageUser)) r
      ∧ (∀ q, q.length ≤ 3 →
        tableAt (m.store f i (m.word f i ||| pageUser)) r q = tableAt m r q)
      ∧ ∀ q j, q.length ≤ 3 → entryAt (m.store f i (m.word f i ||| pageUser)) r q j
        = if q = p ∧ j = i then m.word f i ||| pageUser else entryAt m r q j := by
  have hch : child (m.word f i ||| pageUser) = child (m.word f i) := child_or_pageUser
  obtain ⟨hwalk, hslot⟩ := ht.store_spec hp (i := i) (by omega) fun _ => hch
  have he : entryAt m r p i = m.word f i := entryAt_of_table hp
  refine ⟨⟨Radix.tree_write child_zero ht.tree hp (by omega) fun _ => hch,
    fun q g hq hg => ht.low q g hq (hwalk q hq ▸ hg), fun q j hq hpr => ?_, fun q j hq hlq => ?_,
    fun q i' j hq hu => ?_⟩, hwalk, hslot⟩
  · rw [hslot q j (by omega)] at hpr ⊢
    split_ifs at hpr ⊢ with h
    · exact writable_or_pageUser.mpr (he ▸ ht.writable p i hlen (he ▸ hl.1))
    · exact ht.writable q j hq hpr
  · rw [hslot q j (by omega)] at hlq
    split_ifs at hlq with h
    · exact h.1.trans (ht.large p i hlen (he ▸ hl))
    · exact ht.large q j hq hlq
  · rw [hslot _ j (by simp; omega)] at hu
    rw [hslot q i' (by omega)]
    split_ifs at hu with h
    · have hne : q ≠ p := fun h' => by simpa [h'] using h.1.symm
      rw [if_neg fun h' => hne h'.1]
      exact hup q i' h.1.symm
    · split_ifs
      · exact user_or_pageUser
      · exact ht.user q i' j hq hu

/-- What a call in the identity map leaves of the tables. -/
structure SameTables (r : Frame) (m m' : PhysMem) : Prop where
  tables : Tables m' r
  walk : ∀ q, q.length ≤ 3 → tableAt m' r q = tableAt m r q
  leaf : ∀ q j, q.length = 3 → entryAt m' r q j = entryAt m r q j
  identity : IdentityMap m' r

lemma SameTables.trans (h : SameTables r m m') (h' : SameTables r m' m'') : SameTables r m m'' :=
  ⟨h'.tables, fun q hq => (h'.walk q hq).trans (h.walk q hq),
    fun q j hq => (h'.leaf q j hq).trans (h.leaf q j hq), h'.identity⟩

lemma SameTables.isTable_iff (h : SameTables r m m') : IsTable m' r f ↔ IsTable m r f :=
  ⟨fun ⟨q, hq, hf⟩ => ⟨q, hq, h.walk q hq ▸ hf⟩, fun ⟨q, hq, hf⟩ => ⟨q, hq, (h.walk q hq).trans hf⟩⟩

/-- A store outside the tables. -/
lemma SameTables.store {x : Pte} (h : SameTables r m m') (hf : ¬ IsTable m r f) :
    SameTables r m (m'.store f i x) := by
  obtain ⟨hwalk, hslot⟩ := store_apart (i := i) (x := x) fun ht => hf (h.isTable_iff.mp ht)
  refine h.trans ⟨h.tables.of_eq hwalk hslot, hwalk, fun q j hq => hslot q j hq.le, fun j => ?_⟩
  rw [hslot [0, 0] j (by simp)]
  exact h.identity j

/-- **Mapping in the identity map** succeeds without a page, and maps nothing. -/
theorem vmmMapPage_identity (h : VmmOk A r m s) (hid : IdentityMap m r) (hv : virt.toNat < 2 ^ 30)
    (hfake : ¬ IsTable m r (fakeTable virt)) (phys : BitVec 64) (flags : BitVec 32) :
    ∃ m', vmmMapPage A.alloc r virt phys flags m s = (none, m', s) ∧ SameTables r m m' := by
  obtain ⟨h4, h3, h2⟩ := tablePath_of_low hv
  have hpath : tablePath virt = [0, 0] ++ [pdIndex virt] := by simp [tablePath, h4, h3]
  obtain ⟨pd, hpd⟩ : ∃ pd, tableAt m r [0, 0] = some pd := by
    refine Option.ne_none_iff_exists'.mp fun hnone => not_present_zero ?_
    have hl := hid.largePage 0
    rw [entryAt_of_none hnone] at hl
    exact hl.1
  -- the descent to the directory allocates nothing and builds no table
  have hlarge : ∀ t i, t ++ [i] <+: [0, 0] → ¬ LargePage (entryAt m r ([] ++ t) i) := by
    intro t i hti hl
    have hlen := hti.length_le
    simp only [List.length_append, List.length_cons, List.length_nil] at hlen
    have htl := h.tables.large t i (by omega) hl
    rw [htl] at hlen
    simp at hlen
  have hsoft : Radix.walk softChild m.word r [0, 0] = some pd := by
    rw [Radix.walk_congr child_zero softChild_zero fun t i hti => softChild_eq (hlarge t i hti)]
    exact hpd
  obtain ⟨m₁, hdesc, -⟩ := vmmDescend_present flags A.alloc s hsoft
  obtain ⟨out, m₁', s', hdesc', hd⟩ := vmmDescend_spec flags h (p := []) rfl
    (show ([] : List Idx).length + ([0, 0] : List Idx).length ≤ 3 by simp) hlarge
    fun _ q i hq => absurd hq.length_le (by simp)
  rw [hdesc] at hdesc'
  obtain ⟨rfl, rfl, rfl⟩ : some pd = out ∧ m₁ = m₁' ∧ s = s' := by simpa using hdesc'
  have hwalk : ∀ q, q.length ≤ 3 → tableAt m₁ r q = tableAt m r q := by
    intro q hq
    cases hm : tableAt m r q with
    | some g => exact hd.grows.mono q g hq hm
    | none =>
        by_contra hne
        obtain ⟨t, ht⟩ := hd.grows.new q hq hm hne
        rw [List.nil_append] at ht
        obtain ⟨g, hg⟩ := Radix.walk_prefix (ht.symm ▸ hpd : tableAt m r (q ++ t) = some pd)
        cases hm.symm.trans hg
  have hsame : ∀ j, entryAt m₁ r [0, 0] j = entryAt m r [0, 0] j := fun j =>
    hd.grows.large [0, 0] j le_rfl (Or.inl (hid.largePage j))
  have hword : m₁.word pd (pdIndex virt) = entryAt m r [0, 0] (pdIndex virt) := by
    rw [← hsame, entryAt_of_table ((hwalk _ (by simp)).trans hpd)]
  have hl : LargePage (m₁.word pd (pdIndex virt)) := hword ▸ hid.largePage _
  have hframe : frameOf (m₁.word pd (pdIndex virt)) = fakeTable virt := by
    rw [hword, ← frameOf_bootEntry, ← h2]
    rcases hid (pdIndex virt) with heq | heq <;> rw [heq]
    exact frameOf_or_pageUser
  have hm₁ : SameTables r m m₁ := ⟨hd.ok.tables, hwalk, hd.leaf, fun j => hsame j ▸ hid j⟩
  -- the page of 2 MB, taken for a page table
  obtain ⟨m₂, hnext, hm₂⟩ : ∃ m₂, vmmNextTable A.alloc true flags pd (pdIndex virt) m₁ s
      = (some (fakeTable virt), m₂, s) ∧ SameTables r m m₂ := by
    rw [vmmNextTable, if_neg hl.1]
    split_ifs with hu
    · obtain ⟨ht, hwalk₂, hslot⟩ := hd.ok.tables.promote_large ((hwalk _ (by simp)).trans hpd)
        (by simp) hl fun q i' hq => hd.user pd rfl hu.1 q i' (by rw [hq]; simp)
      refine ⟨_, by simp [Radix.write, frameOf_or_pageUser, hframe],
        hm₁.trans ⟨ht, hwalk₂, fun q j hq => ?_, fun j => ?_⟩⟩
      · rw [hslot q j hq.le, if_neg fun h' => by rw [h'.1] at hq; simp at hq]
      · rw [hslot [0, 0] j (by simp)]
        split_ifs with hj
        · rw [hj.2, hword]
          rcases hid (pdIndex virt) with heq | heq <;> rw [heq]
          · exact Or.inr rfl
          · rw [BitVec.or_assoc, BitVec.or_self]
            exact Or.inr rfl
        · exact hm₁.identity j
    · exact ⟨m₁, by rw [hframe], hm₁⟩
  refine ⟨_, ?_, hm₂.store (i := ptIndex virt) (x := mapEntry phys flags) hfake⟩
  rw [vmmMapPage, vmmGetPteFlags, hpath, vmmDescend_append, hdesc]
  dsimp only
  rw [vmmDescend, hnext]
  rfl

/-- The processor maps the identity map to itself. -/
lemma IdentityMap.walk (hid : IdentityMap m r) (ht : Tables m r) (hv : virt.toNat < 2 ^ 30) :
    ∃ t, mmuWalk m r virt = some t ∧ t.phys = virt := by
  obtain ⟨h4, h3, -⟩ := tablePath_of_low hv
  have hl : LargePage (entryAt m r [pml4Index virt, pdptIndex virt] (pdIndex virt)) := by
    rw [h4, h3]
    exact hid.largePage _
  have hvirt : BitVec.ofNat 64 (virt.toNat % 2 ^ 30) = virt := by
    refine BitVec.eq_of_toNat_eq ?_
    rw [BitVec.toNat_ofNat]
    omega
  rw [mmuWalk_eq ht]
  refine ⟨_, if_pos hl, ?_⟩
  rw [h4, h3]
  rcases hid (pdIndex virt) with heq | heq <;> rw [heq]
  · rw [phys_bootEntry, hvirt]
  · rw [largePage_or_pageUser, phys_bootEntry, hvirt]

end

/-! ### `usertest` -/

section

variable {pml4 : Frame} {s₀ s : HeapRun Pmm} {held : Finset (BitVec 64)} {virt : BitVec 64}

/-- No page table lies where `cmd_usertest` writes. -/
def SparesTables (pml4 : Frame) (m : PhysMem) : Prop :=
  ¬ IsTable m pml4 (fakeTable userCodeVaddr) ∧ ¬ IsTable m pml4 (fakeTable userStackVaddr)

/-- The two allocations of `cmd_usertest`, and its test for NULL. -/
lemma usertestAlloc_triple {Q : Unit → HeapRun Pmm → Prop} {E : CommandStop → HeapRun Pmm → Prop}
    {k : BitVec 64 → BitVec 64 → Command Unit}
    (h₀ : VmmOk pmmFrames pml4 s₀.kernel.mem s₀.kernel.pmm)
    (hfail : ∀ s pages, Holding pml4 s₀ pages (fun _ => none) s →
      pages.length = s₀.kernel.pmm.freePages → s₀.kernel.pmm.freePages < 2 → E .returned s)
    (hgo : ∀ codePhys stackPhys, Triple (OnlyTaken pml4 s₀ [codePhys, stackPhys])
      (k codePhys stackPhys) Q E) :
    Triple (fun s => s = s₀) (do
      let codePhys ← allocPage
      let stackPhys ← allocPage
      stopIf (codePhys = 0 ∨ stackPhys = 0) .returned
      k codePhys stackPhys) Q E := by
  refine Triple.bind ((OnlyTaken.alloc_triple pml4 s₀ []).conseq ?_ (fun _ s hs => hs)
    fun _ _ h => h) fun codePhys => ?_
  · rintro s rfl
    exact OnlyTaken.nil h₀
  by_cases hcode : codePhys = 0
  · -- no page is free, and the second call returns NULL as well
    refine Triple.bind (Q := fun _ s => ∃ pages, OnlyTaken pml4 s₀ pages s
        ∧ pages.length = s₀.kernel.pmm.freePages ∧ s₀.kernel.pmm.freePages < 2) ?_ fun stackPhys =>
      Triple.bind (Q := fun _ _ => False) (Triple.stopIf
        (fun _ s ⟨pages, hs, hall, hfew⟩ => hfail s pages hs.holding hall hfew)
        fun hn s hs => absurd (Or.inl hcode) hn) fun _ _ hs => hs.elim
    refine Triple.of_eq fun s₁ hs₁ => ?_
    obtain ⟨hs, hall⟩ := hs₁.1 hcode
    refine (OnlyTaken.alloc_triple pml4 s₀ []).conseq (fun s h => h ▸ hs) (fun page s hs' => ?_)
      fun _ _ h => h
    by_cases hpage : page = 0
    · exact ⟨[], (hs'.1 hpage).1, hall, by rw [← hall]; simp⟩
    · have hfree := (hs'.2 hpage).free
      rw [List.nil_append, List.length_singleton, ← hall, List.length_nil] at hfree
      omega
  · refine Triple.bind ((OnlyTaken.alloc_triple pml4 s₀ [codePhys]).conseq (fun s hs => hs.2 hcode)
      (fun _ s hs => hs) fun _ _ h => h) fun stackPhys =>
      Triple.bind (Q := fun _ => OnlyTaken pml4 s₀ [codePhys, stackPhys])
        (Triple.stopIf (fun h0 s hs => ?_) fun hn s hs => hs.2 fun h0 => hn (Or.inr h0)) fun _ =>
        hgo codePhys stackPhys
    obtain ⟨hs, hall⟩ := hs.1 (h0.resolve_left hcode)
    exact hfail s _ hs.holding hall (by rw [← hall]; simp)

/-- **With one page free** the command takes it and returns. -/
lemma cmdUsertest_failing (h₀ : VmmOk pmmFrames pml4 s₀.kernel.mem s₀.kernel.pmm) :
    Triple (fun s => s = s₀) (cmdUsertest pml4) (fun _ _ => 2 ≤ s₀.kernel.pmm.freePages)
      (fun e s => (e = .returned
          ∧ (Clean pml4 s₀.kernel s.kernel ↔ s₀.kernel.pmm.freePages ≠ 1))
        ∨ (e = .pageFault ∧ 2 ≤ s₀.kernel.pmm.freePages)) := by
  rw [cmdUsertest]
  refine usertestAlloc_triple h₀ (fun s pages hs hall hfew => ?_) fun codePhys stackPhys => ?_
  · refine Or.inl ⟨rfl, ?_⟩
    rw [hs.clean_iff h₀, ← List.length_eq_zero_iff, hall]
    omega
  · -- from here on only the processor stops it
    refine Triple.bind (Q := fun _ _ => 2 ≤ s₀.kernel.pmm.freePages) (Triple.step fun s hs => ?_)
      fun _ => Triple.bind (Q := fun _ _ => 2 ≤ s₀.kernel.pmm.freePages)
        (Triple.step fun _ hs => hs) fun _ => ?_
    · have hfree := hs.free
      simp only [List.length_cons, List.length_nil] at hfree
      omega
    · exact Triple.forM (fun _ _ => 2 ≤ s₀.kernel.pmm.freePages) fun p b r _ =>
        access_triple (fun s hs _ => Or.inr ⟨rfl, hs⟩) fun _ _ hs _ => hs

/-- What the rest of the command leaves: USER bits, and words outside the tables. -/
structure UserMapped (pml4 : Frame) (held : Finset (BitVec 64)) (s₀ s : HeapRun Pmm) : Prop where
  ledger : Ledger pmmFrames pml4 (s₀.with held).heldFrames s.kernel.mem s.kernel.pmm
  same : SameTables pml4 s₀.kernel.mem s.kernel.mem
  ptr : s.kernel.heapCurrentPtr = s₀.kernel.heapCurrentPtr
  blocks : s.blocks = s₀.blocks

namespace UserMapped

lemma map (h : UserMapped pml4 held s₀ s) (hv : virt.toNat < 2 ^ 30)
    (hspare : ¬ IsTable s₀.kernel.mem pml4 (fakeTable virt)) (phys : BitVec 64)
    (flags : BitVec 32) :
    UserMapped pml4 held s₀ ((s.withMem
      (vmmMapPage pmmAlloc pml4 virt phys flags s.kernel.mem s.kernel.pmm).2.1).withPmm
      (vmmMapPage pmmAlloc pml4 virt phys flags s.kernel.mem s.kernel.pmm).2.2) := by
  obtain ⟨m, heq, hm⟩ := vmmMapPage_identity h.ledger.ok h.same.identity hv
    (fun ht => hspare (h.same.isTable_iff.mp ht)) phys flags
  change vmmMapPage pmmAlloc pml4 virt phys flags s.kernel.mem s.kernel.pmm = _ at heq
  rw [heq]
  exact ⟨h.ledger.of_leaf hm.tables hm.walk fun w _ _ => hm.leaf _ _ (by simp [tablePath]),
    h.same.trans hm, h.ptr, h.blocks⟩

lemma store {f : Frame} {i : Idx} {x : Pte} (h : UserMapped pml4 held s₀ s)
    (hf : ¬ IsTable s₀.kernel.mem pml4 f) :
    UserMapped pml4 held s₀ (s.withMem (s.kernel.mem.store f i x)) :=
  ⟨h.ledger.store fun ht => hf (h.same.isTable_iff.mp ht), h.same.store hf, h.ptr, h.blocks⟩

lemma aftermath (h₀ : (s₀.with held).Inv pml4) (h : UserMapped pml4 held s₀ s) :
    Aftermath pml4 held ∅ s₀ s where
  inv := by
    have hbounds : s.BoundsInv := ⟨h.ptr ▸ h₀.bounds.start_le, h.ptr ▸ h₀.bounds.lt_end,
      h.ptr ▸ h₀.bounds.aligned, fun b hb => h.ptr ▸ h₀.bounds.below b (h.blocks ▸ hb)⟩
    exact ⟨hbounds, fun b hb => h₀.blocks_start b (h.blocks ▸ hb), h.ledger, h₀.held_aligned,
      h₀.held_pos⟩
  identity _ := h.same.identity
  kept w _ _ _ := h.same.leaf _ _ (by simp [tablePath])
  old b hb := h.blocks.symm ▸ hb
  new b hb := Or.inl (h.blocks ▸ hb)

end UserMapped

lemma toNat_userCode {i : ℕ} (hi : i < 4096) :
    (userCodeVaddr + BitVec.ofNat 64 i).toNat = 0x400000 + i := by
  have hbase : userCodeVaddr.toNat = 0x400000 := rfl
  rw [BitVec.toNat_add, BitVec.toNat_ofNat, hbase]
  omega

/-- **`cmd_usertest`**, up to its jump, leaves the kernel in order if it spares the tables. -/
lemma cmdUsertest_triple (h₀ : (s₀.with held).Inv pml4) (hid : IdentityMap s₀.kernel.mem pml4)
    (hspare : SparesTables pml4 s₀.kernel.mem) :
    Triple (fun s => s = s₀) (cmdUsertest pml4) (fun _ s => Aftermath pml4 held ∅ s₀ s)
      (fun e s => e = .returned ∧ Aftermath pml4 held ∅ s₀ s) := by
  rw [cmdUsertest]
  refine usertestAlloc_triple h₀.ledger.ok (fun s pages hs _ _ =>
    ⟨rfl, Aftermath.of_footprint h₀ hs.footprint (by simp)⟩) fun codePhys stackPhys => ?_
  refine Triple.bind (Q := fun _ => UserMapped pml4 held s₀) (Triple.step fun s hs => ?_) fun _ =>
    Triple.bind (Q := fun _ => UserMapped pml4 held s₀) (Triple.step fun s hs => ?_) fun _ => ?_
  · have hfoot := hs.holding.footprint
    have htaken : UserMapped pml4 held s₀ s :=
      { ledger := hfoot.ledger h₀.ledger fun w _ _ => hfoot.leaf w
        same := by
          rw [hs.mem]
          exact ⟨h₀.ledger.ok.tables, fun _ _ => rfl, fun _ _ _ => rfl, hid⟩
        ptr := hfoot.ptr
        blocks := hfoot.blocks }
    exact htaken.map (by decide) hspare.1 codePhys 7
  · exact hs.map (by decide) hspare.2 stackPhys 7
  · refine (Triple.forM (fun _ => UserMapped pml4 held s₀) fun p b r hl => ?_).conseq
      (fun s hs => hs) (fun _ s hs => hs.aftermath h₀) fun _ _ h => h
    obtain ⟨rfl, hb⟩ := range_prefix hl
    have hlen : userCode.length = 56 := rfl
    have haddr := toNat_userCode (i := p.length) (by omega)
    have hlow : (userCodeVaddr + BitVec.ofNat 64 p.length).toNat < 2 ^ 30 := by omega
    rw [storeByte]
    refine access_triple (fun s hs hnone => ?_) fun s t hs hwalk => ?_
    · obtain ⟨t, ht, -⟩ := hs.same.identity.walk hs.same.tables hlow
      rw [ht] at hnone
      cases hnone
    · obtain ⟨t', ht, hphys⟩ := hs.same.identity.walk hs.same.tables hlow
      obtain rfl : t = t' := Option.some.inj (hwalk.symm.trans ht)
      have hframe : frameOf t.phys = fakeTable userCodeVaddr := by
        refine BitVec.eq_of_toNat_eq ?_
        rw [toNat_frameOf, hphys, haddr, toNat_fakeTable (by decide)]
        have hbase : userCodeVaddr.toNat = 0x400000 := rfl
        omega
      refine hs.store ?_
      rw [hframe]
      exact hspare.1

end

end KiOS
