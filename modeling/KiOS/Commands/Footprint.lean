import KiOS.Commands.Memory
import KiOS.Mm.HeapBacking

/-!
What a command has done to the memory since it started.

* `Footprint`: the pages it holds, the pages it has mapped, and the tables built on the way.
  Nothing else has changed but words outside the tables;
* `Footprint.alloc`, `Footprint.map`, `Footprint.store`, `Footprint.unmap`, `Footprint.free`: what
  the calls add to it;
* `Footprint.ledger`: the ledger of the kernel afterwards;
* `Clean`: what a command owes when it returns: no page and no mapping is left behind, apart from
  page tables and the heap;
* `Footprint.clean`, `Footprint.not_clean`: a command that holds nothing has kept its promise, and
  one that holds a page has not.
-/

namespace KiOS

open Program Command

/-! ### The calls of a command -/

section

variable {pml4 : Frame} {virt phys : BitVec 64} {flags : BitVec 32} {value : BitVec 64}
  {P : HeapRun Pmm → Prop} {E : CommandStop → HeapRun Pmm → Prop}

lemma pmmAlloc_totalPages (m : Pmm) : (pmmAlloc m).2.totalPages = m.totalPages := by
  rcases m.pmmAllocPage_cases with ⟨i, -, -, -, heq⟩ | ⟨-, heq⟩ <;> rw [pmmAlloc, heq] <;> rfl

/-- What every allocation keeps, mapping a page keeps. -/
lemma vmmMapPage_keeps {σ : Type} {alloc : σ → BitVec 64 × σ} {I : σ → Prop}
    (halloc : ∀ s, I s → I (alloc s).2) {m : PhysMem} {s : σ} (hs : I s) :
    I (vmmMapPage alloc pml4 virt phys flags m s).2.2 := by
  have hnext : ∀ create table idx m s, I s →
      I (vmmNextTable alloc create flags table idx m s).2.2 := by
    intro create table idx m s hs
    unfold vmmNextTable
    split_ifs with h1 h2 h3
    · exact hs
    · dsimp only
      split_ifs
      · exact halloc s hs
      · exact halloc s hs
    · exact hs
    · exact hs
  have hdescend : ∀ path table m s, I s → I (vmmDescend alloc true flags path table m s).2.2 := by
    intro path
    induction path with
    | nil => exact fun _ _ _ hs => hs
    | cons idx path ih =>
        intro table m s hs
        have hn := hnext true table idx m s hs
        rw [vmmDescend]
        generalize vmmNextTable alloc true flags table idx m s = r at hn ⊢
        rcases r with ⟨_ | table, m, s⟩
        · exact hn
        · exact ih table m s hn
  have hd := hdescend (tablePath virt) pml4 m s hs
  rw [vmmMapPage, vmmGetPteFlags]
  generalize vmmDescend alloc true flags (tablePath virt) pml4 m s = r at hd ⊢
  rcases r with ⟨_ | table, m, s⟩ <;> exact hd

/-- All tables are there exactly if the last one is. -/
lemma missing_eq_zero_iff {m : PhysMem} :
    missing m pml4 virt = 0 ↔ tableAt m pml4 (tablePath virt) ≠ none := by
  simp only [missing, missingFrom, tablePath, List.nil_append, List.cons_append]
  constructor
  · intro h hn
    rw [if_pos hn] at h
    omega
  · intro h
    obtain ⟨f, hf⟩ := Option.ne_none_iff_exists'.mp h
    have h1 : tableAt m pml4 [pml4Index virt] ≠ none := fun hn => h (tableAt_append_none hn _)
    have h2 : tableAt m pml4 [pml4Index virt, pdptIndex virt] ≠ none := fun hn =>
      h (tableAt_append_none hn _)
    rw [if_neg h1, if_neg h2, if_neg h]

/-- An address that cannot be mapped is not mapped: a table is missing. -/
lemma MapOk.not_present {σ : Type} {A : FrameSource σ} {m m' : PhysMem} {s s' : σ}
    {err : Option String} (hok : MapOk A pml4 virt phys flags m s err m' s') (herr : err ≠ none) :
    ¬ Present (leafAt m' pml4 virt) := by
  have hshort := hok.fails_iff.mp herr
  have hnone : tableAt m pml4 (tablePath virt) = none := by
    by_contra hsome
    have hz := missing_eq_zero_iff.mpr hsome
    omega
  have hleaf := hok.leaf (tablePath virt) (ptIndex virt) (by simp [tablePath])
  rw [if_neg fun h => herr h.1, entryAt_of_none hnone] at hleaf
  rw [leafAt, hleaf]
  exact not_present_zero

/-- An access goes where the processor finds the address. -/
lemma access_triple {α : Type} {f : BitVec 64 → HeapRun Pmm → α × HeapRun Pmm}
    {Q : α → HeapRun Pmm → Prop} (hnone : ∀ s, P s → mmuWalk s.kernel.mem pml4 virt = none →
      E .pageFault s)
    (hsome : ∀ s t, P s → mmuWalk s.kernel.mem pml4 virt = some t →
      Q (f t.phys s).1 (f t.phys s).2) : Triple P (access pml4 virt f) Q E := by
  refine Triple.bind (Q := fun t s => P s ∧ mmuWalk s.kernel.mem pml4 virt = t)
    (Triple.step fun s hs => ⟨hs, rfl⟩) fun t => ?_
  cases t with
  | none => exact Triple.stop fun s hs => hnone s hs.1 hs.2
  | some t => exact Triple.step fun s hs => hsome s t hs.1 hs.2

end

/-! ### Footprints -/

/-- What has happened since `s₀`: the frames in `own` are held, and `mapped` has the entries
written. -/
structure Footprint (pml4 : Frame) (s₀ : HeapRun Pmm) (own : Set Frame)
    (mapped : VPage → Option Pte) (s : HeapRun Pmm) : Prop where
  ok : VmmOk pmmFrames pml4 s.kernel.mem s.kernel.pmm
  mono : ∀ q f, q.length ≤ 3 → tableAt s₀.kernel.mem pml4 q = some f →
    tableAt s.kernel.mem pml4 q = some f
  fresh : ∀ f, IsTable s.kernel.mem pml4 f →
    IsTable s₀.kernel.mem pml4 f ∨ ¬ s₀.kernel.pmm.Used f.toNat
  used : ∀ f : Frame, s.kernel.pmm.Used f.toNat ↔
    s₀.kernel.pmm.Used f.toNat ∨ f ∈ own ∨ IsTable s.kernel.mem pml4 f
  own_fresh : ∀ f ∈ own, ¬ s₀.kernel.pmm.Used f.toNat
  own_table : ∀ f ∈ own, ¬ IsTable s.kernel.mem pml4 f
  large : ∀ q j, q.length ≤ 2 →
    LargePage (entryAt s₀.kernel.mem pml4 q j) ∨ LargePage (entryAt s.kernel.mem pml4 q j) →
    entryAt s.kernel.mem pml4 q j = entryAt s₀.kernel.mem pml4 q j
  leaf : ∀ w, leafAt s.kernel.mem pml4 w
    = (mapped (vpage w)).getD (leafAt s₀.kernel.mem pml4 w)
  total : s.kernel.pmm.totalPages = s₀.kernel.pmm.totalPages
  ptr : s.kernel.heapCurrentPtr = s₀.kernel.heapCurrentPtr
  blocks : s.blocks = s₀.blocks

namespace Footprint

variable {pml4 : Frame} {s₀ s : HeapRun Pmm} {own : Set Frame} {mapped : VPage → Option Pte}
  {virt phys : BitVec 64} {flags : BitVec 32} {f : Frame} {i : Idx} {x : Pte}

lemma refl (h : VmmOk pmmFrames pml4 s.kernel.mem s.kernel.pmm) :
    Footprint pml4 s ∅ (fun _ => none) s where
  ok := h
  mono _ _ _ h := h
  fresh _ := Or.inl
  used f := by
    simp only [Set.mem_empty_iff_false, false_or]
    exact ⟨Or.inl, fun h' => h'.elim id fun ⟨q, hq, hf⟩ => h.owned q f hq hf⟩
  own_fresh f hf := absurd hf (Set.notMem_empty f)
  own_table f hf := absurd hf (Set.notMem_empty f)
  large _ _ _ _ := rfl
  leaf _ := rfl
  total := rfl
  ptr := rfl
  blocks := rfl

/-- A frame that is held is taken. -/
lemma own_used (h : Footprint pml4 s₀ own mapped s) (hf : f ∈ own) : s.kernel.pmm.Used f.toNat :=
  (h.used f).mpr (Or.inr (Or.inl hf))

/-- What was taken before still is. -/
lemma kept (h : Footprint pml4 s₀ own mapped s) (hf : s₀.kernel.pmm.Used f.toNat) :
    s.kernel.pmm.Used f.toNat :=
  (h.used f).mpr (Or.inl hf)

/-- What the processor finds outside the identity map. -/
lemma mmuWalk_eq (h : Footprint pml4 s₀ own mapped s) (hv : pml4Index virt ≠ 0) :
    mmuWalk s.kernel.mem pml4 virt
      = if Present (leafAt s.kernel.mem pml4 virt) then
          some (smallPage (leafAt s.kernel.mem pml4 virt) virt
            (decide (Writable (leafAt s.kernel.mem pml4 virt)))
            (decide (User (leafAt s.kernel.mem pml4 virt))))
        else none := by
  rw [KiOS.mmuWalk_eq h.ok.tables]
  exact if_neg (h.ok.tables.not_hitsLarge hv)

/-- Where the processor finds a page that was mapped. -/
lemma walk_of_mapped (h : Footprint pml4 s₀ own mapped s) (hphys : PageFrame phys)
    (hv : pml4Index virt ≠ 0) (hoff : virt &&& 0xFFF = 0)
    (he : mapped (vpage virt) = some (mapEntry phys 3)) :
    ∃ t, mmuWalk s.kernel.mem pml4 virt = some t ∧ t.phys = phys := by
  have hleaf := h.leaf virt
  rw [he, Option.getD_some] at hleaf
  rw [h.mmuWalk_eq hv, hleaf, if_pos present_mapEntry, smallPage_mapEntry hphys plainFlags_three,
    hoff]
  exact ⟨_, rfl, by simp⟩

/-- Where no page is mapped or unmapped the processor finds what it found before. -/
lemma mmuWalk_same (h : Footprint pml4 s₀ own mapped s) (h₀ : Tables s₀.kernel.mem pml4)
    (hv : mapped (vpage virt) = none) :
    mmuWalk s.kernel.mem pml4 virt = mmuWalk s₀.kernel.mem pml4 virt := by
  have hleaf := h.leaf virt
  rw [hv, Option.getD_none] at hleaf
  exact h₀.mmuWalk_congr h.ok.tables h.large hleaf

/-! ### The calls -/

/-- A page is taken. -/
lemma alloc (h : Footprint pml4 s₀ own mapped s) (hfree : 0 < s.kernel.pmm.freePages) :
    Footprint pml4 s₀ (insert (frameOf (pmmAlloc s.kernel.pmm).1) own) mapped
        (s.withPmm (pmmAlloc s.kernel.pmm).2)
      ∧ PageFrame (pmmAlloc s.kernel.pmm).1
      ∧ frameOf (pmmAlloc s.kernel.pmm).1 ∉ own
      ∧ (pmmAlloc s.kernel.pmm).2.freePages + 1 = s.kernel.pmm.freePages := by
  have hinv := h.ok.inv
  have hfresh : ¬ s.kernel.pmm.Used (frameOf (pmmAlloc s.kernel.pmm).1).toNat :=
    pmmFrames.alloc_fresh _ hinv hfree
  have htaken : ∀ g : Frame, (pmmAlloc s.kernel.pmm).2.Used g.toNat ↔ s.kernel.pmm.Used g.toNat
      ∨ g = frameOf (pmmAlloc s.kernel.pmm).1 := pmmFrames.alloc_taken _ hinv hfree
  have htotal : (pmmAlloc s.kernel.pmm).2.totalPages = s.kernel.pmm.totalPages := by
    obtain ⟨j, -, -, -, -, -, heq⟩ := PmmOk.alloc_eq hinv hfree
    rw [heq]
    rfl
  refine ⟨?_, FrameSource.pageFrame hinv hfree, fun hmem => hfresh (h.own_used hmem),
    pmmFrames.alloc_free _ hinv hfree⟩
  exact
    { ok := ⟨h.ok.tables, pmmFrames.alloc_inv _ hinv hfree, fun q g hq hg =>
        (htaken g).mpr (Or.inl (h.ok.owned q g hq hg))⟩
      mono := h.mono
      fresh := h.fresh
      used := fun g => by
        refine (htaken g).trans ?_
        rw [h.used, Set.mem_insert_iff]
        tauto
      own_fresh := fun g hg => by
        rcases hg with rfl | hg
        · exact fun hu => hfresh (h.kept hu)
        · exact h.own_fresh g hg
      own_table := fun g hg => by
        rcases hg with rfl | hg
        · rintro ⟨q, hq, hqf⟩
          exact hfresh (h.ok.owned q _ hq hqf)
        · exact h.own_table g hg
      large := h.large
      leaf := h.leaf
      total := htotal.trans h.total
      ptr := h.ptr
      blocks := h.blocks }

/-- A page is given back. -/
lemma free (h : Footprint pml4 s₀ own mapped s) (hphys : PageFrame phys)
    (hown : frameOf phys ∈ own) :
    Footprint pml4 s₀ (own \ {frameOf phys}) mapped (s.withPmm (pmmFree s.kernel.pmm phys))
      ∧ (pmmFree s.kernel.pmm phys).freePages = s.kernel.pmm.freePages + 1 := by
  have hpos : 0 < phys.toNat / 4096 := by
    have hal := hphys.aligned
    have hne : phys.toNat ≠ 0 := fun h0 => hphys.pos (BitVec.eq_of_toNat_eq h0)
    omega
  have hused := h.own_used hown
  rw [toNat_frameOf] at hused
  obtain ⟨hok, hiff⟩ := PmmOk.freePage h.ok.inv hphys.aligned hpos hused
  have hiff' : ∀ g : Frame, (pmmFree s.kernel.pmm phys).Used g.toNat
      ↔ s.kernel.pmm.Used g.toNat ∧ g ≠ frameOf phys := fun g =>
    (hiff g.toNat).trans (and_congr_right fun _ => not_congr (by
      rw [← BitVec.toNat_inj, toNat_frameOf]))
  have hcleared : pmmFree s.kernel.pmm phys = s.kernel.pmm.cleared (phys.toNat / 4096) := by
    rw [pmmFree, Pmm.pmmFreePage_eq hused.1 hused.2, Option.getD_some]
  refine ⟨?_, ?_⟩
  · exact
      { ok := ⟨h.ok.tables, hok, fun q g hq hg => (hiff' g).mpr ⟨h.ok.owned q g hq hg, fun hgf =>
          h.own_table _ hown ⟨q, hq, hgf ▸ hg⟩⟩⟩
        mono := h.mono
        fresh := h.fresh
        used := fun g => by
          refine (hiff' g).trans ?_
          rw [h.used, Set.mem_sdiff, Set.mem_singleton_iff]
          constructor
          · tauto
          · rintro (hg | ⟨hg, hne⟩ | hg)
            · exact ⟨Or.inl hg, fun hgf => h.own_fresh _ hown (hgf ▸ hg)⟩
            · exact ⟨Or.inr (Or.inl hg), hne⟩
            · exact ⟨Or.inr (Or.inr hg), fun hgf => h.own_table _ hown (hgf ▸ hg)⟩
        own_fresh := fun g hg => h.own_fresh g hg.1
        own_table := fun g hg => h.own_table g hg.1
        large := h.large
        leaf := h.leaf
        total := by
          rw [← h.total]
          simp only [HeapRun.withPmm, hcleared, Pmm.cleared_totalPages]
        ptr := h.ptr
        blocks := h.blocks }
  · have hacc := h.ok.inv.run.accounted
    have hcount := hacc.used_eq
    have hle := hacc.used_le
    have hbits := Bitmap.count_clearBit (b := s.kernel.pmm.bitmap) (by norm_num) hused.1 hused.2
    have hcl := (hacc.cleared hused.1 hused.2).used_eq
    rw [hcleared]
    simp only [Pmm.freePages, Pmm.cleared_totalPages]
    dsimp only [Pmm.cleared] at hcount hle hcl ⊢
    omega

/-- A page is mapped, or is not because no page is left for a table. -/
lemma map (h : Footprint pml4 s₀ own mapped s) {err : Option String} {m : PhysMem} {p : Pmm}
    (hok : MapOk pmmFrames pml4 virt phys flags s.kernel.mem s.kernel.pmm err m p)
    (htotal : p.totalPages = s.kernel.pmm.totalPages) :
    Footprint pml4 s₀ own
      (if err = none then Function.update mapped (vpage virt) (some (mapEntry phys flags))
        else mapped) ((s.withMem m).withPmm p) := by
  have htaken : ∀ g : Frame, p.Used g.toNat ↔ s.kernel.pmm.Used g.toNat ∨ ∃ q, q.length ≤ 3
      ∧ tableAt s.kernel.mem pml4 q = none ∧ tableAt m pml4 q = some g := hok.grows.taken
  have hmono : ∀ g, IsTable s.kernel.mem pml4 g → IsTable m pml4 g := fun g hg => hok.isTable hg
  -- a table in the end was one before or is a new one
  have hcases : ∀ g, IsTable m pml4 g → IsTable s.kernel.mem pml4 g
      ∨ ¬ s.kernel.pmm.Used g.toNat := by
    intro g hg
    by_contra hn
    rw [not_or, not_not] at hn
    exact Ledger.not_isTable hok hn.2 hn.1 hg
  exact
    { ok := hok.ok
      mono := fun q g hq hg => hok.grows.mono q g hq (h.mono q g hq hg)
      fresh := fun g hg => by
        rcases hcases g hg with hg | hg
        · exact h.fresh g hg
        · exact Or.inr fun hu => hg (h.kept hu)
      used := fun g => by
        refine (htaken g).trans ⟨?_, ?_⟩
        · rintro (hg | ⟨q, hq, -, hqg⟩)
          · rcases (h.used g).mp hg with hg | hg | hg
            · exact Or.inl hg
            · exact Or.inr (Or.inl hg)
            · exact Or.inr (Or.inr (hmono g hg))
          · exact Or.inr (Or.inr ⟨q, hq, hqg⟩)
        · rintro (hg | hg | ⟨q, hq, hqg⟩)
          · exact Or.inl (h.kept hg)
          · exact Or.inl (h.own_used hg)
          · exact (htaken g).mp (hok.ok.owned q g hq hqg)
      own_fresh := h.own_fresh
      own_table := fun g hg => Ledger.not_isTable hok (h.own_used hg) (h.own_table g hg)
      large := fun q j hq hl => by
        rcases hl with hl | hl
        · have heq := h.large q j hq (Or.inl hl)
          have hmap := hok.grows.large q j hq (Or.inl (heq.symm ▸ hl))
          exact hmap.trans heq
        · have hmap := hok.grows.large q j hq (Or.inr hl)
          have hl' : LargePage (entryAt s.kernel.mem pml4 q j) := hmap ▸ hl
          exact hmap.trans (h.large q j hq (Or.inr hl'))
      leaf := fun w => by
        have hleaf := hok.leaf (tablePath w) (ptIndex w) (by simp [tablePath])
        have hsame := h.leaf w
        simp only [← vpage_eq_iff] at hleaf
        refine hleaf.trans ?_
        split_ifs with h1 h2 h3
        · rw [h1.2, Function.update_self, Option.getD_some]
        · exact absurd h1.1 h2
        · rw [Function.update_of_ne fun hw => h1 ⟨h3, hw⟩]
          exact hsame
        · exact hsame
      total := htotal.trans h.total
      ptr := h.ptr
      blocks := h.blocks }

/-- A word outside the tables is written. -/
lemma store (h : Footprint pml4 s₀ own mapped s) (hf : ¬ IsTable s.kernel.mem pml4 f) :
    Footprint pml4 s₀ own mapped (s.withMem (s.kernel.mem.store f i x)) := by
  obtain ⟨hwalk, hslot⟩ := store_apart (i := i) (x := x) hf
  have htable : ∀ g, IsTable (s.kernel.mem.store f i x) pml4 g ↔ IsTable s.kernel.mem pml4 g :=
    fun g => ⟨fun ⟨q, hq, hqg⟩ => ⟨q, hq, hwalk q hq ▸ hqg⟩,
      fun ⟨q, hq, hqg⟩ => ⟨q, hq, (hwalk q hq).trans hqg⟩⟩
  exact
    { ok := ⟨h.ok.tables.of_eq hwalk hslot, h.ok.inv, fun q g hq hg =>
        h.ok.owned q g hq (hwalk q hq ▸ hg)⟩
      mono := fun q g hq hg => (hwalk q hq).trans (h.mono q g hq hg)
      fresh := fun g hg => h.fresh g ((htable g).mp hg)
      used := fun g => (h.used g).trans (or_congr_right (or_congr_right (htable g).symm))
      own_fresh := h.own_fresh
      own_table := fun g hg ht => h.own_table g hg ((htable g).mp ht)
      large := fun q j hq hl => by
        have heq := hslot q j (by omega)
        have hl' : LargePage (entryAt s₀.kernel.mem pml4 q j)
            ∨ LargePage (entryAt s.kernel.mem pml4 q j) := hl.imp_right fun hl => heq ▸ hl
        exact heq.trans (h.large q j hq hl')
      leaf := fun w => (hslot _ _ (by simp [tablePath])).trans (h.leaf w)
      total := h.total
      ptr := h.ptr
      blocks := h.blocks }

/-- A page is unmapped. -/
lemma unmap (h : Footprint pml4 s₀ own mapped s) (hv : ¬ HitsLarge s.kernel.mem pml4 virt) :
    Footprint pml4 s₀ own
      (if Present (leafAt s.kernel.mem pml4 virt) then Function.update mapped (vpage virt) (some 0)
        else mapped) (s.withMem (vmmUnmapPage pml4 virt s.kernel.mem)) := by
  obtain ⟨ht, hwalk, hslot⟩ := vmmUnmapPage_spec h.ok.tables hv
  have htable : ∀ g, IsTable (vmmUnmapPage pml4 virt s.kernel.mem) pml4 g
      ↔ IsTable s.kernel.mem pml4 g :=
    fun g => ⟨fun ⟨q, hq, hqg⟩ => ⟨q, hq, hwalk q hq ▸ hqg⟩,
      fun ⟨q, hq, hqg⟩ => ⟨q, hq, (hwalk q hq).trans hqg⟩⟩
  exact
    { ok := ⟨ht, h.ok.inv, fun q g hq hg => h.ok.owned q g hq (hwalk q hq ▸ hg)⟩
      mono := fun q g hq hg => (hwalk q hq).trans (h.mono q g hq hg)
      fresh := fun g hg => h.fresh g ((htable g).mp hg)
      used := fun g => (h.used g).trans (or_congr_right (or_congr_right (htable g).symm))
      own_fresh := h.own_fresh
      own_table := fun g hg ht => h.own_table g hg ((htable g).mp ht)
      large := fun q j hq hl => by
        have heq : entryAt (vmmUnmapPage pml4 virt s.kernel.mem) pml4 q j
            = entryAt s.kernel.mem pml4 q j := by
          rw [hslot q j (by omega), if_neg fun h' => ?_]
          have hlen := congrArg List.length h'.1
          simp only [tablePath, List.length_cons, List.length_nil] at hlen
          omega
        have hl' : LargePage (entryAt s₀.kernel.mem pml4 q j)
            ∨ LargePage (entryAt s.kernel.mem pml4 q j) := hl.imp_right fun hl => heq ▸ hl
        exact heq.trans (h.large q j hq hl')
      leaf := fun w => by
        have hleaf := hslot (tablePath w) (ptIndex w) (by simp [tablePath])
        have hsame := h.leaf w
        simp only [← and_assoc, ← vpage_eq_iff] at hleaf
        refine hleaf.trans ?_
        split_ifs with h1 h2 h3
        · rw [h1.1, Function.update_self, Option.getD_some]
        · exact absurd h1.2 h2
        · rw [Function.update_of_ne fun hw => h1 ⟨hw, h3⟩]
          exact hsame
        · exact hsame
      total := h.total
      ptr := h.ptr
      blocks := h.blocks }

/-! ### What is left behind -/

/-- The ledger of the kernel, if the heap is mapped as it was. -/
lemma ledger (h : Footprint pml4 s₀ own mapped s) {held : Set Frame}
    (h₀ : Ledger pmmFrames pml4 held s₀.kernel.mem s₀.kernel.pmm)
    (hheap : ∀ w, InHeap w → Present (leafAt s.kernel.mem pml4 w) →
      leafAt s.kernel.mem pml4 w = leafAt s₀.kernel.mem pml4 w) :
    Ledger pmmFrames pml4 held s.kernel.mem s.kernel.pmm := by
  have hpr : ∀ w, InHeap w → Present (leafAt s.kernel.mem pml4 w) →
      Present (leafAt s₀.kernel.mem pml4 w) := fun w hw hp => hheap w hw hp ▸ hp
  have hpage : ∀ f, IsHeapPage s.kernel.mem pml4 f → IsHeapPage s₀.kernel.mem pml4 f := by
    rintro f ⟨w, hw, hp, hf⟩
    exact ⟨w, hw, hpr w hw hp, hheap w hw hp ▸ hf⟩
  -- a frame taken before is a table only if it was one
  have htable : ∀ f : Frame, s₀.kernel.pmm.Used f.toNat → ¬ IsTable s₀.kernel.mem pml4 f →
      ¬ IsTable s.kernel.mem pml4 f := fun f hu hn hf => (h.fresh f hf).elim hn fun h' => h' hu
  exact
    { ok := h.ok
      held_taken := fun f hf => h.kept (h₀.held_taken f hf)
      held_table := fun f hf => htable f (h₀.held_taken f hf) (h₀.held_table f hf)
      page_writable := fun w hw hp => hheap w hw hp ▸ h₀.page_writable w hw (hpr w hw hp)
      page_ne_zero := fun w hw hp => hheap w hw hp ▸ h₀.page_ne_zero w hw (hpr w hw hp)
      page_low := fun w hw hp => hheap w hw hp ▸ h₀.page_low w hw (hpr w hw hp)
      page_taken := fun f hf => h.kept (h₀.page_taken f (hpage f hf))
      page_table := fun f hf =>
        htable f (h₀.page_taken f (hpage f hf)) (h₀.page_table f (hpage f hf))
      page_held := fun f hf => h₀.page_held f (hpage f hf)
      own := fun v w hv hw hpv hpw heq => h₀.own v w hv hw (hpr v hv hpv) (hpr w hw hpw)
        (hheap v hv hpv ▸ hheap w hw hpw ▸ heq) }

end Footprint

/-! ### The promise -/

instance (m : Pmm) : DecidablePred m.Used := fun _ => inferInstanceAs (Decidable (_ ∧ _))

/-- The page of `w` has got an address of the heap that was given out since. -/
def GivenOut (k k' : Kernel Pmm) (w : BitVec 64) : Prop :=
  ∃ a : BitVec 64, k.heapCurrentPtr.toNat ≤ a.toNat ∧ a.toNat < k'.heapCurrentPtr.toNat
    ∧ vpage a = vpage w

/-- The pages taken since. -/
def takenSince (k k' : Kernel Pmm) : Finset ℕ :=
  (Finset.range k'.pmm.totalPages).filter fun i => k'.pmm.Used i ∧ ¬ k.pmm.Used i

/-- **Nothing is left behind**: all pages taken are page tables or lie under blocks of the heap, and
so do all pages mapped. -/
structure Clean (pml4 : Frame) (k k' : Kernel Pmm) : Prop where
  kept : ∀ f : Frame, k.pmm.Used f.toNat → k'.pmm.Used f.toNat
  placed : ∀ f : Frame, k'.pmm.Used f.toNat → k.pmm.Used f.toNat ∨ IsTable k'.mem pml4 f
    ∨ ∃ w t, GivenOut k k' w ∧ mmuWalk k'.mem pml4 w = some t ∧ frameOf t.phys = f
  unmapped : ∀ w t, mmuWalk k'.mem pml4 w = some t →
    mmuWalk k.mem pml4 w = some t ∨ GivenOut k k' w
  /-- `pmm_used_pages()` counts these pages and no others. -/
  count : k'.pmm.usedPages.toNat = k.pmm.usedPages.toNat + (takenSince k k').card

/-- What `pmm_used_pages()` says, if no page was given back that was taken before. -/
lemma usedPages_eq {k k' : Kernel Pmm} (hk : PmmOk k.pmm) (hk' : PmmOk k'.pmm)
    (htotal : k'.pmm.totalPages = k.pmm.totalPages)
    (hkept : ∀ f : Frame, k.pmm.Used f.toNat → k'.pmm.Used f.toNat) :
    k'.pmm.usedPages.toNat = k.pmm.usedPages.toNat + (takenSince k k').card := by
  have hcard : ∀ m : Pmm, Bitmap.count m.bitmap m.totalPages
      = ((Finset.range m.totalPages).filter m.Used).card := by
    intro m
    refine congrArg Finset.card (Finset.filter_congr fun i hi => ?_)
    exact (and_iff_right (Finset.mem_range.mp hi)).symm
  have hunion : (Finset.range k'.pmm.totalPages).filter k'.pmm.Used
      = ((Finset.range k.pmm.totalPages).filter k.pmm.Used) ∪ takenSince k k' := by
    ext i
    simp only [takenSince, Finset.mem_filter, Finset.mem_union, Finset.mem_range, htotal]
    constructor
    · tauto
    · rintro (⟨hi, hu⟩ | ⟨hi, hu, -⟩)
      · have hframe : (BitVec.ofNat 52 i).toNat = i := by
          have hle := hk.total_le
          rw [BitVec.toNat_ofNat]
          omega
        have hu' := hkept (BitVec.ofNat 52 i) (by rwa [hframe])
        rw [hframe] at hu'
        exact ⟨hi, hu'⟩
      · exact ⟨hi, hu⟩
  have hdisj : Disjoint ((Finset.range k.pmm.totalPages).filter k.pmm.Used) (takenSince k k') := by
    refine Finset.disjoint_left.mpr fun i hi hi' => ?_
    exact (Finset.mem_filter.mp hi').2.2 (Finset.mem_filter.mp hi).2
  rw [hk'.run.accounted.used_eq, hk.run.accounted.used_eq, hcard, hcard, hunion,
    Finset.card_union_of_disjoint hdisj]

namespace Footprint

variable {pml4 : Frame} {s₀ s : HeapRun Pmm} {own : Set Frame} {mapped : VPage → Option Pte}
  {f : Frame}

/-- **A page that is held is left behind.** -/
lemma not_clean (h : Footprint pml4 s₀ own mapped s) (hf : f ∈ own) :
    ¬ Clean pml4 s₀.kernel s.kernel := by
  intro hc
  rcases hc.placed f (h.own_used hf) with hu | ht | ⟨w, t, ⟨a, hle, hlt, -⟩, -⟩
  · exact h.own_fresh f hf hu
  · exact h.own_table f hf ht
  · rw [h.ptr] at hlt
    omega

/-- **With no page held and none mapped** nothing is left behind. -/
lemma clean (h : Footprint pml4 s₀ ∅ mapped s)
    (h₀ : VmmOk pmmFrames pml4 s₀.kernel.mem s₀.kernel.pmm)
    (hm : ∀ w e, mapped (vpage w) = some e → e = 0 ∧ pml4Index w ≠ 0) :
    Clean pml4 s₀.kernel s.kernel := by
  refine ⟨fun f hf => h.kept hf, fun f hf => ?_, fun w t ht => Or.inl ?_,
    usedPages_eq h₀.inv h.ok.inv h.total fun f hf => h.kept hf⟩
  · rcases (h.used f).mp hf with hf | hf | hf
    · exact Or.inl hf
    · exact absurd hf (Set.notMem_empty f)
    · exact Or.inr (Or.inl hf)
  · cases hw : mapped (vpage w) with
    | none => exact h.mmuWalk_same h₀.tables hw ▸ ht
    | some e =>
        obtain ⟨rfl, hne⟩ := hm w e hw
        have hleaf := h.leaf w
        rw [hw, Option.getD_some] at hleaf
        rw [h.mmuWalk_eq hne, hleaf, if_neg (show ¬ Present (0 : Pte) from not_present_zero)] at ht
        cases ht

end Footprint

end KiOS
