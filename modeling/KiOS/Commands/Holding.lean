import KiOS.Commands.Aftermath

/-!
Pages in the hands of a command.

* `Holding`: the footprint of a command that holds a list of pages, no page twice;
* `Holding.alloc`, `Holding.free`, `Holding.map`: the calls, in terms of the list;
* `Holding.clean_iff`: pages that a command holds when it returns are left behind;
* `OnlyTaken`: the start of a command, which takes its pages first.
-/

namespace KiOS

open Program Command

/-- The command holds these pages, and no page twice. -/
structure Holding (pml4 : Frame) (s₀ : HeapRun Pmm) (pages : List (BitVec 64))
    (mapped : VPage → Option Pte) (s : HeapRun Pmm) : Prop where
  footprint : Footprint pml4 s₀ {f | f ∈ pages.map frameOf} mapped s
  frames : ∀ p ∈ pages, PageFrame p
  nodup : (pages.map frameOf).Nodup

namespace Holding

variable {pml4 : Frame} {s₀ s : HeapRun Pmm} {pages : List (BitVec 64)} {page : BitVec 64}
  {mapped mapped' : VPage → Option Pte} {i j : ℕ}

lemma nil (h : VmmOk pmmFrames pml4 s.kernel.mem s.kernel.pmm) :
    Holding pml4 s [] (fun _ => none) s where
  footprint := by simpa using Footprint.refl h
  frames := by simp
  nodup := by simp

lemma alloc (h : Holding pml4 s₀ pages mapped s) (hfree : 0 < s.kernel.pmm.freePages) :
    Holding pml4 s₀ (pages ++ [(pmmAlloc s.kernel.pmm).1]) mapped
        (s.withPmm (pmmAlloc s.kernel.pmm).2)
      ∧ (pmmAlloc s.kernel.pmm).1 ≠ 0
      ∧ (pmmAlloc s.kernel.pmm).2.freePages + 1 = s.kernel.pmm.freePages := by
  obtain ⟨hfoot, hframe, hnew, hcount⟩ := h.footprint.alloc hfree
  refine ⟨⟨?_, fun p hp => ?_, ?_⟩, hframe.pos, hcount⟩
  · convert hfoot using 1
    ext f
    simp only [Set.mem_ofPred_eq, List.map_append, List.mem_append, List.map_cons, List.map_nil,
      List.mem_singleton, Set.mem_insert_iff]
    tauto
  · rcases List.mem_append.mp hp with hp | hp
    · exact h.frames p hp
    · exact List.mem_singleton.mp hp ▸ hframe
  · rw [List.map_append, List.map_cons, List.map_nil]
    exact List.nodup_append.mpr ⟨h.nodup, List.nodup_singleton _, fun f hf g hg => by
      rintro rfl
      exact hnew (List.mem_singleton.mp hg ▸ hf)⟩

lemma free (h : Holding pml4 s₀ (page :: pages) mapped s) :
    Holding pml4 s₀ pages mapped (s.withPmm (pmmFree s.kernel.pmm page))
      ∧ (pmmFree s.kernel.pmm page).freePages = s.kernel.pmm.freePages + 1 := by
  have hframe := h.frames page List.mem_cons_self
  obtain ⟨hfoot, hcount⟩ := h.footprint.free hframe List.mem_cons_self
  have hnd := List.nodup_cons.mp h.nodup
  refine ⟨⟨?_, fun p hp => h.frames p (List.mem_cons_of_mem _ hp), hnd.2⟩, hcount⟩
  convert hfoot using 1
  ext f
  simp only [Set.mem_ofPred_eq, List.map_cons, Set.mem_sdiff, List.mem_cons, Set.mem_singleton_iff]
  constructor
  · exact fun hf => ⟨Or.inr hf, fun hff => hnd.1 (hff ▸ hf)⟩
  · tauto

lemma of_footprint (h : Holding pml4 s₀ pages mapped s) {t : HeapRun Pmm}
    (hf : Footprint pml4 s₀ {f | f ∈ pages.map frameOf} mapped' t) :
    Holding pml4 s₀ pages mapped' t :=
  ⟨hf, h.frames, h.nodup⟩

/-- A page is mapped outside the identity map, if no table is missing or one can be had. -/
lemma map (h : Holding pml4 s₀ pages mapped s) {virt : BitVec 64} (phys : BitVec 64)
    (flags : BitVec 32) (hv : pml4Index virt ≠ 0) :
    ∃ err m p, vmmMapPage pmmAlloc pml4 virt phys flags s.kernel.mem s.kernel.pmm = (err, m, p)
      ∧ MapOk pmmFrames pml4 virt phys flags s.kernel.mem s.kernel.pmm err m p
      ∧ Holding pml4 s₀ pages
        (if err = none then Function.update mapped (vpage virt) (some (mapEntry phys flags))
          else mapped) ((s.withMem m).withPmm p) := by
  obtain ⟨err, m, p, heq, hok⟩ := vmmMapPage_spec phys flags h.footprint.ok
    (h.footprint.ok.tables.not_hitsLarge hv)
  have htotal : p.totalPages = s.kernel.pmm.totalPages := by
    have hkeeps : (vmmMapPage pmmAlloc pml4 virt phys flags s.kernel.mem
        s.kernel.pmm).2.2.totalPages = s.kernel.pmm.totalPages :=
      vmmMapPage_keeps (I := fun q => q.totalPages = s.kernel.pmm.totalPages)
        (fun q hq => (pmmAlloc_totalPages q).trans hq) rfl
    rw [show vmmMapPage pmmAlloc pml4 virt phys flags s.kernel.mem s.kernel.pmm = (err, m, p)
      from heq] at hkeeps
    exact hkeeps
  exact ⟨err, m, p, heq, hok, h.of_footprint (h.footprint.map hok htotal)⟩

lemma pageFrame (h : Holding pml4 s₀ pages mapped s) (hi : i < pages.length) :
    PageFrame (pages.getD i 0) := by
  rw [List.getD_eq_getElem _ _ hi]
  exact h.frames _ (List.getElem_mem hi)

/-- Pages that are held are no tables, and are pages of their own. -/
lemma not_isTable (h : Holding pml4 s₀ pages mapped s) (hi : i < pages.length) :
    ¬ IsTable s.kernel.mem pml4 (frameOf (pages.getD i 0)) := by
  rw [List.getD_eq_getElem _ _ hi]
  exact h.footprint.own_table _ (List.mem_map_of_mem (List.getElem_mem hi))

lemma frameOf_inj (h : Holding pml4 s₀ pages mapped s) (hi : i < pages.length)
    (hj : j < pages.length)
    (heq : frameOf (pages.getD i 0) = frameOf (pages.getD j 0)) : i = j := by
  rw [List.getD_eq_getElem _ _ hi, List.getD_eq_getElem _ _ hj] at heq
  have hi' : i < (pages.map frameOf).length := by simpa
  have hj' : j < (pages.map frameOf).length := by simpa
  have heq' : (pages.map frameOf)[i] = (pages.map frameOf)[j] := by simpa using heq
  exact h.nodup.getElem_inj_iff.mp heq'

/-- Pages in the hands of a command that returns are left behind. -/
lemma clean_iff (h : Holding pml4 s₀ pages (fun _ => none) s)
    (h₀ : VmmOk pmmFrames pml4 s₀.kernel.mem s₀.kernel.pmm) :
    Clean pml4 s₀.kernel s.kernel ↔ pages = [] := by
  cases pages with
  | nil =>
      have hempty : {f | f ∈ ([] : List (BitVec 64)).map frameOf} = ∅ := by simp
      exact iff_of_true ((hempty ▸ h.footprint).clean h₀ (by simp)) rfl
  | cons page pages => exact iff_of_false (h.footprint.not_clean List.mem_cons_self) (by simp)

end Holding

/-- A command has taken pages and done nothing else. -/
structure OnlyTaken (pml4 : Frame) (s₀ : HeapRun Pmm) (pages : List (BitVec 64))
    (s : HeapRun Pmm) : Prop where
  holding : Holding pml4 s₀ pages (fun _ => none) s
  free : s.kernel.pmm.freePages + pages.length = s₀.kernel.pmm.freePages
  mem : s.kernel.mem = s₀.kernel.mem

namespace OnlyTaken

variable {pml4 : Frame} {s₀ s : HeapRun Pmm} {E : CommandStop → HeapRun Pmm → Prop}

lemma nil (h : VmmOk pmmFrames pml4 s.kernel.mem s.kernel.pmm) : OnlyTaken pml4 s [] s :=
  ⟨Holding.nil h, rfl, rfl⟩

variable (pml4 s₀) in
/-- The next call of `pmm_alloc_page` returns a page, or all pages have been taken. -/
lemma alloc_triple (pages : List (BitVec 64)) :
    Triple (OnlyTaken pml4 s₀ pages) allocPage
      (fun page s => (page = 0 → OnlyTaken pml4 s₀ pages s ∧ pages.length = s₀.kernel.pmm.freePages)
        ∧ (page ≠ 0 → OnlyTaken pml4 s₀ (pages ++ [page]) s)) E := by
  refine Triple.step fun s hs => ?_
  have hfree := hs.free
  dsimp only
  rcases Nat.eq_zero_or_pos s.kernel.pmm.freePages with hz | hpos
  · have hnull : pmmAlloc s.kernel.pmm = (0, s.kernel.pmm) :=
      pmmFrames.alloc_zero _ hs.holding.footprint.ok.inv hz
    rw [hnull]
    exact ⟨fun _ => ⟨hs, by omega⟩, fun hne => absurd rfl hne⟩
  · obtain ⟨hs', hne, hcount⟩ := hs.holding.alloc hpos
    refine ⟨fun h0 => absurd h0 hne, fun _ => ⟨hs', ?_, hs.mem⟩⟩
    simp only [HeapRun.withPmm, List.length_append, List.length_singleton]
    omega

end OnlyTaken

end KiOS
