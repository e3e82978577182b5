import KiOS.Mm.HeapBounds
import KiOS.Mm.HeapLoop
import KiOS.Mm.PmmFrames

/-!
Every block of `kmalloc` is backed, or there is none.

* `kernelMachine`: the memory management of the running kernel: `kmalloc`, and whatever others
  do with the PMM, with pages outside the heap and with memory that is no page table;
* `KmallocBacked`: what a call owes when pages run out: the pages of the block are mapped, or NULL
  is returned and nothing is lost;
* `Served`: the condition: the free pages suffice, or run out just before a page for the heap;
* `kmalloc_backed`: in every state reached a call keeps its promise exactly under the condition;
* `kmalloc_unbacked`: with one page left the first call of all returns memory that is not there.
-/

namespace KiOS

/-! ### The pages of a call -/

section

variable {start size page w : BitVec 64}

lemma toNat_pageMask (x : BitVec 64) :
    (x &&& ~~~(0xFFF : BitVec 64)).toNat = x.toNat / 4096 * 4096 :=
  BitVec.toNat_alignDown (k := 12)

/-- The `i`-th page of a call. -/
lemma toNat_heapPage (hstart : InHeap start) {i : ℕ} (hi : i < 0x2000) :
    ((start &&& ~~~(0xFFF : BitVec 64)) + BitVec.ofNat 64 (i * 0x1000)).toNat
      = start.toNat / 4096 * 4096 + i * 4096 := by
  have hnum : heapStart.toNat = 0xFFFF800000000000 := rfl
  have hsize : heapSize.toNat = 0x1000000 := rfl
  have hhigh := hstart.2
  have hi' : (BitVec.ofNat 64 (i * 0x1000)).toNat = i * 4096 := by
    rw [BitVec.toNat_ofNat]
    omega
  rw [BitVec.toNat_add_of_lt (by rw [toNat_pageMask, hi']; omega), toNat_pageMask, hi']

/-- How many pages a call goes through. -/
lemma heapPages_eq (hend : start.toNat + size.toNat < heapStart.toNat + heapSize.toNat) :
    heapPages start size
      = (List.range ((start.toNat + size.toNat + 4095) / 4096 - start.toNat / 4096)).map
        fun i => (start &&& ~~~(0xFFF : BitVec 64)) + BitVec.ofNat 64 (i * 0x1000) := by
  have hnum : heapStart.toNat = 0xFFFF800000000000 := rfl
  have hsize : heapSize.toNat = 0x1000000 := rfl
  have hmask : (0xFFF : BitVec 64).toNat = 0xFFF := rfl
  have hadd : (start + size).toNat = start.toNat + size.toNat :=
    BitVec.toNat_add_of_lt (by omega)
  have hsum : (start + size + 0xFFF).toNat = start.toNat + size.toNat + 0xFFF := by
    rw [BitVec.toNat_add_of_lt (by rw [hadd, hmask]; omega), hadd, hmask]
  have hlen : ((start.toNat + size.toNat + 0xFFF) / 4096 * 4096 - start.toNat / 4096 * 4096
      + 0xFFF) / 0x1000 = (start.toNat + size.toNat + 4095) / 4096 - start.toNat / 4096 := by
    omega
  simp only [heapPages, pagesBelow, toNat_pageMask, hsum, hlen]

/-- The pages of a call overlap what it reserves, and no others. -/
lemma mem_heapPages (hstart : InHeap start)
    (hend : start.toNat + size.toNat < heapStart.toNat + heapSize.toNat) :
    page ∈ heapPages start size ↔ page.toNat % 4096 = 0
      ∧ start.toNat / 4096 ≤ page.toNat / 4096
      ∧ page.toNat / 4096 < (start.toNat + size.toNat + 4095) / 4096 := by
  have hnum : heapStart.toNat = 0xFFFF800000000000 := rfl
  have hsize : heapSize.toNat = 0x1000000 := rfl
  have hlow := hstart.1
  simp only [heapPages_eq hend, List.mem_map, List.mem_range]
  constructor
  · rintro ⟨i, hi, rfl⟩
    rw [toNat_heapPage hstart (by omega)]
    omega
  · rintro ⟨hal, hge, hlt⟩
    refine ⟨page.toNat / 4096 - start.toNat / 4096, by omega, BitVec.eq_of_toNat_eq ?_⟩
    rw [toNat_heapPage hstart (by omega)]
    omega

lemma heapPages_inHeap (hstart : InHeap start)
    (hend : start.toNat + size.toNat < heapStart.toNat + heapSize.toNat)
    (hp : page ∈ heapPages start size) : InHeap page := by
  have hnum : heapStart.toNat = 0xFFFF800000000000 := rfl
  have hsize : heapSize.toNat = 0x1000000 := rfl
  have hlow := hstart.1
  obtain ⟨hal, hge, hlt⟩ := (mem_heapPages hstart hend).mp hp
  exact ⟨by omega, by omega⟩

/-- No page is gone through twice. -/
lemma heapPages_pairwise (hstart : InHeap start)
    (hend : start.toNat + size.toNat < heapStart.toNat + heapSize.toNat) :
    (heapPages start size).Pairwise fun v w => vpage v ≠ vpage w := by
  have hnum : heapStart.toNat = 0xFFFF800000000000 := rfl
  have hsize : heapSize.toNat = 0x1000000 := rfl
  have hlow := hstart.1
  have hin : ∀ p ∈ heapPages start size, InHeap p := fun p hp => heapPages_inHeap hstart hend hp
  rw [heapPages_eq hend] at hin ⊢
  rw [List.pairwise_map]
  refine List.Pairwise.imp_of_mem (fun {i j} hi hj hij heq => ?_) List.pairwise_lt_range
  have hci := (hin _ (List.mem_map_of_mem hi)).canonical
  have hcj := (hin _ (List.mem_map_of_mem hj)).canonical
  rw [List.mem_range] at hi hj
  rw [vpage_eq_iff_of_canonical hci hcj, toNat_heapPage hstart (by omega),
    toNat_heapPage hstart (by omega)] at heq
  omega

/-- An address of the block lies in one of its pages. -/
lemma exists_heapPage (hstart : InHeap start)
    (hend : start.toNat + size.toNat < heapStart.toNat + heapSize.toNat)
    (hw : start.toNat ≤ w.toNat ∧ w.toNat < start.toNat + size.toNat) :
    ∃ page ∈ heapPages start size, vpage w = vpage page := by
  have hnum : heapStart.toNat = 0xFFFF800000000000 := rfl
  have hlow := hstart.1
  have hpage : (w &&& ~~~(0xFFF : BitVec 64)) ∈ heapPages start size := by
    rw [mem_heapPages hstart hend, toNat_pageMask]
    omega
  have hc : InHeap w := ⟨by omega, by omega⟩
  refine ⟨_, hpage, ?_⟩
  rw [vpage_eq_iff_of_canonical hc.canonical (heapPages_inHeap hstart hend hpage).canonical,
    toNat_pageMask]
  omega

end

/-! ### Runs of the kernel -/

/-- The kernel with the blocks of the heap and the pages that others hold. -/
structure KernelRun extends HeapRun Pmm where
  /-- The pages others got from `pmm_alloc_page` and did not return. -/
  held : Finset (BitVec 64)

inductive KernelEvent where
  | kmalloc (size : BitVec 64)
  | allocPage
  | freePage (phys : BitVec 64)
  | mapPage (virt phys : BitVec 64) (flags : BitVec 32)
  | unmapPage (virt : BitVec 64)
  | store (frame : Frame) (idx : Idx) (value : BitVec 64)

/-- A page outside the heap whose walk meets no large page. -/
def MapsElsewhere (pml4 : Frame) (m : PhysMem) (virt : BitVec 64) : Prop :=
  (∀ w, InHeap w → vpage w ≠ vpage virt) ∧ ¬ HitsLarge m pml4 virt

/-- Runs of the kernel: others free what they hold, leave the heap alone and do not write page
tables. -/
def kernelMachine (pml4 : Frame) : EventMachine KernelRun KernelEvent where
  admissible s
    | .kmalloc size => SizeFits s.kernel size
    | .allocPage => True
    | .freePage phys => phys ∈ s.held
    | .mapPage virt _ _ => MapsElsewhere pml4 s.kernel.mem virt
    | .unmapPage virt => MapsElsewhere pml4 s.kernel.mem virt
    | .store frame _ _ => ¬ IsTable s.kernel.mem pml4 frame
  step s
    | .kmalloc size =>
        let r := kmalloc pmmAlloc pml4 size s.kernel
        some
          { s with
            kernel := r.2
            blocks := if r.1 = 0 then s.blocks else s.blocks ++ [⟨r.1, size⟩] }
    | .allocPage =>
        let r := pmmAlloc s.kernel.pmm
        some
          { s with
            kernel := { s.kernel with pmm := r.2 }
            held := if r.1 = 0 then s.held else insert r.1 s.held }
    | .freePage phys =>
        some
          { s with
            kernel := { s.kernel with pmm := pmmFree s.kernel.pmm phys }
            held := s.held.erase phys }
    | .mapPage virt phys flags =>
        let r := vmmMapPage pmmAlloc pml4 virt phys flags s.kernel.mem s.kernel.pmm
        some { s with kernel := { s.kernel with mem := r.2.1, pmm := r.2.2 } }
    | .unmapPage virt =>
        some { s with kernel := { s.kernel with mem := vmmUnmapPage pml4 virt s.kernel.mem } }
    | .store frame idx value =>
        some { s with kernel := { s.kernel with mem := s.kernel.mem.store frame idx value } }

/-- An address of the heap is mapped for writing to a page of its own. -/
def Backed (pml4 : Frame) (s : KernelRun) (k : Kernel Pmm) (w : BitVec 64) : Prop :=
  ∃ t, mmuWalk k.mem pml4 w = some t ∧ t.write = true
    ∧ k.pmm.Used (frameOf t.phys).toNat
    ∧ ¬ IsTable k.mem pml4 (frameOf t.phys)
    ∧ (∀ phys ∈ s.held, frameOf phys ≠ frameOf t.phys)
    ∧ ∀ v u, InHeap v → mmuWalk k.mem pml4 v = some u → frameOf u.phys = frameOf t.phys →
      vpage v = vpage w

/-- The number of free pages. -/
def Pmm.freePages (m : Pmm) : ℕ := m.totalPages - m.usedPages.toNat

/-- The pages that `kmalloc(size)` has to map. -/
def neededPages (pml4 : Frame) (k : Kernel Pmm) (size : BitVec 64) : List (BitVec 64) :=
  unmapped k.mem pml4 (heapPages k.heapCurrentPtr (roundUp16 size))

/-- What `kmalloc(size)` owes when it returns `p` and leaves `k'`. -/
structure KmallocBacked (pml4 : Frame) (s : KernelRun) (size p : BitVec 64) (k' : Kernel Pmm) :
    Prop where
  /-- A block has all its pages. -/
  backed : p ≠ 0 → ∀ w, p.toNat ≤ w.toNat → w.toNat < p.toNat + size.toNat → Backed pml4 s k' w
  /-- If not all pages and tables can be had, there is no block. -/
  refused : s.kernel.pmm.freePages
      < heapDemand (knownTables s.kernel.mem pml4) (neededPages pml4 s.kernel size) → p = 0
  /-- Without a block the heap is where it was. -/
  unchanged : p = 0 → k'.heapCurrentPtr = s.kernel.heapCurrentPtr
    ∧ k'.heapTotalAlloc = s.kernel.heapTotalAlloc
  /-- The blocks returned before stay mapped as they are. -/
  keeps : ∀ b ∈ s.blocks, ∀ w, b.addr.toNat ≤ w.toNat → w.toNat < b.addr.toNat + b.size.toNat →
    ∀ t, mmuWalk s.kernel.mem pml4 w = some t → mmuWalk k'.mem pml4 w = some t
  /-- A page the call took is a page table or mapped in the heap. -/
  placed : ∀ f : Frame, k'.pmm.Used f.toNat → s.kernel.pmm.Used f.toNat ∨ Placed k'.mem pml4 f

/-- The condition: the heap has no room, or the free pages suffice, or they run out just before a
page for the heap. -/
def Served (pml4 : Frame) (k : Kernel Pmm) (size : BitVec 64) : Prop :=
  heapStart + heapSize ≤ k.heapCurrentPtr + roundUp16 size
    ∨ heapOutcome (knownTables k.mem pml4) (neededPages pml4 k size) k.pmm.freePages = .backed
    ∨ heapOutcome (knownTables k.mem pml4) (neededPages pml4 k size) k.pmm.freePages = .refused

instance (pml4 : Frame) (k : Kernel Pmm) (size : BitVec 64) : Decidable (Served pml4 k size) :=
  inferInstanceAs (Decidable (_ ∨ _))

/-- The frames that others hold. -/
def KernelRun.heldFrames (s : KernelRun) : Set Frame := {f | ∃ phys ∈ s.held, frameOf phys = f}

/-- The invariant of a run. -/
structure KernelRun.Inv (pml4 : Frame) (s : KernelRun) : Prop where
  bounds : s.toHeapRun.BoundsInv
  blocks_start : ∀ b ∈ s.blocks, heapStart.toNat ≤ b.addr.toNat
  ledger : Ledger pmmFrames pml4 s.heldFrames s.kernel.mem s.kernel.pmm
  held_aligned : ∀ phys ∈ s.held, phys.toNat % 4096 = 0
  held_pos : ∀ phys ∈ s.held, 0 < phys.toNat / 4096

/-- A held page given back to the PMM. -/
lemma Ledger.freePage {pml4 : Frame} {held : Set Frame} {m : PhysMem} {p : Pmm}
    {phys : BitVec 64} (h : Ledger pmmFrames pml4 held m p) (hf : frameOf phys ∈ held)
    (hal : phys.toNat % 4096 = 0) (hpos : 0 < phys.toNat / 4096) :
    Ledger pmmFrames pml4 (held \ {frameOf phys}) m (pmmFree p phys) := by
  have hused : p.Used (frameOf phys).toNat := h.held_taken _ hf
  rw [toNat_frameOf] at hused
  obtain ⟨hok, hiff⟩ := h.ok.inv.freePage hal hpos hused
  refine h.release hok hf fun g => (hiff g.toNat).trans (and_congr_right fun _ => not_congr ?_)
  rw [← BitVec.toNat_inj, toNat_frameOf]

namespace KernelRun.Inv

variable {pml4 : Frame} {s u : KernelRun} {size : BitVec 64} {e : KernelEvent}

/-- What a call of `kmalloc` that passes the limit check does. -/
lemma loop (h : s.Inv pml4) (hfit : SizeFits s.kernel size) (h0 : size ≠ 0)
    (hlimit : s.kernel.heapCurrentPtr + roundUp16 size < heapStart + heapSize) :
    ∃ ok m p, mapHeapPages pmmAlloc pml4 (heapPages s.kernel.heapCurrentPtr (roundUp16 size))
        s.kernel.mem s.kernel.pmm = (ok, m, p)
      ∧ LoopOk pmmFrames pml4 s.heldFrames (heapPages s.kernel.heapCurrentPtr (roundUp16 size))
        s.kernel.mem s.kernel.pmm (heapOutcome (knownTables s.kernel.mem pml4)
          (neededPages pml4 s.kernel size) s.kernel.pmm.freePages) ok m p := by
  have hstart : InHeap s.kernel.heapCurrentPtr := ⟨h.bounds.start_le, h.bounds.lt_end⟩
  have hend : s.kernel.heapCurrentPtr.toNat + (roundUp16 size).toNat
      < heapStart.toNat + heapSize.toNat := h.bounds.reserved_lt (hfit.resolve_left h0) hlimit
  exact mapHeapPages_spec h.ledger (fun _ hp => heapPages_inHeap hstart hend hp)
    (heapPages_pairwise hstart hend) fun _ _ => rfl

/-- A call that passes the limit check, with what its loop did. -/
lemma kmalloc_eq (h : s.Inv pml4) (hfit : SizeFits s.kernel size) (h0 : size ≠ 0)
    (hlimit : s.kernel.heapCurrentPtr + roundUp16 size < heapStart + heapSize) :
    ∃ ok, LoopOk pmmFrames pml4 s.heldFrames (heapPages s.kernel.heapCurrentPtr (roundUp16 size))
        s.kernel.mem s.kernel.pmm (heapOutcome (knownTables s.kernel.mem pml4)
          (neededPages pml4 s.kernel size) s.kernel.pmm.freePages) ok
        (kmalloc pmmAlloc pml4 size s.kernel).2.mem (kmalloc pmmAlloc pml4 size s.kernel).2.pmm
      ∧ (ok = true → (kmalloc pmmAlloc pml4 size s.kernel).1 = s.kernel.heapCurrentPtr)
      ∧ (ok = false → (kmalloc pmmAlloc pml4 size s.kernel).1 = 0) := by
  obtain ⟨ok, m, p, hmap, hok⟩ := h.loop hfit h0 hlimit
  rcases kmalloc_cases pmmAlloc pml4 size s.kernel with
    ⟨hor, -⟩ | ⟨-, -, ok', m', p', hmap', heq⟩
  · rcases hor with hor | hor
    · exact absurd hor h0
    · exact absurd hlimit (BitVec.not_lt.mpr hor)
  · rw [hmap] at hmap'
    obtain ⟨rfl, rfl, rfl⟩ : ok = ok' ∧ m = m' ∧ p = p' := by simpa using hmap'
    refine ⟨ok, ?_, fun ho => ?_, fun ho => ?_⟩ <;> rw [heq]
    · cases ok <;> exact hok
    · subst ho
      rfl
    · subst ho
      rfl

/-- The addresses of the blocks lie in the heap. -/
lemma inHeap_of_block (h : s.Inv pml4) {b : Block} (hb : b ∈ s.blocks) {w : BitVec 64}
    (hge : b.addr.toNat ≤ w.toNat) (hlt : w.toNat < b.addr.toNat + b.size.toNat) : InHeap w := by
  have h1 := h.blocks_start b hb
  have h2 := h.bounds.below b hb
  have h3 := h.bounds.lt_end
  exact ⟨by omega, by omega⟩

/-- A page that the loop left mapped is backed. -/
lemma backed_of_present {k : Kernel Pmm}
    (h : Ledger pmmFrames pml4 s.heldFrames k.mem k.pmm) {w : BitVec 64} (hw : InHeap w)
    (hp : Present (leafAt k.mem pml4 w)) : Backed pml4 s k w := by
  have hwalk := h.mmuWalk_eq hw
  rw [if_pos hp] at hwalk
  obtain ⟨-, hframe, hwrite⟩ := h.frameOf_phys hw hwalk
  have hpage : IsHeapPage k.mem pml4 (frameOf (leafAt k.mem pml4 w)) := ⟨w, hw, hp, rfl⟩
  refine ⟨_, hwalk, ?_, ?_, ?_, fun phys hphys heq => ?_, fun v u hv hu heq => ?_⟩
  · rw [hwrite, decide_eq_true_eq]
    exact h.page_writable w hw hp
  · rw [hframe]
    exact h.page_taken _ hpage
  · rw [hframe]
    exact h.page_table _ hpage
  · exact h.page_held _ hpage ⟨phys, hphys, heq.trans hframe⟩
  · obtain ⟨hpv, hframev, -⟩ := h.frameOf_phys hv hu
    exact h.own v w hv hw hpv hp (by rw [← hframev, ← hframe, heq])

/-- **One call** keeps its promise exactly under the condition. -/
lemma kmallocBacked_iff (h : s.Inv pml4) (hfit : SizeFits s.kernel size) (h0 : size ≠ 0) :
    KmallocBacked pml4 s size (kmalloc pmmAlloc pml4 size s.kernel).1
      (kmalloc pmmAlloc pml4 size s.kernel).2 ↔ Served pml4 s.kernel size := by
  by_cases hlimit : heapStart + heapSize ≤ s.kernel.heapCurrentPtr + roundUp16 size
  · have heq : kmalloc pmmAlloc pml4 size s.kernel = (0, s.kernel) := by
      rw [kmalloc, if_neg h0, if_pos hlimit]
    rw [heq]
    exact iff_of_true ⟨by simp, fun _ => rfl, fun _ => ⟨rfl, rfl⟩, fun _ _ _ _ _ _ ht => ht,
      fun _ hf => Or.inl hf⟩ (Or.inl hlimit)
  have hpass := BitVec.not_le.mp hlimit
  obtain ⟨ok, hok, htrue, hfalse⟩ := h.kmalloc_eq hfit h0 hpass
  constructor
  · intro hb
    by_contra hn
    have hlost : heapOutcome (knownTables s.kernel.mem pml4) (neededPages pml4 s.kernel size)
          s.kernel.pmm.freePages = .lost
        ∨ heapOutcome (knownTables s.kernel.mem pml4) (neededPages pml4 s.kernel size)
          s.kernel.pmm.freePages = .unbacked := by
      unfold Served at hn
      cases hout : heapOutcome (knownTables s.kernel.mem pml4) (neededPages pml4 s.kernel size)
        s.kernel.pmm.freePages <;> simp_all
    obtain ⟨f, hf, hnf, hnp⟩ := hok.lost hlost
    rcases hb.placed f hf with hf' | hf'
    · exact hnf hf'
    · exact hnp hf'
  · intro hs
    have hout := hs.resolve_left hlimit
    have hbacked : (kmalloc pmmAlloc pml4 size s.kernel).1 ≠ 0 →
        heapOutcome (knownTables s.kernel.mem pml4) (neededPages pml4 s.kernel size)
          s.kernel.pmm.freePages = .backed := by
      intro hp
      have htrue' : ok = true := by
        by_contra hn
        exact hp (hfalse (by simpa using hn))
      rcases hok.ok_iff.mp htrue' with ho | ho
      · exact ho
      · rcases hout with ho' | ho' <;> rw [ho] at ho' <;> cases ho'
    refine ⟨fun hp w hge hlt => ?_, fun hshort => ?_, fun hp => ?_, fun b hb w hge hlt t ht => ?_,
      fun f hf => hok.placed hout f hf⟩
    · have hok' := hok.ok_iff.mpr (Or.inl (hbacked hp))
      rw [htrue hok'] at hge hlt
      obtain ⟨hround, -⟩ := h.bounds.toNat_advance (hfit.resolve_left h0)
      have hstart : InHeap s.kernel.heapCurrentPtr := ⟨h.bounds.start_le, h.bounds.lt_end⟩
      have hend := h.bounds.reserved_lt (hfit.resolve_left h0) hpass
      obtain ⟨page, hpage, hwp⟩ := exists_heapPage hstart hend (w := w) ⟨hge, by omega⟩
      have hleaf : leafAt (kmalloc pmmAlloc pml4 size s.kernel).2.mem pml4 w
          = leafAt (kmalloc pmmAlloc pml4 size s.kernel).2.mem pml4 page := by
        obtain ⟨h1, h2⟩ := vpage_eq_iff.mp hwp
        rw [leafAt, leafAt, h1, h2]
      have hw : InHeap w := ⟨by have := hstart.1; omega, by omega⟩
      exact backed_of_present hok.ledger hw (hleaf ▸ hok.present (hbacked hp) page hpage)
    · by_contra hp
      have := (heapOutcome_eq_backed _ _ _).mp (hbacked hp)
      omega
    · rcases kmalloc_bump pmmAlloc pml4 size s.kernel with
        ⟨-, hptr, htotal⟩ | ⟨-, -, hp', -⟩
      · exact ⟨hptr, htotal⟩
      · exact absurd (hp'.symm.trans hp) h.bounds.ne_zero
    · have hw := h.inHeap_of_block hb hge hlt
      obtain ⟨hpr, -⟩ := h.ledger.frameOf_phys hw ht
      rw [hok.ledger.mmuWalk_eq hw, hok.keeps w hpr, ← h.ledger.mmuWalk_eq hw]
      exact ht

/-! ### The steps -/

lemma of_held {held : Finset (BitVec 64)} {k : Kernel Pmm} (h : s.Inv pml4)
    (hptr : k.heapCurrentPtr = s.kernel.heapCurrentPtr)
    (hledger : Ledger pmmFrames pml4 {f | ∃ phys ∈ held, frameOf phys = f} k.mem k.pmm)
    (hal : ∀ phys ∈ held, phys.toNat % 4096 = 0) (hpos : ∀ phys ∈ held, 0 < phys.toNat / 4096) :
    KernelRun.Inv pml4 { s with kernel := k, held := held } :=
  ⟨⟨hptr ▸ h.bounds.start_le, hptr ▸ h.bounds.lt_end, hptr ▸ h.bounds.aligned,
    fun b hb => hptr ▸ h.bounds.below b hb⟩, h.blocks_start, hledger, hal, hpos⟩

lemma step_kmalloc (h : s.Inv pml4) (hfit : SizeFits s.kernel size)
    (hst : (kernelMachine pml4).step s (.kmalloc size) = some u) : u.Inv pml4 := by
  have hledger : Ledger pmmFrames pml4 s.heldFrames (kmalloc pmmAlloc pml4 size s.kernel).2.mem
      (kmalloc pmmAlloc pml4 size s.kernel).2.pmm := by
    rcases kmalloc_cases pmmAlloc pml4 size s.kernel with
      ⟨-, heq⟩ | ⟨h0, hlimit, -⟩
    · rw [heq]
      exact h.ledger
    · obtain ⟨ok, hok, -⟩ := h.kmalloc_eq hfit h0 hlimit
      exact hok.ledger
  have hbounds := h.bounds.step pmmAlloc pml4 (e := .kmalloc size)
    ⟨trivial, hfit⟩ rfl
  have hb := h.bounds.kmallocBounds pmmAlloc pml4 hfit
  simp only [kernelMachine, Option.some.injEq] at hst
  subst hst
  refine ⟨hbounds, fun b hmem => ?_, hledger, h.held_aligned, h.held_pos⟩
  dsimp only at hmem
  split_ifs at hmem with hp
  · exact h.blocks_start b hmem
  · rcases List.mem_append.mp hmem with hmem | hmem
    · exact h.blocks_start b hmem
    · rw [List.mem_singleton.mp hmem]
      exact (hb.inside hp).1

lemma step_allocPage (h : s.Inv pml4) (hst : (kernelMachine pml4).step s .allocPage = some u) :
    u.Inv pml4 := by
  have hinv := h.ledger.ok.inv
  simp only [kernelMachine, Option.some.injEq] at hst
  subst hst
  rcases Nat.eq_zero_or_pos (pmmFrames.free s.kernel.pmm) with hz | hfree
  · have heq : pmmAlloc s.kernel.pmm = (0, s.kernel.pmm) := pmmFrames.alloc_zero _ hinv hz
    rw [heq]
    exact h.of_held rfl h.ledger h.held_aligned h.held_pos
  · have hne : (pmmAlloc s.kernel.pmm).1 ≠ 0 := pmmFrames.alloc_ne_zero _ hinv hfree
    have hal : (pmmAlloc s.kernel.pmm).1.toNat % 4096 = 0 := pmmFrames.alloc_aligned _ hinv hfree
    rw [if_neg hne]
    refine h.of_held rfl ((h.ledger.alloc hfree).mono ?_) ?_ ?_
    · rintro f ⟨phys, hphys, rfl⟩
      rcases Finset.mem_insert.mp hphys with rfl | hphys
      · exact Or.inl rfl
      · exact Or.inr ⟨phys, hphys, rfl⟩
    · exact Finset.forall_mem_insert _ _ _ |>.mpr ⟨hal, h.held_aligned⟩
    · refine Finset.forall_mem_insert _ _ _ |>.mpr ⟨?_, h.held_pos⟩
      by_contra hn
      exact hne (BitVec.eq_of_toNat_eq (by simp; omega))

lemma step_freePage (h : s.Inv pml4) {phys : BitVec 64} (hmem : phys ∈ s.held)
    (hst : (kernelMachine pml4).step s (.freePage phys) = some u) : u.Inv pml4 := by
  have hal := h.held_aligned phys hmem
  have hfree := h.ledger.freePage ⟨phys, hmem, rfl⟩ hal (h.held_pos phys hmem)
  simp only [kernelMachine, Option.some.injEq] at hst
  subst hst
  refine h.of_held rfl (hfree.mono ?_) (fun p hp => h.held_aligned p (Finset.mem_of_mem_erase hp))
    (fun p hp => h.held_pos p (Finset.mem_of_mem_erase hp))
  rintro f ⟨p, hp, rfl⟩
  refine ⟨⟨p, Finset.mem_of_mem_erase hp, rfl⟩, fun heq => Finset.ne_of_mem_erase hp ?_⟩
  -- two pages with one frame are one page
  have hdiv : p.toNat / 4096 = phys.toNat / 4096 := by
    rw [← toNat_frameOf, ← toNat_frameOf, Set.mem_singleton_iff.mp heq]
  have hal' := h.held_aligned p (Finset.mem_of_mem_erase hp)
  exact BitVec.eq_of_toNat_eq (by omega)

lemma step (h : s.Inv pml4) (hadm : (kernelMachine pml4).admissible s e)
    (hst : (kernelMachine pml4).step s e = some u) : u.Inv pml4 := by
  cases e with
  | kmalloc size => exact h.step_kmalloc hadm hst
  | allocPage => exact h.step_allocPage hst
  | freePage phys => exact h.step_freePage hadm hst
  | mapPage virt phys flags =>
      obtain ⟨err, m', s', heq, hok⟩ := vmmMapPage_spec phys flags
        h.ledger.ok hadm.2
      simp only [kernelMachine, Option.some.injEq] at hst
      subst hst
      have hmap : vmmMapPage pmmAlloc pml4 virt phys flags s.kernel.mem s.kernel.pmm
          = (err, m', s') := heq
      rw [hmap]
      exact h.of_held rfl (h.ledger.map hok fun _ => hadm.1) h.held_aligned h.held_pos
  | unmapPage virt =>
      simp only [kernelMachine, Option.some.injEq] at hst
      subst hst
      exact h.of_held rfl (h.ledger.unmap hadm.2) h.held_aligned h.held_pos
  | store frame idx value =>
      simp only [kernelMachine, Option.some.injEq] at hst
      subst hst
      exact h.of_held rfl (h.ledger.store hadm) h.held_aligned h.held_pos

end KernelRun.Inv

/-- The kernel after `pmm_init` and `heap_init`, over the tables of stage 2. -/
def bootKernel (pml4Table : BitVec 32) (ram : PhysMem) (pmm : Pmm) : KernelRun where
  kernel := heapInit ⟨setupPaging pml4Table ram, pmm, 0, 0⟩
  blocks := []
  held := ∅

lemma bootKernel_mem (pml4Table : BitVec 32) (ram : PhysMem) (pmm : Pmm) :
    (bootKernel pml4Table ram pmm).kernel.mem = setupPaging pml4Table ram := by
  rw [bootKernel, heapInit]

/-- The ledger at boot: the three tables of stage 2, and nothing in the heap. -/
lemma ledger_boot {entries : List MemoryMapEntry} {kernelEnd : BitVec 64} {pml4Table : BitVec 32}
    {pmm : Pmm} (hmap : KernelMap entries kernelEnd) (htotal : pageTotal entries ≤ 2 ^ 40)
    (hpmm : pmmInit entries 0x100000 kernelEnd = some pmm) (hboot : Stage2Tables pml4Table)
    (ram : PhysMem) :
    Ledger pmmFrames (bootPml4 pml4Table) ∅ (setupPaging pml4Table ram) pmm := by
  obtain ⟨pmm', hpmm', hacc, htot, hbits⟩ := pmmInit_spec hmap
  rw [hpmm, Option.some.injEq] at hpmm'
  subst hpmm'
  have hpos := hmap.lt_pageTotal
  have hinv : PmmOk pmm := ⟨PmmRun.Inv.init hmap hpmm, by omega⟩
  have hleaf : ∀ w, InHeap w → leafAt (setupPaging pml4Table ram) (bootPml4 pml4Table) w = 0 := by
    intro w hw
    rw [leafAt, hboot.entryAt_eq ram (by simp [tablePath])]
    simp [Stage2Tables.bootSlot, tablePath]
  have hnone : ∀ w, InHeap w →
      ¬ Present (leafAt (setupPaging pml4Table ram) (bootPml4 pml4Table) w) := by
    intro w hw
    rw [hleaf w hw]
    exact not_present_zero
  have hnopage : ∀ f, ¬ IsHeapPage (setupPaging pml4Table ram) (bootPml4 pml4Table) f := by
    rintro f ⟨w, hw, hp, -⟩
    exact hnone w hw hp
  exact
    { ok := ⟨hboot.tables ram, hinv, fun q f hq hf => by
        have hlow := hboot.apart ram hq hf
        exact ⟨by omega, (hbits _ (by omega)).mpr (Or.inr (Or.inl hlow))⟩⟩
      held_taken := fun f hf => absurd hf (Set.notMem_empty f)
      held_table := fun f hf => absurd hf (Set.notMem_empty f)
      page_writable := fun w hw hp => absurd hp (hnone w hw)
      page_ne_zero := fun w hw hp => absurd hp (hnone w hw)
      page_low := fun w hw hp => absurd hp (hnone w hw)
      page_taken := fun f hf => absurd hf (hnopage f)
      page_table := fun f hf => absurd hf (hnopage f)
      page_held := fun f hf => absurd hf (hnopage f)
      own := fun v w hv _ hp => absurd hp (hnone v hv) }

/-- The kernel after boot. -/
lemma KernelRun.Inv.boot {entries : List MemoryMapEntry} {kernelEnd : BitVec 64}
    {pml4Table : BitVec 32} {pmm : Pmm} (hmap : KernelMap entries kernelEnd)
    (htotal : pageTotal entries ≤ 2 ^ 40) (hpmm : pmmInit entries 0x100000 kernelEnd = some pmm)
    (hboot : Stage2Tables pml4Table) (ram : PhysMem) :
    (bootKernel pml4Table ram pmm).Inv (bootPml4 pml4Table) := by
  refine ⟨⟨le_rfl, ?_, ?_, by simp [bootKernel]⟩, by simp [bootKernel], ?_, by simp [bootKernel],
    by simp [bootKernel]⟩
  · simp only [bootKernel, heapInit]
    decide
  · simp only [bootKernel, heapInit]
    decide
  · rw [bootKernel_mem]
    exact (ledger_boot hmap htotal hpmm hboot ram).mono (by simp [KernelRun.heldFrames, bootKernel])

/-- **Every block is backed, or there is none**: in every state the kernel can reach, whatever
pages are free and whatever tables have been built, a call of `kmalloc` keeps its promise exactly
if the free pages suffice, or run out in front of a page for the heap and not in front of a
table. -/
theorem kmalloc_backed {entries : List MemoryMapEntry} {kernelEnd : BitVec 64}
    {pml4Table : BitVec 32} {pmm : Pmm} (hmap : KernelMap entries kernelEnd)
    (htotal : pageTotal entries ≤ 2 ^ 40)
    (hpmm : pmmInit entries 0x100000 kernelEnd = some pmm) (hboot : Stage2Tables pml4Table)
    (ram : PhysMem) {es : List KernelEvent} {s : KernelRun}
    (hrun : (kernelMachine (bootPml4 pml4Table)).Run (bootKernel pml4Table ram pmm) es s)
    (size : BitVec 64) (hpos : 0 < size.toNat) (hle : size.toNat ≤ heapSize.toNat) :
    KmallocBacked (bootPml4 pml4Table) s size
        (kmalloc pmmAlloc (bootPml4 pml4Table) size s.kernel).1
        (kmalloc pmmAlloc (bootPml4 pml4Table) size s.kernel).2
      ↔ Served (bootPml4 pml4Table) s.kernel size := by
  have h : s.Inv (bootPml4 pml4Table) := EventMachine.Run.invariant
    (KernelRun.Inv.boot hmap htotal hpmm hboot ram) (fun _ _ _ ht hadm hst => ht.step hadm hst) hrun
  have hsize : heapSize.toNat = 0x1000000 := rfl
  have hstart : heapStart.toNat = 0xFFFF800000000000 := rfl
  have hlt := h.bounds.lt_end
  exact h.kmallocBacked_iff (Or.inr (by omega)) fun h0 => by simp [h0] at hpos

/-- The statement for 4 KB behind a first block, with an end in the next page, on the map stage 2
builds. -/
theorem kmalloc_backed_second :
    ∃ pmm s, pmmInit createFallbackMemoryMap 0x100000 0x120000 = some pmm
      ∧ (kernelMachine (bootPml4 0x9000)).Run (bootKernel 0x9000 zeroRam pmm) [.kmalloc 256] s
      ∧ (KmallocBacked (bootPml4 0x9000) s 4096 (kmalloc pmmAlloc (bootPml4 0x9000) 4096 s.kernel).1
          (kmalloc pmmAlloc (bootPml4 0x9000) 4096 s.kernel).2
        ↔ Served (bootPml4 0x9000) s.kernel 4096) := by
  have hmap : KernelMap createFallbackMemoryMap 0x120000 :=
    kernelMap_fallback (by decide) (by decide)
  obtain ⟨pmm, hpmm, -⟩ := pmmInit_spec hmap
  have hfit : SizeFits (bootKernel 0x9000 zeroRam pmm).kernel 256 := Or.inr (by
    simp only [bootKernel, heapInit]
    decide)
  have hrun := EventMachine.Run.single (M := kernelMachine (bootPml4 0x9000)) (e := .kmalloc 256)
    hfit rfl
  exact ⟨pmm, _, hpmm, hrun, kmalloc_backed hmap (by rw [pageTotal_fallback]; norm_num) hpmm
    stage2Tables_9000 zeroRam hrun 4096 (by decide) (by decide)⟩

/-! ### One page left -/

/-- Memory for a kernel of 64 KB, its bitmap and one page more. -/
def tightMap : List MemoryMapEntry := [⟨0x100000, 0x12000, 1⟩]

/-- The PMM after `pmm_init` there. -/
def tightPmm : Pmm := (pmmInit tightMap 0x100000 0x110000).getD (Pmm.full 0)

/-- A kernel of 64 KB in one stretch of memory. -/
lemma kernelMap_single {length : BitVec 64} (hlow : 0x12000 ≤ length.toNat)
    (hhigh : length.toNat ≤ 0x100000) : KernelMap [⟨0x100000, length, 1⟩] 0x110000 := by
  have hmb : (0x100000 : BitVec 64).toNat = 0x100000 := rfl
  have hnum : (0x110000 : BitVec 64).toNat = 0x110000 := rfl
  have hsum : (0x100000 + length).toNat = 0x100000 + length.toNat := by
    rw [BitVec.toNat_add_of_lt (by omega), hmb]
  have hmax : maxAddr [⟨0x100000, length, 1⟩] = 0x100000 + length := by
    have hpos : (0 : BitVec 64) < 0x100000 + length := by
      rw [BitVec.lt_def, hsum]
      simp
    rw [maxAddr, List.foldl_cons, List.foldl_nil, if_pos hpos]
  have htotal : pageTotal [⟨0x100000, length, 1⟩] = (0x100000 + length.toNat) / 4096 := by
    rw [pageTotal, hmax, hsum]
  have hbase := toNat_bitmapBase_of_le 0x110000 (by decide)
  have hend : bitmapEnd [⟨0x100000, length, 1⟩] 0x110000
      = (bitmapBase 0x110000).toNat + ((0x100000 + length.toNat) / 4096 + 7) / 8 := by
    rw [bitmapEnd, htotal]
  have hcover : ∀ page, 256 ≤ page → page < 274 → Covered [⟨0x100000, length, 1⟩] page := by
    intro page h1 h2 a ha1 ha2
    refine ⟨⟨0x100000, length, 1⟩, by simp, rfl, ?_, ?_⟩
    · simp
      omega
    · simp
      omega
  refine ⟨by simp; omega, by decide, fun page h => hcover page ?_ ?_,
    fun page h => hcover page ?_ ?_⟩
  all_goals
    obtain ⟨h3, h4⟩ := h
    omega

lemma kernelMap_tight : KernelMap tightMap 0x110000 := kernelMap_single (by decide) (by decide)

lemma pmmInit_tight : pmmInit tightMap 0x100000 0x110000 = some tightPmm := by
  obtain ⟨pmm, hpmm, -⟩ := pmmInit_spec kernelMap_tight
  rw [tightPmm, hpmm, Option.getD_some]

/-- **With one page left `kmalloc` returns memory that is not there**: the page goes to the heap,
none is left for the page tables on its way, and `vmm_map_page` does not tell. -/
theorem kmalloc_unbacked :
    pmmInit tightMap 0x100000 0x110000 = some tightPmm ∧ tightPmm.freePages = 1
      ∧ (kmalloc pmmAlloc (bootPml4 0x9000) 256 (bootKernel 0x9000 zeroRam tightPmm).kernel).1
        = heapStart
      ∧ mmuWalk (kmalloc pmmAlloc (bootPml4 0x9000) 256
          (bootKernel 0x9000 zeroRam tightPmm).kernel).2.mem (bootPml4 0x9000) heapStart = none
      ∧ ¬ KmallocBacked (bootPml4 0x9000) (bootKernel 0x9000 zeroRam tightPmm) 256
        (kmalloc pmmAlloc (bootPml4 0x9000) 256 (bootKernel 0x9000 zeroRam tightPmm).kernel).1
        (kmalloc pmmAlloc (bootPml4 0x9000) 256 (bootKernel 0x9000 zeroRam tightPmm).kernel).2 := by
  have hresult : (kmalloc pmmAlloc (bootPml4 0x9000) 256
      (bootKernel 0x9000 zeroRam tightPmm).kernel).1 = heapStart := by decide +kernel
  have hwalk : mmuWalk (kmalloc pmmAlloc (bootPml4 0x9000) 256
      (bootKernel 0x9000 zeroRam tightPmm).kernel).2.mem (bootPml4 0x9000) heapStart = none := by
    decide +kernel
  refine ⟨pmmInit_tight, by decide +kernel, hresult, hwalk, fun h => ?_⟩
  have hbacked := h.backed (by rw [hresult]; decide) heapStart (by rw [hresult])
    (by rw [hresult]; decide)
  obtain ⟨t, ht, -⟩ := hbacked
  rw [hwalk] at ht
  cases ht

end KiOS
