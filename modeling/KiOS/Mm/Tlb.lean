import KiOS.Mm.HeapLedger

/-!
The translations the processor has cached, and `vmm_invlpg`.

The processor may look up any address at any time, also between two stores of the VMM, and keep
what it finds until it likes or is told to drop it.

* `vmmNextTableMemories`, `vmmMapPageMemories`: the memories that `vmm_map_page` goes through,
  one store after the other;
* `Tlb`, `vmmInvlpg`: what is cached, and what `invlpg` drops;
* `tlbMachine`: runs of the VMM with a processor that looks up addresses between the stores;
* `mmuWalk_of_mem`: until the entry of the page is written, every walk ends where it did before
  the call;
* `tlb_coherent`: in every state reached the processor uses no translation but that of the tables.
-/

namespace KiOS

/-! ### The memories of a call -/

/-- The first `n` entries of a table are zeroed. -/
def PhysMem.zeroEntries (m : PhysMem) (table : Frame) (n : ℕ) : PhysMem :=
  (List.range n).foldl (fun m i => m.store table (BitVec.ofNat 9 i) 0) m

/-- The memories while a table is zeroed. -/
def PhysMem.zeroing (m : PhysMem) (table : Frame) : List PhysMem :=
  (List.range 513).map (m.zeroEntries table)

variable {σ : Type}

/-- The memories of `vmmNextTable`: a table that is allocated is zeroed first. -/
def vmmNextTableMemories (alloc : σ → BitVec 64 × σ) (create : Bool) (flags : BitVec 32)
    (table : Frame) (idx : Idx) (m : PhysMem) (s : σ) : List PhysMem :=
  (if m.word table idx &&& pagePresent = 0 ∧ create ∧ (alloc s).1 ≠ 0 then
    m.zeroing (frameOf (alloc s).1) else [])
  ++ [(vmmNextTable alloc create flags table idx m s).2.1]

/-- The memories of `vmmDescend`. -/
def vmmDescendMemories (alloc : σ → BitVec 64 × σ) (create : Bool) (flags : BitVec 32) :
    List Idx → Frame → PhysMem → σ → List PhysMem
  | [], _, _, _ => []
  | idx :: path, table, m, s =>
      vmmNextTableMemories alloc create flags table idx m s ++
        match vmmNextTable alloc create flags table idx m s with
        | (none, _, _) => []
        | (some table, m, s) => vmmDescendMemories alloc create flags path table m s

/-- The memories of `vmm_map_page`, the last one with the entry of the page. -/
def vmmMapPageMemories (alloc : σ → BitVec 64 × σ) (pml4 : Frame) (virt phys : BitVec 64)
    (flags : BitVec 32) (m : PhysMem) (s : σ) : List PhysMem :=
  vmmDescendMemories alloc true flags (tablePath virt) pml4 m s
    ++ [(vmmMapPage alloc pml4 virt phys flags m s).2.1]

/-! ### The cache -/

/-- The translations cached, by address. -/
abbrev Tlb := BitVec 64 → Option Translation

/-- The processor looks up an address, and keeps what it finds. -/
def Tlb.fill (pml4 : Frame) (m : PhysMem) (virt : BitVec 64) (tlb : Tlb) : Tlb :=
  Function.update tlb virt (mmuWalk m pml4 virt)

/-- `vmm_invlpg`: what is cached for the page is dropped. -/
def vmmInvlpg (virt : BitVec 64) (tlb : Tlb) : Tlb :=
  fun w => if vpage w = vpage virt then none else tlb w

/-- The processor looks up addresses during a call, each in one of the memories of the call. -/
def Tlb.fills (pml4 : Frame) (memories : List PhysMem) (lookups : List (ℕ × BitVec 64))
    (tlb : Tlb) : Tlb :=
  lookups.foldl (fun tlb l => match memories[l.1]? with
    | none => tlb
    | some m => tlb.fill pml4 m l.2) tlb

/-- What `vmm_map_page` does to the cache. -/
def vmmMapPageTlb (alloc : σ → BitVec 64 × σ) (pml4 : Frame) (virt phys : BitVec 64)
    (flags : BitVec 32) (m : PhysMem) (s : σ) (lookups : List (ℕ × BitVec 64)) (tlb : Tlb) : Tlb :=
  let tlb := tlb.fills pml4 (m :: vmmMapPageMemories alloc pml4 virt phys flags m s) lookups
  if (vmmMapPage alloc pml4 virt phys flags m s).1 = none then vmmInvlpg virt tlb else tlb

/-- What `vmm_unmap_page` does to the cache: it returns early if the page is not mapped. -/
def vmmUnmapPageTlb (pml4 : Frame) (virt : BitVec 64) (m : PhysMem)
    (lookups : List (ℕ × BitVec 64)) (tlb : Tlb) : Tlb :=
  let tlb := tlb.fills pml4 [m, vmmUnmapPage pml4 virt m] lookups
  match vmmGetPte pml4 virt m with
  | (none, _) => tlb
  | (some (pt, idx), m) => if m.word pt idx &&& pagePresent = 0 then tlb else vmmInvlpg virt tlb

/-! ### Runs -/

/-- A run of the VMM on a processor with a cache. -/
structure TlbRun where
  vmm : VmmRun
  tlb : Tlb

/-- The translation the processor uses: the cached one if there is one. -/
def TlbRun.lookup (pml4 : Frame) (s : TlbRun) (virt : BitVec 64) : Option Translation :=
  (s.tlb virt).orElse fun _ => mmuWalk s.vmm.mem pml4 virt

inductive TlbEvent where
  /-- A call, and the lookups while it runs. -/
  | call (e : VmmEvent) (lookups : List (ℕ × BitVec 64))
  /-- A store to memory that is no page table. -/
  | store (f : Frame) (i : Idx) (x : Pte)
  | fill (virt : BitVec 64)
  /-- The processor drops a translation of its own accord. -/
  | evict (virt : BitVec 64)

/-- Runs of the VMM, with lookups between any two stores. -/
def tlbMachine (pml4 : Frame) : EventMachine TlbRun TlbEvent where
  admissible s
    | .call e _ => ((vmmMachine pml4).restrict AboveIdentity).admissible s.vmm e
    | .store f _ _ => ¬ IsTable s.vmm.mem pml4 f
    | .fill _ => True
    | .evict _ => True
  step s
    | .call (.map virt phys flags pages) lookups =>
        ((vmmMachine pml4).step s.vmm (.map virt phys flags pages)).map fun vmm =>
          ⟨vmm, vmmMapPageTlb pageScript.alloc pml4 virt phys flags s.vmm.mem pages lookups s.tlb⟩
    | .call (.unmap virt) lookups =>
        ((vmmMachine pml4).step s.vmm (.unmap virt)).map fun vmm =>
          ⟨vmm, vmmUnmapPageTlb pml4 virt s.vmm.mem lookups s.tlb⟩
    | .store f i x => some { s with vmm := { s.vmm with mem := s.vmm.mem.store f i x } }
    | .fill virt => some { s with tlb := s.tlb.fill pml4 s.vmm.mem virt }
    | .evict virt => some { s with tlb := Function.update s.tlb virt none }

/-- The state stage 2 leaves: loading `cr3` empties the cache. -/
def bootTlb (pml4Table : BitVec 32) (ram : PhysMem) : TlbRun :=
  ⟨bootVmm pml4Table ram, fun _ => none⟩

/-! ### One store after the other -/

/-- At most one word is written. -/
def OneStore (m m' : PhysMem) : Prop := m' = m ∨ ∃ f i x, m' = m.store f i x

/-- The memories `l` lead from `m` to `m'`, each at most one store after the one before. -/
inductive Stores : PhysMem → List PhysMem → PhysMem → Prop
  | nil {m : PhysMem} : Stores m [] m
  | cons {m a m' : PhysMem} {l : List PhysMem} : OneStore m a → Stores a l m' → Stores m (a :: l) m'

section

variable {m m' m'' : PhysMem} {l l' : List PhysMem} {r f : Frame} {i : Idx} {p path : List Idx}
  {flags : BitVec 32} {virt w : BitVec 64} {s s' : σ}

lemma Stores.append (h : Stores m l m') (h' : Stores m' l' m'') : Stores m (l ++ l') m'' := by
  induction h with
  | nil => exact h'
  | cons hone _ ih => exact .cons hone (ih h')

lemma Stores.single (h : OneStore m m') : Stores m [m'] m' := .cons h .nil

lemma PhysMem.zeroEntries_succ (m : PhysMem) (table : Frame) (n : ℕ) :
    m.zeroEntries table (n + 1) = (m.zeroEntries table n).store table (BitVec.ofNat 9 n) 0 := by
  simp only [zeroEntries, List.range_succ, List.foldl_append, List.foldl_cons, List.foldl_nil]

lemma stores_zeroing (m : PhysMem) (table : Frame) :
    Stores m (m.zeroing table) (m.zeroTable table) := by
  have hrounds : ∀ n, Stores m ((List.range (n + 1)).map (m.zeroEntries table))
      (m.zeroEntries table n) := by
    intro n
    induction n with
    | zero => exact .single (Or.inl rfl)
    | succ n ih =>
        rw [List.range_succ, List.map_append]
        exact ih.append (.single (Or.inr ⟨table, BitVec.ofNat 9 n, 0, m.zeroEntries_succ table n⟩))
  have hall : m.zeroTable table = m.zeroEntries table 512 := by
    rw [PhysMem.zeroTable, PhysMem.zeroEntries]
  rw [hall]
  exact hrounds 512

lemma stores_nextTable (alloc : σ → BitVec 64 × σ) (create : Bool) (flags : BitVec 32)
    (table : Frame) (idx : Idx) (m : PhysMem) (s : σ) :
    Stores m (vmmNextTableMemories alloc create flags table idx m s)
      (vmmNextTable alloc create flags table idx m s).2.1 := by
  unfold vmmNextTableMemories vmmNextTable
  by_cases hpr : m.word table idx &&& pagePresent = 0
  · cases create with
    | false =>
        simp only [hpr, Bool.false_eq_true, false_and, and_false, if_false, if_true,
          List.nil_append]
        exact .single (Or.inl rfl)
    | true =>
        rcases alloc s with ⟨phys, s'⟩
        by_cases hp : phys = 0
        · simp only [hpr, hp, ne_eq, not_true, and_false, if_false, if_true, List.nil_append,
            Bool.true_eq_false]
          exact .single (Or.inl rfl)
        · simp only [hpr, hp, ne_eq, not_false_eq_true, and_self, if_true, if_false,
            Bool.true_eq_false]
          exact (stores_zeroing m (frameOf phys)).append
            (.single (Or.inr ⟨table, idx, phys ||| parentFlags flags, rfl⟩))
  · simp only [hpr, false_and, if_false, List.nil_append]
    split_ifs
    · exact .single (Or.inr ⟨table, idx, m.word table idx ||| pageUser, rfl⟩)
    · exact .single (Or.inl rfl)

lemma stores_descend (alloc : σ → BitVec 64 × σ) (create : Bool) (flags : BitVec 32)
    (path : List Idx) (table : Frame) (m : PhysMem) (s : σ) :
    Stores m (vmmDescendMemories alloc create flags path table m s)
      (vmmDescend alloc create flags path table m s).2.1 := by
  induction path generalizing table m s with
  | nil => exact .nil
  | cons idx path ih =>
      have hnext := stores_nextTable alloc create flags table idx m s
      rw [vmmDescendMemories, vmmDescend]
      rcases heq : vmmNextTable alloc create flags table idx m s with ⟨_ | table', m', s'⟩ <;>
        rw [heq] at hnext
      · exact hnext.append .nil
      · exact hnext.append (ih table' m' s')

/-- **The memories of a call** lead from the first to the last, one store after the other. -/
theorem stores_mapPage (alloc : σ → BitVec 64 × σ) (pml4 : Frame) (virt phys : BitVec 64)
    (flags : BitVec 32) (m : PhysMem) (s : σ) :
    Stores m (vmmMapPageMemories alloc pml4 virt phys flags m s)
      (vmmMapPage alloc pml4 virt phys flags m s).2.1 := by
  refine (stores_descend alloc true flags (tablePath virt) pml4 m s).append (.single ?_)
  unfold vmmMapPage vmmGetPteFlags
  rcases vmmDescend alloc true flags (tablePath virt) pml4 m s with ⟨_ | pt, m', s'⟩
  · exact Or.inl rfl
  · exact Or.inr ⟨_, _, _, rfl⟩

/-! ### Every walk ends where it did -/

variable {A : FrameSource σ}

/-- Zeroing what is no table. -/
lemma mmuWalk_zeroing (ht : Tables m r) (hf : ¬ IsTable m r f) (hm : m' ∈ m.zeroing f) :
    mmuWalk m' r w = mmuWalk m r w := by
  obtain ⟨n, -, rfl⟩ := List.mem_map.mp hm
  have hsame : (∀ q, q.length ≤ 3 → tableAt (m.zeroEntries f n) r q = tableAt m r q)
      ∧ ∀ q j, q.length ≤ 3 → entryAt (m.zeroEntries f n) r q j = entryAt m r q j := by
    clear hm
    induction n with
    | zero => exact ⟨fun _ _ => rfl, fun _ _ _ => rfl⟩
    | succ n ih =>
        rw [m.zeroEntries_succ]
        obtain ⟨hwalk, hslot⟩ := store_apart (i := BitVec.ofNat 9 n) (x := 0)
          fun ⟨q, hq, hqf⟩ => hf ⟨q, hq, (ih.1 q hq).symm.trans hqf⟩
        exact ⟨fun q hq => (hwalk q hq).trans (ih.1 q hq),
          fun q j hq => (hslot q j hq).trans (ih.2 q j hq)⟩
  exact ht.mmuWalk_congr (ht.of_eq hsame.1 hsame.2) (fun q j hq _ => hsame.2 q j (by omega))
    (hsame.2 _ _ (by simp [tablePath]))

lemma NextOk.mmuWalk_eq {g : Frame} (h : NextOk A r p i flags m s g m' s') (ht : Tables m r) :
    mmuWalk m' r w = mmuWalk m r w :=
  ht.mmuWalk_congr h.ok.tables h.grows.large (h.leaf _ _ (by simp [tablePath]))

/-- The levels one after the other. -/
lemma mmuWalk_descend (h : VmmOk A r m s) (hp : tableAt m r p = some f)
    (hlen : p.length + path.length ≤ 3)
    (hnl : ∀ t i, t ++ [i] <+: path → ¬ LargePage (entryAt m r (p ++ t) i))
    (hup : User (flags.setWidth 64) → ∀ q i, q ++ [i] <+: p → User (entryAt m r q i))
    (hm : m' ∈ vmmDescendMemories A.alloc true flags path f m s) :
    mmuWalk m' r w = mmuWalk m r w := by
  induction path generalizing p f m s with
  | nil => cases hm
  | cons i path ih =>
      rw [List.length_cons] at hlen
      have hnl' : ¬ LargePage (m.word f i) := by
        have := hnl [] i (by simp)
        rwa [List.append_nil, entryAt_of_table hp] at this
      -- while the new table is zeroed it is not linked yet
      have hzero : ∀ m', m.word f i &&& pagePresent = 0 ∧ true ∧ (A.alloc s).1 ≠ 0 →
          m' ∈ m.zeroing (frameOf (A.alloc s).1) → mmuWalk m' r w = mmuWalk m r w := by
        intro m' hc hm'
        have hfree : 0 < A.free s := by
          by_contra hz
          exact hc.2.2 (by rw [A.alloc_zero s h.inv (by omega)])
        exact mmuWalk_zeroing h.tables (fun ⟨q, hq, hqf⟩ =>
          A.alloc_fresh s h.inv hfree (h.owned q _ hq hqf)) hm'
      rw [vmmDescendMemories, vmmNextTableMemories, List.mem_append, List.mem_append] at hm
      rcases vmmNextTable_spec (i := i) h hp (by omega) hnl'
        (fun hu q i' hq => hup hu q i' (by rw [hq])) with
        ⟨-, -, heq⟩ | ⟨g, m₁, s₁, heq, h₁⟩ <;> rw [heq] at hm
      · rcases hm with (hm | hm) | hm
        · split_ifs at hm with hc
          · exact hzero m' hc hm
          · cases hm
        · rw [List.mem_singleton.mp hm]
        · cases hm
      · have hwalk₁ : mmuWalk m₁ r w = mmuWalk m r w := h₁.mmuWalk_eq h.tables
        rcases hm with (hm | hm) | hm
        · split_ifs at hm with hc
          · exact hzero m' hc hm
          · cases hm
        · rw [List.mem_singleton.mp hm]
          exact hwalk₁
        · exact (ih h₁.ok h₁.table (by simp; omega) (h₁.not_large hlen hnl)
            (fun hu => h₁.links hu hp (by omega) (hup hu)) hm).trans hwalk₁

/-- **During `vmm_map_page`** every walk ends where it did before the call, until the entry of the
page is written, and that changes the walks of the page alone. -/
theorem mmuWalk_of_mem {phys : BitVec 64} (h : VmmOk A r m s) (hv : ¬ HitsLarge m r virt)
    (hm : m' ∈ vmmMapPageMemories A.alloc r virt phys flags m s)
    (hw : (vmmMapPage A.alloc r virt phys flags m s).1 = none → vpage w ≠ vpage virt) :
    mmuWalk m' r w = mmuWalk m r w := by
  rcases List.mem_append.mp hm with hm | hm
  · exact mmuWalk_descend h (p := []) rfl (by simp [tablePath]) (h.tables.not_largePage hv)
      (fun _ q i hq => absurd hq.length_le (by simp)) hm
  · rw [List.mem_singleton.mp hm]
    obtain ⟨err, m'', s', heq, hok⟩ := vmmMapPage_spec phys flags h hv
    rw [heq] at hw ⊢
    refine h.tables.mmuWalk_congr hok.ok.tables hok.grows.large ?_
    rw [leafAt, hok.leaf _ _ (by simp [tablePath]), if_neg]
    rintro ⟨herr, hpath⟩
    exact hw herr (vpage_eq_iff.mpr hpath)

end

/-! ### The cache agrees with the tables -/

/-- What is cached is what a walk finds. -/
def Coherent (pml4 : Frame) (m : PhysMem) (tlb : Tlb) : Prop :=
  ∀ w t, tlb w = some t → mmuWalk m pml4 w = some t

section

variable {pml4 : Frame} {m m' : PhysMem} {tlb : Tlb} {virt w : BitVec 64} {t : Translation}
  {memories : List PhysMem} {lookups : List (ℕ × BitVec 64)}

lemma Tlb.fill_some (h : tlb.fill pml4 m virt w = some t) :
    tlb w = some t ∨ mmuWalk m pml4 w = some t := by
  unfold Tlb.fill at h
  by_cases hw : w = virt
  · subst hw
    rw [Function.update_self] at h
    exact Or.inr h
  · rw [Function.update_of_ne hw] at h
    exact Or.inl h

/-- What is cached after the lookups was cached before, or found in one of the memories. -/
lemma Tlb.fills_some (h : tlb.fills pml4 memories lookups w = some t) :
    tlb w = some t ∨ ∃ m ∈ memories, mmuWalk m pml4 w = some t := by
  induction lookups generalizing tlb with
  | nil => exact Or.inl h
  | cons l lookups ih =>
      rw [fills, List.foldl_cons] at h
      cases hm : memories[l.1]? with
      | none =>
          rw [hm] at h
          exact ih h
      | some m =>
          rw [hm] at h
          rcases ih h with h' | h'
          · rcases Tlb.fill_some h' with h'' | h''
            · exact Or.inl h''
            · exact Or.inr ⟨m, List.mem_of_getElem? hm, h''⟩
          · exact Or.inr h'

lemma vmmInvlpg_some (h : vmmInvlpg virt tlb w = some t) :
    vpage w ≠ vpage virt ∧ tlb w = some t := by
  unfold vmmInvlpg at h
  split_ifs at h with hw
  exact ⟨hw, h⟩

namespace Coherent

/-- Memories in which every walk ends where it did. -/
lemma congr (h : Coherent pml4 m tlb) (hsame : ∀ w, mmuWalk m' pml4 w = mmuWalk m pml4 w) :
    Coherent pml4 m' tlb := fun w t hw => (hsame w).trans (h w t hw)

/-- `vmm_map_page`: only the walks of the page change, and what is cached of it is dropped. -/
lemma map {σ : Type} {A : FrameSource σ} {s : σ} {phys : BitVec 64} {flags : BitVec 32}
    (h : Coherent pml4 m tlb) (hok : VmmOk A pml4 m s) (hv : ¬ HitsLarge m pml4 virt) :
    Coherent pml4 (vmmMapPage A.alloc pml4 virt phys flags m s).2.1
      (vmmMapPageTlb A.alloc pml4 virt phys flags m s lookups tlb) := by
  intro w t hw
  have hlast : (vmmMapPage A.alloc pml4 virt phys flags m s).2.1
      ∈ vmmMapPageMemories A.alloc pml4 virt phys flags m s :=
    List.mem_append_right _ (List.mem_singleton_self _)
  -- what is left in the cache belongs to other pages, or the call has failed
  obtain ⟨hpage, hcached⟩ : ((vmmMapPage A.alloc pml4 virt phys flags m s).1 = none →
        vpage w ≠ vpage virt)
      ∧ tlb.fills pml4 (m :: vmmMapPageMemories A.alloc pml4 virt phys flags m s) lookups w
        = some t := by
    unfold vmmMapPageTlb at hw
    split_ifs at hw with herr
    · exact ⟨fun _ => (vmmInvlpg_some hw).1, (vmmInvlpg_some hw).2⟩
    · exact ⟨fun h' => absurd h' herr, hw⟩
  rw [mmuWalk_of_mem hok hv hlast hpage]
  rcases Tlb.fills_some hcached with h' | ⟨m', hm', h'⟩
  · exact h w t h'
  · rcases List.mem_cons.mp hm' with rfl | hm'
    · exact h'
    · rwa [mmuWalk_of_mem hok hv hm' hpage] at h'

/-- `vmm_unmap_page`: where it returns early, the page was not mapped. -/
lemma unmap (h : Coherent pml4 m tlb) (ht : Tables m pml4) (hv : ¬ HitsLarge m pml4 virt) :
    Coherent pml4 (vmmUnmapPage pml4 virt m) (vmmUnmapPageTlb pml4 virt m lookups tlb) := by
  intro w t hw
  obtain ⟨ht', -, hslot⟩ := vmmUnmapPage_spec ht hv
  obtain ⟨hpage, hcached⟩ : (Present (leafAt m pml4 virt) → vpage w ≠ vpage virt)
      ∧ tlb.fills pml4 [m, vmmUnmapPage pml4 virt m] lookups w = some t := by
    unfold vmmUnmapPageTlb at hw
    rw [vmmGetPte_eq, ht.softWalk_eq hv] at hw
    cases hq : tableAt m pml4 (tablePath virt) with
    | none =>
        rw [hq] at hw
        rw [leafAt, entryAt_of_none hq]
        exact ⟨fun h' => absurd h' not_present_zero, hw⟩
    | some pt =>
        rw [hq] at hw
        simp only [Option.map_some] at hw
        rw [leafAt, entryAt_of_table hq]
        split_ifs at hw with hpr
        · exact ⟨fun h' => absurd hpr h', hw⟩
        · exact ⟨fun _ => (vmmInvlpg_some hw).1, (vmmInvlpg_some hw).2⟩
  have hsame : mmuWalk (vmmUnmapPage pml4 virt m) pml4 w = mmuWalk m pml4 w := by
    refine ht.mmuWalk_congr ht' (fun q j hq _ => ?_) ?_
    · rw [hslot q j (by omega), if_neg]
      rintro ⟨rfl, -⟩
      simp [tablePath] at hq
    · rw [leafAt, hslot _ _ (by simp [tablePath]), if_neg]
      rintro ⟨hpath, hidx, hpr⟩
      exact hpage hpr (vpage_eq_iff.mpr ⟨hpath, hidx⟩)
  rw [hsame]
  rcases Tlb.fills_some hcached with h' | ⟨m', hm', h'⟩
  · exact h w t h'
  · rcases List.mem_cons.mp hm' with rfl | hm'
    · exact h'
    · rwa [List.mem_singleton.mp hm', hsame] at h'

end Coherent

end

/-- The tables are described by the finite map, and the cache by the tables. -/
structure TlbRun.Inv (pml4 : Frame) (s : TlbRun) : Prop where
  refines : s.vmm.RefineInv pml4
  coherent : Coherent pml4 s.vmm.mem s.tlb

namespace TlbRun.Inv

variable {pml4 : Frame} {s u : TlbRun} {e : TlbEvent} {virt : BitVec 64}

lemma step (h : s.Inv pml4) (hadm : (tlbMachine pml4).admissible s e)
    (hst : (tlbMachine pml4).step s e = some u) : u.Inv pml4 := by
  cases e with
  | call e lookups =>
      cases e with
      | map virt phys flags pages =>
          have hv : pml4Index virt ≠ 0 := hadm.2.1
          simp only [tlbMachine, Option.map_eq_some_iff] at hst
          obtain ⟨vmm, hvmm, rfl⟩ := hst
          refine ⟨h.refines.map hadm.1 hadm.2 hvmm, ?_⟩
          obtain rfl := Option.some.inj hvmm
          exact h.coherent.map (vmmOk_of_admissible h.refines.tables hadm.1)
            (h.refines.tables.not_hitsLarge hv)
      | unmap virt =>
          have hv : pml4Index virt ≠ 0 := hadm.2
          simp only [tlbMachine, Option.map_eq_some_iff] at hst
          obtain ⟨vmm, hvmm, rfl⟩ := hst
          refine ⟨h.refines.unmap hv hvmm, ?_⟩
          obtain rfl := Option.some.inj hvmm
          exact h.coherent.unmap h.refines.tables (h.refines.tables.not_hitsLarge hv)
  | store f i x =>
      obtain rfl := Option.some.inj hst
      obtain ⟨hwalk, hslot⟩ := store_apart (i := i) (x := x) hadm
      have ht := h.refines.tables.of_eq hwalk hslot
      have hleaf : ∀ w, leafAt (s.vmm.mem.store f i x) pml4 w = leafAt s.vmm.mem pml4 w :=
        fun w => hslot _ _ (by simp [tablePath])
      refine ⟨⟨ht, fun w phys flags hw hm => ?_, fun w hw hm => ?_⟩, h.coherent.congr fun w =>
        h.refines.tables.mmuWalk_congr ht (fun q j hq _ => hslot q j (by omega)) (hleaf w)⟩
      · rw [hleaf w]
        exact h.refines.mapped w phys flags hw hm
      · rw [hleaf w]
        exact h.refines.unmapped w hw hm
  | fill virt =>
      obtain rfl := Option.some.inj hst
      exact ⟨h.refines, fun w t hw => (Tlb.fill_some hw).elim (h.coherent w t) id⟩
  | evict virt =>
      obtain rfl := Option.some.inj hst
      refine ⟨h.refines, fun w t hw => ?_⟩
      dsimp only at hw
      by_cases hwv : w = virt
      · rw [hwv, Function.update_self] at hw
        cases hw
      · rw [Function.update_of_ne hwv] at hw
        exact h.coherent w t hw

lemma lookup_eq (h : s.Inv pml4) : s.lookup pml4 virt = mmuWalk s.vmm.mem pml4 virt := by
  rw [lookup]
  cases hc : s.tlb virt with
  | none => rfl
  | some t => exact (h.coherent virt t hc).symm

lemma boot {pml4Table : BitVec 32} (hboot : Stage2Tables pml4Table) (ram : PhysMem) :
    (bootTlb pml4Table ram).Inv (bootPml4 pml4Table) := by
  refine ⟨⟨?_, fun _ _ _ _ hm => by simp [bootTlb, bootVmm] at hm, fun virt hv _ hpr => ?_⟩,
    fun _ _ hw => by cases hw⟩
  · rw [bootTlb, bootVmm_mem]
    exact hboot.tables ram
  · have hslot : leafAt (setupPaging pml4Table ram) (bootPml4 pml4Table) virt = 0 := by
      rw [leafAt, hboot.entryAt_eq ram (by simp [tablePath])]
      simp [Stage2Tables.bootSlot, tablePath]
    rw [bootTlb, bootVmm_mem, hslot] at hpr
    exact not_present_zero hpr

end TlbRun.Inv

/-- **No stale translation**: in every state reached from the tables of stage 2, wherever between
two stores the processor has looked up addresses, it uses for any address what the tables say, and
above the identity map that is what the last successful call on the page left. -/
theorem tlb_coherent {pml4Table : BitVec 32} (hboot : Stage2Tables pml4Table) (ram : PhysMem)
    {es : List TlbEvent} {s : TlbRun}
    (hrun : (tlbMachine (bootPml4 pml4Table)).Run (bootTlb pml4Table ram) es s)
    (virt : BitVec 64) :
    s.lookup (bootPml4 pml4Table) virt = mmuWalk s.vmm.mem (bootPml4 pml4Table) virt
      ∧ (Canonical virt → pml4Index virt ≠ 0 →
        s.lookup (bootPml4 pml4Table) virt = s.vmm.translation virt) := by
  have hinv : s.Inv (bootPml4 pml4Table) := EventMachine.Run.invariant
    (TlbRun.Inv.boot hboot ram) (fun _ _ _ h hadm hst => h.step hadm hst) hrun
  refine ⟨hinv.lookup_eq, fun _ hv => ?_⟩
  rw [hinv.lookup_eq]
  exact (hinv.refines.translation_eq hv).1

/-- The statement after a page of the heap is mapped, looked up while its tables are linked and
again afterwards, and unmapped. -/
theorem tlb_coherent_heap : ∃ s, (tlbMachine (bootPml4 0x9000)).Run (bootTlb 0x9000 zeroRam)
    [.call (.map 0xFFFF800000000000 0x200000 3 [0x300000, 0x301000, 0x302000])
        [(600, 0xFFFF800000000000)],
      .fill 0xFFFF800000000123, .call (.unmap 0xFFFF800000000000) []] s
      ∧ s.lookup (bootPml4 0x9000) 0xFFFF800000000123
        = mmuWalk s.vmm.mem (bootPml4 0x9000) 0xFFFF800000000123 := by
  have hpages : pageScript.Inv [0x300000, 0x301000, 0x302000] := by
    refine ⟨fun a ha => ?_, by decide⟩
    simp only [List.mem_cons, List.not_mem_nil, or_false] at ha
    rcases ha with rfl | rfl | rfl <;> decide
  have hhigh : ∀ g ∈ [0x300000, 0x301000, 0x302000].map frameOf, 0x100 ≤ g.toNat := by
    intro g hg
    simp only [List.map_cons, List.map_nil, List.mem_cons, List.not_mem_nil, or_false] at hg
    rcases hg with rfl | rfl | rfl <;> decide
  have hadm : (tlbMachine (bootPml4 0x9000)).admissible (bootTlb 0x9000 zeroRam)
      (.call (.map 0xFFFF800000000000 0x200000 3 [0x300000, 0x301000, 0x302000])
        [(600, 0xFFFF800000000000)]) := by
    refine ⟨⟨by decide, hpages, fun q f hq hf hmem => ?_⟩, by decide,
      ⟨by decide, by decide, by decide⟩, by unfold PlainFlags; decide⟩
    rw [bootTlb, bootVmm_mem] at hf
    have hlow := stage2Tables_9000.apart zeroRam hq hf
    exact absurd (hhigh f hmem) (by omega)
  have hunmap : ∀ s, (tlbMachine (bootPml4 0x9000)).admissible s
      (.call (.unmap 0xFFFF800000000000) []) := fun _ =>
    ⟨(by decide : Canonical 0xFFFF800000000000), (by decide : pml4Index 0xFFFF800000000000 ≠ 0)⟩
  have hfill : ∀ s, (tlbMachine (bootPml4 0x9000)).admissible s (.fill 0xFFFF800000000123) :=
    fun _ => trivial
  have hrun := ((EventMachine.Run.single hadm rfl).snoc (hfill _) rfl).snoc (hunmap _) rfl
  exact ⟨_, hrun, (tlb_coherent stage2Tables_9000 zeroRam hrun _).1⟩

end KiOS
