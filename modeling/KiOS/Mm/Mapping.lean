import KiOS.Mm.PageTree

/-!
What the functions of the VMM do to the page tables.

* `HitsLarge`: the walk of an address meets a large page. The VMM takes such a page for a page
  table; the specifications here are about addresses whose walk does not;
* `store_apart`: a store outside the tables is none of their business;
* `vmmVirtToPhys_eq`: a lookup reads the entry of the page;
* `vmmMapPage_spec`: a successful call writes the entry of the page and links the tables missing
  on its way, and a failing call only links tables;
* `vmmMapPage_large`: on a large page a call without the USER flag writes into that page;
* `vmmUnmapPage_spec`: a call clears the entry of the page.
-/

namespace KiOS

/-- The walk of `virt` meets a large page. -/
def HitsLarge (m : PhysMem) (r : Frame) (virt : BitVec 64) : Prop :=
  LargePage (entryAt m r [pml4Index virt, pdptIndex virt] (pdIndex virt))

/-- A frame is a page table. -/
def IsTable (m : PhysMem) (r f : Frame) : Prop := ∃ q, q.length ≤ 3 ∧ tableAt m r q = some f

/-- The entry of the page of `virt`. -/
abbrev leafAt (m : PhysMem) (r : Frame) (virt : BitVec 64) : Pte :=
  entryAt m r (tablePath virt) (ptIndex virt)

/-- The entry that `vmm_map_page` writes. -/
def mapEntry (phys : BitVec 64) (flags : BitVec 32) : Pte :=
  (phys &&& ~~~(0xFFF : BitVec 64)) ||| flags.setWidth 64 ||| pagePresent

variable {m m' m'' : PhysMem} {r f g : Frame} {p q full : List Idx} {i j : Idx} {x : Pte}
  {virt phys : BitVec 64} {flags : BitVec 32}

lemma present_mapEntry : Present (mapEntry phys flags) := by
  rw [present_iff, mapEntry, BitVec.getLsbD_or]
  simp [pagePresent]

/-- The bits below the frame number are those of the flags. -/
lemma getLsbD_mapEntry {k : ℕ} (h0 : 0 < k) (hk : k < 12) :
    (mapEntry phys flags).getLsbD k = flags.getLsbD k := by
  have hmask : (~~~(0xFFF : BitVec 64)).getLsbD k = false := by
    interval_cases k <;> decide
  have hpr : pagePresent.getLsbD k = false := by
    interval_cases k <;> decide
  rw [mapEntry, BitVec.getLsbD_or, BitVec.getLsbD_or, BitVec.getLsbD_and, hmask, hpr,
    BitVec.getLsbD_setWidth]
  simp
  omega

lemma user_mapEntry : User (mapEntry phys flags) ↔ User (flags.setWidth 64) := by
  rw [user_iff, user_iff, getLsbD_mapEntry (by omega) (by omega), BitVec.getLsbD_setWidth]
  simp

lemma writable_mapEntry : Writable (mapEntry phys flags) ↔ Writable (flags.setWidth 64) := by
  rw [writable_iff, writable_iff, getLsbD_mapEntry (by omega) (by omega),
    BitVec.getLsbD_setWidth]
  simp

/-- Large pages are met at the third level only. -/
lemma Tables.not_largePage (ht : Tables m r) (hv : ¬ HitsLarge m r virt) :
    ∀ t i, t ++ [i] <+: tablePath virt → ¬ LargePage (entryAt m r ([] ++ t) i) := by
  intro t i hti hl
  rw [List.nil_append] at hl
  have hlen := hti.length_le
  simp only [List.length_append, tablePath, List.length_cons, List.length_nil] at hlen
  have htl : t.length = 2 := by rw [ht.large t i (by omega) hl]; rfl
  have heq : t ++ [i] = tablePath virt := hti.eq_of_length (by simp [htl, tablePath])
  obtain ⟨rfl, hi⟩ := List.append_inj' (show t ++ [i] = [pml4Index virt, pdptIndex virt]
    ++ [pdIndex virt] from heq) rfl
  rw [List.singleton_inj.mp hi] at hl
  exact hv hl

/-- A store outside the tables. -/
lemma store_apart (hf : ¬ IsTable m r f) :
    (∀ q, q.length ≤ 3 → tableAt (m.store f i x) r q = tableAt m r q)
      ∧ ∀ q j, q.length ≤ 3 → entryAt (m.store f i x) r q j = entryAt m r q j :=
  Radix.slot_write_of_apart child_zero fun q hq h => hf ⟨q, hq, h⟩

/-- Memories with the same tables. -/
lemma Tables.of_eq (ht : Tables m r) (hwalk : ∀ q, q.length ≤ 3 → tableAt m' r q = tableAt m r q)
    (hslot : ∀ q j, q.length ≤ 3 → entryAt m' r q j = entryAt m r q j) : Tables m' r := by
  refine ⟨fun p q f hp hq hwp hwq => ?_, fun q f hq hf => ht.low q f hq (hwalk q hq ▸ hf),
    fun q j hq hp => ?_, fun q j hq hl => ?_, fun q i j hq hu => ?_⟩
  · exact ht.tree p q f hp hq ((hwalk p hp).symm.trans hwp) ((hwalk q hq).symm.trans hwq)
  · rw [hslot q j (by omega)] at hp ⊢
    exact ht.writable q j hq hp
  · rw [hslot q j (by omega)] at hl
    exact ht.large q j hq hl
  · rw [hslot _ j (by simp; omega)] at hu
    rw [hslot q i (by omega)]
    exact ht.user q i j hq hu

/-! ### Lookups -/

/-- The table the VMM takes an entry to lead to: it does not look at the page-size bit. -/
def softChild (e : Pte) : Option Frame := if Present e then some (frameOf e) else none

lemma softChild_zero : softChild 0 = none := by decide

lemma softChild_eq (h : ¬ LargePage x) : softChild x = child x := by
  unfold softChild child
  by_cases hp : Present x
  · simp [hp, show ¬ Large x from fun hl => h ⟨hp, hl⟩]
  · simp [hp]

/-- A walk that creates nothing changes nothing. -/
lemma vmmDescend_lookup {σ : Type} (alloc : σ → BitVec 64 × σ) (s : σ) (path : List Idx) :
    vmmDescend alloc false 0 path f m s = (Radix.walk softChild m.word f path, m, s) := by
  induction path generalizing f with
  | nil => rfl
  | cons i path ih =>
      have hnext : vmmNextTable alloc false 0 f i m s = (softChild (m.word f i), m, s) := by
        unfold vmmNextTable softChild Present
        have hu : (0 : BitVec 32).setWidth 64 &&& pageUser = 0 := by decide
        split_ifs <;> simp_all
      rw [vmmDescend, hnext, Radix.walk]
      cases softChild (m.word f i) with
      | none => rfl
      | some g => exact ih

/-- `vmm_get_pte` without creating. -/
lemma vmmGetPte_eq : vmmGetPte r virt m
    = ((Radix.walk softChild m.word r (tablePath virt)).map fun pt => (pt, ptIndex virt), m) := by
  unfold vmmGetPte vmmGetPteFlags
  rw [vmmDescend_lookup]
  cases Radix.walk softChild m.word r (tablePath virt) <;> rfl

lemma Tables.softWalk_eq (ht : Tables m r) (hv : ¬ HitsLarge m r virt) :
    Radix.walk softChild m.word r (tablePath virt) = tableAt m r (tablePath virt) :=
  Radix.walk_congr child_zero softChild_zero fun t i hti =>
    softChild_eq (by simpa using ht.not_largePage hv t i hti)

/-- **A lookup** reads the entry of the page. -/
theorem vmmVirtToPhys_eq (ht : Tables m r) (hv : ¬ HitsLarge m r virt) :
    vmmVirtToPhys r virt m = if Present (leafAt m r virt)
      then (leafAt m r virt &&& ~~~(0xFFF : BitVec 64)) ||| (virt &&& 0xFFF) else 0 := by
  unfold vmmVirtToPhys
  rw [vmmGetPte_eq, ht.softWalk_eq hv]
  cases hq : tableAt m r (tablePath virt) with
  | none =>
      rw [leafAt, entryAt_of_none hq]
      simp
  | some f =>
      rw [leafAt, entryAt_of_table hq]
      simp only [Option.map_some, Present]
      split_ifs <;> simp_all

lemma softChild_or_pageUser : softChild (x ||| pageUser) = softChild x := by
  simp only [softChild, present_or_pageUser, frameOf_or_pageUser]

/-- Where all tables are there, or what the VMM takes for them, a descent that creates only adds
USER bits. -/
lemma vmmDescend_present {σ : Type} (flags : BitVec 32) (alloc : σ → BitVec 64 × σ) (s : σ)
    {path : List Idx}
    (h : Radix.walk softChild m.word f path = some g) :
    ∃ m', vmmDescend alloc true flags path f m s = (some g, m', s)
      ∧ ∀ f i, m'.word f i = m.word f i ∨ m'.word f i = m.word f i ||| pageUser := by
  induction path generalizing f m with
  | nil =>
      obtain rfl : f = g := Option.some.inj h
      exact ⟨m, rfl, fun _ _ => Or.inl rfl⟩
  | cons i path ih =>
      obtain ⟨f', hf', hrest⟩ := Option.bind_eq_some_iff.mp h
      have hpr : Present (m.word f i) := by
        by_contra hn
        rw [softChild, if_neg hn] at hf'
        cases hf'
      have hframe : frameOf (m.word f i) = f' := by
        rw [softChild, if_pos hpr] at hf'
        exact Option.some.inj hf'
      obtain ⟨m₁, hnext, hword⟩ : ∃ m₁, vmmNextTable alloc true flags f i m s = (some f', m₁, s)
          ∧ ∀ f i, m₁.word f i = m.word f i ∨ m₁.word f i = m.word f i ||| pageUser := by
        unfold vmmNextTable
        rw [if_neg hpr]
        split_ifs
        · refine ⟨m.store f i (m.word f i ||| pageUser),
            by simp [Radix.write, frameOf_or_pageUser, hframe], fun g j => ?_⟩
          simp only [PhysMem.store_word, Radix.write]
          split_ifs with hthis
          · exact Or.inr (by rw [hthis.1, hthis.2])
          · exact Or.inl rfl
        · exact ⟨m, by rw [hframe], fun _ _ => Or.inl rfl⟩
      have hsame : Radix.walk softChild m₁.word f' path = some g := by
        rw [Radix.walk_of_child_eq fun f i => ?_]
        · exact hrest
        · rcases hword f i with h' | h' <;> rw [h']
          exact softChild_or_pageUser
      obtain ⟨m', hdesc, hword'⟩ := ih hsame
      refine ⟨m', by rw [vmmDescend, hnext]; exact hdesc, fun f i => ?_⟩
      rcases hword' f i with h' | h' <;> rcases hword f i with h'' | h'' <;> rw [h', h'']
      · exact Or.inl rfl
      · exact Or.inr rfl
      · exact Or.inr rfl
      · exact Or.inr (by rw [BitVec.or_assoc, BitVec.or_self])

/-- Where all tables are there and no USER bit is asked for, a descent that creates changes
nothing. -/
lemma vmmDescend_still {σ : Type} (alloc : σ → BitVec 64 × σ) (s : σ) {path : List Idx}
    (hu : ¬ User (flags.setWidth 64)) (h : Radix.walk softChild m.word f path = some g) :
    vmmDescend alloc true flags path f m s = (some g, m, s) := by
  induction path generalizing f with
  | nil =>
      obtain rfl : f = g := Option.some.inj h
      rfl
  | cons i path ih =>
      obtain ⟨f', hf', hrest⟩ := Option.bind_eq_some_iff.mp h
      rw [softChild] at hf'
      split_ifs at hf' with hpr
      have hnext : vmmNextTable alloc true flags f i m s = (some (frameOf (m.word f i)), m, s) := by
        rw [vmmNextTable, if_neg hpr, if_neg fun h' => hu h'.1]
      rw [vmmDescend, hnext, Option.some.inj hf']
      exact ih hrest

/-- The frame that the VMM takes for the page table of an address on a large page. -/
def largeFrame (m : PhysMem) (r : Frame) (virt : BitVec 64) : Frame :=
  frameOf (entryAt m r [pml4Index virt, pdptIndex virt] (pdIndex virt))

lemma Tables.softWalk_large (ht : Tables m r) (hl : HitsLarge m r virt) :
    Radix.walk softChild m.word r (tablePath virt) = some (largeFrame m r virt) := by
  obtain ⟨pd, hpd⟩ : ∃ pd, tableAt m r [pml4Index virt, pdptIndex virt] = some pd := by
    refine Option.ne_none_iff_exists'.mp fun hnone => not_present_zero ?_
    have hpr := hl.1
    rwa [entryAt_of_none hnone] at hpr
  have hentry : entryAt m r [pml4Index virt, pdptIndex virt] (pdIndex virt)
      = m.word pd (pdIndex virt) := entryAt_of_table hpd
  -- above the directory there is no large page
  have hsoft : Radix.walk softChild m.word r [pml4Index virt, pdptIndex virt] = some pd := by
    rw [Radix.walk_congr child_zero softChild_zero fun t i hti => softChild_eq fun hlarge => ?_]
    · exact hpd
    · have hlen := hti.length_le
      rw [List.length_append, List.length_singleton, List.length_cons,
        List.length_singleton] at hlen
      have htl := ht.large t i (by omega) hlarge
      rw [htl] at hlen
      exact absurd hlen (by decide)
  have hpr : Present (m.word pd (pdIndex virt)) := hentry ▸ hl.1
  have hlast : softChild (m.word pd (pdIndex virt)) = some (largeFrame m r virt) := by
    rw [softChild, if_pos hpr, largeFrame, hentry]
  exact (Radix.walk_snoc softChild_zero).trans
    ((congrArg softChild (Radix.slot_of_walk hsoft)).trans hlast)

/-! ### Unmapping -/

/-- Unmapping clears one word at most, wherever the walk led. -/
lemma vmmUnmapPage_le (f : Frame) (i : Idx) :
    (vmmUnmapPage r virt m).word f i = m.word f i ∨ (vmmUnmapPage r virt m).word f i = 0 := by
  unfold vmmUnmapPage
  rw [vmmGetPte_eq]
  cases Radix.walk softChild m.word r (tablePath virt) with
  | none => exact Or.inl rfl
  | some pt =>
      simp only [Option.map_some]
      split_ifs
      · exact Or.inl rfl
      · simp only [PhysMem.store_word, Radix.write]
        split_ifs
        · exact Or.inr rfl
        · exact Or.inl rfl

/-- Clearing words keeps the tables proper. -/
lemma Tables.of_le (ht : Tables m r) (hle : ∀ f i, m'.word f i = m.word f i ∨ m'.word f i = 0) :
    Tables m' r := by
  have hslot : ∀ q j, entryAt m' r q j = entryAt m r q j ∨ entryAt m' r q j = 0 := fun q j =>
    Radix.slot_of_le child_zero hle
  refine ⟨Radix.tree_of_le child_zero hle ht.tree,
    fun q f hq hf => ht.low q f hq (Radix.walk_of_le child_zero hle hf), fun q j hq hpr => ?_,
    fun q j hq hl => ?_, fun q i j hq hu => ?_⟩
  · rcases hslot q j with h | h <;> rw [h] at hpr ⊢
    · exact ht.writable q j hq hpr
    · exact absurd hpr not_present_zero
  · rcases hslot q j with h | h <;> rw [h] at hl
    · exact ht.large q j hq hl
    · exact absurd hl.1 not_present_zero
  · rcases hslot (q ++ [i]) j with h | h <;> rw [h] at hu
    · have hu' := ht.user q i j hq hu
      rcases hslot q i with h' | h'
      · rwa [h']
      · -- the table below a cleared entry is gone
        have hn : tableAt m' r (q ++ [i]) = none := by simp [tableAt_snoc, h']
        rw [← h, entryAt_of_none hn] at hu
        exact absurd hu not_user_zero
    · exact absurd hu not_user_zero

/-- **Unmapping** clears the entry of the page. -/
theorem vmmUnmapPage_spec (ht : Tables m r) (hv : ¬ HitsLarge m r virt) :
    Tables (vmmUnmapPage r virt m) r
      ∧ (∀ q, q.length ≤ 3 → tableAt (vmmUnmapPage r virt m) r q = tableAt m r q)
      ∧ ∀ q j, q.length ≤ 3 → entryAt (vmmUnmapPage r virt m) r q j
        = if q = tablePath virt ∧ j = ptIndex virt ∧ Present (leafAt m r virt) then 0
          else entryAt m r q j := by
  refine ⟨ht.of_le vmmUnmapPage_le, ?_⟩
  unfold vmmUnmapPage
  rw [vmmGetPte_eq, ht.softWalk_eq hv]
  cases hp : tableAt m r (tablePath virt) with
  | none =>
      have hn : ¬ Present (leafAt m r virt) := by
        rw [leafAt, entryAt_of_none hp]
        exact not_present_zero
      simp [hn]
  | some pt =>
      have hleaf : leafAt m r virt = m.word pt (ptIndex virt) := entryAt_of_table hp
      simp only [Option.map_some]
      split_ifs with hpr
      · have hn : ¬ Present (leafAt m r virt) := fun h => h (by rw [hleaf]; exact hpr)
        simp [hn]
      · have hyes : Present (leafAt m r virt) := by
          rw [hleaf]
          exact hpr
        have hspec := ht.store_spec hp (x := 0) (i := ptIndex virt) (by simp [tablePath])
          (by simp [tablePath])
        simpa [hyes] using hspec

/-! ### Mapping -/

/-- Without the USER flag a call on a large page succeeds and writes one word: the first frame of
the page is taken for a page table. -/
lemma vmmMapPage_large {σ : Type} (alloc : σ → BitVec 64 × σ) (s : σ) (phys : BitVec 64)
    (ht : Tables m r) (hl : HitsLarge m r virt) (hu : ¬ User (flags.setWidth 64)) :
    vmmMapPage alloc r virt phys flags m s
      = (none, m.store (largeFrame m r virt) (ptIndex virt) (mapEntry phys flags), s) := by
  rw [vmmMapPage, vmmGetPteFlags, vmmDescend_still alloc s hu (ht.softWalk_large hl)]
  rfl

variable {σ : Type} {A : FrameSource σ} {s s' : σ}

/-- The tables that mapping `virt` has to allocate. -/
def missing (m : PhysMem) (r : Frame) (virt : BitVec 64) : ℕ := missingFrom m r [] (tablePath virt)

lemma missing_le (virt : BitVec 64) : missing m r virt ≤ 3 := by
  simp only [missing, missingFrom, tablePath]
  split_ifs <;> omega

/-- What a call of `vmm_map_page` that printed `err` leaves behind. -/
structure MapOk (A : FrameSource σ) (r : Frame) (virt phys : BitVec 64) (flags : BitVec 32)
    (m : PhysMem) (s : σ) (err : Option String) (m' : PhysMem) (s' : σ) : Prop where
  ok : VmmOk A r m' s'
  grows : Grows A r (tablePath virt) m s m' s'
  leaf : ∀ q j, q.length = 3 → entryAt m' r q j =
    if err = none ∧ q = tablePath virt ∧ j = ptIndex virt then mapEntry phys flags
    else entryAt m r q j
  fails_iff : err ≠ none ↔ A.free s < missing m r virt
  exhausted : err ≠ none → A.free s' = 0
  table : err = none → tableAt m' r (tablePath virt) ≠ none
  free : err = none → A.free s' + missing m r virt = A.free s

/-- Only what the tables above the last level say matters to the growth of the tree. -/
lemma Grows.congr (h : Grows A r full m s m' s')
    (hwalk : ∀ q, q.length ≤ 3 → tableAt m'' r q = tableAt m' r q)
    (hslot : ∀ q j, q.length ≤ 2 → entryAt m'' r q j = entryAt m' r q j) :
    Grows A r full m s m'' s' := by
  refine ⟨fun q f hq hf => (hwalk q hq).trans (h.mono q f hq hf),
    fun q hq hn hs => h.new q hq hn (hwalk q hq ▸ hs), fun q j hq hl => ?_, fun q j hq hpr => ?_,
    fun f => ?_, fun q f hq hn hs => h.fresh q f hq hn (hwalk q hq ▸ hs)⟩
  · rw [hslot q j hq] at hl ⊢
    exact h.large q j hq hl
  · rw [hslot q j hq]
    exact h.keeps q j hq hpr
  · rw [h.taken]
    refine or_congr_right ⟨fun ⟨q, hq, hn, hs⟩ => ⟨q, hq, hn, (hwalk q hq).trans hs⟩,
      fun ⟨q, hq, hn, hs⟩ => ⟨q, hq, hn, (hwalk q hq).symm.trans hs⟩⟩

/-- **Mapping**, at an address whose walk meets no large page. -/
theorem vmmMapPage_spec (phys : BitVec 64) (flags : BitVec 32) (h : VmmOk A r m s)
    (hv : ¬ HitsLarge m r virt) :
    ∃ err m' s', vmmMapPage A.alloc r virt phys flags m s = (err, m', s')
      ∧ MapOk A r virt phys flags m s err m' s' := by
  obtain ⟨out, m₁, s₁, heq, hd⟩ :=
    vmmDescend_spec flags h (p := []) rfl (by simp [tablePath]) (h.tables.not_largePage hv)
    fun _ q i hq => absurd hq.length_le (by simp)
  unfold vmmMapPage vmmGetPteFlags
  rw [heq]
  cases out with
  | none =>
      exact ⟨_, _, _, rfl, hd.ok, hd.grows, fun q j hq => by simp [hd.leaf q j hq],
        ⟨fun _ => hd.fails_iff.mp rfl, by simp⟩, fun _ => hd.exhausted rfl, by simp, by simp⟩
  | some pt =>
      have hpt : tableAt m₁ r (tablePath virt) = some pt := hd.table pt rfl
      obtain ⟨hwalk, hslot⟩ := hd.ok.tables.store_spec hpt (i := ptIndex virt)
        (x := mapEntry phys flags) (by simp [tablePath]) (by simp [tablePath])
      have hne : ∀ q : List Idx, q.length ≤ 2 → q ≠ tablePath virt := fun q hq h' => by
        rw [h'] at hq
        simp [tablePath] at hq
      refine ⟨none, _, _, rfl, ⟨?_, hd.ok.inv,
        fun q g hq hg => hd.ok.owned q g hq (hwalk q hq ▸ hg)⟩,
        hd.grows.congr hwalk fun q j hq => ?_, fun q j hq => ?_, ?_, by simp, fun _ => ?_,
        fun _ => hd.free pt rfl⟩
      · refine hd.ok.tables.of_point (Radix.tree_write child_zero hd.ok.tables.tree hpt
          (by simp [tablePath]) (by simp [tablePath]))
          (fun q g hq hg => hd.ok.tables.low q g hq (hwalk q hq ▸ hg)) hslot (by simp [tablePath])
          (fun hu q i hq => ?_) (by simp [tablePath])
        exact hd.user pt rfl (user_mapEntry.mp hu) q i (by simp [hq])
      · rw [← mapEntry, hslot q j (by omega), if_neg fun h' => hne q hq h'.1]
      · rw [← mapEntry, hslot q j (by omega), hd.leaf q j hq]
        simp
      · have := hd.fails_iff
        simpa [missing] using this
      · rw [← mapEntry, hwalk _ (by simp [tablePath]), hpt]
        simp

end KiOS
