import KiOS.Mm.Vmm

/-!
The page tables as a tree, and what the VMM does to it.

* `tableAt`, `entryAt`: the table that a path of indices leads to and the entries in it, with
  the tables of `Library/Radix`: a large page leads nowhere;
* `Tables`: the invariant. No table is reached twice, entries above the last level are writable,
  only the directory of stage 2 holds large pages, and a USER entry has USER links above it;
* `VmmOk`: the invariant with the allocator: every table is a taken frame;
* `Grows`: what a descent may do to the tree: link new tables along its path, and nothing else
  that is visible below;
* `vmmDescend_spec`: the walk of `vmm_get_pte_flags`, by induction on the indices to go.
-/

namespace KiOS

/-- The table an entry leads to. -/
def child (e : Pte) : Option Frame := if Present e ∧ ¬ Large e then some (frameOf e) else none

@[simp] lemma child_zero : child 0#64 = none := by decide

/-- The table at the end of a path. -/
abbrev tableAt (m : PhysMem) (r : Frame) (q : List Idx) : Option Frame :=
  Radix.walk child m.word r q

/-- The entry at the end of a path, zero if there is no table. -/
abbrev entryAt (m : PhysMem) (r : Frame) (q : List Idx) (j : Idx) : Pte :=
  Radix.slot child m.word r q j

/-- An entry above the last level that is a leaf. -/
def LargePage (e : Pte) : Prop := Present e ∧ Large e

instance : DecidablePred LargePage := fun _ => inferInstanceAs (Decidable (_ ∧ _))

/-- The page tables are a tree of proper tables. -/
structure Tables (m : PhysMem) (r : Frame) : Prop where
  tree : Radix.Tree child m.word r 3
  low : ∀ q f, q.length ≤ 3 → tableAt m r q = some f → f.toNat < 2 ^ 40
  writable : ∀ q j, q.length ≤ 2 → Present (entryAt m r q j) → Writable (entryAt m r q j)
  large : ∀ q j, q.length ≤ 2 → LargePage (entryAt m r q j) → q = [0, 0]
  user : ∀ q i j, q.length ≤ 2 → User (entryAt m r (q ++ [i]) j) → User (entryAt m r q i)

variable {m m' m'' : PhysMem} {r f g : Frame} {p q full : List Idx} {i j : Idx} {x : Pte}

lemma tableAt_snoc : tableAt m r (q ++ [j]) = child (entryAt m r q j) := Radix.walk_snoc child_zero

lemma entryAt_of_table (h : tableAt m r q = some f) : entryAt m r q j = m.word f j :=
  Radix.slot_of_walk h

lemma entryAt_of_none (h : tableAt m r q = none) : entryAt m r q j = 0 := Radix.slot_of_walk_none h

@[simp] lemma not_user_zero : ¬ User 0#64 := by decide

@[simp] lemma not_present_zero : ¬ Present 0#64 := by decide

/-- A change of one entry keeps the tables proper if the new entry is one. -/
lemma Tables.of_point (ht : Tables m r) (htree : Radix.Tree child m'.word r 3)
    (hlow : ∀ q f, q.length ≤ 3 → tableAt m' r q = some f → f.toNat < 2 ^ 40)
    (hE : ∀ q j, q.length ≤ 3 → entryAt m' r q j = if q = p ∧ j = i then x else entryAt m r q j)
    (hx : p.length ≤ 2 → (Present x → Writable x) ∧ ¬ LargePage x)
    (hup : User x → ∀ q i', p = q ++ [i'] → User (entryAt m r q i'))
    (hdown : p.length ≤ 2 → ∀ j, User (entryAt m r (p ++ [i]) j) → User x) : Tables m' r := by
  refine ⟨htree, hlow, fun q j hq hpr => ?_, fun q j hq hl => ?_, fun q i' j hq hu => ?_⟩
  · rw [hE q j (by omega)] at hpr ⊢
    split_ifs at hpr ⊢ with h
    · exact (hx (h.1 ▸ hq)).1 hpr
    · exact ht.writable q j hq hpr
  · rw [hE q j (by omega)] at hl
    split_ifs at hl with h
    · exact absurd hl (hx (h.1 ▸ hq)).2
    · exact ht.large q j hq hl
  · rw [hE _ j (by simp; omega)] at hu
    rw [hE q i' (by omega)]
    split_ifs at hu with h
    · have hne : q ≠ p := fun h' => by simpa [h'] using h.1.symm
      rw [if_neg fun h' => hne h'.1]
      exact hup hu q i' h.1.symm
    · split_ifs with h'
      · obtain ⟨rfl, rfl⟩ := h'
        exact hdown hq j hu
      · exact ht.user q i' j hq hu

variable {σ : Type} {A : FrameSource σ} {s s' s'' : σ} {flags : BitVec 32}

/-- The page tables and the allocator: the frame of every table is taken. -/
structure VmmOk (A : FrameSource σ) (r : Frame) (m : PhysMem) (s : σ) : Prop where
  tables : Tables m r
  inv : A.Inv s
  owned : ∀ q f, q.length ≤ 3 → tableAt m r q = some f → A.Taken s f

/-- What a descent along `full` may do. -/
structure Grows (A : FrameSource σ) (r : Frame) (full : List Idx) (m : PhysMem) (s : σ)
    (m' : PhysMem) (s' : σ) : Prop where
  mono : ∀ q f, q.length ≤ 3 → tableAt m r q = some f → tableAt m' r q = some f
  new : ∀ q, q.length ≤ 3 → tableAt m r q = none → tableAt m' r q ≠ none → q <+: full
  large : ∀ q j, q.length ≤ 2 → LargePage (entryAt m r q j) ∨ LargePage (entryAt m' r q j) →
    entryAt m' r q j = entryAt m r q j
  keeps : ∀ q j, q.length ≤ 2 → Present (entryAt m r q j) →
    Present (entryAt m' r q j) ∧ (User (entryAt m r q j) → User (entryAt m' r q j))
  taken : ∀ f, A.Taken s' f ↔
    A.Taken s f ∨ ∃ q, q.length ≤ 3 ∧ tableAt m r q = none ∧ tableAt m' r q = some f
  fresh : ∀ q f, q.length ≤ 3 → tableAt m r q = none → tableAt m' r q = some f → ¬ A.Taken s f

namespace Grows

lemma refl : Grows A r full m s m s :=
  ⟨fun _ _ _ h => h, fun _ _ h h' => absurd h h', fun _ _ _ _ => rfl,
    fun _ _ _ h => ⟨h, id⟩,
    fun f => ⟨Or.inl, fun h => h.elim id fun ⟨q, _, h1, h2⟩ => by rw [h1] at h2; cases h2⟩,
    fun _ _ _ h h' => by rw [h] at h'; cases h'⟩

lemma trans (h : Grows A r full m s m' s') (h' : Grows A r full m' s' m'' s'') :
    Grows A r full m s m'' s'' := by
  refine ⟨fun q f hq hf => h'.mono q f hq (h.mono q f hq hf), fun q hq hn hs => ?_,
    fun q j hq hl => ?_, fun q j hq hpr => ?_, fun f => ?_, fun q f hq hn hs => ?_⟩
  · by_cases hm : tableAt m' r q = none
    · exact h'.new q hq hm hs
    · exact h.new q hq hn hm
  · rcases hl with hl | hl
    · have heq := h.large q j hq (Or.inl hl)
      rw [h'.large q j hq (Or.inl (heq ▸ hl)), heq]
    · have heq := h'.large q j hq (Or.inr hl)
      rw [heq, h.large q j hq (Or.inr (heq ▸ hl))]
  · obtain ⟨hpr₁, hu₁⟩ := h.keeps q j hq hpr
    obtain ⟨hpr₂, hu₂⟩ := h'.keeps q j hq hpr₁
    exact ⟨hpr₂, fun hu => hu₂ (hu₁ hu)⟩
  · rw [h'.taken, h.taken]
    constructor
    · rintro ((hf | ⟨q, hq, hn, hs⟩) | ⟨q, hq, hn, hs⟩)
      · exact Or.inl hf
      · exact Or.inr ⟨q, hq, hn, h'.mono q f hq hs⟩
      · refine Or.inr ⟨q, hq, ?_, hs⟩
        by_contra hne
        obtain ⟨g, hg⟩ := Option.ne_none_iff_exists'.mp hne
        rw [h.mono q g hq hg] at hn
        cases hn
    · rintro (hf | ⟨q, hq, hn, hs⟩)
      · exact Or.inl (Or.inl hf)
      · cases hm : tableAt m' r q with
        | none => exact Or.inr ⟨q, hq, hm, hs⟩
        | some g =>
            have hgf : g = f := Option.some.inj ((h'.mono q g hq hm).symm.trans hs)
            exact Or.inl (Or.inr ⟨q, hq, hn, hgf ▸ hm⟩)
  · cases hm : tableAt m' r q with
    | none => exact fun hf => h'.fresh q f hq hm hs ((h.taken f).mpr (Or.inl hf))
    | some g =>
        have hgf : g = f := Option.some.inj ((h'.mono q g hq hm).symm.trans hs)
        exact h.fresh q f hq hn (hgf ▸ hm)

lemma of_prefix {full' : List Idx} (h : Grows A r full m s m' s') (hf : full <+: full') :
    Grows A r full' m s m' s' :=
  ⟨h.mono, fun q hq hn hs => (h.new q hq hn hs).trans hf, h.large, h.keeps, h.taken, h.fresh⟩

/-- Elsewhere tables are missing as before. -/
lemma none_iff (h : Grows A r full m s m' s') (hq : q.length ≤ 3) (hf : ¬ q <+: full) :
    tableAt m r q = none ↔ tableAt m' r q = none := by
  constructor
  · intro hn
    by_contra hs
    exact hf (h.new q hq hn hs)
  · intro hn
    by_contra hs
    obtain ⟨g, hg⟩ := Option.ne_none_iff_exists'.mp hs
    rw [h.mono q g hq hg] at hn
    cases hn

end Grows

/-! ### One level -/

/-- What one level leaves behind when it leads on to the table `g`. -/
structure NextOk (A : FrameSource σ) (r : Frame) (p : List Idx) (i : Idx) (flags : BitVec 32)
    (m : PhysMem) (s : σ) (g : Frame) (m' : PhysMem) (s' : σ) : Prop where
  ok : VmmOk A r m' s'
  grows : Grows A r (p ++ [i]) m s m' s'
  leaf : ∀ q j, q.length = 3 → entryAt m' r q j = entryAt m r q j
  table : tableAt m' r (p ++ [i]) = some g
  user : User (flags.setWidth 64) → User (entryAt m' r p i)
  free : A.free s' + (if tableAt m r (p ++ [i]) = none then 1 else 0) = A.free s

lemma child_eq_some : child x = some f ↔ Present x ∧ ¬ Large x ∧ frameOf x = f := by
  unfold child
  split_ifs with h
  · simp [h.1, h.2]
  · simp only [false_iff, not_and]
    simp only [not_and_not_right] at h
    exact fun hp hl => absurd (h hp) hl

lemma child_or_pageUser : child (x ||| pageUser) = child x := by
  simp only [child, present_or_pageUser, large_or_pageUser, frameOf_or_pageUser]

/-- A write that keeps the paths, in terms of the page tables. -/
lemma Tables.store_spec (ht : Tables m r) (hp : tableAt m r p = some f) (hlen : p.length ≤ 3)
    (hkeep : p.length < 3 → child x = child (m.word f i)) :
    (∀ q, q.length ≤ 3 → tableAt (m.store f i x) r q = tableAt m r q)
      ∧ ∀ q j, q.length ≤ 3 →
        entryAt (m.store f i x) r q j = if q = p ∧ j = i then x else entryAt m r q j :=
  Radix.slot_write child_zero ht.tree hp hlen hkeep

/-- An existing entry gets the USER bit. -/
lemma promote_spec (flags : BitVec 32) (h : VmmOk A r m s) (hp : tableAt m r p = some f)
    (hlen : p.length ≤ 2)
    (hpr : Present (m.word f i)) (hnl : ¬ Large (m.word f i))
    (hup : ∀ q i', p = q ++ [i'] → User (entryAt m r q i')) :
    NextOk A r p i flags m s (frameOf (m.word f i)) (m.store f i (m.word f i ||| pageUser)) s := by
  have hch : child (m.word f i ||| pageUser) = child (m.word f i) := child_or_pageUser
  obtain ⟨hwalk, hslot⟩ := h.tables.store_spec hp (i := i) (by omega) fun _ => hch
  have hpi : tableAt m r (p ++ [i]) = some (frameOf (m.word f i)) := by
    rw [tableAt_snoc, entryAt_of_table hp]
    exact child_eq_some.mpr ⟨hpr, hnl, rfl⟩
  have he : entryAt m r p i = m.word f i := entryAt_of_table hp
  refine ⟨⟨?_, h.inv, fun q g hq hg => h.owned q g hq ((hwalk q hq) ▸ hg)⟩,
    ⟨fun q g hq hg => (hwalk q hq).trans hg, fun q hq hn hs => absurd ((hwalk q hq).trans hn) hs,
      fun q j hq hl => ?_, fun q j hq hpr' => ?_, fun g => ?_,
      fun q g hq hn hs => by rw [hwalk q hq, hn] at hs; cases hs⟩, fun q j hq => ?_,
    (hwalk _ (by simp; omega)).trans hpi,
    fun _ => ?_, by simp [hpi]⟩
  · refine h.tables.of_point (Radix.tree_write child_zero h.tables.tree hp (by omega) fun _ => hch)
      (fun q g hq hg => h.tables.low q g hq ((hwalk q hq) ▸ hg)) hslot (fun _ => ⟨?_, ?_⟩)
      (fun _ => hup) fun _ _ _ => user_or_pageUser
    · rw [present_or_pageUser, writable_or_pageUser, ← he]
      exact h.tables.writable p i hlen
    · exact fun hl => hnl (large_or_pageUser.mp hl.2)
  · rw [hslot q j (by omega)] at hl ⊢
    split_ifs at hl ⊢ with h'
    · obtain ⟨rfl, rfl⟩ := h'
      rw [he] at hl
      rcases hl with hl | hl
      · exact absurd hl.2 hnl
      · exact absurd (large_or_pageUser.mp hl.2) hnl
    · rfl
  · rw [hslot q j (by omega)]
    split_ifs
    · exact ⟨present_or_pageUser.mpr hpr, fun _ => user_or_pageUser⟩
    · exact ⟨hpr', id⟩
  · refine ⟨Or.inl, fun hg => hg.elim id fun ⟨q, hq, hn, hs⟩ => ?_⟩
    rw [hwalk q hq, hn] at hs
    cases hs
  · rw [hslot q j (by omega), if_neg fun h' => by rw [h'.1] at hq; omega]
  · rw [hslot p i (by omega), if_pos ⟨rfl, rfl⟩]
    exact user_or_pageUser

/-- A missing table is allocated, zeroed and linked. -/
lemma link_spec (flags : BitVec 32) (h : VmmOk A r m s) (hp : tableAt m r p = some f)
    (hlen : p.length ≤ 2)
    (hpr : ¬ Present (m.word f i)) (hfree : 0 < A.free s)
    (hup : User (flags.setWidth 64) → ∀ q i', p = q ++ [i'] → User (entryAt m r q i')) :
    NextOk A r p i flags m s (frameOf (A.alloc s).1)
      ((m.zeroTable (frameOf (A.alloc s).1)).store f i ((A.alloc s).1 ||| parentFlags flags))
      (A.alloc s).2 := by
  have hal := A.alloc_aligned s h.inv hfree
  obtain ⟨hpr', hw', hnl', hu'⟩ := link_entry flags hal
  set phys := (A.alloc s).1 with hphys
  set x := phys ||| parentFlags flags with hxdef
  set m' := (m.zeroTable (frameOf phys)).store f i x with hm'
  have hnone : child (m.word f i) = none := by simp [child, hpr]
  have hch : child x = some (frameOf phys) :=
    child_eq_some.mpr ⟨hpr', hnl', frameOf_or_parentFlags⟩
  have hfresh : ∀ q, q.length ≤ 3 → tableAt m r q ≠ some (frameOf phys) := fun q hq hg =>
    A.alloc_fresh s h.inv hfree (h.owned q _ hq hg)
  have hword : m'.word = Radix.write (Radix.zeroed m.word (frameOf phys)) f i x := by
    rw [hm', PhysMem.store_word, PhysMem.zeroTable_word]
  have hlink := Radix.slot_link child_zero h.tables.tree hp (i := i) (by omega) hnone hch hfresh
  rw [← hword] at hlink
  have hwalk : ∀ q, q.length ≤ 3 → tableAt m' r q
      = if q = p ++ [i] then some (frameOf phys) else tableAt m r q := hlink.1
  have hslot : ∀ q j, q.length ≤ 3 → entryAt m' r q j
      = if q = p ∧ j = i then x else entryAt m r q j := hlink.2
  have hpi : tableAt m r (p ++ [i]) = none := by
    rw [tableAt_snoc, entryAt_of_table hp, hnone]
  have he : entryAt m r p i = m.word f i := entryAt_of_table hp
  have hlow : (frameOf phys).toNat < 2 ^ 40 := by
    have hlt := A.alloc_lt s h.inv hfree
    rw [toNat_frameOf, hphys]
    omega
  have htaken := A.alloc_taken s h.inv hfree
  refine ⟨⟨?_, A.alloc_inv s h.inv hfree, fun q g hq hg => ?_⟩,
    ⟨fun q g hq hg => ?_, fun q hq hn hs => ?_, fun q j hq hl => ?_,
      fun q j hq hpr'' => ?_, fun g => ?_, fun q g hq hn hs => ?_⟩, fun q j hq => ?_,
    by rw [hwalk _ (by simp; omega), if_pos rfl], fun hu => ?_, ?_⟩
  · refine h.tables.of_point ?_ (fun q g hq hg => ?_) hslot (fun _ => ⟨fun _ => hw', fun hl => ?_⟩)
      (fun hu => hup (hu'.mp hu)) fun _ j hu => ?_
    · rw [hword]
      exact Radix.tree_link child_zero h.tables.tree hp (by omega) hnone hch hfresh
    · rw [hwalk q hq] at hg
      split_ifs at hg with h'
      · exact Option.some.inj hg ▸ hlow
      · exact h.tables.low q g hq hg
    · exact hnl' hl.2
    · rw [entryAt_of_none hpi] at hu
      exact absurd hu not_user_zero
  · rw [hwalk q hq] at hg
    rw [htaken]
    split_ifs at hg with h'
    · exact Or.inr (Option.some.inj hg).symm
    · exact Or.inl (h.owned q g hq hg)
  · rw [hwalk q hq, if_neg fun h' => by rw [h', hpi] at hg; cases hg]
    exact hg
  · rw [hwalk q hq] at hs
    split_ifs at hs with h'
    · exact h' ▸ List.prefix_refl _
    · exact absurd hn hs
  · rw [hslot q j (by omega)] at hl ⊢
    split_ifs at hl ⊢ with h'
    · obtain ⟨rfl, rfl⟩ := h'
      rw [he] at hl
      rcases hl with hl | hl
      · exact absurd hl.1 hpr
      · exact absurd hl.2 hnl'
    · rfl
  · have hne : ¬ (q = p ∧ j = i) := by
      rintro ⟨rfl, rfl⟩
      exact hpr (he ▸ hpr'')
    rw [hslot q j (by omega), if_neg hne]
    exact ⟨hpr'', id⟩
  · rw [htaken]
    constructor
    · rintro (hg | rfl)
      · exact Or.inl hg
      · exact Or.inr ⟨p ++ [i], by simp; omega, hpi, by rw [hwalk _ (by simp; omega), if_pos rfl]⟩
    · rintro (hg | ⟨q, hq, hn, hs⟩)
      · exact Or.inl hg
      · rw [hwalk q hq] at hs
        split_ifs at hs with h'
        · exact Or.inr (Option.some.inj hs).symm
        · rw [hn] at hs
          cases hs
  · rw [hwalk q hq] at hs
    split_ifs at hs with h'
    · exact Option.some.inj hs ▸ A.alloc_fresh s h.inv hfree
    · rw [hn] at hs
      cases hs
  · rw [hslot q j (by omega), if_neg fun h' => by rw [h'.1] at hq; omega]
  · rw [hslot p i (by omega), if_pos ⟨rfl, rfl⟩]
    exact hu'.mpr hu
  · rw [if_pos hpi]
    exact A.alloc_free s h.inv hfree

/-- One level of the walk, at an entry that is no large page: it leads on, or there is no table
and no page left for one. -/
lemma vmmNextTable_spec (h : VmmOk A r m s) (hp : tableAt m r p = some f) (hlen : p.length ≤ 2)
    (hnl : ¬ LargePage (m.word f i))
    (hup : User (flags.setWidth 64) → ∀ q i', p = q ++ [i'] → User (entryAt m r q i')) :
    (tableAt m r (p ++ [i]) = none ∧ A.free s = 0
        ∧ vmmNextTable A.alloc true flags f i m s = (none, m, s))
      ∨ ∃ g m' s', vmmNextTable A.alloc true flags f i m s = (some g, m', s')
        ∧ NextOk A r p i flags m s g m' s' := by
  have he : entryAt m r p i = m.word f i := entryAt_of_table hp
  unfold vmmNextTable
  by_cases hpr : m.word f i &&& pagePresent = 0
  · simp only [hpr, if_true, Bool.true_eq_false, if_false]
    have hpr' : ¬ Present (m.word f i) := fun h' => h' hpr
    rcases Nat.eq_zero_or_pos (A.free s) with hz | hfree
    · refine Or.inl ⟨?_, hz, ?_⟩
      · rw [tableAt_snoc, he]
        simp [child, hpr']
      · simp [A.alloc_zero s h.inv hz]
    · rw [if_neg (A.alloc_ne_zero s h.inv hfree)]
      refine Or.inr ⟨_, _, _, rfl, ?_⟩
      have hspec := link_spec flags h hp hlen hpr' hfree hup
      have hread : frameOf (((m.zeroTable (frameOf (A.alloc s).1)).store f i
          ((A.alloc s).1 ||| parentFlags flags)).word f i) = frameOf (A.alloc s).1 := by
        simp [Radix.write, frameOf_or_parentFlags]
      rw [hread]
      exact hspec
  · have hnl' : ¬ Large (m.word f i) := fun hl => hnl ⟨hpr, hl⟩
    have hpi : tableAt m r (p ++ [i]) = some (frameOf (m.word f i)) := by
      rw [tableAt_snoc, he]
      exact child_eq_some.mpr ⟨hpr, hnl', rfl⟩
    rw [if_neg hpr]
    split_ifs with hu
    · have hspec := promote_spec flags h hp hlen hpr hnl' (hup hu.1)
      refine Or.inr ⟨_, _, _, rfl, ?_⟩
      have hread : frameOf ((m.store f i (m.word f i ||| pageUser)).word f i)
          = frameOf (m.word f i) := by
        simp [Radix.write, frameOf_or_pageUser]
      rw [hread]
      exact hspec
    · refine Or.inr ⟨_, _, _, rfl, ⟨h, Grows.refl, fun _ _ _ => rfl, hpi,
        fun hu' => ?_, by simp [hpi]⟩⟩
      rw [he]
      exact fun h0 => hu ⟨hu', h0⟩

namespace NextOk

variable {path : List Idx}

/-- A level puts no large page on the way that is left. -/
lemma not_large (h : NextOk A r p i flags m s g m' s') (hlen : p.length + (path.length + 1) ≤ 3)
    (hnl : ∀ t j, t ++ [j] <+: i :: path → ¬ LargePage (entryAt m r (p ++ t) j)) :
    ∀ t j, t ++ [j] <+: path → ¬ LargePage (entryAt m' r (p ++ [i] ++ t) j) := by
  intro t j htj hl
  have htlen := htj.length_le
  rw [List.length_append, List.length_singleton] at htlen
  have hsame := h.grows.large (p ++ [i] ++ t) j (by simp; omega) (Or.inr hl)
  rw [hsame, List.append_assoc] at hl
  exact hnl (i :: t) j (by simpa using htj) hl

/-- The links so far carry the USER bit if it is asked for. -/
lemma links (h : NextOk A r p i flags m s g m' s') (hu : User (flags.setWidth 64))
    (hp : tableAt m r p = some f) (hlen : p.length ≤ 2)
    (hup : ∀ q j, q ++ [j] <+: p → User (entryAt m r q j)) :
    ∀ q j, q ++ [j] <+: p ++ [i] → User (entryAt m' r q j) := by
  intro q j hq
  rcases List.prefix_concat_iff.mp hq with hq | hq
  · obtain ⟨rfl, hj⟩ := List.append_inj' hq rfl
    rw [List.singleton_inj.mp hj]
    exact h.user hu
  · obtain ⟨t, rfl⟩ := hq
    obtain ⟨g', hg'⟩ := Radix.walk_prefix hp
    have hch : child (entryAt m r q j) = some g' := tableAt_snoc.symm.trans hg'
    have hqlen : q.length ≤ 2 := by
      simp only [List.length_append, List.length_singleton] at hlen
      omega
    exact (h.grows.keeps q j hqlen (child_eq_some.mp hch).1).2 (hup q j (List.prefix_append _ _))

end NextOk

/-! ### The descent -/

/-- The tables a descent has to allocate, from the end of `p` on. -/
def missingFrom (m : PhysMem) (r : Frame) : List Idx → List Idx → ℕ
  | _, [] => 0
  | p, i :: path =>
      (if tableAt m r (p ++ [i]) = none then 1 else 0) + missingFrom m r (p ++ [i]) path

/-- Tables that are not below the end of a path are none of the tables a descent needs. -/
lemma missingFrom_congr {path : List Idx}
    (h : ∀ t, t ≠ [] → t <+: path → (tableAt m r (p ++ t) = none ↔ tableAt m' r (p ++ t) = none)) :
    missingFrom m r p path = missingFrom m' r p path := by
  induction path generalizing p with
  | nil => rfl
  | cons i path ih =>
      rw [missingFrom, missingFrom]
      have hi := h [i] (by simp) (by simp)
      have hrest := ih (p := p ++ [i]) fun t ht htp => by
        have := h (i :: t) (by simp) (by simpa using htp)
        simpa using this
      rw [hrest]
      simp only [hi]

/-- What a descent along `p ++ path` leaves behind. -/
structure DescendOk (A : FrameSource σ) (r : Frame) (p path : List Idx) (flags : BitVec 32)
    (m : PhysMem) (s : σ) (out : Option Frame) (m' : PhysMem) (s' : σ) : Prop where
  ok : VmmOk A r m' s'
  grows : Grows A r (p ++ path) m s m' s'
  leaf : ∀ q j, q.length = 3 → entryAt m' r q j = entryAt m r q j
  fails_iff : out = none ↔ A.free s < missingFrom m r p path
  exhausted : out = none → A.free s' = 0
  table : ∀ g, out = some g → tableAt m' r (p ++ path) = some g
  user : ∀ g, out = some g → User (flags.setWidth 64) →
    ∀ q i, q ++ [i] <+: p ++ path → User (entryAt m' r q i)
  free : ∀ g, out = some g → A.free s' + missingFrom m r p path = A.free s

/-- **The descent**, by induction on the indices to go. The tables along `p` are there, their
links carry the USER bit if it is asked for, and no large page is on the way. -/
theorem vmmDescend_spec (flags : BitVec 32) {path : List Idx} (h : VmmOk A r m s)
    (hp : tableAt m r p = some f)
    (hlen : p.length + path.length ≤ 3)
    (hnl : ∀ t i, t ++ [i] <+: path → ¬ LargePage (entryAt m r (p ++ t) i))
    (hup : User (flags.setWidth 64) → ∀ q i, q ++ [i] <+: p → User (entryAt m r q i)) :
    ∃ out m' s', vmmDescend A.alloc true flags path f m s = (out, m', s')
      ∧ DescendOk A r p path flags m s out m' s' := by
  induction path generalizing p f m s with
  | nil =>
      refine ⟨some f, m, s, rfl, h, Grows.refl, fun _ _ _ => rfl, by simp [missingFrom],
        by simp, fun g hg => ?_,
        fun g _ hu => by simpa using hup hu, fun g _ => by simp [missingFrom]⟩
      simpa [hp] using hg
  | cons i path ih =>
      rw [List.length_cons] at hlen
      have he : entryAt m r p i = m.word f i := entryAt_of_table hp
      have hnl' : ¬ LargePage (m.word f i) := by
        have := hnl [] i (by simp)
        rwa [List.append_nil, he] at this
      rcases vmmNextTable_spec (i := i) h hp (by omega) hnl'
        (fun hu q i' hq => hup hu q i' (by rw [hq])) with
        ⟨hn, hz, heq⟩ | ⟨g, m₁, s₁, heq, h₁⟩
      · -- no page left for the missing table
        refine ⟨none, m, s, by rw [vmmDescend, heq], h, Grows.refl, fun _ _ _ => rfl, ?_,
          fun _ => hz, by simp, by simp, by simp⟩
        simp [missingFrom, hn, hz]
      · have hnl₁ := h₁.not_large hlen hnl
        have hup₁ : User (flags.setWidth 64) → ∀ q j, q ++ [j] <+: p ++ [i] →
            User (entryAt m₁ r q j) := fun hu => h₁.links hu hp (by omega) (hup hu)
        obtain ⟨out, m', s', heq', h'⟩ := ih h₁.ok h₁.table (by simp; omega) hnl₁ hup₁
        have hmiss : missingFrom m r (p ++ [i]) path = missingFrom m₁ r (p ++ [i]) path := by
          refine missingFrom_congr fun t ht htp => h₁.grows.none_iff ?_ fun hpre => ?_
          · have := htp.length_le
            simp
            omega
          · have := hpre.length_le
            have hpos := List.length_pos_iff.mpr ht
            simp only [List.length_append] at this
            omega
        have hfree := h₁.free
        refine ⟨out, m', s', by rw [vmmDescend, heq]; exact heq', h'.ok, ?_,
          fun q j hq => (h'.leaf q j hq).trans (h₁.leaf q j hq), ?_, h'.exhausted,
          fun g' hg' => by simpa using h'.table g' hg',
          fun g' hg' hu => by simpa using h'.user g' hg' hu, fun g' hg' => ?_⟩
        · refine (h₁.grows.of_prefix ?_).trans (h'.grows.of_prefix (by simp))
          simp
        · rw [h'.fails_iff, missingFrom, hmiss]
          omega
        · have := h'.free g' hg'
          rw [missingFrom, hmiss]
          omega

end KiOS
