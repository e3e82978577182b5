import KiOS.Mm.HeapLedger

/-!
The loop of `kmalloc`, when pages run out.

A page of the heap costs a page of memory and the tables missing on its way. `vmm_map_page` does
not say that it failed, so that it matters at which page the PMM runs dry, and when it does so.

* `demand`: what one page costs;
* `heapDemand`: what all pages cost together;
* `HeapOutcome`, `heapOutcome`: what becomes of the pages still to be mapped, from the number of
  free pages alone;
* `LoopOk`: what the loop does in each of the four cases;
* `mapHeapPages_spec`: it does so, by induction on the pages.
-/

namespace KiOS

/-- The tables on the way to a page, the PML4 apart. -/
def tablesFor (virt : BitVec 64) : List (List Idx) :=
  [[pml4Index virt], [pml4Index virt, pdptIndex virt], tablePath virt]

/-- What mapping a page costs where the tables `known` are there. -/
def demand (known : List Idx → Bool) (page : BitVec 64) : ℕ :=
  1 + (tablesFor page).countP fun q => !known q

/-- The ways the loop ends. -/
inductive HeapOutcome where
  /-- Every page is mapped. -/
  | backed
  /-- No page was left for a page, and the loop gave up. -/
  | refused
  /-- No page was left for a table. The page for the heap is lost; the loop gave up later. -/
  | lost
  /-- The same at the last page: nobody noticed. -/
  | unbacked
  deriving DecidableEq

/-- How the loop over the pages not mapped yet ends, given the number of free pages. -/
def heapOutcome (known : List Idx → Bool) : List (BitVec 64) → ℕ → HeapOutcome
  | [], _ => .backed
  | page :: pages, free =>
      if free = 0 then .refused
      else if free < demand known page then if pages = [] then .unbacked else .lost
      else heapOutcome (fun q => known q || decide (q ∈ tablesFor page)) pages
        (free - demand known page)

/-- What mapping all pages costs. -/
def heapDemand (known : List Idx → Bool) : List (BitVec 64) → ℕ
  | [] => 0
  | page :: pages =>
      demand known page + heapDemand (fun q => known q || decide (q ∈ tablesFor page)) pages

/-- All pages are mapped exactly if the free pages suffice. -/
lemma heapOutcome_eq_backed (known : List Idx → Bool) (pages : List (BitVec 64)) (free : ℕ) :
    heapOutcome known pages free = .backed ↔ heapDemand known pages ≤ free := by
  induction pages generalizing known free with
  | nil => simp [heapOutcome, heapDemand]
  | cons page pages ih =>
      have hpos : 0 < demand known page := by
        unfold demand
        omega
      rw [heapOutcome, heapDemand]
      split_ifs with hz hlt
      · simp
        omega
      · simp
        omega
      · simp
        omega
      · rw [ih]
        omega

/-- The tables that are there. -/
def knownTables (m : PhysMem) (r : Frame) (q : List Idx) : Bool := (tableAt m r q).isSome

/-- The pages the loop has to map. -/
def unmapped (m : PhysMem) (r : Frame) (pages : List (BitVec 64)) : List (BitVec 64) :=
  pages.filter fun page => vmmVirtToPhys r page m = 0

variable {σ : Type} {A : FrameSource σ} {r : Frame} {held : Set Frame} {m m' : PhysMem}
  {s s' : σ} {f : Frame} {q : List Idx} {v w virt phys page : BitVec 64}
  {pages : List (BitVec 64)} {known : List Idx → Bool}

lemma prefix_tablePath : q <+: tablePath virt ↔ q = [] ∨ q ∈ tablesFor virt := by
  constructor
  · intro h
    have hlen := h.length_le
    rw [List.prefix_iff_eq_take.mp h]
    match hq : q.length, hlen with
    | 0, _ => exact Or.inl rfl
    | 1, _ => exact Or.inr (by simp [tablesFor, tablePath])
    | 2, _ => exact Or.inr (by simp [tablesFor, tablePath])
    | 3, _ => exact Or.inr (by simp [tablesFor, tablePath])
  · rintro (rfl | h)
    · exact List.nil_prefix
    · simp only [tablesFor, List.mem_cons, List.not_mem_nil, or_false] at h
      rcases h with rfl | rfl | rfl <;> simp [tablePath]

lemma missing_eq (virt : BitVec 64) (hknown : ∀ q, q.length ≤ 3 → known q = knownTables m r q) :
    1 + missing m r virt = demand known virt := by
  have h1 := hknown [pml4Index virt] (by simp)
  have h2 := hknown [pml4Index virt, pdptIndex virt] (by simp)
  have h3 := hknown (tablePath virt) (by simp [tablePath])
  simp only [knownTables, tablePath] at h1 h2 h3
  have hnone : ∀ o : Option Frame, (if o = none then 1 else 0)
      = if (!o.isSome) = true then 1 else 0 := by
    rintro (_ | g) <;> rfl
  simp only [missing, missingFrom, demand, tablesFor, tablePath, List.countP_cons, List.countP_nil,
    List.nil_append, List.cons_append, h1, h2, h3, hnone]
  omega

lemma unmapped_cons_of_mapped (h : vmmVirtToPhys r page m ≠ 0) :
    unmapped m r (page :: pages) = unmapped m r pages :=
  List.filter_cons_of_neg (by simpa using h)

lemma unmapped_cons (h : vmmVirtToPhys r page m = 0) :
    unmapped m r (page :: pages) = page :: unmapped m r pages :=
  List.filter_cons_of_pos (by simpa using h)

namespace Ledger

/-- The test of `kmalloc`. -/
lemma lookup_eq_zero_iff (h : Ledger A r held m s) (hw : InHeap w) :
    vmmVirtToPhys r w m = 0 ↔ ¬ Present (leafAt m r w) := by
  rw [vmmVirtToPhys_eq h.ok.tables (h.not_hitsLarge hw)]
  split_ifs with hp
  · simp only [hp, not_true, iff_false]
    exact fun h0 => h.page_ne_zero w hw hp (BitVec.or_eq_zero_iff.mp h0).1
  · simp [hp]

end Ledger

/-- After a page is mapped its tables are there. -/
lemma MapOk.knownTables_eq {flags : BitVec 32} (hok : MapOk A r virt phys flags m s none m' s')
    (hknown : ∀ q, q.length ≤ 3 → known q = knownTables m r q) :
    ∀ q, q.length ≤ 3 → (known q || decide (q ∈ tablesFor virt)) = knownTables m' r q := by
  intro q hq
  rw [hknown q hq, knownTables, knownTables, Bool.eq_iff_iff, Bool.or_eq_true, decide_eq_true_eq]
  constructor
  · rintro (h | h)
    · obtain ⟨g, hg⟩ := Option.isSome_iff_exists.mp h
      rw [hok.grows.mono q g hq hg]
      rfl
    · obtain ⟨t, ht⟩ := prefix_tablePath.mpr (Or.inr h)
      obtain ⟨g, hg⟩ := Option.ne_none_iff_exists'.mp (hok.table rfl)
      rw [← ht] at hg
      obtain ⟨g', hg'⟩ := Radix.walk_prefix hg
      rw [tableAt, hg']
      rfl
  · intro h
    by_contra hn
    rw [not_or, Option.not_isSome_iff_eq_none] at hn
    have hpre := hok.grows.new q hq hn.1 (Option.isSome_iff_ne_none.mp h)
    rcases prefix_tablePath.mp hpre with rfl | hmem
    · cases hn.1
    · exact hn.2 hmem

/-- The tables a call found stay. -/
lemma MapOk.isTable {flags : BitVec 32} {err : Option String}
    (hok : MapOk A r virt phys flags m s err m' s') (hf : IsTable m r f) : IsTable m' r f := by
  obtain ⟨q, hq, hqf⟩ := hf
  exact ⟨q, hq, hok.grows.mono q f hq hqf⟩

/-- What the loop does. -/
structure LoopOk (A : FrameSource σ) (r : Frame) (held : Set Frame) (pages : List (BitVec 64))
    (m : PhysMem) (s : σ) (out : HeapOutcome) (ok : Bool) (m' : PhysMem) (s' : σ) : Prop where
  ledger : Ledger A r held m' s'
  keeps : ∀ w, Present (leafAt m r w) → leafAt m' r w = leafAt m r w
  tables : ∀ f, IsTable m r f → IsTable m' r f
  taken : ∀ f, A.Taken s f → A.Taken s' f
  ok_iff : ok = true ↔ out = .backed ∨ out = .unbacked
  present : out = .backed → ∀ page ∈ pages, Present (leafAt m' r page)
  unbacked : out = .unbacked → ∃ page ∈ pages, ¬ Present (leafAt m' r page)
  placed : out = .backed ∨ out = .refused → ∀ f, A.Taken s' f → A.Taken s f ∨ Placed m' r f
  lost : out = .lost ∨ out = .unbacked → ∃ f, A.Taken s' f ∧ ¬ A.Taken s f ∧ ¬ Placed m' r f

/-- With no page left the loop changes nothing. -/
lemma mapHeapPages_exhausted (hinv : A.Inv s) (hz : A.free s = 0) (pages : List (BitVec 64)) :
    ∃ ok, mapHeapPages A.alloc r pages m s = (ok, m, s)
      ∧ (ok = true ↔ unmapped m r pages = []) := by
  induction pages with
  | nil => exact ⟨true, rfl, by simp [unmapped]⟩
  | cons page pages ih =>
      by_cases h0 : vmmVirtToPhys r page m = 0
      · exact ⟨false, by simp [mapHeapPages, h0, A.alloc_zero s hinv hz],
          by simp [unmapped_cons h0]⟩
      · obtain ⟨ok, heq, hiff⟩ := ih
        exact ⟨ok, by rw [mapHeapPages, if_neg h0]; exact heq,
          by rw [unmapped_cons_of_mapped h0]; exact hiff⟩

/-- Pages allocated are page frames. -/
lemma FrameSource.pageFrame (hinv : A.Inv s) (hfree : 0 < A.free s) : PageFrame (A.alloc s).1 :=
  ⟨A.alloc_aligned s hinv hfree, A.alloc_ne_zero s hinv hfree, A.alloc_lt s hinv hfree⟩

/-- What is unmapped in the heap is so for the entries. -/
lemma unmapped_congr (h : Ledger A r held m s) {held' : Set Frame} (h' : Ledger A r held' m' s')
    (hheap : ∀ page ∈ pages, InHeap page)
    (hleaf : ∀ page ∈ pages, leafAt m' r page = leafAt m r page) :
    unmapped m' r pages = unmapped m r pages := by
  refine List.filter_congr fun page hp => decide_eq_decide.mpr ?_
  rw [h'.lookup_eq_zero_iff (hheap page hp), h.lookup_eq_zero_iff (hheap page hp), hleaf page hp]

/-! ### One round -/

namespace LoopOk

variable {out : HeapOutcome} {ok : Bool} {m₂ : PhysMem} {s₂ : σ} {err : Option String}

/-- Nothing to do. -/
lemma same (h : Ledger A r held m s) (hok : ok = true ↔ out = .backed ∨ out = .unbacked)
    (hpr : out = .backed → ∀ page ∈ pages, Present (leafAt m r page))
    (hout : out = .backed ∨ out = .refused) : LoopOk A r held pages m s out ok m s where
  ledger := h
  keeps _ _ := rfl
  tables _ := id
  taken _ := id
  ok_iff := hok
  present := hpr
  unbacked ho := by rcases hout with rfl | rfl <;> cases ho
  placed _ _ := Or.inl
  lost ho := by rcases hout with rfl | rfl <;> rcases ho with ho | ho <;> cases ho

/-- The page is mapped already. -/
lemma cons_of_present (hpr : Present (leafAt m r page))
    (hok : LoopOk A r held pages m s out ok m' s') :
    LoopOk A r held (page :: pages) m s out ok m' s' where
  ledger := hok.ledger
  keeps := hok.keeps
  tables := hok.tables
  taken := hok.taken
  ok_iff := hok.ok_iff
  present ho p hp := by
    rcases List.mem_cons.mp hp with rfl | hp
    · rw [hok.keeps _ hpr]
      exact hpr
    · exact hok.present ho p hp
  unbacked ho := (hok.unbacked ho).imp fun p hp => ⟨List.mem_cons_of_mem _ hp.1, hp.2⟩
  placed := hok.placed
  lost := hok.lost

/-- The page gets a page of its own. -/
lemma cons_of_map (h : Ledger A r held m s) (hpage : InHeap page)
    (hnot : ¬ Present (leafAt m r page)) (hfree : 0 < A.free s)
    (hmok : MapOk A r page (A.alloc s).1 3 m (A.alloc s).2 none m₂ s₂)
    (hok : LoopOk A r held pages m₂ s₂ out ok m' s') :
    LoopOk A r held (page :: pages) m s out ok m' s' := by
  have htaken := A.alloc_taken s h.ok.inv hfree
  have hframe := FrameSource.pageFrame h.ok.inv hfree
  have hself : leafAt m₂ r page = mapEntry (A.alloc s).1 3 := by
    rw [leafAt, hmok.leaf _ _ (by simp [tablePath]), if_pos ⟨rfl, rfl, rfl⟩]
  have hpr : Present (leafAt m₂ r page) := hself ▸ present_mapEntry
  have hkeep : ∀ w, Present (leafAt m r w) → leafAt m₂ r w = leafAt m r w := by
    intro w hw
    rw [leafAt, hmok.leaf _ _ (by simp [tablePath]), if_neg]
    rintro ⟨-, h1, h2⟩
    rw [leafAt, h1, h2] at hw
    exact hnot hw
  have hmono : ∀ f, A.Taken s f → A.Taken s₂ f := fun f hf =>
    (hmok.grows.taken f).mpr (Or.inl ((htaken f).mpr (Or.inl hf)))
  refine ⟨hok.ledger, fun w hw => ?_, fun f hf => hok.tables f (hmok.isTable hf),
    fun f hf => hok.taken f (hmono f hf), hok.ok_iff, fun ho p hp => ?_, fun ho => ?_,
    fun ho f hf => ?_, fun ho => ?_⟩
  · have hw₂ := hkeep w hw
    rw [hok.keeps w (hw₂ ▸ hw), hw₂]
  · rcases List.mem_cons.mp hp with rfl | hp
    · rw [hok.keeps _ hpr]
      exact hpr
    · exact hok.present ho p hp
  · exact (hok.unbacked ho).imp fun p hp => ⟨List.mem_cons_of_mem _ hp.1, hp.2⟩
  · -- a page taken is the page mapped, a table on its way, or taken by a later round
    rcases hok.placed ho f hf with hf | hf
    · rcases (hmok.grows.taken f).mp hf with hf | ⟨q, hq, -, hqf⟩
      · rcases (htaken f).mp hf with hf | rfl
        · exact Or.inl hf
        · refine Or.inr (Or.inr ⟨page, hpage, ?_⟩)
          rw [hok.keeps _ hpr, hself, frameOf_mapEntry hframe]
          exact ⟨present_mapEntry, rfl⟩
      · exact Or.inr (Or.inl (hok.tables f ⟨q, hq, hqf⟩))
    · exact Or.inr hf
  · obtain ⟨f, hf, hn, hp⟩ := hok.lost ho
    exact ⟨f, hf, fun hs => hn (hmono f hs), hp⟩

/-- No page is left for a table on the way: the page for the heap is lost. -/
lemma cons_of_failed (h : Ledger A r held m s) (hnot : ¬ Present (leafAt m r page))
    (hfree : 0 < A.free s)
    (hmok : MapOk A r page (A.alloc s).1 3 m (A.alloc s).2 err m₂ s₂) (herr : err ≠ none)
    (hok : ok = true ↔ unmapped m r pages = []) :
    LoopOk A r held (page :: pages) m s
      (if unmapped m r pages = [] then .unbacked else .lost) ok m₂ s₂ := by
  have htaken := A.alloc_taken s h.ok.inv hfree
  have hledger := (h.alloc hfree).map hmok fun h' => absurd h' herr
  have hleaf : ∀ w, leafAt m₂ r w = leafAt m r w := fun w => by
    rw [leafAt, hmok.leaf _ _ (by simp [tablePath]), if_neg fun h' => herr h'.1]
  have hheld : frameOf (A.alloc s).1 ∈ insert (frameOf (A.alloc s).1) held := Set.mem_insert _ _
  refine ⟨hledger.mono (Set.subset_insert _ _), fun w _ => hleaf w, fun f => hmok.isTable,
    fun f hf => (hmok.grows.taken f).mpr (Or.inl ((htaken f).mpr (Or.inl hf))), ?_, fun ho => ?_,
    fun _ => ⟨page, List.mem_cons_self, by rw [hleaf]; exact hnot⟩, fun ho => ?_, fun _ => ?_⟩
  · rw [hok]
    split_ifs with hu <;> simp [hu]
  · split_ifs at ho
  · split_ifs at ho <;> rcases ho with ho | ho <;> cases ho
  · refine ⟨_, hledger.held_taken _ hheld, A.alloc_fresh s h.ok.inv hfree, ?_⟩
    rintro (hf | hf)
    · exact hledger.held_table _ hheld hf
    · exact hledger.page_held _ hf hheld

end LoopOk

/-- A round that gets a page. -/
lemma mapHeapPages_cons {alloc : σ → BitVec 64 × σ} (h0 : vmmVirtToPhys r page m = 0)
    (hp : (alloc s).1 ≠ 0) : mapHeapPages alloc r (page :: pages) m s
      = mapHeapPages alloc r pages (vmmMapPage alloc r page (alloc s).1 3 m (alloc s).2).2.1
        (vmmMapPage alloc r page (alloc s).1 3 m (alloc s).2).2.2 := by
  rw [mapHeapPages, if_pos h0]
  rcases hx : alloc s with ⟨phys, s₁⟩
  rw [hx] at hp
  dsimp only at hp ⊢
  rw [if_neg hp]

/-- **The loop of `kmalloc`**, by induction on its pages. -/
theorem mapHeapPages_spec (h : Ledger A r held m s) (hheap : ∀ page ∈ pages, InHeap page)
    (hne : pages.Pairwise fun v w => vpage v ≠ vpage w)
    (hknown : ∀ q, q.length ≤ 3 → known q = knownTables m r q) :
    ∃ ok m' s', mapHeapPages A.alloc r pages m s = (ok, m', s')
      ∧ LoopOk A r held pages m s (heapOutcome known (unmapped m r pages) (A.free s)) ok m' s' := by
  induction pages generalizing known m s with
  | nil =>
      exact ⟨true, m, s, rfl, LoopOk.same h (by simp [unmapped, heapOutcome]) (by simp)
        (Or.inl (by simp [unmapped, heapOutcome]))⟩
  | cons page pages ih =>
      have hpage : InHeap page := hheap page List.mem_cons_self
      have hrest : ∀ p ∈ pages, InHeap p := fun p hp => hheap p (List.mem_cons_of_mem _ hp)
      obtain ⟨hfar, hne'⟩ := List.pairwise_cons.mp hne
      by_cases h0 : vmmVirtToPhys r page m = 0
      swap
      · obtain ⟨ok, m', s', heq, hok⟩ := ih h hrest hne' hknown
        have hpr : Present (leafAt m r page) := by
          by_contra hn
          exact h0 ((h.lookup_eq_zero_iff hpage).mpr hn)
        rw [mapHeapPages, if_neg h0, unmapped_cons_of_mapped h0]
        exact ⟨ok, m', s', heq, hok.cons_of_present hpr⟩
      have hnot : ¬ Present (leafAt m r page) := (h.lookup_eq_zero_iff hpage).mp h0
      rw [unmapped_cons h0, heapOutcome]
      rcases Nat.eq_zero_or_pos (A.free s) with hz | hfree
      · rw [if_pos hz, mapHeapPages, if_pos h0, A.alloc_zero s h.ok.inv hz]
        exact ⟨false, m, s, by simp, LoopOk.same h (by simp) (by simp) (Or.inr rfl)⟩
      have hcount := A.alloc_free s h.ok.inv hfree
      have hcost := missing_eq page hknown
      have hheld := h.alloc hfree
      obtain ⟨err, m₂, s₂, hmap, hmok⟩ := vmmMapPage_spec (A.alloc s).1 3
        hheld.ok (h.not_hitsLarge hpage)
      rw [if_neg (by omega), mapHeapPages_cons h0 (A.alloc_ne_zero s h.ok.inv hfree), hmap]
      by_cases herr : err = none
      · subst herr
        have hfree₂ := hmok.free rfl
        have hled₂ : Ledger A r held m₂ s₂ :=
          (hheld.mapHeap hmok (FrameSource.pageFrame h.ok.inv hfree) (Set.mem_insert _ _)).mono
            fun f hf => ⟨Set.mem_insert_of_mem _ hf, fun hfe =>
              A.alloc_fresh s h.ok.inv hfree (hfe ▸ h.held_taken f hf)⟩
        have hleaf : ∀ p ∈ pages, leafAt m₂ r p = leafAt m r p := fun p hp => by
          rw [leafAt, hmok.leaf _ _ (by simp [tablePath]),
            if_neg fun h' => hfar p hp (vpage_eq_iff.mpr h'.2).symm]
        obtain ⟨ok, m', s', heq, hok⟩ := ih hled₂ hrest hne' (hmok.knownTables_eq hknown)
        have hdemand : ¬ A.free s < demand known page := by omega
        have hleft : A.free s - demand known page = A.free s₂ := by omega
        rw [if_neg hdemand, hleft, ← unmapped_congr h hled₂ hrest hleaf]
        exact ⟨ok, m', s', heq, LoopOk.cons_of_map h hpage hnot hfree hmok hok⟩
      · have hleaf : ∀ p ∈ pages, leafAt m₂ r p = leafAt m r p := fun p _ => by
          rw [leafAt, hmok.leaf _ _ (by simp [tablePath]), if_neg fun h' => herr h'.1]
        have hled₂ := hheld.map hmok fun h' => absurd h' herr
        obtain ⟨ok, heq, hiff⟩ := mapHeapPages_exhausted (r := r) (m := m₂) hled₂.ok.inv
          (hmok.exhausted herr) pages
        have hshort := hmok.fails_iff.mp herr
        rw [if_pos (by omega)]
        rw [unmapped_congr h hled₂ hrest hleaf] at hiff
        exact ⟨ok, m₂, s₂, heq, LoopOk.cons_of_failed h hnot hfree hmok herr hiff⟩

end KiOS
