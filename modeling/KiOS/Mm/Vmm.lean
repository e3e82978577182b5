import KiOS.Library.Radix
import KiOS.Library.Bitmap

/-!
The virtual memory manager (`mm/vmm.c`).

Physical memory is an array of frames of 512 words. The VMM reads and writes the tables at
their physical addresses, which the identity map of stage 2 makes valid addresses.

* `PhysMem`: the words, and which of them have been written;
* `vmmNextTable`: one level of `vmm_get_pte_flags`, which does the same three times: a missing
  table is allocated, zeroed and linked, an existing entry gets the USER bit if it is asked for;
* `vmmGetPteFlags`, `vmmMapPage`, `vmmUnmapPage`, `vmmVirtToPhys`: the source's functions, over an
  arbitrary `pmm_alloc_page`;
* `FrameSource`: what is relied upon in `pmm_alloc_page`.
-/

namespace KiOS

/-- The number of a 4 KB frame of physical memory. -/
abbrev Frame := BitVec 52

/-- An index into a table. -/
abbrev Idx := BitVec 9

/-- `pte_t`. -/
abbrev Pte := BitVec 64

/-- `PAGE_PRESENT`. -/
def pagePresent : BitVec 64 := 1#64 <<< 0

/-- `PAGE_WRITE`. -/
def pageWrite : BitVec 64 := 1#64 <<< 1

/-- `PAGE_USER`. -/
def pageUser : BitVec 64 := 1#64 <<< 2

/-- `PAGE_NOCACHE`. -/
def pageNocache : BitVec 64 := 1#64 <<< 4

/-- `PAGE_SIZE_2MB`. -/
def pageSize2mb : BitVec 64 := 1#64 <<< 7

/-- `PML4_INDEX`. -/
def pml4Index (addr : BitVec 64) : Idx := ((addr >>> 39) &&& 0x1FF).setWidth 9

/-- `PDPT_INDEX`. -/
def pdptIndex (addr : BitVec 64) : Idx := ((addr >>> 30) &&& 0x1FF).setWidth 9

/-- `PD_INDEX`. -/
def pdIndex (addr : BitVec 64) : Idx := ((addr >>> 21) &&& 0x1FF).setWidth 9

/-- `PT_INDEX`. -/
def ptIndex (addr : BitVec 64) : Idx := ((addr >>> 12) &&& 0x1FF).setWidth 9

/-- The frame an address lies in, or that an entry leads to by `entry & ~0xFFF`. -/
def frameOf (addr : BitVec 64) : Frame := addr.extractLsb' 12 52

/-! ### Physical memory -/

/-- Physical memory and the log of the words written. -/
structure PhysMem where
  word : Frame → Idx → Pte
  dirty : Frame → Idx → Bool

namespace PhysMem

/-- `table[idx] = x`. -/
def store (m : PhysMem) (table : Frame) (idx : Idx) (x : Pte) : PhysMem where
  word := Radix.write m.word table idx x
  dirty := fun f i => if f = table ∧ i = idx then true else m.dirty f i

/-- `for (i = 0; i < 512; i++) table[i] = 0`. -/
def zeroTable (m : PhysMem) (table : Frame) : PhysMem :=
  (List.range 512).foldl (fun m i => m.store table (BitVec.ofNat 9 i) 0) m

end PhysMem

/-! ### The walk -/

variable {σ : Type}

/-- `parent_flags`: the USER bit is handed on to all levels. -/
def parentFlags (flags : BitVec 32) : BitVec 64 :=
  if flags.setWidth 64 &&& pageUser ≠ 0 then pagePresent ||| pageWrite ||| pageUser
  else pagePresent ||| pageWrite

/-- One level of `vmm_get_pte_flags`: the table that entry `idx` of `table` leads to. -/
def vmmNextTable (alloc : σ → BitVec 64 × σ) (create : Bool) (flags : BitVec 32)
    (table : Frame) (idx : Idx) (m : PhysMem) (s : σ) : Option Frame × PhysMem × σ :=
  if m.word table idx &&& pagePresent = 0 then
    if create = false then (none, m, s) else
    let (phys, s) := alloc s
    if phys = 0 then (none, m, s) else
    let m := (m.zeroTable (frameOf phys)).store table idx (phys ||| parentFlags flags)
    (some (frameOf (m.word table idx)), m, s)
  else if flags.setWidth 64 &&& pageUser ≠ 0 ∧ m.word table idx &&& pageUser = 0 then
    let m := m.store table idx (m.word table idx ||| pageUser)
    (some (frameOf (m.word table idx)), m, s)
  else (some (frameOf (m.word table idx)), m, s)

/-- The levels one after the other, down the given indices. -/
def vmmDescend (alloc : σ → BitVec 64 × σ) (create : Bool) (flags : BitVec 32) :
    List Idx → Frame → PhysMem → σ → Option Frame × PhysMem × σ
  | [], table, m, s => (some table, m, s)
  | idx :: path, table, m, s =>
      match vmmNextTable alloc create flags table idx m s with
      | (none, m, s) => (none, m, s)
      | (some table, m, s) => vmmDescend alloc create flags path table m s

/-- The indices that lead to the page table of an address. -/
def tablePath (virt : BitVec 64) : List Idx := [pml4Index virt, pdptIndex virt, pdIndex virt]

/-- `vmm_get_pte_flags`: the table and the index of the entry of `virt`, `none` for NULL. -/
def vmmGetPteFlags (alloc : σ → BitVec 64 × σ) (pml4 : Frame) (virt : BitVec 64) (create : Bool)
    (flags : BitVec 32) (m : PhysMem) (s : σ) : Option (Frame × Idx) × PhysMem × σ :=
  match vmmDescend alloc create flags (tablePath virt) pml4 m s with
  | (none, m, s) => (none, m, s)
  | (some pt, m, s) => (some (pt, ptIndex virt), m, s)

/-- `vmm_get_pte`, called with `create = 0` only, which allocates nothing. -/
def vmmGetPte (pml4 : Frame) (virt : BitVec 64) (m : PhysMem) : Option (Frame × Idx) × PhysMem :=
  let r := vmmGetPteFlags (fun u : Unit => (0, u)) pml4 virt false 0 m ()
  (r.1, r.2.1)

/-- `vmm_map_page`: the line it prints when it fails, the memory and what is left to allocate. -/
def vmmMapPage (alloc : σ → BitVec 64 × σ) (pml4 : Frame) (virt phys : BitVec 64)
    (flags : BitVec 32) (m : PhysMem) (s : σ) : Option String × PhysMem × σ :=
  match vmmGetPteFlags alloc pml4 virt true flags m s with
  | (none, m, s) => (some "[VMM] ERROR: Failed to get PTE!", m, s)
  | (some (pt, idx), m, s) =>
      (none, m.store pt idx
        ((phys &&& ~~~(0xFFF : BitVec 64)) ||| flags.setWidth 64 ||| pagePresent),
        s)

/-- `vmm_unmap_page`. -/
def vmmUnmapPage (pml4 : Frame) (virt : BitVec 64) (m : PhysMem) : PhysMem :=
  match vmmGetPte pml4 virt m with
  | (none, m) => m
  | (some (pt, idx), m) => if m.word pt idx &&& pagePresent = 0 then m else m.store pt idx 0

/-- `vmm_virt_to_phys`, `0` when the page is not mapped. -/
def vmmVirtToPhys (pml4 : Frame) (virt : BitVec 64) (m : PhysMem) : BitVec 64 :=
  match vmmGetPte pml4 virt m with
  | (none, _) => 0
  | (some (pt, idx), m) =>
      if m.word pt idx &&& pagePresent = 0 then 0
      else (m.word pt idx &&& ~~~(0xFFF : BitVec 64)) ||| (virt &&& 0xFFF)

/-- What is relied upon in `pmm_alloc_page`: with no page left it returns NULL and changes
nothing; otherwise it returns the physical address of a page that was not taken, and takes it. -/
structure FrameSource (σ : Type) where
  alloc : σ → BitVec 64 × σ
  Inv : σ → Prop
  Taken : σ → Frame → Prop
  free : σ → ℕ
  alloc_zero : ∀ s, Inv s → free s = 0 → alloc s = (0, s)
  alloc_inv : ∀ s, Inv s → 0 < free s → Inv (alloc s).2
  alloc_ne_zero : ∀ s, Inv s → 0 < free s → (alloc s).1 ≠ 0
  alloc_aligned : ∀ s, Inv s → 0 < free s → (alloc s).1.toNat % 4096 = 0
  alloc_lt : ∀ s, Inv s → 0 < free s → (alloc s).1.toNat < 2 ^ 52
  alloc_fresh : ∀ s, Inv s → 0 < free s → ¬ Taken s (frameOf (alloc s).1)
  alloc_taken : ∀ s, Inv s → 0 < free s → ∀ f,
    Taken (alloc s).2 f ↔ Taken s f ∨ f = frameOf (alloc s).1
  alloc_free : ∀ s, Inv s → 0 < free s → free (alloc s).2 + 1 = free s

/-! ### Entries -/

/-- The PRESENT bit. -/
def Present (e : Pte) : Prop := e &&& pagePresent ≠ 0

/-- The WRITE bit. -/
def Writable (e : Pte) : Prop := e &&& pageWrite ≠ 0

/-- The USER bit. -/
def User (e : Pte) : Prop := e &&& pageUser ≠ 0

/-- The page-size bit, which makes an entry above the last level a leaf. -/
def Large (e : Pte) : Prop := e &&& pageSize2mb ≠ 0

instance : DecidablePred Present := fun _ => inferInstanceAs (Decidable (_ ≠ _))
instance : DecidablePred Writable := fun _ => inferInstanceAs (Decidable (_ ≠ _))
instance : DecidablePred User := fun _ => inferInstanceAs (Decidable (_ ≠ _))
instance : DecidablePred Large := fun _ => inferInstanceAs (Decidable (_ ≠ _))

variable {e x : Pte} {flags : BitVec 32}

lemma present_iff : Present e ↔ e.getLsbD 0 = true := Bitmap.and_shiftLeft_ne_zero

lemma writable_iff : Writable e ↔ e.getLsbD 1 = true := Bitmap.and_shiftLeft_ne_zero

lemma user_iff : User e ↔ e.getLsbD 2 = true := Bitmap.and_shiftLeft_ne_zero

lemma large_iff : Large e ↔ e.getLsbD 7 = true := Bitmap.and_shiftLeft_ne_zero

/-- Adding bits below the frame number leaves the frame. -/
lemma frameOf_or (h : x.extractLsb' 12 52 = 0) : frameOf (e ||| x) = frameOf e := by
  rw [frameOf, BitVec.extractLsb'_or, h]
  exact BitVec.or_zero

lemma present_or_pageUser : Present (e ||| pageUser) ↔ Present e := by
  rw [present_iff, present_iff, BitVec.getLsbD_or]
  simp [pageUser]

lemma writable_or_pageUser : Writable (e ||| pageUser) ↔ Writable e := by
  rw [writable_iff, writable_iff, BitVec.getLsbD_or]
  simp [pageUser]

lemma large_or_pageUser : Large (e ||| pageUser) ↔ Large e := by
  rw [large_iff, large_iff, BitVec.getLsbD_or]
  simp [pageUser]

lemma user_or_pageUser : User (e ||| pageUser) := by
  rw [user_iff, BitVec.getLsbD_or]
  simp [pageUser]

lemma frameOf_or_pageUser : frameOf (e ||| pageUser) = frameOf e := frameOf_or (by decide)

lemma frameOf_or_parentFlags : frameOf (e ||| parentFlags flags) = frameOf e := by
  refine frameOf_or ?_
  unfold parentFlags
  split_ifs <;> decide

/-- An aligned address has no low bits. -/
lemma getLsbD_of_aligned {k : ℕ} (h : x.toNat % 4096 = 0) (hk : k < 12) : x.getLsbD k = false := by
  rw [← BitVec.testBit_toNat, show x.toNat = 2 ^ 12 * (x.toNat / 4096) by omega,
    Nat.testBit_two_pow_mul]
  simp [hk]

lemma toNat_frameOf : (frameOf x).toNat = x.toNat / 4096 := by
  rw [frameOf, BitVec.extractLsb'_toNat, Nat.shiftRight_eq_div_pow]
  have := x.isLt
  omega

/-- The entry that links a new table. -/
lemma link_entry (flags : BitVec 32) (h : x.toNat % 4096 = 0) :
    Present (x ||| parentFlags flags) ∧ Writable (x ||| parentFlags flags)
      ∧ ¬ Large (x ||| parentFlags flags)
      ∧ (User (x ||| parentFlags flags) ↔ User (flags.setWidth 64)) := by
  have h2 := getLsbD_of_aligned (k := 2) h (by omega)
  have h7 := getLsbD_of_aligned (k := 7) h (by omega)
  rw [present_iff, writable_iff, large_iff, user_iff, BitVec.getLsbD_or, BitVec.getLsbD_or,
    BitVec.getLsbD_or, BitVec.getLsbD_or, h2, h7]
  unfold parentFlags
  by_cases hu : flags.setWidth 64 &&& pageUser ≠ 0
  · rw [if_pos hu]
    exact ⟨by simp [pagePresent], by simp [pageWrite], by decide, iff_of_true (by decide) hu⟩
  · rw [if_neg hu]
    exact ⟨by simp [pagePresent], by simp [pageWrite], by decide, iff_of_false (by decide) hu⟩

/-! ### Zeroing a table -/

namespace PhysMem

variable {m : PhysMem} {table f : Frame} {idx i : Idx}

@[simp] lemma store_word : (m.store table idx x).word = Radix.write m.word table idx x := rfl

/-- The loop over the entries written so far. -/
lemma foldl_zero (l : List ℕ) (m : PhysMem) :
    (l.foldl (fun m i => m.store table (BitVec.ofNat 9 i) 0) m).word f i
      = if f = table ∧ i ∈ l.map (BitVec.ofNat 9) then 0 else m.word f i := by
  induction l generalizing m with
  | nil => simp
  | cons j l ih =>
      rw [List.foldl_cons, ih (m.store table (BitVec.ofNat 9 j) 0)]
      simp only [store_word, Radix.write, List.map_cons, List.mem_cons]
      split_ifs <;> tauto

lemma mem_indices : i ∈ (List.range 512).map (BitVec.ofNat 9) :=
  List.mem_map.mpr ⟨i.toNat, List.mem_range.mpr i.isLt, by simp⟩

@[simp] lemma zeroTable_word : (m.zeroTable table).word = Radix.zeroed m.word table := by
  funext f i
  rw [zeroTable, foldl_zero, Radix.zeroed]
  simp [mem_indices]

end PhysMem

end KiOS
