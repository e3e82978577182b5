import Mathlib

/-!
Radix trees of tables kept in memory.

A table is an array of words in memory, and some words lead to a further table. From a root,
a path of indices leads to a table (`walk`), and a path with one more index to a word (`slot`).
A program changes such a tree by writing words. This file says what that does to all paths at
once, as long as no table is reached twice (`Tree`).

* `slot_write`: a write that leads where the old word led, or goes to a table of the last level,
  changes its own slot and no other;
* `slot_link`: so does linking a zeroed fresh table into an empty slot;
* `slot_write_of_apart`: a write outside the tables changes nothing;
* `walk_of_le`, `slot_of_le`: clearing words anywhere only removes paths.
-/

universe u v w

namespace Radix

variable {F : Type u} {I : Type v} {W : Type w}

section

variable (child : W → Option F) (M : F → I → W) (r : F)

/-- The table that a path leads to. -/
def walk (r : F) : List I → Option F
  | [] => some r
  | i :: q => (child (M r i)).bind fun f => walk f q

/-- The word at the end of a path, zero if no table is there. -/
def slot [Zero W] (q : List I) (j : I) : W :=
  match walk child M r q with
  | some f => M f j
  | none => 0

/-- No table is reached along two paths of at most `d` steps. -/
def Tree (d : ℕ) : Prop :=
  ∀ p q f, p.length ≤ d → q.length ≤ d →
    walk child M r p = some f → walk child M r q = some f → p = q

/-- Memory with one word written. -/
def write [DecidableEq F] [DecidableEq I] (f : F) (i : I) (x : W) : F → I → W :=
  fun g j => if g = f ∧ j = i then x else M g j

/-- Memory with one table zeroed. -/
def zeroed [DecidableEq F] [Zero W] (f : F) : F → I → W := fun g j => if g = f then 0 else M g j

end

variable {child : W → Option F} {M M' : F → I → W} {r f g : F} {d : ℕ}
  {p q : List I} {i j : I} {x : W}

/-- A path that exists has all its beginnings. -/
lemma walk_prefix (h : walk child M r (p ++ q) = some f) : ∃ g, walk child M r p = some g := by
  induction p generalizing r with
  | nil => exact ⟨r, rfl⟩
  | cons i p ih =>
      cases hc : child (M r i) with
      | none => simp [walk, hc] at h
      | some g =>
          simp only [List.cons_append, walk, hc, Option.bind_some] at h ⊢
          exact ih h

/-- Memories whose words lead to the same tables have the same paths. -/
lemma walk_of_child_eq (h : ∀ f i, child (M' f i) = child (M f i)) :
    walk child M' r q = walk child M r q := by
  induction q generalizing r with
  | nil => rfl
  | cons i q ih => simp only [walk, h, ih]

variable [Zero W]

lemma slot_of_walk (h : walk child M r q = some f) : slot child M r q j = M f j := by
  simp [slot, h]

lemma slot_of_walk_none (h : walk child M r q = none) : slot child M r q j = 0 := by
  simp [slot, h]

/-- One step at the end of a path. -/
lemma walk_snoc (h0 : child 0 = none) :
    walk child M r (q ++ [j]) = child (slot child M r q j) := by
  induction q generalizing r with
  | nil => cases h : child (M r j) <;> simp [walk, slot, h]
  | cons i q ih =>
      cases h : child (M r i) with
      | none => simp [walk, slot, h, h0]
      | some f =>
          rw [List.cons_append]
          simp only [walk, h, Option.bind_some, slot] at ih ⊢
          exact ih

/-- A guess at all paths is right if it is so at each step. -/
lemma walk_eq_of (h0 : child 0 = none) {T : List I → Option F} {S : List I → I → W}
    (hroot : T [] = some r) (hstep : ∀ q j, q.length < d → T (q ++ [j]) = child (S q j))
    (hslot : ∀ q j, q.length < d → walk child M' r q = T q → slot child M' r q j = S q j) :
    ∀ q, q.length ≤ d → walk child M' r q = T q := by
  intro q
  induction q using List.reverseRecOn with
  | nil => exact fun _ => hroot.symm
  | append_singleton q j ih =>
      intro hlen
      rw [List.length_append, List.length_singleton] at hlen
      rw [walk_snoc h0, hslot q j (by omega) (ih (by omega)), hstep q j (by omega)]

/-- Two readings of the words agree on a path if they agree on the words along it. -/
lemma walk_congr {child' : W → Option F} (h0 : child 0 = none) (h0' : child' 0 = none)
    (h : ∀ p i, p ++ [i] <+: q → child' (slot child M r p i) = child (slot child M r p i)) :
    walk child' M r q = walk child M r q := by
  induction q using List.reverseRecOn with
  | nil => rfl
  | append_singleton q j ih =>
      have hq := ih fun p i hp => h p i (hp.trans (List.prefix_append _ _))
      have hslot : slot child' M r q j = slot child M r q j := by rw [slot, slot, hq]
      rw [walk_snoc h0, walk_snoc h0', hslot, h q j (List.prefix_refl _)]

/-! ### Clearing words -/

/-- Clearing words adds no path and changes no slot but to zero. -/
lemma of_le (h0 : child 0 = none) (hle : ∀ f i, M' f i = M f i ∨ M' f i = 0) :
    ∀ q, (∀ f, walk child M' r q = some f → walk child M r q = some f)
      ∧ ∀ j, slot child M' r q j = slot child M r q j ∨ slot child M' r q j = 0 := by
  have hslot : ∀ q, (∀ f, walk child M' r q = some f → walk child M r q = some f) →
      ∀ j, slot child M' r q j = slot child M r q j ∨ slot child M' r q j = 0 := by
    intro q hw j
    cases hq : walk child M' r q with
    | none => exact Or.inr (slot_of_walk_none hq)
    | some f =>
        rw [slot_of_walk hq, slot_of_walk (hw f hq)]
        exact hle f j
  intro q
  induction q using List.reverseRecOn with
  | nil => exact ⟨fun f h => h, hslot [] fun f h => h⟩
  | append_singleton q j ih =>
      have hw : ∀ f, walk child M' r (q ++ [j]) = some f → walk child M r (q ++ [j]) = some f := by
        intro f h
        rw [walk_snoc h0] at h ⊢
        rcases ih.2 j with hs | hs
        · rwa [← hs]
        · rw [hs, h0] at h
          cases h
      exact ⟨hw, hslot _ hw⟩

lemma walk_of_le (h0 : child 0 = none) (hle : ∀ f i, M' f i = M f i ∨ M' f i = 0)
    (h : walk child M' r q = some f) : walk child M r q = some f :=
  (of_le h0 hle q).1 f h

lemma slot_of_le (h0 : child 0 = none) (hle : ∀ f i, M' f i = M f i ∨ M' f i = 0) :
    slot child M' r q j = slot child M r q j ∨ slot child M' r q j = 0 :=
  (of_le h0 hle q).2 j

lemma tree_of_le (h0 : child 0 = none) (hle : ∀ f i, M' f i = M f i ∨ M' f i = 0)
    (ht : Tree child M r d) : Tree child M' r d :=
  fun p q f hp hq hwp hwq => ht p q f hp hq (walk_of_le h0 hle hwp) (walk_of_le h0 hle hwq)

/-! ### Writing a word -/

variable [DecidableEq F] [DecidableEq I]

/-- **One write, one slot**: a write that leads where the old word led, or goes to a table of
the last level, keeps all paths and changes only its own slot. -/
theorem slot_write (h0 : child 0 = none) (ht : Tree child M r d) (hp : walk child M r p = some f)
    (hlen : p.length ≤ d) (hkeep : p.length < d → child x = child (M f i)) :
    (∀ q, q.length ≤ d → walk child (write M f i x) r q = walk child M r q)
      ∧ ∀ q j, q.length ≤ d →
        slot child (write M f i x) r q j = if q = p ∧ j = i then x else slot child M r q j := by
  have hslot : ∀ q j, q.length ≤ d → walk child (write M f i x) r q = walk child M r q →
      slot child (write M f i x) r q j = if q = p ∧ j = i then x else slot child M r q j := by
    intro q j hq hw
    cases hq' : walk child M r q with
    | none =>
        have hne : q ≠ p := fun h => by simp [h, hp] at hq'
        rw [slot_of_walk_none (hw.trans hq'), slot_of_walk_none hq', if_neg fun h => hne h.1]
    | some g =>
        have hiff : g = f ↔ q = p := by
          constructor
          · rintro rfl
            exact ht q p g hq hlen hq' hp
          · rintro rfl
            exact Option.some.inj (hq'.symm.trans hp)
        rw [slot_of_walk (hw.trans hq'), slot_of_walk hq', write]
        simp only [hiff]
  have hwalk : ∀ q, q.length ≤ d → walk child (write M f i x) r q = walk child M r q := by
    refine walk_eq_of h0 rfl (fun q j hq => ?_) fun q j hq hw => hslot q j hq.le hw
    rw [walk_snoc h0]
    split_ifs with h
    · obtain ⟨rfl, rfl⟩ := h
      rw [slot_of_walk hp, hkeep hq]
    · rfl
  exact ⟨hwalk, fun q j hq => hslot q j hq (hwalk q hq)⟩

/-- A write outside the tables changes no path and no slot. -/
theorem slot_write_of_apart (h0 : child 0 = none)
    (hg : ∀ q, q.length ≤ d → walk child M r q ≠ some g) :
    (∀ q, q.length ≤ d → walk child (write M g i x) r q = walk child M r q)
      ∧ ∀ q j, q.length ≤ d → slot child (write M g i x) r q j = slot child M r q j := by
  have hslot : ∀ q j, q.length ≤ d → walk child (write M g i x) r q = walk child M r q →
      slot child (write M g i x) r q j = slot child M r q j := by
    intro q j hq hw
    cases hq' : walk child M r q with
    | none => rw [slot_of_walk_none (hw.trans hq'), slot_of_walk_none hq']
    | some f =>
        have hne : f ≠ g := fun h => hg q hq (h ▸ hq')
        rw [slot_of_walk (hw.trans hq'), slot_of_walk hq', write, if_neg fun h => hne h.1]
  have hwalk : ∀ q, q.length ≤ d → walk child (write M g i x) r q = walk child M r q :=
    walk_eq_of h0 rfl (fun q j _ => walk_snoc h0) fun q j hq hw => hslot q j hq.le hw
  exact ⟨hwalk, fun q j hq => hslot q j hq (hwalk q hq)⟩

/-! ### Linking a table -/

/-- **Linking a fresh table**: with `g` zeroed and linked into an empty slot, one path is added
and no slot but that one changes. -/
theorem slot_link (h0 : child 0 = none) (ht : Tree child M r d) (hp : walk child M r p = some f)
    (hlen : p.length < d) (hnone : child (M f i) = none) (hx : child x = some g)
    (hg : ∀ q, q.length ≤ d → walk child M r q ≠ some g) :
    (∀ q, q.length ≤ d → walk child (write (zeroed M g) f i x) r q
        = if q = p ++ [i] then some g else walk child M r q)
      ∧ ∀ q j, q.length ≤ d → slot child (write (zeroed M g) f i x) r q j
        = if q = p ∧ j = i then x else slot child M r q j := by
  have hpi : walk child M r (p ++ [i]) = none := by
    rw [walk_snoc h0, slot_of_walk hp, hnone]
  have hfg : g ≠ f := fun h => hg p hlen.le (h ▸ hp)
  have hslot : ∀ q j, q.length ≤ d →
      walk child (write (zeroed M g) f i x) r q
        = (if q = p ++ [i] then some g else walk child M r q) →
      slot child (write (zeroed M g) f i x) r q j
        = if q = p ∧ j = i then x else slot child M r q j := by
    intro q j hq hw
    by_cases hqp : q = p ++ [i]
    · -- the new table is empty, and nothing was at its path before
      rw [if_pos hqp] at hw
      have hne : q ≠ p := by
        rw [hqp]
        simp
      rw [slot_of_walk hw, if_neg fun h => hne h.1, hqp, slot_of_walk_none hpi, write,
        if_neg fun h => hfg h.1, zeroed, if_pos rfl]
    · rw [if_neg hqp] at hw
      cases hq' : walk child M r q with
      | none =>
          have hne : q ≠ p := fun h => by simp [h, hp] at hq'
          rw [slot_of_walk_none (hw.trans hq'), slot_of_walk_none hq', if_neg fun h => hne h.1]
      | some h =>
          have hhg : h ≠ g := fun he => hg q hq (he ▸ hq')
          have hiff : h = f ↔ q = p := by
            constructor
            · rintro rfl
              exact ht q p h hq hlen.le hq' hp
            · rintro rfl
              exact Option.some.inj (hq'.symm.trans hp)
          rw [slot_of_walk (hw.trans hq'), slot_of_walk hq', write, zeroed, if_neg hhg]
          simp only [hiff]
  have hwalk : ∀ q, q.length ≤ d → walk child (write (zeroed M g) f i x) r q
      = if q = p ++ [i] then some g else walk child M r q := by
    refine walk_eq_of h0 ?_ (fun q j hq => ?_) fun q j hq hw => hslot q j hq.le hw
    · rw [if_neg (by simp)]
      rfl
    · by_cases h : q = p ∧ j = i
      · rw [if_pos h, if_pos (by rw [h.1, h.2]), hx]
      · have hne : q ++ [j] ≠ p ++ [i] := by
          intro he
          obtain ⟨h1, h2⟩ := List.append_inj' he rfl
          exact h ⟨h1, by simpa using h2⟩
        rw [if_neg h, if_neg hne, walk_snoc h0]
  exact ⟨hwalk, fun q j hq => hslot q j hq (hwalk q hq)⟩

/-- A write that keeps the paths keeps the tables apart. -/
lemma tree_write (h0 : child 0 = none) (ht : Tree child M r d) (hp : walk child M r p = some f)
    (hlen : p.length ≤ d) (hkeep : p.length < d → child x = child (M f i)) :
    Tree child (write M f i x) r d := by
  have hwalk := (slot_write h0 ht hp hlen hkeep).1
  intro q q' g hq hq' hw hw'
  rw [hwalk q hq] at hw
  rw [hwalk q' hq'] at hw'
  exact ht q q' g hq hq' hw hw'

/-- So does linking a fresh table. -/
lemma tree_link (h0 : child 0 = none) (ht : Tree child M r d) (hp : walk child M r p = some f)
    (hlen : p.length < d) (hnone : child (M f i) = none) (hx : child x = some g)
    (hg : ∀ q, q.length ≤ d → walk child M r q ≠ some g) :
    Tree child (write (zeroed M g) f i x) r d := by
  have hwalk := (slot_link h0 ht hp hlen hnone hx hg).1
  intro q q' h hq hq' hw hw'
  rw [hwalk q hq] at hw
  rw [hwalk q' hq'] at hw'
  split_ifs at hw hw' with h1 h2 h2
  · rw [h1, h2]
  · exact absurd (hw'.trans hw.symm) (hg q' hq')
  · exact absurd (hw.trans hw'.symm) (hg q hq)
  · exact ht q q' h hq hq' hw hw'

end Radix
