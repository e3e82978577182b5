import KiOS.Library.ByteMemory

/-!
Copying bytes in memory (`memcpy` and `memmove` of `string.h`).

The loops read memory that they may have written to before. A copy upwards repeats the beginning of
the source if the target starts inside it. A copy downwards goes wrong if the source starts inside
the target, and `memmove` takes it only where it does not.

* `copyForward`, `copyBackward`, `memcpy`, `memmove`: the loops and the functions of the source;
* `copyForward_eq`, `copyBackward_eq`: the bytes that they write;
* `MovesExactly`: the target holds what the source held, and nothing else changes;
* `memmove_exact`: `memmove` does this wherever source and target lie;
* `memcpy_exact_iff`: `memcpy` does it exactly where the source repeats itself at the distance of
  the target.
-/

namespace KiOS

open ByteMemory

/-- `while (n--) *d++ = *s++`. -/
def copyForward : ℕ → BitVec 64 → BitVec 64 → ByteMemory → ByteMemory
  | 0, _, _, m => m
  | n + 1, d, s, m => copyForward n (d + 1) (s + 1) (Function.update m d (m s))

/-- `while (n--) *--d = *--s`. -/
def copyBackward : ℕ → BitVec 64 → BitVec 64 → ByteMemory → ByteMemory
  | 0, _, _, m => m
  | n + 1, d, s, m => copyBackward n (d - 1) (s - 1) (Function.update m (d - 1) (m (s - 1)))

/-- `memcpy`: what it returns, and the memory. -/
def memcpy (dest src count : BitVec 64) (m : ByteMemory) : BitVec 64 × ByteMemory :=
  (dest, copyForward count.toNat dest src m)

/-- `memmove`: what it returns, and the memory. -/
def memmove (dest src n : BitVec 64) (m : ByteMemory) : BitVec 64 × ByteMemory :=
  if dest < src then (dest, copyForward n.toNat dest src m)
  else (dest, copyBackward n.toNat (dest + n) (src + n) m)

/-- The `n` bytes at `dest` are what the bytes at `src` were, and no byte outside them changed. -/
structure MovesExactly (m : ByteMemory) (dest src n : BitVec 64) (m' : ByteMemory) : Prop where
  inside : ∀ i < n.toNat, m' (dest + BitVec.ofNat 64 i) = m (src + BitVec.ofNat 64 i)
  outside : ∀ a, a.toNat < dest.toNat ∨ dest.toNat + n.toNat ≤ a.toNat → m' a = m a

section

variable {m m' : ByteMemory} {dest src : BitVec 64} {n k : ℕ}

/-! ### The loops -/

/-- What a copy upwards reads next is what it started with, or what it has stored itself once it has
come to the target. -/
lemma copyForward_read (hk : k < 2 ^ 64) :
    m.put dest (fun i => m (src + BitVec.ofNat 64 (i % (dest - src).toNat))) k
        (src + BitVec.ofNat 64 k)
      = m (src + BitVec.ofNat 64 (k % (dest - src).toNat)) := by
  refine put_ahead (w := fun i => m (src + BitVec.ofNat 64 (i % (dest - src).toNat))) hk
    (fun hbefore => ?_) fun _ hbehind => ?_
  · rcases hbefore with h0 | hlt
    · rw [h0, Nat.mod_zero]
    · rw [Nat.mod_eq_of_lt hlt]
  · rw [← Nat.mod_eq_sub_mod hbehind]

/-- The first rounds of a copy upwards. -/
lemma copyForward_rounds (hk : k ≤ n) (hn : n ≤ 2 ^ 64) :
    copyForward n dest src m
      = copyForward (n - k) (dest + BitVec.ofNat 64 k) (src + BitVec.ofNat 64 k)
          (m.put dest (fun i => m (src + BitVec.ofNat 64 (i % (dest - src).toNat))) k) := by
  induction k with
  | zero => simp
  | succ k ih =>
      rw [ih (by omega), show n - k = n - (k + 1) + 1 by omega, copyForward,
        copyForward_read (by omega), update_put (by omega), ofNat_succ, add_assoc, add_assoc]

/-- **A copy upwards** repeats the beginning of the source as soon as it comes to the target. -/
lemma copyForward_eq (hn : n ≤ 2 ^ 64) :
    copyForward n dest src m
      = m.put dest (fun i => m (src + BitVec.ofNat 64 (i % (dest - src).toNat))) n := by
  rw [copyForward_rounds le_rfl hn, Nat.sub_self]
  rfl

/-- The first store of a copy downwards lies behind all that is still to be read, unless the source
starts inside the target. -/
lemma copyBackward_unread {c : BitVec 8} {i : ℕ} (hn : n < 2 ^ 64)
    (hstart : src = dest ∨ n < (src - dest).toNat) (hi : i < n) :
    Function.update m (dest + BitVec.ofNat 64 n) c (src + BitVec.ofNat 64 i)
      = m (src + BitVec.ofNat 64 i) := by
  refine Function.update_of_ne (fun heq => ?_) _ _
  have hoff : ((src - dest).toNat + i) % 2 ^ 64 = n := by
    rw [← toNat_add_sub, heq, ByteMemory.toNat_offset hn]
  have hlt := (src - dest).isLt
  rcases hstart with rfl | hstart
  · have hzero : (src - src).toNat = 0 := by rw [sub_self]; rfl
    omega
  · omega

/-- **A copy downwards** stores what the source held, unless the source starts inside the target. -/
lemma copyBackward_eq (hn : n ≤ 2 ^ 64) (hstart : src = dest ∨ n ≤ (src - dest).toNat) :
    copyBackward n (dest + BitVec.ofNat 64 n) (src + BitVec.ofNat 64 n) m
      = m.put dest (fun i => m (src + BitVec.ofNat 64 i)) n := by
  induction n generalizing m with
  | zero => exact put_zero.symm
  | succ n ih =>
      have hlast : ∀ a : BitVec 64, a + BitVec.ofNat 64 (n + 1) - 1 = a + BitVec.ofNat 64 n := by
        intro a
        rw [ofNat_succ, ← add_assoc, add_sub_cancel_right]
      rw [copyBackward, hlast, hlast, ih (by omega) (hstart.imp_right fun h => by omega),
        put_congr fun i hi => copyBackward_unread (by omega) hstart hi]
      exact put_update (w := fun i => m (src + BitVec.ofNat 64 i)) (by omega)

/-- **`memmove`** goes through the bytes in the order in which none is overwritten before it is
read. -/
lemma memmove_eq {n : BitVec 64} (hdest : dest.toNat + n.toNat ≤ 2 ^ 64)
    (hsrc : src.toNat + n.toNat ≤ 2 ^ 64) :
    (memmove dest src n m).2 = m.put dest (fun i => m (src + BitVec.ofNat 64 i)) n.toNat := by
  have hn := n.isLt
  rw [memmove]
  split_ifs with hlt
  · have hfar : n.toNat ≤ (dest - src).toNat := le_toNat_sub_of_lt hlt hsrc
    dsimp only
    rw [copyForward_eq hn.le]
    refine put_congr fun i hi => ?_
    rw [Nat.mod_eq_of_lt (hi.trans_le hfar)]
  · have hle : src.toNat ≤ dest.toNat := BitVec.le_def.mp (BitVec.not_lt.mp hlt)
    have hstart : src = dest ∨ n.toNat ≤ (src - dest).toNat :=
      hle.eq_or_lt.imp BitVec.eq_of_toNat_eq fun hlt => le_toNat_sub_of_lt hlt hdest
    have hback := copyBackward_eq (m := m) hn.le hstart
    rwa [BitVec.ofNat_toNat, BitVec.setWidth_eq] at hback

lemma movesExactly_iff {n : BitVec 64} (hdest : dest.toNat + n.toNat ≤ 2 ^ 64) :
    MovesExactly m dest src n m'
      ↔ m' = m.put dest (fun i => m (src + BitVec.ofNat 64 i)) n.toNat := by
  simp only [eq_put_iff n.isLt.le, le_toNat_sub_iff hdest]
  exact ⟨fun h => ⟨h.inside, h.outside⟩, fun h => ⟨h.1, h.2⟩⟩

end

/-- **Copies that may overlap**: wherever source and target lie, and however they overlap, the
target holds afterwards what the source held before, and nothing else has changed. -/
theorem memmove_exact {m : ByteMemory} {dest src n : BitVec 64}
    (hdest : dest.toNat + n.toNat ≤ 2 ^ 64) (hsrc : src.toNat + n.toNat ≤ 2 ^ 64) :
    MovesExactly m dest src n (memmove dest src n m).2 :=
  (movesExactly_iff hdest).mpr (memmove_eq hdest hsrc)

/-- One byte up and one byte down, in a memory that holds the lowest byte of each address. -/
theorem memmove_exact_overlap :
    MovesExactly (fun a => a.setWidth 8) 0x1001 0x1000 16
        (memmove 0x1001 0x1000 16 fun a => a.setWidth 8).2
      ∧ MovesExactly (fun a => a.setWidth 8) 0x1000 0x1001 16
        (memmove 0x1000 0x1001 16 fun a => a.setWidth 8).2 :=
  ⟨memmove_exact (by decide) (by decide), memmove_exact (by decide) (by decide)⟩

/-- **Copies that must not overlap**: `memcpy` moves the bytes exactly if the source repeats itself
at the distance of the target, as far as it reaches beyond its start. -/
theorem memcpy_exact_iff {m : ByteMemory} {dest src count : BitVec 64}
    (hdest : dest.toNat + count.toNat ≤ 2 ^ 64) :
    MovesExactly m dest src count (memcpy dest src count m).2
      ↔ ∀ i < count.toNat, m (src + BitVec.ofNat 64 (i % (dest - src).toNat))
        = m (src + BitVec.ofNat 64 i) := by
  have hn := count.isLt
  rw [movesExactly_iff hdest, memcpy, copyForward_eq hn.le, put_eq_put_iff hn.le]

end KiOS
