import Mathlib

/-!
Strings that end with a zero byte (`string.h`).

A pointer is the list of the bytes from it on to the end of the object it points into. Reading or
writing behind the end gives `none`.

* `loadAt`, `storeAt`: `p[i]` and `p[i] = c`;
* `IsCString`: the characters before the first zero byte; `literal`: those of a string literal;
* `strlen`, `strcmp`, `strncmp`, `strcpy`: the functions of the source;
* `skipWhile`: a pointer moved on as long as its character has a property;
* `strlen_spec`, `strcmp_spec`, `strncmp_spec`, `strcpy_spec`, `skipWhile_spec`: what they do to
  strings.
-/

namespace KiOS

/-- A pointer to characters. -/
abbrev Chars := List (BitVec 8)

/-- The characters of a string. -/
def spelling (s : String) : Chars := s.toList.map fun c => BitVec.ofNat 8 c.toNat

/-- A string literal. -/
def literal (s : String) : Chars := spelling s ++ [0]

/-- `p[i]`. -/
def loadAt (p : Chars) (i : ℤ) : Option (BitVec 8) := if 0 ≤ i then p[i.toNat]? else none

/-- `p[i] = c`. -/
def storeAt (p : Chars) (i : ℤ) (c : BitVec 8) : Option Chars :=
  if 0 ≤ i ∧ i < p.length then some (p.set i.toNat c) else none

/-- `strlen`. -/
def strlen : Chars → Option ℕ
  | [] => none
  | c :: str => if c = 0 then some 0 else (strlen str).map (· + 1)

/-- `strcmp`. The characters are compared as unsigned ones in the end. -/
def strcmp : Chars → Chars → Option ℤ
  | a :: s1, b :: s2 => if a ≠ 0 ∧ a = b then strcmp s1 s2 else some (a.toNat - b.toNat)
  | _, _ => none

/-- `strncmp`. -/
def strncmp : Chars → Chars → ℕ → Option ℤ
  | _, _, 0 => some 0
  | a :: s1, b :: s2, n + 1 => if a ≠ 0 ∧ a = b then strncmp s1 s2 n else some (a.toNat - b.toNat)
  | _, _, _ + 1 => none

/-- `strcpy`: what `dest` points to afterwards. The zero is copied too. -/
def strcpy : Chars → Chars → Option Chars
  | _ :: dest, c :: src => if c = 0 then some (c :: dest) else (strcpy dest src).map (c :: ·)
  | _, _ => none

/-- `while (p(*str)) str++`. -/
def skipWhile (p : BitVec 8 → Bool) : Chars → Option Chars
  | [] => none
  | c :: str => if p c then skipWhile p str else some (c :: str)

/-- The pointer `str` is to the string `cs`. -/
def IsCString (str cs : Chars) : Prop := 0 ∉ cs ∧ ∃ rest, str = cs ++ 0 :: rest

variable {str cs p q : Chars} {c d : BitVec 8}

lemma loadAt_natCast {i : ℕ} : loadAt p i = p[i]? := if_pos (Int.natCast_nonneg i)

lemma storeAt_natCast {i : ℕ} (hi : i < p.length) : storeAt p i c = some (p.set i c) :=
  if_pos ⟨Int.natCast_nonneg i, by exact_mod_cast hi⟩

/-- A store behind a known part. -/
lemma storeAt_append {r : Chars} : storeAt (p ++ d :: r) p.length c = some (p ++ c :: r) := by
  rw [storeAt_natCast (by simp), List.set_append_right _ _ le_rfl, Nat.sub_self, List.set_cons_zero]

/-! ### Strings -/

lemma isCString_nil (rest : Chars) : IsCString (0 :: rest) [] := ⟨by simp, rest, rfl⟩

lemma isCString_cons (hc : c ≠ 0) : IsCString (c :: str) (c :: cs) ↔ IsCString str cs := by
  simp only [IsCString, List.mem_cons, not_or, List.cons_append, List.cons.injEq, true_and]
  exact and_congr_left fun _ => and_iff_right hc.symm

lemma isCString_zero_cons : IsCString (0 :: str) cs ↔ cs = [] := by
  constructor
  · rintro ⟨h0, rest, hstr⟩
    cases cs with
    | nil => rfl
    | cons c cs =>
        rw [List.cons_append, List.cons.injEq] at hstr
        exact absurd (hstr.1 ▸ List.mem_cons_self) h0
  · rintro rfl
    exact isCString_nil str

lemma IsCString.length_lt (h : IsCString str cs) : cs.length < str.length := by
  obtain ⟨rest, rfl⟩ := h.2
  rw [List.length_append, List.length_cons]
  omega

/-- A pointer is to at most one string. -/
lemma IsCString.unique {ds : Chars} (h : IsCString str cs) (h' : IsCString str ds) : cs = ds := by
  induction cs generalizing str ds with
  | nil =>
      obtain ⟨rest, rfl⟩ := h.2
      exact (isCString_zero_cons.mp h').symm
  | cons c cs ih =>
      have hc : c ≠ 0 := fun hc => h.1 (hc ▸ List.mem_cons_self)
      obtain ⟨rest, rfl⟩ := h.2
      rw [List.cons_append] at h h'
      cases ds with
      | nil =>
          obtain ⟨rest', hr⟩ := h'.2
          exact absurd (List.cons.inj hr).1 hc
      | cons d ds =>
          obtain ⟨rest', hr⟩ := h'.2
          have hcd : c = d := (List.cons.inj hr).1
          subst hcd
          rw [ih ((isCString_cons hc).mp h) ((isCString_cons hc).mp h')]

/-! ### The functions -/

lemma strlen_spec (h : IsCString str cs) : strlen str = some cs.length := by
  obtain ⟨rest, rfl⟩ := h.2
  have h0 := h.1
  clear h
  induction cs with
  | nil => rfl
  | cons c cs ih =>
      rw [List.mem_cons, not_or] at h0
      rw [List.cons_append, strlen, if_neg (Ne.symm h0.1), ih h0.2]
      rfl

/-- The other pointer need not be to a string, as long as it is to enough characters. -/
lemma strcmp_spec (h : IsCString p cs) (hlen : cs.length < q.length) :
    ∃ r, strcmp p q = some r ∧ (r = 0 ↔ IsCString q cs) := by
  obtain ⟨rest, rfl⟩ := h.2
  have h0 := h.1
  clear h
  induction cs generalizing q with
  | nil =>
      cases q with
      | nil => cases hlen
      | cons d q =>
          refine ⟨_, if_neg fun hne => hne.1 rfl, ?_⟩
          have hzero : ((0 : BitVec 8).toNat : ℤ) - d.toNat = 0 ↔ d = 0 := by
            rw [← BitVec.toNat_inj, show (0 : BitVec 8).toNat = 0 from rfl]
            omega
          rw [hzero]
          constructor
          · rintro rfl
            exact isCString_nil q
          · rintro ⟨-, rest', hq⟩
            exact (List.cons.inj hq).1
  | cons c cs ih =>
      cases q with
      | nil => cases hlen
      | cons d q =>
          rw [List.mem_cons, not_or] at h0
          by_cases hcd : c = d
          · subst hcd
            obtain ⟨r, hr, hiff⟩ := ih (Nat.lt_of_succ_lt_succ hlen) h0.2
            refine ⟨r, ?_, hiff.trans (isCString_cons (Ne.symm h0.1)).symm⟩
            rw [List.cons_append, strcmp, if_pos ⟨Ne.symm h0.1, rfl⟩, hr]
          · refine ⟨_, if_neg fun he => hcd he.2, ?_⟩
            have hne : (c.toNat : ℤ) - d.toNat ≠ 0 := by
              have := mt BitVec.toNat_inj.mp hcd
              omega
            refine iff_of_false hne ?_
            rintro ⟨-, rest', hq⟩
            exact hcd (List.cons.inj hq).1.symm

/-- Compared over its own length, a token is found to be a prefix. -/
lemma strncmp_spec {tok name : Chars} (rest : Chars) (h0 : 0 ∉ tok) (h : IsCString q name) :
    ∃ r, strncmp (tok ++ rest) q tok.length = some r ∧ (r = 0 ↔ tok <+: name) := by
  induction tok generalizing q name with
  | nil => exact ⟨0, by rw [List.length_nil, strncmp], iff_of_true rfl List.nil_prefix⟩
  | cons c tok ih =>
      rw [List.mem_cons, not_or] at h0
      have hstop : ∀ d : BitVec 8, c ≠ d → (c.toNat : ℤ) - d.toNat ≠ 0 := by
        intro d hcd
        have := mt BitVec.toNat_inj.mp hcd
        omega
      obtain ⟨rest', rfl⟩ := h.2
      cases name with
      | nil =>
          refine ⟨_, if_neg fun he => h0.1 he.2.symm, iff_of_false (hstop 0 (Ne.symm h0.1)) ?_⟩
          simp
      | cons d name =>
          by_cases hcd : c = d
          · subst hcd
            rw [List.cons_append] at h
            obtain ⟨r, hr, hiff⟩ := ih h0.2 ((isCString_cons (Ne.symm h0.1)).mp h)
            refine ⟨r, ?_, hiff.trans ?_⟩
            · rw [List.cons_append, List.cons_append, List.length_cons, strncmp,
                if_pos ⟨Ne.symm h0.1, rfl⟩, hr]
            · rw [List.cons_prefix_cons, and_iff_right rfl]
          · refine ⟨_, if_neg fun he => hcd he.2, iff_of_false (hstop d hcd) ?_⟩
            rw [List.cons_prefix_cons]
            exact fun he => hcd he.1

lemma strcpy_spec (dest : Chars) (h : IsCString str cs) (hlen : cs.length < dest.length) :
    strcpy dest str = some (cs ++ 0 :: dest.drop (cs.length + 1)) := by
  obtain ⟨rest, rfl⟩ := h.2
  have h0 := h.1
  clear h
  induction cs generalizing dest with
  | nil =>
      cases dest with
      | nil => cases hlen
      | cons d dest => rfl
  | cons c cs ih =>
      cases dest with
      | nil => cases hlen
      | cons d dest =>
          rw [List.mem_cons, not_or] at h0
          rw [List.cons_append, strcpy, if_neg (Ne.symm h0.1),
            ih dest (Nat.lt_of_succ_lt_succ hlen) h0.2]
          rfl

/-- A loop that stops at the zero leaves the rest of the string. -/
lemma skipWhile_spec {f : BitVec 8 → Bool} (hf : f 0 = false) (h : IsCString str cs) :
    ∃ str', skipWhile f str = some str' ∧ IsCString str' (cs.dropWhile f)
      ∧ str = cs.takeWhile f ++ str' := by
  induction cs generalizing str with
  | nil =>
      obtain ⟨rest, rfl⟩ := h.2
      exact ⟨_, if_neg (by rw [hf]; exact Bool.false_ne_true), h, rfl⟩
  | cons c cs ih =>
      have hc : c ≠ 0 := fun hc => h.1 (hc ▸ List.mem_cons_self)
      obtain ⟨rest, rfl⟩ := h.2
      by_cases hfc : f c = true
      · rw [List.cons_append] at h
        obtain ⟨str', hstr, hstr', happ⟩ := ih ((isCString_cons hc).mp h)
        refine ⟨str', ?_, ?_, ?_⟩
        · rw [List.cons_append, skipWhile, if_pos hfc, hstr]
        · rwa [List.dropWhile_cons_of_pos hfc]
        · rw [List.takeWhile_cons_of_pos hfc, List.cons_append, List.cons_append, ← happ]
      · refine ⟨_, if_neg hfc, ?_, ?_⟩
        · rwa [List.dropWhile_cons_of_neg hfc]
        · rw [List.takeWhile_cons_of_neg hfc]
          rfl

end KiOS
