import Mathlib

/-!
Programs that change a state and may stop early, with their rules.

* `Program`: such programs. `step` is a change of the state that returns a value, `stop` leaves
  the program at once and `stopIf` does so under a condition;
* `Program.exec`: the value or the reason to stop, and the state left;
* `Program.Triple`: pre- and postconditions, with `Program.Ends`. A program that stops early
  owes a postcondition of its own;
* `Triple.bind`, `Triple.step`, `Triple.stopIf`, `Triple.conseq`: the rules for programs without
  loops;
* `Triple.forM`, `Triple.foldlM`: the rules for loops over a list, with an invariant that speaks
  of the part of the list already done.
-/

/-- A program over the states `σ` that returns a value or stops early, for a reason in `ε`. -/
abbrev Program (σ ε α : Type) := ExceptT ε (StateM σ) α

namespace Program

variable {σ ε α β : Type}

/-- What a program does from a state. -/
def exec (c : Program σ ε α) (s : σ) : Except ε α × σ := (c.run.run s).run

/-- A change of the state that returns a value. -/
def step (f : σ → α × σ) : Program σ ε α := ExceptT.mk fun s => pure (.ok (f s).1, (f s).2)

/-- Leave the program. -/
def stop (e : ε) : Program σ ε α := ExceptT.mk fun s => pure (.error e, s)

/-- Leave the program under a condition. -/
def stopIf (p : Prop) [Decidable p] (e : ε) : Program σ ε Unit := if p then stop e else pure ()

@[simp] lemma exec_pure (a : α) (s : σ) : exec (pure a : Program σ ε α) s = (.ok a, s) := rfl

@[simp] lemma exec_stop (e : ε) (s : σ) : exec (stop e : Program σ ε α) s = (.error e, s) := rfl

@[simp] lemma exec_step (f : σ → α × σ) (s : σ) :
    exec (step f : Program σ ε α) s = (.ok (f s).1, (f s).2) := rfl

lemma exec_bind (c : Program σ ε α) (k : α → Program σ ε β) (s : σ) :
    exec (c >>= k) s
      = match exec c s with
        | (.ok a, t) => exec (k a) t
        | (.error e, t) => (.error e, t) := by
  have hbind : exec (c >>= k) s = (ExceptT.bindCont k (exec c s).1 (exec c s).2).run := rfl
  rw [hbind]
  rcases exec c s with ⟨_ | a, t⟩ <;> rfl

/-- A program ended in `Q`, or stopped early in `E`. -/
def Ends (Q : α → σ → Prop) (E : ε → σ → Prop) : Except ε α × σ → Prop
  | (.ok a, t) => Q a t
  | (.error e, t) => E e t

/-- From `P` the program ends in `Q`, or stops early in `E`. -/
def Triple (P : σ → Prop) (c : Program σ ε α) (Q : α → σ → Prop) (E : ε → σ → Prop) : Prop :=
  ∀ s, P s → Ends Q E (exec c s)

/-- Where the elements of `List.range` stand. -/
lemma range_prefix {n b : ℕ} {p r : List ℕ} (h : List.range n = p ++ b :: r) :
    b = p.length ∧ b < n := by
  have hb : (List.range n)[p.length]? = some b := by
    rw [h]
    simp
  rw [List.getElem?_range (by
    have := congrArg List.length h
    simp only [List.length_range, List.length_append, List.length_cons] at this
    omega)] at hb
  obtain rfl : p.length = b := Option.some.inj hb
  refine ⟨rfl, ?_⟩
  have := congrArg List.length h
  simp only [List.length_range, List.length_append, List.length_cons] at this
  omega

namespace Triple

variable {P P' : σ → Prop} {Q Q' : α → σ → Prop} {R : β → σ → Prop} {E E' : ε → σ → Prop}
  {c : Program σ ε α} {k : α → Program σ ε β}

lemma pure {a : α} (h : ∀ s, P s → Q a s) : Triple P (pure a) Q E := h

lemma stop {e : ε} (h : ∀ s, P s → E e s) : Triple P (stop e) Q E := h

lemma step {f : σ → α × σ} (h : ∀ s, P s → Q (f s).1 (f s).2) : Triple P (step f) Q E := h

lemma stopIf {p : Prop} [Decidable p] {e : ε} {Q : Unit → σ → Prop}
    (hstop : p → ∀ s, P s → E e s) (hgo : ¬ p → ∀ s, P s → Q () s) : Triple P (stopIf p e) Q E := by
  unfold Program.stopIf
  split_ifs with hp
  · exact stop (hstop hp)
  · exact pure (hgo hp)

lemma bind (hc : Triple P c Q E) (hk : ∀ a, Triple (Q a) (k a) R E) : Triple P (c >>= k) R E := by
  intro s hs
  have hcs := hc s hs
  rw [exec_bind]
  generalize exec c s = r at hcs ⊢
  rcases r with ⟨e | a, t⟩
  · exact hcs
  · exact hk a t hcs

lemma conseq (h : Triple P c Q E) (hP : ∀ s, P' s → P s) (hQ : ∀ a s, Q a s → Q' a s)
    (hE : ∀ e s, E e s → E' e s) : Triple P' c Q' E' := by
  intro s hs
  have hcs := h s (hP s hs)
  generalize exec c s = r at hcs ⊢
  rcases r with ⟨e | a, t⟩
  · exact hE e t hcs
  · exact hQ a t hcs

/-- It is enough to look at one state at a time. -/
lemma of_eq (h : ∀ s, P s → Triple (fun t => t = s) c Q E) : Triple P c Q E :=
  fun s hs => h s hs s rfl

/-- What does not speak of the state can be assumed. -/
lemma assume {p : Prop} (h : p → Triple P c Q E) : Triple (fun s => P s ∧ p) c Q E := fun s hs =>
  h hs.2 s hs.1

/-- **Loops over a list**: the body takes the invariant from the elements done to one more. -/
lemma forM {f : β → Program σ ε PUnit} {l : List β} (I : List β → σ → Prop)
    (h : ∀ p b r, l = p ++ b :: r → Triple (I p) (f b) (fun _ => I (p ++ [b])) E) :
    Triple (I []) (l.forM f) (fun _ => I l) E := by
  suffices H : ∀ r p, p ++ r = l → Triple (I p) (r.forM f) (fun _ => I l) E from H l [] rfl
  intro r
  induction r with
  | nil =>
      rintro p rfl
      rw [List.append_nil]
      exact pure fun s hs => hs
  | cons b r ih =>
      rintro p rfl
      exact bind (h p b r rfl) fun _ => ih (p ++ [b]) (by simp)

/-- **Loops that compute a value.** -/
lemma foldlM {f : α → β → Program σ ε α} {l : List β} {a : α} (I : List β → α → σ → Prop)
    (h : ∀ p b r a, l = p ++ b :: r → Triple (I p a) (f a b) (I (p ++ [b])) E) :
    Triple (I [] a) (l.foldlM f a) (I l) E := by
  suffices H : ∀ r p a, p ++ r = l → Triple (I p a) (r.foldlM f a) (I l) E from H l [] a rfl
  intro r
  induction r with
  | nil =>
      rintro p a rfl
      rw [List.append_nil]
      exact pure fun s hs => hs
  | cons b r ih =>
      rintro p a rfl
      rw [List.foldlM_cons]
      exact bind (h p b r a rfl) fun a' => ih (p ++ [b]) a' (by simp)

end Triple

-- from here on programs are reasoned about by their rules
attribute [irreducible] exec

end Program
