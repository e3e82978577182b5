import Mathlib

/-!
Machines driven by events, and what holds along their runs.

* `EventMachine`: a state type, the events the environment may raise in a state and the
  step an event causes, `none` when the machine breaks down on it;
* `EventMachine.Run`: the finite runs, an event list with the state it leads to;
* `Run.invariant`: what holds initially and is kept by every step holds in every state
  reached;
* `EventMachine.exec`: the run of a given event list, computed;
* `Run.simulate`: a machine whose every step another one can match is refined by it;
* `EventMachine.observe`: what a run shows of its events, with `Run.observe_snoc`;
* `EventMachine.restrict`: the same machine under a stronger demand on its events, with
  `Run.of_restrict` taking its runs back;
* `foldlM_invariant`: the rule for a loop that may break down: if its body never does under
  the invariant, the loop finishes and the invariant holds at its end.
-/

universe u v

/-- A machine driven by events. -/
structure EventMachine (σ : Type u) (ε : Type v) where
  /-- The events the environment may raise in a state. -/
  admissible : σ → ε → Prop
  /-- The state an event leads to, `none` if the machine breaks down. -/
  step : σ → ε → Option σ

namespace EventMachine

variable {σ : Type u} {ε : Type v} {M : EventMachine σ ε}

/-- The finite runs from `s`: every event is admissible where it is raised. -/
inductive Run (M : EventMachine σ ε) (s : σ) : List ε → σ → Prop
  | nil : Run M s [] s
  | snoc {es : List ε} {t u : σ} {e : ε} :
      Run M s es t → M.admissible t e → M.step t e = some u → Run M s (es ++ [e]) u

/-- The machine under a stronger demand on its events. -/
def restrict (M : EventMachine σ ε) (G : σ → ε → Prop) : EventMachine σ ε where
  admissible s e := M.admissible s e ∧ G s e
  step := M.step

/-- The state an event list leads to, `none` if an event is not admissible or breaks the
machine down. -/
def exec (M : EventMachine σ ε) [∀ s e, Decidable (M.admissible s e)] :
    σ → List ε → Option σ
  | s, [] => some s
  | s, e :: es => if M.admissible s e then (M.step s e).bind fun t => M.exec t es else none

/-- What a run shows of its events, in their order. -/
def observe {α : Type*} (M : EventMachine σ ε) (f : σ → ε → List α) : σ → List ε → List α
  | _, [] => []
  | s, e :: es => f s e ++ (M.step s e).elim [] fun t => M.observe f t es

instance [∀ s e, Decidable (M.admissible s e)] {G : σ → ε → Prop} [∀ s e, Decidable (G s e)]
    (s : σ) (e : ε) : Decidable ((M.restrict G).admissible s e) :=
  inferInstanceAs (Decidable (_ ∧ _))

namespace Run

variable {s t u : σ} {es fs : List ε} {e : ε}

/-- **The invariant rule**: what every step keeps holds in every state reached. -/
theorem invariant {I : σ → Prop} (h0 : I s)
    (hstep : ∀ t e u, I t → M.admissible t e → M.step t e = some u → I u)
    (hrun : M.Run s es t) : I t := by
  induction hrun with
  | nil => exact h0
  | snoc _ hadm hst ih => exact hstep _ _ _ ih hadm hst

/-- **The simulation rule**: if every step from related states is matched by a step of the other
machine on the same event, to related states, then so is every run. What is related may depend on
the events so far. -/
theorem simulate {τ : Type*} {N : EventMachine τ ε} {R : List ε → σ → τ → Prop} {a : τ}
    (h0 : R [] s a)
    (hstep : ∀ es t e u b, M.Run s es t → R es t b → M.admissible t e → M.step t e = some u →
      ∃ c, N.admissible b e ∧ N.step b e = some c ∧ R (es ++ [e]) u c)
    (hrun : M.Run s es t) : ∃ b, N.Run a es b ∧ R es t b := by
  induction hrun with
  | nil => exact ⟨a, .nil, h0⟩
  | snoc hrun hadm hst ih =>
      obtain ⟨b, hb, hR⟩ := ih
      obtain ⟨c, hadm', hst', hc⟩ := hstep _ _ _ _ b hrun hR hadm hst
      exact ⟨c, .snoc hb hadm' hst', hc⟩

lemma single (hadm : M.admissible s e) (hst : M.step s e = some t) : M.Run s [e] t :=
  .snoc .nil hadm hst

lemma single_restrict {G : σ → ε → Prop} (hadm : M.admissible s e) (hG : G s e)
    (hst : M.step s e = some t) : (M.restrict G).Run s [e] t :=
  .single ⟨hadm, hG⟩ hst

lemma append (h₁ : M.Run s es t) (h₂ : M.Run t fs u) : M.Run s (es ++ fs) u := by
  induction h₂ with
  | nil => simpa using h₁
  | snoc _ hadm hst ih =>
      rw [← List.append_assoc]
      exact .snoc ih hadm hst

/-- A run read from its first event. -/
lemma cons (hadm : M.admissible s e) (hst : M.step s e = some t) (h : M.Run t es u) :
    M.Run s (e :: es) u :=
  (single hadm hst).append h

/-- What `exec` computes is a run. -/
lemma of_exec [∀ s e, Decidable (M.admissible s e)] (h : M.exec s es = some t) :
    M.Run s es t := by
  induction es generalizing s with
  | nil =>
      rw [exec, Option.some.injEq] at h
      exact h ▸ .nil
  | cons e es ih =>
      rw [exec] at h
      split_ifs at h with hadm
      obtain ⟨u, hst, hu⟩ := Option.bind_eq_some_iff.mp h
      exact cons hadm hst (ih hu)

/-- The state a given event list leads to. -/
lemma of_isSome [∀ s e, Decidable (M.admissible s e)] (h : (M.exec s es).isSome = true) :
    M.Run s es ((M.exec s es).getD s) := by
  obtain ⟨t, ht⟩ := Option.isSome_iff_exists.mp h
  rw [ht]
  exact of_exec ht

lemma observe_append {α : Type*} (f : σ → ε → List α) (h : M.Run s es t) (fs : List ε) :
    M.observe f s (es ++ fs) = M.observe f s es ++ M.observe f t fs := by
  induction h generalizing fs with
  | nil => rfl
  | @snoc es t u e _ _ hst ih =>
      have hcons : ∀ fs, M.observe f t (e :: fs) = f t e ++ M.observe f u fs := by
        intro fs
        rw [observe, hst]
        rfl
      rw [List.append_assoc, List.singleton_append, ih, ih, hcons, hcons, List.append_assoc,
        List.append_assoc]
      rfl

/-- One more event shows what it shows in the state it is raised in. -/
lemma observe_snoc {α : Type*} (f : σ → ε → List α) (h : M.Run s es t) (e : ε) :
    M.observe f s (es ++ [e]) = M.observe f s es ++ f t e := by
  rw [h.observe_append]
  cases hst : M.step t e <;> simp [observe, hst]

/-- A run under a stronger demand is a run of the machine itself. -/
lemma of_restrict {G : σ → ε → Prop} (h : (M.restrict G).Run s es t) : M.Run s es t := by
  induction h with
  | nil => exact .nil
  | snoc _ hadm hst ih => exact .snoc ih hadm.1 hst

end Run

end EventMachine

/-! ### Loops that may break down -/

/-- **The loop rule**, with the invariant indexed by the part of the list already done: a body
that never breaks down under the invariant makes a loop that finishes, and the invariant
holds of the whole list at its end. -/
theorem foldlM_invariant {α : Type u} {β : Type v} {f : α → β → Option α} {l : List β} {a : α}
    (I : List β → α → Prop) (h0 : I [] a)
    (hstep : ∀ p b r, l = p ++ b :: r → ∀ a, I p a → ∃ a', f a b = some a' ∧ I (p ++ [b]) a') :
    ∃ a', l.foldlM f a = some a' ∧ I l a' := by
  suffices H : ∀ (r p : List β) (a : α), p ++ r = l → I p a →
      ∃ a', r.foldlM f a = some a' ∧ I l a' from H l [] a rfl h0
  intro r
  induction r with
  | nil =>
      rintro p a rfl ha
      exact ⟨a, rfl, by simpa using ha⟩
  | cons b r ih =>
      rintro p a rfl ha
      obtain ⟨a₁, h₁, hI₁⟩ := hstep p b r rfl a ha
      obtain ⟨a', h', hI'⟩ := ih (p ++ [b]) a₁ (by simp) hI₁
      exact ⟨a', by simp [List.foldlM_cons, h₁, h'], hI'⟩
