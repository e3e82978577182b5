import KiOS.Task.Runs

/-!
Whom `task_switch` makes the running task.

The search picks tasks that are READY or whose deadline has passed. When it picks none,
`task_switch` sets the current task RUNNING without looking at its state, so a zombie or a
sleeper goes on; a deadline that wraps around 2^64 has passed too early; and a task that sleeps
after it has exited is woken like any other.

* `SwitchOk`: what the task that runs after a switch must have been before;
* `KeepsEligible`: the condition: deadlines do not wrap, no zombie sleeps, and a switch that
  finds nothing to run finds the current task running or its deadline passed;
* `switch_eligible`: in every run that keeps to it exited tasks stay zombies, and the next
  switch is right exactly when it keeps to it as well;
* `zombie_resumed`: a run that does not.
-/

namespace KiOS

/-- The ticks of the last `task_sleep` have elapsed. -/
def SchedRun.Slept (s : SchedRun) (t : Ptr) : Prop :=
  (s.asleep t).1 + (s.asleep t).2 ≤ s.sched.pitTicks.toNat

/-- What the switch owes: the task that is current and RUNNING afterwards was RUNNING, READY, or
SLEEPING for the time it asked for, and never exited. -/
def SwitchOk (s : SchedRun) (currentRegs : Ptr) : Prop :=
  ∀ t, (s.switch currentRegs).sched.currentTask = some t →
    ((s.switch currentRegs).sched.tcb t).state = .running →
      ((s.sched.tcb t).state = .running ∨ (s.sched.tcb t).state = .ready
        ∨ (s.sched.tcb t).state = .sleeping ∧ s.Slept t) ∧ s.exited t = false

/-- The condition on the events of a run. -/
def KeepsEligible (s : SchedRun) : SchedEvent → Prop
  | .create _ _ stackSize _ _ => sizeofRegisters ≤ stackSize
  | .sleep ticks => s.sched.pitTicks.toNat + ticks.toNat < 2 ^ 64
      ∧ ∀ t, s.sched.currentTask = some t → (s.sched.tcb t).state ≠ .zombie
  | .switch _ => (∃ t ∈ s.sched.taskList, s.sched.Eligible t)
      ∨ ∀ t, s.sched.currentTask = some t → (s.sched.tcb t).state = .running
        ∨ (s.sched.tcb t).state = .sleeping ∧ s.Slept t
  | _ => True

instance (s : SchedRun) : (e : SchedEvent) → Decidable (KeepsEligible s e)
  | .create .. => inferInstanceAs (Decidable (_ ≤ _))
  | .sleep _ => @instDecidableAnd _ _ inferInstance (decidableSome _ _)
  | .switch _ => @instDecidableOr _ _ (List.decidableBEx _ _)
      (@decidableSome _ _ fun _ => @instDecidableOr _ _ inferInstance
        (@instDecidableAnd _ _ inferInstance (inferInstanceAs (Decidable (_ ≤ _)))))
  | .exit => inferInstanceAs (Decidable True)
  | .tick => inferInstanceAs (Decidable True)

/-- The invariant behind the condition. -/
structure SchedRun.EligibleInv (s : SchedRun) : Prop where
  inv : s.Inv
  exited_mem : ∀ t, s.exited t = true → t ∈ s.sched.taskList
  exited_zombie : ∀ t, s.exited t = true → (s.sched.tcb t).state = .zombie
  deadline : ∀ t ∈ s.sched.taskList, (s.sched.tcb t).state = .sleeping →
    (s.sched.tcb t).sleepUntil.toNat = (s.asleep t).1 + (s.asleep t).2

namespace SchedRun.EligibleInv

variable {s u : SchedRun} {e : SchedEvent} {regs : Ptr}

lemma init (kernelTask : Option Ptr) (s₀ : Sched) : (SchedRun.init kernelTask s₀).EligibleInv := by
  refine ⟨SchedRun.Inv.init kernelTask s₀, by simp [SchedRun.init], by simp [SchedRun.init],
    fun t ht hs => ?_⟩
  rcases kernelTask with _ | t₀ <;> simp_all [SchedRun.init, taskInit]

lemma create (name : List Char) (entry stackSize : BitVec 64) {task : Option Ptr}
    (stack : Option Ptr) (h : s.EligibleInv) (hf : Fresh s.blocks sizeofTask task) :
    (s.create name entry stackSize task stack).EligibleInv := by
  have hinv := h.inv.create name entry stackSize stack hf
  rcases s.create_cases name entry stackSize task stack with
    ⟨blocks, heq⟩ | ⟨t, p, rfl, rfl, heq⟩ <;> rw [heq] at hinv ⊢
  · exact ⟨hinv, h.exited_mem, h.exited_zombie, h.deadline⟩
  · have hnew := h.inv.fresh_not_mem hf
    have hold : ∀ t' ∈ s.sched.taskList, t' ≠ t := fun t' ht' h' => hnew (h' ▸ ht')
    refine ⟨hinv, fun t' ht' => List.mem_append_left _ (h.exited_mem t' ht'), fun t' ht' => ?_,
      fun t' ht' hs => ?_⟩
    · simp only [Function.update_of_ne (hold t' (h.exited_mem t' ht'))]
      exact h.exited_zombie t' ht'
    · rcases List.mem_append.mp ht' with ht' | ht'
      · simp only [Function.update_of_ne (hold t' ht')] at hs ⊢
        exact h.deadline t' ht' hs
      · obtain rfl := List.mem_singleton.mp ht'
        simp only [Function.update_self] at hs
        split_ifs at hs

lemma sleep (h : s.EligibleInv) {ticks : BitVec 64} (hg : KeepsEligible s (.sleep ticks)) :
    (s.sleep ticks).EligibleInv := by
  have hinv := h.inv.sleep ticks
  obtain ⟨hwrap, hz⟩ := hg
  unfold SchedRun.sleep taskSleep at *
  cases hc : s.sched.currentTask with
  | none =>
      simp only [hc] at hinv ⊢
      exact ⟨hinv, h.exited_mem, h.exited_zombie, h.deadline⟩
  | some c =>
      simp only [hc] at hinv ⊢
      refine ⟨hinv, h.exited_mem, fun t ht => ?_, fun t ht hs => ?_⟩
      · have hne : t ≠ c := fun h' => hz c hc (h' ▸ h.exited_zombie t ht)
        simp only [Function.update_of_ne hne]
        exact h.exited_zombie t ht
      · rcases eq_or_ne t c with rfl | hne
        · simp only [Function.update_self, BitVec.toNat_add]
          exact Nat.mod_eq_of_lt hwrap
        · simp only [Function.update_of_ne hne] at hs ⊢
          exact h.deadline t ht hs

lemma exit (h : s.EligibleInv) : s.exit.EligibleInv := by
  have hinv := h.inv.exit
  unfold SchedRun.exit taskExit at *
  cases hc : s.sched.currentTask with
  | none =>
      simp only [hc] at hinv ⊢
      exact ⟨hinv, h.exited_mem, h.exited_zombie, h.deadline⟩
  | some c =>
      simp only [hc] at hinv ⊢
      refine ⟨hinv, fun t ht => ?_, fun t ht => ?_, fun t ht hs => ?_⟩ <;>
        rcases eq_or_ne t c with rfl | hne
      · exact h.inv.current_mem t hc
      · exact h.exited_mem t (by simpa [hne] using ht)
      · simp
      · rw [Sched.setState_tcb_ne _ hne]
        exact h.exited_zombie t (by simpa [hne] using ht)
      · simp at hs
      · rw [Sched.setState_tcb_ne _ hne] at hs ⊢
        exact h.deadline t ht hs

/-- A task the search picks was running or eligible before the current task was saved. -/
lemma eligible_saved {t : Ptr} (hel : (s.sched.saved regs).Eligible t) :
    s.sched.currentTask = some t ∧ (s.sched.tcb t).state = .running ∨ s.sched.Eligible t := by
  rcases s.sched.saved_state regs t with hs | ⟨hc, hs, -⟩
  · rw [Sched.Eligible, hs, Sched.saved_pid, Sched.saved_sleepUntil, Sched.saved_pitTicks] at hel
    exact Or.inr hel
  · exact Or.inl ⟨hc, hs⟩

/-- Eligible tasks stay so when the current task is saved. -/
lemma eligible_of_saved {t : Ptr} (hel : s.sched.Eligible t) : (s.sched.saved regs).Eligible t := by
  rcases s.sched.saved_state regs t with hs | ⟨-, hs, -⟩
  · rw [Sched.Eligible, hs, Sched.saved_pid, Sched.saved_sleepUntil, Sched.saved_pitTicks]
    exact hel
  · obtain ⟨-, hel | ⟨hel, -⟩⟩ := hel <;> rw [hs] at hel <;> cases hel

/-- What a task must be before a switch makes it run. -/
def Fit (s : SchedRun) (t : Ptr) : Prop :=
  ((s.sched.tcb t).state = .running ∨ (s.sched.tcb t).state = .ready
    ∨ (s.sched.tcb t).state = .sleeping ∧ s.Slept t) ∧ s.exited t = false

lemma not_exited (h : s.EligibleInv) {t : Ptr} (hz : (s.sched.tcb t).state ≠ .zombie) :
    s.exited t = false := by
  by_contra hex
  exact hz (h.exited_zombie t (by simpa using hex))

lemma eligible_fit (h : s.EligibleInv) {t : Ptr} (hmem : t ∈ s.sched.taskList)
    (hel : s.sched.Eligible t) : Fit s t := by
  obtain ⟨-, hs | ⟨hs, htime⟩⟩ := hel
  · exact ⟨Or.inr (Or.inl hs), h.not_exited (by simp [hs])⟩
  · refine ⟨Or.inr (Or.inr ⟨hs, ?_⟩), h.not_exited (by simp [hs])⟩
    rw [SchedRun.Slept, ← h.deadline t hmem hs]
    exact htime

/-- The task the search picks is fit. -/
lemma selected_fit (h : s.EligibleInv) {t : Ptr} (hsel : (s.sched.saved regs).selected = some t) :
    Fit s t := by
  obtain ⟨hmem, hel⟩ := Sched.selected_some hsel
  rw [Sched.saved_taskList] at hmem
  rcases eligible_saved hel with ⟨-, hs⟩ | hel
  · exact ⟨Or.inl hs, h.not_exited (by simp [hs])⟩
  · exact h.eligible_fit hmem hel

/-- Setting a fit task running keeps what the invariant says of the tasks. -/
lemma set_running (regs : Ptr) (h : s.EligibleInv) {t : Ptr} (hfit : Fit s t) :
    (∀ t', s.exited t' = true →
        (((s.sched.saved regs).setState t .running).tcb t').state = .zombie)
      ∧ ∀ t' ∈ s.sched.taskList,
        (((s.sched.saved regs).setState t .running).tcb t').state = .sleeping →
        (((s.sched.saved regs).setState t .running).tcb t').sleepUntil.toNat
          = (s.asleep t').1 + (s.asleep t').2 := by
  refine ⟨fun t' ht' => ?_, fun t' ht' hs => ?_⟩
  · have hne : t' ≠ t := fun h' => by
      rw [h', hfit.2] at ht'
      cases ht'
    have hz := h.exited_zombie t' ht'
    rw [Sched.setState_tcb_ne _ hne]
    rcases s.sched.saved_state regs t' with hs | ⟨-, hs, -⟩
    · rw [hs, hz]
    · rw [hz] at hs
      cases hs
  · have hne : t' ≠ t := fun h' => by simp [h'] at hs
    rw [Sched.setState_tcb_ne _ hne] at hs
    rw [Sched.setState_sleepUntil, Sched.saved_sleepUntil]
    rcases s.sched.saved_state regs t' with hs' | ⟨-, -, hs'⟩ <;>
      rw [hs'] at hs
    · exact h.deadline t' ht' hs
    · cases hs

lemma switch_found (h : s.EligibleInv) {t : Ptr}
    (hsel : (s.sched.saved regs).selected = some t) :
    (s.switch regs).EligibleInv ∧ SwitchOk s regs := by
  have hfit := h.selected_fit hsel
  have hset := h.set_running regs hfit
  have hinv := h.inv.switch regs
  unfold SwitchOk SchedRun.switch at *
  simp only [taskSwitch_found hsel] at hinv ⊢
  refine ⟨⟨hinv, by simpa using h.exited_mem, hset.1, by simpa using hset.2⟩, fun t' ht' _ => ?_⟩
  obtain rfl := Option.some.inj ht'
  exact hfit

/-- When the search finds nothing, the current task goes on. -/
lemma switch_none (h : s.EligibleInv) (hsel : (s.sched.saved regs).selected = none)
    (hfit : ∀ t, s.sched.currentTask = some t → Fit s t) :
    (s.switch regs).EligibleInv ∧ SwitchOk s regs := by
  have hinv := h.inv.switch regs
  unfold SwitchOk SchedRun.switch at *
  simp only [taskSwitch_none hsel] at hinv ⊢
  cases hc : s.sched.currentTask with
  | none =>
      simp only [hc] at hinv ⊢
      exact ⟨⟨hinv, h.exited_mem, h.exited_zombie, h.deadline⟩, by simp⟩
  | some c =>
      have hne : s.sched.taskList ≠ [] := List.ne_nil_of_mem (h.inv.current_mem c hc)
      have hset := h.set_running regs (hfit c hc)
      simp only [hc, hne, if_false] at hinv ⊢
      refine ⟨⟨hinv, by simpa using h.exited_mem, hset.1, by simpa using hset.2⟩, fun t ht _ => ?_⟩
      simp only [Sched.setState_currentTask, Sched.saved_currentTask, hc, Option.some.injEq] at ht
      exact ht ▸ hfit c hc

/-- A switch that keeps to the condition keeps the invariant and is right. -/
lemma switch (h : s.EligibleInv) (hg : KeepsEligible s (.switch regs)) :
    (s.switch regs).EligibleInv ∧ SwitchOk s regs := by
  cases hsel : (s.sched.saved regs).selected with
  | some t => exact h.switch_found hsel
  | none =>
      refine h.switch_none hsel fun c hc => ?_
      have hnone := Sched.selected_eq_none.mp hsel
      rw [Sched.saved_taskList] at hnone
      rcases hg with ⟨t, hmem, hel⟩ | hg
      · exact absurd (eligible_of_saved hel) (hnone t hmem)
      · rcases hg c hc with hs | ⟨hs, hsl⟩
        · exact ⟨Or.inl hs, h.not_exited (by simp [hs])⟩
        · exact ⟨Or.inr (Or.inr ⟨hs, hsl⟩), h.not_exited (by simp [hs])⟩

/-- A switch that is right keeps to the condition. -/
lemma keeps_of_ok (h : s.EligibleInv) (hok : SwitchOk s regs) :
    KeepsEligible s (.switch regs) := by
  by_contra hg
  obtain ⟨hel, hcur⟩ := not_or.mp hg
  push Not at hel hcur
  obtain ⟨c, hc, hrun, hsl⟩ := hcur
  have hne : s.sched.taskList ≠ [] := List.ne_nil_of_mem (h.inv.current_mem c hc)
  have hsel : (s.sched.saved regs).selected = none := by
    refine Sched.selected_eq_none.mpr fun t hmem hel' => ?_
    rw [Sched.saved_taskList] at hmem
    rcases eligible_saved hel' with ⟨hc', hs⟩ | hel'
    · rw [Option.some.inj (hc.symm.trans hc')] at hrun
      exact hrun hs
    · exact hel t hmem hel'
  have hfit := hok c (by simp [SchedRun.switch, taskSwitch_none hsel, hc, hne])
    (by simp [SchedRun.switch, taskSwitch_none hsel, hc, hne])
  rcases h.inv.current_state c hc with hs | hs | hs
  · exact hrun hs
  · rcases hfit.1 with hs' | hs' | ⟨-, hs'⟩
    · exact hrun hs'
    · rw [hs] at hs'
      cases hs'
    · exact hsl hs hs'
  · rcases hfit.1 with hs' | hs' | ⟨hs', -⟩ <;> rw [hs] at hs' <;> cases hs'

lemma step (h : s.EligibleInv) (hadm : (schedMachine.restrict KeepsEligible).admissible s e)
    (hst : (schedMachine.restrict KeepsEligible).step s e = some u) : u.EligibleInv := by
  cases e <;> simp only [EventMachine.restrict, schedMachine, Option.some.injEq] at hadm hst <;>
    subst hst
  case create => exact h.create _ _ _ _ hadm.1.1
  case sleep ticks => exact h.sleep hadm.2
  case exit => exact h.exit
  case switch regs => exact (h.switch hadm.2).1
  case tick => exact ⟨⟨h.inv.entry_block, h.inv.current_mem, h.inv.current_none,
      h.inv.current_state⟩, h.exited_mem, h.exited_zombie, h.deadline⟩

end SchedRun.EligibleInv

/-- **Scheduling eligibility**: in every run that keeps to the condition a task that exited
stays a zombie, and the next switch is right exactly when it keeps to the condition too. -/
theorem switch_eligible {kernelTask : Option Ptr} {s₀ : Sched} {es : List SchedEvent}
    {s : SchedRun}
    (hrun : (schedMachine.restrict KeepsEligible).Run (SchedRun.init kernelTask s₀) es s) :
    (∀ t, s.exited t = true → (s.sched.tcb t).state = .zombie)
      ∧ ∀ currentRegs, SwitchOk s currentRegs ↔ KeepsEligible s (.switch currentRegs) := by
  have h := EventMachine.Run.invariant (SchedRun.EligibleInv.init kernelTask s₀)
    (fun _ _ _ ht hadm hst => ht.step hadm hst) hrun
  exact ⟨h.exited_zombie, fun regs => ⟨h.keeps_of_ok, fun hg => (h.switch hg).2⟩⟩

/-- The statement after two tasks were created and the first one was switched to. -/
theorem switch_eligible_twoTasks :
    (∀ t, firstTask.exited t = true → (firstTask.sched.tcb t).state = .zombie)
      ∧ ∀ currentRegs, SwitchOk firstTask currentRegs
        ↔ KeepsEligible firstTask (.switch currentRegs) := by
  have hrun : (schedMachine.restrict KeepsEligible).Run bootRun twoTasks firstTask :=
    EventMachine.Run.of_isSome (by decide)
  exact switch_eligible hrun

/-- The first task exits, and so does the second one. -/
def zombies : SchedRun :=
  (schedMachine.exec bootRun (twoTasks ++ [.exit, .switch 0x1111, .exit])).getD bootRun

/-- **A zombie runs on**: with no task left to run, the one that exited last is set RUNNING. -/
theorem zombie_resumed :
    schedMachine.Run bootRun (twoTasks ++ [.exit, .switch 0x1111, .exit]) zombies
      ∧ ¬ SwitchOk zombies 0x2222 := by
  refine ⟨EventMachine.Run.of_isSome (by decide), fun h => ?_⟩
  have hfit := h 0xFFFF8000000010A0 (by decide) (by decide)
  exact absurd hfit.2 (by decide)

end KiOS
