import KiOS.Task.Runs

/-!
Context integrity of `task_switch`.

A task that is switched away from must come back with the frame it was switched away with.
`task_switch` saves that frame only while the task is RUNNING, so a task that went to sleep and
is switched away from before a switch found nothing to run comes back with an older frame.

* `ContextOk`: what a call of `task_switch` owes;
* `SavesContext`: the condition: no sleeping current task loses the CPU;
* `context_integrity`: in every run that keeps to it, every switch returns the right frame;
* `sleeper_loses_context`: a run that does not.
-/

namespace KiOS

/-- What `task_switch(currentRegs)` owes: a task that keeps the CPU keeps its frame, and a task
that gets it back, or gets it for the first time, continues with the frame it was last switched
away with, at first the one `task_create` built. -/
structure ContextOk (s : SchedRun) (currentRegs : Ptr) : Prop where
  stays : (s.switch currentRegs).sched.currentTask = s.sched.currentTask →
    (taskSwitch currentRegs s.sched).1 = currentRegs
  resumed : ∀ t, (s.switch currentRegs).sched.currentTask = some t →
    s.sched.currentTask ≠ some t → (taskSwitch currentRegs s.sched).1 = s.context t
  started : ∀ t entry, (s.switch currentRegs).sched.currentTask = some t →
    s.unstarted t = some entry →
      (s.switch currentRegs).sched.frame (s.context t) = initialRegisters entry (s.context t)

/-- The condition: the frame of a new task fits into its stack, and no switch finds both the
current task asleep and a task to run. -/
def SavesContext (s : SchedRun) : SchedEvent → Prop
  | .switch _ => (∀ t, s.sched.currentTask = some t → (s.sched.tcb t).state ≠ .sleeping)
      ∨ ∀ t ∈ s.sched.taskList, ¬ s.sched.Eligible t
  | e => StackFits e

instance (s : SchedRun) : (e : SchedEvent) → Decidable (SavesContext s e)
  | .switch _ => @instDecidableOr _ _ (decidableSome _ _) (List.decidableBAll _ _)
  | .create .. => inferInstanceAs (Decidable (_ ≤ _))
  | .sleep _ => inferInstanceAs (Decidable True)
  | .exit => inferInstanceAs (Decidable True)
  | .tick => inferInstanceAs (Decidable True)

/-- The invariant behind the condition. -/
structure SchedRun.ContextInv (s : SchedRun) : Prop where
  inv : s.Inv
  /-- The frame a waiting task will be given is the one it left. -/
  regs_eq : ∀ t ∈ s.sched.taskList, s.sched.currentTask ≠ some t →
    (s.sched.tcb t).state ≠ .zombie → (s.sched.tcb t).regs = s.context t
  current_started : ∀ t, s.sched.currentTask = some t → s.unstarted t = none
  /-- The frame of a task that never ran is as built, in a block of its own. -/
  unstarted_frame : ∀ t ∈ s.sched.taskList, ∀ entry, s.unstarted t = some entry →
    s.sched.frame (s.context t) = initialRegisters entry (s.context t)
      ∧ ∃ b ∈ s.blocks, b.addr.toNat ≤ (s.context t).toNat
        ∧ (s.context t).toNat + 208 ≤ b.addr.toNat + b.size.toNat

namespace SchedRun.ContextInv

variable {s u : SchedRun} {e : SchedEvent} {regs : Ptr}

lemma init (kernelTask : Option Ptr) (s₀ : Sched) : (SchedRun.init kernelTask s₀).ContextInv := by
  refine ⟨SchedRun.Inv.init kernelTask s₀, fun t ht hc => ?_, fun _ _ => rfl, by
    simp [SchedRun.init]⟩
  rcases kernelTask with _ | t₀ <;> simp_all [SchedRun.init, taskInit]

/-- The frame of a new task is apart from the frames of those that never ran. -/
lemma stackFrame_ne (h : s.ContextInv) {t p : Ptr} {stackSize entry : BitVec 64}
    (ht : t ∈ s.sched.taskList) (hu : s.unstarted t = some entry) {blocks : List Block}
    (hf : Fresh (s.blocks ++ blocks) stackSize (some p)) (hfit : sizeofRegisters ≤ stackSize) :
    s.context t ≠ stackFrame p stackSize := by
  intro heq
  obtain ⟨-, hal, hwrap, hdis⟩ := hf
  obtain ⟨-, b, hb, hlo, hhi⟩ := h.unstarted_frame t ht entry hu
  obtain ⟨hlo', hhi'⟩ := stackFrame_mem hal hwrap hfit
  rw [heq] at hlo hhi
  rcases hdis b (List.mem_append_left _ hb) with hd | hd <;> dsimp only at hd <;> omega

lemma create (h : s.ContextInv) {name : List Char} {entry stackSize : BitVec 64}
    {task stack : Option Ptr} (hf : Fresh s.blocks sizeofTask task)
    (hf' : Fresh (s.blocks ++ blockOf task sizeofTask) stackSize stack)
    (hfit : sizeofRegisters ≤ stackSize) :
    (s.create name entry stackSize task stack).ContextInv := by
  have hinv := h.inv.create name entry stackSize stack hf
  rcases s.create_cases name entry stackSize task stack with
    ⟨blocks, heq⟩ | ⟨t, p, rfl, rfl, heq⟩ <;> rw [heq] at hinv ⊢
  · refine ⟨hinv, h.regs_eq, h.current_started, fun t ht e he => ?_⟩
    obtain ⟨hfr, b, hb, hin⟩ := h.unstarted_frame t ht e he
    exact ⟨hfr, b, List.mem_append_left _ hb, hin⟩
  · have hnew := h.inv.fresh_not_mem hf
    have hold : ∀ t' ∈ s.sched.taskList, t' ≠ t := fun t' ht' h' => hnew (h' ▸ ht')
    refine ⟨hinv, fun t' ht' hc hz => ?_, fun t' ht' => ?_, fun t' ht' e he => ?_⟩
    · rcases List.mem_append.mp ht' with ht' | ht'
      · have hne := hold t' ht'
        have hc' : s.sched.currentTask ≠ some t' := by
          intro h'
          simp [h'] at hc
        simp only [Function.update_of_ne hne] at hz ⊢
        exact h.regs_eq t' ht' hc' hz
      · obtain rfl := List.mem_singleton.mp ht'
        simp
    · dsimp only at ht'
      rcases eq_or_ne t' t with rfl | hne
      · simp [ht']
      · have hc : s.sched.currentTask = some t' := by
          cases hcur : s.sched.currentTask <;> simp_all
        simpa [Function.update_of_ne hne] using h.current_started t' hc
    · rcases List.mem_append.mp ht' with ht' | ht'
      · have hne := hold t' ht'
        simp only [Function.update_of_ne hne] at he ⊢
        obtain ⟨hfr, b, hb, hin⟩ := h.unstarted_frame t' ht' e he
        refine ⟨?_, b, List.mem_append_left _ hb, hin⟩
        rw [Function.update_of_ne (h.stackFrame_ne ht' he hf' hfit)]
        exact hfr
      · obtain rfl := List.mem_singleton.mp ht'
        obtain ⟨-, hal, hwrap, -⟩ := hf'
        have he' : e = entry := by
          simp only [Function.update_self] at he
          split_ifs at he
          exact (Option.some.inj he).symm
        refine ⟨by simp [he'], ⟨p, stackSize⟩, by simp, ?_⟩
        simpa using stackFrame_mem hal hwrap hfit

/-- What changes nothing but the task control block of the current task keeps the invariant. -/
lemma of_current (h : s.ContextInv) (hu : u.Inv) (hl : u.sched.taskList = s.sched.taskList)
    (hc : u.sched.currentTask = s.sched.currentTask) (hf : u.sched.frame = s.sched.frame)
    (hb : u.blocks = s.blocks) (hctx : u.context = s.context) (hun : u.unstarted = s.unstarted)
    (htcb : ∀ t, s.sched.currentTask ≠ some t → u.sched.tcb t = s.sched.tcb t) :
    u.ContextInv := by
  refine ⟨hu, fun t ht hct hz => ?_, ?_, ?_⟩
  · rw [hc] at hct
    rw [htcb t hct] at hz ⊢
    rw [hctx]
    exact h.regs_eq t (hl ▸ ht) hct hz
  · rw [hc, hun]
    exact h.current_started
  · rw [hl, hf, hb, hctx, hun]
    exact h.unstarted_frame

lemma sleep (h : s.ContextInv) (ticks : BitVec 64) : (s.sleep ticks).ContextInv := by
  refine h.of_current (h.inv.sleep ticks) ?_ ?_ ?_ rfl rfl rfl fun t ht => ?_ <;>
    simp only [SchedRun.sleep, taskSleep] <;> cases hc : s.sched.currentTask <;> try rfl
  · exact hc
  · next c => exact Function.update_of_ne (fun h' => ht (by rw [hc, h'])) _ _

lemma exit (h : s.ContextInv) : s.exit.ContextInv := by
  refine h.of_current h.inv.exit ?_ ?_ ?_ rfl rfl rfl fun t ht => ?_ <;>
    simp only [SchedRun.exit, taskExit] <;> cases hc : s.sched.currentTask <;> try rfl
  · exact hc
  · exact hc
  · next c => exact Sched.setState_tcb_ne _ fun h' => ht (by rw [hc, h'])

/-- Under the condition, a switch that finds a task finds the current one running or a zombie. -/
lemma found_state (h : s.ContextInv) (hg : SavesContext s (.switch regs)) {t c : Ptr}
    (hsel : (s.sched.saved regs).selected = some t) (hc : s.sched.currentTask = some c) :
    (s.sched.tcb c).state = .running ∨ (s.sched.tcb c).state = .zombie := by
  rcases h.inv.current_state c hc with hs | hs | hs
  · exact Or.inl hs
  · -- nothing is saved of a sleeper, so the task found is eligible before the call
    exfalso
    rw [Sched.saved_eq (by simp [hc, hs])] at hsel
    obtain ⟨hmem, hel⟩ := Sched.selected_some hsel
    rcases hg with hg | hg
    · exact hg c hc hs
    · exact hg t hmem hel
  · exact Or.inr hs

/-- The current task keeps its frame when the switch finds it again. -/
lemma found_current (h : s.ContextInv) (hg : SavesContext s (.switch regs)) {c : Ptr}
    (hsel : (s.sched.saved regs).selected = some c) (hc : s.sched.currentTask = some c) :
    ((s.sched.saved regs).tcb c).regs = regs := by
  rcases h.found_state hg hsel hc with hs | hs
  · simp [Sched.saved_running hc hs]
  · have hel := (Sched.selected_some hsel).2
    rw [Sched.saved_eq (by simp [hc, hs])] at hel
    obtain ⟨-, hel | ⟨hel, -⟩⟩ := hel <;> rw [hs] at hel <;> cases hel

/-- A waiting task that the switch finds has the frame it left. -/
lemma found_waiting (h : s.ContextInv) {t : Ptr}
    (hsel : (s.sched.saved regs).selected = some t) (hc : s.sched.currentTask ≠ some t) :
    ((s.sched.saved regs).tcb t).regs = s.context t := by
  obtain ⟨hmem, hel⟩ := Sched.selected_some hsel
  rw [Sched.saved_taskList] at hmem
  rw [Sched.Eligible, Sched.saved_tcb_ne hc] at hel
  rw [Sched.saved_tcb_ne hc]
  refine h.regs_eq t hmem hc fun hz => ?_
  obtain ⟨-, hel | ⟨hel, -⟩⟩ := hel <;> rw [hz] at hel <;> cases hel

lemma switch_found (h : s.ContextInv) (hg : SavesContext s (.switch regs)) {t : Ptr}
    (hsel : (s.sched.saved regs).selected = some t) : (s.switch regs).ContextInv := by
  have hinv := h.inv.switch regs
  have hmem := (Sched.selected_some hsel).1
  rw [Sched.saved_taskList] at hmem
  unfold SchedRun.switch at hinv ⊢
  simp only [taskSwitch_found hsel] at hinv ⊢
  refine ⟨hinv, fun t' ht' hc hz => ?_, fun t' ht' => ?_, fun t' ht' e he => ?_⟩
  · have hne : t' ≠ t := fun h' => hc (by simp [h'])
    simp only [Sched.setState_tcb_ne _ hne, Sched.setState_taskList,
      Sched.saved_taskList] at hz ht' ⊢
    by_cases hc' : s.sched.currentTask = some t'
    · -- the task just switched away from: it was running, or it is a zombie
      rcases h.found_state hg hsel hc' with hs | hs
      · simp [Sched.saved_running hc' hs, hc', hne.symm]
      · rw [Sched.saved_eq (by simp [hc', hs])] at hz
        exact absurd hs hz
    · rw [Sched.saved_tcb_ne hc'] at hz ⊢
      rw [h.regs_eq t' ht' hc' hz]
      cases hcur : s.sched.currentTask with
      | none => rfl
      | some c =>
          have hne' : t' ≠ c := fun h' => hc' (by simp [hcur, h'])
          dsimp only
          split_ifs <;> simp [hne']
  · obtain rfl : t = t' := by simpa using ht'
    simp
  · have hne : t' ≠ t := fun h' => by simp [h'] at he
    have hu : s.unstarted t' = some e := by simpa [hne] using he
    have hc' : s.sched.currentTask ≠ some t' := fun h' => by
      rw [h.current_started t' h'] at hu
      cases hu
    have hfr := h.unstarted_frame t' (by simpa using ht') e hu
    cases hcur : s.sched.currentTask with
    | none => simpa [hcur] using hfr
    | some c =>
        have hne' : t' ≠ c := fun h' => hc' (by simp [hcur, h'])
        dsimp only
        split_ifs <;> simpa [hne'] using hfr

lemma switch_none (h : s.ContextInv) (hsel : (s.sched.saved regs).selected = none) :
    (s.switch regs).ContextInv := by
  have hinv := h.inv.switch regs
  unfold SchedRun.switch at hinv ⊢
  simp only [taskSwitch_none hsel] at hinv ⊢
  cases hc : s.sched.currentTask with
  | none =>
      simp only [hc] at hinv ⊢
      exact h
  | some c =>
      have hne : s.sched.taskList ≠ [] := List.ne_nil_of_mem (h.inv.current_mem c hc)
      have hu : Function.update s.unstarted c none = s.unstarted := by
        rw [Function.update_eq_self_iff]
        exact (h.current_started c hc).symm
      simp only [hc, hne, if_false, Sched.setState_currentTask, Sched.saved_currentTask, if_true,
        hu] at hinv ⊢
      refine h.of_current hinv (by simp) (by simp) (by simp) rfl rfl rfl fun t ht => ?_
      have hnt : t ≠ c := fun h' => ht (by rw [hc, h'])
      rw [Sched.setState_tcb_ne _ hnt, Sched.saved_tcb_ne ht]

lemma step (h : s.ContextInv) (hadm : (schedMachine.restrict SavesContext).admissible s e)
    (hst : (schedMachine.restrict SavesContext).step s e = some u) : u.ContextInv := by
  cases e <;> simp only [EventMachine.restrict, schedMachine, Option.some.injEq] at hadm hst <;>
    subst hst
  case create => exact h.create hadm.1.1 hadm.1.2 hadm.2
  case sleep ticks => exact h.sleep ticks
  case exit => exact h.exit
  case switch regs =>
      cases hsel : (s.sched.saved regs).selected with
      | some t => exact h.switch_found hadm.2 hsel
      | none => exact h.switch_none hsel
  case tick => exact ⟨⟨h.inv.entry_block, h.inv.current_mem, h.inv.current_none,
      h.inv.current_state⟩, h.regs_eq, h.current_started, h.unstarted_frame⟩

/-- What the invariant promises of the next switch. -/
lemma ok (h : s.ContextInv) (hg : SavesContext s (.switch regs)) : ContextOk s regs := by
  cases hsel : (s.sched.saved regs).selected with
  | some t =>
      have hmem := (Sched.selected_some hsel).1
      rw [Sched.saved_taskList] at hmem
      have hcur : (s.switch regs).sched.currentTask = some t := by
        simp [SchedRun.switch, taskSwitch_found hsel]
      have hfr : (s.switch regs).sched.frame = s.sched.frame := by
        simp [SchedRun.switch, taskSwitch_found hsel]
      refine ⟨fun hst => ?_, fun t' ht' hc => ?_, fun t' e ht' he => ?_⟩
      · rw [taskSwitch_found hsel]
        exact h.found_current hg hsel (hst.symm.trans hcur)
      · obtain rfl : t = t' := Option.some.inj (hcur.symm.trans ht')
        rw [taskSwitch_found hsel]
        exact h.found_waiting hsel hc
      · obtain rfl : t = t' := Option.some.inj (hcur.symm.trans ht')
        rw [hfr]
        exact (h.unstarted_frame t hmem e he).1
  | none =>
      have hcur : (s.switch regs).sched.currentTask = s.sched.currentTask := by
        simp only [SchedRun.switch, taskSwitch_none hsel]
        cases hc : s.sched.currentTask with
        | none => exact hc
        | some c => dsimp only; split_ifs <;> simp [hc]
      refine ⟨fun _ => by rw [taskSwitch_none hsel], fun t ht hc => ?_, fun t e ht he => ?_⟩
      · exact absurd (hcur ▸ ht) hc
      · rw [h.current_started t (hcur ▸ ht)] at he
        cases he

end SchedRun.ContextInv

/-- **Context integrity**: in every run in which no sleeping current task loses the CPU, every
switch gives the task it selects the frame that task left. -/
theorem context_integrity {kernelTask : Option Ptr} {s₀ : Sched} {es : List SchedEvent}
    {s : SchedRun}
    (hrun : (schedMachine.restrict SavesContext).Run (SchedRun.init kernelTask s₀) es s)
    {currentRegs : Ptr} (hg : SavesContext s (.switch currentRegs)) : ContextOk s currentRegs :=
  ((EventMachine.Run.invariant (SchedRun.ContextInv.init kernelTask s₀)
    (fun _ _ _ ht hadm hst => ht.step hadm hst) hrun).ok hg)

/-- The state after the two tasks took turns. -/
def preempted : SchedRun :=
  ((schedMachine.restrict SavesContext).exec bootRun (twoTasks ++ [.switch 0x1111])).getD bootRun

/-- The first task, preempted with its frame at `0x1111`, is owed that frame. -/
theorem context_integrity_preempted : ContextOk preempted 0x2222 := by
  have hrun : (schedMachine.restrict SavesContext).Run bootRun
      (twoTasks ++ [.switch 0x1111]) preempted := EventMachine.Run.of_isSome (by decide)
  exact context_integrity hrun (by decide)

/-- The first task sleeps for a tick, is switched away from and wakes up. -/
def sleeper : SchedRun :=
  (schedMachine.exec bootRun (twoTasks ++ [.sleep 1, .switch 0x1111, .tick])).getD bootRun

/-- **A sleeper loses its context**: switched away from with its frame at `0x1111`, it is given
its initial frame when it wakes up. -/
theorem sleeper_loses_context :
    schedMachine.Run bootRun (twoTasks ++ [.sleep 1, .switch 0x1111, .tick]) sleeper
      ∧ ¬ ContextOk sleeper 0x2222 := by
  refine ⟨EventMachine.Run.of_isSome (by decide), fun h => ?_⟩
  have hret := h.resumed 0xFFFF800000000050 (by decide) (by decide)
  exact absurd hret (by decide)

end KiOS
