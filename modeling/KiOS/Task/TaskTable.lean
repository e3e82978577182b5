import KiOS.Task.Runs

/-!
The table of the tasks, `task_list`, and the current task in it.

* `tableMachine`: any order of `task_create`, `task_sleep`, `task_exit`, `task_switch` and timer
  ticks, also past the end of the counter, where `kmalloc` returns NULL or memory that overlaps
  no task in the table;
* `Sched.TableOk`: the invariant of the table;
* `TableInv`: with the counter of the PIDs, which stays above all PIDs handed out and never wraps
  because no task leaves the table;
* `task_table`: the invariant holds in every state reached, a switch leaves exactly one task
  RUNNING, and a `task_create` that fails changes nothing.
-/

namespace KiOS

namespace Sched

/-- The memory of the tasks in the table. -/
def held (s : Sched) : List Block :=
  s.taskList.map (fun t => ⟨t, sizeofTask⟩)
    ++ s.taskList.map (fun t => ⟨(s.tcb t).stackBase, (s.tcb t).stackSize⟩)

/-- The table and the current task in it. -/
structure TableOk (s : Sched) : Prop where
  count_le : s.taskList.length ≤ maxTasks
  ne_null : ∀ t ∈ s.taskList, t ≠ 0
  nodup : s.taskList.Nodup
  pid_ne : ∀ t ∈ s.taskList, ∀ u ∈ s.taskList, t ≠ u → (s.tcb t).pid ≠ (s.tcb u).pid
  current_none : s.currentTask = none → s.taskList = []
  current_mem : ∀ t, s.currentTask = some t → t ∈ s.taskList
  /-- Only the current task is RUNNING. -/
  running : ∀ t ∈ s.taskList, (s.tcb t).state = .running → s.currentTask = some t

end Sched

/-- Any use of the scheduler. -/
def tableMachine : EventMachine Sched SchedEvent where
  admissible s
    | .create _ _ stackSize task stack =>
        (sizeofRegisters ≤ stackSize ∧ stackSize ≤ heapSize) ∧ Fresh s.held sizeofTask task
          ∧ Fresh (s.held ++ blockOf task sizeofTask) stackSize stack
    | _ => True
  step s
    | .create name entry stackSize task stack =>
        some (taskCreate name entry stackSize task stack s).2
    | .sleep ticks => some (taskSleep ticks s)
    | .exit => some (taskExit s)
    | .switch currentRegs => some (taskSwitch currentRegs s).2
    | .tick => some { s with pitTicks := s.pitTicks + 1 }

instance (s : Sched) : (e : SchedEvent) → Decidable (tableMachine.admissible s e)
  | .create .. => inferInstanceAs (Decidable (_ ∧ _ ∧ _))
  | .sleep _ => inferInstanceAs (Decidable True)
  | .exit => inferInstanceAs (Decidable True)
  | .switch _ => inferInstanceAs (Decidable True)
  | .tick => inferInstanceAs (Decidable True)

/-- The invariant of a run. -/
structure TableInv (s : Sched) : Prop where
  ok : s.TableOk
  /-- The PIDs handed out are below the next one. -/
  pid_lt : ∀ t ∈ s.taskList, (s.tcb t).pid < s.nextPid
  nextPid_le : s.nextPid.toNat ≤ s.taskList.length + 1

namespace TableInv

variable {s u : Sched} {e : SchedEvent} {regs : Ptr}

/-- The table of a state in which only the current task has another state than before. -/
lemma of_state (h : TableInv s) {u : Sched} (hlist : u.taskList = s.taskList)
    (hcurrent : u.currentTask = s.currentTask) (hnext : u.nextPid = s.nextPid)
    (hpid : ∀ t, (u.tcb t).pid = (s.tcb t).pid)
    (hstate : ∀ t, s.currentTask ≠ some t → (u.tcb t).state = (s.tcb t).state) : TableInv u := by
  obtain ⟨hok, hlt, hle⟩ := h
  refine ⟨⟨hlist ▸ hok.count_le, hlist ▸ hok.ne_null, hlist ▸ hok.nodup, ?_, ?_, ?_, ?_⟩, ?_, ?_⟩
  · intro t ht t' ht' hne
    rw [hpid, hpid]
    exact hok.pid_ne t (hlist ▸ ht) t' (hlist ▸ ht') hne
  · rw [hcurrent, hlist]
    exact hok.current_none
  · rw [hcurrent, hlist]
    exact hok.current_mem
  · intro t ht hrun
    rw [hcurrent]
    by_contra hne
    exact hne (hok.running t (hlist ▸ ht) (hstate t hne ▸ hrun))
  · intro t ht
    rw [hpid, hnext]
    exact hlt t (hlist ▸ ht)
  · rw [hnext, hlist]
    exact hle

/-- After `task_init` the table is empty or holds the kernel's own task. -/
lemma init {kernelTask : Option Ptr} (s₀ : Sched) (hfresh : Fresh [] sizeofTask kernelTask) :
    TableInv (taskInit kernelTask s₀) := by
  cases kernelTask with
  | none =>
      refine ⟨⟨Nat.zero_le _, ?_, List.nodup_nil, ?_, fun _ => rfl, ?_, ?_⟩, ?_, le_rfl⟩ <;>
        intro t ht <;> cases ht
  | some task =>
      have hne : task ≠ 0 := hfresh.1
      have hmem : ∀ t ∈ (taskInit (some task) s₀).taskList, t = task :=
        fun t ht => List.mem_singleton.mp ht
      refine ⟨⟨by simp [taskInit, maxTasks], ?_, List.nodup_singleton task, ?_, ?_, ?_, ?_⟩, ?_, ?_⟩
      · intro t ht
        rwa [hmem t ht]
      · intro t ht t' ht' htt'
        exact absurd ((hmem t ht).trans (hmem t' ht').symm) htt'
      · intro hnone
        cases hnone
      · intro t ht
        cases ht
        exact List.mem_singleton_self _
      · intro t ht _
        rw [hmem t ht]
        rfl
      · intro t ht
        rw [hmem t ht]
        simp [taskInit]
      · simp [taskInit]

/-- A block that overlaps no task in the table is none of its entries. -/
lemma fresh_not_mem {t : Ptr} (hfresh : Fresh s.held sizeofTask (some t)) : t ∉ s.taskList := by
  intro hmem
  have hblock : (⟨t, sizeofTask⟩ : Block) ∈ s.held :=
    List.mem_append_left _ (List.mem_map.mpr ⟨t, hmem, rfl⟩)
  have hsize : sizeofTask.toNat = 80 := rfl
  cases hfresh.2.2.2 _ hblock with
  | inl hd => dsimp only at hd; omega
  | inr hd => dsimp only at hd; omega

/-- A task that was created: it has the next PID, and runs if it is the first one. -/
lemma created (h : TableInv s) {t : Ptr} {tcb : Task} {u : Sched}
    (hroom : s.taskList.length < maxTasks)
    (hfresh : Fresh s.held sizeofTask (some t)) (hpid : tcb.pid = s.nextPid)
    (hstate : tcb.state = .running → s.currentTask = none)
    (hlist : u.taskList = s.taskList ++ [t]) (htcb : u.tcb = Function.update s.tcb t tcb)
    (hnext : u.nextPid = s.nextPid + 1) (hcurrent : u.currentTask = s.currentTask.or (some t)) :
    TableInv u := by
  have hnew : t ∉ s.taskList := fresh_not_mem hfresh
  have hsucc : (s.nextPid + 1).toNat = s.nextPid.toNat + 1 := by
    have hle := h.nextPid_le
    rw [BitVec.toNat_add]
    simp only [maxTasks] at hroom
    refine Nat.mod_eq_of_lt ?_
    rw [show (1 : BitVec 32).toNat = 1 from rfl]
    omega
  have hold : ∀ t' ∈ s.taskList, u.tcb t' = s.tcb t' := by
    intro t' ht'
    rw [htcb]
    refine Function.update_of_ne ?_ _ _
    rintro rfl
    exact hnew ht'
  have hself : u.tcb t = tcb := by rw [htcb, Function.update_self]
  have hcases : ∀ t' ∈ u.taskList, t' ∈ s.taskList ∨ t' = t := by
    intro t' ht'
    rw [hlist] at ht'
    exact (List.mem_append.mp ht').imp id List.mem_singleton.mp
  have hlt : ∀ t' ∈ s.taskList, (u.tcb t').pid.toNat < s.nextPid.toNat := by
    intro t' ht'
    rw [hold t' ht']
    exact h.pid_lt t' ht'
  refine ⟨⟨?_, ?_, ?_, ?_, ?_, ?_, ?_⟩, ?_, ?_⟩
  · rw [hlist, List.length_append]
    exact hroom
  · intro t' ht'
    cases hcases t' ht' with
    | inl hmem => exact h.ok.ne_null t' hmem
    | inr heq => exact heq ▸ hfresh.1
  · rw [hlist]
    exact h.ok.nodup.append (List.nodup_singleton t) (List.disjoint_singleton.mpr hnew)
  · intro t₁ h₁ t₂ h₂ hne heq
    have heq' := congrArg BitVec.toNat heq
    cases hcases t₁ h₁ with
    | inl hmem₁ =>
        cases hcases t₂ h₂ with
        | inl hmem₂ =>
            rw [hold t₁ hmem₁, hold t₂ hmem₂] at heq
            exact h.ok.pid_ne t₁ hmem₁ t₂ hmem₂ hne heq
        | inr hnew₂ =>
            have hlt₁ := hlt t₁ hmem₁
            rw [hnew₂, hself, hpid] at heq'
            omega
    | inr hnew₁ =>
        cases hcases t₂ h₂ with
        | inl hmem₂ =>
            have hlt₂ := hlt t₂ hmem₂
            rw [hnew₁, hself, hpid] at heq'
            omega
        | inr hnew₂ => exact hne (hnew₁.trans hnew₂.symm)
  · intro hnone
    rw [hcurrent] at hnone
    cases hc : s.currentTask <;> rw [hc] at hnone <;> cases hnone
  · intro t' ht'
    rw [hcurrent] at ht'
    rw [hlist]
    cases hc : s.currentTask with
    | none =>
        rw [hc] at ht'
        exact List.mem_append_right _ (List.mem_singleton.mpr (Option.some.inj ht').symm)
    | some c =>
        rw [hc] at ht'
        exact List.mem_append_left _ (h.ok.current_mem t' (hc.trans ht'))
  · intro t' ht' hrun
    rw [hcurrent]
    cases hcases t' ht' with
    | inl hmem =>
        rw [hold t' hmem] at hrun
        rw [h.ok.running t' hmem hrun]
        rfl
    | inr heq =>
        rw [heq, hself] at hrun
        rw [hstate hrun, heq]
        rfl
  · intro t' ht'
    rw [BitVec.lt_def, hnext, hsucc]
    cases hcases t' ht' with
    | inl hmem => exact (hlt t' hmem).trans (Nat.lt_succ_self _)
    | inr heq =>
        rw [heq, hself, hpid]
        exact Nat.lt_succ_self _
  · rw [hnext, hsucc, hlist, List.length_append]
    exact Nat.succ_le_succ h.nextPid_le

lemma create (h : TableInv s) (name : List Char) (entry stackSize : BitVec 64)
    {task stack : Option Ptr} (hfresh : Fresh s.held sizeofTask task) :
    TableInv (taskCreate name entry stackSize task stack s).2 := by
  unfold taskCreate
  by_cases hfull : maxTasks ≤ s.taskList.length
  · rw [if_pos hfull]
    exact h
  rw [if_neg hfull]
  cases task with
  | none => exact h
  | some t =>
      cases stack with
      | none => exact h
      | some p =>
          cases hc : s.currentTask with
          | some c =>
              exact h.created (by omega) hfresh rfl (fun hrun => by cases hrun) rfl rfl rfl
                (by rw [hc]; rfl)
          | none =>
              exact h.created (by omega) hfresh (by dsimp only; rw [Function.update_self])
                (fun _ => hc) rfl (Function.update_idem ..) rfl (by rw [hc]; rfl)

lemma sleep (h : TableInv s) (ticks : BitVec 64) : TableInv (taskSleep ticks s) := by
  unfold taskSleep
  cases hc : s.currentTask with
  | none => exact h
  | some c =>
      refine h.of_state rfl hc.symm rfl (fun t => ?_) fun t ht => ?_ <;> dsimp only
      · by_cases heq : t = c
        · rw [heq, Function.update_self]
        · rw [Function.update_of_ne heq]
      · rw [Function.update_of_ne]
        rintro rfl
        exact ht hc

/-- The current task gets another state. -/
lemma setState (h : TableInv s) {c : Ptr} (hc : s.currentTask = some c) (state : TaskState) :
    TableInv (s.setState c state) := by
  refine h.of_state rfl rfl rfl (Sched.setState_pid state) fun t ht => ?_
  rw [Sched.setState_tcb_ne]
  rintro rfl
  exact ht hc

lemma exit (h : TableInv s) : TableInv (taskExit s) := by
  unfold taskExit
  cases hc : s.currentTask with
  | none => exact h
  | some c => exact h.setState hc .zombie

/-- Once the current task is saved no task of the table is RUNNING. -/
lemma saved_state_ne (h : TableInv s) {t : Ptr} (ht : t ∈ s.taskList) :
    ((s.saved regs).tcb t).state ≠ .running := by
  intro hrun
  cases Sched.saved_state s regs t with
  | inl hsame =>
      have hold : (s.tcb t).state = .running := hsame ▸ hrun
      rw [Sched.saved_running (h.ok.running t ht hold) hold] at hrun
      simp at hrun
  | inr hsaved =>
      rw [hsaved.2.2] at hrun
      cases hrun

lemma saved (h : TableInv s) (regs : Ptr) : TableInv (s.saved regs) := by
  refine h.of_state Sched.saved_taskList Sched.saved_currentTask ?_ (fun _ => Sched.saved_pid)
    fun t ht => ?_
  · cases hc : s.currentTask <;> simp only [Sched.saved, hc]
    split_ifs <;> rfl
  · rw [Sched.saved_tcb_ne ht]

/-- The task the search found becomes the current one. -/
lemma found (h : TableInv s) {t : Ptr} (ht : t ∈ s.taskList)
    (hnone : ∀ t' ∈ s.taskList, (s.tcb t').state ≠ .running) :
    TableInv { s.setState t .running with currentTask := some t } := by
  refine ⟨⟨h.ok.count_le, h.ok.ne_null, h.ok.nodup, ?_, fun hn => ?_, fun t' ht' => ?_, ?_⟩,
    fun t' ht' => ?_, h.nextPid_le⟩
  · intro t₁ h₁ t₂ h₂ hne
    simpa using h.ok.pid_ne t₁ h₁ t₂ h₂ hne
  · cases hn
  · cases ht'
    exact ht
  · intro t' ht' hrun
    by_contra hne
    have hne' : t' ≠ t := fun heq => hne (congrArg some heq.symm)
    refine hnone t' ht' ?_
    rwa [show (s.setState t .running).tcb t' = s.tcb t' from Sched.setState_tcb_ne _ hne'] at hrun
  · rw [show ((s.setState t .running).tcb t').pid = (s.tcb t').pid from Sched.setState_pid _ _]
    exact h.pid_lt t' ht'

/-- **A switch** keeps the table, and the current task is RUNNING after it. -/
lemma switch (h : TableInv s) (regs : Ptr) :
    TableInv (taskSwitch regs s).2 ∧ (taskSwitch regs s).2.taskList = s.taskList
      ∧ ∀ t, (taskSwitch regs s).2.currentTask = some t →
        ((taskSwitch regs s).2.tcb t).state = .running := by
  have hlist : (s.saved regs).taskList = s.taskList := Sched.saved_taskList
  cases hsel : (s.saved regs).selected with
  | some t =>
      rw [taskSwitch_found hsel]
      refine ⟨(h.saved regs).found (Sched.selected_some hsel).1 fun t' ht' => ?_, hlist,
        fun t' ht' => ?_⟩
      · exact h.saved_state_ne (hlist ▸ ht')
      · cases ht'
        exact Sched.setState_state_self _
  | none =>
      rw [taskSwitch_none hsel]
      cases hc : s.currentTask with
      | none =>
          refine ⟨h, rfl, fun t ht => ?_⟩
          rw [hc] at ht
          cases ht
      | some c =>
          have hne : s.taskList ≠ [] := List.ne_nil_of_mem (h.ok.current_mem c hc)
          have hc' : (s.saved regs).currentTask = some c := Sched.saved_currentTask.trans hc
          simp only [if_neg hne]
          refine ⟨(h.saved regs).setState hc' .running, hlist, fun t ht => ?_⟩
          cases hc'.symm.trans ht
          exact Sched.setState_state_self _

lemma step (h : TableInv s) (hadm : tableMachine.admissible s e)
    (hst : tableMachine.step s e = some u) : TableInv u := by
  cases e with
  | create name entry stackSize task stack =>
      obtain rfl := Option.some.inj hst
      exact h.create name entry stackSize hadm.2.1
  | sleep ticks =>
      obtain rfl := Option.some.inj hst
      exact h.sleep ticks
  | exit =>
      obtain rfl := Option.some.inj hst
      exact h.exit
  | switch currentRegs =>
      obtain rfl := Option.some.inj hst
      exact (h.switch currentRegs).1
  | tick =>
      obtain rfl := Option.some.inj hst
      exact h.of_state rfl rfl rfl (fun _ => rfl) fun _ _ => rfl

/-- After a switch exactly one task is RUNNING. -/
lemma existsUnique_running (h : TableInv s) (regs : Ptr) (hne : s.taskList ≠ []) :
    ∃! t, t ∈ (taskSwitch regs s).2.taskList
      ∧ ((taskSwitch regs s).2.tcb t).state = .running := by
  obtain ⟨hinv, hlist, hrun⟩ := h.switch regs
  cases hc : (taskSwitch regs s).2.currentTask with
  | none => exact absurd (hlist ▸ hinv.ok.current_none hc) hne
  | some t =>
      refine ⟨t, ⟨hinv.ok.current_mem t hc, hrun t hc⟩, ?_⟩
      rintro t' ⟨hmem, hrun'⟩
      exact Option.some.inj ((hinv.ok.running t' hmem hrun').symm.trans hc)

end TableInv

/-- A `task_create` that returns NULL leaves the variables of `task.c` and the tasks alone. -/
lemma taskCreate_failed {s : Sched} {name : List Char} {entry stackSize : BitVec 64}
    {task stack : Option Ptr} (h : (taskCreate name entry stackSize task stack s).1 = none) :
    (taskCreate name entry stackSize task stack s).2 = s := by
  unfold taskCreate at *
  by_cases hfull : maxTasks ≤ s.taskList.length
  · rw [if_pos hfull]
  rw [if_neg hfull] at *
  cases task with
  | none => rfl
  | some t =>
      cases stack with
      | none => rfl
      | some p => cases hc : s.currentTask <;> dsimp only at h <;> rw [hc] at h <;> cases h

/-- **The task table**: in every state reached from `task_init` the table is in order, a switch
leaves exactly one task RUNNING, and a `task_create` that fails changes nothing. -/
theorem task_table {kernelTask : Option Ptr} (s₀ : Sched)
    (hinit : Fresh [] sizeofTask kernelTask) {es : List SchedEvent} {s : Sched}
    (hrun : tableMachine.Run (taskInit kernelTask s₀) es s) :
    s.TableOk
      ∧ (∀ regs, s.taskList ≠ [] → ∃! t, t ∈ (taskSwitch regs s).2.taskList
          ∧ ((taskSwitch regs s).2.tcb t).state = .running)
      ∧ ∀ name entry stackSize task stack,
          (taskCreate name entry stackSize task stack s).1 = none →
            (taskCreate name entry stackSize task stack s).2 = s := by
  have hinv : TableInv s :=
    EventMachine.Run.invariant (TableInv.init s₀ hinit) (fun _ _ _ ht hadm hst => ht.step hadm hst)
      hrun
  exact ⟨hinv.ok, hinv.existsUnique_running, fun _ _ _ _ _ => taskCreate_failed⟩

/-- Two tasks, one of which sleeps while the other one exits. -/
def sleepAndExit : List SchedEvent :=
  twoTasks ++ [.sleep 5, .switch 0x4FFE00, .tick, .exit, .switch 0x4FFD00]

/-- The scheduler after them. -/
def bothStopped : Sched :=
  (tableMachine.exec (taskInit (some 0xFFFF800000000000) default) sleepAndExit).getD default

/-- The statement for them. -/
theorem task_table_bothStopped :
    bothStopped.TableOk
      ∧ (∀ regs, bothStopped.taskList ≠ [] → ∃! t, t ∈ (taskSwitch regs bothStopped).2.taskList
          ∧ ((taskSwitch regs bothStopped).2.tcb t).state = .running)
      ∧ ∀ name entry stackSize task stack,
          (taskCreate name entry stackSize task stack bothStopped).1 = none →
            (taskCreate name entry stackSize task stack bothStopped).2 = bothStopped := by
  obtain ⟨s, hs⟩ := Option.isSome_iff_exists.mp
    (show (tableMachine.exec (taskInit (some 0xFFFF800000000000) default)
      sleepAndExit).isSome = true by decide)
  rw [bothStopped, hs]
  exact task_table default (by decide) (EventMachine.Run.of_exec hs)

end KiOS
