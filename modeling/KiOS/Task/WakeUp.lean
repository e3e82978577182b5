import KiOS.Cpu.IrqDispatch
import KiOS.Task.RoundRobin

/-!
How long a waiting task waits on the running kernel, in ticks of its timer.

* `Task.due`: the tick from which on a task may run; `Sched.Waits`: it is ready or asleep, and
  another task runs;
* `StillWaits`: the events up to its turn, with no task created;
* `switch_waits`: a switch selects the task if it is due and nobody comes before, and no switch
  selects it earlier;
* `InTime`: what the timer, the interrupts and the scheduler owe it together;
* `wake_up`: in every run they do: not before it is due, and ten ticks for each other task later at
  the latest.
-/

namespace KiOS

/-- The tick from which on a task may run. -/
def Task.due (task : Task) : ℕ := if task.state = .sleeping then task.sleepUntil.toNat else 0

/-- A task waits: it is ready or asleep, and another one has the processor. -/
structure Sched.Waits (s : Sched) (t : Ptr) : Prop where
  mem : t ∈ s.taskList
  not_current : s.currentTask ≠ some t
  pid : (s.tcb t).pid ≠ 0
  state : (s.tcb t).state = .ready ∨ (s.tcb t).state = .sleeping

/-- A task is created. -/
def IrqEvent.Creates : IrqEvent → Prop
  | .task (.create ..) => True
  | _ => False

/-- It is not the turn of the task yet, and none is created. -/
def StillWaits (t : Ptr) (s : IrqState) (e : IrqEvent) : Prop :=
  s.tasks.sched.currentTask ≠ some t ∧ ¬ e.Creates

/-- What the kernel owes to a task that waits since tick `now` and is due at `due`, with `count`
tasks in the table: it does not get its turn earlier, and it is its turn before the ticks go on
beyond that. -/
structure InTime (t : Ptr) (now due count : ℕ) (s : IrqState) : Prop where
  not_early : s.tasks.sched.currentTask = some t → due ≤ s.tasks.sched.pitTicks.toNat
  not_late : s.tasks.sched.pitTicks.toNat ≤ max now due + 10 * (count - 1)

/-! ### One switch -/

variable {s : Sched} {cur t u regs : Ptr} {list : List Ptr} {task : Task} {now : ℕ}

/-- A waiting task that is due is eligible. -/
lemma Sched.Waits.eligible_iff (h : s.Waits t) :
    s.Eligible t ↔ (s.tcb t).due ≤ s.pitTicks.toNat := by
  rw [Sched.Eligible, Task.due]
  rcases h.state with hready | hsleep
  · rw [if_neg (by rw [hready]; decide)]
    exact iff_of_true ⟨h.pid, Or.inl hready⟩ (Nat.zero_le _)
  · rw [if_pos hsleep, ← BitVec.le_def]
    constructor
    · rintro ⟨-, hready | ⟨-, hle⟩⟩
      · rw [hsleep] at hready
        cases hready
      · exact hle
    · exact fun hle => ⟨h.pid, Or.inr ⟨hsleep, hle⟩⟩

/-- **A switch** selects some task, the waiting one only if it is due, and comes closer to it
then. -/
lemma switch_waits (hnodup : s.taskList.Nodup) (hcur : s.currentTask = some cur)
    (hmem : cur ∈ s.taskList) (h : s.Waits t) (regs : Ptr) :
    ∃ u ∈ s.taskList, (taskSwitch regs s).2.currentTask = some u
      ∧ (taskSwitch regs s).2.taskList = s.taskList
      ∧ (taskSwitch regs s).2.pitTicks = s.pitTicks
      ∧ (u ≠ t → (taskSwitch regs s).2.tcb t = s.tcb t)
      ∧ (u = t → s.Eligible t)
      ∧ (s.Eligible t → tableDist s.taskList u t < tableDist s.taskList cur t) := by
  have hne : cur ≠ t := by
    rintro rfl
    exact h.not_current hcur
  have hsaved : (s.saved regs).tcb t = s.tcb t := Sched.saved_tcb_ne h.not_current
  have helig : (s.saved regs).Eligible t ↔ s.Eligible t := by
    rw [Sched.Eligible, Sched.Eligible, hsaved, Sched.saved_pitTicks]
  have hlist : (s.saved regs).taskList = s.taskList := Sched.saved_taskList
  have hcur' : (s.saved regs).currentTask = some cur := Sched.saved_currentTask.trans hcur
  cases hsel : (s.saved regs).selected with
  | none =>
      have hnil : s.taskList ≠ [] := List.ne_nil_of_mem hmem
      have hno : ¬ s.Eligible t := fun hel =>
        Sched.selected_eq_none.mp hsel t (hlist.symm ▸ h.mem) (helig.mpr hel)
      rw [taskSwitch_none hsel, hcur]
      dsimp only
      rw [if_neg hnil]
      refine ⟨cur, hmem, hcur', hlist, Sched.saved_pitTicks, fun _ => ?_, fun heq => absurd heq hne,
        fun hel => absurd hel hno⟩
      rw [Sched.setState_tcb_ne _ hne.symm, hsaved]
  | some u =>
      obtain ⟨hu, huel⟩ := Sched.selected_some hsel
      rw [hlist] at hu
      rw [taskSwitch_found hsel]
      refine ⟨u, hu, rfl, hlist, Sched.saved_pitTicks, fun hut => ?_, ?_, fun hel => ?_⟩
      · exact (Sched.setState_tcb_ne _ (Ne.symm hut)).trans hsaved
      · rintro rfl
        exact helig.mp huel
      · have hcloser := selected_closer (s := s.saved regs) (by rwa [hlist]) hcur'
          (by rwa [hlist]) (by rw [hlist]; exact h.mem) hne (helig.mpr hel) hsel
        rwa [hlist] at hcloser

/-- A call of the running task is about itself. -/
lemma taskSleep_rest (ticks : BitVec 64) (s : Sched) :
    (taskSleep ticks s).taskList = s.taskList ∧ (taskSleep ticks s).currentTask = s.currentTask
      ∧ (taskSleep ticks s).pitTicks = s.pitTicks
      ∧ ∀ t, s.currentTask ≠ some t → (taskSleep ticks s).tcb t = s.tcb t := by
  cases hc : s.currentTask with
  | none => simp [taskSleep, hc]
  | some c =>
      simp only [taskSleep, hc]
      refine ⟨trivial, trivial, trivial, fun t ht => Function.update_of_ne ?_ ..⟩
      rintro rfl
      exact ht rfl

lemma taskExit_rest (s : Sched) :
    (taskExit s).taskList = s.taskList ∧ (taskExit s).currentTask = s.currentTask
      ∧ (taskExit s).pitTicks = s.pitTicks
      ∧ ∀ t, s.currentTask ≠ some t → (taskExit s).tcb t = s.tcb t := by
  cases hc : s.currentTask with
  | none => simp [taskExit, hc]
  | some c =>
      simp only [taskExit, hc]
      refine ⟨rfl, hc, rfl, fun t ht => Sched.setState_tcb_ne _ ?_⟩
      rintro rfl
      exact ht rfl

/-! ### Runs -/

/-- What an interrupt does to the scheduler. -/
lemma IrqModel.interrupt_tasks (a : IrqModel) (regs : Ptr) (scancode : BitVec 8) :
    (a.interrupt regs scancode).2.tasks
      = if a.timerOn = true ∧ a.timer = true then
          if a.tasks.tick.sched.pitTicks.toNat % 10 = 0 then a.tasks.tick.switch regs
          else a.tasks.tick
        else a.tasks := by
  rw [interrupt]
  split_ifs with htimer htenth
  · rw [tick]
    dsimp only
    rw [if_pos htenth]
  · rw [tick]
    dsimp only
    rw [if_neg htenth]
  · rfl
  · rfl

/-- The invariant of a run with the table `list`, for a task that had the block `task` at tick
`now`. Either the task still waits, and the other tasks before it are not more than the tenth ticks
left, or it is its turn. -/
structure WakeInv (list : List Ptr) (t : Ptr) (task : Task) (now : ℕ) (s : IrqState) : Prop where
  refines : ∃ a, IrqRefines s a
  taskList : s.tasks.sched.taskList = list
  now_le : now ≤ s.tasks.sched.pitTicks.toNat
  turn : (s.tasks.sched.Waits t ∧ s.tasks.sched.tcb t = task
      ∧ ∃ c ∈ list, s.tasks.sched.currentTask = some c
        ∧ tableDist list c t + (s.tasks.sched.pitTicks.toNat / 10 - max now (task.due - 1) / 10)
          < list.length)
    ∨ (s.tasks.sched.currentTask = some t ∧ task.due ≤ s.tasks.sched.pitTicks.toNat
      ∧ s.tasks.sched.pitTicks.toNat ≤ max now task.due + 10 * (list.length - 1))

namespace WakeInv

variable {s u : IrqState} {e : IrqEvent}

/-- Nothing changes for the scheduler. -/
lemma of_tasks (h : WakeInv list t task now s) (hrel : ∃ a, IrqRefines u a)
    (htasks : u.tasks = s.tasks) : WakeInv list t task now u := by
  obtain ⟨-, hlist, hnow, hturn⟩ := h
  exact ⟨hrel, htasks ▸ hlist, htasks ▸ hnow, htasks ▸ hturn⟩

/-- The running task changes itself. -/
lemma of_current (h : WakeInv list t task now s) (hwait : s.tasks.sched.currentTask ≠ some t)
    (hrel : ∃ a, IrqRefines u a) (hlist : u.tasks.sched.taskList = s.tasks.sched.taskList)
    (hcur : u.tasks.sched.currentTask = s.tasks.sched.currentTask)
    (hpit : u.tasks.sched.pitTicks = s.tasks.sched.pitTicks)
    (htcb : u.tasks.sched.tcb t = s.tasks.sched.tcb t) : WakeInv list t task now u := by
  rcases h.turn with ⟨hwaits, htask, c, hc, hcurrent, hdist⟩ | ⟨hcurrent, -⟩
  · refine ⟨hrel, hlist.trans h.taskList, hpit ▸ h.now_le, Or.inl ⟨?_, htcb.trans htask, c, hc,
      hcur.trans hcurrent, hpit ▸ hdist⟩⟩
    exact ⟨hlist ▸ hwaits.mem, hcur ▸ hwaits.not_current, htcb ▸ hwaits.pid, htcb ▸ hwaits.state⟩
  · exact absurd hcurrent hwait

/-- The distance to another task of the table. -/
lemma dist_pos {c : Ptr} (hc : c ∈ list) (hwaits : s.tasks.sched.Waits t)
    (hlist : s.tasks.sched.taskList = list) (hcurrent : s.tasks.sched.currentTask = some c) :
    0 < tableDist list c t := by
  refine tableDist_pos hc (hlist ▸ hwaits.mem) ?_
  rintro rfl
  exact hwaits.not_current hcurrent

lemma toNat_tick {tasks : SchedRun} (hwrap : tasks.sched.pitTicks.toNat + 1 < 2 ^ 64) :
    tasks.tick.sched.pitTicks.toNat = tasks.sched.pitTicks.toNat + 1 := by
  have hadd : tasks.tick.sched.pitTicks.toNat = (tasks.sched.pitTicks.toNat + 1) % 2 ^ 64 :=
    BitVec.toNat_add _ _
  rw [hadd, Nat.mod_eq_of_lt hwrap]

/-- A tick that is no tenth one. -/
lemma tick (h : WakeInv list t task now s) (hwait : s.tasks.sched.currentTask ≠ some t)
    (hrel : ∃ a, IrqRefines u a) (hwrap : s.tasks.sched.pitTicks.toNat + 1 < 2 ^ 64)
    (htasks : u.tasks = s.tasks.tick) (hmod : s.tasks.tick.sched.pitTicks.toNat % 10 ≠ 0) :
    WakeInv list t task now u := by
  have hpit := toNat_tick hwrap
  rcases h.turn with ⟨hwaits, htask, c, hc, hcurrent, hdist⟩ | ⟨hcurrent, -⟩
  · refine ⟨hrel, htasks ▸ h.taskList, ?_, Or.inl ⟨?_, htasks ▸ htask, c, hc,
      htasks ▸ hcurrent, ?_⟩⟩
    · rw [htasks, hpit]
      exact h.now_le.trans (Nat.le_succ _)
    · rw [htasks]
      exact ⟨hwaits.mem, hwaits.not_current, hwaits.pid, hwaits.state⟩
    · have hsame : (s.tasks.sched.pitTicks.toNat + 1) / 10 = s.tasks.sched.pitTicks.toNat / 10 := by
        rw [hpit] at hmod
        omega
      rw [htasks, hpit, hsame]
      exact hdist
  · exact absurd hcurrent hwait

/-- **A tenth tick**: the task is due and somebody comes before it, or it is not due yet, or it is
its turn. -/
lemma switch (hnodup : list.Nodup) (h : WakeInv list t task now s)
    (hwait : s.tasks.sched.currentTask ≠ some t) (hrel : ∃ a, IrqRefines u a)
    (hwrap : s.tasks.sched.pitTicks.toNat + 1 < 2 ^ 64) {regs : Ptr}
    (htasks : u.tasks = s.tasks.tick.switch regs)
    (hmod : s.tasks.tick.sched.pitTicks.toNat % 10 = 0) : WakeInv list t task now u := by
  have hpit := toNat_tick hwrap
  have hnow := h.now_le
  rcases h.turn with ⟨hwaits, htask, c, hc, hcurrent, hdist⟩ | ⟨hcurrent, -⟩
  · have hpos := dist_pos hc hwaits h.taskList hcurrent
    have htick : s.tasks.tick.sched.Waits t :=
      ⟨hwaits.mem, hwaits.not_current, hwaits.pid, hwaits.state⟩
    have hlist : s.tasks.tick.sched.taskList = list := h.taskList
    have hdue := htick.eligible_iff
    have htask' : s.tasks.tick.sched.tcb t = task := htask
    obtain ⟨v, hv, hcur', hlist', hpit', hsame, helig, hcloser⟩ :=
      switch_waits (s := s.tasks.tick.sched) (hlist.symm ▸ hnodup) hcurrent (hlist.symm ▸ hc) htick
        regs
    rw [htask', hpit] at hdue
    rw [hlist] at hv hlist' hcloser
    have hsched : u.tasks.sched = (taskSwitch regs s.tasks.tick.sched).2 := by
      rw [htasks]
      rfl
    have hnow' : now ≤ u.tasks.sched.pitTicks.toNat := by
      rw [hsched, hpit', hpit]
      omega
    rw [hpit] at hmod
    refine ⟨hrel, hsched ▸ hlist', hnow', ?_⟩
    rw [hsched, hpit', hpit]
    by_cases hvt : v = t
    · subst hvt
      refine Or.inr ⟨hcur', hdue.mp (helig rfl), ?_⟩
      have hbase := Nat.div_mul_le_self (max now (task.due - 1)) 10
      have hle : max now (task.due - 1) ≤ max now task.due := max_le_max le_rfl (Nat.sub_le _ _)
      omega
    · refine Or.inl ⟨?_, (hsame hvt).trans htask', v, hv, hcur', ?_⟩
      · refine ⟨?_, ?_, ?_, ?_⟩
        · rw [hlist', ← h.taskList]
          exact hwaits.mem
        · rw [hcur']
          exact fun heq => hvt (Option.some_inj.mp heq)
        · rw [hsame hvt]
          exact hwaits.pid
        · rw [hsame hvt]
          exact hwaits.state
      · by_cases hel : s.tasks.tick.sched.Eligible t
        · have hlt := hcloser hel
          omega
        · -- not due yet: the tenth ticks do not count
          have hlate := mt hdue.mpr hel
          have hdist' : tableDist list v t < list.length :=
            cyclicDist_lt (List.idxOf_lt_length_iff.mpr hv)
          have hbase : s.tasks.sched.pitTicks.toNat + 1 ≤ max now (task.due - 1) :=
            le_max_of_le_right (by omega)
          omega
  · exact absurd hcurrent hwait

lemma step (hnodup : list.Nodup) (h : WakeInv list t task now s)
    (hadm : (irqMachine.restrict (StillWaits t)).admissible s e)
    (hst : irqMachine.step s e = some u) : WakeInv list t task now u := by
  obtain ⟨hadm, hwait, hcreate⟩ := hadm
  obtain ⟨a, ha⟩ := h.refines
  obtain ⟨b, -, hmodel, hb⟩ := ha.step hadm hst
  cases e with
  | raise line => exact h.of_tasks ⟨b, hb⟩ (Option.some.inj hst ▸ rfl)
  | withdraw line => exact h.of_tasks ⟨b, hb⟩ (Option.some.inj hst ▸ rfl)
  | unmaskTimer => exact h.of_tasks ⟨b, hb⟩ (Option.some.inj hst ▸ rfl)
  | interrupt held regs scancode =>
      obtain rfl := Option.some.inj hmodel
      have htasks := hb.tasks.trans (a.interrupt_tasks regs scancode)
      rw [← ha.tasks] at htasks
      split_ifs at htasks with htimer htenth
      · exact h.switch hnodup hwait ⟨_, hb⟩ hadm htasks htenth
      · exact h.tick hwait ⟨_, hb⟩ hadm htasks htenth
      · exact h.of_tasks ⟨_, hb⟩ htasks
  | task e =>
      obtain ⟨tasks, htasks, rfl⟩ := Option.map_eq_some_iff.mp hst
      cases e with
      | create => exact absurd trivial hcreate
      | sleep ticks =>
          obtain rfl := Option.some.inj htasks
          obtain ⟨hlist, hcur, hpit, htcb⟩ := taskSleep_rest ticks s.tasks.sched
          exact h.of_current hwait ⟨b, hb⟩ hlist hcur hpit (htcb t hwait)
      | exit =>
          obtain rfl := Option.some.inj htasks
          obtain ⟨hlist, hcur, hpit, htcb⟩ := taskExit_rest s.tasks.sched
          exact h.of_current hwait ⟨b, hb⟩ hlist hcur hpit (htcb t hwait)
      | switch regs => exact absurd hadm.1 id
      | tick => exact absurd hadm.1 id
  | input e =>
      obtain ⟨input, -, rfl⟩ := Option.map_eq_some_iff.mp hst
      exact h.of_tasks ⟨b, hb⟩ rfl

/-- What the invariant says. -/
lemma inTime (h : WakeInv list t task now s) : InTime t now task.due list.length s := by
  rcases h.turn with ⟨hwaits, -, c, hc, hcurrent, hdist⟩ | ⟨-, hdue, hle⟩
  · refine ⟨fun heq => absurd heq hwaits.not_current, ?_⟩
    have hpos := dist_pos hc hwaits h.taskList hcurrent
    have hbase := Nat.div_mul_le_self (max now (task.due - 1)) 10
    have hle : max now (task.due - 1) ≤ max now task.due := max_le_max le_rfl (Nat.sub_le _ _)
    omega
  · exact ⟨fun _ => hdue, hle⟩

end WakeInv

/-- No task stands in the table twice. -/
structure TableDistinct (s : SchedRun) : Prop where
  inv : s.Inv
  nodup : s.sched.taskList.Nodup

namespace TableDistinct

variable {s u : SchedRun} {e : SchedEvent}

lemma boot (s₀ : Sched) (kernelTask : Option Ptr) : TableDistinct (bootTasks s₀ kernelTask) := by
  refine ⟨SchedRun.Inv.init kernelTask _, ?_⟩
  cases kernelTask with
  | none => exact List.nodup_nil
  | some task => exact List.nodup_singleton task

lemma step (h : TableDistinct s) (hadm : schedMachine.admissible s e)
    (hst : schedMachine.step s e = some u) : TableDistinct u := by
  refine ⟨h.inv.step hadm hst, ?_⟩
  cases e with
  | create name entry stackSize task stack =>
      obtain rfl := Option.some.inj hst
      rcases s.create_cases name entry stackSize task stack with
        ⟨blocks, heq⟩ | ⟨t, p, rfl, -, heq⟩ <;> rw [heq]
      · exact h.nodup
      · rw [← List.concat_eq_append]
        exact h.nodup.concat (h.inv.fresh_not_mem hadm.1)
  | sleep ticks =>
      obtain rfl := Option.some.inj hst
      exact (taskSleep_rest ticks s.sched).1.symm ▸ h.nodup
  | exit =>
      obtain rfl := Option.some.inj hst
      exact (taskExit_rest s.sched).1.symm ▸ h.nodup
  | switch regs =>
      obtain rfl := Option.some.inj hst
      exact (switch_taskList s regs).symm ▸ h.nodup
  | tick =>
      obtain rfl := Option.some.inj hst
      exact h.nodup

end TableDistinct

/-- **A waiting task wakes up in time**: whatever has happened on the kernel before, and in
whatever order the devices, the interrupts and the running code go on, a task that waits is not
resumed before it is due, and `pit_ticks` does not get further beyond that than ten ticks for each
other task before it is its turn. -/
theorem wake_up (p : Pics) (b : KbBuffer) (s₀ : Sched) (kernelTask : Option Ptr)
    (shellTask : BitVec 64) (task stack : Option Ptr)
    (hfresh : schedMachine.admissible (bootTasks s₀ kernelTask)
      (.create "shell".toList shellTask 16384 task stack))
    {es : List IrqEvent} {s : IrqState}
    (hboot : irqMachine.Run (kernelMain p b (kernelTasks s₀ kernelTask shellTask task stack)) es s)
    {t : Ptr} (hwaits : s.tasks.sched.Waits t) {es' : List IrqEvent} {u : IrqState}
    (hrun : (irqMachine.restrict (StillWaits t)).Run s es' u) :
    InTime t s.tasks.sched.pitTicks.toNat (s.tasks.sched.tcb t).due s.tasks.sched.taskList.length
      u := by
  obtain ⟨a, ha, hinv, -⟩ := kernel_inv p b hboot
  have htable : TableDistinct s.tasks := by
    rw [ha.tasks]
    exact EventMachine.Run.invariant (TableDistinct.boot s₀ kernelTask)
      (fun _ _ _ h hadm hst => h.step hadm hst) (.cons hfresh rfl hinv.tasks)
  obtain ⟨c, hcurrent⟩ : ∃ c, s.tasks.sched.currentTask = some c := by
    refine Option.ne_none_iff_exists'.mp fun hnone => ?_
    have hmem := hwaits.mem
    rw [htable.inv.current_none hnone] at hmem
    cases hmem
  have hc := htable.inv.current_mem c hcurrent
  have hstart : WakeInv s.tasks.sched.taskList t (s.tasks.sched.tcb t)
      s.tasks.sched.pitTicks.toNat s := by
    refine ⟨⟨a, ha⟩, rfl, le_rfl, Or.inl ⟨hwaits, rfl, c, hc, hcurrent, ?_⟩⟩
    have hdist : tableDist s.tasks.sched.taskList c t < s.tasks.sched.taskList.length :=
      cyclicDist_lt (List.idxOf_lt_length_iff.mpr hc)
    have hnone : s.tasks.sched.pitTicks.toNat / 10
        ≤ max s.tasks.sched.pitTicks.toNat ((s.tasks.sched.tcb t).due - 1) / 10 :=
      Nat.div_le_div_right (le_max_left _ _)
    omega
  exact (EventMachine.Run.invariant hstart
    (fun _ _ _ h hadm hst => h.step htable.nodup hadm hst) hrun).inTime

instance (s : IrqState) (t : Ptr) : (e : IrqEvent) → Decidable (StillWaits t s e)
  | .task (.create ..) => isFalse fun h => h.2 trivial
  | .raise _ => decidable_of_iff (s.tasks.sched.currentTask ≠ some t) (and_iff_left id).symm
  | .withdraw _ => decidable_of_iff (s.tasks.sched.currentTask ≠ some t) (and_iff_left id).symm
  | .unmaskTimer => decidable_of_iff (s.tasks.sched.currentTask ≠ some t) (and_iff_left id).symm
  | .interrupt .. => decidable_of_iff (s.tasks.sched.currentTask ≠ some t) (and_iff_left id).symm
  | .input _ => decidable_of_iff (s.tasks.sched.currentTask ≠ some t) (and_iff_left id).symm
  | .task (.sleep _) => decidable_of_iff (s.tasks.sched.currentTask ≠ some t) (and_iff_left id).symm
  | .task .exit => decidable_of_iff (s.tasks.sched.currentTask ≠ some t) (and_iff_left id).symm
  | .task (.switch _) => decidable_of_iff (s.tasks.sched.currentTask ≠ some t)
      (and_iff_left id).symm
  | .task .tick => decidable_of_iff (s.tasks.sched.currentTask ≠ some t) (and_iff_left id).symm

/-- The shell, which was ready from the start, still waits after the first tick. -/
theorem wake_up_shell : InTime 0xFFFF800000000050 0 0 2 afterKey := by
  have hrun : (irqMachine.restrict (StillWaits 0xFFFF800000000050)).Run
      shellIrqs keyAndTick afterKey :=
    EventMachine.Run.of_isSome (by decide)
  have hwaits : shellIrqs.tasks.sched.Waits 0xFFFF800000000050 :=
    ⟨by decide, by decide, by decide, Or.inl rfl⟩
  exact wake_up foundPics ⟨fun _ => 0, 0, 0⟩ default _ _ _ _ (by decide) .nil hwaits hrun

end KiOS
