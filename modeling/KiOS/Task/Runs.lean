import KiOS.Task.Scheduler
import KiOS.Mm.Heap

/-!
Runs of the scheduler, with what its callers know of them.

* `SchedRun`: the scheduler with ghosts beside it: the blocks `kmalloc` has returned, the frame
  each task was last switched away with, the tasks that have never run, the last `task_sleep`
  of each task and the tasks that called `task_exit`;
* `schedMachine`: any order of `task_create`, `task_sleep`, `task_exit`, `task_switch` and timer
  ticks, where `kmalloc` returns NULL or fresh memory and `pit_ticks` does not wrap;
* `StackFits`: the initial frame of every task created fits into its own stack;
* `SchedRun.Inv`: the entries are blocks of their own, the current task is one of them and is
  running, asleep or a zombie.
-/

namespace KiOS

/-- The block behind a pointer, if it is not NULL. -/
def blockOf (p : Option Ptr) (size : BitVec 64) : List Block := p.toList.map fun p => ⟨p, size⟩

/-- The scheduler with what its callers know of the run. -/
structure SchedRun where
  sched : Sched
  /-- The blocks `kmalloc` has returned. -/
  blocks : List Block
  /-- The frame a task was last switched away with, at first the one `task_create` built. -/
  context : Ptr → Ptr
  /-- The entry point of a task that has never run. -/
  unstarted : Ptr → Option (BitVec 64)
  /-- The ticks at the last `task_sleep` of a task and the ticks it asked for. -/
  asleep : Ptr → ℕ × ℕ
  /-- The tasks that called `task_exit`. -/
  exited : Ptr → Bool

inductive SchedEvent where
  | create (name : List Char) (entry stackSize : BitVec 64) (task stack : Option Ptr)
  | sleep (ticks : BitVec 64)
  | exit
  | switch (currentRegs : Ptr)
  | tick

namespace SchedRun

/-- After `task_init`. -/
def init (kernelTask : Option Ptr) (s : Sched) : SchedRun where
  sched := taskInit kernelTask s
  blocks := blockOf kernelTask sizeofTask
  context := fun _ => 0
  unstarted := fun _ => none
  asleep := fun _ => (0, 0)
  exited := fun _ => false

/-- `task_create`, with the blocks its calls of `kmalloc` returned. -/
def create (s : SchedRun) (name : List Char) (entry stackSize : BitVec 64)
    (task stack : Option Ptr) : SchedRun :=
  let r := taskCreate name entry stackSize task stack s.sched
  { s with
    sched := r.2
    blocks :=
      if maxTasks ≤ s.sched.taskList.length then s.blocks
      else if task = none then s.blocks
      else s.blocks ++ blockOf task sizeofTask ++ blockOf stack stackSize
    context :=
      match r.1, stack with
      | some t, some stack => Function.update s.context t (stackFrame stack stackSize)
      | _, _ => s.context
    unstarted :=
      match r.1 with
      | some t => Function.update s.unstarted t
          (if r.2.currentTask = some t then none else some entry)
      | none => s.unstarted }

/-- `task_sleep`. -/
def sleep (s : SchedRun) (ticks : BitVec 64) : SchedRun :=
  { s with
    sched := taskSleep ticks s.sched
    asleep :=
      match s.sched.currentTask with
      | some t => Function.update s.asleep t (s.sched.pitTicks.toNat, ticks.toNat)
      | none => s.asleep }

/-- `task_exit`. -/
def exit (s : SchedRun) : SchedRun :=
  { s with
    sched := taskExit s.sched
    exited :=
      match s.sched.currentTask with
      | some t => Function.update s.exited t true
      | none => s.exited }

/-- `task_switch`: a task that stops being the current one was switched away with `currentRegs`. -/
def switch (s : SchedRun) (currentRegs : Ptr) : SchedRun :=
  let r := taskSwitch currentRegs s.sched
  { s with
    sched := r.2
    context :=
      match s.sched.currentTask with
      | some t => if r.2.currentTask = some t then s.context
          else Function.update s.context t currentRegs
      | none => s.context
    unstarted :=
      match r.2.currentTask with
      | some t => Function.update s.unstarted t none
      | none => s.unstarted }

/-- `pit_ticks++`. -/
def tick (s : SchedRun) : SchedRun :=
  { s with sched := { s.sched with pitTicks := s.sched.pitTicks + 1 } }

end SchedRun

/-- Runs of the scheduler. -/
def schedMachine : EventMachine SchedRun SchedEvent where
  admissible s
    | .create _ _ stackSize task stack =>
        Fresh s.blocks sizeofTask task ∧
          Fresh (s.blocks ++ blockOf task sizeofTask) stackSize stack
    | .tick => s.sched.pitTicks.toNat + 1 < 2 ^ 64
    | _ => True
  step s
    | .create name entry stackSize task stack =>
        some (s.create name entry stackSize task stack)
    | .sleep ticks => some (s.sleep ticks)
    | .exit => some s.exit
    | .switch currentRegs => some (s.switch currentRegs)
    | .tick => some s.tick

/-- The initial frame of the task fits into its stack. -/
def StackFits : SchedEvent → Prop
  | .create _ _ stackSize _ _ => sizeofRegisters ≤ stackSize
  | _ => True

/-- Deciding a statement about the task a pointer leads to, if it is not NULL. -/
def decidableSome (o : Option Ptr) (p : Ptr → Prop) [DecidablePred p] :
    Decidable (∀ t, o = some t → p t) :=
  match o with
  | none => isTrue fun _ h => nomatch h
  | some t => decidable_of_iff (p t) ⟨fun h _ ht => Option.some.inj ht ▸ h, fun h => h t rfl⟩

instance (s : SchedRun) : (e : SchedEvent) → Decidable (schedMachine.admissible s e)
  | .create .. => inferInstanceAs (Decidable (_ ∧ _))
  | .tick => inferInstanceAs (Decidable (_ < _))
  | .sleep _ => inferInstanceAs (Decidable True)
  | .exit => inferInstanceAs (Decidable True)
  | .switch _ => inferInstanceAs (Decidable True)

instance : DecidablePred StackFits
  | .create .. => inferInstanceAs (Decidable (_ ≤ _))
  | .sleep _ => inferInstanceAs (Decidable True)
  | .exit => inferInstanceAs (Decidable True)
  | .switch _ => inferInstanceAs (Decidable True)
  | .tick => inferInstanceAs (Decidable True)

/-! ### Creating a task -/

/-- What `task_create` does to a run: nothing but taking the block of a task whose stack could
not be had, or a new entry with a frame of its own. -/
lemma SchedRun.create_cases (s : SchedRun) (name : List Char) (entry stackSize : BitVec 64)
    (task stack : Option Ptr) :
    (∃ blocks, s.create name entry stackSize task stack = { s with blocks := s.blocks ++ blocks })
    ∨ ∃ t p, task = some t ∧ stack = some p ∧
        s.create name entry stackSize task stack =
          { s with
            sched :=
              { s.sched with
                tcb := Function.update s.sched.tcb t
                  { pid := s.sched.nextPid, name := strncpy name taskNameMax,
                    state := if s.sched.currentTask = none then .running else .ready,
                    regs := stackFrame p stackSize, stackBase := p, stackSize := stackSize,
                    sleepUntil := 0, next := none }
                frame := Function.update s.sched.frame (stackFrame p stackSize)
                  (initialRegisters entry (stackFrame p stackSize))
                nextPid := s.sched.nextPid + 1
                taskList := s.sched.taskList ++ [t]
                currentTask := s.sched.currentTask.or (some t) }
            blocks := s.blocks ++ [⟨t, sizeofTask⟩, ⟨p, stackSize⟩]
            context := Function.update s.context t (stackFrame p stackSize)
            unstarted := Function.update s.unstarted t
              (if s.sched.currentTask.or (some t) = some t then none else some entry) } := by
  unfold SchedRun.create taskCreate
  by_cases hmax : maxTasks ≤ s.sched.taskList.length
  · exact Or.inl ⟨[], by simp [hmax]⟩
  · rcases task with _ | t
    · exact Or.inl ⟨[], by simp [hmax]⟩
    · rcases stack with _ | p
      · exact Or.inl ⟨[⟨t, sizeofTask⟩], by simp [hmax, blockOf]⟩
      · refine Or.inr ⟨t, p, rfl, rfl, ?_⟩
        cases hc : s.sched.currentTask <;> simp [hmax, blockOf]

/-- Where the frame is, with the sums modulo `2^64`. -/
lemma toNat_stackFrame (p stackSize : BitVec 64) : (stackFrame p stackSize).toNat
    = (2 ^ 64 - 208 + (p.toNat + stackSize.toNat) % 2 ^ 64 / 16 * 16) % 2 ^ 64 := by
  have htop : ((p + stackSize) &&& ~~~(0xF : BitVec 64)).toNat
      = (p.toNat + stackSize.toNat) % 2 ^ 64 / 16 * 16 := by
    rw [show (p + stackSize) &&& ~~~(0xF : BitVec 64) = (p + stackSize).alignDown 4 from rfl,
      BitVec.toNat_alignDown, BitVec.toNat_add]
    norm_num
  rw [stackFrame, BitVec.toNat_sub, htop]
  rfl

/-- A frame that fits lies inside its stack. -/
lemma stackFrame_mem {p stackSize : BitVec 64} (hal : p.toNat % 16 = 0)
    (hwrap : p.toNat + stackSize.toNat ≤ 2 ^ 64) (hfit : sizeofRegisters ≤ stackSize) :
    p.toNat ≤ (stackFrame p stackSize).toNat
      ∧ (stackFrame p stackSize).toNat + 208 ≤ p.toNat + stackSize.toNat := by
  have hfit' : 208 ≤ stackSize.toNat := hfit
  have hsub := toNat_stackFrame p stackSize
  omega

/-! ### The invariant -/

/-- The entries are blocks of their own and the current task is one of them. -/
structure SchedRun.Inv (s : SchedRun) : Prop where
  entry_block : ∀ t ∈ s.sched.taskList, ⟨t, sizeofTask⟩ ∈ s.blocks
  current_mem : ∀ t, s.sched.currentTask = some t → t ∈ s.sched.taskList
  current_none : s.sched.currentTask = none → s.sched.taskList = []
  current_state : ∀ t, s.sched.currentTask = some t →
    (s.sched.tcb t).state = .running ∨ (s.sched.tcb t).state = .sleeping
      ∨ (s.sched.tcb t).state = .zombie

/-- A switch keeps the table. -/
lemma switch_taskList (s : SchedRun) (regs : Ptr) :
    (s.switch regs).sched.taskList = s.sched.taskList := by
  cases hsel : (s.sched.saved regs).selected with
  | some t => simp [SchedRun.switch, taskSwitch_found hsel]
  | none =>
      simp only [SchedRun.switch, taskSwitch_none hsel]
      cases s.sched.currentTask with
      | none => rfl
      | some c => dsimp only; split_ifs <;> simp

namespace SchedRun.Inv

variable {s u : SchedRun} {e : SchedEvent}

lemma init (kernelTask : Option Ptr) (s₀ : Sched) : (SchedRun.init kernelTask s₀).Inv := by
  rcases kernelTask with _ | t <;>
    refine ⟨?_, ?_, ?_, ?_⟩ <;> simp [SchedRun.init, taskInit, blockOf]

/-- A fresh block is not the block of an entry. -/
lemma fresh_not_mem (h : s.Inv) {t : Ptr} (hf : Fresh s.blocks sizeofTask (some t)) :
    t ∉ s.sched.taskList := by
  intro hmem
  obtain ⟨-, -, -, hdis⟩ := hf
  have hsz : sizeofTask.toNat = 80 := rfl
  rcases hdis _ (h.entry_block t hmem) with hd | hd <;> dsimp only at hd <;> omega

lemma create (name : List Char) (entry stackSize : BitVec 64) {task : Option Ptr}
    (stack : Option Ptr) (h : s.Inv) (hf : Fresh s.blocks sizeofTask task) :
    (s.create name entry stackSize task stack).Inv := by
  rcases s.create_cases name entry stackSize task stack with
    ⟨blocks, heq⟩ | ⟨t, p, rfl, rfl, heq⟩ <;> rw [heq]
  · exact ⟨fun t ht => List.mem_append_left _ (h.entry_block t ht), h.current_mem,
      h.current_none, h.current_state⟩
  · have hnew := h.fresh_not_mem hf
    refine ⟨fun t' ht' => ?_, fun t' ht' => ?_, fun hn => ?_, fun t' ht' => ?_⟩
    · rcases List.mem_append.mp ht' with ht' | ht'
      · exact List.mem_append_left _ (h.entry_block t' ht')
      · rw [List.mem_singleton.mp ht']
        simp
    · cases hc : s.sched.currentTask with
      | none => simp_all
      | some c =>
          have hmem := h.current_mem c hc
          simp_all
    · simp at hn
    · cases hc : s.sched.currentTask with
      | none => simp_all
      | some c =>
          have hmem := h.current_mem c hc
          have hst := h.current_state c hc
          have hne : c ≠ t := fun h' => hnew (h' ▸ hmem)
          simp_all

lemma sleep (h : s.Inv) (ticks : BitVec 64) : (s.sleep ticks).Inv := by
  obtain ⟨hb, hm, hn, hst⟩ := h
  unfold SchedRun.sleep taskSleep
  cases hc : s.sched.currentTask with
  | none => exact ⟨hb, hm, hn, hst⟩
  | some c => exact ⟨hb, by simpa [hc] using hm, by simp, by simp⟩

lemma exit (h : s.Inv) : s.exit.Inv := by
  obtain ⟨hb, hm, hn, hst⟩ := h
  unfold SchedRun.exit taskExit
  cases hc : s.sched.currentTask with
  | none => exact ⟨hb, hm, hn, hst⟩
  | some c => exact ⟨hb, by simpa [hc] using hm, by simp [hc], by simp [hc]⟩

lemma switch (h : s.Inv) (regs : Ptr) : (s.switch regs).Inv := by
  unfold SchedRun.switch
  cases hsel : (s.sched.saved regs).selected with
  | some t =>
      have hmem := (Sched.selected_some hsel).1
      rw [Sched.saved_taskList] at hmem
      simp only [taskSwitch_found hsel]
      exact ⟨by simpa using h.entry_block, by simpa using hmem, by simp, by simp⟩
  | none =>
      simp only [taskSwitch_none hsel]
      cases hc : s.sched.currentTask with
      | none => simpa [hc] using h
      | some c =>
          have hmem := h.current_mem c hc
          have hne : s.sched.taskList ≠ [] := List.ne_nil_of_mem hmem
          simp only [hne, if_false]
          exact ⟨by simpa using h.entry_block, by simpa [hc] using hmem, by simp [hc], by simp [hc]⟩

lemma step (h : s.Inv) (hadm : schedMachine.admissible s e)
    (hst : schedMachine.step s e = some u) : u.Inv := by
  cases e <;> simp only [schedMachine, Option.some.injEq] at hst <;> subst hst
  case create => exact h.create _ _ _ _ hadm.1
  case sleep ticks => exact h.sleep ticks
  case exit => exact h.exit
  case switch regs => exact h.switch regs
  case tick => exact ⟨h.entry_block, h.current_mem, h.current_none, h.current_state⟩

end SchedRun.Inv

/-! ### Two tasks -/

/-- Two tasks are created and the first one is switched to. -/
def twoTasks : List SchedEvent :=
  [.create ['A'] 0x101000 0x1000 (some 0xFFFF800000000050) (some 0xFFFF8000000000A0),
    .create ['B'] 0x102000 0x1000 (some 0xFFFF8000000010A0) (some 0xFFFF8000000010F0),
    .switch 0x4FFF00]

/-- The run after `task_init`. -/
def bootRun : SchedRun := SchedRun.init (some 0xFFFF800000000000) default

/-- The state in which the first of the two tasks runs. -/
def firstTask : SchedRun := (schedMachine.exec bootRun twoTasks).getD bootRun

end KiOS
