import KiOS.Library.EventMachine

/-!
The round-robin scheduler of `kernel/task.c`.

* `Task`, `Registers`: the task control block and the register frame of an interrupt;
* `Sched`: the file's variables with the memory its pointers lead to, a task and a frame at
  each address. The records at two addresses are taken to be apart, which holds of blocks
  that `kmalloc` returned and of frames inside their own stacks;
* `taskInit`, `taskCreate`, `taskSwitch`, `taskSleep`, `taskExit`: the source's functions. What
  `kmalloc` returned is an argument, `none` for NULL;
* `Eligible`: the tasks the search of `task_switch` stops at;
* `taskSwitch_found`, `taskSwitch_none`: what a call of `task_switch` does, with one case for
  each way its search can end.
-/

namespace KiOS

/-- A kernel address. -/
abbrev Ptr := BitVec 64

/-- `task_state_t`. -/
inductive TaskState where
  | ready
  | running
  | blocked
  | sleeping
  | zombie
  deriving DecidableEq, Repr, Inhabited

/-- `registers_t`, the frame an interrupt leaves on the stack. -/
structure Registers where
  (gs fs es ds : BitVec 64)
  (r15 r14 r13 r12 r11 r10 r9 r8 : BitVec 64)
  (rbp rdi rsi rdx rcx rbx rax : BitVec 64)
  (int_no err_code : BitVec 64)
  (rip cs rflags rsp ss : BitVec 64)
  deriving DecidableEq, Repr, Inhabited

/-- `sizeof(registers_t)`. -/
def sizeofRegisters : BitVec 64 := 208

/-- `sizeof(task_t)`. -/
def sizeofTask : BitVec 64 := 80

/-- `TASK_NAME_MAX`. -/
def taskNameMax : ℕ := 32

/-- `MAX_TASKS`. -/
def maxTasks : ℕ := 64

/-- `task_t`. -/
structure Task where
  pid : BitVec 32
  name : List Char
  state : TaskState
  /-- The saved frame, `0` for NULL. -/
  regs : Ptr
  stackBase : BitVec 64
  stackSize : BitVec 64
  sleepUntil : BitVec 64
  next : Option Ptr
  deriving DecidableEq, Repr, Inhabited

/-- The variables of `task.c`, the tick count of `pit.c` and the memory behind the pointers. -/
structure Sched where
  tcb : Ptr → Task
  frame : Ptr → Registers
  /-- `task_list[0 .. task_count_val)`. -/
  taskList : List Ptr
  currentTask : Option Ptr
  nextPid : BitVec 32
  pitTicks : BitVec 64
  deriving Inhabited

/-- `strncpy` into a field of `n` characters: cut off, or padded with NUL. -/
def strncpy (src : List Char) (n : ℕ) : List Char :=
  src.take n ++ List.replicate (n - src.length) '\x00'

/-! ### Creating tasks -/

/-- `task_init`, for the block `kmalloc` returns. -/
def taskInit (kernelTask : Option Ptr) (s : Sched) : Sched :=
  let s := { s with taskList := [], currentTask := none, nextPid := 1 }
  match kernelTask with
  | none => s
  | some task =>
      { s with
        tcb := Function.update s.tcb task
          { pid := 0, name := strncpy "kernel_idle".toList taskNameMax, state := .running,
            regs := 0, stackBase := 0, stackSize := 0, sleepUntil := 0, next := none }
        taskList := [task]
        currentTask := some task }

/-- The frame of a new task, at `stackTop`. -/
def initialRegisters (entry stackTop : BitVec 64) : Registers where
  rax := 0
  rbx := 0
  rcx := 0
  rdx := 0
  rsi := 0
  rdi := 0
  rbp := 0
  r8 := 0
  r9 := 0
  r10 := 0
  r11 := 0
  r12 := 0
  r13 := 0
  r14 := 0
  r15 := 0
  rip := entry
  rsp := stackTop
  cs := 0x08
  ds := 0x10
  es := 0x10
  fs := 0x10
  gs := 0x10
  ss := 0x10
  rflags := 0x202
  int_no := 0
  err_code := 0

/-- Where `task_create` puts the frame: under the top of the stack, rounded down to 16. -/
def stackFrame (stack stackSize : BitVec 64) : Ptr :=
  ((stack + stackSize) &&& ~~~(0xF : BitVec 64)) - sizeofRegisters

/-- `task_create`, for the blocks its two calls of `kmalloc` return. -/
def taskCreate (name : List Char) (entry stackSize : BitVec 64) (task stack : Option Ptr)
    (s : Sched) : Option Ptr × Sched :=
  if maxTasks ≤ s.taskList.length then (none, s) else
  match task with
  | none => (none, s)
  | some task =>
    match stack with
    | none => (none, s)
    | some stack =>
      let stackTop := stackFrame stack stackSize
      let s :=
        { s with
          tcb := Function.update s.tcb task
            { pid := s.nextPid, name := strncpy name taskNameMax, state := .ready,
              regs := stackTop, stackBase := stack, stackSize := stackSize, sleepUntil := 0,
              next := none }
          frame := Function.update s.frame stackTop (initialRegisters entry stackTop)
          nextPid := s.nextPid + 1
          taskList := s.taskList ++ [task] }
      match s.currentTask with
      | some _ => (some task, s)
      | none =>
        (some task,
          { s with
            currentTask := some task
            tcb := Function.update s.tcb task { s.tcb task with state := .running } })

/-! ### Switching tasks -/

namespace Sched

/-- `t->state = state`. -/
def setState (s : Sched) (t : Ptr) (state : TaskState) : Sched :=
  { s with tcb := Function.update s.tcb t { s.tcb t with state := state } }

/-- The first part of `task_switch`: a running task is saved and made ready. -/
def saved (s : Sched) (currentRegs : Ptr) : Sched :=
  match s.currentTask with
  | none => s
  | some t =>
      if (s.tcb t).state = .running then
        { s with
          tcb := Function.update s.tcb t { s.tcb t with regs := currentRegs, state := .ready } }
      else s

/-- `start_idx`: the entry after the current task. -/
def startIdx (s : Sched) : ℕ :=
  match s.taskList.findIdx? (fun t => some t == s.currentTask) with
  | some i => (i + 1) % s.taskList.length
  | none => 0

/-- The entries in the order the search visits them. -/
def searchOrder (s : Sched) : List Ptr :=
  (List.range s.taskList.length).filterMap fun i =>
    s.taskList[(s.startIdx + i) % s.taskList.length]?

/-- The search for the next task, over the entries still to visit. It wakes a sleeper. -/
def search (s : Sched) : List Ptr → Option Ptr × Sched
  | [] => (none, s)
  | t :: ts =>
      if (s.tcb t).pid = 0 then s.search ts
      else if (s.tcb t).state = .ready then (some t, s)
      else if (s.tcb t).state = .sleeping then
        if (s.tcb t).sleepUntil ≤ s.pitTicks then (some t, s.setState t .ready)
        else s.search ts
      else s.search ts

end Sched

/-- `task_switch`. -/
def taskSwitch (currentRegs : Ptr) (s : Sched) : Ptr × Sched :=
  if s.taskList.length = 0 then (currentRegs, s) else
  let s := s.saved currentRegs
  match s.search s.searchOrder with
  | (none, s) =>
      match s.currentTask with
      | some t => (currentRegs, s.setState t .running)
      | none => (currentRegs, s)
  | (some t, s) =>
      let s := { s with currentTask := some t }.setState t .running
      ((s.tcb t).regs, s)

/-- `task_sleep`. -/
def taskSleep (ticks : BitVec 64) (s : Sched) : Sched :=
  match s.currentTask with
  | none => s
  | some t =>
      { s with
        tcb := Function.update s.tcb t
          { s.tcb t with state := .sleeping, sleepUntil := s.pitTicks + ticks } }

/-- `task_exit`. -/
def taskExit (s : Sched) : Sched :=
  match s.currentTask with
  | none => s
  | some t => s.setState t .zombie

namespace Sched

variable {s : Sched} {t u : Ptr} {regs : Ptr}

/-! ### State updates -/

@[simp] lemma setState_taskList (st : TaskState) : (s.setState t st).taskList = s.taskList := rfl

@[simp] lemma setState_currentTask (st : TaskState) :
    (s.setState t st).currentTask = s.currentTask := rfl

@[simp] lemma setState_frame (st : TaskState) : (s.setState t st).frame = s.frame := rfl

@[simp] lemma setState_pitTicks (st : TaskState) : (s.setState t st).pitTicks = s.pitTicks := rfl

@[simp] lemma setState_state_self (st : TaskState) : ((s.setState t st).tcb t).state = st := by
  simp [setState]

@[simp] lemma setState_tcb_ne (st : TaskState) (h : u ≠ t) : (s.setState t st).tcb u = s.tcb u := by
  simp [setState, h]

@[simp] lemma setState_regs (st : TaskState) (u : Ptr) :
    ((s.setState t st).tcb u).regs = (s.tcb u).regs := by
  rcases eq_or_ne u t with rfl | h <;> simp [setState, *]

@[simp] lemma setState_pid (st : TaskState) (u : Ptr) :
    ((s.setState t st).tcb u).pid = (s.tcb u).pid := by
  rcases eq_or_ne u t with rfl | h <;> simp [setState, *]

@[simp] lemma setState_sleepUntil (st : TaskState) (u : Ptr) :
    ((s.setState t st).tcb u).sleepUntil = (s.tcb u).sleepUntil := by
  rcases eq_or_ne u t with rfl | h <;> simp [setState, *]

/-! ### Saving the current task -/

/-- Saving touches a running current task only. -/
lemma saved_eq (h : ∀ t, s.currentTask = some t → (s.tcb t).state ≠ .running) :
    s.saved regs = s := by
  unfold saved
  split
  · rfl
  · next t ht => rw [if_neg (h t ht)]

lemma saved_running (hc : s.currentTask = some t) (hs : (s.tcb t).state = .running) :
    s.saved regs =
      { s with tcb := Function.update s.tcb t { s.tcb t with regs := regs, state := .ready } } := by
  unfold saved
  rw [hc]
  exact if_pos hs

@[simp] lemma saved_taskList : (s.saved regs).taskList = s.taskList := by
  unfold saved
  split <;> (try split) <;> rfl

@[simp] lemma saved_currentTask : (s.saved regs).currentTask = s.currentTask := by
  unfold saved
  split <;> (try split) <;> simp_all

@[simp] lemma saved_frame : (s.saved regs).frame = s.frame := by
  unfold saved
  split <;> (try split) <;> rfl

@[simp] lemma saved_pitTicks : (s.saved regs).pitTicks = s.pitTicks := by
  unfold saved
  split <;> (try split) <;> rfl

lemma saved_tcb_ne (h : s.currentTask ≠ some u) : (s.saved regs).tcb u = s.tcb u := by
  unfold saved
  split
  · rfl
  · next t ht =>
      have hne : u ≠ t := fun h' => h (h' ▸ ht)
      split
      · simp [hne]
      · rfl

@[simp] lemma saved_pid : ((s.saved regs).tcb u).pid = (s.tcb u).pid := by
  by_cases h : s.currentTask = some u
  · by_cases hs : (s.tcb u).state = .running
    · simp [saved_running h hs]
    · rw [saved_eq (by simp_all)]
  · rw [saved_tcb_ne h]

@[simp] lemma saved_sleepUntil : ((s.saved regs).tcb u).sleepUntil = (s.tcb u).sleepUntil := by
  by_cases h : s.currentTask = some u
  · by_cases hs : (s.tcb u).state = .running
    · simp [saved_running h hs]
    · rw [saved_eq (by simp_all)]
  · rw [saved_tcb_ne h]

/-- The state of a task after the current one is saved. -/
lemma saved_state (s : Sched) (regs u : Ptr) : ((s.saved regs).tcb u).state = (s.tcb u).state
    ∨ s.currentTask = some u ∧ (s.tcb u).state = .running
      ∧ ((s.saved regs).tcb u).state = .ready := by
  by_cases h : s.currentTask = some u
  · by_cases hs : (s.tcb u).state = .running
    · exact Or.inr ⟨h, hs, by simp [saved_running h hs]⟩
    · rw [saved_eq (by simp_all)]
      exact Or.inl rfl
  · rw [saved_tcb_ne h]
    exact Or.inl rfl

/-! ### The search -/

/-- The tasks at which the search stops. -/
def Eligible (s : Sched) (t : Ptr) : Prop :=
  (s.tcb t).pid ≠ 0 ∧ ((s.tcb t).state = .ready
    ∨ (s.tcb t).state = .sleeping ∧ (s.tcb t).sleepUntil ≤ s.pitTicks)

instance : DecidablePred s.Eligible := fun _ => inferInstanceAs (Decidable (_ ∧ _))

/-- The search stops at the first eligible entry, which a sleeper leaves ready. -/
lemma search_eq (ts : List Ptr) :
    s.search ts = match ts.find? (fun t => s.Eligible t) with
      | none => (none, s)
      | some t => (some t, if (s.tcb t).state = .ready then s else s.setState t .ready) := by
  induction ts with
  | nil => rfl
  | cons t ts ih =>
      rw [search, List.find?_cons]
      split_ifs with hpid hready hsleep htime
      · have hn : ¬ s.Eligible t := fun h => h.1 hpid
        simp [hn, ih]
      · have he : s.Eligible t := ⟨hpid, Or.inl hready⟩
        simp [he, hready]
      · have he : s.Eligible t := ⟨hpid, Or.inr ⟨hsleep, htime⟩⟩
        simp [he, hready]
      · have hn : ¬ s.Eligible t := by rintro ⟨-, h | h⟩ <;> tauto
        simp [hn, ih]
      · have hn : ¬ s.Eligible t := by rintro ⟨-, h | h⟩ <;> tauto
        simp [hn, ih]

lemma startIdx_lt (h : s.taskList ≠ []) : s.startIdx < s.taskList.length := by
  have hpos : 0 < s.taskList.length := List.length_pos_iff.mpr h
  unfold startIdx
  split
  · exact Nat.mod_lt _ hpos
  · exact hpos

/-- The search visits every entry. -/
lemma mem_searchOrder : t ∈ s.searchOrder ↔ t ∈ s.taskList := by
  constructor
  · intro h
    obtain ⟨i, _, hi⟩ := List.mem_filterMap.mp h
    exact List.mem_of_getElem? hi
  · intro h
    obtain ⟨j, hj, rfl⟩ := List.getElem_of_mem h
    have hs := startIdx_lt (s := s) (List.ne_nil_of_mem h)
    have hpos : 0 < s.taskList.length := by omega
    -- from the start entry, entry `j` is `j - start` steps away, around the end of the list
    refine List.mem_filterMap.mpr ⟨(j + (s.taskList.length - s.startIdx)) % s.taskList.length,
      List.mem_range.mpr (Nat.mod_lt _ hpos), ?_⟩
    have hidx : (s.startIdx + (j + (s.taskList.length - s.startIdx)) % s.taskList.length)
        % s.taskList.length = j := by
      rw [Nat.add_mod_mod, show s.startIdx + (j + (s.taskList.length - s.startIdx))
        = j + s.taskList.length by omega, Nat.add_mod_right, Nat.mod_eq_of_lt hj]
    rw [hidx, List.getElem?_eq_getElem hj]

end Sched

/-! ### What a switch does -/

variable {s : Sched} {t : Ptr} {regs : Ptr}

/-- The task `task_switch` selects, once the current one is saved. -/
def Sched.selected (s : Sched) : Option Ptr := s.searchOrder.find? (fun t => s.Eligible t)

lemma Sched.selected_some (h : s.selected = some t) : t ∈ s.taskList ∧ s.Eligible t :=
  ⟨Sched.mem_searchOrder.mp (List.mem_of_find?_eq_some h), by simpa using List.find?_some h⟩

lemma Sched.selected_eq_none : s.selected = none ↔ ∀ t ∈ s.taskList, ¬ s.Eligible t := by
  simp [Sched.selected, Sched.mem_searchOrder]

/-- The search finds a task: it becomes the current one and its saved frame is returned. -/
lemma taskSwitch_found (h : (s.saved regs).selected = some t) :
    taskSwitch regs s = (((s.saved regs).tcb t).regs,
      { (s.saved regs).setState t .running with currentTask := some t }) := by
  have hne : s.taskList.length ≠ 0 := by
    have hmem := (Sched.selected_some h).1
    rw [Sched.saved_taskList] at hmem
    exact (List.length_pos_of_mem hmem).ne'
  unfold taskSwitch
  rw [if_neg hne]
  simp only [Sched.search_eq]
  rw [show (s.saved regs).searchOrder.find? (fun t => (s.saved regs).Eligible t) = some t from h]
  dsimp only
  split_ifs <;> simp [Sched.setState]

/-- The search finds nothing: the current task is set running, whatever its state is. -/
lemma taskSwitch_none (h : (s.saved regs).selected = none) :
    taskSwitch regs s = (regs, match s.currentTask with
      | some t => if s.taskList = [] then s else (s.saved regs).setState t .running
      | none => s) := by
  unfold taskSwitch
  rcases eq_or_ne s.taskList [] with hnil | hnil
  · rw [if_pos (by simp [hnil])]
    cases s.currentTask <;> simp [hnil]
  · rw [if_neg (by simpa using hnil)]
    simp only [Sched.search_eq]
    rw [show (s.saved regs).searchOrder.find? (fun t => (s.saved regs).Eligible t) = none from h]
    dsimp only
    rw [Sched.saved_currentTask]
    cases hc : s.currentTask with
    | none => rw [Sched.saved_eq (by simp [hc])]
    | some t => simp [hnil]

end KiOS
