import KiOS.Cpu.IrqDispatch
import KiOS.Task.Context
import KiOS.Task.TaskMemory

/-!
Preemption, from the registers of one task to those of another.

Between the interrupt and the first instruction of the task that gets the processor lie the
controllers, the stub, `irq_handler`, the scheduler and the stub's way back. What a task is owed is
that none of this shows: it continues with the registers it was interrupted with.

* `PreemptRun`: the interrupts, the processor with memory, and the registers each task left with;
* `preemptMachine`: running code, requests and interrupts in any order;
* `KeepsSleepers`: the condition: no tenth tick finds the running task asleep and another to run;
* `PreemptInv`: the invariant: the frame of every waiting task holds the registers it left with;
* `preemption_transparent`: an interrupt gives the interrupted task or the next one its registers.
-/

namespace KiOS

/-- The kernel with its interrupts, the processor and the bytes in memory. -/
structure PreemptRun where
  irqs : IrqState
  machine : Machine
  /-- The registers a task last lost the processor with, at first those it is to start with. -/
  left : Ptr → Cpu

inductive PreemptEvent where
  /-- The running code computes: its registers and memory change. -/
  | work (m : Machine)
  | create (name : List Char) (namePtr entry stackSize : BitVec 64) (task stack : Option Ptr)
  /-- A request, or a call of the running code. -/
  | call (e : IrqEvent)
  /-- An interrupt on the stack below `top`, with the memory that `irq_handler` leaves. -/
  | interrupt (held : Bool) (top : BitVec 64) (scancode : BitVec 8) (mem : ByteMemory)

/-- What neither interrupts nor creates a task. -/
def IrqEvent.Quiet : IrqEvent → Prop
  | .interrupt .. => False
  | .task (.create ..) => False
  | _ => True

namespace PreemptRun

/-- The task is not the running one. -/
def Waiting (s : PreemptRun) (t : Ptr) : Prop :=
  t ∈ s.irqs.tasks.sched.taskList ∧ s.irqs.tasks.sched.currentTask ≠ some t

/-- The frames of the waiting tasks are as they were. -/
def FramesKept (s : PreemptRun) (m : ByteMemory) : Prop :=
  ∀ t, s.Waiting t → readFrame m (s.irqs.tasks.context t)
    = readFrame s.machine.mem (s.irqs.tasks.context t)

/-- The memory that `task_create` leaves. -/
def created (s : PreemptRun) (namePtr entry stackSize : BitVec 64) (task stack : Option Ptr) :
    ByteMemory :=
  if maxTasks ≤ s.irqs.tasks.sched.taskList.length then s.machine.mem
  else
    match task, stack with
    | some task, some stack =>
        writeTask task stack namePtr entry stackSize s.irqs.tasks.sched.nextPid
          s.irqs.tasks.sched.currentTask.isNone s.machine.mem
    | _, _ => s.machine.mem

/-- The stub of the interrupt, up to the call of `irq_handler`. -/
def entered (s : PreemptRun) (held : Bool) (top : BitVec 64) : Option Machine :=
  (s.irqs.pics.inta held).1.map fun v => irqEnter (v - 32).toNat top s.machine

/-- An interrupt, from the running code to the code that runs next. -/
def interrupt (s : PreemptRun) (held : Bool) (top : BitVec 64) (scancode : BitVec 8)
    (mem : ByteMemory) : Option PreemptRun :=
  (s.entered held top).bind fun m =>
    let regs := m.cpu.gpr .rdi
    let irqs := { s.irqs with pics := (s.irqs.pics.inta held).2 }
    (irqHandler regs (readFrame m.mem regs).int_no scancode irqs).map fun r =>
      { irqs := r.2
        machine := Machine.exec irqTail ({ m with mem := mem }.set .rax r.1)
        left :=
          match s.irqs.tasks.sched.currentTask with
          | some t =>
              if r.2.tasks.sched.currentTask = some t then s.left
              else Function.update s.left t s.machine.cpu
          | none => s.left }

end PreemptRun

/-- Running code, requests and interrupts in any order. The running code leaves the frames of
waiting tasks alone; so does the stack of an interrupt, on which its own frame stays until it is
left. -/
def preemptMachine : EventMachine PreemptRun PreemptEvent where
  admissible s
    | .work m => s.FramesKept m.mem ∧ m.cpu.SegmentsOk
    | .create name namePtr entry stackSize task stack =>
        irqMachine.admissible s.irqs (.task (.create name entry stackSize task stack))
          ∧ sizeofRegisters ≤ stackSize
          ∧ (∀ t ∈ task, ∀ p ∈ stack, FrameBehind t (stackFrame p stackSize))
          ∧ s.FramesKept (s.created namePtr entry stackSize task stack)
    | .call e => e.Quiet ∧ irqMachine.admissible s.irqs e
    | .interrupt held top scancode mem =>
        irqMachine.admissible s.irqs (.interrupt held (top - 208) scancode)
          ∧ top ≠ 208
          ∧ s.FramesKept mem
          ∧ ∀ m ∈ s.entered held top, readFrame mem (top - 208) = readFrame m.mem (top - 208)
  step s
    | .work m => some { s with machine := m }
    | .create name namePtr entry stackSize task stack =>
        let tasks := s.irqs.tasks.create name entry stackSize task stack
        some
          { irqs := { s.irqs with tasks := tasks }
            machine := { s.machine with mem := s.created namePtr entry stackSize task stack }
            left :=
              match (taskCreate name entry stackSize task stack s.irqs.tasks.sched).1 with
              | some t => Function.update s.left t (initialRegisters entry (tasks.context t)).cpu
              | none => s.left }
    | .call e => (irqMachine.step s.irqs e).map fun irqs => { s with irqs := irqs }
    | .interrupt held top scancode mem => s.interrupt held top scancode mem

/-- The condition: a tenth tick does not find both the running task asleep and a task to run. -/
def KeepsSleepers (s : PreemptRun) : PreemptEvent → Prop
  | .interrupt _ top _ _ =>
      s.irqs.pics.Enabled Pics.timerLine → (s.irqs.tasks.sched.pitTicks.toNat + 1) % 10 = 0 →
        SavesContext s.irqs.tasks.tick (.switch (top - 208))
  | _ => True

/-- What an interrupt owes: the interrupted code continues with its registers, or the next task
with those it left with. -/
structure Transparent (s u : PreemptRun) : Prop where
  stays : u.irqs.tasks.sched.currentTask = s.irqs.tasks.sched.currentTask →
    u.machine.cpu = s.machine.cpu
  resumed : ∀ t, u.irqs.tasks.sched.currentTask = some t →
    s.irqs.tasks.sched.currentTask ≠ some t → u.machine.cpu = s.left t

/-- The invariant: the frame of every waiting task holds the registers it left with. -/
structure PreemptInv (s : PreemptRun) : Prop where
  refines : ∃ a, IrqRefines s.irqs a
  context : s.irqs.tasks.ContextInv
  frames : ∀ t, s.Waiting t →
    (readFrame s.machine.mem (s.irqs.tasks.context t)).Holds (s.left t)
      ∧ (s.left t).SegmentsOk ∧ s.irqs.tasks.context t ≠ 0
  segments : s.machine.cpu.SegmentsOk

/-! ### The way through an interrupt -/

lemma irqEnter_frame (k : ℕ) (top : BitVec 64) (m : Machine) :
    (irqEnter k top m).cpu.gpr .rdi = top - 208 := by
  rw [irqEnter_rdi, Stack.sp_pushAll]
  rfl

/-- The stub's way back loads a frame that holds the registers of a processor. -/
lemma exec_irqTail_cpu {m : Machine} {r : Ptr} {c : Cpu} (h : (readFrame m.mem r).Holds c)
    (hc : c.SegmentsOk) : (Machine.exec irqTail (m.set .rax r)).cpu = c := by
  have hrax : (m.set .rax r).cpu.gpr .rax = r := Cpu.gpr_set_self ..
  have hframe : (readFrame (m.set .rax r).mem ((m.set .rax r).cpu.gpr .rax)).Holds c := by
    rw [hrax]
    exact h
  exact (irqTail_loads _ (hframe.wellFormed hc)).unique hframe

/-- The two ways in which an interrupt of the model can end. -/
lemma IrqModel.interrupt_cases (a : IrqModel) (regs : Ptr) (scancode : BitVec 8) :
    ((a.interrupt regs scancode).1 = regs
        ∧ ((a.interrupt regs scancode).2.tasks = a.tasks
          ∨ (a.interrupt regs scancode).2.tasks = a.tasks.tick))
      ∨ (a.timerOn = true ∧ a.timer = true ∧ a.tasks.tick.sched.pitTicks.toNat % 10 = 0
        ∧ (a.interrupt regs scancode).1 = resumed regs a.tasks.tick
        ∧ (a.interrupt regs scancode).2.tasks = a.tasks.tick.switch regs) := by
  rw [interrupt]
  split_ifs with htimer hkeyboard
  · rw [tick]
    dsimp only
    split_ifs with htenth
    · exact Or.inr ⟨htimer.1, htimer.2, htenth, rfl, rfl⟩
    · exact Or.inl ⟨rfl, Or.inr rfl⟩
  · exact Or.inl ⟨rfl, Or.inl rfl⟩
  · exact Or.inl ⟨rfl, Or.inl rfl⟩

/-- The task that loses the processor was switched away with the frame at `regs`. -/
lemma switch_context (s : SchedRun) (regs : Ptr) : (s.switch regs).context
    = match s.sched.currentTask with
      | some t =>
          if (s.switch regs).sched.currentTask = some t then s.context
          else Function.update s.context t regs
      | none => s.context :=
  rfl

/-- A switch that takes the processor from the running task gives it to another one. -/
lemma switch_moves {s : SchedRun} {regs : Ptr}
    (h : (s.switch regs).sched.currentTask ≠ s.sched.currentTask) :
    ∃ t, (s.switch regs).sched.currentTask = some t := by
  cases hsel : (s.sched.saved regs).selected with
  | some t => exact ⟨t, by simp [SchedRun.switch, taskSwitch_found hsel]⟩
  | none =>
      refine absurd ?_ h
      simp only [SchedRun.switch, taskSwitch_none hsel]
      cases hc : s.sched.currentTask with
      | none => exact hc
      | some c => dsimp only; split_ifs <;> simp [hc]

/-- What `task_create` does to the list of tasks, and what it returns. -/
lemma SchedRun.create_result (s : SchedRun) (name : List Char) (entry stackSize : BitVec 64)
    (task stack : Option Ptr) :
    (∃ blocks, s.create name entry stackSize task stack = { s with blocks := s.blocks ++ blocks }
        ∧ (taskCreate name entry stackSize task stack s.sched).1 = none)
      ∨ ∃ t p, task = some t ∧ stack = some p ∧ ¬ maxTasks ≤ s.sched.taskList.length
        ∧ (s.create name entry stackSize task stack).sched.taskList = s.sched.taskList ++ [t]
        ∧ (s.create name entry stackSize task stack).sched.currentTask
          = s.sched.currentTask.or (some t)
        ∧ (s.create name entry stackSize task stack).context
          = Function.update s.context t (stackFrame p stackSize)
        ∧ (taskCreate name entry stackSize task stack s.sched).1 = some t := by
  unfold SchedRun.create taskCreate
  by_cases hmax : maxTasks ≤ s.sched.taskList.length
  · exact Or.inl ⟨[], by simp [hmax]⟩
  · rcases task with _ | t
    · exact Or.inl ⟨[], by simp [hmax]⟩
    · rcases stack with _ | p
      · exact Or.inl ⟨[⟨t, sizeofTask⟩], by simp [hmax, blockOf]⟩
      · refine Or.inr ⟨t, p, rfl, rfl, hmax, ?_⟩
        cases s.sched.currentTask <;> simp [hmax]

namespace PreemptInv

variable {s u : PreemptRun} {held : Bool} {top : BitVec 64} {scancode : BitVec 8} {mem : ByteMemory}

/-- What a switch of the scheduler does to the registers that tasks left with. -/
def leftAfter (s : PreemptRun) (current : Option Ptr) : Ptr → Cpu :=
  match s.irqs.tasks.sched.currentTask with
  | some t => if current = some t then s.left else Function.update s.left t s.machine.cpu
  | none => s.left

/-- **An interrupt**, with the frame that `irq_handler` gets and the one it returns. -/
lemma interrupt_eq {a : IrqModel} (ha : IrqRefines s.irqs a) (held : Bool) (top : BitVec 64)
    (scancode : BitVec 8) (mem : ByteMemory) :
    ∃ (line : Fin 16) (t : IrqState),
      s.entered held top = some (irqEnter line top s.machine)
      ∧ (readFrame (irqEnter line top s.machine).mem (top - 208)).Holds s.machine.cpu
      ∧ IrqRefines t (a.interrupt (top - 208) scancode).2
      ∧ s.interrupt held top scancode mem = some
        { irqs := t
          machine := Machine.exec irqTail
            ({ irqEnter line top s.machine with mem := mem }.set .rax
              (a.interrupt (top - 208) scancode).1)
          left := leftAfter s t.tasks.sched.currentTask } := by
  obtain ⟨line, hdel⟩ := ha.pics.interrupt_step held
  have hvec : (s.irqs.pics.inta held).1 = some (32 + BitVec.ofNat 8 line) :=
    hdel.elim And.left And.left
  have hstub : ∀ line : Fin 16, (32 + BitVec.ofNat 8 line - 32 : BitVec 8).toNat = line := by decide
  have hintNo : ∀ line : Fin 16, BitVec.ofNat 64 (32 + line)
      = (32 + BitVec.ofNat 8 line : BitVec 8).setWidth 64 := by decide
  have hentered : s.entered held top = some (irqEnter line top s.machine) := by
    rw [PreemptRun.entered, hvec, Option.map_some, hstub]
  obtain ⟨hholds, hframeNo⟩ := irqHead_frame line top s.machine
  rw [irqEnter_frame] at hholds hframeNo
  obtain ⟨t, ht, hrel⟩ := ha.interrupt held (top - 208) scancode
  refine ⟨line, t, hentered, hholds, hrel, ?_⟩
  rw [takeInterrupt] at ht
  simp only [hvec, Option.bind_some] at ht
  rw [PreemptRun.interrupt, hentered]
  simp only [Option.bind_some, irqEnter_frame, hframeNo, hintNo, ht, Option.map_some]
  rfl

/-- The registers that the running code is interrupted with are in its frame, as long as
`irq_handler` leaves it alone. -/
lemma frame_kept {m : Machine} (hm : s.entered held top = some m)
    (hholds : (readFrame m.mem (top - 208)).Holds s.machine.cpu)
    (hkept : ∀ m ∈ s.entered held top, readFrame mem (top - 208) = readFrame m.mem (top - 208)) :
    (readFrame mem (top - 208)).Holds s.machine.cpu := by
  rw [hkept m hm]
  exact hholds

/-- The machine that the stub leaves behind. -/
lemma exec_irqTail_mem (m : Machine) (r : Ptr) :
    (Machine.exec irqTail ({ m with mem := mem }.set .rax r)).mem = mem :=
  (irqTail_frame _).1

/-- Returning to the interrupted code. -/
lemma returns (h : PreemptInv s) (m : Machine) {a : IrqModel} {t : IrqState}
    (hrel : IrqRefines t a) (hctx : t.tasks.ContextInv)
    (hcurrent : t.tasks.sched.currentTask = s.irqs.tasks.sched.currentTask)
    (hlist : t.tasks.sched.taskList = s.irqs.tasks.sched.taskList)
    (hcontext : t.tasks.context = s.irqs.tasks.context)
    (hframe : (readFrame mem (top - 208)).Holds s.machine.cpu) (hkept : s.FramesKept mem)
    (hu : u = { irqs := t
                machine := Machine.exec irqTail ({ m with mem := mem }.set .rax (top - 208))
                left := leftAfter s t.tasks.sched.currentTask }) :
    PreemptInv u ∧ Transparent s u := by
  subst hu
  have hcpu : (Machine.exec irqTail ({ m with mem := mem }.set .rax (top - 208))).cpu
      = s.machine.cpu := exec_irqTail_cpu hframe h.segments
  have hleft : leftAfter s t.tasks.sched.currentTask = s.left := by
    rw [leftAfter, hcurrent]
    cases s.irqs.tasks.sched.currentTask with
    | none => rfl
    | some c => exact if_pos rfl
  refine ⟨⟨⟨a, hrel⟩, hctx, fun t' ht' => ?_, ?_⟩, fun _ => hcpu, fun t' ht' hne => ?_⟩
  · have hwait : s.Waiting t' := by
      simpa only [PreemptRun.Waiting, hcurrent, hlist] using ht'
    rw [exec_irqTail_mem, hleft, hcontext, hkept t' hwait]
    exact h.frames t' hwait
  · rw [hcpu]
    exact h.segments
  · exact absurd (hcurrent.symm.trans ht') hne

/-- A tenth tick, with the switch of the scheduler. -/
lemma switches (h : PreemptInv s) (m : Machine) {a : IrqModel} {t : IrqState}
    (hrel : IrqRefines t a) {tasks : SchedRun} (hctx : tasks.ContextInv)
    (hcurrent : tasks.sched.currentTask = s.irqs.tasks.sched.currentTask)
    (hlist : tasks.sched.taskList = s.irqs.tasks.sched.taskList)
    (hcontext : tasks.context = s.irqs.tasks.context)
    (hsaves : SavesContext tasks (.switch (top - 208)))
    (htasks : t.tasks = tasks.switch (top - 208)) (htop : top ≠ 208)
    (hframe : (readFrame mem (top - 208)).Holds s.machine.cpu) (hkept : s.FramesKept mem)
    (hu : u = { irqs := t
                machine := Machine.exec irqTail
                  ({ m with mem := mem }.set .rax (IrqModel.resumed (top - 208) tasks))
                left := leftAfter s t.tasks.sched.currentTask }) :
    PreemptInv u ∧ Transparent s u := by
  have hok := hctx.ok hsaves
  have hctx' : (tasks.switch (top - 208)).ContextInv :=
    hctx.step (e := .switch (top - 208)) ⟨trivial, hsaves⟩ rfl
  have hlist' : (tasks.switch (top - 208)).sched.taskList = tasks.sched.taskList :=
    switch_taskList tasks _
  have hcontext' := switch_context tasks (top - 208)
  by_cases hstay : (tasks.switch (top - 208)).sched.currentTask = tasks.sched.currentTask
  · have hret : IrqModel.resumed (top - 208) tasks = top - 208 := by
      rw [IrqModel.resumed, hok.stays hstay]
      exact ite_self _
    have hsame : (tasks.switch (top - 208)).context = tasks.context := by
      rw [hcontext', hstay]
      cases tasks.sched.currentTask with
      | none => rfl
      | some c => exact if_pos rfl
    rw [hret] at hu
    refine h.returns _ hrel ?_ ?_ ?_ ?_ hframe hkept hu <;> rw [htasks]
    · exact hctx'
    · rw [hstay, hcurrent]
    · rw [hlist', hlist]
    · rw [hsame, hcontext]
  · obtain ⟨d, hd⟩ := switch_moves hstay
    have hne : tasks.sched.currentTask ≠ some d := fun h' => hstay (hd.trans h'.symm)
    have hwait : s.Waiting d := by
      refine ⟨?_, hcurrent ▸ hne⟩
      rw [← hlist, ← hlist']
      exact hctx'.inv.current_mem d hd
    obtain ⟨hframe', hseg, h0⟩ := h.frames d hwait
    have hret : IrqModel.resumed (top - 208) tasks = s.irqs.tasks.context d := by
      rw [IrqModel.resumed, hok.resumed d hd hne, hcontext, if_neg h0]
    have hcpu : u.machine.cpu = s.left d := by
      rw [hu, hret]
      refine exec_irqTail_cpu ?_ hseg
      rw [← hkept d hwait] at hframe'
      exact hframe'
    have hcurrent' : u.irqs.tasks.sched.currentTask = some d := by
      rw [hu, htasks]
      exact hd
    refine ⟨⟨⟨a, hu ▸ hrel⟩, ?_, fun t' ht' => ?_, hcpu ▸ hseg⟩,
      fun hsame => ?_, fun t' ht' _ => ?_⟩
    · rw [hu, htasks]
      exact hctx'
    · have hmem' : t' ∈ s.irqs.tasks.sched.taskList := by
        have hin := ht'.1
        rwa [hu, htasks, hlist', hlist] at hin
      obtain ⟨c, hc⟩ : ∃ c, s.irqs.tasks.sched.currentTask = some c := by
        cases hnone : s.irqs.tasks.sched.currentTask with
        | none => exact absurd hmem' (by simp [h.context.inv.current_none hnone])
        | some c => exact ⟨c, rfl⟩
      have hcd : some d ≠ some c := fun h' => hne (by rw [hcurrent, hc, h'])
      have hcontext'' : u.irqs.tasks.context
          = Function.update s.irqs.tasks.context c (top - 208) := by
        rw [hu, htasks, hcontext', hcurrent, hc, hcontext]
        exact if_neg (hd ▸ hcd)
      have hleft : u.left = Function.update s.left c s.machine.cpu := by
        rw [hu, htasks]
        simp only [leftAfter, hc]
        exact if_neg (hd ▸ hcd)
      have hmem : u.machine.mem = mem := by
        rw [hu]
        exact exec_irqTail_mem m _
      rw [hmem, hcontext'', hleft]
      by_cases htc : t' = c
      · -- the task that was interrupted
        subst htc
        rw [Function.update_self, Function.update_self]
        exact ⟨hframe, h.segments, sub_ne_zero.mpr htop⟩
      · rw [Function.update_of_ne htc, Function.update_of_ne htc]
        have hwait' : s.Waiting t' := ⟨hmem', fun h' => htc (Option.some.inj (h'.symm.trans hc))⟩
        rw [hkept t' hwait']
        exact h.frames t' hwait'
    · exact absurd (hcurrent'.symm.trans hsame) (hcurrent ▸ hne.symm)
    · rw [hcurrent'] at ht'
      obtain rfl := Option.some.inj ht'
      exact hcpu

/-- **An interrupt** keeps the invariant, and what it resumes has its registers. -/
lemma interrupt (h : PreemptInv s)
    (hadm : (preemptMachine.restrict KeepsSleepers).admissible s (.interrupt held top scancode mem))
    (hst : s.interrupt held top scancode mem = some u) : PreemptInv u ∧ Transparent s u := by
  obtain ⟨⟨hwrap, htop, hkept, hown⟩, hsleep⟩ := hadm
  obtain ⟨a, ha⟩ := h.refines
  obtain ⟨line, t, hm, hholds, hrel, heq⟩ := interrupt_eq ha held top scancode mem
  have hframe := frame_kept hm hholds hown
  have hu := Option.some.inj (hst.symm.trans heq)
  have htick : s.irqs.tasks.tick.ContextInv :=
    h.context.step (e := .tick) ⟨hwrap, trivial⟩ rfl
  rcases a.interrupt_cases (top - 208) scancode with ⟨hret, htasks⟩
    | ⟨hon, htimer, htenth, hret, htasks⟩
  · rw [hret] at hu
    rw [← hrel.tasks, ← ha.tasks] at htasks
    rcases htasks with htasks | htasks
    · refine h.returns _ hrel ?_ ?_ ?_ ?_ hframe hkept hu <;> rw [htasks]
      exact h.context
    · refine h.returns _ hrel ?_ ?_ ?_ ?_ hframe hkept hu <;> rw [htasks]
      · exact htick
      all_goals rfl
  · rw [hret, ← ha.tasks] at hu
    rw [← hrel.tasks, ← ha.tasks] at htasks
    have hen : s.irqs.pics.Enabled 0 := (ha.enabled_iff 0).mpr (Or.inl ⟨rfl, hon, htimer⟩)
    have hmod : (s.irqs.tasks.sched.pitTicks.toNat + 1) % 10 = 0 := by
      have hadd : s.irqs.tasks.tick.sched.pitTicks.toNat
          = (s.irqs.tasks.sched.pitTicks.toNat + 1) % 2 ^ 64 := BitVec.toNat_add _ _
      rw [Nat.mod_eq_of_lt hwrap] at hadd
      rw [← hadd, ha.tasks]
      exact htenth
    exact h.switches _ hrel htick rfl rfl rfl (hsleep hen hmod) htasks htop hframe hkept hu

/-- A frame of a new task. -/
lemma segmentsOk_initial (entry stackTop : BitVec 64) :
    (initialRegisters entry stackTop).cpu.SegmentsOk :=
  wellFormed_initialRegisters entry stackTop

lemma create (h : PreemptInv s) {name : List Char} {namePtr entry stackSize : BitVec 64}
    {task stack : Option Ptr}
    (hadm : preemptMachine.admissible s (.create name namePtr entry stackSize task stack))
    (hst : preemptMachine.step s (.create name namePtr entry stackSize task stack) = some u) :
    PreemptInv u := by
  obtain ⟨⟨-, hfresh, hfresh'⟩, hfit, hbehind, hkept⟩ := hadm
  obtain ⟨a, ha⟩ := h.refines
  have hctx : (s.irqs.tasks.create name entry stackSize task stack).ContextInv :=
    h.context.create hfresh hfresh' hfit
  have hrel : IrqRefines
      { s.irqs with tasks := s.irqs.tasks.create name entry stackSize task stack }
      { a with tasks := s.irqs.tasks.create name entry stackSize task stack } :=
    ha.of_pics ha.pics rfl rfl ha.timer ha.keyboard rfl rfl rfl rfl ha.input
  obtain rfl := Option.some.inj hst
  refine ⟨⟨_, hrel⟩, hctx, fun t' ht' => ?_, h.segments⟩
  rcases s.irqs.tasks.create_result name entry stackSize task stack with
    ⟨blocks, hsame, hnone⟩ | ⟨t, p, rfl, rfl, hroom, hlist, hcurrent, hcontext, hsome⟩
  · -- no task was created
    have hwait : s.Waiting t' := by
      simpa only [PreemptRun.Waiting, hsame] using ht'
    simp only [hsame, hnone]
    rw [hkept t' hwait]
    exact h.frames t' hwait
  · have hnew := h.context.inv.fresh_not_mem hfresh
    obtain ⟨hp0, hal, hwrap, -⟩ := hfresh'
    simp only [PreemptRun.Waiting, hlist, hcurrent] at ht'
    simp only [hsome, hcontext]
    rcases List.mem_append.mp ht'.1 with hmem | hmem
    · have hne : t' ≠ t := fun h' => hnew (h' ▸ hmem)
      have hwait : s.Waiting t' := by
        refine ⟨hmem, fun hc => ht'.2 ?_⟩
        rw [hc]
        rfl
      rw [Function.update_of_ne hne, Function.update_of_ne hne, hkept t' hwait]
      exact h.frames t' hwait
    · obtain rfl := List.mem_singleton.mp hmem
      have hmemory : s.created namePtr entry stackSize (some t') (some p)
          = writeTask t' p namePtr entry stackSize s.irqs.tasks.sched.nextPid
            s.irqs.tasks.sched.currentTask.isNone s.machine.mem := if_neg hroom
      have hinside := stackFrame_mem hal hwrap hfit
      simp only [Function.update_self]
      rw [hmemory, readFrame_writeTask (hbehind t' rfl p rfl)]
      refine ⟨Registers.holds_cpu _, segmentsOk_initial _ _, fun h0 => hp0 ?_⟩
      rw [h0] at hinside
      exact BitVec.eq_of_toNat_eq (Nat.le_zero.mp hinside.1)

/-- What neither runs nor waits anew keeps the invariant. -/
lemma of_irqs (h : PreemptInv s) {t : IrqState} {a : IrqModel} (hrel : IrqRefines t a)
    (hctx : t.tasks.ContextInv)
    (hcurrent : t.tasks.sched.currentTask = s.irqs.tasks.sched.currentTask)
    (hlist : t.tasks.sched.taskList = s.irqs.tasks.sched.taskList)
    (hcontext : t.tasks.context = s.irqs.tasks.context) : PreemptInv { s with irqs := t } := by
  refine ⟨⟨a, hrel⟩, hctx, fun t' ht' => ?_, h.segments⟩
  have hwait : s.Waiting t' := by
    simpa only [PreemptRun.Waiting, hcurrent, hlist] using ht'
  simp only [hcontext]
  exact h.frames t' hwait

lemma call (h : PreemptInv s) {e : IrqEvent} {t : IrqState} (hquiet : e.Quiet)
    (hadm : irqMachine.admissible s.irqs e) (hst : irqMachine.step s.irqs e = some t) :
    PreemptInv { s with irqs := t } := by
  obtain ⟨a, ha⟩ := h.refines
  obtain ⟨b, -, -, hb⟩ := ha.step hadm hst
  cases e with
  | raise line | withdraw line | unmaskTimer =>
      obtain rfl := Option.some.inj hst
      exact h.of_irqs hb h.context rfl rfl rfl
  | input e =>
      obtain ⟨input, -, rfl⟩ := Option.map_eq_some_iff.mp hst
      exact h.of_irqs hb h.context rfl rfl rfl
  | interrupt => exact absurd hquiet id
  | task e =>
      obtain ⟨tasks, htasks, rfl⟩ := Option.map_eq_some_iff.mp hst
      cases e with
      | create => exact absurd hquiet id
      | switch | tick => exact absurd hadm.1 id
      | sleep ticks =>
          obtain rfl := Option.some.inj htasks
          refine h.of_irqs hb (h.context.sleep ticks) ?_ ?_ rfl <;>
            simp only [SchedRun.sleep, taskSleep] <;> cases hc : s.irqs.tasks.sched.currentTask <;>
            simp [hc]
      | exit =>
          obtain rfl := Option.some.inj htasks
          refine h.of_irqs hb h.context.exit ?_ ?_ rfl <;>
            simp only [SchedRun.exit, taskExit] <;> cases hc : s.irqs.tasks.sched.currentTask <;>
            simp [hc]

lemma step {e : PreemptEvent} (h : PreemptInv s)
    (hadm : (preemptMachine.restrict KeepsSleepers).admissible s e)
    (hst : preemptMachine.step s e = some u) : PreemptInv u := by
  cases e with
  | work m =>
      obtain rfl := Option.some.inj hst
      obtain ⟨⟨hkept, hseg⟩, -⟩ := hadm
      refine ⟨h.refines, h.context, fun t' ht' => ?_, hseg⟩
      rw [hkept t' ht']
      exact h.frames t' ht'
  | create name namePtr entry stackSize task stack => exact h.create hadm.1 hst
  | call e =>
      obtain ⟨t, ht, rfl⟩ := Option.map_eq_some_iff.mp hst
      exact h.call hadm.1.1 hadm.1.2 ht
  | interrupt held top scancode mem => exact (h.interrupt hadm hst).1

/-- The kernel when it has set up its interrupts, with any memory behind it. -/
lemma init (p : Pics) (b : KbBuffer) (s₀ : Sched) (kernelTask : Option Ptr) (m : Machine)
    (left : Ptr → Cpu) (hm : m.cpu.SegmentsOk) :
    PreemptInv ⟨kernelMain p b (bootTasks s₀ kernelTask), m, left⟩ := by
  have hstart : (kernelMain p b (bootTasks s₀ kernelTask)).tasks = bootTasks s₀ kernelTask := rfl
  refine ⟨⟨_, IrqRefines.init p b _ []⟩, SchedRun.ContextInv.init _ _, fun t ht => ?_, hm⟩
  obtain ⟨hmem, hne⟩ := ht
  rw [hstart] at hmem hne
  cases kernelTask with
  | none => cases hmem
  | some t₀ => exact absurd (congrArg some (List.mem_singleton.mp hmem).symm) hne

end PreemptInv

/-- **Preemption is transparent**: in every run in which no tenth tick takes the processor from a
sleeping task, an interrupt does not break down, and it returns to the interrupted code with the
registers it had, or to the next task with the registers that task left with: those it was last
interrupted with, or those it is to start with. -/
theorem preemption_transparent (p : Pics) (b : KbBuffer) (s₀ : Sched) (kernelTask : Option Ptr)
    (m : Machine) (left : Ptr → Cpu) (hm : m.cpu.SegmentsOk) {es : List PreemptEvent}
    {s : PreemptRun}
    (hrun : (preemptMachine.restrict KeepsSleepers).Run
      ⟨kernelMain p b (bootTasks s₀ kernelTask), m, left⟩ es s)
    {held : Bool} {top : BitVec 64} {scancode : BitVec 8} {mem : ByteMemory}
    (hadm : (preemptMachine.restrict KeepsSleepers).admissible s
      (.interrupt held top scancode mem)) :
    ∃ u, s.interrupt held top scancode mem = some u ∧ Transparent s u := by
  have h : PreemptInv s := EventMachine.Run.invariant (PreemptInv.init p b s₀ kernelTask m left hm)
    (fun _ _ _ h hadm hst => h.step hadm hst) hrun
  obtain ⟨a, ha⟩ := h.refines
  obtain ⟨_, _, -, -, -, hst⟩ := PreemptInv.interrupt_eq ha held top scancode mem
  exact ⟨_, hst, (h.interrupt hadm hst).2⟩

/-! ### A run with a switch -/

/-- A frame depends on its bytes only. -/
lemma readFrame_congr {m m' : ByteMemory} {p : Ptr}
    (h : ∀ k < 208, m' (p + BitVec.ofNat 64 k) = m (p + BitVec.ofNat 64 k)) :
    readFrame m' p = readFrame m p := by
  have hword : ∀ i < 26, m'.read (p + BitVec.ofNat 64 (8 * i))
      = m.read (p + BitVec.ofNat 64 (8 * i)) := by
    intro i hi
    refine ByteMemory.read_congr fun k hk => ?_
    rw [add_assoc, ← BitVec.ofNat_add]
    exact h _ (by omega)
  simp (disch := decide) only [readFrame, hword]

/-- Ticks count, and do nothing else. -/
lemma SchedRun.tick_iterate (n : ℕ) (s : SchedRun) : SchedRun.tick^[n] s
    = { s with sched := { s.sched with pitTicks := s.sched.pitTicks + BitVec.ofNat 64 n } } := by
  induction n with
  | zero => simp
  | succ n ih =>
      rw [Function.iterate_succ_apply', ih, SchedRun.tick, BitVec.ofNat_add, ← add_assoc]
      rfl

namespace PreemptRun

/-- The timer has a request. -/
def requested (s : PreemptRun) : PreemptRun :=
  { s with irqs := { s.irqs with pics := s.irqs.pics.raise Pics.timerLine } }

/-- The memory when `irq_handler` is called on the stack of the idle loop. -/
def pushed (s : PreemptRun) : ByteMemory :=
  ((s.entered false 0x4FFF00).map Machine.mem).getD s.machine.mem

/-- A tick in the idle loop, with a handler that writes nothing into the frames. -/
def ticked (s : PreemptRun) : PreemptRun :=
  (s.requested.interrupt false 0x4FFF00 0x1E s.requested.pushed).getD s

end PreemptRun

/-- The block of the shell. -/
def shellPtr : Ptr := 0xFFFF800000000050

/-- The frame that the shell is to start with. -/
def shellFrame : Ptr := stackFrame 0xFFFF8000000000A0 16384

/-- The kernel in its idle loop, before it has created the shell. -/
def idleRun : PreemptRun :=
  ⟨kernelMain foundPics ⟨fun _ => 0, 0, 0⟩ (bootTasks default (some 0xFFFF800000000000)),
    idleMachine, fun _ => idleCpu⟩

/-- The shell is created and the timer unmasked. -/
def shellReady : PreemptRun where
  irqs :=
    { idleRun.irqs with
      tasks := shellTasks
      pics := picClearMask 0 idleRun.irqs.pics }
  machine :=
    { idleMachine with
      mem := idleRun.created 0x102000 0x101000 16384 (some shellPtr) (some 0xFFFF8000000000A0) }
  left := Function.update idleRun.left shellPtr (initialRegisters 0x101000 shellFrame).cpu

/-- The idle loop after a number of ticks, with the shell ready. -/
structure Idling (request : Bool) (n : ℕ) (s : PreemptRun) : Prop where
  run : ∃ es, (preemptMachine.restrict KeepsSleepers).Run idleRun es s
  refines : ∃ a, IrqRefines s.irqs a ∧ a.timerOn = true ∧ a.timer = request
  tasks : s.irqs.tasks = SchedRun.tick^[n] shellTasks
  left : s.left shellPtr = (initialRegisters 0x101000 shellFrame).cpu

namespace Idling

variable {request : Bool} {n : ℕ} {s : PreemptRun}

lemma current (h : Idling request n s) :
    s.irqs.tasks.sched.currentTask = some 0xFFFF800000000000 := by
  rw [h.tasks, SchedRun.tick_iterate]
  rfl

lemma waiting_iff (h : Idling request n s) (t : Ptr) : s.Waiting t ↔ t = shellPtr := by
  have hlist : s.irqs.tasks.sched.taskList = [0xFFFF800000000000, shellPtr] := by
    rw [h.tasks, SchedRun.tick_iterate]
    rfl
  rw [PreemptRun.Waiting, hlist, h.current]
  constructor
  · rintro ⟨hmem, hne⟩
    rcases List.mem_cons.mp hmem with rfl | hmem
    · exact absurd rfl hne
    · exact List.mem_singleton.mp hmem
  · rintro rfl
    exact ⟨by decide, by decide⟩

lemma context (h : Idling request n s) : s.irqs.tasks.context shellPtr = shellFrame := by
  rw [h.tasks, SchedRun.tick_iterate]
  rfl

/-- The ticks are counted from zero. -/
lemma toNat_pitTicks (hn : n ≤ 10) :
    (SchedRun.tick^[n] shellTasks).sched.pitTicks.toNat = n := by
  have hticks : (SchedRun.tick^[n] shellTasks).sched.pitTicks = BitVec.ofNat 64 n := by
    rw [SchedRun.tick_iterate]
    exact zero_add _
  rw [hticks, BitVec.toNat_ofNat, Nat.mod_eq_of_lt (by omega)]

/-- The frame of an interrupt lies below that of the shell. -/
lemma framesKept (h : Idling request n s) : s.FramesKept s.pushed := by
  obtain ⟨a, ha, -⟩ := h.refines
  obtain ⟨line, t, hm, -⟩ := PreemptInv.interrupt_eq ha false 0x4FFF00 0x1E s.machine.mem
  intro t' ht'
  obtain rfl := (h.waiting_iff t').mp ht'
  rw [h.context, PreemptRun.pushed, hm]
  refine readFrame_congr fun k hk => irqWords_outside line _ (by decide) (Or.inl ?_)
  have hframe : shellFrame.toNat = 0xFFFF800000003FD0 := by decide
  have htop : (0x4FFF00 : BitVec 64).toNat = 0x4FFF00 := rfl
  rw [BitVec.toNat_add, BitVec.toNat_ofNat, hframe, htop]
  omega

/-- The condition is kept: the idle loop does not sleep. -/
lemma admissible (h : Idling request n s) (hn : n < 10) :
    (preemptMachine.restrict KeepsSleepers).admissible s
      (.interrupt false 0x4FFF00 0x1E s.pushed) := by
  refine ⟨⟨?_, by decide, h.framesKept, fun m hm => ?_⟩, fun _ _ => Or.inl fun t ht => ?_⟩
  · show s.irqs.tasks.sched.pitTicks.toNat + 1 < 2 ^ 64
    rw [h.tasks, toNat_pitTicks hn.le]
    omega
  · rw [PreemptRun.pushed, Option.mem_def.mp hm]
    rfl
  · have htick : s.irqs.tasks.tick = SchedRun.tick^[n + 1] shellTasks := by
      rw [h.tasks, Function.iterate_succ_apply']
    rw [htick, SchedRun.tick_iterate] at ht ⊢
    obtain rfl := Option.some.inj ht
    have hrunning : (shellTasks.sched.tcb 0xFFFF800000000000).state ≠ .sleeping := by decide
    exact hrunning

/-- A request of the timer. -/
lemma requested (h : Idling false n s) : Idling true n s.requested := by
  obtain ⟨⟨es, hrun⟩, ⟨a, ha, hon, htimer⟩, htasks, hleft⟩ := h
  have hadm : (preemptMachine.restrict KeepsSleepers).admissible s
      (.call (.raise Pics.timerLine)) := ⟨⟨trivial, trivial⟩, trivial⟩
  obtain ⟨b, -, hb, hrel⟩ := ha.step (e := .raise Pics.timerLine) trivial rfl
  obtain rfl := Option.some.inj hb
  exact ⟨⟨_, hrun.snoc hadm rfl⟩, ⟨_, hrel, hon, by simp⟩, htasks, hleft⟩

/-- What the interrupt of the timer does to the scheduler. -/
lemma interrupt_eq (h : Idling true n s) (hn : n < 10) :
    ∃ u, s.interrupt false 0x4FFF00 0x1E s.pushed = some u
      ∧ (∃ a, IrqRefines u.irqs a ∧ a.timerOn = true ∧ a.timer = false)
      ∧ u.irqs.tasks =
        (if n + 1 = 10 then (SchedRun.tick^[n + 1] shellTasks).switch (0x4FFF00 - 208)
          else SchedRun.tick^[n + 1] shellTasks)
      ∧ u.left = PreemptInv.leftAfter s u.irqs.tasks.sched.currentTask := by
  obtain ⟨a, ha, hon, htimer⟩ := h.refines
  obtain ⟨line, t, -, -, hrel, hu⟩ := PreemptInv.interrupt_eq ha false 0x4FFF00 0x1E s.pushed
  have hmodel : a.interrupt (0x4FFF00 - 208) 0x1E = a.tick (0x4FFF00 - 208) :=
    if_pos ⟨hon, htimer⟩
  rw [hmodel] at hrel
  obtain ⟨htimer', -, hon', -⟩ := a.tick_rest (0x4FFF00 - 208)
  have htick : a.tasks.tick = SchedRun.tick^[n + 1] shellTasks := by
    rw [← ha.tasks, h.tasks, Function.iterate_succ_apply']
  have hticks : a.tasks.tick.sched.pitTicks.toNat % 10 = 0 ↔ n + 1 = 10 := by
    rw [htick, toNat_pitTicks hn]
    omega
  refine ⟨_, hu, ⟨_, hrel, hon'.trans hon, htimer'⟩, ?_, rfl⟩
  rw [hrel.tasks, IrqModel.tick]
  simp only [hticks]
  split_ifs
  · exact congrArg (fun r => SchedRun.switch r _) htick
  · exact htick

/-- A tick that is no tenth one. -/
lemma ticked (h : Idling false n s) (hn : n + 1 < 10) : Idling false (n + 1) s.ticked := by
  have hreq := h.requested
  obtain ⟨u, hu, hrefines, htasks, hleft⟩ := hreq.interrupt_eq (by omega)
  have hticked : s.ticked = u := by
    rw [PreemptRun.ticked, hu]
    rfl
  rw [if_neg (by omega)] at htasks
  have hcurrent : u.irqs.tasks.sched.currentTask = s.irqs.tasks.sched.currentTask := by
    rw [htasks, h.current, SchedRun.tick_iterate]
    rfl
  obtain ⟨es, hrun⟩ := hreq.run
  rw [hticked]
  refine ⟨⟨_, hrun.snoc (hreq.admissible (by omega)) hu⟩, hrefines, htasks, ?_⟩
  rw [hleft, hcurrent, h.current, PreemptInv.leftAfter, hreq.current]
  exact (congrFun (if_pos rfl) _).trans h.left

lemma start : Idling false 0 shellReady := by
  have hcreate : preemptMachine.admissible idleRun (.create "shell".toList 0x102000 0x101000 16384
      (some shellPtr) (some 0xFFFF8000000000A0)) := by
    refine ⟨by decide, by decide, ?_, fun t ht => ?_⟩
    · rintro t ⟨⟩ p ⟨⟩
      exact ⟨by decide, by decide⟩
    · exact absurd (congrArg some (List.mem_singleton.mp ht.1).symm) ht.2
  have hadm : (preemptMachine.restrict KeepsSleepers).admissible idleRun (.create "shell".toList
      0x102000 0x101000 16384 (some shellPtr) (some 0xFFFF8000000000A0)) := ⟨hcreate, trivial⟩
  obtain ⟨b, -, hb, hrel⟩ := (IrqRefines.init foundPics ⟨fun _ => 0, 0, 0⟩ shellTasks []).step
    (e := .unmaskTimer) trivial rfl
  obtain rfl := Option.some.inj hb
  have hunmask : ∀ s, (preemptMachine.restrict KeepsSleepers).admissible s (.call .unmaskTimer) :=
    fun _ => ⟨⟨trivial, trivial⟩, trivial⟩
  refine ⟨⟨_, (EventMachine.Run.single hadm rfl).snoc (hunmask _) rfl⟩,
    ⟨_, hrel, rfl, rfl⟩, rfl, ?_⟩
  dsimp only [shellReady]
  exact Function.update_self ..

/-- Nine ticks. -/
lemma iterate_ticked (hn : n < 10) : Idling false n (PreemptRun.ticked^[n] shellReady) := by
  induction n with
  | zero => exact start
  | succ n ih =>
      rw [Function.iterate_succ_apply']
      exact (ih (by omega)).ticked hn

end Idling

/-- The timer requests its tenth interrupt, and the shell is ready. -/
def tenthTick : PreemptRun := (PreemptRun.ticked^[9] shellReady).requested

/-- **A switch**: the tenth tick takes the processor from the idle loop, and the shell starts with
the registers of its first frame. -/
theorem preemption_transparent_shell :
    tenthTick.Waiting shellPtr
      ∧ ∃ u, tenthTick.interrupt false 0x4FFF00 0x1E tenthTick.pushed = some u
        ∧ Transparent tenthTick u
        ∧ u.irqs.tasks.sched.currentTask = some shellPtr
        ∧ u.machine.cpu = (initialRegisters 0x101000 shellFrame).cpu := by
  have hidle : Idling true 9 tenthTick := (Idling.iterate_ticked (by decide)).requested
  have hseg : idleCpu.SegmentsOk := fun x => Or.inr (by cases x <;> decide)
  obtain ⟨es, hrun⟩ := hidle.run
  obtain ⟨u, hu, htransparent⟩ := preemption_transparent foundPics _ default _ idleMachine _ hseg
    hrun (hidle.admissible (by decide))
  obtain ⟨v, hv, -, htasks, -⟩ := hidle.interrupt_eq (by decide)
  obtain rfl := Option.some.inj (hu.symm.trans hv)
  have hshell : u.irqs.tasks.sched.currentTask = some shellPtr := by
    rw [htasks]
    decide
  have hidleTask : tenthTick.irqs.tasks.sched.currentTask ≠ some shellPtr := by
    rw [hidle.current]
    decide
  exact ⟨(hidle.waiting_iff shellPtr).mpr rfl, u, hu, htransparent, hshell,
    (htransparent.resumed shellPtr hshell hidleTask).trans hidle.left⟩

end KiOS
