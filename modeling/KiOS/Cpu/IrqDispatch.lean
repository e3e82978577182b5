import KiOS.Cpu.Pic
import KiOS.Task.Runs
import KiOS.Drivers.KeyboardIrq

/-!
Hardware interrupts from the controllers to the handlers (`isr.c`, `pit.c`, `keyboard_irq.c`,
`main.c`).

* `IrqState`: the controllers, the table of handlers, the variables of the timer, the scheduler
  and the ring of the keyboard;
* `irqInstallHandler`, `irqUninstallHandler`, `irqSetNewStack`, `pitIrqHandler`, `irqHandler`: the
  source's functions;
* `kernelMain`: what `kernel_main` sets up before `sti`; `irqMachine`: any order of requests,
  interrupts and work of the code they interrupt;
* `IrqModel`, `irqModel`: what the interrupts are for: a timer and a keyboard;
* `irq_refines`: the kernel's interrupts refine it and never break down;
* `taskEvents`, `inputEvents`: what an event of a run is for the scheduler and for the ring;
* `EveryTenth`, `timer_schedules`: the scheduler's and the keyboard's part of every run.
-/

namespace KiOS

/-- The functions that the kernel installs as handlers. -/
inductive IrqHandler where
  | pitIrqHandler
  | keyboardIrqHandler
  deriving DecidableEq, Repr

/-- The variables behind the interrupts. -/
structure IrqState where
  pics : Pics
  /-- `irq_handlers`, `none` for NULL. -/
  irqHandlers : Fin 16 → Option IrqHandler
  /-- `new_task_regs`, `0` for NULL. -/
  newTaskRegs : Ptr
  schedulerEnabled : Bool
  /-- The scheduler, with `pit_ticks`. -/
  tasks : SchedRun
  /-- The ring of the keyboard and its reader. -/
  input : KbRun

/-! ### The source's functions -/

/-- `irq_install_handler`. -/
def irqInstallHandler (irq : ℤ) (handler : Option IrqHandler) (s : IrqState) : IrqState :=
  if h : 0 ≤ irq ∧ irq < 16 then
    { s with irqHandlers := Function.update s.irqHandlers ⟨irq.toNat, by omega⟩ handler }
  else s

/-- `irq_uninstall_handler`. -/
def irqUninstallHandler (irq : ℤ) (s : IrqState) : IrqState := irqInstallHandler irq none s

/-- `irq_set_new_stack`. -/
def irqSetNewStack (newRegs : Ptr) (s : IrqState) : IrqState := { s with newTaskRegs := newRegs }

/-- `pit_irq_handler`. -/
def pitIrqHandler (regs : Ptr) (s : IrqState) : IrqState :=
  let s := { s with tasks := s.tasks.tick }
  if s.schedulerEnabled = true ∧ s.tasks.sched.pitTicks % 10 = 0 then
    let newRegs := (taskSwitch regs s.tasks.sched).1
    let s := { s with tasks := s.tasks.switch regs }
    if newRegs ≠ regs then irqSetNewStack newRegs s else s
  else s

/-- A call through the table, for the scancode that the keyboard has for its handler. -/
def IrqHandler.call (regs : Ptr) (scancode : BitVec 8) (s : IrqState) : IrqHandler → IrqState
  | .pitIrqHandler => KiOS.pitIrqHandler regs s
  | .keyboardIrqHandler => { s with input := s.input.irq scancode }

/-- The first part of `irq_handler`: the handler of the line is called, if there is one. -/
def IrqState.called (regs : Ptr) (scancode : BitVec 8) (line : Fin 16) (s : IrqState) : IrqState :=
  let s := { s with newTaskRegs := 0 }
  match s.irqHandlers line with
  | some handler => handler.call regs scancode s
  | none => s

/-- `irq_handler`, for the frame at `regs` and its `int_no`; `none` if it reads `irq_handlers`
outside the table. -/
def irqHandler (regs : Ptr) (intNo : BitVec 64) (scancode : BitVec 8) (s : IrqState) :
    Option (Ptr × IrqState) :=
  let irq : ℤ := ((intNo - 32).setWidth 32).toInt
  if h : 0 ≤ irq ∧ irq < 16 then
    let s := s.called regs scancode ⟨irq.toNat, by omega⟩
    let s : IrqState := if 8 ≤ irq then { s with pics := s.pics.outb pic2Command picEoi } else s
    let s : IrqState := { s with pics := s.pics.outb pic1Command picEoi }
    some (if s.newTaskRegs ≠ 0 then s.newTaskRegs else regs, s)
  else none

/-- An interrupt: the processor takes the vector, and the stub of its gate calls `irq_handler`. -/
def takeInterrupt (held : Bool) (regs : Ptr) (scancode : BitVec 8) (s : IrqState) :
    Option (Ptr × IrqState) :=
  let r := s.pics.inta held
  r.1.bind fun v => irqHandler regs (v.setWidth 64) scancode { s with pics := r.2 }

/-- `pit_init`, without the ports of the timer itself. -/
def pitInit (s : IrqState) : IrqState := irqInstallHandler 0 (some .pitIrqHandler) s

/-- `pit_enable_scheduler`. -/
def pitEnableScheduler (s : IrqState) : IrqState := { s with schedulerEnabled := true }

/-- `keyboard_irq_init`, for a ring whose indices it has set to zero. -/
def keyboardIrqStart (s : IrqState) : IrqState :=
  let s := irqInstallHandler 1 (some .keyboardIrqHandler) s
  { s with pics := picClearMask 1 s.pics }

/-- The loop of `kernel_main` that masks every line. -/
def maskAll (p : Pics) : Pics :=
  (List.range 16).foldl (fun p i => picSetMask (BitVec.ofNat 8 i) p) p

/-- What `kernel_main` has set up of this when it enables interrupts, from any controllers and any
contents of memory. The tasks are those of `task_init` and the shell. -/
def kernelMain (p : Pics) (b : KbBuffer) (tasks : SchedRun) : IrqState :=
  let s : IrqState :=
    { pics := maskAll (picRemap 32 40 p)
      irqHandlers := fun _ => none
      newTaskRegs := 0
      schedulerEnabled := false
      tasks := tasks
      input := KbRun.init b }
  pitEnableScheduler (keyboardIrqStart (pitInit s))

/-- `task_init` and the creation of the shell, with `pit_ticks` at zero. -/
def kernelTasks (s : Sched) (kernelTask : Option Ptr) (shellTask : BitVec 64)
    (task stack : Option Ptr) : SchedRun :=
  (SchedRun.init kernelTask { s with pitTicks := 0 }).create
    "shell".toList shellTask 16384 task stack

/-! ### Runs -/

inductive IrqEvent where
  | raise (line : Fin 16)
  | withdraw (line : Fin 16)
  /-- `pic_clear_mask(0)`, behind the `sti` of `kernel_main`. -/
  | unmaskTimer
  | interrupt (held : Bool) (regs : Ptr) (scancode : BitVec 8)
  /-- The running code calls the scheduler. -/
  | task (e : SchedEvent)
  /-- The running code reads the keyboard's ring. -/
  | input (e : KbEvent)

/-- What code outside the interrupts calls of the scheduler. -/
def SchedEvent.Called : SchedEvent → Prop
  | .create .. | .sleep _ | .exit => True
  | .switch _ | .tick => False

/-- What it calls of the keyboard. -/
def KbEvent.Called : KbEvent → Prop
  | .has | .get => True
  | .irq _ => False

/-- Requests, interrupts and the work between them in any order. As interrupts are off until the
stub returns, the handlers run at once. `pit_ticks` does not wrap. -/
def irqMachine : EventMachine IrqState IrqEvent where
  admissible s
    | .interrupt .. => s.tasks.sched.pitTicks.toNat + 1 < 2 ^ 64
    | .task e => e.Called ∧ schedMachine.admissible s.tasks e
    | .input e => e.Called ∧ kbMachine.admissible s.input e
    | _ => True
  step s
    | .raise line => some { s with pics := s.pics.raise line }
    | .withdraw line => some { s with pics := s.pics.withdraw line }
    | .unmaskTimer => some { s with pics := picClearMask 0 s.pics }
    | .interrupt held regs scancode => (takeInterrupt held regs scancode s).map Prod.snd
    | .task e => (schedMachine.step s.tasks e).map fun tasks => { s with tasks := tasks }
    | .input e => (kbMachine.step s.input e).map fun input => { s with input := input }

instance : DecidablePred SchedEvent.Called
  | .create .. => inferInstanceAs (Decidable True)
  | .sleep _ => inferInstanceAs (Decidable True)
  | .exit => inferInstanceAs (Decidable True)
  | .switch _ => inferInstanceAs (Decidable False)
  | .tick => inferInstanceAs (Decidable False)

instance : DecidablePred KbEvent.Called
  | .has => inferInstanceAs (Decidable True)
  | .get => inferInstanceAs (Decidable True)
  | .irq _ => inferInstanceAs (Decidable False)

instance (s : IrqState) : (e : IrqEvent) → Decidable (irqMachine.admissible s e)
  | .raise _ => inferInstanceAs (Decidable True)
  | .withdraw _ => inferInstanceAs (Decidable True)
  | .unmaskTimer => inferInstanceAs (Decidable True)
  | .interrupt .. => inferInstanceAs (Decidable (_ < _))
  | .task e => inferInstanceAs (Decidable (e.Called ∧ schedMachine.admissible s.tasks e))
  | .input e => inferInstanceAs (Decidable (e.Called ∧ kbMachine.admissible s.input e))

/-- What an event is for the scheduler: an interrupt of the timer is a tick, with a switch if it
is a tenth one. -/
def taskEvents (s : IrqState) : IrqEvent → List SchedEvent
  | .task e => [e]
  | .interrupt _ regs _ =>
      if s.pics.Enabled Pics.timerLine then
        if (s.tasks.sched.pitTicks.toNat + 1) % 10 = 0 then [.tick, .switch regs] else [.tick]
      else []
  | _ => []

/-- What an event is for the ring of the keyboard, whose interrupts come after the timer's. -/
def inputEvents (s : IrqState) : IrqEvent → List KbEvent
  | .input e => [e]
  | .interrupt _ _ scancode =>
      if s.pics.Enabled Pics.timerLine then []
      else if s.pics.Enabled Pics.keyboardLine then [.irq scancode]
      else []
  | _ => []

/-! ### What the interrupts are for -/

/-- Two devices that may each have a request, with what their interrupts did. -/
structure IrqModel where
  timer : Bool
  keyboard : Bool
  /-- The timer may interrupt. -/
  timerOn : Bool
  tasks : SchedRun
  input : KbRun
  /-- What happened to the scheduler. -/
  taskLog : List SchedEvent
  /-- What happened to the ring. -/
  inputLog : List KbEvent

namespace IrqModel

/-- The frame that a tenth tick resumes. -/
def resumed (regs : Ptr) (tasks : SchedRun) : Ptr :=
  if (taskSwitch regs tasks.sched).1 = 0 then regs else (taskSwitch regs tasks.sched).1

/-- An interrupt of the timer: the frame to return to, and what becomes of the model. -/
def tick (regs : Ptr) (a : IrqModel) : Ptr × IrqModel :=
  let a := { a with timer := false, tasks := a.tasks.tick, taskLog := a.taskLog ++ [.tick] }
  if a.tasks.sched.pitTicks.toNat % 10 = 0 then
    (resumed regs a.tasks,
      { a with tasks := a.tasks.switch regs, taskLog := a.taskLog ++ [.switch regs] })
  else (regs, a)

/-- An interrupt: the timer comes first, and without a request nothing happens. -/
def interrupt (regs : Ptr) (scancode : BitVec 8) (a : IrqModel) : Ptr × IrqModel :=
  if a.timerOn = true ∧ a.timer = true then a.tick regs
  else if a.keyboard = true then
    (regs,
      { a with
        keyboard := false
        input := a.input.irq scancode
        inputLog := a.inputLog ++ [.irq scancode] })
  else (regs, a)

end IrqModel

/-- The model of the interrupts. -/
def irqModel : EventMachine IrqModel IrqEvent where
  admissible a
    | .interrupt .. => a.tasks.sched.pitTicks.toNat + 1 < 2 ^ 64
    | .task e => e.Called ∧ schedMachine.admissible a.tasks e
    | .input e => e.Called ∧ kbMachine.admissible a.input e
    | _ => True
  step a
    | .raise line =>
        some
          { a with
            timer := a.timer || line = Pics.timerLine
            keyboard := a.keyboard || line = Pics.keyboardLine }
    | .withdraw line =>
        some
          { a with
            timer := a.timer && line ≠ Pics.timerLine
            keyboard := a.keyboard && line ≠ Pics.keyboardLine }
    | .unmaskTimer => some { a with timerOn := true }
    | .interrupt _ regs scancode => some (a.interrupt regs scancode).2
    | .task e => (schedMachine.step a.tasks e).map fun tasks =>
        { a with tasks := tasks, taskLog := a.taskLog ++ [e] }
    | .input e => (kbMachine.step a.input e).map fun input =>
        { a with input := input, inputLog := a.inputLog ++ [e] }

/-- The model when interrupts are enabled. -/
def IrqModel.init (b : KbBuffer) (tasks : SchedRun) (taskLog : List SchedEvent) : IrqModel where
  timer := false
  keyboard := false
  timerOn := false
  tasks := tasks
  input := KbRun.init b
  taskLog := taskLog
  inputLog := []

/-- The kernel's state and the model's: the requests of the two devices, the masks, the table and
what the handlers work on. -/
structure IrqRefines (s : IrqState) (a : IrqModel) : Prop where
  pics : PicInv s.pics
  timer : s.pics.master.irr.getLsbD 0 = a.timer
  keyboard : s.pics.master.irr.getLsbD 1 = a.keyboard
  masterMask : s.pics.master.imr = if a.timerOn then 0xFC else 0xFD
  slaveMask : s.pics.slave.imr = 0xFF
  handlers : ∀ line, s.irqHandlers line
    = if line = 0 then some .pitIrqHandler else if line = 1 then some .keyboardIrqHandler else none
  schedulerEnabled : s.schedulerEnabled = true
  tasks : s.tasks = a.tasks
  input : s.input = a.input

/-! ### The start -/

/-- The mask of one line set, in a pair between two interrupts. -/
lemma picSetMask_eq {p : Pics} (h : PicInv p) {i : ℕ} (hi : i < 16) :
    picSetMask (BitVec.ofNat 8 i) p
      = if i < 8 then { p with master := { p.master with imr := p.master.imr.withBit i } }
        else { p with slave := { p.slave with imr := p.slave.imr.withBit (i - 8) } } := by
  have hline : ∀ i : Fin 16, picLine (BitVec.ofNat 8 i)
      = if i.val < 8 then (pic1Data, i.val) else (pic2Data, i.val - 8) := by decide
  rw [picSetMask, hline ⟨i, hi⟩]
  dsimp only
  split_ifs with hlt
  · rw [(h.outData _).1, Pics.inb_pic1Data]
  · rw [(h.outData _).2, Pics.inb_pic2Data]

/-- The loop that masks every line, with the lines already masked. -/
lemma maskAll_prefix {p : Pics} (h : PicInv p) {n : ℕ} (hn : n ≤ 16) :
    let q := (List.range n).foldl (fun p i => picSetMask (BitVec.ofNat 8 i) p) p
    PicInv q ∧ q.master.irr = p.master.irr
      ∧ (∀ j < 8, j < n → q.master.imr.getLsbD j = true)
      ∧ ∀ j < 8, 8 + j < n → q.slave.imr.getLsbD j = true := by
  induction n with
  | zero => exact ⟨h, rfl, fun j _ hj => absurd hj (by omega), fun j _ hj => absurd hj (by omega)⟩
  | succ n ih =>
      obtain ⟨hinv, hirr, hmaster, hslave⟩ := ih (by omega)
      rw [List.range_succ, List.foldl_append]
      simp only [List.foldl_cons, List.foldl_nil]
      generalize (List.range n).foldl (fun p i => picSetMask (BitVec.ofNat 8 i) p) p = q at *
      refine ⟨hinv.mask _ _, ?_, fun j hj hjn => ?_, fun j hj hjn => ?_⟩ <;>
        rw [picSetMask_eq hinv (by omega)] <;> split_ifs with hlt
      · exact hirr
      · exact hirr
      · rw [BitVec.getLsbD_withBit hj]
        by_cases heq : j = n
        · simp [heq]
        · simp [hmaster j hj (by omega)]
      · exact hmaster j hj (by omega)
      · exact absurd hjn (by omega)
      · rw [BitVec.getLsbD_withBit hj]
        by_cases heq : j = n - 8
        · simp [heq]
        · simp [hslave j hj (by omega)]

/-- Every line is masked. -/
lemma maskAll_eq {p : Pics} (h : PicInv p) :
    PicInv (maskAll p) ∧ (maskAll p).master.irr = p.master.irr
      ∧ (maskAll p).master.imr = 0xFF ∧ (maskAll p).slave.imr = 0xFF := by
  obtain ⟨hinv, hirr, hmaster, hslave⟩ := maskAll_prefix h (n := 16) le_rfl
  have hones : ∀ j < 8, (0xFF : BitVec 8).getLsbD j = true := by decide
  refine ⟨hinv, hirr, BitVec.eq_of_getLsbD_eq fun j hj => ?_,
    BitVec.eq_of_getLsbD_eq fun j hj => ?_⟩
  · exact (hmaster j hj (by omega)).trans (hones j hj).symm
  · exact (hslave j hj (by omega)).trans (hones j hj).symm

/-- A line of the master unmasked. -/
lemma picClearMask_eq {p : Pics} (h : PicInv p) {irqLine : BitVec 8} (hlt : irqLine < 8) :
    picClearMask irqLine p
      = { p with
          master := { p.master with imr := p.master.imr.withoutBit irqLine.toNat } } := by
  rw [picClearMask, picLine, if_pos hlt]
  dsimp only
  rw [(h.outData _).1, Pics.inb_pic1Data]

/-- The kernel starts as the model does. -/
lemma IrqRefines.init (p : Pics) (b : KbBuffer) (tasks : SchedRun) (taskLog : List SchedEvent) :
    IrqRefines (kernelMain p b tasks) (IrqModel.init b tasks taskLog) := by
  obtain ⟨hinv, hirr, hmaster, hslave⟩ := maskAll_eq (PicInv.remap p)
  have hclear : picClearMask 1 (maskAll (picRemap 32 40 p))
      = { maskAll (picRemap 32 40 p) with
          master := { (maskAll (picRemap 32 40 p)).master with imr := 0xFD } } := by
    rw [picClearMask_eq hinv (by decide), hmaster]
    rfl
  have hirr0 : (maskAll (picRemap 32 40 p)).master.irr = 0 := by
    rw [hirr, picRemap_eq]
  have hstate : kernelMain p b tasks =
      { pics :=
          { maskAll (picRemap 32 40 p) with
            master := { (maskAll (picRemap 32 40 p)).master with imr := 0xFD } }
        irqHandlers :=
          Function.update (Function.update (fun _ => none) 0 (some .pitIrqHandler)) 1
            (some .keyboardIrqHandler)
        newTaskRegs := 0
        schedulerEnabled := true
        tasks := tasks
        input := KbRun.init b } := by
    rw [← hclear]
    rfl
  rw [hstate]
  refine ⟨⟨?_, hinv.slave, hinv.line2⟩, ?_, ?_, rfl, hslave, fun line => ?_, rfl, rfl, rfl⟩
  · nth_rewrite 1 [hinv.master]
    rfl
  · rw [hirr0]
    exact BitVec.getLsbD_zero
  · rw [hirr0]
    exact BitVec.getLsbD_zero
  · by_cases h1 : line = 1
    · subst h1
      rfl
    · rw [if_neg h1]
      by_cases h0 : line = 0
      · subst h0
        rfl
      · simp only [Function.update_of_ne h1, Function.update_of_ne h0, if_neg h0]

/-! ### An interrupt -/

/-- The handlers leave the controllers alone. -/
lemma IrqHandler.call_pics (handler : IrqHandler) (regs : Ptr) (scancode : BitVec 8)
    (s : IrqState) : (handler.call regs scancode s).pics = s.pics := by
  cases handler with
  | keyboardIrqHandler => rfl
  | pitIrqHandler =>
      simp only [call, KiOS.pitIrqHandler]
      split_ifs <;> rfl

lemma IrqState.called_pics (regs : Ptr) (scancode : BitVec 8) (line : Fin 16) (s : IrqState) :
    (s.called regs scancode line).pics = s.pics := by
  rw [called]
  dsimp only
  cases s.irqHandlers line with
  | none => rfl
  | some handler => exact handler.call_pics ..

/-- **`irq_handler` for a vector of the controllers** reads inside the table, calls the handler of
the line and ends its service. -/
lemma irqHandler_line (regs : Ptr) (line : Fin 16) (scancode : BitVec 8) (s : IrqState) :
    irqHandler regs ((32 + BitVec.ofNat 8 line).setWidth 64) scancode s
      = some
        (if (s.called regs scancode line).newTaskRegs ≠ 0 then
            (s.called regs scancode line).newTaskRegs
          else regs,
          { s.called regs scancode line with
            pics := picSendEoi (BitVec.ofNat 8 line) s.pics }) := by
  have hirq : ∀ line : Fin 16,
      ((((32 + BitVec.ofNat 8 line).setWidth 64 : BitVec 64) - 32).setWidth 32).toInt
        = (line.val : ℤ) := by decide
  have hrange : 0 ≤ (line.val : ℤ) ∧ (line.val : ℤ) < 16 := by omega
  have hslave : ∀ line : Fin 16, (8 : BitVec 8) ≤ BitVec.ofNat 8 line ↔ 8 ≤ (line.val : ℤ) := by
    decide
  have hpics := s.called_pics regs scancode line
  simp only [irqHandler, hirq, dif_pos hrange, Int.toNat_natCast, Fin.eta, picSendEoi, hslave]
  split_ifs with hge hnew hnew <;> simp only [hpics]

/-- What the handlers do does not depend on the controllers. -/
lemma IrqState.called_with_pics (regs : Ptr) (scancode : BitVec 8) (line : Fin 16) (s : IrqState)
    (p : Pics) : IrqState.called regs scancode line { s with pics := p }
      = { s.called regs scancode line with pics := p } := by
  simp only [called]
  cases s.irqHandlers line with
  | none => rfl
  | some handler =>
      cases handler with
      | keyboardIrqHandler => rfl
      | pitIrqHandler =>
          simp only [IrqHandler.call, KiOS.pitIrqHandler]
          split_ifs <;> rfl

/-- An interrupt with the vector of a line. -/
lemma takeInterrupt_delivers {held : Bool} {line : Fin 16} {s : IrqState} {p : Pics}
    (h : s.pics.Delivers held line p) (regs : Ptr) (scancode : BitVec 8) :
    takeInterrupt held regs scancode s
      = some
        (if (s.called regs scancode line).newTaskRegs ≠ 0 then
            (s.called regs scancode line).newTaskRegs
          else regs,
          { s.called regs scancode line with pics := p }) := by
  obtain ⟨hvec, heoi⟩ := h
  rw [takeInterrupt]
  simp only [hvec, Option.bind_some]
  rw [irqHandler_line, heoi, IrqState.called_with_pics]

/-- The timer's handler on a tick that is not a tenth one. -/
lemma pitIrqHandler_between {s : IrqState} {regs : Ptr}
    (h : ¬ s.tasks.tick.sched.pitTicks.toNat % 10 = 0) :
    pitIrqHandler regs s = { s with tasks := s.tasks.tick } := by
  refine if_neg fun hcond => h ?_
  simpa using congrArg BitVec.toNat hcond.2

/-- On a tenth one. -/
lemma pitIrqHandler_tenth {s : IrqState} {regs : Ptr} (hen : s.schedulerEnabled = true)
    (h : s.tasks.tick.sched.pitTicks.toNat % 10 = 0) :
    pitIrqHandler regs s =
      { s with
        tasks := s.tasks.tick.switch regs
        newTaskRegs :=
          if (taskSwitch regs s.tasks.tick.sched).1 ≠ regs then
            (taskSwitch regs s.tasks.tick.sched).1
          else s.newTaskRegs } := by
  have hmod : s.tasks.tick.sched.pitTicks % 10 = 0 := by
    rw [← BitVec.toNat_inj, BitVec.toNat_umod]
    exact h
  refine (if_pos ⟨hen, hmod⟩).trans ?_
  dsimp only [irqSetNewStack]
  split_ifs <;> rfl

/-- **The handler of the timer** does what a tick of the model does. -/
lemma pitIrqHandler_tick {s : IrqState} {a : IrqModel} (hen : s.schedulerEnabled = true)
    (htasks : s.tasks = a.tasks) (hnew : s.newTaskRegs = 0) (regs : Ptr) :
    (if (pitIrqHandler regs s).newTaskRegs ≠ 0 then (pitIrqHandler regs s).newTaskRegs else regs)
        = (a.tick regs).1
      ∧ (pitIrqHandler regs s).tasks = (a.tick regs).2.tasks := by
  rw [IrqModel.tick]
  by_cases htenth : a.tasks.tick.sched.pitTicks.toNat % 10 = 0
  · rw [pitIrqHandler_tenth hen (htasks ▸ htenth), htasks, hnew]
    simp only [if_pos htenth, IrqModel.resumed, and_true]
    generalize (taskSwitch regs a.tasks.tick.sched).1 = r
    split_ifs <;> simp_all
  · rw [pitIrqHandler_between (htasks ▸ htenth), htasks, hnew]
    simp only [if_neg htenth, and_true]
    exact if_neg (not_not.mpr rfl)

/-- The requests of the two devices, and the masks, when a request is raised. -/
lemma raise_requests (p : Pics) (line : Fin 16) :
    (p.raise line).master.imr = p.master.imr ∧ (p.raise line).slave.imr = p.slave.imr
      ∧ ∀ j : Fin 16, j.val < 2 → (p.raise line).master.irr.getLsbD j
        = (p.master.irr.getLsbD j || line = j) := by
  rw [Pics.raise]
  split_ifs with h2 hlt
  · refine ⟨rfl, rfl, fun j hj => ?_⟩
    have hne : line ≠ j := by
      rintro rfl
      rw [h2] at hj
      exact absurd hj (by decide)
    simp [hne]
  · refine ⟨rfl, rfl, fun j hj => (BitVec.getLsbD_withBit (by omega)).trans ?_⟩
    simp [Fin.ext_iff, eq_comm]
  · refine ⟨rfl, rfl, fun j hj => ?_⟩
    have hne : line ≠ j := by
      rintro rfl
      omega
    simp [hne]

/-- The same when one is withdrawn. -/
lemma withdraw_requests (p : Pics) (line : Fin 16) :
    (p.withdraw line).master.imr = p.master.imr ∧ (p.withdraw line).slave.imr = p.slave.imr
      ∧ ∀ j : Fin 16, j.val < 2 → (p.withdraw line).master.irr.getLsbD j
        = (p.master.irr.getLsbD j && line ≠ j) := by
  rw [Pics.withdraw]
  split_ifs with hlt
  · refine ⟨rfl, rfl, fun j hj => (BitVec.getLsbD_withoutBit (by omega)).trans ?_⟩
    simp [Fin.ext_iff, eq_comm]
  · refine ⟨rfl, rfl, fun j hj => ?_⟩
    have hne : line ≠ j := by
      rintro rfl
      omega
    simp [hne]

/-- What a tick leaves alone. -/
lemma IrqModel.tick_rest (a : IrqModel) (regs : Ptr) :
    (a.tick regs).2.timer = false ∧ (a.tick regs).2.keyboard = a.keyboard
      ∧ (a.tick regs).2.timerOn = a.timerOn ∧ (a.tick regs).2.input = a.input := by
  rw [tick]
  dsimp only
  split_ifs <;> exact ⟨rfl, rfl, rfl, rfl⟩

/-- What the timer's handler leaves alone. -/
lemma pitIrqHandler_rest (s : IrqState) (regs : Ptr) :
    (pitIrqHandler regs s).irqHandlers = s.irqHandlers
      ∧ (pitIrqHandler regs s).schedulerEnabled = s.schedulerEnabled
      ∧ (pitIrqHandler regs s).input = s.input := by
  rw [pitIrqHandler]
  dsimp only [irqSetNewStack]
  split_ifs <;> exact ⟨rfl, rfl, rfl⟩

namespace IrqRefines

variable {s : IrqState} {a : IrqModel}

/-- Only the two devices may interrupt. -/
lemma enabled_iff (h : IrqRefines s a) (line : Fin 16) : s.pics.Enabled line
    ↔ (line = 0 ∧ a.timerOn = true ∧ a.timer = true) ∨ (line = 1 ∧ a.keyboard = true) := by
  have hmaster : ∀ line : Fin 16, line.val < 8 → s.pics.master.imr.getLsbD line
      = !(decide (line = 1) || (decide (line = 0) && a.timerOn)) := by
    rw [h.masterMask]
    cases a.timerOn <;> decide
  have hslave : ∀ line : Fin 16, ¬ line.val < 8 →
      s.pics.slave.imr.getLsbD (line.val - 8) = true := by
    rw [h.slaveMask]
    decide
  rw [Pics.Enabled]
  split_ifs with hlt
  · rw [hmaster line hlt]
    by_cases h0 : line = 0
    · subst h0
      have hirr : s.pics.master.irr.getLsbD (0 : Fin 16) = a.timer := h.timer
      rw [hirr]
      simp [and_comm]
    · by_cases h1 : line = 1
      · subst h1
        have hirr : s.pics.master.irr.getLsbD (1 : Fin 16) = a.keyboard := h.keyboard
        rw [hirr]
        simp
      · simp [h0, h1]
  · rw [hslave line hlt]
    have h0 : line ≠ 0 := by
      rintro rfl
      exact hlt (by decide)
    have h1 : line ≠ 1 := by
      rintro rfl
      exact hlt (by decide)
    simp [h0, h1]

/-- The line that an interrupt is for, if it is for one. -/
lemma interrupt_cases (h : IrqRefines s a) (held : Bool) :
    (a.timerOn = true ∧ a.timer = true ∧ s.pics.Delivers held 0 (s.pics.withdraw 0))
      ∨ (¬ (a.timerOn = true ∧ a.timer = true) ∧ a.keyboard = true
        ∧ s.pics.Delivers held 1 (s.pics.withdraw 1))
      ∨ (¬ (a.timerOn = true ∧ a.timer = true) ∧ a.keyboard = false
        ∧ s.pics.Delivers held 7 s.pics) := by
  rcases h.pics.interrupt held with ⟨line, ⟨hline, hfirst⟩, hdel⟩
    | ⟨⟨-, hmask, -⟩, -⟩ | ⟨hnone, hdel⟩
  · rcases (h.enabled_iff line).mp hline with ⟨rfl, hon, htimer⟩ | ⟨rfl, hkeyboard⟩
    · exact Or.inl ⟨hon, htimer, hdel⟩
    · refine Or.inr (Or.inl ⟨fun htimer => ?_, hkeyboard, hdel⟩)
      -- the timer would come first
      have hle := hfirst 0 ((h.enabled_iff 0).mpr (Or.inl ⟨rfl, htimer⟩))
      exact absurd hle (by decide)
  · -- line 2 is masked
    have hbit : ∀ on : Bool, (if on then (0xFC : BitVec 8) else 0xFD).getLsbD 2 = true := by decide
    rw [h.masterMask, hbit] at hmask
    cases hmask
  · refine Or.inr (Or.inr ⟨fun htimer => ?_, ?_, hdel⟩)
    · exact hnone 0 ((h.enabled_iff 0).mpr (Or.inl ⟨rfl, htimer⟩))
    · rw [Bool.eq_false_iff]
      intro hkeyboard
      exact hnone 1 ((h.enabled_iff 1).mpr (Or.inr ⟨rfl, hkeyboard⟩))

/-- What the handlers and the controllers' masks leave alone stays related. -/
lemma of_pics (h : IrqRefines s a) {t : IrqState} {b : IrqModel} (hpics : PicInv t.pics)
    (hmaster : t.pics.master.imr = s.pics.master.imr) (hslave : t.pics.slave.imr = s.pics.slave.imr)
    (htimer : t.pics.master.irr.getLsbD 0 = b.timer)
    (hkeyboard : t.pics.master.irr.getLsbD 1 = b.keyboard) (hon : b.timerOn = a.timerOn)
    (hhandlers : t.irqHandlers = s.irqHandlers) (hen : t.schedulerEnabled = s.schedulerEnabled)
    (htasks : t.tasks = b.tasks) (hinput : t.input = b.input) : IrqRefines t b where
  pics := hpics
  timer := htimer
  keyboard := hkeyboard
  masterMask := by rw [hmaster, h.masterMask, hon]
  slaveMask := hslave.trans h.slaveMask
  handlers := by
    rw [hhandlers]
    exact h.handlers
  schedulerEnabled := hen.trans h.schedulerEnabled
  tasks := htasks
  input := hinput

/-- **An interrupt refines that of the model**: it returns to the same frame and leaves related
states. -/
lemma interrupt (h : IrqRefines s a) (held : Bool) (regs : Ptr) (scancode : BitVec 8) :
    ∃ t, takeInterrupt held regs scancode s = some ((a.interrupt regs scancode).1, t)
      ∧ IrqRefines t (a.interrupt regs scancode).2 := by
  rcases h.interrupt_cases held with ⟨hon, htimer, hdel⟩ | ⟨hoff, hkeyboard, hdel⟩
    | ⟨hoff, hkeyboard, hdel⟩
  · have hcalled : s.called regs scancode 0 = pitIrqHandler regs { s with newTaskRegs := 0 } := by
      rw [IrqState.called]
      simp only [h.handlers]
      rfl
    have hmodel : a.interrupt regs scancode = a.tick regs := if_pos ⟨hon, htimer⟩
    obtain ⟨hret, htasks⟩ := pitIrqHandler_tick (s := { s with newTaskRegs := 0 })
      h.schedulerEnabled h.tasks rfl regs
    obtain ⟨hmaster, hslave, hirr⟩ := withdraw_requests s.pics 0
    rw [takeInterrupt_delivers hdel, hcalled, hret, hmodel]
    obtain ⟨htimer', hkeyboard', hon', hinput'⟩ := a.tick_rest regs
    obtain ⟨hhandlers, hen, hinput⟩ := pitIrqHandler_rest { s with newTaskRegs := 0 } regs
    refine ⟨_, rfl, h.of_pics (h.pics.withdraw 0) hmaster hslave ?_ ?_ hon'
      hhandlers hen htasks (hinput.trans (h.input.trans hinput'.symm))⟩
    · refine (hirr 0 (by decide)).trans ?_
      rw [htimer']
      exact Bool.and_false _
    · refine (hirr 1 (by decide)).trans ((Bool.and_true _).trans ?_)
      exact h.keyboard.trans hkeyboard'.symm
  · have hcalled : s.called regs scancode 1
        = { s with newTaskRegs := 0, input := s.input.irq scancode } := by
      rw [IrqState.called]
      simp only [h.handlers]
      rfl
    have hmodel : a.interrupt regs scancode
        = (regs,
            { a with
              keyboard := false
              input := a.input.irq scancode
              inputLog := a.inputLog ++ [.irq scancode] }) := by
      rw [IrqModel.interrupt, if_neg hoff, if_pos hkeyboard]
    obtain ⟨hmaster, hslave, hirr⟩ := withdraw_requests s.pics 1
    rw [takeInterrupt_delivers hdel, hcalled, hmodel]
    refine ⟨_, rfl, h.of_pics (h.pics.withdraw 1) hmaster hslave ?_ ?_ rfl rfl rfl
      h.tasks (congrArg (KbRun.irq · scancode) h.input)⟩
    · exact (hirr 0 (by decide)).trans ((Bool.and_true _).trans h.timer)
    · exact (hirr 1 (by decide)).trans (Bool.and_false _)
  · have hcalled : s.called regs scancode 7 = { s with newTaskRegs := 0 } := by
      rw [IrqState.called]
      simp only [h.handlers]
      rfl
    have hmodel : a.interrupt regs scancode = (regs, a) := by
      rw [IrqModel.interrupt, if_neg hoff, if_neg (by simp [hkeyboard])]
    rw [takeInterrupt_delivers hdel, hcalled, hmodel]
    exact ⟨_, rfl, h.of_pics h.pics rfl rfl h.timer h.keyboard rfl rfl rfl h.tasks h.input⟩

lemma raise (h : IrqRefines s a) (line : Fin 16) :
    IrqRefines { s with pics := s.pics.raise line }
      { a with timer := a.timer || line = 0, keyboard := a.keyboard || line = 1 } := by
  obtain ⟨hmaster, hslave, hirr⟩ := raise_requests s.pics line
  refine h.of_pics (h.pics.raise line) hmaster hslave ?_ ?_ rfl rfl rfl h.tasks h.input
  · exact (hirr 0 (by decide)).trans (congrArg (· || decide (line = 0)) h.timer)
  · exact (hirr 1 (by decide)).trans (congrArg (· || decide (line = 1)) h.keyboard)

lemma withdraw (h : IrqRefines s a) (line : Fin 16) :
    IrqRefines { s with pics := s.pics.withdraw line }
      { a with timer := a.timer && line ≠ 0, keyboard := a.keyboard && line ≠ 1 } := by
  obtain ⟨hmaster, hslave, hirr⟩ := withdraw_requests s.pics line
  refine h.of_pics (h.pics.withdraw line) hmaster hslave ?_ ?_ rfl rfl rfl h.tasks h.input
  · exact (hirr 0 (by decide)).trans (congrArg (· && decide (line ≠ 0)) h.timer)
  · exact (hirr 1 (by decide)).trans (congrArg (· && decide (line ≠ 1)) h.keyboard)

lemma unmaskTimer (h : IrqRefines s a) :
    IrqRefines { s with pics := picClearMask 0 s.pics } { a with timerOn := true } := by
  have hmask : ∀ on : Bool, (if on then (0xFC : BitVec 8) else 0xFD).withoutBit 0
      = 0xFC := by decide
  have hclear : picClearMask 0 s.pics
      = { s.pics with master := { s.pics.master with imr := 0xFC } } := by
    rw [picClearMask_eq h.pics (by decide), h.masterMask]
    exact congrArg (fun m => { s.pics with master := { s.pics.master with imr := m } }) (hmask _)
  have hpics : PicInv (picClearMask 0 s.pics) := h.pics.mask _ _
  refine ⟨hpics, ?_, ?_, ?_, ?_, h.handlers, h.schedulerEnabled, h.tasks, h.input⟩ <;>
    simp only [hclear]
  · exact h.timer
  · exact h.keyboard
  · rfl
  · exact h.slaveMask

/-- Every event of the kernel is one of the model. -/
lemma step (h : IrqRefines s a) {e : IrqEvent} {t : IrqState} (hadm : irqMachine.admissible s e)
    (hst : irqMachine.step s e = some t) :
    ∃ b, irqModel.admissible a e ∧ irqModel.step a e = some b ∧ IrqRefines t b := by
  cases e with
  | raise line => exact ⟨_, trivial, rfl, Option.some.inj hst ▸ h.raise line⟩
  | withdraw line => exact ⟨_, trivial, rfl, Option.some.inj hst ▸ h.withdraw line⟩
  | unmaskTimer => exact ⟨_, trivial, rfl, Option.some.inj hst ▸ h.unmaskTimer⟩
  | interrupt held regs scancode =>
      obtain ⟨t', ht', hrel⟩ := h.interrupt held regs scancode
      simp only [irqMachine, ht', Option.map_some, Option.some.injEq] at hst
      refine ⟨_, ?_, rfl, hst ▸ hrel⟩
      simpa only [irqMachine, irqModel, h.tasks] using hadm
  | task e =>
      obtain ⟨tasks, htasks, rfl⟩ := Option.map_eq_some_iff.mp hst
      rw [h.tasks] at htasks
      refine ⟨{ a with tasks := tasks, taskLog := a.taskLog ++ [e] }, ?_, ?_, ?_⟩
      · simpa only [irqMachine, irqModel, h.tasks] using hadm
      · simp only [irqModel, htasks, Option.map_some]
      · exact h.of_pics h.pics rfl rfl h.timer h.keyboard rfl rfl rfl rfl h.input
  | input e =>
      obtain ⟨input, hinput, rfl⟩ := Option.map_eq_some_iff.mp hst
      rw [h.input] at hinput
      refine ⟨{ a with input := input, inputLog := a.inputLog ++ [e] }, ?_, ?_, ?_⟩
      · simpa only [irqMachine, irqModel, h.input] using hadm
      · simp only [irqModel, hinput, Option.map_some]
      · exact h.of_pics h.pics rfl rfl h.timer h.keyboard rfl rfl rfl h.tasks rfl

/-- The model writes down what an interrupt is for. -/
lemma interrupt_logs (h : IrqRefines s a) (hwrap : s.tasks.sched.pitTicks.toNat + 1 < 2 ^ 64)
    (held : Bool) (regs : Ptr) (scancode : BitVec 8) :
    (a.interrupt regs scancode).2.taskLog
        = a.taskLog ++ taskEvents s (.interrupt held regs scancode)
      ∧ (a.interrupt regs scancode).2.inputLog
        = a.inputLog ++ inputEvents s (.interrupt held regs scancode) := by
  have htimer : s.pics.Enabled Pics.timerLine ↔ a.timerOn = true ∧ a.timer = true := by
    simp [h.enabled_iff]
  have hkeyboard : s.pics.Enabled Pics.keyboardLine ↔ a.keyboard = true := by
    simp [h.enabled_iff]
  have hticks : a.tasks.tick.sched.pitTicks.toNat = s.tasks.sched.pitTicks.toNat + 1 := by
    rw [← h.tasks]
    exact (BitVec.toNat_add _ _).trans (Nat.mod_eq_of_lt hwrap)
  rw [IrqModel.interrupt, IrqModel.tick]
  simp only [taskEvents, inputEvents, htimer, hkeyboard, hticks]
  split_ifs
  · exact ⟨List.append_assoc .., (List.append_nil _).symm⟩
  · exact ⟨rfl, (List.append_nil _).symm⟩
  · exact ⟨(List.append_nil _).symm, rfl⟩
  · exact ⟨(List.append_nil _).symm, (List.append_nil _).symm⟩

/-- So it does with every event. -/
lemma step_logs (h : IrqRefines s a) {e : IrqEvent} {b : IrqModel}
    (hadm : irqMachine.admissible s e) (hst : irqModel.step a e = some b) :
    b.taskLog = a.taskLog ++ taskEvents s e ∧ b.inputLog = a.inputLog ++ inputEvents s e := by
  cases e with
  | raise line | withdraw line | unmaskTimer =>
      obtain rfl := Option.some.inj hst
      exact ⟨(List.append_nil _).symm, (List.append_nil _).symm⟩
  | interrupt held regs scancode =>
      obtain rfl := Option.some.inj hst
      exact h.interrupt_logs hadm held regs scancode
  | task e =>
      obtain ⟨tasks, -, rfl⟩ := Option.map_eq_some_iff.mp hst
      exact ⟨rfl, (List.append_nil _).symm⟩
  | input e =>
      obtain ⟨input, -, rfl⟩ := Option.map_eq_some_iff.mp hst
      exact ⟨(List.append_nil _).symm, rfl⟩

/-- **Every run of the kernel** is one of the model, which has written down what the events were
for. -/
lemma run {p : Pics} {b : KbBuffer} {tasks : SchedRun} {es : List IrqEvent}
    (hrun : irqMachine.Run (kernelMain p b tasks) es s) :
    ∃ a, irqModel.Run (IrqModel.init b tasks []) es a ∧ IrqRefines s a
      ∧ a.taskLog = irqMachine.observe taskEvents (kernelMain p b tasks) es
      ∧ a.inputLog = irqMachine.observe inputEvents (kernelMain p b tasks) es := by
  refine hrun.simulate (R := fun es s a => IrqRefines s a
    ∧ a.taskLog = irqMachine.observe taskEvents (kernelMain p b tasks) es
    ∧ a.inputLog = irqMachine.observe inputEvents (kernelMain p b tasks) es)
    ⟨IrqRefines.init p b tasks [], rfl, rfl⟩ ?_
  rintro es t e u a hrun ⟨hR, htasks, hinput⟩ hadm hst
  obtain ⟨c, hadm', hst', hR'⟩ := hR.step hadm hst
  obtain ⟨htasks', hinput'⟩ := hR.step_logs hadm hst'
  refine ⟨c, hadm', hst', hR', ?_, ?_⟩
  · rw [htasks', htasks, hrun.observe_snoc]
  · rw [hinput', hinput, hrun.observe_snoc]

end IrqRefines

/-- **The interrupts of the kernel refine the model**: from any state of the controllers, in any
order of requests, interrupts and work of the interrupted code, every run is one of the model, and
the next interrupt does not break down and returns to the frame the model returns to. -/
theorem irq_refines (p : Pics) (b : KbBuffer) (tasks : SchedRun) {es : List IrqEvent} {s : IrqState}
    (hrun : irqMachine.Run (kernelMain p b tasks) es s) :
    ∃ a, irqModel.Run (IrqModel.init b tasks []) es a ∧ s.tasks = a.tasks ∧ s.input = a.input
      ∧ ∀ held regs scancode, ∃ t,
        takeInterrupt held regs scancode s = some ((a.interrupt regs scancode).1, t)
          ∧ t.tasks = (a.interrupt regs scancode).2.tasks
          ∧ t.input = (a.interrupt regs scancode).2.input := by
  obtain ⟨a, ha, href, -⟩ := IrqRefines.run hrun
  refine ⟨a, ha, href.tasks, href.input, fun held regs scancode => ?_⟩
  obtain ⟨t, ht, hrel⟩ := href.interrupt held regs scancode
  exact ⟨t, ht, hrel.tasks, hrel.input⟩

/-! ### The scheduler's part -/

/-- The number of ticks. -/
def tickCount (log : List SchedEvent) : ℕ := log.countP fun e => e matches .tick

/-- `task_switch` runs right behind every tenth tick, and at no other time. -/
structure EveryTenth (log : List SchedEvent) : Prop where
  switch_behind : ∀ pre regs post, log = pre ++ .switch regs :: post →
    ∃ earlier, pre = earlier ++ [.tick] ∧ tickCount pre % 10 = 0
  tick_before : ∀ pre post, log = pre ++ .tick :: post → (tickCount pre + 1) % 10 = 0 →
    ∃ regs later, post = .switch regs :: later

/-- What is known of a run of the model: its scheduler and its ring have seen what is written down
of them, the ticks are those of `pit_ticks`, and every tenth has its switch. -/
structure IrqModel.Inv (tasks₀ : SchedRun) (b : KbBuffer) (a : IrqModel) : Prop where
  tasks : schedMachine.Run tasks₀ a.taskLog a.tasks
  input : kbMachine.Run (KbRun.init b) a.inputLog a.input
  ticks : a.tasks.sched.pitTicks.toNat = tickCount a.taskLog
  everyTenth : EveryTenth a.taskLog

/-- An entry of a list with one more at its end. -/
lemma append_singleton_split {α : Type*} {l p q : List α} {x y : α} (h : l ++ [y] = p ++ x :: q) :
    (q = [] ∧ p = l ∧ x = y) ∨ ∃ r, q = r ++ [y] ∧ l = p ++ x :: r := by
  rcases List.eq_nil_or_concat q with rfl | ⟨r, z, rfl⟩
  · obtain ⟨hl, hy⟩ := List.append_inj' h rfl
    exact Or.inl ⟨rfl, hl.symm, (List.cons.inj hy).1.symm⟩
  · rw [List.concat_eq_append, ← List.cons_append, ← List.append_assoc] at h
    obtain ⟨hl, hy⟩ := List.append_inj' h rfl
    obtain rfl := (List.cons.inj hy).1
    exact Or.inr ⟨r, List.concat_eq_append, hl⟩

@[simp] lemma tickCount_tick (log : List SchedEvent) :
    tickCount (log ++ [.tick]) = tickCount log + 1 :=
  List.countP_append

@[simp] lemma tickCount_switch (log : List SchedEvent) (regs : Ptr) :
    tickCount (log ++ [.switch regs]) = tickCount log :=
  List.countP_append

lemma tickCount_called (log : List SchedEvent) {e : SchedEvent} (he : e.Called) :
    tickCount (log ++ [e]) = tickCount log := by
  cases e with
  | create | sleep | exit => exact List.countP_append
  | switch | tick => exact absurd he id

/-- Only a tick counts. -/
lemma pitTicks_of_step {s t : SchedRun} {e : SchedEvent} (he : e ≠ .tick)
    (hst : schedMachine.step s e = some t) : t.sched.pitTicks = s.sched.pitTicks := by
  cases e with
  | create name entry stackSize task stack =>
      obtain rfl := Option.some.inj hst
      rcases s.create_cases name entry stackSize task stack with ⟨_, heq⟩ | ⟨_, _, -, -, heq⟩ <;>
        rw [heq]
  | sleep ticks =>
      obtain rfl := Option.some.inj hst
      simp only [SchedRun.sleep, taskSleep]
      cases s.sched.currentTask <;> rfl
  | exit =>
      obtain rfl := Option.some.inj hst
      simp only [SchedRun.exit, taskExit]
      cases s.sched.currentTask <;> rfl
  | switch regs =>
      obtain rfl := Option.some.inj hst
      cases hsel : (s.sched.saved regs).selected with
      | some t => simp [SchedRun.switch, taskSwitch_found hsel]
      | none =>
          simp only [SchedRun.switch, taskSwitch_none hsel]
          cases s.sched.currentTask with
          | none => rfl
          | some c => dsimp only; split_ifs <;> simp
  | tick => exact absurd rfl he

namespace EveryTenth

variable {log : List SchedEvent} {e : SchedEvent} {regs : Ptr}

lemma nil : EveryTenth [] := by
  refine ⟨fun pre regs post h => ?_, fun pre post h => ?_⟩ <;> simp at h

/-- One more event, if a switch has its tick before it and a tenth tick is not the last one. -/
lemma snoc (h : EveryTenth log)
    (hswitch : ∀ regs, e = .switch regs →
      ∃ earlier, log = earlier ++ [.tick] ∧ tickCount log % 10 = 0)
    (htick : e = .tick → (tickCount log + 1) % 10 ≠ 0) : EveryTenth (log ++ [e]) := by
  refine ⟨fun pre regs post heq => ?_, fun pre post heq hmod => ?_⟩
  · rcases append_singleton_split heq with ⟨-, rfl, he⟩ | ⟨r, -, hlog⟩
    · exact hswitch regs he.symm
    · exact h.switch_behind pre regs r hlog
  · rcases append_singleton_split heq with ⟨-, rfl, he⟩ | ⟨r, rfl, hlog⟩
    · exact absurd hmod (htick he.symm)
    · obtain ⟨regs, later, rfl⟩ := h.tick_before pre r hlog hmod
      exact ⟨regs, later ++ [e], rfl⟩

/-- What the running code calls. -/
lemma called (h : EveryTenth log) (he : e.Called) : EveryTenth (log ++ [e]) := by
  refine h.snoc ?_ ?_
  · rintro regs rfl
    exact absurd he id
  · rintro rfl
    exact absurd he id

lemma tick (h : EveryTenth log) (hmod : (tickCount log + 1) % 10 ≠ 0) :
    EveryTenth (log ++ [.tick]) := by
  refine h.snoc ?_ fun _ => hmod
  rintro regs ⟨⟩

/-- A tenth tick with its switch. -/
lemma tick_switch (h : EveryTenth log) (hmod : (tickCount log + 1) % 10 = 0) (regs : Ptr) :
    EveryTenth (log ++ [.tick] ++ [.switch regs]) := by
  refine ⟨fun pre regs' post heq => ?_, fun pre post heq hmod' => ?_⟩
  · rcases append_singleton_split heq with ⟨-, rfl, -⟩ | ⟨r, -, hlog⟩
    · refine ⟨log, rfl, ?_⟩
      rw [tickCount_tick]
      exact hmod
    · rcases append_singleton_split hlog with ⟨-, -, ⟨⟩⟩ | ⟨r', -, hlog'⟩
      exact h.switch_behind pre regs' r' hlog'
  · rcases append_singleton_split heq with ⟨-, -, ⟨⟩⟩ | ⟨r, rfl, hlog⟩
    rcases append_singleton_split hlog with ⟨rfl, -, -⟩ | ⟨r', rfl, hlog'⟩
    · exact ⟨regs, [], rfl⟩
    · obtain ⟨regs', later, rfl⟩ := h.tick_before pre r' hlog' hmod'
      exact ⟨regs', later ++ [.tick] ++ [.switch regs], rfl⟩

end EveryTenth

namespace IrqModel.Inv

variable {tasks₀ : SchedRun} {b : KbBuffer} {a : IrqModel}

lemma init {log : List SchedEvent} {tasks : SchedRun} (hrun : schedMachine.Run tasks₀ log tasks)
    (hticks : tasks.sched.pitTicks.toNat = tickCount log) (htenth : EveryTenth log) (b : KbBuffer) :
    Inv tasks₀ b (IrqModel.init b tasks log) :=
  ⟨hrun, .nil, hticks, htenth⟩

/-- A tick, with its switch if it is a tenth one. -/
lemma tick (h : Inv tasks₀ b a) (hwrap : a.tasks.sched.pitTicks.toNat + 1 < 2 ^ 64) (regs : Ptr) :
    Inv tasks₀ b (a.tick regs).2 := by
  have hrun : schedMachine.Run tasks₀ (a.taskLog ++ [.tick]) a.tasks.tick := .snoc h.tasks hwrap rfl
  have hticks : a.tasks.tick.sched.pitTicks.toNat = tickCount a.taskLog + 1 := by
    have hadd : a.tasks.tick.sched.pitTicks.toNat = (a.tasks.sched.pitTicks.toNat + 1) % 2 ^ 64 :=
      BitVec.toNat_add _ _
    rw [hadd, Nat.mod_eq_of_lt hwrap, h.ticks]
  rw [IrqModel.tick]
  dsimp only
  rw [hticks]
  split_ifs with htenth
  · refine ⟨.snoc hrun trivial rfl, h.input, ?_, h.everyTenth.tick_switch htenth regs⟩
    have hsame : (a.tasks.tick.switch regs).sched.pitTicks = a.tasks.tick.sched.pitTicks :=
      pitTicks_of_step (e := .switch regs) (by simp) rfl
    rw [tickCount_switch, tickCount_tick, ← hticks, ← hsame]
  · exact ⟨hrun, h.input, hticks.trans (tickCount_tick _).symm, h.everyTenth.tick htenth⟩

/-- What the running code calls. -/
lemma called (h : Inv tasks₀ b a) {e : SchedEvent} {tasks : SchedRun} (he : e.Called)
    (hadm : schedMachine.admissible a.tasks e) (hst : schedMachine.step a.tasks e = some tasks) :
    Inv tasks₀ b { a with tasks := tasks, taskLog := a.taskLog ++ [e] } := by
  have hne : e ≠ .tick := by
    rintro rfl
    exact he
  refine ⟨.snoc h.tasks hadm hst, h.input, ?_, h.everyTenth.called he⟩
  rw [tickCount_called _ he, ← h.ticks, ← pitTicks_of_step hne hst]

lemma step (h : Inv tasks₀ b a) {e : IrqEvent} {c : IrqModel} (hadm : irqModel.admissible a e)
    (hst : irqModel.step a e = some c) : Inv tasks₀ b c := by
  cases e with
  | raise line => exact Option.some.inj hst ▸ ⟨h.tasks, h.input, h.ticks, h.everyTenth⟩
  | withdraw line => exact Option.some.inj hst ▸ ⟨h.tasks, h.input, h.ticks, h.everyTenth⟩
  | unmaskTimer => exact Option.some.inj hst ▸ ⟨h.tasks, h.input, h.ticks, h.everyTenth⟩
  | interrupt held regs scancode =>
      obtain rfl := Option.some.inj hst
      rw [IrqModel.interrupt]
      split_ifs
      · exact h.tick hadm regs
      · exact ⟨h.tasks, .snoc h.input trivial rfl, h.ticks, h.everyTenth⟩
      · exact h
  | task e =>
      obtain ⟨tasks, htasks, rfl⟩ := Option.map_eq_some_iff.mp hst
      exact h.called hadm.1 hadm.2 htasks
  | input e =>
      obtain ⟨input, hinput, rfl⟩ := Option.map_eq_some_iff.mp hst
      exact ⟨h.tasks, .snoc h.input hadm.2 hinput, h.ticks, h.everyTenth⟩

end IrqModel.Inv

/-- The state of the scheduler before the shell is created. -/
def bootTasks (s : Sched) (kernelTask : Option Ptr) : SchedRun :=
  SchedRun.init kernelTask { s with pitTicks := 0 }

/-- A run of the kernel, seen from its model. -/
lemma kernel_inv (p : Pics) (b : KbBuffer) {s₀ : Sched} {kernelTask : Option Ptr}
    {shellTask : BitVec 64} {task stack : Option Ptr} {es : List IrqEvent} {s : IrqState}
    (hrun : irqMachine.Run (kernelMain p b (kernelTasks s₀ kernelTask shellTask task stack)) es s) :
    ∃ a, IrqRefines s a ∧ IrqModel.Inv (kernelTasks s₀ kernelTask shellTask task stack) b a
      ∧ a.taskLog = irqMachine.observe taskEvents
        (kernelMain p b (kernelTasks s₀ kernelTask shellTask task stack)) es
      ∧ a.inputLog = irqMachine.observe inputEvents
        (kernelMain p b (kernelTasks s₀ kernelTask shellTask task stack)) es := by
  obtain ⟨a, ha, href, hlogs⟩ := IrqRefines.run hrun
  have hzero : (kernelTasks s₀ kernelTask shellTask task stack).sched.pitTicks.toNat = 0 := by
    have hcreate : schedMachine.step (bootTasks s₀ kernelTask)
        (.create "shell".toList shellTask 16384 task stack)
        = some (kernelTasks s₀ kernelTask shellTask task stack) := rfl
    rw [pitTicks_of_step (by simp) hcreate]
    cases kernelTask <;> rfl
  exact ⟨a, href, EventMachine.Run.invariant (IrqModel.Inv.init .nil hzero .nil b)
    (fun _ _ _ h hadm hst => h.step hadm hst) ha, hlogs⟩

/-- **The kernel's timer drives the scheduler**: in every run, the scheduler has gone through a run
of its own from `task_init` on, in which the shell is created first and then comes what the run's
events were for it. `pit_ticks` counts the ticks, and `task_switch` is called right behind every
tenth tick and at no other time. The keyboard's ring has gone through a run of the handler and its
reader, which the same events make up. -/
theorem timer_schedules (p : Pics) (b : KbBuffer) (s₀ : Sched) (kernelTask : Option Ptr)
    (shellTask : BitVec 64) (task stack : Option Ptr)
    (hfresh : schedMachine.admissible (bootTasks s₀ kernelTask)
      (.create "shell".toList shellTask 16384 task stack))
    {es : List IrqEvent} {s : IrqState}
    (hrun : irqMachine.Run (kernelMain p b (kernelTasks s₀ kernelTask shellTask task stack)) es s) :
    let start := kernelMain p b (kernelTasks s₀ kernelTask shellTask task stack)
    let log := irqMachine.observe taskEvents start es
    schedMachine.Run (bootTasks s₀ kernelTask)
        (.create "shell".toList shellTask 16384 task stack :: log) s.tasks
      ∧ kbMachine.Run (KbRun.init b) (irqMachine.observe inputEvents start es) s.input
      ∧ s.tasks.sched.pitTicks.toNat = tickCount log
      ∧ EveryTenth log := by
  obtain ⟨a, href, hinv, htasks, hinput⟩ := kernel_inv p b hrun
  dsimp only
  rw [← htasks, ← hinput, href.tasks, href.input]
  exact ⟨EventMachine.Run.cons hfresh rfl hinv.tasks, hinv.input, hinv.ticks, hinv.everyTenth⟩

/-- The tasks of a kernel whose blocks lie at the start of the heap. -/
def shellTasks : SchedRun :=
  kernelTasks default (some 0xFFFF800000000000) 0x101000 (some 0xFFFF800000000050)
    (some 0xFFFF8000000000A0)

/-- The interrupts of that kernel. -/
def shellIrqs : IrqState := kernelMain foundPics ⟨fun _ => 0, 0, 0⟩ shellTasks

/-- A key and a tick arrive together. -/
def keyAndTick : List IrqEvent :=
  [.unmaskTimer, .raise Pics.keyboardLine, .raise Pics.timerLine, .interrupt false 0x4FFF00 0x1E,
    .interrupt false 0x4FFF00 0x1E, .interrupt false 0x4FFF00 0x1E]

/-- The kernel then. -/
def afterKey : IrqState := (irqMachine.exec shellIrqs keyAndTick).getD shellIrqs

lemma run_afterKey : irqMachine.Run shellIrqs keyAndTick afterKey :=
  EventMachine.Run.of_isSome (by decide)

/-- The next interrupt of that kernel is one of nobody. -/
theorem irq_refines_afterKey :
    ∃ a, irqModel.Run (IrqModel.init ⟨fun _ => 0, 0, 0⟩ shellTasks []) keyAndTick a
      ∧ afterKey.tasks = a.tasks ∧ afterKey.input = a.input
      ∧ ∀ held regs scancode, ∃ t,
        takeInterrupt held regs scancode afterKey = some ((a.interrupt regs scancode).1, t)
          ∧ t.tasks = (a.interrupt regs scancode).2.tasks
          ∧ t.input = (a.interrupt regs scancode).2.input :=
  irq_refines foundPics ⟨fun _ => 0, 0, 0⟩ shellTasks run_afterKey

/-- Nine more ticks. -/
def tenTicks : List IrqEvent :=
  keyAndTick ++ (List.replicate 9
    [.raise Pics.timerLine, .interrupt false 0x4FFF00 0x1E]).flatten

/-- The kernel then. -/
def afterTen : IrqState := (irqMachine.exec shellIrqs tenTicks).getD shellIrqs

/-- The tenth tick switched to the shell. -/
theorem timer_schedules_afterTen :
    afterTen.tasks.sched.currentTask = some 0xFFFF800000000050
      ∧ irqMachine.observe taskEvents shellIrqs tenTicks
        = List.replicate 10 .tick ++ [.switch 0x4FFF00]
      ∧ schedMachine.Run (bootTasks default (some 0xFFFF800000000000))
        (.create "shell".toList 0x101000 16384 (some 0xFFFF800000000050) (some 0xFFFF8000000000A0)
          :: irqMachine.observe taskEvents shellIrqs tenTicks) afterTen.tasks
      ∧ kbMachine.Run (KbRun.init ⟨fun _ => 0, 0, 0⟩)
        (irqMachine.observe inputEvents shellIrqs tenTicks) afterTen.input
      ∧ afterTen.tasks.sched.pitTicks.toNat
        = tickCount (irqMachine.observe taskEvents shellIrqs tenTicks)
      ∧ EveryTenth (irqMachine.observe taskEvents shellIrqs tenTicks) := by
  have hrun : irqMachine.Run shellIrqs tenTicks afterTen :=
    EventMachine.Run.of_isSome (by decide +kernel)
  refine ⟨by decide +kernel, ?_, timer_schedules foundPics ⟨fun _ => 0, 0, 0⟩ default _ _ _ _
    (by decide) hrun⟩
  rfl

end KiOS
