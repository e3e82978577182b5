import KiOS.Drivers.KeyboardIrq

/-!
The polling keyboard input (`keyboard.h`) beside the interrupt handler.

The shell reads scancodes by polling the controller while `kernel_main` has installed
`keyboard_irq_handler`, which reads the same port.

* `Controller`: the output buffer of the keyboard controller and its interrupt line;
* `Poll`, `kbReadScancode`: `kb_read_scancode` as `kb_getchar` calls it, one access to a port at a
  time;
* `inputMachine`: any interleaving of deliveries, handler runs and steps of the reader;
* `InputRun.Complete`: every delivered scancode was passed on once, in order, or is still to come;
* `SparesReader`: the condition: the handler finds the port empty, or the reader past its test;
* `keyboard_complete`: in every run that keeps to it the input is complete, and the next step keeps
  it so exactly if it keeps to it as well;
* `keystroke_lost`: the first key pressed after boot.
-/

namespace KiOS

/-- The output buffer of the controller. A port that was read still shows its last byte. -/
structure Controller where
  data : BitVec 8
  outputFull : Bool
  irqPending : Bool
  deriving DecidableEq, Repr

/-- `inb(KB_DATA_PORT)`. -/
def Controller.readData (c : Controller) : BitVec 8 × Controller :=
  (c.data, { c with outputFull := false })

/-- The keyboard sends a byte. -/
def Controller.deliver (scancode : BitVec 8) : Controller where
  data := scancode
  outputFull := true
  irqPending := true

/-- The `timeout` of `kb_wait_output`. -/
def kbTimeout : ℕ := 100000

/-- Where the reader is in `kb_read_scancode`. -/
inductive Poll where
  /-- In the loop of `kb_wait_output`, with the polls that are left. -/
  | waiting (timeout : ℕ)
  /-- `kb_wait_output` has returned true. -/
  | ready
  deriving DecidableEq, Repr

/-- One access of `kb_read_scancode` to the controller. A call that ends passes on a scancode, or
the `0` of a timeout, which is `none` here, and the next call starts. -/
def kbReadScancode : Poll → Controller → Option (Option (BitVec 8)) × Poll × Controller
  | .waiting 0, c => (some none, .waiting kbTimeout, c)
  | .waiting (timeout + 1), c => (none, if c.outputFull then .ready else .waiting timeout, c)
  | .ready, c => (some (some c.readData.1), .waiting kbTimeout, c.readData.2)

/-! ### Runs -/

/-- The controller and its two readers. -/
structure InputRun where
  controller : Controller
  buffer : KbBuffer
  reader : Poll
  /-- The scancodes the keyboard has sent. -/
  delivered : List (BitVec 8)
  /-- What `kb_getchar` has passed to `kb_scancode_to_ascii`. -/
  passed : List (Option (BitVec 8))

inductive InputEvent where
  | deliver (scancode : BitVec 8)
  | irq
  | poll

/-- After `keyboard_irq_init`, at the first call of `kb_getchar`. -/
def InputRun.init (data : BitVec 8) (b : KbBuffer) : InputRun where
  controller := ⟨data, false, false⟩
  buffer := keyboardIrqInit b
  reader := .waiting kbTimeout
  delivered := []
  passed := []

/-- The keyboard sends a byte when the last one was read, and the handler runs when the interrupt
line asks for it, before any step of the reader. -/
def inputMachine : EventMachine InputRun InputEvent where
  admissible s
    | .deliver _ => s.controller.outputFull = false
    | .irq => s.controller.irqPending = true
    | .poll => True
  step s
    | .deliver scancode =>
        some
          { s with
            controller := .deliver scancode
            delivered := s.delivered ++ [scancode] }
    | .irq =>
        let r := s.controller.readData
        some
          { s with
            controller := { r.2 with irqPending := false }
            buffer := keyboardIrqHandler r.1 s.buffer }
    | .poll =>
        let r := kbReadScancode s.reader s.controller
        some
          { s with
            controller := r.2.2
            reader := r.2.1
            passed := s.passed ++ r.1.toList }

instance (s : InputRun) : (e : InputEvent) → Decidable (inputMachine.admissible s e)
  | .deliver _ => inferInstanceAs (Decidable (_ = _))
  | .irq => inferInstanceAs (Decidable (_ = _))
  | .poll => inferInstanceAs (Decidable True)

/-- The byte the reader will find at its next access to the data port, if it gets there without
another one being sent. -/
def InputRun.coming (s : InputRun) : List (BitVec 8) :=
  if s.controller.outputFull = true ∨ s.reader = .ready then [s.controller.data] else []

/-- Every scancode sent was passed on once and in order, up to one that is still to come. -/
def InputRun.Complete (s : InputRun) : Prop :=
  s.passed.reduceOption ++ s.coming = s.delivered

instance (s : InputRun) : Decidable s.Complete := inferInstanceAs (Decidable (_ = _))

/-- The condition: the handler takes no byte that the reader has not seen, and no byte is sent
while the reader goes for the one before. -/
def SparesReader (s : InputRun) : InputEvent → Prop
  | .deliver _ => s.reader ≠ .ready
  | .irq => s.controller.outputFull = false ∨ s.reader = .ready
  | .poll => True

instance (s : InputRun) : DecidablePred (SparesReader s)
  | .deliver _ => inferInstanceAs (Decidable (_ ≠ _))
  | .irq => inferInstanceAs (Decidable (_ ∨ _))
  | .poll => inferInstanceAs (Decidable True)

/-! ### Steps -/

namespace InputRun.Complete

variable {s u : InputRun} {e : InputEvent} {scancode : BitVec 8}

/-- A byte sent while the reader goes for the one before replaces it. -/
lemma deliver_iff (h : s.Complete) (hadm : inputMachine.admissible s (.deliver scancode))
    (hst : inputMachine.step s (.deliver scancode) = some u) :
    u.Complete ↔ SparesReader s (.deliver scancode) := by
  have hempty : s.controller.outputFull = false := hadm
  obtain rfl := Option.some.inj hst
  unfold Complete coming at h ⊢
  unfold SparesReader
  by_cases hready : s.reader = .ready
  · simp only [hready, or_true, if_true] at h ⊢
    rw [← h]
    simp [Controller.deliver]
  · simp only [hempty, hready, Bool.false_eq_true, or_self, if_false, List.append_nil] at h
    simp [Controller.deliver, h, hready]

/-- A byte taken before the reader has seen it is lost. -/
lemma irq_iff (h : s.Complete) (hst : inputMachine.step s .irq = some u) :
    u.Complete ↔ SparesReader s .irq := by
  obtain rfl := Option.some.inj hst
  unfold Complete coming at h ⊢
  unfold SparesReader
  by_cases hready : s.reader = .ready
  · simp only [hready, or_true, if_true] at h ⊢
    simpa [Controller.readData] using h
  · by_cases hfull : s.controller.outputFull = true
    · simp only [hfull, true_or, if_true] at h
      rw [← h]
      simp [Controller.readData, hready, hfull]
    · simpa [Controller.readData, hready, hfull] using h

/-- The steps of the reader lose nothing. -/
lemma poll (h : s.Complete) (hst : inputMachine.step s .poll = some u) : u.Complete := by
  obtain rfl := Option.some.inj hst
  unfold Complete coming at h ⊢
  cases hr : s.reader with
  | ready =>
      simp only [hr, or_true, if_true] at h
      simpa [kbReadScancode, Controller.readData, List.reduceOption_append] using h
  | waiting timeout =>
      rw [hr] at h
      cases timeout with
      | zero => simpa [kbReadScancode, List.reduceOption_append] using h
      | succ timeout =>
          by_cases hfull : s.controller.outputFull = true
          · simpa [kbReadScancode, hfull] using h
          · simpa [kbReadScancode, hfull] using h

/-- **One step** keeps the input complete exactly if it spares the reader. -/
lemma step_iff (h : s.Complete) (hadm : inputMachine.admissible s e)
    (hst : inputMachine.step s e = some u) : u.Complete ↔ SparesReader s e := by
  cases e with
  | deliver scancode => exact h.deliver_iff hadm hst
  | irq => exact h.irq_iff hst
  | poll => exact iff_of_true (h.poll hst) trivial

lemma step (h : s.Complete) (hadm : (inputMachine.restrict SparesReader).admissible s e)
    (hst : (inputMachine.restrict SparesReader).step s e = some u) : u.Complete :=
  (h.step_iff hadm.1 hst).mpr hadm.2

/-- Nothing was sent yet. -/
lemma init (data : BitVec 8) (b : KbBuffer) : (InputRun.init data b).Complete := by
  simp [Complete, InputRun.init, coming]

end InputRun.Complete

/-- **Keystrokes are complete** as long as the interrupt handler leaves the controller to the
polling reader, and the first step that does not loses one. -/
theorem keyboard_complete (data : BitVec 8) (b : KbBuffer) {es : List InputEvent} {s : InputRun}
    (hrun : (inputMachine.restrict SparesReader).Run (InputRun.init data b) es s) :
    s.Complete ∧ ∀ e u, inputMachine.admissible s e → inputMachine.step s e = some u →
      (u.Complete ↔ SparesReader s e) := by
  have hcomplete : s.Complete :=
    EventMachine.Run.invariant (.init data b) (fun _ _ _ ht hadm hst => ht.step hadm hst) hrun
  exact ⟨hcomplete, fun e u hadm hst => hcomplete.step_iff hadm hst⟩

/-- A key whose scancode the reader fetches before the handler runs. -/
def readerFirst : List InputEvent := [.poll, .deliver 0x1E, .poll, .poll, .irq]

/-- The controller and its readers at boot. -/
def bootInput : InputRun := InputRun.init 0 ⟨fun _ => 0, 0, 0⟩

/-- The state after that key. -/
def keyRead : InputRun :=
  ((inputMachine.restrict SparesReader).exec bootInput readerFirst).getD bootInput

/-- The statement for that key. -/
theorem keyboard_complete_readerFirst :
    keyRead.Complete ∧ ∀ e u, inputMachine.admissible keyRead e →
      inputMachine.step keyRead e = some u → (u.Complete ↔ SparesReader keyRead e) :=
  keyboard_complete 0 ⟨fun _ => 0, 0, 0⟩ (EventMachine.Run.of_isSome
    (show ((inputMachine.restrict SparesReader).exec bootInput readerFirst).isSome = true
      by decide))

/-- **The first key is lost**: the handler runs before the reader polls, the scancode ends in a
buffer nobody reads, and the reader finds the port empty. -/
theorem keystroke_lost :
    ∃ s, inputMachine.Run bootInput [.deliver 0x1E, .irq, .poll] s
      ∧ s.delivered = [0x1E] ∧ s.passed = [] ∧ s.controller.outputFull = false
      ∧ s.reader = .waiting (kbTimeout - 1) ∧ ¬ s.Complete :=
  ⟨_, EventMachine.Run.of_exec rfl, by decide⟩

end KiOS
