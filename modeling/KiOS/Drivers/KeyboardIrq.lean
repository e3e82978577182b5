import KiOS.Library.EventMachine
import KiOS.Library.Ring

/-!
The interrupt driven keyboard input (`keyboard_irq.c`).

* `KbBuffer`: the ring buffer with its two indices;
* `keyboardIrqHandler`, `kbIrqHasScancode`: the producer and the test for emptiness;
* `GetScancode`, `kbIrqGetScancode`: `kb_irq_get_scancode` in the three steps between which the
  handler may run;
* `kbMachine`: any interleaving of handler runs with the steps of the consumer;
* `KbRun.Fifo`: what a bounded queue owes;
* `ring_fifo`: it holds in every state reached.
-/

namespace KiOS

/-- `KB_BUFFER_SIZE`. -/
def kbBufferSize : ℕ := 256

/-- `kb_buffer` with `kb_buffer_read` and `kb_buffer_write`. -/
structure KbBuffer where
  slot : ℕ → BitVec 8
  read : ℕ
  write : ℕ

/-- `keyboard_irq_init`: the content of the array stays. -/
def keyboardIrqInit (b : KbBuffer) : KbBuffer := { b with read := 0, write := 0 }

/-- `keyboard_irq_handler`, for the scancode read from the port. -/
def keyboardIrqHandler (scancode : BitVec 8) (b : KbBuffer) : KbBuffer :=
  let nextWrite := (b.write + 1) % kbBufferSize
  if nextWrite ≠ b.read then
    { b with slot := Function.update b.slot b.write scancode, write := nextWrite }
  else b

/-- `kb_irq_has_scancode`. -/
def kbIrqHasScancode (b : KbBuffer) : Bool := b.read != b.write

/-- Where the consumer is in `kb_irq_get_scancode`. -/
inductive GetScancode where
  | idle
  /-- The buffer was not empty. -/
  | nonEmpty
  /-- The slot has been read. -/
  | slotRead (scancode : BitVec 8)
  deriving DecidableEq, Repr

/-- One step of `kb_irq_get_scancode`: what it returns if it is the last one, where the consumer is
then, and the buffer it leaves. -/
def kbIrqGetScancode : GetScancode → KbBuffer → Option (BitVec 8) × GetScancode × KbBuffer
  | .idle, b => if b.read = b.write then (some 0, .idle, b) else (none, .nonEmpty, b)
  | .nonEmpty, b => (none, .slotRead (b.slot b.read), b)
  | .slotRead scancode, b =>
      (some scancode, .idle, { b with read := (b.read + 1) % kbBufferSize })

/-! ### Runs -/

/-- The buffer, the consumer and what both sides know of the run. -/
structure KbRun where
  buffer : KbBuffer
  consumer : GetScancode
  /-- The scancodes the handler has put into the buffer. -/
  accepted : List (BitVec 8)
  /-- The scancodes returned by calls that found the buffer not empty. -/
  returned : List (BitVec 8)

inductive KbEvent where
  | irq (scancode : BitVec 8)
  | has
  | get

namespace KbRun

/-- A run of the handler. A scancode is accepted if the write index moves. -/
def irq (s : KbRun) (scancode : BitVec 8) : KbRun :=
  let b := keyboardIrqHandler scancode s.buffer
  { s with
    buffer := b
    accepted := if b.write = s.buffer.write then s.accepted else s.accepted ++ [scancode] }

/-- A step of `kb_irq_get_scancode`. -/
def get (s : KbRun) : KbRun :=
  let r := kbIrqGetScancode s.consumer s.buffer
  { s with
    buffer := r.2.2
    consumer := r.2.1
    returned :=
      match s.consumer, r.1 with
      | .idle, _ => s.returned
      | _, some scancode => s.returned ++ [scancode]
      | _, none => s.returned }

/-- After `keyboard_irq_init`. -/
def init (b : KbBuffer) : KbRun where
  buffer := keyboardIrqInit b
  consumer := .idle
  accepted := []
  returned := []

/-- The accepted scancodes that no call has returned. -/
def pending (s : KbRun) : List (BitVec 8) := s.accepted.drop s.returned.length

end KbRun

/-- Handler runs and consumer steps in any order. The consumer does not test for emptiness in the
middle of a call. -/
def kbMachine : EventMachine KbRun KbEvent where
  admissible s
    | .irq _ => True
    | .has => s.consumer = .idle
    | .get => True
  step s
    | .irq scancode => some (s.irq scancode)
    | .has => some s
    | .get => some s.get

instance (s : KbRun) : (e : KbEvent) → Decidable (kbMachine.admissible s e)
  | .irq _ => inferInstanceAs (Decidable True)
  | .has => inferInstanceAs (Decidable (_ = _))
  | .get => inferInstanceAs (Decidable True)

/-- A bounded FIFO queue. -/
structure KbRun.Fifo (s : KbRun) : Prop where
  /-- Scancodes come out in the order they went in, none twice and none left out. -/
  prefix_accepted : s.accepted = s.returned ++ s.pending
  /-- The pending ones are in the buffer. -/
  contents : Ring.contents kbBufferSize s.buffer.slot s.buffer.read s.buffer.write = s.pending
  read_lt : s.buffer.read < 256
  write_lt : s.buffer.write < 256
  /-- A scancode is dropped exactly if 255 are pending, and then nothing changes. -/
  drops_iff : ∀ scancode, (s.irq scancode).accepted = s.accepted ↔ s.pending.length = 255
  drops_same : ∀ scancode, s.pending.length = 255 → s.irq scancode = s
  /-- Otherwise it is the last one pending. -/
  accepts : ∀ scancode, s.pending.length ≠ 255 →
    (s.irq scancode).pending = s.pending ++ [scancode]
  /-- The test tells whether something is pending. -/
  has_iff : kbIrqHasScancode s.buffer = true ↔ s.pending ≠ []
  /-- A call on an empty buffer returns 0 and changes nothing. -/
  get_empty : s.consumer = .idle → s.pending = [] →
    kbIrqGetScancode s.consumer s.buffer = (some 0, .idle, s.buffer)
  /-- A call that found the buffer not empty returns the first pending scancode. -/
  get_head : ∀ scancode, s.consumer = .slotRead scancode → s.pending.head? = some scancode

/-! ### The invariant -/

/-- The invariant of a run: the buffer holds what was accepted and not returned. -/
structure KbRun.Inv (s : KbRun) : Prop where
  read_lt : s.buffer.read < kbBufferSize
  write_lt : s.buffer.write < kbBufferSize
  accepted : s.accepted
    = s.returned ++ Ring.contents kbBufferSize s.buffer.slot s.buffer.read s.buffer.write
  nonEmpty : s.consumer ≠ .idle → s.buffer.read ≠ s.buffer.write
  slotRead : ∀ scancode, s.consumer = .slotRead scancode →
    s.buffer.slot s.buffer.read = scancode

namespace KbRun.Inv

variable {s u : KbRun} {e : KbEvent} {scancode : BitVec 8}

lemma init (b : KbBuffer) : (KbRun.init b).Inv where
  read_lt := Nat.zero_lt_succ 255
  write_lt := Nat.zero_lt_succ 255
  accepted := by simp [KbRun.init, keyboardIrqInit, Ring.contents, Ring.count]
  nonEmpty h := absurd rfl h
  slotRead _ h := by cases h

lemma pending_eq (h : s.Inv) : s.pending
    = Ring.contents kbBufferSize s.buffer.slot s.buffer.read s.buffer.write := by
  rw [KbRun.pending, h.accepted, List.drop_left]

/-- The ring is full exactly if 255 scancodes are pending. -/
lemma full_iff (h : s.Inv) : (s.buffer.write + 1) % kbBufferSize = s.buffer.read
    ↔ s.pending.length = 255 := by
  rw [Ring.next_eq_iff h.read_lt h.write_lt, h.pending_eq, Ring.length_contents]
  rfl

lemma empty_iff (h : s.Inv) : s.buffer.read = s.buffer.write ↔ s.pending = [] := by
  rw [← Ring.count_eq_zero_iff h.read_lt h.write_lt, h.pending_eq, ← List.length_eq_zero_iff,
    Ring.length_contents]

/-- A scancode that arrives at a full ring. -/
lemma irq_of_full (hfull : (s.buffer.write + 1) % kbBufferSize = s.buffer.read) :
    s.irq scancode = s := by
  have hsame : keyboardIrqHandler scancode s.buffer = s.buffer := if_neg (not_not.mpr hfull)
  simp [KbRun.irq, hsame]

/-- A scancode that finds room. -/
lemma irq_of_room (h : s.Inv) (hroom : (s.buffer.write + 1) % kbBufferSize ≠ s.buffer.read) :
    s.irq scancode =
      { s with
        buffer :=
          { slot := Function.update s.buffer.slot s.buffer.write scancode
            read := s.buffer.read
            write := (s.buffer.write + 1) % kbBufferSize }
        accepted := s.accepted ++ [scancode] } := by
  have hmoved : (s.buffer.write + 1) % kbBufferSize ≠ s.buffer.write := by
    have hlt := h.write_lt
    rcases Nat.lt_or_ge (s.buffer.write + 1) kbBufferSize with hlast | hlast
    · rw [Ring.next_of_lt hlast]
      omega
    · rw [Ring.next_of_eq (by omega)]
      unfold kbBufferSize at *
      omega
  have hput : keyboardIrqHandler scancode s.buffer =
      { slot := Function.update s.buffer.slot s.buffer.write scancode
        read := s.buffer.read
        write := (s.buffer.write + 1) % kbBufferSize } := if_pos hroom
  simp [KbRun.irq, hput, hmoved]

lemma irq (h : s.Inv) (scancode : BitVec 8) : (s.irq scancode).Inv := by
  by_cases hfull : (s.buffer.write + 1) % kbBufferSize = s.buffer.read
  · rw [irq_of_full hfull]
    exact h
  have hput := Ring.contents_put s.buffer.slot h.read_lt h.write_lt hfull scancode
  rw [h.irq_of_room hfull]
  refine ⟨h.read_lt, Nat.mod_lt _ (Nat.zero_lt_succ 255), ?_, fun _ => Ne.symm hfull, ?_⟩
  · rw [hput, h.accepted, List.append_assoc]
  · -- the consumer's slot is not the one written: the ring was not empty
    intro x hx
    dsimp only at hx ⊢
    have hne : s.buffer.read ≠ s.buffer.write := h.nonEmpty (by simp [hx])
    rw [Function.update_of_ne hne]
    exact h.slotRead x hx

lemma get (h : s.Inv) : s.get.Inv := by
  unfold KbRun.get
  cases hc : s.consumer with
  | idle =>
      by_cases hempty : s.buffer.read = s.buffer.write
      · simp only [kbIrqGetScancode, hempty, if_true]
        exact ⟨h.read_lt, h.write_lt, h.accepted, fun hne => absurd rfl hne,
          fun _ hx => by cases hx⟩
      · simp only [kbIrqGetScancode, hempty, if_false]
        exact ⟨h.read_lt, h.write_lt, h.accepted, fun _ => hempty, fun _ hx => by cases hx⟩
  | nonEmpty =>
      have hne := h.nonEmpty (by simp [hc])
      refine ⟨h.read_lt, h.write_lt, h.accepted, fun _ => hne, fun x hx => ?_⟩
      simpa [kbIrqGetScancode] using hx
  | slotRead scancode =>
      have hne := h.nonEmpty (by simp [hc])
      have htake := Ring.contents_take s.buffer.slot h.read_lt h.write_lt hne
      refine ⟨Nat.mod_lt _ (Nat.zero_lt_succ 255), h.write_lt, ?_, fun hx => absurd rfl hx,
        fun _ hx => by cases hx⟩
      simp only [kbIrqGetScancode]
      rw [h.accepted, htake, h.slotRead scancode hc, List.append_assoc, List.singleton_append]

lemma step (h : s.Inv) (hst : kbMachine.step s e = some u) : u.Inv := by
  cases e with
  | irq scancode =>
      obtain rfl := Option.some.inj hst
      exact h.irq scancode
  | has =>
      obtain rfl := Option.some.inj hst
      exact h
  | get =>
      obtain rfl := Option.some.inj hst
      exact h.get

/-- The invariant makes the buffer a queue. -/
lemma fifo (h : s.Inv) : s.Fifo where
  prefix_accepted := by
    rw [h.pending_eq]
    exact h.accepted
  contents := h.pending_eq.symm
  read_lt := h.read_lt
  write_lt := h.write_lt
  drops_iff scancode := by
    rw [← h.full_iff]
    constructor
    · intro hsame
      by_contra hroom
      rw [h.irq_of_room hroom] at hsame
      simp at hsame
    · intro hfull
      rw [irq_of_full hfull]
  drops_same scancode hlen := irq_of_full (h.full_iff.mpr hlen)
  accepts scancode hlen := by
    have hroom := mt h.full_iff.mp hlen
    rw [(h.irq scancode).pending_eq, h.irq_of_room hroom, h.pending_eq]
    exact Ring.contents_put _ h.read_lt h.write_lt hroom scancode
  has_iff := by
    rw [kbIrqHasScancode, bne_iff_ne, ne_eq, ne_eq, h.empty_iff]
  get_empty hidle hempty := by
    rw [hidle]
    exact if_pos (h.empty_iff.mpr hempty)
  get_head scancode hc := by
    have hne := h.nonEmpty (by simp [hc])
    rw [h.pending_eq, Ring.contents_take _ h.read_lt h.write_lt hne, h.slotRead scancode hc]
    rfl

end KbRun.Inv

/-- **The scancode buffer is a bounded FIFO queue**: whatever scancodes arrive and wherever the
handler cuts in, nothing is lost, repeated or overwritten, and a scancode is dropped exactly when
255 are pending. -/
theorem ring_fifo (b : KbBuffer) {es : List KbEvent} {s : KbRun}
    (hrun : kbMachine.Run (KbRun.init b) es s) : s.Fifo := by
  have hinv : s.Inv :=
    EventMachine.Run.invariant (KbRun.Inv.init b) (fun _ _ _ ht _ hst => ht.step hst) hrun
  exact hinv.fifo

/-- A key is pressed and released while the consumer fetches its first scancode. -/
def pressAndRelease : List KbEvent := [.irq 0x1E, .get, .get, .irq 0x9E, .get]

/-- The state in which the second scancode is pending. -/
def releasePending : KbRun :=
  (kbMachine.exec (KbRun.init ⟨fun _ => 0, 0, 0⟩) pressAndRelease).getD
    (KbRun.init ⟨fun _ => 0, 0, 0⟩)

/-- The statement for that run. -/
theorem ring_fifo_release : releasePending.Fifo :=
  ring_fifo ⟨fun _ => 0, 0, 0⟩ (EventMachine.Run.of_isSome
    (show (kbMachine.exec (KbRun.init ⟨fun _ => 0, 0, 0⟩) pressAndRelease).isSome = true by decide))

example : releasePending.returned = [0x1E] ∧ releasePending.pending = [0x9E] := by decide

end KiOS
