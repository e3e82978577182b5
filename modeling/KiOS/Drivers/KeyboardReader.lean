import KiOS.Drivers.KeyboardModifiers
import KiOS.Drivers.KeyboardPolling

/-!
The interrupt driven input as a whole (`keyboard_irq.c`): the controller, the handler, the ring
buffer, and a caller of `kb_getchar_irq` or `kb_try_getchar_irq` that sleeps in `hlt`.

* `CallAt`, `ReaderRun`: where the call is, and the run with all that it logs;
* `readerMachine`: any interleaving of the keyboard, of its interrupt and of other ones with the
  steps of the caller, which takes three for `kb_irq_get_scancode`;
* `ReaderRun.stepsLeft`: how many steps the caller is away from the next scancode;
* `ReadsAll`: every scancode sent is handled once, dropped only by a full ring, and decoded once
  and in order; and a caller that is given steps gets on;
* `getchar_irq`: this holds in every run.
-/

namespace KiOS

/-- Where a call of `kb_getchar_irq` (which waits) or of `kb_try_getchar_irq` is. -/
inductive CallAt where
  | idle
  /-- Before `kb_irq_has_scancode`. -/
  | test (waits : Bool)
  /-- Before `hlt`. -/
  | hlt
  /-- Asleep in `hlt`. -/
  | halted
  /-- In `kb_irq_get_scancode`. -/
  | get (waits : Bool)
  deriving DecidableEq, Repr

/-- An interrupt ends `hlt`, and the condition of the loop is evaluated again. -/
def CallAt.wake : CallAt → CallAt
  | .halted => .test true
  | c => c

/-- The controller, the ring with its log, the caller and the variables of the translation. -/
structure ReaderRun where
  controller : Controller
  ring : KbRun
  call : CallAt
  kb : KbModifiers
  /-- The scancodes the keyboard has sent. -/
  delivered : List (BitVec 8)
  /-- Those the handler has read, each with the number of unread ones it found in the ring. -/
  handled : List (BitVec 8 × ℕ)
  /-- What the calls have returned, and whether they wait. -/
  results : List (Bool × BitVec 8)

inductive ReaderEvent where
  | deliver (scancode : BitVec 8)
  | irq
  /-- An interrupt of another device. -/
  | interrupt
  | call (waits : Bool)
  | step
  deriving DecidableEq

namespace ReaderRun

/-- A run of `keyboard_irq_handler`. -/
def irq (s : ReaderRun) : ReaderRun :=
  let r := s.controller.readData
  { s with
    controller := { r.2 with irqPending := false }
    ring := s.ring.irq r.1
    call := s.call.wake
    handled := s.handled ++ [(r.1, s.ring.pending.length)] }

/-- A scancode is translated. A call that waits goes on if it has no character. -/
def decode (s : ReaderRun) (waits : Bool) (scancode : BitVec 8) : ReaderRun :=
  let r := kbScancodeToAscii scancode s.kb
  if r.1 ≠ 0 ∨ waits = false then
    { s with kb := r.2, call := .idle, results := s.results ++ [(waits, r.1)] }
  else { s with kb := r.2, call := .test true }

/-- A step of `kb_irq_get_scancode`, and the translation behind its last one. -/
def getStep (s : ReaderRun) (waits : Bool) : ReaderRun :=
  let t := { s with ring := s.ring.get }
  match (kbIrqGetScancode s.ring.consumer s.ring.buffer).1 with
  | none => t
  | some scancode => t.decode waits scancode

/-- A step of the caller. -/
def step (s : ReaderRun) : ReaderRun :=
  match s.call with
  | .idle | .halted => s
  | .test waits =>
      if kbIrqHasScancode s.ring.buffer then { s with call := .get waits }
      else if waits then { s with call := .hlt }
      else { s with call := .idle, results := s.results ++ [(false, 0)] }
  | .hlt => { s with call := .halted }
  | .get waits => s.getStep waits

/-- After `keyboard_irq_init`. -/
def init (data : BitVec 8) (b : KbBuffer) (kb : KbModifiers) : ReaderRun where
  controller := ⟨data, false, false⟩
  ring := KbRun.init b
  call := .idle
  kb := kb
  delivered := []
  handled := []
  results := []

/-- The byte that is sent and not handled yet. -/
def inPort (s : ReaderRun) : List (BitVec 8) :=
  if s.controller.outputFull then [s.controller.data] else []

/-- How many steps of its own the caller needs at most to take a scancode out of the ring. -/
def stepsLeft (s : ReaderRun) : ℕ :=
  match s.call, s.ring.consumer with
  | .hlt, _ => 5
  | .get _, .idle => 3
  | .get _, .nonEmpty => 2
  | .get _, .slotRead _ => 1
  | _, _ => 4

end ReaderRun

/-- The keyboard sends a byte when the last one was read, and the handler runs when the interrupt
line asks for it, wherever the caller is. Asleep or not called, the caller takes no step. -/
def readerMachine : EventMachine ReaderRun ReaderEvent where
  admissible s
    | .deliver _ => s.controller.outputFull = false
    | .irq => s.controller.irqPending = true
    | .interrupt => True
    | .call _ => s.call = .idle
    | .step => s.call ≠ .idle ∧ s.call ≠ .halted
  step s
    | .deliver scancode =>
        some
          { s with
            controller := .deliver scancode
            delivered := s.delivered ++ [scancode] }
    | .irq => some s.irq
    | .interrupt => some { s with call := s.call.wake }
    | .call waits => some { s with call := .test waits }
    | .step => some s.step

instance (s : ReaderRun) : (e : ReaderEvent) → Decidable (readerMachine.admissible s e)
  | .deliver _ => inferInstanceAs (Decidable (_ = _))
  | .irq => inferInstanceAs (Decidable (_ = _))
  | .interrupt => inferInstanceAs (Decidable True)
  | .call _ => inferInstanceAs (Decidable (_ = _))
  | .step => inferInstanceAs (Decidable (_ ∧ _))

/-- The input is read as it should be, from the variables `kb₀` of the translation on. -/
structure ReadsAll (kb₀ : KbModifiers) (s : ReaderRun) : Prop where
  /-- The handler has seen every scancode once, up to one that is still in the port. -/
  handled : s.delivered = s.handled.map Prod.fst ++ s.inPort
  /-- It drops those that find 255 unread ones. -/
  accepted : s.ring.accepted = (s.handled.filter (·.2 < 255)).map Prod.fst
  /-- The others are read in order. -/
  read : s.ring.accepted = s.ring.returned ++ s.ring.pending
  /-- The characters returned are those of the scancodes read, -/
  chars : (s.results.map Prod.snd).filter (· ≠ 0) = (kbFeed s.ring.returned kb₀).1
  /-- and the variables stand where these left them. -/
  kb : s.kb = (kbFeed s.ring.returned kb₀).2
  /-- A call that waits returns a character. -/
  waits : ∀ r ∈ s.results, r.1 = true → r.2 ≠ 0
  /-- Every interrupt ends `hlt`. -/
  wakes : s.call = .halted → ∀ e u, e = .irq ∨ e = .interrupt → readerMachine.step s e = some u →
    u.call = .test true
  /-- With a scancode in the ring, five steps of the caller take one out, whatever else happens. -/
  progress : s.ring.pending ≠ [] → ∀ es t, readerMachine.Run s es t → 5 ≤ es.count .step →
    s.ring.returned.length < t.ring.returned.length

/-! ### The ring -/

namespace KbRun.Inv

variable {s : KbRun}

lemma length_pending (h : s.Inv) : s.pending.length ≤ 255 := by
  rw [h.pending_eq, Ring.length_contents]
  exact Nat.le_of_lt_succ (Ring.count_lt h.read_lt)

/-- What a run of the handler adds to the log. -/
lemma irq_log (h : s.Inv) (scancode : BitVec 8) :
    (s.irq scancode).accepted
      = s.accepted ++ (if s.pending.length < 255 then [scancode] else []) := by
  have hle := h.length_pending
  by_cases hfull : s.pending.length = 255
  · rw [(h.fifo.drops_iff scancode).mpr hfull, if_neg (by omega), List.append_nil]
  · rw [h.irq_of_room (mt h.full_iff.mp hfull), if_pos (by omega)]

lemma pending_irq (h : s.Inv) (scancode : BitVec 8) (hne : s.pending ≠ []) :
    (s.irq scancode).pending ≠ [] := by
  by_cases hfull : s.pending.length = 255
  · rwa [h.fifo.drops_same scancode hfull]
  · rw [h.fifo.accepts scancode hfull]
    exact List.append_ne_nil_of_left_ne_nil hne _

/-- A step of `kb_irq_get_scancode` that is not the last one: the log stays. -/
lemma get_inner (h : s.Inv) (hne : s.pending ≠ [])
    (hr : (kbIrqGetScancode s.consumer s.buffer).1 = none) :
    s.get.returned = s.returned ∧ s.get.pending = s.pending
      ∧ (s.consumer = .idle ∧ s.get.consumer = .nonEmpty
        ∨ s.consumer = .nonEmpty ∧ ∃ scancode, s.get.consumer = .slotRead scancode) := by
  have hempty : s.buffer.read ≠ s.buffer.write := mt h.empty_iff.mp hne
  cases hc : s.consumer with
  | idle =>
      have hget : s.get = { s with consumer := .nonEmpty } := by
        simp [KbRun.get, hc, kbIrqGetScancode, hempty]
      rw [hget]
      exact ⟨rfl, rfl, Or.inl ⟨rfl, rfl⟩⟩
  | nonEmpty =>
      have hget : s.get = { s with consumer := .slotRead (s.buffer.slot s.buffer.read) } := by
        simp [KbRun.get, hc, kbIrqGetScancode]
      rw [hget]
      exact ⟨rfl, rfl, Or.inr ⟨rfl, _, rfl⟩⟩
  | slotRead scancode =>
      rw [hc] at hr
      cases hr

/-- The last one: the scancode is returned. -/
lemma get_last (h : s.Inv) {scancode : BitVec 8} (hne : s.pending ≠ [])
    (hr : (kbIrqGetScancode s.consumer s.buffer).1 = some scancode) :
    s.get.returned = s.returned ++ [scancode] ∧ s.get.consumer = .idle := by
  have hempty : s.buffer.read ≠ s.buffer.write := mt h.empty_iff.mp hne
  cases hc : s.consumer with
  | idle =>
      rw [hc, kbIrqGetScancode, if_neg hempty] at hr
      cases hr
  | nonEmpty =>
      rw [hc] at hr
      cases hr
  | slotRead sc =>
      rw [hc] at hr
      cases hr
      simp [KbRun.get, hc, kbIrqGetScancode]

end KbRun.Inv

namespace ReaderRun

variable {s : ReaderRun} {waits : Bool} {scancode : BitVec 8}

lemma decode_ring : (s.decode waits scancode).ring = s.ring := by
  rw [decode]
  split_ifs <;> rfl

lemma getStep_of_none (hr : (kbIrqGetScancode s.ring.consumer s.ring.buffer).1 = none) :
    s.getStep waits = { s with ring := s.ring.get } := by
  rw [getStep, hr]

lemma getStep_of_some (hr : (kbIrqGetScancode s.ring.consumer s.ring.buffer).1 = some scancode) :
    s.getStep waits = ({ s with ring := s.ring.get } : ReaderRun).decode waits scancode := by
  rw [getStep, hr]

end ReaderRun

/-! ### The invariant -/

/-- The invariant of a run. -/
structure ReaderRun.Inv (kb₀ : KbModifiers) (s : ReaderRun) : Prop where
  ring : s.ring.Inv
  /-- The interrupt line is up as long as a byte is in the port. -/
  line : s.controller.irqPending = s.controller.outputFull
  handled : s.delivered = s.handled.map Prod.fst ++ s.inPort
  accepted : s.ring.accepted = (s.handled.filter (·.2 < 255)).map Prod.fst
  chars : (s.results.map Prod.snd).filter (· ≠ 0) = (kbFeed s.ring.returned kb₀).1
  kb : s.kb = (kbFeed s.ring.returned kb₀).2
  waits : ∀ r ∈ s.results, r.1 = true → r.2 ≠ 0
  /-- Outside `kb_irq_get_scancode` the ring is at rest. -/
  consumer : (∀ waits, s.call ≠ .get waits) → s.ring.consumer = .idle
  /-- Inside it the ring is not empty. -/
  get : ∀ waits, s.call = .get waits → s.ring.pending ≠ []

namespace ReaderRun.Inv

variable {kb₀ : KbModifiers} {s u : ReaderRun} {e : ReaderEvent}

lemma init (data : BitVec 8) (b : KbBuffer) (kb₀ : KbModifiers) :
    (ReaderRun.init data b kb₀).Inv kb₀ where
  ring := KbRun.Inv.init b
  line := rfl
  handled := rfl
  accepted := rfl
  chars := rfl
  kb := rfl
  waits _ hr := absurd hr List.not_mem_nil
  consumer _ := rfl
  get _ h := by cases h

lemma wake_ne_get {c : CallAt} (h : ∀ waits, c.wake ≠ .get waits) : ∀ waits, c ≠ .get waits := by
  rintro waits rfl
  exact h waits rfl

lemma wake_get {c : CallAt} {waits : Bool} (h : c.wake = .get waits) : c = .get waits := by
  cases c with
  | halted => cases h
  | _ => exact h

lemma irq (h : s.Inv kb₀) (hline : s.controller.irqPending = true) : s.irq.Inv kb₀ where
  ring := h.ring.irq _
  line := rfl
  handled := by
    have hport : s.inPort = [s.controller.data] := if_pos (h.line.symm.trans hline)
    change s.delivered = (s.handled ++ [(s.controller.data, _)]).map Prod.fst ++ []
    rw [h.handled, hport, List.map_append, List.append_nil]
    rfl
  accepted := by
    change (s.ring.irq s.controller.data).accepted = _
    rw [h.ring.irq_log, h.accepted]
    change _ = ((s.handled ++ [(s.controller.data, s.ring.pending.length)]).filter
      (·.2 < 255)).map Prod.fst
    rw [List.filter_append, List.map_append]
    by_cases hroom : s.ring.pending.length < 255 <;> simp [hroom]
  chars := h.chars
  kb := h.kb
  waits := h.waits
  consumer hc := h.consumer (wake_ne_get hc)
  get waits hc := h.ring.pending_irq _ (h.get waits (wake_get hc))

lemma interrupt (h : s.Inv kb₀) : ({ s with call := s.call.wake } : ReaderRun).Inv kb₀ where
  __ := h
  consumer hc := h.consumer (wake_ne_get hc)
  get waits hc := h.get waits (wake_get hc)

/-- Whatever place the call goes to outside `kb_irq_get_scancode`, from another such place. -/
lemma goto (h : s.Inv kb₀) (hnot : ∀ waits, s.call ≠ .get waits) {c : CallAt}
    (hc : ∀ waits, c ≠ .get waits) : ({ s with call := c } : ReaderRun).Inv kb₀ where
  __ := h
  consumer _ := h.consumer hnot
  get waits hget := absurd hget (hc waits)

/-- **A scancode is translated** right after it was returned. -/
lemma decode (h : s.Inv kb₀) {scancode : BitVec 8} {waits : Bool}
    (hreturned : s.ring.get.returned = s.ring.returned ++ [scancode])
    (hidle : s.ring.get.consumer = .idle) :
    (({ s with ring := s.ring.get } : ReaderRun).decode waits scancode).Inv kb₀ := by
  have hfeed := kbFeed_concat s.ring.returned scancode kb₀
  rw [← hreturned, ← h.kb] at hfeed
  unfold ReaderRun.decode
  by_cases hchar : (kbScancodeToAscii scancode s.kb).1 ≠ 0 ∨ waits = false
  · rw [if_pos hchar]
    refine ⟨h.ring.get, h.line, h.handled, h.accepted, ?_, (congrArg Prod.snd hfeed).symm, ?_,
      fun _ => hidle, fun _ hc => by cases hc⟩
    · rw [hfeed, ← h.chars, List.map_append, List.filter_append]
      by_cases hzero : (kbScancodeToAscii scancode s.kb).1 = 0
      · simp [hzero]
      · simp [List.filter_cons]
    · intro r hr hwait
      rcases List.mem_append.mp hr with hold | hnew
      · exact h.waits r hold hwait
      · rw [List.mem_singleton.mp hnew] at hwait ⊢
        exact hchar.resolve_right (by simpa using hwait)
  · rw [if_neg hchar]
    rw [not_or, not_not] at hchar
    refine ⟨h.ring.get, h.line, h.handled, h.accepted, ?_, (congrArg Prod.snd hfeed).symm, h.waits,
      fun _ => hidle, fun _ hc => by cases hc⟩
    rw [hfeed, ← h.chars, if_neg (not_not.mpr hchar.1), List.append_nil]

/-- **A step of the caller** keeps the invariant. -/
lemma step (h : s.Inv kb₀) : s.step.Inv kb₀ := by
  unfold ReaderRun.step
  cases hc : s.call with
  | idle => exact h
  | halted => exact h
  | hlt => exact h.goto (by simp [hc]) (by simp)
  | test waits =>
      dsimp only
      by_cases hhas : kbIrqHasScancode s.ring.buffer = true
      · rw [if_pos hhas]
        exact { h with
          consumer := fun hget => absurd rfl (hget waits)
          get := fun _ _ => h.ring.fifo.has_iff.mp hhas }
      · rw [if_neg hhas]
        cases waits with
        | true => exact h.goto (by simp [hc]) (by simp)
        | false =>
            exact { h with
              chars := by simpa using h.chars
              waits := fun r hr hwait => by
                rcases List.mem_append.mp hr with hold | hnew
                · exact h.waits r hold hwait
                · rw [List.mem_singleton.mp hnew] at hwait
                  cases hwait
              consumer := fun _ => h.consumer (by simp [hc])
              get := fun _ hget => by cases hget }
  | get waits =>
      dsimp only
      have hne := h.get waits hc
      cases hr : (kbIrqGetScancode s.ring.consumer s.ring.buffer).1 with
      | none =>
          obtain ⟨hreturned, hpending, -⟩ := h.ring.get_inner hne hr
          rw [getStep_of_none hr]
          exact { h with
            ring := h.ring.get
            chars := by rw [hreturned]; exact h.chars
            kb := by rw [hreturned]; exact h.kb
            consumer := fun hget => absurd hc (hget waits)
            get := fun _ _ => by rw [hpending]; exact hne }
      | some scancode =>
          obtain ⟨hreturned, hidle⟩ := h.ring.get_last hne hr
          rw [getStep_of_some hr]
          exact h.decode hreturned hidle

/-- **One event** keeps the invariant. -/
lemma event (h : s.Inv kb₀) (hadm : readerMachine.admissible s e)
    (hst : readerMachine.step s e = some u) : u.Inv kb₀ := by
  cases e with
  | deliver scancode =>
      obtain rfl := Option.some.inj hst
      have hport : s.inPort = [] := if_neg (Bool.eq_false_iff.mp hadm)
      exact { h with
        line := rfl
        handled := by
          change s.delivered ++ [scancode] = s.handled.map Prod.fst ++ [scancode]
          rw [h.handled, hport, List.append_nil] }
  | irq =>
      obtain rfl := Option.some.inj hst
      exact h.irq hadm
  | interrupt =>
      obtain rfl := Option.some.inj hst
      exact h.interrupt
  | call waits =>
      obtain rfl := Option.some.inj hst
      have hidle : s.call = .idle := hadm
      exact h.goto (by simp [hidle]) (by simp)
  | step =>
      obtain rfl := Option.some.inj hst
      exact h.step

end ReaderRun.Inv

/-! ### Getting on -/

namespace ReaderRun

variable {kb₀ : KbModifiers} {s t u : ReaderRun} {e : ReaderEvent} {es : List ReaderEvent}

/-- Nothing was taken out of the ring, which is not empty, and `n` steps were used. -/
structure Nearer (n : ℕ) (s t : ReaderRun) : Prop where
  returned : t.ring.returned = s.ring.returned
  pending : t.ring.pending ≠ []
  steps : t.stepsLeft + n ≤ s.stepsLeft

lemma stepsLeft_wake (hring : u.ring.consumer = s.ring.consumer) (hcall : u.call = s.call.wake) :
    u.stepsLeft ≤ s.stepsLeft := by
  unfold stepsLeft
  rw [hring, hcall]
  cases s.call <;> cases s.ring.consumer <;> exact le_rfl

/-- **A step of the caller** takes a scancode out or brings it nearer. -/
lemma nearer_step (h : s.Inv kb₀) (hne : s.ring.pending ≠ []) (hbusy : s.call ≠ .idle)
    (hawake : s.call ≠ .halted) :
    s.ring.returned.length < s.step.ring.returned.length ∨ Nearer 1 s s.step := by
  unfold step
  cases hc : s.call with
  | idle => exact absurd hc hbusy
  | halted => exact absurd hc hawake
  | hlt =>
      refine Or.inr ⟨rfl, hne, ?_⟩
      simp [stepsLeft, hc]
  | test waits =>
      dsimp only
      rw [if_pos (h.ring.fifo.has_iff.mpr hne)]
      refine Or.inr ⟨rfl, hne, ?_⟩
      simp [stepsLeft, hc, h.consumer (by simp [hc])]
  | get waits =>
      dsimp only
      cases hr : (kbIrqGetScancode s.ring.consumer s.ring.buffer).1 with
      | none =>
          obtain ⟨hreturned, hpending, hplace⟩ := h.ring.get_inner hne hr
          rw [getStep_of_none hr]
          refine Or.inr ⟨hreturned, hpending.trans_ne hne, ?_⟩
          rcases hplace with ⟨hidle, hnext⟩ | ⟨hnonEmpty, sc, hnext⟩
          · simp [stepsLeft, hc, hidle, hnext]
          · simp [stepsLeft, hc, hnonEmpty, hnext]
      | some scancode =>
          obtain ⟨hreturned, -⟩ := h.ring.get_last hne hr
          rw [getStep_of_some hr, decode_ring, hreturned, List.length_append]
          exact Or.inl (Nat.lt_succ_self _)

/-- One event, whatever it is. -/
lemma nearer_event (h : s.Inv kb₀) (hne : s.ring.pending ≠ [])
    (hadm : readerMachine.admissible s e) (hst : readerMachine.step s e = some u) :
    s.ring.returned.length < u.ring.returned.length ∨ Nearer ([e].count .step) s u := by
  cases e with
  | deliver scancode =>
      obtain rfl := Option.some.inj hst
      exact Or.inr ⟨rfl, hne, le_rfl⟩
  | irq =>
      obtain rfl := Option.some.inj hst
      exact Or.inr ⟨rfl, h.ring.pending_irq _ hne, stepsLeft_wake rfl rfl⟩
  | interrupt =>
      obtain rfl := Option.some.inj hst
      exact Or.inr ⟨rfl, hne, stepsLeft_wake rfl rfl⟩
  | call waits =>
      obtain rfl := Option.some.inj hst
      have hidle : s.call = .idle := hadm
      refine Or.inr ⟨rfl, hne, ?_⟩
      simp [stepsLeft, hidle]
  | step =>
      obtain rfl := Option.some.inj hst
      exact nearer_step h hne hadm.1 hadm.2

/-- The ring is touched by the handler and by `kb_irq_get_scancode` only. -/
lemma step_ring (s : ReaderRun) : s.step.ring = s.ring ∨ s.step.ring = s.ring.get := by
  unfold step
  cases s.call with
  | get waits =>
      dsimp only
      cases hr : (kbIrqGetScancode s.ring.consumer s.ring.buffer).1 with
      | none => exact Or.inr (congrArg ring (getStep_of_none hr))
      | some scancode => exact Or.inr ((congrArg ring (getStep_of_some hr)).trans decode_ring)
  | test waits =>
      dsimp only
      split_ifs <;> exact Or.inl rfl
  | _ => exact Or.inl rfl

/-- The log of what was returned only grows. -/
lemma returned_le (hst : readerMachine.step s e = some u) :
    s.ring.returned.length ≤ u.ring.returned.length := by
  cases e with
  | step =>
      obtain rfl := Option.some.inj hst
      rcases s.step_ring with hring | hring
      · rw [hring]
      · rw [hring, KbRun.get]
        dsimp only
        split <;> simp
  | _ =>
      obtain rfl := Option.some.inj hst
      exact le_rfl

/-- **A run on**: as long as nothing is taken out of the ring, each step of the caller counts. -/
lemma nearer_run (h : s.Inv kb₀) (hne : s.ring.pending ≠ []) (hrun : readerMachine.Run s es t) :
    t.Inv kb₀
      ∧ (s.ring.returned.length < t.ring.returned.length ∨ Nearer (es.count .step) s t) := by
  induction hrun with
  | nil => exact ⟨h, Or.inr ⟨rfl, hne, le_rfl⟩⟩
  | snoc _ hadm hst ih =>
      obtain ⟨hinv, ih⟩ := ih
      refine ⟨hinv.event hadm hst, ?_⟩
      rcases ih with hlt | hnear
      · exact Or.inl (hlt.trans_le (returned_le hst))
      · rcases nearer_event hinv hnear.pending hadm hst with hlt | hnext
        · exact Or.inl (hnear.returned ▸ hlt)
        · refine Or.inr ⟨hnext.returned.trans hnear.returned, hnext.pending, ?_⟩
          have hfar := hnear.steps
          have hclose := hnext.steps
          rw [List.count_append]
          omega

lemma one_le_stepsLeft (s : ReaderRun) : 1 ≤ s.stepsLeft ∧ s.stepsLeft ≤ 5 := by
  unfold stepsLeft
  split <;> decide

/-- The invariant gives the rest. -/
lemma Inv.readsAll (h : s.Inv kb₀) : ReadsAll kb₀ s where
  handled := h.handled
  accepted := h.accepted
  read := h.ring.fifo.prefix_accepted
  chars := h.chars
  kb := h.kb
  waits := h.waits
  wakes hhalted e u he hst := by
    have hwake : s.call.wake = .test true := by rw [hhalted, CallAt.wake]
    rcases he with rfl | rfl
    · obtain rfl := Option.some.inj hst
      exact hwake
    · obtain rfl := Option.some.inj hst
      exact hwake
  progress hne es t hrun hcount := by
    rcases (nearer_run h hne hrun).2 with hlt | hnear
    · exact hlt
    · have hsteps := hnear.steps
      have hpos := (one_le_stepsLeft t).1
      have hle := (one_le_stepsLeft s).2
      omega

end ReaderRun

/-- **The interrupt driven input reads all**: wherever interrupts cut in, every scancode sent is
handled once, those that do not find the ring full are decoded once and in order, and a caller
that sleeps with a scancode in the ring is woken by the next interrupt and takes it. -/
theorem getchar_irq (data : BitVec 8) (b : KbBuffer) (kb₀ : KbModifiers) {es : List ReaderEvent}
    {s : ReaderRun} (hrun : readerMachine.Run (ReaderRun.init data b kb₀) es s) :
    ReadsAll kb₀ s := by
  have hinv : s.Inv kb₀ := EventMachine.Run.invariant (.init data b kb₀)
    (fun _ _ _ ht hadm hst => ht.event hadm hst) hrun
  exact hinv.readsAll

/-- A key is pressed between the test and `hlt`, and the timer wakes the caller. -/
def pressedBeforeHlt : List ReaderEvent :=
  [.call true, .step, .deliver 0x1E, .irq, .step, .interrupt, .step, .step, .step, .step]

/-- No key was pressed. -/
def readerBoot : ReaderRun := ReaderRun.init 0 ⟨fun _ => 0, 0, 0⟩ ⟨false, false, false, false⟩

/-- The caller has its character. -/
def keyReturned : ReaderRun := (readerMachine.exec readerBoot pressedBeforeHlt).getD readerBoot

/-- The statement for that key. -/
theorem getchar_irq_beforeHlt : ReadsAll ⟨false, false, false, false⟩ keyReturned :=
  getchar_irq 0 ⟨fun _ => 0, 0, 0⟩ ⟨false, false, false, false⟩ (EventMachine.Run.of_isSome
    (show (readerMachine.exec readerBoot pressedBeforeHlt).isSome = true by decide))

example : keyReturned.results = [(true, chr 'a')] := by decide

end KiOS
