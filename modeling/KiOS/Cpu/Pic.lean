import KiOS.Library.BitSet
import KiOS.Library.EventMachine

/-!
The two interrupt controllers and their driver (`pic.c`).

* `Pic`: one controller, with its request, service and mask registers and the words that
  initialise it; `outCommand`, `outData`, `inData`: its two ports;
* `Pic.resolve`, `Pic.acknowledge`: the line it serves next, and the processor's acknowledgement;
* `Pics`: the pair, the second one wired to line 2 of the first; `outb`, `inb`, `inta`;
* `picRemap`, `picSendEoi`, `picSetMask`, `picClearMask`: the source's functions;
* `Enabled`, `rank`, `PicOk`: what the pair is for: the requests that may interrupt, their order,
  and what an interrupt with its EOI owes;
* `picMachine`, `pic_protocol`: it does so in every run after `pic_remap(32, 40)`.
-/

namespace KiOS

/-! ### A controller -/

/-- What the next write to the data port is. -/
inductive PicStage where
  | ready
  | icw2
  | icw3
  | icw4
  deriving DecidableEq, Repr

/-- An 8259A. -/
structure Pic where
  irr : BitVec 8
  isr : BitVec 8
  imr : BitVec 8
  icw1 : BitVec 8
  icw2 : BitVec 8
  icw3 : BitVec 8
  icw4 : BitVec 8
  stage : PicStage
  deriving DecidableEq, Repr

namespace Pic

/-- The word behind ICW2 and ICW3: ICW4 if ICW1 asked for it. -/
def lastStage (p : Pic) : PicStage := if p.icw1.getLsbD 0 then .icw4 else .ready

/-- A write to the command port: ICW1, or an OCW2 with the non-specific EOI. The other commands,
which the kernel does not use, have no effect here. -/
def outCommand (v : BitVec 8) (p : Pic) : Pic :=
  if v.getLsbD 4 then
    { p with
      irr := 0
      isr := 0
      imr := 0
      icw1 := v
      icw4 := if v.getLsbD 0 then p.icw4 else 0
      stage := .icw2 }
  else if v.getLsbD 3 = false ∧ v.extractLsb' 5 3 = 1 then
    match p.isr.lowest with
    | some i => { p with isr := p.isr.withoutBit i }
    | none => p
  else p

/-- A write to the data port. -/
def outData (v : BitVec 8) (p : Pic) : Pic :=
  match p.stage with
  | .ready => { p with imr := v }
  -- a single controller has no ICW3
  | .icw2 => { p with icw2 := v, stage := if p.icw1.getLsbD 1 then p.lastStage else .icw3 }
  | .icw3 => { p with icw3 := v, stage := p.lastStage }
  | .icw4 => { p with icw4 := v, stage := .ready }

/-- Once the controller is initialised, the data port is its mask. -/
lemma outData_ready {v : BitVec 8} {p : Pic} (h : p.stage = .ready) :
    p.outData v = { p with imr := v } := by
  obtain ⟨irr, isr, imr, icw1, icw2, icw3, icw4, stage⟩ := p
  cases h
  rfl

/-- A read of the data port. -/
def inData (p : Pic) : BitVec 8 := p.imr

/-- The line served next, if the given ones are requested: the first one that is not masked, unless
one of the same or a higher priority is in service. -/
def resolve (lines : BitVec 8) (p : Pic) : Option (Fin 8) :=
  if p.stage = .ready then
    match (lines &&& ~~~p.imr).lowest, p.isr.lowest with
    | some i, none => some i
    | some i, some j => if i < j then some i else none
    | none, _ => none
  else none

/-- The processor acknowledges: the line is in service. Without one it is line 7, which is not. -/
def acknowledge (lines : BitVec 8) (p : Pic) : Fin 8 × Pic :=
  match p.resolve lines with
  | some i =>
      (i, { p with
        irr := p.irr.withoutBit i
        isr := if p.icw4.getLsbD 1 then p.isr else p.isr.withBit i })
  | none => (7, p)

/-- The vector put on the bus, in the mode of the 8086. -/
def vector (i : Fin 8) (p : Pic) : Option (BitVec 8) :=
  if p.icw4.getLsbD 0 then some ((p.icw2 &&& 0xF8) ||| BitVec.ofNat 8 i) else none

end Pic

/-! ### The pair -/

/-- `PIC1_COMMAND`. -/
def pic1Command : BitVec 16 := 0x20

/-- `PIC1_DATA`. -/
def pic1Data : BitVec 16 := 0x21

/-- `PIC2_COMMAND`. -/
def pic2Command : BitVec 16 := 0xA0

/-- `PIC2_DATA`. -/
def pic2Data : BitVec 16 := 0xA1

/-- The two controllers. The output of the slave is line 2 of the master. -/
structure Pics where
  master : Pic
  slave : Pic
  deriving DecidableEq, Repr

namespace Pics

/-- `outb`. Other ports do not reach the controllers. -/
def outb (port : BitVec 16) (v : BitVec 8) (p : Pics) : Pics :=
  if port = pic1Command then { p with master := p.master.outCommand v }
  else if port = pic1Data then { p with master := p.master.outData v }
  else if port = pic2Command then { p with slave := p.slave.outCommand v }
  else if port = pic2Data then { p with slave := p.slave.outData v }
  else p

/-- `inb`, of the two data ports. -/
def inb (port : BitVec 16) (p : Pics) : BitVec 8 :=
  if port = pic1Data then p.master.inData else if port = pic2Data then p.slave.inData else 0

/-- A device requests an interrupt. None is wired to line 2. -/
def raise (line : Fin 16) (p : Pics) : Pics :=
  if line = 2 then p
  else if line.val < 8 then { p with master := { p.master with irr := p.master.irr.withBit line } }
  else { p with slave := { p.slave with irr := p.slave.irr.withBit (line.val - 8) } }

/-- The timer's line. -/
abbrev timerLine : Fin 16 := 0

/-- The keyboard's line. -/
abbrev keyboardLine : Fin 16 := 1

/-- A device takes its request back. -/
def withdraw (line : Fin 16) (p : Pics) : Pics :=
  if line.val < 8 then { p with master := { p.master with irr := p.master.irr.withoutBit line } }
  else { p with slave := { p.slave with irr := p.slave.irr.withoutBit (line.val - 8) } }

/-- The lines of the master. Line 2 is high while the slave has a request, and is still seen high
for a while (`held`) when the slave's request is gone. -/
def masterLines (held : Bool) (p : Pics) : BitVec 8 :=
  if (p.slave.resolve p.slave.irr).isSome || held then p.master.irr.withBit 2
  else p.master.irr.withoutBit 2

/-- The line to the processor. -/
def intr (p : Pics) : Bool := (p.master.resolve (p.masterLines false)).isSome

/-- The processor takes an interrupt. The master puts the vector on the bus, unless ICW3 says that
the line belongs to a slave: then the slave whose number that is does, and without one nobody. -/
def inta (held : Bool) (p : Pics) : Option (BitVec 8) × Pics :=
  let m := p.master.acknowledge (p.masterLines held)
  if p.master.icw3.getLsbD m.1 then
    if (p.slave.icw3.extractLsb' 0 3).toNat = m.1 then
      let s := p.slave.acknowledge p.slave.irr
      (p.slave.vector s.1, { master := m.2, slave := s.2 })
    else (none, { p with master := m.2 })
  else (p.master.vector m.1, { p with master := m.2 })

variable {p : Pics} {v : BitVec 8}

@[simp] lemma outb_pic1Command :
    p.outb pic1Command v = { p with master := p.master.outCommand v } :=
  if_pos rfl

@[simp] lemma outb_pic1Data : p.outb pic1Data v = { p with master := p.master.outData v } := by
  rw [outb, if_neg (by decide), if_pos rfl]

@[simp] lemma outb_pic2Command :
    p.outb pic2Command v = { p with slave := p.slave.outCommand v } := by
  rw [outb, if_neg (by decide), if_neg (by decide), if_pos rfl]

@[simp] lemma outb_pic2Data : p.outb pic2Data v = { p with slave := p.slave.outData v } := by
  rw [outb, if_neg (by decide), if_neg (by decide), if_neg (by decide), if_pos rfl]

@[simp] lemma inb_pic1Data : p.inb pic1Data = p.master.imr := if_pos rfl

@[simp] lemma inb_pic2Data : p.inb pic2Data = p.slave.imr := by
  rw [inb, if_neg (by decide), if_pos rfl]
  rfl

end Pics

/-! ### The driver -/

/-- `PIC_EOI`. -/
def picEoi : BitVec 8 := 0x20

/-- `ICW1_ICW4`. -/
def icw1Icw4 : BitVec 8 := 0x01

/-- `ICW1_INIT`. -/
def icw1Init : BitVec 8 := 0x10

/-- `ICW4_8086`. -/
def icw4Mode8086 : BitVec 8 := 0x01

/-- `io_wait`. -/
def ioWait (p : Pics) : Pics := p.outb 0x80 0

@[simp] lemma ioWait_eq (p : Pics) : ioWait p = p := by
  rw [ioWait, Pics.outb, if_neg (by decide), if_neg (by decide), if_neg (by decide),
    if_neg (by decide)]

/-- `pic_remap`. -/
def picRemap (offset1 offset2 : BitVec 32) (p : Pics) : Pics :=
  let a1 := p.inb pic1Data
  let a2 := p.inb pic2Data
  let p := ioWait (p.outb pic1Command (icw1Init ||| icw1Icw4))
  let p := ioWait (p.outb pic2Command (icw1Init ||| icw1Icw4))
  let p := ioWait (p.outb pic1Data (offset1.setWidth 8))
  let p := ioWait (p.outb pic2Data (offset2.setWidth 8))
  let p := ioWait (p.outb pic1Data 0x04)
  let p := ioWait (p.outb pic2Data 0x02)
  let p := ioWait (p.outb pic1Data icw4Mode8086)
  let p := ioWait (p.outb pic2Data icw4Mode8086)
  (p.outb pic1Data a1).outb pic2Data a2

/-- `pic_send_eoi`. -/
def picSendEoi (irq : BitVec 8) (p : Pics) : Pics :=
  let p := if 8 ≤ irq then p.outb pic2Command picEoi else p
  p.outb pic1Command picEoi

/-- The port and the bit of a line, in `pic_set_mask` and `pic_clear_mask`. -/
def picLine (irqLine : BitVec 8) : BitVec 16 × ℕ :=
  if irqLine < 8 then (pic1Data, irqLine.toNat) else (pic2Data, (irqLine - 8).toNat)

/-- `pic_set_mask`. -/
def picSetMask (irqLine : BitVec 8) (p : Pics) : Pics :=
  let line := picLine irqLine
  p.outb line.1 ((p.inb line.1).withBit line.2)

/-- `pic_clear_mask`. -/
def picClearMask (irqLine : BitVec 8) (p : Pics) : Pics :=
  let line := picLine irqLine
  p.outb line.1 ((p.inb line.1).withoutBit line.2)

/-- The words that initialise a controller, and its old mask behind them. -/
lemma Pic.initialise (v icw3 : BitVec 8) (p : Pic) :
    ((((p.outCommand (icw1Init ||| icw1Icw4)).outData v).outData icw3).outData icw4Mode8086).outData
        p.imr
      = ⟨0, 0, p.imr, 0x11, v, icw3, 0x01, .ready⟩ := by
  have hicw1 : p.outCommand (icw1Init ||| icw1Icw4)
      = ⟨0, 0, 0, 0x11, p.icw2, p.icw3, p.icw4, .icw2⟩ := by
    simp [outCommand, icw1Init, icw1Icw4]
  rw [hicw1]
  simp [outData, lastStage, icw4Mode8086]

/-- **What `pic_remap` makes of any two controllers**, also of ones that wait for the rest of
another initialisation: both are ready, with nothing requested and nothing in service, and keep
their masks. -/
lemma picRemap_eq (offset1 offset2 : BitVec 32) (p : Pics) :
    picRemap offset1 offset2 p =
      { master := ⟨0, 0, p.master.imr, 0x11, offset1.setWidth 8, 0x04, 0x01, .ready⟩
        slave := ⟨0, 0, p.slave.imr, 0x11, offset2.setWidth 8, 0x02, 0x01, .ready⟩ } := by
  simp only [picRemap, ioWait_eq, Pics.outb_pic1Command, Pics.outb_pic1Data,
    Pics.outb_pic2Command, Pics.outb_pic2Data, Pics.inb_pic1Data, Pics.inb_pic2Data,
    Pic.initialise]

/-! ### What the pair is for -/

namespace Pics

/-- A request that may interrupt: it is not masked and, if it reaches the master through line 2,
neither is that line. -/
def Enabled (line : Fin 16) (p : Pics) : Prop :=
  if line.val < 8 then
    line ≠ 2 ∧ p.master.irr.getLsbD line = true ∧ p.master.imr.getLsbD line = false
  else
    p.slave.irr.getLsbD (line.val - 8) = true ∧ p.slave.imr.getLsbD (line.val - 8) = false
      ∧ p.master.imr.getLsbD 2 = false

instance (line : Fin 16) (p : Pics) : Decidable (p.Enabled line) :=
  inferInstanceAs (Decidable (if line.val < 8 then _ ∧ _ ∧ _ else _ ∧ _ ∧ _))

/-- The order of the lines: those of the slave stand where line 2 is. -/
def rank (line : Fin 16) : ℕ :=
  if line.val < 2 then line else if 8 ≤ line.val then line - 6 else line + 7

/-- The line whose turn it is. -/
def First (line : Fin 16) (p : Pics) : Prop :=
  p.Enabled line ∧ ∀ other, p.Enabled other → rank line ≤ rank other

/-- The slave's request is gone, but the master still sees it, and no line comes before it. -/
def SlaveGone (held : Bool) (p : Pics) : Prop :=
  held = true ∧ p.master.imr.getLsbD 2 = false ∧ ∀ line, p.Enabled line → 9 < rank line

/-- The interrupt has the vector of the line, and with its EOI it takes the given controllers'
place. -/
def Delivers (held : Bool) (line : Fin 16) (p q : Pics) : Prop :=
  (p.inta held).1 = some (32 + BitVec.ofNat 8 line)
    ∧ picSendEoi (BitVec.ofNat 8 line) (p.inta held).2 = q

end Pics

/-- What the pair owes between two interrupts. -/
structure PicOk (p : Pics) : Prop where
  /-- Nothing is in service, so nothing holds a request back. -/
  idle : p.master.isr = 0 ∧ p.slave.isr = 0
  intr_iff : p.intr = true ↔ ∃ line, p.Enabled line
  /-- An interrupt takes the request whose turn it is and changes nothing else. Where there is none,
  or the slave's is gone, it is one of the last line of a controller, and changes nothing. -/
  interrupt : ∀ held,
    (∃ line, p.First line ∧ p.Delivers held line (p.withdraw line))
      ∨ (p.SlaveGone held ∧ p.Delivers held 15 p)
      ∨ ((∀ line, ¬ p.Enabled line) ∧ p.Delivers held 7 p)

/-! ### Runs -/

inductive PicEvent where
  | raise (line : Fin 16)
  | withdraw (line : Fin 16)
  | setMask (irqLine : BitVec 8)
  | clearMask (irqLine : BitVec 8)
  /-- An interrupt, up to the EOI of its handler. -/
  | interrupt (held : Bool)

/-- Devices, driver and interrupts in any order. The request of an interrupt may be gone when it is
taken, so one may be taken at any time. -/
def picMachine : EventMachine Pics PicEvent where
  admissible _ _ := True
  step p
    | .raise line => some (p.raise line)
    | .withdraw line => some (p.withdraw line)
    | .setMask irqLine => some (picSetMask irqLine p)
    | .clearMask irqLine => some (picClearMask irqLine p)
    | .interrupt held => (p.inta held).1.map fun v => picSendEoi (v - 32) (p.inta held).2

instance (p : Pics) (e : PicEvent) : Decidable (picMachine.admissible p e) :=
  inferInstanceAs (Decidable True)

/-- A controller between two interrupts. -/
def Pic.between (irr imr icw2 icw3 : BitVec 8) : Pic :=
  ⟨irr, 0, imr, 0x11, icw2, icw3, 0x01, .ready⟩

/-- A controller with one line in service. -/
def Pic.serving (irr imr icw2 icw3 : BitVec 8) (i : Fin 8) : Pic :=
  { between irr imr icw2 icw3 with isr := (0 : BitVec 8).withBit i }

/-- The invariant: the pair as `pic_remap(32, 40)` leaves it, but for the requests and the masks. -/
structure PicInv (p : Pics) : Prop where
  master : p.master = Pic.between p.master.irr p.master.imr 32 0x04
  slave : p.slave = Pic.between p.slave.irr p.slave.imr 40 0x02
  line2 : p.master.irr.getLsbD 2 = false

namespace Pic

variable {irr imr icw2 icw3 lines : BitVec 8} {i : Fin 8}

/-- With nothing in service, the first line that is requested and not masked is next. -/
@[simp] lemma resolve_between :
    (between irr imr icw2 icw3).resolve lines = (lines &&& ~~~imr).lowest := by
  have hready : (between irr imr icw2 icw3).stage = .ready := rfl
  have hisr : (between irr imr icw2 icw3).isr.lowest = none := BitVec.lowest_zero
  have himr : (between irr imr icw2 icw3).imr = imr := rfl
  rw [resolve, if_pos hready, hisr, himr]
  cases (lines &&& ~~~imr).lowest with
  | none => rfl
  | some i => rfl

/-- A line is taken into service. -/
lemma acknowledge_some (h : (lines &&& ~~~imr).lowest = some i) :
    (between irr imr icw2 icw3).acknowledge lines
      = (i, serving (irr.withoutBit i) imr icw2 icw3 i) := by
  have hauto : ¬ (between irr imr icw2 icw3).icw4.getLsbD 1 = true :=
    show ¬ (0x01 : BitVec 8).getLsbD 1 = true by decide
  rw [acknowledge, resolve_between, h]
  simp only [if_neg hauto]
  rfl

lemma acknowledge_none (h : (lines &&& ~~~imr).lowest = none) :
    (between irr imr icw2 icw3).acknowledge lines = (7, between irr imr icw2 icw3) := by
  rw [acknowledge, resolve_between, h]

/-- The EOI ends the service of the only line in service. -/
lemma eoi_service (i : Fin 8) :
    outCommand picEoi (serving irr imr icw2 icw3 i) = between irr imr icw2 icw3 := by
  have heoi : ¬ picEoi.getLsbD 4 = true := by decide
  have hisr : (serving irr imr icw2 icw3 i).isr.lowest = some i := BitVec.lowest_withBit_zero i
  have hclear : ((0 : BitVec 8).withBit i).withoutBit i = 0 :=
    BitVec.withoutBit_withBit BitVec.getLsbD_zero
  rw [outCommand, if_neg heoi, if_pos (by decide), hisr]
  simp only [serving, hclear]
  rfl

/-- With nothing in service it does nothing. -/
lemma eoi_between : outCommand picEoi (between irr imr icw2 icw3) = between irr imr icw2 icw3 := by
  have heoi : ¬ picEoi.getLsbD 4 = true := by decide
  have hisr : (between irr imr icw2 icw3).isr.lowest = none := BitVec.lowest_zero
  rw [outCommand, if_neg heoi, if_pos (by decide)]
  simp only [hisr]

end Pic

/-- The requests of the master that are not masked. -/
def Pics.requests (held : Bool) (p : Pics) : BitVec 8 := p.masterLines held &&& ~~~p.master.imr

/-- The requests of the slave that are not masked. -/
def Pics.slaveRequests (p : Pics) : BitVec 8 := p.slave.irr &&& ~~~p.slave.imr

namespace PicInv

variable {p : Pics} {held : Bool} {line : Fin 16}

lemma getLsbD_slaveRequests (k : Fin 8) : p.slaveRequests.getLsbD k
    = (p.slave.irr.getLsbD k && !p.slave.imr.getLsbD k) := by
  simp [Pics.slaveRequests]

/-- Line 2 of the master is that of the slave. -/
lemma getLsbD_requests (h : PicInv p) (i : Fin 8) : (p.requests held).getLsbD i
    = ((if i = 2 then p.slaveRequests.lowest.isSome || held else p.master.irr.getLsbD i)
      && !p.master.imr.getLsbD i) := by
  have hslave : p.slave.resolve p.slave.irr = p.slaveRequests.lowest := by
    rw [h.slave, Pic.resolve_between]
    rfl
  have hlines : (p.masterLines held).getLsbD i
      = if i = 2 then p.slaveRequests.lowest.isSome || held else p.master.irr.getLsbD i := by
    rw [Pics.masterLines, hslave]
    split_ifs with hint h2 h2
    · rw [BitVec.getLsbD_withBit i.isLt, hint, h2]
      simp
    · rw [BitVec.getLsbD_withBit i.isLt]
      simp [Fin.ext_iff] at h2
      simp [h2]
    · rw [BitVec.getLsbD_withoutBit i.isLt, h2]
      simpa using hint
    · rw [BitVec.getLsbD_withoutBit i.isLt]
      simp [Fin.ext_iff] at h2
      simp [h2]
  rw [Pics.requests, BitVec.getLsbD_and, hlines, BitVec.getLsbD_not]
  simp

variable (held) in
/-- A line of the master that is enabled is among its requests. -/
lemma requests_of_enabled (h : PicInv p) (hline : p.Enabled line) (hlt : line.val < 8) :
    line ≠ 2 ∧ (p.requests held).getLsbD line = true := by
  rw [Pics.Enabled, if_pos hlt] at hline
  obtain ⟨hne, hirr, himr⟩ := hline
  have hne' : (⟨line, hlt⟩ : Fin 8) ≠ 2 := by
    intro h2
    have hval : line.val = 2 := congrArg Fin.val h2
    exact hne (Fin.ext hval)
  refine ⟨hne, (getLsbD_requests h ⟨line, hlt⟩).trans ?_⟩
  rw [if_neg hne']
  simp [hirr, himr]

variable (held) in
/-- A line of the slave that is enabled makes it request line 2. -/
lemma requests_of_enabled_slave (h : PicInv p) (hline : p.Enabled line) (hge : 8 ≤ line.val) :
    p.slaveRequests.getLsbD (line.val - 8) = true ∧ (p.requests held).getLsbD 2 = true := by
  rw [Pics.Enabled, if_neg (by omega)] at hline
  obtain ⟨hirr, himr, himr2⟩ := hline
  have hslave : p.slaveRequests.getLsbD (line.val - 8) = true := by
    refine (getLsbD_slaveRequests ⟨line.val - 8, by omega⟩).trans ?_
    simp [hirr, himr]
  have hsome : p.slaveRequests.lowest.isSome = true := by
    rw [← Option.ne_none_iff_isSome]
    intro hnone
    rw [BitVec.getLsbD_of_lowest_eq_none hnone] at hslave
    cases hslave
  refine ⟨hslave, (getLsbD_requests h 2).trans ?_⟩
  rw [hsome, show ((2 : Fin 8) : ℕ) = 2 from rfl, himr2]
  rfl

/-- **Whose turn it is**: the four ways in which the two priority encoders can end. -/
lemma lowest_cases (h : PicInv p) (held : Bool) :
    (∃ i : Fin 8, i ≠ 2 ∧ (p.requests held).lowest = some i
        ∧ p.First (Fin.castLE (by decide) i))
      ∨ (∃ k : Fin 8, (p.requests held).lowest = some 2 ∧ p.slaveRequests.lowest = some k
        ∧ p.First (Fin.natAdd 8 k))
      ∨ ((p.requests held).lowest = some 2 ∧ p.slaveRequests.lowest = none ∧ p.SlaveGone held)
      ∨ ((p.requests held).lowest = none ∧ ∀ line, ¬ p.Enabled line) := by
  cases hm : (p.requests held).lowest with
  | none =>
      refine Or.inr (Or.inr (Or.inr ⟨rfl, fun line hline => ?_⟩))
      rcases Nat.lt_or_ge line.val 8 with hlt | hge
      · have hbit := (requests_of_enabled held h hline hlt).2
        rw [BitVec.getLsbD_of_lowest_eq_none hm] at hbit
        cases hbit
      · have hbit := (requests_of_enabled_slave held h hline hge).2
        rw [BitVec.getLsbD_of_lowest_eq_none hm] at hbit
        cases hbit
  | some i =>
      obtain ⟨hbit, hbelow⟩ := BitVec.lowest_eq_some.mp hm
      -- no enabled line is before the one that the master chose
      have hmaster : ∀ other : Fin 16, p.Enabled other → other.val < 8 → i.val ≤ other.val := by
        intro other hother hlt
        by_contra hlt'
        have hfalse := hbelow ⟨other, hlt⟩ (Fin.lt_def.mpr (by simpa using hlt'))
        rw [(requests_of_enabled held h hother hlt).2] at hfalse
        cases hfalse
      have hslave : ∀ other : Fin 16, p.Enabled other → 8 ≤ other.val → i.val ≤ 2 := by
        intro other hother hge
        by_contra hlt'
        have hfalse := hbelow 2 (Fin.lt_def.mpr (by simpa using hlt'))
        rw [show ((2 : Fin 8) : ℕ) = 2 from rfl,
          (requests_of_enabled_slave held h hother hge).2] at hfalse
        cases hfalse
      rw [getLsbD_requests h] at hbit
      by_cases h2 : i = 2
      · subst h2
        cases hs : p.slaveRequests.lowest with
        | none =>
            simp only [hs, Option.isSome_none, Bool.false_or, if_true, Bool.and_eq_true,
              Bool.not_eq_true'] at hbit
            refine Or.inr (Or.inr (Or.inl ⟨rfl, rfl, hbit.1, hbit.2, fun line hline => ?_⟩))
            rcases Nat.lt_or_ge line.val 8 with hlt | hge
            · have hle := hmaster line hline hlt
              have hne := (requests_of_enabled held h hline hlt).1
              have hne' : line.val ≠ 2 := fun h' => hne (Fin.ext h')
              rw [show ((2 : Fin 8) : ℕ) = 2 from rfl] at hle
              rw [Pics.rank, if_neg (by omega), if_neg (by omega)]
              omega
            · have hbit' := (requests_of_enabled_slave held h hline hge).1
              rw [BitVec.getLsbD_of_lowest_eq_none hs] at hbit'
              cases hbit'
        | some k =>
            refine Or.inr (Or.inl ⟨k, rfl, rfl, ?_, fun other hother => ?_⟩)
            · obtain ⟨hk, -⟩ := BitVec.lowest_eq_some.mp hs
              rw [getLsbD_slaveRequests] at hk
              simp [hs] at hbit
              simp at hk
              rw [Pics.Enabled, if_neg (by simp)]
              simpa using ⟨hk.1, hk.2, hbit⟩
            · have hk := (BitVec.lowest_eq_some.mp hs).2
              rcases Nat.lt_or_ge other.val 8 with hlt | hge
              · have hle := hmaster other hother hlt
                have hne := (requests_of_enabled held h hother hlt).1
                have hne' : other.val ≠ 2 := fun h' => hne (Fin.ext h')
                simp [Pics.rank] at hle ⊢
                split_ifs <;> omega
              · have hle : k.val ≤ other.val - 8 := by
                  by_contra hlt'
                  have hfalse := hk ⟨other.val - 8, by omega⟩ (Fin.lt_def.mpr (by simpa using hlt'))
                  rw [(requests_of_enabled_slave held h hother hge).1] at hfalse
                  cases hfalse
                simp [Pics.rank]
                split_ifs <;> omega
      · have hval : i.val ≠ 2 := fun h' => h2 (Fin.ext h')
        refine Or.inl ⟨i, h2, rfl, ?_, fun other hother => ?_⟩
        · rw [if_neg h2] at hbit
          rw [Pics.Enabled, if_pos (by simp)]
          simp at hbit
          refine ⟨fun h' => hval ?_, hbit⟩
          simpa using congrArg Fin.val h'
        · rcases Nat.lt_or_ge other.val 8 with hlt | hge
          · have hle := hmaster other hother hlt
            have hne := (requests_of_enabled held h hother hlt).1
            have hne' : other.val ≠ 2 := fun h' => hne (Fin.ext h')
            simp [Pics.rank]
            split_ifs <;> omega
          · have hle := hslave other hother hge
            simp [Pics.rank]
            split_ifs <;> omega

/-! ### An interrupt -/

variable (held) in
lemma acknowledge_master (h : PicInv p) : p.master.acknowledge (p.masterLines held)
    = match (p.requests held).lowest with
      | some i => (i, Pic.serving (p.master.irr.withoutBit i) p.master.imr 32 0x04 i)
      | none => (7, p.master) := by
  rw [h.master]
  cases hm : (p.requests held).lowest with
  | none => exact Pic.acknowledge_none hm
  | some i => exact Pic.acknowledge_some hm

lemma acknowledge_slave (h : PicInv p) : p.slave.acknowledge p.slave.irr
    = match p.slaveRequests.lowest with
      | some k => (k, Pic.serving (p.slave.irr.withoutBit k) p.slave.imr 40 0x02 k)
      | none => (7, p.slave) := by
  rw [h.slave]
  cases hs : p.slaveRequests.lowest with
  | none => exact Pic.acknowledge_none hs
  | some k => exact Pic.acknowledge_some hs

/-- The vector of a line of the master. -/
lemma vector_master (i : Fin 8) (q : Pic) (hq : q.icw2 = 32) (hq4 : q.icw4 = 0x01) :
    q.vector i = some (32 + BitVec.ofNat 8 i) := by
  have hvec : ∀ i : Fin 8, ((32 : BitVec 8) &&& 0xF8) ||| BitVec.ofNat 8 i
      = 32 + BitVec.ofNat 8 i := by decide
  rw [Pic.vector, hq, hq4, if_pos (by decide), hvec]

/-- The vector of a line of the slave. -/
lemma vector_slave (k : Fin 8) (q : Pic) (hq : q.icw2 = 40) (hq4 : q.icw4 = 0x01) :
    q.vector k = some (32 + BitVec.ofNat 8 (Fin.natAdd 8 k)) := by
  have hvec : ∀ k : Fin 8, ((40 : BitVec 8) &&& 0xF8) ||| BitVec.ofNat 8 k
      = 32 + BitVec.ofNat 8 (Fin.natAdd 8 k) := by decide
  rw [Pic.vector, hq, hq4, if_pos (by decide), hvec]

/-- Only line 2 of the master belongs to a slave. -/
lemma icw3_bit (h : PicInv p) (i : Fin 8) : p.master.icw3.getLsbD i = decide (i = 2) := by
  have hbit : ∀ i : Fin 8, (0x04 : BitVec 8).getLsbD i = decide (i = 2) := by decide
  rw [h.master]
  exact hbit i

/-- An interrupt that the master answers. -/
lemma inta_master (h : PicInv p) {i : Fin 8} (h2 : i ≠ 2)
    (hi : (p.master.acknowledge (p.masterLines held)).1 = i) :
    p.inta held = (some (32 + BitVec.ofNat 8 i),
      { p with master := (p.master.acknowledge (p.masterLines held)).2 }) := by
  have hbit : ¬ p.master.icw3.getLsbD i = true := by
    rw [h.icw3_bit]
    simp [h2]
  have hvec : p.master.vector i = some (32 + BitVec.ofNat 8 i) := by
    rw [h.master]
    exact vector_master i _ rfl rfl
  rw [Pics.inta]
  simp only [hi, if_neg hbit, hvec]

/-- An interrupt that the slave answers. -/
lemma inta_slave (h : PicInv p) {k : Fin 8}
    (hi : (p.master.acknowledge (p.masterLines held)).1 = 2)
    (hk : (p.slave.acknowledge p.slave.irr).1 = k) :
    p.inta held = (some (32 + BitVec.ofNat 8 (Fin.natAdd 8 k)),
      { master := (p.master.acknowledge (p.masterLines held)).2
        slave := (p.slave.acknowledge p.slave.irr).2 }) := by
  have hbit : p.master.icw3.getLsbD (2 : Fin 8) = true := by
    rw [h.icw3_bit]
    rfl
  have hid : (p.slave.icw3.extractLsb' 0 3).toNat = (2 : Fin 8) := by
    rw [h.slave]
    rfl
  have hvec : p.slave.vector k = some (32 + BitVec.ofNat 8 (Fin.natAdd 8 k)) := by
    rw [h.slave]
    exact vector_slave k _ rfl rfl
  rw [Pics.inta]
  simp only [hi, hk, if_pos hbit, if_pos hid, hvec]

/-- The EOI of a line of the master. -/
lemma picSendEoi_master (i : Fin 8) (q : Pics) :
    picSendEoi (BitVec.ofNat 8 (Fin.castLE (by decide) i : Fin 16)) q
      = { q with master := q.master.outCommand picEoi } := by
  have hlt : ∀ i : Fin 8,
      ¬ (8 : BitVec 8) ≤ BitVec.ofNat 8 (Fin.castLE (by decide) i : Fin 16) := by
    decide
  rw [picSendEoi, if_neg (hlt i), Pics.outb_pic1Command]

/-- The EOI of a line of the slave. -/
lemma picSendEoi_slave (k : Fin 8) (q : Pics) :
    picSendEoi (BitVec.ofNat 8 (Fin.natAdd 8 k)) q
      = { master := q.master.outCommand picEoi, slave := q.slave.outCommand picEoi } := by
  have hge : ∀ k : Fin 8, (8 : BitVec 8) ≤ BitVec.ofNat 8 (Fin.natAdd 8 k) := by decide
  rw [picSendEoi, if_pos (hge k), Pics.outb_pic2Command, Pics.outb_pic1Command]

/-- **What an interrupt does**, with its EOI. -/
lemma interrupt (h : PicInv p) (held : Bool) :
    (∃ line, p.First line ∧ p.Delivers held line (p.withdraw line))
      ∨ (p.SlaveGone held ∧ p.Delivers held 15 p)
      ∨ ((∀ line, ¬ p.Enabled line) ∧ p.Delivers held 7 p) := by
  have hmaster := h.acknowledge_master held
  have hslave := h.acknowledge_slave
  have hline2 : p.master.irr.withoutBit (2 : Fin 8) = p.master.irr :=
    BitVec.withoutBit_of_clear h.line2
  rcases h.lowest_cases held with ⟨i, h2, hm, hfirst⟩ | ⟨k, hm, hs, hfirst⟩ | ⟨hm, hs, hheld⟩
    | ⟨hm, hnone⟩ <;> simp only [hm] at hmaster
  · refine Or.inl ⟨_, hfirst, ?_⟩
    have hinta := h.inta_master h2 (congrArg Prod.fst hmaster)
    rw [hmaster] at hinta
    have hwithdraw : p.withdraw (Fin.castLE (by decide) i)
        = { p with master := { p.master with irr := p.master.irr.withoutBit i } } := if_pos i.isLt
    rw [Pics.Delivers, hinta, picSendEoi_master, Pic.eoi_service, hwithdraw]
    refine ⟨rfl, congrArg (fun m => Pics.mk m p.slave) ?_⟩
    rw [h.master]
    rfl
  · simp only [hs] at hslave
    refine Or.inl ⟨_, hfirst, ?_⟩
    have hinta := h.inta_slave (congrArg Prod.fst hmaster) (congrArg Prod.fst hslave)
    rw [hmaster, hslave, hline2] at hinta
    have hwithdraw : p.withdraw (Fin.natAdd 8 k)
        = { p with slave := { p.slave with irr := p.slave.irr.withoutBit k } } := by
      have hge : ¬ (Fin.natAdd 8 k : Fin 16).val < 8 := by
        rw [Fin.val_natAdd]
        omega
      rw [Pics.withdraw, if_neg hge, Fin.val_natAdd, Nat.add_sub_cancel_left]
    rw [Pics.Delivers, hinta, picSendEoi_slave, Pic.eoi_service, Pic.eoi_service, hwithdraw]
    refine ⟨rfl, ?_⟩
    rw [← h.master, h.slave]
    rfl
  · simp only [hs] at hslave
    refine Or.inr (Or.inl ⟨hheld, ?_⟩)
    have hinta := h.inta_slave (congrArg Prod.fst hmaster) (congrArg Prod.fst hslave)
    rw [hmaster, hslave, hline2] at hinta
    have hsame : p.slave.outCommand picEoi = p.slave := by rw [h.slave, Pic.eoi_between]
    have heoi := picSendEoi_slave 7 { master := Pic.serving p.master.irr p.master.imr 32 0x04 2
                                      slave := p.slave }
    rw [Pic.eoi_service, ← h.master, hsame] at heoi
    rw [Pics.Delivers, hinta]
    exact ⟨rfl, heoi⟩
  · refine Or.inr (Or.inr ⟨hnone, ?_⟩)
    have hinta := h.inta_master (show (7 : Fin 8) ≠ 2 by decide) (congrArg Prod.fst hmaster)
    rw [hmaster] at hinta
    have hsame : p.master.outCommand picEoi = p.master := by rw [h.master, Pic.eoi_between]
    have heoi := picSendEoi_master 7 p
    rw [hsame] at heoi
    rw [Pics.Delivers, hinta]
    exact ⟨rfl, heoi⟩

/-- The line to the processor is high exactly while a request may interrupt. -/
lemma intr_iff (h : PicInv p) : p.intr = true ↔ ∃ line, p.Enabled line := by
  have hresolve : p.intr = (p.requests false).lowest.isSome := by
    rw [Pics.intr]
    nth_rewrite 1 [h.master]
    rw [Pic.resolve_between]
    rfl
  rw [hresolve]
  rcases h.lowest_cases false with ⟨i, -, hm, hfirst⟩ | ⟨k, hm, -, hfirst⟩ | ⟨-, -, hheld⟩
    | ⟨hm, hnone⟩
  · rw [hm]
    exact iff_of_true rfl ⟨_, hfirst.1⟩
  · rw [hm]
    exact iff_of_true rfl ⟨_, hfirst.1⟩
  · cases hheld.1
  · rw [hm]
    refine iff_of_false (by simp) ?_
    rintro ⟨line, hline⟩
    exact hnone line hline

lemma ok (h : PicInv p) : PicOk p where
  idle := by
    rw [h.master, h.slave]
    exact ⟨rfl, rfl⟩
  intr_iff := h.intr_iff
  interrupt := h.interrupt

/-! ### Every event keeps the invariant -/

lemma remap (p : Pics) : PicInv (picRemap 32 40 p) := by
  rw [picRemap_eq]
  exact ⟨rfl, rfl, BitVec.getLsbD_zero⟩

lemma raise (h : PicInv p) (line : Fin 16) : PicInv (p.raise line) := by
  rw [Pics.raise]
  split_ifs with h2 hlt
  · exact h
  · refine ⟨by nth_rewrite 1 [h.master]; rfl, h.slave, ?_⟩
    have hne : 2 ≠ line.val := fun h' => h2 (Fin.ext h'.symm)
    rw [BitVec.getLsbD_withBit (by decide), h.line2]
    simpa using hne
  · exact ⟨h.master, by nth_rewrite 1 [h.slave]; rfl, h.line2⟩

lemma withdraw (h : PicInv p) (line : Fin 16) : PicInv (p.withdraw line) := by
  rw [Pics.withdraw]
  split_ifs with hlt
  · refine ⟨by nth_rewrite 1 [h.master]; rfl, h.slave, ?_⟩
    rw [BitVec.getLsbD_withoutBit (by decide), h.line2]
    rfl
  · exact ⟨h.master, by nth_rewrite 1 [h.slave]; rfl, h.line2⟩

/-- A write to a data port sets a mask. -/
lemma outData (h : PicInv p) (v : BitVec 8) :
    p.outb pic1Data v = { p with master := { p.master with imr := v } }
      ∧ p.outb pic2Data v = { p with slave := { p.slave with imr := v } } := by
  have hready : p.master.stage = .ready ∧ p.slave.stage = .ready := by
    rw [h.master, h.slave]
    exact ⟨rfl, rfl⟩
  rw [Pics.outb_pic1Data, Pics.outb_pic2Data, Pic.outData_ready hready.1,
    Pic.outData_ready hready.2]
  exact ⟨rfl, rfl⟩

lemma mask (h : PicInv p) (irqLine v : BitVec 8) : PicInv (p.outb (picLine irqLine).1 v) := by
  rw [picLine]
  split_ifs
  · rw [(h.outData v).1]
    exact ⟨by nth_rewrite 1 [h.master]; rfl, h.slave, h.line2⟩
  · rw [(h.outData v).2]
    exact ⟨h.master, by nth_rewrite 1 [h.slave]; rfl, h.line2⟩

/-- An interrupt has a vector of the table and leaves a state that requests alone tell from the
one before. -/
lemma interrupt_step (h : PicInv p) (held : Bool) :
    ∃ line : Fin 16, p.Delivers held line (p.withdraw line) ∨ p.Delivers held line p := by
  rcases h.interrupt held with ⟨line, -, hline⟩ | ⟨-, hline⟩ | ⟨-, hline⟩
  · exact ⟨line, Or.inl hline⟩
  · exact ⟨15, Or.inr hline⟩
  · exact ⟨7, Or.inr hline⟩

lemma step {e : PicEvent} {q : Pics} (h : PicInv p) (hst : picMachine.step p e = some q) :
    PicInv q := by
  cases e with
  | raise line => exact Option.some.inj hst ▸ h.raise line
  | withdraw line => exact Option.some.inj hst ▸ h.withdraw line
  | setMask irqLine => exact Option.some.inj hst ▸ h.mask irqLine _
  | clearMask irqLine => exact Option.some.inj hst ▸ h.mask irqLine _
  | interrupt held =>
      obtain ⟨line, hline⟩ := h.interrupt_step held
      have hirq : (32 + BitVec.ofNat 8 line - 32 : BitVec 8) = BitVec.ofNat 8 line :=
        add_sub_cancel_left _ _
      rcases hline with ⟨hvec, heoi⟩ | ⟨hvec, heoi⟩ <;>
        simp only [picMachine, hvec, Option.map_some, hirq, heoi, Option.some.injEq] at hst
      · exact hst ▸ h.withdraw line
      · exact hst ▸ h

end PicInv

/-- **The interrupt protocol**: whatever state `pic_remap(32, 40)` finds the controllers in, and in
whatever order devices request and withdraw, the kernel masks and unmasks, and interrupts are taken,
every interrupt has the vector of the line whose turn it is, takes that request and no other, and
leaves nothing in service. -/
theorem pic_protocol (p₀ : Pics) {es : List PicEvent} {p : Pics}
    (hrun : picMachine.Run (picRemap 32 40 p₀) es p) : PicOk p :=
  (EventMachine.Run.invariant (PicInv.remap p₀) (fun _ _ _ h _ hst => h.step hst) hrun).ok

/-- Two controllers as the firmware may leave them. -/
def foundPics : Pics where
  master := ⟨0, 0, 0xB8, 0x11, 0x08, 0x04, 0x01, .ready⟩
  slave := ⟨0, 0, 0x8F, 0x11, 0x70, 0x02, 0x01, .ready⟩

/-- The keyboard and the timer request an interrupt, and one is taken. -/
def twoRequests : List PicEvent :=
  [.clearMask 0, .clearMask 1, .raise 1, .raise 0, .interrupt false]

/-- The controllers then. -/
def afterTimer : Pics :=
  (picMachine.exec (picRemap 32 40 foundPics) twoRequests).getD (picRemap 32 40 foundPics)

/-- The timer's request was taken, and the keyboard's is still there. -/
theorem pic_protocol_afterTimer :
    PicOk afterTimer ∧ afterTimer.master.irr = 0x02 := by
  have hsome : (picMachine.exec (picRemap 32 40 foundPics) twoRequests).isSome = true := by decide
  exact ⟨pic_protocol foundPics (EventMachine.Run.of_isSome hsome), by decide⟩

end KiOS
