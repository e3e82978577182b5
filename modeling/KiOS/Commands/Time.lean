import KiOS.Drivers.VgaNumber

/-!
The command `time` (`commands/time.c`).

The command waits until no update of the clock is in progress and then reads seven registers, one
after the other. An update may come at any time after that, and 12 o'clock is not treated apart in
the 12-hour format.

* `Rtc`, `cmdTime`: the registers of the clock and the function of the source;
* `Instant`, `RtcFormat`, `Rtc.Shows`: the time that registers hold, in each of the four formats;
* `TimeCall`: a call, with the clock running beside it;
* `cmdTime_spec`: what is printed, each field as it was when its register was read;
* `TimeCall.Untorn`: the other fields at one moment are those that were read;
* `time_shown_iff`: when the time printed is one that the clock showed, for every call, and for
  those that last less than a minute;
* `time_misprinted`: 12 o'clock, and a minute that ends during the call.
-/

namespace KiOS

/-- The registers of the clock that `cmd_time` reads. -/
structure Rtc where
  (second minute hour day month year statusA statusB : BitVec 8)

/-- A register by its number. -/
def Rtc.reg (r : Rtc) (reg : BitVec 8) : BitVec 8 :=
  if reg = 0x00 then r.second
  else if reg = 0x02 then r.minute
  else if reg = 0x04 then r.hour
  else if reg = 0x07 then r.day
  else if reg = 0x08 then r.month
  else if reg = 0x09 then r.year
  else if reg = 0x0A then r.statusA
  else r.statusB

/-- `bcd_to_bin`. -/
def bcdToBin (bcd : BitVec 8) : BitVec 8 := (bcd >>> 4) * 10 + (bcd &&& 0x0F)

/-- `while (cmos_read(0x0A) & 0x80)`, from the `n`-th read of the call on: the number of the read
after the loop. -/
def waitUpdate (read : ℕ → BitVec 8 → BitVec 8) : ℕ → ℕ → Option ℕ
  | 0, _ => none
  | fuel + 1, n => if read n 0x0A &&& 0x80 ≠ 0 then waitUpdate read fuel (n + 1) else some (n + 1)

/-- A field as `cmd_time` converts it. -/
def convertField (regB field : BitVec 8) : BitVec 8 :=
  if regB &&& 0x04 = 0 then bcdToBin field else field

/-- The hour as `cmd_time` converts it. -/
def convertHour (regB hour : BitVec 8) : BitVec 8 :=
  let hour := if regB &&& 0x04 = 0 then bcdToBin (hour &&& 0x7F) ||| (hour &&& 0x80) else hour
  if regB &&& 0x02 = 0 ∧ hour &&& 0x80 ≠ 0 then ((hour &&& 0x7F) + 12) % 24 else hour

section

variable {σ : Type} (putchar : BitVec 8 → σ → σ)

/-- `if (field < 10) vga_putchar('0'); vga_print_dec(field)`. -/
def printField (field : BitVec 8) (buffer : Chars) (out : σ) : Option σ :=
  let out := if field.toNat < 10 then putchar (chr '0') out else out
  vgaPrintDec putchar (field.setWidth 64) buffer out

/-- `vga_println`. -/
def vgaPrintlnBytes (str : Chars) (out : σ) : Option σ :=
  (vgaPrintBytes putchar str out).map (putchar (chr '\n'))

/-- `cmd_time`, for what the reads of the call return, one after the other. -/
def cmdTime (read : ℕ → BitVec 8 → BitVec 8) (buffer : Chars) (fuel : ℕ) (out : σ) : Option σ := do
  let n ← waitUpdate read fuel 0
  let second := read n 0x00
  let minute := read (n + 1) 0x02
  let hour := read (n + 2) 0x04
  let day := read (n + 3) 0x07
  let month := read (n + 4) 0x08
  let year := read (n + 5) 0x09
  let regB := read (n + 6) 0x0B
  let out ← vgaPrintlnBytes putchar (literal "") out
  let out ← vgaPrintBytes putchar (literal "  Current time (UTC): ") out
  let out ← vgaPrintBytes putchar (literal "20") out
  let out ← printField putchar (convertField regB year) buffer out
  let out ← printField putchar (convertField regB month) buffer (putchar (chr '-') out)
  let out ← printField putchar (convertField regB day) buffer (putchar (chr '-') out)
  let out ← printField putchar (convertHour regB hour) buffer (putchar (chr ' ') out)
  let out ← printField putchar (convertField regB minute) buffer (putchar (chr ':') out)
  let out ← printField putchar (convertField regB second) buffer (putchar (chr ':') out)
  let out ← vgaPrintlnBytes putchar (literal "") out
  vgaPrintlnBytes putchar (literal "") out

end

/-! ### The clock -/

/-- A date and a time of day, in the years 2000 to 2099. -/
structure Instant where
  year : ℕ
  month : ℕ
  day : ℕ
  hour : ℕ
  minute : ℕ
  second : ℕ
  year_lt : year < 100
  month_le : 1 ≤ month ∧ month ≤ 12
  day_le : 1 ≤ day ∧ day ≤ 31
  hour_lt : hour < 24
  minute_lt : minute < 60
  second_lt : second < 60

/-- The format of the registers. -/
structure RtcFormat where
  binary : Bool
  hours24 : Bool

/-- A field in its register. -/
def RtcFormat.byte (f : RtcFormat) (n : ℕ) : BitVec 8 :=
  BitVec.ofNat 8 (if f.binary then n else n / 10 * 16 + n % 10)

/-- The hour in its register. In the 12-hour format the highest bit stands for PM. -/
def RtcFormat.hourByte (f : RtcFormat) (h : ℕ) : BitVec 8 :=
  if f.hours24 then f.byte h
  else f.byte (if h % 12 = 0 then 12 else h % 12) ||| (if 12 ≤ h then 0x80 else 0)

/-- The registers hold an instant. -/
structure Rtc.Shows (r : Rtc) (f : RtcFormat) (i : Instant) : Prop where
  second : r.second = f.byte i.second
  minute : r.minute = f.byte i.minute
  hour : r.hour = f.hourByte i.hour
  day : r.day = f.byte i.day
  month : r.month = f.byte i.month
  year : r.year = f.byte i.year
  binary : r.statusB &&& 0x04 = 0 ↔ f.binary = false
  hours24 : r.statusB &&& 0x02 = 0 ↔ f.hours24 = false

/-- A call of `cmd_time` beside the clock. The clock shows some instant at each moment; the reads
of the call take place at moments of their own, with any number of updates between them. After
some polls the update bit is found clear. -/
structure TimeCall where
  rtc : ℕ → Rtc
  format : RtcFormat
  clock : ℕ → Instant
  shows : ∀ t, (rtc t).Shows format (clock t)
  moment : ℕ → ℕ
  later : StrictMono moment
  polls : ℕ
  busy : ∀ j < polls, (rtc (moment j)).statusA &&& 0x80 ≠ 0
  ready : (rtc (moment polls)).statusA &&& 0x80 = 0

/-- Two digits. -/
def twoDigits (n : ℕ) : Chars := [digitChar (n / 10), digitChar (n % 10)]

/-- The text for a date and a time of day. -/
def stamp (year month day hour minute second : ℕ) : Chars :=
  spelling "\n  Current time (UTC): 20" ++ twoDigits year ++ [chr '-'] ++ twoDigits month
    ++ [chr '-']
    ++ twoDigits day ++ [chr ' '] ++ twoDigits hour ++ [chr ':'] ++ twoDigits minute ++ [chr ':']
    ++ twoDigits second ++ [chr '\n', chr '\n']

/-- The text for an instant. -/
def Instant.text (i : Instant) : Chars := stamp i.year i.month i.day i.hour i.minute i.second

namespace TimeCall

variable (call : TimeCall)

/-- What the reads return. -/
def read (n : ℕ) (reg : BitVec 8) : BitVec 8 := (call.rtc (call.moment n)).reg reg

/-- The instant at the `n`-th read after the polls. -/
def seen (n : ℕ) : Instant := call.clock (call.moment (call.polls + 1 + n))

/-- A moment of the call, from its first read to its last. -/
def During (t : ℕ) : Prop := call.moment 0 ≤ t ∧ t ≤ call.moment (call.polls + 7)

/-- The time printed is one that the clock showed during the call. -/
def Faithful : Prop :=
  ∀ buffer : Chars, buffer.length = 21 → ∀ fuel, call.polls < fuel →
    ∃ t, call.During t
      ∧ emitted (fun putchar => cmdTime putchar call.read buffer fuel) = some (call.clock t).text

end TimeCall

/-! ### What is printed -/

/-- The hour that is printed: in the 12-hour format 12 AM and 12 PM are exchanged. -/
def shownHour (f : RtcFormat) (h : ℕ) : ℕ := if f.hours24 ∨ h % 12 ≠ 0 then h else 12 - h

lemma bcdToBin_byte : ∀ n < 100,
    bcdToBin (BitVec.ofNat 8 (n / 10 * 16 + n % 10)) = BitVec.ofNat 8 n := by
  decide

lemma convertField_byte {f : RtcFormat} {regB : BitVec 8}
    (hB : regB &&& 0x04 = 0 ↔ f.binary = false)
    {n : ℕ} (hn : n < 100) : convertField regB (f.byte n) = BitVec.ofNat 8 n := by
  rw [convertField, RtcFormat.byte]
  cases hbin : f.binary with
  | false =>
      rw [if_pos (hB.mpr hbin), if_neg Bool.false_ne_true]
      exact bcdToBin_byte n hn
  | true =>
      rw [if_neg fun h0 => Bool.false_ne_true ((hB.mp h0).symm.trans hbin), if_pos rfl]

lemma convertHour_hourByte {f : RtcFormat} {regB : BitVec 8}
    (hB : regB &&& 0x04 = 0 ↔ f.binary = false) (h24 : regB &&& 0x02 = 0 ↔ f.hours24 = false)
    {h : ℕ} (hh : h < 24) : convertHour regB (f.hourByte h) = BitVec.ofNat 8 (shownHour f h) := by
  obtain ⟨binary, hours24⟩ := f
  dsimp only at hB h24
  simp only [convertHour, hB, h24]
  revert h
  cases binary <;> cases hours24 <;> decide

lemma shownHour_lt {f : RtcFormat} {h : ℕ} (hh : h < 24) : shownHour f h < 24 := by
  rw [shownHour]
  split_ifs <;> omega

section

variable {σ : Type} {putchar : BitVec 8 → σ → σ} {out : σ} {buffer : Chars}

lemma decText_twoDigits {n : ℕ} (hn : n < 100) :
    (if n < 10 then [chr '0'] else []) ++ decText n = twoDigits n := by
  have hneg : ¬ (n : ℤ) < 0 := by omega
  rw [decText, if_neg hneg, List.nil_append, Int.natAbs_natCast, twoDigits, Numeral.ofNat]
  split_ifs with h10 h0 h0
  · rw [h0]
    rfl
  · rw [Nat.digits_of_lt 10 n h0 h10, Nat.div_eq_of_lt h10, Nat.mod_eq_of_lt h10]
    rfl
  · omega
  · rw [Nat.digits_def' (by norm_num) (by omega),
      Nat.digits_of_lt 10 (n / 10) (by omega) (by omega)]
    rfl

/-- A field of two digits. -/
lemma printField_spec {n : ℕ} (hn : n < 100) (hbuf : buffer.length = 21) :
    printField putchar (BitVec.ofNat 8 n) buffer out
      = some ((twoDigits n).foldl (fun s c => putchar c s) out) := by
  have hnat : (BitVec.ofNat 8 n).toNat = n := by
    rw [BitVec.toNat_ofNat]
    exact Nat.mod_eq_of_lt (by omega)
  have hint : ((BitVec.ofNat 8 n).setWidth 64).toInt = n := by
    have hwide : ((BitVec.ofNat 8 n).setWidth 64).toNat = n := by
      rw [BitVec.toNat_setWidth, hnat]
      exact Nat.mod_eq_of_lt (by omega)
    rw [BitVec.toInt_eq_toNat_of_lt (by omega), hwide]
  have hmin : (BitVec.ofNat 8 n).setWidth 64 ≠ BitVec.intMin 64 := by
    intro h
    have hlt : (BitVec.intMin 64).toInt < 0 := by decide
    rw [← h, hint] at hlt
    omega
  rw [printField, hnat, vgaPrintDec_spec hmin hbuf, hint, ← decText_twoDigits hn, List.foldl_append]
  split_ifs <;> rfl

lemma vgaPrintlnBytes_spec {str cs : Chars} (h : IsCString str cs) :
    vgaPrintlnBytes putchar str out
      = some ((cs ++ [chr '\n']).foldl (fun s c => putchar c s) out) := by
  rw [vgaPrintlnBytes, vgaPrintBytes_spec h, List.foldl_append]
  rfl

end

namespace TimeCall

variable (call : TimeCall)

/-- The loop ends at the first poll that finds the update bit clear. -/
lemma waitUpdate_eq {fuel : ℕ} (hfuel : call.polls < fuel) :
    waitUpdate call.read fuel 0 = some (call.polls + 1) := by
  have hrun : ∀ fuel n, n ≤ call.polls → call.polls < n + fuel →
      waitUpdate call.read fuel n = some (call.polls + 1) := by
    intro fuel
    induction fuel with
    | zero => intro n hn hlt; omega
    | succ fuel ih =>
        intro n hn hlt
        have hread : call.read n 0x0A = (call.rtc (call.moment n)).statusA := rfl
        rw [waitUpdate, hread]
        rcases hn.lt_or_eq with hbusy | rfl
        · rw [if_pos (call.busy n hbusy)]
          exact ih (n + 1) hbusy (by omega)
        · rw [if_neg (not_not.mpr call.ready)]
  exact hrun fuel 0 (Nat.zero_le _) (by omega)

/-- **What is printed**: each field as it was when its register was read. -/
lemma cmdTime_spec {σ : Type} {putchar : BitVec 8 → σ → σ} {out : σ} {buffer : Chars}
    (hbuf : buffer.length = 21) {fuel : ℕ} (hfuel : call.polls < fuel) :
    cmdTime putchar call.read buffer fuel out
      = some ((stamp (call.seen 5).year (call.seen 4).month (call.seen 3).day
          (shownHour call.format (call.seen 2).hour) (call.seen 1).minute
          (call.seen 0).second).foldl (fun s c => putchar c s) out) := by
  have hshow : ∀ n, (call.rtc (call.moment (call.polls + 1 + n))).Shows call.format (call.seen n) :=
    fun n => call.shows _
  have h4 := (hshow 6).binary
  have h2 := (hshow 6).hours24
  have hyear := convertField_byte h4 (call.seen 5).year_lt
  have hmonth := convertField_byte h4 (n := (call.seen 4).month)
    (by have := (call.seen 4).month_le; omega)
  have hday := convertField_byte h4 (n := (call.seen 3).day)
    (by have := (call.seen 3).day_le; omega)
  have hhour := convertHour_hourByte h4 h2 (call.seen 2).hour_lt
  have hminute := convertField_byte h4 (n := (call.seen 1).minute)
    (by have := (call.seen 1).minute_lt; omega)
  have hsecond := convertField_byte h4 (n := (call.seen 0).second)
    (by have := (call.seen 0).second_lt; omega)
  rw [← (hshow 5).year] at hyear
  rw [← (hshow 4).month] at hmonth
  rw [← (hshow 3).day] at hday
  rw [← (hshow 2).hour] at hhour
  rw [← (hshow 1).minute] at hminute
  rw [← (hshow 0).second] at hsecond
  have hreg : ∀ n, call.read (call.polls + 1 + n) 0x00
        = (call.rtc (call.moment (call.polls + 1 + n))).second
      ∧ call.read (call.polls + 1 + n) 0x02 = (call.rtc (call.moment (call.polls + 1 + n))).minute
      ∧ call.read (call.polls + 1 + n) 0x04 = (call.rtc (call.moment (call.polls + 1 + n))).hour
      ∧ call.read (call.polls + 1 + n) 0x07 = (call.rtc (call.moment (call.polls + 1 + n))).day
      ∧ call.read (call.polls + 1 + n) 0x08 = (call.rtc (call.moment (call.polls + 1 + n))).month
      ∧ call.read (call.polls + 1 + n) 0x09 = (call.rtc (call.moment (call.polls + 1 + n))).year
      ∧ call.read (call.polls + 1 + n) 0x0B
        = (call.rtc (call.moment (call.polls + 1 + n))).statusB :=
    fun n => ⟨rfl, rfl, rfl, rfl, rfl, rfl, rfl⟩
  have hempty : IsCString (literal "") [] := isCString_nil []
  have hlabel : IsCString (literal "  Current time (UTC): ") (spelling "  Current time (UTC): ") :=
    ⟨by decide, [], rfl⟩
  have hcentury : IsCString (literal "20") (spelling "20") := ⟨by decide, [], rfl⟩
  have hfirst : spelling "\n  Current time (UTC): 20"
      = [chr '\n'] ++ spelling "  Current time (UTC): " ++ spelling "20" := by decide
  have hread0 := (hreg 0).1
  rw [Nat.add_zero] at hread0 hsecond
  rw [cmdTime, call.waitUpdate_eq hfuel, Option.bind_eq_bind, Option.bind_some, hread0,
    (hreg 1).2.1, (hreg 2).2.2.1, (hreg 3).2.2.2.1, (hreg 4).2.2.2.2.1, (hreg 5).2.2.2.2.2.1,
    (hreg 6).2.2.2.2.2.2]
  dsimp only
  rw [hyear, hmonth, hday, hhour, hminute, hsecond]
  have hm := (call.seen 4).month_le
  have hd := (call.seen 3).day_le
  have hh := shownHour_lt (f := call.format) (call.seen 2).hour_lt
  have hmi := (call.seen 1).minute_lt
  have hs := (call.seen 0).second_lt
  simp only [Option.bind_eq_bind, Option.bind_some, vgaPrintlnBytes_spec hempty,
    vgaPrintBytes_spec hlabel, vgaPrintBytes_spec hcentury,
    printField_spec (call.seen 5).year_lt hbuf,
    printField_spec (show (call.seen 4).month < 100 by omega) hbuf,
    printField_spec (show (call.seen 3).day < 100 by omega) hbuf,
    printField_spec (show shownHour call.format (call.seen 2).hour < 100 by omega) hbuf,
    printField_spec (show (call.seen 1).minute < 100 by omega) hbuf,
    printField_spec (show (call.seen 0).second < 100 by omega) hbuf]
  rw [stamp, hfirst]
  simp only [List.foldl_append, List.nil_append, List.foldl_cons, List.foldl_nil]

/-- At some moment of the call the clock shows the fields that were read, but for the hour. -/
def Untorn (t : ℕ) : Prop :=
  call.During t ∧ (call.clock t).year = (call.seen 5).year
    ∧ (call.clock t).month = (call.seen 4).month ∧ (call.clock t).day = (call.seen 3).day
    ∧ (call.clock t).minute = (call.seen 1).minute ∧ (call.clock t).second = (call.seen 0).second

/-- The hour that was read is told right: not 12 o'clock in the 12-hour format. -/
def HourTold : Prop := call.format.hours24 = true ∨ (call.seen 2).hour % 12 ≠ 0

instance : Decidable call.HourTold := inferInstanceAs (Decidable (_ ∨ _))

end TimeCall

lemma digitChar_inj : ∀ d < 10, ∀ e < 10, digitChar d = digitChar e → d = e := by decide

lemma twoDigits_inj {n m : ℕ} (hn : n < 100) (hm : m < 100) :
    twoDigits n = twoDigits m ↔ n = m := by
  refine ⟨fun h => ?_, fun h => by rw [h]⟩
  rw [twoDigits, twoDigits, List.cons.injEq, List.cons.injEq] at h
  have h1 := digitChar_inj _ (by omega) _ (by omega) h.1
  have h2 := digitChar_inj _ (Nat.mod_lt n (by norm_num)) _ (Nat.mod_lt m (by norm_num)) h.2.1
  omega

/-- A text is that of an instant exactly if all its fields are. -/
lemma stamp_eq_text_iff {year month day hour minute second : ℕ} (i : Instant) (hy : year < 100)
    (hmo : month < 100) (hd : day < 100) (hh : hour < 100) (hmi : minute < 100)
    (hs : second < 100) :
    stamp year month day hour minute second = i.text
      ↔ i.year = year ∧ i.month = month ∧ i.day = day ∧ i.hour = hour ∧ i.minute = minute
        ∧ i.second = second := by
  constructor
  · intro h
    have hmonth := i.month_le
    have hday := i.day_le
    have hhour := i.hour_lt
    have hminute := i.minute_lt
    have hsecond := i.second_lt
    simp only [Instant.text, stamp, List.append_assoc, List.append_cancel_left_eq] at h
    obtain ⟨h1, h⟩ := List.append_inj h rfl
    obtain ⟨-, h⟩ := List.append_inj h rfl
    obtain ⟨h2, h⟩ := List.append_inj h rfl
    obtain ⟨-, h⟩ := List.append_inj h rfl
    obtain ⟨h3, h⟩ := List.append_inj h rfl
    obtain ⟨-, h⟩ := List.append_inj h rfl
    obtain ⟨h4, h⟩ := List.append_inj h rfl
    obtain ⟨-, h⟩ := List.append_inj h rfl
    obtain ⟨h5, h⟩ := List.append_inj h rfl
    obtain ⟨-, h⟩ := List.append_inj h rfl
    obtain ⟨h6, -⟩ := List.append_inj h rfl
    exact ⟨((twoDigits_inj hy i.year_lt).mp h1).symm,
      ((twoDigits_inj hmo (by omega)).mp h2).symm, ((twoDigits_inj hd (by omega)).mp h3).symm,
      ((twoDigits_inj hh (by omega)).mp h4).symm, ((twoDigits_inj hmi (by omega)).mp h5).symm,
      ((twoDigits_inj hs (by omega)).mp h6).symm⟩
  · rintro ⟨rfl, rfl, rfl, rfl, rfl, rfl⟩
    rfl

/-! ### A clock that ticks -/

/-- The number of days in a month. -/
def daysIn (year month : ℕ) : ℕ :=
  if month = 2 then if year % 4 = 0 then 29 else 28
  else if month = 4 ∨ month = 6 ∨ month = 9 ∨ month = 11 then 30 else 31

lemma daysIn_le (year month : ℕ) : daysIn year month ≤ 31 := by
  rw [daysIn]
  split_ifs <;> norm_num

namespace Instant

/-- Midnight of the next day. -/
def nextDay (i : Instant) : Instant :=
  if h : i.day < daysIn i.year i.month then
    { i with
      day := i.day + 1, hour := 0, minute := 0, second := 0
      day_le := ⟨Nat.succ_pos _, h.trans_le (daysIn_le _ _)⟩
      hour_lt := by norm_num, minute_lt := by norm_num, second_lt := by norm_num }
  else if h : i.month < 12 then
    { i with
      month := i.month + 1, day := 1, hour := 0, minute := 0, second := 0
      month_le := ⟨Nat.succ_pos _, h⟩
      day_le := by norm_num
      hour_lt := by norm_num, minute_lt := by norm_num, second_lt := by norm_num }
  else
    { year := (i.year + 1) % 100, month := 1, day := 1, hour := 0, minute := 0, second := 0
      year_lt := Nat.mod_lt _ (by norm_num)
      month_le := by norm_num
      day_le := by norm_num
      hour_lt := by norm_num, minute_lt := by norm_num, second_lt := by norm_num }

/-- One update of the clock. -/
def next (i : Instant) : Instant :=
  if h : i.second + 1 < 60 then { i with second := i.second + 1, second_lt := h }
  else if h : i.minute + 1 < 60 then
    { i with minute := i.minute + 1, second := 0, minute_lt := h, second_lt := by norm_num }
  else if h : i.hour + 1 < 24 then
    { i with
      hour := i.hour + 1, minute := 0, second := 0
      hour_lt := h, minute_lt := by norm_num, second_lt := by norm_num }
  else i.nextDay

/-- The seconds since midnight. -/
def timeOfDay (i : Instant) : ℕ := i.hour * 3600 + i.minute * 60 + i.second

lemma timeOfDay_nextDay (i : Instant) : i.nextDay.timeOfDay = 0 := by
  rw [nextDay]
  split_ifs <;> simp only [timeOfDay, Nat.zero_mul, Nat.add_zero]

lemma timeOfDay_next (i : Instant) : i.next.timeOfDay = (i.timeOfDay + 1) % 86400 := by
  have hh := i.hour_lt
  have hm := i.minute_lt
  have hs := i.second_lt
  rw [next]
  split_ifs with h1 h2 h3
  · simp only [timeOfDay]
    omega
  · simp only [timeOfDay]
    omega
  · simp only [timeOfDay]
    omega
  · rw [timeOfDay_nextDay, timeOfDay]
    omega

lemma timeOfDay_iterate (i : Instant) (k : ℕ) :
    (next^[k] i).timeOfDay = (i.timeOfDay + k) % 86400 := by
  have hlt : i.timeOfDay < 86400 := by
    have hh := i.hour_lt
    have hm := i.minute_lt
    have hs := i.second_lt
    rw [timeOfDay]
    omega
  induction k with
  | zero => rw [Function.iterate_zero_apply, Nat.add_zero, Nat.mod_eq_of_lt hlt]
  | succ k ih =>
      rw [Function.iterate_succ_apply', timeOfDay_next, ih]
      omega

/-- Within a minute the second comes back only if there was no update. -/
lemma eq_zero_of_second_eq {i : Instant} {k : ℕ} (hk : k < 60)
    (h : (next^[k] i).second = i.second) : k = 0 := by
  have htod := timeOfDay_iterate i k
  rw [timeOfDay, timeOfDay] at htod
  omega

/-- Within a minute the hour does not change by twelve. -/
lemma hour_add_ne {i : Instant} {k : ℕ} (hk : k < 60) (h : (next^[k] i).hour % 12 = 0) :
    i.hour + (next^[k] i).hour ≠ 12 := by
  have htod := timeOfDay_iterate i k
  have hm := i.minute_lt
  have hs := i.second_lt
  have hm' := (next^[k] i).minute_lt
  have hs' := (next^[k] i).second_lt
  rw [timeOfDay, timeOfDay] at htod
  omega

end Instant

namespace TimeCall

variable (call : TimeCall)

/-- The clock ticks on its own, and less than a minute during the call. -/
def Brief : Prop :=
  ∃ (i : Instant) (updates : ℕ → ℕ), Monotone updates
    ∧ (∀ t, call.clock t = Instant.next^[updates t] i)
    ∧ updates (call.moment (call.polls + 7)) < updates (call.moment 0) + 60

/-- No field changes between the read of the second and its own read. -/
def Steady : Prop :=
  (call.seen 5).year = (call.seen 0).year ∧ (call.seen 4).month = (call.seen 0).month
    ∧ (call.seen 3).day = (call.seen 0).day ∧ (call.seen 2).hour = (call.seen 0).hour
    ∧ (call.seen 1).minute = (call.seen 0).minute

variable {call}

lemma Brief.ticks (h : call.Brief) {t u : ℕ} (ht : call.During t) (hu : call.During u)
    (htu : t ≤ u) : ∃ k < 60, call.clock u = Instant.next^[k] (call.clock t) := by
  obtain ⟨i, updates, hmono, hclock, hlt⟩ := h
  have h1 := hmono htu
  have h2 := hmono ht.1
  have h3 := hmono hu.2
  refine ⟨updates u - updates t, by omega, ?_⟩
  rw [hclock, hclock, ← Function.iterate_add_apply, Nat.sub_add_cancel h1]

lemma during_seen {n : ℕ} (hn : n ≤ 6) : call.During (call.moment (call.polls + 1 + n)) :=
  ⟨call.later.monotone (Nat.zero_le _), call.later.monotone (by omega)⟩

/-- The time printed is one that the clock showed exactly if at some moment of the call it showed
the fields that were read, with the hour as it is told. -/
lemma faithful_iff : call.Faithful ↔ ∃ t, call.Untorn t
    ∧ (call.clock t).hour = shownHour call.format (call.seen 2).hour := by
  have hmo := (call.seen 4).month_le
  have hd := (call.seen 3).day_le
  have hh := shownHour_lt (f := call.format) (call.seen 2).hour_lt
  have hmi := (call.seen 1).minute_lt
  have hs := (call.seen 0).second_lt
  have htext := fun i : Instant => stamp_eq_text_iff i (call.seen 5).year_lt
    (show (call.seen 4).month < 100 by omega) (show (call.seen 3).day < 100 by omega)
    (show shownHour call.format (call.seen 2).hour < 100 by omega)
    (show (call.seen 1).minute < 100 by omega) (show (call.seen 0).second < 100 by omega)
  have hprint : ∀ {buffer : Chars}, buffer.length = 21 → ∀ {fuel}, call.polls < fuel →
      ∀ {t}, (emitted (fun putchar => cmdTime putchar call.read buffer fuel)
          = some (call.clock t).text ∧ call.During t
        ↔ call.Untorn t ∧ (call.clock t).hour = shownHour call.format (call.seen 2).hour) := by
    intro buffer hbuf fuel hfuel t
    rw [emitted, call.cmdTime_spec hbuf hfuel, foldl_concat, List.nil_append, Option.some.injEq,
      htext, Untorn]
    tauto
  constructor
  · intro h
    obtain ⟨t, ht, hout⟩ := h (List.replicate 21 0) List.length_replicate (call.polls + 1)
      (Nat.lt_succ_self _)
    exact ⟨t, (hprint List.length_replicate (Nat.lt_succ_self _)).mp ⟨hout, ht⟩⟩
  · rintro ⟨t, ht⟩ buffer hbuf fuel hfuel
    obtain ⟨hout, hduring⟩ := (hprint hbuf hfuel).mpr ht
    exact ⟨t, hduring, hout⟩

end TimeCall

/-- **The time printed is one that the clock showed** exactly if some moment of the call shows the
fields that were read, and the hour is told right (or, at 12 o'clock in the 12-hour format, is
another one twelve hours away). In a call of less than a minute this means: the hour is told right,
and no field changes between the read of the second and its own read. -/
theorem time_shown_iff (call : TimeCall) :
    (call.Faithful ↔ ∃ t, call.Untorn t ∧ if call.HourTold
        then (call.clock t).hour = (call.seen 2).hour
        else (call.clock t).hour + (call.seen 2).hour = 12)
      ∧ (call.Brief → (call.Faithful ↔ call.HourTold ∧ call.Steady)) := by
  have hlong : call.Faithful ↔ ∃ t, call.Untorn t ∧ if call.HourTold
      then (call.clock t).hour = (call.seen 2).hour
      else (call.clock t).hour + (call.seen 2).hour = 12 := by
    rw [TimeCall.faithful_iff]
    refine exists_congr fun t => and_congr_right fun _ => ?_
    have hlt := (call.seen 2).hour_lt
    rw [shownHour]
    split_ifs with h1 h2 h2
    · rfl
    · exact absurd h1 h2
    · exact absurd h2 h1
    · rw [TimeCall.HourTold, not_or, not_not] at h2
      omega
  refine ⟨hlong, fun hbrief => hlong.trans ⟨?_, ?_⟩⟩
  · rintro ⟨t, ⟨hduring, hy, hmo, hd, hmi, hs⟩, hhour⟩
    -- the second fixes the moment, up to updates
    have hsame : call.clock t = call.seen 0 := by
      rcases le_total t (call.moment (call.polls + 1)) with hle | hle
      · obtain ⟨k, hk, heq⟩ := hbrief.ticks hduring
          (TimeCall.during_seen (n := 0) (by norm_num)) hle
        rw [TimeCall.seen, Nat.add_zero] at hs ⊢
        rw [heq] at hs ⊢
        rw [Instant.eq_zero_of_second_eq hk hs.symm]
        rfl
      · obtain ⟨k, hk, heq⟩ := hbrief.ticks (TimeCall.during_seen (n := 0) (by norm_num))
          hduring hle
        rw [Nat.add_zero] at heq
        rw [TimeCall.seen, Nat.add_zero] at hs ⊢
        rw [heq] at hs ⊢
        rw [Instant.eq_zero_of_second_eq hk hs]
        rfl
    rw [hsame] at hy hmo hd hmi hhour
    have htold : call.HourTold := by
      by_contra htold
      rw [if_neg htold] at hhour
      obtain ⟨k, hk, heq⟩ := hbrief.ticks (TimeCall.during_seen (n := 0) (by norm_num))
        (TimeCall.during_seen (n := 2) (by norm_num)) (call.later.monotone (by omega))
      change call.seen 2 = Instant.next^[k] (call.seen 0) at heq
      rw [TimeCall.HourTold, not_or, not_not, heq] at htold
      rw [heq] at hhour
      exact Instant.hour_add_ne hk htold.2 hhour
    rw [if_pos htold] at hhour
    exact ⟨htold, hy.symm, hmo.symm, hd.symm, hhour.symm, hmi.symm⟩
  · rintro ⟨htold, hy, hmo, hd, hh, hmi⟩
    refine ⟨_, ⟨TimeCall.during_seen (n := 0) (by norm_num), hy.symm, hmo.symm, hd.symm,
      hmi.symm, rfl⟩, ?_⟩
    rw [if_pos htold]
    exact hh.symm

/-- The registers for an instant, with no update in progress. -/
def RtcFormat.registers (f : RtcFormat) (i : Instant) : Rtc where
  second := f.byte i.second
  minute := f.byte i.minute
  hour := f.hourByte i.hour
  day := f.byte i.day
  month := f.byte i.month
  year := f.byte i.year
  statusA := 0
  statusB := (if f.binary then 0x04 else 0) ||| (if f.hours24 then 0x02 else 0)

lemma RtcFormat.registers_shows (f : RtcFormat) (i : Instant) : (f.registers i).Shows f i := by
  have hbits : ∀ binary hours24 : Bool,
      (((if binary then 0x04 else 0) ||| (if hours24 then 0x02 else 0) : BitVec 8) &&& 0x04 = 0
          ↔ binary = false)
        ∧ (((if binary then 0x04 else 0) ||| (if hours24 then 0x02 else 0) : BitVec 8) &&& 0x02 = 0
          ↔ hours24 = false) := by decide
  exact ⟨rfl, rfl, rfl, rfl, rfl, rfl, (hbits _ _).1, (hbits _ _).2⟩

/-- A call with one read a moment, and no wait. -/
def TimeCall.ofClock (f : RtcFormat) (clock : ℕ → Instant) : TimeCall where
  rtc t := f.registers (clock t)
  format := f
  clock := clock
  shows t := f.registers_shows (clock t)
  moment := id
  later := strictMono_id
  polls := 0
  busy j hj := absurd hj (Nat.not_lt_zero j)
  ready := BitVec.zero_and

/-- A time of day on the first of May 2024. -/
def mayDay (hour minute second : ℕ) (hh : hour < 24) (hm : minute < 60) (hs : second < 60) :
    Instant where
  year := 24
  month := 5
  day := 1
  hour := hour
  minute := minute
  second := second
  year_lt := by norm_num
  month_le := by norm_num
  day_le := by norm_num
  hour_lt := hh
  minute_lt := hm
  second_lt := hs

/-- Half past twelve in the 12-hour format. -/
def noonCall : TimeCall :=
  .ofClock ⟨false, false⟩ fun _ => mayDay 12 30 0 (by norm_num) (by norm_num) (by norm_num)

/-- One second to eleven, with an update after the read of the second. -/
def rolloverCall : TimeCall :=
  .ofClock ⟨false, true⟩ fun t =>
    Instant.next^[if t ≤ 1 then 0 else 1]
      (mayDay 10 59 59 (by norm_num) (by norm_num) (by norm_num))

/-- The statement for the minute that ends: the time printed is torn. -/
theorem time_shown_iff_rollover :
    rolloverCall.Faithful ↔ rolloverCall.HourTold ∧ rolloverCall.Steady := by
  refine (time_shown_iff rolloverCall).2 ⟨_, fun t => if t ≤ 1 then 0 else 1, ?_, fun t => rfl, ?_⟩
  · intro t u htu
    dsimp only
    split_ifs <;> omega
  · decide

/-- **Times the clock did not show**: 12:30 PM is printed as 00:30, and 10:59:59, with an update
after the read of the second, as 11:00:59. -/
theorem time_misprinted : ¬ noonCall.Faithful ∧ ¬ rolloverCall.Faithful := by
  constructor
  · rw [TimeCall.faithful_iff]
    rintro ⟨t, -, hhour⟩
    change 12 = shownHour ⟨false, false⟩ 12 at hhour
    exact absurd hhour (by decide)
  · rw [TimeCall.faithful_iff]
    rintro ⟨t, ⟨-, -, -, -, hminute, hsecond⟩, -⟩
    change (Instant.next^[if t ≤ 1 then 0 else 1] _).minute = 0 at hminute
    change (Instant.next^[if t ≤ 1 then 0 else 1] _).second = 59 at hsecond
    split_ifs at hminute hsecond
    · exact absurd hminute (by decide)
    · exact absurd hsecond (by decide)

end KiOS
