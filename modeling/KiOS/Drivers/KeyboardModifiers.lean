import KiOS.Drivers.Vga

/-!
The translation of scancodes (`kb_scancode_to_ascii`) and the keys it keeps track of.

One flag stands for both shift keys, and Caps Lock toggles with every make code. So the flags part
from the keys when one of two held shift keys is released, when a held Caps Lock repeats, and when
the keyboard wraps an extended key in shift codes of its own.

* `KbModifiers`, `kbScancodeToAscii`: the variables and the function of the source;
* `Key`, `KeyEvent`, `keyboardMachine`: the keys of a keyboard, what may happen to them, and the
  scancodes that are sent;
* `ModifierRun.Follows`: the flags and the characters are what the keys demand;
* `Distinguishes`: the condition: no such release, repetition or wrapping;
* `modifiers_follow`: in every run that keeps to it the flags follow the keys, and the next event
  keeps it so exactly if it keeps to it as well;
* `modifiers_lost`: the shortest runs that part.
-/

namespace KiOS

/-- `kb_shift_pressed`, `kb_ctrl_pressed`, `kb_alt_pressed` and `kb_capslock_on`. -/
structure KbModifiers where
  shiftPressed : Bool
  ctrlPressed : Bool
  altPressed : Bool
  capslockOn : Bool
  deriving DecidableEq

/-- The characters of a row of keys. -/
def row (s : String) : List (BitVec 8) := s.toList.map chr

/-- The layout that both tables share: four rows of keys, and 0 for a key without a character. -/
def asciiTable (digits top home bottom : String) : List (BitVec 8) :=
  [0, 27] ++ row digits ++ [chr '\x08', chr '\t'] ++ row top ++ [chr '\n', 0] ++ row home ++ [0]
    ++ row bottom ++ [0, chr '*', 0, chr ' '] ++ List.replicate 70 0

/-- `scancode_to_ascii_lower`. -/
def scancodeToAsciiLower : List (BitVec 8) :=
  asciiTable "1234567890-=" "qwertyuiop[]" "asdfghjkl;'`" "\\zxcvbnm,./"

/-- `scancode_to_ascii_upper`. -/
def scancodeToAsciiUpper : List (BitVec 8) :=
  asciiTable "!@#$%^&*()_+" "QWERTYUIOP\x7b\x7d" "ASDFGHJKL:\"~" "|ZXCVBNM<>?"

/-- `lower >= 'a' && lower <= 'z'`. -/
def isLetter (lower : BitVec 8) : Bool :=
  decide ((chr 'a').toInt ≤ lower.toInt ∧ lower.toInt ≤ (chr 'z').toInt)

/-- A character from the tables, for the two states of Shift and of Caps Lock. -/
def tableEntry (shift capslock : Bool) (scancode : BitVec 8) : BitVec 8 :=
  let lower := scancodeToAsciiLower.getD scancode.toNat 0
  let useUpper := if capslock && isLetter lower then !shift else shift
  if useUpper then scancodeToAsciiUpper.getD scancode.toNat 0 else lower

/-- `kb_scancode_to_ascii`. -/
def kbScancodeToAscii (scancode : BitVec 8) (s : KbModifiers) : BitVec 8 × KbModifiers :=
  if scancode &&& 0x80 ≠ 0 then
    let key := scancode &&& ~~~0x80
    if key = 0x2A ∨ key = 0x36 then (0, { s with shiftPressed := false })
    else if key = 0x1D then (0, { s with ctrlPressed := false })
    else if key = 0x38 then (0, { s with altPressed := false })
    else (0, s)
  else if scancode = 0x2A ∨ scancode = 0x36 then (0, { s with shiftPressed := true })
  else if scancode = 0x1D then (0, { s with ctrlPressed := true })
  else if scancode = 0x38 then (0, { s with altPressed := true })
  else if scancode = 0x3A then (0, { s with capslockOn := !s.capslockOn })
  else if scancode.toNat < 128 then (tableEntry s.shiftPressed s.capslockOn scancode, s)
  else (0, s)

/-- The scancodes one after the other, with the characters that come of them. -/
def kbFeed : List (BitVec 8) → KbModifiers → List (BitVec 8) × KbModifiers
  | [], s => ([], s)
  | scancode :: scancodes, s =>
      let (c, s) := kbScancodeToAscii scancode s
      let (cs, s) := kbFeed scancodes s
      (if c ≠ 0 then c :: cs else cs, s)

/-! ### The keyboard -/

/-- A key. An extended key sends the byte 0xE0 before its code, and none of them has the code of
a shift key or of Caps Lock. -/
structure Key where
  extended : Bool
  code : BitVec 7
  apart : extended = true → code ≠ 0x2A ∧ code ≠ 0x36 ∧ code ≠ 0x3A
  deriving DecidableEq

/-- A key that is not extended. -/
def Key.plain (code : BitVec 7) : Key := ⟨false, code, fun h => Bool.noConfusion h⟩

/-- Left Shift. -/
def leftShift : Key := .plain 0x2A

/-- Right Shift. -/
def rightShift : Key := .plain 0x36

/-- Caps Lock. -/
def capsLock : Key := .plain 0x3A

/-- The make code. -/
def makeCode (code : BitVec 7) : BitVec 8 := code.setWidth 8

/-- The break code. -/
def breakCode (code : BitVec 7) : BitVec 8 := makeCode code ||| 0x80

/-- What happens at the keyboard. -/
inductive KeyEvent
  | press (k : Key)
  /-- The key is still held and repeats. -/
  | typematic (k : Key)
  | release (k : Key)
  /-- Around the code of an extended key, the keyboard pretends that a shift key moved. -/
  | fakeShift (right : Bool) (released : Bool)
  /-- The Pause key, which is never seen released. -/
  | pause

/-- The scancodes of an event. -/
def KeyEvent.scancodes : KeyEvent → List (BitVec 8)
  | press k | typematic k => (if k.extended then [0xE0] else []) ++ [makeCode k.code]
  | release k => (if k.extended then [0xE0] else []) ++ [breakCode k.code]
  | fakeShift right released =>
      let code := if right then 0x36 else 0x2A
      [0xE0, if released then breakCode code else makeCode code]
  | pause => [0xE1, 0x1D, 0x45, 0xE1, 0x9D, 0xC5]

/-- The variables of the driver, the keys that are held, the presses of Caps Lock so far, the
characters returned and the characters that the keys demand. -/
structure ModifierRun where
  kb : KbModifiers
  held : Finset Key
  capsPresses : ℕ
  returned : List (BitVec 8)
  demanded : List (BitVec 8)

/-- A shift key is held. -/
def shiftHeld (held : Finset Key) : Prop := leftShift ∈ held ∨ rightShift ∈ held

instance (held : Finset Key) : Decidable (shiftHeld held) := inferInstanceAs (Decidable (_ ∨ _))

namespace ModifierRun

/-- The character that a key demands. -/
def demand (s : ModifierRun) (k : Key) : List (BitVec 8) :=
  let c := tableEntry (decide (shiftHeld s.held)) (decide (Odd s.capsPresses)) (makeCode k.code)
  if c ≠ 0 then [c] else []

/-- Before the first key. -/
def init : ModifierRun := ⟨⟨false, false, false, false⟩, ∅, 0, [], []⟩

/-- The driver handles the scancodes of an event. -/
def feed (s : ModifierRun) (e : KeyEvent) : ModifierRun :=
  { s with
    kb := (kbFeed e.scancodes s.kb).2
    returned := s.returned ++ (kbFeed e.scancodes s.kb).1 }

/-- What an event does to the keys. -/
def move (s : ModifierRun) : KeyEvent → ModifierRun
  | .press k =>
      { s with
        held := insert k s.held
        capsPresses := if k = capsLock then s.capsPresses + 1 else s.capsPresses
        demanded := s.demanded ++ s.demand k }
  | .typematic k => { s with demanded := s.demanded ++ s.demand k }
  | .release k => { s with held := s.held.erase k }
  | .fakeShift _ _ | .pause => s

/-- The flags are those of the keys, and so were the characters. -/
structure Follows (s : ModifierRun) : Prop where
  shift : s.kb.shiftPressed = true ↔ shiftHeld s.held
  capslock : s.kb.capslockOn = true ↔ Odd s.capsPresses
  returned : s.returned = s.demanded

end ModifierRun

/-- The keyboard with the driver. Only a key that is up is pressed, and only a key that is held
repeats or is released. -/
def keyboardMachine : EventMachine ModifierRun KeyEvent where
  admissible s
    | .press k => k ∉ s.held
    | .typematic k | .release k => k ∈ s.held
    | .fakeShift _ _ | .pause => True
  step s e := some ((s.feed e).move e)

instance (s : ModifierRun) : DecidablePred (keyboardMachine.admissible s)
  | .press _ => inferInstanceAs (Decidable (_ ∉ _))
  | .typematic _ | .release _ => inferInstanceAs (Decidable (_ ∈ _))
  | .fakeShift _ _ | .pause => inferInstanceAs (Decidable True)

/-- The events that the flags can tell apart: a shift key is not released while the other one is
held, Caps Lock does not repeat, and the keyboard pretends nothing about Shift that is not so. -/
def Distinguishes (s : ModifierRun) : KeyEvent → Prop
  | .release k => (k = leftShift → rightShift ∉ s.held) ∧ (k = rightShift → leftShift ∉ s.held)
  | .typematic k => k ≠ capsLock
  | .fakeShift _ released => shiftHeld s.held ↔ released = false
  | .press _ | .pause => True

instance (s : ModifierRun) : DecidablePred (Distinguishes s)
  | .release _ => inferInstanceAs (Decidable ((_ → _) ∧ (_ → _)))
  | .typematic _ => inferInstanceAs (Decidable (_ ≠ _))
  | .fakeShift _ _ => inferInstanceAs (Decidable (_ ↔ _))
  | .press _ | .pause => inferInstanceAs (Decidable True)

/-! ### Scancodes -/

variable {s : KbModifiers} {code : BitVec 7}

/-- The flags after a make code. -/
def KbModifiers.make (s : KbModifiers) (code : BitVec 7) : KbModifiers :=
  if code = 0x2A ∨ code = 0x36 then { s with shiftPressed := true }
  else if code = 0x1D then { s with ctrlPressed := true }
  else if code = 0x38 then { s with altPressed := true }
  else if code = 0x3A then { s with capslockOn := !s.capslockOn }
  else s

/-- The flags after a break code. -/
def KbModifiers.break (s : KbModifiers) (code : BitVec 7) : KbModifiers :=
  if code = 0x2A ∨ code = 0x36 then { s with shiftPressed := false }
  else if code = 0x1D then { s with ctrlPressed := false }
  else if code = 0x38 then { s with altPressed := false }
  else s

lemma KbModifiers.make_shiftPressed : (s.make code).shiftPressed
    = if code = 0x2A ∨ code = 0x36 then true else s.shiftPressed := by
  rw [make]
  split_ifs <;> rfl

lemma KbModifiers.make_capslockOn : (s.make code).capslockOn
    = if code = 0x3A then !s.capslockOn else s.capslockOn := by
  by_cases hc : code = 0x3A
  · subst hc
    rfl
  · rw [make, if_neg hc, if_neg hc]
    split_ifs <;> rfl

lemma KbModifiers.break_shiftPressed : (s.break code).shiftPressed
    = if code = 0x2A ∨ code = 0x36 then false else s.shiftPressed := by
  rw [KbModifiers.break]
  split_ifs <;> rfl

lemma KbModifiers.break_capslockOn : (s.break code).capslockOn = s.capslockOn := by
  rw [KbModifiers.break]
  split_ifs <;> rfl

/-- The keys that are handled before the tables have no character there. -/
lemma tableEntry_modifier : ∀ shift capslock : Bool, ∀ code ∈ [0x2A, 0x36, 0x1D, 0x38, 0x3A],
    tableEntry shift capslock code = 0 := by decide

lemma makeCode_eq_iff {c : BitVec 7} : makeCode code = makeCode c ↔ code = c := by
  constructor
  · intro h
    refine BitVec.eq_of_toNat_eq ?_
    have hnat := congrArg BitVec.toNat h
    rw [makeCode, makeCode, BitVec.toNat_setWidth_of_le (by norm_num),
      BitVec.toNat_setWidth_of_le (by norm_num)] at hnat
    exact hnat
  · rintro rfl
    rfl

lemma makeCode_and : makeCode code &&& 0x80 = 0 := by
  revert code
  decide

lemma breakCode_and : breakCode code &&& 0x80 ≠ 0 ∧ breakCode code &&& ~~~0x80 = makeCode code := by
  revert code
  decide

variable (code) in
/-- **A make code**: the entry of the tables, and the flag of the key. -/
lemma ascii_make : kbScancodeToAscii (makeCode code) s
    = (tableEntry s.shiftPressed s.capslockOn (makeCode code), s.make code) := by
  have heq : ∀ c : BitVec 7, (makeCode code = makeCode c) = (code = c) := fun c =>
    propext makeCode_eq_iff
  have hlt : (makeCode code).toNat < 128 := by
    rw [makeCode, BitVec.toNat_setWidth_of_le (by norm_num)]
    exact code.isLt
  have h := tableEntry_modifier s.shiftPressed s.capslockOn
  rw [kbScancodeToAscii, if_neg (not_not.mpr makeCode_and), KbModifiers.make, if_pos hlt,
    show (0x2A : BitVec 8) = makeCode 0x2A from rfl,
    show (0x36 : BitVec 8) = makeCode 0x36 from rfl,
    show (0x1D : BitVec 8) = makeCode 0x1D from rfl,
    show (0x38 : BitVec 8) = makeCode 0x38 from rfl,
    show (0x3A : BitVec 8) = makeCode 0x3A from rfl]
  simp only [heq]
  split_ifs with h1 h2 h3 h4
  · rcases h1 with rfl | rfl <;> rw [h _ (by decide)]
  · rw [h2, h _ (by decide)]
  · rw [h3, h _ (by decide)]
  · rw [h4, h _ (by decide)]
  · rfl

variable (code) in
/-- **A break code**: no character, and the flag of the key. -/
lemma ascii_break : kbScancodeToAscii (breakCode code) s = (0, s.break code) := by
  have heq : ∀ c : BitVec 7, (makeCode code = makeCode c) = (code = c) := fun c =>
    propext makeCode_eq_iff
  rw [kbScancodeToAscii, if_pos breakCode_and.1, KbModifiers.break, breakCode_and.2,
    show (0x2A : BitVec 8) = makeCode 0x2A from rfl,
    show (0x36 : BitVec 8) = makeCode 0x36 from rfl,
    show (0x1D : BitVec 8) = makeCode 0x1D from rfl,
    show (0x38 : BitVec 8) = makeCode 0x38 from rfl]
  simp only [heq]
  split_ifs <;> rfl

/-- The byte before the code of an extended key does nothing. -/
lemma kbFeed_extended (extended : Bool) {scancodes : List (BitVec 8)} :
    kbFeed ((if extended then [0xE0] else []) ++ scancodes) s = kbFeed scancodes s := by
  cases extended with
  | false => rfl
  | true =>
      have h : kbScancodeToAscii 0xE0 s = (0, s) := ascii_break 0x60
      change kbFeed (0xE0 :: scancodes) s = _
      rw [kbFeed, h]
      rfl

lemma kbFeed_make : kbFeed [makeCode code] s
    = (let c := tableEntry s.shiftPressed s.capslockOn (makeCode code)
       if c ≠ 0 then [c] else [], s.make code) := by
  rw [kbFeed, ascii_make]
  rfl

lemma kbFeed_break : kbFeed [breakCode code] s = ([], s.break code) := by
  rw [kbFeed, ascii_break]
  rfl

/-- One scancode more. -/
lemma kbFeed_concat (scancodes : List (BitVec 8)) (scancode : BitVec 8) (kb : KbModifiers) :
    kbFeed (scancodes ++ [scancode]) kb
      = ((kbFeed scancodes kb).1
          ++ (if (kbScancodeToAscii scancode (kbFeed scancodes kb).2).1 ≠ 0
            then [(kbScancodeToAscii scancode (kbFeed scancodes kb).2).1] else []),
        (kbScancodeToAscii scancode (kbFeed scancodes kb).2).2) := by
  induction scancodes generalizing kb with
  | nil => rfl
  | cons sc scancodes ih =>
      rw [List.cons_append, kbFeed, kbFeed]
      dsimp only
      rw [ih]
      split_ifs <;> rfl

lemma kbFeed_fakeShift (right released : Bool) :
    kbFeed (KeyEvent.fakeShift right released).scancodes s
      = ([], { s with shiftPressed := !released }) := by
  have hchar : tableEntry s.shiftPressed s.capslockOn
      (makeCode (if right then 0x36 else 0x2A)) = 0 :=
    tableEntry_modifier _ _ _ (by cases right <;> decide)
  have hcode : (if right then 0x36 else 0x2A) = (0x2A : BitVec 7)
      ∨ (if right then 0x36 else 0x2A) = (0x36 : BitVec 7) := by
    cases right
    · exact Or.inl rfl
    · exact Or.inr rfl
  refine (kbFeed_extended true).trans ?_
  cases released with
  | false =>
      refine kbFeed_make.trans ?_
      rw [KbModifiers.make, if_pos hcode, hchar]
      rfl
  | true =>
      refine kbFeed_break.trans ?_
      rw [KbModifiers.break, if_pos hcode]
      rfl

lemma kbFeed_pause :
    kbFeed KeyEvent.pause.scancodes s = ([], { s with ctrlPressed := false }) := by
  have hE1 : ∀ s, kbScancodeToAscii 0xE1 s = (0, s) := fun s => ascii_break 0x61
  have h1D : kbScancodeToAscii 0x1D s = (0, { s with ctrlPressed := true }) := rfl
  have h45 : ∀ s, kbScancodeToAscii 0x45 s = (0, s) := fun s => by
    refine (ascii_make 0x45).trans ?_
    rw [show tableEntry s.shiftPressed s.capslockOn (makeCode 0x45) = 0 by
      cases s.shiftPressed <;> cases s.capslockOn <;> decide]
    rfl
  have h9D : ∀ s, kbScancodeToAscii 0x9D s = (0, { s with ctrlPressed := false }) := fun s =>
    ascii_break 0x1D
  have hC5 : ∀ s, kbScancodeToAscii 0xC5 s = (0, s) := fun s => ascii_break 0x45
  simp only [KeyEvent.scancodes, kbFeed, hE1, h1D, h45, h9D, hC5]
  rfl

/-! ### Keys -/

lemma Key.eq_plain_iff (k : Key) {c : BitVec 7} (hc : c = 0x2A ∨ c = 0x36 ∨ c = 0x3A) :
    k = .plain c ↔ k.code = c := by
  constructor
  · rintro rfl
    rfl
  · rintro rfl
    obtain ⟨extended, code, apart⟩ := k
    cases extended with
    | false => rfl
    | true =>
        obtain ⟨h1, h2, h3⟩ := apart rfl
        rcases hc with h | h | h
        · exact absurd h h1
        · exact absurd h h2
        · exact absurd h h3

lemma Key.isShift_iff (k : Key) :
    k.code = 0x2A ∨ k.code = 0x36 ↔ k = leftShift ∨ k = rightShift :=
  or_congr (k.eq_plain_iff (Or.inl rfl)).symm (k.eq_plain_iff (Or.inr (Or.inl rfl))).symm

lemma Key.isCapsLock_iff (k : Key) : k.code = 0x3A ↔ k = capsLock :=
  (k.eq_plain_iff (Or.inr (Or.inr rfl))).symm

namespace ModifierRun.Follows

variable {s u : ModifierRun} {e : KeyEvent} {k : Key}

lemma init : ModifierRun.init.Follows :=
  ⟨iff_of_false Bool.false_ne_true (by decide), iff_of_false Bool.false_ne_true (by decide), rfl⟩

/-- The character of a key is the one demanded. -/
lemma kbFeed_eq (h : s.Follows) :
    kbFeed [makeCode k.code] s.kb = (s.demand k, s.kb.make k.code) := by
  have hshift : s.kb.shiftPressed = decide (shiftHeld s.held) := by
    rw [Bool.eq_iff_iff, h.shift, decide_eq_true_iff]
  have hcaps : s.kb.capslockOn = decide (Odd s.capsPresses) := by
    rw [Bool.eq_iff_iff, h.capslock, decide_eq_true_iff]
  rw [kbFeed_make, hshift, hcaps]
  rfl

/-- A make code that leaves Caps Lock alone, or counts as a press of it, keeps the flags right. -/
lemma make (held : Finset Key) (presses : ℕ) (h : s.Follows)
    (hheld : shiftHeld held ↔ k = leftShift ∨ k = rightShift ∨ shiftHeld s.held)
    (hpresses : Odd presses ↔ if k = capsLock then ¬ Odd s.capsPresses else Odd s.capsPresses) :
    Follows ⟨s.kb.make k.code, held, presses, s.returned ++ s.demand k,
      s.demanded ++ s.demand k⟩ := by
  refine ⟨?_, ?_, by rw [h.returned]⟩
  · rw [KbModifiers.make_shiftPressed, hheld, ← or_assoc, ← k.isShift_iff]
    split_ifs with hk
    · exact iff_of_true rfl (Or.inl hk)
    · rw [h.shift, or_iff_right hk]
  · rw [KbModifiers.make_capslockOn, hpresses]
    by_cases hk : k = capsLock
    · rw [if_pos (k.isCapsLock_iff.mpr hk), if_pos hk, ← h.capslock, Bool.not_eq_true',
        Bool.not_eq_true]
    · rw [if_neg (mt k.isCapsLock_iff.mp hk), if_neg hk, h.capslock]

/-- A key that is pressed sets its flag. -/
lemma press (h : s.Follows) : ((s.feed (.press k)).move (.press k)).Follows := by
  have hfeed : kbFeed (KeyEvent.press k).scancodes s.kb = (s.demand k, s.kb.make k.code) :=
    (kbFeed_extended _).trans h.kbFeed_eq
  have hmake := h.make (k := k) (insert k s.held)
    (if k = capsLock then s.capsPresses + 1 else s.capsPresses) ?_ ?_
  · rw [feed, hfeed]
    exact hmake
  · simp only [shiftHeld, Finset.mem_insert]
    constructor
    · rintro ((rfl | hl) | rfl | hr)
      exacts [Or.inl rfl, Or.inr (Or.inr (Or.inl hl)), Or.inr (Or.inl rfl),
        Or.inr (Or.inr (Or.inr hr))]
    · rintro (rfl | rfl | hl | hr)
      exacts [Or.inl (Or.inl rfl), Or.inr (Or.inl rfl), Or.inl (Or.inr hl), Or.inr (Or.inr hr)]
  · split_ifs with hk
    · exact Nat.odd_add_one
    · rfl

/-- A key that repeats does no harm unless it is Caps Lock. -/
lemma typematic_iff (h : s.Follows) (hk : k ∈ s.held) :
    ((s.feed (.typematic k)).move (.typematic k)).Follows ↔ k ≠ capsLock := by
  have hfeed : kbFeed (KeyEvent.typematic k).scancodes s.kb = (s.demand k, s.kb.make k.code) :=
    (kbFeed_extended _).trans h.kbFeed_eq
  rw [feed, hfeed]
  constructor
  · rintro hu rfl
    have hcaps := hu.capslock
    have hflip : (s.kb.make capsLock.code).capslockOn = !s.kb.capslockOn :=
      KbModifiers.make_capslockOn.trans (if_pos rfl)
    change (s.kb.make capsLock.code).capslockOn = true ↔ Odd s.capsPresses at hcaps
    rw [hflip, ← h.capslock, Bool.not_eq_true', ← Bool.not_eq_true] at hcaps
    exact iff_not_self hcaps.symm
  · intro hne
    refine h.make _ _ ?_ ?_
    · refine ⟨fun hheld => Or.inr (Or.inr hheld), ?_⟩
      rintro (rfl | rfl | hheld)
      exacts [Or.inl hk, Or.inr hk, hheld]
    · rw [if_neg hne]

/-- A shift key that is released takes the flag with it, also if the other one is held. -/
lemma release_iff (h : s.Follows) :
    ((s.feed (.release k)).move (.release k)).Follows ↔ Distinguishes s (.release k) := by
  have hfeed : kbFeed (KeyEvent.release k).scancodes s.kb = ([], s.kb.break k.code) :=
    (kbFeed_extended _).trans kbFeed_break
  have hne : leftShift ≠ rightShift := by decide
  rw [feed, hfeed, List.append_nil]
  have hiff : ((s.kb.break k.code).shiftPressed = true ↔ shiftHeld (s.held.erase k))
      ↔ Distinguishes s (.release k) := by
    rw [KbModifiers.break_shiftPressed, Distinguishes, shiftHeld, Finset.mem_erase,
      Finset.mem_erase]
    by_cases hl : k = leftShift
    · subst hl
      rw [if_pos (leftShift.isShift_iff.mpr (Or.inl rfl))]
      simp [hne, hne.symm]
    · by_cases hr : k = rightShift
      · subst hr
        rw [if_pos (rightShift.isShift_iff.mpr (Or.inr rfl))]
        simp [hne, hne.symm]
      · rw [if_neg fun hk => (k.isShift_iff.mp hk).elim hl hr, h.shift, shiftHeld]
        simp [hl, hr, Ne.symm hl, Ne.symm hr]
  rw [← hiff]
  refine ⟨fun hu => hu.shift, fun hshift => ⟨hshift, ?_, h.returned⟩⟩
  change (s.kb.break k.code).capslockOn = true ↔ Odd s.capsPresses
  rw [KbModifiers.break_capslockOn]
  exact h.capslock

/-- What the keyboard pretends is believed. -/
lemma fakeShift_iff (h : s.Follows) (right released : Bool) :
    ((s.feed (.fakeShift right released)).move (.fakeShift right released)).Follows
      ↔ (shiftHeld s.held ↔ released = false) := by
  rw [feed, kbFeed_fakeShift, List.append_nil]
  have hshift : ((!released) = true ↔ shiftHeld s.held)
      ↔ (shiftHeld s.held ↔ released = false) := by
    rw [Bool.not_eq_true']
    exact Iff.comm
  exact ⟨fun hu => hshift.mp hu.shift, fun hd => ⟨hshift.mpr hd, h.capslock, h.returned⟩⟩

/-- **One event** keeps flags and keys together exactly if the flags can tell it apart. -/
lemma step_iff (h : s.Follows) (hadm : keyboardMachine.admissible s e)
    (hst : keyboardMachine.step s e = some u) : u.Follows ↔ Distinguishes s e := by
  obtain rfl := Option.some.inj hst
  cases e with
  | press k => exact iff_of_true h.press trivial
  | typematic k => exact h.typematic_iff hadm
  | release k => exact h.release_iff
  | fakeShift right released => exact h.fakeShift_iff right released
  | pause =>
      refine iff_of_true ?_ trivial
      rw [feed, kbFeed_pause, List.append_nil]
      exact ⟨h.shift, h.capslock, h.returned⟩

end ModifierRun.Follows

/-- **The flags follow the keys** in every run whose events they can tell apart, and so do the
characters; the first event that they cannot tell apart ends this. -/
theorem modifiers_follow {es : List KeyEvent} {s : ModifierRun}
    (hrun : (keyboardMachine.restrict Distinguishes).Run ModifierRun.init es s) :
    s.Follows ∧ ∀ e u, keyboardMachine.admissible s e → keyboardMachine.step s e = some u →
      (u.Follows ↔ Distinguishes s e) := by
  have hfollows : s.Follows := by
    refine EventMachine.Run.invariant .init (fun t e u ht hadm hst => ?_) hrun
    exact (ht.step_iff hadm.1 hst).mpr hadm.2
  exact ⟨hfollows, fun e u hadm hst => hfollows.step_iff hadm hst⟩

/-- An `A` with Left Shift, then Caps Lock and an `a` that repeats. -/
def typeLetters : List KeyEvent :=
  [.press leftShift, .press (.plain 0x1E), .release (.plain 0x1E), .release leftShift,
    .press capsLock, .release capsLock, .press (.plain 0x1E), .typematic (.plain 0x1E)]

/-- The state after these keys. -/
def lettersTyped : ModifierRun :=
  ((keyboardMachine.restrict Distinguishes).exec .init typeLetters).getD .init

/-- The statement for these keys. -/
theorem modifiers_follow_letters :
    lettersTyped.returned = [chr 'A', chr 'A', chr 'A'] ∧ lettersTyped.Follows
      ∧ ∀ e u, keyboardMachine.admissible lettersTyped e →
        keyboardMachine.step lettersTyped e = some u → (u.Follows ↔ Distinguishes lettersTyped e) :=
  ⟨by decide, modifiers_follow (EventMachine.Run.of_isSome
    (show ((keyboardMachine.restrict Distinguishes).exec .init typeLetters).isSome = true
      by decide))⟩

/-- **The flags part from the keys**: Left Shift is released while Right Shift is still held, and
Caps Lock is held until it repeats. -/
theorem modifiers_lost :
    (∃ s, keyboardMachine.Run .init [.press leftShift, .press rightShift, .release leftShift] s
        ∧ ¬ (s.kb.shiftPressed = true ↔ shiftHeld s.held))
      ∧ ∃ s, keyboardMachine.Run .init [.press capsLock, .typematic capsLock] s
        ∧ ¬ (s.kb.capslockOn = true ↔ Odd s.capsPresses) :=
  ⟨⟨_, EventMachine.Run.of_exec rfl, by decide⟩, ⟨_, EventMachine.Run.of_exec rfl, by decide⟩⟩

end KiOS
