import KiOS.Drivers.Terminal

/-!
The line editor of the shell (`shell_readline`) and its echo on the screen.

The editor keeps the line in `shell_buffer`, the driver keeps the cursor, and a backspace of the
driver does not leave the row it is in. So the two part when a line that fills its rows is
shortened, or a line of more than one row is cleared.

* `Shell`, `readlineKey`, `shellClearLine`, `shellPrintPrompt`: the functions of the source. Their
  output goes to the screen and to the unbounded terminal beside it;
* `ReadlineRun.Echoed`: the text between the prompt and the cursor is the line;
* `KeepsEcho`: the condition: no backspace at the left margin, no clearing across rows;
* `echo_matches`: in every run that keeps to it the echo is right, and the next key keeps it so
  exactly if it keeps to it as well;
* `echo_lost`: a line that reaches the right margin and a backspace.
-/

namespace KiOS

/-- `SHELL_BUFFER_SIZE`. -/
def shellBufferSize : ℕ := 256

/-- `shell_buffer` and `shell_buffer_pos`. -/
structure Shell where
  buffer : ℕ → BitVec 8
  pos : ℕ

/-- `vga_putchar`. -/
def VgaRun.putchar (c : BitVec 8) (s : VgaRun) : VgaRun :=
  ⟨vgaPutchar c s.vga, s.terminal.putchar c⟩

/-- `vga_print_colored`. -/
def VgaRun.printColored (str : List Char) (fg bg : BitVec 32) (s : VgaRun) : VgaRun :=
  let oldColor := s.vga.color
  let s := str.foldl (fun s c => s.putchar (chr c)) { s with vga := vgaSetColor fg bg s.vga }
  { s with vga := { s.vga with color := oldColor } }

/-- `shell_print_prompt`. -/
def shellPrintPrompt (s : VgaRun) : VgaRun :=
  let s := s.printColored "kiba".toList 10 0
  let s := s.printColored "@".toList 15 0
  let s := s.printColored "KiOS".toList 11 0
  s.printColored "> ".toList 15 0

/-- The loop of `shell_clear_line`: a backspace for each character of the line. -/
def clearLoop : ℕ → VgaRun → VgaRun
  | 0, s => s
  | pos + 1, s => clearLoop pos (s.putchar (chr '\x08'))

/-- `shell_clear_line`. -/
def shellClearLine (sh : Shell) (s : VgaRun) : Shell × VgaRun :=
  ({ buffer := Function.update sh.buffer 0 0, pos := 0 }, clearLoop sh.pos s)

/-- `shell_readline` up to its first key. -/
def readlineStart (sh : Shell) : Shell where
  buffer := Function.update sh.buffer 0 0
  pos := 0

/-- What `shell_readline` does for a key, and whether it returns then. -/
def readlineKey (c : BitVec 8) (sh : Shell) (s : VgaRun) : Bool × Shell × VgaRun :=
  if c = chr '\n' then
    (true, { sh with buffer := Function.update sh.buffer sh.pos 0 }, s.putchar (chr '\n'))
  else if c = chr '\x08' then
    if 0 < sh.pos then
      (false, { buffer := Function.update sh.buffer (sh.pos - 1) 0, pos := sh.pos - 1 },
        s.putchar (chr '\x08'))
    else (false, sh, s)
  else if c = 27 then (false, shellClearLine sh s)
  else if (chr ' ').toInt ≤ c.toInt ∧ sh.pos < shellBufferSize - 1 then
    (false,
      { buffer := Function.update (Function.update sh.buffer sh.pos c) (sh.pos + 1) 0
        pos := sh.pos + 1 },
      s.putchar c)
  else (false, sh, s)

/-! ### The terminal as one line -/

namespace Terminal

variable {t : Terminal} {c : BitVec 8}

/-- The cells in the order they are read, across the rows. -/
def charAt (t : Terminal) (i : ℕ) : BitVec 8 := t.cell (i / 80) (i % 80)

/-- The place of the cursor in this order. -/
def cursor (t : Terminal) : ℕ := t.row * 80 + t.col

lemma charAt_write (hcol : t.col < 80) (i : ℕ) :
    (t.write c).charAt i = if i = t.cursor then c else t.charAt i := by
  have hiff : i / 80 = t.row ∧ i % 80 = t.col ↔ i = t.row * 80 + t.col := by omega
  exact if_congr hiff rfl rfl

lemma wrap_of_lt (hcol : t.col < 80) : t.wrap = t := if_neg (by omega)

/-- A printable character takes the place of the cursor, also at the end of a row. -/
lemma putchar_print (hc : (chr ' ').toInt ≤ c.toInt) (hcol : t.col < 80) :
    (t.putchar c).cursor = t.cursor + 1
      ∧ ∀ i, (t.putchar c).charAt i = if i = t.cursor then c else t.charAt i := by
  have hctrl : c ≠ chr '\n' ∧ c ≠ chr '\r' ∧ c ≠ chr '\t' ∧ c ≠ chr '\x08' := by
    refine ⟨?_, ?_, ?_, ?_⟩ <;> rintro rfl <;> revert hc <;> decide
  have hstep : t.step c = { t.write c with col := t.col + 1 } := by
    simp only [step, if_neg hctrl.1, if_neg hctrl.2.1, if_neg hctrl.2.2.1, if_neg hctrl.2.2.2,
      if_pos hc]
  constructor
  · rw [putchar, hstep, wrap]
    split_ifs with hfull
    · have hlast : t.col = 79 := by
        dsimp only at hfull
        omega
      simp only [cursor, write]
      omega
    · rfl
  · intro i
    rw [← charAt_write hcol, charAt, putchar, wrap_cell, hstep]
    rfl

/-- At the left margin a backspace does nothing. -/
lemma putchar_backspace_margin (hcol : t.col = 0) : t.putchar (chr '\x08') = t := by
  have hstep : t.step (chr '\x08') = t := if_pos hcol
  rw [putchar, hstep, wrap_of_lt (by omega)]

/-- A backspace blanks the place before the cursor. -/
lemma putchar_backspace (hpos : 0 < t.col) (hcol : t.col < 80) :
    (t.putchar (chr '\x08')).row = t.row ∧ (t.putchar (chr '\x08')).col + 1 = t.col
      ∧ ∀ i, (t.putchar (chr '\x08')).charAt i
        = if i + 1 = t.cursor then chr ' ' else t.charAt i := by
  have hctrl : chr '\x08' ≠ chr '\n' ∧ chr '\x08' ≠ chr '\r' ∧ chr '\x08' ≠ chr '\t' := by decide
  have hstep : t.step (chr '\x08') = write { t with col := t.col - 1 } (chr ' ') := by
    simp only [step, if_neg hctrl.1, if_neg hctrl.2.1, if_neg hctrl.2.2, if_true,
      if_neg hpos.ne']
  have hlt : (t.step (chr '\x08')).col < 80 := by
    rw [hstep]
    exact (Nat.sub_le _ _).trans_lt hcol
  rw [putchar, wrap_of_lt hlt, hstep]
  refine ⟨rfl, Nat.sub_add_cancel hpos, fun i => ?_⟩
  have hplace : i = cursor { t with col := t.col - 1 } ↔ i + 1 = t.cursor := by
    simp only [cursor]
    omega
  rw [charAt_write (by dsimp only; omega)]
  simp only [hplace]
  rfl

end Terminal

/-! ### Clearing the line -/

/-- A cell of the screen as one of the terminal. -/
lemma VgaRun.Inv.char_eq {s : VgaRun} (h : s.Inv) {i : ℕ}
    (hi : (s.terminal.row - 24) * 80 ≤ i) (hin : i < (s.terminal.row - 24) * 80 + 2000) :
    s.vga.buffer.char (i - (s.terminal.row - 24 : ℕ) * 80) = s.terminal.charAt i := by
  have hcell := h.displays.cells (i / 80 - (s.terminal.row - 24)) (i % 80) (by omega) (by omega)
  rw [Terminal.charAt,
    show i / 80 = s.terminal.row - 24 + (i / 80 - (s.terminal.row - 24)) by omega,
    ← hcell]
  congr 1
  omega

lemma VgaRun.Inv.putchar {s : VgaRun} (h : s.Inv) (c : BitVec 8) : (s.putchar c).Inv :=
  h.step (e := .putchar c) rfl

lemma clearLoop_inv {s : VgaRun} (h : s.Inv) (n : ℕ) : (clearLoop n s).Inv := by
  induction n generalizing s with
  | zero => exact h
  | succ n ih => exact ih (h.putchar _)

/-- Clearing stays in the row of the cursor. -/
lemma clearLoop_row {s : VgaRun} (h : s.Inv) (n : ℕ) :
    (clearLoop n s).terminal.row = s.terminal.row := by
  induction n generalizing s with
  | zero => rfl
  | succ n ih =>
      rw [clearLoop, ih (h.putchar _)]
      by_cases h0 : s.terminal.col = 0
      · exact congrArg Terminal.row (Terminal.putchar_backspace_margin h0)
      · exact (Terminal.putchar_backspace (by omega) h.col_lt).1

/-- Clearing no more than the row of the cursor. -/
lemma clearLoop_spec {s : VgaRun} (h : s.Inv) {n : ℕ} (hn : n ≤ s.terminal.col) :
    (clearLoop n s).terminal.cursor + n = s.terminal.cursor
      ∧ ∀ i, (clearLoop n s).terminal.charAt i
        = if s.terminal.cursor ≤ i + n ∧ i < s.terminal.cursor then chr ' '
          else s.terminal.charAt i := by
  induction n generalizing s with
  | zero =>
      refine ⟨rfl, fun i => ?_⟩
      rw [if_neg (by omega)]
      rfl
  | succ n ih =>
      obtain ⟨hrow, hcol, hchar⟩ := Terminal.putchar_backspace (t := s.terminal) (by omega) h.col_lt
      have hcursor : (s.putchar (chr '\x08')).terminal.cursor + 1 = s.terminal.cursor := by
        simp only [Terminal.cursor, VgaRun.putchar]
        omega
      obtain ⟨hend, hcells⟩ := ih (h.putchar (chr '\x08')) (by simp only [VgaRun.putchar]; omega)
      refine ⟨by rw [clearLoop]; omega, fun i => ?_⟩
      have hput : (s.putchar (chr '\x08')).terminal.charAt i
          = if i + 1 = s.terminal.cursor then chr ' ' else s.terminal.charAt i := hchar i
      rw [clearLoop, hcells, hput]
      split_ifs <;> first | rfl | omega

/-! ### The first line -/

/-- After the output the cursor is behind it, and nothing further on has changed. -/
lemma foldl_putchar_spec {s : VgaRun} (h : s.Inv) {str : List Char}
    (hstr : ∀ c ∈ str, (chr ' ').toInt ≤ (chr c).toInt) :
    (str.foldl (fun s c => s.putchar (chr c)) s).Inv
      ∧ (str.foldl (fun s c => s.putchar (chr c)) s).terminal.cursor
        = s.terminal.cursor + str.length
      ∧ ∀ i, s.terminal.cursor + str.length ≤ i →
        (str.foldl (fun s c => s.putchar (chr c)) s).terminal.charAt i = s.terminal.charAt i := by
  induction str generalizing s with
  | nil => exact ⟨h, rfl, fun _ _ => rfl⟩
  | cons c str ih =>
      obtain ⟨hcursor, hchar⟩ :=
        Terminal.putchar_print (t := s.terminal) (hstr c (.head _)) h.col_lt
      obtain ⟨hinv, hend, hrest⟩ := ih (h.putchar (chr c)) fun d hd => hstr d (.tail _ hd)
      have hput : (s.putchar (chr c)).terminal.cursor = s.terminal.cursor + 1 := hcursor
      refine ⟨hinv, ?_, fun i hi => ?_⟩
      · rw [List.foldl_cons, hend, hput, List.length_cons]
        omega
      · rw [List.length_cons] at hi
        rw [List.foldl_cons, hrest i (by omega)]
        exact (hchar i).trans (if_neg (by omega))

lemma VgaRun.Inv.color {s : VgaRun} (h : s.Inv) (color : BitVec 8) :
    VgaRun.Inv { s with vga := { s.vga with color := color } } :=
  ⟨⟨h.displays.top_le, h.displays.cursorX, h.displays.cursorY, h.displays.cells⟩, h.col_lt,
    h.blankBelow, h.inside, h.hwCursor⟩

lemma printColored_spec {s : VgaRun} (h : s.Inv) (str : List Char) (fg bg : BitVec 32) {n : ℕ}
    (hlen : str.length = n) (hstr : ∀ c ∈ str, (chr ' ').toInt ≤ (chr c).toInt) :
    (s.printColored str fg bg).Inv
      ∧ (s.printColored str fg bg).terminal.cursor = s.terminal.cursor + n
      ∧ ∀ i, s.terminal.cursor + n ≤ i →
        (s.printColored str fg bg).terminal.charAt i = s.terminal.charAt i := by
  subst hlen
  obtain ⟨hinv, hcursor, hchar⟩ := foldl_putchar_spec (h.color (vgaMakeColor fg bg)) hstr
  exact ⟨hinv.color _, hcursor, hchar⟩

/-- **The prompt** takes eleven places. -/
lemma shellPrintPrompt_spec {s : VgaRun} (h : s.Inv) :
    (shellPrintPrompt s).Inv ∧ (shellPrintPrompt s).terminal.cursor = s.terminal.cursor + 11
      ∧ ∀ i, s.terminal.cursor + 11 ≤ i →
        (shellPrintPrompt s).terminal.charAt i = s.terminal.charAt i := by
  rw [shellPrintPrompt]
  have h₁ := printColored_spec h "kiba".toList 10 0 (n := 4) rfl (by simp [chr])
  generalize s.printColored "kiba".toList 10 0 = s₁ at *
  have h₂ := printColored_spec h₁.1 "@".toList 15 0 (n := 1) rfl (by simp [chr])
  generalize s₁.printColored "@".toList 15 0 = s₂ at *
  have h₃ := printColored_spec h₂.1 "KiOS".toList 11 0 (n := 4) rfl (by simp [chr])
  generalize s₂.printColored "KiOS".toList 11 0 = s₃ at *
  have h₄ := printColored_spec h₃.1 "> ".toList 15 0 (n := 2) rfl (by simp [chr])
  generalize s₃.printColored "> ".toList 15 0 = s₄ at *
  have hcursor : s₄.terminal.cursor = s.terminal.cursor + 11 := by
    rw [h₄.2.1, h₃.2.1, h₂.2.1, h₁.2.1]
  refine ⟨h₄.1, hcursor, fun i hi => ?_⟩
  calc s₄.terminal.charAt i
      = s₃.terminal.charAt i := h₄.2.2 i (by omega)
    _ = s₂.terminal.charAt i := h₃.2.2 i (by omega)
    _ = s₁.terminal.charAt i := h₂.2.2 i (by omega)
    _ = s.terminal.charAt i := h₁.2.2 i (by omega)

/-- Right of the prompt the row of the cursor is blank. -/
def RowBlank (s : VgaRun) : Prop :=
  ∀ x : ℕ, 11 ≤ x → x < 80 → s.vga.buffer.char (s.vga.cursorY * 80 + x) = chr ' '

/-- The cells of the row of the cursor. -/
lemma VgaRun.Inv.char_row {s : VgaRun} (h : s.Inv) {x : ℕ} (hx : x < 80) :
    s.vga.buffer.char (s.vga.cursorY * 80 + x) = s.terminal.charAt (s.terminal.row * 80 + x) := by
  have hy := h.displays.cursorY
  have htop := h.displays.top_le
  rw [← h.char_eq (by omega) (by omega), hy]
  congr 1
  push_cast
  ring

/-- Nothing was output behind the cursor. -/
def Terminal.BlankAfter (t : Terminal) : Prop := ∀ i, t.cursor ≤ i → t.charAt i = chr ' '

/-- Only a carriage return goes back over what was output. -/
lemma Terminal.BlankAfter.putchar {t : Terminal} {c : BitVec 8} (h : t.BlankAfter)
    (hcol : t.col < 80) (hc : c ≠ chr '\r') : (t.putchar c).BlankAfter := by
  have hback : ∀ u : Terminal, u.cell = t.cell → t.cursor ≤ u.cursor → u.BlankAfter := by
    intro u hcell hle i hi
    rw [charAt, hcell]
    exact h i (hle.trans hi)
  have hwrap : ∀ u : Terminal, u.cell = t.cell → t.cursor ≤ u.cursor → u.col ≤ 80 →
      u.wrap.BlankAfter := by
    intro u hcell hle hcol
    refine hback _ (wrap_cell.trans hcell) (hle.trans ?_)
    rw [wrap]
    split_ifs <;> simp only [cursor] <;> omega
  by_cases hnl : c = chr '\n'
  · rw [Terminal.putchar, step, if_pos hnl]
    exact hwrap _ rfl (by simp only [cursor]; omega) (by dsimp only; omega)
  by_cases htab : c = chr '\t'
  · rw [Terminal.putchar, step, if_neg hnl, if_neg hc, if_pos htab]
    exact hwrap _ rfl (by simp only [cursor]; omega) (by dsimp only; omega)
  by_cases hbs : c = chr '\x08'
  · subst hbs
    by_cases h0 : t.col = 0
    · rwa [putchar_backspace_margin h0]
    · obtain ⟨hrow, hleft, hchar⟩ := putchar_backspace (t := t) (by omega) hcol
      intro i hi
      rw [hchar]
      split_ifs with heq
      · rfl
      · exact h i (by simp only [cursor] at *; omega)
  by_cases hprint : (chr ' ').toInt ≤ c.toInt
  · obtain ⟨hcursor, hchar⟩ := putchar_print hprint hcol
    intro i hi
    rw [hchar, if_neg (by omega)]
    exact h i (by omega)
  · rw [Terminal.putchar, step, if_neg hnl, if_neg hc, if_neg htab, if_neg hbs, if_neg hprint]
    exact hwrap _ rfl le_rfl hcol.le

/-- **The row is blank** wherever a line begins, if no carriage return was output. -/
lemma rowBlank_of_no_return (v : Vga) {es : List VgaEvent} {s : VgaRun}
    (hrun : vgaMachine.Run (VgaRun.init v) es s) (hes : ∀ e ∈ es, e ≠ .putchar (chr '\r'))
    (hcol : s.vga.cursorX = 0) : RowBlank s := by
  have hinv : s.Inv ∧ s.terminal.BlankAfter := by
    clear hcol
    induction hrun with
    | nil => exact ⟨VgaRun.Inv.init v, fun _ _ => rfl⟩
    | @snoc es t u e hrun _ hst ih =>
        have ht := ih fun e he => hes e (List.mem_append_left _ he)
        refine ⟨ht.1.step hst, ?_⟩
        cases e with
        | setColor fg bg =>
            obtain rfl := Option.some.inj hst
            exact ht.2
        | putchar c =>
            obtain rfl := Option.some.inj hst
            refine ht.2.putchar ht.1.col_lt ?_
            rintro rfl
            exact hes _ (List.mem_append_right _ (.head _)) rfl
  intro x _ hx
  rw [hinv.1.char_row hx]
  exact hinv.2 _ (by have := hinv.1.displays.cursorX; simp only [Terminal.cursor]; omega)

/-! ### Runs -/

/-- The editor and its screen, and the row of the terminal where the prompt was printed. -/
structure ReadlineRun where
  shell : Shell
  screen : VgaRun
  promptRow : ℕ

namespace ReadlineRun

/-- `shell_print_prompt` and the beginning of `shell_readline`. -/
def init (sh : Shell) (s : VgaRun) : ReadlineRun where
  shell := readlineStart sh
  screen := shellPrintPrompt s
  promptRow := s.terminal.row

/-- The first cell after the prompt, as a place on the screen. The screen shows the row of the
cursor and the 24 rows above it. -/
def origin (s : ReadlineRun) : ℤ :=
  ((s.promptRow : ℤ) - (s.screen.terminal.row - 24 : ℕ)) * 80 + 11

/-- The echo is right. -/
structure Echoed (s : ReadlineRun) : Prop where
  /-- The cursor is as many places behind the prompt as the line has characters. -/
  cursor : s.screen.vga.cursorY * 80 + s.screen.vga.cursorX = s.origin + s.shell.pos
  /-- The cells between them hold the line. -/
  text : ∀ i < s.shell.pos, s.screen.vga.buffer.char (s.origin + i) = s.shell.buffer i
  /-- From the cursor to the end of the screen all is blank. -/
  blank : ∀ j, s.origin + s.shell.pos ≤ j → j < 2000 → s.screen.vga.buffer.char j = chr ' '

/-- The condition: a backspace does not go back over the left margin, and only a line that ends
in the row of the prompt is cleared. -/
def KeepsEcho (s : ReadlineRun) (c : BitVec 8) : Prop :=
  (c = chr '\x08' → s.shell.pos = 0 ∨ (11 + s.shell.pos) % 80 ≠ 0)
    ∧ (c = 27 → 11 + s.shell.pos < 80)

instance (s : ReadlineRun) (c : BitVec 8) : Decidable (s.KeepsEcho c) :=
  inferInstanceAs (Decidable (_ ∧ _))

end ReadlineRun

/-- The keys `shell_readline` goes on after. -/
def readlineMachine : EventMachine ReadlineRun (BitVec 8) where
  admissible _ c := c ≠ chr '\n'
  step s c :=
    let r := readlineKey c s.shell s.screen
    some { s with shell := r.2.1, screen := r.2.2 }

instance (s : ReadlineRun) (c : BitVec 8) : Decidable (readlineMachine.admissible s c) :=
  inferInstanceAs (Decidable (_ ≠ _))

namespace ReadlineRun

variable {s u : ReadlineRun} {c : BitVec 8}

/-- The invariant of a run, on the terminal. -/
structure Inv (s : ReadlineRun) : Prop where
  screen : s.screen.Inv
  pos_lt : s.shell.pos < shellBufferSize
  cursor : s.screen.terminal.cursor = s.promptRow * 80 + 11 + s.shell.pos
  text : ∀ i < s.shell.pos,
    s.screen.terminal.charAt (s.promptRow * 80 + 11 + i) = s.shell.buffer i
  blank : ∀ i, s.screen.terminal.cursor ≤ i → s.screen.terminal.charAt i = chr ' '

namespace Inv

/-- The prompt is still on the screen: a line has four rows at most. -/
lemma top_le (h : s.Inv) : s.screen.terminal.row - 24 ≤ s.promptRow := by
  have hcursor := h.cursor
  have hpos := h.pos_lt
  have hcol := h.screen.col_lt
  simp only [Terminal.cursor, shellBufferSize] at hcursor hpos
  omega

lemma echoed (h : s.Inv) : s.Echoed := by
  have hcursor := h.cursor
  have hx := h.screen.displays.cursorX
  have hy := h.screen.displays.cursorY
  have hcol := h.screen.col_lt
  have htop := h.top_le
  have hrow : s.screen.terminal.row - 24 ≤ s.screen.terminal.row := Nat.sub_le _ _
  have hlast : s.screen.terminal.row < s.screen.terminal.row - 24 + 25 := by omega
  simp only [Terminal.cursor] at hcursor
  generalize htopdef : s.screen.terminal.row - 24 = top at *
  have horigin : s.origin = ((s.promptRow : ℤ) - top) * 80 + 11 := by rw [origin, htopdef]
  refine ⟨by omega, fun i hi => ?_, fun j hj hj' => ?_⟩
  · have hchar := h.screen.char_eq (i := s.promptRow * 80 + 11 + i) (by omega) (by omega)
    rw [← h.text i hi, ← hchar, htopdef]
    congr 1
    omega
  · have hblank := h.blank (j + top * 80).toNat (by simp only [Terminal.cursor]; omega)
    have hchar := h.screen.char_eq (i := (j + top * 80).toNat) (by omega) (by omega)
    rw [← hblank, ← hchar, htopdef]
    congr 1
    omega

/-- Where the echo is right the cursor of the terminal is at the end of the line. -/
lemma cursor_of_echoed (h : s.screen.Inv) (he : s.Echoed) :
    s.screen.terminal.cursor = s.promptRow * 80 + 11 + s.shell.pos := by
  have hcursor := he.cursor
  have hx := h.displays.cursorX
  have hy := h.displays.cursorY
  simp only [origin, Terminal.cursor] at *
  omega

/-- **The prompt** leaves the echo of an empty line. -/
lemma init (sh : Shell) {s : VgaRun} (h : s.Inv) (hcol : s.vga.cursorX = 0) (hrow : RowBlank s) :
    (ReadlineRun.init sh s).Inv := by
  obtain ⟨hinv, hcursor, hchar⟩ := shellPrintPrompt_spec h
  have hstart : s.terminal.cursor = s.terminal.row * 80 := by
    have hx := h.displays.cursorX
    simp only [Terminal.cursor]
    omega
  refine ⟨hinv, Nat.zero_lt_succ 255, by rw [ReadlineRun.init, hcursor, hstart]; rfl,
    fun i hi => absurd hi (Nat.not_lt_zero i), fun i hi => ?_⟩
  have hle : s.terminal.cursor + 11 ≤ i := hcursor ▸ hi
  refine (hchar i hle).trans ?_
  rw [hstart] at hle
  by_cases hsame : i < s.terminal.row * 80 + 80
  · obtain ⟨x, rfl⟩ : ∃ x, i = s.terminal.row * 80 + x := ⟨i - s.terminal.row * 80, by omega⟩
    rw [← h.char_row (by omega)]
    exact hrow x (by omega) (by omega)
  · exact h.blankBelow _ _ (by omega)

/-- A character at the end of the line. -/
lemma print (h : s.Inv) (hc : (chr ' ').toInt ≤ c.toInt)
    (hfull : s.shell.pos < shellBufferSize - 1) :
    Inv
      { s with
        shell := ⟨Function.update (Function.update s.shell.buffer s.shell.pos c)
          (s.shell.pos + 1) 0, s.shell.pos + 1⟩
        screen := s.screen.putchar c } := by
  obtain ⟨hcursor, hchar⟩ := Terminal.putchar_print (t := s.screen.terminal) hc h.screen.col_lt
  have hold := h.cursor
  refine ⟨h.screen.putchar c, by simp only [shellBufferSize] at *; omega,
    hcursor.trans (by rw [hold]; rfl), fun i hi => ?_, fun i hi => ?_⟩
  · refine (hchar _).trans ?_
    have hi' : i < s.shell.pos + 1 := hi
    dsimp only
    rw [Function.update_of_ne (by omega), hold]
    by_cases hlast : i = s.shell.pos
    · rw [if_pos (by omega), hlast, Function.update_self]
    · rw [if_neg (by omega), Function.update_of_ne hlast]
      exact h.text i (by omega)
  · have hi' : s.screen.terminal.cursor + 1 ≤ i := hcursor ▸ hi
    refine (hchar i).trans ?_
    rw [if_neg (by omega)]
    exact h.blank i (by omega)

/-- The cursor stands in the column that the length of the line gives. -/
lemma col_eq (h : s.Inv) : s.screen.terminal.col = (11 + s.shell.pos) % 80 := by
  have hcursor := h.cursor
  have hcol := h.screen.col_lt
  simp only [Terminal.cursor] at hcursor
  omega

/-- A backspace in a row. -/
lemma backspace (h : s.Inv) (hpos : 0 < s.shell.pos) (hcol : (11 + s.shell.pos) % 80 ≠ 0) :
    Inv
      { s with
        shell := ⟨Function.update s.shell.buffer (s.shell.pos - 1) 0, s.shell.pos - 1⟩
        screen := s.screen.putchar (chr '\x08') } := by
  have hleft : 0 < s.screen.terminal.col := by
    rw [h.col_eq]
    omega
  obtain ⟨hrow, hcol', hchar⟩ := Terminal.putchar_backspace hleft h.screen.col_lt
  have hold := h.cursor
  have hcursor : (s.screen.putchar (chr '\x08')).terminal.cursor + 1
      = s.screen.terminal.cursor := by
    simp only [Terminal.cursor, VgaRun.putchar]
    omega
  have hlt := h.pos_lt
  refine ⟨h.screen.putchar _, by dsimp only; omega, by dsimp only; omega, fun i hi => ?_,
    fun i hi => ?_⟩
  · have hi' : i < s.shell.pos - 1 := hi
    refine (hchar _).trans ?_
    dsimp only
    rw [if_neg (by omega), Function.update_of_ne (by omega)]
    exact h.text i (by omega)
  · have hi' : (s.screen.putchar (chr '\x08')).terminal.cursor ≤ i := hi
    refine (hchar i).trans ?_
    split_ifs with hlast
    · rfl
    · exact h.blank i (by omega)

/-- Clearing a line that ends in the row of the prompt. -/
lemma clearLine (h : s.Inv) (hrow : 11 + s.shell.pos < 80) :
    Inv
      { s with
        shell := (shellClearLine s.shell s.screen).1
        screen := (shellClearLine s.shell s.screen).2 } := by
  have hcol := h.col_eq
  have hold := h.cursor
  obtain ⟨hcursor, hchar⟩ := clearLoop_spec h.screen (n := s.shell.pos) (by omega)
  refine ⟨clearLoop_inv h.screen _, Nat.zero_lt_succ 255, ?_,
    fun i hi => absurd hi (Nat.not_lt_zero i), fun i hi => ?_⟩
  · dsimp only [shellClearLine]
    omega
  · have hi' : (clearLoop s.shell.pos s.screen).terminal.cursor ≤ i := hi
    refine (hchar i).trans ?_
    split_ifs with hcleared
    · rfl
    · exact h.blank i (by omega)

/-- **A key that keeps to the condition** keeps the echo. -/
lemma key (h : s.Inv) (hkeep : s.KeepsEcho c) (hadm : c ≠ chr '\n')
    (hst : readlineMachine.step s c = some u) : u.Inv := by
  obtain rfl := Option.some.inj hst
  dsimp only [readlineKey]
  rw [if_neg hadm]
  by_cases hbs : c = chr '\x08'
  · rw [if_pos hbs]
    by_cases hpos : 0 < s.shell.pos
    · rw [if_pos hpos]
      exact h.backspace hpos ((hkeep.1 hbs).resolve_left hpos.ne')
    · rw [if_neg hpos]
      exact h
  by_cases hesc : c = 27
  · rw [if_neg hbs, if_pos hesc]
    exact h.clearLine (hkeep.2 hesc)
  by_cases hprint : (chr ' ').toInt ≤ c.toInt ∧ s.shell.pos < shellBufferSize - 1
  · rw [if_neg hbs, if_neg hesc, if_pos hprint]
    exact h.print hprint.1 hprint.2
  · rw [if_neg hbs, if_neg hesc, if_neg hprint]
    exact h

/-- A line that is typed. -/
lemma type (h : s.Inv) (str : List (BitVec 8)) (hstr : ∀ c ∈ str, (chr ' ').toInt ≤ c.toInt)
    (hlen : s.shell.pos + str.length < shellBufferSize) :
    ∃ u, readlineMachine.Run s str u ∧ u.Inv ∧ u.shell.pos = s.shell.pos + str.length := by
  induction str generalizing s with
  | nil => exact ⟨s, .nil, h, rfl⟩
  | cons c str ih =>
      have hc := hstr c (.head _)
      have hctrl : c ≠ chr '\n' ∧ c ≠ chr '\x08' ∧ c ≠ 27 := by
        refine ⟨?_, ?_, ?_⟩ <;> rintro rfl <;> revert hc <;> decide
      rw [List.length_cons] at hlen
      have hroom : s.shell.pos < shellBufferSize - 1 := by omega
      have hst : readlineMachine.step s c = some
          { s with
            shell := ⟨Function.update (Function.update s.shell.buffer s.shell.pos c)
              (s.shell.pos + 1) 0, s.shell.pos + 1⟩
            screen := s.screen.putchar c } := by
        simp only [readlineMachine, readlineKey, if_neg hctrl.1, if_neg hctrl.2.1,
          if_neg hctrl.2.2, if_pos (And.intro hc hroom)]
      obtain ⟨u, hrun, hu, hpos⟩ := ih (h.print hc hroom) (fun d hd => hstr d (.tail _ hd))
        (by dsimp only; omega)
      refine ⟨u, .cons hctrl.1 hst hrun, hu, ?_⟩
      rw [hpos, List.length_cons]
      dsimp only
      omega

/-- A backspace at the left margin shortens the line and leaves the cursor where it is. -/
lemma not_echoed_backspace (h : s.Inv) (hpos : 0 < s.shell.pos)
    (hcol : (11 + s.shell.pos) % 80 = 0) (hst : readlineMachine.step s (chr '\x08') = some u) :
    ¬ u.Echoed := by
  have hmargin := Terminal.putchar_backspace_margin (h.col_eq.trans hcol)
  have hold := h.cursor
  obtain rfl := Option.some.inj hst
  have hne : chr '\x08' ≠ chr '\n' := by decide
  simp only [readlineKey, if_neg hne, if_true, if_pos hpos]
  intro he
  have hcursor := cursor_of_echoed (h.screen.putchar _) he
  dsimp only [VgaRun.putchar] at hcursor
  rw [hmargin] at hcursor
  omega

/-- Clearing leaves the cursor in its row. -/
lemma not_echoed_clearLine (h : s.Inv) (hrow : 80 ≤ 11 + s.shell.pos)
    (hst : readlineMachine.step s 27 = some u) : ¬ u.Echoed := by
  have hstay := clearLoop_row h.screen s.shell.pos
  have hold := h.cursor
  have hcol := h.screen.col_lt
  obtain rfl := Option.some.inj hst
  have hne : (27 : BitVec 8) ≠ chr '\n' ∧ (27 : BitVec 8) ≠ chr '\x08' := by decide
  simp only [readlineKey, if_neg hne.1, if_neg hne.2, if_true, shellClearLine]
  intro he
  have hcursor := cursor_of_echoed (clearLoop_inv h.screen _) he
  simp only [Terminal.cursor] at hcursor hold
  omega

/-- **One key** keeps the echo exactly if it keeps to the condition. -/
lemma key_iff (h : s.Inv) (hadm : c ≠ chr '\n') (hst : readlineMachine.step s c = some u) :
    u.Echoed ↔ s.KeepsEcho c := by
  refine ⟨fun he => ⟨?_, ?_⟩, fun hkeep => (h.key hkeep hadm hst).echoed⟩
  · rintro rfl
    by_contra hmargin
    obtain ⟨hpos, hcol⟩ := not_or.mp hmargin
    exact h.not_echoed_backspace (Nat.pos_of_ne_zero hpos) (not_not.mp hcol) hst he
  · rintro rfl
    by_contra hrow
    exact h.not_echoed_clearLine (not_lt.mp hrow) hst he

lemma step (h : s.Inv) (hadm : (readlineMachine.restrict KeepsEcho).admissible s c)
    (hst : (readlineMachine.restrict KeepsEcho).step s c = some u) : u.Inv :=
  h.key hadm.2 hadm.1 hst

end Inv

end ReadlineRun

/-- **The echo matches the edit buffer** as long as no key takes the line back over the left
margin, and the first key that does breaks it. -/
theorem echo_matches (v : Vga) (sh : Shell) {es : List VgaEvent} {s : VgaRun}
    (hrun : vgaMachine.Run (VgaRun.init v) es s) (hcol : s.vga.cursorX = 0) (hrow : RowBlank s)
    {keys : List (BitVec 8)} {t : ReadlineRun}
    (hkeys : (readlineMachine.restrict ReadlineRun.KeepsEcho).Run (ReadlineRun.init sh s) keys t) :
    t.Echoed ∧ ∀ c u, readlineMachine.admissible t c → readlineMachine.step t c = some u →
      (u.Echoed ↔ t.KeepsEcho c) := by
  have hscreen : s.Inv :=
    EventMachine.Run.invariant (VgaRun.Inv.init v) (fun _ _ _ ht _ hst => ht.step hst) hrun
  have hinv : t.Inv :=
    EventMachine.Run.invariant (ReadlineRun.Inv.init sh hscreen hcol hrow)
      (fun _ _ _ ht hadm hst => ht.step hadm hst) hkeys
  exact ⟨hinv.echoed, fun c u hadm hst => hinv.key_iff hadm hst⟩

/-- The editor before its first line. -/
def bootShell : Shell := ⟨fun _ => 0, 0⟩

/-- Its first prompt. -/
def firstPrompt : ReadlineRun := ReadlineRun.init bootShell (VgaRun.init bootVga)

/-- Two characters, one of them taken back, and the line cleared. -/
def editedKeys : List (BitVec 8) := [chr 'l', chr 's', chr '\x08', 27]

/-- The state after them. -/
def lineEdited : ReadlineRun :=
  ((readlineMachine.restrict ReadlineRun.KeepsEcho).exec firstPrompt editedKeys).getD firstPrompt

/-- The statement for them. -/
theorem echo_matches_edited :
    lineEdited.Echoed ∧ ∀ c u, readlineMachine.admissible lineEdited c →
      readlineMachine.step lineEdited c = some u → (u.Echoed ↔ lineEdited.KeepsEcho c) :=
  echo_matches bootVga bootShell .nil (vgaClear_spec _).2.2.1
    (rowBlank_of_no_return bootVga .nil (fun _ he => absurd he (List.not_mem_nil))
      (vgaClear_spec _).2.2.1)
    (EventMachine.Run.of_isSome
      (show ((readlineMachine.restrict ReadlineRun.KeepsEcho).exec firstPrompt
        editedKeys).isSome = true by rfl))

/-- **The echo is lost** by the backspace after a line that fills the row of the prompt: the line
has 68 characters then, and the cursor stays at the beginning of the second row. -/
theorem echo_lost :
    ∃ t, readlineMachine.Run firstPrompt (List.replicate 69 (chr 'a') ++ [chr '\x08']) t
      ∧ t.shell.pos = 68 ∧ ¬ t.Echoed := by
  have hprompt : firstPrompt.Inv :=
    ReadlineRun.Inv.init bootShell (VgaRun.Inv.init bootVga) (vgaClear_spec _).2.2.1
      (rowBlank_of_no_return bootVga .nil (fun _ he => absurd he List.not_mem_nil)
        (vgaClear_spec _).2.2.1)
  obtain ⟨s, hrun, hs, hpos⟩ := hprompt.type (List.replicate 69 (chr 'a'))
    (fun c hc => (List.eq_of_mem_replicate hc) ▸ by decide) (by decide)
  have hpos' : s.shell.pos = 69 := hpos
  obtain ⟨t, hst⟩ : ∃ t, readlineMachine.step s (chr '\x08') = some t := ⟨_, rfl⟩
  refine ⟨t, .snoc hrun (by decide : chr '\x08' ≠ chr '\n') hst, ?_,
    hs.not_echoed_backspace (by omega) (by omega) hst⟩
  obtain rfl := Option.some.inj hst
  have hne : chr '\x08' ≠ chr '\n' := by decide
  simp only [readlineKey, if_neg hne, if_true, hpos']
  rfl

end KiOS
