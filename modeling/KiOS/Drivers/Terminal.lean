import KiOS.Drivers.Vga

/-!
The screen shows the last 25 rows of an unbounded terminal.

* `Terminal`: the reference, 80 columns and as many rows as the output needs;
* `Displays`: the screen shows the terminal from a given row on;
* `Displays.switch`, `Displays.wrap`, `Displays.scroll`: the three parts of `vga_putchar` keep it,
  and scrolling shows the terminal from the next row on;
* `vga_shows_terminal`: in every state reached after `vga_clear` the screen shows the row of the
  cursor and the 24 rows above it.
-/

namespace KiOS

/-- A terminal of 80 columns and unboundedly many rows. -/
structure Terminal where
  cell : ℕ → ℕ → BitVec 8
  row : ℕ
  col : ℕ

namespace Terminal

/-- Nothing was output yet. -/
def blank : Terminal where
  cell := fun _ _ => chr ' '
  row := 0
  col := 0

/-- A character at the cursor. -/
def write (t : Terminal) (c : BitVec 8) : Terminal :=
  { t with cell := fun r x => if r = t.row ∧ x = t.col then c else t.cell r x }

/-- What a character does before the right margin is looked at. -/
def step (c : BitVec 8) (t : Terminal) : Terminal :=
  if c = chr '\n' then { t with row := t.row + 1, col := 0 }
  else if c = chr '\r' then { t with col := 0 }
  else if c = chr '\t' then { t with col := (t.col / 8 + 1) * 8 }
  else if c = chr '\x08' then
    if t.col = 0 then t else write { t with col := t.col - 1 } (chr ' ')
  else if (chr ' ').toInt ≤ c.toInt then { t.write c with col := t.col + 1 }
  else t

/-- Column 80 is column 0 of the next row. -/
def wrap (t : Terminal) : Terminal :=
  if 80 ≤ t.col then { t with row := t.row + 1, col := 0 } else t

/-- The output of a character. -/
def putchar (c : BitVec 8) (t : Terminal) : Terminal := (t.step c).wrap

/-- Below the row of the cursor nothing was output. -/
def BlankBelow (t : Terminal) : Prop := ∀ r x, t.row < r → t.cell r x = chr ' '

variable {t : Terminal} {c : BitVec 8}

/-- Nothing is output below the row of the cursor. -/
lemma step_cell {r : ℕ} (hr : t.row < r) (x : ℕ) : (t.step c).cell r x = t.cell r x := by
  have hne : ∀ x', ¬ (r = t.row ∧ x = x') := fun x' h => absurd h.1 (by omega)
  unfold Terminal.step
  split_ifs <;> simp only [write, hne, if_false]

lemma wrap_cell : t.wrap.cell = t.cell := by
  unfold Terminal.wrap
  split_ifs <;> rfl

lemma putchar_cell {r : ℕ} (hr : t.row < r) (x : ℕ) : (t.putchar c).cell r x = t.cell r x := by
  rw [putchar, wrap_cell, step_cell hr]

/-- A character ends in the same row or at the beginning of the next one. -/
lemma step_row (hcol : t.col < 80) :
    (t.step c).row = t.row ∧ (t.step c).col ≤ 80
      ∨ (t.step c).row = t.row + 1 ∧ (t.step c).col = 0 := by
  unfold Terminal.step
  split_ifs <;> simp only [write, and_true, true_and, zero_le, true_or, or_true] <;> omega

lemma putchar_row (hcol : t.col < 80) :
    (t.putchar c).col < 80 ∧ t.row ≤ (t.putchar c).row ∧ (t.putchar c).row ≤ t.row + 1 := by
  unfold Terminal.putchar Terminal.wrap
  rcases t.step_row (c := c) hcol with ⟨hr, hx⟩ | ⟨hr, hx⟩ <;> split_ifs <;>
    refine ⟨?_, ?_, ?_⟩ <;> first | omega | (dsimp only; omega)

lemma BlankBelow.putchar (h : t.BlankBelow) (hcol : t.col < 80) (c : BitVec 8) :
    (t.putchar c).BlankBelow := by
  intro r x hr
  have hrow := (t.putchar_row (c := c) hcol).2.1
  rw [putchar_cell (by omega)]
  exact h r x (by omega)

end Terminal

/-! ### The screen -/

/-- The screen shows the terminal from row `top` on. -/
structure Displays (v : Vga) (t : Terminal) (top : ℕ) : Prop where
  top_le : top ≤ t.row
  cursorX : v.cursorX = t.col
  cursorY : v.cursorY = t.row - top
  cells : ∀ y x : ℕ, y < 25 → x < 80 → v.buffer.char (y * 80 + x) = t.cell (top + y) x

variable {v : Vga} {t : Terminal} {top : ℕ} {c : BitVec 8} {j : ℤ}

/-- On the screen `vga_putchar_at` sets one cell. -/
lemma char_vgaPutcharAt {x y : ℤ} {color : BitVec 8} {b : VgaBuffer} (hx : 0 ≤ x ∧ x < 80)
    (hy : 0 ≤ y ∧ y < 25) :
    (vgaPutcharAt c x y color b).char j = if j = y * 80 + x then c else b.char j := by
  have hin : 0 ≤ x ∧ x < vgaWidth ∧ 0 ≤ y ∧ y < vgaHeight := ⟨hx.1, hx.2, hy⟩
  rw [vgaPutcharAt, if_pos hin, char_store, setWidth_vgaMakeEntry]
  rfl

/-- `vga_putchar_at` writes on the screen only. -/
lemma written_vgaPutcharAt {x y : ℤ} {color : BitVec 8} {b : VgaBuffer}
    (h : (vgaPutcharAt c x y color b).written j = true) :
    (0 ≤ j ∧ j < 2000) ∨ b.written j = true := by
  unfold vgaPutcharAt vgaWidth vgaHeight at h
  split_ifs at h with hin
  · rcases written_store.mp h with hj | hj
    · exact Or.inl (by push_cast at *; omega)
    · exact Or.inr hj
  · exact Or.inr h

lemma written_vgaSwitch (h : (vgaSwitch c v).buffer.written j = true) :
    (0 ≤ j ∧ j < 2000) ∨ v.buffer.written j = true := by
  unfold vgaSwitch at h
  split_ifs at h
  all_goals first | exact Or.inr h | exact written_vgaPutcharAt h

lemma written_vgaScrollIfNeeded (h : (vgaScrollIfNeeded v).buffer.written j = true) :
    (0 ≤ j ∧ j < 2000) ∨ v.buffer.written j = true := by
  unfold vgaScrollIfNeeded at h
  split_ifs at h
  · exact ((vgaScroll_spec v).2.1 j).mp h
  · exact Or.inr h

lemma vgaWrap_buffer : (vgaWrap v).buffer = v.buffer := by
  unfold vgaWrap
  split_ifs <;> rfl

/-- **`vga_putchar` writes on the screen only.** -/
lemma written_vgaPutchar (h : (vgaPutchar c v).buffer.written j = true) :
    (0 ≤ j ∧ j < 2000) ∨ v.buffer.written j = true := by
  rcases written_vgaScrollIfNeeded (v := vgaWrap (vgaSwitch c (vgaScrollIfNeeded v))) h with h | h
  · exact Or.inl h
  rw [vgaWrap_buffer] at h
  rcases written_vgaSwitch h with h | h
  · exact Or.inl h
  · exact written_vgaScrollIfNeeded h

namespace Displays

/-- A character written at the cursor. -/
lemma write (h : Displays v t top) (hcol : t.col < 80) (hrow : t.row < top + 25)
    (color : BitVec 8) :
    Displays { v with buffer := vgaPutcharAt c v.cursorX v.cursorY color v.buffer } (t.write c)
      top where
  top_le := h.top_le
  cursorX := h.cursorX
  cursorY := h.cursorY
  cells y x hy hx := by
    have htop := h.top_le
    have hcx := h.cursorX
    have hcy := h.cursorY
    have hiff : (y : ℤ) * 80 + x = v.cursorY * 80 + v.cursorX
        ↔ top + y = t.row ∧ x = t.col := by omega
    dsimp only
    rw [char_vgaPutcharAt (by omega) (by omega), h.cells y x hy hx]
    simp only [hiff, Terminal.write]

/-- The `switch` of `vga_putchar`. -/
lemma switch (h : Displays v t top) (hcol : t.col < 80) (hrow : t.row < top + 25) :
    Displays (vgaSwitch c v) (t.step c) top := by
  have htop := h.top_le
  have hcx := h.cursorX
  have hcy := h.cursorY
  unfold vgaSwitch Terminal.step
  by_cases hnl : c = chr '\n'
  · simp only [if_pos hnl]
    exact ⟨by dsimp only; omega, rfl, by dsimp only; push_cast; omega, h.cells⟩
  by_cases hcr : c = chr '\r'
  · simp only [if_neg hnl, if_pos hcr]
    exact ⟨htop, rfl, hcy, h.cells⟩
  by_cases htab : c = chr '\t'
  · simp only [if_neg hnl, if_neg hcr, if_pos htab]
    have htabs : (v.cursorX + 8) / 8 * 8 = (((t.col / 8 + 1) * 8 : ℕ) : ℤ) := by
      push_cast
      omega
    exact ⟨htop, htabs, hcy, h.cells⟩
  by_cases hbs : c = chr '\x08'
  · simp only [if_neg hnl, if_neg hcr, if_neg htab, if_pos hbs]
    by_cases h0 : t.col = 0
    · have hneg : ¬ 0 < v.cursorX := by omega
      simp only [if_pos h0, if_neg hneg]
      exact h
    · have hpos : 0 < v.cursorX := by omega
      have hleft : Displays { v with cursorX := v.cursorX - 1 } { t with col := t.col - 1 } top :=
        ⟨htop, by dsimp only; omega, hcy, h.cells⟩
      simp only [if_neg h0, if_pos hpos]
      exact hleft.write (by dsimp only; omega) hrow v.color
  by_cases hprint : (chr ' ').toInt ≤ c.toInt
  · simp only [if_neg hnl, if_neg hcr, if_neg htab, if_neg hbs, if_pos hprint]
    have hwrite := h.write (c := c) hcol hrow v.color
    exact ⟨htop, by dsimp only; omega, hcy, hwrite.cells⟩
  · simp only [if_neg hnl, if_neg hcr, if_neg htab, if_neg hbs, if_neg hprint]
    exact h

/-- The line break at the right margin. -/
lemma wrap (h : Displays v t top) : Displays (vgaWrap v) t.wrap top := by
  have htop := h.top_le
  have hcx := h.cursorX
  have hcy := h.cursorY
  unfold vgaWrap Terminal.wrap
  by_cases hcol : 80 ≤ t.col
  · have hx : (vgaWidth : ℤ) ≤ v.cursorX := by
      simp only [vgaWidth]
      omega
    rw [if_pos hx, if_pos hcol]
    exact ⟨by dsimp only; omega, rfl, by dsimp only; push_cast; omega, h.cells⟩
  · have hx : ¬ (vgaWidth : ℤ) ≤ v.cursorX := by
      simp only [vgaWidth]
      omega
    rw [if_neg hx, if_neg hcol]
    exact h

/-- Scrolling shows the terminal from the next row on. -/
lemma scroll (h : Displays v t top) (hrow : t.row = top + 25)
    (hblank : ∀ x, t.cell t.row x = chr ' ') :
    Displays (vgaScroll v) t (top + 1) := by
  obtain ⟨hchar, -, hx, hy⟩ := vgaScroll_spec v
  refine ⟨by omega, hx.trans h.cursorX, by rw [hy]; omega, fun y x hy25 hx80 => ?_⟩
  rw [hchar]
  by_cases hlast : y < 24
  · have hin : 0 ≤ (y : ℤ) * 80 + x ∧ (y : ℤ) * 80 + x < 1920 := by omega
    have hup := h.cells (y + 1) x (by omega) hx80
    rw [if_pos hin, show (y : ℤ) * 80 + x + 80 = (y + 1 : ℕ) * 80 + x by push_cast; ring, hup]
    congr 1
    omega
  · have hout : ¬ (0 ≤ (y : ℤ) * 80 + x ∧ (y : ℤ) * 80 + x < 1920) := by omega
    have hbottom : 1920 ≤ (y : ℤ) * 80 + x ∧ (y : ℤ) * 80 + x < 2000 := by omega
    rw [if_neg hout, if_pos hbottom, show top + 1 + y = t.row by omega, hblank]

/-- **The output of a character**, for a cursor on the screen. -/
lemma putchar (h : Displays v t (t.row - 24)) (hcol : t.col < 80) (hblank : t.BlankBelow) :
    Displays (vgaPutchar c v) (t.putchar c) ((t.putchar c).row - 24) := by
  have hcy := h.cursorY
  have hon : ¬ (vgaHeight : ℤ) ≤ v.cursorY := by
    simp only [vgaHeight]
    omega
  have hfirst : vgaScrollIfNeeded v = v := if_neg hon
  have hwrap : Displays (vgaWrap (vgaSwitch c v)) (t.putchar c) (t.row - 24) :=
    (h.switch hcol (by omega)).wrap
  obtain ⟨-, hge, hle⟩ := t.putchar_row (c := c) hcol
  have hcy' := hwrap.cursorY
  have hlast : Displays (vgaScrollIfNeeded (vgaWrap (vgaSwitch c v))) (t.putchar c)
      ((t.putchar c).row - 24) := by
    unfold vgaScrollIfNeeded
    by_cases hfull : (t.putchar c).row = t.row - 24 + 25
    · -- the new row is the one below the screen, and blank
      have hbelow : ∀ x, (t.putchar c).cell (t.putchar c).row x = chr ' ' := by
        intro x
        rw [Terminal.putchar_cell (by omega)]
        exact hblank _ _ (by omega)
      rw [if_pos (by simp only [vgaHeight]; omega),
        show (t.putchar c).row - 24 = t.row - 24 + 1 by omega]
      exact hwrap.scroll hfull hbelow
    · rw [if_neg (by simp only [vgaHeight]; omega),
        show (t.putchar c).row - 24 = t.row - 24 by omega]
      exact hwrap
  unfold vgaPutchar
  rw [hfirst]
  exact ⟨hlast.top_le, hlast.cursorX, hlast.cursorY, hlast.cells⟩

end Displays

/-! ### Runs -/

/-- The screen beside the terminal that got the same output. -/
structure VgaRun where
  vga : Vga
  terminal : Terminal

inductive VgaEvent where
  | putchar (c : BitVec 8)
  | setColor (fg bg : BitVec 32)

/-- The log of the words written is empty. -/
def Vga.unlogged (v : Vga) : Vga := { v with buffer := ⟨v.buffer.cell, fun _ => false⟩ }

/-- After `vga_clear`. -/
def VgaRun.init (v : Vga) : VgaRun where
  vga := vgaClear v.unlogged
  terminal := .blank

/-- Any output after `vga_clear`. -/
def vgaMachine : EventMachine VgaRun VgaEvent where
  admissible _ _ := True
  step s
    | .putchar c => some ⟨vgaPutchar c s.vga, s.terminal.putchar c⟩
    | .setColor fg bg => some { s with vga := vgaSetColor fg bg s.vga }

instance (s : VgaRun) (e : VgaEvent) : Decidable (vgaMachine.admissible s e) :=
  inferInstanceAs (Decidable True)

/-- What the driver owes. -/
structure VgaRun.Shows (s : VgaRun) : Prop where
  cursorX : 0 ≤ s.vga.cursorX ∧ s.vga.cursorX < 80
  cursorY : 0 ≤ s.vga.cursorY ∧ s.vga.cursorY < 25
  /-- The hardware shows the cursor there. -/
  hwCursor : s.vga.hwCursor = BitVec.ofInt 16 (s.vga.cursorY * 80 + s.vga.cursorX)
  /-- Only cells of the screen have been written. -/
  inside : ∀ j, s.vga.buffer.written j = true → 0 ≤ j ∧ j < 2000
  /-- The cursor is where that of the terminal is. -/
  cursor : s.vga.cursorX = s.terminal.col
    ∧ s.vga.cursorY = s.terminal.row - (s.terminal.row - 24 : ℕ)
  /-- The screen shows the row of the cursor and the 24 rows above it. -/
  rows : ∀ y x : ℕ, y < 25 → x < 80 →
    s.vga.buffer.char (y * 80 + x) = s.terminal.cell (s.terminal.row - 24 + y) x

/-- The invariant of a run. -/
structure VgaRun.Inv (s : VgaRun) : Prop where
  displays : Displays s.vga s.terminal (s.terminal.row - 24)
  col_lt : s.terminal.col < 80
  blankBelow : s.terminal.BlankBelow
  inside : ∀ j, s.vga.buffer.written j = true → 0 ≤ j ∧ j < 2000
  hwCursor : s.vga.hwCursor = BitVec.ofInt 16 (s.vga.cursorY * 80 + s.vga.cursorX)

namespace VgaRun.Inv

variable {s u : VgaRun} {e : VgaEvent}

lemma init (v : Vga) : (VgaRun.init v).Inv := by
  obtain ⟨hchar, hwritten, hx, hy⟩ :=
    vgaClear_spec v.unlogged
  refine ⟨⟨Nat.zero_le _, by simp [VgaRun.init, hx, Terminal.blank],
    by simp [VgaRun.init, hy, Terminal.blank], fun y x hy25 hx80 => ?_⟩, Nat.zero_lt_succ 79,
    fun _ _ _ => rfl, fun j hj => ?_, vgaUpdateCursor_hwCursor _⟩
  · rw [VgaRun.init, hchar, if_pos (by omega)]
    rfl
  · dsimp only [VgaRun.init] at hj
    rw [hwritten] at hj
    simpa [Vga.unlogged] using hj

lemma step (h : s.Inv) (hst : vgaMachine.step s e = some u) : u.Inv := by
  cases e with
  | putchar c =>
      obtain rfl := Option.some.inj hst
      refine ⟨h.displays.putchar h.col_lt h.blankBelow, (Terminal.putchar_row h.col_lt).1,
        h.blankBelow.putchar h.col_lt c, fun j hj => ?_, vgaUpdateCursor_hwCursor _⟩
      rcases written_vgaPutchar hj with hj | hj
      · exact hj
      · exact h.inside j hj
  | setColor fg bg =>
      obtain rfl := Option.some.inj hst
      have hd := h.displays
      exact ⟨⟨hd.top_le, hd.cursorX, hd.cursorY, hd.cells⟩, h.col_lt, h.blankBelow, h.inside,
        h.hwCursor⟩

lemma shows (h : s.Inv) : s.Shows := by
  have hx := h.displays.cursorX
  have hy := h.displays.cursorY
  have hcol := h.col_lt
  exact ⟨by omega, by omega, h.hwCursor, h.inside, ⟨hx, hy⟩, h.displays.cells⟩

end VgaRun.Inv

/-- **The screen shows the last 25 rows of an unbounded terminal**, whatever is output. -/
theorem vga_shows_terminal (v : Vga) {es : List VgaEvent} {s : VgaRun}
    (hrun : vgaMachine.Run (VgaRun.init v) es s) : s.Shows := by
  have hinv : s.Inv :=
    EventMachine.Run.invariant (VgaRun.Inv.init v) (fun _ _ _ ht _ hst => ht.step hst) hrun
  exact hinv.shows

/-- The screen at boot. -/
def bootVga : Vga := ⟨⟨fun _ => 0x0720, fun _ => false⟩, 0, 0, 0x0F, 0⟩

/-- A line that is output in color. -/
def coloredLine : List VgaEvent :=
  [.setColor 10 0, .putchar (chr 'K'), .setColor 15 0, .putchar (chr '\n')]

/-- The state after it. -/
def lineShown : VgaRun :=
  (vgaMachine.exec (VgaRun.init bootVga) coloredLine).getD (VgaRun.init bootVga)

/-- The statement for that line. -/
theorem vga_shows_line : lineShown.Shows :=
  vga_shows_terminal bootVga (EventMachine.Run.of_isSome
    (show (vgaMachine.exec (VgaRun.init bootVga) coloredLine).isSome = true by rfl))

end KiOS
