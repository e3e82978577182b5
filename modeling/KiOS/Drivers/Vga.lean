import KiOS.Library.EventMachine

/-!
The VGA text driver (`vga.h`, `vga.c`).

* `VgaBuffer`: the words at `vga_buffer`, also those outside the screen, and which of them have
  been written;
* `Vga`: the buffer, the cursor with its copy in the hardware, and the color;
* `vgaPutchar`, `vgaScroll`, `vgaClear`, `vgaSetColor`, `vgaPrint`, `vgaPrintColored`: the functions
  of the source;
* `vgaScroll_spec`, `vgaClear_spec`: what their loops leave behind.
-/

namespace KiOS

/-- `VGA_WIDTH`. -/
def vgaWidth : ℕ := 80

/-- `VGA_HEIGHT`. -/
def vgaHeight : ℕ := 25

/-- The code of a character. -/
def chr (c : Char) : BitVec 8 := BitVec.ofNat 8 c.toNat

/-- The words at `vga_buffer`. -/
structure VgaBuffer where
  cell : ℤ → BitVec 16
  written : ℤ → Bool

/-- `vga_buffer[i] = x`. -/
def VgaBuffer.store (b : VgaBuffer) (i : ℤ) (x : BitVec 16) : VgaBuffer where
  cell := Function.update b.cell i x
  written := Function.update b.written i true

/-- The variables of `vga.c` and the position of the hardware cursor. -/
structure Vga where
  buffer : VgaBuffer
  cursorX : ℤ
  cursorY : ℤ
  color : BitVec 8
  hwCursor : BitVec 16

/-- `vga_make_color`. -/
def vgaMakeColor (fg bg : BitVec 32) : BitVec 8 := (fg ||| (bg <<< 4)).setWidth 8

/-- `vga_make_entry`. A `char` is signed. -/
def vgaMakeEntry (c color : BitVec 8) : BitVec 16 :=
  c.signExtend 16 ||| (color.setWidth 16 <<< 8)

/-- `vga_set_color`. -/
def vgaSetColor (fg bg : BitVec 32) (v : Vga) : Vga := { v with color := vgaMakeColor fg bg }

/-- `vga_update_cursor`: the low and the high byte of the position. -/
def vgaUpdateCursor (v : Vga) : Vga :=
  let pos := BitVec.ofInt 16 (v.cursorY * vgaWidth + v.cursorX)
  { v with hwCursor := (pos &&& 0xFF) ||| (((pos >>> 8) &&& 0xFF) <<< 8) }

/-- `for (i = 0; i < n; i++) vga_buffer[i] = vga_buffer[i + VGA_WIDTH]`. -/
def copyLoop (n : ℕ) (b : VgaBuffer) : VgaBuffer :=
  (List.range n).foldl (fun b (i : ℕ) => b.store i (b.cell (i + vgaWidth))) b

/-- `for (i = start; i < start + n; i++) vga_buffer[i] = x`. -/
def fillLoop (start n : ℕ) (x : BitVec 16) (b : VgaBuffer) : VgaBuffer :=
  (List.range' start n).foldl (fun b (i : ℕ) => b.store i x) b

/-- `vga_scroll`. -/
def vgaScroll (v : Vga) : Vga :=
  let buffer := copyLoop ((vgaHeight - 1) * vgaWidth) v.buffer
  let blank := vgaMakeEntry (chr ' ') v.color
  let buffer := fillLoop ((vgaHeight - 1) * vgaWidth) vgaWidth blank buffer
  { v with buffer := buffer, cursorY := (vgaHeight - 1 : ℕ) }

/-- `vga_clear`. -/
def vgaClear (v : Vga) : Vga :=
  let buffer := fillLoop 0 (vgaWidth * vgaHeight) (vgaMakeEntry (chr ' ') 0) v.buffer
  vgaUpdateCursor { v with buffer := buffer, cursorX := 0, cursorY := 0 }

/-- `vga_putchar_at`. -/
def vgaPutcharAt (c : BitVec 8) (x y : ℤ) (color : BitVec 8) (b : VgaBuffer) : VgaBuffer :=
  if 0 ≤ x ∧ x < vgaWidth ∧ 0 ≤ y ∧ y < vgaHeight then
    b.store (y * vgaWidth + x) (vgaMakeEntry c color)
  else b

/-- The `switch` of `vga_putchar`. -/
def vgaSwitch (c : BitVec 8) (v : Vga) : Vga :=
  if c = chr '\n' then { v with cursorX := 0, cursorY := v.cursorY + 1 }
  else if c = chr '\r' then { v with cursorX := 0 }
  -- `& ~7` rounds down to a multiple of 8
  else if c = chr '\t' then { v with cursorX := (v.cursorX + 8) / 8 * 8 }
  else if c = chr '\x08' then
    if 0 < v.cursorX then
      { v with
        cursorX := v.cursorX - 1
        buffer := vgaPutcharAt (chr ' ') (v.cursorX - 1) v.cursorY v.color v.buffer }
    else v
  else if (chr ' ').toInt ≤ c.toInt then
    { v with
      buffer := vgaPutcharAt c v.cursorX v.cursorY v.color v.buffer
      cursorX := v.cursorX + 1 }
  else v

/-- The scrolling before and after the cursor moves. -/
def vgaScrollIfNeeded (v : Vga) : Vga := if vgaHeight ≤ v.cursorY then vgaScroll v else v

/-- The line break at the right margin. -/
def vgaWrap (v : Vga) : Vga :=
  if vgaWidth ≤ v.cursorX then { v with cursorX := 0, cursorY := v.cursorY + 1 } else v

/-- `vga_putchar`. -/
def vgaPutchar (c : BitVec 8) (v : Vga) : Vga :=
  let v := vgaScrollIfNeeded v
  let v := vgaSwitch c v
  let v := vgaWrap v
  let v := vgaScrollIfNeeded v
  vgaUpdateCursor v

/-- `vga_print`. -/
def vgaPrint (str : List Char) (v : Vga) : Vga := str.foldl (fun v c => vgaPutchar (chr c) v) v

/-- `vga_print_colored`. -/
def vgaPrintColored (str : List Char) (fg bg : BitVec 32) (v : Vga) : Vga :=
  let oldColor := v.color
  let v := vgaPrint str { v with color := vgaMakeColor fg bg }
  { v with color := oldColor }

/-- The character in a word of the buffer. -/
def VgaBuffer.char (b : VgaBuffer) (i : ℤ) : BitVec 8 := (b.cell i).setWidth 8

variable {b : VgaBuffer} {v : Vga} {c color : BitVec 8} {i j : ℤ} {x : BitVec 16}

lemma setWidth_vgaMakeEntry : (vgaMakeEntry c color).setWidth 8 = c := by
  refine BitVec.eq_of_getLsbD_eq fun k hk => ?_
  simp [vgaMakeEntry, BitVec.getLsbD_signExtend, hk]
  omega

lemma cell_store : (b.store i x).cell j = if j = i then x else b.cell j := by
  by_cases h : j = i <;> simp [VgaBuffer.store, h]

@[simp] lemma char_store : (b.store i x).char j = if j = i then x.setWidth 8 else b.char j := by
  rw [VgaBuffer.char, cell_store, apply_ite (BitVec.setWidth 8)]
  rfl

@[simp] lemma written_store :
    (b.store i x).written j = true ↔ j = i ∨ b.written j = true := by
  by_cases h : j = i <;> simp [VgaBuffer.store, h]

/-- The two bytes make up the position. -/
lemma vgaUpdateCursor_hwCursor (v : Vga) :
    (vgaUpdateCursor v).hwCursor = BitVec.ofInt 16 (v.cursorY * vgaWidth + v.cursorX) := by
  refine BitVec.eq_of_getLsbD_eq fun k hk => ?_
  simp only [vgaUpdateCursor, BitVec.getLsbD_or, BitVec.getLsbD_and, BitVec.getLsbD_shiftLeft,
    BitVec.getLsbD_ushiftRight]
  interval_cases k <;> simp

lemma fillLoop_spec (b : VgaBuffer) (start n : ℕ) (x : BitVec 16) (j : ℤ) :
    (fillLoop start n x b).char j
        = (if start ≤ j ∧ j < start + n then x.setWidth 8 else b.char j)
      ∧ ((fillLoop start n x b).written j = true
        ↔ (start ≤ j ∧ j < start + n) ∨ b.written j = true) := by
  induction n generalizing start b with
  | zero =>
      have hno : ¬ ((start : ℤ) ≤ j ∧ j < start + (0 : ℕ)) := by omega
      simp only [fillLoop, List.range'_zero, List.foldl_nil, hno, if_false, false_or, and_self]
  | succ n ih =>
      obtain ⟨hchar, hwritten⟩ := ih (b.store start x) (start + 1)
      have hloop : fillLoop start (n + 1) x b = fillLoop (start + 1) n x (b.store start x) := by
        rw [fillLoop, List.range'_succ, List.foldl_cons]
        rfl
      rw [hloop, hchar, hwritten, char_store, written_store]
      by_cases hj : j = start
      · subst hj
        simp
      · have hiff : ((start + 1 : ℕ) : ℤ) ≤ j ∧ j < ((start + 1 : ℕ) : ℤ) + n
            ↔ (start : ℤ) ≤ j ∧ j < start + (n + 1 : ℕ) := by omega
        simp only [hiff, hj, if_false, false_or, and_self]

/-- The copy moves upwards through the buffer it reads: what it reads it has not written yet. -/
lemma copyLoop_spec (b : VgaBuffer) (n : ℕ) (j : ℤ) :
    (copyLoop n b).cell j = (if 0 ≤ j ∧ j < n then b.cell (j + vgaWidth) else b.cell j)
      ∧ ((copyLoop n b).written j = true ↔ (0 ≤ j ∧ j < n) ∨ b.written j = true) := by
  induction n generalizing j with
  | zero =>
      have hno : ¬ (0 ≤ j ∧ j < (0 : ℕ)) := by omega
      simp only [copyLoop, List.range_zero, List.foldl_nil, hno, if_false, false_or, and_self]
  | succ n ih =>
      have hfar : ¬ (0 ≤ (n : ℤ) + vgaWidth ∧ (n : ℤ) + vgaWidth < n) := by
        simp only [vgaWidth]
        omega
      have hloop : copyLoop (n + 1) b
          = (copyLoop n b).store n ((copyLoop n b).cell (n + vgaWidth)) := by
        rw [copyLoop, List.range_succ, List.foldl_append]
        rfl
      rw [hloop, written_store, (ih j).2, (ih _).1, if_neg hfar, cell_store, (ih j).1]
      by_cases hj : j = n
      · subst hj
        simp
      · have hiff : 0 ≤ j ∧ j < (n + 1 : ℕ) ↔ 0 ≤ j ∧ j < n := by omega
        simp only [hiff, hj, if_false, false_or, and_self]

/-- **Scrolling** moves every row up by one and blanks the last one. -/
lemma vgaScroll_spec (v : Vga) :
    (∀ j, (vgaScroll v).buffer.char j
        = if 0 ≤ j ∧ j < 1920 then v.buffer.char (j + 80)
          else if 1920 ≤ j ∧ j < 2000 then chr ' ' else v.buffer.char j)
      ∧ (∀ j, (vgaScroll v).buffer.written j = true
        ↔ (0 ≤ j ∧ j < 2000) ∨ v.buffer.written j = true)
      ∧ (vgaScroll v).cursorX = v.cursorX ∧ (vgaScroll v).cursorY = 24 := by
  refine ⟨fun j => ?_, fun j => ?_, rfl, rfl⟩
  · have hcopy := (copyLoop_spec v.buffer 1920 j).1
    have hfill := (fillLoop_spec (copyLoop 1920 v.buffer) 1920 80
      (vgaMakeEntry (chr ' ') v.color) j).1
    rw [setWidth_vgaMakeEntry] at hfill
    change (fillLoop 1920 80 (vgaMakeEntry (chr ' ') v.color) (copyLoop 1920 v.buffer)).char j = _
    rw [hfill, VgaBuffer.char, hcopy]
    simp only [VgaBuffer.char, vgaWidth]
    split_ifs <;> first | rfl | omega
  · have hcopy := (copyLoop_spec v.buffer 1920 j).2
    have hfill := (fillLoop_spec (copyLoop 1920 v.buffer) 1920 80
      (vgaMakeEntry (chr ' ') v.color) j).2
    change (fillLoop 1920 80 (vgaMakeEntry (chr ' ') v.color)
      (copyLoop 1920 v.buffer)).written j = true ↔ _
    rw [hfill, hcopy, ← or_assoc]
    exact or_congr_left (by omega)

/-- **Clearing** blanks the screen. -/
lemma vgaClear_spec (v : Vga) :
    (∀ j, (vgaClear v).buffer.char j = if 0 ≤ j ∧ j < 2000 then chr ' ' else v.buffer.char j)
      ∧ (∀ j, (vgaClear v).buffer.written j = true
        ↔ (0 ≤ j ∧ j < 2000) ∨ v.buffer.written j = true)
      ∧ (vgaClear v).cursorX = 0 ∧ (vgaClear v).cursorY = 0 := by
  have hfill := fillLoop_spec v.buffer 0 (vgaWidth * vgaHeight) (vgaMakeEntry (chr ' ') 0)
  have hsize : ((vgaWidth * vgaHeight : ℕ) : ℤ) = 2000 := rfl
  have hbuffer : (vgaClear v).buffer
      = fillLoop 0 (vgaWidth * vgaHeight) (vgaMakeEntry (chr ' ') 0) v.buffer := by
    simp only [vgaClear, vgaUpdateCursor]
  refine ⟨fun j => ?_, fun j => ?_, by simp only [vgaClear, vgaUpdateCursor],
    by simp only [vgaClear, vgaUpdateCursor]⟩
  · rw [hbuffer, (hfill j).1, setWidth_vgaMakeEntry, hsize]
    simp
  · rw [hbuffer, (hfill j).2, hsize]
    simp

end KiOS
