import KiOS.Shell.Readline
import KiOS.Commands.Time

/-!
Reports on the screen: functions that print some lines, with numbers in them.

* `inTurn`: the calls of a function one after the other;
* `Prints`: such a function prints a text, whatever colors it sets on the way, with
  `Prints.inTurn` and a rule for each function of `vga.h`;
* `Vga.ShowsLines`: some rows of the screen, one below the other, show these lines;
* `showsLines_of_prints`: a report of at most 24 lines, each shorter than a row, can be read on the
  screen whatever was there before;
* `hexText_injective`, `decText_injective`: the numbers can be read back;
* `hexText_line`, `decText_line`: and take no more places than they have digits.
-/

namespace KiOS

/-! ### Printing -/

/-- The calls one after the other. -/
def inTurn (calls : List (VgaRun → Option VgaRun)) (s : VgaRun) : Option VgaRun :=
  calls.foldlM (fun s call => call s) s

/-- `vga_set_color`. -/
def VgaRun.setColor (fg bg : BitVec 32) (s : VgaRun) : Option VgaRun :=
  some { s with vga := vgaSetColor fg bg s.vga }

/-- `vga_print` of a literal. -/
def VgaRun.print (str : String) : VgaRun → Option VgaRun :=
  vgaPrintBytes VgaRun.putchar (literal str)

/-- `vga_println` of a literal. -/
def VgaRun.println (str : String) : VgaRun → Option VgaRun :=
  vgaPrintlnBytes VgaRun.putchar (literal str)

/-- `vga_print_dec`, for what is in its local buffer. -/
def VgaRun.printDec (buffer : Chars) (value : BitVec 64) : VgaRun → Option VgaRun :=
  vgaPrintDec VgaRun.putchar value buffer

/-- `vga_print_hex`, for what is in its local buffer. -/
def VgaRun.printHex (buffer : Chars) (value : BitVec 64) : VgaRun → Option VgaRun :=
  vgaPrintHex VgaRun.putchar value buffer

/-- The output of a text on the terminal. -/
def Terminal.putText (text : Chars) (t : Terminal) : Terminal :=
  text.foldl (fun t c => t.putchar c) t

/-- A function prints a text. -/
def Prints (f : VgaRun → Option VgaRun) (text : Chars) : Prop :=
  ∀ s, s.Inv → ∃ u, f s = some u ∧ u.Inv ∧ u.terminal = s.terminal.putText text

section

variable {f g : VgaRun → Option VgaRun} {text text' : Chars} {s : VgaRun} {buffer : Chars}
  {value : BitVec 64}

lemma Terminal.putText_append (t : Terminal) :
    t.putText (text ++ text') = (t.putText text).putText text' := List.foldl_append

/-- What is put out on the screen is put out on the terminal. -/
lemma VgaRun.Inv.putText (h : s.Inv) (text : Chars) :
    (text.foldl (fun s c => s.putchar c) s).Inv
      ∧ (text.foldl (fun s c => s.putchar c) s).terminal = s.terminal.putText text := by
  induction text generalizing s with
  | nil => exact ⟨h, rfl⟩
  | cons c text ih => exact ih (h.putchar c)

namespace Prints

lemma of_foldl (h : ∀ s, f s = some (text.foldl (fun s c => s.putchar c) s)) : Prints f text :=
  fun s hs => ⟨_, h s, hs.putText text⟩

lemma setColor (fg bg : BitVec 32) : Prints (VgaRun.setColor fg bg) [] :=
  fun _ hs => ⟨_, rfl, hs.color (vgaMakeColor fg bg), rfl⟩

/-- A literal that holds no NUL. -/
lemma print (str : String) (h0 : 0 ∉ spelling str) : Prints (VgaRun.print str) (spelling str) :=
  of_foldl fun _ => vgaPrintBytes_spec ⟨h0, [], rfl⟩

lemma println (str : String) (h0 : 0 ∉ spelling str) :
    Prints (VgaRun.println str) (spelling str ++ [chr '\n']) :=
  of_foldl fun _ => vgaPrintlnBytes_spec ⟨h0, [], rfl⟩

lemma printDec (hmin : value ≠ BitVec.intMin 64) (hbuf : buffer.length = 21) :
    Prints (VgaRun.printDec buffer value) (decText value.toInt) :=
  of_foldl fun _ => vgaPrintDec_spec hmin hbuf

lemma printColored (str : String) (fg bg : BitVec 32) :
    Prints (fun s => some (s.printColored str.toList fg bg)) (spelling str) := by
  intro s hs
  obtain ⟨hinv, hterm⟩ := (hs.color (vgaMakeColor fg bg)).putText (spelling str)
  rw [spelling, List.foldl_map] at hinv hterm
  exact ⟨_, rfl, hinv.color _, hterm⟩

/-- An unsigned number that is no negative one when read as signed. -/
lemma printNat {n : ℕ} (hvalue : value.toNat = n) (hn : n < 2 ^ 63) (hbuf : buffer.length = 21) :
    Prints (VgaRun.printDec buffer value) (decText n) := by
  have hint : value.toInt = n := by
    rw [BitVec.toInt_eq_toNat_of_lt (by omega), hvalue]
  have hmin : value ≠ BitVec.intMin 64 := by
    rintro rfl
    exact absurd hn (by rw [← hvalue]; decide)
  rw [← hint]
  exact printDec hmin hbuf

lemma printHex (value : BitVec 64) (hbuf : buffer.length = 19) :
    Prints (VgaRun.printHex buffer value) (hexText value.toNat) :=
  of_foldl fun _ => vgaPrintHex_spec hbuf

/-- **The calls one after the other** print their texts one after the other. -/
lemma inTurn {calls : List (VgaRun → Option VgaRun)} {texts : List Chars}
    (h : List.Forall₂ Prints calls texts) : Prints (inTurn calls) texts.flatten := by
  induction h with
  | nil => exact fun s hs => ⟨s, rfl, hs, rfl⟩
  | cons hcall _ ih =>
      intro s hs
      obtain ⟨u, hu, hinv, hterm⟩ := hcall s hs
      obtain ⟨w, hw, hinv', hterm'⟩ := ih u hinv
      refine ⟨w, ?_, hinv', ?_⟩
      · rw [KiOS.inTurn, List.foldlM_cons, hu]
        exact hw
      · rw [hterm', hterm, List.flatten_cons, Terminal.putText_append]

end Prints

end

/-! ### Lines -/

/-- Characters that take one place each. -/
def Printable (line : Chars) : Prop := ∀ c ∈ line, (chr ' ').toInt ≤ c.toInt

instance (line : Chars) : Decidable (Printable line) :=
  decidable_of_iff ((line.all fun c => (chr ' ').toInt ≤ c.toInt) = true) (by simp [Printable])

/-- A line of at most `n` such characters. -/
def Fits (n : ℕ) (line : Chars) : Prop := Printable line ∧ line.length ≤ n

instance (n : ℕ) (line : Chars) : Decidable (Fits n line) := inferInstanceAs (Decidable (_ ∧ _))

lemma Fits.append {x y : Chars} {n k : ℕ} (hx : Fits n x) (hy : Fits k y) :
    Fits (n + k) (x ++ y) := by
  refine ⟨fun c hc => (List.mem_append.mp hc).elim (hx.1 c) (hy.1 c), ?_⟩
  rw [List.length_append]
  exact Nat.add_le_add hx.2 hy.2

lemma Fits.mono {x : Chars} {n k : ℕ} (hx : Fits n x) (h : n ≤ k) : Fits k x := ⟨hx.1, hx.2.trans h⟩

/-- Each line with a line break behind it. -/
def lineText (lines : List Chars) : Chars := lines.flatMap (· ++ [chr '\n'])

/-- The lines in consecutive rows of the screen, with spaces behind them. -/
def Vga.ShowsLines (v : Vga) (lines : List Chars) : Prop :=
  ∃ top, top + lines.length ≤ 25 ∧ ∀ k x : ℕ, k < lines.length → x < 80 →
    v.buffer.char ((top + k : ℕ) * 80 + x) = (lines.getD k []).getD x (chr ' ')

namespace Terminal

variable {t : Terminal} {line : Chars} {lines : List Chars}

lemma putchar_newline :
    t.putchar (chr '\n') = { t with row := t.row + 1, col := 0 } := by
  rw [putchar, step, if_pos rfl, wrap_of_lt (Nat.zero_lt_succ 79)]

/-- Printable characters go to the places from the cursor on. -/
lemma putText_print (hcol : t.col < 80) (hline : Printable line) :
    (t.putText line).col < 80 ∧ (t.putText line).cursor = t.cursor + line.length
      ∧ ∀ i, (t.putText line).charAt i
        = if t.cursor ≤ i ∧ i < t.cursor + line.length then line.getD (i - t.cursor) (chr ' ')
          else t.charAt i := by
  induction line generalizing t with
  | nil =>
      refine ⟨hcol, rfl, fun i => (if_neg ?_).symm⟩
      rw [List.length_nil]
      omega
  | cons c line ih =>
      obtain ⟨hcursor, hchar⟩ := putchar_print (hline c (.head _)) hcol
      obtain ⟨hcol', hend, hrest⟩ :=
        ih (t := t.putchar c) (putchar_row hcol).1 fun d hd => hline d (.tail _ hd)
      have hput : t.putText (c :: line) = (t.putchar c).putText line := rfl
      rw [hput]
      refine ⟨hcol', ?_, fun i => ?_⟩
      · rw [hend, hcursor, List.length_cons]
        omega
      · rw [hrest, hcursor, hchar, List.length_cons]
        rcases Nat.lt_trichotomy i t.cursor with hi | hi | hi
        · rw [if_neg (by omega), if_neg (by omega), if_neg (by omega)]
        · rw [if_neg (by omega), if_pos hi, if_pos (by omega), hi, Nat.sub_self,
            List.getD_cons_zero]
        · rw [if_neg (show i ≠ t.cursor by omega),
            show i - t.cursor = i - (t.cursor + 1) + 1 by omega, List.getD_cons_succ]
          refine if_congr ?_ rfl rfl
          omega

/-- A line from the left margin. -/
lemma putText_line (hcol : t.col = 0) (hline : Printable line) (hlen : line.length < 80) :
    (t.putText (line ++ [chr '\n'])).row = t.row + 1
      ∧ (t.putText (line ++ [chr '\n'])).col = 0
      ∧ ∀ r x, x < 80 → (t.putText (line ++ [chr '\n'])).cell r x
        = if r = t.row ∧ x < line.length then line.getD x (chr ' ') else t.cell r x := by
  obtain ⟨hcol', hend, hchar⟩ := putText_print (t := t) (by omega) hline
  have hbreak : t.putText (line ++ [chr '\n']) = (t.putText line).putchar (chr '\n') :=
    putText_append t
  unfold cursor at hend
  rw [hbreak, putchar_newline]
  refine ⟨by dsimp only; omega, rfl, fun r x hx => ?_⟩
  have hplace : ∀ u : Terminal, u.charAt (r * 80 + x) = u.cell r x := by
    intro u
    rw [charAt, show (r * 80 + x) / 80 = r by omega, show (r * 80 + x) % 80 = x by omega]
  have hcell := hchar (r * 80 + x)
  rw [hplace, hplace, cursor, hcol] at hcell
  by_cases hr : r = t.row
  · subst hr
    rw [show t.row * 80 + x - (t.row * 80 + 0) = x by omega] at hcell
    refine hcell.trans (if_congr ?_ rfl rfl)
    omega
  · rw [if_neg (by omega)] at hcell
    rw [if_neg fun h => hr h.1]
    exact hcell

/-- **The lines one below the other**, where the rows were blank. -/
lemma putText_lines (hcol : t.col = 0) (hblank : ∀ r x, t.row ≤ r → x < 80 → t.cell r x = chr ' ')
    (hlines : ∀ l ∈ lines, Fits 79 l) :
    (t.putText (lineText lines)).row = t.row + lines.length
      ∧ ∀ r x, x < 80 → (t.putText (lineText lines)).cell r x
        = if t.row ≤ r then (lines.getD (r - t.row) []).getD x (chr ' ') else t.cell r x := by
  induction lines generalizing t with
  | nil =>
      refine ⟨rfl, fun r x hx => ?_⟩
      rw [List.getD_nil, List.getD_nil]
      split_ifs with hr
      · exact hblank r x hr hx
      · rfl
  | cons line lines ih =>
      obtain ⟨hprint, hlen⟩ := hlines line (.head _)
      obtain ⟨hrow, hleft, hcell⟩ := putText_line hcol hprint (Nat.lt_succ_of_le hlen)
      have hnext := ih (t := t.putText (line ++ [chr '\n'])) hleft
        (fun r x hr hx => by
          rw [hcell r x hx, if_neg (by omega)]
          exact hblank r x (by omega) hx)
        fun l hl => hlines l (.tail _ hl)
      have hrest : t.putText (lineText (line :: lines))
          = (t.putText (line ++ [chr '\n'])).putText (lineText lines) := by
        rw [lineText, List.flatMap_cons, putText_append]
        rfl
      rw [hrest, hnext.1, hrow, List.length_cons]
      refine ⟨by omega, fun r x hx => ?_⟩
      rw [hnext.2 r x hx, hrow, hcell r x hx]
      rcases Nat.lt_trichotomy r t.row with hr | hr | hr
      · rw [if_neg (by omega), if_neg (by omega), if_neg (by omega)]
      · rw [if_neg (show ¬ t.row + 1 ≤ r by omega), if_pos (show t.row ≤ r by omega), hr,
          Nat.sub_self, List.getD_cons_zero]
        split_ifs with hin
        · rfl
        · rw [List.getD_eq_default _ _ (by omega)]
          exact hblank _ _ le_rfl hx
      · rw [if_pos (by omega), if_pos (by omega), show r - t.row = r - (t.row + 1) + 1 by omega,
          List.getD_cons_succ]

end Terminal

/-- **A report can be read**: a function that starts a new line and prints at most 24 lines, each
shorter than a row, leaves them on the screen, wherever the cursor was. -/
theorem showsLines_of_prints {f : VgaRun → Option VgaRun} {s : VgaRun} {lines : List Chars}
    (h : Prints f (chr '\n' :: lineText lines)) (hs : s.Inv) (hlen : lines.length ≤ 24)
    (hlines : ∀ l ∈ lines, Fits 79 l) :
    ∃ u, f s = some u ∧ u.Inv ∧ u.vga.ShowsLines lines := by
  obtain ⟨u, hu, hinv, hterm⟩ := h s hs
  set t : Terminal := { s.terminal with row := s.terminal.row + 1, col := 0 } with ht
  have hstart : u.terminal = t.putText (lineText lines) := by
    rw [hterm, ht, ← Terminal.putchar_newline]
    rfl
  obtain ⟨hrow, hcell⟩ := Terminal.putText_lines (t := t) rfl
    (fun r x hr _ => hs.blankBelow r x hr) hlines
  rw [← hstart] at hrow hcell
  have htop : t.row = s.terminal.row + 1 := rfl
  refine ⟨u, hu, hinv, t.row - (u.terminal.row - 24), by omega, fun k x hk hx => ?_⟩
  rw [hinv.displays.cells _ x (by omega) hx, hcell _ x hx, if_pos (by omega)]
  congr 2
  omega

/-! ### Numbers -/

lemma hexText_injective {n m : ℕ} (hn : n < 2 ^ 64) (hm : m < 2 ^ 64) (h : hexText n = hexText m) :
    n = m := by
  obtain ⟨ds, -, hds, hread, -⟩ := isHexadecimal_hexText hn
  obtain ⟨es, -, hes, hread', -⟩ := isHexadecimal_hexText hm
  rw [hds, hes, List.append_cancel_left_eq] at h
  rw [h, hread'] at hread
  exact (Option.some.inj hread).symm

lemma decText_injective {z w : ℤ} (h : decText z = decText w) : z = w := by
  have hread := (isDecimal_decText z).2
  rw [h, (isDecimal_decText w).2] at hread
  exact (Option.some.inj hread).symm

lemma digitChar_printable : ∀ d < 16, (chr ' ').toInt ≤ (digitChar d).toInt
    ∧ digitChar d ≠ chr ' ' := by decide

/-- A hexadecimal number has no spaces in it and at most 18 characters. -/
lemma hexText_line {n : ℕ} (hn : n < 2 ^ 64) :
    Fits 18 (hexText n) ∧ chr ' ' ∉ hexText n := by
  obtain ⟨ds, hcan, hds, -, hshort⟩ := isHexadecimal_hexText hn
  have hdigits : ∀ c ∈ hexText n, (chr ' ').toInt ≤ c.toInt ∧ c ≠ chr ' ' := by
    intro c hc
    rw [hds, List.mem_append] at hc
    rcases hc with hc | hc
    · revert c
      decide
    · obtain ⟨d, hd, rfl⟩ := List.mem_map.mp hc
      exact digitChar_printable d (hcan.digit_lt d hd)
  refine ⟨⟨fun c hc => (hdigits c hc).1, ?_⟩, fun hmem => (hdigits _ hmem).2 rfl⟩
  have hlen := hshort (Numeral.fixedDigits 16 16 n) (by simp [Numeral.fixedDigits])
    (Numeral.fixedDigits_lt (by norm_num))
    (Numeral.value_fixedDigits.trans (Nat.mod_eq_of_lt hn))
  rw [Numeral.length_fixedDigits] at hlen
  rw [hds, List.length_append, List.length_map]
  exact Nat.add_le_add_left hlen 2

/-- A decimal number has no spaces in it, and as many digits as it needs. -/
lemma decText_line {n w : ℕ} (hw : w ≠ 0) (hn : n < 10 ^ w) :
    Fits w (decText n) ∧ chr ' ' ∉ decText n := by
  have hcan := Numeral.canonical_ofNat (b := 10) (by norm_num) n
  have htext : decText n = (Numeral.ofNat 10 n).map digitChar := by
    rw [decText, if_neg (by omega), List.nil_append, Int.natAbs_natCast]
  have hdigits : ∀ c ∈ decText n, (chr ' ').toInt ≤ c.toInt ∧ c ≠ chr ' ' := by
    intro c hc
    rw [htext] at hc
    obtain ⟨d, hd, rfl⟩ := List.mem_map.mp hc
    exact digitChar_printable d ((hcan.digit_lt d hd).trans (by norm_num))
  refine ⟨⟨fun c hc => (hdigits c hc).1, ?_⟩, fun hmem => (hdigits _ hmem).2 rfl⟩
  have hne : Numeral.fixedDigits 10 w n ≠ [] := by
    rw [← List.length_pos_iff_ne_nil, Numeral.length_fixedDigits]
    exact Nat.pos_of_ne_zero hw
  have hvalue : Numeral.value 10 (Numeral.fixedDigits 10 w n)
      = Numeral.value 10 (Numeral.ofNat 10 n) := by
    rw [Numeral.value_fixedDigits, Numeral.value_ofNat, Nat.mod_eq_of_lt hn]
  have hlen := hcan.length_le (by norm_num) hne (Numeral.fixedDigits_lt (by norm_num)) hvalue
  rwa [Numeral.length_fixedDigits, ← List.length_map (f := digitChar), ← htext] at hlen

/-- What stands before the first space, and what behind it. -/
lemma split_at_space {x x' z z' : Chars} (hx : chr ' ' ∉ x) (hx' : chr ' ' ∉ x')
    (h : x ++ chr ' ' :: z = x' ++ chr ' ' :: z') : x = x' ∧ z = z' := by
  induction x generalizing x' with
  | nil =>
      cases x' with
      | nil => exact ⟨rfl, (List.cons.inj h).2⟩
      | cons c x' => exact absurd (.head _) ((List.cons.inj h).1 ▸ hx')
  | cons c x ih =>
      cases x' with
      | nil => exact absurd (.head _) ((List.cons.inj h).1 ▸ hx)
      | cons c' x' =>
          obtain ⟨rfl, hrest⟩ := List.cons.inj h
          obtain ⟨rfl, rfl⟩ := ih (fun hm => hx (.tail _ hm)) (fun hm => hx' (.tail _ hm)) hrest
          exact ⟨rfl, rfl⟩

end KiOS
