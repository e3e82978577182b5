import KiOS.Shell.Readline
import KiOS.Text.CString

/-!
The line editor of the shell with its arrays (`shell_readline`, `shell_add_to_history`).

Every access to `shell_buffer` and `shell_history` is checked: one out of bounds gives `none`.

* `LineEditor`: the variables of `shell.c`;
* `shellAddToHistory`, `editorClearLine`, `editorKey`, `editorReadline`: the functions of the
  source, with `vga_putchar` as a parameter;
* `editKey`, `editLine`: what the keys mean for a line of text;
* `LineEditor.Holds`: the buffer holds a text, with its final zero;
* `editorKey_spec`, `shellAddToHistory_spec`: one key, and the end of a line;
* `line_edited`: the string returned is the text edited, for every sequence of keys;
* `Mirrors.key`: without the checks the editor is the one whose echo is followed on the screen.
-/

namespace KiOS

/-- `SHELL_HISTORY_SIZE`. -/
def shellHistorySize : ℕ := 10

/-- The variables of `shell.c`. -/
structure LineEditor where
  buffer : Chars
  pos : ℤ
  history : List Chars
  historyCount : ℤ
  historyIndex : ℤ

/-- `shell_history[i]`. -/
def historySlot (history : List Chars) (i : ℤ) : Option Chars :=
  if 0 ≤ i then history[i.toNat]? else none

/-- `cmd` is the same as the entry before. -/
def sameAsLast (cmd : Chars) (e : LineEditor) : Option Bool :=
  if 0 < e.historyCount then do
    let last ← historySlot e.history ((e.historyCount - 1).tmod shellHistorySize)
    let r ← strcmp cmd last
    some (r == 0)
  else some false

/-- `shell_add_to_history`. -/
def shellAddToHistory (cmd : Chars) (e : LineEditor) : Option LineEditor := do
  let len ← strlen cmd
  if len = 0 then some e
  else if ← sameAsLast cmd e then some e
  else
    let i := e.historyCount.tmod shellHistorySize
    let dest ← historySlot e.history i
    let dest ← strcpy dest cmd
    some { e with
      history := e.history.set i.toNat dest
      historyCount := e.historyCount + 1
      historyIndex := e.historyCount + 1 }

section

variable {σ : Type} (putchar : BitVec 8 → σ → σ)

/-- The loop of `shell_clear_line`. -/
def clearLineLoop (pos : ℤ) (out : σ) : ℤ × σ :=
  if 0 < pos then clearLineLoop (pos - 1) (putchar (chr '\x08') out) else (pos, out)
termination_by pos.toNat

/-- `shell_clear_line`. -/
def editorClearLine (e : LineEditor) (out : σ) : Option (LineEditor × σ) := do
  let (pos, out) := clearLineLoop putchar e.pos out
  let buffer ← storeAt e.buffer 0 0
  some ({ e with buffer := buffer, pos := pos }, out)

/-- The `switch` of `shell_readline` for a key other than `'\n'`. -/
def editorKey (c : BitVec 8) (e : LineEditor) (out : σ) : Option (LineEditor × σ) :=
  if c = chr '\x08' then
    if 0 < e.pos then do
      let buffer ← storeAt e.buffer (e.pos - 1) 0
      some ({ e with buffer := buffer, pos := e.pos - 1 }, putchar (chr '\x08') out)
    else some (e, out)
  else if c = 27 then editorClearLine putchar e out
  else if (chr ' ').toInt ≤ c.toInt ∧ e.pos < (shellBufferSize : ℤ) - 1 then do
    let buffer ← storeAt e.buffer e.pos c
    let buffer ← storeAt buffer (e.pos + 1) 0
    some ({ e with buffer := buffer, pos := e.pos + 1 }, putchar c out)
  else some (e, out)

/-- The case of `'\n'`: the string is returned, which is in `shell_buffer`. -/
def editorReturn (e : LineEditor) (out : σ) : Option (Chars × LineEditor × σ) := do
  let out := putchar (chr '\n') out
  let buffer ← storeAt e.buffer e.pos 0
  let e ← shellAddToHistory buffer { e with buffer := buffer }
  some (e.buffer, e, out)

/-- The loop of `shell_readline`, for the characters that `kb_getchar` returns. It does not return
before the first `'\n'`. -/
def readlineLoop : List (BitVec 8) → LineEditor → σ → Option (Chars × LineEditor × σ)
  | [], _, _ => none
  | c :: keys, e, out =>
      if c = chr '\n' then editorReturn putchar e out
      else (editorKey putchar c e out).bind fun r => readlineLoop keys r.1 r.2

/-- The start of `shell_readline`. -/
def editorStart (e : LineEditor) : Option LineEditor := do
  let buffer ← storeAt e.buffer 0 0
  some { e with buffer := buffer, pos := 0, historyIndex := e.historyCount }

/-- `shell_readline`. -/
def editorReadline (keys : List (BitVec 8)) (e : LineEditor) (out : σ) :
    Option (Chars × LineEditor × σ) :=
  (editorStart e).bind fun e => readlineLoop putchar keys e out

/-- The state after some keys, none of them `'\n'`. -/
def editorRun (keys : List (BitVec 8)) (r : LineEditor × σ) : Option (LineEditor × σ) :=
  keys.foldlM (fun r c => editorKey putchar c r.1 r.2) r

end

/-- What a key means for a text. -/
def editKey (text : Chars) (c : BitVec 8) : Chars :=
  if c = chr '\x08' then text.dropLast
  else if c = 27 then []
  else if (chr ' ').toInt ≤ c.toInt ∧ text.length < shellBufferSize - 1 then text ++ [c]
  else text

/-- The text after some keys. -/
def editLine (keys : List (BitVec 8)) : Chars := keys.foldl editKey []

/-- The arrays have their sizes, and the counter of the history has not overflowed. -/
structure LineEditor.Sized (e : LineEditor) : Prop where
  buffer : e.buffer.length = shellBufferSize
  history : e.history.length = shellHistorySize
  slot : ∀ slot ∈ e.history, slot.length = shellBufferSize
  count_nonneg : 0 ≤ e.historyCount

/-- `shell_buffer` holds a text, and `shell_buffer_pos` is its length. -/
structure LineEditor.Holds (e : LineEditor) (text : Chars) : Prop where
  pos : e.pos = text.length
  string : IsCString e.buffer text
  length : e.buffer.length = shellBufferSize

variable {σ : Type} {putchar : BitVec 8 → σ → σ} {e e' : LineEditor} {text : Chars} {c : BitVec 8}
  {out : σ}

namespace LineEditor.Holds

/-- The buffer is the text, its zero and what lies behind. -/
lemma split (h : e.Holds text) :
    ∃ rest, e.buffer = text ++ 0 :: rest ∧ text.length + 1 + rest.length = shellBufferSize := by
  obtain ⟨rest, hbuf⟩ := h.string.2
  refine ⟨rest, hbuf, ?_⟩
  rw [← h.length, hbuf, List.length_append, List.length_cons]
  omega

lemma length_lt (h : e.Holds text) : text.length < shellBufferSize :=
  h.length ▸ h.string.length_lt

/-- The position is within the buffer, and at the zero of the text. -/
lemma at_zero (h : e.Holds text) :
    0 ≤ e.pos ∧ e.pos ≤ (shellBufferSize : ℤ) - 1 ∧ loadAt e.buffer e.pos = some 0 := by
  have hlt := h.length_lt
  obtain ⟨rest, hbuf, -⟩ := h.split
  refine ⟨by rw [h.pos]; omega, by rw [h.pos]; omega, ?_⟩
  rw [h.pos, loadAt_natCast, hbuf, List.getElem?_append_right le_rfl, Nat.sub_self]
  rfl

/-- A state that differs in the text only. -/
lemma of_buffer {rest : Chars} {pos : ℤ} (h0 : 0 ∉ text) (hpos : pos = text.length)
    (hlen : text.length + 1 + rest.length = shellBufferSize) :
    Holds { e with buffer := text ++ 0 :: rest, pos := pos } text := by
  refine ⟨hpos, ⟨h0, rest, rfl⟩, ?_⟩
  rw [List.length_append, List.length_cons]
  omega

/-- A character at the end of the text. -/
lemma type (h : e.Holds text) (hc : (chr ' ').toInt ≤ c.toInt)
    (hroom : text.length < shellBufferSize - 1) :
    ∃ buffer, ((storeAt e.buffer e.pos c).bind fun b => storeAt b (e.pos + 1) 0) = some buffer
      ∧ Holds { e with buffer := buffer, pos := e.pos + 1 } (text ++ [c]) := by
  obtain ⟨rest, hbuf, hlen⟩ := h.split
  have hc0 : c ≠ 0 := by
    rintro rfl
    exact absurd hc (by decide)
  cases rest with
  | nil =>
      rw [List.length_nil] at hlen
      omega
  | cons d rest =>
      have hpos : e.pos + 1 = ((text ++ [c]).length : ℕ) := by
        rw [h.pos, List.length_append, List.length_singleton]
        omega
      have happ : text ++ c :: d :: rest = (text ++ [c]) ++ d :: rest := by simp
      refine ⟨(text ++ [c]) ++ 0 :: rest, ?_, of_buffer ?_ hpos ?_⟩
      · rw [hbuf, h.pos, storeAt_append, Option.bind_some, happ, ← h.pos, hpos, storeAt_append]
      · rw [List.mem_append, List.mem_singleton, not_or]
        exact ⟨h.string.1, hc0.symm⟩
      · rw [List.length_cons] at hlen
        rw [List.length_append, List.length_singleton]
        omega

/-- The last character is taken off. -/
lemma backspace (h : e.Holds text) (hne : text ≠ []) :
    ∃ buffer, storeAt e.buffer (e.pos - 1) 0 = some buffer
      ∧ Holds { e with buffer := buffer, pos := e.pos - 1 } text.dropLast := by
  obtain ⟨rest, hbuf, hlen⟩ := h.split
  obtain ⟨text, c, rfl⟩ := List.eq_nil_or_concat' text |>.resolve_left hne
  rw [List.length_append, List.length_singleton] at hlen
  have hpos : e.pos - 1 = (text.length : ℕ) := by
    rw [h.pos, List.length_append, List.length_singleton]
    omega
  have h0 : 0 ∉ text := fun h0 => h.string.1 (List.mem_append_left _ h0)
  rw [List.dropLast_concat]
  refine ⟨text ++ 0 :: 0 :: rest, ?_, of_buffer h0 hpos ?_⟩
  · rw [hbuf, hpos, List.append_assoc, List.singleton_append, storeAt_append]
  · rw [List.length_cons]
    omega

/-- The text is emptied. -/
lemma empty (hlen : e.buffer.length = shellBufferSize) :
    ∃ buffer, storeAt e.buffer 0 0 = some buffer
      ∧ Holds { e with buffer := buffer, pos := 0 } [] := by
  obtain ⟨c, rest, hbuf⟩ := List.exists_cons_of_length_pos
    (show 0 < e.buffer.length from hlen ▸ Nat.zero_lt_succ 255)
  refine ⟨0 :: rest, ?_, of_buffer (List.not_mem_nil : (0 : BitVec 8) ∉ []) rfl ?_⟩
  · rw [hbuf]
    exact storeAt_append (p := [])
  · rw [hbuf, List.length_cons] at hlen
    rw [List.length_nil]
    omega

end LineEditor.Holds

/-- The loop goes back to the start. -/
lemma clearLineLoop_pos {pos : ℤ} (hpos : 0 ≤ pos) : (clearLineLoop putchar pos out).1 = 0 := by
  induction pos using Int.induction_on generalizing out with
  | zero => rw [clearLineLoop, if_neg (lt_irrefl 0)]
  | succ n ih =>
      rw [clearLineLoop, if_pos (by omega), add_sub_cancel_right]
      exact ih (by omega)
  | pred n ih => omega

variable (putchar c out) in
/-- **One key** edits the text. -/
lemma editorKey_spec (h : e.Holds text) :
    ∃ r, editorKey putchar c e out = some r ∧ r.1.Holds (editKey text c)
      ∧ r.1.history = e.history ∧ r.1.historyCount = e.historyCount := by
  have hlt := h.length_lt
  rw [editorKey, editKey]
  split_ifs with hb hpos hesc hprint hprint' hprint'
  · have hne : text ≠ [] := by
      rintro rfl
      rw [h.pos] at hpos
      exact absurd hpos (lt_irrefl _)
    obtain ⟨buffer, hstore, hholds⟩ := h.backspace hne
    rw [hstore]
    exact ⟨_, rfl, hholds, rfl, rfl⟩
  · have hnil : text = [] := by
      rw [h.pos] at hpos
      exact List.eq_nil_of_length_eq_zero (by omega)
    subst hnil
    exact ⟨_, rfl, h, rfl, rfl⟩
  · obtain ⟨buffer, hstore, hholds⟩ := LineEditor.Holds.empty h.length
    have hzero : (clearLineLoop putchar e.pos out).1 = 0 := clearLineLoop_pos h.at_zero.1
    rw [editorClearLine, hstore]
    rw [← hzero] at hholds
    exact ⟨_, rfl, hholds, rfl, rfl⟩
  · obtain ⟨buffer, hstore, hholds⟩ := h.type hprint.1 hprint'.2
    obtain ⟨b, hb1, hb2⟩ := Option.bind_eq_some_iff.mp hstore
    rw [hb1]
    simp only [Option.bind_eq_bind, Option.bind_some, hb2]
    exact ⟨_, rfl, hholds, rfl, rfl⟩
  · have := hprint.2
    rw [h.pos] at this
    exact absurd ⟨hprint.1, by omega⟩ hprint'
  · refine absurd ⟨hprint'.1, ?_⟩ hprint
    have := hprint'.2
    rw [h.pos]
    omega
  · exact ⟨_, rfl, h, rfl, rfl⟩

variable (putchar out) in
/-- **Keys** before the first `'\n'` edit the text, one after the other. -/
lemma editorRun_spec (keys : List (BitVec 8)) (h : e.Holds text) :
    ∃ r, editorRun putchar keys (e, out) = some r ∧ r.1.Holds (keys.foldl editKey text)
      ∧ r.1.history = e.history ∧ r.1.historyCount = e.historyCount := by
  refine foldlM_invariant
    (fun done (r : LineEditor × σ) => r.1.Holds (done.foldl editKey text)
      ∧ r.1.history = e.history ∧ r.1.historyCount = e.historyCount) ⟨h, rfl, rfl⟩ ?_
  rintro done c - - ⟨e₁, out₁⟩ ⟨hholds, hhist, hcount⟩
  obtain ⟨r, hkey, hholds', hhist', hcount'⟩ :=
    editorKey_spec putchar c out₁ hholds
  refine ⟨r, hkey, ?_, hhist'.trans hhist, hcount'.trans hcount⟩
  rw [List.foldl_append]
  exact hholds'

/-- `shell_readline` is these keys, and then its end. -/
lemma readlineLoop_append {keys : List (BitVec 8)} (hkeys : chr '\n' ∉ keys) :
    readlineLoop putchar (keys ++ [chr '\n']) e out
      = (editorRun putchar keys (e, out)).bind fun r => editorReturn putchar r.1 r.2 := by
  induction keys generalizing e out with
  | nil => exact if_pos rfl
  | cons c keys ih =>
      rw [List.mem_cons, not_or] at hkeys
      rw [List.cons_append, readlineLoop, if_neg (Ne.symm hkeys.1), editorRun, List.foldlM_cons]
      cases editorKey putchar c e out with
      | none => rfl
      | some r => exact ih hkeys.2

/-! ### The history -/

/-- The entry before is the text. -/
def LineEditor.LastIs (e : LineEditor) (text : Chars) : Prop :=
  0 < e.historyCount ∧ ∃ last, IsCString last text
    ∧ historySlot e.history ((e.historyCount - 1).tmod shellHistorySize) = some last

/-- The slot for the next entry. -/
def LineEditor.nextSlot (e : LineEditor) : ℕ := (e.historyCount.tmod shellHistorySize).toNat

/-- The text has been added to the history, unless it is empty or the same as the entry before. -/
structure Recorded (e : LineEditor) (text : Chars) (e' : LineEditor) : Prop where
  added : text ≠ [] → ¬ e.LastIs text →
    e'.historyCount = e.historyCount + 1
      ∧ (∃ slot, historySlot e'.history e.nextSlot = some slot ∧ IsCString slot text)
      ∧ ∀ j, j ≠ (e.nextSlot : ℤ) → historySlot e'.history j = historySlot e.history j
  kept : text = [] ∨ e.LastIs text →
    e'.history = e.history ∧ e'.historyCount = e.historyCount

namespace LineEditor.Sized

lemma slot_spec (h : e.Sized) {n : ℤ} (hn : 0 ≤ n) :
    ∃ slot, historySlot e.history (n.tmod shellHistorySize) = some slot
      ∧ slot.length = shellBufferSize ∧ 0 ≤ n.tmod shellHistorySize
      ∧ (n.tmod shellHistorySize).toNat < e.history.length := by
  have hmod : n.tmod shellHistorySize = n % 10 := Int.tmod_eq_emod_of_nonneg hn
  have hpos : 0 ≤ n % 10 := Int.emod_nonneg n (by norm_num)
  have hlt : (n % 10).toNat < e.history.length := by
    have := Int.emod_lt_of_pos n (show (0 : ℤ) < 10 by norm_num)
    rw [h.history]
    change (n % 10).toNat < 10
    omega
  rw [hmod]
  refine ⟨e.history[(n % 10).toNat], ?_, h.slot _ (List.getElem_mem hlt), hpos, hlt⟩
  rw [historySlot, if_pos hpos, List.getElem?_eq_getElem hlt]

/-- The comparison with the entry before stays within it, whatever it holds. -/
lemma sameAsLast_spec (h : e.Sized) {cmd : Chars} (hcmd : IsCString cmd text)
    (hlen : text.length < shellBufferSize) :
    ∃ same, sameAsLast cmd e = some same ∧ (same = true ↔ e.LastIs text) := by
  by_cases hpos : 0 < e.historyCount
  · obtain ⟨last, hslot, hsize, -⟩ := h.slot_spec (n := e.historyCount - 1) (by omega)
    obtain ⟨r, hr, hiff⟩ := strcmp_spec hcmd (q := last) (by rw [hsize]; exact hlen)
    refine ⟨r == 0, ?_, ?_⟩
    · rw [sameAsLast, if_pos hpos, hslot, Option.bind_eq_bind, Option.bind_some, hr]
      rfl
    · rw [beq_iff_eq, hiff]
      constructor
      · exact fun hlast => ⟨hpos, last, hlast, hslot⟩
      · rintro ⟨-, last', hlast, hslot'⟩
        rw [hslot, Option.some.injEq] at hslot'
        exact hslot' ▸ hlast
  · refine ⟨false, if_neg hpos, iff_of_false Bool.false_ne_true fun hlast => hpos hlast.1⟩

end LineEditor.Sized

/-- **The end of a line**: it is copied to the next slot of the history, within its bounds. -/
lemma shellAddToHistory_spec (h : e.Sized) {cmd : Chars} (hcmd : IsCString cmd text)
    (hlen : text.length < shellBufferSize) :
    ∃ e', shellAddToHistory cmd e = some e' ∧ e'.buffer = e.buffer ∧ e'.pos = e.pos ∧ e'.Sized
      ∧ Recorded e text e' := by
  obtain ⟨same, hsame, hiff⟩ := h.sameAsLast_spec hcmd hlen
  rw [shellAddToHistory, strlen_spec hcmd, Option.bind_eq_bind, Option.bind_some, hsame]
  by_cases hnil : text = []
  · subst hnil
    exact ⟨e, rfl, rfl, rfl, h, fun hne => absurd rfl hne, fun _ => ⟨rfl, rfl⟩⟩
  rw [if_neg (mt List.length_eq_zero_iff.mp hnil), Option.bind_eq_bind, Option.bind_some]
  cases same with
  | true =>
      have hlast := hiff.mp rfl
      exact ⟨e, rfl, rfl, rfl, h, fun _ hno => absurd hlast hno, fun _ => ⟨rfl, rfl⟩⟩
  | false =>
      have hno : ¬ e.LastIs text := fun hlast => Bool.false_ne_true (hiff.mpr hlast)
      obtain ⟨slot, hslot, hsize, hpos, hlt⟩ := h.slot_spec h.count_nonneg
      have hcopy := strcpy_spec slot hcmd (by rw [hsize]; exact hlen)
      simp only [Bool.false_eq_true, if_false, hslot, hcopy, Option.bind_eq_bind, Option.bind_some]
      have hcopied : IsCString (text ++ 0 :: slot.drop (text.length + 1)) text := ⟨hcmd.1, _, rfl⟩
      refine ⟨_, rfl, rfl, rfl, ⟨h.buffer, ?_, ?_, ?_⟩, fun _ _ => ⟨rfl, ⟨_, ?_, hcopied⟩, ?_⟩,
        fun hkept => (hkept.elim hnil hno).elim⟩
      · rw [List.length_set]
        exact h.history
      · intro s hs
        rcases List.mem_or_eq_of_mem_set hs with hs | rfl
        · exact h.slot s hs
        · rw [List.length_append, List.length_cons, List.length_drop, hsize]
          omega
      · have := h.count_nonneg
        change 0 ≤ e.historyCount + 1
        omega
      · rw [historySlot, if_pos (Int.natCast_nonneg _), Int.toNat_natCast]
        exact List.getElem?_set_self hlt
      · intro j hj
        rw [historySlot, historySlot]
        split_ifs with hj0
        · refine List.getElem?_set_ne fun he => hj ?_
          rw [LineEditor.nextSlot, he, Int.toNat_of_nonneg hj0]
        · rfl

/-- **Line editing is correct** for every sequence of keys: every access is within its array, after
each key the position is within the buffer and at its final zero, the string returned is the text
edited, and the history records it. -/
theorem line_edited (putchar : BitVec 8 → σ → σ) (e : LineEditor) (out : σ) (he : e.Sized)
    (hcount : e.historyCount < 2 ^ 31 - 1) {line : List (BitVec 8)} (hline : chr '\n' ∉ line) :
    (∃ start, editorStart e = some start ∧ ∀ p, p <+: line →
        ∃ r, editorRun putchar p (start, out) = some r ∧ r.1.Holds (editLine p)
          ∧ 0 ≤ r.1.pos ∧ r.1.pos ≤ (shellBufferSize : ℤ) - 1
          ∧ loadAt r.1.buffer r.1.pos = some 0)
      ∧ ∃ e' out', editorReadline putchar (line ++ [chr '\n']) e out = some (e'.buffer, e', out')
        ∧ IsCString e'.buffer (editLine line) ∧ Recorded e (editLine line) e'
        ∧ e'.Sized ∧ e'.historyCount < 2 ^ 31 := by
  obtain ⟨buffer, hstore, hempty⟩ := LineEditor.Holds.empty he.buffer
  set start : LineEditor := { e with buffer := buffer, pos := 0, historyIndex := e.historyCount }
    with hstart
  have hinit : editorStart e = some start := by
    rw [editorStart, hstore]
    rfl
  have hholds : start.Holds [] := ⟨hempty.pos, hempty.string, hempty.length⟩
  refine ⟨⟨start, hinit, fun p _ => ?_⟩, ?_⟩
  · obtain ⟨r, hrun, hr, -⟩ := editorRun_spec putchar out p hholds
    exact ⟨r, hrun, hr, hr.at_zero⟩
  · obtain ⟨⟨e₁, out₁⟩, hrun, hr, hhist, hcount₁⟩ :=
      editorRun_spec putchar out line hholds
    obtain ⟨rest, hbuf, hlen⟩ := hr.split
    -- the zero is stored once more where it is
    have hend : storeAt e₁.buffer e₁.pos 0 = some e₁.buffer := by
      rw [hr.pos, hbuf]
      exact storeAt_append
    have hsized : e₁.Sized :=
      ⟨hr.length, hhist ▸ he.history, hhist ▸ he.slot, hcount₁ ▸ he.count_nonneg⟩
    obtain ⟨e', hadd, hbuffer, -, hsized', hrec⟩ :=
      shellAddToHistory_spec hsized hr.string hr.length_lt
    have hsame : ∀ text, e₁.LastIs text ↔ e.LastIs text := by
      intro text
      rw [LineEditor.LastIs, LineEditor.LastIs, hhist, hcount₁]
    have hslot : e₁.nextSlot = e.nextSlot := by
      rw [LineEditor.nextSlot, hcount₁, LineEditor.nextSlot]
    have hrec' : Recorded e (editLine line) e' := by
      refine ⟨fun hne hno => ?_, fun hkept => ?_⟩
      · obtain ⟨h1, h2, h3⟩ := hrec.added hne (mt (hsame _).mp hno)
        rw [hslot] at h2 h3
        rw [hhist] at h3
        exact ⟨h1.trans (by rw [hcount₁]), h2, h3⟩
      · obtain ⟨h1, h2⟩ := hrec.kept (hkept.imp_right (hsame _).mpr)
        exact ⟨h1.trans hhist, h2.trans hcount₁⟩
    refine ⟨e', putchar (chr '\n') out₁, ?_, hbuffer ▸ hr.string, hrec', hsized', ?_⟩
    · rw [editorReadline, hinit, Option.bind_some, readlineLoop_append hline,
        hrun, Option.bind_some,
        editorReturn, hend]
      simp only [Option.bind_eq_bind, Option.bind_some, hadd]
    · by_cases hadded : editLine line ≠ [] ∧ ¬ e.LastIs (editLine line)
      · rw [(hrec'.added hadded.1 hadded.2).1]
        omega
      · rw [(hrec'.kept (by tauto)).2]
        omega

/-- The shell before its first line. -/
def shellAtBoot : LineEditor where
  buffer := List.replicate shellBufferSize 0
  pos := 0
  history := List.replicate shellHistorySize (List.replicate shellBufferSize 0)
  historyCount := 0
  historyIndex := 0

lemma shellAtBoot_sized : shellAtBoot.Sized where
  buffer := List.length_replicate
  history := List.length_replicate
  slot slot hs := by
    rw [List.eq_of_mem_replicate hs]
    exact List.length_replicate
  count_nonneg := le_rfl

/-- The keys `a`, `b`, Backspace and `c` at boot give the line `ac`. -/
theorem line_edited_boot :
    ∃ e' out', editorReadline (fun c (out : Chars) => out ++ [c])
        ([chr 'a', chr 'b', chr '\x08', chr 'c'] ++ [chr '\n']) shellAtBoot []
        = some (e'.buffer, e', out')
      ∧ IsCString e'.buffer [chr 'a', chr 'c'] := by
  obtain ⟨-, e', out', hrun, hstring, -⟩ := line_edited (fun c out => out ++ [c]) shellAtBoot []
    shellAtBoot_sized (by decide)
      (show chr '\n' ∉ [chr 'a', chr 'b', chr '\x08', chr 'c'] by decide)
  exact ⟨e', out', hrun, hstring⟩

/-! ### The editor without its checks -/

/-- The two models of the editor agree. -/
def Mirrors (e : LineEditor) (sh : Shell) : Prop :=
  e.pos = sh.pos ∧ ∀ i < shellBufferSize, loadAt e.buffer i = some (sh.buffer i)

lemma mirrors_store {p q : Chars} {b : ℕ → BitVec 8} {k : ℕ}
    (h : ∀ i < shellBufferSize, loadAt p i = some (b i)) (hstore : storeAt p k c = some q) :
    ∀ i < shellBufferSize, loadAt q i = some (Function.update b k c i) := by
  intro i hi
  have hk : k < p.length := by
    by_contra hk
    rw [storeAt, if_neg (by omega)] at hstore
    cases hstore
  rw [storeAt_natCast hk, Option.some.injEq] at hstore
  rw [← hstore, loadAt_natCast, Function.update_apply]
  split_ifs with hik
  · rw [hik, List.getElem?_set_self hk]
  · rw [List.getElem?_set_ne (Ne.symm hik), ← loadAt_natCast, h i hi]

lemma clearLineLoop_eq (n : ℕ) (screen : VgaRun) :
    clearLineLoop VgaRun.putchar n screen = (0, clearLoop n screen) := by
  induction n generalizing screen with
  | zero => rw [clearLineLoop, if_neg (by decide), clearLoop, Nat.cast_zero]
  | succ n ih =>
      rw [clearLineLoop, if_pos (by omega), clearLoop, ← ih, Nat.cast_succ, add_sub_cancel_right]

/-- **A key** does the same in both, and shows the same on the screen. -/
lemma Mirrors.key {sh : Shell} (h : Mirrors e sh) (hholds : e.Holds text) (hc : c ≠ chr '\n')
    (screen : VgaRun) :
    ∃ e', editorKey VgaRun.putchar c e screen = some (e', (readlineKey c sh screen).2.2)
      ∧ Mirrors e' (readlineKey c sh screen).2.1 := by
  obtain ⟨r, hkey, -⟩ := editorKey_spec VgaRun.putchar c screen hholds
  obtain ⟨hpos, hbuf⟩ := h
  rw [readlineKey, if_neg hc]
  rw [editorKey] at hkey ⊢
  rw [hpos] at hkey ⊢
  have hfull : (sh.pos : ℤ) < (shellBufferSize : ℤ) - 1 ↔ sh.pos < shellBufferSize - 1 := by
    rw [shellBufferSize]
    omega
  simp only [hfull, Nat.cast_pos] at hkey ⊢
  split_ifs at hkey ⊢ with hb hback hesc hprint
  · obtain ⟨b, hstore, -⟩ := Option.bind_eq_some_iff.mp hkey
    rw [← Nat.cast_pred hback] at hstore ⊢
    rw [hstore]
    exact ⟨_, rfl, rfl, mirrors_store hbuf hstore⟩
  · exact ⟨e, rfl, hpos, hbuf⟩
  · rw [editorClearLine, hpos, clearLineLoop_eq] at hkey ⊢
    obtain ⟨b, hstore, -⟩ := Option.bind_eq_some_iff.mp hkey
    rw [hstore]
    exact ⟨_, rfl, rfl, mirrors_store hbuf (k := 0) hstore⟩
  · obtain ⟨b, hstore, hkey⟩ := Option.bind_eq_some_iff.mp hkey
    obtain ⟨b', hstore', -⟩ := Option.bind_eq_some_iff.mp hkey
    rw [← Nat.cast_succ] at hstore' ⊢
    rw [hstore, Option.bind_eq_bind, Option.bind_some, hstore']
    exact ⟨_, rfl, rfl, mirrors_store (mirrors_store hbuf hstore) hstore'⟩
  · exact ⟨e, rfl, hpos, hbuf⟩

end KiOS
