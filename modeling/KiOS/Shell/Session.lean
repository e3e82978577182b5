import KiOS.Drivers.KeyboardModifiers
import KiOS.Shell.Execute
import KiOS.Shell.LineEditor

/-!
A session of the shell (`shell_run`), from scancodes to calls of commands.

* `Session`: the variables of the shell and of its keyboard driver, and what it did;
* `sessionPrompt`, `sessionKey`, `sessionScancode`: the loop of `shell_run` between two scancodes
  that `kb_getchar` waits for; `shellRun`: the loop from its start on;
* `splitLines`, `commandOf`, `served`: the lines typed, the command a line calls, and the lines up
  to one whose command does not return;
* `LineEditor.HistoryIs`: the last lines of a list are in `shell_history`;
* `SessionOk`: what the shell owes for some characters;
* `shell_session`: it does so for every sequence of scancodes.
-/

namespace KiOS

/-- The variables behind `shell_run`, and what it did. -/
structure Session where
  keyboard : KbModifiers
  editor : LineEditor
  events : List ShellEvent
  /-- A command did not return. -/
  halted : Bool

/-- `vga_putchar`, written down. -/
def logPutchar (c : BitVec 8) (out : List ShellEvent) : List ShellEvent := out ++ [.putchar c]

/-- `shell_print_prompt`, written down. -/
def promptEvents : List ShellEvent :=
  [.printColored (literal "kiba") 10 0, .printColored (literal "@") 15 0,
    .printColored (literal "KiOS") 11 0, .printColored (literal "> ") 15 0]

/-- The string behind a pointer. -/
def pointee (p : Chars) : Chars := p.takeWhile (· ≠ 0)

/-- One of the calls does not return. -/
def stopped (returns : ℕ → Chars → Bool) (events : List ShellEvent) : Bool :=
  (calls events).any fun c => !returns c.1 (pointee c.2)

/-- `shell_run` from the start of its loop to the first call of `kb_getchar`. -/
def sessionPrompt (s : Session) : Option Session := do
  let e ← editorStart s.editor
  some { s with editor := e, events := s.events ++ promptEvents }

/-- `shell_run` from a character that `kb_getchar` returns to the next call of it, if the commands
that return are the given ones. -/
def sessionKey (names : List Chars) (returns : ℕ → Chars → Bool) (c : BitVec 8) (s : Session) :
    Option Session :=
  if c = chr '\n' then do
    let (cmd, e, out) ← editorReturn logPutchar s.editor s.events
    let did ← shellExecute names cmd
    let s := { s with editor := e, events := out ++ did }
    if stopped returns did then some { s with halted := true } else sessionPrompt s
  else do
    let (e, out) ← editorKey logPutchar c s.editor s.events
    some { s with editor := e, events := out }

/-- `kb_getchar` gets a scancode; a scancode without a character leaves it waiting. -/
def sessionScancode (names : List Chars) (returns : ℕ → Chars → Bool) (s : Session)
    (scancode : BitVec 8) : Option Session :=
  if s.halted then some s
  else
    let (c, kb) := kbScancodeToAscii scancode s.keyboard
    if c ≠ 0 then sessionKey names returns c { s with keyboard := kb }
    else some { s with keyboard := kb }

/-- `shell_run`, until it waits for a scancode behind the given ones; `none` if it reads or writes
outside its arrays. -/
def shellRun (names : List Chars) (returns : ℕ → Chars → Bool) (scancodes : List (BitVec 8))
    (kb : KbModifiers) (e : LineEditor) : Option Session :=
  (sessionPrompt ⟨kb, e, [], false⟩).bind fun s =>
    scancodes.foldlM (sessionScancode names returns) s

/-! ### What the shell is for -/

/-- A character more: a newline ends the line. -/
def splitKey (r : List Chars × Chars) (c : BitVec 8) : List Chars × Chars :=
  if c = chr '\n' then (r.1 ++ [r.2], []) else (r.1, r.2 ++ [c])

/-- The complete lines among some characters, and the characters behind them. -/
def splitLines (keys : Chars) : List Chars × Chars := keys.foldl splitKey ([], [])

/-- The command that a line calls, and the string it gets. -/
def commandOf (names : List Chars) (text : Chars) : Option (ℕ × Chars) :=
  if token text ∈ names then some (names.idxOf (token text), arguments text) else none

/-- The command of a line does not return. -/
def stops (names : List Chars) (returns : ℕ → Chars → Bool) (text : Chars) : Bool :=
  (commandOf names text).any fun c => !returns c.1 c.2

/-- The lines up to the first one that stops the shell. -/
def served (stops : Chars → Bool) : List Chars → List Chars
  | [] => []
  | text :: texts => text :: if stops text then [] else served stops texts

/-- The lines that are remembered: none that is empty, and none twice in a row. -/
def remembered (texts : List Chars) : List Chars :=
  (texts.filter (· ≠ [])).destutter (· ≠ ·)

/-- `shell_history` holds the last lines of a list, as many as it has slots. -/
structure LineEditor.HistoryIs (e : LineEditor) (texts : List Chars) : Prop where
  count : e.historyCount = texts.length
  slot : ∀ (k : ℕ) (hk : k < texts.length), texts.length ≤ k + shellHistorySize →
    ∃ slot, historySlot e.history (k % shellHistorySize : ℕ) = some slot ∧ IsCString slot texts[k]

/-- The lines that the shell has edited and served. -/
def servedLines (names : List Chars) (returns : ℕ → Chars → Bool) (keys : Chars) : List Chars :=
  served (stops names returns) ((splitLines keys).1.map editLine)

/-- What the shell owes for the characters typed. -/
structure SessionOk (names : List Chars) (returns : ℕ → Chars → Bool) (keys : Chars) (s : Session) :
    Prop where
  /-- Each line has called its command, in their order, with its arguments. -/
  calls : List.Forall₂ (fun c d => c.1 = d.1 ∧ IsCString c.2 d.2) (calls s.events)
    ((servedLines names returns keys).filterMap (commandOf names))
  halted : s.halted = true
    ↔ ∃ line ∈ (splitLines keys).1, stops names returns (editLine line) = true
  /-- The buffer holds the line that is not complete yet. -/
  line : s.halted = false → s.editor.Holds (editLine (splitLines keys).2)
  history : s.editor.HistoryIs (remembered (servedLines names returns keys))

/-! ### A line more -/

section

variable {α : Type} [DecidableEq α]

lemma destutter'_concat (l : List α) (a b : α) : (l ++ [a]).destutter' (· ≠ ·) b
    = if (l.destutter' (· ≠ ·) b).getLast? = some a then l.destutter' (· ≠ ·) b
      else l.destutter' (· ≠ ·) b ++ [a] := by
  induction l generalizing b with
  | nil =>
      rw [List.nil_append, List.destutter'_singleton, List.destutter'_nil, List.getLast?_singleton]
      by_cases h : b = a
      · rw [if_neg (not_not.mpr h), if_pos (congrArg some h)]
      · rw [if_pos h, if_neg fun h' => h (Option.some_inj.mp h')]
        rfl
  | cons c l ih =>
      by_cases h : b ≠ c
      · rw [List.cons_append, List.destutter'_cons_pos _ h, List.destutter'_cons_pos _ h, ih,
          List.getLast?_cons_of_ne_nil (List.destutter'_ne_nil _ _)]
        split_ifs <;> rfl
      · rw [List.cons_append, List.destutter'_cons_neg _ h, List.destutter'_cons_neg _ h, ih]

/-- An element more is kept unless it is the last one kept. -/
lemma destutter_concat (l : List α) (a : α) : (l ++ [a]).destutter (· ≠ ·)
    = if (l.destutter (· ≠ ·)).getLast? = some a then l.destutter (· ≠ ·)
      else l.destutter (· ≠ ·) ++ [a] := by
  cases l with
  | nil => rfl
  | cons b l =>
      rw [List.cons_append, List.destutter_cons', List.destutter_cons']
      exact destutter'_concat l a b

end

variable {names : List Chars} {returns : ℕ → Chars → Bool} {keys text : Chars} {texts : List Chars}
  {c : BitVec 8}

lemma remembered_concat : remembered (texts ++ [text])
    = if text = [] ∨ (remembered texts).getLast? = some text then remembered texts
      else remembered texts ++ [text] := by
  by_cases h : text = []
  · have hdrop : [text].filter (· ≠ []) = [] := List.filter_cons_of_neg (by simpa using h)
    rw [if_pos (Or.inl h), remembered, remembered, List.filter_append, hdrop, List.append_nil]
  · have hkeep : [text].filter (· ≠ []) = [text] := List.filter_cons_of_pos (by simpa using h)
    rw [remembered, List.filter_append, hkeep, destutter_concat, remembered]
    simp only [h, false_or]

lemma served_concat {stops : Chars → Bool} : served stops (texts ++ [text])
    = if ∃ t ∈ texts, stops t = true then served stops texts else served stops texts ++ [text] := by
  induction texts with
  | nil =>
      rw [if_neg (by simp), List.nil_append, served, served, served]
      split_ifs <;> rfl
  | cons t texts ih =>
      rw [List.cons_append, served, served, ih]
      cases ht : stops t with
      | true => rw [if_pos rfl, if_pos rfl, if_pos ⟨t, List.mem_cons_self, ht⟩]
      | false =>
          have hex : (∃ u ∈ t :: texts, stops u = true) ↔ ∃ u ∈ texts, stops u = true := by
            rw [List.exists_mem_cons_iff, ht, or_iff_right Bool.false_ne_true]
          simp only [Bool.false_eq_true, if_false, hex]
          split_ifs <;> rfl

lemma splitLines_concat : splitLines (keys ++ [c]) = splitKey (splitLines keys) c := by
  rw [splitLines, List.foldl_append]
  rfl

lemma calls_append (events events' : List ShellEvent) :
    calls (events ++ events') = calls events ++ calls events' := List.filterMap_append

/-- Keys call nothing. -/
lemma calls_clearLineLoop (pos : ℤ) (out : List ShellEvent) :
    calls (clearLineLoop logPutchar pos out).2 = calls out := by
  induction pos, out using clearLineLoop.induct logPutchar with
  | case1 pos out hpos ih =>
      rw [clearLineLoop, if_pos hpos, ih, logPutchar, calls_append]
      exact List.append_nil _
  | case2 pos out hpos => rw [clearLineLoop, if_neg hpos]

lemma calls_editorKey {e : LineEditor} {out : List ShellEvent} {r : LineEditor × List ShellEvent}
    (h : editorKey logPutchar c e out = some r) : calls r.2 = calls out := by
  have hlog : ∀ c, calls (logPutchar c out) = calls out := by
    intro c
    rw [logPutchar, calls_append]
    exact List.append_nil _
  rw [editorKey] at h
  split_ifs at h
  · obtain ⟨buffer, -, hr⟩ := Option.bind_eq_some_iff.mp h
    obtain rfl := Option.some_inj.mp hr
    exact hlog _
  · obtain rfl := Option.some_inj.mp h
    rfl
  · obtain ⟨buffer, -, hr⟩ := Option.bind_eq_some_iff.mp h
    obtain rfl := Option.some_inj.mp hr
    exact calls_clearLineLoop _ _
  · obtain ⟨buffer, -, hr⟩ := Option.bind_eq_some_iff.mp h
    obtain ⟨buffer', -, hr⟩ := Option.bind_eq_some_iff.mp hr
    obtain rfl := Option.some_inj.mp hr
    exact hlog _
  · obtain rfl := Option.some_inj.mp h
    rfl

/-- The characters behind a newline are edited from the start. -/
lemma editLine_concat : editLine (keys ++ [c]) = editKey (editLine keys) c := by
  rw [editLine, List.foldl_append]
  rfl

/-- A newline serves one line more, unless the shell has stopped. -/
lemma servedLines_concat : servedLines names returns (keys ++ [c])
    = if c = chr '\n' ∧ ¬ ∃ line ∈ (splitLines keys).1, stops names returns (editLine line) = true
      then servedLines names returns keys ++ [editLine (splitLines keys).2]
      else servedLines names returns keys := by
  rw [servedLines, splitLines_concat, splitKey]
  by_cases hc : c = chr '\n'
  · have hex : (∃ text ∈ (splitLines keys).1.map editLine, stops names returns text = true)
        ↔ ∃ line ∈ (splitLines keys).1, stops names returns (editLine line) = true := by
      simp only [List.mem_map, exists_exists_and_eq_and]
    rw [if_pos hc, List.map_append, List.map_singleton, served_concat, servedLines]
    simp only [hex, hc, true_and]
    split_ifs <;> tauto
  · rw [if_neg hc, if_neg fun h => hc h.1]
    rfl

/-! ### The history -/

namespace LineEditor.HistoryIs

variable {e e' : LineEditor}

lemma congr (h : e.HistoryIs texts) (hhist : e'.history = e.history)
    (hcount : e'.historyCount = e.historyCount) : e'.HistoryIs texts :=
  ⟨hcount.trans h.count, fun k hk hlast => hhist ▸ h.slot k hk hlast⟩

/-- The slot of a line, in the arithmetic of the source. -/
lemma tmod_eq (k : ℕ) : (k : ℤ).tmod shellHistorySize = (k % shellHistorySize : ℕ) := by
  rw [Int.tmod_eq_emod_of_nonneg (Int.natCast_nonneg k), Int.natCast_mod]

/-- The entry before is the last line. -/
lemma lastIs_iff (h : e.HistoryIs texts) : e.LastIs text ↔ texts.getLast? = some text := by
  rw [LineEditor.LastIs, h.count]
  rcases List.eq_nil_or_concat' texts with rfl | ⟨older, last, rfl⟩
  · simp
  · obtain ⟨slot, hslot, hstring⟩ := h.slot older.length (by simp) (by simp [shellHistorySize])
    rw [List.getElem_concat_length rfl] at hstring
    have hprev : (((older ++ [last]).length : ℕ) : ℤ) - 1 = (older.length : ℕ) := by
      rw [List.length_append, List.length_singleton]
      omega
    rw [hprev, tmod_eq, hslot, List.getLast?_concat]
    constructor
    · rintro ⟨-, last', htext, hlast'⟩
      obtain rfl := Option.some_inj.mp hlast'
      rw [hstring.unique htext]
    · intro hlast
      obtain rfl := Option.some_inj.mp hlast
      exact ⟨by simp, slot, hstring, rfl⟩

/-- **A line more** takes the place of the oldest one. -/
lemma recorded (h : e.HistoryIs texts) (hrec : Recorded e text e') : e'.HistoryIs
    (if text = [] ∨ texts.getLast? = some text then texts else texts ++ [text]) := by
  split_ifs with hkept
  · obtain ⟨hhist, hcount⟩ := hrec.kept (hkept.imp_right h.lastIs_iff.mpr)
    exact h.congr hhist hcount
  · rw [not_or] at hkept
    obtain ⟨hcount, ⟨slot, hslot, hstring⟩, hsame⟩ :=
      hrec.added hkept.1 (mt h.lastIs_iff.mp hkept.2)
    have hnext : e.nextSlot = texts.length % shellHistorySize := by
      rw [LineEditor.nextSlot, h.count, tmod_eq, Int.toNat_natCast]
    rw [hnext] at hslot hsame
    refine ⟨by rw [hcount, h.count, List.length_append, List.length_singleton]; rfl,
      fun k hk hlast => ?_⟩
    rw [List.length_append, List.length_singleton] at hk hlast
    by_cases hnew : k = texts.length
    · subst hnew
      exact ⟨slot, hslot, by rwa [List.getElem_concat_length rfl]⟩
    · have hlt : k < texts.length := by omega
      obtain ⟨old, hold, htext⟩ := h.slot k hlt (by omega)
      have hne : (k % shellHistorySize : ℕ) ≠ texts.length % shellHistorySize := by
        rw [shellHistorySize] at hlast ⊢
        omega
      refine ⟨old, ?_, by rwa [List.getElem_append_left hlt]⟩
      rw [hsame _ (by exact_mod_cast hne), hold]

end LineEditor.HistoryIs

/-! ### A key more -/

/-- The end of a line: the string is the text, and it is recorded. -/
lemma editorReturn_spec {e : LineEditor} (h : e.Holds text) (hs : e.Sized)
    (out : List ShellEvent) :
    ∃ e', editorReturn logPutchar e out = some (e'.buffer, e', logPutchar (chr '\n') out)
      ∧ IsCString e'.buffer text ∧ Recorded e text e' ∧ e'.Sized := by
  obtain ⟨rest, hbuf, -⟩ := h.split
  -- the zero is stored once more where it is
  have hend : storeAt e.buffer e.pos 0 = some e.buffer := by
    rw [h.pos, hbuf]
    exact storeAt_append
  obtain ⟨e', hadd, hbuffer, -, hsized, hrec⟩ := shellAddToHistory_spec hs h.string h.length_lt
  refine ⟨e', ?_, hbuffer ▸ h.string, hrec, hsized⟩
  rw [editorReturn, hend]
  simp only [Option.bind_eq_bind, Option.bind_some, hadd]

/-- The string behind a pointer to one. -/
lemma pointee_eq {p : Chars} (h : IsCString p text) : pointee p = text := by
  obtain ⟨rest, rfl⟩ := h.2
  have hall : ∀ c ∈ text, (c ≠ 0) = true := fun c hc => by
    simpa using fun h0 : c = 0 => h.1 (h0 ▸ hc)
  rw [pointee, List.takeWhile_append_of_pos fun c hc => by simpa using hall c hc]
  simp

/-- `shell_execute` calls the command of the line. -/
lemma shellExecute_calls (table : CommandTable) {cmd : Chars} (h : IsCString cmd text) :
    ∃ events, shellExecute table.entries cmd = some events
      ∧ List.Forall₂ (fun c d => c.1 = d.1 ∧ IsCString c.2 d.2) (calls events)
        (commandOf table.names text).toList := by
  have hnone : token text ∉ table.names → commandOf table.names text = none := fun h => if_neg h
  rcases shellExecute_spec h table.spelled with ⟨htok, hrun⟩ | ⟨-, hcall | ⟨hmem, hrun⟩⟩
  · refine ⟨[], hrun, ?_⟩
    rw [hnone (htok ▸ table.nonempty)]
    exact .nil
  · obtain ⟨i, args, hget, -, hargs, hrun⟩ := hcall
    have hmem := List.mem_of_getElem? hget
    have hidx : i = table.names.idxOf (token text) :=
      (List.getElem?_inj (List.getElem?_eq_some_iff.mp hget).1 table.nodup).mp
        (hget.trans (List.getElem?_idxOf hmem).symm)
    refine ⟨_, hrun, ?_⟩
    rw [commandOf, if_pos hmem]
    exact .cons ⟨hidx, hargs⟩ .nil
  · refine ⟨_, hrun, ?_⟩
    rw [hnone hmem, calls_unknownCommand]
    exact .nil

/-- The shell stops where the line says. -/
lemma stopped_eq {events : List ShellEvent}
    (h : List.Forall₂ (fun c d => c.1 = d.1 ∧ IsCString c.2 d.2) (calls events)
      (commandOf names text).toList) :
    stopped returns events = stops names returns text := by
  rw [stopped, stops]
  cases hcmd : commandOf names text with
  | none =>
      rw [hcmd] at h
      cases hcalls : calls events with
      | nil => rfl
      | cons c cs =>
          rw [hcalls] at h
          cases h
  | some d =>
      rw [hcmd] at h
      obtain ⟨c, cs, ⟨hi, hargs⟩, hcs, hcalls⟩ := List.forall₂_cons_right_iff.mp h
      obtain rfl := List.forall₂_nil_right_iff.mp hcs
      rw [hcalls, List.any_cons, List.any_nil, Bool.or_false, Option.any_some, hi, pointee_eq hargs]

/-- The start of a line leaves the history alone. -/
lemma sessionPrompt_spec {s : Session} (hs : s.editor.Sized) :
    ∃ e, sessionPrompt s = some { s with editor := e, events := s.events ++ promptEvents }
      ∧ e.Holds [] ∧ e.Sized ∧ e.history = s.editor.history
      ∧ e.historyCount = s.editor.historyCount := by
  obtain ⟨buffer, hstore, hempty⟩ := LineEditor.Holds.empty hs.buffer
  refine ⟨{ s.editor with
    buffer := buffer
    pos := 0
    historyIndex := s.editor.historyCount }, ?_, ?_, ?_, rfl, rfl⟩
  · rw [sessionPrompt, editorStart, hstore]
    rfl
  · exact ⟨hempty.pos, hempty.string, hempty.length⟩
  · exact ⟨hempty.length, hs.history, hs.slot, hs.count_nonneg⟩

namespace SessionOk

variable {s : Session}

lemma halted_iff (h : SessionOk names returns keys s) :
    (¬ ∃ line ∈ (splitLines keys).1, stops names returns (editLine line) = true)
      ↔ s.halted = false := by
  rw [← h.halted, Bool.not_eq_true]

/-- Behind a command that does not return, keys do nothing. -/
lemma ignored (h : SessionOk names returns keys s) (hs : s.halted = true) (c : BitVec 8) :
    SessionOk names returns (keys ++ [c]) s := by
  have hex := h.halted.mp hs
  have hserved : servedLines names returns (keys ++ [c]) = servedLines names returns keys := by
    rw [servedLines_concat, if_neg fun hc => hc.2 hex]
  refine ⟨hserved ▸ h.calls, iff_of_true hs ?_, fun hrun => absurd hs (by rw [hrun]; decide),
    hserved ▸ h.history⟩
  obtain ⟨line, hline, hstop⟩ := hex
  refine ⟨line, ?_, hstop⟩
  rw [splitLines_concat, splitKey]
  split_ifs
  · exact List.mem_append_left _ hline
  · exact hline

/-- A key within a line. -/
lemma edited (entries : List Chars) (h : SessionOk names returns keys s) (hs : s.editor.Sized)
    (hrun : s.halted = false) (hc : c ≠ chr '\n') :
    ∃ s', sessionKey entries returns c s = some s' ∧ SessionOk names returns (keys ++ [c]) s'
      ∧ s'.editor.Sized ∧ s'.halted = false ∧ s'.keyboard = s.keyboard
      ∧ s'.editor.historyCount = s.editor.historyCount := by
  obtain ⟨r, hkey, hholds, hhist, hcount⟩ := editorKey_spec logPutchar c s.events (h.line hrun)
  have hsplit : splitLines (keys ++ [c]) = ((splitLines keys).1, (splitLines keys).2 ++ [c]) := by
    rw [splitLines_concat, splitKey, if_neg hc]
  have hserved : servedLines names returns (keys ++ [c]) = servedLines names returns keys := by
    rw [servedLines_concat, if_neg fun h' => hc h'.1]
  refine ⟨{ s with editor := r.1, events := r.2 }, ?_, ⟨?_, ?_, fun _ => ?_, ?_⟩, ?_, hrun, rfl,
    hcount⟩
  · rw [sessionKey, if_neg hc, hkey]
    rfl
  · rw [hserved, calls_editorKey hkey]
    exact h.calls
  · rw [hsplit]
    exact h.halted
  · rw [hsplit, editLine_concat]
    exact hholds
  · rw [hserved]
    exact h.history.congr hhist hcount
  · exact ⟨hholds.length, hhist ▸ hs.history, hhist ▸ hs.slot, hcount ▸ hs.count_nonneg⟩

/-- **The end of a line** calls its command. -/
lemma returned (table : CommandTable) (h : SessionOk table.names returns keys s)
    (hs : s.editor.Sized) (hrun : s.halted = false) :
    ∃ s', sessionKey table.entries returns (chr '\n') s = some s'
      ∧ SessionOk table.names returns (keys ++ [chr '\n']) s'
      ∧ s'.editor.Sized ∧ s'.keyboard = s.keyboard
      ∧ s'.editor.historyCount ≤ s.editor.historyCount + 1 := by
  set line := editLine (splitLines keys).2 with hline
  obtain ⟨e, hreturn, hstring, hrec, hsized⟩ := editorReturn_spec (h.line hrun) hs s.events
  obtain ⟨did, hdid, hcalls⟩ := shellExecute_calls table hstring
  have hstopped : stopped returns did = stops table.names returns line := stopped_eq hcalls
  have hserved : servedLines table.names returns (keys ++ [chr '\n'])
      = servedLines table.names returns keys ++ [line] := by
    rw [servedLines_concat, if_pos ⟨rfl, h.halted_iff.mpr hrun⟩]
  have hsplit : splitLines (keys ++ [chr '\n'])
      = ((splitLines keys).1 ++ [(splitLines keys).2], []) := by
    rw [splitLines_concat, splitKey, if_pos rfl]
  have hstops : (∃ l ∈ (splitLines (keys ++ [chr '\n'])).1,
      stops table.names returns (editLine l) = true) ↔ stops table.names returns line = true := by
    have hnone := h.halted_iff.mpr hrun
    simp only [hsplit, List.mem_append, List.mem_singleton, or_and_right, exists_or,
      exists_eq_left, hline]
    exact or_iff_right hnone
  have hhistory := h.history.recorded hrec
  rw [← remembered_concat, ← hserved] at hhistory
  have hcount : e.historyCount ≤ s.editor.historyCount + 1 := by
    by_cases hkept : line = [] ∨ s.editor.LastIs line
    · have := (hrec.kept hkept).2
      omega
    · rw [not_or] at hkept
      exact (hrec.added hkept.1 hkept.2).1.le
  have hall : List.Forall₂ (fun c d => c.1 = d.1 ∧ IsCString c.2 d.2)
      (KiOS.calls (logPutchar (chr '\n') s.events ++ did))
      ((servedLines table.names returns (keys ++ [chr '\n'])).filterMap
        (commandOf table.names)) := by
    have hlast : [line].filterMap (commandOf table.names)
        = (commandOf table.names line).toList := by
      cases hcmd : commandOf table.names line with
      | none => exact List.filterMap_cons_none hcmd
      | some d => exact List.filterMap_cons_some hcmd
    have hnewline : KiOS.calls (logPutchar (chr '\n') s.events) = KiOS.calls s.events :=
      (calls_append _ _).trans (List.append_nil _)
    rw [hserved, List.filterMap_append, hlast, calls_append, hnewline]
    exact List.rel_append h.calls hcalls
  have hkey : sessionKey table.entries returns (chr '\n') s
      = if stopped returns did then
          some ⟨s.keyboard, e, logPutchar (chr '\n') s.events ++ did, true⟩
        else sessionPrompt ⟨s.keyboard, e, logPutchar (chr '\n') s.events ++ did, s.halted⟩ := by
    rw [sessionKey, if_pos rfl, hreturn, Option.bind_eq_bind, Option.bind_some]
    dsimp only
    rw [hdid]
    rfl
  rw [hkey, hstopped]
  cases hstop : stops table.names returns line with
  | true =>
      refine ⟨_, if_pos rfl, ⟨hall, ?_, fun hno => (Bool.noConfusion hno), hhistory⟩,
        hsized, rfl, hcount⟩
      rw [hstops]
      exact iff_of_true rfl hstop
  | false =>
      obtain ⟨e', hprompt, hempty, hsized', hhist, hcount'⟩ :=
        sessionPrompt_spec (s := ⟨s.keyboard, e, logPutchar (chr '\n') s.events ++ did, s.halted⟩)
          hsized
      refine ⟨_, (if_neg Bool.false_ne_true).trans hprompt, ⟨?_, ?_, fun _ => ?_, ?_⟩, hsized', rfl,
        hcount'.le.trans hcount⟩
      · rw [calls_append]
        exact (List.append_nil (KiOS.calls _)).symm ▸ hall
      · rw [hstops, hstop]
        exact iff_of_false (by rw [hrun]; decide) Bool.false_ne_true
      · rw [hsplit]
        exact hempty
      · exact hhistory.congr hhist hcount'

end SessionOk

/-- The invariant, for the scancodes so far. -/
structure SessionInv (names : List Chars) (returns : ℕ → Chars → Bool) (kb : KbModifiers)
    (done : List (BitVec 8)) (s : Session) : Prop where
  ok : SessionOk names returns (kbFeed done kb).1 s
  sized : s.editor.Sized
  keyboard : s.halted = false → s.keyboard = (kbFeed done kb).2
  count : s.editor.historyCount ≤ done.length

namespace SessionInv

variable {kb : KbModifiers} {done : List (BitVec 8)} {s : Session}

/-- Before the first key. -/
lemma start (hcalls : calls s.events = []) (hrun : s.halted = false) (hline : s.editor.Holds [])
    (hs : s.editor.Sized) (hcount : s.editor.historyCount = 0) (hkb : s.keyboard = kb) :
    SessionInv names returns kb [] s where
  ok :=
    { calls := by
        rw [hcalls]
        exact .nil
      halted := by
        rw [hrun]
        exact iff_of_false Bool.false_ne_true fun ⟨_, hline, _⟩ => List.not_mem_nil hline
      line := fun _ => hline
      history := ⟨hcount, fun _ hk => absurd hk (Nat.not_lt_zero _)⟩ }
  sized := hs
  keyboard _ := hkb
  count := hcount.le

/-- **A scancode more.** -/
lemma scancode (table : CommandTable) (h : SessionInv table.names returns kb done s)
    (scancode : BitVec 8) :
    ∃ s', sessionScancode table.entries returns s scancode = some s'
      ∧ SessionInv table.names returns kb (done ++ [scancode]) s' := by
  have hlen : ((done ++ [scancode]).length : ℤ) = done.length + 1 := by
    rw [List.length_append, List.length_singleton, Nat.cast_succ]
  have hle := h.count
  by_cases hhalted : s.halted = true
  · refine ⟨s, if_pos hhalted, ?_, h.sized, fun hrun => ?_, by omega⟩
    · rw [kbFeed_concat]
      split_ifs
      · exact h.ok.ignored hhalted _
      · exact (List.append_nil (kbFeed done kb).1).symm ▸ h.ok
    · rw [hhalted] at hrun
      cases hrun
  · have hrun : s.halted = false := Bool.not_eq_true _ |>.mp hhalted
    have hstep : sessionScancode table.entries returns s scancode
        = if (kbScancodeToAscii scancode (kbFeed done kb).2).1 ≠ 0 then
            sessionKey table.entries returns (kbScancodeToAscii scancode (kbFeed done kb).2).1
              { s with keyboard := (kbScancodeToAscii scancode (kbFeed done kb).2).2 }
          else some { s with keyboard := (kbScancodeToAscii scancode (kbFeed done kb).2).2 } := by
      rw [sessionScancode, if_neg hhalted, h.keyboard hrun]
    have hfeed := kbFeed_concat done scancode kb
    rw [hstep]
    generalize kbScancodeToAscii scancode (kbFeed done kb).2 = r at *
    have hok : SessionOk table.names returns (kbFeed done kb).1 { s with keyboard := r.2 } :=
      ⟨h.ok.calls, h.ok.halted, h.ok.line, h.ok.history⟩
    by_cases hc : r.1 ≠ 0
    · rw [if_pos hc] at hfeed ⊢
      by_cases hreturn : r.1 = chr '\n'
      · rw [hreturn] at hfeed ⊢
        obtain ⟨s', hkey, hok', hs', hkb, hle'⟩ := hok.returned table h.sized hrun
        refine ⟨s', hkey, by rwa [hfeed], hs', fun _ => by rw [hfeed, hkb], ?_⟩
        dsimp only at hle'
        omega
      · obtain ⟨s', hkey, hok', hs', -, hkb, hle'⟩ := hok.edited table.entries h.sized hrun hreturn
        refine ⟨s', hkey, by rwa [hfeed], hs', fun _ => by rw [hfeed, hkb], ?_⟩
        dsimp only at hle'
        omega
    · rw [if_neg hc, List.append_nil] at hfeed
      rw [if_neg hc]
      refine ⟨_, rfl, by rwa [hfeed], h.sized, fun _ => by rw [hfeed], ?_⟩
      dsimp only
      omega

end SessionInv

/-- **A session of the shell**: for every sequence of scancodes no array is left, the commands
called are those of the lines typed, in their order and with their arguments, up to one that does
not return, the buffer holds the rest, and the history the last lines, none empty and none twice in
a row. -/
theorem shell_session (table : CommandTable) (returns : ℕ → Chars → Bool) (kb : KbModifiers)
    (e : LineEditor) (he : e.Sized) (hcount : e.historyCount = 0) (scancodes : List (BitVec 8))
    (hlen : scancodes.length < 2 ^ 31) :
    ∃ s, shellRun table.entries returns scancodes kb e = some s
      ∧ SessionOk table.names returns (kbFeed scancodes kb).1 s
      ∧ s.editor.historyCount < 2 ^ 31 := by
  obtain ⟨e', hprompt, hempty, hsized, -, hcount'⟩ :=
    sessionPrompt_spec (s := ⟨kb, e, [], false⟩) he
  have hstart : SessionInv table.names returns kb [] ⟨kb, e', promptEvents, false⟩ :=
    .start rfl rfl hempty hsized (hcount'.trans hcount) rfl
  obtain ⟨s, hrun, hinv⟩ := foldlM_invariant (f := sessionScancode table.entries returns)
    (SessionInv table.names returns kb) hstart
    fun done scancode _ (_ : scancodes = _) s h => h.scancode table scancode
  refine ⟨s, ?_, hinv.ok, ?_⟩
  · rw [shellRun, hprompt]
    exact hrun
  · have hle := hinv.count
    omega

/-- The keys `m`, `e`, `m` and Enter, each pressed and released. -/
def memKeys : List (BitVec 8) := [0x32, 0xB2, 0x12, 0x92, 0x32, 0xB2, 0x1C, 0x9C]

/-- They call the command `mem`, without arguments. -/
theorem shell_session_mem :
    ∃ s, shellRun shellCommands.entries (fun i _ => i ≠ 14) memKeys ⟨false, false, false, false⟩
        shellAtBoot = some s
      ∧ ∃ args, calls s.events = [(5, args)] ∧ IsCString args [] := by
  obtain ⟨s, hrun, hok, -⟩ := shell_session shellCommands (fun i _ => i ≠ 14)
    ⟨false, false, false, false⟩ shellAtBoot shellAtBoot_sized rfl memKeys (by decide)
  refine ⟨s, hrun, ?_⟩
  have hcalls := hok.calls
  have hserved : (servedLines shellCommands.names (fun i _ => i ≠ 14)
      (kbFeed memKeys ⟨false, false, false, false⟩).1).filterMap (commandOf shellCommands.names)
      = [(5, [])] := by decide
  rw [hserved] at hcalls
  obtain ⟨⟨i, args⟩, cs, ⟨hi, hargs⟩, hcs, heq⟩ := List.forall₂_cons_right_iff.mp hcalls
  obtain rfl := List.forall₂_nil_right_iff.mp hcs
  obtain rfl : i = 5 := hi
  exact ⟨args, heq, hargs⟩

end KiOS
