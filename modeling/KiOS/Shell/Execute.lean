import KiOS.Drivers.Vga
import KiOS.Text.CString

/-!
The command dispatch of the shell (`shell_execute`).

* `ShellEvent`: a call of a command, or output;
* `shellExecute`: the function of the source, with the names of `shell_commands` as a parameter;
* `CommandTable`: names that are distinct, not empty and free of spaces; `shellCommands`: those of
  `commands.c`;
* `token`, `arguments`: the first word of a line, and what follows it;
* `findCommand_spec`: the loop finds the entry whose name is the token;
* `dispatch_exact`: this entry is called, with the arguments, and no other.
-/

namespace KiOS

/-- What `shell_execute` does: `shell_commands[i].func(args)`, and its output. -/
inductive ShellEvent
  | call (i : ℕ) (args : Chars)
  | printColored (str : Chars) (fg bg : BitVec 32)
  | putchar (c : BitVec 8)
  | println (str : Chars)
  deriving DecidableEq

/-- `c == ' '`. -/
def isSpace (c : BitVec 8) : Bool := c == chr ' '

/-- `*args && *args != ' '`. -/
def isWord (c : BitVec 8) : Bool := c != 0 && !isSpace c

/-- The loop over `shell_commands`, from index `i` on: the entry that matches, if there is one. -/
def findCommand (cmd : Chars) (cmdLen : ℕ) : ℕ → List Chars → Option (Option ℕ)
  | _, [] => some none
  | i, name :: names => do
      let r ← strncmp cmd name cmdLen
      if r = 0 then
        let len ← strlen name
        if len = cmdLen then some (some i) else findCommand cmd cmdLen (i + 1) names
      else findCommand cmd cmdLen (i + 1) names

/-- `for (i = 0; i < cmd_len; i++) vga_putchar(cmd[i])`. -/
def putToken (cmd : Chars) (cmdLen : ℕ) : Option (List ShellEvent) :=
  (List.range cmdLen).mapM fun i : ℕ => (loadAt cmd i).map .putchar

/-- `shell_execute`. -/
def shellExecute (names : List Chars) (cmd : Chars) : Option (List ShellEvent) := do
  let cmd ← skipWhile isSpace cmd
  let c ← loadAt cmd 0
  if c = 0 then some []
  else
    let args ← skipWhile isWord cmd
    let cmdLen := cmd.length - args.length
    let args ← skipWhile isSpace args
    match ← findCommand cmd cmdLen 0 names with
    | some i => some [.call i args]
    | none =>
        let chars ← putToken cmd cmdLen
        some ([.printColored (literal "Unknown command: ") 12 0] ++ chars
          ++ [.println (literal ""), .println (literal "Type 'help' for available commands.")])

/-- A table of commands: pointers to their names, and the names. -/
structure CommandTable where
  entries : List Chars
  names : List Chars
  spelled : List.Forall₂ IsCString entries names
  nodup : names.Nodup
  nonempty : [] ∉ names
  spaceFree : ∀ name ∈ names, chr ' ' ∉ name

/-- The first word of a line. -/
def token (line : Chars) : Chars := (line.dropWhile isSpace).takeWhile fun c => !isSpace c

/-- What follows the first word, from its first character that is no space on. -/
def arguments (line : Chars) : Chars :=
  ((line.dropWhile isSpace).dropWhile fun c => !isSpace c).dropWhile isSpace

/-- What is printed for an unknown token. -/
def unknownCommand (tok : Chars) : List ShellEvent :=
  [.printColored (literal "Unknown command: ") 12 0] ++ tok.map .putchar
    ++ [.println (literal ""), .println (literal "Type 'help' for available commands.")]

/-- The names in `shell_commands`. -/
def shellCommandNames : List String :=
  ["help", "clear", "info", "echo", "color", "mem", "mmap", "meminfo", "memtest", "time", "uptime",
    "tasks", "reboot", "shutdown", "halt", "netconf", "fault", "vmtest", "usertest"]

/-- `shell_commands`. -/
def shellCommands : CommandTable where
  entries := shellCommandNames.map literal
  names := shellCommandNames.map spelling
  spelled := by
    have hall : ∀ s ∈ shellCommandNames, IsCString (literal s) (spelling s) := by
      have hzero : ∀ s ∈ shellCommandNames, 0 ∉ spelling s := by decide
      exact fun s hs => ⟨hzero s hs, [], rfl⟩
    rw [List.forall₂_map_left_iff, List.forall₂_map_right_iff, List.forall₂_same]
    exact hall
  nodup := by decide
  nonempty := by decide
  spaceFree := by decide

variable {cmd line tok rest : Chars} {names entries : List Chars}

lemma isSpace_iff {c : BitVec 8} : isSpace c = true ↔ c = chr ' ' := beq_iff_eq

/-- The words of a string end at its spaces. -/
lemma takeWhile_isWord {cs : Chars} (h0 : 0 ∉ cs) :
    cs.takeWhile isWord = cs.takeWhile (fun c => !isSpace c)
      ∧ cs.dropWhile isWord = cs.dropWhile fun c => !isSpace c := by
  induction cs with
  | nil => exact ⟨rfl, rfl⟩
  | cons c cs ih =>
      rw [List.mem_cons, not_or] at h0
      have hc : isWord c = !isSpace c := by
        rw [isWord, bne_iff_ne.mpr (Ne.symm h0.1), Bool.true_and]
      rw [List.takeWhile_cons, List.takeWhile_cons, List.dropWhile_cons, List.dropWhile_cons, hc,
        (ih h0.2).1, (ih h0.2).2]
      exact ⟨rfl, rfl⟩

variable (rest) in
/-- **The loop** compares whole names: a prefix of the right length is the name. -/
lemma findCommand_spec (h0 : 0 ∉ tok) (h : List.Forall₂ IsCString entries names) (k : ℕ) :
    ∃ r, findCommand (tok ++ rest) tok.length k entries = some r
      ∧ (∀ j, r = some j → k ≤ j ∧ names[j - k]? = some tok) ∧ (r = none → tok ∉ names) := by
  induction h generalizing k with
  | nil => exact ⟨none, rfl, fun _ hj => (Option.some_ne_none _ hj.symm).elim,
      fun _ => List.not_mem_nil⟩
  | @cons entry name entries names hname hrest ih =>
      obtain ⟨r, hr, hiff⟩ := strncmp_spec rest h0 hname
      have hfound : tok = name ↔ r = 0 ∧ name.length = tok.length := by
        rw [hiff]
        constructor
        · rintro rfl
          exact ⟨List.prefix_rfl, rfl⟩
        · rintro ⟨hpre, hlen⟩
          exact hpre.eq_of_length hlen.symm
      have hstep : findCommand (tok ++ rest) tok.length k (entry :: entries)
          = if tok = name then some (some k)
            else findCommand (tok ++ rest) tok.length (k + 1) entries := by
        rw [findCommand, hr, strlen_spec hname]
        simp only [Option.bind_eq_bind, Option.bind_some]
        by_cases hr0 : r = 0
        · rw [if_pos hr0]
          exact if_congr (by rw [hfound, and_iff_right hr0]) rfl rfl
        · rw [if_neg hr0, if_neg fun he => hr0 (hfound.mp he).1]
      rw [hstep]
      split_ifs with hname'
      · refine ⟨some k, rfl, fun j hj => ?_, fun hn => by cases hn⟩
        rw [Option.some.injEq] at hj
        subst hj
        rw [Nat.sub_self, hname']
        exact ⟨le_rfl, rfl⟩
      · obtain ⟨r, hr, hsome, hnone⟩ := ih (k + 1)
        refine ⟨r, hr, fun j hj => ?_, fun hn => ?_⟩
        · obtain ⟨hle, hget⟩ := hsome j hj
          refine ⟨by omega, ?_⟩
          rw [show j - k = j - (k + 1) + 1 by omega, List.getElem?_cons_succ, hget]
        · rw [List.mem_cons, not_or]
          exact ⟨hname', hnone hn⟩

/-- The loop prints the token. -/
lemma putToken_spec (tok rest : Chars) :
    putToken (tok ++ rest) tok.length = some (tok.map .putchar) := by
  have hrun : ∀ n, n ≤ tok.length → (List.range n).mapM
      (fun i : ℕ => (loadAt (tok ++ rest) i).map ShellEvent.putchar)
        = some ((tok.take n).map .putchar) := by
    intro n
    induction n with
    | zero => exact fun _ => rfl
    | succ n ih =>
        intro hn
        have hlt : n < tok.length := hn
        have hload : loadAt (tok ++ rest) n = some tok[n] := by
          rw [loadAt_natCast, List.getElem?_append_left hlt, List.getElem?_eq_getElem hlt]
        rw [List.range_succ, List.mapM_append, ih hlt.le, List.take_succ_eq_append_getElem hlt,
          List.map_append]
        simp [hload]
  rw [putToken, hrun tok.length le_rfl, List.take_length]

lemma token_eq_nil_iff : token line = [] ↔ ∀ c ∈ line, c = chr ' ' := by
  induction line with
  | nil => exact iff_of_true rfl fun c hc => absurd hc List.not_mem_nil
  | cons c line ih =>
      rw [List.forall_mem_cons, ← ih, token, token]
      by_cases hc : isSpace c = true
      · rw [List.dropWhile_cons_of_pos hc, and_iff_right (isSpace_iff.mp hc)]
      · rw [List.dropWhile_cons_of_neg hc, List.takeWhile_cons_of_pos (by simpa using hc)]
        exact iff_of_false (List.cons_ne_nil _ _) fun he => hc (isSpace_iff.mpr he.1)

/-- What `shell_execute` does for a line: nothing if it has no token; otherwise the entry found is
called, or the token is printed. -/
lemma shellExecute_spec (h : IsCString cmd line) (hnames : List.Forall₂ IsCString entries names) :
    (token line = [] ∧ shellExecute entries cmd = some [])
      ∨ token line ≠ [] ∧ ((∃ i args, names[i]? = some (token line) ∧ args <:+ cmd
            ∧ IsCString args (arguments line) ∧ shellExecute entries cmd = some [.call i args])
          ∨ token line ∉ names
            ∧ shellExecute entries cmd = some (unknownCommand (token line))) := by
  obtain ⟨cmd₁, hskip₁, hcmd₁, happ₁⟩ := skipWhile_spec (f := isSpace) (by decide) h
  by_cases htok : token line = []
  · left
    refine ⟨htok, ?_⟩
    have hline : line.dropWhile isSpace = [] := by
      rw [List.dropWhile_eq_nil_iff]
      exact fun c hc => isSpace_iff.mpr (token_eq_nil_iff.mp htok c hc)
    rw [hline] at hcmd₁
    obtain ⟨rest, rfl⟩ := hcmd₁.2
    rw [shellExecute, hskip₁]
    rfl
  · right
    refine ⟨htok, ?_⟩
    -- the pointer is at the token, which ends where `args` starts
    obtain ⟨args₁, hskip₂, hargs₁, happ₂⟩ := skipWhile_spec (f := isWord) (by decide) hcmd₁
    obtain ⟨args, hskip₃, hargs, happ₃⟩ := skipWhile_spec (f := isSpace) (by decide) hargs₁
    rw [(takeWhile_isWord hcmd₁.1).2] at hargs
    rw [(takeWhile_isWord hcmd₁.1).1] at happ₂
    change cmd₁ = token line ++ args₁ at happ₂
    obtain ⟨c, tok, htok'⟩ := List.exists_cons_of_ne_nil htok
    have h0 : 0 ∉ token line := fun hmem => hcmd₁.1 (List.takeWhile_subset _ hmem)
    have hc : c ≠ 0 := fun hc => h0 (htok' ▸ hc ▸ List.mem_cons_self)
    have hload : loadAt cmd₁ 0 = some c := by
      rw [happ₂, htok']
      rfl
    have hlen : cmd₁.length - args₁.length = (token line).length := by
      rw [happ₂, List.length_append, Nat.add_sub_cancel]
    have hsuffix : args <:+ cmd := by
      have h1 : cmd₁ <:+ cmd := ⟨_, happ₁.symm⟩
      have h2 : args₁ <:+ cmd₁ := ⟨_, happ₂.symm⟩
      have h3 : args <:+ args₁ := ⟨_, happ₃.symm⟩
      exact h3.trans (h2.trans h1)
    obtain ⟨r, hfind, hsome, hnone⟩ := findCommand_spec args₁ h0 hnames 0
    rw [← happ₂] at hfind
    cases r with
    | some i =>
        refine Or.inl ⟨i, args, (hsome i rfl).2, hsuffix, hargs, ?_⟩
        simp only [shellExecute, hskip₁, hload, hskip₂, hskip₃, hlen, hfind, Option.bind_eq_bind,
          Option.bind_some, if_neg hc]
    | none =>
        refine Or.inr ⟨hnone rfl, ?_⟩
        have hput := putToken_spec (token line) args₁
        rw [← happ₂] at hput
        simp only [shellExecute, hskip₁, hload, hskip₂, hskip₃, hlen, hfind, hput,
          Option.bind_eq_bind, Option.bind_some, if_neg hc, unknownCommand]

/-- The calls among the events. -/
def calls (events : List ShellEvent) : List (ℕ × Chars) :=
  events.filterMap fun e => match e with
    | .call i args => some (i, args)
    | _ => none

lemma calls_unknownCommand (tok : Chars) : calls (unknownCommand tok) = [] := by
  have hchars : calls (tok.map .putchar) = [] := by
    rw [calls, List.filterMap_map]
    exact List.filterMap_eq_nil_iff.mpr fun c _ => rfl
  rw [unknownCommand, calls, List.filterMap_append, List.filterMap_append]
  change [] ++ calls (tok.map .putchar) ++ [] = []
  rw [hchars]
  rfl

/-- **Command dispatch is exact**: the entry whose name is the first word of the line is called,
with the rest of the line, and no other; an unknown word is printed, and for a line without words
nothing happens. -/
theorem dispatch_exact (table : CommandTable) {cmd line : Chars} (h : IsCString cmd line) :
    ∃ events, shellExecute table.entries cmd = some events
      ∧ (∀ i, (∃ args, (i, args) ∈ calls events) ↔ table.names[i]? = some (token line))
      ∧ (calls events).length ≤ 1
      ∧ (∀ i args, (i, args) ∈ calls events → args <:+ cmd ∧ IsCString args (arguments line))
      ∧ ((∀ c ∈ line, c = chr ' ') → events = [])
      ∧ (token line ≠ [] → token line ∉ table.names → events = unknownCommand (token line)) := by
  have hnone : ∀ events, calls events = [] → token line ∉ table.names →
      (∀ i, (∃ args, (i, args) ∈ calls events) ↔ table.names[i]? = some (token line))
        ∧ (calls events).length ≤ 1
        ∧ ∀ i args, (i, args) ∈ calls events → args <:+ cmd ∧ IsCString args (arguments line) := by
    intro events hcalls hmem
    rw [hcalls]
    refine ⟨fun i => iff_of_false ?_ ?_, Nat.zero_le _, fun i args hin => ?_⟩
    · rintro ⟨args, hin⟩
      exact List.not_mem_nil hin
    · exact fun hget => hmem (List.mem_of_getElem? hget)
    · exact absurd hin List.not_mem_nil
  rw [← token_eq_nil_iff]
  rcases shellExecute_spec h table.spelled with ⟨htok, hrun⟩ | ⟨htok, hcall | ⟨hmem, hrun⟩⟩
  · obtain ⟨hiff, hlen, hargs⟩ := hnone [] rfl (htok ▸ table.nonempty)
    exact ⟨[], hrun, hiff, hlen, hargs, fun _ => rfl, fun hne => absurd htok hne⟩
  · obtain ⟨i, args, hget, hsuffix, hargs, hrun⟩ := hcall
    have hmem : ∀ j args', (j, args') ∈ calls [.call i args] ↔ j = i ∧ args' = args := by
      intro j args'
      rw [show calls [.call i args] = [(i, args)] from rfl, List.mem_singleton, Prod.mk.injEq]
    refine ⟨_, hrun, fun j => ?_, le_rfl, fun j args' hin => ?_, fun he => absurd he htok,
      fun _ hno => absurd (List.mem_of_getElem? hget) hno⟩
    · constructor
      · rintro ⟨args', hin⟩
        rw [((hmem j args').mp hin).1, hget]
      · intro hj
        have hlt := (List.getElem?_eq_some_iff.mp hget).1
        exact ⟨args, (hmem j args).mpr
          ⟨((List.getElem?_inj hlt table.nodup).mp (hget.trans hj.symm)).symm, rfl⟩⟩
    · rw [((hmem j args').mp hin).2]
      exact ⟨hsuffix, hargs⟩
  · obtain ⟨hiff, hlen, hargs⟩ := hnone _ (calls_unknownCommand (token line)) hmem
    exact ⟨_, hrun, hiff, hlen, hargs, fun he => absurd he htok, fun _ _ => rfl⟩

/-- The line ` mem  x` calls entry 5, the command `mem`, and neither `meminfo` nor `memtest`. -/
theorem dispatch_exact_mem :
    ∃ events, shellExecute shellCommands.entries (literal " mem  x") = some events
      ∧ ∀ i, (∃ args, (i, args) ∈ calls events) ↔ i = 5 := by
  have hline : IsCString (literal " mem  x") (spelling " mem  x") := ⟨by decide, [], rfl⟩
  obtain ⟨events, hrun, hiff, -⟩ := dispatch_exact shellCommands hline
  refine ⟨events, hrun, fun i => (hiff i).trans ?_⟩
  have htok : token (spelling " mem  x") = spelling "mem" := by decide
  rw [htok]
  constructor
  · intro hget
    have hlt := (List.getElem?_eq_some_iff.mp hget).1
    exact (List.getElem?_inj hlt shellCommands.nodup).mp (hget.trans (by rfl))
  · rintro rfl
    rfl

end KiOS
