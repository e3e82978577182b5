import KiOS.Task.Scheduler
import KiOS.Task.Runs
import KiOS.Library.Cyclic

/-!
How long a task waits for its turn.

* `RoundRun`, `roundMachine`: the scheduler without `task_create`, with the task that each call of
  `task_switch` leaves as the current one;
* `Sched.dist`: the steps from one task to another in the table, around its end;
* `switch_closer`: a switch selects a task that is closer to one that waits;
* `BoundedWait`: what a run owes to a waiting task;
* `round_robin`: every run owes it.
-/

namespace KiOS

/-- The scheduler with the calls of `task_switch` so far. -/
structure RoundRun where
  sched : Sched
  calls : ℕ
  /-- The current task after each call. -/
  selected : List Ptr

inductive RoundEvent where
  | sleep (ticks : BitVec 64)
  | exit
  | switch (currentRegs : Ptr)
  /-- `pit_ticks` takes another value. -/
  | ticks (value : BitVec 64)

/-- `task_switch`. -/
def RoundRun.switch (r : RoundRun) (currentRegs : Ptr) : RoundRun :=
  let s := (taskSwitch currentRegs r.sched).2
  { sched := s, calls := r.calls + 1, selected := r.selected ++ s.currentTask.toList }

/-- Any use of the scheduler that creates no task. -/
def roundMachine : EventMachine RoundRun RoundEvent where
  admissible _ _ := True
  step r
    | .sleep ticks => some { r with sched := taskSleep ticks r.sched }
    | .exit => some { r with sched := taskExit r.sched }
    | .switch currentRegs => some (r.switch currentRegs)
    | .ticks value => some { r with sched := { r.sched with pitTicks := value } }

/-- The steps from `u` to `t` in a table. -/
def tableDist (list : List Ptr) (u t : Ptr) : ℕ :=
  cyclicDist list.length (list.idxOf u) (list.idxOf t)

/-- The calls before `t` is selected. -/
def RoundRun.before (r : RoundRun) (t : Ptr) : List Ptr := r.selected.takeWhile fun u => u ≠ t

/-- What a run from a table with the current task `cur` owes to a waiting task `t`. -/
structure BoundedWait (list : List Ptr) (cur t : Ptr) (r : RoundRun) : Prop where
  /-- Each call selects some task. -/
  calls : r.selected.length = r.calls
  /-- Until `t` is selected every call selects a task closer to it. -/
  closer : (cur :: r.before t).Pairwise fun u v => tableDist list v t < tableDist list u t
  /-- It is selected by one of the next calls, as many as it is away. -/
  within : tableDist list cur t ≤ r.calls → t ∈ r.selected.take (tableDist list cur t)
  /-- No task is selected twice before. -/
  once : (r.before t).Nodup

/-! ### One switch -/

variable {s : Sched} {cur t u v regs : Ptr} {list : List Ptr}

lemma tableDist_pos (hu : u ∈ list) (ht : t ∈ list) (h : u ≠ t) : 0 < tableDist list u t :=
  cyclicDist_pos (List.idxOf_lt_length_iff.mpr hu) (List.idxOf_lt_length_iff.mpr ht)
    fun heq => h (List.idxOf_inj hu |>.mp heq)

/-- The search starts behind the current task. -/
lemma startIdx_eq (hcur : s.currentTask = some cur) (hmem : cur ∈ s.taskList) :
    s.startIdx = (s.taskList.idxOf cur + 1) % s.taskList.length := by
  have hfind : s.taskList.findIdx? (fun t => some t == s.currentTask)
      = some (s.taskList.idxOf cur) := by
    have hsame : (fun t => some t == some cur) = fun t => t == cur := by
      funext t
      exact Option.some_beq_some
    rw [hcur, hsame, List.findIdx?_eq_some_iff_findIdx_eq]
    exact ⟨List.idxOf_lt_length_iff.mpr hmem, rfl⟩
  rw [Sched.startIdx, hfind]

/-- **A switch** selects a task closer to one that waits, or that one. -/
lemma selected_closer (hnodup : s.taskList.Nodup) (hcur : s.currentTask = some cur)
    (hmem : cur ∈ s.taskList) (ht : t ∈ s.taskList) (hne : cur ≠ t) (helig : s.Eligible t)
    (hsel : s.selected = some u) :
    tableDist s.taskList u t < tableDist s.taskList cur t := by
  have hsearch : (cyclicOrder s.taskList s.startIdx).find? _ = some u := hsel
  obtain ⟨k, hk, hfound, hpassed⟩ := cyclicOrder_find? hsearch
  have hcurLt : s.taskList.idxOf cur < s.taskList.length := List.idxOf_lt_length_iff.mpr hmem
  have htLt : s.taskList.idxOf t < s.taskList.length := List.idxOf_lt_length_iff.mpr ht
  have hpos := tableDist_pos hmem ht hne
  have hstart : ∀ i, (s.startIdx + i) % s.taskList.length
      = (s.taskList.idxOf cur + (i + 1)) % s.taskList.length := by
    intro i
    rw [startIdx_eq hcur hmem, Nat.mod_add_mod, Nat.add_assoc, Nat.add_comm 1 i]
  -- the search does not pass the waiting task
  have hle : k + 1 ≤ tableDist s.taskList cur t := by
    by_contra hlt
    have hat : s.taskList[(s.startIdx + (tableDist s.taskList cur t - 1)) % s.taskList.length]?
        = some t := by
      rw [hstart, Nat.sub_add_cancel hpos, tableDist, add_cyclicDist hcurLt htLt]
      exact List.getElem?_idxOf ht
    have hno := hpassed _ (by omega) t hat
    exact absurd helig (of_decide_eq_false hno)
  have hidx : s.taskList.idxOf u = (s.taskList.idxOf cur + (k + 1)) % s.taskList.length := by
    rw [hstart] at hfound
    obtain ⟨hlt, rfl⟩ := List.getElem?_eq_some_iff.mp hfound
    exact hnodup.idxOf_getElem _ hlt
  have hadd := cyclicDist_add hcurLt htLt hle
  rw [tableDist, hidx, hadd, tableDist]
  rw [tableDist] at hpos
  omega

/-- **What a switch does**: it selects a task of the table, leaves the other ones alone, and comes
closer to each one that waits. -/
lemma taskSwitch_selects (hnodup : s.taskList.Nodup) (hcur : s.currentTask = some cur)
    (hmem : cur ∈ s.taskList) (regs : Ptr) :
    ∃ u ∈ s.taskList, (taskSwitch regs s).2.currentTask = some u
      ∧ (taskSwitch regs s).2.taskList = s.taskList
      ∧ (∀ v, v ≠ cur → v ≠ u → (taskSwitch regs s).2.tcb v = s.tcb v)
      ∧ ∀ t ∈ s.taskList, t ≠ cur → (s.tcb t).pid ≠ 0 → (s.tcb t).state = .ready →
        tableDist s.taskList u t < tableDist s.taskList cur t := by
  have hsaved : ∀ v, v ≠ cur → (s.saved regs).tcb v = s.tcb v := by
    intro v hv
    refine Sched.saved_tcb_ne fun heq => hv ?_
    rw [hcur] at heq
    exact (Option.some.inj heq).symm
  have helig : ∀ t, t ≠ cur → (s.tcb t).pid ≠ 0 → (s.tcb t).state = .ready →
      (s.saved regs).Eligible t := by
    intro t ht hpid hready
    rw [Sched.Eligible, hsaved t ht]
    exact ⟨hpid, Or.inl hready⟩
  have hlist : (s.saved regs).taskList = s.taskList := Sched.saved_taskList
  have hcur' : (s.saved regs).currentTask = some cur := Sched.saved_currentTask.trans hcur
  cases hsel : (s.saved regs).selected with
  | none =>
      have hnil : s.taskList ≠ [] := List.ne_nil_of_mem hmem
      rw [taskSwitch_none hsel, hcur]
      dsimp only
      rw [if_neg hnil]
      refine ⟨cur, hmem, hcur', hlist, fun v hv _ => ?_, fun t ht hne hpid hready => ?_⟩
      · rw [Sched.setState_tcb_ne _ hv, hsaved v hv]
      · exact absurd (helig t hne hpid hready)
          (Sched.selected_eq_none.mp hsel t (hlist.symm ▸ ht))
  | some u =>
      have hu := (Sched.selected_some hsel).1
      rw [hlist] at hu
      rw [taskSwitch_found hsel]
      refine ⟨u, hu, rfl, hlist, fun v hv hvu => ?_, fun t ht hne hpid hready => ?_⟩
      · exact (Sched.setState_tcb_ne _ hvu).trans (hsaved v hv)
      · have hcloser := selected_closer (s := s.saved regs) (by rwa [hlist]) hcur'
          (by rwa [hlist]) (by rwa [hlist]) hne.symm (helig t hne hpid hready) hsel
        rwa [hlist] at hcloser

/-! ### Runs -/

/-- The invariant of a run: `list` is the table, `cur` the current task at first. -/
structure RoundInv (list : List Ptr) (cur t : Ptr) (r : RoundRun) : Prop where
  taskList : r.sched.taskList = list
  calls : r.selected.length = r.calls
  mem : ∀ u ∈ r.selected, u ∈ list
  closer : (cur :: r.before t).Pairwise fun u v => tableDist list v t < tableDist list u t
  current : ∃ u ∈ list, r.sched.currentTask = some u
    ∧ (t ∉ r.selected → u ≠ t ∧ ∀ v ∈ cur :: r.before t, tableDist list u t ≤ tableDist list v t)
  /-- Until it is selected the task waits. -/
  waiting : t ∉ r.selected → (r.sched.tcb t).pid ≠ 0 ∧ (r.sched.tcb t).state = .ready

namespace RoundInv

variable {r r' : RoundRun} {e : RoundEvent}

lemma init (hmem : cur ∈ s.taskList) (hcur : s.currentTask = some cur) (hne : cur ≠ t)
    (hpid : (s.tcb t).pid ≠ 0) (hready : (s.tcb t).state = .ready) :
    RoundInv s.taskList cur t ⟨s, 0, []⟩ := by
  refine ⟨rfl, rfl, fun u hu => absurd hu List.not_mem_nil, List.pairwise_singleton ..,
    ⟨cur, hmem, hcur, fun _ => ⟨hne, fun v hv => ?_⟩⟩, fun _ => ⟨hpid, hready⟩⟩
  rw [List.mem_singleton.mp hv]

/-- What changes the current task or the ticks only. -/
lemma of_tcb (h : RoundInv list cur t r) {s : Sched} (hlist : s.taskList = r.sched.taskList)
    (hcur : s.currentTask = r.sched.currentTask)
    (htcb : ∀ u, r.sched.currentTask ≠ some u → s.tcb u = r.sched.tcb u) :
    RoundInv list cur t { r with sched := s } := by
  refine ⟨hlist.trans h.taskList, h.calls, h.mem, h.closer, ?_, fun hnot => ?_⟩
  · dsimp only
    rw [hcur]
    exact h.current
  · obtain ⟨u, -, hu, hwait⟩ := h.current
    have hne : r.sched.currentTask ≠ some t := by
      rw [hu]
      exact fun heq => (hwait hnot).1 (Option.some.inj heq)
    dsimp only
    rw [htcb t hne]
    exact h.waiting hnot

/-- The tasks selected before `t`. -/
lemma mem_before (h : u ∈ r.before t) : u ∈ r.selected ∧ u ≠ t := by
  have hne : decide (u ≠ t) = true :=
    List.mem_takeWhile_imp (p := fun u => decide (u ≠ t)) (l := r.selected) h
  exact ⟨(List.takeWhile_prefix _).subset h, of_decide_eq_true hne⟩

/-- The calls before `t` once it has been selected. -/
lemma before_switch (h : t ∈ r.selected) (regs : Ptr) : (r.switch regs).before t = r.before t := by
  have hpart : (r.before t).length ≠ r.selected.length := by
    intro heq
    have hall : r.before t = r.selected := (List.takeWhile_prefix _).eq_of_length heq
    have hmem : t ∈ r.before t := hall ▸ h
    exact (mem_before hmem).2 rfl
  exact List.takeWhile_append.trans (if_neg hpart)

/-- The calls before `t` as long as it waits. -/
lemma before_of_not_mem (h : t ∉ r.selected) : r.before t = r.selected := by
  refine List.takeWhile_eq_self_iff.mpr fun u hu => decide_eq_true ?_
  rintro rfl
  exact h hu

/-- **A call of `task_switch`.** -/
lemma switch (hnodup : list.Nodup) (ht : t ∈ list) (h : RoundInv list cur t r) (regs : Ptr) :
    RoundInv list cur t (r.switch regs) := by
  obtain ⟨hlist, hcalls, hmem, hcloser, ⟨u, hu, hcur, hwait⟩, hwaiting⟩ := h
  subst hlist
  obtain ⟨v, hv, hcur', hlist', htcb, hdist⟩ := taskSwitch_selects hnodup hcur hu regs
  have hsel : (r.switch regs).selected = r.selected ++ [v] := by
    rw [RoundRun.switch]
    dsimp only
    rw [hcur']
    rfl
  have hcalls' : (r.switch regs).selected.length = (r.switch regs).calls := by
    rw [hsel, List.length_append, hcalls]
    rfl
  have hmem' : ∀ w ∈ (r.switch regs).selected, w ∈ r.sched.taskList := by
    intro w hw
    rw [hsel] at hw
    cases List.mem_append.mp hw with
    | inl hold => exact hmem w hold
    | inr hnew => exact List.mem_singleton.mp hnew ▸ hv
  by_cases hin : t ∈ r.selected
  · have hin' : t ∈ (r.switch regs).selected := hsel ▸ List.mem_append_left _ hin
    refine ⟨hlist', hcalls', hmem', ?_, ⟨v, hv, hcur', fun hn => absurd hin' hn⟩,
      fun hn => absurd hin' hn⟩
    rw [before_switch hin]
    exact hcloser
  · obtain ⟨hne, hlast⟩ := hwait hin
    obtain ⟨hpid, hready⟩ := hwaiting hin
    have hvdist := hdist t ht hne.symm hpid hready
    by_cases hvt : v = t
    · -- it is its turn
      subst hvt
      have hin' : v ∈ (r.switch regs).selected := hsel ▸ List.mem_append_right _ List.mem_cons_self
      have hbefore : (r.switch regs).before v = r.before v := by
        rw [before_of_not_mem hin, RoundRun.before, hsel, List.takeWhile_append_of_pos]
        · simp
        · intro w hw
          refine decide_eq_true ?_
          rintro rfl
          exact hin hw
      refine ⟨hlist', hcalls', hmem', ?_, ⟨v, hv, hcur', fun hn => absurd hin' hn⟩,
        fun hn => absurd hin' hn⟩
      rw [hbefore]
      exact hcloser
    · have hin' : t ∉ (r.switch regs).selected := by
        rw [hsel]
        intro hmem'
        cases List.mem_append.mp hmem' with
        | inl hold => exact hin hold
        | inr hnew => exact hvt (List.mem_singleton.mp hnew).symm
      have hbefore : (r.switch regs).before t = r.before t ++ [v] := by
        rw [before_of_not_mem hin', before_of_not_mem hin, hsel]
      refine ⟨hlist', hcalls', hmem', ?_, ⟨v, hv, hcur', fun _ => ⟨hvt, fun w hw => ?_⟩⟩,
        fun _ => ?_⟩
      · rw [hbefore, ← List.cons_append, List.pairwise_append]
        refine ⟨hcloser, List.pairwise_singleton .., fun w hw x hx => ?_⟩
        rw [List.mem_singleton.mp hx]
        exact hvdist.trans_le (hlast w hw)
      · rw [hbefore, ← List.cons_append] at hw
        cases List.mem_append.mp hw with
        | inl hold => exact hvdist.le.trans (hlast w hold)
        | inr hnew => rw [List.mem_singleton.mp hnew]
      · have hsame : (r.switch regs).sched.tcb t = r.sched.tcb t :=
          htcb t hne.symm fun heq => hvt heq.symm
        rw [hsame]
        exact ⟨hpid, hready⟩

lemma step (hnodup : list.Nodup) (ht : t ∈ list) (h : RoundInv list cur t r)
    (hst : roundMachine.step r e = some r') : RoundInv list cur t r' := by
  obtain ⟨u, -, hcur, -⟩ := h.current
  have hother : ∀ task, ∀ v, r.sched.currentTask ≠ some v →
      Function.update r.sched.tcb u task v = r.sched.tcb v := by
    intro task v hv
    refine Function.update_of_ne ?_ ..
    rintro rfl
    exact hv hcur
  cases e with
  | sleep ticks =>
      obtain rfl := Option.some.inj hst
      have hsleep : taskSleep ticks r.sched
          = { r.sched with
              tcb := Function.update r.sched.tcb u
                { r.sched.tcb u with
                  state := .sleeping, sleepUntil := r.sched.pitTicks + ticks } } := by
        simp only [taskSleep, hcur]
      rw [hsleep]
      exact h.of_tcb rfl rfl (hother _)
  | exit =>
      obtain rfl := Option.some.inj hst
      have hexit : taskExit r.sched = r.sched.setState u .zombie := by
        rw [taskExit, hcur]
      rw [hexit]
      exact h.of_tcb rfl rfl (hother _)
  | switch currentRegs =>
      obtain rfl := Option.some.inj hst
      exact h.switch hnodup ht currentRegs
  | ticks value =>
      obtain rfl := Option.some.inj hst
      exact h.of_tcb rfl rfl fun _ _ => rfl

lemma boundedWait (ht : t ∈ list) (hmem : cur ∈ list) (hne : cur ≠ t) (h : RoundInv list cur t r) :
    BoundedWait list cur t r := by
  have hpos : ∀ u ∈ cur :: r.before t, 0 < tableDist list u t := by
    intro u hu
    cases List.mem_cons.mp hu with
    | inl hfirst =>
        rw [hfirst]
        exact tableDist_pos hmem ht hne
    | inr hrest =>
        obtain ⟨hsel, hut⟩ := mem_before hrest
        exact tableDist_pos (h.mem u hsel) ht hut
  have hlen := length_lt_of_pairwise h.closer hpos
  refine ⟨h.calls, h.closer, fun hd => ?_, ?_⟩
  · -- else all of them would be passed before
    by_contra hnot
    have hall : ∀ u ∈ r.selected.take (tableDist list cur t), decide (u ≠ t) = true := by
      intro u hu
      refine decide_eq_true ?_
      rintro rfl
      exact hnot hu
    have hsplit : r.before t = r.selected.take (tableDist list cur t)
        ++ (r.selected.drop (tableDist list cur t)).takeWhile fun u => u ≠ t := by
      rw [← List.takeWhile_append_of_pos hall, List.take_append_drop]
      rfl
    have hle := congrArg List.length hsplit
    rw [List.length_append, List.length_take, h.calls] at hle
    omega
  · have hpair := (List.pairwise_cons.mp h.closer).2
    refine hpair.imp fun hlt => ?_
    rintro rfl
    exact lt_irrefl _ hlt

end RoundInv

/-- **Round robin**: a task that is ready gets its turn after at most as many switches as it is
away from the current task in the table, whatever the others do meanwhile, and none of them gets
two turns before. -/
theorem round_robin {c j : ℕ} (hnodup : s.taskList.Nodup) (hc : s.taskList[c]? = some cur)
    (hcur : s.currentTask = some cur) (hj : s.taskList[j]? = some t) (hne : j ≠ c)
    (hpid : (s.tcb t).pid ≠ 0) (hready : (s.tcb t).state = .ready) {es : List RoundEvent}
    {r : RoundRun} (hrun : roundMachine.Run ⟨s, 0, []⟩ es r) :
    tableDist s.taskList cur t = (j + s.taskList.length - c) % s.taskList.length
      ∧ BoundedWait s.taskList cur t r := by
  obtain ⟨hcLt, hcEq⟩ := List.getElem?_eq_some_iff.mp hc
  obtain ⟨hjLt, hjEq⟩ := List.getElem?_eq_some_iff.mp hj
  have hcIdx : s.taskList.idxOf cur = c := by
    rw [← hcEq]
    exact hnodup.idxOf_getElem c hcLt
  have hjIdx : s.taskList.idxOf t = j := by
    rw [← hjEq]
    exact hnodup.idxOf_getElem j hjLt
  have hmem : cur ∈ s.taskList := List.mem_of_getElem? hc
  have ht : t ∈ s.taskList := List.mem_of_getElem? hj
  have hct : cur ≠ t := by
    rintro rfl
    exact hne (hjIdx.symm.trans hcIdx)
  refine ⟨by rw [tableDist, hcIdx, hjIdx, cyclicDist], ?_⟩
  have hinv := EventMachine.Run.invariant (I := RoundInv s.taskList cur t)
    (RoundInv.init hmem hcur hct hpid hready) (fun _ _ _ hr _ hst => hr.step hnodup ht hst) hrun
  exact hinv.boundedWait ht hmem hct

/-- A table of the idle task and three others; the first of them runs. -/
def roundTable : Sched where
  tcb t := { (default : Task) with
    pid := (t >>> 12).setWidth 32, state := if t = 0x1000 then .running else .ready }
  frame := fun _ => default
  taskList := [0x0800, 0x1000, 0x2000, 0x3000]
  currentTask := some 0x1000
  nextPid := 4
  pitTicks := 0

/-- Two switches later. -/
def roundTwice : RoundRun := (RoundRun.switch ⟨roundTable, 0, []⟩ 0x8000).switch 0x9000

/-- The last task of the table, two steps away, has got its turn then. -/
theorem round_robin_last :
    tableDist roundTable.taskList 0x1000 0x3000 = (3 + 4 - 1) % 4
      ∧ BoundedWait roundTable.taskList 0x1000 0x3000 roundTwice
      ∧ roundTwice.calls = 2 ∧ roundTwice.selected = [0x2000, 0x3000] := by
  have hrun : roundMachine.Run ⟨roundTable, 0, []⟩ ([.switch 0x8000] ++ [.switch 0x9000])
      roundTwice :=
    (EventMachine.Run.single (M := roundMachine) trivial rfl).snoc trivial rfl
  obtain ⟨hdist, hwait⟩ := round_robin (c := 1) (j := 3) (by decide) rfl rfl rfl (by decide)
    (by decide) rfl hrun
  exact ⟨hdist, hwait, rfl, by decide⟩

end KiOS
