import Cmput379.Msh379.Survivors

/-!
# Who is killed

`SIGKILL` is sent by `terminate` and by `exitLoop`, and only the flag `running` keeps
them apart.

* `original_of_reachable`: the shell that was started first runs as if it were alone.
* `Accounting`, `accounting_of_reachable`: until `exit`, a task was killed once if its
  flag is off and never if it is on.
* `killAccounting`: what that means for the runs that end by `exit` or `quit`, the
  indices, and the flags.
-/

namespace Cmput379.Msh379

open Cmput379.Lib

/-! ## The original shell -/

/-- The original shell process: the parent goes on. -/
def original : System Shell (Text × Launch) where
  init sh := sh = Shell.initState
  step sh a := if sh.status = .looping then some (sh.command a.1 a.2).1 else none

/-- Process 0 takes its own steps only. -/
theorem original_of_reachable {procs : List Shell} (h : system.Reachable procs) :
    ∃ sh, procs[0]? = some sh ∧ original.Reachable sh := by
  refine h.invariant (I := fun procs => ∃ sh, procs[0]? = some sh ∧ original.Reachable sh) ?_ ?_
  · rintro _ rfl
    exact ⟨Shell.initState, rfl, .of_init rfl⟩
  · rintro procs a procs' - ⟨sh, hsh, hreach⟩ hstep
    obtain ⟨sh₁, hsh₁, hloop, rfl⟩ := command_of_step hstep
    by_cases hi : a.i = 0
    · rw [hi] at hsh₁ ⊢
      obtain rfl := Option.some.inj (hsh.symm.trans hsh₁)
      refine ⟨_, getElem?_set_append _ hsh _, hreach.step (a := (a.cmd, a.launch)) ?_⟩
      exact if_pos hloop
    · have hpos : 0 < procs.length := (List.getElem?_eq_some_iff.mp hsh).1
      refine ⟨sh, ?_, hreach⟩
      rw [List.getElem?_append_left (by simpa using hpos), List.getElem?_set_ne hi, hsh]

/-! ## Counting the kills -/

/-- `e` kills task `k`. -/
def Kill.Kills (k : ℕ) (e : Kill) : Bool := e.task = k && e.signal = .SIGKILL

/-- How often task `k` was sent `SIGKILL`. -/
def Shell.killed (sh : Shell) (k : ℕ) : ℕ := sh.kills.countP (Kill.Kills k)

theorem countP_eq_zero_of_task {kills : List Kill} {k : ℕ} (h : ∀ e ∈ kills, e.task ≠ k) :
    kills.countP (Kill.Kills k) = 0 := by
  rw [List.countP_eq_zero]
  intro e he hkills
  unfold Kill.Kills at hkills
  rw [Bool.and_eq_true, decide_eq_true_eq] at hkills
  exact h e he hkills.1

/-- The entries of `killAll` are those of the tasks that run. -/
theorem mem_killAll {e : Kill} {ts : List Task} : ∀ {j : ℕ}, e ∈ Shell.killAll j ts →
    ∃ i t, e.task = j + i ∧ ts[i]? = some t ∧ e.pid = t.pid := by
  induction ts with
  | nil => simp [Shell.killAll]
  | cons t ts ih =>
    intro j he
    rw [Shell.killAll, List.mem_append] at he
    rcases he with he | he
    · split_ifs at he
      · obtain rfl := List.mem_singleton.mp he
        exact ⟨0, t, rfl, rfl, rfl⟩
      · simp at he
    · obtain ⟨i, t', htask, ht', hpid⟩ := ih he
      exact ⟨i + 1, t', by omega, ht', hpid⟩

/-- `exitLoop` kills a task once if it runs. -/
theorem countP_killAll {ts : List Task} : ∀ {j i : ℕ} {t : Task}, ts[i]? = some t →
    (Shell.killAll j ts).countP (Kill.Kills (j + i)) = if t.running then 1 else 0 := by
  induction ts with
  | nil => simp
  | cons t₀ ts ih =>
    intro j i t ht
    rw [Shell.killAll, List.countP_append]
    cases i with
    | zero =>
      obtain rfl : t₀ = t := Option.some.inj ht
      have hrest : (Shell.killAll (j + 1) ts).countP (Kill.Kills (j + 0)) = 0 := by
        apply countP_eq_zero_of_task
        intro e he
        obtain ⟨i, -, htask, -⟩ := mem_killAll he
        omega
      rw [hrest]
      split_ifs <;> simp [Kill.Kills]
    | succ i =>
      have hfirst : (if t₀.running then [(⟨j, t₀.pid, .SIGKILL⟩ : Kill)] else []).countP
          (Kill.Kills (j + (i + 1))) = 0 := by
        apply countP_eq_zero_of_task
        intro e he
        split_ifs at he
        · obtain rfl := List.mem_singleton.mp he
          show j ≠ j + (i + 1)
          omega
        · simp at he
      have hindex : j + (i + 1) = j + 1 + i := by omega
      rw [hfirst, hindex, Nat.zero_add]
      exact ih ht

/-! ## The invariant -/

/-- How the tasks, their flags and the kills belong together. -/
structure Accounting (sh : Shell) : Prop where
  index : ∀ (k : ℕ) (t : Task), sh.allTasks[k]? = some t → t.index = k
  taskIndex : sh.taskIndex = sh.allTasks.length
  inRange : sh.status ≠ .outOfRange
  target : ∀ e ∈ sh.kills, ∃ t : Task, sh.allTasks[e.task]? = some t ∧ t.pid = e.pid
  killed : sh.status ≠ .exited → ∀ (k : ℕ) (t : Task), sh.allTasks[k]? = some t →
    sh.killed k = if t.running then 0 else 1
  exited : sh.status = .exited → ∀ k < sh.allTasks.length, sh.killed k = 1

/-- Between two states of the shell: a task stays, and so does a flag that is off. -/
def Keeps (sh sh' : Shell) : Prop :=
  ∀ (k : ℕ) (t : Task), sh.allTasks[k]? = some t → ∃ t' : Task,
    sh'.allTasks[k]? = some t' ∧ t'.pid = t.pid ∧ (t.running = false → t'.running = false)

theorem Keeps.refl (sh : Shell) : Keeps sh sh := fun _ t ht => ⟨t, ht, rfl, id⟩

theorem Keeps.trans {sh₁ sh₂ sh₃ : Shell} (h₁ : Keeps sh₁ sh₂) (h₂ : Keeps sh₂ sh₃) :
    Keeps sh₁ sh₃ := by
  intro k t ht
  obtain ⟨t', ht', hpid, hoff⟩ := h₁ k t ht
  obtain ⟨t'', ht'', hpid', hoff'⟩ := h₂ k t' ht'
  exact ⟨t'', ht'', hpid'.trans hpid, hoff' ∘ hoff⟩

section Step

variable {sh sh' : Shell}

/-- No entry of the log is about a task that does not exist. -/
theorem Accounting.killed_of_length_le (h : Accounting sh) {k : ℕ}
    (hk : sh.allTasks.length ≤ k) : sh.killed k = 0 := by
  apply countP_eq_zero_of_task
  intro e he htask
  obtain ⟨t, ht, -⟩ := h.target e he
  have hlt := (List.getElem?_eq_some_iff.mp ht).1
  omega

theorem keeps_of_move (h : Move sh sh') : Keeps sh sh' := by
  intro k t ht
  have hlt := (List.getElem?_eq_some_iff.mp ht).1
  cases h with
  | record tokens pid =>
    refine ⟨t, ?_, rfl, id⟩
    show (sh.allTasks ++ _)[k]? = some t
    rw [List.getElem?_append_left hlt, ht]
  | @terminate k₀ t₀ ht₀ hrun =>
    show ∃ t', (sh.allTasks.set k₀ _)[k]? = some t' ∧ _
    by_cases hk : k₀ = k
    · subst hk
      obtain rfl := Option.some.inj (ht₀.symm.trans ht)
      exact ⟨_, List.getElem?_set_self hlt, rfl, fun _ => rfl⟩
    · exact ⟨t, by rw [List.getElem?_set_ne hk, ht], rfl, id⟩
  | _ => exact ⟨t, ht, rfl, id⟩

/-- The count of kills when one entry is added. -/
theorem killed_concat (sh : Shell) {e : Kill} {k : ℕ} (h : sh'.kills = sh.kills ++ [e]) :
    sh'.killed k = sh.killed k + if e.Kills k then 1 else 0 := by
  unfold Shell.killed
  rw [h, List.countP_append, List.countP_singleton]

/-- The entries still name their tasks when tasks are kept and the new entries do so. -/
theorem Accounting.target_of_keeps (hsh : Accounting sh) (hkeeps : Keeps sh sh')
    {new : List Kill} (hkills : sh'.kills = sh.kills ++ new)
    (hnew : ∀ e ∈ new, ∃ t : Task, sh.allTasks[e.task]? = some t ∧ t.pid = e.pid) :
    ∀ e ∈ sh'.kills, ∃ t : Task, sh'.allTasks[e.task]? = some t ∧ t.pid = e.pid := by
  intro e he
  rw [hkills] at he
  obtain ⟨t, ht, hpid⟩ := (List.mem_append.mp he).elim (hsh.target e) (hnew e)
  obtain ⟨t', ht', hpid', -⟩ := hkeeps e.task t ht
  exact ⟨t', ht', hpid'.trans hpid⟩

section Cases

variable (hsh : Accounting sh) (hnot : sh.status ≠ .exited)
include hsh hnot

theorem accounting_record (tokens : List Text) (pid : ℤ) :
    Accounting (sh.record tokens pid false) := by
  have hnew : ∀ k t, (sh.record tokens pid false).allTasks[k]? = some t →
      sh.allTasks[k]? = some t ∨ k = sh.allTasks.length ∧ t.index = sh.taskIndex ∧
        t.running = true := by
    intro k t ht
    replace ht : (sh.allTasks ++ [_])[k]? = some t := ht
    rw [List.getElem?_append] at ht
    split_ifs at ht with hlt
    · exact .inl ht
    · rw [List.getElem?_singleton] at ht
      split_ifs at ht with hzero
      cases ht
      exact .inr ⟨by omega, rfl, rfl⟩
  constructor
  · intro k t ht
    rcases hnew k t ht with ht | ⟨hk, hindex, -⟩
    · exact hsh.index k t ht
    · rw [hindex, hsh.taskIndex, hk]
  · show sh.taskIndex + 1 = ((sh.allTasks ++ [_]).length : ℤ)
    rw [hsh.taskIndex, List.length_append, List.length_singleton]
    push_cast
    rfl
  · exact hsh.inRange
  · exact hsh.target_of_keeps (keeps_of_move (.record tokens pid)) (List.append_nil _).symm
      (List.forall_mem_nil _)
  · intro _ k t ht
    show sh.killed k = _
    rcases hnew k t ht with ht | ⟨hk, -, hrun⟩
    · exact hsh.killed hnot k t ht
    · rw [hsh.killed_of_length_le (by omega), hrun]
      rfl
  · exact fun hexited => absurd hexited hnot

theorem accounting_signal {k₀ : ℕ} {t₀ : Task} {sig : Signal} (ht₀ : sh.allTasks[k₀]? = some t₀)
    (hsig : sig ≠ .SIGKILL) :
    Accounting { sh with kills := sh.kills ++ [⟨k₀, t₀.pid, sig⟩] } := by
  have hentry : ∀ e ∈ [(⟨k₀, t₀.pid, sig⟩ : Kill)],
      ∃ t : Task, sh.allTasks[e.task]? = some t ∧ t.pid = e.pid := by
    rw [List.forall_mem_singleton]
    exact ⟨t₀, ht₀, rfl⟩
  refine ⟨hsh.index, hsh.taskIndex, hsh.inRange,
    hsh.target_of_keeps (keeps_of_move (.signal ht₀ hsig)) rfl hentry, ?_,
    fun hexited => absurd hexited hnot⟩
  intro _ k t ht
  rw [killed_concat sh rfl]
  have hno : Kill.Kills k ⟨k₀, t₀.pid, sig⟩ = false := by
    simp [Kill.Kills, hsig]
  rw [hno]
  exact hsh.killed hnot k t ht

theorem accounting_terminate {k₀ : ℕ} {t₀ : Task} (ht₀ : sh.allTasks[k₀]? = some t₀)
    (hrun : t₀.running = true) :
    Accounting { sh with
      kills := sh.kills ++ [⟨k₀, t₀.pid, .SIGKILL⟩]
      allTasks := sh.allTasks.set k₀ { t₀ with running := false } } := by
  have hk₀ := (List.getElem?_eq_some_iff.mp ht₀).1
  have hentry : ∀ e ∈ [(⟨k₀, t₀.pid, .SIGKILL⟩ : Kill)],
      ∃ t : Task, sh.allTasks[e.task]? = some t ∧ t.pid = e.pid := by
    rw [List.forall_mem_singleton]
    exact ⟨t₀, ht₀, rfl⟩
  refine ⟨?_, ?_, hsh.inRange, hsh.target_of_keeps (keeps_of_move (.terminate ht₀ hrun)) rfl hentry,
    ?_, fun hexited => absurd hexited hnot⟩
  · intro k t ht
    replace ht : (sh.allTasks.set k₀ _)[k]? = some t := ht
    by_cases hk : k₀ = k
    · subst hk
      rw [List.getElem?_set_self hk₀] at ht
      cases ht
      exact hsh.index k₀ t₀ ht₀
    · rw [List.getElem?_set_ne hk] at ht
      exact hsh.index k t ht
  · show sh.taskIndex = ((sh.allTasks.set k₀ _).length : ℤ)
    rw [List.length_set, hsh.taskIndex]
  · intro _ k t ht
    rw [killed_concat sh rfl]
    replace ht : (sh.allTasks.set k₀ _)[k]? = some t := ht
    by_cases hk : k₀ = k
    · subst hk
      rw [List.getElem?_set_self hk₀] at ht
      cases ht
      rw [hsh.killed hnot k₀ t₀ ht₀, hrun]
      simp [Kill.Kills]
    · rw [List.getElem?_set_ne hk] at ht
      have hno : Kill.Kills k ⟨k₀, t₀.pid, .SIGKILL⟩ = false := by
        simp [Kill.Kills, hk]
      rw [hno]
      exact hsh.killed hnot k t ht

theorem accounting_exitLoop : Accounting sh.exitLoop := by
  have hentries : ∀ e ∈ Shell.killAll 0 sh.allTasks,
      ∃ t : Task, sh.allTasks[e.task]? = some t ∧ t.pid = e.pid := by
    intro e he
    obtain ⟨i, t, htask, ht, hpid⟩ := mem_killAll he
    exact ⟨t, by rw [htask, Nat.zero_add]; exact ht, hpid.symm⟩
  refine ⟨hsh.index, hsh.taskIndex, nofun, hsh.target_of_keeps (keeps_of_move .exit) rfl hentries,
    fun hne => absurd rfl hne, ?_⟩
  -- exactly the tasks not yet killed are killed now
  intro _ k hk
  have ht : sh.allTasks[k]? = some sh.allTasks[k] := List.getElem?_eq_getElem hk
  have hall := countP_killAll (j := 0) ht
  rw [Nat.zero_add] at hall
  show (sh.kills ++ Shell.killAll 0 sh.allTasks).countP (Kill.Kills k) = 1
  rw [List.countP_append, hall]
  have hbefore := hsh.killed hnot k _ ht
  unfold Shell.killed at hbefore
  rw [hbefore]
  split_ifs <;> rfl

end Cases

theorem accounting_of_move (hsh : Accounting sh) (hloop : sh.status = .looping)
    (h : Move sh sh') : Accounting sh' := by
  have hnot : sh.status ≠ .exited := by
    rw [hloop]
    decide
  cases h with
  | idle => exact hsh
  | record tokens pid => exact accounting_record hsh hnot tokens pid
  | throw =>
    exact ⟨hsh.index, hsh.taskIndex, by simp, hsh.target, fun _ => hsh.killed hnot, by simp⟩
  | signal ht hsig => exact accounting_signal hsh hnot ht hsig
  | terminate ht hrun => exact accounting_terminate hsh hnot ht hrun
  | exit => exact accounting_exitLoop hsh hnot
  | quit =>
    exact ⟨hsh.index, hsh.taskIndex, nofun, hsh.target, fun _ => hsh.killed hnot, nofun⟩

end Step

/-! ## Runs -/

theorem accounting_initState : Accounting Shell.initState where
  index := by simp [Shell.initState]
  taskIndex := rfl
  inRange := by decide
  target := by simp [Shell.initState]
  killed := by simp [Shell.initState]
  exited := by simp [Shell.initState]

theorem move_of_original {sh sh' : Shell} {a : Text × Launch}
    (h : original.step sh a = some sh') : sh.status = .looping ∧ Move sh sh' := by
  replace h : (if sh.status = .looping then some (sh.command a.1 a.2).1 else none) = some sh' := h
  split_ifs at h with hloop
  cases h
  exact ⟨hloop, Shell.move_of_command a.1 a.2⟩

theorem accounting_of_reachable {sh : Shell} (h : original.Reachable sh) : Accounting sh := by
  refine h.invariant ?_ ?_
  · rintro _ rfl
    exact accounting_initState
  · intro sh a sh' _ hsh hstep
    obtain ⟨hloop, hmove⟩ := move_of_original hstep
    exact accounting_of_move hsh hloop hmove

theorem keeps_of_run {sh sh' : Shell} {tr : List (Shell × (Text × Launch))}
    (h : original.Run sh tr sh') : Keeps sh sh' := by
  induction h with
  | nil => exact .refl sh
  | snoc _ hstep ih => exact ih.trans (keeps_of_move (move_of_original hstep).2)

/-- Every task is killed once by the time of `exit`, and at most once before it or at
    `quit`; the indices are those of the vector, which is never left; and a flag
    that is off stays off. -/
structure KillAccounting (sh : Shell) : Prop where
  exited : sh.status = .exited → ∀ k < sh.allTasks.length, sh.killed k = 1
  atMostOnce : ∀ k, sh.killed k ≤ 1
  target : ∀ e ∈ sh.kills, ∃ t : Task, sh.allTasks[e.task]? = some t ∧ t.pid = e.pid
  index : ∀ (k : ℕ) (t : Task), sh.allTasks[k]? = some t → t.index = k
  taskIndex : sh.taskIndex = sh.allTasks.length
  inRange : sh.status ≠ .outOfRange
  stays : ∀ tr sh', original.Run sh tr sh' → Keeps sh sh'

/-- For every sequence of commands of the original shell. -/
theorem killAccounting {sh : Shell} (h : original.Reachable sh) : KillAccounting sh := by
  have hsh := accounting_of_reachable h
  refine ⟨hsh.exited, ?_, hsh.target, hsh.index, hsh.taskIndex, hsh.inRange,
    fun _ _ => keeps_of_run⟩
  intro k
  by_cases hk : k < sh.allTasks.length
  · by_cases hexited : sh.status = .exited
    · rw [hsh.exited hexited k hk]
    · rw [hsh.killed hexited k _ (List.getElem?_eq_getElem hk)]
      split_ifs <;> omega
  · rw [hsh.killed_of_length_le (by omega)]
    omega

/-- Two tasks, of which one is terminated before `exit`. -/
def terminateThenExit : List (Text × Launch) :=
  [("run yes".toList, .starts 7), ("run xclock".toList, .starts 8),
    ("stop 1".toList, .forkFails), ("terminate 0".toList, .forkFails),
    ("terminate -1".toList, .forkFails), ("exit".toList, .forkFails)]

theorem killAccounting_terminateThenExit : ∃ sh,
    original.exec Shell.initState terminateThenExit = some sh ∧ sh.status = .exited ∧
      sh.allTasks.length = 2 ∧ KillAccounting sh := by
  have hrun : (original.exec Shell.initState terminateThenExit).map
      (fun sh => (sh.status, sh.allTasks.length)) = some (.exited, 2) := by
    decide +kernel
  obtain ⟨sh, hexec, hview⟩ := Option.map_eq_some_iff.mp hrun
  simp only [Prod.mk.injEq] at hview
  exact ⟨sh, hexec, hview.1, hview.2, killAccounting (System.Reachable.of_exec rfl hexec)⟩

end Cmput379.Msh379
