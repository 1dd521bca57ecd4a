import Cmput379.Msh379.Kills

/-!
# What lstasks prints

`lstasks` of `Assignment_1/msh379.cpp` against the history of the shell.

* `launched_of_command`: a command adds the program for which it has forked a child, if it
  has, and nothing else.
* `listTasks_eq`: the tasks printed are the programs for which a child was forked and not
  sent `SIGKILL`, numbered in the order of the commands.
-/

namespace Cmput379.Msh379

open Cmput379.Lib

/-- The values of one line of `lstasks`. -/
structure TaskLine where
  index : ℤ
  pid : ℤ
  cmd : Text
  deriving DecidableEq, Repr

/-- `"%i: (pid: %i cmd:%s)\n"`. -/
def TaskLine.text (l : TaskLine) : Text :=
  intText l.index ++ ": (pid: ".toList ++ intText l.pid ++ " cmd:".toList ++ l.cmd ++
    ")\n".toList

/-- The tasks for which `listTasks` prints a line. -/
def Shell.running (sh : Shell) : List TaskLine :=
  (sh.allTasks.filter Task.running).map fun t => ⟨t.index, t.pid, t.cmd⟩

/-- `listTasks` (lines 116-127): what it prints. -/
def Shell.listTasks (sh : Shell) : Text := sh.running.flatMap TaskLine.text

instance (sh : Shell) (tokens : List Text) : Decidable (sh.Accepts tokens) :=
  inferInstanceAs (Decidable (_ ∧ _ ∧ _ ∧ _))

/-- An accepted run command whose `fork` succeeds: the pid of the child, and the words of
    the program, whether or not it can be executed. -/
def launched : Shell × (Text × Launch) → List (ℤ × Text)
  | (_, _, .forkFails) => []
  | (sh, cmd, .starts pid) | (sh, cmd, .execFails pid) =>
    if sh.Accepts (words cmd) then [(pid, Shell.cmdStr (words cmd))] else []

/-- These commands of a run, in their order. -/
def history (tr : List (Shell × (Text × Launch))) : List (ℤ × Text) := tr.flatMap launched

/-! ## One command -/

namespace Task

/-- What `lstasks` prints of a task, its number apart. -/
def job (t : Task) : ℤ × Text := (t.pid, t.cmd)

end Task

section Step

variable {sh : Shell} {tokens : List Text}

theorem set_of_getElem? {α : Type*} {l : List α} {k : ℕ} {x : α} (h : l[k]? = some x) :
    l.set k x = l := by
  obtain ⟨hlt, rfl⟩ := List.getElem?_eq_some_iff.mp h
  exact List.set_getElem_self hlt

theorem jobs_of_withTaskNo {f : ℤ → Task → Shell}
    (h : ∀ taskNo t, sh.allTasks[Shell.toSize taskNo]? = some t →
      (f taskNo t).allTasks.map Task.job = sh.allTasks.map Task.job) :
    (sh.withTaskNo tokens fun taskNo => sh.atTask taskNo (f taskNo)).allTasks.map Task.job =
      sh.allTasks.map Task.job :=
  Shell.withTaskNo_cases (motive := fun sh' => sh'.allTasks.map Task.job =
    sh.allTasks.map Task.job) rfl rfl h

theorem jobs_of_terminate :
    (sh.terminate tokens).allTasks.map Task.job = sh.allTasks.map Task.job := by
  refine jobs_of_withTaskNo fun taskNo t ht => ?_
  split_ifs
  · rfl
  · show (sh.allTasks.set _ _).map Task.job = _
    rw [List.map_set]
    refine set_of_getElem? ?_
    rw [List.getElem?_map, ht]
    rfl

/-- A run command that is not accepted starts nothing. -/
theorem run_of_not_accepts (o : Launch) (hname : tokens.head? = some "run".toList)
    (h : ¬ sh.Accepts tokens) : sh.run tokens o = (sh, none) := by
  have hpos : tokens.length ≠ 0 := by
    intro hnil
    rw [List.length_eq_zero_iff.mp hnil] at hname
    cases hname
  unfold Shell.run
  split_ifs with hone hmany hindex
  · rfl
  · rfl
  · rfl
  · exact absurd ⟨hname, by omega, by omega, by omega⟩ h

theorem launched_of_command (sh : Shell) (cmd : Text) (o : Launch) :
    (sh.command cmd o).1.allTasks.map Task.job =
      sh.allTasks.map Task.job ++ launched (sh, cmd, o) := by
  by_cases haccepts : sh.Accepts (words cmd)
  · rw [command_of_accepts haccepts]
    cases o with
    | forkFails => simp [Shell.launch, Shell.record, launched]
    | starts pid | execFails pid =>
      rw [launched, if_pos haccepts]
      simp [Shell.launch, Shell.record, Task.job]
  · have hnone : launched (sh, cmd, o) = [] := by
      cases o with
      | forkFails => rfl
      | starts pid | execFails pid => exact if_neg haccepts
    rw [hnone, List.append_nil]
    refine Shell.command_cases (motive := fun r => r.1.allTasks.map Task.job =
      sh.allTasks.map Task.job) rfl (fun hname => ?_) ?_ ?_ jobs_of_terminate rfl rfl
    · rw [run_of_not_accepts o hname haccepts]
    · exact jobs_of_withTaskNo fun _ _ _ => rfl
    · exact jobs_of_withTaskNo fun _ _ _ => rfl

end Step

/-! ## Runs -/

variable {sh sh' : Shell} {tr : List (Shell × (Text × Launch))}

theorem history_of_run (h : original.Run sh tr sh') :
    sh'.allTasks.map Task.job = sh.allTasks.map Task.job ++ history tr := by
  induction h with
  | nil => simp [history]
  | @snoc tr t u a hrun hstep ih =>
    obtain ⟨cmd, o⟩ := a
    replace hstep : (if t.status = .looping then some (t.command cmd o).1 else none) = some u :=
      hstep
    split_ifs at hstep
    cases hstep
    rw [launched_of_command, ih, List.append_assoc]
    simp [history]

/-- The tasks that are listed: of the programs that were started, in this order, those
    that were not sent `SIGKILL`. -/
def survivors (sh : Shell) (programs : List (ℤ × Text)) : List TaskLine :=
  programs.zipIdx.filterMap fun e =>
    if sh.killed e.2 = 0 then some ⟨e.2, e.1.1, e.1.2⟩ else none

/-- `lstasks` prints the accepted run commands whose `fork` has succeeded and whose task the
    shell has not killed, each with its number in their order. -/
theorem listTasks_eq (h : original.Run Shell.initState tr sh) (hloop : sh.status = .looping) :
    sh.listTasks = (survivors sh (history tr)).flatMap TaskLine.text := by
  have hok := accounting_of_reachable ⟨_, tr, rfl, h⟩
  have hnot : sh.status ≠ .exited := by
    rw [hloop]
    exact nofun
  have hjobs := history_of_run h
  rw [Shell.initState, List.map_nil, List.nil_append] at hjobs
  have hlist : sh.running = sh.allTasks.zipIdx.filterMap fun e =>
      if e.1.running = true then some ⟨e.1.index, e.1.pid, e.1.cmd⟩ else none := by
    conv_lhs => rw [Shell.running, ← List.zipIdx_map_fst 0 sh.allTasks]
    rw [List.filter_map, List.map_map, ← List.filterMap_eq_map, List.filterMap_filter]
    rfl
  refine congrArg (List.flatMap TaskLine.text) ?_
  rw [hlist, survivors, ← hjobs, List.zipIdx_map, List.filterMap_map]
  refine List.filterMap_congr fun e he => ?_
  have hget : sh.allTasks[e.2]? = some e.1 := List.mem_zipIdx_iff_getElem?.mp he
  have hindex := hok.index _ _ hget
  have hkilled := hok.killed hnot _ _ hget
  show _ = if sh.killed e.2 = 0 then some (⟨e.2, e.1.pid, e.1.cmd⟩ : TaskLine) else none
  rw [hkilled, hindex]
  cases e.1.running <;> rfl

/-- Two programs are started, and the first one is terminated. -/
def terminateFirst : List (Text × Launch) :=
  [("run yes".toList, .starts 7), ("run sleep 10".toList, .starts 8),
    ("stop 1".toList, .forkFails), ("terminate 0".toList, .forkFails)]

theorem listTasks_terminateFirst : ∃ sh,
    original.exec Shell.initState terminateFirst = some sh ∧
      sh.listTasks = "1: (pid: 8 cmd: sleep 10)\n".toList ∧
      sh.listTasks = (survivors sh
        (history (original.trace Shell.initState terminateFirst))).flatMap TaskLine.text := by
  have hrun : (original.exec Shell.initState terminateFirst).map
      (fun sh => (sh.status, sh.listTasks)) =
        some (.looping, "1: (pid: 8 cmd: sleep 10)\n".toList) := by
    decide +kernel
  obtain ⟨sh, hexec, hview⟩ := Option.map_eq_some_iff.mp hrun
  simp only [Prod.mk.injEq] at hview
  obtain ⟨hloop, hlist⟩ := hview
  exact ⟨sh, hexec, hlist, listTasks_eq (System.Run.of_exec hexec) hloop⟩

end Cmput379.Msh379
