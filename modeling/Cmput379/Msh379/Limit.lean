import Cmput379.Msh379.Survivors

/-!
# The limit on the tasks of msh379

`run` compares `taskIndex`, the number of tasks recorded so far, with `MAXTASKS`, and
goes on where they are equal (line 137).

* `runError`, `run_eq`: the checks of `run`, in their order.
* `Indexed`, `indexed_of_run`: in each process `taskIndex` is the size of
  `allTasks`, whatever forks, and whatever fails.
* `limit_iff`: the limit holds in a run as long as no process with `MAXTASKS` tasks reads
  a run command.
* `limit_counterexample`: the 33rd task.
-/

namespace Cmput379.Msh379

open Cmput379.Lib

/-! ## Model -/

/-- What `run` prints in place of forking. -/
inductive RunError
  | missingArgs
  | tooManyArgs
  | tooManyJobs
  deriving DecidableEq, Repr

namespace Shell

/-- The checks of `run` (lines 133-139). -/
def runError (sh : Shell) (tokens : List Text) : Option RunError :=
  if tokens.length = 1 then some .missingArgs
  else if tokens.length > 6 then some .tooManyArgs
  else if sh.taskIndex > MAXTASKS then some .tooManyJobs
  else none

section Checks

variable {sh : Shell} {tokens : List Text}

theorem runError_eq_none : sh.runError tokens = none ↔
    tokens.length ≠ 1 ∧ tokens.length ≤ 6 ∧ sh.taskIndex ≤ MAXTASKS := by
  unfold runError
  split_ifs with hone hmany hindex
  · simp [hone]
  · simp [not_le.mpr hmany]
  · simp [not_le.mpr hindex]
  · exact iff_of_true rfl ⟨hone, not_lt.mp hmany, not_lt.mp hindex⟩

theorem runError_eq_tooManyJobs : sh.runError tokens = some .tooManyJobs ↔
    tokens.length ≠ 1 ∧ tokens.length ≤ 6 ∧ MAXTASKS < sh.taskIndex := by
  unfold runError
  split_ifs with hone hmany hindex
  · simp [hone]
  · simp [not_le.mpr hmany]
  · exact iff_of_true rfl ⟨hone, not_lt.mp hmany, hindex⟩
  · simp [hindex]

theorem run_eq (o : Launch) :
    sh.run tokens o = if sh.runError tokens = none then sh.launch tokens o else (sh, none) := by
  simp only [runError_eq_none]
  unfold run
  by_cases hone : tokens.length = 1
  · rw [if_pos hone, if_neg fun h => h.1 hone]
  by_cases hmany : tokens.length > 6
  · rw [if_neg hone, if_pos hmany, if_neg fun h => not_lt.mpr h.2.1 hmany]
  by_cases hindex : sh.taskIndex > MAXTASKS
  · rw [if_neg hone, if_neg hmany, if_pos hindex, if_neg fun h => not_lt.mpr h.2.2 hindex]
  · rw [if_neg hone, if_neg hmany, if_neg hindex,
      if_pos ⟨hone, not_lt.mp hmany, not_lt.mp hindex⟩]

end Checks

end Shell

/-! ## Specification -/

/-- No process has recorded more than `MAXTASKS` tasks. -/
def WithinLimit (procs : List Shell) : Prop :=
  ∀ sh ∈ procs, (sh.allTasks.length : ℤ) ≤ MAXTASKS

/-- The line is a run command. -/
def Action.IsRun (a : Action) : Prop := (words a.cmd).head? = some "run".toList

/-- A program and up to four arguments. -/
def Action.ArgsOk (a : Action) : Prop := 2 ≤ (words a.cmd).length ∧ (words a.cmd).length ≤ 6

/-- A run command is refused with `Too many jobs` exactly when it has a program with up to
    four arguments, and `MAXTASKS` tasks have been recorded. -/
def RefusalOk (procs : List Shell) (a : Action) : Prop :=
  ∀ sh, procs[a.i]? = some sh → a.IsRun →
    (sh.runError (words a.cmd) = some .tooManyJobs ↔
      a.ArgsOk ∧ (sh.allTasks.length : ℤ) = MAXTASKS)

/-- A process that has recorded `MAXTASKS` tasks reads such a command. -/
def AtLimit (procs : List Shell) (a : Action) : Prop :=
  ∃ sh, procs[a.i]? = some sh ∧ a.IsRun ∧ a.ArgsOk ∧ (sh.allTasks.length : ℤ) = MAXTASKS

/-! ## The counter -/

/-- `taskIndex` is the size of `allTasks`. -/
def Indexed (sh : Shell) : Prop := sh.taskIndex = sh.allTasks.length

/-- The counter and the size between two states of a process. -/
def SameSize (sh sh' : Shell) : Prop :=
  sh'.taskIndex = sh.taskIndex ∧ sh'.allTasks.length = sh.allTasks.length

def OneMore (sh sh' : Shell) : Prop :=
  sh'.taskIndex = sh.taskIndex + 1 ∧ sh'.allTasks.length = sh.allTasks.length + 1

section Command

variable {sh : Shell} {cmd : Text} {o : Launch}

theorem SameSize.refl (sh : Shell) : SameSize sh sh := ⟨rfl, rfl⟩

theorem size_of_record (sh : Shell) (tokens : List Text) (pid : ℤ) (errno : Bool) :
    SameSize sh (sh.record tokens pid errno) ∨ OneMore sh (sh.record tokens pid errno) := by
  cases errno with
  | true => exact .inl (.refl sh)
  | false => exact .inr ⟨rfl, by simp [Shell.record]⟩

/-- A launch records at most one task, in the parent and in the child. -/
theorem size_of_launch (tokens : List Text) :
    ∀ sh' ∈ (sh.launch tokens o).1 :: (sh.launch tokens o).2.toList,
      SameSize sh sh' ∨ OneMore sh sh' := by
  have hrecord := fun pid errno => size_of_record sh tokens pid errno
  cases o with
  | forkFails =>
    intro sh' hmem
    obtain rfl := List.mem_singleton.mp hmem
    exact hrecord (-1) true
  | starts pid =>
    rw [Shell.launch, List.forall_mem_cons]
    refine ⟨hrecord pid false, ?_⟩
    intro sh' hmem
    split_ifs at hmem
    · simp at hmem
    · obtain rfl := List.mem_singleton.mp hmem
      exact hrecord 0 false
  | execFails pid =>
    rw [Shell.launch, List.forall_mem_cons]
    refine ⟨hrecord pid false, ?_⟩
    intro sh' hmem
    obtain rfl := List.mem_singleton.mp hmem
    exact hrecord 0 _

theorem sameSize_of_withTaskNo {tokens : List Text} {f : ℤ → Task → Shell}
    (h : ∀ taskNo t, SameSize sh (f taskNo t)) :
    SameSize sh (sh.withTaskNo tokens fun taskNo => sh.atTask taskNo (f taskNo)) :=
  Shell.withTaskNo_cases (.refl sh) ⟨rfl, rfl⟩ fun taskNo t _ => h taskNo t

theorem sameSize_of_terminate {tokens : List Text} : SameSize sh (sh.terminate tokens) := by
  apply sameSize_of_withTaskNo
  intro taskNo t
  split_ifs
  · exact .refl sh
  · exact ⟨rfl, List.length_set⟩

/-- A run command with a program is accepted unless one of the checks fails. -/
theorem accepts_of_runError {tokens : List Text} (hname : tokens.head? = some "run".toList)
    (h : sh.runError tokens = none) : sh.Accepts tokens := by
  obtain ⟨hone, hmany, hindex⟩ := Shell.runError_eq_none.mp h
  have hpos : tokens.length ≠ 0 := by
    intro hzero
    rw [List.length_eq_zero_iff.mp hzero] at hname
    cases hname
  exact ⟨hname, by omega, hmany, hindex⟩

/-- Every command but an accepted run command leaves the sizes as they are. -/
theorem size_of_command (sh : Shell) (cmd : Text) (o : Launch) :
    ∀ sh' ∈ (sh.command cmd o).1 :: (sh.command cmd o).2.toList,
      SameSize sh sh' ∨ sh.Accepts (words cmd) ∧ OneMore sh sh' := by
  by_cases haccepts : sh.Accepts (words cmd)
  · rw [command_of_accepts haccepts]
    intro sh' hmem
    exact (size_of_launch (words cmd) sh' hmem).imp_right fun hmore => ⟨haccepts, hmore⟩
  · have hchild : (sh.command cmd o).2 = none := by
      by_contra hne
      exact haccepts (child_of_command hne).1
    have hparent : SameSize sh (sh.command cmd o).1 := by
      refine Shell.command_cases (.refl sh) ?_ ?_ ?_ sameSize_of_terminate ⟨rfl, rfl⟩ ⟨rfl, rfl⟩
      · intro hname
        rw [Shell.run_eq, if_neg fun hnone => haccepts (accepts_of_runError hname hnone)]
        exact .refl sh
      · exact sameSize_of_withTaskNo fun _ _ => ⟨rfl, rfl⟩
      · exact sameSize_of_withTaskNo fun _ _ => ⟨rfl, rfl⟩
    rw [hchild, Option.toList_none, List.forall_mem_singleton]
    exact .inl hparent

end Command

/-! ## Steps -/

section Step

variable {procs procs' : List Shell} {a : Action}

/-- A process after a step was there before, or comes from the one that read the line. -/
theorem mem_of_step (h : step procs a = some procs') {sh' : Shell} (hmem : sh' ∈ procs') :
    sh' ∈ procs ∨ ∃ sh, procs[a.i]? = some sh ∧
      (SameSize sh sh' ∨ sh.Accepts (words a.cmd) ∧ OneMore sh sh') := by
  obtain ⟨sh, hsh, -, rfl⟩ := command_of_step h
  have hcommand := size_of_command sh a.cmd a.launch
  rw [List.forall_mem_cons] at hcommand
  rcases List.mem_append.mp hmem with hmem | hmem
  · rcases List.mem_or_eq_of_mem_set hmem with hmem | rfl
    · exact .inl hmem
    · exact .inr ⟨sh, hsh, hcommand.1⟩
  · exact .inr ⟨sh, hsh, hcommand.2 sh' hmem⟩

theorem indexed_of_step (hprocs : ∀ sh ∈ procs, Indexed sh) (h : step procs a = some procs') :
    ∀ sh ∈ procs', Indexed sh := by
  intro sh' hmem
  rcases mem_of_step h hmem with hmem | ⟨sh, hsh, hsize⟩
  · exact hprocs sh' hmem
  · have hindexed : Indexed sh := hprocs sh (List.mem_of_getElem? hsh)
    unfold Indexed at hindexed ⊢
    rcases hsize with ⟨hindex, hlength⟩ | ⟨-, hindex, hlength⟩
    · omega
    · omega

/-- A step that is not at the limit keeps it. -/
theorem withinLimit_of_step (hprocs : WithinLimit procs) (h : step procs a = some procs')
    (hfree : ¬ AtLimit procs a) : WithinLimit procs' := by
  intro sh' hmem
  rcases mem_of_step h hmem with hmem | ⟨sh, hsh, hsize⟩
  · exact hprocs sh' hmem
  · have hle : (sh.allTasks.length : ℤ) ≤ MAXTASKS := hprocs sh (List.mem_of_getElem? hsh)
    rcases hsize with ⟨-, hlength⟩ | ⟨⟨hname, hmin, hmax, -⟩, -, hlength⟩
    · omega
    · have hne : (sh.allTasks.length : ℤ) ≠ MAXTASKS :=
        fun heq => hfree ⟨sh, hsh, hname, ⟨hmin, hmax⟩, heq⟩
      omega

/-- At the limit the command is not refused: the counter is compared with `>`. -/
theorem not_atLimit_of_refusalOk (hprocs : ∀ sh ∈ procs, Indexed sh) (h : RefusalOk procs a) :
    ¬ AtLimit procs a := by
  rintro ⟨sh, hsh, hrun, hargs, hlength⟩
  have hrefused := (h sh hsh hrun).mpr ⟨hargs, hlength⟩
  obtain ⟨-, -, hindex⟩ := Shell.runError_eq_tooManyJobs.mp hrefused
  have hindexed : sh.taskIndex = sh.allTasks.length := hprocs sh (List.mem_of_getElem? hsh)
  omega

/-- Within the limit, and not at it, nothing is refused for it. -/
theorem refusalOk_of_not_atLimit (hindexed : ∀ sh ∈ procs, Indexed sh)
    (hprocs : WithinLimit procs) (hfree : ¬ AtLimit procs a) : RefusalOk procs a := by
  intro sh hsh hrun
  have hmem := List.mem_of_getElem? hsh
  have hindex : sh.taskIndex = sh.allTasks.length := hindexed sh hmem
  have hle := hprocs sh hmem
  refine iff_of_false ?_ fun hfull => hfree ⟨sh, hsh, hrun, hfull⟩
  intro hrefused
  obtain ⟨-, -, hlt⟩ := Shell.runError_eq_tooManyJobs.mp hrefused
  omega

end Step

/-! ## Runs -/

section Run

variable {tr : List (List Shell × Action)} {procs : List Shell}

theorem indexed_of_run (h : system.Run [Shell.initState] tr procs) : ∀ sh ∈ procs, Indexed sh := by
  induction h with
  | nil =>
    rw [List.forall_mem_singleton]
    rfl
  | snoc _ hstep ih => exact indexed_of_step ih hstep

theorem withinLimit_of_run (h : system.Run [Shell.initState] tr procs)
    (hfree : ∀ p ∈ tr, ¬ AtLimit p.1 p.2) : WithinLimit procs := by
  induction h with
  | nil =>
    unfold WithinLimit
    rw [List.forall_mem_singleton]
    decide
  | snoc _ hstep ih =>
    have hbefore := ih fun p hp => hfree p (List.mem_append_left _ hp)
    exact withinLimit_of_step hbefore hstep
      (hfree _ (List.mem_append_right _ (List.mem_singleton_self _)))

/-- In every run of the shell and the processes that come back from it: no process
    records more than `MAXTASKS` tasks and run commands are refused exactly then, iff no
    process with `MAXTASKS` tasks reads a run command. -/
theorem limit_iff (h : system.Run [Shell.initState] tr procs) :
    ((∀ p ∈ tr, WithinLimit p.1 ∧ RefusalOk p.1 p.2) ∧ WithinLimit procs) ↔
      ∀ p ∈ tr, ¬ AtLimit p.1 p.2 := by
  constructor
  · rintro ⟨hsteps, -⟩ p hp
    obtain ⟨tr', u, hrun, -⟩ := h.of_mem hp
    exact not_atLimit_of_refusalOk (indexed_of_run hrun) (hsteps p hp).2
  · intro hfree
    refine ⟨fun p hp => ?_, withinLimit_of_run h hfree⟩
    -- the state before a step is the end of a shorter run
    obtain ⟨front, rest, rfl⟩ := List.append_of_mem hp
    have hbefore := h.of_append
    have hlimit := withinLimit_of_run hbefore fun q hq => hfree q (List.mem_append_left _ hq)
    exact ⟨hlimit, refusalOk_of_not_atLimit (indexed_of_run hbefore) hlimit (hfree p hp)⟩

end Run

/-! ## The last task -/

/-- `n` run commands, each of which starts a program. -/
def runs (n : ℕ) : List Action :=
  (List.range n).map fun (i : ℕ) => ⟨0, "run x".toList, .starts (i + 1)⟩

/-- All but one of the tasks, of which two are terminated, and the list of them. -/
def almostAll : List Action :=
  runs 31 ++ [⟨0, "terminate 3".toList, .forkFails⟩, ⟨0, "terminate 30".toList, .forkFails⟩,
    ⟨0, "lstasks".toList, .forkFails⟩, ⟨0, "run y".toList, .starts 32⟩]

theorem limit_iff_almostAll : ∃ procs,
    system.exec [Shell.initState] almostAll = some procs ∧
    procs.map (fun sh => sh.allTasks.length) = [32] ∧
    (∀ p ∈ system.trace [Shell.initState] almostAll, WithinLimit p.1 ∧ RefusalOk p.1 p.2) ∧
      WithinLimit procs := by
  have hrun : (system.exec [Shell.initState] almostAll).map (fun procs =>
      decide (procs.map (fun sh => sh.allTasks.length) = [32])) = some true := by
    decide +kernel
  have hbelow : ∀ p ∈ system.trace [Shell.initState] almostAll,
      ∀ sh ∈ p.1, (sh.allTasks.length : ℤ) < MAXTASKS := by
    decide +kernel
  obtain ⟨procs, hexec, hlength⟩ := System.exists_of_exec hrun
  refine ⟨procs, hexec, hlength, (limit_iff (System.Run.of_exec hexec)).mpr ?_⟩
  rintro p hp ⟨sh, hsh, -, -, hfull⟩
  exact absurd hfull (hbelow p hp sh (List.mem_of_getElem? hsh)).ne

/-- 33 run commands, and 33 tasks. -/
theorem limit_counterexample : ∃ procs, system.Reachable procs ∧ ¬ WithinLimit procs := by
  have hrun : (system.exec [Shell.initState] (runs 33)).map (fun procs =>
      decide (∃ sh ∈ procs, MAXTASKS < sh.allTasks.length)) = some true := by
    decide +kernel
  obtain ⟨procs, hexec, sh, hmem, hlt⟩ := System.exists_of_exec hrun
  exact ⟨procs, .of_exec rfl hexec, fun h => not_lt.mpr (h sh hmem) hlt⟩

end Cmput379.Msh379
