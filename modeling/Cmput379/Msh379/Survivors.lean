import Cmput379.Msh379.Shell

/-!
# Who comes back from run

The processes that one msh379 forks read their commands in the same loop, so that a
child that could not become the program is a second shell.

* `runOk_iff_canExec`: an accepted run command is survived by one process, and is
  recorded iff its program was started, iff its program could be executed or there
  was no child.
* `survivors_iff`: the same over whole runs, and then there is one shell only.
* `survivors_counterexample`: a program that does not exist.
-/

namespace Cmput379.Msh379

open Cmput379.Lib

/-! ## The processes -/

/-- Process number `i` reads the line `cmd`. -/
structure Action where
  i : ℕ
  cmd : Text
  launch : Launch
  deriving DecidableEq

/-- One command, read by one of the processes; a child that returns joins them. -/
def step (procs : List Shell) (a : Action) : Option (List Shell) :=
  match procs[a.i]? with
  | none => none
  | some sh =>
    if sh.status = .looping then
      let (parent, child) := sh.command a.cmd a.launch
      some (procs.set a.i parent ++ child.toList)
    else none

/-- The processes that come from one shell. -/
def system : System (List Shell) Action where
  init procs := procs = [Shell.initState]
  step := step

/-- The number of processes in the command loop. -/
def looping (procs : List Shell) : ℕ := procs.countP fun sh => sh.status = .looping

/-- `run` accepts the tokens: it forks. -/
def Shell.Accepts (sh : Shell) (tokens : List Text) : Prop :=
  tokens.head? = some "run".toList ∧ 2 ≤ tokens.length ∧ tokens.length ≤ 6 ∧
    sh.taskIndex ≤ MAXTASKS

/-- The action is a run command that its process accepts. -/
def Accepted (procs : List Shell) (a : Action) : Prop :=
  ∃ sh, procs[a.i]? = some sh ∧ sh.status = .looping ∧ sh.Accepts (words a.cmd)

/-- The child became the program. -/
def Launch.Started (o : Launch) : Prop := ∃ pid, o = .starts pid

/-- Process `i` records a running task. -/
def GainsTask (procs procs' : List Shell) (i : ℕ) : Prop :=
  ∃ sh sh' t, procs[i]? = some sh ∧ procs'[i]? = some sh' ∧ t.running = true ∧
    sh'.allTasks = sh.allTasks ++ [t]

/-- An accepted run command is survived by exactly one process, and its task is
    recorded iff the program was started. -/
def RunOk (procs : List Shell) (a : Action) : Prop :=
  Accepted procs a → ∀ procs', step procs a = some procs' →
    looping procs' = looping procs ∧ (GainsTask procs procs' a.i ↔ a.launch.Started)

/-- The program of an accepted run command can be executed, unless `fork` fails. -/
def CanExec (procs : List Shell) (a : Action) : Prop :=
  Accepted procs a → ∀ pid, a.launch ≠ .execFails pid

/-! ## One command -/

section Command

variable {sh : Shell} {cmd : Text} {o : Launch}

theorem launch_of_run {tokens : List Text} (hmin : 2 ≤ tokens.length)
    (hmax : tokens.length ≤ 6) (hindex : sh.taskIndex ≤ MAXTASKS) :
    sh.run tokens o = sh.launch tokens o := by
  unfold Shell.run
  rw [if_neg (by omega), if_neg (by omega), if_neg (by omega)]

/-- An accepted run command is a launch. -/
theorem command_of_accepts (h : sh.Accepts (words cmd)) :
    sh.command cmd o = sh.launch (words cmd) o := by
  obtain ⟨hname, hmin, hmax, hindex⟩ := h
  rw [← launch_of_run hmin hmax hindex]
  unfold Shell.command
  cases htokens : words cmd with
  | nil => simp [htokens] at hname
  | cons name args =>
    rw [htokens] at hname
    obtain rfl : name = "run".toList := Option.some.inj hname
    rfl

theorem callsExec_of_accepts {tokens : List Text} (h : sh.Accepts tokens) :
    Shell.callsExec tokens = true := by
  obtain ⟨-, hmin, hmax, -⟩ := h
  unfold Shell.callsExec
  rw [decide_eq_true hmin, decide_eq_true hmax]
  rfl

/-- Only an accepted run command whose program cannot be executed leaves a child in
    the loop. -/
theorem child_of_command (h : (sh.command cmd o).2 ≠ none) :
    sh.Accepts (words cmd) ∧ ∃ pid, o = .execFails pid := by
  revert h
  refine Shell.command_cases
    (absurd rfl) ?_ (absurd rfl) (absurd rfl) (absurd rfl) (absurd rfl) (absurd rfl)
  intro hname h
  have hpos : 0 < (words cmd).length := by
    apply List.length_pos_of_ne_nil
    intro hnil
    rw [hnil] at hname
    cases hname
  unfold Shell.run at h
  split_ifs at h with hone hmany hindex
  · exact absurd rfl h
  · exact absurd rfl h
  · exact absurd rfl h
  · have haccepts : sh.Accepts (words cmd) := ⟨hname, by omega, by omega, by omega⟩
    refine ⟨haccepts, ?_⟩
    cases o with
    | forkFails => exact absurd rfl h
    | starts pid =>
      unfold Shell.launch at h
      rw [callsExec_of_accepts haccepts] at h
      exact absurd rfl h
    | execFails pid => exact ⟨pid, rfl⟩

end Command

/-! ## Steps -/

section Step

variable {procs procs' : List Shell} {a : Action}

/-- A step is a command of one process. -/
theorem command_of_step (h : step procs a = some procs') :
    ∃ sh, procs[a.i]? = some sh ∧ sh.status = .looping ∧
      procs' = procs.set a.i (sh.command a.cmd a.launch).1 ++
        (sh.command a.cmd a.launch).2.toList := by
  unfold step at h
  split at h
  · cases h
  · rename_i sh hsh
    split_ifs at h with hloop
    cases h
    exact ⟨sh, hsh, hloop, rfl⟩

/-- The number of shells after one of them goes on as `sh'`. -/
theorem looping_set {i : ℕ} {sh : Shell} (sh' : Shell) (hsh : procs[i]? = some sh)
    (hloop : sh.status = .looping) (hloop' : sh'.status = .looping) :
    looping (procs.set i sh') = looping procs := by
  obtain ⟨hi, rfl⟩ := List.getElem?_eq_some_iff.mp hsh
  have hpos : 0 < looping procs :=
    List.countP_pos_iff.mpr ⟨procs[i], List.getElem_mem hi, by simpa using hloop⟩
  unfold looping at hpos ⊢
  rw [List.countP_set hi]
  simp only [hloop, hloop', decide_true, if_true]
  omega

/-- What a launch that leaves `sh'` and perhaps a child means for the processes. -/
theorem getElem?_set_append {i : ℕ} {sh : Shell} (sh' : Shell) (hsh : procs[i]? = some sh)
    (child : Option Shell) : (procs.set i sh' ++ child.toList)[i]? = some sh' := by
  obtain ⟨hi, -⟩ := List.getElem?_eq_some_iff.mp hsh
  rw [List.getElem?_append_left (by simpa using hi), List.getElem?_set_self hi]

theorem gainsTask_iff {i : ℕ} {sh sh' : Shell} (hsh : procs[i]? = some sh)
    (hsh' : procs'[i]? = some sh') :
    GainsTask procs procs' i ↔ ∃ t, t.running = true ∧ sh'.allTasks = sh.allTasks ++ [t] := by
  unfold GainsTask
  simp only [hsh, hsh', Option.some.injEq]
  constructor
  · rintro ⟨_, _, t, rfl, rfl, ht⟩
    exact ⟨t, ht⟩
  · rintro ⟨t, ht⟩
    exact ⟨sh, sh', t, rfl, rfl, ht⟩

/-- Exactly one process survives an accepted run command, and records it iff the
    program was started, iff the program can be executed or `fork` fails. -/
theorem runOk_iff_canExec (h : step procs a = some procs') : RunOk procs a ↔ CanExec procs a := by
  obtain ⟨sh, hsh, hloop, hprocs'⟩ := command_of_step h
  have hself : ∀ sh₀, procs[a.i]? = some sh₀ → sh₀ = sh :=
    fun sh₀ h₀ => Option.some.inj (h₀.symm.trans hsh)
  constructor
  · -- a program that cannot be executed leaves a second shell
    rintro hok ⟨sh₀, h₀, hloop₀, haccepts⟩ pid hpid
    obtain rfl := hself sh₀ h₀
    have hcount := (hok ⟨sh₀, h₀, hloop₀, haccepts⟩ procs' h).1
    rw [hprocs', command_of_accepts haccepts, hpid] at hcount
    simp only [Shell.launch, callsExec_of_accepts haccepts, Shell.record, Option.toList_some,
      if_true, Bool.false_eq_true, if_false] at hcount
    unfold looping at hcount
    rw [List.countP_append, List.countP_singleton] at hcount
    have hset := looping_set (sh₀.record (words a.cmd) pid false) hsh hloop hloop
    unfold looping Shell.record at hset
    simp only [Bool.false_eq_true, if_false] at hset
    rw [hset, hloop] at hcount
    simp at hcount
  · rintro hcan haccepted procs₁ h₁
    obtain rfl := Option.some.inj (h.symm.trans h₁)
    have hexec := hcan haccepted
    obtain ⟨sh₀, h₀, -, haccepts⟩ := haccepted
    obtain rfl := hself sh₀ h₀
    have hsh' := getElem?_set_append (sh₀.command a.cmd a.launch).1 hsh
      (sh₀.command a.cmd a.launch).2
    rw [← hprocs'] at hsh'
    rw [gainsTask_iff hsh hsh', hprocs', command_of_accepts haccepts]
    cases hlaunch : a.launch with
    | forkFails =>
      refine ⟨?_, ?_⟩
      · simpa [Shell.launch, Shell.record] using looping_set sh₀ hsh hloop hloop
      · simp [Shell.launch, Shell.record, Launch.Started]
    | starts pid =>
      refine ⟨?_, ?_⟩
      · simp only [Shell.launch, callsExec_of_accepts haccepts, if_true, Option.toList_none,
          List.append_nil]
        exact looping_set _ hsh hloop hloop
      · refine iff_of_true ?_ ⟨pid, rfl⟩
        exact ⟨_, rfl, rfl⟩
    | execFails pid => exact absurd hlaunch (hexec pid)

/-- No step with a program that can be executed adds a process. -/
theorem length_of_canExec (h : step procs a = some procs') (hcan : CanExec procs a) :
    procs'.length = procs.length := by
  obtain ⟨sh, hsh, hloop, rfl⟩ := command_of_step h
  have hchild : (sh.command a.cmd a.launch).2 = none := by
    by_contra hne
    obtain ⟨haccepts, pid, hpid⟩ := child_of_command hne
    exact hcan ⟨sh, hsh, hloop, haccepts⟩ pid hpid
  simp [hchild]

end Step

/-! ## Runs -/

/-- In every run, every accepted run command is survived by exactly one process and
    recorded iff its program was started iff every program could be executed, or
    `fork` failed; and then there is one shell. -/
theorem survivors_iff {tr : List (List Shell × Action)} {procs : List Shell}
    (hrun : system.Run [Shell.initState] tr procs) :
    ((∀ p ∈ tr, RunOk p.1 p.2) ↔ ∀ p ∈ tr, CanExec p.1 p.2) ∧
      ((∀ p ∈ tr, CanExec p.1 p.2) → procs.length = 1) := by
  induction hrun with
  | nil => simp
  | snoc _ hstep ih =>
    simp only [List.forall_mem_append, List.forall_mem_singleton]
    constructor
    · rw [ih.1, runOk_iff_canExec hstep]
    · rintro ⟨hcan, hlast⟩
      rw [length_of_canExec hstep hlast, ih.2 hcan]

/-- `run x`, when there is no program `x`. -/
def runMissing : Action := { i := 0, cmd := "run x".toList, launch := .execFails 7 }

/-- Two shells read on, and the parent has recorded a task that never ran. -/
theorem survivors_counterexample :
    (step [Shell.initState] runMissing).map (fun procs => (looping procs, procs.map fun sh =>
      sh.allTasks.map Task.running)) = some (2, [[true], []]) ∧
    ¬ RunOk [Shell.initState] runMissing := by
  have hview : (step [Shell.initState] runMissing).map (fun procs => (looping procs,
      procs.map fun sh => sh.allTasks.map Task.running)) = some (2, [[true], []]) := by decide
  refine ⟨hview, fun hok => ?_⟩
  obtain ⟨procs', hstep, -⟩ := Option.map_eq_some_iff.mp hview
  have haccepted : Accepted [Shell.initState] runMissing :=
    ⟨Shell.initState, rfl, rfl, by unfold Shell.Accepts; decide⟩
  exact (runOk_iff_canExec hstep).mp hok haccepted 7 rfl

/-- Two programs are started, a third cannot be forked, and the first one is terminated. -/
def runDate : List Action :=
  [⟨0, "run date".toList, .starts 7⟩, ⟨0, [], .forkFails⟩, ⟨0, "run sleep 100".toList, .starts 8⟩,
    ⟨0, "run x".toList, .forkFails⟩, ⟨0, "lstasks".toList, .forkFails⟩,
    ⟨0, "terminate 0".toList, .forkFails⟩]

theorem survivors_iff_runDate : ∃ procs, system.exec [Shell.initState] runDate = some procs ∧
    (∀ p ∈ system.trace [Shell.initState] runDate, CanExec p.1 p.2) ∧
    (∀ p ∈ system.trace [Shell.initState] runDate, RunOk p.1 p.2) ∧ procs.length = 1 := by
  have hsome : (system.exec [Shell.initState] runDate).isSome := by decide +kernel
  obtain ⟨procs, hexec⟩ := Option.isSome_iff_exists.mp hsome
  have hlaunch : ∀ a ∈ runDate, a.launch = .forkFails ∨ a.launch = .starts 7 ∨
      a.launch = .starts 8 := by
    decide
  have hcan : ∀ p ∈ system.trace [Shell.initState] runDate, CanExec p.1 p.2 := by
    intro p hp _ pid hpid
    rcases hlaunch p.2 (System.mem_of_mem_trace hp) with h | h | h
    · exact absurd (h.symm.trans hpid) nofun
    · exact absurd (h.symm.trans hpid) nofun
    · exact absurd (h.symm.trans hpid) nofun
  have hboth := survivors_iff (System.Run.of_exec hexec)
  exact ⟨procs, hexec, hcan, hboth.1.mpr hcan, hboth.2 hcan⟩

end Cmput379.Msh379
