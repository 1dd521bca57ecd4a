import Cmput379.Lib.Run
import Cmput379.Lib.Text

/-!
# msh379

The command loop of `Assignment_1/msh379.cpp`. A shell process is its two globals,
whether it is still in the loop, and the calls of `kill` it made, which only record
what happened. `command` handles one line of input: the process that read it goes
on as the first component, and a forked child that comes back to the loop is the
second.

`Move`, `move_of_command`: what a command can do to the process that reads it.
-/

namespace Cmput379.Msh379

open Cmput379.Lib

/-- `#define MAXTASKS 32`. -/
def MAXTASKS : ℤ := 32

/-- `struct task` (lines 56-61). -/
structure Task where
  index : ℤ
  pid : ℤ
  cmd : Text
  running : Bool
  deriving DecidableEq, Repr

inductive Signal
  | SIGSTOP
  | SIGCONT
  | SIGKILL
  deriving DecidableEq, Repr

/-- A call `kill(pid, signal)` for `allTasks[task]`. -/
structure Kill where
  task : ℕ
  pid : ℤ
  signal : Signal
  deriving DecidableEq, Repr

/-- Whether the process reads another line. It has left the loop by `exit` or
    `quit`, or an exception has ended it: of `stoi`, or of `allTasks.at`. -/
inductive Status
  | looping
  | exited
  | quit
  | invalidNumber
  | outOfRange
  deriving DecidableEq, Repr

/-- A shell process. -/
structure Shell where
  taskIndex : ℤ
  allTasks : List Task
  status : Status
  kills : List Kill
  deriving DecidableEq, Repr

/-- How `fork` and the child's `execlp` come out; `pid` is what `fork` returns to
    the parent. -/
inductive Launch
  | forkFails
  | starts (pid : ℤ)
  | execFails (pid : ℤ)
  deriving DecidableEq, Repr

namespace Shell

/-- The process `main` starts as. -/
def initState : Shell := { taskIndex := 0, allTasks := [], status := .looping, kills := [] }

/-! ## run -/

/-- The tokens after `run`, each after a blank (lines 187-192). -/
def cmdStr (tokens : List Text) : Text := tokens.tail.flatMap fun token => ' ' :: token

/-- Lines 180-202: with `errno` set nothing is recorded. -/
def record (sh : Shell) (tokens : List Text) (childPID : ℤ) (errno : Bool) : Shell :=
  if errno then sh
  else
    { sh with
      allTasks := sh.allTasks ++
        [{ index := sh.taskIndex, pid := childPID, cmd := cmdStr tokens, running := true }]
      taskIndex := sh.taskIndex + 1 }

/-- The cases of the child's `switch`, each a call of `execlp` (lines 152-177). -/
def callsExec (tokens : List Text) : Bool := 2 ≤ tokens.length && tokens.length ≤ 6

/-- Lines 142-202 in the parent, and in the child unless it becomes the program.
    Both go on behind the `switch`; `errno` is set in the child by a failing
    `execlp`, and in the parent only when there is no child. -/
def launch (sh : Shell) (tokens : List Text) : Launch → Shell × Option Shell
  | .forkFails => (sh.record tokens (-1) true, none)
  | .starts pid =>
    (sh.record tokens pid false,
      if callsExec tokens then none else some (sh.record tokens 0 false))
  | .execFails pid => (sh.record tokens pid false, some (sh.record tokens 0 (callsExec tokens)))

/-- `run` (lines 131-205). -/
def run (sh : Shell) (tokens : List Text) (o : Launch) : Shell × Option Shell :=
  if tokens.length = 1 then (sh, none)
  else if tokens.length > 6 then (sh, none)
  else if sh.taskIndex > MAXTASKS then (sh, none)
  else sh.launch tokens o

/-! ## stop, continue, terminate, exit, quit -/

/-- A value of `int` as a `size_t`. -/
def toSize (x : ℤ) : ℕ := (x % 2 ^ 64).toNat

/-- `allTasks.at(taskNo)`, used by `f`; it throws when the index is out of range. -/
def atTask (sh : Shell) (taskNo : ℤ) (f : Task → Shell) : Shell :=
  match sh.allTasks[toSize taskNo]? with
  | some t => f t
  | none => { sh with status := .outOfRange }

/-- What `stopTask`, `continueTask` and `terminate` have in common: one argument, a
    number, compared as a `size_t` with the size of `allTasks`. -/
def withTaskNo (sh : Shell) (tokens : List Text) (f : ℤ → Shell) : Shell :=
  if tokens.length < 2 then sh
  else if tokens.length > 2 then sh
  else
    match tokens[1]?.bind stoi with
    | none => { sh with status := .invalidNumber }
    | some taskNo => if toSize taskNo < sh.allTasks.length then f taskNo else sh

/-- `kill(t.pid, signal)` for the task `taskNo`. -/
def kill (sh : Shell) (taskNo : ℤ) (t : Task) (signal : Signal) : Shell :=
  { sh with kills := sh.kills ++ [⟨toSize taskNo, t.pid, signal⟩] }

/-- `stopTask` (lines 208-226). -/
def stopTask (sh : Shell) (tokens : List Text) : Shell :=
  sh.withTaskNo tokens fun taskNo => sh.atTask taskNo fun t => sh.kill taskNo t .SIGSTOP

/-- `continueTask` (lines 229-247). -/
def continueTask (sh : Shell) (tokens : List Text) : Shell :=
  sh.withTaskNo tokens fun taskNo => sh.atTask taskNo fun t => sh.kill taskNo t .SIGCONT

/-- `terminate` (lines 250-275). -/
def terminate (sh : Shell) (tokens : List Text) : Shell :=
  sh.withTaskNo tokens fun taskNo => sh.atTask taskNo fun t =>
    if t.running = false then sh
    else
      { sh.kill taskNo t .SIGKILL with
        allTasks := sh.allTasks.set (toSize taskNo) { t with running := false } }

/-- The calls of `kill` in the loop of `exitLoop` over the tasks from number `k` on. -/
def killAll (k : ℕ) : List Task → List Kill
  | [] => []
  | t :: ts => (if t.running then [⟨k, t.pid, .SIGKILL⟩] else []) ++ killAll (k + 1) ts

/-- `exitLoop` (lines 391-400), and the `break` behind it. -/
def exitLoop (sh : Shell) : Shell :=
  { sh with kills := sh.kills ++ killAll 0 sh.allTasks, status := .exited }

/-- `quitLoop` (lines 403-405), and the `break` behind it. -/
def quitLoop (sh : Shell) : Shell := { sh with status := .quit }

/-! ## The command loop -/

/-- One turn of the loop on the line `cmd` (lines 421-470). -/
def command (sh : Shell) (cmd : Text) (o : Launch) : Shell × Option Shell :=
  let tokens := words cmd
  match tokens with
  | [] => (sh, none)
  | name :: _ =>
    if name = "cdir".toList then (sh, none)
    else if name = "pdir".toList then (sh, none)
    else if name = "lstasks".toList then (sh, none)
    else if name = "run".toList then sh.run tokens o
    else if name = "stop".toList then (sh.stopTask tokens, none)
    else if name = "continue".toList then (sh.continueTask tokens, none)
    else if name = "terminate".toList then (sh.terminate tokens, none)
    else if name = "check".toList then (sh, none)
    else if name = "exit".toList then (sh.exitLoop, none)
    else if name = "quit".toList then (sh.quitLoop, none)
    else (sh, none)

end Shell

/-! ## What a command can do -/

/-- What a command can do to the process that reads it. -/
inductive Move (sh : Shell) : Shell → Prop
  | idle : Move sh sh
  | record (tokens : List Text) (pid : ℤ) : Move sh (sh.record tokens pid false)
  | throw : Move sh { sh with status := .invalidNumber }
  | signal {k : ℕ} {t : Task} {sig : Signal} (ht : sh.allTasks[k]? = some t)
      (hsig : sig ≠ .SIGKILL) : Move sh { sh with kills := sh.kills ++ [⟨k, t.pid, sig⟩] }
  | terminate {k : ℕ} {t : Task} (ht : sh.allTasks[k]? = some t) (hrun : t.running = true) :
      Move sh { sh with
        kills := sh.kills ++ [⟨k, t.pid, .SIGKILL⟩]
        allTasks := sh.allTasks.set k { t with running := false } }
  | exit : Move sh sh.exitLoop
  | quit : Move sh sh.quitLoop

namespace Shell

variable {sh : Shell} {tokens : List Text}

theorem move_of_run (o : Launch) : Move sh (sh.run tokens o).1 := by
  unfold run
  split_ifs
  · exact .idle
  · exact .idle
  · exact .idle
  · cases o with
    | forkFails => exact .idle
    | starts pid => exact .record tokens pid
    | execFails pid => exact .record tokens pid

/-- The branches of `withTaskNo`. The index `at` gets has passed the comparison with the
    size, converted in the same way. -/
@[elab_as_elim]
theorem withTaskNo_cases {motive : Shell → Prop} {f : ℤ → Task → Shell} (idle : motive sh)
    (throw : motive { sh with status := .invalidNumber })
    (task : ∀ taskNo t, sh.allTasks[toSize taskNo]? = some t → motive (f taskNo t)) :
    motive (sh.withTaskNo tokens fun taskNo => sh.atTask taskNo (f taskNo)) := by
  unfold withTaskNo
  split_ifs
  · exact idle
  · exact idle
  · cases tokens[1]?.bind stoi with
    | none => exact throw
    | some taskNo =>
      dsimp only
      split_ifs with hlt
      · unfold atTask
        rw [List.getElem?_eq_getElem hlt]
        exact task taskNo _ (List.getElem?_eq_getElem hlt)
      · exact idle

theorem move_of_withTaskNo {f : ℤ → Task → Shell}
    (h : ∀ taskNo t, sh.allTasks[toSize taskNo]? = some t → Move sh (f taskNo t)) :
    Move sh (sh.withTaskNo tokens fun taskNo => sh.atTask taskNo (f taskNo)) :=
  withTaskNo_cases .idle .throw h

theorem move_of_terminate : Move sh (sh.terminate tokens) := by
  apply move_of_withTaskNo
  intro taskNo t ht
  split_ifs with hrun
  · exact .idle
  · exact .terminate ht (Bool.eq_true_of_not_eq_false hrun)

/-- The branches of `command`, by the first word of the line. -/
@[elab_as_elim]
theorem command_cases {motive : Shell × Option Shell → Prop} {cmd : Text} {o : Launch}
    (idle : motive (sh, none))
    (run : (words cmd).head? = some "run".toList → motive (sh.run (words cmd) o))
    (stop : motive (sh.stopTask (words cmd), none))
    (resume : motive (sh.continueTask (words cmd), none))
    (terminate : motive (sh.terminate (words cmd), none))
    (exit : motive (sh.exitLoop, none)) (quit : motive (sh.quitLoop, none)) :
    motive (sh.command cmd o) := by
  unfold command
  cases htokens : words cmd with
  | nil => exact idle
  | cons name args =>
    rw [htokens] at run stop resume terminate
    -- the comparisons with the names, in their order
    refine iteInduction (fun _ => idle) fun _ => ?_
    refine iteInduction (fun _ => idle) fun _ => ?_
    refine iteInduction (fun _ => idle) fun _ => ?_
    refine iteInduction (fun hname => run (congrArg some hname)) fun _ => ?_
    refine iteInduction (fun _ => stop) fun _ => ?_
    refine iteInduction (fun _ => resume) fun _ => ?_
    refine iteInduction (fun _ => terminate) fun _ => ?_
    refine iteInduction (fun _ => idle) fun _ => ?_
    refine iteInduction (fun _ => exit) fun _ => ?_
    exact iteInduction (fun _ => quit) fun _ => idle

theorem move_of_command (cmd : Text) (o : Launch) : Move sh (sh.command cmd o).1 := by
  refine command_cases .idle (fun _ => move_of_run o) ?_ ?_ move_of_terminate .exit .quit
  · exact move_of_withTaskNo fun taskNo t ht => .signal ht nofun
  · exact move_of_withTaskNo fun taskNo t ht => .signal ht nofun

end Shell

end Cmput379.Msh379
