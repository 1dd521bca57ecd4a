import Cmput379.Lib.Run
import Cmput379.Lib.Text

/-!
# shell379

The shell of `Assignment_1/2022F`. Its state is the `processes` map, where it stands
in the command loop, and what the kernel keeps for it: the children it forked and
has not reaped. `events` only records what the map and the children were when an
entry was added and when a signal was sent. `pclose` in `getRunTime` reaps the child
of `popen` before `jobs` returns, so that `jobs` changes nothing here.

`Move`, `move_of_functions`: what a command can do.
-/

namespace Cmput379.Shell379

open Cmput379.Lib

def LINE_LENGTH : ℕ := 100
def MAX_PT_ENTRIES : ℕ := 32
def MAX_ARGS : ℕ := 7
def MAX_LENGTH : ℕ := 20

/-- `struct task` (`Process.h`). -/
structure Task where
  pid : ℤ
  cmd : Text
  running : Bool
  deriving DecidableEq

/-- `map<pid_t, task>`. -/
abbrev Processes := Std.TreeMap ℤ Task

inductive Signal
  | SIGKILL
  | SIGCONT
  | SIGSTOP
  deriving DecidableEq

/-- A forked child that has not been reaped. -/
structure Child where
  pid : ℤ
  finished : Bool
  deriving DecidableEq

/-- `emplace(pid, ..)` into a map with these keys; `kill(pid, signal)` while these
    were the unreaped children. -/
inductive Event
  | emplaced (pid : ℤ) (keys : List ℤ)
  | signalled (pid : ℤ) (signal : Signal) (children : List ℤ)
  deriving DecidableEq

/-- Where the process stands: before `getline`, in the `waitpid` of `run` or of
    `wait`, or ended, by a call of `exit`, or by an exception or a fault. -/
inductive Mode
  | reading
  | foreground (pid : ℤ)
  | waiting (pid : ℤ)
  | exited
  | aborted
  deriving DecidableEq

structure Shell where
  processes : Processes
  children : List Child
  mode : Mode
  events : List Event

namespace Shell

def initState : Shell := { processes := ∅, children := [], mode := .reading, events := [] }

/-- The pids of the unreaped children. -/
def childPids (sh : Shell) : List ℤ := sh.children.map Child.pid

/-! ## System calls -/

/-- The effect of `fork` in the parent. -/
def forked (sh : Shell) (pid : ℤ) : Shell :=
  { sh with children := sh.children ++ [{ pid := pid, finished := false }] }

/-- `kill(pid, signal)`. -/
def sendSignal (sh : Shell) (pid : ℤ) (signal : Signal) : Shell :=
  { sh with events := sh.events ++ [.signalled pid signal sh.childPids] }

/-- `waitpid(pid, &status, 0)` for `pid > 0`: `none` while it blocks, else whether it
    returned the pid, which it does not where there is no such child. -/
def waitpid (sh : Shell) (pid : ℤ) : Option (Bool × Shell) :=
  match sh.children.find? (·.pid = pid) with
  | none => some (false, sh)
  | some c =>
    if c.finished then
      some (true, { sh with children := sh.children.filter (·.pid ≠ pid) })
    else none

/-! ## run -/

/-- The tokens, each after a blank (lines 134-138). -/
def cmdStr (tokens : List Text) : Text := tokens.flatMap fun token => ' ' :: token

/-- Lines 47-55. -/
def runInBackground (tokens : List Text) : Bool :=
  tokens.length > 1 && tokens.getLast? = some ['&']

/-- `processes.emplace(pid, newTask)`. -/
def emplace (sh : Shell) (pid : ℤ) (newTask : Task) : Shell :=
  { sh with
    processes := sh.processes.insertIfNew pid newTask
    events := sh.events ++ [.emplaced pid sh.processes.keys] }

/-- Lines 132-154, up to the `waitpid` of a foreground process. -/
def record (sh : Shell) (tokens : List Text) (pid : ℤ) : Shell :=
  let sh := (sh.forked pid).emplace pid { pid := pid, cmd := cmdStr tokens, running := true }
  if runInBackground tokens then sh else { sh with mode := .foreground pid }

/-- `run` in the parent; `fork` is the pid that `fork` returns, if it returns one. -/
def run (sh : Shell) (tokens : List Text) (fork : Option ℤ) : Shell :=
  if sh.processes.size ≥ MAX_PT_ENTRIES then sh
  else
    match fork with
    | none => { sh with mode := .exited }
    | some pid => sh.record tokens pid

/-- Lines 150-151, once `waitpid` has returned. -/
def finishRun (sh : Shell) (pid : ℤ) : Shell :=
  { sh with processes := sh.processes.erase pid, mode := .reading }

/-! ## Commands -/

/-- The loop of `exit` over the map, and `exit(1)`. -/
def exit (sh : Shell) : Shell :=
  { (sh.processes.toList.foldl (fun sh item => sh.sendSignal item.2.pid .SIGKILL) sh) with
    processes := ∅
    mode := .exited }

/-- The calls of `getRunTime` in `listJobs`, one for each entry: where `fork` fails,
    `popen` returns a null pointer, which `fscanf` reads from. -/
def getRunTimes (sh : Shell) (fork : Option ℤ) : Shell :=
  if sh.processes.isEmpty || fork.isSome then sh else { sh with mode := .aborted }

/-- What `kill`, `resume`, `suspend` and `wait` have in common: one argument, a
    number, that is a key of the map. -/
def withPid (sh : Shell) (tokens : List Text) (f : ℤ → Shell) : Shell :=
  if tokens.length ≠ 2 then sh
  else
    match tokens[1]?.bind stoi with
    | none => { sh with mode := .aborted }
    | some pid => if sh.processes.contains pid then f pid else sh

def kill (sh : Shell) (tokens : List Text) : Shell :=
  sh.withPid tokens fun pid =>
    { sh.sendSignal pid .SIGKILL with processes := sh.processes.erase pid }

/-- `currentItem->running = running`. -/
def setRunning (running : Bool) (t : Task) : Task := { t with running := running }

def resume (sh : Shell) (tokens : List Text) : Shell :=
  sh.withPid tokens fun pid =>
    { sh.sendSignal pid .SIGCONT with processes := sh.processes.modify pid (setRunning true) }

def suspend (sh : Shell) (tokens : List Text) : Shell :=
  sh.withPid tokens fun pid =>
    { sh.sendSignal pid .SIGSTOP with processes := sh.processes.modify pid (setRunning false) }

/-- `wait`, up to its `waitpid`. -/
def wait (sh : Shell) (tokens : List Text) : Shell :=
  sh.withPid tokens fun pid => { sh with mode := .waiting pid }

/-- Lines 178-180, once `waitpid` has returned. -/
def finishWait (sh : Shell) (pid : ℤ) (reaped : Bool) : Shell :=
  if reaped then { sh with processes := sh.processes.erase pid, mode := .reading }
  else { sh with mode := .reading }

def sleep (sh : Shell) (tokens : List Text) : Shell :=
  if tokens.length < 2 then sh
  else
    match tokens[1]?.bind stoi with
    | none => { sh with mode := .aborted }
    | some _ => sh

def checkTokenSize (tokens : List Text) : Bool :=
  if tokens.length > MAX_ARGS then false
  else tokens.all fun token => !(token.length > MAX_LENGTH)

/-- `functions` (lines 208-252); `tokens.at(0)` throws when there is no token. -/
def functions (sh : Shell) (cmd : Text) (fork : Option ℤ) : Shell :=
  if cmd.length > LINE_LENGTH then sh
  else
    let tokens := words cmd
    if checkTokenSize tokens then
      match tokens with
      | [] => { sh with mode := .aborted }
      | name :: _ =>
        if name = "exit".toList then sh.exit
        else if name = "jobs".toList then sh.getRunTimes fork
        else if name = "kill".toList then sh.kill tokens
        else if name = "resume".toList then sh.resume tokens
        else if name = "sleep".toList then sh.sleep tokens
        else if name = "suspend".toList then sh.suspend tokens
        else if name = "wait".toList then sh.wait tokens
        else sh.run tokens fork
    else sh

/-- One turn of the loop of `main`. -/
def turn (sh : Shell) (cmd : Text) (fork : Option ℤ) : Shell :=
  if cmd = [] then sh else sh.functions cmd fork

end Shell

/-! ## What a command can do -/

/-- What a command can do before it returns or waits. -/
inductive Move (sh : Shell) (fork : Option ℤ) : Shell → Prop
  | idle : Move sh fork sh
  | stop (mode : Mode) : Move sh fork { sh with mode := mode }
  | exit : Move sh fork sh.exit
  | kill {pid : ℤ} (h : pid ∈ sh.processes) : Move sh fork
      { sh.sendSignal pid .SIGKILL with processes := sh.processes.erase pid }
  | signal {pid : ℤ} (h : pid ∈ sh.processes) (sig : Signal) (running : Bool) : Move sh fork
      { sh.sendSignal pid sig with
        processes := sh.processes.modify pid (Shell.setRunning running) }
  | record (tokens : List Text) {pid : ℤ} (hfork : fork = some pid)
      (hsize : sh.processes.size < MAX_PT_ENTRIES) : Move sh fork (sh.record tokens pid)

namespace Shell

variable {sh : Shell} {tokens : List Text} {fork : Option ℤ}

theorem move_of_withPid {f : ℤ → Shell} (h : ∀ pid ∈ sh.processes, Move sh fork (f pid)) :
    Move sh fork (sh.withPid tokens f) := by
  unfold withPid
  split_ifs
  · exact .idle
  · cases tokens[1]?.bind stoi with
    | none => exact .stop .aborted
    | some pid =>
      dsimp only
      split_ifs with hmem
      · exact h pid hmem
      · exact .idle

theorem move_of_getRunTimes : Move sh fork (sh.getRunTimes fork) := by
  unfold getRunTimes
  split_ifs
  · exact .idle
  · exact .stop .aborted

theorem move_of_sleep : Move sh fork (sh.sleep tokens) := by
  unfold sleep
  split_ifs
  · exact .idle
  · cases tokens[1]?.bind stoi with
    | none => exact .stop .aborted
    | some _ => exact .idle

theorem move_of_run : Move sh fork (sh.run tokens fork) := by
  unfold run
  split_ifs with hsize
  · exact .idle
  · cases fork with
    | none => exact .stop .exited
    | some pid => exact .record tokens rfl (by omega)

theorem move_of_functions (cmd : Text) : Move sh fork (sh.functions cmd fork) := by
  unfold functions
  refine iteInduction (fun _ => .idle) fun _ => ?_
  refine iteInduction (fun _ => ?_) fun _ => .idle
  cases words cmd with
  | nil => exact .stop .aborted
  | cons name args =>
    -- the comparisons with the names, in their order
    refine iteInduction (fun _ => .exit) fun _ => ?_
    refine iteInduction (fun _ => move_of_getRunTimes) fun _ => ?_
    refine iteInduction (fun _ => move_of_withPid fun pid hpid => .kill hpid) fun _ => ?_
    refine iteInduction (fun _ => move_of_withPid fun pid hpid => .signal hpid .SIGCONT true)
      fun _ => ?_
    refine iteInduction (fun _ => move_of_sleep) fun _ => ?_
    refine iteInduction (fun _ => move_of_withPid fun pid hpid => .signal hpid .SIGSTOP false)
      fun _ => ?_
    refine iteInduction (fun _ => move_of_withPid fun pid _ => .stop (.waiting pid)) fun _ => ?_
    exact move_of_run

end Shell

end Cmput379.Shell379
