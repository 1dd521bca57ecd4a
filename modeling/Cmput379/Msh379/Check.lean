import Mathlib.Data.List.Infix
import Cmput379.Lib.Lines

/-!
# check

The command `check` of `Assignment_1/msh379.cpp` (lines 278-388): what `ps` prints is read
into rows, and the rows are searched for a process and for what descends from it. The
output of the pipe is an argument, `none` when `popen` fails. `get_c_processes` calls
itself; `fuel` bounds how deep.
-/

namespace Cmput379.Msh379

open Cmput379.Lib

/-- `struct parent` (lines 66-74). -/
structure Parent where
  user : Text
  pid : Text
  ppid : Text
  state : Text
  start : Text
  cmd : Text
  others : Text
  deriving DecidableEq, Repr

/-! ## processBuffer -/

namespace Parent

/-- `parent newParent`. -/
def new : Parent :=
  { user := [], pid := [], ppid := [], state := [], start := [], cmd := [], others := [] }

/-- Lines 287-301: the token with index `i` is stored. -/
def setToken (newParent : Parent) (i : ℕ) (token : Text) : Parent :=
  match i with
  | 0 => { newParent with user := token }
  | 1 => { newParent with pid := token }
  | 2 => { newParent with ppid := token }
  | 3 => { newParent with state := token }
  | 4 => { newParent with start := token }
  | 5 => { newParent with cmd := token }
  | _ => { newParent with others := newParent.others ++ token }

/-- The loop over the tokens (lines 285-304); empty ones do not count. -/
def setTokens (newParent : Parent) (i : ℕ) : List Text → Parent
  | [] => newParent
  | token :: tokens =>
    if token = [] then newParent.setTokens i tokens
    else (newParent.setToken i token).setTokens (i + 1) tokens

end Parent

/-- `processBuffer` (lines 279-307). Behind a last blank `getline` finds no further token;
    it would be empty. -/
def processBuffer (buffer : Text) : Parent := Parent.new.setTokens 0 (buffer.splitOn ' ')

/-! ## getParent -/

/-- `getParent` (lines 310-328); `char buffer[256]` has room for 255 characters. -/
def getParent (pipe : Option Text) : List Parent :=
  match pipe with
  | none => []
  | some output => (fgetsAll 255 output).map fun buffer => processBuffer (cString buffer)

/-! ## getState, get_c_processes -/

/-- What one call of `printf` is for. -/
inductive Printed
  | noTaskNumber
  | tooManyArgs
  | terminated (pid : Text)
  | running (pid : Text)
  | heading
  | row (p : Parent)
  deriving DecidableEq, Repr

/-- The text it prints. -/
def Printed.text : Printed → Text
  | .noTaskNumber => "Error: No task number\n".toList
  | .tooManyArgs => "Error: Too many args\n".toList
  | .terminated pid => "    target_pid= ".toList ++ pid ++ " terminated\n".toList
  | .running pid => "    target_pid= ".toList ++ pid ++ " is running:\n".toList
  | .heading => "    USER       PID    PPID S  STARTED CMD\n".toList
  | .row p =>
    "    ".toList ++ [' '].intercalate [p.user, p.pid, p.ppid, p.state, p.start, p.cmd, p.others]

/-- `getState` (lines 331-355), for one process of the table. -/
def stateOf (targetPID : Text) (currentProcess : Parent) : List Printed :=
  if currentProcess.pid = targetPID then
    if "defunct".toList <:+: currentProcess.others then
      [.terminated currentProcess.pid, .heading, .row currentProcess]
    else [.running currentProcess.pid, .heading, .row currentProcess]
  else []

/-- `getState`. -/
def getState (processes : List Parent) (targetPID : Text) : List Printed :=
  processes.flatMap (stateOf targetPID)

/-- The loop of `get_c_processes` over the rows that are still to come, with `calls` for
    the calls it makes: the rows it prints, or `none` when a call does not come back. -/
def childLoop (calls : Text → Option (List Parent)) (targetPID : Text) :
    List Parent → Option (List Parent)
  | [] => some []
  | currentProcess :: rest =>
    if currentProcess.ppid = targetPID then do
      let below ← calls currentProcess.pid
      let others ← childLoop calls targetPID rest
      some (currentProcess :: (below ++ others))
    else childLoop calls targetPID rest

/-- `get_c_processes` (lines 357-371). -/
def get_c_processes (processes : List Parent) : ℕ → Text → Option (List Parent)
  | 0, _ => none
  | fuel + 1, targetPID => childLoop (get_c_processes processes fuel) targetPID processes

/-! ## check -/

/-- `check` (lines 374-388): the text it prints, or `none` when it does not come back. -/
def check (fuel : ℕ) (tokens : List Text) (pipe : Option Text) : Option Text :=
  if tokens.length < 2 then some Printed.noTaskNumber.text
  else if tokens.length > 2 then some Printed.tooManyArgs.text
  else do
    let targetPID := tokens.getD 1 []
    let processes := getParent pipe
    let descendants ← get_c_processes processes fuel targetPID
    some ((getState processes targetPID ++ descendants.map Printed.row).flatMap Printed.text)

end Cmput379.Msh379
