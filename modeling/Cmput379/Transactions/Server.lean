import Mathlib.Logic.Function.Basic
import Cmput379.Lib.Run
import Cmput379.Lib.Tally
import Cmput379.Lib.Text

/-!
# The transaction server

`server` and the clients of `Assignment_3` as one transition system. A step is one
call of a client, or of the server the part of its `select` loop up to the next
socket; every interleaving of such steps is a run. A read takes one whole message,
and what it returns is decoded as sent. Descriptors are chosen by the kernel among
those not in use.

Printing, sleeping and `Trans` are left out. The server prints into arrays of 128
characters (lines 203-204, 217-218), for which a name `hostname.pid` of 70 characters
is short enough. `transactionCount` and the clients' counters are `int`s, and fewer
than 2^31 messages are read. The lists `sent`, `reads`, `replies`
and `seen` are not part of the program; they only record what happened.
-/

namespace Cmput379.Transactions

open Cmput379.Lib

/-! ## Messages -/

/-- What `gethostname` and `getpid` give a client. -/
structure Client where
  hostname : Text
  pid : ℤ
  deriving DecidableEq

/-- `hostnamePID` (`client.cpp`, line 41). -/
def Client.hostnamePID (c : Client) : Text := c.hostname ++ '.' :: intText c.pid

/-- `"%s.%d,%s"` (`client.cpp`, line 59). -/
def Client.message (c : Client) (data : Text) : Text := c.hostnamePID ++ ',' :: data

/-- A line `T<n>`: one whose number `client` and `server` can read. -/
def IsTask (data : Text) : Prop := data.head? = some 'T' ∧ (stoi data.tail).isSome

instance (data : Text) : Decidable (IsTask data) := inferInstanceAs (Decidable (_ ∧ _))

/-- `hostNamePID` and `transaction` (`server.cpp`, lines 195-197). Without a comma
    `delim` is -1, and both are the whole text. -/
def decode (recvString : Text) : Text × Text :=
  if ',' ∈ recvString then
    (recvString.takeWhile (· ≠ ','), (recvString.dropWhile (· ≠ ',')).tail)
  else (recvString, recvString)

/-! ## The server -/

/-- `max_clients`. -/
def maxClients : ℕ := 30

/-- The variables of `server` that outlive a turn of its loop. -/
structure Server where
  clientSocket : List ℕ
  transactionCount : ℤ
  clientCompletedTasks : Tally Text

def Server.init : Server where
  clientSocket := List.replicate maxClients 0
  transactionCount := 0
  clientCompletedTasks := ∅

/-- What is sent back for a message. -/
inductive Answer
  | silent
  | reply (text : Text)
  | throws
  deriving DecidableEq

/-- Lines 183-221: a message that is not the end of the connection. -/
def Server.transact (srv : Server) (recvString : Text) : Server × Answer :=
  let (hostNamePID, transaction) := decode recvString
  let srv :=
    { srv with
      transactionCount := srv.transactionCount + 1
      clientCompletedTasks := srv.clientCompletedTasks.increment hostNamePID }
  if transaction.head? = some 'T' then
    match stoi transaction.tail with
    | none => (srv, .throws)
    | some _ => (srv, .reply (intText srv.transactionCount))
  else (srv, .silent)

/-- The new socket goes into the first free place, if there is one (lines 152-161). -/
def place (newSocket : ℕ) : List ℕ → List ℕ
  | [] => []
  | sd :: slots => if sd = 0 then newSocket :: slots else sd :: place newSocket slots

/-- `readfds` when `select` returns: whether the master socket is in it, and which
    client sockets. -/
structure Readfds where
  master : Bool
  fds : List ℕ
  deriving DecidableEq

/-- Where the server is: before `select`, before `accept`, before the test of
    `client_socket[i]`, or behind the loop. -/
inductive Pc
  | select
  | accept (readfds : Readfds)
  | slot (i : ℕ) (readfds : Readfds)
  | ended
  deriving DecidableEq

/-! ## The system -/

/-- Before `connect`; before a line is read; before `recv`; ended. -/
inductive Phase
  | absent
  | ready
  | waiting
  | closed
  deriving DecidableEq

/-- The server, its open connections by descriptor, and the clients: `up c` are the
    messages of client `c` that the server has not read, and `down c` the replies
    that `c` has not read. -/
structure State (ι : Type) where
  server : Server
  pc : Pc
  conn : ℕ → Option ι
  backlog : List ι
  phase : ι → Phase
  up : ι → List Text
  down : ι → List Text
  sent : ι → List Text
  reads : List (ι × Text)
  replies : List (ι × Text)
  seen : ι → List Text

/-- The clients of a run: their keys are distinct, and no hostname has a comma. -/
structure Site (ι : Type) where
  client : ι → Client
  comma : ∀ c, ',' ∉ (client c).hostname
  injective : Function.Injective fun c => (client c).hostnamePID

/-- Client `c` connects, sends the line `data`, gets its reply, or is done; or the
    server takes a step, in which `newSocket` is what `accept` returns. -/
inductive Action (ι : Type)
  | connect (c : ι)
  | send (c : ι) (data : Text)
  | recv (c : ι)
  | close (c : ι)
  | server (newSocket : ℕ)

namespace State

variable {ι : Type} [DecidableEq ι]

def init : State ι where
  server := .init
  pc := .select
  conn _ := none
  backlog := []
  phase _ := .absent
  up _ := []
  down _ := []
  sent _ := []
  reads := []
  replies := []
  seen _ := []

/-! ### Clients -/

def connect (s : State ι) (c : ι) : Option (State ι) :=
  if s.phase c = .absent then
    some { s with phase := Function.update s.phase c .ready, backlog := s.backlog ++ [c] }
  else none

/-- `client.cpp`, lines 54-64, on a line `T<n>`. -/
def send (site : Site ι) (s : State ι) (c : ι) (data : Text) : Option (State ι) :=
  if s.phase c = .ready ∧ IsTask data then
    some { s with
      phase := Function.update s.phase c .waiting
      up := Function.update s.up c (s.up c ++ [(site.client c).message data])
      sent := Function.update s.sent c (s.sent c ++ [data]) }
  else none

/-- `client.cpp`, lines 71-78: `recv` takes all there is. -/
def recv (s : State ι) (c : ι) : Option (State ι) :=
  if s.phase c = .waiting ∧ s.down c ≠ [] then
    some { s with
      phase := Function.update s.phase c .ready
      down := Function.update s.down c []
      seen := Function.update s.seen c (s.seen c ++ [(s.down c).flatten]) }
  else none

/-- The end of the input (`client.cpp`, line 90). -/
def close (s : State ι) (c : ι) : Option (State ι) :=
  if s.phase c = .ready then some { s with phase := Function.update s.phase c .closed } else none

/-! ### The server -/

/-- There is a message, or the client has closed its end. -/
def readable (s : State ι) (sd : ℕ) : Bool :=
  match s.conn sd with
  | none => false
  | some c => s.up c ≠ [] || s.phase c = .closed

/-- Lines 110-135. -/
def readfds (s : State ι) : Readfds where
  master := s.backlog ≠ []
  fds := s.server.clientSocket.filter fun sd => 0 < sd && s.readable sd

/-- Lines 134-166 up to `accept`; with nothing ready, `select` times out. -/
def select (s : State ι) : State ι :=
  if s.readfds.master then { s with pc := .accept s.readfds }
  else if s.readfds.fds = [] then { s with pc := .ended }
  else { s with pc := .slot 0 s.readfds }

/-- Lines 145-161. -/
def accept (s : State ι) (newSocket : ℕ) (readfds : Readfds) : Option (State ι) :=
  match s.backlog with
  | [] => none
  | c :: backlog =>
    if newSocket ≠ 0 ∧ s.conn newSocket = none then
      some { s with
        server := { s.server with clientSocket := place newSocket s.server.clientSocket }
        conn := Function.update s.conn newSocket (some c)
        backlog := backlog
        pc := .slot 0 readfds }
    else none

/-- Lines 177-182, for the socket in place `i`. -/
def disconnect (s : State ι) (i sd : ℕ) : State ι :=
  { s with
    server := { s.server with clientSocket := s.server.clientSocket.set i 0 }
    conn := Function.update s.conn sd none }

/-- Lines 183-221 for the message `m` of client `c`. -/
def transact (s : State ι) (c : ι) (m : Text) : State ι :=
  let (server, answer) := s.server.transact m
  let s := { s with server := server, reads := s.reads ++ [(c, m)] }
  match answer with
  | .silent => s
  | .reply text =>
    { s with
      down := Function.update s.down c (s.down c ++ [text])
      replies := s.replies ++ [(c, text)] }
  | .throws => { s with pc := .ended }

/-- Lines 171-222 for the socket in place `i`: `read` blocks while there is nothing,
    and is called on open descriptors only (`conn_of_reachable`). -/
def serve (s : State ι) (i sd : ℕ) : Option (State ι) :=
  match s.conn sd with
  | none => none
  | some c =>
    match s.up c with
    | m :: rest => some ({ s with up := Function.update s.up c rest }.transact c m)
    | [] => if s.phase c = .closed then some (s.disconnect i sd) else none

/-- Line 169-173: the next socket. -/
def slot (s : State ι) (i : ℕ) (readfds : Readfds) : Option (State ι) :=
  match s.server.clientSocket[i]? with
  | none => some { s with pc := .select }
  | some sd =>
    let s := { s with pc := .slot (i + 1) readfds }
    if sd ∈ readfds.fds then s.serve i sd else some s

end State

variable {ι : Type} [DecidableEq ι]

def step (site : Site ι) (s : State ι) : Action ι → Option (State ι)
  | .connect c => s.connect c
  | .send c data => s.send site c data
  | .recv c => s.recv c
  | .close c => s.close c
  | .server newSocket =>
    match s.pc with
    | .select => some s.select
    | .accept readfds => s.accept newSocket readfds
    | .slot i readfds => s.slot i readfds
    | .ended => none

/-- The server and its clients. -/
def system (site : Site ι) : System (State ι) (Action ι) where
  init s := s = .init
  step := step site

end Cmput379.Transactions
