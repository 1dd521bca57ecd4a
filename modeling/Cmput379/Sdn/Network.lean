import Mathlib.Data.Fintype.Basic
import Mathlib.Data.Fin.VecNotation
import Cmput379.Lib.Run
import Cmput379.Sdn.Switch
import Cmput379.Sdn.Controller

/-!
# The network

The controller, `n` switches, a socket per switch and the FIFOs between
switches, as one transition system. A step is one turn of part 1 of a
switch's loop, or the handling of one packet; every interleaving of such steps
is a run. No process closes, no system call fails, and every read delivers
exactly one packet as written: `m.packet.text` is what the reader parses. In
particular `openFifo` succeeds (the neighbour has started and made the FIFO), and
`poll` reports the controller's socket, although `switchLoop` never sets its
`events`. Fewer than 2^31 packets are counted: the counters are `int`s.

Every message carries its cause: a packet written while handling a message has
the cause of that message, and a packet written while handling an admitted
traffic line has the number of that line. Causes and the log are not part of
the program; they only record what happened.
-/

namespace Cmput379.Sdn

open Cmput379.Lib

/-- The descriptors of the controller. -/
inductive Conn (n : ℕ)
  | stdin
  | listener
  | switch (k : Fin n)
  deriving DecidableEq

/-- `operator[]` inserts 0 for a missing key. -/
instance (n : ℕ) : Inhabited (Conn n) := ⟨.stdin⟩

/-- The command lines of `n` switches, with the lines of their traffic files. -/
structure Network (n : ℕ) where
  cfg : Fin n → SwitchConfig
  file : Fin n → List Text

/-- A packet on its way. -/
structure Msg where
  cause : Option ℕ
  packet : Packet
  deriving DecidableEq

/-- What happened: switch `k` admitted the traffic line number `cause`; it wrote
    a packet; it handled a packet read from `pfds[port]`; the controller handled
    a packet of switch `k` in slot `slot`, when its table had `known` entries. -/
inductive Event (n : ℕ)
  | admitted (k : Fin n) (cause : ℕ) (srcIp destIp : ℤ)
  | wrote (k : Fin n) (cause : Option ℕ) (w : Write)
  | handled (k : Fin n) (cause : Option ℕ) (port : ℤ) (packet : Packet)
  | served (slot : ℤ) (k : Fin n) (cause : Option ℕ) (known : ℕ) (request : Packet)
      (replies : List (Conn n × Packet))
  deriving DecidableEq

/-- The processes and the packets between them: `up` and `down` are the two
    directions of a switch's socket, `backlog` the connections not yet accepted. -/
structure NetState (n : ℕ) where
  ctrl : ControllerState (Conn n)
  sw : Fin n → SwitchState
  started : Fin n → Bool
  backlog : List (Fin n)
  up : Fin n → List Msg
  down : Fin n → List Msg
  fifo : Text → List Msg
  lineCount : ℕ
  log : List (Event n)

namespace NetState

variable {n : ℕ}

/-- The packets switch `k` writes are appended to its socket or to a FIFO; what
    is written to `stdin` reaches nobody. -/
def sendAll (net : NetState n) (k : Fin n) (cause : Option ℕ) (writes : List Write) :
    NetState n :=
  { net with
    up := Function.update net.up k
      (net.up k ++ (writes.filter fun w => w.fd = .controller).map fun w => ⟨cause, w.packet⟩)
    fifo := fun name =>
      net.fifo name ++ (writes.filter fun w => w.fd = .fifo name).map fun w => ⟨cause, w.packet⟩
    log := net.log ++ writes.map fun w => .wrote k cause w }

/-- Switch `k` moves to the state `r.1` and writes `r.2`. -/
def moveSwitch (net : NetState n) (k : Fin n) (cause : Option ℕ)
    (r : SwitchState × List Write) : NetState n :=
  { net with sw := Function.update net.sw k r.1 }.sendAll k cause r.2

/-- The packets the controller writes are appended to the sockets they go to. -/
def replyAll (net : NetState n) (cause : Option ℕ) (replies : List (Conn n × Packet)) :
    NetState n :=
  { net with
    down := fun k =>
      net.down k ++ (replies.filter fun r => r.1 = .switch k).map fun r => ⟨cause, r.2⟩ }

/-- Switch `k` starts: it connects and sends its OPEN. -/
def start (N : Network n) (net : NetState n) (k : Fin n) : NetState n :=
  { net with
    started := Function.update net.started k true
    backlog := net.backlog ++ [k] }.sendAll k none [⟨.controller, SwitchState.openPacket (N.cfg k)⟩]

/-- Switch `k` admits a packet with the result `r`. -/
def admitLine (net : NetState n) (k : Fin n) (srcIp destIp : ℤ) (r : SwitchState × List Write) :
    NetState n :=
  { net with
    lineCount := net.lineCount + 1
    log := net.log ++ [Event.admitted k net.lineCount srcIp destIp] }.moveSwitch k
      (some net.lineCount) r

/-- The controller takes `m` from the socket of switch `k`, leaving `rest`, with
    the result `r`. -/
def serve (net : NetState n) (i : ℤ) (k : Fin n) (m : Msg) (rest : List Msg)
    (r : ControllerState (Conn n) × List (Conn n × Packet)) : NetState n :=
  { net with
    ctrl := r.1
    up := Function.update net.up k rest
    log := net.log ++
      [Event.served i k m.cause net.ctrl.switchInfoTable.length m.packet r.2] }.replyAll m.cause r.2

/-- Switch `k` takes `m` from its socket, leaving `rest`, with the result `r`. -/
def receiveDown (net : NetState n) (k : Fin n) (m : Msg) (rest : List Msg)
    (r : SwitchState × List Write) : NetState n :=
  { net with
    down := Function.update net.down k rest
    log := net.log ++ [Event.handled k m.cause socketIdx m.packet] }.moveSwitch k m.cause r

/-- Switch `k` takes `m` from the FIFO it reads as `pfds[port]`, leaving `rest`,
    with the result `r`. -/
def receiveFifo (net : NetState n) (k : Fin n) (port : ℤ) (name : Text) (m : Msg)
    (rest : List Msg) (r : SwitchState × List Write) : NetState n :=
  { net with
    fifo := Function.update net.fifo name rest
    log := net.log ++ [Event.handled k m.cause port m.packet] }.moveSwitch k m.cause r

end NetState

/-- The FIFO a switch reads as `pfds[port]` (lines 303–320 of `switch.cpp`). -/
def readFifo (cfg : SwitchConfig) (port : ℤ) : Option Text :=
  if port = 1 ∧ cfg.port1Id ≠ -1 then some (makeFifoName cfg.port1Id cfg.id)
  else if port = 2 ∧ cfg.port2Id ≠ -1 then some (makeFifoName cfg.port2Id cfg.id)
  else none

/-- The choices of the environment: a switch starts, the controller accepts the
    next connection, a switch has a turn of part 1 with its two clock readings,
    the controller handles a packet in a slot, a switch handles a packet of the
    controller or of a neighbour. -/
inductive Action (n : ℕ)
  | start (k : Fin n)
  | accept
  | traffic (k : Fin n) (now ms : ℤ)
  | toController (i : ℤ)
  | fromController (k : Fin n)
  | fromFifo (k : Fin n) (port : ℤ)
  deriving DecidableEq

namespace Network

variable {n : ℕ} (N : Network n)

def initState : NetState n where
  ctrl := .init n .stdin .listener
  sw := fun k => .init (N.cfg k) (N.file k)
  started := fun _ => false
  backlog := []
  up := fun _ => []
  down := fun _ => []
  fifo := fun _ => []
  lineCount := 0
  log := []

/-- One step. -/
def step (net : NetState n) : Action n → Option (NetState n)
  | .start k => if net.started k = true then none else some (net.start N k)
  | .accept =>
    match net.backlog with
    | [] => none
    | k :: rest => some { net with ctrl := net.ctrl.accept (.switch k), backlog := rest }
  | .traffic k now ms =>
    if net.started k = true then
      ((net.sw k).trafficTurn (N.cfg k) now ms).map fun turn =>
        match turn.header with
        | some (srcIp, destIp) => net.admitLine k srcIp destIp (turn.state, turn.writes)
        | none => net.moveSwitch k none (turn.state, turn.writes)
    else none
  | .toController i =>
    if 1 ≤ i ∧ i ≤ net.ctrl.numSwitches then
      match net.ctrl.pfds i with
      | some (.switch k) =>
        match net.up k with
        | [] => none
        | m :: rest => (net.ctrl.handleText i m.packet.text).map fun r => net.serve i k m rest r
      | _ => none
    else none
  | .fromController k =>
    match net.down k with
    | [] => none
    | m :: rest =>
      ((net.sw k).handleText (N.cfg k) socketIdx m.packet.text).map fun r =>
        net.receiveDown k m rest r
  | .fromFifo k port =>
    if net.started k = true then
      match readFifo (N.cfg k) port with
      | none => none
      | some name =>
        match net.fifo name with
        | [] => none
        | m :: rest =>
          ((net.sw k).handleText (N.cfg k) port m.packet.text).map fun r =>
            net.receiveFifo k port name m rest r
    else none

/-- The network as a transition system. -/
def system : System (NetState n) (Action n) where
  init := fun net => net = N.initState
  step := N.step

/-- The entry of switch `t` in `switchInfoTable`. -/
def info (t : Fin n) : SwitchInfo :=
  ⟨(N.cfg t).id, (N.cfg t).port1Id, (N.cfg t).port2Id, (N.cfg t).ipLow, (N.cfg t).ipHigh⟩

/-- `ip` is in the range of switch `t`. -/
def Owns (t : Fin n) (ip : ℤ) : Prop := (N.cfg t).ipLow ≤ ip ∧ ip ≤ (N.cfg t).ipHigh

instance (t : Fin n) (ip : ℤ) : Decidable (N.Owns t ip) := inferInstanceAs (Decidable (_ ∧ _))

/-- No address is in the ranges of two switches. -/
def DisjointRanges : Prop := ∀ t u ip, N.Owns t ip → N.Owns u ip → t = u

/-- Switches `1 … n` in a line: port 1 leads to the smaller id, port 2 to the
    larger, and the ports at the two ends are `null`. -/
def IsLine : Prop :=
  ∀ k, (N.cfg k).id = k + 1 ∧ (N.cfg k).port1Id = (if k.val = 0 then -1 else (k : ℤ)) ∧
    (N.cfg k).port2Id = if k.val + 1 = n then -1 else (k : ℤ) + 2

end Network

/-- Switch 1 of `ex2`. -/
abbrev sw1 : Fin 2 := ⟨0, Nat.zero_lt_two⟩

/-- Switch 2 of `ex2`. -/
abbrev sw2 : Fin 2 := ⟨1, Nat.one_lt_two⟩

/-- The two switches of `ex2.dat`, reading the file `lines`. -/
def ex2 (lines : List Text) : Network 2 where
  cfg := ![ex2Switch1, ex2Switch2]
  file := fun _ => lines

/-- A file in which each of them sends to the other. -/
def eachOther : List Text := ["sw1 100 200".toList, "sw2 200 100".toList]

end Cmput379.Sdn
