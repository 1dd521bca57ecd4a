import Cmput379.Lib.Run
import Cmput379.Sdn.Buffer

/-!
# Descriptors and connections

`controllerLoop` of `test2/controller.cpp` in steps, with the descriptor numbers that
the kernel hands out. A connection that has been closed leaves its number in `pfds` and
in `idToFd`, and `accept` returns the lowest number that is not in use.

The switches connect, send OPENs and QUERYs, and hang up at any time, also during a poll
round. A switch that closes its socket with an answer unread, or still to come, resets the
connection: what it has sent can still be read, then a `read` fails, and writes fail from
then on. Other writes to an open descriptor succeed, also behind a hang-up. The standard
streams are 0 to 2, the listening socket is 3; `errno` is only ever set, never cleared. A
slot without connection is not ready.

* `step`: the switches and the loop.
* `Reconnected`: what a controller should make of connections that come and go.
* `Clear`: no two slots share the connection that is read, it has not been reset, and the
  read finds one packet and a clear buffer behind it.
-/

namespace Cmput379.Sdn.Reconnect

open Cmput379.Lib

/-! ## Connections -/

/-- Whether a connection has been reset, and `read` has reported that, which it does once. -/
inductive Reset
  | never
  | unreported
  | reported
  deriving DecidableEq

/-- A connection: what the switch has sent, how many bytes of it the controller has
    read, and what the controller has written. -/
structure Connection where
  sent : List WirePacket
  taken : ℕ
  hungUp : Bool
  reset : Reset
  answers : List Packet

/-- The packets as they are on the stream. -/
def bytes (ps : List WirePacket) : Text := ps.flatMap fun p => p.packet.text

namespace Connection

def new : Connection where
  sent := []
  taken := 0
  hungUp := false
  reset := .never
  answers := []

def unread (c : Connection) : Text := (bytes c.sent).drop c.taken

end Connection

/-- The controller process and its connections. `slotOf`, `due` and `handled` are
    records: the slot a connection was accepted into, the number of packets it had sent
    at the last `poll`, and the strings that were handled, with their slots. -/
structure Host where
  ctrl : ControllerState ℕ
  running : Bool
  errno : Bool
  buffer : Text
  /-- The ready slots still to be served, and whether a connection is to be accepted. -/
  round : Option (List ℤ × Bool)
  fds : ℕ → Option ℕ
  conns : ℕ → Connection
  connected : ℕ
  backlog : List ℕ
  slotOf : ℕ → Option ℤ
  due : ℕ → ℕ
  handled : List (ℤ × Text)

/-- `stdin`, and the descriptor of the listening socket. -/
def stdinFd : ℕ := 0

def mainFd : ℕ := 3

/-- The lowest number not in use. -/
def LowestUnused (fds : ℕ → Option ℕ) (fd : ℕ) : Prop :=
  mainFd < fd ∧ fds fd = none ∧ ∀ fd' < fd, mainFd < fd' → fds fd' ≠ none

instance (fds : ℕ → Option ℕ) (fd : ℕ) : Decidable (LowestUnused fds fd) :=
  inferInstanceAs (Decidable (_ ∧ _ ∧ _))

/-- What a switch sends: an OPEN or a QUERY. -/
def isRequest : Packet → Bool
  | .OPEN .. => true
  | .QUERY .. => true
  | _ => false

def isOpen : Packet → Bool
  | .OPEN .. => true
  | _ => false

namespace Host

def init (numSwitches : ℕ) : Host where
  ctrl := .init numSwitches stdinFd mainFd
  running := true
  errno := false
  buffer := clearBuffer
  round := none
  fds _ := none
  conns _ := .new
  connected := 0
  backlog := []
  slotOf _ := none
  due _ := 0
  handled := []

def setConn (h : Host) (k : ℕ) (c : Connection) : Host :=
  { h with conns := Function.update h.conns k c }

/-- `poll` reports data, or the end of the stream. -/
def ready (h : Host) (i : ℤ) : Bool :=
  match (h.ctrl.pfds i).bind h.fds with
  | some k => (h.conns k).unread ≠ [] ∨ (h.conns k).hungUp
  | none => false

/-- The slots in the order of the loop. -/
def slots (h : Host) : List ℤ := (List.range h.ctrl.numSwitches.toNat).map fun k : ℕ => (k : ℤ) + 1

def readySlots (h : Host) : List ℤ := h.slots.filter h.ready

def poll (h : Host) : Host :=
  { h with
    round := some (h.readySlots, h.backlog ≠ [])
    buffer := clearBuffer
    due := fun k => if (h.slotOf k).isSome then (h.conns k).sent.length else h.due k }

/-- `write`, and `if (errno)` behind it. -/
def write (h : Host) (w : ℕ × Packet) : Host :=
  match h.fds w.1 with
  | some k =>
    if (h.conns k).reset ≠ .never then { h with errno := true, running := false }
    else { h.setConn k { h.conns k with answers := (h.conns k).answers ++ [w.2] } with
      running := h.running && !h.errno }
  | none =>
    if w.1 = stdinFd then { h with running := h.running && !h.errno }
    else { h with errno := true, running := false }

/-- The controller has handled a string for slot `i`. -/
def record (h : Host) (ctrl : ControllerState ℕ) (i : ℤ) (packetString : Text) : Host :=
  { h with ctrl := ctrl, handled := h.handled ++ [(i, packetString)] }

/-- Lines 229-300: the string in the buffer is handled for slot `i`. -/
def handle (h : Host) (i : ℤ) (packetString : Text) : Option Host :=
  (h.ctrl.handleText i packetString).map fun (ctrl, writes) =>
    writes.foldl write (h.record ctrl i packetString)

/-- Lines 222-226. -/
def close (h : Host) (i : ℤ) (fd : ℕ) : Host :=
  { h with
    fds := Function.update h.fds fd none
    ctrl := { h.ctrl with closed := h.ctrl.closed ++ [i] } }

/-- `read` with `data`. -/
def takeData (h : Host) (k : ℕ) (data : Text) : Host :=
  { h.setConn k { h.conns k with taken := (h.conns k).taken + data.length } with
    buffer := readInto h.buffer data }

/-- Lines 219-301 for a ready slot. `read` fails on a descriptor that has been closed,
    after a reset, and where there is nothing to read; the result -1 passes for data. -/
def serve (h : Host) (beyond : Text) (i : ℤ) : Option Host :=
  match h.ctrl.pfds i with
  | none => none
  | some fd =>
    match h.fds fd with
    | none => { h with errno := true }.handle i (bufferString beyond h.buffer)
    | some k =>
      if (h.conns k).unread = [] then
        if (h.conns k).reset = .unreported then
          { h.setConn k { h.conns k with reset := .reported } with errno := true }.handle i
            (bufferString beyond h.buffer)
        else if (h.conns k).hungUp then some (h.close i fd)
        else { h with errno := true }.handle i (bufferString beyond h.buffer)
      else
        let h := h.takeData k ((h.conns k).unread.take MAX_BUFFER)
        h.handle i (bufferString beyond h.buffer)

/-- Lines 307-325: the first waiting connection is accepted. -/
def accept (h : Host) (fd k : ℕ) (rest : List ℕ) : Host :=
  { h with
    ctrl := h.ctrl.accept fd
    round := none
    fds := Function.update h.fds fd (some k)
    backlog := rest
    slotOf := Function.update h.slotOf k (some h.ctrl.socketIdx) }

end Host

/-! ## Steps -/

/-- A switch connects, sends a packet, hangs up, or resets its connection; the controller
    polls, serves the next ready slot (`beyond` is the memory behind the buffer), accepts
    a connection, or has none to accept. -/
inductive Action
  | connect
  | send (k : ℕ) (p : WirePacket)
  | hangUp (k : ℕ)
  | reset (k : ℕ)
  | poll
  | serve (beyond : Text)
  | accept (fd : ℕ)
  | endRound

def step (h : Host) : Action → Option Host
  | .connect =>
    some { h with connected := h.connected + 1, backlog := h.backlog ++ [h.connected] }
  | .send k p =>
    if k < h.connected ∧ ¬ (h.conns k).hungUp ∧ isRequest p.packet then
      some (h.setConn k { h.conns k with sent := (h.conns k).sent ++ [p] })
    else none
  | .hangUp k =>
    if k < h.connected then some (h.setConn k { h.conns k with hungUp := true }) else none
  | .reset k =>
    if k < h.connected then
      some (h.setConn k { h.conns k with hungUp := true, reset := .unreported })
    else none
  | .poll => if h.running ∧ h.round = none then some h.poll else none
  | .serve beyond =>
    if h.running then
      match h.round with
      | some (i :: rest, accepting) =>
        { h with round := some (rest, accepting) }.serve beyond i
      | _ => none
    else none
  | .accept fd =>
    if h.running ∧ h.round = some ([], true) ∧ LowestUnused h.fds fd ∧
        h.ctrl.socketIdx ≤ h.ctrl.numSwitches then
      match h.backlog with
      | [] => none
      | k :: rest => some (h.accept fd k rest)
    else none
  | .endRound =>
    if h.running ∧ h.round = some ([], false) then some { h with round := none } else none

/-- At most `numSwitches` connections are accepted. -/
def system (numSwitches : ℕ) : System Host Action where
  init h := h = .init numSwitches
  step := step

/-! ## What is expected -/

/-- The strings handled for slot `i`. -/
def handledIn (h : Host) (i : ℤ) : List Text :=
  (h.handled.filter fun e => e.1 = i).map Prod.snd

def isOpenText (packetString : Text) : Bool :=
  (parsePacketString packetString).1 = ['O', 'P', 'E', 'N']

/-- The packets of a connection have been handled in its slot, up to those that are
    unread, and its OPENs have been answered. -/
structure InSlot (h : Host) (k : ℕ) (i : ℤ) (done unread : List WirePacket) : Prop where
  sent : (h.conns k).sent = done ++ unread
  unread : (h.conns k).unread = bytes unread
  handled : handledIn h i = done.map fun p => p.packet.text
  acks : (h.conns k).answers.count .ACK = done.countP fun p => isOpen p.packet

/-- Every packet is handled once, in the slot of its connection, in the poll round that
    finds it; every OPEN adds an entry and gets an ACK. -/
structure Reconnected (h : Host) : Prop where
  running : h.running = true
  distinct : ∀ k k' i, h.slotOf k = some i → h.slotOf k' = some i → k = k'
  inSlot : ∀ k i, h.slotOf k = some i → ∃ done unread, InSlot h k i done unread
  due : ∀ k i, h.slotOf k = some i → (∀ rest accepting, h.round = some (rest, accepting) →
    i ∉ rest) → h.due k ≤ (handledIn h i).length
  others : ∀ i, (∀ k, h.slotOf k ≠ some i) → handledIn h i = []
  waiting : ∀ k, h.slotOf k = none → (h.conns k).answers = []
  table : h.ctrl.switchInfoTable.length = h.handled.countP fun e => isOpenText e.2

/-! ## The condition -/

/-- One packet is unread, and the buffer is clear behind it. -/
def OnePacket (h : Host) (k : ℕ) : Prop :=
  ∃ p ∈ (h.conns k).sent.getLast?, (h.conns k).unread = p.packet.text ∧
    h.buffer.drop p.packet.text.length =
      List.replicate (MAX_BUFFER - p.packet.text.length) nul

instance (h : Host) (k : ℕ) : Decidable (OnePacket h k) :=
  inferInstanceAs (Decidable (∃ p ∈ _, _))

/-- The slot that is served next, its descriptor, and the connection behind that. -/
def nextRead (h : Host) : Option (ℤ × ℕ × ℕ) :=
  match h.round with
  | some (i :: _, _) =>
    (h.ctrl.pfds i).bind fun fd => (h.fds fd).map fun k => (i, fd, k)
  | _ => none

/-- Where a slot is served, no other slot holds its descriptor, its connection has not
    been reset, and where there is something to read, it is one packet. -/
def Clear (h : Host) : Action → Prop
  | .serve _ => ∀ r ∈ nextRead h, (∀ j ∈ h.slots, j ≠ r.1 → h.ctrl.pfds j ≠ some r.2.1) ∧
      (h.conns r.2.2).reset = .never ∧ ((h.conns r.2.2).unread ≠ [] → OnePacket h r.2.2)
  | _ => True

instance (h : Host) : (a : Action) → Decidable (Clear h a)
  | .serve _ => inferInstanceAs (Decidable (∀ r ∈ nextRead h, _))
  | .connect | .send .. | .hangUp _ | .reset _ | .poll | .accept _ | .endRound =>
    inferInstanceAs (Decidable True)

end Cmput379.Sdn.Reconnect
