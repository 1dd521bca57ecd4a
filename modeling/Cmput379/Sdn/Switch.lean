import Mathlib.Logic.Function.Basic
import Cmput379.Sdn.Packet
import Cmput379.Sdn.Traffic

/-!
# The switch

`switchLoop` of `test2/switch.cpp`: the state of the loop, the handling of one
traffic line (part 1) and the handling of one received packet (part 3).

System calls do not fail: `openFifo` finds the FIFO that its neighbour has made, and
`poll` reports the controller's socket, although `events` is set for the other
descriptors only (lines 261, 308 and 318). The counters are `int`s, and fewer than
2^31 packets are counted.

A descriptor is represented by what it is open on; descriptor 0 is `stdin`.
`portToId` is only read through `operator[]`, so an
absent key reads as 0; `portToFd` is also asked for the presence of a key.
`none` stands for the end of the process: an index out of range, `exit`, or an
uncaught exception.

The results of the handlers on packets as sent are `handleText_ACK`,
`handleText_ADD_drop`, `handleText_ADD_forward` and `handleText_RELAY`.
-/

namespace Cmput379.Sdn

open Cmput379.Lib

/-- `#define MIN_PRI 4`. -/
def MIN_PRI : ℤ := 4

/-- `int socketIdx = PFDS_SIZE - 1` with `#define PFDS_SIZE 5`. -/
def socketIdx : ℤ := 4

/-- `SwitchPacketCounts` (lines 34–42). -/
structure SwitchPacketCounts where
  admit_ : ℤ
  ack : ℤ
  add : ℤ
  relayIn : ℤ
  open_ : ℤ
  query : ℤ
  relayOut : ℤ
  deriving DecidableEq, Repr

/-- The values of `actionType`. -/
inductive ActionType
  | FORWARD
  | DROP
  deriving DecidableEq, Repr

/-- `FlowRule` (lines 47–56). -/
structure FlowRule where
  srcIpLow : ℤ
  srcIpHigh : ℤ
  destIpLow : ℤ
  destIpHigh : ℤ
  actionType : ActionType
  actionVal : ℤ
  pri : ℤ
  pktCount : ℤ
  deriving DecidableEq, Repr

/-- The descriptors of a switch. -/
inductive Fd
  | stdin
  | controller
  | fifo (name : Text)
  deriving DecidableEq, Repr

/-- `operator[]` inserts 0 for a missing key. -/
instance : Inhabited Fd := ⟨.stdin⟩

/-- A packet written to a descriptor. -/
structure Write where
  fd : Fd
  packet : Packet
  deriving DecidableEq, Repr

/-- The arguments of `switchLoop` that `main` has checked: a switch id is
    positive, a missing port is `-1`, and the IP range is one that
    `parseIpRange` accepts. -/
structure SwitchConfig where
  id : ℤ
  port1Id : ℤ
  port2Id : ℤ
  ipLow : ℤ
  ipHigh : ℤ
  id_pos : 1 ≤ id
  id_int : IsInt id
  port1_int : IsInt port1Id
  port2_int : IsInt port2Id
  low_isIp : IsIp ipLow
  high_isIp : IsIp ipHigh
  low_le_high : ipLow ≤ ipHigh

/-- The local variables of `switchLoop` at the head of its loop. -/
structure SwitchState where
  flowTable : List FlowRule
  portToFd : ℤ → Option Fd
  portToId : ℤ → ℤ
  counts : SwitchPacketCounts
  lines : List Text
  isOpen : Bool
  delayStartTime : ℤ
  delayDuration : ℤ
  ackReceived : Bool
  addReceived : Bool
  closed : List ℤ

/-- `destIp >= rule.destIpLow && destIp <= rule.destIpHigh` (line 361). -/
def FlowRule.covers (rule : FlowRule) (destIp : ℤ) : Prop :=
  rule.destIpLow ≤ destIp ∧ destIp ≤ rule.destIpHigh

instance (rule : FlowRule) (destIp : ℤ) : Decidable (rule.covers destIp) :=
  inferInstanceAs (Decidable (_ ∧ _))

namespace SwitchState

/-! ## Start -/

/-- Line 246. -/
def initialRule (cfg : SwitchConfig) : FlowRule :=
  ⟨0, MAX_IP, cfg.ipLow, cfg.ipHigh, .FORWARD, 3, MIN_PRI, 0⟩

/-- `switchLoop` up to line 328, with an unread traffic file `lines`. -/
def init (cfg : SwitchConfig) (lines : List Text) : SwitchState where
  flowTable := [initialRule cfg]
  portToFd := Function.update (fun _ => none) 0 (some .controller)
  portToId := fun port =>
    if port = 1 ∧ cfg.port1Id ≠ -1 then cfg.port1Id
    else if port = 2 ∧ cfg.port2Id ≠ -1 then cfg.port2Id
    else 0
  counts := { admit_ := 0, ack := 0, add := 0, relayIn := 0, open_ := 1, query := 0, relayOut := 0 }
  lines := lines
  isOpen := true
  delayStartTime := 0
  delayDuration := 0
  ackReceived := false
  addReceived := true
  closed := []

/-- The packet `switchLoop` sends before its loop (line 293). -/
def openPacket (cfg : SwitchConfig) : Packet :=
  .OPEN cfg.id cfg.port1Id cfg.port2Id cfg.ipLow cfg.ipHigh

/-! ## Sending -/

/-- `portToFd[port]`, when the key is there or when it is not. -/
def fdAt (s : SwitchState) (port : ℤ) : Fd := (s.portToFd port).getD default

/-- The entry `portToFd[port]` leaves behind. -/
def indexFd (s : SwitchState) (port : ℤ) : SwitchState :=
  { s with portToFd := Function.update s.portToFd port (some (s.fdAt port)) }

/-- "Open the FIFO for writing if not done already" (lines 369–374, 493–498). -/
def openPort (cfg : SwitchConfig) (s : SwitchState) (port : ℤ) : SwitchState :=
  if (s.portToFd port).isSome then s
  else
    let relayFifo := makeFifoName cfg.id (s.portToId port)
    { s with portToFd := Function.update s.portToFd port (some (.fifo relayFifo)) }

/-- "Ensure switch is not closed before sending": `sendRelayPacket` to `port`
    unless `peer` is in `closed`. -/
def relayUnlessClosed (s : SwitchState) (peer port srcIp destIp : ℤ) : List Write :=
  if peer ∈ s.closed then [] else [⟨s.fdAt port, .RELAY srcIp destIp⟩]

def countRelayOut (s : SwitchState) : SwitchState :=
  { s with counts := { s.counts with relayOut := s.counts.relayOut + 1 } }

/-! ## Part 1: the traffic file -/

/-- The loop of lines 360–388 up to the first match: the rule found, as it was,
    and the table with its `pktCount` increased. -/
def matchRule (destIp : ℤ) : List FlowRule → Option (FlowRule × List FlowRule)
  | [] => none
  | rule :: rules =>
    if rule.covers destIp then some (rule, { rule with pktCount := rule.pktCount + 1 } :: rules)
    else (matchRule destIp rules).map fun (found, rules) => (found, rule :: rules)

/-- An admitted packet that matches `rule` (lines 362–386); `flowTable` is the
    table with the rule's count increased. -/
def useRule (cfg : SwitchConfig) (s : SwitchState) (rule : FlowRule) (flowTable : List FlowRule)
    (srcIp destIp : ℤ) : SwitchState × List Write :=
  let s := { s with flowTable := flowTable }
  match rule.actionType with
  | .DROP => (s, [])
  | .FORWARD =>
    if rule.actionVal ≠ 3 then
      let s := s.openPort cfg rule.actionVal
      (s.countRelayOut, s.relayUnlessClosed rule.actionVal rule.actionVal srcIp destIp)
    else (s, [])

/-- An admitted packet that matches no rule (lines 391–393). -/
def sendQuery (s : SwitchState) (srcIp destIp : ℤ) : SwitchState × List Write :=
  ({ s with addReceived := false, counts := { s.counts with query := s.counts.query + 1 } },
    [⟨s.fdAt 0, .QUERY srcIp destIp⟩])

def countAdmit (s : SwitchState) : SwitchState :=
  { s with counts := { s.counts with admit_ := s.counts.admit_ + 1 } }

/-- A packet admitted by this switch (lines 356–394). -/
def admitPacket (cfg : SwitchConfig) (s : SwitchState) (srcIp destIp : ℤ) :
    SwitchState × List Write :=
  let s := s.countAdmit
  match matchRule destIp s.flowTable with
  | some (rule, flowTable) => s.useRule cfg rule flowTable srcIp destIp
  | none => s.sendQuery srcIp destIp

/-- `isDelayed` (lines 64–71) when the clock reads `now`. -/
def isDelayed (now startTime duration : ℤ) : Bool :=
  if duration = 0 then false else now < startTime + duration

/-- What one turn of part 1 does; `header` is that of the packet admitted in
    it, if any. -/
structure Turn where
  state : SwitchState
  header : Option (ℤ × ℤ)
  writes : List Write

/-- The handling of a line of the traffic file (lines 345–411); `ms` is the
    clock at the start of a delay. -/
def handleLine (cfg : SwitchConfig) (ms : ℤ) (s : SwitchState) (line : Text) : Option Turn := do
  let (type, content) ← parseTrafficFileLine line
  match type with
  | .action =>
    let trafficId ← content[0]?
    let srcIp ← content[1]?
    let destIp ← content[2]?
    if cfg.id = trafficId then
      let (s, writes) := s.admitPacket cfg srcIp destIp
      return ⟨s, some (srcIp, destIp), writes⟩
    else return ⟨s, none, []⟩
  | .delay =>
    let trafficId ← content[0]?
    if cfg.id = trafficId then
      let duration ← content[1]?
      return ⟨{ s with delayStartTime := ms, delayDuration := duration }, none, []⟩
    else return ⟨s, none, []⟩
  | .empty | .comment | .error => return ⟨s, none, []⟩

/-- The next line of the traffic file, while it is open (lines 343–415). -/
def nextLine (cfg : SwitchConfig) (ms : ℤ) (s : SwitchState) : Option Turn :=
  if s.isOpen = true then
    match s.lines with
    | line :: lines => handleLine cfg ms { s with lines := lines } line
    | [] => some ⟨{ s with isOpen := false }, none, []⟩
  else some ⟨s, none, []⟩

/-- Part 1 of the loop (lines 336–416). -/
def trafficTurn (cfg : SwitchConfig) (now ms : ℤ) (s : SwitchState) : Option Turn :=
  if s.ackReceived = true ∧ s.addReceived = true ∧
      isDelayed now s.delayStartTime s.delayDuration = false then
    nextLine cfg ms { s with delayStartTime := 0, delayDuration := 0 }
  else some ⟨s, none, []⟩

/-- The header of the packet that the next turn admits, if it admits one. -/
def nextHeader (cfg : SwitchConfig) (now ms : ℤ) (s : SwitchState) : Option (ℤ × ℤ) :=
  (s.trafficTurn cfg now ms).bind Turn.header

/-! ## Part 3: received packets -/

/-- Lines 480–481. -/
def handleAck (s : SwitchState) : SwitchState :=
  { s with ackReceived := true, counts := { s.counts with ack := s.counts.ack + 1 } }

/-- `flowTable.push_back(newRule); counts.add++;` (lines 511–512). -/
def pushRule (s : SwitchState) (newRule : FlowRule) : SwitchState :=
  { s with
    flowTable := s.flowTable ++ [newRule]
    counts := { s.counts with add := s.counts.add + 1 } }

/-- A rule received in an ADD packet (lines 488 and 490). -/
def addedRule (ipLow ipHigh : ℤ) (actionType : ActionType) (actionVal : ℤ) : FlowRule :=
  ⟨0, MAX_IP, ipLow, ipHigh, actionType, actionVal, MIN_PRI, 1⟩

/-- The FORWARD case of ADD (lines 490–505, 511–512), received on `pfds[i]`;
    `msg[1]` is both the lower bound of the rule and the address relayed to. -/
def handleForward (cfg : SwitchConfig) (s : SwitchState) (i ipLow ipHigh port srcIp : ℤ) :
    SwitchState × List Write :=
  let s := s.openPort cfg port
  (s.countRelayOut.pushRule (addedRule ipLow ipHigh .FORWARD port),
    s.relayUnlessClosed i port srcIp ipLow)

/-- The RELAY case (lines 514–528), received on `pfds[i]`. -/
def handleRelay (cfg : SwitchConfig) (s : SwitchState) (i srcIp destIp : ℤ) :
    SwitchState × List Write :=
  let s := { s with counts := { s.counts with relayIn := s.counts.relayIn + 1 } }
  if destIp < cfg.ipLow ∨ cfg.ipHigh < destIp then
    if i ∈ s.closed then (s, [])
    else if cfg.id > i then ((s.indexFd 1).countRelayOut, [⟨s.fdAt 1, .RELAY srcIp destIp⟩])
    else if cfg.id < i then ((s.indexFd 2).countRelayOut, [⟨s.fdAt 2, .RELAY srcIp destIp⟩])
    else (s, [])
  else (s, [])

/-- The dispatch on a packet read from `pfds[i]` (lines 475–532). -/
def handlePacket (cfg : SwitchConfig) (s : SwitchState) (i : ℤ) (packetType : Text)
    (msg : List ℤ) : Option (SwitchState × List Write) := do
  let _ ← printPacketMessage "Received".toList (s.portToId i) cfg.id packetType msg
  if packetType = ['A', 'C', 'K'] then
    return (s.handleAck, [])
  else if packetType = ['A', 'D', 'D'] then
    let s := { s with addReceived := true }
    let action ← msg[0]?
    if action = 0 then
      let ipLow ← msg[1]?
      let ipHigh ← msg[2]?
      let val ← msg[3]?
      return (s.pushRule (addedRule ipLow ipHigh .DROP val), [])
    else if action = 1 then
      let ipLow ← msg[1]?
      let ipHigh ← msg[2]?
      let port ← msg[3]?
      -- the source address is only read when the packet is relayed
      let srcIp ← if i ∈ s.closed then some 0 else msg[4]?
      return s.handleForward cfg i ipLow ipHigh port srcIp
    else return (s, [])
  else if packetType = ['R', 'E', 'L', 'A', 'Y'] then
    let srcIp ← msg[0]?
    let destIp ← msg[1]?
    return s.handleRelay cfg i srcIp destIp
  else return (s, [])

/-- Lines 470–532 on the string in the buffer. -/
def handleText (cfg : SwitchConfig) (s : SwitchState) (i : ℤ) (packetString : Text) :
    Option (SwitchState × List Write) :=
  let (packetType, msg) := parsePacketString packetString
  s.handlePacket cfg i packetType msg

/-! ## The handlers on packets as sent -/

section Sent

variable (cfg : SwitchConfig) (s : SwitchState) (i : ℤ)

theorem handleText_text {p : Packet} (hp : p.InRange) :
    s.handleText cfg i p.text = s.handlePacket cfg i p.type p.msg := by
  simp only [handleText, parsePacketString_text hp]

theorem handleText_ACK : s.handleText cfg i Packet.ACK.text = some (s.handleAck, []) := by
  rw [handleText_text _ _ _ (by simp [Packet.InRange, Packet.msg])]
  obtain ⟨line, hline⟩ := printPacketMessage_packet "Received".toList (s.portToId i) cfg.id .ACK
  rw [handlePacket, hline]
  simp [Packet.type]

theorem handleText_ADD_drop {ipLow ipHigh val srcIp : ℤ}
    (hp : (Packet.ADD 0 ipLow ipHigh val srcIp).InRange) :
    s.handleText cfg i (Packet.ADD 0 ipLow ipHigh val srcIp).text =
      some ({ s with addReceived := true }.pushRule (addedRule ipLow ipHigh .DROP val), []) := by
  rw [handleText_text _ _ _ hp]
  obtain ⟨line, hline⟩ := printPacketMessage_packet "Received".toList (s.portToId i) cfg.id
    (.ADD 0 ipLow ipHigh val srcIp)
  rw [handlePacket, hline]
  simp [Packet.type, Packet.msg]

theorem handleText_ADD_forward {ipLow ipHigh port srcIp : ℤ}
    (hp : (Packet.ADD 1 ipLow ipHigh port srcIp).InRange) (hi : i ∉ s.closed) :
    s.handleText cfg i (Packet.ADD 1 ipLow ipHigh port srcIp).text =
      some ({ s with addReceived := true }.handleForward cfg i ipLow ipHigh port srcIp) := by
  rw [handleText_text _ _ _ hp]
  obtain ⟨line, hline⟩ := printPacketMessage_packet "Received".toList (s.portToId i) cfg.id
    (.ADD 1 ipLow ipHigh port srcIp)
  rw [handlePacket, hline]
  simp [Packet.type, Packet.msg, hi]

theorem handleText_RELAY {srcIp destIp : ℤ} (hp : (Packet.RELAY srcIp destIp).InRange) :
    s.handleText cfg i (Packet.RELAY srcIp destIp).text =
      some (s.handleRelay cfg i srcIp destIp) := by
  rw [handleText_text _ _ _ hp]
  obtain ⟨line, hline⟩ := printPacketMessage_packet "Received".toList (s.portToId i) cfg.id
    (.RELAY srcIp destIp)
  rw [handlePacket, hline]
  simp [Packet.type, Packet.msg]

end Sent

end SwitchState

/-! ## The switches of `ex2.dat`, and a third one -/

/-- Switch 1 of `ex2.dat`: no port 1, switch 2 at port 2, range 100-110. -/
def ex2Switch1 : SwitchConfig where
  id := 1
  port1Id := -1
  port2Id := 2
  ipLow := 100
  ipHigh := 110
  id_pos := by decide
  id_int := by decide
  port1_int := by decide
  port2_int := by decide
  low_isIp := by decide
  high_isIp := by decide
  low_le_high := by decide

/-- Switch 2 of `ex2.dat`: switch 1 at port 1, no port 2, range 200-210. -/
def ex2Switch2 : SwitchConfig where
  id := 2
  port1Id := 1
  port2Id := -1
  ipLow := 200
  ipHigh := 210
  id_pos := by decide
  id_int := by decide
  port1_int := by decide
  port2_int := by decide
  low_isIp := by decide
  high_isIp := by decide
  low_le_high := by decide

/-- Switch 2 of `ex2.dat` with a switch 3 at port 2. -/
def ex3Switch2 : SwitchConfig :=
  { ex2Switch2 with port2Id := 3, port2_int := by decide }

/-- A third switch in the line, with the range 300-310. -/
def ex3Switch3 : SwitchConfig where
  id := 3
  port1Id := 2
  port2Id := -1
  ipLow := 300
  ipHigh := 310
  id_pos := by decide
  id_int := by decide
  port1_int := by decide
  port2_int := by decide
  low_isIp := by decide
  high_isIp := by decide
  low_le_high := by decide

/-- It with a switch 4 at port 2. -/
def ex4Switch3 : SwitchConfig :=
  { ex3Switch3 with port2Id := 4, port2_int := by decide }

/-- A fourth switch in the line, with the range 400-410. -/
def ex4Switch4 : SwitchConfig where
  id := 4
  port1Id := 3
  port2Id := -1
  ipLow := 400
  ipHigh := 410
  id_pos := by decide
  id_int := by decide
  port1_int := by decide
  port2_int := by decide
  low_isIp := by decide
  high_isIp := by decide
  low_le_high := by decide

end Cmput379.Sdn
