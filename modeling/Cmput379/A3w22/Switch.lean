import Cmput379.A3w22.Master

/-!
# The switch

`switchLoop` of `test/switch.cpp`: the traffic line that a turn of the loop reads
when the gate is open, and the handling of one string read from a descriptor.

A descriptor is represented by what it is open on; whether a FIFO has a reader is
left out. `none` stands for the end of the process by an exception or a token that
is not there.

* `SwitchState.turn`: the traffic line, if one is read.
* `SwitchState.handlePacket`: the string in the buffer.
-/

namespace Cmput379.A3w22

open Cmput379.Lib
open Cmput379.Sdn (joinInts makeFifoName)

/-- `#define MAX_IP 1000`. -/
def MAX_IP : ℤ := 1000

/-! ## State -/

/-- The arguments of `switchLoop`. -/
structure SwitchConfig where
  id : ℤ
  port1Id : ℤ
  port2Id : ℤ
  ipLow : ℤ
  ipHigh : ℤ
  deriving DecidableEq, Repr

/-- `SwitchPacketCounts` (lines 33-41). -/
structure SwitchPacketCounts where
  admit_ : ℤ
  hello_ack : ℤ
  add : ℤ
  relayIn : ℤ
  open_ : ℤ
  ask : ℤ
  relayOut : ℤ
  deriving DecidableEq, Repr

inductive ActionType
  | FORWARD
  | DROP
  deriving DecidableEq, Repr

/-- `fowardRule` (lines 46-54). -/
structure FowardRule where
  srcIpLow : ℤ
  srcIpHigh : ℤ
  destIpLow : ℤ
  destIpHigh : ℤ
  actionType : ActionType
  actionVal : ℤ
  pktCount : ℤ
  deriving DecidableEq, Repr

/-- `destIp >= param.destIpLow && destIp <= param.destIpHigh` (line 253). -/
def FowardRule.Covers (param : FowardRule) (destIp : ℤ) : Prop :=
  param.destIpLow ≤ destIp ∧ destIp ≤ param.destIpHigh

instance (param : FowardRule) (destIp : ℤ) : Decidable (param.Covers destIp) :=
  inferInstanceAs (Decidable (_ ∧ _))

inductive Fd
  | stdin
  | master
  | fifo (name : Text)
  deriving DecidableEq, Repr

/-- The local variables of `switchLoop` at the head of its loop, with the lines that
    are left in the traffic file. -/
structure SwitchState where
  fowardTable : List FowardRule
  fdid : ℤ → Option Fd
  swid : ℤ → ℤ
  counts : SwitchPacketCounts
  delay : ℤ
  hello_ackReceived : Bool
  addReceived : Bool
  lines : List Text
  isOpen : Bool

/-- The packets of a switch. -/
inductive SwitchPacket
  | HELLO (id port1Id port2Id ipLow ipHigh : ℤ)
  | ASK (srcIp destIp : ℤ)
  | RELAY (srcIp destIp : ℤ)
  deriving DecidableEq, Repr

/-- `openString` (line 134), `askString` (line 282), `relayString` (lines 268 and 382). -/
def SwitchPacket.text : SwitchPacket → Text
  | HELLO id port1Id port2Id ipLow ipHigh =>
    "HELLO:".toList ++ joinInts [id, port1Id, port2Id, ipLow, ipHigh]
  | ASK srcIp destIp => "ASK:".toList ++ joinInts [srcIp, destIp]
  | RELAY srcIp destIp => "RELAY:".toList ++ joinInts [srcIp, destIp]

/-- What a turn writes, and to which descriptor. -/
abbrev Writes := List (Fd × SwitchPacket)

/-! ## A traffic line -/

/-- A line that is skipped, or its `type` and `data`. -/
inductive Traffic
  | skip
  | action (id srcIp destIp : ℤ)
  | delay (id ms : ℤ)
  deriving DecidableEq, Repr

/-- `stoi(string(token).substr(3,1))`; `substr` throws behind the end. -/
def tokenId (token : Text) : Option ℤ :=
  if token.length < 3 then none else stoi ((token.drop 3).take 1)

/-- Lines 212-240. -/
def parseLine (line : Text) : Option Traffic :=
  if line.length < 1 then some .skip
  else if line.take 1 = ['#'] then some .skip
  else do
    let tokens := words line
    let token ← tokens[0]?
    let id ← if token ≠ "null".toList then tokenId token else some (-1)
    let second ← tokens[1]?
    if second = "delay".toList then
      let ms ← tokens[2]?.bind stoi
      return .delay id ms
    else
      let srcIp ← stoi second
      let destIp ← tokens[2]?.bind stoi
      return .action id srcIp destIp

namespace SwitchState

/-- Lines 85-193; `open_` has counted the HELLO. -/
def init (cfg : SwitchConfig) (file : List Text) : SwitchState where
  fowardTable := [⟨0, MAX_IP, cfg.ipLow, cfg.ipHigh, .FORWARD, 3, 0⟩]
  fdid := Function.update (fun _ => none) 0 (some .master)
  swid := Function.update (Function.update (fun _ => 0)
    1 (if cfg.port1Id ≠ -1 then cfg.port1Id else 0))
    2 (if cfg.port2Id ≠ -1 then cfg.port2Id else 0)
  counts := ⟨0, 0, 0, 0, 1, 0, 0⟩
  delay := 0
  hello_ackReceived := false
  addReceived := true
  lines := file
  isOpen := true

/-- `fdid[port]`. -/
def fdAt (s : SwitchState) (port : ℤ) : Fd := (s.fdid port).getD .stdin

/-- Lines 261-265, lines 376-380: the FIFO of `port`, in the name of switch `id`, is
    opened unless the port has a descriptor. -/
def openFifo (s : SwitchState) (id port : ℤ) : SwitchState :=
  if (s.fdid port).isSome then s
  else { s with fdid := Function.update s.fdid port (some (.fifo (makeFifoName id (s.swid port)))) }

/-- A RELAY to `port` (lines 261-273, lines 376-389). -/
def relay (s : SwitchState) (id port srcIp destIp : ℤ) : SwitchState × Writes :=
  let s := s.openFifo id port
  ({ s with counts := { s.counts with relayOut := s.counts.relayOut + 1 } },
    [(s.fdAt port, .RELAY srcIp destIp)])

/-- Lines 248-291. -/
def admitPacket (s : SwitchState) (id srcIp destIp : ℤ) : SwitchState × Writes :=
  let s := { s with counts := { s.counts with admit_ := s.counts.admit_ + 1 } }
  match s.fowardTable.find? fun param => param.Covers destIp with
  | some param =>
    let k := s.fowardTable.findIdx fun param => param.Covers destIp
    let s := { s with fowardTable :=
      s.fowardTable.set k { param with pktCount := param.pktCount + 1 } }
    match param.actionType with
    | .DROP => (s, [])
    | .FORWARD =>
      if param.actionVal ≠ 3 then s.relay id param.actionVal srcIp destIp else (s, [])
  | none =>
    ({ s with addReceived := false, counts := { s.counts with ask := s.counts.ask + 1 } },
      [(s.fdAt 0, .ASK srcIp destIp)])

/-- Lines 242-300. The `id` that is compared with `trafficId`, and that names the
    FIFO, is the variable of line 208, which holds the id in the line. -/
def traffic (s : SwitchState) : Traffic → SwitchState × Writes
  | .skip => (s, [])
  | .action id srcIp destIp =>
    let trafficId := id
    if id = trafficId then s.admitPacket id srcIp destIp else (s, [])
  | .delay id ms =>
    let trafficId := id
    if id = trafficId then ({ s with delay := ms }, []) else (s, [])

/-- The condition of line 197. -/
def Gate (s : SwitchState) : Prop :=
  s.hello_ackReceived = true ∧ s.addReceived = true ∧ s.delay = 0

instance (s : SwitchState) : Decidable s.Gate := inferInstanceAs (Decidable (_ ∧ _))

/-- Lines 197-308. -/
def turn (s : SwitchState) : Option (SwitchState × Writes) :=
  if s.Gate then
    if s.isOpen then
      match s.lines with
      | [] => some ({ s with isOpen := false }, [])
      | line :: lines => (parseLine line).map fun t => { s with lines := lines }.traffic t
    else some (s, [])
  else some (s, [])

/-! ## A received packet -/

/-- Lines 366-393. With an action that is neither 0 nor 1, `newRule` has never been
    written and is some `garbage`. -/
def handleAdd (cfg : SwitchConfig) (garbage : FowardRule) (s : SwitchState)
    (action ipLow ipHigh actionVal srcIp : ℤ) : SwitchState × Writes :=
  let s := { s with addReceived := true }
  let install := fun (s : SwitchState) (newRule : FowardRule) =>
    { s with
      fowardTable := s.fowardTable ++ [newRule]
      counts := { s.counts with add := s.counts.add + 1 } }
  if action = 0 then (install s ⟨0, MAX_IP, ipLow, ipHigh, .DROP, actionVal, 1⟩, [])
  else if action = 1 then
    let (s, writes) := s.relay cfg.id actionVal srcIp ipLow
    (install s ⟨0, MAX_IP, ipLow, ipHigh, .FORWARD, actionVal, 1⟩, writes)
  else (install s garbage, [])

/-- Lines 355-396 on the string in the buffer. -/
def handlePacket (memory : Memory) (garbage : FowardRule) (cfg : SwitchConfig)
    (s : SwitchState) (packetString : Text) : SwitchState × Writes :=
  let (packetType, pkt) := readPkt packetString
  let elem := memory.index pkt
  if packetType = "HELLO_ACK".toList then
    ({ s with
      hello_ackReceived := true
      counts := { s.counts with hello_ack := s.counts.hello_ack + 1 } }, [])
  else if packetType = "ADD".toList then
    s.handleAdd cfg garbage (elem 0) (elem 1) (elem 2) (elem 3) (elem 4)
  else if packetType = "RELAY".toList then
    ({ s with counts := { s.counts with relayIn := s.counts.relayIn + 1 } }, [])
  else (s, [])

end SwitchState

end Cmput379.A3w22
