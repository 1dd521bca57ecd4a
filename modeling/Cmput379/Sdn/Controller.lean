import Mathlib.Logic.Function.Basic
import Cmput379.Sdn.Packet
import Cmput379.Sdn.Traffic

/-!
# The controller

`controllerLoop` of `test2/controller.cpp`: its state, `accept`, and the
handling of one received packet. The model is generic in the type `φ` of
descriptors; `default` is descriptor 0, which `operator[]` yields for a
missing key. `pfds` and `idToFd` are indexed by the slot a connection was
accepted into, not by the id of the switch behind it. The counters are `int`s,
and fewer than 2^31 packets are counted.
-/

namespace Cmput379.Sdn

open Cmput379.Lib

/-- `#define CONTROLLER_ID 0`. -/
def CONTROLLER_ID : ℤ := 0

/-- `ControllerPacketCounts` (lines 31–36). -/
structure ControllerPacketCounts where
  open_ : ℤ
  query : ℤ
  add : ℤ
  ack : ℤ
  deriving DecidableEq, Repr

/-- `SwitchInfo` (lines 41–47). -/
structure SwitchInfo where
  id : ℤ
  port1Id : ℤ
  port2Id : ℤ
  ipLow : ℤ
  ipHigh : ℤ
  deriving DecidableEq, Repr

/-- `destIp >= info.ipLow && destIp <= info.ipHigh` (line 266). -/
def SwitchInfo.contains (info : SwitchInfo) (destIp : ℤ) : Prop :=
  info.ipLow ≤ destIp ∧ destIp ≤ info.ipHigh

instance (info : SwitchInfo) (destIp : ℤ) : Decidable (info.contains destIp) :=
  inferInstanceAs (Decidable (_ ∧ _))

/-- The local variables of `controllerLoop`. -/
structure ControllerState (φ : Type) where
  numSwitches : ℤ
  switchInfoTable : List SwitchInfo
  idToFd : ℤ → Option φ
  counts : ControllerPacketCounts
  pfds : ℤ → Option φ
  socketIdx : ℤ
  closed : List ℤ

namespace ControllerState

variable {φ : Type}

/-- `controllerLoop` up to line 178; `stdin` and `mainFd` are the descriptors in
    `pfds[0]` and `pfds[mainSocket]`. -/
def init (numSwitches : ℤ) (stdin mainFd : φ) : ControllerState φ where
  numSwitches := numSwitches
  switchInfoTable := []
  idToFd := fun _ => none
  counts := { open_ := 0, query := 0, add := 0, ack := 0 }
  pfds := Function.update (Function.update (fun _ => none) 0 (some stdin)) (numSwitches + 1)
    (some mainFd)
  socketIdx := 1
  closed := []

/-- The new connection `fd` goes to slot `socketIdx` (lines 308–324). -/
def accept (c : ControllerState φ) (fd : φ) : ControllerState φ :=
  { c with pfds := Function.update c.pfds c.socketIdx (some fd), socketIdx := c.socketIdx + 1 }

variable [Inhabited φ]

/-- `idToFd[i]`, when the key is there or when it is not. -/
def fdAt (c : ControllerState φ) (i : ℤ) : φ := (c.idToFd i).getD default

/-- The entry `idToFd[i]` leaves behind. -/
def indexFd (c : ControllerState φ) (i : ℤ) : ControllerState φ :=
  { c with idToFd := Function.update c.idToFd i (some (c.fdAt i)) }

/-- "Ensure switch is not closed before sending": a packet to slot `i` on the
    descriptor `fd` unless `i` is in `closed`. -/
def sendUnlessClosed (c : ControllerState φ) (i : ℤ) (fd : φ) (packet : Packet) :
    List (φ × Packet) :=
  if i ∈ c.closed then [] else [(fd, packet)]

/-- The OPEN case (lines 239–247) in slot `i`. `insert` keeps an entry that is
    already there. -/
def handleOpen (c : ControllerState φ) (i : ℤ) (info : SwitchInfo) :
    ControllerState φ × List (φ × Packet) :=
  let fd := (c.pfds i).getD default
  ({ c with
      switchInfoTable := c.switchInfoTable ++ [info]
      idToFd := if (c.idToFd i).isSome then c.idToFd else Function.update c.idToFd i (some fd)
      counts := { c.counts with open_ := c.counts.open_ + 1, ack := c.counts.ack + 1 } },
    c.sendUnlessClosed i fd .ACK)

/-- "Determine relay port" (lines 272–276): the id of the owner against the
    slot of the requester. -/
def relayPort (info : SwitchInfo) (i : ℤ) : ℤ := if info.id > i then 2 else 1

/-- The answer to a QUERY in slot `i` (lines 264–295). -/
def answer (switchInfoTable : List SwitchInfo) (i srcIp destIp : ℤ) : Packet :=
  match switchInfoTable.find? fun info => info.contains destIp with
  | some info => .ADD 1 info.ipLow info.ipHigh (relayPort info i) srcIp
  | none => .ADD 0 destIp destIp 0 srcIp

/-- The QUERY case (lines 249–297) in slot `i`. -/
def handleQuery (c : ControllerState φ) (i srcIp destIp : ℤ) :
    ControllerState φ × List (φ × Packet) :=
  let c := { c with counts := { c.counts with query := c.counts.query + 1 } }
  if srcIp > MAX_IP ∨ srcIp < 0 then (c, [])
  else if destIp > MAX_IP ∨ destIp < 0 then (c, [])
  else
    let writes := c.sendUnlessClosed i (c.fdAt i) (answer c.switchInfoTable i srcIp destIp)
    let c := if i ∈ c.closed then c else c.indexFd i
    ({ c with counts := { c.counts with add := c.counts.add + 1 } }, writes)

/-- The dispatch on a packet read from `pfds[i]` (lines 234–300). -/
def handlePacket (c : ControllerState φ) (i : ℤ) (packetType : Text) (packetMessage : List ℤ) :
    Option (ControllerState φ × List (φ × Packet)) := do
  let _ ← printPacketMessage "Received".toList i CONTROLLER_ID packetType packetMessage
  if packetType = ['O', 'P', 'E', 'N'] then
    let id ← packetMessage[0]?
    let port1Id ← packetMessage[1]?
    let port2Id ← packetMessage[2]?
    let ipLow ← packetMessage[3]?
    let ipHigh ← packetMessage[4]?
    return c.handleOpen i ⟨id, port1Id, port2Id, ipLow, ipHigh⟩
  else if packetType = ['Q', 'U', 'E', 'R', 'Y'] then
    let srcIp ← packetMessage[0]?
    let destIp ← packetMessage[1]?
    return c.handleQuery i srcIp destIp
  else return (c, [])

/-- Lines 229–300 on the string in the buffer. -/
def handleText (c : ControllerState φ) (i : ℤ) (packetString : Text) :
    Option (ControllerState φ × List (φ × Packet)) :=
  let (packetType, packetMessage) := parsePacketString packetString
  c.handlePacket i packetType packetMessage

/-! ## The handlers on packets as sent -/

section Sent

variable (c : ControllerState φ) (i : ℤ)

theorem handleText_text {p : Packet} (hp : p.InRange) :
    c.handleText i p.text = c.handlePacket i p.type p.msg := by
  simp only [handleText, parsePacketString_text hp]

theorem handleText_OPEN {id port1Id port2Id ipLow ipHigh : ℤ}
    (hp : (Packet.OPEN id port1Id port2Id ipLow ipHigh).InRange) :
    c.handleText i (Packet.OPEN id port1Id port2Id ipLow ipHigh).text =
      some (c.handleOpen i ⟨id, port1Id, port2Id, ipLow, ipHigh⟩) := by
  rw [handleText_text _ _ hp]
  obtain ⟨line, hline⟩ := printPacketMessage_packet "Received".toList i CONTROLLER_ID
    (.OPEN id port1Id port2Id ipLow ipHigh)
  rw [handlePacket, hline]
  simp [Packet.type, Packet.msg]

theorem handleText_QUERY {srcIp destIp : ℤ} (hp : (Packet.QUERY srcIp destIp).InRange) :
    c.handleText i (Packet.QUERY srcIp destIp).text = some (c.handleQuery i srcIp destIp) := by
  rw [handleText_text _ _ hp]
  obtain ⟨line, hline⟩ := printPacketMessage_packet "Received".toList i CONTROLLER_ID
    (.QUERY srcIp destIp)
  rw [handlePacket, hline]
  simp [Packet.type, Packet.msg]

/-- A QUERY with two addresses of the network is answered on the descriptor
    stored for its slot. -/
theorem handleQuery_of_isIp {srcIp destIp : ℤ} (hs : IsIp srcIp) (hd : IsIp destIp)
    (hi : i ∉ c.closed) :
    (c.handleQuery i srcIp destIp).2 = [(c.fdAt i, answer c.switchInfoTable i srcIp destIp)] := by
  unfold IsIp at hs hd
  unfold handleQuery
  rw [if_neg (by omega), if_neg (by omega)]
  simp only [sendUnlessClosed, if_neg hi]
  rfl

end Sent

end ControllerState

end Cmput379.Sdn
