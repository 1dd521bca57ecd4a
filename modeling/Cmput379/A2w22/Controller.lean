import Cmput379.A2w22.Messages

/-!
# The controller

`controllerReceive` of `Assignment_2/w22/controller.cpp` on the fields of one message.
A packet goes out with the id of the switch whose FIFO it is written to. `none` stands
for a field or a session that is not there, or a number that `stoi` does not accept.
The counters of the parties are `int`s, and fewer than 2^31 packets are counted.
-/

namespace Cmput379.A2w22

open Cmput379.Lib

/-- `struct IPs`. -/
structure IPs where
  low : ℤ
  high : ℤ
  deriving DecidableEq, Repr

/-- The address is in the range. -/
def IPs.Contains (r : IPs) (ip : ℤ) : Prop := r.low ≤ ip ∧ ip ≤ r.high

instance (r : IPs) (ip : ℤ) : Decidable (r.Contains ip) := inferInstanceAs (Decidable (_ ∧ _))

/-- `enum PktType`. -/
inductive PktType
  | HELLO
  | HELLO_ACK
  | ASK
  | ADD
  | RELAYIN
  | ADMIT
  deriving DecidableEq, Repr

/-- `struct PacketInfo`; `operator[]` of a missing key yields 0. -/
structure PacketInfo where
  received : PktType → ℤ
  transmitted : PktType → ℤ

def PacketInfo.zero : PacketInfo := { received := fun _ => 0, transmitted := fun _ => 0 }

/-- `received[type] += 1`. -/
def PacketInfo.receive (info : PacketInfo) (type : PktType) : PacketInfo :=
  { info with received := fun t => if t = type then info.received t + 1 else info.received t }

/-- `transmitted[type] += 1`. -/
def PacketInfo.transmit (info : PacketInfo) (type : PktType) : PacketInfo :=
  { info with
    transmitted := fun t => if t = type then info.transmitted t + 1 else info.transmitted t }

/-- `struct Switch`. -/
structure Switch where
  switchID : ℤ
  port1 : ℤ
  port2 : ℤ
  ipranges : IPs
  deriving DecidableEq, Repr

/-- The globals of the controller that change. -/
structure Controller where
  switches : List Switch
  controllerInfo : PacketInfo

/-- A packet for the switch `dest`. -/
structure Sent where
  dest : ℤ
  message : Text
  deriving DecidableEq, Repr

namespace Controller

def init : Controller := { switches := [], controllerInfo := .zero }

/-- A session of the controller: `sessions[switchID - 1]` is there. -/
def HasSession (numOfSwitch : ℕ) (switchID : ℤ) : Prop := 1 ≤ switchID ∧ switchID ≤ numOfSwitch

instance (numOfSwitch : ℕ) (switchID : ℤ) : Decidable (HasSession numOfSwitch switchID) :=
  inferInstanceAs (Decidable (_ ∧ _))

/-- `stoi(field) <= 0 ? -1 : stoi(field)`. -/
def port (x : ℤ) : ℤ := if x ≤ 0 then -1 else x

/-- Lines 168-177. -/
def receiveHello (numOfSwitch : ℕ) (c : Controller) (message : List Text) :
    Option (Controller × List Sent) := do
  let switchID ← message[1]?.bind stoi
  let port1 ← message[2]?.bind stoi
  let port2 ← message[3]?.bind stoi
  let port3low ← message[4]?.bind stoi
  let port3high ← message[5]?.bind stoi
  if HasSession numOfSwitch switchID then
    some (
      { switches := c.switches ++ [⟨switchID, port port1, port port2, ⟨port3low, port3high⟩⟩]
        controllerInfo := (c.controllerInfo.receive .HELLO).transmit .HELLO_ACK },
      [⟨switchID, join ["HELLO_ACK".toList, "0".toList]⟩])
  else none

/-- The loop of lines 184-190: `stoi(message[2])` is evaluated for every switch. -/
def findOwner (field : Text) : List Switch → Option (Option Switch)
  | [] => some none
  | sw :: switches => do
    let ip ← stoi field
    if sw.ipranges.Contains ip then some (some sw) else findOwner field switches

/-- Lines 179-193. -/
def receiveAsk (numOfSwitch : ℕ) (c : Controller) (message : List Text) :
    Option (Controller × List Sent) := do
  let first ← message[1]?
  let switchID ← stoi first
  let field ← message[2]?
  let owner ← findOwner field c.switches
  let rest := match owner with
    | some sw => [intText sw.port1, intText sw.port2, intText sw.ipranges.low,
        intText sw.ipranges.high]
    | none => [field]
  if HasSession numOfSwitch switchID then
    some ({ c with controllerInfo := (c.controllerInfo.receive .ASK).transmit .ADD },
      [⟨switchID, join ("ADD".toList :: first :: rest)⟩])
  else none

end Controller

/-- `controllerReceive` (lines 164-195). -/
def controllerReceive (numOfSwitch : ℕ) (c : Controller) (message : List Text) :
    Option (Controller × List Sent) := do
  let type ← message[0]?
  let _ ← message[1]?
  if type = "HELLO".toList then c.receiveHello numOfSwitch message
  else if type = "ASK".toList then c.receiveAsk numOfSwitch message
  else some (c, [])

end Cmput379.A2w22
