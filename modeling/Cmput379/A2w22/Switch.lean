import Cmput379.A2w22.Controller

/-!
# The switch

`masterSwitch` of `Assignment_2/w22/switch.cpp`: the sessions, one traffic line, and
`switchReceive` on the fields of one message. A packet goes out with the id of the
switch whose FIFO it is written to, 0 for the controller. `none` stands for a field or a
session that is not there, or a number that `stoi` does not accept. The counters are
`int`s, as those of the controller.
-/

namespace Cmput379.A2w22

open Cmput379.Lib

/-- `#define MAXIP 1000`. -/
def MAXIP : ℤ := 1000

/-- The arguments of `masterSwitch`; a missing neighbour is -1. -/
structure SwitchConfig where
  switchID : ℤ
  pswj : ℤ
  pswk : ℤ
  ip_range : IPs
  id_int : IsInt switchID
  pswj_int : IsInt pswj
  pswk_int : IsInt pswk
  low_int : IsInt ip_range.low
  high_int : IsInt ip_range.high

/-- A session with a neighbour, or with the controller: its in-FIFO and its out-FIFO
    are those between the two. -/
structure Session where
  peer : ℤ
  port : ℤ
  deriving DecidableEq, Repr

/-- `init_session` (lines 255-281). -/
def init_session (left right : ℤ) : List Session :=
  [⟨0, 0⟩] ++ (if left > 0 then [⟨left, 1⟩] else []) ++ (if right > 0 then [⟨right, 2⟩] else [])

def SwitchConfig.switch_sessions (cfg : SwitchConfig) : List Session :=
  init_session cfg.pswj cfg.pswk

/-- `find_matching_session` (lines 203-214); `none` is -1. -/
def find_matching_session (sessions : List Session) (port : ℤ) : Option ℕ :=
  sessions.findIdx? (·.port = port)

inductive ActionType
  | FORWARD
  | DROP
  deriving DecidableEq, Repr

/-- `struct ft`. -/
structure Ft where
  src_range : IPs
  dest_range : IPs
  actionType : ActionType
  action_value : ℤ
  pktCount : ℤ
  deriving DecidableEq, Repr

/-- The globals of a switch that change, and the traffic lines from `rule_cnt` on. -/
structure SwitchState where
  forwardingTable : List Ft
  switch_stats : PacketInfo
  lines : List Text

namespace SwitchState

/-- Lines 54-56. -/
def init (cfg : SwitchConfig) (file : List Text) : SwitchState where
  forwardingTable := [⟨⟨0, MAXIP⟩, cfg.ip_range, .FORWARD, 3, 0⟩]
  switch_stats := .zero
  lines := file

/-- `send_open_to_controller` (lines 216-222). -/
def send_open_to_controller (cfg : SwitchConfig) (s : SwitchState) : SwitchState × List Sent :=
  ({ s with switch_stats := s.switch_stats.transmit .HELLO },
    [⟨0, join ["HELLO".toList, intText cfg.switchID, intText cfg.pswj, intText cfg.pswk,
      intText cfg.ip_range.low, intText cfg.ip_range.high]⟩])

end SwitchState

/-! ## A traffic line -/

structure TrafficRule where
  switchID : ℤ
  src_ip : ℤ
  dest_ip : ℤ
  deriving DecidableEq, Repr

/-- The pieces between the matches of `\s+`: the first one also when it is empty, no
    empty one behind the last match. -/
def wsSplit (line : Text) : List Text :=
  match line.splitOnP isspace with
  | [] => []
  | first :: rest => first :: rest.filter (· ≠ [])

/-- `s.substr(3)`, which throws behind the end. -/
def substr3 (s : Text) : Option Text := if s.length < 3 then none else some (s.drop 3)

/-- `parse_traffic_rule` (lines 362-375); the inner `none` is a line with `switchID` -1. -/
def parse_traffic_rule (line : Text) : Option (Option TrafficRule) :=
  if '#' ∉ line ∧ line ≠ [] then do
    let placeholder := wsSplit line
    let name ← placeholder[0]?.bind substr3
    let switchID ← stoi name
    let src_ip ← placeholder[1]?.bind stoi
    let dest_ip ← placeholder[2]?.bind stoi
    return some ⟨switchID, src_ip, dest_ip⟩
  else some none

/-- `find_matching_rule` (lines 190-201); `none` is -1. -/
def find_matching_rule (table : List Ft) (dest_ip : ℤ) : Option ℕ :=
  table.findIdx? fun entry => entry.dest_range.Contains dest_ip

/-- `forwardingTable[i].pktCount += 1`. -/
def countPacket (table : List Ft) (i : ℕ) : List Ft :=
  table.modify i fun entry => { entry with pktCount := entry.pktCount + 1 }

/-- `"RELAY "` and the id of the sender (lines 87-88, lines 151-152). -/
def relayMessage (switchID : ℤ) : Text := join ["RELAY".toList, intText switchID]

namespace SwitchState

/-- Line 82-98: a packet of this switch for another one. -/
def admitted (cfg : SwitchConfig) (s : SwitchState) (dest_ip : ℤ) :
    Option (SwitchState × List Sent) :=
  let s := { s with switch_stats := s.switch_stats.receive .ADMIT }
  match find_matching_rule s.forwardingTable dest_ip with
  | some (i + 1) => do
    let rule ← s.forwardingTable[i + 1]?
    let session_idx ← find_matching_session cfg.switch_sessions rule.action_value
    let session ← cfg.switch_sessions[session_idx]?
    some (
      { s with
        forwardingTable := countPacket s.forwardingTable (i + 1)
        switch_stats := s.switch_stats.transmit .RELAYIN },
      [⟨session.peer, relayMessage cfg.switchID⟩])
  | _ =>
    some ({ s with switch_stats := s.switch_stats.transmit .ASK },
      [⟨0, join ["ASK".toList, intText cfg.switchID, intText dest_ip]⟩])

/-- Lines 77-100. -/
def turn (cfg : SwitchConfig) (s : SwitchState) : Option (SwitchState × List Sent) :=
  match s.lines with
  | [] => some (s, [])
  | line :: lines => do
    let rule ← parse_traffic_rule line
    let s := { s with lines := lines }
    match rule with
    | none => some (s, [])
    | some rule =>
      if rule.switchID = cfg.switchID ∧ cfg.ip_range.Contains rule.dest_ip then
        some (
          { s with
            forwardingTable := countPacket s.forwardingTable 0
            switch_stats := s.switch_stats.receive .ADMIT }, [])
      else if rule.switchID = cfg.switchID then s.admitted cfg rule.dest_ip
      else some (s, [])

/-! ## A received message -/

/-- `name_pkt_map[name]`; a missing key yields the first value. -/
def name_pkt_map (name : Text) : PktType :=
  if name = "HELLO_ACK".toList then .HELLO_ACK
  else if name = "ASK".toList then .ASK
  else if name = "ADD".toList then .ADD
  else if name = "RELAY".toList then .RELAYIN
  else if name = "ADMIT".toList then .ADMIT
  else .HELLO

/-- `add_drop_rule` (lines 180-188). -/
def add_drop_rule (s : SwitchState) (ip : ℤ) : SwitchState :=
  { s with forwardingTable := s.forwardingTable ++ [⟨⟨0, MAXIP⟩, ⟨ip, ip⟩, .DROP, 0, 1⟩] }

/-- Lines 148-155: the rule, and the packet that goes out with it. Here the index of
    the session is tested. -/
def add_forward_rule (cfg : SwitchConfig) (s : SwitchState) (forwarding_port : ℤ) (dest : IPs) :
    SwitchState × List Sent :=
  let writes := match find_matching_session cfg.switch_sessions forwarding_port with
    | some (i + 1) => (cfg.switch_sessions[i + 1]?.map fun session =>
        (⟨session.peer, relayMessage cfg.switchID⟩ : Sent)).toList
    | _ => []
  ({ s with
      forwardingTable := s.forwardingTable ++ [⟨⟨0, MAXIP⟩, dest, .FORWARD, forwarding_port, 1⟩]
      switch_stats := s.switch_stats.transmit .RELAYIN }, writes)

/-- Line 148. -/
def forwardingPort (cfg : SwitchConfig) (port1 : ℤ) : ℤ := if port1 = cfg.switchID then 2 else 1

/-- Lines 141-157. -/
def receiveAdd (cfg : SwitchConfig) (s : SwitchState) (message : List Text) :
    Option (SwitchState × List Sent) :=
  if message.length = 3 then do
    let ip ← message[2]?.bind stoi
    return (s.add_drop_rule ip, [])
  else if message.length = 6 then do
    let port1 ← message[2]?.bind stoi
    let low ← message[4]?.bind stoi
    let high ← message[5]?.bind stoi
    return s.add_forward_rule cfg (forwardingPort cfg port1) ⟨low, high⟩
  else some (s, [])

/-- `switchReceive` (lines 135-167). -/
def switchReceive (cfg : SwitchConfig) (s : SwitchState) (message : List Text) :
    Option (SwitchState × List Sent) :=
  match message with
  | name :: _ :: _ =>
    let type := name_pkt_map name
    let s := { s with switch_stats := s.switch_stats.receive type }
    match type with
    | .ADD => s.receiveAdd cfg message
    | .RELAYIN => some ({ s with forwardingTable := countPacket s.forwardingTable 0 }, [])
    | _ => some (s, [])
  | _ => some (s, [])

end SwitchState

end Cmput379.A2w22
