import Cmput379.Sdn.Steps

/-!
# One switch

The loop of `test2/switch.cpp` in an environment that may do at any time what the other
processes can do: the controller sends ACKs and ADDs, the neighbours send RELAYs, and a
neighbour leaves. Every read delivers one packet as written. A FIFO is only there where
there is a neighbour; `openFifo` on any other name ends the process. The end of a FIFO
is taken to be reported as `POLLIN`, which the loop tests; Linux reports `POLLHUP`, so
that there no `hangUp` of a neighbour is seen.

* `step`: one turn of part 1, one packet, or the end of a neighbour's FIFO.
* `Move`, `move_of_step`: the steps with the packets made explicit.
* `useRule_counts`, `handleRelay_counts`: what the handlers count.
-/

namespace Cmput379.Sdn.SwitchLoop

open Cmput379.Lib SwitchState

/-- The switch behind a port (lines 303-320). -/
def neighbour (cfg : SwitchConfig) (port : ℤ) : Option ℤ :=
  if port = 1 ∧ cfg.port1Id ≠ -1 then some cfg.port1Id
  else if port = 2 ∧ cfg.port2Id ≠ -1 then some cfg.port2Id
  else none

/-- The loop, and every packet that `switchLoop` has written. -/
structure State where
  sw : SwitchState
  written : List Write

/-- A turn of part 1 with its clock readings; the packet `p` is read from `pfds[i]`;
    `poll` reports `pfds[i]`, which is at its end. -/
inductive Action
  | traffic (now ms : ℤ)
  | receive (i : ℤ) (p : WirePacket)
  | hangUp (i : ℤ)

/-- After `sendOpenPacket`. -/
def init (cfg : SwitchConfig) (lines : List Text) : State where
  sw := .init cfg lines
  written := [⟨.controller, openPacket cfg⟩]

def State.after (st : State) (r : SwitchState × List Write) : State :=
  { sw := r.1, written := st.written ++ r.2 }

/-! ## The environment -/

/-- What can be read from `pfds[i]`: the packets of `controllerLoop`, or a RELAY of a
    neighbour. -/
def Arrives (cfg : SwitchConfig) (i : ℤ) : Packet → Prop
  | .ACK => i = socketIdx
  | .ADD action ipLow ipHigh relayPort _ =>
    i = socketIdx ∧ (action = 1 ∧ (relayPort = 1 ∨ relayPort = 2) ∨
      action = 0 ∧ ipLow = ipHigh ∧ relayPort = 0)
  | .RELAY _ _ => (neighbour cfg i).isSome
  | _ => False

instance (cfg : SwitchConfig) (i : ℤ) : (p : Packet) → Decidable (Arrives cfg i p)
  | .ACK => inferInstanceAs (Decidable (i = socketIdx))
  | .ADD .. => inferInstanceAs (Decidable (_ ∧ _))
  | .RELAY .. => inferInstanceAs (Decidable ((neighbour cfg i).isSome = true))
  | .OPEN .. | .QUERY .. => inferInstanceAs (Decidable False)

/-- A neighbour that has left sends nothing more. -/
def Enabled (cfg : SwitchConfig) (s : SwitchState) : Action → Prop
  | .traffic _ _ => True
  | .receive i p => Arrives cfg i p.packet ∧ i ∉ s.closed
  | .hangUp i => (neighbour cfg i).isSome ∧ i ∉ s.closed

instance (cfg : SwitchConfig) (s : SwitchState) : (a : Action) → Decidable (Enabled cfg s a)
  | .traffic .. => inferInstanceAs (Decidable True)
  | .receive .. => inferInstanceAs (Decidable (_ ∧ _))
  | .hangUp _ => inferInstanceAs (Decidable (_ ∧ _))

/-! ## The loop -/

/-- The port of the FORWARD rule that the next turn of part 1 uses. -/
def hitPort (cfg : SwitchConfig) (s : SwitchState) (now ms : ℤ) : Option ℤ :=
  (s.nextHeader cfg now ms).bind fun header =>
    (s.flowTable.find? fun rule => rule.covers header.2).bind fun rule =>
      if rule.actionType = .FORWARD ∧ rule.actionVal ≠ 3 then some rule.actionVal else none

/-- The port of the rule that is used or installed. -/
def rulePort (cfg : SwitchConfig) (s : SwitchState) : Action → Option ℤ
  | .traffic now ms => hitPort cfg s now ms
  | .receive _ ⟨.ADD action _ _ port _, _⟩ => if action = 1 then some port else none
  | _ => none

/-- `openFifo` succeeds, or need not be called. -/
def Opens (cfg : SwitchConfig) (s : SwitchState) (a : Action) : Prop :=
  ∀ port ∈ rulePort cfg s a, (s.portToFd port).isSome ∨ (neighbour cfg port).isSome

instance (cfg : SwitchConfig) (s : SwitchState) (a : Action) : Decidable (Opens cfg s a) :=
  inferInstanceAs (Decidable (∀ port ∈ rulePort cfg s a, _))

/-- The new state, and the packets written. -/
def respond (cfg : SwitchConfig) (s : SwitchState) : Action → Option (SwitchState × List Write)
  | .traffic now ms => (s.trafficTurn cfg now ms).map fun turn => (turn.state, turn.writes)
  | .receive i p => s.handleText cfg i p.packet.text
  | .hangUp i => some ({ s with closed := s.closed ++ [i] }, [])

def step (cfg : SwitchConfig) (st : State) (a : Action) : Option State :=
  if Enabled cfg st.sw a ∧ Opens cfg st.sw a then (respond cfg st.sw a).map st.after else none

/-- A switch with the traffic file `lines`. -/
def system (cfg : SwitchConfig) (lines : List Text) : System State Action where
  init st := st = init cfg lines
  step := step cfg

/-! ## Steps with the packets made explicit -/

/-- What a step can do. -/
inductive Move (cfg : SwitchConfig) (s : SwitchState) : Action → SwitchState × List Write → Prop
  | quiet (now ms : ℤ) (s' : SwitchState) (hs : Quiet s s')
      (hheader : s.nextHeader cfg now ms = none) : Move cfg s (.traffic now ms) (s', [])
  | hit (now ms srcIp destIp : ℤ) (s' : SwitchState) (rule : FlowRule)
      (flowTable : List FlowRule) (hs : Quiet s s')
      (hheader : s.nextHeader cfg now ms = some (srcIp, destIp))
      (hmatch : matchRule destIp s.flowTable = some (rule, flowTable)) :
      Move cfg s (.traffic now ms) (s'.countAdmit.useRule cfg rule flowTable srcIp destIp)
  | miss (now ms srcIp destIp : ℤ) (s' : SwitchState) (hs : Quiet s s')
      (hheader : s.nextHeader cfg now ms = some (srcIp, destIp))
      (hmatch : matchRule destIp s.flowTable = none) :
      Move cfg s (.traffic now ms) (s'.countAdmit.sendQuery srcIp destIp)
  | ack (hrange : Packet.ACK.InRange) (hopen : socketIdx ∉ s.closed) :
      Move cfg s (.receive socketIdx ⟨.ACK, hrange⟩) (s.handleAck, [])
  | drop (ip srcIp : ℤ) (hrange : (Packet.ADD 0 ip ip 0 srcIp).InRange) :
      Move cfg s (.receive socketIdx ⟨.ADD 0 ip ip 0 srcIp, hrange⟩)
        ({ s with addReceived := true }.pushRule (addedRule ip ip .DROP 0), [])
  | forward (ipLow ipHigh port srcIp : ℤ)
      (hrange : (Packet.ADD 1 ipLow ipHigh port srcIp).InRange) (hport : port = 1 ∨ port = 2)
      (hopen : socketIdx ∉ s.closed) :
      Move cfg s (.receive socketIdx ⟨.ADD 1 ipLow ipHigh port srcIp, hrange⟩)
        ({ s with addReceived := true }.handleForward cfg socketIdx ipLow ipHigh port srcIp)
  | relay (i srcIp destIp : ℤ) (hrange : (Packet.RELAY srcIp destIp).InRange)
      (hi : (neighbour cfg i).isSome) (hopen : i ∉ s.closed) :
      Move cfg s (.receive i ⟨.RELAY srcIp destIp, hrange⟩) (s.handleRelay cfg i srcIp destIp)
  | hangUp (i : ℤ) (hi : (neighbour cfg i).isSome) (hopen : i ∉ s.closed) :
      Move cfg s (.hangUp i) ({ s with closed := s.closed ++ [i] }, [])

theorem move_of_traffic {cfg : SwitchConfig} {s : SwitchState} {now ms : ℤ} {turn : Turn}
    (h : s.trafficTurn cfg now ms = some turn) :
    Move cfg s (.traffic now ms) (turn.state, turn.writes) := by
  have hnext : s.nextHeader cfg now ms = turn.header := by
    rw [nextHeader, h]
    rfl
  rcases trafficTurn_cases h with ⟨hheader, hwrites, hquiet⟩ |
    ⟨srcIp, destIp, s', hheader, hquiet, -, -, -, -, hturned⟩
  · rw [hwrites]
    exact .quiet now ms turn.state hquiet (hnext.trans hheader)
  · rw [hturned, admitPacket_of_quiet hquiet]
    cases hmatch : matchRule destIp s.flowTable with
    | none => exact .miss now ms srcIp destIp s' hquiet (hnext.trans hheader) hmatch
    | some found =>
      obtain ⟨rule, flowTable⟩ := found
      exact .hit now ms srcIp destIp s' rule flowTable hquiet (hnext.trans hheader) hmatch

theorem move_of_receive {cfg : SwitchConfig} {s : SwitchState} {i : ℤ} {p : WirePacket}
    {r : SwitchState × List Write} (harrives : Arrives cfg i p.packet) (hopen : i ∉ s.closed)
    (h : s.handleText cfg i p.packet.text = some r) : Move cfg s (.receive i p) r := by
  obtain ⟨packet, hrange⟩ := p
  cases packet with
  | ACK =>
    obtain rfl : i = socketIdx := harrives
    rw [handleText_ACK] at h
    cases h
    exact .ack hrange hopen
  | ADD action ipLow ipHigh port srcIp =>
    obtain ⟨rfl, ⟨rfl, hport⟩ | ⟨rfl, rfl, rfl⟩⟩ := harrives
    · rw [handleText_ADD_forward _ _ _ hrange hopen] at h
      cases h
      exact .forward ipLow ipHigh port srcIp hrange hport hopen
    · rw [handleText_ADD_drop _ _ _ hrange] at h
      cases h
      exact .drop ipLow srcIp hrange
  | RELAY srcIp destIp =>
    rw [handleText_RELAY _ _ _ hrange] at h
    cases h
    exact .relay i srcIp destIp hrange harrives hopen
  | OPEN => exact harrives.elim
  | QUERY => exact harrives.elim

theorem move_of_step {cfg : SwitchConfig} {st st' : State} {a : Action}
    (h : step cfg st a = some st') :
    ∃ r, Move cfg st.sw a r ∧ respond cfg st.sw a = some r ∧ Opens cfg st.sw a ∧
      st' = st.after r := by
  unfold step at h
  split_ifs at h with hguard
  obtain ⟨henabled, hopens⟩ := hguard
  obtain ⟨r, hr, rfl⟩ := Option.map_eq_some_iff.mp h
  refine ⟨r, ?_, hr, hopens, rfl⟩
  cases a with
  | traffic now ms =>
    obtain ⟨turn, hturn, rfl⟩ := Option.map_eq_some_iff.mp hr
    exact move_of_traffic hturn
  | receive i p => exact move_of_receive henabled.1 henabled.2 hr
  | hangUp i =>
    cases hr
    exact .hangUp i henabled.1 henabled.2

/-- What every switch starts with and every move keeps, in every reachable state. -/
theorem invariant_of_reachable {cfg : SwitchConfig} {lines : List Text} {st : State}
    {I : State → Prop} (h : (system cfg lines).Reachable st) (h0 : I (init cfg lines))
    (h1 : ∀ st a r, I st → Move cfg st.sw a r → Opens cfg st.sw a → I (st.after r)) : I st := by
  refine h.invariant ?_ ?_
  · rintro _ rfl
    exact h0
  · intro st a st' _ hst hstep
    obtain ⟨r, hmove, -, hopens, rfl⟩ := move_of_step hstep
    exact h1 st a r hst hmove hopens

/-! ## What the handlers count -/

section Counts

variable (cfg : SwitchConfig) (s : SwitchState)

@[simp] theorem openPort_counts (port : ℤ) : (s.openPort cfg port).counts = s.counts := by
  unfold openPort
  split_ifs <;> rfl

@[simp] theorem openPort_closed (port : ℤ) : (s.openPort cfg port).closed = s.closed :=
  control_closed (openPort_control cfg s port)

/-- A hit on a rule for a neighbour counts a RELAY. -/
theorem useRule_counts (rule : FlowRule) (flowTable : List FlowRule) (srcIp destIp : ℤ) :
    (s.useRule cfg rule flowTable srcIp destIp).1.counts =
      if rule.actionType = .FORWARD ∧ rule.actionVal ≠ 3 then s.countRelayOut.counts
      else s.counts := by
  unfold useRule
  cases rule.actionType with
  | DROP => simp
  | FORWARD =>
    dsimp only
    split_ifs with hval hboth
    · simp [countRelayOut]
    · exact absurd ⟨rfl, hval⟩ hboth
    · rename_i hboth
      exact absurd hboth.2 hval
    · rfl

/-- It sends one, unless the neighbour has left. -/
theorem useRule_relays (rule : FlowRule) (flowTable : List FlowRule) (srcIp destIp : ℤ) :
    (s.useRule cfg rule flowTable srcIp destIp).2 =
      if rule.actionType = .FORWARD ∧ rule.actionVal ≠ 3 ∧ rule.actionVal ∉ s.closed then
        [⟨s.outFd cfg rule.actionVal, .RELAY srcIp destIp⟩] else [] := by
  unfold useRule
  cases rule.actionType with
  | DROP => simp
  | FORWARD =>
    dsimp only
    unfold relayUnlessClosed
    rw [openPort_closed, openPort_fdAt]
    by_cases hval : rule.actionVal = 3
    · simp [hval]
    · by_cases hclosed : rule.actionVal ∈ s.closed
      · simp [hval, hclosed]
      · simp [hval, hclosed]
        rfl

/-- A RELAY that is passed on is counted as it is written. -/
theorem handleRelay_counts (i srcIp destIp : ℤ) :
    (s.handleRelay cfg i srcIp destIp).1.counts =
      { s.counts with
        relayIn := s.counts.relayIn + 1
        relayOut := s.counts.relayOut + ((s.handleRelay cfg i srcIp destIp).2.length : ℤ) } := by
  unfold handleRelay
  dsimp only
  split_ifs <;> simp [countRelayOut, indexFd]

theorem handleForward_counts (i ipLow ipHigh port srcIp : ℤ) :
    (s.handleForward cfg i ipLow ipHigh port srcIp).1.counts =
      { s.counts with
        relayOut := s.counts.relayOut + 1
        add := s.counts.add + 1 } := by
  simp [handleForward, pushRule, countRelayOut]

theorem handleForward_relays {i : ℤ} (hi : i ∉ s.closed) (ipLow ipHigh port srcIp : ℤ) :
    (s.handleForward cfg i ipLow ipHigh port srcIp).2 =
      [⟨s.outFd cfg port, .RELAY srcIp ipLow⟩] := by
  unfold handleForward relayUnlessClosed
  dsimp only
  rw [openPort_closed, if_neg hi, openPort_fdAt]

end Counts

/-! ## Packets for switch 1 of `ex2.dat` -/

def ackPacket : WirePacket := ⟨.ACK, by decide⟩

/-- The answer to a QUERY for an address of switch 2. -/
def addPacket : WirePacket := ⟨.ADD 1 200 210 2 100, by decide⟩

end Cmput379.Sdn.SwitchLoop
