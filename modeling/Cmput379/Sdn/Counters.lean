import Cmput379.Sdn.LivePorts
import Cmput379.Sdn.ControllerLoop

/-!
# The counters of transmitted packets

A hit on a rule counts a RELAY behind the check for a neighbour that has left, as the
controller counts its ACKs and ADDs behind the check for a closed slot; passing on a RELAY
counts inside the check.

* `sent`: the packets of a type that have been written.
* `SwitchLoop.counts_of_run`, `ControllerLoop.counts_of_run`: the counters are the packets
  written and the steps that count without writing.
* `truthful_iff`: the runs that end with counters that tell the truth.
-/

namespace Cmput379.Sdn

open Cmput379.Lib

/-- The number of packets of a type. -/
def sent (type : Text) (packets : List Packet) : ℤ := packets.countP fun p => p.type = type

section Sent

variable (type : Text)

@[simp] theorem sent_nil : sent type [] = 0 := rfl

@[simp] theorem sent_append (packets packets' : List Packet) :
    sent type (packets ++ packets') = sent type packets + sent type packets' := by
  simp [sent, List.countP_append]

@[simp] theorem sent_singleton (p : Packet) :
    sent type [p] = if p.type = type then 1 else 0 := by
  simp [sent, List.countP_singleton]

end Sent

theorem countP_snoc {α : Type} {P : α → Prop} [DecidablePred P] (l : List α) (a : α) :
    (((l ++ [a]).countP fun p => P p : ℕ) : ℤ) =
      (l.countP fun p => P p : ℕ) + if P a then 1 else 0 := by
  rw [List.countP_append, List.countP_singleton]
  split_ifs <;> simp_all

/-- A number of steps that is added to a count changes nothing only if there are none. -/
theorem eq_add_countP_iff {α : Type} {P : α → Prop} [DecidablePred P] {l : List α} {x y : ℤ}
    (h : x = y + (l.countP fun p => P p : ℕ)) : x = y ↔ ∀ p ∈ l, ¬ P p := by
  have hzero : x = y ↔ (l.countP fun p => P p) = 0 := by omega
  rw [hzero, List.countP_eq_zero]
  simp

/-! ## The switch -/

namespace SwitchLoop

open SwitchState

/-- The packets a switch has written. -/
def State.packets (st : State) : List Packet := st.written.map Write.packet

/-- The transmitted counters are the numbers of packets written. -/
structure Truthful (st : State) : Prop where
  relayOut : st.sw.counts.relayOut = sent "RELAY".toList st.packets
  query : st.sw.counts.query = sent "QUERY".toList st.packets
  open_ : st.sw.counts.open_ = sent "OPEN".toList st.packets

/-- A line hits a rule for a neighbour that has left. -/
def HitsClosed (cfg : SwitchConfig) (s : SwitchState) : Action → Prop
  | .traffic now ms => ∃ port ∈ hitPort cfg s now ms, port ∈ s.closed
  | _ => False

instance (cfg : SwitchConfig) (s : SwitchState) : (a : Action) → Decidable (HitsClosed cfg s a)
  | .traffic .. => inferInstanceAs (Decidable (∃ port ∈ _, _))
  | .receive .. | .hangUp _ => inferInstanceAs (Decidable False)

section Steps

variable {cfg : SwitchConfig} {s : SwitchState}

/-- The step counts the packets that it writes, and a hit for a closed port. -/
def CountsRight (cfg : SwitchConfig) (s : SwitchState) (a : Action)
    (r : SwitchState × List Write) : Prop :=
  r.1.counts.relayOut = s.counts.relayOut + sent "RELAY".toList (r.2.map Write.packet) +
      (if HitsClosed cfg s a then 1 else 0) ∧
    r.1.counts.query = s.counts.query + sent "QUERY".toList (r.2.map Write.packet) ∧
    r.1.counts.open_ = s.counts.open_ + sent "OPEN".toList (r.2.map Write.packet)

theorem countsRight_move {a : Action} {r : SwitchState × List Write} (hmove : Move cfg s a r) :
    CountsRight cfg s a r := by
  cases hmove with
  | quiet now ms s' hs hheader =>
    have hhits : ¬ HitsClosed cfg s (.traffic now ms) := by
      simp [HitsClosed, hitPort, hheader]
    simp [CountsRight, hhits, hs.counts]
  | hit now ms srcIp destIp s' rule flowTable hs hheader hmatch =>
    have hclosed : s'.countAdmit.closed = s.closed := control_closed hs.control
    have hhits : HitsClosed cfg s (.traffic now ms) ↔
        (rule.actionType = .FORWARD ∧ rule.actionVal ≠ 3) ∧ rule.actionVal ∈ s.closed := by
      simp only [HitsClosed, hitPort_eq hheader hmatch]
      split_ifs with hport <;> simp [hport]
    have hcounts : s'.countAdmit.counts = { s.counts with admit_ := s.counts.admit_ + 1 } := by
      simp only [countAdmit, hs.counts]
    unfold CountsRight
    rw [useRule_counts, useRule_relays, hclosed]
    by_cases hport : rule.actionType = .FORWARD ∧ rule.actionVal ≠ 3
    · by_cases hleft : rule.actionVal ∈ s.closed
      · simp [hhits, hport, hleft, countRelayOut, hcounts]
      · simp [hhits, hport, hleft, countRelayOut, hcounts, Packet.type]
    · have hnone : ¬ (rule.actionType = .FORWARD ∧ rule.actionVal ≠ 3 ∧
          rule.actionVal ∉ s.closed) := fun h => hport ⟨h.1, h.2.1⟩
      simp [hhits, hport, hnone, hcounts]
  | miss now ms srcIp destIp s' hs hheader hmatch =>
    have hhits : ¬ HitsClosed cfg s (.traffic now ms) := by
      have hnone : s.flowTable.find? (fun rule => rule.covers destIp) = none := by
        simpa using matchRule_eq_none hmatch
      simp [HitsClosed, hitPort, hheader, hnone]
    simp [CountsRight, hhits, sendQuery, countAdmit, hs.counts, Packet.type]
  | ack hrange hopen => simp [CountsRight, HitsClosed, handleAck]
  | drop ip srcIp hrange => simp [CountsRight, HitsClosed, pushRule]
  | forward ipLow ipHigh port srcIp hrange hport hopen =>
    have hwrites := handleForward_relays (s := { s with addReceived := true }) cfg hopen
      ipLow ipHigh port srcIp
    unfold CountsRight
    rw [handleForward_counts, hwrites]
    simp [HitsClosed, Packet.type]
  | relay i srcIp destIp hrange hi hopen =>
    have hwrites := (handleRelay_out cfg hopen hrange).1
    have hsent : ∀ type, sent type ((s.handleRelay cfg i srcIp destIp).2.map Write.packet) =
        if Packet.type (.RELAY srcIp destIp) = type then
          ((s.handleRelay cfg i srcIp destIp).2.length : ℤ) else 0 := by
      intro type
      rw [hwrites]
      cases outPort cfg s (.receive i ⟨.RELAY srcIp destIp, hrange⟩) with
      | none => simp
      | some port => simp
    unfold CountsRight
    rw [hsent, hsent, hsent, handleRelay_counts]
    simp [HitsClosed, Packet.type]
  | hangUp i hi hopen => simp [CountsRight, HitsClosed]

end Steps

section Runs

variable {cfg : SwitchConfig} {lines : List Text} {st : State} {tr : List (State × Action)}

/-- The counters are the packets written, and for `relayOut` also the hits on rules for
    neighbours that have left. -/
theorem counts_of_run (h : (system cfg lines).Run (init cfg lines) tr st) :
    st.sw.counts.relayOut = sent "RELAY".toList st.packets +
        (tr.countP fun p => HitsClosed cfg p.1.sw p.2 : ℕ) ∧
      st.sw.counts.query = sent "QUERY".toList st.packets ∧
      st.sw.counts.open_ = sent "OPEN".toList st.packets := by
  induction h with
  | nil => exact ⟨rfl, rfl, rfl⟩
  | snoc _ hstep ih =>
    obtain ⟨hrelay, hquery, hopen⟩ := ih
    obtain ⟨r, hmove, -, -, rfl⟩ := move_of_step hstep
    obtain ⟨hrelay', hquery', hopen'⟩ := countsRight_move hmove
    rw [countP_snoc]
    simp only [State.packets, State.after, List.map_append, sent_append] at *
    refine ⟨?_, ?_, ?_⟩
    · rw [hrelay', hrelay]
      omega
    · rw [hquery', hquery]
    · rw [hopen', hopen]

end Runs

end SwitchLoop

/-! ## The controller -/

namespace ControllerLoop

open ControllerState Reconnect

/-- The packets the controller has written. -/
def State.packets (st : State) : List Packet := st.written.map Prod.snd

/-- The transmitted counters are the numbers of packets written. -/
structure Truthful (st : State) : Prop where
  ack : st.ctrl.counts.ack = sent "ACK".toList st.packets
  add : st.ctrl.counts.add = sent "ADD".toList st.packets

/-- The type of the packet that answers a string: an ACK for an OPEN, an ADD for a QUERY
    with two addresses of the network. -/
def due (packetString : Text) : Option Text :=
  let (packetType, packetMessage) := parsePacketString packetString
  if packetType = "OPEN".toList then some "ACK".toList
  else if packetType = "QUERY".toList ∧ (∃ srcIp ∈ packetMessage[0]?, IsIp srcIp) ∧
      (∃ destIp ∈ packetMessage[1]?, IsIp destIp) then some "ADD".toList
  else none

/-- A string that is to be answered is handled in a closed slot. -/
def AnswersClosed (st : State) : Action → Prop
  | .receive i packetString => i ∈ st.ctrl.closed ∧ (due packetString).isSome
  | _ => False

instance (st : State) : (a : Action) → Decidable (AnswersClosed st a)
  | .receive .. => inferInstanceAs (Decidable (_ ∧ _))
  | .accept _ | .hangUp _ => inferInstanceAs (Decidable False)

/-- The answer of type `type` is counted, though the slot is closed. -/
def Miscounts (type : Text) (st : State) : Action → Prop
  | .receive i packetString => i ∈ st.ctrl.closed ∧ due packetString = some type
  | _ => False

instance (type : Text) (st : State) : (a : Action) → Decidable (Miscounts type st a)
  | .receive .. => inferInstanceAs (Decidable (_ ∧ _))
  | .accept _ | .hangUp _ => inferInstanceAs (Decidable False)

section Steps

variable {c : ControllerState ℕ} {i : ℤ}

theorem answer_type (table : List SwitchInfo) (i srcIp destIp : ℤ) :
    (answer table i srcIp destIp).type = "ADD".toList := by
  unfold answer
  split <;> rfl

/-- A QUERY for two addresses of the network is counted and, in a slot that is not closed,
    answered. -/
theorem handleQuery_counts (srcIp destIp : ℤ) :
    (c.handleQuery i srcIp destIp).1.counts.ack = c.counts.ack ∧
    (c.handleQuery i srcIp destIp).1.counts.add =
      c.counts.add + (if IsIp srcIp ∧ IsIp destIp then 1 else 0) ∧
    (c.handleQuery i srcIp destIp).2.map (fun w => w.2.type) =
      if i ∈ c.closed then [] else if IsIp srcIp ∧ IsIp destIp then ["ADD".toList] else [] := by
  unfold handleQuery sendUnlessClosed
  by_cases hips : IsIp srcIp ∧ IsIp destIp
  · have hips' := hips
    unfold IsIp at hips'
    rw [if_neg (by omega), if_neg (by omega)]
    by_cases hclosed : i ∈ c.closed
    · simp [hips, hclosed]
    · simp [hips, hclosed, indexFd, answer_type]
  · simp only [hips, if_false, ite_self]
    unfold IsIp at hips
    split_ifs
    · simp
    · simp
    · omega
    · omega

/-- A string counts its answer, and has it written in a slot that is not closed. -/
theorem handleText_due {packetString : Text} {r : ControllerState ℕ × List (ℕ × Packet)}
    (h : c.handleText i packetString = some r) :
    r.1.counts.ack = c.counts.ack + (if due packetString = some "ACK".toList then 1 else 0) ∧
    r.1.counts.add = c.counts.add + (if due packetString = some "ADD".toList then 1 else 0) ∧
    r.2.map (fun w => w.2.type) =
      if i ∈ c.closed then [] else (due packetString).toList := by
  rcases handleText_cases h with ⟨info, hopen, rfl⟩ |
    ⟨srcIp, destIp, hquery, hsrc, hdest, rfl⟩ | ⟨hopen, hquery, rfl⟩
  · have hdue : due packetString = some "ACK".toList := by
      simp [due, hopen]
    rw [hdue]
    refine ⟨rfl, ?_, ?_⟩
    · simp [handleOpen]
    · unfold handleOpen sendUnlessClosed
      split_ifs <;> rfl
  · have hdue : due packetString =
        if IsIp srcIp ∧ IsIp destIp then some "ADD".toList else none := by
      simp [due, hquery, hsrc, hdest]
    obtain ⟨hack, hadd, hwrites⟩ := handleQuery_counts (c := c) (i := i) srcIp destIp
    rw [hdue, hack, hadd, hwrites]
    by_cases hips : IsIp srcIp ∧ IsIp destIp
    · simp [hips]
    · simp [hips]
  · have hdue : due packetString = none := by
      simp only [due, hopen, hquery, false_and, if_false]
    simp [hdue]

/-- Every move counts the packets that it writes, and what a closed slot was due. -/
theorem counts_move {st st' : State} {a : Action} (hmove : Move st a st') :
    st'.ctrl.counts.ack + sent "ACK".toList st.packets =
        st.ctrl.counts.ack + sent "ACK".toList st'.packets +
          (if Miscounts "ACK".toList st a then 1 else 0) ∧
      st'.ctrl.counts.add + sent "ADD".toList st.packets =
        st.ctrl.counts.add + sent "ADD".toList st'.packets +
          (if Miscounts "ADD".toList st a then 1 else 0) := by
  cases hmove with
  | accept fd hlistener hfd =>
    simp [Miscounts, State.accept, ControllerState.accept, State.packets]
  | hangUp i fd hi hfd hopen => simp [Miscounts, State.close, State.packets]
  | receive i packetString r hi hr =>
    obtain ⟨hack, hadd, hwrites⟩ := handleText_due hr
    have hsent : ∀ type, sent type (st.after r).packets = sent type st.packets +
        (if i ∉ st.ctrl.closed ∧ due packetString = some type then 1 else 0) := by
      intro type
      have hnew : sent type (r.2.map Prod.snd) =
          ((r.2.map fun w => w.2.type).countP fun t => t = type : ℕ) := by
        simp [sent, List.countP_map, Function.comp_def]
      simp only [State.packets, State.after, List.map_append, sent_append]
      rw [hnew, hwrites]
      by_cases hclosed : i ∈ st.ctrl.closed
      · simp [hclosed]
      · cases hdue : due packetString with
        | none => simp [hclosed]
        | some type' => simp [hclosed, List.countP_singleton]
    rw [hsent, hsent]
    simp only [State.after, hack, hadd, Miscounts]
    by_cases hclosed : i ∈ st.ctrl.closed
    · simp only [hclosed, true_and, not_true, false_and, if_false]
      omega
    · simp only [hclosed, false_and, not_false_eq_true, true_and, if_false]
      omega

end Steps

section Runs

variable {numSwitches : ℕ} {st : State} {tr : List (State × Action)}

/-- The counters are the packets written and the answers that closed slots were due. -/
theorem counts_of_run (h : (system numSwitches).Run (init numSwitches) tr st) :
    st.ctrl.counts.ack = sent "ACK".toList st.packets +
        (tr.countP fun p => Miscounts "ACK".toList p.1 p.2 : ℕ) ∧
      st.ctrl.counts.add = sent "ADD".toList st.packets +
        (tr.countP fun p => Miscounts "ADD".toList p.1 p.2 : ℕ) := by
  induction h with
  | nil => exact ⟨rfl, rfl⟩
  | snoc _ hstep ih =>
    obtain ⟨hack, hadd⟩ := ih
    obtain ⟨hack', hadd'⟩ := counts_move (move_of_step hstep)
    rw [countP_snoc, countP_snoc]
    dsimp only
    constructor
    · omega
    · omega

/-- No answer is miscounted if and only if none is due in a closed slot. -/
theorem answersClosed_iff (st : State) (a : Action) :
    AnswersClosed st a ↔ Miscounts "ACK".toList st a ∨ Miscounts "ADD".toList st a := by
  cases a with
  | receive i packetString =>
    have hdue : (due packetString).isSome ↔ due packetString = some "ACK".toList ∨
        due packetString = some "ADD".toList := by
      unfold due
      dsimp only
      split_ifs <;> simp
    simp only [AnswersClosed, Miscounts, hdue, and_or_left]
  | accept fd => simp [AnswersClosed, Miscounts]
  | hangUp i => simp [AnswersClosed, Miscounts]

end Runs

end ControllerLoop

/-! ## Both -/

/-- A switch's counters tell the truth unless a line has hit a rule for a neighbour that has
    left; the controller's, unless an answer was due in a closed slot. -/
theorem truthful_iff {cfg : SwitchConfig} {lines : List Text} {sw : SwitchLoop.State}
    {swSteps : List (SwitchLoop.State × SwitchLoop.Action)} {numSwitches : ℕ}
    {ctrl : ControllerLoop.State} {ctrlSteps : List (ControllerLoop.State × ControllerLoop.Action)}
    (hsw : (SwitchLoop.system cfg lines).Run (SwitchLoop.init cfg lines) swSteps sw)
    (hctrl : (ControllerLoop.system numSwitches).Run (ControllerLoop.init numSwitches) ctrlSteps
      ctrl) :
    (SwitchLoop.Truthful sw ↔ ∀ p ∈ swSteps, ¬ SwitchLoop.HitsClosed cfg p.1.sw p.2) ∧
    (ControllerLoop.Truthful ctrl ↔
      ∀ p ∈ ctrlSteps, ¬ ControllerLoop.AnswersClosed p.1 p.2) := by
  constructor
  · obtain ⟨hrelay, hquery, hopen⟩ := SwitchLoop.counts_of_run hsw
    rw [← eq_add_countP_iff hrelay]
    constructor
    · exact fun htruthful => htruthful.relayOut
    · exact fun hout => ⟨hout, hquery, hopen⟩
  · obtain ⟨hack, hadd⟩ := ControllerLoop.counts_of_run hctrl
    simp only [ControllerLoop.answersClosed_iff, not_or, forall_and]
    rw [← eq_add_countP_iff hack, ← eq_add_countP_iff hadd]
    constructor
    · exact fun htruthful => ⟨htruthful.ack, htruthful.add⟩
    · exact fun hboth => ⟨hboth.1, hboth.2⟩

/-- Switch 1 relays a packet to switch 2, which leaves; another packet hits the rule. -/
def hitAfterLeaving : List SwitchLoop.Action :=
  [.receive socketIdx SwitchLoop.ackPacket, .traffic 0 0,
    .receive socketIdx SwitchLoop.addPacket, .hangUp 2, .traffic 0 0]

/-- A switch leaves; the OPEN of another one, with the same descriptor, is found in both
    slots. -/
def openInClosedSlot : List ControllerLoop.Action :=
  [.accept 4, .receive 1 (SwitchState.openPacket ex2Switch1).text, .hangUp 1, .accept 4,
    .receive 1 (SwitchState.openPacket ex2Switch2).text]

def twoLines : List Text := ["sw1 100 200".toList, "sw1 100 205".toList]

theorem exec_hitAfterLeaving : ∃ st,
    (SwitchLoop.system ex2Switch1 twoLines).exec (SwitchLoop.init ex2Switch1 twoLines)
      hitAfterLeaving = some st ∧
    st.sw.counts.relayOut = 2 ∧ sent "RELAY".toList st.packets = 1 := by
  have hrun : ((SwitchLoop.system ex2Switch1 twoLines).exec
      (SwitchLoop.init ex2Switch1 twoLines) hitAfterLeaving).map (fun st => decide
        (st.sw.counts.relayOut = 2 ∧ sent "RELAY".toList st.packets = 1)) = some true := by
    decide +kernel
  exact System.exists_of_exec hrun

theorem exec_openInClosedSlot : ∃ st,
    (ControllerLoop.system 2).exec (ControllerLoop.init 2) openInClosedSlot = some st ∧
    st.ctrl.counts.ack = 2 ∧ sent "ACK".toList st.packets = 1 := by
  have hrun : ((ControllerLoop.system 2).exec (ControllerLoop.init 2) openInClosedSlot).map
      (fun st => decide (st.ctrl.counts.ack = 2 ∧ sent "ACK".toList st.packets = 1)) =
        some true := by
    decide +kernel
  exact System.exists_of_exec hrun

/-- Two RELAYs counted for one, and two ACKs. -/
theorem truthful_counterexample :
    (∃ st, (SwitchLoop.system ex2Switch1 twoLines).Reachable st ∧
      st.sw.counts.relayOut = 2 ∧ sent "RELAY".toList st.packets = 1 ∧
      ¬ SwitchLoop.Truthful st) ∧
    ∃ st, (ControllerLoop.system 2).Reachable st ∧
      st.ctrl.counts.ack = 2 ∧ sent "ACK".toList st.packets = 1 ∧
      ¬ ControllerLoop.Truthful st := by
  constructor
  · obtain ⟨st, hexec, hcount, hsent⟩ := exec_hitAfterLeaving
    refine ⟨st, .of_exec rfl hexec, hcount, hsent, ?_⟩
    intro htruthful
    have := htruthful.relayOut
    omega
  · obtain ⟨st, hexec, hcount, hsent⟩ := exec_openInClosedSlot
    refine ⟨st, .of_exec rfl hexec, hcount, hsent, ?_⟩
    intro htruthful
    have := htruthful.ack
    omega

/-- Switch 1 relays two packets to switch 2. -/
def hitBeforeLeaving : List SwitchLoop.Action :=
  [.receive socketIdx SwitchLoop.ackPacket, .traffic 0 0,
    .receive socketIdx SwitchLoop.addPacket, .traffic 0 0, .hangUp 2]

/-- Two switches open, ask, and leave. -/
def openAndAsk : List ControllerLoop.Action :=
  [.accept 4, .receive 1 (SwitchState.openPacket ex2Switch1).text, .accept 5,
    .receive 2 (SwitchState.openPacket ex2Switch2).text, .receive 1 (Packet.QUERY 100 200).text,
    .receive 2 (Packet.QUERY 200 300).text, .hangUp 1, .hangUp 2]

/-- All counters tell the truth, and neither condition is violated. -/
theorem truthful_iff_openAndAsk : ∃ sw ctrl,
    (SwitchLoop.system ex2Switch1 twoLines).exec (SwitchLoop.init ex2Switch1 twoLines)
        hitBeforeLeaving = some sw ∧
    (ControllerLoop.system 2).exec (ControllerLoop.init 2) openAndAsk = some ctrl ∧
    (SwitchLoop.Truthful sw ∧ ∀ p ∈ (SwitchLoop.system ex2Switch1 twoLines).trace
      (SwitchLoop.init ex2Switch1 twoLines) hitBeforeLeaving,
        ¬ SwitchLoop.HitsClosed ex2Switch1 p.1.sw p.2) ∧
    ControllerLoop.Truthful ctrl ∧ ∀ p ∈ (ControllerLoop.system 2).trace
      (ControllerLoop.init 2) openAndAsk, ¬ ControllerLoop.AnswersClosed p.1 p.2 := by
  have hrelays : ((SwitchLoop.system ex2Switch1 twoLines).exec
      (SwitchLoop.init ex2Switch1 twoLines) hitBeforeLeaving).map (fun st => decide
        (st.sw.counts.relayOut = sent "RELAY".toList st.packets ∧
          st.sw.counts.query = sent "QUERY".toList st.packets ∧
          st.sw.counts.open_ = sent "OPEN".toList st.packets)) = some true := by
    decide +kernel
  have hanswers : ((ControllerLoop.system 2).exec (ControllerLoop.init 2) openAndAsk).map
      (fun st => decide (st.ctrl.counts.ack = sent "ACK".toList st.packets ∧
        st.ctrl.counts.add = sent "ADD".toList st.packets)) = some true := by
    decide +kernel
  obtain ⟨sw, hsw, hrelay, hquery, hopen⟩ := System.exists_of_exec hrelays
  obtain ⟨ctrl, hctrl, hack, hadd⟩ := System.exists_of_exec hanswers
  obtain ⟨hswitch, hcontroller⟩ := truthful_iff (.of_exec hsw) (.of_exec hctrl)
  exact ⟨sw, ctrl, hsw, hctrl, ⟨⟨hrelay, hquery, hopen⟩, hswitch.mp ⟨hrelay, hquery, hopen⟩⟩,
    ⟨hack, hadd⟩, hcontroller.mp ⟨hack, hadd⟩⟩

end Cmput379.Sdn
