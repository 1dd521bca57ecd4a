import Cmput379.Sdn.Network
import Cmput379.Sdn.Effects

/-!
# What a step of the network can do

`WellFormed` is the invariant every other result about the network rests on:
where each connection is in its exchange with the controller (`Phase`), which
slot and which descriptor it has, and what the FIFOs hold. `Transition` lists
the steps of a well-formed state with the packets read made explicit;
`transition_of_step` shows that there are no others.
-/

namespace Cmput379.Sdn

open Cmput379.Lib

variable {n : ℕ} {N : Network n}

/-! ## Phases of a connection -/

/-- The two flags and the two counters that belong to the exchange. -/
structure Flags (s : SwitchState) (ackReceived addReceived : Bool) (pending : ℤ) : Prop where
  ack : s.ackReceived = ackReceived
  add : s.addReceived = addReceived
  counts : s.counts.query = s.counts.add + pending

/-- An answer to a QUERY for `destIp`: the range of its owner with a relay port,
    or a DROP for the address. -/
inductive IsAnswer (N : Network n) (srcIp destIp : ℤ) : Packet → Prop
  | forward (t : Fin n) (port : ℤ) (ht : N.Owns t destIp) (hport : port = 1 ∨ port = 2) :
      IsAnswer N srcIp destIp (.ADD 1 (N.cfg t).ipLow (N.cfg t).ipHigh port srcIp)
  | drop : IsAnswer N srcIp destIp (.ADD 0 destIp destIp 0 srcIp)

/-- Where switch `k` is in its exchange with the controller, and the packets on
    its socket. -/
inductive Phase (N : Network n) (net : NetState n) (k : Fin n) : Prop
  | fresh (started : net.started k = false) (sw : net.sw k = .init (N.cfg k) (N.file k))
      (up : net.up k = []) (down : net.down k = [])
  | opening (started : net.started k = true) (flags : Flags (net.sw k) false true 0)
      (up : net.up k = [⟨none, SwitchState.openPacket (N.cfg k)⟩]) (down : net.down k = [])
  | acking (started : net.started k = true) (flags : Flags (net.sw k) false true 0)
      (up : net.up k = []) (down : net.down k = [⟨none, .ACK⟩])
  | idle (started : net.started k = true) (flags : Flags (net.sw k) true true 0)
      (up : net.up k = []) (down : net.down k = [])
  | querying (started : net.started k = true) (flags : Flags (net.sw k) true false 1) (c : ℕ)
      (srcIp destIp : ℤ) (hsrc : IsIp srcIp) (hdest : IsIp destIp)
      (up : net.up k = [⟨some c, .QUERY srcIp destIp⟩]) (down : net.down k = [])
  | adding (started : net.started k = true) (flags : Flags (net.sw k) true false 1) (c : ℕ)
      (srcIp destIp : ℤ) (answer : Packet) (hsrc : IsIp srcIp) (hdest : IsIp destIp)
      (hanswer : IsAnswer N srcIp destIp answer)
      (up : net.up k = []) (down : net.down k = [⟨some c, answer⟩])

/-- The controller has handled the OPEN of switch `k`. -/
def Opened (net : NetState n) (k : Fin n) : Prop :=
  net.started k = true ∧ ∀ m ∈ net.up k, ∃ srcIp destIp, m.packet = .QUERY srcIp destIp

/-- Slots, descriptors and connections not yet accepted. -/
structure SlotsOk (N : Network n) (net : NetState n) : Prop where
  inj : ∀ i j k, net.ctrl.pfds i = some (.switch k) → net.ctrl.pfds j = some (.switch k) → i = j
  range : ∀ i k, net.ctrl.pfds i = some (.switch k) → 1 ≤ i ∧ i < net.ctrl.socketIdx
  started : ∀ i k, net.ctrl.pfds i = some (.switch k) → net.started k = true
  backlog : ∀ k ∈ net.backlog, net.started k = true ∧ ¬ Opened net k ∧
    ∀ i, net.ctrl.pfds i ≠ some (.switch k)
  nodup : net.backlog.Nodup
  fd : ∀ i fd, net.ctrl.idToFd i = some fd →
    net.ctrl.pfds i = some fd ∧ i < net.ctrl.socketIdx
  opened : ∀ i k, net.ctrl.pfds i = some (.switch k) → Opened net k →
    net.ctrl.idToFd i = some (.switch k)
  idx : 1 ≤ net.ctrl.socketIdx
  placed : ∀ k, net.started k = true → k ∈ net.backlog ∨ ∃ i, net.ctrl.pfds i = some (.switch k)
  filled : ∀ i, 1 ≤ i → i < net.ctrl.socketIdx → ∃ k, net.ctrl.pfds i = some (.switch k)

/-- The local variables of switch `k` that the exchange does not touch. -/
structure SwitchOk (cfg : SwitchConfig) (s : SwitchState) : Prop where
  closed : s.closed = []
  portToId : s.portToId = (SwitchState.init cfg []).portToId
  fd0 : s.portToFd 0 = some .controller
  fd : ∀ port fd, port ≠ 0 → s.portToFd port = some fd →
    fd = .stdin ∨ fd = .fifo (makeFifoName cfg.id (s.portToId port))
  rules : ∀ rule ∈ s.flowTable, rule.actionType = .FORWARD →
    rule.actionVal = 1 ∨ rule.actionVal = 2 ∨ rule.actionVal = 3

/-- The invariant of the network. -/
structure WellFormed (N : Network n) (net : NetState n) : Prop where
  closed : net.ctrl.closed = []
  numSwitches : net.ctrl.numSwitches = n
  table : ∀ info ∈ net.ctrl.switchInfoTable, ∃ t, info = N.info t
  registered : ∀ k, Opened net k → N.info k ∈ net.ctrl.switchInfoTable
  slots : SlotsOk N net
  phase : ∀ k, Phase N net k
  switch : ∀ k, SwitchOk (N.cfg k) (net.sw k)
  fifo : ∀ name, ∀ m ∈ net.fifo name, ∃ srcIp destIp,
    m.packet = .RELAY srcIp destIp ∧ IsIp srcIp ∧ IsIp destIp

/-! ## Steps with the packets read made explicit -/

/-- The steps of a well-formed state. In `hit` and `miss`, `s` is the state of
    the switch after the line has been read. -/
inductive Transition (N : Network n) (net : NetState n) : Action n → NetState n → Prop
  | start (k : Fin n) (hk : net.started k = false) : Transition N net (.start k) (net.start N k)
  | accept (k : Fin n) (rest : List (Fin n)) (hk : net.backlog = k :: rest) :
      Transition N net .accept
        { net with ctrl := net.ctrl.accept (.switch k), backlog := rest }
  | quiet (k : Fin n) (now ms : ℤ) (s : SwitchState) (hs : SwitchState.Quiet (net.sw k) s)
      (hheader : (net.sw k).nextHeader (N.cfg k) now ms = none) (hk : net.started k = true) :
      Transition N net (.traffic k now ms) (net.moveSwitch k none (s, []))
  | hit (k : Fin n) (now ms srcIp destIp : ℤ) (s : SwitchState) (rule : FlowRule)
      (flowTable : List FlowRule) (hs : SwitchState.Quiet (net.sw k) s)
      (hheader : (net.sw k).nextHeader (N.cfg k) now ms = some (srcIp, destIp))
      (hack : (net.sw k).ackReceived = true) (hadd : (net.sw k).addReceived = true)
      (hsrc : IsIp srcIp) (hdest : IsIp destIp)
      (hmatch : SwitchState.matchRule destIp (net.sw k).flowTable = some (rule, flowTable)) :
      Transition N net (.traffic k now ms)
        (net.admitLine k srcIp destIp (s.countAdmit.useRule (N.cfg k) rule flowTable srcIp destIp))
  | miss (k : Fin n) (now ms srcIp destIp : ℤ) (s : SwitchState)
      (hs : SwitchState.Quiet (net.sw k) s)
      (hheader : (net.sw k).nextHeader (N.cfg k) now ms = some (srcIp, destIp))
      (hack : (net.sw k).ackReceived = true) (hadd : (net.sw k).addReceived = true)
      (hsrc : IsIp srcIp) (hdest : IsIp destIp)
      (hmatch : SwitchState.matchRule destIp (net.sw k).flowTable = none) :
      Transition N net (.traffic k now ms)
        (net.admitLine k srcIp destIp (s.countAdmit.sendQuery srcIp destIp))
  | opened (i : ℤ) (k : Fin n) (hfd : net.ctrl.pfds i = some (.switch k))
      (hup : net.up k = [⟨none, SwitchState.openPacket (N.cfg k)⟩]) :
      Transition N net (.toController i)
        (net.serve i k ⟨none, SwitchState.openPacket (N.cfg k)⟩ []
          (net.ctrl.handleOpen i (N.info k)))
  | queried (i : ℤ) (k : Fin n) (c : ℕ) (srcIp destIp : ℤ)
      (hfd : net.ctrl.pfds i = some (.switch k)) (hsrc : IsIp srcIp) (hdest : IsIp destIp)
      (hup : net.up k = [⟨some c, .QUERY srcIp destIp⟩]) :
      Transition N net (.toController i)
        (net.serve i k ⟨some c, .QUERY srcIp destIp⟩ [] (net.ctrl.handleQuery i srcIp destIp))
  | acked (k : Fin n) (hdown : net.down k = [⟨none, .ACK⟩]) :
      Transition N net (.fromController k)
        (net.receiveDown k ⟨none, .ACK⟩ [] ((net.sw k).handleAck, []))
  | dropped (k : Fin n) (c : ℕ) (srcIp destIp : ℤ) (hsrc : IsIp srcIp) (hdest : IsIp destIp)
      (hdown : net.down k = [⟨some c, .ADD 0 destIp destIp 0 srcIp⟩]) :
      Transition N net (.fromController k)
        (net.receiveDown k ⟨some c, .ADD 0 destIp destIp 0 srcIp⟩ []
          (({ net.sw k with addReceived := true } : SwitchState).pushRule
            (SwitchState.addedRule destIp destIp .DROP 0), []))
  | forwarded (k t : Fin n) (c : ℕ) (srcIp destIp port : ℤ) (hsrc : IsIp srcIp)
      (hdest : IsIp destIp) (ht : N.Owns t destIp) (hport : port = 1 ∨ port = 2)
      (hdown : net.down k =
        [⟨some c, .ADD 1 (N.cfg t).ipLow (N.cfg t).ipHigh port srcIp⟩]) :
      Transition N net (.fromController k)
        (net.receiveDown k ⟨some c, .ADD 1 (N.cfg t).ipLow (N.cfg t).ipHigh port srcIp⟩ []
          (({ net.sw k with addReceived := true } : SwitchState).handleForward (N.cfg k) socketIdx
            (N.cfg t).ipLow (N.cfg t).ipHigh port srcIp))
  | relayed (k : Fin n) (port : ℤ) (name : Text) (c : Option ℕ) (srcIp destIp : ℤ)
      (rest : List Msg) (hk : net.started k = true) (hname : readFifo (N.cfg k) port = some name)
      (hsrc : IsIp srcIp) (hdest : IsIp destIp)
      (hfifo : net.fifo name = ⟨c, .RELAY srcIp destIp⟩ :: rest) :
      Transition N net (.fromFifo k port)
        (net.receiveFifo k port name ⟨c, .RELAY srcIp destIp⟩ rest
          ((net.sw k).handleRelay (N.cfg k) port srcIp destIp))

/-! ### A turn of part 1 -/

open SwitchState in
/-- A turn without an admitted packet changes nothing but the reading position
    and the delay; a packet is only admitted when no answer is outstanding. -/
theorem trafficTurn_cases {cfg : SwitchConfig} {now ms : ℤ} {s : SwitchState} {turn : Turn}
    (h : s.trafficTurn cfg now ms = some turn) :
    (turn.header = none ∧ turn.writes = [] ∧ Quiet s turn.state) ∨
    (∃ srcIp destIp s', turn.header = some (srcIp, destIp) ∧ Quiet s s' ∧
      s.ackReceived = true ∧ s.addReceived = true ∧ IsIp srcIp ∧ IsIp destIp ∧
      (turn.state, turn.writes) = s'.admitPacket cfg srcIp destIp) := by
  unfold trafficTurn nextLine at h
  split_ifs at h with hgate hopen
  · obtain ⟨hack, hadd, -⟩ := hgate
    split at h
    · rename_i line lines hlines
      unfold handleLine at h
      simp only [Option.bind_eq_bind, Option.pure_def, Option.bind_eq_some_iff] at h
      obtain ⟨⟨type, content⟩, hparse, h⟩ := h
      cases type with
      | action =>
        obtain ⟨id, srcIp, destIp, rfl, hsrc, hdest⟩ := parseTrafficFileLine_action hparse
        simp only [List.getElem?_cons_zero, List.getElem?_cons_succ, Option.bind_some] at h
        split_ifs at h
        · cases h
          refine .inr ⟨srcIp, destIp, _, rfl, ?_, hack, hadd, hsrc, hdest, rfl⟩
          exact ⟨rfl, rfl, rfl, rfl⟩
        · cases h
          exact .inl ⟨rfl, rfl, ⟨rfl, rfl, rfl, rfl⟩⟩
      | delay =>
        obtain ⟨id, duration, rfl⟩ := (parseTrafficFileLine_content hparse).2 rfl
        simp only [List.getElem?_cons_zero, List.getElem?_cons_succ, Option.bind_some] at h
        split_ifs at h <;> cases h <;> exact .inl ⟨rfl, rfl, ⟨rfl, rfl, rfl, rfl⟩⟩
      | empty | comment | error =>
        cases h
        exact .inl ⟨rfl, rfl, ⟨rfl, rfl, rfl, rfl⟩⟩
    · cases h
      exact .inl ⟨rfl, rfl, ⟨rfl, rfl, rfl, rfl⟩⟩
  · cases h
    exact .inl ⟨rfl, rfl, ⟨rfl, rfl, rfl, rfl⟩⟩
  · cases h
    exact .inl ⟨rfl, rfl, Quiet.refl s⟩

/-! ### All steps -/

theorem openPacket_inRange (cfg : SwitchConfig) : (SwitchState.openPacket cfg).InRange := by
  simp [SwitchState.openPacket, Packet.InRange, Packet.msg, cfg.id_int, cfg.port1_int,
    cfg.port2_int, cfg.low_isIp.isInt, cfg.high_isIp.isInt]

theorem query_inRange {srcIp destIp : ℤ} (hs : IsIp srcIp) (hd : IsIp destIp) :
    (Packet.QUERY srcIp destIp).InRange := by
  simp [Packet.InRange, Packet.msg, hs.isInt, hd.isInt]

theorem relay_inRange {srcIp destIp : ℤ} (hs : IsIp srcIp) (hd : IsIp destIp) :
    (Packet.RELAY srcIp destIp).InRange := by
  simp [Packet.InRange, Packet.msg, hs.isInt, hd.isInt]

theorem IsAnswer.inRange {srcIp destIp : ℤ} {p : Packet} (h : IsAnswer N srcIp destIp p)
    (hs : IsIp srcIp) (hd : IsIp destIp) : p.InRange := by
  cases h with
  | forward t port ht hport =>
    have hlow := (N.cfg t).low_isIp.isInt
    have hhigh := (N.cfg t).high_isIp.isInt
    rcases hport with rfl | rfl <;>
      simp [Packet.InRange, Packet.msg, hs.isInt, hlow, hhigh] <;> decide
  | drop =>
    simp [Packet.InRange, Packet.msg, hs.isInt, hd.isInt]
    decide

theorem admitPacket_of_quiet {cfg : SwitchConfig} {s s' : SwitchState}
    (h : SwitchState.Quiet s s') (srcIp destIp : ℤ) :
    s'.admitPacket cfg srcIp destIp =
      match SwitchState.matchRule destIp s.flowTable with
      | some (rule, flowTable) => s'.countAdmit.useRule cfg rule flowTable srcIp destIp
      | none => s'.countAdmit.sendQuery srcIp destIp := by
  rw [SwitchState.admitPacket, ← h.flowTable]
  rfl

/-- Every step of a well-formed state is one of the transitions. -/
theorem transition_of_step {net net' : NetState n} {a : Action n} (hw : WellFormed N net)
    (h : N.step net a = some net') : Transition N net a net' := by
  cases a with
  | start k =>
    simp only [Network.step] at h
    split_ifs at h with hk
    cases h
    exact .start k (by simpa using hk)
  | accept =>
    simp only [Network.step] at h
    split at h
    · cases h
    · rename_i k rest hback
      cases h
      exact .accept k rest hback
  | traffic k now ms =>
    simp only [Network.step] at h
    split_ifs at h with hk
    obtain ⟨turn, hturn, rfl⟩ := Option.map_eq_some_iff.mp h
    rcases trafficTurn_cases hturn with ⟨hheader, hwrites, hquiet⟩ |
      ⟨srcIp, destIp, s', hheader, hquiet, hack, hadd, hsrc, hdest, hadmit⟩
    · have hnext : (net.sw k).nextHeader (N.cfg k) now ms = none := by
        rw [SwitchState.nextHeader, hturn]
        exact hheader
      rw [hheader, hwrites]
      exact .quiet k now ms _ hquiet hnext hk
    · have hnext : (net.sw k).nextHeader (N.cfg k) now ms = some (srcIp, destIp) := by
        rw [SwitchState.nextHeader, hturn]
        exact hheader
      cases hmatch : SwitchState.matchRule destIp (net.sw k).flowTable with
      | none =>
        rw [hheader, hadmit, admitPacket_of_quiet hquiet, hmatch]
        exact .miss k now ms srcIp destIp s' hquiet hnext hack hadd hsrc hdest hmatch
      | some found =>
        obtain ⟨rule, flowTable⟩ := found
        rw [hheader, hadmit, admitPacket_of_quiet hquiet, hmatch]
        exact .hit k now ms srcIp destIp s' rule flowTable hquiet hnext hack hadd hsrc hdest hmatch
  | toController i =>
    simp only [Network.step] at h
    split_ifs at h with hi
    split at h
    · rename_i k hfd
      split at h
      · cases h
      · rename_i m rest hup
        cases hw.phase k with
        | opening started flags up down =>
          rw [up] at hup
          cases hup
          rw [SwitchState.openPacket, ControllerState.handleText_OPEN _ _
            (openPacket_inRange (N.cfg k))] at h
          cases h
          exact .opened i k hfd up
        | querying started flags c srcIp destIp hsrc hdest up down =>
          rw [up] at hup
          cases hup
          rw [ControllerState.handleText_QUERY _ _ (query_inRange hsrc hdest)] at h
          cases h
          exact .queried i k c srcIp destIp hfd hsrc hdest up
        | fresh started sw up down => simp [up] at hup
        | acking started flags up down => simp [up] at hup
        | idle started flags up down => simp [up] at hup
        | adding started flags c srcIp destIp answer hsrc hdest hanswer up down =>
          simp [up] at hup
    · cases h
  | fromController k =>
    simp only [Network.step] at h
    split at h
    · cases h
    · rename_i m rest hdown
      cases hw.phase k with
      | acking started flags up down =>
        rw [down] at hdown
        cases hdown
        rw [SwitchState.handleText_ACK] at h
        cases h
        exact .acked k down
      | adding started flags c srcIp destIp answer hsrc hdest hanswer up down =>
        rw [down] at hdown
        cases hdown
        have hrange := hanswer.inRange hsrc hdest
        cases hanswer with
        | drop =>
          rw [SwitchState.handleText_ADD_drop _ _ _ hrange] at h
          cases h
          exact .dropped k c srcIp destIp hsrc hdest down
        | forward t port ht hport =>
          rw [SwitchState.handleText_ADD_forward _ _ _ hrange (by simp [(hw.switch k).closed])] at h
          cases h
          exact .forwarded k t c srcIp destIp port hsrc hdest ht hport down
      | fresh started sw up down => simp [down] at hdown
      | opening started flags up down => simp [down] at hdown
      | idle started flags up down => simp [down] at hdown
      | querying started flags c srcIp destIp hsrc hdest up down => simp [down] at hdown
  | fromFifo k port =>
    simp only [Network.step] at h
    split_ifs at h with hk
    split at h
    · cases h
    · rename_i name hname
      split at h
      · cases h
      · rename_i m rest hfifo
        obtain ⟨srcIp, destIp, hpacket, hsrc, hdest⟩ :=
          hw.fifo name m (by simp [hfifo])
        obtain ⟨c, packet⟩ := m
        subst hpacket
        rw [SwitchState.handleText_RELAY _ _ _ (relay_inRange hsrc hdest)] at h
        cases h
        exact .relayed k port name c srcIp destIp rest hk hname hsrc hdest hfifo

end Cmput379.Sdn
