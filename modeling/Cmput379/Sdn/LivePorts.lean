import Cmput379.Sdn.SwitchLoop

/-!
# The ports that RELAYs are sent to

A hit opens the FIFO of its port if need be and looks for that port in `closed`. The other
two paths leave something out: an ADD looks for the index it was read from instead of the
port, and a RELAY that is passed on does so too and opens nothing, so that `operator[]` may
insert descriptor 0.

* `Live`: the FIFO of the neighbour at a port, opened, and the neighbour has not left.
* `PortsOk`: all that is ever in `portToFd`, as long as nothing is inserted.
* `relaysLive_iff`: the runs in which every RELAY goes to a live port.
-/

namespace Cmput379.Sdn.SwitchLoop

open Cmput379.Lib SwitchState

/-! ## Live ports -/

/-- The outgoing port of the step, if it has one. -/
def outPort (cfg : SwitchConfig) (s : SwitchState) : Action → Option ℤ
  | .traffic now ms => hitPort cfg s now ms
  | .receive i ⟨.RELAY _ destIp, _⟩ =>
    if destIp < cfg.ipLow ∨ cfg.ipHigh < destIp then transitPort cfg i else none
  | .receive _ ⟨.ADD action _ _ port _, _⟩ => if action = 1 then some port else none
  | _ => none

/-- `fd` is the FIFO opened for the neighbour at `port`, which is not in `closed`; `s` is
    the state before the step, `s'` the state after it. -/
def Live (cfg : SwitchConfig) (s s' : SwitchState) (port : ℤ) (fd : Fd) : Prop :=
  (∃ id, neighbour cfg port = some id ∧ fd = .fifo (makeFifoName cfg.id id)) ∧
    s'.portToFd port = some fd ∧ port ∉ s.closed

/-- Every RELAY of the step is sent to the outgoing port, and that port is live. -/
def RelaysLive (cfg : SwitchConfig) (s : SwitchState) (a : Action) : Prop :=
  ∀ r, respond cfg s a = some r → ∀ w ∈ r.2, w.packet.type = "RELAY".toList →
    ∃ port, outPort cfg s a = some port ∧ Live cfg s r.1 port w.fd

/-- What the code does not look at: an ADD names a port that is not closed, and a RELAY is
    passed on to a port that is open and not closed. -/
def Ready (cfg : SwitchConfig) (s : SwitchState) : Action → Prop
  | .receive i ⟨.RELAY _ destIp, _⟩ => destIp < cfg.ipLow ∨ cfg.ipHigh < destIp →
    ∀ port ∈ transitPort cfg i, (s.portToFd port).isSome ∧ port ∉ s.closed
  | .receive _ ⟨.ADD action _ _ port _, _⟩ => action = 1 → port ∉ s.closed
  | _ => True

instance (cfg : SwitchConfig) (s : SwitchState) : (a : Action) → Decidable (Ready cfg s a)
  | .receive i ⟨.RELAY _ destIp, _⟩ =>
    inferInstanceAs (Decidable (destIp < cfg.ipLow ∨ cfg.ipHigh < destIp →
      ∀ port ∈ transitPort cfg i, (s.portToFd port).isSome ∧ port ∉ s.closed))
  | .receive _ ⟨.ADD action _ _ port _, _⟩ =>
    inferInstanceAs (Decidable (action = 1 → port ∉ s.closed))
  | .receive _ ⟨.ACK, _⟩ | .receive _ ⟨.OPEN .., _⟩ | .receive _ ⟨.QUERY .., _⟩ | .traffic ..
  | .hangUp _ => inferInstanceAs (Decidable True)

/-! ## The table of descriptors -/

/-- All descriptors but the controller's are FIFOs opened for the neighbour at their port,
    and every rule forwards to a neighbour's port or delivers. -/
structure PortsOk (cfg : SwitchConfig) (s : SwitchState) : Prop where
  portToId : s.portToId = (SwitchState.init cfg []).portToId
  fd : ∀ port fd, port ≠ 0 → s.portToFd port = some fd →
    ∃ id, neighbour cfg port = some id ∧ fd = .fifo (makeFifoName cfg.id id)
  rules : ∀ rule ∈ s.flowTable, rule.actionType = .FORWARD →
    rule.actionVal = 1 ∨ rule.actionVal = 2 ∨ rule.actionVal = 3

section Ports

variable {cfg : SwitchConfig} {s s' : SwitchState}

theorem portsOk_init (lines : List Text) : PortsOk cfg (.init cfg lines) where
  portToId := rfl
  fd := by
    intro port fd hport hfd
    simp [SwitchState.init, Function.update_of_ne hport] at hfd
  rules := by
    intro rule hrule _
    obtain rfl : rule = initialRule cfg := by simpa [SwitchState.init] using hrule
    exact .inr (.inr rfl)

/-- `portToId` knows the neighbours. -/
theorem portToId_of_neighbour {port id : ℤ} (h : neighbour cfg port = some id) :
    (SwitchState.init cfg []).portToId port = id := by
  unfold neighbour at h
  simp only [SwitchState.init]
  split_ifs at h ⊢ <;> simpa using h

theorem transitPort_ne_zero {i port : ℤ} (h : transitPort cfg i = some port) : port ≠ 0 := by
  unfold transitPort at h
  split_ifs at h <;> cases h <;> decide

/-- Only the table of descriptors, `portToId` and the rules but for their counts matter. -/
theorem PortsOk.congr (h : PortsOk cfg s) (hid : s'.portToId = s.portToId)
    (hfd : s'.portToFd = s.portToFd)
    (hrules : s'.flowTable.map forget = s.flowTable.map forget) : PortsOk cfg s' where
  portToId := hid.trans h.portToId
  fd := by
    rw [hfd]
    exact h.fd
  rules := by
    intro rule hrule hforward
    have hmem : forget rule ∈ s.flowTable.map forget := by
      rw [← hrules]
      exact List.mem_map_of_mem hrule
    obtain ⟨old, hold, heq⟩ := List.mem_map.mp hmem
    obtain ⟨htype, hval⟩ : old.actionType = rule.actionType ∧ old.actionVal = rule.actionVal := by
      simpa [forget] using And.intro (congrArg FlowRule.actionType heq)
        (congrArg FlowRule.actionVal heq)
    have := h.rules old hold (htype.trans hforward)
    rwa [hval] at this

/-- The descriptor of a neighbour's port, opened now or before. -/
theorem PortsOk.outFd_eq (h : PortsOk cfg s) {port : ℤ} (hport : port ≠ 0)
    (hopens : (s.portToFd port).isSome ∨ (neighbour cfg port).isSome) :
    ∃ id, neighbour cfg port = some id ∧ s.outFd cfg port = .fifo (makeFifoName cfg.id id) := by
  unfold outFd
  cases hfd : s.portToFd port with
  | some fd => exact h.fd port fd hport hfd
  | none =>
    obtain ⟨id, hid⟩ : ∃ id, neighbour cfg port = some id := by
      simpa [hfd, Option.isSome_iff_exists] using hopens
    refine ⟨id, hid, ?_⟩
    rw [h.portToId, portToId_of_neighbour hid]
    rfl

/-- Opening a neighbour's port. -/
theorem PortsOk.open (h : PortsOk cfg s) {port : ℤ} (hport : port ≠ 0)
    (hopens : (s.portToFd port).isSome ∨ (neighbour cfg port).isSome)
    (hid : s'.portToId = s.portToId)
    (hfd : s'.portToFd = Function.update s.portToFd port (some (s.outFd cfg port)))
    (hrules : ∀ rule ∈ s'.flowTable, rule.actionType = .FORWARD →
      rule.actionVal = 1 ∨ rule.actionVal = 2 ∨ rule.actionVal = 3) : PortsOk cfg s' where
  portToId := hid.trans h.portToId
  fd := by
    intro port' fd hport' hfd'
    rw [hfd] at hfd'
    by_cases heq : port' = port
    · subst heq
      obtain ⟨id, hneighbour, hout⟩ := h.outFd_eq hport hopens
      rw [Function.update_self, hout] at hfd'
      cases hfd'
      exact ⟨id, hneighbour, rfl⟩
    · rw [Function.update_of_ne heq] at hfd'
      exact h.fd port' fd hport' hfd'
  rules := hrules

end Ports

/-! ## What the handlers do with the table -/

section Handlers

variable {cfg : SwitchConfig} {s s' : SwitchState}

theorem outFd_congr (hfd : s'.portToFd = s.portToFd) (hid : s'.portToId = s.portToId) (port : ℤ) :
    s'.outFd cfg port = s.outFd cfg port := by
  unfold outFd
  rw [hfd, hid]

theorem control_portToId (h : s'.control = s.control) : s'.portToId = s.portToId := by
  simp only [SwitchState.control, Prod.mk.injEq] at h
  exact h.2.2.2.2.2

/-- The port of a hit is that of the rule that is found. -/
theorem hitPort_eq {now ms srcIp destIp : ℤ} {rule : FlowRule} {flowTable : List FlowRule}
    (hheader : s.nextHeader cfg now ms = some (srcIp, destIp))
    (hmatch : matchRule destIp s.flowTable = some (rule, flowTable)) :
    hitPort cfg s now ms =
      if rule.actionType = .FORWARD ∧ rule.actionVal ≠ 3 then some rule.actionVal else none := by
  unfold hitPort
  rw [hheader, Option.bind_some, (matchRule_eq_some hmatch).1, Option.bind_some]

/-- A RELAY is written to what `operator[]` finds at the outgoing port. -/
theorem handleRelay_out (cfg : SwitchConfig) {i : ℤ} (hi : i ∉ s.closed) {srcIp destIp : ℤ}
    (hrange : (Packet.RELAY srcIp destIp).InRange) :
    let out := outPort cfg s (.receive i ⟨.RELAY srcIp destIp, hrange⟩)
    (s.handleRelay cfg i srcIp destIp).2 =
        out.toList.map (fun port => ⟨s.fdAt port, .RELAY srcIp destIp⟩) ∧
      (s.handleRelay cfg i srcIp destIp).1.portToFd =
        out.elim s.portToFd fun port => (s.indexFd port).portToFd := by
  unfold handleRelay
  dsimp only [outPort, transitPort]
  rw [if_neg hi]
  split_ifs
  · exact ⟨rfl, rfl⟩
  · exact ⟨rfl, rfl⟩
  · exact ⟨rfl, rfl⟩
  · exact ⟨rfl, rfl⟩

/-- `operator[]` inserts nothing where there is a descriptor. -/
theorem indexFd_portToFd {port : ℤ} (h : (s.portToFd port).isSome) :
    s.portToFd port = some (s.fdAt port) ∧ (s.indexFd port).portToFd = s.portToFd := by
  obtain ⟨fd, hfd⟩ := Option.isSome_iff_exists.mp h
  have hat : s.portToFd port = some (s.fdAt port) := by
    unfold fdAt
    rw [hfd]
    rfl
  refine ⟨hat, ?_⟩
  show Function.update s.portToFd port (some (s.fdAt port)) = s.portToFd
  rw [← hat, Function.update_eq_self]

end Handlers

/-! ## One step -/

section Steps

variable {cfg : SwitchConfig} {s : SwitchState} {a : Action} {r : SwitchState × List Write}

/-- A ready step keeps the table in order. -/
theorem portsOk_move (h : PortsOk cfg s) (hmove : Move cfg s a r) (hopens : Opens cfg s a)
    (hready : Ready cfg s a) : PortsOk cfg r.1 := by
  cases hmove with
  | quiet now ms s' hs hheader =>
    apply h.congr (control_portToId hs.control) hs.portToFd
    rw [hs.flowTable]
  | hit now ms srcIp destIp s' rule flowTable hs hheader hmatch =>
    obtain ⟨hfind, hforget⟩ := matchRule_eq_some hmatch
    have hid : (s'.countAdmit.useRule cfg rule flowTable srcIp destIp).1.portToId =
        s.portToId :=
      (control_portToId (useRule_control ..)).trans (control_portToId hs.control)
    by_cases hport : rule.actionType = .FORWARD ∧ rule.actionVal ≠ 3
    · have hmem := h.rules rule (List.mem_of_find?_eq_some hfind) hport.1
      have hopens' := hopens rule.actionVal (by
        show hitPort cfg s now ms = some rule.actionVal
        rw [hitPort_eq hheader hmatch, if_pos hport])
      refine h.open (by omega) hopens' hid ?_ ?_
      · have hout : s'.countAdmit.outFd cfg rule.actionVal = s.outFd cfg rule.actionVal :=
          outFd_congr hs.portToFd (control_portToId hs.control) _
        rw [useRule_portToFd, if_pos hport, hout]
        show Function.update s'.portToFd _ _ = _
        rw [hs.portToFd]
      · rw [useRule_flowTable]
        have hcounted : PortsOk cfg { s with flowTable := flowTable } := h.congr rfl rfl hforget
        exact hcounted.rules
    · apply h.congr hid
      · rw [useRule_portToFd, if_neg hport]
        exact hs.portToFd
      · rw [useRule_flowTable]
        exact hforget
  | miss now ms srcIp destIp s' hs hheader hmatch =>
    have hid : s'.portToId = s.portToId := control_portToId hs.control
    refine h.congr ?_ ?_ ?_
    · exact hid
    · exact hs.portToFd
    · show s'.flowTable.map forget = _
      rw [hs.flowTable]
  | ack hrange hopen => exact h.congr rfl rfl rfl
  | drop ip srcIp hrange =>
    refine ⟨h.portToId, h.fd, ?_⟩
    intro rule hrule hforward
    rcases List.mem_append.mp hrule with hrule | hrule
    · exact h.rules rule hrule hforward
    · obtain rfl := List.mem_singleton.mp hrule
      cases hforward
  | forward ipLow ipHigh port srcIp hrange hport hopen =>
    have hopens' := hopens port (by simp [rulePort])
    have hid := control_portToId (openPort_control cfg { s with addReceived := true } port)
    refine h.open (by omega) hopens' ?_ ?_ ?_
    · exact hid
    · exact openPort_portToFd cfg { s with addReceived := true } port
    · intro rule hrule hforward
      rcases List.mem_append.mp hrule with hrule | hrule
      · apply h.rules rule _ hforward
        simpa [countRelayOut] using hrule
      · obtain rfl := List.mem_singleton.mp hrule
        show port = 1 ∨ port = 2 ∨ port = 3
        omega
  | relay i srcIp destIp hrange hi hopen =>
    have hout := (handleRelay_out cfg hopen hrange).2
    refine h.congr (control_portToId (handleRelay_control ..)) ?_ (by rw [handleRelay_flowTable])
    rw [hout]
    dsimp only [outPort]
    split_ifs with houtside
    · cases hport : transitPort cfg i with
      | none => rfl
      | some port => exact (indexFd_portToFd (hready houtside port hport).1).2
    · rfl
  | hangUp i hi hopen => exact h.congr rfl rfl rfl

/-- A ready step sends its RELAYs to live ports. -/
theorem live_of_move (h : PortsOk cfg s) (hmove : Move cfg s a r) (hopens : Opens cfg s a)
    (hready : Ready cfg s a) : ∀ w ∈ r.2, w.packet.type = "RELAY".toList →
      ∃ port, outPort cfg s a = some port ∧ Live cfg s r.1 port w.fd := by
  intro w hw htype
  cases hmove with
  | quiet => cases hw
  | hit now ms srcIp destIp s' rule flowTable hs hheader hmatch =>
    rw [useRule_relays] at hw
    split_ifs at hw with hport
    · obtain rfl := List.mem_singleton.mp hw
      obtain ⟨hforward, hval, hclosed⟩ := hport
      have hout : outPort cfg s (.traffic now ms) = some rule.actionVal := by
        show hitPort cfg s now ms = some rule.actionVal
        rw [hitPort_eq hheader hmatch, if_pos ⟨hforward, hval⟩]
      have hmem := h.rules rule (List.mem_of_find?_eq_some (matchRule_eq_some hmatch).1) hforward
      have hfd : s'.countAdmit.outFd cfg rule.actionVal = s.outFd cfg rule.actionVal :=
        outFd_congr hs.portToFd (control_portToId hs.control) _
      refine ⟨rule.actionVal, hout, ?_, ?_, ?_⟩
      · rw [hfd]
        exact h.outFd_eq (by omega) (hopens _ hout)
      · rw [useRule_portToFd, if_pos ⟨hforward, hval⟩]
        exact Function.update_self ..
      · have hsame : s'.closed = s.closed := control_closed hs.control
        rw [← hsame]
        exact hclosed
    · cases hw
  | miss =>
    obtain rfl := List.mem_singleton.mp hw
    have hquery : "QUERY".toList ≠ "RELAY".toList := by decide
    exact absurd htype hquery
  | ack => cases hw
  | drop => cases hw
  | forward ipLow ipHigh port srcIp hrange hport hopen =>
    have hwrites := handleForward_relays (s := { s with addReceived := true }) cfg hopen
      ipLow ipHigh port srcIp
    rw [hwrites] at hw
    obtain rfl := List.mem_singleton.mp hw
    refine ⟨port, rfl, ?_, ?_, hready rfl⟩
    · exact h.outFd_eq (by omega) (hopens port rfl)
    · show (({ s with addReceived := true } : SwitchState).openPort cfg port).portToFd port = _
      rw [openPort_portToFd, Function.update_self]
  | relay i srcIp destIp hrange hi hopen =>
    obtain ⟨hwrites, htable⟩ := handleRelay_out cfg hopen hrange
    rw [hwrites] at hw
    obtain ⟨port, hport, rfl⟩ := List.mem_map.mp hw
    have hout := Option.mem_toList.mp hport
    rw [hout] at htable
    dsimp only [outPort] at hout
    split_ifs at hout with houtside
    obtain ⟨hsome, hclosed⟩ := hready houtside port hout
    obtain ⟨hfd, hsame⟩ := indexFd_portToFd hsome
    refine ⟨port, ?_, ?_, ?_, hclosed⟩
    · dsimp only [outPort]
      rw [if_pos houtside, hout]
    · exact h.fd port _ (transitPort_ne_zero hout) hfd
    · rw [htable]
      exact (congrFun hsame port).trans hfd
  | hangUp => cases hw

/-- A step that is not ready sends a RELAY elsewhere. -/
theorem ready_of_live (hmove : Move cfg s a r)
    (h : ∀ w ∈ r.2, w.packet.type = "RELAY".toList →
      ∃ port, outPort cfg s a = some port ∧ Live cfg s r.1 port w.fd) : Ready cfg s a := by
  cases hmove with
  | forward ipLow ipHigh port srcIp hrange hport hopen =>
    have hwrites := handleForward_relays (s := { s with addReceived := true }) cfg hopen
      ipLow ipHigh port srcIp
    obtain ⟨port', hout, -, -, hclosed⟩ :=
      h _ (by rw [hwrites]; exact List.mem_singleton.mpr rfl) rfl
    intro _
    cases hout
    exact hclosed
  | relay i srcIp destIp hrange hi hopen =>
    intro houtside port hport
    have hout : outPort cfg s (.receive i ⟨.RELAY srcIp destIp, hrange⟩) = some port := by
      dsimp only [outPort]
      rw [if_pos houtside]
      exact hport
    have hwrites := (handleRelay_out cfg hopen hrange).1
    rw [hout] at hwrites
    obtain ⟨port', hout', ⟨id, -, hfd⟩, -, hclosed⟩ :=
      h _ (by rw [hwrites]; exact List.mem_singleton.mpr rfl) rfl
    obtain rfl : port = port' := Option.some.inj (hout.symm.trans hout')
    refine ⟨?_, hclosed⟩
    cases hentry : s.portToFd port with
    | some fd => rfl
    | none =>
      have hstdin : s.fdAt port = .stdin := by
        unfold fdAt
        rw [hentry]
        rfl
      cases hstdin.symm.trans hfd
  | drop ip srcIp hrange =>
    intro haction
    cases haction
  | quiet | hit | miss | ack | hangUp => trivial

end Steps

/-! ## Runs -/

section Runs

variable {cfg : SwitchConfig} {lines : List Text} {st : State} {tr : List (State × Action)}

/-- As long as every step is ready, the table is in order. -/
theorem portsOk_of_run (h : (system cfg lines).Run (init cfg lines) tr st)
    (hready : ∀ p ∈ tr, Ready cfg p.1.sw p.2) : PortsOk cfg st.sw := by
  induction h with
  | nil => exact portsOk_init lines
  | snoc hrun hstep ih =>
    obtain ⟨r, hmove, -, hopens, rfl⟩ := move_of_step hstep
    have hbefore := ih fun p hp => hready p (List.mem_append_left _ hp)
    have hlast := hready _ (List.mem_append_right _ (List.mem_singleton_self _))
    exact portsOk_move hbefore hmove hopens hlast

/-- Every RELAY of a run is sent to a live port if and only if every step is ready. -/
theorem relaysLive_iff (h : (system cfg lines).Run (init cfg lines) tr st) :
    (∀ p ∈ tr, RelaysLive cfg p.1.sw p.2) ↔ ∀ p ∈ tr, Ready cfg p.1.sw p.2 := by
  induction h with
  | nil => simp
  | snoc hrun hstep ih =>
    rename_i tr st st' a
    obtain ⟨r, hmove, hr, hopens, -⟩ := move_of_step hstep
    simp only [List.mem_append, List.mem_singleton, or_imp, forall_and, forall_eq]
    rw [ih]
    apply and_congr_right
    intro hready
    constructor
    · intro hlive
      exact ready_of_live hmove (hlive r hr)
    · intro hlast r' hr'
      obtain rfl : r = r' := Option.some.inj (hr.symm.trans hr')
      exact live_of_move (portsOk_of_run hrun hready) hmove hopens hlast

end Runs

/-- A packet from switch 1 to switch 3, on its way through switch 2. -/
def transitPacket : WirePacket := ⟨.RELAY 100 300, by decide⟩

/-- The controller's ACK, and the packet. -/
def inTransit : List Action := [.receive socketIdx ackPacket, .receive 1 transitPacket]

theorem exec_inTransit : ∃ st,
    (system ex3Switch2 []).exec (init ex3Switch2 []) inTransit = some st ∧
      st.written = [⟨.controller, openPacket ex3Switch2⟩, ⟨.stdin, .RELAY 100 300⟩] := by
  have hrun : ((system ex3Switch2 []).exec (init ex3Switch2 []) inTransit).map (fun st =>
      decide (st.written = [⟨.controller, openPacket ex3Switch2⟩, ⟨.stdin, .RELAY 100 300⟩])) =
        some true := by
    decide +kernel
  exact System.exists_of_exec hrun

/-- Switch 2 is greater than the index 1, so the packet is to go back to port 1, which was
    never opened: it is written to `stdin`. -/
theorem relaysLive_counterexample : ∃ tr st,
    (system ex3Switch2 []).Run (init ex3Switch2 []) tr st ∧
      st.written = [⟨.controller, openPacket ex3Switch2⟩, ⟨.stdin, .RELAY 100 300⟩] ∧
      ¬ ∀ p ∈ tr, RelaysLive ex3Switch2 p.1.sw p.2 := by
  obtain ⟨st, hexec, hwritten⟩ := exec_inTransit
  refine ⟨_, st, .of_exec hexec, hwritten, ?_⟩
  intro hlive
  have hstdin : ∃ p ∈ (system ex3Switch2 []).trace (init ex3Switch2 []) inTransit,
      ∃ r ∈ respond ex3Switch2 p.1.sw p.2, ∃ w ∈ r.2,
        w.fd = .stdin ∧ w.packet.type = "RELAY".toList := by
    decide +kernel
  obtain ⟨p, hp, r, hr, w, hw, hfd, htype⟩ := hstdin
  obtain ⟨port, -, ⟨id, -, hfifo⟩, -⟩ := hlive p hp r hr w hw htype
  cases hfd.symm.trans hfifo

/-- Two packets for the first switch, of which the second is not asked for. -/
def towardsFirst : List Text := ["sw2 200 100".toList, "sw2 200 105".toList]

/-- The rule for the first switch, the packet in transit when the port is open, and a hit. -/
def openPort : List Action :=
  [.receive socketIdx ackPacket, .traffic 0 0,
    .receive socketIdx ⟨.ADD 1 100 110 1 200, by decide⟩, .receive 1 transitPacket, .traffic 0 0]

/-- Relayed on all three paths. -/
theorem relaysLive_iff_openPort : ∃ st,
    (system ex3Switch2 towardsFirst).exec (init ex3Switch2 towardsFirst) openPort = some st ∧
      st.written = [⟨.controller, openPacket ex3Switch2⟩, ⟨.controller, .QUERY 200 100⟩,
        ⟨.fifo (makeFifoName 2 1), .RELAY 200 100⟩, ⟨.fifo (makeFifoName 2 1), .RELAY 100 300⟩,
        ⟨.fifo (makeFifoName 2 1), .RELAY 200 105⟩] ∧
      ∀ p ∈ (system ex3Switch2 towardsFirst).trace (init ex3Switch2 towardsFirst) openPort,
        RelaysLive ex3Switch2 p.1.sw p.2 := by
  have hrun : ((system ex3Switch2 towardsFirst).exec (init ex3Switch2 towardsFirst) openPort).map
      (fun st => decide (st.written = [⟨.controller, openPacket ex3Switch2⟩,
        ⟨.controller, .QUERY 200 100⟩, ⟨.fifo (makeFifoName 2 1), .RELAY 200 100⟩,
        ⟨.fifo (makeFifoName 2 1), .RELAY 100 300⟩,
        ⟨.fifo (makeFifoName 2 1), .RELAY 200 105⟩])) = some true := by
    decide +kernel
  have hready : ∀ p ∈ (system ex3Switch2 towardsFirst).trace (init ex3Switch2 towardsFirst)
      openPort, Ready ex3Switch2 p.1.sw p.2 := by
    decide +kernel
  obtain ⟨st, hexec, hwritten⟩ := System.exists_of_exec hrun
  exact ⟨st, hexec, hwritten, (relaysLive_iff (.of_exec hexec)).mpr hready⟩

end Cmput379.Sdn.SwitchLoop
