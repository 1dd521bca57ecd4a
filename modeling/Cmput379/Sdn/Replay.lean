import Cmput379.Sdn.RelayPort

/-!
# A switch is its traffic file, read in order

Once every switch has had its ACK, what the controller answers depends on nothing
but the slot of the switch that asks. A switch then does what a program would do
that reads the lines of its file one after the other and calls the controller for
each address it has no rule for: the other switches, the RELAYs and the order of
all deliveries do not show in its flow table, nor in what it has admitted and
asked.

* `Account.line`: such a program, for one line.
* `AccountStep`, `accountStep_of_step`: what a step of the network is to switch `k`.
* `replayed`: the network refines the program.
-/

namespace Cmput379.Sdn

open Cmput379.Lib SwitchState

variable {n : ℕ} {N : Network n} {net net' net₀ : NetState n} {k : Fin n}

/-! ## The sequential switch -/

/-- The flow table of a switch, and what it has counted for its traffic file. -/
structure Account where
  flowTable : List FlowRule
  admitted : ℤ
  queries : ℤ
  deriving DecidableEq

/-- The rule that the controller's answer to a QUERY from slot `slot` installs. -/
def answerRule (table : List SwitchInfo) (slot destIp : ℤ) : FlowRule :=
  match table.find? fun info => info.contains destIp with
  | some info =>
    addedRule info.ipLow info.ipHigh .FORWARD (ControllerState.relayPort info slot)
  | none => addedRule destIp destIp .DROP 0

namespace Account

/-- The packet is counted, and asked for. -/
def ask (acc : Account) : Account :=
  { acc with admitted := acc.admitted + 1, queries := acc.queries + 1 }

/-- The rule of an answer is installed. -/
def install (acc : Account) (rule : FlowRule) : Account :=
  { acc with flowTable := acc.flowTable ++ [rule] }

/-- A packet for `destIp` is admitted; `answer` is the controller. -/
def admitPacket (answer : ℤ → FlowRule) (acc : Account) (destIp : ℤ) : Account :=
  match matchRule destIp acc.flowTable with
  | some (_, flowTable) => { acc with flowTable, admitted := acc.admitted + 1 }
  | none => acc.ask.install (answer destIp)

/-- A line of the traffic file of the switch `cfg`. -/
def line (cfg : SwitchConfig) (answer : ℤ → FlowRule) (acc : Account) (text : Text) : Account :=
  match parseTrafficFileLine text with
  | some (.action, [id, _, destIp]) => if cfg.id = id then acc.admitPacket answer destIp else acc
  | _ => acc

end Account

namespace SwitchState

/-- What a switch has to show for its traffic file. -/
def account (s : SwitchState) : Account := ⟨s.flowTable, s.counts.admit_, s.counts.query⟩

/-! ## What a turn of part 1 is -/

/-- A turn of part 1 reads nothing, or it reads a line, and asks the controller
    if the line is a packet that no rule covers. -/
inductive Reads (cfg : SwitchConfig) (s : SwitchState) (turn : Turn) : Prop
  | nothing (hacc : turn.state.account = s.account) (hlines : turn.state.lines = s.lines)
      (hadd : turn.state.addReceived = s.addReceived) (hwrites : turn.writes = [])
      (hheader : turn.header = none)
  | line (text : Text) (hlines : s.lines = text :: turn.state.lines)
      (hadd : s.addReceived = true) (hadd' : turn.state.addReceived = true)
      (hacc : ∀ answer, turn.state.account = s.account.line cfg answer text)
  | query (text : Text) (srcIp destIp : ℤ) (hlines : s.lines = text :: turn.state.lines)
      (hadd : s.addReceived = true) (hadd' : turn.state.addReceived = false)
      (hparse : parseTrafficFileLine text = some (.action, [cfg.id, srcIp, destIp]))
      (hmiss : matchRule destIp s.flowTable = none) (hacc : turn.state.account = s.account.ask)
      (hheader : turn.header = some (srcIp, destIp))
      (hwrites : turn.writes = [⟨s.fdAt 0, .QUERY srcIp destIp⟩])

theorem useRule_account (cfg : SwitchConfig) (s : SwitchState) (rule : FlowRule)
    (flowTable : List FlowRule) (srcIp destIp : ℤ) :
    (s.useRule cfg rule flowTable srcIp destIp).1.account =
      ⟨flowTable, s.counts.admit_, s.counts.query⟩ := by
  unfold useRule
  split
  · rfl
  · split_ifs
    · unfold openPort
      dsimp only
      split_ifs <;> rfl
    · rfl

theorem useRule_lines (cfg : SwitchConfig) (s : SwitchState) (rule : FlowRule)
    (flowTable : List FlowRule) (srcIp destIp : ℤ) :
    (s.useRule cfg rule flowTable srcIp destIp).1.lines = s.lines := by
  unfold useRule
  split
  · rfl
  · split_ifs
    · unfold openPort
      dsimp only
      split_ifs <;> rfl
    · rfl

theorem useRule_addReceived (cfg : SwitchConfig) (s : SwitchState) (rule : FlowRule)
    (flowTable : List FlowRule) (srcIp destIp : ℤ) :
    (s.useRule cfg rule flowTable srcIp destIp).1.addReceived = s.addReceived := by
  have hcontrol := useRule_control cfg s rule flowTable srcIp destIp
  simp only [control, Prod.mk.injEq] at hcontrol
  exact hcontrol.2.1

/-- A packet line of the switch. -/
theorem reads_of_admit {cfg : SwitchConfig} {s : SwitchState} {text : Text} {lines : List Text}
    {srcIp destIp : ℤ} (hlines : s.lines = text :: lines) (hadd : s.addReceived = true)
    (hparse : parseTrafficFileLine text = some (.action, [cfg.id, srcIp, destIp])) (start : ℤ)
    (duration : ℤ) :
    Reads cfg s
      (let r := ({ s with lines := lines, delayStartTime := start, delayDuration := duration } :
        SwitchState).admitPacket cfg srcIp destIp
      ⟨r.1, some (srcIp, destIp), r.2⟩) := by
  unfold admitPacket
  dsimp only
  split
  next rule flowTable hmatch =>
    refine .line text ?_ hadd ?_ fun answer => ?_
    · rw [useRule_lines]
      exact hlines
    · rw [useRule_addReceived]
      exact hadd
    · have hmatch' : matchRule destIp s.account.flowTable = some (rule, flowTable) := hmatch
      rw [useRule_account, Account.line, hparse]
      simp only [if_true, Account.admitPacket, hmatch']
      rfl
  next hmatch => exact .query text srcIp destIp hlines hadd rfl hparse hmatch rfl rfl rfl

/-- A line that is not a packet of the switch. -/
theorem Account.line_of_not_mine {cfg : SwitchConfig} {answer : ℤ → FlowRule} {acc : Account}
    {text : Text} {type : LineType} {content : List ℤ}
    (hparse : parseTrafficFileLine text = some (type, content))
    (hmine : ∀ id srcIp destIp, type = .action → content = [id, srcIp, destIp] → cfg.id ≠ id) :
    acc.line cfg answer text = acc := by
  unfold Account.line
  rw [hparse]
  split
  next id srcIp destIp heq =>
    obtain ⟨rfl, rfl⟩ := Prod.mk.inj (Option.some.inj heq)
    exact if_neg (hmine id srcIp destIp rfl rfl)
  next => rfl

theorem reads_of_handleLine {cfg : SwitchConfig} {ms : ℤ} {s : SwitchState} {text : Text}
    {lines : List Text} {turn : Turn} (hlines : s.lines = text :: lines)
    (hadd : s.addReceived = true)
    (h : handleLine cfg ms { s with lines := lines, delayStartTime := 0, delayDuration := 0 } text =
      some turn) : Reads cfg s turn := by
  unfold handleLine at h
  simp only [Option.bind_eq_bind, Option.pure_def, Option.bind_eq_some_iff] at h
  obtain ⟨⟨type, content⟩, hparse, h⟩ := h
  cases type with
  | action =>
    obtain ⟨id, srcIp, destIp, rfl, -, -⟩ := parseTrafficFileLine_action hparse
    simp only [List.getElem?_cons_zero, List.getElem?_cons_succ, Option.bind_some] at h
    split_ifs at h with hid
    · cases h
      subst hid
      exact reads_of_admit hlines hadd hparse 0 0
    · cases h
      refine .line text hlines hadd hadd fun answer => ?_
      rw [Account.line_of_not_mine hparse]
      · rfl
      · rintro id' srcIp' destIp' - heq
        obtain ⟨rfl, -⟩ := List.cons.inj heq
        exact hid
  | delay =>
    obtain ⟨id, duration, rfl⟩ := (parseTrafficFileLine_content hparse).2 rfl
    simp only [List.getElem?_cons_zero, List.getElem?_cons_succ, Option.bind_some] at h
    split_ifs at h <;> cases h
    all_goals
      refine .line text hlines hadd hadd fun answer => ?_
      rw [Account.line_of_not_mine hparse (by rintro _ _ _ ⟨⟩)]
      rfl
  | empty | comment | error =>
    cases h
    refine .line text hlines hadd hadd fun answer => ?_
    rw [Account.line_of_not_mine hparse (by rintro _ _ _ ⟨⟩)]
    rfl

/-- What a turn of part 1 does to the account and to the lines not yet read. -/
theorem reads_of_trafficTurn {cfg : SwitchConfig} {now ms : ℤ} {s : SwitchState} {turn : Turn}
    (h : s.trafficTurn cfg now ms = some turn) : Reads cfg s turn := by
  unfold trafficTurn nextLine at h
  split_ifs at h with hgate hopen
  · split at h
    next text lines hlines => exact reads_of_handleLine hlines hgate.2.1 h
    next hlines =>
      cases h
      exact .nothing rfl rfl rfl rfl rfl
  · cases h
    exact .nothing rfl rfl rfl rfl rfl
  · cases h
    exact .nothing rfl rfl rfl rfl rfl

end SwitchState

/-! ## What a step of the network is -/

/-- The rule an ADD packet installs, with the packet it is counted for. -/
inductive Adds : Packet → FlowRule → Prop
  | drop (destIp srcIp : ℤ) : Adds (.ADD 0 destIp destIp 0 srcIp) (addedRule destIp destIp .DROP 0)
  | forward (ipLow ipHigh port srcIp : ℤ) :
      Adds (.ADD 1 ipLow ipHigh port srcIp) (addedRule ipLow ipHigh .FORWARD port)

/-- What a step is to switch `k`, when every switch has had its ACK. -/
inductive AccountStep (N : Network n) (net net' : NetState n) (k : Fin n) : Prop
  | same (hacc : (net'.sw k).account = (net.sw k).account)
      (hlines : (net'.sw k).lines = (net.sw k).lines)
      (hadd : (net'.sw k).addReceived = (net.sw k).addReceived)
      (hup : net'.up k = net.up k) (hdown : net'.down k = net.down k)
  | line (text : Text) (hlines : (net.sw k).lines = text :: (net'.sw k).lines)
      (hadd : (net.sw k).addReceived = true) (hadd' : (net'.sw k).addReceived = true)
      (hacc : ∀ answer, (net'.sw k).account = (net.sw k).account.line (N.cfg k) answer text)
  | query (text : Text) (srcIp destIp : ℤ) (c : ℕ)
      (hlines : (net.sw k).lines = text :: (net'.sw k).lines)
      (hadd : (net.sw k).addReceived = true) (hadd' : (net'.sw k).addReceived = false)
      (hparse : parseTrafficFileLine text = some (.action, [(N.cfg k).id, srcIp, destIp]))
      (hmiss : matchRule destIp (net.sw k).flowTable = none)
      (hacc : (net'.sw k).account = (net.sw k).account.ask)
      (hup : net'.up k = [⟨some c, .QUERY srcIp destIp⟩]) (hdown : net'.down k = [])
  | answer (slot : ℤ) (srcIp destIp : ℤ) (c : ℕ) (hsw : net'.sw k = net.sw k)
      (hfd : net.ctrl.pfds slot = some (.switch k))
      (hup : net.up k = [⟨some c, .QUERY srcIp destIp⟩]) (hup' : net'.up k = [])
      (hdown' : net'.down k =
        [⟨some c, ControllerState.answer net.ctrl.switchInfoTable slot srcIp destIp⟩])
  | install (packet : Packet) (rule : FlowRule) (c : ℕ) (hdown : net.down k = [⟨some c, packet⟩])
      (hrule : Adds packet rule) (hlines : (net'.sw k).lines = (net.sw k).lines)
      (hadd' : (net'.sw k).addReceived = true)
      (hacc : (net'.sw k).account = (net.sw k).account.install rule)

/-! ### The states after a step -/

section After

variable (j : Fin n)

theorem moveSwitch_sw (c : Option ℕ) (r : SwitchState × List Write) :
    (net.moveSwitch k c r).sw j = if j = k then r.1 else net.sw j := by
  simp [NetState.moveSwitch, NetState.sendAll, Function.update_apply]

theorem admitLine_sw (srcIp destIp : ℤ) (r : SwitchState × List Write) :
    (net.admitLine k srcIp destIp r).sw j = if j = k then r.1 else net.sw j := by
  simp [NetState.admitLine, NetState.moveSwitch, NetState.sendAll, Function.update_apply]

theorem receiveDown_sw_apply (m : Msg) (rest : List Msg) (r : SwitchState × List Write) :
    (net.receiveDown k m rest r).sw j = if j = k then r.1 else net.sw j := by
  simp [NetState.receiveDown, NetState.moveSwitch, NetState.sendAll, Function.update_apply]

theorem receiveFifo_sw (port : ℤ) (name : Text) (m : Msg) (rest : List Msg)
    (r : SwitchState × List Write) :
    (net.receiveFifo k port name m rest r).sw j = if j = k then r.1 else net.sw j := by
  simp [NetState.receiveFifo, NetState.moveSwitch, NetState.sendAll, Function.update_apply]

end After

/-- A switch that has had its ACK never waits for one again. -/
theorem Transition.ackReceived {a : Action n} (h : Transition N net a net') {j : Fin n}
    (hack : (net.sw j).ackReceived = true) : (net'.sw j).ackReceived = true := by
  have hcontrol : ∀ {s s' : SwitchState}, s'.control = s.control →
      s'.ackReceived = s.ackReceived := fun heq => congrArg Prod.fst heq
  cases h with
  | start | accept | opened | queried => exact hack
  | quiet k now ms s hs =>
    rw [moveSwitch_sw]
    split_ifs with hj
    · subst hj
      exact (hcontrol hs.control).trans hack
    · exact hack
  | hit k now ms srcIp destIp s rule flowTable hs =>
    rw [admitLine_sw]
    split_ifs with hj
    · subst hj
      exact (hcontrol (useRule_control _ _ _ _ _ _)).trans ((hcontrol hs.control).trans hack)
    · exact hack
  | miss k now ms srcIp destIp s hs =>
    rw [admitLine_sw]
    split_ifs with hj
    · subst hj
      exact (hcontrol hs.control).trans hack
    · exact hack
  | acked k hdown =>
    rw [receiveDown_sw_apply]
    split_ifs with hj
    · rfl
    · exact hack
  | dropped k c srcIp destIp hsrc hdest hdown =>
    rw [receiveDown_sw_apply]
    split_ifs with hj
    · subst hj
      exact hack
    · exact hack
  | forwarded k t c srcIp destIp port hsrc hdest ht hport hdown =>
    rw [receiveDown_sw_apply]
    split_ifs with hj
    · subst hj
      exact (hcontrol (openPort_control (N.cfg j) { net.sw j with addReceived := true } port)).trans
        hack
    · exact hack
  | relayed k port name c srcIp destIp rest hk hname hsrc hdest hfifo =>
    rw [receiveFifo_sw]
    split_ifs with hj
    · subst hj
      exact (hcontrol (handleRelay_control _ _ _ _ _)).trans hack
    · exact hack

/-- When every switch has had its ACK, the controller learns nothing more. -/
theorem Transition.switchInfoTable {a : Action n} (hw : WellFormed N net)
    (h : Transition N net a net') (hack : ∀ j, (net.sw j).ackReceived = true) :
    net'.ctrl.switchInfoTable = net.ctrl.switchInfoTable := by
  cases h with
  | opened i k hfd hup =>
    have hflags := ((hw.phase k).opening_of_up hup).2.1
    exact absurd (hflags.ack.symm.trans (hack k)) Bool.false_ne_true
  | queried i k c srcIp destIp hfd hsrc hdest hup => exact handleQuery_switchInfoTable _ _ _ _
  | start | accept | quiet | hit | miss | acked | dropped | forwarded | relayed => rfl

/-! ### The kinds of steps -/

/-- The state after switch `j` has had the turn `turn`. -/
def afterTurn (net : NetState n) (j : Fin n) (turn : Turn) : NetState n :=
  match turn.header with
  | some (srcIp, destIp) => net.admitLine j srcIp destIp (turn.state, turn.writes)
  | none => net.moveSwitch j none (turn.state, turn.writes)

theorem afterTurn_sw (j : Fin n) (turn : Turn) (i : Fin n) :
    (afterTurn net j turn).sw i = if i = j then turn.state else net.sw i := by
  unfold afterTurn
  split
  · rw [admitLine_sw]
  · rw [moveSwitch_sw]

theorem afterTurn_socket_of_ne {j : Fin n} (turn : Turn) (hj : k ≠ j) :
    (afterTurn net j turn).up k = net.up k ∧ (afterTurn net j turn).down k = net.down k := by
  unfold afterTurn
  split
  · simp [NetState.admitLine, NetState.moveSwitch, NetState.sendAll, hj]
  · simp [NetState.moveSwitch, NetState.sendAll, hj]

theorem accountStep_of_turn (hw : WellFormed N net) (hack : ∀ j, (net.sw j).ackReceived = true)
    {j : Fin n} {now ms : ℤ} {turn : Turn}
    (hturn : (net.sw j).trafficTurn (N.cfg j) now ms = some turn) :
    AccountStep N net (afterTurn net j turn) k := by
  by_cases hj : k = j
  · subst hj
    have hsw : (afterTurn net k turn).sw k = turn.state := by rw [afterTurn_sw, if_pos rfl]
    cases reads_of_trafficTurn hturn with
    | nothing hacc hlines hadd hwrites hheader =>
      refine .same (by rw [hsw, hacc]) (by rw [hsw, hlines]) (by rw [hsw, hadd]) ?_ ?_
      all_goals simp [afterTurn, hheader, hwrites, NetState.moveSwitch, NetState.sendAll]
    | line text hlines hadd hadd' hacc =>
      exact .line text (by rw [hsw, hlines]) hadd (by rw [hsw, hadd']) (by simpa [hsw] using hacc)
    | query text srcIp destIp hlines hadd hadd' hparse hmiss hacc hheader hwrites =>
      obtain ⟨-, -, hup, hdown⟩ := (hw.phase k).idle_of_flags (hack k) hadd
      have hfd : (net.sw k).fdAt 0 = .controller := by
        simp [SwitchState.fdAt, (hw.switch k).fd0]
      refine .query text srcIp destIp net.lineCount (by rw [hsw, hlines]) hadd (by rw [hsw, hadd'])
        hparse hmiss (by rw [hsw, hacc]) ?_ ?_
      · simp [afterTurn, hheader, hwrites, NetState.admitLine, NetState.moveSwitch,
          NetState.sendAll, hfd, hup]
      · simp [afterTurn, hheader, NetState.admitLine, NetState.moveSwitch, NetState.sendAll, hdown]
  · obtain ⟨hup, hdown⟩ : (afterTurn net j turn).up k = net.up k ∧
        (afterTurn net j turn).down k = net.down k := afterTurn_socket_of_ne turn hj
    have hsw : (afterTurn net j turn).sw k = net.sw k := by rw [afterTurn_sw, if_neg hj]
    exact .same (by rw [hsw]) (by rw [hsw]) (by rw [hsw]) hup hdown

/-- A step that does not show in switch `k`. -/
theorem AccountStep.of_sw_eq (hsw : net'.sw k = net.sw k) (hup : net'.up k = net.up k)
    (hdown : net'.down k = net.down k) : AccountStep N net net' k :=
  .same (by rw [hsw]) (by rw [hsw]) (by rw [hsw]) hup hdown

theorem receiveDown_socket_of_ne {j : Fin n} (m : Msg) (r : SwitchState × List Write)
    (hj : k ≠ j) : (net.receiveDown j m [] r).up k = net.up k ∧
      (net.receiveDown j m [] r).down k = net.down k := by
  simp [NetState.receiveDown, NetState.moveSwitch, NetState.sendAll, hj]

/-- An ADD reaches switch `j`. -/
theorem accountStep_of_add {j : Fin n} {c : ℕ} {packet : Packet} {rule : FlowRule}
    {r : SwitchState × List Write} (hdown : net.down j = [⟨some c, packet⟩])
    (hrule : Adds packet rule) (hlines : r.1.lines = (net.sw j).lines)
    (hadd : r.1.addReceived = true) (hacc : r.1.account = (net.sw j).account.install rule) :
    AccountStep N net (net.receiveDown j ⟨some c, packet⟩ [] r) k := by
  by_cases hj : k = j
  · subst hj
    have hsw : (net.receiveDown k ⟨some c, packet⟩ [] r).sw k = r.1 := by
      rw [receiveDown_sw_apply, if_pos rfl]
    exact .install packet rule c hdown hrule (by rw [hsw, hlines]) (by rw [hsw, hadd])
      (by rw [hsw, hacc])
  · have hsw : (net.receiveDown j ⟨some c, packet⟩ [] r).sw k = net.sw k := by
      rw [receiveDown_sw_apply, if_neg hj]
    obtain ⟨hup, hdown'⟩ : (net.receiveDown j ⟨some c, packet⟩ [] r).up k = net.up k ∧
        (net.receiveDown j ⟨some c, packet⟩ [] r).down k = net.down k :=
      receiveDown_socket_of_ne _ r hj
    exact .of_sw_eq hsw hup hdown'

theorem handleRelay_account (cfg : SwitchConfig) (s : SwitchState) (i srcIp destIp : ℤ) :
    (s.handleRelay cfg i srcIp destIp).1.account = s.account ∧
      (s.handleRelay cfg i srcIp destIp).1.lines = s.lines ∧
      (s.handleRelay cfg i srcIp destIp).1.addReceived = s.addReceived := by
  unfold handleRelay
  dsimp only
  split_ifs <;> exact ⟨rfl, rfl, rfl⟩

theorem handleForward_account (cfg : SwitchConfig) (s : SwitchState)
    (i ipLow ipHigh port srcIp : ℤ) :
    (s.handleForward cfg i ipLow ipHigh port srcIp).1.account =
        s.account.install (addedRule ipLow ipHigh .FORWARD port) ∧
      (s.handleForward cfg i ipLow ipHigh port srcIp).1.lines = s.lines ∧
      (s.handleForward cfg i ipLow ipHigh port srcIp).1.addReceived = s.addReceived := by
  rw [handleForward_fst]
  unfold openPort
  split_ifs <;> exact ⟨rfl, rfl, rfl⟩

/-- What a step is to switch `k`. -/
theorem accountStep_of_step {a : Action n} (hw : WellFormed N net)
    (hack : ∀ j, (net.sw j).ackReceived = true) (h : N.step net a = some net') (k : Fin n) :
    AccountStep N net net' k := by
  cases transition_of_step hw h with
  | start j hj =>
    have hstarted := (hw.phase j).started_of_ack (hack j)
    exact absurd (hj.symm.trans hstarted) Bool.false_ne_true
  | accept j rest hk => exact .of_sw_eq rfl rfl rfl
  | quiet j now ms | hit j now ms | miss j now ms =>
    simp only [Network.step] at h
    split_ifs at h
    obtain ⟨turn, hturn, heq⟩ := Option.map_eq_some_iff.mp h
    rw [← heq]
    exact accountStep_of_turn hw hack hturn
  | opened i j hfd hup =>
    have hflags := ((hw.phase j).opening_of_up hup).2.1
    exact absurd (hflags.ack.symm.trans (hack j)) Bool.false_ne_true
  | queried i j c srcIp destIp hfd hsrc hdest hup =>
    obtain ⟨hstarted, hflags, hdown⟩ := (hw.phase j).querying_of_up hup
    have hreply := (hw.serves_query hfd ⟨hstarted, by simp [hup]⟩ hsrc hdest).reply
    by_cases hj : k = j
    · subst hj
      refine .answer i srcIp destIp c rfl hfd hup (by rw [serve_up, if_pos rfl]) ?_
      rw [serve_down hreply, if_pos rfl, hdown]
      rfl
    · exact .of_sw_eq rfl (by rw [serve_up, if_neg hj]) (by rw [serve_down hreply, if_neg hj])
  | acked j hdown =>
    cases hw.phase j with
    | acking started flags up down =>
      exact absurd (flags.ack.symm.trans (hack j)) Bool.false_ne_true
    | adding started flags c srcIp destIp answer hsrc hdest hanswer up down => simp [down] at hdown
    | fresh started sw up down => simp [down] at hdown
    | opening started flags up down => simp [down] at hdown
    | idle started flags up down => simp [down] at hdown
    | querying started flags c srcIp destIp hsrc hdest up down => simp [down] at hdown
  | dropped j c srcIp destIp hsrc hdest hdown =>
    exact accountStep_of_add hdown (.drop destIp srcIp) rfl rfl rfl
  | forwarded j t c srcIp destIp port hsrc hdest ht hport hdown =>
    obtain ⟨hacc, hlines, hadd⟩ := handleForward_account (N.cfg j)
      { net.sw j with addReceived := true } socketIdx (N.cfg t).ipLow (N.cfg t).ipHigh port srcIp
    exact accountStep_of_add hdown (.forward _ _ _ _) hlines hadd hacc
  | relayed j port name c srcIp destIp rest hk hname hsrc hdest hfifo =>
    have hup : (net.receiveFifo j port name ⟨c, .RELAY srcIp destIp⟩ rest
        ((net.sw j).handleRelay (N.cfg j) port srcIp destIp)).up = net.up :=
      ((hw.switch j).handleRelay_writes port hsrc hdest).sendAll_up
    by_cases hj : k = j
    · subst hj
      obtain ⟨hacc, hlines, hadd⟩ := handleRelay_account (N.cfg k) (net.sw k) port srcIp destIp
      refine .same ?_ ?_ ?_ (by rw [hup]) rfl
      all_goals
        rw [receiveFifo_sw, if_pos rfl]
        assumption
    · exact .of_sw_eq (by rw [receiveFifo_sw, if_neg hj]) (by rw [hup]) rfl

/-! ## The refinement -/

/-- An answer installs the rule of the sequential switch. -/
theorem Adds.eq_answerRule {table : List SwitchInfo} {slot srcIp destIp : ℤ} {rule : FlowRule}
    (h : Adds (ControllerState.answer table slot srcIp destIp) rule) :
    rule = answerRule table slot destIp := by
  unfold ControllerState.answer at h
  unfold answerRule
  cases hfind : table.find? fun info => info.contains destIp with
  | some info =>
    rw [hfind] at h
    cases h
    rfl
  | none =>
    rw [hfind] at h
    cases h
    rfl

/-- The account of switch `k` after the lines `done`, from what it was in `net₀`;
    the switch has the slot `slot`. -/
def replay (N : Network n) (net₀ : NetState n) (slot : ℤ) (k : Fin n) (done : List Text) :
    Account :=
  done.foldl (Account.line (N.cfg k) (answerRule net₀.ctrl.switchInfoTable slot))
    (net₀.sw k).account

/-- Where switch `k` is in its file: between two lines, or waiting for the answer
    to the last line it has read. -/
inductive Replaying (N : Network n) (net₀ : NetState n) (slot : ℤ) (k : Fin n)
    (net : NetState n) : Prop
  | settled (done : List Text) (hlines : (net₀.sw k).lines = done ++ (net.sw k).lines)
      (hadd : (net.sw k).addReceived = true)
      (hacc : (net.sw k).account = replay N net₀ slot k done)
  | waiting (done : List Text) (text : Text) (srcIp destIp : ℤ) (c : ℕ)
      (hlines : (net₀.sw k).lines = done ++ text :: (net.sw k).lines)
      (hadd : (net.sw k).addReceived = false)
      (hparse : parseTrafficFileLine text = some (.action, [(N.cfg k).id, srcIp, destIp]))
      (hmiss : matchRule destIp (replay N net₀ slot k done).flowTable = none)
      (hacc : (net.sw k).account = (replay N net₀ slot k done).ask)
      (hflight : net.up k = [⟨some c, .QUERY srcIp destIp⟩] ∧ net.down k = [] ∨ net.up k = [] ∧
        net.down k = [⟨some c, ControllerState.answer net₀.ctrl.switchInfoTable slot srcIp destIp⟩])

theorem replay_snoc (slot : ℤ) (done : List Text) (text : Text) :
    replay N net₀ slot k (done ++ [text]) = (replay N net₀ slot k done).line (N.cfg k)
      (answerRule net₀.ctrl.switchInfoTable slot) text := by
  rw [replay, List.foldl_append]
  rfl

/-- A line the switch had to ask for, once the rule is there. -/
theorem line_of_miss {cfg : SwitchConfig} {answer : ℤ → FlowRule} {acc : Account} {text : Text}
    {srcIp destIp : ℤ}
    (hparse : parseTrafficFileLine text = some (.action, [cfg.id, srcIp, destIp]))
    (hmiss : matchRule destIp acc.flowTable = none) :
    acc.line cfg answer text = acc.ask.install (answer destIp) := by
  simp only [Account.line, hparse, if_true, Account.admitPacket, hmiss]

theorem Replaying.step {slot : ℤ} (h : Replaying N net₀ slot k net) (hw : WellFormed N net)
    (htable : net.ctrl.switchInfoTable = net₀.ctrl.switchInfoTable)
    (hslot : ∀ i, net.ctrl.pfds i = some (.switch k) → i = slot)
    (hs : AccountStep N net net' k) : Replaying N net₀ slot k net' := by
  cases h with
  | settled done hlines hadd hacc =>
    cases hs with
    | same hacc' hlines' hadd' hup hdown =>
      exact .settled done (hlines'.symm ▸ hlines) (hadd'.trans hadd) (hacc'.trans hacc)
    | line text hlines' hadd₁ hadd' hacc' =>
      refine .settled (done ++ [text]) ?_ hadd' ?_
      · rw [hlines, hlines', List.append_assoc]
        rfl
      · rw [hacc' (answerRule net₀.ctrl.switchInfoTable slot), hacc, replay_snoc]
    | query text srcIp destIp c hlines' hadd₁ hadd' hparse hmiss hacc' hup hdown =>
      refine .waiting done text srcIp destIp c (hlines' ▸ hlines) hadd' hparse ?_ ?_
        (.inl ⟨hup, hdown⟩)
      · rw [← hacc]
        exact hmiss
      · rw [hacc', hacc]
    | answer i srcIp destIp c hsw hfd hup hup' hdown' =>
      have hflags := ((hw.phase k).querying_of_up hup).2.1
      exact absurd (hflags.add.symm.trans hadd) Bool.false_ne_true
    | install packet rule c hdown hrule hlines' hadd' hacc' =>
      have hflags := ((hw.phase k).adding_of_down hdown).2.1
      exact absurd (hflags.add.symm.trans hadd) Bool.false_ne_true
  | waiting done text srcIp destIp c hlines hadd hparse hmiss hacc hflight =>
    cases hs with
    | same hacc' hlines' hadd' hup hdown =>
      refine .waiting done text srcIp destIp c (hlines'.symm ▸ hlines) (hadd'.trans hadd) hparse
        hmiss (hacc'.trans hacc) ?_
      rw [hup, hdown]
      exact hflight
    | line text' hlines' hadd₁ => exact absurd (hadd.symm.trans hadd₁) Bool.false_ne_true
    | query text' srcIp' destIp' c' hlines' hadd₁ =>
      exact absurd (hadd.symm.trans hadd₁) Bool.false_ne_true
    | answer i srcIp' destIp' c' hsw hfd hup hup' hdown' =>
      rcases hflight with ⟨hup₁, -⟩ | ⟨hup₁, -⟩
      · rw [hup₁] at hup
        cases hup
        refine .waiting done text srcIp destIp c (hsw.symm ▸ hlines) (hsw.symm ▸ hadd) hparse hmiss
          (hsw.symm ▸ hacc) (.inr ⟨hup', ?_⟩)
        rw [hdown', htable, hslot i hfd]
      · rw [hup₁] at hup
        cases hup
    | install packet rule c' hdown hrule hlines' hadd' hacc' =>
      rcases hflight with ⟨-, hdown₁⟩ | ⟨-, hdown₁⟩
      · rw [hdown₁] at hdown
        cases hdown
      · rw [hdown₁] at hdown
        cases hdown
        refine .settled (done ++ [text]) ?_ hadd' ?_
        · rw [hlines, hlines', List.append_assoc]
          rfl
        · rw [replay_snoc, line_of_miss hparse hmiss, hacc', hacc, hrule.eq_answerRule]

/-- What a run keeps from a state in which every switch has had its ACK. -/
structure AllAcked (net₀ net : NetState n) (slot : ℤ) (k : Fin n) : Prop where
  acked : ∀ j, (net.sw j).ackReceived = true
  table : net.ctrl.switchInfoTable = net₀.ctrl.switchInfoTable
  slot : net.ctrl.pfds slot = some (.switch k)

theorem AllAcked.transition {slot : ℤ} {a : Action n} (h : AllAcked net₀ net slot k)
    (hw : WellFormed N net) (ht : Transition N net a net') : AllAcked net₀ net' slot k where
  acked j := ht.ackReceived (h.acked j)
  table := (ht.switchInfoTable hw h.acked).trans h.table
  slot := (ht.ctrl hw).1 slot k h.slot

/-- From a state in which every switch has had its ACK, in every run: what switch
    `k` has to show is what it has for reading the same lines in order, or it
    waits for the answer to the last of them. -/
theorem replayed {slot : ℤ} (h₀ : N.system.Reachable net₀)
    (hack : ∀ j, (net₀.sw j).ackReceived = true) (hslot : net₀.ctrl.pfds slot = some (.switch k))
    (hadd : (net₀.sw k).addReceived = true) (hrun : N.system.Leads net₀ net) :
    Replaying N net₀ slot k net := by
  have hkeep : ∀ net a net', (N.system.Reachable net ∧ AllAcked net₀ net slot k ∧
      Replaying N net₀ slot k net) → N.system.step net a = some net' →
      N.system.Reachable net' ∧ AllAcked net₀ net' slot k ∧ Replaying N net₀ slot k net' := by
    rintro net a net' ⟨hreach, hall, hreplay⟩ hstep
    have hw := wellFormed_of_reachable hreach
    refine ⟨hreach.step hstep, hall.transition hw (transition_of_step hw hstep), ?_⟩
    refine hreplay.step hw hall.table (fun i hi => hw.slots.inj i slot k hi hall.slot) ?_
    exact accountStep_of_step hw hall.acked hstep k
  exact (hrun.invariant hkeep ⟨h₀, ⟨hack, rfl, hslot⟩, .settled [] rfl hadd rfl⟩).2.2

/-! ## Two lines of a file -/

/-- Both switches of `ex2.dat` open and get their ACK. -/
def bothAcked : List (Action 2) :=
  [.start sw1, .accept, .toController 1, .fromController sw1, .start sw2, .accept,
    .toController 2, .fromController sw2]

/-- Switch 1 reads a line and has to ask, gets the answer, and reads another. -/
def askThenHit : List (Action 2) :=
  [.traffic sw1 0 0, .traffic sw2 0 0, .toController 1, .fromController sw1, .traffic sw1 0 0]

/-- Two lines for switch 1, with destinations of switch 2. -/
def twoPackets : Network 2 := ex2 ["sw1 100 200".toList, "sw1 101 205".toList]

/-- One rule, for which the switch asked once, has served both lines. -/
theorem replayed_askThenHit : ∃ net₀ net, twoPackets.system.exec twoPackets.initState bothAcked =
    some net₀ ∧ twoPackets.system.exec net₀ askThenHit = some net ∧
    (net.sw sw1).account = ⟨[initialRule ex2Switch1,
      { addedRule 200 210 .FORWARD 2 with pktCount := 2 }], 2, 1⟩ ∧
    Replaying twoPackets net₀ 1 sw1 net := by
  have hacked : (twoPackets.system.exec twoPackets.initState bothAcked).map (fun net =>
      ((net.sw sw1).ackReceived, (net.sw sw2).ackReceived, (net.sw sw1).addReceived,
        net.ctrl.pfds 1)) = some (true, true, true, some (.switch sw1)) := by
    decide +kernel
  obtain ⟨net₀, hexec₀, hview₀⟩ := Option.map_eq_some_iff.mp hacked
  simp only [Prod.mk.injEq] at hview₀
  obtain ⟨hack1, hack2, hadd, hslot⟩ := hview₀
  have hrun : ((twoPackets.system.exec twoPackets.initState bothAcked).bind fun net₀ =>
      twoPackets.system.exec net₀ askThenHit).map (fun net => (net.sw sw1).account) =
      some ⟨[initialRule ex2Switch1,
        { addedRule 200 210 .FORWARD 2 with pktCount := 2 }], 2, 1⟩ := by
    decide +kernel
  rw [hexec₀, Option.bind_some] at hrun
  obtain ⟨net, hexec, hview⟩ := Option.map_eq_some_iff.mp hrun
  have hack : ∀ j, (net₀.sw j).ackReceived = true := by
    intro j
    fin_cases j
    · exact hack1
    · exact hack2
  exact ⟨net₀, net, hexec₀, hexec, hview, replayed (System.Reachable.of_exec rfl hexec₀) hack hslot
    hadd ⟨_, System.Run.of_exec hexec⟩⟩

end Cmput379.Sdn
