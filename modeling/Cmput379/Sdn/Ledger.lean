import Cmput379.Lib.RemoteCache
import Cmput379.Sdn.Invariant

/-!
# What the exchange leaves in the log

The part of a run that concerns a switch's flow table: the QUERYs it wrote, the
answers of the controller, the ADDs it handled, what is on its socket, and its
rules without their packet counts.

* `Transition.ledger`: what a step does to these, as one of five cases.
* `conserved_of_reachable`: in each direction, what was sent is what was handled
  followed by what is on the socket.
-/

namespace Cmput379.Sdn

open Cmput379.Lib

variable {n : ℕ} {N : Network n} {net net' : NetState n}

/-! ## The ledger of a switch -/

/-- A QUERY, with the number of the traffic line it is for. -/
structure Request where
  cause : ℕ
  srcIp : ℤ
  destIp : ℤ
  deriving DecidableEq

/-- An answered QUERY, with the slot it was read from. -/
abbrev Answer := RemoteCache.Answer ℤ Request

/-- A QUERY written by switch `k`. -/
def Event.asked? (k : Fin n) : Event n → Option Request
  | .wrote j (some c) ⟨.controller, .QUERY srcIp destIp⟩ =>
    if j = k then some ⟨c, srcIp, destIp⟩ else none
  | _ => none

/-- A QUERY of switch `k` handled by the controller. -/
def Event.answered? (k : Fin n) : Event n → Option Answer
  | .served i j (some c) known (.QUERY srcIp destIp) _ =>
    if j = k then some ⟨⟨c, srcIp, destIp⟩, i, known⟩ else none
  | _ => none

/-- An ADD handled by switch `k`. -/
def Event.added? (k : Fin n) : Event n → Option (ℕ × Packet)
  | .handled j (some c) _ (.ADD action ipLow ipHigh val srcIp) =>
    if j = k then some (c, .ADD action ipLow ipHigh val srcIp) else none
  | _ => none

def Msg.asked? : Msg → Option Request
  | ⟨some c, .QUERY srcIp destIp⟩ => some ⟨c, srcIp, destIp⟩
  | _ => none

def Msg.added? : Msg → Option (ℕ × Packet)
  | ⟨some c, .ADD action ipLow ipHigh val srcIp⟩ => some (c, .ADD action ipLow ipHigh val srcIp)
  | _ => none

structure Ledger where
  asked : List Request
  answered : List Answer
  added : List (ℕ × Packet)
  up : List Request
  down : List (ℕ × Packet)
  rules : List FlowRule

def ledger (net : NetState n) (k : Fin n) : Ledger where
  asked := net.log.filterMap (Event.asked? k)
  answered := net.log.filterMap (Event.answered? k)
  added := net.log.filterMap (Event.added? k)
  up := (net.up k).filterMap Msg.asked?
  down := (net.down k).filterMap Msg.added?
  rules := (net.sw k).flowTable.map SwitchState.forget

section Projections

variable (k j : Fin n) (c : ℕ)

@[simp] theorem asked?_query (srcIp destIp : ℤ) :
    (Event.wrote j (some c) ⟨.controller, .QUERY srcIp destIp⟩).asked? k =
      if j = k then some ⟨c, srcIp, destIp⟩ else none := rfl

@[simp] theorem answered?_query (i srcIp destIp : ℤ) (known : ℕ)
    (replies : List (Conn n × Packet)) :
    (Event.served i j (some c) known (.QUERY srcIp destIp) replies).answered? k =
      if j = k then some ⟨⟨c, srcIp, destIp⟩, i, known⟩ else none := rfl

@[simp] theorem added?_add (port action ipLow ipHigh val srcIp : ℤ) :
    (Event.handled j (some c) port (.ADD action ipLow ipHigh val srcIp)).added? k =
      if j = k then some (c, .ADD action ipLow ipHigh val srcIp) else none := rfl

@[simp] theorem asked?_admitted (srcIp destIp : ℤ) :
    (Event.admitted j c srcIp destIp).asked? k = none := rfl

@[simp] theorem asked?_served (i : ℤ) (c : Option ℕ) (known : ℕ) (request : Packet)
    (replies : List (Conn n × Packet)) :
    (Event.served i j c known request replies).asked? k = none := rfl

@[simp] theorem asked?_handled (c : Option ℕ) (port : ℤ) (packet : Packet) :
    (Event.handled j c port packet).asked? k = none := rfl

@[simp] theorem answered?_admitted (srcIp destIp : ℤ) :
    (Event.admitted j c srcIp destIp).answered? k = none := rfl

@[simp] theorem answered?_wrote (c : Option ℕ) (w : Write) :
    (Event.wrote j c w).answered? k = none := rfl

@[simp] theorem answered?_handled (c : Option ℕ) (port : ℤ) (packet : Packet) :
    (Event.handled j c port packet).answered? k = none := rfl

@[simp] theorem added?_admitted (srcIp destIp : ℤ) :
    (Event.admitted j c srcIp destIp).added? k = none := rfl

@[simp] theorem added?_wrote (c : Option ℕ) (w : Write) :
    (Event.wrote j c w).added? k = none := rfl

@[simp] theorem added?_served (i : ℤ) (c : Option ℕ) (known : ℕ) (request : Packet)
    (replies : List (Conn n × Packet)) :
    (Event.served i j c known request replies).added? k = none := rfl

end Projections

/-- An event that no ledger records. -/
def Event.Silent (e : Event n) : Prop :=
  ∀ k, e.asked? k = none ∧ e.answered? k = none ∧ e.added? k = none

theorem silent_admitted (k : Fin n) (c : ℕ) (srcIp destIp : ℤ) :
    (Event.admitted k c srcIp destIp).Silent := fun _ => ⟨rfl, rfl, rfl⟩

theorem silent_wrote_relay (k : Fin n) (c : Option ℕ) (fd : Fd) (srcIp destIp : ℤ) :
    (Event.wrote k c ⟨fd, .RELAY srcIp destIp⟩).Silent := by
  intro j
  refine ⟨?_, rfl, rfl⟩
  cases c <;> cases fd <;> rfl

theorem silent_handled_relay (k : Fin n) (c : Option ℕ) (port srcIp destIp : ℤ) :
    (Event.handled k c port (.RELAY srcIp destIp)).Silent := by
  intro j
  cases c <;> exact ⟨rfl, rfl, rfl⟩

theorem silent_writes {writes : List Write} (h : RelayWrites writes) (k : Fin n) (c : Option ℕ) :
    ∀ e ∈ writes.map (Event.wrote k c), e.Silent := by
  intro e he
  obtain ⟨w, hw, rfl⟩ := List.mem_map.mp he
  obtain ⟨fd, packet⟩ := w
  obtain ⟨-, srcIp, destIp, hpacket, -, -⟩ := h _ hw
  cases hpacket
  exact silent_wrote_relay k c fd srcIp destIp

theorem filterMap_silent {es : List (Event n)} (h : ∀ e ∈ es, e.Silent) (k : Fin n) :
    es.filterMap (Event.asked? k) = [] ∧ es.filterMap (Event.answered? k) = [] ∧
      es.filterMap (Event.added? k) = [] := by
  simp only [List.filterMap_eq_nil_iff]
  exact ⟨fun e he => (h e he k).1, fun e he => (h e he k).2.1, fun e he => (h e he k).2.2⟩

/-- Silent events, and rules that keep everything but their packet counts. -/
theorem ledger_of_silent {j : Fin n} (es : List (Event n)) (hlog : net'.log = net.log ++ es)
    (hes : ∀ e ∈ es, e.Silent) (hup : net'.up j = net.up j) (hdown : net'.down j = net.down j)
    (hrules : (net'.sw j).flowTable.map SwitchState.forget =
      (net.sw j).flowTable.map SwitchState.forget) : ledger net' j = ledger net j := by
  obtain ⟨h1, h2, h3⟩ := filterMap_silent hes j
  simp [ledger, hlog, h1, h2, h3, hup, hdown, hrules]

/-! ## What a step does to the ledgers -/

/-- The rule an ADD packet installs, without its packet count. -/
inductive Installs : Packet → FlowRule → Prop
  | drop (ipLow ipHigh val srcIp : ℤ) : Installs (.ADD 0 ipLow ipHigh val srcIp)
      (SwitchState.forget (SwitchState.addedRule ipLow ipHigh .DROP val))
  | forward (ipLow ipHigh port srcIp : ℤ) : Installs (.ADD 1 ipLow ipHigh port srcIp)
      (SwitchState.forget (SwitchState.addedRule ipLow ipHigh .FORWARD port))

/-- The steps of the exchange, as the ledgers show them. -/
inductive LedgerStep (N : Network n) (net net' : NetState n) : Prop
  | same (htable : net'.ctrl.switchInfoTable = net.ctrl.switchInfoTable)
      (h : ledger net' = ledger net)
  | register (k : Fin n)
      (htable : net'.ctrl.switchInfoTable = net.ctrl.switchInfoTable ++ [N.info k])
      (h : ledger net' = ledger net)
  | ask (k : Fin n) (q : Request) (hup : (ledger net k).up = []) (hdown : (ledger net k).down = [])
      (hmiss : ∀ r ∈ (ledger net k).rules, ¬ r.covers q.destIp)
      (htable : net'.ctrl.switchInfoTable = net.ctrl.switchInfoTable)
      (h : ledger net' = Function.update (ledger net) k
        { ledger net k with asked := (ledger net k).asked ++ [q], up := [q] })
  | answer (k : Fin n) (slot : ℤ) (q : Request) (hup : (ledger net k).up = [q])
      (hdown : (ledger net k).down = [])
      (htable : net'.ctrl.switchInfoTable = net.ctrl.switchInfoTable)
      (h : ledger net' = Function.update (ledger net) k
        { ledger net k with
          up := []
          answered := (ledger net k).answered ++ [⟨q, slot, net.ctrl.switchInfoTable.length⟩]
          down := [(q.cause,
            ControllerState.answer net.ctrl.switchInfoTable slot q.srcIp q.destIp)] })
  | install (k : Fin n) (c : ℕ) (packet : Packet) (rule : FlowRule)
      (hdown : (ledger net k).down = [(c, packet)]) (hrule : Installs packet rule)
      (htable : net'.ctrl.switchInfoTable = net.ctrl.switchInfoTable)
      (h : ledger net' = Function.update (ledger net) k
        { ledger net k with
          down := []
          added := (ledger net k).added ++ [(c, packet)]
          rules := (ledger net k).rules ++ [rule] })

section Steps

variable {k : Fin n} {c : ℕ}

/-- The ledgers after a step that only touches that of switch `k`. -/
theorem ledger_eq_update {l : Ledger} (hk : ledger net' k = l)
    (hothers : ∀ j, j ≠ k → ledger net' j = ledger net j) :
    ledger net' = Function.update (ledger net) k l := by
  funext j
  by_cases hj : j = k
  · subst hj
    rw [Function.update_self, hk]
  · rw [Function.update_of_ne hj, hothers j hj]

theorem ledger_miss {s : SwitchState} {srcIp destIp : ℤ} (hw : WellFormed N net)
    (hs : SwitchState.Quiet (net.sw k) s) (hack : (net.sw k).ackReceived = true)
    (hadd : (net.sw k).addReceived = true)
    (hmatch : SwitchState.matchRule destIp (net.sw k).flowTable = none) :
    LedgerStep N net (net.admitLine k srcIp destIp (s.countAdmit.sendQuery srcIp destIp)) := by
  obtain ⟨-, -, hup, hdown⟩ := (hw.phase k).idle_of_flags hack hadd
  have hfd : s.countAdmit.fdAt 0 = .controller := by
    simp [SwitchState.fdAt, ((hw.switch k).quiet hs).countAdmit.fd0]
  have hlog : (net.admitLine k srcIp destIp (s.countAdmit.sendQuery srcIp destIp)).log = net.log ++
      [.admitted k net.lineCount srcIp destIp,
        .wrote k (some net.lineCount) ⟨.controller, .QUERY srcIp destIp⟩] := by
    simp [NetState.admitLine, NetState.moveSwitch, NetState.sendAll, SwitchState.sendQuery, hfd]
  refine .ask k ⟨net.lineCount, srcIp, destIp⟩ (by simp [ledger, hup]) (by simp [ledger, hdown])
    ?_ rfl (ledger_eq_update ?_ ?_)
  · intro r hr
    obtain ⟨rule, hrule, rfl⟩ := List.mem_map.mp hr
    exact SwitchState.matchRule_eq_none hmatch rule hrule
  · have hflow : s.countAdmit.flowTable = (net.sw k).flowTable := hs.flowTable
    simp only [ledger, hlog, List.filterMap_append, List.filterMap_cons]
    simp [NetState.admitLine, NetState.moveSwitch, NetState.sendAll, SwitchState.sendQuery, hflow,
      hup, hfd, Msg.asked?]
  · intro j hj
    simp only [ledger, hlog, List.filterMap_append, List.filterMap_cons]
    simp [NetState.admitLine, NetState.moveSwitch, NetState.sendAll, Function.update_of_ne hj,
      Ne.symm hj]

theorem ledger_queried {i srcIp destIp : ℤ} (hw : WellFormed N net)
    (hfd : net.ctrl.pfds i = some (.switch k)) (hsrc : IsIp srcIp) (hdest : IsIp destIp)
    (hup : net.up k = [⟨some c, .QUERY srcIp destIp⟩]) :
    LedgerStep N net (net.serve i k ⟨some c, .QUERY srcIp destIp⟩ []
      (net.ctrl.handleQuery i srcIp destIp)) := by
  obtain ⟨hstarted, -, hdown⟩ := (hw.phase k).querying_of_up hup
  have hserves := hw.serves_query hfd ⟨hstarted, by simp [hup]⟩ hsrc hdest
  have hlog : (net.serve i k ⟨some c, .QUERY srcIp destIp⟩ []
      (net.ctrl.handleQuery i srcIp destIp)).log = net.log ++
        [.served i k (some c) net.ctrl.switchInfoTable.length (.QUERY srcIp destIp)
          (net.ctrl.handleQuery i srcIp destIp).2] := rfl
  refine .answer k i ⟨c, srcIp, destIp⟩ (by simp [ledger, hup, Msg.asked?])
    (by simp [ledger, hdown]) (handleQuery_switchInfoTable _ _ _ _) (ledger_eq_update ?_ ?_)
  · have hadd : Msg.added? ⟨some c, ControllerState.answer net.ctrl.switchInfoTable i srcIp
        destIp⟩ = some (c, ControllerState.answer net.ctrl.switchInfoTable i srcIp destIp) := by
      unfold ControllerState.answer
      split <;> rfl
    simp only [ledger, hlog, serve_up, serve_down hserves.reply]
    simp [NetState.serve, NetState.replyAll, hdown, hadd]
  · intro j hj
    simp only [ledger, hlog, serve_up, serve_down hserves.reply]
    simp [NetState.serve, NetState.replyAll, hj, Ne.symm hj]

/-- The handling of an ADD that pushes `rule`. -/
theorem ledger_receiveDown {action ipLow ipHigh val srcIp : ℤ} {rule : FlowRule}
    {r : SwitchState × List Write}
    (hdown : net.down k = [⟨some c, .ADD action ipLow ipHigh val srcIp⟩])
    (hrule : Installs (.ADD action ipLow ipHigh val srcIp) rule)
    (hflow : r.1.flowTable.map SwitchState.forget =
      (net.sw k).flowTable.map SwitchState.forget ++ [rule]) (hwrites : RelayWrites r.2) :
    LedgerStep N net
      (net.receiveDown k ⟨some c, .ADD action ipLow ipHigh val srcIp⟩ [] r) := by
  have hup : (net.receiveDown k ⟨some c, .ADD action ipLow ipHigh val srcIp⟩ [] r).up = net.up :=
    hwrites.sendAll_up
  have hlog : (net.receiveDown k ⟨some c, .ADD action ipLow ipHigh val srcIp⟩ [] r).log =
      net.log ++ (.handled k (some c) socketIdx (.ADD action ipLow ipHigh val srcIp) ::
        r.2.map (Event.wrote k (some c))) := by
    simp [NetState.receiveDown, NetState.moveSwitch, NetState.sendAll]
  have hsilent := filterMap_silent (silent_writes hwrites k (some c))
  refine .install k c (.ADD action ipLow ipHigh val srcIp) rule
    (by simp [ledger, hdown, Msg.added?]) hrule rfl (ledger_eq_update ?_ ?_)
  · obtain ⟨h1, h2, h3⟩ := hsilent k
    simp only [ledger, hlog, hup, List.filterMap_append, List.filterMap_cons, h1, h2, h3]
    simp [NetState.receiveDown, NetState.moveSwitch, NetState.sendAll, hflow]
  · intro j hj
    obtain ⟨h1, h2, h3⟩ := hsilent j
    simp only [ledger, hlog, hup, List.filterMap_append, List.filterMap_cons, h1, h2, h3]
    simp [NetState.receiveDown, NetState.moveSwitch, NetState.sendAll, Function.update_of_ne hj,
      Ne.symm hj]

end Steps

/-- What a step does to the ledgers. -/
theorem Transition.ledger {a : Action n} (hw : WellFormed N net)
    (h : Transition N net a net') : LedgerStep N net net' := by
  cases h with
  | start k hk =>
    obtain ⟨-, hup, -⟩ := (hw.phase k).fresh_of_started hk
    refine .same rfl (funext fun j => ?_)
    have hsent : ((net.start N k).up j).filterMap Msg.asked? = (net.up j).filterMap Msg.asked? := by
      by_cases hj : j = k
      · subst hj
        simp [start_up, SwitchState.openPacket, Msg.asked?]
      · simp [start_up, hj]
    simp only [Sdn.ledger, hsent]
    simp [NetState.start, NetState.sendAll, Event.asked?]
  | accept k rest hk => exact .same rfl rfl
  | quiet k now ms s hs hheader hk =>
    refine .same rfl (funext fun j => ledger_of_silent [] ?_ (by simp) ?_ rfl ?_)
    · simp [NetState.moveSwitch, NetState.sendAll]
    · exact congrFun RelayWrites.nil.sendAll_up j
    · by_cases hj : j = k
      · subst hj
        simp [NetState.moveSwitch, NetState.sendAll, hs.flowTable]
      · simp [NetState.moveSwitch, NetState.sendAll, Function.update_of_ne hj]
  | hit k now ms srcIp destIp s rule flowTable hs hheader hack hadd hsrc hdest hmatch =>
    have hok : SwitchOk (N.cfg k) s.countAdmit := ((hw.switch k).quiet hs).countAdmit
    have hmatch' : SwitchState.matchRule destIp s.countAdmit.flowTable =
        some (rule, flowTable) := by
      rw [← hmatch, ← hs.flowTable]
      rfl
    have hwrites := hok.useRule_writes hsrc hdest hmatch'
    refine .same rfl (funext fun j => ledger_of_silent
      (.admitted k net.lineCount srcIp destIp ::
        (s.countAdmit.useRule (N.cfg k) rule flowTable srcIp destIp).2.map
          (Event.wrote k (some net.lineCount))) ?_ ?_ ?_ rfl ?_)
    · simp [NetState.admitLine, NetState.moveSwitch, NetState.sendAll]
    · intro e he
      rcases List.mem_cons.mp he with rfl | he
      · exact silent_admitted _ _ _ _
      · exact silent_writes hwrites k _ e he
    · exact congrFun hwrites.sendAll_up j
    · by_cases hj : j = k
      · subst hj
        simp [NetState.admitLine, NetState.moveSwitch, NetState.sendAll,
          SwitchState.useRule_flowTable, (SwitchState.matchRule_eq_some hmatch).2]
      · simp [NetState.admitLine, NetState.moveSwitch, NetState.sendAll, Function.update_of_ne hj]
  | miss k now ms srcIp destIp s hs hheader hack hadd hsrc hdest hmatch =>
    exact ledger_miss hw hs hack hadd hmatch
  | opened i k hfd hup =>
    have hreply := (hw.serves_open hfd (N.info k)).reply
    refine .register k rfl (funext fun j => ?_)
    simp only [Sdn.ledger, serve_up, serve_down hreply]
    by_cases hj : j = k
    · subst hj
      simp [NetState.serve, NetState.replyAll, hup, SwitchState.openPacket, Msg.asked?,
        Msg.added?, Event.answered?]
    · simp [NetState.serve, NetState.replyAll, hj, SwitchState.openPacket, Event.answered?]
  | queried i k c srcIp destIp hfd hsrc hdest hup => exact ledger_queried hw hfd hsrc hdest hup
  | acked k hdown =>
    refine .same rfl (funext fun j => ?_)
    have hup : (net.receiveDown k ⟨none, .ACK⟩ [] ((net.sw k).handleAck, [])).up = net.up :=
      RelayWrites.nil.sendAll_up
    simp only [Sdn.ledger, hup]
    by_cases hj : j = k
    · subst hj
      simp [NetState.receiveDown, NetState.moveSwitch, NetState.sendAll, SwitchState.handleAck,
        hdown, Msg.added?, Event.added?]
    · simp [NetState.receiveDown, NetState.moveSwitch, NetState.sendAll, Function.update_of_ne hj,
        Event.added?]
  | dropped k c srcIp destIp hsrc hdest hdown =>
    refine ledger_receiveDown hdown (.drop destIp destIp 0 srcIp) ?_ .nil
    simp [SwitchState.pushRule]
  | forwarded k t c srcIp destIp port hsrc hdest ht hport hdown =>
    have hok := (hw.switch k).addReceived
    refine ledger_receiveDown hdown (.forward _ _ port srcIp) ?_ ?_
    · simp [SwitchState.handleForward_fst, SwitchState.pushRule, SwitchState.countRelayOut]
    · rw [SwitchState.handleForward_writes _ _ _ _ _ _ _ hok.closed]
      simp only [RelayWrites, List.mem_singleton, forall_eq]
      exact ⟨hok.outFd_ne (by omega), srcIp, _, rfl, hsrc, (N.cfg t).low_isIp⟩
  | relayed k port name c srcIp destIp rest hk hname hsrc hdest hfifo =>
    have hwrites := (hw.switch k).handleRelay_writes port hsrc hdest
    refine .same rfl (funext fun j => ledger_of_silent
      (.handled k c port (.RELAY srcIp destIp) ::
        ((net.sw k).handleRelay (N.cfg k) port srcIp destIp).2.map (Event.wrote k c))
      ?_ ?_ ?_ rfl ?_)
    · simp [NetState.receiveFifo, NetState.moveSwitch, NetState.sendAll]
    · intro e he
      rcases List.mem_cons.mp he with rfl | he
      · exact silent_handled_relay k c port srcIp destIp
      · exact silent_writes hwrites k c e he
    · exact congrFun hwrites.sendAll_up j
    · by_cases hj : j = k
      · subst hj
        simp [NetState.receiveFifo, NetState.moveSwitch, NetState.sendAll,
          SwitchState.handleRelay_flowTable]
      · simp [NetState.receiveFifo, NetState.moveSwitch, NetState.sendAll,
          Function.update_of_ne hj]

/-! ## Nothing is lost or reordered on a socket -/

/-- The packet sent as `a`. -/
def replyOf (table : List SwitchInfo) (a : Answer) : ℕ × Packet :=
  (a.request.cause,
    ControllerState.answer (table.take a.known) a.label a.request.srcIp a.request.destIp)

/-- In each direction, what was sent is what was handled followed by what is on
    the socket. -/
structure Conserved (table : List SwitchInfo) (l : Ledger) : Prop where
  up : l.asked = l.answered.map RemoteCache.Answer.request ++ l.up
  known : ∀ a ∈ l.answered, a.known ≤ table.length
  down : l.answered.map (replyOf table) = l.added ++ l.down

theorem LedgerStep.conserved (h : LedgerStep N net net')
    (hc : ∀ k, Conserved net.ctrl.switchInfoTable (ledger net k)) (k : Fin n) :
    Conserved net'.ctrl.switchInfoTable (ledger net' k) := by
  have hupdate : ∀ j l, Conserved net.ctrl.switchInfoTable l →
      Conserved net.ctrl.switchInfoTable (Function.update (ledger net) j l k) := by
    intro j l hl
    by_cases hk : k = j
    · subst hk
      simpa using hl
    · simpa [Function.update_of_ne hk] using hc k
  cases h with
  | same htable h =>
    rw [htable, h]
    exact hc k
  | register j htable h =>
    rw [htable, h]
    obtain ⟨hup, hknown, hdown⟩ := hc k
    refine ⟨hup, fun a ha => ?_, ?_⟩
    · have := hknown a ha
      simp only [List.length_append]
      omega
    · rw [← hdown]
      refine List.map_congr_left fun a ha => ?_
      simp only [replyOf, List.take_append_of_le_length (hknown a ha)]
  | ask j q hup hdown hmiss htable h =>
    rw [htable, h]
    obtain ⟨hasked, hknown, hadded⟩ := hc j
    refine hupdate j _ ⟨?_, hknown, hadded⟩
    simp only [hasked, hup, List.append_nil]
  | answer j slot q hup hdown htable h =>
    rw [htable, h]
    obtain ⟨hasked, hknown, hadded⟩ := hc j
    refine hupdate j _ ⟨?_, ?_, ?_⟩
    · simp only [hasked, hup, List.map_append, List.map_cons, List.map_nil, List.append_nil]
    · intro a ha
      rcases List.mem_append.mp ha with ha | ha
      · exact hknown a ha
      · rw [List.mem_singleton.mp ha]
    · rw [hdown, List.append_nil] at hadded
      simp [List.map_append, hadded, replyOf]
  | install j c packet rule hdown hrule htable h =>
    rw [htable, h]
    obtain ⟨hasked, hknown, hadded⟩ := hc j
    refine hupdate j _ ⟨hasked, hknown, ?_⟩
    simp only [hadded, hdown, List.append_nil]

/-- Both directions of every socket, in every reachable state. -/
theorem conserved_of_reachable (h : N.system.Reachable net) (k : Fin n) :
    Conserved net.ctrl.switchInfoTable (ledger net k) := by
  have hall : ∀ k, Conserved net.ctrl.switchInfoTable (ledger net k) := by
    refine System.Reachable.invariant
      (I := fun net => ∀ k, Conserved net.ctrl.switchInfoTable (ledger net k)) ?_ ?_ h
    · rintro _ rfl k
      exact ⟨rfl, by simp [ledger, Network.initState], rfl⟩
    · intro s a t hs hc hstep
      exact ((transition_of_reachable hs hstep).ledger (wellFormed_of_reachable hs)).conserved hc
  exact hall k

end Cmput379.Sdn
