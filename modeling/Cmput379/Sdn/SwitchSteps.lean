import Cmput379.Sdn.Steps

/-!
# What the steps of a switch keep

One lemma for each transition of a switch, from lemmas about the parts of
`WellFormed` that several transitions share.

* `Phase.of_control`: a switch that keeps its `control` variables keeps its phase.
* `WellFormed.of_switch`, `WellFormed.of_relay`: a step of one switch, from what it
  does to its own part of the state; RELAY packets touch only the FIFOs.
-/

namespace Cmput379.Sdn

open Cmput379.Lib

variable {n : ℕ} {N : Network n} {net net' : NetState n}

/-! ## Keeping a phase -/

theorem Flags.congr {s s' : SwitchState} {a b : Bool} {p : ℤ} (h : Flags s a b p)
    (hc : s'.control = s.control) : Flags s' a b p := by
  obtain ⟨hack, hadd, hcounts⟩ := h
  simp only [SwitchState.control, Prod.mk.injEq] at hc
  obtain ⟨h1, h2, h3, h4, -, -⟩ := hc
  exact ⟨by rw [h1, hack], by rw [h2, hadd], by rw [h3, h4, hcounts]⟩

/-- The socket of switch `k` and whether it has started. -/
def SameSocket (net net' : NetState n) (k : Fin n) : Prop :=
  net'.started k = net.started k ∧ net'.up k = net.up k ∧ net'.down k = net.down k

theorem Phase.congr {k : Fin n} (h : Phase N net k) (hs : SameSocket net net' k)
    (hsw : net'.sw k = net.sw k) : Phase N net' k := by
  obtain ⟨hst, hup, hdown⟩ := hs
  cases h with
  | fresh started sw up down => exact .fresh (hst ▸ started) (hsw ▸ sw) (hup ▸ up) (hdown ▸ down)
  | opening started flags up down =>
    exact .opening (hst ▸ started) (hsw ▸ flags) (hup ▸ up) (hdown ▸ down)
  | acking started flags up down =>
    exact .acking (hst ▸ started) (hsw ▸ flags) (hup ▸ up) (hdown ▸ down)
  | idle started flags up down =>
    exact .idle (hst ▸ started) (hsw ▸ flags) (hup ▸ up) (hdown ▸ down)
  | querying started flags c srcIp destIp hsrc hdest up down =>
    exact .querying (hst ▸ started) (hsw ▸ flags) c srcIp destIp hsrc hdest (hup ▸ up)
      (hdown ▸ down)
  | adding started flags c srcIp destIp answer hsrc hdest hanswer up down =>
    exact .adding (hst ▸ started) (hsw ▸ flags) c srcIp destIp answer hsrc hdest hanswer
      (hup ▸ up) (hdown ▸ down)

/-- A started switch may change everything but its control variables. -/
theorem Phase.of_control {k : Fin n} (h : Phase N net k) (hs : SameSocket net net' k)
    (hk : net.started k = true) (hc : (net'.sw k).control = (net.sw k).control) :
    Phase N net' k := by
  obtain ⟨hst, hup, hdown⟩ := hs
  cases h with
  | fresh started sw up down => simp [hk] at started
  | opening started flags up down =>
    exact .opening (hst ▸ started) (flags.congr hc) (hup ▸ up) (hdown ▸ down)
  | acking started flags up down =>
    exact .acking (hst ▸ started) (flags.congr hc) (hup ▸ up) (hdown ▸ down)
  | idle started flags up down =>
    exact .idle (hst ▸ started) (flags.congr hc) (hup ▸ up) (hdown ▸ down)
  | querying started flags c srcIp destIp hsrc hdest up down =>
    exact .querying (hst ▸ started) (flags.congr hc) c srcIp destIp hsrc hdest (hup ▸ up)
      (hdown ▸ down)
  | adding started flags c srcIp destIp answer hsrc hdest hanswer up down =>
    exact .adding (hst ▸ started) (flags.congr hc) c srcIp destIp answer hsrc hdest hanswer
      (hup ▸ up) (hdown ▸ down)

/-! ## Reading a phase off the flags or the socket -/

theorem Phase.started_of_ack {k : Fin n} (h : Phase N net k)
    (hack : (net.sw k).ackReceived = true) : net.started k = true := by
  cases h with
  | fresh started sw up down => simp [sw, SwitchState.init] at hack
  | opening started | acking started | idle started | querying started | adding started =>
    exact started

/-- A switch that reads its traffic file has an empty socket. -/
theorem Phase.idle_of_flags {k : Fin n} (h : Phase N net k)
    (hack : (net.sw k).ackReceived = true) (hadd : (net.sw k).addReceived = true) :
    net.started k = true ∧ Flags (net.sw k) true true 0 ∧ net.up k = [] ∧ net.down k = [] := by
  cases h with
  | fresh started sw up down => simp [sw, SwitchState.init] at hack
  | opening started flags up down => simp [flags.ack] at hack
  | acking started flags up down => simp [flags.ack] at hack
  | idle started flags up down => exact ⟨started, flags, up, down⟩
  | querying started flags => simp [flags.add] at hadd
  | adding started flags => simp [flags.add] at hadd

/-! ## RELAY packets -/

/-- The packets of `writes` are RELAYs with addresses of the network, and none
    goes to the controller. -/
def RelayWrites (writes : List Write) : Prop :=
  ∀ w ∈ writes, w.fd ≠ .controller ∧
    ∃ srcIp destIp, w.packet = .RELAY srcIp destIp ∧ IsIp srcIp ∧ IsIp destIp

theorem RelayWrites.nil : RelayWrites [] := by simp [RelayWrites]

/-- The FIFOs hold RELAYs only. -/
def FifoOk (net : NetState n) : Prop :=
  ∀ name, ∀ m ∈ net.fifo name, ∃ srcIp destIp,
    m.packet = .RELAY srcIp destIp ∧ IsIp srcIp ∧ IsIp destIp

theorem FifoOk.sendAll {k : Fin n} {c : Option ℕ} {writes : List Write} (h : FifoOk net)
    (hw : ∀ w ∈ writes, ∀ name, w.fd = .fifo name → ∃ srcIp destIp,
      w.packet = .RELAY srcIp destIp ∧ IsIp srcIp ∧ IsIp destIp) :
    FifoOk (net.sendAll k c writes) := by
  intro name m hm
  simp only [NetState.sendAll, List.mem_append, List.mem_map, List.mem_filter,
    decide_eq_true_eq] at hm
  rcases hm with hm | ⟨w, ⟨hw', hfd⟩, rfl⟩
  · exact h name m hm
  · exact hw w hw' name hfd

theorem RelayWrites.sendAll_up {k : Fin n} {c : Option ℕ} {writes : List Write}
    (h : RelayWrites writes) : (net.sendAll k c writes).up = net.up := by
  have hnone : writes.filter (fun w => w.fd = .controller) = [] := by
    simp only [List.filter_eq_nil_iff, decide_eq_true_eq]
    exact fun w hw => (h w hw).1
  simp [NetState.sendAll, hnone]

/-! ## The variables of a switch -/

theorem SwitchOk.congr {cfg : SwitchConfig} {s s' : SwitchState} (h : SwitchOk cfg s)
    (hc : s'.control = s.control) (hfd : s'.portToFd = s.portToFd)
    (hrules : ∀ rule ∈ s'.flowTable, rule.actionType = .FORWARD →
      rule.actionVal = 1 ∨ rule.actionVal = 2 ∨ rule.actionVal = 3) : SwitchOk cfg s' := by
  simp only [SwitchState.control, Prod.mk.injEq] at hc
  obtain ⟨-, -, -, -, hclosed, hid⟩ := hc
  exact ⟨by rw [hclosed, h.closed], by rw [hid, h.portToId], by rw [hfd, h.fd0],
    by rw [hfd, hid]; exact h.fd, hrules⟩

theorem SwitchOk.init (cfg : SwitchConfig) (lines : List Text) :
    SwitchOk cfg (.init cfg lines) where
  closed := rfl
  portToId := rfl
  fd0 := by simp [SwitchState.init]
  fd := by
    intro port fd hport h
    simp [SwitchState.init, hport] at h
  rules := by
    intro rule h _
    simp only [SwitchState.init, List.mem_singleton] at h
    subst h
    exact .inr (.inr rfl)

theorem SwitchOk.addReceived {cfg : SwitchConfig} {s : SwitchState} (h : SwitchOk cfg s) :
    SwitchOk cfg { s with addReceived := true } :=
  ⟨h.closed, h.portToId, h.fd0, h.fd, h.rules⟩

/-- Opening a port for writing, or finding it open. -/
theorem SwitchOk.update_outFd {cfg : SwitchConfig} {s s' : SwitchState} (h : SwitchOk cfg s)
    {port : ℤ} (hc : s'.control = s.control) (hport : port ≠ 0)
    (hfd : s'.portToFd = Function.update s.portToFd port (some (s.outFd cfg port)))
    (hrules : ∀ rule ∈ s'.flowTable, rule.actionType = .FORWARD →
      rule.actionVal = 1 ∨ rule.actionVal = 2 ∨ rule.actionVal = 3) : SwitchOk cfg s' := by
  simp only [SwitchState.control, Prod.mk.injEq] at hc
  obtain ⟨-, -, -, -, hclosed, hid⟩ := hc
  refine ⟨by rw [hclosed, h.closed], by rw [hid, h.portToId], ?_, ?_, hrules⟩
  · rw [hfd, Function.update_of_ne hport.symm, h.fd0]
  · intro p fd hp hpfd
    rw [hid]
    by_cases heq : p = port
    · subst heq
      rw [hfd, Function.update_self, Option.some.injEq, SwitchState.outFd] at hpfd
      cases hopen : s.portToFd p with
      | none => right; rw [← hpfd, hopen]; rfl
      | some fd' =>
        rw [hopen, Option.getD_some] at hpfd
        exact h.fd p fd hp (hpfd ▸ hopen)
    · rw [hfd, Function.update_of_ne heq] at hpfd
      exact h.fd p fd hp hpfd

/-- No port but 0 is written to the controller. -/
theorem SwitchOk.outFd_ne {cfg : SwitchConfig} {s : SwitchState} (h : SwitchOk cfg s) {port : ℤ}
    (hport : port ≠ 0) : s.outFd cfg port ≠ .controller := by
  unfold SwitchState.outFd
  cases hopen : s.portToFd port with
  | none => simp
  | some fd => rcases h.fd port fd hport hopen with rfl | rfl <;> simp

theorem SwitchOk.fdAt_ne {cfg : SwitchConfig} {s : SwitchState} (h : SwitchOk cfg s) {port : ℤ}
    (hport : port ≠ 0) : s.fdAt port ≠ .controller := by
  unfold SwitchState.fdAt
  cases hopen : s.portToFd port with
  | none => simp [default]
  | some fd => rcases h.fd port fd hport hopen with rfl | rfl <;> simp

theorem SwitchOk.quiet {cfg : SwitchConfig} {s s' : SwitchState} (h : SwitchOk cfg s)
    (hq : SwitchState.Quiet s s') : SwitchOk cfg s' :=
  h.congr hq.control hq.portToFd (by rw [hq.flowTable]; exact h.rules)

/-- Rules that differ in packet counts only have the same actions. -/
theorem rules_of_forget {table table' : List FlowRule}
    (h : table'.map SwitchState.forget = table.map SwitchState.forget)
    (hrules : ∀ rule ∈ table, rule.actionType = .FORWARD →
      rule.actionVal = 1 ∨ rule.actionVal = 2 ∨ rule.actionVal = 3) :
    ∀ rule ∈ table', rule.actionType = .FORWARD →
      rule.actionVal = 1 ∨ rule.actionVal = 2 ∨ rule.actionVal = 3 := by
  intro rule hrule hfwd
  have hmem : SwitchState.forget rule ∈ table.map SwitchState.forget :=
    h ▸ List.mem_map_of_mem hrule
  obtain ⟨rule', hrule', heq⟩ := List.mem_map.mp hmem
  simp only [SwitchState.forget, FlowRule.mk.injEq] at heq
  obtain ⟨-, -, -, -, htype, hval, -, -⟩ := heq
  rw [← hval]
  exact hrules rule' hrule' (htype.trans hfwd)

/-! ## Slots -/

theorem SlotsOk.congr (h : SlotsOk N net) (hpfds : net'.ctrl.pfds = net.ctrl.pfds)
    (hfd : net'.ctrl.idToFd = net.ctrl.idToFd) (hidx : net'.ctrl.socketIdx = net.ctrl.socketIdx)
    (hstarted : net'.started = net.started) (hbacklog : net'.backlog = net.backlog)
    (hopened : ∀ k, Opened net' k ↔ Opened net k) : SlotsOk N net' where
  inj := by rw [hpfds]; exact h.inj
  range := by rw [hpfds, hidx]; exact h.range
  started := by rw [hpfds, hstarted]; exact h.started
  backlog := by
    rw [hbacklog, hstarted, hpfds]
    simp only [hopened]
    exact h.backlog
  nodup := by rw [hbacklog]; exact h.nodup
  fd := by rw [hfd, hpfds, hidx]; exact h.fd
  opened := by
    rw [hpfds, hfd]
    simp only [hopened]
    exact h.opened
  idx := by rw [hidx]; exact h.idx
  placed := by rw [hstarted, hbacklog, hpfds]; exact h.placed
  filled := by rw [hidx, hpfds]; exact h.filled

theorem Opened.congr {k : Fin n} (hstarted : net'.started k = net.started k)
    (hup : net'.up k = net.up k) : Opened net' k ↔ Opened net k := by
  simp only [Opened, hstarted, hup]

/-! ## The transitions of a switch -/

/-- A step of one switch, from what it does to its own part of the state. -/
theorem WellFormed.of_switch (hw : WellFormed N net) (k : Fin n)
    (hctrl : net'.ctrl = net.ctrl) (hstarted : net'.started = net.started)
    (hbacklog : net'.backlog = net.backlog)
    (hothers : ∀ j, j ≠ k →
      net'.up j = net.up j ∧ net'.down j = net.down j ∧ net'.sw j = net.sw j)
    (hopened : Opened net' k ↔ Opened net k) (hphase : Phase N net' k)
    (hok : SwitchOk (N.cfg k) (net'.sw k)) (hfifo : FifoOk net') : WellFormed N net' where
  closed := by rw [hctrl]; exact hw.closed
  numSwitches := by rw [hctrl]; exact hw.numSwitches
  table := by rw [hctrl]; exact hw.table
  registered := by
    intro j hj
    rw [hctrl]
    refine hw.registered j ?_
    by_cases hjk : j = k
    · subst hjk
      exact hopened.mp hj
    · exact (Opened.congr (by rw [hstarted]) (hothers j hjk).1).mp hj
  slots := by
    refine hw.slots.congr (by rw [hctrl]) (by rw [hctrl]) (by rw [hctrl]) hstarted hbacklog ?_
    intro j
    by_cases hj : j = k
    · exact hj ▸ hopened
    · exact Opened.congr (by rw [hstarted]) (hothers j hj).1
  phase := by
    intro j
    by_cases hj : j = k
    · exact hj ▸ hphase
    · obtain ⟨hup, hdown, hsw⟩ := hothers j hj
      exact (hw.phase j).congr ⟨by rw [hstarted], hup, hdown⟩ hsw
  switch := by
    intro j
    by_cases hj : j = k
    · exact hj ▸ hok
    · rw [(hothers j hj).2.2]
      exact hw.switch j
  fifo := hfifo

/-- A started switch that only changes its flow table, its packet counts and the
    FIFOs. -/
theorem WellFormed.of_relay {k : Fin n} (hw : WellFormed N net) (hk : net.started k = true)
    (hctrl : net'.ctrl = net.ctrl) (hstarted : net'.started = net.started)
    (hbacklog : net'.backlog = net.backlog) (hup : net'.up = net.up) (hdown : net'.down = net.down)
    (hsw : ∀ j, j ≠ k → net'.sw j = net.sw j)
    (hc : (net'.sw k).control = (net.sw k).control) (hok : SwitchOk (N.cfg k) (net'.sw k))
    (hfifo : FifoOk net') : WellFormed N net' := by
  have hsame : SameSocket net net' k := ⟨by rw [hstarted], by rw [hup], by rw [hdown]⟩
  refine hw.of_switch k hctrl hstarted hbacklog ?_ ?_ ((hw.phase k).of_control hsame hk hc) hok
    hfifo
  · intro j hj
    exact ⟨by rw [hup], by rw [hdown], hsw j hj⟩
  · exact Opened.congr hsame.1 hsame.2.1

/-! ### Traffic lines -/

theorem SwitchOk.countAdmit {cfg : SwitchConfig} {s : SwitchState} (h : SwitchOk cfg s) :
    SwitchOk cfg s.countAdmit :=
  h.congr rfl rfl h.rules

section UseRule

variable {cfg : SwitchConfig} {s : SwitchState} {rule : FlowRule} {flowTable : List FlowRule}
  {srcIp destIp : ℤ}

theorem rule_mem_of_match
    (hmatch : SwitchState.matchRule destIp s.flowTable = some (rule, flowTable)) :
    rule ∈ s.flowTable :=
  List.mem_of_find?_eq_some (SwitchState.matchRule_eq_some hmatch).1

/-- A FORWARD rule for a neighbour names port 1 or 2. -/
theorem SwitchOk.actionVal_ne (h : SwitchOk cfg s) (hrule : rule ∈ s.flowTable)
    (hfwd : rule.actionType = .FORWARD) : rule.actionVal ≠ 0 := by
  rcases h.rules rule hrule hfwd with hval | hval | hval <;> omega

theorem SwitchOk.useRule (h : SwitchOk cfg s)
    (hmatch : SwitchState.matchRule destIp s.flowTable = some (rule, flowTable)) :
    SwitchOk cfg (s.useRule cfg rule flowTable srcIp destIp).1 := by
  have hc := SwitchState.useRule_control cfg s rule flowTable srcIp destIp
  have hrules := rules_of_forget (SwitchState.matchRule_eq_some hmatch).2 h.rules
  have hfd := SwitchState.useRule_portToFd cfg s rule flowTable srcIp destIp
  rw [← SwitchState.useRule_flowTable cfg s rule flowTable srcIp destIp] at hrules
  split_ifs at hfd with hcond
  · exact h.update_outFd hc (h.actionVal_ne (rule_mem_of_match hmatch) hcond.1) hfd hrules
  · exact h.congr hc hfd hrules

theorem SwitchOk.useRule_writes (h : SwitchOk cfg s) (hsrc : IsIp srcIp) (hdest : IsIp destIp)
    (hmatch : SwitchState.matchRule destIp s.flowTable = some (rule, flowTable)) :
    RelayWrites (s.useRule cfg rule flowTable srcIp destIp).2 := by
  rw [SwitchState.useRule_writes cfg s rule flowTable srcIp destIp h.closed]
  split_ifs with hcond
  · have hport := h.actionVal_ne (rule_mem_of_match hmatch) hcond.1
    simp only [RelayWrites, List.mem_singleton, forall_eq]
    exact ⟨h.outFd_ne hport, srcIp, destIp, rfl, hsrc, hdest⟩
  · exact .nil

end UseRule

theorem WellFormed.quiet {k : Fin n} {s : SwitchState} (hw : WellFormed N net)
    (hk : net.started k = true) (hs : SwitchState.Quiet (net.sw k) s) :
    WellFormed N (net.moveSwitch k none (s, [])) := by
  refine hw.of_relay hk rfl rfl rfl (RelayWrites.nil.sendAll_up) rfl ?_ ?_ ?_ ?_
  · intro j hj
    exact Function.update_of_ne hj _ _
  · simpa [NetState.moveSwitch, NetState.sendAll] using hs.control
  · simpa [NetState.moveSwitch, NetState.sendAll] using (hw.switch k).quiet hs
  · exact FifoOk.sendAll hw.fifo (by simp)

theorem WellFormed.hit {k : Fin n} {s : SwitchState} {rule : FlowRule}
    {flowTable : List FlowRule} {srcIp destIp : ℤ} (hw : WellFormed N net)
    (hk : net.started k = true) (hs : SwitchState.Quiet (net.sw k) s) (hsrc : IsIp srcIp)
    (hdest : IsIp destIp)
    (hmatch : SwitchState.matchRule destIp (net.sw k).flowTable = some (rule, flowTable)) :
    WellFormed N (net.admitLine k srcIp destIp
      (s.countAdmit.useRule (N.cfg k) rule flowTable srcIp destIp)) := by
  have hok : SwitchOk (N.cfg k) s.countAdmit := ((hw.switch k).quiet hs).countAdmit
  have hmatch' : SwitchState.matchRule destIp s.countAdmit.flowTable = some (rule, flowTable) := by
    rw [← hmatch, ← hs.flowTable]
    rfl
  have hwrites := hok.useRule_writes hsrc hdest hmatch'
  refine hw.of_relay hk rfl rfl rfl hwrites.sendAll_up rfl ?_ ?_ ?_ ?_
  · intro j hj
    exact Function.update_of_ne hj _ _
  · simp only [NetState.admitLine, NetState.moveSwitch, NetState.sendAll, Function.update_self]
    rw [SwitchState.useRule_control, ← hs.control]
    rfl
  · simpa [NetState.admitLine, NetState.moveSwitch, NetState.sendAll] using hok.useRule hmatch'
  · exact FifoOk.sendAll hw.fifo fun w hmem _ _ => (hwrites w hmem).2

theorem WellFormed.miss {k : Fin n} {s : SwitchState} {srcIp destIp : ℤ}
    (hw : WellFormed N net) (hs : SwitchState.Quiet (net.sw k) s)
    (hack : (net.sw k).ackReceived = true) (hadd : (net.sw k).addReceived = true)
    (hsrc : IsIp srcIp) (hdest : IsIp destIp) :
    WellFormed N (net.admitLine k srcIp destIp (s.countAdmit.sendQuery srcIp destIp)) := by
  obtain ⟨hk, hflags, hup, hdown⟩ := (hw.phase k).idle_of_flags hack hadd
  have hok : SwitchOk (N.cfg k) s.countAdmit := ((hw.switch k).quiet hs).countAdmit
  have hfd : s.countAdmit.fdAt 0 = .controller := by
    simp [SwitchState.fdAt, hok.fd0]
  have hup' : (net.admitLine k srcIp destIp (s.countAdmit.sendQuery srcIp destIp)).up k =
      [⟨some net.lineCount, .QUERY srcIp destIp⟩] := by
    simp [NetState.admitLine, NetState.moveSwitch, NetState.sendAll, SwitchState.sendQuery, hfd,
      hup]
  have hsw : (net.admitLine k srcIp destIp (s.countAdmit.sendQuery srcIp destIp)).sw k =
      (s.countAdmit.sendQuery srcIp destIp).1 := by
    simp [NetState.admitLine, NetState.moveSwitch, NetState.sendAll]
  refine hw.of_switch k rfl rfl rfl ?_ ?_ ?_ ?_ ?_
  · intro j hj
    exact ⟨Function.update_of_ne hj _ _, rfl, Function.update_of_ne hj _ _⟩
  · simp only [Opened, hup, hup', List.mem_singleton, forall_eq, List.not_mem_nil]
    simp [NetState.admitLine, NetState.moveSwitch, NetState.sendAll]
  · refine .querying hk ?_ net.lineCount srcIp destIp hsrc hdest hup' hdown
    have hflags' := hflags.congr hs.control
    rw [hsw]
    refine ⟨hflags'.ack, rfl, ?_⟩
    have hcounts := hflags'.counts
    simp only [SwitchState.sendQuery, SwitchState.countAdmit]
    omega
  · rw [hsw]
    exact ⟨hok.closed, hok.portToId, hok.fd0, hok.fd, hok.rules⟩
  · refine FifoOk.sendAll hw.fifo ?_
    simp [SwitchState.sendQuery, hfd]

/-! ### Packets of the controller -/

section Receive

variable {k : Fin n} {c : Option ℕ} {packet : Packet} {r : SwitchState × List Write}

/-- What a switch does with the last packet on its socket. -/
theorem WellFormed.receiveDown (hw : WellFormed N net) (hk : net.started k = true)
    (hup : net.up k = []) (hflags : Flags r.1 true true 0) (hok : SwitchOk (N.cfg k) r.1)
    (hwrites : RelayWrites r.2) : WellFormed N (net.receiveDown k ⟨c, packet⟩ [] r) := by
  have hup' : (net.receiveDown k ⟨c, packet⟩ [] r).up = net.up := hwrites.sendAll_up
  refine hw.of_switch k rfl rfl rfl ?_ ?_ ?_ ?_ ?_
  · intro j hj
    rw [hup']
    exact ⟨rfl, Function.update_of_ne hj _ _, Function.update_of_ne hj _ _⟩
  · exact Opened.congr rfl (by rw [hup'])
  · refine .idle hk ?_ (by rw [hup', hup]) ?_
    · simpa [NetState.receiveDown, NetState.moveSwitch, NetState.sendAll] using hflags
    · simp [NetState.receiveDown, NetState.moveSwitch, NetState.sendAll]
  · simpa [NetState.receiveDown, NetState.moveSwitch, NetState.sendAll] using hok
  · exact FifoOk.sendAll hw.fifo fun w hmem _ _ => (hwrites w hmem).2

end Receive

theorem WellFormed.acked {k : Fin n} (hw : WellFormed N net)
    (hdown : net.down k = [⟨none, .ACK⟩]) :
    WellFormed N (net.receiveDown k ⟨none, .ACK⟩ [] ((net.sw k).handleAck, [])) := by
  have hok := hw.switch k
  cases hw.phase k with
  | acking started flags up down =>
    refine hw.receiveDown started up ⟨rfl, flags.add, flags.counts⟩ ?_ .nil
    exact ⟨hok.closed, hok.portToId, hok.fd0, hok.fd, hok.rules⟩
  | adding started flags c srcIp destIp answer hsrc hdest hanswer up down =>
    rw [down] at hdown
    cases hdown
  | fresh started sw up down => simp [down] at hdown
  | opening started flags up down => simp [down] at hdown
  | idle started flags up down => simp [down] at hdown
  | querying started flags c srcIp destIp hsrc hdest up down => simp [down] at hdown

/-- Only a switch that waits for an ADD has one on its socket. -/
theorem Phase.adding_of_down {k : Fin n} (h : Phase N net k) {c : ℕ} {packet : Packet}
    (hdown : net.down k = [⟨some c, packet⟩]) :
    net.started k = true ∧ Flags (net.sw k) true false 1 ∧ net.up k = [] ∧
      ∃ srcIp destIp, IsIp srcIp ∧ IsIp destIp ∧ IsAnswer N srcIp destIp packet := by
  cases h with
  | adding started flags c srcIp destIp answer hsrc hdest hanswer up down =>
    rw [down] at hdown
    cases hdown
    exact ⟨started, flags, up, srcIp, destIp, hsrc, hdest, hanswer⟩
  | acking started flags up down => simp [down] at hdown
  | fresh started sw up down => simp [down] at hdown
  | opening started flags up down => simp [down] at hdown
  | idle started flags up down => simp [down] at hdown
  | querying started flags c srcIp destIp hsrc hdest up down => simp [down] at hdown

theorem WellFormed.dropped {k : Fin n} {c : ℕ} {srcIp destIp : ℤ} (hw : WellFormed N net)
    (hdown : net.down k = [⟨some c, .ADD 0 destIp destIp 0 srcIp⟩]) :
    WellFormed N (net.receiveDown k ⟨some c, .ADD 0 destIp destIp 0 srcIp⟩ []
      (({ net.sw k with addReceived := true } : SwitchState).pushRule
        (SwitchState.addedRule destIp destIp .DROP 0), [])) := by
  obtain ⟨hk, hflags, hup, -⟩ := (hw.phase k).adding_of_down hdown
  have hok := hw.switch k
  refine hw.receiveDown hk hup ⟨hflags.ack, rfl, ?_⟩ ?_ .nil
  · have hcounts := hflags.counts
    simp only [SwitchState.pushRule]
    omega
  · refine ⟨hok.closed, hok.portToId, hok.fd0, hok.fd, ?_⟩
    intro rule hrule hfwd
    simp only [SwitchState.pushRule, List.mem_append, List.mem_singleton] at hrule
    rcases hrule with hrule | rfl
    · exact hok.rules rule hrule hfwd
    · cases hfwd

theorem WellFormed.forwarded {k t : Fin n} {c : ℕ} {srcIp port : ℤ} (hw : WellFormed N net)
    (hsrc : IsIp srcIp) (hport : port = 1 ∨ port = 2)
    (hdown : net.down k = [⟨some c, .ADD 1 (N.cfg t).ipLow (N.cfg t).ipHigh port srcIp⟩]) :
    WellFormed N (net.receiveDown k ⟨some c, .ADD 1 (N.cfg t).ipLow (N.cfg t).ipHigh port srcIp⟩ []
      (({ net.sw k with addReceived := true } : SwitchState).handleForward (N.cfg k) socketIdx
        (N.cfg t).ipLow (N.cfg t).ipHigh port srcIp)) := by
  obtain ⟨hk, hflags, hup, -⟩ := (hw.phase k).adding_of_down hdown
  have hok := (hw.switch k).addReceived
  have hne : port ≠ 0 := by omega
  have hctl := SwitchState.openPort_control (N.cfg k) { net.sw k with addReceived := true } port
  refine hw.receiveDown hk hup ?_ ?_ ?_
  · rw [SwitchState.handleForward_fst]
    simp only [SwitchState.control, Prod.mk.injEq] at hctl
    obtain ⟨hack, hadd, hquery, haddc, -, -⟩ := hctl
    refine ⟨hack.trans hflags.ack, hadd, ?_⟩
    have hcounts := hflags.counts
    simp only [SwitchState.pushRule, SwitchState.countRelayOut]
    omega
  · rw [SwitchState.handleForward_fst]
    have hrules : ∀ rule ∈ (({ net.sw k with addReceived := true } : SwitchState).openPort
        (N.cfg k) port).flowTable, rule.actionType = .FORWARD →
        rule.actionVal = 1 ∨ rule.actionVal = 2 ∨ rule.actionVal = 3 := by
      rw [SwitchState.openPort_flowTable]
      exact hok.rules
    have hopen := hok.update_outFd hctl hne
      (SwitchState.openPort_portToFd (N.cfg k) _ port) hrules
    refine ⟨hopen.closed, hopen.portToId, hopen.fd0, hopen.fd, ?_⟩
    intro rule hrule hfwd
    simp only [SwitchState.pushRule, List.mem_append, List.mem_singleton] at hrule
    rcases hrule with hrule | rfl
    · exact hrules rule hrule hfwd
    · rcases hport with rfl | rfl <;> simp [SwitchState.addedRule]
  · rw [SwitchState.handleForward_writes _ _ _ _ _ _ _ hok.closed]
    simp only [RelayWrites, List.mem_singleton, forall_eq]
    exact ⟨hok.outFd_ne hne, srcIp, _, rfl, hsrc, (N.cfg t).low_isIp⟩

/-! ### RELAY packets of a neighbour -/

theorem SwitchOk.handleRelay {cfg : SwitchConfig} {s : SwitchState} (h : SwitchOk cfg s)
    (i srcIp destIp : ℤ) : SwitchOk cfg (s.handleRelay cfg i srcIp destIp).1 := by
  have hc := SwitchState.handleRelay_control cfg s srcIp destIp i
  have hfd := SwitchState.handleRelay_portToFd cfg s srcIp destIp i
  simp only [SwitchState.control, Prod.mk.injEq] at hc
  obtain ⟨-, -, -, -, hclosed, hid⟩ := hc
  refine ⟨by rw [hclosed, h.closed], by rw [hid, h.portToId], ?_, ?_, ?_⟩
  · rcases hfd 0 with h0 | ⟨h0, -⟩
    · rw [h0, h.fd0]
    · exact absurd rfl h0
  · intro port fd hport hopen
    rw [hid]
    rcases hfd port with hsame | ⟨-, hnew⟩
    · exact h.fd port fd hport (hsame ▸ hopen)
    · rw [hnew, Option.some.injEq, SwitchState.fdAt] at hopen
      cases hold : s.portToFd port with
      | none => left; rw [← hopen, hold]; rfl
      | some fd' =>
        rw [hold, Option.getD_some] at hopen
        exact h.fd port fd hport (hopen ▸ hold)
  · rw [SwitchState.handleRelay_flowTable]
    exact h.rules

theorem SwitchOk.handleRelay_writes {cfg : SwitchConfig} {s : SwitchState} (h : SwitchOk cfg s)
    (i : ℤ) {srcIp destIp : ℤ} (hsrc : IsIp srcIp) (hdest : IsIp destIp) :
    RelayWrites (s.handleRelay cfg i srcIp destIp).2 := by
  intro w hw
  obtain ⟨hpacket, hfd | hfd⟩ := SwitchState.handleRelay_writes cfg s srcIp destIp i w hw
  · exact ⟨hfd ▸ h.fdAt_ne (by decide), srcIp, destIp, hpacket, hsrc, hdest⟩
  · exact ⟨hfd ▸ h.fdAt_ne (by decide), srcIp, destIp, hpacket, hsrc, hdest⟩

theorem FifoOk.tail {name : Text} {m : Msg} {rest : List Msg} (h : FifoOk net)
    (hfifo : net.fifo name = m :: rest) :
    FifoOk { net with fifo := Function.update net.fifo name rest } := by
  intro name' m' hm'
  by_cases hname : name' = name
  · subst hname
    simp only [Function.update_self] at hm'
    exact h name' m' (by simp [hfifo, hm'])
  · simp only [Function.update_of_ne hname] at hm'
    exact h name' m' hm'

theorem WellFormed.relayed {k : Fin n} {port : ℤ} {name : Text} {c : Option ℕ}
    {srcIp destIp : ℤ} {rest : List Msg} (hw : WellFormed N net) (hk : net.started k = true)
    (hsrc : IsIp srcIp) (hdest : IsIp destIp)
    (hfifo : net.fifo name = ⟨c, .RELAY srcIp destIp⟩ :: rest) :
    WellFormed N (net.receiveFifo k port name ⟨c, .RELAY srcIp destIp⟩ rest
      ((net.sw k).handleRelay (N.cfg k) port srcIp destIp)) := by
  have hwrites := (hw.switch k).handleRelay_writes port hsrc hdest
  refine hw.of_relay hk rfl rfl rfl hwrites.sendAll_up rfl ?_ ?_ ?_ ?_
  · intro j hj
    exact Function.update_of_ne hj _ _
  · simpa [NetState.receiveFifo, NetState.moveSwitch, NetState.sendAll] using
      SwitchState.handleRelay_control (N.cfg k) (net.sw k) srcIp destIp port
  · simpa [NetState.receiveFifo, NetState.moveSwitch, NetState.sendAll] using
      (hw.switch k).handleRelay port srcIp destIp
  · have htail : FifoOk { net with
        fifo := Function.update net.fifo name rest
        log := net.log ++ [Event.handled k c port (.RELAY srcIp destIp)]
        sw := Function.update net.sw k
          ((net.sw k).handleRelay (N.cfg k) port srcIp destIp).1 } :=
      FifoOk.tail hw.fifo hfifo
    exact htail.sendAll fun w hmem _ _ => (hwrites w hmem).2

end Cmput379.Sdn
