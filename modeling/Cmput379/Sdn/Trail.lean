import Cmput379.Sdn.Invariant

/-!
# The trail of a traffic line

Everything a line of a traffic file causes: the packets with its number that are
on their way, and the events with its number in the log. A step concerns one
line at most.

* `Transition.trail`: a step either leaves the trail of a line as it is, or
  handles or admits a packet of this line.
* `trail_fresh`: a line that has not been admitted has no trail.
-/

namespace Cmput379.Sdn

open Cmput379.Lib

variable {n : ℕ} {N : Network n} {net net' : NetState n}

/-- The line an event belongs to. -/
def Event.cause : Event n → Option ℕ
  | .admitted _ c _ _ => some c
  | .wrote _ c _ => c
  | .handled _ c _ _ => c
  | .served _ _ c _ _ _ => c

/-- The packets of line `c` in a queue. -/
def onTrail (c : ℕ) (queue : List Msg) : List Packet :=
  (queue.filter fun m => m.cause = some c).map Msg.packet

@[ext]
structure Trail (n : ℕ) where
  up : Fin n → List Packet
  down : Fin n → List Packet
  fifo : Text → List Packet
  log : List (Event n)

/-- What line `c` has left in the network. -/
def trail (net : NetState n) (c : ℕ) : Trail n where
  up := fun k => onTrail c (net.up k)
  down := fun k => onTrail c (net.down k)
  fifo := fun name => onTrail c (net.fifo name)
  log := net.log.filter fun e => e.cause = some c

namespace Trail

/-- The trail of a line that has not been admitted. -/
def empty : Trail n := ⟨fun _ => [], fun _ => [], fun _ => [], []⟩

/-- Switch `k` writes packets of line `c`. -/
def send (t : Trail n) (k : Fin n) (c : ℕ) (writes : List Write) : Trail n where
  up := Function.update t.up k
    (t.up k ++ (writes.filter fun w => w.fd = .controller).map Write.packet)
  down := t.down
  fifo := fun name =>
    t.fifo name ++ (writes.filter fun w => w.fd = .fifo name).map Write.packet
  log := t.log ++ writes.map (.wrote k (some c))

def record (t : Trail n) (e : Event n) : Trail n := { t with log := t.log ++ [e] }

def setUp (t : Trail n) (k : Fin n) (packets : List Packet) : Trail n :=
  { t with up := Function.update t.up k packets }

def setDown (t : Trail n) (k : Fin n) (packets : List Packet) : Trail n :=
  { t with down := Function.update t.down k packets }

def setFifo (t : Trail n) (name : Text) (packets : List Packet) : Trail n :=
  { t with fifo := Function.update t.fifo name packets }

@[simp] theorem send_nil (t : Trail n) (k : Fin n) (c : ℕ) : t.send k c [] = t := by
  simp [send]

end Trail

/-! ## Queues -/

section Queues

variable {c : ℕ}

@[simp] theorem onTrail_nil : onTrail c [] = [] := rfl

@[simp] theorem onTrail_append (q q' : List Msg) :
    onTrail c (q ++ q') = onTrail c q ++ onTrail c q' := by
  simp [onTrail]

theorem onTrail_cons (m : Msg) (q : List Msg) :
    onTrail c (m :: q) = if m.cause = some c then m.packet :: onTrail c q else onTrail c q := by
  unfold onTrail
  split_ifs with h <;> simp [h]

theorem onTrail_writes (cause : Option ℕ) (writes : List Write) :
    onTrail c (writes.map fun w => ⟨cause, w.packet⟩) =
      if cause = some c then writes.map Write.packet else [] := by
  induction writes with
  | nil => simp
  | cons w writes ih =>
    rw [List.map_cons, onTrail_cons, ih]
    split_ifs <;> rfl

theorem trail_moveSwitch (k : Fin n) (r : SwitchState × List Write) :
    trail (net.moveSwitch k (some c) r) c = (trail net c).send k c r.2 := by
  have hlog : (r.2.map (Event.wrote k (some c))).filter (fun e => e.cause = some c) =
      r.2.map (Event.wrote k (some c)) := by
    rw [List.filter_eq_self]
    intro e he
    obtain ⟨w, -, rfl⟩ := List.mem_map.mp he
    simp [Event.cause]
  ext1
  · funext j
    by_cases hj : j = k
    · subst hj
      simp [trail, NetState.moveSwitch, NetState.sendAll, Trail.send, onTrail_writes]
    · simp [trail, NetState.moveSwitch, NetState.sendAll, Trail.send, Function.update_of_ne hj]
  · rfl
  · funext name
    simp [trail, NetState.moveSwitch, NetState.sendAll, Trail.send, onTrail_writes]
  · simp [trail, NetState.moveSwitch, NetState.sendAll, Trail.send, hlog]

theorem trail_moveSwitch_ne {k : Fin n} {cause : Option ℕ} {r : SwitchState × List Write}
    (hc : cause ≠ some c) : trail (net.moveSwitch k cause r) c = trail net c := by
  have hlog : (r.2.map (Event.wrote k cause)).filter (fun e => e.cause = some c) = [] := by
    rw [List.filter_eq_nil_iff]
    intro e he
    obtain ⟨w, -, rfl⟩ := List.mem_map.mp he
    simp [Event.cause, hc]
  ext1
  · funext j
    by_cases hj : j = k
    · subst hj
      simp [trail, NetState.moveSwitch, NetState.sendAll, onTrail_writes, hc]
    · simp [trail, NetState.moveSwitch, NetState.sendAll, Function.update_of_ne hj]
  · rfl
  · funext name
    simp [trail, NetState.moveSwitch, NetState.sendAll, onTrail_writes, hc]
  · simp [trail, NetState.moveSwitch, NetState.sendAll, hlog]

end Queues

/-- One value in a function that is `[]` elsewhere. -/
theorem eq_of_update_nil {α β : Type*} [DecidableEq α] {k j : α} {x y : β} {rest : List β}
    (h : Function.update (fun _ => []) k [x] j = y :: rest) : j = k ∧ y = x ∧ rest = [] := by
  by_cases hj : j = k
  · subst hj
    simpa [eq_comm] using h
  · simp [Function.update_of_ne hj] at h

/-! ## Steps -/

section Operations

variable {c : ℕ} {k : Fin n}

theorem trail_admitLine (srcIp destIp : ℤ) (r : SwitchState × List Write) (hc : c = net.lineCount) :
    trail (net.admitLine k srcIp destIp r) c =
      ((trail net c).record (.admitted k c srcIp destIp)).send k c r.2 := by
  subst hc
  rw [NetState.admitLine, trail_moveSwitch]
  congr 1
  simp [trail, Trail.record, Event.cause]

theorem trail_admitLine_ne {srcIp destIp : ℤ} {r : SwitchState × List Write}
    (hc : c ≠ net.lineCount) : trail (net.admitLine k srcIp destIp r) c = trail net c := by
  rw [NetState.admitLine, trail_moveSwitch_ne (by simpa using hc.symm)]
  simp [trail, Event.cause, hc.symm]

theorem trail_serve {i : ℤ} {packet reply : Packet} {r : ControllerState (Conn n) ×
    List (Conn n × Packet)} (hup : net.up k = [⟨some c, packet⟩]) (hdown : net.down k = [])
    (hr : r.2 = [(.switch k, reply)]) :
    trail (net.serve i k ⟨some c, packet⟩ [] r) c =
      (((trail net c).setUp k []).setDown k [reply]).record
        (.served i k (some c) net.ctrl.switchInfoTable.length packet r.2) := by
  ext1
  · funext j
    by_cases hj : j = k
    · subst hj
      simp [trail, serve_up, Trail.setUp, Trail.setDown, Trail.record]
    · simp [trail, serve_up, hj, Trail.setUp, Trail.setDown, Trail.record]
  · funext j
    by_cases hj : j = k
    · subst hj
      simp [trail, serve_down hr, hdown, onTrail_cons, Trail.setUp, Trail.setDown, Trail.record]
    · simp [trail, serve_down hr, hj, Trail.setUp, Trail.setDown, Trail.record]
  · rfl
  · simp [trail, NetState.serve, NetState.replyAll, Event.cause, Trail.setUp, Trail.setDown,
      Trail.record]

theorem trail_serve_ne {i : ℤ} {m : Msg} {reply : Packet} {r : ControllerState (Conn n) ×
    List (Conn n × Packet)} (hup : net.up k = [m]) (hr : r.2 = [(.switch k, reply)])
    (hc : m.cause ≠ some c) : trail (net.serve i k m [] r) c = trail net c := by
  ext1
  · funext j
    by_cases hj : j = k
    · subst hj
      simp [trail, serve_up, hup, onTrail_cons, hc]
    · simp [trail, serve_up, hj]
  · funext j
    by_cases hj : j = k
    · subst hj
      simp [trail, serve_down hr, onTrail_cons, hc]
    · simp [trail, serve_down hr, hj]
  · rfl
  · simp [trail, NetState.serve, NetState.replyAll, Event.cause, hc]

theorem trail_receiveDown {packet : Packet} {r : SwitchState × List Write} :
    trail (net.receiveDown k ⟨some c, packet⟩ [] r) c =
      (((trail net c).setDown k []).record (.handled k (some c) socketIdx packet)).send k c
        r.2 := by
  rw [NetState.receiveDown, trail_moveSwitch]
  congr 1
  ext1
  · rfl
  · funext j
    by_cases hj : j = k
    · subst hj
      simp [trail, Trail.setDown, Trail.record]
    · simp [trail, Function.update_of_ne hj, Trail.setDown, Trail.record]
  · rfl
  · simp [trail, Event.cause, Trail.setDown, Trail.record]

theorem trail_receiveDown_ne {m : Msg} {r : SwitchState × List Write} (hdown : net.down k = [m])
    (hc : m.cause ≠ some c) : trail (net.receiveDown k m [] r) c = trail net c := by
  rw [NetState.receiveDown, trail_moveSwitch_ne hc]
  ext1
  · rfl
  · funext j
    by_cases hj : j = k
    · subst hj
      simp [trail, hdown, onTrail_cons, hc]
    · simp [trail, Function.update_of_ne hj]
  · rfl
  · simp [trail, Event.cause, hc]

theorem trail_receiveFifo {port : ℤ} {name : Text} {packet : Packet} {rest : List Msg}
    {r : SwitchState × List Write} :
    trail (net.receiveFifo k port name ⟨some c, packet⟩ rest r) c =
      (((trail net c).setFifo name (onTrail c rest)).record
        (.handled k (some c) port packet)).send k c r.2 := by
  rw [NetState.receiveFifo, trail_moveSwitch]
  congr 1
  ext1
  · rfl
  · rfl
  · funext name'
    by_cases hname : name' = name
    · subst hname
      simp [trail, Trail.setFifo, Trail.record]
    · simp [trail, Function.update_of_ne hname, Trail.setFifo, Trail.record]
  · simp [trail, Event.cause, Trail.setFifo, Trail.record]

theorem trail_receiveFifo_ne {port : ℤ} {name : Text} {m : Msg} {rest : List Msg}
    {r : SwitchState × List Write} (hfifo : net.fifo name = m :: rest) (hc : m.cause ≠ some c) :
    trail (net.receiveFifo k port name m rest r) c = trail net c := by
  rw [NetState.receiveFifo, trail_moveSwitch_ne hc]
  ext1
  · rfl
  · rfl
  · funext name'
    by_cases hname : name' = name
    · subst hname
      simp [trail, hfifo, onTrail_cons, hc]
    · simp [trail, Function.update_of_ne hname]
  · simp [trail, Event.cause, hc]

end Operations

/-- The step admits or handles a packet of line `c`. -/
def Touches (N : Network n) (c : ℕ) (net : NetState n) : Action n → Prop
  | .start _ | .accept => False
  | .traffic k now ms => net.lineCount = c ∧ (net.sw k).nextHeader (N.cfg k) now ms ≠ none
  | .toController i => ∃ k m rest, net.ctrl.pfds i = some (.switch k) ∧ net.up k = m :: rest ∧
      m.cause = some c
  | .fromController k => ∃ m rest, net.down k = m :: rest ∧ m.cause = some c
  | .fromFifo k port => ∃ name m rest, readFifo (N.cfg k) port = some name ∧
      net.fifo name = m :: rest ∧ m.cause = some c

/-- What a step does to the trail of line `c`: nothing, or it admits or handles a
    packet of this line. -/
inductive TrailStep (N : Network n) (net net' : NetState n) (c : ℕ) : Action n → Prop
  | same (a : Action n) (hother : ¬ Touches N c net a) (h : trail net' c = trail net c) :
      TrailStep N net net' c a
  | hit (k : Fin n) (now ms srcIp destIp : ℤ) (rule : FlowRule) (hc : c = net.lineCount)
      (hcount : net'.lineCount = net.lineCount + 1)
      (hheader : (net.sw k).nextHeader (N.cfg k) now ms = some (srcIp, destIp))
      (hfind : (net.sw k).flowTable.find? (fun r => r.covers destIp) = some rule)
      (h : trail net' c = ((trail net c).record (.admitted k c srcIp destIp)).send k c
        (if rule.actionType = .FORWARD ∧ rule.actionVal ≠ 3 then
          [⟨(net.sw k).outFd (N.cfg k) rule.actionVal, .RELAY srcIp destIp⟩] else [])) :
      TrailStep N net net' c (.traffic k now ms)
  | miss (k : Fin n) (now ms srcIp destIp : ℤ) (hc : c = net.lineCount)
      (hcount : net'.lineCount = net.lineCount + 1)
      (hheader : (net.sw k).nextHeader (N.cfg k) now ms = some (srcIp, destIp))
      (hmiss : ∀ r ∈ (net.sw k).flowTable, ¬ r.covers destIp)
      (h : trail net' c = ((trail net c).record (.admitted k c srcIp destIp)).send k c
        [⟨.controller, .QUERY srcIp destIp⟩]) : TrailStep N net net' c (.traffic k now ms)
  | queried (i : ℤ) (k : Fin n) (srcIp destIp : ℤ) (hfd : net.ctrl.pfds i = some (.switch k))
      (hup : (trail net c).up k = [.QUERY srcIp destIp])
      (h : trail net' c = (((trail net c).setUp k []).setDown k
          [ControllerState.answer net.ctrl.switchInfoTable i srcIp destIp]).record
          (.served i k (some c) net.ctrl.switchInfoTable.length (.QUERY srcIp destIp)
            [(.switch k, ControllerState.answer net.ctrl.switchInfoTable i srcIp destIp)])) :
      TrailStep N net net' c (.toController i)
  | dropped (k : Fin n) (srcIp destIp : ℤ)
      (hdown : (trail net c).down k = [.ADD 0 destIp destIp 0 srcIp])
      (h : trail net' c = ((trail net c).setDown k []).record
          (.handled k (some c) socketIdx (.ADD 0 destIp destIp 0 srcIp))) :
      TrailStep N net net' c (.fromController k)
  | forwarded (k t : Fin n) (srcIp port : ℤ) (hport : port = 1 ∨ port = 2)
      (hnet : net.down k = [⟨some c, .ADD 1 (N.cfg t).ipLow (N.cfg t).ipHigh port srcIp⟩])
      (hdown : (trail net c).down k = [.ADD 1 (N.cfg t).ipLow (N.cfg t).ipHigh port srcIp])
      (h : trail net' c = (((trail net c).setDown k []).record (.handled k (some c) socketIdx
          (.ADD 1 (N.cfg t).ipLow (N.cfg t).ipHigh port srcIp))).send k c
          [⟨(net.sw k).outFd (N.cfg k) port, .RELAY srcIp (N.cfg t).ipLow⟩]) :
      TrailStep N net net' c (.fromController k)
  | relayed (k : Fin n) (port srcIp destIp : ℤ) (name : Text) (queue : List Msg)
      (rest : List Packet) (hname : readFifo (N.cfg k) port = some name)
      (hnet : net.fifo name = ⟨some c, .RELAY srcIp destIp⟩ :: queue)
      (hfifo : (trail net c).fifo name = .RELAY srcIp destIp :: rest)
      (h : trail net' c = (((trail net c).setFifo name rest).record
          (.handled k (some c) port (.RELAY srcIp destIp))).send k c
          ((net.sw k).handleRelay (N.cfg k) port srcIp destIp).2) :
      TrailStep N net net' c (.fromFifo k port)

theorem SwitchState.Quiet.outFd {cfg : SwitchConfig} {s s' : SwitchState}
    (h : SwitchState.Quiet s s') (port : ℤ) : s'.countAdmit.outFd cfg port = s.outFd cfg port := by
  have hid : s'.portToId = s.portToId := by
    have hc := h.control
    simp only [SwitchState.control, Prod.mk.injEq] at hc
    exact hc.2.2.2.2.2
  have hcount : s'.countAdmit.outFd cfg port = s'.outFd cfg port := rfl
  rw [hcount, SwitchState.outFd, SwitchState.outFd, h.portToFd, hid]

theorem not_touches_down {c : ℕ} {k : Fin n} {m : Msg} (hdown : net.down k = [m])
    (hc : m.cause ≠ some c) : ¬ Touches N c net (.fromController k) := by
  rintro ⟨m', rest, hdown', hcause⟩
  rw [hdown] at hdown'
  cases hdown'
  exact hc hcause

/-- A step either leaves the trail of a line as it is, or is a step of that line. -/
theorem Transition.trail {a : Action n} (hw : WellFormed N net) (h : Transition N net a net')
    (c : ℕ) : TrailStep N net net' c a := by
  cases h with
  | start k hk =>
    refine .same _ (by simp [Touches]) ?_
    ext1
    · funext j
      by_cases hj : j = k
      · subst hj
        simp [Sdn.trail, start_up, onTrail_cons]
      · simp [Sdn.trail, start_up, hj]
    · rfl
    · simp [Sdn.trail, NetState.start, NetState.sendAll]
    · simp [Sdn.trail, NetState.start, NetState.sendAll, Event.cause]
  | accept k rest hk => exact .same _ (by simp [Touches]) rfl
  | quiet k now ms s hs hheader hk =>
    exact .same _ (by simp [Touches, hheader]) (trail_moveSwitch_ne (by simp))
  | hit k now ms srcIp destIp s rule flowTable hs hheader hack hadd hsrc hdest hmatch =>
    by_cases hc : c = net.lineCount
    · refine .hit k now ms srcIp destIp rule hc rfl hheader
        (SwitchState.matchRule_eq_some hmatch).1 ?_
      have hok : SwitchOk (N.cfg k) s.countAdmit := ((hw.switch k).quiet hs).countAdmit
      rw [trail_admitLine _ _ _ hc, SwitchState.useRule_writes _ _ _ _ _ _ hok.closed, hs.outFd]
    · exact .same _ (fun h => hc h.1.symm) (trail_admitLine_ne hc)
  | miss k now ms srcIp destIp s hs hheader hack hadd hsrc hdest hmatch =>
    by_cases hc : c = net.lineCount
    · refine .miss k now ms srcIp destIp hc rfl hheader (SwitchState.matchRule_eq_none hmatch) ?_
      have hfd : s.countAdmit.fdAt 0 = .controller := by
        simp [SwitchState.fdAt, ((hw.switch k).quiet hs).countAdmit.fd0]
      rw [trail_admitLine _ _ _ hc, SwitchState.sendQuery, hfd]
    · exact .same _ (fun h => hc h.1.symm) (trail_admitLine_ne hc)
  | opened i k hfd hup =>
    refine .same _ ?_ (trail_serve_ne hup (hw.serves_open hfd (N.info k)).reply (by simp))
    rintro ⟨j, m, rest, hfd', hup', hc⟩
    rw [hfd] at hfd'
    cases hfd'
    rw [hup] at hup'
    cases hup'
    cases hc
  | queried i k c' srcIp destIp hfd hsrc hdest hup =>
    have hopened : Opened net k := ⟨hw.slots.started i k hfd, by simp [hup]⟩
    have hreply := (hw.serves_query hfd hopened hsrc hdest).reply
    by_cases hc : c' = c
    · subst hc
      refine .queried i k srcIp destIp hfd (by simp [Sdn.trail, hup, onTrail_cons]) ?_
      rw [trail_serve hup ((hw.phase k).querying_of_up hup).2.2 hreply, hreply]
    · refine .same _ ?_ (trail_serve_ne hup hreply (by simpa using hc))
      rintro ⟨j, m, rest, hfd', hup', hcause⟩
      rw [hfd] at hfd'
      cases hfd'
      rw [hup] at hup'
      cases hup'
      cases hcause
      exact hc rfl
  | acked k hdown =>
    exact .same _ (not_touches_down hdown (by simp)) (trail_receiveDown_ne hdown (by simp))
  | dropped k c' srcIp destIp hsrc hdest hdown =>
    by_cases hc : c' = c
    · subst hc
      refine .dropped k srcIp destIp (by simp [Sdn.trail, hdown, onTrail_cons]) ?_
      rw [trail_receiveDown, Trail.send_nil]
    · exact .same _ (not_touches_down hdown (by simpa using hc))
        (trail_receiveDown_ne hdown (by simpa using hc))
  | forwarded k t c' srcIp destIp port hsrc hdest ht hport hdown =>
    by_cases hc : c' = c
    · subst hc
      have hok := (hw.switch k).addReceived
      refine .forwarded k t srcIp port hport hdown (by simp [Sdn.trail, hdown, onTrail_cons]) ?_
      rw [trail_receiveDown, SwitchState.handleForward_writes _ _ _ _ _ _ _ hok.closed]
      rfl
    · exact .same _ (not_touches_down hdown (by simpa using hc))
        (trail_receiveDown_ne hdown (by simpa using hc))
  | relayed k port name c' srcIp destIp rest hk hname hsrc hdest hfifo =>
    by_cases hc : c' = some c
    · subst hc
      refine .relayed k port srcIp destIp name rest (onTrail c rest) hname hfifo
        (by simp [Sdn.trail, hfifo, onTrail_cons]) ?_
      rw [trail_receiveFifo]
    · refine .same _ ?_ (trail_receiveFifo_ne hfifo hc)
      rintro ⟨name', m, rest', hname', hfifo', hcause⟩
      rw [hname] at hname'
      cases hname'
      rw [hfifo] at hfifo'
      cases hfifo'
      exact hc hcause

theorem Transition.lineCount_le {a : Action n} (h : Transition N net a net') :
    net.lineCount ≤ net'.lineCount := by
  cases h with
  | hit | miss => exact Nat.le_succ _
  | start | accept | quiet | opened | queried | acked | dropped | forwarded | relayed =>
    exact le_refl _

/-- A line that has not been admitted has no trail. -/
theorem trail_fresh (h : N.system.Reachable net) {c : ℕ} (hc : net.lineCount ≤ c) :
    trail net c = Trail.empty := by
  have hall : ∀ c, net.lineCount ≤ c → trail net c = Trail.empty := by
    refine System.Reachable.invariant
      (I := fun net => ∀ c, net.lineCount ≤ c → trail net c = Trail.empty) ?_ ?_ h
    · rintro _ rfl c -
      rfl
    · intro s a t hs hfresh hstep c hc
      have hw := wellFormed_of_reachable hs
      have htrans := transition_of_step hw hstep
      have hempty := hfresh c (htrans.lineCount_le.trans hc)
      cases htrans.trail hw c with
      | same _ hother h => rw [h, hempty]
      | hit k now ms srcIp destIp rule hcount hcount' => omega
      | miss k now ms srcIp destIp hcount hcount' => omega
      | queried i k srcIp destIp hfd hup => simp [hempty, Trail.empty] at hup
      | dropped k srcIp destIp hdown => simp [hempty, Trail.empty] at hdown
      | forwarded k u srcIp port hport hnet hdown => simp [hempty, Trail.empty] at hdown
      | relayed k port srcIp destIp name queue rest hname hnet hfifo =>
        simp [hempty, Trail.empty] at hfifo
  exact hall c hc

end Cmput379.Sdn
