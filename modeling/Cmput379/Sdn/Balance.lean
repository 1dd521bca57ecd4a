import Mathlib.Algebra.BigOperators.Pi
import Cmput379.Sdn.Counters
import Cmput379.Sdn.Progress

/-!
# The counters of both sides

What the switches have counted as sent or received on their sockets, against what the
controller has counted.

* `seen`: what a switch's counters say the controller has counted for it, with the
  packets on the socket taken into account.
* `counted_of_transition`: a step changes both by the same.
* `counters_balanced`: they agree in every reachable state.
-/

namespace Cmput379.Sdn

open Cmput379.Lib SwitchState

variable {n : ℕ} {N : Network n} {net net' : NetState n} {k : Fin n}

/-! ## The counters -/

/-- The packets of one type on a socket. -/
def unread (type : Text) (msgs : List Msg) : ℤ := (msgs.countP fun m => m.packet.type = type : ℕ)

/-- The OPENs and QUERYs of switch `k` that the controller has read, and the ADDs and
    ACKs it has written, by the counters of the switch. A switch that has not been
    started has not counted its OPEN yet. -/
def seen (net : NetState n) (k : Fin n) : ℤ × ℤ × ℤ × ℤ :=
  ((if net.started k = true then (net.sw k).counts.open_ else 0) - unread "OPEN".toList (net.up k),
    (net.sw k).counts.query - unread "QUERY".toList (net.up k),
    (net.sw k).counts.add + unread "ADD".toList (net.down k),
    (net.sw k).counts.ack + unread "ACK".toList (net.down k))

/-- The same, by the counters of the controller. -/
def counted (c : ControllerPacketCounts) : ℤ × ℤ × ℤ × ℤ := (c.open_, c.query, c.add, c.ack)

/-- What counts for the exchange with the controller. -/
def exchanged (c : SwitchPacketCounts) : ℤ × ℤ × ℤ × ℤ := (c.open_, c.query, c.add, c.ack)

theorem seen_congr {j : Fin n} (hs : SameSocket net net' j)
    (hcounts : exchanged (net'.sw j).counts = exchanged (net.sw j).counts) :
    seen net' j = seen net j := by
  obtain ⟨hstarted, hup, hdown⟩ := hs
  simp only [exchanged, Prod.mk.injEq] at hcounts
  obtain ⟨hopen, hquery, hadd, hack⟩ := hcounts
  unfold seen
  rw [hstarted, hup, hdown, hopen, hquery, hadd, hack]

/-- A step changes both by the same, for one switch. -/
theorem counted_of_step (k : Fin n) (δ : ℤ × ℤ × ℤ × ℤ)
    (h : counted net.ctrl.counts = ∑ j, seen net j)
    (hothers : ∀ j, j ≠ k → seen net' j = seen net j)
    (hctrl : counted net'.ctrl.counts = counted net.ctrl.counts + δ)
    (hseen : seen net' k = seen net k + δ) : counted net'.ctrl.counts = ∑ j, seen net' j := by
  have hsum : ∑ j ∈ Finset.univ.erase k, seen net' j = ∑ j ∈ Finset.univ.erase k, seen net j :=
    Finset.sum_congr rfl fun j hj => hothers j (Finset.ne_of_mem_erase hj)
  rw [hctrl, h, ← Finset.add_sum_erase Finset.univ (seen net) (Finset.mem_univ k),
    ← Finset.add_sum_erase Finset.univ (seen net') (Finset.mem_univ k), hsum, hseen,
    add_right_comm]

/-- A step with no packet from or for the controller. -/
theorem counted_of_relay (h : counted net.ctrl.counts = ∑ j, seen net j)
    (hctrl : net'.ctrl = net.ctrl) (hstarted : net'.started = net.started)
    (hup : net'.up = net.up) (hdown : net'.down = net.down)
    (hcounts : ∀ j, exchanged (net'.sw j).counts = exchanged (net.sw j).counts) :
    counted net'.ctrl.counts = ∑ j, seen net' j := by
  rw [hctrl, h]
  refine Finset.sum_congr rfl fun j _ => (seen_congr ⟨?_, ?_, ?_⟩ (hcounts j)).symm
  · rw [hstarted]
  · rw [hup]
  · rw [hdown]

/-! ## One step -/

/-- The controller has handled a packet of switch `k`. -/
theorem counted_serve {i : ℤ} {m : Msg} {packet : Packet} {δ : ℤ × ℤ × ℤ × ℤ}
    {r : ControllerState (Conn n) × List (Conn n × Packet)}
    (h : counted net.ctrl.counts = ∑ j, seen net j) (hup : net.up k = [m])
    (hdown : net.down k = []) (hreply : r.2 = [(.switch k, packet)])
    (hctrl : counted r.1.counts = counted net.ctrl.counts + δ)
    (hδ : δ = (unread "OPEN".toList [m], unread "QUERY".toList [m],
      unread "ADD".toList [⟨m.cause, packet⟩], unread "ACK".toList [⟨m.cause, packet⟩])) :
    counted (net.serve i k m [] r).ctrl.counts = ∑ j, seen (net.serve i k m [] r) j := by
  refine counted_of_step k δ h (fun j hj => ?_) hctrl ?_
  · exact seen_congr ⟨rfl, by rw [serve_up, if_neg hj], by rw [serve_down hreply, if_neg hj]⟩ rfl
  · rw [hδ]
    have hup' : (net.serve i k m [] r).up k = [] := by rw [serve_up, if_pos rfl]
    have hdown' : (net.serve i k m [] r).down k = [⟨m.cause, packet⟩] := by
      rw [serve_down hreply, if_pos rfl, hdown, List.nil_append]
    have hstarted : (net.serve i k m [] r).started = net.started := rfl
    have hsw : (net.serve i k m [] r).sw = net.sw := rfl
    unfold seen
    rw [hup', hdown', hup, hdown, hstarted, hsw]
    simp [unread]

/-- Switch `k` has handled a packet of the controller. -/
theorem counted_receiveDown {m : Msg} {r : SwitchState × List Write}
    (h : counted net.ctrl.counts = ∑ j, seen net j) (hdown : net.down k = [m])
    (hwrites : RelayWrites r.2)
    (hcounts : exchanged r.1.counts = exchanged (net.sw k).counts +
      (0, 0, unread "ADD".toList [m], unread "ACK".toList [m])) :
    counted (net.receiveDown k m [] r).ctrl.counts = ∑ j, seen (net.receiveDown k m [] r) j := by
  have hup : (net.receiveDown k m [] r).up = net.up := hwrites.sendAll_up
  refine counted_of_step k 0 h (fun j hj => ?_) (add_zero _).symm ?_
  · refine seen_congr ⟨rfl, by rw [hup], Function.update_of_ne hj _ _⟩ ?_
    rw [receiveDown_sw_apply, if_neg hj]
  · have hdown' : (net.receiveDown k m [] r).down k = [] := Function.update_self k _ _
    have hstarted : (net.receiveDown k m [] r).started = net.started := rfl
    simp only [exchanged, Prod.mk_add_mk, Prod.mk.injEq] at hcounts
    obtain ⟨hopen, hquery, hadd, hack⟩ := hcounts
    unfold seen
    rw [hup, hdown', hdown, hstarted, receiveDown_sw_apply, if_pos rfl, hopen, hquery, hadd, hack]
    simp [unread]

theorem counted_handleQuery (c : ControllerState (Conn n)) (i : ℤ) {srcIp destIp : ℤ}
    (hsrc : IsIp srcIp) (hdest : IsIp destIp) :
    counted (c.handleQuery i srcIp destIp).1.counts = counted c.counts + (0, 1, 1, 0) := by
  unfold IsIp at hsrc hdest
  unfold ControllerState.handleQuery
  dsimp only
  rw [if_neg (by omega), if_neg (by omega)]
  split_ifs <;> simp [counted, ControllerState.indexFd]

theorem counted_of_transition {a : Action n} (hw : WellFormed N net)
    (h : Transition N net a net') (hbefore : counted net.ctrl.counts = ∑ j, seen net j) :
    counted net'.ctrl.counts = ∑ j, seen net' j := by
  cases h with
  | start k hk =>
    obtain ⟨hsw, hup, hdown⟩ := (hw.phase k).fresh_of_started hk
    refine counted_of_step k 0 hbefore (fun j hj => ?_) (add_zero _).symm ?_
    · exact seen_congr ⟨by rw [start_started, if_neg hj], by rw [start_up, if_neg hj], rfl⟩ rfl
    · have hopen : (net.sw k).counts.open_ = 1 := by rw [hsw]; rfl
      have hsw' : (net.start N k).sw = net.sw := rfl
      have hdown' : (net.start N k).down = net.down := rfl
      unfold seen
      rw [start_started, start_up, hsw', hdown', hup, hk, hopen]
      simp [unread, openPacket, Packet.type]
  | accept k rest hback => exact hbefore
  | quiet k now ms s hs hheader hk =>
    refine counted_of_relay hbefore rfl rfl (RelayWrites.nil.sendAll_up) rfl fun j => ?_
    rw [moveSwitch_sw]
    split_ifs with hj
    · rw [hj, hs.counts]
    · rfl
  | hit k now ms srcIp destIp s rule flowTable hs hheader hack hadd hsrc hdest hmatch =>
    have hok : SwitchOk (N.cfg k) s.countAdmit := ((hw.switch k).quiet hs).countAdmit
    have hmatch' : SwitchState.matchRule destIp s.countAdmit.flowTable =
        some (rule, flowTable) := by
      rw [← hmatch, ← hs.flowTable]
      rfl
    have hwrites := hok.useRule_writes hsrc hdest hmatch'
    refine counted_of_relay hbefore rfl rfl hwrites.sendAll_up rfl fun j => ?_
    rw [admitLine_sw]
    split_ifs with hj
    · have hcounts : exchanged s.counts = exchanged (net.sw j).counts := by rw [hj, hs.counts]
      rw [SwitchLoop.useRule_counts, ← hcounts]
      split_ifs <;> rfl
    · rfl
  | miss k now ms srcIp destIp s hs hheader hack hadd hsrc hdest hmatch =>
    obtain ⟨-, -, hup, -⟩ := (hw.phase k).idle_of_flags hack hadd
    have hok : SwitchOk (N.cfg k) s.countAdmit := ((hw.switch k).quiet hs).countAdmit
    have hfd : s.countAdmit.fdAt 0 = .controller := by
      simp [SwitchState.fdAt, hok.fd0]
    have hup' : (net.admitLine k srcIp destIp (s.countAdmit.sendQuery srcIp destIp)).up k =
        [⟨some net.lineCount, .QUERY srcIp destIp⟩] := by
      simp [NetState.admitLine, NetState.moveSwitch, NetState.sendAll, SwitchState.sendQuery, hfd,
        hup]
    refine counted_of_step k 0 hbefore (fun j hj => ?_) (add_zero _).symm ?_
    · refine seen_congr ⟨rfl, Function.update_of_ne hj _ _, rfl⟩ ?_
      rw [admitLine_sw, if_neg hj]
    · have hcounts : (s.countAdmit.sendQuery srcIp destIp).1.counts =
          { (net.sw k).counts with
            admit_ := (net.sw k).counts.admit_ + 1
            query := (net.sw k).counts.query + 1 } := by
        rw [← hs.counts]
        rfl
      have hstarted : (net.admitLine k srcIp destIp (s.countAdmit.sendQuery srcIp destIp)).started =
          net.started := rfl
      have hdown' : (net.admitLine k srcIp destIp (s.countAdmit.sendQuery srcIp destIp)).down =
          net.down := rfl
      unfold seen
      rw [hup', hdown', hup, hstarted, admitLine_sw, if_pos rfl, hcounts]
      simp [unread, Packet.type]
  | opened i k hfd hup =>
    obtain ⟨-, -, hdown⟩ := (hw.phase k).opening_of_up hup
    refine counted_serve (δ := (1, 0, 0, 1)) hbefore hup hdown
      (hw.serves_open hfd (N.info k)).reply ?_ ?_
    · simp [counted, ControllerState.handleOpen]
    · simp [unread, openPacket, Packet.type]
  | queried i k c srcIp destIp hfd hsrc hdest hup =>
    have hopened : Opened net k := ⟨hw.slots.started i k hfd, by simp [hup]⟩
    obtain ⟨-, -, hdown⟩ := (hw.phase k).querying_of_up hup
    refine counted_serve (δ := (0, 1, 1, 0)) hbefore hup hdown
      (hw.serves_query hfd hopened hsrc hdest).reply (counted_handleQuery _ _ hsrc hdest) ?_
    have hquery : (Packet.QUERY srcIp destIp).type = "QUERY".toList := rfl
    simp [unread, hquery, ControllerLoop.answer_type]
  | acked k hdown =>
    refine counted_receiveDown hbefore hdown .nil ?_
    simp [exchanged, unread, handleAck, Packet.type]
  | dropped k c srcIp destIp hsrc hdest hdown =>
    refine counted_receiveDown hbefore hdown .nil ?_
    simp [exchanged, unread, pushRule, Packet.type]
  | forwarded k t c srcIp destIp port hsrc hdest ht hport hdown =>
    have hok := (hw.switch k).addReceived
    have hne : port ≠ 0 := by omega
    refine counted_receiveDown hbefore hdown ?_ ?_
    · rw [handleForward_writes _ _ _ _ _ _ _ hok.closed]
      simp only [RelayWrites, List.mem_singleton, forall_eq]
      exact ⟨hok.outFd_ne hne, srcIp, _, rfl, hsrc, (N.cfg t).low_isIp⟩
    · rw [SwitchLoop.handleForward_counts]
      simp [exchanged, unread, Packet.type]
  | relayed k port name c srcIp destIp rest hk hname hsrc hdest hfifo =>
    have hwrites := (hw.switch k).handleRelay_writes port hsrc hdest
    refine counted_of_relay hbefore rfl rfl hwrites.sendAll_up rfl fun j => ?_
    rw [receiveFifo_sw]
    split_ifs with hj
    · rw [SwitchLoop.handleRelay_counts, hj]
      rfl
    · rfl

/-- The controller answers every packet that it has counted. -/
theorem answered_of_transition {a : Action n} (h : Transition N net a net')
    (hbefore : net.ctrl.counts.open_ = net.ctrl.counts.ack ∧
      net.ctrl.counts.query = net.ctrl.counts.add) :
    net'.ctrl.counts.open_ = net'.ctrl.counts.ack ∧
      net'.ctrl.counts.query = net'.ctrl.counts.add := by
  cases h with
  | opened i k hfd hup =>
    exact ⟨congrArg (· + 1) hbefore.1, hbefore.2⟩
  | queried i k c srcIp destIp hfd hsrc hdest hup =>
    have hctrl := counted_handleQuery net.ctrl i hsrc hdest
    simp only [counted, Prod.mk_add_mk, Prod.mk.injEq, add_zero] at hctrl
    obtain ⟨hopen, hquery, hadd, hack⟩ := hctrl
    show (net.ctrl.handleQuery i srcIp destIp).1.counts.open_ =
      (net.ctrl.handleQuery i srcIp destIp).1.counts.ack ∧ _ =
      (net.ctrl.handleQuery i srcIp destIp).1.counts.add
    rw [hopen, hack, hadd]
    exact ⟨hbefore.1, hquery.trans (congrArg (· + 1) hbefore.2)⟩
  | _ => exact hbefore

/-! ## Every run -/

/-- The counters of the controller and those of all the switches, which differ by the
    packets that are on the sockets. -/
structure Balanced (net : NetState n) : Prop where
  opens : net.ctrl.counts.open_ + ∑ k, unread "OPEN".toList (net.up k) =
    ∑ k, if net.started k = true then (net.sw k).counts.open_ else 0
  queries : net.ctrl.counts.query + ∑ k, unread "QUERY".toList (net.up k) =
    ∑ k, (net.sw k).counts.query
  adds : net.ctrl.counts.add =
    ∑ k, (net.sw k).counts.add + ∑ k, unread "ADD".toList (net.down k)
  acks : net.ctrl.counts.ack =
    ∑ k, (net.sw k).counts.ack + ∑ k, unread "ACK".toList (net.down k)
  answered : net.ctrl.counts.open_ = net.ctrl.counts.ack ∧
    net.ctrl.counts.query = net.ctrl.counts.add

theorem balanced_of_counted (h : counted net.ctrl.counts = ∑ j, seen net j)
    (hanswered : net.ctrl.counts.open_ = net.ctrl.counts.ack ∧
      net.ctrl.counts.query = net.ctrl.counts.add) : Balanced net := by
  simp only [counted, seen, Prod.ext_iff, Prod.fst_sum, Prod.snd_sum, Finset.sum_sub_distrib,
    Finset.sum_add_distrib] at h
  obtain ⟨hopen, hquery, hadd, hack⟩ := h
  exact ⟨by omega, by omega, hadd, hack, hanswered⟩

/-- In every reachable state what the switches have sent is what the controller has
    read, but for the packets on the sockets, and the other way round; and the
    controller has answered all that it has read. -/
theorem counters_balanced (h : N.system.Reachable net) : Balanced net := by
  have hinv := h.invariant (I := fun net => counted net.ctrl.counts = ∑ j, seen net j ∧
    net.ctrl.counts.open_ = net.ctrl.counts.ack ∧
      net.ctrl.counts.query = net.ctrl.counts.add) ?_ ?_
  · exact balanced_of_counted hinv.1 hinv.2
  · rintro _ rfl
    refine ⟨?_, rfl, rfl⟩
    have hzero : ∀ j, seen N.initState j = 0 := fun j => rfl
    simp only [hzero, Finset.sum_const_zero]
    rfl
  · rintro net a net' hreach ⟨hsum, hanswered⟩ hstep
    have hw := wellFormed_of_reachable hreach
    have ht := transition_of_step hw hstep
    exact ⟨counted_of_transition hw ht hsum, answered_of_transition ht hanswered⟩

/-- One answer is still on its way. -/
theorem counters_balanced_askThenHit : ∃ net,
    twoPackets.system.exec twoPackets.initState (bothAcked ++ askThenHit.take 3) = some net ∧
      net.ctrl.counts = ⟨2, 1, 1, 2⟩ ∧ (net.sw sw1).counts.add = 0 ∧ Balanced net := by
  have hrun : (twoPackets.system.exec twoPackets.initState
      (bothAcked ++ askThenHit.take 3)).map
        (fun net => (net.ctrl.counts, (net.sw sw1).counts.add)) = some (⟨2, 1, 1, 2⟩, 0) := by
    decide +kernel
  obtain ⟨net, hexec, hview⟩ := Option.map_eq_some_iff.mp hrun
  simp only [Prod.mk.injEq] at hview
  exact ⟨net, hexec, hview.1, hview.2, counters_balanced (System.Reachable.of_exec rfl hexec)⟩

end Cmput379.Sdn
