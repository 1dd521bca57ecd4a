import Cmput379.Sdn.FlowTable

/-!
# The relay port of an answer

The controller compares the id of an address's owner with the slot of the
requester, where the ports of a switch are about ids.

* `served_of_reachable`: what the controller sent for each QUERY it handled.
* `rightPorts_iff`: the relay ports are right iff slot and id of each requester
  are on the same side of the owner's id.
* `relayPort_counterexample`: a line of two switches that connect in the order
  2, 1.
-/

namespace Cmput379.Sdn

open Cmput379.Lib

variable {n : ℕ} {N : Network n} {net net' : NetState n}

/-! ## What the controller sent -/

/-- The handling of a QUERY read from slot `slot`. -/
structure Served (net : NetState n) (slot : ℤ) (k : Fin n) (known : ℕ) (srcIp destIp : ℤ)
    (replies : List (Conn n × Packet)) : Prop where
  taken : net.ctrl.pfds slot = some (.switch k)
  le : known ≤ net.ctrl.switchInfoTable.length
  sent : replies = [(.switch k, ControllerState.answer
    (net.ctrl.switchInfoTable.take known) slot srcIp destIp)]

/-- A slot that is taken stays with its switch, and the table only grows. -/
theorem Transition.ctrl {a : Action n} (hw : WellFormed N net) (h : Transition N net a net') :
    (∀ i k, net.ctrl.pfds i = some (.switch k) → net'.ctrl.pfds i = some (.switch k)) ∧
      net.ctrl.switchInfoTable <+: net'.ctrl.switchInfoTable := by
  cases h with
  | accept k rest hk =>
    refine ⟨fun i j hi => ?_, List.prefix_rfl⟩
    have hlt := (hw.slots.range i j hi).2
    simp only [accept_pfds]
    rw [if_neg (by omega), hi]
  | opened i k hfd hup =>
    exact ⟨fun _ _ h => h, List.prefix_append _ _⟩
  | queried i k c srcIp destIp hfd hsrc hdest hup =>
    refine ⟨fun j t hj => ?_, ?_⟩
    · have hopened : Opened net k := ⟨hw.slots.started i k hfd, by simp [hup]⟩
      have hctrl := (hw.serves_query hfd hopened hsrc hdest).pfds
      simpa [NetState.serve, NetState.replyAll, hctrl] using hj
    · have htable := handleQuery_switchInfoTable net.ctrl i srcIp destIp
      simp [NetState.serve, NetState.replyAll, htable]
  | start | quiet | hit | miss | acked | dropped | forwarded | relayed =>
    exact ⟨fun _ _ h => h, List.prefix_rfl⟩

theorem Served.mono {a : Action n} {slot : ℤ} {k : Fin n} {known : ℕ} {srcIp destIp : ℤ}
    {replies : List (Conn n × Packet)} (hw : WellFormed N net) (h : Transition N net a net')
    (hs : Served net slot k known srcIp destIp replies) :
    Served net' slot k known srcIp destIp replies := by
  obtain ⟨hpfds, ⟨more, hmore⟩⟩ := h.ctrl hw
  refine ⟨hpfds _ _ hs.taken, ?_, ?_⟩
  · rw [← hmore, List.length_append]
    have := hs.le
    omega
  · rw [← hmore, List.take_append_of_le_length hs.le]
    exact hs.sent

/-- A QUERY in the log was there before, or has just been handled. -/
theorem Transition.served {a : Action n} (hw : WellFormed N net) (h : Transition N net a net')
    {slot : ℤ} {k : Fin n} {c : Option ℕ} {known : ℕ} {srcIp destIp : ℤ}
    {replies : List (Conn n × Packet)}
    (he : Event.served slot k c known (.QUERY srcIp destIp) replies ∈ net'.log) :
    Event.served slot k c known (.QUERY srcIp destIp) replies ∈ net.log ∨
      Served net slot k known srcIp destIp replies := by
  cases h with
  | start | quiet | hit | miss | acked | dropped | forwarded | relayed =>
    left
    simpa [NetState.start, NetState.admitLine, NetState.receiveDown, NetState.receiveFifo,
      NetState.moveSwitch, NetState.sendAll] using he
  | accept j rest hk => exact .inl he
  | opened i j hfd hup =>
    left
    simpa [NetState.serve, NetState.replyAll, SwitchState.openPacket] using he
  | queried i j c' srcIp' destIp' hfd hsrc hdest hup =>
    simp only [NetState.serve, NetState.replyAll, List.mem_append, List.mem_singleton] at he
    rcases he with he | he
    · exact .inl he
    · cases he
      have hopened : Opened net k := ⟨hw.slots.started slot k hfd, by simp [hup]⟩
      refine .inr ⟨hfd, le_refl _, ?_⟩
      rw [List.take_length]
      exact (hw.serves_query hfd hopened hsrc hdest).reply

/-- Every QUERY the controller has handled was answered as its table at that
    time says. -/
theorem served_of_reachable (h : N.system.Reachable net) {slot : ℤ} {k : Fin n} {c : Option ℕ}
    {known : ℕ} {srcIp destIp : ℤ} {replies : List (Conn n × Packet)}
    (he : Event.served slot k c known (.QUERY srcIp destIp) replies ∈ net.log) :
    Served net slot k known srcIp destIp replies := by
  have hall : ∀ slot k c known srcIp destIp replies,
      Event.served slot k c known (.QUERY srcIp destIp) replies ∈ net.log →
        Served net slot k known srcIp destIp replies := by
    refine System.Reachable.invariant (I := fun net => ∀ slot k c known srcIp destIp replies,
      Event.served slot k c known (.QUERY srcIp destIp) replies ∈ net.log →
        Served net slot k known srcIp destIp replies) ?_ ?_ h
    · rintro _ rfl
      simp [Network.initState]
    · intro s a t hs hserved hstep slot k c known srcIp destIp replies he
      have hw := wellFormed_of_reachable hs
      have htrans := transition_of_step hw hstep
      rcases htrans.served hw he with he | hnew
      · exact (hserved _ _ _ _ _ _ _ he).mono hw htrans
      · exact hnew.mono hw htrans
  exact hall _ _ _ _ _ _ _ he

/-! ## Right and wrong ports -/

/-- The controller has sent switch `k`, which it knows as slot `slot`, a FORWARD
    ADD with relay port `port` for an address of switch `t`. -/
inductive Forwarded (N : Network n) (net : NetState n) (slot : ℤ) (k t : Fin n) (port : ℤ) : Prop
  | intro (c : Option ℕ) (known : ℕ) (srcIp destIp ipLow ipHigh : ℤ) (conn : Conn n)
      (replies : List (Conn n × Packet))
      (served : Event.served slot k c known (.QUERY srcIp destIp) replies ∈ net.log)
      (add : (conn, .ADD 1 ipLow ipHigh port srcIp) ∈ replies) (owner : N.Owns t destIp)

/-- In every FORWARD ADD for an address of another switch, the relay port is 2
    when the id of the owner is larger than that of the requester, else 1. -/
def RightPorts (N : Network n) (net : NetState n) : Prop :=
  ∀ slot k t port, Forwarded N net slot k t port → t ≠ k →
    port = if (N.cfg k).id < (N.cfg t).id then 2 else 1

/-- The port sent is that of the slot. -/
theorem Forwarded.port_eq (hN : N.DisjointRanges) (h : N.system.Reachable net) {slot : ℤ}
    {k t : Fin n} {port : ℤ} (hf : Forwarded N net slot k t port) :
    port = if slot < (N.cfg t).id then 2 else 1 := by
  obtain ⟨c, known, srcIp, destIp, ipLow, ipHigh, conn, replies, hserved, hadd, howner⟩ := hf
  have hs := served_of_reachable h hserved
  rw [hs.sent, List.mem_singleton, Prod.mk.injEq, ControllerState.answer] at hadd
  cases hfind : (net.ctrl.switchInfoTable.take known).find? fun info => info.contains destIp with
  | none => simp [hfind] at hadd
  | some info =>
    simp only [hfind, Packet.ADD.injEq] at hadd
    obtain ⟨t', rfl⟩ := (wellFormed_of_reachable h).table info
      (List.mem_of_mem_take (List.mem_of_find?_eq_some hfind))
    have hcontains : (N.info t').contains destIp := by simpa using List.find?_some hfind
    obtain rfl : t = t' := hN t t' destIp howner hcontains
    rw [hadd.2.2.2.2.1]
    rfl

/-- The relay ports in a run are right iff, in every answer, the slot and the id
    of the requester lie on the same side of the owner's id. -/
theorem rightPorts_iff (hN : N.DisjointRanges) (h : N.system.Reachable net) :
    RightPorts N net ↔ ∀ slot k t port, Forwarded N net slot k t port → t ≠ k →
      (slot < (N.cfg t).id ↔ (N.cfg k).id < (N.cfg t).id) := by
  refine forall_congr' fun slot => forall_congr' fun k => forall_congr' fun t =>
    forall_congr' fun port => forall_congr' fun hf => forall_congr' fun _ => ?_
  rw [hf.port_eq hN h]
  split_ifs with h1 h2 h2 <;> simp [h1, h2]

/-! ## Two switches that connect in the order 2, 1 -/

theorem ex2_isLine (lines : List Text) : (ex2 lines).IsLine := by
  intro k
  fin_cases k <;> exact ⟨rfl, rfl, rfl⟩

/-- Both switches open, switch 2 in slot 1 and switch 1 in slot 2; then switch 1
    asks for an address of switch 2. -/
def swappedSlots : List (Action 2) :=
  [.start sw2, .accept, .start sw1, .accept, .toController 1, .fromController sw2,
    .toController 2, .fromController sw1, .traffic sw1 0 0, .toController 2]

theorem exec_swappedSlots : ∃ net,
    (ex2 ["sw1 100 200".toList]).system.exec (ex2 ["sw1 100 200".toList]).initState
      swappedSlots = some net ∧
    Event.served 2 0 (some 0) 2 (.QUERY 100 200) [(.switch 0, .ADD 1 200 210 1 100)] ∈ net.log := by
  have hrun : ((ex2 ["sw1 100 200".toList]).system.exec (ex2 ["sw1 100 200".toList]).initState
      swappedSlots).map (fun net => decide (Event.served 2 0 (some 0) 2 (.QUERY 100 200)
        [(.switch 0, .ADD 1 200 210 1 100)] ∈ net.log)) = some true := by
    decide +kernel
  obtain ⟨net, hexec, hmem⟩ := Option.map_eq_some_iff.mp hrun
  exact ⟨net, hexec, by simpa using hmem⟩

/-- Switch 1 is told to relay towards switch 0. -/
theorem relayPort_counterexample : ∃ (N : Network 2) (net : NetState 2), N.IsLine ∧
    N.DisjointRanges ∧ N.system.Reachable net ∧ ¬ RightPorts N net := by
  obtain ⟨net, hexec, hmem⟩ := exec_swappedSlots
  refine ⟨_, net, ex2_isLine _, ex2_disjointRanges _, System.Reachable.of_exec rfl hexec,
    fun hright => ?_⟩
  have hport := hright 2 0 1 1
    ⟨some 0, 2, 100, 200, 200, 210, .switch 0, _, hmem, by simp, by decide⟩ (by decide)
  revert hport
  decide

/-! ## Two switches that connect in the order 1, 2 -/

def orderedSlots : List (Action 2) :=
  [.start sw1, .accept, .start sw2, .accept, .toController 1, .fromController sw1,
    .toController 2, .fromController sw2, .traffic sw1 0 0, .toController 1, .fromController sw1,
    .traffic sw2 0 0, .traffic sw2 0 0, .toController 2]

/-- What was handled, was handled in the slot of its sender's id. -/
def Event.InOrder (N : Network n) : Event n → Prop
  | .served slot k .. => slot = (N.cfg k).id
  | _ => True

instance (N : Network n) : (e : Event n) → Decidable (e.InOrder N)
  | .served slot k .. => inferInstanceAs (Decidable (slot = (N.cfg k).id))
  | .admitted .. | .wrote .. | .handled .. => inferInstanceAs (Decidable True)

/-- Switch 1 is told to relay on port 2, and switch 2 on port 1. -/
theorem rightPorts_iff_orderedSlots : ∃ net,
    (ex2 eachOther).system.exec (ex2 eachOther).initState orderedSlots = some net ∧
    Forwarded (ex2 eachOther) net 1 0 1 2 ∧ Forwarded (ex2 eachOther) net 2 1 0 1 ∧
    RightPorts (ex2 eachOther) net := by
  have hrun : ((ex2 eachOther).system.exec (ex2 eachOther).initState orderedSlots).map
      (fun net => decide (Event.served 1 0 (some 0) 2 (.QUERY 100 200)
          [(.switch 0, .ADD 1 200 210 2 100)] ∈ net.log ∧
        Event.served 2 1 (some 1) 2 (.QUERY 200 100)
          [(.switch 1, .ADD 1 100 110 1 200)] ∈ net.log ∧
        ∀ e ∈ net.log, e.InOrder (ex2 eachOther))) = some true := by
    decide +kernel
  obtain ⟨net, hexec, hfirst, hsecond, horder⟩ := System.exists_of_exec hrun
  refine ⟨net, hexec, ⟨_, _, _, _, _, _, _, _, hfirst, List.mem_singleton_self _, by decide⟩,
    ⟨_, _, _, _, _, _, _, _, hsecond, List.mem_singleton_self _, by decide⟩,
    (rightPorts_iff (ex2_disjointRanges _) (System.Reachable.of_exec rfl hexec)).mpr ?_⟩
  rintro slot k t port ⟨_, _, _, _, _, _, _, _, hserved, -, -⟩ -
  rw [show slot = ((ex2 eachOther).cfg k).id from horder _ hserved]

end Cmput379.Sdn
