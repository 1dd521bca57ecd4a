import Mathlib.Data.Fintype.Card
import Mathlib.Data.Int.Interval
import Cmput379.Sdn.Invariant

/-!
# Stop and wait

The exchange between a switch and the controller, over every run of the
network.

* `WellFormed.exec_release`: a switch that waits can be released, by accepting
  its connection, handling its packet and handling the reply.
* `stopAndWait`: a started switch has at most one packet on its socket, exactly
  one while it waits, its counters tell whether it waits for an ADD, and the
  packet on its socket is the one that releases it.
-/

namespace Cmput379.Sdn

open Cmput379.Lib

variable {n : ℕ} {N : Network n} {net net' : NetState n} {k : Fin n}

/-- The packets between switch `k` and the controller. -/
def inFlight (net : NetState n) (k : Fin n) : List Packet :=
  (net.up k ++ net.down k).map Msg.packet

/-- The switch does not read its traffic file (line 336 of `switch.cpp`). -/
def Waiting (s : SwitchState) : Prop := s.ackReceived = false ∨ s.addReceived = false

/-- The stop-and-wait discipline of switch `k`. -/
structure StopAndWait (N : Network n) (net : NetState n) (k : Fin n) : Prop where
  atMostOne : (inFlight net k).length ≤ 1
  one_iff : (inFlight net k).length = 1 ↔ Waiting (net.sw k)
  add_iff : (net.sw k).addReceived = false ↔
    (net.sw k).counts.query = (net.sw k).counts.add + 1
  balanced : (net.sw k).addReceived = true → (net.sw k).counts.query = (net.sw k).counts.add
  ackFlight : (net.sw k).ackReceived = false →
    inFlight net k = [SwitchState.openPacket (N.cfg k)] ∨ inFlight net k = [.ACK]
  addFlight : (net.sw k).addReceived = false → ∃ srcIp destIp,
    inFlight net k = [.QUERY srcIp destIp] ∨
      ∃ answer, IsAnswer N srcIp destIp answer ∧ inFlight net k = [answer]
  delivered : ∀ net', N.step net (.fromController k) = some net' → ¬ Waiting (net'.sw k)
  released : Waiting (net.sw k) → ∃ actions net',
    N.system.exec net actions = some net' ∧ ¬ Waiting (net'.sw k)

/-! ## Deliveries are enabled -/

/-- Every packet of the controller can be handled. -/
theorem WellFormed.fromController_enabled (hw : WellFormed N net) {m : Msg} {rest : List Msg}
    (hdown : net.down k = m :: rest) : ∃ net', N.step net (.fromController k) = some net' := by
  simp only [Network.step, hdown]
  cases hw.phase k with
  | acking started flags up down =>
    rw [down] at hdown
    cases hdown
    rw [SwitchState.handleText_ACK]
    exact ⟨_, rfl⟩
  | adding started flags c srcIp destIp answer hsrc hdest hanswer up down =>
    rw [down] at hdown
    cases hdown
    have hrange := hanswer.inRange hsrc hdest
    cases hanswer with
    | drop =>
      rw [SwitchState.handleText_ADD_drop _ _ _ hrange]
      exact ⟨_, rfl⟩
    | forward t port ht hport =>
      rw [SwitchState.handleText_ADD_forward _ _ _ hrange (by simp [(hw.switch k).closed])]
      exact ⟨_, rfl⟩
  | fresh started sw up down => simp [down] at hdown
  | opening started flags up down => simp [down] at hdown
  | idle started flags up down => simp [down] at hdown
  | querying started flags c srcIp destIp hsrc hdest up down => simp [down] at hdown

/-- No more slots are taken than there are switches. -/
theorem SlotsOk.socketIdx_le (h : SlotsOk N net) : net.ctrl.socketIdx ≤ n + 1 := by
  have hslot : ∀ i : Finset.Ico 1 net.ctrl.socketIdx,
      ∃ k : Fin n, net.ctrl.pfds i = some (.switch k) := by
    rintro ⟨i, hi⟩
    rw [Finset.mem_Ico] at hi
    exact h.filled i hi.1 hi.2
  choose f hf using hslot
  have hinj : Function.Injective f := by
    intro i j hij
    exact Subtype.ext (h.inj i j (f i) (hf i) (by rw [hij]; exact hf j))
  have hcard := Fintype.card_le_of_injective f hinj
  rw [Fintype.card_coe, Int.card_Ico, Fintype.card_fin] at hcard
  omega

/-- A packet of a switch whose connection has been accepted can be handled. -/
theorem WellFormed.toController_enabled (hw : WellFormed N net) {i : ℤ} {m : Msg}
    {rest : List Msg} (hfd : net.ctrl.pfds i = some (.switch k)) (hup : net.up k = m :: rest) :
    ∃ net', N.step net (.toController i) = some net' := by
  have hi := hw.slots.range i k hfd
  have hle := hw.slots.socketIdx_le
  have hnum := hw.numSwitches
  simp only [Network.step]
  rw [if_pos (by omega)]
  simp only [hfd, hup]
  cases hw.phase k with
  | opening started flags up down =>
    rw [up] at hup
    cases hup
    rw [SwitchState.openPacket, ControllerState.handleText_OPEN _ _ (openPacket_inRange (N.cfg k))]
    exact ⟨_, rfl⟩
  | querying started flags c srcIp destIp hsrc hdest up down =>
    rw [up] at hup
    cases hup
    rw [ControllerState.handleText_QUERY _ _ (query_inRange hsrc hdest)]
    exact ⟨_, rfl⟩
  | fresh started sw up down => simp [up] at hup
  | acking started flags up down => simp [up] at hup
  | idle started flags up down => simp [up] at hup
  | adding started flags c srcIp destIp answer hsrc hdest hanswer up down => simp [up] at hup

/-! ## Deliveries release -/

theorem receiveDown_sw {m : Msg} {rest : List Msg} {r : SwitchState × List Write} :
    (net.receiveDown k m rest r).sw k = r.1 := by
  simp [NetState.receiveDown, NetState.moveSwitch, NetState.sendAll]

theorem Transition.released (hw : WellFormed N net)
    (h : Transition N net (.fromController k) net') : ¬ Waiting (net'.sw k) := by
  cases h with
  | acked _ hdown =>
    have hadd : (net.sw k).addReceived = true := by
      cases hw.phase k with
      | acking started flags up down => exact flags.add
      | adding started flags c srcIp destIp answer hsrc hdest hanswer up down =>
        simp [down] at hdown
      | fresh started sw up down => simp [down] at hdown
      | opening started flags up down => simp [down] at hdown
      | idle started flags up down => simp [down] at hdown
      | querying started flags c srcIp destIp hsrc hdest up down => simp [down] at hdown
    simp [receiveDown_sw, Waiting, SwitchState.handleAck, hadd]
  | dropped _ c srcIp destIp hsrc hdest hdown =>
    have hflags := ((hw.phase k).adding_of_down hdown).2.1
    simp [receiveDown_sw, Waiting, SwitchState.pushRule, hflags.ack]
  | forwarded _ t c srcIp destIp port hsrc hdest ht hport hdown =>
    have hflags := ((hw.phase k).adding_of_down hdown).2.1
    have hctl := SwitchState.openPort_control (N.cfg k)
      { net.sw k with addReceived := true } port
    simp only [SwitchState.control, Prod.mk.injEq] at hctl
    rw [receiveDown_sw, SwitchState.handleForward_fst]
    rintro (hack | hadd)
    · exact Bool.false_ne_true (hack.symm.trans (hctl.1.trans hflags.ack))
    · exact Bool.false_ne_true (hadd.symm.trans hctl.2.1)

/-- A reply of the controller can be handled, and releases the switch. -/
theorem WellFormed.exec_release_of_down (hw : WellFormed N net) {m : Msg} {rest : List Msg}
    (hdown : net.down k = m :: rest) :
    ∃ net', N.system.exec net [.fromController k] = some net' ∧ ¬ Waiting (net'.sw k) := by
  obtain ⟨net', hstep⟩ := hw.fromController_enabled hdown
  refine ⟨net', ?_, (transition_of_step hw hstep).released hw⟩
  simp [System.exec, Network.system, hstep]

/-- The handling of a packet of an accepted switch leaves a reply on its socket. -/
theorem WellFormed.step_reply (hw : WellFormed N net) {i : ℤ} {m : Msg} {rest : List Msg}
    (hfd : net.ctrl.pfds i = some (.switch k)) (hup : net.up k = m :: rest) :
    ∃ net', N.step net (.toController i) = some net' ∧ ∃ m rest, net'.down k = m :: rest := by
  obtain ⟨net', hstep⟩ := hw.toController_enabled hfd hup
  refine ⟨net', hstep, ?_⟩
  cases transition_of_step hw hstep with
  | opened _ j hfd' hup' =>
    rw [hfd] at hfd'
    cases hfd'
    rw [serve_down (hw.serves_open hfd (N.info k)).reply, if_pos rfl]
    exact List.exists_cons_of_ne_nil (by simp)
  | queried _ j c srcIp destIp hfd' hsrc hdest hup' =>
    rw [hfd] at hfd'
    cases hfd'
    have hopened : Opened net k := ⟨hw.slots.started i k hfd, by simp [hup']⟩
    rw [serve_down (hw.serves_query hfd hopened hsrc hdest).reply, if_pos rfl]
    exact List.exists_cons_of_ne_nil (by simp)

theorem WellFormed.exec_release_of_up (hw : WellFormed N net) {i : ℤ} {m : Msg} {rest : List Msg}
    (hfd : net.ctrl.pfds i = some (.switch k)) (hup : net.up k = m :: rest) :
    ∃ actions net', N.system.exec net actions = some net' ∧ ¬ Waiting (net'.sw k) := by
  obtain ⟨net', hstep, m', rest', hdown⟩ := hw.step_reply hfd hup
  have hw' := hw.transition (transition_of_step hw hstep)
  obtain ⟨net'', hexec, hrel⟩ := hw'.exec_release_of_down hdown
  refine ⟨[.toController i, .fromController k], net'', ?_, hrel⟩
  simpa [System.exec, Network.system, hstep] using hexec

/-- The controller can accept every connection. -/
theorem exec_accept (net : NetState n) : ∃ net',
    N.system.exec net (List.replicate net.backlog.length .accept) = some net' ∧
      net'.backlog = [] ∧ net'.sw = net.sw ∧ net'.up = net.up ∧ net'.started = net.started := by
  generalize hlen : net.backlog.length = len
  induction len generalizing net with
  | zero => exact ⟨net, rfl, List.length_eq_zero_iff.mp hlen, rfl, rfl, rfl⟩
  | succ len ih =>
    obtain ⟨j, rest, hback⟩ := List.exists_cons_of_length_eq_add_one hlen
    have hrest : rest.length = len := by simpa [hback] using hlen
    obtain ⟨net', hexec, hdone⟩ :=
      ih { net with ctrl := net.ctrl.accept (.switch j), backlog := rest } hrest
    refine ⟨net', ?_, hdone⟩
    simpa [List.replicate_succ, System.exec, Network.system, Network.step, hback] using hexec

/-- A switch that waits can be released. -/
theorem exec_release (h : N.system.Reachable net) (hk : net.started k = true)
    (hwait : Waiting (net.sw k)) :
    ∃ actions net', N.system.exec net actions = some net' ∧ ¬ Waiting (net'.sw k) := by
  have hw := wellFormed_of_reachable h
  by_cases hdown : net.down k = []
  · obtain ⟨m, rest, hup⟩ : ∃ m rest, net.up k = m :: rest := by
      cases hw.phase k with
      | opening started flags up down => exact ⟨_, _, up⟩
      | querying started flags c srcIp destIp hsrc hdest up down => exact ⟨_, _, up⟩
      | idle started flags up down => simp [Waiting, flags.ack, flags.add] at hwait
      | fresh started sw up down => simp [hk] at started
      | acking started flags up down => simp [down] at hdown
      | adding started flags c srcIp destIp answer hsrc hdest hanswer up down =>
        simp [down] at hdown
    obtain ⟨net₁, hexec, hback, hsw, hup₁, hst⟩ := exec_accept (N := N) net
    have hr₁ : N.system.Reachable net₁ := h.run (.of_exec hexec)
    have hw₁ := wellFormed_of_reachable hr₁
    rcases hw₁.slots.placed k (by rw [hst, hk]) with hmem | ⟨i, hfd⟩
    · simp [hback] at hmem
    · obtain ⟨actions, net', hexec', hrel⟩ :=
        hw₁.exec_release_of_up hfd (by rw [hup₁, hup])
      exact ⟨_, net', (System.exec_append hexec _).trans hexec', hrel⟩
  · obtain ⟨m, rest, hdown⟩ := List.exists_cons_of_ne_nil hdown
    obtain ⟨net', hexec, hrel⟩ := hw.exec_release_of_down hdown
    exact ⟨_, net', hexec, hrel⟩

/-! ## The discipline -/

/-- Every started switch keeps the stop-and-wait discipline in every reachable
    state. -/
theorem stopAndWait (h : N.system.Reachable net) (hk : net.started k = true) :
    StopAndWait N net k := by
  have hw := wellFormed_of_reachable h
  have hdelivered : ∀ net', N.step net (.fromController k) = some net' →
      ¬ Waiting (net'.sw k) := fun net' hstep => (transition_of_step hw hstep).released hw
  have hreleased := exec_release h hk
  cases hw.phase k with
  | fresh started sw up down => simp [hk] at started
  | opening started flags up down =>
    obtain ⟨hack, hadd, hcounts⟩ := flags
    exact ⟨by simp [inFlight, up, down], by simp [inFlight, up, down, Waiting, hack],
      by simp [hadd]; omega, by simp [hcounts], by simp [inFlight, up, down], by simp [hadd],
      hdelivered, hreleased⟩
  | acking started flags up down =>
    obtain ⟨hack, hadd, hcounts⟩ := flags
    exact ⟨by simp [inFlight, up, down], by simp [inFlight, up, down, Waiting, hack],
      by simp [hadd]; omega, by simp [hcounts], by simp [inFlight, up, down], by simp [hadd],
      hdelivered, hreleased⟩
  | idle started flags up down =>
    obtain ⟨hack, hadd, hcounts⟩ := flags
    exact ⟨by simp [inFlight, up, down], by simp [inFlight, up, down, Waiting, hack, hadd],
      by simp [hadd]; omega, by simp [hcounts], by simp [hack], by simp [hadd],
      hdelivered, hreleased⟩
  | querying started flags c srcIp destIp hsrc hdest up down =>
    obtain ⟨hack, hadd, hcounts⟩ := flags
    exact ⟨by simp [inFlight, up, down], by simp [inFlight, up, down, Waiting, hadd],
      by simp [hadd, hcounts], by simp [hadd], by simp [hack],
      fun _ => ⟨srcIp, destIp, .inl (by simp [inFlight, up, down])⟩, hdelivered, hreleased⟩
  | adding started flags c srcIp destIp answer hsrc hdest hanswer up down =>
    obtain ⟨hack, hadd, hcounts⟩ := flags
    exact ⟨by simp [inFlight, up, down], by simp [inFlight, up, down, Waiting, hadd],
      by simp [hadd, hcounts], by simp [hadd], by simp [hack],
      fun _ => ⟨srcIp, destIp, .inr ⟨answer, hanswer, by simp [inFlight, up, down]⟩⟩,
      hdelivered, hreleased⟩

/-- Both switches open and ask; the QUERY of switch 2 is answered. -/
def bothAsk : List (Action 2) :=
  [.start sw1, .accept, .start sw2, .accept, .toController 1, .fromController sw1,
    .toController 2, .fromController sw2, .traffic sw1 0 0, .traffic sw2 0 0, .traffic sw2 0 0,
    .toController 2]

/-- A QUERY and an ADD are on their way. -/
theorem stopAndWait_bothAsk : ∃ net,
    (ex2 eachOther).system.exec (ex2 eachOther).initState bothAsk = some net ∧
    inFlight net 0 = [.QUERY 100 200] ∧ inFlight net 1 = [.ADD 1 100 110 1 200] ∧
    StopAndWait (ex2 eachOther) net 0 ∧ StopAndWait (ex2 eachOther) net 1 := by
  have hrun : ((ex2 eachOther).system.exec (ex2 eachOther).initState bothAsk).map
      (fun net => decide ((∀ k, net.started k = true) ∧ inFlight net 0 = [.QUERY 100 200] ∧
        inFlight net 1 = [.ADD 1 100 110 1 200])) = some true := by
    decide +kernel
  obtain ⟨net, hexec, hstarted, hquery, hadd⟩ := System.exists_of_exec hrun
  have hreach : (ex2 eachOther).system.Reachable net := System.Reachable.of_exec rfl hexec
  exact ⟨net, hexec, hquery, hadd, stopAndWait hreach (hstarted 0), stopAndWait hreach (hstarted 1)⟩

end Cmput379.Sdn
