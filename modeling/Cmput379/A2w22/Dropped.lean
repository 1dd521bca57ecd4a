import Cmput379.A2w22.Forwarding
import Cmput379.A2w22.SwitchLoop

/-!
# Packets that are to be dropped

A DROP rule has the action value 0, which is also the port of the session with the
controller, and a hit looks up the session without looking at the action.

* `TableOk`: what the rules of a switch look like.
* `dropped_transmitted`: what happens to every packet that hits a DROP rule.
-/

namespace Cmput379.A2w22.SwitchLoop

open Cmput379.Lib SwitchState

/-- The packet is counted as admitted and in rule `i`, and nothing is sent. -/
def DropsQuietly (cfg : SwitchConfig) (s : SwitchState) (lines : List Text) (i : ℕ) : Prop :=
  s.turn cfg =
    some ({ admit_ s lines with forwardingTable := countPacket s.forwardingTable i }, [])

/-- The switch's own range comes first, and DROP rules have the action value 0. -/
structure TableOk (cfg : SwitchConfig) (table : List Ft) : Prop where
  first : (table.map Ft.route).head? = some (cfg.ip_range, .FORWARD, 3)
  drops : ∀ route ∈ table.map Ft.route, route.2.1 = .DROP → route.2.2 = 0

section Table

variable {cfg : SwitchConfig} {table : List Ft}

/-- Only packets are counted. -/
theorem TableOk.count (h : TableOk cfg table) (i : ℕ) : TableOk cfg (countPacket table i) := by
  obtain ⟨first, drops⟩ := h
  constructor
  · rw [route_countPacket]
    exact first
  · rw [route_countPacket]
    exact drops

/-- A rule is added behind the others. -/
theorem TableOk.push (h : TableOk cfg table) {rule : Ft}
    (hrule : rule.actionType = .DROP → rule.action_value = 0) : TableOk cfg (table ++ [rule]) := by
  obtain ⟨first, drops⟩ := h
  constructor
  · rw [List.map_append, List.head?_append, first]
    rfl
  · intro route hroute hdrop
    rw [List.map_append, List.mem_append] at hroute
    rcases hroute with hroute | hroute
    · exact drops route hroute hdrop
    · obtain rfl := List.mem_singleton.mp hroute
      exact hrule hdrop

theorem tableOk_turn {s : SwitchState} {r : SwitchState × List Sent}
    (h : TableOk cfg s.forwardingTable) (hmove : TurnMove cfg s r) :
    TableOk cfg r.1.forwardingTable := by
  cases hmove with
  | quiet => exact h
  | deliver => exact h.count 0
  | hit => exact h.count _
  | ask => exact h

theorem tableOk_receive {s : SwitchState} {r : SwitchState × List Sent}
    (h : TableOk cfg s.forwardingTable) (hmove : ReceiveMove cfg s r) :
    TableOk cfg r.1.forwardingTable := by
  cases hmove with
  | ack => exact h
  | relay => exact h.count 0
  | drop ip => exact h.push fun _ => rfl
  | forward port1 low high =>
    apply h.push
    intro hdrop
    cases hdrop

theorem tableOk_of_reachable {file : List Text} {s : SwitchState}
    (h : (system cfg file).Reachable s) : TableOk cfg s.forwardingTable := by
  refine invariant_of_reachable (I := fun s => TableOk cfg s.forwardingTable) h ?_
    (fun _ _ hs hmove => tableOk_turn hs hmove) fun _ _ hs hmove => tableOk_receive hs hmove
  constructor
  · rfl
  · intro route hroute hdrop
    obtain rfl := List.mem_singleton.mp hroute
    cases hdrop

/-- An address of the switch's own range hits the first rule. -/
theorem TableOk.not_local (h : TableOk cfg table) {ip : ℤ} {i : ℕ} {ft : Ft}
    (hfind : find_matching_rule table ip = some i) (hft : table[i]? = some ft)
    (hdrop : ft.actionType = .DROP) : (∃ j, i = j + 1) ∧ ¬ cfg.ip_range.Contains ip := by
  cases table with
  | nil => cases hft
  | cons entry table =>
    have hroute : Ft.route entry = (cfg.ip_range, .FORWARD, 3) := Option.some.inj h.first
    have hrange : entry.dest_range = cfg.ip_range := congrArg Prod.fst hroute
    have haction : entry.actionType = .FORWARD := congrArg (fun route => route.2.1) hroute
    constructor
    · cases i with
      | zero =>
        cases hft
        rw [haction] at hdrop
        cases hdrop
      | succ j => exact ⟨j, rfl⟩
    · intro hlocal
      rw [← hrange] at hlocal
      have hzero : find_matching_rule (entry :: table) ip = some 0 := by
        simp [find_matching_rule, List.findIdx?_cons, hlocal]
      rw [hzero] at hfind
      cases hfind
      cases hft
      rw [haction] at hdrop
      cases hdrop

end Table

section Dropped

variable {cfg : SwitchConfig} {file : List Text} {s : SwitchState} {line : Text}
  {lines : List Text} {rule : TrafficRule} {i : ℕ} {ft : Ft}

/-- Every packet whose address first matches a DROP rule is transmitted to the controller as
    a RELAY, and counted as transmitted. -/
theorem dropped_transmitted (h : (system cfg file).Reachable s) (hlines : s.lines = line :: lines)
    (hown : Own cfg line rule)
    (hfind : find_matching_rule s.forwardingTable rule.dest_ip = some i)
    (hft : s.forwardingTable[i]? = some ft) (hdrop : ft.actionType = .DROP) :
    s.turn cfg = some
        ({ admit_ s lines with
            forwardingTable := countPacket s.forwardingTable i
            switch_stats := (s.switch_stats.receive .ADMIT).transmit .RELAYIN },
          [⟨0, relayMessage cfg.switchID⟩]) ∧
      ¬ DropsQuietly cfg s lines i := by
  have htable := tableOk_of_reachable h
  obtain ⟨⟨j, rfl⟩, hlocal⟩ := htable.not_local hfind hft hdrop
  have hvalue : ft.action_value = 0 :=
    htable.drops ft.route (List.mem_map_of_mem (List.mem_of_getElem? hft)) hdrop
  have hsession : find_matching_session cfg.switch_sessions ft.action_value = some 0 ∧
      cfg.switch_sessions[0]? = some ⟨0, 0⟩ := by
    rw [hvalue]
    exact ⟨rfl, rfl⟩
  have hturn : s.turn cfg = some
      ({ admit_ s lines with
          forwardingTable := countPacket s.forwardingTable (j + 1)
          switch_stats := (s.switch_stats.receive .ADMIT).transmit .RELAYIN },
        [⟨0, relayMessage cfg.switchID⟩]) := by
    obtain ⟨hparse, hid⟩ := hown
    unfold SwitchState.turn
    rw [hlines]
    simp only [hparse, Option.bind_eq_bind, Option.bind_some]
    rw [if_neg fun hboth => hlocal hboth.2, if_pos hid]
    unfold SwitchState.admitted
    simp only [hfind, hft, hsession.1, hsession.2, Option.bind_eq_bind, Option.bind_some]
    rfl
  refine ⟨hturn, ?_⟩
  intro hquiet
  have hwrites := congrArg Prod.snd (Option.some.inj (hturn.symm.trans hquiet))
  cases hwrites

end Dropped

def sameAddress : List Text := ["psw1 100 300".toList, "psw1 100 300".toList]

def againTo300 : TrafficRule := ⟨1, 100, 300⟩

/-- Nobody owns the address. -/
def askedOnce : List Action := [.traffic, .receive (fields "ADD 1 300".toList)]

theorem exec_askedOnce : ∃ s ft,
    (system ex2Switch1 sameAddress).exec (init ex2Switch1 sameAddress) askedOnce = some s ∧
    s.lines = ["psw1 100 300".toList] ∧ Own ex2Switch1 "psw1 100 300".toList againTo300 ∧
    find_matching_rule s.forwardingTable againTo300.dest_ip = some 1 ∧
    s.forwardingTable[1]? = some ft ∧ ft.actionType = .DROP ∧
    (s.turn ex2Switch1).map Prod.snd = some [⟨0, relayMessage ex2Switch1.switchID⟩] := by
  have hrun : ((system ex2Switch1 sameAddress).exec (init ex2Switch1 sameAddress)
      askedOnce).map (fun s => decide (s.lines = ["psw1 100 300".toList] ∧
        find_matching_rule s.forwardingTable againTo300.dest_ip = some 1 ∧
        s.forwardingTable[1]? = some ⟨⟨0, MAXIP⟩, ⟨300, 300⟩, .DROP, 0, 1⟩ ∧
        (s.turn ex2Switch1).map Prod.snd =
          some [⟨0, relayMessage ex2Switch1.switchID⟩])) = some true := by
    decide +kernel
  have hparse : parse_traffic_rule "psw1 100 300".toList = some (some againTo300) := by
    decide +kernel
  obtain ⟨s, hexec, hlines, hfind, hft, hturn⟩ := System.exists_of_exec hrun
  exact ⟨s, _, hexec, hlines, ⟨hparse, rfl⟩, hfind, hft, rfl, hturn⟩

/-- The second packet is sent to the controller. -/
theorem dropped_counterexample : ∃ s ft, (system ex2Switch1 sameAddress).Reachable s ∧
    s.lines = ["psw1 100 300".toList] ∧ Own ex2Switch1 "psw1 100 300".toList againTo300 ∧
    find_matching_rule s.forwardingTable againTo300.dest_ip = some 1 ∧
    s.forwardingTable[1]? = some ft ∧ ft.actionType = .DROP ∧
    (s.turn ex2Switch1).map Prod.snd = some [⟨0, relayMessage ex2Switch1.switchID⟩] ∧
    ¬ DropsQuietly ex2Switch1 s [] 1 := by
  obtain ⟨s, ft, hexec, hlines, hown, hfind, hft, hdrop, hturn⟩ := exec_askedOnce
  refine ⟨s, ft, .of_exec rfl hexec, hlines, hown, hfind, hft, hdrop, hturn, ?_⟩
  intro hquiet
  rw [hquiet] at hturn
  cases hturn

theorem dropped_transmitted_askedOnce : ∃ s,
    (system ex2Switch1 sameAddress).exec (init ex2Switch1 sameAddress) askedOnce = some s ∧
    s.turn ex2Switch1 = some
        ({ admit_ s [] with
            forwardingTable := countPacket s.forwardingTable 1
            switch_stats := (s.switch_stats.receive .ADMIT).transmit .RELAYIN },
          [⟨0, relayMessage ex2Switch1.switchID⟩]) ∧
      ¬ DropsQuietly ex2Switch1 s [] 1 := by
  obtain ⟨s, ft, hexec, hlines, hown, hfind, hft, hdrop, -⟩ := exec_askedOnce
  exact ⟨s, hexec, dropped_transmitted (.of_exec rfl hexec) hlines hown hfind hft hdrop⟩

end Cmput379.A2w22.SwitchLoop
