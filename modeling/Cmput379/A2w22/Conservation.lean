import Cmput379.A2w22.SwitchLoop

/-!
# Where the packets of a switch go

A packet that has been admitted, or relayed to the switch, counts in one rule or as an ASK,
and every ADD brings a rule that counts the packet it was asked for.

* `pktCounts_countPacket`: one packet counts in one rule.
* `packets_accounted`: the equation, in every reachable state.
-/

namespace Cmput379.A2w22.SwitchLoop

open Cmput379.Lib SwitchState

/-- The sum of `pktCount` over the forwarding table. -/
def pktCounts (table : List Ft) : ℤ := (table.map Ft.pktCount).sum

@[simp] theorem pktCounts_append (table table' : List Ft) :
    pktCounts (table ++ table') = pktCounts table + pktCounts table' := by
  simp [pktCounts]

/-- A packet counts in one rule. -/
theorem pktCounts_countPacket {table : List Ft} {i : ℕ} (h : i < table.length) :
    pktCounts (countPacket table i) = pktCounts table + 1 := by
  unfold pktCounts countPacket
  induction table generalizing i with
  | nil => cases h
  | cons entry table ih =>
    cases i with
    | zero =>
      show entry.pktCount + 1 + (table.map Ft.pktCount).sum = _
      rw [List.map_cons, List.sum_cons]
      omega
    | succ i =>
      have hrest := ih (Nat.lt_of_succ_lt_succ h)
      rw [List.modify_succ_cons, List.map_cons, List.sum_cons, List.map_cons, List.sum_cons, hrest]
      omega

/-- Rule 0 is there; packets in and out are the same. -/
structure Balanced (s : SwitchState) : Prop where
  nonempty : 0 < s.forwardingTable.length
  balance : pktCounts s.forwardingTable + s.switch_stats.transmitted .ASK =
    s.switch_stats.received .ADMIT + s.switch_stats.received .RELAYIN +
      s.switch_stats.received .ADD

theorem length_countPacket (table : List Ft) (i : ℕ) :
    (countPacket table i).length = table.length :=
  List.length_modify ..

theorem balanced_init (cfg : SwitchConfig) (file : List Text) : Balanced (init cfg file) where
  nonempty := Nat.one_pos
  balance := rfl

section Steps

variable {cfg : SwitchConfig} {s : SwitchState} {r : SwitchState × List Sent}

/-- A packet comes in as `type` and counts in rule `i`. -/
theorem Balanced.count {s' : SwitchState} (h : Balanced s) {i : ℕ}
    (hi : i < s.forwardingTable.length)
    (htable : s'.forwardingTable = countPacket s.forwardingTable i)
    (hstats : s'.switch_stats.transmitted .ASK = s.switch_stats.transmitted .ASK ∧
      s'.switch_stats.received .ADMIT + s'.switch_stats.received .RELAYIN +
          s'.switch_stats.received .ADD =
        s.switch_stats.received .ADMIT + s.switch_stats.received .RELAYIN +
          s.switch_stats.received .ADD + 1) : Balanced s' := by
  obtain ⟨hask, hreceived⟩ := hstats
  have hcount := pktCounts_countPacket hi
  have hbalance := h.balance
  constructor
  · rw [htable, length_countPacket]
    exact h.nonempty
  · rw [htable, hcount, hask, hreceived]
    omega

/-- An ADD comes in with a rule that counts one packet. -/
theorem Balanced.push {s' : SwitchState} (h : Balanced s) {rule : Ft} (hrule : rule.pktCount = 1)
    (htable : s'.forwardingTable = s.forwardingTable ++ [rule])
    (hstats : s'.switch_stats.transmitted .ASK = s.switch_stats.transmitted .ASK ∧
      s'.switch_stats.received .ADMIT + s'.switch_stats.received .RELAYIN +
          s'.switch_stats.received .ADD =
        s.switch_stats.received .ADMIT + s.switch_stats.received .RELAYIN +
          s.switch_stats.received .ADD + 1) : Balanced s' := by
  obtain ⟨hask, hreceived⟩ := hstats
  have hone : pktCounts [rule] = 1 := by
    simp [pktCounts, hrule]
  have hbalance := h.balance
  constructor
  · rw [htable, List.length_append]
    exact Nat.lt_add_right _ h.nonempty
  · rw [htable, pktCounts_append, hone, hask, hreceived]
    omega

theorem balanced_turn (h : Balanced s) (hmove : TurnMove cfg s r) : Balanced r.1 := by
  cases hmove with
  | quiet lines hother => exact ⟨h.nonempty, h.balance⟩
  | deliver line lines rule hlines hown hlocal =>
    apply h.count h.nonempty rfl
    simp [admit_, PacketInfo.receive]
    omega
  | hit line lines rule i ft idx session hlines hown hlocal hfind hft hidx hsession =>
    obtain ⟨hi, -⟩ := List.getElem?_eq_some_iff.mp hft
    apply h.count hi rfl
    simp [PacketInfo.receive, PacketInfo.transmit]
    omega
  | ask line lines rule hlines hown hlocal hfind =>
    have hbalance := h.balance
    refine ⟨h.nonempty, ?_⟩
    simp [admit_, PacketInfo.receive, PacketInfo.transmit]
    omega

theorem balanced_receive (h : Balanced s) (hmove : ReceiveMove cfg s r) : Balanced r.1 := by
  cases hmove with
  | ack =>
    refine ⟨h.nonempty, ?_⟩
    simpa [receive_, PacketInfo.receive] using h.balance
  | relay =>
    apply h.count h.nonempty rfl
    simp [receive_, PacketInfo.receive]
    omega
  | drop ip =>
    apply h.push (by rfl) rfl
    simp [receive_, add_drop_rule, PacketInfo.receive]
    omega
  | forward port1 low high =>
    apply h.push (by rfl) rfl
    simp [receive_, add_forward_rule, PacketInfo.receive, PacketInfo.transmit]
    omega

end Steps

/-- Rule hits and ASKs are the packets admitted, the RELAYs and the ADDs. -/
theorem packets_accounted {cfg : SwitchConfig} {file : List Text} {s : SwitchState}
    (h : (system cfg file).Reachable s) :
    pktCounts s.forwardingTable + s.switch_stats.transmitted .ASK =
      s.switch_stats.received .ADMIT + s.switch_stats.received .RELAYIN +
        s.switch_stats.received .ADD := by
  have hbalanced : Balanced s := invariant_of_reachable h (balanced_init cfg file)
    (fun _ _ hs hmove => balanced_turn hs hmove) fun _ _ hs hmove => balanced_receive hs hmove
  exact hbalanced.balance

def threeLines : List Text := ["psw1 100 102".toList, "psw1 100 200".toList, "psw1 100 205".toList]

/-- A packet for the switch itself, one that is asked for, one that hits the new rule, and
    one from switch 2. -/
def allKinds : List Action :=
  [.traffic, .traffic, .receive (fields "ADD 1 1 -1 200 210".toList), .traffic,
    .receive (fields "RELAY 2".toList)]

theorem packets_accounted_allKinds : ∃ s,
    (system ex2Switch1 threeLines).exec (init ex2Switch1 threeLines) allKinds = some s ∧
    s.switch_stats.received .ADMIT = 3 ∧ s.switch_stats.transmitted .ASK = 1 ∧
    pktCounts s.forwardingTable + s.switch_stats.transmitted .ASK =
      s.switch_stats.received .ADMIT + s.switch_stats.received .RELAYIN +
        s.switch_stats.received .ADD := by
  have hrun : ((system ex2Switch1 threeLines).exec (init ex2Switch1 threeLines)
      allKinds).map (fun s => decide (s.switch_stats.received .ADMIT = 3 ∧
        s.switch_stats.transmitted .ASK = 1)) = some true := by
    decide +kernel
  obtain ⟨s, hexec, hadmitted, hask⟩ := System.exists_of_exec hrun
  exact ⟨s, hexec, hadmitted, hask, packets_accounted (System.Reachable.of_exec rfl hexec)⟩

end Cmput379.A2w22.SwitchLoop
