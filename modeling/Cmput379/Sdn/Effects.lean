import Cmput379.Sdn.Switch

/-!
# What the handlers of a switch change

Lemmas that say, for each handler of `Cmput379.Sdn.Switch`, which variables it
leaves alone and which packets it writes, so that no later proof unfolds a
handler:

* `SwitchState.control`: the variables that belong to the exchange with the
  controller. Traffic lines that match a rule and RELAY packets keep them.
* `matchRule_eq_some`: matching is first-match and changes only packet counts.
* `transitPort`: the port the transit rule picks.
-/

namespace Cmput379.Sdn

open Cmput379.Lib

namespace SwitchState

/-- What only the exchange with the controller changes. -/
def control (s : SwitchState) : Bool × Bool × ℤ × ℤ × List ℤ × (ℤ → ℤ) :=
  (s.ackReceived, s.addReceived, s.counts.query, s.counts.add, s.closed, s.portToId)

/-- `s'` is `s` further on in its traffic file and with another delay. -/
structure Quiet (s s' : SwitchState) : Prop where
  control : s'.control = s.control
  flowTable : s'.flowTable = s.flowTable
  portToFd : s'.portToFd = s.portToFd
  counts : s'.counts = s.counts

theorem Quiet.refl (s : SwitchState) : Quiet s s := ⟨rfl, rfl, rfl, rfl⟩

variable (cfg : SwitchConfig) (s : SwitchState)

/-- The descriptor `port` is written to, once it has been opened. -/
def outFd (port : ℤ) : Fd :=
  (s.portToFd port).getD (.fifo (makeFifoName cfg.id (s.portToId port)))

theorem openPort_portToFd (port : ℤ) :
    (s.openPort cfg port).portToFd =
      Function.update s.portToFd port (some (s.outFd cfg port)) := by
  unfold openPort outFd
  split_ifs with h
  · obtain ⟨fd, hfd⟩ := Option.isSome_iff_exists.mp h
    simp [hfd]
  · simp [Option.not_isSome_iff_eq_none.mp h]

@[simp] theorem openPort_control (port : ℤ) : (s.openPort cfg port).control = s.control := by
  unfold openPort
  split_ifs <;> rfl

@[simp] theorem openPort_flowTable (port : ℤ) :
    (s.openPort cfg port).flowTable = s.flowTable := by
  unfold openPort
  split_ifs <;> rfl

theorem openPort_fdAt (port : ℤ) : (s.openPort cfg port).fdAt port = s.outFd cfg port := by
  simp [fdAt, openPort_portToFd]

theorem control_closed {s s' : SwitchState} (h : s'.control = s.control) :
    s'.closed = s.closed := by
  simp only [control, Prod.mk.injEq] at h
  exact h.2.2.2.2.1

/-! ### A packet that matches a rule -/

variable (rule : FlowRule) (flowTable : List FlowRule) (srcIp destIp : ℤ)

theorem useRule_control : (s.useRule cfg rule flowTable srcIp destIp).1.control = s.control := by
  unfold useRule
  split
  · rfl
  · split_ifs
    · exact openPort_control cfg { s with flowTable := flowTable } rule.actionVal
    · rfl

theorem useRule_flowTable :
    (s.useRule cfg rule flowTable srcIp destIp).1.flowTable = flowTable := by
  unfold useRule
  split
  · rfl
  · split_ifs
    · exact openPort_flowTable cfg { s with flowTable := flowTable } rule.actionVal
    · rfl

/-- Only a FORWARD rule for a neighbour sends, and it sends one RELAY with the
    header of the packet. -/
theorem useRule_writes (hclosed : s.closed = []) :
    (s.useRule cfg rule flowTable srcIp destIp).2 =
      if rule.actionType = .FORWARD ∧ rule.actionVal ≠ 3 then
        [⟨s.outFd cfg rule.actionVal, .RELAY srcIp destIp⟩] else [] := by
  have hopen : (({ s with flowTable := flowTable } : SwitchState).openPort cfg
      rule.actionVal).closed = [] := by
    rw [control_closed (openPort_control _ _ _)]
    exact hclosed
  unfold useRule
  split
  · rename_i h
    simp [h]
  · rename_i h
    simp only [h, true_and]
    split_ifs
    · simp only [relayUnlessClosed, hopen, List.not_mem_nil, if_false, openPort_fdAt]
      rfl
    · rfl

theorem useRule_portToFd :
    (s.useRule cfg rule flowTable srcIp destIp).1.portToFd =
      if rule.actionType = .FORWARD ∧ rule.actionVal ≠ 3 then
        Function.update s.portToFd rule.actionVal (some (s.outFd cfg rule.actionVal))
      else s.portToFd := by
  unfold useRule
  split
  · rename_i h
    simp [h]
  · rename_i h
    simp only [h, true_and]
    split_ifs
    · exact openPort_portToFd cfg { s with flowTable := flowTable } rule.actionVal
    · rfl

/-! ### FORWARD and RELAY packets -/

variable (i ipLow ipHigh port : ℤ)

theorem handleForward_fst : (s.handleForward cfg i ipLow ipHigh port srcIp).1 =
    ((s.openPort cfg port).countRelayOut).pushRule (addedRule ipLow ipHigh .FORWARD port) := rfl

theorem handleForward_writes (hclosed : s.closed = []) :
    (s.handleForward cfg i ipLow ipHigh port srcIp).2 =
      [⟨s.outFd cfg port, .RELAY srcIp ipLow⟩] := by
  have hopen : (s.openPort cfg port).closed = [] := by
    rw [control_closed (openPort_control _ _ _)]
    exact hclosed
  simp [handleForward, relayUnlessClosed, hopen, openPort_fdAt]

/-- The port the transit rule picks at a switch for a packet read from
    `pfds[i]`: the id of the switch is compared with the index `i`. -/
def transitPort (cfg : SwitchConfig) (i : ℤ) : Option ℤ :=
  if cfg.id > i then some 1 else if cfg.id < i then some 2 else none

theorem handleRelay_local (h : cfg.ipLow ≤ destIp ∧ destIp ≤ cfg.ipHigh) :
    s.handleRelay cfg i srcIp destIp =
      ({ s with counts := { s.counts with relayIn := s.counts.relayIn + 1 } }, []) := by
  unfold handleRelay
  rw [if_neg (by omega)]

theorem handleRelay_transit (hclosed : s.closed = [])
    (h : ¬ (cfg.ipLow ≤ destIp ∧ destIp ≤ cfg.ipHigh)) :
    s.handleRelay cfg i srcIp destIp =
      let s' := { s with counts := { s.counts with relayIn := s.counts.relayIn + 1 } }
      match transitPort cfg i with
      | some port => ((s'.indexFd port).countRelayOut, [⟨s.fdAt port, .RELAY srcIp destIp⟩])
      | none => (s', []) := by
  unfold handleRelay transitPort
  rw [if_pos (by omega)]
  simp only [hclosed, List.not_mem_nil, if_false]
  split_ifs <;> rfl

theorem handleRelay_control :
    (s.handleRelay cfg i srcIp destIp).1.control = s.control := by
  unfold handleRelay
  dsimp only
  split_ifs <;> rfl

theorem handleRelay_flowTable :
    (s.handleRelay cfg i srcIp destIp).1.flowTable = s.flowTable := by
  unfold handleRelay
  dsimp only
  split_ifs <;> rfl

/-- Every packet a RELAY causes is a RELAY with the same header, and goes to the
    descriptor found for port 1 or 2. -/
theorem handleRelay_writes :
    ∀ w ∈ (s.handleRelay cfg i srcIp destIp).2,
      w.packet = .RELAY srcIp destIp ∧ (w.fd = s.fdAt 1 ∨ w.fd = s.fdAt 2) := by
  unfold handleRelay
  dsimp only
  split_ifs <;> simp [fdAt]

theorem handleRelay_portToFd :
    ∀ p, (s.handleRelay cfg i srcIp destIp).1.portToFd p = s.portToFd p ∨
      (p ≠ 0 ∧ (s.handleRelay cfg i srcIp destIp).1.portToFd p = some (s.fdAt p)) := by
  intro p
  have hindex : ∀ q : ℤ, q ≠ 0 →
      Function.update s.portToFd q (some (s.fdAt q)) p = s.portToFd p ∨
        (p ≠ 0 ∧ Function.update s.portToFd q (some (s.fdAt q)) p = some (s.fdAt p)) := by
    intro q hq
    by_cases hp : p = q
    · subst hp
      exact .inr ⟨hq, by simp⟩
    · exact .inl (by simp [hp])
  unfold handleRelay
  dsimp only
  split_ifs
  · exact .inl rfl
  · exact hindex 1 (by decide)
  · exact hindex 2 (by decide)
  · exact .inl rfl
  · exact .inl rfl

end SwitchState

/-! ## Matching -/

namespace SwitchState

/-- A rule without its packet count. -/
def forget (rule : FlowRule) : FlowRule := { rule with pktCount := 0 }

@[simp] theorem forget_covers (rule : FlowRule) (ip : ℤ) :
    (forget rule).covers ip ↔ rule.covers ip := Iff.rfl

/-- Matching finds the first rule that covers the address and changes only
    packet counts. -/
theorem matchRule_eq_some {destIp : ℤ} {table table' : List FlowRule} {rule : FlowRule}
    (h : matchRule destIp table = some (rule, table')) :
    table.find? (fun r => r.covers destIp) = some rule ∧ table'.map forget = table.map forget := by
  induction table generalizing table' with
  | nil => simp [matchRule] at h
  | cons r table ih =>
    rw [matchRule] at h
    split_ifs at h with hr
    · cases h
      simp [hr, forget]
    · obtain ⟨⟨found, rules⟩, hmatch, heq⟩ := Option.map_eq_some_iff.mp h
      cases heq
      obtain ⟨hfind, hmap⟩ := ih hmatch
      simp [hr, hfind, hmap]

theorem matchRule_eq_none {destIp : ℤ} {table : List FlowRule}
    (h : matchRule destIp table = none) : ∀ r ∈ table, ¬ r.covers destIp := by
  induction table with
  | nil => simp
  | cons r table ih =>
    rw [matchRule] at h
    split_ifs at h with hr
    have := ih (Option.map_eq_none_iff.mp h)
    simpa [hr] using this

end SwitchState

end Cmput379.Sdn
