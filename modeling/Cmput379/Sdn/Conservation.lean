import Cmput379.Sdn.SwitchLoop

/-!
# Where the packets of a switch go

Every packet that a switch has admitted has hit one rule or has caused one QUERY, and every
ADD accounts for the packet that caused it.

* `pktCounts`: the packets that the flow table accounts for.
* `packets_conserved`: the equation, in every reachable state.
-/

namespace Cmput379.Sdn.SwitchLoop

open Cmput379.Lib SwitchState

/-- The sum of `pktCount` over the flow table. -/
def pktCounts (flowTable : List FlowRule) : ℤ := (flowTable.map FlowRule.pktCount).sum

@[simp] theorem pktCounts_cons (rule : FlowRule) (rules : List FlowRule) :
    pktCounts (rule :: rules) = rule.pktCount + pktCounts rules := by
  simp [pktCounts]

@[simp] theorem pktCounts_append (rules rules' : List FlowRule) :
    pktCounts (rules ++ rules') = pktCounts rules + pktCounts rules' := by
  simp [pktCounts]

/-- A match counts one packet, in one rule. -/
theorem pktCounts_matchRule {destIp : ℤ} {table table' : List FlowRule} {rule : FlowRule}
    (h : matchRule destIp table = some (rule, table')) :
    pktCounts table' = pktCounts table + 1 := by
  induction table generalizing table' with
  | nil => simp [matchRule] at h
  | cons r table ih =>
    rw [matchRule] at h
    split_ifs at h with hr
    · cases h
      simp only [pktCounts_cons]
      omega
    · obtain ⟨⟨found, rules⟩, hmatch, heq⟩ := Option.map_eq_some_iff.mp h
      cases heq
      have hrules := ih hmatch
      simp only [pktCounts_cons]
      omega

/-- A rule as it is received counts the packet that was asked for. -/
theorem pktCounts_addedRule (ipLow ipHigh : ℤ) (actionType : ActionType) (actionVal : ℤ) :
    pktCounts [addedRule ipLow ipHigh actionType actionVal] = 1 := rfl

/-- Admitted packets and ADDs on one side, rule hits and QUERYs on the other. -/
def Balanced (s : SwitchState) : Prop :=
  pktCounts s.flowTable + s.counts.query = s.counts.admit_ + s.counts.add

instance (s : SwitchState) : Decidable (Balanced s) := inferInstanceAs (Decidable (_ = _))

section Steps

variable {cfg : SwitchConfig} {s : SwitchState}

/-- Only the table and three counters matter. -/
theorem Balanced.congr {s' : SwitchState} (h : Balanced s) (htable : s'.flowTable = s.flowTable)
    (hcounts : (s'.counts.query, s'.counts.admit_, s'.counts.add) =
      (s.counts.query, s.counts.admit_, s.counts.add)) : Balanced s' := by
  simp only [Prod.mk.injEq] at hcounts
  obtain ⟨hquery, hadmit, hadd⟩ := hcounts
  unfold Balanced
  rw [htable, hquery, hadmit, hadd]
  exact h

/-- A hit counts in one rule. -/
theorem balanced_hit {rule : FlowRule} {flowTable : List FlowRule} {destIp : ℤ}
    (h : Balanced s) (hmatch : matchRule destIp s.flowTable = some (rule, flowTable))
    {s' : SwitchState} (hs : Quiet s s') (srcIp : ℤ) :
    Balanced (s'.countAdmit.useRule cfg rule flowTable srcIp destIp).1 := by
  have hcounts : (s'.countAdmit.useRule cfg rule flowTable srcIp destIp).1.counts.query =
        s.counts.query ∧
      (s'.countAdmit.useRule cfg rule flowTable srcIp destIp).1.counts.admit_ =
        s.counts.admit_ + 1 ∧
      (s'.countAdmit.useRule cfg rule flowTable srcIp destIp).1.counts.add = s.counts.add := by
    rw [useRule_counts]
    split_ifs <;> simp [countRelayOut, countAdmit, hs.counts]
  obtain ⟨hquery, hadmit, hadd⟩ := hcounts
  have htable := pktCounts_matchRule hmatch
  unfold Balanced at h ⊢
  rw [useRule_flowTable, hquery, hadmit, hadd]
  omega

/-- A miss counts as a QUERY. -/
theorem balanced_miss {s' : SwitchState} (h : Balanced s) (hs : Quiet s s') (srcIp destIp : ℤ) :
    Balanced (s'.countAdmit.sendQuery srcIp destIp).1 := by
  unfold Balanced at h ⊢
  simp only [sendQuery, countAdmit, hs.flowTable, hs.counts]
  omega

/-- An ADD brings a rule that already counts one packet. -/
theorem balanced_pushRule {s' : SwitchState} {ipLow ipHigh val : ℤ} {actionType : ActionType}
    (h : Balanced s) (htable : s'.flowTable = s.flowTable)
    (hcounts : (s'.counts.query, s'.counts.admit_, s'.counts.add) =
      (s.counts.query, s.counts.admit_, s.counts.add)) :
    Balanced (s'.pushRule (addedRule ipLow ipHigh actionType val)) := by
  have h' := h.congr htable hcounts
  unfold Balanced at h' ⊢
  simp only [pushRule, pktCounts_append, pktCounts_addedRule]
  omega

/-- Every move keeps the balance. -/
theorem balanced_move {a : Action} {r : SwitchState × List Write} (h : Balanced s)
    (hmove : Move cfg s a r) : Balanced r.1 := by
  cases hmove with
  | quiet now ms s' hs hheader =>
    apply h.congr hs.flowTable
    rw [hs.counts]
  | hit now ms srcIp destIp s' rule flowTable hs hheader hmatch => exact balanced_hit h hmatch hs _
  | miss now ms srcIp destIp s' hs hheader hmatch => exact balanced_miss h hs _ _
  | ack hrange hopen => exact h.congr rfl rfl
  | drop ip srcIp hrange => exact balanced_pushRule h rfl rfl
  | forward ipLow ipHigh port srcIp hrange hport hopen =>
    rw [handleForward_fst]
    apply balanced_pushRule h
    · simp [countRelayOut]
    · simp [countRelayOut]
  | relay i srcIp destIp hrange hi hopen =>
    apply h.congr (handleRelay_flowTable cfg s srcIp destIp i)
    rw [handleRelay_counts]
  | hangUp i hi hopen => exact h.congr rfl rfl

end Steps

/-- At every loop boundary the rule hits and the QUERYs are the admitted packets and the
    ADDs. -/
theorem packets_conserved {cfg : SwitchConfig} {lines : List Text} {st : State}
    (h : (system cfg lines).Reachable st) :
    pktCounts st.sw.flowTable + st.sw.counts.query =
      st.sw.counts.admit_ + st.sw.counts.add := by
  refine invariant_of_reachable (I := fun st => Balanced st.sw) h ?_ ?_
  · show Balanced (SwitchState.init cfg lines)
    rfl
  · intro st a r hst hmove _
    exact balanced_move hst hmove

/-- A QUERY, its ADD, and a packet that hits the new rule. -/
def missThenHit : List Action :=
  [.receive socketIdx ackPacket, .traffic 0 0, .receive socketIdx addPacket, .traffic 0 0]

theorem packets_conserved_missThenHit : ∃ st,
    (system ex2Switch1 ["sw1 100 200".toList, "sw1 100 205".toList]).exec
      (init ex2Switch1 ["sw1 100 200".toList, "sw1 100 205".toList]) missThenHit = some st ∧
    st.sw.counts.query = 1 ∧ st.sw.counts.admit_ = 2 ∧ st.sw.counts.add = 1 ∧
    pktCounts st.sw.flowTable + st.sw.counts.query =
      st.sw.counts.admit_ + st.sw.counts.add := by
  have hrun : ((system ex2Switch1 ["sw1 100 200".toList, "sw1 100 205".toList]).exec
      (init ex2Switch1 ["sw1 100 200".toList, "sw1 100 205".toList]) missThenHit).map
        (fun st => decide (st.sw.counts.query = 1 ∧ st.sw.counts.admit_ = 2 ∧
          st.sw.counts.add = 1)) = some true := by
    decide +kernel
  obtain ⟨st, hexec, hquery, hadmit, hadd⟩ := System.exists_of_exec hrun
  exact ⟨st, hexec, hquery, hadmit, hadd, packets_conserved (System.Reachable.of_exec rfl hexec)⟩

end Cmput379.Sdn.SwitchLoop
