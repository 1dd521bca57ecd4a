import Cmput379.Sdn.FlowTable

/-!
# Cached decisions

A rule of a switch says what the controller knew when it answered the QUERY the
rule was sent for. `switchInfoTable` may have grown since, and nothing is sent to
the switch when it does.

* `decision_iff`: the first matching rule of a switch says DROP iff none of the
  entries the controller had for that rule contains the address; a FORWARD
  decision agrees with the present table.
* `decision_counterexample`: a DROP rule outlives the OPEN of the owner.
-/

namespace Cmput379.Sdn

open Cmput379.Lib SwitchState

variable {n : ℕ} {N : Network n} {net : NetState n} {k : Fin n}

/-- No OPEN and no ADD is in flight. -/
def Settled (net : NetState n) : Prop :=
  (∀ k, ∀ m ∈ net.up k, m.packet.type ≠ ['O', 'P', 'E', 'N']) ∧
    ∀ k, ∀ m ∈ net.down k, m.packet.type ≠ ['A', 'D', 'D']

/-- `rule` is the `i`-th of `flowTable` and the first to cover `ip`. -/
structure FirstMatch (flowTable : List FlowRule) (i : ℕ) (rule : FlowRule) (ip : ℤ) : Prop where
  get : flowTable[i]? = some rule
  covers : rule.covers ip
  first : ∀ j, j < i → ∀ r, flowTable[j]? = some r → ¬ r.covers ip

/-- The entries `switchInfoTable` had when the controller answered the QUERY that
    the `i`-th rule of switch `k` was sent for; the initial rule, number 0, was
    not sent, and is compared with the present table. -/
def decidedWith (net : NetState n) (k : Fin n) : ℕ → List SwitchInfo
  | 0 => net.ctrl.switchInfoTable
  | i + 1 =>
    match (ledger net k).answered[i]? with
    | some a => net.ctrl.switchInfoTable.take a.known
    | none => net.ctrl.switchInfoTable

theorem decidedWith_subset (net : NetState n) (k : Fin n) (i : ℕ) :
    ∀ info ∈ decidedWith net k i, info ∈ net.ctrl.switchInfoTable := by
  unfold decidedWith
  split
  · exact fun info h => h
  · split
    · exact fun info h => List.mem_of_mem_take h
    · exact fun info h => h

/-- A rule sent for a QUERY decides as the entries it was computed from. -/
theorem sentRule_drop_iff (entries : List SwitchInfo) (slot : ℤ) (q : Request) {ip : ℤ}
    (hcov : (sentRule entries slot q).covers ip) :
    (sentRule entries slot q).actionType = .DROP ↔ ∀ info ∈ entries, ¬ info.contains ip := by
  unfold sentRule at hcov ⊢
  cases hfind : entries.find? fun info => info.contains q.destIp with
  | some info =>
    rw [hfind] at hcov
    refine ⟨nofun, fun hnone => ?_⟩
    exact absurd hcov (hnone info (List.mem_of_find?_eq_some hfind))
  | none =>
    rw [hfind] at hcov
    have hip : ip = q.destIp := le_antisymm hcov.2 hcov.1
    refine ⟨fun _ info hinfo => ?_, fun _ => rfl⟩
    rw [hip]
    simpa using List.find?_eq_none.mp hfind info hinfo

/-- A switch that has no OPEN in flight is known to the controller. -/
theorem opened_of_settled (hw : WellFormed N net) (hs : Settled net)
    (hk : net.started k = true) : Opened net k := by
  refine ⟨hk, fun m hm => ?_⟩
  cases hw.phase k with
  | opening started flags up down =>
    have := hs.1 k ⟨none, openPacket (N.cfg k)⟩ (by simp [up])
    simp [openPacket, Packet.type] at this
  | querying started flags c srcIp destIp hsrc hdest up down =>
    simp only [up, List.mem_singleton] at hm
    exact ⟨srcIp, destIp, by rw [hm]⟩
  | fresh started sw up down => simp [up] at hm
  | acking started flags up down => simp [up] at hm
  | idle started flags up down => simp [up] at hm
  | adding started flags c srcIp destIp answer hsrc hdest hanswer up down => simp [up] at hm

/-- The decision of a rule of a switch that the controller knows. -/
theorem rule_drop_iff (h : N.system.Reachable net) (ho : Opened net k) {i : ℕ} {rule : FlowRule}
    {ip : ℤ} (hget : (net.sw k).flowTable[i]? = some rule) (hcov : rule.covers ip) :
    rule.actionType = .DROP ↔ ∀ info ∈ decidedWith net k i, ¬ info.contains ip := by
  cases i with
  | zero =>
    have hrule : (ledger net k).rules[0]? = some (forget rule) := by simp [ledger, hget]
    rw [rules_eq h k, List.getElem?_cons_zero, Option.some.injEq] at hrule
    have htype : rule.actionType = .FORWARD := by
      have := congrArg FlowRule.actionType hrule
      simpa [forget, initialRule] using this.symm
    have hown : (N.info k).contains ip := by
      rw [← forget_covers, ← hrule] at hcov
      exact hcov
    refine ⟨fun hdrop => by simp [htype] at hdrop, fun hnone => ?_⟩
    exact absurd hown (hnone _ ((wellFormed_of_reachable h).registered k ho))
  | succ i =>
    obtain ⟨a, ha, -, -, hforget⟩ := installed_of_reachable h k i hget
    have hcov' :
        (sentRule (net.ctrl.switchInfoTable.take a.known) a.label a.request).covers ip := by
      rw [← forget_covers, hforget] at hcov
      exact hcov
    have htype : rule.actionType =
        (sentRule (net.ctrl.switchInfoTable.take a.known) a.label a.request).actionType := by
      have htype := congrArg FlowRule.actionType hforget
      exact htype
    rw [htype, sentRule_drop_iff _ _ _ hcov']
    simp only [decidedWith, ha]

/-- The decision a switch has cached for an address is that of the entries the
    controller had when it made it; a FORWARD decision is still right. -/
theorem decision_iff (h : N.system.Reachable net) (hs : Settled net)
    (hk : net.started k = true) {i : ℕ} {rule : FlowRule} {ip : ℤ}
    (hfirst : FirstMatch (net.sw k).flowTable i rule ip) :
    (rule.actionType = .DROP ↔ ∀ info ∈ decidedWith net k i, ¬ info.contains ip) ∧
      (rule.actionType = .FORWARD → ∃ info ∈ net.ctrl.switchInfoTable, info.contains ip) := by
  have ho := opened_of_settled (wellFormed_of_reachable h) hs hk
  have hiff := rule_drop_iff h ho hfirst.get hfirst.covers
  refine ⟨hiff, fun hforward => ?_⟩
  by_contra hnone
  have hdrop : rule.actionType = .DROP := by
    rw [hiff]
    intro info hinfo hcontains
    exact hnone ⟨info, decidedWith_subset net k i info hinfo, hcontains⟩
  simp [hforward] at hdrop

/-! ## A decision that has become wrong -/

/-- `earlyQuery`, and then switch 2 opens. -/
def lateOwner : List (Action 2) :=
  earlyQuery ++ [.start sw2, .accept, .toController 2, .fromController sw2]

/-- The DROP rule for address 200, first of those that cover it. -/
def earlyRule : FlowRule := addedRule 200 200 .DROP 0

theorem exec_lateOwner : ∃ net,
    (ex2 ["sw1 100 200".toList]).system.exec (ex2 ["sw1 100 200".toList]).initState
      lateOwner = some net ∧
    (net.sw 0).flowTable = [initialRule ex2Switch1, earlyRule] ∧
    net.ctrl.switchInfoTable = [⟨1, -1, 2, 100, 110⟩, ⟨2, 1, -1, 200, 210⟩] ∧
    net.started 0 = true ∧ (∀ k, net.up k = [] ∧ net.down k = []) := by
  have hrun : ((ex2 ["sw1 100 200".toList]).system.exec
      (ex2 ["sw1 100 200".toList]).initState lateOwner).map (fun net =>
        ((net.sw 0).flowTable, net.ctrl.switchInfoTable, net.started 0,
          [net.up 0, net.up 1, net.down 0, net.down 1])) =
      some ([initialRule ex2Switch1, earlyRule],
        [⟨1, -1, 2, 100, 110⟩, ⟨2, 1, -1, 200, 210⟩], true, [[], [], [], []]) := by
    decide +kernel
  obtain ⟨net, hexec, hview⟩ := Option.map_eq_some_iff.mp hrun
  simp only [Prod.mk.injEq, List.cons.injEq, and_true] at hview
  obtain ⟨hflow, htable, hstarted, hup0, hup1, hdown0, hdown1⟩ := hview
  refine ⟨net, hexec, hflow, htable, hstarted, fun k => ?_⟩
  fin_cases k
  · exact ⟨hup0, hdown0⟩
  · exact ⟨hup1, hdown1⟩

theorem earlyRule_first : FirstMatch [initialRule ex2Switch1, earlyRule] 1 earlyRule 200 := by
  refine ⟨rfl, by decide, fun j hj r hr => ?_⟩
  obtain rfl : j = 0 := by omega
  cases hr
  decide

/-- Switch 1 drops what it admits for address 200 although switch 2, which owns
    it, is in `switchInfoTable`. -/
theorem decision_counterexample : ∃ (N : Network 2) (net : NetState 2) (k : Fin 2) (i : ℕ)
    (rule : FlowRule) (ip : ℤ), N.DisjointRanges ∧ N.system.Reachable net ∧ Settled net ∧
      net.started k = true ∧ FirstMatch (net.sw k).flowTable i rule ip ∧
      ¬ (rule.actionType = .DROP ↔ ∀ info ∈ net.ctrl.switchInfoTable, ¬ info.contains ip) := by
  obtain ⟨net, hexec, hflow, htable, hstarted, hsockets⟩ := exec_lateOwner
  refine ⟨_, net, 0, 1, earlyRule, 200, ex2_disjointRanges _, System.Reachable.of_exec rfl hexec,
    ⟨fun k m hm => ?_, fun k m hm => ?_⟩, hstarted, hflow ▸ earlyRule_first, ?_⟩
  · simp [(hsockets k).1] at hm
  · simp [(hsockets k).2] at hm
  · rw [htable]
    decide

/-- The decision of that rule against the one entry it was computed from. -/
theorem decision_lateOwner : ∃ net,
    (ex2 ["sw1 100 200".toList]).system.exec (ex2 ["sw1 100 200".toList]).initState
      lateOwner = some net ∧
    (earlyRule.actionType = .DROP ↔ ∀ info ∈ decidedWith net 0 1, ¬ info.contains 200) ∧
      (earlyRule.actionType = .FORWARD →
        ∃ info ∈ net.ctrl.switchInfoTable, info.contains 200) := by
  obtain ⟨net, hexec, hflow, htable, hstarted, hsockets⟩ := exec_lateOwner
  refine ⟨net, hexec, decision_iff (System.Reachable.of_exec rfl hexec)
    ⟨fun k m hm => ?_, fun k m hm => ?_⟩ hstarted (hflow ▸ earlyRule_first)⟩
  · simp [(hsockets k).1] at hm
  · simp [(hsockets k).2] at hm

end Cmput379.Sdn
