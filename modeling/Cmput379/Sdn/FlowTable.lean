import Mathlib.Tactic.FinCases
import Cmput379.Sdn.Ledger

/-!
# Flow tables

The flow tables of the switches are caches of the controller's
`switchInfoTable`: `directory` is the remote cache they implement, and `view`
maps the states of the network to its states.

* `view_reachable`: the network refines the remote cache.
* `flowTableOk`: rules cover what they were asked for, no address is asked for
  twice, FORWARD rules are disjoint, DROP rules have different addresses.
-/

namespace Cmput379.Sdn

open Cmput379.Lib SwitchState

variable {n : ℕ} {N : Network n} {net net' : NetState n}

/-! ## The remote cache -/

/-- The rule sent for a QUERY read from slot `slot`, without its packet count. -/
def sentRule (entries : List SwitchInfo) (slot : ℤ) (q : Request) : FlowRule :=
  match entries.find? fun info => info.contains q.destIp with
  | some info =>
    forget (addedRule info.ipLow info.ipHigh .FORWARD (ControllerState.relayPort info slot))
  | none => forget (addedRule q.destIp q.destIp .DROP 0)

theorem sentRule_covers (entries : List SwitchInfo) (slot : ℤ) (q : Request) :
    (sentRule entries slot q).covers q.destIp := by
  unfold sentRule
  split
  · rename_i info hfind
    have hcontains : info.contains q.destIp := by simpa using List.find?_some hfind
    exact hcontains
  · exact ⟨le_refl _, le_refl _⟩

/-- The cache of `switchInfoTable` that the switches keep. -/
def directory (N : Network n) : RemoteCache (Fin n) ℤ Request ℤ SwitchInfo FlowRule where
  base := fun k => [forget (initialRule (N.cfg k))]
  covers := FlowRule.covers
  key := Request.destIp
  rule := sentRule
  rule_covers := sentRule_covers

/-- The state of the cache that a state of the network stands for. -/
def view (net : NetState n) : RemoteCache.State (Fin n) ℤ Request SwitchInfo FlowRule where
  entries := net.ctrl.switchInfoTable
  client := fun k =>
    let l := ledger net k
    ⟨l.rules, l.asked, l.answered, l.added.length⟩

/-- The packet sent for an answer installs the rule of the answer. -/
theorem rule_of_installs {table : List SwitchInfo} {a : Answer} {rule : FlowRule}
    (h : Installs (replyOf table a).2 rule) : rule = (directory N).ruleOf table a := by
  simp only [replyOf, ControllerState.answer] at h
  simp only [RemoteCache.ruleOf, directory, sentRule]
  cases hfind : (table.take a.known).find? fun info => info.contains a.request.destIp with
  | some info =>
    simp only [hfind] at h
    cases h
    rfl
  | none =>
    simp only [hfind] at h
    cases h
    rfl

/-- What a step of the exchange is in the cache. -/
theorem LedgerStep.view (h : LedgerStep N net net')
    (hc : ∀ k, Conserved net.ctrl.switchInfoTable (ledger net k)) :
    view net' = view net ∨ ∃ l, (directory N).step (view net) l = some (view net') := by
  have hview : ∀ k l, net'.ctrl.switchInfoTable = net.ctrl.switchInfoTable →
      ledger net' = Function.update (ledger net) k l → Sdn.view net' =
        (Sdn.view net).setClient k ⟨l.rules, l.asked, l.answered, l.added.length⟩ := by
    intro k l htable hl
    simp only [Sdn.view, RemoteCache.State.setClient, htable, hl, RemoteCache.State.mk.injEq,
      true_and]
    funext j
    by_cases hj : j = k
    · subst hj
      simp
    · simp [Function.update_of_ne hj]
  cases h with
  | same htable h =>
    left
    simp only [Sdn.view, htable, h]
  | register k htable h =>
    refine .inr ⟨.register (N.info k), ?_⟩
    simp only [RemoteCache.step, Sdn.view, htable, h]
  | ask k q hup hdown hmiss htable h =>
    obtain ⟨hasked, -, hadded⟩ := hc k
    have hidle : (ledger net k).asked.length = (ledger net k).added.length := by
      have hlen := congrArg List.length hadded
      rw [hup] at hasked
      rw [hdown] at hlen
      simp only [List.append_nil, List.length_map] at hasked hlen
      rw [hasked, List.length_map, hlen]
    refine .inr ⟨.ask k q, ?_⟩
    rw [hview k _ htable h]
    simp only [RemoteCache.step]
    rw [if_pos ⟨hidle, hmiss⟩]
    rfl
  | answer k slot q hup hdown htable h =>
    obtain ⟨hasked, -, -⟩ := hc k
    have hq : (ledger net k).asked[(ledger net k).answered.length]? = some q := by
      rw [hasked, hup, List.getElem?_append_right (by simp)]
      simp
    refine .inr ⟨.answer k slot, ?_⟩
    rw [hview k _ htable h]
    simp only [RemoteCache.step, Sdn.view, hq]
  | install k c packet rule hdown hrule htable h =>
    obtain ⟨-, -, hadded⟩ := hc k
    rw [hdown] at hadded
    have hget : ((ledger net k).answered.map
        (replyOf net.ctrl.switchInfoTable))[(ledger net k).added.length]? = some (c, packet) := by
      rw [hadded, List.getElem?_append_right (le_refl _)]
      simp
    rw [List.getElem?_map] at hget
    obtain ⟨a, ha, hreply⟩ := Option.map_eq_some_iff.mp hget
    have hrule' : rule = (directory N).ruleOf net.ctrl.switchInfoTable a :=
      rule_of_installs (by rw [hreply]; exact hrule)
    refine .inr ⟨.install k, ?_⟩
    rw [hview k _ htable h, hrule']
    simp only [RemoteCache.step, Sdn.view, ha, List.length_append, List.length_singleton]

/-- The network refines the remote cache. -/
theorem view_reachable (h : N.system.Reachable net) :
    (directory N).system.Reachable (view net) := by
  refine System.Reachable.map ?_ ?_ h
  · rintro _ rfl
    rfl
  · intro s a t hs hstep
    exact ((transition_of_reachable hs hstep).ledger (wellFormed_of_reachable hs)).view
      (conserved_of_reachable hs)

/-- The invariant of the remote cache at switch `k`. -/
theorem clientInv_of_reachable (h : N.system.Reachable net) (k : Fin n) :
    (directory N).ClientInv net.ctrl.switchInfoTable k ((view net).client k) :=
  RemoteCache.inv_of_reachable (view_reachable h) k

/-! ## The rules of a switch -/

/-- The rules of switch `k`: the initial one, and one for each ADD it handled. -/
theorem rules_eq (h : N.system.Reachable net) (k : Fin n) :
    (ledger net k).rules = forget (initialRule (N.cfg k)) ::
      ((ledger net k).answered.take (ledger net k).added.length).map
        ((directory N).ruleOf net.ctrl.switchInfoTable) :=
  (clientInv_of_reachable h k).table

/-- A FORWARD rule has the range of a switch, a DROP rule a single address. -/
theorem rule_shape (h : N.system.Reachable net) (k : Fin n) {rule : FlowRule}
    (hrule : rule ∈ (ledger net k).rules) :
    (rule.actionType = .FORWARD ∧ ∃ t, rule.destIpLow = (N.cfg t).ipLow ∧
      rule.destIpHigh = (N.cfg t).ipHigh) ∨
    (rule.actionType = .DROP ∧ rule.destIpLow = rule.destIpHigh) := by
  rw [rules_eq h k, List.mem_cons] at hrule
  rcases hrule with rfl | hrule
  · exact .inl ⟨rfl, k, rfl, rfl⟩
  · obtain ⟨a, -, rfl⟩ := List.mem_map.mp hrule
    simp only [RemoteCache.ruleOf, directory, sentRule]
    split
    · rename_i info hfind
      have hmem := List.mem_of_mem_take (List.mem_of_find?_eq_some hfind)
      obtain ⟨t, rfl⟩ := (wellFormed_of_reachable h).table info hmem
      exact .inl ⟨rfl, t, rfl, rfl⟩
    · exact .inr ⟨rfl, rfl⟩

/-- A DROP rule is for a single address. -/
theorem drop_address (h : N.system.Reachable net) (k : Fin n) {rule : FlowRule}
    (hrule : rule ∈ (net.sw k).flowTable) (hdrop : rule.actionType = .DROP) :
    rule.destIpLow = rule.destIpHigh := by
  rcases rule_shape h k (List.mem_map_of_mem hrule) with ⟨hforward, -⟩ | ⟨-, heq⟩
  · simp [forget, hdrop] at hforward
  · exact heq

/-- The ranges of two rules are disjoint. -/
def FlowRule.Disjoint (rule rule' : FlowRule) : Prop :=
  ∀ ip, ¬ (rule.covers ip ∧ rule'.covers ip)

/-- The rules of one kind are pairwise disjoint as soon as two of them that share
    an address have the same range. -/
theorem pairwise_disjoint (h : N.system.Reachable net) (k : Fin n) (type : ActionType)
    (hblock : ∀ r ∈ (ledger net k).rules, ∀ r' ∈ (ledger net k).rules,
      r.actionType = type → r'.actionType = type → ∀ ip, r.covers ip → r'.covers ip →
        r.destIpLow = r'.destIpLow ∧ r.destIpHigh = r'.destIpHigh) :
    ((net.sw k).flowTable.filter fun r => r.actionType = type).Pairwise FlowRule.Disjoint := by
  have hfilled := (clientInv_of_reachable h k).filled
  have hpair := hfilled.pairwise (fun r => r.actionType = type) ?_ ?_
  · have hrules : ((view net).client k).table = (net.sw k).flowTable.map forget := rfl
    rw [hrules, List.filter_map, List.pairwise_map] at hpair
    exact hpair
  · intro r hr r' hr' hp hp' ip hcov hcov' ip' hip'
    rw [decide_eq_true_eq] at hp hp'
    obtain ⟨hlow, hhigh⟩ := hblock r hr r' hr' hp hp' ip hcov hcov'
    exact ⟨hlow ▸ hip'.1, hhigh ▸ hip'.2⟩
  · exact List.Pairwise.filter _ (List.pairwise_singleton _ _)

/-! ## Integrity of a flow table -/

/-- The flow table of switch `k` against the QUERYs and ADDs of the run. -/
structure FlowTableOk (net : NetState n) (k : Fin n) : Prop where
  installed : ∀ i rule, (net.sw k).flowTable[i + 1]? = some rule →
    ∃ q packet, (ledger net k).asked[i]? = some q ∧
      (ledger net k).added[i]? = some (q.cause, packet) ∧ Installs packet (forget rule) ∧
      rule.covers q.destIp
  asked : ((ledger net k).asked.map Request.destIp).Nodup
  forward : ((net.sw k).flowTable.filter fun r => r.actionType = .FORWARD).Pairwise
    FlowRule.Disjoint
  address : ∀ rule ∈ (net.sw k).flowTable, rule.actionType = .DROP →
    rule.destIpLow = rule.destIpHigh
  drop : (((net.sw k).flowTable.filter fun r => r.actionType = .DROP).map
    FlowRule.destIpLow).Nodup

theorem installs_replyOf (table : List SwitchInfo) (a : Answer) :
    Installs (replyOf table a).2 ((directory N).ruleOf table a) := by
  simp only [replyOf, ControllerState.answer, RemoteCache.ruleOf, directory, sentRule]
  cases (table.take a.known).find? fun info => info.contains a.request.destIp with
  | some info => exact .forward _ _ _ _
  | none => exact .drop _ _ _ _

/-- The rule after the initial one and `i` others was sent for the `i`-th QUERY. -/
theorem installed_of_reachable (h : N.system.Reachable net) (k : Fin n) (i : ℕ) {rule : FlowRule}
    (hrule : (net.sw k).flowTable[i + 1]? = some rule) :
    ∃ a, (ledger net k).answered[i]? = some a ∧ (ledger net k).asked[i]? = some a.request ∧
      (ledger net k).added[i]? = some (replyOf net.ctrl.switchInfoTable a) ∧
      forget rule = (directory N).ruleOf net.ctrl.switchInfoTable a := by
  have hget : (ledger net k).rules[i + 1]? = some (forget rule) := by
    simp [ledger, hrule]
  rw [rules_eq h k, List.getElem?_cons_succ, List.getElem?_map] at hget
  obtain ⟨a, ha, hforget⟩ := Option.map_eq_some_iff.mp hget
  have hi : i < (ledger net k).added.length := by
    have hlt := (List.getElem?_eq_some_iff.mp ha).1
    rw [List.length_take] at hlt
    omega
  rw [List.getElem?_take_of_lt hi] at ha
  obtain ⟨hasked, -, hadded⟩ := conserved_of_reachable h k
  refine ⟨a, ha, ?_, ?_, hforget.symm⟩
  · have hlt := (List.getElem?_eq_some_iff.mp ha).1
    rw [hasked, List.getElem?_append_left (by simpa using hlt), List.getElem?_map, ha]
    rfl
  · have hsent : ((ledger net k).answered.map (replyOf net.ctrl.switchInfoTable))[i]? =
        some (replyOf net.ctrl.switchInfoTable a) := by
      rw [List.getElem?_map, ha]
      rfl
    rwa [hadded, List.getElem?_append_left hi] at hsent

/-- With disjoint ranges, every flow table is in order in every reachable state. -/
theorem flowTableOk (hN : N.DisjointRanges) (h : N.system.Reachable net) (k : Fin n) :
    FlowTableOk net k where
  installed := by
    intro i rule hrule
    obtain ⟨a, -, hasked, hadded, hforget⟩ := installed_of_reachable h k i hrule
    refine ⟨a.request, (replyOf net.ctrl.switchInfoTable a).2, hasked, hadded, ?_, ?_⟩
    · rw [hforget]
      exact installs_replyOf _ a
    · rw [← forget_covers, hforget]
      exact (directory N).rule_covers _ _ _
  asked := (clientInv_of_reachable h k).nodup
  forward := by
    refine pairwise_disjoint h k .FORWARD ?_
    intro r hr r' hr' hp hp' ip hcov hcov'
    rcases rule_shape h k hr with ⟨-, t, hlow, hhigh⟩ | ⟨hdrop, -⟩
    · rcases rule_shape h k hr' with ⟨-, t', hlow', hhigh'⟩ | ⟨hdrop', -⟩
      · have ht : t = t' := hN t t' ip (by rw [Network.Owns, ← hlow, ← hhigh]; exact hcov)
          (by rw [Network.Owns, ← hlow', ← hhigh']; exact hcov')
        rw [hlow, hlow', hhigh, hhigh', ht]
        exact ⟨rfl, rfl⟩
      · simp [hdrop'] at hp'
    · simp [hdrop] at hp
  address := fun rule hrule hdrop => drop_address h k hrule hdrop
  drop := by
    have hpair := pairwise_disjoint h k .DROP ?_
    · rw [List.Nodup, List.pairwise_map]
      refine hpair.imp_of_mem ?_
      intro r r' hr hr' hdisj heq
      rw [List.mem_filter, decide_eq_true_eq] at hr hr'
      have h1 := drop_address h k hr.1 hr.2
      have h2 := drop_address h k hr'.1 hr'.2
      exact hdisj r.destIpLow ⟨⟨le_refl _, h1.le⟩, ⟨heq.ge, heq ▸ h2 ▸ le_refl _⟩⟩
    · intro r hr r' hr' hp hp' ip hcov hcov'
      rcases rule_shape h k hr with ⟨hforward, -⟩ | ⟨-, heq⟩
      · simp [hforward] at hp
      · rcases rule_shape h k hr' with ⟨hforward', -⟩ | ⟨-, heq'⟩
        · simp [hforward'] at hp'
        · obtain ⟨h1, h2⟩ := hcov
          obtain ⟨h3, h4⟩ := hcov'
          omega

/-- The ranges of `ex2.dat` are disjoint. -/
theorem ex2_disjointRanges (lines : List Text) : (ex2 lines).DisjointRanges := by
  intro t u ip ht hu
  fin_cases t <;> fin_cases u <;>
    simp [Network.Owns, ex2, ex2Switch1, ex2Switch2] at ht hu ⊢ <;> omega

/-- Switch 1 of `ex2.dat` asks for an address of switch 2 before that has opened. -/
def earlyQuery : List (Action 2) :=
  [.start sw1, .accept, .toController 1, .fromController sw1, .traffic sw1 0 0, .toController 1,
    .fromController sw1]

/-- The flow table of switch 1 after it has installed the rule it was sent. -/
theorem flowTableOk_earlyQuery : ∃ net,
    (ex2 ["sw1 100 200".toList]).system.exec (ex2 ["sw1 100 200".toList]).initState
      earlyQuery = some net ∧ FlowTableOk net 0 := by
  have hsome : ((ex2 ["sw1 100 200".toList]).system.exec
      (ex2 ["sw1 100 200".toList]).initState earlyQuery).isSome = true := by
    decide +kernel
  obtain ⟨net, hexec⟩ := Option.isSome_iff_exists.mp hsome
  exact ⟨net, hexec, flowTableOk (ex2_disjointRanges _) (System.Reachable.of_exec rfl hexec) 0⟩

end Cmput379.Sdn
