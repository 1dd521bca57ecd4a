import Cmput379.A2w22.AsSent

/-!
# Where the forwarding rules point

In a line of switches, port 1 goes to the left and port 2 to the right. A switch that
gets an ADD compares the left neighbour of the owner with itself, so it finds the owner
to its right only if that is its own neighbour.

* `ruleOk_forwardRule`: the rule for the range of `t` is right up to the right neighbour.
* `rulesOk_iff`: when all the rules in the tables are right.
* `rulesOk_iff_counterexample`: the first of three switches asks for an address of the
  third.
-/

namespace Cmput379.A2w22

open Cmput379.Lib
open Cmput379.Sdn (nul)

variable {n : ℕ} {site : Site n}

/-- A line of switches with disjoint ranges. -/
structure Line (site : Site n) : Prop where
  left : ∀ k, (site.cfg k).pswj = if (k : ℕ) = 0 then -1 else (k : ℤ)
  right : ∀ k, (site.cfg k).pswk = if (k : ℕ) + 1 = n then -1 else (k : ℤ) + 2
  disjoint : ∀ {k t ip}, (site.cfg k).ip_range.Contains ip → (site.cfg t).ip_range.Contains ip →
    k = t

/-- Seen from `s`, the port is in the direction of `t`, and there is a session for it. -/
structure PointsTo (site : Site n) (s t : Fin n) (port : ℤ) : Prop where
  right : s < t → port = 2
  left : t < s → port = 1
  session : ∃ idx < (site.cfg s).switch_sessions.length,
    find_matching_session (site.cfg s).switch_sessions port = some idx

/-- A rule of switch `s` for the range of another switch. -/
def RuleOk (site : Site n) (s : Fin n) (rule : Ft) : Prop :=
  rule.actionType = .FORWARD → ∀ t, rule.dest_range = (site.cfg t).ip_range →
    PointsTo site s t rule.action_value

/-- All rules but the first of each table. -/
def RulesOk (site : Site n) (net : Net n) : Prop :=
  ∀ s, ∀ rule ∈ (net.sw s).forwardingTable.tail, RuleOk site s rule

/-- Where switch `s` reads an ADD for the range of switch `t`, that switch is not
    further to the right than the neighbour of `s`. -/
def Near (site : Site n) (net : Net n) (act : Action n) : Prop :=
  ∀ s t : Fin n, Reads site act = some (0, (site.cfg s).switchID) →
    (net.fifo 0 (site.cfg s).switchID).queue =
      forwardMessage (site.cfg s).switchID (site.entry t) ++ [nul] → (t : ℕ) ≤ s + 1

/-! ## One rule -/

section Rule

variable (hline : Line site) {s t : Fin n}

include hline

theorem session_left (h : 0 < (s : ℕ)) : ∃ idx < (site.cfg s).switch_sessions.length,
    find_matching_session (site.cfg s).switch_sessions 1 = some idx := by
  have hpos : (site.cfg s).pswj > 0 := by
    rw [hline.left, if_neg (Nat.ne_of_gt h)]
    omega
  unfold SwitchConfig.switch_sessions init_session
  rw [if_pos hpos]
  exact ⟨1, by simp, rfl⟩

theorem session_right (h : (s : ℕ) + 1 < n) : ∃ idx < (site.cfg s).switch_sessions.length,
    find_matching_session (site.cfg s).switch_sessions 2 = some idx := by
  have hpos : (site.cfg s).pswk > 0 := by
    rw [hline.right, if_neg (Nat.ne_of_lt h)]
    omega
  unfold SwitchConfig.switch_sessions init_session
  rw [if_pos hpos]
  split_ifs
  · exact ⟨2, by simp, rfl⟩
  · exact ⟨1, by simp, rfl⟩

/-- The owner is found to the right iff it is the neighbour there. -/
theorem forwardingPort_entry : SwitchState.forwardingPort (site.cfg s) (site.entry t).port1 =
    if (t : ℕ) = s + 1 then 2 else 1 := by
  unfold SwitchState.forwardingPort
  have hport : (site.entry t).port1 = if (t : ℕ) = 0 then -1 else (t : ℤ) := by
    show Controller.port (site.cfg t).pswj = _
    rw [hline.left]
    unfold Controller.port
    split_ifs <;> omega
  rw [hport, site.id_eq]
  split_ifs <;> omega

theorem ruleOk_forwardRule {ip : ℤ} (hother : ¬ (site.cfg s).ip_range.Contains ip)
    (howner : (site.cfg t).ip_range.Contains ip) :
    RuleOk site s (forwardRule (site.cfg s) (site.entry t)) ↔ (t : ℕ) ≤ s + 1 := by
  have hne : t ≠ s := by
    rintro rfl
    exact hother howner
  have hval : (t : ℕ) ≠ s := fun heq => hne (Fin.ext heq)
  have hport := forwardingPort_entry hline (s := s) (t := t)
  constructor
  · intro h
    have hpoints : PointsTo site s t
        (SwitchState.forwardingPort (site.cfg s) (site.entry t).port1) := h rfl t rfl
    by_contra hfar
    have hright := hpoints.right (Fin.lt_def.mpr (by omega))
    rw [hport, if_neg (by omega)] at hright
    exact absurd hright (by decide)
  · intro hnear _ t' hrange
    obtain rfl : t = t' := by
      apply hline.disjoint howner
      rw [← hrange]
      exact howner
    show PointsTo site s t (SwitchState.forwardingPort (site.cfg s) (site.entry t).port1)
    rw [hport]
    split_ifs with hnext
    · have hlt := t.isLt
      refine ⟨fun _ => rfl, fun hlt => ?_, session_right hline (by omega)⟩
      exact absurd (Fin.lt_def.mp hlt) (by omega)
    · refine ⟨fun hlt => ?_, fun _ => rfl, session_left hline (by omega)⟩
      exact absurd (Fin.lt_def.mp hlt) (by omega)

end Rule

/-! ## The tables -/

/-- What a rule does, without its count. -/
def Ft.route (rule : Ft) : IPs × ActionType × ℤ :=
  (rule.dest_range, rule.actionType, rule.action_value)

theorem route_countPacket (table : List Ft) (i : ℕ) :
    (countPacket table i).map Ft.route = table.map Ft.route := by
  unfold countPacket
  induction table generalizing i with
  | nil => rw [List.modify_nil]
  | cons rule table ih =>
    cases i with
    | zero => rfl
    | succ i =>
      rw [List.modify_succ_cons, List.map_cons, List.map_cons, ih i]

/-- Counts do not matter. -/
theorem rulesOk_congr {s : Fin n} {table table' : List Ft}
    (h : table'.map Ft.route = table.map Ft.route) :
    (∀ rule ∈ table'.tail, RuleOk site s rule) ↔ ∀ rule ∈ table.tail, RuleOk site s rule := by
  have hroutes : ∀ table : List Ft, (∀ rule ∈ table.tail, RuleOk site s rule) ↔
      ∀ r ∈ (table.map Ft.route).tail, r.2.1 = .FORWARD → ∀ t, r.1 = (site.cfg t).ip_range →
        PointsTo site s t r.2.2 := by
    intro table
    rw [← List.map_tail, List.forall_mem_map]
    rfl
  rw [hroutes, hroutes, h]

section Step

variable {net net' : Net n} {act : Action n}

/-- The first rule of each table is there. -/
def TablesNonempty (net : Net n) : Prop := ∀ s, (net.sw s).forwardingTable ≠ []

/-- A step that adds no rule. -/
theorem rulesOk_of_counts (hne : TablesNonempty net)
    (h : ∀ s, (net'.sw s).forwardingTable.map Ft.route = (net.sw s).forwardingTable.map Ft.route)
    (hnear : Near site net act) :
    TablesNonempty net' ∧ (RulesOk site net' ↔ RulesOk site net ∧ Near site net act) := by
  constructor
  · intro s hnil
    have hroutes := h s
    rw [hnil, List.map_nil, eq_comm, List.map_eq_nil_iff] at hroutes
    exact hne s hroutes
  · have heq : RulesOk site net' ↔ RulesOk site net := forall_congr' fun s => rulesOk_congr (h s)
    rw [heq]
    exact ⟨fun hok => ⟨hok, hnear⟩, fun hok => hok.1⟩

/-- A step that adds a rule to the table of switch `k`. -/
theorem rulesOk_of_append (hne : TablesNonempty net) {k : Fin n} {rule : Ft}
    (hk : (net'.sw k).forwardingTable = (net.sw k).forwardingTable ++ [rule])
    (hother : ∀ s, s ≠ k → net'.sw s = net.sw s)
    (hrule : RuleOk site k rule ↔ Near site net act) :
    TablesNonempty net' ∧ (RulesOk site net' ↔ RulesOk site net ∧ Near site net act) := by
  have htail : (net'.sw k).forwardingTable.tail = (net.sw k).forwardingTable.tail ++ [rule] := by
    rw [hk, List.tail_append_of_ne_nil (hne k)]
  constructor
  · intro s
    by_cases hs : s = k
    · subst hs
      rw [hk]
      simp
    · rw [hother s hs]
      exact hne s
  · rw [← hrule]
    constructor
    · intro hok
      refine ⟨fun s r hr => ?_, ?_⟩
      · by_cases hs : s = k
        · subst hs
          exact hok s r (htail ▸ List.mem_append_left _ hr)
        · exact hok s r (by rwa [hother s hs])
      · exact hok k rule (htail ▸ List.mem_append_right _ List.mem_cons_self)
    · rintro ⟨hok, hnew⟩ s r hr
      by_cases hs : s = k
      · subst hs
        rw [htail] at hr
        rcases List.mem_append.mp hr with hr | hr
        · exact hok s r hr
        · obtain rfl := List.mem_singleton.mp hr
          exact hnew
      · exact hok s r (by rwa [← hother s hs])

theorem near_of_reads (h : ∀ s, Reads site act ≠ some (0, (site.cfg s).switchID)) :
    Near site net act := fun s _ hreads => absurd hreads (h s)

/-- The peer of a session is the controller, or a neighbour that is there. -/
theorem peer_cases {cfg : SwitchConfig} {session : Session}
    (h : session ∈ cfg.switch_sessions) : session.peer = 0 ∨ 0 < session.peer := by
  unfold SwitchConfig.switch_sessions init_session at h
  rcases List.mem_append.mp h with h | h
  · rcases List.mem_append.mp h with h | h
    · obtain rfl := List.mem_singleton.mp h
      exact .inl rfl
    · split_ifs at h with hpos
      · obtain rfl := List.mem_singleton.mp h
        exact .inr hpos
      · cases h
  · split_ifs at h with hpos
    · obtain rfl := List.mem_singleton.mp h
      exact .inr hpos
    · cases h

/-- Switch `k` has handled `m`, which the controller has sent. -/
theorem rulesOk_of_down (hline : Line site) (hne : TablesNonempty net) {k : Fin n} {m : Text}
    (hm : DownMessage site k m) (hqueue : (net.fifo 0 (site.cfg k).switchID).queue = m ++ [nul])
    (hreads : Reads site act = some (0, (site.cfg k).switchID)) {t : SwitchState}
    {writes : List Sent}
    (hreceive : (net.sw k).switchReceive (site.cfg k) (fields m) = some (t, writes))
    (hk : net'.sw k = t) (hother : ∀ s, s ≠ k → net'.sw s = net.sw s) :
    TablesNonempty net' ∧ (RulesOk site net' ↔ RulesOk site net ∧ Near site net act) := by
  -- the text of an ADD with a range says which rule is added
  have hrule : ∀ u, m = forwardMessage (site.cfg k).switchID (site.entry u) →
      t.forwardingTable =
        (net.sw k).forwardingTable ++ [forwardRule (site.cfg k) (site.entry u)] := by
    rintro u rfl
    exact receive_forward (isInts_entry site u) hreceive
  have hnear : Near site net act ↔ ∀ u : Fin n,
      m = forwardMessage (site.cfg k).switchID (site.entry u) → (u : ℕ) ≤ k + 1 := by
    constructor
    · rintro h u rfl
      exact h k u hreads hqueue
    · intro h s u hs hsqueue
      obtain rfl : s = k := by
        rw [hreads] at hs
        exact id_inj (congrArg Prod.snd (Option.some.inj hs)).symm
      exact h u (List.append_cancel_right (hqueue.symm.trans hsqueue))
  rcases receive_down hm hreceive with
    ⟨-, htable⟩ | ⟨u, ip, houtside, howner, hmessage, htable⟩ | ⟨ip, -, -, htable⟩
  · apply rulesOk_of_counts hne
    · intro s
      by_cases hs : s = k
      · subst hs
        rw [hk, htable]
      · rw [hother s hs]
    · rw [hnear]
      intro u hu
      have hlen := congrArg List.length (htable.symm.trans (hrule u hu))
      simp at hlen
  · apply rulesOk_of_append hne (by rw [hk, htable]) hother
    rw [ruleOk_forwardRule hline houtside howner, hnear]
    constructor
    · intro hle u' hu'
      have heq := List.append_cancel_left (htable.symm.trans (hrule u' hu'))
      have hrange : (site.cfg u).ip_range = (site.cfg u').ip_range :=
        congrArg Ft.dest_range (List.cons.inj heq).1
      obtain rfl := hline.disjoint howner (hrange ▸ howner)
      exact hle
    · exact fun h => h u hmessage
  · apply rulesOk_of_append hne (by rw [hk, htable]) hother
    have hdrop : RuleOk site k (dropRule ip) := fun hforward =>
      absurd (show ActionType.DROP = ActionType.FORWARD from hforward) (by decide)
    refine iff_of_true hdrop (hnear.mpr fun u hu => ?_)
    have heq := List.append_cancel_left (htable.symm.trans (hrule u hu))
    have haction : ActionType.DROP = ActionType.FORWARD :=
      congrArg Ft.actionType (List.cons.inj heq).1
    exact absurd haction (by decide)

theorem rulesOk_of_step (hline : Line site) (htyped : Typed site net) {ok : ℤ → ℤ → Prop}
    (hbalanced : Balanced ok net) (hok : ∀ a b, ok a b)
    (hone : ∀ a b, ReadsOne site a b net act) (hne : TablesNonempty net)
    (hstep : step site net act = some net') :
    TablesNonempty net' ∧ (RulesOk site net' ↔ RulesOk site net ∧ Near site net act) := by
  have hupdate : ∀ (k : Fin n) (t : SwitchState),
      ((t.forwardingTable = (net.sw k).forwardingTable) ∨
        ∃ i, t.forwardingTable = countPacket (net.sw k).forwardingTable i) →
      ∀ s, (Function.update net.sw k t s).forwardingTable.map Ft.route =
        (net.sw s).forwardingTable.map Ft.route := by
    intro k t ht s
    by_cases hs : s = k
    · subst hs
      rw [Function.update_self]
      rcases ht with ht | ⟨i, ht⟩
      · rw [ht]
      · rw [ht, route_countPacket]
    · rw [Function.update_of_ne hs]
  cases act with
  | start k =>
    simp only [step] at hstep
    split_ifs at hstep
    cases hstep
    apply rulesOk_of_counts hne
    · rw [sw_sendAll]
      exact hupdate k _ (.inl rfl)
    · exact near_of_reads fun s hs => Option.some_ne_none _ hs.symm
  | traffic k =>
    simp only [step] at hstep
    split_ifs at hstep
    obtain ⟨⟨t, writes⟩, hturn, rfl⟩ := Option.map_eq_some_iff.mp hstep
    apply rulesOk_of_counts hne
    · rw [sw_sendAll]
      exact hupdate k _ (turn_cases hturn).1
    · exact near_of_reads fun s hs => Option.some_ne_none _ hs.symm
  | switchRead k session mem =>
    simp only [step] at hstep
    split at hstep
    · cases hstep
    · rename_i peer hsession
      split_ifs at hstep with hread
      obtain ⟨⟨t, writes⟩, hreceive, rfl⟩ := Option.map_eq_some_iff.mp hstep
      have hreads : Reads site (.switchRead k session mem) =
          some (peer.peer, (site.cfg k).switchID) := by
        simp [Reads, hsession]
      have hlegit := htyped.legit _ _ _ (received_mem_written hbalanced (hok _ _) hread.2 mem)
      rcases peer_cases (List.mem_of_getElem? hsession) with hpeer | hpeer
      · have hqueue := (hbalanced _ _).queue_of_one (hone _ _ hreads) (two_messages _)
        have hnul : nul ∈ (net.fifo peer.peer (site.cfg k).switchID).queue.take MAXBUF :=
          ((hbalanced _ _).short_firstFrame hread.2 (two_messages _)).1
        rw [← received_eq mem hnul] at hqueue
        rw [hpeer] at hreads hlegit hqueue hreceive
        apply rulesOk_of_down hline hne (hlegit.down k rfl rfl) hqueue hreads hreceive
        · rw [sw_sendAll]
          exact Function.update_self k t net.sw
        · intro s hs
          rw [sw_sendAll]
          exact Function.update_of_ne hs t net.sw
      · obtain ⟨k', hrelay⟩ := hlegit.side hpeer (id_pos site k)
        rw [hrelay] at hreceive
        apply rulesOk_of_counts hne
        · rw [sw_sendAll]
          exact hupdate k t (.inr ⟨0, receive_relay hreceive⟩)
        · apply near_of_reads
          intro s hs
          rw [hreads] at hs
          exact absurd (congrArg Prod.fst (Option.some.inj hs)) (Int.ne_of_gt hpeer)
  | controllerRead k mem =>
    simp only [step] at hstep
    split_ifs at hstep with hread
    obtain ⟨⟨ctrl, writes⟩, hreceive, rfl⟩ := Option.map_eq_some_iff.mp hstep
    apply rulesOk_of_counts hne
    · rw [sw_sendAll]
      exact fun s => rfl
    · apply near_of_reads
      intro s hs
      exact absurd (congrArg Prod.fst (Option.some.inj hs)) (Int.ne_of_gt (id_pos site k))

end Step

/-- All rules point the right way, and can be used, iff no switch has handled an ADD for
    the range of a switch behind its right neighbour. -/
theorem rulesOk_iff (hline : Line site) {tr : List (Net n × Action n)} {net : Net n}
    (h : (system site).Run (.init site) tr net) (hsent : AsSent site tr) :
    RulesOk site net ↔ ∀ p ∈ tr, Near site p.1 p.2 := by
  have hboth : TablesNonempty net ∧ (RulesOk site net ↔ ∀ p ∈ tr, Near site p.1 p.2) := by
    induction h with
    | nil =>
      refine ⟨fun s => List.cons_ne_nil _ _, iff_of_true ?_ ?_⟩
      · exact fun s rule hrule => absurd hrule List.not_mem_nil
      · exact fun p hp => absurd hp List.not_mem_nil
    | snoc hrun hstep ih =>
      have hprefix : AsSent site _ := fun p hp => hsent p (List.mem_append_left _ hp)
      obtain ⟨hne, hiff⟩ := ih hprefix
      have hlast := hsent _ (List.mem_append_right _ List.mem_cons_self)
      obtain ⟨hne', hstep'⟩ := rulesOk_of_step hline (typed_of_run hrun hprefix)
        (balance_of_run hrun).1 (fun a b p hp => hprefix p hp a b) hlast hne hstep
      refine ⟨hne', ?_⟩
      rw [hstep', hiff]
      simp only [List.forall_mem_append, List.forall_mem_singleton]
  exact hboth.2

/-! ## Three switches -/

/-- The ranges are 100-110, 200-210 and 300-310. -/
def threeSwitches (file : Fin 3 → List Text) : Site 3 where
  cfg k :=
    { switchID := (k : ℤ) + 1
      pswj := if (k : ℕ) = 0 then -1 else (k : ℤ)
      pswk := if (k : ℕ) + 1 = 3 then -1 else (k : ℤ) + 2
      ip_range := ⟨100 * ((k : ℤ) + 1), 100 * ((k : ℤ) + 1) + 10⟩
      id_int := by revert k; decide
      pswj_int := by revert k; decide
      pswk_int := by revert k; decide
      low_int := by revert k; decide
      high_int := by revert k; decide }
  file := file
  id_eq _ := rfl

theorem line_threeSwitches (file : Fin 3 → List Text) : Line (threeSwitches file) where
  left _ := rfl
  right _ := rfl
  disjoint := by
    rintro k t ip ⟨hlow, hhigh⟩ ⟨hlow', hhigh'⟩
    simp only [threeSwitches] at hlow hhigh hlow' hhigh'
    exact Fin.ext (by omega)

/-- Everybody says HELLO, then switch `k` takes a traffic line and gets its answer; the
    memory around the buffers is empty. -/
def greetAndAsk (k : Fin 3) : List (Action 3) :=
  (List.finRange 3).map .start ++ (List.finRange 3).map (.controllerRead · ⟨[], []⟩) ++
    [.switchRead k 0 ⟨[], []⟩, .traffic k, .controllerRead k ⟨[], []⟩, .switchRead k 0 ⟨[], []⟩]

/-- The first switch sends two packets to the third one. -/
def twoPackets : Fin 3 → List Text := fun k =>
  if k.val = 0 then ["psw1 100 300".toList, "psw1 100 300".toList] else []

/-- The rule of the first switch names port 1, for which it has no session: with the
    second packet it indexes `switch_sessions` with -1. -/
theorem rulesOk_iff_counterexample : Line (threeSwitches twoPackets) ∧ ∃ tr net,
    (system (threeSwitches twoPackets)).Run (.init (threeSwitches twoPackets)) tr net ∧
      AsSent (threeSwitches twoPackets) tr ∧
      (net.sw 0).forwardingTable.tail = [⟨⟨0, MAXIP⟩, ⟨300, 310⟩, .FORWARD, 1, 1⟩] ∧
      find_matching_session ((threeSwitches twoPackets).cfg 0).switch_sessions 1 = none ∧
      (net.sw 0).turn ((threeSwitches twoPackets).cfg 0) = none ∧
      ¬ RulesOk (threeSwitches twoPackets) net := by
  refine ⟨line_threeSwitches _, ?_⟩
  have hrun : ((system (threeSwitches twoPackets)).exec (.init (threeSwitches twoPackets))
      (greetAndAsk 0)).map (fun net => (net.sw 0).forwardingTable.tail) =
      some [⟨⟨0, MAXIP⟩, ⟨300, 310⟩, .FORWARD, 1, 1⟩] := by
    decide +kernel
  have hturn : ((system (threeSwitches twoPackets)).exec (.init (threeSwitches twoPackets))
      (greetAndAsk 0)).map (fun net =>
        ((net.sw 0).turn ((threeSwitches twoPackets).cfg 0)).isNone) = some true := by
    decide +kernel
  have hsent : AsSent (threeSwitches twoPackets) ((system (threeSwitches twoPackets)).trace
      (.init (threeSwitches twoPackets)) (greetAndAsk 0)) := by
    decide +kernel
  obtain ⟨net, hexec, htail⟩ := Option.map_eq_some_iff.mp hrun
  rw [hexec] at hturn
  refine ⟨_, net, .of_exec hexec, hsent, htail, by decide,
    Option.isNone_iff_eq_none.mp (Option.some.inj hturn), ?_⟩
  intro hok
  have hpoints := hok 0 ⟨⟨0, MAXIP⟩, ⟨300, 310⟩, .FORWARD, 1, 1⟩
    (by rw [htail]; exact List.mem_cons_self) rfl 2 (by decide)
  exact absurd (hpoints.right (by decide)) (by decide)

/-- The second switch sends to the third one. -/
def toNeighbour : Fin 3 → List Text := fun k =>
  if k.val = 1 then ["psw2 200 300".toList] else []

theorem rulesOk_iff_toNeighbour : ∃ tr net,
    (system (threeSwitches toNeighbour)).Run (.init (threeSwitches toNeighbour)) tr net ∧
      (net.sw 1).forwardingTable.tail = [⟨⟨0, MAXIP⟩, ⟨300, 310⟩, .FORWARD, 2, 1⟩] ∧
      (RulesOk (threeSwitches toNeighbour) net ↔
        ∀ p ∈ tr, Near (threeSwitches toNeighbour) p.1 p.2) := by
  have hrun : ((system (threeSwitches toNeighbour)).exec (.init (threeSwitches toNeighbour))
      (greetAndAsk 1)).map (fun net => (net.sw 1).forwardingTable.tail) =
      some [⟨⟨0, MAXIP⟩, ⟨300, 310⟩, .FORWARD, 2, 1⟩] := by
    decide +kernel
  have hsent : AsSent (threeSwitches toNeighbour) ((system (threeSwitches toNeighbour)).trace
      (.init (threeSwitches toNeighbour)) (greetAndAsk 1)) := by
    decide +kernel
  obtain ⟨net, hexec, htail⟩ := Option.map_eq_some_iff.mp hrun
  have hr := System.Run.of_exec hexec
  exact ⟨_, net, hr, htail, rulesOk_iff (line_threeSwitches _) hr hsent⟩

end Cmput379.A2w22
