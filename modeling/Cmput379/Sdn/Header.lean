import Cmput379.Sdn.Trail
import Cmput379.Sdn.RelayPort

/-!
# The header of a relayed packet

A switch relays an admitted packet at once when a FORWARD rule matches it, and
after a QUERY when no rule matches. In the second case the header comes back in
the fields of the ADD, where the destination has been replaced by the lower
bound of a range.

* `course_of_reachable`: what the trail of a line looks like.
* `header_iff`: a RELAY for a line carries its header iff the line was not asked
  for, or its destination is the lower bound of the range the controller found.
* `header_counterexample`: a destination inside the range of its owner.
-/

namespace Cmput379.Sdn

open Cmput379.Lib

variable {n : ℕ} {N : Network n} {net net' : NetState n} {c : ℕ}

/-! ## The course of a line -/

/-- A RELAY with a header that meets `P`, or an ADD that has been handled. -/
def RelayEvent (P : ℤ → ℤ → Prop) : Event n → Prop
  | .wrote _ _ w => ∃ srcIp destIp, w.packet = .RELAY srcIp destIp ∧ P srcIp destIp
  | .handled _ _ _ packet =>
    (∃ srcIp destIp, packet = .RELAY srcIp destIp ∧ P srcIp destIp) ∨ packet.type = ['A', 'D', 'D']
  | _ => False

theorem relayEvent_relay {P : ℤ → ℤ → Prop} {srcIp destIp : ℤ} (h : P srcIp destIp) (k : Fin n)
    (c : Option ℕ) (port : ℤ) : RelayEvent P (.handled k c port (.RELAY srcIp destIp)) :=
  Or.inl ⟨srcIp, destIp, rfl, h⟩

theorem relayEvent_add (P : ℤ → ℤ → Prop) (k : Fin n) (c : Option ℕ)
    (port action ipLow ipHigh val srcIp : ℤ) :
    RelayEvent P (.handled k c port (.ADD action ipLow ipHigh val srcIp)) :=
  Or.inr rfl

/-- After the events `head`, only RELAYs with headers that meet `P` are on their
    way. -/
structure Relaying (P : ℤ → ℤ → Prop) (head : List (Event n)) (t : Trail n) : Prop where
  up : ∀ j, t.up j = []
  down : ∀ j, t.down j = []
  fifo : ∀ name, ∀ p ∈ t.fifo name, ∃ srcIp destIp, p = .RELAY srcIp destIp ∧ P srcIp destIp
  log : ∃ rest, t.log = head ++ rest ∧ ∀ e ∈ rest, RelayEvent P e

/-- The header with the lower bound of the range found for the destination. -/
def LowHeader (entries : List SwitchInfo) (srcIp destIp srcIp' destIp' : ℤ) : Prop :=
  srcIp' = srcIp ∧ ∃ info, entries.find? (fun info => info.contains destIp) = some info ∧
    destIp' = info.ipLow

/-- The events of a line that switch `k` has asked the controller for. -/
def askedLog (k : Fin n) (c : ℕ) (srcIp destIp : ℤ) : List (Event n) :=
  [.admitted k c srcIp destIp, .wrote k (some c) ⟨.controller, .QUERY srcIp destIp⟩]

def answeredLog (k : Fin n) (c : ℕ) (srcIp destIp slot : ℤ) (known : ℕ)
    (table : List SwitchInfo) : List (Event n) :=
  askedLog k c srcIp destIp ++ [.served slot k (some c) known (.QUERY srcIp destIp)
    [(.switch k, ControllerState.answer (table.take known) slot srcIp destIp)]]

/-- How far line `c` has got, when `switchInfoTable` is `table`. -/
inductive Course (table : List SwitchInfo) (c : ℕ) (t : Trail n) : Prop
  | fresh (h : t = Trail.empty)
  | direct (k : Fin n) (srcIp destIp : ℤ)
      (h : Relaying (fun s d => s = srcIp ∧ d = destIp) [.admitted k c srcIp destIp] t)
  | asked (k : Fin n) (srcIp destIp : ℤ)
      (h : t = ⟨Function.update (fun _ => []) k [.QUERY srcIp destIp], fun _ => [], fun _ => [],
        askedLog k c srcIp destIp⟩)
  | answered (k : Fin n) (srcIp destIp slot : ℤ) (known : ℕ) (hknown : known ≤ table.length)
      (h : t = ⟨fun _ => [], Function.update (fun _ => []) k
        [ControllerState.answer (table.take known) slot srcIp destIp], fun _ => [],
        answeredLog k c srcIp destIp slot known table⟩)
  | settled (k : Fin n) (srcIp destIp slot : ℤ) (known : ℕ) (hknown : known ≤ table.length)
      (h : Relaying (LowHeader (table.take known) srcIp destIp)
        (answeredLog k c srcIp destIp slot known table) t)

theorem answeredLog_append {k : Fin n} {srcIp destIp slot : ℤ} {known : ℕ}
    {table : List SwitchInfo} (more : List SwitchInfo) (h : known ≤ table.length) :
    answeredLog k c srcIp destIp slot known (table ++ more) =
      answeredLog k c srcIp destIp slot known table := by
  simp only [answeredLog, List.take_append_of_le_length h]

/-- The course of a line does not depend on entries added to the table. -/
theorem Course.append {table : List SwitchInfo} {t : Trail n} (more : List SwitchInfo)
    (h : Course table c t) : Course (table ++ more) c t := by
  cases h with
  | fresh h => exact .fresh h
  | direct k srcIp destIp h => exact .direct k srcIp destIp h
  | asked k srcIp destIp h => exact .asked k srcIp destIp h
  | answered k srcIp destIp slot known hknown h =>
    refine .answered k srcIp destIp slot known ?_ ?_
    · simp only [List.length_append]
      omega
    · rw [answeredLog_append more hknown, List.take_append_of_le_length hknown]
      exact h
  | settled k srcIp destIp slot known hknown h =>
    refine .settled k srcIp destIp slot known ?_ ?_
    · simp only [List.length_append]
      omega
    · rw [answeredLog_append more hknown, List.take_append_of_le_length hknown]
      exact h

/-! ## Steps -/

section Relaying

variable {P : ℤ → ℤ → Prop} {head : List (Event n)} {t : Trail n}

theorem Relaying.record (h : Relaying P head t) {e : Event n} (he : RelayEvent P e) :
    Relaying P head (t.record e) := by
  obtain ⟨rest, hlog, hrest⟩ := h.log
  refine ⟨h.up, h.down, h.fifo, rest ++ [e], by simp [Trail.record, hlog], ?_⟩
  intro e' he'
  rcases List.mem_append.mp he' with he' | he'
  · exact hrest e' he'
  · rw [List.mem_singleton.mp he']
    exact he

theorem Relaying.send (h : Relaying P head t) (k : Fin n) (c : ℕ) {writes : List Write}
    (hwrites : ∀ w ∈ writes, w.fd ≠ .controller ∧
      ∃ srcIp destIp, w.packet = .RELAY srcIp destIp ∧ P srcIp destIp) :
    Relaying P head (t.send k c writes) := by
  obtain ⟨rest, hlog, hrest⟩ := h.log
  refine ⟨?_, h.down, ?_, rest ++ writes.map (.wrote k (some c)), ?_, ?_⟩
  · have hnone : writes.filter (fun w => w.fd = .controller) = [] := by
      simpa [List.filter_eq_nil_iff] using fun w hw => (hwrites w hw).1
    intro j
    by_cases hj : j = k
    · subst hj
      simp [Trail.send, h.up, hnone]
    · simp [Trail.send, h.up, Function.update_of_ne hj]
  · intro name p hp
    simp only [Trail.send, List.mem_append, List.mem_map, List.mem_filter] at hp
    rcases hp with hp | ⟨w, ⟨hw, -⟩, rfl⟩
    · exact h.fifo name p hp
    · exact (hwrites w hw).2
  · simp [Trail.send, hlog]
  · intro e he
    rcases List.mem_append.mp he with he | he
    · exact hrest e he
    · obtain ⟨w, hw, rfl⟩ := List.mem_map.mp he
      exact (hwrites w hw).2

theorem Relaying.setFifo (h : Relaying P head t) {name : Text} {p : Packet} {rest : List Packet}
    (hfifo : t.fifo name = p :: rest) : Relaying P head (t.setFifo name rest) := by
  refine ⟨h.up, h.down, fun name' p' hp' => ?_, h.log⟩
  by_cases hname : name' = name
  · subst hname
    simp only [Trail.setFifo, Function.update_self] at hp'
    exact h.fifo name' p' (by simp [hfifo, hp'])
  · simp only [Trail.setFifo, Function.update_of_ne hname] at hp'
    exact h.fifo name' p' hp'

end Relaying

/-- The line goes on relaying as long as its own packets are handled. -/
theorem Relaying.step {P : ℤ → ℤ → Prop} {head : List (Event n)} (hw : WellFormed N net)
    (hhead : head ≠ []) (hfresh : ∀ c, net.lineCount ≤ c → trail net c = Trail.empty)
    (h : Relaying P head (trail net c)) {a : Action n} (hs : TrailStep N net net' c a) :
    Relaying P head (trail net' c) := by
  have hlog : (trail net c).log ≠ [] := by
    obtain ⟨rest, hlog, -⟩ := h.log
    rw [hlog]
    simp [hhead]
  have hnew : c ≠ net.lineCount := by
    rintro rfl
    exact hlog (by rw [hfresh _ (le_refl _)]; rfl)
  cases hs with
  | same _ hother hsame => rw [hsame]; exact h
  | hit k now ms srcIp destIp rule hc => exact absurd hc hnew
  | miss k now ms srcIp destIp hc => exact absurd hc hnew
  | queried i k srcIp destIp hfd hup => simp [h.up] at hup
  | dropped k srcIp destIp hdown => simp [h.down] at hdown
  | forwarded k u srcIp port hport hnet hdown => simp [h.down] at hdown
  | relayed k port srcIp destIp name queue rest hname hnet hfifo hnext =>
    have hP : P srcIp destIp := by
      obtain ⟨s, d, heq, hP⟩ := h.fifo name (.RELAY srcIp destIp) (by simp [hfifo])
      cases heq
      exact hP
    rw [hnext]
    refine ((h.setFifo hfifo).record (relayEvent_relay hP k _ port)).send k c ?_
    intro w hmem
    obtain ⟨hpacket, hfd⟩ := SwitchState.handleRelay_writes _ _ _ _ _ w hmem
    refine ⟨?_, srcIp, destIp, hpacket, hP⟩
    rcases hfd with hfd | hfd
    · exact hfd ▸ (hw.switch k).fdAt_ne (by decide)
    · exact hfd ▸ (hw.switch k).fdAt_ne (by decide)

theorem Course.step (hw : WellFormed N net)
    (hfresh : ∀ c, net.lineCount ≤ c → trail net c = Trail.empty)
    (h : Course net.ctrl.switchInfoTable c (trail net c)) {a : Action n}
    (hs : TrailStep N net net' c a) :
    Course net.ctrl.switchInfoTable c (trail net' c) := by
  have hnew : (trail net c).log ≠ [] → c ≠ net.lineCount := by
    rintro hlog rfl
    exact hlog (by rw [hfresh _ (le_refl _)]; rfl)
  cases h with
  | fresh h =>
    cases hs with
    | same _ hother hsame => exact .fresh (hsame.trans h)
    | hit k now ms srcIp destIp rule hc hcount hheader hfind hnext =>
      rw [h] at hnext
      rw [hnext]
      refine .direct k srcIp destIp (Relaying.send ⟨fun _ => rfl, fun _ => rfl, ?_, ?_⟩ k c ?_)
      · simp [Trail.record, Trail.empty]
      · exact ⟨[], rfl, by simp⟩
      · intro w hmem
        split_ifs at hmem with hcond
        · rw [List.mem_singleton] at hmem
          subst hmem
          have hval := (hw.switch k).actionVal_ne (List.mem_of_find?_eq_some hfind) hcond.1
          exact ⟨(hw.switch k).outFd_ne hval, srcIp, destIp, rfl, rfl, rfl⟩
        · simp at hmem
    | miss k now ms srcIp destIp hc hcount hheader hmiss hnext =>
      rw [h] at hnext
      refine .asked k srcIp destIp ?_
      rw [hnext]
      ext1
      · simp [Trail.send, Trail.record, Trail.empty]
      · rfl
      · simp [Trail.send, Trail.record, Trail.empty]
      · rfl
    | queried i k srcIp destIp hfd hup => simp [h, Trail.empty] at hup
    | dropped k srcIp destIp hdown => simp [h, Trail.empty] at hdown
    | forwarded k u srcIp port hport hnet hdown => simp [h, Trail.empty] at hdown
    | relayed k port srcIp destIp name queue rest hname hnet hfifo => simp [h, Trail.empty] at hfifo
  | direct k srcIp destIp h =>
    exact .direct k srcIp destIp (h.step hw (by simp) hfresh hs)
  | asked k srcIp destIp h =>
    have hlog : (trail net c).log ≠ [] := by simp [h, askedLog]
    cases hs with
    | same _ hother hsame => exact .asked k srcIp destIp (hsame.trans h)
    | hit j now ms s d rule hc => exact absurd hc (hnew hlog)
    | miss j now ms s d hc => exact absurd hc (hnew hlog)
    | queried i j s d hfd hup hnext =>
      simp only [h] at hup
      obtain ⟨rfl, heq, -⟩ := eq_of_update_nil hup
      cases heq
      refine .answered j srcIp destIp i net.ctrl.switchInfoTable.length (le_refl _) ?_
      rw [hnext, h, answeredLog, List.take_length]
      ext1
      · simp [Trail.record, Trail.setUp, Trail.setDown]
      · rfl
      · rfl
      · rfl
    | dropped j s d hdown => simp [h] at hdown
    | forwarded j u s port hport hnet hdown => simp [h] at hdown
    | relayed j port s d name queue rest hname hnet hfifo => simp [h] at hfifo
  | answered k srcIp destIp slot known hknown h =>
    have hlog : (trail net c).log ≠ [] := by simp [h, answeredLog, askedLog]
    -- after the ADD nothing but RELAYs can be on their way
    have hsettled : ∀ e,
        RelayEvent (LowHeader (net.ctrl.switchInfoTable.take known) srcIp destIp) e →
        Relaying (LowHeader (net.ctrl.switchInfoTable.take known) srcIp destIp)
          (answeredLog k c srcIp destIp slot known net.ctrl.switchInfoTable)
          (((trail net c).setDown k []).record e) := by
      intro e he
      refine Relaying.record ⟨?_, ?_, ?_, [], ?_, by simp⟩ he
      · simp [h, Trail.setDown]
      · intro j
        simp [h, Trail.setDown]
      · simp [h, Trail.setDown]
      · simp [h, Trail.setDown]
    cases hs with
    | same _ hother hsame => exact .answered k srcIp destIp slot known hknown (hsame.trans h)
    | hit j now ms s d rule hc => exact absurd hc (hnew hlog)
    | miss j now ms s d hc => exact absurd hc (hnew hlog)
    | queried i j s d hfd hup => simp [h] at hup
    | dropped j s d hdown hnext =>
      simp only [h] at hdown
      obtain ⟨rfl, -, -⟩ := eq_of_update_nil hdown
      rw [hnext]
      exact .settled j srcIp destIp slot known hknown
        (hsettled _ (relayEvent_add _ _ _ _ _ _ _ _ _))
    | forwarded j u s port hport hnet hdown hnext =>
      simp only [h] at hdown
      obtain ⟨rfl, heq, -⟩ := eq_of_update_nil hdown
      have hlow : LowHeader (net.ctrl.switchInfoTable.take known) srcIp destIp s
          (N.cfg u).ipLow := by
        unfold ControllerState.answer at heq
        split at heq
        · rename_i info hfind
          simp only [Packet.ADD.injEq] at heq
          exact ⟨heq.2.2.2.2, info, hfind, heq.2.1⟩
        · simp at heq
      rw [hnext]
      refine .settled j srcIp destIp slot known hknown
        ((hsettled _ (relayEvent_add _ _ _ _ _ _ _ _ _)).send j c ?_)
      simp only [List.mem_singleton, forall_eq]
      exact ⟨(hw.switch j).outFd_ne (by omega), s, _, rfl, hlow⟩
    | relayed j port s d name queue rest hname hnet hfifo => simp [h] at hfifo
  | settled k srcIp destIp slot known hknown h =>
    exact .settled k srcIp destIp slot known hknown
      (h.step hw (by simp [answeredLog, askedLog]) hfresh hs)

/-- What the trail of a line looks like in every reachable state. -/
theorem course_of_reachable (h : N.system.Reachable net) (c : ℕ) :
    Course net.ctrl.switchInfoTable c (trail net c) := by
  refine System.Reachable.invariant
    (I := fun net => Course net.ctrl.switchInfoTable c (trail net c)) ?_ ?_ h
  · rintro _ rfl
    exact .fresh rfl
  · intro s a t hs hc hstep
    have hw := wellFormed_of_reachable hs
    have htrans := transition_of_step hw hstep
    obtain ⟨-, ⟨more, hmore⟩⟩ := htrans.ctrl hw
    rw [← hmore]
    exact (hc.step hw (fun c hc => trail_fresh hs hc) (htrans.trail hw c)).append more

/-! ## The header -/

theorem mem_trail {e : Event n} (h : e ∈ net.log) (hc : e.cause = some c) :
    e ∈ (trail net c).log :=
  List.mem_filter.mpr ⟨h, by simp [hc]⟩

/-- A RELAY for the line `(srcIp, destIp)` carries this header iff the line was
    not asked for, or the range the controller found for `destIp` starts there. -/
theorem header_iff (h : N.system.Reachable net) {k j : Fin n} {c : ℕ}
    {srcIp destIp srcIp' destIp' : ℤ} {fd : Fd}
    (hadmitted : Event.admitted k c srcIp destIp ∈ net.log)
    (hrelay : Event.wrote j (some c) ⟨fd, .RELAY srcIp' destIp'⟩ ∈ net.log) :
    (srcIp', destIp') = (srcIp, destIp) ↔
      ∀ slot known replies,
        Event.served slot k (some c) known (.QUERY srcIp destIp) replies ∈ net.log →
        ∀ info, (net.ctrl.switchInfoTable.take known).find? (fun info => info.contains destIp) =
          some info → info.ipLow = destIp := by
  have hadm := mem_trail hadmitted rfl
  have hrel := mem_trail hrelay rfl
  have hserved : ∀ slot known replies,
      Event.served slot k (some c) known (.QUERY srcIp destIp) replies ∈ net.log →
      Event.served slot k (some c) known (.QUERY srcIp destIp) replies ∈ (trail net c).log :=
    fun _ _ _ he => mem_trail he rfl
  cases course_of_reachable h c with
  | fresh ht => simp [ht, Trail.empty] at hadm
  | asked k' s d ht => simp [ht, askedLog] at hrel
  | answered k' s d slot known hknown ht => simp [ht, answeredLog, askedLog] at hrel
  | direct k' s d ht =>
    obtain ⟨rest, hlog, hrest⟩ := ht.log
    rw [hlog] at hadm hrel
    obtain ⟨rfl, rfl, rfl⟩ : k = k' ∧ srcIp = s ∧ destIp = d := by
      rcases List.mem_append.mp hadm with hmem | hmem
      · simpa using hmem
      · exact (hrest _ hmem).elim
    have hheader : srcIp' = srcIp ∧ destIp' = destIp := by
      rcases List.mem_append.mp hrel with hmem | hmem
      · simp at hmem
      · obtain ⟨s', d', heq, hP⟩ := hrest _ hmem
        cases heq
        exact hP
    refine iff_of_true (by rw [hheader.1, hheader.2]) fun slot known replies he => ?_
    have hmem := hserved slot known replies he
    rw [hlog] at hmem
    rcases List.mem_append.mp hmem with hmem | hmem
    · simp at hmem
    · exact (hrest _ hmem).elim
  | settled k' s d slot known hknown ht =>
    obtain ⟨rest, hlog, hrest⟩ := ht.log
    rw [hlog] at hadm hrel
    obtain ⟨rfl, rfl, rfl⟩ : k = k' ∧ srcIp = s ∧ destIp = d := by
      rcases List.mem_append.mp hadm with hmem | hmem
      · simpa [answeredLog, askedLog] using hmem
      · exact (hrest _ hmem).elim
    obtain ⟨rfl, info, hfind, hlow⟩ : LowHeader (net.ctrl.switchInfoTable.take known) srcIp destIp
        srcIp' destIp' := by
      rcases List.mem_append.mp hrel with hmem | hmem
      · simp [answeredLog, askedLog] at hmem
      · obtain ⟨s', d', heq, hP⟩ := hrest _ hmem
        cases heq
        exact hP
    constructor
    · intro heq slot' known' replies he info' hfind'
      have hmem := hserved slot' known' replies he
      rw [hlog] at hmem
      rcases List.mem_append.mp hmem with hmem | hmem
      · simp only [answeredLog, askedLog, List.cons_append, List.nil_append, List.mem_cons,
          reduceCtorEq, Event.served.injEq, List.not_mem_nil, or_false, false_or] at hmem
        obtain ⟨-, -, -, rfl, -⟩ := hmem
        rw [hfind, Option.some.injEq] at hfind'
        rw [← hfind', ← hlow]
        exact (Prod.mk.injEq _ _ _ _ ▸ heq).2
      · exact (hrest _ hmem).elim
    · intro hall
      have hmem : Event.served slot k (some c) known (.QUERY srcIp' destIp)
          [(.switch k, ControllerState.answer (net.ctrl.switchInfoTable.take known) slot srcIp'
            destIp)] ∈ net.log := by
        refine List.mem_of_mem_filter (p := fun e => e.cause = some c) ?_
        have : (trail net c).log = net.log.filter fun e => e.cause = some c := rfl
        rw [← this, hlog]
        simp [answeredLog, askedLog]
      rw [hlow, hall slot known _ hmem info hfind]

/-! ## A destination inside a range -/

/-- Both switches of `ex2.dat` open; switch 1 admits a line for address 205,
    asks, and relays. -/
def insideRange : List (Action 2) :=
  [.start sw1, .accept, .start sw2, .accept, .toController 1, .fromController sw1,
    .toController 2, .fromController sw2, .traffic sw1 0 0, .toController 1, .fromController sw1]

theorem exec_insideRange : ∃ net,
    (ex2 ["sw1 100 205".toList]).system.exec (ex2 ["sw1 100 205".toList]).initState
      insideRange = some net ∧
    Event.admitted 0 0 100 205 ∈ net.log ∧
    Event.wrote 0 (some 0) ⟨.fifo (makeFifoName 1 2), .RELAY 100 200⟩ ∈ net.log := by
  have hrun : ((ex2 ["sw1 100 205".toList]).system.exec (ex2 ["sw1 100 205".toList]).initState
      insideRange).map (fun net => (decide (Event.admitted 0 0 100 205 ∈ net.log),
        decide (Event.wrote 0 (some 0) ⟨.fifo (makeFifoName 1 2), .RELAY 100 200⟩ ∈ net.log))) =
      some (true, true) := by
    decide +kernel
  obtain ⟨net, hexec, hmem⟩ := Option.map_eq_some_iff.mp hrun
  simp only [Prod.mk.injEq, decide_eq_true_eq] at hmem
  exact ⟨net, hexec, hmem⟩

/-- The packet for address 205 is relayed to address 200. -/
theorem header_counterexample : ∃ (N : Network 2) (net : NetState 2) (k t : Fin 2) (c : ℕ)
    (srcIp destIp srcIp' destIp' : ℤ) (fd : Fd), N.DisjointRanges ∧ N.system.Reachable net ∧
      Event.admitted k c srcIp destIp ∈ net.log ∧ N.Owns t destIp ∧ t ≠ k ∧
      Event.wrote k (some c) ⟨fd, .RELAY srcIp' destIp'⟩ ∈ net.log ∧
      (srcIp', destIp') ≠ (srcIp, destIp) := by
  obtain ⟨net, hexec, hadmitted, hrelay⟩ := exec_insideRange
  exact ⟨_, net, 0, 1, 0, 100, 205, 100, 200, _, ex2_disjointRanges _,
    System.Reachable.of_exec rfl hexec, hadmitted, by decide, by decide, hrelay, by decide⟩

/-- In the same run with the first address of the range, the packet keeps its header. -/
theorem header_iff_firstAddress : ∃ net,
    (ex2 ["sw1 100 200".toList]).system.exec (ex2 ["sw1 100 200".toList]).initState
      insideRange = some net ∧
    Event.wrote 0 (some 0) ⟨.fifo (makeFifoName 1 2), .RELAY 100 200⟩ ∈ net.log ∧
    ∀ slot known replies, Event.served slot 0 (some 0) known (.QUERY 100 200) replies ∈ net.log →
      ∀ info, (net.ctrl.switchInfoTable.take known).find? (fun info => info.contains 200) =
        some info → info.ipLow = 200 := by
  have hrun : ((ex2 ["sw1 100 200".toList]).system.exec (ex2 ["sw1 100 200".toList]).initState
      insideRange).map (fun net => decide (Event.admitted 0 0 100 200 ∈ net.log ∧
        Event.wrote 0 (some 0) ⟨.fifo (makeFifoName 1 2), .RELAY 100 200⟩ ∈ net.log)) =
      some true := by
    decide +kernel
  obtain ⟨net, hexec, hadmitted, hrelay⟩ := System.exists_of_exec hrun
  exact ⟨net, hexec, hrelay,
    (header_iff (System.Reachable.of_exec rfl hexec) hadmitted hrelay).mp rfl⟩

end Cmput379.Sdn
