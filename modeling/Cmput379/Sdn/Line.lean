import Cmput379.Sdn.RelayPort
import Cmput379.Sdn.Trail

/-!
# A line of switches

Switches `1 … n` in a line whose slots are their ids: the ports and FIFOs on the
way from one switch to another, and what a started network keeps.

* `Steady.forward_port`, `Steady.answer_eq`: rules and answers name the port
  towards the owner.
* `outFd_towards`: the FIFO a switch opens for that port.
* `Relayed`: what a traffic line should cause.
-/

namespace Cmput379.Sdn

open Cmput379.Lib

variable {n : ℕ} {N : Network n} {net net' : NetState n}

/-! ## The way from one switch to another -/

section Way

variable (N) (s t : Fin n)

/-- `1` towards larger ids. -/
def direction : ℤ := if (N.cfg s).id < (N.cfg t).id then 1 else -1

/-- The port of a switch on the way that leads on to `t`. -/
def portTowards : ℤ := if (N.cfg s).id < (N.cfg t).id then 2 else 1

/-- The port of a switch on the way that leads back to `s`. -/
def portBack : ℤ := if (N.cfg s).id < (N.cfg t).id then 1 else 2

def distance : ℕ := ((N.cfg t).id - (N.cfg s).id).natAbs

/-- The id of the `j`-th switch on the way. -/
def stop (j : ℕ) : ℤ := (N.cfg s).id + direction N s t * j

/-- The FIFO from the `j`-th switch on the way to the next. -/
def hop (j : ℕ) : Text := makeFifoName (stop N s t j) (stop N s t (j + 1))

/-- The first `m` sends on the way: the sender and what it writes to. -/
def sendsPath (m : ℕ) : List (ℤ × Fd) :=
  (List.range m).map fun j => (stop N s t j, .fifo (hop N s t j))

/-- The first `m` receipts on the way: the reader and its port. -/
def receiptsPath (m : ℕ) : List (ℤ × ℤ) :=
  (List.range m).map fun j => (stop N s t (j + 1), portBack N s t)

@[simp] theorem length_sendsPath (m : ℕ) : (sendsPath N s t m).length = m := by
  simp [sendsPath]

theorem sendsPath_succ (m : ℕ) :
    sendsPath N s t (m + 1) = sendsPath N s t m ++ [(stop N s t m, .fifo (hop N s t m))] := by
  simp [sendsPath, List.range_succ]

theorem receiptsPath_succ (m : ℕ) :
    receiptsPath N s t (m + 1) =
      receiptsPath N s t m ++ [(stop N s t (m + 1), portBack N s t)] := by
  simp [receiptsPath, List.range_succ]

theorem getElem?_sendsPath {m j : ℕ} (h : j < m) :
    (sendsPath N s t m)[j]? = some (stop N s t j, .fifo (hop N s t j)) := by
  simp [sendsPath, h]

theorem stop_succ (j : ℕ) : stop N s t (j + 1) = stop N s t j + direction N s t := by
  simp only [stop, Nat.cast_add, Nat.cast_one, mul_add, mul_one, add_assoc]

theorem stop_distance : stop N s t (distance N s t) = (N.cfg t).id := by
  unfold stop distance direction
  split_ifs with h <;> omega

theorem stop_inj {i j : ℕ} (h : stop N s t i = stop N s t j) : i = j := by
  unfold stop direction at h
  split_ifs at h <;> omega

end Way

section IsLine

variable (hline : N.IsLine)
include hline

theorem Network.IsLine.id_inj {k j : Fin n} (h : (N.cfg k).id = (N.cfg j).id) : k = j := by
  rw [(hline k).1, (hline j).1] at h
  exact Fin.ext (by omega)

theorem distance_pos {s t : Fin n} (h : t ≠ s) : 0 < distance N s t := by
  have hid : (N.cfg t).id ≠ (N.cfg s).id := fun heq => h (hline.id_inj heq)
  unfold distance
  omega

/-- The neighbour of `k` on the way to `t`. -/
theorem Network.IsLine.portToId_towards {k t : Fin n} (h : t ≠ k) :
    (SwitchState.init (N.cfg k) []).portToId (portTowards N k t) =
      (N.cfg k).id + direction N k t := by
  have hid : (N.cfg t).id ≠ (N.cfg k).id := fun heq => h (hline.id_inj heq)
  obtain ⟨hk, hport1, hport2⟩ := hline k
  have ht := (hline t).1
  have htn := t.isLt
  unfold portTowards direction SwitchState.init
  rw [hk, ht] at hid ⊢
  simp only [hport1, hport2]
  split_ifs <;> omega

end IsLine

/-! ## What a line of a traffic file should cause -/

/-- A RELAY that was written: the id of the writer, and what it wrote to. -/
def Event.sent? (N : Network n) : Event n → Option (ℤ × Fd)
  | .wrote k _ ⟨fd, .RELAY _ _⟩ => some ((N.cfg k).id, fd)
  | _ => none

/-- A RELAY that was handled: the id of the reader, and its port. -/
def Event.received? (N : Network n) : Event n → Option (ℤ × ℤ)
  | .handled k _ port (.RELAY _ _) => some ((N.cfg k).id, port)
  | _ => none

namespace Trail

variable (N) (t : Trail n)

def sends : List (ℤ × Fd) := t.log.filterMap (Event.sent? N)

def receipts : List (ℤ × ℤ) := t.log.filterMap (Event.received? N)

/-- Nothing is on its way. -/
def Quiet : Prop := (∀ k, t.up k = [] ∧ t.down k = []) ∧ ∀ name, t.fifo name = []

@[simp] theorem sends_setUp (k : Fin n) (packets : List Packet) :
    (t.setUp k packets).sends N = t.sends N := rfl

@[simp] theorem sends_setDown (k : Fin n) (packets : List Packet) :
    (t.setDown k packets).sends N = t.sends N := rfl

@[simp] theorem sends_setFifo (name : Text) (packets : List Packet) :
    (t.setFifo name packets).sends N = t.sends N := rfl

@[simp] theorem receipts_setUp (k : Fin n) (packets : List Packet) :
    (t.setUp k packets).receipts N = t.receipts N := rfl

@[simp] theorem receipts_setDown (k : Fin n) (packets : List Packet) :
    (t.setDown k packets).receipts N = t.receipts N := rfl

@[simp] theorem receipts_setFifo (name : Text) (packets : List Packet) :
    (t.setFifo name packets).receipts N = t.receipts N := rfl

theorem sends_record (e : Event n) :
    (t.record e).sends N = t.sends N ++ (e.sent? N).toList := by
  simp only [sends, record, List.filterMap_append]
  cases h : e.sent? N <;> simp [h]

theorem receipts_record (e : Event n) :
    (t.record e).receipts N = t.receipts N ++ (e.received? N).toList := by
  simp only [receipts, record, List.filterMap_append]
  cases h : e.received? N <;> simp [h]

theorem sends_send (k : Fin n) (c : ℕ) (writes : List Write) : (t.send k c writes).sends N =
    t.sends N ++ writes.filterMap fun w => (Event.wrote k (some c) w).sent? N := by
  simp only [sends, send, List.filterMap_append, List.filterMap_map]
  rfl

theorem receipts_send (k : Fin n) (c : ℕ) (writes : List Write) :
    (t.send k c writes).receipts N = t.receipts N := by
  have hnone : (writes.map (Event.wrote k (some c))).filterMap (Event.received? N) = [] := by
    rw [List.filterMap_eq_nil_iff]
    intro e he
    obtain ⟨w, -, rfl⟩ := List.mem_map.mp he
    rfl
  simp [receipts, send, hnone]

end Trail

/-- Line `c`, admitted at switch `s` for an address of switch `t`, has been sent
    and received along the way to `t` only, and unless something of it is on its
    way it has made all `distance` hops. -/
def Relayed (N : Network n) (net : NetState n) (c : ℕ) (s t : Fin n) : Prop :=
  ∃ sent received, (trail net c).sends N = sendsPath N s t sent ∧
    (trail net c).receipts N = receiptsPath N s t received ∧
    received ≤ sent ∧ sent ≤ received + 1 ∧ sent ≤ distance N s t ∧
    ((trail net c).Quiet → sent = distance N s t ∧ received = distance N s t)

/-! ## A network in which everyone has opened -/

/-- Every switch has been acknowledged, and switch `i` is in slot `i`. -/
structure Ready (N : Network n) (net : NetState n) : Prop where
  reachable : N.system.Reachable net
  acked : ∀ k, (net.sw k).ackReceived = true
  slots : ∀ k, net.ctrl.pfds (N.cfg k).id = some (.switch k)

/-- What every step keeps. -/
structure Steady (N : Network n) (net : NetState n) : Prop where
  reachable : N.system.Reachable net
  table : ∀ t, N.info t ∈ net.ctrl.switchInfoTable
  slots : ∀ k, net.ctrl.pfds (N.cfg k).id = some (.switch k)

theorem Phase.opened_of_ack {k : Fin n} (h : Phase N net k)
    (hack : (net.sw k).ackReceived = true) : Opened net k := by
  refine ⟨h.started_of_ack hack, fun m hm => ?_⟩
  cases h with
  | fresh started sw up down => simp [up] at hm
  | opening started flags up down => simp [flags.ack] at hack
  | acking started flags up down => simp [up] at hm
  | idle started flags up down => simp [up] at hm
  | querying started flags c srcIp destIp hsrc hdest up down =>
    simp only [up, List.mem_singleton] at hm
    exact ⟨srcIp, destIp, by rw [hm]⟩
  | adding started flags c srcIp destIp answer hsrc hdest hanswer up down => simp [up] at hm

theorem Ready.steady (h : Ready N net) : Steady N net := by
  have hw := wellFormed_of_reachable h.reachable
  exact ⟨h.reachable, fun t => hw.registered t ((hw.phase t).opened_of_ack (h.acked t)), h.slots⟩

theorem Steady.step {a : Action n} (h : Steady N net) (hstep : N.step net a = some net') :
    Steady N net' := by
  have hw := wellFormed_of_reachable h.reachable
  obtain ⟨hpfds, ⟨more, hmore⟩⟩ := (transition_of_step hw hstep).ctrl hw
  refine ⟨h.reachable.step hstep, fun t => ?_, fun k => hpfds _ _ (h.slots k)⟩
  rw [← hmore]
  exact List.mem_append_left _ (h.table t)

section Ports

variable (hN : N.DisjointRanges) (h : Steady N net)
include hN h

/-- The answer to a QUERY for an address of another switch. -/
theorem Steady.answer_eq {i : ℤ} {k t : Fin n} (hfd : net.ctrl.pfds i = some (.switch k))
    (srcIp : ℤ) {destIp : ℤ} (ht : N.Owns t destIp) :
    ControllerState.answer net.ctrl.switchInfoTable i srcIp destIp =
      .ADD 1 (N.cfg t).ipLow (N.cfg t).ipHigh (portTowards N k t) srcIp := by
  have hw := wellFormed_of_reachable h.reachable
  have hi : i = (N.cfg k).id := hw.slots.inj i _ k hfd (h.slots k)
  unfold ControllerState.answer
  cases hfind : net.ctrl.switchInfoTable.find? fun info => info.contains destIp with
  | none =>
    have hnone := List.find?_eq_none.mp hfind (N.info t) (h.table t)
    have hcontains : (N.info t).contains destIp := ht
    simp [hcontains] at hnone
  | some info =>
    obtain ⟨u, rfl⟩ := hw.table info (List.mem_of_find?_eq_some hfind)
    have hcontains : (N.info u).contains destIp := by simpa using List.find?_some hfind
    obtain rfl : u = t := hN u t destIp hcontains ht
    rw [hi]
    rfl

/-- A FORWARD rule for an address of another switch names the port towards it. -/
theorem Steady.forward_port {k t : Fin n} {rule : FlowRule} {destIp : ℤ}
    (hrule : rule ∈ (net.sw k).flowTable) (hforward : rule.actionType = .FORWARD)
    (hcov : rule.covers destIp) (ht : N.Owns t destIp) (hne : t ≠ k) :
    rule.actionVal = portTowards N k t := by
  have hw := wellFormed_of_reachable h.reachable
  have hmem : SwitchState.forget rule ∈ (ledger net k).rules := List.mem_map_of_mem hrule
  rw [rules_eq h.reachable k, List.mem_cons] at hmem
  rcases hmem with heq | hmem
  · simp only [SwitchState.forget, SwitchState.initialRule, FlowRule.mk.injEq] at heq
    have hown : N.Owns k destIp := by
      rw [Network.Owns, ← heq.2.2.1, ← heq.2.2.2.1]
      exact hcov
    exact absurd (hN t k destIp ht hown) hne
  · obtain ⟨a, ha, heq⟩ := List.mem_map.mp hmem
    obtain ⟨e, he, hanswered⟩ := List.mem_filterMap.mp (List.mem_of_mem_take ha)
    have hslot : a.label = (N.cfg k).id := by
      unfold Event.answered? at hanswered
      split at hanswered
      · split_ifs at hanswered with hj
        cases hanswered
        subst hj
        exact hw.slots.inj _ _ _ (served_of_reachable h.reachable he).taken (h.slots _)
      · cases hanswered
    simp only [RemoteCache.ruleOf, directory, sentRule] at heq
    cases hfind : (net.ctrl.switchInfoTable.take a.known).find?
        fun info => info.contains a.request.destIp with
    | none =>
      have htype := congrArg FlowRule.actionType heq
      simp [hfind, SwitchState.forget, SwitchState.addedRule, hforward] at htype
    | some info =>
      simp only [hfind, SwitchState.forget, SwitchState.addedRule, FlowRule.mk.injEq] at heq
      obtain ⟨u, rfl⟩ := hw.table info
        (List.mem_of_mem_take (List.mem_of_find?_eq_some hfind))
      have hown : N.Owns u destIp := by
        obtain ⟨-, -, hlow, hhigh, -⟩ := heq
        obtain ⟨h1, h2⟩ := hcov
        rw [← hlow] at h1
        rw [← hhigh] at h2
        exact ⟨h1, h2⟩
      obtain rfl : u = t := hN u t destIp hown ht
      rw [← heq.2.2.2.2.2.1, hslot]
      rfl

end Ports

/-- The descriptor of the port towards `t`: the FIFO to the neighbour, unless the
    port has been taken by `stdin`. -/
theorem outFd_towards (hline : N.IsLine) (hw : WellFormed N net) {k t : Fin n} (hne : t ≠ k) :
    (net.sw k).outFd (N.cfg k) (portTowards N k t) =
      if (net.sw k).portToFd (portTowards N k t) = some .stdin then .stdin
      else .fifo (hop N k t 0) := by
  have hok := hw.switch k
  have hid : (net.sw k).portToId (portTowards N k t) = stop N k t 1 := by
    rw [hok.portToId, hline.portToId_towards hne]
    simp [stop]
  have hstop : stop N k t 0 = (N.cfg k).id := by simp [stop]
  have hport : portTowards N k t ≠ 0 := by
    unfold portTowards
    split_ifs <;> decide
  unfold SwitchState.outFd
  cases hfd : (net.sw k).portToFd (portTowards N k t) with
  | none => simp [hop, hid, hstop]
  | some fd =>
    rcases hok.fd _ fd hport hfd with rfl | rfl
    · simp
    · simp [hop, hid, hstop]

end Cmput379.Sdn
