import Mathlib.Data.List.Infix
import Cmput379.Sdn.Line
import Cmput379.Sdn.Header

/-!
# Relaying along a line

A RELAY that a switch does not own is passed on by comparing the id of the switch
with the index of the descriptor it was read from. `StepOk` says when this, and
the first hop, goes right.

* `Place`, `Broken`: where a line is that has been relayed right so far, and how
  it is recognised later that it has not.
* `relayed_iff`: a line is relayed as it should be iff every step of the run that
  concerned it was right.
* `relaying_counterexample`: a line of three switches, from the first to the last.
-/

namespace Cmput379.Sdn

open Cmput379.Lib

variable {n : ℕ} {N : Network n} {net net' : NetState n} {c : ℕ} {s t : Fin n}

/-! ## Right steps -/

/-- The step is right for line `c`. An admitted packet does not match a DROP rule,
    the port a switch sends on has not been taken by `stdin`, and a RELAY that is
    not for the switch itself is read from port 2 of a switch with an id above 2
    that has its FIFO to port 1 open. -/
def StepOk (N : Network n) (c : ℕ) (net : NetState n) : Action n → Prop
  | .start _ | .accept | .toController _ => True
  | .traffic k now ms => ∀ srcIp destIp rule, net.lineCount = c →
      (net.sw k).nextHeader (N.cfg k) now ms = some (srcIp, destIp) →
      (net.sw k).flowTable.find? (fun r => r.covers destIp) = some rule →
      rule.actionType = .FORWARD ∧ (net.sw k).portToFd rule.actionVal ≠ some .stdin
  | .fromController k => ∀ action ipLow ipHigh port srcIp rest,
      net.down k = ⟨some c, .ADD action ipLow ipHigh port srcIp⟩ :: rest →
      (net.sw k).portToFd port ≠ some .stdin
  | .fromFifo k port => ∀ name srcIp destIp rest, readFifo (N.cfg k) port = some name →
      net.fifo name = ⟨some c, .RELAY srcIp destIp⟩ :: rest → ¬ N.Owns k destIp →
      port = 2 ∧ 2 < (N.cfg k).id ∧ ∃ name, (net.sw k).portToFd 1 = some (.fifo name)

/-- A step that does not concern the line is right for it. -/
theorem stepOk_of_not_touches {a : Action n} (h : ¬ Touches N c net a) : StepOk N c net a := by
  cases a with
  | start | accept | toController => trivial
  | traffic k now ms =>
    intro srcIp destIp rule hc hheader
    exact absurd ⟨hc, by simp [hheader]⟩ h
  | fromController k =>
    intro action ipLow ipHigh port srcIp rest hdown
    exact absurd ⟨_, rest, hdown, rfl⟩ h
  | fromFifo k port =>
    intro name srcIp destIp rest hname hfifo
    exact absurd ⟨name, _, rest, hname, hfifo, rfl⟩ h

/-! ## The ports of a line -/

section Ports

variable (hline : N.IsLine)
include hline

/-- A hop on the way is read by the next switch, on the port that leads back. -/
theorem readFifo_hop {k : Fin n} {port : ℤ} {m : ℕ}
    (h : readFifo (N.cfg k) port = some (hop N s t m)) :
    (N.cfg k).id = stop N s t (m + 1) ∧ port = portBack N s t := by
  obtain ⟨hid, hport1, hport2⟩ := hline k
  have hsucc := stop_succ N s t m
  unfold readFifo at h
  split_ifs at h with h1 h2
  · obtain ⟨hfrom, hto⟩ := makeFifoName_inj (Option.some.inj h)
    refine ⟨hto, ?_⟩
    rw [hport1] at hfrom h1
    unfold direction at hsucc
    unfold portBack
    split_ifs at hfrom h1 hsucc ⊢ <;> omega
  · obtain ⟨hfrom, hto⟩ := makeFifoName_inj (Option.some.inj h)
    refine ⟨hto, ?_⟩
    rw [hport2] at hfrom h2
    unfold direction at hsucc
    unfold portBack
    split_ifs at hfrom h2 hsucc ⊢ <;> omega

/-- What a switch other than the first writes to for port 1. -/
theorem fdAt_one (hw : WellFormed N net) {k : Fin n} (hk : 1 < (N.cfg k).id) :
    (net.sw k).fdAt 1 = .stdin ∨
      ((net.sw k).portToFd 1 = some ((net.sw k).fdAt 1) ∧
        (net.sw k).fdAt 1 = .fifo (makeFifoName (N.cfg k).id ((N.cfg k).id - 1))) := by
  have hok := hw.switch k
  obtain ⟨hid, hport1, -⟩ := hline k
  have hto : (net.sw k).portToId 1 = (N.cfg k).id - 1 := by
    rw [hid] at hk
    have hne : k.val ≠ 0 := by omega
    rw [if_neg hne] at hport1
    have hport : (N.cfg k).port1Id ≠ -1 := by omega
    rw [hok.portToId]
    simp only [SwitchState.init, hport, ne_eq, not_false_eq_true, and_self, if_true]
    omega
  unfold SwitchState.fdAt
  cases hfd : (net.sw k).portToFd 1 with
  | none => exact .inl rfl
  | some fd =>
    rcases hok.fd 1 fd (by decide) hfd with rfl | rfl
    · exact .inl rfl
    · exact .inr ⟨rfl, by rw [Option.getD_some, hto]⟩

end Ports

/-! ## Where a line is -/

/-- A line that has been relayed right so far: the QUERY or the ADD is on its
    way, or the RELAY on its way on hop `m`, or it has arrived. -/
inductive Place (N : Network n) (s t : Fin n) (tr : Trail n) : Prop
  | asked (srcIp destIp : ℤ) (ht : N.Owns t destIp)
      (up : tr.up = Function.update (fun _ => []) s [.QUERY srcIp destIp])
      (down : tr.down = fun _ => []) (fifo : tr.fifo = fun _ => [])
      (sends : tr.sends N = []) (receipts : tr.receipts N = [])
  | answered (srcIp : ℤ) (up : tr.up = fun _ => [])
      (down : tr.down = Function.update (fun _ => []) s
        [.ADD 1 (N.cfg t).ipLow (N.cfg t).ipHigh (portTowards N s t) srcIp])
      (fifo : tr.fifo = fun _ => []) (sends : tr.sends N = []) (receipts : tr.receipts N = [])
  | flying (m : ℕ) (hm : m < distance N s t) (srcIp destIp : ℤ) (ht : N.Owns t destIp)
      (up : tr.up = fun _ => []) (down : tr.down = fun _ => [])
      (fifo : tr.fifo = Function.update (fun _ => []) (hop N s t m) [.RELAY srcIp destIp])
      (sends : tr.sends N = sendsPath N s t (m + 1))
      (receipts : tr.receipts N = receiptsPath N s t m)
  | arrived (up : tr.up = fun _ => []) (down : tr.down = fun _ => [])
      (fifo : tr.fifo = fun _ => []) (sends : tr.sends N = sendsPath N s t (distance N s t))
      (receipts : tr.receipts N = receiptsPath N s t (distance N s t))

/-- A line that has gone wrong: a send off the way, or nothing on its way before
    all hops are made. -/
inductive Broken (N : Network n) (s t : Fin n) (tr : Trail n) : Prop
  | wrong (j : ℕ) (x : ℤ × Fd) (hget : (tr.sends N)[j]? = some x)
      (hne : x ≠ (stop N s t j, .fifo (hop N s t j)))
  | lost (hquiet : tr.Quiet) (hlen : (tr.sends N).length < distance N s t)

theorem Place.relayed (h : Place N s t (trail net c)) : Relayed N net c s t := by
  cases h with
  | asked srcIp destIp ht up down fifo sends receipts =>
    refine ⟨0, 0, sends, receipts, le_refl _, by omega, by omega, fun hquiet => ?_⟩
    have := (hquiet.1 s).1
    simp [up] at this
  | answered srcIp up down fifo sends receipts =>
    refine ⟨0, 0, sends, receipts, le_refl _, by omega, by omega, fun hquiet => ?_⟩
    have := (hquiet.1 s).2
    simp [down] at this
  | flying m hm srcIp destIp ht up down fifo sends receipts =>
    refine ⟨m + 1, m, sends, receipts, by omega, le_refl _, hm, fun hquiet => ?_⟩
    have := hquiet.2 (hop N s t m)
    simp [fifo] at this
  | arrived up down fifo sends receipts =>
    exact ⟨_, _, sends, receipts, le_refl _, by omega, le_refl _, fun _ => ⟨rfl, rfl⟩⟩

theorem Broken.not_relayed (h : Broken N s t (trail net c)) : ¬ Relayed N net c s t := by
  rintro ⟨sent, received, hsends, -, -, -, -, hquiet⟩
  cases h with
  | wrong j x hget hne =>
    rw [hsends] at hget
    have hj : j < sent := by
      have := (List.getElem?_eq_some_iff.mp hget).1
      simpa using this
    rw [getElem?_sendsPath N s t hj, Option.some.injEq] at hget
    exact hne hget.symm
  | lost hq hlen =>
    rw [hsends, length_sendsPath, (hquiet hq).1] at hlen
    omega

/-! ## Steps of a line -/

section FirstHop

variable {tr : Trail n} (hup : tr.up = fun _ => []) (hdown : tr.down = fun _ => [])
  (hfifo : tr.fifo = fun _ => []) (hsends : tr.sends N = []) (hreceipts : tr.receipts N = [])
include hup hdown hfifo hsends hreceipts

/-- The first hop, to the neighbour or to `stdin`. -/
theorem first_hop (hline : N.IsLine) (hw : WellFormed N net) (hne : t ≠ s) (c : ℕ) (srcIp : ℤ)
    {destIp : ℤ} (ht : N.Owns t destIp) :
    ((net.sw s).portToFd (portTowards N s t) ≠ some .stdin → Place N s t (tr.send s c
      [⟨(net.sw s).outFd (N.cfg s) (portTowards N s t), .RELAY srcIp destIp⟩])) ∧
    ((net.sw s).portToFd (portTowards N s t) = some .stdin → Broken N s t (tr.send s c
      [⟨(net.sw s).outFd (N.cfg s) (portTowards N s t), .RELAY srcIp destIp⟩])) := by
  have hfd := outFd_towards hline hw hne
  have hstart : stop N s t 0 = (N.cfg s).id := by simp [stop]
  constructor
  · intro hport
    rw [if_neg hport] at hfd
    refine .flying 0 (distance_pos hline hne) srcIp destIp ht ?_ hdown ?_ ?_ ?_
    · funext j
      simp [Trail.send, hup, hfd]
    · funext name
      by_cases hname : name = hop N s t 0
      · subst hname
        simp [Trail.send, hfifo, hfd]
      · simp [Trail.send, hfifo, hfd, Function.update_of_ne hname, Ne.symm hname]
    · simp [Trail.sends_send, hsends, Event.sent?, hfd, sendsPath, hstart]
    · simp [Trail.receipts_send, hreceipts, receiptsPath]
  · intro hport
    rw [if_pos hport] at hfd
    refine .wrong 0 ((N.cfg s).id, .stdin) ?_ ?_
    · simp [Trail.sends_send, hsends, Event.sent?, hfd]
    · simp

end FirstHop

/-! ### A transit -/

section Transit

variable {tr : Trail n} {m : ℕ} (hm : m < distance N s t) (hup : tr.up = fun _ => [])
  (hdown : tr.down = fun _ => []) (hfifo : tr.fifo = fun _ => [])
  (hsends : tr.sends N = sendsPath N s t (m + 1))
  (hreceipts : tr.receipts N = receiptsPath N s t (m + 1)) {k : Fin n}
  (hid : (N.cfg k).id = stop N s t (m + 1)) (c : ℕ) (srcIp : ℤ) {destIp : ℤ}

include hsends in
/-- A send that does not go on towards `t`. -/
theorem broken_of_send {fd : Fd} (hfd : fd ≠ .fifo (hop N s t (m + 1))) :
    Broken N s t (tr.send k c [⟨fd, .RELAY srcIp destIp⟩]) := by
  refine .wrong (m + 1) ((N.cfg k).id, fd) ?_ ?_
  · rw [Trail.sends_send, hsends, List.getElem?_append_right (by simp)]
    simp [Event.sent?]
  · intro heq
    exact hfd (Prod.mk.inj heq).2

include hup hdown hfifo hsends hreceipts hid in
/-- A send that goes on towards `t`. -/
theorem place_of_send (hm : m + 1 < distance N s t) (ht : N.Owns t destIp) :
    Place N s t (tr.send k c [⟨.fifo (hop N s t (m + 1)), .RELAY srcIp destIp⟩]) := by
  refine .flying (m + 1) hm srcIp destIp ht ?_ hdown ?_ ?_ ?_
  · funext j
    simp [Trail.send, hup]
  · funext name
    by_cases hname : name = hop N s t (m + 1)
    · subst hname
      simp [Trail.send, hfifo]
    · simp [Trail.send, hfifo, Function.update_of_ne hname, Ne.symm hname]
  · rw [Trail.sends_send, hsends, sendsPath_succ N s t (m + 1), ← hid]
    simp [Event.sent?]
  · rw [Trail.receipts_send, hreceipts]

variable (hline : N.IsLine) (hN : N.DisjointRanges) (hw : WellFormed N net)
  (ht : N.Owns t destIp) {port : ℤ} (hport : port = portBack N s t)

include hline hN hid ht in
/-- The RELAY is for the switch that reads it iff it has made all hops. -/
theorem owns_iff_last : N.Owns k destIp ↔ m + 1 = distance N s t := by
  constructor
  · intro hk
    obtain rfl : k = t := hN k t destIp hk ht
    exact stop_inj N s k (by rw [← hid, stop_distance])
  · intro hlast
    have hkt : k = t := hline.id_inj (by rw [hid, hlast, stop_distance])
    exact hkt ▸ ht

include hup hdown hfifo hsends hreceipts hid hline hN hw ht hport in
theorem Place.transit (hm : m < distance N s t) (hok : ¬ N.Owns k destIp → port = 2 ∧
    2 < (N.cfg k).id ∧ ∃ name, (net.sw k).portToFd 1 = some (.fifo name)) :
    Place N s t
      (tr.send k c ((net.sw k).handleRelay (N.cfg k) port srcIp destIp).2) := by
  by_cases howns : N.Owns k destIp
  · have hlast := (owns_iff_last hid hline hN ht).mp howns
    rw [SwitchState.handleRelay_local _ _ _ _ _ howns, Trail.send_nil]
    exact .arrived hup hdown hfifo (hlast ▸ hsends) (hlast ▸ hreceipts)
  · obtain ⟨rfl, htwo, name, hopen⟩ := hok howns
    have hlast := (owns_iff_last hid hline hN ht).not.mp howns
    have hfd : (net.sw k).fdAt 1 = .fifo (hop N s t (m + 1)) := by
      rcases fdAt_one hline hw (k := k) (by omega) with hstdin | ⟨-, hfd⟩
      · simp [SwitchState.fdAt, hopen] at hstdin
      · have hback : direction N s t = -1 := by
          unfold portBack at hport
          unfold direction
          split_ifs at hport ⊢ <;> omega
        rw [hfd, hop, stop_succ N s t (m + 1), hback, ← hid]
        rfl
    have hwrites : ((net.sw k).handleRelay (N.cfg k) 2 srcIp destIp).2 =
        [⟨.fifo (hop N s t (m + 1)), .RELAY srcIp destIp⟩] := by
      rw [SwitchState.handleRelay_transit _ _ _ _ _ (hw.switch k).closed howns,
        SwitchState.transitPort, if_pos htwo]
      simp only [hfd]
    rw [hwrites]
    exact place_of_send hup hdown hfifo hsends hreceipts hid c srcIp (by omega) ht

include hup hdown hfifo hsends hid hline hN hw ht hport in
theorem Broken.transit (hm : m < distance N s t) (howns : ¬ N.Owns k destIp)
    (hbad : ¬ (port = 2 ∧ 2 < (N.cfg k).id ∧
      ∃ name, (net.sw k).portToFd 1 = some (.fifo name))) :
    Broken N s t
      (tr.send k c ((net.sw k).handleRelay (N.cfg k) port srcIp destIp).2) := by
  have hlast := (owns_iff_last hid hline hN ht).not.mp howns
  have hsucc := stop_succ N s t (m + 1)
  rw [SwitchState.handleRelay_transit _ _ _ _ _ (hw.switch k).closed howns]
  by_cases hright : (N.cfg s).id < (N.cfg t).id
  · -- read from port 1, and sent back there
    have hpos : 1 < (N.cfg k).id := by
      have hs := (hline s).1
      rw [hid, stop, direction, if_pos hright]
      push_cast
      omega
    have hone : port = 1 := by rw [hport, portBack, if_pos hright]
    rw [SwitchState.transitPort, if_pos (by omega)]
    refine broken_of_send hsends c srcIp ?_
    rcases fdAt_one hline hw hpos with hstdin | ⟨-, hfd⟩
    · simp [hstdin]
    · rw [hfd]
      intro heq
      have hto := (makeFifoName_inj (Fd.fifo.inj heq)).2
      rw [hsucc, direction, if_pos hright, ← hid] at hto
      omega
  · have htwo : port = 2 := by rw [hport, portBack, if_neg hright]
    have htid : 1 ≤ (N.cfg t).id := (N.cfg t).id_pos
    have hend := stop_distance N s t
    have hge : 2 ≤ (N.cfg k).id := by
      rw [stop, direction, if_neg hright] at hid hend
      push_cast at hid
      omega
    by_cases hgt : 2 < (N.cfg k).id
    · -- sent on, but to `stdin`
      rw [SwitchState.transitPort, if_pos (by omega)]
      refine broken_of_send hsends c srcIp ?_
      rcases fdAt_one hline hw (k := k) (by omega) with hstdin | ⟨hopen, hfd⟩
      · simp [hstdin]
      · exact absurd ⟨htwo, hgt, _, by rw [hopen, hfd]⟩ hbad
    · -- not sent at all
      rw [SwitchState.transitPort, if_neg (by omega), if_neg (by omega), Trail.send_nil]
      refine .lost ⟨fun j => ?_, fun name => ?_⟩ ?_
      · simp [hup, hdown]
      · simp [hfifo]
      · rw [hsends, length_sendsPath]
        omega

end Transit

/-! ### All steps of an admitted line -/

theorem Place.step (hline : N.IsLine) (hN : N.DisjointRanges) (hs : Steady N net) (hne : t ≠ s)
    (hnew : c ≠ net.lineCount) {a : Action n} (h : Place N s t (trail net c))
    (hstep : TrailStep N net net' c a) :
    (StepOk N c net a → Place N s t (trail net' c)) ∧
      (¬ StepOk N c net a → Broken N s t (trail net' c)) := by
  have hw := wellFormed_of_reachable hs.reachable
  cases hstep with
  | same _ hother hsame =>
    rw [hsame]
    exact ⟨fun _ => h, fun hbad => absurd (stepOk_of_not_touches hother) hbad⟩
  | hit k now ms srcIp destIp rule hc => exact absurd hc hnew
  | miss k now ms srcIp destIp hc => exact absurd hc hnew
  | queried i k srcIp destIp hfd hasked hnext =>
    refine ⟨fun _ => ?_, fun hbad => absurd trivial hbad⟩
    cases h with
    | asked srcIp' destIp' ht up down fifo sends receipts =>
      rw [up] at hasked
      obtain ⟨rfl, heq, -⟩ := eq_of_update_nil hasked
      cases heq
      rw [hnext, hs.answer_eq hN hfd srcIp ht]
      refine .answered srcIp ?_ ?_ fifo ?_ ?_
      · simp [Trail.record, Trail.setUp, Trail.setDown, up]
      · simp [Trail.record, Trail.setUp, Trail.setDown, down]
      · rw [Trail.sends_record]
        simpa [Event.sent?] using sends
      · rw [Trail.receipts_record]
        simpa [Event.received?] using receipts
    | answered srcIp' up down fifo sends receipts => simp [up] at hasked
    | flying m hm srcIp' destIp' ht up down fifo sends receipts => simp [up] at hasked
    | arrived up down fifo sends receipts => simp [up] at hasked
  | dropped k srcIp destIp hadd hnext =>
    cases h with
    | answered srcIp' up down fifo sends receipts =>
      rw [down] at hadd
      obtain ⟨-, heq, -⟩ := eq_of_update_nil hadd
      simp at heq
    | asked srcIp' destIp' ht up down fifo sends receipts => simp [down] at hadd
    | flying m hm srcIp' destIp' ht up down fifo sends receipts => simp [down] at hadd
    | arrived up down fifo sends receipts => simp [down] at hadd
  | forwarded k u srcIp port hport hnet hadd hnext =>
    cases h with
    | answered srcIp' up down fifo sends receipts =>
      rw [down] at hadd
      obtain ⟨rfl, heq, -⟩ := eq_of_update_nil hadd
      simp only [Packet.ADD.injEq, true_and] at heq
      obtain ⟨hlow, hhigh, rfl, -⟩ := heq
      have ht : N.Owns t (N.cfg u).ipLow := by
        rw [hlow]
        exact ⟨le_refl _, (N.cfg t).low_le_high⟩
      rw [hnext]
      have hup : (((trail net c).setDown k []).record (.handled k (some c) socketIdx (.ADD 1
          (N.cfg u).ipLow (N.cfg u).ipHigh (portTowards N k t) srcIp))).up = fun _ => [] := up
      have hfirst := first_hop hup (by simp [Trail.record, Trail.setDown, down]) fifo
        (by rw [Trail.sends_record]; simpa [Event.sent?] using sends)
        (by rw [Trail.receipts_record]; simpa [Event.received?] using receipts)
        hline hw hne c srcIp ht
      refine ⟨fun hok => hfirst.1 (hok _ _ _ _ _ _ hnet), fun hbad => hfirst.2 ?_⟩
      by_contra hport'
      refine hbad fun action ipLow ipHigh port srcIp rest hdown => ?_
      rw [hnet] at hdown
      cases hdown
      exact hport'
    | asked srcIp' destIp' ht up down fifo sends receipts => simp [down] at hadd
    | flying m hm srcIp' destIp' ht up down fifo sends receipts => simp [down] at hadd
    | arrived up down fifo sends receipts => simp [down] at hadd
  | relayed k port srcIp destIp name queue rest hname hnet hrelay hnext =>
    cases h with
    | flying m hm srcIp' destIp' ht up down fifo sends receipts =>
      rw [fifo] at hrelay
      obtain ⟨rfl, heq, rfl⟩ := eq_of_update_nil hrelay
      cases heq
      obtain ⟨hid, hport⟩ := readFifo_hop hline hname
      have hup : (((trail net c).setFifo (hop N s t m) []).record
          (.handled k (some c) port (.RELAY srcIp destIp))).up = fun _ => [] := up
      have hfifo' : (((trail net c).setFifo (hop N s t m) []).record
          (.handled k (some c) port (.RELAY srcIp destIp))).fifo = fun _ => [] := by
        simp [Trail.record, Trail.setFifo, fifo]
      have hsends : (((trail net c).setFifo (hop N s t m) []).record
          (.handled k (some c) port (.RELAY srcIp destIp))).sends N =
            sendsPath N s t (m + 1) := by
        rw [Trail.sends_record]
        simpa [Event.sent?] using sends
      have hreceipts : (((trail net c).setFifo (hop N s t m) []).record
          (.handled k (some c) port (.RELAY srcIp destIp))).receipts N =
            receiptsPath N s t (m + 1) := by
        have hold : ((trail net c).setFifo (hop N s t m) []).receipts N =
            receiptsPath N s t m := receipts
        rw [Trail.receipts_record, hold, receiptsPath_succ, ← hid, ← hport]
        rfl
      rw [hnext]
      constructor
      · intro hok
        exact Place.transit hup down hfifo' hsends hreceipts hid c srcIp hline hN hw ht hport hm
          (hok _ _ _ _ hname hnet)
      · intro hbad
        have hcond : ¬ N.Owns k destIp ∧ ¬ (port = 2 ∧ 2 < (N.cfg k).id ∧
            ∃ name, (net.sw k).portToFd 1 = some (.fifo name)) := by
          by_contra hcond
          refine hbad fun name srcIp' destIp' rest hname' hfifo' howns => ?_
          rw [hname] at hname'
          cases hname'
          rw [hnet] at hfifo'
          cases hfifo'
          by_contra hport'
          exact hcond ⟨howns, hport'⟩
        exact Broken.transit hup down hfifo' hsends hid c srcIp hline hN hw ht hport hm hcond.1
          hcond.2
    | asked srcIp' destIp' ht up down fifo sends receipts => simp [fifo] at hrelay
    | answered srcIp' up down fifo sends receipts => simp [fifo] at hrelay
    | arrived up down fifo sends receipts => simp [fifo] at hrelay

/-- The log of a line only grows. -/
theorem TrailStep.log_prefix {a : Action n} (h : TrailStep N net net' c a) :
    (trail net c).log <+: (trail net' c).log := by
  cases h with
  | same _ hother h => rw [h]
  | hit k now ms srcIp destIp rule hc hcount hheader hfind h =>
    rw [h]
    simp only [Trail.send, Trail.record, List.append_assoc]
    exact List.prefix_append _ _
  | miss k now ms srcIp destIp hc hcount hheader hmiss h =>
    rw [h]
    simp only [Trail.send, Trail.record, List.append_assoc]
    exact List.prefix_append _ _
  | queried i k srcIp destIp hfd hup h =>
    rw [h]
    exact List.prefix_append _ _
  | dropped k srcIp destIp hdown h =>
    rw [h]
    exact List.prefix_append _ _
  | forwarded k u srcIp port hport hnet hdown h =>
    rw [h]
    simp only [Trail.send, Trail.record, Trail.setDown, List.append_assoc]
    exact List.prefix_append _ _
  | relayed k port srcIp destIp name queue rest hname hnet hfifo h =>
    rw [h]
    simp only [Trail.send, Trail.record, Trail.setFifo, List.append_assoc]
    exact List.prefix_append _ _

/-- What has gone wrong stays wrong. -/
theorem Broken.step (hnew : c ≠ net.lineCount) {a : Action n} (h : Broken N s t (trail net c))
    (hstep : TrailStep N net net' c a) : Broken N s t (trail net' c) := by
  cases h with
  | wrong j x hget hne =>
    obtain ⟨more, hmore⟩ := hstep.log_prefix.filterMap (Event.sent? N)
    refine .wrong j x ?_ hne
    rw [Trail.sends, ← hmore, List.getElem?_append_left]
    · exact hget
    · exact (List.getElem?_eq_some_iff.mp hget).1
  | lost hquiet hlen =>
    cases hstep with
    | same _ hother h =>
      rw [h]
      exact .lost hquiet hlen
    | hit k now ms srcIp destIp rule hc => exact absurd hc hnew
    | miss k now ms srcIp destIp hc => exact absurd hc hnew
    | queried i k srcIp destIp hfd hup => simp [(hquiet.1 k).1] at hup
    | dropped k srcIp destIp hdown => simp [(hquiet.1 k).2] at hdown
    | forwarded k u srcIp port hport hnet hdown => simp [(hquiet.1 k).2] at hdown
    | relayed k port srcIp destIp name queue rest hname hnet hfifo =>
      simp [hquiet.2 name] at hfifo

/-! ## Runs -/

/-- The verdict on line `c`, when `ok` says that all steps were right for it. -/
structure Judged (N : Network n) (c : ℕ) (net : NetState n) (ok : Prop) : Prop where
  fresh : trail net c = Trail.empty → ok
  judged : ∀ s srcIp destIp t, Event.admitted s c srcIp destIp ∈ (trail net c).log →
    N.Owns t destIp → t ≠ s →
      (ok ∧ Place N s t (trail net c)) ∨ (¬ ok ∧ Broken N s t (trail net c))

theorem judged_of_fresh {ok : Prop} (h : trail net c = Trail.empty) (hok : ok) :
    Judged N c net ok :=
  ⟨fun _ => hok, fun s srcIp destIp t hmem => by simp [h, Trail.empty] at hmem⟩

/-- The admission of a line that a rule matches. -/
theorem judged_hit (hline : N.IsLine) (hN : N.DisjointRanges) (hs : Steady N net) {k : Fin n}
    {now ms srcIp destIp : ℤ} {rule : FlowRule} (hc : c = net.lineCount)
    (hheader : (net.sw k).nextHeader (N.cfg k) now ms = some (srcIp, destIp))
    (hfind : (net.sw k).flowTable.find? (fun r => r.covers destIp) = some rule)
    (hnext : trail net' c = (Trail.empty.record (.admitted k c srcIp destIp)).send k c
      (if rule.actionType = .FORWARD ∧ rule.actionVal ≠ 3 then
        [⟨(net.sw k).outFd (N.cfg k) rule.actionVal, .RELAY srcIp destIp⟩] else [])) :
    Judged N c net' (StepOk N c net (.traffic k now ms)) := by
  have hw := wellFormed_of_reachable hs.reachable
  refine ⟨fun hempty => ?_, fun s srcIp' destIp' t hmem ht hne => ?_⟩
  · rw [hempty] at hnext
    have hlog := congrArg Trail.log hnext
    simp [Trail.empty, Trail.send, Trail.record] at hlog
  · obtain ⟨rfl, rfl, rfl⟩ : s = k ∧ srcIp' = srcIp ∧ destIp' = destIp := by
      rw [hnext] at hmem
      simpa [Trail.empty, Trail.send, Trail.record] using hmem
    have hstep : StepOk N c net (.traffic s now ms) ↔ rule.actionType = .FORWARD ∧
        (net.sw s).portToFd rule.actionVal ≠ some .stdin := by
      refine ⟨fun h => h _ _ rule hc.symm hheader hfind, fun h srcIp destIp rule' _ hheader' => ?_⟩
      rw [hheader] at hheader'
      cases hheader'
      rw [hfind]
      rintro ⟨rfl⟩
      exact h
    rw [hstep, hnext]
    cases htype : rule.actionType with
    | DROP =>
      refine .inr ⟨by simp, .lost ⟨fun j => ?_, fun name => ?_⟩ ?_⟩
      · simp [Trail.record, Trail.empty]
      · simp [Trail.record, Trail.empty]
      · rw [if_neg (by simp), Trail.send_nil]
        exact distance_pos hline hne
    | FORWARD =>
      have hport : rule.actionVal = portTowards N s t :=
        hs.forward_port hN (List.mem_of_find?_eq_some hfind) htype
          (by simpa using List.find?_some hfind) ht hne
      have hval : rule.actionVal ≠ 3 := by
        rw [hport, portTowards]
        split_ifs <;> decide
      have hempty : ((Trail.empty : Trail n).record (.admitted s c srcIp' destIp')).up =
          fun _ => [] := rfl
      have hfirst := first_hop hempty rfl rfl rfl rfl hline hw hne c srcIp' ht
      rw [if_pos ⟨rfl, hval⟩, hport]
      by_cases hstdin : (net.sw s).portToFd (portTowards N s t) = some .stdin
      · exact .inr ⟨fun h => h.2 hstdin, hfirst.2 hstdin⟩
      · exact .inl ⟨⟨rfl, hstdin⟩, hfirst.1 hstdin⟩

/-- The admission of a line that no rule matches. -/
theorem judged_miss {k : Fin n} {now ms srcIp destIp : ℤ}
    (hheader : (net.sw k).nextHeader (N.cfg k) now ms = some (srcIp, destIp))
    (hmiss : ∀ r ∈ (net.sw k).flowTable, ¬ r.covers destIp)
    (hnext : trail net' c = (Trail.empty.record (.admitted k c srcIp destIp)).send k c
      [⟨.controller, .QUERY srcIp destIp⟩]) :
    Judged N c net' (StepOk N c net (.traffic k now ms)) := by
  have hok : StepOk N c net (.traffic k now ms) := by
    intro srcIp' destIp' rule _ hheader' hfind
    rw [hheader] at hheader'
    cases hheader'
    exact absurd (by simpa using List.find?_some hfind)
      (hmiss rule (List.mem_of_find?_eq_some hfind))
  refine ⟨fun _ => hok, fun s srcIp' destIp' t hmem ht hne => .inl ⟨hok, ?_⟩⟩
  obtain ⟨rfl, rfl, rfl⟩ : s = k ∧ srcIp' = srcIp ∧ destIp' = destIp := by
    rw [hnext] at hmem
    simpa [Trail.empty, Trail.send, Trail.record] using hmem
  rw [hnext]
  refine .asked srcIp' destIp' ht ?_ rfl ?_ ?_ ?_
  · simp [Trail.send, Trail.record, Trail.empty]
  · simp [Trail.send, Trail.record, Trail.empty]
  · rfl
  · rfl

/-- A step other than the admission of the line leaves its header alone. -/
theorem TrailStep.admitted_back {a : Action n} (hnew : c ≠ net.lineCount)
    (h : TrailStep N net net' c a) {srcIp destIp : ℤ}
    (hmem : Event.admitted s c srcIp destIp ∈ (trail net' c).log) :
    Event.admitted s c srcIp destIp ∈ (trail net c).log := by
  cases h with
  | same _ hother h => rwa [h] at hmem
  | hit k now ms srcIp destIp rule hc => exact absurd hc hnew
  | miss k now ms srcIp destIp hc => exact absurd hc hnew
  | queried i k srcIp destIp hfd hup h =>
    rw [h] at hmem
    simpa [Trail.record, Trail.setUp, Trail.setDown] using hmem
  | dropped k srcIp destIp hdown h =>
    rw [h] at hmem
    simpa [Trail.record, Trail.setDown] using hmem
  | forwarded k u srcIp port hport hnet hdown h =>
    rw [h] at hmem
    simpa [Trail.send, Trail.record, Trail.setDown] using hmem
  | relayed k port srcIp destIp name queue rest hname hnet hfifo h =>
    rw [h] at hmem
    simpa [Trail.send, Trail.record, Trail.setFifo] using hmem

theorem Judged.step (hline : N.IsLine) (hN : N.DisjointRanges) (hs : Steady N net) {ok : Prop}
    {a : Action n} (h : Judged N c net ok) (hstep : N.step net a = some net') :
    Judged N c net' (ok ∧ StepOk N c net a) := by
  have hw := wellFormed_of_reachable hs.reachable
  have htrail := (transition_of_step hw hstep).trail hw c
  by_cases hempty : trail net c = Trail.empty
  · have hok := h.fresh hempty
    have hiff : (ok ∧ StepOk N c net a) = StepOk N c net a := by simp [hok]
    rw [hiff]
    cases htrail with
    | same _ hother hsame =>
      exact judged_of_fresh (hsame.trans hempty) (stepOk_of_not_touches hother)
    | hit k now ms srcIp destIp rule hc hcount hheader hfind hnext =>
      exact judged_hit hline hN hs hc hheader hfind (hempty ▸ hnext)
    | miss k now ms srcIp destIp hc hcount hheader hmiss hnext =>
      exact judged_miss hheader hmiss (hempty ▸ hnext)
    | queried i k srcIp destIp hfd hup => simp [hempty, Trail.empty] at hup
    | dropped k srcIp destIp hdown => simp [hempty, Trail.empty] at hdown
    | forwarded k u srcIp port hport hnet hdown => simp [hempty, Trail.empty] at hdown
    | relayed k port srcIp destIp name queue rest hname hnet hfifo =>
      simp [hempty, Trail.empty] at hfifo
  · have hnew : c ≠ net.lineCount := by
      rintro rfl
      exact hempty (trail_fresh hs.reachable (le_refl _))
    refine ⟨fun hempty' => ?_, fun s srcIp destIp t hmem ht hne => ?_⟩
    · have hprefix := htrail.log_prefix
      rw [hempty'] at hprefix
      have hlog : (trail net c).log = [] := List.prefix_nil.mp hprefix
      cases course_of_reachable hs.reachable c with
      | fresh hfresh => exact absurd hfresh hempty
      | direct k srcIp destIp hrel =>
        obtain ⟨rest, heq, -⟩ := hrel.log
        simp [hlog] at heq
      | asked k srcIp destIp heq => simp [heq, askedLog] at hlog
      | answered k srcIp destIp slot known hknown heq => simp [heq, answeredLog, askedLog] at hlog
      | settled k srcIp destIp slot known hknown hrel =>
        obtain ⟨rest, heq, -⟩ := hrel.log
        simp [hlog, answeredLog, askedLog] at heq
    · rcases h.judged s srcIp destIp t (htrail.admitted_back hnew hmem) ht hne with
        ⟨hok, hplace⟩ | ⟨hbad, hbroken⟩
      · obtain ⟨hgood, hwrong⟩ := hplace.step hline hN hs hne hnew htrail
        by_cases hstepOk : StepOk N c net a
        · exact .inl ⟨⟨hok, hstepOk⟩, hgood hstepOk⟩
        · exact .inr ⟨fun h => hstepOk h.2, hwrong hstepOk⟩
      · exact .inr ⟨fun h => hbad h.1, hbroken.step hnew htrail⟩

/-- In every run of a line of switches that have all opened, a line of a traffic
    file for an address of another switch is relayed as it should be iff every
    step of the run was right for it. -/
theorem relayed_iff (hline : N.IsLine) (hN : N.DisjointRanges) {net₀ : NetState n}
    (hready : Ready N net₀) {tr : List (NetState n × Action n)} (hrun : N.system.Run net₀ tr net)
    (hnew : net₀.lineCount ≤ c) {srcIp destIp : ℤ}
    (hadmitted : Event.admitted s c srcIp destIp ∈ net.log) (ht : N.Owns t destIp) (hne : t ≠ s) :
    Relayed N net c s t ↔ ∀ p ∈ tr, StepOk N c p.1 p.2 := by
  have hjudged : Steady N net ∧ Judged N c net (∀ p ∈ tr, StepOk N c p.1 p.2) := by
    clear hadmitted
    induction hrun with
    | nil => exact ⟨hready.steady, judged_of_fresh (trail_fresh hready.reachable hnew) (by simp)⟩
    | snoc hr hstep ih =>
      refine ⟨ih.1.step hstep, ?_⟩
      have hsplit : ∀ (tr : List (NetState n × Action n)) u a,
          (∀ p ∈ tr ++ [(u, a)], StepOk N c p.1 p.2) =
            ((∀ p ∈ tr, StepOk N c p.1 p.2) ∧ StepOk N c u a) := by
        intro tr u a
        simp only [List.forall_mem_append, List.forall_mem_singleton]
      rw [hsplit]
      exact ih.2.step hline hN ih.1 hstep
  rcases hjudged.2.judged s srcIp destIp t (mem_trail hadmitted rfl) ht hne with
    ⟨hok, hplace⟩ | ⟨hbad, hbroken⟩
  · exact iff_of_true hplace.relayed hok
  · exact iff_of_false hbroken.not_relayed hbad

/-! ## From the first to the last of three switches -/

/-- The switches of `ex2.dat` with a third one behind switch 2. All read a file
    in which switch 2 sends to switch 1, and then switch 1 to switch 3. -/
def ex3 : Network 3 where
  cfg := ![ex2Switch1, ex3Switch2, ex3Switch3]
  file := fun _ => ["sw2 200 100".toList, "sw1 100 300".toList]

theorem ex3_isLine : ex3.IsLine := by
  intro k
  fin_cases k <;> exact ⟨rfl, rfl, rfl⟩

theorem ex3_disjointRanges : ex3.DisjointRanges := by
  intro t u ip ht hu
  fin_cases t <;> fin_cases u <;>
    simp [Network.Owns, ex3, ex2Switch1, ex2Switch2, ex3Switch2, ex3Switch3] at ht hu ⊢ <;> omega

def openAll : List (Action 3) :=
  [.start 0, .accept, .start 1, .accept, .start 2, .accept, .toController 1, .toController 2,
    .toController 3, .fromController 0, .fromController 1, .fromController 2]

/-- Switch 2 opens its FIFO to switch 1; the packet of switch 1 comes back on it. -/
def sentBack : List (Action 3) :=
  [.traffic 1 0 0, .toController 2, .fromController 1, .traffic 0 0 0, .traffic 0 0 0,
    .toController 1, .fromController 0, .fromFifo 1 1]

theorem exec_openAll : ∃ net, ex3.system.exec ex3.initState openAll = some net ∧
    Ready ex3 net ∧ net.lineCount ≤ 1 := by
  have hrun : (ex3.system.exec ex3.initState openAll).map (fun net => decide
      ((∀ k, (net.sw k).ackReceived = true) ∧
        (∀ k, net.ctrl.pfds (ex3.cfg k).id = some (.switch k)) ∧ net.lineCount ≤ 1)) =
      some true := by
    decide +kernel
  obtain ⟨net, hexec, hacked, hslots, hcount⟩ := System.exists_of_exec hrun
  exact ⟨net, hexec, ⟨System.Reachable.of_exec rfl hexec, hacked, hslots⟩, hcount⟩

theorem exec_sentBack : ∃ net₀ net, Ready ex3 net₀ ∧ net₀.lineCount ≤ 1 ∧
    ex3.system.exec net₀ sentBack = some net ∧ Event.admitted 0 1 100 300 ∈ net.log ∧
    ((trail net 1).sends ex3)[1]? = some (2, .fifo (makeFifoName 2 1)) := by
  have hrun : (ex3.system.exec ex3.initState (openAll ++ sentBack)).map (fun net =>
      (decide (Event.admitted 0 1 100 300 ∈ net.log), ((trail net 1).sends ex3)[1]?)) =
      some (true, some (2, .fifo (makeFifoName 2 1))) := by
    decide +kernel
  obtain ⟨net, hexec, hview⟩ := Option.map_eq_some_iff.mp hrun
  obtain ⟨net₀, hexec₀, hready, hcount⟩ := exec_openAll
  rw [System.exec_append hexec₀] at hexec
  simp only [Prod.mk.injEq, decide_eq_true_eq] at hview
  exact ⟨net₀, net, hready, hcount, hexec, hview.1, hview.2⟩

/-- Switch 2 sends the packet of switch 1 for switch 3 back to switch 1. -/
theorem relaying_counterexample : ∃ (N : Network 3) (net₀ net : NetState 3)
    (tr : List (NetState 3 × Action 3)) (c : ℕ) (s t : Fin 3) (srcIp destIp : ℤ),
    N.IsLine ∧ N.DisjointRanges ∧ Ready N net₀ ∧ N.system.Run net₀ tr net ∧ net₀.lineCount ≤ c ∧
      Event.admitted s c srcIp destIp ∈ net.log ∧ N.Owns t destIp ∧ t ≠ s ∧
      ¬ Relayed N net c s t := by
  obtain ⟨net₀, net, hready, hcount, hexec, hadmitted, hsend⟩ := exec_sentBack
  refine ⟨ex3, net₀, net, _, 1, 0, 2, 100, 300, ex3_isLine, ex3_disjointRanges, hready,
    .of_exec hexec, hcount, hadmitted, by decide, by decide, ?_⟩
  exact Broken.not_relayed (.wrong 1 _ hsend (by decide))

/-! ## A line that is passed on -/

/-- Four switches. All read a file in which switch 3 sends to switch 2, and then switch 4
    does. -/
def ex4 : Network 4 where
  cfg := ![ex2Switch1, ex3Switch2, ex4Switch3, ex4Switch4]
  file := fun _ => ["sw3 300 200".toList, "sw4 400 200".toList]

theorem ex4_isLine : ex4.IsLine := by
  intro k
  fin_cases k <;> exact ⟨rfl, rfl, rfl⟩

theorem ex4_disjointRanges : ex4.DisjointRanges := by
  intro t u ip ht hu
  fin_cases t <;> fin_cases u <;>
    simp [Network.Owns, ex4, ex2Switch1, ex2Switch2, ex3Switch2, ex3Switch3, ex4Switch3,
      ex4Switch4] at ht hu ⊢ <;> omega

def openFour : List (Action 4) :=
  [.start 0, .accept, .start 1, .accept, .start 2, .accept, .start 3, .accept, .toController 1,
    .toController 2, .toController 3, .toController 4, .fromController 0, .fromController 1,
    .fromController 2, .fromController 3]

/-- Switch 3 opens its FIFO to switch 2; the packet of switch 4 is passed on to it. -/
def passedOn : List (Action 4) :=
  [.traffic 2 0 0, .toController 3, .fromController 2, .traffic 3 0 0, .traffic 3 0 0,
    .toController 4, .fromController 3, .fromFifo 2 2, .fromFifo 1 2, .fromFifo 1 2]

theorem exec_openFour : ∃ net, ex4.system.exec ex4.initState openFour = some net ∧
    Ready ex4 net ∧ net.lineCount ≤ 1 := by
  have hrun : (ex4.system.exec ex4.initState openFour).map (fun net => decide
      ((∀ k, (net.sw k).ackReceived = true) ∧
        (∀ k, net.ctrl.pfds (ex4.cfg k).id = some (.switch k)) ∧ net.lineCount ≤ 1)) =
      some true := by
    decide +kernel
  obtain ⟨net, hexec, hacked, hslots, hcount⟩ := System.exists_of_exec hrun
  exact ⟨net, hexec, ⟨System.Reachable.of_exec rfl hexec, hacked, hslots⟩, hcount⟩

/-- Both hops are made, and every step was right. -/
theorem relayed_iff_passedOn : ∃ net₀ net, ex4.system.exec net₀ passedOn = some net ∧
    Relayed ex4 net 1 3 1 ∧ ∀ p ∈ ex4.system.trace net₀ passedOn, StepOk ex4 1 p.1 p.2 := by
  obtain ⟨net₀, hexec₀, hready, hcount⟩ := exec_openFour
  have hrun : (ex4.system.exec ex4.initState (openFour ++ passedOn)).map (fun net => decide
      (Event.admitted 3 1 400 200 ∈ net.log ∧
        (trail net 1).sends ex4 = sendsPath ex4 3 1 2 ∧
        (trail net 1).receipts ex4 = receiptsPath ex4 3 1 2)) = some true := by
    decide +kernel
  obtain ⟨net, hexec, hadmitted, hsends, hreceipts⟩ := System.exists_of_exec hrun
  rw [System.exec_append hexec₀] at hexec
  have hrelayed : Relayed ex4 net 1 3 1 :=
    ⟨2, 2, hsends, hreceipts, by decide, by decide, by decide, fun _ => ⟨by decide, by decide⟩⟩
  exact ⟨net₀, net, hexec, hrelayed, (relayed_iff ex4_isLine ex4_disjointRanges hready
    (.of_exec hexec) hcount hadmitted (by decide) (by decide)).mp hrelayed⟩

end Cmput379.Sdn
