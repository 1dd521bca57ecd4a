import Cmput379.Lib.Progress
import Cmput379.Lib.Monitor
import Cmput379.Sdn.StopAndWait
import Cmput379.Sdn.Replay

/-!
# The network can always finish

Whatever has happened so far, the switches can be brought to the end of their
traffic files, with every answer received. Every step makes the work that is left
smaller, except for the delivery of a RELAY, which no switch waits for, and a turn
of the loop that reads nothing.

* `SwitchState.toRead`: what a switch has left of its file.
* `reading_of_step`: what a step does to it.
* `busy_le`: how many steps a run can have, the idle ones apart.
* `leads_finished`: from every reachable state, all files can be read.
-/

namespace Cmput379.Sdn

open Cmput379.Lib SwitchState

variable {n : ℕ} {N : Network n} {net net' : NetState n} {k : Fin n}

/-! ## Reading -/

namespace SwitchState

/-- Whether the traffic file is open, and the lines not yet read. -/
def reading (s : SwitchState) : Bool × List Text := (s.isOpen, s.lines)

/-- A switch reads a line, or finds the end of its file. -/
inductive Advances : Bool × List Text → Bool × List Text → Prop
  | line (text : Text) (lines : List Text) : Advances (true, text :: lines) (true, lines)
  | eof : Advances (true, []) (false, [])

/-- What a switch has left of its file: three for each line, which may have to be
    asked for, and for its end. -/
def toRead : Bool × List Text → ℕ
  | (true, lines) => 3 * (lines.length + 1)
  | (false, _) => 0

theorem Advances.toRead {r r' : Bool × List Text} (h : Advances r r') :
    toRead r' + 3 = toRead r := by
  cases h with
  | line text lines =>
    show 3 * (lines.length + 1) + 3 = 3 * ((text :: lines).length + 1)
    rw [List.length_cons]
    omega
  | eof => rfl

theorem useRule_reading (cfg : SwitchConfig) (s : SwitchState) (rule : FlowRule)
    (flowTable : List FlowRule) (srcIp destIp : ℤ) :
    (s.useRule cfg rule flowTable srcIp destIp).1.reading = s.reading := by
  unfold useRule
  split
  · rfl
  · split_ifs
    · unfold openPort
      dsimp only
      split_ifs <;> rfl
    · rfl

theorem handleRelay_reading (cfg : SwitchConfig) (s : SwitchState) (i srcIp destIp : ℤ) :
    (s.handleRelay cfg i srcIp destIp).1.reading = s.reading := by
  unfold handleRelay
  dsimp only
  split_ifs <;> rfl

theorem handleForward_reading (cfg : SwitchConfig) (s : SwitchState)
    (i ipLow ipHigh port srcIp : ℤ) :
    (s.handleForward cfg i ipLow ipHigh port srcIp).1.reading = s.reading := by
  rw [handleForward_fst]
  unfold openPort
  split_ifs <;> rfl

theorem admitPacket_reading (cfg : SwitchConfig) (s : SwitchState) (srcIp destIp : ℤ) :
    (s.admitPacket cfg srcIp destIp).1.reading = s.reading := by
  unfold admitPacket
  dsimp only
  split
  · rw [useRule_reading]
    rfl
  · rfl

/-- The handling of a line does not read another. -/
theorem handleLine_reading {cfg : SwitchConfig} {ms : ℤ} {s : SwitchState} {text : Text}
    {turn : Turn} (h : handleLine cfg ms s text = some turn) :
    turn.state.reading = s.reading := by
  unfold handleLine at h
  simp only [Option.bind_eq_bind, Option.pure_def, Option.bind_eq_some_iff] at h
  obtain ⟨⟨type, content⟩, hparse, h⟩ := h
  cases type with
  | action =>
    obtain ⟨id, srcIp, destIp, rfl, -, -⟩ := parseTrafficFileLine_action hparse
    simp only [List.getElem?_cons_zero, List.getElem?_cons_succ, Option.bind_some] at h
    split_ifs at h <;> cases h
    · exact admitPacket_reading _ _ _ _
    · rfl
  | delay =>
    obtain ⟨id, duration, rfl⟩ := (parseTrafficFileLine_content hparse).2 rfl
    simp only [List.getElem?_cons_zero, List.getElem?_cons_succ, Option.bind_some] at h
    split_ifs at h <;> cases h <;> rfl
  | empty | comment | error =>
    cases h
    rfl

/-- A line that the parser accepts is handled. -/
theorem handleLine_isSome (cfg : SwitchConfig) (ms : ℤ) (s : SwitchState) {text : Text}
    (h : (parseTrafficFileLine text).isSome = true) :
    ∃ turn, handleLine cfg ms s text = some turn := by
  obtain ⟨⟨type, content⟩, hparse⟩ := Option.isSome_iff_exists.mp h
  unfold handleLine
  rw [hparse]
  cases type with
  | action =>
    obtain ⟨id, srcIp, destIp, rfl, -, -⟩ := parseTrafficFileLine_action hparse
    simp only [Option.bind_eq_bind, Option.bind_some, List.getElem?_cons_zero,
      List.getElem?_cons_succ]
    split_ifs <;> exact ⟨_, rfl⟩
  | delay =>
    obtain ⟨id, duration, rfl⟩ := (parseTrafficFileLine_content hparse).2 rfl
    simp only [Option.bind_eq_bind, Option.bind_some, List.getElem?_cons_zero,
      List.getElem?_cons_succ]
    split_ifs <;> exact ⟨_, rfl⟩
  | empty | comment | error => exact ⟨_, rfl⟩

/-- Whether part 1 of the loop reads, at the time `now`. -/
def mayRead (now : ℤ) (s : SwitchState) : Bool :=
  s.ackReceived && s.addReceived && !isDelayed now s.delayStartTime s.delayDuration && s.isOpen

theorem trafficTurn_reading {cfg : SwitchConfig} {now ms : ℤ} {s : SwitchState} {turn : Turn}
    (h : s.trafficTurn cfg now ms = some turn) :
    s.mayRead now = false ∧ turn.header = none ∧ turn.writes = [] ∧
        turn.state.reading = s.reading ∨
      s.mayRead now = true ∧ Advances s.reading turn.state.reading := by
  unfold trafficTurn nextLine at h
  split_ifs at h with hgate hopen
  · have hopen' : s.isOpen = true := hopen
    have hmay : s.mayRead now = true := by simp [mayRead, hgate, hopen']
    split at h
    next text lines hlines =>
      have hlines' : s.lines = text :: lines := hlines
      refine .inr ⟨hmay, ?_⟩
      rw [handleLine_reading h, reading, reading, hopen', hlines']
      exact .line text lines
    next hlines =>
      have hlines' : s.lines = [] := hlines
      cases h
      refine .inr ⟨hmay, ?_⟩
      rw [reading, reading, hopen', hlines']
      exact .eof
  · have hclosed : s.isOpen = false := by simpa using hopen
    cases h
    exact .inl ⟨by simp [mayRead, hclosed], rfl, rfl, rfl⟩
  · cases h
    refine .inl ⟨?_, rfl, rfl, rfl⟩
    rw [Bool.eq_false_iff]
    simp only [mayRead, ne_eq, Bool.and_eq_true, Bool.not_eq_true']
    exact fun hmay => hgate ⟨hmay.1.1.1, hmay.1.1.2, hmay.1.2⟩

/-- A switch that waits for nothing, at a time after its delay, reads. -/
theorem trafficTurn_advances (cfg : SwitchConfig) {s : SwitchState} (hack : s.ackReceived = true)
    (hadd : s.addReceived = true) (hopen : s.isOpen = true)
    (hparse : ∀ text ∈ s.lines, (parseTrafficFileLine text).isSome = true) :
    ∃ turn, s.trafficTurn cfg (s.delayStartTime + s.delayDuration) 0 = some turn ∧
      Advances s.reading turn.state.reading := by
  have hdelay : isDelayed (s.delayStartTime + s.delayDuration) s.delayStartTime s.delayDuration =
      false := by
    unfold isDelayed
    split_ifs <;> simp
  unfold trafficTurn nextLine
  rw [if_pos ⟨hack, hadd, hdelay⟩, if_pos hopen]
  cases hlines : s.lines with
  | nil =>
    refine ⟨_, rfl, ?_⟩
    rw [reading, reading, hopen, hlines]
    exact .eof
  | cons text lines =>
    obtain ⟨turn, hturn⟩ := handleLine_isSome cfg 0
      ({ s with lines := lines, delayStartTime := 0, delayDuration := 0 } : SwitchState)
      (hparse text (by simp [hlines]))
    refine ⟨turn, hturn, ?_⟩
    rw [handleLine_reading hturn, reading, reading, hopen, hlines]
    exact .line text lines

end SwitchState

/-- What a step does to what switch `k` reads. -/
theorem reading_of_step {a : Action n} (hw : WellFormed N net) (h : N.step net a = some net')
    (k : Fin n) : (net'.sw k).reading = (net.sw k).reading ∨
      Advances (net.sw k).reading (net'.sw k).reading := by
  cases transition_of_step hw h with
  | start | accept | opened | queried => exact .inl rfl
  | quiet j now ms | hit j now ms | miss j now ms =>
    simp only [Network.step] at h
    split_ifs at h
    obtain ⟨turn, hturn, heq⟩ := Option.map_eq_some_iff.mp h
    rw [← heq]
    show ((afterTurn net j turn).sw k).reading = _ ∨
      Advances _ ((afterTurn net j turn).sw k).reading
    rw [afterTurn_sw]
    split_ifs with hj
    · subst hj
      exact (trafficTurn_reading hturn).imp (fun hidle => hidle.2.2.2) And.right
    · exact .inl rfl
  | acked j | dropped j | forwarded j =>
    left
    rw [receiveDown_sw_apply]
    split_ifs with hj
    · subst hj
      first
        | rfl
        | exact handleForward_reading _ _ _ _ _ _ _
    · rfl
  | relayed j port name c srcIp destIp rest hk hname hsrc hdest hfifo =>
    left
    rw [receiveFifo_sw]
    split_ifs with hj
    · subst hj
      unfold handleRelay
      dsimp only
      split_ifs <;> rfl
    · rfl

/-- What switch `k` has left is what its file ends with. -/
structure ReadingOk (N : Network n) (net : NetState n) (k : Fin n) : Prop where
  lines : ∀ text ∈ (net.sw k).lines, text ∈ N.file k
  eof : (net.sw k).isOpen = false → (net.sw k).lines = []

theorem readingOk_of_reachable (h : N.system.Reachable net) (k : Fin n) : ReadingOk N net k := by
  refine System.Reachable.invariant (I := fun net => ReadingOk N net k) ?_ ?_ h
  · rintro _ rfl
    exact ⟨fun _ hmem => hmem, fun hopen => absurd hopen nofun⟩
  · intro net a net' hreach hok hstep
    have hlines : ∀ {b : Bool} {lines : List Text}, (net.sw k).reading = (b, lines) →
        (net.sw k).isOpen = b ∧ (net.sw k).lines = lines := Prod.mk.inj
    rcases reading_of_step (wellFormed_of_reachable hreach) hstep k with heq | hadv
    · obtain ⟨hopen, hsame⟩ := Prod.mk.inj heq
      exact ⟨hsame ▸ hok.lines, fun hclosed => hsame.trans (hok.eof (hopen ▸ hclosed))⟩
    · generalize hr : (net.sw k).reading = r at hadv
      generalize hr' : (net'.sw k).reading = r' at hadv
      cases hadv with
      | line text lines =>
        obtain ⟨hopen, hsame⟩ := hlines hr
        obtain ⟨hopen', hsame'⟩ := Prod.mk.inj hr'
        refine ⟨fun text' hmem => hok.lines text' ?_, fun hclosed => ?_⟩
        · rw [hsame]
          exact List.mem_cons_of_mem _ (hsame' ▸ hmem)
        · exact absurd (hclosed.symm.trans hopen') Bool.false_ne_true
      | eof =>
        obtain ⟨-, hsame'⟩ := Prod.mk.inj hr'
        refine ⟨fun text' hmem => ?_, fun _ => hsame'⟩
        rw [hsame'] at hmem
        cases hmem

/-! ## The work that is left -/

namespace NetState

/-- What switch `k` has left: to start, to have its packets answered, to handle
    the answers, and to read. -/
def left (net : NetState n) (k : Fin n) : ℕ :=
  (if net.started k = true then 0 else 4) + 2 * (net.up k).length + (net.down k).length +
    toRead (net.sw k).reading

/-- What is left, with the connections to be accepted. -/
def work (net : NetState n) : ℕ := net.backlog.length + ∑ k, net.left k

end NetState

/-- A step that leaves the other switches as they are. -/
theorem work_lt (k : Fin n) (hothers : ∀ j, j ≠ k → net'.left j = net.left j)
    (hlt : net'.backlog.length + net'.left k < net.backlog.length + net.left k) :
    net'.work < net.work := by
  have hsum : ∑ j ∈ Finset.univ.erase k, net'.left j = ∑ j ∈ Finset.univ.erase k, net.left j :=
    Finset.sum_congr rfl fun j hj => hothers j (Finset.ne_of_mem_erase hj)
  unfold NetState.work
  rw [← Finset.add_sum_erase Finset.univ net'.left (Finset.mem_univ k),
    ← Finset.add_sum_erase Finset.univ net.left (Finset.mem_univ k), hsum]
  omega

/-- A switch with the same socket, started or not, that reads nothing. -/
theorem left_congr {j : Fin n} (hs : SameSocket net net' j)
    (hread : (net'.sw j).reading = (net.sw j).reading) : net'.left j = net.left j := by
  obtain ⟨hstarted, hup, hdown⟩ := hs
  unfold NetState.left
  rw [hstarted, hup, hdown, hread]

/-! ## Some step makes it smaller -/

theorem work_start (hw : WellFormed N net) (hk : net.started k = false) :
    (net.start N k).work < net.work := by
  obtain ⟨-, hup, -⟩ := (hw.phase k).fresh_of_started hk
  refine work_lt k (fun j hj => ?_) ?_
  · exact left_congr ⟨by simp [start_started, hj], by simp [start_up, hj], rfl⟩ rfl
  · have hlen : (net.start N k).backlog.length = net.backlog.length + 1 := List.length_append
    have hleft : (net.start N k).left k = 0 + 2 * 1 + (net.down k).length +
        toRead (net.sw k).reading := by
      simp [NetState.left, start_started, start_up, hup]
      rfl
    have hbefore : net.left k = 4 + 2 * 0 + (net.down k).length + toRead (net.sw k).reading := by
      simp [NetState.left, hk, hup]
    omega

theorem work_accept {rest : List (Fin n)} (hback : net.backlog = k :: rest) :
    ({ net with ctrl := net.ctrl.accept (.switch k), backlog := rest } : NetState n).work <
      net.work := by
  unfold NetState.work
  rw [hback, List.length_cons]
  exact Nat.add_lt_add_right (Nat.lt_succ_self _) _

theorem work_serve {i : ℤ} {m : Msg} {packet : Packet}
    {r : ControllerState (Conn n) × List (Conn n × Packet)} (hup : net.up k = [m])
    (hreply : r.2 = [(.switch k, packet)]) : (net.serve i k m [] r).work < net.work := by
  refine work_lt k (fun j hj => ?_) ?_
  · exact left_congr ⟨rfl, by rw [serve_up, if_neg hj], by rw [serve_down hreply, if_neg hj]⟩ rfl
  · have hleft : (net.serve i k m [] r).left k = (if net.started k = true then 0 else 4) + 2 * 0 +
        ((net.down k).length + 1) + toRead (net.sw k).reading := by
      simp [NetState.left, serve_up, serve_down hreply]
      rfl
    have hbefore : net.left k = (if net.started k = true then 0 else 4) + 2 * 1 +
        (net.down k).length + toRead (net.sw k).reading := by
      simp [NetState.left, hup]
    have hback : (net.serve i k m [] r).backlog = net.backlog := rfl
    rw [hback]
    omega

theorem work_receiveDown {m : Msg} {r : SwitchState × List Write} (hdown : net.down k = [m])
    (hwrites : RelayWrites r.2) (hread : r.1.reading = (net.sw k).reading) :
    (net.receiveDown k m [] r).work < net.work := by
  have hup : (net.receiveDown k m [] r).up = net.up := hwrites.sendAll_up
  refine work_lt k (fun j hj => ?_) ?_
  · refine left_congr ⟨rfl, by rw [hup], ?_⟩ (by rw [receiveDown_sw_apply, if_neg hj])
    exact Function.update_of_ne hj _ _
  · have hdown' : (net.receiveDown k m [] r).down k = [] := Function.update_self k _ _
    have hsw : (net.receiveDown k m [] r).sw k = r.1 := by rw [receiveDown_sw_apply, if_pos rfl]
    have hleft : (net.receiveDown k m [] r).left k = net.left k - 1 ∧ 1 ≤ net.left k := by
      unfold NetState.left
      rw [hup, hdown', hsw, hread, hdown, List.length_singleton, List.length_nil]
      have hstarted : (net.receiveDown k m [] r).started = net.started := rfl
      rw [hstarted]
      omega
    have hback : (net.receiveDown k m [] r).backlog = net.backlog := rfl
    rw [hback]
    omega

/-- A turn of part 1 that reads, with at most one packet for the controller. -/
theorem work_afterTurn {turn : Turn} (hup : net.up k = [])
    (hup' : ((afterTurn net k turn).up k).length ≤ 1)
    (hadv : Advances (net.sw k).reading turn.state.reading) :
    (afterTurn net k turn).work < net.work := by
  have hread := hadv.toRead
  have hother : (afterTurn net k turn).started = net.started ∧
      (afterTurn net k turn).backlog = net.backlog ∧
      (afterTurn net k turn).down = net.down := by
    unfold afterTurn
    split <;> exact ⟨rfl, rfl, rfl⟩
  obtain ⟨hstarted, hback, hdown⟩ := hother
  refine work_lt k (fun j hj => ?_) ?_
  · obtain ⟨hupj, hdownj⟩ : (afterTurn net k turn).up j = net.up j ∧
        (afterTurn net k turn).down j = net.down j := afterTurn_socket_of_ne turn hj
    exact left_congr ⟨by rw [hstarted], hupj, hdownj⟩ (by rw [afterTurn_sw, if_neg hj])
  · have hsw : (afterTurn net k turn).sw k = turn.state := by rw [afterTurn_sw, if_pos rfl]
    unfold NetState.left
    rw [hstarted, hback, hdown, hsw, hup, List.length_nil]
    omega

/-- A switch has at most one packet for the controller on its socket. -/
theorem Phase.length_up_le (h : Phase N net k) : (net.up k).length ≤ 1 := by
  cases h with
  | fresh started sw up down => simp [up]
  | opening started flags up down => simp [up]
  | acking started flags up down => simp [up]
  | idle started flags up down => simp [up]
  | querying started flags c srcIp destIp hsrc hdest up down => simp [up]
  | adding started flags c srcIp destIp answer hsrc hdest hanswer up down => simp [up]

/-- A started switch with an empty socket waits for nothing. -/
theorem Phase.idle_of_empty (h : Phase N net k) (hk : net.started k = true) (hup : net.up k = [])
    (hdown : net.down k = []) : Flags (net.sw k) true true 0 := by
  cases h with
  | fresh started sw up down => exact absurd (started.symm.trans hk) Bool.false_ne_true
  | opening started flags up down => simp [up] at hup
  | acking started flags up down => simp [down] at hdown
  | idle started flags up down => exact flags
  | querying started flags c srcIp destIp hsrc hdest up down => simp [up] at hup
  | adding started flags c srcIp destIp answer hsrc hdest hanswer up down => simp [down] at hdown

/-- All switches have started, have all answers, and have read their files. -/
def Finished (net : NetState n) : Prop :=
  net.backlog = [] ∧ ∀ k, net.started k = true ∧ ¬ Waiting (net.sw k) ∧ net.up k = [] ∧
    net.down k = [] ∧ (net.sw k).isOpen = false ∧ (net.sw k).lines = []

/-! ## Every step but the idle ones -/

/-- A RELAY is received, or part 1 of the loop reads nothing. -/
def isIdle : NetState n × Action n → Bool
  | (_, .fromFifo _ _) => true
  | (net, .traffic k now _) => !(net.sw k).mayRead now
  | _ => false

/-- A switch that may read has nothing on its socket for the controller. -/
theorem Phase.up_of_mayRead {now : ℤ} (h : Phase N net k) (hmay : (net.sw k).mayRead now = true) :
    net.up k = [] := by
  simp only [mayRead, Bool.and_eq_true] at hmay
  obtain ⟨⟨⟨hack, hadd⟩, -⟩, -⟩ := hmay
  cases h with
  | fresh started sw up down | acking started flags up down | idle started flags up down => exact up
  | adding started flags c srcIp destIp answer hsrc hdest hanswer up down => exact up
  | opening started flags up down => exact absurd (flags.ack.symm.trans hack) Bool.false_ne_true
  | querying started flags c srcIp destIp hsrc hdest up down =>
    exact absurd (flags.add.symm.trans hadd) Bool.false_ne_true

theorem work_receiveFifo {port : ℤ} {name : Text} {m : Msg} {rest : List Msg}
    {r : SwitchState × List Write} (hwrites : RelayWrites r.2)
    (hread : r.1.reading = (net.sw k).reading) :
    (net.receiveFifo k port name m rest r).work = net.work := by
  have hup : (net.receiveFifo k port name m rest r).up = net.up := hwrites.sendAll_up
  refine congrArg (net.backlog.length + ·) (Finset.sum_congr rfl fun j _ => ?_)
  refine left_congr ⟨rfl, by rw [hup], rfl⟩ ?_
  rw [receiveFifo_sw]
  split_ifs with hj
  · subst hj
    exact hread
  · rfl

theorem work_traffic {now ms : ℤ} (hw : WellFormed N net)
    (h : N.step net (.traffic k now ms) = some net') :
    net'.work < net.work ∨ isIdle (net, Action.traffic k now ms) = true ∧ net'.work ≤ net.work := by
  have hphase := (hw.transition (transition_of_step hw h)).phase k
  simp only [Network.step] at h
  split_ifs at h
  obtain ⟨turn, hturn, heq⟩ := Option.map_eq_some_iff.mp h
  have hafter : afterTurn net k turn = net' := heq
  rcases trafficTurn_reading hturn with ⟨hmay, hheader, hwrites, hread⟩ | ⟨hmay, hadv⟩
  · refine .inr ⟨by simp [isIdle, hmay], le_of_eq ?_⟩
    rw [hheader, hwrites] at heq
    have hquiet : net.moveSwitch k none (turn.state, []) = net' := heq
    have hup : (net.moveSwitch k none (turn.state, [])).up = net.up := RelayWrites.nil.sendAll_up
    rw [← hquiet]
    refine congrArg (net.backlog.length + ·) (Finset.sum_congr rfl fun j _ => ?_)
    refine left_congr ⟨rfl, by rw [hup], rfl⟩ ?_
    rw [moveSwitch_sw]
    split_ifs with hj
    · subst hj
      exact hread
    · rfl
  · left
    rw [← hafter] at hphase ⊢
    exact work_afterTurn ((hw.phase k).up_of_mayRead hmay) hphase.length_up_le hadv

/-- Every step makes what is left smaller, but for the idle ones, which leave it
    as it is. -/
theorem work_lowers (N : Network n) : N.system.Lowers NetState.work isIdle 0 := by
  intro net a net' hreach hstep
  have hw := wellFormed_of_reachable hreach
  cases transition_of_step hw hstep with
  | start k hk => exact .inl (work_start hw hk)
  | accept k rest hback => exact .inl (work_accept hback)
  | quiet k now ms | hit k now ms | miss k now ms => exact work_traffic hw hstep
  | opened i k hfd hup => exact .inl (work_serve hup (hw.serves_open hfd (N.info k)).reply)
  | queried i k c srcIp destIp hfd hsrc hdest hup =>
    have hopened : Opened net k := ⟨hw.slots.started i k hfd, by simp [hup]⟩
    exact .inl (work_serve hup (hw.serves_query hfd hopened hsrc hdest).reply)
  | acked k hdown => exact .inl (work_receiveDown hdown .nil rfl)
  | dropped k c srcIp destIp hsrc hdest hdown => exact .inl (work_receiveDown hdown .nil rfl)
  | forwarded k t c srcIp destIp port hsrc hdest ht hport hdown =>
    have hok := (hw.switch k).addReceived
    have hne : port ≠ 0 := by omega
    refine .inl (work_receiveDown hdown ?_ (handleForward_reading _ _ _ _ _ _ _))
    rw [handleForward_writes _ _ _ _ _ _ _ hok.closed]
    simp only [RelayWrites, List.mem_singleton, forall_eq]
    exact ⟨hok.outFd_ne hne, srcIp, _, rfl, hsrc, (N.cfg t).low_isIp⟩
  | relayed k port name c srcIp destIp rest hk hname hsrc hdest hfifo =>
    refine .inr ⟨rfl, le_of_eq (work_receiveFifo ?_ (handleRelay_reading _ _ _ _ _))⟩
    exact (hw.switch k).handleRelay_writes port hsrc hdest

theorem work_initState (N : Network n) :
    N.initState.work = ∑ k, (3 * (N.file k).length + 7) := by
  refine (Nat.zero_add _).trans (Finset.sum_congr rfl fun k _ => ?_)
  show 4 + 2 * 0 + 0 + 3 * ((N.file k).length + 1) = _
  omega

/-- However often RELAYs are received and however often the switches turn around
    without reading, a run has at most `3 * lines + 7` other steps for each
    switch: the exchange with the controller cannot go on for ever. -/
theorem busy_le {tr : List (NetState n × Action n)} (h : N.system.Run N.initState tr net) :
    tr.countP (fun e => !isIdle e) ≤ ∑ k, (3 * (N.file k).length + 7) := by
  have hlen := System.Run.length_le (work_lowers N) (System.Reachable.of_init rfl) h
  have hcount := tr.length_eq_countP_add_countP isIdle
  have hsame : tr.countP (fun e => decide ¬ isIdle e = true) = tr.countP (fun e => !isIdle e) := by
    congr 1
    funext e
    cases isIdle e <;> rfl
  rw [System.allowed, work_initState] at hlen
  rw [hsame] at hcount
  omega

/-- Two lines for each of two switches: 26 steps, whatever the run. -/
theorem busy_le_askThenHit : ∃ net, twoPackets.system.exec twoPackets.initState
    (bothAcked ++ askThenHit) = some net ∧
    (twoPackets.system.trace twoPackets.initState (bothAcked ++ askThenHit)).countP
      (fun e => !isIdle e) ≤ ∑ k, (3 * (twoPackets.file k).length + 7) := by
  have hsome : (twoPackets.system.exec twoPackets.initState (bothAcked ++ askThenHit)).map
      (fun _ => true) = some true := by
    decide +kernel
  obtain ⟨net, hexec, -⟩ := Option.map_eq_some_iff.mp hsome
  exact ⟨net, hexec, busy_le (System.Run.of_exec hexec)⟩

/-! ## Whenever something is left -/

/-- A switch that waits for nothing reads. -/
theorem traffic_enabled (hw : WellFormed N net) (hread : ReadingOk N net k)
    (hfile : ∀ text ∈ N.file k, (parseTrafficFileLine text).isSome = true)
    (hk : net.started k = true) (hup : net.up k = []) (hdown : net.down k = [])
    (hopen : (net.sw k).isOpen = true) :
    ∃ a net', N.step net a = some net' ∧ isIdle (net, a) = false := by
  have hflags := (hw.phase k).idle_of_empty hk hup hdown
  obtain ⟨turn, hturn, hadv⟩ := trafficTurn_advances (N.cfg k) hflags.ack hflags.add hopen
    fun text hmem => hfile text (hread.lines text hmem)
  have hstep : N.step net (.traffic k ((net.sw k).delayStartTime + (net.sw k).delayDuration) 0) =
      some (afterTurn net k turn) := by
    simp only [Network.step]
    rw [if_pos hk, hturn]
    rfl
  refine ⟨_, _, hstep, ?_⟩
  rcases trafficTurn_reading hturn with ⟨-, -, -, hsame⟩ | ⟨hmay, -⟩
  · have hlt := hadv.toRead
    rw [hsame] at hlt
    omega
  · simp [isIdle, hmay]

theorem finished_or_exists_step (h : N.system.Reachable net)
    (hfile : ∀ k, ∀ text ∈ N.file k, (parseTrafficFileLine text).isSome = true) :
    Finished net ∨ ∃ a net', N.step net a = some net' ∧ isIdle (net, a) = false := by
  have hw := wellFormed_of_reachable h
  by_cases hstart : ∃ k, net.started k = false
  · obtain ⟨k, hk⟩ := hstart
    refine .inr ⟨.start k, net.start N k, ?_, rfl⟩
    simp [Network.step, hk]
  have hstarted : ∀ k, net.started k = true := by simpa using hstart
  cases hback : net.backlog with
  | cons k rest =>
    have hstep : N.step net .accept =
        some { net with ctrl := net.ctrl.accept (.switch k), backlog := rest } := by
      simp only [Network.step, hback]
    exact .inr ⟨.accept, _, hstep, rfl⟩
  | nil =>
    by_cases hups : ∀ k, net.up k = []
    case neg =>
      obtain ⟨k, hk⟩ := not_forall.mp hups
      obtain ⟨m, rest, hup⟩ := List.exists_cons_of_ne_nil hk
      rcases hw.slots.placed k (hstarted k) with hmem | ⟨i, hfd⟩
      · rw [hback] at hmem
        cases hmem
      · obtain ⟨net', hstep⟩ := hw.toController_enabled hfd hup
        exact .inr ⟨_, net', hstep, rfl⟩
    by_cases hdowns : ∀ k, net.down k = []
    case neg =>
      obtain ⟨k, hk⟩ := not_forall.mp hdowns
      obtain ⟨m, rest, hdown⟩ := List.exists_cons_of_ne_nil hk
      obtain ⟨net', hstep⟩ := hw.fromController_enabled hdown
      exact .inr ⟨_, net', hstep, rfl⟩
    by_cases hopens : ∀ k, (net.sw k).isOpen = false
    case neg =>
      obtain ⟨k, hk⟩ := not_forall.mp hopens
      exact .inr (traffic_enabled hw (readingOk_of_reachable h k) (hfile k) (hstarted k)
        (hups k) (hdowns k) (by simpa using hk))
    refine .inl ⟨hback, fun k => ⟨hstarted k, ?_, hups k, hdowns k, hopens k,
      (readingOk_of_reachable h k).eof (hopens k)⟩⟩
    have hflags := (hw.phase k).idle_of_empty (hstarted k) (hups k) (hdowns k)
    simp [Waiting, hflags.ack, hflags.add]

/-- When every line of the traffic files can be parsed, every reachable state of
    the network can be continued until all switches have opened, have read their
    files and have all the answers they asked for. -/
theorem leads_finished (h : N.system.Reachable net)
    (hfile : ∀ k, ∀ text ∈ N.file k, (parseTrafficFileLine text).isSome = true) :
    ∃ net', N.system.Leads net net' ∧ Finished net' := by
  have hcloser : ∀ net, N.system.Reachable net → Finished net ∨ ∃ net',
      N.system.Leads net net' ∧ N.system.Reachable net' ∧ net'.work < net.work := by
    intro net hreach
    rcases finished_or_exists_step hreach hfile with hdone | ⟨a, net', hstep, hbusy⟩
    · exact .inl hdone
    · refine .inr ⟨net', .of_step (M := N.system) hstep, hreach.step hstep, ?_⟩
      exact (work_lowers N net a net' hreach hstep).resolve_right fun hidle =>
        absurd (hbusy.symm.trans hidle.1) Bool.false_ne_true
  obtain ⟨net', hlead, -, hdone⟩ := System.exists_leads hcloser h
  exact ⟨net', hlead, hdone⟩

/-- The two switches of `ex2.dat`, from the start. -/
theorem leads_finished_ex2 : ∃ net', (ex2 ["sw1 100 200".toList]).system.Leads
    (ex2 ["sw1 100 200".toList]).initState net' ∧ Finished net' := by
  refine leads_finished (System.Reachable.of_init rfl) fun k text hmem => ?_
  have hfile : text ∈ ["sw1 100 200".toList] := hmem
  rw [List.mem_singleton.mp hfile]
  decide

end Cmput379.Sdn
