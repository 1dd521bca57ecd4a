import Cmput379.Sdn.SwitchSteps

/-!
# Reachable states are well formed

* `WellFormed.start`, `WellFormed.accept`, `WellFormed.opened`,
  `WellFormed.queried`: the transitions in which the controller takes part.
* `wellFormed_of_reachable`: with those of a switch, the invariant.
* `transition_of_reachable`: every step of a reachable state is a `Transition`.
-/

namespace Cmput379.Sdn

open Cmput379.Lib

variable {n : ℕ} {N : Network n} {net net' : NetState n}

/-! ## Starting and accepting -/

/-- Nothing has happened to a switch that has not started. -/
theorem Phase.fresh_of_started {k : Fin n} (h : Phase N net k) (hk : net.started k = false) :
    net.sw k = .init (N.cfg k) (N.file k) ∧ net.up k = [] ∧ net.down k = [] := by
  cases h with
  | fresh started sw up down => exact ⟨sw, up, down⟩
  | opening started | acking started | idle started | querying started | adding started =>
    simp [hk] at started

theorem start_up (k j : Fin n) : (net.start N k).up j =
    if j = k then net.up k ++ [⟨none, SwitchState.openPacket (N.cfg k)⟩] else net.up j := by
  simp [NetState.start, NetState.sendAll, Function.update_apply]

theorem start_started (k j : Fin n) :
    (net.start N k).started j = if j = k then true else net.started j := by
  simp [NetState.start, NetState.sendAll, Function.update_apply]

theorem Opened.start_iff {k j : Fin n} (hk : net.started k = false) :
    Opened (net.start N k) j ↔ Opened net j := by
  by_cases hj : j = k
  · subst hj
    simp [Opened, start_up, hk, SwitchState.openPacket]
  · exact Opened.congr (by simp [start_started, hj]) (by simp [start_up, hj])

theorem SlotsOk.start {k : Fin n} (h : SlotsOk N net) (hk : net.started k = false) :
    SlotsOk N (net.start N k) where
  inj := h.inj
  range := h.range
  started := by
    intro i j hfd
    rw [start_started]
    split_ifs with hj
    · rfl
    · exact h.started i j hfd
  backlog := by
    intro j hj
    rw [start_started, Opened.start_iff hk]
    rcases List.mem_append.mp hj with hj | hj
    · obtain ⟨hstarted, hrest⟩ := h.backlog j hj
      exact ⟨by simp [hstarted], hrest⟩
    · rw [List.mem_singleton] at hj
      subst hj
      refine ⟨by simp, fun ho => by simp [ho.1] at hk, ?_⟩
      intro i hfd
      have := h.started i j hfd
      simp [hk] at this
  nodup := by
    refine List.Nodup.append h.nodup (List.nodup_singleton k) ?_
    intro j hj hj'
    rw [List.mem_singleton] at hj'
    subst hj'
    have := (h.backlog j hj).1
    simp [hk] at this
  fd := h.fd
  opened := by
    intro i j hfd ho
    exact h.opened i j hfd ((Opened.start_iff hk).mp ho)
  idx := h.idx
  placed := by
    intro j hj
    rw [start_started] at hj
    split_ifs at hj with heq
    · exact .inl (List.mem_append.mpr (.inr (by simp [heq])))
    · rcases h.placed j hj with hmem | hfd
      · exact .inl (List.mem_append.mpr (.inl hmem))
      · exact .inr hfd
  filled := h.filled

theorem WellFormed.start {k : Fin n} (hw : WellFormed N net) (hk : net.started k = false) :
    WellFormed N (net.start N k) where
  closed := hw.closed
  numSwitches := hw.numSwitches
  table := hw.table
  registered := fun j hj => hw.registered j ((Opened.start_iff hk).mp hj)
  slots := hw.slots.start hk
  phase := by
    intro j
    by_cases hj : j = k
    · subst hj
      obtain ⟨hsw, hup, hdown⟩ := (hw.phase j).fresh_of_started hk
      refine .opening (by simp [start_started]) ?_ (by simp [start_up, hup]) hdown
      have hsw' : (net.start N j).sw j = .init (N.cfg j) (N.file j) := hsw
      rw [hsw']
      exact ⟨rfl, rfl, rfl⟩
    · exact (hw.phase j).congr ⟨by simp [start_started, hj], by simp [start_up, hj], rfl⟩ rfl
  switch := hw.switch
  fifo := FifoOk.sendAll hw.fifo (by simp)

theorem accept_pfds (c : ControllerState (Conn n)) (fd : Conn n) (i : ℤ) :
    (c.accept fd).pfds i = if i = c.socketIdx then some fd else c.pfds i := by
  simp [ControllerState.accept, Function.update_apply]

theorem SlotsOk.accept {k : Fin n} {rest : List (Fin n)} (h : SlotsOk N net)
    (hk : net.backlog = k :: rest) :
    SlotsOk N { net with ctrl := net.ctrl.accept (.switch k), backlog := rest } := by
  obtain ⟨hstarted, hopened, hfree⟩ := h.backlog k (by simp [hk])
  have hnodup := h.nodup
  rw [hk, List.nodup_cons] at hnodup
  have hidx : (net.ctrl.accept (.switch k)).socketIdx = net.ctrl.socketIdx + 1 := rfl
  refine ⟨?_, ?_, ?_, ?_, hnodup.2, ?_, ?_, ?_, ?_, ?_⟩
  · intro i j t hi hj
    simp only [accept_pfds] at hi hj
    split_ifs at hi hj with h1 h2 h2
    · exact h1.trans h2.symm
    · cases hi
      exact absurd hj (hfree j)
    · cases hj
      exact absurd hi (hfree i)
    · exact h.inj i j t hi hj
  · intro i t hi
    have hpos := h.idx
    simp only [accept_pfds] at hi
    simp only [hidx]
    split_ifs at hi with h1
    · omega
    · have := h.range i t hi
      omega
  · intro i t hi
    simp only [accept_pfds] at hi
    split_ifs at hi with h1
    · cases hi
      exact hstarted
    · exact h.started i t hi
  · intro t ht
    obtain ⟨hts, hto, htfree⟩ := h.backlog t (by simp [hk, ht])
    refine ⟨hts, hto, fun i hi => ?_⟩
    simp only [accept_pfds] at hi
    split_ifs at hi with h1
    · cases hi
      exact hnodup.1 ht
    · exact htfree i hi
  · intro i fd hi
    obtain ⟨hpfds, hlt⟩ := h.fd i fd hi
    simp only [accept_pfds, hidx]
    rw [if_neg (by omega)]
    exact ⟨hpfds, by omega⟩
  · intro i t hi ho
    simp only [accept_pfds] at hi
    split_ifs at hi with h1
    · cases hi
      exact absurd ho hopened
    · exact h.opened i t hi ho
  · have := h.idx
    simp only [hidx]
    omega
  · intro t ht
    rcases h.placed t ht with hmem | ⟨i, hi⟩
    · rw [hk, List.mem_cons] at hmem
      rcases hmem with rfl | hmem
      · exact .inr ⟨net.ctrl.socketIdx, by simp [accept_pfds]⟩
      · exact .inl hmem
    · refine .inr ⟨i, ?_⟩
      have := (h.range i t hi).2
      simp only [accept_pfds]
      rw [if_neg (by omega), hi]
  · intro i h1 h2
    simp only [hidx] at h2
    simp only [accept_pfds]
    by_cases hi : i = net.ctrl.socketIdx
    · exact ⟨k, by rw [if_pos hi]⟩
    · rw [if_neg hi]
      exact h.filled i h1 (by omega)

theorem WellFormed.accept {k : Fin n} {rest : List (Fin n)} (hw : WellFormed N net)
    (hk : net.backlog = k :: rest) :
    WellFormed N { net with ctrl := net.ctrl.accept (.switch k), backlog := rest } where
  closed := hw.closed
  numSwitches := hw.numSwitches
  table := hw.table
  registered := hw.registered
  slots := hw.slots.accept hk
  phase := fun j => (hw.phase j).congr ⟨rfl, rfl, rfl⟩ rfl
  switch := hw.switch
  fifo := hw.fifo

/-! ## The controller -/

section Serve

variable {i : ℤ} {k : Fin n} {m : Msg} {packet : Packet}
  {r : ControllerState (Conn n) × List (Conn n × Packet)}

theorem serve_up (j : Fin n) :
    (net.serve i k m [] r).up j = if j = k then [] else net.up j := by
  simp [NetState.serve, NetState.replyAll, Function.update_apply]

/-- A reply to switch `k` reaches its socket only. -/
theorem serve_down (hreply : r.2 = [(.switch k, packet)]) (j : Fin n) :
    (net.serve i k m [] r).down j =
      if j = k then net.down k ++ [⟨m.cause, packet⟩] else net.down j := by
  by_cases hj : j = k
  · subst hj
    simp [NetState.serve, NetState.replyAll, hreply]
  · have hne : (Conn.switch k : Conn n) ≠ .switch j := by simp [Ne.symm hj]
    simp [NetState.serve, NetState.replyAll, hreply, hj, hne]

theorem Opened.serve_iff {j : Fin n} (hj : j ≠ k) :
    Opened (net.serve i k m [] r) j ↔ Opened net j :=
  Opened.congr rfl (by simp [serve_up, hj])

/-- The controller answers the only packet of switch `k`, and stores its
    descriptor. -/
structure Serves (net : NetState n) (i : ℤ) (k : Fin n) (packet : Packet)
    (r : ControllerState (Conn n) × List (Conn n × Packet)) : Prop where
  pfds : r.1.pfds = net.ctrl.pfds
  socketIdx : r.1.socketIdx = net.ctrl.socketIdx
  closed : r.1.closed = []
  numSwitches : r.1.numSwitches = net.ctrl.numSwitches
  idToFd : r.1.idToFd = Function.update net.ctrl.idToFd i (some (.switch k))
  reply : r.2 = [(.switch k, packet)]

theorem SlotsOk.serve (h : SlotsOk N net) (hfd : net.ctrl.pfds i = some (.switch k))
    (hr : Serves net i k packet r) : SlotsOk N (net.serve i k m [] r) := by
  have hctrl : (net.serve i k m [] r).ctrl = r.1 := rfl
  refine ⟨?_, ?_, ?_, ?_, h.nodup, ?_, ?_, ?_, ?_, ?_⟩
  · rw [hctrl, hr.pfds]
    exact h.inj
  · rw [hctrl, hr.pfds, hr.socketIdx]
    exact h.range
  · rw [hctrl, hr.pfds]
    exact h.started
  · rw [hctrl, hr.pfds]
    intro j hj
    have hne : j ≠ k := by
      rintro rfl
      exact (h.backlog j hj).2.2 i hfd
    rw [Opened.serve_iff hne]
    exact h.backlog j hj
  · rw [hctrl, hr.pfds, hr.socketIdx, hr.idToFd]
    intro j fd hj
    by_cases hji : j = i
    · subst hji
      rw [Function.update_self, Option.some.injEq] at hj
      exact ⟨hj ▸ hfd, (h.range j k hfd).2⟩
    · rw [Function.update_of_ne hji] at hj
      exact h.fd j fd hj
  · rw [hctrl, hr.pfds, hr.idToFd]
    intro j t hj ho
    by_cases ht : t = k
    · subst ht
      rw [h.inj j i t hj hfd, Function.update_self]
    · have hji : j ≠ i := by
        rintro rfl
        rw [hfd] at hj
        cases hj
        exact ht rfl
      rw [Function.update_of_ne hji]
      exact h.opened j t hj ((Opened.serve_iff ht).mp ho)
  · rw [hctrl, hr.socketIdx]
    exact h.idx
  · rw [hctrl, hr.pfds]
    exact h.placed
  · rw [hctrl, hr.pfds, hr.socketIdx]
    exact h.filled

theorem WellFormed.serve (hw : WellFormed N net) (hfd : net.ctrl.pfds i = some (.switch k))
    (hr : Serves net i k packet r) (htable : ∀ info ∈ r.1.switchInfoTable, ∃ t, info = N.info t)
    (hmem : N.info k ∈ r.1.switchInfoTable)
    (hkeep : ∀ info ∈ net.ctrl.switchInfoTable, info ∈ r.1.switchInfoTable)
    (hphase : Phase N (net.serve i k m [] r) k) : WellFormed N (net.serve i k m [] r) where
  closed := hr.closed
  numSwitches := hr.numSwitches.trans hw.numSwitches
  table := htable
  registered := by
    intro j hj
    by_cases hjk : j = k
    · exact hjk ▸ hmem
    · exact hkeep _ (hw.registered j ((Opened.serve_iff hjk).mp hj))
  slots := hw.slots.serve hfd hr
  phase := by
    intro j
    by_cases hj : j = k
    · exact hj ▸ hphase
    · exact (hw.phase j).congr
        ⟨rfl, by simp [serve_up, hj], by simp [serve_down hr.reply, hj]⟩ rfl
  switch := hw.switch
  fifo := hw.fifo

end Serve

/-- The handling of an OPEN. -/
theorem WellFormed.serves_open {i : ℤ} {k : Fin n} (hw : WellFormed N net)
    (hfd : net.ctrl.pfds i = some (.switch k)) (info : SwitchInfo) :
    Serves net i k .ACK (net.ctrl.handleOpen i info) := by
  refine ⟨rfl, rfl, hw.closed, rfl, ?_, ?_⟩
  · simp only [ControllerState.handleOpen, hfd, Option.getD_some]
    split_ifs with hsome
    · obtain ⟨fd, hid⟩ := Option.isSome_iff_exists.mp hsome
      have hpfds := (hw.slots.fd i fd hid).1
      rw [← hfd, hpfds, ← hid, Function.update_eq_self]
    · rfl
  · simp [ControllerState.handleOpen, ControllerState.sendUnlessClosed, hw.closed, hfd]

/-- The handling of a QUERY of a switch whose OPEN has been handled. -/
theorem WellFormed.serves_query {i : ℤ} {k : Fin n} {srcIp destIp : ℤ} (hw : WellFormed N net)
    (hfd : net.ctrl.pfds i = some (.switch k)) (hopened : Opened net k) (hsrc : IsIp srcIp)
    (hdest : IsIp destIp) :
    Serves net i k (ControllerState.answer net.ctrl.switchInfoTable i srcIp destIp)
      (net.ctrl.handleQuery i srcIp destIp) := by
  have hid := hw.slots.opened i k hfd hopened
  have hfdAt : net.ctrl.fdAt i = .switch k := by simp [ControllerState.fdAt, hid]
  have hnot : i ∉ net.ctrl.closed := by simp [hw.closed]
  have hreply := net.ctrl.handleQuery_of_isIp i hsrc hdest hnot
  rw [hfdAt] at hreply
  obtain ⟨hs0, hs1⟩ := hsrc
  obtain ⟨hd0, hd1⟩ := hdest
  have hfst : (net.ctrl.handleQuery i srcIp destIp).1 =
      { net.ctrl.indexFd i with counts :=
        { net.ctrl.counts with
          query := net.ctrl.counts.query + 1, add := net.ctrl.counts.add + 1 } } := by
    unfold ControllerState.handleQuery
    rw [if_neg (by omega), if_neg (by omega)]
    simp only [if_neg hnot]
    rfl
  refine ⟨?_, ?_, ?_, ?_, ?_, hreply⟩ <;> rw [hfst]
  · rfl
  · rfl
  · exact hw.closed
  · rfl
  · simp only [ControllerState.indexFd, hfdAt]

theorem isAnswer_answer {table : List SwitchInfo} (htable : ∀ info ∈ table, ∃ t, info = N.info t)
    (i srcIp destIp : ℤ) :
    IsAnswer N srcIp destIp (ControllerState.answer table i srcIp destIp) := by
  unfold ControllerState.answer
  cases hfind : table.find? fun info => info.contains destIp with
  | none => exact .drop
  | some info =>
    obtain ⟨t, rfl⟩ := htable info (List.mem_of_find?_eq_some hfind)
    have howns : (N.info t).contains destIp := by simpa using List.find?_some hfind
    refine .forward t _ howns ?_
    unfold ControllerState.relayPort
    split_ifs
    · exact .inr rfl
    · exact .inl rfl

theorem handleQuery_switchInfoTable (c : ControllerState (Conn n)) (i srcIp destIp : ℤ) :
    (c.handleQuery i srcIp destIp).1.switchInfoTable = c.switchInfoTable := by
  unfold ControllerState.handleQuery
  dsimp only
  split_ifs <;> rfl

/-- Only a switch that waits for an ACK has an OPEN on its socket. -/
theorem Phase.opening_of_up {k : Fin n} (h : Phase N net k)
    (hup : net.up k = [⟨none, SwitchState.openPacket (N.cfg k)⟩]) :
    net.started k = true ∧ Flags (net.sw k) false true 0 ∧ net.down k = [] := by
  cases h with
  | opening started flags up down => exact ⟨started, flags, down⟩
  | querying started flags c srcIp destIp hsrc hdest up down => simp [up] at hup
  | acking started flags up down => simp [up] at hup
  | fresh started sw up down => simp [up] at hup
  | idle started flags up down => simp [up] at hup
  | adding started flags c srcIp destIp answer hsrc hdest hanswer up down => simp [up] at hup

theorem Phase.querying_of_up {k : Fin n} (h : Phase N net k) {c : ℕ} {srcIp destIp : ℤ}
    (hup : net.up k = [⟨some c, .QUERY srcIp destIp⟩]) :
    net.started k = true ∧ Flags (net.sw k) true false 1 ∧ net.down k = [] := by
  cases h with
  | querying started flags c srcIp destIp hsrc hdest up down => exact ⟨started, flags, down⟩
  | opening started flags up down => simp [up] at hup
  | acking started flags up down => simp [up] at hup
  | fresh started sw up down => simp [up] at hup
  | idle started flags up down => simp [up] at hup
  | adding started flags c srcIp destIp answer hsrc hdest hanswer up down => simp [up] at hup

theorem WellFormed.opened {i : ℤ} {k : Fin n} (hw : WellFormed N net)
    (hfd : net.ctrl.pfds i = some (.switch k))
    (hup : net.up k = [⟨none, SwitchState.openPacket (N.cfg k)⟩]) :
    WellFormed N (net.serve i k ⟨none, SwitchState.openPacket (N.cfg k)⟩ []
      (net.ctrl.handleOpen i (N.info k))) := by
  have hserves := hw.serves_open hfd (N.info k)
  obtain ⟨hstarted, hflags, hdown⟩ := (hw.phase k).opening_of_up hup
  refine hw.serve hfd hserves ?_ ?_ ?_ ?_
  · intro info hinfo
    simp only [ControllerState.handleOpen, List.mem_append, List.mem_singleton] at hinfo
    rcases hinfo with hinfo | rfl
    · exact hw.table info hinfo
    · exact ⟨k, rfl⟩
  · simp [ControllerState.handleOpen]
  · exact fun info hinfo => List.mem_append_left _ hinfo
  · exact .acking hstarted hflags (by simp [serve_up])
      (by simp [serve_down hserves.reply, hdown])

theorem WellFormed.queried {i : ℤ} {k : Fin n} {c : ℕ} {srcIp destIp : ℤ} (hw : WellFormed N net)
    (hfd : net.ctrl.pfds i = some (.switch k)) (hsrc : IsIp srcIp) (hdest : IsIp destIp)
    (hup : net.up k = [⟨some c, .QUERY srcIp destIp⟩]) :
    WellFormed N (net.serve i k ⟨some c, .QUERY srcIp destIp⟩ []
      (net.ctrl.handleQuery i srcIp destIp)) := by
  obtain ⟨hstarted, hflags, hdown⟩ := (hw.phase k).querying_of_up hup
  have hopened : Opened net k := ⟨hstarted, by simp [hup]⟩
  have hserves := hw.serves_query hfd hopened hsrc hdest
  refine hw.serve hfd hserves ?_ ?_ ?_ ?_
  · rw [handleQuery_switchInfoTable]
    exact hw.table
  · rw [handleQuery_switchInfoTable]
    exact hw.registered k hopened
  · rw [handleQuery_switchInfoTable]
    exact fun info hinfo => hinfo
  · exact .adding hstarted hflags c srcIp destIp _ hsrc hdest
      (isAnswer_answer hw.table i srcIp destIp) (by simp [serve_up])
      (by simp [serve_down hserves.reply, hdown])

/-! ## Every reachable state -/

theorem WellFormed.transition {a : Action n} (hw : WellFormed N net)
    (h : Transition N net a net') : WellFormed N net' := by
  cases h with
  | start k hk => exact hw.start hk
  | accept k rest hk => exact hw.accept hk
  | quiet k now ms s hs hheader hk => exact hw.quiet hk hs
  | hit k now ms srcIp destIp s rule flowTable hs hheader hack hadd hsrc hdest hmatch =>
    exact hw.hit ((hw.phase k).started_of_ack hack) hs hsrc hdest hmatch
  | miss k now ms srcIp destIp s hs hheader hack hadd hsrc hdest hmatch =>
    exact hw.miss hs hack hadd hsrc hdest
  | opened i k hfd hup => exact hw.opened hfd hup
  | queried i k c srcIp destIp hfd hsrc hdest hup => exact hw.queried hfd hsrc hdest hup
  | acked k hdown => exact hw.acked hdown
  | dropped k c srcIp destIp hsrc hdest hdown => exact hw.dropped hdown
  | forwarded k t c srcIp destIp port hsrc hdest ht hport hdown =>
    exact hw.forwarded hsrc hport hdown
  | relayed k port name c srcIp destIp rest hk hname hsrc hdest hfifo =>
    exact hw.relayed hk hsrc hdest hfifo

theorem wellFormed_initState : WellFormed N N.initState where
  closed := rfl
  numSwitches := rfl
  table := by simp [Network.initState, ControllerState.init]
  registered := by simp [Opened, Network.initState]
  slots := by
    have hpfds : ∀ i k, N.initState.ctrl.pfds i ≠ some (.switch k) := by
      intro i k
      simp only [Network.initState, ControllerState.init, Function.update_apply]
      split_ifs <;> simp
    refine ⟨?_, ?_, ?_, ?_, List.nodup_nil, ?_, ?_, ?_, ?_, ?_⟩
    · exact fun i _ k hi => absurd hi (hpfds i k)
    · exact fun i k hi => absurd hi (hpfds i k)
    · exact fun i k hi => absurd hi (hpfds i k)
    · simp [Network.initState]
    · simp [Network.initState, ControllerState.init]
    · exact fun i k hi => absurd hi (hpfds i k)
    · exact le_refl _
    · simp [Network.initState]
    · intro i h1 h2
      simp only [Network.initState, ControllerState.init] at h2
      omega
  phase := fun _ => .fresh rfl rfl rfl rfl
  switch := fun k => .init (N.cfg k) (N.file k)
  fifo := by simp [Network.initState]

/-- Every reachable state is well formed. -/
theorem wellFormed_of_reachable (h : N.system.Reachable net) : WellFormed N net := by
  refine System.Reachable.invariant ?_ ?_ h
  · rintro _ rfl
    exact wellFormed_initState
  · intro s a t _ hw hstep
    exact hw.transition (transition_of_step hw hstep)

/-- Every step of a reachable state is one of the transitions. -/
theorem transition_of_reachable {a : Action n} (h : N.system.Reachable net)
    (hstep : N.step net a = some net') : Transition N net a net' :=
  transition_of_step (wellFormed_of_reachable h) hstep

end Cmput379.Sdn
