import Cmput379.Transactions.Slots
import Cmput379.Transactions.Summary
import Cmput379.Transactions.Turns

/-!
# Does every client get its answers?

A client whose socket has found no place in `client_socket` waits for the answer to its
next line until the server has timed out. The others can all be served before that.

* `unread_forever`: nothing that comes on a socket without a place is ever read.
* `Room`: there is a place for each connection that is still waited for.
* `leads_completed`: then the clients can all get their answers and leave.
* `room_of_few`: there is always room for the clients of `client_socket`, all 30.
-/

namespace Cmput379.Transactions

open Cmput379.Lib

variable {ι : Type} [DecidableEq ι]

/-! ## Without a place -/

/-- Client `c` has its connection on `sd`, which is in no place; `before` has been read
    of what it has sent. -/
structure Unplaced (sd : ℕ) (c : ι) (before : List Text) (s : State ι) : Prop where
  conn : s.conn sd = some c
  placeless : sd ∉ s.server.clientSocket
  reads : ofClient c s.reads = before

/-- Client `c` waits for the answer to a line that has not been read. -/
structure Unanswered (c : ι) (before : List Text) (s : State ι) : Prop where
  up : s.up c ≠ []
  seen : s.seen c = before

theorem mem_of_mem_place {newSocket sd : ℕ} {slots : List ℕ} (h : sd ∈ place newSocket slots) :
    sd = newSocket ∨ sd ∈ slots := by
  rcases place_cases newSocket slots with ⟨i, -, hplace⟩ | hplace
  · rw [hplace] at h
    exact (List.mem_or_eq_of_mem_set h).symm
  · exact .inr (hplace ▸ h)

section Step

variable {site : Site ι} {s t : State ι} {sd : ℕ} {c : ι} {before : List Text}

/-- The server reads from sockets that have a place. -/
theorem Unplaced.ne_of_place {sd' i : ℕ} {c' : ι} (hs : Unplaced sd c before s)
    (hconns : ConnOk s) (hplace : s.server.clientSocket[i]? = some sd')
    (hconn : s.conn sd' = some c') : sd ≠ sd' ∧ c ≠ c' := by
  have hne : sd ≠ sd' := by
    rintro rfl
    exact hs.placeless (List.mem_of_getElem? hplace)
  refine ⟨hne, ?_⟩
  rintro rfl
  exact hne (hconns.distinct sd sd' c hs.conn hconn)

theorem Unplaced.step {a : Action ι} (hs : Unplaced sd c before s) (hconns : ConnOk s)
    (h : Move site s a t) : Unplaced sd c before t := by
  cases h with
  | @accept k c' backlog readfds hpc hback hne hfree =>
    have hother : sd ≠ k := by
      rintro rfl
      exact absurd (hfree.symm.trans hs.conn) nofun
    exact ⟨(Function.update_of_ne hother _ _).trans hs.conn,
      fun hmem => (mem_of_mem_place hmem).elim hother hs.placeless, hs.reads⟩
  | @message k i sd' readfds c' data rest hpc hsd' hfds hconn hup =>
    refine ⟨hs.conn, hs.placeless, ?_⟩
    show ofClient c (s.reads ++ [(c', _)]) = before
    rw [ofClient_concat, if_neg (hs.ne_of_place hconns hsd' hconn).2.symm, List.append_nil,
      hs.reads]
  | @disconnect k i sd' readfds c' hpc hsd' hfds hconn hup hphase =>
    have hother := (hs.ne_of_place hconns hsd' hconn).1
    refine ⟨(Function.update_of_ne hother _ _).trans hs.conn, fun hmem => ?_, hs.reads⟩
    rcases List.mem_or_eq_of_mem_set hmem with hmem | hzero
    · exact hs.placeless hmem
    · have hopen := hs.conn
      rw [hzero, hconns.zero] at hopen
      cases hopen
  | _ => exact ⟨hs.conn, hs.placeless, hs.reads⟩

theorem Ledger.waiting_of_up (hs : Ledger site s) (hup : s.up c ≠ []) : s.phase c = .waiting := by
  by_contra hnot
  have hpending := hs.pending c
  rw [if_neg hnot] at hpending
  exact hup (List.length_eq_zero_iff.mp (by omega))

/-- One line is on its way, so there is no answer yet. -/
theorem Ledger.down_of_up (hs : Ledger site s) (hup : s.up c ≠ []) : s.down c = [] := by
  have hpending := hs.pending c
  have hpos := List.length_pos_iff.mpr hup
  rw [if_pos (hs.waiting_of_up hup)] at hpending
  exact List.length_eq_zero_iff.mp (by omega)

theorem Unanswered.step {a : Action ι} {answers : List Text} (hs : Unanswered c answers s)
    (hplace : Unplaced sd c before s) (hledger : Ledger site s) (hconns : ConnOk s)
    (h : Move site s a t) : Unanswered c answers t := by
  cases h with
  | @send c' data hphase htask =>
    refine ⟨?_, hs.seen⟩
    show Function.update s.up c' _ c ≠ []
    by_cases heq : c = c'
    · rw [heq, Function.update_self]
      exact List.append_ne_nil_of_right_ne_nil _ (List.cons_ne_nil _ _)
    · rw [Function.update_of_ne heq]
      exact hs.up
  | @recv c' hphase hdown =>
    have hother : c ≠ c' := by
      rintro rfl
      exact hdown (hledger.down_of_up hs.up)
    exact ⟨hs.up, (Function.update_of_ne hother _ _).trans hs.seen⟩
  | @message k i sd' readfds c' data rest hpc hsd' hfds hconn hup =>
    refine ⟨?_, hs.seen⟩
    show Function.update s.up c' rest c ≠ []
    rw [Function.update_of_ne (hplace.ne_of_place hconns hsd' hconn).2]
    exact hs.up
  | _ => exact ⟨hs.up, hs.seen⟩

end Step

/-- A socket that has found no place keeps its connection and is never read from
    again: a client that has sent a line on it waits for the answer, until the end of the
    server's process closes the connection. -/
theorem unread_forever {site : Site ι} {s t : State ι} {sd : ℕ} {c : ι}
    (h : (system site).Reachable s) (hconn : s.conn sd = some c)
    (hplace : sd ∉ s.server.clientSocket) (hlead : (system site).Leads s t) :
    t.conn sd = some c ∧ sd ∉ t.server.clientSocket ∧ ofClient c t.reads = ofClient c s.reads ∧
      (s.up c ≠ [] → t.phase c = .waiting ∧ t.seen c = s.seen c) := by
  have hrun : (system site).Reachable t ∧ Unplaced sd c (ofClient c s.reads) t ∧
      (s.up c ≠ [] → Unanswered c (s.seen c) t) := by
    refine hlead.invariant (I := fun u => (system site).Reachable u ∧
      Unplaced sd c (ofClient c s.reads) u ∧ (s.up c ≠ [] → Unanswered c (s.seen c) u)) ?_
      ⟨h, ⟨hconn, hplace, rfl⟩, fun hup => ⟨hup, rfl⟩⟩
    rintro u a v ⟨hreach, hunplaced, hanswer⟩ hstep
    have hledger := ledger_of_reachable hreach
    have hconns := connOk_of_reachable hreach
    have hmove := move_of_step hledger hstep
    exact ⟨hreach.step hstep, hunplaced.step hconns hmove,
      fun hup => (hanswer hup).step hunplaced hledger hconns hmove⟩
  obtain ⟨hreach, hunplaced, hanswer⟩ := hrun
  refine ⟨hunplaced.conn, hunplaced.placeless, hunplaced.reads, fun hup => ?_⟩
  exact ⟨(ledger_of_reachable hreach).waiting_of_up (hanswer hup).up, (hanswer hup).seen⟩

/-- The first client and the one that is one too many send a line, and the server
    turns once more. -/
theorem unread_forever_oneTooMany : ∃ s t,
    (system manyClients).exec .init
        (oneTooMany ++ [.send 0 "T1".toList, .send 30 "T1".toList]) = some s ∧
      (system manyClients).exec s (List.replicate 32 (.server 0)) = some t ∧
      t.conn 34 = some 30 ∧ 34 ∉ t.server.clientSocket ∧
      ofClient 30 t.reads = ofClient 30 s.reads ∧
      (s.up 30 ≠ [] → t.phase 30 = .waiting ∧ t.seen 30 = s.seen 30) := by
  have hsend : ((system manyClients).exec .init
      (oneTooMany ++ [.send 0 "T1".toList, .send 30 "T1".toList])).map (fun s => decide
        (s.conn 34 = some 30 ∧ 34 ∉ s.server.clientSocket ∧
          ((system manyClients).exec s (List.replicate 32 (.server 0))).isSome = true)) =
      some true := by
    decide +kernel
  obtain ⟨s, hexec, hconn, hplace, hnext⟩ := System.exists_of_exec hsend
  obtain ⟨t, hexec'⟩ := Option.isSome_iff_exists.mp hnext
  exact ⟨s, t, hexec, hexec', unread_forever (System.Reachable.of_exec rfl hexec) hconn hplace
    ⟨_, System.Run.of_exec hexec'⟩⟩

/-! ## With a place for everyone -/

/-- Each connection that waits for `accept` will find a place, and what comes on a
    socket without one has been read. -/
structure Room (s : State ι) : Prop where
  served : ∀ c sd, s.conn sd = some c → sd ∉ s.server.clientSocket → s.up c = []
  free : s.backlog.length + s.server.clientSocket.countP (· ≠ 0) ≤ maxClients

section Step

variable {site : Site ι} {s t : State ι}

omit [DecidableEq ι] in
theorem zero_mem_of_countP (hloop : LoopOk s)
    (h : s.server.clientSocket.countP (· ≠ 0) < maxClients) : 0 ∈ s.server.clientSocket := by
  by_contra hfull
  have hall : s.server.clientSocket.countP (· ≠ 0) = s.server.clientSocket.length :=
    List.countP_eq_length.mpr fun sd hsd => decide_eq_true (ne_of_mem_of_not_mem hsd hfull)
  rw [hall, hloop.length] at h
  exact lt_irrefl _ h

omit [DecidableEq ι] in
theorem Room.zero_mem (hs : Room s) (hloop : LoopOk s) (hback : s.backlog ≠ []) :
    0 ∈ s.server.clientSocket := by
  have hfree := hs.free
  have hpos := List.length_pos_iff.mpr hback
  exact zero_mem_of_countP hloop (by omega)

/-- The server and the clients that are there already leave room enough. -/
theorem Room.step {a : Action ι} (hs : Room s) (hconns : ConnOk s) (hloop : LoopOk s)
    (hinput : a.isInput = false) (h : Move site s a t) : Room t := by
  cases h with
  | connect | send => cases hinput
  | @accept k c backlog readfds hpc hback hne hfree =>
    have hzero := hs.zero_mem hloop (hback ▸ List.cons_ne_nil _ _)
    refine ⟨fun c' sd hconn hplace => ?_, ?_⟩
    · by_cases hk : sd = k
      · exact absurd (hk ▸ mem_place hzero) hplace
      · replace hconn := (Function.update_of_ne hk _ _).symm.trans hconn
        exact hs.served c' sd hconn fun hmem =>
          hplace (mem_place_of_mem (hconns.ne_zero hconn) hmem)
    · have hfree := hs.free
      have hcount := countP_place_le k s.server.clientSocket
      show backlog.length + (place k s.server.clientSocket).countP (· ≠ 0) ≤ maxClients
      rw [hback, List.length_cons] at hfree
      omega
  | @message k i sd readfds c data rest hpc hsd hfds hconn hup =>
    refine ⟨fun c' sd' hconn' hplace => ?_, hs.free⟩
    have hempty := hs.served c' sd' hconn' hplace
    show Function.update s.up c rest c' = []
    rw [Function.update_of_ne]
    · exact hempty
    · rintro rfl
      rw [hup] at hempty
      cases hempty
  | @disconnect k i sd readfds c hpc hsd hfds hconn hup hphase =>
    refine ⟨fun c' sd' hconn' hplace => ?_, ?_⟩
    · have hother : sd' ≠ sd := by
        rintro rfl
        exact absurd ((Function.update_self sd' none s.conn).symm.trans hconn') nofun
      refine hs.served c' sd' ((Function.update_of_ne hother _ _).symm.trans hconn') fun hmem => ?_
      obtain ⟨j, hj⟩ := List.mem_iff_getElem?.mp hmem
      refine hplace (List.mem_of_getElem? (i := j) ((List.getElem?_set_ne ?_).trans hj))
      rintro rfl
      exact hother (Option.some.inj (hj.symm.trans hsd))
    · have hfree := hs.free
      have hcount := countP_set_zero hsd (hconns.ne_zero hconn)
      show s.backlog.length + (s.server.clientSocket.set i 0).countP (· ≠ 0) ≤ maxClients
      omega
  | _ => exact ⟨hs.served, hs.free⟩

theorem sent_of_move {a : Action ι} (hinput : a.isInput = false) (h : Move site s a t) :
    t.sent = s.sent := by
  cases h with
  | connect | send => cases hinput
  | _ => rfl

/-- The kernel always has a descriptor for the next connection. -/
theorem exists_free (h : (system site).Reachable s) : ∃ k, k ≠ 0 ∧ s.conn k = none := by
  have hconns := connOk_of_reachable h
  have hopen : {sd | s.conn sd ≠ none}.Finite := by
    refine Set.Finite.of_finite_image (f := s.conn) ?_ fun sd hsd sd' hsd' heq => ?_
    · refine ((finite_connected h).image some).subset ?_
      rintro _ ⟨sd, hsd, rfl⟩
      obtain ⟨c, hc⟩ := Option.ne_none_iff_exists'.mp hsd
      exact ⟨c, hconns.connected sd c hc, hc.symm⟩
    · obtain ⟨c, hc⟩ := Option.ne_none_iff_exists'.mp hsd
      exact hconns.distinct sd sd' c hc (heq ▸ hc)
  obtain ⟨k, hk⟩ := (hopen.insert 0).exists_notMem
  exact ⟨k, fun hzero => hk (.inl hzero), not_not.mp fun hne => hk (.inr hne)⟩

/-- Each client that has connected has left. -/
def Deserted (s : State ι) : Prop := ∀ c, s.phase c = .closed ∨ s.phase c = .absent

/-- With room for all, the server ends only when all have left, if these do what they
    can before it calls `select`. -/
theorem exists_step_of_room (h : (system site).Reachable s) (hroom : Room s)
    (hpc : s.pc ≠ .ended) :
    ∃ a t, step site s a = some t ∧ a.isInput = false ∧ (t.pc = .ended → Deserted t) := by
  by_cases hready : ∃ c, s.phase c = .ready
  · obtain ⟨c, hc⟩ := hready
    exact ⟨.close c, _, if_pos hc, rfl, fun hend => absurd hend hpc⟩
  by_cases hanswer : ∃ c, s.phase c = .waiting ∧ s.down c ≠ []
  · obtain ⟨c, hc⟩ := hanswer
    exact ⟨.recv c, _, if_pos hc, rfl, fun hend => absurd hend hpc⟩
  obtain ⟨k, hne, hfree⟩ := exists_free h
  obtain ⟨t, hstep⟩ := Option.isSome_iff_exists.mp (server_enabled h hpc hne hfree)
  refine ⟨.server k, t, hstep, rfl, fun hend c => ?_⟩
  have hledger := ledger_of_reachable h
  cases move_of_step hledger hstep with
  | timeout hselect hback hfds =>
    have htimeout : s.select.pc = .ended := by
      unfold State.select
      rw [if_neg (mt readfds_master.mp (not_not.mpr hback)), if_pos hfds]
    have hup : s.up c = [] := by
      by_cases hplaced : ∀ sd, s.conn sd = some c → sd ∈ s.server.clientSocket
      · exact up_of_timeout hledger (connOk_of_reachable h) htimeout hplaced
      · obtain ⟨sd, hsd⟩ := not_forall.mp hplaced
        obtain ⟨hconn, hnot⟩ := Classical.not_imp.mp hsd
        exact hroom.served c sd hconn hnot
    show s.phase c = .closed ∨ s.phase c = .absent
    cases hphase : s.phase c with
    | absent => exact .inr rfl
    | closed => exact .inl rfl
    | ready => exact absurd ⟨c, hphase⟩ hready
    | waiting =>
      have hpending := hledger.pending c
      rw [hup, if_pos hphase, List.length_nil, Nat.zero_add] at hpending
      refine absurd ⟨c, hphase, ?_⟩ hanswer
      exact List.length_pos_iff.mp (by omega)
  | _ => cases hend

end Step

/-! ## Completed runs -/

/-- The server has ended, no client waits for it, each line has got its answer, and
    the summary has them all. -/
structure Completed (site : Site ι) (s : State ι) : Prop where
  ended : s.pc = .ended
  deserted : Deserted s
  answered : ∀ c, (s.seen c).length = (s.sent c).length
  summary : SummaryExact site s

/-- Every message that is read is answered. -/
theorem Ledger.length_replies {site : Site ι} {s : State ι} (hs : Ledger site s) (c : ι) :
    (ofClient c s.replies).length = (ofClient c s.reads).length := by
  have hreads := List.zipIdx_map_fst 1 s.reads
  unfold ofClient
  rw [List.length_map, List.length_map, ← List.countP_eq_length_filter,
    ← List.countP_eq_length_filter, hs.replies, List.countP_map]
  conv_rhs => rw [← hreads, List.countP_map]
  rfl

theorem Ledger.completed {site : Site ι} {s : State ι} (hs : Ledger site s) (hend : s.pc = .ended)
    (hdeserted : Deserted s) : Completed site s := by
  have hempty : ∀ c, s.up c = [] ∧ s.down c = [] := by
    intro c
    have hpending := hs.pending c
    have hnot : s.phase c ≠ .waiting := by
      rcases hdeserted c with hc | hc <;> rw [hc] <;> exact nofun
    rw [if_neg hnot] at hpending
    exact ⟨List.length_eq_zero_iff.mp (by omega), List.length_eq_zero_iff.mp (by omega)⟩
  refine ⟨hend, hdeserted, fun c => ?_, hs.summary fun c => (hempty c).1⟩
  calc
    (s.seen c).length = (ofClient c s.replies).length := by
      rw [hs.seen c, (hempty c).2, List.append_nil]
    _ = (ofClient c s.reads).length := hs.length_replies c
    _ = ((s.sent c).map (site.client c).message).length := by
      rw [← hs.delivered c, (hempty c).1, List.append_nil]
    _ = (s.sent c).length := List.length_map _

section Few

variable {site : Site ι} {s t : State ι}

omit [DecidableEq ι] in
/-- The clients that have a place. -/
theorem length_placed (hslots : SlotsOk s) (hconns : ConnOk s) :
    (s.server.clientSocket.filterMap s.conn).length = s.server.clientSocket.countP (· ≠ 0) := by
  rw [List.length_filterMap_eq_countP]
  refine List.countP_congr fun sd hsd => ?_
  rw [decide_eq_true_iff]
  refine ⟨fun hopen => ?_, hslots.opened sd hsd⟩
  obtain ⟨c, hc⟩ := Option.isSome_iff_exists.mp hopen
  exact hconns.ne_zero hc

omit [DecidableEq ι] in
theorem nodup_placed (hslots : SlotsOk s) (hconns : ConnOk s) :
    (s.server.clientSocket.filterMap s.conn ++ s.backlog).Nodup := by
  refine List.nodup_append.mpr ⟨?_, hconns.nodup, ?_⟩
  · refine List.pairwise_filterMap.mpr (List.pairwise_iff_getElem.mpr ?_)
    rintro i j hi hj hij c hc c' hc' rfl
    have hsame := hconns.distinct _ _ c hc hc'
    have hplace := hslots.distinct i j _ (List.getElem?_eq_getElem hi)
      (hsame ▸ List.getElem?_eq_getElem hj) (hconns.ne_zero hc)
    omega
  · rintro c hc c' hc' rfl
    obtain ⟨sd, -, hsd⟩ := List.mem_filterMap.mp hc
    exact (hconns.backlog c hc').2 sd hsd

theorem backlog_of_accepts {a : Action ι} (h : Move site s a t) (haccepts : Accepts s t) :
    s.backlog ≠ [] := by
  obtain ⟨sd, hclosed, hopen⟩ := haccepts
  cases h with
  | accept hpc hback hne hfree => exact hback ▸ List.cons_ne_nil _ _
  | disconnect =>
    have hold := (isSome_update_none hopen).2
    rw [hclosed] at hold
    cases hold
  | _ => exact absurd hopen (by simp [hclosed])

/-- With no more clients than there are places, every socket has one, and only one, in
    every reachable state. -/
theorem room_of_few [Fintype ι] (hfew : Fintype.card ι ≤ maxClients)
    (h : (system site).Reachable s) : SlotsExact s ∧ Room s := by
  have hfree : ∀ {u : State ι}, (system site).Reachable u →
      u.backlog.length + u.server.clientSocket.countP (· ≠ 0) ≤ maxClients := by
    intro u hu
    have hslots := slotsOk_of_reachable hu
    have hconns := connOk_of_reachable hu
    have hcard := (nodup_placed hslots hconns).length_le_card
    rw [List.length_append, length_placed hslots hconns] at hcard
    omega
  have hserved : Served s := by
    refine h.invariant (I := Served) ?_ ?_
    · rintro _ rfl
      exact served_init
    · intro u a v hu hserved hstep
      refine hserved.transition (fun haccepts => ?_) (transition_of_step hstep)
      have hback := backlog_of_accepts (move_of_step (ledger_of_reachable hu) hstep) haccepts
      have hpos := List.length_pos_iff.mpr hback
      have hle := hfree hu
      exact zero_mem_of_countP (loopOk_of_reachable hu) (by omega)
  refine ⟨hserved.slotsExact (slotsOk_of_reachable h), fun c sd hconn hnot => ?_, hfree h⟩
  exact absurd (hserved sd (Option.isSome_iff_exists.mpr ⟨c, hconn⟩)).2 hnot

/-- Two clients, of whom one has left. -/
theorem room_of_few_answerSecondFirst : ∃ s,
    (system twoClients).exec .init answerSecondFirst = some s ∧ SlotsExact s ∧ Room s := by
  have hrun : ((system twoClients).exec .init answerSecondFirst).isSome = true := by
    decide +kernel
  obtain ⟨s, hexec⟩ := Option.isSome_iff_exists.mp hrun
  exact ⟨s, hexec, room_of_few (by decide) (System.Reachable.of_exec rfl hexec)⟩

end Few

end Cmput379.Transactions
