import Mathlib.Data.List.Nodup
import Cmput379.Lib.Progress
import Cmput379.Transactions.Accounts

/-!
# The rounds of the select loop

* `Move`, `move_of_step`: the steps of the server and of its clients one by one.
* `ConnOk`: each client has one connection, at most.
* `LoopOk`: what `select` has found ready stays ready until the loop gets there.
* `server_enabled`: so the server never waits, but in `select`.
* `read_within`: and no client that has a place waits for more than 64 steps of the
  server, however many others send.
-/

namespace Cmput379.Transactions

open Cmput379.Lib

variable {ι : Type} [DecidableEq ι]

/-! ## The steps, one by one -/

/-- What each step does; a message is always one that its client has sent. -/
inductive Move (site : Site ι) (s : State ι) : Action ι → State ι → Prop
  | connect {c : ι} (hphase : s.phase c = .absent) : Move site s (.connect c)
      { s with phase := Function.update s.phase c .ready, backlog := s.backlog ++ [c] }
  | send {c : ι} {data : Text} (hphase : s.phase c = .ready) (htask : IsTask data) :
      Move site s (.send c data)
        { s with
          phase := Function.update s.phase c .waiting
          up := Function.update s.up c (s.up c ++ [(site.client c).message data])
          sent := Function.update s.sent c (s.sent c ++ [data]) }
  | recv {c : ι} (hphase : s.phase c = .waiting) (hdown : s.down c ≠ []) : Move site s (.recv c)
      { s with
        phase := Function.update s.phase c .ready
        down := Function.update s.down c []
        seen := Function.update s.seen c (s.seen c ++ [(s.down c).flatten]) }
  | close {c : ι} (hphase : s.phase c = .ready) : Move site s (.close c)
      { s with phase := Function.update s.phase c .closed }
  | incoming {k : ℕ} (hpc : s.pc = .select) (hback : s.backlog ≠ []) : Move site s (.server k)
      { s with pc := .accept s.readfds }
  | timeout {k : ℕ} (hpc : s.pc = .select) (hback : s.backlog = []) (hfds : s.readfds.fds = []) :
      Move site s (.server k) { s with pc := .ended }
  | activity {k : ℕ} (hpc : s.pc = .select) (hback : s.backlog = []) (hfds : s.readfds.fds ≠ []) :
      Move site s (.server k) { s with pc := .slot 0 s.readfds }
  | accept {k : ℕ} {c : ι} {backlog : List ι} {readfds : Readfds} (hpc : s.pc = .accept readfds)
      (hback : s.backlog = c :: backlog) (hne : k ≠ 0) (hfree : s.conn k = none) :
      Move site s (.server k)
        { s with
          server := { s.server with clientSocket := place k s.server.clientSocket }
          conn := Function.update s.conn k (some c)
          backlog := backlog
          pc := .slot 0 readfds }
  | again {k i : ℕ} {readfds : Readfds} (hpc : s.pc = .slot i readfds)
      (hend : s.server.clientSocket[i]? = none) : Move site s (.server k) { s with pc := .select }
  | skip {k i sd : ℕ} {readfds : Readfds} (hpc : s.pc = .slot i readfds)
      (hsd : s.server.clientSocket[i]? = some sd) (hfds : sd ∉ readfds.fds) :
      Move site s (.server k) { s with pc := .slot (i + 1) readfds }
  | message {k i sd : ℕ} {readfds : Readfds} {c : ι} {data : Text} {rest : List Text}
      (hpc : s.pc = .slot i readfds) (hsd : s.server.clientSocket[i]? = some sd)
      (hfds : sd ∈ readfds.fds) (hconn : s.conn sd = some c)
      (hup : s.up c = (site.client c).message data :: rest) : Move site s (.server k)
        { s with
          pc := .slot (i + 1) readfds
          up := Function.update s.up c rest
          server := { s.server with
            transactionCount := s.server.transactionCount + 1
            clientCompletedTasks :=
              s.server.clientCompletedTasks.increment (site.client c).hostnamePID }
          reads := s.reads ++ [(c, (site.client c).message data)]
          down := Function.update s.down c
            (s.down c ++ [intText (s.server.transactionCount + 1)])
          replies := s.replies ++ [(c, intText (s.server.transactionCount + 1))] }
  | disconnect {k i sd : ℕ} {readfds : Readfds} {c : ι} (hpc : s.pc = .slot i readfds)
      (hsd : s.server.clientSocket[i]? = some sd) (hfds : sd ∈ readfds.fds)
      (hconn : s.conn sd = some c) (hup : s.up c = []) (hphase : s.phase c = .closed) :
      Move site s (.server k)
        { s with
          pc := .slot (i + 1) readfds
          server := { s.server with clientSocket := s.server.clientSocket.set i 0 }
          conn := Function.update s.conn sd none }

section Step

variable {site : Site ι} {s t : State ι}

omit [DecidableEq ι] in
theorem readfds_master : s.readfds.master = true ↔ s.backlog ≠ [] := decide_eq_true_iff

theorem move_of_select {k : ℕ} (hpc : s.pc = .select) :
    Move site s (.server k) s.select := by
  unfold State.select
  split_ifs with hmaster hfds
  · exact .incoming hpc (readfds_master.mp hmaster)
  · exact .timeout hpc (not_not.mp (mt readfds_master.mpr hmaster)) hfds
  · exact .activity hpc (not_not.mp (mt readfds_master.mpr hmaster)) hfds

theorem move_of_slot {k i : ℕ} {readfds : Readfds} (hs : Ledger site s)
    (hpc : s.pc = .slot i readfds) (h : s.slot i readfds = some t) :
    Move site s (.server k) t := by
  unfold State.slot at h
  split at h
  next hend =>
    cases h
    exact .again hpc hend
  next sd hsd =>
    dsimp only at h
    split_ifs at h with hfds
    · unfold State.serve at h
      split at h
      next => cases h
      next c hconn =>
        split at h
        next m rest hup =>
          obtain ⟨data, htask, rfl⟩ := hs.message_of_up hup
          cases h
          rw [transact_message c htask]
          exact .message hpc hsd hfds hconn hup
        next hup =>
          split_ifs at h with hphase
          cases h
          exact .disconnect hpc hsd hfds hconn hup hphase
    · cases h
      exact .skip hpc hsd hfds

theorem move_of_step {a : Action ι} (hs : Ledger site s) (h : step site s a = some t) :
    Move site s a t := by
  cases a with
  | connect c =>
    simp only [step, State.connect] at h
    split_ifs at h with hphase
    cases h
    exact .connect hphase
  | send c data =>
    simp only [step, State.send] at h
    split_ifs at h with hsend
    cases h
    exact .send hsend.1 hsend.2
  | recv c =>
    simp only [step, State.recv] at h
    split_ifs at h with hrecv
    cases h
    exact .recv hrecv.1 hrecv.2
  | close c =>
    simp only [step, State.close] at h
    split_ifs at h with hphase
    cases h
    exact .close hphase
  | server newSocket =>
    simp only [step] at h
    split at h
    next hpc =>
      cases h
      exact move_of_select hpc
    next readfds hpc =>
      unfold State.accept at h
      split at h
      next => cases h
      next c backlog hback =>
        split_ifs at h with hsocket
        cases h
        exact .accept hpc hback hsocket.1 hsocket.2
    next i readfds hpc => exact move_of_slot hs hpc h
    next => cases h

end Step

/-! ## Connections -/

/-- A client that has connected is waiting for `accept`, or has one socket, or has
    closed it with everything it sent read. -/
structure ConnOk (s : State ι) : Prop where
  zero : s.conn 0 = none
  distinct : ∀ sd sd' c, s.conn sd = some c → s.conn sd' = some c → sd = sd'
  nodup : s.backlog.Nodup
  backlog : ∀ c ∈ s.backlog, s.phase c ≠ .absent ∧ ∀ sd, s.conn sd ≠ some c
  connected : ∀ sd c, s.conn sd = some c → s.phase c ≠ .absent
  placed : ∀ c, s.phase c ≠ .absent →
    c ∈ s.backlog ∨ (∃ sd, s.conn sd = some c) ∨ s.phase c = .closed ∧ s.up c = []

section Step

variable {site : Site ι} {s t : State ι}

/-- A client that has connected moves on. -/
theorem ConnOk.move {c : ι} (hs : ConnOk s) (phase : Phase) (hc : s.phase c ≠ .absent)
    (hopen : s.phase c ≠ .closed) (hphase : phase ≠ .absent)
    (ht : t.phase = Function.update s.phase c phase) (hconn : t.conn = s.conn)
    (hback : t.backlog = s.backlog) (hup : ∀ c' ≠ c, t.up c' = s.up c') : ConnOk t := by
  have hkept : ∀ c', t.phase c' = .absent → s.phase c' = .absent := by
    intro c' hc'
    rw [ht] at hc'
    by_cases heq : c' = c
    · rw [heq, Function.update_self] at hc'
      exact absurd hc' hphase
    · rwa [Function.update_of_ne heq] at hc'
  refine ⟨hconn ▸ hs.zero, hconn ▸ hs.distinct, hback ▸ hs.nodup, ?_, ?_, ?_⟩
  · rw [hback, hconn]
    exact fun c' hmem => ⟨mt (hkept c') (hs.backlog c' hmem).1, (hs.backlog c' hmem).2⟩
  · rw [hconn]
    exact fun sd c' hsd => mt (hkept c') (hs.connected sd c' hsd)
  · intro c' hc'
    rw [hback, hconn]
    by_cases heq : c' = c
    · subst heq
      exact (hs.placed c' hc).imp_right fun h => .inl (h.resolve_right fun hclosed =>
        hopen hclosed.1)
    · rw [ht, Function.update_of_ne heq] at hc' ⊢
      rw [hup c' heq]
      exact hs.placed c' hc'

omit [DecidableEq ι] in
/-- The server moves on, or reads from a socket. -/
theorem ConnOk.congr (hs : ConnOk s) (hphase : t.phase = s.phase) (hconn : t.conn = s.conn)
    (hback : t.backlog = s.backlog) (hup : ∀ c, s.phase c = .closed → s.up c = [] → t.up c = []) :
    ConnOk t := by
  refine ⟨hconn ▸ hs.zero, hconn ▸ hs.distinct, hback ▸ hs.nodup, ?_, ?_, ?_⟩
  · rw [hback, hconn, hphase]
    exact hs.backlog
  · rw [hconn, hphase]
    exact hs.connected
  · rw [hback, hconn, hphase]
    exact fun c hc => (hs.placed c hc).imp_right (Or.imp_right fun h => ⟨h.1, hup c h.1 h.2⟩)

theorem ConnOk.step {a : Action ι} (hs : ConnOk s) (h : Move site s a t) : ConnOk t := by
  cases h with
  | @connect c hphase =>
    have hnew : c ∉ s.backlog ∧ ∀ sd, s.conn sd ≠ some c :=
      ⟨fun hmem => (hs.backlog c hmem).1 hphase, fun sd hsd => hs.connected sd c hsd hphase⟩
    have hkept : ∀ c', s.phase c' ≠ .absent →
        Function.update s.phase c Phase.ready c' = s.phase c' := by
      intro c' hc'
      refine Function.update_of_ne ?_ _ _
      rintro rfl
      exact hc' hphase
    refine ⟨hs.zero, hs.distinct, ?_, ?_, ?_, ?_⟩
    · show (s.backlog ++ [c]).Nodup
      rw [← List.concat_eq_append]
      exact hs.nodup.concat hnew.1
    · intro c' hmem
      rcases List.mem_append.mp hmem with hmem | hmem
      · obtain ⟨hne, hfree⟩ := hs.backlog c' hmem
        exact ⟨fun heq => hne ((hkept c' hne).symm.trans heq), hfree⟩
      · obtain rfl := List.mem_singleton.mp hmem
        refine ⟨?_, hnew.2⟩
        show Function.update s.phase c' Phase.ready c' ≠ .absent
        rw [Function.update_self]
        exact nofun
    · intro sd c' hsd
      show Function.update s.phase c Phase.ready c' ≠ .absent
      rw [hkept c' (hs.connected sd c' hsd)]
      exact hs.connected sd c' hsd
    · intro c' hc'
      show c' ∈ s.backlog ++ [c] ∨ _ ∨ Function.update s.phase c Phase.ready c' = .closed ∧ _
      by_cases heq : c' = c
      · exact .inl (List.mem_append_right _ (List.mem_singleton.mpr heq))
      · replace hc' : Function.update s.phase c Phase.ready c' ≠ .absent := hc'
        rw [Function.update_of_ne heq] at hc' ⊢
        exact (hs.placed c' hc').imp_left (List.mem_append_left _)
  | @send c data hphase htask =>
    refine hs.move (c := c) .waiting ?_ ?_ nofun rfl rfl rfl fun c' hc' =>
      Function.update_of_ne hc' _ _
    · rw [hphase]
      exact nofun
    · rw [hphase]
      exact nofun
  | @recv c hphase hdown =>
    refine hs.move (c := c) .ready ?_ ?_ nofun rfl rfl rfl fun _ _ => rfl
    · rw [hphase]
      exact nofun
    · rw [hphase]
      exact nofun
  | @close c hphase =>
    refine hs.move (c := c) .closed ?_ ?_ nofun rfl rfl rfl fun _ _ => rfl
    · rw [hphase]
      exact nofun
    · rw [hphase]
      exact nofun
  | incoming | timeout | activity | again | skip =>
    exact hs.congr rfl rfl rfl fun _ _ h => h
  | @message _ i sd readfds c data rest hpc hsd hfds hconn hup =>
    refine hs.congr rfl rfl rfl fun c' _ hempty => ?_
    show Function.update s.up c rest c' = []
    by_cases heq : c' = c
    · rw [heq, hup] at hempty
      cases hempty
    · rw [Function.update_of_ne heq, hempty]
  | @accept k c backlog readfds hpc hback hne hfree =>
    have hhead := hs.backlog c (hback ▸ List.mem_cons_self)
    have hcons := hs.nodup
    rw [hback] at hcons
    obtain ⟨hnot, hnodup⟩ := List.nodup_cons.mp hcons
    have hupdate : ∀ sd c', Function.update s.conn k (some c) sd = some c' →
        sd = k ∧ c' = c ∨ s.conn sd = some c' := by
      intro sd c' hsd
      by_cases heq : sd = k
      · rw [heq, Function.update_self] at hsd
        exact .inl ⟨heq, (Option.some.inj hsd).symm⟩
      · rw [Function.update_of_ne heq] at hsd
        exact .inr hsd
    refine ⟨?_, ?_, hnodup, ?_, ?_, ?_⟩
    · exact (Function.update_of_ne (Ne.symm hne) _ _).trans hs.zero
    · intro sd sd' c' hsd hsd'
      rcases hupdate sd c' hsd with ⟨h, hc⟩ | h <;> rcases hupdate sd' c' hsd' with ⟨h', hc'⟩ | h'
      · rw [h, h']
      · exact absurd (hc ▸ h') (hhead.2 sd')
      · exact absurd (hc' ▸ h) (hhead.2 sd)
      · exact hs.distinct sd sd' c' h h'
    · intro c' hmem
      have hc' := hs.backlog c' (hback ▸ List.mem_cons_of_mem _ hmem)
      refine ⟨hc'.1, fun sd hsd => ?_⟩
      rcases hupdate sd c' hsd with ⟨-, rfl⟩ | h
      · exact hnot hmem
      · exact hc'.2 sd h
    · intro sd c' hsd
      rcases hupdate sd c' hsd with ⟨-, rfl⟩ | h
      · exact hhead.1
      · exact hs.connected sd c' h
    · intro c' hc'
      rcases hs.placed c' hc' with hmem | ⟨sd, hsd⟩ | hclosed
      · rcases List.mem_cons.mp (hback ▸ hmem) with rfl | hmem
        · exact .inr (.inl ⟨k, Function.update_self k _ _⟩)
        · exact .inl hmem
      · refine .inr (.inl ⟨sd, ?_⟩)
        refine (Function.update_of_ne (fun heq => ?_) _ _).trans hsd
        rw [heq, hfree] at hsd
        cases hsd
      · exact .inr (.inr hclosed)
  | @disconnect _ i sd readfds c hpc hsd hfds hconn hup hphase =>
    have hupdate : ∀ sd' c', Function.update s.conn sd none sd' = some c' →
        s.conn sd' = some c' := by
      intro sd' c' hsd'
      by_cases heq : sd' = sd
      · rw [heq, Function.update_self] at hsd'
        cases hsd'
      · rwa [Function.update_of_ne heq] at hsd'
    refine ⟨?_, ?_, hs.nodup, ?_, ?_, ?_⟩
    · show Function.update s.conn sd none 0 = none
      rw [Function.update_apply]
      split_ifs
      · rfl
      · exact hs.zero
    · exact fun sd₁ sd₂ c' h₁ h₂ => hs.distinct sd₁ sd₂ c' (hupdate _ _ h₁) (hupdate _ _ h₂)
    · exact fun c' hmem => ⟨(hs.backlog c' hmem).1, fun sd' hsd' =>
        (hs.backlog c' hmem).2 sd' (hupdate _ _ hsd')⟩
    · exact fun sd' c' hsd' => hs.connected sd' c' (hupdate _ _ hsd')
    · intro c' hc'
      rcases hs.placed c' hc' with hmem | ⟨sd', hsd'⟩ | hclosed
      · exact .inl hmem
      · by_cases heq : sd' = sd
        · rw [heq, hconn] at hsd'
          obtain rfl := Option.some.inj hsd'
          exact .inr (.inr ⟨hphase, hup⟩)
        · exact .inr (.inl ⟨sd', (Function.update_of_ne heq _ _).trans hsd'⟩)
      · exact .inr (.inr hclosed)

end Step

theorem connOk_of_reachable {site : Site ι} {s : State ι} (h : (system site).Reachable s) :
    ConnOk s := by
  refine (h.invariant (I := fun s => Ledger site s ∧ ConnOk s) ?_ ?_).2
  · rintro _ rfl
    refine ⟨ledger_init site, rfl, nofun, List.nodup_nil, nofun, nofun, ?_⟩
    exact fun c hc => absurd rfl hc
  · intro s a t _ hs hstep
    exact ⟨hs.1.transition (transition_of_step hstep), hs.2.step (move_of_step hs.1 hstep)⟩

/-! ## The loop -/

/-- The array has its 30 places, the loop is in it, and what was ready when `select`
    returned is ready until it is read. -/
structure LoopOk (s : State ι) : Prop where
  length : s.server.clientSocket.length = maxClients
  accept : ∀ readfds, s.pc = .accept readfds → s.backlog ≠ [] ∧
    ∀ sd ∈ readfds.fds, s.readable sd = true
  slot : ∀ i readfds, s.pc = .slot i readfds → i ≤ maxClients ∧
    ∀ (j sd : ℕ), i ≤ j → s.server.clientSocket[j]? = some sd → sd ∈ readfds.fds →
      s.readable sd = true

section Step

variable {site : Site ι} {s t : State ι}

omit [DecidableEq ι] in
theorem readable_iff {sd : ℕ} : s.readable sd = true ↔
    ∃ c, s.conn sd = some c ∧ (s.up c ≠ [] ∨ s.phase c = .closed) := by
  unfold State.readable
  cases hconn : s.conn sd with
  | none => simp
  | some c => simp

omit [DecidableEq ι] in
/-- What `select` finds ready. -/
theorem mem_readfds {sd : ℕ} : sd ∈ s.readfds.fds ↔
    sd ∈ s.server.clientSocket ∧ 0 < sd ∧ s.readable sd = true := by
  simp [State.readfds]

omit [DecidableEq ι] in
/-- The clients take nothing back. -/
theorem LoopOk.client (hs : LoopOk s) (hserver : t.server = s.server) (hpc : t.pc = s.pc)
    (hback : s.backlog ≠ [] → t.backlog ≠ [])
    (hready : ∀ sd, s.readable sd = true → t.readable sd = true) : LoopOk t := by
  refine ⟨hserver ▸ hs.length, ?_, ?_⟩
  · intro readfds h
    obtain ⟨hne, hfds⟩ := hs.accept readfds (hpc ▸ h)
    exact ⟨hback hne, fun sd hsd => hready sd (hfds sd hsd)⟩
  · intro i readfds h
    obtain ⟨hi, hfds⟩ := hs.slot i readfds (hpc ▸ h)
    rw [hserver]
    exact ⟨hi, fun j sd hj hsd hmem => hready sd (hfds j sd hj hsd hmem)⟩

omit [DecidableEq ι] in
/-- The loop moves on to the next place. -/
theorem LoopOk.next {i : ℕ} {readfds : Readfds} (hs : LoopOk s) (hpc : s.pc = .slot i readfds)
    (hlt : i < maxClients) (ht : t.pc = .slot (i + 1) readfds)
    (hlength : t.server.clientSocket.length = s.server.clientSocket.length)
    (hkept : ∀ (j sd : ℕ), i < j → t.server.clientSocket[j]? = some sd →
      s.server.clientSocket[j]? = some sd)
    (hready : ∀ (j sd : ℕ), i < j → s.server.clientSocket[j]? = some sd →
      sd ∈ readfds.fds → s.readable sd = true → t.readable sd = true) : LoopOk t := by
  refine ⟨hlength.trans hs.length, ?_, ?_⟩
  · intro readfds' h
    rw [ht] at h
    cases h
  · intro i' readfds' h
    rw [ht] at h
    cases h
    refine ⟨hlt, fun j sd hj hsd hmem => ?_⟩
    have hbefore := hkept j sd hj hsd
    exact hready j sd hj hbefore hmem ((hs.slot i readfds hpc).2 j sd (by omega) hbefore hmem)

omit [DecidableEq ι] in
theorem length_place (newSocket : ℕ) (slots : List ℕ) :
    (place newSocket slots).length = slots.length := by
  rcases place_cases newSocket slots with ⟨i, -, hplace⟩ | hplace
  · rw [hplace, List.length_set]
  · rw [hplace]

omit [DecidableEq ι] in
theorem LoopOk.lt_of_getElem? {i sd : ℕ} (hs : LoopOk s)
    (hsd : s.server.clientSocket[i]? = some sd) : i < maxClients :=
  hs.length ▸ (List.getElem?_eq_some_iff.mp hsd).1

/-- A client that has not closed moves on, and what it sent is still there. -/
theorem readable_of_update {c : ι} {sd : ℕ} (phase : Phase) (hopen : s.phase c ≠ .closed)
    (hphase : t.phase = Function.update s.phase c phase) (hconn : t.conn = s.conn)
    (hup : ∀ c', s.up c' ≠ [] → t.up c' ≠ []) (h : s.readable sd = true) :
    t.readable sd = true := by
  obtain ⟨c', hsd, hready⟩ := readable_iff.mp h
  refine readable_iff.mpr ⟨c', hconn ▸ hsd, hready.imp (hup c') fun hclosed => ?_⟩
  rw [hphase, Function.update_of_ne]
  · exact hclosed
  · rintro rfl
    exact hopen hclosed

theorem LoopOk.step {a : Action ι} (hs : LoopOk s) (hslots : SlotsOk s) (hconns : ConnOk s)
    (h : Move site s a t) : LoopOk t := by
  have hnonzero : ∀ {sd : ℕ} {c : ι}, s.conn sd = some c → sd ≠ 0 := by
    rintro sd c hsd rfl
    rw [hconns.zero] at hsd
    cases hsd
  cases h with
  | @connect c hphase =>
    refine hs.client rfl rfl (fun _ => List.append_ne_nil_of_right_ne_nil _ nofun) fun sd =>
      readable_of_update (c := c) .ready ?_ rfl rfl fun _ h => h
    rw [hphase]
    exact nofun
  | @send c data hphase htask =>
    refine hs.client rfl rfl id fun sd =>
      readable_of_update (c := c) .waiting ?_ rfl rfl fun c' hne => ?_
    · rw [hphase]
      exact nofun
    · show Function.update s.up c _ c' ≠ []
      by_cases heq : c' = c
      · rw [heq, Function.update_self]
        exact List.append_ne_nil_of_right_ne_nil _ nofun
      · rwa [Function.update_of_ne heq]
  | @recv c hphase hdown =>
    refine hs.client rfl rfl id fun sd =>
      readable_of_update (c := c) .ready ?_ rfl rfl fun _ h => h
    rw [hphase]
    exact nofun
  | @close c hphase =>
    refine hs.client rfl rfl id fun sd =>
      readable_of_update (c := c) .closed ?_ rfl rfl fun _ h => h
    rw [hphase]
    exact nofun
  | incoming hpc hback =>
    refine ⟨hs.length, ?_, nofun⟩
    rintro _ ⟨rfl⟩
    exact ⟨hback, fun sd hsd => (mem_readfds.mp hsd).2.2⟩
  | timeout => exact ⟨hs.length, nofun, nofun⟩
  | activity hpc hback hfds =>
    refine ⟨hs.length, nofun, ?_⟩
    rintro _ _ ⟨rfl⟩
    exact ⟨Nat.zero_le _, fun j sd _ _ hsd => (mem_readfds.mp hsd).2.2⟩
  | @accept k c backlog readfds hpc hback hne hfree =>
    refine ⟨(length_place _ _).trans hs.length, nofun, ?_⟩
    rintro _ _ ⟨rfl⟩
    refine ⟨Nat.zero_le _, fun j sd _ _ hsd => ?_⟩
    obtain ⟨c', hc', hready⟩ := readable_iff.mp ((hs.accept readfds hpc).2 sd hsd)
    refine readable_iff.mpr ⟨c', (Function.update_of_ne ?_ _ _).trans hc', hready⟩
    rintro rfl
    rw [hfree] at hc'
    cases hc'
  | again => exact ⟨hs.length, nofun, nofun⟩
  | skip hpc hsd hfds =>
    exact hs.next hpc (hs.lt_of_getElem? hsd) rfl rfl (fun _ _ _ h => h) fun _ _ _ _ _ h => h
  | @message _ i sd readfds c data rest hpc hsd hfds hconn hup =>
    refine hs.next hpc (hs.lt_of_getElem? hsd) rfl rfl (fun _ _ _ h => h) ?_
    intro j sd' hj hsd' _ hready
    obtain ⟨c', hc', hready⟩ := readable_iff.mp hready
    have hother : c' ≠ c := by
      rintro rfl
      obtain rfl := hconns.distinct _ _ _ hconn hc'
      have := hslots.distinct i j sd hsd hsd' (hnonzero hconn)
      omega
    refine readable_iff.mpr ⟨c', hc', hready.imp_left fun hne => ?_⟩
    show Function.update s.up c rest c' ≠ []
    rwa [Function.update_of_ne hother]
  | @disconnect _ i sd readfds c hpc hsd hfds hconn hup hphase =>
    refine hs.next hpc (hs.lt_of_getElem? hsd) rfl List.length_set ?_ ?_
    · intro j sd' hj hsd'
      exact (List.getElem?_set_ne (by omega)).symm.trans hsd'
    · intro j sd' hj hsd' _ hready
      obtain ⟨c', hc', hready⟩ := readable_iff.mp hready
      refine readable_iff.mpr ⟨c', (Function.update_of_ne ?_ _ _).trans hc', hready⟩
      rintro rfl
      have := hslots.distinct i j sd' hsd hsd' (hnonzero hconn)
      omega

end Step

theorem loopOk_of_reachable {site : Site ι} {s : State ι} (h : (system site).Reachable s) :
    LoopOk s := by
  refine h.invariant ?_ ?_
  · rintro _ rfl
    exact ⟨List.length_replicate, nofun, nofun⟩
  · intro s a t hs hloop hstep
    exact hloop.step (slotsOk_of_reachable hs) (connOk_of_reachable hs)
      (move_of_step (ledger_of_reachable hs) hstep)

/-- The server never waits, but in `select`: there is a connection when it calls
    `accept` and a message, or the end of the connection, when it calls `read`. -/
theorem server_enabled {site : Site ι} {s : State ι} (h : (system site).Reachable s)
    (hpc : s.pc ≠ .ended) {newSocket : ℕ} (hne : newSocket ≠ 0)
    (hfree : s.conn newSocket = none) : (step site s (.server newSocket)).isSome = true := by
  have hloop := loopOk_of_reachable h
  unfold step
  dsimp only
  cases hs : s.pc with
  | ended => exact absurd hs hpc
  | select => rfl
  | accept readfds =>
    obtain ⟨c, backlog, hback⟩ := List.exists_cons_of_ne_nil (hloop.accept readfds hs).1
    simp [State.accept, hback, hne, hfree]
  | slot i readfds =>
    show (s.slot i readfds).isSome = true
    unfold State.slot
    split
    next => rfl
    next sd hsd =>
      dsimp only
      split_ifs with hfds
      · obtain ⟨c, hconn, hready⟩ := readable_iff.mp
          ((hloop.slot i readfds hs).2 i sd le_rfl hsd hfds)
        unfold State.serve
        dsimp only
        rw [hconn]
        dsimp only
        cases hup : s.up c with
        | cons m rest => rfl
        | nil =>
          dsimp only
          rw [if_pos (hready.resolve_left (absurd hup))]
          rfl
      · rfl

/-- The connection of a client, at the call of `accept`. -/
theorem server_enabled_accept : ∃ s,
    (system twoClients).exec .init [.connect false, .server 0] = some s ∧
      s.pc = .accept ⟨true, []⟩ ∧ (step twoClients s (.server 4)).isSome = true := by
  have hrun : ((system twoClients).exec .init [.connect false, .server 0]).map
      (fun s => (s.pc, s.conn 4)) = some (.accept ⟨true, []⟩, none) := by
    decide +kernel
  obtain ⟨s, hexec, hview⟩ := Option.map_eq_some_iff.mp hrun
  simp only [Prod.mk.injEq] at hview
  obtain ⟨hpc, hfree⟩ := hview
  refine ⟨s, hexec, hpc, server_enabled (System.Reachable.of_exec rfl hexec) ?_ (by decide) hfree⟩
  rw [hpc]
  exact nofun

/-! ## Waiting for an answer -/

def Action.isServer : Action ι → Bool
  | .server _ => true
  | _ => false

/-- How many steps the server may take before it reads from the socket `sd` in place
    `j`, where there is something to read. -/
def Pc.distance (j sd : ℕ) : Pc → ℕ
  | .select => j + 3
  | .accept readfds => if sd ∈ readfds.fds then j + 2 else j + 35
  | .slot i readfds => if i ≤ j ∧ sd ∈ readfds.fds then j + 1 - i else j + 34 - i
  | .ended => 0

/-- Client `c` has sent `m`, on the socket in place `j`; `before` has been read. -/
structure Pending (j sd : ℕ) (c : ι) (m : Text) (before : List Text) (s : State ι) : Prop where
  place : s.server.clientSocket[j]? = some sd
  conn : s.conn sd = some c
  up : s.up c = [m]
  reads : ofClient c s.reads = before
  running : s.pc ≠ .ended

/-- `m` has been read, next after `before`. -/
def Read (c : ι) (m : Text) (before : List Text) (s : State ι) : Prop :=
  before ++ [m] <+: ofClient c s.reads

/-- The loop passes a place, that of `sd` only if it was not ready. -/
theorem Pc.distance_next {i j sd : ℕ} {readfds : Readfds} (hi : i < maxClients)
    (hne : i = j → sd ∉ readfds.fds) :
    (Pc.slot (i + 1) readfds).distance j sd + 1 ≤ (Pc.slot i readfds).distance j sd := by
  unfold maxClients at hi
  unfold Pc.distance
  dsimp only
  split_ifs with hnext hhere hhere
  · omega
  · omega
  · obtain rfl : i = j := by
      by_contra hij
      exact hnext ⟨by omega, hhere.2⟩
    exact absurd hhere.2 (hne rfl)
  · omega

section Step

variable {site : Site ι} {s t : State ι} {j sd : ℕ} {c : ι} {m : Text} {before : List Text}

/-- What counts for the client is as it was. -/
theorem Pending.congr (hs : Pending j sd c m before s)
    (hplace : t.server.clientSocket[j]? = s.server.clientSocket[j]?)
    (hconn : t.conn sd = s.conn sd) (hup : t.up c = s.up c)
    (hreads : ofClient c t.reads = ofClient c s.reads) (hpc : t.pc ≠ .ended) :
    Pending j sd c m before t :=
  ⟨hplace.trans hs.place, hconn.trans hs.conn, hup.trans hs.up, hreads.trans hs.reads, hpc⟩

theorem place_getElem?_of_ne {newSocket : ℕ} {slots : List ℕ} (hne : sd ≠ 0)
    (h : slots[j]? = some sd) : (place newSocket slots)[j]? = slots[j]? := by
  rcases place_cases newSocket slots with ⟨i, hi, hplace⟩ | hplace
  · rw [hplace, List.getElem?_set_ne]
    rintro rfl
    exact hne (Option.some.inj (h.symm.trans hi))
  · rw [hplace]

/-- Every step of the server brings it nearer, and the steps of the clients do not
    hold it up. -/
theorem Pending.step {a : Action ι} (hs : Pending j sd c m before s) (hledger : Ledger site s)
    (hconns : ConnOk s) (hloop : LoopOk s) (h : Move site s a t) :
    Read c m before t ∨ Pending j sd c m before t ∧
      t.pc.distance j sd + (if a.isServer then 1 else 0) ≤ s.pc.distance j sd := by
  have hne : sd ≠ 0 := by
    rintro rfl
    exact absurd (hconns.zero.symm.trans hs.conn) nofun
  have hready : s.readable sd = true :=
    readable_iff.mpr ⟨c, hs.conn, .inl (hs.up ▸ List.cons_ne_nil _ _)⟩
  have hfound : sd ∈ s.readfds.fds :=
    mem_readfds.mpr ⟨List.mem_of_getElem? hs.place, Nat.pos_of_ne_zero hne, hready⟩
  have hwaiting : s.phase c = .waiting := by
    by_contra hnot
    have hpending := hledger.pending c
    rw [hs.up, if_neg hnot] at hpending
    simp at hpending
  cases h with
  | connect hphase => exact .inr ⟨hs.congr rfl rfl rfl rfl hs.running, le_rfl⟩
  | recv hphase hdown => exact .inr ⟨hs.congr rfl rfl rfl rfl hs.running, le_rfl⟩
  | close hphase => exact .inr ⟨hs.congr rfl rfl rfl rfl hs.running, le_rfl⟩
  | @send c' data hphase htask =>
    refine .inr ⟨hs.congr rfl rfl (Function.update_of_ne ?_ _ _) rfl hs.running, le_rfl⟩
    rintro rfl
    rw [hphase] at hwaiting
    cases hwaiting
  | incoming hpc hback =>
    refine .inr ⟨hs.congr rfl rfl rfl rfl nofun, ?_⟩
    rw [hpc]
    simp [Pc.distance, hfound, Action.isServer]
  | timeout hpc hback hfds =>
    rw [hfds] at hfound
    cases hfound
  | activity hpc hback hfds =>
    refine .inr ⟨hs.congr rfl rfl rfl rfl nofun, ?_⟩
    rw [hpc]
    simp [Pc.distance, hfound, Action.isServer]
  | @accept k c' backlog readfds hpc hback hk hfree =>
    refine .inr ⟨hs.congr (place_getElem?_of_ne hne hs.place) (Function.update_of_ne ?_ _ _) rfl
      rfl nofun, ?_⟩
    · rintro rfl
      exact absurd (hfree.symm.trans hs.conn) nofun
    · rw [hpc]
      simp only [Pc.distance, Action.isServer, Nat.zero_le, true_and, if_true]
      split_ifs <;> omega
  | @again k i readfds hpc hend =>
    refine .inr ⟨hs.congr rfl rfl rfl rfl nofun, ?_⟩
    have hi := (hloop.slot i readfds hpc).1
    have hlast := hloop.length ▸ List.getElem?_eq_none_iff.mp hend
    have hj := hloop.lt_of_getElem? hs.place
    unfold maxClients at hi hlast hj
    rw [hpc]
    simp only [Pc.distance, Action.isServer, if_true]
    rw [if_neg (by omega)]
    omega
  | @skip k i sd' readfds hpc hsd' hfds =>
    refine .inr ⟨hs.congr rfl rfl rfl rfl nofun, ?_⟩
    rw [hpc]
    refine Pc.distance_next (hloop.lt_of_getElem? hsd') ?_
    rintro rfl
    obtain rfl := Option.some.inj (hsd'.symm.trans hs.place)
    exact hfds
  | @message k i sd' readfds c' data rest hpc hsd' hfds hconn hup =>
    by_cases hc : c' = c
    · subst hc
      left
      rw [hs.up] at hup
      obtain ⟨rfl, rfl⟩ := List.cons.inj hup
      refine ⟨[], ?_⟩
      show before ++ [_] ++ [] = ofClient c' (s.reads ++ [(c', _)])
      rw [List.append_nil, ofClient_concat, if_pos rfl, hs.reads]
    · have hreads : ofClient c (s.reads ++ [(c', (site.client c').message data)]) =
          ofClient c s.reads := by
        rw [ofClient_concat, if_neg hc, List.append_nil]
      refine .inr ⟨hs.congr rfl rfl (Function.update_of_ne (Ne.symm hc) _ _) hreads nofun, ?_⟩
      rw [hpc]
      refine Pc.distance_next (hloop.lt_of_getElem? hsd') ?_
      rintro rfl
      obtain rfl := Option.some.inj (hsd'.symm.trans hs.place)
      exact absurd (Option.some.inj (hconn.symm.trans hs.conn)) hc
  | @disconnect k i sd' readfds c' hpc hsd' hfds hconn hup hphase =>
    have hother : sd ≠ sd' := by
      rintro rfl
      obtain rfl := Option.some.inj (hconn.symm.trans hs.conn)
      rw [hphase] at hwaiting
      cases hwaiting
    have hij : i ≠ j := by
      rintro rfl
      exact hother (Option.some.inj (hs.place.symm.trans hsd'))
    refine .inr ⟨hs.congr (List.getElem?_set_ne hij) (Function.update_of_ne hother _ _) rfl rfl
      nofun, ?_⟩
    rw [hpc]
    exact Pc.distance_next (hloop.lt_of_getElem? hsd') fun h => absurd h hij

end Step

theorem Pc.distance_le {j : ℕ} (sd : ℕ) (hj : j < maxClients) (pc : Pc) :
    pc.distance j sd ≤ 64 := by
  unfold maxClients at hj
  cases pc with
  | select | ended => simp only [Pc.distance]; omega
  | accept readfds | slot i readfds =>
    simp only [Pc.distance]
    split_ifs <;> omega

omit [DecidableEq ι] in
theorem LoopOk.distance_pos {s : State ι} (hs : LoopOk s) (j sd : ℕ) (hpc : s.pc ≠ .ended) :
    0 < s.pc.distance j sd := by
  have hslot := hs.slot
  unfold maxClients at hslot
  cases hcase : s.pc with
  | ended => exact absurd hcase hpc
  | select => exact Nat.succ_pos _
  | accept readfds =>
    simp only [Pc.distance]
    split_ifs <;> omega
  | slot i readfds =>
    have hi := (hslot i readfds hcase).1
    simp only [Pc.distance]
    split_ifs <;> omega

theorem Read.step {site : Site ι} {s t : State ι} {c : ι} {m : Text} {before : List Text}
    {a : Action ι} (hs : Read c m before s) (h : Move site s a t) : Read c m before t := by
  have hmessage : ∀ {c' : ι} {m' : Text}, Read c m before s →
      before ++ [m] <+: ofClient c (s.reads ++ [(c', m')]) := by
    intro c' m' hs
    rw [ofClient_concat]
    exact hs.trans (List.prefix_append _ _)
  cases h with
  | message => exact hmessage hs
  | _ => exact hs

/-- A line that client `c` has sent on a socket with a place is the next of its
    lines that is read, after at most 64 steps of the server, whatever the clients do
    in between. -/
theorem read_within {site : Site ι} {s t : State ι} {tr : List (State ι × Action ι)}
    (hreach : (system site).Reachable s) (hrun : (system site).Run s tr t) {j sd : ℕ} {c : ι}
    {m : Text} {rest : List Text} (hplace : s.server.clientSocket[j]? = some sd)
    (hconn : s.conn sd = some c) (hup : s.up c = m :: rest) (hpc : s.pc ≠ .ended)
    (hsteps : 64 ≤ tr.countP fun e => e.2.isServer) :
    ofClient c s.reads ++ [m] <+: ofClient c t.reads := by
  have hone : s.up c = [m] := by
    have hpending := (ledger_of_reachable hreach).pending c
    rw [hup, List.length_cons] at hpending
    have hrest : rest.length = 0 := by
      split_ifs at hpending <;> omega
    rw [hup, List.length_eq_zero_iff.mp hrest]
  have hstart : Pending j sd c m (ofClient c s.reads) s := ⟨hplace, hconn, hone, rfl, hpc⟩
  have hmove : ∀ {s a t}, (system site).Reachable s → (system site).step s a = some t →
      Move site s a t := fun hs h => move_of_step (ledger_of_reachable hs) h
  have hdone := System.Run.response (P := Pending j sd c m (ofClient c s.reads))
    (G := Read c m (ofClient c s.reads)) (μ := fun s => s.pc.distance j sd)
    (q := fun e => e.2.isServer)
    (fun s a t hs hP h => hP.step (ledger_of_reachable hs)
      (connOk_of_reachable hs) (loopOk_of_reachable hs) (hmove hs h))
    (fun s a t hs hG h => hG.step (hmove hs h)) hreach hrun hstart
  rcases hdone with hread | ⟨hP, hle⟩
  · exact hread
  · have hmax := Pc.distance_le sd ((loopOk_of_reachable hreach).lt_of_getElem? hplace) s.pc
    have hpos := (loopOk_of_reachable (hreach.run hrun)).distance_pos j sd hP.running
    omega

/-- Both clients have a place, and both have sent a line. -/
def bothSend : List (Action Bool) :=
  [.connect false, .connect true, .server 0, .server 4] ++ List.replicate 31 (.server 0) ++
    [.server 0, .server 5] ++ List.replicate 31 (.server 0) ++
    [.send true "T7".toList, .send false "T3".toList]

/-- Two rounds of the server; one of the clients sends again after the first. -/
def twoRounds : List (Action Bool) :=
  List.replicate 32 (.server 0) ++ [.recv true, .send true "T1".toList] ++
    List.replicate 32 (.server 0)

theorem read_within_twoRounds : ∃ s t, (system twoClients).exec .init bothSend = some s ∧
    (system twoClients).exec s twoRounds = some t ∧
    ofClient false s.reads ++ ["ui.1,T3".toList] <+: ofClient false t.reads := by
  have hsend : ((system twoClients).exec .init bothSend).map (fun s =>
      (s.server.clientSocket[0]?, s.conn 4, s.up false, s.pc)) =
        some (some 4, some false, ["ui.1,T3".toList], .select) := by
    decide +kernel
  obtain ⟨s, hexec, hview⟩ := Option.map_eq_some_iff.mp hsend
  simp only [Prod.mk.injEq] at hview
  obtain ⟨hplace, hconn, hup, hpc⟩ := hview
  have hrounds : (((system twoClients).exec .init bothSend).bind fun s =>
      ((system twoClients).exec s twoRounds).map fun _ =>
        ((system twoClients).trace s twoRounds).countP fun e => e.2.isServer) = some 64 := by
    decide +kernel
  rw [hexec, Option.bind_some] at hrounds
  obtain ⟨t, hexec', hcount⟩ := Option.map_eq_some_iff.mp hrounds
  refine ⟨s, t, hexec, hexec', read_within (System.Reachable.of_exec rfl hexec)
    (System.Run.of_exec hexec') hplace hconn hup ?_ hcount.ge⟩
  rw [hpc]
  exact nofun

end Cmput379.Transactions
