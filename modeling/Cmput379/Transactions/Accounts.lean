import Cmput379.Transactions.Server

/-!
# The accounts of the transaction server

* `Transition`, `transition_of_step`: what a step can do.
* `SlotsOk`: the places of `client_socket` hold distinct open descriptors, so that
  `read` is called on open descriptors only (`conn_of_reachable`).
* `Ledger`: what the server has counted, what it has read, and what the clients have
  sent and seen.
* `transactionAccounts`: the transactions are numbered in the order of the reads.
-/

namespace Cmput379.Transactions

open Cmput379.Lib

/-! ## Decoding -/

theorem comma_not_mem_hostnamePID {c : Client} (h : ',' ∉ c.hostname) : ',' ∉ c.hostnamePID := by
  unfold Client.hostnamePID
  rw [List.mem_append, List.mem_cons]
  rintro (hmem | hmem | hmem)
  · exact h hmem
  · exact absurd hmem (by decide)
  · rcases mem_intText hmem with hdash | hdigit
    · exact absurd hdash (by decide)
    · exact absurd hdigit (by decide)

/-- The server finds the key and the line of a message again. -/
theorem decode_message {c : Client} (h : ',' ∉ c.hostname) (data : Text) :
    decode (c.message data) = (c.hostnamePID, data) := by
  have hkey : ∀ x ∈ c.hostnamePID, decide (x ≠ ',') = true := by
    intro x hx
    rw [decide_eq_true_eq]
    rintro rfl
    exact comma_not_mem_hostnamePID h hx
  unfold decode Client.message
  rw [if_pos (List.mem_append_right _ List.mem_cons_self),
    List.takeWhile_append_of_pos hkey, List.dropWhile_append_of_pos hkey]
  simp

/-! ## What a step can do -/

variable {ι : Type} [DecidableEq ι]

/-- The descriptors that `select` found ready. -/
def Pc.fds : Pc → List ℕ
  | .accept readfds => readfds.fds
  | .slot _ readfds => readfds.fds
  | _ => []

/-- What a step can do; where the server moves on, no descriptor 0 gets ready. -/
inductive Transition (site : Site ι) (s : State ι) : State ι → Prop
  | connect {c : ι} (hphase : s.phase c = .absent) : Transition site s
      { s with phase := Function.update s.phase c .ready, backlog := s.backlog ++ [c] }
  | send {c : ι} {data : Text} (hphase : s.phase c = .ready) (htask : IsTask data) :
      Transition site s { s with
        phase := Function.update s.phase c .waiting
        up := Function.update s.up c (s.up c ++ [(site.client c).message data])
        sent := Function.update s.sent c (s.sent c ++ [data]) }
  | recv {c : ι} (hphase : s.phase c = .waiting) (hdown : s.down c ≠ []) : Transition site s
      { s with
        phase := Function.update s.phase c .ready
        down := Function.update s.down c []
        seen := Function.update s.seen c (s.seen c ++ [(s.down c).flatten]) }
  | close {c : ι} (hphase : s.phase c = .ready) : Transition site s
      { s with phase := Function.update s.phase c .closed }
  | goto {pc : Pc} (hpc : 0 ∉ s.pc.fds → 0 ∉ pc.fds) : Transition site s { s with pc := pc }
  | accept {newSocket : ℕ} {c : ι} {backlog : List ι} {pc : Pc}
      (hpc : 0 ∉ s.pc.fds → 0 ∉ pc.fds) (hne : newSocket ≠ 0)
      (hfree : s.conn newSocket = none) : Transition site s
      { s with
        server := { s.server with clientSocket := place newSocket s.server.clientSocket }
        conn := Function.update s.conn newSocket (some c)
        backlog := backlog
        pc := pc }
  | message {c : ι} {m : Text} {rest : List Text} {pc : Pc}
      (hpc : 0 ∉ s.pc.fds → 0 ∉ pc.fds) (hup : s.up c = m :: rest) : Transition site s
        (({ s with pc := pc, up := Function.update s.up c rest } : State ι).transact c m)
  | disconnect {i sd : ℕ} {pc : Pc} (hpc : 0 ∉ s.pc.fds → 0 ∉ pc.fds)
      (hsd : s.server.clientSocket[i]? = some sd) : Transition site s
        (({ s with pc := pc } : State ι).disconnect i sd)

section Step

variable {site : Site ι} {s t : State ι}

omit [DecidableEq ι] in
theorem zero_not_mem_readfds : 0 ∉ s.readfds.fds := by
  intro hmem
  have hpos := (List.mem_filter.mp hmem).2
  simp at hpos

theorem transition_of_select : Transition site s s.select := by
  unfold State.select
  split_ifs
  · exact .goto fun _ => zero_not_mem_readfds
  · exact .goto fun _ => List.not_mem_nil
  · exact .goto fun _ => zero_not_mem_readfds

theorem transition_of_slot {i : ℕ} {readfds : Readfds} (hpc : s.pc = .slot i readfds)
    (h : s.slot i readfds = some t) : Transition site s t := by
  have hfds : 0 ∉ s.pc.fds → 0 ∉ (Pc.slot (i + 1) readfds).fds := by
    rw [hpc]
    exact id
  unfold State.slot at h
  split at h
  · cases h
    exact .goto fun _ => List.not_mem_nil
  · rename_i sd hsd
    dsimp only at h
    split_ifs at h
    · unfold State.serve at h
      split at h
      · cases h
      · split at h
        · rename_i m rest hup
          cases h
          exact .message hfds hup
        · split_ifs at h
          cases h
          exact .disconnect hfds hsd
    · cases h
      exact .goto hfds

theorem transition_of_step {a : Action ι} (h : step site s a = some t) :
    Transition site s t := by
  cases a with
  | connect c =>
    simp only [step, State.connect] at h
    split_ifs at h with hphase
    cases h
    exact .connect hphase
  | send c data =>
    simp only [step, State.send] at h
    split_ifs at h with hsend
    cases h
    exact .send hsend.1 hsend.2
  | recv c =>
    simp only [step, State.recv] at h
    split_ifs at h with hrecv
    cases h
    exact .recv hrecv.1 hrecv.2
  | close c =>
    simp only [step, State.close] at h
    split_ifs at h with hphase
    cases h
    exact .close hphase
  | server newSocket =>
    simp only [step] at h
    split at h
    · cases h
      exact transition_of_select
    · rename_i readfds hpc
      unfold State.accept at h
      split at h
      · cases h
      · split_ifs at h with hsocket
        cases h
        refine .accept ?_ hsocket.1 hsocket.2
        rw [hpc]
        exact id
    · rename_i i readfds hpc
      exact transition_of_slot hpc h
    · cases h

end Step

/-! ## The ledger -/

/-- The texts of client `c` in a list of texts with their clients. -/
def ofClient (c : ι) (texts : List (ι × Text)) : List Text :=
  (texts.filter (·.1 = c)).map Prod.snd

theorem ofClient_concat (c c' : ι) (texts : List (ι × Text)) (m : Text) :
    ofClient c (texts ++ [(c', m)]) = ofClient c texts ++ if c' = c then [m] else [] := by
  unfold ofClient
  rw [List.filter_append, List.map_append]
  split_ifs with hc <;> simp [hc]

/-- What the server has counted, read and answered, and where the messages and the
    replies of each client are. -/
structure Ledger (site : Site ι) (s : State ι) : Prop where
  total : s.server.transactionCount = s.server.clientCompletedTasks.total
  reads : s.server.transactionCount = s.reads.length
  count : ∀ c, s.server.clientCompletedTasks.count (site.client c).hostnamePID =
    (ofClient c s.reads).length
  keys : ∀ k ∈ s.server.clientCompletedTasks, ∃ c ∈ s.reads.map Prod.fst,
    (site.client c).hostnamePID = k
  delivered : ∀ c, ofClient c s.reads ++ s.up c = (s.sent c).map (site.client c).message
  tasks : ∀ c, ∀ data ∈ s.sent c, IsTask data
  replies : s.replies = (s.reads.zipIdx 1).map fun r => (r.1.1, intText r.2)
  seen : ∀ c, ofClient c s.replies = s.seen c ++ s.down c
  pending : ∀ c, (s.up c).length + (s.down c).length = if s.phase c = .waiting then 1 else 0

section Step

variable {site : Site ι} {s t : State ι}

/-- The server's part of a transaction. -/
theorem transact_message (c : ι) {data : Text} (htask : IsTask data) :
    s.transact c ((site.client c).message data) =
      { s with
        server := { s.server with
          transactionCount := s.server.transactionCount + 1
          clientCompletedTasks :=
            s.server.clientCompletedTasks.increment (site.client c).hostnamePID }
        reads := s.reads ++ [(c, (site.client c).message data)]
        down := Function.update s.down c
          (s.down c ++ [intText (s.server.transactionCount + 1)])
        replies := s.replies ++ [(c, intText (s.server.transactionCount + 1))] } := by
  obtain ⟨n, hn⟩ := Option.isSome_iff_exists.mp htask.2
  unfold State.transact Server.transact
  simp only [decode_message (site.comma c), htask.1, hn, if_true]

/-- The next message of a client is one that it has sent. -/
theorem Ledger.message_of_up (hs : Ledger site s) {c : ι} {m : Text} {rest : List Text}
    (hup : s.up c = m :: rest) :
    ∃ data, IsTask data ∧ m = (site.client c).message data := by
  have hmem : m ∈ (s.sent c).map (site.client c).message := by
    rw [← hs.delivered c, hup]
    exact List.mem_append_right _ List.mem_cons_self
  obtain ⟨data, hdata, rfl⟩ := List.mem_map.mp hmem
  exact ⟨data, hs.tasks c data hdata, rfl⟩

/-- Only the entries of the server and the phases of the clients matter. -/
theorem Ledger.congr (hs : Ledger site s)
    (hcount : t.server.transactionCount = s.server.transactionCount)
    (htasks : t.server.clientCompletedTasks = s.server.clientCompletedTasks)
    (hup : t.up = s.up) (hdown : t.down = s.down) (hsent : t.sent = s.sent)
    (hreads : t.reads = s.reads) (hreplies : t.replies = s.replies) (hseen : t.seen = s.seen)
    (hphase : ∀ c, t.phase c = .waiting ↔ s.phase c = .waiting) : Ledger site t := by
  obtain ⟨h₁, h₂, h₃, h₄, h₅, h₆, h₇, h₈, h₉⟩ := hs
  constructor
  · rw [hcount, htasks, h₁]
  · rw [hcount, hreads, h₂]
  · rwa [htasks, hreads]
  · rwa [htasks, hreads]
  · rwa [hreads, hup, hsent]
  · rwa [hsent]
  · rwa [hreplies, hreads]
  · rwa [hreplies, hseen, hdown]
  · intro c
    rw [hup, hdown, h₉ c]
    simp only [hphase]

/-- A message is read and answered. -/
theorem Ledger.message (hs : Ledger site s) {c : ι} {m : Text} {rest : List Text}
    (hup : s.up c = m :: rest) (pc : Pc) : Ledger site
      (({ s with pc := pc, up := Function.update s.up c rest } : State ι).transact c m) := by
  obtain ⟨data, htask, rfl⟩ := hs.message_of_up hup
  rw [transact_message c htask]
  have hkey : ∀ c', (site.client c).hostnamePID = (site.client c').hostnamePID ↔ c = c' :=
    fun c' => site.injective.eq_iff
  have hnext : s.server.transactionCount + 1 = ((s.reads.length + 1 : ℕ) : ℤ) := by
    rw [hs.reads]
    push_cast
    rfl
  constructor
  · show s.server.transactionCount + 1 = _
    rw [Tally.total_increment, hs.total]
  · show s.server.transactionCount + 1 = _
    rw [List.length_append, hnext]
    rfl
  · intro c'
    show (s.server.clientCompletedTasks.increment _).count _ = _
    rw [Tally.count_increment, hs.count, ofClient_concat, List.length_append]
    simp only [hkey]
    split_ifs <;> simp
  · intro k hk
    rcases (Tally.mem_increment _ _ _).mp hk with rfl | hk
    · exact ⟨c, by simp, rfl⟩
    · obtain ⟨c', hc', hkey'⟩ := hs.keys k hk
      exact ⟨c', by simp [List.mem_map.mp hc'], hkey'⟩
  · intro c'
    show ofClient c' (s.reads ++ [_]) ++ Function.update s.up c rest c' = _
    rw [ofClient_concat, ← hs.delivered c']
    by_cases hc : c = c'
    · subst hc
      rw [if_pos rfl, Function.update_self, hup, List.append_assoc]
      rfl
    · rw [if_neg hc, Function.update_of_ne (Ne.symm hc), List.append_nil]
  · exact hs.tasks
  · show s.replies ++ [_] = ((s.reads ++ [_]).zipIdx 1).map _
    rw [List.zipIdx_append, List.map_append, ← hs.replies, hnext, Nat.add_comm 1]
    rfl
  · intro c'
    show ofClient c' (s.replies ++ [_]) = s.seen c' ++ Function.update s.down c _ c'
    rw [ofClient_concat, hs.seen c']
    by_cases hc : c = c'
    · subst hc
      rw [if_pos rfl, Function.update_self, List.append_assoc]
    · rw [if_neg hc, Function.update_of_ne (Ne.symm hc), List.append_nil]
  · intro c'
    show (Function.update s.up c rest c').length + (Function.update s.down c _ c').length =
      if s.phase c' = .waiting then 1 else 0
    rw [← hs.pending c']
    by_cases hc : c = c'
    · subst hc
      rw [Function.update_self, Function.update_self, hup, List.length_append, List.length_cons]
      simp only [List.length_cons, List.length_nil]
      omega
    · rw [Function.update_of_ne (Ne.symm hc), Function.update_of_ne (Ne.symm hc)]

theorem Ledger.transition (hs : Ledger site s) (h : Transition site s t) : Ledger site t := by
  cases h with
  | @connect c hphase =>
    refine hs.congr rfl rfl rfl rfl rfl rfl rfl rfl fun c' => ?_
    show Function.update s.phase c .ready c' = .waiting ↔ _
    by_cases hc : c' = c
    · subst hc
      simp [hphase]
    · rw [Function.update_of_ne hc]
  | @close c hphase =>
    refine hs.congr rfl rfl rfl rfl rfl rfl rfl rfl fun c' => ?_
    show Function.update s.phase c .closed c' = .waiting ↔ _
    by_cases hc : c' = c
    · subst hc
      simp [hphase]
    · rw [Function.update_of_ne hc]
  | goto hpc => exact hs.congr rfl rfl rfl rfl rfl rfl rfl rfl fun _ => Iff.rfl
  | accept hpc hne hfree => exact hs.congr rfl rfl rfl rfl rfl rfl rfl rfl fun _ => Iff.rfl
  | disconnect hpc hsd => exact hs.congr rfl rfl rfl rfl rfl rfl rfl rfl fun _ => Iff.rfl
  | message hpc hup => exact hs.message hup _
  | @send c data hphase htask =>
    obtain ⟨h₁, h₂, h₃, h₄, h₅, h₆, h₇, h₈, h₉⟩ := hs
    refine ⟨h₁, h₂, h₃, h₄, ?_, ?_, h₇, h₈, ?_⟩
    · intro c'
      show _ ++ Function.update s.up c _ c' = (Function.update s.sent c _ c').map _
      by_cases hc : c' = c
      · subst hc
        rw [Function.update_self, Function.update_self, List.map_append, ← h₅ c',
          List.append_assoc]
        rfl
      · rw [Function.update_of_ne hc, Function.update_of_ne hc, h₅ c']
    · intro c' data' hdata'
      replace hdata' : data' ∈ Function.update s.sent c (s.sent c ++ [data]) c' := hdata'
      by_cases hc : c' = c
      · subst hc
        rw [Function.update_self, List.mem_append, List.mem_singleton] at hdata'
        rcases hdata' with hdata' | rfl
        · exact h₆ c' data' hdata'
        · exact htask
      · rw [Function.update_of_ne hc] at hdata'
        exact h₆ c' data' hdata'
    · intro c'
      show (Function.update s.up c _ c').length + (s.down c').length =
        if Function.update s.phase c .waiting c' = .waiting then 1 else 0
      have hpending := h₉ c'
      by_cases hc : c' = c
      · subst hc
        rw [hphase, if_neg (by decide)] at hpending
        rw [Function.update_self, Function.update_self, if_pos rfl, List.length_append,
          List.length_singleton]
        omega
      · rw [Function.update_of_ne hc, Function.update_of_ne hc, hpending]
  | @recv c hphase hdown =>
    obtain ⟨h₁, h₂, h₃, h₄, h₅, h₆, h₇, h₈, h₉⟩ := hs
    refine ⟨h₁, h₂, h₃, h₄, h₅, h₆, h₇, ?_, ?_⟩
    · -- one reply is all there is
      intro c'
      show _ = Function.update s.seen c _ c' ++ Function.update s.down c [] c'
      by_cases hc : c' = c
      · subst hc
        have hpending := h₉ c'
        rw [hphase, if_pos rfl] at hpending
        have hpos := List.length_pos_iff.mpr hdown
        obtain ⟨text, htext⟩ := List.length_eq_one_iff.mp (by omega : (s.down c').length = 1)
        rw [Function.update_self, Function.update_self, h₈ c', htext]
        simp
      · rw [Function.update_of_ne hc, Function.update_of_ne hc, h₈ c']
    · intro c'
      show (s.up c').length + (Function.update s.down c [] c').length =
        if Function.update s.phase c .ready c' = .waiting then 1 else 0
      have hpending := h₉ c'
      by_cases hc : c' = c
      · subst hc
        have hpos := List.length_pos_iff.mpr hdown
        rw [hphase, if_pos rfl] at hpending
        rw [Function.update_self, Function.update_self, if_neg (by decide), List.length_nil]
        omega
      · rw [Function.update_of_ne hc, Function.update_of_ne hc, hpending]

end Step

theorem ledger_init (site : Site ι) : Ledger site .init where
  total := rfl
  reads := rfl
  count _ := Tally.count_empty _
  keys _ hk := absurd hk Std.TreeMap.not_mem_emptyc
  delivered _ := rfl
  tasks _ _ hdata := absurd hdata List.not_mem_nil
  replies := rfl
  seen _ := rfl
  pending _ := rfl

theorem ledger_of_reachable {site : Site ι} {s : State ι} (h : (system site).Reachable s) :
    Ledger site s := by
  refine h.invariant ?_ ?_
  · rintro _ rfl
    exact ledger_init site
  · exact fun _ _ _ _ hs hstep => hs.transition (transition_of_step hstep)

/-! ## The places of client_socket -/

/-- The sockets in `client_socket` are open, and each is in one place. -/
structure SlotsOk (s : State ι) : Prop where
  opened : ∀ sd ∈ s.server.clientSocket, sd ≠ 0 → (s.conn sd).isSome
  distinct : ∀ (i j sd : ℕ), s.server.clientSocket[i]? = some sd →
    s.server.clientSocket[j]? = some sd → sd ≠ 0 → i = j
  ready : 0 ∉ s.pc.fds

/-- The new socket goes into one free place, or nowhere. -/
theorem place_cases (newSocket : ℕ) (slots : List ℕ) :
    (∃ i, slots[i]? = some 0 ∧ place newSocket slots = slots.set i newSocket) ∨
      place newSocket slots = slots := by
  induction slots with
  | nil => exact .inr rfl
  | cons sd slots ih =>
    unfold place
    split_ifs with hsd
    · exact .inl ⟨0, by rw [hsd]; rfl, rfl⟩
    · rcases ih with ⟨i, hi, hplace⟩ | hplace
      · exact .inl ⟨i + 1, hi, by rw [hplace]; rfl⟩
      · exact .inr (by rw [hplace])

/-- What is in a list of sockets after one place has been written. -/
theorem getElem?_set_cases {slots : List ℕ} {i j x sd : ℕ}
    (h : (slots.set i x)[j]? = some sd) : (i = j ∧ sd = x) ∨ (i ≠ j ∧ slots[j]? = some sd) := by
  rw [List.getElem?_set] at h
  split_ifs at h with hij hlt
  · exact .inl ⟨hij, (Option.some.inj h).symm⟩
  · exact .inr ⟨hij, h⟩

section Step

variable {site : Site ι} {s t : State ι}

/-- A transaction leaves the sockets as they are. -/
theorem transact_frame (s : State ι) (c : ι) (m : Text) :
    (s.transact c m).server.clientSocket = s.server.clientSocket ∧
      (s.transact c m).conn = s.conn ∧ (0 ∉ s.pc.fds → 0 ∉ (s.transact c m).pc.fds) := by
  unfold State.transact Server.transact
  dsimp only
  split_ifs
  · cases stoi (decode m).2.tail with
    | none => exact ⟨rfl, rfl, fun _ => List.not_mem_nil⟩
    | some _ => exact ⟨rfl, rfl, id⟩
  · exact ⟨rfl, rfl, id⟩

theorem SlotsOk.transition (hs : SlotsOk s) (h : Transition site s t) : SlotsOk t := by
  cases h with
  | @accept newSocket c backlog pc hpc hne hfree =>
    -- no place holds the new descriptor, since it is not open
    have hnew : ∀ j : ℕ, s.server.clientSocket[j]? ≠ some newSocket := by
      intro j hj
      have hopen := hs.opened newSocket (List.mem_of_getElem? hj) hne
      rw [hfree] at hopen
      cases hopen
    have hopened : ∀ j sd : ℕ, s.server.clientSocket[j]? = some sd → sd ≠ 0 →
        (Function.update s.conn newSocket (some c) sd).isSome := by
      intro j sd hj hsd
      rw [Function.update_of_ne]
      · exact hs.opened sd (List.mem_of_getElem? hj) hsd
      · rintro rfl
        exact hnew j hj
    rcases place_cases newSocket s.server.clientSocket with ⟨i, -, hplace⟩ | hplace
    · refine ⟨fun sd hmem hsd => ?_, fun j k sd hj hk hsd => ?_, hpc hs.ready⟩
      · obtain ⟨j, hj⟩ := List.mem_iff_getElem?.mp hmem
        rw [hplace] at hj
        rcases getElem?_set_cases hj with ⟨-, rfl⟩ | ⟨-, hj⟩
        · show (Function.update s.conn sd (some c) sd).isSome
          rw [Function.update_self]
          rfl
        · exact hopened j sd hj hsd
      · rw [hplace] at hj hk
        rcases getElem?_set_cases hj with ⟨rfl, rfl⟩ | ⟨-, hj'⟩
        · rcases getElem?_set_cases hk with ⟨rfl, -⟩ | ⟨-, hk'⟩
          · rfl
          · exact absurd hk' (hnew k)
        · rcases getElem?_set_cases hk with ⟨rfl, rfl⟩ | ⟨-, hk'⟩
          · exact absurd hj' (hnew j)
          · exact hs.distinct j k sd hj' hk' hsd
    · refine ⟨fun sd hmem hsd => ?_, fun j k sd hj hk hsd => ?_, hpc hs.ready⟩
      · rw [hplace] at hmem
        obtain ⟨j, hj⟩ := List.mem_iff_getElem?.mp hmem
        exact hopened j sd hj hsd
      · rw [hplace] at hj hk
        exact hs.distinct j k sd hj hk hsd
  | @disconnect i sd₀ pc hpc hsd₀ =>
    have hkept : ∀ j sd : ℕ, (s.server.clientSocket.set i 0)[j]? = some sd → sd ≠ 0 →
        i ≠ j ∧ s.server.clientSocket[j]? = some sd := by
      intro j sd hj hsd
      rcases getElem?_set_cases hj with ⟨-, rfl⟩ | hj
      · exact absurd rfl hsd
      · exact hj
    refine ⟨fun sd hmem hsd => ?_, fun j k sd hj hk hsd => ?_, hpc hs.ready⟩
    · obtain ⟨j, hj⟩ := List.mem_iff_getElem?.mp hmem
      have hother := hkept j sd hj hsd
      show (Function.update s.conn sd₀ none sd).isSome
      rw [Function.update_of_ne]
      · exact hs.opened sd (List.mem_of_getElem? hother.2) hsd
      · rintro rfl
        exact hother.1 (hs.distinct i j sd hsd₀ hother.2 hsd)
    · exact hs.distinct j k sd (hkept j sd hj hsd).2 (hkept k sd hk hsd).2 hsd
  | @message c m rest pc hpc hup =>
    obtain ⟨hslots, hconn, hfds⟩ :=
      transact_frame { s with pc := pc, up := Function.update s.up c rest } c m
    refine ⟨?_, ?_, hfds (hpc hs.ready)⟩
    · rw [hslots, hconn]
      exact hs.opened
    · rw [hslots]
      exact hs.distinct
  | goto hpc => exact ⟨hs.opened, hs.distinct, hpc hs.ready⟩
  | _ => exact ⟨hs.opened, hs.distinct, hs.ready⟩

end Step

theorem slotsOk_of_reachable {site : Site ι} {s : State ι} (h : (system site).Reachable s) :
    SlotsOk s := by
  refine h.invariant ?_ ?_
  · rintro _ rfl
    refine ⟨fun sd hmem hsd => absurd (List.eq_of_mem_replicate hmem) hsd, ?_,
      List.not_mem_nil⟩
    intro i j sd hi _ hsd
    exact absurd (List.eq_of_mem_replicate (List.mem_of_getElem? hi)) hsd
  · exact fun _ _ _ _ hs hstep => hs.transition (transition_of_step hstep)

/-- The socket that is read from is open: it was in its place when `select` returned,
    and neither `accept` nor the sockets before it have touched that place. -/
theorem conn_of_reachable {site : Site ι} {s : State ι} (h : (system site).Reachable s)
    {i sd : ℕ} {readfds : Readfds} (hpc : s.pc = .slot i readfds)
    (hsd : s.server.clientSocket[i]? = some sd) (hready : sd ∈ readfds.fds) :
    ∃ c, s.conn sd = some c := by
  have hs := slotsOk_of_reachable h
  refine Option.isSome_iff_exists.mp (hs.opened sd (List.mem_of_getElem? hsd) ?_)
  rintro rfl
  have hzero := hs.ready
  rw [hpc] at hzero
  exact hzero hready

/-! ## The transactions -/

/-- The numbers of the transactions of client `c`, counted from 1 in the order of
    the reads. -/
def numbers (c : ι) (reads : List (ι × Text)) : List ℕ :=
  ((reads.zipIdx 1).filter (·.1.1 = c)).map Prod.snd

theorem numbers_pairwise (c : ι) (reads : List (ι × Text)) :
    (numbers c reads).Pairwise (· < ·) := by
  have hsub : (numbers c reads).Sublist ((reads.zipIdx 1).map Prod.snd) :=
    List.filter_sublist.map Prod.snd
  rw [List.zipIdx_map_snd] at hsub
  exact List.Pairwise.sublist hsub List.pairwise_lt_range'

/-- The accounts of the server, and the numbering of the replies. -/
structure TransactionAccounts (site : Site ι) (s : State ι) : Prop where
  total : s.server.transactionCount = s.server.clientCompletedTasks.total
  reads : s.server.transactionCount = s.reads.length
  count : ∀ c, s.server.clientCompletedTasks.count (site.client c).hostnamePID =
    (ofClient c s.reads).length
  keys : ∀ k ∈ s.server.clientCompletedTasks, ∃ c ∈ s.reads.map Prod.fst,
    (site.client c).hostnamePID = k
  delivered : ∀ c, ofClient c s.reads ++ s.up c = (s.sent c).map (site.client c).message
  owners : s.replies.map Prod.fst = s.reads.map Prod.fst
  numbering : s.replies.map Prod.snd =
    (List.range' 1 s.server.transactionCount.toNat).map fun (k : ℕ) => intText k
  seen : ∀ c, s.seen c ++ s.down c = (numbers c s.reads).map fun (k : ℕ) => intText k
  increasing : ∀ c, (numbers c s.reads).Pairwise (· < ·)

/-- For any clients and every order of connects, sends and disconnects, at the top of
    the loop as everywhere between two reads. -/
theorem transactionAccounts {site : Site ι} {s : State ι} (h : (system site).Reachable s) :
    TransactionAccounts site s := by
  have hs := ledger_of_reachable h
  refine ⟨hs.total, hs.reads, hs.count, hs.keys, hs.delivered, ?_, ?_, ?_, ?_⟩
  · rw [hs.replies, List.map_map]
    have hfst := List.zipIdx_map_fst 1 s.reads
    conv_rhs => rw [← hfst, List.map_map]
    rfl
  · have hsnd : ((s.reads.zipIdx 1).map Prod.snd).map (fun (k : ℕ) => intText k) =
        s.replies.map Prod.snd := by
      rw [hs.replies, List.map_map, List.map_map]
      rfl
    rw [← hsnd, List.zipIdx_map_snd, hs.reads, Int.toNat_natCast]
  · intro c
    rw [← hs.seen c, hs.replies]
    unfold ofClient numbers
    rw [List.filter_map, List.map_map, List.map_map]
    rfl
  · exact fun c => numbers_pairwise c s.reads

theorem comma_not_mem_ui : ',' ∉ "ui".toList := by decide

/-- Two clients on one host. -/
def twoClients : Site Bool where
  client c := ⟨"ui".toList, if c then 12 else 1⟩
  comma := by decide
  injective := by
    unfold Function.Injective
    decide

/-- The clients are connected and both send; the one that connected last is answered
    first, and leaves. -/
def answerSecondFirst : List (Action Bool) :=
  [.connect false, .connect true, .server 0, .server 4] ++ List.replicate 31 (.server 0) ++
    [.server 0, .server 5] ++ List.replicate 31 (.server 0) ++
    [.send true "T7".toList] ++ List.replicate 32 (.server 0) ++
    [.send false "T3".toList, .recv true, .close true] ++ List.replicate 32 (.server 0)

theorem transactionAccounts_answerSecondFirst : ∃ s,
    (system twoClients).exec .init answerSecondFirst = some s ∧ s.pc = .select ∧
      s.server.transactionCount = 2 ∧ s.seen true = [['1']] ∧ s.down false = [['2']] ∧
      TransactionAccounts twoClients s := by
  have hrun : ((system twoClients).exec .init answerSecondFirst).map
      (fun s => (s.pc, s.server.transactionCount, s.seen true, s.down false)) =
        some (.select, 2, [['1']], [['2']]) := by
    decide +kernel
  obtain ⟨s, hexec, hview⟩ := Option.map_eq_some_iff.mp hrun
  simp only [Prod.mk.injEq] at hview
  obtain ⟨hpc, hcount, hseen, hdown⟩ := hview
  exact ⟨s, hexec, hpc, hcount, hseen, hdown,
    transactionAccounts (System.Reachable.of_exec rfl hexec)⟩

end Cmput379.Transactions
