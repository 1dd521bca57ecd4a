import Cmput379.Transactions.Rounds

/-!
# The summary of the transaction server

When `select` has timed out, the server prints for each key in
`client_completed_tasks` how many transactions it has counted. Every line that was
sent is in there by then, but for those on sockets without a place.

* `Server.summary`: what is printed.
* `up_of_timeout`: who can still have an unread line.
* `summaryExact_iff`: when the numbers are those of the lines that were sent.
-/

namespace Cmput379.Transactions

open Cmput379.Lib

variable {ι : Type} [DecidableEq ι]

/-- The keys and the numbers of the lines `<n> transactions from <key>`. -/
def Server.summary (srv : Server) : List (Text × ℤ) := srv.clientCompletedTasks.toList

/-- One line for each client that has sent something, with how often it has. -/
def SummaryExact (site : Site ι) (s : State ι) : Prop :=
  ∀ key count, (key, count) ∈ s.server.summary ↔
    ∃ c, s.sent c ≠ [] ∧ key = (site.client c).hostnamePID ∧ count = (s.sent c).length

section Timeout

variable {site : Site ι} {s : State ι}

omit [DecidableEq ι] in
/-- The server ends when nothing has happened on any of its sockets. -/
theorem select_ended (h : s.select.pc = .ended) : s.backlog = [] ∧ s.readfds.fds = [] := by
  unfold State.select at h
  split_ifs at h with hmaster hfds
  exact ⟨not_not.mp (mt readfds_master.mpr hmaster), hfds⟩

/-- A client whose socket has a place has no unread line when the server ends. -/
theorem up_of_timeout (hledger : Ledger site s) (hconns : ConnOk s) (hend : s.select.pc = .ended)
    {c : ι} (hplaced : ∀ sd, s.conn sd = some c → sd ∈ s.server.clientSocket) : s.up c = [] := by
  obtain ⟨hback, hfds⟩ := select_ended hend
  by_contra hne
  have hwaiting : s.phase c = .waiting := by
    by_contra hnot
    have hpending := hledger.pending c
    rw [if_neg hnot] at hpending
    exact hne (List.length_eq_zero_iff.mp (by omega))
  rcases hconns.placed c (by rw [hwaiting]; exact nofun) with hmem | ⟨sd, hsd⟩ | ⟨hclosed, -⟩
  · rw [hback] at hmem
    cases hmem
  · have hzero : sd ≠ 0 := by
      rintro rfl
      exact absurd (hconns.zero.symm.trans hsd) nofun
    have hready : sd ∈ s.readfds.fds := mem_readfds.mpr ⟨hplaced sd hsd, Nat.pos_of_ne_zero hzero,
      readable_iff.mpr ⟨c, hsd, .inl hne⟩⟩
    rw [hfds] at hready
    cases hready
  · rw [hwaiting] at hclosed
    cases hclosed

/-- What is missing in the count of a client is what has not been read. -/
theorem Ledger.count_add (hs : Ledger site s) (c : ι) :
    s.server.clientCompletedTasks.count (site.client c).hostnamePID + (s.up c).length =
      (s.sent c).length := by
  have hlen := congrArg List.length (hs.delivered c)
  rw [List.length_append, List.length_map] at hlen
  rw [hs.count c]
  omega

theorem Ledger.summary (hs : Ledger site s) (hup : ∀ c, s.up c = []) : SummaryExact site s := by
  have hcount : ∀ c, s.server.clientCompletedTasks.count (site.client c).hostnamePID =
      (s.sent c).length := by
    intro c
    have hadd := hs.count_add c
    rw [hup c, List.length_nil] at hadd
    omega
  intro key count
  rw [Server.summary, Tally.mem_toList]
  constructor
  · rintro ⟨hkey, rfl⟩
    obtain ⟨c, hc, rfl⟩ := hs.keys key hkey
    refine ⟨c, ?_, rfl, hcount c⟩
    obtain ⟨e, he, rfl⟩ := List.mem_map.mp hc
    intro hnone
    have hempty := hs.delivered e.1
    rw [hnone, List.map_nil] at hempty
    have hread : e.2 ∈ ofClient e.1 s.reads :=
      List.mem_map.mpr ⟨e, List.mem_filter.mpr ⟨he, decide_eq_true rfl⟩, rfl⟩
    rw [(List.append_eq_nil_iff.mp hempty).1] at hread
    cases hread
  · rintro ⟨c, hne, rfl, rfl⟩
    refine ⟨Tally.mem_of_count_ne ?_, hcount c⟩
    rw [hcount c]
    have hpos := List.length_pos_iff.mpr hne
    omega

end Timeout

/-- When `select` times out, the summary has the number of lines that each client has
    sent iff no client without a place for its socket has sent a line that is not
    read. -/
theorem summaryExact_iff {site : Site ι} {s : State ι} (h : (system site).Reachable s)
    (hend : s.select.pc = .ended) : SummaryExact site s ↔
      ∀ c sd, s.conn sd = some c → sd ∉ s.server.clientSocket → s.up c = [] := by
  have hledger := ledger_of_reachable h
  have hconns := connOk_of_reachable h
  constructor
  · intro hexact c sd hsd hnot
    by_contra hne
    have hadd := hledger.count_add c
    have hpos := List.length_pos_iff.mpr hne
    have hsent : s.sent c ≠ [] := by
      intro hnone
      rw [hnone, List.length_nil, hledger.count c] at hadd
      omega
    have hentry := (Tally.mem_toList _ _ _).mp ((hexact _ _).mpr ⟨c, hsent, rfl, rfl⟩)
    omega
  · intro hlost
    refine hledger.summary fun c => ?_
    by_cases hplaced : ∀ sd, s.conn sd = some c → sd ∈ s.server.clientSocket
    · exact up_of_timeout hledger hconns hend hplaced
    · obtain ⟨sd, hsd⟩ := not_forall.mp hplaced
      obtain ⟨hconn, hnot⟩ := Classical.not_imp.mp hsd
      exact hlost c sd hconn hnot

/-- One of the two clients has left, and the other does nothing: two lines. -/
theorem summaryExact_answerSecondFirst : ∃ s,
    (system twoClients).exec .init answerSecondFirst = some s ∧
      s.server.summary = [("ui.1".toList, 1), ("ui.12".toList, 1)] ∧
      (SummaryExact twoClients s ↔
        ∀ c sd, s.conn sd = some c → sd ∉ s.server.clientSocket → s.up c = []) := by
  have hrun : ((system twoClients).exec .init answerSecondFirst).map
      (fun s => (s.select.pc, s.server.summary)) =
        some (.ended, [("ui.1".toList, 1), ("ui.12".toList, 1)]) := by
    decide +kernel
  obtain ⟨s, hexec, hview⟩ := Option.map_eq_some_iff.mp hrun
  simp only [Prod.mk.injEq] at hview
  obtain ⟨hend, hsummary⟩ := hview
  exact ⟨s, hexec, hsummary, summaryExact_iff (System.Reachable.of_exec rfl hexec) hend⟩

end Cmput379.Transactions
