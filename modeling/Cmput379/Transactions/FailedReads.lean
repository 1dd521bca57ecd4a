import Cmput379.Transactions.Buffer

/-!
# Failed reads at the transaction server

The loop over the sockets looks at the value that `read` returns only to see whether it
is 0 (line 175). Where it is -1, what is in the array is counted, and perhaps done and
answered, once more.

* `count_receive`: whatever is in the array, the transaction count grows.
* `summaryOk_of_run`: without failed reads only keys of messages are counted.
* `failedReads_iff`: a run is as it should be iff none of its reads fails.
-/

namespace Cmput379.Transactions

open Cmput379.Lib

/-! ## Specification -/

/-- The accounts and the places of the other clients are as they were, and nothing has
    been done or answered. -/
structure Unchanged (p p' : Process) (i : ℕ) : Prop where
  count : p'.server.transactionCount = p.server.transactionCount
  tasks : p'.server.clientCompletedTasks = p.server.clientCompletedTasks
  slots : ∀ j : ℕ, j ≠ i → p'.server.clientSocket[j]? = p.server.clientSocket[j]?
  log : p'.log = p.log
  replies : p'.replies = p.replies

/-- The summary (lines 229-231) lists only keys of clients that have sent a message. -/
def SummaryOk (tr : List (Process × ReadAction)) (p : Process) : Prop :=
  ∀ k ∈ p.server.clientCompletedTasks, ∃ x ∈ tr, ∃ i q, x.2 = .message i q ∧ q.key = k

/-! ## What is counted -/

section Step

variable {p p' : Process} {a : ReadAction}

theorem count_receive (p : Process) :
    p.receive.server.transactionCount = p.server.transactionCount + 1 := by
  unfold Process.receive
  cases p.buffer.cstring with
  | none => rfl
  | some recvString =>
    dsimp only [Server.transact]
    split_ifs
    · cases stoi (decode recvString).2.tail <;> rfl
    · rfl

/-- A message adds its key, or nothing where the copy runs over the end of the array. -/
theorem tasks_message (p : Process) (q : Request) :
    ({ p with buffer := p.buffer.read q.text } : Process).receive.server.clientCompletedTasks =
        p.server.clientCompletedTasks ∨
      ({ p with buffer := p.buffer.read q.text } : Process).receive.server.clientCompletedTasks =
        p.server.clientCompletedTasks.increment q.key := by
  have hcstring := cstring_read q p.buffer
  split_ifs at hcstring with hnul
  · rw [receive_message q _ hcstring]
    right
    cases stoi (intText q.n ++ (p.buffer.chars.drop q.text.length).takeWhile (· ≠ '\x00')) <;>
      rfl
  · left
    unfold Process.receive
    simp only [hcstring]

end Step

section Run

variable {b : Buffer} {p : Process} {tr : List (Process × ReadAction)}

theorem SummaryOk.mono {tr tr' : List (Process × ReadAction)} (h : SummaryOk tr p) :
    SummaryOk (tr ++ tr') p := by
  intro k hk
  obtain ⟨x, hx, hkey⟩ := h k hk
  exact ⟨x, List.mem_append_left _ hx, hkey⟩

theorem summaryOk_of_run (h : (Process.system b).Run (.init b) tr p)
    (hreads : ∀ x ∈ tr, x.2.isError = false) : SummaryOk tr p := by
  induction h with
  | nil => exact fun k hk => absurd hk Std.TreeMap.not_mem_emptyc
  | @snoc tr u v a hrun hstep ih =>
    have hfront : SummaryOk tr u := ih fun x hx => hreads x (List.mem_append_left _ hx)
    have hlast := hreads (u, a) (by simp)
    cases a with
    | accept newSocket =>
      obtain rfl := Process.step_accept hstep
      exact hfront.mono
    | eof i =>
      obtain rfl := Process.step_eof hstep
      exact hfront.mono
    | error i => cases hlast
    | message i q =>
      obtain ⟨-, -, rfl⟩ := Process.step_message hstep
      intro k hk
      rcases tasks_message u q with htasks | htasks
      · rw [htasks] at hk
        exact hfront.mono k hk
      · rw [htasks] at hk
        rcases (Tally.mem_increment _ _ _).mp hk with rfl | hk
        · exact ⟨(u, .message i q), by simp, i, q, rfl, rfl⟩
        · exact hfront.mono k hk

/-- In every run with reads of any kind: each failed read leaves everything as it was, and
    the summary lists only clients, iff no read fails. -/
theorem failedReads_iff (h : (Process.system b).Run (.init b) tr p) :
    ((∀ x ∈ tr, ∀ i p', x.2 = .error i → x.1.step x.2 = some p' → Unchanged x.1 p' i) ∧
        SummaryOk tr p) ↔
      ∀ x ∈ tr, x.2.isError = false := by
  constructor
  · rintro ⟨hunchanged, -⟩ x hx
    obtain ⟨tr', p', -, hstep⟩ := h.of_mem hx
    cases haction : x.2 with
    | error i =>
      have hsame := hunchanged x hx i p' haction hstep
      rw [haction] at hstep
      obtain rfl := Process.step_error hstep
      have hcount := hsame.count
      rw [count_receive] at hcount
      omega
    | _ => rfl
  · intro hreads
    refine ⟨fun x hx i p' haction _ => ?_, summaryOk_of_run h hreads⟩
    have hread := hreads x hx
    rw [haction] at hread
    cases hread

end Run

/-! ## A failed read behind a reply -/

/-- The client sends once; then its connection fails. -/
def failedRead : List ReadAction := oneMessage ++ [.error 0]

/-- Four messages leave all as it should be; a failing read behind them does not. -/
theorem failedReads_iff_manyMessages : ∃ p p',
    (Process.system (.ofString [])).exec (.init (.ofString [])) manyMessages = some p ∧
    SummaryOk ((Process.system (.ofString [])).trace (.init (.ofString [])) manyMessages) p ∧
    (Process.system (.ofString [])).exec (.init (.ofString [])) (manyMessages ++ [.error 1]) =
      some p' ∧
    ¬ ((∀ x ∈ (Process.system (.ofString [])).trace (.init (.ofString []))
        (manyMessages ++ [.error 1]),
          ∀ i q, x.2 = .error i → x.1.step x.2 = some q → Unchanged x.1 q i) ∧
      SummaryOk ((Process.system (.ofString [])).trace (.init (.ofString []))
        (manyMessages ++ [.error 1])) p') := by
  have hgood : ((Process.system (.ofString [])).exec (.init (.ofString [])) manyMessages).isSome =
      true := by
    decide +kernel
  have hbad : ((Process.system (.ofString [])).exec (.init (.ofString []))
      (manyMessages ++ [.error 1])).isSome = true := by
    decide +kernel
  have hreads : ∀ x ∈ (Process.system (.ofString [])).trace (.init (.ofString [])) manyMessages,
      x.2.isError = false := by
    decide +kernel
  have herror : ∃ x ∈ (Process.system (.ofString [])).trace (.init (.ofString []))
      (manyMessages ++ [.error 1]), x.2.isError = true := by
    decide +kernel
  obtain ⟨p, hp⟩ := Option.isSome_iff_exists.mp hgood
  obtain ⟨p', hp'⟩ := Option.isSome_iff_exists.mp hbad
  refine ⟨p, p', hp, ((failedReads_iff (System.Run.of_exec hp)).mpr hreads).2, hp', fun h => ?_⟩
  obtain ⟨x, hx, hfails⟩ := herror
  have hread := (failedReads_iff (System.Run.of_exec hp')).mp h x hx
  exact absurd (hfails.symm.trans hread) (by decide)

/-- The digits of the reply are counted as the key of a client. -/
theorem failedReads_counterexample : ∃ b tr p, (Process.system b).Run (.init b) tr p ∧
    p.status = .running ∧ ¬ SummaryOk tr p := by
  have hrun : ((Process.system (.ofString [])).exec (.init (.ofString [])) failedRead).map
      (fun p => decide (p.status = .running ∧ ['1'] ∈ p.server.clientCompletedTasks)) =
        some true := by
    decide +kernel
  obtain ⟨p, hexec, hstatus, hkey⟩ := System.exists_of_exec hrun
  refine ⟨_, _, p, System.Run.of_exec hexec, hstatus, fun h => ?_⟩
  obtain ⟨x, hx, i, q, hq, hone⟩ := h _ hkey
  -- every key holds a dot
  have hdot : '.' ∈ q.key := by simp [Request.key, Client.hostnamePID]
  rw [hone] at hdot
  exact absurd hdot (by decide)

end Cmput379.Transactions
