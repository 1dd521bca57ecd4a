import Cmput379.Transactions.Rounds

/-!
# The turns of the select loop

`select` returns when something is ready, and what is ready is read, accepted or
closed before the next `select`. So the loop does not turn for nothing.

* `State.left`: how many steps a run can take at most before a client connects or
  sends a line.
* `left_lowers`: each other step lowers it.
* `run_length_le`: the length of a run, by the connects and the lines.
-/

namespace Cmput379.Transactions

open Cmput379.Lib

variable {ι : Type} [DecidableEq ι]

/-! ## The measure -/

/-- The steps that client still takes when it sends nothing more. -/
def Phase.left : Phase → ℕ
  | .absent | .closed => 0
  | .ready => 1
  | .waiting => 2

/-- A socket in one of the places `i` and up is ready. -/
def Ahead (slots : List ℕ) (i : ℕ) (readfds : Readfds) : Prop :=
  ∃ sd ∈ slots.drop i, sd ∈ readfds.fds

instance (slots : List ℕ) (i : ℕ) (readfds : Readfds) : Decidable (Ahead slots i readfds) :=
  inferInstanceAs (Decidable (∃ _ ∈ _, _))

/-- How many steps the server takes before there is something to do, or it ends. -/
def Pc.turn (slots : List ℕ) : Pc → ℕ
  | .select => 33
  | .accept _ => 32
  | .slot i readfds => if Ahead slots i readfds then 31 - i else 64 - i
  | .ended => 0

namespace State

omit [DecidableEq ι]

/-- What client `c` makes the server and itself do. -/
def clientWork (s : State ι) (c : ι) : ℕ := (s.phase c).left + (s.up c).length

/-- What is left to do for all clients. -/
noncomputable def work (s : State ι) : ℕ :=
  ∑ᶠ c, s.clientWork c + (2 * s.backlog.length + s.server.clientSocket.countP (· ≠ 0))

noncomputable def left (s : State ι) : ℕ := 33 * s.work + s.pc.turn s.server.clientSocket

end State

/-- What the clients do without being waited for: they connect, and send a line. -/
def Action.isInput : Action ι → Bool
  | .connect _ | .send _ _ => true
  | _ => false

/-! ## The places -/

section Places

variable {slots : List ℕ} {i sd : ℕ} {readfds : Readfds}

theorem ahead_iff (hsd : slots[i]? = some sd) :
    Ahead slots i readfds ↔ sd ∈ readfds.fds ∨ Ahead slots (i + 1) readfds := by
  obtain ⟨hi, hget⟩ := List.getElem?_eq_some_iff.mp hsd
  unfold Ahead
  rw [List.drop_eq_getElem_cons hi, hget, List.exists_mem_cons_iff]

omit [DecidableEq ι] in
/-- What `select` has found ready is in some place. -/
theorem ahead_readfds {s : State ι} (h : s.readfds.fds ≠ []) :
    Ahead s.server.clientSocket 0 s.readfds := by
  obtain ⟨sd, hsd⟩ := List.exists_mem_of_ne_nil _ h
  exact ⟨sd, (mem_readfds.mp hsd).1, hsd⟩

theorem Pc.turn_slot_le (slots : List ℕ) (i : ℕ) (readfds : Readfds) :
    (Pc.slot i readfds).turn slots ≤ 64 - i := by
  unfold Pc.turn
  dsimp only
  split_ifs <;> omega

/-- The loop passes a socket that is not ready. -/
theorem Pc.turn_skip (hi : i < maxClients) (hsd : slots[i]? = some sd) (hfds : sd ∉ readfds.fds) :
    (Pc.slot (i + 1) readfds).turn slots < (Pc.slot i readfds).turn slots := by
  have hahead : Ahead slots i readfds ↔ Ahead slots (i + 1) readfds :=
    (ahead_iff hsd).trans (or_iff_right hfds)
  unfold maxClients at hi
  unfold Pc.turn
  dsimp only
  rw [if_congr hahead rfl rfl]
  split_ifs <;> omega

/-- It serves one that is, and starts again afterwards. -/
theorem Pc.turn_serve (hi : i < maxClients) (hsd : slots[i]? = some sd) (hfds : sd ∈ readfds.fds)
    (slots' : List ℕ) :
    (Pc.slot (i + 1) readfds).turn slots' ≤ (Pc.slot i readfds).turn slots + 32 := by
  have hnext := Pc.turn_slot_le slots' (i + 1) readfds
  have hahead : Ahead slots i readfds := (ahead_iff hsd).mpr (.inl hfds)
  have hhere : (Pc.slot i readfds).turn slots = 31 - i := if_pos hahead
  unfold maxClients at hi
  omega

theorem countP_place_le (newSocket : ℕ) (slots : List ℕ) :
    (place newSocket slots).countP (· ≠ 0) ≤ slots.countP (· ≠ 0) + 1 := by
  rcases place_cases newSocket slots with ⟨i, hi, hplace⟩ | hplace
  · obtain ⟨hlt, hget⟩ := List.getElem?_eq_some_iff.mp hi
    rw [hplace, List.countP_set hlt]
    split_ifs <;> omega
  · rw [hplace]
    exact Nat.le_succ _

theorem countP_set_zero (hsd : slots[i]? = some sd) (hne : sd ≠ 0) :
    (slots.set i 0).countP (· ≠ 0) + 1 = slots.countP (· ≠ 0) := by
  obtain ⟨hlt, hget⟩ := List.getElem?_eq_some_iff.mp hsd
  have hpos : 0 < slots.countP (· ≠ 0) :=
    List.countP_pos_iff.mpr ⟨sd, List.mem_of_getElem? hsd, decide_eq_true hne⟩
  rw [List.countP_set hlt, hget, if_pos (decide_eq_true hne), if_neg (by decide)]
  omega

end Places

/-! ## The clients -/

section Step

variable {site : Site ι} {s t : State ι}

omit [DecidableEq ι] in
theorem ConnOk.ne_zero (hs : ConnOk s) {sd : ℕ} {c : ι} (hsd : s.conn sd = some c) : sd ≠ 0 := by
  rintro rfl
  exact absurd (hs.zero.symm.trans hsd) nofun

/-- Only finitely many clients have connected. -/
theorem finite_connected (h : (system site).Reachable s) : {c | s.phase c ≠ .absent}.Finite := by
  refine h.invariant (I := fun s => {c | s.phase c ≠ .absent}.Finite) ?_ ?_
  · rintro _ rfl
    exact Set.finite_empty.subset fun c hc => absurd rfl hc
  · intro s a t hs hfinite hstep
    have hupdate : ∀ (c : ι) (phase : Phase),
        {c' | Function.update s.phase c phase c' ≠ .absent}.Finite := by
      intro c phase
      refine (hfinite.insert c).subset fun c' hc' => ?_
      by_cases heq : c' = c
      · exact .inl heq
      · replace hc' : Function.update s.phase c phase c' ≠ .absent := hc'
        rw [Function.update_of_ne heq] at hc'
        exact .inr hc'
    cases move_of_step (ledger_of_reachable hs) hstep with
    | connect | send | recv | close => exact hupdate _ _
    | _ => exact hfinite

theorem finite_clientWork (h : (system site).Reachable s) : s.clientWork.support.Finite := by
  refine (finite_connected h).subset fun c hc habsent => hc ?_
  have hpending := (ledger_of_reachable h).pending c
  rw [habsent, if_neg (by decide)] at hpending
  unfold State.clientWork
  rw [habsent, List.length_eq_zero_iff.mp (by omega : (s.up c).length = 0)]
  rfl

omit [DecidableEq ι] in
/-- A step in which one client, or its connection, has its share. -/
theorem work_add (hs : s.clientWork.support.Finite) {c : ι}
    (hphase : ∀ c' ≠ c, t.phase c' = s.phase c') (hup : ∀ c' ≠ c, t.up c' = s.up c') :
    ∑ᶠ c', t.clientWork c' + s.clientWork c = ∑ᶠ c', s.clientWork c' + t.clientWork c := by
  refine finsum_add_of_eq hs fun c' hc' => ?_
  unfold State.clientWork
  rw [hphase c' hc', hup c' hc']

/-- A step of a client: what is left is what it has gained and lost itself. -/
theorem left_client (hs : s.clientWork.support.Finite) {c : ι} {phase : Phase}
    (hphase : t.phase = Function.update s.phase c phase) (hup : ∀ c' ≠ c, t.up c' = s.up c')
    (hserver : t.server = s.server) (hpc : t.pc = s.pc) (lost gained : ℕ)
    (hwork : phase.left + (t.up c).length + 2 * t.backlog.length + lost =
      (s.phase c).left + (s.up c).length + 2 * s.backlog.length + gained) :
    t.left + 33 * lost = s.left + 33 * gained := by
  have hothers : ∀ c' ≠ c, t.phase c' = s.phase c' := by
    intro c' hc'
    rw [hphase, Function.update_of_ne hc']
  have hsum := work_add hs hothers hup
  have hbefore : s.clientWork c = (s.phase c).left + (s.up c).length := rfl
  have hafter : t.clientWork c = phase.left + (t.up c).length := by
    unfold State.clientWork
    rw [hphase, Function.update_self]
  unfold State.left State.work
  rw [hserver, hpc]
  omega

omit [DecidableEq ι] in
/-- The server passes on what it is at. -/
theorem left_lt_of_turn (hwork : t.work = s.work)
    (hturn : t.pc.turn t.server.clientSocket < s.pc.turn s.server.clientSocket) :
    t.left < s.left := by
  unfold State.left
  omega

omit [DecidableEq ι] in
/-- Something is done, after which the loop may have to start again. -/
theorem left_lt_of_work (hwork : t.work < s.work)
    (hturn : t.pc.turn t.server.clientSocket ≤ s.pc.turn s.server.clientSocket + 32) :
    t.left < s.left := by
  unfold State.left
  omega

/-- A message that is read is one thing less to do. -/
theorem work_message (hs : s.clientWork.support.Finite) {c : ι} {m : Text} {rest : List Text}
    (hup : s.up c = m :: rest) :
    ({ s with up := Function.update s.up c rest } : State ι).work < s.work := by
  have hsum := work_add hs (c := c) (t := { s with up := Function.update s.up c rest })
    (fun _ _ => rfl) (fun c' hc' => Function.update_of_ne hc' _ _)
  have hbefore : s.clientWork c = (s.phase c).left + (rest.length + 1) := by
    rw [State.clientWork, hup, List.length_cons]
  have hafter : ({ s with up := Function.update s.up c rest } : State ι).clientWork c =
      (s.phase c).left + rest.length := by
    show (s.phase c).left + (Function.update s.up c rest c).length = _
    rw [Function.update_self]
  unfold State.work
  dsimp only
  omega

/-- Every step lowers it, but for `connect` and `send`. -/
theorem left_lowers (site : Site ι) :
    (system site).Lowers State.left (fun e => e.2.isInput) 99 := by
  intro s a t hreach hstep
  have hledger := ledger_of_reachable hreach
  have hloop := loopOk_of_reachable hreach
  have hfinite := finite_clientWork hreach
  cases move_of_step hledger hstep with
  | @connect c hphase =>
    have hleft := left_client hfinite (c := c) (t := { s with
      phase := Function.update s.phase c .ready, backlog := s.backlog ++ [c] }) rfl
      (fun _ _ => rfl) rfl rfl 0 3 (by simp [hphase, Phase.left]; omega)
    exact .inr ⟨rfl, hleft.le⟩
  | @send c data hphase htask =>
    have hleft := left_client hfinite (c := c) (t := { s with
      phase := Function.update s.phase c .waiting
      up := Function.update s.up c (s.up c ++ [(site.client c).message data])
      sent := Function.update s.sent c (s.sent c ++ [data]) }) rfl
      (fun c' hc' => Function.update_of_ne hc' _ _) rfl rfl 0 2 (by
        simp [hphase, Phase.left]; omega)
    exact .inr ⟨rfl, by omega⟩
  | @recv c hphase hdown =>
    have hleft := left_client hfinite (c := c) (t := { s with
      phase := Function.update s.phase c .ready
      down := Function.update s.down c []
      seen := Function.update s.seen c (s.seen c ++ [(s.down c).flatten]) }) rfl
      (fun _ _ => rfl) rfl rfl 1 0 (by simp [hphase, Phase.left]; omega)
    exact .inl (by omega)
  | @close c hphase =>
    have hleft := left_client hfinite (c := c) (t := { s with
      phase := Function.update s.phase c .closed }) rfl
      (fun _ _ => rfl) rfl rfl 1 0 (by simp [hphase, Phase.left]; omega)
    exact .inl (by omega)
  | incoming hpc hback =>
    refine .inl (left_lt_of_turn rfl ?_)
    rw [hpc]
    exact Nat.lt_succ_self 32
  | timeout hpc hback hfds =>
    refine .inl (left_lt_of_turn rfl ?_)
    rw [hpc]
    exact Nat.succ_pos 32
  | activity hpc hback hfds =>
    refine .inl (left_lt_of_turn rfl ?_)
    rw [hpc]
    show (if Ahead s.server.clientSocket 0 s.readfds then 31 - 0 else 64 - 0) < 33
    rw [if_pos (ahead_readfds hfds)]
    decide
  | @accept k c backlog readfds hpc hback hne hfree =>
    refine .inl (left_lt_of_work ?_ ?_)
    · have hplaces := countP_place_le k s.server.clientSocket
      show ∑ᶠ c, s.clientWork c +
        (2 * backlog.length + (place k s.server.clientSocket).countP (· ≠ 0)) < s.work
      unfold State.work
      rw [hback, List.length_cons]
      omega
    · rw [hpc]
      exact Pc.turn_slot_le _ 0 readfds
  | @again k i readfds hpc hend =>
    refine .inl (left_lt_of_turn rfl ?_)
    have hi := (hloop.slot i readfds hpc).1
    have hnone : ¬ Ahead s.server.clientSocket i readfds := by
      rintro ⟨sd, hsd, -⟩
      rw [List.drop_eq_nil_of_le (List.getElem?_eq_none_iff.mp hend)] at hsd
      cases hsd
    unfold maxClients at hi
    rw [hpc]
    show 33 < if _ then 31 - i else 64 - i
    rw [if_neg hnone]
    omega
  | @skip k i sd readfds hpc hsd hfds =>
    refine .inl (left_lt_of_turn rfl ?_)
    rw [hpc]
    exact Pc.turn_skip (hloop.lt_of_getElem? hsd) hsd hfds
  | @message k i sd readfds c data rest hpc hsd hfds hconn hup =>
    refine .inl (left_lt_of_work ?_ ?_)
    · exact work_message hfinite hup
    · rw [hpc]
      exact Pc.turn_serve (hloop.lt_of_getElem? hsd) hsd hfds _
  | @disconnect k i sd readfds c hpc hsd hfds hconn hup hphase =>
    refine .inl (left_lt_of_work ?_ ?_)
    · have hplaces := countP_set_zero hsd ((connOk_of_reachable hreach).ne_zero hconn)
      show ∑ᶠ c, s.clientWork c +
        (2 * s.backlog.length + (s.server.clientSocket.set i 0).countP (· ≠ 0)) < s.work
      unfold State.work
      omega
    · rw [hpc]
      exact Pc.turn_serve (hloop.lt_of_getElem? hsd) hsd hfds _

end Step

/-! ## Runs -/

omit [DecidableEq ι] in
theorem left_init : (State.init : State ι).left = 33 := by
  have hsum : ∑ᶠ c, (State.init : State ι).clientWork c = 0 := finsum_zero
  have hwork : (State.init : State ι).work = 0 := by
    unfold State.work
    rw [hsum]
    rfl
  unfold State.left
  rw [hwork]
  rfl

/-- In every run, however the clients behave and even if there are more of them than
    places, there are at most 100 steps for each connection and each line. -/
theorem run_length_le {site : Site ι} {s : State ι} {tr : List (State ι × Action ι)}
    (h : (system site).Run .init tr s) :
    tr.length ≤ 33 + 100 * tr.countP fun e => e.2.isInput := by
  have hlen := System.Run.length_le (left_lowers site) (System.Reachable.of_init rfl) h
  rwa [left_init] at hlen

/-- Two clients that send one line each. -/
theorem run_length_le_answerSecondFirst : ∃ s,
    (system twoClients).exec .init answerSecondFirst = some s ∧
      ((system twoClients).trace .init answerSecondFirst).length ≤
        33 + 100 * ((system twoClients).trace .init answerSecondFirst).countP
          fun e => e.2.isInput := by
  have hsome : ((system twoClients).exec .init answerSecondFirst).isSome = true := by
    decide +kernel
  obtain ⟨s, hexec⟩ := Option.isSome_iff_exists.mp hsome
  exact ⟨s, hexec, run_length_le (System.Run.of_exec hexec)⟩

end Cmput379.Transactions
