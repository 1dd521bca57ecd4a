import Cmput379.Transactions.Accounts

/-!
# Which sockets the transaction server serves

The sockets that `accept` has returned and that are not closed, against the 30 places of
`client_socket`. A socket that finds no free place is dropped (lines 152-161): it stays
open, and no `select` looks at it again.

* `Served.transition`: with a free place at every `accept`, each open socket has one.
* `slotsExact_iff`: that is exactly what it takes.
-/

namespace Cmput379.Transactions

open Cmput379.Lib

variable {ι : Type} [DecidableEq ι]

/-! ## Specification -/

/-- The non-zero entries are distinct, and they are the open sockets, each in one place. -/
structure SlotsExact (s : State ι) : Prop where
  opened : ∀ sd ∈ s.server.clientSocket, sd ≠ 0 → (s.conn sd).isSome
  distinct : ∀ (i j sd : ℕ), s.server.clientSocket[i]? = some sd →
    s.server.clientSocket[j]? = some sd → sd ≠ 0 → i = j
  served : ∀ sd : ℕ, (s.conn sd).isSome → ∃ i : ℕ, s.server.clientSocket[i]? = some sd ∧
    ∀ j : ℕ, s.server.clientSocket[j]? = some sd → j = i

/-- The step from `s` to `t` is an `accept`. -/
def Accepts (s t : State ι) : Prop := ∃ sd, s.conn sd = none ∧ (t.conn sd).isSome

/-! ## The free place -/

theorem mem_place {newSocket : ℕ} {slots : List ℕ} (h : 0 ∈ slots) :
    newSocket ∈ place newSocket slots := by
  induction slots with
  | nil => exact absurd h List.not_mem_nil
  | cons sd slots ih =>
    unfold place
    split_ifs with hsd
    · exact List.mem_cons_self
    · exact List.mem_cons_of_mem _ (ih ((List.mem_cons.mp h).resolve_left (Ne.symm hsd)))

theorem mem_place_of_mem {newSocket sd : ℕ} {slots : List ℕ} (hne : sd ≠ 0) (h : sd ∈ slots) :
    sd ∈ place newSocket slots := by
  induction slots with
  | nil => exact absurd h List.not_mem_nil
  | cons sd' slots ih =>
    unfold place
    split_ifs with hsd
    · exact List.mem_cons_of_mem _ ((List.mem_cons.mp h).resolve_left (hsd ▸ hne))
    · rcases List.mem_cons.mp h with rfl | h
      · exact List.mem_cons_self
      · exact List.mem_cons_of_mem _ (ih h)

/-- In a full array nothing changes. -/
theorem place_of_full {newSocket : ℕ} {slots : List ℕ} (h : 0 ∉ slots) :
    place newSocket slots = slots := by
  rcases place_cases newSocket slots with ⟨i, hi, -⟩ | hplace
  · exact absurd (List.mem_of_getElem? hi) h
  · exact hplace

/-! ## The open sockets -/

section Conn

variable {conn : ℕ → Option ι} {k j : ℕ}

omit [DecidableEq ι] in
theorem isSome_update_some {c : ι} (h : (Function.update conn k (some c) j).isSome) :
    j = k ∨ (conn j).isSome := by
  by_cases hj : j = k
  · exact .inl hj
  · rw [Function.update_of_ne hj] at h
    exact .inr h

omit [DecidableEq ι] in
theorem isSome_update_none (h : (Function.update conn k none j).isSome) :
    j ≠ k ∧ (conn j).isSome := by
  by_cases hj : j = k
  · rw [hj, Function.update_self] at h
    cases h
  · rw [Function.update_of_ne hj] at h
    exact ⟨hj, h⟩

end Conn

/-! ## The invariant -/

/-- Every open socket has a place. -/
def Served (s : State ι) : Prop :=
  ∀ sd, (s.conn sd).isSome → sd ≠ 0 ∧ sd ∈ s.server.clientSocket

section Step

variable {site : Site ι} {s t : State ι}

omit [DecidableEq ι] in
theorem Served.slotsExact (h : Served s) (hok : SlotsOk s) : SlotsExact s where
  opened := hok.opened
  distinct := hok.distinct
  served sd hopen := by
    obtain ⟨hne, hmem⟩ := h sd hopen
    obtain ⟨i, hi⟩ := List.mem_iff_getElem?.mp hmem
    exact ⟨i, hi, fun j hj => hok.distinct j i sd hj hi hne⟩

omit [DecidableEq ι] in
/-- Only `accept` and `close` change which sockets are open. -/
theorem Served.congr (h : Served s) (hconn : t.conn = s.conn)
    (hslots : t.server.clientSocket = s.server.clientSocket) : Served t := by
  unfold Served
  rw [hconn, hslots]
  exact h

theorem Served.transition (h : Served s) (hfree : Accepts s t → 0 ∈ s.server.clientSocket)
    (hstep : Transition site s t) : Served t := by
  cases hstep with
  | @accept newSocket c backlog pc hpc hne hclosed =>
    have hplace : 0 ∈ s.server.clientSocket := by
      refine hfree ⟨newSocket, hclosed, ?_⟩
      show (Function.update s.conn newSocket (some c) newSocket).isSome
      rw [Function.update_self]
      rfl
    intro sd hopen
    rcases isSome_update_some hopen with rfl | hold
    · exact ⟨hne, mem_place hplace⟩
    · obtain ⟨hzero, hmem⟩ := h sd hold
      exact ⟨hzero, mem_place_of_mem hzero hmem⟩
  | @disconnect i sd₀ pc hpc hsd₀ =>
    -- the place that is freed is that of the socket that is closed
    intro sd hopen
    obtain ⟨hsd, hold⟩ := isSome_update_none hopen
    obtain ⟨hzero, hmem⟩ := h sd hold
    obtain ⟨j, hj⟩ := List.mem_iff_getElem?.mp hmem
    have hij : i ≠ j := by
      rintro rfl
      exact hsd (Option.some.inj (hj.symm.trans hsd₀))
    refine ⟨hzero, List.mem_of_getElem? (i := j) ?_⟩
    show (s.server.clientSocket.set i 0)[j]? = some sd
    rw [List.getElem?_set_ne hij]
    exact hj
  | @message c m rest pc hpc hup =>
    obtain ⟨hslots, hconn, -⟩ :=
      transact_frame { s with pc := pc, up := Function.update s.up c rest } c m
    exact h.congr hconn hslots
  | _ => exact h.congr rfl rfl

/-- A socket that is accepted without a free place is not served. -/
theorem zero_mem_of_slotsExact (hok : SlotsOk s) (hstep : Transition site s t)
    (haccepts : Accepts s t) (h : SlotsExact t) : 0 ∈ s.server.clientSocket := by
  obtain ⟨sd, hclosed, hopen⟩ := haccepts
  have hsame : t.conn = s.conn → 0 ∈ s.server.clientSocket := by
    intro hconn
    rw [hconn, hclosed] at hopen
    cases hopen
  cases hstep with
  | @accept newSocket c backlog pc hpc hne hnew =>
    by_contra hfull
    obtain rfl : sd = newSocket := by
      refine (isSome_update_some hopen).resolve_right fun hold => ?_
      rw [hclosed] at hold
      cases hold
    obtain ⟨i, hi, -⟩ := h.served sd hopen
    replace hi : (place sd s.server.clientSocket)[i]? = some sd := hi
    rw [place_of_full hfull] at hi
    have hbefore := hok.opened sd (List.mem_of_getElem? hi) hne
    rw [hclosed] at hbefore
    cases hbefore
  | @disconnect i sd₀ pc hpc hsd₀ =>
    have hold := (isSome_update_none hopen).2
    rw [hclosed] at hold
    cases hold
  | @message c m rest pc hpc hup =>
    exact hsame (transact_frame { s with pc := pc, up := Function.update s.up c rest } c m).2.1
  | _ => exact hsame rfl

end Step

/-! ## Runs -/

omit [DecidableEq ι] in
theorem served_init : Served (.init : State ι) := fun _ hopen => by cases hopen

/-- In every run: the places are right after each step iff at each `accept` one is free. -/
theorem slotsExact_iff {site : Site ι} {s : State ι} {tr : List (State ι × Action ι)}
    (h : (system site).Run .init tr s) :
    (∀ p ∈ tr, ∀ t, step site p.1 p.2 = some t → SlotsExact t) ↔
      ∀ p ∈ tr, ∀ t, step site p.1 p.2 = some t → Accepts p.1 t →
        0 ∈ p.1.server.clientSocket := by
  constructor
  · intro hexact p hp t hstep haccepts
    obtain ⟨tr', u, hrun, -⟩ := h.of_mem hp
    have hok := slotsOk_of_reachable (⟨.init, tr', rfl, hrun⟩ : (system site).Reachable p.1)
    exact zero_mem_of_slotsExact hok (transition_of_step hstep) haccepts (hexact p hp t hstep)
  · intro hfree
    have hserved : Served s ∧ ∀ p ∈ tr, ∀ t, step site p.1 p.2 = some t → SlotsExact t := by
      induction h with
      | nil => exact ⟨served_init, fun _ hp => absurd hp List.not_mem_nil⟩
      | @snoc tr u v a hrun hlast ih =>
        obtain ⟨hu, hfront⟩ := ih fun p hp => hfree p (List.mem_append_left _ hp)
        have hnext : ∀ t, step site u a = some t → Served t := fun t ht =>
          hu.transition (hfree (u, a) (by simp) t ht) (transition_of_step ht)
        refine ⟨hnext v hlast, fun p hp t ht => ?_⟩
        rcases List.mem_append.mp hp with hp | hp
        · exact hfront p hp t ht
        · obtain rfl := List.mem_singleton.mp hp
          have hreach : (system site).Reachable t := ⟨.init, _, rfl, .snoc hrun ht⟩
          exact (hnext t ht).slotsExact (slotsOk_of_reachable hreach)
    exact hserved.2

/-- A client for every pid. -/
def manyClients : Site ℕ where
  client c := ⟨"ui".toList, c⟩
  comma _ := comma_not_mem_ui
  injective c c' h := by
    have hkey : "ui.".toList ++ intText c = "ui.".toList ++ intText c' := h
    exact Int.ofNat.inj (intText_injective (List.append_cancel_left hkey))

/-- One turn of the loop in which a connection is accepted as `newSocket`. -/
def acceptTurn (newSocket : ℕ) : List (Action ℕ) :=
  [.server 0, .server newSocket] ++ List.replicate (maxClients + 1) (.server 0)

theorem slotsExact_iff_acceptTurn : ∃ s, (system manyClients).exec .init
      (.connect 0 :: acceptTurn 4) = some s ∧
    ((∀ p ∈ (system manyClients).trace .init (.connect 0 :: acceptTurn 4), ∀ t,
        step manyClients p.1 p.2 = some t → SlotsExact t) ↔
      ∀ p ∈ (system manyClients).trace .init (.connect 0 :: acceptTurn 4), ∀ t,
        step manyClients p.1 p.2 = some t → Accepts p.1 t → 0 ∈ p.1.server.clientSocket) := by
  have hrun : ((system manyClients).exec .init (.connect 0 :: acceptTurn 4)).isSome = true := by
    decide +kernel
  obtain ⟨s, hexec⟩ := Option.isSome_iff_exists.mp hrun
  exact ⟨s, hexec, slotsExact_iff (System.Run.of_exec hexec)⟩

/-- One connection more than there are places. -/
def oneTooMany : List (Action ℕ) :=
  (List.range (maxClients + 1)).map Action.connect ++
    (List.range (maxClients + 1)).flatMap fun (c : ℕ) => acceptTurn (c + 4)

theorem slotsExact_counterexample : ∃ s, (system manyClients).Reachable s ∧ ¬ SlotsExact s := by
  have hrun : ((system manyClients).exec .init oneTooMany).map
      (fun s => decide ((s.conn 34).isSome = true ∧ 34 ∉ s.server.clientSocket)) =
        some true := by
    decide +kernel
  obtain ⟨s, hexec, hopen, hmem⟩ := System.exists_of_exec hrun
  refine ⟨s, .of_exec rfl hexec, fun h => ?_⟩
  obtain ⟨i, hi, -⟩ := h.served 34 hopen
  exact hmem (List.mem_of_getElem? hi)

end Cmput379.Transactions
