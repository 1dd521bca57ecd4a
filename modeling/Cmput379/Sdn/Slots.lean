import Cmput379.Sdn.ControllerLoop

/-!
# The slots of the controller

`socketIdx` grows with every connection, and a connection that ends gives nothing back. The
entry behind the last slot is that of the listening socket.

* `SlotsOk`: every `accept` has stored into a slot, and nothing was overwritten.
* `Numbered`: the indices in the order of the connections.
* `slotsOk_iff`: the runs in which the slots suffice.
-/

namespace Cmput379.Sdn.ControllerLoop

open Cmput379.Lib ControllerState Reconnect

/-- Every index stored into lies in `1..numSwitches`, the listening descriptor is where it
    was, and every connection has kept its slot. -/
structure SlotsOk (numSwitches : ℕ) (st : State) : Prop where
  inRange : ∀ e ∈ st.stored, 1 ≤ e.1 ∧ e.1 ≤ numSwitches
  listener : st.ctrl.pfds (numSwitches + 1) = some mainFd
  kept : ∀ e ∈ st.stored, st.ctrl.pfds e.1 = some e.2

def isAccept : Action → Bool
  | .accept _ => true
  | _ => false

/-- The connections of a run, whether they have ended or not. -/
def accepts (tr : List (State × Action)) : ℕ := tr.countP fun p => isAccept p.2

/-- The connections are numbered in their order; the listening socket is there until its
    entry is stored into. -/
structure Numbered (numSwitches : ℕ) (st : State) : Prop where
  count : st.ctrl.numSwitches = numSwitches
  next : st.ctrl.socketIdx = st.stored.length + 1
  range : ∀ e ∈ st.stored, 1 ≤ e.1 ∧ e.1 < st.ctrl.socketIdx
  kept : ∀ e ∈ st.stored, st.ctrl.pfds e.1 = some e.2
  listener : st.stored.length ≤ numSwitches → st.ctrl.pfds (numSwitches + 1) = some mainFd
  overrun : numSwitches < st.stored.length → ∃ e ∈ st.stored, e.1 = numSwitches + 1

section Steps

variable {numSwitches : ℕ} {st : State}

theorem numbered_init (numSwitches : ℕ) : Numbered numSwitches (init numSwitches) where
  count := rfl
  next := rfl
  range := by simp [init]
  kept := by simp [init]
  listener := by
    intro _
    exact Function.update_self ..
  overrun := by
    intro h
    cases h

/-- Only `accept` stores. -/
theorem Numbered.congr {st' : State} (h : Numbered numSwitches st)
    (hpfds : st'.ctrl.pfds = st.ctrl.pfds) (hidx : st'.ctrl.socketIdx = st.ctrl.socketIdx)
    (hnum : st'.ctrl.numSwitches = st.ctrl.numSwitches) (hstored : st'.stored = st.stored) :
    Numbered numSwitches st' := by
  obtain ⟨num, next, range, kept, listener, overrun⟩ := h
  constructor
  · rw [hnum, num]
  · rw [hidx, hstored, next]
  · rw [hidx, hstored]
    exact range
  · rw [hpfds, hstored]
    exact kept
  · rw [hpfds, hstored]
    exact listener
  · rw [hstored]
    exact overrun

/-- A new connection goes behind all others. -/
theorem Numbered.accept (h : Numbered numSwitches st) (fd : ℕ) :
    Numbered numSwitches (st.accept fd) := by
  have hnext := h.next
  have hpfds : ∀ i, i < st.ctrl.socketIdx → (st.accept fd).ctrl.pfds i = st.ctrl.pfds i := by
    intro i hi
    exact Function.update_of_ne (by omega) ..
  constructor
  · exact h.count
  · show st.ctrl.socketIdx + 1 = ((st.stored ++ [(st.ctrl.socketIdx, fd)]).length : ℤ) + 1
    simp [hnext]
  · intro e he
    show 1 ≤ e.1 ∧ e.1 < st.ctrl.socketIdx + 1
    rcases List.mem_append.mp he with he | he
    · have := h.range e he
      omega
    · obtain rfl := List.mem_singleton.mp he
      dsimp only
      omega
  · intro e he
    rcases List.mem_append.mp he with he | he
    · rw [hpfds e.1 (h.range e he).2]
      exact h.kept e he
    · obtain rfl := List.mem_singleton.mp he
      exact Function.update_self ..
  · intro hlength
    have hlt : st.stored.length < numSwitches := by
      simpa [State.accept, Nat.succ_le_iff] using hlength
    have hother : (numSwitches : ℤ) + 1 ≠ st.ctrl.socketIdx := by omega
    show Function.update st.ctrl.pfds st.ctrl.socketIdx (some fd) _ = _
    rw [Function.update_of_ne hother]
    exact h.listener hlt.le
  · intro hlength
    have hle : numSwitches ≤ st.stored.length := by
      simpa [State.accept, Nat.lt_succ_iff] using hlength
    rcases hle.lt_or_eq with hlt | heq
    · obtain ⟨e, he, hfst⟩ := h.overrun hlt
      exact ⟨e, List.mem_append_left _ he, hfst⟩
    · refine ⟨(st.ctrl.socketIdx, fd), List.mem_append_right _ (List.mem_singleton_self _), ?_⟩
      dsimp only
      omega

theorem numbered_move {a : Action} {st' : State} (h : Numbered numSwitches st)
    (hmove : Move st a st') : Numbered numSwitches st' ∧
      st'.stored.length = st.stored.length + if isAccept a then 1 else 0 := by
  cases hmove with
  | accept fd hlistener hfd => exact ⟨h.accept fd, by simp [State.accept, isAccept]⟩
  | receive i packetString r hi hr =>
    obtain ⟨hpfds, hidx, hnum⟩ := handleText_slots hr
    exact ⟨h.congr hpfds hidx hnum rfl, rfl⟩
  | hangUp i fd hi hfd hopen => exact ⟨h.congr rfl rfl rfl rfl, rfl⟩

end Steps

section Runs

variable {numSwitches : ℕ} {st : State} {tr : List (State × Action)}

/-- Every connection of the run has been stored. -/
theorem numbered_of_run (h : (system numSwitches).Run (init numSwitches) tr st) :
    Numbered numSwitches st ∧ st.stored.length = accepts tr := by
  induction h with
  | nil => exact ⟨numbered_init numSwitches, rfl⟩
  | snoc _ hstep ih =>
    obtain ⟨hnumbered, hlength⟩ := ih
    obtain ⟨hnumbered', hlength'⟩ := numbered_move hnumbered (move_of_step hstep)
    refine ⟨hnumbered', ?_⟩
    rw [hlength', hlength]
    simp [accepts, List.countP_append, List.countP_singleton]

/-- The slots suffice for `numSwitches` connections over the whole run. -/
theorem slotsOk_iff (h : (system numSwitches).Run (init numSwitches) tr st) :
    SlotsOk numSwitches st ↔ accepts tr ≤ numSwitches := by
  obtain ⟨hnumbered, hlength⟩ := numbered_of_run h
  rw [← hlength]
  constructor
  · intro hok
    by_contra hmany
    obtain ⟨e, he, hfst⟩ := hnumbered.overrun (by omega)
    have := hok.inRange e he
    omega
  · intro hfew
    constructor
    · intro e he
      have hrange := hnumbered.range e he
      have hnext := hnumbered.next
      omega
    · exact hnumbered.listener hfew
    · exact hnumbered.kept

end Runs

/-- A controller for one switch: a switch connects and leaves, and another one connects. -/
def cameBack : List Action := [.accept 4, .hangUp 1, .accept 4]

theorem exec_cameBack : ∃ st, (system 1).exec (init 1) cameBack = some st ∧
    st.stored = [(1, 4), (2, 4)] ∧ st.ctrl.pfds 2 = some 4 := by
  have hrun : ((system 1).exec (init 1) cameBack).map (fun st =>
      decide (st.stored = [(1, 4), (2, 4)] ∧ st.ctrl.pfds 2 = some 4)) = some true := by
    decide +kernel
  exact System.exists_of_exec hrun

/-- The second connection takes the place of the listening socket. -/
theorem slotsOk_counterexample : ∃ st, (system 1).Reachable st ∧
    st.stored = [(1, 4), (2, 4)] ∧ st.ctrl.pfds 2 = some 4 ∧ ¬ SlotsOk 1 st := by
  obtain ⟨st, hexec, hstored, hlistener⟩ := exec_cameBack
  refine ⟨st, .of_exec rfl hexec, hstored, hlistener, ?_⟩
  intro hok
  have hrange := hok.inRange (2, 4) (by rw [hstored]; simp)
  omega

/-- A controller for three switches: the second one leaves and comes back. -/
def threeSlots : List Action :=
  [.accept 4, .accept 5, .receive 1 (SwitchState.openPacket ex2Switch1).text,
    .receive 2 (SwitchState.openPacket ex2Switch2).text, .hangUp 2, .accept 5,
    .receive 1 (Packet.QUERY 100 200).text]

theorem slotsOk_iff_threeSlots : ∃ st, (system 3).exec (init 3) threeSlots = some st ∧
    st.stored = [(1, 4), (2, 5), (3, 5)] ∧ SlotsOk 3 st := by
  have hrun : ((system 3).exec (init 3) threeSlots).map (fun st =>
      decide (st.stored = [(1, 4), (2, 5), (3, 5)])) = some true := by
    decide +kernel
  obtain ⟨st, hexec, hstored⟩ := System.exists_of_exec hrun
  exact ⟨st, hexec, hstored, (slotsOk_iff (.of_exec hexec)).mpr (by decide +kernel)⟩

end Cmput379.Sdn.ControllerLoop
