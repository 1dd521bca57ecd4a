import Cmput379.Sdn.Descriptors

/-!
# The controller alone

The loop of `test2/controller.cpp` where connections come and go at any time, and where every
read may find any string in the buffer. `accept` may return any number that is not in use; a
slot without connection is not ready.

* `step`: a connection is accepted, one string is handled, or a connection has ended.
* `handleText_cases`: the three ways in which a string is handled.
-/

namespace Cmput379.Sdn.ControllerLoop

open Cmput379.Lib ControllerState Reconnect

/-- The loop, the descriptors in use, and every packet written, with its descriptor;
    `stored` records the index and the descriptor of every `accept`. -/
structure State where
  ctrl : ControllerState ℕ
  isOpen : ℕ → Bool
  written : List (ℕ × Packet)
  stored : List (ℤ × ℕ)

/-- `accept` returns `fd`; slot `i` is ready and `packetString` is in the buffer after the
    read; slot `i` is at its end. -/
inductive Action
  | accept (fd : ℕ)
  | receive (i : ℤ) (packetString : Text)
  | hangUp (i : ℤ)

def init (numSwitches : ℕ) : State where
  ctrl := .init numSwitches stdinFd mainFd
  isOpen := fun fd => fd ≤ mainFd
  written := []
  stored := []

/-- Lines 306-325. -/
def State.accept (st : State) (fd : ℕ) : State :=
  { st with
    ctrl := st.ctrl.accept fd
    isOpen := Function.update st.isOpen fd true
    stored := st.stored ++ [(st.ctrl.socketIdx, fd)] }

/-- Lines 229-300. -/
def State.after (st : State) (r : ControllerState ℕ × List (ℕ × Packet)) : State :=
  { st with ctrl := r.1, written := st.written ++ r.2 }

/-- Lines 222-226. -/
def State.close (st : State) (i : ℤ) (fd : ℕ) : State :=
  { st with
    ctrl := { st.ctrl with closed := st.ctrl.closed ++ [i] }
    isOpen := Function.update st.isOpen fd false }

/-- `for (int i = 1; i <= numSwitches; i++)`. -/
def IsSlot (c : ControllerState ℕ) (i : ℤ) : Prop := 1 ≤ i ∧ i ≤ c.numSwitches

instance (c : ControllerState ℕ) (i : ℤ) : Decidable (IsSlot c i) :=
  inferInstanceAs (Decidable (_ ∧ _))

/-- `int mainSocket = pfdsSize - 1`. -/
def mainSocket (c : ControllerState ℕ) : ℤ := c.numSwitches + 1

/-- `accept` succeeds on the listening socket only. -/
def step (st : State) : Action → Option State
  | .accept fd =>
    if st.ctrl.pfds (mainSocket st.ctrl) = some mainFd ∧ st.isOpen fd = false then
      some (st.accept fd)
    else none
  | .receive i packetString =>
    if IsSlot st.ctrl i ∧ (st.ctrl.pfds i).isSome then
      (st.ctrl.handleText i packetString).map st.after
    else none
  | .hangUp i =>
    match st.ctrl.pfds i with
    | some fd => if IsSlot st.ctrl i ∧ st.isOpen fd = true then some (st.close i fd) else none
    | none => none

/-- A controller for `numSwitches` switches. -/
def system (numSwitches : ℕ) : System State Action where
  init st := st = init numSwitches
  step := step

/-! ## Handling a string -/

/-- A string is handled as an OPEN, as a QUERY, or not at all. -/
theorem handleText_cases {c : ControllerState ℕ} {i : ℤ} {packetString : Text}
    {r : ControllerState ℕ × List (ℕ × Packet)} (h : c.handleText i packetString = some r) :
    (∃ info, (parsePacketString packetString).1 = "OPEN".toList ∧ r = c.handleOpen i info) ∨
    (∃ srcIp destIp, (parsePacketString packetString).1 = "QUERY".toList ∧
      (parsePacketString packetString).2[0]? = some srcIp ∧
      (parsePacketString packetString).2[1]? = some destIp ∧
      r = c.handleQuery i srcIp destIp) ∨
    ((parsePacketString packetString).1 ≠ "OPEN".toList ∧
      (parsePacketString packetString).1 ≠ "QUERY".toList ∧ r = (c, [])) := by
  unfold handleText handlePacket at h
  simp only [Option.bind_eq_bind, Option.pure_def, Option.bind_eq_some_iff] at h
  obtain ⟨line, -, h⟩ := h
  split_ifs at h with hopen hquery
  · simp only [Option.bind_eq_some_iff] at h
    obtain ⟨id, -, port1Id, -, port2Id, -, ipLow, -, ipHigh, -, h⟩ := h
    cases h
    exact .inl ⟨_, hopen, rfl⟩
  · simp only [Option.bind_eq_some_iff] at h
    obtain ⟨srcIp, hsrc, destIp, hdest, h⟩ := h
    cases h
    exact .inr (.inl ⟨srcIp, destIp, hquery, hsrc, hdest, rfl⟩)
  · cases h
    exact .inr (.inr ⟨hopen, hquery, rfl⟩)

/-- No string changes the slots. -/
theorem handleText_slots {c : ControllerState ℕ} {i : ℤ} {packetString : Text}
    {r : ControllerState ℕ × List (ℕ × Packet)} (h : c.handleText i packetString = some r) :
    r.1.pfds = c.pfds ∧ r.1.socketIdx = c.socketIdx ∧ r.1.numSwitches = c.numSwitches := by
  rcases handleText_cases h with ⟨info, -, rfl⟩ | ⟨srcIp, destIp, -, -, -, rfl⟩ | ⟨-, -, rfl⟩
  · exact ⟨rfl, rfl, rfl⟩
  · unfold handleQuery
    dsimp only
    split_ifs <;> exact ⟨rfl, rfl, rfl⟩
  · exact ⟨rfl, rfl, rfl⟩

/-! ## Steps -/

/-- What a step can do. -/
inductive Move (st : State) : Action → State → Prop
  | accept (fd : ℕ) (hlistener : st.ctrl.pfds (mainSocket st.ctrl) = some mainFd)
      (hfd : st.isOpen fd = false) : Move st (.accept fd) (st.accept fd)
  | receive (i : ℤ) (packetString : Text) (r : ControllerState ℕ × List (ℕ × Packet))
      (hi : IsSlot st.ctrl i) (hr : st.ctrl.handleText i packetString = some r) :
      Move st (.receive i packetString) (st.after r)
  | hangUp (i : ℤ) (fd : ℕ) (hi : IsSlot st.ctrl i) (hfd : st.ctrl.pfds i = some fd)
      (hopen : st.isOpen fd = true) : Move st (.hangUp i) (st.close i fd)

theorem move_of_step {st st' : State} {a : Action} (h : step st a = some st') :
    Move st a st' := by
  cases a with
  | accept fd =>
    simp only [step] at h
    split_ifs at h with hguard
    cases h
    exact .accept fd hguard.1 hguard.2
  | receive i packetString =>
    simp only [step] at h
    split_ifs at h with hguard
    obtain ⟨r, hr, rfl⟩ := Option.map_eq_some_iff.mp h
    exact .receive i packetString r hguard.1 hr
  | hangUp i =>
    simp only [step] at h
    split at h
    · rename_i fd hfd
      split_ifs at h with hguard
      cases h
      exact .hangUp i fd hguard.1 hfd hguard.2
    · cases h

end Cmput379.Sdn.ControllerLoop
