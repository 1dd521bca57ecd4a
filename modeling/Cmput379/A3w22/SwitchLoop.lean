import Cmput379.A3w22.Switch

/-!
# The moves of `switchLoop`

What a turn of the loop and a received packet can do to the variables of `switchLoop`.

* `AdmitMove`, `admitMove_of_admitPacket`: a packet is admitted.
* `TurnMove`, `turnMove_of_turn`: a turn reads a line, or nothing.
* `ReceiveMove`, `receiveMove_of_handlePacket`: a packet is received.
* `ownRule_of_turn`, `ownRule_of_handlePacket`: the rule for the switch's own range
  stays in the table.
* `not_own_of_turn`: so it never asks for one of its own addresses.
-/

namespace Cmput379.A3w22

open Cmput379.Lib

theorem isInt_zero (_ : ℕ) : IsInt 0 := by decide

/-- Nothing is behind the elements of a vector. -/
def Memory.zero : Memory := ⟨fun _ => 0, isInt_zero⟩

def FowardRule.zero : FowardRule := ⟨0, 0, 0, 0, .DROP, 0, 0⟩

namespace SwitchState

/-- The line that a turn reads. -/
def nextLine (s : SwitchState) : Option Text :=
  if s.Gate ∧ s.isOpen then s.lines.head? else none

theorem nextLine_eq_some {s : SwitchState} {line : Text} :
    s.nextLine = some line ↔ s.Gate ∧ s.isOpen ∧ ∃ lines, s.lines = line :: lines := by
  unfold nextLine
  rw [← and_assoc]
  split_ifs with hopen
  · rw [List.head?_eq_some_iff, and_iff_right hopen]
  · exact iff_of_false nofun fun h => hopen h.1

/-! ## Admitted packets -/

/-- Descriptors are added. -/
def Extends (fdid fdid' : ℤ → Option Fd) : Prop :=
  ∀ port fd, fdid port = some fd → fdid' port = some fd

/-- A RELAY leaves everything else as it is. -/
theorem relay_eq (s : SwitchState) (id port srcIp destIp : ℤ) : ∃ fdid fd,
    Extends s.fdid fdid ∧ s.relay id port srcIp destIp =
      ({ s with
          fdid := fdid
          counts := { s.counts with relayOut := s.counts.relayOut + 1 } },
        [(fd, .RELAY srcIp destIp)]) := by
  unfold relay openFifo
  split_ifs with hsome
  · exact ⟨s.fdid, _, fun _ _ h => h, rfl⟩
  · refine ⟨_, _, ?_, rfl⟩
    intro port' fd hfd
    have hne : port' ≠ port := by
      rintro rfl
      exact hsome (by rw [hfd]; rfl)
    exact (Function.update_of_ne hne _ _).trans hfd

/-- `param.pktCount++` for the rule at `k`. -/
def countHit (s : SwitchState) (k : ℕ) (param : FowardRule) : List FowardRule :=
  s.fowardTable.set k { param with pktCount := param.pktCount + 1 }

/-- A packet is admitted: it matches a rule, and may be relayed, or it is asked about. -/
inductive AdmitMove (s : SwitchState) : SwitchState × Writes → Prop
  | hit (k : ℕ) (param : FowardRule) (hk : s.fowardTable[k]? = some param) :
      AdmitMove s
        ({ s with
            fowardTable := s.countHit k param
            counts := { s.counts with admit_ := s.counts.admit_ + 1 } }, [])
  | relay (k : ℕ) (param : FowardRule) (hk : s.fowardTable[k]? = some param)
      (fdid : ℤ → Option Fd) (fd : Fd) (srcIp destIp : ℤ) (hfdid : Extends s.fdid fdid) :
      AdmitMove s
        ({ s with
            fowardTable := s.countHit k param
            fdid := fdid
            counts := { s.counts with
              admit_ := s.counts.admit_ + 1, relayOut := s.counts.relayOut + 1 } },
          [(fd, .RELAY srcIp destIp)])
  | ask (srcIp destIp : ℤ) (hno : ∀ param ∈ s.fowardTable, ¬ param.Covers destIp) :
      AdmitMove s
        ({ s with
            addReceived := false
            counts := { s.counts with
              admit_ := s.counts.admit_ + 1, ask := s.counts.ask + 1 } },
          [(s.fdAt 0, .ASK srcIp destIp)])

theorem find?_eq_getElem? {α : Type} {p : α → Bool} {l : List α} {a : α}
    (h : l.find? p = some a) : l[l.findIdx p]? = some a := by
  rw [← h, List.find?_eq_getElem?_findIdx]

theorem admitMove_of_admitPacket (s : SwitchState) (id srcIp destIp : ℤ) :
    s.AdmitMove (s.admitPacket id srcIp destIp) := by
  unfold admitPacket
  dsimp only
  split
  · rename_i param hparam
    have hk := find?_eq_getElem? hparam
    split
    · exact .hit _ param hk
    · split_ifs
      · obtain ⟨fdid, fd, hfdid, hrelay⟩ := relay_eq _ id _ srcIp destIp
        rw [hrelay]
        exact .relay _ param hk fdid fd srcIp destIp hfdid
      · exact .hit _ param hk
  · rename_i hnone
    refine .ask srcIp destIp fun param hmem hcovers => ?_
    exact List.find?_eq_none.mp hnone param hmem (decide_eq_true hcovers)

theorem AdmitMove.admit_eq {s : SwitchState} {r : SwitchState × Writes} (h : s.AdmitMove r) :
    r.1.counts.admit_ = s.counts.admit_ + 1 := by
  cases h <;> rfl

theorem AdmitMove.lines_eq {s : SwitchState} {r : SwitchState × Writes} (h : s.AdmitMove r) :
    r.1.lines = s.lines := by
  cases h <;> rfl

/-! ## Turns -/

/-- A turn reads a line, or nothing; at the end of the file it closes the file. The `id` of
    a line is compared with itself, so the line is never for another switch. -/
inductive TurnMove (s : SwitchState) : SwitchState × Writes → Prop
  | idle (isOpen : Bool) (hline : s.nextLine = none) (hopen : isOpen = s.isOpen ∨ s.lines = []) :
      TurnMove s ({ s with isOpen := isOpen }, [])
  | skip (line : Text) (lines : List Text) (hline : s.nextLine = some line)
      (hlines : s.lines = line :: lines) (hparse : parseLine line = some .skip) :
      TurnMove s ({ s with lines := lines }, [])
  | delay (line : Text) (lines : List Text) (id ms : ℤ) (hline : s.nextLine = some line)
      (hlines : s.lines = line :: lines) (hparse : parseLine line = some (.delay id ms)) :
      TurnMove s ({ s with lines := lines, delay := ms }, [])
  | admit_ (line : Text) (lines : List Text) (id srcIp destIp : ℤ) (r : SwitchState × Writes)
      (hline : s.nextLine = some line) (hlines : s.lines = line :: lines)
      (hparse : parseLine line = some (.action id srcIp destIp))
      (hmove : ({ s with lines := lines } : SwitchState).AdmitMove r) : TurnMove s r

theorem turnMove_of_turn {s : SwitchState} {r : SwitchState × Writes} (h : s.turn = some r) :
    s.TurnMove r := by
  unfold turn at h
  split_ifs at h with hgate hopen
  · split at h
    · rename_i hlines
      cases h
      refine .idle false ?_ (.inr hlines)
      rw [nextLine, if_pos ⟨hgate, hopen⟩, hlines]
      rfl
    · rename_i line lines hlines
      have hline := nextLine_eq_some.mpr ⟨hgate, hopen, lines, hlines⟩
      obtain ⟨t, hparse, rfl⟩ := Option.map_eq_some_iff.mp h
      cases t with
      | skip => exact .skip line lines hline hlines hparse
      | delay id ms =>
        simp only [traffic, if_true]
        exact .delay line lines id ms hline hlines hparse
      | action id srcIp destIp =>
        simp only [traffic, if_true]
        exact .admit_ line lines id srcIp destIp _ hline hlines hparse
          (admitMove_of_admitPacket _ id srcIp destIp)
  · cases h
    exact .idle s.isOpen (if_neg fun hboth => hopen hboth.2) (.inl rfl)
  · cases h
    exact .idle s.isOpen (if_neg fun hboth => hgate hboth.1) (.inl rfl)

/-- A line that can be parsed is read. -/
theorem exists_turn {s : SwitchState} {line : Text} (hline : s.nextLine = some line)
    (hparse : parseLine line ≠ none) : ∃ r, s.turn = some r := by
  obtain ⟨hgate, hopen, lines, hlines⟩ := nextLine_eq_some.mp hline
  obtain ⟨t, ht⟩ := Option.ne_none_iff_exists'.mp hparse
  unfold turn
  rw [if_pos hgate, if_pos hopen, hlines]
  exact ⟨_, Option.map_eq_some_iff.mpr ⟨t, ht, rfl⟩⟩

/-- A turn reads a line, or leaves the file as it is and sends nothing. -/
theorem TurnMove.lines_cases {s : SwitchState} {r : SwitchState × Writes} (h : s.TurnMove r) :
    (∃ line, s.nextLine = some line ∧ s.lines = line :: r.1.lines) ∨
      s.nextLine = none ∧ r.1.lines = s.lines ∧ r.2 = [] := by
  cases h with
  | idle isOpen hline hopen => exact .inr ⟨hline, rfl, rfl⟩
  | skip line lines hline hlines => exact .inl ⟨line, hline, hlines⟩
  | delay line lines id ms hline hlines => exact .inl ⟨line, hline, hlines⟩
  | admit_ line lines id srcIp destIp _ hline hlines hparse hmove =>
    refine .inl ⟨line, hline, ?_⟩
    rw [hmove.lines_eq]
    exact hlines

/-! ## Received packets -/

/-- A packet of the type `packetType` has been received. -/
inductive ReceiveMove (s : SwitchState) (packetType : Text) : SwitchState × Writes → Prop
  | hello_ack (htype : packetType = "HELLO_ACK".toList) :
      ReceiveMove s packetType
        ({ s with
            hello_ackReceived := true
            counts := { s.counts with hello_ack := s.counts.hello_ack + 1 } }, [])
  | add (htype : packetType = "ADD".toList) (newRule : FowardRule) :
      ReceiveMove s packetType
        ({ s with
            addReceived := true
            fowardTable := s.fowardTable ++ [newRule]
            counts := { s.counts with add := s.counts.add + 1 } }, [])
  | forward (htype : packetType = "ADD".toList) (newRule : FowardRule) (fdid : ℤ → Option Fd)
      (fd : Fd) (srcIp destIp : ℤ) (hfdid : Extends s.fdid fdid) :
      ReceiveMove s packetType
        ({ s with
            addReceived := true
            fowardTable := s.fowardTable ++ [newRule]
            fdid := fdid
            counts := { s.counts with
              add := s.counts.add + 1, relayOut := s.counts.relayOut + 1 } },
          [(fd, .RELAY srcIp destIp)])
  | other (hack : packetType ≠ "HELLO_ACK".toList) (hadd : packetType ≠ "ADD".toList)
      (relayIn : ℤ) :
      ReceiveMove s packetType ({ s with counts := { s.counts with relayIn := relayIn } }, [])

theorem receiveMove_of_handlePacket (memory : Memory) (garbage : FowardRule) (cfg : SwitchConfig)
    (s : SwitchState) (packetString : Text) :
    s.ReceiveMove (readPkt packetString).1 (s.handlePacket memory garbage cfg packetString) := by
  unfold handlePacket handleAdd
  dsimp only
  split_ifs with hack hadd hdrop hforward
  · exact .hello_ack hack
  · exact .add hadd _
  · obtain ⟨fdid, fd, hfdid, hrelay⟩ := relay_eq { s with addReceived := true } cfg.id
      (memory.index (readPkt packetString).2 3) (memory.index (readPkt packetString).2 4)
      (memory.index (readPkt packetString).2 1)
    rw [hrelay]
    exact .forward hadd _ fdid fd _ _ hfdid
  · exact .add hadd _
  · exact .other hack hadd _
  · exact .other hack hadd _

section Received

variable {s : SwitchState} {packetType : Text} {r : SwitchState × Writes}

theorem ReceiveMove.lines_eq (h : s.ReceiveMove packetType r) : r.1.lines = s.lines := by
  cases h <;> rfl

theorem ReceiveMove.delay_eq (h : s.ReceiveMove packetType r) : r.1.delay = s.delay := by
  cases h <;> rfl

theorem ReceiveMove.isOpen_eq (h : s.ReceiveMove packetType r) : r.1.isOpen = s.isOpen := by
  cases h <;> rfl

theorem ReceiveMove.extends (h : s.ReceiveMove packetType r) : Extends s.fdid r.1.fdid := by
  cases h with
  | forward htype newRule fdid fd srcIp destIp hfdid => exact hfdid
  | hello_ack => exact fun _ _ hfd => hfd
  | add => exact fun _ _ hfd => hfd
  | other => exact fun _ _ hfd => hfd

/-- A HELLO_ACK. -/
theorem ReceiveMove.of_ack (h : s.ReceiveMove "HELLO_ACK".toList r) :
    r.1.hello_ackReceived = true ∧ r.1.addReceived = s.addReceived := by
  cases h with
  | hello_ack => exact ⟨rfl, rfl⟩
  | add htype => exact absurd htype (by decide)
  | forward htype => exact absurd htype (by decide)
  | other hack => exact absurd rfl hack

/-- An ADD. -/
theorem ReceiveMove.of_add (h : s.ReceiveMove "ADD".toList r) :
    r.1.addReceived = true ∧ r.1.hello_ackReceived = s.hello_ackReceived := by
  cases h with
  | hello_ack htype => exact absurd htype (by decide)
  | add => exact ⟨rfl, rfl⟩
  | forward => exact ⟨rfl, rfl⟩
  | other hack hadd => exact absurd rfl hadd

/-- Neither of the two. -/
theorem ReceiveMove.of_other (h : s.ReceiveMove packetType r)
    (hother : packetType ∉ ["HELLO_ACK".toList, "ADD".toList]) :
    r.1.hello_ackReceived = s.hello_ackReceived ∧ r.1.addReceived = s.addReceived := by
  rw [List.mem_pair, not_or] at hother
  cases h with
  | hello_ack htype => exact absurd htype hother.1
  | add htype => exact absurd htype hother.2
  | forward htype => exact absurd htype hother.2
  | other => exact ⟨rfl, rfl⟩

/-- Received packets are not admitted, and change no rule that is there. -/
theorem ReceiveMove.admits_nothing (h : s.ReceiveMove packetType r) :
    r.1.counts.admit_ = s.counts.admit_ ∧ s.fowardTable <+: r.1.fowardTable := by
  cases h with
  | hello_ack => exact ⟨rfl, List.prefix_rfl⟩
  | add => exact ⟨rfl, List.prefix_append _ _⟩
  | forward => exact ⟨rfl, List.prefix_append _ _⟩
  | other => exact ⟨rfl, List.prefix_rfl⟩

end Received

end SwitchState

/-! ## The rule for the own range -/

/-- Some rule of the table covers all of the switch's own range. -/
def OwnRule (cfg : SwitchConfig) (table : List FowardRule) : Prop :=
  ∃ param ∈ table, param.destIpLow = cfg.ipLow ∧ param.destIpHigh = cfg.ipHigh

section Own

variable {cfg : SwitchConfig} {s : SwitchState}

theorem ownRule_init (cfg : SwitchConfig) (file : List Text) :
    OwnRule cfg (SwitchState.init cfg file).fowardTable :=
  ⟨_, List.mem_singleton.mpr rfl, rfl, rfl⟩

/-- A hit changes one count, and no range. -/
theorem ownRule_countHit (h : OwnRule cfg s.fowardTable) {k : ℕ} {param : FowardRule}
    (hk : s.fowardTable[k]? = some param) : OwnRule cfg (s.countHit k param) := by
  obtain ⟨own, hmem, hlow, hhigh⟩ := h
  obtain ⟨j, hj⟩ := List.mem_iff_getElem?.mp hmem
  by_cases hkj : k = j
  · subst hkj
    obtain rfl := Option.some.inj (hk.symm.trans hj)
    exact ⟨_, List.mem_set (List.getElem?_eq_some_iff.mp hk).1 _, hlow, hhigh⟩
  · have hj' : (s.countHit k param)[j]? = some own := by
      rw [SwitchState.countHit, List.getElem?_set_ne hkj, hj]
    exact ⟨own, List.mem_of_getElem? hj', hlow, hhigh⟩

theorem ownRule_of_turn {r : SwitchState × Writes} (h : OwnRule cfg s.fowardTable)
    (hturn : s.turn = some r) : OwnRule cfg r.1.fowardTable := by
  cases SwitchState.turnMove_of_turn hturn with
  | idle => exact h
  | skip => exact h
  | delay => exact h
  | admit_ line lines id srcIp destIp _ hline hlines hparse hmove =>
    cases hmove with
    | hit k param hk => exact ownRule_countHit h hk
    | relay k param hk => exact ownRule_countHit h hk
    | ask => exact h

/-- A turn does not ask for the switch's own addresses. -/
theorem not_own_of_turn {r : SwitchState × Writes} (h : OwnRule cfg s.fowardTable)
    (hturn : s.turn = some r) {fd : Fd} {srcIp destIp : ℤ} (hask : (fd, .ASK srcIp destIp) ∈ r.2) :
    ¬ (cfg.ipLow ≤ destIp ∧ destIp ≤ cfg.ipHigh) := by
  cases SwitchState.turnMove_of_turn hturn with
  | idle => cases hask
  | skip => cases hask
  | delay => cases hask
  | admit_ line lines id srcIp' destIp' _ hline hlines hparse hmove =>
    cases hmove with
    | hit => cases hask
    | relay => exact absurd (List.mem_singleton.mp hask) nofun
    | ask srcIp' destIp' hno =>
      cases List.mem_singleton.mp hask
      obtain ⟨own, hmem, hlow, hhigh⟩ := h
      have hown := hno own hmem
      unfold FowardRule.Covers at hown
      rwa [hlow, hhigh] at hown

theorem ownRule_of_handlePacket (h : OwnRule cfg s.fowardTable) (memory : Memory)
    (garbage : FowardRule) (packetString : Text) :
    OwnRule cfg (s.handlePacket memory garbage cfg packetString).1.fowardTable := by
  have hmove := SwitchState.receiveMove_of_handlePacket memory garbage cfg s packetString
  obtain ⟨own, hmem, hrange⟩ := h
  exact ⟨own, hmove.admits_nothing.2.subset hmem, hrange⟩

/-- A switch that handles a packet asks nothing. -/
theorem not_ask_of_handlePacket (memory : Memory) (garbage : FowardRule) (cfg : SwitchConfig)
    (packetString : Text) (fd : Fd) (srcIp destIp : ℤ) :
    (fd, .ASK srcIp destIp) ∉ (s.handlePacket memory garbage cfg packetString).2 := by
  have hmove := SwitchState.receiveMove_of_handlePacket memory garbage cfg s packetString
  generalize s.handlePacket memory garbage cfg packetString = r at hmove
  intro hask
  cases hmove with
  | forward => exact absurd (List.mem_singleton.mp hask) nofun
  | hello_ack => cases hask
  | add => cases hask
  | other => cases hask

end Own

end Cmput379.A3w22
