import Cmput379.Sdn.Effects
import Cmput379.Sdn.Controller

/-!
# Malformed packets

`parsePacketString` accepts any prefix of numbers, and neither `printPacketMessage` nor a
handler asks how many there are. An ADD is printed with four of its five fields, and the
fifth is only read when the packet is relayed.

* `fieldsNeeded`, `fieldsPrinted`: the fields of a type, and those that its line reads.
* `Harmless`: no index is out of range, and a packet with fewer fields than its type needs
  changes nothing.
* `harmless_iff`: the strings that are harmless at a switch and at the controller.
-/

namespace Cmput379.Sdn

open Cmput379.Lib

/-- The fields that `sendOpenPacket` and its siblings send. -/
def fieldsNeeded (type : Text) : ℕ :=
  if type = ['O', 'P', 'E', 'N'] then 5
  else if type = ['Q', 'U', 'E', 'R', 'Y'] then 2
  else if type = ['A', 'D', 'D'] then 5
  else if type = ['R', 'E', 'L', 'A', 'Y'] then 2
  else 0

/-- The fields that `printPacketMessage` reads, and those before them. -/
def fieldsPrinted (type : Text) : ℕ := if type = ['A', 'D', 'D'] then 4 else fieldsNeeded type

/-- A packet as sent has all its fields. -/
theorem length_msg (p : Packet) : p.msg.length = fieldsNeeded p.type := by
  cases p <;> rfl

/-- Fewer fields than are printed: `msg` is indexed out of range. -/
theorem printPacketMessage_eq_none {type : Text} {msg : List ℤ}
    (h : msg.length < fieldsPrinted type) (direction : Text) (srcId destId : ℤ) :
    printPacketMessage direction srcId destId type msg = none := by
  unfold printPacketMessage
  by_cases hopen : type = ['O', 'P', 'E', 'N']
  · subst hopen
    have hnone : msg[4]? = none := List.getElem?_eq_none (Nat.le_of_lt_succ h)
    simp [hnone]
  by_cases hack : type = ['A', 'C', 'K']
  · subst hack
    cases h
  by_cases hquery : type = ['Q', 'U', 'E', 'R', 'Y']
  · subst hquery
    have hnone : msg[1]? = none := List.getElem?_eq_none (Nat.le_of_lt_succ h)
    simp [hnone]
  by_cases hadd : type = ['A', 'D', 'D']
  · subst hadd
    match msg, h with
    | [], _ => rfl
    | [_], _ => rfl
    | [_, _], _ => rfl
    | [_, _, _], _ => rfl
  by_cases hrelay : type = ['R', 'E', 'L', 'A', 'Y']
  · subst hrelay
    have hnone : msg[1]? = none := List.getElem?_eq_none (Nat.le_of_lt_succ h)
    simp [hnone]
  · have hzero : fieldsPrinted type = 0 := by
      unfold fieldsPrinted fieldsNeeded
      rw [if_neg hadd, if_neg hopen, if_neg hquery, if_neg hadd, if_neg hrelay]
    omega

/-- Only an ADD is printed with fewer fields than it needs. -/
theorem add_of_printed {type : Text} {msg : List ℤ} (hprinted : fieldsPrinted type ≤ msg.length)
    (hfew : msg.length < fieldsNeeded type) :
    type = ['A', 'D', 'D'] ∧ ∃ action ipLow ipHigh val, msg = [action, ipLow, ipHigh, val] := by
  unfold fieldsPrinted at hprinted
  split_ifs at hprinted with hadd
  · subst hadd
    have hlength : msg.length = 4 := Nat.le_antisymm (Nat.le_of_lt_succ hfew) hprinted
    obtain ⟨action, ipLow, ipHigh, val, rfl⟩ : ∃ a b c d, msg = [a, b, c, d] := by
      match msg, hlength with
      | [a, b, c, d], _ => exact ⟨a, b, c, d, rfl⟩
    exact ⟨rfl, action, ipLow, ipHigh, val, rfl⟩
  · omega

theorem fieldsPrinted_le (type : Text) : fieldsPrinted type ≤ fieldsNeeded type := by
  unfold fieldsPrinted
  split_ifs with hadd
  · subst hadd
    exact Nat.le_succ 4
  · exact le_rfl

/-- A packet with all the fields that are printed can be printed. -/
theorem printPacketMessage_isSome {type : Text} {msg : List ℤ}
    (h : fieldsPrinted type ≤ msg.length) (direction : Text) (srcId destId : ℤ) :
    ∃ line, printPacketMessage direction srcId destId type msg = some line := by
  unfold printPacketMessage
  by_cases hopen : type = ['O', 'P', 'E', 'N']
  · subst hopen
    match msg, h with
    | _ :: _ :: _ :: _ :: _ :: _, _ => exact ⟨_, rfl⟩
  rw [if_neg hopen]
  by_cases hack : type = ['A', 'C', 'K']
  · subst hack
    exact ⟨_, rfl⟩
  rw [if_neg hack]
  by_cases hquery : type = ['Q', 'U', 'E', 'R', 'Y']
  · subst hquery
    match msg, h with
    | _ :: _ :: _, _ => exact ⟨_, rfl⟩
  rw [if_neg hquery]
  by_cases hadd : type = ['A', 'D', 'D']
  · subst hadd
    match msg, h with
    | _ :: _ :: _ :: _ :: _, _ => exact ⟨_, rfl⟩
  rw [if_neg hadd]
  by_cases hrelay : type = ['R', 'E', 'L', 'A', 'Y']
  · subst hrelay
    match msg, h with
    | _ :: _ :: _, _ => exact ⟨_, rfl⟩
  · rw [if_neg hrelay]
    exact ⟨_, rfl⟩

/-! ## The switch -/

namespace SwitchState

/-- The tables, the counters and the flags are the same. -/
structure Unharmed (s s' : SwitchState) : Prop where
  flowTable : s'.flowTable = s.flowTable
  portToFd : s'.portToFd = s.portToFd
  portToId : s'.portToId = s.portToId
  counts : s'.counts = s.counts
  ackReceived : s'.ackReceived = s.ackReceived
  addReceived : s'.addReceived = s.addReceived

/-- A string read from `pfds[i]` is handled without an index out of range and, where it has
    fewer fields than its type needs, changes nothing. -/
def Harmless (cfg : SwitchConfig) (s : SwitchState) (i : ℤ) (packetString : Text) : Prop :=
  ∃ r, s.handleText cfg i packetString = some r ∧
    ((parsePacketString packetString).2.length < fieldsNeeded (parsePacketString packetString).1 →
      Unharmed s r.1)

variable (cfg : SwitchConfig) (s : SwitchState) (i : ℤ)

/-- All fields are there. -/
theorem handlePacket_isSome {type : Text} {msg : List ℤ} (h : fieldsNeeded type ≤ msg.length) :
    ∃ r, s.handlePacket cfg i type msg = some r := by
  obtain ⟨line, hline⟩ := printPacketMessage_isSome ((fieldsPrinted_le type).trans h)
    "Received".toList (s.portToId i) cfg.id
  unfold handlePacket
  rw [hline]
  simp only [Option.bind_eq_bind, Option.bind_some]
  by_cases hack : type = ['A', 'C', 'K']
  · rw [if_pos hack]
    exact ⟨_, rfl⟩
  rw [if_neg hack]
  by_cases hadd : type = ['A', 'D', 'D']
  · subst hadd
    rw [if_pos rfl]
    match msg, h with
    | action :: ipLow :: ipHigh :: val :: srcIp :: rest, _ =>
      simp only [List.getElem?_cons_zero, List.getElem?_cons_succ, Option.bind_some]
      split_ifs <;> exact ⟨_, rfl⟩
  rw [if_neg hadd]
  by_cases hrelay : type = ['R', 'E', 'L', 'A', 'Y']
  · subst hrelay
    rw [if_pos rfl]
    match msg, h with
    | srcIp :: destIp :: rest, _ => exact ⟨_, rfl⟩
  · rw [if_neg hrelay]
    exact ⟨_, rfl⟩

/-- An ADD without its last field installs a rule if it can. -/
theorem handlePacket_shortAdd (action ipLow ipHigh val : ℤ) :
    s.handlePacket cfg i ['A', 'D', 'D'] [action, ipLow, ipHigh, val] =
      if action = 0 then
        some ({ s with addReceived := true }.pushRule (addedRule ipLow ipHigh .DROP val), [])
      else if action = 1 then
        if i ∈ s.closed then
          some ({ s with addReceived := true }.handleForward cfg i ipLow ipHigh val 0)
        else none
      else some ({ s with addReceived := true }, []) := by
  have hprinted : fieldsPrinted ['A', 'D', 'D'] ≤ [action, ipLow, ipHigh, val].length := le_refl 4
  obtain ⟨line, hline⟩ := printPacketMessage_isSome hprinted "Received".toList (s.portToId i) cfg.id
  unfold handlePacket
  rw [hline]
  simp only [Option.bind_eq_bind, Option.bind_some]
  rw [if_neg (by decide), if_pos trivial]
  simp only [List.getElem?_cons_zero, List.getElem?_cons_succ, Option.bind_some]
  split_ifs <;> rfl

/-- All fields, or an ADD that names no action while no answer is outstanding. -/
theorem harmless_switch_iff (packetString : Text) :
    s.Harmless cfg i packetString ↔
      fieldsNeeded (parsePacketString packetString).1 ≤
          (parsePacketString packetString).2.length ∨
        (parsePacketString packetString).1 = ['A', 'D', 'D'] ∧
          (∃ action ipLow ipHigh val,
            (parsePacketString packetString).2 = [action, ipLow, ipHigh, val] ∧
            action ≠ 0 ∧ action ≠ 1) ∧ s.addReceived = true := by
  unfold Harmless handleText
  generalize hparse : parsePacketString packetString = parsed
  obtain ⟨type, msg⟩ := parsed
  dsimp only
  by_cases henough : fieldsNeeded type ≤ msg.length
  · obtain ⟨r, hr⟩ := handlePacket_isSome cfg s i henough
    simp only [henough, true_or, iff_true]
    exact ⟨r, hr, fun hfew => absurd henough (not_le.mpr hfew)⟩
  · simp only [henough, false_or]
    by_cases hprinted : fieldsPrinted type ≤ msg.length
    · obtain ⟨rfl, action, ipLow, ipHigh, val, rfl⟩ :=
        add_of_printed hprinted (not_le.mp henough)
      rw [handlePacket_shortAdd]
      constructor
      · rintro ⟨r, hr, hsame⟩
        have hunharmed := hsame (not_le.mp henough)
        split_ifs at hr with hdrop hforward hclosed
        · cases hr
          have hadd : s.counts.add + 1 = s.counts.add :=
            congrArg SwitchPacketCounts.add hunharmed.counts
          omega
        · cases hr
          have hadd : ({ s with addReceived := true }.openPort cfg val).counts.add + 1 =
              s.counts.add := congrArg SwitchPacketCounts.add hunharmed.counts
          have hopen : ({ s with addReceived := true }.openPort cfg val).counts = s.counts := by
            unfold openPort
            split_ifs <;> rfl
          rw [hopen] at hadd
          omega
        · cases hr
          exact ⟨rfl, ⟨action, ipLow, ipHigh, val, rfl, hdrop, hforward⟩,
            hunharmed.addReceived.symm⟩
      · rintro ⟨-, ⟨action', ipLow', ipHigh', val', hmsg, hdrop, hforward⟩, hadd⟩
        cases hmsg
        rw [if_neg hdrop, if_neg hforward]
        exact ⟨_, rfl, fun _ => ⟨rfl, rfl, rfl, rfl, rfl, hadd.symm⟩⟩
    · have hnone : s.handlePacket cfg i type msg = none := by
        unfold handlePacket
        rw [printPacketMessage_eq_none (not_le.mp hprinted)]
        rfl
      rw [hnone]
      constructor
      · rintro ⟨r, hr, -⟩
        cases hr
      · rintro ⟨rfl, ⟨action, ipLow, ipHigh, val, rfl, -⟩, -⟩
        exact absurd (le_refl 4) hprinted

end SwitchState

/-! ## The controller -/

namespace ControllerState

variable {φ : Type}

/-- The tables and the counters are the same. -/
structure Unharmed (c c' : ControllerState φ) : Prop where
  switchInfoTable : c'.switchInfoTable = c.switchInfoTable
  idToFd : c'.idToFd = c.idToFd
  counts : c'.counts = c.counts

variable [Inhabited φ]

/-- As for a switch, for a string read in slot `i`. -/
def Harmless (c : ControllerState φ) (i : ℤ) (packetString : Text) : Prop :=
  ∃ r, c.handleText i packetString = some r ∧
    ((parsePacketString packetString).2.length < fieldsNeeded (parsePacketString packetString).1 →
      Unharmed c r.1)

variable (c : ControllerState φ) (i : ℤ)

theorem handlePacket_isSome {type : Text} {msg : List ℤ} (h : fieldsNeeded type ≤ msg.length) :
    ∃ r, c.handlePacket i type msg = some r := by
  obtain ⟨line, hline⟩ := printPacketMessage_isSome ((fieldsPrinted_le type).trans h)
    "Received".toList i CONTROLLER_ID
  unfold handlePacket
  rw [hline]
  simp only [Option.bind_eq_bind, Option.bind_some]
  by_cases hopen : type = ['O', 'P', 'E', 'N']
  · subst hopen
    rw [if_pos rfl]
    match msg, h with
    | id :: port1Id :: port2Id :: ipLow :: ipHigh :: rest, _ => exact ⟨_, rfl⟩
  rw [if_neg hopen]
  by_cases hquery : type = ['Q', 'U', 'E', 'R', 'Y']
  · subst hquery
    rw [if_pos rfl]
    match msg, h with
    | srcIp :: destIp :: rest, _ => exact ⟨_, rfl⟩
  · rw [if_neg hquery]
    exact ⟨_, rfl⟩

/-- The controller prints an ADD and ignores it. -/
theorem handlePacket_shortAdd (action ipLow ipHigh val : ℤ) :
    c.handlePacket i ['A', 'D', 'D'] [action, ipLow, ipHigh, val] = some (c, []) := by
  have hprinted : fieldsPrinted ['A', 'D', 'D'] ≤ [action, ipLow, ipHigh, val].length := le_refl 4
  obtain ⟨line, hline⟩ := printPacketMessage_isSome hprinted "Received".toList i CONTROLLER_ID
  unfold handlePacket
  rw [hline]
  simp

/-- All fields, or an ADD that lacks the last. -/
theorem harmless_controller_iff (packetString : Text) :
    c.Harmless i packetString ↔
      fieldsNeeded (parsePacketString packetString).1 ≤
          (parsePacketString packetString).2.length ∨
        (parsePacketString packetString).1 = ['A', 'D', 'D'] ∧
          (parsePacketString packetString).2.length = 4 := by
  unfold Harmless handleText
  generalize hparse : parsePacketString packetString = parsed
  obtain ⟨type, msg⟩ := parsed
  dsimp only
  by_cases henough : fieldsNeeded type ≤ msg.length
  · obtain ⟨r, hr⟩ := handlePacket_isSome c i henough
    simp only [henough, true_or, iff_true]
    exact ⟨r, hr, fun hfew => absurd henough (not_le.mpr hfew)⟩
  · simp only [henough, false_or]
    by_cases hprinted : fieldsPrinted type ≤ msg.length
    · obtain ⟨rfl, action, ipLow, ipHigh, val, rfl⟩ :=
        add_of_printed hprinted (not_le.mp henough)
      rw [handlePacket_shortAdd]
      constructor
      · intro _
        exact ⟨rfl, rfl⟩
      · intro _
        exact ⟨_, rfl, fun _ => ⟨rfl, rfl, rfl⟩⟩
    · have hnone : c.handlePacket i type msg = none := by
        unfold handlePacket
        rw [printPacketMessage_eq_none (not_le.mp hprinted)]
        rfl
      rw [hnone]
      constructor
      · rintro ⟨r, hr, -⟩
        cases hr
      · rintro ⟨rfl, hlength⟩
        exact absurd hlength.ge hprinted

end ControllerState

/-! ## Both -/

/-- The strings that do no harm, at every switch and at every controller, in every state. A
    string is `string(buffer)`: what was read, and what was left over behind it. -/
theorem harmless_iff (cfg : SwitchConfig) (s : SwitchState) (c : ControllerState ℕ) (i : ℤ)
    (packetString : Text) :
    (s.Harmless cfg i packetString ↔
      fieldsNeeded (parsePacketString packetString).1 ≤
          (parsePacketString packetString).2.length ∨
        (parsePacketString packetString).1 = ['A', 'D', 'D'] ∧
          (∃ action ipLow ipHigh val,
            (parsePacketString packetString).2 = [action, ipLow, ipHigh, val] ∧
            action ≠ 0 ∧ action ≠ 1) ∧ s.addReceived = true) ∧
    (c.Harmless i packetString ↔
      fieldsNeeded (parsePacketString packetString).1 ≤
          (parsePacketString packetString).2.length ∨
        (parsePacketString packetString).1 = ['A', 'D', 'D'] ∧
          (parsePacketString packetString).2.length = 4) :=
  ⟨s.harmless_switch_iff cfg i packetString, c.harmless_controller_iff i packetString⟩

/-- The controller indexes an empty vector for a QUERY without fields; a switch installs a
    rule from an ADD with four. -/
theorem harmless_counterexample :
    ((ControllerState.init 1 0 3 : ControllerState ℕ).handleText 1 "QUERY:".toList = none ∧
      ¬ (ControllerState.init 1 0 3 : ControllerState ℕ).Harmless 1 "QUERY:".toList) ∧
    ∃ r, (SwitchState.init ex2Switch1 []).handleText ex2Switch1 socketIdx
        "ADD:0,200,210,0".toList = some r ∧ r.1.flowTable.length = 2 ∧
      ¬ (SwitchState.init ex2Switch1 []).Harmless ex2Switch1 socketIdx
        "ADD:0,200,210,0".toList := by
  constructor
  · have hnone : (ControllerState.init 1 0 3 : ControllerState ℕ).handleText 1 "QUERY:".toList =
        none := by
      have hisNone : ((ControllerState.init 1 0 3 : ControllerState ℕ).handleText 1
          "QUERY:".toList).isNone = true := by
        decide +kernel
      exact Option.isNone_iff_eq_none.mp hisNone
    refine ⟨hnone, ?_⟩
    rintro ⟨r, hr, -⟩
    rw [hnone] at hr
    cases hr
  · have hrun : ((SwitchState.init ex2Switch1 []).handleText ex2Switch1 socketIdx
        "ADD:0,200,210,0".toList).map (fun r => r.1.flowTable.length) = some 2 := by
      decide +kernel
    obtain ⟨r, hr, hlength⟩ := Option.map_eq_some_iff.mp hrun
    refine ⟨r, hr, hlength, ?_⟩
    rintro ⟨r', hr', hsame⟩
    obtain rfl : r = r' := Option.some.inj (hr.symm.trans hr')
    have hfew : (parsePacketString "ADD:0,200,210,0".toList).2.length <
        fieldsNeeded (parsePacketString "ADD:0,200,210,0".toList).1 := by
      decide +kernel
    have htable := (hsame hfew).flowTable
    rw [htable] at hlength
    cases hlength

end Cmput379.Sdn
