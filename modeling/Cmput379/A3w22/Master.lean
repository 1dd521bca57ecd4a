import Mathlib.Logic.Function.Basic
import Cmput379.Sdn.Codec

/-!
# The master

`MasterLoop` of `test/master.cpp`: its tables, and the handling of one string read
from a connection. `readPkt` of `test/general.cpp` is the loop of
`parsePacketString`. The model is generic in the type `φ` of descriptors; `default`
is descriptor 0, which `operator[]` yields for a missing key. The counters of the
parties are `int`s, and fewer than 2^31 packets are counted.

* `ASK_writes`: what an ASK is answered with.
* `IsReply`, `isReply_of_handlePacket`: all that the master writes.
-/

namespace Cmput379.A3w22

open Cmput379.Lib
open Cmput379.Sdn (RawPacket parsePacketString joinInts)

/-- `readPkt` (`general.cpp`, lines 14-27). -/
def readPkt (s : Text) : Text × List ℤ := parsePacketString s

/-- The memory behind the elements of a `vector<int>`. -/
structure Memory where
  past : ℕ → ℤ
  inRange : ∀ k, IsInt (past k)

/-- `v[k]`, which is not checked. -/
def Memory.index (memory : Memory) (v : List ℤ) (k : ℕ) : ℤ := (v[k]?).getD (memory.past k)

/-! ## State -/

/-- `SwitchInfo` (lines 38-44). -/
structure SwitchInfo where
  id : ℤ
  port1Id : ℤ
  port2Id : ℤ
  ipLow : ℤ
  ipHigh : ℤ
  deriving DecidableEq, Repr

/-- `destIp >= info.ipLow && destIp <= info.ipHigh` (line 208). -/
def SwitchInfo.Contains (info : SwitchInfo) (destIp : ℤ) : Prop :=
  info.ipLow ≤ destIp ∧ destIp ≤ info.ipHigh

instance (info : SwitchInfo) (destIp : ℤ) : Decidable (info.Contains destIp) :=
  inferInstanceAs (Decidable (_ ∧ _))

/-- `MasterPacketCounts` (lines 30-35). -/
structure MasterPacketCounts where
  hello : ℤ
  ask : ℤ
  add : ℤ
  hello_ack : ℤ
  deriving DecidableEq, Repr

/-- The local variables of `MasterLoop` that outlive a round. -/
structure MasterState (φ : Type) where
  switchInfoTable : List SwitchInfo
  idToFd : ℤ → Option φ
  counts : MasterPacketCounts
  pfds : ℤ → Option φ

/-- The text of an ADD (line 212). -/
def addString (action ipLow ipHigh relayPort srcIp : ℤ) : Text :=
  "ADD:".toList ++ joinInts [action, ipLow, ipHigh, relayPort, srcIp]

/-- Line 195. -/
def helloack : Text := "HELLO_ACK:".toList

namespace MasterState

variable {φ : Type}

def init : MasterState φ where
  switchInfoTable := []
  idToFd := fun _ => none
  counts := { hello := 0, ask := 0, add := 0, hello_ack := 0 }
  pfds := fun _ => none

variable [Inhabited φ]

/-! ## Handling -/

/-- Lines 190-199. `insert` keeps an entry that is already there. -/
def handleHello (m : MasterState φ) (i : ℤ) (info : SwitchInfo) :
    MasterState φ × List (φ × Text) :=
  let fd := (m.pfds i).getD default
  ({ m with
      switchInfoTable := m.switchInfoTable ++ [info]
      idToFd := if (m.idToFd i).isSome then m.idToFd else Function.update m.idToFd i (some fd)
      counts := { m.counts with
        hello := m.counts.hello + 1, hello_ack := m.counts.hello_ack + 1 } },
    [(fd, helloack)])

/-- Lines 200-225. -/
def handleAsk (m : MasterState φ) (i srcIp destIp : ℤ) : MasterState φ × List (φ × Text) :=
  let counts := { m.counts with ask := m.counts.ask + 1, add := m.counts.add + 1 }
  match m.switchInfoTable.find? fun info => info.Contains destIp with
  | none => ({ m with counts := counts }, [])
  | some info =>
    let relayPort := 0
    let fd := (m.idToFd i).getD default
    ({ m with counts := counts, idToFd := Function.update m.idToFd i (some fd) },
      [(fd, addString 1 info.ipLow info.ipHigh relayPort srcIp)])

/-- Lines 167-226 for the string read from `pfds[i]`. Elements that are not there
    are read as what lies behind the vector; lines 171-188 only print them. -/
def handlePacket (memory : Memory) (m : MasterState φ) (i : ℤ) (packet : Text) :
    MasterState φ × List (φ × Text) :=
  let (pktType, pktMsg) := readPkt packet
  let elem := memory.index pktMsg
  if pktType = "HELLO".toList then m.handleHello i ⟨elem 0, elem 1, elem 2, elem 3, elem 4⟩
  else if pktType = "ASK".toList then m.handleAsk i (elem 0) (elem 1)
  else (m, [])

end MasterState

/-! ## Replies -/

/-- What `readPkt` makes of an ADD. -/
theorem readPkt_addString {action ipLow ipHigh relayPort srcIp : ℤ}
    (h : ∀ x ∈ [action, ipLow, ipHigh, relayPort, srcIp], IsInt x) :
    readPkt (addString action ipLow ipHigh relayPort srcIp) =
      ("ADD".toList, [action, ipLow, ipHigh, relayPort, srcIp]) :=
  RawPacket.parse_text ⟨"ADD".toList, _, by decide, h⟩

/-- The texts the master sends: every ADD is a FORWARD to port 0. -/
inductive IsReply : Text → Prop
  | helloack : IsReply helloack
  | add {ipLow ipHigh srcIp : ℤ} (hlow : IsInt ipLow) (hhigh : IsInt ipHigh)
      (hsrc : IsInt srcIp) : IsReply (addString 1 ipLow ipHigh 0 srcIp)

/-- The ranges in the table are `int`s. -/
def TableOk (table : List SwitchInfo) : Prop :=
  ∀ info ∈ table, IsInt info.ipLow ∧ IsInt info.ipHigh

section Replies

variable {φ : Type} [Inhabited φ] {m : MasterState φ} {memory : Memory} {i : ℤ}

theorem isInt_of_parseInts (fuel : ℕ) : ∀ {ss : Text}, ∀ x ∈ Sdn.parseInts fuel ss, IsInt x := by
  induction fuel with
  | zero => simp [Sdn.parseInts]
  | succ fuel ih =>
    intro ss x hx
    unfold Sdn.parseInts at hx
    split at hx
    · simp at hx
    · rename_i v rest hextract
      rcases List.mem_cons.mp hx with rfl | hx
      · exact isInt_of_extractInt hextract
      · exact ih x hx

theorem isInt_index (s : Text) (k : ℕ) : IsInt (memory.index (readPkt s).2 k) := by
  unfold Memory.index
  cases hk : (readPkt s).2[k]? with
  | none => exact memory.inRange k
  | some x => exact isInt_of_parseInts _ x (List.mem_of_getElem? hk)

/-- An ASK is answered iff a switch owns its destination, and then with port 0. -/
theorem ASK_writes (m : MasterState φ) (i srcIp destIp : ℤ) : (m.handleAsk i srcIp destIp).2 =
    ((m.switchInfoTable.find? fun info => info.Contains destIp).map fun info =>
      ((m.idToFd i).getD default, addString 1 info.ipLow info.ipHigh 0 srcIp)).toList := by
  unfold MasterState.handleAsk
  dsimp only
  cases m.switchInfoTable.find? fun info => info.Contains destIp with
  | none => rfl
  | some info => rfl

theorem tableOk_of_handlePacket (h : TableOk m.switchInfoTable) (packet : Text) :
    TableOk (m.handlePacket memory i packet).1.switchInfoTable := by
  unfold MasterState.handlePacket
  dsimp only
  split_ifs
  · intro info hinfo
    rcases List.mem_append.mp hinfo with hinfo | hinfo
    · exact h info hinfo
    · obtain rfl := List.mem_singleton.mp hinfo
      exact ⟨isInt_index packet 3, isInt_index packet 4⟩
  · unfold MasterState.handleAsk
    dsimp only
    cases m.switchInfoTable.find? _ with
    | none => exact h
    | some info => exact h
  · exact h

theorem isReply_of_handlePacket (h : TableOk m.switchInfoTable) (packet : Text) :
    ∀ w ∈ (m.handlePacket memory i packet).2, IsReply w.2 := by
  unfold MasterState.handlePacket
  dsimp only
  split_ifs
  · intro w hw
    obtain rfl := List.mem_singleton.mp hw
    exact .helloack
  · rw [ASK_writes]
    intro w hw
    obtain ⟨info, hinfo, rfl⟩ := Option.map_eq_some_iff.mp (Option.mem_toList.mp hw)
    obtain ⟨hlow, hhigh⟩ := h info (List.mem_of_find?_eq_some hinfo)
    exact .add hlow hhigh (isInt_index packet 0)
  · intro w hw
    simp at hw

end Replies

end Cmput379.A3w22
