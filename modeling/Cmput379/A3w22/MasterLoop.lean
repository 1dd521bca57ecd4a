import Cmput379.Lib.Decimal
import Cmput379.Lib.Run
import Cmput379.Sdn.Buffer
import Cmput379.A3w22.SwitchLoop

/-!
# The loop of the master

The rounds of `MasterLoop` (lines 125-256). In a round, the slots that `poll` reports
are read one after the other into one array, which is cleared only between the rounds;
the string that is handled for a slot is whatever is in the array then, also where the
connection is at its end. A step is one slot, or the end of a round.

`handled` is not part of the program; it records the strings.

* `inRange_text_append`: what a packet needs behind it in the array.
* `handles_iff`: a whole run, in terms of what is read.
-/

namespace Cmput379.A3w22

open Cmput379.Lib
open Cmput379.Sdn (MAX_BUFFER nul clearBuffer readInto bufferString joinInts skipComma
  parsePacketMessage parsePacketMessage_eq)

/-! ## The packets -/

theorem nul_not_mem_joinInts (xs : List ℤ) : nul ∉ joinInts xs := by
  induction xs with
  | nil => exact List.not_mem_nil
  | cons x xs ih =>
    have hx := Sdn.nul_not_mem_intText x
    cases xs with
    | nil => rwa [Sdn.joinInts_singleton]
    | cons y ys =>
      have hcomma : nul ≠ ',' := by decide
      simp only [Sdn.joinInts_cons_cons, List.mem_append, List.mem_cons, hx, hcomma, ih, or_false,
        not_false_eq_true]

/-- Each of the numbers takes at most 12 characters, with its comma. -/
theorem length_joinInts_le (xs : List ℤ) (hxs : ∀ x ∈ xs, IsInt x) :
    (joinInts xs).length ≤ 12 * xs.length := by
  induction xs with
  | nil => exact Nat.zero_le _
  | cons x xs ih =>
    have hx := length_intText_le (hxs x List.mem_cons_self)
    have hrest := ih fun y hy => hxs y (List.mem_cons_of_mem _ hy)
    cases xs with
    | nil =>
      rw [Sdn.joinInts_singleton, List.length_singleton]
      omega
    | cons y ys =>
      rw [Sdn.joinInts_cons_cons, List.length_append, List.length_cons, List.length_cons]
      omega

namespace SwitchPacket

/-- The fields but the last. -/
def front : SwitchPacket → List ℤ
  | HELLO id port1Id port2Id ipLow _ => [id, port1Id, port2Id, ipLow]
  | ASK srcIp _ => [srcIp]
  | RELAY srcIp _ => [srcIp]

def last : SwitchPacket → ℤ
  | HELLO _ _ _ _ ipHigh => ipHigh
  | ASK _ destIp => destIp
  | RELAY _ destIp => destIp

/-- The fields in the order they are sent. -/
def msg (p : SwitchPacket) : List ℤ := p.front ++ [p.last]

def type : SwitchPacket → Text
  | HELLO .. => "HELLO".toList
  | ASK .. => "ASK".toList
  | RELAY .. => "RELAY".toList

variable (p : SwitchPacket)

theorem text_eq : p.text = p.type ++ ':' :: joinInts p.msg := by
  cases p <;> rfl

theorem type_ok : ':' ∉ p.type ∧ nul ∉ p.type ∧ p.type.length ≤ 5 := by
  cases p with
  | HELLO id port1Id port2Id ipLow ipHigh =>
    show ':' ∉ "HELLO".toList ∧ nul ∉ "HELLO".toList ∧ "HELLO".toList.length ≤ 5
    decide
  | ASK srcIp destIp =>
    show ':' ∉ "ASK".toList ∧ nul ∉ "ASK".toList ∧ "ASK".toList.length ≤ 5
    decide
  | RELAY srcIp destIp =>
    show ':' ∉ "RELAY".toList ∧ nul ∉ "RELAY".toList ∧ "RELAY".toList.length ≤ 5
    decide

theorem nul_not_mem_text : nul ∉ p.text := by
  have hcolon : nul ≠ ':' := by decide
  rw [p.text_eq, List.mem_append, List.mem_cons]
  rintro (h | h | h)
  · exact p.type_ok.2.1 h
  · exact hcolon h
  · exact nul_not_mem_joinInts _ h

/-- The array is much longer. -/
theorem length_text_lt (hp : ∀ x ∈ p.msg, IsInt x) : p.text.length < MAX_BUFFER := by
  have hmsg : p.msg.length ≤ 5 := by
    cases p <;> simp [msg, front]
  have htype := p.type_ok.2.2
  have hjoin := length_joinInts_le p.msg hp
  rw [p.text_eq, List.length_append, List.length_cons]
  unfold MAX_BUFFER
  omega

/-- `rest` leaves the last field an `int`, and a packet with two fields gets three more
    numbers from it. -/
def Filled (rest : Text) : Prop :=
  IsInt (extended p.last (rest.takeWhile Char.isDigit)) ∧
    4 ≤ p.front.length + (parsePacketMessage (skipComma (rest.dropWhile Char.isDigit))).length

instance (rest : Text) : Decidable (p.Filled rest) := inferInstanceAs (Decidable (_ ∧ _))

end SwitchPacket

/-! ## The elements of `pktMsg` -/

/-- The indices at which `pktMsg` is read: in lines 172-188, and for the type. -/
def indices (packet : Text) : List ℕ :=
  let pktType := (readPkt packet).1
  [1, 2, 3, 4] ++
    if pktType = "HELLO".toList then [0, 1, 2, 3, 4]
    else if pktType = "ASK".toList then [0, 1]
    else []

/-- None of them is at or beyond the length. -/
def InRange (packet : Text) : Prop := ∀ k ∈ indices packet, k < (readPkt packet).2.length

instance (packet : Text) : Decidable (InRange packet) :=
  inferInstanceAs (Decidable (∀ k ∈ indices packet, k < (readPkt packet).2.length))

section InRange

variable {packet : Text}

theorem inRange_iff : InRange packet ↔ 5 ≤ (readPkt packet).2.length := by
  unfold InRange indices
  dsimp only
  constructor
  · intro h
    exact h 4 (by simp)
  · intro h k hk
    have hk4 : k ≤ 4 := by
      split_ifs at hk with hhello hask
      · simp at hk
        omega
      · simp at hk
        omega
      · simp at hk
        omega
    omega

/-- Then what lies behind the vector makes no difference. -/
theorem handlePacket_of_inRange {φ : Type} [Inhabited φ] (h : InRange packet)
    (memory memory' : Memory) (m : MasterState φ) (i : ℤ) :
    m.handlePacket memory i packet = m.handlePacket memory' i packet := by
  have helem : ∀ k, k < 5 →
      memory.index (readPkt packet).2 k = memory'.index (readPkt packet).2 k := by
    intro k hk
    have hlt : k < (readPkt packet).2.length := hk.trans_le (inRange_iff.mp h)
    simp only [Memory.index, List.getElem?_eq_getElem hlt, Option.getD_some]
  unfold MasterState.handlePacket
  dsimp only
  rw [helem 0 (by decide), helem 1 (by decide), helem 2 (by decide), helem 3 (by decide),
    helem 4 (by decide)]

/-- What is read of a packet with `rest` behind it. -/
theorem readPkt_text_append {p : SwitchPacket} (hp : ∀ x ∈ p.msg, IsInt x) (rest : Text) :
    (readPkt (p.text ++ rest)).2 = p.front ++ parsePacketMessage (intText p.last ++ rest) := by
  have hcolon := p.type_ok.1
  rw [p.text_eq, List.append_assoc, List.cons_append]
  unfold readPkt Sdn.parsePacketString
  rw [Sdn.dropWhile_type hcolon, if_pos (by simp), List.tail_cons]
  exact Sdn.parsePacketMessage_joinInts fun x hx => hp x (List.mem_append_left _ hx)

theorem inRange_text_append {p : SwitchPacket} (hp : ∀ x ∈ p.msg, IsInt x) (rest : Text) :
    InRange (p.text ++ rest) ↔ p.Filled rest := by
  have hfront : p.front.length ≤ 4 := by
    cases p <;> simp [SwitchPacket.front]
  rw [inRange_iff, readPkt_text_append hp, parsePacketMessage_eq, extractInt_intText_append]
  unfold SwitchPacket.Filled
  by_cases hint : IsInt (extended p.last (rest.takeWhile Char.isDigit))
  · simp only [hint, if_true, true_and, List.length_append, List.length_cons]
    omega
  · simp only [hint, if_false, false_and, List.append_nil, iff_false]
    omega

/-- With nothing behind it, only a HELLO is. -/
theorem inRange_text {p : SwitchPacket} (hp : ∀ x ∈ p.msg, IsInt x) :
    InRange p.text ↔ p.type = "HELLO".toList := by
  have hnil := inRange_text_append hp []
  rw [List.append_nil] at hnil
  have hnone : parsePacketMessage (skipComma []) = [] := rfl
  rw [hnil]
  unfold SwitchPacket.Filled
  rw [List.takeWhile_nil, extended_nil, and_iff_right (hp _ (by simp [SwitchPacket.msg])),
    List.dropWhile_nil, hnone]
  cases p with
  | HELLO id port1Id port2Id ipLow ipHigh => exact iff_of_true le_rfl rfl
  | ASK srcIp destIp =>
    exact iff_of_false (show ¬ 4 ≤ 1 by decide) (show "ASK".toList ≠ "HELLO".toList by decide)
  | RELAY srcIp destIp =>
    exact iff_of_false (show ¬ 4 ≤ 1 by decide) (show "RELAY".toList ≠ "HELLO".toList by decide)

end InRange

/-! ## The loop -/

/-- What `read` does on a slot that is reported: it returns a packet, and perhaps more of
    what the switch has written; 0 at the end of the connection; -1 after a reset. -/
inductive Input
  | packet (p : SwitchPacket) (more : Text)
  | eof
  | reset

namespace Input

/-- The fields are `int`s, and the array has room. -/
def Ok : Input → Prop
  | packet p more => (∀ x ∈ p.msg, IsInt x) ∧ (p.text ++ more).length ≤ MAX_BUFFER
  | eof => True
  | reset => True

instance : (input : Input) → Decidable input.Ok
  | packet _ _ => inferInstanceAs (Decidable (_ ∧ _))
  | eof => .isTrue trivial
  | reset => .isTrue trivial

/-- The array after the read. -/
def store (buffer : Text) : Input → Text
  | packet p more => readInto buffer (p.text ++ more)
  | eof => buffer
  | reset => buffer

def closed : Input → Bool
  | packet .. => false
  | eof => true
  | reset => true

end Input

/-- A string that was handled, and whether the connection was closed. -/
structure Handled where
  packet : Text
  closed : Bool
  deriving DecidableEq

/-- `next` is the first slot that the round has not passed. -/
structure MasterLoop (φ : Type) where
  master : MasterState φ
  socketIndex : ℕ
  buffer : Text
  next : ℕ
  handled : List Handled

/-- Slot `i` is read, with `memory` behind `pktMsg` and `beyond` behind the array; the
    round ends, perhaps with a connection. -/
inductive MasterLoop.Action (φ : Type)
  | receive (i : ℕ) (input : Input) (memory : Memory) (beyond : Text)
  | endRound (accepted : Option φ)

namespace MasterLoop

variable {φ : Type}

def init : MasterLoop φ where
  master := .init
  socketIndex := 1
  buffer := clearBuffer
  next := 1
  handled := []

/-- `string(buffer)` (line 167). -/
def packet (s : MasterLoop φ) (input : Input) (beyond : Text) : Text :=
  bufferString beyond (input.store s.buffer)

/-- What is in the array behind a packet that is read: more of the same read, and what
    the slots before it in the round have left. -/
def behind (s : MasterLoop φ) (p : SwitchPacket) (more beyond : Text) : Text :=
  bufferString beyond (more ++ s.buffer.drop (p.text ++ more).length)

theorem packet_packet (s : MasterLoop φ) (p : SwitchPacket) (more beyond : Text) :
    s.packet (.packet p more) beyond = p.text ++ s.behind p more beyond := by
  show bufferString beyond (readInto s.buffer (p.text ++ more)) = _
  unfold readInto
  rw [List.append_assoc]
  exact Sdn.bufferString_append _ p.nul_not_mem_text _

/-- Lines 159-227. `close` leaves the slot with its descriptor, and nothing is skipped. -/
def receive [Inhabited φ] (s : MasterLoop φ) (i : ℕ) (input : Input) (memory : Memory)
    (beyond : Text) : MasterLoop φ :=
  { s with
    master := (s.master.handlePacket memory i (s.packet input beyond)).1
    buffer := input.store s.buffer
    next := i + 1
    handled := s.handled ++ [⟨s.packet input beyond, input.closed⟩] }

/-- Lines 230-253. -/
def endRound (s : MasterLoop φ) (accepted : Option φ) : MasterLoop φ :=
  match accepted with
  | none => { s with buffer := clearBuffer, next := 1 }
  | some fd =>
    { s with
      master := { s.master with
        pfds := Function.update s.master.pfds s.socketIndex (some fd) }
      socketIndex := s.socketIndex + 1
      buffer := clearBuffer
      next := 1 }

variable [Inhabited φ]

def step (numSwitches : ℕ) (s : MasterLoop φ) : Action φ → Option (MasterLoop φ)
  | .receive i input memory beyond =>
    if s.next ≤ i ∧ i ≤ numSwitches ∧ (s.master.pfds i).isSome ∧ input.Ok then
      some (s.receive i input memory beyond)
    else none
  | .endRound accepted => some (s.endRound accepted)

def system (numSwitches : ℕ) : System (MasterLoop φ) (Action φ) where
  init s := s = init
  step := step numSwitches

/-! ## Runs -/

/-- No element that is read of a packet is missing, and nothing is handled for a closed
    connection. -/
def Handles (s : MasterLoop φ) : Prop := ∀ e ∈ s.handled, InRange e.packet ∧ e.closed = false

/-- The connection is not closed, and the packet is filled up. -/
def StepOk (s : MasterLoop φ) : Action φ → Prop
  | .receive _ (.packet p more) _ beyond => p.Filled (s.behind p more beyond)
  | .receive _ .eof _ _ => False
  | .receive _ .reset _ _ => False
  | .endRound _ => True

/-- The string that a step handles. -/
def entries (s : MasterLoop φ) : Action φ → List Handled
  | .receive _ input _ beyond => [⟨s.packet input beyond, input.closed⟩]
  | .endRound _ => []

section Run

variable {numSwitches : ℕ} {s s' : MasterLoop φ} {a : Action φ}
  {tr : List (MasterLoop φ × Action φ)}

theorem handled_of_step (h : step numSwitches s a = some s') :
    s'.handled = s.handled ++ s.entries a := by
  cases a with
  | receive i input memory beyond =>
    simp only [step] at h
    split_ifs at h
    obtain rfl := Option.some.inj h
    rfl
  | endRound accepted =>
    obtain rfl := Option.some.inj h
    cases accepted with
    | none => exact (List.append_nil _).symm
    | some fd => exact (List.append_nil _).symm

theorem stepOk_iff (h : step numSwitches s a = some s') :
    s.StepOk a ↔ ∀ e ∈ s.entries a, InRange e.packet ∧ e.closed = false := by
  cases a with
  | receive i input memory beyond =>
    simp only [step] at h
    split_ifs at h with hguard
    obtain ⟨-, -, -, hok⟩ := hguard
    simp only [entries, List.mem_singleton, forall_eq]
    cases input with
    | packet p more =>
      rw [packet_packet, inRange_text_append hok.1]
      exact (and_iff_left rfl).symm
    | eof => exact iff_of_false id fun hclosed => Bool.noConfusion hclosed.2
    | reset => exact iff_of_false id fun hclosed => Bool.noConfusion hclosed.2
  | endRound accepted => exact iff_of_true trivial nofun

theorem handles_iff_of_run (h : (system numSwitches).Run s tr s') (hs : s.Handles) :
    s'.Handles ↔ ∀ x ∈ tr, x.1.StepOk x.2 := by
  induction h with
  | nil => exact iff_of_true hs fun _ hx => absurd hx List.not_mem_nil
  | @snoc tr u v a hrun hstep ih =>
    have hentries : v.Handles ↔
        u.Handles ∧ ∀ e ∈ u.entries a, InRange e.packet ∧ e.closed = false := by
      unfold Handles
      rw [handled_of_step hstep, List.forall_mem_append]
    rw [hentries, ih, ← stepOk_iff hstep, List.forall_mem_append, List.forall_mem_singleton]

/-- The first packet of a round is filled up iff it is a HELLO. -/
theorem stepOk_first {i : ℕ} {p : SwitchPacket} {memory : Memory} {beyond : Text}
    (h : step numSwitches s (.receive i (.packet p []) memory beyond) = some s')
    (hbuffer : s.buffer = clearBuffer) :
    s.StepOk (.receive i (.packet p []) memory beyond) ↔ p.type = "HELLO".toList := by
  have hp : ∀ x ∈ p.msg, IsInt x := by
    simp only [step] at h
    split_ifs at h with hguard
    exact hguard.2.2.2.1
  have hlen := p.length_text_lt hp
  have hpacket : s.packet (.packet p []) beyond = p.text := by
    show bufferString beyond (readInto s.buffer (p.text ++ [])) = p.text
    rw [hbuffer, ← Sdn.padded_nil, List.append_nil,
      Sdn.readInto_padded [] p.text (Nat.zero_le _) hlen.le, List.drop_nil, List.append_nil]
    exact Sdn.bufferString_padded beyond p.nul_not_mem_text hlen
  rw [stepOk_iff h, ← inRange_text hp]
  simp only [entries, hpacket, List.mem_singleton, forall_eq]
  exact and_iff_left rfl

/-- A step that is in order does not depend on what lies behind `pktMsg`. -/
theorem step_of_stepOk {i : ℕ} {input : Input} {memory : Memory} {beyond : Text}
    (h : step numSwitches s (.receive i input memory beyond) = some s')
    (hok : s.StepOk (.receive i input memory beyond)) (memory' : Memory) :
    step numSwitches s (.receive i input memory' beyond) = some s' := by
  obtain ⟨hrange, -⟩ := (stepOk_iff h).mp hok ⟨s.packet input beyond, input.closed⟩
    (List.mem_singleton.mpr rfl)
  rw [← h]
  unfold step receive
  dsimp only
  rw [handlePacket_of_inRange hrange memory' memory]

end Run

/-- In every run: no element that is not there is read and nothing is handled for a closed
    connection, iff no read finds one, and every packet is filled up to five numbers by
    what is in the array behind it. -/
theorem handles_iff {numSwitches : ℕ} {s : MasterLoop φ} {tr : List (MasterLoop φ × Action φ)}
    (h : (system numSwitches).Run init tr s) : s.Handles ↔ ∀ x ∈ tr, x.1.StepOk x.2 :=
  handles_iff_of_run h nofun

/-! ## Some runs -/

/-- A switch connects and registers. -/
def oneSwitch : List (Action ℕ) :=
  [.endRound (some 4), .receive 1 (.packet (.HELLO 1 (-1) (-1) 100 110) []) .zero []]

/-- It asks. -/
def oneAsk : List (Action ℕ) :=
  oneSwitch ++ [Action.endRound none, Action.receive 1 (.packet (.ASK 100 200) []) .zero []]

/-- It ends. -/
def oneClose : List (Action ℕ) :=
  oneSwitch ++ [Action.endRound none, Action.receive 1 .eof .zero []]

/-- Two switches register, the second one behind what the first has left in the array, and
    the first one registers twice. -/
def twoSwitches : List (Action ℕ) :=
  [.endRound (some 4), .endRound (some 5),
    .receive 1 (.packet (.HELLO 1 (-1) 2 100 110) []) .zero [],
    .receive 2 (.packet (.HELLO 2 1 (-1) 200 210) []) .zero [], .endRound none,
    .receive 1 (.packet (.HELLO 1 (-1) (-1) 100 110) []) .zero [], .endRound none]

theorem handles_iff_twoSwitches : ∃ s, (system 2).exec init twoSwitches = some s ∧
    s.handled.length = 3 ∧ s.Handles ∧
      ∀ x ∈ (system 2).trace init twoSwitches, x.1.StepOk x.2 := by
  have hrun : ((system 2).exec init twoSwitches).map (fun s => decide
      (s.handled.length = 3 ∧ ∀ e ∈ s.handled, InRange e.packet ∧ e.closed = false)) =
        some true := by
    decide +kernel
  obtain ⟨s, hexec, hlength, hhandled⟩ := System.exists_of_exec hrun
  exact ⟨s, hexec, hlength, hhandled, (handles_iff (System.Run.of_exec hexec)).mp hhandled⟩

/-- The ASK has two numbers, the end of the connection none. -/
theorem handles_counterexample :
    (∃ s, (system 1).exec init oneAsk = some s ∧ ¬ ∀ e ∈ s.handled, InRange e.packet) ∧
      ∃ s, (system 1).exec init oneClose = some s ∧ ∃ e ∈ s.handled, e.closed = true :=
  ⟨System.exists_of_exec (by decide +kernel), System.exists_of_exec (by decide +kernel)⟩

end MasterLoop

end Cmput379.A3w22
