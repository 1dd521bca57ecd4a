import Mathlib.Data.List.Induction
import Mathlib.Tactic.IntervalCases
import Cmput379.Lib.Decimal
import Cmput379.Sdn.Buffer

/-!
# The FIFO between two neighbours

A FIFO is a byte stream: `sendRelayPacket` appends the text of a RELAY packet,
and a read of the neighbour's loop takes at most `MAX_BUFFER` bytes from its
front. The packets carry no length and no delimiter, and `parsePacketString`
reads the first packet of what a read returns. When `pfds[2]` is read, the array
still holds what the read of `pfds[1]` in the same round has stored there.

`relay_delivered_iff`: once the FIFO is drained, every RELAY written has been
handled exactly once with its own header iff no two writes happened without a
read between them, and no left-over digits stood behind a packet when it was
read.
-/

namespace Cmput379.Sdn

open Cmput379.Lib

/-- The arguments `srcIp` and `destIp` of `sendRelayPacket`. -/
structure Header where
  srcIp : ℤ
  destIp : ℤ
  srcIp_int : IsInt srcIp
  destIp_int : IsInt destIp

namespace Header

def packet (h : Header) : Packet := .RELAY h.srcIp h.destIp

def text (h : Header) : Text := h.packet.text

def ips (h : Header) : ℤ × ℤ := (h.srcIp, h.destIp)

/-- The text `rest` behind the packet does not change its last number. -/
def Intact (h : Header) (rest : Text) : Prop :=
  rest.takeWhile Char.isDigit = [] ∨ h.destIp = 0 ∧ value (rest.takeWhile Char.isDigit) = 0

end Header

/-- What happens on a FIFO: the writer sends a RELAY, or the reader's loop, whose
    variables are `reader` then, polls it. In the same round a read of `pfds[1]` has
    returned `lower`, and `beyond` is the memory behind the array. -/
inductive FifoEvent
  | write (h : Header)
  | read (reader : SwitchState) (lower beyond : Text)

/-- A FIFO, how much its reads have added to the reader's `relayIn`, and the headers
    that have been handled. -/
structure FifoLink where
  queue : Text
  relayIn : ℤ
  handled : List (ℤ × ℤ)

/-- A new FIFO. -/
def FifoLink.init : FifoLink := ⟨[], 0, []⟩

/-- The header of a string that is handled as a RELAY. -/
def relayHeader (packetString : Text) : Option (ℤ × ℤ) :=
  match parsePacketString packetString with
  | (type, srcIp :: destIp :: _) =>
    if type = ['R', 'E', 'L', 'A', 'Y'] then some (srcIp, destIp) else none
  | _ => none

/-- The array before `pfds[port]` is read: cleared at line 449, and since then the
    target of the read of `pfds[1]`, when `port` is 2. -/
def arrayBefore (port : ℤ) (lower : Text) : Text :=
  if port = 2 then readInto clearBuffer (lower.take MAX_BUFFER) else clearBuffer

/-- The string `string(buffer)` after a read from a queue of bytes. -/
def receive (array beyond queue : Text) : Text :=
  bufferString beyond (readInto array (queue.take MAX_BUFFER))

/-- One event; an empty FIFO is not ready for reading. -/
def FifoLink.step (cfg : SwitchConfig) (port : ℤ) (l : FifoLink) : FifoEvent → Option FifoLink
  | .write h => some { l with queue := l.queue ++ h.text }
  | .read reader lower beyond =>
    if l.queue = [] then some l
    else
      let packetString := receive (arrayBefore port lower) beyond l.queue
      (reader.handleText cfg port packetString).map fun result =>
        { queue := l.queue.drop MAX_BUFFER
          relayIn := l.relayIn + (result.1.counts.relayIn - reader.counts.relayIn)
          handled := l.handled ++ (relayHeader packetString).toList }

/-- A schedule of events. -/
def FifoLink.run (cfg : SwitchConfig) (port : ℤ) (l : FifoLink) (events : List FifoEvent) :
    Option FifoLink :=
  events.foldlM (FifoLink.step cfg port) l

/-- The headers written in a schedule, in order. -/
def written (events : List FifoEvent) : List (ℤ × ℤ) :=
  events.filterMap fun
    | .write h => some h.ips
    | .read .. => none

/-- Two writes with no read between them. -/
def Backlog (events : List FifoEvent) : Prop :=
  ∃ before h h' after, events = before ++ .write h :: .write h' :: after

/-- What stands in the array behind the packet `h` when it is read. -/
def leftOver (port : ℤ) (h : Header) (lower beyond : Text) : Text :=
  bufferString beyond ((arrayBefore port lower).drop h.text.length)

/-- A packet that is read next after it is written is not continued by digits of what
    has been read from `pfds[1]`. -/
def Undisturbed (port : ℤ) (events : List FifoEvent) : Prop :=
  ∀ before h reader lower beyond after,
    events = before ++ .write h :: .read reader lower beyond :: after →
      h.Intact (leftOver port h lower beyond)

/-- The RELAYs written are the ones handled, in order and each with its own header,
    and the reads have counted them in `relayIn`. -/
def Delivered (events : List FifoEvent) (l : FifoLink) : Prop :=
  l.handled = written events ∧ l.relayIn = (written events).length

/-! ## Reading the front of the queue -/

/-- The bytes of a list of packets in the FIFO. -/
def texts (hs : List Header) : Text := hs.flatMap Header.text

@[simp] theorem texts_nil : texts [] = [] := rfl

@[simp] theorem texts_cons (h : Header) (hs : List Header) : texts (h :: hs) = h.text ++ texts hs :=
  rfl

@[simp] theorem texts_append (hs hs' : List Header) :
    texts (hs ++ hs') = texts hs ++ texts hs' := by
  simp [texts]

theorem Header.text_eq (h : Header) :
    h.text = ['R', 'E', 'L', 'A', 'Y', ':'] ++ (intText h.srcIp ++ ',' :: intText h.destIp) := by
  simp [Header.text, Header.packet, Packet.text]

theorem Header.length_text_le (h : Header) : h.text.length ≤ 29 := by
  have h1 := length_intText_le h.srcIp_int
  have h2 := length_intText_le h.destIp_int
  simp only [Header.text_eq, List.length_append, List.length_cons, List.length_nil]
  omega

theorem Header.length_text_pos (h : Header) : 6 < h.text.length := by
  simp only [Header.text_eq, List.length_append, List.length_cons, List.length_nil]
  omega

theorem Header.nul_not_mem_text (h : Header) : nul ∉ h.text := Packet.nul_not_mem_text _

theorem nul_not_mem_texts (hs : List Header) : nul ∉ texts hs := by
  simp only [texts, List.mem_flatMap, not_exists, not_and]
  exact fun h _ => h.nul_not_mem_text

/-- The string received is what the read returned, and what stands in the array
    behind it. -/
theorem receive_eq (array beyond : Text) {queue : Text} (hnul : nul ∉ queue) :
    receive array beyond queue = queue.take MAX_BUFFER ++
      bufferString beyond (array.drop (queue.take MAX_BUFFER).length) :=
  bufferString_append beyond (fun h => hnul (List.mem_of_mem_take h)) _

/-- The end of a packet whose front has already been read, or nothing. -/
def Fragment (f : Text) : Prop := ∃ (h : Header) (j : ℕ), 0 < j ∧ f = h.text.drop j

theorem Fragment.length_le {f : Text} (hf : Fragment f) : f.length ≤ 29 := by
  obtain ⟨h, j, -, rfl⟩ := hf
  have := h.length_text_le
  rw [List.length_drop]
  omega

theorem Fragment.nul_not_mem {f : Text} (hf : Fragment f) : nul ∉ f := by
  obtain ⟨h, j, -, rfl⟩ := hf
  exact fun hm => h.nul_not_mem_text (List.mem_of_mem_drop hm)

/-- A read that takes more than one packet's length removes at least two packet
    starts, when there are two. -/
theorem drop_texts (hs : List Header) (n : ℕ) (hn : 0 < n) :
    ∃ f k, (hs ≠ [] → 0 < k) ∧ (29 < n → 2 ≤ hs.length → 2 ≤ k) ∧ (Fragment f ∨ f = []) ∧
      (texts hs).drop n = f ++ texts (hs.drop k) := by
  induction hs generalizing n with
  | nil => exact ⟨[], 0, by simp, by simp, .inr rfl, by simp⟩
  | cons h hs ih =>
    have hlen := h.length_text_le
    rcases Nat.lt_trichotomy n h.text.length with hlt | heq | hgt
    · refine ⟨h.text.drop n, 1, fun _ => Nat.one_pos, fun h29 => by omega,
        .inl ⟨h, n, hn, rfl⟩, ?_⟩
      rw [texts_cons, List.drop_append_of_le_length hlt.le]
      simp
    · refine ⟨[], 1, fun _ => Nat.one_pos, fun h29 => by omega, .inr rfl, ?_⟩
      rw [texts_cons, heq, List.drop_left]
      simp
    · obtain ⟨f, k, hk1, -, hf, hdrop⟩ := ih (n - h.text.length) (by omega)
      refine ⟨f, k + 1, fun _ => Nat.succ_pos k, fun _ h2 => ?_, hf, ?_⟩
      · have : hs ≠ [] := by
          rintro rfl
          simp at h2
        have := hk1 this
        omega
      · rw [texts_cons, List.drop_append, List.drop_eq_nil_of_le hgt.le, List.nil_append, hdrop]
        simp

/-! ## What the reader does with it -/

/-- The reader takes the packet's type and first number as sent; the second one goes
    on with the digits behind it. -/
theorem parse_text_append (h : Header) (rest : Text) :
    parsePacketString (h.text ++ rest) = (['R', 'E', 'L', 'A', 'Y'],
      h.srcIp :: if IsInt (extended h.destIp (rest.takeWhile Char.isDigit)) then
        extended h.destIp (rest.takeWhile Char.isDigit) ::
          parsePacketMessage (skipComma (rest.dropWhile Char.isDigit)) else []) := by
  have htype : ':' ∉ (['R', 'E', 'L', 'A', 'Y'] : Text) := by decide
  have htext : h.text ++ rest =
      ['R', 'E', 'L', 'A', 'Y'] ++ ':' :: (joinInts ([h.srcIp] ++ [h.destIp]) ++ rest) := by
    simp [Header.text, Header.packet, Packet.text]
  rw [htext, parsePacketString, takeWhile_type htype, dropWhile_type htype, if_pos (by simp),
    List.tail_cons, parsePacketMessage_joinInts (by simp [h.srcIp_int]), parsePacketMessage_eq,
    extractInt_intText_append]
  split_ifs <;> rfl

/-- Exactly then the number is read as sent. -/
theorem Header.intact_iff (h : Header) (rest : Text) :
    h.Intact rest ↔ extended h.destIp (rest.takeWhile Char.isDigit) = h.destIp :=
  (extended_eq_self _ _).symm

/-- A packet whose last number is still an `int` is handled with that number. -/
theorem handle_text_append (cfg : SwitchConfig) (reader : SwitchState) (port : ℤ) (h : Header)
    {rest : Text} (hint : IsInt (extended h.destIp (rest.takeWhile Char.isDigit))) :
    reader.handleText cfg port (h.text ++ rest) = some (reader.handleRelay cfg port h.srcIp
        (extended h.destIp (rest.takeWhile Char.isDigit))) ∧
      relayHeader (h.text ++ rest) =
        some (h.srcIp, extended h.destIp (rest.takeWhile Char.isDigit)) := by
  constructor
  · simp [SwitchState.handleText, SwitchState.handlePacket, printPacketMessage,
      parse_text_append, if_pos hint]
  · simp [relayHeader, parse_text_append, if_pos hint]

/-- Otherwise the loop reads a number that is not there. -/
theorem handle_text_append_eq_none (cfg : SwitchConfig) (reader : SwitchState) (port : ℤ)
    (h : Header) {rest : Text}
    (hint : ¬ IsInt (extended h.destIp (rest.takeWhile Char.isDigit))) :
    reader.handleText cfg port (h.text ++ rest) = none := by
  simp [SwitchState.handleText, SwitchState.handlePacket, printPacketMessage,
    parse_text_append, if_neg hint]

/-- At the start of a packet: what follows it in the FIFO does no harm; if nothing
    follows, what stood in the array does. -/
theorem receive_front (array beyond : Text) (h : Header) (hs : List Header) :
    ∃ rest, receive array beyond (texts (h :: hs)) = h.text ++ rest ∧
      (hs ≠ [] → h.Intact rest) ∧
      (hs = [] → rest = bufferString beyond (array.drop h.text.length)) := by
  have hlen := h.length_text_le
  have htake : (texts (h :: hs)).take MAX_BUFFER =
      h.text ++ (texts hs).take (MAX_BUFFER - h.text.length) := by
    rw [texts_cons, List.take_append, List.take_of_length_le (by unfold MAX_BUFFER; omega)]
  rw [receive_eq array beyond (nul_not_mem_texts _), htake, List.append_assoc]
  refine ⟨_, rfl, fun hne => .inl ?_, ?_⟩
  · obtain ⟨h', hs, rfl⟩ := List.exists_cons_of_ne_nil hne
    obtain ⟨m, hm⟩ : ∃ m, MAX_BUFFER - h.text.length = m + 1 :=
      ⟨MAX_BUFFER - h.text.length - 1, by unfold MAX_BUFFER; omega⟩
    rw [hm, texts_cons, Header.text_eq]
    rfl
  · rintro rfl
    simp

/-- The type names of the protocol. -/
def typeNames : List Text :=
  [['O', 'P', 'E', 'N'], ['A', 'C', 'K'], ['Q', 'U', 'E', 'R', 'Y'], ['A', 'D', 'D'],
    ['R', 'E', 'L', 'A', 'Y']]

/-- A string of no known type is printed and ignored. -/
theorem handlePacket_of_not_mem_typeNames (cfg : SwitchConfig) (s : SwitchState) (i : ℤ)
    {packetType : Text} (h : packetType ∉ typeNames) (msg : List ℤ) :
    s.handlePacket cfg i packetType msg = some (s, []) := by
  simp only [typeNames, List.mem_cons, List.not_mem_nil, or_false, not_or] at h
  obtain ⟨h1, h2, h3, h4, h5⟩ := h
  simp [SwitchState.handlePacket, printPacketMessage, h1, h2, h3, h4, h5]

/-- No type name starts inside a packet. -/
theorem fragment_type {f : Text} (hf : Fragment f) (hne : f ≠ []) (rest : Text) :
    (f ++ rest).takeWhile (· ≠ ':') ∉ typeNames := by
  obtain ⟨h, j, hj, rfl⟩ := hf
  -- a text that starts with none of O, A, Q, R has no known type
  have hfirst : ∀ c s, c ∉ ['O', 'A', 'Q', 'R'] → (c :: s).takeWhile (· ≠ ':') ∉ typeNames := by
    intro c s hc hm
    simp only [List.takeWhile_cons] at hm
    split at hm
    · simp only [typeNames, List.mem_cons, List.cons.injEq, List.not_mem_nil, or_false] at hm
      simp only [List.mem_cons, List.not_mem_nil, or_false, not_or] at hc
      tauto
    · revert hm
      decide
  rw [Header.text_eq] at hne ⊢
  rcases lt_or_ge j 6 with hlt | hge
  · -- inside the word RELAY or at its colon
    interval_cases j
    · exact hfirst 'E' _ (by decide)
    · exact hfirst 'L' _ (by decide)
    · have : (('A' :: 'Y' :: ':' :: (intText h.srcIp ++ ',' :: intText h.destIp)) ++
          rest).takeWhile (· ≠ ':') = ['A', 'Y'] := by simp
      simp only [List.cons_append, List.drop_succ_cons, List.drop_zero, List.nil_append] at this ⊢
      rw [this]
      decide
    · exact hfirst 'Y' _ (by decide)
    · exact hfirst ':' _ (by decide)
  · -- inside the numbers
    rw [List.drop_append, List.drop_eq_nil_of_le (by simpa using hge), List.nil_append] at hne ⊢
    obtain ⟨c, s, hcs⟩ := List.exists_cons_of_ne_nil hne
    have hc : c ∈ intText h.srcIp ++ ',' :: intText h.destIp :=
      List.mem_of_mem_drop (hcs ▸ List.mem_cons_self)
    rw [hcs]
    refine hfirst c _ fun hbad => ?_
    have hclass : c = '-' ∨ c = ',' ∨ c.isDigit = true := by
      simp only [List.mem_append, List.mem_cons] at hc
      rcases hc with hc | rfl | hc
      · exact (mem_intText hc).imp_right .inr
      · exact .inr (.inl rfl)
      · exact (mem_intText hc).imp_right .inr
    simp only [List.mem_cons, List.not_mem_nil, or_false] at hbad
    rcases hbad with rfl | rfl | rfl | rfl <;> revert hclass <;> decide

/-- Inside a packet the reader finds no known type and handles nothing. -/
theorem handle_fragment (cfg : SwitchConfig) (reader : SwitchState) (port : ℤ)
    (array beyond : Text) {f : Text} (hf : Fragment f) (hne : f ≠ []) (hs : List Header) :
    reader.handleText cfg port (receive array beyond (f ++ texts hs)) = some (reader, []) ∧
      relayHeader (receive array beyond (f ++ texts hs)) = none := by
  have hnul : nul ∉ f ++ texts hs := by
    simp [hf.nul_not_mem, nul_not_mem_texts]
  have htake : (f ++ texts hs).take MAX_BUFFER = f ++ (texts hs).take (MAX_BUFFER - f.length) := by
    have := hf.length_le
    rw [List.take_append, List.take_of_length_le (by unfold MAX_BUFFER; omega)]
  rw [receive_eq array beyond hnul, htake, List.append_assoc]
  have htype := fragment_type hf hne ((texts hs).take (MAX_BUFFER - f.length) ++
    bufferString beyond (array.drop (f ++ (texts hs).take (MAX_BUFFER - f.length)).length))
  constructor
  · exact handlePacket_of_not_mem_typeNames cfg reader port htype _
  · simp only [relayHeader, parsePacketString]
    split
    · rename_i heq
      simp only [Prod.mk.injEq] at heq
      rw [if_neg]
      rintro rfl
      exact htype (heq.1 ▸ by decide)
    · rfl

theorem relayIn_handleRelay (cfg : SwitchConfig) (s : SwitchState) (i srcIp destIp : ℤ) :
    (s.handleRelay cfg i srcIp destIp).1.counts.relayIn = s.counts.relayIn + 1 := by
  unfold SwitchState.handleRelay
  dsimp only
  split_ifs <;> rfl

theorem FifoLink.step_read (cfg : SwitchConfig) (port : ℤ) (l : FifoLink)
    {reader : SwitchState} {lower beyond : Text} {result : SwitchState × List Write}
    (hne : l.queue ≠ [])
    (h : reader.handleText cfg port (receive (arrayBefore port lower) beyond l.queue) =
      some result) :
    l.step cfg port (.read reader lower beyond) = some
      { queue := l.queue.drop MAX_BUFFER
        relayIn := l.relayIn + (result.1.counts.relayIn - reader.counts.relayIn)
        handled := l.handled ++
          (relayHeader (receive (arrayBefore port lower) beyond l.queue)).toList } := by
  simp only [FifoLink.step, if_neg hne, h]
  rfl

/-! ## Schedules -/

section Schedule

variable (cfg : SwitchConfig) (port : ℤ)

/-- The state of the FIFO after a schedule: a fragment `f` of a packet already
    begun, then the packets `hs`. Without a backlog nothing is lost, and what was
    not disturbed was handled as sent; after one, either it is still queued or a
    packet has been lost. -/
structure FifoInv (events : List FifoEvent) (l : FifoLink) (f : Text)
    (hs : List Header) : Prop where
  fragment : Fragment f ∨ f = []
  queue : l.queue = f ++ texts hs
  relayIn : l.relayIn = l.handled.length
  bound : l.handled.length + hs.length ≤ (written events).length
  pending : ∀ before h, events = before ++ [.write h] → hs ≠ []
  lost : Backlog events → 2 ≤ hs.length ∨ l.handled.length + hs.length < (written events).length
  kept : ¬ Backlog events → f = [] ∧
    (Undisturbed port events ↔ l.handled ++ hs.map Header.ips = written events) ∧
      (hs = [] ∨ ∃ before h, hs = [h] ∧ events = before ++ [.write h])

theorem written_concat_write (events : List FifoEvent) (h : Header) :
    written (events ++ [.write h]) = written events ++ [h.ips] := by
  simp [written]

theorem written_concat_read (events : List FifoEvent) (reader : SwitchState)
    (lower beyond : Text) : written (events ++ [.read reader lower beyond]) = written events := by
  simp [written]

theorem Backlog.concat {events : List FifoEvent} (h : Backlog events) (e : FifoEvent) :
    Backlog (events ++ [e]) := by
  obtain ⟨before, h1, h2, after, rfl⟩ := h
  exact ⟨before, h1, h2, after ++ [e], by simp⟩

/-- A backlog that the last event completes ends in two writes. -/
theorem Backlog.of_concat {events : List FifoEvent} {e : FifoEvent} (h : Backlog (events ++ [e])) :
    Backlog events ∨ ∃ before h1 h2, events = before ++ [.write h1] ∧ e = .write h2 := by
  obtain ⟨before, h1, h2, after, heq⟩ := h
  rcases List.eq_nil_or_concat after with rfl | ⟨after, x, rfl⟩
  · right
    have heq' : events ++ [e] = (before ++ [.write h1]) ++ [.write h2] := by simpa using heq
    obtain ⟨hev, he⟩ := List.append_inj' heq' rfl
    exact ⟨before, h1, h2, hev, by simpa using he⟩
  · left
    have heq' : events ++ [e] = (before ++ .write h1 :: .write h2 :: after) ++ [x] := by
      simpa using heq
    exact ⟨before, h1, h2, after, (List.append_inj' heq' rfl).1⟩

theorem Undisturbed.of_concat {port : ℤ} {events : List FifoEvent} {e : FifoEvent}
    (h : Undisturbed port (events ++ [e])) : Undisturbed port events := by
  rintro before h' reader lower beyond after rfl
  exact h before h' reader lower beyond (after ++ [e]) (by simp)

theorem undisturbed_concat_write (events : List FifoEvent) (h : Header) :
    Undisturbed port (events ++ [.write h]) ↔ Undisturbed port events := by
  refine ⟨Undisturbed.of_concat, fun hall before h' reader lower beyond after heq => ?_⟩
  rcases List.eq_nil_or_concat after with rfl | ⟨after, x, rfl⟩
  · have heq' : events ++ [.write h] =
        (before ++ [.write h']) ++ [.read reader lower beyond] := by simpa using heq
    exact absurd (List.append_inj' heq' rfl).2 (by simp)
  · have heq' : events ++ [.write h] =
        (before ++ .write h' :: .read reader lower beyond :: after) ++ [x] := by simpa using heq
    exact hall before h' reader lower beyond after (List.append_inj' heq' rfl).1

/-- A read concerns the packet that has been written just before it. -/
theorem undisturbed_concat_read (events : List FifoEvent) (reader : SwitchState)
    (lower beyond : Text) : Undisturbed port (events ++ [.read reader lower beyond]) ↔
      Undisturbed port events ∧ ∀ before h, events = before ++ [.write h] →
        h.Intact (leftOver port h lower beyond) := by
  constructor
  · refine fun hall => ⟨hall.of_concat, ?_⟩
    rintro before h rfl
    exact hall before h reader lower beyond [] (by simp)
  · rintro ⟨hfront, hlast⟩ before h reader' lower' beyond' after heq
    rcases List.eq_nil_or_concat after with rfl | ⟨after, x, rfl⟩
    · have heq' : events ++ [.read reader lower beyond] =
          (before ++ [.write h]) ++ [.read reader' lower' beyond'] := by simpa using heq
      obtain ⟨hevents, hread⟩ := List.append_inj' heq' rfl
      simp only [List.cons.injEq, FifoEvent.read.injEq, and_true] at hread
      obtain ⟨-, rfl, rfl⟩ := hread
      exact hlast before h hevents
    · have heq' : events ++ [.read reader lower beyond] =
          (before ++ .write h :: .read reader' lower' beyond' :: after) ++ [x] := by
        simpa using heq
      exact hfront before h reader' lower' beyond' after (List.append_inj' heq' rfl).1

theorem FifoInv.init : FifoInv port [] .init [] [] where
  fragment := .inr rfl
  queue := rfl
  relayIn := rfl
  bound := Nat.zero_le _
  pending := by simp
  lost := by rintro ⟨before, h, h', after, heq⟩; simp at heq
  kept := by
    refine fun _ => ⟨rfl, ⟨fun _ => rfl, fun _ => ?_⟩, .inl rfl⟩
    intro before h reader lower beyond after heq
    simp at heq

theorem FifoInv.write {events : List FifoEvent} {l : FifoLink} {f : Text} {hs : List Header}
    (hinv : FifoInv port events l f hs) (h : Header) : FifoInv port (events ++ [.write h])
      { l with queue := l.queue ++ h.text } f (hs ++ [h]) where
  fragment := hinv.fragment
  queue := by simp [hinv.queue]
  relayIn := hinv.relayIn
  bound := by
    have := hinv.bound
    simp only [written_concat_write, List.length_append, List.length_singleton]
    omega
  pending := by simp
  lost := by
    intro hback
    simp only [written_concat_write, List.length_append, List.length_singleton]
    rcases hback.of_concat with hback | ⟨before, h1, h2, hev, -⟩
    · rcases hinv.lost hback with h2 | hlt
      · left; omega
      · right; omega
    · -- the write before this one is still queued
      have := List.length_pos_of_ne_nil (hinv.pending before h1 hev)
      left
      omega
  kept := by
    intro hno
    obtain ⟨hf, hall, hlast⟩ := hinv.kept fun hb => hno (hb.concat _)
    have hnil : hs = [] := by
      refine hlast.resolve_right ?_
      rintro ⟨before, h1, -, hev⟩
      exact hno ⟨before, h1, h, [], by simp [hev]⟩
    subst hnil
    refine ⟨hf, ?_, .inr ⟨events, h, rfl, rfl⟩⟩
    simp only [List.map_nil, List.append_nil] at hall
    rw [undisturbed_concat_write, written_concat_write, hall]
    simp

/-- No packet starts in an empty FIFO. -/
theorem FifoInv.drained {events : List FifoEvent} {l : FifoLink} {f : Text} {hs : List Header}
    (hinv : FifoInv port events l f hs) (hempty : l.queue = []) : hs = [] := by
  cases hs with
  | nil => rfl
  | cons h hs =>
    have hqueue := congrArg List.length hinv.queue
    have := h.length_text_pos
    simp only [hempty, texts_cons, List.length_nil, List.length_append] at hqueue
    omega

section Read

variable {events : List FifoEvent} {l : FifoLink} {f : Text} {hs : List Header}
  (reader : SwitchState) (lower beyond : Text)

/-- A read that finds nothing queued. -/
theorem FifoInv.read_empty (hinv : FifoInv port events l f hs) (hempty : l.queue = []) :
    FifoInv port (events ++ [.read reader lower beyond]) l f hs where
  fragment := hinv.fragment
  queue := hinv.queue
  relayIn := hinv.relayIn
  bound := by rw [written_concat_read]; exact hinv.bound
  pending := by
    intro before h heq
    exact absurd (List.append_inj' heq rfl).2 (by simp)
  lost := by
    intro hback
    rw [written_concat_read]
    rcases hback.of_concat with hback | ⟨before, h1, h2, -, he⟩
    · exact hinv.lost hback
    · cases he
  kept := by
    intro hno
    obtain ⟨hf, hall, -⟩ := hinv.kept fun hb => hno (hb.concat _)
    have hnil : hs = [] := hinv.drained port hempty
    have hnone : ∀ before h, events = before ++ [.write h] →
        h.Intact (leftOver port h lower beyond) :=
      fun before h hev => absurd hnil (hinv.pending before h hev)
    rw [written_concat_read, undisturbed_concat_read, and_iff_left hnone]
    exact ⟨hf, hall, .inl hnil⟩

/-- A read that handles nothing and drops the packets `hs` up to the `k`-th. -/
theorem FifoInv.read_fragment {f' : Text} {k : ℕ} (hinv : FifoInv port events l f hs)
    (hne : f ≠ []) (hk : hs ≠ [] → 0 < k) (hf' : Fragment f' ∨ f' = []) :
    FifoInv port (events ++ [.read reader lower beyond])
      { l with queue := f' ++ texts (hs.drop k) } f' (hs.drop k) where
  fragment := hf'
  queue := rfl
  relayIn := hinv.relayIn
  bound := by
    have := hinv.bound
    simp only [written_concat_read, List.length_drop]
    omega
  pending := by
    intro before h heq
    exact absurd (List.append_inj' heq rfl).2 (by simp)
  lost := by
    intro hback
    have hbound := hinv.bound
    simp only [written_concat_read, List.length_drop]
    rcases hback.of_concat with hback | ⟨before, h1, h2, -, he⟩
    · rcases hinv.lost hback with h2 | hlt
      · have : hs ≠ [] := by
          rintro rfl
          simp at h2
        have := hk this
        right
        omega
      · right
        omega
    · cases he
  kept := fun hno => absurd (hinv.kept fun hb => hno (hb.concat _)).1 hne

/-- A read at the start of the packet `h`: a packet with its first number is handled, and
    with its second one if that is intact; when there are further packets the next of
    them is dropped with it. -/
theorem FifoInv.read_front {h : Header} {f' : Text} {k : ℕ} {destIp : ℤ}
    (hinv : FifoInv port events l [] (h :: hs)) (hk : 0 < k) (hk2 : hs ≠ [] → 2 ≤ k)
    (hf' : Fragment f' ∨ f' = []) (hsingle : hs = [] → f' = [] ∧
      (h.Intact (leftOver port h lower beyond) ↔ destIp = h.destIp)) :
    FifoInv port (events ++ [.read reader lower beyond])
      { queue := f' ++ texts ((h :: hs).drop k)
        relayIn := l.relayIn + 1
        handled := l.handled ++ [(h.srcIp, destIp)] }
      f' ((h :: hs).drop k) where
  fragment := hf'
  queue := rfl
  relayIn := by simp [hinv.relayIn]
  bound := by
    have := hinv.bound
    simp only [List.length_cons] at this
    simp only [written_concat_read, List.length_drop, List.length_append, List.length_cons,
      List.length_nil]
    omega
  pending := by
    intro before h heq
    exact absurd (List.append_inj' heq rfl).2 (by simp)
  lost := by
    intro hback
    have hbound := hinv.bound
    simp only [List.length_cons] at hbound
    simp only [written_concat_read, List.length_drop, List.length_append, List.length_cons,
      List.length_nil]
    rcases hback.of_concat with hback | ⟨before, h1, h2, -, he⟩
    · rcases hinv.lost hback with h2 | hlt
      · have hne : hs ≠ [] := by
          rintro rfl
          simp at h2
        have := hk2 hne
        have := List.length_pos_of_ne_nil hne
        right
        omega
      · simp only [List.length_cons] at hlt
        right
        omega
    · cases he
  kept := by
    intro hno
    obtain ⟨-, hall, hlast⟩ := hinv.kept fun hb => hno (hb.concat _)
    obtain ⟨before, h', hh, rfl⟩ := hlast.resolve_left (List.cons_ne_nil _ _)
    obtain ⟨rfl, rfl⟩ := List.cons.inj hh
    obtain ⟨hnil, hintact⟩ := hsingle rfl
    have hdrop : [h].drop k = [] :=
      List.drop_eq_nil_of_le (by simp only [List.length_singleton]; omega)
    have hread : (∀ before' h', before ++ [FifoEvent.write h] = before' ++ [.write h'] →
        h'.Intact (leftOver port h' lower beyond)) ↔ destIp = h.destIp := by
      rw [← hintact]
      refine ⟨fun hall => hall before h rfl, fun hh before' h' heq => ?_⟩
      obtain ⟨-, hlast⟩ := List.append_inj' heq rfl
      simp only [List.cons.injEq, FifoEvent.write.injEq, and_true] at hlast
      exact hlast ▸ hh
    refine ⟨hnil, ?_, .inl hdrop⟩
    rw [undisturbed_concat_read, hall, hread, hdrop, written_concat_read, written_concat_write]
    simp only [List.map_cons, List.map_nil, List.append_nil]
    rw [List.append_left_inj]
    constructor
    · rintro ⟨hbefore, rfl⟩
      rw [hbefore]
      rfl
    · intro heq
      obtain ⟨hbefore, hpair⟩ := List.append_inj' heq rfl
      simp only [Header.ips, List.cons.injEq, Prod.mk.injEq, true_and, and_true] at hpair
      exact ⟨hbefore, hpair⟩

end Read

/-- One step lemma for all events: a read fails only where a packet is continued. -/
theorem FifoInv.step {events : List FifoEvent} {l : FifoLink} {f : Text} {hs : List Header}
    (hinv : FifoInv port events l f hs) (e : FifoEvent) :
    (∃ l', l.step cfg port e = some l' ∧ ∃ f' hs', FifoInv port (events ++ [e]) l' f' hs') ∨
      l.step cfg port e = none ∧
        ¬ (¬ Backlog (events ++ [e]) ∧ Undisturbed port (events ++ [e])) := by
  cases e with
  | write h => exact .inl ⟨_, rfl, f, hs ++ [h], hinv.write port h⟩
  | read reader lower beyond =>
    by_cases hempty : l.queue = []
    · exact .inl ⟨l, by simp [FifoLink.step, hempty], f, hs,
        hinv.read_empty port reader lower beyond hempty⟩
    have hqueue := hinv.queue
    by_cases hf : f = []
    · subst hf
      rw [List.nil_append] at hqueue
      cases hs with
      | nil => exact absurd hqueue hempty
      | cons h hs =>
        obtain ⟨rest, hreceive, hmore, hlast⟩ :=
          receive_front (arrayBefore port lower) beyond h hs
        by_cases hint : IsInt (extended h.destIp (rest.takeWhile Char.isDigit))
        · -- the packet is handled, with whatever number its second one has become
          left
          obtain ⟨hhandle, hheader⟩ := handle_text_append cfg reader port h hint
          have hrelay := relayIn_handleRelay cfg reader port h.srcIp
            (extended h.destIp (rest.takeWhile Char.isDigit))
          obtain ⟨f', k, hk, hk2, hf', hdrop⟩ :=
            drop_texts (h :: hs) MAX_BUFFER (by decide)
          have hk2' : hs ≠ [] → 2 ≤ k := fun hne =>
            hk2 (by decide) (by
              have := List.length_pos_of_ne_nil hne
              simp only [List.length_cons]
              omega)
          have hsingle : hs = [] → f' = [] ∧ (h.Intact (leftOver port h lower beyond) ↔
              extended h.destIp (rest.takeWhile Char.isDigit) = h.destIp) := by
            rintro rfl
            have hlen := h.length_text_le
            have : (texts [h]).drop MAX_BUFFER = [] := List.drop_eq_nil_of_le (by
              simp only [texts_cons, texts_nil, List.append_nil, MAX_BUFFER]
              omega)
            rw [this] at hdrop
            rw [h.intact_iff, hlast rfl]
            exact ⟨(List.append_eq_nil_iff.mp hdrop.symm).1, Iff.rfl⟩
          rw [← hreceive, ← hqueue] at hhandle hheader
          rw [← hqueue] at hdrop
          refine ⟨_, ?_, f', (h :: hs).drop k,
            hinv.read_front port reader lower beyond (hk (by simp)) hk2' hf' hsingle⟩
          rw [l.step_read cfg port hempty hhandle, hheader, hdrop, hrelay]
          simp
        · -- the number does not fit an `int`, so that there is no second one
          right
          have hnot : ¬ h.Intact rest := by
            rw [h.intact_iff]
            intro heq
            rw [heq] at hint
            exact hint h.destIp_int
          obtain rfl : hs = [] := not_not.mp (mt hmore hnot)
          refine ⟨?_, ?_⟩
          · have hhandle := handle_text_append_eq_none cfg reader port h hint
            rw [← hreceive, ← hqueue] at hhandle
            simp only [FifoLink.step, if_neg hempty, hhandle]
            rfl
          · rintro ⟨hno, hundisturbed⟩
            obtain ⟨-, -, hkept⟩ := hinv.kept fun hb => hno (hb.concat _)
            obtain ⟨before, h', hh, hev⟩ := hkept.resolve_left (List.cons_ne_nil _ _)
            obtain ⟨rfl, -⟩ := List.cons.inj hh
            have hintact := ((undisturbed_concat_read ..).mp hundisturbed).2 before h hev
            exact hnot (hlast rfl ▸ hintact)
    · have hfrag : Fragment f := hinv.fragment.resolve_right hf
      obtain ⟨hhandle, hheader⟩ :=
        handle_fragment cfg reader port (arrayBefore port lower) beyond hfrag hf hs
      have hlen := hfrag.length_le
      obtain ⟨f', k, hk, -, hf', hdrop⟩ :=
        drop_texts hs (MAX_BUFFER - f.length) (by unfold MAX_BUFFER; omega)
      have hdrop' : (f ++ texts hs).drop MAX_BUFFER = f' ++ texts (hs.drop k) := by
        rw [List.drop_append, List.drop_eq_nil_of_le (by unfold MAX_BUFFER; omega),
          List.nil_append, hdrop]
      rw [← hqueue] at hhandle hheader hdrop'
      refine .inl ⟨_, ?_, f', hs.drop k,
        hinv.read_fragment port reader lower beyond hf hk hf'⟩
      rw [l.step_read cfg port hempty hhandle, hheader, hdrop']
      simp

/-- Every schedule runs to its end, unless a packet is continued in it. -/
theorem FifoInv.of_run (events : List FifoEvent) :
    (∃ l, FifoLink.run cfg port .init events = some l ∧ ∃ f hs, FifoInv port events l f hs) ∨
      FifoLink.run cfg port .init events = none ∧
        ¬ (¬ Backlog events ∧ Undisturbed port events) := by
  have hrun : ∀ events e, FifoLink.run cfg port .init (events ++ [e]) =
      (FifoLink.run cfg port .init events).bind fun l => l.step cfg port e := by
    intro events e
    unfold FifoLink.run
    rw [List.foldlM_append]
    cases List.foldlM (FifoLink.step cfg port) .init events <;> simp
  induction events using List.reverseRecOn with
  | nil => exact .inl ⟨_, rfl, [], [], FifoInv.init port⟩
  | append_singleton events e ih =>
    rw [hrun]
    rcases ih with ⟨l, hl, f, hs, hinv⟩ | ⟨hnone, hnot⟩
    · rw [hl]
      exact hinv.step cfg port e
    · rw [hnone]
      exact .inr ⟨rfl, fun h => hnot ⟨fun hb => h.1 (hb.concat _), h.2.of_concat⟩⟩

/-- For every schedule of writes and reads of a FIFO that starts empty and is drained at
    its end, whatever the reader's loop has done in between and whatever it has read from
    `pfds[1]`: every RELAY written has been handled exactly once with its own header iff
    no two writes happened without a read between them and no packet was continued by
    left-over digits. -/
theorem relay_delivered_iff (events : List FifoEvent)
    (hdrained : ∀ l, FifoLink.run cfg port .init events = some l → l.queue = []) :
    (∃ l, FifoLink.run cfg port .init events = some l ∧ Delivered events l) ↔
      ¬ Backlog events ∧ Undisturbed port events := by
  rcases FifoInv.of_run cfg port events with ⟨l, hl, f, hs, hinv⟩ | ⟨hnone, hnot⟩
  · obtain rfl : hs = [] := hinv.drained port (hdrained l hl)
    constructor
    · rintro ⟨l', hl', hdel⟩
      obtain rfl := Option.some.inj (hl.symm.trans hl')
      have hno : ¬ Backlog events := by
        intro hback
        rcases hinv.lost hback with h2 | hlt
        · simp at h2
        · rw [hdel.1] at hlt
          simp at hlt
      refine ⟨hno, (hinv.kept hno).2.1.mpr ?_⟩
      rw [List.map_nil, List.append_nil]
      exact hdel.1
    · rintro ⟨hno, hundisturbed⟩
      have hhandled := (hinv.kept hno).2.1.mp hundisturbed
      rw [List.map_nil, List.append_nil] at hhandled
      exact ⟨l, hl, hhandled, by rw [hinv.relayIn, hhandled]⟩
  · refine ⟨fun ⟨l, hl, _⟩ => ?_, fun h => absurd h hnot⟩
    rw [hnone] at hl
    cases hl

end Schedule

/-- Switch 2 reads a RELAY of switch 3 over one of switch 1, whose last digits stay
    behind a comma, and then a longer one. -/
def besideEvents : List FifoEvent :=
  [.write ⟨8, 9, by decide, by decide⟩,
    .read (.init ex3Switch2 []) "RELAY:100,310".toList [],
    .write ⟨300, 100, by decide, by decide⟩, .read (.init ex3Switch2 []) [] []]

theorem relay_delivered_beside :
    (∀ l, FifoLink.run ex3Switch2 2 .init besideEvents = some l → l.queue = []) ∧
      ((∃ l, FifoLink.run ex3Switch2 2 .init besideEvents = some l ∧ Delivered besideEvents l) ↔
        ¬ Backlog besideEvents ∧ Undisturbed 2 besideEvents) := by
  have hrun : (FifoLink.run ex3Switch2 2 .init besideEvents).map FifoLink.queue = some [] := by
    decide +kernel
  have hdrained : ∀ l, FifoLink.run ex3Switch2 2 .init besideEvents = some l → l.queue = [] := by
    intro l hl
    rw [hl] at hrun
    exact Option.some.inj hrun
  exact ⟨hdrained, relay_delivered_iff ex3Switch2 2 besideEvents hdrained⟩

/-- Two RELAYs written before the neighbour's next read. -/
def backlogEvents : List FifoEvent :=
  [.write ⟨100, 200, by decide, by decide⟩, .write ⟨100, 201, by decide, by decide⟩,
    .read (.init ex2Switch2 []) [] []]

/-- Only the first of them is handled, and the FIFO is empty. -/
theorem relay_lost_counterexample :
    ∃ l, FifoLink.run ex2Switch2 1 .init backlogEvents = some l ∧
      l.queue = [] ∧ l.handled = [(100, 200)] ∧ l.relayIn = 1 ∧ ¬ Delivered backlogEvents l := by
  have hrun : (FifoLink.run ex2Switch2 1 .init backlogEvents).map
      (fun l => (l.queue, l.handled, l.relayIn)) = some ([], [(100, 200)], 1) := by
    decide +kernel
  obtain ⟨l, hl, hview⟩ := Option.map_eq_some_iff.mp hrun
  simp only [Prod.mk.injEq] at hview
  obtain ⟨hqueue, hhandled, hcount⟩ := hview
  refine ⟨l, hl, hqueue, hhandled, hcount, fun hdel => ?_⟩
  have hwritten : written backlogEvents = [(100, 200), (100, 201)] := rfl
  rw [Delivered, hwritten, hhandled] at hdel
  simp at hdel

end Cmput379.Sdn
