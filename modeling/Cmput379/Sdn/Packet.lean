import Cmput379.Lib.Text

/-!
# Packets

The five packet types of `test2`, their texts as the send functions of
`test2/switch.cpp` and `test2/controller.cpp` build them, and the parser of
`test2/util.cpp`.

* `parsePacketString_text_append`: parsing the text of a packet, followed by
  anything that neither continues its last number nor starts a further one,
  gives back the packet's type and fields. What follows is dropped.
* `makeFifoName_inj`: different pairs of switches have different FIFOs.
-/

namespace Cmput379.Sdn

open Cmput379.Lib

/-- A packet with the fields its send function is called with. -/
inductive Packet
  | OPEN (id port1Id port2Id ipLow ipHigh : ℤ)
  | ACK
  | QUERY (srcIp destIp : ℤ)
  | ADD (action ipLow ipHigh relayPort srcIp : ℤ)
  | RELAY (srcIp destIp : ℤ)
  deriving DecidableEq, Repr

namespace Packet

def type : Packet → Text
  | OPEN .. => ['O', 'P', 'E', 'N']
  | ACK => ['A', 'C', 'K']
  | QUERY .. => ['Q', 'U', 'E', 'R', 'Y']
  | ADD .. => ['A', 'D', 'D']
  | RELAY .. => ['R', 'E', 'L', 'A', 'Y']

/-- The fields in the order they are sent. -/
def msg : Packet → List ℤ
  | OPEN id port1Id port2Id ipLow ipHigh => [id, port1Id, port2Id, ipLow, ipHigh]
  | ACK => []
  | QUERY srcIp destIp => [srcIp, destIp]
  | ADD action ipLow ipHigh relayPort srcIp => [action, ipLow, ipHigh, relayPort, srcIp]
  | RELAY srcIp destIp => [srcIp, destIp]

/-- The bytes written: `openString` (`switch.cpp` line 77), `ackString`
    (`controller.cpp` line 61), `queryString` (`switch.cpp` line 96),
    `addString` (`controller.cpp` line 81), `relayString` (`switch.cpp`
    line 114). `strlen` stops before the terminating NUL. -/
def text : Packet → Text
  | OPEN id port1Id port2Id ipLow ipHigh =>
    ['O', 'P', 'E', 'N', ':'] ++ intText id ++ [','] ++ intText port1Id ++ [',']
      ++ intText port2Id ++ [','] ++ intText ipLow ++ [','] ++ intText ipHigh
  | ACK => ['A', 'C', 'K', ':']
  | QUERY srcIp destIp =>
    ['Q', 'U', 'E', 'R', 'Y', ':'] ++ intText srcIp ++ [','] ++ intText destIp
  | ADD action ipLow ipHigh relayPort srcIp =>
    ['A', 'D', 'D', ':'] ++ intText action ++ [','] ++ intText ipLow ++ [','] ++ intText ipHigh
      ++ [','] ++ intText relayPort ++ [','] ++ intText srcIp
  | RELAY srcIp destIp =>
    ['R', 'E', 'L', 'A', 'Y', ':'] ++ intText srcIp ++ [','] ++ intText destIp

/-- Every field is a value of `int`. -/
def InRange (p : Packet) : Prop := ∀ x ∈ p.msg, IsInt x

instance (p : Packet) : Decidable p.InRange := inferInstanceAs (Decidable (∀ x ∈ p.msg, IsInt x))

end Packet

/-- A packet the send functions can be called with: their parameters are
    `int`s. -/
structure WirePacket where
  packet : Packet
  inRange : packet.InRange

/-- `makeFifoName` (`util.cpp` lines 35–37). -/
def makeFifoName (senderId receiverId : ℤ) : Text :=
  ['f', 'i', 'f', 'o', '-'] ++ intText senderId ++ ['-'] ++ intText receiverId

/-! ## Parsing -/

/-- `if (ss.peek() == ',') ss.ignore();` -/
def skipComma : Text → Text
  | ',' :: ss => ss
  | ss => ss

theorem length_skipComma_le (s : Text) : (skipComma s).length ≤ s.length := by
  unfold skipComma
  split
  · simp
  · exact le_rfl

/-- The loop `while (ss >> i)` of `parsePacketMessage`, at most `fuel` turns. -/
def parseInts : (fuel : ℕ) → (ss : Text) → List ℤ
  | 0, _ => []
  | fuel + 1, ss =>
    match extractInt ss with
    | none => []
    | some (i, rest) => i :: parseInts fuel (skipComma rest)

/-- `parsePacketMessage` (`util.cpp` lines 18–30). Every turn of the loop
    consumes a character, so the length of the message bounds the turns. -/
def parsePacketMessage (message : Text) : List ℤ := parseInts message.length message

/-- `parsePacketString` (`util.cpp` lines 42–49). Without a colon `find`
    returns `npos`, and both `substr(0, npos)` and `substr(npos + 1)` are the
    whole string. -/
def parsePacketString (s : Text) : Text × List ℤ :=
  (s.takeWhile (· ≠ ':'),
    parsePacketMessage (if ':' ∈ s then (s.dropWhile (· ≠ ':')).tail else s))

/-- `printPacketMessage` (`util.cpp` lines 85–137): the line printed, or
    `none` where the code indexes `msg` out of range. -/
def printPacketMessage (direction : Text) (srcId destId : ℤ) (type : Text) (msg : List ℤ) :
    Option Text := do
  let src := "sw".toList ++ intText srcId
  let dest := "sw".toList ++ intText destId
  let cont := "cont".toList
  let port := fun p : ℤ => if p = -1 then "null".toList else "sw".toList ++ intText p
  let line := fun src dest packetString : Text =>
    direction ++ " (src= ".toList ++ src ++ ", dest= ".toList ++ dest ++ ") [".toList ++ type
      ++ "]".toList ++ packetString ++ "\n".toList
  if type = ['O', 'P', 'E', 'N'] then
    let port1 ← msg[1]?
    let port2 ← msg[2]?
    let low ← msg[3]?
    let high ← msg[4]?
    return line src cont (":\n         (port0= cont, port1= ".toList ++ port port1
      ++ ", port2= ".toList ++ port port2 ++ ", port3= ".toList ++ intText low ++ "-".toList
      ++ intText high ++ ")".toList)
  else if type = ['A', 'C', 'K'] then
    return line cont dest []
  else if type = ['Q', 'U', 'E', 'R', 'Y'] then
    let srcIp ← msg[0]?
    let destIp ← msg[1]?
    return line src cont (":  header= (srcIP= ".toList ++ intText srcIp ++ ", destIP= ".toList
      ++ intText destIp ++ ")".toList)
  else if type = ['A', 'D', 'D'] then
    let act ← msg[0]?
    let low ← msg[1]?
    let high ← msg[2]?
    let val ← msg[3]?
    let action := if act = 0 then "DROP".toList else if act = 1 then "FORWARD".toList else []
    return line cont dest (":\n         (srcIp= 0-1000, destIp= ".toList ++ intText low
      ++ "-".toList ++ intText high ++ ", action= ".toList ++ action ++ ":".toList ++ intText val
      ++ ", pri= 4, pktCount= 0".toList)
  else if type = ['R', 'E', 'L', 'A', 'Y'] then
    let srcIp ← msg[0]?
    let destIp ← msg[1]?
    return line src dest (":  header= (srcIP= ".toList ++ intText srcIp ++ ", destIP= ".toList
      ++ intText destIp ++ ")".toList)
  else
    return line src dest []

/-- Printing a packet as sent indexes only fields it has. -/
theorem printPacketMessage_packet (direction : Text) (srcId destId : ℤ) (p : Packet) :
    ∃ line, printPacketMessage direction srcId destId p.type p.msg = some line := by
  cases p <;> exact ⟨_, rfl⟩

/-! ## Texts as joined fields -/

/-- The renderings of `xs`, joined by commas. -/
def joinInts (xs : List ℤ) : Text := [','].intercalate (xs.map intText)

@[simp] theorem joinInts_nil : joinInts [] = [] := rfl

@[simp] theorem joinInts_singleton (x : ℤ) : joinInts [x] = intText x := by
  simp [joinInts]

@[simp] theorem joinInts_cons_cons (x y : ℤ) (xs : List ℤ) :
    joinInts (x :: y :: xs) = intText x ++ ',' :: joinInts (y :: xs) := by
  simp [joinInts, List.intercalate]

theorem Packet.text_eq (p : Packet) : p.text = p.type ++ ':' :: joinInts p.msg := by
  cases p <;> simp [Packet.text, Packet.type, Packet.msg]

theorem Packet.colon_not_mem_type (p : Packet) : ':' ∉ p.type := by
  cases p <;> simp only [Packet.type] <;> decide

/-! ## The parser on the text of a packet -/

/-- `rest` ends a list of numbers: it does not continue a number, is not a
    separator, and no number starts there. -/
structure Stops (rest : Text) : Prop where
  noDigit : NoDigit rest
  noComma : skipComma rest = rest
  noInt : extractInt rest = none

theorem Stops.nil : Stops [] := ⟨.nil, rfl, rfl⟩

theorem parseInts_joinInts {rest : Text} (hrest : Stops rest) :
    ∀ (xs : List ℤ), (∀ x ∈ xs, IsInt x) → ∀ fuel, (joinInts xs ++ rest).length ≤ fuel →
      parseInts fuel (joinInts xs ++ rest) = xs := by
  intro xs
  induction xs with
  | nil =>
    intro _ fuel _
    cases fuel with
    | zero => rfl
    | succ fuel => simp [parseInts, hrest.noInt]
  | cons x xs ih =>
    intro hxs fuel hfuel
    have hx : IsInt x := hxs x List.mem_cons_self
    have hpos : 0 < (intText x).length := List.length_pos_of_ne_nil (intText_ne_nil x)
    cases xs with
    | nil =>
      simp only [joinInts_singleton, List.length_append] at hfuel ⊢
      obtain ⟨fuel, rfl⟩ : ∃ f, fuel = f + 1 := ⟨fuel - 1, by omega⟩
      simp only [parseInts, extractInt_intText hx hrest.noDigit, hrest.noComma]
      have hstop := ih (by simp) fuel (by simp; omega)
      simpa using hstop
    | cons y ys =>
      simp only [joinInts_cons_cons, List.append_assoc, List.cons_append, List.length_append,
        List.length_cons] at hfuel ⊢
      obtain ⟨fuel, rfl⟩ : ∃ f, fuel = f + 1 := ⟨fuel - 1, by omega⟩
      have hcomma : NoDigit (',' :: (joinInts (y :: ys) ++ rest)) := .cons (by decide) _
      simp only [parseInts, extractInt_intText hx hcomma, skipComma]
      rw [ih (fun z hz => hxs z (List.mem_cons_of_mem _ hz)) fuel (by simp; omega)]

/-- Turns that are left over make no difference. -/
theorem parseInts_of_le (n : ℕ) : ∀ {m : ℕ} {ss : Text}, ss.length ≤ n → ss.length ≤ m →
    parseInts n ss = parseInts m ss := by
  have hnil : ∀ m, parseInts m [] = [] := by
    intro m
    cases m <;> rfl
  induction n with
  | zero =>
    intro m ss hn _
    obtain rfl := List.length_eq_zero_iff.mp (Nat.le_zero.mp hn)
    rw [hnil, hnil]
  | succ n ih =>
    intro m ss hn hm
    cases m with
    | zero =>
      obtain rfl := List.length_eq_zero_iff.mp (Nat.le_zero.mp hm)
      rw [hnil, hnil]
    | succ m =>
      simp only [parseInts]
      cases hextract : extractInt ss with
      | none => rfl
      | some r =>
        obtain ⟨i, rest⟩ := r
        have hrest := length_lt_of_extractInt hextract
        have hskip := length_skipComma_le rest
        simp only
        rw [ih (by omega) (show (skipComma rest).length ≤ m by omega)]

/-- The loop of `parsePacketMessage`. -/
theorem parsePacketMessage_eq (message : Text) : parsePacketMessage message =
    match extractInt message with
    | none => []
    | some (i, rest) => i :: parsePacketMessage (skipComma rest) := by
  have hturn : parsePacketMessage message = parseInts (message.length + 1) message :=
    parseInts_of_le _ le_rfl (Nat.le_succ _)
  rw [hturn, parseInts]
  cases hextract : extractInt message with
  | none => rfl
  | some r =>
    obtain ⟨i, rest⟩ := r
    have hrest := length_lt_of_extractInt hextract
    have hskip := length_skipComma_le rest
    show i :: parseInts message.length (skipComma rest) = _
    rw [parseInts_of_le _ (show (skipComma rest).length ≤ message.length by omega) le_rfl]
    rfl

/-- All but the last of some numbers are read back, whatever follows. -/
theorem parsePacketMessage_joinInts {x : ℤ} {rest : Text} :
    ∀ {xs : List ℤ}, (∀ y ∈ xs, IsInt y) →
      parsePacketMessage (joinInts (xs ++ [x]) ++ rest) =
        xs ++ parsePacketMessage (intText x ++ rest) := by
  intro xs
  induction xs with
  | nil => simp
  | cons y xs ih =>
    intro hxs
    have hcomma : joinInts (y :: (xs ++ [x])) = intText y ++ ',' :: joinInts (xs ++ [x]) := by
      cases xs <;> simp
    have hrest : NoDigit (',' :: (joinInts (xs ++ [x]) ++ rest)) := .cons (by decide) _
    rw [List.cons_append, hcomma, List.append_assoc, List.cons_append, parsePacketMessage_eq,
      extractInt_intText (hxs y List.mem_cons_self) hrest]
    show y :: parsePacketMessage (joinInts (xs ++ [x]) ++ rest) = _
    rw [ih fun z hz => hxs z (List.mem_cons_of_mem _ hz), List.cons_append]

section TypeName

variable {type : Text} (htype : ':' ∉ type)
include htype

theorem ne_colon_of_mem_type : ∀ c ∈ type, decide (c ≠ ':') = true := by
  intro c hc
  simpa using fun heq : c = ':' => htype (heq ▸ hc)

theorem takeWhile_type (s : Text) : (type ++ ':' :: s).takeWhile (· ≠ ':') = type := by
  rw [List.takeWhile_append_of_pos (ne_colon_of_mem_type htype)]
  simp

theorem dropWhile_type (s : Text) : (type ++ ':' :: s).dropWhile (· ≠ ':') = ':' :: s := by
  rw [List.dropWhile_append_of_pos (ne_colon_of_mem_type htype)]
  simp

/-- The parser reads a type name and numbers at the front of a text, and ignores
    what follows the numbers. -/
theorem parsePacketString_append {xs : List ℤ} (hxs : ∀ x ∈ xs, IsInt x) {rest : Text}
    (hrest : Stops rest) :
    parsePacketString (type ++ ':' :: (joinInts xs ++ rest)) = (type, xs) := by
  rw [parsePacketString, takeWhile_type htype, dropWhile_type htype, if_pos (by simp),
    List.tail_cons, parsePacketMessage, parseInts_joinInts hrest xs hxs _ le_rfl]

end TypeName

/-- The parser reads the packet at the front of a text and ignores what
    follows its fields. -/
theorem parsePacketString_text_append {p : Packet} (hp : p.InRange) {rest : Text}
    (hrest : Stops rest) : parsePacketString (p.text ++ rest) = (p.type, p.msg) := by
  have htext : p.text ++ rest = p.type ++ ':' :: (joinInts p.msg ++ rest) := by
    rw [Packet.text_eq]
    simp
  rw [htext, parsePacketString_append p.colon_not_mem_type hp hrest]

/-- Parsing undoes encoding. -/
theorem parsePacketString_text {p : Packet} (hp : p.InRange) :
    parsePacketString p.text = (p.type, p.msg) := by
  simpa using parsePacketString_text_append hp Stops.nil

/-! ## FIFO names -/

theorem makeFifoName_inj {a b c d : ℤ} (h : makeFifoName a b = makeFifoName c d) :
    a = c ∧ b = d := by
  have hcut : ∀ x y : ℤ, numeral ((makeFifoName x y).drop 5) = some (x, '-' :: intText y) := by
    intro x y
    have hdash : NoDigit ('-' :: intText y) := .cons (by decide) _
    rw [← numeral_intText x hdash]
    simp [makeFifoName]
  have hcd := hcut c d
  rw [← h, hcut a b] at hcd
  simp only [Option.some.injEq, Prod.mk.injEq, List.cons.injEq, true_and] at hcd
  refine ⟨hcd.1, ?_⟩
  have hb := numeral_intText b .nil
  rw [List.append_nil, hcd.2] at hb
  have hd := numeral_intText d .nil
  rw [List.append_nil, hb] at hd
  simpa using hd

end Cmput379.Sdn
