import Mathlib.Data.List.Pairwise
import Cmput379.Sdn.Switch
import Cmput379.Sdn.Controller

/-!
# The shared receive buffer

Both loops read every ready descriptor of a poll round into one array `buffer`
of `MAX_BUFFER` bytes and take `string(buffer)` as the packet. The array is
cleared before and after the round, not between two reads of it, so the tail
of a longer packet stays behind a shorter one.

`noCrossTalk_iff`: in a round whose reads return packets, each packet is
handled as read iff no descriptor's packet is shorter than that of a
lower-numbered one. This holds for `controllerRound` and for `switchRound`,
which are instances of `pollRound`.
-/

namespace Cmput379.Sdn

open Cmput379.Lib

/-- `#define MAX_BUFFER 1024`. -/
def MAX_BUFFER : ℕ := 1024

/-! ## The array -/

/-- The byte 0. -/
def nul : Char := '\x00'

/-- `memset(buffer, 0, sizeof(buffer))`. -/
def clearBuffer : Text := List.replicate MAX_BUFFER nul

/-- The array after `read` has stored `bytes` at its front. -/
def readInto (buffer bytes : Text) : Text := bytes ++ buffer.drop bytes.length

/-- `string(buffer)`: up to the first NUL. Without a NUL in the array the string
    goes on with `beyond`, the memory behind it. -/
def bufferString (beyond buffer : Text) : Text :=
  if nul ∈ buffer then buffer.takeWhile (· ≠ nul) else buffer ++ beyond

/-- The array that holds `s` and is 0 behind it. -/
def padded (s : Text) : Text := s ++ List.replicate (MAX_BUFFER - s.length) nul

theorem padded_nil : padded [] = clearBuffer := rfl

theorem bufferString_append (beyond : Text) {s : Text} (hs : nul ∉ s) (t : Text) :
    bufferString beyond (s ++ t) = s ++ bufferString beyond t := by
  have hpos : ∀ c ∈ s, decide (c ≠ nul) = true := by
    intro c hc
    simpa using fun h : c = nul => hs (h ▸ hc)
  unfold bufferString
  simp only [List.mem_append, hs, false_or, List.takeWhile_append_of_pos hpos]
  split_ifs
  · rfl
  · exact List.append_assoc _ _ _

theorem bufferString_padded (beyond : Text) {s : Text} (hs : nul ∉ s)
    (hlen : s.length < MAX_BUFFER) : bufferString beyond (padded s) = s := by
  obtain ⟨k, hk⟩ : ∃ k, MAX_BUFFER - s.length = k + 1 := ⟨MAX_BUFFER - s.length - 1, by omega⟩
  rw [padded, bufferString_append beyond hs, hk, List.replicate_succ, bufferString,
    if_pos List.mem_cons_self, List.takeWhile_cons_of_neg (by simp), List.append_nil]

/-- What a read leaves in a buffer that held `s`. -/
theorem readInto_padded (s t : Text) (hs : s.length ≤ MAX_BUFFER) (ht : t.length ≤ MAX_BUFFER) :
    readInto (padded s) t = padded (t ++ s.drop t.length) := by
  unfold readInto padded
  rw [List.drop_append, List.append_assoc, List.drop_replicate]
  congr 3
  simp only [List.length_append, List.length_drop]
  omega

/-! ## A poll round -/

/-- The result of `read` on a ready descriptor: some bytes, 0 at the end of the
    stream, or `-1`. -/
inductive ReadResult
  | data (bytes : Text)
  | eof
  | error
  deriving DecidableEq, Repr

/-- A round in progress: the state of the loop (`none` once the process has
    ended), the array, the strings handled so far with the index of their
    descriptor, and the packets written. -/
structure Round (σ ω : Type) where
  state : Option σ
  buffer : Text
  handled : List (ℤ × Text)
  writes : List ω

section PollRound

variable {σ ω : Type} (beyond : Text) (handle : σ → ℤ → Text → Option (σ × List ω))
  (close : σ → ℤ → Option σ)

/-- Form `packetString` from the array and handle it for `pfds[i]`. -/
def handleBuffer (r : Round σ ω) (i : ℤ) : Round σ ω :=
  match r.state with
  | none => r
  | some s =>
    let packetString := bufferString beyond r.buffer
    let result := handle s i packetString
    { r with
      state := result.map Prod.fst
      handled := r.handled ++ [(i, packetString)]
      writes := r.writes ++ (result.map Prod.snd).getD [] }

/-- One turn of the loop over the descriptors, for a ready one. Only the
    result 0 of `read` is told apart. -/
def pollStep (r : Round σ ω) : ℤ × ReadResult → Round σ ω
  | (i, .data bytes) => handleBuffer beyond handle { r with buffer := readInto r.buffer bytes } i
  | (i, .error) => handleBuffer beyond handle r i
  | (i, .eof) => { r with state := r.state.bind fun s => close s i }

/-- The ready descriptors among `1 … last`, in the order of the loop. -/
def polled {β : Type} (last : ℕ) (ready : ℤ → Option β) : List (ℤ × β) :=
  (List.range last).filterMap fun k : ℕ => (ready (k + 1 : ℤ)).map fun r => ((k + 1 : ℤ), r)

/-- The loop over `pfds[1] … pfds[last]`, from a cleared array. -/
def pollRound (last : ℕ) (s : σ) (ready : ℤ → Option ReadResult) : Round σ ω :=
  (polled last ready).foldl (pollStep beyond handle close) ⟨some s, clearBuffer, [], []⟩

end PollRound

/-- Lines 213–302 of `controller.cpp`. A connection at its end is closed and
    its slot recorded. -/
def controllerRound {φ : Type} [Inhabited φ] (beyond : Text) (c : ControllerState φ)
    (ready : ℤ → Option ReadResult) : Round (ControllerState φ) (φ × Packet) :=
  pollRound beyond ControllerState.handleText
    (fun c i => some { c with closed := c.closed ++ [i] }) c.numSwitches.toNat c ready

/-- Lines 449–534 of `switch.cpp`. When the controller's socket is at its end
    the switch exits. -/
def switchRound (beyond : Text) (cfg : SwitchConfig) (s : SwitchState)
    (ready : ℤ → Option ReadResult) : Round SwitchState Write :=
  pollRound beyond (SwitchState.handleText cfg)
    (fun s i => if i = socketIdx then none else some { s with closed := s.closed ++ [i] })
    socketIdx.toNat s ready

/-! ## Texts of packets in the array -/

theorem nul_not_mem_intText (x : ℤ) : nul ∉ intText x := by
  intro h
  rcases mem_intText h with h | h <;> revert h <;> decide

theorem Packet.nul_not_mem_text (p : Packet) : nul ∉ p.text := by
  have h1 := nul_not_mem_intText
  cases p <;> simp [Packet.text, h1] <;> decide

/-- Texts of packets are much shorter than the array. -/
theorem WirePacket.length_text_lt (p : WirePacket) : p.packet.text.length < MAX_BUFFER := by
  obtain ⟨p, hp⟩ := p
  have h := fun (x : ℤ) (hx : x ∈ p.msg) => length_intText_le (hp x hx)
  cases p <;>
    simp only [Packet.msg, List.mem_cons, List.not_mem_nil, or_false, forall_eq_or_imp,
      forall_eq] at h <;>
    simp only [Packet.text, List.length_append, List.length_cons, List.length_nil, MAX_BUFFER] <;>
    omega

/-! ## The strings handled in a round -/

section NoCrossTalk

variable {σ ω : Type} {beyond : Text} {handle : σ → ℤ → Text → Option (σ × List ω)}
  {close : σ → ℤ → Option σ}

/-- The read results of descriptors that each deliver one packet. -/
def readPacket (p : WirePacket) : ReadResult := .data p.packet.text

theorem handled_mono (l : List (ℤ × ReadResult)) (r : Round σ ω) :
    ∀ e ∈ r.handled, e ∈ (l.foldl (pollStep beyond handle close) r).handled := by
  induction l generalizing r with
  | nil => exact fun e he => he
  | cons x l ih =>
    intro e he
    refine ih _ e ?_
    obtain ⟨i, result⟩ := x
    cases result <;> simp only [pollStep, handleBuffer] <;> (try split) <;> simp [he]

/-- Each of the strings handled is the packet its own descriptor delivered. -/
def NoCrossTalk (own : ℤ → Option WirePacket) (handled : List (ℤ × Text)) : Prop :=
  ∀ e ∈ handled, ∃ p, own e.1 = some p ∧ e.2 = p.packet.text

/-- From an array that holds `s`, a list of packets is handled as read iff `s`
    is not longer than any of them and their lengths do not decrease. -/
theorem foldl_noCrossTalk_iff (htotal : ∀ s i (p : WirePacket), (handle s i p.packet.text).isSome)
    (own : ℤ → Option WirePacket) :
    ∀ (l : List (ℤ × WirePacket)) (r : Round σ ω) (s : Text),
      (∀ x ∈ l, own x.1 = some x.2) → r.state.isSome → r.buffer = padded s → nul ∉ s →
      s.length < MAX_BUFFER → NoCrossTalk own r.handled →
      (NoCrossTalk own
          ((l.map fun x => (x.1, readPacket x.2)).foldl (pollStep beyond handle close) r).handled ↔
        (∀ x ∈ l, s.length ≤ x.2.packet.text.length) ∧
          l.Pairwise fun x y => x.2.packet.text.length ≤ y.2.packet.text.length) := by
  intro l
  induction l with
  | nil => intro r s _ _ _ _ _ hr; simpa using hr
  | cons x l ih =>
    intro r s hown hstate hbuf hnul hlen hr
    obtain ⟨i, p⟩ := x
    obtain ⟨st, hst⟩ := Option.isSome_iff_exists.mp hstate
    have hp : own i = some p := hown (i, p) (by simp)
    -- the array after the read of this descriptor
    have hread : readInto r.buffer p.packet.text =
        padded (p.packet.text ++ s.drop p.packet.text.length) := by
      rw [hbuf, readInto_padded s _ hlen.le p.length_text_lt.le]
    have hstr : bufferString beyond (padded (p.packet.text ++ s.drop p.packet.text.length)) =
        p.packet.text ++ s.drop p.packet.text.length := by
      refine bufferString_padded beyond ?_ ?_
      · simp only [List.mem_append, not_or]
        exact ⟨p.packet.nul_not_mem_text, fun h => hnul (List.mem_of_mem_drop h)⟩
      · have := p.length_text_lt
        simp only [List.length_append, List.length_drop]
        omega
    simp only [List.map_cons, List.foldl_cons, readPacket, pollStep, handleBuffer, hst, hread, hstr]
    by_cases hle : s.length ≤ p.packet.text.length
    · -- the packet covers what was there: it is handled as read
      have hdrop : s.drop p.packet.text.length = [] := List.drop_eq_nil_of_le hle
      refine (ih _ p.packet.text (fun x hx => hown x (by simp [hx]))
        (by simpa [hdrop] using htotal st i p)
        (by simp only [hdrop, List.append_nil]) p.packet.nul_not_mem_text p.length_text_lt
        ?_).trans ?_
      · intro e he
        simp only [List.mem_append, List.mem_singleton] at he
        rcases he with he | rfl
        · exact hr e he
        · exact ⟨p, hp, by simp [hdrop]⟩
      · simp only [List.mem_cons, forall_eq_or_imp, hle, true_and, List.pairwise_cons]
        exact ⟨fun h => ⟨fun y hy => hle.trans (h.1 y hy), h⟩, fun h => h.2⟩
    · -- the tail of the earlier packet is still there
      constructor
      · intro h
        obtain ⟨q, hq, htext⟩ := h _ (handled_mono _ _ (i, p.packet.text ++
          s.drop p.packet.text.length) (by simp))
        rw [hp] at hq
        cases hq
        have := congrArg List.length htext
        simp only [List.length_append, List.length_drop] at this
        omega
      · intro h
        exact absurd (h.1 (i, p) (by simp)) hle

theorem mem_polled {β : Type} {last : ℕ} {ready : ℤ → Option β} {x : ℤ × β} :
    x ∈ polled last ready ↔ 1 ≤ x.1 ∧ x.1 ≤ last ∧ ready x.1 = some x.2 := by
  simp only [polled, List.mem_filterMap, List.mem_range, Option.map_eq_some_iff]
  constructor
  · rintro ⟨k, hk, r, hr, rfl⟩
    exact ⟨by simp, by simp; omega, hr⟩
  · rintro ⟨h1, h2, hr⟩
    obtain ⟨k, hk⟩ := Int.eq_ofNat_of_zero_le (show 0 ≤ x.1 - 1 by omega)
    refine ⟨k, by omega, x.2, ?_, ?_⟩
    · rw [← hr]
      congr 1
      omega
    · ext
      · simp only; omega
      · rfl

/-- The loop visits the descriptors in increasing order. -/
theorem polled_pairwise {β : Type} (last : ℕ) (ready : ℤ → Option β) :
    (polled last ready).Pairwise fun x y => x.1 < y.1 := by
  unfold polled
  refine List.Pairwise.filterMap _ ?_ List.pairwise_lt_range
  intro a b hab x hx y hy
  obtain ⟨r, -, rfl⟩ := Option.map_eq_some_iff.mp hx
  obtain ⟨r', -, rfl⟩ := Option.map_eq_some_iff.mp hy
  simpa using hab

theorem polled_map {β γ : Type} (last : ℕ) (ready : ℤ → Option β) (f : β → γ) :
    polled last (fun i => (ready i).map f) = (polled last ready).map fun x => (x.1, f x.2) := by
  unfold polled
  rw [List.map_filterMap]
  congr 1
  funext k
  cases h : ready (k + 1) <;> simp [h]

/-- No descriptor's packet is shorter than that of a lower-numbered one. -/
def LengthsIncrease (last : ℕ) (own : ℤ → Option WirePacket) : Prop :=
  ∀ (i j : ℤ) (p q : WirePacket), 1 ≤ i → i < j → j ≤ last → own i = some p → own j = some q →
    p.packet.text.length ≤ q.packet.text.length

theorem pollRound_noCrossTalk_iff
    (htotal : ∀ s i (p : WirePacket), (handle s i p.packet.text).isSome) (last : ℕ) (s : σ)
    (own : ℤ → Option WirePacket) :
    NoCrossTalk own
        (pollRound beyond handle close last s fun i => (own i).map readPacket).handled ↔
      LengthsIncrease last own := by
  unfold pollRound
  rw [polled_map, foldl_noCrossTalk_iff htotal own (polled last own) _ []
    (fun x hx => (mem_polled.mp hx).2.2) rfl padded_nil.symm (by simp) (by decide)
    (by simp [NoCrossTalk])]
  simp only [List.length_nil, Nat.zero_le, implies_true, true_and]
  constructor
  · intro h i j p q hi hij hj hp hq
    have hx : (i, p) ∈ polled last own := mem_polled.mpr ⟨hi, by simp only; omega, hp⟩
    have hy : (j, q) ∈ polled last own := mem_polled.mpr ⟨by simp only; omega, hj, hq⟩
    -- either of two entries may come first, so make the relation symmetric
    have hsymm : (polled last own).Pairwise fun x y =>
        (x.1 < y.1 → x.2.packet.text.length ≤ y.2.packet.text.length) ∧
          (y.1 < x.1 → y.2.packet.text.length ≤ x.2.packet.text.length) :=
      (polled_pairwise last own).imp₂ (fun x y hxy hle => ⟨fun _ => hle, fun hyx => by omega⟩) h
    have hne : (i, p) ≠ (j, q) := fun heq => by simp only [Prod.mk.injEq] at heq; omega
    have : Std.Symm fun x y : ℤ × WirePacket =>
        (x.1 < y.1 → x.2.packet.text.length ≤ y.2.packet.text.length) ∧
          (y.1 < x.1 → y.2.packet.text.length ≤ x.2.packet.text.length) :=
      ⟨fun x y hxy => ⟨hxy.2, hxy.1⟩⟩
    exact (hsymm.forall hx hy hne).1 hij
  · intro h
    refine (polled_pairwise last own).imp_of_mem ?_
    intro x y hx hy hxy
    have hx := mem_polled.mp hx
    have hy := mem_polled.mp hy
    exact h x.1 y.1 x.2 y.2 hx.1 hxy hy.2.1 hx.2.2 hy.2.2

end NoCrossTalk

/-! ## Both loops -/

/-- The controller handles every packet without indexing past its fields. -/
theorem ControllerState.handleText_isSome {φ : Type} [Inhabited φ] (c : ControllerState φ) (i : ℤ)
    (p : WirePacket) : (c.handleText i p.packet.text).isSome := by
  obtain ⟨p, hp⟩ := p
  obtain ⟨line, hline⟩ := printPacketMessage_packet "Received".toList i CONTROLLER_ID p
  rw [ControllerState.handleText_text c i hp, ControllerState.handlePacket, hline]
  cases p <;> simp [Packet.type, Packet.msg]

/-- So does a switch. -/
theorem SwitchState.handleText_isSome (cfg : SwitchConfig) (s : SwitchState) (i : ℤ)
    (p : WirePacket) : (s.handleText cfg i p.packet.text).isSome := by
  obtain ⟨p, hp⟩ := p
  obtain ⟨line, hline⟩ := printPacketMessage_packet "Received".toList (s.portToId i) cfg.id p
  rw [SwitchState.handleText_text cfg s i hp, SwitchState.handlePacket, hline]
  cases p with
  | ADD action ipLow ipHigh relayPort srcIp =>
    simp only [Packet.type, Packet.msg]
    by_cases h0 : action = 0
    · simp [h0]
    · by_cases h1 : action = 1
      · by_cases hi : i ∈ s.closed <;> simp [h1, hi]
      · simp [h0, h1]
  | OPEN | ACK | QUERY | RELAY => simp [Packet.type, Packet.msg]

/-- In both loops, each packet of a round is handled as its own descriptor
    delivered it iff the lengths of the packets do not decrease from a
    descriptor to a higher-numbered one. -/
theorem noCrossTalk_iff (beyond : Text) (own : ℤ → Option WirePacket) :
    (∀ {φ : Type} [Inhabited φ] (c : ControllerState φ),
      NoCrossTalk own (controllerRound beyond c fun i => (own i).map readPacket).handled ↔
        LengthsIncrease c.numSwitches.toNat own) ∧
    (∀ (cfg : SwitchConfig) (s : SwitchState),
      NoCrossTalk own (switchRound beyond cfg s fun i => (own i).map readPacket).handled ↔
        LengthsIncrease socketIdx.toNat own) :=
  ⟨fun c => pollRound_noCrossTalk_iff ControllerState.handleText_isSome _ c own,
    fun cfg s => pollRound_noCrossTalk_iff (SwitchState.handleText_isSome cfg) _ s own⟩

/-- Two switches whose QUERYs arrive in one round, the longer one first. -/
def crossTalkReads (i : ℤ) : Option WirePacket :=
  if i = 1 then some ⟨.QUERY 100 200, by decide⟩
  else if i = 2 then some ⟨.QUERY 5 20, by decide⟩
  else none

/-- The controller handles the second QUERY as one for address 20200, which it
    drops as invalid. -/
theorem crossTalk_counterexample :
    (controllerRound [] (ControllerState.init 2 (0 : ℤ) 3) fun i =>
      (crossTalkReads i).map readPacket).handled =
        [(1, "QUERY:100,200".toList), (2, "QUERY:5,20200".toList)] ∧
    ¬ NoCrossTalk crossTalkReads
      (controllerRound [] (ControllerState.init 2 (0 : ℤ) 3) fun i =>
        (crossTalkReads i).map readPacket).handled := by
  have hhandled : (controllerRound [] (ControllerState.init 2 (0 : ℤ) 3) fun i =>
      (crossTalkReads i).map readPacket).handled =
        [(1, "QUERY:100,200".toList), (2, "QUERY:5,20200".toList)] := by decide +kernel
  refine ⟨hhandled, fun h => ?_⟩
  rw [hhandled] at h
  obtain ⟨p, hp, htext⟩ := h (2, "QUERY:5,20200".toList) (by simp)
  cases hp
  exact absurd htext (by decide)

end Cmput379.Sdn
