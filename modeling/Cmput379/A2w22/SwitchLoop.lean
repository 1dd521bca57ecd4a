import Cmput379.A2w22.Switch
import Cmput379.Lib.Run

/-!
# One switch

The loop of `Assignment_2/w22/switch.cpp` in any environment: traffic lines and messages in
any order. A message is a HELLO_ACK, a RELAY, or an ADD in one of the two shapes that
`controllerReceive` gives it.

* `step`: the next traffic line, or a message.
* `TurnMove`, `ReceiveMove`: the two with their effects made explicit.
-/

namespace Cmput379.A2w22.SwitchLoop

open Cmput379.Lib SwitchState

/-- Lines 76-100, or lines 119-129 where the fields of the message are `message`. -/
inductive Action
  | traffic
  | receive (message : List Text)
  deriving DecidableEq

/-- An ADD has 3 or 6 fields. -/
def Incoming : List Text → Prop
  | name :: second :: rest => name = "HELLO_ACK".toList ∨ name = "RELAY".toList ∨
    name = "ADD".toList ∧ ((name :: second :: rest).length = 3 ∨
      (name :: second :: rest).length = 6)
  | _ => False

instance : (message : List Text) → Decidable (Incoming message)
  | _ :: _ :: _ => inferInstanceAs (Decidable (_ ∨ _ ∨ _ ∧ _))
  | [_] => inferInstanceAs (Decidable False)
  | [] => inferInstanceAs (Decidable False)

/-- Behind line 68. -/
def init (cfg : SwitchConfig) (file : List Text) : SwitchState :=
  ((SwitchState.init cfg file).send_open_to_controller cfg).1

def step (cfg : SwitchConfig) (s : SwitchState) : Action → Option SwitchState
  | .traffic => (s.turn cfg).map Prod.fst
  | .receive message =>
    if Incoming message then (s.switchReceive cfg message).map Prod.fst else none

/-- A switch with the traffic file `file`. -/
def system (cfg : SwitchConfig) (file : List Text) : System SwitchState Action where
  init s := s = init cfg file
  step := step cfg

/-! ## What a traffic line can do -/

/-- The line is for this switch. -/
def Own (cfg : SwitchConfig) (line : Text) (rule : TrafficRule) : Prop :=
  parse_traffic_rule line = some (some rule) ∧ rule.switchID = cfg.switchID

/-- `stats.received[ADMIT] += 1`, with the line read. -/
def admit_ (s : SwitchState) (lines : List Text) : SwitchState :=
  { s with lines := lines, switch_stats := s.switch_stats.receive .ADMIT }

inductive TurnMove (cfg : SwitchConfig) (s : SwitchState) : SwitchState × List Sent → Prop
  | quiet (lines : List Text) (hother : ∀ line rule, s.lines = line :: lines →
      ¬ Own cfg line rule) : TurnMove cfg s ({ s with lines := lines }, [])
  | deliver (line : Text) (lines : List Text) (rule : TrafficRule)
      (hlines : s.lines = line :: lines) (hown : Own cfg line rule)
      (hlocal : cfg.ip_range.Contains rule.dest_ip) :
      TurnMove cfg s
        ({ admit_ s lines with forwardingTable := countPacket s.forwardingTable 0 }, [])
  | hit (line : Text) (lines : List Text) (rule : TrafficRule) (i : ℕ) (ft : Ft)
      (idx : ℕ) (session : Session) (hlines : s.lines = line :: lines) (hown : Own cfg line rule)
      (hlocal : ¬ cfg.ip_range.Contains rule.dest_ip)
      (hfind : find_matching_rule s.forwardingTable rule.dest_ip = some (i + 1))
      (hft : s.forwardingTable[i + 1]? = some ft)
      (hidx : find_matching_session cfg.switch_sessions ft.action_value = some idx)
      (hsession : cfg.switch_sessions[idx]? = some session) :
      TurnMove cfg s
        ({ admit_ s lines with
            forwardingTable := countPacket s.forwardingTable (i + 1)
            switch_stats := (s.switch_stats.receive .ADMIT).transmit .RELAYIN },
          [⟨session.peer, relayMessage cfg.switchID⟩])
  | ask (line : Text) (lines : List Text) (rule : TrafficRule) (hlines : s.lines = line :: lines)
      (hown : Own cfg line rule) (hlocal : ¬ cfg.ip_range.Contains rule.dest_ip)
      (hfind : ∀ i, find_matching_rule s.forwardingTable rule.dest_ip ≠ some (i + 1)) :
      TurnMove cfg s
        ({ admit_ s lines with
            switch_stats := (s.switch_stats.receive .ADMIT).transmit .ASK },
          [⟨0, join ["ASK".toList, intText cfg.switchID, intText rule.dest_ip]⟩])

section Moves

variable {cfg : SwitchConfig} {s : SwitchState} {r : SwitchState × List Sent}

theorem turnMove_of_turn (h : s.turn cfg = some r) : TurnMove cfg s r := by
  unfold SwitchState.turn at h
  split at h
  · rename_i hlines
    cases h
    have hmove : TurnMove cfg s ({ s with lines := s.lines }, []) := by
      apply TurnMove.quiet
      intro line rule hcons
      rw [hlines] at hcons
      cases hcons
    exact hmove
  · rename_i line lines hlines
    obtain ⟨parsed, hparse, h⟩ := Option.bind_eq_some_iff.mp h
    have hrule : ∀ line' rule, s.lines = line' :: lines → Own cfg line' rule →
        parsed = some rule ∧ rule.switchID = cfg.switchID := by
      rintro line' rule hcons ⟨hparse', hid⟩
      rw [hlines] at hcons
      cases hcons
      rw [hparse] at hparse'
      exact ⟨Option.some.inj hparse', hid⟩
    dsimp only at h
    split at h
    · cases h
      apply TurnMove.quiet
      intro line' rule hcons hown
      cases (hrule line' rule hcons hown).1
    · rename_i rule
      split_ifs at h with hboth hid
      · cases h
        exact .deliver line lines rule hlines ⟨hparse, hboth.1⟩ hboth.2
      · have hlocal : ¬ cfg.ip_range.Contains rule.dest_ip := fun hc => hboth ⟨hid, hc⟩
        unfold SwitchState.admitted at h
        dsimp only at h
        split at h
        · rename_i i hfind
          obtain ⟨ft, hft, h⟩ := Option.bind_eq_some_iff.mp h
          obtain ⟨idx, hidx, h⟩ := Option.bind_eq_some_iff.mp h
          obtain ⟨session, hsession, h⟩ := Option.bind_eq_some_iff.mp h
          cases h
          exact .hit line lines rule i ft idx session hlines ⟨hparse, hid⟩ hlocal hfind hft hidx
            hsession
        · rename_i hfind
          cases h
          exact .ask line lines rule hlines ⟨hparse, hid⟩ hlocal hfind
      · cases h
        apply TurnMove.quiet
        intro line' rule' hcons hown
        obtain ⟨heq, hid'⟩ := hrule line' rule' hcons hown
        cases heq
        exact hid hid'

end Moves

/-! ## What a message can do -/

/-- `stats.received[type] += 1`. -/
def receive_ (s : SwitchState) (type : PktType) : SwitchState :=
  { s with switch_stats := s.switch_stats.receive type }

inductive ReceiveMove (cfg : SwitchConfig) (s : SwitchState) : SwitchState × List Sent → Prop
  | ack : ReceiveMove cfg s (receive_ s .HELLO_ACK, [])
  | relay :
      ReceiveMove cfg s
        ({ receive_ s .RELAYIN with forwardingTable := countPacket s.forwardingTable 0 }, [])
  | drop (ip : ℤ) : ReceiveMove cfg s ((receive_ s .ADD).add_drop_rule ip, [])
  | forward (port1 low high : ℤ) :
      ReceiveMove cfg s
        ((receive_ s .ADD).add_forward_rule cfg (forwardingPort cfg port1) ⟨low, high⟩)

theorem receiveMove_of_switchReceive {cfg : SwitchConfig} {s : SwitchState}
    {message : List Text} {r : SwitchState × List Sent} (hincoming : Incoming message)
    (h : s.switchReceive cfg message = some r) : ReceiveMove cfg s r := by
  match message, hincoming with
  | _ :: _ :: _, .inl rfl =>
    cases h
    exact .ack
  | _ :: _ :: _, .inr (.inl rfl) =>
    cases h
    exact .relay
  | _ :: _ :: _, .inr (.inr ⟨rfl, hlength⟩) =>
    change receiveAdd cfg (receive_ s .ADD) _ = some r at h
    unfold receiveAdd at h
    rcases hlength with hthree | hsix
    · rw [if_pos hthree] at h
      obtain ⟨ip, -, h⟩ := Option.bind_eq_some_iff.mp h
      cases h
      exact .drop ip
    · rw [if_neg (by omega), if_pos hsix] at h
      obtain ⟨port1, -, h⟩ := Option.bind_eq_some_iff.mp h
      obtain ⟨low, -, h⟩ := Option.bind_eq_some_iff.mp h
      obtain ⟨high, -, h⟩ := Option.bind_eq_some_iff.mp h
      cases h
      exact .forward port1 low high

/-! ## Reachable states -/

/-- What a switch starts with and every move keeps. -/
theorem invariant_of_reachable {cfg : SwitchConfig} {file : List Text} {s : SwitchState}
    {I : SwitchState → Prop} (h : (system cfg file).Reachable s) (h0 : I (init cfg file))
    (hturn : ∀ s r, I s → TurnMove cfg s r → I r.1)
    (hreceive : ∀ s r, I s → ReceiveMove cfg s r → I r.1) : I s := by
  refine h.invariant ?_ ?_
  · rintro _ rfl
    exact h0
  · intro s a s' _ hs hstep
    cases a with
    | traffic =>
      obtain ⟨r, hr, rfl⟩ := Option.map_eq_some_iff.mp hstep
      exact hturn s r hs (turnMove_of_turn hr)
    | receive message =>
      change (if Incoming message then (s.switchReceive cfg message).map Prod.fst else none) =
        some s' at hstep
      split_ifs at hstep with hincoming
      obtain ⟨r, hr, rfl⟩ := Option.map_eq_some_iff.mp hstep
      exact hreceive s r hs (receiveMove_of_switchReceive hincoming hr)

/-! ## Switch 1 of `ex2.dat` -/

/-- The arguments of a switch, all of which are `int`s. -/
def configOf (switchID pswj pswk low high : ℤ)
    (h : IsInt switchID ∧ IsInt pswj ∧ IsInt pswk ∧ IsInt low ∧ IsInt high) : SwitchConfig where
  switchID := switchID
  pswj := pswj
  pswk := pswk
  ip_range := ⟨low, high⟩
  id_int := h.1
  pswj_int := h.2.1
  pswk_int := h.2.2.1
  low_int := h.2.2.2.1
  high_int := h.2.2.2.2

def ex2Switch1 : SwitchConfig := configOf 1 (-1) 2 100 110 (by decide)

end Cmput379.A2w22.SwitchLoop
