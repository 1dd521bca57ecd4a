import Cmput379.A2w22.Network

/-!
# What the FIFOs hold

All messages are short, so that two of them fit into a read, whatever has been read
before: what the controller sends is made from fields of what it got.

* `controllerReceive_cases`: what a message can do to the controller.
* `balance_of_run`: what has been passed on from each FIFO, and what is queued.
* `perm_iff_readsOne`: for one FIFO that has been drained.
-/

namespace Cmput379.A2w22

open Cmput379.Lib
open Cmput379.Sdn (nul readInto bufferString nul_not_mem_intText)

/-! ## Short messages -/

theorem short_join (bound count : ℕ) {ts : List Text}
    (h : ∀ t ∈ ts, nul ∉ t ∧ t.length ≤ bound) (hcount : ts.length ≤ count) :
    Short nul (count * (bound + 1)) (join ts) := by
  constructor
  · intro hmem
    rcases mem_join hmem with hblank | ⟨t, ht, hc⟩
    · exact absurd hblank (by decide)
    · exact (h t ht).1 hc
  · exact Nat.le_trans (length_join_le fun t ht => (h t ht).2) (Nat.mul_le_mul_right _ hcount)

theorem intText_small {x : ℤ} (h : IsInt x) : nul ∉ intText x ∧ (intText x).length ≤ 11 :=
  ⟨nul_not_mem_intText x, length_intText_le h⟩

/-- The longest message on the FIFOs of a party. -/
def maxMessage (a : ℤ) : ℕ := if a = 0 then 438 else 72

theorem two_messages (a : ℤ) : 2 * (maxMessage a + 1) ≤ MAXBUF := by
  unfold maxMessage MAXBUF
  split_ifs <;> omega

/-! ## What the switches send -/

section Switch

variable {cfg : SwitchConfig} {s t : SwitchState} {writes : List Sent}

theorem short_relayMessage (cfg : SwitchConfig) : Short nul 72 (relayMessage cfg.switchID) := by
  refine short_join 11 6 ?_ (by simp)
  simp only [List.forall_mem_cons, List.not_mem_nil, false_implies, implies_true, and_true]
  exact ⟨by decide, intText_small cfg.id_int⟩

theorem short_of_send_open (cfg : SwitchConfig) (s : SwitchState) :
    ∀ w ∈ (s.send_open_to_controller cfg).2, Short nul 72 w.message := by
  intro w hw
  obtain rfl := List.mem_singleton.mp hw
  refine short_join 11 6 ?_ (by simp)
  simp only [List.forall_mem_cons, List.not_mem_nil, false_implies, implies_true, and_true]
  exact ⟨by decide, intText_small cfg.id_int, intText_small cfg.pswj_int,
    intText_small cfg.pswk_int, intText_small cfg.low_int, intText_small cfg.high_int⟩

theorem isInt_of_parse_traffic_rule {line : Text} {rule : TrafficRule}
    (h : parse_traffic_rule line = some (some rule)) : IsInt rule.dest_ip := by
  unfold parse_traffic_rule at h
  split_ifs at h
  · obtain ⟨name, -, h⟩ := Option.bind_eq_some_iff.mp h
    obtain ⟨switchID, -, h⟩ := Option.bind_eq_some_iff.mp h
    obtain ⟨src_ip, -, h⟩ := Option.bind_eq_some_iff.mp h
    obtain ⟨dest_ip, hdest, h⟩ := Option.bind_eq_some_iff.mp h
    obtain ⟨field, -, hfield⟩ := Option.bind_eq_some_iff.mp hdest
    cases h
    exact isInt_of_stoi hfield
  · cases h

/-- A switch whose line is taken counts a packet at most; it asks for an address outside
    its range, relays, or sends nothing. -/
theorem turn_cases (h : s.turn cfg = some (t, writes)) :
    (t.forwardingTable = s.forwardingTable ∨
      ∃ i, t.forwardingTable = countPacket s.forwardingTable i) ∧
    (writes = [] ∨
      (∃ peer, writes = [⟨peer, relayMessage cfg.switchID⟩] ∧
        ∃ session ∈ cfg.switch_sessions, session.peer = peer) ∨
      ∃ ip, IsInt ip ∧ ¬ cfg.ip_range.Contains ip ∧
        writes = [⟨0, join ["ASK".toList, intText cfg.switchID, intText ip]⟩]) := by
  unfold SwitchState.turn at h
  split at h
  · cases h
    exact ⟨.inl rfl, .inl rfl⟩
  · obtain ⟨rule, hparse, h⟩ := Option.bind_eq_some_iff.mp h
    dsimp only at h
    split at h
    · cases h
      exact ⟨.inl rfl, .inl rfl⟩
    · rename_i rule
      split_ifs at h with hown hid
      · cases h
        exact ⟨.inr ⟨0, rfl⟩, .inl rfl⟩
      · unfold SwitchState.admitted at h
        dsimp only at h
        split at h
        · obtain ⟨ft, -, h⟩ := Option.bind_eq_some_iff.mp h
          obtain ⟨idx, -, h⟩ := Option.bind_eq_some_iff.mp h
          obtain ⟨session, hsession, h⟩ := Option.bind_eq_some_iff.mp h
          cases h
          exact ⟨.inr ⟨_, rfl⟩,
            .inr (.inl ⟨_, rfl, session, List.mem_of_getElem? hsession, rfl⟩)⟩
        · cases h
          exact ⟨.inl rfl, .inr (.inr ⟨rule.dest_ip, isInt_of_parse_traffic_rule hparse,
            fun hcontains => hown ⟨hid, hcontains⟩, rfl⟩)⟩
      · cases h
        exact ⟨.inl rfl, .inl rfl⟩

/-- A switch that gets a message relays, or sends nothing. -/
theorem writes_of_switchReceive {message : List Text}
    (h : s.switchReceive cfg message = some (t, writes)) :
    writes = [] ∨ ∃ peer, writes = [⟨peer, relayMessage cfg.switchID⟩] ∧
      ∃ session ∈ cfg.switch_sessions, session.peer = peer := by
  unfold SwitchState.switchReceive at h
  split at h
  · dsimp only at h
    split at h
    · unfold SwitchState.receiveAdd at h
      split_ifs at h
      · obtain ⟨ip, -, h⟩ := Option.bind_eq_some_iff.mp h
        cases h
        exact .inl rfl
      · obtain ⟨port1, -, h⟩ := Option.bind_eq_some_iff.mp h
        obtain ⟨low, -, h⟩ := Option.bind_eq_some_iff.mp h
        obtain ⟨high, -, h⟩ := Option.bind_eq_some_iff.mp h
        replace h := congrArg Prod.snd (Option.some.inj h)
        subst h
        unfold SwitchState.add_forward_rule
        dsimp only
        split
        · rename_i i _
          cases hsession : cfg.switch_sessions[i + 1]? with
          | none => exact .inl rfl
          | some session =>
            exact .inr ⟨_, rfl, session, List.mem_of_getElem? hsession, rfl⟩
        · exact .inl rfl
      · cases h
        exact .inl rfl
    · cases h
      exact .inl rfl
    · cases h
      exact .inl rfl
  · cases h
    exact .inl rfl

theorem short_ask {ip : ℤ} (hcfg : IsInt cfg.switchID) (hip : IsInt ip) :
    Short nul 72 (join ["ASK".toList, intText cfg.switchID, intText ip]) := by
  refine short_join 11 6 ?_ (by simp)
  simp only [List.forall_mem_cons, List.not_mem_nil, false_implies, implies_true, and_true]
  exact ⟨by decide, intText_small hcfg, intText_small hip⟩

theorem short_of_turn (h : s.turn cfg = some (t, writes)) :
    ∀ w ∈ writes, Short nul 72 w.message := by
  intro w hw
  rcases (turn_cases h).2 with rfl | ⟨peer, rfl, -⟩ | ⟨ip, hip, -, rfl⟩
  · cases hw
  · obtain rfl := List.mem_singleton.mp hw
    exact short_relayMessage cfg
  · obtain rfl := List.mem_singleton.mp hw
    exact short_ask cfg.id_int hip

theorem short_of_switchReceive {message : List Text}
    (h : s.switchReceive cfg message = some (t, writes)) :
    ∀ w ∈ writes, Short nul 72 w.message := by
  intro w hw
  rcases writes_of_switchReceive h with rfl | ⟨peer, rfl, -⟩
  · cases hw
  · obtain rfl := List.mem_singleton.mp hw
    exact short_relayMessage cfg

end Switch

/-! ## What the controller sends -/

section Controller

variable {numOfSwitch : ℕ} {c c' : Controller} {message : List Text} {writes : List Sent}

/-- The numbers of an entry are `int`s. -/
def Switch.IsInts (sw : Switch) : Prop :=
  IsInt sw.port1 ∧ IsInt sw.port2 ∧ IsInt sw.ipranges.low ∧ IsInt sw.ipranges.high

theorem isInt_port {x : ℤ} (h : IsInt x) : IsInt (Controller.port x) := by
  unfold Controller.port
  split_ifs
  · decide
  · exact h

theorem mem_of_findOwner {field : Text} {switches : List Switch} {owner : Option Switch}
    (h : Controller.findOwner field switches = some owner) : ∀ sw ∈ owner, sw ∈ switches := by
  induction switches with
  | nil =>
    cases h
    simp
  | cons sw switches ih =>
    unfold Controller.findOwner at h
    obtain ⟨ip, -, h⟩ := Option.bind_eq_some_iff.mp h
    split_ifs at h
    · cases h
      intro sw' hsw'
      obtain rfl := Option.some.inj hsw'
      exact List.mem_cons_self
    · exact fun sw' hsw' => List.mem_cons_of_mem _ (ih h sw' hsw')

/-- A message is a HELLO, an ASK, or nothing. -/
theorem controllerReceive_cases
    (h : controllerReceive numOfSwitch c message = some (c', writes)) :
    (∃ sw : Switch, sw.IsInts ∧ c'.switches = c.switches ++ [sw] ∧
      writes = [⟨sw.switchID, join ["HELLO_ACK".toList, "0".toList]⟩]) ∨
    (∃ first ∈ message, ∃ dest rest, c'.switches = c.switches ∧
      writes = [⟨dest, join ("ADD".toList :: first :: rest)⟩] ∧
      ((∃ field ∈ message, rest = [field]) ∨ ∃ sw ∈ c.switches, rest = [intText sw.port1,
        intText sw.port2, intText sw.ipranges.low, intText sw.ipranges.high])) ∨
    (c' = c ∧ writes = []) := by
  unfold controllerReceive at h
  obtain ⟨type, -, h⟩ := Option.bind_eq_some_iff.mp h
  obtain ⟨first', -, h⟩ := Option.bind_eq_some_iff.mp h
  split_ifs at h
  · unfold Controller.receiveHello at h
    obtain ⟨switchID, -, h⟩ := Option.bind_eq_some_iff.mp h
    obtain ⟨port1, hport1, h⟩ := Option.bind_eq_some_iff.mp h
    obtain ⟨port2, hport2, h⟩ := Option.bind_eq_some_iff.mp h
    obtain ⟨low, hlow, h⟩ := Option.bind_eq_some_iff.mp h
    obtain ⟨high, hhigh, h⟩ := Option.bind_eq_some_iff.mp h
    have hint : ∀ {k : ℕ} {x : ℤ}, (message[k]?).bind stoi = some x → IsInt x := by
      intro k x hx
      obtain ⟨field, -, hfield⟩ := Option.bind_eq_some_iff.mp hx
      exact isInt_of_stoi hfield
    split_ifs at h
    cases h
    exact .inl ⟨⟨_, _, _, _⟩, ⟨isInt_port (hint hport1), isInt_port (hint hport2), hint hlow,
      hint hhigh⟩, rfl, rfl⟩
  · unfold Controller.receiveAsk at h
    obtain ⟨first, hfirst, h⟩ := Option.bind_eq_some_iff.mp h
    obtain ⟨switchID, -, h⟩ := Option.bind_eq_some_iff.mp h
    obtain ⟨field, hfield, h⟩ := Option.bind_eq_some_iff.mp h
    obtain ⟨owner, howner, h⟩ := Option.bind_eq_some_iff.mp h
    split_ifs at h
    cases h
    refine .inr (.inl ⟨first, List.mem_of_getElem? hfirst, switchID, _, rfl, rfl, ?_⟩)
    cases owner with
    | none => exact .inl ⟨field, List.mem_of_getElem? hfield, rfl⟩
    | some sw => exact .inr ⟨sw, mem_of_findOwner howner sw rfl, rfl⟩
  · cases h
    exact .inr (.inr ⟨rfl, rfl⟩)

/-- The numbers in the table of the controller are `int`s. -/
def TableInts (c : Controller) : Prop := ∀ sw ∈ c.switches, sw.IsInts

theorem tableInts_of_controllerReceive (hc : TableInts c)
    (h : controllerReceive numOfSwitch c message = some (c', writes)) : TableInts c' := by
  unfold TableInts
  rcases controllerReceive_cases h with ⟨sw, hsw, heq, -⟩ | ⟨-, -, -, -, heq, -, -⟩ | ⟨rfl, -⟩
  · rw [heq]
    intro sw' hsw'
    rcases List.mem_append.mp hsw' with hsw' | hsw'
    · exact hc sw' hsw'
    · obtain rfl := List.mem_singleton.mp hsw'
      exact hsw
  · rw [heq]
    exact hc
  · exact hc

/-- An ADD is as short as the fields of the ASK allow. -/
theorem short_of_controllerReceive {text : Text} (hc : TableInts c) (htext : Short nul 72 text)
    (h : controllerReceive numOfSwitch c (fields text) = some (c', writes)) :
    ∀ w ∈ writes, Short nul 438 w.message := by
  have hfield : ∀ t ∈ fields text, nul ∉ t ∧ t.length ≤ 72 := fun t ht =>
    ⟨fun hnul => htext.1 (mem_of_mem_fields ht hnul),
      Nat.le_trans (length_le_of_mem_fields ht) htext.2⟩
  have hnumber : ∀ {x : ℤ}, IsInt x → nul ∉ intText x ∧ (intText x).length ≤ 72 :=
    fun hx => ⟨(intText_small hx).1, Nat.le_trans (intText_small hx).2 (by omega)⟩
  intro w hw
  rcases controllerReceive_cases h with
    ⟨sw, -, -, rfl⟩ | ⟨first, hfirst, dest, rest, -, rfl, hrest⟩ | ⟨-, rfl⟩
  · obtain rfl := List.mem_singleton.mp hw
    exact short_join 72 6 (by decide) (by simp)
  · obtain rfl := List.mem_singleton.mp hw
    have hadd : nul ∉ "ADD".toList ∧ "ADD".toList.length ≤ 72 := by decide
    rcases hrest with ⟨field, hmem, rfl⟩ | ⟨sw, hsw, rfl⟩
    · refine short_join 72 6 ?_ (by simp)
      simp only [List.forall_mem_cons, List.not_mem_nil, false_implies, implies_true, and_true]
      exact ⟨hadd, hfield first hfirst, hfield field hmem⟩
    · obtain ⟨hport1, hport2, hlow, hhigh⟩ := hc sw hsw
      refine short_join 72 6 ?_ (by simp)
      simp only [List.forall_mem_cons, List.not_mem_nil, false_implies, implies_true, and_true]
      exact ⟨hadd, hfield first hfirst, hnumber hport1, hnumber hport2, hnumber hlow,
        hnumber hhigh⟩
  · cases hw

end Controller

/-! ## Steps -/

section Step

variable {n : ℕ} {site : Site n} {net net' : Net n} {ok : ℤ → ℤ → Prop} {act : Action n}

/-- The balance of every FIFO, as long as `ok` holds of it. -/
def Balanced (ok : ℤ → ℤ → Prop) (net : Net n) : Prop :=
  ∀ a b, Balance nul (maxMessage a) (ok a b) (net.fifo a b)

theorem Balanced.congr {ok' : ℤ → ℤ → Prop} (h : Balanced ok net)
    (hok : ∀ a b, ok a b ↔ ok' a b) : Balanced ok' net := by
  have heq : ok = ok' := funext fun a => funext fun b => propext (hok a b)
  rwa [heq] at h

/-- Where the bytes that were read end a message, nothing behind them matters. -/
theorem received_eq (mem : Memory) {queue : Text} (h : nul ∈ queue.take MAXBUF) :
    received mem queue = firstFrame nul (queue.take MAXBUF) := by
  unfold received bufferString readInto
  rw [if_pos (List.mem_append_left _ h), List.takeWhile_append, if_neg]
  · rfl
  · intro hlen
    have hall := (List.takeWhile_prefix fun c => decide (c ≠ nul)).eq_of_length hlen
    rw [← hall] at h
    simpa using List.all_eq_true.mp List.all_takeWhile nul h

theorem Balanced.sendAll (h : Balanced ok net) {a : ℤ} {writes : List Sent}
    (hshort : ∀ w ∈ writes, Short nul (maxMessage a) w.message) :
    Balanced ok (net.sendAll a writes) :=
  fifo_sendAll (fun w hw _ hc => hc.send (hshort w hw)) h

/-- A FIFO that is not empty is read. -/
theorem Balanced.take (h : Balanced ok net) {a b : ℤ} (hne : (net.fifo a b).queue ≠ [])
    (mem : Memory) : Short nul (maxMessage a) (received mem (net.fifo a b).queue) ∧
      Balanced (fun x y => ok x y ∧ (some (a, b) = some (x, y) → (net.fifo x y).One nul))
        (net.take a b (received mem (net.fifo a b).queue)) := by
  obtain ⟨hnul, hshort⟩ := (h a b).short_firstFrame hne (two_messages a)
  have heq := received_eq mem hnul
  refine ⟨by rw [heq]; exact hshort, ?_⟩
  intro x y
  show Balance nul (maxMessage x) _
    (if x = a ∧ y = b then (net.fifo a b).receive MAXBUF _ else net.fifo x y)
  split_ifs with hxy
  · obtain ⟨rfl, rfl⟩ := hxy
    rw [heq]
    simpa using (h x y).receive hne (two_messages x)
  · have hother : ¬ (some (a, b) = some (x, y)) := by
      simp only [Option.some.injEq, Prod.mk.injEq]
      rintro ⟨rfl, rfl⟩
      exact hxy ⟨rfl, rfl⟩
    simpa [hother] using h x y

theorem maxMessage_id (k : Fin n) : maxMessage (site.cfg k).switchID = 72 := by
  have hne : (site.cfg k).switchID ≠ 0 := by
    rw [site.id_eq]
    omega
  exact if_neg hne

theorem balanced_of_step (h : Balanced ok net) (hints : TableInts net.ctrl)
    (hstep : step site net act = some net') :
    Balanced (fun a b => ok a b ∧ ReadsOne site a b net act) net' ∧ TableInts net'.ctrl := by
  cases act with
  | start k =>
    simp only [step] at hstep
    split_ifs at hstep
    cases hstep
    constructor
    · apply Balanced.sendAll
      · refine Balanced.congr h fun a b => ?_
        simp [ReadsOne, Reads]
      · rw [maxMessage_id]
        exact short_of_send_open _ _
    · rw [ctrl_sendAll]
      exact hints
  | traffic k =>
    simp only [step] at hstep
    split_ifs at hstep
    obtain ⟨⟨s, writes⟩, hturn, rfl⟩ := Option.map_eq_some_iff.mp hstep
    constructor
    · apply Balanced.sendAll
      · refine Balanced.congr h fun a b => ?_
        simp [ReadsOne, Reads]
      · rw [maxMessage_id]
        exact short_of_turn hturn
    · rw [ctrl_sendAll]
      exact hints
  | switchRead k session mem =>
    simp only [step] at hstep
    split at hstep
    · cases hstep
    · rename_i peer hsession
      split_ifs at hstep with hread
      obtain ⟨⟨s, writes⟩, hreceive, rfl⟩ := Option.map_eq_some_iff.mp hstep
      obtain ⟨hshort, htake⟩ := h.take hread.2 mem
      constructor
      · apply Balanced.sendAll
        · refine Balanced.congr htake fun a b => ?_
          simp [ReadsOne, Reads, hsession]
        · rw [maxMessage_id]
          exact short_of_switchReceive hreceive
      · rw [ctrl_sendAll]
        exact hints
  | controllerRead k mem =>
    simp only [step] at hstep
    split_ifs at hstep with hread
    obtain ⟨⟨ctrl, writes⟩, hreceive, rfl⟩ := Option.map_eq_some_iff.mp hstep
    obtain ⟨hshort, htake⟩ := h.take hread mem
    rw [maxMessage_id] at hshort
    constructor
    · apply Balanced.sendAll
      · exact htake
      · exact short_of_controllerReceive hints hshort hreceive
    · rw [ctrl_sendAll]
      exact tableInts_of_controllerReceive hints hreceive

/-- After a run: what is queued in each FIFO, and whether every read of it has found
    exactly one message. -/
theorem balance_of_run {tr : List (Net n × Action n)} (h : (system site).Run (.init site) tr net) :
    Balanced (fun a b => ∀ p ∈ tr, ReadsOne site a b p.1 p.2) net ∧ TableInts net.ctrl := by
  induction h with
  | nil =>
    refine ⟨fun a b => ?_, nofun⟩
    show Balance nul (maxMessage a) _ (Channel.empty : Channel Char)
    simpa using (Balance.empty : Balance nul (maxMessage a) True (Channel.empty : Channel Char))
  | snoc _ hstep ih =>
    obtain ⟨hbalanced, hints⟩ := balanced_of_step ih.1 ih.2 hstep
    refine ⟨hbalanced.congr fun a b => ?_, hints⟩
    simp only [List.forall_mem_append, List.forall_mem_singleton]

/-- A FIFO that has been drained: its messages were passed on, each once, iff every
    read of it found exactly one. -/
theorem perm_iff_readsOne {tr : List (Net n × Action n)}
    (h : (system site).Run (.init site) tr net) {a b : ℤ} (hempty : (net.fifo a b).queue = []) :
    (net.fifo a b).passed.Perm (net.fifo a b).written ↔ ∀ p ∈ tr, ReadsOne site a b p.1 p.2 :=
  ((balance_of_run h).1 a b).perm_iff hempty

end Step

end Cmput379.A2w22
