import Cmput379.A2w22.Balance

/-!
# Messages as sent

In a run whose reads find one message each, only messages that a party has sent are
handled: `UpMessage` are those of a switch to the controller, `DownMessage` those of
the controller to a switch.

* `receive_up`, `receive_down`, `receive_relay`: how they are handled.
* `Typed`, `typed_of_run`: what the FIFOs hold in such a run.
-/

namespace Cmput379.A2w22

open Cmput379.Lib
open Cmput379.Sdn (nul)

variable {n : ℕ} {site : Site n}

/-! ## The messages -/

/-- Every read of the run finds exactly one message. -/
def AsSent (site : Site n) (tr : List (Net n × Action n)) : Prop :=
  ∀ p ∈ tr, ∀ a b, ReadsOne site a b p.1 p.2

instance (site : Site n) (tr : List (Net n × Action n)) : Decidable (AsSent site tr) :=
  decidable_of_iff (∀ p ∈ tr, ∀ f ∈ (Reads site p.2).toList, (p.1.fifo f.1 f.2).One nul)
    ⟨fun h p hp _ _ hreads => h p hp _ (Option.mem_toList.mpr hreads),
      fun h p hp f hf => h p hp f.1 f.2 (Option.mem_toList.mp hf)⟩

/-- The entry of switch `k` in `switches`. -/
def Site.entry (site : Site n) (k : Fin n) : Switch :=
  ⟨(site.cfg k).switchID, Controller.port (site.cfg k).pswj, Controller.port (site.cfg k).pswk,
    (site.cfg k).ip_range⟩

def helloMessage (cfg : SwitchConfig) : Text :=
  join ["HELLO".toList, intText cfg.switchID, intText cfg.pswj, intText cfg.pswk,
    intText cfg.ip_range.low, intText cfg.ip_range.high]

def askMessage (id ip : ℤ) : Text := join ["ASK".toList, intText id, intText ip]

def ackMessage : Text := join ["HELLO_ACK".toList, "0".toList]

def forwardMessage (id : ℤ) (sw : Switch) : Text :=
  join ["ADD".toList, intText id, intText sw.port1, intText sw.port2, intText sw.ipranges.low,
    intText sw.ipranges.high]

def dropMessage (id ip : ℤ) : Text := join ["ADD".toList, intText id, intText ip]

/-- What switch `k` sends to the controller. -/
inductive UpMessage (site : Site n) (k : Fin n) : Text → Prop
  | hello : UpMessage site k (helloMessage (site.cfg k))
  | ask {ip : ℤ} (hint : IsInt ip) (hother : ¬ (site.cfg k).ip_range.Contains ip) :
      UpMessage site k (askMessage (site.cfg k).switchID ip)
  | relay : UpMessage site k (relayMessage (site.cfg k).switchID)

/-- What the controller sends to switch `k`. -/
inductive DownMessage (site : Site n) (k : Fin n) : Text → Prop
  | ack : DownMessage site k ackMessage
  | forward {t : Fin n} {ip : ℤ} (hother : ¬ (site.cfg k).ip_range.Contains ip)
      (howner : (site.cfg t).ip_range.Contains ip) :
      DownMessage site k (forwardMessage (site.cfg k).switchID (site.entry t))
  | drop {ip : ℤ} (hint : IsInt ip) : DownMessage site k (dropMessage (site.cfg k).switchID ip)

/-- What may be on the FIFO from `a` to `b`. -/
structure Legit (site : Site n) (a b : ℤ) (m : Text) : Prop where
  up : ∀ k, a = (site.cfg k).switchID → b = 0 → UpMessage site k m
  down : ∀ k, a = 0 → b = (site.cfg k).switchID → DownMessage site k m
  side : 0 < a → 0 < b → ∃ k, m = relayMessage (site.cfg k).switchID

theorem id_pos (site : Site n) (k : Fin n) : 0 < (site.cfg k).switchID := by
  rw [site.id_eq]
  omega

theorem id_inj {k k' : Fin n} (h : (site.cfg k).switchID = (site.cfg k').switchID) : k = k' := by
  rw [site.id_eq, site.id_eq] at h
  exact Fin.ext (by omega)

/-! ## Handling -/

section Words

/-- Most messages are a name and numbers. -/
theorem fields_message {name : Text} (hname : Word name) (xs : List ℤ) :
    fields (join (name :: xs.map intText)) = name :: xs.map intText := by
  apply fields_join
  rw [List.forall_mem_cons, List.forall_mem_map]
  exact ⟨hname, fun x _ => word_intText x⟩

theorem fields_helloMessage (cfg : SwitchConfig) : fields (helloMessage cfg) =
    ["HELLO".toList, intText cfg.switchID, intText cfg.pswj, intText cfg.pswk,
      intText cfg.ip_range.low, intText cfg.ip_range.high] :=
  fields_message ⟨by decide, by decide⟩
    [cfg.switchID, cfg.pswj, cfg.pswk, cfg.ip_range.low, cfg.ip_range.high]

theorem fields_askMessage (id ip : ℤ) :
    fields (askMessage id ip) = ["ASK".toList, intText id, intText ip] :=
  fields_message ⟨by decide, by decide⟩ [id, ip]

theorem fields_ackMessage : fields ackMessage = ["HELLO_ACK".toList, "0".toList] := by
  apply fields_join
  rw [List.forall_mem_cons, List.forall_mem_singleton]
  exact ⟨⟨by decide, by decide⟩, by decide, by decide⟩

theorem fields_forwardMessage (id : ℤ) (sw : Switch) : fields (forwardMessage id sw) =
    ["ADD".toList, intText id, intText sw.port1, intText sw.port2, intText sw.ipranges.low,
      intText sw.ipranges.high] :=
  fields_message ⟨by decide, by decide⟩
    [id, sw.port1, sw.port2, sw.ipranges.low, sw.ipranges.high]

theorem fields_dropMessage (id ip : ℤ) :
    fields (dropMessage id ip) = ["ADD".toList, intText id, intText ip] :=
  fields_message ⟨by decide, by decide⟩ [id, ip]

theorem fields_relayMessage (id : ℤ) : fields (relayMessage id) = ["RELAY".toList, intText id] :=
  fields_message ⟨by decide, by decide⟩ [id]

end Words

/-- The kind of a message is its first word. -/
def IsKind (kind : String) (m : Text) : Prop := (fields m).head? = some kind.toList

instance (kind : String) (m : Text) : Decidable (IsKind kind m) :=
  inferInstanceAs (Decidable (_ = _))

theorem isKind {kind : String} {m : Text} {rest : List Text}
    (h : fields m = kind.toList :: rest) : IsKind kind m := by
  rw [IsKind, h]
  rfl

theorem not_isKind {kind : String} {m name : Text} {rest : List Text}
    (h : fields m = name :: rest) (hne : name ≠ kind.toList) : ¬ IsKind kind m := by
  rw [IsKind, h]
  intro hkind
  exact hne (Option.some.inj hkind)

theorem stoi_intText_self {x : ℤ} (h : IsInt x) : stoi (intText x) = some x := by
  have happend := stoi_intText h NoDigit.nil
  rwa [List.append_nil] at happend

theorem contains_of_findOwner {ip : ℤ} (hint : IsInt ip) {switches : List Switch}
    {sw : Switch} (h : Controller.findOwner (intText ip) switches = some (some sw)) :
    sw.ipranges.Contains ip := by
  induction switches with
  | nil => cases h
  | cons sw' switches ih =>
    unfold Controller.findOwner at h
    rw [stoi_intText_self hint, Option.bind_eq_bind, Option.bind_some] at h
    split_ifs at h with hcontains
    · cases h
      exact hcontains
    · exact ih h

/-- An ASK of switch `k` is answered with the first owner, or with the address. -/
theorem receive_ask {k : Fin n} {ip : ℤ} {c c' : Controller} {writes : List Sent}
    (h : controllerReceive n c (fields (askMessage (site.cfg k).switchID ip)) =
      some (c', writes)) :
    c'.switches = c.switches ∧ ∃ owner,
      Controller.findOwner (intText ip) c.switches = some owner ∧
      writes = [⟨(site.cfg k).switchID, owner.elim (dropMessage (site.cfg k).switchID ip)
        (forwardMessage (site.cfg k).switchID)⟩] := by
  rw [fields_askMessage] at h
  unfold controllerReceive Controller.receiveAsk at h
  have hname : ¬ ("ASK".toList = "HELLO".toList) := by decide
  simp only [List.getElem?_cons_zero, List.getElem?_cons_succ, Option.bind_eq_bind,
    Option.bind_some, if_neg hname, if_true, stoi_intText_self (site.cfg k).id_int] at h
  obtain ⟨owner, howner, h⟩ := Option.bind_eq_some_iff.mp h
  split_ifs at h
  cases h
  refine ⟨rfl, owner, howner, ?_⟩
  cases owner with
  | none => rfl
  | some sw => rfl

/-- The controller handles a message of switch `k`: it answers an ASK with an ADD, and
    nothing else. -/
theorem receive_up {k : Fin n} {m : Text} {c c' : Controller} {writes : List Sent}
    (hm : UpMessage site k m) (hentries : ∀ sw ∈ c.switches, ∃ t, sw = site.entry t)
    (h : controllerReceive n c (fields m) = some (c', writes)) :
    (∀ sw ∈ c'.switches, ∃ t, sw = site.entry t) ∧
      ((∃ text, DownMessage site k text ∧ writes = [⟨(site.cfg k).switchID, text⟩] ∧
          (IsKind "ASK" m ↔ IsKind "ADD" text)) ∨
        (¬ IsKind "ASK" m ∧ writes = [])) := by
  have hid := (site.cfg k).id_int
  cases hm with
  | hello =>
    rw [fields_helloMessage] at h
    unfold controllerReceive Controller.receiveHello at h
    simp only [List.getElem?_cons_zero, List.getElem?_cons_succ, Option.bind_eq_bind,
      Option.bind_some, if_true, stoi_intText_self hid, stoi_intText_self (site.cfg k).pswj_int,
      stoi_intText_self (site.cfg k).pswk_int, stoi_intText_self (site.cfg k).low_int,
      stoi_intText_self (site.cfg k).high_int] at h
    split_ifs at h
    cases h
    constructor
    · intro sw hsw
      rcases List.mem_append.mp hsw with hsw | hsw
      · exact hentries sw hsw
      · exact ⟨k, List.mem_singleton.mp hsw⟩
    · have hask : ¬ IsKind "ASK" (helloMessage (site.cfg k)) :=
        not_isKind (fields_helloMessage _) (by decide)
      have hadd : ¬ IsKind "ADD" ackMessage := not_isKind fields_ackMessage (by decide)
      exact .inl ⟨ackMessage, .ack, rfl, iff_of_false hask hadd⟩
  | @ask ip hint hother =>
    have hask : IsKind "ASK" (askMessage (site.cfg k).switchID ip) :=
      isKind (fields_askMessage _ _)
    obtain ⟨hswitches, owner, howner, rfl⟩ := receive_ask h
    rw [hswitches]
    refine ⟨hentries, .inl ?_⟩
    cases owner with
    | none =>
      exact ⟨dropMessage (site.cfg k).switchID ip, .drop hint, rfl,
        iff_of_true hask (isKind (fields_dropMessage _ _))⟩
    | some sw =>
      have hcontains := contains_of_findOwner hint howner
      obtain ⟨t, rfl⟩ := hentries sw (mem_of_findOwner howner sw rfl)
      exact ⟨forwardMessage (site.cfg k).switchID (site.entry t), .forward hother hcontains, rfl,
        iff_of_true hask (isKind (fields_forwardMessage _ _))⟩
  | relay =>
    rw [fields_relayMessage] at h
    unfold controllerReceive at h
    have hhello : ¬ ("RELAY".toList = "HELLO".toList) := by decide
    have hask : ¬ ("RELAY".toList = "ASK".toList) := by decide
    simp only [List.getElem?_cons_zero, List.getElem?_cons_succ, Option.bind_eq_bind,
      Option.bind_some, if_neg hhello, if_neg hask] at h
    cases h
    exact ⟨hentries, .inr ⟨not_isKind (fields_relayMessage _) (by decide), rfl⟩⟩

/-- The rule that an ADD for the range of `sw` installs. -/
def forwardRule (cfg : SwitchConfig) (sw : Switch) : Ft :=
  ⟨⟨0, MAXIP⟩, sw.ipranges, .FORWARD, SwitchState.forwardingPort cfg sw.port1, 1⟩

/-- The rule that an ADD for an address without owner installs. -/
def dropRule (ip : ℤ) : Ft := ⟨⟨0, MAXIP⟩, ⟨ip, ip⟩, .DROP, 0, 1⟩

/-- A switch handles an ADD with a range. -/
theorem receive_forward {cfg : SwitchConfig} {id : ℤ} {sw : Switch} (hsw : sw.IsInts)
    {s s' : SwitchState} {writes : List Sent}
    (h : s.switchReceive cfg (fields (forwardMessage id sw)) = some (s', writes)) :
    s'.forwardingTable = s.forwardingTable ++ [forwardRule cfg sw] := by
  obtain ⟨hport, -, hlow, hhigh⟩ := hsw
  have hkind : SwitchState.name_pkt_map "ADD".toList = .ADD := by decide
  rw [fields_forwardMessage] at h
  simp only [SwitchState.switchReceive, hkind, SwitchState.receiveAdd, List.length_cons,
    List.length_nil, List.getElem?_cons_zero, List.getElem?_cons_succ, Option.bind_eq_bind,
    Option.bind_some, stoi_intText_self hport, stoi_intText_self hlow,
    stoi_intText_self hhigh] at h
  cases h
  rfl

theorem isInts_entry (site : Site n) (k : Fin n) : (site.entry k).IsInts :=
  ⟨isInt_port (site.cfg k).pswj_int, isInt_port (site.cfg k).pswk_int, (site.cfg k).low_int,
    (site.cfg k).high_int⟩

/-- Switch `k` handles a message of the controller. -/
theorem receive_down {k : Fin n} {m : Text} {s s' : SwitchState} {writes : List Sent}
    (hm : DownMessage site k m)
    (h : s.switchReceive (site.cfg k) (fields m) = some (s', writes)) :
    (m = ackMessage ∧ s'.forwardingTable = s.forwardingTable) ∨
    (∃ t ip, ¬ (site.cfg k).ip_range.Contains ip ∧ (site.cfg t).ip_range.Contains ip ∧
      m = forwardMessage (site.cfg k).switchID (site.entry t) ∧
      s'.forwardingTable = s.forwardingTable ++ [forwardRule (site.cfg k) (site.entry t)]) ∨
    (∃ ip, IsInt ip ∧ m = dropMessage (site.cfg k).switchID ip ∧
      s'.forwardingTable = s.forwardingTable ++ [dropRule ip]) := by
  cases hm with
  | ack =>
    rw [fields_ackMessage] at h
    refine .inl ⟨rfl, ?_⟩
    simp only [SwitchState.switchReceive] at h
    cases h
    rfl
  | @forward t ip hother howner =>
    exact .inr (.inl ⟨t, ip, hother, howner, rfl, receive_forward (isInts_entry site t) h⟩)
  | @drop ip hint =>
    refine .inr (.inr ⟨ip, hint, rfl, ?_⟩)
    rw [fields_dropMessage] at h
    have hkind : SwitchState.name_pkt_map "ADD".toList = .ADD := by decide
    simp only [SwitchState.switchReceive, hkind, SwitchState.receiveAdd, List.length_cons,
      List.length_nil, List.getElem?_cons_zero, List.getElem?_cons_succ, Option.bind_eq_bind,
      Option.bind_some, stoi_intText_self hint] at h
    cases h
    rfl

theorem receive_relay {cfg : SwitchConfig} {id : ℤ} {s s' : SwitchState} {writes : List Sent}
    (h : s.switchReceive cfg (fields (relayMessage id)) = some (s', writes)) :
    s'.forwardingTable = countPacket s.forwardingTable 0 := by
  rw [fields_relayMessage] at h
  simp only [SwitchState.switchReceive] at h
  cases h
  rfl

/-! ## The FIFOs -/

/-- The ASKs of switch `k` that the controller has handled. -/
def asksPassed (site : Site n) (net : Net n) (k : Fin n) : ℕ :=
  (net.fifo (site.cfg k).switchID 0).passed.countP (IsKind "ASK" ·)

/-- The ADDs the controller has sent to switch `k`. -/
def addsWritten (site : Site n) (net : Net n) (k : Fin n) : ℕ :=
  (net.fifo 0 (site.cfg k).switchID).written.countP (IsKind "ADD" ·)

/-- What holds as long as every read finds one message. -/
structure Typed (site : Site n) (net : Net n) : Prop where
  legit : ∀ a b, ∀ m ∈ (net.fifo a b).written, Legit site a b m
  entries : ∀ sw ∈ net.ctrl.switches, ∃ t, sw = site.entry t
  answered : ∀ k, asksPassed site net k = addsWritten site net k

theorem legit_up {k : Fin n} {m : Text} (h : UpMessage site k m) :
    Legit site (site.cfg k).switchID 0 m where
  up k' hid _ := by
    obtain rfl := id_inj hid
    exact h
  down _ hid := absurd hid (Int.ne_of_gt (id_pos site k))
  side _ hpos := absurd hpos (Int.lt_irrefl 0)

theorem legit_down {k : Fin n} {m : Text} (h : DownMessage site k m) :
    Legit site 0 (site.cfg k).switchID m where
  up k' hid := absurd hid.symm (Int.ne_of_gt (id_pos site k'))
  down k' _ hid := by
    obtain rfl := id_inj hid
    exact h
  side hpos := absurd hpos (Int.lt_irrefl 0)

/-- A relayed packet goes to a neighbour, or to the controller. -/
theorem legit_relay (site : Site n) (k : Fin n) (b : ℤ) :
    Legit site (site.cfg k).switchID b (relayMessage (site.cfg k).switchID) where
  up k' hid _ := by
    obtain rfl := id_inj hid
    exact .relay
  down _ hid := absurd hid (Int.ne_of_gt (id_pos site k))
  side _ _ := ⟨k, rfl⟩

theorem legit_of_send_open (site : Site n) (k : Fin n) (s : SwitchState) :
    ∀ w ∈ (s.send_open_to_controller (site.cfg k)).2,
      Legit site (site.cfg k).switchID w.dest w.message := by
  intro w hw
  obtain rfl := List.mem_singleton.mp hw
  exact legit_up .hello

theorem legit_of_turn {k : Fin n} {s t : SwitchState} {writes : List Sent}
    (h : s.turn (site.cfg k) = some (t, writes)) :
    ∀ w ∈ writes, Legit site (site.cfg k).switchID w.dest w.message := by
  intro w hw
  rcases (turn_cases h).2 with rfl | ⟨peer, rfl, -⟩ | ⟨ip, hint, hother, rfl⟩
  · cases hw
  · obtain rfl := List.mem_singleton.mp hw
    exact legit_relay site k peer
  · obtain rfl := List.mem_singleton.mp hw
    exact legit_up (.ask hint hother)

theorem legit_of_switchReceive {k : Fin n} {s t : SwitchState} {message : List Text}
    {writes : List Sent} (h : s.switchReceive (site.cfg k) message = some (t, writes)) :
    ∀ w ∈ writes, Legit site (site.cfg k).switchID w.dest w.message := by
  intro w hw
  rcases writes_of_switchReceive h with rfl | ⟨peer, rfl, -⟩
  · cases hw
  · obtain rfl := List.mem_singleton.mp hw
    exact legit_relay site k peer

section Step

variable {net net' : Net n}

theorem legit_send {a b : ℤ} {c : Channel Char} {m : Text} (hm : Legit site a b m)
    (h : ∀ m' ∈ c.written, Legit site a b m') :
    ∀ m' ∈ (c.send nul m).written, Legit site a b m' := by
  intro m' hm'
  rcases List.mem_append.mp hm' with hm' | hm'
  · exact h m' hm'
  · obtain rfl := List.mem_singleton.mp hm'
    exact hm

/-- Switch `k` sends. -/
theorem Typed.sendAll (h : Typed site net) {k : Fin n} {writes : List Sent}
    (hw : ∀ w ∈ writes, Legit site (site.cfg k).switchID w.dest w.message) :
    Typed site (net.sendAll (site.cfg k).switchID writes) where
  legit := fifo_sendAll (P := fun a b c => ∀ m ∈ c.written, Legit site a b m)
    (fun w hmem _ hc => legit_send (hw w hmem) hc) h.legit
  entries := by
    rw [ctrl_sendAll]
    exact h.entries
  answered := by
    intro t
    have hother : ¬ ((0 : ℤ) = (site.cfg k).switchID) := Int.ne_of_lt (id_pos site k)
    unfold asksPassed addsWritten
    rw [passed_sendAll, fifo_sendAll_of_ne _ hother]
    exact h.answered t

/-- Switch `k` has read. -/
theorem Typed.take (h : Typed site net) {k : Fin n} (a : ℤ) (m : Text) :
    Typed site (net.take a (site.cfg k).switchID m) where
  legit := by
    intro x y
    rw [written_take]
    exact h.legit x y
  entries := h.entries
  answered := by
    intro t
    have hother : ¬ ((0 : ℤ) = (site.cfg k).switchID) := Int.ne_of_lt (id_pos site k)
    unfold asksPassed addsWritten
    rw [written_take, fifo_take_of_ne _ _ hother]
    exact h.answered t

/-- What a read passes on has been sent, where all reads before it found one message. -/
theorem received_mem_written {ok : ℤ → ℤ → Prop} (h : Balanced ok net) {a b : ℤ} (hok : ok a b)
    (hne : (net.fifo a b).queue ≠ []) (mem : Memory) :
    received mem (net.fifo a b).queue ∈ (net.fifo a b).written := by
  obtain ⟨hnul, -⟩ := (h a b).short_firstFrame hne (two_messages a)
  rw [received_eq mem hnul]
  exact (h a b).mem_written hok hne (two_messages a)

theorem countP_snoc (kind : String) (ms : List Text) (m : Text) :
    (ms ++ [m]).countP (IsKind kind ·) =
      ms.countP (IsKind kind ·) + if IsKind kind m then 1 else 0 := by
  rw [List.countP_append, List.countP_singleton]
  simp only [decide_eq_true_eq]

/-- The controller has read `m` from switch `k`. -/
theorem asksPassed_take (site : Site n) (net : Net n) (k t : Fin n) (m : Text) :
    asksPassed site (net.take (site.cfg k).switchID 0 m) t =
      asksPassed site net t + if t = k ∧ IsKind "ASK" m then 1 else 0 := by
  unfold asksPassed Net.take
  by_cases htk : t = k
  · subst htk
    rw [setFifo_self]
    simp only [true_and]
    exact countP_snoc "ASK" _ m
  · rw [setFifo_of_ne _ _ fun h => htk (id_inj h.1), if_neg fun h => htk h.1, Nat.add_zero]

/-- The controller has sent `m` to switch `k`. -/
theorem addsWritten_send (site : Site n) (net : Net n) (k t : Fin n) (m : Text) :
    addsWritten site (net.send 0 ⟨(site.cfg k).switchID, m⟩) t =
      addsWritten site net t + if t = k ∧ IsKind "ADD" m then 1 else 0 := by
  unfold addsWritten Net.send
  by_cases htk : t = k
  · subst htk
    rw [setFifo_self]
    simp only [true_and]
    exact countP_snoc "ADD" _ m
  · rw [setFifo_of_ne _ _ fun h => htk (id_inj h.2), if_neg fun h => htk h.1, Nat.add_zero]

/-- The controller has handled a message of switch `k`. -/
theorem Typed.controllerReceive (h : Typed site net) {k : Fin n} {m : Text}
    (hm : UpMessage site k m) {ctrl : Controller} {writes : List Sent}
    (hreceive : controllerReceive n net.ctrl (fields m) = some (ctrl, writes)) :
    Typed site (({ net.take (site.cfg k).switchID 0 m with ctrl := ctrl } : Net n).sendAll 0
      writes) := by
  obtain ⟨hentries, hwrites⟩ := receive_up hm h.entries hreceive
  refine ⟨?_, ?_, ?_⟩
  · refine fifo_sendAll (P := fun a b c => ∀ m ∈ c.written, Legit site a b m) ?_ ?_
    · intro w hw c hc
      rcases hwrites with ⟨text, hdown, rfl, -⟩ | ⟨-, rfl⟩
      · obtain rfl := List.mem_singleton.mp hw
        exact legit_send (legit_down hdown) hc
      · cases hw
    · intro a b
      show ∀ m' ∈ ((net.take (site.cfg k).switchID 0 m).fifo a b).written, _
      rw [written_take]
      exact h.legit a b
  · rw [ctrl_sendAll]
    exact hentries
  · intro t
    have hasks : ∀ ws, asksPassed site
        (({ net.take (site.cfg k).switchID 0 m with ctrl := ctrl } : Net n).sendAll 0 ws) t =
        asksPassed site (net.take (site.cfg k).switchID 0 m) t := by
      intro ws
      unfold asksPassed
      rw [passed_sendAll]
    have hadds : addsWritten site
        ({ net.take (site.cfg k).switchID 0 m with ctrl := ctrl } : Net n) t =
        addsWritten site net t := by
      show List.countP _ ((net.take (site.cfg k).switchID 0 m).fifo _ _).written = _
      rw [written_take]
      rfl
    rw [hasks, asksPassed_take]
    rcases hwrites with ⟨text, -, rfl, hkind⟩ | ⟨hask, rfl⟩
    · show _ = addsWritten site (Net.send _ 0 _) t
      rw [addsWritten_send, hadds, h.answered t]
      simp only [hkind]
    · rw [if_neg fun hyes => hask hyes.2, Nat.add_zero]
      exact (h.answered t).trans hadds.symm

/-- A step from a state where every FIFO is in balance. -/
theorem Typed.step {ok : ℤ → ℤ → Prop} {act : Action n} (h : Typed site net)
    (hbalanced : Balanced ok net) (hok : ∀ a b, ok a b)
    (hstep : step site net act = some net') : Typed site net' := by
  cases act with
  | start k =>
    simp only [A2w22.step] at hstep
    split_ifs at hstep
    cases hstep
    refine Typed.sendAll ?_ (legit_of_send_open site k _)
    exact ⟨h.legit, h.entries, h.answered⟩
  | traffic k =>
    simp only [A2w22.step] at hstep
    split_ifs at hstep
    obtain ⟨⟨s, writes⟩, hturn, rfl⟩ := Option.map_eq_some_iff.mp hstep
    refine Typed.sendAll ?_ (legit_of_turn hturn)
    exact ⟨h.legit, h.entries, h.answered⟩
  | switchRead k session mem =>
    simp only [A2w22.step] at hstep
    split at hstep
    · cases hstep
    · rename_i peer hsession
      split_ifs at hstep with hread
      obtain ⟨⟨s, writes⟩, hreceive, rfl⟩ := Option.map_eq_some_iff.mp hstep
      have htake := h.take (k := k) peer.peer
        (received mem (net.fifo peer.peer (site.cfg k).switchID).queue)
      refine Typed.sendAll ?_ (legit_of_switchReceive hreceive)
      exact ⟨htake.legit, htake.entries, htake.answered⟩
  | controllerRead k mem =>
    simp only [A2w22.step] at hstep
    split_ifs at hstep with hread
    obtain ⟨⟨ctrl, writes⟩, hreceive, rfl⟩ := Option.map_eq_some_iff.mp hstep
    have hwritten := received_mem_written hbalanced (hok _ _) hread mem
    exact h.controllerReceive ((h.legit _ _ _ hwritten).up k rfl rfl) hreceive

/-- In a run whose reads find one message each. -/
theorem typed_of_run {tr : List (Net n × Action n)}
    (h : (system site).Run (.init site) tr net) (hsent : AsSent site tr) : Typed site net := by
  induction h with
  | nil =>
    refine ⟨fun _ _ _ hm => absurd hm List.not_mem_nil,
      fun _ hsw => absurd hsw List.not_mem_nil, fun k => ?_⟩
    have hpassed : asksPassed site (.init site) k = 0 := rfl
    have hwritten : addsWritten site (.init site) k = 0 := rfl
    rw [hpassed, hwritten]
  | snoc hrun hstep ih =>
    have hprefix : AsSent site _ := fun p hp => hsent p (List.mem_append_left _ hp)
    exact (ih hprefix).step (balance_of_run hrun).1 (fun a b p hp => hprefix p hp a b) hstep

end Step

end Cmput379.A2w22
