import Cmput379.Sdn.Descriptors

/-!
# Handling what a connection sends

* `Account`: what one connection has sent, what has been handled of it, and the ACKs.
* `Account.read`: the one packet that is unread is read and handled.
* `handled_of_handle`: what handling a request changes, where its slot is not closed, the
  descriptors of the slot lead to the connection, and this has not been reset.
-/

namespace Cmput379.Sdn.Reconnect

open Cmput379.Lib

/-! ## One connection -/

theorem bytes_append (ps qs : List WirePacket) : bytes (ps ++ qs) = bytes ps ++ bytes qs :=
  List.flatMap_append

theorem bytes_singleton (p : WirePacket) : bytes [p] = p.packet.text := by simp [bytes]

theorem text_ne_nil (p : Packet) : p.text ≠ [] := by
  cases p <;> simp [Packet.text]

theorem bytes_eq_nil_iff {ps : List WirePacket} : bytes ps = [] ↔ ps = [] := by
  constructor
  · intro h
    cases ps with
    | nil => rfl
    | cons p ps => exact absurd (List.flatMap_eq_nil_iff.mp h p List.mem_cons_self) (text_ne_nil _)
  · rintro rfl
    rfl

/-- The texts have been handled, each is one of the packets sent, in order, and the
    OPENs among them have been answered. -/
structure AccountOf (c : Connection) (texts : List Text) (done rest : List WirePacket) :
    Prop where
  sent : c.sent = done ++ rest
  taken : c.taken = (bytes done).length
  texts : texts = done.map fun p => p.packet.text
  acks : c.answers.count .ACK = done.countP fun p => isOpen p.packet

def Account (c : Connection) (texts : List Text) : Prop :=
  ∃ done rest, AccountOf c texts done rest

namespace AccountOf

variable {c : Connection} {texts : List Text} {done rest : List WirePacket}

theorem unread_eq (h : AccountOf c texts done rest) : c.unread = bytes rest := by
  unfold Connection.unread
  rw [h.sent, h.taken, bytes_append, List.drop_left]

theorem length_sent (h : AccountOf c texts done rest) :
    c.sent.length = texts.length + rest.length := by
  rw [h.sent, h.texts, List.length_append, List.length_map]

theorem rest_eq_nil (h : AccountOf c texts done rest) (hunread : c.unread = []) : rest = [] := by
  rw [h.unread_eq] at hunread
  exact bytes_eq_nil_iff.mp hunread

/-- The one packet that is unread. -/
theorem rest_eq_singleton (h : AccountOf c texts done rest) {p : WirePacket}
    (hlast : p ∈ c.sent.getLast?) (hunread : c.unread = p.packet.text) : rest = [p] := by
  rw [h.unread_eq] at hunread
  have hne : rest ≠ [] := by
    rintro rfl
    exact text_ne_nil _ hunread.symm
  have hp : p ∈ rest.getLast? := by
    rw [h.sent, List.getLast?_append_of_ne_nil _ hne] at hlast
    exact hlast
  obtain ⟨init, rfl⟩ : ∃ init, rest = init ++ [p] :=
    ⟨rest.dropLast, (List.dropLast_append_getLast? p hp).symm⟩
  rw [bytes_append, bytes_singleton] at hunread
  have hinit : bytes init = [] := List.append_left_eq_self.mp hunread
  rw [bytes_eq_nil_iff.mp hinit, List.nil_append]

end AccountOf

namespace Account

variable {c : Connection} {texts : List Text}

theorem of_fresh (htaken : c.taken = 0) (hanswers : c.answers = []) : Account c [] :=
  ⟨[], c.sent, rfl, htaken, rfl, by rw [hanswers]; rfl⟩

theorem send (h : Account c texts) (p : WirePacket) :
    Account { c with sent := c.sent ++ [p] } texts := by
  obtain ⟨done, rest, h⟩ := h
  exact ⟨done, rest ++ [p], by rw [← List.append_assoc, ← h.sent], h.taken, h.texts, h.acks⟩

theorem hangUp (h : Account c texts) (reset : Reset) :
    Account { c with hungUp := true, reset := reset } texts := by
  obtain ⟨done, rest, h⟩ := h
  exact ⟨done, rest, h.sent, h.taken, h.texts, h.acks⟩

theorem length_eq (h : Account c texts) (hunread : c.unread = []) :
    texts.length = c.sent.length := by
  obtain ⟨done, rest, h⟩ := h
  rw [h.length_sent, h.rest_eq_nil hunread, List.length_nil, Nat.add_zero]

/-- The one packet that is unread is read and handled. -/
theorem read (h : Account c texts) {p : WirePacket} (hlast : p ∈ c.sent.getLast?)
    (hunread : c.unread = p.packet.text) {replies : List Packet}
    (hreplies : replies.count .ACK = if isOpen p.packet then 1 else 0) :
    Account { c with taken := c.taken + p.packet.text.length, answers := c.answers ++ replies }
      (texts ++ [p.packet.text]) := by
  obtain ⟨done, rest, h⟩ := h
  obtain rfl := h.rest_eq_singleton hlast hunread
  refine ⟨done ++ [p], [], by rw [List.append_nil]; exact h.sent, ?_, ?_, ?_⟩
  · show c.taken + _ = _
    rw [h.taken, bytes_append, bytes_singleton, List.length_append]
  · rw [h.texts, List.map_append, List.map_singleton]
  · show (c.answers ++ replies).count _ = _
    rw [List.count_append, List.countP_append, List.countP_singleton, h.acks, hreplies]

/-- After that nothing is unread. -/
theorem unread_read {p : WirePacket} (h : Account c texts) (hlast : p ∈ c.sent.getLast?)
    (hunread : c.unread = p.packet.text) : texts.length + 1 = c.sent.length := by
  obtain ⟨done, rest, h⟩ := h
  rw [h.length_sent, h.rest_eq_singleton hlast hunread, List.length_singleton]

end Account

/-! ## Handling a packet -/

theorem isOpenText_text (p : WirePacket) : isOpenText p.packet.text = isOpen p.packet := by
  unfold isOpenText
  rw [parsePacketString_text p.inRange]
  cases p.packet <;> rfl

section Handle

variable {h h' : Host} {i : ℤ} {fd k : ℕ} {p : WirePacket}

/-- What a handler for slot `i` changes in the controller, when it adds `entries` to
    `switchInfoTable`. -/
structure Handler (c c' : ControllerState ℕ) (i : ℤ) (entries : ℕ) : Prop where
  pfds : c'.pfds = c.pfds
  closed : c'.closed = c.closed
  socketIdx : c'.socketIdx = c.socketIdx
  numSwitches : c'.numSwitches = c.numSwitches
  idToFd : ∀ j fd, c'.idToFd j = some fd →
    c.idToFd j = some fd ∨ (j = i ∧ (fd = stdinFd ∨ c.pfds i = some fd))
  table : c'.switchInfoTable.length = c.switchInfoTable.length + entries

theorem handler_of_open (c : ControllerState ℕ) {i : ℤ} {fd : ℕ} (hfd : c.pfds i = some fd)
    (info : SwitchInfo) : Handler c (c.handleOpen i info).1 i 1 := by
  refine ⟨rfl, rfl, rfl, rfl, ?_, by simp [ControllerState.handleOpen]⟩
  intro j g hg
  simp only [ControllerState.handleOpen, hfd, Option.getD_some] at hg
  split_ifs at hg
  · exact .inl hg
  · by_cases hj : j = i
    · subst hj
      rw [Function.update_self] at hg
      exact .inr ⟨rfl, .inr (hfd.trans hg)⟩
    · rw [Function.update_of_ne hj] at hg
      exact .inl hg

theorem handler_of_query (c : ControllerState ℕ) (i srcIp destIp : ℤ) :
    Handler c (c.handleQuery i srcIp destIp).1 i 0 := by
  unfold ControllerState.handleQuery
  dsimp only
  split_ifs with hsrc hdest hclosed
  · exact ⟨rfl, rfl, rfl, rfl, fun j fd hfd => .inl hfd, rfl⟩
  · exact ⟨rfl, rfl, rfl, rfl, fun j fd hfd => .inl hfd, rfl⟩
  · exact ⟨rfl, rfl, rfl, rfl, fun j fd hfd => .inl hfd, rfl⟩
  · refine ⟨rfl, rfl, rfl, rfl, ?_, rfl⟩
    intro j g hg
    -- `operator[]` leaves an entry behind
    simp only [ControllerState.indexFd] at hg
    by_cases hj : j = i
    · subst hj
      rw [Function.update_self] at hg
      cases hid : c.idToFd j with
      | none =>
        simp only [ControllerState.fdAt, hid, Option.getD_none] at hg
        exact .inr ⟨rfl, .inl (Option.some.inj hg).symm⟩
      | some fd =>
        simp only [ControllerState.fdAt, hid, Option.getD_some] at hg
        exact .inl hg
    · rw [Function.update_of_ne hj] at hg
      exact .inl hg

/-- An answer to a QUERY is no ACK. -/
theorem count_answer (table : List SwitchInfo) (i srcIp destIp : ℤ) :
    [ControllerState.answer table i srcIp destIp].count .ACK = 0 := by
  unfold ControllerState.answer
  split <;> rfl

/-- What handling `p`, read from connection `k`, in slot `i` changes. -/
structure Handled (h h' : Host) (i : ℤ) (k : ℕ) (p : WirePacket) : Prop where
  ctrl : Handler h.ctrl h'.ctrl i (if isOpen p.packet then 1 else 0)
  running : h'.running = h.running
  errno : h'.errno = h.errno
  round : h'.round = h.round
  fds : h'.fds = h.fds
  connected : h'.connected = h.connected
  backlog : h'.backlog = h.backlog
  slotOf : h'.slotOf = h.slotOf
  due : h'.due = h.due
  handled : h'.handled = h.handled ++ [(i, p.packet.text)]
  conns : ∃ replies : List Packet, (replies.count .ACK = if isOpen p.packet then 1 else 0) ∧
    h'.conns = Function.update h.conns k
      { h.conns k with answers := (h.conns k).answers ++ replies }

/-- A descriptor that leads to connection `k`. -/
theorem write_conn (hrunning : h.running = true) (herrno : h.errno = false) {g : ℕ}
    (hg : h.fds g = some k) (hreset : (h.conns k).reset = .never) (packet : Packet) :
    h.write (g, packet) =
      h.setConn k { h.conns k with answers := (h.conns k).answers ++ [packet] } := by
  simp only [Host.write, hg, hreset, ne_eq, not_true, if_false, Host.setConn, herrno, hrunning,
    Bool.not_false, Bool.and_true]

/-- What is written to `stdin` reaches nobody. -/
theorem write_stdin (herrno : h.errno = false) (hstdin : h.fds stdinFd = none)
    (packet : Packet) : h.write (stdinFd, packet) = h := by
  have hsame : (h.running && !h.errno) = h.running := by rw [herrno, Bool.not_false, Bool.and_true]
  simp only [Host.write, hstdin, if_true, hsame]

/-- The controller has moved to `ctrl`, and has written `replies` to the connection. -/
theorem handled_of_replies {ctrl : ControllerState ℕ}
    (hctrl : Handler h.ctrl ctrl i (if isOpen p.packet then 1 else 0)) (replies : List Packet)
    (hreplies : replies.count .ACK = if isOpen p.packet then 1 else 0)
    (heq : h' = (h.record ctrl i p.packet.text).setConn k
      { h.conns k with answers := (h.conns k).answers ++ replies }) : Handled h h' i k p := by
  subst heq
  exact ⟨hctrl, rfl, rfl, rfl, rfl, rfl, rfl, rfl, rfl, rfl, replies, hreplies, rfl⟩

theorem setConn_self (h : Host) (k : ℕ) : h.setConn k (h.conns k) = h := by
  simp only [Host.setConn, Function.update_eq_self]

theorem writes_of_query (c : ControllerState ℕ) {i : ℤ} (hopen : i ∉ c.closed)
    (srcIp destIp : ℤ) : (c.handleQuery i srcIp destIp).2 = [] ∨
      (c.handleQuery i srcIp destIp).2 =
        [(c.fdAt i, ControllerState.answer c.switchInfoTable i srcIp destIp)] := by
  unfold ControllerState.handleQuery
  dsimp only
  split_ifs with hsrc hdest
  · exact .inl rfl
  · exact .inl rfl
  · exact .inr (if_neg hopen)

theorem handle_eq {r : ControllerState ℕ × List (ℕ × Packet)} {text : Text}
    (htext : h.ctrl.handleText i text = some r) :
    h.handle i text = some (r.2.foldl Host.write (h.record r.1 i text)) := by
  unfold Host.handle
  rw [htext]
  rfl

/-- A request that has been read from connection `k` is handled in its slot. -/
theorem handled_of_handle (hrequest : isRequest p.packet = true) (hrunning : h.running = true)
    (herrno : h.errno = false) (hpfds : h.ctrl.pfds i = some fd) (hfds : h.fds fd = some k)
    (hopen : i ∉ h.ctrl.closed) (hreset : (h.conns k).reset = .never)
    (hstdin : h.fds stdinFd = none)
    (hid : ∀ g, h.ctrl.idToFd i = some g → g = stdinFd ∨ h.ctrl.pfds i = some g)
    (hhandle : h.handle i p.packet.text = some h') : Handled h h' i k p := by
  obtain ⟨packet, hrange⟩ := p
  cases packet with
  | OPEN id port1Id port2Id ipLow ipHigh =>
    rw [handle_eq (ControllerState.handleText_OPEN h.ctrl i hrange)] at hhandle
    have hwrites :
        (h.ctrl.handleOpen i ⟨id, port1Id, port2Id, ipLow, ipHigh⟩).2 = [(fd, .ACK)] := by
      simp only [ControllerState.handleOpen, ControllerState.sendUnlessClosed, if_neg hopen, hpfds,
        Option.getD_some]
    rw [hwrites] at hhandle
    refine handled_of_replies (handler_of_open h.ctrl hpfds ⟨id, port1Id, port2Id, ipLow, ipHigh⟩)
      [.ACK] rfl ?_
    rw [← Option.some.inj hhandle, List.foldl_cons, List.foldl_nil]
    exact write_conn (h := h.record _ i _) hrunning herrno hfds hreset .ACK
  | QUERY srcIp destIp =>
    rw [handle_eq (ControllerState.handleText_QUERY h.ctrl i hrange)] at hhandle
    have hctrl := handler_of_query h.ctrl i srcIp destIp
    have hsilent : h' = h.record (h.ctrl.handleQuery i srcIp destIp).1 i
        (Packet.QUERY srcIp destIp).text → Handled h h' i k ⟨.QUERY srcIp destIp, hrange⟩ := by
      rintro rfl
      refine handled_of_replies hctrl [] rfl ?_
      rw [List.append_nil]
      exact (setConn_self _ k).symm
    rcases writes_of_query h.ctrl hopen srcIp destIp with hwrites | hwrites
    · rw [hwrites] at hhandle
      exact hsilent (Option.some.inj hhandle).symm
    · rw [hwrites, List.foldl_cons, List.foldl_nil] at hhandle
      cases hentry : h.ctrl.idToFd i with
      | none =>
        have hfd : h.ctrl.fdAt i = stdinFd := by
          unfold ControllerState.fdAt
          rw [hentry]
          rfl
        rw [hfd, write_stdin (h := h.record _ i _) herrno hstdin] at hhandle
        exact hsilent (Option.some.inj hhandle).symm
      | some g =>
        have hfd : h.ctrl.fdAt i = g := by
          unfold ControllerState.fdAt
          rw [hentry]
          rfl
        rw [hfd] at hhandle
        rcases hid g hentry with rfl | hg
        · rw [write_stdin (h := h.record _ i _) herrno hstdin] at hhandle
          exact hsilent (Option.some.inj hhandle).symm
        · obtain rfl : fd = g := Option.some.inj (hpfds.symm.trans hg)
          refine handled_of_replies hctrl _ (count_answer h.ctrl.switchInfoTable i srcIp destIp) ?_
          rw [← Option.some.inj hhandle]
          exact write_conn (h := h.record _ i _) hrunning herrno hfds hreset _
  | ACK | ADD | RELAY => cases hrequest

end Handle

end Cmput379.Sdn.Reconnect
