import Mathlib.Data.List.Nodup
import Cmput379.Sdn.Handling

/-!
# Connections that come and go

As long as no slot shares the connection that is read, and this has not been reset, a
packet is handled in the slot of its connection. A closed slot keeps its descriptor
number, so that with the next connection this ends.

* `Wired`, `Counted`, `Polled`: descriptors and slots, what has been handled, and what
  is still to be served in a poll round.
* `Inv.step`: a step whose read is clear keeps them.
* `reconnected_of_run`: what holds in a run whose reads are clear.
* `reconnected_counterexample`: an OPEN is handled twice, first for a closed slot.
-/

namespace Cmput379.Sdn.Reconnect

open Cmput379.Lib

/-! ## Invariants -/

/-- Every open descriptor belongs to a connection, and is held by its slot, which is not
    closed. -/
structure Wired (h : Host) : Prop where
  slot_of_fd : ∀ fd k, h.fds fd = some k →
    ∃ i, h.slotOf k = some i ∧ h.ctrl.pfds i = some fd ∧ i ∉ h.ctrl.closed
  low : ∀ fd k, h.fds fd = some k → mainFd < fd
  idToFd : ∀ i fd, h.ctrl.idToFd i = some fd →
    i < h.ctrl.socketIdx ∧ (fd = stdinFd ∨ h.ctrl.pfds i = some fd)
  slot_range : ∀ k i, h.slotOf k = some i → 1 ≤ i ∧ i < h.ctrl.socketIdx ∧ k < h.connected
  distinct : ∀ k k' i, h.slotOf k = some i → h.slotOf k' = some i → k = k'
  closed_lt : ∀ i ∈ h.ctrl.closed, i < h.ctrl.socketIdx
  socketIdx_pos : 1 ≤ h.ctrl.socketIdx
  socketIdx_le : h.ctrl.socketIdx ≤ h.ctrl.numSwitches + 1
  backlog : ∀ k ∈ h.backlog, h.slotOf k = none ∧ k < h.connected
  nodup : h.backlog.Nodup

/-- What has been handled of every connection. -/
structure Counted (h : Host) : Prop where
  running : h.running = true
  errno : h.errno = false
  account : ∀ k i, h.slotOf k = some i → Account (h.conns k) (handledIn h i)
  others : ∀ i, (∀ k, h.slotOf k ≠ some i) → handledIn h i = []
  waiting : ∀ k, h.slotOf k = none → (h.conns k).taken = 0 ∧ (h.conns k).answers = []
  ended : ∀ k i, h.slotOf k = some i → (∀ fd, h.fds fd ≠ some k) →
    (h.conns k).hungUp = true ∧ (h.conns k).unread = []
  table : h.ctrl.switchInfoTable.length = h.handled.countP fun e => isOpenText e.2
  requests : ∀ k, ∀ p ∈ (h.conns k).sent, isRequest p.packet = true

/-- The slots still to be served are ready, and the others have been served. -/
structure Polled (h : Host) : Prop where
  nodup : ∀ rest accepting, h.round = some (rest, accepting) → rest.Nodup
  ready : ∀ rest accepting, h.round = some (rest, accepting) →
    ∀ i ∈ rest, i ∈ h.slots ∧ h.ready i = true
  due : ∀ k i, h.slotOf k = some i → (∀ rest accepting, h.round = some (rest, accepting) →
    i ∉ rest) → h.due k ≤ (handledIn h i).length
  due_le : ∀ k, h.due k ≤ (h.conns k).sent.length
  due_waiting : ∀ k, h.slotOf k = none → h.due k = 0

structure Inv (h : Host) : Prop where
  wired : Wired h
  counted : Counted h
  polled : Polled h

theorem ready_iff {h : Host} {i : ℤ} : h.ready i = true ↔ ∃ fd k, h.ctrl.pfds i = some fd ∧
    h.fds fd = some k ∧ ((h.conns k).unread ≠ [] ∨ (h.conns k).hungUp = true) := by
  unfold Host.ready
  cases hpfds : h.ctrl.pfds i with
  | none => simp
  | some fd =>
    cases hfds : h.fds fd with
    | none => simp [hfds]
    | some k => simp [hfds]

/-- `Wired` says nothing about what is read and handled. -/
theorem Wired.frame {h : Host} (w : Wired h) (running errno : Bool) (buffer : Text)
    (round : Option (List ℤ × Bool)) (conns : ℕ → Connection) (due : ℕ → ℕ)
    (handled : List (ℤ × Text)) :
    Wired ⟨h.ctrl, running, errno, buffer, round, h.fds, conns, h.connected, h.backlog, h.slotOf,
      due, handled⟩ :=
  ⟨w.slot_of_fd, w.low, w.idToFd, w.slot_range, w.distinct, w.closed_lt, w.socketIdx_pos,
    w.socketIdx_le, w.backlog, w.nodup⟩

/-- `Counted` says nothing about who is to be served, or waits to be accepted. -/
theorem Counted.frame {h : Host} (w : Counted h) (buffer : Text)
    (round : Option (List ℤ × Bool)) (connected : ℕ) (backlog : List ℕ) (due : ℕ → ℕ) :
    Counted ⟨h.ctrl, h.running, h.errno, buffer, round, h.fds, h.conns, connected, backlog,
      h.slotOf, due, h.handled⟩ :=
  ⟨w.running, w.errno, w.account, w.others, w.waiting, w.ended, w.table, w.requests⟩

theorem update_cases {α β : Type} [DecidableEq α] (f : α → β) (a a' : α) (b : β) :
    (a' = a ∧ Function.update f a b a' = b) ∨ (a' ≠ a ∧ Function.update f a b a' = f a') := by
  by_cases ha : a' = a
  · subst ha
    exact .inl ⟨rfl, Function.update_self ..⟩
  · exact .inr ⟨ha, Function.update_of_ne ha ..⟩

section Environment

variable {h : Host} {k : ℕ} {c : Connection}

/-! ### The switches -/

theorem setConn_cases (h : Host) (k k' : ℕ) (c : Connection) :
    (k' = k ∧ (h.setConn k c).conns k' = c) ∨
      (k' ≠ k ∧ (h.setConn k c).conns k' = h.conns k') :=
  update_cases h.conns k k' c

theorem Counted.setConn (w : Counted h)
    (haccount : ∀ texts, Account (h.conns k) texts → Account c texts)
    (hfresh : c.taken = (h.conns k).taken ∧ c.answers = (h.conns k).answers)
    (hended : (h.conns k).hungUp = true ∧ (h.conns k).unread = [] →
      c.hungUp = true ∧ c.unread = [])
    (hrequests : ∀ p ∈ c.sent, isRequest p.packet = true) : Counted (h.setConn k c) := by
  refine ⟨w.running, w.errno, ?_, w.others, ?_, ?_, w.table, ?_⟩
  · intro k' i hi
    rcases setConn_cases h k k' c with ⟨rfl, heq⟩ | ⟨-, heq⟩
    · rw [heq]
      exact haccount _ (w.account k' i hi)
    · rw [heq]
      exact w.account k' i hi
  · intro k' hnone
    rcases setConn_cases h k k' c with ⟨rfl, heq⟩ | ⟨-, heq⟩
    · rw [heq, hfresh.1, hfresh.2]
      exact w.waiting k' hnone
    · rw [heq]
      exact w.waiting k' hnone
  · intro k' i hi hclosed
    rcases setConn_cases h k k' c with ⟨rfl, heq⟩ | ⟨-, heq⟩
    · rw [heq]
      exact hended (w.ended k' i hi hclosed)
    · rw [heq]
      exact w.ended k' i hi hclosed
  · intro k'
    rcases setConn_cases h k k' c with ⟨rfl, heq⟩ | ⟨-, heq⟩
    · rw [heq]
      exact hrequests
    · rw [heq]
      exact w.requests k'

theorem Polled.setConn (w : Polled h)
    (hready : (h.conns k).unread ≠ [] ∨ (h.conns k).hungUp = true →
      c.unread ≠ [] ∨ c.hungUp = true)
    (hsent : (h.conns k).sent.length ≤ c.sent.length) : Polled (h.setConn k c) := by
  refine ⟨w.nodup, ?_, w.due, ?_, w.due_waiting⟩
  · intro rest accepting hround i hi
    obtain ⟨hslot, hready'⟩ := w.ready rest accepting hround i hi
    obtain ⟨fd, k', hpfds, hfds, hk'⟩ := ready_iff.mp hready'
    refine ⟨hslot, ready_iff.mpr ⟨fd, k', hpfds, hfds, ?_⟩⟩
    rcases setConn_cases h k k' c with ⟨rfl, heq⟩ | ⟨-, heq⟩
    · rw [heq]
      exact hready hk'
    · rw [heq]
      exact hk'
  · intro k'
    have hle := w.due_le k'
    rcases setConn_cases h k k' c with ⟨rfl, heq⟩ | ⟨-, heq⟩
    · rw [heq]
      exact Nat.le_trans hle hsent
    · rw [heq]
      exact hle

theorem Inv.send (inv : Inv h) {p : WirePacket} (hlive : ¬ (h.conns k).hungUp = true)
    (hrequest : isRequest p.packet = true) :
    Inv (h.setConn k { h.conns k with sent := (h.conns k).sent ++ [p] }) := by
  refine ⟨inv.wired.frame .., inv.counted.setConn ?_ ⟨rfl, rfl⟩ ?_ ?_, inv.polled.setConn ?_ ?_⟩
  · exact fun texts hacc => hacc.send p
  · exact fun hboth => absurd hboth.1 hlive
  · intro q hq
    rcases List.mem_append.mp hq with hq | hq
    · exact inv.counted.requests k q hq
    · obtain rfl := List.mem_singleton.mp hq
      exact hrequest
  · rintro (hunread | hhung)
    · refine .inl fun hnil => hunread ?_
      simp only [Connection.unread, bytes_append, List.drop_append] at hnil
      exact (List.append_eq_nil_iff.mp hnil).1
    · exact absurd hhung hlive
  · simp

/-- A switch closes its end of the connection. -/
theorem Inv.hangUp (inv : Inv h) (reset : Reset) :
    Inv (h.setConn k { h.conns k with hungUp := true, reset := reset }) := by
  refine ⟨inv.wired.frame .., inv.counted.setConn ?_ ⟨rfl, rfl⟩ ?_ (inv.counted.requests k),
    inv.polled.setConn ?_ (Nat.le_refl _)⟩
  · exact fun texts hacc => hacc.hangUp reset
  · exact fun hboth => ⟨rfl, hboth.2⟩
  · exact fun _ => .inr rfl

theorem Inv.connect (inv : Inv h) : Inv
    { h with connected := h.connected + 1, backlog := h.backlog ++ [h.connected] } := by
  obtain ⟨w, counted, polled⟩ := inv
  refine ⟨⟨w.slot_of_fd, w.low, w.idToFd, ?_, w.distinct, w.closed_lt, w.socketIdx_pos,
    w.socketIdx_le, ?_, ?_⟩, counted.frame ..,
    ⟨polled.nodup, polled.ready, polled.due, polled.due_le, polled.due_waiting⟩⟩
  · intro k i hi
    obtain ⟨hpos, hlt, hk⟩ := w.slot_range k i hi
    exact ⟨hpos, hlt, Nat.lt_succ_of_lt hk⟩
  · intro k hk
    rcases List.mem_append.mp hk with hk | hk
    · exact ⟨(w.backlog k hk).1, Nat.lt_succ_of_lt (w.backlog k hk).2⟩
    · obtain rfl := List.mem_singleton.mp hk
      refine ⟨?_, Nat.lt_succ_self _⟩
      cases hslot : h.slotOf h.connected with
      | none => rfl
      | some i => exact absurd (w.slot_range _ i hslot).2.2 (Nat.lt_irrefl _)
  · refine List.nodup_append.mpr ⟨w.nodup, List.nodup_singleton _, ?_⟩
    rintro k hk _ hk' rfl
    obtain rfl := List.mem_singleton.mp hk'
    exact absurd (w.backlog _ hk).2 (Nat.lt_irrefl _)

end Environment

section Loop

variable {h h' : Host}

/-! ### The poll round -/

theorem mem_slots {i : ℤ} : i ∈ h.slots ↔ 1 ≤ i ∧ i ≤ h.ctrl.numSwitches := by
  unfold Host.slots
  rw [List.mem_map]
  constructor
  · rintro ⟨k, hk, rfl⟩
    rw [List.mem_range] at hk
    omega
  · intro hi
    refine ⟨(i - 1).toNat, ?_, ?_⟩
    · rw [List.mem_range]
      omega
    · omega

theorem Wired.slot_mem (w : Wired h) {k : ℕ} {i : ℤ} (hslot : h.slotOf k = some i) :
    i ∈ h.slots := by
  have hrange := w.slot_range k i hslot
  have hle := w.socketIdx_le
  rw [mem_slots]
  omega

theorem nodup_readySlots (h : Host) : h.readySlots.Nodup := by
  refine List.Nodup.filter _ (List.Nodup.map ?_ List.nodup_range)
  intro a b hab
  simpa using hab

/-- The data of an accepted connection are seen by its slot, until it is closed. -/
theorem unread_of_not_ready (w : Wired h) (counted : Counted h) {k : ℕ} {i : ℤ}
    (hslot : h.slotOf k = some i) (hready : ¬ h.ready i = true) : (h.conns k).unread = [] := by
  by_cases hopen : ∃ fd, h.fds fd = some k
  · obtain ⟨fd, hfd⟩ := hopen
    obtain ⟨i', hslot', hpfds, -⟩ := w.slot_of_fd fd k hfd
    obtain rfl : i = i' := Option.some.inj (hslot.symm.trans hslot')
    by_contra hne
    exact hready (ready_iff.mpr ⟨fd, k, hpfds, hfd, .inl hne⟩)
  · exact (counted.ended k i hslot fun fd hfd => hopen ⟨fd, hfd⟩).2

theorem Inv.poll (inv : Inv h) : Inv h.poll := by
  obtain ⟨w, counted, polled⟩ := inv
  refine ⟨w.frame .., counted.frame .., ⟨?_, ?_, ?_, ?_, ?_⟩⟩
  · intro rest accepting hround
    obtain ⟨rfl, -⟩ := Prod.mk.inj (Option.some.inj hround)
    exact nodup_readySlots h
  · intro rest accepting hround i hi
    obtain ⟨rfl, -⟩ := Prod.mk.inj (Option.some.inj hround)
    exact List.mem_filter.mp hi
  · intro k i hslot hserved
    replace hslot : h.slotOf k = some i := hslot
    have hnot : ¬ h.ready i = true := fun hready =>
      hserved _ _ rfl (List.mem_filter.mpr ⟨w.slot_mem hslot, hready⟩)
    have hdue : h.poll.due k = (h.conns k).sent.length := by
      show (if (h.slotOf k).isSome then _ else _) = _
      rw [hslot]
      rfl
    rw [hdue, ← (counted.account k i hslot).length_eq (unread_of_not_ready w counted hslot hnot)]
    rfl
  · intro k
    show (if (h.slotOf k).isSome then _ else _) ≤ _
    split_ifs
    · exact Nat.le_refl _
    · exact polled.due_le k
  · intro k hnone
    show (if (h.slotOf k).isSome then _ else _) = _
    have hnone' : h.slotOf k = none := hnone
    rw [hnone']
    exact polled.due_waiting k hnone'

theorem Inv.endRound (inv : Inv h) {accepting : Bool} (hround : h.round = some ([], accepting)) :
    Inv { h with round := none } := by
  obtain ⟨w, counted, polled⟩ := inv
  refine ⟨w.frame .., counted.frame .., ⟨?_, ?_, ?_, polled.due_le, polled.due_waiting⟩⟩
  · exact fun _ _ hnone => absurd hnone (Option.some_ne_none _).symm
  · exact fun _ _ hnone => absurd hnone (Option.some_ne_none _).symm
  · intro k i hslot _
    refine polled.due k i hslot fun rest accepting' hsome => ?_
    obtain ⟨rfl, -⟩ := Prod.mk.inj (Option.some.inj (hround.symm.trans hsome))
    exact List.not_mem_nil

theorem accept_slotOf (h : Host) (fd k : ℕ) (rest : List ℕ) (k' : ℕ) :
    (k' = k ∧ (h.accept fd k rest).slotOf k' = some h.ctrl.socketIdx) ∨
      (k' ≠ k ∧ (h.accept fd k rest).slotOf k' = h.slotOf k') :=
  update_cases h.slotOf k k' _

theorem accept_fds (h : Host) (fd k : ℕ) (rest : List ℕ) (fd' : ℕ) :
    (fd' = fd ∧ (h.accept fd k rest).fds fd' = some k) ∨
      (fd' ≠ fd ∧ (h.accept fd k rest).fds fd' = h.fds fd') :=
  update_cases h.fds fd fd' _

/-- The slots of the other connections keep their descriptors. -/
theorem accept_pfds_of_lt (h : Host) (fd k : ℕ) (rest : List ℕ) {i : ℤ}
    (hi : i < h.ctrl.socketIdx) : (h.accept fd k rest).ctrl.pfds i = h.ctrl.pfds i :=
  Function.update_of_ne (Int.ne_of_lt hi) ..

theorem accept_pfds_self (h : Host) (fd k : ℕ) (rest : List ℕ) :
    (h.accept fd k rest).ctrl.pfds h.ctrl.socketIdx = some fd :=
  Function.update_self ..

theorem Wired.accept (w : Wired h) {fd k : ℕ} {rest : List ℕ} (hbacklog : h.backlog = k :: rest)
    (hfd : LowestUnused h.fds fd) (hle : h.ctrl.socketIdx ≤ h.ctrl.numSwitches) :
    Wired (h.accept fd k rest) := by
  have hnodup : k ∉ rest ∧ rest.Nodup := by
    have hall := w.nodup
    rw [hbacklog] at hall
    exact List.nodup_cons.mp hall
  have hk := w.backlog k (hbacklog ▸ List.mem_cons_self)
  have hslot_ne : ∀ {k' i}, h.slotOf k' = some i → k' ≠ k := by
    rintro k' i hslot rfl
    rw [hk.1] at hslot
    exact Option.some_ne_none _ hslot.symm
  have hnew := accept_pfds_self h fd k rest
  have hpos := w.socketIdx_pos
  refine ⟨?_, ?_, ?_, ?_, ?_, ?_, ?_, ?_, ?_, hnodup.2⟩
  · intro fd' k' hfd'
    rcases accept_fds h fd k rest fd' with ⟨rfl, heq⟩ | ⟨-, heq⟩
    · obtain rfl : k = k' := Option.some.inj (heq.symm.trans hfd')
      refine ⟨h.ctrl.socketIdx, Function.update_self .., hnew, fun hclosed => ?_⟩
      exact absurd (w.closed_lt _ hclosed) (Int.lt_irrefl _)
    · rw [heq] at hfd'
      obtain ⟨i, hslot, hpfds, hopen⟩ := w.slot_of_fd fd' k' hfd'
      refine ⟨i, (Function.update_of_ne (hslot_ne hslot) ..).trans hslot, ?_, hopen⟩
      rw [accept_pfds_of_lt h fd k rest (w.slot_range k' i hslot).2.1]
      exact hpfds
  · intro fd' k' hfd'
    rcases accept_fds h fd k rest fd' with ⟨rfl, -⟩ | ⟨-, heq⟩
    · exact hfd.1
    · exact w.low fd' k' (heq ▸ hfd')
  · intro i fd' hid
    obtain ⟨hlt, hor⟩ := w.idToFd i fd' hid
    rw [accept_pfds_of_lt h fd k rest hlt]
    exact ⟨Int.lt_trans hlt (Int.lt_succ _), hor⟩
  · intro k' i hslot
    show 1 ≤ i ∧ i < h.ctrl.socketIdx + 1 ∧ k' < h.connected
    rcases accept_slotOf h fd k rest k' with ⟨rfl, heq⟩ | ⟨-, heq⟩
    · obtain rfl : h.ctrl.socketIdx = i := Option.some.inj (heq.symm.trans hslot)
      exact ⟨hpos, Int.lt_succ _, hk.2⟩
    · rw [heq] at hslot
      obtain ⟨h1, h2, h3⟩ := w.slot_range k' i hslot
      exact ⟨h1, Int.lt_trans h2 (Int.lt_succ _), h3⟩
  · intro k₁ k₂ i h1 h2
    rcases accept_slotOf h fd k rest k₁ with ⟨hk₁, heq₁⟩ | ⟨-, heq₁⟩ <;>
      rcases accept_slotOf h fd k rest k₂ with ⟨hk₂, heq₂⟩ | ⟨-, heq₂⟩ <;>
      rw [heq₁] at h1 <;> rw [heq₂] at h2
    · exact hk₁.trans hk₂.symm
    · obtain rfl := Option.some.inj h1
      exact absurd (w.slot_range _ _ h2).2.1 (Int.lt_irrefl _)
    · obtain rfl := Option.some.inj h2
      exact absurd (w.slot_range _ _ h1).2.1 (Int.lt_irrefl _)
    · exact w.distinct _ _ _ h1 h2
  · exact fun i hclosed => Int.lt_trans (w.closed_lt i hclosed) (Int.lt_succ _)
  · show 1 ≤ h.ctrl.socketIdx + 1
    omega
  · show h.ctrl.socketIdx + 1 ≤ h.ctrl.numSwitches + 1
    omega
  · intro k' hk'
    have hmem : k' ∈ h.backlog := hbacklog ▸ List.mem_cons_of_mem _ hk'
    refine ⟨?_, (w.backlog k' hmem).2⟩
    rcases accept_slotOf h fd k rest k' with ⟨rfl, -⟩ | ⟨-, heq⟩
    · exact absurd hk' hnodup.1
    · rw [heq]
      exact (w.backlog k' hmem).1

theorem Inv.accept (inv : Inv h) {fd k : ℕ} {rest : List ℕ} {accepting : Bool}
    (hround : h.round = some ([], accepting)) (hbacklog : h.backlog = k :: rest)
    (hfd : LowestUnused h.fds fd) (hle : h.ctrl.socketIdx ≤ h.ctrl.numSwitches) :
    Inv (h.accept fd k rest) := by
  obtain ⟨w, counted, polled⟩ := inv
  have hk := (w.backlog k (hbacklog ▸ List.mem_cons_self)).1
  have hempty : handledIn h h.ctrl.socketIdx = [] :=
    counted.others _ fun k' hslot => absurd (w.slot_range k' _ hslot).2.1 (Int.lt_irrefl _)
  refine ⟨w.accept hbacklog hfd hle, ⟨counted.running, counted.errno, ?_, ?_, ?_, ?_,
    counted.table, counted.requests⟩, ⟨?_, ?_, ?_, polled.due_le, ?_⟩⟩
  · intro k' i hslot
    rcases accept_slotOf h fd k rest k' with ⟨rfl, heq⟩ | ⟨-, heq⟩
    · obtain rfl : h.ctrl.socketIdx = i := Option.some.inj (heq.symm.trans hslot)
      have hfresh := counted.waiting k' hk
      have haccount := Account.of_fresh hfresh.1 hfresh.2
      rw [← hempty] at haccount
      exact haccount
    · exact counted.account k' i (heq ▸ hslot)
  · intro i hnobody
    refine counted.others i fun k' hslot => hnobody k' ?_
    rcases accept_slotOf h fd k rest k' with ⟨rfl, -⟩ | ⟨-, heq⟩
    · rw [hk] at hslot
      exact absurd hslot.symm (Option.some_ne_none _)
    · rw [heq]
      exact hslot
  · intro k' hnone
    rcases accept_slotOf h fd k rest k' with ⟨rfl, heq⟩ | ⟨-, heq⟩
    · exact absurd (heq.symm.trans hnone) (Option.some_ne_none _)
    · exact counted.waiting k' (heq ▸ hnone)
  · intro k' i hslot hclosed
    rcases accept_slotOf h fd k rest k' with ⟨rfl, -⟩ | ⟨hne, heq⟩
    · exact absurd (Function.update_self ..) (hclosed fd)
    · refine counted.ended k' i (heq ▸ hslot) fun fd' hfd' => ?_
      rcases accept_fds h fd k rest fd' with ⟨rfl, -⟩ | ⟨-, heq'⟩
      · rw [hfd.2.1] at hfd'
        exact Option.some_ne_none _ hfd'.symm
      · exact hclosed fd' (heq'.trans hfd')
  · exact fun _ _ hnone => absurd hnone (Option.some_ne_none _).symm
  · exact fun _ _ hnone => absurd hnone (Option.some_ne_none _).symm
  · intro k' i hslot _
    rcases accept_slotOf h fd k rest k' with ⟨rfl, -⟩ | ⟨-, heq⟩
    · have hzero : (h.accept fd k' rest).due k' = 0 := polled.due_waiting k' hk
      rw [hzero]
      exact Nat.zero_le _
    · refine polled.due k' i (heq ▸ hslot) fun rest' accepting' hsome => ?_
      obtain ⟨rfl, -⟩ := Prod.mk.inj (Option.some.inj (hround.symm.trans hsome))
      exact List.not_mem_nil
  · intro k' hnone
    rcases accept_slotOf h fd k rest k' with ⟨rfl, heq⟩ | ⟨-, heq⟩
    · exact absurd (heq.symm.trans hnone) (Option.some_ne_none _)
    · exact polled.due_waiting k' (heq ▸ hnone)

/-! ### A ready slot -/

theorem handledIn_self {i : ℤ} {text : Text} (heq : h'.handled = h.handled ++ [(i, text)]) :
    handledIn h' i = handledIn h i ++ [text] := by
  simp [handledIn, heq, List.filter_append]

theorem handledIn_of_ne {i j : ℤ} {text : Text} (heq : h'.handled = h.handled ++ [(i, text)])
    (hj : j ≠ i) : handledIn h' j = handledIn h j := by
  simp [handledIn, heq, List.filter_append, hj.symm]

section Serve

variable {i : ℤ} {rest : List ℤ} {accepting : Bool} {fd k : ℕ}

/-- The next slot to be served is that of the connection behind its descriptor, when it
    does not share the descriptor. -/
theorem Wired.slot_eq (w : Wired h) (hfds : h.fds fd = some k)
    (halone : ∀ j ∈ h.slots, j ≠ i → h.ctrl.pfds j ≠ some fd) :
    h.slotOf k = some i ∧ i ∉ h.ctrl.closed := by
  obtain ⟨i', hslot, hpfds, hopen⟩ := w.slot_of_fd fd k hfds
  obtain rfl : i' = i := by
    by_contra hne
    exact halone i' (w.slot_mem hslot) hne hpfds
  exact ⟨hslot, hopen⟩

/-- The connections of the other ready slots. -/
theorem Polled.ready_rest (polled : Polled h) (w : Wired h)
    (hround : h.round = some (i :: rest, accepting)) (hpfds : h.ctrl.pfds i = some fd)
    (hfds : h.fds fd = some k) (halone : ∀ j ∈ h.slots, j ≠ i → h.ctrl.pfds j ≠ some fd) {j : ℤ}
    (hj : j ∈ rest) : ∃ g k', h.ctrl.pfds j = some g ∧ h.fds g = some k' ∧ g ≠ fd ∧ k' ≠ k ∧
      ((h.conns k').unread ≠ [] ∨ (h.conns k').hungUp = true) := by
  have hnodup := polled.nodup _ _ hround
  have hji : j ≠ i := by
    rintro rfl
    exact (List.nodup_cons.mp hnodup).1 hj
  obtain ⟨hslot, hready⟩ := polled.ready _ _ hround j (List.mem_cons_of_mem _ hj)
  obtain ⟨g, k', hg, hk', hcond⟩ := ready_iff.mp hready
  have hgfd : g ≠ fd := by
    rintro rfl
    exact halone j hslot hji hg
  refine ⟨g, k', hg, hk', hgfd, ?_, hcond⟩
  rintro rfl
  obtain ⟨i', hslot', hpfds', -⟩ := w.slot_of_fd g k' hk'
  obtain rfl : i = i' := Option.some.inj ((w.slot_eq hfds halone).1.symm.trans hslot')
  exact hgfd (Option.some.inj (hpfds'.symm.trans hpfds))

/-- The slots that have been served, before and after. -/
theorem Polled.due_of_served (polled : Polled h) (hround : h.round = some (i :: rest, accepting))
    {j : ℤ} {k' : ℕ} (hslot : h.slotOf k' = some j) (hji : j ≠ i) (hj : j ∉ rest) :
    h.due k' ≤ (handledIn h j).length := by
  refine polled.due k' j hslot fun rest' accepting' hsome => ?_
  obtain ⟨rfl, -⟩ := Prod.mk.inj (Option.some.inj (hround.symm.trans hsome))
  exact fun hmem => (List.mem_cons.mp hmem).elim hji hj

theorem Wired.handled {p : WirePacket} (w : Wired h) (hi : i < h.ctrl.socketIdx)
    (hh' : Handled h h' i k p) : Wired h' := by
  have hpfds := hh'.ctrl.pfds
  have hclosed := hh'.ctrl.closed
  have hsocket := hh'.ctrl.socketIdx
  refine ⟨?_, ?_, ?_, ?_, ?_, ?_, ?_, ?_, ?_, ?_⟩
  · rw [hh'.fds, hh'.slotOf, hpfds, hclosed]
    exact w.slot_of_fd
  · rw [hh'.fds]
    exact w.low
  · intro j g hg
    rw [hpfds, hsocket]
    rcases hh'.ctrl.idToFd j g hg with hold | ⟨rfl, hnew⟩
    · exact w.idToFd j g hold
    · exact ⟨hi, hnew⟩
  · rw [hh'.slotOf, hsocket, hh'.connected]
    exact w.slot_range
  · rw [hh'.slotOf]
    exact w.distinct
  · rw [hclosed, hsocket]
    exact w.closed_lt
  · rw [hsocket]
    exact w.socketIdx_pos
  · rw [hsocket, hh'.ctrl.numSwitches]
    exact w.socketIdx_le
  · rw [hh'.backlog, hh'.slotOf, hh'.connected]
    exact w.backlog
  · rw [hh'.backlog]
    exact w.nodup

/-- The end of the stream. -/
theorem Inv.close (inv : Inv h) (hround : h.round = some (i :: rest, accepting))
    (hpfds : h.ctrl.pfds i = some fd) (hfds : h.fds fd = some k)
    (halone : ∀ j ∈ h.slots, j ≠ i → h.ctrl.pfds j ≠ some fd) (hunread : (h.conns k).unread = [])
    (hhung : (h.conns k).hungUp = true) :
    Inv (({ h with round := some (rest, accepting) } : Host).close i fd) := by
  obtain ⟨w, counted, polled⟩ := inv
  obtain ⟨hslot, -⟩ := w.slot_eq hfds halone
  have hfds_cases : ∀ g k', Function.update h.fds fd none g = some k' →
      g ≠ fd ∧ h.fds g = some k' := by
    intro g k' hg
    by_cases hgfd : g = fd
    · subst hgfd
      rw [Function.update_self] at hg
      exact absurd hg.symm (Option.some_ne_none _)
    · rw [Function.update_of_ne hgfd] at hg
      exact ⟨hgfd, hg⟩
  refine ⟨⟨?_, ?_, w.idToFd, w.slot_range, w.distinct, ?_, w.socketIdx_pos, w.socketIdx_le,
    w.backlog, w.nodup⟩, ⟨counted.running, counted.errno, counted.account, counted.others,
    counted.waiting, ?_, counted.table, counted.requests⟩,
    ⟨?_, ?_, ?_, polled.due_le, polled.due_waiting⟩⟩
  · intro g k' hg
    obtain ⟨hgfd, hg⟩ := hfds_cases g k' hg
    obtain ⟨i', hslot', hpfds', hopen⟩ := w.slot_of_fd g k' hg
    refine ⟨i', hslot', hpfds', fun hclosed => ?_⟩
    rcases List.mem_append.mp hclosed with hclosed | hclosed
    · exact hopen hclosed
    · obtain rfl := List.mem_singleton.mp hclosed
      exact hgfd (Option.some.inj (hpfds'.symm.trans hpfds))
  · exact fun g k' hg => w.low g k' (hfds_cases g k' hg).2
  · intro j hj
    rcases List.mem_append.mp hj with hj | hj
    · exact w.closed_lt j hj
    · obtain rfl := List.mem_singleton.mp hj
      exact (w.slot_range k j hslot).2.1
  · intro k' j hslot' hclosed
    by_cases hk : k' = k
    · subst hk
      exact ⟨hhung, hunread⟩
    · refine counted.ended k' j hslot' fun g hg => ?_
      by_cases hgfd : g = fd
      · subst hgfd
        exact hk (Option.some.inj (hg.symm.trans hfds))
      · exact hclosed g ((Function.update_of_ne hgfd ..).trans hg)
  · intro rest' accepting' hsome
    obtain ⟨rfl, -⟩ := Prod.mk.inj (Option.some.inj hsome)
    exact (List.nodup_cons.mp (polled.nodup _ _ hround)).2
  · intro rest' accepting' hsome j hj
    obtain ⟨rfl, -⟩ := Prod.mk.inj (Option.some.inj hsome)
    obtain ⟨g, k', hg, hk', hgfd, -, hcond⟩ :=
      polled.ready_rest w hround hpfds hfds halone hj
    refine ⟨(polled.ready _ _ hround j (List.mem_cons_of_mem _ hj)).1, ?_⟩
    exact ready_iff.mpr ⟨g, k', hg, (Function.update_of_ne hgfd ..).trans hk', hcond⟩
  · intro k' j hslot' hserved
    have hj := hserved _ _ rfl
    by_cases hji : j = i
    · subst hji
      obtain rfl := w.distinct _ _ _ hslot hslot'
      have hlen := (counted.account k j hslot).length_eq hunread
      exact Nat.le_trans (polled.due_le k) (Nat.le_of_eq hlen.symm)
    · exact polled.due_of_served hround hslot' hji hj

/-- What has changed when the packet `p` of connection `k` was read in slot `i` and
    handled. -/
structure Took (h h' : Host) (i : ℤ) (k : ℕ) (p : WirePacket) : Prop where
  ctrl : Handler h.ctrl h'.ctrl i (if isOpen p.packet then 1 else 0)
  running : h'.running = h.running
  errno : h'.errno = h.errno
  fds : h'.fds = h.fds
  slotOf : h'.slotOf = h.slotOf
  due : h'.due = h.due
  handled : h'.handled = h.handled ++ [(i, p.packet.text)]
  conn : ∃ replies : List Packet, (replies.count .ACK = if isOpen p.packet then 1 else 0) ∧
    h'.conns k = { h.conns k with
      taken := (h.conns k).taken + p.packet.text.length
      answers := (h.conns k).answers ++ replies }
  conn_of_ne : ∀ k', k' ≠ k → h'.conns k' = h.conns k'

theorem took_of_handled {p : WirePacket} {round : Option (List ℤ × Bool)}
    (hh' : Handled (({ h with round := round } : Host).takeData k p.packet.text) h' i k p) :
    Took h h' i k p := by
  obtain ⟨replies, hreplies, hconns⟩ := hh'.conns
  refine ⟨hh'.ctrl, hh'.running, hh'.errno, hh'.fds, hh'.slotOf, hh'.due, hh'.handled,
    ⟨replies, hreplies, ?_⟩, fun k' hk' => ?_⟩
  · rw [hconns, Function.update_self]
    simp [Host.takeData, Host.setConn]
  · rw [hconns, Function.update_of_ne hk']
    exact Function.update_of_ne hk' ..

theorem Counted.read (counted : Counted h) (w : Wired h) (hslot : h.slotOf k = some i)
    (hfds : h.fds fd = some k) {p : WirePacket} (hlast : p ∈ (h.conns k).sent.getLast?)
    (hunread : (h.conns k).unread = p.packet.text) (took : Took h h' i k p) : Counted h' := by
  obtain ⟨replies, hreplies, hconn⟩ := took.conn
  refine ⟨took.running.trans counted.running, took.errno.trans counted.errno,
    ?_, ?_, ?_, ?_, ?_, ?_⟩
  · intro k' j hslot'
    rw [took.slotOf] at hslot'
    by_cases hk : k' = k
    · subst hk
      obtain rfl : i = j := Option.some.inj (hslot.symm.trans hslot')
      rw [hconn, handledIn_self took.handled]
      exact (counted.account k' i hslot).read hlast hunread hreplies
    · have hji : j ≠ i := by
        rintro rfl
        exact hk (w.distinct _ _ _ hslot' hslot)
      rw [took.conn_of_ne k' hk, handledIn_of_ne took.handled hji]
      exact counted.account k' j hslot'
  · intro j hnobody
    rw [took.slotOf] at hnobody
    have hji : j ≠ i := by
      rintro rfl
      exact hnobody k hslot
    rw [handledIn_of_ne took.handled hji]
    exact counted.others j hnobody
  · intro k' hnone
    rw [took.slotOf] at hnone
    have hk : k' ≠ k := by
      rintro rfl
      exact Option.some_ne_none _ (hslot.symm.trans hnone)
    rw [took.conn_of_ne k' hk]
    exact counted.waiting k' hnone
  · intro k' j hslot' hclosed
    rw [took.fds] at hclosed
    rw [took.slotOf] at hslot'
    have hk : k' ≠ k := by
      rintro rfl
      exact hclosed fd hfds
    rw [took.conn_of_ne k' hk]
    exact counted.ended k' j hslot' hclosed
  · rw [took.ctrl.table, counted.table, took.handled, List.countP_append, List.countP_singleton,
      isOpenText_text]
  · intro k'
    by_cases hk : k' = k
    · subst hk
      rw [hconn]
      exact counted.requests k'
    · rw [took.conn_of_ne k' hk]
      exact counted.requests k'

theorem Polled.read (polled : Polled h) (w : Wired h) (counted : Counted h)
    (hround : h.round = some (i :: rest, accepting)) (hpfds : h.ctrl.pfds i = some fd)
    (hfds : h.fds fd = some k) (halone : ∀ j ∈ h.slots, j ≠ i → h.ctrl.pfds j ≠ some fd)
    {p : WirePacket} (hlast : p ∈ (h.conns k).sent.getLast?)
    (hunread : (h.conns k).unread = p.packet.text) (took : Took h h' i k p)
    (hround' : h'.round = some (rest, accepting)) : Polled h' := by
  obtain ⟨replies, -, hconn⟩ := took.conn
  obtain ⟨hslot, -⟩ := w.slot_eq hfds halone
  refine ⟨?_, ?_, ?_, ?_, ?_⟩
  · intro rest' accepting' hsome
    obtain ⟨rfl, -⟩ := Prod.mk.inj (Option.some.inj (hround'.symm.trans hsome))
    exact (List.nodup_cons.mp (polled.nodup _ _ hround)).2
  · intro rest' accepting' hsome j hj
    obtain ⟨rfl, -⟩ := Prod.mk.inj (Option.some.inj (hround'.symm.trans hsome))
    obtain ⟨g, k', hg, hk', -, hne, hcond⟩ :=
      polled.ready_rest w hround hpfds hfds halone hj
    constructor
    · have hslot := (polled.ready _ _ hround j (List.mem_cons_of_mem _ hj)).1
      rw [mem_slots] at hslot ⊢
      rw [took.ctrl.numSwitches]
      exact hslot
    · refine ready_iff.mpr ⟨g, k', by rw [took.ctrl.pfds]; exact hg,
        by rw [took.fds]; exact hk', ?_⟩
      rw [took.conn_of_ne k' hne]
      exact hcond
  · intro k' j hslot' hserved
    have hj := hserved _ _ hround'
    rw [took.slotOf] at hslot'
    rw [took.due]
    by_cases hji : j = i
    · subst hji
      obtain rfl := w.distinct _ _ _ hslot hslot'
      have hlen := (counted.account k j hslot).unread_read hlast hunread
      rw [handledIn_self took.handled, List.length_append, List.length_singleton, hlen]
      exact polled.due_le k
    · rw [handledIn_of_ne took.handled hji]
      exact polled.due_of_served hround hslot' hji hj
  · intro k'
    rw [took.due]
    by_cases hk : k' = k
    · subst hk
      rw [hconn]
      exact polled.due_le k'
    · rw [took.conn_of_ne k' hk]
      exact polled.due_le k'
  · intro k' hnone
    rw [took.due]
    rw [took.slotOf] at hnone
    exact polled.due_waiting k' hnone

/-- The one packet that is unread has been read and handled. -/
theorem Inv.read (inv : Inv h) (hround : h.round = some (i :: rest, accepting))
    (hpfds : h.ctrl.pfds i = some fd) (hfds : h.fds fd = some k)
    (halone : ∀ j ∈ h.slots, j ≠ i → h.ctrl.pfds j ≠ some fd) {p : WirePacket}
    (hlast : p ∈ (h.conns k).sent.getLast?) (hunread : (h.conns k).unread = p.packet.text)
    (hh' : Handled (({ h with round := some (rest, accepting) } : Host).takeData k p.packet.text)
      h' i k p) : Inv h' := by
  obtain ⟨w, counted, polled⟩ := inv
  obtain ⟨hslot, -⟩ := w.slot_eq hfds halone
  have took : Took h h' i k p := took_of_handled hh'
  have hwired : Wired (({ h with round := some (rest, accepting) } : Host).takeData k
      p.packet.text) :=
    w.frame ..
  exact ⟨hwired.handled (w.slot_range k i hslot).2.1 hh',
    counted.read w hslot hfds hlast hunread took,
    polled.read w counted hround hpfds hfds halone hlast hunread took hh'.round⟩

/-- What `string(buffer)` yields when the buffer is clear behind the packet. -/
theorem bufferString_of_clear (beyond : Text) {buffer : Text} {p : WirePacket}
    (hclear : buffer.drop p.packet.text.length =
      List.replicate (MAX_BUFFER - p.packet.text.length) nul) :
    bufferString beyond (readInto buffer p.packet.text) = p.packet.text := by
  unfold readInto
  rw [hclear]
  exact bufferString_padded beyond p.packet.nul_not_mem_text p.length_text_lt

theorem takeData_reset (h : Host) (k : ℕ) (data : Text) :
    ((h.takeData k data).conns k).reset = (h.conns k).reset := by
  simp [Host.takeData, Host.setConn]

/-- A ready slot is served. -/
theorem Inv.serve (inv : Inv h) {beyond : Text} (hround : h.round = some (i :: rest, accepting))
    (hclear : Clear h (.serve beyond))
    (hserve : ({ h with round := some (rest, accepting) } : Host).serve beyond i = some h') :
    Inv h' := by
  obtain ⟨fd, k, hpfds, hfds, hcond⟩ :=
    ready_iff.mp (inv.polled.ready _ _ hround i List.mem_cons_self).2
  have hnext : nextRead h = some (i, fd, k) := by
    simp only [nextRead, hround, hpfds, hfds, Option.bind_some, Option.map_some]
  obtain ⟨halone, hreset, hone⟩ := hclear (i, fd, k) hnext
  obtain ⟨hslot, hopen⟩ := inv.wired.slot_eq hfds halone
  simp only [Host.serve, hpfds, hfds, hreset, reduceCtorEq, if_false] at hserve
  split_ifs at hserve with hunread hhung
  · obtain rfl := Option.some.inj hserve
    exact inv.close hround hpfds hfds halone hunread hhung
  · exact absurd (hcond.resolve_left fun hne => hne hunread) hhung
  · obtain ⟨p, hlast, htext, hbuffer⟩ := hone hunread
    have hdata : (h.conns k).unread.take MAX_BUFFER = p.packet.text := by
      rw [htext]
      exact List.take_of_length_le (Nat.le_of_lt p.length_text_lt)
    have hstring : bufferString beyond (({ h with round := some (rest, accepting) } :
        Host).takeData k p.packet.text).buffer = p.packet.text :=
      bufferString_of_clear beyond hbuffer
    have hrequest := inv.counted.requests k p (List.mem_of_getLast? hlast)
    have hstdin : h.fds stdinFd = none := by
      cases hzero : h.fds stdinFd with
      | none => rfl
      | some k' => exact absurd (inv.wired.low _ k' hzero) (by decide)
    rw [hdata, hstring] at hserve
    refine inv.read hround hpfds hfds halone hlast htext ?_
    exact handled_of_handle hrequest inv.counted.running inv.counted.errno hpfds hfds hopen
      ((takeData_reset _ _ _).trans hreset) hstdin (fun g hg => (inv.wired.idToFd i g hg).2) hserve

end Serve

end Loop

/-! ## Runs -/

theorem Inv.init (numSwitches : ℕ) : Inv (.init numSwitches) := by
  refine ⟨⟨?_, ?_, ?_, ?_, ?_, ?_, ?_, ?_, ?_, List.nodup_nil⟩,
    ⟨rfl, rfl, ?_, fun _ _ => rfl, fun _ _ => ⟨rfl, rfl⟩, ?_, rfl, ?_⟩,
    ⟨?_, ?_, ?_, fun _ => Nat.le_refl _, fun _ _ => rfl⟩⟩
  · exact fun _ _ hnone => absurd hnone (Option.some_ne_none _).symm
  · exact fun _ _ hnone => absurd hnone (Option.some_ne_none _).symm
  · exact fun _ _ hnone => absurd hnone (Option.some_ne_none _).symm
  · exact fun _ _ hnone => absurd hnone (Option.some_ne_none _).symm
  · exact fun _ _ _ hnone => absurd hnone (Option.some_ne_none _).symm
  · exact fun _ hmem => absurd hmem List.not_mem_nil
  · exact Int.le_refl 1
  · show (1 : ℤ) ≤ numSwitches + 1
    omega
  · exact fun _ hmem => absurd hmem List.not_mem_nil
  · exact fun _ _ hnone => absurd hnone (Option.some_ne_none _).symm
  · exact fun _ _ hnone => absurd hnone (Option.some_ne_none _).symm
  · exact fun _ _ hmem => absurd hmem List.not_mem_nil
  · exact fun _ _ hnone => absurd hnone (Option.some_ne_none _).symm
  · exact fun _ _ hnone => absurd hnone (Option.some_ne_none _).symm
  · exact fun _ _ hnone => absurd hnone (Option.some_ne_none _).symm

theorem Inv.step {h h' : Host} {a : Action} (inv : Inv h) (hclear : Clear h a)
    (hstep : step h a = some h') : Inv h' := by
  cases a with
  | connect =>
    simp only [Reconnect.step] at hstep
    obtain rfl := Option.some.inj hstep
    exact inv.connect
  | send k p =>
    simp only [Reconnect.step] at hstep
    split_ifs at hstep with hguard
    obtain rfl := Option.some.inj hstep
    exact inv.send hguard.2.1 hguard.2.2
  | hangUp k =>
    simp only [Reconnect.step] at hstep
    split_ifs at hstep
    obtain rfl := Option.some.inj hstep
    exact inv.hangUp (h.conns k).reset
  | reset k =>
    simp only [Reconnect.step] at hstep
    split_ifs at hstep
    obtain rfl := Option.some.inj hstep
    exact inv.hangUp .unreported
  | poll =>
    simp only [Reconnect.step] at hstep
    split_ifs at hstep
    obtain rfl := Option.some.inj hstep
    exact inv.poll
  | serve beyond =>
    simp only [Reconnect.step] at hstep
    split_ifs at hstep
    split at hstep
    · rename_i i rest accepting hround
      exact inv.serve hround hclear hstep
    · cases hstep
  | accept fd =>
    simp only [Reconnect.step] at hstep
    split_ifs at hstep with hguard
    split at hstep
    · cases hstep
    · rename_i k rest hbacklog
      obtain rfl := Option.some.inj hstep
      exact inv.accept hguard.2.1 hbacklog hguard.2.2.1 hguard.2.2.2
  | endRound =>
    simp only [Reconnect.step] at hstep
    split_ifs at hstep with hguard
    obtain rfl := Option.some.inj hstep
    exact inv.endRound hguard.2

theorem Inv.reconnected {h : Host} (inv : Inv h) : Reconnected h := by
  obtain ⟨w, counted, polled⟩ := inv
  refine ⟨counted.running, w.distinct, ?_, polled.due, counted.others,
    fun k hnone => (counted.waiting k hnone).2, counted.table⟩
  intro k i hslot
  obtain ⟨done, rest, haccount⟩ := counted.account k i hslot
  exact ⟨done, rest, haccount.sent, haccount.unread_eq, haccount.texts, haccount.acks⟩

/-- As long as no slot shares the connection that is read, it has not been reset, and the
    read finds one packet and a clear buffer behind it, every packet is handled once, in
    its slot. -/
theorem reconnected_of_run {numSwitches : ℕ} {tr : List (Host × Action)} {h : Host}
    (hrun : (system numSwitches).Run (.init numSwitches) tr h)
    (hclear : ∀ p ∈ tr, Clear p.1 p.2) : Reconnected h := by
  have hinv : Inv h := by
    induction hrun with
    | nil => exact .init numSwitches
    | snoc _ hstep ih =>
      exact (ih fun p hp => hclear p (List.mem_append_left _ hp)).step
        (hclear _ (List.mem_append_right _ List.mem_cons_self)) hstep
  exact hinv.reconnected

/-! ## A switch that comes back -/

def firstOpen : WirePacket := ⟨.OPEN 1 (-1) 2 100 110, by decide⟩

def secondOpen : WirePacket := ⟨.OPEN 2 1 (-1) 200 210, by decide⟩

/-- A switch connects and is accepted, sends its OPEN, and is answered. -/
def openOnce : List Action :=
  [.connect, .poll, .accept 4, .send 0 firstOpen, .poll, .serve [], .endRound]

/-- It hangs up; another switch connects, is given the same descriptor, and sends its
    OPEN, which both slots find ready. -/
def openAgain : List Action :=
  openOnce ++ [.hangUp 0, .poll, .serve [], .endRound, .connect, .poll, .accept 4,
    .send 1 secondOpen, .poll, .serve [], .serve []]

/-- The OPEN is handled for the closed slot, without ACK, then again from the buffer;
    `errno` is left over from the second read, and the controller exits with the ACK. -/
theorem reconnected_counterexample : ∃ tr h,
    (system 2).Run (.init 2) tr h ∧ h.slotOf 0 = some 1 ∧ h.slotOf 1 = some 2 ∧
      (h.conns 0).sent.length = 1 ∧ (h.conns 1).sent.length = 1 ∧ h.ctrl.closed = [1] ∧
      h.handled = [(1, firstOpen.packet.text), (1, secondOpen.packet.text),
        (2, secondOpen.packet.text)] ∧
      h.ctrl.switchInfoTable.length = 3 ∧ h.running = false ∧ ¬ Reconnected h := by
  have hrun : ((system 2).exec (.init 2) openAgain).map (fun h => decide
      (h.slotOf 0 = some 1 ∧ h.slotOf 1 = some 2 ∧ (h.conns 0).sent.length = 1 ∧
        (h.conns 1).sent.length = 1 ∧ h.ctrl.closed = [1] ∧
        h.handled = [(1, firstOpen.packet.text), (1, secondOpen.packet.text),
          (2, secondOpen.packet.text)] ∧
        h.ctrl.switchInfoTable.length = 3 ∧ h.running = false)) = some true := by
    decide +kernel
  obtain ⟨h, hexec, hslot, hslot', hsent, hsent', hclosed, hhandled, htable, hrunning⟩ :=
    System.exists_of_exec hrun
  refine ⟨_, h, .of_exec hexec, hslot, hslot', hsent, hsent', hclosed, hhandled, htable,
    hrunning, ?_⟩
  intro hreconnected
  obtain ⟨done, unread, hin⟩ := hreconnected.inSlot 0 1 hslot
  -- two strings for one packet
  have htwo : (handledIn h 1).length = 2 := by
    unfold handledIn
    rw [hhandled]
    rfl
  rw [hin.handled, List.length_map] at htwo
  rw [hin.sent, List.length_append] at hsent
  omega

/-! ## A switch that leaves -/

def firstQuery : WirePacket := ⟨.QUERY 101 207, by decide⟩

/-- Another switch connects. Its OPEN and a QUERY of the first one are served in one round;
    then the first one hangs up. -/
def openBoth : List Action :=
  openOnce ++ [.connect, .poll, .accept 5, .send 1 secondOpen, .send 0 firstQuery, .poll,
    .serve [], .serve [], .endRound, .hangUp 0, .poll, .serve [], .endRound]

theorem reconnected_openBoth : ∃ tr h, (system 2).Run (.init 2) tr h ∧
    (∀ p ∈ tr, Clear p.1 p.2) ∧ h.ctrl.closed = [1] ∧
      h.handled = [(1, firstOpen.packet.text), (1, firstQuery.packet.text),
        (2, secondOpen.packet.text)] ∧ Reconnected h := by
  have hrun : ((system 2).exec (.init 2) openBoth).map (fun h => decide
      (h.ctrl.closed = [1] ∧ h.handled = [(1, firstOpen.packet.text),
        (1, firstQuery.packet.text), (2, secondOpen.packet.text)])) = some true := by
    decide +kernel
  have hclear : ∀ p ∈ (system 2).trace (.init 2) openBoth, Clear p.1 p.2 := by
    decide +kernel
  obtain ⟨h, hexec, hclosed, hhandled⟩ := System.exists_of_exec hrun
  have hr := System.Run.of_exec hexec
  exact ⟨_, h, hr, hclear, hclosed, hhandled, reconnected_of_run hr hclear⟩

end Cmput379.Sdn.Reconnect
