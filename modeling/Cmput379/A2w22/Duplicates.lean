import Mathlib.Data.List.Nodup
import Cmput379.A2w22.Forwarding
import Cmput379.A2w22.SwitchLoop

/-!
# Rules for one range

A switch goes on with its traffic lines while an ASK is not answered, and appends the rule
of every ADD. So it asks again for an address whose answer is under way, and gets a second
rule for a range when it has asked for two of its addresses.

* `Books`: what was asked, what was answered, and what is in the table.
* `Fresh`: no line asks for what is under way, and no owner is answered twice.
* `noDuplicates_of_run`: then no range is installed twice, and no address asked twice.
-/

namespace Cmput379.A2w22

open Cmput379.Lib
open Cmput379.Sdn (nul)

variable {n : ℕ} {site : Site n}

/-! ## Texts -/

/-- The address of an ASK. -/
def askedIp (m : Text) : Option ℤ :=
  match fields m with
  | [name, _, ip] => if name = "ASK".toList then stoi ip else none
  | _ => none

/-- The range of the rule that an ADD installs. -/
def addedRange (m : Text) : Option IPs :=
  match fields m with
  | [name, _, ip] => if name = "ADD".toList then (stoi ip).map fun ip => ⟨ip, ip⟩ else none
  | [name, _, _, _, low, high] =>
    if name = "ADD".toList then do return ⟨← stoi low, ← stoi high⟩ else none
  | _ => none

@[simp] theorem askedIp_helloMessage (cfg : SwitchConfig) : askedIp (helloMessage cfg) = none := by
  rw [askedIp, fields_helloMessage]

@[simp] theorem askedIp_relayMessage (id : ℤ) : askedIp (relayMessage id) = none := by
  rw [askedIp, fields_relayMessage]

theorem askedIp_askMessage (id : ℤ) {ip : ℤ} (h : IsInt ip) :
    askedIp (askMessage id ip) = some ip := by
  rw [askedIp, fields_askMessage]
  exact stoi_intText_self h

@[simp] theorem addedRange_ackMessage : addedRange ackMessage = none := by
  rw [addedRange, fields_ackMessage]

theorem addedRange_dropMessage (id : ℤ) {ip : ℤ} (h : IsInt ip) :
    addedRange (dropMessage id ip) = some ⟨ip, ip⟩ := by
  rw [addedRange, fields_dropMessage]
  dsimp only
  rw [if_pos rfl, stoi_intText_self h]
  rfl

theorem addedRange_forwardMessage (id : ℤ) {sw : Switch} (h : sw.IsInts) :
    addedRange (forwardMessage id sw) = some sw.ipranges := by
  obtain ⟨-, -, hlow, hhigh⟩ := h
  rw [addedRange, fields_forwardMessage]
  dsimp only
  rw [if_pos rfl, stoi_intText_self hlow, stoi_intText_self hhigh]
  rfl

section FilterMap

variable {β : Type} {f : Text → Option β} {m : Text}

theorem filterMap_concat_none (hm : f m = none) (ms : List Text) :
    (ms ++ [m]).filterMap f = ms.filterMap f := by
  rw [List.filterMap_append, List.filterMap_cons_none hm, List.filterMap_nil, List.append_nil]

theorem filterMap_concat_some {b : β} (hm : f m = some b) (ms : List Text) :
    (ms ++ [m]).filterMap f = ms.filterMap f ++ [b] := by
  rw [List.filterMap_append, List.filterMap_cons_some hm, List.filterMap_nil]

end FilterMap

/-! ## What is under way -/

/-- The messages written that have not been passed on. -/
def underWay (c : Channel Char) : List Text := c.written.drop c.passed.length

/-- The address that the next line asks for, if it does. -/
def nextAsk (cfg : SwitchConfig) (s : SwitchState) : Option ℤ :=
  match s.lines with
  | [] => none
  | line :: _ =>
    match parse_traffic_rule line with
    | some (some rule) =>
      if rule.switchID = cfg.switchID ∧ ¬ cfg.ip_range.Contains rule.dest_ip ∧
          find_matching_rule s.forwardingTable rule.dest_ip = none then some rule.dest_ip
      else none
    | _ => none

/-- An ASK for `ip`, or an ADD that covers it, is between a switch and the controller. -/
def UnderWay (up down : Channel Char) (ip : ℤ) : Prop :=
  ip ∈ (underWay up).filterMap askedIp ∨
    ∃ r ∈ (underWay down).filterMap addedRange, r.Contains ip

instance (up down : Channel Char) (ip : ℤ) : Decidable (UnderWay up down ip) :=
  inferInstanceAs (Decidable (_ ∨ ∃ r ∈ _, _))

/-- From switch `k` to the controller. -/
def Net.up (site : Site n) (net : Net n) (k : Fin n) : Channel Char :=
  net.fifo (site.cfg k).switchID 0

/-- From the controller to switch `k`. -/
def Net.down (site : Site n) (net : Net n) (k : Fin n) : Channel Char :=
  net.fifo 0 (site.cfg k).switchID

/-- A line asks for no address that is under way; an ASK is not answered with an owner that
    the switch has been sent before. -/
def Fresh (site : Site n) (net : Net n) : Action n → Prop
  | .traffic k => ∀ ip ∈ nextAsk (site.cfg k) (net.sw k),
      ¬ UnderWay (net.up site k) (net.down site k) ip
  | .controllerRead k mem => ∀ ip ∈ askedIp (received mem (net.up site k).queue),
      ∀ sw ∈ (Controller.findOwner (intText ip) net.ctrl.switches).join,
        forwardMessage (site.cfg k).switchID sw ∉ (net.down site k).written
  | _ => True

instance (site : Site n) (net : Net n) (act : Action n) : Decidable (Fresh site net act) :=
  match act with
  | .traffic _ => inferInstanceAs (Decidable (∀ ip ∈ nextAsk _ _, ¬ _))
  | .controllerRead _ _ => inferInstanceAs (Decidable (∀ ip ∈ askedIp _, ∀ sw ∈ Option.join _, _))
  | .start _ => inferInstanceAs (Decidable True)
  | .switchRead _ _ _ => inferInstanceAs (Decidable True)

/-- No two rules from ADDs have the same range, and no address was asked for twice. -/
structure NoDuplicates (site : Site n) (net : Net n) (k : Fin n) : Prop where
  rules : ((net.sw k).forwardingTable.tail.map Ft.dest_range).Nodup
  asks : ((net.up site k).written.filterMap askedIp).Nodup

/-! ## The books -/

/-- What switch and controller have said to each other, and the table of the switch. -/
structure Books (cfg : SwitchConfig) (up down : Channel Char) (table : List Ft) : Prop where
  first : table.head?.map Ft.dest_range = some cfg.ip_range
  installed : table.tail.map Ft.dest_range = down.passed.filterMap addedRange
  ranges : (down.written.filterMap addedRange).Nodup
  asked : (up.written.filterMap askedIp).Nodup
  answered : ∀ ip ∈ up.passed.filterMap askedIp,
    ∃ r ∈ down.written.filterMap addedRange, r.Contains ip
  caused : ∀ r ∈ down.written.filterMap addedRange,
    ∃ ip ∈ up.passed.filterMap askedIp, r.Contains ip

namespace Books

variable {cfg : SwitchConfig} {up down : Channel Char} {table : List Ft} {m : Text}

/-- Only what is written and passed on matters, and the ranges in the table. -/
theorem congr {up' down' : Channel Char} {table' : List Ft} (h : Books cfg up down table)
    (hup : up'.written = up.written ∧ up'.passed = up.passed)
    (hdown : down'.written = down.written ∧ down'.passed = down.passed)
    (htable : table'.map Ft.dest_range = table.map Ft.dest_range) :
    Books cfg up' down' table' := by
  obtain ⟨first, installed, ranges, asked, answered, caused⟩ := h
  constructor
  · rw [← List.head?_map, htable, List.head?_map, first]
  · rw [List.map_tail, htable, ← List.map_tail, hdown.2, installed]
  · rw [hdown.1]
    exact ranges
  · rw [hup.1]
    exact asked
  · rw [hup.2, hdown.1]
    exact answered
  · rw [hup.2, hdown.1]
    exact caused

/-- The switch sends something else. -/
theorem sendUp (h : Books cfg up down table) (hm : askedIp m = none) :
    Books cfg (up.send nul m) down table := by
  obtain ⟨first, installed, ranges, asked, answered, caused⟩ := h
  refine ⟨first, installed, ranges, ?_, answered, caused⟩
  show ((up.written ++ [m]).filterMap askedIp).Nodup
  rw [filterMap_concat_none hm]
  exact asked

/-- The controller sends something else. -/
theorem sendDown (h : Books cfg up down table) (hm : addedRange m = none) :
    Books cfg up (down.send nul m) table := by
  have hwritten : (down.send nul m).written.filterMap addedRange =
      down.written.filterMap addedRange := filterMap_concat_none hm _
  obtain ⟨first, installed, ranges, asked, answered, caused⟩ := h
  constructor
  · exact first
  · exact installed
  · rw [hwritten]
    exact ranges
  · exact asked
  · rw [hwritten]
    exact answered
  · rw [hwritten]
    exact caused

/-- The controller reads something else. -/
theorem passUp (h : Books cfg up down table) (hm : askedIp m = none) :
    Books cfg (up.receive MAXBUF m) down table := by
  have hpassed : (up.receive MAXBUF m).passed.filterMap askedIp =
      up.passed.filterMap askedIp := filterMap_concat_none hm _
  obtain ⟨first, installed, ranges, asked, answered, caused⟩ := h
  refine ⟨first, installed, ranges, asked, ?_, ?_⟩
  · rw [hpassed]
    exact answered
  · rw [hpassed]
    exact caused

/-- The switch reads what the controller has sent. -/
theorem passDown {table' : List Ft} (h : Books cfg up down table)
    (htable : table'.map Ft.dest_range = table.map Ft.dest_range ++ (addedRange m).toList) :
    Books cfg up (down.receive MAXBUF m) table' := by
  obtain ⟨first, installed, ranges, asked, answered, caused⟩ := h
  have hne : table.map Ft.dest_range ≠ [] := by
    rw [← List.head?_map] at first
    intro hnil
    rw [hnil] at first
    cases first
  refine ⟨?_, ?_, ranges, asked, answered, caused⟩
  · rw [← List.head?_map, htable, List.head?_append, List.head?_map, first]
    rfl
  · show table'.tail.map Ft.dest_range = (down.passed ++ [m]).filterMap addedRange
    rw [List.map_tail, htable, List.tail_append_of_ne_nil hne, ← List.map_tail, installed,
      List.filterMap_append]
    congr 1

/-- The switch asks for an address that no rule covers and that is not under way. -/
theorem ask (h : Books cfg up down table) {ip : ℤ} (hm : askedIp m = some ip)
    (hfind : find_matching_rule table ip = none)
    (hup : up.passed ++ underWay up = up.written)
    (hdown : down.passed ++ underWay down = down.written) (hnot : ¬ UnderWay up down ip) :
    Books cfg (up.send nul m) down table := by
  have hnew : ip ∉ up.written.filterMap askedIp := by
    rw [← hup, List.filterMap_append, List.mem_append]
    rintro (hpassed | hasked)
    · obtain ⟨r, hr, hcontains⟩ := h.answered ip hpassed
      rw [← hdown, List.filterMap_append, List.mem_append] at hr
      rcases hr with hr | hr
      · -- the answer has been installed
        rw [← h.installed] at hr
        obtain ⟨rule, hrule, rfl⟩ := List.mem_map.mp hr
        have hnone := List.findIdx?_eq_none_iff.mp hfind rule (List.mem_of_mem_tail hrule)
        exact absurd hcontains (of_decide_eq_false hnone)
      · exact hnot (.inr ⟨r, hr, hcontains⟩)
    · exact hnot (.inl hasked)
  obtain ⟨first, installed, ranges, asked, answered, caused⟩ := h
  refine ⟨first, installed, ranges, ?_, answered, caused⟩
  show ((up.written ++ [m]).filterMap askedIp).Nodup
  rw [filterMap_concat_some hm]
  exact List.nodup_append'.mpr ⟨asked, List.nodup_singleton ip, by simpa using hnew⟩

/-- The ASK that the controller reads next is the only one for its address. -/
theorem not_passed (h : Books cfg up down table) {ip : ℤ} (hm : askedIp m = some ip)
    {ms : List Text} (hup : up.passed ++ m :: ms = up.written) :
    ip ∉ up.passed.filterMap askedIp := by
  have hasked := h.asked
  rw [← hup, List.filterMap_append, List.filterMap_cons_some hm] at hasked
  intro hpassed
  exact (List.disjoint_of_nodup_append hasked) hpassed List.mem_cons_self

/-- The controller answers an ASK with a range that it has not sent. -/
theorem answer (h : Books cfg up down table) {a : Text} {ip : ℤ} {r : IPs}
    (hm : askedIp m = some ip) (ha : addedRange a = some r) (hcontains : r.Contains ip)
    (hnew : r ∉ down.written.filterMap addedRange) :
    Books cfg (up.receive MAXBUF m) (down.send nul a) table := by
  have hpassed : (up.receive MAXBUF m).passed.filterMap askedIp =
      up.passed.filterMap askedIp ++ [ip] := filterMap_concat_some hm _
  have hwritten : (down.send nul a).written.filterMap addedRange =
      down.written.filterMap addedRange ++ [r] := filterMap_concat_some ha _
  obtain ⟨first, installed, ranges, asked, answered, caused⟩ := h
  refine ⟨first, installed, ?_, asked, ?_, ?_⟩
  · rw [hwritten]
    exact List.nodup_append'.mpr ⟨ranges, List.nodup_singleton r, by simpa using hnew⟩
  · rw [hpassed, hwritten]
    intro ip' hip'
    rcases List.mem_append.mp hip' with hip' | hip'
    · obtain ⟨r', hr', hcontains'⟩ := answered ip' hip'
      exact ⟨r', List.mem_append_left _ hr', hcontains'⟩
    · obtain rfl := List.mem_singleton.mp hip'
      exact ⟨r, List.mem_append_right _ List.mem_cons_self, hcontains⟩
  · rw [hpassed, hwritten]
    intro r' hr'
    rcases List.mem_append.mp hr' with hr' | hr'
    · obtain ⟨ip', hip', hcontains'⟩ := caused r' hr'
      exact ⟨ip', List.mem_append_left _ hip', hcontains'⟩
    · obtain rfl := List.mem_singleton.mp hr'
      exact ⟨ip, List.mem_append_right _ List.mem_cons_self, hcontains⟩

/-- A range of one address is new where the address is. -/
theorem drop_new (h : Books cfg up down table) {ip : ℤ}
    (hip : ip ∉ up.passed.filterMap askedIp) :
    (⟨ip, ip⟩ : IPs) ∉ down.written.filterMap addedRange := by
  intro hr
  obtain ⟨ip', hip', hlow, hhigh⟩ := h.caused _ hr
  obtain rfl : ip' = ip := Int.le_antisymm hhigh hlow
  exact hip hip'

end Books

/-! ## The FIFOs of one switch -/

section Fifos

variable {net : Net n} {k t : Fin n}

theorem fifo_setFifo (net : Net n) (a b x y : ℤ) (c : Channel Char) :
    (net.setFifo a b c).fifo x y = if x = a ∧ y = b then c else net.fifo x y := rfl

theorem up_send_switch (net : Net n) (k t : Fin n) (w : Sent) :
    (net.send (site.cfg k).switchID w).up site t =
      if t = k ∧ w.dest = 0 then (net.up site t).send nul w.message else net.up site t := by
  unfold Net.up Net.send
  rw [fifo_setFifo]
  by_cases htk : t = k
  · subst htk
    by_cases hdest : w.dest = 0
    · rw [if_pos ⟨rfl, hdest.symm⟩, if_pos ⟨rfl, hdest⟩, hdest]
    · rw [if_neg fun h => hdest h.2.symm, if_neg fun h => hdest h.2]
  · rw [if_neg fun h => htk (id_inj h.1), if_neg fun h => htk h.1]

theorem down_send_switch (net : Net n) (k t : Fin n) (w : Sent) :
    (net.send (site.cfg k).switchID w).down site t = net.down site t :=
  if_neg fun h => Int.ne_of_lt (id_pos site k) h.1

theorem up_send_controller (net : Net n) (w : Sent) (t : Fin n) :
    (net.send 0 w).up site t = net.up site t :=
  if_neg fun h => Int.ne_of_gt (id_pos site t) h.1

theorem down_send_controller (net : Net n) (k t : Fin n) (m : Text) :
    (net.send 0 ⟨(site.cfg k).switchID, m⟩).down site t =
      if t = k then (net.down site t).send nul m else net.down site t := by
  unfold Net.down Net.send
  rw [fifo_setFifo]
  by_cases htk : t = k
  · subst htk
    rw [if_pos ⟨rfl, rfl⟩, if_pos rfl]
  · rw [if_neg fun h => htk (id_inj h.2), if_neg htk]

theorem up_take_controller (net : Net n) (k t : Fin n) (m : Text) :
    (net.take (site.cfg k).switchID 0 m).up site t =
      if t = k then (net.up site t).receive MAXBUF m else net.up site t := by
  unfold Net.up Net.take
  rw [fifo_setFifo]
  by_cases htk : t = k
  · subst htk
    rw [if_pos ⟨rfl, rfl⟩, if_pos rfl]
  · rw [if_neg fun h => htk (id_inj h.1), if_neg htk]

theorem down_take_controller (net : Net n) (k t : Fin n) (m : Text) :
    (net.take (site.cfg k).switchID 0 m).down site t = net.down site t :=
  if_neg fun h => Int.ne_of_gt (id_pos site t) h.2

theorem up_take_switch (net : Net n) (a : ℤ) (k t : Fin n) (m : Text) :
    (net.take a (site.cfg k).switchID m).up site t = net.up site t :=
  if_neg fun h => Int.ne_of_lt (id_pos site k) h.2

theorem down_take_switch (net : Net n) (a : ℤ) (k t : Fin n) (m : Text) :
    (net.take a (site.cfg k).switchID m).down site t =
      if t = k ∧ a = 0 then (net.down site t).receive MAXBUF m else net.down site t := by
  unfold Net.down Net.take
  rw [fifo_setFifo]
  by_cases htk : t = k
  · subst htk
    by_cases ha : a = 0
    · rw [if_pos ⟨ha.symm, rfl⟩, if_pos ⟨rfl, ha⟩, ha]
    · rw [if_neg fun h => ha h.1.symm, if_neg fun h => ha h.2]
  · rw [if_neg fun h => htk (id_inj h.2), if_neg fun h => htk h.1]

end Fifos

/-! ## Steps -/

/-- The books of every switch. -/
def Kept (site : Site n) (net : Net n) : Prop :=
  ∀ k, Books (site.cfg k) (net.up site k) (net.down site k) (net.sw k).forwardingTable

section Step

variable {net net' : Net n}

theorem ranges_countPacket (table : List Ft) (i : ℕ) :
    (countPacket table i).map Ft.dest_range = table.map Ft.dest_range := by
  have hroutes := congrArg (List.map Prod.fst) (route_countPacket table i)
  rwa [List.map_map, List.map_map] at hroutes

/-- A switch sends messages other than ASKs. -/
theorem Kept.sendAll {k : Fin n} {writes : List Sent} :
    ∀ {net : Net n}, Kept site net → (∀ w ∈ writes, askedIp w.message = none) →
      Kept site (net.sendAll (site.cfg k).switchID writes) := by
  induction writes with
  | nil => exact fun h _ => h
  | cons w writes ih =>
    intro net h hw
    rw [List.forall_mem_cons] at hw
    apply ih _ hw.2
    intro t
    rw [up_send_switch, down_send_switch]
    split_ifs
    · exact (h t).sendUp hw.1
    · exact h t

/-- A switch counts packets. -/
theorem Kept.setSwitch (h : Kept site net) {k : Fin n} {s : SwitchState}
    (htable : s.forwardingTable.map Ft.dest_range =
      (net.sw k).forwardingTable.map Ft.dest_range) : Kept site (net.setSwitch k s) := by
  intro t
  by_cases htk : t = k
  · subst htk
    refine (h t).congr ⟨rfl, rfl⟩ ⟨rfl, rfl⟩ ?_
    show (Function.update net.sw t s t).forwardingTable.map Ft.dest_range = _
    rw [Function.update_self, htable]
  · refine (h t).congr ⟨rfl, rfl⟩ ⟨rfl, rfl⟩ ?_
    show (Function.update net.sw k s t).forwardingTable.map Ft.dest_range = _
    rw [Function.update_of_ne htk]

/-- In a table that begins with the switch's own range. -/
theorem find_eq_none {cfg : SwitchConfig} {table : List Ft} {ip : ℤ}
    (hfirst : table.head?.map Ft.dest_range = some cfg.ip_range)
    (hlocal : ¬ cfg.ip_range.Contains ip)
    (hfind : ∀ i, find_matching_rule table ip ≠ some (i + 1)) :
    find_matching_rule table ip = none := by
  cases table with
  | nil => cases hfirst
  | cons entry table =>
    have hrange : entry.dest_range = cfg.ip_range := Option.some.inj hfirst
    cases h : find_matching_rule (entry :: table) ip with
    | none => rfl
    | some i =>
      cases i with
      | succ i => exact absurd h (hfind i)
      | zero =>
        obtain ⟨hlt, hcontains, -⟩ := List.findIdx?_eq_some_iff_getElem.mp h
        rw [← hrange] at hlocal
        exact absurd (of_decide_eq_true hcontains) hlocal

theorem nextAsk_eq {cfg : SwitchConfig} {s : SwitchState} {line : Text} {lines : List Text}
    {rule : TrafficRule} (hlines : s.lines = line :: lines)
    (hown : SwitchLoop.Own cfg line rule) (hlocal : ¬ cfg.ip_range.Contains rule.dest_ip)
    (hfind : find_matching_rule s.forwardingTable rule.dest_ip = none) :
    nextAsk cfg s = some rule.dest_ip := by
  unfold nextAsk
  rw [hlines]
  dsimp only
  rw [hown.1]
  exact if_pos ⟨hown.2, hlocal, hfind⟩

/-- The FIFOs between a switch and the controller pass on what was written, in order. -/
def InOrder (c : Channel Char) : Prop := c.passed ++ underWay c = c.written

theorem Kept.traffic (h : Kept site net) {k : Fin n} {s : SwitchState} {writes : List Sent}
    (hup : InOrder (net.up site k)) (hdown : InOrder (net.down site k))
    (hturn : (net.sw k).turn (site.cfg k) = some (s, writes))
    (hfresh : ∀ ip ∈ nextAsk (site.cfg k) (net.sw k),
      ¬ UnderWay (net.up site k) (net.down site k) ip) :
    Kept site ((net.setSwitch k s).sendAll (site.cfg k).switchID writes) := by
  cases SwitchLoop.turnMove_of_turn hturn with
  | quiet lines hother => exact h.setSwitch rfl
  | deliver line lines rule hlines hown hlocal =>
    exact h.setSwitch (ranges_countPacket _ 0)
  | hit line lines rule i ft idx session hlines hown hlocal hfind hft hidx hsession =>
    apply Kept.sendAll _ (List.forall_mem_singleton.mpr (askedIp_relayMessage _))
    exact h.setSwitch (ranges_countPacket _ (i + 1))
  | ask line lines rule hlines hown hlocal hfind =>
    have hnone := find_eq_none (h k).first hlocal hfind
    have hnot := hfresh _ (nextAsk_eq hlines hown hlocal hnone)
    have hasked := askedIp_askMessage (site.cfg k).switchID
      (isInt_of_parse_traffic_rule hown.1)
    intro t
    show Books _ ((Net.send _ _ _).up site t) ((Net.send _ _ _).down site t) _
    rw [up_send_switch, down_send_switch]
    split_ifs with htk
    · obtain ⟨rfl, -⟩ := htk
      have hbooks := (h t).ask hasked hnone hup hdown hnot
      refine hbooks.congr ⟨rfl, rfl⟩ ⟨rfl, rfl⟩ ?_
      show (Function.update net.sw t _ t).forwardingTable.map Ft.dest_range = _
      rw [Function.update_self]
      rfl
    · apply h.setSwitch
      rfl

/-- What the controller has sent is installed. -/
theorem installed_of_down {k : Fin n} {m : Text} {s s' : SwitchState} {writes : List Sent}
    (hm : DownMessage site k m)
    (h : s.switchReceive (site.cfg k) (fields m) = some (s', writes)) :
    s'.forwardingTable.map Ft.dest_range =
      s.forwardingTable.map Ft.dest_range ++ (addedRange m).toList := by
  rcases receive_down hm h with
    ⟨rfl, htable⟩ | ⟨t, ip, -, -, rfl, htable⟩ | ⟨ip, hint, rfl, htable⟩
  · rw [htable, addedRange_ackMessage]
    exact (List.append_nil _).symm
  · rw [htable, addedRange_forwardMessage _ (isInts_entry site t), List.map_append]
    rfl
  · rw [htable, addedRange_dropMessage _ hint, List.map_append]
    rfl

theorem Kept.switchRead (h : Kept site net) {k : Fin n} {a : ℤ} {m : Text}
    {s : SwitchState} {writes : List Sent} (hpeer : a = 0 ∨ 0 < a)
    (hlegit : Legit site a (site.cfg k).switchID m)
    (hreceive : (net.sw k).switchReceive (site.cfg k) (fields m) = some (s, writes)) :
    Kept site (((net.take a (site.cfg k).switchID m).setSwitch k s).sendAll
      (site.cfg k).switchID writes) := by
  have hwrites : ∀ w ∈ writes, askedIp w.message = none := by
    intro w hw
    rcases writes_of_switchReceive hreceive with rfl | ⟨peer, rfl, -⟩
    · cases hw
    · obtain rfl := List.mem_singleton.mp hw
      exact askedIp_relayMessage _
  apply Kept.sendAll _ hwrites
  intro t
  show Books _ ((net.take a (site.cfg k).switchID m).up site t)
    ((net.take a (site.cfg k).switchID m).down site t)
    (Function.update net.sw k s t).forwardingTable
  rw [up_take_switch, down_take_switch]
  by_cases htk : t = k
  · subst htk
    rw [Function.update_self]
    rcases hpeer with rfl | hpos
    · rw [if_pos ⟨rfl, rfl⟩]
      exact (h t).passDown (installed_of_down (hlegit.down t rfl rfl) hreceive)
    · rw [if_neg fun hboth => Int.ne_of_gt hpos hboth.2]
      obtain ⟨k', rfl⟩ := hlegit.side hpos (id_pos site t)
      apply (h t).congr ⟨rfl, rfl⟩ ⟨rfl, rfl⟩
      rw [receive_relay hreceive, ranges_countPacket]
  · rw [if_neg fun hboth => htk hboth.1, Function.update_of_ne htk]
    exact h t

/-- Ranges do not overlap. -/
def DisjointRanges (site : Site n) : Prop :=
  ∀ {k t ip}, (site.cfg k).ip_range.Contains ip → (site.cfg t).ip_range.Contains ip → k = t

/-- The range of an owner is new to a switch that has not been sent the owner. -/
theorem Books.forward_new {up down : Channel Char} {table : List Ft} {k t : Fin n} {ip : ℤ}
    (h : Books (site.cfg k) up down table) (hdisjoint : DisjointRanges site)
    (hip : ip ∉ up.passed.filterMap askedIp) (howner : (site.cfg t).ip_range.Contains ip)
    (hdown : ∀ m ∈ down.written, DownMessage site k m)
    (hnot : forwardMessage (site.cfg k).switchID (site.entry t) ∉ down.written) :
    (site.cfg t).ip_range ∉ down.written.filterMap addedRange := by
  intro hr
  obtain ⟨m, hmem, hm⟩ := List.mem_filterMap.mp hr
  obtain ⟨ip', hip', hcause⟩ := h.caused _ hr
  cases hdown m hmem with
  | ack =>
    rw [addedRange_ackMessage] at hm
    cases hm
  | @forward t' ip'' hother howner' =>
    rw [addedRange_forwardMessage _ (isInts_entry site t')] at hm
    have hrange : (site.cfg t').ip_range = (site.cfg t).ip_range := Option.some.inj hm
    obtain rfl := hdisjoint howner (hrange ▸ howner)
    exact hnot hmem
  | @drop ip'' hint =>
    rw [addedRange_dropMessage _ hint] at hm
    -- the range is that of one address, which has been asked for
    rw [← Option.some.inj hm] at howner hcause
    obtain rfl : ip = ip' := by
      obtain ⟨hlow, hhigh⟩ := howner
      obtain ⟨hlow', hhigh'⟩ := hcause
      dsimp only at hlow hhigh hlow' hhigh'
      omega
    exact hip hip'

/-- The controller has read `m` from switch `k`, and sends what the books allow. -/
theorem Kept.reply (h : Kept site net) {k : Fin n} {m : Text} (ctrl : Controller)
    (texts : List Text)
    (hbooks : Books (site.cfg k) ((net.up site k).receive MAXBUF m)
      (texts.foldl (Channel.send nul) (net.down site k)) (net.sw k).forwardingTable) :
    Kept site (({ net.take (site.cfg k).switchID 0 m with ctrl := ctrl } : Net n).sendAll 0
      (texts.map fun text => ⟨(site.cfg k).switchID, text⟩)) := by
  have hsent : ∀ (texts : List Text) (net : Net n) (t : Fin n),
      (net.sendAll 0 (texts.map fun text => ⟨(site.cfg k).switchID, text⟩)).up site t =
        net.up site t ∧
      (net.sendAll 0 (texts.map fun text => ⟨(site.cfg k).switchID, text⟩)).down site t =
        if t = k then texts.foldl (Channel.send nul) (net.down site t) else net.down site t := by
    intro texts
    induction texts with
    | nil => exact fun net t => ⟨rfl, (ite_self _).symm⟩
    | cons text texts ih =>
      intro net t
      obtain ⟨hup, hdown⟩ := ih (net.send 0 ⟨(site.cfg k).switchID, text⟩) t
      rw [up_send_controller] at hup
      rw [down_send_controller] at hdown
      refine ⟨hup, hdown.trans ?_⟩
      split_ifs <;> rfl
  intro t
  obtain ⟨hup, hdown⟩ := hsent texts { net.take (site.cfg k).switchID 0 m with ctrl := ctrl } t
  rw [hup, hdown, sw_sendAll]
  show Books _ ((net.take (site.cfg k).switchID 0 m).up site t)
    (if t = k then texts.foldl (Channel.send nul) ((net.take (site.cfg k).switchID 0 m).down site t)
      else (net.take (site.cfg k).switchID 0 m).down site t) (net.sw t).forwardingTable
  rw [up_take_controller, down_take_controller]
  split_ifs with htk
  · subst htk
    exact hbooks
  · exact h t

/-- Messages other than ASKs get at most a HELLO_ACK. -/
theorem writes_of_other {k : Fin n} {m : Text} {c c' : Controller} {writes : List Sent}
    (hm : UpMessage site k m) (hask : ¬ IsKind "ASK" m)
    (hentries : ∀ sw ∈ c.switches, ∃ t, sw = site.entry t)
    (h : controllerReceive n c (fields m) = some (c', writes)) :
    ∃ texts : List Text, writes = texts.map (fun text => ⟨(site.cfg k).switchID, text⟩) ∧
      (texts = [] ∨ texts = [ackMessage]) := by
  obtain ⟨-, ⟨text, hdown, rfl, hkind⟩ | ⟨-, rfl⟩⟩ := receive_up hm hentries h
  · have hadd : ¬ IsKind "ADD" text := fun hadd => hask (hkind.mpr hadd)
    cases hdown with
    | ack => exact ⟨[ackMessage], rfl, .inr rfl⟩
    | forward => exact absurd (isKind (fields_forwardMessage _ _)) hadd
    | drop => exact absurd (isKind (fields_dropMessage _ _)) hadd
  · exact ⟨[], rfl, .inl rfl⟩

theorem Kept.controllerRead (h : Kept site net) (hdisjoint : DisjointRanges site)
    (htyped : Typed site net) {k : Fin n} {m : Text} (hm : UpMessage site k m)
    (hnext : ∃ ms, (net.up site k).passed ++ m :: ms = (net.up site k).written)
    {ctrl : Controller} {writes : List Sent}
    (hreceive : controllerReceive n net.ctrl (fields m) = some (ctrl, writes))
    (hfresh : ∀ ip ∈ askedIp m, ∀ sw,
      Controller.findOwner (intText ip) net.ctrl.switches = some (some sw) →
        forwardMessage (site.cfg k).switchID sw ∉ (net.down site k).written) :
    Kept site (({ net.take (site.cfg k).switchID 0 m with ctrl := ctrl } : Net n).sendAll 0
      writes) := by
  have hother : askedIp m = none → ¬ IsKind "ASK" m → Kept site
      (({ net.take (site.cfg k).switchID 0 m with ctrl := ctrl } : Net n).sendAll 0 writes) := by
    intro hnone hask
    obtain ⟨texts, rfl, rfl | rfl⟩ := writes_of_other hm hask htyped.entries hreceive
    · exact h.reply ctrl [] ((h k).passUp hnone)
    · exact h.reply ctrl [ackMessage] (((h k).passUp hnone).sendDown addedRange_ackMessage)
  cases hm with
  | hello =>
    exact hother (askedIp_helloMessage _) (not_isKind (fields_helloMessage _) (by decide))
  | relay =>
    exact hother (askedIp_relayMessage _) (not_isKind (fields_relayMessage _) (by decide))
  | @ask ip hint hlocal =>
    have hasked := askedIp_askMessage (site.cfg k).switchID hint
    obtain ⟨ms, hms⟩ := hnext
    have hip := (h k).not_passed hasked hms
    obtain ⟨-, owner, howner, rfl⟩ := receive_ask hreceive
    cases owner with
    | none =>
      have hbooks := (h k).answer hasked (addedRange_dropMessage (site.cfg k).switchID hint)
        ⟨le_rfl, le_rfl⟩ ((h k).drop_new hip)
      exact h.reply ctrl [_] hbooks
    | some sw =>
      have hcontains := contains_of_findOwner hint howner
      obtain ⟨t, rfl⟩ := htyped.entries sw (mem_of_findOwner howner sw rfl)
      have hdown : ∀ m ∈ (net.down site k).written, DownMessage site k m := fun m hm =>
        (htyped.legit _ _ m hm).down k rfl rfl
      have hnew := (h k).forward_new hdisjoint hip hcontains hdown (hfresh ip hasked _ howner)
      have hbooks := (h k).answer hasked
        (addedRange_forwardMessage (site.cfg k).switchID (isInts_entry site t)) hcontains hnew
      exact h.reply ctrl [_] hbooks

theorem inOrder_of_balance {ok : Prop} {len : ℕ} {c : Channel Char}
    (h : Balance nul len ok c) (hok : ok) : InOrder c := by
  obtain ⟨ms, -, -, hwritten, -⟩ := h
  unfold InOrder underWay
  rw [← hwritten hok, List.drop_left]

theorem kept_init (site : Site n) : Kept site (.init site) := by
  intro k
  constructor
  · rfl
  · rfl
  · exact List.nodup_nil
  · exact List.nodup_nil
  · intro ip hip
    cases hip
  · intro r hr
    cases hr

/-- A fresh step from a state in which every FIFO is in balance. -/
theorem Kept.step (h : Kept site net) (hdisjoint : DisjointRanges site) (htyped : Typed site net)
    {ok : ℤ → ℤ → Prop} (hbalanced : Balanced ok net) (hok : ∀ a b, ok a b) {act : Action n}
    (hfresh : Fresh site net act) (hstep : step site net act = some net') : Kept site net' := by
  cases act with
  | start k =>
    simp only [A2w22.step] at hstep
    split_ifs at hstep
    cases hstep
    have hstarted : Kept site
        { net.setSwitch k ((net.sw k).send_open_to_controller (site.cfg k)).1 with
          started := Function.update net.started k true } := h.setSwitch rfl
    apply hstarted.sendAll
    intro w hw
    obtain rfl := List.mem_singleton.mp hw
    exact askedIp_helloMessage _
  | traffic k =>
    simp only [A2w22.step] at hstep
    split_ifs at hstep
    obtain ⟨⟨s, writes⟩, hturn, rfl⟩ := Option.map_eq_some_iff.mp hstep
    exact h.traffic (inOrder_of_balance (hbalanced _ _) (hok _ _))
      (inOrder_of_balance (hbalanced _ _) (hok _ _)) hturn hfresh
  | switchRead k session mem =>
    simp only [A2w22.step] at hstep
    split at hstep
    · cases hstep
    · rename_i peer hsession
      split_ifs at hstep with hread
      obtain ⟨⟨s, writes⟩, hreceive, rfl⟩ := Option.map_eq_some_iff.mp hstep
      have hwritten := received_mem_written hbalanced (hok _ _) hread.2 mem
      exact h.switchRead (peer_cases (List.mem_of_getElem? hsession))
        (htyped.legit _ _ _ hwritten) hreceive
  | controllerRead k mem =>
    simp only [A2w22.step] at hstep
    split_ifs at hstep with hread
    obtain ⟨⟨ctrl, writes⟩, hreceive, rfl⟩ := Option.map_eq_some_iff.mp hstep
    have hwritten := received_mem_written hbalanced (hok _ _) hread mem
    obtain ⟨hnul, -⟩ := (hbalanced _ _).short_firstFrame hread (two_messages _)
    have hnext := (hbalanced _ _).next_written (hok _ _) hread (two_messages _)
    rw [← received_eq mem hnul] at hnext
    apply h.controllerRead hdisjoint htyped ((htyped.legit _ _ _ hwritten).up k rfl rfl) hnext
      hreceive
    intro ip hip sw howner
    exact hfresh ip hip sw (Option.mem_def.mpr (congrArg Option.join howner))

end Step

/-! ## Runs -/

section Run

variable {net : Net n} {tr : List (Net n × Action n)}

theorem kept_of_run (hdisjoint : DisjointRanges site)
    (h : (system site).Run (.init site) tr net) (hsent : AsSent site tr)
    (hfresh : ∀ p ∈ tr, Fresh site p.1 p.2) : Kept site net := by
  induction h with
  | nil => exact kept_init site
  | snoc hrun hstep ih =>
    rw [List.forall_mem_append, List.forall_mem_singleton] at hfresh
    have hprefix : AsSent site _ := fun p hp => hsent p (List.mem_append_left _ hp)
    exact (ih hprefix hfresh.1).step hdisjoint (typed_of_run hrun hprefix)
      (balance_of_run hrun).1 (fun a b p hp => hprefix p hp a b) hfresh.2 hstep

/-- As long as every step is fresh, no table has two rules from ADDs with one range, and no
    switch asks twice for one address. -/
theorem noDuplicates_of_run (hdisjoint : DisjointRanges site)
    (h : (system site).Run (.init site) tr net) (hsent : AsSent site tr)
    (hfresh : ∀ p ∈ tr, Fresh site p.1 p.2) (k : Fin n) : NoDuplicates site net k := by
  have hbooks := kept_of_run hdisjoint h hsent hfresh k
  have horder : InOrder (net.down site k) :=
    inOrder_of_balance ((balance_of_run h).1 _ _) fun p hp => hsent p hp _ _
  constructor
  · rw [hbooks.installed]
    have hranges := hbooks.ranges
    rw [← horder, List.filterMap_append] at hranges
    exact hranges.of_append_left
  · exact hbooks.asked

end Run

/-! ## Three switches -/

section ThreeSwitches

/-- Switch `k` takes its second line before it reads the answer to the first one. -/
def askTwice (k : Fin 3) : List (Action 3) :=
  (List.finRange 3).map .start ++ (List.finRange 3).map (.controllerRead · ⟨[], []⟩) ++
    [.switchRead k 0 ⟨[], []⟩, .traffic k, .controllerRead k ⟨[], []⟩, .traffic k,
      .switchRead k 0 ⟨[], []⟩, .controllerRead k ⟨[], []⟩, .switchRead k 0 ⟨[], []⟩]

/-- Every message is read as it was sent, and the range is installed twice. -/
theorem noDuplicates_counterexample : DisjointRanges (threeSwitches twoPackets) ∧ ∃ tr net,
    (system (threeSwitches twoPackets)).Run (.init (threeSwitches twoPackets)) tr net ∧
      AsSent (threeSwitches twoPackets) tr ∧
      (net.sw 0).forwardingTable.tail.map Ft.dest_range = [⟨300, 310⟩, ⟨300, 310⟩] ∧
      (net.up (threeSwitches twoPackets) 0).written.filterMap askedIp = [300, 300] ∧
      ¬ NoDuplicates (threeSwitches twoPackets) net 0 := by
  refine ⟨(line_threeSwitches twoPackets).disjoint, ?_⟩
  have hrun : ((system (threeSwitches twoPackets)).exec (.init (threeSwitches twoPackets))
      (askTwice 0)).map (fun net => decide (
        (net.sw 0).forwardingTable.tail.map Ft.dest_range = [⟨300, 310⟩, ⟨300, 310⟩] ∧
        (net.up (threeSwitches twoPackets) 0).written.filterMap askedIp = [300, 300])) =
      some true := by
    decide +kernel
  have hsent : AsSent (threeSwitches twoPackets) ((system (threeSwitches twoPackets)).trace
      (.init (threeSwitches twoPackets)) (askTwice 0)) := by
    decide +kernel
  obtain ⟨net, hexec, hrules, hasks⟩ := System.exists_of_exec hrun
  refine ⟨_, net, .of_exec hexec, hsent, hrules, hasks, ?_⟩
  intro hno
  have hnodup := hno.asks
  rw [hasks] at hnodup
  exact absurd hnodup (by decide)

/-- The second switch sends twice to the third one, and then to nobody. -/
def threeRemote : Fin 3 → List Text := fun k =>
  if k.val = 1 then ["psw2 200 300".toList, "psw2 200 305".toList, "psw2 200 400".toList] else []

/-- Each question is answered before the next line is taken; the second line hits the rule. -/
def askInTurn (k : Fin 3) : List (Action 3) :=
  greetAndAsk k ++
    [.traffic k, .traffic k, .controllerRead k ⟨[], []⟩, .switchRead k 0 ⟨[], []⟩]

theorem noDuplicates_of_askInTurn : ∃ tr net,
    (system (threeSwitches threeRemote)).Run (.init (threeSwitches threeRemote)) tr net ∧
      (net.sw 1).forwardingTable.tail =
        [⟨⟨0, MAXIP⟩, ⟨300, 310⟩, .FORWARD, 2, 2⟩, ⟨⟨0, MAXIP⟩, ⟨400, 400⟩, .DROP, 0, 1⟩] ∧
      (net.up (threeSwitches threeRemote) 1).written.filterMap askedIp = [300, 400] ∧
      NoDuplicates (threeSwitches threeRemote) net 1 := by
  have hrun : ((system (threeSwitches threeRemote)).exec (.init (threeSwitches threeRemote))
      (askInTurn 1)).map (fun net => decide ((net.sw 1).forwardingTable.tail =
        [⟨⟨0, MAXIP⟩, ⟨300, 310⟩, .FORWARD, 2, 2⟩, ⟨⟨0, MAXIP⟩, ⟨400, 400⟩, .DROP, 0, 1⟩] ∧
      (net.up (threeSwitches threeRemote) 1).written.filterMap askedIp = [300, 400])) =
        some true := by
    decide +kernel
  have hsent : AsSent (threeSwitches threeRemote) ((system (threeSwitches threeRemote)).trace
      (.init (threeSwitches threeRemote)) (askInTurn 1)) := by
    decide +kernel
  have hfresh : ∀ p ∈ (system (threeSwitches threeRemote)).trace
      (.init (threeSwitches threeRemote)) (askInTurn 1),
      Fresh (threeSwitches threeRemote) p.1 p.2 := by
    decide +kernel
  obtain ⟨net, hexec, htail, hasked⟩ := System.exists_of_exec hrun
  have hr := System.Run.of_exec hexec
  exact ⟨_, net, hr, htail, hasked,
    noDuplicates_of_run (line_threeSwitches threeRemote).disjoint hr hsent hfresh 1⟩

end ThreeSwitches

end Cmput379.A2w22
