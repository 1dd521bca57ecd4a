import Cmput379.Lib.Decimal
import Cmput379.Lib.Words
import Cmput379.A2w22.SwitchLoop

/-!
# The lines of a traffic file

`parse_traffic_rule` and the loop of `masterSwitch` on the lines that the shipped data
files are made of.

* `parse_traffic_rule_eq_none_iff`: the lines that end the process.
* `turn_eq_none_iff`: what keeps the loop from taking a line.
* `survives_iff`: a run gets through the file iff no line that it comes to is `Fatal`, or
  matches a rule for a port without a session.
-/

namespace Cmput379.A2w22.SwitchLoop

open Cmput379.Lib SwitchState

/-! ## Specification -/

/-- The name of switch `i`. -/
def psw (i : Text) : Text := 'p' :: 's' :: 'w' :: i

/-- `psw<i> <src> <dst>`. -/
def IsPacketLine (line i src dest : Text) : Prop :=
  words line = [psw i, src, dest] ∧ IsNumeral i ∧ IsNumeral src ∧ IsNumeral dest

/-- `psw<i> delay <ms>`. -/
def IsDelayLine (line i ms : Text) : Prop :=
  words line = [psw i, ['d', 'e', 'l', 'a', 'y'], ms] ∧ IsNumeral i ∧ IsNumeral ms

/-- The lines of a traffic file, with any blanks around the words. -/
inductive TrafficLine (line : Text) : Prop
  | empty (hwords : words line = [])
  | comment (t : Text) (rest : List Text) (hwords : words line = ('#' :: t) :: rest)
  | packet (i src dest : Text) (h : IsPacketLine line i src dest)
  | delay (i ms : Text) (h : IsDelayLine line i ms)

/-- A packet line for this switch. -/
def PacketFor (cfg : SwitchConfig) (line : Text) : Prop :=
  ∃ i src dest, IsPacketLine line i src dest ∧ value i = cfg.switchID

/-- The rule that the packet of an own line matches forwards to a port without a
    session: `switch_sessions[-1]`. -/
def NoSession (cfg : SwitchConfig) (s : SwitchState) (line : Text) : Prop :=
  ∃ rule i ft, Own cfg line rule ∧ ¬ cfg.ip_range.Contains rule.dest_ip ∧
    find_matching_rule s.forwardingTable rule.dest_ip = some (i + 1) ∧
    s.forwardingTable[i + 1]? = some ft ∧
    find_matching_session cfg.switch_sessions ft.action_value = none

/-- The states of a run, the last one included. -/
def states (tr : List (SwitchState × Action)) (s : SwitchState) : List SwitchState :=
  tr.map Prod.fst ++ [s]

/-- The turns that a run has taken. -/
def turns (tr : List (SwitchState × Action)) : ℕ := (tr.map Prod.snd).count .traffic

/-- Along a run: each turn takes the next line of the file; in every state the loop can take
    the next one, with no exception, no missing token and no missing session; and the table
    and the counters change for packet lines of this switch only. -/
structure Survives (cfg : SwitchConfig) (file : List Text) (tr : List (SwitchState × Action))
    (s : SwitchState) : Prop where
  lines : s.lines = file.drop (turns tr)
  taken : ∀ t ∈ states tr s, t.turn cfg ≠ none
  others : ∀ t ∈ states tr s, ∀ line ∈ t.lines.head?, ¬ PacketFor cfg line →
    ∀ r, t.turn cfg = some r →
      r.1.forwardingTable = t.forwardingTable ∧ r.1.switch_stats = t.switch_stats

/-- Not a comment, and with a blank in front, or with a delay, or with a number that
    does not fit an `int`. -/
def Fatal (line : Text) : Prop :=
  '#' ∉ line ∧
    ((∃ c ∈ line.head?, isspace c = true) ∨ (∃ i ms, IsDelayLine line i ms) ∨
      ∃ i src dest, IsPacketLine line i src dest ∧
        ¬ (IsInt (value i) ∧ IsInt (value src) ∧ IsInt (value dest)))

/-- The next line is not fatal, and its packet does not go to a port without a session. -/
def Clear (cfg : SwitchConfig) (s : SwitchState) : Prop :=
  ∀ line ∈ s.lines.head?, ¬ Fatal line ∧ ¬ NoSession cfg s line

/-! ## The parser -/

/-- A blank in front makes an empty first piece. -/
theorem wsSplit_cons_space {c : Char} (hc : isspace c = true) (line : Text) :
    wsSplit (c :: line) = [] :: words line := by
  unfold wsSplit words
  rw [List.splitOnP_cons_eq_if_modifyHead, if_pos hc]

theorem wsSplit_cons {c : Char} (hc : isspace c = false) (line : Text) :
    wsSplit (c :: line) = words (c :: line) := by
  obtain ⟨t, parts, hparts⟩ := List.exists_cons_of_ne_nil (List.splitOnP_ne_nil isspace line)
  unfold wsSplit words
  rw [List.splitOnP_cons_eq_if_modifyHead, if_neg (by simp [hc]), hparts, List.modifyHead_cons,
    List.filter_cons_of_pos (by simp)]

section Parse

variable {line i src dest ms : Text}

theorem parse_of_comment (h : '#' ∈ line) : parse_traffic_rule line = some none := by
  unfold parse_traffic_rule
  rw [if_neg (fun hno => hno.1 h)]

theorem parse_of_space (hhash : '#' ∉ line) (hspace : ∃ c ∈ line.head?, isspace c = true) :
    parse_traffic_rule line = none := by
  obtain ⟨c, hc, hspace⟩ := hspace
  cases line with
  | nil => cases hc
  | cons d line =>
    obtain rfl : d = c := Option.some.inj hc
    unfold parse_traffic_rule
    rw [if_pos ⟨hhash, List.cons_ne_nil _ _⟩, wsSplit_cons_space hspace]
    rfl

/-- Without a blank in front the pieces are the words. -/
theorem parse_of_words (hhash : '#' ∉ line) (hspace : ¬ ∃ c ∈ line.head?, isspace c = true)
    {token1 token2 : Text} (hwords : words line = [psw i, token1, token2]) (hi : IsNumeral i) :
    parse_traffic_rule line =
      if IsInt (value i) then
        (stoi token1).bind fun src_ip => (stoi token2).bind fun dest_ip =>
          some (some ⟨value i, src_ip, dest_ip⟩)
      else none := by
  cases line with
  | nil => cases hwords
  | cons c line =>
    have hc : isspace c = false := by
      by_contra hc
      exact hspace ⟨c, rfl, by simpa using hc⟩
    have hname : substr3 (psw i) = some i := rfl
    unfold parse_traffic_rule
    rw [if_pos ⟨hhash, List.cons_ne_nil _ _⟩, wsSplit_cons hc, hwords]
    simp only [List.getElem?_cons_zero, List.getElem?_cons_succ, Option.bind_some,
      Option.bind_eq_bind, hname, stoi_of_isNumeral hi]
    split_ifs
    · rfl
    · rfl

theorem parse_of_delay (h : IsDelayLine line i ms) (hhash : '#' ∉ line) :
    parse_traffic_rule line = none := by
  by_cases hspace : ∃ c ∈ line.head?, isspace c = true
  · exact parse_of_space hhash hspace
  · have hdelay : stoi ['d', 'e', 'l', 'a', 'y'] = none := by decide
    rw [parse_of_words hhash hspace h.1 h.2.1, hdelay]
    exact ite_self none

theorem parse_of_packet (h : IsPacketLine line i src dest) (hhash : '#' ∉ line)
    (hspace : ¬ ∃ c ∈ line.head?, isspace c = true) :
    parse_traffic_rule line =
      if IsInt (value i) ∧ IsInt (value src) ∧ IsInt (value dest) then
        some (some ⟨value i, value src, value dest⟩)
      else none := by
  obtain ⟨hwords, hi, hsrc, hdest⟩ := h
  rw [parse_of_words hhash hspace hwords hi, stoi_of_isNumeral hsrc, stoi_of_isNumeral hdest]
  by_cases h1 : IsInt (value i)
  · by_cases h2 : IsInt (value src)
    · by_cases h3 : IsInt (value dest)
      · simp [h1, h2, h3]
      · simp [h1, h2, h3]
    · simp [h1, h2]
  · simp [h1]

/-- A line without words and without a blank in front has no characters. -/
theorem eq_nil_of_words (hwords : words line = [])
    (hspace : ¬ ∃ c ∈ line.head?, isspace c = true) : line = [] := by
  cases line with
  | nil => rfl
  | cons c line =>
    rw [words_eq_pieces, pieces_eq_nil_iff] at hwords
    exact absurd ⟨c, rfl, hwords c List.mem_cons_self⟩ hspace

theorem mem_of_comment {t : Text} {rest : List Text} (h : words line = ('#' :: t) :: rest) :
    '#' ∈ line := by
  have hflat : '#' ∈ (words line).flatten := by simp [h]
  rw [words_eq_pieces, flatten_pieces] at hflat
  exact (List.mem_filter.mp hflat).1

theorem IsPacketLine.unique (h : IsPacketLine line i src dest) {i' src' dest' : Text}
    (h' : IsPacketLine line i' src' dest') : i = i' ∧ src = src' ∧ dest = dest' := by
  have hwords := h.1.symm.trans h'.1
  simpa [psw] using hwords

/-- The lines of a traffic file that end the process. -/
theorem parse_traffic_rule_eq_none_iff (h : TrafficLine line) :
    parse_traffic_rule line = none ↔ Fatal line := by
  by_cases hhash : '#' ∈ line
  · rw [parse_of_comment hhash]
    exact iff_of_false nofun fun hfatal => hfatal.1 hhash
  by_cases hspace : ∃ c ∈ line.head?, isspace c = true
  · exact iff_of_true (parse_of_space hhash hspace) ⟨hhash, .inl hspace⟩
  cases h with
  | empty hwords =>
    obtain rfl := eq_nil_of_words hwords hspace
    exact iff_of_false nofun (by simp [Fatal, IsDelayLine, IsPacketLine])
  | comment t rest hwords => exact absurd (mem_of_comment hwords) hhash
  | packet i src dest h =>
    rw [parse_of_packet h hhash hspace]
    by_cases hint : IsInt (value i) ∧ IsInt (value src) ∧ IsInt (value dest)
    · rw [if_pos hint]
      refine iff_of_false nofun ?_
      rintro ⟨-, hsp | ⟨i', ms, hd⟩ | ⟨i', src', dest', hp, hbad⟩⟩
      · exact hspace hsp
      · have hwords := h.1.symm.trans hd.1
        simp only [List.cons.injEq] at hwords
        have hsrc := hwords.2.1 ▸ h.2.2.1
        exact absurd (hsrc.2 'd' (by simp)) (by decide)
      · obtain ⟨rfl, rfl, rfl⟩ := h.unique hp
        exact hbad hint
    · rw [if_neg hint]
      exact iff_of_true rfl ⟨hhash, .inr (.inr ⟨i, src, dest, h, hint⟩)⟩
  | delay i ms h =>
    exact iff_of_true (parse_of_delay h hhash) ⟨hhash, .inr (.inl ⟨i, ms, h⟩)⟩

/-- What is parsed is a packet line, and the id is the number in its name. -/
theorem packetFor_of_own {cfg : SwitchConfig} {rule : TrafficRule} (h : TrafficLine line)
    (hown : Own cfg line rule) : PacketFor cfg line := by
  obtain ⟨hparse, hid⟩ := hown
  have hhash : '#' ∉ line := by
    intro hmem
    rw [parse_of_comment hmem] at hparse
    cases hparse
  have hspace : ¬ ∃ c ∈ line.head?, isspace c = true := by
    intro hspace
    rw [parse_of_space hhash hspace] at hparse
    cases hparse
  cases h with
  | empty hwords =>
    obtain rfl := eq_nil_of_words hwords hspace
    cases hparse
  | comment t rest hwords => exact absurd (mem_of_comment hwords) hhash
  | packet i src dest h =>
    rw [parse_of_packet h hhash hspace] at hparse
    split_ifs at hparse
    cases hparse
    exact ⟨i, src, dest, h, hid⟩
  | delay i ms h =>
    rw [parse_of_delay h hhash] at hparse
    cases hparse

end Parse

/-! ## The loop -/

section Turn

variable {cfg : SwitchConfig} {file : List Text} {s s' : SwitchState} {line : Text}
  {lines : List Text} {r : SwitchState × List Sent}

theorem turn_lines (h : s.turn cfg = some r) : r.1.lines = s.lines.tail := by
  unfold SwitchState.turn at h
  split at h
  · rename_i hlines
    cases h
    rw [hlines, List.tail_nil]
  · rename_i line lines hlines
    rw [hlines, List.tail_cons]
    obtain ⟨parsed, -, h⟩ := Option.bind_eq_some_iff.mp h
    dsimp only at h
    split at h
    · cases h
      rfl
    · split_ifs at h
      · cases h
        rfl
      · unfold SwitchState.admitted at h
        dsimp only at h
        split at h
        · obtain ⟨ft, -, h⟩ := Option.bind_eq_some_iff.mp h
          obtain ⟨idx, -, h⟩ := Option.bind_eq_some_iff.mp h
          obtain ⟨session, -, h⟩ := Option.bind_eq_some_iff.mp h
          cases h
          rfl
        · cases h
          rfl
      · cases h
        rfl

/-- A line that is not for this switch changes neither the table nor the counters. -/
theorem turn_other (hlines : s.lines = line :: lines) (hother : ∀ rule, ¬ Own cfg line rule)
    (h : s.turn cfg = some r) :
    r.1.forwardingTable = s.forwardingTable ∧ r.1.switch_stats = s.switch_stats := by
  cases turnMove_of_turn h with
  | quiet => exact ⟨rfl, rfl⟩
  | deliver line' lines' rule hlines' hown =>
    rw [hlines] at hlines'
    cases hlines'
    exact absurd hown (hother rule)
  | hit line' lines' rule i ft idx session hlines' hown =>
    rw [hlines] at hlines'
    cases hlines'
    exact absurd hown (hother rule)
  | ask line' lines' rule hlines' hown =>
    rw [hlines] at hlines'
    cases hlines'
    exact absurd hown (hother rule)

/-- A line that is parsed is taken, unless the rule it matches has no session. -/
theorem turn_eq_none_iff (hlines : s.lines = line :: lines) :
    s.turn cfg = none ↔ parse_traffic_rule line = none ∨ NoSession cfg s line := by
  constructor
  · intro h
    unfold SwitchState.turn at h
    rw [hlines] at h
    cases hparse : parse_traffic_rule line with
    | none => exact .inl rfl
    | some parsed =>
      simp only [hparse, Option.bind_eq_bind, Option.bind_some] at h
      cases parsed with
      | none => cases h
      | some rule =>
        dsimp only at h
        split_ifs at h with hboth hid
        unfold SwitchState.admitted at h
        dsimp only at h
        split at h
        · rename_i i hfind
          obtain ⟨hlt, -⟩ := List.findIdx?_eq_some_iff_getElem.mp hfind
          have hft := List.getElem?_eq_getElem hlt
          rw [hft, Option.bind_eq_bind, Option.bind_some] at h
          cases hsession :
              find_matching_session cfg.switch_sessions s.forwardingTable[i + 1].action_value with
          | none =>
            exact .inr ⟨rule, i, _, ⟨hparse, hid⟩, fun hlocal => hboth ⟨hid, hlocal⟩, hfind, hft,
              hsession⟩
          | some idx =>
            obtain ⟨hidx, -⟩ := List.findIdx?_eq_some_iff_getElem.mp hsession
            rw [hsession, Option.bind_eq_bind, Option.bind_some, List.getElem?_eq_getElem hidx] at h
            cases h
        · cases h
  · rintro (hparse | ⟨rule, i, ft, ⟨hparse, hid⟩, hlocal, hfind, hft, hsession⟩)
    · simp [SwitchState.turn, hlines, hparse]
    · simp [SwitchState.turn, SwitchState.admitted, hlines, hparse, hid, hlocal, hfind, hft,
        hsession]

theorem turn_of_nil (hlines : s.lines = []) : s.turn cfg = some (s, []) := by
  unfold SwitchState.turn
  rw [hlines]

/-- A turn takes one line, a message none. -/
theorem step_lines {a : Action} (h : step cfg s a = some s') :
    s'.lines = s.lines.drop ([a].count .traffic) := by
  cases a with
  | traffic =>
    obtain ⟨r, hr, rfl⟩ := Option.map_eq_some_iff.mp h
    rw [turn_lines hr]
    exact List.drop_one.symm
  | receive message =>
    change (if Incoming message then (s.switchReceive cfg message).map Prod.fst else none) =
      some s' at h
    split_ifs at h with hincoming
    obtain ⟨r, hr, rfl⟩ := Option.map_eq_some_iff.mp h
    cases receiveMove_of_switchReceive hincoming hr <;> rfl

end Turn

/-! ## Runs -/

section Runs

variable {cfg : SwitchConfig} {file : List Text} {tr : List (SwitchState × Action)}
  {s t : SwitchState}

theorem lines_of_run (h : (system cfg file).Run (init cfg file) tr s) :
    s.lines = file.drop (turns tr) := by
  induction h with
  | nil => rfl
  | snoc _ hstep ih =>
    unfold turns at ih ⊢
    rw [step_lines hstep, ih, List.drop_drop, List.map_append, List.count_append]
    rfl

/-- The next line of any state of a run is a line of the file. -/
theorem mem_file_of_states (h : (system cfg file).Run (init cfg file) tr s)
    (ht : t ∈ states tr s) {line : Text} (hline : line ∈ t.lines.head?) : line ∈ file := by
  have hdrop : ∃ n, t.lines = file.drop n := by
    rcases List.mem_append.mp ht with ht | ht
    · obtain ⟨p, hp, rfl⟩ := List.mem_map.mp ht
      obtain ⟨tr', -, hrun, -⟩ := h.of_mem hp
      exact ⟨_, lines_of_run hrun⟩
    · obtain rfl := List.mem_singleton.mp ht
      exact ⟨_, lines_of_run h⟩
  obtain ⟨n, hn⟩ := hdrop
  exact List.mem_of_mem_drop (hn ▸ List.mem_of_head? hline)

/-- The loop can take the next line iff the state is clear. -/
theorem turn_ne_none_iff (htraffic : ∀ line ∈ t.lines.head?, TrafficLine line) :
    t.turn cfg ≠ none ↔ Clear cfg t := by
  unfold Clear
  cases hlines : t.lines with
  | nil =>
    rw [turn_of_nil hlines]
    exact iff_of_true nofun nofun
  | cons line lines =>
    rw [hlines] at htraffic
    have hline := htraffic line rfl
    rw [ne_eq, turn_eq_none_iff hlines, parse_traffic_rule_eq_none_iff hline, not_or]
    simp

end Runs

/-- For every run, whatever messages arrive: the loop gets through the file as long as no
    line that it comes to is fatal or goes to a port without a session, and no longer. -/
theorem survives_iff (cfg : SwitchConfig) (file : List Text)
    (hfile : ∀ line ∈ file, TrafficLine line) {tr : List (SwitchState × Action)}
    {s : SwitchState} (h : (system cfg file).Run (init cfg file) tr s) :
    Survives cfg file tr s ↔ ∀ t ∈ states tr s, Clear cfg t := by
  have htraffic : ∀ t ∈ states tr s, ∀ line ∈ t.lines.head?, TrafficLine line :=
    fun t ht line hline => hfile line (mem_file_of_states h ht hline)
  constructor
  · intro hsurvives t ht
    exact (turn_ne_none_iff (htraffic t ht)).mp (hsurvives.taken t ht)
  · intro hclear
    refine ⟨lines_of_run h, fun t ht => (turn_ne_none_iff (htraffic t ht)).mpr (hclear t ht), ?_⟩
    intro t ht line hline hpacket r hturn
    obtain ⟨lines, hlines⟩ := List.head?_eq_some_iff.mp hline
    refine turn_other hlines (fun rule hown => hpacket ?_) hturn
    exact packetFor_of_own (htraffic t ht line hline) hown

/-! ## Lines of `ex3.dat` -/

def ex3 : List Text :=
  ["# a2w22 psw2 ex3.dat psw1 null 200-210".toList, "psw1 100 102".toList,
    "psw1 delay 5000".toList, "psw1 100 200".toList]

theorem trafficLine_ex3 : ∀ line ∈ ex3, TrafficLine line := by
  unfold ex3
  simp only [List.forall_mem_cons]
  refine ⟨.comment [] _ rfl, ?_, ?_, ?_, by simp⟩
  · exact .packet ['1'] ['1', '0', '0'] ['1', '0', '2'] ⟨rfl, by decide, by decide, by decide⟩
  · exact .delay ['1'] ['5', '0', '0', '0'] ⟨rfl, by decide, by decide⟩
  · exact .packet ['1'] ['1', '0', '0'] ['2', '0', '0'] ⟨rfl, by decide, by decide, by decide⟩

/-- The first two lines, before the third, at which `stoi` throws. -/
theorem survives_counterexample : ¬ ∀ cfg file tr s, (∀ line ∈ file, TrafficLine line) →
    (system cfg file).Run (init cfg file) tr s → Survives cfg file tr s := by
  intro h
  have hrun : ((system ex2Switch1 ex3).exec (init ex2Switch1 ex3) [.traffic, .traffic]).map
      (fun s => decide ((s.turn ex2Switch1).isNone)) = some true := by
    decide +kernel
  obtain ⟨s, hexec, hnone⟩ := System.exists_of_exec hrun
  have hsurvives := h ex2Switch1 ex3 _ s trafficLine_ex3 (System.Run.of_exec hexec)
  refine hsurvives.taken s ?_ (Option.isNone_iff_eq_none.mp hnone)
  exact List.mem_append_right _ (List.mem_singleton_self s)

/-- The rule that the ADD brings is for port 1, and switch 1 has no left neighbour. -/
example : ((system ex2Switch1 ["psw1 100 300".toList, "psw1 100 300".toList]).exec
    (init ex2Switch1 ["psw1 100 300".toList, "psw1 100 300".toList])
    [.traffic, .receive (["ADD", "1", "2", "-1", "300", "310"].map String.toList)]).map
      (fun s => (s.lines.length, (s.turn ex2Switch1).isNone)) = some (1, true) := by
  decide +kernel

/-! ## A run that gets through -/

def remoteFile : List Text :=
  ["# the second packet is asked for".toList, "psw1 100 102".toList, "psw1 100 200".toList,
    "psw2 200 100".toList, "psw1 100 205".toList]

theorem trafficLine_remoteFile : ∀ line ∈ remoteFile, TrafficLine line := by
  unfold remoteFile
  simp only [List.forall_mem_cons]
  refine ⟨.comment [] _ rfl, ?_, ?_, ?_, ?_, by simp⟩
  · exact .packet ['1'] ['1', '0', '0'] ['1', '0', '2'] ⟨rfl, by decide, by decide, by decide⟩
  · exact .packet ['1'] ['1', '0', '0'] ['2', '0', '0'] ⟨rfl, by decide, by decide, by decide⟩
  · exact .packet ['2'] ['2', '0', '0'] ['1', '0', '0'] ⟨rfl, by decide, by decide, by decide⟩
  · exact .packet ['1'] ['1', '0', '0'] ['2', '0', '5'] ⟨rfl, by decide, by decide, by decide⟩

/-- The ADD arrives in time for the last line. -/
def remoteRun : List Action :=
  [.traffic, .receive ["HELLO_ACK".toList, "1".toList], .traffic, .traffic,
    .receive (["ADD", "1", "1", "2", "200", "210"].map String.toList), .traffic,
    .receive ["RELAY".toList, "2".toList], .traffic]

theorem survives_remoteRun : ∃ tr s, (system ex2Switch1 remoteFile).Run
    (init ex2Switch1 remoteFile) tr s ∧ s.lines = [] ∧ Survives ex2Switch1 remoteFile tr s := by
  have hrun : ((system ex2Switch1 remoteFile).exec (init ex2Switch1 remoteFile) remoteRun).map
      (fun s => decide (s.lines = [] ∧ ∀ t ∈ states ((system ex2Switch1 remoteFile).trace
        (init ex2Switch1 remoteFile) remoteRun) s, (t.turn ex2Switch1).isSome)) = some true := by
    decide +kernel
  obtain ⟨s, hexec, hlines, hsome⟩ := System.exists_of_exec hrun
  have h := System.Run.of_exec hexec
  refine ⟨_, s, h, hlines, (survives_iff ex2Switch1 remoteFile trafficLine_remoteFile h).mpr ?_⟩
  intro t ht
  refine (turn_ne_none_iff fun line hline => ?_).mp (Option.isSome_iff_ne_none.mp (hsome t ht))
  exact trafficLine_remoteFile line (mem_file_of_states h ht hline)

end Cmput379.A2w22.SwitchLoop
