import Mathlib.Data.List.Count
import Cmput379.A3w22.SwitchLoop
import Cmput379.Lib.Run

/-!
# Whose line is admitted

Several switches are started on one traffic file, and each is to admit the packets of its
own lines. But line 208 declares an `id` that hides the one the switch was started with:
a switch admits the packet of every action line that it reads.

* `admits_iff`, `countP_admits`: what a switch admits.
* `ownLines_iff`: the lines are kept apart iff no switch reads another's action line.
* `ownLines_iff_counterexample`: the first line of `ex2.dat`.
-/

namespace Cmput379.A3w22

open Cmput379.Lib

/-! ## Switches on one file -/

/-- Switches with different ids, and the file they are started on. -/
structure Family (n : ℕ) where
  cfg : Fin n → SwitchConfig
  file : List Text
  id_inj : ∀ {k t}, (cfg k).id = (cfg t).id → k = t

namespace Family

variable {n : ℕ}

/-- A turn of a loop, or a packet from any descriptor. -/
inductive Action (n : ℕ)
  | turn (k : Fin n)
  | receive (k : Fin n) (packetString : Text) (memory : Memory) (garbage : FowardRule)

/-- The variables of each loop. -/
abbrev Net (n : ℕ) := Fin n → SwitchState

def init (F : Family n) : Net n := fun k => .init (F.cfg k) F.file

def step (F : Family n) (net : Net n) : Action n → Option (Net n)
  | .turn k => (net k).turn.map fun r => Function.update net k r.1
  | .receive k packetString memory garbage =>
    some (Function.update net k
      ((net k).handlePacket memory garbage (F.cfg k) packetString).1)

/-- The loops, with whatever they are sent. -/
def system (F : Family n) : System (Net n) (Action n) where
  init net := net = F.init
  step := F.step

/-! ## Lines -/

/-- The first word of the line is the name of switch `id`. -/
def Names (line : Text) (id : ℤ) : Prop :=
  (words line)[0]? = some ("psw".toList ++ intText id)

instance (line : Text) (id : ℤ) : Decidable (Names line id) :=
  inferInstanceAs (Decidable (_ = _))

/-- The line has a packet. -/
def IsAction (line : Text) : Prop :=
  ∃ id srcIp destIp, parseLine line = some (.action id srcIp destIp)

instance (line : Text) : Decidable (IsAction line) :=
  match h : parseLine line with
  | some (.action id srcIp destIp) => isTrue ⟨id, srcIp, destIp, h⟩
  | some .skip => isFalse fun ⟨_, _, _, h'⟩ => nomatch h.symm.trans h'
  | some (.delay _ _) => isFalse fun ⟨_, _, _, h'⟩ => nomatch h.symm.trans h'
  | none => isFalse fun ⟨_, _, _, h'⟩ => nomatch h.symm.trans h'

/-- The lines that a loop has read. -/
def position (F : Family n) (s : SwitchState) : ℕ := F.file.length - s.lines.length

/-- Something is admitted, or the packets of a rule are counted. -/
def Counts (s t : SwitchState) : Prop :=
  t.counts.admit_ ≠ s.counts.admit_ ∨
    ¬ s.fowardTable.map FowardRule.pktCount <+: t.fowardTable.map FowardRule.pktCount

/-- Switch `k` admits the packet of line `j` in the step. -/
def Admits (F : Family n) (p : Net n × Action n) (k : Fin n) (j : ℕ) : Prop :=
  ∃ net' ∈ F.step p.1 p.2, (net' k).counts.admit_ ≠ (p.1 k).counts.admit_ ∧
    F.position (p.1 k) = j

instance (F : Family n) (p : Net n × Action n) (k : Fin n) (j : ℕ) :
    Decidable (F.Admits p k j) :=
  inferInstanceAs (Decidable (∃ net' ∈ F.step p.1 p.2, _ ∧ _))

/-- In a run that has ended in `net`, the lines are kept apart. -/
structure OwnLines (F : Family n) (tr : List (Net n × Action n)) (net : Net n) : Prop where
  counted : ∀ p ∈ tr, ∀ net', F.step p.1 p.2 = some net' → ∀ k, Counts (p.1 k) (net' k) →
    ∃ line, p.2 = .turn k ∧ (p.1 k).nextLine = some line ∧ Names line (F.cfg k).id
  sent : ∀ p ∈ tr, ∀ k r, p.2 = .turn k → (p.1 k).turn = some r → r.2 ≠ [] →
    ∃ line, (p.1 k).nextLine = some line ∧ Names line (F.cfg k).id
  apart : ∀ p ∈ tr, ∀ q ∈ tr, ∀ k t j, F.Admits p k j → F.Admits q t j → k = t
  once : (∀ k, (net k).lines = []) → ∀ j line k, F.file[j]? = some line → IsAction line →
    Names line (F.cfg k).id → tr.countP (fun p => ∃ t, F.Admits p t j) = 1

/-- An action line that is read in the step names its reader. -/
def ReadsOwn (F : Family n) (net : Net n) : Action n → Prop
  | .turn k => ∀ line ∈ (net k).nextLine, IsAction line → Names line (F.cfg k).id
  | .receive .. => True

instance (F : Family n) (net : Net n) (act : Action n) : Decidable (F.ReadsOwn net act) :=
  match act with
  | .turn _ => inferInstanceAs (Decidable (∀ line ∈ SwitchState.nextLine _, _ → _))
  | .receive .. => inferInstanceAs (Decidable True)

theorem names_unique {line : Text} {id id' : ℤ} (h : Names line id) (h' : Names line id') :
    id = id' := by
  have hword := Option.some.inj (h.symm.trans h')
  exact intText_injective (List.append_cancel_left hword)

/-! ## Steps -/

section Step

variable {F : Family n} {net net' : Net n} {act : Action n} {k : Fin n} {s : SwitchState}

/-- What one switch does in a step. -/
inductive Move (k : Fin n) (s : SwitchState) : Action n → SwitchState → Prop
  | turn {r : SwitchState × Writes} (hturn : s.turn = some r) (h : s.TurnMove r) :
      Move k s (.turn k) r.1
  | receive {packetType packetString : Text} {memory : Memory} {garbage : FowardRule}
      {r : SwitchState × Writes} (h : s.ReceiveMove packetType r) :
      Move k s (.receive k packetString memory garbage) r.1
  | rest {act : Action n} (hrest : act ≠ .turn k) : Move k s act s

theorem move_of_step (h : F.step net act = some net') (k : Fin n) :
    Move k (net k) act (net' k) := by
  cases act with
  | turn t =>
    obtain ⟨r, hr, rfl⟩ := Option.map_eq_some_iff.mp h
    by_cases hkt : k = t
    · subst hkt
      rw [Function.update_self]
      exact .turn hr (SwitchState.turnMove_of_turn hr)
    · rw [Function.update_of_ne hkt]
      exact .rest fun heq => hkt (Action.turn.inj heq).symm
  | receive t packetString memory garbage =>
    cases h
    by_cases hkt : k = t
    · subst hkt
      rw [Function.update_self]
      exact .receive (SwitchState.receiveMove_of_handlePacket _ _ _ _ _)
    · rw [Function.update_of_ne hkt]
      exact .rest nofun

/-- A turn admits the packet of an action line, or changes and sends nothing. -/
theorem action_or_quiet {r : SwitchState × Writes} (h : s.TurnMove r) :
    (∃ line, s.nextLine = some line ∧ IsAction line ∧
      r.1.counts.admit_ = s.counts.admit_ + 1) ∨
    (∀ line, s.nextLine = some line → ¬ IsAction line) ∧ r.1.counts = s.counts ∧
      r.1.fowardTable = s.fowardTable ∧ r.2 = [] := by
  have hother : ∀ {line t}, s.nextLine = some line → parseLine line = some t →
      (∀ id srcIp destIp, t ≠ .action id srcIp destIp) →
      ∀ line', s.nextLine = some line' → ¬ IsAction line' := by
    rintro line t hline hparse ht line' hline' ⟨id, srcIp, destIp, hparse'⟩
    obtain rfl := Option.some.inj (hline.symm.trans hline')
    exact ht id srcIp destIp (Option.some.inj (hparse.symm.trans hparse'))
  cases h with
  | idle isOpen hline hopen =>
    refine .inr ⟨?_, rfl, rfl, rfl⟩
    intro line hline'
    rw [hline] at hline'
    cases hline'
  | skip line lines hline hlines hparse =>
    exact .inr ⟨hother hline hparse nofun, rfl, rfl, rfl⟩
  | delay line lines id ms hline hlines hparse =>
    exact .inr ⟨hother hline hparse nofun, rfl, rfl, rfl⟩
  | admit_ line lines id srcIp destIp _ hline hlines hparse hmove =>
    exact .inl ⟨line, hline, ⟨id, srcIp, destIp, hparse⟩, hmove.admit_eq⟩

/-- What is counted is on an action line. -/
theorem action_of_counts {s' : SwitchState} (h : Move k s act s') (hcounts : Counts s s') :
    ∃ line, act = .turn k ∧ s.nextLine = some line ∧ IsAction line := by
  cases h with
  | turn hturn hmove =>
    rcases action_or_quiet hmove with ⟨line, hline, haction, -⟩ | ⟨-, hquiet, htable, -⟩
    · exact ⟨line, rfl, hline, haction⟩
    · rcases hcounts with hadmit | hcount
      · rw [hquiet] at hadmit
        exact absurd rfl hadmit
      · rw [htable] at hcount
        exact absurd List.prefix_rfl hcount
  | receive hmove =>
    obtain ⟨hsame, htable⟩ := hmove.admits_nothing
    rcases hcounts with hne | hcount
    · exact absurd hsame hne
    · exact absurd (htable.map _) hcount
  | rest hrest =>
    rcases hcounts with hadmit | hcount
    · exact absurd rfl hadmit
    · exact absurd List.prefix_rfl hcount

/-- A switch admits what is on the action line that it reads. -/
theorem admits_iff (h : F.step net act = some net') {j : ℕ} : F.Admits (net, act) k j ↔
    act = .turn k ∧ (∃ line, (net k).nextLine = some line ∧ IsAction line) ∧
      F.position (net k) = j := by
  constructor
  · rintro ⟨net'', hmem, hadmit, hposition⟩
    obtain ⟨line, hact, hline, haction⟩ := action_of_counts (move_of_step hmem k) (.inl hadmit)
    exact ⟨hact, ⟨line, hline, haction⟩, hposition⟩
  · rintro ⟨rfl, ⟨line, hline, haction⟩, hposition⟩
    obtain ⟨r, hr, rfl⟩ := Option.map_eq_some_iff.mp h
    refine ⟨_, h, ?_, hposition⟩
    rw [Function.update_self]
    rcases action_or_quiet (SwitchState.turnMove_of_turn hr) with ⟨-, -, -, hmore⟩ | ⟨hno, -⟩
    · rw [hmore]
      exact Int.ne_of_gt (Int.lt_succ _)
    · exact absurd haction (hno line hline)

theorem lines_of_move {s' : SwitchState} (h : Move k s act s') :
    (∃ line, act = .turn k ∧ s.nextLine = some line ∧ s.lines = line :: s'.lines) ∨
      (act = .turn k → s.nextLine = none) ∧ s'.lines = s.lines := by
  cases h with
  | turn hturn hmove =>
    rcases hmove.lines_cases with ⟨line, hline, hlines⟩ | ⟨hline, hlines, -⟩
    · exact .inl ⟨line, rfl, hline, hlines⟩
    · exact .inr ⟨fun _ => hline, hlines⟩
  | receive hmove => exact .inr ⟨nofun, hmove.lines_eq⟩
  | rest hrest => exact .inr ⟨fun heq => absurd heq hrest, rfl⟩

end Step

/-! ## Runs -/

section Run

variable {F : Family n} {net : Net n} {tr : List (Net n × Action n)}

/-- What a switch has not read is the rest of the file. -/
theorem suffix_of_run (h : F.system.Run F.init tr net) (k : Fin n) :
    (net k).lines <:+ F.file := by
  induction h with
  | nil => exact List.suffix_rfl
  | snoc hrun hstep ih =>
    rcases lines_of_move (move_of_step hstep k) with ⟨line, -, -, hlines⟩ | ⟨-, hlines⟩
    · rw [hlines] at ih
      exact (List.suffix_cons _ _).trans ih
    · rw [hlines]
      exact ih

theorem line_of_nextLine (h : F.system.Run F.init tr net) {k : Fin n} {line : Text}
    (hline : (net k).nextLine = some line) :
    F.file[F.position (net k)]? = some line := by
  obtain ⟨-, -, lines, hlines⟩ := SwitchState.nextLine_eq_some.mp hline
  have hdrop := List.suffix_iff_eq_drop.mp (suffix_of_run h k)
  unfold position
  rw [← List.head?_drop, ← hdrop, hlines]
  rfl

/-- A switch admits the packet of an action line once, as soon as it has read the line. -/
theorem countP_admits (h : F.system.Run F.init tr net) {j : ℕ} {line : Text}
    (hline : F.file[j]? = some line) (haction : IsAction line) (k : Fin n) :
    tr.countP (fun p => F.Admits p k j) = if j < F.position (net k) then 1 else 0 := by
  induction h with
  | nil =>
    have hzero : F.position (F.init k) = 0 := Nat.sub_self _
    rw [hzero]
    rfl
  | @snoc tr net net' act hrun hstep ih =>
    rw [List.countP_append, List.countP_singleton, ih]
    rcases lines_of_move (move_of_step hstep k) with
      ⟨line', hact, hnext, hlines⟩ | ⟨hnot, hlines⟩
    · have hread := line_of_nextLine hrun hnext
      have hposition : F.position (net' k) = F.position (net k) + 1 := by
        have hlength := (suffix_of_run hrun k).length_le
        unfold position
        rw [hlines, List.length_cons] at hlength ⊢
        omega
      rw [hposition]
      by_cases hj : F.position (net k) = j
      · rw [hj, hline] at hread
        obtain rfl := Option.some.inj hread
        have hadmits : F.Admits (net, act) k j :=
          (admits_iff hstep).mpr ⟨hact, ⟨line, hnext, haction⟩, hj⟩
        have hbefore : ¬ j < F.position (net k) := by omega
        have hafter : j < F.position (net k) + 1 := by omega
        rw [decide_eq_true hadmits, if_neg hbefore, if_pos hafter]
        rfl
      · have hother : ¬ F.Admits (net, act) k j := fun h => hj ((admits_iff hstep).mp h).2.2
        rw [decide_eq_false hother]
        have hiff : j < F.position (net k) + 1 ↔ j < F.position (net k) := by omega
        rw [if_congr hiff rfl rfl]
        rfl
    · have hnone : ¬ F.Admits (net, act) k j := by
        intro hadmits
        obtain ⟨hact, ⟨line', hnext, -⟩, -⟩ := (admits_iff hstep).mp hadmits
        rw [hnot hact] at hnext
        cases hnext
      unfold position
      rw [decide_eq_false hnone, hlines]
      rfl

/-- Where a switch reads its own lines, it admits its own. -/
theorem names_of_admits (h : F.system.Run F.init tr net) {p : Net n × Action n} (hp : p ∈ tr)
    (hreads : F.ReadsOwn p.1 p.2) {k : Fin n} {j : ℕ} (hadmits : F.Admits p k j) :
    ∃ line, F.file[j]? = some line ∧ Names line (F.cfg k).id := by
  obtain ⟨tr', net', hrun, hstep⟩ := h.of_mem hp
  obtain ⟨hact, ⟨line, hnext, haction⟩, rfl⟩ := (admits_iff hstep).mp hadmits
  rw [hact] at hreads
  exact ⟨line, line_of_nextLine hrun hnext, hreads line hnext haction⟩

/-- The lines of a run are kept apart iff every action line that a switch reads names the
    switch. -/
theorem ownLines_iff (h : F.system.Run F.init tr net) :
    F.OwnLines tr net ↔ ∀ p ∈ tr, F.ReadsOwn p.1 p.2 := by
  constructor
  · rintro hown ⟨s, act⟩ hp
    obtain ⟨tr', net', -, hstep⟩ := h.of_mem hp
    cases act with
    | receive => trivial
    | turn k =>
      intro line hnext haction
      change F.step s (.turn k) = some net' at hstep
      have hadmits : F.Admits (s, .turn k) k (F.position (s k)) :=
        (admits_iff hstep).mpr ⟨rfl, ⟨line, hnext, haction⟩, rfl⟩
      obtain ⟨net'', hmem, hadmit, -⟩ := hadmits
      obtain ⟨line', -, hnext', hnames⟩ := hown.counted _ hp net'' hmem k (.inl hadmit)
      obtain rfl := Option.some.inj (hnext.symm.trans hnext')
      exact hnames
  · intro hreads
    constructor
    · rintro ⟨net, act⟩ hp net' hstep k hcounts
      obtain ⟨line, rfl, hnext, haction⟩ := action_of_counts (move_of_step hstep k) hcounts
      exact ⟨line, rfl, hnext, hreads _ hp line hnext haction⟩
    · rintro ⟨net, act⟩ hp k r rfl hturn hsends
      rcases action_or_quiet (SwitchState.turnMove_of_turn hturn) with
        ⟨line, hnext, haction, -⟩ | ⟨-, -, -, hquiet⟩
      · exact ⟨line, hnext, hreads _ hp line hnext haction⟩
      · exact absurd hquiet hsends
    · intro p hp q hq k t j hk ht
      obtain ⟨line, hline, hnames⟩ := names_of_admits h hp (hreads p hp) hk
      obtain ⟨line', hline', hnames'⟩ := names_of_admits h hq (hreads q hq) ht
      obtain rfl := Option.some.inj (hline.symm.trans hline')
      exact F.id_inj (names_unique hnames hnames')
    · intro hread j line k hline haction hnames
      have hposition : j < F.position (net k) := by
        unfold position
        rw [hread k, List.length_nil, Nat.sub_zero]
        exact (List.getElem?_eq_some_iff.mp hline).1
      have hone := countP_admits h hline haction k
      rw [if_pos hposition] at hone
      rw [← hone]
      apply List.countP_congr
      intro p hp
      rw [decide_eq_true_eq, decide_eq_true_eq]
      constructor
      · rintro ⟨t, ht⟩
        obtain ⟨line', hline', hnames'⟩ := names_of_admits h hp (hreads p hp) ht
        obtain rfl := Option.some.inj (hline.symm.trans hline')
        obtain rfl := F.id_inj (names_unique hnames hnames')
        exact ht
      · exact fun hk => ⟨k, hk⟩

end Run

/-! ## Two switches -/

section TwoSwitches

/-- The first two switches of `ex2.dat`, with a part of its lines. -/
def psw1AndPsw2 (file : List Text) : Family 2 where
  cfg k := if k.val = 0 then ⟨1, -1, 2, 100, 110⟩ else ⟨2, 1, -1, 200, 210⟩
  file := file
  id_inj := by decide

def ack (k : Fin 2) : Action 2 := .receive k helloack .zero .zero

def toItself : List Text := ["psw1 100 102".toList]

/-- Both switches admit the line of the first one, and the second one asks about it. -/
theorem ownLines_iff_counterexample : ∃ tr net,
    (psw1AndPsw2 toItself).system.Run (psw1AndPsw2 toItself).init tr net ∧
      (∀ k, (net k).lines = []) ∧
      tr.countP (fun p => ∃ t, (psw1AndPsw2 toItself).Admits p t 0) = 2 ∧
      (net 1).counts.admit_ = 1 ∧ (net 1).counts.ask = 1 ∧
      ¬ (psw1AndPsw2 toItself).OwnLines tr net := by
  have hrun : ((psw1AndPsw2 toItself).system.exec (psw1AndPsw2 toItself).init
      [ack 0, ack 1, .turn 0, .turn 1]).map (fun net => decide ((∀ k, (net k).lines = []) ∧
        (net 1).counts.admit_ = 1 ∧ (net 1).counts.ask = 1)) = some true := by
    decide +kernel
  have htwice : ((psw1AndPsw2 toItself).system.trace (psw1AndPsw2 toItself).init
      [ack 0, ack 1, .turn 0, .turn 1]).countP
        (fun p => ∃ t, (psw1AndPsw2 toItself).Admits p t 0) = 2 := by
    decide +kernel
  obtain ⟨net, hexec, hlines, hadmit, hask⟩ := System.exists_of_exec hrun
  refine ⟨_, net, .of_exec hexec, hlines, htwice, hadmit, hask, ?_⟩
  intro hown
  have honce := hown.once hlines 0 "psw1 100 102".toList 0 rfl (by decide +kernel)
    (by decide +kernel)
  omega

/-- The second switch has not read the file. -/
theorem ownLines_iff_firstOnly : ∃ tr net,
    (psw1AndPsw2 toItself).system.Run (psw1AndPsw2 toItself).init tr net ∧
      (net 0).counts.admit_ = 1 ∧ (psw1AndPsw2 toItself).OwnLines tr net := by
  have hrun : ((psw1AndPsw2 toItself).system.exec (psw1AndPsw2 toItself).init
      [ack 0, ack 1, .turn 0]).map (fun net => (net 0).counts.admit_) = some 1 := by
    decide +kernel
  have hreads : ∀ p ∈ (psw1AndPsw2 toItself).system.trace (psw1AndPsw2 toItself).init
      [ack 0, ack 1, .turn 0], (psw1AndPsw2 toItself).ReadsOwn p.1 p.2 := by
    decide +kernel
  obtain ⟨net, hexec, hadmit⟩ := Option.map_eq_some_iff.mp hrun
  have hr := System.Run.of_exec hexec
  exact ⟨_, net, hr, hadmit, (ownLines_iff hr).mpr hreads⟩

end TwoSwitches

end Family

end Cmput379.A3w22
