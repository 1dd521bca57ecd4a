import Mathlib.Data.List.Basic
import Cmput379.A3w22.SwitchLoop
import Cmput379.Lib.Run

/-!
# Getting to the end of the file

A switch, a master that answers its HELLO and each of its ASKs, and neighbours that send
RELAYs. The switch reads a line when it has the answers and `delay` is 0. Each answer
comes, if `poll` looks at the master's socket: `pfds[socketIndex].events` is never set, and
what it holds is left to chance. But `delay` is set by a delay line and by nothing else,
so after one that is not for 0 milliseconds no line is read.

* `Inv`, `inv_of_reachable`: what is owed, and where a delay comes from.
* `exists_finish`, `Fair.consumes`: without a delay, the file can be read, and is read.
* `goesOn_iff`: which files are.
* `goesOn_iff_counterexample`: the first lines of `ex3.dat`.
-/

namespace Cmput379.A3w22

open Cmput379.Lib

/-- What a switch is started on, whether `POLLIN` happens to be in
    `pfds[socketIndex].events` (line 113 sets only the descriptor), and how the master
    answers. -/
structure Service where
  cfg : SwitchConfig
  file : List Text
  polled : Bool
  answer : List (ℤ × ℤ) → Text
  wellFormed : ∀ line ∈ file, parseLine line ≠ none
  isAdd : ∀ asks, (readPkt (answer asks)).1 = "ADD".toList

namespace Service

/-- The variables of the loop, whether the HELLO has been answered, the ASKs that have been
    sent to the master, and how many of them have been answered. -/
structure State where
  sw : SwitchState
  greeted : Bool
  asks : List (ℤ × ℤ)
  answered : ℕ

/-- A turn of the loop, or a packet: the HELLO_ACK, the next ADD, or what a neighbour sends. -/
inductive Action
  | turn
  | ack (memory : Memory) (garbage : FowardRule)
  | add (memory : Memory) (garbage : FowardRule)
  | relay (packetString : Text) (memory : Memory) (garbage : FowardRule)

/-- The ASKs to the master. -/
def asksOf (writes : Writes) : List (ℤ × ℤ) :=
  writes.filterMap fun w =>
    match w with
    | (.master, .ASK srcIp destIp) => some (srcIp, destIp)
    | _ => none

variable (S : Service)

def init : State := ⟨.init S.cfg S.file, false, [], 0⟩

def step (st : State) : Action → Option State
  | .turn =>
    st.sw.turn.map fun r => { st with sw := r.1, asks := st.asks ++ asksOf r.2 }
  | .ack memory garbage =>
    if S.polled ∧ ¬ st.greeted then
      some { st with
        sw := (st.sw.handlePacket memory garbage S.cfg helloack).1
        greeted := true }
    else none
  | .add memory garbage =>
    if S.polled ∧ st.answered < st.asks.length then
      let packetString := S.answer (st.asks.take (st.answered + 1))
      some { st with
        sw := (st.sw.handlePacket memory garbage S.cfg packetString).1
        answered := st.answered + 1 }
    else none
  | .relay packetString memory garbage =>
    if (readPkt packetString).1 ∈ ["HELLO_ACK".toList, "ADD".toList] then none
    else some { st with sw := (st.sw.handlePacket memory garbage S.cfg packetString).1 }

def system : System State Action where
  init st := st = S.init
  step := S.step

/-! ## Getting on -/

/-- The line delays the switch, whichever it names. -/
def Delays (line : Text) : Prop := ∃ id ms, parseLine line = some (.delay id ms) ∧ ms ≠ 0

/-- There are unread lines, and none of them is ever read. -/
def Wedged (st : State) : Prop :=
  st.sw.lines ≠ [] ∧ ∀ st', S.system.Leads st st' → st'.sw.lines = st.sw.lines

/-- The loop turns again and again, and the answers come. -/
structure Fair (p : S.system.Path) : Prop where
  turns : ∀ i, ∃ j, i ≤ j ∧ p.act j = .turn
  greets : ∃ j, (p.state j).greeted
  answers : ∀ i, ∃ j, i ≤ j ∧ (p.state i).asks.length ≤ (p.state j).answered

/-- Whatever has happened, the lines can be read; and they are, if the answers come. -/
structure GoesOn : Prop where
  reads : ∀ st, S.system.Reachable st → ¬ S.Wedged st
  finishes : ∀ st, S.system.Reachable st → ∃ st', S.system.Leads st st' ∧ st'.sw.lines = []
  consumes : ∀ p : S.system.Path, S.Fair p → ∃ i, (p.state i).sw.lines = []

/-- Whatever has happened, the gate can open. -/
def Opens : Prop :=
  ∀ st, S.system.Reachable st → ∃ st', S.system.Leads st st' ∧ st'.sw.Gate

/-! ## Steps -/

/-- What a step can do. -/
inductive Move (st : State) : State → Prop
  | turn {r : SwitchState × Writes} (hr : st.sw.TurnMove r) :
      Move st { st with sw := r.1, asks := st.asks ++ asksOf r.2 }
  | ack {r : SwitchState × Writes} (hpolled : S.polled)
      (hr : st.sw.ReceiveMove "HELLO_ACK".toList r) :
      Move st { st with sw := r.1, greeted := true }
  | add {r : SwitchState × Writes} (hpolled : S.polled) (hlt : st.answered < st.asks.length)
      (hr : st.sw.ReceiveMove "ADD".toList r) :
      Move st { st with sw := r.1, answered := st.answered + 1 }
  | relay {packetType : Text} {r : SwitchState × Writes}
      (hother : packetType ∉ ["HELLO_ACK".toList, "ADD".toList])
      (hr : st.sw.ReceiveMove packetType r) : Move st { st with sw := r.1 }

theorem type_helloack : (readPkt helloack).1 = "HELLO_ACK".toList := by decide

theorem move_of_step {S : Service} {st st' : State} {act : Action}
    (h : S.step st act = some st') : S.Move st st' := by
  cases act with
  | turn =>
    obtain ⟨r, hr, rfl⟩ := Option.map_eq_some_iff.mp h
    exact .turn (SwitchState.turnMove_of_turn hr)
  | ack memory garbage =>
    simp only [Service.step] at h
    split_ifs at h with hguard
    cases h
    have hmove := SwitchState.receiveMove_of_handlePacket memory garbage S.cfg st.sw helloack
    rw [type_helloack] at hmove
    exact .ack hguard.1 hmove
  | add memory garbage =>
    simp only [Service.step] at h
    split_ifs at h with hguard
    cases h
    have hmove := SwitchState.receiveMove_of_handlePacket memory garbage S.cfg st.sw
      (S.answer (st.asks.take (st.answered + 1)))
    rw [S.isAdd] at hmove
    exact .add hguard.1 hguard.2 hmove
  | relay packetString memory garbage =>
    simp only [Service.step] at h
    split_ifs at h with hother
    cases h
    exact .relay hother (SwitchState.receiveMove_of_handlePacket _ _ _ _ _)

/-! ## What is owed -/

structure Inv (st : State) : Prop where
  toMaster : st.sw.fdid 0 = some .master
  isOpen : st.sw.lines ≠ [] → st.sw.isOpen
  greeted : st.greeted → st.sw.hello_ackReceived
  answered : st.answered ≤ st.asks.length
  owed : st.sw.addReceived = false → st.answered < st.asks.length
  suffix : st.sw.lines <:+ S.file
  delayed : st.sw.delay ≠ 0 → ∃ line, Delays line ∧ line :: st.sw.lines <:+ S.file

section Steps

variable {S} {st st' : State}

theorem inv_init : S.Inv S.init where
  toMaster := rfl
  isOpen _ := rfl
  greeted := nofun
  answered := le_rfl
  owed := nofun
  suffix := List.suffix_rfl
  delayed h := absurd rfl h

theorem asksOf_toMaster {s : SwitchState} (h : s.fdid 0 = some .master) (srcIp destIp : ℤ) :
    asksOf [(s.fdAt 0, .ASK srcIp destIp)] = [(srcIp, destIp)] := by
  unfold SwitchState.fdAt
  rw [h]
  rfl

theorem Inv.turn (h : S.Inv st) {r : SwitchState × Writes} (hr : st.sw.TurnMove r) :
    S.Inv { st with sw := r.1, asks := st.asks ++ asksOf r.2 } := by
  have hanswered : ∀ asks : List (ℤ × ℤ), st.answered ≤ (st.asks ++ asks).length := by
    intro asks
    rw [List.length_append]
    exact Nat.le_add_right_of_le h.answered
  have howed : ∀ asks : List (ℤ × ℤ), st.sw.addReceived = false →
      st.answered < (st.asks ++ asks).length := by
    intro asks hadd
    rw [List.length_append]
    exact Nat.lt_add_right _ (h.owed hadd)
  have hread : ∀ {line lines}, st.sw.nextLine = some line → st.sw.lines = line :: lines →
      line :: lines <:+ S.file ∧ (lines ≠ [] → st.sw.isOpen) ∧
        (st.sw.delay ≠ 0 → ∃ line, Delays line ∧ line :: lines <:+ S.file) := by
    intro line lines hline hlines
    obtain ⟨hgate, hopen, -⟩ := SwitchState.nextLine_eq_some.mp hline
    exact ⟨hlines ▸ h.suffix, fun _ => hopen, fun hne => absurd hgate.2.2 hne⟩
  cases hr with
  | idle isOpen hline hopen =>
    refine ⟨h.toMaster, ?_, h.greeted, hanswered _, howed _, h.suffix, h.delayed⟩
    intro hne
    rcases hopen with rfl | hnil
    · exact h.isOpen hne
    · exact absurd hnil hne
  | skip line lines hline hlines =>
    obtain ⟨hsuffix, hopen, hdelay⟩ := hread hline hlines
    exact ⟨h.toMaster, hopen, h.greeted, hanswered _, howed _,
      (List.suffix_cons _ _).trans hsuffix, hdelay⟩
  | delay line lines id ms hline hlines hparse =>
    obtain ⟨hsuffix, hopen, -⟩ := hread hline hlines
    refine ⟨h.toMaster, hopen, h.greeted, hanswered _, howed _,
      (List.suffix_cons _ _).trans hsuffix, ?_⟩
    exact fun hne => ⟨line, ⟨id, ms, hparse, hne⟩, hsuffix⟩
  | admit_ line lines id srcIp destIp _ hline hlines hparse hmove =>
    obtain ⟨hsuffix, hopen, hdelay⟩ := hread hline hlines
    have htail := (List.suffix_cons _ _).trans hsuffix
    cases hmove with
    | hit => exact ⟨h.toMaster, hopen, h.greeted, hanswered _, howed _, htail, hdelay⟩
    | relay k param hk fdid fd srcIp destIp hfdid =>
      exact ⟨hfdid 0 .master h.toMaster, hopen, h.greeted, hanswered _, howed _, htail, hdelay⟩
    | ask srcIp destIp =>
      refine ⟨h.toMaster, hopen, h.greeted, hanswered _, ?_, htail, hdelay⟩
      intro _
      have hasks := asksOf_toMaster (s := { st.sw with lines := lines }) h.toMaster srcIp destIp
      show st.answered < (st.asks ++ asksOf [(_, _)]).length
      rw [hasks, List.length_append]
      exact Nat.lt_succ_of_le h.answered

theorem Inv.receive (h : S.Inv st) {packetType : Text} {r : SwitchState × Writes}
    (hr : st.sw.ReceiveMove packetType r) {greeted : Bool} {answered : ℕ}
    (hgreeted : greeted → r.1.hello_ackReceived) (hanswered : answered ≤ st.asks.length)
    (howed : r.1.addReceived = false → answered < st.asks.length) :
    S.Inv { st with sw := r.1, greeted := greeted, answered := answered } where
  toMaster := hr.extends 0 .master h.toMaster
  isOpen := by
    show r.1.lines ≠ [] → r.1.isOpen
    rw [hr.lines_eq, hr.isOpen_eq]
    exact h.isOpen
  greeted := hgreeted
  answered := hanswered
  owed := howed
  suffix := by
    show r.1.lines <:+ S.file
    rw [hr.lines_eq]
    exact h.suffix
  delayed := by
    show r.1.delay ≠ 0 → ∃ line, Delays line ∧ line :: r.1.lines <:+ S.file
    rw [hr.delay_eq, hr.lines_eq]
    exact h.delayed

theorem Inv.step (h : S.Inv st) {act : Action} (hstep : S.step st act = some st') :
    S.Inv st' := by
  cases move_of_step hstep with
  | turn hr => exact h.turn hr
  | ack hpolled hr =>
    obtain ⟨hack, hadd⟩ := hr.of_ack
    exact h.receive hr (fun _ => hack) h.answered fun hnot => h.owed (hadd.symm.trans hnot)
  | add hpolled hlt hr =>
    obtain ⟨hadd, hack⟩ := hr.of_add
    refine h.receive hr (fun hgreeted => hack.trans (h.greeted hgreeted)) hlt fun hnot => ?_
    exact absurd (hadd.symm.trans hnot) nofun
  | relay hother hr =>
    obtain ⟨hack, hadd⟩ := hr.of_other hother
    exact h.receive hr (fun hgreeted => hack.trans (h.greeted hgreeted)) h.answered
      fun hnot => h.owed (hadd.symm.trans hnot)

theorem inv_of_reachable (h : S.system.Reachable st) : S.Inv st := by
  refine h.invariant ?_ ?_
  · rintro _ rfl
    exact inv_init
  · exact fun _ _ _ _ hst hstep => hst.step hstep

theorem Inv.leads (h : S.Inv st) (hleads : S.system.Leads st st') : S.Inv st' :=
  hleads.invariant (fun _ _ _ hst hstep => hst.step hstep) h

/-! ## Reading on -/

/-- The HELLO_ACK comes, if it has not come yet. -/
theorem exists_ack (hpolled : S.polled) (h : S.Inv st) : ∃ st', S.system.Leads st st' ∧
    st'.sw.hello_ackReceived ∧ st'.sw.delay = st.sw.delay ∧ st'.sw.lines = st.sw.lines := by
  by_cases hack : st.sw.hello_ackReceived
  · exact ⟨st, .refl st, hack, rfl, rfl⟩
  · have hgreeted : ¬ st.greeted := fun hgreeted => hack (h.greeted hgreeted)
    have hstep : S.system.step st (.ack .zero .zero) = some _ := if_pos ⟨hpolled, hgreeted⟩
    refine ⟨_, .of_step hstep, ?_⟩
    have hmove := SwitchState.receiveMove_of_handlePacket .zero .zero S.cfg st.sw helloack
    rw [type_helloack] at hmove
    exact ⟨hmove.of_ack.1, hmove.delay_eq, hmove.lines_eq⟩

/-- The ADD comes, if one is awaited. -/
theorem exists_add (hpolled : S.polled) (h : S.Inv st) :
    ∃ st', S.system.Leads st st' ∧ st'.sw.addReceived ∧
    st'.sw.hello_ackReceived = st.sw.hello_ackReceived ∧ st'.sw.delay = st.sw.delay ∧
    st'.sw.lines = st.sw.lines := by
  by_cases hadd : st.sw.addReceived
  · exact ⟨st, .refl st, hadd, rfl, rfl, rfl⟩
  · have hlt := h.owed (Bool.not_eq_true _ ▸ hadd)
    have hstep : S.system.step st (.add .zero .zero) = some _ := if_pos ⟨hpolled, hlt⟩
    refine ⟨_, .of_step hstep, ?_⟩
    have hmove := SwitchState.receiveMove_of_handlePacket .zero .zero S.cfg st.sw
      (S.answer (st.asks.take (st.answered + 1)))
    rw [S.isAdd] at hmove
    obtain ⟨hadded, hack⟩ := hmove.of_add
    exact ⟨hadded, hack, hmove.delay_eq, hmove.lines_eq⟩

theorem exists_gate (hpolled : S.polled) (h : S.Inv st) (hdelay : st.sw.delay = 0) :
    ∃ st', S.system.Leads st st' ∧ st'.sw.Gate ∧ st'.sw.lines = st.sw.lines := by
  obtain ⟨st₁, hleads₁, hack, hdelay₁, hlines₁⟩ := exists_ack hpolled h
  obtain ⟨st₂, hleads₂, hadd, hack₂, hdelay₂, hlines₂⟩ := exists_add hpolled (h.leads hleads₁)
  refine ⟨st₂, hleads₁.trans hleads₂, ⟨hack₂.trans hack, hadd, ?_⟩, hlines₂.trans hlines₁⟩
  rw [hdelay₂, hdelay₁, hdelay]

/-- The next line is read, and leaves a delay if it is a line for one. -/
theorem exists_next (hpolled : S.polled) (h : S.Inv st) (hdelay : st.sw.delay = 0)
    {line : Text} {lines : List Text} (hlines : st.sw.lines = line :: lines) :
    ∃ st', S.system.Leads st st' ∧
      st'.sw.lines = lines ∧ (st'.sw.delay ≠ 0 ↔ Delays line) := by
  obtain ⟨st₁, hleads, hgate, hlines₁⟩ := exists_gate hpolled h hdelay
  have hinv := h.leads hleads
  rw [hlines] at hlines₁
  have hopen := hinv.isOpen (by rw [hlines₁]; exact List.cons_ne_nil _ _)
  have hmem : line ∈ S.file := hinv.suffix.subset (by rw [hlines₁]; exact List.mem_cons_self)
  have hnext := SwitchState.nextLine_eq_some.mpr ⟨hgate, hopen, lines, hlines₁⟩
  obtain ⟨r, hr⟩ := SwitchState.exists_turn hnext (S.wellFormed line hmem)
  have hstep : S.system.step st₁ .turn = some _ := congrArg (Option.map _) hr
  refine ⟨_, hleads.trans (.of_step hstep), ?_⟩
  have hread : ∀ {line' lines'}, st₁.sw.lines = line' :: lines' → line' = line ∧ lines' = lines :=
    fun hlines' => List.cons.inj (hlines'.symm.trans hlines₁)
  have hnot : ∀ {t}, parseLine line = some t → (∀ id ms, t ≠ .delay id ms) → ¬ Delays line := by
    rintro t hparse ht ⟨id, ms, hparse', -⟩
    exact ht id ms (Option.some.inj (hparse.symm.trans hparse'))
  cases SwitchState.turnMove_of_turn hr with
  | idle isOpen hline => exact absurd (hnext.symm.trans hline) nofun
  | skip line' lines' hline hlines' hparse =>
    obtain ⟨rfl, rfl⟩ := hread hlines'
    exact ⟨rfl, iff_of_false (fun hne => hne hgate.2.2) (hnot hparse nofun)⟩
  | delay line' lines' id ms hline hlines' hparse =>
    obtain ⟨rfl, rfl⟩ := hread hlines'
    refine ⟨rfl, fun hne => ⟨id, ms, hparse, hne⟩, ?_⟩
    rintro ⟨id', ms', hparse', hne⟩
    cases hparse.symm.trans hparse'
    exact hne
  | admit_ line' lines' id srcIp destIp _ hline hlines' hparse hmove =>
    obtain ⟨rfl, rfl⟩ := hread hlines'
    have hdelay' : r.1.delay = 0 := by
      cases hmove <;> exact hgate.2.2
    exact ⟨hmove.lines_eq, iff_of_false (fun hne => hne hdelay') (hnot hparse nofun)⟩

/-- Lines that leave no delay are read. -/
theorem exists_read (hpolled : S.polled) (h : S.Inv st) (hdelay : st.sw.delay = 0)
    {pre post : List Text} (hlines : st.sw.lines = pre ++ post)
    (hpre : ∀ line ∈ pre, ¬ Delays line) :
    ∃ st', S.system.Leads st st' ∧ st'.sw.lines = post ∧ st'.sw.delay = 0 := by
  induction pre generalizing st with
  | nil => exact ⟨st, .refl st, hlines, hdelay⟩
  | cons line pre ih =>
    rw [List.forall_mem_cons] at hpre
    obtain ⟨st₁, hleads₁, hlines₁, hiff⟩ := exists_next hpolled h hdelay hlines
    have hdelay₁ : st₁.sw.delay = 0 := not_not.mp fun hne => hpre.1 (hiff.mp hne)
    obtain ⟨st₂, hleads₂, hlines₂, hdelay₂⟩ := ih (h.leads hleads₁) hdelay₁ hlines₁ hpre.2
    exact ⟨st₂, hleads₁.trans hleads₂, hlines₂, hdelay₂⟩

/-- The lines up to a delay line are read. -/
theorem exists_delayed (hpolled : S.polled) {pre post : List Text} {line : Text}
    (hfile : S.file = pre ++ line :: post) (hpre : ∀ line ∈ pre, ¬ Delays line)
    (hline : Delays line) :
    ∃ st, S.system.Reachable st ∧ st.sw.delay ≠ 0 ∧ st.sw.lines = post := by
  obtain ⟨st₁, hleads₁, hlines₁, hdelay₁⟩ :=
    exists_read hpolled (inv_init (S := S)) rfl hfile hpre
  obtain ⟨st₂, hleads₂, hlines₂, hiff⟩ :=
    exists_next hpolled (inv_init.leads hleads₁) hdelay₁ hlines₁
  have hreachable : S.system.Reachable S.init := .of_init rfl
  exact ⟨st₂, hreachable.leads (hleads₁.trans hleads₂), hiff.mpr hline, hlines₂⟩

/-- While there is a delay, no step reads a line or takes the delay away. -/
theorem stays_of_step (hdelay : st.sw.delay ≠ 0) {act : Action}
    (hstep : S.step st act = some st') :
    st'.sw.delay = st.sw.delay ∧ st'.sw.lines = st.sw.lines := by
  have hopen : ∀ {line}, st.sw.nextLine = some line → st.sw.delay = 0 :=
    fun hline => (SwitchState.nextLine_eq_some.mp hline).1.2.2
  cases move_of_step hstep with
  | turn hr =>
    cases hr with
    | idle => exact ⟨rfl, rfl⟩
    | skip line lines hline => exact absurd (hopen hline) hdelay
    | delay line lines id ms hline => exact absurd (hopen hline) hdelay
    | admit_ line lines id srcIp destIp _ hline => exact absurd (hopen hline) hdelay
  | ack hpolled hr => exact ⟨hr.delay_eq, hr.lines_eq⟩
  | add hpolled hlt hr => exact ⟨hr.delay_eq, hr.lines_eq⟩
  | relay hother hr => exact ⟨hr.delay_eq, hr.lines_eq⟩

theorem stays_of_leads (hdelay : st.sw.delay ≠ 0) (hleads : S.system.Leads st st') :
    st'.sw.delay = st.sw.delay ∧ st'.sw.lines = st.sw.lines := by
  refine hleads.invariant (I := fun st' => st'.sw.delay = st.sw.delay ∧
    st'.sw.lines = st.sw.lines) ?_ ⟨rfl, rfl⟩
  rintro st₁ act st₂ ⟨hdelay₁, hlines₁⟩ hstep
  obtain ⟨hdelay₂, hlines₂⟩ := stays_of_step (by rwa [hdelay₁]) hstep
  exact ⟨hdelay₂.trans hdelay₁, hlines₂.trans hlines₁⟩

end Steps

/-! ## Which files are read -/

/-- The first line that leaves a delay. -/
theorem exists_first {lines : List Text} (h : ¬ ∀ line ∈ lines, ¬ Delays line) :
    ∃ pre line post, lines = pre ++ line :: post ∧ (∀ line ∈ pre, ¬ Delays line) ∧
      Delays line := by
  induction lines with
  | nil => exact absurd nofun h
  | cons line lines ih =>
    by_cases hline : Delays line
    · exact ⟨[], line, lines, rfl, nofun, hline⟩
    · have hlines : ¬ ∀ line ∈ lines, ¬ Delays line := fun hno =>
        h (List.forall_mem_cons.mpr ⟨hline, hno⟩)
      obtain ⟨pre, line', post, rfl, hpre, hline'⟩ := ih hlines
      exact ⟨line :: pre, line', post, rfl, List.forall_mem_cons.mpr ⟨hline, hpre⟩, hline'⟩

section Undelayed

variable {S : Service} {st : State}

/-- Without a delay line before the last line, there is no delay before the end. -/
theorem Inv.delay_eq_zero (hfile : ∀ line ∈ S.file.dropLast, ¬ Delays line) (h : S.Inv st)
    (hne : st.sw.lines ≠ []) : st.sw.delay = 0 := by
  by_contra hdelay
  obtain ⟨line, hline, front, hfront⟩ := h.delayed hdelay
  have hmem : line ∈ S.file.dropLast := by
    rw [← hfront, List.dropLast_append_cons, List.dropLast_cons_of_ne_nil hne]
    exact List.mem_append_right _ List.mem_cons_self
  exact hfile line hmem hline

/-- The file can be read to its end. -/
theorem exists_finish (hpolled : S.polled) (hfile : ∀ line ∈ S.file.dropLast, ¬ Delays line)
    (h : S.Inv st) :
    ∃ st', S.system.Leads st st' ∧ st'.sw.lines = [] := by
  rcases List.eq_nil_or_concat st.sw.lines with hnil | ⟨pre, last, hlines⟩
  · exact ⟨st, .refl st, hnil⟩
  · rw [List.concat_eq_append] at hlines
    have hne : st.sw.lines ≠ [] := by
      rw [hlines]
      exact List.append_ne_nil_of_right_ne_nil _ (List.cons_ne_nil _ _)
    have hpre : ∀ line ∈ pre, ¬ Delays line := by
      obtain ⟨front, hfront⟩ := h.suffix
      rw [← hfront, hlines, ← List.append_assoc, List.dropLast_concat] at hfile
      exact fun line hmem => hfile line (List.mem_append_right _ hmem)
    obtain ⟨st₁, hleads₁, hlines₁, hdelay₁⟩ :=
      exists_read hpolled h (h.delay_eq_zero hfile hne) hlines hpre
    obtain ⟨st₂, hleads₂, hlines₂, -⟩ := exists_next hpolled (h.leads hleads₁) hdelay₁ hlines₁
    exact ⟨st₂, hleads₁.trans hleads₂, hlines₂⟩

/-- A step that reads no line asks for nothing. -/
theorem quiet_or_reads {st' : State} {act : Action} (hstep : S.step st act = some st') :
    (st'.sw.lines = st.sw.lines ∧ st'.asks = st.asks) ∨
      ∃ line, st.sw.lines = line :: st'.sw.lines := by
  cases move_of_step hstep with
  | turn hr =>
    rcases hr.lines_cases with ⟨line, -, hlines⟩ | ⟨-, hlines, hwrites⟩
    · exact .inr ⟨line, hlines⟩
    · refine .inl ⟨hlines, ?_⟩
      dsimp only
      rw [hwrites]
      exact List.append_nil _
  | ack hpolled hr => exact .inl ⟨hr.lines_eq, rfl⟩
  | add hpolled hlt hr => exact .inl ⟨hr.lines_eq, rfl⟩
  | relay hother hr => exact .inl ⟨hr.lines_eq, rfl⟩

/-- Answers that have come stay. -/
theorem answers_of_step {n : ℕ} {st' : State} {act : Action}
    (h : st.greeted = true ∧ n ≤ st.answered) (hstep : S.step st act = some st') :
    st'.greeted = true ∧ n ≤ st'.answered := by
  cases move_of_step hstep with
  | turn hr => exact h
  | ack hpolled hr => exact ⟨rfl, h.2⟩
  | add hpolled hlt hr => exact ⟨h.1, Nat.le_succ_of_le h.2⟩
  | relay hother hr => exact h

/-- When everything has been answered, a turn reads the next line. -/
theorem reads_of_turn (hfile : ∀ line ∈ S.file.dropLast, ¬ Delays line) (h : S.Inv st)
    (hne : st.sw.lines ≠ []) (hgreeted : st.greeted = true)
    (hanswered : st.asks.length ≤ st.answered) {st' : State}
    (hstep : S.step st .turn = some st') : ∃ line, st.sw.lines = line :: st'.sw.lines := by
  have hadd : st.sw.addReceived = true := by
    by_contra hnot
    have howed := h.owed (Bool.not_eq_true _ ▸ hnot)
    omega
  have hgate : st.sw.Gate := ⟨h.greeted hgreeted, hadd, h.delay_eq_zero hfile hne⟩
  obtain ⟨line, lines, hlines⟩ := List.exists_cons_of_ne_nil hne
  have hnext := SwitchState.nextLine_eq_some.mpr ⟨hgate, h.isOpen hne, lines, hlines⟩
  obtain ⟨r, hr, rfl⟩ := Option.map_eq_some_iff.mp hstep
  rcases (SwitchState.turnMove_of_turn hr).lines_cases with ⟨line', -, hread⟩ | ⟨hline, -⟩
  · exact ⟨line', hread⟩
  · exact absurd (hnext.symm.trans hline) nofun

/-- The next line is read at some time. -/
theorem Fair.reads {p : S.system.Path} (hfair : S.Fair p)
    (hfile : ∀ line ∈ S.file.dropLast, ¬ Delays line) {i : ℕ} (hne : (p.state i).sw.lines ≠ []) :
    ∃ j, (p.state j).sw.lines.length < (p.state i).sw.lines.length := by
  by_contra! hlong
  have hsame : ∀ {j}, i ≤ j →
      (p.state j).sw.lines = (p.state i).sw.lines ∧ (p.state j).asks = (p.state i).asks := by
    intro j hij
    induction hij with
    | refl => exact ⟨rfl, rfl⟩
    | @step j _ ih =>
      rcases quiet_or_reads (p.next j) with ⟨hlines, hasks⟩ | ⟨line, hlines⟩
      · exact ⟨hlines.trans ih.1, hasks.trans ih.2⟩
      · have hlength := congrArg List.length (ih.1.symm.trans hlines)
        rw [List.length_cons] at hlength
        have hlonger := hlong (j + 1)
        omega
  -- once greeted and answered, the next turn reads
  obtain ⟨g, hg⟩ := hfair.greets
  obtain ⟨b, hgb, hb⟩ := hfair.answers (max i g)
  obtain ⟨t, hbt, ht⟩ := hfair.turns b
  have hig : i ≤ max i g := le_max_left i g
  have hit : i ≤ t := hig.trans (hgb.trans hbt)
  have hgreeted : (p.state b).greeted = true ∧ 0 ≤ (p.state b).answered :=
    p.invariant (I := fun st => st.greeted = true ∧ 0 ≤ st.answered)
      (fun _ _ _ h hstep => answers_of_step h hstep) ((le_max_right i g).trans hgb)
      ⟨hg, Nat.zero_le _⟩
  obtain ⟨hack, hanswered⟩ :=
    p.invariant (I := fun st => st.greeted = true ∧ (p.state (max i g)).asks.length ≤ st.answered)
      (fun _ _ _ h hstep => answers_of_step h hstep) hbt ⟨hgreeted.1, hb⟩
  rw [(hsame hig).2, ← (hsame hit).2] at hanswered
  have hstep := p.next t
  rw [ht] at hstep
  obtain ⟨line, hread⟩ := reads_of_turn hfile (inv_of_reachable (p.reachable t))
    (by rwa [(hsame hit).1]) hack hanswered hstep
  have hshorter := congrArg List.length hread
  rw [(hsame hit).1, (hsame (Nat.le_succ_of_le hit)).1, List.length_cons] at hshorter
  omega

/-- The file is read to its end. -/
theorem Fair.consumes {p : S.system.Path} (hfair : S.Fair p)
    (hfile : ∀ line ∈ S.file.dropLast, ¬ Delays line) (i : ℕ) :
    ∃ j, (p.state j).sw.lines = [] := by
  induction hlength : (p.state i).sw.lines.length using Nat.strong_induction_on generalizing i with
  | _ m ih =>
    by_cases hnil : (p.state i).sw.lines = []
    · exact ⟨i, hnil⟩
    · obtain ⟨j, hshorter⟩ := hfair.reads hfile hnil
      rw [hlength] at hshorter
      exact ih _ hshorter j rfl

end Undelayed

/-- What `poll` does not look for does not come. -/
theorem unread_of_not_polled {S : Service} {st : State} (hpolled : ¬ S.polled)
    (h : S.system.Reachable st) : st.sw.hello_ackReceived = false ∧ st.sw.lines = S.file := by
  refine h.invariant (I := fun st => st.sw.hello_ackReceived = false ∧ st.sw.lines = S.file) ?_ ?_
  · rintro _ rfl
    exact ⟨rfl, rfl⟩
  · rintro st act st' - ⟨hack, hlines⟩ hstep
    have hopen : ∀ {line}, st.sw.nextLine ≠ some line := by
      intro line hline
      exact absurd (hack.symm.trans (SwitchState.nextLine_eq_some.mp hline).1.1) nofun
    cases move_of_step hstep with
    | turn hr =>
      cases hr with
      | idle => exact ⟨hack, hlines⟩
      | skip line lines hline => exact absurd hline hopen
      | delay line lines id ms hline => exact absurd hline hopen
      | admit_ line lines id srcIp destIp _ hline => exact absurd hline hopen
    | ack hpolled' hr => exact absurd hpolled' hpolled
    | add hpolled' hlt hr => exact absurd hpolled' hpolled
    | relay hother hr =>
      obtain ⟨hsame, -⟩ := hr.of_other hother
      exact ⟨hsame.trans hack, hr.lines_eq.trans hlines⟩

section Files

variable {S : Service}

/-- In a file that is read `poll` looks for the answers. -/
theorem GoesOn.polled (h : S.GoesOn) (hne : S.file ≠ []) : S.polled := by
  by_contra hpolled
  have hinit : S.system.Reachable S.init := .of_init rfl
  refine h.reads S.init hinit ⟨hne, fun st' hleads => ?_⟩
  exact (unread_of_not_polled hpolled (hinit.leads hleads)).2

theorem Opens.polled (h : S.Opens) : S.polled := by
  by_contra hpolled
  have hinit : S.system.Reachable S.init := .of_init rfl
  obtain ⟨st', hleads, hgate⟩ := h S.init hinit
  exact absurd ((unread_of_not_polled hpolled (hinit.leads hleads)).1.symm.trans hgate.1) nofun

/-- Nor does a line before the last one delay the switch. -/
theorem GoesOn.not_delays (h : S.GoesOn) (hne : S.file ≠ []) :
    ∀ line ∈ S.file.dropLast, ¬ Delays line := by
  by_contra hdelays
  obtain ⟨pre, line, post, hfront, hpre, hline⟩ := exists_first hdelays
  have hfile : S.file = pre ++ line :: (post ++ [S.file.getLast hne]) := by
    conv_lhs => rw [← List.dropLast_append_getLast hne, hfront]
    rw [List.append_assoc, List.cons_append]
  obtain ⟨st, hst, hdelay, hlines⟩ := exists_delayed (h.polled hne) hfile hpre hline
  refine h.reads st hst ⟨?_, fun st' hleads => (stays_of_leads hdelay hleads).2⟩
  rw [hlines]
  exact List.append_ne_nil_of_right_ne_nil _ (List.cons_ne_nil _ _)

theorem Opens.not_delays (h : S.Opens) : ∀ line ∈ S.file, ¬ Delays line := by
  by_contra hdelays
  obtain ⟨pre, line, post, hfile, hpre, hline⟩ := exists_first hdelays
  obtain ⟨st, hst, hdelay, -⟩ := exists_delayed h.polled hfile hpre hline
  obtain ⟨st', hleads, hgate⟩ := h st hst
  exact hdelay ((stays_of_leads hdelay hleads).1.symm.trans hgate.2.2)

/-- Of an empty file nothing is left unread. -/
theorem goesOn_of_nil (hfile : S.file = []) : S.GoesOn := by
  have hnil : ∀ {st}, S.system.Reachable st → st.sw.lines = [] := by
    intro st hst
    have hsuffix := (inv_of_reachable hst).suffix
    rw [hfile] at hsuffix
    exact List.suffix_nil.mp hsuffix
  exact ⟨fun st hst hwedged => hwedged.1 (hnil hst), fun st hst => ⟨st, .refl st, hnil hst⟩,
    fun p _ => ⟨0, hnil (p.reachable 0)⟩⟩

theorem goesOn_of_not_delays (hpolled : S.polled)
    (hfile : ∀ line ∈ S.file.dropLast, ¬ Delays line) : S.GoesOn := by
  have hfinish : ∀ st, S.system.Reachable st →
      ∃ st', S.system.Leads st st' ∧ st'.sw.lines = [] :=
    fun st hst => exists_finish hpolled hfile (inv_of_reachable hst)
  refine ⟨?_, hfinish, fun p hfair => hfair.consumes hfile 0⟩
  rintro st hst ⟨hne, hsame⟩
  obtain ⟨st', hleads, hnil⟩ := hfinish st hst
  exact hne ((hsame st' hleads).symm.trans hnil)

theorem opens_of_not_delays (hpolled : S.polled) (hfile : ∀ line ∈ S.file, ¬ Delays line) :
    S.Opens := by
  intro st hst
  have hinv := inv_of_reachable hst
  have hdelay : st.sw.delay = 0 := by
    by_contra hne
    obtain ⟨line, hline, hsuffix⟩ := hinv.delayed hne
    exact hfile line (hsuffix.subset List.mem_cons_self) hline
  obtain ⟨st', hleads, hgate, -⟩ := exists_gate hpolled hinv hdelay
  exact ⟨st', hleads, hgate⟩

end Files

/-- The file can be read from every state, and the gate opened, iff `poll` looks at the
    master's socket and no line delays the switch; and it can be read iff it is empty, or
    `poll` does and no line but the last one delays the switch. -/
theorem goesOn_iff (S : Service) :
    (S.GoesOn ∧ S.Opens ↔ S.polled ∧ ∀ line ∈ S.file, ¬ Delays line) ∧
      (S.GoesOn ↔ S.file = [] ∨ S.polled ∧ ∀ line ∈ S.file.dropLast, ¬ Delays line) := by
  refine ⟨⟨fun h => ⟨h.2.polled, h.2.not_delays⟩, ?_⟩, ?_, ?_⟩
  · rintro ⟨hpolled, hfile⟩
    exact ⟨goesOn_of_not_delays hpolled fun line hmem =>
      hfile line (List.dropLast_subset _ hmem), opens_of_not_delays hpolled hfile⟩
  · intro hgoes
    by_cases hne : S.file = []
    · exact .inl hne
    · exact .inr ⟨hgoes.polled hne, hgoes.not_delays hne⟩
  · rintro (hfile | ⟨hpolled, hfile⟩)
    · exact goesOn_of_nil hfile
    · exact goesOn_of_not_delays hpolled hfile

/-! ## `ex3.dat` -/

/-- The first switch with the first three lines of `ex3.dat`, where `poll` looks at the
    socket; the last line is about an address of the second switch. -/
def ex3 : Service where
  cfg := ⟨1, -1, 2, 100, 110⟩
  file := ["psw1 100 102".toList, "psw1 delay 5000".toList, "psw1 100 200".toList]
  polled := true
  answer _ := addString 1 200 210 0 100
  wellFormed := by decide +kernel
  isAdd _ := by decide

/-- The third line is never read. -/
theorem goesOn_iff_counterexample : ∃ st, ex3.system.Reachable st ∧
    st.sw.lines = ["psw1 100 200".toList] ∧ st.sw.delay = 5000 ∧ ex3.Wedged st ∧
    ¬ ex3.GoesOn ∧ ¬ ex3.Opens := by
  have hrun : (ex3.system.exec ex3.init [.ack .zero .zero, .turn, .turn]).map
      (fun st => (st.sw.lines, st.sw.delay)) = some (["psw1 100 200".toList], 5000) := by
    decide +kernel
  obtain ⟨st, hexec, hview⟩ := Option.map_eq_some_iff.mp hrun
  obtain ⟨hlines, hdelay⟩ := Prod.mk.inj hview
  have hst : ex3.system.Reachable st := .of_exec rfl hexec
  have hne : st.sw.delay ≠ 0 := by
    rw [hdelay]
    decide
  have hwedged : ex3.Wedged st := by
    refine ⟨?_, fun st' hleads => (stays_of_leads hne hleads).2⟩
    rw [hlines]
    exact List.cons_ne_nil _ _
  refine ⟨st, hst, hlines, hdelay, hwedged, fun hgoes => hgoes.reads st hst hwedged, ?_⟩
  intro hopens
  obtain ⟨st', hleads, hgate⟩ := hopens st hst
  exact hne ((stays_of_leads hne hleads).1.symm.trans hgate.2.2)

end Service

end Cmput379.A3w22
