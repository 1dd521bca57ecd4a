import Cmput379.A3w22.SwitchLoop
import Cmput379.Lib.Run
import Cmput379.Sdn.Buffer

/-!
# How the master answers

The master and the switches of a line, connected by byte streams: a read takes any
number of the bytes that are there, up to the size of the buffer, and leaves the rest
of the buffer as it is. The switch with id `i` is on connection `i`.

* `Replying`, `replying_of_reachable`: what is sent and written in every run.
* `asks_never_answered`: no ASK of a switch is answered as it should be.
* `asks_never_answered_counterexample`: an owner exists, and the ADD names port 0.
-/

namespace Cmput379.A3w22

open Cmput379.Lib
open Cmput379.Sdn (MAX_BUFFER readInto bufferString clearBuffer makeFifoName)

/-! ## The network -/

/-- A line of switches with their traffic files. -/
structure Line (n : ℕ) where
  cfg : Fin n → SwitchConfig
  file : Fin n → List Text
  id_eq : ∀ k, (cfg k).id = k + 1
  port1_eq : ∀ k, (cfg k).port1Id = if k.val = 0 then -1 else (k : ℤ)
  port2_eq : ∀ k, (cfg k).port2Id = if k.val + 1 = n then -1 else (k : ℤ) + 2
  disjoint : ∀ s t ip, (cfg s).ipLow ≤ ip ∧ ip ≤ (cfg s).ipHigh →
    (cfg t).ipLow ≤ ip ∧ ip ≤ (cfg t).ipHigh → s = t

/-- The two kinds of loops, the bytes on their connections and FIFOs, and what they
    have sent: `sent` by the switches to the master, `written` by the master. -/
structure Net (n : ℕ) where
  master : MasterState (Option (Fin n))
  buffer : Text
  started : Fin n → Bool
  sw : Fin n → SwitchState
  swBuffer : Fin n → Text
  up : Fin n → Text
  down : Fin n → Text
  fifo : Text → Text
  sent : List (Fin n × SwitchPacket)
  written : List (Fin n × Text)

/-- What is in the memory behind the buffer, behind the numbers of a packet, and in a
    local variable that has not been written. -/
structure Surroundings where
  beyond : Text
  memory : Memory
  garbage : FowardRule

/-- Switch `k` connects; the master accepts it; the master clears its buffer, or reads
    `len` bytes of connection `k + 1`; switch `k` takes a turn, clears its buffer, or
    reads `len` bytes of the master or of the FIFO of a port. -/
inductive Action (n : ℕ)
  | start (k : Fin n)
  | accept (k : Fin n)
  | clear
  | masterRead (k : Fin n) (len : ℕ) (mem : Surroundings)
  | turn (k : Fin n)
  | switchClear (k : Fin n)
  | switchRead (k : Fin n) (len : ℕ) (mem : Surroundings)
  | fifoRead (k : Fin n) (port : ℤ) (len : ℕ) (mem : Surroundings)

namespace Net

variable {n : ℕ}

def init (L : Line n) : Net n where
  master := .init
  buffer := clearBuffer
  started _ := false
  sw k := .init (L.cfg k) (L.file k)
  swBuffer _ := clearBuffer
  up _ := []
  down _ := []
  fifo _ := []
  sent := []
  written := []

/-- `write` of a switch. -/
def switchWrite (net : Net n) (k : Fin n) (w : Fd × SwitchPacket) : Net n :=
  match w.1 with
  | .stdin => net
  | .master =>
    { net with
      up := Function.update net.up k (net.up k ++ w.2.text)
      sent := net.sent ++ [(k, w.2)] }
  | .fifo name => { net with fifo := Function.update net.fifo name (net.fifo name ++ w.2.text) }

/-- The state of switch `k` after a part of its loop, and what it wrote. -/
def switchStep (net : Net n) (k : Fin n) (s : SwitchState) (writes : Writes) : Net n :=
  writes.foldl (fun net w => net.switchWrite k w) { net with sw := Function.update net.sw k s }

/-- `write` of the master; descriptor 0 is no connection. -/
def masterWrite (net : Net n) (w : Option (Fin n) × Text) : Net n :=
  match w.1 with
  | none => net
  | some k =>
    { net with
      down := Function.update net.down k (net.down k ++ w.2)
      written := net.written ++ [(k, w.2)] }

/-- A read returns some of the bytes that are there. -/
def ReadOk (stream : Text) (len : ℕ) : Prop := 0 < len ∧ len ≤ stream.length ∧ len ≤ MAX_BUFFER

instance (stream : Text) (len : ℕ) : Decidable (ReadOk stream len) :=
  inferInstanceAs (Decidable (_ ∧ _ ∧ _))

/-- The master reads `pfds[k + 1]`. -/
def masterRead (net : Net n) (k : Fin n) (len : ℕ) (mem : Surroundings) : Net n :=
  let buffer := readInto net.buffer ((net.up k).take len)
  let (master, writes) :=
    net.master.handlePacket mem.memory (k + 1) (bufferString mem.beyond buffer)
  writes.foldl masterWrite
    { net with
      master := master, buffer := buffer, up := Function.update net.up k ((net.up k).drop len) }

/-- Switch `k` handles some bytes. -/
def receive (L : Line n) (net : Net n) (k : Fin n) (bytes : Text) (mem : Surroundings) : Net n :=
  let buffer := readInto (net.swBuffer k) bytes
  let (s, writes) := (net.sw k).handlePacket mem.memory mem.garbage (L.cfg k)
    (bufferString mem.beyond buffer)
  ({ net with swBuffer := Function.update net.swBuffer k buffer } : Net n).switchStep k s writes

/-- The FIFO that switch `k` reads on a port. -/
def readFifo (L : Line n) (k : Fin n) (port : ℤ) : Text :=
  makeFifoName (if port = 1 then (L.cfg k).port1Id else (L.cfg k).port2Id) (L.cfg k).id

end Net

variable {n : ℕ}

def step (L : Line n) (net : Net n) : Action n → Option (Net n)
  | .start k =>
    if net.started k then none
    else
      let cfg := L.cfg k
      let hello := .HELLO cfg.id cfg.port1Id cfg.port2Id cfg.ipLow cfg.ipHigh
      some (({ net with started := Function.update net.started k true } : Net n).switchWrite k
        (.master, hello))
  | .accept k =>
    if net.started k ∧ net.master.pfds (k + 1) = none then
      some { net with master := { net.master with
        pfds := Function.update net.master.pfds (k + 1) (some (some k)) } }
    else none
  | .clear => some { net with buffer := clearBuffer }
  | .masterRead k len mem =>
    if net.master.pfds (k + 1) = some (some k) ∧ Net.ReadOk (net.up k) len then
      some (net.masterRead k len mem)
    else none
  | .turn k =>
    if net.started k then (net.sw k).turn.map fun (s, writes) => net.switchStep k s writes
    else none
  | .switchClear k => some { net with swBuffer := Function.update net.swBuffer k clearBuffer }
  | .switchRead k len mem =>
    if net.started k ∧ Net.ReadOk (net.down k) len then
      some (({ net with
          down := Function.update net.down k ((net.down k).drop len) } : Net n).receive
        L k ((net.down k).take len) mem)
    else none
  | .fifoRead k port len mem =>
    let name := Net.readFifo L k port
    if net.started k ∧ (port = 1 ∨ port = 2) ∧ Net.ReadOk (net.fifo name) len then
      some (({ net with
          fifo := Function.update net.fifo name ((net.fifo name).drop len) } : Net n).receive
        L k ((net.fifo name).take len) mem)
    else none

/-- The master and its switches. -/
def system (L : Line n) : System (Net n) (Action n) where
  init net := net = .init L
  step := step L

/-! ## Answers -/

/-- The address is in the range of switch `t`. -/
def Line.Owns (L : Line n) (t : Fin n) (ip : ℤ) : Prop :=
  (L.cfg t).ipLow ≤ ip ∧ ip ≤ (L.cfg t).ipHigh

/-- The entry of switch `t` in the table of the master. -/
def Line.info (L : Line n) (t : Fin n) : SwitchInfo :=
  ⟨(L.cfg t).id, (L.cfg t).port1Id, (L.cfg t).port2Id, (L.cfg t).ipLow, (L.cfg t).ipHigh⟩

/-- The ADD that should answer the ASK of switch `k`: a FORWARD to the owner, through
    the port towards it, if the owner is registered; else a DROP for the address. -/
inductive Answers (L : Line n) (table : List SwitchInfo) (k : Fin n) (srcIp destIp : ℤ) :
    Text → Prop
  | forward {text : Text} {t : Fin n} {port : ℤ} (howns : L.Owns t destIp)
      (hregistered : L.info t ∈ table)
      (hupper : (L.cfg k).id < (L.cfg t).id → port = 2)
      (hlower : (L.cfg t).id < (L.cfg k).id → port = 1)
      (htext : readPkt text =
        ("ADD".toList, [1, (L.cfg t).ipLow, (L.cfg t).ipHigh, port, srcIp])) :
      Answers L table k srcIp destIp text
  | drop {text : Text} {port : ℤ} (hnone : ∀ t, L.Owns t destIp → L.info t ∉ table)
      (htext : readPkt text = ("ADD".toList, [0, destIp, destIp, port, srcIp])) :
      Answers L table k srcIp destIp text

/-- Some text that switch `k` was sent answers its ASK. -/
def Answered (L : Line n) (net : Net n) (k : Fin n) (srcIp destIp : ℤ) : Prop :=
  ∃ text, (k, text) ∈ net.written ∧
    Answers L net.master.switchInfoTable k srcIp destIp text

/-- No reply is an answer to an ASK for an address of another switch. -/
theorem not_answers_of_isReply {L : Line n} {table : List SwitchInfo} {k : Fin n}
    {srcIp destIp : ℤ} {text : Text} (hreply : IsReply text) (hother : ¬ L.Owns k destIp) :
    ¬ Answers L table k srcIp destIp text := by
  have hparse : ∀ action low high port src : ℤ,
      readPkt text = ("ADD".toList, [action, low, high, port, src]) → action = 1 ∧ port = 0 := by
    intro action low high port src htext
    cases hreply with
    | helloack =>
      have htype : (readPkt helloack).1 = "ADD".toList := congrArg Prod.fst htext
      exact absurd htype (by decide)
    | add hlow hhigh hsrc =>
      rw [readPkt_addString (by
        simp only [List.forall_mem_cons, List.not_mem_nil, false_implies, implies_true, and_true]
        exact ⟨by decide, hlow, hhigh, by decide, hsrc⟩)] at htext
      simp only [Prod.mk.injEq, List.cons.injEq, true_and] at htext
      exact ⟨htext.1.symm, htext.2.2.2.1.symm⟩
  intro hanswers
  cases hanswers with
  | @forward t port howns hregistered hupper hlower htext =>
    obtain ⟨-, hzero⟩ := hparse _ _ _ _ _ htext
    have hne : (L.cfg t).id ≠ (L.cfg k).id := by
      intro heq
      rw [L.id_eq, L.id_eq] at heq
      have htk : t = k := Fin.ext (by omega)
      exact hother (htk ▸ howns)
    rcases lt_or_gt_of_ne hne with hlt | hgt
    · have hone := hlower hlt
      omega
    · have htwo := hupper hgt
      omega
  | drop hnone htext => exact absurd (hparse _ _ _ _ _ htext).1 (by decide)

/-! ## What is sent and written -/

/-- The tables and the texts of every run. -/
structure Replying (L : Line n) (net : Net n) : Prop where
  table : TableOk net.master.switchInfoTable
  own : ∀ k, OwnRule (L.cfg k) (net.sw k).fowardTable
  asks : ∀ k srcIp destIp, (k, .ASK srcIp destIp) ∈ net.sent → ¬ L.Owns k destIp
  replies : ∀ w ∈ net.written, IsReply w.2

section Step

variable {L : Line n} {net net' : Net n}

theorem Replying.switchWrites {k : Fin n} {writes : Writes} : ∀ {net : Net n}, Replying L net →
    (∀ fd srcIp destIp, (fd, .ASK srcIp destIp) ∈ writes → ¬ L.Owns k destIp) →
      Replying L (writes.foldl (fun net w => net.switchWrite k w) net) := by
  induction writes with
  | nil => exact fun h _ => h
  | cons w writes ih =>
    intro net h hasks
    rw [List.foldl_cons]
    apply ih
    · obtain ⟨fd, packet⟩ := w
      cases fd with
      | stdin => exact h
      | fifo name => exact ⟨h.table, h.own, h.asks, h.replies⟩
      | master =>
        refine ⟨h.table, h.own, ?_, h.replies⟩
        intro k' srcIp destIp hmem
        rcases List.mem_append.mp hmem with hmem | hmem
        · exact h.asks k' srcIp destIp hmem
        · obtain ⟨rfl, rfl⟩ := Prod.mk.inj (List.mem_singleton.mp hmem)
          exact hasks .master srcIp destIp List.mem_cons_self
    · exact fun fd srcIp destIp hmem =>
        hasks fd srcIp destIp (List.mem_cons_of_mem _ hmem)

theorem Replying.switchStep (h : Replying L net) {k : Fin n} {s : SwitchState} {writes : Writes}
    (hown : OwnRule (L.cfg k) s.fowardTable)
    (hasks : ∀ fd srcIp destIp, (fd, .ASK srcIp destIp) ∈ writes → ¬ L.Owns k destIp) :
    Replying L (net.switchStep k s writes) := by
  refine Replying.switchWrites ⟨h.table, ?_, h.asks, h.replies⟩ hasks
  intro k'
  show OwnRule (L.cfg k') (Function.update net.sw k s k').fowardTable
  by_cases hk : k' = k
  · subst hk
    rwa [Function.update_self]
  · rw [Function.update_of_ne hk]
    exact h.own k'

theorem Replying.masterWrites {writes : List (Option (Fin n) × Text)} :
    ∀ {net : Net n}, Replying L net → (∀ w ∈ writes, IsReply w.2) →
      Replying L (writes.foldl Net.masterWrite net) := by
  induction writes with
  | nil => exact fun h _ => h
  | cons w writes ih =>
    intro net h hreplies
    rw [List.foldl_cons]
    apply ih
    · obtain ⟨fd, text⟩ := w
      cases fd with
      | none => exact h
      | some k =>
        refine ⟨h.table, h.own, h.asks, ?_⟩
        intro w hw
        rcases List.mem_append.mp hw with hw | hw
        · exact h.replies w hw
        · obtain rfl := List.mem_singleton.mp hw
          exact hreplies (some k, text) List.mem_cons_self
    · exact fun w hw => hreplies w (List.mem_cons_of_mem _ hw)

theorem Replying.receive (h : Replying L net) (k : Fin n) (bytes : Text) (mem : Surroundings) :
    Replying L (net.receive L k bytes mem) := by
  unfold Net.receive
  dsimp only
  apply Replying.switchStep
  · exact ⟨h.table, h.own, h.asks, h.replies⟩
  · exact ownRule_of_handlePacket (h.own k) _ _ _
  · exact fun fd srcIp destIp hmem =>
      absurd hmem (not_ask_of_handlePacket _ _ _ _ fd srcIp destIp)

theorem Replying.step (h : Replying L net) {a : Action n} (hstep : step L net a = some net') :
    Replying L net' := by
  cases a with
  | start k =>
    simp only [A3w22.step] at hstep
    split_ifs at hstep
    cases hstep
    refine ⟨h.table, h.own, ?_, h.replies⟩
    intro k' srcIp destIp hmem
    rcases List.mem_append.mp hmem with hmem | hmem
    · exact h.asks k' srcIp destIp hmem
    · simp at hmem
  | accept k =>
    simp only [A3w22.step] at hstep
    split_ifs at hstep
    cases hstep
    exact ⟨h.table, h.own, h.asks, h.replies⟩
  | clear =>
    cases hstep
    exact ⟨h.table, h.own, h.asks, h.replies⟩
  | masterRead k len mem =>
    simp only [A3w22.step] at hstep
    split_ifs at hstep
    cases hstep
    exact Replying.masterWrites
      ⟨tableOk_of_handlePacket h.table _, h.own, h.asks, h.replies⟩
      (isReply_of_handlePacket h.table _)
  | turn k =>
    simp only [A3w22.step] at hstep
    split_ifs at hstep
    obtain ⟨⟨s, writes⟩, hturn, rfl⟩ := Option.map_eq_some_iff.mp hstep
    exact h.switchStep (ownRule_of_turn (h.own k) hturn)
      fun fd srcIp destIp hmem => not_own_of_turn (h.own k) hturn hmem
  | switchClear k =>
    cases hstep
    exact ⟨h.table, h.own, h.asks, h.replies⟩
  | switchRead k len mem =>
    simp only [A3w22.step] at hstep
    split_ifs at hstep
    cases hstep
    apply Replying.receive
    exact ⟨h.table, h.own, h.asks, h.replies⟩
  | fifoRead k port len mem =>
    simp only [A3w22.step] at hstep
    split_ifs at hstep
    cases hstep
    apply Replying.receive
    exact ⟨h.table, h.own, h.asks, h.replies⟩

end Step

theorem replying_of_reachable {L : Line n} {net : Net n} (h : (system L).Reachable net) :
    Replying L net := by
  refine h.invariant ?_ ?_
  · rintro _ rfl
    exact ⟨nofun, fun k => ownRule_init _ _, nofun, nofun⟩
  · exact fun _ _ _ _ hnet hstep => hnet.step hstep

/-- In every run, for every ASK that a switch has sent: none of the texts it was sent
    is the ADD it should get. -/
theorem asks_never_answered {L : Line n} {net : Net n} (h : (system L).Reachable net)
    {k : Fin n} {srcIp destIp : ℤ} (hask : (k, .ASK srcIp destIp) ∈ net.sent) :
    ¬ Answered L net k srcIp destIp := by
  have hnet := replying_of_reachable h
  rintro ⟨text, hmem, hanswers⟩
  exact not_answers_of_isReply (hnet.replies _ hmem) (hnet.asks k srcIp destIp hask) hanswers

/-! ## Two switches -/

/-- The first two switches of the data files; the first has a packet for `destIp`. -/
def twoSwitches (destIp : Text) : Line 2 where
  cfg k := if k.val = 0 then ⟨1, -1, 2, 100, 110⟩ else ⟨2, 1, -1, 200, 210⟩
  file k := if k.val = 0 then ["psw1 100 ".toList ++ destIp] else []
  id_eq := by decide
  port1_eq := by decide
  port2_eq := by decide
  disjoint s t ip hs ht := by
    match s, t with
    | 0, 0 => rfl
    | 1, 1 => rfl
    | 0, 1 =>
      change 100 ≤ ip ∧ ip ≤ 110 at hs
      change 200 ≤ ip ∧ ip ≤ 210 at ht
      omega
    | 1, 0 =>
      change 200 ≤ ip ∧ ip ≤ 210 at hs
      change 100 ≤ ip ∧ ip ≤ 110 at ht
      omega

/-- Nothing behind anything. -/
def noMemory : Surroundings where
  beyond := []
  memory := ⟨fun _ => 0, fun _ => by decide⟩
  garbage := ⟨0, 0, 0, 0, .DROP, 0, 0⟩

abbrev psw1 : Fin 2 := ⟨0, Nat.zero_lt_two⟩

abbrev psw2 : Fin 2 := ⟨1, Nat.one_lt_two⟩

/-- Both switches register, and the first one asks. -/
def askOnce : List (Action 2) :=
  [.start psw1, .accept psw1, .start psw2, .accept psw2, .masterRead psw1 20 noMemory, .clear,
    .masterRead psw2 20 noMemory, .clear, .switchRead psw1 10 noMemory, .turn psw1,
    .masterRead psw1 11 noMemory]

/-- What the first switch has sent and has been sent, and what is on its way. -/
def view (net : Net 2) : List (Fin 2 × SwitchPacket) × List (Fin 2 × Text) × Text :=
  (net.sent, net.written, net.up psw1)

/-- The second switch owns 200, and the ADD names port 0. -/
theorem asks_never_answered_counterexample : ∃ net,
    (system (twoSwitches "200".toList)).exec (.init (twoSwitches "200".toList)) askOnce =
      some net ∧
      (0, .ASK 100 200) ∈ net.sent ∧ net.up 0 = [] ∧
      (0, addString 1 200 210 0 100) ∈ net.written ∧
      ¬ Answered (twoSwitches "200".toList) net 0 100 200 := by
  have hrun : ((system (twoSwitches "200".toList)).exec (.init (twoSwitches "200".toList))
      askOnce).map view =
        some ([(0, .HELLO 1 (-1) 2 100 110), (1, .HELLO 2 1 (-1) 200 210), (0, .ASK 100 200)],
          [(0, helloack), (1, helloack), (0, addString 1 200 210 0 100)], []) := by
    decide +kernel
  obtain ⟨net, hexec, hview⟩ := Option.map_eq_some_iff.mp hrun
  simp only [view, Prod.mk.injEq] at hview
  obtain ⟨hsent, hwritten, hup⟩ := hview
  have hreplies := replying_of_reachable (System.Reachable.of_exec rfl hexec)
  have hown : ¬ (twoSwitches "200".toList).Owns 0 200 := by
    unfold Line.Owns
    decide
  refine ⟨net, hexec, by simp [hsent], hup, by simp [hwritten], ?_⟩
  rintro ⟨text, hmem, hanswers⟩
  exact not_answers_of_isReply (hreplies.replies _ hmem) hown hanswers

/-- Nobody owns 300: nothing is sent, and the first switch waits. -/
theorem asks_never_answered_unowned : ∃ net,
    (system (twoSwitches "300".toList)).exec (.init (twoSwitches "300".toList)) askOnce =
      some net ∧
      net.written = [(0, helloack), (1, helloack)] ∧
      ¬ Answered (twoSwitches "300".toList) net 0 100 300 := by
  have hrun : ((system (twoSwitches "300".toList)).exec (.init (twoSwitches "300".toList))
      askOnce).map view =
        some ([(0, .HELLO 1 (-1) 2 100 110), (1, .HELLO 2 1 (-1) 200 210), (0, .ASK 100 300)],
          [(0, helloack), (1, helloack)], []) := by
    decide +kernel
  obtain ⟨net, hexec, hview⟩ := Option.map_eq_some_iff.mp hrun
  simp only [view, Prod.mk.injEq] at hview
  obtain ⟨hsent, hwritten, -⟩ := hview
  refine ⟨net, hexec, hwritten, asks_never_answered (System.Reachable.of_exec rfl hexec) ?_⟩
  rw [hsent]
  decide

end Cmput379.A3w22
