import Mathlib.Data.Multiset.AddSub
import Mathlib.Algebra.Order.Group.Multiset
import Cmput379.Prodcon.Threads

/-!
# Where the commands of prodcon are

* `Accounts`: every 'T' line of the input is still to be read, with the producer,
  in the buffer, or popped; every popped one is with a consumer or completed; and
  the counters count these.
* `Accounts.step`: a step that moves a command books it; the others move none.
-/

namespace Cmput379.Prodcon

open Cmput379.Lib

variable {n : ℕ} {input : List Text} {s s' : State n}

/-- The command lines that are work (line 71). -/
def tasks (lines : List Text) : List Text := lines.filter fun line => line.head? = some 'T'

/-! ## Where a command is -/

/-- The producer has read a 'T' line and not yet pushed it. -/
def ProducerPc.holds : ProducerPc → Bool
  | .work | .lock | .test | .wait | .blocked | .woken | .push => true
  | _ => false

/-- The producer has counted a 'T' line and not yet pushed it. -/
def ProducerPc.counted : ProducerPc → Bool
  | .lock | .test | .wait | .blocked | .woken | .push => true
  | _ => false

/-- The consumer has popped a command and not yet completed it. -/
def ConsumerPc.holds : ConsumerPc → Bool
  | .signal | .unlock | .receive | .complete => true
  | _ => false

/-- The consumer has popped a command and not yet counted it as received. -/
def ConsumerPc.unreceived : ConsumerPc → Bool
  | .signal | .unlock | .receive => true
  | _ => false

/-- The command a consumer works on. -/
def Consumer.held (c : Consumer) : Multiset Text := if c.pc.holds then {c.command} else 0

/-- One for a command popped but not yet counted. -/
def Consumer.unreceived (c : Consumer) : ℕ := if c.pc.unreceived then 1 else 0

/-- The commands the consumers work on. -/
def State.working (s : State n) : Multiset Text := ∑ i, (s.consumer i).held

/-- The commands popped but not yet counted. -/
def State.unreceived (s : State n) : ℕ := ∑ i, (s.consumer i).unreceived

/-- The 'T' line the producer has read and not yet pushed. -/
def State.pending (s : State n) : List Text := if s.producer.holds then [s.command] else []

/-! ## The accounts -/

/-- Where the 'T' lines of the input are, and what the counters say. -/
structure Accounts (input : List Text) (s : State n) : Prop where
  lines : s.pushed ++ (s.pending ++ tasks s.input) = tasks input
  queue : s.popped ++ s.buffer = s.pushed
  work : s.workCount = s.pushed.length + if s.producer.counted then 1 else 0
  held : (s.popped : Multiset Text) = s.completed + s.working
  received : s.receiveCount + s.unreceived = s.popped.length
  complete : s.completeCount = s.completed.length

theorem accounts_initState : Accounts input (initState n input) where
  lines := by simp [initState, State.pending, ProducerPc.holds]
  queue := rfl
  work := rfl
  held := by simp [initState, State.working, Consumer.held, ConsumerPc.holds]
  received := by simp [initState, State.unreceived, Consumer.unreceived, ConsumerPc.unreceived]
  complete := rfl

/-- What the accounts see of a state, apart from its threads. -/
structure Books where
  input : List Text
  buffer : List Text
  pushed : List Text
  popped : List Text
  completed : List Text
  workCount : ℕ
  receiveCount : ℕ
  completeCount : ℕ

def State.books (s : State n) : Books where
  input := s.input
  buffer := s.buffer
  pushed := s.pushed
  popped := s.popped
  completed := s.completed
  workCount := s.workCount
  receiveCount := s.receiveCount
  completeCount := s.completeCount

/-- A step that moves no command. -/
theorem Accounts.quiet (h : Accounts input s) (hbooks : s'.books = s.books)
    (hpending : s'.pending = s.pending) (hcounted : s'.producer.counted = s.producer.counted)
    (hworking : s'.working = s.working) (hunreceived : s'.unreceived = s.unreceived) :
    Accounts input s' := by
  obtain ⟨hinput, hbuffer, hpushed, hpopped, hcompleted, hwork, hreceive, hcomplete⟩ :
      s'.input = s.input ∧ s'.buffer = s.buffer ∧ s'.pushed = s.pushed ∧ s'.popped = s.popped ∧
        s'.completed = s.completed ∧ s'.workCount = s.workCount ∧
        s'.receiveCount = s.receiveCount ∧ s'.completeCount = s.completeCount := by
    simpa only [State.books, Books.mk.injEq] using hbooks
  constructor
  · rw [hpushed, hpending, hinput, h.lines]
  · rw [hpopped, hbuffer, hpushed, h.queue]
  · rw [hwork, hpushed, hcounted, h.work]
  · rw [hpopped, hcompleted, hworking, h.held]
  · rw [hreceive, hunreceived, hpopped, h.received]
  · rw [hcomplete, hcompleted, h.complete]

/-- A move of consumer `i` that moves no command. -/
theorem Accounts.quiet_consumer (h : Accounts input s) {i : Fin n} {pc : ConsumerPc} {c : Consumer}
    (hpc : s.At i pc) (hbooks : s'.books = s.books)
    (hconsumer : s'.consumer = Function.update s.consumer i c)
    (hcommand : c.command = (s.consumer i).command) (hholds : c.pc.holds = pc.holds)
    (hunreceived : c.pc.unreceived = pc.unreceived)
    (hpending : s'.pending = s.pending) (hcounted : s'.producer.counted = s.producer.counted) :
    Accounts input s' := by
  subst hpc
  apply h.quiet hbooks hpending hcounted
  · rw [State.working, hconsumer]
    apply sum_update_same Consumer.held
    rw [Consumer.held, hholds, hcommand]
    rfl
  · rw [State.unreceived, hconsumer]
    apply sum_update_same Consumer.unreceived
    rw [Consumer.unreceived, hunreceived]
    rfl

/-- A move of the producer that moves no command. -/
theorem Accounts.quiet_producer (h : Accounts input s) {pc : ProducerPc} (hpc : s.producer = pc)
    (hbooks : s'.books = s.books) (hconsumer : s'.consumer = s.consumer)
    (hcommand : s'.command = s.command) (hholds : s'.producer.holds = pc.holds)
    (hcounted : s'.producer.counted = pc.counted) : Accounts input s' := by
  subst hpc
  apply h.quiet hbooks _ hcounted
  · rw [State.working, hconsumer]
    rfl
  · rw [State.unreceived, hconsumer]
    rfl
  · rw [State.pending, hholds, hcommand]
    rfl

theorem held_of_pc {c : Consumer} {pc : ConsumerPc} (hpc : c.pc = pc) (hholds : pc.holds = false) :
    c.held = 0 := by
  simp [Consumer.held, hpc, hholds]

theorem unreceived_of_pc {c : Consumer} {pc : ConsumerPc} (hpc : c.pc = pc)
    (hunreceived : pc.unreceived = false) : c.unreceived = 0 := by
  simp [Consumer.unreceived, hpc, hunreceived]

theorem holds_wakeProducer (s : State n) : s.wakeProducer.producer.holds = s.producer.holds := by
  cases hp : s.producer <;> simp [State.wakeProducer, hp, ProducerPc.holds]

theorem counted_wakeProducer (s : State n) :
    s.wakeProducer.producer.counted = s.producer.counted := by
  cases hp : s.producer <;> simp [State.wakeProducer, hp, ProducerPc.counted]

theorem pending_wakeProducer (s : State n) : s.wakeProducer.pending = s.pending := by
  unfold State.pending
  rw [holds_wakeProducer]
  rfl

theorem working_setConsumer (s : State n) (i : Fin n) (c : Consumer) :
    (s.setConsumer i c).working + (s.consumer i).held = s.working + c.held :=
  sum_update_add Consumer.held s.consumer i c

theorem unreceived_setConsumer (s : State n) (i : Fin n) (c : Consumer) :
    (s.setConsumer i c).unreceived + (s.consumer i).unreceived = s.unreceived + c.unreceived :=
  sum_update_add Consumer.unreceived s.consumer i c

/-- Consumer `i` takes the first command of the buffer. -/
theorem Accounts.pop (h : Accounts input s) {i : Fin n} {command : Text} {rest : List Text}
    (hpc : s.At i .pop) (hbuffer : s.buffer = command :: rest) :
    Accounts input { s.setConsumer i { s.consumer i with command, pc := .signal } with
      buffer := rest, popped := s.popped ++ [command] } where
  lines := h.lines
  queue := by
    rw [List.append_assoc, List.singleton_append, ← hbuffer]
    exact h.queue
  work := h.work
  held := by
    have hsum := working_setConsumer s i { s.consumer i with command, pc := .signal }
    rw [held_of_pc hpc rfl, add_zero] at hsum
    show ((s.popped ++ [command] : List Text) : Multiset Text) =
      s.completed + (s.setConsumer i { s.consumer i with command, pc := .signal }).working
    rw [hsum, ← add_assoc, ← h.held, ← Multiset.coe_add]
    rfl
  received := by
    have hsum := unreceived_setConsumer s i { s.consumer i with command, pc := .signal }
    rw [unreceived_of_pc hpc rfl, add_zero] at hsum
    show s.receiveCount +
      (s.setConsumer i { s.consumer i with command, pc := .signal }).unreceived =
        (s.popped ++ [command]).length
    rw [hsum, List.length_append, ← h.received]
    rfl
  complete := h.complete

/-- Consumer `i` counts its command as received. -/
theorem Accounts.receive (h : Accounts input s) {i : Fin n} (hpc : (s.consumer i).pc = .receive) :
    Accounts input { s.goto i .complete with receiveCount := s.receiveCount + 1 } where
  lines := h.lines
  queue := h.queue
  work := h.work
  held := by
    have hheld : ({ s.consumer i with pc := .complete } : Consumer).held = (s.consumer i).held := by
      simp [Consumer.held, hpc, ConsumerPc.holds]
    have hsum := working_setConsumer s i { s.consumer i with pc := .complete }
    rw [hheld] at hsum
    show (s.popped : Multiset Text) = s.completed + (s.goto i .complete).working
    rw [State.goto, add_right_cancel hsum]
    exact h.held
  received := by
    have hsum := unreceived_setConsumer s i { s.consumer i with pc := .complete }
    have hold : (s.consumer i).unreceived = 1 := by
      simp [Consumer.unreceived, hpc, ConsumerPc.unreceived]
    have hnew : ({ s.consumer i with pc := .complete } : Consumer).unreceived = 0 :=
      unreceived_of_pc rfl rfl
    rw [hold, hnew] at hsum
    have hreceived := h.received
    show s.receiveCount + 1 + (s.goto i .complete).unreceived = s.popped.length
    unfold State.goto
    omega
  complete := h.complete

/-- Consumer `i` completes its command. -/
theorem Accounts.complete_step (h : Accounts input s) {i : Fin n}
    (hpc : (s.consumer i).pc = .complete) :
    Accounts input { s.goto i .jobs with
      completeCount := s.completeCount + 1
      completed := s.completed ++ [(s.consumer i).command] } where
  lines := h.lines
  queue := h.queue
  work := h.work
  held := by
    have hsum := working_setConsumer s i { s.consumer i with pc := .jobs }
    have hold : (s.consumer i).held = {(s.consumer i).command} := by
      simp [Consumer.held, hpc, ConsumerPc.holds]
    have hnew : ({ s.consumer i with pc := .jobs } : Consumer).held = 0 := held_of_pc rfl rfl
    rw [hold, hnew, add_zero] at hsum
    show (s.popped : Multiset Text) =
      ((s.completed ++ [(s.consumer i).command] : List Text) : Multiset Text) +
        (s.goto i .jobs).working
    rw [h.held, ← hsum, ← Multiset.coe_add, add_assoc, add_comm (State.working _)]
    rfl
  received := by
    have hsum := unreceived_setConsumer s i { s.consumer i with pc := .jobs }
    have hnew : ({ s.consumer i with pc := .jobs } : Consumer).unreceived = 0 :=
      unreceived_of_pc rfl rfl
    rw [unreceived_of_pc hpc rfl, hnew] at hsum
    show s.receiveCount + (s.goto i .jobs).unreceived = s.popped.length
    rw [State.goto, add_right_cancel hsum]
    exact h.received
  complete := by
    show s.completeCount + 1 = (s.completed ++ [_]).length
    rw [h.complete, List.length_append, List.length_singleton]

theorem Accounts.consumerMove {i : Fin n} (h : Accounts input s) (hs : ConsumerMove s i s') :
    Accounts input s' := by
  cases hs with
  | pop hpc hbuffer => exact h.pop hpc hbuffer
  | receive hpc => exact h.receive hpc
  | complete hpc => exact h.complete_step hpc
  | signal hpc =>
    exact h.quiet_consumer hpc rfl rfl rfl rfl rfl (pending_wakeProducer s) (counted_wakeProducer s)
  | enter hpc =>
    rcases hpc with hpc | hpc
    · exact h.quiet_consumer hpc rfl rfl rfl rfl rfl rfl rfl
    · exact h.quiet_consumer hpc rfl rfl rfl rfl rfl rfl rfl
  | start hpc | bump hpc | run hpc | idle hpc | ask hpc | empty hpc | item hpc | leave hpc
  | sleep hpc | block hpc | release hpc | exit hpc | unlock hpc | jobs hpc | record hpc =>
    exact h.quiet_consumer hpc rfl rfl rfl rfl rfl rfl rfl

/-! ### The producer -/

theorem tasks_cons (command : Text) (rest : List Text) :
    tasks (command :: rest) =
      (if command.head? = some 'T' then [command] else []) ++ tasks rest := by
  unfold tasks
  rw [List.filter_cons]
  split_ifs with h1 h2 h2 <;> simp_all

/-- The producer reads a line. -/
theorem Accounts.readLine (h : Accounts input s) (hpc : s.producer = .getline) {command : Text}
    {rest : List Text} (hinput : s.input = command :: rest) :
    Accounts input (s.readLine command rest) where
  lines := by
    have hlines := h.lines
    rw [hinput, tasks_cons] at hlines
    have hpending : s.pending = [] := by simp [State.pending, hpc, ProducerPc.holds]
    have hread : (s.readLine command rest).pending =
        if command.head? = some 'T' then [command] else [] := by
      unfold State.pending State.readLine
      split_ifs with h1 h2 h3 <;> simp_all [ProducerPc.holds]
    rw [hread]
    rw [hpending, List.nil_append] at hlines
    exact hlines
  queue := h.queue
  work := by
    have hwork := h.work
    have hcounted : (s.readLine command rest).producer.counted = false := by
      unfold State.readLine
      split_ifs <;> rfl
    rw [hcounted]
    rw [hpc] at hwork
    exact hwork
  held := h.held
  received := h.received
  complete := h.complete

/-- The producer counts its command. -/
theorem Accounts.countWork (h : Accounts input s) (hpc : s.producer = .work) :
    Accounts input { s with workCount := s.workCount + 1, producer := .lock } where
  lines := by
    have hlines := h.lines
    rw [State.pending, hpc] at hlines
    exact hlines
  queue := h.queue
  work := by
    have hwork := h.work
    rw [hpc] at hwork
    show s.workCount + 1 = s.pushed.length + 1
    rw [hwork]
    rfl
  held := h.held
  received := h.received
  complete := h.complete

/-- The producer pushes its command. -/
theorem Accounts.push (h : Accounts input s) (hpc : s.producer = .push) :
    Accounts input { s with
      buffer := s.buffer ++ [s.command], pushed := s.pushed ++ [s.command],
      producer := .signal } where
  lines := by
    have hlines := h.lines
    rw [State.pending, hpc] at hlines
    rw [← hlines]
    simp [State.pending, ProducerPc.holds]
  queue := by
    show s.popped ++ (s.buffer ++ [s.command]) = s.pushed ++ [s.command]
    rw [← List.append_assoc, h.queue]
  work := by
    have hwork := h.work
    rw [hpc] at hwork
    show s.workCount = (s.pushed ++ [s.command]).length + 0
    rw [List.length_append]
    exact hwork
  held := h.held
  received := h.received
  complete := h.complete

/-- Waking a consumer moves no command. -/
theorem working_woken {i : Fin n} (hi : s.At i .blocked) : (s.goto i .woken).working = s.working :=
  sum_update_same Consumer.held s.consumer (by rw [held_of_pc hi rfl, held_of_pc rfl rfl])

theorem unreceived_woken {i : Fin n} (hi : s.At i .blocked) :
    (s.goto i .woken).unreceived = s.unreceived :=
  sum_update_same Consumer.unreceived s.consumer
    (by rw [unreceived_of_pc hi rfl, unreceived_of_pc rfl rfl])

theorem working_wakeAll (s : State n) : s.wakeAll.working = s.working := by
  refine Finset.sum_congr rfl fun i _ => ?_
  by_cases hb : s.At i .blocked
  · have hwoken : ({ s.consumer i with pc := .woken } : Consumer).held = 0 := held_of_pc rfl rfl
    simp [State.wakeAll, hb, hwoken, held_of_pc hb rfl]
  · simp [State.wakeAll, hb]

theorem unreceived_wakeAll (s : State n) : s.wakeAll.unreceived = s.unreceived := by
  refine Finset.sum_congr rfl fun i _ => ?_
  by_cases hb : s.At i .blocked
  · have hwoken : ({ s.consumer i with pc := .woken } : Consumer).unreceived = 0 :=
      unreceived_of_pc rfl rfl
    simp [State.wakeAll, hb, hwoken, unreceived_of_pc hb rfl]
  · simp [State.wakeAll, hb]

theorem Accounts.producerMove (h : Accounts input s) (hs : ProducerMove s s') :
    Accounts input s' := by
  cases hs with
  | line hpc hinput => exact h.readLine hpc hinput
  | work hpc => exact h.countWork hpc
  | push hpc => exact h.push hpc
  | enter hpc =>
    rcases hpc with hpc | hpc
    · exact h.quiet_producer hpc rfl rfl rfl rfl rfl
    · exact h.quiet_producer hpc rfl rfl rfl rfl rfl
  | signalConsumer i hpc hi =>
    refine h.quiet rfl ?_ ?_ (working_woken hi) (unreceived_woken hi)
    · simp [State.pending, hpc, ProducerPc.holds]
    · rw [hpc]
      rfl
  | broadcast hpc =>
    refine h.quiet rfl ?_ ?_ (working_wakeAll s) (unreceived_wakeAll s)
    · simp [State.pending, hpc, ProducerPc.holds]
    · rw [hpc]
      rfl
  | start hpc | eof hpc | full hpc | room hpc | block hpc | signalNobody hpc | unlock hpc
  | sleep hpc | setDone hpc | enterLast hpc | unlockEnd hpc | clear hpc =>
    exact h.quiet_producer hpc rfl rfl rfl rfl rfl

/-! ### All steps -/

theorem Accounts.spuriousMove (h : Accounts input s) (hs : SpuriousMove s s') :
    Accounts input s' := by
  cases hs with
  | producer hb => exact h.quiet_producer hb rfl rfl rfl rfl rfl
  | consumer i hb => exact h.quiet rfl rfl rfl (working_woken hb) (unreceived_woken hb)

theorem Accounts.mainMove (h : Accounts input s) (hs : MainMove s s') : Accounts input s' := by
  cases hs with
  | producer pc threads hp => exact h.quiet_producer hp rfl rfl rfl rfl rfl
  | consumer i pc threads hi => exact h.quiet_consumer hi rfl rfl rfl rfl rfl rfl rfl
  | control pc => exact h.quiet rfl rfl rfl rfl rfl

theorem Accounts.step {a : Action n} (h : Accounts input s) (hh : Handles s)
    (hs : step s a = some s') : Accounts input s' := by
  cases move_of_step hh hs with
  | main hmove => exact h.mainMove hmove
  | producer hmove => exact h.producerMove hmove
  | consumer i hmove => exact h.consumerMove hmove
  | spurious hmove => exact h.spuriousMove hmove

theorem accounts_of_reachable (h : (system n input).Reachable s) : Accounts input s :=
  h.invariant (by rintro _ rfl; exact accounts_initState) fun _ _ _ hr ha hs =>
    ha.step (handles_of_reachable hr) hs

end Cmput379.Prodcon
