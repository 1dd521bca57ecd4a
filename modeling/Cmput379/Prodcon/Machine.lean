import Mathlib.Data.Fintype.Basic
import Mathlib.Logic.Function.Basic
import Cmput379.Lib.Run
import Cmput379.Lib.Text
import Cmput379.Lib.Monitor

/-!
# prodcon

The producer, `n` consumers and `main` of `Assignment_2/f22/main.cpp` as one
transition system. A step is one statement of one thread; every interleaving of
such steps is a run. `pthread_cond_wait` takes three steps: it releases the mutex
and blocks, it is woken, and it acquires the mutex again. A signal wakes one of
the threads blocked on its condition, if there is one; a blocked thread may also
wake up by itself.

The increments of the shared counters are taken as atomic, although most are made
without the mutex; the counters are `int`s, and there are fewer than 2^31 commands.

What a thread prints is in `Cmput379.Prodcon.Log`; how long it sleeps or works is
left out. The lists `pushed`, `popped` and `completed` are not part of the program;
they only record what happened.
-/

namespace Cmput379.Prodcon

open Cmput379.Lib

/-- The statement `main` executes next (lines 243-257): creating the producer,
    creating consumer `i`, joining `threads[i]`, the call of `output_stats`. -/
inductive MainPc
  | createProducer
  | create (i : ℕ)
  | join (i : ℕ)
  | report
  | finished
  deriving DecidableEq

/-- The statement the producer executes next (lines 60-127). -/
inductive ProducerPc
  | uncreated
  | start
  | getline
  | work
  | lock
  | test
  | wait
  | blocked
  | woken
  | push
  | signal
  | unlock
  | sleep
  | setDone
  | lockEnd
  | broadcast
  | unlockEnd
  | clear
  | finished
  deriving DecidableEq

/-- The statement a consumer executes next (lines 132-206). -/
inductive ConsumerPc
  | uncreated
  | start
  | bump
  | loop
  | ask
  | lock
  | test
  | checkDone
  | wait
  | blocked
  | woken
  | leave
  | exit
  | pop
  | signal
  | unlock
  | receive
  | complete
  | jobs
  | record
  | returned
  deriving DecidableEq

/-- A consumer with its local variables. -/
structure Consumer where
  pc : ConsumerPc
  id : ℕ
  command : Text
  jobsComplete : ℕ

/-- The threads, the mutex of `buffer_control` and the global variables. -/
structure State (n : ℕ) where
  main : MainPc
  threads : ℕ → Option (Thread (Fin n))
  producer : ProducerPc
  command : Text
  consumer : Fin n → Consumer
  input : List Text
  mutex : Option (Thread (Fin n))
  buffer : List Text
  inProgress : Bool
  done : Bool
  consumeThreads : ℕ
  workCount : ℕ
  askCount : ℕ
  receiveCount : ℕ
  completeCount : ℕ
  sleepCount : ℕ
  threadCompletedTasks : ℕ → ℕ
  pushed : List Text
  popped : List Text
  completed : List Text

/-- `maxbuffer` (line 232). -/
def maxbuffer (n : ℕ) : ℕ := n * 2

/-- The state before the threads are created. -/
def initState (n : ℕ) (input : List Text) : State n where
  main := .createProducer
  threads := fun _ => none
  producer := .uncreated
  command := []
  consumer := fun _ => { pc := .uncreated, id := 0, command := [], jobsComplete := 0 }
  input := input
  mutex := none
  buffer := []
  inProgress := false
  done := false
  consumeThreads := 1
  workCount := 0
  askCount := 0
  receiveCount := 0
  completeCount := 0
  sleepCount := 0
  threadCompletedTasks := fun _ => 0
  pushed := []
  popped := []
  completed := []

variable {n : ℕ}

namespace State

/-- Consumer `i` is at the statement `pc`. -/
def At (s : State n) (i : Fin n) (pc : ConsumerPc) : Prop := (s.consumer i).pc = pc

instance (s : State n) (i : Fin n) (pc : ConsumerPc) : Decidable (s.At i pc) :=
  inferInstanceAs (Decidable ((s.consumer i).pc = pc))

/-- Consumer `i` becomes `c`. -/
def setConsumer (s : State n) (i : Fin n) (c : Consumer) : State n :=
  { s with consumer := Function.update s.consumer i c }

/-- Consumer `i` goes to the statement `pc`. -/
def goto (s : State n) (i : Fin n) (pc : ConsumerPc) : State n :=
  s.setConsumer i { s.consumer i with pc }

/-- The thread has returned. -/
def Ended (s : State n) : Thread (Fin n) → Prop
  | .producer => s.producer = .finished
  | .consumer i => s.At i .returned

instance (s : State n) : (t : Thread (Fin n)) → Decidable (s.Ended t)
  | .producer => inferInstanceAs (Decidable (s.producer = .finished))
  | .consumer i => inferInstanceAs (Decidable (s.At i .returned))

/-- `pthread_cond_signal(&buffer_control.decrement)`. -/
def wakeProducer (s : State n) : State n :=
  { s with producer := if s.producer = .blocked then .woken else s.producer }

/-- `pthread_cond_broadcast(&buffer_control.increment)`. -/
def wakeAll (s : State n) : State n :=
  { s with
    consumer := fun i =>
      if s.At i .blocked then { s.consumer i with pc := .woken } else s.consumer i }

/-- A line read by `getline` (lines 67-113): its first character decides. -/
def readLine (s : State n) (command : Text) (rest : List Text) : State n :=
  { s with
    input := rest
    command
    producer :=
      if command.head? = some 'T' then .work
      else if command.head? = some 'S' then .sleep
      else .getline }

/-- One statement of the producer; `woken` is the consumer its signal wakes. -/
def producerStep (s : State n) (woken : Option (Fin n)) : Option (State n) :=
  match s.producer with
  | .uncreated => none
  | .start => some { s with inProgress := true, producer := .getline }
  | .getline =>
    match s.input with
    | [] => some { s with producer := .setDone }
    | command :: rest => some (s.readLine command rest)
  | .work => some { s with workCount := s.workCount + 1, producer := .lock }
  | .lock =>
    if s.mutex = none then some { s with mutex := some .producer, producer := .test } else none
  | .test =>
    if maxbuffer n ≤ s.buffer.length then some { s with producer := .wait }
    else some { s with producer := .push }
  | .wait => some { s with mutex := none, producer := .blocked }
  | .blocked => none
  | .woken =>
    if s.mutex = none then some { s with mutex := some .producer, producer := .test } else none
  | .push =>
    some { s with
      buffer := s.buffer ++ [s.command], pushed := s.pushed ++ [s.command], producer := .signal }
  | .signal =>
    match woken with
    | some i =>
      if s.At i .blocked then some { s.goto i .woken with producer := .unlock } else none
    | none =>
      if ∃ i, s.At i .blocked then none else some { s with producer := .unlock }
  | .unlock => some { s with mutex := none, producer := .getline }
  | .sleep => some { s with sleepCount := s.sleepCount + 1, producer := .getline }
  | .setDone => some { s with done := true, producer := .lockEnd }
  | .lockEnd =>
    if s.mutex = none then some { s with mutex := some .producer, producer := .broadcast }
    else none
  | .broadcast => some { s.wakeAll with producer := .unlockEnd }
  | .unlockEnd => some { s with mutex := none, producer := .clear }
  | .clear => some { s with inProgress := false, producer := .finished }
  | .finished => none

/-- One statement of consumer `i`. -/
def consumerStep (s : State n) (i : Fin n) : Option (State n) :=
  let c := s.consumer i
  match c.pc with
  | .uncreated => none
  | .start =>
    some (s.setConsumer i { c with id := s.consumeThreads, jobsComplete := 0, pc := .bump })
  | .bump => some { s.goto i .loop with consumeThreads := s.consumeThreads + 1 }
  | .loop => if s.inProgress then some (s.goto i .ask) else some (s.goto i .exit)
  | .ask => some { s.goto i .lock with askCount := s.askCount + 1 }
  | .lock =>
    if s.mutex = none then some { s.goto i .test with mutex := some (.consumer i) } else none
  | .test => if s.buffer = [] then some (s.goto i .checkDone) else some (s.goto i .pop)
  | .checkDone => if s.done then some (s.goto i .leave) else some (s.goto i .wait)
  | .wait => some { s.goto i .blocked with mutex := none }
  | .blocked => none
  | .woken =>
    if s.mutex = none then some { s.goto i .test with mutex := some (.consumer i) } else none
  | .leave => some { s.goto i .exit with mutex := none }
  | .exit => some (s.goto i .returned)
  | .pop =>
    match s.buffer with
    -- `front` of an empty queue is undefined
    | [] => none
    | command :: rest =>
      some { s.setConsumer i { c with command, pc := .signal } with
        buffer := rest, popped := s.popped ++ [command] }
  | .signal => some (s.wakeProducer.goto i .unlock)
  | .unlock => some { s.goto i .receive with mutex := none }
  | .receive => some { s.goto i .complete with receiveCount := s.receiveCount + 1 }
  | .complete =>
    some { s.goto i .jobs with
      completeCount := s.completeCount + 1, completed := s.completed ++ [c.command] }
  | .jobs => some (s.setConsumer i { c with jobsComplete := c.jobsComplete + 1, pc := .record })
  | .record =>
    some { s.goto i .loop with
      threadCompletedTasks := Function.update s.threadCompletedTasks c.id c.jobsComplete }
  | .returned => none

/-- One statement of `main`. The handle of the producer and that of the first
    consumer go to the same element of `threads`. -/
def mainStep (s : State n) : Option (State n) :=
  match s.main with
  | .createProducer =>
    some { s with
      threads := Function.update s.threads 0 (some .producer), producer := .start
      main := .create 0 }
  | .create i =>
    if h : i < n then
      some { s.goto ⟨i, h⟩ .start with
        threads := Function.update s.threads i (some (.consumer ⟨i, h⟩)), main := .create (i + 1) }
    else some { s with main := .join 0 }
  | .join i =>
    if i < n then
      match s.threads i with
      | some t => if s.Ended t then some { s with main := .join (i + 1) } else none
      | none => none
    else some { s with main := .report }
  | .report => some { s with main := .finished }
  | .finished => none

/-- A blocked thread wakes up by itself. -/
def spuriousWakeup (s : State n) : Thread (Fin n) → Option (State n)
  | .producer => if s.producer = .blocked then some { s with producer := .woken } else none
  | .consumer i => if s.At i .blocked then some (s.goto i .woken) else none

end State

/-- Which thread moves. -/
inductive Action (n : ℕ)
  | main
  | producer (woken : Option (Fin n))
  | consumer (i : Fin n)
  | spurious (t : Thread (Fin n))
  deriving DecidableEq

/-- The step an action stands for. When `main` has returned, nothing moves. -/
def step (s : State n) (a : Action n) : Option (State n) :=
  if s.main = .finished then none
  else
    match a with
    | .main => s.mainStep
    | .producer woken => s.producerStep woken
    | .consumer i => s.consumerStep i
    | .spurious t => s.spuriousWakeup t

/-- prodcon with `n` consumers on `input`. -/
def system (n : ℕ) (input : List Text) : System (State n) (Action n) where
  init s := s = initState n input
  step := step

end Cmput379.Prodcon
