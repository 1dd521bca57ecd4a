import Cmput379.Prodcon.Threads

/-!
# No lost wake-up in prodcon

The threads of prodcon follow the protocol of `Cmput379.Lib.Monitor`, with the
threads' program counters as places.

* `monitor_step`: every step is a step of the protocol, or does not show in it.
* `noLostWakeup`: while the mutex is free, a producer sleeps only on a full buffer,
  consumers sleep only while others that are awake suffice for the buffer, and
  none sleeps after the final broadcast.
-/

namespace Cmput379.Prodcon

open Cmput379.Lib

variable {n : ℕ} {input : List Text} {s s' : State n}

/-! ## The protocol prodcon follows -/

/-- Where a producer at this statement is. -/
def ProducerPc.place : ProducerPc → Place
  | .test => .test
  | .wait => .wait
  | .blocked => .blocked
  | .woken => .woken
  | .push => .granted
  | .signal => .signal
  | .unlock | .unlockEnd => .release
  | .lockEnd => .last
  | .broadcast => .announce
  | .uncreated | .start | .getline | .work | .lock | .sleep | .setDone | .clear | .finished =>
    .outside

/-- The producer's final broadcast has happened. -/
def ProducerPc.hasBroadcast : ProducerPc → Bool
  | .unlockEnd | .clear | .finished => true
  | _ => false

/-- Where a consumer at this statement is. -/
def ConsumerPc.place : ConsumerPc → Place
  | .test => .test
  | .checkDone => .refused
  | .wait => .wait
  | .blocked => .blocked
  | .woken => .woken
  | .pop => .granted
  | .signal => .signal
  | .unlock | .leave => .release
  | .uncreated | .start | .bump | .loop | .ask | .lock | .exit | .receive | .complete | .jobs
  | .record | .returned => .outside

theorem ConsumerPc.place_eq_blocked (pc : ConsumerPc) : pc.place = .blocked ↔ pc = .blocked := by
  cases pc <;> simp [place]

theorem ConsumerPc.place_eq_woken (pc : ConsumerPc) : pc.place = .woken ↔ pc = .woken := by
  cases pc <;> simp [place]

namespace State

/-- What the protocol sees of a state. -/
def monitor (s : State n) : Monitor (Fin n) where
  place
    | .producer => s.producer.place
    | .consumer i => (s.consumer i).pc.place
  mutex := s.mutex
  size := s.buffer.length
  done := s.done
  announced := s.producer.hasBroadcast

/-- The producer moves. -/
theorem monitor_of_producer (hconsumer : s'.consumer = s.consumer)
    (hbroadcast : s'.producer.hasBroadcast = s.producer.hasBroadcast) :
    s'.monitor = { s.monitor.put .producer s'.producer.place with
      mutex := s'.mutex, size := s'.buffer.length, done := s'.done } := by
  refine Monitor.ext ?_ rfl rfl rfl (by simp [monitor, hbroadcast])
  funext t
  cases t with
  | producer => simp [monitor, Monitor.put]
  | consumer i => simp [monitor, Monitor.put, hconsumer]

/-- Consumer `i` moves. -/
theorem monitor_of_consumer {i : Fin n} {c : Consumer} (hproducer : s'.producer = s.producer)
    (hconsumer : s'.consumer = Function.update s.consumer i c) :
    s'.monitor = { s.monitor.put (.consumer i) c.pc.place with
      mutex := s'.mutex, size := s'.buffer.length, done := s'.done } := by
  refine Monitor.ext ?_ rfl rfl rfl (by simp [monitor, hproducer])
  funext t
  cases t with
  | producer => simp [monitor, Monitor.put, hproducer]
  | consumer j =>
    simp only [monitor, Monitor.put, hconsumer, Function.update_apply, Thread.consumer.injEq]
    split_ifs <;> rfl

theorem goto_monitor (s : State n) (i : Fin n) (pc : ConsumerPc) :
    (s.goto i pc).monitor = s.monitor.put (.consumer i) pc.place := by
  have hmonitor : (s.goto i pc).monitor = _ := monitor_of_consumer (s := s) rfl rfl
  exact hmonitor

theorem wakeProducer_monitor (s : State n) :
    s.wakeProducer.monitor = s.monitor.put .producer
      (if s.monitor.place .producer = .blocked then .woken else s.monitor.place .producer) := by
  have hplace : s.wakeProducer.producer.place =
      if s.producer.place = .blocked then .woken else s.producer.place := by
    cases hp : s.producer <;> simp [wakeProducer, hp, ProducerPc.place]
  have hbroadcast : s.wakeProducer.producer.hasBroadcast = s.producer.hasBroadcast := by
    cases hp : s.producer <;> simp [wakeProducer, hp, ProducerPc.hasBroadcast]
  have hmonitor : s.wakeProducer.monitor = _ := monitor_of_producer (s := s) rfl hbroadcast
  rw [hmonitor, hplace]
  rfl

/-- The broadcast wakes every blocked consumer. -/
theorem broadcast_monitor (s : State n) :
    ({ s.wakeAll with producer := .unlockEnd } : State n).monitor = { s.monitor with
      place := Function.update
        (fun t => if s.monitor.place t = .blocked then .woken else s.monitor.place t)
        .producer .release
      announced := true } := by
  refine Monitor.ext ?_ rfl rfl rfl rfl
  funext t
  cases t with
  | producer => simp [monitor, ProducerPc.place]
  | consumer i =>
    have hplace : s.monitor.place (.consumer i) = (s.consumer i).pc.place := rfl
    by_cases hb : s.At i .blocked
    · have hpc : (s.consumer i).pc = .blocked := hb
      simp [monitor, wakeAll, hb, hpc, ConsumerPc.place]
    · have hne : ¬ (s.consumer i).pc.place = .blocked :=
        fun hplace => hb ((ConsumerPc.place_eq_blocked _).mp hplace)
      simp [monitor, wakeAll, hb, hne]

/-- The producer moves outside the critical section. -/
theorem monitor_quiet_producer {pc : ProducerPc} (hpc : s.producer = pc)
    (hconsumer : s'.consumer = s.consumer) (hmutex : s'.mutex = s.mutex)
    (hbuffer : s'.buffer = s.buffer) (hdone : s'.done = s.done)
    (hplace : pc.place = s'.producer.place)
    (hbroadcast : s'.producer.hasBroadcast = pc.hasBroadcast) : s'.monitor = s.monitor := by
  subst hpc
  rw [monitor_of_producer hconsumer hbroadcast, hmutex, hbuffer, hdone]
  exact Monitor.put_self _ _ _ hplace

/-- A consumer moves outside the critical section. -/
theorem monitor_quiet_consumer {i : Fin n} {pc : ConsumerPc} {c : Consumer} (hpc : s.At i pc)
    (hproducer : s'.producer = s.producer)
    (hconsumer : s'.consumer = Function.update s.consumer i c) (hmutex : s'.mutex = s.mutex)
    (hbuffer : s'.buffer = s.buffer) (hdone : s'.done = s.done)
    (hplace : pc.place = c.pc.place) : s'.monitor = s.monitor := by
  subst hpc
  rw [monitor_of_consumer hproducer hconsumer, hmutex, hbuffer, hdone]
  exact Monitor.put_self _ _ _ hplace

theorem step_of_producer {cap : ℕ} {pc : ProducerPc} (hpc : s.producer = pc)
    (hconsumer : s'.consumer = s.consumer)
    (hbroadcast : s'.producer.hasBroadcast = pc.hasBroadcast)
    (hstep : Monitor.Step cap s.monitor { s.monitor.put .producer s'.producer.place with
      mutex := s'.mutex, size := s'.buffer.length, done := s'.done }) :
    Monitor.Step cap s.monitor s'.monitor := by
  subst hpc
  rw [monitor_of_producer hconsumer hbroadcast]
  exact hstep

theorem step_of_consumer {cap : ℕ} {i : Fin n} {c : Consumer} (hproducer : s'.producer = s.producer)
    (hconsumer : s'.consumer = Function.update s.consumer i c)
    (hstep : Monitor.Step cap s.monitor { s.monitor.put (.consumer i) c.pc.place with
      mutex := s'.mutex, size := s'.buffer.length, done := s'.done }) :
    Monitor.Step cap s.monitor s'.monitor := by
  rw [monitor_of_consumer hproducer hconsumer]
  exact hstep

end State

/-! ## The steps of prodcon in the protocol -/

/-- A step of the protocol, or one that does not show in it. -/
def Follows (s s' : State n) : Prop :=
  s'.monitor = s.monitor ∨ Monitor.Step (maxbuffer n) s.monitor s'.monitor

theorem ConsumerMove.follows {i : Fin n} (h : ConsumerMove s i s') : Follows s s' := by
  have hat : ∀ {pc : ConsumerPc}, s.At i pc → s.monitor.place (.consumer i) = pc.place :=
    fun hpc => congrArg ConsumerPc.place hpc
  cases h with
  | start hpc | bump hpc | run hpc | idle hpc | ask hpc | exit hpc | receive hpc | complete hpc
  | jobs hpc | record hpc =>
    exact .inl (State.monitor_quiet_consumer hpc rfl rfl rfl rfl rfl rfl)
  | enter hpc hfree =>
    refine .inr (State.step_of_consumer rfl rfl (.enter (.consumer i) ?_ hfree))
    exact hpc.imp hat hat
  | empty hpc hempty =>
    exact .inr (State.step_of_consumer rfl rfl (.empty i (hat hpc) (congrArg List.length hempty)))
  | item hpc hitem =>
    exact .inr (State.step_of_consumer rfl rfl (.item i (hat hpc) (List.length_pos_iff.mpr hitem)))
  | leave hpc hdone => exact .inr (State.step_of_consumer rfl rfl (.leave i (hat hpc) hdone))
  | sleep hpc hdone => exact .inr (State.step_of_consumer rfl rfl (.sleep i (hat hpc) hdone))
  | block hpc => exact .inr (State.step_of_consumer rfl rfl (.block (.consumer i) (hat hpc)))
  | release hpc | unlock hpc =>
    exact .inr (State.step_of_consumer rfl rfl (.release (.consumer i) (hat hpc)))
  | @pop command rest hpc hbuffer =>
    have hsize : s.monitor.size - 1 = rest.length := by simp [State.monitor, hbuffer]
    have hstep : Monitor.Step (maxbuffer n) s.monitor _ := .pop i (hat hpc)
    rw [hsize] at hstep
    exact .inr (State.step_of_consumer rfl rfl hstep)
  | signal hpc =>
    right
    rw [State.goto_monitor, State.wakeProducer_monitor]
    exact .signalProducer i (hat hpc)

theorem ProducerMove.follows (h : ProducerMove s s') : Follows s s' := by
  have hat : ∀ {pc : ProducerPc}, s.producer = pc → s.monitor.place .producer = pc.place :=
    fun hpc => congrArg ProducerPc.place hpc
  cases h with
  | start hpc | eof hpc | work hpc | sleep hpc | clear hpc =>
    exact .inl (State.monitor_quiet_producer hpc rfl rfl rfl rfl rfl rfl)
  | @line command rest hpc hinput =>
    have hread : (s.readLine command rest).producer.place = .outside ∧
        (s.readLine command rest).producer.hasBroadcast = false := by
      dsimp only [State.readLine]
      split_ifs <;> exact ⟨rfl, rfl⟩
    exact .inl (State.monitor_quiet_producer hpc rfl rfl rfl rfl hread.1.symm hread.2)
  | enter hpc hfree =>
    rcases hpc with hpc | hpc
    · exact .inr (State.step_of_producer hpc rfl rfl (.enter .producer (.inl (hat hpc)) hfree))
    · exact .inr (State.step_of_producer hpc rfl rfl (.enter .producer (.inr (hat hpc)) hfree))
  | full hpc hfull => exact .inr (State.step_of_producer hpc rfl rfl (.full (hat hpc) hfull))
  | room hpc hroom => exact .inr (State.step_of_producer hpc rfl rfl (.room (hat hpc) hroom))
  | block hpc => exact .inr (State.step_of_producer hpc rfl rfl (.block .producer (hat hpc)))
  | push hpc =>
    have hsize : s.monitor.size + 1 = (s.buffer ++ [s.command]).length := by simp [State.monitor]
    have hstep : Monitor.Step (maxbuffer n) s.monitor _ := .push (hat hpc)
    rw [hsize] at hstep
    exact .inr (State.step_of_producer hpc rfl rfl hstep)
  | signalConsumer i hpc hi =>
    have hmoved : ({ s.goto i .woken with producer := .unlock } : State n).monitor = _ :=
      State.monitor_of_producer (s := s.goto i .woken) rfl
        (congrArg ProducerPc.hasBroadcast hpc).symm
    right
    rw [hmoved, State.goto_monitor]
    exact .signalConsumer i (hat hpc) ((ConsumerPc.place_eq_blocked _).mpr hi)
  | signalNobody hpc hnone =>
    refine .inr (State.step_of_producer hpc rfl rfl (.signalNobody (hat hpc) ?_))
    intro i hi
    exact hnone i ((ConsumerPc.place_eq_blocked _).mp hi)
  | unlock hpc | unlockEnd hpc =>
    exact .inr (State.step_of_producer hpc rfl rfl (.release .producer (hat hpc)))
  | setDone hpc => exact .inr (State.step_of_producer hpc rfl rfl (.finish (hat hpc)))
  | enterLast hpc hfree =>
    exact .inr (State.step_of_producer hpc rfl rfl (.enterLast (hat hpc) hfree))
  | broadcast hpc =>
    right
    rw [State.broadcast_monitor]
    exact .announce (hat hpc)

theorem SpuriousMove.follows (h : SpuriousMove s s') : Follows s s' := by
  right
  cases h with
  | producer hb =>
    refine State.step_of_producer hb rfl rfl ?_
    exact .wakeup .producer (congrArg ProducerPc.place hb)
  | consumer i hb =>
    refine State.step_of_consumer rfl rfl ?_
    exact .wakeup (.consumer i) ((ConsumerPc.place_eq_blocked _).mpr hb)

/-- A thread that has just been created is outside the critical section. -/
theorem MainMove.monitor_eq (h : MainMove s s') : s'.monitor = s.monitor := by
  cases h with
  | producer pc threads hp =>
    exact State.monitor_quiet_producer hp rfl rfl rfl rfl rfl rfl
  | consumer i pc threads hi =>
    exact State.monitor_quiet_consumer hi rfl rfl rfl rfl rfl rfl
  | control pc => rfl

/-- Every step of prodcon is a step of the protocol, or does not show in it. -/
theorem monitor_step {a : Action n} (hh : Handles s) (h : step s a = some s') :
    Follows s s' := by
  cases move_of_step hh h with
  | main hmove => exact .inl hmove.monitor_eq
  | producer hmove => exact hmove.follows
  | consumer i hmove => exact hmove.follows
  | spurious hmove => exact hmove.follows

theorem monitorOk_of_reachable (h : (system n input).Reachable s) :
    s.monitor.Ok (maxbuffer n) := by
  refine h.invariant (I := fun s => s.monitor.Ok (maxbuffer n)) ?_ ?_
  · rintro _ rfl
    refine Monitor.Ok.init (fun t => ?_) rfl rfl rfl
    cases t <;> rfl
  · intro s a s' hs hok hstep
    rcases monitor_step (handles_of_reachable hs) hstep with heq | hmove
    · rw [heq]
      exact hok
    · exact hok.step hmove

/-! ## No lost wake-up -/

/-- No thread sleeps for want of a wake-up. -/
structure NoLostWakeup (input : List Text) (s : State n) : Prop where
  producer : s.mutex = none → s.producer = .blocked → maxbuffer n ≤ s.buffer.length
  consumers : s.mutex = none → (∃ i, s.At i .blocked) →
    s.buffer.length ≤ (Finset.univ.filter fun i => s.At i .woken).card
  broadcast : s.producer.hasBroadcast = true →
    ∀ tr s', (system n input).Run s tr s' → ∀ i, ¬ s'.At i .blocked

theorem hasBroadcast_step {a : Action n} (hh : Handles s) (h : step s a = some s')
    (hb : s.producer.hasBroadcast = true) : s'.producer.hasBroadcast = true := by
  show s'.monitor.announced = true
  rcases monitor_step hh h with heq | hmove
  · rw [heq]
    exact hb
  · exact hmove.announced_mono hb

theorem hasBroadcast_run (h : (system n input).Reachable s)
    (hb : s.producer.hasBroadcast = true) {tr : List (State n × Action n)}
    (hr : (system n input).Run s tr s') : s'.producer.hasBroadcast = true := by
  induction hr with
  | nil => exact hb
  | snoc hr hstep ih => exact hasBroadcast_step (handles_of_reachable (h.run hr)) hstep ih

/-- In every reachable state of prodcon, no thread sleeps for want of a wake-up. -/
theorem noLostWakeup (h : (system n input).Reachable s) : NoLostWakeup input s where
  producer hfree hb := by
    apply (monitorOk_of_reachable h).producer_of_free hfree
    show s.producer.place = .blocked
    rw [hb]
    rfl
  consumers := by
    rintro hfree ⟨i, hi⟩
    have hle := (monitorOk_of_reachable h).consumers_of_free hfree
      ⟨i, (ConsumerPc.place_eq_blocked _).mpr hi⟩
    have hwoken : ∀ j, s.monitor.place (.consumer j) = .woken ↔ s.At j .woken :=
      fun j => ConsumerPc.place_eq_woken _
    show s.monitor.size ≤ _
    simpa only [hwoken] using hle
  broadcast := by
    intro hb tr s' hr i hi
    have hall : s'.monitor.announced = true := hasBroadcast_run h hb hr
    exact ((monitorOk_of_reachable (h.run hr)).announced hall i).2
      ((ConsumerPc.place_eq_blocked _).mpr hi)

/-! ## Two consumers -/

def first : Fin 2 := ⟨0, Nat.two_pos⟩

def second : Fin 2 := ⟨1, Nat.one_lt_two⟩

/-- Two consumers sleep; the producer pushes a line and wakes the first. -/
def oneAwake : List (Action 2) :=
  [.main, .main, .main, .producer none, .consumer 0, .consumer 0, .consumer 0, .consumer 0,
    .consumer 0, .consumer 0, .consumer 0, .consumer 0, .consumer 1, .consumer 1, .consumer 1,
    .consumer 1, .consumer 1, .consumer 1, .consumer 1, .consumer 1, .producer none,
    .producer none, .producer none, .producer none, .producer none, .producer (some 0),
    .producer none]

/-- One item is in the buffer, and one consumer is awake. -/
theorem noLostWakeup_oneAwake : ∃ s, (system 2 [['T', '1']]).exec (initState 2 [['T', '1']])
    oneAwake = some s ∧ s.mutex = none ∧ s.At 1 .blocked ∧ s.buffer = [['T', '1']] ∧
      NoLostWakeup [['T', '1']] s := by
  have hrun : ((system 2 [['T', '1']]).exec (initState 2 [['T', '1']]) oneAwake).map
      (fun s => (s.mutex, (s.consumer 1).pc, s.buffer)) =
      some (none, .blocked, [['T', '1']]) := by
    decide +kernel
  obtain ⟨s, hexec, hview⟩ := Option.map_eq_some_iff.mp hrun
  simp only [Prod.mk.injEq] at hview
  exact ⟨s, hexec, hview.1, hview.2.1, hview.2.2, noLostWakeup (System.Reachable.of_exec rfl hexec)⟩

end Cmput379.Prodcon
