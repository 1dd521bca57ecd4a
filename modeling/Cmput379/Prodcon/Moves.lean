import Cmput379.Prodcon.Machine

/-!
# What a step of prodcon can do

* `ConsumerMove`, `ProducerMove`, `SpuriousMove`: the statements of a consumer and
  of the producer, and the spurious wake-ups, with the state each leads to.
* `ConsumerFrame`, `ProducerFrame`: what they leave as it is.
-/

namespace Cmput379.Prodcon

open Cmput379.Lib

variable {n : ℕ} {s s' : State n}

/-! ## Consumers -/

/-- What consumer `i` can do. -/
inductive ConsumerMove (s : State n) (i : Fin n) : State n → Prop
  | start (hpc : s.At i .start) :
      ConsumerMove s i (s.setConsumer i
        { s.consumer i with id := s.consumeThreads, jobsComplete := 0, pc := .bump })
  | bump (hpc : s.At i .bump) :
      ConsumerMove s i { s.goto i .loop with consumeThreads := s.consumeThreads + 1 }
  | run (hpc : s.At i .loop) (hrun : s.inProgress = true) : ConsumerMove s i (s.goto i .ask)
  | idle (hpc : s.At i .loop) (hidle : s.inProgress = false) : ConsumerMove s i (s.goto i .exit)
  | ask (hpc : s.At i .ask) :
      ConsumerMove s i { s.goto i .lock with askCount := s.askCount + 1 }
  | enter (hpc : s.At i .lock ∨ s.At i .woken) (hfree : s.mutex = none) :
      ConsumerMove s i { s.goto i .test with mutex := some (.consumer i) }
  | empty (hpc : s.At i .test) (hempty : s.buffer = []) : ConsumerMove s i (s.goto i .checkDone)
  | item (hpc : s.At i .test) (hitem : s.buffer ≠ []) : ConsumerMove s i (s.goto i .pop)
  | leave (hpc : s.At i .checkDone) (hdone : s.done = true) : ConsumerMove s i (s.goto i .leave)
  | sleep (hpc : s.At i .checkDone) (hdone : s.done = false) : ConsumerMove s i (s.goto i .wait)
  | block (hpc : s.At i .wait) : ConsumerMove s i { s.goto i .blocked with mutex := none }
  | release (hpc : s.At i .leave) : ConsumerMove s i { s.goto i .exit with mutex := none }
  | exit (hpc : s.At i .exit) : ConsumerMove s i (s.goto i .returned)
  | pop {command : Text} {rest : List Text} (hpc : s.At i .pop)
      (hbuffer : s.buffer = command :: rest) :
      ConsumerMove s i { s.setConsumer i { s.consumer i with command, pc := .signal } with
        buffer := rest, popped := s.popped ++ [command] }
  | signal (hpc : s.At i .signal) : ConsumerMove s i (s.wakeProducer.goto i .unlock)
  | unlock (hpc : s.At i .unlock) : ConsumerMove s i { s.goto i .receive with mutex := none }
  | receive (hpc : s.At i .receive) :
      ConsumerMove s i { s.goto i .complete with receiveCount := s.receiveCount + 1 }
  | complete (hpc : s.At i .complete) :
      ConsumerMove s i { s.goto i .jobs with
        completeCount := s.completeCount + 1
        completed := s.completed ++ [(s.consumer i).command] }
  | jobs (hpc : s.At i .jobs) :
      ConsumerMove s i (s.setConsumer i
        { s.consumer i with jobsComplete := (s.consumer i).jobsComplete + 1, pc := .record })
  | record (hpc : s.At i .record) :
      ConsumerMove s i { s.goto i .loop with
        threadCompletedTasks := Function.update s.threadCompletedTasks (s.consumer i).id
          (s.consumer i).jobsComplete }

namespace State

theorem consumerMove_of_step {i : Fin n} (h : s.consumerStep i = some s') :
    ConsumerMove s i s' := by
  unfold consumerStep at h
  cases hpc : (s.consumer i).pc with
  | uncreated | blocked | returned => simp [hpc] at h
  | start =>
    simp only [hpc, Option.some.injEq] at h
    exact h ▸ .start hpc
  | bump =>
    simp only [hpc, Option.some.injEq] at h
    exact h ▸ .bump hpc
  | loop =>
    simp only [hpc] at h
    split_ifs at h with hrun <;> cases h
    · exact .run hpc hrun
    · exact .idle hpc (Bool.eq_false_iff.mpr hrun)
  | ask =>
    simp only [hpc, Option.some.injEq] at h
    exact h ▸ .ask hpc
  | lock =>
    simp only [hpc] at h
    split_ifs at h with hfree
    cases h
    exact .enter (.inl hpc) hfree
  | test =>
    simp only [hpc] at h
    split_ifs at h with hempty <;> cases h
    · exact .empty hpc hempty
    · exact .item hpc hempty
  | checkDone =>
    simp only [hpc] at h
    split_ifs at h with hdone <;> cases h
    · exact .leave hpc hdone
    · exact .sleep hpc (Bool.eq_false_iff.mpr hdone)
  | wait =>
    simp only [hpc, Option.some.injEq] at h
    exact h ▸ .block hpc
  | woken =>
    simp only [hpc] at h
    split_ifs at h with hfree
    cases h
    exact .enter (.inr hpc) hfree
  | leave =>
    simp only [hpc, Option.some.injEq] at h
    exact h ▸ .release hpc
  | exit =>
    simp only [hpc, Option.some.injEq] at h
    exact h ▸ .exit hpc
  | pop =>
    simp only [hpc] at h
    cases hbuffer : s.buffer with
    | nil => simp [hbuffer] at h
    | cons command rest =>
      simp only [hbuffer, Option.some.injEq] at h
      exact h ▸ .pop hpc hbuffer
  | signal =>
    simp only [hpc, Option.some.injEq] at h
    exact h ▸ .signal hpc
  | unlock =>
    simp only [hpc, Option.some.injEq] at h
    exact h ▸ .unlock hpc
  | receive =>
    simp only [hpc, Option.some.injEq] at h
    exact h ▸ .receive hpc
  | complete =>
    simp only [hpc, Option.some.injEq] at h
    exact h ▸ .complete hpc
  | jobs =>
    simp only [hpc, Option.some.injEq] at h
    exact h ▸ .jobs hpc
  | record =>
    simp only [hpc, Option.some.injEq] at h
    exact h ▸ .record hpc

end State

/-! ## The producer -/

/-- What the producer can do. -/
inductive ProducerMove (s : State n) : State n → Prop
  | start (hpc : s.producer = .start) :
      ProducerMove s { s with inProgress := true, producer := .getline }
  | eof (hpc : s.producer = .getline) (hinput : s.input = []) :
      ProducerMove s { s with producer := .setDone }
  | line {command : Text} {rest : List Text} (hpc : s.producer = .getline)
      (hinput : s.input = command :: rest) : ProducerMove s (s.readLine command rest)
  | work (hpc : s.producer = .work) :
      ProducerMove s { s with workCount := s.workCount + 1, producer := .lock }
  | enter (hpc : s.producer = .lock ∨ s.producer = .woken) (hfree : s.mutex = none) :
      ProducerMove s { s with mutex := some .producer, producer := .test }
  | full (hpc : s.producer = .test) (hfull : maxbuffer n ≤ s.buffer.length) :
      ProducerMove s { s with producer := .wait }
  | room (hpc : s.producer = .test) (hroom : s.buffer.length < maxbuffer n) :
      ProducerMove s { s with producer := .push }
  | block (hpc : s.producer = .wait) :
      ProducerMove s { s with mutex := none, producer := .blocked }
  | push (hpc : s.producer = .push) :
      ProducerMove s { s with
        buffer := s.buffer ++ [s.command], pushed := s.pushed ++ [s.command], producer := .signal }
  | signalConsumer (i : Fin n) (hpc : s.producer = .signal) (hi : s.At i .blocked) :
      ProducerMove s { s.goto i .woken with producer := .unlock }
  | signalNobody (hpc : s.producer = .signal) (hnone : ∀ i, ¬ s.At i .blocked) :
      ProducerMove s { s with producer := .unlock }
  | unlock (hpc : s.producer = .unlock) :
      ProducerMove s { s with mutex := none, producer := .getline }
  | sleep (hpc : s.producer = .sleep) :
      ProducerMove s { s with sleepCount := s.sleepCount + 1, producer := .getline }
  | setDone (hpc : s.producer = .setDone) :
      ProducerMove s { s with done := true, producer := .lockEnd }
  | enterLast (hpc : s.producer = .lockEnd) (hfree : s.mutex = none) :
      ProducerMove s { s with mutex := some .producer, producer := .broadcast }
  | broadcast (hpc : s.producer = .broadcast) :
      ProducerMove s { s.wakeAll with producer := .unlockEnd }
  | unlockEnd (hpc : s.producer = .unlockEnd) :
      ProducerMove s { s with mutex := none, producer := .clear }
  | clear (hpc : s.producer = .clear) :
      ProducerMove s { s with inProgress := false, producer := .finished }

namespace State

theorem producerMove_of_step {woken : Option (Fin n)} (h : s.producerStep woken = some s') :
    ProducerMove s s' := by
  unfold producerStep at h
  cases hpc : s.producer with
  | uncreated | blocked | finished => simp [hpc] at h
  | start =>
    simp only [hpc, Option.some.injEq] at h
    exact h ▸ .start hpc
  | getline =>
    simp only [hpc] at h
    split at h
    next hinput =>
      cases h
      exact .eof hpc hinput
    next command rest hinput =>
      cases h
      exact .line hpc hinput
  | work =>
    simp only [hpc, Option.some.injEq] at h
    exact h ▸ .work hpc
  | lock =>
    simp only [hpc] at h
    split_ifs at h with hfree
    cases h
    exact .enter (.inl hpc) hfree
  | test =>
    simp only [hpc] at h
    split_ifs at h with hfull <;> cases h
    · exact .full hpc hfull
    · exact .room hpc (not_le.mp hfull)
  | wait =>
    simp only [hpc, Option.some.injEq] at h
    exact h ▸ .block hpc
  | woken =>
    simp only [hpc] at h
    split_ifs at h with hfree
    cases h
    exact .enter (.inr hpc) hfree
  | push =>
    simp only [hpc, Option.some.injEq] at h
    exact h ▸ .push hpc
  | signal =>
    simp only [hpc] at h
    cases woken with
    | none =>
      split_ifs at h with hnone
      cases h
      exact .signalNobody hpc (not_exists.mp hnone)
    | some i =>
      dsimp only at h
      split_ifs at h with hi
      cases h
      exact .signalConsumer i hpc hi
  | unlock =>
    simp only [hpc, Option.some.injEq] at h
    exact h ▸ .unlock hpc
  | sleep =>
    simp only [hpc, Option.some.injEq] at h
    exact h ▸ .sleep hpc
  | setDone =>
    simp only [hpc, Option.some.injEq] at h
    exact h ▸ .setDone hpc
  | lockEnd =>
    simp only [hpc] at h
    split_ifs at h with hfree
    cases h
    exact .enterLast hpc hfree
  | broadcast =>
    simp only [hpc, Option.some.injEq] at h
    exact h ▸ .broadcast hpc
  | unlockEnd =>
    simp only [hpc, Option.some.injEq] at h
    exact h ▸ .unlockEnd hpc
  | clear =>
    simp only [hpc, Option.some.injEq] at h
    exact h ▸ .clear hpc

end State

/-! ## Spurious wake-ups -/

/-- What a spurious wake-up can do. -/
inductive SpuriousMove (s : State n) : State n → Prop
  | producer (hb : s.producer = .blocked) : SpuriousMove s { s with producer := .woken }
  | consumer (i : Fin n) (hb : s.At i .blocked) : SpuriousMove s (s.goto i .woken)

theorem State.spuriousMove_of_step {t : Thread (Fin n)} (h : s.spuriousWakeup t = some s') :
    SpuriousMove s s' := by
  unfold spuriousWakeup at h
  cases t with
  | producer =>
    dsimp only at h
    split_ifs at h with hb
    cases h
    exact .producer hb
  | consumer i =>
    dsimp only at h
    split_ifs at h with hb
    cases h
    exact .consumer i hb

/-! ## Frames -/

/-- What a step of consumer `i` leaves as it is. -/
structure ConsumerFrame (s s' : State n) (i : Fin n) : Prop where
  main : s'.main = s.main
  threads : s'.threads = s.threads
  producer : s'.producer = s.producer ∨ s.producer = .blocked ∧ s'.producer = .woken
  others : ∀ j, j ≠ i → s'.consumer j = s.consumer j
  input : s'.input = s.input
  inProgress : s'.inProgress = s.inProgress
  done : s'.done = s.done
  buffer : s.buffer = [] → s'.buffer = []
  popped : ¬ s.At i .pop → s'.popped = s.popped

/-- What a step of the producer, or a spurious wake-up, leaves as it is. -/
structure ProducerFrame (s s' : State n) : Prop where
  main : s'.main = s.main
  threads : s'.threads = s.threads
  producer : s.producer = .uncreated → s'.producer = .uncreated
  consumer : ∀ j, s'.consumer j = s.consumer j ∨ s.At j .blocked ∧ s'.At j .woken
  buffer : s.producer ≠ .push → s'.buffer = s.buffer
  popped : s'.popped = s.popped

namespace State

theorem setConsumer_of_ne (s : State n) {i j : Fin n} (c : Consumer) (hj : j ≠ i) :
    (s.setConsumer i c).consumer j = s.consumer j := by
  unfold setConsumer
  exact Function.update_of_ne hj c s.consumer

theorem goto_at (s : State n) (i : Fin n) (pc : ConsumerPc) : (s.goto i pc).At i pc := by
  simp [At, goto, setConsumer]

theorem wakeProducer_cases (s : State n) : s.wakeProducer.producer = s.producer ∨
    s.producer = .blocked ∧ s.wakeProducer.producer = .woken := by
  by_cases hb : s.producer = .blocked
  · exact .inr ⟨hb, by simp [wakeProducer, hb]⟩
  · exact .inl (by simp [wakeProducer, hb])

theorem goto_woken_cases {i : Fin n} (hi : s.At i .blocked) (j : Fin n) :
    (s.goto i .woken).consumer j = s.consumer j ∨
      s.At j .blocked ∧ (s.goto i .woken).At j .woken := by
  by_cases hj : j = i
  · subst hj
    exact .inr ⟨hi, goto_at s j _⟩
  · exact .inl (setConsumer_of_ne s _ hj)

theorem wakeAll_cases (s : State n) (j : Fin n) :
    s.wakeAll.consumer j = s.consumer j ∨ s.At j .blocked ∧ s.wakeAll.At j .woken := by
  by_cases hb : s.At j .blocked
  · refine .inr ⟨hb, ?_⟩
    show (if s.At j .blocked then _ else s.consumer j).pc = .woken
    rw [if_pos hb]
  · exact .inl (by simp [wakeAll, hb])

end State

theorem ConsumerMove.frame {i : Fin n} (h : ConsumerMove s i s') : ConsumerFrame s s' i := by
  cases h with
  | pop hpc hbuffer =>
    exact ⟨rfl, rfl, .inl rfl, fun j hj => s.setConsumer_of_ne _ hj, rfl, rfl, rfl,
      fun hempty => absurd (hbuffer.symm.trans hempty) nofun, fun hpop => absurd hpc hpop⟩
  | signal hpc =>
    exact ⟨rfl, rfl, s.wakeProducer_cases, fun j hj => s.setConsumer_of_ne _ hj, rfl, rfl, rfl,
      id, fun _ => rfl⟩
  | _ =>
    exact ⟨rfl, rfl, .inl rfl, fun j hj => s.setConsumer_of_ne _ hj, rfl, rfl, rfl, id,
      fun _ => rfl⟩

theorem ProducerMove.frame (h : ProducerMove s s') : ProducerFrame s s' := by
  cases h with
  | enter hpc =>
    refine ⟨rfl, rfl, fun hp => ?_, fun _ => .inl rfl, fun _ => rfl, rfl⟩
    rcases hpc with hpc | hpc <;> exact absurd (hpc.symm.trans hp) nofun
  | push hpc =>
    exact ⟨rfl, rfl, fun hp => absurd (hpc.symm.trans hp) nofun, fun _ => .inl rfl,
      fun hpush => absurd hpc hpush, rfl⟩
  | signalConsumer i hpc hi =>
    exact ⟨rfl, rfl, fun hp => absurd (hpc.symm.trans hp) nofun, State.goto_woken_cases hi,
      fun _ => rfl, rfl⟩
  | broadcast hpc =>
    exact ⟨rfl, rfl, fun hp => absurd (hpc.symm.trans hp) nofun, s.wakeAll_cases, fun _ => rfl, rfl⟩
  | start hpc | eof hpc | line hpc | work hpc | full hpc | room hpc | block hpc | signalNobody hpc
  | unlock hpc | sleep hpc | setDone hpc | enterLast hpc | unlockEnd hpc | clear hpc =>
    exact ⟨rfl, rfl, fun hp => absurd (hpc.symm.trans hp) nofun, fun _ => .inl rfl, fun _ => rfl,
      rfl⟩

theorem SpuriousMove.frame (h : SpuriousMove s s') : ProducerFrame s s' := by
  cases h with
  | producer hb =>
    exact ⟨rfl, rfl, fun hp => absurd (hb.symm.trans hp) nofun, fun _ => .inl rfl, fun _ => rfl,
      rfl⟩
  | consumer i hb => exact ⟨rfl, rfl, id, State.goto_woken_cases hb, fun _ => rfl, rfl⟩

end Cmput379.Prodcon
