import Cmput379.Prodcon.Wakeup
import Cmput379.Prodcon.Accounts

/-!
# Is all work done when prodcon reports?

`main` joins the consumers only, and a consumer leaves its loop as soon as it finds
`in_progress` false: before the producer has set it, or after the producer has
cleared it, whatever is in the buffer then.

* `Flags`: what the flags say about the producer and the buffer.
* `workDone_iff`: all work is done when `main` reports iff the last consumer never
  left its loop while a 'T' line was unread or in the buffer.
* `workDone_counterexample`: a consumer that starts before the producer.
-/

namespace Cmput379.Prodcon

open Cmput379.Lib

variable {n : ℕ} {input : List Text} {s s' : State n}

/-! ## What the flags say -/

/-- The producer has seen the end of its input. -/
def ProducerPc.exhausted : ProducerPc → Bool
  | .setDone | .lockEnd | .broadcast | .unlockEnd | .clear | .finished => true
  | _ => false

/-- The producer has set `done`. -/
def ProducerPc.ending : ProducerPc → Bool
  | .lockEnd | .broadcast | .unlockEnd | .clear | .finished => true
  | _ => false

/-- The producer has not set `in_progress` yet, or has cleared it. -/
def ProducerPc.idle : ProducerPc → Bool
  | .uncreated | .start | .finished => true
  | _ => false

/-- What `done` and `in_progress` say about the producer, and what a consumer
    that leaves has seen. -/
structure Flags (s : State n) : Prop where
  exhausted : s.producer.exhausted = true → s.input = []
  done : s.done = true → s.producer.ending = true
  inProgress : s.inProgress = false → s.producer.idle = true
  leave : ∀ i, s.At i .leave → s.done = true ∧ s.buffer = []

theorem flags_initState : Flags (initState n input) :=
  ⟨nofun, nofun, fun _ => rfl, fun _ h => nomatch h⟩

/-- A consumer leaves the buffer for good after it has seen `done`. -/
theorem ConsumerMove.leaving {i : Fin n} (h : ConsumerMove s i s') (hleave : s'.At i .leave) :
    s.At i .checkDone ∧ s.done = true := by
  cases h with
  | leave hpc hdone => exact ⟨hpc, hdone⟩
  | _ => simp [State.At, State.goto, State.setConsumer] at hleave

theorem Flags.consumerMove {i : Fin n} (h : Flags s) (hok : s.monitor.Ok (maxbuffer n))
    (hs : ConsumerMove s i s') : Flags s' := by
  have hf := hs.frame
  have hproducer : s'.producer.exhausted = s.producer.exhausted ∧
      s'.producer.ending = s.producer.ending ∧ s'.producer.idle = s.producer.idle := by
    rcases hf.producer with heq | ⟨hb, hw⟩
    · rw [heq]
      exact ⟨rfl, rfl, rfl⟩
    · rw [hb, hw]
      exact ⟨rfl, rfl, rfl⟩
  obtain ⟨hexhausted, hending, hidle⟩ := hproducer
  refine ⟨?_, ?_, ?_, fun j hj => ?_⟩
  · rw [hexhausted, hf.input]
    exact h.exhausted
  · rw [hending, hf.done]
    exact h.done
  · rw [hidle, hf.inProgress]
    exact h.inProgress
  · rw [hf.done]
    by_cases hji : j = i
    · subst hji
      obtain ⟨hcheck, hdone⟩ := hs.leaving hj
      have hrefused : s.monitor.place (.consumer j) = .refused := by
        show (s.consumer j).pc.place = .refused
        rw [hcheck]
        rfl
      have hempty : s.buffer = [] := List.length_eq_zero_iff.mp (hok.empty j (.inl hrefused))
      exact ⟨hdone, hf.buffer hempty⟩
    · have hleave : s.At j .leave := by
        rw [State.At, ← hf.others j hji]
        exact hj
      exact ⟨(h.leave j hleave).1, hf.buffer (h.leave j hleave).2⟩

/-- The producer leaves the buffer alone once a consumer has seen `done`. -/
theorem Flags.leave_of_producer (h : Flags s) (hf : ProducerFrame s s')
    (hdone : s.done = true → s'.done = true) (j : Fin n) (hj : s'.At j .leave) :
    s'.done = true ∧ s'.buffer = [] := by
  have hleave : s.At j .leave := by
    rcases hf.consumer j with heq | ⟨-, hw⟩
    · rw [State.At, ← heq]
      exact hj
    · rw [State.At, hj] at hw
      cases hw
  obtain ⟨hset, hempty⟩ := h.leave j hleave
  have hpush : s.producer ≠ .push := by
    intro hp
    have hending := h.done hset
    rw [hp] at hending
    cases hending
  exact ⟨hdone hset, by rw [hf.buffer hpush, hempty]⟩

/-- A step of the producer that changes no flag. -/
theorem Flags.quiet (h : Flags s) (hf : ProducerFrame s s') {pc : ProducerPc}
    (hpc : s.producer = pc) (hinput : s'.input = s.input)
    (hinProgress : s'.inProgress = s.inProgress) (hdone : s'.done = s.done)
    (hexhausted : s'.producer.exhausted = pc.exhausted) (hending : s'.producer.ending = pc.ending)
    (hidle : s'.producer.idle = pc.idle) : Flags s' where
  exhausted := by
    rw [hexhausted, hinput, ← hpc]
    exact h.exhausted
  done := by
    rw [hending, hdone, ← hpc]
    exact h.done
  inProgress := by
    rw [hidle, hinProgress, ← hpc]
    exact h.inProgress
  leave := h.leave_of_producer hf fun hset => hdone.trans hset

/-- While the producer is at work, `in_progress` is set and `done` is not. -/
theorem Flags.of_producer (h : Flags s) {pc : ProducerPc} (hpc : s.producer = pc) :
    (pc.ending = false → s.done = false) ∧ (pc.idle = false → s.inProgress = true) := by
  subst hpc
  constructor
  · intro hending
    by_contra hdone
    have hset := h.done (Bool.eq_true_of_not_eq_false hdone)
    exact absurd (hending.symm.trans hset) nofun
  · intro hidle
    by_contra hrun
    have hset := h.inProgress (Bool.eq_false_of_not_eq_true hrun)
    exact absurd (hidle.symm.trans hset) nofun

theorem Flags.producerMove (h : Flags s) (hs : ProducerMove s s') : Flags s' := by
  have hf := hs.frame
  have hleave := h.leave_of_producer hf
  cases hs with
  | start hpc =>
    have hdone := (h.of_producer hpc).1 rfl
    exact ⟨nofun, fun hset => absurd (hdone.symm.trans hset) nofun, nofun, hleave id⟩
  | eof hpc hinput =>
    obtain ⟨hdone, hrun⟩ := (h.of_producer hpc).imp (fun h => h rfl) fun h => h rfl
    exact ⟨fun _ => hinput, fun hset => absurd (hdone.symm.trans hset) nofun,
      fun hidle => absurd (hrun.symm.trans hidle) nofun, hleave id⟩
  | @line command rest hpc hinput =>
    obtain ⟨hdone, hrun⟩ := (h.of_producer hpc).imp (fun h => h rfl) fun h => h rfl
    have hmore : (s.readLine command rest).producer.exhausted = false := by
      dsimp only [State.readLine]
      split_ifs <;> rfl
    exact ⟨fun hend => absurd (hmore.symm.trans hend) nofun,
      fun hset => absurd (hdone.symm.trans hset) nofun,
      fun hidle => absurd (hrun.symm.trans hidle) nofun, hleave id⟩
  | setDone hpc =>
    have hrun := (h.of_producer hpc).2 rfl
    exact ⟨fun _ => h.exhausted (by rw [hpc]; rfl), fun _ => rfl,
      fun hidle => absurd (hrun.symm.trans hidle) nofun, hleave fun _ => rfl⟩
  | clear hpc =>
    exact ⟨fun _ => h.exhausted (by rw [hpc]; rfl), fun _ => rfl, fun _ => rfl, hleave id⟩
  | enter hpc =>
    rcases hpc with hpc | hpc
    · exact h.quiet hf hpc rfl rfl rfl rfl rfl rfl
    · exact h.quiet hf hpc rfl rfl rfl rfl rfl rfl
  | work hpc | full hpc | room hpc | block hpc | push hpc | signalConsumer i hpc
  | signalNobody hpc | unlock hpc | sleep hpc | enterLast hpc | broadcast hpc | unlockEnd hpc =>
    exact h.quiet hf hpc rfl rfl rfl rfl rfl rfl

theorem Flags.spuriousMove (h : Flags s) (hs : SpuriousMove s s') : Flags s' := by
  have hf := hs.frame
  cases hs with
  | producer hb => exact h.quiet hf hb rfl rfl rfl rfl rfl rfl
  | consumer i hb => exact h.quiet hf rfl rfl rfl rfl rfl rfl rfl

/-- What `main` does to the consumers. -/
theorem MainMove.consumer_cases (h : MainMove s s') (j : Fin n) :
    s'.consumer j = s.consumer j ∨ s.At j .uncreated ∧ s'.At j .start := by
  cases h with
  | producer | control => exact .inl rfl
  | consumer i pc threads hi =>
    by_cases hji : j = i
    · subst hji
      exact .inr ⟨hi, s.goto_at j .start⟩
    · exact .inl (s.setConsumer_of_ne _ hji)

theorem MainMove.popped (h : MainMove s s') : s'.popped = s.popped := by
  cases h <;> rfl

theorem Flags.mainMove (h : Flags s) (hs : MainMove s s') : Flags s' := by
  have hleave : ∀ j, s'.At j .leave → s.At j .leave := by
    intro j hj
    rcases hs.consumer_cases j with heq | ⟨-, hstart⟩
    · rw [State.At, ← heq]
      exact hj
    · rw [State.At, hj] at hstart
      cases hstart
  cases hs with
  | producer pc threads hp =>
    have hdone := (h.of_producer hp).1 rfl
    refine ⟨by rintro ⟨⟩, fun hset => ?_, fun _ => rfl, h.leave⟩
    cases hdone.symm.trans hset
  | consumer | control =>
    exact ⟨h.exhausted, h.done, h.inProgress, fun j hj => h.leave j (hleave j hj)⟩

theorem Flags.step {a : Action n} (h : Flags s) (hh : Handles s)
    (hok : s.monitor.Ok (maxbuffer n)) (hs : step s a = some s') : Flags s' := by
  cases move_of_step hh hs with
  | main hmove => exact h.mainMove hmove
  | producer hmove => exact h.producerMove hmove
  | consumer i hmove => exact h.consumerMove hok hmove
  | spurious hmove => exact h.spuriousMove hmove

theorem flags_of_reachable (h : (system n input).Reachable s) : Flags s :=
  h.invariant (by rintro _ rfl; exact flags_initState) fun _ _ _ hr hflags hs =>
    hflags.step (handles_of_reachable hr) (monitorOk_of_reachable hr) hs

/-! ## Consumers at their end -/

/-- Consumer `i` has left its loop. -/
def State.Exited (s : State n) (i : Fin n) : Prop := s.At i .exit ∨ s.At i .returned

theorem exited_congr {i : Fin n} (h : s'.consumer i = s.consumer i) : s'.Exited i ↔ s.Exited i := by
  simp only [State.Exited, State.At, h]

theorem not_exited_of_at {i : Fin n} {pc : ConsumerPc} (h : s.At i pc) (hexit : pc ≠ .exit)
    (hreturned : pc ≠ .returned) : ¬ s.Exited i := by
  rintro (hi | hi)
  · exact hexit (h.symm.trans hi)
  · exact hreturned (h.symm.trans hi)

/-- A consumer that another thread creates or wakes has not left its loop. -/
theorem exited_of_cases {i : Fin n} {pc pc' : ConsumerPc}
    (h : s'.consumer i = s.consumer i ∨ s.At i pc ∧ s'.At i pc')
    (hpc : pc ≠ .exit ∧ pc ≠ .returned) (hpc' : pc' ≠ .exit ∧ pc' ≠ .returned) :
    s'.Exited i ↔ s.Exited i := by
  rcases h with heq | ⟨hbefore, hafter⟩
  · exact exited_congr heq
  · apply iff_of_false
    · exact not_exited_of_at hafter hpc'.1 hpc'.2
    · exact not_exited_of_at hbefore hpc.1 hpc.2

/-- Where the last statements of a consumer lead, and how it comes to them. -/
theorem ConsumerMove.exited_iff {i : Fin n} (h : ConsumerMove s i s') :
    s'.Exited i ↔ s.Exited i ∨ s.At i .loop ∧ s.inProgress = false ∨ s.At i .leave := by
  unfold State.Exited State.At
  cases h with
  | run hpc hrun =>
    rw [State.At] at hpc
    simp [State.goto, State.setConsumer, hpc, hrun]
  | idle hpc hidle =>
    rw [State.At] at hpc
    simp [State.goto, State.setConsumer, hpc, hidle]
  | enter hpc =>
    rw [State.At, State.At] at hpc
    rcases hpc with hpc | hpc <;> simp [State.goto, State.setConsumer, hpc]
  | start hpc | bump hpc | ask hpc | empty hpc | item hpc | leave hpc | sleep hpc | block hpc
  | release hpc | exit hpc | pop hpc | signal hpc | unlock hpc | receive hpc | complete hpc
  | jobs hpc | record hpc =>
    rw [State.At] at hpc
    simp [State.goto, State.setConsumer, hpc]

/-- A consumer leaves its loop by finding `in_progress` false, or after it has
    found the buffer empty and `done` set; and it does not come back. -/
theorem exited_step {a : Action n} (hh : Handles s) (hs : step s a = some s') (i : Fin n) :
    s'.Exited i ↔ s.Exited i ∨
      a = .consumer i ∧ (s.At i .loop ∧ s.inProgress = false ∨ s.At i .leave) := by
  cases move_of_step hh hs with
  | main hmove =>
    simp only [reduceCtorEq, false_and, or_false]
    exact exited_of_cases (hmove.consumer_cases i) ⟨nofun, nofun⟩ ⟨nofun, nofun⟩
  | producer hmove =>
    simp only [reduceCtorEq, false_and, or_false]
    exact exited_of_cases (hmove.frame.consumer i) ⟨nofun, nofun⟩ ⟨nofun, nofun⟩
  | spurious hmove =>
    simp only [reduceCtorEq, false_and, or_false]
    exact exited_of_cases (hmove.frame.consumer i) ⟨nofun, nofun⟩ ⟨nofun, nofun⟩
  | consumer k hmove =>
    by_cases hik : i = k
    · subst hik
      simpa only [true_and] using hmove.exited_iff
    · have hne : ¬ Action.consumer k = .consumer i := fun heq => hik (Action.consumer.inj heq).symm
      rw [exited_congr (hmove.frame.others i hik)]
      simp only [hne, false_and, or_false]

/-- Only a consumer that has found an item pops. -/
theorem popped_step {a : Action n} (hh : Handles s) (hs : step s a = some s')
    (hpop : ∀ i, a = .consumer i → ¬ s.At i .pop) : s'.popped = s.popped := by
  cases move_of_step hh hs with
  | main hmove => exact hmove.popped
  | producer hmove => exact hmove.frame.popped
  | spurious hmove => exact hmove.frame.popped
  | consumer i hmove => exact hmove.frame.popped (hpop i rfl)

/-! ## All work done -/

/-- Every 'T' line of the input has been pushed, popped and completed exactly
    once, and the counters say so. -/
structure WorkDone (input : List Text) (s : State n) : Prop where
  pushed : s.pushed = tasks input
  popped : s.popped = tasks input
  completed : s.completed.Perm (tasks input)
  buffer : s.buffer = []
  work : s.workCount = (tasks input).length
  receive : s.receiveCount = (tasks input).length
  complete : s.completeCount = (tasks input).length

/-- A consumer that leaves its loop because `in_progress` is false, when all the
    others have left theirs, leaves no 'T' line unread and none in the buffer. -/
def StepOk (s : State n) : Action n → Prop
  | .consumer i => s.At i .loop → s.inProgress = false → (∀ j, j ≠ i → s.Exited j) →
      tasks s.input = [] ∧ s.buffer = []
  | _ => True

/-- While the producer has no line in its hands, everything has been popped iff
    nothing is left in the input and in the buffer. -/
theorem Accounts.popped_iff (h : Accounts input s) (hpending : s.pending = []) :
    s.popped = tasks input ↔ tasks s.input = [] ∧ s.buffer = [] := by
  rw [← h.lines, ← h.queue, hpending, List.nil_append, List.append_assoc, List.self_eq_append_right,
    List.append_eq_nil_iff]
  exact and_comm

theorem ProducerPc.holds_of_idle {pc : ProducerPc} (h : pc.idle = true) : pc.holds = false := by
  cases pc <;> first | rfl | cases h

theorem ProducerPc.holds_of_exhausted {pc : ProducerPc} (h : pc.exhausted = true) :
    pc.holds = false := by
  cases pc <;> first | rfl | cases h

theorem ProducerPc.exhausted_of_ending {pc : ProducerPc} (h : pc.ending = true) :
    pc.exhausted = true := by
  cases pc <;> first | rfl | cases h

theorem pending_of_not_holds (h : s.producer.holds = false) : s.pending = [] := by
  simp [State.pending, h]

theorem ProducerPc.counted_le_holds {pc : ProducerPc} (h : pc.holds = false) :
    pc.counted = false := by
  cases pc <;> first | rfl | cases h

/-- A consumer that has left its loop holds no command. -/
theorem State.Exited.held {i : Fin n} (h : s.Exited i) :
    (s.consumer i).held = 0 ∧ (s.consumer i).unreceived = 0 := by
  rcases h with hpc | hpc
  · exact ⟨held_of_pc hpc rfl, unreceived_of_pc hpc rfl⟩
  · exact ⟨held_of_pc hpc rfl, unreceived_of_pc hpc rfl⟩

/-- When all consumers have left their loops, all work is done iff all was
    popped. -/
theorem Accounts.workDone_iff_popped (h : Accounts input s) (hall : ∀ i, s.Exited i) :
    WorkDone input s ↔ s.popped = tasks input := by
  constructor
  · exact WorkDone.popped
  · intro hpopped
    have hrest : s.buffer ++ (s.pending ++ tasks s.input) = [] := by
      have hlines := h.lines
      rwa [← h.queue, List.append_assoc, hpopped, List.append_right_eq_self] at hlines
    obtain ⟨hbuffer, hrest⟩ := List.append_eq_nil_iff.mp hrest
    have hpushed : s.pushed = tasks input := by
      rw [← h.queue, hbuffer, List.append_nil, hpopped]
    have hholds : s.producer.holds = false := by
      have hpending := (List.append_eq_nil_iff.mp hrest).1
      by_contra hholds
      rw [State.pending, if_pos (by simpa using hholds)] at hpending
      cases hpending
    have hworking : s.working = 0 := Finset.sum_eq_zero fun i _ => (hall i).held.1
    have hunreceived : s.unreceived = 0 := Finset.sum_eq_zero fun i _ => (hall i).held.2
    have hcompleted : s.completed.Perm (tasks input) := by
      have hheld := h.held
      rw [hworking, add_zero, hpopped] at hheld
      exact (Multiset.coe_eq_coe.mp hheld).symm
    refine ⟨hpushed, hpopped, hcompleted, hbuffer, ?_, ?_, ?_⟩
    · have hwork := h.work
      rw [ProducerPc.counted_le_holds hholds, hpushed] at hwork
      exact hwork
    · have hreceived := h.received
      rw [hunreceived, hpopped] at hreceived
      exact hreceived
    · rw [h.complete, hcompleted.length_eq]

/-! ## Runs -/

/-- The last consumer has not left its loop yet, or all was popped when it did;
    or else some step was wrong, and not all will be popped. -/
inductive Judged (input : List Text) (s : State n) (ok : Prop) : Prop
  | good (hok : ok) (hpopped : (∀ i, s.Exited i) → s.popped = tasks input)
  | bad (hbad : ¬ ok) (hall : ∀ i, s.Exited i) (hpopped : s.popped ≠ tasks input)

/-- The last consumer leaves its loop: rightly iff all was popped. -/
theorem stepOk_iff_popped (h : (system n input).Reachable s) {i : Fin n}
    (hothers : ∀ j, j ≠ i → s.Exited j)
    (hend : s.At i .loop ∧ s.inProgress = false ∨ s.At i .leave) :
    StepOk s (.consumer i) ↔ s.popped = tasks input := by
  have hflags := flags_of_reachable h
  have haccounts := accounts_of_reachable h
  rcases hend with ⟨hloop, hidle⟩ | hleave
  · have hpending := pending_of_not_holds (ProducerPc.holds_of_idle (hflags.inProgress hidle))
    rw [haccounts.popped_iff hpending]
    exact ⟨fun hok => hok hloop hidle hothers, fun hrest _ _ _ => hrest⟩
  · obtain ⟨hdone, hbuffer⟩ := hflags.leave i hleave
    have hexhausted := ProducerPc.exhausted_of_ending (hflags.done hdone)
    have hpending := pending_of_not_holds (ProducerPc.holds_of_exhausted hexhausted)
    refine iff_of_true (fun hloop => absurd (hloop.symm.trans hleave) nofun) ?_
    rw [haccounts.popped_iff hpending, hflags.exhausted hexhausted]
    exact ⟨rfl, hbuffer⟩

theorem stepOk_of_not_exited {a : Action n} (hh : Handles s) (hs : step s a = some s')
    (hnot : ¬ ∀ i, s'.Exited i) : StepOk s a := by
  cases a with
  | main | producer | spurious => trivial
  | consumer i =>
    intro hloop hidle hothers
    refine absurd (fun j => ?_) hnot
    by_cases hji : j = i
    · subst hji
      exact (exited_step hh hs j).mpr (.inr ⟨rfl, .inl ⟨hloop, hidle⟩⟩)
    · exact (exited_step hh hs j).mpr (.inl (hothers j hji))

theorem stepOk_of_exited {a : Action n} (hall : ∀ i, s.Exited i) : StepOk s a := by
  cases a with
  | main | producer | spurious => trivial
  | consumer i => exact fun hloop => absurd (hall i) (not_exited_of_at hloop nofun nofun)

theorem Judged.step {a : Action n} {ok : Prop} (h : Judged input s ok)
    (hr : (system n input).Reachable s) (hs : step s a = some s') :
    Judged input s' (ok ∧ StepOk s a) := by
  have hh := handles_of_reachable hr
  by_cases hall : ∀ i, s.Exited i
  · -- all had left already
    have hpopped := popped_step hh hs fun i _ hpop => not_exited_of_at hpop nofun nofun (hall i)
    have hall' : ∀ i, s'.Exited i := fun i => (exited_step hh hs i).mpr (.inl (hall i))
    cases h with
    | good hok hgood => exact .good ⟨hok, stepOk_of_exited hall⟩ fun _ => hpopped.trans (hgood hall)
    | bad hbad _ hne => exact .bad (fun hok => hbad hok.1) hall' (hpopped ▸ hne)
  · cases h with
    | bad hbad hall' hne => exact absurd hall' hall
    | good hok hgood =>
      by_cases hall' : ∀ i, s'.Exited i
      · -- the last one leaves with this step
        obtain ⟨i, hi⟩ := not_forall.mp hall
        obtain ⟨rfl, hend⟩ := ((exited_step hh hs i).mp (hall' i)).resolve_left hi
        have hothers : ∀ j, j ≠ i → s.Exited j := by
          intro j hji
          rcases (exited_step hh hs j).mp (hall' j) with hj | ⟨heq, -⟩
          · exact hj
          · exact absurd (Action.consumer.inj heq).symm hji
        have hiff := stepOk_iff_popped hr hothers hend
        have hpopped : s'.popped = s.popped := by
          apply popped_step hh hs
          rintro _ ⟨⟩ hpop
          rcases hend with ⟨hpc, -⟩ | hpc <;> exact absurd (hpop.symm.trans hpc) nofun
        by_cases hstep : StepOk s (.consumer i)
        · exact .good ⟨hok, hstep⟩ fun _ => hpopped.trans (hiff.mp hstep)
        · exact .bad (fun h => hstep h.2) hall' (hpopped ▸ fun heq => hstep (hiff.mpr heq))
      · exact .good ⟨hok, stepOk_of_not_exited hh hs hall'⟩ fun h => absurd h hall'

/-- When `main` reports, all work is done iff every step of the run was right: the
    last consumer did not leave its loop over unread or queued lines. -/
theorem workDone_iff (hn : 0 < n) {tr : List (State n × Action n)}
    (hrun : (system n input).Run (initState n input) tr s) (hreport : s.main = .report) :
    WorkDone input s ↔ ∀ p ∈ tr, StepOk p.1 p.2 := by
  have hinit : (system n input).Reachable (initState n input) := .of_init rfl
  have hjudged : Judged input s (∀ p ∈ tr, StepOk p.1 p.2) := by
    clear hreport
    induction hrun with
    | nil =>
      have huncreated : (initState n input).At ⟨0, hn⟩ .uncreated := rfl
      exact .good (by simp) fun hall =>
        absurd (hall ⟨0, hn⟩) (not_exited_of_at huncreated nofun nofun)
    | snoc hr hstep ih =>
      simp only [List.forall_mem_append, List.forall_mem_singleton]
      exact ih.step (hinit.run hr) hstep
  have hreach := hinit.run hrun
  have hall : ∀ i, s.Exited i := fun i => .inr (returned_of_report hreach hreport i)
  rw [(accounts_of_reachable hreach).workDone_iff_popped hall]
  cases hjudged with
  | good hok hpopped => exact iff_of_true (hpopped hall) hok
  | bad hbad _ hne => exact iff_of_false hne hbad

/-! ## A consumer that starts before the producer -/

/-- The only consumer finds `in_progress` false before the producer has run. -/
def consumerFirst : List (Action 1) :=
  [.main, .main, .consumer 0, .consumer 0, .consumer 0, .consumer 0, .main, .main, .main]

theorem exec_consumerFirst : ∃ s, (system 1 [['T', '1']]).exec (initState 1 [['T', '1']])
    consumerFirst = some s ∧ s.main = .report ∧ s.pushed = [] ∧ s.completeCount = 0 := by
  have hrun : ((system 1 [['T', '1']]).exec (initState 1 [['T', '1']]) consumerFirst).map
      (fun s => (s.main, s.pushed, s.completeCount)) = some (.report, [], 0) := by
    decide +kernel
  obtain ⟨s, hexec, hview⟩ := Option.map_eq_some_iff.mp hrun
  simp only [Prod.mk.injEq] at hview
  exact ⟨s, hexec, hview⟩

/-- `main` reports although the one 'T' line has not even been read. -/
theorem workDone_counterexample : ∃ s, (system 1 [['T', '1']]).Reachable s ∧
    s.main = .report ∧ ¬ WorkDone [['T', '1']] s := by
  obtain ⟨s, hexec, hreport, hpushed, -⟩ := exec_consumerFirst
  refine ⟨s, System.Reachable.of_exec rfl hexec, hreport, fun hdone => ?_⟩
  have hline := hdone.pushed
  rw [hpushed] at hline
  cases hline

/-! ## Two consumers that start behind the producer -/

def twoJobs : List Text := [['T', '1'], ['S', '1'], ['T', '2']]

/-- Each of the consumers does one job before the producer ends. -/
def producerFirst : List (Action 2) :=
  List.replicate 3 .main ++
    [.producer none, .consumer first, .consumer first, .consumer second, .consumer second] ++
    List.replicate 9 (.producer none) ++ List.replicate 11 (.consumer second) ++
    List.replicate 7 (.producer none) ++ List.replicate 11 (.consumer first) ++
    List.replicate 6 (.producer none) ++ List.replicate 2 (.consumer first) ++
    List.replicate 2 (.consumer second) ++ List.replicate 4 .main

/-- All work is done, and every step of the run was right. -/
theorem workDone_iff_producerFirst : ∃ s, (system 2 twoJobs).exec (initState 2 twoJobs)
    producerFirst = some s ∧ WorkDone twoJobs s ∧
      ∀ p ∈ (system 2 twoJobs).trace (initState 2 twoJobs) producerFirst, StepOk p.1 p.2 := by
  have hrun : ((system 2 twoJobs).exec (initState 2 twoJobs) producerFirst).map
      (fun s => decide (s.main = .report ∧ s.pushed = tasks twoJobs ∧ s.popped = tasks twoJobs ∧
        s.completed = tasks twoJobs ∧ s.buffer = [] ∧ s.workCount = 2 ∧ s.receiveCount = 2 ∧
        s.completeCount = 2)) = some true := by
    decide +kernel
  obtain ⟨s, hexec, hreport, hpushed, hpopped, hcompleted, hbuffer, hwork, hreceive, hcomplete⟩ :=
    System.exists_of_exec hrun
  have hdone : WorkDone twoJobs s :=
    ⟨hpushed, hpopped, hcompleted ▸ List.Perm.refl _, hbuffer, hwork, hreceive, hcomplete⟩
  exact ⟨s, hexec, hdone, (workDone_iff (by decide) (System.Run.of_exec hexec) hreport).mp hdone⟩

end Cmput379.Prodcon
