import Cmput379.Lib.Progress
import Cmput379.Prodcon.Queue

/-!
# prodcon ends

Every statement that a thread executes lowers a potential: what is left to do for
`main`, for the producer and for each consumer, for each line of the input and
for each item in the buffer. A wake-up that nobody sent is the one thing that
raises it.

* `potential_step`: what a step does to the potential.
* `run_ends`: how long a run can be.
* `finished_iff_stuck`: only the end of `main` stops the threads, and it stays
  within reach.
-/

namespace Cmput379.Prodcon

open Cmput379.Lib

variable {n : ℕ} {input : List Text} {s s' : State n}

/-- The step is a wake-up that nobody sent. -/
def Action.isSpurious : Action n → Bool
  | .spurious _ => true
  | _ => false

/-- The steps of a run that are such wake-ups. -/
def spuriousCount (tr : List (State n × Action n)) : ℕ :=
  System.allowed (fun e => e.2.isSpurious) tr

/-! ## The potential -/

/-- What is left to do for a consumer until it sleeps or returns; a job it holds
    costs the way back to the buffer. -/
def ConsumerPc.weight : ConsumerPc → ℕ
  | .blocked | .returned => 0
  | .wait | .exit => 1
  | .leave => 2
  | .checkDone | .pop => 3
  | .test => 4
  | .lock | .woken => 5
  | .ask => 6
  | .loop => 7
  | .bump | .record => 8
  | .start | .jobs => 9
  | .uncreated | .complete => 10
  | .receive => 11
  | .unlock => 12
  | .signal => 16

/-- What is left to do for the producer, without the lines it has not read: the
    last broadcast can wake all consumers, a push adds an item. -/
def ProducerPc.weight (n : ℕ) : ProducerPc → ℕ
  | .finished => 0
  | .clear => 1
  | .unlockEnd => 2
  | .broadcast => 5 * n + 3
  | .lockEnd => 5 * n + 4
  | .setDone => 5 * n + 5
  | .getline => 5 * n + 6
  | .start | .unlock | .sleep => 5 * n + 7
  | .uncreated => 5 * n + 8
  | .signal => 5 * n + 13
  | .blocked => 5 * n + 27
  | .push | .wait => 5 * n + 28
  | .test => 5 * n + 29
  | .lock | .woken => 5 * n + 30
  | .work => 5 * n + 31

/-- What is left to do for `main`. -/
def MainPc.weight (n : ℕ) : MainPc → ℕ
  | .createProducer => 2 * n + 4
  | .create i => n - i + n + 3
  | .join i => n - i + 2
  | .report => 1
  | .finished => 0

namespace State

/-- What is left to do for the consumers. -/
def load (s : State n) : ℕ := ∑ i, (s.consumer i).pc.weight

/-- What is left to do. -/
def potential (s : State n) : ℕ :=
  s.main.weight n + s.producer.weight n + s.load + 14 * s.buffer.length + 26 * s.input.length

theorem potential_initState : (initState n input).potential = 26 * input.length + 17 * n + 12 := by
  simp only [potential, load, initState, MainPc.weight, ProducerPc.weight, ConsumerPc.weight,
    Finset.sum_const, Finset.card_univ, Fintype.card_fin, Nat.nsmul_eq_mul, List.length_nil]
  omega

/-- Consumer `i` moves. -/
theorem load_of_consumer {i : Fin n} {pc : ConsumerPc} {c : Consumer} (hpc : s.At i pc)
    (hconsumer : s'.consumer = Function.update s.consumer i c) :
    s'.load + pc.weight = s.load + c.pc.weight := by
  have hsum := sum_update_add (fun c : Consumer => c.pc.weight) s.consumer i c
  rw [hpc] at hsum
  simpa only [load, hconsumer] using hsum

theorem load_goto {i : Fin n} {pc : ConsumerPc} (hpc : s.At i pc) (pc' : ConsumerPc) :
    (s.goto i pc').load + pc.weight = s.load + pc'.weight := by
  have hload := load_of_consumer hpc (Eq.refl (s.goto i pc').consumer)
  exact hload

/-- The broadcast wakes at most all consumers. -/
theorem load_wakeAll (s : State n) : s.wakeAll.load ≤ s.load + 5 * n := by
  have hone : ∀ i, (s.wakeAll.consumer i).pc.weight ≤ (s.consumer i).pc.weight + 5 := by
    intro i
    rcases s.wakeAll_cases i with heq | ⟨-, hwoken⟩
    · rw [heq]
      exact Nat.le_add_right _ _
    · rw [hwoken]
      exact Nat.le_add_left _ _
  calc s.wakeAll.load ≤ ∑ i, ((s.consumer i).pc.weight + 5) := Finset.sum_le_sum fun i _ => hone i
    _ = s.load + 5 * n := by
      rw [Finset.sum_add_distrib, Finset.sum_const, Finset.card_univ, Fintype.card_fin,
        nsmul_eq_mul, Nat.mul_comm]
      rfl

theorem weight_wakeProducer (s : State n) :
    s.wakeProducer.producer.weight n ≤ s.producer.weight n + 3 := by
  rcases s.wakeProducer_cases with heq | ⟨hb, hwoken⟩
  · rw [heq]
    exact Nat.le_add_right _ _
  · rw [hb, hwoken]
    exact le_rfl

end State

/-! ## What a step does to it -/

theorem potential_of_consumer {i : Fin n} {pc : ConsumerPc} {c : Consumer} (hpc : s.At i pc)
    (hconsumer : s'.consumer = Function.update s.consumer i c) (hmain : s'.main = s.main)
    (hinput : s'.input = s.input)
    (hlt : c.pc.weight + s'.producer.weight n + 14 * s'.buffer.length <
      pc.weight + s.producer.weight n + 14 * s.buffer.length) :
    s'.potential < s.potential := by
  have hload := State.load_of_consumer hpc hconsumer
  unfold State.potential
  rw [hmain, hinput]
  omega

/-- Consumer `i` goes on, and nothing else counts. -/
theorem potential_of_goto {i : Fin n} {pc : ConsumerPc} {c : Consumer} (hpc : s.At i pc)
    (hconsumer : s'.consumer = Function.update s.consumer i c) (hlt : c.pc.weight < pc.weight)
    (hmain : s'.main = s.main) (hproducer : s'.producer = s.producer)
    (hinput : s'.input = s.input) (hbuffer : s'.buffer = s.buffer) :
    s'.potential < s.potential := by
  apply potential_of_consumer hpc hconsumer hmain hinput
  rw [hproducer, hbuffer]
  omega

theorem ConsumerMove.potential {i : Fin n} (h : ConsumerMove s i s') :
    s'.potential < s.potential := by
  cases h with
  | enter hpc hfree =>
    rcases hpc with hpc | hpc
    · exact potential_of_goto hpc rfl (Nat.le_refl 5) rfl rfl rfl rfl
    · exact potential_of_goto hpc rfl (Nat.le_refl 5) rfl rfl rfl rfl
  | @pop command rest hpc hbuffer =>
    -- the item pays for the job
    refine potential_of_consumer hpc (Eq.refl _) rfl rfl ?_
    show 16 + s.producer.weight n + 14 * rest.length < 3 + s.producer.weight n + _
    rw [hbuffer, List.length_cons]
    omega
  | signal hpc =>
    refine potential_of_consumer hpc (Eq.refl _) rfl rfl ?_
    have hproducer := s.weight_wakeProducer
    show 12 + s.wakeProducer.producer.weight n + 14 * s.buffer.length <
      16 + s.producer.weight n + 14 * s.buffer.length
    omega
  | start hpc | bump hpc | run hpc | idle hpc | ask hpc | empty hpc | item hpc | leave hpc
  | sleep hpc | block hpc | release hpc | exit hpc | unlock hpc | receive hpc | complete hpc
  | jobs hpc | record hpc =>
    exact potential_of_goto hpc rfl (by simp [ConsumerPc.weight]) rfl rfl rfl rfl

theorem potential_of_producer {pc : ProducerPc} (hpc : s.producer = pc) (hmain : s'.main = s.main)
    (hlt : s'.producer.weight n + s'.load + 14 * s'.buffer.length + 26 * s'.input.length <
      pc.weight n + s.load + 14 * s.buffer.length + 26 * s.input.length) :
    s'.potential < s.potential := by
  unfold State.potential
  rw [hmain, hpc]
  omega

/-- The producer goes on, and nothing else counts. -/
theorem potential_of_produce {pc : ProducerPc} (hpc : s.producer = pc)
    (hlt : s'.producer.weight n < pc.weight n) (hmain : s'.main = s.main)
    (hconsumer : s'.consumer = s.consumer) (hinput : s'.input = s.input)
    (hbuffer : s'.buffer = s.buffer) : s'.potential < s.potential := by
  apply potential_of_producer hpc hmain
  rw [hinput, hbuffer, State.load, hconsumer]
  exact Nat.add_lt_add_right (Nat.add_lt_add_right (Nat.add_lt_add_right hlt _) _) _

/-- A line pays for the work it asks for. -/
theorem weight_readLine (s : State n) (command : Text) (rest : List Text) :
    (s.readLine command rest).producer.weight n ≤ 5 * n + 31 := by
  unfold State.readLine
  dsimp only
  split_ifs
  all_goals
    simp only [ProducerPc.weight]
    omega

theorem ProducerMove.potential (h : ProducerMove s s') : s'.potential < s.potential := by
  cases h with
  | @line command rest hpc hinput =>
    refine potential_of_producer hpc rfl ?_
    have hweight := weight_readLine s command rest
    show _ + s.load + 14 * s.buffer.length + 26 * rest.length < 5 * n + 6 + _ + _ + _
    rw [hinput, List.length_cons]
    omega
  | enter hpc hfree =>
    rcases hpc with hpc | hpc
    all_goals exact potential_of_produce hpc (Nat.lt_succ_self _) rfl rfl rfl rfl
  | push hpc =>
    -- the item is paid for
    refine potential_of_producer hpc rfl ?_
    show 5 * n + 13 + s.load + 14 * (s.buffer ++ [s.command]).length + 26 * s.input.length <
      5 * n + 28 + s.load + _ + _
    rw [List.length_append, List.length_singleton]
    omega
  | signalConsumer i hpc hi =>
    refine potential_of_producer hpc rfl ?_
    have hload : (s.goto i .woken).load + 0 = s.load + 5 := State.load_goto hi .woken
    show 5 * n + 7 + (s.goto i .woken).load + 14 * s.buffer.length + 26 * s.input.length <
      5 * n + 13 + s.load + _ + _
    omega
  | broadcast hpc =>
    refine potential_of_producer hpc rfl ?_
    have hload := s.load_wakeAll
    show 2 + s.wakeAll.load + 14 * s.buffer.length + 26 * s.input.length <
      5 * n + 3 + s.load + _ + _
    omega
  | start hpc | eof hpc | work hpc | full hpc | room hpc | block hpc | signalNobody hpc | unlock hpc
  | sleep hpc | setDone hpc | enterLast hpc | unlockEnd hpc | clear hpc =>
    exact potential_of_produce hpc (by simp [ProducerPc.weight]) rfl rfl rfl rfl

theorem SpuriousMove.potential (h : SpuriousMove s s') : s'.potential ≤ s.potential + 5 := by
  unfold State.potential
  cases h with
  | producer hb =>
    rw [hb]
    show s.main.weight n + (5 * n + 30) + s.load + 14 * s.buffer.length + 26 * s.input.length ≤
      s.main.weight n + (5 * n + 27) + _ + _ + _ + 5
    omega
  | consumer i hb =>
    have hload : (s.goto i .woken).load + 0 = s.load + 5 := State.load_goto hb .woken
    show s.main.weight n + s.producer.weight n + (s.goto i .woken).load + 14 * s.buffer.length +
      26 * s.input.length ≤ _
    omega

/-- `main` goes on, and nothing else counts. -/
theorem potential_of_main {pc : MainPc} (hpc : s.main = pc)
    (hlt : s'.main.weight n < pc.weight n) (hproducer : s'.producer = s.producer)
    (hconsumer : s'.consumer = s.consumer) (hinput : s'.input = s.input)
    (hbuffer : s'.buffer = s.buffer) : s'.potential < s.potential := by
  unfold State.potential State.load
  rw [hproducer, hconsumer, hinput, hbuffer, hpc]
  omega

theorem potential_mainStep (hh : Handles s) (h : s.mainStep = some s') :
    s'.potential < s.potential := by
  unfold State.mainStep at h
  cases hm : s.main with
  | createProducer =>
    simp only [hm, Option.some.injEq] at h
    subst h
    unfold State.potential
    rw [hm, hh.producer hm]
    show n - 0 + n + 3 + (5 * n + 7) + s.load + 14 * s.buffer.length + 26 * s.input.length <
      2 * n + 4 + (5 * n + 8) + _ + _ + _
    omega
  | create k =>
    simp only [hm] at h
    split_ifs at h with hk <;> cases h
    · have hload : (s.goto ⟨k, hk⟩ .start).load + 10 = s.load + 9 :=
        State.load_goto (hh.consumer ⟨k, hk⟩ (.inr ⟨k, le_rfl, hm⟩)) .start
      unfold State.potential
      rw [hm]
      show n - (k + 1) + n + 3 + s.producer.weight n + (s.goto ⟨k, hk⟩ .start).load +
        14 * s.buffer.length + 26 * s.input.length < n - k + n + 3 + _ + _ + _ + _
      omega
    · refine potential_of_main hm ?_ rfl rfl rfl rfl
      show n - 0 + 2 < n - k + n + 3
      omega
  | join k =>
    simp only [hm] at h
    split_ifs at h with hk
    · have hjoin : ∀ t, (if s.Ended t then some { s with main := .join (k + 1) } else none) =
          some s' → s'.potential < s.potential := by
        intro t ht
        split_ifs at ht
        cases ht
        refine potential_of_main hm ?_ rfl rfl rfl rfl
        show n - (k + 1) + 2 < n - k + 2
        omega
      split at h
      · exact hjoin _ h
      · cases h
    · cases h
      refine potential_of_main hm ?_ rfl rfl rfl rfl
      show 1 < n - k + 2
      omega
  | report =>
    simp only [hm, Option.some.injEq] at h
    subst h
    exact potential_of_main hm Nat.zero_lt_one rfl rfl rfl rfl
  | finished => simp [hm] at h

/-- Every statement lowers the potential, and a wake-up that nobody sent adds at
    most 5. -/
theorem potential_step : (system n input).Lowers State.potential (fun e => e.2.isSpurious) 5 := by
  intro s a t hreach h
  have hh := handles_of_reachable hreach
  unfold system step at h
  dsimp only at h
  split_ifs at h
  cases a with
  | main => exact .inl (potential_mainStep hh h)
  | producer woken => exact .inl (State.producerMove_of_step h).potential
  | consumer i => exact .inl (State.consumerMove_of_step h).potential
  | spurious t => exact .inr ⟨rfl, (State.spuriousMove_of_step h).potential⟩

/-- A run takes at most 26 statements for each line of the input and 17 for each
    consumer, and 6 more for each wake-up that nobody sent: such wake-ups are the
    one thing that can keep prodcon from its end. -/
theorem run_ends (n : ℕ) (input : List Text) :
    (∀ tr s, (system n input).Run (initState n input) tr s →
      tr.length ≤ 26 * input.length + 17 * n + 12 + 6 * spuriousCount tr) ∧
    ∀ (w : (system n input).Path) (i : ℕ), ∃ j ≥ i, (w.act j).isSpurious = true := by
  refine ⟨fun tr s h => ?_, fun w => w.often potential_step⟩
  rw [← State.potential_initState]
  exact h.length_le potential_step (.of_init rfl)

/-! ## What stops a thread -/

/-- The threads that `main` has created exist. -/
structure Created (s : State n) : Prop where
  producer : s.main ≠ .createProducer → s.producer ≠ .uncreated
  consumer : ∀ i : Fin n, s.main.After i → ¬ s.At i .uncreated

theorem ConsumerMove.not_uncreated {i : Fin n} (h : ConsumerMove s i s') :
    ¬ s'.At i .uncreated := by
  intro hi
  unfold State.At at hi
  cases h <;> simp [State.goto, State.setConsumer] at hi

theorem ProducerMove.not_uncreated (h : ProducerMove s s') : s'.producer ≠ .uncreated := by
  cases h with
  | @line command rest hpc hinput =>
    unfold State.readLine
    dsimp only
    split_ifs <;> exact nofun
  | _ => exact nofun

/-- A thread that a wake-up can reach exists, and still does. -/
theorem not_uncreated_of_cases {i : Fin n}
    (h : s'.consumer i = s.consumer i ∨ s.At i .blocked ∧ s'.At i .woken)
    (hi : ¬ s.At i .uncreated) : ¬ s'.At i .uncreated := by
  unfold State.At at *
  rcases h with heq | ⟨-, hwoken⟩
  · rwa [heq]
  · rw [hwoken]
    exact nofun

theorem Created.mainStep (h : Created s) (hs : s.mainStep = some s') : Created s' := by
  unfold State.mainStep at hs
  cases hm : s.main with
  | createProducer =>
    simp only [hm, Option.some.injEq] at hs
    subst hs
    refine ⟨fun _ => ?_, fun i hi => ?_⟩
    · simp
    · simp [MainPc.After] at hi
  | create k =>
    have hproducer := h.producer (by simp [hm])
    simp only [hm] at hs
    split_ifs at hs with hk <;> cases hs
    · refine ⟨fun _ => hproducer, fun i hi => ?_⟩
      have hle : i.val < k + 1 := by simpa [MainPc.After] using hi
      by_cases hik : i.val = k
      · obtain rfl : i = ⟨k, hk⟩ := Fin.ext hik
        simp [State.At, State.goto, State.setConsumer]
      · have hne : i ≠ ⟨k, hk⟩ := fun heq => hik (congrArg Fin.val heq)
        have hbefore := h.consumer i (.inl ⟨k, by omega, hm⟩)
        simpa [State.At, State.goto, State.setConsumer, hne] using hbefore
    · exact ⟨fun _ => hproducer, fun i _ => h.consumer i (.inl ⟨k, by omega, hm⟩)⟩
  | join k =>
    have hafter : Created ({ s with main := .join (k + 1) } : State n) :=
      ⟨fun _ => h.producer (by simp [hm]), fun i _ => h.consumer i (.inr (.inl ⟨k, hm⟩))⟩
    simp only [hm] at hs
    split_ifs at hs
    · split at hs
      · split_ifs at hs
        cases hs
        exact hafter
      · cases hs
    · cases hs
      refine ⟨fun _ => hafter.producer (by simp), fun i _ => ?_⟩
      exact hafter.consumer i (.inr (.inl ⟨_, rfl⟩))
  | report =>
    simp only [hm, Option.some.injEq] at hs
    subst hs
    exact ⟨fun _ => h.producer (by simp [hm]), fun i _ => h.consumer i (.inr (.inr (.inl hm)))⟩
  | finished => simp [hm] at hs

theorem Created.step {a : Action n} (h : Created s) (hs : step s a = some s') : Created s' := by
  unfold Prodcon.step at hs
  split_ifs at hs
  cases a with
  | main => exact h.mainStep hs
  | producer woken =>
    have hmove := State.producerMove_of_step hs
    refine ⟨fun _ => hmove.not_uncreated, fun i hi => ?_⟩
    exact not_uncreated_of_cases (hmove.frame.consumer i) (h.consumer i (hmove.frame.main ▸ hi))
  | consumer i =>
    have hmove := State.consumerMove_of_step hs
    have hf := hmove.frame
    refine ⟨fun hm => ?_, fun j hj => ?_⟩
    · rcases hf.producer with heq | ⟨-, hwoken⟩
      · rw [heq]
        exact h.producer (hf.main ▸ hm)
      · rw [hwoken]
        simp
    · by_cases hne : j = i
      · subst hne
        exact hmove.not_uncreated
      · rw [State.At, hf.others j hne]
        exact h.consumer j (hf.main ▸ hj)
  | spurious t =>
    have hmove := State.spuriousMove_of_step hs
    have hf := hmove.frame
    refine ⟨fun hm => ?_, fun i hi => ?_⟩
    · cases hmove with
      | producer hb => simp
      | consumer i hb => exact h.producer hm
    · exact not_uncreated_of_cases (hf.consumer i) (h.consumer i (hf.main ▸ hi))

theorem created_of_reachable (h : (system n input).Reachable s) : Created s := by
  apply h.invariant _ fun _ _ _ _ hc hs => hc.step hs
  rintro _ rfl
  refine ⟨fun hm => absurd rfl hm, fun i hi => ?_⟩
  simp [initState, MainPc.After] at hi

/-- Why consumer `i` does not move. -/
theorem consumer_cases_of_eq_none {i : Fin n} (h : s.consumerStep i = none) :
    s.At i .uncreated ∨ s.At i .blocked ∨ s.At i .returned ∨
      (s.At i .lock ∨ s.At i .woken) ∧ s.mutex ≠ none ∨ s.At i .pop ∧ s.buffer = [] := by
  unfold State.consumerStep at h
  unfold State.At
  cases hpc : (s.consumer i).pc with
  | uncreated | blocked | returned => simp
  | lock | woken => simpa [hpc] using h
  | loop | test | checkDone =>
    simp only [hpc] at h
    split_ifs at h
  | pop =>
    cases hbuffer : s.buffer with
    | nil => simp
    | cons command rest => simp [hpc, hbuffer] at h
  | _ => simp [hpc] at h

/-- Why the producer does not move. -/
theorem producer_cases_of_eq_none (h : ∀ woken, s.producerStep woken = none) :
    s.producer = .uncreated ∨ s.producer = .blocked ∨ s.producer = .finished ∨
      (s.producer = .lock ∨ s.producer = .woken ∨ s.producer = .lockEnd) ∧ s.mutex ≠ none := by
  have hnone := h none
  unfold State.producerStep at hnone
  cases hpc : s.producer with
  | uncreated | blocked | finished => simp
  | lock | woken | lockEnd => simpa [hpc] using hnone
  | getline => cases hinput : s.input <;> simp [hpc, hinput] at hnone
  | test =>
    simp only [hpc] at hnone
    split_ifs at hnone
  | signal =>
    by_cases hb : ∃ i, s.At i .blocked
    · obtain ⟨i, hi⟩ := hb
      have hsome := h (some i)
      simp [State.producerStep, hpc, hi] at hsome
    · simp [hpc, not_exists.mp hb] at hnone
  | _ => simp [hpc] at hnone

/-- Why `main` does not move: it joins a consumer that has not returned. -/
theorem main_cases_of_eq_none (hh : Handles s) (h : s.mainStep = none) :
    s.main = .finished ∨ ∃ i : Fin n, s.main = .join i ∧ ¬ s.At i .returned := by
  unfold State.mainStep at h
  cases hm : s.main with
  | finished => exact .inl rfl
  | createProducer | report => simp [hm] at h
  | create k =>
    simp only [hm] at h
    split_ifs at h
  | join k =>
    simp only [hm] at h
    split_ifs at h with hk
    rw [hh.handle ⟨k, hk⟩ (.inr (.inl ⟨k, hm⟩))] at h
    dsimp only at h
    split_ifs at h with hended
    exact .inr ⟨⟨k, hk⟩, rfl, hended⟩

/-! ## Nothing stops the threads -/

/-- A thread inside its critical section moves. -/
theorem mutex_eq_none_of_stuck (hok : s.monitor.Ok (maxbuffer n))
    (hproducer : ∀ woken, s.producerStep woken = none) (hconsumer : ∀ i, s.consumerStep i = none) :
    s.mutex = none := by
  by_contra howned
  obtain ⟨t, ht⟩ := Option.ne_none_iff_exists'.mp howned
  have hinside : (s.monitor.place t).inside = true := (hok.mutex t).mp ht
  cases t with
  | producer =>
    have hplace : s.producer.place.inside = true := hinside
    rcases producer_cases_of_eq_none hproducer with hp | hp | hp | ⟨hp | hp | hp, -⟩ <;>
      simp [hp, ProducerPc.place, Place.inside] at hplace
  | consumer i =>
    have hplace : (s.consumer i).pc.place.inside = true := hinside
    rcases consumer_cases_of_eq_none (hconsumer i) with hi | hi | hi | ⟨hi | hi, -⟩ | ⟨hi, hempty⟩
    case inr.inr.inr.inr => exact buffer_ne_nil_of_pop hok hi hempty
    all_goals
      unfold State.At at hi
      simp [hi, ConsumerPc.place, Place.inside] at hplace

/-- When the producer and the consumers are stuck, no consumer sleeps. -/
theorem not_blocked_of_stuck (hok : s.monitor.Ok (maxbuffer n)) (hcreated : s.producer ≠ .uncreated)
    (hproducer : ∀ woken, s.producerStep woken = none) (hconsumer : ∀ i, s.consumerStep i = none)
    (i : Fin n) : ¬ s.At i .blocked := by
  intro hi
  have hfree := mutex_eq_none_of_stuck hok hproducer hconsumer
  have hplace : s.monitor.place (.consumer i) = .blocked := (ConsumerPc.place_eq_blocked _).mpr hi
  rcases producer_cases_of_eq_none hproducer with hp | hp | hp | ⟨-, howned⟩
  · exact hcreated hp
  · -- the buffer is full, and no consumer that is awake will look at it
    have hfull : maxbuffer n ≤ s.monitor.size :=
      hok.producer_of_free hfree (congrArg ProducerPc.place hp)
    have hlooks := hok.consumers_of_free hfree ⟨i, hplace⟩
    have hnobody : (Finset.univ.filter fun j => s.monitor.place (.consumer j) = .woken) = ∅ := by
      refine Finset.filter_eq_empty_iff.mpr fun j _ hj => ?_
      have hwoken : s.At j .woken := (ConsumerPc.place_eq_woken _).mp hj
      have hmoves := hconsumer j
      unfold State.consumerStep at hmoves
      unfold State.At at hwoken
      simp [hwoken, hfree] at hmoves
    rw [hnobody, Finset.card_empty] at hlooks
    have hpos := i.pos
    unfold maxbuffer at hfull
    omega
  · -- the last broadcast has woken everybody
    have hall : s.monitor.announced = true := by
      show s.producer.hasBroadcast = true
      rw [hp]
      rfl
    exact (hok.announced hall i).2 hplace
  · exact howned hfree

theorem finished_of_stuck (h : (system n input).Reachable s)
    (hstuck : ∀ a : Action n, a.isSpurious = false → step s a = none) : s.main = .finished := by
  by_contra hrunning
  have hthread : ∀ a : Action n, a.isSpurious = false → step s a = none := hstuck
  simp only [step, if_neg hrunning] at hthread
  have hproducer : ∀ woken, s.producerStep woken = none :=
    fun woken => hthread (.producer woken) rfl
  have hconsumer : ∀ i, s.consumerStep i = none := fun i => hthread (.consumer i) rfl
  have hok := monitorOk_of_reachable h
  have hcreated := created_of_reachable h
  rcases main_cases_of_eq_none (handles_of_reachable h) (hthread .main rfl) with hm | ⟨i, hm, hi⟩
  · exact hrunning hm
  rcases consumer_cases_of_eq_none (hconsumer i) with hpc | hpc | hpc | ⟨-, howned⟩ | ⟨hpc, hempty⟩
  · exact hcreated.consumer i (.inr (.inl ⟨i, hm⟩)) hpc
  · exact not_blocked_of_stuck hok (hcreated.producer (by simp [hm])) hproducer hconsumer i hpc
  · exact hi hpc
  · exact howned (mutex_eq_none_of_stuck hok hproducer hconsumer)
  · exact buffer_ne_nil_of_pop hok hpc hempty

/-- The threads of prodcon stop only when `main` has returned, and from every
    reachable state it can still return. -/
theorem finished_iff_stuck (h : (system n input).Reachable s) :
    ((∀ a : Action n, a.isSpurious = false → step s a = none) ↔ s.main = .finished) ∧
      ∃ t, (system n input).Leads s t ∧ t.main = .finished := by
  have hcloser : ∀ u, (system n input).Reachable u → u.main = .finished ∨ ∃ v,
      (system n input).Leads u v ∧ (system n input).Reachable v ∧ v.potential < u.potential := by
    intro u hu
    by_cases hm : u.main = .finished
    · exact .inl hm
    have hmoves : ∃ a : Action n, a.isSpurious = false ∧ step u a ≠ none := by
      by_contra hstuck
      push Not at hstuck
      exact hm (finished_of_stuck hu hstuck)
    obtain ⟨a, ha, hsome⟩ := hmoves
    obtain ⟨v, hstep⟩ := Option.ne_none_iff_exists'.mp hsome
    refine .inr ⟨v, .of_step hstep, hu.step hstep, ?_⟩
    rcases potential_step u a v hu hstep with hlt | ⟨hspurious, -⟩
    · exact hlt
    · simp [ha] at hspurious
  obtain ⟨t, hlead, -, hgoal⟩ := System.exists_leads hcloser h
  exact ⟨⟨finished_of_stuck h, fun hm a _ => if_pos hm⟩, t, hlead, hgoal⟩

/-- One consumer wakes up for nothing, takes the only line, and returns when the
    producer is done. -/
def wholeRun : List (Action 1) :=
  [.main, .main, .producer none] ++ List.replicate 8 (.consumer c0) ++
    [.spurious (.consumer c0)] ++ List.replicate 4 (.consumer c0) ++
    List.replicate 5 (.producer none) ++ [.producer (some c0), .producer none] ++
    List.replicate 9 (.consumer c0) ++ List.replicate 6 (.producer none) ++
    List.replicate 2 (.consumer c0) ++ List.replicate 4 .main

theorem exec_wholeRun : ∃ s, (system 1 [['T', '1']]).exec (initState 1 [['T', '1']]) wholeRun =
    some s ∧ s.main = .finished ∧ s.completed = [['T', '1']] := by
  have hrun : ((system 1 [['T', '1']]).exec (initState 1 [['T', '1']]) wholeRun).map
      (fun s => (s.main, s.completed)) = some (.finished, [['T', '1']]) := by
    decide +kernel
  obtain ⟨s, hexec, hview⟩ := Option.map_eq_some_iff.mp hrun
  simp only [Prod.mk.injEq] at hview
  exact ⟨s, hexec, hview⟩

theorem run_ends_wholeRun : ∃ s tr, (system 1 [['T', '1']]).Run (initState 1 [['T', '1']]) tr s ∧
    s.main = .finished ∧
    tr.length ≤ 26 * 1 + 17 * 1 + 12 + 6 * spuriousCount tr := by
  obtain ⟨s, hexec, hfinished, -⟩ := exec_wholeRun
  exact ⟨s, _, .of_exec hexec, hfinished, (run_ends 1 [['T', '1']]).1 _ _ (.of_exec hexec)⟩

theorem finished_iff_stuck_wholeRun : ∃ s, (system 1 [['T', '1']]).exec
    (initState 1 [['T', '1']]) wholeRun = some s ∧
    ((∀ a : Action 1, a.isSpurious = false → step s a = none) ↔ s.main = .finished) ∧
      ∃ t, (system 1 [['T', '1']]).Leads s t ∧ t.main = .finished := by
  obtain ⟨s, hexec, -⟩ := exec_wholeRun
  exact ⟨s, hexec, finished_iff_stuck (System.Reachable.of_exec rfl hexec)⟩

end Cmput379.Prodcon
