import Cmput379.Prodcon.Moves

/-!
# What main knows of its threads

* `Frame`: what the steps of the created threads leave as it is.
* `Handles`: the invariant of `main`; `threads[i]` is the handle of consumer `i`,
  also for `i = 0`, so that the producer is never joined.
* `returned_of_report`: when `main` calls `output_stats`, every consumer has
  returned.
* `Move`, `move_of_step`: what a step can do in a state with that invariant.
-/

namespace Cmput379.Prodcon

open Cmput379.Lib

variable {n : ℕ} {input : List Text} {s s' : State n}

/-! ## Frame -/

/-- What the steps of the created threads leave as it is. -/
structure Frame (s s' : State n) : Prop where
  main : s'.main = s.main
  threads : s'.threads = s.threads
  producer : s.producer = .uncreated → s'.producer = .uncreated
  consumer : ∀ i, s.At i .uncreated ∨ s.At i .returned → s'.consumer i = s.consumer i

theorem ProducerFrame.frame (h : ProducerFrame s s') : Frame s s' where
  main := h.main
  threads := h.threads
  producer := h.producer
  consumer := by
    intro i hi
    rcases h.consumer i with heq | ⟨hb, -⟩
    · exact heq
    · rw [State.At, State.At, hb] at hi
      simp at hi

theorem ConsumerMove.not_at {i : Fin n} (h : ConsumerMove s i s') :
    ¬ (s.At i .uncreated ∨ s.At i .returned) := by
  rintro (hi | hi) <;> cases h with
  | enter hpc => rcases hpc with hpc | hpc <;> exact absurd (hpc.symm.trans hi) nofun
  | start hpc | bump hpc | run hpc | idle hpc | ask hpc | empty hpc | item hpc | leave hpc
  | sleep hpc | block hpc | release hpc | exit hpc | pop hpc | signal hpc | unlock hpc
  | receive hpc | complete hpc | jobs hpc | record hpc => exact absurd (hpc.symm.trans hi) nofun

theorem step_frame {a : Action n} (ha : a ≠ .main) (h : step s a = some s') : Frame s s' := by
  unfold step at h
  split_ifs at h
  cases a with
  | main => exact absurd rfl ha
  | producer woken => exact (State.producerMove_of_step h).frame.frame
  | spurious t => exact (State.spuriousMove_of_step h).frame.frame
  | consumer i =>
    have hmove := State.consumerMove_of_step h
    have hf := hmove.frame
    refine ⟨hf.main, hf.threads, fun hp => ?_, fun j hj => hf.others j ?_⟩
    · rcases hf.producer with heq | ⟨hb, -⟩
      · rw [heq, hp]
      · simp [hp] at hb
    · rintro rfl
      exact hmove.not_at hj

/-! ## The handles -/

/-- `main` has not yet created consumer `i`. -/
def MainPc.Before (pc : MainPc) (i : ℕ) : Prop :=
  pc = .createProducer ∨ ∃ k ≤ i, pc = .create k

/-- `main` has created consumer `i`. -/
def MainPc.After (pc : MainPc) (i : ℕ) : Prop :=
  (∃ k > i, pc = .create k) ∨ (∃ k, pc = .join k) ∨ pc = .report ∨ pc = .finished

/-- `main` has joined consumer `i`. -/
def MainPc.Joined (pc : MainPc) (i : ℕ) : Prop :=
  (∃ k > i, pc = .join k) ∨ pc = .report ∨ pc = .finished

/-- The invariant of `main`. -/
structure Handles (s : State n) : Prop where
  producer : s.main = .createProducer → s.producer = .uncreated
  consumer : ∀ i : Fin n, s.main.Before i → s.At i .uncreated
  handle : ∀ i : Fin n, s.main.After i → s.threads i = some (.consumer i)
  joined : ∀ i : Fin n, s.main.Joined i → s.At i .returned

theorem handles_initState : Handles (initState n input) := by
  refine ⟨fun _ => rfl, fun _ _ => rfl, fun i h => ?_, fun i h => ?_⟩
  · simp [initState, MainPc.After] at h
  · simp [initState, MainPc.Joined] at h

theorem Handles.frame (h : Handles s) (hf : Frame s s') : Handles s' where
  producer hm := hf.producer (h.producer (hf.main ▸ hm))
  consumer i hi := by
    have hbefore := h.consumer i (hf.main ▸ hi)
    rw [State.At, hf.consumer i (.inl hbefore)]
    exact hbefore
  handle i hi := by
    rw [hf.threads]
    exact h.handle i (hf.main ▸ hi)
  joined i hi := by
    have hreturned := h.joined i (hf.main ▸ hi)
    rw [State.At, hf.consumer i (.inr hreturned)]
    exact hreturned

theorem Handles.mainStep (h : Handles s) (hs : s.mainStep = some s') : Handles s' := by
  unfold State.mainStep at hs
  cases hm : s.main with
  | createProducer =>
    simp only [hm, Option.some.injEq] at hs
    subst hs
    refine ⟨by rintro ⟨⟩, fun i _ => h.consumer i (.inl hm), fun i hi => ?_, fun i hi => ?_⟩
    · simp [MainPc.After] at hi
    · simp [MainPc.Joined] at hi
  | create k =>
    simp only [hm] at hs
    split_ifs at hs with hk <;> cases hs
    · refine ⟨by rintro ⟨⟩, fun i hi => ?_, fun i hi => ?_, fun i hi => ?_⟩
      · have hlt : k + 1 ≤ i.val := by simpa [MainPc.Before] using hi
        have hne : i ≠ ⟨k, hk⟩ := by
          rintro rfl
          exact absurd hlt (by simp)
        have hbefore := h.consumer i (.inr ⟨k, by omega, hm⟩)
        simpa [State.At, State.goto, State.setConsumer, hne] using hbefore
      · have hle : i.val < k + 1 := by simpa [MainPc.After] using hi
        show Function.update s.threads k _ i.val = _
        by_cases hik : i.val = k
        · obtain rfl : i = ⟨k, hk⟩ := Fin.ext hik
          simp
        · rw [Function.update_of_ne hik]
          exact h.handle i (.inl ⟨k, by omega, hm⟩)
      · simp [MainPc.Joined] at hi
    · refine ⟨by rintro ⟨⟩, fun i hi => ?_, fun i _ => ?_, fun i hi => ?_⟩
      · simp [MainPc.Before] at hi
      · exact h.handle i (.inl ⟨k, by omega, hm⟩)
      · simp [MainPc.Joined] at hi
  | join k =>
    simp only [hm] at hs
    have hhandle : ∀ i : Fin n, s.threads i = some (.consumer i) :=
      fun i => h.handle i (.inr (.inl ⟨k, hm⟩))
    split_ifs at hs with hk
    · rw [hhandle ⟨k, hk⟩] at hs
      dsimp only at hs
      split_ifs at hs with hended
      cases hs
      refine ⟨by rintro ⟨⟩, fun i hi => ?_, fun i _ => hhandle i, fun i hi => ?_⟩
      · simp [MainPc.Before] at hi
      · have hle : i.val < k + 1 := by simpa [MainPc.Joined] using hi
        by_cases hik : i.val = k
        · obtain rfl : i = ⟨k, hk⟩ := Fin.ext hik
          exact hended
        · exact h.joined i (.inl ⟨k, by omega, hm⟩)
    · cases hs
      refine ⟨by rintro ⟨⟩, fun i hi => ?_, fun i _ => hhandle i, fun i _ => ?_⟩
      · simp [MainPc.Before] at hi
      · exact h.joined i (.inl ⟨k, by omega, hm⟩)
  | report =>
    simp only [hm, Option.some.injEq] at hs
    subst hs
    refine ⟨by rintro ⟨⟩, fun i hi => ?_, fun i _ => h.handle i (.inr (.inr (.inl hm))),
      fun i _ => h.joined i (.inr (.inl hm))⟩
    simp [MainPc.Before] at hi
  | finished => simp [hm] at hs

theorem Handles.step {a : Action n} (h : Handles s) (hs : step s a = some s') : Handles s' := by
  by_cases ha : a = .main
  · subst ha
    unfold Prodcon.step at hs
    split_ifs at hs
    exact h.mainStep hs
  · exact h.frame (step_frame ha hs)

theorem handles_of_reachable (h : (system n input).Reachable s) : Handles s :=
  h.invariant (by rintro _ rfl; exact handles_initState) fun _ _ _ _ hh hs => hh.step hs

/-- Nobody joins the producer, but every consumer has returned when `main`
    reports. -/
theorem returned_of_report (h : (system n input).Reachable s) (hreport : s.main = .report)
    (i : Fin n) : s.At i .returned :=
  (handles_of_reachable h).joined i (.inr (.inl hreport))

/-! ## All steps -/

/-- What `main` can do: a thread it creates has not run before. -/
inductive MainMove (s : State n) : State n → Prop
  | producer (pc : MainPc) (threads : ℕ → Option (Thread (Fin n)))
      (hp : s.producer = .uncreated) :
      MainMove s { s with threads, producer := .start, main := pc }
  | consumer (i : Fin n) (pc : MainPc) (threads : ℕ → Option (Thread (Fin n)))
      (hi : s.At i .uncreated) : MainMove s { s.goto i .start with threads, main := pc }
  | control (pc : MainPc) : MainMove s { s with main := pc }

theorem State.mainMove_of_step (hh : Handles s) (h : s.mainStep = some s') : MainMove s s' := by
  unfold mainStep at h
  cases hm : s.main with
  | createProducer =>
    simp only [hm, Option.some.injEq] at h
    exact h ▸ .producer _ _ (hh.producer hm)
  | create k =>
    simp only [hm] at h
    split_ifs at h with hk <;> cases h
    · exact .consumer _ _ _ (hh.consumer ⟨k, hk⟩ (.inr ⟨k, le_rfl, hm⟩))
    · exact .control _
  | join k =>
    simp only [hm] at h
    split_ifs at h
    · split at h
      · split_ifs at h
        cases h
        exact .control _
      · cases h
    · cases h
      exact .control _
  | report =>
    simp only [hm, Option.some.injEq] at h
    exact h ▸ .control _
  | finished => simp [hm] at h

/-- What a step can do. -/
inductive Move (s : State n) : Action n → State n → Prop
  | main {s' : State n} (h : MainMove s s') : Move s .main s'
  | producer {s' : State n} {woken : Option (Fin n)} (h : ProducerMove s s') :
      Move s (.producer woken) s'
  | consumer {s' : State n} (i : Fin n) (h : ConsumerMove s i s') : Move s (.consumer i) s'
  | spurious {s' : State n} {t : Thread (Fin n)} (h : SpuriousMove s s') : Move s (.spurious t) s'

theorem move_of_step {a : Action n} (hh : Handles s) (h : step s a = some s') : Move s a s' := by
  unfold step at h
  split_ifs at h
  cases a with
  | main => exact .main (State.mainMove_of_step hh h)
  | producer woken => exact .producer (State.producerMove_of_step h)
  | consumer i => exact .consumer i (State.consumerMove_of_step h)
  | spurious t => exact .spurious (State.spuriousMove_of_step h)

end Cmput379.Prodcon
