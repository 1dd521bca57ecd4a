import Cmput379.Lib.SharedCell
import Cmput379.Prodcon.Wakeup
import Cmput379.Prodcon.Accounts

/-!
# The summary of prodcon

`output_stats` prints the counters and, for each id from 1 to `nthreads`, the
tasks that `thread_completed_tasks` has for it. Nothing protects `consumeThreads`:
two consumers can read the same id before either of them increments it, and then
each overwrites what the other has stored.

* `outputStats`: the summary.
* `Tallies`: the invariant that relates the counters to the consumers.
* `summaryOk`: what the printed numbers say about each other.
-/

namespace Cmput379.Prodcon

open Cmput379.Lib

variable {n : ℕ} {input : List Text} {s s' : State n}

/-! ## The summary -/

/-- What `output_stats` prints (outfile.cpp:8-25), without the rate. -/
structure Summary where
  work : ℕ
  ask : ℕ
  receive : ℕ
  complete : ℕ
  sleep : ℕ
  threads : List (ℕ × ℕ)

/-- `output_stats`; a missing entry of the map reads 0. -/
def outputStats (nthreads : ℕ) (noOfCompletedTasks : ℕ → ℕ)
    (workCount askCount receiveCount completeCount sleepCount : ℕ) : Summary where
  work := workCount
  ask := askCount
  receive := receiveCount
  complete := completeCount
  sleep := sleepCount
  threads := (List.range' 1 nthreads).map fun i => (i, noOfCompletedTasks i)

/-- The call of `output_stats` at the end of `main` (line 257). -/
def State.summary (s : State n) : Summary :=
  outputStats n s.threadCompletedTasks s.workCount s.askCount s.receiveCount s.completeCount
    s.sleepCount

/-! ## What a consumer has counted -/

/-- The consumer has its id. -/
def ConsumerPc.numbered : ConsumerPc → Bool
  | .uncreated | .start => false
  | _ => true

/-- The consumer has incremented `consumeThreads`. -/
def ConsumerPc.bumped : ConsumerPc → Bool
  | .uncreated | .start | .bump => false
  | _ => true

/-- The consumer has asked, and not yet received or left. -/
def ConsumerPc.asking : ConsumerPc → Bool
  | .lock | .test | .checkDone | .wait | .blocked | .woken | .pop | .signal | .unlock | .receive =>
    true
  | _ => false

/-- The consumer may have asked and not received. -/
def ConsumerPc.askedLast : ConsumerPc → Bool
  | .leave | .exit | .returned => true
  | pc => pc.asking

namespace Consumer

/-- What the consumer has added to `complete_count`. -/
def credit (c : Consumer) : ℕ :=
  if c.pc.numbered then c.jobsComplete + (if c.pc = .jobs then 1 else 0) else 0

/-- What the consumer has last stored in `thread_completed_tasks`. -/
def recorded (c : Consumer) : ℕ :=
  if c.pc.numbered then c.jobsComplete - (if c.pc = .record then 1 else 0) else 0

end Consumer

/-- The counters and the consumers. -/
structure Tallies (s : State n) : Prop where
  ids : s.consumeThreads = 1 + ∑ i, (s.consumer i).pc.bumped.toNat
  range : ∀ i, (s.consumer i).pc.numbered = true → 1 ≤ (s.consumer i).id ∧ (s.consumer i).id ≤ n
  asking : s.receiveCount + ∑ i, (s.consumer i).pc.asking.toNat ≤ s.askCount
  asked : s.askCount ≤ s.receiveCount + ∑ i, (s.consumer i).pc.askedLast.toNat
  complete : s.completeCount = ∑ i, (s.consumer i).credit
  record : ∀ i, s.At i .record → (s.consumer i).jobsComplete ≠ 0
  copied : Copied (fun i => (s.consumer i).id) (fun i => (s.consumer i).recorded)
    s.threadCompletedTasks

theorem tallies_initState : Tallies (initState n input) where
  ids := by simp [initState, ConsumerPc.bumped]
  range i hi := by simp [initState, ConsumerPc.numbered] at hi
  asking := by simp [initState, ConsumerPc.asking]
  asked := by simp [initState]
  complete := by simp [initState, Consumer.credit, ConsumerPc.numbered]
  record i hi := by simp [initState, State.At] at hi
  copied := ⟨fun k hk => absurd rfl hk, fun i hi => absurd rfl hi⟩

/-- Consumer `i` becomes `c`. -/
theorem Tallies.consumer (h : Tallies s) {i : Fin n} {c : Consumer}
    (hconsumer : s'.consumer = Function.update s.consumer i c)
    (hids : s'.consumeThreads + (s.consumer i).pc.bumped.toNat =
      s.consumeThreads + c.pc.bumped.toNat)
    (hrange : c.pc.numbered = true → 1 ≤ c.id ∧ c.id ≤ n)
    (hasking : s'.receiveCount + c.pc.asking.toNat + s.askCount ≤
      s.receiveCount + (s.consumer i).pc.asking.toNat + s'.askCount)
    (hasked : s'.askCount + s.receiveCount + (s.consumer i).pc.askedLast.toNat ≤
      s.askCount + s'.receiveCount + c.pc.askedLast.toNat)
    (hcomplete : s'.completeCount + (s.consumer i).credit = s.completeCount + c.credit)
    (hrecord : c.pc = .record → c.jobsComplete ≠ 0)
    (hcopied : Copied (Function.update (fun j => (s.consumer j).id) i c.id)
      (Function.update (fun j => (s.consumer j).recorded) i c.recorded) s'.threadCompletedTasks) :
    Tallies s' where
  ids := by
    have hsum := sum_update_add (fun c : Consumer => c.pc.bumped.toNat) s.consumer i c
    have hbefore := h.ids
    rw [hconsumer]
    omega
  range := by
    intro j hj
    rw [hconsumer, Function.update_apply] at hj ⊢
    split_ifs at hj ⊢ with hji
    · exact hrange hj
    · exact h.range j hj
  asking := by
    have hsum := sum_update_add (fun c : Consumer => c.pc.asking.toNat) s.consumer i c
    have hbefore := h.asking
    rw [hconsumer]
    omega
  asked := by
    have hsum := sum_update_add (fun c : Consumer => c.pc.askedLast.toNat) s.consumer i c
    have hbefore := h.asked
    rw [hconsumer]
    omega
  complete := by
    have hsum := sum_update_add Consumer.credit s.consumer i c
    have hbefore := h.complete
    rw [hconsumer]
    omega
  record := by
    intro j hj
    unfold State.At at hj
    rw [hconsumer, Function.update_apply] at hj ⊢
    split_ifs at hj ⊢ with hji
    · exact hrecord hj
    · exact h.record j hj
  copied := by
    have hid : (fun j => (s'.consumer j).id) =
        Function.update (fun j => (s.consumer j).id) i c.id := by
      rw [hconsumer]
      exact Function.comp_update Consumer.id s.consumer i c
    have hown : (fun j => (s'.consumer j).recorded) =
        Function.update (fun j => (s.consumer j).recorded) i c.recorded := by
      rw [hconsumer]
      exact Function.comp_update Consumer.recorded s.consumer i c
    rw [hid, hown]
    exact hcopied

/-- What the consumers count together. -/
structure Counts where
  ids : ℕ
  ask : ℕ
  receive : ℕ
  complete : ℕ
  tasks : ℕ → ℕ

def State.counts (s : State n) : Counts where
  ids := s.consumeThreads
  ask := s.askCount
  receive := s.receiveCount
  complete := s.completeCount
  tasks := s.threadCompletedTasks

/-- Going from the one statement to the other counts nothing. -/
structure ConsumerPc.Quiet (pc pc' : ConsumerPc) : Prop where
  numbered : pc'.numbered = pc.numbered
  bumped : pc'.bumped = pc.bumped
  asking : pc'.asking.toNat ≤ pc.asking.toNat
  asked : pc.askedLast.toNat ≤ pc'.askedLast.toNat
  jobs : pc' = .jobs ↔ pc = .jobs
  record : pc' = .record ↔ pc = .record

theorem credit_quiet {c : Consumer} {pc : ConsumerPc} (command : Text) (hquiet : c.pc.Quiet pc) :
    ({ c with pc, command } : Consumer).credit = c.credit := by
  simp only [Consumer.credit, hquiet.numbered, hquiet.jobs]

theorem recorded_quiet {c : Consumer} {pc : ConsumerPc} (command : Text) (hquiet : c.pc.Quiet pc) :
    ({ c with pc, command } : Consumer).recorded = c.recorded := by
  simp only [Consumer.recorded, hquiet.numbered, hquiet.record]

/-- Consumer `i` goes on and counts nothing. -/
theorem Tallies.quiet (h : Tallies s) {i : Fin n} {pc pc' : ConsumerPc} {command : Text}
    (hpc : s.At i pc)
    (hconsumer : s'.consumer =
      Function.update s.consumer i { s.consumer i with pc := pc', command })
    (hcounts : s'.counts = s.counts) (hquiet : pc.Quiet pc') : Tallies s' := by
  subst hpc
  obtain ⟨hids, hask, hreceive, hcomplete, htasks⟩ : s'.consumeThreads = s.consumeThreads ∧
      s'.askCount = s.askCount ∧ s'.receiveCount = s.receiveCount ∧
      s'.completeCount = s.completeCount ∧ s'.threadCompletedTasks = s.threadCompletedTasks := by
    simpa only [State.counts, Counts.mk.injEq] using hcounts
  have hbumped := hquiet.bumped
  have hasking := hquiet.asking
  have hasked := hquiet.asked
  have hcredit := credit_quiet command hquiet
  have hrecorded := recorded_quiet command hquiet
  refine h.consumer hconsumer ?_ ?_ ?_ ?_ ?_ ?_ ?_
  · rw [hids, hbumped]
  · intro hnumbered
    exact h.range i (hquiet.numbered ▸ hnumbered)
  · rw [hask, hreceive]
    show _ + pc'.asking.toNat + _ ≤ _
    omega
  · rw [hask, hreceive]
    show _ ≤ _ + pc'.askedLast.toNat
    omega
  · rw [hcomplete, hcredit]
  · intro hrecord
    exact h.record i (hquiet.record.mp hrecord)
  · rw [htasks, hrecorded, Function.update_eq_self i fun j => (s.consumer j).recorded,
      Function.update_eq_self i fun j => (s.consumer j).id]
    exact h.copied

/-- Consumer `i` stores nothing, and keeps its id. -/
theorem Tallies.copied_same (h : Tallies s) {i : Fin n} {c : Consumer}
    (hid : c.id = (s.consumer i).id) (hrecorded : c.recorded = (s.consumer i).recorded) :
    Copied (Function.update (fun j => (s.consumer j).id) i c.id)
      (Function.update (fun j => (s.consumer j).recorded) i c.recorded)
      s.threadCompletedTasks := by
  rw [hid, hrecorded, Function.update_eq_self i fun j => (s.consumer j).recorded,
    Function.update_eq_self i fun j => (s.consumer j).id]
  exact h.copied

/-- While consumer `i` has not started, at most the others have their id. -/
theorem bumped_lt {i : Fin n} (hpc : (s.consumer i).pc = .start) :
    ∑ j, (s.consumer j).pc.bumped.toNat < n := by
  have hsum := sum_update_add (fun c : Consumer => c.pc.bumped.toNat) s.consumer i
    { s.consumer i with pc := .loop }
  have hle : ∑ j, (Function.update s.consumer i { s.consumer i with pc := .loop } j).pc.bumped.toNat
      ≤ ∑ _j : Fin n, 1 := Finset.sum_le_sum fun j _ => Bool.toNat_le _
  rw [Finset.sum_const, Finset.card_univ, Fintype.card_fin, nsmul_eq_mul, mul_one, Nat.cast_id]
    at hle
  rw [hpc] at hsum
  have hsum' : _ + 0 = ∑ j, (s.consumer j).pc.bumped.toNat + 1 := hsum
  omega

/-- Consumer `i` takes its id (lines 134-135). -/
theorem Tallies.start (h : Tallies s) {i : Fin n} (hpc : s.At i .start) :
    Tallies (s.setConsumer i
      { s.consumer i with id := s.consumeThreads, jobsComplete := 0, pc := .bump }) := by
  unfold State.At at hpc
  have hids := h.ids
  refine h.consumer rfl ?_ ?_ ?_ ?_ ?_ nofun ?_
  · rw [hpc]
    rfl
  · intro _
    have hothers := bumped_lt hpc
    show 1 ≤ s.consumeThreads ∧ s.consumeThreads ≤ n
    omega
  · rw [hpc]
    rfl
  · rw [hpc]
    rfl
  · rw [Consumer.credit, hpc]
    rfl
  · have hzero : (s.consumer i).recorded = 0 := by
      rw [Consumer.recorded, hpc]
      rfl
    have hown : Function.update (fun j => (s.consumer j).recorded) i 0 =
        fun j => (s.consumer j).recorded := by
      rw [← hzero]
      exact Function.update_eq_self i fun j => (s.consumer j).recorded
    show Copied (Function.update _ i s.consumeThreads) (Function.update _ i 0) _
    rw [hown]
    exact h.copied.assign hzero _

/-- Consumer `i` counts, and stores nothing. -/
theorem Tallies.count (h : Tallies s) {i : Fin n} {pc pc' : ConsumerPc} (hpc : s.At i pc)
    (hconsumer : s'.consumer = Function.update s.consumer i { s.consumer i with pc := pc' })
    (hids : s'.consumeThreads + pc.bumped.toNat = s.consumeThreads + pc'.bumped.toNat)
    (hasking : s'.receiveCount + pc'.asking.toNat + s.askCount ≤
      s.receiveCount + pc.asking.toNat + s'.askCount)
    (hasked : s'.askCount + s.receiveCount + pc.askedLast.toNat ≤
      s.askCount + s'.receiveCount + pc'.askedLast.toNat)
    (hcomplete : s'.completeCount + (if pc = .jobs then 1 else 0) =
      s.completeCount + if pc' = .jobs then 1 else 0)
    (htasks : s'.threadCompletedTasks = s.threadCompletedTasks)
    (hnumbered : pc.numbered = true ∧ pc'.numbered = true)
    (hrecord : pc ≠ .record ∧ pc' ≠ .record) : Tallies s' := by
  subst hpc
  have hcredit : (s.consumer i).credit =
      (s.consumer i).jobsComplete + if (s.consumer i).pc = .jobs then 1 else 0 :=
    if_pos hnumbered.1
  have hcredit' : ({ s.consumer i with pc := pc' } : Consumer).credit =
      (s.consumer i).jobsComplete + if pc' = .jobs then 1 else 0 := if_pos hnumbered.2
  refine h.consumer hconsumer hids ?_ hasking hasked ?_ ?_ ?_
  · exact fun _ => h.range i hnumbered.1
  · rw [hcredit, hcredit']
    omega
  · exact fun heq => absurd heq hrecord.2
  · rw [htasks]
    refine h.copied_same (Eq.refl _) ?_
    simp only [Consumer.recorded, hnumbered, hrecord, if_true, if_false]

/-- Consumer `i` has completed a job (line 202). -/
theorem Tallies.jobs (h : Tallies s) {i : Fin n} (hpc : s.At i .jobs) :
    Tallies (s.setConsumer i
      { s.consumer i with jobsComplete := (s.consumer i).jobsComplete + 1, pc := .record }) := by
  unfold State.At at hpc
  refine h.consumer rfl ?_ ?_ ?_ ?_ ?_ (fun _ => Nat.succ_ne_zero _) ?_
  · rw [hpc]
    rfl
  · exact fun _ => h.range i (by rw [hpc]; rfl)
  · rw [hpc]
    rfl
  · rw [hpc]
    rfl
  · rw [Consumer.credit, hpc]
    rfl
  · refine h.copied_same (Eq.refl _) ?_
    rw [Consumer.recorded, Consumer.recorded, hpc]
    rfl

/-- Consumer `i` stores what it has completed (line 203). -/
theorem Tallies.store (h : Tallies s) {i : Fin n} (hpc : s.At i .record) :
    Tallies { s.goto i .loop with
      threadCompletedTasks := Function.update s.threadCompletedTasks (s.consumer i).id
        (s.consumer i).jobsComplete } := by
  have hjobs := h.record i hpc
  unfold State.At at hpc
  refine h.consumer (i := i) rfl ?_ ?_ ?_ ?_ ?_ nofun ?_
  · rw [hpc]
    rfl
  · exact fun _ => h.range i (by rw [hpc]; rfl)
  · rw [hpc]
    rfl
  · rw [hpc]
    rfl
  · rw [Consumer.credit, hpc]
    rfl
  · show Copied (Function.update (fun j => (s.consumer j).id) i (s.consumer i).id) _ _
    rw [Function.update_eq_self i fun j => (s.consumer j).id]
    exact h.copied.write i hjobs

theorem Tallies.consumerMove (h : Tallies s) {i : Fin n} (hs : ConsumerMove s i s') :
    Tallies s' := by
  cases hs with
  | start hpc => exact h.start hpc
  | jobs hpc => exact h.jobs hpc
  | record hpc => exact h.store hpc
  | bump hpc | ask hpc | receive hpc | complete hpc =>
    refine h.count hpc (Eq.refl _) ?_ ?_ ?_ ?_ rfl ?_ ?_
    all_goals simp [State.goto, State.setConsumer, ConsumerPc.bumped, ConsumerPc.asking,
      ConsumerPc.askedLast, ConsumerPc.numbered] <;> omega
  | enter hpc hfree =>
    rcases hpc with hpc | hpc
    all_goals
      exact h.quiet hpc (Eq.refl _) rfl ⟨rfl, rfl, le_rfl, le_rfl, by decide, by decide⟩
  | leave hpc =>
    exact h.quiet hpc (Eq.refl _) rfl ⟨rfl, rfl, by decide, le_rfl, by decide, by decide⟩
  | idle hpc =>
    exact h.quiet hpc (Eq.refl _) rfl ⟨rfl, rfl, le_rfl, by decide, by decide, by decide⟩
  | run hpc | empty hpc | item hpc | sleep hpc | block hpc | release hpc | exit hpc | pop hpc
  | signal hpc | unlock hpc =>
    exact h.quiet hpc (Eq.refl _) rfl ⟨rfl, rfl, le_rfl, le_rfl, by decide, by decide⟩

/-! ## The other threads -/

/-- The other threads do no more to a consumer than to wake it up. -/
def State.Woke (s s' : State n) : Prop := ∀ i, s'.consumer i = s.consumer i ∨
  s.At i .blocked ∧ s'.consumer i = { s.consumer i with pc := .woken }

theorem woke_goto {i : Fin n} (hi : s.At i .blocked) : s.Woke (s.goto i .woken) := by
  intro j
  by_cases hj : j = i
  · subst hj
    exact .inr ⟨hi, Function.update_self j _ s.consumer⟩
  · exact .inl (State.setConsumer_of_ne s _ hj)

theorem woke_wakeAll (s : State n) : s.Woke s.wakeAll := by
  intro i
  by_cases hi : s.At i .blocked
  · exact .inr ⟨hi, if_pos hi⟩
  · exact .inl (if_neg hi)

theorem ProducerMove.woke (h : ProducerMove s s') : s.Woke s' := by
  cases h with
  | signalConsumer i hpc hi => exact woke_goto hi
  | broadcast hpc => exact woke_wakeAll s
  | _ => exact fun _ => .inl rfl

theorem ProducerMove.counts (h : ProducerMove s s') : s'.counts = s.counts := by
  cases h <;> rfl

theorem SpuriousMove.woke (h : SpuriousMove s s') : s.Woke s' := by
  cases h with
  | producer hb => exact fun _ => .inl rfl
  | consumer i hi => exact woke_goto hi

/-- What a wake-up does not change, the other threads do not change. -/
theorem State.Woke.eq {β : Type} (h : s.Woke s') (f : Consumer → β)
    (hf : ∀ c : Consumer, c.pc = .blocked → f { c with pc := .woken } = f c) (i : Fin n) :
    f (s'.consumer i) = f (s.consumer i) := by
  rcases h i with heq | ⟨hb, heq⟩
  · rw [heq]
  · rw [heq]
    exact hf _ hb

theorem Tallies.woke (h : Tallies s) (hwoke : s.Woke s') (hcounts : s'.counts = s.counts) :
    Tallies s' := by
  obtain ⟨hids, hask, hreceive, hcomplete, htasks⟩ : s'.consumeThreads = s.consumeThreads ∧
      s'.askCount = s.askCount ∧ s'.receiveCount = s.receiveCount ∧
      s'.completeCount = s.completeCount ∧ s'.threadCompletedTasks = s.threadCompletedTasks := by
    simpa only [State.counts, Counts.mk.injEq] using hcounts
  have hbumped := hwoke.eq (fun c => c.pc.bumped.toNat) fun c hc => by rw [hc]; rfl
  have hasking := hwoke.eq (fun c => c.pc.asking.toNat) fun c hc => by rw [hc]; rfl
  have hasked := hwoke.eq (fun c => c.pc.askedLast.toNat) fun c hc => by rw [hc]; rfl
  have hcredit := hwoke.eq Consumer.credit fun c hc => by unfold Consumer.credit; rw [hc]; rfl
  have hrecorded := hwoke.eq Consumer.recorded fun c hc => by
    unfold Consumer.recorded
    rw [hc]
    rfl
  have hid := hwoke.eq Consumer.id fun _ _ => rfl
  have hrange := hwoke.eq (fun c => (c.pc.numbered, c.id)) fun c hc => by rw [hc]; rfl
  have hrecord := hwoke.eq (fun c => (decide (c.pc = .record), c.jobsComplete)) fun c hc => by
    rw [hc]
    rfl
  constructor
  · simp only [hids, hbumped, h.ids]
  · intro i hi
    obtain ⟨hnumbered, hsame⟩ := Prod.mk.inj (hrange i)
    rw [hsame]
    exact h.range i (hnumbered ▸ hi)
  · simp only [hask, hreceive, hasking]
    exact h.asking
  · simp only [hask, hreceive, hasked]
    exact h.asked
  · simp only [hcomplete, hcredit, h.complete]
  · intro i hi
    obtain ⟨hat, hjobs⟩ := Prod.mk.inj (hrecord i)
    rw [hjobs]
    exact h.record i (of_decide_eq_true (hat.symm.trans (decide_eq_true hi)))
  · simp only [htasks, hid, hrecorded]
    exact h.copied

theorem Tallies.mainMove (h : Tallies s) (hs : MainMove s s') : Tallies s' := by
  cases hs with
  | producer pc threads hp => exact h.woke (fun _ => .inl rfl) rfl
  | control pc => exact h.woke (fun _ => .inl rfl) rfl
  | consumer i pc threads hi =>
    exact h.quiet hi (Eq.refl _) rfl ⟨rfl, rfl, le_rfl, le_rfl, by decide, by decide⟩

theorem Tallies.step {a : Action n} (h : Tallies s) (hs : Move s a s') : Tallies s' := by
  cases hs with
  | main hs => exact h.mainMove hs
  | producer hs => exact h.woke hs.woke hs.counts
  | consumer i hs => exact h.consumerMove hs
  | spurious hs => exact h.woke hs.woke (by cases hs <;> rfl)

theorem tallies_of_reachable (h : (system n input).Reachable s) : Tallies s := by
  refine h.invariant ?_ fun s a t hreach ht hs =>
    ht.step (move_of_step (handles_of_reachable hreach) hs)
  rintro _ rfl
  exact tallies_initState

/-! ## What the numbers say -/

/-- What the numbers of a summary say about each other. -/
structure SummaryOk (s : State n) (m : Summary) : Prop where
  received : m.receive = m.complete
  worked : m.complete ≤ m.work
  asked : m.receive ≤ m.ask ∧ m.ask ≤ m.receive + n
  threads : (m.threads.map Prod.snd).sum ≤ m.complete
  lost : (m.threads.map Prod.snd).sum = m.complete ↔
    ∀ i j, i ≠ j → (s.consumer i).id = (s.consumer j).id →
      (s.consumer i).jobsComplete = 0 ∨ (s.consumer j).jobsComplete = 0

/-- When every consumer has returned, what was popped was received and
    completed. -/
theorem Accounts.settled (h : Accounts input s) (hall : ∀ i, s.At i .returned) :
    s.receiveCount = s.popped.length ∧ s.completeCount = s.popped.length := by
  have hworking : s.working = 0 := by
    refine Finset.sum_eq_zero fun i _ => ?_
    rw [Consumer.held, hall i]
    rfl
  have hunreceived : s.unreceived = 0 := by
    refine Finset.sum_eq_zero fun i _ => ?_
    rw [Consumer.unreceived, hall i]
    rfl
  constructor
  · have hreceived := h.received
    omega
  · have hheld := congrArg Multiset.card h.held
    rw [hworking, add_zero, Multiset.coe_card, Multiset.coe_card] at hheld
    rw [h.complete, hheld]

/-- When every consumer has returned, none of them is asking. -/
theorem Tallies.settled (h : Tallies s) (hall : ∀ i, s.At i .returned) :
    s.receiveCount ≤ s.askCount ∧ s.askCount ≤ s.receiveCount + n := by
  have hasked := h.asked
  have hone : ∀ i, (s.consumer i).pc.askedLast.toNat = 1 := by
    intro i
    rw [hall i]
    rfl
  simp only [hone, Finset.sum_const, Finset.card_univ, Fintype.card_fin, nsmul_eq_mul, mul_one,
    Nat.cast_id] at hasked
  exact ⟨(Nat.le_add_right _ _).trans h.asking, hasked⟩

theorem sum_threads (s : State n) : (s.summary.threads.map Prod.snd).sum =
    ∑ v ∈ (List.range' 1 n).toFinset, s.threadCompletedTasks v := by
  rw [List.sum_toFinset _ (List.nodup_range')]
  unfold State.summary outputStats
  rw [List.map_map]
  rfl

/-- Both consumers read the id 1, and each completes a job. -/
def sharedId : List (Action 2) :=
  List.replicate 3 .main ++ [.consumer first, .consumer second, .consumer first,
    .consumer second] ++ List.replicate 15 (.producer none) ++
    List.replicate 11 (.consumer first) ++ List.replicate 11 (.consumer second) ++
    List.replicate 6 (.producer none) ++ List.replicate 2 (.consumer first) ++
    List.replicate 2 (.consumer second) ++ List.replicate 4 .main

end Cmput379.Prodcon
