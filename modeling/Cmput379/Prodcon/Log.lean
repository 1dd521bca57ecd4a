import Cmput379.Prodcon.Summary

/-!
# The log of prodcon

The lines that `producer` and `consume` write to `cout` (main.cpp:71-76, 102-106,
141-145, 178-182 and 192-196), without their time. A thread writes a line first, and
increments the counter behind it later; here both are in one step, so that the counters
are compared with the log only when the threads that write it have ended.
`buffer.size()` is read without the mutex.

* `log`: what a run has written.
* `Logged`: the invariant that relates the log to the state.
* `logOk`: what can be relied on when the log is read.
-/

namespace Cmput379.Prodcon

open Cmput379.Lib

variable {n : ℕ} {input : List Text} {s s' : State n}

/-! ## Model -/

/-- A line of the log. -/
inductive LogLine
  | work (q : ℕ) (k : ℤ)
  | sleep (q : ℕ) (k : ℤ)
  | ask (id : ℕ)
  | receive (id : ℕ) (k : ℤ)
  | complete (id : ℕ) (k : ℤ)
  deriving DecidableEq, Repr

/-- `(int)command[1] - 48` (lines 66 and 168), of a line in ASCII. -/
def number (command : Text) : ℤ := (command.getD 1 '\x00').toNat - 48

/-- What a consumer writes. -/
def Consumer.printed (c : Consumer) : List LogLine :=
  match c.pc with
  | .ask => [.ask c.id]
  | .receive => [.receive c.id (number c.command)]
  | .complete => [.complete c.id (number c.command)]
  | _ => []

/-- What the producer writes. -/
def State.printed (s : State n) : List LogLine :=
  match s.producer with
  | .work => [.work s.buffer.length (number s.command)]
  | .sleep => [.sleep s.buffer.length (number s.command)]
  | _ => []

/-- What a step writes, and which thread writes it. -/
def printed : State n × Action n → List (Thread (Fin n) × LogLine)
  | (s, .producer _) => s.printed.map (Prod.mk .producer)
  | (s, .consumer i) => (s.consumer i).printed.map (Prod.mk (.consumer i))
  | _ => []

/-- What a run has written. -/
def log (tr : List (State n × Action n)) : List (Thread (Fin n) × LogLine) := tr.flatMap printed

/-! ## Reading the log -/

/-- The five words of the log and of the summary. -/
inductive Kind
  | work
  | ask
  | receive
  | complete
  | sleep
  deriving DecidableEq

def LogLine.kind : LogLine → Kind
  | .work _ _ => .work
  | .sleep _ _ => .sleep
  | .ask _ => .ask
  | .receive _ _ => .receive
  | .complete _ _ => .complete

/-- What the summary says about the lines of a kind. -/
def Summary.count (m : Summary) : Kind → ℕ
  | .work => m.work
  | .ask => m.ask
  | .receive => m.receive
  | .complete => m.complete
  | .sleep => m.sleep

/-- The number of a line of a kind. -/
def LogLine.number? (kind : Kind) : LogLine → Option ℤ
  | .work _ k => if kind = .work then some k else none
  | .sleep _ k => if kind = .sleep then some k else none
  | .ask _ => none
  | .receive _ k => if kind = .receive then some k else none
  | .complete _ k => if kind = .complete then some k else none

/-- The value of `buffer.size()` in a line. -/
def LogLine.queue? : LogLine → Option ℕ
  | .work q _ | .sleep q _ => some q
  | _ => none

section Reading

variable (l l' : List (Thread (Fin n) × LogLine))

/-- The numbers of the lines of a kind, in their order. -/
def numbers (kind : Kind) : List ℤ := l.filterMap fun e => e.2.number? kind

/-- The lines that a thread has written. -/
def session (t : Thread (Fin n)) : List LogLine :=
  l.filterMap fun e => if e.1 = t then some e.2 else none

theorem numbers_append (kind : Kind) :
    numbers (l ++ l') kind = numbers l kind ++ numbers l' kind :=
  List.filterMap_append

theorem session_append (t : Thread (Fin n)) : session (l ++ l') t = session l t ++ session l' t :=
  List.filterMap_append

end Reading

theorem session_map_self (t : Thread (Fin n)) (lines : List LogLine) :
    session (lines.map (Prod.mk t)) t = lines := by
  simp [session, List.filterMap_map]

theorem session_map_of_ne {t u : Thread (Fin n)} (h : t ≠ u) (lines : List LogLine) :
    session (lines.map (Prod.mk t)) u = [] := by
  simp [session, h]

/-- What a consumer with this id writes for jobs with these numbers. -/
def rounds (id : ℕ) (ks : List ℤ) : List LogLine :=
  ks.flatMap fun k => [.ask id, .receive id k, .complete id k]

theorem rounds_concat (id : ℕ) (ks : List ℤ) (k : ℤ) :
    rounds id (ks ++ [k]) = rounds id ks ++ [.ask id, .receive id k, .complete id k] := by
  simp [rounds]

/-! ## One consumer -/

/-- How far a consumer is with its round. -/
inductive Stage
  | idle
  | asked
  | received
  | gone
  deriving DecidableEq

def ConsumerPc.stage : ConsumerPc → Stage
  | .uncreated | .start | .bump | .loop | .ask | .jobs | .record => .idle
  | .complete => .received
  | .exit | .returned => .gone
  | _ => .asked

/-- What the consumer has written of a round that is not complete. -/
def Stage.Part (c : Consumer) (part : List LogLine) : Stage → Prop
  | .idle => part = []
  | .asked => part = [.ask c.id]
  | .received => part = [.ask c.id, .receive c.id (number c.command)]
  | .gone => part = [] ∨ part = [.ask c.id]

/-- The consumer has written as many rounds as it has completed jobs. -/
def Consumer.Logged (c : Consumer) (lines : List LogLine) : Prop :=
  ∃ ks part, ks.length = c.credit ∧ lines = rounds c.id ks ++ part ∧ c.pc.stage.Part c part

/-- Going from the one statement to the other writes nothing, and completes nothing. -/
structure ConsumerPc.Silent (pc pc' : ConsumerPc) : Prop where
  writes : pc ≠ .ask ∧ pc ≠ .receive ∧ pc ≠ .complete
  credit : pc'.numbered = pc.numbered ∧ (pc' = .jobs ↔ pc = .jobs)
  stage : pc.stage ≠ .received ∧ (pc'.stage = pc.stage ∨ pc'.stage = .gone)

theorem printed_of_silent {c : Consumer} {pc : ConsumerPc} (h : c.pc.Silent pc) :
    c.printed = [] := by
  obtain ⟨hask, hreceive, hcomplete⟩ := h.writes
  unfold Consumer.printed
  cases hpc : c.pc with
  | ask => exact absurd hpc hask
  | receive => exact absurd hpc hreceive
  | complete => exact absurd hpc hcomplete
  | _ => rfl

/-- The next statement finds the part of a round that the last one has left. -/
theorem ConsumerPc.Silent.part {c : Consumer} {pc : ConsumerPc} (h : c.pc.Silent pc)
    (command : Text) {part : List LogLine} (hpart : c.pc.stage.Part c part) :
    pc.stage.Part { c with pc, command } part := by
  obtain ⟨hreceived, hstage⟩ := h.stage
  cases hc : c.pc.stage with
  | received => exact absurd hc hreceived
  | idle =>
    rw [hc] at hpart hstage
    rcases hstage with hpc | hpc
    · rwa [hpc]
    · rw [hpc]
      exact .inl hpart
  | asked =>
    rw [hc] at hpart hstage
    rcases hstage with hpc | hpc
    · rwa [hpc]
    · rw [hpc]
      exact .inr hpart
  | gone =>
    rw [hc] at hpart hstage
    rcases hstage with hpc | hpc
    all_goals rwa [hpc]

theorem Consumer.Logged.goto {c : Consumer} {pc : ConsumerPc} {lines : List LogLine}
    (h : c.Logged lines) (command : Text) (hs : c.pc.Silent pc) :
    ({ c with pc, command } : Consumer).Logged lines := by
  obtain ⟨ks, part, hlen, hlines, hopen⟩ := h
  refine ⟨ks, part, ?_, hlines, hs.part command hopen⟩
  rw [hlen]
  simp only [Consumer.credit, hs.credit.1, hs.credit.2]

/-- Consumer `i` goes on and writes nothing. -/
theorem logged_of_silent {i : Fin n} {pc pc' : ConsumerPc} {command : Text}
    {lines : List LogLine} (h : (s.consumer i).Logged lines) (hpc : s.At i pc)
    (hconsumer : s'.consumer =
      Function.update s.consumer i { s.consumer i with pc := pc', command })
    (hs : pc.Silent pc') : (s'.consumer i).Logged (lines ++ (s.consumer i).printed) := by
  subst hpc
  rw [printed_of_silent hs, List.append_nil, hconsumer, Function.update_self]
  exact h.goto command hs

theorem Consumer.Logged.start {c : Consumer} {lines : List LogLine} (h : c.Logged lines)
    (hpc : c.pc = .start) (id : ℕ) :
    ({ c with id, jobsComplete := 0, pc := .bump } : Consumer).Logged (lines ++ c.printed) := by
  obtain ⟨ks, part, hlen, rfl, hopen⟩ := h
  rw [Consumer.credit, hpc] at hlen
  rw [hpc] at hopen
  obtain rfl := List.length_eq_zero_iff.mp hlen
  refine ⟨[], [], rfl, ?_, rfl⟩
  rw [show part = [] from hopen, Consumer.printed, hpc]
  rfl

theorem Consumer.Logged.ask {c : Consumer} {lines : List LogLine} (h : c.Logged lines)
    (hpc : c.pc = .ask) : ({ c with pc := .lock } : Consumer).Logged (lines ++ c.printed) := by
  obtain ⟨ks, part, hlen, rfl, hopen⟩ := h
  rw [Consumer.credit, hpc] at hlen
  rw [hpc] at hopen
  refine ⟨ks, [.ask c.id], hlen, ?_, rfl⟩
  rw [show part = [] from hopen, Consumer.printed, hpc, List.append_nil]

theorem Consumer.Logged.receive {c : Consumer} {lines : List LogLine} (h : c.Logged lines)
    (hpc : c.pc = .receive) :
    ({ c with pc := .complete } : Consumer).Logged (lines ++ c.printed) := by
  obtain ⟨ks, part, hlen, rfl, hopen⟩ := h
  rw [Consumer.credit, hpc] at hlen
  rw [hpc] at hopen
  refine ⟨ks, [.ask c.id, .receive c.id (number c.command)], hlen, ?_, rfl⟩
  rw [show part = [.ask c.id] from hopen, Consumer.printed, hpc, List.append_assoc]
  rfl

/-- The round is complete. -/
theorem Consumer.Logged.complete {c : Consumer} {lines : List LogLine} (h : c.Logged lines)
    (hpc : c.pc = .complete) : ({ c with pc := .jobs } : Consumer).Logged (lines ++ c.printed) := by
  obtain ⟨ks, part, hlen, rfl, hopen⟩ := h
  rw [Consumer.credit, hpc] at hlen
  rw [hpc] at hopen
  refine ⟨ks ++ [number c.command], [], ?_, ?_, rfl⟩
  · rw [List.length_append, hlen]
    rfl
  · rw [show part = [.ask c.id, .receive c.id (number c.command)] from hopen, Consumer.printed,
      hpc, List.append_assoc, rounds_concat, List.append_nil]
    rfl

theorem Consumer.Logged.jobs {c : Consumer} {lines : List LogLine} (h : c.Logged lines)
    (hpc : c.pc = .jobs) :
    ({ c with jobsComplete := c.jobsComplete + 1, pc := .record } : Consumer).Logged
      (lines ++ c.printed) := by
  obtain ⟨ks, part, hlen, rfl, hopen⟩ := h
  rw [Consumer.credit, hpc] at hlen
  rw [hpc] at hopen
  refine ⟨ks, [], hlen, ?_, rfl⟩
  rw [show part = [] from hopen, Consumer.printed, hpc, List.append_nil]

theorem ConsumerMove.logged {i : Fin n} {lines : List LogLine} (hs : ConsumerMove s i s')
    (h : (s.consumer i).Logged lines) :
    (s'.consumer i).Logged (lines ++ (s.consumer i).printed) := by
  have hself : ∀ {c : Consumer} {lines : List LogLine}, c.Logged lines →
      (Function.update s.consumer i c i).Logged lines := by
    intro c lines hc
    rwa [Function.update_self]
  cases hs with
  | run hpc | empty hpc | item hpc | sleep hpc | block hpc | release hpc | exit hpc | pop hpc
  | signal hpc | unlock hpc | bump hpc | leave hpc | idle hpc | record hpc =>
    exact logged_of_silent h hpc (Eq.refl _) ⟨by decide, by decide, by decide⟩
  | enter hpc hfree =>
    rcases hpc with hpc | hpc
    all_goals exact logged_of_silent h hpc (Eq.refl _) ⟨by decide, by decide, by decide⟩
  | start hpc => exact hself (h.start hpc s.consumeThreads)
  | ask hpc => exact hself (h.ask hpc)
  | receive hpc => exact hself (h.receive hpc)
  | complete hpc => exact hself (h.complete hpc)
  | jobs hpc => exact hself (h.jobs hpc)

/-! ## All threads -/

/-- The 'T' lines that the producer has written to the log. -/
def State.worked (s : State n) : List Text :=
  s.pushed ++ if s.producer.counted then [s.command] else []

/-- The number of a command that is popped and not yet written to the log. -/
def Consumer.unseen (c : Consumer) : Multiset ℤ :=
  if c.pc.unreceived then {number c.command} else 0

/-- The log and the state. -/
structure Logged (s : State n) (l : List (Thread (Fin n) × LogLine)) : Prop where
  session : ∀ i, (s.consumer i).Logged (session l (.consumer i))
  work : numbers l .work = s.worked.map number
  received : (numbers l .receive : Multiset ℤ) + ∑ i, (s.consumer i).unseen =
    (s.popped.map number : List ℤ)
  complete : numbers l .complete = s.completed.map number
  counts : ∀ kind, s.summary.count kind = l.countP fun e => e.2.kind = kind

variable {l : List (Thread (Fin n) × LogLine)}

theorem logged_initState : Logged (initState n input) [] where
  session _ := ⟨[], [], rfl, rfl, rfl⟩
  work := rfl
  received := by simp [numbers, initState, Consumer.unseen, ConsumerPc.unreceived]
  complete := rfl
  counts kind := by cases kind <;> rfl

theorem numbers_map (t : Thread (Fin n)) (lines : List LogLine) (kind : Kind) :
    numbers (lines.map (Prod.mk t)) kind = lines.filterMap (LogLine.number? kind) := by
  simp [numbers, List.filterMap_map]

/-- Consumer `i` becomes `c`. -/
theorem Logged.consumer (h : Logged s l) {i : Fin n} {c : Consumer} (hs : ConsumerMove s i s')
    (hconsumer : s'.consumer = Function.update s.consumer i c) (hworked : s'.worked = s.worked)
    (hreceived : ((s'.popped.map number : List ℤ) : Multiset ℤ) + (s.consumer i).unseen =
      (s.popped.map number : List ℤ) +
        (((s.consumer i).printed.filterMap (LogLine.number? .receive) : List ℤ) + c.unseen))
    (hcomplete : s'.completed.map number =
      s.completed.map number ++ (s.consumer i).printed.filterMap (LogLine.number? .complete))
    (hcounts : ∀ kind, s'.summary.count kind =
      s.summary.count kind + (s.consumer i).printed.countP fun line => line.kind = kind) :
    Logged s' (l ++ (s.consumer i).printed.map (Prod.mk (.consumer i))) where
  session j := by
    rw [session_append]
    by_cases hji : j = i
    · subst hji
      rw [session_map_self]
      exact hs.logged (h.session j)
    · rw [session_map_of_ne (by simpa using Ne.symm hji), List.append_nil, hs.frame.others j hji]
      exact h.session j
  work := by
    have hnone : (s.consumer i).printed.filterMap (LogLine.number? .work) = [] := by
      unfold Consumer.printed
      split <;> rfl
    rw [numbers_append, numbers_map, hnone, List.append_nil, h.work, hworked]
  received := by
    have hsum := sum_update_add Consumer.unseen s.consumer i c
    rw [← add_right_cancel_iff (a := (s.consumer i).unseen), hreceived, ← h.received,
      numbers_append, numbers_map, hconsumer, ← Multiset.coe_add, add_assoc, hsum]
    ac_rfl
  complete := by rw [numbers_append, numbers_map, h.complete, hcomplete]
  counts kind := by
    rw [hcounts, h.counts, List.countP_append, List.countP_map]
    rfl

/-- Consumer `i` becomes `c`, and writes nothing. -/
theorem Logged.quiet (h : Logged s l) {i : Fin n} {c : Consumer} (hs : ConsumerMove s i s')
    (hconsumer : s'.consumer = Function.update s.consumer i c)
    (hquiet : (s.consumer i).printed = []) (hunseen : c.unseen = (s.consumer i).unseen)
    (hworked : s'.worked = s.worked) (hpopped : s'.popped = s.popped)
    (hcompleted : s'.completed = s.completed)
    (hcounts : ∀ kind, s'.summary.count kind = s.summary.count kind) :
    Logged s' (l ++ (s.consumer i).printed.map (Prod.mk (.consumer i))) := by
  refine h.consumer hs hconsumer hworked ?_ ?_ ?_
  · rw [hquiet, hpopped, hunseen, List.filterMap_nil, Multiset.coe_nil, zero_add]
  · rw [hquiet, hcompleted, List.filterMap_nil, List.append_nil]
  · intro kind
    rw [hquiet, hcounts, List.countP_nil, add_zero]

theorem unseen_of_pc {c : Consumer} {pc : ConsumerPc} (hpc : c.pc = pc) :
    c.unseen = if pc.unreceived then {number c.command} else 0 := by
  rw [Consumer.unseen, hpc]

theorem Logged.consumerMove (h : Logged s l) {i : Fin n} (hs : ConsumerMove s i s') :
    Logged s' (l ++ (s.consumer i).printed.map (Prod.mk (.consumer i))) := by
  have hmove := hs
  cases hs with
  | run hpc | empty hpc | item hpc | sleep hpc | block hpc | release hpc | exit hpc | unlock hpc
  | bump hpc | leave hpc | idle hpc | record hpc | start hpc | jobs hpc =>
    refine h.quiet hmove (Eq.refl _) ?_ ?_ rfl rfl rfl fun kind => by cases kind <;> rfl
    · rw [Consumer.printed, hpc]
    · rw [unseen_of_pc hpc]
      rfl
  | enter hpc hfree =>
    rcases hpc with hpc | hpc
    all_goals
      refine h.quiet hmove (Eq.refl _) ?_ ?_ rfl rfl rfl fun kind => by cases kind <;> rfl
      · rw [Consumer.printed, hpc]
      · rw [unseen_of_pc hpc]
        rfl
  | signal hpc =>
    have hworked : (s.wakeProducer.goto i .unlock).worked = s.worked := by
      unfold State.worked
      rw [← counted_wakeProducer s]
      rfl
    refine h.quiet hmove (Eq.refl _) ?_ ?_ hworked rfl rfl fun kind => by cases kind <;> rfl
    · rw [Consumer.printed, hpc]
    · rw [unseen_of_pc hpc]
      rfl
  | @pop command rest hpc hbuffer =>
    have hquiet : (s.consumer i).printed = [] := by rw [Consumer.printed, hpc]
    refine h.consumer hmove (Eq.refl _) rfl ?_ ?_ fun kind => ?_
    · rw [hquiet, unseen_of_pc hpc]
      show ((s.popped ++ [command]).map number : Multiset ℤ) + 0 =
        (s.popped.map number : List ℤ) + (0 + {number command})
      rw [List.map_append, ← Multiset.coe_add, add_zero, zero_add]
      rfl
    · rw [hquiet]
      exact (List.append_nil _).symm
    · rw [hquiet, List.countP_nil, add_zero]
      cases kind <;> rfl
  | ask hpc =>
    have hline : (s.consumer i).printed = [.ask (s.consumer i).id] := by rw [Consumer.printed, hpc]
    refine h.consumer hmove (Eq.refl _) rfl ?_ ?_ fun kind => ?_
    · rw [hline, unseen_of_pc hpc]
      rfl
    · rw [hline]
      exact (List.append_nil _).symm
    · rw [hline]
      cases kind <;> rfl
  | receive hpc =>
    have hline : (s.consumer i).printed =
        [.receive (s.consumer i).id (number (s.consumer i).command)] := by
      rw [Consumer.printed, hpc]
    refine h.consumer hmove (Eq.refl _) rfl ?_ ?_ fun kind => ?_
    · rw [hline, unseen_of_pc hpc]
      rfl
    · rw [hline]
      exact (List.append_nil _).symm
    · rw [hline]
      cases kind <;> rfl
  | complete hpc =>
    have hline : (s.consumer i).printed =
        [.complete (s.consumer i).id (number (s.consumer i).command)] := by
      rw [Consumer.printed, hpc]
    refine h.consumer hmove (Eq.refl _) rfl ?_ ?_ fun kind => ?_
    · rw [hline, unseen_of_pc hpc]
      rfl
    · rw [hline]
      exact List.map_append
    · rw [hline]
      cases kind <;> rfl

/-! ## The other threads -/

theorem silent_woken : ConsumerPc.blocked.Silent .woken := ⟨by decide, by decide, by decide⟩

/-- The consumers are left alone, or woken up. -/
theorem Logged.woke (h : Logged s l) (hwoke : s.Woke s') (lines : List LogLine)
    (hwork : s'.worked.map number = s.worked.map number ++ lines.filterMap (LogLine.number? .work))
    (hpopped : s'.popped = s.popped) (hcompleted : s'.completed = s.completed)
    (hown : lines.filterMap (LogLine.number? .receive) = [] ∧
      lines.filterMap (LogLine.number? .complete) = [])
    (hcounts : ∀ kind, s'.summary.count kind =
      s.summary.count kind + lines.countP fun line => line.kind = kind) :
    Logged s' (l ++ lines.map (Prod.mk .producer)) where
  session i := by
    have hne : (Thread.producer : Thread (Fin n)) ≠ .consumer i := by simp
    rw [session_append, session_map_of_ne hne, List.append_nil]
    rcases hwoke i with heq | ⟨hb, heq⟩
    · rw [heq]
      exact h.session i
    · rw [heq]
      refine (h.session i).goto (s.consumer i).command ?_
      exact (show (s.consumer i).pc = .blocked from hb) ▸ silent_woken
  work := by rw [numbers_append, numbers_map, h.work, hwork]
  received := by
    have hunseen := hwoke.eq Consumer.unseen fun c hc => by
      rw [unseen_of_pc hc]
      rfl
    simp only [hunseen]
    rw [numbers_append, numbers_map, hown.1, List.append_nil, h.received, hpopped]
  complete := by rw [numbers_append, numbers_map, hown.2, List.append_nil, h.complete, hcompleted]
  counts kind := by
    rw [hcounts, h.counts, List.countP_append, List.countP_map]
    rfl

/-- Nothing is written, and nothing handed over. -/
theorem Logged.still (h : Logged s l) (hwoke : s.Woke s') (hworked : s'.worked = s.worked)
    (hpopped : s'.popped = s.popped) (hcompleted : s'.completed = s.completed)
    (hcounts : ∀ kind, s'.summary.count kind = s.summary.count kind) :
    Logged s' (l ++ []) := by
  refine h.woke hwoke [] ?_ hpopped hcompleted ⟨rfl, rfl⟩ hcounts
  rw [hworked]
  exact (List.append_nil _).symm

theorem Logged.quiet_producer (h : Logged s l) {pc : ProducerPc} (hpc : s.producer = pc)
    (hwoke : s.Woke s') (hquiet : pc ≠ .work ∧ pc ≠ .sleep) (hworked : s'.worked = s.worked)
    (hpopped : s'.popped = s.popped) (hcompleted : s'.completed = s.completed)
    (hcounts : ∀ kind, s'.summary.count kind = s.summary.count kind) :
    Logged s' (l ++ s.printed.map (Prod.mk .producer)) := by
  have hline : s.printed = [] := by
    unfold State.printed
    cases hcase : s.producer with
    | work => exact absurd (hpc.symm.trans hcase) hquiet.1
    | sleep => exact absurd (hpc.symm.trans hcase) hquiet.2
    | _ => rfl
  rw [hline]
  exact h.still hwoke hworked hpopped hcompleted hcounts

theorem worked_of_pc {pc : ProducerPc} (hpc : s.producer = pc) :
    s.worked = s.pushed ++ if pc.counted then [s.command] else [] := by
  rw [State.worked, hpc]

theorem Logged.producerMove (h : Logged s l) (hs : ProducerMove s s') :
    Logged s' (l ++ s.printed.map (Prod.mk .producer)) := by
  have hwoke := hs.woke
  cases hs with
  | work hpc =>
    have hline : s.printed = [.work s.buffer.length (number s.command)] := by
      rw [State.printed, hpc]
    rw [hline]
    refine h.woke hwoke _ ?_ rfl rfl ⟨rfl, rfl⟩ fun kind => by cases kind <;> rfl
    rw [worked_of_pc hpc]
    simp [State.worked, ProducerPc.counted, LogLine.number?]
  | sleep hpc =>
    have hline : s.printed = [.sleep s.buffer.length (number s.command)] := by
      rw [State.printed, hpc]
    rw [hline]
    refine h.woke hwoke _ ?_ rfl rfl ⟨rfl, rfl⟩ fun kind => by cases kind <;> rfl
    rw [worked_of_pc hpc]
    exact (List.append_nil _).symm
  | push hpc =>
    refine h.quiet_producer hpc hwoke (by decide) ?_ rfl rfl fun kind => by cases kind <;> rfl
    rw [worked_of_pc hpc]
    exact List.append_nil _
  | enter hpc hfree =>
    rcases hpc with hpc | hpc
    all_goals
      refine h.quiet_producer hpc hwoke (by decide) ?_ rfl rfl fun kind => by cases kind <;> rfl
      rw [worked_of_pc hpc]
      rfl
  | @line command rest hpc hinput =>
    refine h.quiet_producer hpc hwoke (by decide) ?_ rfl rfl fun kind => by cases kind <;> rfl
    rw [worked_of_pc hpc, State.worked]
    unfold State.readLine
    dsimp only
    split_ifs <;> first | rfl | contradiction
  | start hpc | eof hpc | full hpc | room hpc | block hpc | signalConsumer i hpc
  | signalNobody hpc | unlock hpc | setDone hpc | enterLast hpc | broadcast hpc
  | unlockEnd hpc | clear hpc =>
    refine h.quiet_producer hpc hwoke (by decide) ?_ rfl rfl fun kind => by cases kind <;> rfl
    rw [worked_of_pc hpc]
    rfl

theorem Logged.mainMove (h : Logged s l) (hs : MainMove s s') : Logged s' (l ++ []) := by
  cases hs with
  | producer pc threads hp =>
    refine h.still (fun _ => .inl rfl) ?_ rfl rfl fun kind => by cases kind <;> rfl
    rw [worked_of_pc hp]
    rfl
  | control pc =>
    exact h.still (fun _ => .inl rfl) rfl rfl rfl fun kind => by cases kind <;> rfl
  | consumer i pc threads hi =>
    have hsilent : (s.consumer i).pc.Silent .start :=
      (show (s.consumer i).pc = .uncreated from hi) ▸ ⟨by decide, by decide, by decide⟩
    rw [List.append_nil]
    refine ⟨fun j => ?_, h.work, ?_, h.complete, fun kind => by cases kind <;> exact h.counts _⟩
    · by_cases hji : j = i
      · subst hji
        show (Function.update s.consumer j _ j).Logged _
        rw [Function.update_self]
        exact (h.session j).goto _ hsilent
      · show (Function.update s.consumer i _ j).Logged _
        rw [Function.update_of_ne hji]
        exact h.session j
    · refine Eq.trans (congrArg _ (sum_update_same Consumer.unseen s.consumer ?_)) h.received
      rw [unseen_of_pc hi]
      rfl

theorem Logged.spuriousMove (h : Logged s l) (hs : SpuriousMove s s') : Logged s' (l ++ []) := by
  have hwoke := hs.woke
  cases hs with
  | producer hb =>
    refine h.still hwoke ?_ rfl rfl fun kind => by cases kind <;> rfl
    rw [worked_of_pc hb]
    rfl
  | consumer i hb => exact h.still hwoke rfl rfl rfl fun kind => by cases kind <;> rfl

theorem Logged.step {a : Action n} (h : Logged s l) (hs : Move s a s') :
    Logged s' (l ++ printed (s, a)) := by
  cases hs with
  | main hs => exact h.mainMove hs
  | producer hs => exact h.producerMove hs
  | consumer i hs => exact h.consumerMove hs
  | spurious hs => exact h.spuriousMove hs

theorem logged_of_run {tr : List (State n × Action n)}
    (h : (system n input).Run (initState n input) tr s) : Logged s (log tr) := by
  induction h with
  | nil => exact logged_initState
  | snoc hrun hstep ih =>
    have hreach : (system n input).Reachable _ := ⟨_, _, rfl, hrun⟩
    have hlog := ih.step (move_of_step (handles_of_reachable hreach) hstep)
    rw [log, List.flatMap_append, List.flatMap_singleton]
    exact hlog

/-! ## What the log says -/

/-- The threads that write the lines of this kind have ended. -/
def State.Written (s : State n) : Kind → Prop
  | .work | .sleep => s.producer = .finished
  | .ask | .receive | .complete => ∀ i, s.At i .returned

instance (s : State n) : (kind : Kind) → Decidable (s.Written kind)
  | .work | .sleep => inferInstanceAs (Decidable (s.producer = .finished))
  | .ask | .receive | .complete => inferInstanceAs (Decidable (∀ i, s.At i .returned))

/-- What can be relied on when the log of a run is read. -/
structure LogOk (input : List Text) (s : State n) (l : List (Thread (Fin n) × LogLine)) :
    Prop where
  counts : ∀ kind, s.Written kind → s.summary.count kind = l.countP fun e => e.2.kind = kind
  works : numbers l .work <+: (tasks input).map number
  received : (numbers l .receive : Multiset ℤ) ≤ numbers l .work
  completed : (numbers l .complete : Multiset ℤ) ≤ numbers l .receive
  settled : (∀ i, s.At i .returned) →
    (numbers l .complete : Multiset ℤ) = numbers l .receive
  turns : ∀ i, ∃ ks, session l (.consumer i) <+: rounds (s.consumer i).id ks
  whole : ∀ i, s.At i .returned → ∃ ks, ks.length = (s.consumer i).jobsComplete ∧
    (session l (.consumer i) = rounds (s.consumer i).id ks ∨
      session l (.consumer i) = rounds (s.consumer i).id ks ++ [.ask (s.consumer i).id])
  queue : ∀ e ∈ l, ∀ q, e.2.queue? = some q → q ≤ maxbuffer n

/-- An open part is the beginning of a round. -/
theorem Stage.Part.begins {c : Consumer} {part : List LogLine} {stage : Stage}
    (h : stage.Part c part) :
    ∃ k, part <+: [.ask c.id, .receive c.id k, .complete c.id k] := by
  cases stage with
  | idle =>
    obtain rfl : part = [] := h
    exact ⟨0, List.nil_prefix⟩
  | asked =>
    obtain rfl : part = [.ask c.id] := h
    exact ⟨0, _, rfl⟩
  | received =>
    obtain rfl : part = [.ask c.id, .receive c.id (number c.command)] := h
    exact ⟨number c.command, _, rfl⟩
  | gone =>
    rcases h with rfl | rfl
    · exact ⟨0, List.nil_prefix⟩
    · exact ⟨0, _, rfl⟩

theorem Consumer.Logged.rounds {c : Consumer} {lines : List LogLine} (h : c.Logged lines) :
    ∃ ks, lines <+: rounds c.id ks := by
  obtain ⟨ks, part, -, rfl, hopen⟩ := h
  obtain ⟨k, hpart⟩ := hopen.begins
  refine ⟨ks ++ [k], ?_⟩
  rw [rounds_concat]
  exact (List.prefix_append_right_inj _).mpr hpart

/-- A consumer that has returned has left at most its last question without an answer. -/
theorem Consumer.Logged.whole {c : Consumer} {lines : List LogLine} (h : c.Logged lines)
    (hpc : c.pc = .returned) : ∃ ks, ks.length = c.jobsComplete ∧
      (lines = Prodcon.rounds c.id ks ∨ lines = Prodcon.rounds c.id ks ++ [.ask c.id]) := by
  obtain ⟨ks, part, hlen, rfl, hopen⟩ := h
  rw [Consumer.credit, hpc] at hlen
  rw [hpc] at hopen
  refine ⟨ks, hlen, ?_⟩
  rcases hopen with rfl | rfl
  · exact .inl (List.append_nil _)
  · exact .inr rfl

theorem Accounts.worked_input (h : Accounts input s) : s.worked <+: tasks input := by
  rw [← h.lines, State.worked, State.pending]
  refine (List.prefix_append_right_inj _).mpr ?_
  cases s.producer <;> simp [ProducerPc.counted, ProducerPc.holds]

theorem Accounts.popped_worked (h : Accounts input s) : s.popped <+: s.worked := by
  rw [State.worked, ← h.queue, List.append_assoc]
  exact List.prefix_append _ _

theorem unseen_le_held (c : Consumer) : c.unseen ≤ c.held.map number := by
  unfold Consumer.unseen Consumer.held
  cases c.pc <;> simp [ConsumerPc.unreceived, ConsumerPc.holds]

theorem Logged.complete_add (h : Logged s l) (ha : Accounts input s) :
    (numbers l .receive : Multiset ℤ) + ∑ i, (s.consumer i).unseen =
      numbers l .complete + ∑ i, (s.consumer i).held.map number := by
  rw [h.received, h.complete, ← Multiset.map_coe, ha.held, Multiset.map_add, Multiset.map_coe,
    State.working, ← Multiset.coe_mapAddMonoidHom, map_sum]

/-- A line with a queue length has the one of the state it is written in. -/
theorem queue_of_printed {a : Action n} {e : Thread (Fin n) × LogLine} (he : e ∈ printed (s, a))
    {q : ℕ} (hq : e.2.queue? = some q) : q = s.buffer.length := by
  cases a with
  | main | spurious => cases he
  | producer woken =>
    obtain ⟨line, hline, rfl⟩ := List.mem_map.mp he
    unfold State.printed at hline
    split at hline
    · obtain rfl := List.mem_singleton.mp hline
      exact (Option.some.inj hq).symm
    · obtain rfl := List.mem_singleton.mp hline
      exact (Option.some.inj hq).symm
    · cases hline
  | consumer i =>
    obtain ⟨line, hline, rfl⟩ := List.mem_map.mp he
    unfold Consumer.printed at hline
    split at hline
    · obtain rfl := List.mem_singleton.mp hline
      cases hq
    · obtain rfl := List.mem_singleton.mp hline
      cases hq
    · obtain rfl := List.mem_singleton.mp hline
      cases hq
    · cases hline

end Cmput379.Prodcon
