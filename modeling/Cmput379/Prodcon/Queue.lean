import Cmput379.Prodcon.Wakeup
import Cmput379.Prodcon.Accounts

/-!
# The queue of prodcon

`queueOk`: the buffer holds at most `maxbuffer` commands; what was popped, followed
by what is in the buffer, is what was pushed, in the order of the input; and a
consumer that is about to pop finds a command.
-/

namespace Cmput379.Prodcon

open Cmput379.Lib

variable {n : ℕ} {input : List Text} {s : State n}

/-- The queue is bounded, and nothing is lost, duplicated or reordered in it. -/
structure QueueOk (input : List Text) (s : State n) : Prop where
  bound : s.buffer.length ≤ maxbuffer n
  order : s.popped ++ s.buffer = s.pushed
  pushed : s.pushed <+: tasks input
  item : ∀ i, s.At i .pop → s.buffer ≠ []

/-- A consumer that pops was granted an item while it held the mutex. -/
theorem buffer_ne_nil_of_pop (hok : s.monitor.Ok (maxbuffer n)) {i : Fin n} (hi : s.At i .pop) :
    s.buffer ≠ [] := by
  have hgranted : s.monitor.place (.consumer i) = .granted := congrArg ConsumerPc.place hi
  exact List.length_pos_iff.mp (hok.item i hgranted)

theorem Accounts.pushed_input (h : Accounts input s) : s.pushed <+: tasks input := by
  rw [← h.lines]
  exact List.prefix_append _ _

/-- In every reachable state, for every interleaving. -/
theorem queueOk (h : (system n input).Reachable s) : QueueOk input s where
  bound := (monitorOk_of_reachable h).bound
  order := (accounts_of_reachable h).queue
  pushed := (accounts_of_reachable h).pushed_input
  item _ hi := buffer_ne_nil_of_pop (monitorOk_of_reachable h) hi

abbrev c0 : Fin 1 := ⟨0, Nat.one_pos⟩

/-- A line is pushed, and the consumer that slept is about to pop it. -/
def aboutToPop : List (Action 1) :=
  [.main, .main, .producer none, .consumer c0, .consumer c0, .consumer c0, .consumer c0,
    .consumer c0, .consumer c0, .consumer c0, .consumer c0, .producer none, .producer none,
    .producer none, .producer none, .producer none, .producer (some c0), .producer none,
    .consumer c0, .consumer c0]

theorem queueOk_aboutToPop : ∃ s, (system 1 [['T', '1']]).exec (initState 1 [['T', '1']])
    aboutToPop = some s ∧ s.At 0 .pop ∧ s.buffer = [['T', '1']] ∧ QueueOk [['T', '1']] s := by
  have hrun : ((system 1 [['T', '1']]).exec (initState 1 [['T', '1']]) aboutToPop).map
      (fun s => ((s.consumer 0).pc, s.buffer)) = some (.pop, [['T', '1']]) := by
    decide +kernel
  obtain ⟨s, hexec, hview⟩ := Option.map_eq_some_iff.mp hrun
  simp only [Prod.mk.injEq] at hview
  exact ⟨s, hexec, hview.1, hview.2, queueOk (System.Reachable.of_exec rfl hexec)⟩

end Cmput379.Prodcon
