import Cmput379.A2w22.AsSent

/-!
# What is delivered

A read takes all that is queued, but only what comes before the first NUL is passed
on. So a FIFO that has been drained has lost a message iff some read found two.

* `delivered_iff`: for one FIFO, and for all of them with the answers to the ASKs.
* `delivered_iff_counterexample`: HELLO and ASK are queued when the controller reads.
-/

namespace Cmput379.A2w22

open Cmput379.Lib
open Cmput379.Sdn (nul)

variable {n : ℕ} {site : Site n} {net : Net n}

/-- The FIFOs that somebody reads. -/
def fifos (site : Site n) : List (ℤ × ℤ) :=
  (List.finRange n).flatMap fun k => ((site.cfg k).switchID, 0) ::
    (site.cfg k).switch_sessions.map fun session => (session.peer, (site.cfg k).switchID)

def Drained (site : Site n) (net : Net n) : Prop :=
  ∀ f ∈ fifos site, (net.fifo f.1 f.2).queue = []

/-- The ASKs that switch `k` has sent. -/
def asksWritten (site : Site n) (net : Net n) (k : Fin n) : ℕ :=
  (net.fifo (site.cfg k).switchID 0).written.countP (IsKind "ASK" ·)

/-- Every message has been passed on exactly once, and every ASK has one ADD. -/
structure Delivered (site : Site n) (net : Net n) : Prop where
  once : ∀ f ∈ fifos site, (net.fifo f.1 f.2).passed.Perm (net.fifo f.1 f.2).written
  answered : ∀ k, asksWritten site net k = addsWritten site net k

instance (site : Site n) (net : Net n) : Decidable (Drained site net) :=
  inferInstanceAs (Decidable (∀ _ ∈ _, _))

instance (site : Site n) (net : Net n) : Decidable (Delivered site net) :=
  decidable_of_iff ((∀ f ∈ fifos site, (net.fifo f.1 f.2).passed.Perm (net.fifo f.1 f.2).written) ∧
    ∀ k, asksWritten site net k = addsWritten site net k)
    ⟨fun h => ⟨h.1, h.2⟩, fun h => ⟨h.once, h.answered⟩⟩

theorem mem_fifos_up (site : Site n) (k : Fin n) : ((site.cfg k).switchID, 0) ∈ fifos site :=
  List.mem_flatMap.mpr ⟨k, List.mem_finRange k, List.mem_cons_self⟩

theorem mem_fifos_of_reads {act : Action n} {f : ℤ × ℤ} (h : Reads site act = some f) :
    f ∈ fifos site := by
  cases act with
  | start k => cases h
  | traffic k => cases h
  | switchRead k session mem =>
    obtain ⟨peer, hpeer, rfl⟩ := Option.map_eq_some_iff.mp h
    apply List.mem_flatMap.mpr
    exact ⟨k, List.mem_finRange k, List.mem_cons_of_mem _
      (List.mem_map.mpr ⟨peer, List.mem_of_getElem? hpeer, rfl⟩)⟩
  | controllerRead k mem =>
    cases h
    exact mem_fifos_up site k

/-- What was written to a FIFO has been passed on exactly once, as soon as the FIFO is
    drained, iff every read of it found one message; and this for all FIFOs is what it
    takes for every ASK to be answered by one ADD as well. -/
theorem delivered_iff {tr : List (Net n × Action n)}
    (h : (system site).Run (.init site) tr net) :
    (∀ a b, (net.fifo a b).queue = [] →
      ((net.fifo a b).passed.Perm (net.fifo a b).written ↔
        ∀ p ∈ tr, ReadsOne site a b p.1 p.2)) ∧
    (Drained site net → (Delivered site net ↔ AsSent site tr)) := by
  refine ⟨fun a b hempty => perm_iff_readsOne h hempty, fun hdrained => ⟨?_, ?_⟩⟩
  · intro hdelivered p hp a b hreads
    have hmem := mem_fifos_of_reads hreads
    have hone := (perm_iff_readsOne h (hdrained _ hmem)).mp (hdelivered.once _ hmem)
    exact hone p hp hreads
  · intro hsent
    constructor
    · intro f hf
      exact (perm_iff_readsOne h (hdrained f hf)).mpr fun p hp => hsent p hp f.1 f.2
    · intro k
      have hbalanced := (balance_of_run h).1 (site.cfg k).switchID 0
      have hpassed := (hbalanced.drained (hdrained _ (mem_fifos_up site k))).1
        fun p hp => hsent p hp _ _
      have hanswered := (typed_of_run h hsent).answered k
      unfold asksPassed at hanswered
      rwa [hpassed] at hanswered

/-! ## One switch -/

theorem isInt_one : IsInt 1 := by decide

theorem isInt_neg_one : IsInt (-1) := by decide

def oneSwitch : Site 1 where
  cfg _ :=
    { switchID := 1, pswj := -1, pswk := -1, ip_range := ⟨100, 110⟩
      id_int := isInt_one
      pswj_int := isInt_neg_one
      pswk_int := isInt_neg_one
      low_int := by decide
      high_int := by decide }
  file _ := ["psw1 100 300".toList]
  id_eq k := by
    obtain rfl := Subsingleton.elim k 0
    rfl

abbrev psw1 : Fin 1 := ⟨0, Nat.one_pos⟩

/-- Nothing of note is in the buffers. -/
def noMemory : Memory := ⟨[], []⟩

/-- The switch has taken its traffic line before the controller reads. -/
def askBeforeRead : List (Action 1) :=
  [.start psw1, .traffic psw1, .controllerRead psw1 noMemory, .switchRead psw1 0 noMemory]

/-- The ASK comes with the HELLO, and gets no answer. -/
theorem delivered_iff_counterexample :
    ∃ tr net, (system oneSwitch).Run (.init oneSwitch) tr net ∧ Drained oneSwitch net ∧
      askMessage 1 300 ∈ (net.fifo 1 0).written ∧ askMessage 1 300 ∉ (net.fifo 1 0).passed ∧
      addsWritten oneSwitch net psw1 = 0 ∧ ¬ Delivered oneSwitch net := by
  have hrun : ((system oneSwitch).exec (.init oneSwitch) askBeforeRead).map (fun net =>
      decide (Drained oneSwitch net ∧ askMessage 1 300 ∈ (net.fifo 1 0).written ∧
        askMessage 1 300 ∉ (net.fifo 1 0).passed ∧ addsWritten oneSwitch net psw1 = 0 ∧
        ¬ Delivered oneSwitch net)) = some true := by
    decide +kernel
  obtain ⟨net, hexec, hview⟩ := System.exists_of_exec hrun
  exact ⟨_, net, .of_exec hexec, hview⟩

/-- The controller reads after each of the two messages. -/
def askAfterAck : List (Action 1) :=
  [.start psw1, .controllerRead psw1 noMemory, .switchRead psw1 0 noMemory, .traffic psw1,
    .controllerRead psw1 noMemory, .switchRead psw1 0 noMemory]

theorem delivered_iff_askAfterAck :
    ∃ tr net, (system oneSwitch).Run (.init oneSwitch) tr net ∧ Delivered oneSwitch net ∧
      addsWritten oneSwitch net psw1 = 1 ∧ AsSent oneSwitch tr := by
  have hrun : ((system oneSwitch).exec (.init oneSwitch) askAfterAck).map (fun net =>
      decide (Drained oneSwitch net ∧ Delivered oneSwitch net ∧
        addsWritten oneSwitch net psw1 = 1)) = some true := by
    decide +kernel
  obtain ⟨net, hexec, hdrained, hdelivered, hadds⟩ := System.exists_of_exec hrun
  have hr := System.Run.of_exec hexec
  exact ⟨_, net, hr, hdelivered, hadds, ((delivered_iff hr).2 hdrained).mp hdelivered⟩

end Cmput379.A2w22
