import Mathlib.Algebra.BigOperators.Group.Finset.Piecewise
import Mathlib.Algebra.BigOperators.Group.Finset.Basic
import Mathlib.Algebra.Order.BigOperators.Group.Finset
import Mathlib.Data.Fintype.BigOperators

/-!
# A bounded buffer with two conditions

One producer and a finite set of consumers share a buffer of at most `cap` items
under a mutex. The producer waits while the buffer is full, a consumer while it is
empty; each push signals a consumer, each pop the producer. When the producer has
no more to push, it sets a flag outside the mutex and then wakes every consumer
that waits; a consumer that finds the buffer empty and the flag set leaves.

`Step` says what the threads may do, with spurious wake-ups. It does not say what
they do outside the critical section.

* `Guards`: the owner of a mutex is the thread in its critical section.
* `sum_update_add`: what a sum over the threads becomes when one of them moves.
* `Monitor.Ok`: the invariant of the protocol; the number of items is bounded by
  the number of consumers that will look at the buffer before they sleep again.
* `Monitor.Ok.step`: every step keeps it.
-/

namespace Cmput379.Lib

/-! ## Mutual exclusion -/

section Guards

variable {τ : Type*} {owner : Option τ} {inside inside' : τ → Prop} {t u : τ}

/-- The owner of the mutex is the one thread inside the critical section. -/
def Guards (owner : Option τ) (inside : τ → Prop) : Prop := ∀ t, owner = some t ↔ inside t

theorem Guards.eq (h : Guards owner inside) (ht : inside t) (hu : inside u) : t = u := by
  have howner := (h t).mpr ht
  rw [(h u).mpr hu] at howner
  exact (Option.some.inj howner).symm

theorem Guards.not_inside (h : Guards owner inside) (hfree : owner = none) : ¬ inside t := by
  rw [← h t, hfree]
  exact nofun

theorem Guards.keep (h : Guards owner inside) (hkeep : ∀ u, inside' u ↔ inside u) :
    Guards owner inside' := by
  intro u
  rw [hkeep, h u]

theorem Guards.acquire (h : Guards owner inside) (hfree : owner = none) (ht : inside' t)
    (hkeep : ∀ u, u ≠ t → (inside' u ↔ inside u)) : Guards (some t) inside' := by
  intro u
  by_cases hu : u = t
  · subst hu
    simp [ht]
  · rw [hkeep u hu, iff_false_right (h.not_inside hfree)]
    exact fun heq => hu (Option.some.inj heq).symm

theorem Guards.release (h : Guards owner inside) (ht : inside t) (ht' : ¬ inside' t)
    (hkeep : ∀ u, u ≠ t → (inside' u ↔ inside u)) : Guards none inside' := by
  intro u
  constructor
  · exact nofun
  · intro hu
    by_cases hne : u = t
    · exact absurd (hne ▸ hu) ht'
    · exact absurd (h.eq ((hkeep u hne).mp hu) ht) hne

end Guards

/-! ## Counting threads -/

/-- When thread `i` moves from `f i` to `x`, its weight in the sum changes. -/
theorem sum_update_add {ι β M : Type*} [Fintype ι] [DecidableEq ι] [AddCommMonoid M]
    (w : β → M) (f : ι → β) (i : ι) (x : β) :
    ∑ j, w (Function.update f i x j) + w (f i) = ∑ j, w (f j) + w x := by
  have hcomp :
      (fun j => w (Function.update f i x j)) = Function.update (fun j => w (f j)) i (w x) :=
    Function.comp_update w f i x
  rw [hcomp, Finset.sum_update_of_mem (Finset.mem_univ i),
    ← Finset.add_sum_erase Finset.univ (fun j => w (f j)) (Finset.mem_univ i),
    Finset.sdiff_singleton_eq_erase]
  ac_rfl

/-- When thread `i` moves without changing its weight, the sum stays. -/
theorem sum_update_same {ι β M : Type*} [Fintype ι] [DecidableEq ι] [AddCommMonoid M]
    (w : β → M) (f : ι → β) {i : ι} {x : β} (h : w x = w (f i)) :
    ∑ j, w (Function.update f i x j) = ∑ j, w (f j) := by
  refine Finset.sum_congr rfl fun j _ => ?_
  by_cases hj : j = i
  · subst hj
    simp [h]
  · simp [hj]

/-! ## The protocol -/

/-- The threads of a bounded buffer. -/
inductive Thread (κ : Type*)
  | producer
  | consumer (i : κ)
  deriving DecidableEq

/-- Where a thread is: outside the critical section, or inside it about to test
    the buffer, to look at the flag, to wait, to use the buffer, to signal, to
    release the mutex or to wake everybody; or blocked on its condition; or woken,
    but without the mutex yet. `last` is outside, between setting the flag and
    the last entry. -/
inductive Place
  | outside
  | test
  | refused
  | wait
  | blocked
  | woken
  | granted
  | signal
  | release
  | last
  | announce
  deriving DecidableEq

/-- The places of the critical section. -/
def Place.inside : Place → Bool
  | .test | .refused | .wait | .granted | .signal | .release | .announce => true
  | .outside | .blocked | .woken | .last => false

/-- A consumer at such a place looks at the buffer, or takes an item, before it
    can wait again. -/
def Place.claims : Place → ℕ
  | .woken | .test | .granted => 1
  | _ => 0

/-- The threads, the owner of the mutex, the number of items, and whether the
    producer has set the flag and woken everybody. -/
@[ext] structure Monitor (κ : Type*) where
  place : Thread κ → Place
  mutex : Option (Thread κ)
  size : ℕ
  done : Bool
  announced : Bool

namespace Monitor

variable {κ : Type*} [DecidableEq κ]

/-- Thread `t` goes to `p`. -/
def put (m : Monitor κ) (t : Thread κ) (p : Place) : Monitor κ :=
  { m with place := Function.update m.place t p }

section Simp

variable (m : Monitor κ) (t u : Thread κ) (p : Place)

@[simp] theorem put_place : (m.put t p).place u = if u = t then p else m.place u := by
  simp [put, Function.update_apply]

theorem put_self (h : m.place t = p) : m.put t p = m := by
  subst h
  simp [put]

@[simp] theorem put_mutex : (m.put t p).mutex = m.mutex := rfl
@[simp] theorem put_size : (m.put t p).size = m.size := rfl
@[simp] theorem put_done : (m.put t p).done = m.done := rfl
@[simp] theorem put_announced : (m.put t p).announced = m.announced := rfl

end Simp

/-- What the threads may do. -/
inductive Step (cap : ℕ) (m : Monitor κ) : Monitor κ → Prop
  | enter (t : Thread κ) (ht : m.place t = .outside ∨ m.place t = .woken) (hfree : m.mutex = none) :
      Step cap m { m.put t .test with mutex := some t }
  | block (t : Thread κ) (ht : m.place t = .wait) :
      Step cap m { m.put t .blocked with mutex := none }
  | wakeup (t : Thread κ) (ht : m.place t = .blocked) : Step cap m (m.put t .woken)
  | release (t : Thread κ) (ht : m.place t = .release) :
      Step cap m { m.put t .outside with mutex := none }
  | full (hp : m.place .producer = .test) (hfull : cap ≤ m.size) :
      Step cap m (m.put .producer .wait)
  | room (hp : m.place .producer = .test) (hroom : m.size < cap) :
      Step cap m (m.put .producer .granted)
  | push (hp : m.place .producer = .granted) :
      Step cap m { m.put .producer .signal with size := m.size + 1 }
  | signalConsumer (i : κ) (hp : m.place .producer = .signal)
      (hi : m.place (.consumer i) = .blocked) :
      Step cap m ((m.put (.consumer i) .woken).put .producer .release)
  | signalNobody (hp : m.place .producer = .signal)
      (hnone : ∀ i, m.place (.consumer i) ≠ .blocked) : Step cap m (m.put .producer .release)
  | finish (hp : m.place .producer = .outside) :
      Step cap m { m.put .producer .last with done := true }
  | enterLast (hp : m.place .producer = .last) (hfree : m.mutex = none) :
      Step cap m { m.put .producer .announce with mutex := some .producer }
  | announce (hp : m.place .producer = .announce) :
      Step cap m { m with
        place := Function.update (fun t => if m.place t = .blocked then .woken else m.place t)
          .producer .release
        announced := true }
  | empty (i : κ) (hi : m.place (.consumer i) = .test) (hempty : m.size = 0) :
      Step cap m (m.put (.consumer i) .refused)
  | item (i : κ) (hi : m.place (.consumer i) = .test) (hitem : 0 < m.size) :
      Step cap m (m.put (.consumer i) .granted)
  | leave (i : κ) (hi : m.place (.consumer i) = .refused) (hdone : m.done = true) :
      Step cap m (m.put (.consumer i) .release)
  | sleep (i : κ) (hi : m.place (.consumer i) = .refused) (hdone : m.done = false) :
      Step cap m (m.put (.consumer i) .wait)
  | pop (i : κ) (hi : m.place (.consumer i) = .granted) :
      Step cap m { m.put (.consumer i) .signal with size := m.size - 1 }
  | signalProducer (i : κ) (hi : m.place (.consumer i) = .signal) :
      Step cap m ((m.put .producer (if m.place .producer = .blocked then .woken
        else m.place .producer)).put (.consumer i) .release)

/-- The owner of the mutex is the thread in its critical section. -/
def Exclusive (m : Monitor κ) : Prop := Guards m.mutex fun t => (m.place t).inside = true

variable [Fintype κ]

/-- The looks at the buffer that are still to come: of the consumers, and of the
    one that the producer is about to wake. -/
def looks (m : Monitor κ) : ℕ :=
  ∑ i, (m.place (.consumer i)).claims + if m.place .producer = .signal then 1 else 0

/-- The invariant of the protocol. -/
structure Ok (cap : ℕ) (m : Monitor κ) : Prop where
  mutex : m.Exclusive
  bound : m.size ≤ cap
  room : m.place .producer = .granted → m.size < cap
  full : m.place .producer = .wait → cap ≤ m.size
  empty : ∀ i, m.place (.consumer i) = .refused ∨ m.place (.consumer i) = .wait → m.size = 0
  item : ∀ i, m.place (.consumer i) = .granted → 0 < m.size
  producer : m.place .producer = .blocked → cap ≤ m.size ∨ ∃ i, m.place (.consumer i) = .signal
  consumers : (∃ i, m.place (.consumer i) = .blocked) → m.size ≤ m.looks
  done : m.place .producer = .last ∨ m.place .producer = .announce ∨ m.announced = true →
    m.done = true
  announced : m.announced = true →
    ∀ i, m.place (.consumer i) ≠ .wait ∧ m.place (.consumer i) ≠ .blocked

/-! ## Every step keeps the invariant -/

section Keep

variable {cap : ℕ} {m m' : Monitor κ}

theorem looks_put_consumer (m : Monitor κ) (i : κ) (p : Place) :
    (m.put (.consumer i) p).looks + (m.place (.consumer i)).claims = m.looks + p.claims := by
  have hplace : ∀ j, (m.put (.consumer i) p).place (.consumer j) =
      Function.update (fun j => m.place (.consumer j)) i p j := by
    intro j
    simp [Function.update_apply]
  have hsum := sum_update_add Place.claims (fun j => m.place (.consumer j)) i p
  have hproducer : (m.put (.consumer i) p).place .producer = m.place .producer := by simp
  unfold looks
  simp only [hplace, hproducer]
  omega

theorem looks_put_producer (m : Monitor κ) (p : Place) :
    (m.put .producer p).looks + (if m.place .producer = .signal then 1 else 0) =
      m.looks + if p = .signal then 1 else 0 := by
  have hconsumer : ∀ i, (m.put .producer p).place (.consumer i) = m.place (.consumer i) := by simp
  unfold looks
  simp only [hconsumer, put_place, if_true]
  omega

omit [Fintype κ] in
/-- A thread that stays on its side of the mutex. -/
theorem Exclusive.put (h : m.Exclusive) {t : Thread κ} {p : Place}
    (hp : p.inside = (m.place t).inside) : (m.put t p).Exclusive := by
  refine Guards.keep h fun u => ?_
  by_cases hu : u = t
  · subst hu
    simp [hp]
  · simp [hu]

omit [Fintype κ] in
theorem Step.exclusive (hs : Step cap m m') (h : m.Exclusive) : m'.Exclusive := by
  cases hs with
  | enter t ht hfree =>
    exact Guards.acquire h hfree (by simp [Place.inside]) fun u hu => by simp [hu]
  | enterLast hp hfree =>
    exact Guards.acquire h hfree (by simp [Place.inside]) fun u hu => by simp [hu]
  | block t ht | release t ht =>
    refine Guards.release h (t := t) (by simp [ht, Place.inside]) (by simp [Place.inside])
      fun u hu => ?_
    simp [hu]
  | wakeup t ht => exact h.put (by rw [ht]; rfl)
  | full hp | room hp | signalNobody hp => exact h.put (by rw [hp]; rfl)
  | push hp => exact h.put (by rw [hp]; rfl)
  | finish hp => exact h.put (by rw [hp]; rfl)
  | signalConsumer i hp hi =>
    have hwoken := h.put (t := .consumer i) (p := .woken) (by rw [hi]; rfl)
    exact hwoken.put (by simp [hp, Place.inside])
  | announce hp =>
    refine Guards.keep h fun u => ?_
    by_cases hu : u = .producer
    · subst hu
      simp [hp, Place.inside]
    · by_cases hb : m.place u = .blocked <;> simp [hu, hb, Place.inside]
  | empty i hi | item i hi | leave i hi | sleep i hi => exact h.put (by rw [hi]; rfl)
  | pop i hi => exact h.put (by rw [hi]; rfl)
  | signalProducer i hi =>
    have hproducer := h.put (t := .producer)
      (p := if m.place .producer = .blocked then .woken else m.place .producer) (by
        split_ifs with hb
        · rw [hb]
          rfl
        · rfl)
    exact hproducer.put (by simp [hi, Place.inside])

omit [Fintype κ] [DecidableEq κ] in
/-- While a consumer is inside, the producer is not. -/
theorem Exclusive.producer_outside (h : m.Exclusive) {i : κ}
    (hi : (m.place (.consumer i)).inside = true) : (m.place .producer).inside = false := by
  by_contra hp
  have heq := Guards.eq h hi (t := .consumer i) (u := .producer) (by simpa using hp)
  exact absurd heq nofun

omit [Fintype κ] [DecidableEq κ] in
/-- While a consumer is inside, no other consumer is. -/
theorem Exclusive.consumer_eq (h : m.Exclusive) {i j : κ}
    (hi : (m.place (.consumer i)).inside = true) (hj : (m.place (.consumer j)).inside = true) :
    i = j := by
  have heq := Guards.eq h hi (t := .consumer i) (u := .consumer j) hj
  exact Thread.consumer.inj heq

theorem Ok.step_bound (h : m.Ok cap) (hs : Step cap m m') : m'.size ≤ cap := by
  cases hs with
  | push hp => exact h.room hp
  | pop i hi => exact (Nat.sub_le _ _).trans h.bound
  | _ => exact h.bound

theorem Ok.step_room (h : m.Ok cap) (hs : Step cap m m')
    (hgranted : m'.place .producer = .granted) :
    m'.size < cap := by
  cases hs with
  | room hp hroom => exact hroom
  | pop i hi => exact (Nat.sub_le _ _).trans_lt (h.room (by simpa using hgranted))
  | enter t | block t | wakeup t | release t =>
    by_cases ht : t = .producer
    · simp [ht] at hgranted
    · exact h.room (by simpa [Ne.symm ht] using hgranted)
  | push | full | signalConsumer | signalNobody | finish | enterLast | announce =>
    simp at hgranted
  | empty | item | leave | sleep => exact h.room (by simpa using hgranted)
  | signalProducer i hi =>
    by_cases hb : m.place .producer = .blocked
    · simp [hb] at hgranted
    · exact h.room (by simpa [hb] using hgranted)

theorem Ok.step_full (h : m.Ok cap) (hs : Step cap m m') (hwait : m'.place .producer = .wait) :
    cap ≤ m'.size := by
  cases hs with
  | full hp hfull => exact hfull
  | pop i hi =>
    -- the producer does not wait while consumer `i` pops
    have hout := h.mutex.producer_outside (i := i) (by rw [hi]; rfl)
    have hinside : m.place .producer = .wait := by simpa using hwait
    simp [hinside, Place.inside] at hout
  | enter t | block t | wakeup t | release t =>
    by_cases ht : t = .producer
    · simp [ht] at hwait
    · exact h.full (by simpa [Ne.symm ht] using hwait)
  | push | room | signalConsumer | signalNobody | finish | enterLast | announce =>
    simp at hwait
  | empty | item | leave | sleep => exact h.full (by simpa using hwait)
  | signalProducer i hi =>
    by_cases hb : m.place .producer = .blocked
    · simp [hb] at hwait
    · exact h.full (by simpa [hb] using hwait)

theorem Ok.step_empty (h : m.Ok cap) (hs : Step cap m m') {j : κ}
    (hj : m'.place (.consumer j) = .refused ∨ m'.place (.consumer j) = .wait) : m'.size = 0 := by
  cases hs with
  | empty i hi hempty => exact hempty
  | sleep i hi hdone => exact h.empty i (.inl hi)
  | push hp =>
    -- the producer does not push while consumer `j` is inside
    have hplace : m.place (.consumer j) = .refused ∨ m.place (.consumer j) = .wait := by
      simpa using hj
    have hout := h.mutex.producer_outside (i := j)
      (by rcases hplace with hj | hj <;> rw [hj] <;> rfl)
    simp [hp, Place.inside] at hout
  | pop i hi =>
    by_cases hne : j = i
    · simp [hne] at hj
    · have hzero := h.empty j (by simpa [hne] using hj)
      simp [hzero]
  | enter t | block t | wakeup t | release t =>
    by_cases ht : t = .consumer j
    · simp [ht] at hj
    · exact h.empty j (by simpa [Ne.symm ht] using hj)
  | full | room | signalNobody | finish | enterLast => exact h.empty j (by simpa using hj)
  | signalConsumer i | item i | leave i | signalProducer i =>
    by_cases hne : j = i
    · simp [hne] at hj
    · exact h.empty j (by simpa [hne] using hj)
  | announce hp =>
    by_cases hb : m.place (.consumer j) = .blocked
    · simp [hb] at hj
    · exact h.empty j (by simpa [hb] using hj)

theorem Ok.step_item (h : m.Ok cap) (hs : Step cap m m') {j : κ}
    (hj : m'.place (.consumer j) = .granted) : 0 < m'.size := by
  cases hs with
  | item i hi hitem => exact hitem
  | push hp => exact Nat.succ_pos _
  | pop i hi =>
    -- consumer `j` is not inside while consumer `i` pops
    by_cases hne : j = i
    · simp [hne] at hj
    · have hplace : m.place (.consumer j) = .granted := by simpa [hne] using hj
      exact absurd (h.mutex.consumer_eq (by rw [hplace]; rfl) (by rw [hi]; rfl)) hne
  | enter t | block t | wakeup t | release t =>
    by_cases ht : t = .consumer j
    · simp [ht] at hj
    · exact h.item j (by simpa [Ne.symm ht] using hj)
  | full | room | signalNobody | finish | enterLast => exact h.item j (by simpa using hj)
  | signalConsumer i | empty i | leave i | sleep i | signalProducer i =>
    by_cases hne : j = i
    · simp [hne] at hj
    · exact h.item j (by simpa [hne] using hj)
  | announce hp =>
    by_cases hb : m.place (.consumer j) = .blocked
    · simp [hb] at hj
    · exact h.item j (by simpa [hb] using hj)

/-- A blocked producer stays blocked for a reason: the buffer is full, or the
    consumer that made room is about to signal. -/
theorem Ok.step_producer (h : m.Ok cap) (hs : Step cap m m')
    (hb : m'.place .producer = .blocked) :
    cap ≤ m'.size ∨ ∃ i, m'.place (.consumer i) = .signal := by
  cases hs with
  | pop i hi => exact .inr ⟨i, by simp⟩
  | signalProducer i hi =>
    by_cases hp : m.place .producer = .blocked <;> simp [hp] at hb
  | block t ht =>
    by_cases hp : t = .producer
    · subst hp
      exact .inl (h.full ht)
    · rcases h.producer (by simpa [Ne.symm hp] using hb) with hfull | ⟨i, hi⟩
      · exact .inl hfull
      · refine .inr ⟨i, ?_⟩
        have hne : t ≠ .consumer i := by
          rintro rfl
          simp [ht] at hi
        simpa [hne.symm] using hi
  | enter t ht | wakeup t ht | release t ht =>
    by_cases hp : t = .producer
    · simp [hp] at hb
    · rcases h.producer (by simpa [Ne.symm hp] using hb) with hfull | ⟨i, hi⟩
      · exact .inl hfull
      · refine .inr ⟨i, ?_⟩
        have hne : t ≠ .consumer i := by
          rintro rfl
          simp [hi] at ht
        simpa [hne.symm] using hi
  | push | full | room | signalConsumer | signalNobody | finish | enterLast | announce =>
    simp at hb
  | empty j hj | item j hj | leave j hj | sleep j hj =>
    rcases h.producer (by simpa using hb) with hfull | ⟨i, hi⟩
    · exact .inl hfull
    · refine .inr ⟨i, ?_⟩
      have hne : i ≠ j := by
        rintro rfl
        simp [hj] at hi
      simpa [hne] using hi

/-- A move that gives up no look. -/
theorem looks_le_put (m : Monitor κ) (t : Thread κ) (p : Place)
    (hproducer : t = .producer → m.place t ≠ .signal)
    (hconsumer : t ≠ .producer → (m.place t).claims ≤ p.claims) :
    m.looks ≤ (m.put t p).looks := by
  cases t with
  | producer =>
    have hlooks := looks_put_producer m p
    rw [if_neg (hproducer rfl)] at hlooks
    omega
  | consumer i =>
    have hlooks := looks_put_consumer m i p
    have hclaims := hconsumer nofun
    omega

/-- The items stay within the looks to come, as long as some consumer sleeps. -/
theorem Ok.step_consumers (h : m.Ok cap) (hs : Step cap m m')
    (hb : ∃ j, m'.place (.consumer j) = .blocked) : m'.size ≤ m'.looks := by
  obtain ⟨j, hj⟩ := hb
  cases hs with
  | enter t ht =>
    by_cases hne : t = .consumer j
    · simp [hne] at hj
    · have hbefore := h.consumers ⟨j, by simpa [Ne.symm hne] using hj⟩
      have hle : m.looks ≤ (m.put t .test).looks :=
        looks_le_put m t .test (fun _ => by rcases ht with ht | ht <;> simp [ht])
          (fun _ => by rcases ht with ht | ht <;> simp [ht, Place.claims])
      exact hbefore.trans hle
  | block t ht =>
    cases t with
    | producer =>
      have hbefore := h.consumers ⟨j, by simpa using hj⟩
      exact hbefore.trans
        (looks_le_put m .producer .blocked (by simp [ht]) (by simp [ht, Place.claims]))
    | consumer i =>
      -- nothing is left when a consumer falls asleep
      have hzero := h.empty i (.inr ht)
      show m.size ≤ _
      omega
  | wakeup t ht | release t ht =>
    by_cases hne : t = .consumer j
    · simp [hne] at hj
    · have hbefore := h.consumers ⟨j, by simpa [Ne.symm hne] using hj⟩
      exact hbefore.trans (looks_le_put m t _ (by simp [ht]) (by simp [ht, Place.claims]))
  | full hp | room hp =>
    have hbefore := h.consumers ⟨j, by simpa using hj⟩
    exact hbefore.trans (looks_le_put m .producer _ (by simp [hp]) (by simp [hp, Place.claims]))
  | finish hp | enterLast hp =>
    have hbefore := h.consumers ⟨j, by simpa using hj⟩
    exact hbefore.trans (looks_le_put m .producer _ (by simp [hp]) (by simp [hp, Place.claims]))
  | push hp =>
    -- the item is covered by the signal that follows
    have hbefore := h.consumers ⟨j, by simpa using hj⟩
    have hlooks := looks_put_producer m .signal
    simp only [hp, reduceCtorEq, if_false, if_true] at hlooks
    show m.size + 1 ≤ (m.put .producer .signal).looks
    omega
  | signalConsumer i hp hi =>
    have hbefore := h.consumers ⟨i, hi⟩
    have hwoken := looks_put_consumer m i .woken
    have hrelease := looks_put_producer (m.put (.consumer i) .woken) .release
    simp only [hi, hp, put_place, Place.claims, reduceCtorEq, if_false, if_true] at hwoken hrelease
    show m.size ≤ ((m.put (.consumer i) .woken).put .producer .release).looks
    omega
  | signalNobody hp hnone => exact absurd (by simpa using hj) (hnone j)
  | announce hp =>
    by_cases hbefore : m.place (.consumer j) = .blocked <;> simp [hbefore] at hj
  | empty i hi hempty =>
    show m.size ≤ _
    omega
  | item i hi | leave i hi | sleep i hi =>
    by_cases hne : j = i
    · simp [hne] at hj
    · have hbefore := h.consumers ⟨j, by simpa [hne] using hj⟩
      exact hbefore.trans (looks_le_put m (.consumer i) _ (by simp) (by simp [hi, Place.claims]))
  | pop i hi =>
    -- one look used, one item gone
    by_cases hne : j = i
    · simp [hne] at hj
    · have hbefore := h.consumers ⟨j, by simpa [hne] using hj⟩
      have hlooks := looks_put_consumer m i .signal
      simp only [hi, Place.claims] at hlooks
      show m.size - 1 ≤ (m.put (.consumer i) .signal).looks
      omega
  | signalProducer i hi =>
    by_cases hne : j = i
    · simp [hne] at hj
    · have hbefore := h.consumers ⟨j, by simpa [hne] using hj⟩
      have hproducer := looks_put_producer m
        (if m.place .producer = .blocked then .woken else m.place .producer)
      have hconsumer := looks_put_consumer (m.put .producer
        (if m.place .producer = .blocked then .woken else m.place .producer)) i .release
      have hstay : (if m.place .producer = .blocked then Place.woken else m.place .producer) =
          .signal ↔ m.place .producer = .signal := by
        split_ifs with hb <;> simp [*]
      simp only [hstay] at hproducer
      simp only [hi, put_place, reduceCtorEq, if_false, Place.claims] at hconsumer
      show m.size ≤ Monitor.looks _
      omega

/-- The flag is set before the last entry. -/
theorem Ok.step_done (h : m.Ok cap) (hs : Step cap m m') (hlast : m'.place .producer = .last ∨
    m'.place .producer = .announce ∨ m'.announced = true) : m'.done = true := by
  cases hs with
  | finish hp => rfl
  | enterLast hp hfree => exact h.done (.inl hp)
  | announce hp => exact h.done (.inr (.inl hp))
  | enter t | block t | wakeup t | release t =>
    by_cases ht : t = .producer
    · exact h.done (.inr (.inr (by simpa [ht] using hlast)))
    · exact h.done (by simpa [Ne.symm ht] using hlast)
  | push | full | room | signalConsumer | signalNobody =>
    exact h.done (.inr (.inr (by simpa using hlast)))
  | empty | item | leave | sleep | pop => exact h.done (by simpa using hlast)
  | signalProducer i hi =>
    by_cases hb : m.place .producer = .blocked
    · exact h.done (by simpa [hb] using hlast)
    · exact h.done (by simpa [hb] using hlast)

/-- Once everybody has been woken, nobody waits again: who finds the buffer empty
    sees the flag. -/
theorem Ok.step_announced (h : m.Ok cap) (hs : Step cap m m') (hall : m'.announced = true) (j : κ) :
    m'.place (.consumer j) ≠ .wait ∧ m'.place (.consumer j) ≠ .blocked := by
  cases hs with
  | announce hp =>
    have hout : m.place (.consumer j) ≠ .wait := by
      intro hj
      have hproducer := h.mutex.producer_outside (i := j) (by rw [hj]; rfl)
      simp [hp, Place.inside] at hproducer
    by_cases hb : m.place (.consumer j) = .blocked <;> simp [hb, hout]
  | sleep i hi hdone =>
    have hset := h.done (.inr (.inr hall))
    simp [hdone] at hset
  | block t ht =>
    have hj := h.announced hall j
    by_cases hne : t = .consumer j
    · subst hne
      exact absurd ht hj.1
    · simpa [Ne.symm hne] using hj
  | enter t | wakeup t | release t =>
    by_cases hne : t = .consumer j
    · simp [hne]
    · simpa [Ne.symm hne] using h.announced hall j
  | push | full | room | signalNobody | finish | enterLast => simpa using h.announced hall j
  | signalConsumer i | empty i | item i | leave i | pop i | signalProducer i =>
    by_cases hne : j = i
    · simp [hne]
    · simpa [hne] using h.announced hall j

/-- Every step keeps the invariant. -/
theorem Ok.step (h : m.Ok cap) (hs : Step cap m m') : m'.Ok cap where
  mutex := hs.exclusive h.mutex
  bound := h.step_bound hs
  room := h.step_room hs
  full := h.step_full hs
  empty _ := h.step_empty hs
  item _ := h.step_item hs
  producer := h.step_producer hs
  consumers := h.step_consumers hs
  done := h.step_done hs
  announced := h.step_announced hs

omit [Fintype κ] in
/-- What has been announced stays announced. -/
theorem Step.announced_mono (hs : Step cap m m') (hall : m.announced = true) :
    m'.announced = true := by
  cases hs with
  | announce hp => rfl
  | _ => exact hall

omit [DecidableEq κ] in
/-- Nobody has entered yet, and the buffer is empty. -/
theorem Ok.init (hplace : ∀ t, m.place t = .outside) (hfree : m.mutex = none) (hsize : m.size = 0)
    (hannounced : m.announced = false) : m.Ok cap where
  mutex := by
    intro t
    simp [hfree, hplace, Place.inside]
  bound := by omega
  room := by simp [hplace]
  full := by simp [hplace]
  empty := by simp [hplace]
  item := by simp [hplace]
  producer := by simp [hplace]
  consumers := by simp [hplace]
  done := by simp [hplace, hannounced]
  announced := by simp [hannounced]

/-! ## While the mutex is free -/

omit [DecidableEq κ] in
theorem Ok.producer_of_free (h : m.Ok cap) (hfree : m.mutex = none)
    (hb : m.place .producer = .blocked) : cap ≤ m.size := by
  rcases h.producer hb with hfull | ⟨i, hi⟩
  · exact hfull
  · have hout := Guards.not_inside h.mutex hfree (t := .consumer i)
    simp [hi, Place.inside] at hout

omit [DecidableEq κ] in
/-- While the mutex is free, the looks to come are those of the woken consumers. -/
theorem looks_of_free (h : m.Exclusive) (hfree : m.mutex = none) :
    m.looks = (Finset.univ.filter fun i => m.place (.consumer i) = .woken).card := by
  have hout : ∀ t, (m.place t).inside = false := by
    intro t
    simpa using Guards.not_inside h hfree (t := t)
  have hproducer : m.place .producer ≠ .signal := by
    intro hp
    have hplace := hout .producer
    simp [hp, Place.inside] at hplace
  have hclaims : ∀ i, (m.place (.consumer i)).claims =
      if m.place (.consumer i) = .woken then 1 else 0 := by
    intro i
    have hplace := hout (.consumer i)
    cases hi : m.place (.consumer i) <;> simp [hi, Place.claims, Place.inside] at hplace ⊢
  simp only [looks, hclaims, hproducer, if_false, Finset.card_filter, Nat.add_zero]

omit [DecidableEq κ] in
theorem Ok.consumers_of_free (h : m.Ok cap) (hfree : m.mutex = none)
    (hb : ∃ i, m.place (.consumer i) = .blocked) :
    m.size ≤ (Finset.univ.filter fun i => m.place (.consumer i) = .woken).card := by
  rw [← looks_of_free h.mutex hfree]
  exact h.consumers hb

end Keep

end Monitor

end Cmput379.Lib
