import Mathlib.Data.List.Basic

/-!
# Delimited messages on a byte stream

A writer appends messages, each closed by a delimiter; a reader takes at most `cap`
elements at a time, passes on what comes before the first delimiter, and drops the
rest of what it took.

* `take_frames`, `drop_frames`: what a read passes on, and what it leaves.
* `Balance`: what was passed on, what is queued, and what was written.
* `Balance.receive`: a read keeps the balance iff exactly one message was queued. Two
  messages fit into a read.
* `Balance.drained`, `Balance.perm_iff`: when the stream is empty, all messages were
  passed on, each once, iff every read found exactly one; then they are in order.
-/

namespace Cmput379.Lib

variable {α : Type*} {delim : α} {cap len : ℕ}

/-- The messages as they are on the stream. -/
def frames (delim : α) (ms : List (List α)) : List α := ms.flatMap (· ++ [delim])

@[simp] theorem frames_nil : frames delim [] = [] := rfl

@[simp] theorem frames_cons (m : List α) (ms : List (List α)) :
    frames delim (m :: ms) = m ++ delim :: frames delim ms := by
  simp [frames]

theorem frames_append (ms ms' : List (List α)) :
    frames delim (ms ++ ms') = frames delim ms ++ frames delim ms' := by
  simp [frames]

/-- No delimiter inside, and at most `len` elements. -/
def Short (delim : α) (len : ℕ) (m : List α) : Prop := delim ∉ m ∧ m.length ≤ len

theorem Short.drop {m : List α} (h : Short delim len m) (k : ℕ) :
    Short delim len (m.drop k) := by
  refine ⟨fun hmem => h.1 (List.mem_of_mem_drop hmem), ?_⟩
  have hlen := h.2
  rw [List.length_drop]
  omega

section Decidable

variable [DecidableEq α]

/-- The elements before the first delimiter. -/
def firstFrame (delim : α) (queue : List α) : List α := queue.takeWhile (· ≠ delim)

theorem firstFrame_append {m : List α} (h : delim ∉ m) (rest : List α) :
    firstFrame delim (m ++ delim :: rest) = m := by
  have hpos : ∀ x ∈ m, decide (x ≠ delim) = true := by
    intro x hx
    rw [decide_eq_true_eq]
    rintro rfl
    exact h hx
  unfold firstFrame
  rw [List.takeWhile_append_of_pos hpos]
  simp

/-- A read passes on the first message, or what is left of it. -/
theorem take_frames {m : List α} {ms : List (List α)} (hcap : 2 * (len + 1) ≤ cap)
    (h : Short delim len m) :
    firstFrame delim ((frames delim (m :: ms)).take cap) = m := by
  have hlen := h.2
  obtain ⟨k, hk⟩ : ∃ k, cap - m.length = k + 1 := ⟨cap - m.length - 1, by omega⟩
  rw [frames_cons, List.take_append, List.take_of_length_le (by omega), hk, List.take_succ_cons]
  exact firstFrame_append h.1 _

theorem count_frames {ms : List (List α)} (h : ∀ m ∈ ms, Short delim len m) :
    (frames delim ms).count delim = ms.length := by
  induction ms with
  | nil => rfl
  | cons m ms ih =>
    rw [List.forall_mem_cons] at h
    rw [frames_cons, List.count_append, List.count_cons_self,
      List.count_eq_zero.mpr h.1.1, ih h.2, List.length_cons]
    omega

end Decidable

/-- Dropping elements leaves messages, but for the first, of which a part is gone. -/
theorem drop_frames {ms : List (List α)} : ∀ {k : ℕ}, (∀ m ∈ ms, Short delim len m) →
    ∃ ms', (frames delim ms).drop k = frames delim ms' ∧ (∀ m ∈ ms', Short delim len m) ∧
      ms'.length ≤ ms.length := by
  induction ms with
  | nil => exact fun _ => ⟨[], by simp, by simp, Nat.le_refl _⟩
  | cons m ms ih =>
    intro k h
    rw [List.forall_mem_cons] at h
    by_cases hk : k ≤ m.length
    · refine ⟨m.drop k :: ms, ?_, List.forall_mem_cons.mpr ⟨h.1.drop k, h.2⟩, Nat.le_refl _⟩
      rw [frames_cons, frames_cons, List.drop_append_of_le_length hk]
    · obtain ⟨ms', heq, hshort, hlen⟩ := ih (k := k - m.length - 1) h.2
      refine ⟨ms', ?_, hshort, by rw [List.length_cons]; omega⟩
      obtain ⟨j, hj⟩ : ∃ j, k - m.length = j + 1 := ⟨k - m.length - 1, by omega⟩
      rw [frames_cons, List.drop_append, List.drop_eq_nil_of_le (by omega), hj,
        List.drop_succ_cons, List.nil_append, ← heq]
      congr 1
      omega

/-- A read takes the first message, and the second if there is one. -/
theorem drop_cap_frames {m : List α} {ms : List (List α)} (hcap : 2 * (len + 1) ≤ cap)
    (h : ∀ x ∈ m :: ms, Short delim len x) :
    ∃ ms', (frames delim (m :: ms)).drop cap = frames delim ms' ∧
      (∀ x ∈ ms', Short delim len x) ∧ ms'.length ≤ ms.length - 1 := by
  rw [List.forall_mem_cons] at h
  have hm := h.1.2
  obtain ⟨j, hj⟩ : ∃ j, cap - m.length = j + 1 := ⟨cap - m.length - 1, by omega⟩
  have hdrop : (frames delim (m :: ms)).drop cap = (frames delim ms).drop j := by
    rw [frames_cons, List.drop_append, List.drop_eq_nil_of_le (by omega), hj,
      List.drop_succ_cons, List.nil_append]
  rw [hdrop]
  cases ms with
  | nil => exact ⟨[], by simp, by simp, Nat.le_refl _⟩
  | cons m' ms =>
    have hm' := ((List.forall_mem_cons.mp h.2).1).2
    obtain ⟨i, hi⟩ : ∃ i, j - m'.length = i + 1 := ⟨j - m'.length - 1, by omega⟩
    obtain ⟨ms', heq, hshort, hlen⟩ := drop_frames (k := i) (List.forall_mem_cons.mp h.2).2
    refine ⟨ms', ?_, hshort, by simpa using hlen⟩
    rw [frames_cons, List.drop_append, List.drop_eq_nil_of_le (by omega), hi,
      List.drop_succ_cons, List.nil_append, heq]

/-! ## Channels -/

/-- A stream, with the messages written to it and those passed on by the reader. -/
structure Channel (α : Type*) where
  queue : List α
  written : List (List α)
  passed : List (List α)

namespace Channel

def empty : Channel α := { queue := [], written := [], passed := [] }

/-- A message and its delimiter are appended. -/
def send (delim : α) (c : Channel α) (m : List α) : Channel α :=
  { c with queue := c.queue ++ (m ++ [delim]), written := c.written ++ [m] }

/-- At most `cap` elements are taken, and `m` is passed on. -/
def receive (cap : ℕ) (c : Channel α) (m : List α) : Channel α :=
  { c with queue := c.queue.drop cap, passed := c.passed ++ [m] }

/-- Exactly one message is queued. -/
def One [DecidableEq α] (delim : α) (c : Channel α) : Prop := c.queue.count delim = 1

instance [DecidableEq α] (c : Channel α) : Decidable (c.One delim) :=
  inferInstanceAs (Decidable (_ = 1))

end Channel

/-- While `ok`, the messages passed on and those queued are the ones written; once it
    has failed, some message is neither passed on nor queued. -/
def Balance (delim : α) (len : ℕ) (ok : Prop) (c : Channel α) : Prop :=
  ∃ ms, c.queue = frames delim ms ∧ (∀ m ∈ ms, Short delim len m) ∧
    (ok → c.passed ++ ms = c.written) ∧ (¬ ok → c.passed.length + ms.length < c.written.length)

namespace Balance

variable {ok : Prop} {c : Channel α}

theorem empty : Balance delim len True (Channel.empty : Channel α) :=
  ⟨[], rfl, by simp, fun _ => rfl, fun hnot => absurd trivial hnot⟩

theorem send (h : Balance delim len ok c) {m : List α} (hm : Short delim len m) :
    Balance delim len ok (c.send delim m) := by
  obtain ⟨ms, hqueue, hshort, hok, hnot⟩ := h
  refine ⟨ms ++ [m], ?_, ?_, ?_, ?_⟩
  · show c.queue ++ _ = _
    rw [hqueue, frames_append, frames_cons, frames_nil]
  · intro x hx
    rcases List.mem_append.mp hx with hx | hx
    · exact hshort x hx
    · obtain rfl := List.mem_singleton.mp hx
      exact hm
  · intro h
    show c.passed ++ (ms ++ [m]) = c.written ++ [m]
    rw [← List.append_assoc, hok h]
  · intro h
    have hlt := hnot h
    show c.passed.length + (ms ++ [m]).length < (c.written ++ [m]).length
    simp only [List.length_append, List.length_singleton]
    omega

variable [DecidableEq α]

/-- What a read passes on is a message, or what is left of it. -/
theorem short_firstFrame (h : Balance delim len ok c) (hne : c.queue ≠ [])
    (hcap : 2 * (len + 1) ≤ cap) : delim ∈ c.queue.take cap ∧
      Short delim len (firstFrame delim (c.queue.take cap)) := by
  obtain ⟨ms, hqueue, hshort, -, -⟩ := h
  cases ms with
  | nil => exact absurd hqueue hne
  | cons m ms =>
    rw [List.forall_mem_cons] at hshort
    have hlen := hshort.1.2
    refine ⟨?_, by rw [hqueue, take_frames hcap hshort.1]; exact hshort.1⟩
    obtain ⟨k, hk⟩ : ∃ k, cap - m.length = k + 1 := ⟨cap - m.length - 1, by omega⟩
    rw [hqueue, frames_cons, List.take_append, hk, List.take_succ_cons]
    exact List.mem_append_right _ List.mem_cons_self

/-- A read passes on the message that was written behind those passed on before. -/
theorem next_written (h : Balance delim len ok c) (hholds : ok) (hne : c.queue ≠ [])
    (hcap : 2 * (len + 1) ≤ cap) :
    ∃ ms, c.passed ++ firstFrame delim (c.queue.take cap) :: ms = c.written := by
  obtain ⟨ms, hqueue, hshort, hok, -⟩ := h
  cases ms with
  | nil => exact absurd hqueue hne
  | cons m ms =>
    refine ⟨ms, ?_⟩
    rw [hqueue, take_frames hcap (List.forall_mem_cons.mp hshort).1]
    exact hok hholds

/-- What a read passes on has been written. -/
theorem mem_written (h : Balance delim len ok c) (hholds : ok) (hne : c.queue ≠ [])
    (hcap : 2 * (len + 1) ≤ cap) : firstFrame delim (c.queue.take cap) ∈ c.written := by
  obtain ⟨ms, hwritten⟩ := h.next_written hholds hne hcap
  rw [← hwritten]
  exact List.mem_append_right _ List.mem_cons_self

/-- A read that finds exactly one message. -/
theorem queue_of_one (h : Balance delim len ok c) (hone : c.One delim)
    (hcap : 2 * (len + 1) ≤ cap) :
    c.queue = firstFrame delim (c.queue.take cap) ++ [delim] := by
  obtain ⟨ms, hqueue, hshort, -, -⟩ := h
  have hlen : ms.length = 1 := by
    rw [← count_frames hshort, ← hqueue]
    exact hone
  obtain ⟨m, rfl⟩ := List.length_eq_one_iff.mp hlen
  rw [hqueue, take_frames hcap (hshort m List.mem_cons_self)]
  simp

/-- Behind a read, the messages are still in balance iff it found exactly one. -/
theorem receive (h : Balance delim len ok c) (hne : c.queue ≠ [])
    (hcap : 2 * (len + 1) ≤ cap) :
    Balance delim len (ok ∧ c.One delim) (c.receive cap (firstFrame delim (c.queue.take cap))) := by
  obtain ⟨ms, hqueue, hshort, hok, hnot⟩ := h
  cases ms with
  | nil => exact absurd hqueue hne
  | cons m ms =>
    obtain ⟨ms', hdrop, hshort', hlen⟩ := drop_cap_frames hcap hshort
    have hpassed : firstFrame delim (c.queue.take cap) = m := by
      rw [hqueue]
      exact take_frames hcap (List.forall_mem_cons.mp hshort).1
    have hone : c.One delim ↔ ms = [] := by
      unfold Channel.One
      rw [hqueue, count_frames hshort, List.length_cons, ← List.length_eq_zero_iff]
      omega
    refine ⟨ms', by rw [← hdrop, ← hqueue]; rfl, hshort', ?_, ?_⟩
    · rintro ⟨hholds, hsingle⟩
      obtain rfl := hone.mp hsingle
      obtain rfl : ms' = [] := List.length_eq_zero_iff.mp (by simpa using hlen)
      show c.passed ++ [_] ++ [] = c.written
      rw [hpassed, List.append_nil, hok hholds]
    · intro hfails
      show (c.passed ++ [_]).length + ms'.length < c.written.length
      rw [List.length_append, List.length_singleton]
      by_cases hholds : ok
      · -- a second message was taken with the first
        have hmany : ms ≠ [] := fun hnil => hfails ⟨hholds, hone.mpr hnil⟩
        have hpos := List.length_pos_iff.mpr hmany
        have hwritten := congrArg List.length (hok hholds)
        rw [List.length_append, List.length_cons] at hwritten
        omega
      · have hlt := hnot hholds
        rw [List.length_cons] at hlt
        omega

omit [DecidableEq α] in
/-- What holds of an empty stream. -/
theorem drained (h : Balance delim len ok c) (hempty : c.queue = []) :
    (ok → c.passed = c.written) ∧ (¬ ok → c.passed.length < c.written.length) := by
  obtain ⟨ms, hqueue, -, hok, hnot⟩ := h
  have hms : ms = [] := by
    cases ms with
    | nil => rfl
    | cons m ms =>
      rw [hempty, frames_cons] at hqueue
      simp at hqueue
  subst hms
  constructor
  · intro hholds
    rw [← hok hholds, List.append_nil]
  · exact fun hfails => hnot hfails

omit [DecidableEq α] in
/-- The messages on an empty stream were passed on, each once, iff `ok`. -/
theorem perm_iff (h : Balance delim len ok c) (hempty : c.queue = []) :
    c.passed.Perm c.written ↔ ok := by
  obtain ⟨hok, hnot⟩ := h.drained hempty
  constructor
  · intro hperm
    by_contra hfails
    exact absurd hperm.length_eq (Nat.ne_of_lt (hnot hfails))
  · intro hholds
    rw [hok hholds]

end Balance

end Cmput379.Lib
