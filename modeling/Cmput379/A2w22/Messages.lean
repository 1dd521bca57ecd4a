import Cmput379.Lib.Text

/-!
# Messages

The messages of `Assignment_2/w22` are words separated by blanks. `fields` is the
`getline` loop that takes them apart in `controller.cpp` (lines 97-103) and in
`switch.cpp` (lines 122-128).

* `fields_join`: it finds the words again.
* `length_le_of_mem_fields`, `mem_of_mem_fields`: the words are parts of the text.
-/

namespace Cmput379.A2w22

open Cmput379.Lib

/-- The words with a blank between each two. -/
def join (words : List Text) : Text := [' '].intercalate words

/-- `while (getline(ss, buf, ' ')) temp.push_back(buf)`: behind a last blank there is no
    further field. -/
def fields (s : Text) : List Text :=
  let parts := s.splitOn ' '
  if parts.getLast? = some [] then parts.dropLast else parts

/-- A word can be found again. -/
def Word (t : Text) : Prop := t ≠ [] ∧ ' ' ∉ t

theorem fields_join {ts : List Text} (h : ∀ t ∈ ts, Word t) : fields (join ts) = ts := by
  unfold fields join
  by_cases hts : ts = []
  · subst hts
    rfl
  · rw [List.splitOn_intercalate ' ' (fun t ht => (h t ht).2) hts]
    dsimp only
    rw [if_neg]
    intro hlast
    exact (h [] (List.mem_of_getLast? hlast)).1 rfl

theorem word_intText (x : ℤ) : Word (intText x) := by
  refine ⟨intText_ne_nil x, fun hmem => ?_⟩
  rcases mem_intText hmem with h | h <;> exact absurd h (by decide)

/-! ## Parts of a text -/

theorem join_cons (t : Text) {ts : List Text} (h : ts ≠ []) :
    join (t :: ts) = t ++ ' ' :: join ts := by
  cases ts with
  | nil => exact absurd rfl h
  | cons t' ts => simp [join, List.intercalate_cons_cons]

theorem infix_join {t : Text} {ts : List Text} (h : t ∈ ts) : t <:+: join ts := by
  induction ts with
  | nil => exact absurd h List.not_mem_nil
  | cons t' ts ih =>
    by_cases hts : ts = []
    · subst hts
      obtain rfl := List.mem_singleton.mp h
      simp [join]
    · rw [join_cons t' hts]
      rcases List.mem_cons.mp h with rfl | hmem
      · exact (List.prefix_append _ _).isInfix
      · exact (ih hmem).trans ((List.suffix_cons ' ' _).trans (List.suffix_append _ _)).isInfix

/-- A field is a part of the text. -/
theorem infix_of_mem_fields {s t : Text} (h : t ∈ fields s) : t <:+: s := by
  have hmem : t ∈ s.splitOn ' ' := by
    unfold fields at h
    dsimp only at h
    split_ifs at h
    · exact List.dropLast_subset _ h
    · exact h
  have hjoin : join (s.splitOn ' ') = s := List.intercalate_splitOn ' '
  rw [← hjoin]
  exact infix_join hmem

theorem length_le_of_mem_fields {s t : Text} (h : t ∈ fields s) : t.length ≤ s.length :=
  (infix_of_mem_fields h).length_le

theorem mem_of_mem_fields {s t : Text} (h : t ∈ fields s) {c : Char} (hc : c ∈ t) : c ∈ s :=
  (infix_of_mem_fields h).subset hc

/-- The length of a text of words. -/
theorem length_join_le {bound : ℕ} {ts : List Text} (h : ∀ t ∈ ts, t.length ≤ bound) :
    (join ts).length ≤ ts.length * (bound + 1) := by
  induction ts with
  | nil => simp [join]
  | cons t ts ih =>
    rw [List.forall_mem_cons] at h
    by_cases hts : ts = []
    · subst hts
      simpa [join] using Nat.le_succ_of_le h.1
    · have hrest := ih h.2
      rw [join_cons t hts, List.length_append, List.length_cons, List.length_cons,
        Nat.add_mul, Nat.one_mul]
      omega

theorem mem_join {ts : List Text} {c : Char} (hc : c ∈ join ts) :
    c = ' ' ∨ ∃ t ∈ ts, c ∈ t := by
  induction ts with
  | nil => simp [join] at hc
  | cons t ts ih =>
    by_cases hts : ts = []
    · subst hts
      exact .inr ⟨t, List.mem_cons_self, by simpa [join] using hc⟩
    · rw [join_cons t hts, List.mem_append, List.mem_cons] at hc
      rcases hc with hc | hc | hc
      · exact .inr ⟨t, List.mem_cons_self, hc⟩
      · exact .inl hc
      · rcases ih hc with hblank | ⟨t', ht', hct'⟩
        · exact .inl hblank
        · exact .inr ⟨t', List.mem_cons_of_mem _ ht', hct'⟩

end Cmput379.A2w22
