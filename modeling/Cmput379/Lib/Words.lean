import Mathlib.Data.List.TakeWhile
import Cmput379.Lib.Text

/-!
# The words of a text

How a text falls into the parts between separators; `words` is the case of blanks.

* `pieces_append_sep`: it splits at every separator; the lemmas on a separator in front
  and on a text of separators follow.
* `pieces_cons`, `pieces_first`: a character that is no separator begins the first part,
  and where that ends.
* `flatten_pieces`: the parts hold the other characters, in their order.
-/

namespace Cmput379.Lib

/-- The parts between the separators, without the empty ones. -/
def pieces (p : Char → Bool) (s : Text) : List Text := (s.splitOnP p).filter (· ≠ [])

theorem words_eq_pieces (s : Text) : words s = pieces isspace s := rfl

@[simp] theorem words_nil : words [] = [] := rfl

variable {p : Char → Bool} {c : Char} {s w tail : Text}

@[simp] theorem pieces_nil : pieces p [] = [] := rfl

theorem pieces_append_sep (hc : p c = true) (s t : Text) :
    pieces p (s ++ c :: t) = pieces p s ++ pieces p t := by
  unfold pieces
  rw [List.splitOnP_append_cons s t hc, List.filter_append]

theorem pieces_cons_sep (hc : p c = true) (s : Text) : pieces p (c :: s) = pieces p s := by
  have happend := pieces_append_sep hc [] s
  rwa [List.nil_append, pieces_nil, List.nil_append] at happend

/-- A character that is no separator begins the first part. -/
theorem pieces_cons (hc : p c = false) (s : Text) :
    ∃ t rest, pieces p (c :: s) = (c :: t) :: rest := by
  obtain ⟨t, parts, hparts⟩ := List.exists_cons_of_ne_nil (List.splitOnP_ne_nil p s)
  refine ⟨t, parts.filter (· ≠ []), ?_⟩
  unfold pieces
  rw [List.splitOnP_cons_eq_if_modifyHead, if_neg (by simp [hc]), hparts, List.modifyHead_cons,
    List.filter_cons_of_pos (by simp)]

/-- Only a text of separators has no parts. -/
theorem pieces_eq_nil_iff : pieces p s = [] ↔ ∀ c ∈ s, p c = true := by
  induction s with
  | nil => simp
  | cons c s ih =>
    rw [List.forall_mem_cons]
    cases hc : p c with
    | true =>
      rw [pieces_cons_sep hc, ih]
      simp
    | false =>
      obtain ⟨t, rest, hpieces⟩ := pieces_cons hc s
      simp [hpieces]

/-! ## The first part -/

/-- A text without separators is one part. -/
theorem pieces_word (hne : w ≠ []) (hw : ∀ c ∈ w, p c = false) : pieces p w = [w] := by
  have hsplit : w.splitOnP p = [w] :=
    List.splitOnP_eq_singleton fun c hc => by simp [hw c hc]
  unfold pieces
  rw [hsplit, List.filter_cons_of_pos (by simpa using hne), List.filter_nil]

theorem pieces_word_append (hne : w ≠ []) (hw : ∀ c ∈ w, p c = false)
    (htail : ∀ c ∈ tail.head?, p c = true) : pieces p (w ++ tail) = w :: pieces p tail := by
  cases tail with
  | nil => rw [List.append_nil, pieces_word hne hw, pieces_nil]
  | cons c tail =>
    have hc : p c = true := htail c rfl
    rw [pieces_append_sep hc, pieces_word hne hw, pieces_cons_sep hc, List.singleton_append]

/-- Separators in front make no difference. -/
theorem pieces_dropWhile (s : Text) : pieces p (s.dropWhile p) = pieces p s := by
  induction s with
  | nil => rfl
  | cons c s ih =>
    cases hc : p c with
    | true => rw [List.dropWhile_cons_of_pos hc, ih, pieces_cons_sep hc]
    | false => rw [List.dropWhile_cons_of_neg (by simp [hc])]

/-- The first part, and what follows it. -/
theorem pieces_first (h : pieces p s ≠ []) :
    ∃ w tail, s.dropWhile p = w ++ tail ∧ w ≠ [] ∧ (∀ c ∈ w, p c = false) ∧
      ∀ c ∈ tail.head?, p c = true := by
  have hdrop : s.dropWhile p ≠ [] := by
    intro hnil
    rw [← pieces_dropWhile, hnil] at h
    exact h rfl
  obtain ⟨c, body, hbody⟩ := List.exists_cons_of_ne_nil hdrop
  have hc : p c = false := by
    have hhead := List.head_dropWhile_not p hdrop
    simpa only [hbody, List.head_cons] using hhead
  refine ⟨(s.dropWhile p).takeWhile (!p ·), (s.dropWhile p).dropWhile (!p ·),
    (List.takeWhile_append_dropWhile).symm, ?_, ?_, ?_⟩
  · rw [hbody, List.takeWhile_cons_of_pos (by simp [hc])]
    exact List.cons_ne_nil _ _
  · intro d hd
    simpa using List.mem_takeWhile_imp hd
  · intro d hd
    have hnot := List.head?_dropWhile_not (fun c => !p c) (s.dropWhile p)
    rw [Option.mem_def] at hd
    rw [hd] at hnot
    simpa using hnot

/-! ## All parts -/

theorem flatten_splitOnP (p : Char → Bool) (s : Text) :
    (s.splitOnP p).flatten = s.filter fun c => !p c := by
  induction s with
  | nil => simp
  | cons c s ih =>
    rw [List.splitOnP_cons_eq_if_modifyHead]
    cases hc : p c with
    | true => simp [hc, ih]
    | false =>
      obtain ⟨t, parts, hparts⟩ := List.exists_cons_of_ne_nil (List.splitOnP_ne_nil p s)
      rw [hparts] at ih
      simp only [Bool.false_eq_true, if_false, hparts, List.modifyHead_cons, List.flatten_cons,
        List.cons_append]
      rw [← List.flatten_cons, ih]
      simp [hc]

/-- The parts hold all that is no separator. -/
theorem flatten_pieces (p : Char → Bool) (s : Text) :
    (pieces p s).flatten = s.filter fun c => !p c := by
  rw [← flatten_splitOnP, pieces]
  exact List.flatten_filter_ne_nil

end Cmput379.Lib
