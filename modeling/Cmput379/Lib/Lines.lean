import Mathlib.Data.List.TakeWhile
import Cmput379.Lib.Framing
import Cmput379.Lib.Text

/-!
# Lines through a buffer

A stream of lines read by `fgets` into a buffer that may be too small for them.

* `fgets`, `fgetsAll`: one read, and all reads up to the end of the stream.
* `fgetsAll_line`, `fgetsAll_long`: a line is one read when it fits into the buffer with
  its newline, and is cut off where the buffer is full when it does not.
* `fgetsAll_frames`, `length_fgetsAll_frames`: the reads are the lines when all lines
  fit; else there are more reads than lines.
-/

namespace Cmput379.Lib

/-- One `fgets` into a buffer with room for `room` characters and the final NUL: the
    characters it stores, and what is left on the stream. -/
def fgets : ℕ → Text → Text × Text
  | 0, stream => ([], stream)
  | _ + 1, [] => ([], [])
  | room + 1, c :: stream =>
    if c = '\n' then ([c], stream)
    else
      let (buffer, rest) := fgets room stream
      (c :: buffer, rest)

/-- `while (!feof(stream)) if (fgets(...) != NULL) …`, for at most `fuel` reads. -/
def fgetsLoop (room : ℕ) : ℕ → Text → List Text
  | 0, _ => []
  | _ + 1, [] => []
  | fuel + 1, c :: stream =>
    let (buffer, rest) := fgets room (c :: stream)
    buffer :: fgetsLoop room fuel rest

/-- All that is read up to the end of the stream. Each read takes a character, so there
    are no more reads than characters. -/
def fgetsAll (room : ℕ) (stream : Text) : List Text := fgetsLoop room stream.length stream

/-- The text behind a buffer: the characters before the first NUL. -/
def cString (buffer : Text) : Text := buffer.takeWhile (· ≠ '\x00')

theorem cString_of_not_mem {buffer : Text} (h : '\x00' ∉ buffer) : cString buffer = buffer := by
  unfold cString
  rw [List.takeWhile_eq_self_iff]
  intro c hc
  rw [decide_eq_true_eq]
  rintro rfl
  exact h hc

variable {room fuel : ℕ} {line stream : Text}

/-! ## One read -/

/-- Up to the newline the characters are taken one by one. -/
theorem fgets_append (hline : '\n' ∉ line) (room : ℕ) (rest : Text) :
    fgets (line.length + room) (line ++ rest) =
      (line ++ (fgets room rest).1, (fgets room rest).2) := by
  induction line with
  | nil => simp
  | cons c line ih =>
    rw [List.mem_cons, not_or] at hline
    rw [List.length_cons, Nat.succ_add, List.cons_append, fgets, if_neg (Ne.symm hline.1),
      ih hline.2]
    rfl

/-- A read takes the line with its newline when there is room for both. -/
theorem fgets_line (hline : '\n' ∉ line) (hlen : line.length ≤ room) (rest : Text) :
    fgets (room + 1) (line ++ '\n' :: rest) = (line ++ ['\n'], rest) := by
  obtain ⟨left, rfl⟩ := Nat.exists_eq_add_of_le hlen
  rw [Nat.add_assoc, fgets_append hline, fgets, if_pos rfl]

/-- Without a newline in front it takes what there is room for. -/
theorem fgets_long (hline : '\n' ∉ line) (rest : Text) :
    fgets line.length (line ++ rest) = (line, rest) := by
  have hread := fgets_append hline 0 rest
  rwa [Nat.add_zero, fgets, List.append_nil] at hread

/-- A read takes a character if there is room for one. -/
theorem length_fgets (room : ℕ) (c : Char) (stream : Text) :
    (fgets (room + 1) (c :: stream)).2.length ≤ stream.length := by
  induction room generalizing c stream with
  | zero =>
    by_cases hc : c = '\n'
    · simp [fgets, hc]
    · simp [fgets, hc]
  | succ room ih =>
    by_cases hc : c = '\n'
    · simp [fgets, hc]
    · cases stream with
      | nil => simp [fgets, hc]
      | cons d stream =>
        have hrest := ih d stream
        have hstep : (fgets (room + 1 + 1) (c :: d :: stream)).2 =
            (fgets (room + 1) (d :: stream)).2 := by
          rw [fgets, if_neg hc]
        rw [hstep, List.length_cons]
        omega

/-! ## All reads -/

theorem fgetsLoop_succ (c : Char) (stream : Text) :
    fgetsLoop room (fuel + 1) (c :: stream) =
      (fgets room (c :: stream)).1 :: fgetsLoop room fuel (fgets room (c :: stream)).2 := rfl

/-- As many reads as characters are enough. -/
theorem fgetsLoop_eq {fuel' : ℕ} (hfuel : stream.length ≤ fuel) (hfuel' : stream.length ≤ fuel') :
    fgetsLoop (room + 1) fuel stream = fgetsLoop (room + 1) fuel' stream := by
  induction fuel generalizing fuel' stream with
  | zero =>
    obtain rfl := List.length_eq_zero_iff.mp (Nat.le_zero.mp hfuel)
    cases fuel' <;> rfl
  | succ fuel ih =>
    cases stream with
    | nil => cases fuel' <;> rfl
    | cons c stream =>
      rw [List.length_cons] at hfuel hfuel'
      obtain ⟨fuel', rfl⟩ : ∃ k, fuel' = k + 1 := ⟨fuel' - 1, by omega⟩
      have hrest := length_fgets room c stream
      have hloop : fgetsLoop (room + 1) fuel (fgets (room + 1) (c :: stream)).2 =
          fgetsLoop (room + 1) fuel' (fgets (room + 1) (c :: stream)).2 :=
        ih (by omega) (by omega)
      rw [fgetsLoop_succ, fgetsLoop_succ, hloop]

theorem fgetsAll_cons (c : Char) (stream : Text) :
    fgetsAll (room + 1) (c :: stream) =
      (fgets (room + 1) (c :: stream)).1 ::
        fgetsAll (room + 1) (fgets (room + 1) (c :: stream)).2 := by
  have hrest := length_fgets room c stream
  unfold fgetsAll
  rw [List.length_cons, fgetsLoop_succ, fgetsLoop_eq hrest le_rfl]

theorem fgetsAll_of_ne_nil (hstream : stream ≠ []) :
    fgetsAll (room + 1) stream =
      (fgets (room + 1) stream).1 :: fgetsAll (room + 1) (fgets (room + 1) stream).2 := by
  cases stream with
  | nil => exact absurd rfl hstream
  | cons c stream => exact fgetsAll_cons c stream

/-- A line that fits is one read. -/
theorem fgetsAll_line (hline : '\n' ∉ line) (hlen : line.length ≤ room) (rest : Text) :
    fgetsAll (room + 1) (line ++ '\n' :: rest) =
      (line ++ ['\n']) :: fgetsAll (room + 1) rest := by
  rw [fgetsAll_of_ne_nil (by simp), fgets_line hline hlen]

/-- A line that does not fit is cut off where the buffer is full. -/
theorem fgetsAll_long (hline : '\n' ∉ line) (hlen : room < line.length) (rest : Text) :
    fgetsAll (room + 1) (line ++ rest) =
      line.take (room + 1) :: fgetsAll (room + 1) (line.drop (room + 1) ++ rest) := by
  have htake : (line.take (room + 1)).length = room + 1 := by
    rw [List.length_take]
    omega
  have hfirst : '\n' ∉ line.take (room + 1) := fun hmem => hline (List.mem_of_mem_take hmem)
  have hread := fgets_long hfirst (line.drop (room + 1) ++ rest)
  rw [htake, ← List.append_assoc, List.take_append_drop] at hread
  have hne : line ++ rest ≠ [] := by
    intro hnil
    rw [(List.append_eq_nil_iff.mp hnil).1] at hlen
    exact absurd hlen (Nat.not_lt_zero _)
  rw [fgetsAll_of_ne_nil hne, hread]

/-- A line takes at least one read, and at least two if it does not fit. -/
theorem length_fgetsAll_line (room : ℕ) (hline : '\n' ∉ line) (rest : Text) :
    (fgetsAll (room + 1) rest).length + (if line.length ≤ room then 1 else 2) ≤
      (fgetsAll (room + 1) (line ++ '\n' :: rest)).length := by
  induction hn : line.length using Nat.strong_induction_on generalizing line with
  | _ n ih =>
    subst hn
    by_cases hlen : line.length ≤ room
    · rw [if_pos hlen, fgetsAll_line hline hlen, List.length_cons]
    · have hmore := ih (line.drop (room + 1)).length (by rw [List.length_drop]; omega)
        (fun hmem => hline (List.mem_of_mem_drop hmem)) rfl
      rw [if_neg hlen, fgetsAll_long hline (by omega), List.length_cons]
      split at hmore <;> omega

/-- When all lines fit they are what is read. -/
theorem fgetsAll_frames {lines : List Text} (hlines : ∀ l ∈ lines, '\n' ∉ l)
    (hlen : ∀ l ∈ lines, l.length ≤ room) :
    fgetsAll (room + 1) (frames '\n' lines) = lines.map (· ++ ['\n']) := by
  induction lines with
  | nil => rfl
  | cons l lines ih =>
    rw [List.forall_mem_cons] at hlines hlen
    rw [frames_cons, fgetsAll_line hlines.1 hlen.1, ih hlines.2 hlen.2, List.map_cons]

/-- There are never fewer reads than lines, and as many only when all lines fit. -/
theorem length_fgetsAll_frames {lines : List Text} (hlines : ∀ l ∈ lines, '\n' ∉ l) :
    lines.length ≤ (fgetsAll (room + 1) (frames '\n' lines)).length ∧
      ((fgetsAll (room + 1) (frames '\n' lines)).length = lines.length →
        ∀ l ∈ lines, l.length ≤ room) := by
  induction lines with
  | nil => exact ⟨Nat.zero_le _, fun _ _ hl => absurd hl List.not_mem_nil⟩
  | cons l lines ih =>
    rw [List.forall_mem_cons] at hlines
    obtain ⟨hle, heq⟩ := ih hlines.2
    have hline := length_fgetsAll_line room hlines.1 (frames '\n' lines)
    rw [frames_cons, List.length_cons]
    refine ⟨by split at hline <;> omega, fun hsame => ?_⟩
    rw [List.forall_mem_cons]
    by_cases hlen : l.length ≤ room
    · rw [if_pos hlen] at hline
      exact ⟨hlen, heq (by omega)⟩
    · rw [if_neg hlen] at hline
      omega

end Cmput379.Lib
