import Mathlib.Data.List.Basic
import Mathlib.Data.Int.Order.Basic
import Mathlib.Tactic.NormNum

/-!
# Text, decimal numerals and formatted input

The parts of the C++ standard library that read and write numbers, on texts
as lists of characters:

* `intText`: `std::to_string(int)`.
* `numeral`: optional white space, an optional sign and at least one decimal
  digit at the front of a text.
* `extractInt`: `stream >> i` for an `int i`; a numeral outside the range of
  `int` sets the fail bit.
* `strtol`: base 10; saturates and reports `ERANGE`.
* `stoi`: `std::stoi`, which throws where `stream >> i` sets the fail bit.
* `toInt`: the conversion `(int)` of a `long`, which keeps the low 32 bits.
* `words`: `istream_iterator<std::string>`, the maximal runs of non-blanks.

The main lemma is `extractInt_intText`: extraction undoes rendering and stops
right after the digits.
-/

namespace Cmput379.Lib

/-- A C string or the content of a `std::string`. -/
abbrev Text := List Char

/-- The values of a 32-bit `int`. -/
def IsInt (x : ℤ) : Prop := -2147483648 ≤ x ∧ x ≤ 2147483647

instance (x : ℤ) : Decidable (IsInt x) := inferInstanceAs (Decidable (_ ∧ _))

/-- `isspace` in the C locale. -/
def isspace (c : Char) : Bool :=
  c = ' ' || c = '\t' || c = '\n' || c = '\x0b' || c = '\x0c' || c = '\r'

/-! ## Writing -/

/-- `std::to_string(int)`. -/
def intText : ℤ → Text
  | .ofNat n => Nat.toDigits 10 n
  | .negSucc n => '-' :: Nat.toDigits 10 (n + 1)

/-! ## Reading -/

/-- An optional sign: whether it is a minus, and the text after it. -/
def splitSign : Text → Bool × Text
  | '-' :: s => (true, s)
  | '+' :: s => (false, s)
  | s => (false, s)

/-- The numeral at the front of a text, and the text after its last digit. -/
def numeral (s : Text) : Option (ℤ × Text) :=
  let (neg, t) := splitSign (s.dropWhile isspace)
  let digits := t.takeWhile Char.isDigit
  if digits = [] then none
  else
    let v : ℤ := Nat.ofDigitChars 10 digits 0
    some (if neg then -v else v, t.dropWhile Char.isDigit)

/-- `stream >> i` for an `int i`: the value and the rest of the stream, or
    `none` when the fail bit is set. -/
def extractInt (s : Text) : Option (ℤ × Text) :=
  match numeral s with
  | none => none
  | some (v, rest) => if IsInt v then some (v, rest) else none

/-- `strtol(s, nullptr, 10)` and whether it sets `errno` to `ERANGE`. -/
def strtol (s : Text) : ℤ × Bool :=
  match numeral s with
  | none => (0, false)
  | some (v, _) =>
    if v < -9223372036854775808 then (-9223372036854775808, true)
    else if 9223372036854775807 < v then (9223372036854775807, true)
    else (v, false)

/-- `std::stoi(s)`; `none` when it throws `invalid_argument` or `out_of_range`. -/
def stoi (s : Text) : Option ℤ := (extractInt s).map Prod.fst

/-- `(int) x` for a `long x`. -/
def toInt (x : ℤ) : ℤ := Int.bmod x (2 ^ 32)

/-- The tokens `istream_iterator<std::string>` yields. -/
def words (s : Text) : List Text := (s.splitOnP isspace).filter (· ≠ [])

/-! ## Rendering and extraction -/

theorem isspace_of_isDigit {c : Char} (h : c.isDigit = true) : isspace c = false := by
  by_contra hc
  simp only [Bool.not_eq_false, isspace, Bool.or_eq_true, decide_eq_true_eq] at hc
  rcases hc with ((((rfl | rfl) | rfl) | rfl) | rfl) | rfl <;> exact absurd h (by decide)

theorem splitSign_of_isDigit {c : Char} (h : c.isDigit = true) (s : Text) :
    splitSign (c :: s) = (false, c :: s) := by
  unfold splitSign
  split
  · rename_i heq
    cases heq
    exact absurd h (by decide)
  · rename_i heq
    cases heq
    exact absurd h (by decide)
  · rfl

/-- `s` does not go on with a digit. -/
def NoDigit (s : Text) : Prop := ∀ c ∈ s.head?, c.isDigit = false

theorem NoDigit.nil : NoDigit [] := by simp [NoDigit]

theorem NoDigit.cons {c : Char} (h : c.isDigit = false) (s : Text) : NoDigit (c :: s) := by
  simpa [NoDigit] using h

theorem takeWhile_digits {ds : Text} (hds : ∀ c ∈ ds, c.isDigit = true) {rest : Text}
    (h : NoDigit rest) : (ds ++ rest).takeWhile Char.isDigit = ds := by
  rw [List.takeWhile_append_of_pos hds]
  cases rest with
  | nil => simp
  | cons c rest => simp [h c (by simp)]

theorem dropWhile_digits {ds : Text} (hds : ∀ c ∈ ds, c.isDigit = true) {rest : Text}
    (h : NoDigit rest) : (ds ++ rest).dropWhile Char.isDigit = rest := by
  rw [List.dropWhile_append_of_pos hds]
  cases rest with
  | nil => simp
  | cons c rest => simp [h c (by simp)]

theorem isDigit_of_mem_toDigits {n : ℕ} : ∀ c ∈ Nat.toDigits 10 n, c.isDigit = true :=
  fun _ hc => Nat.isDigit_of_mem_toDigits (by decide) (by decide) hc

/-- A rendered number starts with a digit. -/
theorem toDigits_eq_cons (n : ℕ) :
    ∃ c ds, Nat.toDigits 10 n = c :: ds ∧ c.isDigit = true := by
  cases h : Nat.toDigits 10 n with
  | nil => exact absurd h Nat.toDigits_ne_nil
  | cons c ds => exact ⟨c, ds, rfl, isDigit_of_mem_toDigits (n := n) c (h ▸ List.mem_cons_self)⟩

theorem numeral_toDigits (n : ℕ) {rest : Text} (h : NoDigit rest) :
    numeral (Nat.toDigits 10 n ++ rest) = some ((n : ℤ), rest) := by
  obtain ⟨c, ds, hcs, hc⟩ := toDigits_eq_cons n
  have hdrop : (Nat.toDigits 10 n ++ rest).dropWhile isspace = Nat.toDigits 10 n ++ rest := by
    rw [hcs, List.cons_append, List.dropWhile_cons, isspace_of_isDigit hc]
    rfl
  have hsign : splitSign (Nat.toDigits 10 n ++ rest) = (false, Nat.toDigits 10 n ++ rest) := by
    rw [hcs, List.cons_append, splitSign_of_isDigit hc]
  simp only [numeral, hdrop, hsign, takeWhile_digits isDigit_of_mem_toDigits h,
    dropWhile_digits isDigit_of_mem_toDigits h]
  rw [if_neg Nat.toDigits_ne_nil, Nat.ofDigitChars_toDigits (by decide) (by decide)]
  rfl

theorem numeral_intText (x : ℤ) {rest : Text} (h : NoDigit rest) :
    numeral (intText x ++ rest) = some (x, rest) := by
  cases x with
  | ofNat n => exact numeral_toDigits n h
  | negSucc n =>
    have hdrop : ('-' :: Nat.toDigits 10 (n + 1) ++ rest).dropWhile isspace =
        '-' :: (Nat.toDigits 10 (n + 1) ++ rest) := rfl
    simp only [numeral, intText, hdrop, splitSign, takeWhile_digits isDigit_of_mem_toDigits h,
      dropWhile_digits isDigit_of_mem_toDigits h]
    rw [if_neg Nat.toDigits_ne_nil, Nat.ofDigitChars_toDigits (by decide) (by decide)]
    rfl

theorem intText_injective {x y : ℤ} (h : intText x = intText y) : x = y := by
  have hx := numeral_intText x NoDigit.nil
  rw [h, numeral_intText y NoDigit.nil] at hx
  exact (congrArg Prod.fst (Option.some.inj hx)).symm

/-- Extraction undoes rendering, for every `int`. -/
theorem extractInt_intText {x : ℤ} (hx : IsInt x) {rest : Text} (h : NoDigit rest) :
    extractInt (intText x ++ rest) = some (x, rest) := by
  simp only [extractInt, numeral_intText x h, if_pos hx]

theorem stoi_intText {x : ℤ} (hx : IsInt x) {rest : Text} (h : NoDigit rest) :
    stoi (intText x ++ rest) = some x := by
  rw [stoi, extractInt_intText hx h]
  rfl

theorem intText_ne_nil (x : ℤ) : intText x ≠ [] := by
  cases x with
  | ofNat n => exact Nat.toDigits_ne_nil
  | negSucc n => simp [intText]

theorem isInt_of_extractInt {s rest : Text} {x : ℤ} (h : extractInt s = some (x, rest)) :
    IsInt x := by
  unfold extractInt at h
  split at h
  · cases h
  · split_ifs at h with hint
    cases h
    exact hint

theorem isInt_of_stoi {s : Text} {x : ℤ} (h : stoi s = some x) : IsInt x := by
  obtain ⟨⟨v, rest⟩, hextract, rfl⟩ := Option.map_eq_some_iff.mp h
  exact isInt_of_extractInt hextract

theorem length_splitSign_le (s : Text) : (splitSign s).2.length ≤ s.length := by
  unfold splitSign
  split
  · simp
  · simp
  · exact le_rfl

/-- A numeral has a digit, so that less is left. -/
theorem length_lt_of_numeral {s rest : Text} {v : ℤ} (h : numeral s = some (v, rest)) :
    rest.length < s.length := by
  have hsign := length_splitSign_le (s.dropWhile isspace)
  have hblank := (List.dropWhile_suffix isspace (l := s)).length_le
  unfold numeral at h
  generalize splitSign (s.dropWhile isspace) = signed at h hsign
  obtain ⟨neg, t⟩ := signed
  have hsplit := congrArg List.length (List.takeWhile_append_dropWhile (p := Char.isDigit) (l := t))
  rw [List.length_append] at hsplit
  by_cases hdigits : t.takeWhile Char.isDigit = []
  · simp [hdigits] at h
  · have hpos := List.length_pos_of_ne_nil hdigits
    simp only [hdigits, if_false, Option.some.injEq, Prod.mk.injEq] at h
    obtain ⟨-, rfl⟩ := h
    simp only at hsign
    omega

theorem length_lt_of_extractInt {s rest : Text} {x : ℤ} (h : extractInt s = some (x, rest)) :
    rest.length < s.length := by
  unfold extractInt at h
  split at h
  · cases h
  · rename_i v r hnumeral
    split_ifs at h
    cases h
    exact length_lt_of_numeral hnumeral

/-- The characters of a rendered number. -/
theorem mem_intText {x : ℤ} {c : Char} (h : c ∈ intText x) : c = '-' ∨ c.isDigit = true := by
  cases x with
  | ofNat n => exact .inr (isDigit_of_mem_toDigits c h)
  | negSucc n =>
    rcases List.mem_cons.mp h with rfl | h
    · exact .inl rfl
    · exact .inr (isDigit_of_mem_toDigits c h)

/-- An `int` is rendered in at most 11 characters. -/
theorem length_intText_le {x : ℤ} (hx : IsInt x) : (intText x).length ≤ 11 := by
  unfold IsInt at hx
  cases x with
  | ofNat n =>
    have hn : n < 10 ^ 11 := by simp only [Int.ofNat_eq_natCast] at hx; omega
    exact (Nat.length_toDigits_le_iff (by decide) (by decide)).mpr hn
  | negSucc n =>
    have hn : n + 1 < 10 ^ 10 := by omega
    have hlen := (Nat.length_toDigits_le_iff (b := 10) (by decide) (by decide)).mpr hn
    show (Nat.toDigits 10 (n + 1)).length + 1 ≤ 11
    omega

end Cmput379.Lib
