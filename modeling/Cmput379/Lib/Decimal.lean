import Mathlib.Tactic.Linarith
import Mathlib.Tactic.Ring
import Cmput379.Lib.Text

/-!
# Decimal numerals

A text that consists of decimal digits, against what the conversions of the C and C++
libraries make of it. These read the longest numeral at the front of a text and
ignore what follows.

* `strtol_of_isNumeral`, `stoi_of_isNumeral`: on a numeral they return its value,
  unless it is out of range.
* `strtolInt_of_isNumeral`: `(int) strtol(..)` with a test of `errno` does so exactly
  for the values of an `int`.
* `numeral_intText_append`: a number with something behind it is a longer number.
-/

namespace Cmput379.Lib

/-- One or more decimal digits, and nothing else. -/
def IsNumeral (s : Text) : Prop := s ≠ [] ∧ ∀ c ∈ s, c.isDigit = true

instance (s : Text) : Decidable (IsNumeral s) :=
  @instDecidableAnd _ _ inferInstance (List.decidableBAll _ s)

/-- The value of a numeral. -/
def value (s : Text) : ℤ := (Nat.ofDigitChars 10 s 0 : ℕ)

theorem value_nonneg (s : Text) : 0 ≤ value s := Int.natCast_nonneg _

theorem value_toDigits (n : ℕ) : value (Nat.toDigits 10 n) = n := by
  rw [value, Nat.ofDigitChars_toDigits (by decide) (by decide)]

theorem isNumeral_toDigits (n : ℕ) : IsNumeral (Nat.toDigits 10 n) :=
  ⟨Nat.toDigits_ne_nil, isDigit_of_mem_toDigits⟩

/-- A numeral has neither a blank nor a sign in front. -/
theorem IsNumeral.head {s : Text} (h : IsNumeral s) (rest : Text) :
    (s ++ rest).dropWhile isspace = s ++ rest ∧ splitSign (s ++ rest) = (false, s ++ rest) := by
  obtain ⟨hne, hdigits⟩ := h
  cases s with
  | nil => exact absurd rfl hne
  | cons c s =>
    have hc : c.isDigit = true := hdigits c List.mem_cons_self
    refine ⟨?_, splitSign_of_isDigit hc _⟩
    rw [List.cons_append, List.dropWhile_cons, isspace_of_isDigit hc]
    rfl

/-- The numeral in front of a text that goes on with something else. -/
theorem numeral_append {s rest : Text} (h : IsNumeral s) (hrest : NoDigit rest) :
    numeral (s ++ rest) = some (value s, rest) := by
  obtain ⟨hdrop, hsign⟩ := h.head rest
  simp only [numeral, hdrop, hsign, takeWhile_digits h.2 hrest, dropWhile_digits h.2 hrest]
  rw [if_neg h.1]
  rfl

theorem numeral_of_isNumeral {s : Text} (h : IsNumeral s) : numeral s = some (value s, []) := by
  have happend := numeral_append h NoDigit.nil
  rwa [List.append_nil] at happend

theorem strtol_of_isNumeral {s : Text} (h : IsNumeral s) :
    strtol s = if 9223372036854775807 < value s then (9223372036854775807, true)
      else (value s, false) := by
  have hvalue := value_nonneg s
  simp only [strtol, numeral_of_isNumeral h]
  rw [if_neg (by omega)]

theorem stoi_append {s rest : Text} (h : IsNumeral s) (hrest : NoDigit rest) :
    stoi (s ++ rest) = if IsInt (value s) then some (value s) else none := by
  simp only [stoi, extractInt, numeral_append h hrest]
  split_ifs <;> rfl

theorem stoi_of_isNumeral {s : Text} (h : IsNumeral s) :
    stoi s = if IsInt (value s) then some (value s) else none := by
  have happend := stoi_append h NoDigit.nil
  rwa [List.append_nil] at happend

/-! ## A number that is followed by digits -/

/-- The value of two runs of digits, one behind the other. -/
theorem value_append (s t : Text) : value (s ++ t) = value s * 10 ^ t.length + value t := by
  unfold value
  rw [Nat.ofDigitChars_append, Nat.ofDigitChars_eq_ofDigitChars_zero]
  push_cast
  ring

theorem IsNumeral.append {s t : Text} (hs : IsNumeral s) (ht : ∀ c ∈ t, c.isDigit = true) :
    IsNumeral (s ++ t) := by
  refine ⟨fun h => hs.1 (List.append_eq_nil_iff.mp h).1, fun c hc => ?_⟩
  rcases List.mem_append.mp hc with hc | hc
  · exact hs.2 c hc
  · exact ht c hc

theorem numeral_neg_append {s rest : Text} (h : IsNumeral s) (hrest : NoDigit rest) :
    numeral ('-' :: (s ++ rest)) = some (-value s, rest) := by
  have hdrop : ('-' :: (s ++ rest)).dropWhile isspace = '-' :: (s ++ rest) := rfl
  simp only [numeral, hdrop, splitSign, takeWhile_digits h.2 hrest, dropWhile_digits h.2 hrest]
  rw [if_neg h.1]
  rfl

/-- Digits behind a number change it, unless it is 0 and so are they. -/
theorem append_value_eq {m : ℤ} (hm : 0 ≤ m) (t : Text) :
    m * 10 ^ t.length + value t = m ↔ t = [] ∨ m = 0 ∧ value t = 0 := by
  have hvalue := value_nonneg t
  cases t with
  | nil => simp [value]
  | cons c t =>
    have hpow : (1 : ℤ) ≤ 10 ^ t.length := one_le_pow₀ (by norm_num)
    simp only [List.length_cons, pow_succ, reduceCtorEq, false_or]
    constructor
    · intro h
      have hbig : m * 10 ≤ m * (10 ^ t.length * 10) := by nlinarith
      have hzero : m = 0 := by omega
      refine ⟨hzero, ?_⟩
      rw [hzero] at h
      omega
    · rintro ⟨rfl, hzero⟩
      omega

theorem noDigit_dropWhile (s : Text) : NoDigit (s.dropWhile Char.isDigit) := by
  intro c hc
  have hhead := List.head?_dropWhile_not Char.isDigit s
  rw [Option.mem_def.mp hc] at hhead
  simpa using hhead

theorem stoi_eq_some {s : Text} {x : ℤ} :
    stoi s = some x ↔ IsInt x ∧ ∃ rest, numeral s = some (x, rest) := by
  unfold stoi extractInt
  cases numeral s with
  | none => simp
  | some r =>
    obtain ⟨v, rest⟩ := r
    dsimp only
    constructor
    · intro h
      obtain ⟨r, hr, rfl⟩ := Option.map_eq_some_iff.mp h
      split_ifs at hr with hint
      cases hr
      exact ⟨hint, rest, rfl⟩
    · rintro ⟨hint, rest', hr⟩
      cases hr
      rw [if_pos hint]
      rfl

/-- What the digits `ds` behind the rendering of `x` make of it. -/
def extended (x : ℤ) (ds : Text) : ℤ :=
  if 0 ≤ x then x * 10 ^ ds.length + value ds else x * 10 ^ ds.length - value ds

theorem extended_nil (x : ℤ) : extended x [] = x := by
  simp [extended, value]

theorem extended_eq_self (x : ℤ) (ds : Text) :
    extended x ds = x ↔ ds = [] ∨ x = 0 ∧ value ds = 0 := by
  unfold extended
  by_cases hx : 0 ≤ x
  · rw [if_pos hx, append_value_eq hx]
  · have hneg := append_value_eq (show 0 ≤ -x by omega) ds
    rw [if_neg hx]
    constructor
    · intro h
      refine .inl ((hneg.mp ?_).resolve_right fun hzero => ?_)
      · linarith
      · omega
    · rintro (rfl | ⟨hzero, -⟩)
      · simp [value]
      · omega

/-- The number at the front of a rendered `int` with something behind it. -/
theorem numeral_intText_append (x : ℤ) (rest : Text) :
    numeral (intText x ++ rest) =
      some (extended x (rest.takeWhile Char.isDigit), rest.dropWhile Char.isDigit) := by
  have hdigits : ∀ c ∈ rest.takeWhile Char.isDigit, c.isDigit = true :=
    fun c hc => List.all_eq_true.mp List.all_takeWhile c hc
  have hsplit : rest = rest.takeWhile Char.isDigit ++ rest.dropWhile Char.isDigit :=
    List.takeWhile_append_dropWhile.symm
  generalize hds : rest.takeWhile Char.isDigit = ds at hdigits hsplit ⊢
  have hnumeral : ∀ n : ℕ, IsNumeral (Nat.toDigits 10 n ++ ds) :=
    fun n => (isNumeral_toDigits n).append hdigits
  have hvalue : ∀ n : ℕ, value (Nat.toDigits 10 n ++ ds) = n * 10 ^ ds.length + value ds :=
    fun n => by rw [value_append, value_toDigits]
  unfold extended
  cases x with
  | ofNat n =>
    have hread := numeral_append (hnumeral n) (noDigit_dropWhile rest)
    rw [List.append_assoc, ← hsplit, hvalue] at hread
    rw [intText, hread, Int.ofNat_eq_natCast, if_pos (Int.natCast_nonneg n)]
  | negSucc n =>
    have hread := numeral_neg_append (hnumeral (n + 1)) (noDigit_dropWhile rest)
    rw [List.append_assoc, ← hsplit, hvalue] at hread
    rw [intText, List.cons_append, hread, if_neg (by omega), Int.negSucc_eq]
    push_cast
    congr 2
    ring

theorem extractInt_intText_append (x : ℤ) (rest : Text) :
    extractInt (intText x ++ rest) =
      if IsInt (extended x (rest.takeWhile Char.isDigit)) then
        some (extended x (rest.takeWhile Char.isDigit), rest.dropWhile Char.isDigit)
      else none := by
  rw [extractInt, numeral_intText_append]

/-- A rendered `int` is read back from a longer text iff no digit follows it, or it is 0
    and all the digits that follow it are. -/
theorem stoi_intText_append {x : ℤ} (hx : IsInt x) (rest : Text) :
    stoi (intText x ++ rest) = some x ↔
      rest.takeWhile Char.isDigit = [] ∨ x = 0 ∧ value (rest.takeWhile Char.isDigit) = 0 := by
  rw [stoi_eq_some, and_iff_right hx, numeral_intText_append, ← extended_eq_self]
  simp only [Option.some.injEq, Prod.mk.injEq, exists_and_left, exists_eq', and_true]

/-! ## Conversion to int -/

theorem toInt_eq_self {x : ℤ} (h : IsInt x) : toInt x = x := by
  unfold IsInt at h
  exact Int.bmod_eq_of_le (by omega) (by omega)

theorem isInt_toInt (x : ℤ) : IsInt (toInt x) := by
  have hlow := Int.le_bmod (x := x) (m := 2 ^ 32) (by norm_num)
  have hhigh := Int.bmod_lt (x := x) (m := 2 ^ 32) (by norm_num)
  unfold IsInt toInt
  norm_num at hlow hhigh ⊢
  omega

/-- `(int) strtol(s, nullptr, 10)`, followed by a test of `errno`. -/
def strtolInt (s : Text) : Option ℤ :=
  if (strtol s).2 = true then none else some (toInt (strtol s).1)

theorem strtolInt_eq_some {s : Text} {v : ℤ} :
    strtolInt s = some v ↔ (strtol s).2 = false ∧ toInt (strtol s).1 = v := by
  unfold strtolInt
  cases (strtol s).2 <;> simp

/-- On a numeral the cast is harmless exactly for the values of an `int`. -/
theorem strtolInt_of_isNumeral {s : Text} (h : IsNumeral s) :
    strtolInt s = some (value s) ↔ IsInt (value s) := by
  unfold strtolInt
  rw [strtol_of_isNumeral h]
  by_cases hrange : 9223372036854775807 < value s
  · rw [if_pos hrange, if_pos rfl]
    unfold IsInt
    refine ⟨nofun, fun hint => ?_⟩
    omega
  · rw [if_neg hrange, if_neg Bool.false_ne_true]
    refine ⟨fun hread => ?_, fun hint => congrArg some (toInt_eq_self hint)⟩
    have hvalue : toInt (value s) = value s := Option.some.inj hread
    rw [← hvalue]
    exact isInt_toInt _

end Cmput379.Lib
