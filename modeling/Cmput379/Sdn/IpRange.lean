import Cmput379.Lib.Decimal
import Cmput379.Sdn.Traffic

/-!
# The IP range of a switch

`parseIpRange` (`test2/a3sdn.cpp` lines 68–104), on the argument of `main`. `none` is
the end of the process. `errno` is 0 when it is called, and every conversion that sets
it ends the process.

* `parseIpRange_eq_some`: what it accepts.
* `parseIpRange_correct_iff`: it accepts the ranges, and nothing else, except for the
  texts that are `Misread`.
-/

namespace Cmput379.Sdn

open Cmput379.Lib

/-! ## Model -/

/-- The tokens of `getline(ss, token, '-')`: behind a last `'-'` there is none. -/
def rangeTokens (s : Text) : List Text :=
  let parts := s.splitOn '-'
  if parts.getLast? = some [] then parts.dropLast else parts

/-- Lines 79–83 and lines 85–89, on a bound in `0 … MAX_IP`. -/
def parseBound (token : Text) : Option ℤ := do
  let ip ← strtolInt token
  if ip < 0 ∨ MAX_IP < ip then none else some ip

/-- The loop over the tokens (lines 76–95). -/
def rangeLoop : List Text → ℕ → ℤ → ℤ → Option (ℤ × ℤ)
  | [], _, ipLow, ipHigh => some (ipLow, ipHigh)
  | token :: tokens, i, ipLow, ipHigh =>
    if token.length = 0 then none
    else
      match i with
      | 0 => do rangeLoop tokens 1 (← parseBound token) ipHigh
      | 1 => do rangeLoop tokens 2 ipLow (← parseBound token)
      | i => rangeLoop tokens (i + 1) ipLow ipHigh

/-- `parseIpRange`. -/
def parseIpRange (input : Text) : Option (ℤ × ℤ) := do
  let (ipLow, ipHigh) ← rangeLoop (rangeTokens input) 0 0 0
  if ipHigh < ipLow then none else some (ipLow, ipHigh)

/-! ## Specification -/

/-- A numeral, `'-'` and a numeral, with values that are a range of addresses. -/
def IsRange (s : Text) (lo hi : ℤ) : Prop :=
  ∃ p q, s = p ++ '-' :: q ∧ IsNumeral p ∧ IsNumeral q ∧ value p = lo ∧ value q = hi ∧
    0 ≤ lo ∧ lo ≤ hi ∧ hi ≤ MAX_IP

/-- What `strtol` and the cast make of the token at `i`; 0 where there is none. -/
def NumberAt (tokens : List Text) (i : ℕ) (v : ℤ) : Prop :=
  (tokens[i]?.map strtolInt).getD (some 0) = some v

/-- No token is empty, and the numbers in front of the first two, cut to 32 bits, are
    the bounds of a range. -/
def Passes (s : Text) (lo hi : ℤ) : Prop :=
  (∀ token ∈ rangeTokens s, token ≠ []) ∧ NumberAt (rangeTokens s) 0 lo ∧
    NumberAt (rangeTokens s) 1 hi ∧ 0 ≤ lo ∧ lo ≤ hi ∧ hi ≤ MAX_IP

/-- The parts between the `'-'` are two numerals with values that fit an `int`. -/
def TwoNumerals (s : Text) : Prop :=
  (s.splitOn '-').length = 2 ∧ ∀ part ∈ s.splitOn '-', IsNumeral part ∧ IsInt (value part)

/-- Accepted by mistake: a missing part, which counts as 0, a third part, a part that
    only begins with a numeral or has none, or a value that does not fit an `int`. -/
def Misread (s : Text) : Prop := ¬ TwoNumerals s ∧ ∃ lo hi, Passes s lo hi

/-! ## What it accepts -/

/-- From the third token on only their being empty is looked at. -/
theorem rangeLoop_rest (tokens : List Text) (i : ℕ) (ipLow ipHigh lo hi : ℤ) :
    rangeLoop tokens (i + 2) ipLow ipHigh = some (lo, hi) ↔
      (∀ token ∈ tokens, token ≠ []) ∧ ipLow = lo ∧ ipHigh = hi := by
  induction tokens generalizing i with
  | nil => simp [rangeLoop]
  | cons token tokens ih =>
    rw [List.forall_mem_cons]
    simp only [rangeLoop, List.length_eq_zero_iff]
    by_cases htoken : token = []
    · simp [htoken]
    · rw [if_neg htoken, ih (i + 1)]
      simp only [ne_eq, htoken, not_false_eq_true, true_and]

theorem parseBound_eq_some {token : Text} {v : ℤ} :
    parseBound token = some v ↔ strtolInt token = some v ∧ IsIp v := by
  unfold parseBound IsIp
  rw [Option.bind_eq_bind, Option.bind_eq_some_iff]
  constructor
  · rintro ⟨ip, hread, hrange⟩
    split_ifs at hrange with hbad
    cases hrange
    exact ⟨hread, by omega⟩
  · rintro ⟨hread, hrange⟩
    exact ⟨v, hread, if_neg (by omega)⟩

theorem isIp_zero : IsIp 0 := by decide

theorem rangeLoop_one (tokens : List Text) (ipLow lo hi : ℤ) :
    rangeLoop tokens 1 ipLow 0 = some (lo, hi) ↔
      (∀ token ∈ tokens, token ≠ []) ∧ ipLow = lo ∧ NumberAt tokens 0 hi ∧ IsIp hi := by
  cases tokens with
  | nil =>
    simp only [rangeLoop, NumberAt]
    constructor
    · rintro ⟨⟩
      exact ⟨nofun, rfl, rfl, isIp_zero⟩
    · rintro ⟨-, rfl, hread, -⟩
      cases hread
      rfl
  | cons token tokens =>
    rw [List.forall_mem_cons]
    simp only [rangeLoop, List.length_eq_zero_iff, Option.bind_eq_bind]
    by_cases htoken : token = []
    · simp [htoken]
    · rw [if_neg htoken, Option.bind_eq_some_iff]
      simp only [rangeLoop_rest tokens 0, parseBound_eq_some, NumberAt, List.getElem?_cons_zero,
        Option.map_some, Option.getD_some, ne_eq, htoken, not_false_eq_true, true_and]
      constructor
      · rintro ⟨ipHigh, hread, hrest, rfl, rfl⟩
        exact ⟨hrest, rfl, hread⟩
      · rintro ⟨hrest, rfl, hread⟩
        exact ⟨hi, hread, hrest, rfl, rfl⟩

theorem rangeLoop_zero (tokens : List Text) (lo hi : ℤ) :
    rangeLoop tokens 0 0 0 = some (lo, hi) ↔
      (∀ token ∈ tokens, token ≠ []) ∧ (NumberAt tokens 0 lo ∧ IsIp lo) ∧
        NumberAt tokens 1 hi ∧ IsIp hi := by
  cases tokens with
  | nil =>
    simp only [rangeLoop, NumberAt]
    constructor
    · rintro ⟨⟩
      exact ⟨nofun, ⟨rfl, isIp_zero⟩, rfl, isIp_zero⟩
    · rintro ⟨-, ⟨hlow, -⟩, hhigh, -⟩
      cases hlow
      cases hhigh
      rfl
  | cons token tokens =>
    rw [List.forall_mem_cons]
    simp only [rangeLoop, List.length_eq_zero_iff, Option.bind_eq_bind]
    by_cases htoken : token = []
    · simp [htoken]
    · have hnext : NumberAt (token :: tokens) 1 hi ↔ NumberAt tokens 0 hi := Iff.rfl
      have hfirst : NumberAt (token :: tokens) 0 lo ↔ strtolInt token = some lo := Iff.rfl
      rw [if_neg htoken, Option.bind_eq_some_iff, hnext, hfirst, ← parseBound_eq_some]
      simp only [rangeLoop_one, ne_eq, htoken, not_false_eq_true, true_and]
      constructor
      · rintro ⟨ipLow, hread, hrest, rfl, hhigh⟩
        exact ⟨hrest, hread, hhigh⟩
      · rintro ⟨hrest, hread, hhigh⟩
        exact ⟨lo, hread, hrest, rfl, hhigh⟩

theorem parseIpRange_eq_some {s : Text} {lo hi : ℤ} :
    parseIpRange s = some (lo, hi) ↔ Passes s lo hi := by
  unfold parseIpRange Passes
  rw [Option.bind_eq_bind, Option.bind_eq_some_iff]
  constructor
  · rintro ⟨⟨ipLow, ipHigh⟩, hloop, hresult⟩
    dsimp only at hresult
    split_ifs at hresult with horder
    cases hresult
    obtain ⟨htokens, ⟨hlow, hlowIp⟩, hhigh, hhighIp⟩ := (rangeLoop_zero _ lo hi).mp hloop
    exact ⟨htokens, hlow, hhigh, hlowIp.1, not_lt.mp horder, hhighIp.2⟩
  · rintro ⟨htokens, hlow, hhigh, hnonneg, horder, hmax⟩
    have hlowIp : IsIp lo := ⟨hnonneg, horder.trans hmax⟩
    have hhighIp : IsIp hi := ⟨hnonneg.trans horder, hmax⟩
    refine ⟨(lo, hi), (rangeLoop_zero _ lo hi).mpr ⟨htokens, ⟨hlow, hlowIp⟩, hhigh, hhighIp⟩, ?_⟩
    exact if_neg (not_lt.mpr horder)

/-! ## What it should accept -/

/-- The parts of a text with one `'-'`. -/
theorem splitOn_pair {p q : Text} (hp : '-' ∉ p) (hq : '-' ∉ q) :
    (p ++ '-' :: q).splitOn '-' = [p, q] := by
  rw [List.splitOn_append_cons_self_of_not_mem hp, List.splitOn_eq_singleton hq]

theorem not_mem_of_isNumeral {s : Text} (h : IsNumeral s) : '-' ∉ s :=
  fun hmem => absurd (h.2 '-' hmem) (by decide)

theorem rangeTokens_of_splitOn {s p q : Text} (h : s.splitOn '-' = [p, q]) (hq : q ≠ []) :
    rangeTokens s = [p, q] := by
  unfold rangeTokens
  rw [h]
  exact if_neg fun hlast => hq (Option.some.inj hlast)

theorem twoNumerals_iff {s : Text} : TwoNumerals s ↔
    ∃ p q, s = p ++ '-' :: q ∧ (IsNumeral p ∧ IsInt (value p)) ∧
      IsNumeral q ∧ IsInt (value q) := by
  unfold TwoNumerals
  constructor
  · rintro ⟨hlength, hparts⟩
    obtain ⟨p, q, hsplit⟩ := List.length_eq_two.mp hlength
    have hs : ['-'].intercalate (s.splitOn '-') = s := List.intercalate_splitOn '-'
    rw [hsplit] at hs hparts
    refine ⟨p, q, ?_, hparts p (by simp), hparts q (by simp)⟩
    rw [← hs]
    simp [List.intercalate]
  · rintro ⟨p, q, rfl, hp, hq⟩
    rw [splitOn_pair (not_mem_of_isNumeral hp.1) (not_mem_of_isNumeral hq.1)]
    refine ⟨rfl, ?_⟩
    simp only [List.forall_mem_cons]
    exact ⟨hp, hq, by simp⟩

/-- Two numerals that pass are a range, and a range is two numerals that pass. -/
theorem isRange_iff {s : Text} {lo hi : ℤ} :
    IsRange s lo hi ↔ TwoNumerals s ∧ Passes s lo hi := by
  rw [twoNumerals_iff]
  constructor
  · rintro ⟨p, q, rfl, hp, hq, rfl, rfl, hnonneg, horder, hmax⟩
    have hsplit := splitOn_pair (not_mem_of_isNumeral hp) (not_mem_of_isNumeral hq)
    have hpint : IsInt (value p) := IsIp.isInt ⟨hnonneg, horder.trans hmax⟩
    have hqint : IsInt (value q) := IsIp.isInt ⟨hnonneg.trans horder, hmax⟩
    refine ⟨⟨p, q, rfl, ⟨hp, hpint⟩, hq, hqint⟩, ?_⟩
    unfold Passes
    rw [rangeTokens_of_splitOn hsplit hq.1]
    simp only [List.forall_mem_cons]
    refine ⟨⟨hp.1, hq.1, by simp⟩, ?_, ?_, hnonneg, horder, hmax⟩
    · exact (strtolInt_of_isNumeral hp).mpr hpint
    · exact (strtolInt_of_isNumeral hq).mpr hqint
  · rintro ⟨⟨p, q, rfl, ⟨hp, hpint⟩, hq, hqint⟩, htokens, hlow, hhigh, hrange⟩
    have hsplit := splitOn_pair (not_mem_of_isNumeral hp) (not_mem_of_isNumeral hq)
    rw [rangeTokens_of_splitOn hsplit hq.1] at hlow hhigh
    have hlo : value p = lo :=
      Option.some.inj (((strtolInt_of_isNumeral hp).mpr hpint).symm.trans hlow)
    have hhi : value q = hi :=
      Option.some.inj (((strtolInt_of_isNumeral hq).mpr hqint).symm.trans hhigh)
    exact ⟨p, q, rfl, hp, hq, hlo, hhi, hrange⟩

theorem parseIpRange_correct_iff (s : Text) :
    (∀ lo hi, parseIpRange s = some (lo, hi) ↔ IsRange s lo hi) ↔ ¬ Misread s := by
  simp only [parseIpRange_eq_some, isRange_iff]
  constructor
  · rintro h ⟨htwo, lo, hi, hpasses⟩
    exact htwo ((h lo hi).mp hpasses).1
  · intro h lo hi
    refine ⟨fun hpasses => ⟨?_, hpasses⟩, And.right⟩
    by_contra htwo
    exact h ⟨htwo, lo, hi, hpasses⟩

/-- The empty argument is taken for the range 0-0. -/
theorem parseIpRange_counterexample :
    ¬ ∀ s lo hi, parseIpRange s = some (lo, hi) ↔ IsRange s lo hi := by
  intro h
  obtain ⟨p, q, hs, -⟩ := (h [] 0 0).mp (by decide)
  simp at hs

example : parseIpRange "4294967396-110x-7-".toList = some (100, 110) := by decide +kernel

end Cmput379.Sdn
