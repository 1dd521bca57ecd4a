import Cmput379.Lib.Decimal
import Cmput379.Lib.Words
import Cmput379.Sdn.Traffic

/-!
# The grammar of a traffic line

What `parseTrafficFileLine` accepts, against the lines that a traffic file is made of:
a switch name with two addresses, or with a delay.

* `parseSwitchId_eq_some`: the names it takes an id from.
* `parse_short`, `parse_words`: what becomes of a line that is neither empty nor a
  comment.
* `lineOk_iff`: the lines on which it does what it should are the `Regular` ones.
-/

namespace Cmput379.Sdn

open Cmput379.Lib

/-! ## Specification -/

/-- `sw1` … `sw7`. -/
def IsSwitchName (name : Text) (id : ℤ) : Prop :=
  name = 's' :: 'w' :: intText id ∧ 1 ≤ id ∧ id ≤ 7

/-- A switch name and two decimal numbers in `0 … MAX_IP`. -/
def IsActionLine (line : Text) (id srcIp destIp : ℤ) : Prop :=
  ∃ name src dest, words line = [name, src, dest] ∧ IsSwitchName name id ∧
    (IsNumeral src ∧ value src = srcIp ∧ IsIp srcIp) ∧
    IsNumeral dest ∧ value dest = destIp ∧ IsIp destIp

/-- A switch name, the word `delay` and a decimal number. -/
def IsDelayLine (line : Text) : Prop :=
  ∃ name ms id, words line = [name, ['d', 'e', 'l', 'a', 'y'], ms] ∧ IsSwitchName name id ∧
    IsNumeral ms

/-- The line is handled: the parser returns, with the fields of an action line exactly
    for an action line, and with a delay only for a delay line. -/
def LineOk (line : Text) : Prop :=
  ∃ type content, parseTrafficFileLine line = some (type, content) ∧
    (∀ id srcIp destIp, type = .action ∧ content = [id, srcIp, destIp] ↔
      IsActionLine line id srcIp destIp) ∧
    (type = .delay → IsDelayLine line)

/-! ## Where it is met -/

/-- The id behind the first two characters of a name, whatever they are; the name
    `null` counts as -1. -/
def ReadsId (name : Text) (id : ℤ) : Prop :=
  (name = ['n', 'u', 'l', 'l'] ∧ id = -1) ∨
    (2 ≤ name.length ∧ strtolInt (name.drop 2) = some id ∧ 1 ≤ id ∧ id ≤ 7)

/-- The two words after the name are taken for a delay or for two addresses. -/
def ReadsNumbers (token1 token2 : Text) : Prop :=
  if token1 = ['d', 'e', 'l', 'a', 'y'] then ∃ ms, strtolInt token2 = some ms ∧ 0 ≤ ms
  else ∃ srcIp destIp, (strtolInt token1 = some srcIp ∧ IsIp srcIp) ∧
    strtolInt token2 = some destIp ∧ IsIp destIp

/-- They are numerals; an address also fits an `int`. -/
def AreNumerals (token1 token2 : Text) : Prop :=
  if token1 = ['d', 'e', 'l', 'a', 'y'] then IsNumeral token2
  else (IsNumeral token1 ∧ IsInt (value token1)) ∧ IsNumeral token2 ∧ IsInt (value token2)

/-- An empty line, a comment, or a line of at least three words, the first of which
    gives an id. If the next two are accepted, then nothing follows them, the name is a
    switch name, and they are numerals. -/
def Regular (line : Text) : Prop :=
  line = [] ∨ line.head? = some '#' ∨
    ∃ name token1 token2 rest id, words line = name :: token1 :: token2 :: rest ∧
      ReadsId name id ∧
      (ReadsNumbers token1 token2 →
        rest = [] ∧ IsSwitchName name id ∧ AreNumerals token1 token2)

/-! ## The name -/

theorem parseSwitchId_eq_some {name : Text} {id : ℤ} :
    parseSwitchId name = some id ↔ ReadsId name id := by
  unfold parseSwitchId ReadsId
  by_cases hnull : name = ['n', 'u', 'l', 'l']
  · subst hnull
    have hread : strtolInt (['n', 'u', 'l', 'l'].drop 2) = some 0 := by decide
    simp only [if_pos, true_and, hread, Option.some.injEq]
    omega
  by_cases hlen : name.length < 2
  · rw [if_neg hnull, if_pos hlen]
    simp only [hnull, false_and, false_or, reduceCtorEq, false_iff, not_and]
    omega
  -- the length of the substring reaches to the end of the name
  have hsub : (name.drop 2).take (name.length - 1) = name.drop 2 :=
    List.take_of_length_le (by rw [List.length_drop]; omega)
  rw [if_neg hnull, if_neg hlen, hsub]
  simp only [hnull, false_and, false_or, strtolInt]
  generalize strtol (name.drop 2) = read
  obtain ⟨v, erange⟩ := read
  dsimp only
  constructor
  · intro h
    split_ifs at h with hbad
    cases h
    simp only [not_or] at hbad
    exact ⟨by omega, if_neg hbad.2.2, by omega, by omega⟩
  · rintro ⟨-, hread, hlow, hhigh⟩
    split_ifs at hread with herr
    cases hread
    refine if_neg ?_
    rintro (hbad | hbad | hbad)
    · omega
    · omega
    · exact herr hbad

theorem ReadsId.unique {name : Text} {id id' : ℤ} (h : ReadsId name id) (h' : ReadsId name id') :
    id = id' :=
  Option.some.inj ((parseSwitchId_eq_some.mpr h).symm.trans (parseSwitchId_eq_some.mpr h'))

theorem IsSwitchName.readsId {name : Text} {id : ℤ} (h : IsSwitchName name id) :
    ReadsId name id := by
  obtain ⟨rfl, hlow, hhigh⟩ := h
  refine .inr ⟨by simp, ?_, hlow, hhigh⟩
  obtain ⟨n, rfl⟩ := Int.eq_ofNat_of_zero_le (by omega : 0 ≤ id)
  have hvalue : value (Nat.toDigits 10 n) = n := value_toDigits n
  have hread := (strtolInt_of_isNumeral (isNumeral_toDigits n)).mpr
    (by rw [hvalue]; unfold IsInt; omega)
  rwa [hvalue] at hread

/-! ## The line -/

theorem take_one_eq {line : Text} {c : Char} : line.take 1 = [c] ↔ line.head? = some c := by
  cases line <;> simp

/-- The test of an address that has been read. -/
theorem badIp_iff {ip : ℤ} {erange : Bool} :
    (ip < 0 ∨ MAX_IP < ip ∨ erange = true) ↔ ¬ (erange = false ∧ IsIp ip) := by
  unfold IsIp
  cases erange
  · simp only [Bool.false_eq_true, or_false, true_and, not_and, not_le]
    omega
  · simp

theorem badDelay_iff {ms : ℤ} {erange : Bool} :
    (ms < 0 ∨ erange = true) ↔ ¬ (erange = false ∧ 0 ≤ ms) := by
  cases erange <;> simp

section Line

variable {line name token1 token2 : Text} {rest : List Text} {id : ℤ}

/-- Without three words, or without an id, the process ends. -/
theorem parse_short (hne : line ≠ []) (hhash : line.head? ≠ some '#')
    (h : ∀ name token1 token2 rest id, words line = name :: token1 :: token2 :: rest →
      ¬ ReadsId name id) : parseTrafficFileLine line = none := by
  have hlen : ¬ line.length < 1 := by
    have hpos := List.length_pos_iff.mpr hne
    omega
  simp only [parseTrafficFileLine, if_neg hlen, if_neg (mt take_one_eq.mp hhash)]
  match hwords : words line with
  | [] => rfl
  | name :: tokens =>
    rw [List.getElem?_cons_zero, Option.bind_eq_bind, Option.bind_some, Option.bind_eq_bind]
    cases hid : parseSwitchId name with
    | none => rfl
    | some id =>
      match tokens with
      | [] => rfl
      | [token1] =>
        simp only [Option.bind_some, List.getElem?_cons_succ, List.getElem?_cons_zero,
          List.getElem?_nil, Option.bind_none]
        split_ifs <;> rfl
      | token1 :: token2 :: rest =>
        exact absurd (parseSwitchId_eq_some.mp hid) (h name token1 token2 rest id hwords)

/-- With three words and an id, the next two words decide. -/
theorem parse_words (hne : line ≠ []) (hhash : line.head? ≠ some '#')
    (hwords : words line = name :: token1 :: token2 :: rest) (hid : ReadsId name id) :
    ∃ type content, parseTrafficFileLine line = some (type, content) ∧
      (∀ id' srcIp destIp, type = .action ∧ content = [id', srcIp, destIp] ↔
        id' = id ∧ token1 ≠ ['d', 'e', 'l', 'a', 'y'] ∧
          (strtolInt token1 = some srcIp ∧ IsIp srcIp) ∧
          strtolInt token2 = some destIp ∧ IsIp destIp) ∧
      (type = .delay ↔
        token1 = ['d', 'e', 'l', 'a', 'y'] ∧ ∃ ms, strtolInt token2 = some ms ∧ 0 ≤ ms) := by
  have hlen : ¬ line.length < 1 := by
    have hpos := List.length_pos_iff.mpr hne
    omega
  simp only [parseTrafficFileLine, if_neg hlen, if_neg (mt take_one_eq.mp hhash), hwords,
    List.getElem?_cons_zero, List.getElem?_cons_succ, Option.bind_eq_bind, Option.bind_some,
    parseSwitchId_eq_some.mpr hid, Option.pure_def, strtolInt_eq_some]
  obtain ⟨v, erange⟩ := strtol token1
  obtain ⟨w, erange'⟩ := strtol token2
  simp only [badIp_iff, badDelay_iff, ite_not]
  by_cases hdelay : token1 = ['d', 'e', 'l', 'a', 'y']
  · rw [if_pos hdelay]
    by_cases hms : erange' = false ∧ 0 ≤ toInt w
    · rw [if_pos hms]
      refine ⟨_, _, rfl, by simp [hdelay], ?_⟩
      exact iff_of_true rfl ⟨hdelay, toInt w, ⟨hms.1, rfl⟩, hms.2⟩
    · rw [if_neg hms]
      refine ⟨_, _, rfl, by simp [hdelay], iff_of_false nofun ?_⟩
      rintro ⟨-, ms, ⟨herr, rfl⟩, hnonneg⟩
      exact hms ⟨herr, hnonneg⟩
  · rw [if_neg hdelay]
    by_cases hsrc : erange = false ∧ IsIp (toInt v)
    · simp only [if_pos hsrc]
      by_cases hdest : erange' = false ∧ IsIp (toInt w)
      · rw [if_pos hdest]
        refine ⟨_, _, rfl, fun id' srcIp destIp => ?_, by simp [hdelay]⟩
        constructor
        · rintro ⟨-, hcontent⟩
          cases hcontent
          exact ⟨rfl, hdelay, ⟨⟨hsrc.1, rfl⟩, hsrc.2⟩, ⟨hdest.1, rfl⟩, hdest.2⟩
        · rintro ⟨rfl, -, ⟨⟨-, rfl⟩, -⟩, ⟨-, rfl⟩, -⟩
          exact ⟨rfl, rfl⟩
      · rw [if_neg hdest]
        refine ⟨_, _, rfl, fun id' srcIp destIp => iff_of_false (by simp) ?_, by simp [hdelay]⟩
        rintro ⟨-, -, -, ⟨herr, rfl⟩, hip⟩
        exact hdest ⟨herr, hip⟩
    · -- a wrong source address makes the line an error, whatever follows
      have herror : ∃ content, (if erange' = false ∧ IsIp (toInt w) then
          some (LineType.error, [id] ++ [toInt w]) else some (LineType.error, [id])) =
            some (LineType.error, content) := by
        split_ifs
        · exact ⟨_, rfl⟩
        · exact ⟨_, rfl⟩
      obtain ⟨content, hcontent⟩ := herror
      simp only [if_neg hsrc]
      refine ⟨_, _, hcontent, fun id' srcIp destIp => iff_of_false (by simp) ?_, by simp [hdelay]⟩
      rintro ⟨-, -, ⟨⟨herr, rfl⟩, hip⟩, -⟩
      exact hsrc ⟨herr, hip⟩

end Line

/-! ## The grammar -/

theorem ne_delay_of_isNumeral {s : Text} (h : IsNumeral s) : s ≠ ['d', 'e', 'l', 'a', 'y'] := by
  rintro rfl
  exact absurd (h.2 'd' (by simp)) (by decide)

/-- An empty line and a comment are no action lines. -/
theorem head_of_isActionLine {line : Text} {id srcIp destIp : ℤ}
    (h : IsActionLine line id srcIp destIp) : line ≠ [] ∧ line.head? ≠ some '#' := by
  obtain ⟨name, src, dest, hwords, ⟨rfl, -⟩, -⟩ := h
  cases line with
  | nil => simp at hwords
  | cons c line =>
    refine ⟨List.cons_ne_nil _ _, ?_⟩
    rw [List.head?_cons, ne_eq, Option.some.injEq]
    rintro rfl
    obtain ⟨t, rest, hhash⟩ := pieces_cons (p := isspace) (c := '#') rfl line
    rw [words_eq_pieces, hhash] at hwords
    simp at hwords

theorem lineOk_of_skipped {line : Text} {type : LineType}
    (hparse : parseTrafficFileLine line = some (type, [])) (htype : type ≠ .delay)
    (h : line = [] ∨ line.head? = some '#') : LineOk line := by
  refine ⟨type, [], hparse, fun id srcIp destIp => iff_of_false (by simp) fun haction => ?_,
    fun hdelay => absurd hdelay htype⟩
  obtain ⟨hne, hhash⟩ := head_of_isActionLine haction
  exact h.elim hne hhash

/-- Three words and an id: the line is handled unless two numbers are accepted that the
    grammar does not have there. -/
theorem lineOk_of_words {line name token1 token2 : Text} {rest : List Text} {id : ℤ}
    (hne : line ≠ []) (hhash : line.head? ≠ some '#')
    (hwords : words line = name :: token1 :: token2 :: rest) (hid : ReadsId name id)
    (h : ReadsNumbers token1 token2 →
      rest = [] ∧ IsSwitchName name id ∧ AreNumerals token1 token2) : LineOk line := by
  obtain ⟨type, content, hparse, haction, hdelay⟩ := parse_words hne hhash hwords hid
  refine ⟨type, content, hparse, fun id' srcIp destIp => ?_, fun htype => ?_⟩
  · rw [haction]
    constructor
    · rintro ⟨rfl, hnd, hsrc, hdest⟩
      obtain ⟨rfl, hname, hnumerals⟩ := h (by
        rw [ReadsNumbers, if_neg hnd]
        exact ⟨srcIp, destIp, hsrc, hdest⟩)
      rw [AreNumerals, if_neg hnd] at hnumerals
      obtain ⟨⟨hnum1, hint1⟩, hnum2, hint2⟩ := hnumerals
      have hval1 := ((strtolInt_of_isNumeral hnum1).mpr hint1).symm.trans hsrc.1
      have hval2 := ((strtolInt_of_isNumeral hnum2).mpr hint2).symm.trans hdest.1
      exact ⟨name, token1, token2, hwords, hname,
        ⟨hnum1, Option.some.inj hval1, hsrc.2⟩, hnum2, Option.some.inj hval2, hdest.2⟩
    · rintro ⟨name', src, dest, hwords', hname, ⟨hnum1, rfl, hip1⟩, hnum2, rfl, hip2⟩
      rw [hwords, List.cons.injEq, List.cons.injEq, List.cons.injEq] at hwords'
      obtain ⟨rfl, rfl, rfl, rfl⟩ := hwords'
      exact ⟨hname.readsId.unique hid, ne_delay_of_isNumeral hnum1,
        ⟨(strtolInt_of_isNumeral hnum1).mpr hip1.isInt, hip1⟩,
        (strtolInt_of_isNumeral hnum2).mpr hip2.isInt, hip2⟩
  · obtain ⟨rfl, hms⟩ := hdelay.mp htype
    obtain ⟨rfl, hname, hnumeral⟩ := h (by rw [ReadsNumbers, if_pos rfl]; exact hms)
    rw [AreNumerals, if_pos rfl] at hnumeral
    exact ⟨name, token2, id, hwords, hname, hnumeral⟩

/-- If the line is handled, then the numbers that are accepted are those of the grammar. -/
theorem numerals_of_lineOk {line name token1 token2 : Text} {rest : List Text} {id : ℤ}
    (hne : line ≠ []) (hhash : line.head? ≠ some '#')
    (hwords : words line = name :: token1 :: token2 :: rest) (hid : ReadsId name id)
    (h : LineOk line) (hreads : ReadsNumbers token1 token2) :
    rest = [] ∧ IsSwitchName name id ∧ AreNumerals token1 token2 := by
  obtain ⟨type, content, hparse, hactionOk, hdelayOk⟩ := h
  obtain ⟨type', content', hparse', haction, hdelay⟩ := parse_words hne hhash hwords hid
  obtain ⟨rfl, rfl⟩ := Prod.mk.inj (Option.some.inj (hparse.symm.trans hparse'))
  by_cases hd : token1 = ['d', 'e', 'l', 'a', 'y']
  · rw [ReadsNumbers, if_pos hd] at hreads
    obtain ⟨name', ms, id', hwords', hname, hnumeral⟩ := hdelayOk (hdelay.mpr ⟨hd, hreads⟩)
    rw [hwords, List.cons.injEq, List.cons.injEq, List.cons.injEq] at hwords'
    obtain ⟨rfl, -, rfl, rfl⟩ := hwords'
    obtain rfl := hname.readsId.unique hid
    rw [AreNumerals, if_pos hd]
    exact ⟨rfl, hname, hnumeral⟩
  · rw [ReadsNumbers, if_neg hd] at hreads
    obtain ⟨srcIp, destIp, hsrc, hdest⟩ := hreads
    obtain ⟨name', src, dest, hwords', hname, ⟨hnum1, hval1, hip1⟩, hnum2, hval2, hip2⟩ :=
      (hactionOk id srcIp destIp).mp ((haction id srcIp destIp).mpr ⟨rfl, hd, hsrc, hdest⟩)
    rw [hwords, List.cons.injEq, List.cons.injEq, List.cons.injEq] at hwords'
    obtain ⟨rfl, rfl, rfl, rfl⟩ := hwords'
    rw [AreNumerals, if_neg hd, hval1, hval2]
    exact ⟨rfl, hname, ⟨hnum1, hip1.isInt⟩, hnum2, hip2.isInt⟩

theorem lineOk_iff (line : Text) : LineOk line ↔ Regular line := by
  by_cases hne : line = []
  · subst hne
    exact iff_of_true (lineOk_of_skipped rfl nofun (.inl rfl)) (.inl rfl)
  by_cases hhash : line.head? = some '#'
  · have hlen : ¬ line.length < 1 := by
      have hpos := List.length_pos_iff.mpr hne
      omega
    have hparse : parseTrafficFileLine line = some (.comment, []) := by
      simp only [parseTrafficFileLine, if_neg hlen, if_pos (take_one_eq.mpr hhash)]
    exact iff_of_true (lineOk_of_skipped hparse nofun (.inr hhash)) (.inr (.inl hhash))
  constructor
  · intro h
    by_cases hwords : ∃ name token1 token2 rest id,
        words line = name :: token1 :: token2 :: rest ∧ ReadsId name id
    · obtain ⟨name, token1, token2, rest, id, hwords, hid⟩ := hwords
      exact .inr (.inr ⟨name, token1, token2, rest, id, hwords, hid,
        numerals_of_lineOk hne hhash hwords hid h⟩)
    · obtain ⟨type, content, hparse, -⟩ := h
      rw [parse_short hne hhash fun name token1 token2 rest id hw hid =>
        hwords ⟨name, token1, token2, rest, id, hw, hid⟩] at hparse
      cases hparse
  · rintro (h | h | ⟨name, token1, token2, rest, id, hwords, hid, h⟩)
    · exact absurd h hne
    · exact absurd h hhash
    · exact lineOk_of_words hne hhash hwords hid h

/-- A line of `ex3.dat`: the process ends. -/
theorem lineOk_counterexample : ¬ ∀ line, LineOk line := by
  intro h
  obtain ⟨type, content, hparse, -⟩ := h "psw1 100 102".toList
  have hnone : parseTrafficFileLine "psw1 100 102".toList = none := by decide
  rw [hnone] at hparse
  cases hparse

end Cmput379.Sdn
