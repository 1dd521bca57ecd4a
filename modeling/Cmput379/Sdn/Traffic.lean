import Cmput379.Lib.Text

/-!
# Traffic files

`parseSwitchId` (`test2/util.cpp`) and `parseTrafficFileLine`
(`test2/switch.cpp`). `none` stands for the end of the process: `exit` on an
invalid switch id, the exception `substr` throws on a short token, or an index
past the last token. `errno` is 0 when a line is read.

`parseTrafficFileLine_action` is what the rest of the switch relies on: a line
of type `action` carries a switch id and two addresses in `0 … MAX_IP`.
-/

namespace Cmput379.Sdn

open Cmput379.Lib

/-- `#define MAX_IP 1000`. -/
def MAX_IP : ℤ := 1000

/-- The strings `type` of `parseTrafficFileLine`. -/
inductive LineType
  | empty
  | comment
  | delay
  | action
  | error
  deriving DecidableEq, Repr

/-- `parseSwitchId` (`util.cpp` lines 56–68). -/
def parseSwitchId (input : Text) : Option ℤ :=
  if input = ['n', 'u', 'l', 'l'] then some (-1)
  else if input.length < 2 then none
  else
    let number := (input.drop 2).take (input.length - 1)
    let (v, erange) := strtol number
    let switchId := toInt v
    if switchId < 1 ∨ 7 < switchId ∨ erange = true then none else some switchId

/-- `parseTrafficFileLine` (`switch.cpp` lines 163–216). -/
def parseTrafficFileLine (line : Text) : Option (LineType × List ℤ) :=
  let tokens := words line
  if line.length < 1 then some (.empty, [])
  else if line.take 1 = ['#'] then some (.comment, [])
  else do
    let id ← parseSwitchId (← tokens[0]?)
    let token1 ← tokens[1]?
    if token1 = ['d', 'e', 'l', 'a', 'y'] then
      let (v, erange) := strtol (← tokens[2]?)
      let ms := toInt v
      if ms < 0 ∨ erange = true then return (.error, [id]) else return (.delay, [id, ms])
    else
      let (v, erange) := strtol token1
      let srcIp := toInt v
      let (type, content) : LineType × List ℤ :=
        if srcIp < 0 ∨ MAX_IP < srcIp ∨ erange = true then (.error, [id])
        else (.action, [id, srcIp])
      let (w, erange) := strtol (← tokens[2]?)
      let destIp := toInt w
      if destIp < 0 ∨ MAX_IP < destIp ∨ erange = true then return (.error, content)
      else return (type, content ++ [destIp])

/-- An address of the network: `0 … MAX_IP`. -/
def IsIp (x : ℤ) : Prop := 0 ≤ x ∧ x ≤ MAX_IP

instance (x : ℤ) : Decidable (IsIp x) := inferInstanceAs (Decidable (_ ∧ _))

theorem IsIp.isInt {x : ℤ} (h : IsIp x) : IsInt x := by
  unfold IsIp MAX_IP at h
  unfold IsInt
  omega

/-- What a parsed line carries: a packet line a switch id and two addresses in
    range, a delay line a switch id and a duration. -/
theorem parseTrafficFileLine_content {line : Text} {type : LineType} {content : List ℤ}
    (h : parseTrafficFileLine line = some (type, content)) :
    (type = .action →
      ∃ id srcIp destIp, content = [id, srcIp, destIp] ∧ IsIp srcIp ∧ IsIp destIp) ∧
    (type = .delay → ∃ id ms, content = [id, ms]) := by
  unfold parseTrafficFileLine at h
  simp only [Option.bind_eq_bind, Option.pure_def] at h
  by_cases hlen : line.length < 1
  · rw [if_pos hlen] at h
    cases h
    exact ⟨nofun, nofun⟩
  by_cases hhash : line.take 1 = ['#']
  · rw [if_neg hlen, if_pos hhash] at h
    cases h
    exact ⟨nofun, nofun⟩
  rw [if_neg hlen, if_neg hhash] at h
  obtain ⟨token0, -, h⟩ := Option.bind_eq_some_iff.mp h
  obtain ⟨id, -, h⟩ := Option.bind_eq_some_iff.mp h
  obtain ⟨token1, -, h⟩ := Option.bind_eq_some_iff.mp h
  split_ifs at h with hdelay hsrc
  · obtain ⟨token2, -, h⟩ := Option.bind_eq_some_iff.mp h
    split_ifs at h
    · cases h
      exact ⟨nofun, nofun⟩
    · cases h
      exact ⟨nofun, fun _ => ⟨id, _, rfl⟩⟩
  · -- an invalid source address makes the line an error, whatever follows
    obtain ⟨token2, -, h⟩ := Option.bind_eq_some_iff.mp h
    split_ifs at h <;> cases h <;> exact ⟨nofun, nofun⟩
  · obtain ⟨token2, -, h⟩ := Option.bind_eq_some_iff.mp h
    split_ifs at h with hdest
    · cases h
      exact ⟨nofun, nofun⟩
    · cases h
      exact ⟨fun _ => ⟨id, _, _, rfl, ⟨by omega, by omega⟩, ⟨by omega, by omega⟩⟩, nofun⟩

theorem parseTrafficFileLine_action {line : Text} {content : List ℤ}
    (h : parseTrafficFileLine line = some (.action, content)) :
    ∃ id srcIp destIp, content = [id, srcIp, destIp] ∧ IsIp srcIp ∧ IsIp destIp :=
  (parseTrafficFileLine_content h).1 rfl

example : parseTrafficFileLine "sw1 100 200".toList = some (.action, [1, 100, 200]) := by decide

end Cmput379.Sdn
