import Mathlib.Data.List.Infix
import Cmput379.Sdn.IpRange
import Cmput379.Sdn.Switch
import Cmput379.Sdn.TrafficGrammar

/-!
# The command line of a3sdn

`main` (`test2/a3sdn.cpp` lines 110–170): the arguments are checked, and the loop of
the controller or of a switch is entered. `none` is the end of the process. `errno` is
0 when the process starts, and every conversion that sets it and is followed by a test
of it ends the process.

* `ok_of_main`: what it accepts is valid; a `SwitchConfig` has its bounds from here.
* `main_commandLine`: every valid command has a command line.
* `main_ok_iff`: the commands that can be given are the valid ones.
-/

namespace Cmput379.Sdn

open Cmput379.Lib

/-! ## Model -/

/-- `#define MAX_NSW 7`. -/
def MAX_NSW : ℤ := 7

/-- The files that can be opened, with their lines, and the addresses that
    `getAddressInfo` returns. -/
structure Environment where
  ifstream : Text → Option (List Text)
  getAddressInfo : Text → Option Text

/-- The loop that `main` enters, with its arguments. -/
inductive Command
  | controllerLoop (numSwitches : ℤ) (portNumber : ℕ)
  | switchLoop (id port1Id port2Id ipLow ipHigh : ℤ) (lines : List Text) (ipAddress : Text)
      (portNumber : ℕ)
  deriving DecidableEq, Repr

/-- `(uint16_t) strtol(s, nullptr, 10)`: here `errno` is not looked at. -/
def portNumber (s : Text) : ℕ := ((strtol s).1 % 65536).toNat

/-- Lines 122–135. -/
def mainController (argv : List Text) : Option Command :=
  match argv with
  | [_, _, arg2, arg3] => do
    let numSwitches ← strtolInt arg2
    if MAX_NSW < numSwitches ∨ numSwitches < 1 then none
    else some (.controllerLoop numSwitches (portNumber arg3))
  | _ => none

/-- Lines 137–163. -/
def mainSwitch (env : Environment) (argv : List Text) : Option Command :=
  match argv with
  | [_, arg1, arg2, arg3, arg4, arg5, arg6, arg7] => do
    let switchId ← parseSwitchId arg1
    let lines ← env.ifstream arg2
    let switchId1 ← parseSwitchId arg3
    let switchId2 ← parseSwitchId arg4
    let ipRange ← parseIpRange arg5
    let ipAddress ← env.getAddressInfo arg6
    some (.switchLoop switchId switchId1 switchId2 ipRange.1 ipRange.2 lines ipAddress
      (portNumber arg7))
  | _ => none

/-- `main`. -/
def main (env : Environment) (argv : List Text) : Option Command := do
  let mode ← argv[1]?
  if mode = ['c', 'o', 'n', 't'] then mainController argv
  else if ['s', 'w'] <:+: mode then mainSwitch env argv
  else none

/-! ## Specification -/

/-- The id of a switch, or -1 for a port that leads to none. -/
def IsPortId (v : ℤ) : Prop := v = -1 ∨ (1 ≤ v ∧ v ≤ MAX_NSW)

/-- There are one to seven switches; a switch has one of their ids and a range of
    addresses, each of its ports leads to one of them or to none, the file and the
    controller are there, and the port fits 16 bits. -/
def Command.Ok (env : Environment) : Command → Prop
  | .controllerLoop numSwitches portNumber =>
    1 ≤ numSwitches ∧ numSwitches ≤ MAX_NSW ∧ portNumber < 65536
  | .switchLoop id port1Id port2Id ipLow ipHigh lines ipAddress portNumber =>
    (∃ cfg : SwitchConfig, cfg.id = id ∧ cfg.port1Id = port1Id ∧ cfg.port2Id = port2Id ∧
      cfg.ipLow = ipLow ∧ cfg.ipHigh = ipHigh) ∧
    id ≤ MAX_NSW ∧ IsPortId port1Id ∧ IsPortId port2Id ∧
    (∃ file, env.ifstream file = some lines) ∧
    (∃ host, env.getAddressInfo host = some ipAddress) ∧ portNumber < 65536

/-- `null`, or the name of a switch. -/
def portText (v : ℤ) : Text :=
  if v = -1 then ['n', 'u', 'l', 'l'] else 's' :: 'w' :: intText v

/-- The command line of a command, for a file and a host. -/
def Command.commandLine (file host : Text) : Command → List Text
  | .controllerLoop numSwitches portNumber =>
    ["a3sdn".toList, ['c', 'o', 'n', 't'], intText numSwitches, intText portNumber]
  | .switchLoop id port1Id port2Id ipLow ipHigh _ _ portNumber =>
    ["a3sdn".toList, portText id, file, portText port1Id, portText port2Id,
      intText ipLow ++ '-' :: intText ipHigh, host, intText portNumber]

/-! ## Numbers and ids -/

theorem portNumber_lt (s : Text) : portNumber s < 65536 := by
  unfold portNumber
  omega

theorem intText_of_nonneg {v : ℤ} (h : 0 ≤ v) :
    IsNumeral (intText v) ∧ value (intText v) = v := by
  obtain ⟨n, rfl⟩ := Int.eq_ofNat_of_zero_le h
  exact ⟨isNumeral_toDigits n, value_toDigits n⟩

theorem strtolInt_intText {v : ℤ} (h : 0 ≤ v) (hint : IsInt v) :
    strtolInt (intText v) = some v := by
  obtain ⟨hnumeral, hvalue⟩ := intText_of_nonneg h
  have hread := strtolInt_of_isNumeral hnumeral
  rw [hvalue] at hread
  exact hread.mpr hint

theorem portNumber_intText {n : ℕ} (h : n < 65536) : portNumber (intText n) = n := by
  obtain ⟨hnumeral, hvalue⟩ := intText_of_nonneg (Int.natCast_nonneg n)
  unfold portNumber
  rw [strtol_of_isNumeral hnumeral, hvalue, if_neg (by omega)]
  omega

theorem isPortId_of_readsId {name : Text} {v : ℤ} (h : ReadsId name v) : IsPortId v :=
  h.imp And.right fun hname => hname.2.2

theorem readsId_portText {v : ℤ} (h : IsPortId v) : ReadsId (portText v) v := by
  unfold portText
  rcases h with rfl | ⟨hlow, hhigh⟩
  · exact .inl ⟨rfl, rfl⟩
  · rw [if_neg (by omega)]
    exact IsSwitchName.readsId ⟨rfl, hlow, hhigh⟩

/-- The text `null` has no `sw` in it, so the id of the switch itself is never -1. -/
theorem id_pos_of_mode {mode : Text} {v : ℤ} (hmode : ['s', 'w'] <:+: mode)
    (h : ReadsId mode v) : 1 ≤ v ∧ v ≤ MAX_NSW := by
  rcases h with ⟨rfl, -⟩ | hname
  · exact absurd hmode (by decide)
  · exact hname.2.2

/-! ## The two kinds of command lines -/

variable {env : Environment} {argv : List Text} {cmd : Command}

theorem mainController_eq_some (h : mainController argv = some cmd) : cmd.Ok env := by
  unfold mainController at h
  split at h
  · obtain ⟨numSwitches, -, h⟩ := Option.bind_eq_some_iff.mp h
    split_ifs at h with hbad
    cases h
    exact ⟨by omega, by omega, portNumber_lt _⟩
  · cases h

/-- Every argument is checked before the loop is entered. -/
theorem mainSwitch_eq_some (hmode : ∃ mode, argv[1]? = some mode ∧ ['s', 'w'] <:+: mode)
    (h : mainSwitch env argv = some cmd) : cmd.Ok env := by
  obtain ⟨mode, harg, hmode⟩ := hmode
  unfold mainSwitch at h
  split at h
  · next arg1 arg2 arg3 arg4 arg5 arg6 arg7 =>
    cases harg
    obtain ⟨id, hid, h⟩ := Option.bind_eq_some_iff.mp h
    obtain ⟨lines, hlines, h⟩ := Option.bind_eq_some_iff.mp h
    obtain ⟨port1Id, hport1, h⟩ := Option.bind_eq_some_iff.mp h
    obtain ⟨port2Id, hport2, h⟩ := Option.bind_eq_some_iff.mp h
    obtain ⟨⟨ipLow, ipHigh⟩, hrange, h⟩ := Option.bind_eq_some_iff.mp h
    obtain ⟨ipAddress, haddress, h⟩ := Option.bind_eq_some_iff.mp h
    cases h
    obtain ⟨hpos, hmax⟩ := id_pos_of_mode hmode (parseSwitchId_eq_some.mp hid)
    have hp1 := isPortId_of_readsId (parseSwitchId_eq_some.mp hport1)
    have hp2 := isPortId_of_readsId (parseSwitchId_eq_some.mp hport2)
    obtain ⟨-, -, -, hlow, horder, hhigh⟩ := parseIpRange_eq_some.mp hrange
    have hint : ∀ {v : ℤ}, IsPortId v → IsInt v := by
      rintro v (rfl | ⟨hv, hv'⟩)
      · decide
      · unfold MAX_NSW at hv'
        unfold IsInt
        omega
    exact ⟨⟨⟨id, port1Id, port2Id, ipLow, ipHigh, hpos, hint (.inr ⟨hpos, hmax⟩), hint hp1,
      hint hp2, ⟨hlow, horder.trans hhigh⟩, ⟨hlow.trans horder, hhigh⟩, horder⟩,
      rfl, rfl, rfl, rfl, rfl⟩, hmax, hp1, hp2, ⟨arg2, hlines⟩, ⟨arg6, haddress⟩,
      portNumber_lt _⟩
  · cases h

theorem ok_of_main (h : main env argv = some cmd) : cmd.Ok env := by
  obtain ⟨mode, hmode, h⟩ := Option.bind_eq_some_iff.mp h
  split_ifs at h with hcont hsw
  · exact mainController_eq_some h
  · exact mainSwitch_eq_some ⟨mode, hmode, hsw⟩ h

/-! ## The command line of a command -/

/-- The range of a switch is read back. -/
theorem parseIpRange_text {lo hi : ℤ} (hlow : IsIp lo) (hhigh : IsIp hi) (horder : lo ≤ hi) :
    parseIpRange (intText lo ++ '-' :: intText hi) = some (lo, hi) := by
  obtain ⟨hp, hplo⟩ := intText_of_nonneg hlow.1
  obtain ⟨hq, hqhi⟩ := intText_of_nonneg hhigh.1
  have hrange : IsRange (intText lo ++ '-' :: intText hi) lo hi :=
    ⟨_, _, rfl, hp, hq, hplo, hqhi, hlow.1, horder, hhigh.2⟩
  exact parseIpRange_eq_some.mpr (isRange_iff.mp hrange).2

theorem main_commandLine (hok : cmd.Ok env) :
    ∃ file host, main env (cmd.commandLine file host) = some cmd := by
  cases cmd with
  | controllerLoop numSwitches port =>
    obtain ⟨hpos, hmax, hport⟩ := hok
    unfold MAX_NSW at hmax
    have hread : strtolInt (intText numSwitches) = some numSwitches :=
      strtolInt_intText (by omega) (by unfold IsInt; omega)
    refine ⟨[], [], ?_⟩
    show (strtolInt (intText numSwitches)).bind _ = _
    rw [hread, Option.bind_some, if_neg (by unfold MAX_NSW; omega), portNumber_intText hport]
  | switchLoop id port1Id port2Id ipLow ipHigh lines ipAddress port =>
    obtain ⟨⟨cfg, rfl, rfl, rfl, rfl, rfl⟩, hmax, hp1, hp2, ⟨file, hfile⟩, ⟨host, hhost⟩,
      hport⟩ := hok
    have hid : IsPortId cfg.id := .inr ⟨cfg.id_pos, hmax⟩
    have hname : portText cfg.id = 's' :: 'w' :: intText cfg.id :=
      if_neg (by have := cfg.id_pos; omega)
    have hsw : ['s', 'w'] <:+: portText cfg.id := by
      rw [hname]
      exact ⟨[], intText cfg.id, rfl⟩
    have hcont : portText cfg.id ≠ ['c', 'o', 'n', 't'] := by
      rw [hname]
      simp
    refine ⟨file, host, ?_⟩
    unfold main
    simp only [Command.commandLine, List.getElem?_cons_succ, List.getElem?_cons_zero,
      Option.bind_eq_bind, Option.bind_some, if_neg hcont, if_pos hsw]
    simp only [mainSwitch, Option.bind_eq_bind, hfile, hhost, Option.bind_some,
      parseSwitchId_eq_some.mpr (readsId_portText hid),
      parseSwitchId_eq_some.mpr (readsId_portText hp1),
      parseSwitchId_eq_some.mpr (readsId_portText hp2),
      parseIpRange_text cfg.low_isIp cfg.high_isIp cfg.low_le_high, portNumber_intText hport]

/-- Whatever the command line is, `main` enters a loop with valid arguments only, and
    there is a command line for all of these. -/
theorem main_ok_iff (env : Environment) (cmd : Command) :
    (∃ argv, main env argv = some cmd) ↔ cmd.Ok env := by
  constructor
  · rintro ⟨argv, h⟩
    exact ok_of_main h
  · intro hok
    obtain ⟨file, host, h⟩ := main_commandLine hok
    exact ⟨_, h⟩

/-- The name of a switch is read from its third character on. -/
example : main ⟨fun _ => some [], some⟩ ["a3sdn".toList, "is3sw".toList, "f".toList,
    "null".toList, "sw2x".toList, "0-9".toList, "h".toList, "65537".toList] =
    some (.switchLoop 3 (-1) 2 0 9 [] "h".toList 1) := by decide +kernel

end Cmput379.Sdn
