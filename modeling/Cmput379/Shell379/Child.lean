import Cmput379.Shell379.Shell

/-!
# The child of run

`run` (`Process.cpp`) where `fork` has returned 0. `execlp` is a parameter: whether the
program can be started. If so, the call does not return; if not, it returns -1.

* `functions_of_dispatched`: the token lists that come to `run`.
* `cmdList_eq_filter`: what the loop over the tokens leaves for the switch.
* `ended_ne_returned_iff`: the child goes back to the command loop iff no word is left.
-/

namespace Cmput379.Shell379

open Cmput379.Lib

/-! ## Model -/

/-- The variables of lines 32-34. -/
structure Redirected where
  cmdList : List Text
  inputFile : Text
  outputFile : Text
  deriving DecidableEq

/-- The body of the loop over the tokens (lines 36-44). -/
def Redirected.addToken (r : Redirected) (item : Text) : Redirected :=
  if item.head? = some '>' then { r with outputFile := item.drop 1 }
  else if item.head? = some '<' then { r with inputFile := item.drop 1 }
  else if item ≠ ['&'] then { r with cmdList := r.cmdList ++ [item] }
  else r

/-- Lines 32-45. -/
def redirected (tokens : List Text) : Redirected := tokens.foldl Redirected.addToken ⟨[], [], []⟩

/-- How `run` ends in the child: `execlp` has replaced the process, `exit` has been
    called, or control has gone back to the command loop. -/
inductive ChildEnd
  | replaced (argv : List Text)
  | exited (status : ℤ)
  | returned
  deriving DecidableEq

/-- The files that stdout and stdin are redirected to, what is printed, and the end. -/
structure ChildRun where
  stdout : Option Text
  stdin : Option Text
  printed : Text
  ended : ChildEnd
  deriving DecidableEq

/-- An `open` and `dup2` for a name that is not empty (lines 71-75 and 77-81). -/
def redirection (file : Text) : Option Text := if file ≠ [] then some file else none

/-- Lines 68-130. The cases 1 to 7 of the switch pass all of `cmdList` to `execlp`; there
    is no default, and `errorFlag` stays 0 where no case is taken. -/
def runChild (execlp : List Text → Bool) (tokens : List Text) : ChildRun :=
  let r := redirected tokens
  let stdout := redirection r.outputFile
  let stdin := redirection r.inputFile
  if 1 ≤ r.cmdList.length ∧ r.cmdList.length ≤ 7 then
    if execlp r.cmdList = true then ⟨stdout, stdin, [], .replaced r.cmdList⟩
    else ⟨stdout, stdin, "Could not execute ".toList ++ r.cmdList.headI ++ ['\n'], .exited 1⟩
  else ⟨stdout, stdin, [], .returned⟩

/-! ## What is dispatched -/

/-- The names `functions` compares the first token with. -/
def builtins : List Text :=
  ["exit".toList, "jobs".toList, "kill".toList, "resume".toList, "sleep".toList,
    "suspend".toList, "wait".toList]

/-- A token list that `functions` passes on to `run`. -/
def Dispatched (tokens : List Text) : Prop :=
  Shell.checkTokenSize tokens = true ∧ ∃ name args, tokens = name :: args ∧ name ∉ builtins

theorem functions_of_dispatched {sh : Shell} {cmd : Text} {fork : Option ℤ}
    (hlength : cmd.length ≤ LINE_LENGTH) (h : Dispatched (words cmd)) :
    sh.functions cmd fork = sh.run (words cmd) fork := by
  obtain ⟨hsize, name, args, hwords, hname⟩ := h
  simp only [builtins, List.mem_cons, List.not_mem_nil, or_false, not_or] at hname
  obtain ⟨h1, h2, h3, h4, h5, h6, h7⟩ := hname
  unfold Shell.functions
  rw [if_neg (by omega), if_pos hsize, hwords]
  simp only [if_neg h1, if_neg h2, if_neg h3, if_neg h4, if_neg h5, if_neg h6, if_neg h7]

/-! ## The words that are left -/

/-- Neither a redirection nor `&`. -/
def IsWord (token : Text) : Prop :=
  token.head? ≠ some '>' ∧ token.head? ≠ some '<' ∧ token ≠ ['&']

instance (token : Text) : Decidable (IsWord token) :=
  inferInstanceAs (Decidable (_ ∧ _ ∧ _))

theorem cmdList_addToken (r : Redirected) (item : Text) :
    (r.addToken item).cmdList = r.cmdList ++ [item].filter IsWord := by
  unfold Redirected.addToken
  by_cases hout : item.head? = some '>'
  · rw [if_pos hout, List.filter_cons_of_neg (by simp [IsWord, hout])]
    exact (List.append_nil _).symm
  rw [if_neg hout]
  by_cases hin : item.head? = some '<'
  · rw [if_pos hin, List.filter_cons_of_neg (by simp [IsWord, hin])]
    exact (List.append_nil _).symm
  rw [if_neg hin]
  by_cases hamp : item = ['&']
  · rw [if_neg (not_not.mpr hamp), List.filter_cons_of_neg (by simp [IsWord, hamp])]
    exact (List.append_nil _).symm
  · rw [if_pos hamp, List.filter_cons_of_pos (by simp [IsWord, hout, hin, hamp])]
    rfl

theorem cmdList_foldl (tokens : List Text) (r : Redirected) :
    (tokens.foldl Redirected.addToken r).cmdList = r.cmdList ++ tokens.filter IsWord := by
  induction tokens generalizing r with
  | nil => simp
  | cons item tokens ih =>
    rw [List.foldl_cons, ih, cmdList_addToken, List.append_assoc, ← List.filter_append,
      List.singleton_append]

theorem cmdList_eq_filter (tokens : List Text) :
    (redirected tokens).cmdList = tokens.filter IsWord := by
  rw [redirected, cmdList_foldl, List.nil_append]

theorem length_le_of_checkTokenSize {tokens : List Text}
    (h : Shell.checkTokenSize tokens = true) : tokens.length ≤ MAX_ARGS := by
  unfold Shell.checkTokenSize at h
  split_ifs at h with hmany
  omega

/-! ## The end of the child -/

/-- A list with a word: the switch has a case for it, and each case ends the child. -/
theorem ended_ne_returned_iff (execlp : List Text → Bool) (tokens : List Text)
    (h : Dispatched tokens) :
    (runChild execlp tokens).ended ≠ .returned ↔ ∃ token ∈ tokens, IsWord token := by
  have hle : (tokens.filter IsWord).length ≤ 7 :=
    (List.length_filter_le _ _).trans (length_le_of_checkTokenSize h.1)
  have hpos : 1 ≤ (tokens.filter IsWord).length ↔ ∃ token ∈ tokens, IsWord token := by
    rw [Nat.one_le_iff_ne_zero, ne_eq, List.length_eq_zero_iff, List.filter_eq_nil_iff]
    simp
  simp only [runChild, cmdList_eq_filter, ← hpos]
  by_cases hword : 1 ≤ (tokens.filter IsWord).length
  · rw [if_pos ⟨hword, hle⟩]
    refine iff_of_true ?_ hword
    split_ifs
    · exact ChildEnd.noConfusion
    · exact ChildEnd.noConfusion
  · rw [if_neg fun hboth => hword hboth.1]
    exact iff_of_false (fun hne => hne rfl) hword

theorem ended_ls :
    (runChild (fun _ => true) ["ls".toList, ">out".toList]).ended ≠ .returned ↔
      ∃ token ∈ ["ls".toList, ">out".toList], IsWord token :=
  ended_ne_returned_iff (fun _ => true) _ ⟨by decide, _, _, rfl, by decide⟩

/-- `> &`: the child returns, whatever `execlp` would do. -/
theorem ended_counterexample :
    ¬ ∀ execlp tokens, Dispatched tokens → (runChild execlp tokens).ended ≠ .returned := by
  intro h
  exact h (fun _ => false) [['>'], ['&']] ⟨by decide, _, _, rfl, by decide⟩ rfl

end Cmput379.Shell379
