import Cmput379.Shell379.Child
import Cmput379.Shell379.ProcessTable

/-!
# Input lines of shell379

What the loop of `main` does with any line, over any process table.

* `Shell.returned`: `functions` with its `waitpid`, which returns when the child it waits
  for has finished.
* `returns_turn`: the lines after which control comes back to the loop.
* `turn_rejected`: a rejected line changes nothing.
* `handled_iff`: a line is handled as it should iff nothing in it throws, what it forks
  can be forked, and the child it waits for finishes.
-/

namespace Cmput379.Shell379

open Cmput379.Lib

/-! ## Specification -/

namespace Shell

/-- Where `functions` returns. `ends` are the pids of the children that finish by
    themselves: a suspended one only does if somebody else continues or kills it. -/
def returned (sh : Shell) (ends : ℤ → Bool) : Option Shell :=
  match sh.mode with
  | .reading => some sh
  | .foreground pid | .waiting pid => (if ends pid then sh.finish pid else sh).goOn
  | .exited | .aborted => none

/-- `functions` returns, to the loop of `main`. -/
def Returns (sh : Shell) (ends : ℤ → Bool) : Prop :=
  ∃ sh', sh.returned ends = some sh' ∧ sh'.mode = .reading

/-- `waitpid` blocks, and the child does not finish. -/
def Blocks (sh : Shell) (ends : ℤ → Bool) (pid : ℤ) : Prop :=
  sh.waitpid pid = none ∧ ends pid = false

end Shell

/-- The commands that take a pid. -/
def pidCommands : List Text :=
  ["kill".toList, "resume".toList, "suspend".toList, "wait".toList]

/-- The line passes the checks. -/
def Accepted (cmd : Text) : Prop :=
  cmd ≠ [] ∧ cmd.length ≤ LINE_LENGTH ∧ Shell.checkTokenSize (words cmd) = true

/-- Too long, too many or too long tokens, a wrong number of arguments, or an argument
    that is not the pid of an entry. -/
inductive Rejected (sh : Shell) (cmd : Text) : Prop
  | line (h : LINE_LENGTH < cmd.length)
  | tokens (h : Shell.checkTokenSize (words cmd) = false)
  | count (name : Text) (args : List Text) (h : words cmd = name :: args)
      (hname : name ∈ pidCommands) (hargs : args.length ≠ 1)
  | pid (name arg : Text) (h : words cmd = [name, arg]) (hname : name ∈ pidCommands)
      (hpid : ∀ pid, stoi arg = some pid → pid ∉ sh.processes)
  | time (h : words cmd = ["sleep".toList])

/-- No exception ends the shell, `functions` returns to the loop unless the command is
    `exit`, and a rejected line leaves the table and its flags as they are and sends no
    signal. -/
structure Handled (sh : Shell) (cmd : Text) (fork : Option ℤ) (ends : ℤ → Bool) : Prop where
  goes_on : (sh.turn cmd fork).mode ≠ .aborted
  finishes : ¬ (Accepted cmd ∧ (words cmd).head? = some "exit".toList) →
    (sh.turn cmd fork).Returns ends
  rejected : Rejected sh cmd →
    (sh.turn cmd fork).processes = sh.processes ∧ (sh.turn cmd fork).events = sh.events

/-- The token lists on which `functions` does not return, `exit` apart. -/
inductive Fails (sh : Shell) (fork : Option ℤ) (ends : ℤ → Bool) : List Text → Prop
  | blank : Fails sh fork ends []
  | pid (name arg : Text) (hname : name ∈ pidCommands) (h : stoi arg = none) :
      Fails sh fork ends [name, arg]
  | time (arg : Text) (rest : List Text) (h : stoi arg = none) :
      Fails sh fork ends ("sleep".toList :: arg :: rest)
  | popen (args : List Text) (hentry : sh.processes.isEmpty = false) (hfork : fork = none) :
      Fails sh fork ends ("jobs".toList :: args)
  | fork (name : Text) (args : List Text) (hname : name ∉ builtins)
      (hsize : sh.processes.size < MAX_PT_ENTRIES) (hfork : fork = none) :
      Fails sh fork ends (name :: args)
  | foreground (name : Text) (args : List Text) (pid : ℤ) (hname : name ∉ builtins)
      (hsize : sh.processes.size < MAX_PT_ENTRIES) (hfork : fork = some pid)
      (hforeground : Shell.runInBackground (name :: args) = false)
      (hblocks : (sh.forked pid).Blocks ends pid) : Fails sh fork ends (name :: args)
  | wait (arg : Text) (pid : ℤ) (harg : stoi arg = some pid) (hentry : pid ∈ sh.processes)
      (hblocks : sh.Blocks ends pid) : Fails sh fork ends ["wait".toList, arg]

/-! ## Where functions returns -/

section Returns

variable {sh sh' : Shell} {ends : ℤ → Bool} {pid : ℤ}

theorem waitpid_eq_none : sh.waitpid pid = none ↔
    ∃ c, sh.children.find? (·.pid = pid) = some c ∧ c.finished = false := by
  unfold Shell.waitpid
  cases sh.children.find? (·.pid = pid) with
  | none => simp
  | some c => simp

/-- Only the children matter. -/
theorem blocks_congr (h : sh'.children = sh.children) :
    sh'.Blocks ends pid ↔ sh.Blocks ends pid := by
  unfold Shell.Blocks
  rw [waitpid_eq_none, waitpid_eq_none, h]

theorem waitpid_finish (sh : Shell) (pid : ℤ) : (sh.finish pid).waitpid pid ≠ none := by
  rw [ne_eq, waitpid_eq_none]
  rintro ⟨c, hfind, hfinished⟩
  have hpid : c.pid = pid := by simpa using List.find?_some hfind
  obtain ⟨c', -, rfl⟩ := List.mem_map.mp (List.mem_of_find?_eq_some hfind)
  by_cases hc' : c'.pid = pid
  · rw [if_pos hc'] at hfinished
    cases hfinished
  · rw [if_neg hc'] at hpid
    exact hc' hpid

theorem reading_of_goOn (h : sh.goOn = some sh') : sh'.mode = .reading := by
  unfold Shell.goOn at h
  split at h
  · obtain ⟨⟨reaped, sh₁⟩, -, rfl⟩ := Option.map_eq_some_iff.mp h
    rfl
  · obtain ⟨⟨reaped, sh₁⟩, -, rfl⟩ := Option.map_eq_some_iff.mp h
    cases reaped <;> rfl
  · cases h

theorem goOn_eq_none (h : sh.mode = .foreground pid ∨ sh.mode = .waiting pid) :
    sh.goOn = none ↔ sh.waitpid pid = none := by
  unfold Shell.goOn
  rcases h with h | h
  · rw [h]
    exact Option.map_eq_none_iff
  · rw [h]
    exact Option.map_eq_none_iff

theorem returns_of_reading (h : sh.mode = .reading) : sh.Returns ends :=
  ⟨sh, by rw [Shell.returned, h], h⟩

theorem not_returns_of_exited (h : sh.mode = .exited) : ¬ sh.Returns ends := by
  rintro ⟨sh', hret, -⟩
  rw [Shell.returned, h] at hret
  cases hret

theorem not_returns_of_aborted (h : sh.mode = .aborted) : ¬ sh.Returns ends := by
  rintro ⟨sh', hret, -⟩
  rw [Shell.returned, h] at hret
  cases hret

/-- In a `waitpid`. -/
theorem returns_iff_not_blocks (h : sh.mode = .foreground pid ∨ sh.mode = .waiting pid) :
    sh.Returns ends ↔ ¬ sh.Blocks ends pid := by
  have hret : sh.returned ends = (if ends pid then sh.finish pid else sh).goOn := by
    unfold Shell.returned
    rcases h with h | h <;> rw [h]
  have hsome : sh.Returns ends ↔ (if ends pid then sh.finish pid else sh).goOn ≠ none := by
    unfold Shell.Returns
    rw [hret, Option.ne_none_iff_exists']
    exact exists_congr fun sh' => and_iff_left_of_imp reading_of_goOn
  rw [hsome, Shell.Blocks]
  cases hends : ends pid with
  | false =>
    rw [if_neg (by simp), ne_eq, goOn_eq_none h]
    simp
  | true =>
    have hmode : (sh.finish pid).mode = .foreground pid ∨ (sh.finish pid).mode = .waiting pid := h
    rw [if_pos rfl, ne_eq, goOn_eq_none hmode]
    exact iff_of_true (waitpid_finish sh pid) (by simp)

end Returns

/-! ## The commands -/

section Commands

variable {sh : Shell} {fork : Option ℤ} {ends : ℤ → Bool}

/-- The comparisons of `functions` with the first token (lines 225-247). -/
def dispatch (sh : Shell) (fork : Option ℤ) (name : Text) (tokens : List Text) : Shell :=
  if name = "exit".toList then sh.exit
  else if name = "jobs".toList then sh.getRunTimes fork
  else if name = "kill".toList then sh.kill tokens
  else if name = "resume".toList then sh.resume tokens
  else if name = "sleep".toList then sh.sleep tokens
  else if name = "suspend".toList then sh.suspend tokens
  else if name = "wait".toList then sh.wait tokens
  else sh.run tokens fork

/-- A line that passes the checks. -/
theorem turn_eq {cmd name : Text} {args : List Text} (haccepted : Accepted cmd)
    (hwords : words cmd = name :: args) :
    sh.turn cmd fork = dispatch sh fork name (name :: args) := by
  obtain ⟨hcmd, hline, htokens⟩ := haccepted
  unfold Shell.turn Shell.functions
  rw [if_neg hcmd, if_neg (not_lt.mpr hline), if_pos htokens, hwords]
  rfl

theorem turn_blank {cmd : Text} (haccepted : Accepted cmd) (hwords : words cmd = []) :
    sh.turn cmd fork = { sh with mode := .aborted } := by
  obtain ⟨hcmd, hline, htokens⟩ := haccepted
  unfold Shell.turn Shell.functions
  rw [if_neg hcmd, if_neg (not_lt.mpr hline), if_pos htokens, hwords]

theorem withPid_of_none {f : ℤ → Shell} (name : Text) {arg : Text} (h : stoi arg = none) :
    sh.withPid [name, arg] f = { sh with mode := .aborted } := by
  simp [Shell.withPid, h]

theorem withPid_of_some {f : ℤ → Shell} (name : Text) {arg : Text} {pid : ℤ}
    (h : stoi arg = some pid) :
    sh.withPid [name, arg] f = if sh.processes.contains pid then f pid else sh := by
  simp [Shell.withPid, h]

theorem withPid_of_length {f : ℤ → Shell} (name : Text) {args : List Text}
    (h : args.length ≠ 1) : sh.withPid (name :: args) f = sh :=
  if_pos (by simpa using h)

/-- The argument of a pid command is not converted unless it is the only one. -/
theorem returns_withPid {f : ℤ → Shell} (hread : sh.mode = .reading) (name : Text)
    (args : List Text) : (sh.withPid (name :: args) f).Returns ends ↔
      ∀ arg, args = [arg] → ∃ pid, stoi arg = some pid ∧
        (pid ∈ sh.processes → (f pid).Returns ends) := by
  by_cases hlength : args.length = 1
  · obtain ⟨arg, rfl⟩ := List.length_eq_one_iff.mp hlength
    simp only [List.cons.injEq, and_true, forall_eq']
    cases hstoi : stoi arg with
    | none =>
      rw [withPid_of_none name hstoi]
      exact iff_of_false (not_returns_of_aborted rfl) (by simp)
    | some pid =>
      rw [withPid_of_some name hstoi]
      simp only [Option.some.injEq, exists_eq_left']
      split_ifs with hentry
      · exact ⟨fun h _ => h, fun h => h hentry⟩
      · exact iff_of_true (returns_of_reading hread) fun h => absurd h hentry
  · rw [withPid_of_length name hlength]
    refine iff_of_true (returns_of_reading hread) ?_
    rintro arg rfl
    exact absurd rfl hlength

theorem returns_wait (hread : sh.mode = .reading) (name : Text) (args : List Text) :
    (sh.wait (name :: args)).Returns ends ↔ ∀ arg, args = [arg] →
      ∃ pid, stoi arg = some pid ∧ (pid ∈ sh.processes → ¬ sh.Blocks ends pid) := by
  unfold Shell.wait
  rw [returns_withPid hread]
  have hwaiting : ∀ pid, ({ sh with mode := .waiting pid } : Shell).Returns ends ↔
      ¬ sh.Blocks ends pid := by
    intro pid
    rw [returns_iff_not_blocks (.inr rfl)]
    exact not_congr (blocks_congr rfl)
  simp only [hwaiting]

theorem returns_sleep (hread : sh.mode = .reading) (name : Text) (args : List Text) :
    (sh.sleep (name :: args)).Returns ends ↔
      ∀ arg rest, args = arg :: rest → stoi arg ≠ none := by
  cases args with
  | nil =>
    rw [Shell.sleep, if_pos (by simp)]
    exact iff_of_true (returns_of_reading hread) (by simp)
  | cons arg rest =>
    rw [Shell.sleep, if_neg (by simp), List.getElem?_cons_succ, List.getElem?_cons_zero,
      Option.bind_some]
    cases hstoi : stoi arg with
    | none =>
      refine iff_of_false (not_returns_of_aborted rfl) fun h => ?_
      exact h arg rest rfl hstoi
    | some n =>
      refine iff_of_true (returns_of_reading hread) ?_
      rintro _ _ ⟨⟩
      rw [hstoi]
      exact Option.some_ne_none n

theorem returns_getRunTimes (hread : sh.mode = .reading) :
    (sh.getRunTimes fork).Returns ends ↔ ¬ (sh.processes.isEmpty = false ∧ fork = none) := by
  unfold Shell.getRunTimes
  split_ifs with h
  · refine iff_of_true (returns_of_reading hread) ?_
    rintro ⟨hentry, rfl⟩
    simp [hentry] at h
  · refine iff_of_false (not_returns_of_aborted rfl) (not_not.mpr ?_)
    simpa using h

theorem returns_record (hread : sh.mode = .reading) (tokens : List Text) (pid : ℤ) :
    (sh.record tokens pid).Returns ends ↔
      (Shell.runInBackground tokens = false → ¬ (sh.forked pid).Blocks ends pid) := by
  have hchildren : (sh.record tokens pid).children = (sh.forked pid).children := by
    unfold Shell.record
    dsimp only
    split_ifs <;> rfl
  have hmode : (sh.record tokens pid).mode =
      if Shell.runInBackground tokens then sh.mode else .foreground pid := by
    unfold Shell.record
    dsimp only
    split_ifs <;> rfl
  cases hbackground : Shell.runInBackground tokens with
  | true =>
    rw [hbackground, if_pos rfl] at hmode
    exact iff_of_true (returns_of_reading (hmode.trans hread)) nofun
  | false =>
    rw [hbackground, if_neg (by simp)] at hmode
    rw [returns_iff_not_blocks (.inl hmode), blocks_congr hchildren, forall_prop_of_true rfl]

/-- Unless the table is full, `run` has to fork, and a command in the foreground to end. -/
theorem returns_run (hread : sh.mode = .reading) (tokens : List Text) :
    (sh.run tokens fork).Returns ends ↔ (sh.processes.size < MAX_PT_ENTRIES →
      ∃ pid, fork = some pid ∧
        (Shell.runInBackground tokens = false → ¬ (sh.forked pid).Blocks ends pid)) := by
  unfold Shell.run
  split_ifs with hsize
  · exact iff_of_true (returns_of_reading hread) fun h => absurd h (not_lt.mpr hsize)
  rw [forall_prop_of_true (not_le.mp hsize)]
  cases fork with
  | none => exact iff_of_false (not_returns_of_exited rfl) (by simp)
  | some pid =>
    simp only [Option.some.injEq, exists_eq_left']
    exact returns_record hread tokens pid

/-- `kill`, `resume`, `suspend` and `wait` differ in what they do for an entry. -/
theorem dispatch_pid (sh : Shell) (fork : Option ℤ) {name : Text} (hname : name ∈ pidCommands) :
    ∃ f : ℤ → Shell, (name ≠ "wait".toList → ∀ pid, (f pid).mode = sh.mode) ∧
      ∀ tokens, dispatch sh fork name tokens = sh.withPid tokens f := by
  simp only [pidCommands, List.mem_cons, List.not_mem_nil, or_false] at hname
  rcases hname with rfl | rfl | rfl | rfl
  · exact ⟨fun pid => { sh.sendSignal pid .SIGKILL with processes := sh.processes.erase pid },
      fun _ pid => rfl, fun tokens => rfl⟩
  · exact ⟨fun pid => { sh.sendSignal pid .SIGCONT with
        processes := sh.processes.modify pid (Shell.setRunning true) },
      fun _ pid => rfl, fun tokens => rfl⟩
  · exact ⟨fun pid => { sh.sendSignal pid .SIGSTOP with
        processes := sh.processes.modify pid (Shell.setRunning false) },
      fun _ pid => rfl, fun tokens => rfl⟩
  · exact ⟨fun pid => { sh with mode := .waiting pid }, fun hne => absurd rfl hne,
      fun tokens => rfl⟩

theorem dispatch_run (sh : Shell) (fork : Option ℤ) {name : Text} (hname : name ∉ builtins)
    (tokens : List Text) : dispatch sh fork name tokens = sh.run tokens fork := by
  simp only [builtins, List.mem_cons, List.not_mem_nil, or_false, not_or] at hname
  obtain ⟨h1, h2, h3, h4, h5, h6, h7⟩ := hname
  simp only [dispatch, if_neg h1, if_neg h2, if_neg h3, if_neg h4, if_neg h5, if_neg h6,
    if_neg h7]

/-- With a wrong number of arguments, or a pid that is not in the table. -/
theorem withPid_rejected {f : ℤ → Shell} {name : Text} {args : List Text}
    (h : args.length ≠ 1 ∨
      ∃ arg, args = [arg] ∧ ∀ pid, stoi arg = some pid → pid ∉ sh.processes) :
    (sh.withPid (name :: args) f).processes = sh.processes ∧
      (sh.withPid (name :: args) f).events = sh.events := by
  rcases h with hlength | ⟨arg, rfl, hpid⟩
  · rw [withPid_of_length name hlength]
    exact ⟨rfl, rfl⟩
  · cases hstoi : stoi arg with
    | none =>
      rw [withPid_of_none name hstoi]
      exact ⟨rfl, rfl⟩
    | some pid =>
      have hnot : ¬ sh.processes.contains pid = true := hpid pid hstoi
      rw [withPid_of_some name hstoi, if_neg hnot]
      exact ⟨rfl, rfl⟩

/-! ## The commands that return -/

theorem builtin_of_pid {name : Text} (hname : name ∈ pidCommands) : name ∈ builtins := by
  simp only [pidCommands, List.mem_cons, List.not_mem_nil, or_false] at hname
  rcases hname with rfl | rfl | rfl | rfl <;> decide

theorem not_fails_pid {name : Text} (args : List Text) (hname : name ∈ pidCommands)
    (hwait : name ≠ "wait".toList) : ¬ Fails sh fork ends (name :: args) ↔
      ∀ arg, args = [arg] → ∃ pid, stoi arg = some pid := by
  constructor
  · rintro h arg rfl
    exact Option.ne_none_iff_exists'.mp fun hstoi => h (.pid name arg hname hstoi)
  · intro h hfails
    cases hfails with
    | pid _ arg _ hstoi =>
      obtain ⟨pid, hpid⟩ := h arg rfl
      exact Option.some_ne_none pid (hpid.symm.trans hstoi)
    | time => exact absurd hname (by decide)
    | popen => exact absurd hname (by decide)
    | fork _ _ hrun => exact hrun (builtin_of_pid hname)
    | foreground _ _ _ hrun => exact hrun (builtin_of_pid hname)
    | wait => exact hwait rfl

theorem not_fails_wait {name : Text} (args : List Text) (hname : name = "wait".toList) :
    ¬ Fails sh fork ends (name :: args) ↔ ∀ arg, args = [arg] →
      ∃ pid, stoi arg = some pid ∧ (pid ∈ sh.processes → ¬ sh.Blocks ends pid) := by
  have hmem : name ∈ pidCommands := by
    rw [hname]
    decide
  constructor
  · rintro h arg rfl
    obtain ⟨pid, hpid⟩ := Option.ne_none_iff_exists'.mp fun hstoi => h (.pid name arg hmem hstoi)
    refine ⟨pid, hpid, fun hentry hblocks => h ?_⟩
    rw [hname]
    exact .wait arg pid hpid hentry hblocks
  · intro h hfails
    cases hfails with
    | pid _ arg _ hstoi =>
      obtain ⟨pid, hpid, -⟩ := h arg rfl
      exact Option.some_ne_none pid (hpid.symm.trans hstoi)
    | time => exact absurd hname (by decide)
    | popen => exact absurd hname (by decide)
    | fork _ _ hrun => exact hrun (builtin_of_pid hmem)
    | foreground _ _ _ hrun => exact hrun (builtin_of_pid hmem)
    | wait arg pid harg hentry hblocks =>
      obtain ⟨pid', hpid', hgoes⟩ := h arg rfl
      obtain rfl := Option.some.inj (harg.symm.trans hpid')
      exact hgoes hentry hblocks

theorem not_fails_sleep {name : Text} (args : List Text) (hname : name = "sleep".toList) :
    ¬ Fails sh fork ends (name :: args) ↔
      ∀ arg rest, args = arg :: rest → stoi arg ≠ none := by
  constructor
  · rintro h arg rest rfl hstoi
    rw [hname] at h
    exact h (.time arg rest hstoi)
  · intro h hfails
    cases hfails with
    | pid _ _ hmem => exact absurd (hname ▸ hmem) (by decide)
    | time arg rest hstoi => exact h arg rest rfl hstoi
    | popen => exact absurd hname (by decide)
    | fork _ _ hrun => exact absurd (hname ▸ hrun) (by decide)
    | foreground _ _ _ hrun => exact absurd (hname ▸ hrun) (by decide)
    | wait => exact absurd hname (by decide)

theorem not_fails_jobs {name : Text} (args : List Text) (hname : name = "jobs".toList) :
    ¬ Fails sh fork ends (name :: args) ↔ ¬ (sh.processes.isEmpty = false ∧ fork = none) := by
  refine not_congr ⟨fun hfails => ?_, ?_⟩
  · cases hfails with
    | pid _ _ hmem => exact absurd (hname ▸ hmem) (by decide)
    | time => exact absurd hname (by decide)
    | popen _ hentry hfork => exact ⟨hentry, hfork⟩
    | fork _ _ hrun => exact absurd (hname ▸ hrun) (by decide)
    | foreground _ _ _ hrun => exact absurd (hname ▸ hrun) (by decide)
    | wait => exact absurd hname (by decide)
  · rintro ⟨hentry, hfork⟩
    rw [hname]
    exact .popen args hentry hfork

theorem not_fails_run {name : Text} (args : List Text) (hname : name ∉ builtins) :
    ¬ Fails sh fork ends (name :: args) ↔ (sh.processes.size < MAX_PT_ENTRIES →
      ∃ pid, fork = some pid ∧
        (Shell.runInBackground (name :: args) = false → ¬ (sh.forked pid).Blocks ends pid)) := by
  constructor
  · intro h hsize
    obtain ⟨pid, hfork⟩ :=
      Option.ne_none_iff_exists'.mp fun hfork => h (.fork name args hname hsize hfork)
    exact ⟨pid, hfork, fun hforeground hblocks =>
      h (.foreground name args pid hname hsize hfork hforeground hblocks)⟩
  · intro h hfails
    cases hfails with
    | pid _ _ hmem => exact hname (builtin_of_pid hmem)
    | time => exact absurd hname (by decide)
    | popen => exact absurd hname (by decide)
    | fork _ _ _ hsize hfork =>
      obtain ⟨pid, hpid, -⟩ := h hsize
      exact Option.some_ne_none pid (hpid.symm.trans hfork)
    | foreground _ _ pid _ hsize hfork hforeground hblocks =>
      obtain ⟨pid', hpid', hgoes⟩ := h hsize
      obtain rfl := Option.some.inj (hfork.symm.trans hpid')
      exact hgoes hforeground hblocks
    | wait => exact absurd hname (by decide)

theorem returns_dispatch (hread : sh.mode = .reading) {name : Text} (args : List Text)
    (hexit : name ≠ "exit".toList) :
    (dispatch sh fork name (name :: args)).Returns ends ↔
      ¬ Fails sh fork ends (name :: args) := by
  by_cases hwait : name = "wait".toList
  · rw [not_fails_wait args hwait, ← returns_wait hread name args, hwait]
    rfl
  by_cases hpid : name ∈ pidCommands
  · obtain ⟨f, hmode, heq⟩ := dispatch_pid sh fork hpid
    rw [heq, returns_withPid hread, not_fails_pid args hpid hwait]
    have hreturns : ∀ pid, (f pid).Returns ends :=
      fun pid => returns_of_reading ((hmode hwait pid).trans hread)
    simp only [hreturns, implies_true, and_true]
  by_cases hsleep : name = "sleep".toList
  · rw [not_fails_sleep args hsleep, ← returns_sleep hread name args, hsleep]
    rfl
  by_cases hjobs : name = "jobs".toList
  · rw [not_fails_jobs args hjobs, ← returns_getRunTimes hread, hjobs]
    rfl
  · have hrun : name ∉ builtins := by
      simp only [pidCommands, List.mem_cons, List.not_mem_nil, or_false, not_or] at hpid
      simp only [builtins, List.mem_cons, List.not_mem_nil, or_false, not_or]
      exact ⟨hexit, hjobs, hpid.1, hpid.2.1, hsleep, hpid.2.2.1, hwait⟩
    rw [dispatch_run sh fork hrun, returns_run hread, not_fails_run args hrun]

end Commands

/-! ## Any line -/

section Line

variable {sh : Shell} {cmd : Text} {fork : Option ℤ} {ends : ℤ → Bool}

/-- A line that does not pass the checks, or that is empty, does nothing. -/
theorem turn_eq_self (h : ¬ Accepted cmd) : sh.turn cmd fork = sh := by
  unfold Shell.turn Shell.functions
  by_cases hcmd : cmd = []
  · rw [if_pos hcmd]
  by_cases hline : cmd.length > LINE_LENGTH
  · rw [if_neg hcmd, if_pos hline]
  · rw [if_neg hcmd, if_neg hline, if_neg fun htokens => h ⟨hcmd, not_lt.mp hline, htokens⟩]

/-- A rejected line changes neither the table nor the signals sent. -/
theorem turn_rejected (h : Rejected sh cmd) :
    (sh.turn cmd fork).processes = sh.processes ∧ (sh.turn cmd fork).events = sh.events := by
  by_cases haccepted : Accepted cmd
  · cases h with
    | line hlong => exact absurd hlong (not_lt.mpr haccepted.2.1)
    | tokens hbad => exact absurd (haccepted.2.2.symm.trans hbad) (by decide)
    | count name args hwords hname hargs =>
      obtain ⟨f, -, heq⟩ := dispatch_pid sh fork hname
      rw [turn_eq haccepted hwords, heq]
      exact withPid_rejected (.inl hargs)
    | pid name arg hwords hname hpid =>
      obtain ⟨f, -, heq⟩ := dispatch_pid sh fork hname
      rw [turn_eq haccepted hwords, heq]
      exact withPid_rejected (.inr ⟨arg, rfl, hpid⟩)
    | time hwords =>
      rw [turn_eq haccepted hwords]
      exact ⟨rfl, rfl⟩
  · rw [turn_eq_self haccepted]
    exact ⟨rfl, rfl⟩

/-- The lines after which the shell reads the next one. -/
theorem returns_turn (hread : sh.mode = .reading)
    (hexit : ¬ (Accepted cmd ∧ (words cmd).head? = some "exit".toList)) :
    (sh.turn cmd fork).Returns ends ↔ ¬ (Accepted cmd ∧ Fails sh fork ends (words cmd)) := by
  by_cases haccepted : Accepted cmd
  · rw [and_iff_right haccepted] at hexit ⊢
    cases hwords : words cmd with
    | nil =>
      rw [turn_blank haccepted hwords]
      exact iff_of_false (not_returns_of_aborted rfl) (not_not.mpr .blank)
    | cons name args =>
      rw [hwords] at hexit
      rw [turn_eq haccepted hwords]
      exact returns_dispatch hread args fun hname => hexit (congrArg some hname)
  · rw [turn_eq_self haccepted]
    exact iff_of_true (returns_of_reading hread) fun h => haccepted h.1

/-- `exit` is not among the lines that fail. -/
theorem head_ne_exit {tokens : List Text} (h : Fails sh fork ends tokens) :
    tokens.head? ≠ some "exit".toList := by
  cases h with
  | blank => exact nofun
  | pid name arg hname =>
    rintro ⟨⟩
    exact absurd hname (by decide)
  | time => exact fun h => absurd (Option.some.inj h) (by decide)
  | popen => exact fun h => absurd (Option.some.inj h) (by decide)
  | fork name args hname =>
    rintro ⟨⟩
    exact absurd hname (by decide)
  | foreground name args pid hname =>
    rintro ⟨⟩
    exact absurd hname (by decide)
  | wait => exact fun h => absurd (Option.some.inj h) (by decide)

theorem turn_exit (haccepted : Accepted cmd) (h : (words cmd).head? = some "exit".toList) :
    (sh.turn cmd fork).mode = .exited := by
  obtain ⟨args, hwords⟩ := List.head?_eq_some_iff.mp h
  rw [turn_eq haccepted hwords]
  rfl

theorem handled_iff (hread : sh.mode = .reading) :
    Handled sh cmd fork ends ↔ ¬ (Accepted cmd ∧ Fails sh fork ends (words cmd)) := by
  constructor
  · rintro h ⟨haccepted, hfails⟩
    have hexit : ¬ (Accepted cmd ∧ (words cmd).head? = some "exit".toList) :=
      fun hexit => head_ne_exit hfails hexit.2
    exact (returns_turn hread hexit).mp (h.finishes hexit) ⟨haccepted, hfails⟩
  · intro h
    refine ⟨?_, fun hexit => (returns_turn hread hexit).mpr h, turn_rejected⟩
    by_cases hexit : Accepted cmd ∧ (words cmd).head? = some "exit".toList
    · rw [turn_exit hexit.1 hexit.2]
      exact Mode.noConfusion
    · exact fun habort => not_returns_of_aborted habort ((returns_turn hread hexit).mpr h)

end Line

/-- Two jobs in the background, of which the first is suspended. -/
def suspendFirst : List Action :=
  [.line "sleep5 &".toList (some 7), .line "sleep6 &".toList (some 9),
    .line "suspend 7".toList none]

/-- Where only 9 finishes, `wait 9` returns, and `wait 7` does not. -/
theorem handled_suspendFirst : ∃ sh, system.exec Shell.initState suspendFirst = some sh ∧
    Handled sh "wait 9".toList none (· = 9) ∧ ¬ Handled sh "wait 7".toList none (· = 9) := by
  have hrun : (system.exec Shell.initState suspendFirst).map (fun sh => decide
      (sh.mode = .reading ∧ 7 ∈ sh.processes ∧ (sh.waitpid 7).isNone)) = some true := by
    decide +kernel
  obtain ⟨sh, hexec, hread, hentry, hblocks⟩ := System.exists_of_exec hrun
  refine ⟨sh, hexec, (handled_iff hread).mpr fun h => ?_, fun h => (handled_iff hread).mp h ?_⟩
  · refine (not_fails_wait ["9".toList] rfl).mpr ?_ h.2
    rintro _ ⟨⟩
    exact ⟨9, by decide, fun _ hblocks => absurd hblocks.2 (by decide)⟩
  · have hwaits : sh.Blocks (· = 9) 7 := ⟨Option.isNone_iff_eq_none.mp hblocks, by decide⟩
    exact ⟨⟨by decide, by decide, by decide⟩, .wait "7".toList 7 (by decide) hentry hwaits⟩

/-- A line of one blank: `tokens.at(0)` throws, whatever the children do. -/
theorem handled_counterexample :
    ¬ ∀ sh cmd fork ends, sh.mode = .reading → cmd ≠ [] → Handled sh cmd fork ends := by
  intro h
  exact (h Shell.initState [' '] (some 7) (fun _ => true) rfl (by decide)).goes_on (by decide)

end Cmput379.Shell379
