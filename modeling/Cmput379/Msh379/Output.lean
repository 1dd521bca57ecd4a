import Cmput379.Lib.Decimal
import Cmput379.Msh379.Descendants
import Cmput379.Msh379.Rows

/-!
# What check prints

`check` of `Assignment_1/msh379.cpp`, from the text of `ps` to what is printed.

* `check_ends_iff`: it comes back, for any text, iff no row below the target is below
  itself; and if so, it goes no deeper than there are rows.
* `check_processes`: when the lines of `ps` fit into the buffer, it prints the line of
  the target and then those of the processes that descend from it.
-/

namespace Cmput379.Msh379

open Cmput379.Lib

/-! ## When check comes back -/

section Ends

variable {processes rows out : List Parent} {fuel : ℕ} {targetPID : Text}

theorem childLoop_of_lists {calls : Text → Option (List Parent)}
    (hcalls : ∀ r ∈ rows, r.ppid = targetPID → ∀ below,
      (table processes).Lists r.pid processes below → calls r.pid = some below)
    (h : (table processes).Lists targetPID rows out) :
    childLoop calls targetPID rows = some out := by
  induction rows generalizing out with
  | nil =>
    cases h
    rfl
  | cons r rows ih =>
    rw [List.forall_mem_cons] at hcalls
    unfold childLoop
    cases h with
    | skip hppid h =>
      replace hppid : r.ppid ≠ targetPID := hppid
      rw [if_neg hppid]
      exact ih hcalls.2 h
    | child hppid hbelow h =>
      replace hppid : r.ppid = targetPID := hppid
      rw [if_pos hppid, hcalls.1 hppid _ hbelow, ih hcalls.2 h]
      rfl

/-- A scan that ends is carried out with as many calls below each other as there are
    descendants. -/
theorem get_c_processes_of_lists (h : (table processes).Lists targetPID processes out)
    (hfuel : (table processes).size targetPID < fuel) :
    get_c_processes processes fuel targetPID = some out := by
  induction fuel generalizing targetPID out with
  | zero => exact absurd hfuel (Nat.not_lt_zero _)
  | succ fuel ih =>
    refine childLoop_of_lists (fun r hr hppid below hbelow => ih hbelow ?_) h
    have hless : (table processes).size r.pid < (table processes).size targetPID :=
      Forest.size_lt_of_not_cycle hr hppid (h.not_cycle (.child hr hppid))
    omega

end Ends

/-- What `check` prints when the rows below its target are `descendants`. -/
def checkText (processes : List Parent) (targetPID : Text) (descendants : List Parent) : Text :=
  (getState processes targetPID ++ descendants.map Printed.row).flatMap Printed.text

theorem check_pair (fuel : ℕ) (name targetPID : Text) (pipe : Option Text) :
    check fuel [name, targetPID] pipe =
      (get_c_processes (getParent pipe) fuel targetPID).map
        (checkText (getParent pipe) targetPID) :=
  check_target rfl

/-- `check` comes back iff no row below its target is below itself, whatever the text
    of the pipe is; it then needs no more calls below each other than there are rows. -/
theorem check_ends_iff (name targetPID : Text) (pipe : Option Text) :
    ((∃ fuel out, check fuel [name, targetPID] pipe = some out) ↔
      (table (getParent pipe)).AcyclicBelow targetPID) ∧
    ∀ fuel out, check fuel [name, targetPID] pipe = some out →
      ∀ fuel', (getParent pipe).length < fuel' →
        check fuel' [name, targetPID] pipe = some out := by
  simp only [check_pair]
  refine ⟨⟨?_, ?_⟩, ?_⟩
  · rintro ⟨fuel, out, h⟩
    obtain ⟨descendants, hdescendants, -⟩ := Option.map_eq_some_iff.mp h
    exact Forest.exists_lists_iff.mp ⟨_, lists_of_get_c_processes hdescendants⟩
  · intro hacyclic
    obtain ⟨descendants, hlists⟩ := hacyclic.exists_lists
    have hget := get_c_processes_of_lists hlists (Nat.lt_succ_self _)
    exact ⟨_, _, congrArg (Option.map _) hget⟩
  · intro fuel out h fuel' hfuel'
    obtain ⟨descendants, hdescendants, rfl⟩ := Option.map_eq_some_iff.mp h
    have hsize := lt_of_le_of_lt (Forest.size_le (table (getParent pipe)) targetPID) hfuel'
    rw [get_c_processes_of_lists (lists_of_get_c_processes hdescendants) hsize, Option.map_some]

/-! ## What ps prints -/

/-- The text of `ps`: its header, a number for each process and its parent, and no line
    that is longer than the buffer. -/
structure IsPs (o : PsOutput) : Prop where
  header : tokens (o.header ++ ['\n']) = ["USER".toList, "PID".toList, "PPID".toList, ['S'],
    "STARTED".toList, "CMD\n".toList]
  numerals : ∀ l ∈ o.lines, IsNumeral l.pid ∧ IsNumeral l.ppid
  fits : ∀ t ∈ o.header :: o.lines.map PsLine.text, t.length ≤ 254

/-- The processes, each with its parent. -/
def psTable (lines : List PsLine) : Forest PsLine Text :=
  { key := PsLine.pid, parent := PsLine.ppid, rows := lines }

/-- The row that `getParent` makes of a line. -/
def PsLine.row (l : PsLine) : Parent := processBuffer (l.text ++ ['\n'])

/-- The row of the header. -/
def headerRow : Parent :=
  { user := "USER".toList, pid := "PID".toList, ppid := "PPID".toList, state := ['S'],
    start := "STARTED".toList, cmd := "CMD\n".toList, others := [] }

section Ps

variable {o : PsOutput} {target : Text}

theorem PsLine.row_pid (l : PsLine) : l.row.pid = l.pid := (processBuffer_text l).1

theorem PsLine.row_ppid (l : PsLine) : l.row.ppid = l.ppid := (processBuffer_text l).2.1

theorem IsPs.getParent (ho : IsPs o) :
    getParent (some o.text) = headerRow :: o.lines.map PsLine.row := by
  rw [getParent_of_fits ho.fits, processBuffer_eq ho.header]
  rfl

/-- No process has one of the words of the header as its number. -/
theorem headerRow_ne (h : IsNumeral target) : headerRow.pid ≠ target ∧ headerRow.ppid ≠ target := by
  constructor
  · rintro rfl
    exact absurd h (by decide)
  · rintro rfl
    exact absurd h (by decide)

/-- The scan of the rows is that of the processes. -/
theorem IsPs.lists (ho : IsPs o) (htarget : IsNumeral target) {below : List PsLine}
    (h : (psTable o.lines).Lists target o.lines below) :
    (table (headerRow :: o.lines.map PsLine.row)).Lists target
      (headerRow :: o.lines.map PsLine.row) (below.map PsLine.row) := by
  refine .skip (headerRow_ne htarget).2 ?_
  refine h.image [headerRow] PsLine.row_pid PsLine.row_ppid rfl (fun _ hr => hr) ?_
  rw [List.forall_mem_singleton]
  exact fun l hl => (headerRow_ne (ho.numerals l hl).1).2

end Ps

/-- When the lines fit into the buffer: `check` prints the state of its target, if
    that is a process, and then the line of each of its descendants, once, parents
    first, siblings in the order of `ps`. -/
theorem check_processes {o : PsOutput} (ho : IsPs o) (hpids : (psTable o.lines).Distinct)
    (hacyclic : (psTable o.lines).Acyclic) (name : Text) {target : Text}
    (htarget : IsNumeral target) :
    ∃ below, (psTable o.lines).Listing target below ∧
      ∀ fuel, o.lines.length + 1 < fuel → check fuel [name, target] (some o.text) =
        some (checkText (o.lines.map PsLine.row) target (below.map PsLine.row)) := by
  obtain ⟨below, hbelow⟩ := (hacyclic.below target).exists_lists
  have hlists := ho.lists htarget hbelow
  refine ⟨below, hbelow.listing hacyclic hpids, fun fuel hfuel => ?_⟩
  have hsize := Forest.size_le (table (headerRow :: o.lines.map PsLine.row)) target
  have hstate : getState (headerRow :: o.lines.map PsLine.row) target =
      getState (o.lines.map PsLine.row) target := by
    rw [getState, List.flatMap_cons, stateOf, if_neg (headerRow_ne htarget).1]
    rfl
  have hlen : (table (headerRow :: o.lines.map PsLine.row)).rows.length = o.lines.length + 1 := by
    simp [table]
  rw [check_pair, ho.getParent, get_c_processes_of_lists hlists (by omega), Option.map_some]
  unfold checkText
  rw [hstate]

/-- The line of a shell. -/
def shellLine : PsLine where
  user := ['u']
  pid := ['2']
  ppid := ['1']
  state := ['S']
  start := "10:00:00".toList
  command := "./msh379".toList
  padding := fun i => [0, 11, 6].getD i 0
  words := by decide
  inLine := by decide
  filled := by decide

/-- A shell, a job it has started, and a process of that job. -/
def shellJob : PsOutput where
  header := "USER        PID   PPID S  STARTED CMD".toList
  lines :=
    [shellLine, { shellLine with pid := ['4'], ppid := ['2'], words := by decide },
      { shellLine with pid := ['5'], ppid := ['4'], words := by decide }]
  inLine := by decide

theorem check_processes_shellJob :
    ∃ below, (psTable shellJob.lines).Listing ['2'] below ∧ ∀ fuel, 4 < fuel →
      check fuel ["check".toList, ['2']] (some shellJob.text) =
        some (checkText (shellJob.lines.map PsLine.row) ['2'] (below.map PsLine.row)) := by
  have hps : IsPs shellJob :=
    { header := by decide
      numerals := by decide
      fits := by decide }
  have hacyclic : (psTable shellJob.lines).Acyclic := by
    refine Forest.acyclic_of_rank (fun l : PsLine => (l.pid.headD '0').toNat) ?_
    show ∀ p ∈ shellJob.lines, ∀ r ∈ shellJob.lines, r.ppid = p.pid →
      (p.pid.headD '0').toNat < (r.pid.headD '0').toNat
    decide
  exact check_processes hps (by unfold Forest.Distinct; decide) hacyclic "check".toList
    (by decide)

end Cmput379.Msh379
