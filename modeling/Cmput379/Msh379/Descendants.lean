import Cmput379.Lib.Forest
import Cmput379.Msh379.Check

/-!
# The descendants of a process

The rows that `check` of `Assignment_1/msh379.cpp` prints for the processes below its
target. `get_c_processes` keeps no record of the rows it has been at, so it is the table
that has to end it.

* `lists_of_get_c_processes`, `exists_get_c_processes`: `get_c_processes` is the scan of
  `Forest.Lists`, and it comes back when no process descends from itself.
* `get_c_processes_lists`: it prints the descendants of its target, each once, parents
  first, siblings in the order of the table.
* `check_target`: so does `check`, after the state of the target.
-/

namespace Cmput379.Msh379

open Cmput379.Lib

variable {processes rows out : List Parent} {fuel : ℕ} {targetPID : Text}

/-- The rows, with what identifies a process and its parent. -/
def table (processes : List Parent) : Forest Parent Text :=
  { key := Parent.pid, parent := Parent.ppid, rows := processes }

/-! ## The scan -/

theorem lists_of_childLoop {calls : Text → Option (List Parent)}
    (hcalls : ∀ t out, calls t = some out → (table processes).Lists t processes out)
    (h : childLoop calls targetPID rows = some out) :
    (table processes).Lists targetPID rows out := by
  induction rows generalizing out with
  | nil =>
    obtain rfl : [] = out := Option.some.inj h
    exact .nil targetPID
  | cons currentProcess rest ih =>
    unfold childLoop at h
    by_cases hppid : currentProcess.ppid = targetPID
    · rw [if_pos hppid] at h
      obtain ⟨below, hbelow, h⟩ := Option.bind_eq_some_iff.mp h
      obtain ⟨others, hothers, h⟩ := Option.bind_eq_some_iff.mp h
      obtain rfl := Option.some.inj h
      exact .child hppid (hcalls _ _ hbelow) (ih hothers)
    · rw [if_neg hppid] at h
      exact .skip hppid (ih h)

theorem lists_of_get_c_processes (h : get_c_processes processes fuel targetPID = some out) :
    (table processes).Lists targetPID processes out := by
  induction fuel generalizing targetPID out with
  | zero => cases h
  | succ fuel ih => exact lists_of_childLoop (fun t out => ih) h

/-! ## The end of the recursion -/

theorem exists_childLoop {calls : Text → Option (List Parent)}
    (hcalls : ∀ r ∈ rows, r.ppid = targetPID → ∃ below, calls r.pid = some below) :
    ∃ out, childLoop calls targetPID rows = some out := by
  induction rows with
  | nil => exact ⟨[], rfl⟩
  | cons currentProcess rest ih =>
    rw [List.forall_mem_cons] at hcalls
    obtain ⟨others, hothers⟩ := ih hcalls.2
    unfold childLoop
    by_cases hppid : currentProcess.ppid = targetPID
    · obtain ⟨below, hbelow⟩ := hcalls.1 hppid
      exact ⟨_, by rw [if_pos hppid, hbelow, hothers]; rfl⟩
    · exact ⟨others, by rw [if_neg hppid, hothers]⟩

/-- Each call is for a process with fewer descendants. -/
theorem exists_get_c_processes (hacyclic : (table processes).Acyclic)
    (hfuel : (table processes).size targetPID < fuel) :
    ∃ out, get_c_processes processes fuel targetPID = some out := by
  induction fuel generalizing targetPID with
  | zero => exact absurd hfuel (Nat.not_lt_zero _)
  | succ fuel ih =>
    refine exists_childLoop fun r hr hppid => ih ?_
    have hless : (table processes).size r.pid < (table processes).size targetPID :=
      Forest.size_lt hacyclic hr hppid
    omega

/-! ## What is printed -/

/-- The rows printed for a target. -/
structure Listing (processes : List Parent) (targetPID : Text) (out : List Parent) : Prop where
  descendants : ∀ r, r ∈ out ↔ (table processes).Descendant targetPID r
  once : out.Nodup
  parents : ∀ p ∈ out, ∀ r ∈ out, r.ppid = p.pid → Before out p r
  siblings : ∀ a ∈ out, ∀ b ∈ out, a.ppid = b.ppid → Before processes a b → Before out a b

theorem listing_of_lists (hpids : (table processes).Distinct)
    (hacyclic : (table processes).Acyclic)
    (h : (table processes).Lists targetPID processes out) : Listing processes targetPID out where
  descendants _ := h.mem_iff
  once := h.nodup hacyclic hpids (fun _ hr => hr) (List.Nodup.of_map Parent.pid hpids)
  parents _ hp _ hr hppid := h.before_of_parent hp (h.mem_iff.mp hr).mem hppid
  siblings _ ha _ _ hppid hab := h.before_of_siblings ha hab hppid

/-- The depth that is allowed makes no difference beyond the number of rows. -/
theorem exists_get_c_processes_forall (targetPID : Text)
    (hacyclic : (table processes).Acyclic) :
    ∃ out, ∀ fuel, processes.length < fuel →
      get_c_processes processes fuel targetPID = some out := by
  have hends : ∀ fuel, processes.length < fuel →
      ∃ out, get_c_processes processes fuel targetPID = some out := fun fuel hfuel =>
    exists_get_c_processes hacyclic (lt_of_le_of_lt (Forest.size_le _ _) hfuel)
  obtain ⟨out, hout⟩ := hends (processes.length + 1) (Nat.lt_succ_self _)
  refine ⟨out, fun fuel hfuel => ?_⟩
  obtain ⟨out', hout'⟩ := hends fuel hfuel
  rw [hout', (lists_of_get_c_processes hout').unique (lists_of_get_c_processes hout)]

/-- With distinct pids and no cycles, the recursion ends with the listing of the target. -/
theorem get_c_processes_lists (processes : List Parent) (targetPID : Text)
    (hpids : (table processes).Distinct) (hacyclic : (table processes).Acyclic) :
    ∃ out, (∀ fuel, processes.length < fuel →
        get_c_processes processes fuel targetPID = some out) ∧
      Listing processes targetPID out := by
  obtain ⟨out, hout⟩ := exists_get_c_processes_forall targetPID hacyclic
  have hlists := lists_of_get_c_processes (hout (processes.length + 1) (Nat.lt_succ_self _))
  exact ⟨out, hout, listing_of_lists hpids hacyclic hlists⟩

/-- A shell, a job it has started with a job of its own, and the shell's second job. -/
def shellJobs : List Parent :=
  [{ Parent.new with pid := ['2'], ppid := ['1'] },
    { Parent.new with pid := ['4'], ppid := ['2'] },
    { Parent.new with pid := ['5'], ppid := ['4'] },
    { Parent.new with pid := ['3'], ppid := ['2'] }]

theorem shellJobs_acyclic : (table shellJobs).Acyclic := by
  apply Forest.acyclic_of_rank fun r : Parent => shellJobs.findIdx (· = r)
  decide

theorem get_c_processes_shellJobs :
    ∃ out, (∀ fuel, shellJobs.length < fuel → get_c_processes shellJobs fuel ['2'] = some out) ∧
      Listing shellJobs ['2'] out :=
  get_c_processes_lists shellJobs ['2'] (by unfold Forest.Distinct; decide) shellJobs_acyclic

/-! ## check -/

variable {tokens : List Text} {pipe : Option Text}

theorem check_target (htokens : tokens.length = 2) :
    check fuel tokens pipe =
      (get_c_processes (getParent pipe) fuel (tokens.getD 1 [])).map fun descendants =>
        (getState (getParent pipe) (tokens.getD 1 []) ++ descendants.map Printed.row).flatMap
          Printed.text := by
  unfold check
  rw [if_neg (by omega), if_neg (by omega)]
  dsimp only
  cases get_c_processes (getParent pipe) fuel (tokens.getD 1 []) <;> rfl

end Cmput379.Msh379
