import Mathlib.Data.List.Perm.Basic
import Cmput379.Shell379.ProcessTable

/-!
# The process limit of shell379

`run` counts the entries of the map (lines 27-30 of `Process.cpp`), and so does
`listJobs` (line 77 of `Commands.cpp`). An entry leaves the map when the shell reaps or
kills its process, not when the process finishes.

* `size_eq_inTable`: the entries are the children that are in the map.
* `Counted.step`, `limitOk_of_run`: they are unfinished, as long as no background child
  finishes by itself.
* `limitOk_counterexample`: 32 children that have finished, and `run` refuses.
-/

namespace Cmput379.Shell379

open Cmput379.Lib

/-! ## Specification -/

namespace Shell

/-- `run` prints `More processes than allowed.` (lines 27-30). -/
def refuses (sh : Shell) : Bool := sh.processes.size ≥ MAX_PT_ENTRIES

/-- The number of active processes that `listJobs` prints. -/
def active (sh : Shell) : ℕ := sh.processes.size

/-- The children that have not finished. -/
def unfinished (sh : Shell) : List Child := sh.children.filter fun c => !c.finished

/-- The children with an entry in the map. -/
def inTable (sh : Shell) : List Child := sh.children.filter fun c => sh.processes.contains c.pid

end Shell

/-- When the shell reads a line: it refuses a command only if there are
    `MAX_PT_ENTRIES` children that have not finished, and counts as active exactly those
    in the map that have not. -/
def LimitOk (sh : Shell) : Prop :=
  sh.mode = .reading →
    (sh.refuses = true → MAX_PT_ENTRIES ≤ sh.unfinished.length) ∧
      sh.active = (sh.inTable.filter fun c => !c.finished).length

/-- A child with an entry finishes only while the shell waits for it. -/
def Awaited (sh : Shell) : Action → Prop
  | .finish pid => pid ∈ sh.processes → sh.mode = .foreground pid ∨ sh.mode = .waiting pid
  | _ => True

instance (sh : Shell) : (a : Action) → Decidable (Awaited sh a)
  | .finish pid => inferInstanceAs (Decidable (pid ∈ sh.processes → _ ∨ _))
  | .line .. => inferInstanceAs (Decidable True)
  | .resume => inferInstanceAs (Decidable True)

/-! ## The entries are children -/

section Count

variable {sh : Shell}

theorem size_eq_inTable (hsh : TableOk sh) (hnodup : sh.childPids.Nodup) :
    sh.processes.size = sh.inTable.length := by
  have hpids : (sh.inTable.map Child.pid).Nodup :=
    hnodup.sublist ((List.filter_sublist).map Child.pid)
  have hsame : ∀ pid, pid ∈ sh.processes.keys ↔ pid ∈ sh.inTable.map Child.pid := by
    intro pid
    rw [Std.TreeMap.mem_keys, List.mem_map]
    constructor
    · intro hpid
      obtain ⟨c, hc, rfl⟩ := List.mem_map.mp (hsh.child pid hpid)
      exact ⟨c, List.mem_filter.mpr ⟨hc, hpid⟩, rfl⟩
    · rintro ⟨c, hc, rfl⟩
      exact (List.mem_filter.mp hc).2
  have hperm : sh.processes.keys.Perm (sh.inTable.map Child.pid) :=
    (List.perm_ext_iff_of_nodup Std.TreeMap.nodup_keys hpids).mpr hsame
  rw [← Std.TreeMap.length_keys, hperm.length_eq, List.length_map]

end Count

/-! ## The invariant -/

/-- The children have different pids, and one that has finished and is in the map is the
    one the shell waits for. -/
structure Counted (sh : Shell) : Prop where
  table : TableOk sh
  nodup : sh.childPids.Nodup
  awaited : ∀ c ∈ sh.children, c.finished = true → c.pid ∈ sh.processes →
    sh.mode = .foreground c.pid ∨ sh.mode = .waiting c.pid

section Step

variable {sh sh' : Shell} {fork : Option ℤ}

/-- While the shell reads, no child in the map has finished. -/
theorem Counted.running (h : Counted sh) (hread : sh.mode = .reading) {c : Child}
    (hc : c ∈ sh.children) (hin : c.pid ∈ sh.processes) : c.finished = false := by
  by_contra hfin
  rw [Bool.not_eq_false] at hfin
  rcases h.awaited c hc hfin hin with hmode | hmode
  · exact Mode.noConfusion (hread.symm.trans hmode)
  · exact Mode.noConfusion (hread.symm.trans hmode)

theorem Counted.limitOk (h : Counted sh) : LimitOk sh := by
  intro hread
  have hsize := size_eq_inTable h.table h.nodup
  have hall : (sh.inTable.filter fun c => !c.finished) = sh.inTable := by
    refine List.filter_eq_self.mpr fun c hc => ?_
    obtain ⟨hmem, hin⟩ := List.mem_filter.mp hc
    simp [h.running hread hmem hin]
  refine ⟨fun hrefuses => ?_, by rw [hall]; exact hsize⟩
  have hfull : MAX_PT_ENTRIES ≤ sh.processes.size := of_decide_eq_true hrefuses
  have hsub : sh.inTable.length ≤ sh.unfinished.length := by
    rw [← hall]
    exact (List.filter_sublist.filter _).length_le
  omega

/-- A command that forks nothing and enters nothing. -/
theorem Counted.shrink (h : Counted sh) (hread : sh.mode = .reading) (htable : TableOk sh')
    (hchildren : sh'.children = sh.children)
    (hkeys : ∀ k ∈ sh'.processes, k ∈ sh.processes) : Counted sh' where
  table := htable
  nodup := by
    unfold Shell.childPids
    rw [hchildren]
    exact h.nodup
  awaited c hc hfin hin := by
    rw [hchildren] at hc
    have hrunning := h.running hread hc (hkeys c.pid hin)
    rw [hrunning] at hfin
    cases hfin

theorem children_foldl_sendSignal (items : List (ℤ × Task)) (sh : Shell) :
    (items.foldl (fun sh item => sh.sendSignal item.2.pid .SIGKILL) sh).children =
      sh.children := by
  induction items generalizing sh with
  | nil => rfl
  | cons item items ih =>
    rw [List.foldl_cons, ih]
    rfl

/-- The child that `run` forks is new and has not finished. -/
theorem Counted.record (h : Counted sh) (hread : sh.mode = .reading) {pid : ℤ}
    (hfork : sh.ForkOk (some pid)) {tokens : List Text} (htable : TableOk (sh.record tokens pid)) :
    Counted (sh.record tokens pid) := by
  have hchildren : (sh.record tokens pid).children = sh.children ++ [⟨pid, false⟩] := by
    unfold Shell.record
    dsimp only
    split_ifs <;> rfl
  have hkeys : ∀ k ∈ (sh.record tokens pid).processes, k = pid ∨ k ∈ sh.processes := by
    intro k hk
    have hinsert : k ∈ sh.processes.insertIfNew pid ⟨pid, Shell.cmdStr tokens, true⟩ := by
      unfold Shell.record at hk
      dsimp only at hk
      split_ifs at hk <;> exact hk
    rcases Std.TreeMap.mem_insertIfNew.mp hinsert with hk | hk
    · exact .inl (Std.LawfulEqCmp.eq_of_compare hk).symm
    · exact .inr hk
  obtain ⟨-, hfresh⟩ := hfork pid rfl
  refine ⟨htable, ?_, ?_⟩
  · unfold Shell.childPids
    rw [hchildren, List.map_append]
    refine List.nodup_append.mpr ⟨h.nodup, by simp, ?_⟩
    rintro a ha b hb rfl
    obtain rfl : a = pid := List.mem_singleton.mp hb
    exact hfresh ha
  · intro c hc hfin hin
    rw [hchildren, List.mem_append] at hc
    rcases hc with hc | hc
    · rcases hkeys c.pid hin with hpid | hold
      · exact absurd (hpid ▸ List.mem_map_of_mem hc) hfresh
      · have hrunning := h.running hread hc hold
        rw [hrunning] at hfin
        cases hfin
    · rw [List.mem_singleton.mp hc] at hfin
      cases hfin

theorem Counted.move (h : Counted sh) (hread : sh.mode = .reading) (hfork : sh.ForkOk fork)
    (hmove : Move sh fork sh') : Counted sh' := by
  have htable := h.table.move hfork hmove
  cases hmove with
  | idle => exact h
  | stop mode => exact h.shrink hread htable rfl fun k hk => hk
  | exit =>
    refine h.shrink hread htable (children_foldl_sendSignal _ sh) fun k hk => ?_
    have hempty : k ∈ (∅ : Processes) := hk
    simp at hempty
  | kill hmem =>
    exact h.shrink hread htable rfl fun k hk => (Std.TreeMap.mem_erase.mp hk).2
  | signal hmem sig running =>
    exact h.shrink hread htable rfl fun k hk => Std.TreeMap.mem_modify.mp hk
  | record tokens hpid hsize =>
    subst hpid
    exact h.record hread hfork htable

theorem Counted.finish (h : Counted sh) {pid : ℤ} (hwait : Awaited sh (.finish pid)) :
    Counted (sh.finish pid) := by
  have hmap : ∀ c' ∈ (sh.finish pid).children, ∃ c ∈ sh.children, c'.pid = c.pid ∧
      (c'.finished = true → c.finished = true ∨ c.pid = pid) := by
    intro c' hc'
    obtain ⟨c, hc, rfl⟩ := List.mem_map.mp hc'
    refine ⟨c, hc, ?_⟩
    split_ifs with hpid
    · exact ⟨rfl, fun _ => .inr hpid⟩
    · exact ⟨rfl, .inl⟩
  refine ⟨h.table.finish pid, ?_, ?_⟩
  · rw [childPids_finish]
    exact h.nodup
  · intro c' hc' hfin hin
    obtain ⟨c, hc, hpid, hfinished⟩ := hmap c' hc'
    rw [hpid] at hin ⊢
    rcases hfinished hfin with hold | rfl
    · exact h.awaited c hc hold hin
    · exact hwait hin

/-- What `waitpid` leaves when it does not block. -/
theorem waitpid_children {pid : ℤ} {reaped : Bool} (hwait : sh.waitpid pid = some (reaped, sh')) :
    sh'.children = sh.children.filter (·.pid ≠ pid) ∧ sh'.processes = sh.processes := by
  unfold Shell.waitpid at hwait
  split at hwait
  · rename_i hnone
    cases hwait
    refine ⟨(List.filter_eq_self.mpr fun c hc => ?_).symm, rfl⟩
    simpa using List.find?_eq_none.mp hnone c hc
  · split_ifs at hwait
    cases hwait
    exact ⟨rfl, rfl⟩

/-- The child that the shell has waited for is gone. -/
theorem Counted.reap (h : Counted sh) (pid : ℤ)
    (hmode : ∀ pid', sh.mode = .foreground pid' ∨ sh.mode = .waiting pid' → pid' = pid)
    (htable : TableOk sh') (hchildren : sh'.children = sh.children.filter (·.pid ≠ pid))
    (hkeys : ∀ k ∈ sh'.processes, k ∈ sh.processes) : Counted sh' where
  table := htable
  nodup := by
    unfold Shell.childPids
    rw [hchildren]
    exact h.nodup.sublist (List.filter_sublist.map Child.pid)
  awaited c hc hfin hin := by
    rw [hchildren] at hc
    obtain ⟨hmem, hne⟩ := List.mem_filter.mp hc
    have hpid := hmode c.pid (h.awaited c hmem hfin (hkeys c.pid hin))
    exact absurd hpid (of_decide_eq_true hne)

theorem Counted.goOn (h : Counted sh) (hgo : sh.goOn = some sh') : Counted sh' := by
  have htable := h.table.goOn hgo
  unfold Shell.goOn at hgo
  split at hgo
  · rename_i pid hmode
    obtain ⟨⟨reaped, sh₁⟩, hwait, rfl⟩ := Option.map_eq_some_iff.mp hgo
    obtain ⟨hchildren, hprocesses⟩ := waitpid_children hwait
    refine h.reap pid (fun pid' hpid' => ?_) htable hchildren fun k hk => ?_
    · rw [hmode] at hpid'
      exact Eq.symm (by simpa using hpid')
    · exact hprocesses ▸ (Std.TreeMap.mem_erase.mp hk).2
  · rename_i pid hmode
    obtain ⟨⟨reaped, sh₁⟩, hwait, rfl⟩ := Option.map_eq_some_iff.mp hgo
    obtain ⟨hchildren, hprocesses⟩ := waitpid_children hwait
    refine h.reap pid (fun pid' hpid' => ?_) htable ?_ fun k hk => ?_
    · rw [hmode] at hpid'
      exact Eq.symm (by simpa using hpid')
    · cases reaped <;> exact hchildren
    · cases reaped with
      | true => exact hprocesses ▸ (Std.TreeMap.mem_erase.mp hk).2
      | false => exact hprocesses ▸ hk
  · cases hgo

theorem Counted.step {a : Action} (h : Counted sh) (hwait : Awaited sh a)
    (hstep : step sh a = some sh') : Counted sh' := by
  cases a with
  | line cmd fork =>
    simp only [Shell379.step] at hstep
    split_ifs at hstep with hread
    cases hstep
    unfold Shell.turn
    split_ifs
    · exact h
    · exact h.move hread.1 hread.2 (Shell.move_of_functions cmd)
  | finish pid =>
    simp only [Shell379.step] at hstep
    split_ifs at hstep
    cases hstep
    exact h.finish hwait
  | resume => exact h.goOn hstep

end Step

/-! ## Runs -/

theorem counted_initState : Counted Shell.initState where
  table := tableOk_initState
  nodup := List.nodup_nil
  awaited c hc := by simp [Shell.initState] at hc

theorem limitOk_of_run {sh : Shell} {tr : List (Shell × Action)}
    (h : system.Run Shell.initState tr sh) (hwait : ∀ p ∈ tr, Awaited p.1 p.2) : LimitOk sh := by
  have hcounted : Counted sh := by
    induction h with
    | nil => exact counted_initState
    | snoc _ hstep ih =>
      have hfront := ih fun p hp => hwait p (List.mem_append_left _ hp)
      exact hfront.step (hwait (_, _) (List.mem_append_right _ (List.mem_singleton_self _))) hstep
  exact hcounted.limitOk

/-- Three jobs in the background, of which one is killed and one waited for; between them
    a command in the foreground. -/
def threeJobs : List Action :=
  [.line "sleep5 &".toList (some 7), .line "date".toList (some 8), .finish 8, .resume,
    .line "sleep6 &".toList (some 9), .line "suspend 7".toList none,
    .line "sleep7 &".toList (some 10), .line "kill 7".toList none, .finish 7,
    .line "wait 9".toList none, .finish 9, .resume]

/-- One job is left, and counted as active. -/
theorem limitOk_threeJobs : ∃ sh, system.exec Shell.initState threeJobs = some sh ∧
    sh.mode = .reading ∧ sh.active = 1 ∧ LimitOk sh := by
  have hrun : (system.exec Shell.initState threeJobs).map (fun sh =>
      decide (sh.mode = .reading ∧ sh.active = 1)) = some true := by
    decide +kernel
  have hwait : ∀ p ∈ system.trace Shell.initState threeJobs, Awaited p.1 p.2 := by
    decide +kernel
  obtain ⟨sh, hexec, hread, hactive⟩ := System.exists_of_exec hrun
  exact ⟨sh, hexec, hread, hactive, limitOk_of_run (System.Run.of_exec hexec) hwait⟩

/-- `MAX_PT_ENTRIES` background children, each of which finishes at once. -/
def manyFinished : List Action :=
  (List.range MAX_PT_ENTRIES).flatMap fun (i : ℕ) =>
    [.line "date &".toList (some (i + 1)), .finish (i + 1)]

/-- The table is full, and no child is left that has not finished. -/
theorem limitOk_counterexample : ∃ sh, system.Reachable sh ∧ ¬ LimitOk sh := by
  have hrun : (system.exec Shell.initState manyFinished).map
      (fun sh => decide (sh.mode = .reading ∧ sh.refuses = true ∧ sh.unfinished = [])) =
        some true := by
    decide +kernel
  obtain ⟨sh, hexec, hread, hrefuses, hnone⟩ := System.exists_of_exec hrun
  refine ⟨sh, .of_exec rfl hexec, fun h => ?_⟩
  have hle := (h hread).1 hrefuses
  rw [hnone] at hle
  exact absurd hle (by decide)

end Cmput379.Shell379
