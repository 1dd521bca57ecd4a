import Cmput379.Shell379.Shell

/-!
# The process table of shell379

* `TableOk.move`, `tableOk_of_reachable`: the keys of the map are the pids in its
  tasks, and all of them children that have not been reaped.
* `processTable`: then `emplace` never meets a key, and every signal goes to a child.
-/

namespace Cmput379.Shell379

open Cmput379.Lib

/-! ## Runs -/

/-- An input line, together with the pid that `fork` would return; a child finishes;
    or `waitpid` returns, and the command goes on. -/
inductive Action
  | line (cmd : Text) (fork : Option ℤ)
  | finish (pid : ℤ)
  | resume
  deriving DecidableEq

namespace Shell

/-- The kernel never gives a child the pid of one that has not been reaped. -/
def ForkOk (sh : Shell) (fork : Option ℤ) : Prop := ∀ pid ∈ fork, 0 < pid ∧ pid ∉ sh.childPids

instance (sh : Shell) (fork : Option ℤ) : Decidable (sh.ForkOk fork) :=
  inferInstanceAs (Decidable (∀ pid ∈ fork, 0 < pid ∧ pid ∉ sh.childPids))

/-- Child `pid` finishes. -/
def finish (sh : Shell) (pid : ℤ) : Shell :=
  { sh with children := sh.children.map fun c =>
      if c.pid = pid then { c with finished := true } else c }

/-- `waitpid` returns, and the entry is erased. -/
def goOn (sh : Shell) : Option Shell :=
  match sh.mode with
  | .foreground pid => (sh.waitpid pid).map fun (_, sh) => sh.finishRun pid
  | .waiting pid => (sh.waitpid pid).map fun (reaped, sh) => sh.finishWait pid reaped
  | _ => none

end Shell

def step (sh : Shell) : Action → Option Shell
  | .line cmd fork =>
    if sh.mode = .reading ∧ sh.ForkOk fork then some (sh.turn cmd fork) else none
  | .finish pid => if pid ∈ sh.childPids then some (sh.finish pid) else none
  | .resume => sh.goOn

/-- The original shell process. -/
def system : System Shell Action where
  init sh := sh = Shell.initState
  step := step

/-! ## The invariant -/

/-- What the kernel and the map know of each other. -/
structure TableOk (sh : Shell) : Prop where
  key : ∀ (k : ℤ) (t : Task), sh.processes[k]? = some t → t.pid = k
  child : ∀ k ∈ sh.processes, k ∈ sh.childPids
  size : sh.processes.size ≤ MAX_PT_ENTRIES
  emplaced : ∀ pid keys, Event.emplaced pid keys ∈ sh.events → pid ∉ keys
  signalled : ∀ pid sig children, Event.signalled pid sig children ∈ sh.events → pid ∈ children

section Step

variable {sh sh' : Shell} {fork : Option ℤ}

/-- A smaller map over the same children. -/
theorem TableOk.shrink (hsh : TableOk sh) (hchildren : sh'.children = sh.children)
    (hevents : sh'.events = sh.events) (hsize : sh'.processes.size ≤ sh.processes.size)
    (hentry : ∀ (k : ℤ) (t : Task), sh'.processes[k]? = some t →
      ∃ t' : Task, sh.processes[k]? = some t' ∧ t'.pid = t.pid) : TableOk sh' where
  key k t ht := by
    obtain ⟨t', ht', hpid⟩ := hentry k t ht
    rw [← hpid, hsh.key k t' ht']
  child k hk := by
    obtain ⟨t', ht', -⟩ := hentry k _ (Std.TreeMap.getElem?_eq_some_getElem hk)
    unfold Shell.childPids
    rw [hchildren]
    exact hsh.child k (Std.TreeMap.mem_iff_isSome_getElem?.mpr (by rw [ht']; rfl))
  size := hsize.trans hsh.size
  emplaced := by
    rw [hevents]
    exact hsh.emplaced
  signalled := by
    rw [hevents]
    exact hsh.signalled

theorem TableOk.sendSignal (hsh : TableOk sh) {pid : ℤ} (hpid : pid ∈ sh.childPids)
    (sig : Signal) : TableOk (sh.sendSignal pid sig) where
  key := hsh.key
  child := hsh.child
  size := hsh.size
  emplaced pid' keys he := by
    rcases List.mem_append.mp he with he | he
    · exact hsh.emplaced pid' keys he
    · simp at he
  signalled pid' sig' children he := by
    rcases List.mem_append.mp he with he | he
    · exact hsh.signalled pid' sig' children he
    · obtain ⟨rfl, -, rfl⟩ := Event.signalled.inj (List.mem_singleton.mp he)
      exact hpid

theorem TableOk.erase (hsh : TableOk sh) (pid : ℤ) :
    TableOk { sh with processes := sh.processes.erase pid } := by
  refine hsh.shrink rfl rfl Std.TreeMap.size_erase_le ?_
  intro k t ht
  rw [Std.TreeMap.getElem?_erase] at ht
  split_ifs at ht
  exact ⟨t, ht, rfl⟩

theorem TableOk.clear (hsh : TableOk sh) : TableOk { sh with processes := ∅ } := by
  refine hsh.shrink rfl rfl (Nat.zero_le _) ?_
  intro k t ht
  simp at ht

theorem TableOk.setRunning (hsh : TableOk sh) (pid : ℤ) (running : Bool) :
    TableOk { sh with processes := sh.processes.modify pid (Shell.setRunning running) } := by
  refine hsh.shrink rfl rfl (le_of_eq Std.TreeMap.size_modify) ?_
  intro k t ht
  rw [Std.TreeMap.getElem?_modify] at ht
  split_ifs at ht with hk
  · obtain rfl := Std.LawfulEqCmp.eq_of_compare hk
    obtain ⟨t', ht', rfl⟩ := Option.map_eq_some_iff.mp ht
    exact ⟨t', ht', rfl⟩
  · exact ⟨t, ht, rfl⟩

/-- The loop of `exit`: every entry's pid is a child when it is signalled. -/
theorem TableOk.foldl_sendSignal {items : List (ℤ × Task)} : ∀ {sh : Shell}, TableOk sh →
    (∀ item ∈ items, item.2.pid ∈ sh.childPids) →
      TableOk (items.foldl (fun sh item => sh.sendSignal item.2.pid .SIGKILL) sh) := by
  induction items with
  | nil => exact fun hsh _ => hsh
  | cons item items ih =>
    intro sh hsh hitems
    rw [List.foldl_cons]
    apply ih (hsh.sendSignal (hitems item (by simp)) .SIGKILL)
    exact fun item' hitem' => hitems item' (List.mem_cons_of_mem _ hitem')

/-- A fresh child is entered: no key has its pid, since every key is a child. -/
theorem TableOk.emplace (hsh : TableOk sh) {pid : ℤ} {t : Task}
    (hfresh : pid ∉ sh.childPids) (hpid : t.pid = pid)
    (hsize : sh.processes.size < MAX_PT_ENTRIES) : TableOk ((sh.forked pid).emplace pid t) where
  key k t' ht' := by
    replace ht' : (sh.processes.insertIfNew pid t)[k]? = some t' := ht'
    rw [Std.TreeMap.getElem?_insertIfNew] at ht'
    split_ifs at ht' with hk
    · obtain rfl := Std.LawfulEqCmp.eq_of_compare hk.1
      cases ht'
      exact hpid
    · exact hsh.key k t' ht'
  child k hk := by
    replace hk : k ∈ sh.processes.insertIfNew pid t := hk
    show k ∈ (sh.children ++ [_]).map Child.pid
    rw [List.map_append, List.mem_append]
    rcases Std.TreeMap.mem_insertIfNew.mp hk with hk | hk
    · obtain rfl := Std.LawfulEqCmp.eq_of_compare hk
      exact .inr (List.mem_singleton.mpr rfl)
    · exact .inl (hsh.child k hk)
  size := Nat.le_trans Std.TreeMap.size_insertIfNew_le hsize
  emplaced pid' keys he := by
    rcases List.mem_append.mp he with he | he
    · exact hsh.emplaced pid' keys he
    · obtain ⟨rfl, rfl⟩ := Event.emplaced.inj (List.mem_singleton.mp he)
      intro hmem
      exact hfresh (hsh.child pid' (Std.TreeMap.mem_keys.mp hmem))
  signalled pid' sig children he := by
    rcases List.mem_append.mp he with he | he
    · exact hsh.signalled pid' sig children he
    · simp at he

theorem TableOk.setMode (hsh : TableOk sh) (mode : Mode) : TableOk { sh with mode := mode } :=
  ⟨hsh.key, hsh.child, hsh.size, hsh.emplaced, hsh.signalled⟩

theorem TableOk.move (hsh : TableOk sh) (hfork : sh.ForkOk fork) (h : Move sh fork sh') :
    TableOk sh' := by
  cases h with
  | idle => exact hsh
  | stop mode => exact hsh.setMode mode
  | exit =>
    have hall : ∀ item ∈ sh.processes.toList, item.2.pid ∈ sh.childPids := by
      rintro ⟨k, t⟩ hitem
      have ht := Std.TreeMap.mem_toList_iff_getElem?_eq_some.mp hitem
      show t.pid ∈ sh.childPids
      rw [hsh.key k t ht]
      exact hsh.child k (Std.TreeMap.mem_iff_isSome_getElem?.mpr (by rw [ht]; rfl))
    exact ((hsh.foldl_sendSignal hall).clear).setMode .exited
  | kill hmem => exact (hsh.sendSignal (hsh.child _ hmem) .SIGKILL).erase _
  | signal hmem sig running => exact (hsh.sendSignal (hsh.child _ hmem) sig).setRunning _ running
  | record tokens hpid hsize =>
    subst hpid
    have hemplaced := hsh.emplace (hfork _ rfl).2 (t := ⟨_, Shell.cmdStr tokens, true⟩) rfl hsize
    unfold Shell.record
    dsimp only
    split_ifs
    · exact hemplaced
    · exact hemplaced.setMode _

theorem childPids_finish (sh : Shell) (pid : ℤ) : (sh.finish pid).childPids = sh.childPids := by
  unfold Shell.finish Shell.childPids
  rw [List.map_map]
  apply List.map_congr_left
  intro c _
  show (if c.pid = pid then { c with finished := true } else c).pid = c.pid
  split_ifs <;> rfl

theorem TableOk.finish (hsh : TableOk sh) (pid : ℤ) : TableOk (sh.finish pid) := by
  refine ⟨hsh.key, ?_, hsh.size, hsh.emplaced, hsh.signalled⟩
  rw [childPids_finish]
  exact hsh.child

/-- The reaped child is no longer in the map. -/
theorem TableOk.reap (hsh : TableOk sh) (pid : ℤ) :
    TableOk { sh with
      children := sh.children.filter (·.pid ≠ pid), processes := sh.processes.erase pid } := by
  have herase := hsh.erase pid
  refine ⟨herase.key, ?_, herase.size, hsh.emplaced, hsh.signalled⟩
  intro k hk
  obtain ⟨hne, hmem⟩ := Std.TreeMap.mem_erase.mp hk
  obtain ⟨c, hc, rfl⟩ := List.mem_map.mp (hsh.child k hmem)
  refine List.mem_map.mpr ⟨c, List.mem_filter.mpr ⟨hc, ?_⟩, rfl⟩
  rw [decide_eq_true_eq]
  rintro rfl
  exact hne Std.ReflCmp.compare_self

/-- What `waitpid` can return. -/
theorem waitpid_cases {pid : ℤ} {reaped : Bool} (h : sh.waitpid pid = some (reaped, sh')) :
    (reaped = false ∧ sh' = sh) ∨
      (reaped = true ∧ sh' = { sh with children := sh.children.filter (·.pid ≠ pid) }) := by
  unfold Shell.waitpid at h
  split at h
  · cases h
    exact .inl ⟨rfl, rfl⟩
  · split_ifs at h
    cases h
    exact .inr ⟨rfl, rfl⟩

theorem TableOk.goOn (hsh : TableOk sh) (h : sh.goOn = some sh') : TableOk sh' := by
  unfold Shell.goOn at h
  split at h
  · rename_i pid hmode
    obtain ⟨⟨reaped, sh₁⟩, hwait, rfl⟩ := Option.map_eq_some_iff.mp h
    rcases waitpid_cases hwait with ⟨-, rfl⟩ | ⟨-, rfl⟩
    · exact (hsh.erase pid).setMode .reading
    · exact (hsh.reap pid).setMode .reading
  · rename_i pid hmode
    obtain ⟨⟨reaped, sh₁⟩, hwait, rfl⟩ := Option.map_eq_some_iff.mp h
    rcases waitpid_cases hwait with ⟨rfl, rfl⟩ | ⟨rfl, rfl⟩
    · exact hsh.setMode .reading
    · exact (hsh.reap pid).setMode .reading
  · cases h

end Step

/-! ## Runs -/

theorem tableOk_initState : TableOk Shell.initState where
  key k t ht := by simp [Shell.initState] at ht
  child k hk := by simp [Shell.initState] at hk
  size := Nat.zero_le _
  emplaced pid keys he := by simp [Shell.initState] at he
  signalled pid sig children he := by simp [Shell.initState] at he

theorem tableOk_of_step {sh sh' : Shell} {a : Action} (hsh : TableOk sh)
    (h : step sh a = some sh') : TableOk sh' := by
  cases a with
  | line cmd fork =>
    simp only [step] at h
    split_ifs at h with hread
    cases h
    unfold Shell.turn
    split_ifs
    · exact hsh
    · exact hsh.move hread.2 (Shell.move_of_functions cmd)
  | finish pid =>
    simp only [step] at h
    split_ifs at h
    cases h
    exact hsh.finish pid
  | resume => exact hsh.goOn h

/-- For every sequence of input lines and every schedule of the children. -/
theorem processTable {sh : Shell} (h : system.Reachable sh) : TableOk sh := by
  refine h.invariant ?_ ?_
  · rintro _ rfl
    exact tableOk_initState
  · exact fun _ _ _ _ hsh hstep => tableOk_of_step hsh hstep

/-- A background child that finishes before it is killed, and a foreground one. -/
def killFinished : List Action :=
  [.line "sleep5 &".toList (some 7), .finish 7, .line "suspend 7".toList none,
    .line "kill 7".toList none, .line "date".toList (some 8), .finish 8, .resume]

theorem processTable_killFinished : ∃ sh, system.exec Shell.initState killFinished = some sh ∧
    sh.childPids = [7] ∧ sh.processes.size = 0 ∧ sh.events.length = 4 ∧ TableOk sh := by
  have hrun : (system.exec Shell.initState killFinished).map
      (fun sh => (sh.childPids, sh.processes.size, sh.events.length)) = some ([7], 0, 4) := by
    decide +kernel
  obtain ⟨sh, hexec, hview⟩ := Option.map_eq_some_iff.mp hrun
  simp only [Prod.mk.injEq] at hview
  obtain ⟨hpids, hsize, hevents⟩ := hview
  exact ⟨sh, hexec, hpids, hsize, hevents, processTable (System.Reachable.of_exec rfl hexec)⟩

end Cmput379.Shell379
