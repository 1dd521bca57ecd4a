import Cmput379.Shell379.ProcessTable

/-!
# Signals and the status of jobs

What `jobs` of `Assignment_1/2022F` prints of a process, and which signals it has been
sent since it was entered into the table.

* `life`: whether a process has an entry, and runs, by the signals alone.
* `SignalsOk.functions`: the flags in the map say the same.
* `jobsOk`: `jobs` prints R or S by the last signal that was sent, and no process
  is sent a signal after `SIGKILL`.
-/

namespace Cmput379.Shell379

open Cmput379.Lib

/-! ## jobs -/

/-- The values of one line of `jobs`. -/
structure JobLine where
  index : ℕ
  pid : ℤ
  status : Char
  runTime : ℤ
  cmd : Text
  deriving DecidableEq

/-- The loop of `listJobs` (`Commands.cpp`, lines 55-75); `runTime` is what
    `getRunTime` reads from `ps`. -/
def Shell.listJobs (sh : Shell) (runTime : ℤ → ℤ) : List JobLine :=
  sh.processes.toList.zipIdx.map fun (item, index) =>
    { index := index
      pid := item.2.pid
      status := if item.2.running then 'R' else 'S'
      runTime := runTime item.2.pid
      cmd := item.2.cmd }

/-! ## The life of an entry -/

/-- Whether the process a signal is sent to runs then, if it is there at all. -/
def Signal.leaves : Signal → Option Bool
  | .SIGKILL => none
  | .SIGCONT => some true
  | .SIGSTOP => some false

/-- What an event means for the process `k`. -/
def Event.affect (k : ℤ) (status : Option Bool) : Event → Option Bool
  | .emplaced pid _ => if pid = k then some true else status
  | .signalled pid sig _ => if pid = k then sig.leaves else status

/-- Whether the process `k` runs after these events, if it has not been killed. -/
def life (k : ℤ) (events : List Event) : Option Bool := events.foldl (Event.affect k) none

@[simp]
theorem life_concat (k : ℤ) (events : List Event) (e : Event) :
    life k (events ++ [e]) = e.affect k (life k events) := by
  simp [life, List.foldl_append]

/-- Every signal goes to a process that has not been killed. -/
def OnlyLiving (events : List Event) : Prop :=
  ∀ front pid sig children rest, events = front ++ Event.signalled pid sig children :: rest →
    life pid front ≠ none

theorem OnlyLiving.concat {events : List Event} {e : Event} (h : OnlyLiving events)
    (he : ∀ pid sig children, e = .signalled pid sig children → life pid events ≠ none) :
    OnlyLiving (events ++ [e]) := by
  intro front pid sig children rest heq
  rcases List.eq_nil_or_concat rest with rfl | ⟨rest, e', rfl⟩
  · obtain ⟨rfl, hlast⟩ := List.append_inj' heq rfl
    exact he pid sig children (List.singleton_inj.mp hlast)
  · rw [List.concat_eq_append, ← List.cons_append, ← List.append_assoc] at heq
    exact h front pid sig children rest (List.append_inj' heq rfl).1

/-! ## The invariant -/

/-- The map says of its processes what the signals say. -/
structure SignalsOk (sh : Shell) : Prop where
  status : ∀ (k : ℤ) (t : Task), sh.processes[k]? = some t →
    life k sh.events = some t.running
  living : OnlyLiving sh.events

section Step

variable {sh sh' : Shell} {fork : Option ℤ}

/-- Entries are erased. -/
theorem SignalsOk.shrink (hsh : SignalsOk sh) (hevents : sh'.events = sh.events)
    (hentry : ∀ (k : ℤ) (t : Task), sh'.processes[k]? = some t → sh.processes[k]? = some t) :
    SignalsOk sh' where
  status k t ht := by
    rw [hevents]
    exact hsh.status k t (hentry k t ht)
  living := hevents ▸ hsh.living

theorem SignalsOk.erase (hsh : SignalsOk sh) (hevents : sh'.events = sh.events) {pid : ℤ}
    (hprocesses : sh'.processes = sh.processes.erase pid) : SignalsOk sh' := by
  refine hsh.shrink hevents fun k t ht => ?_
  rw [hprocesses, Std.TreeMap.getElem?_erase] at ht
  split_ifs at ht
  exact ht

/-- A signal is sent to a process in the map. -/
theorem SignalsOk.signal (hsh : SignalsOk sh) {pid : ℤ} (hpid : pid ∈ sh.processes) {sig : Signal}
    (hevents : sh'.events = (sh.sendSignal pid sig).events)
    (hself : ∀ t, sh'.processes[pid]? = some t → sig.leaves = some t.running)
    (hothers : ∀ (k : ℤ) (t : Task), k ≠ pid → sh'.processes[k]? = some t →
      sh.processes[k]? = some t) : SignalsOk sh' where
  status k t ht := by
    rw [hevents, Shell.sendSignal, life_concat, Event.affect]
    by_cases hk : pid = k
    · subst hk
      rw [if_pos rfl]
      exact hself t ht
    · rw [if_neg hk]
      exact hsh.status k t (hothers k t (Ne.symm hk) ht)
  living := by
    rw [hevents]
    refine hsh.living.concat ?_
    rintro _ _ _ ⟨⟩
    obtain ⟨t, ht⟩ := Option.isSome_iff_exists.mp (Std.TreeMap.mem_iff_isSome_getElem?.mp hpid)
    rw [hsh.status _ t ht]
    exact nofun

/-- The loop of `exit`: every process is alive when its turn comes. -/
theorem onlyLiving_foldl_sendSignal {items : List (ℤ × Task)} : ∀ {sh : Shell},
    OnlyLiving sh.events → items.Pairwise (fun a b => a.2.pid ≠ b.2.pid) →
    (∀ item ∈ items, life item.2.pid sh.events ≠ none) →
      OnlyLiving (items.foldl (fun sh item => sh.sendSignal item.2.pid .SIGKILL) sh).events := by
  induction items with
  | nil => exact fun hsh _ _ => hsh
  | cons item items ih =>
    intro sh hsh hdistinct hlife
    obtain ⟨hhead, htail⟩ := List.pairwise_cons.mp hdistinct
    rw [List.forall_mem_cons] at hlife
    rw [List.foldl_cons]
    refine ih (hsh.concat ?_) htail fun item' hitem' => ?_
    · rintro _ _ _ ⟨⟩
      exact hlife.1
    · rw [Shell.sendSignal, life_concat, Event.affect, if_neg (hhead item' hitem')]
      exact hlife.2 item' hitem'

theorem SignalsOk.emplace (hsh : SignalsOk sh) {pid : ℤ} {t : Task} (hfresh : pid ∉ sh.processes)
    (hrunning : t.running = true) : SignalsOk ((sh.forked pid).emplace pid t) where
  status k t' ht' := by
    show life k (sh.events ++ [_]) = _
    rw [life_concat, Event.affect]
    replace ht' : (sh.processes.insertIfNew pid t)[k]? = some t' := ht'
    rw [Std.TreeMap.getElem?_insertIfNew] at ht'
    by_cases hk : pid = k
    · subst hk
      rw [if_pos ⟨Std.ReflCmp.compare_self, hfresh⟩] at ht'
      cases ht'
      rw [if_pos rfl, hrunning]
    · rw [if_neg fun h => hk (Std.LawfulEqCmp.eq_of_compare h.1)] at ht'
      rw [if_neg hk]
      exact hsh.status k t' ht'
  living := hsh.living.concat nofun

theorem SignalsOk.setMode (hsh : SignalsOk sh) (mode : Mode) : SignalsOk { sh with mode := mode } :=
  ⟨hsh.status, hsh.living⟩

theorem SignalsOk.exit (hsh : SignalsOk sh) (htable : TableOk sh) : SignalsOk sh.exit := by
  have hentry : ∀ item ∈ sh.processes.toList, sh.processes[item.1]? = some item.2 :=
    fun _ hitem => Std.TreeMap.mem_toList_iff_getElem?_eq_some.mp hitem
  refine ⟨fun k t ht => by simp [Shell.exit] at ht, ?_⟩
  refine onlyLiving_foldl_sendSignal hsh.living ?_ fun item hitem => ?_
  · refine Std.TreeMap.distinct_keys_toList.imp_of_mem fun ha hb hne heq => hne ?_
    rw [htable.key _ _ (hentry _ ha), htable.key _ _ (hentry _ hb)] at heq
    rw [heq]
    exact Std.ReflCmp.compare_self
  · rw [htable.key _ _ (hentry item hitem), hsh.status _ _ (hentry item hitem)]
    exact nofun

theorem SignalsOk.kill (hsh : SignalsOk sh) {pid : ℤ} (hpid : pid ∈ sh.processes) : SignalsOk
    { sh.sendSignal pid .SIGKILL with processes := sh.processes.erase pid } := by
  refine hsh.signal hpid rfl (fun t ht => ?_) fun k t _ ht => ?_
  · rw [Std.TreeMap.getElem?_erase_self] at ht
    cases ht
  · rw [Std.TreeMap.getElem?_erase] at ht
    split_ifs at ht
    exact ht

/-- The flag of the entry follows the signal. -/
theorem SignalsOk.setRunning (hsh : SignalsOk sh) {pid : ℤ} (hpid : pid ∈ sh.processes)
    {sig : Signal} {running : Bool} (hsig : sig.leaves = some running) : SignalsOk
    { sh.sendSignal pid sig with
      processes := sh.processes.modify pid (Shell.setRunning running) } := by
  refine hsh.signal hpid rfl (fun t ht => ?_) fun k t hk ht => ?_
  · rw [Std.TreeMap.getElem?_modify_self] at ht
    obtain ⟨t', -, rfl⟩ := Option.map_eq_some_iff.mp ht
    exact hsig
  · rw [Std.TreeMap.getElem?_modify,
      if_neg fun h => hk (Std.LawfulEqCmp.eq_of_compare h).symm] at ht
    exact ht

theorem SignalsOk.withPid (hsh : SignalsOk sh) {tokens : List Text} {f : ℤ → Shell}
    (h : ∀ pid ∈ sh.processes, SignalsOk (f pid)) : SignalsOk (sh.withPid tokens f) := by
  unfold Shell.withPid
  split_ifs
  · exact hsh
  · cases tokens[1]?.bind stoi with
    | none => exact hsh.setMode .aborted
    | some pid =>
      dsimp only
      split_ifs with hmem
      · exact h pid hmem
      · exact hsh

theorem SignalsOk.run (hsh : SignalsOk sh) (htable : TableOk sh) (hfork : sh.ForkOk fork)
    (tokens : List Text) : SignalsOk (sh.run tokens fork) := by
  unfold Shell.run
  split_ifs
  · exact hsh
  · cases fork with
    | none => exact hsh.setMode .exited
    | some pid =>
      have hfresh : pid ∉ sh.processes := fun hmem => (hfork _ rfl).2 (htable.child pid hmem)
      have hemplaced := hsh.emplace hfresh (t := ⟨pid, Shell.cmdStr tokens, true⟩) rfl
      unfold Shell.record
      dsimp only
      split_ifs
      · exact hemplaced
      · exact hemplaced.setMode _

theorem SignalsOk.getRunTimes (hsh : SignalsOk sh) : SignalsOk (sh.getRunTimes fork) := by
  unfold Shell.getRunTimes
  split_ifs
  · exact hsh
  · exact hsh.setMode .aborted

theorem SignalsOk.sleep (hsh : SignalsOk sh) (tokens : List Text) :
    SignalsOk (sh.sleep tokens) := by
  unfold Shell.sleep
  split_ifs
  · exact hsh
  · cases tokens[1]?.bind stoi with
    | none => exact hsh.setMode .aborted
    | some _ => exact hsh

theorem SignalsOk.functions (hsh : SignalsOk sh) (htable : TableOk sh) (hfork : sh.ForkOk fork)
    (cmd : Text) : SignalsOk (sh.functions cmd fork) := by
  unfold Shell.functions
  refine iteInduction (fun _ => hsh) fun _ => ?_
  refine iteInduction (fun _ => ?_) fun _ => hsh
  cases words cmd with
  | nil => exact hsh.setMode .aborted
  | cons name args =>
    refine iteInduction (fun _ => hsh.exit htable) fun _ => ?_
    refine iteInduction (fun _ => hsh.getRunTimes) fun _ => ?_
    refine iteInduction (fun _ => hsh.withPid fun pid hpid => hsh.kill hpid) fun _ => ?_
    refine iteInduction (fun _ => hsh.withPid fun pid hpid => hsh.setRunning hpid rfl) fun _ => ?_
    refine iteInduction (fun _ => hsh.sleep _) fun _ => ?_
    refine iteInduction (fun _ => hsh.withPid fun pid hpid => hsh.setRunning hpid rfl) fun _ => ?_
    refine iteInduction (fun _ => hsh.withPid fun pid _ => hsh.setMode _) fun _ => ?_
    exact hsh.run htable hfork _

theorem SignalsOk.goOn (hsh : SignalsOk sh) (h : sh.goOn = some sh') : SignalsOk sh' := by
  have hwaited : ∀ {pid : ℤ} {reaped : Bool} {sh₁ : Shell}, sh.waitpid pid = some (reaped, sh₁) →
      sh₁.processes = sh.processes ∧ sh₁.events = sh.events := by
    intro pid reaped sh₁ hwait
    rcases waitpid_cases hwait with ⟨-, rfl⟩ | ⟨-, rfl⟩ <;> exact ⟨rfl, rfl⟩
  unfold Shell.goOn at h
  split at h
  next pid hmode =>
    obtain ⟨⟨reaped, sh₁⟩, hwait, rfl⟩ := Option.map_eq_some_iff.mp h
    obtain ⟨hprocesses, hevents⟩ := hwaited hwait
    exact hsh.erase hevents (congrArg (Std.TreeMap.erase · pid) hprocesses)
  next pid hmode =>
    obtain ⟨⟨reaped, sh₁⟩, hwait, rfl⟩ := Option.map_eq_some_iff.mp h
    obtain ⟨hprocesses, hevents⟩ := hwaited hwait
    cases reaped with
    | true => exact hsh.erase hevents (congrArg (Std.TreeMap.erase · pid) hprocesses)
    | false => exact hsh.shrink hevents fun _ _ ht => hprocesses ▸ ht
  next => cases h

end Step

/-! ## Runs -/

theorem signalsOk_of_step {sh sh' : Shell} {a : Action} (hsh : SignalsOk sh)
    (htable : TableOk sh) (h : step sh a = some sh') : SignalsOk sh' := by
  cases a with
  | line cmd fork =>
    simp only [step] at h
    split_ifs at h with hread
    cases h
    unfold Shell.turn
    split_ifs
    · exact hsh
    · exact hsh.functions htable hread.2 cmd
  | finish pid =>
    simp only [step] at h
    split_ifs at h
    cases h
    exact hsh.shrink rfl fun _ _ ht => ht
  | resume => exact hsh.goOn h

theorem signalsOk_of_reachable {sh : Shell} (h : system.Reachable sh) : SignalsOk sh := by
  refine (h.invariant (I := fun sh => TableOk sh ∧ SignalsOk sh) ?_ ?_).2
  · rintro _ rfl
    exact ⟨tableOk_initState, fun k t ht => by simp [Shell.initState] at ht, fun front pid sig
      children rest heq => by simp [Shell.initState] at heq⟩
  · exact fun _ _ _ _ hsh hstep =>
      ⟨tableOk_of_step hsh.1 hstep, signalsOk_of_step hsh.2 hsh.1 hstep⟩

/-- What `jobs` prints, against the signals that were sent. -/
structure JobsOk (sh : Shell) (runTime : ℤ → ℤ) : Prop where
  ascending : ((sh.listJobs runTime).map JobLine.pid).Pairwise (· < ·)
  status : ∀ line ∈ sh.listJobs runTime,
    life line.pid sh.events = some (decide (line.status = 'R'))
  children : ∀ line ∈ sh.listJobs runTime, line.pid ∈ sh.childPids
  living : OnlyLiving sh.events

/-- In every reachable state `jobs` lists children in the order of their pids, each with
    R or S by the last signal that it was sent, and no child is sent a signal after
    `SIGKILL`. -/
theorem jobsOk {sh : Shell} (h : system.Reachable sh) (runTime : ℤ → ℤ) : JobsOk sh runTime := by
  have htable := processTable h
  have hsh := signalsOk_of_reachable h
  have hentry : ∀ item ∈ sh.processes.toList, sh.processes[item.1]? = some item.2 :=
    fun _ hitem => Std.TreeMap.mem_toList_iff_getElem?_eq_some.mp hitem
  have hline : ∀ line ∈ sh.listJobs runTime, ∃ k t, sh.processes[k]? = some t ∧ t.pid = k ∧
      line.pid = k ∧ line.status = if t.running then 'R' else 'S' := by
    intro line hline
    obtain ⟨e, he, rfl⟩ := List.mem_map.mp hline
    have ht := hentry _ (List.mem_of_getElem? (List.mem_zipIdx_iff_getElem?.mp he))
    have hkey := htable.key _ _ ht
    exact ⟨e.1.1, e.1.2, ht, hkey, hkey, rfl⟩
  refine ⟨?_, ?_, ?_, hsh.living⟩
  · have hpids : (sh.listJobs runTime).map JobLine.pid =
        sh.processes.toList.map fun item => item.2.pid := by
      conv_rhs => rw [← List.zipIdx_map_fst 0 sh.processes.toList, List.map_map]
      rw [Shell.listJobs, List.map_map]
      rfl
    rw [hpids, List.pairwise_map]
    refine Std.TreeMap.ordered_keys_toList.imp_of_mem fun ha hb hlt => ?_
    rw [htable.key _ _ (hentry _ ha), htable.key _ _ (hentry _ hb)]
    exact Std.compare_eq_lt.mp hlt
  · intro line hmem
    obtain ⟨k, t, ht, -, hpid, hstatus⟩ := hline line hmem
    rw [hpid, hstatus, hsh.status k t ht]
    cases t.running <;> rfl
  · intro line hmem
    obtain ⟨k, t, ht, -, hpid, -⟩ := hline line hmem
    rw [hpid]
    exact htable.child k (Std.TreeMap.mem_iff_isSome_getElem?.mpr (by rw [ht]; rfl))

/-- Two jobs in the background, of which one is suspended. -/
def suspendOne : List Action :=
  [.line "sleep9 &".toList (some 9), .line "sleep7 &".toList (some 7),
    .line "suspend 7".toList none, .line "suspend 9".toList none, .line "resume 9".toList none]

theorem jobsOk_suspendOne : ∃ sh, system.exec Shell.initState suspendOne = some sh ∧
    sh.listJobs (fun _ => 3) = [⟨0, 7, 'S', 3, " sleep7 &".toList⟩,
      ⟨1, 9, 'R', 3, " sleep9 &".toList⟩] ∧ JobsOk sh fun _ => 3 := by
  have hrun : (system.exec Shell.initState suspendOne).map (·.listJobs fun _ => 3) =
      some [⟨0, 7, 'S', 3, " sleep7 &".toList⟩, ⟨1, 9, 'R', 3, " sleep9 &".toList⟩] := by
    decide +kernel
  obtain ⟨sh, hexec, hlist⟩ := Option.map_eq_some_iff.mp hrun
  exact ⟨sh, hexec, hlist, jobsOk (System.Reachable.of_exec rfl hexec) _⟩

end Cmput379.Shell379
