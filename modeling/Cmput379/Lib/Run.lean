import Mathlib.Data.List.Basic
import Mathlib.Tactic.TypeStar

/-!
# Labelled transition systems

A system is an initial predicate and a partial step function: the label
carries every choice the environment makes (which process moves, which
descriptor is ready, what the clock says), so that a step is a function of the
state and the label.

* `System.Run`: a finite run together with the steps it took.
* `System.Reachable.invariant`: what holds initially and is kept by every step
  holds in every reachable state.
* `System.Reachable.map`: refinement mappings.
* `System.Leads`: what can still happen.
* `System.Path`: runs that do not end.
-/

namespace Cmput379.Lib

/-- A transition system with states `σ` and labels `α`; `step s a = none` when
    the step `a` is not enabled in `s`. -/
structure System (σ α : Type*) where
  init : σ → Prop
  step : σ → α → Option σ

namespace System

variable {σ α : Type*} (M : System σ α)

/-- `M.Run s tr t`: a run from `s` to `t`; `tr` lists the state and the label
    of each of its steps. -/
inductive Run (s : σ) : List (σ × α) → σ → Prop
  | nil : Run s [] s
  | snoc {tr : List (σ × α)} {t u : σ} {a : α} :
      Run s tr t → M.step t a = some u → Run s (tr ++ [(t, a)]) u

/-- The states a run can end in. -/
def Reachable (t : σ) : Prop := ∃ s tr, M.init s ∧ M.Run s tr t

/-- Some run leads from `s` to `t`. -/
def Leads (s t : σ) : Prop := ∃ tr, M.Run s tr t

/-- The state after the steps `as`, when each is enabled. -/
def exec (s : σ) : List α → Option σ
  | [] => some s
  | a :: as => (M.step s a).bind fun t => exec t as

/-- The steps taken by `exec`. -/
def trace (s : σ) : List α → List (σ × α)
  | [] => []
  | a :: as =>
    match M.step s a with
    | none => []
    | some t => (s, a) :: trace t as

/-- A run that does not end. -/
structure Path where
  state : ℕ → σ
  act : ℕ → α
  start : M.init (state 0)
  next : ∀ i, M.step (state i) (act i) = some (state (i + 1))

variable {M}

theorem Run.cons {s t u : σ} {a : α} {tr : List (σ × α)} (h : M.step s a = some t)
    (hr : M.Run t tr u) : M.Run s ((s, a) :: tr) u := by
  induction hr with
  | nil => simpa using Run.snoc .nil h
  | snoc _ hs ih => exact Run.snoc ih hs

theorem Run.of_exec {s t : σ} {as : List α} (h : M.exec s as = some t) :
    M.Run s (M.trace s as) t := by
  induction as generalizing s with
  | nil =>
    cases h
    exact .nil
  | cons a as ih =>
    cases hs : M.step s a with
    | none => simp [exec, hs] at h
    | some u =>
      simp only [exec, hs, Option.bind_some] at h
      simp only [trace, hs]
      exact Run.cons hs (ih h)

theorem mem_of_mem_trace {s : σ} {as : List α} {p : σ × α} (hp : p ∈ M.trace s as) :
    p.2 ∈ as := by
  induction as generalizing s with
  | nil => cases hp
  | cons a as ih =>
    cases hs : M.step s a with
    | none => simp [trace, hs] at hp
    | some t =>
      simp only [trace, hs, List.mem_cons] at hp
      rcases hp with rfl | hp
      · exact List.mem_cons_self
      · exact List.mem_cons_of_mem _ (ih hp)

/-- Every step of a run is taken from a state that the run has been in. -/
theorem Run.of_mem {s t : σ} {tr : List (σ × α)} (h : M.Run s tr t) {p : σ × α} (hp : p ∈ tr) :
    ∃ tr' u, M.Run s tr' p.1 ∧ M.step p.1 p.2 = some u := by
  induction h with
  | nil => cases hp
  | snoc hrun hstep ih =>
    rcases List.mem_append.mp hp with hp | hp
    · exact ih hp
    · obtain rfl := List.mem_singleton.mp hp
      exact ⟨_, _, hrun, hstep⟩

/-- The part of a run before one of its steps. -/
theorem Run.of_append {s t : σ} {front rest : List (σ × α)} {p : σ × α}
    (h : M.Run s (front ++ p :: rest) t) : M.Run s front p.1 := by
  generalize htr : front ++ p :: rest = tr at h
  induction h generalizing front rest with
  | nil => simp at htr
  | snoc hrun hstep ih =>
    rcases List.eq_nil_or_concat rest with rfl | ⟨rest, q, rfl⟩
    · obtain ⟨rfl, hp⟩ := List.append_inj' htr rfl
      obtain rfl := List.singleton_inj.mp hp
      exact hrun
    · rw [List.concat_eq_append, ← List.cons_append, ← List.append_assoc] at htr
      exact ih (List.append_inj' htr rfl).1

/-- A run that is evaluated. -/
theorem exists_of_exec {s : σ} {as : List α} {P : σ → Prop} [DecidablePred P]
    (h : (M.exec s as).map (fun t => decide (P t)) = some true) :
    ∃ t, M.exec s as = some t ∧ P t := by
  obtain ⟨t, hexec, hP⟩ := Option.map_eq_some_iff.mp h
  exact ⟨t, hexec, of_decide_eq_true hP⟩

theorem exec_append {s t : σ} {as : List α} (h : M.exec s as = some t) (bs : List α) :
    M.exec s (as ++ bs) = M.exec t bs := by
  induction as generalizing s with
  | nil =>
    cases h
    rfl
  | cons a as ih =>
    cases hs : M.step s a with
    | none => simp [exec, hs] at h
    | some u =>
      simp only [exec, hs, Option.bind_some, List.cons_append] at h ⊢
      exact ih h

theorem Leads.refl (s : σ) : M.Leads s s := ⟨[], .nil⟩

theorem Leads.of_step {s t : σ} {a : α} (h : M.step s a = some t) : M.Leads s t :=
  ⟨_, .snoc .nil h⟩

theorem Leads.trans {s t u : σ} (hst : M.Leads s t) (htu : M.Leads t u) : M.Leads s u := by
  obtain ⟨tr, hr⟩ := htu
  induction hr with
  | nil => exact hst
  | snoc _ hstep ih =>
    obtain ⟨tr', hr'⟩ := ih
    exact ⟨_, .snoc hr' hstep⟩

/-- What every step keeps, every run keeps. -/
theorem Leads.invariant {I : σ → Prop} (h1 : ∀ s a t, I s → M.step s a = some t → I t) {s t : σ}
    (h : M.Leads s t) (hs : I s) : I t := by
  obtain ⟨tr, hr⟩ := h
  induction hr with
  | nil => exact hs
  | snoc _ hstep ih => exact h1 _ _ _ ih hstep

theorem Reachable.of_init {s : σ} (h : M.init s) : M.Reachable s := ⟨s, [], h, .nil⟩

theorem Reachable.step {s t : σ} {a : α} (h : M.Reachable s) (hs : M.step s a = some t) :
    M.Reachable t := by
  obtain ⟨s₀, tr, h0, hr⟩ := h
  exact ⟨s₀, _, h0, .snoc hr hs⟩

theorem Reachable.run {s t : σ} {tr : List (σ × α)} (h : M.Reachable s) (hr : M.Run s tr t) :
    M.Reachable t := by
  induction hr with
  | nil => exact h
  | snoc _ hs ih => exact ih.step hs

theorem Reachable.leads {s t : σ} (h : M.Reachable s) (hst : M.Leads s t) : M.Reachable t := by
  obtain ⟨tr, hr⟩ := hst
  exact h.run hr

theorem Reachable.of_exec {s t : σ} {as : List α} (h0 : M.init s) (h : M.exec s as = some t) :
    M.Reachable t :=
  ⟨s, _, h0, .of_exec h⟩

theorem Path.reachable (p : M.Path) (i : ℕ) : M.Reachable (p.state i) := by
  induction i with
  | zero => exact .of_init p.start
  | succ i ih => exact ih.step (p.next i)

/-- What every step keeps stays. -/
theorem Path.invariant {I : σ → Prop} (h1 : ∀ s a t, I s → M.step s a = some t → I t)
    (p : M.Path) {i j : ℕ} (hij : i ≤ j) (hi : I (p.state i)) : I (p.state j) := by
  induction hij with
  | refl => exact hi
  | step _ ih => exact h1 _ _ _ ih (p.next _)

/-- What every initial state has and every step from a reachable state keeps
    holds in every reachable state. -/
theorem Reachable.invariant {I : σ → Prop} (h0 : ∀ s, M.init s → I s)
    (h1 : ∀ s a t, M.Reachable s → I s → M.step s a = some t → I t) {t : σ}
    (h : M.Reachable t) : I t := by
  obtain ⟨s, tr, hs, hr⟩ := h
  have hboth : M.Reachable t ∧ I t := by
    induction hr with
    | nil => exact ⟨.of_init hs, h0 _ hs⟩
    | snoc _ hstep ih => exact ⟨ih.1.step hstep, h1 _ _ _ ih.1 ih.2 hstep⟩
  exact hboth.2

/-- A map that takes initial states to initial states, and every step from a
    reachable state to a step or to no step at all, takes reachable states to
    reachable states. -/
theorem Reachable.map {σ' α' : Type*} {M' : System σ' α'} {f : σ → σ'}
    (h0 : ∀ s, M.init s → M'.init (f s))
    (h1 : ∀ s a t, M.Reachable s → M.step s a = some t →
      f t = f s ∨ ∃ b, M'.step (f s) b = some (f t)) {t : σ} (h : M.Reachable t) :
    M'.Reachable (f t) := by
  refine Reachable.invariant (I := fun s => M'.Reachable (f s)) ?_ ?_ h
  · exact fun s hs => .of_init (h0 s hs)
  intro s a t hs hf hstep
  rcases h1 s a t hs hstep with heq | ⟨b, hb⟩
  · rw [heq]
    exact hf
  · exact hf.step hb

end System

end Cmput379.Lib
