import Mathlib.Algebra.BigOperators.Finprod
import Mathlib.Algebra.Order.Ring.Nat
import Cmput379.Lib.Run

/-!
# How long a run is, and where it can go

A measure of the states bounds the runs of a system in which every step lowers
it. Some steps may raise it (`p`), each by at most `K`: the environment chooses
how often they happen, and the bound counts them.

* `System.Run.length_le`: the length of a run.
* `System.Path.often`: a run that does not end takes such steps for ever.
* `System.Run.response`: what happens after enough steps of one kind.
* `System.exists_leads`: when every state that is no goal can come closer to
  one, every state can reach one.
* `finsum_add_of_eq`: a measure that is a sum over the processes, when one of
  them has moved.
-/

namespace Cmput379.Lib

namespace System

variable {σ α : Type*} {M : System σ α}

/-- A step lowers `μ`, unless `p` allows it to raise `μ` by up to `K`. -/
def Lowers (M : System σ α) (μ : σ → ℕ) (p : σ × α → Bool) (K : ℕ) : Prop :=
  ∀ s a t, M.Reachable s → M.step s a = some t → μ t < μ s ∨ p (s, a) = true ∧ μ t ≤ μ s + K

/-- The steps of a run that `p` allows. -/
def allowed (p : σ × α → Bool) (tr : List (σ × α)) : ℕ := tr.countP p

theorem allowed_snoc (p : σ × α → Bool) (tr : List (σ × α)) (s : σ) (a : α) :
    allowed p (tr ++ [(s, a)]) = allowed p tr + if p (s, a) then 1 else 0 := by
  simp [allowed, List.countP_append, List.countP_singleton]

theorem Run.length_add_le {μ : σ → ℕ} {p : σ × α → Bool} {K : ℕ} (hμ : M.Lowers μ p K) {s t : σ}
    {tr : List (σ × α)} (hs : M.Reachable s) (h : M.Run s tr t) :
    tr.length + μ t ≤ μ s + (K + 1) * allowed p tr := by
  induction h with
  | nil => simp [allowed]
  | @snoc tr t u a hrun hstep ih =>
    rw [allowed_snoc, List.length_append, List.length_singleton]
    rcases hμ t a u (hs.run hrun) hstep with hlt | ⟨hp, hle⟩
    · have hmono : (K + 1) * allowed p tr ≤ (K + 1) * (allowed p tr + if p (t, a) then 1 else 0) :=
        Nat.mul_le_mul_left _ (Nat.le_add_right _ _)
      omega
    · rw [if_pos hp, Nat.mul_add, Nat.mul_one]
      omega

/-- A run is no longer than the measure of its first state, and `K + 1` more
    for each step that may raise the measure. -/
theorem Run.length_le {μ : σ → ℕ} {p : σ × α → Bool} {K : ℕ} (hμ : M.Lowers μ p K) {s t : σ}
    {tr : List (σ × α)} (hs : M.Reachable s) (h : M.Run s tr t) :
    tr.length ≤ μ s + (K + 1) * allowed p tr :=
  (Nat.le_add_right _ _).trans (Run.length_add_le hμ hs h)

/-- A run that does not end takes steps that `p` allows again and again. -/
theorem Path.often {μ : σ → ℕ} {p : σ × α → Bool} {K : ℕ} (hμ : M.Lowers μ p K) (w : M.Path)
    (i : ℕ) : ∃ j ≥ i, p (w.state j, w.act j) = true := by
  by_contra hnone
  have hlower : ∀ k, μ (w.state (i + k)) + k ≤ μ (w.state i) := by
    intro k
    induction k with
    | zero => exact le_rfl
    | succ k ih =>
      rcases hμ _ _ _ (w.reachable (i + k)) (w.next (i + k)) with hlt | ⟨hp, -⟩
      · show μ (w.state (i + k + 1)) + (k + 1) ≤ _
        omega
      · exact absurd ⟨i + k, Nat.le_add_right i k, hp⟩ hnone
  have hbound := hlower (μ (w.state i) + 1)
  omega

/-- Until `G` holds, `P` does, and every step that counts brings `μ` down: after as
    many of them as `μ` says, `G` holds, whatever the other steps are. -/
theorem Run.response {P G : σ → Prop} {μ : σ → ℕ} {q : σ × α → Bool}
    (hwait : ∀ s a t, M.Reachable s → P s → M.step s a = some t →
      G t ∨ P t ∧ μ t + (if q (s, a) then 1 else 0) ≤ μ s)
    (hdone : ∀ s a t, M.Reachable s → G s → M.step s a = some t → G t)
    {s t : σ} {tr : List (σ × α)} (hs : M.Reachable s) (h : M.Run s tr t) (hP : P s) :
    G t ∨ P t ∧ tr.countP q + μ t ≤ μ s := by
  induction h with
  | nil => exact .inr ⟨hP, by simp⟩
  | @snoc tr t u a hrun hstep ih =>
    have ht := hs.run hrun
    rcases ih with hG | ⟨hPt, hle⟩
    · exact .inl (hdone t a u ht hG hstep)
    · refine (hwait t a u ht hPt hstep).imp_right fun ⟨hPu, hlt⟩ => ⟨hPu, ?_⟩
      rw [List.countP_append, List.countP_singleton]
      omega

/-- When every state with `I` is a goal or leads to a smaller one with `I`,
    every state with `I` leads to a goal. -/
theorem exists_leads {I goal : σ → Prop} {μ : σ → ℕ}
    (hcloser : ∀ s, I s → goal s ∨ ∃ t, M.Leads s t ∧ I t ∧ μ t < μ s) {s : σ} (hs : I s) :
    ∃ t, M.Leads s t ∧ I t ∧ goal t := by
  induction hk : μ s using Nat.strongRecOn generalizing s with
  | ind k ih =>
    rcases hcloser s hs with hgoal | ⟨t, hst, ht, hlt⟩
    · exact ⟨s, .refl s, hs, hgoal⟩
    · obtain ⟨u, htu, hu, hgoal⟩ := ih (μ t) (hk ▸ hlt) ht rfl
      exact ⟨u, hst.trans htu, hu, hgoal⟩

end System

/-- A sum of which one term changes. -/
theorem finsum_add_of_eq {ι N : Type*} [AddCommMonoid N] {f g : ι → N} {c : ι}
    (hf : f.support.Finite) (h : ∀ i, i ≠ c → g i = f i) :
    ∑ᶠ i, g i + f c = ∑ᶠ i, f i + g c := by
  have hg : g.support.Finite := by
    refine (hf.insert c).subset fun i hi => ?_
    by_cases hic : i = c
    · exact Set.mem_insert_iff.mpr (.inl hic)
    · exact Set.mem_insert_of_mem c (by rwa [Function.mem_support, ← h i hic])
  have hrest : ∑ᶠ (i) (_ : i ≠ c), g i = ∑ᶠ (i) (_ : i ≠ c), f i :=
    finsum_congr fun i => finsum_congr fun hi => h i hi
  rw [← add_finsum_cond_ne c hg, ← add_finsum_cond_ne c hf, hrest]
  ac_rfl

end Cmput379.Lib
