import Mathlib.Algebra.BigOperators.Group.Finset.Basic
import Mathlib.Algebra.Order.BigOperators.Group.Finset
import Mathlib.Data.Fintype.BigOperators

/-!
# Cells with several writers

Each writer keeps a count of its own and copies it to a cell. Where two writers
share a cell, the later copy replaces the other's.

* `Copied`: every cell holds the count of one of its writers, or nobody has
  written to it.
* `Copied.write`, `Copied.assign`: a writer copies its count; a writer that has
  copied nothing gets another cell.
* `Copied.sum_le`, `Copied.sum_eq_iff`: the cells add up to at most what the
  writers counted, and to all of it if and only if no two writers with a count
  share a cell.
-/

namespace Cmput379.Lib

variable {ι κ : Type*} {cell : ι → κ} {own : ι → ℕ} {value : κ → ℕ}

/-- Every cell holds the count of one of its writers, if one has written to it. -/
structure Copied (cell : ι → κ) (own : ι → ℕ) (value : κ → ℕ) : Prop where
  source : ∀ k, value k ≠ 0 → ∃ i, cell i = k ∧ own i = value k
  kept : ∀ i, own i ≠ 0 → value (cell i) ≠ 0

namespace Copied

section Steps

variable [DecidableEq ι] [DecidableEq κ]

/-- A writer copies its count. -/
theorem write (h : Copied cell own value) (i : ι) {x : ℕ} (hx : x ≠ 0) :
    Copied cell (Function.update own i x) (Function.update value (cell i) x) where
  source := by
    intro k hk
    by_cases hcell : k = cell i
    · subst hcell
      exact ⟨i, rfl, by simp⟩
    · rw [Function.update_of_ne hcell] at hk ⊢
      obtain ⟨j, hj, hown⟩ := h.source k hk
      have hne : j ≠ i := by
        rintro rfl
        exact hcell hj.symm
      exact ⟨j, hj, by rw [Function.update_of_ne hne, hown]⟩
  kept := by
    intro j hj
    by_cases hcell : cell j = cell i
    · rw [hcell, Function.update_self]
      exact hx
    · have hne : j ≠ i := by
        rintro rfl
        exact hcell rfl
      rw [Function.update_of_ne hne] at hj
      rw [Function.update_of_ne hcell]
      exact h.kept j hj

omit [DecidableEq κ] in
/-- A writer that has copied nothing gets another cell. -/
theorem assign (h : Copied cell own value) {i : ι} (hown : own i = 0) (k : κ) :
    Copied (Function.update cell i k) own value where
  source := by
    intro k' hk'
    obtain ⟨j, hj, hjown⟩ := h.source k' hk'
    have hne : j ≠ i := by
      rintro rfl
      exact hk' (hjown.symm.trans hown)
    exact ⟨j, by rw [Function.update_of_ne hne, hj], hjown⟩
  kept := by
    intro j hj
    have hne : j ≠ i := by
      rintro rfl
      exact hj hown
    rw [Function.update_of_ne hne]
    exact h.kept j hj

end Steps

section Sums

variable [Fintype ι] [DecidableEq κ]

/-- What the writers of one cell counted is at least what the cell says. -/
theorem le_fiber (h : Copied cell own value) (k : κ) :
    value k ≤ ∑ i with cell i = k, own i := by
  by_cases hk : value k = 0
  · rw [hk]
    exact Nat.zero_le _
  · obtain ⟨i, hi, hown⟩ := h.source k hk
    rw [← hown]
    have hmem : i ∈ Finset.univ.filter fun i => cell i = k :=
      Finset.mem_filter.mpr ⟨Finset.mem_univ i, hi⟩
    exact Finset.single_le_sum (fun _ _ => Nat.zero_le _) hmem

/-- A cell says what its writers counted when only one of them has a count. -/
theorem eq_fiber_iff (h : Copied cell own value) (k : κ) :
    value k = ∑ i with cell i = k, own i ↔
      ∀ i j, cell i = k → cell j = k → i ≠ j → own i = 0 ∨ own j = 0 := by
  classical
  constructor
  · intro heq i j hi hj hne
    by_contra hboth
    obtain ⟨hown, hown'⟩ := not_or.mp hboth
    obtain ⟨w, hw, hvalue⟩ := h.source k (hi ▸ h.kept i hown)
    -- one of the two is not the writer the cell has its value from
    obtain ⟨v, hv, hvown, hvw⟩ : ∃ v, cell v = k ∧ own v ≠ 0 ∧ w ≠ v := by
      by_cases hwi : w = i
      · exact ⟨j, hj, hown', hwi ▸ hne⟩
      · exact ⟨i, hi, hown, hwi⟩
    have hpair : own w + own v ≤ ∑ i with cell i = k, own i := by
      rw [← Finset.sum_pair hvw]
      apply Finset.sum_le_sum_of_subset
      intro u hu
      rcases Finset.mem_insert.mp hu with rfl | hu
      · exact Finset.mem_filter.mpr ⟨Finset.mem_univ _, hw⟩
      · rw [Finset.mem_singleton.mp hu]
        exact Finset.mem_filter.mpr ⟨Finset.mem_univ _, hv⟩
    omega
  · intro hone
    apply le_antisymm (h.le_fiber k)
    by_cases hall : ∀ i, cell i = k → own i = 0
    · rw [Finset.sum_eq_zero fun i hi => hall i (Finset.mem_filter.mp hi).2]
      exact Nat.zero_le _
    · push Not at hall
      obtain ⟨i, hi, hown⟩ := hall
      obtain ⟨w, hw, hvalue⟩ := h.source k (hi ▸ h.kept i hown)
      have hfiber : ∑ j with cell j = k, own j = own i := by
        apply Finset.sum_eq_single_of_mem i (Finset.mem_filter.mpr ⟨Finset.mem_univ i, hi⟩)
        intro j hj hne
        rcases hone i j hi (Finset.mem_filter.mp hj).2 (Ne.symm hne) with hzero | hzero
        · exact absurd hzero hown
        · exact hzero
      rw [hfiber, ← hvalue]
      by_cases hwi : w = i
      · rw [hwi]
      · rcases hone w i hw hi hwi with hzero | hzero
        · exact absurd (hvalue.symm.trans hzero) (hi ▸ h.kept i hown)
        · exact absurd hzero hown

/-- The cells `C` have room for all writers. -/
theorem sum_le (h : Copied cell own value) {C : Finset κ} (hC : ∀ i, cell i ∈ C) :
    ∑ k ∈ C, value k ≤ ∑ i, own i := by
  rw [← Finset.sum_fiberwise_of_maps_to (fun i _ => hC i) own]
  exact Finset.sum_le_sum fun k _ => h.le_fiber k

/-- Nothing is lost if and only if no two writers with a count share a cell. -/
theorem sum_eq_iff (h : Copied cell own value) {C : Finset κ} (hC : ∀ i, cell i ∈ C) :
    ∑ k ∈ C, value k = ∑ i, own i ↔
      ∀ i j, i ≠ j → cell i = cell j → own i = 0 ∨ own j = 0 := by
  rw [← Finset.sum_fiberwise_of_maps_to (fun i _ => hC i) own,
    Finset.sum_eq_sum_iff_of_le fun k _ => h.le_fiber k]
  constructor
  · intro hall i j hne hcell
    exact (h.eq_fiber_iff (cell j)).mp (hall _ (hC j)) i j hcell rfl hne
  · intro hone k _
    refine (h.eq_fiber_iff k).mpr fun i j hi hj hne => hone i j hne (hi.trans hj.symm)

end Sums

end Copied

end Cmput379.Lib
