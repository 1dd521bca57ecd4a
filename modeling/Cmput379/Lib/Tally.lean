import Mathlib.Algebra.BigOperators.Group.List.Basic
import Mathlib.Algebra.Ring.Int.Defs

/-!
# Tallies

Ordered maps that count how often each key was seen: the entry of an absent key is
0, as for `operator[]` of a `std::map` with numbers for values.

* `count_increment`: one count grows by one.
* `total_increment`: and so does the sum of the counts.
-/

namespace Cmput379.Lib

variable {κ : Type*}

/-- A count for each key. -/
abbrev Tally (κ : Type*) [Ord κ] := Std.TreeMap κ ℤ

namespace Tally

/-- The sum over the entries, the one of `k` apart. -/
theorem sum_filter [DecidableEq κ] {k : κ} {entries : List (κ × ℤ)}
    (hdistinct : entries.Pairwise fun a b => a.1 ≠ b.1) {v : ℤ}
    (hv : (k, v) ∈ entries ∨ (v = 0 ∧ ∀ v', (k, v') ∉ entries)) :
    (entries.map Prod.snd).sum = v + ((entries.filter (k ≠ ·.1)).map Prod.snd).sum := by
  induction entries with
  | nil =>
    rcases hv with hv | ⟨rfl, -⟩
    · exact absurd hv List.not_mem_nil
    · rfl
  | cons e entries ih =>
    obtain ⟨hhead, htail⟩ := List.pairwise_cons.mp hdistinct
    by_cases he : k = e.1
    · -- the entry of `k`: no other has its key
      have hrest : entries.filter (k ≠ ·.1) = entries := by
        apply List.filter_eq_self.mpr
        intro e' he'
        rw [decide_eq_true_eq, he]
        exact hhead e' he'
      have hhere : v = e.2 := by
        rcases hv with hv | ⟨-, hv⟩
        · rcases List.mem_cons.mp hv with heq | hmem
          · rw [← heq]
          · exact absurd he.symm (hhead _ hmem)
        · exact absurd (List.mem_cons.mpr (.inl (by rw [he]))) (hv e.2)
      rw [List.filter_cons_of_neg (by simpa using he), hrest, hhere, List.map_cons,
        List.sum_cons]
    · have hv' : (k, v) ∈ entries ∨ (v = 0 ∧ ∀ v', (k, v') ∉ entries) := by
        rcases hv with hv | ⟨hzero, hv⟩
        · rcases List.mem_cons.mp hv with heq | hmem
          · exact absurd (congrArg Prod.fst heq) he
          · exact .inl hmem
        · exact .inr ⟨hzero, fun v' hmem => hv v' (List.mem_cons_of_mem _ hmem)⟩
      rw [List.filter_cons_of_pos (by simpa using he), List.map_cons, List.map_cons,
        List.sum_cons, List.sum_cons, ih htail hv']
      omega

variable [Ord κ]

/-- `t[k]`, of an entry that exists or not. -/
def count (t : Tally κ) (k : κ) : ℤ := t.getD k 0

/-- `t[k]++`. -/
def increment (t : Tally κ) (k : κ) : Tally κ := t.insert k (t.count k + 1)

/-- The sum of the counts. -/
def total (t : Tally κ) : ℤ := (t.toList.map Prod.snd).sum

variable [Std.TransOrd κ]

theorem count_empty (k : κ) : count (∅ : Tally κ) k = 0 :=
  Std.TreeMap.getD_emptyc

variable [Std.LawfulEqOrd κ]

theorem count_increment [DecidableEq κ] (t : Tally κ) (k k' : κ) :
    (t.increment k).count k' = t.count k' + if k = k' then 1 else 0 := by
  unfold count increment
  rw [Std.TreeMap.getD_insert]
  by_cases hk : k = k'
  · subst hk
    rw [if_pos Std.ReflCmp.compare_self, if_pos rfl]
    rfl
  · rw [if_neg (fun heq => hk (Std.LawfulEqCmp.eq_of_compare heq)), if_neg hk, add_zero]

theorem mem_increment (t : Tally κ) (k k' : κ) : k' ∈ t.increment k ↔ k = k' ∨ k' ∈ t := by
  unfold increment
  rw [Std.TreeMap.mem_insert, Std.LawfulEqCmp.compare_eq_iff_eq]

/-- The entries, each once. -/
theorem mem_toList (t : Tally κ) (k : κ) (v : ℤ) :
    (k, v) ∈ t.toList ↔ k ∈ t ∧ t.count k = v := by
  rw [Std.TreeMap.mem_toList_iff_getElem?_eq_some, Std.TreeMap.mem_iff_isSome_getElem?]
  unfold count
  rw [Std.TreeMap.getD_eq_getD_getElem?]
  cases t[k]? with
  | none => simp
  | some v' => simp

omit [Std.LawfulEqOrd κ] in
theorem mem_of_count_ne {t : Tally κ} {k : κ} (h : t.count k ≠ 0) : k ∈ t := by
  by_contra hk
  exact h (Std.TreeMap.getD_eq_fallback hk)

theorem total_increment [DecidableEq κ] (t : Tally κ) (k : κ) :
    (t.increment k).total = t.total + 1 := by
  have hdistinct : t.toList.Pairwise fun a b => a.1 ≠ b.1 :=
    Std.TreeMap.distinct_keys_toList.imp fun hne heq =>
      hne (Std.LawfulEqCmp.compare_eq_iff_eq.mpr heq)
  have hentry : (k, t.count k) ∈ t.toList ∨
      (t.count k = 0 ∧ ∀ v', (k, v') ∉ t.toList) := by
    simp only [Std.TreeMap.mem_toList_iff_getElem?_eq_some]
    unfold count
    rw [Std.TreeMap.getD_eq_getD_getElem?]
    cases t[k]? with
    | none => exact .inr ⟨rfl, fun v' => nofun⟩
    | some v => exact .inl rfl
  have hperm : (t.increment k).toList.Perm
      ((k, t.count k + 1) :: t.toList.filter (k ≠ ·.1)) := by
    have hinsert := Std.TreeMap.toList_insert_perm (t := t) (k := k) (v := t.count k + 1)
    unfold increment
    simpa using hinsert
  unfold total
  rw [(hperm.map Prod.snd).sum_eq, List.map_cons, List.sum_cons, sum_filter hdistinct hentry]
  omega

end Tally

end Cmput379.Lib
