import Mathlib.Data.List.Nodup
import Mathlib.Logic.Function.Basic
import Cmput379.Lib.Run

/-!
# First-match caches filled from a growing table

Clients answer requests from a list of rules and ask an authority about every
key that no rule covers. The authority decides from a list of entries that only
grows; a client has one request outstanding at a time and appends the rule it is
sent. A rule is computed from the entries the authority has when it answers.

* `Filled`: a list of rules each of which was added for a key that no earlier
  rule covered. `Filled.nodup`: no key was asked for twice. `Filled.pairwise`:
  rules whose coverage is a block of a partition are pairwise disjoint.
* `RemoteCache.system`, `RemoteCache.Inv`: the protocol and its invariant.
-/

namespace Cmput379.Lib

/-! ## Rules added on a miss -/

section Filled

variable {ρ κ : Type*} {covers : ρ → κ → Prop} {base table : List ρ} {keys : List κ}

/-- `table` is `base` with a rule added for each of `keys`, which the rules
    before it did not cover. -/
inductive Filled (covers : ρ → κ → Prop) (base : List ρ) : List ρ → List κ → Prop
  | base : Filled covers base base []
  | add {table : List ρ} {keys : List κ} {r : ρ} {key : κ} (h : Filled covers base table keys)
      (miss : ∀ r' ∈ table, ¬ covers r' key) (hit : covers r key) :
      Filled covers base (table ++ [r]) (keys ++ [key])

/-- Every key is covered by now. -/
theorem Filled.covered (h : Filled covers base table keys) {key : κ} (hkey : key ∈ keys) :
    ∃ r ∈ table, covers r key := by
  induction h with
  | base => simp at hkey
  | @add table keys r key' _ _ hit ih =>
    rcases List.mem_append.mp hkey with hkey | hkey
    · obtain ⟨r', hr', hcov⟩ := ih hkey
      exact ⟨r', List.mem_append_left _ hr', hcov⟩
    · rw [List.mem_singleton] at hkey
      exact ⟨r, by simp, hkey ▸ hit⟩

/-- No key was asked for twice. -/
theorem Filled.nodup (h : Filled covers base table keys) : keys.Nodup := by
  induction h with
  | base => exact List.nodup_nil
  | @add table keys r key hfilled miss _ ih =>
    refine List.Nodup.append ih (List.nodup_singleton key) ?_
    intro key' hmem hkey
    rw [List.mem_singleton] at hkey
    subst hkey
    obtain ⟨r', hr', hcov⟩ := hfilled.covered hmem
    exact miss r' hr' hcov

/-- If the rules with property `p` cover the same keys as soon as they share one,
    then they are pairwise disjoint, provided those of the base are. -/
theorem Filled.pairwise (h : Filled covers base table keys) (p : ρ → Bool)
    (hblock : ∀ r ∈ table, ∀ r' ∈ table, p r → p r' → ∀ key, covers r key → covers r' key →
      ∀ key', covers r key' → covers r' key')
    (hbase : (base.filter p).Pairwise fun r r' => ∀ key, ¬ (covers r key ∧ covers r' key)) :
    (table.filter p).Pairwise fun r r' => ∀ key, ¬ (covers r key ∧ covers r' key) := by
  induction h with
  | base => exact hbase
  | @add table keys r key _ miss hit ih =>
    rw [List.filter_append, List.pairwise_append]
    refine ⟨ih ?_, ?_, ?_⟩
    · intro r₁ hr₁ r₂ hr₂
      exact hblock r₁ (List.mem_append_left _ hr₁) r₂ (List.mem_append_left _ hr₂)
    · by_cases hr : p r <;> simp [hr]
    · intro r₁ hr₁ r₂ hr₂ key' hcov
      rw [List.mem_filter] at hr₁ hr₂
      obtain ⟨hmem₂, hp₂⟩ := hr₂
      rw [List.mem_singleton] at hmem₂
      subst hmem₂
      have hcov' := hblock r₂ (by simp) r₁ (List.mem_append_left _ hr₁.1) hp₂ hr₁.2 key' hcov.2
        hcov.1 key hit
      exact miss r₁ hr₁.1 hcov'

end Filled

/-! ## The protocol -/

/-- A kind of remote cache: clients `ι` with initial rules `base`, requests `θ`
    for a key, and the rule the authority sends when it has given entries; `η` is
    what the authority sees of a client. -/
structure RemoteCache (ι η θ κ ε ρ : Type*) where
  base : ι → List ρ
  covers : ρ → κ → Prop
  key : θ → κ
  rule : List ε → η → θ → ρ
  rule_covers : ∀ entries label request, covers (rule entries label request) (key request)

namespace RemoteCache

variable {ι η θ κ ε ρ : Type*}

/-- A request with what the authority saw and the number of entries it had when
    it answered. -/
structure Answer (η θ : Type*) where
  request : θ
  label : η
  known : ℕ
  deriving DecidableEq

/-- The rules of a client, its requests, the answers to them, and how many of
    these have arrived. -/
structure Client (η θ ρ : Type*) where
  table : List ρ
  asked : List θ
  answered : List (Answer η θ)
  installed : ℕ

structure State (ι η θ ε ρ : Type*) where
  entries : List ε
  client : ι → Client η θ ρ

def State.setClient [DecidableEq ι] (s : State ι η θ ε ρ) (i : ι) (c : Client η θ ρ) :
    State ι η θ ε ρ :=
  { s with client := Function.update s.client i c }

inductive Label (ι η θ ε : Type*)
  | register (entry : ε)
  | ask (i : ι) (request : θ)
  | answer (i : ι) (label : η)
  | install (i : ι)

variable (C : RemoteCache ι η θ κ ε ρ)

/-- The rule sent as `answer`. -/
def ruleOf (entries : List ε) (answer : Answer η θ) : ρ :=
  C.rule (entries.take answer.known) answer.label answer.request

variable [DecidableEq ι]

open Classical in
/-- A client asks when nothing is outstanding and no rule covers the key; the
    authority answers the one request it has not answered; a client installs
    the one answer it has not installed. -/
noncomputable def step (s : State ι η θ ε ρ) : Label ι η θ ε → Option (State ι η θ ε ρ)
  | .register entry => some { s with entries := s.entries ++ [entry] }
  | .ask i request =>
    let c := s.client i
    if c.asked.length = c.installed ∧ ∀ r ∈ c.table, ¬ C.covers r (C.key request) then
      some (s.setClient i { c with asked := c.asked ++ [request] })
    else none
  | .answer i label =>
    let c := s.client i
    match c.asked[c.answered.length]? with
    | some request =>
      some (s.setClient i
        { c with answered := c.answered ++ [⟨request, label, s.entries.length⟩] })
    | none => none
  | .install i =>
    let c := s.client i
    match c.answered[c.installed]? with
    | some answer =>
      some (s.setClient i
        { c with
          table := c.table ++ [C.ruleOf s.entries answer]
          installed := c.installed + 1 })
    | none => none

/-- No entries, and nothing asked. -/
def initState : State ι η θ ε ρ where
  entries := []
  client := fun i => ⟨C.base i, [], [], 0⟩

noncomputable def system : System (State ι η θ ε ρ) (Label ι η θ ε) where
  init := fun s => s = C.initState
  step := C.step

/-! ## The invariant -/

/-- The invariant of client `i` when the authority has `entries`. -/
structure ClientInv (entries : List ε) (i : ι) (c : Client η θ ρ) : Prop where
  installed_le : c.installed ≤ c.answered.length
  asked_le : c.asked.length ≤ c.installed + 1
  answered_le : c.answered.length ≤ c.asked.length
  requests : c.answered.map Answer.request = c.asked.take c.answered.length
  known : ∀ a ∈ c.answered, a.known ≤ entries.length
  table : c.table = C.base i ++ (c.answered.take c.installed).map (C.ruleOf entries)
  filled : Filled C.covers (C.base i) c.table ((c.asked.take c.installed).map C.key)
  miss : ∀ q ∈ c.asked.drop c.installed, ∀ r ∈ c.table, ¬ C.covers r (C.key q)

def Inv (s : State ι η θ ε ρ) : Prop := ∀ i, C.ClientInv s.entries i (s.client i)

variable {C}

omit [DecidableEq ι] in
/-- A rule does not depend on entries added after it was sent. -/
theorem ruleOf_append {entries more : List ε} {a : Answer η θ} (h : a.known ≤ entries.length) :
    C.ruleOf (entries ++ more) a = C.ruleOf entries a := by
  simp only [ruleOf, List.take_append_of_le_length h]

omit [DecidableEq ι] in
theorem ClientInv.register {entries : List ε} {i : ι} {c : Client η θ ρ} {entry : ε}
    (h : C.ClientInv entries i c) : C.ClientInv (entries ++ [entry]) i c where
  installed_le := h.installed_le
  asked_le := h.asked_le
  answered_le := h.answered_le
  requests := h.requests
  known := by
    intro a ha
    have := h.known a ha
    simp only [List.length_append]
    omega
  table := by
    rw [h.table, List.append_cancel_left_eq]
    refine List.map_congr_left fun a ha => ?_
    exact (ruleOf_append (h.known a (List.mem_of_mem_take ha))).symm
  filled := h.filled
  miss := h.miss

omit [DecidableEq ι] in
theorem ClientInv.ask {entries : List ε} {i : ι} {c : Client η θ ρ} {request : θ}
    (h : C.ClientInv entries i c) (hidle : c.asked.length = c.installed)
    (hmiss : ∀ r ∈ c.table, ¬ C.covers r (C.key request)) :
    C.ClientInv entries i { c with asked := c.asked ++ [request] } where
  installed_le := h.installed_le
  asked_le := by simp [hidle]
  answered_le := by
    have := h.answered_le
    simp only [List.length_append]
    omega
  requests := by
    rw [h.requests, List.take_append_of_le_length h.answered_le]
  known := h.known
  table := h.table
  filled := by
    dsimp only
    rw [List.take_append_of_le_length (by omega)]
    exact h.filled
  miss := by
    dsimp only
    rw [List.drop_append_of_le_length (by omega), List.drop_eq_nil_of_le (by omega)]
    simpa using hmiss

omit [DecidableEq ι] in
theorem ClientInv.answer {entries : List ε} {i : ι} {c : Client η θ ρ} {request : θ} {label : η}
    (h : C.ClientInv entries i c) (hreq : c.asked[c.answered.length]? = some request) :
    C.ClientInv entries i
      { c with answered := c.answered ++ [⟨request, label, entries.length⟩] } where
  installed_le := by
    have := h.installed_le
    simp only [List.length_append]
    omega
  asked_le := h.asked_le
  answered_le := by
    have := (List.getElem?_eq_some_iff.mp hreq).1
    simp only [List.length_append, List.length_singleton]
    omega
  requests := by
    rw [List.map_append, List.length_append, List.length_singleton, List.take_add_one, hreq,
      h.requests]
    rfl
  known := by
    intro a ha
    rcases List.mem_append.mp ha with ha | ha
    · exact h.known a ha
    · obtain rfl := List.mem_singleton.mp ha
      exact Nat.le_refl _
  table := by
    rw [h.table, List.take_append_of_le_length h.installed_le]
  filled := h.filled
  miss := h.miss

omit [DecidableEq ι] in
theorem ClientInv.install {entries : List ε} {i : ι} {c : Client η θ ρ} {a : Answer η θ}
    (h : C.ClientInv entries i c) (ha : c.answered[c.installed]? = some a) :
    C.ClientInv entries i
      { c with table := c.table ++ [C.ruleOf entries a], installed := c.installed + 1 } := by
  obtain ⟨hlt, hget⟩ := List.getElem?_eq_some_iff.mp ha
  have hask : c.asked[c.installed]? = some a.request := by
    have hmap : (c.answered.map Answer.request)[c.installed]? = some a.request := by simp [ha]
    rw [h.requests, List.getElem?_take_of_lt hlt] at hmap
    exact hmap
  have hlen : c.asked.length = c.installed + 1 := by
    have := h.asked_le
    have := h.answered_le
    omega
  have hdrop : c.asked.drop c.installed = [a.request] := by
    rw [List.drop_eq_getElem_cons (by omega), List.drop_eq_nil_of_le (by omega)]
    rw [List.getElem?_eq_getElem (by omega)] at hask
    simpa using hask
  refine ⟨hlt, by simp [hlen], h.answered_le, h.requests, h.known, ?_, ?_, ?_⟩
  · rw [List.take_add_one, ha, h.table]
    simp
  · rw [List.take_add_one, hask, List.map_append]
    refine h.filled.add ?_ (C.rule_covers _ _ _)
    exact h.miss a.request (by simp [hdrop])
  · dsimp only
    rw [List.drop_eq_nil_of_le (by omega)]
    simp

theorem inv_step {s t : State ι η θ ε ρ} {l : Label ι η θ ε} (h : C.Inv s)
    (hs : C.step s l = some t) : C.Inv t := by
  have hupdate : ∀ i c, C.ClientInv s.entries i c →
      C.Inv (s.setClient i c) := by
    intro i c hc j
    by_cases hj : j = i
    · subst hj
      simpa [State.setClient] using hc
    · simpa [State.setClient, Function.update_of_ne hj] using h j
  cases l with
  | register entry =>
    cases hs
    exact fun i => (h i).register
  | ask i request =>
    simp only [step] at hs
    split_ifs at hs with hcond
    cases hs
    exact hupdate i _ ((h i).ask hcond.1 hcond.2)
  | answer i label =>
    simp only [step] at hs
    cases hreq : (s.client i).asked[(s.client i).answered.length]? with
    | none => simp [hreq] at hs
    | some request =>
      simp only [hreq, Option.some.injEq] at hs
      subst hs
      exact hupdate i _ ((h i).answer hreq)
  | install i =>
    simp only [step] at hs
    cases ha : (s.client i).answered[(s.client i).installed]? with
    | none => simp [ha] at hs
    | some a =>
      simp only [ha, Option.some.injEq] at hs
      subst hs
      exact hupdate i _ ((h i).install ha)

omit [DecidableEq ι] in
theorem inv_initState : C.Inv C.initState := by
  intro i
  refine ⟨Nat.le_refl _, by simp [initState], Nat.le_refl _, rfl, ?_, ?_, .base, ?_⟩ <;>
    simp [initState]

theorem inv_of_reachable {s : State ι η θ ε ρ} (h : C.system.Reachable s) : C.Inv s := by
  refine System.Reachable.invariant ?_ ?_ h
  · rintro _ rfl
    exact inv_initState
  · intro s l t _ hinv hs
    exact inv_step hinv hs

omit [DecidableEq ι] in
/-- No key is ever asked for twice, the outstanding one included. -/
theorem ClientInv.nodup {entries : List ε} {i : ι} {c : Client η θ ρ}
    (h : C.ClientInv entries i c) : (c.asked.map C.key).Nodup := by
  rw [← List.take_append_drop c.installed c.asked, List.map_append]
  refine List.Nodup.append h.filled.nodup ?_ ?_
  · have hle := h.asked_le
    have hlen : (c.asked.drop c.installed).length ≤ 1 := by
      rw [List.length_drop]
      omega
    match c.asked.drop c.installed, hlen with
    | [], _ => exact List.nodup_nil
    | [q], _ => exact List.nodup_singleton _
  · intro key hin hout
    obtain ⟨r, hr, hcov⟩ := h.filled.covered hin
    obtain ⟨q, hq, rfl⟩ := List.mem_map.mp hout
    exact h.miss q hq r hr hcov

end RemoteCache

end Cmput379.Lib
