import Mathlib.Data.List.Nodup
import Mathlib.Data.List.Sublists

/-!
# Tables with parent pointers

A table in which each row has a key and the key of its parent, and the listing of what
is below a key: a scan over the table that, at each row whose parent is the key, puts out
the row and then does the same for the key of the row.

* `Descendant`: the rows below a key.
* `Lists`: a scan, and what it puts out.
* `Lists.mem_iff`, `Lists.nodup`, `Lists.before_of_parent`, `Lists.before_of_siblings`: it
  puts out the rows below the key, each once, parents first, siblings in their order.
* `Lists.not_cycle`: a scan that ends meets no row that is below itself.
* `size_lt`: what gets smaller from a key to its children when there are no cycles.
* `exists_lists_iff`: when a scan ends.
* `Lists.image`: the scan of a table that has the rows of another one in it.
-/

namespace Cmput379.Lib

/-! ## Before -/

/-- `a` stands before `b`. -/
def Before {α : Type*} (l : List α) (a b : α) : Prop := [a, b].Sublist l

instance {α : Type*} [DecidableEq α] (l : List α) (a b : α) : Decidable (Before l a b) :=
  inferInstanceAs (Decidable ([a, b].Sublist l))

namespace Before

variable {α : Type*} {l : List α} {a b c : α}

theorem head (h : b ∈ l) : Before (a :: l) a b :=
  List.Sublist.cons_cons a (List.singleton_sublist.mpr h)

theorem cons (h : Before l a b) : Before (c :: l) a b := List.Sublist.cons c h

theorem mono {l' : List α} (h : Before l a b) (hl : l.Sublist l') : Before l' a b := h.trans hl

theorem of_cons (h : Before (c :: l) a b) : a = c ∧ b ∈ l ∨ Before l a b := by
  cases h with
  | cons _ h => exact .inr h
  | cons_cons _ h => exact .inl ⟨rfl, List.singleton_sublist.mp h⟩

theorem mem_left (h : Before l a b) : a ∈ l := h.subset (by simp)

theorem mem_right (h : Before l a b) : b ∈ l := h.subset (by simp)

end Before

/-! ## Tables -/

/-- The rows of a table, with their keys and the keys of their parents. -/
structure Forest (α κ : Type*) where
  key : α → κ
  parent : α → κ
  rows : List α

namespace Forest

variable {α κ : Type*}

/-- The rows below a key. -/
inductive Descendant (T : Forest α κ) (t : κ) : α → Prop
  | child {r : α} (hmem : r ∈ T.rows) (hparent : T.parent r = t) : Descendant T t r
  | step {p r : α} (hp : Descendant T t p) (hmem : r ∈ T.rows)
      (hparent : T.parent r = T.key p) : Descendant T t r

/-- No row is below itself. -/
def Acyclic (T : Forest α κ) : Prop := ∀ r ∈ T.rows, ¬ T.Descendant (T.key r) r

/-- Different rows have different keys. -/
def Distinct (T : Forest α κ) : Prop := (T.rows.map T.key).Nodup

/-- `T.Lists t rs out`: the scan for `t`, with the rows `rs` still to come, ends and puts
    out `out`. -/
inductive Lists (T : Forest α κ) : κ → List α → List α → Prop
  | nil (t : κ) : Lists T t [] []
  | skip {t : κ} {r : α} {rs out : List α} (hparent : T.parent r ≠ t) (h : Lists T t rs out) :
      Lists T t (r :: rs) out
  | child {t : κ} {r : α} {rs below out : List α} (hparent : T.parent r = t)
      (hbelow : Lists T (T.key r) T.rows below) (h : Lists T t rs out) :
      Lists T t (r :: rs) (r :: (below ++ out))

variable {T : Forest α κ} {t : κ} {rs out : List α}

/-! ## Descendants -/

namespace Descendant

variable {a b p r x : α}

theorem mem (h : T.Descendant t r) : r ∈ T.rows := by
  cases h with
  | child hmem => exact hmem
  | step _ hmem => exact hmem

/-- What is below a child is below its parent. -/
theorem of_child (ha : a ∈ T.rows) (hparent : T.parent a = t) (h : T.Descendant (T.key a) r) :
    T.Descendant t r := by
  induction h with
  | child hmem hr => exact .step (.child ha hparent) hmem hr
  | step _ hmem hr ih => exact .step ih hmem hr

/-- The last step of a chain: a child of the key, or of another row below it. -/
theorem parent_cases (h : T.Descendant t r) :
    T.parent r = t ∨ ∃ p, T.Descendant t p ∧ T.parent r = T.key p := by
  cases h with
  | child _ hparent => exact .inl hparent
  | step hp _ hparent => exact .inr ⟨_, hp, hparent⟩

/-- The rows above a row form a chain. -/
theorem chain (hT : T.Distinct) (ha : a ∈ T.rows) (hb : b ∈ T.rows)
    (h : T.Descendant (T.key a) x) (h' : T.Descendant (T.key b) x) :
    a = b ∨ T.Descendant (T.key b) a ∨ T.Descendant (T.key a) b := by
  have hinj : ∀ c ∈ T.rows, ∀ d ∈ T.rows, T.key c = T.key d → c = d :=
    fun c hc d hd heq => List.inj_on_of_nodup_map hT hc hd heq
  induction h with
  | child hmem hparent =>
    rcases h'.parent_cases with hparent' | ⟨p, hp, hparent'⟩
    · exact .inl (hinj a ha b hb (hparent.symm.trans hparent'))
    · obtain rfl := hinj a ha p hp.mem (hparent.symm.trans hparent')
      exact .inr (.inl hp)
  | @step p x hp hmem hparent ih =>
    rcases h'.parent_cases with hparent' | ⟨p', hp', hparent'⟩
    · obtain rfl := hinj p hp.mem b hb (hparent.symm.trans hparent')
      exact .inr (.inr hp)
    · obtain rfl := hinj p hp.mem p' hp'.mem (hparent.symm.trans hparent')
      exact ih hp'

end Descendant

/-- Of two siblings, none is below the other. -/
theorem Acyclic.not_descendant_of_siblings {a b : α} (hT : T.Acyclic) (ha : a ∈ T.rows)
    (hparent : T.parent a = T.parent b) : ¬ T.Descendant (T.key a) b := by
  intro h
  refine hT a ha ?_
  rcases h.parent_cases with hb | ⟨p, hp, hb⟩
  · exact .child ha (hparent.trans hb)
  · exact .step hp ha (hparent.trans hb)

theorem Acyclic.descendants_disjoint {a b x : α} (hT : T.Acyclic) (hkeys : T.Distinct)
    (ha : a ∈ T.rows) (hb : b ∈ T.rows) (hne : a ≠ b) (hparent : T.parent a = T.parent b)
    (h : T.Descendant (T.key a) x) : ¬ T.Descendant (T.key b) x := by
  intro h'
  rcases h.chain hkeys ha hb h' with heq | hba | hab
  · exact hne heq
  · exact hT.not_descendant_of_siblings hb hparent.symm hba
  · exact hT.not_descendant_of_siblings ha hparent hab

/-- An order of the rows with parents in front leaves no cycle. -/
theorem acyclic_of_rank (rank : α → ℕ)
    (h : ∀ p ∈ T.rows, ∀ r ∈ T.rows, T.parent r = T.key p → rank p < rank r) : T.Acyclic := by
  have hlt : ∀ p ∈ T.rows, ∀ r, T.Descendant (T.key p) r → rank p < rank r := by
    intro p hp r hr
    induction hr with
    | child hmem hparent => exact h p hp _ hmem hparent
    | step hq hmem hparent ih => exact ih.trans (h _ hq.mem _ hmem hparent)
  exact fun r hr hcycle => lt_irrefl _ (hlt r hr r hcycle)

/-! ## The listing -/

namespace Lists

variable {a b p r : α}

/-- A scan has one outcome. -/
theorem unique {out' : List α} (h : T.Lists t rs out) (h' : T.Lists t rs out') : out = out' := by
  induction h generalizing out' with
  | nil =>
    cases h'
    rfl
  | skip hskip h ih =>
    cases h' with
    | skip _ h' => exact ih h'
    | child hchild _ _ => exact absurd hchild hskip
  | child hchild hbelow h ihbelow ih =>
    cases h' with
    | skip hskip _ => exact absurd hchild hskip
    | child _ hbelow' h' => rw [ihbelow hbelow', ih h']

/-- The children among the rows that are scanned are put out. -/
theorem mem_of_child (h : T.Lists t rs out) (hmem : r ∈ rs) (hparent : T.parent r = t) :
    r ∈ out := by
  induction h with
  | nil => exact absurd hmem List.not_mem_nil
  | @skip t r' rs out hskip h ih =>
    rcases List.mem_cons.mp hmem with rfl | hmem
    · exact absurd hparent hskip
    · exact ih hmem hparent
  | @child t r' rs below out hchild hbelow h ihbelow ih =>
    rcases List.mem_cons.mp hmem with rfl | hmem
    · exact List.mem_cons_self
    · exact List.mem_cons_of_mem _ (List.mem_append_right _ (ih hmem hparent))

/-- What is put out comes from one of the children that are scanned. -/
theorem exists_child (h : T.Lists t rs out) (hrs : ∀ r ∈ rs, r ∈ T.rows) (hmem : r ∈ out) :
    ∃ c ∈ rs, T.parent c = t ∧ (r = c ∨ T.Descendant (T.key c) r) := by
  induction h with
  | nil => exact absurd hmem List.not_mem_nil
  | @skip t r' rs out hskip h ih =>
    rw [List.forall_mem_cons] at hrs
    obtain ⟨c, hc, hfrom⟩ := ih hrs.2 hmem
    exact ⟨c, List.mem_cons_of_mem _ hc, hfrom⟩
  | @child t r' rs below out hchild hbelow h ihbelow ih =>
    rw [List.forall_mem_cons] at hrs
    rcases List.mem_cons.mp hmem with rfl | hmem
    · exact ⟨r, List.mem_cons_self, hchild, .inl rfl⟩
    · rcases List.mem_append.mp hmem with hmem | hmem
      · refine ⟨r', List.mem_cons_self, hchild, .inr ?_⟩
        obtain ⟨c, hc, hparent, rfl | hfrom⟩ := ihbelow (fun _ hrow => hrow) hmem
        · exact .child hc hparent
        · exact .of_child hc hparent hfrom
      · obtain ⟨c, hc, hfrom⟩ := ih hrs.2 hmem
        exact ⟨c, List.mem_cons_of_mem _ hc, hfrom⟩

/-- A row is put out together with the listing of its key. -/
theorem exists_below (h : T.Lists t rs out) (hp : p ∈ out) :
    ∃ below, T.Lists (T.key p) T.rows below ∧ (p :: below).Sublist out := by
  induction h with
  | nil => exact absurd hp List.not_mem_nil
  | skip hskip h ih => exact ih hp
  | @child t r rs below out hchild hbelow h ihbelow ih =>
    rcases List.mem_cons.mp hp with rfl | hp
    · exact ⟨below, hbelow, (List.sublist_append_left below out).cons_cons p⟩
    · rcases List.mem_append.mp hp with hp | hp
      · obtain ⟨below', hbelow', hsub⟩ := ihbelow hp
        exact ⟨below', hbelow', (hsub.trans (List.sublist_append_left below out)).cons r⟩
      · obtain ⟨below', hbelow', hsub⟩ := ih hp
        exact ⟨below', hbelow', (hsub.trans (List.sublist_append_right below out)).cons r⟩

/-- A row is put out before the rows that have it as their parent. -/
theorem before_of_parent (h : T.Lists t rs out) (hp : p ∈ out) (hr : r ∈ T.rows)
    (hparent : T.parent r = T.key p) : Before out p r := by
  obtain ⟨below, hbelow, hsub⟩ := h.exists_below hp
  exact (Before.head (hbelow.mem_of_child hr hparent)).mono hsub

/-- The listing of a key is the rows below it. -/
theorem mem_iff (h : T.Lists t T.rows out) : r ∈ out ↔ T.Descendant t r := by
  constructor
  · intro hmem
    obtain ⟨c, hc, hparent, rfl | hfrom⟩ := h.exists_child (fun _ hrow => hrow) hmem
    · exact .child hc hparent
    · exact .of_child hc hparent hfrom
  · intro hr
    induction hr with
    | child hmem hparent => exact h.mem_of_child hmem hparent
    | step hp hmem hparent ih => exact (h.before_of_parent ih hmem hparent).mem_right

/-- Children of the key stand in the order of the rows that are scanned. -/
theorem before_of_children (h : T.Lists t rs out) (hab : Before rs a b)
    (ha : T.parent a = t) (hb : T.parent b = t) : Before out a b := by
  induction h with
  | nil => exact absurd hab.mem_left List.not_mem_nil
  | @skip t r' rs out hskip h ih =>
    rcases hab.of_cons with ⟨rfl, -⟩ | hab
    · exact absurd ha hskip
    · exact ih hab ha hb
  | @child t r' rs below out hchild hbelow h ihbelow ih =>
    rcases hab.of_cons with ⟨rfl, hmem⟩ | hab
    · exact .head (List.mem_append_right _ (h.mem_of_child hmem hb))
    · exact .cons ((ih hab ha hb).mono (List.sublist_append_right below out))

/-- So do the children of a row that is put out. -/
theorem before_of_children_of (h : T.Lists t rs out) (hp : p ∈ out) (hab : Before T.rows a b)
    (ha : T.parent a = T.key p) (hb : T.parent b = T.key p) : Before out a b := by
  obtain ⟨below, hbelow, hsub⟩ := h.exists_below hp
  exact (hbelow.before_of_children hab ha hb).mono (List.sublist_of_cons_sublist hsub)

theorem before_of_siblings (h : T.Lists t T.rows out) (ha : a ∈ out)
    (hab : Before T.rows a b) (hparent : T.parent a = T.parent b) : Before out a b := by
  rcases (h.mem_iff.mp ha).parent_cases with hkey | ⟨p, hp, hkey⟩
  · exact h.before_of_children hab hkey (hparent.symm.trans hkey)
  · exact h.before_of_children_of (h.mem_iff.mpr hp) hab hkey (hparent.symm.trans hkey)

/-- A scan that ends meets no cycle. -/
theorem not_cycle (h : T.Lists t T.rows out) (hr : T.Descendant t r) :
    ¬ T.Descendant (T.key r) r := by
  intro hcycle
  obtain ⟨below, hbelow, -⟩ := h.exists_below (h.mem_iff.mpr hr)
  -- the listing of its key has it in it, and with it a second copy of itself
  obtain ⟨below', hbelow', hsub⟩ := hbelow.exists_below (hbelow.mem_iff.mpr hcycle)
  have hlen := hsub.length_le
  rw [hbelow'.unique hbelow, List.length_cons] at hlen
  omega

/-- Nothing is put out twice. -/
theorem nodup (h : T.Lists t rs out) (hT : T.Acyclic) (hkeys : T.Distinct)
    (hrs : ∀ r ∈ rs, r ∈ T.rows) (honce : rs.Nodup) : out.Nodup := by
  induction h with
  | nil => exact List.nodup_nil
  | @skip t r' rs out hskip h ih =>
    rw [List.forall_mem_cons] at hrs
    exact ih hrs.2 (List.nodup_cons.mp honce).2
  | @child t r' rs below out hchild hbelow h ihbelow ih =>
    rw [List.forall_mem_cons] at hrs
    obtain ⟨hr', hrs⟩ := hrs
    obtain ⟨hnot, honce⟩ := List.nodup_cons.mp honce
    have hrows : T.rows.Nodup := List.Nodup.of_map T.key hkeys
    -- the rest of the scan comes from other children
    have hother : ∀ x ∈ out, x ≠ r' ∧ ¬ T.Descendant (T.key r') x := by
      intro x hx
      obtain ⟨c, hc, hparent, hfrom⟩ := h.exists_child hrs hx
      have hne : r' ≠ c := fun heq => hnot (heq ▸ hc)
      have hsame : T.parent r' = T.parent c := hchild.trans hparent.symm
      rcases hfrom with rfl | hfrom
      · exact ⟨hne.symm, hT.not_descendant_of_siblings hr' hsame⟩
      · refine ⟨?_, fun hx' => hT.descendants_disjoint hkeys hr' (hrs c hc) hne hsame hx' hfrom⟩
        rintro rfl
        exact hT.not_descendant_of_siblings (hrs c hc) hsame.symm hfrom
    refine List.nodup_cons.mpr ⟨?_, List.nodup_append.mpr ⟨?_, ih hrs honce, ?_⟩⟩
    · intro hmem
      rcases List.mem_append.mp hmem with hmem | hmem
      · exact hT r' hr' (hbelow.mem_iff.mp hmem)
      · exact (hother r' hmem).1 rfl
    · exact ihbelow (fun _ hrow => hrow) hrows
    · rintro x hx y hy rfl
      exact (hother x hy).2 (hbelow.mem_iff.mp hx)

end Lists

/-! ## How far down it goes -/

open Classical in
/-- The number of rows below a key. -/
noncomputable def size (T : Forest α κ) (t : κ) : ℕ :=
  T.rows.countP fun r => decide (T.Descendant t r)

theorem size_le (T : Forest α κ) (t : κ) : T.size t ≤ T.rows.length := List.countP_le_length

/-- There is less below a child than below its parent, unless the child is below
    itself. -/
theorem size_lt_of_not_cycle {r : α} (hr : r ∈ T.rows) (hparent : T.parent r = t)
    (hcycle : ¬ T.Descendant (T.key r) r) : T.size (T.key r) < T.size t := by
  classical
  obtain ⟨front, rest, hsplit⟩ := List.append_of_mem hr
  have hmono : ∀ x, T.Descendant (T.key r) x → T.Descendant t x :=
    fun x hx => .of_child hr hparent hx
  have hfront := List.countP_mono_left (l := front)
    (p := fun x => decide (T.Descendant (T.key r) x)) (q := fun x => decide (T.Descendant t x))
    fun x _ hx => by simpa using hmono x (of_decide_eq_true hx)
  have hrest := List.countP_mono_left (l := rest)
    (p := fun x => decide (T.Descendant (T.key r) x)) (q := fun x => decide (T.Descendant t x))
    fun x _ hx => by simpa using hmono x (of_decide_eq_true hx)
  have hself : T.Descendant t r := .child hr hparent
  unfold size
  rw [hsplit, List.countP_append, List.countP_append, List.countP_cons, List.countP_cons,
    if_neg (by simpa using hcycle), if_pos (by simpa using hself)]
  omega

/-- Without cycles there is less below a child than below its parent. -/
theorem size_lt {r : α} (hT : T.Acyclic) (hr : r ∈ T.rows) (hparent : T.parent r = t) :
    T.size (T.key r) < T.size t :=
  size_lt_of_not_cycle hr hparent (hT r hr)

/-! ## When a scan ends -/

/-- No row below the key is below itself. -/
def AcyclicBelow (T : Forest α κ) (t : κ) : Prop :=
  ∀ r, T.Descendant t r → ¬ T.Descendant (T.key r) r

theorem Acyclic.below (hT : T.Acyclic) (t : κ) : T.AcyclicBelow t := fun r hr => hT r hr.mem

theorem AcyclicBelow.of_child {r : α} (h : T.AcyclicBelow t) (hr : r ∈ T.rows)
    (hparent : T.parent r = t) : T.AcyclicBelow (T.key r) :=
  fun x hx => h x (.of_child hr hparent hx)

/-- Where there is no cycle, the scan ends. -/
theorem AcyclicBelow.exists_lists (h : T.AcyclicBelow t) : ∃ out, T.Lists t T.rows out := by
  induction hsize : T.size t using Nat.strongRecOn generalizing t with
  | ind k ih =>
    have hbelow : ∀ r ∈ T.rows, T.parent r = t → ∃ below, T.Lists (T.key r) T.rows below := by
      intro r hr hparent
      refine ih _ ?_ (h.of_child hr hparent) rfl
      rw [← hsize]
      exact size_lt_of_not_cycle hr hparent (h r (.child hr hparent))
    suffices hscan : ∀ rs, (∀ r ∈ rs, r ∈ T.rows) → ∃ out, T.Lists t rs out from
      hscan T.rows fun _ hr => hr
    intro rs hrs
    induction rs with
    | nil => exact ⟨[], .nil t⟩
    | cons r rs ihrs =>
      rw [List.forall_mem_cons] at hrs
      obtain ⟨out, hout⟩ := ihrs hrs.2
      by_cases hparent : T.parent r = t
      · obtain ⟨below, hbelow⟩ := hbelow r hrs.1 hparent
        exact ⟨_, .child hparent hbelow hout⟩
      · exact ⟨out, .skip hparent hout⟩

theorem exists_lists_iff : (∃ out, T.Lists t T.rows out) ↔ T.AcyclicBelow t :=
  ⟨fun ⟨_, h⟩ _ hr => h.not_cycle hr, AcyclicBelow.exists_lists⟩

/-- The rows below a key: each once, parents first, siblings in their order. -/
structure Listing (T : Forest α κ) (t : κ) (out : List α) : Prop where
  descendants : ∀ r, r ∈ out ↔ T.Descendant t r
  once : out.Nodup
  parents : ∀ p ∈ out, ∀ r ∈ out, T.parent r = T.key p → Before out p r
  siblings : ∀ a ∈ out, ∀ b ∈ out, T.parent a = T.parent b → Before T.rows a b → Before out a b

theorem Lists.listing (h : T.Lists t T.rows out) (hT : T.Acyclic) (hkeys : T.Distinct) :
    T.Listing t out where
  descendants _ := h.mem_iff
  once := h.nodup hT hkeys (fun _ hr => hr) (List.Nodup.of_map T.key hkeys)
  parents _ hp _ hr hparent := h.before_of_parent hp (h.mem_iff.mp hr).mem hparent
  siblings _ ha _ _ hparent hab := h.before_of_siblings ha hab hparent

/-! ## Another table with the same rows in it -/

variable {β : Type*} {S : Forest β κ} {f : α → β} {extra : List β}

theorem Lists.skip_append {os : List β} {out' : List β} (h : S.Lists t os out')
    (hextra : ∀ x ∈ extra, S.parent x ≠ t) : S.Lists t (extra ++ os) out' := by
  induction extra with
  | nil => exact h
  | cons x extra ih =>
    rw [List.forall_mem_cons] at hextra
    exact .skip hextra.1 (ih hextra.2)

/-- Rows that are below nothing in front of the table do not matter. -/
theorem Lists.image (h : T.Lists t rs out) (extra : List β) (hkey : ∀ r, S.key (f r) = T.key r)
    (hparent : ∀ r, S.parent (f r) = T.parent r) (hrows : S.rows = extra ++ T.rows.map f)
    (hrs : ∀ r ∈ rs, r ∈ T.rows) (hextra : ∀ x ∈ extra, ∀ r ∈ T.rows, S.parent x ≠ T.key r) :
    S.Lists t (rs.map f) (out.map f) := by
  induction h with
  | nil => exact .nil _
  | skip hskip h ih =>
    rw [List.forall_mem_cons] at hrs
    exact .skip (by rwa [hparent]) (ih hrs.2)
  | @child t r rs below out hchild hbelow h ihbelow ih =>
    rw [List.forall_mem_cons] at hrs
    rw [List.map_cons, List.map_cons, List.map_append]
    refine .child ((hparent r).trans hchild) ?_ (ih hrs.2)
    rw [hkey, hrows]
    exact (ihbelow fun _ hr => hr).skip_append fun x hx => hextra x hx r hrs.1

end Forest

end Cmput379.Lib
