import Mathlib.Data.List.Basic
import Mathlib.Tactic.Common

/-!
# Step machines and guarded runs

A `Machine σ α` is a partial step function: `m s a` is the state after the action `a`, or `none`
where `a` is not enabled in `s`.  All nondeterminism (the scheduler, the environment, the clock)
is in the actions, so a run is a list of actions.

* `Machine.run m s as`        executes the list `as`, for evaluating a concrete run;
* `Machine.runG m G s as`     the same, stopping where the (decidable) guard `G` forbids;
* `Machine.Runs m G s as s'`  `as` leads from `s` to `s'` and every action is taken in a state
                              where the guard `G` allows it;
* `Runs.inv`                  the invariant rule: what one guarded step keeps, a run keeps;
* `Runs.inv_along`            the same, with the run so far at hand;
* `Runs.guarded`              a run of steps that each meet a guard meets it;
* `Runs.length_le`            the variant rule: how long a run can be, from a measure that every step
                              decreases, and `exists_runs`: how it ends if it never gets stuck;
* `Runs.exists_step`          where a run first reaches a property that it did not start with;
* `forall_set`, `forall_modify`, `forall_snoc`   a property of all threads, kept when one moves or a
                              new one comes;
* `exists_set`, `exists_snoc` the same for a property of some thread;
* `countP_modify_same`, `countP_modify_only`   how many threads satisfy a predicate when one moves.

A guard restricts the environment (the backend that is called, the order of two steps);
`free` is the guard that allows everything.
-/

namespace SM

variable {σ α : Type*}

/-- a partial step function -/
def Machine (σ α : Type*) := σ → α → Option σ

/-- the guard that allows every action -/
def free : σ → α → Prop := fun _ _ => True

namespace Machine

/-- execute a list of actions -/
def run (m : Machine σ α) : σ → List α → Option σ
  | s, [] => some s
  | s, a :: as => (m s a).bind fun t => run m t as

/-- execute a list of actions, each of which the guard must allow -/
def runG (m : Machine σ α) (G : σ → α → Prop) [∀ s a, Decidable (G s a)] :
    σ → List α → Option σ
  | s, [] => some s
  | s, a :: as => if G s a then (m s a).bind fun t => runG m G t as else none

/-- `as` leads from `s` to `s'`, every action allowed by `G` where it is taken -/
def Runs (m : Machine σ α) (G : σ → α → Prop) : σ → List α → σ → Prop
  | s, [], s' => s = s'
  | s, a :: as, s' => G s a ∧ ∃ t, m s a = some t ∧ Runs m G t as s'

variable {m : Machine σ α} {G G' : σ → α → Prop}

theorem runs_nil (s : σ) : m.Runs G s [] s := rfl

theorem runs_cons {s t s' : σ} {a : α} {as : List α} (hg : G s a) (hs : m s a = some t)
    (h : m.Runs G t as s') : m.Runs G s (a :: as) s' := ⟨hg, t, hs, h⟩

theorem Runs.append {s t s' : σ} {as bs : List α} (h : m.Runs G s as t) (h' : m.Runs G t bs s') :
    m.Runs G s (as ++ bs) s' := by
  induction as generalizing s with
  | nil => cases h; exact h'
  | cons a as ih =>
    obtain ⟨hg, u, hs, hu⟩ := h
    exact ⟨hg, u, hs, ih hu⟩

theorem Runs.snoc {s t s' : σ} {a : α} {as : List α} (h : m.Runs G s as t) (hg : G t a)
    (hs : m t a = some s') : m.Runs G s (as ++ [a]) s' := h.append ⟨hg, s', hs, rfl⟩

theorem Runs.split {s s' : σ} {as bs : List α} (h : m.Runs G s (as ++ bs) s') :
    ∃ t, m.Runs G s as t ∧ m.Runs G t bs s' := by
  induction as generalizing s with
  | nil => exact ⟨s, rfl, h⟩
  | cons a as ih =>
    obtain ⟨hg, u, hs, hu⟩ := h
    obtain ⟨t, ht, hb⟩ := ih hu
    exact ⟨t, ⟨hg, u, hs, ht⟩, hb⟩

theorem Runs.det {s t t' : σ} {as : List α} (h : m.Runs G s as t) (h' : m.Runs G' s as t') :
    t = t' := by
  induction as generalizing s with
  | nil => exact h.symm.trans h'
  | cons a as ih =>
    obtain ⟨_, u, hs, hu⟩ := h
    obtain ⟨_, u', hs', hu'⟩ := h'
    obtain rfl := Option.some.inj (hs.symm.trans hs')
    exact ih hu hu'

theorem Runs.mono {s s' : σ} {as : List α} (hG : ∀ s a, G s a → G' s a) (h : m.Runs G s as s') :
    m.Runs G' s as s' := by
  induction as generalizing s with
  | nil => exact h
  | cons a as ih =>
    obtain ⟨hg, t, hs, ht⟩ := h
    exact ⟨hG s a hg, t, hs, ih ht⟩

theorem Runs.and {s s' : σ} {as : List α} (h : m.Runs G s as s') (h' : m.Runs G' s as s') :
    m.Runs (fun s a => G s a ∧ G' s a) s as s' := by
  induction as generalizing s with
  | nil => exact h
  | cons a as ih =>
    obtain ⟨hg, t, hs, ht⟩ := h
    obtain ⟨hg', t', hs', ht'⟩ := h'
    obtain rfl := Option.some.inj (hs.symm.trans hs')
    exact ⟨⟨hg, hg'⟩, t, hs, ih ht ht'⟩

theorem runs_free_iff {s s' : σ} {as : List α} : m.Runs free s as s' ↔ m.run s as = some s' := by
  induction as generalizing s with
  | nil => exact ⟨fun h => congrArg some h, fun h => Option.some.inj h⟩
  | cons a as ih =>
    show (True ∧ ∃ t, m s a = some t ∧ m.Runs free t as s') ↔ (m s a).bind _ = some s'
    rw [true_and, Option.bind_eq_some_iff]
    exact exists_congr fun t => and_congr_right fun _ => ih

theorem runs_iff_runG [∀ s a, Decidable (G s a)] {s s' : σ} {as : List α} :
    m.Runs G s as s' ↔ m.runG G s as = some s' := by
  induction as generalizing s with
  | nil => exact ⟨fun h => congrArg some h, fun h => Option.some.inj h⟩
  | cons a as ih =>
    show (G s a ∧ ∃ t, m s a = some t ∧ m.Runs G t as s') ↔ ite _ _ _ = some s'
    by_cases hg : G s a
    · rw [if_pos hg, Option.bind_eq_some_iff]
      simp only [hg, true_and]
      exact exists_congr fun t => and_congr_right fun _ => ih
    · rw [if_neg hg]
      simp [hg]

/-- a guard on the actions alone is met by every action of the run -/
theorem Runs.forall_mem {Q : α → Prop} {s s' : σ} {as : List α} (h : m.Runs (fun _ a => Q a) s as s') :
    ∀ a ∈ as, Q a := by
  induction as generalizing s with
  | nil => exact fun a ha => absurd ha List.not_mem_nil
  | cons a as ih =>
    obtain ⟨hq, t, _, ht⟩ := h
    exact List.forall_mem_cons.mpr ⟨hq, ih ht⟩

/-- **The invariant rule.**  What every guarded step keeps, every guarded run keeps. -/
theorem Runs.inv {P : σ → Prop} {s s' : σ} {as : List α} (h : m.Runs G s as s')
    (hstep : ∀ s a t, P s → G s a → m s a = some t → P t) (h0 : P s) : P s' := by
  induction as generalizing s with
  | nil => cases h; exact h0
  | cons a as ih =>
    obtain ⟨hg, t, hs, ht⟩ := h
    exact ih ht (hstep s a t h0 hg hs)

/-- the same with what is known of the states that the run goes through -/
theorem Runs.inv_along {P : σ → Prop} {s s' : σ} {as : List α} (h : m.Runs G s as s')
    (hstep : ∀ bs t a t', m.Runs G s bs t → P t → G t a → m t a = some t' → P t') (h0 : P s) :
    P s' := by
  have hinv : P s' ∧ ∃ bs, m.Runs G s bs s' := by
    refine h.inv (P := fun t => P t ∧ ∃ bs, m.Runs G s bs t) ?_ ⟨h0, [], rfl⟩
    rintro t a t' ⟨hp, bs, hbs⟩ hg hm
    exact ⟨hstep bs t a t' hbs hp hg hm, bs ++ [a], hbs.snoc hg hm⟩
  exact hinv.1

/-- the same with the actions so far -/
theorem Runs.inv_history {P : List α → σ → Prop} {s s' : σ} {as : List α} (h : m.Runs G s as s')
    (hstep : ∀ bs t a t', P bs t → G t a → m t a = some t' → P (bs ++ [a]) t') (h0 : P [] s) :
    P as s' := by
  have hinv : ∀ bs, P bs s → P (bs ++ as) s' := by
    clear h0
    induction as generalizing s with
    | nil =>
      cases h
      intro bs hp
      rwa [List.append_nil]
    | cons a as ih =>
      obtain ⟨hg, t, hs, ht⟩ := h
      intro bs hp
      have := ih ht (bs ++ [a]) (hstep bs s a t hp hg hs)
      rwa [List.append_assoc, List.singleton_append] at this
  exact hinv [] h0

/-- a run meets a guard if each of its steps does, seen with the run before and after it -/
theorem Runs.guarded {s s' : σ} {as : List α} (h : m.Runs G s as s')
    (hstep : ∀ bs t a t' cs, as = bs ++ a :: cs → m.Runs G s bs t → G t a → m t a = some t' →
      m.Runs G t' cs s' → G' t a) : m.Runs G' s as s' := by
  induction as generalizing s with
  | nil => exact h
  | cons a as ih =>
    obtain ⟨hg, t, hs, ht⟩ := h
    refine ⟨hstep [] s a t as rfl rfl hg hs ht, t, hs, ih ht ?_⟩
    intro bs u b u' cs e hr
    exact hstep (a :: bs) u b u' cs (by rw [e, List.cons_append]) ⟨hg, t, hs, hr⟩

/-- **The variant rule.**  Where every step decreases a measure, no run is longer than it. -/
theorem Runs.length_le {P : σ → Prop} {μ : σ → Nat} {s s' : σ} {as : List α} (h : m.Runs G s as s')
    (hstep : ∀ s a t, P s → G s a → m s a = some t → P t ∧ μ t < μ s) (h0 : P s) :
    as.length + μ s' ≤ μ s := by
  induction as generalizing s with
  | nil =>
    cases h
    rw [List.length_nil]
    omega
  | cons a as ih =>
    obtain ⟨hg, t, hs, ht⟩ := h
    obtain ⟨hp, hlt⟩ := hstep s a t h0 hg hs
    have := ih ht hp
    rw [List.length_cons]
    omega

/-- and if a run can go on until it is done, some run gets there -/
theorem exists_runs {P Done : σ → Prop} {μ : σ → Nat}
    (hstep : ∀ s a t, P s → G s a → m s a = some t → P t ∧ μ t < μ s)
    (hnext : ∀ s, P s → Done s ∨ ∃ a t, G s a ∧ m s a = some t) {s : σ} (h0 : P s) :
    ∃ as t, m.Runs G s as t ∧ P t ∧ Done t := by
  induction hn : μ s using Nat.strongRecOn generalizing s with
  | ind n ih =>
    rcases hnext s h0 with hdone | ⟨a, t, hg, hs⟩
    · exact ⟨[], s, rfl, h0, hdone⟩
    · obtain ⟨hp, hlt⟩ := hstep s a t h0 hg hs
      obtain ⟨as, u, hr, hu⟩ := ih (μ t) (by omega) hp rfl
      exact ⟨a :: as, u, ⟨hg, t, hs, hr⟩, hu⟩

/-- what a run ends with and did not start with, one of its steps has brought about -/
theorem Runs.exists_step {P : σ → Prop} {s s' : σ} {as : List α} (h : m.Runs G s as s')
    (h0 : ¬ P s) (h1 : P s') :
    ∃ as₁ a as₂ t t', as = as₁ ++ a :: as₂ ∧ m.Runs G s as₁ t ∧ ¬ P t ∧ G t a ∧ m t a = some t' ∧
      P t' ∧ m.Runs G t' as₂ s' := by
  induction as generalizing s with
  | nil => cases h; exact absurd h1 h0
  | cons a as ih =>
    obtain ⟨hg, t, hs, ht⟩ := h
    by_cases hp : P t
    · exact ⟨[], a, as, s, t, rfl, rfl, h0, hg, hs, hp, ht⟩
    · obtain ⟨as₁, b, as₂, u, u', e, hr, hu⟩ := ih ht hp
      exact ⟨a :: as₁, b, as₂, u, u', by rw [e, List.cons_append], ⟨hg, t, hs, hr⟩, hu⟩

end Machine

/-! ## tables of threads

A table of threads is a list: a thread is named by its place in it, a new one goes to the end. -/

section
variable {τ : Type*} {l : List τ}

theorem forall_set {P : Nat → τ → Prop} {i : Nat} {t' : τ}
    (h : ∀ j t, j ≠ i → l[j]? = some t → P j t) (h' : P i t') :
    ∀ j t, (l.set i t')[j]? = some t → P j t := by
  intro j t hj
  by_cases e : i = j
  · subst e
    rw [List.getElem?_set_self'] at hj
    obtain ⟨u, _, rfl⟩ := Option.map_eq_some_iff.mp hj
    exact h'
  · rw [List.getElem?_set_ne e] at hj
    exact h j t (fun e' => e e'.symm) hj

theorem forall_modify {P : Nat → τ → Prop} {i : Nat} {f : τ → τ}
    (h : ∀ j t, l[j]? = some t → P j t) (hf : ∀ t, l[i]? = some t → P i (f t)) :
    ∀ j t, (l.modify i f)[j]? = some t → P j t := by
  intro j t hj
  rw [List.getElem?_modify] at hj
  obtain ⟨u, hu, rfl⟩ := Option.map_eq_some_iff.mp hj
  by_cases e : i = j
  · subst e
    rw [if_pos rfl]
    exact hf u hu
  · rw [if_neg e]
    exact h j u hu

theorem map_modify_same {υ : Type*} {q : τ → υ} {i : Nat} {f : τ → τ}
    (h : ∀ t, l[i]? = some t → q (f t) = q t) : (l.modify i f).map q = l.map q := by
  apply List.ext_getElem?
  intro j
  rw [List.getElem?_map, List.getElem?_map, List.getElem?_modify]
  cases hj : l[j]? with
  | none => rfl
  | some t =>
    show some (q (if i = j then f t else t)) = some (q t)
    split
    · rename_i e
      subst e
      rw [h t hj]
    · rfl

section
variable {p : τ → Bool} {i : Nat} {f : τ → τ}

theorem countP_modify_same (h : ∀ t, l[i]? = some t → p (f t) = p t) :
    (l.modify i f).countP p = l.countP p := by
  have hcount : ∀ m : List τ, m.countP p = (m.map p).countP id := fun m => by
    rw [List.countP_map]
    rfl
  rw [hcount, hcount, map_modify_same h]

/-- if only one thread satisfies `p`, and is changed so that it does not, then none does -/
theorem countP_modify_only (hf : ∀ t, p (f t) = false)
    (honly : ∀ j t, l[j]? = some t → p t = true → j = i) : (l.modify i f).countP p = 0 := by
  rw [List.countP_eq_zero]
  intro t ht hp
  obtain ⟨j, hj⟩ := List.mem_iff_getElem?.mp ht
  rw [List.getElem?_modify] at hj
  obtain ⟨u, hu, rfl⟩ := Option.map_eq_some_iff.mp hj
  split at hp
  · exact absurd hp (by rw [hf u]; exact Bool.false_ne_true)
  · rename_i hne
    exact hne (honly j u hu hp).symm

theorem countP_pos_of_any (h : l[i]?.any p = true) : 0 < l.countP p := by
  obtain ⟨t, ht, hp⟩ := (Option.any_eq_true ..).mp h
  exact List.countP_pos_iff.mpr ⟨t, List.mem_of_getElem? ht, hp⟩

theorem not_of_countP_zero (h : l.countP p = 0) {j : Nat} {t : τ} (hj : l[j]? = some t) :
    p t ≠ true :=
  List.countP_eq_zero.mp h t (List.mem_of_getElem? hj)

end

theorem forall_snoc {P : Nat → τ → Prop} {t' : τ}
    (h : ∀ j t, l[j]? = some t → P j t) (h' : P l.length t') :
    ∀ j t, (l ++ [t'])[j]? = some t → P j t := by
  intro j t hj
  rcases Nat.lt_trichotomy j l.length with hlt | rfl | hgt
  · rw [List.getElem?_append_left hlt] at hj
    exact h j t hj
  · rw [List.getElem?_concat_length] at hj
    obtain rfl := Option.some.inj hj
    exact h'
  · rw [List.getElem?_eq_none (by rw [List.length_append, List.length_singleton]; omega)] at hj
    exact absurd hj (by simp)

theorem getElem?_snoc {t t' : τ} {i : Nat} (h : (l ++ [t'])[i]? = some t) :
    l[i]? = some t ∨ (i = l.length ∧ t = t') :=
  forall_snoc (P := fun j u => l[j]? = some u ∨ (j = l.length ∧ u = t')) (fun _ _ hj => .inl hj)
    (.inr ⟨rfl, rfl⟩) i t h

theorem get_set_keeps {υ : Type*} (q : τ → υ) {i j : Nat} {t u u' : τ} (hj : l[j]? = some u)
    (hq : q u' = q u) (hi : l[i]? = some t) : ∃ t', (l.set j u')[i]? = some t' ∧ q t' = q t := by
  by_cases e : j = i
  · subst e
    obtain rfl := Option.some.inj (hi.symm.trans hj)
    exact ⟨u', List.getElem?_set_self (List.getElem?_eq_some_iff.mp hj).1, hq⟩
  · exact ⟨t, (List.getElem?_set_ne e).trans hi, rfl⟩

theorem get_snoc_keeps {t t' : τ} {i : Nat} (hi : l[i]? = some t) : (l ++ [t'])[i]? = some t :=
  (List.getElem?_append_left (List.getElem?_eq_some_iff.mp hi).1).trans hi

theorem exists_set {P P' : τ → Prop} {i : Nat} {t t' : τ} (hi : l[i]? = some t)
    (h : ∃ u ∈ l, P u) (ht : P t → P' t') (hu : ∀ u, P u → P' u) : ∃ u ∈ l.set i t', P' u := by
  obtain ⟨u, hm, hp⟩ := h
  obtain ⟨j, hj⟩ := List.mem_iff_getElem?.mp hm
  by_cases e : i = j
  · subst e
    obtain rfl := Option.some.inj (hi.symm.trans hj)
    exact ⟨t', List.mem_set (List.getElem?_eq_some_iff.mp hi).1 t', ht hp⟩
  · refine ⟨u, List.mem_iff_getElem?.mpr ⟨j, ?_⟩, hu u hp⟩
    rw [List.getElem?_set_ne e]
    exact hj

theorem exists_snoc {P : τ → Prop} {t' : τ} (h : ∃ u ∈ l, P u) : ∃ u ∈ l ++ [t'], P u := by
  obtain ⟨u, hm, hp⟩ := h
  exact ⟨u, List.mem_append_left _ hm, hp⟩

end
end SM
