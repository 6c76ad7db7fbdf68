import Mathlib.Data.List.SplitBy
import Mathlib.Data.List.TakeWhile
import Mathlib.Tactic.Common

/-!
# Maximal runs of a class of letters

A text is cut where it changes from letters of a class to others and back.

* `Leads C b run rest`     `run` is all in the class, or all outside, and `rest` does not go on with it;
* `induction`              every text is made of such runs;
* `Maximal C text i g`     `g` is a maximal run of the class, `i` letters into the text;
* `maximal_append`         these are the first run, if it is in the class, and those of the rest;
* `Maximal.unique`         no two of them meet.
-/

namespace Runs

variable {α : Type*} {C : α → Bool} {b : Bool} {run rest : List α}

structure Leads (C : α → Bool) (b : Bool) (run rest : List α) : Prop where
  uniform : ∀ c ∈ run, C c = b
  ends : ∀ c ∈ rest.head?, C c ≠ b

theorem Leads.tail {c : α} {run : List α} (h : Leads C b (c :: run) rest) : Leads C b run rest :=
  ⟨fun a ha => h.uniform a (List.mem_cons_of_mem c ha), h.ends⟩

theorem leads_span (C : α → Bool) (b : Bool) (text : List α) :
    Leads C b (text.takeWhile (C · == b)) (text.dropWhile (C · == b)) := by
  refine ⟨fun c hc => ?_, fun c hc => ?_⟩
  · have htake := List.mem_takeWhile_imp hc
    exact eq_of_beq htake
  · have hdrop := List.head?_dropWhile_not (C · == b) text
    rw [Option.mem_def.mp hc] at hdrop
    simpa using hdrop

theorem induction {P : List α → Prop} (C : α → Bool) (nil : P [])
    (append : ∀ b run rest, run ≠ [] → Leads C b run rest → P rest → P (run ++ rest))
    (text : List α) : P text := by
  induction hn : text.length using Nat.strong_induction_on generalizing text with
  | h n ih =>
    cases text with
    | nil => exact nil
    | cons c t =>
      have hrun : (c :: t).takeWhile (C · == C c) = c :: t.takeWhile (C · == C c) := by simp
      have hrest : (c :: t).dropWhile (C · == C c) = t.dropWhile (C · == C c) := by simp
      rw [← List.takeWhile_append_dropWhile (p := (C · == C c)) (l := c :: t)]
      refine append (C c) _ _ ?_ (leads_span C (C c) (c :: t)) (ih _ ?_ _ rfl)
      · rw [hrun]
        exact List.cons_ne_nil _ _
      · rw [hrest, ← hn, List.length_cons]
        exact Nat.lt_succ_of_le (List.dropWhile_suffix _).length_le

theorem takeWhile_of_leads (h : Leads C true run rest) : (run ++ rest).takeWhile C = run := by
  rw [List.takeWhile_append_of_pos h.uniform]
  cases rest with
  | nil => exact List.append_nil run
  | cons c t =>
    rw [List.takeWhile_cons_of_neg (h.ends c rfl), List.append_nil]

theorem dropWhile_of_leads (h : Leads C true run rest) : (run ++ rest).dropWhile C = rest := by
  rw [List.dropWhile_append_of_pos h.uniform]
  cases rest with
  | nil => rfl
  | cons c t => exact List.dropWhile_cons_of_neg (h.ends c rfl)

theorem eq_of_leads {run' rest' : List α} (h : Leads C true run rest) (h' : Leads C true run' rest')
    (heq : run ++ rest = run' ++ rest') : run = run' ∧ rest = rest' := by
  constructor
  · rw [← takeWhile_of_leads h, heq]
    exact takeWhile_of_leads h'
  · rw [← dropWhile_of_leads h, heq]
    exact dropWhile_of_leads h'

section splitBy

theorem splitBy_append (hne : run ≠ []) (h : Leads C b run rest) :
    (run ++ rest).splitBy (fun x y => C x == C y) = run :: rest.splitBy fun x y => C x == C y := by
  have hchain : run.IsChain fun x y => (C x == C y) = true := by
    refine List.Pairwise.isChain (List.pairwise_of_forall_mem_list fun x hx y hy => ?_)
    rw [h.uniform x hx, h.uniform y hy]
    exact beq_self_eq_true b
  have hcut : ∀ x ∈ run.getLast?, ∀ y ∈ rest.head?, (C x == C y) = false := by
    intro x hx y hy
    rw [h.uniform x (List.mem_of_mem_getLast? hx)]
    exact beq_false_of_ne (Ne.symm (h.ends y hy))
  rw [List.splitBy_append hcut, List.splitBy_of_isChain hne hchain]
  rfl

end splitBy

/-! ### the runs of a text by their places -/

structure Maximal (C : α → Bool) (text : List α) (i : Nat) (g : List α) : Prop where
  ne_nil : g ≠ []
  all : ∀ c ∈ g, C c = true
  place : ∃ before after, text = before ++ (g ++ after) ∧ before.length = i ∧
    (∀ c ∈ before.getLast?, C c = false) ∧ ∀ c ∈ after.head?, C c = false

theorem not_maximal_nil {i : Nat} {g : List α} : ¬ Maximal C [] i g := by
  rintro ⟨hne, -, before, after, htext, -⟩
  have hempty := List.append_eq_nil_iff.mp htext.symm
  exact hne (List.append_eq_nil_iff.mp hempty.2).1

theorem leads_of_maximal {g after : List α} (hall : ∀ c ∈ g, C c = true)
    (hafter : ∀ c ∈ after.head?, C c = false) : Leads C true g after :=
  ⟨hall, fun c hc => Bool.eq_false_iff.mp (hafter c hc)⟩

theorem maximal_append (hne : run ≠ []) (h : Leads C b run rest) (i : Nat) (g : List α) :
    Maximal C (run ++ rest) i g ↔
      (b = true ∧ i = 0 ∧ g = run) ∨ ∃ j, i = run.length + j ∧ Maximal C rest j g := by
  constructor
  · rintro ⟨hg, hall, before, after, htext, rfl, hleft, hright⟩
    have hlead := leads_of_maximal hall hright
    rcases List.append_eq_append_iff.mp htext with ⟨more, rfl, hrest⟩ | ⟨more, rfl, hgrp⟩
    · -- it begins in the rest
      refine .inr ⟨more.length, List.length_append, hg, hall, more, after, hrest, rfl, ?_, hright⟩
      intro c hc
      refine hleft c ?_
      rw [List.getLast?_append, Option.mem_def.mp hc]
      rfl
    · cases more with
      | nil =>
        refine .inr ⟨0, by rw [List.append_nil, Nat.add_zero], hg, hall, [], after, ?_, rfl, ?_, hright⟩
        · exact hgrp.symm
        · intro c hc
          exact absurd hc (by simp)
      | cons d more =>
        -- it begins in the run, so the run is in the class and nothing stands before it
        obtain ⟨e, g', rfl⟩ := List.exists_cons_of_ne_nil hg
        have hde : e = d := (List.cons.inj hgrp).1
        have hb : b = true := by
          rw [← h.uniform d (List.mem_append_right before List.mem_cons_self), ← hde]
          exact hall e List.mem_cons_self
        subst hb
        have hbefore : before = [] := by
          refine List.eq_nil_iff_forall_not_mem.mpr fun c hc => ?_
          obtain ⟨last, hlast⟩ := Option.isSome_iff_exists.mp
            (List.getLast?_isSome.mpr (List.ne_nil_of_mem hc))
          have hin := h.uniform last (List.mem_append_left _ (List.mem_of_mem_getLast? hlast))
          rw [hleft last hlast] at hin
          exact absurd hin (by decide)
        subst hbefore
        exact .inl ⟨rfl, rfl, (eq_of_leads hlead h hgrp).1⟩
  · rintro (⟨rfl, rfl, rfl⟩ | ⟨j, rfl, hg, hall, before, after, rfl, rfl, hleft, hright⟩)
    · refine ⟨hne, h.uniform, [], rest, rfl, rfl, fun c hc => absurd hc (by simp), fun c hc => ?_⟩
      exact Bool.eq_false_iff.mpr (h.ends c hc)
    · refine ⟨hg, hall, run ++ before, after, (List.append_assoc _ _ _).symm, List.length_append,
        fun c hc => ?_, hright⟩
      cases before with
      | cons d before =>
        rw [List.getLast?_append_of_ne_nil _ (List.cons_ne_nil d before)] at hc
        exact hleft c hc
      | nil =>
        -- the last letter of the run, and the run is not of the class of what follows it
        obtain ⟨e, g', rfl⟩ := List.exists_cons_of_ne_nil hg
        rw [List.append_nil] at hc
        have he : C e ≠ b := h.ends e rfl
        rw [hall e List.mem_cons_self] at he
        rw [h.uniform c (List.mem_of_mem_getLast? hc)]
        exact (Bool.eq_false_iff.mpr (Ne.symm he))

/-- **Two maximal runs with a letter in common are one.** -/
theorem Maximal.unique {text : List α} {i i' k : Nat} {g g' : List α} (h : Maximal C text i g)
    (h' : Maximal C text i' g') (hk : i ≤ k ∧ k < i + g.length) (hk' : i' ≤ k ∧ k < i' + g'.length) :
    i = i' ∧ g = g' := by
  induction text using Runs.induction C generalizing i i' k with
  | nil => exact absurd h not_maximal_nil
  | append b run rest hne hlead ih =>
    rcases (maximal_append hne hlead i g).mp h with ⟨-, rfl, rfl⟩ | ⟨j, rfl, hj⟩
    · rcases (maximal_append hne hlead i' g').mp h' with ⟨-, rfl, rfl⟩ | ⟨j', rfl, -⟩
      · exact ⟨rfl, rfl⟩
      · omega
    · rcases (maximal_append hne hlead i' g').mp h' with ⟨-, rfl, rfl⟩ | ⟨j', rfl, hj'⟩
      · omega
      · have hsame := ih (k := k - run.length) hj hj' (by omega) (by omega)
        exact ⟨by rw [hsame.1], hsame.2⟩

end Runs
