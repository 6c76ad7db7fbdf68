import Mathlib.Data.List.Basic
import Mathlib.Data.List.TakeWhile
import Mathlib.Tactic.Common

/-!
# Framing: when a concatenation can be taken apart again

* `append_sep_inj`         the first occurrence of a separator that the left parts avoid;
* `append_sep_inj_right`   the last occurrence of a separator that the right parts avoid;
* `intercalate_inj`        a joined list of nonempty parts that avoid the separator;
* `ungroup_inj`            a multimap in key order, written out pair by pair;
* `cut`, `cut_append_cons` what stands before and after the first separator;
* `lines`, `lines_cons`    the lines of a text, and the first of them;
* `strip`, `strip_between` trimming, and a text that begins and ends with other items.
-/

namespace Framing

variable {α β : Type*}

theorem append_sep_inj {sep : α} {l l' r r' : List α} (hl : sep ∉ l) (hl' : sep ∉ l')
    (e : l ++ sep :: r = l' ++ sep :: r') : l = l' ∧ r = r' := by
  induction l generalizing l' with
  | nil =>
    cases l' with
    | nil => exact ⟨rfl, (List.cons.inj e).2⟩
    | cons b l' =>
      rw [(List.cons.inj e).1] at hl'
      exact absurd List.mem_cons_self hl'
  | cons a l ih =>
    cases l' with
    | nil =>
      rw [← (List.cons.inj e).1] at hl
      exact absurd List.mem_cons_self hl
    | cons b l' =>
      obtain ⟨rfl, e'⟩ := List.cons.inj e
      obtain ⟨rfl, hr⟩ := ih (fun h => hl (List.mem_cons_of_mem _ h))
        (fun h => hl' (List.mem_cons_of_mem _ h)) e'
      exact ⟨rfl, hr⟩

theorem append_sep_inj_right {sep : α} {l l' r r' : List α} (hr : sep ∉ r) (hr' : sep ∉ r')
    (e : l ++ sep :: r = l' ++ sep :: r') : l = l' ∧ r = r' := by
  have e' := congrArg List.reverse e
  rw [List.reverse_append, List.reverse_append, List.reverse_cons, List.reverse_cons,
    List.append_assoc, List.append_assoc] at e'
  obtain ⟨h1, h2⟩ := append_sep_inj (fun h => hr (List.mem_reverse.mp h))
    (fun h => hr' (List.mem_reverse.mp h)) e'
  exact ⟨List.reverse_injective h2, List.reverse_injective h1⟩

/-- what stands before the first separator, and what after it -/
def cut [DecidableEq α] (sep : α) (s : List α) : List α × List α :=
  (s.takeWhile fun a => a ≠ sep, (s.dropWhile fun a => a ≠ sep).tail)

theorem cut_append_cons [DecidableEq α] {sep : α} {l : List α} (h : sep ∉ l) (r : List α) :
    cut sep (l ++ sep :: r) = (l, r) := by
  have hl : ∀ a ∈ l, decide (a ≠ sep) = true := fun a ha => decide_eq_true fun e => h (e ▸ ha)
  unfold cut
  rw [List.takeWhile_append_of_pos hl, List.dropWhile_append_of_pos hl]
  simp

theorem cut_of_not_mem [DecidableEq α] {sep : α} {l : List α} (h : sep ∉ l) :
    cut sep l = (l, []) := by
  have hl : ∀ a ∈ l, decide (a ≠ sep) = true := fun a ha => decide_eq_true fun e => h (e ▸ ha)
  unfold cut
  rw [List.takeWhile_eq_self_iff.mpr hl, List.dropWhile_eq_nil_iff.mpr hl]
  rfl

/-- joined parts that avoid the separator are found again by splitting at it -/
theorem intercalate_inj [DecidableEq α] {sep : α} {ps qs : List (List α)}
    (hp : ∀ p ∈ ps, p ≠ [] ∧ sep ∉ p) (hq : ∀ q ∈ qs, q ≠ [] ∧ sep ∉ q)
    (e : [sep].intercalate ps = [sep].intercalate qs) : ps = qs := by
  have split : ∀ l : List (List α), (∀ p ∈ l, p ≠ [] ∧ sep ∉ p) →
      (([sep].intercalate l).splitOn sep).filter (· ≠ []) = l := by
    intro l hl
    by_cases h0 : l = []
    · subst h0
      rw [List.intercalate_nil, List.splitOn_nil]
      rfl
    · rw [List.splitOn_intercalate sep (fun p h => (hl p h).2) h0, List.filter_eq_self]
      exact fun p h => decide_eq_true (hl p h).1
  rw [← split ps hp, e, split qs hq]

theorem mem_intercalate {s a : α} {ps : List (List α)}
    (h : a ∈ [s].intercalate ps) : a = s ∨ ∃ p ∈ ps, a ∈ p := by
  induction ps with
  | nil => exact absurd h (by simp)
  | cons p ps ih =>
    cases ps with
    | nil =>
      rw [List.intercalate_singleton] at h
      exact .inr ⟨p, List.mem_cons_self, h⟩
    | cons p' ps =>
      rw [List.intercalate_cons_cons, List.append_assoc] at h
      rcases List.mem_append.mp h with h | h
      · exact .inr ⟨p, List.mem_cons_self, h⟩
      · rcases List.mem_cons.mp h with h | h
        · exact .inl h
        · rcases ih h with h | ⟨p, hp, ha⟩
          · exact .inl h
          · exact .inr ⟨p, List.mem_cons_of_mem _ hp, ha⟩

/-! ## groups

A multimap is a list of keys with their values; written out, it is one pair a value. -/

section
variable {κ ν : Type*}

/-- one pair for each value of each key -/
def ungroup (m : List (κ × List ν)) : List (κ × ν) :=
  m.flatMap fun g => g.2.map fun v => (g.1, v)

theorem ungroup_cons (g : κ × List ν) (m : List (κ × List ν)) :
    ungroup (g :: m) = g.2.map (fun v => (g.1, v)) ++ ungroup m := rfl

theorem fst_mem_of_mem_ungroup {m : List (κ × List ν)} {p : κ × ν} (h : p ∈ ungroup m) :
    p.1 ∈ m.map Prod.fst := by
  obtain ⟨g, hg, hp⟩ := List.mem_flatMap.mp h
  obtain ⟨v, _, rfl⟩ := List.mem_map.mp hp
  exact List.mem_map_of_mem hg

theorem filter_ungroup_cons [DecidableEq κ] {k : κ} (vs : List ν) {m : List (κ × List ν)}
    (hk : k ∉ m.map Prod.fst) :
    (ungroup ((k, vs) :: m)).filter (fun p => p.1 = k) = vs.map (fun v => (k, v)) ∧
      (ungroup ((k, vs) :: m)).filter (fun p => p.1 ≠ k) = ungroup m := by
  have hm : ∀ p ∈ ungroup m, p.1 ≠ k := fun p hp e => hk (e ▸ fst_mem_of_mem_ungroup hp)
  rw [ungroup_cons, List.filter_append, List.filter_append]
  constructor
  · rw [List.filter_eq_self.mpr, List.filter_eq_nil_iff.mpr, List.append_nil]
    · intro p hp
      simpa using hm p hp
    · intro p hp
      obtain ⟨v, _, rfl⟩ := List.mem_map.mp hp
      exact decide_eq_true rfl
  · rw [List.filter_eq_nil_iff.mpr, List.filter_eq_self.mpr, List.nil_append]
    · intro p hp
      exact decide_eq_true (hm p hp)
    · intro p hp
      obtain ⟨v, _, rfl⟩ := List.mem_map.mp hp
      simp

/-- groups in key order, none of them empty, are determined by their pairs -/
theorem ungroup_inj [DecidableEq κ] {lt : κ → κ → Prop} (irrefl : ∀ k, ¬ lt k k) {m m' : List (κ × List ν)}
    (hs : (m.map Prod.fst).Pairwise lt) (hs' : (m'.map Prod.fst).Pairwise lt)
    (hne : ∀ g ∈ m, g.2 ≠ []) (hne' : ∀ g ∈ m', g.2 ≠ []) (e : ungroup m = ungroup m') :
    m = m' := by
  have notin : ∀ (k : κ) (ks : List κ), (k :: ks).Pairwise lt → k ∉ ks :=
    fun k ks h hk => irrefl k ((List.pairwise_cons.mp h).1 k hk)
  induction m generalizing m' with
  | nil =>
    cases m' with
    | nil => rfl
    | cons g' m' =>
      have h := (List.append_eq_nil_iff.mp e.symm).1
      exact absurd (List.map_eq_nil_iff.mp h) (hne' g' List.mem_cons_self)
  | cons g m ih =>
    cases m' with
    | nil =>
      have h := (List.append_eq_nil_iff.mp e).1
      exact absurd (List.map_eq_nil_iff.mp h) (hne g List.mem_cons_self)
    | cons g' m' =>
      obtain ⟨k, vs⟩ := g
      obtain ⟨k', vs'⟩ := g'
      -- both texts start with a value of their first key
      have hk : k = k' := by
        obtain ⟨v, vs, rfl⟩ := List.exists_cons_of_ne_nil (hne _ List.mem_cons_self)
        obtain ⟨v', vs', rfl⟩ := List.exists_cons_of_ne_nil (hne' _ List.mem_cons_self)
        exact congrArg Prod.fst (List.cons.inj e).1
      subst hk
      obtain ⟨h1, h2⟩ := filter_ungroup_cons vs (notin k _ hs)
      obtain ⟨h1', h2'⟩ := filter_ungroup_cons vs' (notin k _ hs')
      rw [e] at h1 h2
      have hv : vs = vs' :=
        List.map_injective_iff.mpr (fun a b h => (Prod.mk.inj h).2) (h1.symm.trans h1')
      have hm : m = m' := ih (List.pairwise_cons.mp hs).2 (List.pairwise_cons.mp hs').2
        (fun g hg => hne g (List.mem_cons_of_mem _ hg))
        (fun g hg => hne' g (List.mem_cons_of_mem _ hg)) (h2.symm.trans h2')
      rw [hv, hm]

end
/-! ## lines

A line ends with a line feed, a carriage return, or the two one after the other. -/

/-- the lines after the beginning `line` (reversed) of the next one; `skipLF` follows a carriage
return -/
def linesFrom (skipLF : Bool) (line : List Char) : List Char → List (List Char)
  | [] => if line = [] then [] else [line.reverse]
  | c :: text =>
    if c = '\n' then
      if skipLF then linesFrom false line text else line.reverse :: linesFrom false [] text
    else if c = '\r' then line.reverse :: linesFrom true [] text
    else linesFrom false (c :: line) text

def lines (text : List Char) : List (List Char) := linesFrom false [] text

/-- no line ends in the text -/
def OneLine (text : List Char) : Prop := '\n' ∉ text ∧ '\r' ∉ text

theorem linesFrom_append {a : List Char} (h : OneLine a) (line b : List Char) :
    linesFrom false line (a ++ '\n' :: b) = (line.reverse ++ a) :: lines b := by
  induction a generalizing line with
  | nil =>
    rw [List.nil_append, linesFrom, if_pos rfl, List.append_nil]
    rfl
  | cons c a ih =>
    obtain ⟨hn, hr⟩ := h
    rw [List.mem_cons, not_or] at hn hr
    rw [List.cons_append, linesFrom, if_neg (fun e => hn.1 e.symm), if_neg (fun e => hr.1 e.symm),
      ih ⟨hn.2, hr.2⟩, List.reverse_cons, List.append_assoc]
    rfl

theorem lines_cons {a : List Char} (h : OneLine a) (b : List Char) :
    lines (a ++ '\n' :: b) = a :: lines b :=
  linesFrom_append h [] b

/-! ## trimming -/

/-- without the items of one kind at either end -/
def strip (p : α → Bool) (l : List α) : List α :=
  ((l.dropWhile p).reverse.dropWhile p).reverse

section
variable {p : α → Bool} {l : List α} {a : α}

theorem mem_of_mem_strip (h : a ∈ strip p l) : a ∈ l := by
  have hrev := (List.dropWhile_sublist p).subset (List.mem_reverse.mp h)
  exact (List.dropWhile_sublist p).subset (List.mem_reverse.mp hrev)

theorem mem_dropWhile_of_neg (h : a ∈ l) (hp : p a = false) : a ∈ l.dropWhile p := by
  rw [← List.takeWhile_append_dropWhile (p := p) (l := l)] at h
  rcases List.mem_append.mp h with htake | hdrop
  · have hpos := List.mem_takeWhile_imp htake
    rw [hp] at hpos
    exact absurd hpos Bool.false_ne_true
  · exact hdrop

theorem mem_strip_of_neg (h : a ∈ l) (hp : p a = false) : a ∈ strip p l := by
  apply List.mem_reverse.mpr
  exact mem_dropWhile_of_neg (List.mem_reverse.mpr (mem_dropWhile_of_neg h hp)) hp

theorem strip_map (q : β → Bool) (f : α → β) (l : List α) :
    strip q (l.map f) = (strip (q ∘ f) l).map f := by
  rw [strip, List.dropWhile_map, ← List.map_reverse, List.dropWhile_map, ← List.map_reverse, strip]

theorem strip_eq_self (hhead : ∀ a ∈ l.head?, p a = false) (hlast : ∀ a ∈ l.getLast?, p a = false) :
    strip p l = l := by
  have hdrop : ∀ {l : List α}, (∀ a ∈ l.head?, p a = false) → l.dropWhile p = l := by
    intro l h
    cases l with
    | nil => rfl
    | cons a t => exact List.dropWhile_cons_of_neg (Bool.eq_false_iff.mp (h a rfl))
  rw [strip, hdrop hhead, hdrop, List.reverse_reverse]
  rw [List.head?_reverse]
  exact hlast

theorem strip_between {x a b : α} (hx : p x = true) (ha : p a = false) (hb : p b = false)
    (s : List α) : strip p (x :: a :: (s ++ [b])) = a :: (s ++ [b]) := by
  rw [strip, List.dropWhile_cons_of_pos hx, List.dropWhile_cons_of_neg (by simp [ha]),
    ← List.cons_append, List.reverse_append, List.reverse_singleton, List.singleton_append,
    List.dropWhile_cons_of_neg (by simp [hb]), List.reverse_cons, List.reverse_reverse]

end
end Framing
