import Mathlib.Data.List.Basic
import Mathlib.Data.List.Perm.Basic
import Mathlib.Data.Nat.Basic
import Mathlib.Order.Lattice
import Mathlib.Tactic.Common

/-!
# Stable sorting by a key

A list is the stable sort of another one when it is sorted by the key and has the same elements of
every key, in the same order.

* `sorted_mergeSort`      the sort is sorted;
* `eq_of_sorted`          a sorted list is known from its elements of every key;
* `ofKey_mergeSort`       sorting leaves the elements of a key in order;
* `eq_mergeSort`          a sorted list with the same elements of every key is the stable sort.
-/

namespace StableSort

variable {α : Type*} {key : α → Nat}

section
variable {β : Type*} [LinearOrder β] (key : α → β)

theorem key_trans (a b c : α) (hab : decide (key a ≤ key b) = true)
    (hbc : decide (key b ≤ key c) = true) : decide (key a ≤ key c) = true :=
  decide_eq_true (le_trans (of_decide_eq_true hab) (of_decide_eq_true hbc))

theorem key_total (a b : α) : (decide (key a ≤ key b) || decide (key b ≤ key a)) = true := by
  rw [Bool.or_eq_true, decide_eq_true_iff, decide_eq_true_iff]
  exact le_total (key a) (key b)

theorem sorted_mergeSort (l : List α) :
    (l.mergeSort fun a b => decide (key a ≤ key b)).Pairwise fun a b => key a ≤ key b :=
  (List.pairwise_mergeSort (key_trans key) (key_total key) l).imp of_decide_eq_true

end

/-- the elements with a key, in order -/
def ofKey (key : α → Nat) (r : Nat) (l : List α) : List α := l.filter fun a => key a = r

theorem ofKey_cons_self (a : α) (l : List α) : ofKey key (key a) (a :: l) = a :: ofKey key (key a) l :=
  List.filter_cons_of_pos (decide_eq_true rfl)

theorem ofKey_cons_ne {a : α} {r : Nat} (h : key a ≠ r) (l : List α) :
    ofKey key r (a :: l) = ofKey key r l :=
  List.filter_cons_of_neg (by simpa using h)

theorem ofKey_append (r : Nat) (l m : List α) :
    ofKey key r (l ++ m) = ofKey key r l ++ ofKey key r m := List.filter_append l m

theorem ofKey_eq_nil {r : Nat} {l : List α} (h : ∀ a ∈ l, key a ≠ r) : ofKey key r l = [] :=
  List.filter_eq_nil_iff.mpr fun a ha hr => h a ha (of_decide_eq_true hr)

theorem mem_of_ofKey {l m : List α} (h : ∀ r, ofKey key r l = ofKey key r m) {a : α} (ha : a ∈ l) :
    a ∈ m := by
  have hl : a ∈ ofKey key (key a) l := List.mem_filter.mpr ⟨ha, decide_eq_true rfl⟩
  rw [h] at hl
  exact (List.mem_filter.mp hl).1

/-- **A sorted list is known from its elements of every key.** -/
theorem eq_of_sorted {l m : List α} (hl : l.Pairwise fun a b => key a ≤ key b)
    (hm : m.Pairwise fun a b => key a ≤ key b) (h : ∀ r, ofKey key r l = ofKey key r m) : l = m := by
  induction l generalizing m with
  | nil =>
    cases m with
    | nil => rfl
    | cons b m => exact absurd (mem_of_ofKey (fun r => (h r).symm) List.mem_cons_self) List.not_mem_nil
  | cons a l ih =>
    cases m with
    | nil => exact absurd (mem_of_ofKey h List.mem_cons_self) List.not_mem_nil
    | cons b m =>
      obtain ⟨hla, hl'⟩ := List.pairwise_cons.mp hl
      obtain ⟨hmb, hm'⟩ := List.pairwise_cons.mp hm
      -- both heads have the least key
      have hab : key a ≤ key b := by
        rcases List.mem_cons.mp (mem_of_ofKey (fun r => (h r).symm) (List.mem_cons_self (l := m)))
          with e | hb
        · exact Nat.le_of_eq (congrArg key e.symm)
        · exact hla b hb
      have hba : key b ≤ key a := by
        rcases List.mem_cons.mp (mem_of_ofKey h (List.mem_cons_self (l := l))) with e | ha
        · exact Nat.le_of_eq (congrArg key e.symm)
        · exact hmb a ha
      have hkey : key a = key b := Nat.le_antisymm hab hba
      have hhead := h (key a)
      rw [ofKey_cons_self, hkey, ofKey_cons_self] at hhead
      obtain ⟨rfl, htail⟩ := List.cons.inj hhead
      refine congrArg (a :: ·) (ih hl' hm' fun r => ?_)
      by_cases hr : key a = r
      · rw [← hr]
        exact htail
      · have hr' := h r
        rwa [ofKey_cons_ne hr, ofKey_cons_ne hr] at hr'

theorem ofKey_mergeSort (key : α → Nat) (r : Nat) (l : List α) :
    ofKey key r (l.mergeSort fun a b => key a ≤ key b) = ofKey key r l := by
  -- the elements of one key are sorted, so they stay in order
  have hsame : (ofKey key r l).Pairwise fun a b => decide (key a ≤ key b) = true := by
    apply List.pairwise_of_forall_mem_list
    intro a ha b hb
    have hka : key a = r := of_decide_eq_true (List.mem_filter.mp ha).2
    have hkb : key b = r := of_decide_eq_true (List.mem_filter.mp hb).2
    exact decide_eq_true (by omega)
  have hsub := (List.sublist_mergeSort (key_trans key) (key_total key) hsame List.filter_sublist).filter
    fun a => decide (key a = r)
  rw [ofKey, List.filter_filter] at hsub
  simp only [Bool.and_self] at hsub
  refine (hsub.eq_of_length ?_).symm
  exact ((List.mergeSort_perm l _).filter _).length_eq.symm

/-- **The stable sort.** -/
theorem eq_mergeSort {l m : List α} (hl : l.Pairwise fun a b => key a ≤ key b)
    (h : ∀ r, ofKey key r l = ofKey key r m) : l = m.mergeSort fun a b => key a ≤ key b := by
  exact eq_of_sorted hl (sorted_mergeSort key m) fun r => (h r).trans (ofKey_mergeSort key r m).symm

end StableSort
