import Mathlib.Algebra.BigOperators.Group.List.Basic
import Mathlib.Algebra.Order.BigOperators.Group.List
import Mathlib.Algebra.Order.Ring.Nat

/-!
# The most recent items within a budget

Items come in at the end of a list and have a weight each; what is over the budget is dropped from the
front.

* `recent w max l`     what is left of `l`;
* `Longest`            the longest suffix within the budget;
* `longest_recent`     this is what is left;
* `recent_append`      dropping as the items come in is dropping at the end.
-/

namespace Recent

variable {α : Type*} {w : α → Nat} {max : Nat}

def weight (w : α → Nat) (l : List α) : Nat := (l.map w).sum

theorem weight_append (l l' : List α) : weight w (l ++ l') = weight w l + weight w l' := by
  rw [weight, List.map_append, List.sum_append, weight, weight]

def recent (w : α → Nat) (max : Nat) : List α → List α
  | [] => []
  | a :: l => if weight w (a :: l) ≤ max then a :: l else recent w max l

theorem recent_of_le {l : List α} (h : weight w l ≤ max) : recent w max l = l := by
  cases l with
  | nil => rfl
  | cons a l => exact if_pos h

theorem recent_cons_of_lt {a : α} {l : List α} (h : max < weight w (a :: l)) :
    recent w max (a :: l) = recent w max l := if_neg (Nat.not_le.mpr h)

/-- the longest suffix within the budget: every other one is a suffix of it -/
structure Longest (w : α → Nat) (max : Nat) (l k : List α) : Prop where
  suffix : k <:+ l
  fits : weight w k ≤ max
  longest : ∀ k', k' <:+ l → weight w k' ≤ max → k' <:+ k

theorem longest_recent (l : List α) : Longest w max l (recent w max l) := by
  induction l with
  | nil =>
    refine ⟨List.suffix_refl [], Nat.zero_le max, fun k' h _ => ?_⟩
    rw [List.suffix_nil.mp h]
    exact List.suffix_refl _
  | cons a l ih =>
    by_cases hle : weight w (a :: l) ≤ max
    · rw [recent_of_le hle]
      exact ⟨List.suffix_refl _, hle, fun _ h _ => h⟩
    · rw [recent_cons_of_lt (Nat.not_le.mp hle)]
      refine ⟨ih.suffix.trans (List.suffix_cons a l), ih.fits, fun k' h hk' => ?_⟩
      rcases List.suffix_cons_iff.mp h with rfl | h'
      · exact absurd hk' hle
      · exact ih.longest k' h' hk'

/-- **What was dropped early is dropped at the end too.** -/
theorem recent_append (l l' : List α) :
    recent w max (recent w max l ++ l') = recent w max (l ++ l') := by
  induction l with
  | nil => rfl
  | cons a l ih =>
    by_cases hle : weight w (a :: l) ≤ max
    · rw [recent_of_le hle]
    · have hlt : max < weight w (a :: (l ++ l')) := by
        have hsum : weight w (a :: (l ++ l')) = weight w (a :: l) + weight w l' :=
          weight_append (a :: l) l'
        omega
      rw [recent_cons_of_lt (Nat.not_le.mp hle), ih, List.cons_append, recent_cons_of_lt hlt]

end Recent
