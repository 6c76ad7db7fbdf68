import Purrlington.Lib.Dict
import Mathlib.Data.List.Sort

/-!
# Values put together from interleaved fragments

A sequence carries fragments of several values, each with the key of its value.  A dictionary holds
what has come of each value so far.

* `merge`, `assemble`       a fragment joins its value; the values of a whole sequence;
* `get?_assemble`           a value is made of the fragments with its key, in their order, however
                            they are interleaved with others;
* `Dict.sorted_items`       the items in the order of their keys, from the lookups.
-/

set_option linter.unusedSectionVars false

namespace Fragments

section
variable {κ φ σ : Type*} [DecidableEq κ] (key : φ → κ) (add : σ → φ → σ) (init : σ)

def merge (d : Dict κ σ) (x : φ) : Dict κ σ :=
  d.set (key x) (add ((d.get? (key x)).getD init) x)

def assemble (xs : List φ) : Dict κ σ := xs.foldl (merge key add init) .empty

variable {key add init}

theorem get?_merge_self {x : φ} {k : κ} (h : key x = k) (d : Dict κ σ) :
    (merge key add init d x).get? k = some (add ((d.get? k).getD init) x) := by
  subst h
  exact Dict.get?_set_self d _ _

theorem get?_merge_ne {x : φ} {k : κ} (h : key x ≠ k) (d : Dict κ σ) :
    (merge key add init d x).get? k = d.get? k :=
  Dict.get?_set_ne d (fun e => h e.symm) _

theorem get?_foldl_of_some {k : κ} {v : σ} (xs : List φ) {d : Dict κ σ} (h : d.get? k = some v) :
    (xs.foldl (merge key add init) d).get? k =
      some ((xs.filter fun x => key x = k).foldl add v) := by
  induction xs generalizing d v with
  | nil => exact h
  | cons x xs ih =>
    rw [List.foldl_cons]
    by_cases e : key x = k
    · have hx : (merge key add init d x).get? k = some (add v x) := by
        rw [get?_merge_self e, h, Option.getD_some]
      rw [List.filter_cons_of_pos (by simp [e]), List.foldl_cons]
      exact ih hx
    · rw [List.filter_cons_of_neg (by simp [e])]
      exact ih ((get?_merge_ne e d).trans h)

theorem get?_foldl_of_none {k : κ} (xs : List φ) {d : Dict κ σ} (h : d.get? k = none) :
    (xs.foldl (merge key add init) d).get? k =
      if (xs.filter fun x => key x = k) = [] then none
      else some ((xs.filter fun x => key x = k).foldl add init) := by
  induction xs generalizing d with
  | nil => exact h
  | cons x xs ih =>
    rw [List.foldl_cons]
    by_cases e : key x = k
    · have hx : (merge key add init d x).get? k = some (add init x) := by
        rw [get?_merge_self e, h, Option.getD_none]
      rw [List.filter_cons_of_pos (by simp [e]), if_neg (by simp), List.foldl_cons]
      exact get?_foldl_of_some xs hx
    · rw [List.filter_cons_of_neg (by simp [e])]
      exact ih ((get?_merge_ne e d).trans h)

/-- **A value is made of its own fragments, in their order.** -/
theorem get?_assemble (xs : List φ) (k : κ) :
    (assemble key add init xs).get? k =
      if (xs.filter fun x => key x = k) = [] then none
      else some ((xs.filter fun x => key x = k).foldl add init) :=
  get?_foldl_of_none xs rfl

end
end Fragments

namespace Dict

theorem sorted_items {κ ν : Type*} [LinearOrder κ] {d : Dict κ ν} {l : List (κ × ν)}
    (hl : l.Pairwise fun a b => a.1 < b.1) (h : ∀ k v, (k, v) ∈ l ↔ d.get? k = some v) :
    (d.items.insertionSort fun a b => a.1 ≤ b.1) = l := by
  have hnodup : l.Nodup := hl.imp fun hab e => absurd (congrArg Prod.fst e) (ne_of_lt hab)
  have hperm : (d.items.insertionSort fun a b => a.1 ≤ b.1).Perm l := by
    refine (List.perm_insertionSort _ d.items).trans ?_
    refine (List.perm_ext_iff_of_nodup d.nodup.of_map hnodup).mpr ?_
    rintro ⟨k, v⟩
    rw [mem_items_iff, h]
  have hsorted : (d.items.insertionSort fun a b => a.1 ≤ b.1).Pairwise fun a b => a.1 ≤ b.1 :=
    List.pairwise_insertionSort _ d.items
  refine List.Perm.eq_of_pairwise ?_ hsorted (hl.imp le_of_lt) hperm
  -- equal keys are of equal items
  rintro ⟨k, v⟩ ⟨k', v'⟩ ha hb hab hba
  obtain rfl : k = k' := le_antisymm hab hba
  have hv := (h k v).mp (hperm.subset ha)
  have hv' := (h k v').mp hb
  rw [hv] at hv'
  rw [Option.some.inj hv']

end Dict
