import Purrlington.Lib.Dict
import Mathlib.Data.List.Count
import Mathlib.Algebra.BigOperators.Group.List.Basic
import Mathlib.Algebra.Order.Ring.Nat

/-!
# Counters in dictionaries

A dictionary of numbers, in which a key that is missing stands for zero.

* `add`, `merge`      a number is added for a key, and all the numbers of another dictionary;
* `Counts d ks`       `d` has how often each key occurs in `ks`, and no other key;
* `count`             one for each key of a list;
* `Counts.count`, `Counts.merge`   counting more keys, and adding up two countings;
* `total_count`       what the numbers add up to.
-/

namespace Counter
open Dict

variable {κ : Type*} [DecidableEq κ]

def add (d : Dict κ Nat) (k : κ) (n : Nat) : Dict κ Nat := d.set k ((d.get? k).getD 0 + n)

def merge (d d' : Dict κ Nat) : Dict κ Nat := d'.items.foldl (fun d p => add d p.1 p.2) d

/-- one for each of the keys -/
def count (d : Dict κ Nat) (ks : List κ) : Dict κ Nat := ks.foldl (fun d k => add d k 1) d

/-- every key with how often it occurs -/
def Counts (d : Dict κ Nat) (ks : List κ) : Prop :=
  ∀ k, d.get? k = if k ∈ ks then some (ks.count k) else none

section
variable {d d' : Dict κ Nat} {ks ks' : List κ}

theorem get?_add_self (d : Dict κ Nat) (k : κ) (n : Nat) :
    (add d k n).get? k = some ((d.get? k).getD 0 + n) := get?_set_self d k _

theorem get?_add_ne (d : Dict κ Nat) {k k' : κ} (h : k' ≠ k) (n : Nat) :
    (add d k n).get? k' = d.get? k' := get?_set_ne d h _

theorem Counts.getD (h : Counts d ks) (k : κ) : (d.get? k).getD 0 = ks.count k := by
  rw [h k]
  by_cases hk : k ∈ ks
  · rw [if_pos hk]
    rfl
  · rw [if_neg hk, List.count_eq_zero.mpr hk]
    rfl

theorem Counts.unique (h : Counts d ks) (h' : Counts d' ks) (k : κ) : d.get? k = d'.get? k :=
  (h k).trans (h' k).symm

theorem counts_empty : Counts (empty : Dict κ Nat) [] := fun _ => rfl

theorem Counts.snoc (h : Counts d ks) (k : κ) : Counts (add d k 1) (ks ++ [k]) := by
  intro k'
  by_cases e : k' = k
  · subst e
    have hmem : k' ∈ ks ++ [k'] := List.mem_append_right ks (List.mem_singleton.mpr rfl)
    rw [get?_add_self, h.getD, if_pos hmem, List.count_append, List.count_singleton_self]
  · have hmem : k' ∈ ks ++ [k] ↔ k' ∈ ks := by simp [e]
    have hcount : (ks ++ [k]).count k' = ks.count k' := by
      rw [List.count_append, List.count_singleton, if_neg (by simpa using fun h => e h.symm),
        Nat.add_zero]
    rw [get?_add_ne d e, h k', hcount, if_congr hmem rfl rfl]

theorem Counts.count (h : Counts d ks) (ks' : List κ) : Counts (count d ks') (ks ++ ks') := by
  induction ks' generalizing d ks with
  | nil =>
    rw [List.append_nil]
    exact h
  | cons k ks' ih =>
    have := ih (h.snoc k)
    rwa [List.append_assoc] at this

theorem get?_foldl_add {l : List (κ × Nat)} (hl : (l.map Prod.fst).Nodup) (d : Dict κ Nat) (k : κ) :
    (l.foldl (fun d p => add d p.1 p.2) d).get? k =
      match find k l with
      | none => d.get? k
      | some n => some ((d.get? k).getD 0 + n) := by
  induction l generalizing d with
  | nil => rfl
  | cons p l ih =>
    rw [List.map_cons, List.nodup_cons] at hl
    rw [List.foldl_cons, ih hl.2, find]
    by_cases e : p.1 = k
    · have hnone : find k l = none := find_eq_none.mpr (e ▸ hl.1)
      rw [if_pos e, hnone]
      subst e
      exact get?_add_self d p.1 p.2
    · rw [if_neg e, get?_add_ne d (Ne.symm e)]

/-- **To add up two countings is to count both lists.** -/
theorem Counts.merge (h : Counts d ks) (h' : Counts d' ks') : Counts (merge d d') (ks ++ ks') := by
  intro k
  have hfind : find k d'.items = if k ∈ ks' then some (ks'.count k) else none := h' k
  rw [Counter.merge, get?_foldl_add d'.nodup, hfind, List.count_append]
  by_cases hk' : k ∈ ks'
  · rw [if_pos hk', if_pos (List.mem_append_right ks hk')]
    dsimp only
    rw [h.getD]
  · have hmem : k ∈ ks ++ ks' ↔ k ∈ ks := by simp [hk']
    rw [if_neg hk', List.count_eq_zero.mpr hk', if_congr hmem rfl rfl]
    exact h k

/-! ## the sum -/

def total (d : Dict κ Nat) : Nat := d.values.sum

theorem sum_put {k : κ} {v : Nat} {l : List (κ × Nat)} (hl : (l.map Prod.fst).Nodup)
    (h : find k l = some v) (n : Nat) :
    ((put k (v + n) l).map Prod.snd).sum = (l.map Prod.snd).sum + n := by
  induction l with
  | nil => exact absurd h (by simp [find])
  | cons p l ih =>
    rw [List.map_cons, List.nodup_cons] at hl
    rw [find] at h
    rw [put, List.map_cons, List.map_cons, List.map_cons, List.sum_cons, List.sum_cons]
    by_cases e : p.1 = k
    · -- no other entry has the key
      have hrest : (l.map fun p => if p.1 = k then (k, v + n) else p) = l := by
        refine List.map_congr_left (fun q hq => if_neg ?_) |>.trans (List.map_id l)
        rintro rfl
        exact hl.1 (e ▸ List.mem_map_of_mem hq)
      rw [if_pos e] at h
      obtain rfl := Option.some.inj h
      rw [if_pos e, hrest]
      omega
    · rw [if_neg e] at h
      have := ih hl.2 h
      rw [put] at this
      rw [if_neg e, this, Nat.add_assoc]

/-- **What is added is added to the sum.** -/
theorem total_add (d : Dict κ Nat) (k : κ) (n : Nat) : total (add d k n) = total d + n := by
  unfold add Dict.set
  by_cases h : k ∈ d.keys
  · obtain ⟨v, hv⟩ := Option.ne_none_iff_exists'.mp (mt find_eq_none.mp (not_not.mpr h))
    rw [dif_pos h, get?, hv]
    exact sum_put d.nodup hv n
  · have hnone : d.get? k = none := find_eq_none.mpr h
    rw [dif_neg h, hnone]
    show ((d.items ++ [(k, 0 + n)]).map Prod.snd).sum = _
    rw [List.map_append, List.sum_append, Nat.zero_add]
    rfl

theorem total_count (d : Dict κ Nat) (ks : List κ) : total (count d ks) = total d + ks.length := by
  induction ks generalizing d with
  | nil => rfl
  | cons k ks ih =>
    show total (count (add d k 1) ks) = _
    rw [ih, total_add, List.length_cons]
    omega

end
end Counter
