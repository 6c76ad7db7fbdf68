import Mathlib.Data.List.Basic
import Mathlib.Data.List.Perm.Basic
import Mathlib.Tactic.Common

/-!
# Places in a list

The places at which a predicate holds, and what a program does with a list of places: it reads the
elements there, and it removes them one by one.  Both fail at a place that the list does not have.

* `places p k l`        the places, counted from `k`, in ascending order;
* `getAt`, `popAt`      `l[i]` and `l.pop(i)` with their range check;
* `mapM_getAt`          reading places that the list has;
* `map_places_around`   what is at the places of `p`, but for one place;
* `popAll_places`       removing the places of `p` from the last to the first leaves those without;
* `mergeSort_places`    the places in descending order, whichever comes first.
-/

namespace Places

variable {α : Type*}

def places (p : α → Bool) (k : Nat) (l : List α) : List Nat :=
  ((l.zipIdx k).filter fun e => p e.1).map Prod.snd

def getAt (l : List α) (i : Nat) : Except String α :=
  match l[i]? with
  | some a => .ok a
  | none => .error "list index out of range"

def popAt (l : List α) (i : Nat) : Except String (List α) :=
  if i < l.length then .ok (l.eraseIdx i) else .error "pop index out of range"

section
variable {p : α → Bool} {k : Nat} {l : List α}

theorem places_cons (a : α) (l : List α) :
    places p k (a :: l) = if p a then k :: places p (k + 1) l else places p (k + 1) l := by
  rw [places, List.zipIdx_cons, List.filter_cons]
  split
  · rfl
  · rfl

theorem places_append (l m : List α) :
    places p k (l ++ m) = places p k l ++ places p (k + l.length) m := by
  rw [places, List.zipIdx_append, List.filter_append, List.map_append]
  rfl

theorem mem_places {i : Nat} (h : i ∈ places p k l) : k ≤ i ∧ i < k + l.length := by
  obtain ⟨e, he, rfl⟩ := List.mem_map.mp h
  obtain ⟨hk, hl, _⟩ := List.mem_zipIdx (List.mem_filter.mp he).1
  exact ⟨hk, hl⟩

theorem places_pairwise : (places p k l).Pairwise (· < ·) := by
  induction l generalizing k with
  | nil => exact .nil
  | cons a l ih =>
    rw [places_cons]
    split
    · refine List.pairwise_cons.mpr ⟨fun i hi => ?_, ih⟩
      have := (mem_places hi).1
      omega
    · exact ih

theorem places_around {p : α → Bool} {a : α} (ha : p a = true) (pre post : List α) :
    places p 0 (pre ++ a :: post) =
      places p 0 pre ++ pre.length :: places p (pre.length + 1) post := by
  rw [places_append, places_cons, if_pos ha, Nat.zero_add]

theorem filter_ne_places {p : α → Bool} {a : α} (ha : p a = true) (pre post : List α) :
    ((places p 0 (pre ++ a :: post)).filter fun i => i ≠ pre.length) =
      places p 0 pre ++ places p (pre.length + 1) post := by
  rw [places_around ha, List.filter_append, List.filter_cons_of_neg (by simp)]
  congr 1
  · refine List.filter_eq_self.mpr fun i hi => decide_eq_true ?_
    have := (mem_places hi).2
    omega
  · refine List.filter_eq_self.mpr fun i hi => decide_eq_true ?_
    have := (mem_places hi).1
    omega

/-! ## reading -/

theorem getAt_append (l : List α) (a : α) (m : List α) : getAt (l ++ a :: m) l.length = .ok a := by
  rw [getAt, List.getElem?_append_right (Nat.le_refl _), Nat.sub_self]
  rfl

theorem mapM_getAt {is : List Nat} {as : List α} (h : is.map (l[·]?) = as.map some) :
    is.mapM (getAt l) = .ok as := by
  induction is generalizing as with
  | nil =>
    obtain rfl := List.map_eq_nil_iff.mp h.symm
    rfl
  | cons i is ih =>
    cases as with
    | nil => exact absurd h (List.cons_ne_nil _ _)
    | cons a as =>
      obtain ⟨hi, his⟩ := List.cons.inj h
      replace hi : l[i]? = some a := hi
      have hi : getAt l i = .ok a := by
        rw [getAt, hi]
      rw [List.mapM_cons, hi, ih his]
      rfl

theorem map_places (pre post : List α) :
    (places p pre.length l).map ((pre ++ l ++ post)[·]?) = (l.filter p).map some := by
  induction l generalizing pre with
  | nil => rfl
  | cons a l ih =>
    have hl := ih (pre ++ [a])
    rw [List.length_append, List.append_assoc pre] at hl
    replace hl : (places p (pre.length + 1) l).map ((pre ++ a :: l ++ post)[·]?) =
      (l.filter p).map some := hl
    have ha : (pre ++ a :: l ++ post)[pre.length]? = some a := by
      rw [List.append_assoc, List.getElem?_append_right (Nat.le_refl _), Nat.sub_self]
      rfl
    rw [places_cons, List.filter_cons]
    split
    · rw [List.map_cons, List.map_cons, hl, ha]
    · exact hl

theorem map_places_around (p : α → Bool) (pre : List α) (a : α) (post : List α) :
    (places p 0 pre ++ places p (pre.length + 1) post).map ((pre ++ a :: post)[·]?) =
      ((pre ++ post).filter p).map some := by
  have h₁ := map_places (p := p) (l := pre) [] (a :: post)
  have h₂ := map_places (p := p) (l := post) (pre ++ [a]) []
  rw [List.append_nil, List.append_assoc, List.length_append] at h₂
  rw [List.map_append, List.filter_append, List.map_append]
  exact congrArg₂ (· ++ ·) h₁ h₂

/-! ## removing -/

theorem popAt_append (l : List α) (a : α) (m : List α) :
    popAt (l ++ a :: m) l.length = .ok (l ++ m) := by
  have hlt : l.length < (l ++ a :: m).length := by
    rw [List.length_append, List.length_cons]
    omega
  rw [popAt, if_pos hlt, List.eraseIdx_append_of_length_le (Nat.le_refl _), Nat.sub_self]
  rfl

theorem popAll_from (pre : List α) :
    (places p pre.length l).reverse.foldlM popAt (pre ++ l) =
      .ok (pre ++ l.filter fun a => !p a) := by
  induction l generalizing pre with
  | nil => rfl
  | cons a l ih =>
    have hl := ih (pre ++ [a])
    rw [List.length_append, List.append_assoc, List.append_assoc] at hl
    replace hl : (places p (pre.length + 1) l).reverse.foldlM popAt (pre ++ a :: l) =
      .ok (pre ++ a :: l.filter fun a => !p a) := hl
    rw [places_cons, List.filter_cons]
    cases p a with
    | true =>
      rw [if_pos rfl, List.reverse_cons, List.foldlM_append, hl]
      show popAt _ _ >>= _ = _
      rw [popAt_append]
      rfl
    | false => exact hl

theorem popAll_places (p : α → Bool) (l : List α) :
    (places p 0 l).reverse.foldlM popAt l = .ok (l.filter fun a => !p a) := popAll_from []

/-! ## the descending order -/

/-- sorting the places in descending order gives the reverse, whichever order they come in -/
theorem mergeSort_places {is : List Nat} (h : is.Perm (places p k l)) :
    is.mergeSort (fun i j => decide (j ≤ i)) = (places p k l).reverse := by
  have hp : (is.mergeSort fun i j => decide (j ≤ i)).Perm (places p k l).reverse :=
    (List.mergeSort_perm is _).trans (h.trans (List.reverse_perm _).symm)
  have hs : (is.mergeSort fun i j => decide (j ≤ i)).Pairwise fun i j => j ≤ i := by
    refine (List.pairwise_mergeSort ?_ ?_ is).imp of_decide_eq_true
    · intro a b c hab hbc
      exact decide_eq_true (Nat.le_trans (of_decide_eq_true hbc) (of_decide_eq_true hab))
    · intro a b
      rw [Bool.or_eq_true, decide_eq_true_iff, decide_eq_true_iff]
      exact Nat.le_total b a
  have hr : (places p k l).reverse.Pairwise fun i j => j ≤ i :=
    List.pairwise_reverse.mpr (places_pairwise.imp Nat.le_of_lt)
  exact List.Perm.eq_of_pairwise (fun i j _ _ hij hji => Nat.le_antisymm hji hij) hs hr hp

end
end Places
