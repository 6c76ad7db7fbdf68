import Mathlib.Data.List.Basic
import Mathlib.Data.List.Perm.Basic
import Mathlib.Data.List.Sort
import Mathlib.Order.Basic
import Mathlib.Tactic.Common

/-!
# Paging by a key

Rows are answered in descending order of their key, a page at a time, and a page carries the key below
which the next one begins.  The rows may change between two requests.

* `descending key rows`       the greatest key first;
* `descending_filter`         choosing rows and ordering them commute;
* `filter_lt_last`            below the last row of a page are the rows that it leaves out;
* `walk answer fuel n cursor` the pages from the `n`-th request on, until one has no cursor;
* `walk_complete`             if every page takes something from what is left, the walk ends and its
                              pages are all there was.
-/

namespace Paging

variable {ρ κ ι : Type*}

/-! ## the order of the rows -/

section
variable [LinearOrder κ] {key : ρ → κ}

def descending (key : ρ → κ) (rows : List ρ) : List ρ :=
  rows.insertionSort fun a b => key b ≤ key a

theorem descending_perm (rows : List ρ) : (descending key rows).Perm rows :=
  List.perm_insertionSort _ rows

theorem descending_sorted (rows : List ρ) :
    (descending key rows).Pairwise fun a b => key b ≤ key a := by
  have : Std.Total fun a b : ρ => key b ≤ key a := ⟨fun a b => le_total (key b) (key a)⟩
  have : IsTrans ρ fun a b => key b ≤ key a := ⟨fun _ _ _ hab hbc => le_trans hbc hab⟩
  exact List.pairwise_insertionSort _ rows

theorem descending_strict {rows : List ρ} (h : (rows.map key).Nodup) :
    (descending key rows).Pairwise fun a b => key b < key a := by
  have hnd : (descending key rows).Pairwise fun a b => key a ≠ key b := by
    have hp : ((descending key rows).map key).Nodup :=
      ((descending_perm rows).map key).nodup_iff.mpr h
    exact List.pairwise_map.mp hp
  refine ((descending_sorted rows).and hnd).imp ?_
  intro a b hab
  exact lt_of_le_of_ne hab.1 hab.2.symm

theorem eq_of_strict {l m : List ρ} (hl : l.Pairwise fun a b => key b < key a)
    (hm : m.Pairwise fun a b => key b < key a) (h : l.Perm m) : l = m :=
  List.Perm.eq_of_pairwise (fun _ _ _ _ hab hba => absurd hab (lt_asymm hba)) hl hm h

theorem descending_filter {rows : List ρ} (h : (rows.map key).Nodup) (p : ρ → Bool) :
    descending key (rows.filter p) = (descending key rows).filter p := by
  have hsub : ((rows.filter p).map key).Nodup := h.sublist (List.filter_sublist.map key)
  apply eq_of_strict (descending_strict hsub) ((descending_strict h).sublist List.filter_sublist)
  exact (descending_perm _).trans ((descending_perm rows).filter p).symm

theorem filter_lt_last {rows : List ρ} (h : rows.Pairwise fun a b => key b < key a) {n : Nat} {a : ρ}
    (ha : (rows.take n).getLast? = some a) :
    (rows.filter fun r => key r < key a) = rows.drop n := by
  have hsplit := List.take_append_drop n rows
  obtain ⟨l, hl⟩ := List.getLast?_eq_some_iff.mp ha
  rw [← hsplit, hl] at h
  obtain ⟨hfirst, _, hcross⟩ := List.pairwise_append.mp h
  obtain ⟨_, _, hlast⟩ := List.pairwise_append.mp hfirst
  rw [← hsplit, List.filter_append, hl]
  have hnone : (l ++ [a]).filter (fun r => key r < key a) = [] := by
    refine List.filter_eq_nil_iff.mpr fun r hr hlt => ?_
    rcases List.mem_append.mp hr with hr | hr
    · exact absurd (of_decide_eq_true hlt) (lt_asymm (hlast r hr a (List.mem_singleton_self a)))
    · rw [List.mem_singleton.mp hr] at hlt
      exact absurd (of_decide_eq_true hlt) (lt_irrefl _)
  have hall : (rows.drop n).filter (fun r => key r < key a) = rows.drop n := by
    refine List.filter_eq_self.mpr fun r hr => decide_eq_true ?_
    exact hcross a (List.mem_append_right l (List.mem_singleton_self a)) r hr
  rw [hnone, hall, ← hl, hsplit]
  rfl

end

/-! ## following the cursor -/

variable {ε : Type*} (answer : Nat → Option κ → Except ε (List ρ × Option κ))

/-- the pages of the requests from the `n`-th on, if one of the next `fuel` has no cursor -/
def walk : Nat → Nat → Option κ → Option (List (List ρ))
  | 0, _, _ => none
  | fuel + 1, n, cursor =>
    match answer n cursor with
    | .ok (rows, none) => some [rows]
    | .ok (rows, some c) => (walk fuel (n + 1) (some c)).map (rows :: ·)
    | .error _ => none

variable {answer} {view : ρ → ι} {left : Option κ → List ι} {reached : Nat → Option κ → Prop}

/-- **A walk is complete.**  `left` is what is still to come at a cursor; a page takes the beginning of
it, and something unless it is the last one. -/
theorem walk_complete
    (hpage : ∀ n cursor, reached n cursor → ∃ rows next, answer n cursor = .ok (rows, next) ∧
      left cursor = rows.map view ++ next.elim [] (fun c => left (some c)) ∧
      ∀ c, next = some c → rows ≠ [] ∧ reached (n + 1) (some c)) {fuel n : Nat} {cursor : Option κ}
    (hr : reached n cursor) (hfuel : (left cursor).length < fuel) :
    ∃ pages, walk answer fuel n cursor = some pages ∧ pages.flatten.map view = left cursor := by
  induction fuel generalizing n cursor with
  | zero => exact absurd hfuel (Nat.not_lt_zero _)
  | succ fuel ih =>
    obtain ⟨rows, next, hans, hleft, hnext⟩ := hpage n cursor hr
    rw [walk, hans]
    cases next with
    | none => exact ⟨[rows], rfl, by rw [hleft, List.flatten_singleton]; exact (List.append_nil _).symm⟩
    | some c =>
      obtain ⟨hne, hr'⟩ := hnext c rfl
      replace hleft : left cursor = rows.map view ++ left (some c) := hleft
      have hlt : (left (some c)).length < fuel := by
        have hpos := List.length_pos_of_ne_nil hne
        rw [hleft, List.length_append, List.length_map] at hfuel
        omega
      obtain ⟨pages, hwalk, hall⟩ := ih hr' hlt
      refine ⟨rows :: pages, ?_, ?_⟩
      · show (walk answer fuel (n + 1) (some c)).map (rows :: ·) = _
        rw [hwalk]
        rfl
      · rw [List.flatten_cons, List.map_append, hall, hleft]

end Paging
