import Mathlib.Data.List.Basic
import Mathlib.Tactic.Common

/-!
# Ledgers: what a list of holders holds in all

A holder has a weight (how often it holds some item); the ledger is the sum over all holders.  One
holder changes at a time, so an exchange between two of them is two lines of arithmetic.

* `total w l`                       the sum of the weights;
* `total_modify`, `total_modify_of_eq`, `total_set`   one holder changes;
* `total_snoc`                      a holder joins;
* `le_total`, `add_le_total`         from one holder, or two, to the sum;
* `exists_of_total_pos`, `exists_of_total_eq_one`   and back;
* `holder_unique`                   a ledger of at most one has one holder.
-/

namespace Ledger

variable {α : Type*}

/-- the weight of all holders together -/
def total (w : α → Nat) : List α → Nat
  | [] => 0
  | a :: l => w a + total w l

theorem total_cons (w : α → Nat) (a : α) (l : List α) : total w (a :: l) = w a + total w l := rfl

theorem total_snoc (w : α → Nat) (l : List α) (a : α) : total w (l ++ [a]) = total w l + w a := by
  induction l with
  | nil => exact Nat.add_comm _ _
  | cons b l ih =>
    rw [List.cons_append, total_cons, total_cons, ih]
    omega

theorem total_modify {w : α → Nat} {l : List α} {i : Nat} {a : α} (h : l[i]? = some a)
    (f : α → α) : total w (l.modify i f) + w a = total w l + w (f a) := by
  induction l generalizing i with
  | nil => exact absurd h (by simp)
  | cons b l ih =>
    cases i with
    | zero =>
      obtain rfl := Option.some.inj h
      rw [List.modify_zero_cons, total_cons, total_cons]
      omega
    | succ i =>
      have := ih h
      rw [List.modify_succ_cons, total_cons, total_cons]
      omega

theorem total_modify_of_eq {w : α → Nat} {f : α → α} (hf : ∀ a, w (f a) = w a) (l : List α)
    (i : Nat) : total w (l.modify i f) = total w l := by
  rcases h : l[i]? with _ | a
  · rw [List.modify_eq_self (List.getElem?_eq_none_iff.mp h)]
  · have := total_modify (w := w) h f
    rw [hf a] at this
    omega

theorem total_set {w : α → Nat} {l : List α} {i : Nat} {a : α} (h : l[i]? = some a) (b : α) :
    total w (l.set i b) + w a = total w l + w b := by
  rw [List.set_eq_modify]
  exact total_modify h fun _ => b

theorem le_total {w : α → Nat} {l : List α} {a : α} (h : a ∈ l) : w a ≤ total w l := by
  induction l with
  | nil => exact absurd h (by simp)
  | cons b l ih =>
    rw [total_cons]
    rcases List.mem_cons.mp h with rfl | h
    · omega
    · have := ih h
      omega

theorem add_le_total {w : α → Nat} {l : List α} {a b : α} (ha : a ∈ l) (hb : b ∈ l) (hne : a ≠ b) :
    w a + w b ≤ total w l := by
  induction l with
  | nil => exact absurd ha (by simp)
  | cons c l ih =>
    rw [total_cons]
    rcases List.mem_cons.mp ha with rfl | ha'
    · have := le_total (w := w) ((List.mem_cons.mp hb).resolve_left hne.symm)
      omega
    · rcases List.mem_cons.mp hb with rfl | hb'
      · have := le_total (w := w) ha'
        omega
      · have := ih ha' hb'
        omega

theorem exists_of_total_pos {w : α → Nat} {l : List α} (h : 0 < total w l) :
    ∃ a ∈ l, 0 < w a := by
  induction l with
  | nil => exact absurd h (by simp [total])
  | cons b l ih =>
    rw [total_cons] at h
    by_cases hb : 0 < w b
    · exact ⟨b, List.mem_cons_self, hb⟩
    · obtain ⟨a, ha, hw⟩ := ih (by omega)
      exact ⟨a, List.mem_cons_of_mem _ ha, hw⟩

theorem total_eq_zero {w : α → Nat} {l : List α} (h : ∀ a ∈ l, w a = 0) : total w l = 0 := by
  by_contra hne
  obtain ⟨a, ha, hw⟩ := exists_of_total_pos (Nat.pos_of_ne_zero hne)
  have := h a ha
  omega

theorem exists_of_total_eq_one {w : α → Nat} {l : List α} (h : total w l = 1) :
    ∃ (i : Nat) (a : α), l[i]? = some a ∧ w a = 1 ∧
      ∀ (j : Nat) (b : α), j ≠ i → l[j]? = some b → w b = 0 := by
  induction l with
  | nil => exact absurd h (by simp [total])
  | cons b l ih =>
    rw [total_cons] at h
    by_cases hb : w b = 0
    · obtain ⟨i, a, hi, ha, hz⟩ := ih (by omega)
      refine ⟨i + 1, a, hi, ha, ?_⟩
      intro j c hj hc
      cases j with
      | zero =>
        obtain rfl := Option.some.inj hc
        exact hb
      | succ j => exact hz j c (fun e => hj (congrArg _ e)) hc
    · refine ⟨0, b, rfl, by omega, ?_⟩
      intro j c hj hc
      cases j with
      | zero => exact absurd rfl hj
      | succ j =>
        have := le_total (w := w) (List.mem_of_getElem? (show l[j]? = some c from hc))
        omega

theorem holder_unique {w : α → Nat} {l : List α} (h : total w l ≤ 1) {i j : Nat} {a b : α}
    (hi : l[i]? = some a) (hj : l[j]? = some b) (ha : 0 < w a) (hb : 0 < w b) : i = j := by
  have hle := le_total (w := w) (List.mem_of_getElem? hi)
  obtain ⟨k, _, _, _, hz⟩ := exists_of_total_eq_one (w := w) (l := l) (by omega)
  have at_k : ∀ (m : Nat) (c : α), l[m]? = some c → 0 < w c → m = k := by
    intro m c hm hc
    by_contra hne
    have := hz m c hne hm
    omega
  rw [at_k i a hi ha, at_k j b hj hb]

end Ledger
