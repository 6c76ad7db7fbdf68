import Mathlib.Data.Nat.Find
import Mathlib.Data.List.Induction
import Mathlib.Order.MinMax
import Mathlib.Tactic.Common

/-!
# High-water marks

Entries with a key of a linear order come in one after the other, after a first key.  An entry rises
if its key exceeds every key before it.

* `high key first es`     the greatest key so far;
* `Rises key first es i`  the entry at `i` exceeds everything before it;
* `since key first es`    the entries from the last rise on, all of them where there is none;
* `since_snoc_of_lt`, `since_snoc_of_le`   what one more entry does to them.
-/

namespace Watermark

variable {α β : Type*} [LinearOrder β] (key : α → β) (first : β)

def high (es : List α) : β := (es.map key).foldl max first

def Rises (es : List α) (i : Nat) : Prop :=
  ∃ e ∈ es[i]?, ∀ d ∈ first :: (es.take i).map key, d < key e

instance (es : List α) : DecidablePred (Rises key first es) := fun i =>
  match h : es[i]? with
  | none => isFalse fun ⟨_, he, _⟩ => by rw [h] at he; exact absurd he nofun
  | some e => decidable_of_iff (∀ d ∈ first :: (es.take i).map key, d < key e) (by
      rw [Rises, h]
      exact ⟨fun hd => ⟨e, rfl, hd⟩, fun ⟨e', he, hd⟩ => by rwa [Option.mem_some.mp he]⟩)

def since (es : List α) : List α := es.drop (Nat.findGreatest (Rises key first es) es.length)

variable {key first}

theorem high_snoc (es : List α) (e : α) :
    high key first (es ++ [e]) = max (high key first es) (key e) := by
  rw [high, List.map_append, List.foldl_append]
  rfl

theorem high_lt_iff {es : List α} {b : β} :
    high key first es < b ↔ ∀ d ∈ first :: es.map key, d < b := by
  induction es using List.reverseRecOn with
  | nil => simp [high]
  | append_singleton es e ih =>
    rw [high_snoc, max_lt_iff, ih, List.map_append, ← List.cons_append, List.forall_mem_append]
    simp only [List.map_cons, List.map_nil, List.forall_mem_singleton]

theorem rises_append_of_lt {es : List α} {e : α} {i : Nat} (h : i < es.length) :
    Rises key first (es ++ [e]) i ↔ Rises key first es i := by
  rw [Rises, Rises, List.getElem?_append_left h, List.take_append_of_le_length h.le]

theorem rises_snoc_iff {es : List α} {e : α} :
    Rises key first (es ++ [e]) es.length ↔ high key first es < key e := by
  rw [Rises, List.getElem?_concat_length, List.take_append_of_le_length le_rfl, List.take_length,
    high_lt_iff]
  exact ⟨fun ⟨e', he, hd⟩ => by rwa [← Option.mem_some.mp he] at hd, fun hd => ⟨e, rfl, hd⟩⟩

theorem not_rises_length (es : List α) : ¬ Rises key first es es.length := by
  rintro ⟨e, he, _⟩
  rw [List.getElem?_eq_none le_rfl] at he
  exact absurd he nofun

theorem findGreatest_congr {P Q : Nat → Prop} [DecidablePred P] [DecidablePred Q] {n : Nat}
    (h : ∀ i ≤ n, P i ↔ Q i) : Nat.findGreatest P n = Nat.findGreatest Q n := by
  induction n with
  | zero => rfl
  | succ n ih =>
    rw [Nat.findGreatest_succ, Nat.findGreatest_succ, ih fun i hi => h i (Nat.le_succ_of_le hi)]
    exact if_congr (h (n + 1) le_rfl) rfl rfl

theorem findGreatest_length_snoc (es : List α) (e : α) :
    Nat.findGreatest (Rises key first (es ++ [e])) (es ++ [e]).length =
      Nat.findGreatest (Rises key first (es ++ [e])) es.length := by
  have h : ¬ Rises key first (es ++ [e]) (es ++ [e]).length := not_rises_length _
  rw [List.length_append, List.length_singleton] at h ⊢
  rw [Nat.findGreatest_succ, if_neg h]

theorem since_snoc_of_lt {es : List α} {e : α} (h : high key first es < key e) :
    since key first (es ++ [e]) = [e] := by
  have hg : Nat.findGreatest (Rises key first (es ++ [e])) es.length = es.length :=
    Nat.findGreatest_eq (rises_snoc_iff.mpr h)
  rw [since, findGreatest_length_snoc, hg]
  exact List.drop_left

theorem since_snoc_of_le {es : List α} {e : α} (h : key e ≤ high key first es) :
    since key first (es ++ [e]) = since key first es ++ [e] := by
  have hg : Nat.findGreatest (Rises key first (es ++ [e])) es.length =
      Nat.findGreatest (Rises key first es) es.length := by
    apply findGreatest_congr
    intro i hi
    rcases Nat.lt_or_eq_of_le hi with hlt | rfl
    · exact rises_append_of_lt hlt
    · exact iff_of_false (fun hr => (rises_snoc_iff.mp hr).not_ge h) (not_rises_length es)
  rw [since, findGreatest_length_snoc, hg]
  exact List.drop_append_of_le_length (Nat.findGreatest_le _)

end Watermark
