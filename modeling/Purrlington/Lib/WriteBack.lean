import Purrlington.Lib.Machine

/-!
# A value that is read and written back

One party sets a cell to `x`; another reads the cell, keeps what it has read, and later writes it
back, if it is a value that it writes at all.

* `cell`              the accesses to the cell, each made at most once;
* `orders`            the orders in which all accesses can be made;
* `set_kept_iff`      what the first party has set is there in the end, unless the other read before it
                      and wrote after it.
-/

namespace WriteBack
open SM

inductive Access where
  | set
  | read
  | write
  deriving DecidableEq, Repr

/-- where the party stands that reads and writes back -/
inductive Keeper (α : Type*) where
  | before
  | kept (v : α)
  | after
  deriving DecidableEq, Repr

structure Cell (α : Type*) where
  value : α
  isSet : Bool
  keeper : Keeper α
  deriving DecidableEq, Repr

variable {α : Type*}

/-- `x` is set, and what is written back must be `ok` -/
def cell (x : α) (ok : α → Prop) [DecidablePred ok] : Machine (Cell α) Access
  | c, .set => if c.isSet then none else some ⟨x, true, c.keeper⟩
  | c, .read =>
    match c.keeper with
    | .before => some ⟨c.value, c.isSet, .kept c.value⟩
    | _ => none
  | c, .write =>
    match c.keeper with
    | .kept u => some ⟨if ok u then u else c.value, c.isSet, .after⟩
    | _ => none

section
variable {x old v : α} {ok : α → Prop} [DecidablePred ok] {l : List Access}

/-- there are three orders in which all accesses are made -/
theorem orders (h : (cell x ok).Runs free ⟨old, false, .before⟩ l ⟨v, true, .after⟩) :
    (l = [.set, .read, .write] ∧ v = if ok x then x else x) ∨
      (l = [.read, .set, .write] ∧ v = if ok old then old else x) ∨
      (l = [.read, .write, .set] ∧ v = x) := by
  rw [Machine.runs_free_iff] at h
  match l with
  | [] => exact absurd h (by simp [Machine.run])
  | [a] => cases a <;> simp [Machine.run, cell] at h
  | [a, b] => cases a <;> cases b <;> simp [Machine.run, cell] at h
  | [a, b, c] => cases a <;> cases b <;> cases c <;> simp [Machine.run, cell] at h ⊢ <;> exact h.symm
  | a :: b :: c :: d :: l =>
    cases a <;> cases b <;> cases c <;> cases d <;> simp [Machine.run, cell] at h

/-- **What has been set is there in the end, unless the other party read before and wrote after.** -/
theorem set_kept_iff (h : (cell x ok).Runs free ⟨old, false, .before⟩ l ⟨v, true, .after⟩) :
    v = x ↔ l ≠ [.read, .set, .write] ∨ ¬ ok old ∨ old = x := by
  rcases orders h with ⟨rfl, rfl⟩ | ⟨rfl, rfl⟩ | ⟨rfl, rfl⟩
  · simp
  · by_cases hok : ok old
    · simp [hok]
    · simp [hok]
  · simp

end
end WriteBack
