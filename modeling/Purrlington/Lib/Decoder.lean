import Mathlib.Data.List.Basic
import Mathlib.Tactic.Common

/-!
# Decoders that keep a buffer

A decoder adds what it receives to a buffer and takes complete blocks off the front of it.

* `Cut`               how a block is taken off: what it takes, it also takes of a longer buffer, and
                      the buffer gets shorter;
* `drain`             the blocks of a buffer, and what is left of it;
* `drain_of_cut`, `drain_of_none`   block by block;
* `drain_append`      more can come in between;
* `feed_flatten`      so it does not matter in which chunks a text comes.
-/

namespace Decoder

variable {α β : Type*}

structure Cut (α β : Type*) where
  cut : List α → Option (β × List α)
  append : ∀ {buf b rest}, cut buf = some (b, rest) → ∀ more, cut (buf ++ more) = some (b, rest ++ more)
  shorter : ∀ {buf b rest}, cut buf = some (b, rest) → rest.length < buf.length

variable (C : Cut α β)

/-- take blocks off while there are any; a buffer has no more of them than fuel of its length -/
def drainLoop : Nat → List α → List β × List α
  | 0, buf => ([], buf)
  | fuel + 1, buf =>
    match C.cut buf with
    | none => ([], buf)
    | some (b, rest) => (b :: (drainLoop fuel rest).1, (drainLoop fuel rest).2)

def drain (buf : List α) : List β × List α := drainLoop C buf.length buf

/-- a chunk comes in: the blocks so far, and the buffer -/
def receive (s : List β × List α) (chunk : List α) : List β × List α :=
  (s.1 ++ (drain C (s.2 ++ chunk)).1, (drain C (s.2 ++ chunk)).2)

variable {C}

theorem cut_nil (C : Cut α β) : C.cut [] = none := by
  cases h : C.cut [] with
  | none => rfl
  | some p => exact absurd (C.shorter h) (Nat.not_lt_zero _)

theorem drainLoop_fuel {fuel : Nat} {buf : List α} (h : buf.length ≤ fuel) :
    drainLoop C (fuel + 1) buf = drainLoop C fuel buf := by
  induction fuel generalizing buf with
  | zero =>
    obtain rfl := List.eq_nil_of_length_eq_zero (Nat.le_zero.mp h)
    simp only [drainLoop, cut_nil C]
  | succ fuel ih =>
    rw [drainLoop, drainLoop]
    cases hcut : C.cut buf with
    | none => rfl
    | some p =>
      have hlt := C.shorter hcut
      dsimp only
      rw [ih (by omega)]

theorem drainLoop_of_le {fuel : Nat} {buf : List α} (h : buf.length ≤ fuel) :
    drainLoop C fuel buf = drain C buf := by
  obtain ⟨k, rfl⟩ := Nat.exists_eq_add_of_le h
  induction k with
  | zero => rfl
  | succ k ih => rw [← Nat.add_assoc, drainLoop_fuel (Nat.le_add_right _ k), ih (Nat.le_add_right _ k)]

theorem drain_of_none {buf : List α} (h : C.cut buf = none) : drain C buf = ([], buf) := by
  rw [drain]
  cases buf with
  | nil => rfl
  | cons a buf => rw [List.length_cons, drainLoop, h]

theorem drain_of_cut {buf rest : List α} {b : β} (h : C.cut buf = some (b, rest)) :
    drain C buf = (b :: (drain C rest).1, (drain C rest).2) := by
  have hlt := C.shorter h
  rw [drain]
  obtain ⟨n, hn⟩ : ∃ n, buf.length = n + 1 := ⟨buf.length - 1, by omega⟩
  rw [hn, drainLoop, h]
  dsimp only
  rw [drainLoop_of_le (by omega)]

/-- **More can come in between**: the blocks of the first part, and then those of what it leaves
together with the rest. -/
theorem drain_append (x y : List α) :
    drain C (x ++ y) =
      ((drain C x).1 ++ (drain C ((drain C x).2 ++ y)).1, (drain C ((drain C x).2 ++ y)).2) := by
  induction hlen : x.length using Nat.strongRecOn generalizing x with
  | ind n ih =>
    cases hcut : C.cut x with
    | none => rw [drain_of_none hcut, List.nil_append]
    | some p =>
      have hlt := C.shorter hcut
      rw [drain_of_cut hcut, drain_of_cut (C.append hcut y), ih p.2.length (hlen ▸ hlt) p.2 rfl]
      rfl

theorem foldl_receive (chunks : List (List α)) (x : List α) :
    chunks.foldl (receive C) (drain C x) = drain C (x ++ chunks.flatten) := by
  induction chunks generalizing x with
  | nil => rw [List.foldl_nil, List.flatten_nil, List.append_nil]
  | cons chunk chunks ih =>
    have hone : receive C (drain C x) chunk = drain C (x ++ chunk) := (drain_append x chunk).symm
    rw [List.foldl_cons, hone, ih, List.flatten_cons, List.append_assoc]

/-- **It does not matter in which chunks a text comes.** -/
theorem feed_flatten (chunks : List (List α)) :
    chunks.foldl (receive C) ([], []) = drain C chunks.flatten :=
  foldl_receive chunks []

end Decoder
