import Mathlib.Data.Int.CardIntervalMod
import Mathlib.Data.Nat.Count
import Mathlib.Tactic.Ring

/-!
# Round robin with a counter that wraps

A counter runs through the numbers below `M` and starts over; each number chooses the slot that it is
modulo `n`.

* `chosen`            how often a slot is chosen by the next numbers;
* `chosen_of_le`      without a wrap every slot is chosen equally often, or once more;
* `chosen_split`      the choices before and after a wrap;
* `chosen_le`         two slots differ by one at most, and by one more for each wrap.
-/

namespace RoundRobin

/-- how often the `m` numbers from `s` on choose the slot `i` -/
def chosen (M n s i m : Nat) : Nat := Nat.count (fun k => (s + k) % M % n = i) m

variable {M n s i j m : Nat}

theorem slot_iff (hi : i < n) (k : Nat) : (s + k) % n = i ↔ k ≡ i + (n - s % n) [MOD n] := by
  have hs := Nat.mod_lt s (Nat.zero_lt_of_lt hi)
  have hcancel : s + (i + (n - s % n)) ≡ i [MOD n] := by
    have hsum : s + (i + (n - s % n)) = i + n * (s / n + 1) := by
      have := Nat.div_add_mod s n
      rw [Nat.mul_add]
      omega
    rw [hsum]
    exact Nat.add_mul_mod_self_left i n _
  have hslot : (s + k) % n = i ↔ s + k ≡ i [MOD n] := by
    rw [Nat.ModEq, Nat.mod_eq_of_lt hi]
  rw [hslot]
  constructor
  · intro h
    exact Nat.ModEq.add_left_cancel' s (h.trans hcancel.symm)
  · intro h
    exact (h.add_left s).trans hcancel

/-- **Without a wrap every slot is chosen equally often, or once more.** -/
theorem chosen_of_le (hi : i < n) (h : s + m ≤ M) :
    m / n ≤ chosen M n s i m ∧ chosen M n s i m ≤ m / n + 1 := by
  have heq : chosen M n s i m = Nat.count (· ≡ i + (n - s % n) [MOD n]) m := by
    rw [chosen, Nat.count_eq_card_filter_range, Nat.count_eq_card_filter_range]
    congr 1
    refine Finset.filter_congr fun k hk => ?_
    rw [Nat.mod_eq_of_lt (Nat.lt_of_lt_of_le (Nat.add_lt_add_left (Finset.mem_range.mp hk) s) h)]
    exact slot_iff hi k
  rw [heq, Nat.count_modEq_card m (Nat.zero_lt_of_lt hi)]
  split <;> omega

theorem chosen_split (hs : s ≤ M) (i m : Nat) :
    chosen M n s i (M - s + m) = chosen M n s i (M - s) + chosen M n 0 i m := by
  unfold chosen
  rw [Nat.count_add]
  congr 1
  rw [Nat.count_eq_card_filter_range, Nat.count_eq_card_filter_range]
  congr 1
  refine Finset.filter_congr fun k _ => ?_
  have hk : s + (M - s + k) = 0 + k + M := by omega
  rw [hk, Nat.add_mod_right]

/-- **Two slots differ by one at most, and by one more for each wrap.** -/
theorem chosen_le (hs : s < M) (hi : i < n) (hj : j < n) :
    chosen M n s i m ≤ chosen M n s j m + 1 + (s + m) / M := by
  induction m using Nat.strongRecOn generalizing s with
  | ind m ih =>
    by_cases h : s + m ≤ M
    · have := (chosen_of_le hi h).2
      have := (chosen_of_le hj h).1
      generalize (s + m) / M = wraps
      omega
    · obtain ⟨r, rfl⟩ : ∃ r, m = M - s + r := ⟨m - (M - s), by omega⟩
      have hfirst : s + (M - s) ≤ M := by omega
      have := (chosen_of_le hi hfirst).2
      have := (chosen_of_le hj hfirst).1
      have hrest := ih r (by omega) (s := 0) (by omega)
      have hwraps : (s + (M - s + r)) / M = (0 + r) / M + 1 := by
        have hsum : s + (M - s + r) = 0 + r + M := by omega
        rw [hsum, Nat.add_div_right _ (Nat.zero_lt_of_lt hs)]
      rw [chosen_split hs.le, chosen_split hs.le, hwraps]
      omega

end RoundRobin
