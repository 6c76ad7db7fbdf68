import Purrlington.Gateway.Pool
import Purrlington.Lib.RoundRobin

/-!
# Gateway: how a pool balances its targets

`pick` takes the number of targets as an uint32, so it is the number itself only below `2 ^ 32`.

* `pickOf`, `picks`, `wraps`   consecutive calls of `pick` for any number of targets;
* `pickOf_pool`           for the targets of a `ProxyPool` this is `ProxyPool.pick`;
* `picks_eq`              the indices count on through the wraps of the counter;
* `picks_balanced`        they are in range, and balanced but for the wraps;
* `picks_truncated`       a pool whose number of targets does not fit.
-/

namespace Gateway

/-- `pick` with this many targets, where `none` is the panic of a division by zero -/
def pickOf (targets : Nat) (next : UInt32) : Option Nat × UInt32 :=
  let next := next + 1
  let n := next - 1
  (if UInt32.ofNat targets = 0 then none else some (n % UInt32.ofNat targets).toNat, next)

/-- what consecutive calls return -/
def picks (targets : Nat) : UInt32 → Nat → List (Option Nat)
  | _, 0 => []
  | next, m + 1 => (pickOf targets next).1 :: picks targets (pickOf targets next).2 m

/-- how often the counter wraps in these calls -/
def wraps : UInt32 → Nat → Nat
  | _, 0 => 0
  | next, m + 1 => (if next + 1 = 0 then 1 else 0) + wraps (next + 1) m

theorem ofNat_ne_zero {targets : Nat} (hpos : 0 < targets) (hsmall : targets < 2 ^ 32) :
    UInt32.ofNat targets ≠ 0 := by
  intro h
  have := congrArg UInt32.toNat h
  rw [UInt32.toNat_ofNat', Nat.mod_eq_of_lt hsmall] at this
  exact hpos.ne' this

theorem pickOf_pool (p : ProxyPool) : pickOf p.targets p.next = (some p.pick.1, p.pick.2.next) := by
  unfold pickOf ProxyPool.pick
  dsimp only
  rw [if_neg (ofNat_ne_zero p.pos p.small)]

section
variable {targets : Nat} (hpos : 0 < targets) (hsmall : targets < 2 ^ 32)
include hpos hsmall

theorem pickOf_fst (next : UInt32) :
    (pickOf targets next).1 = some (next.toNat % targets) := by
  have := pickOf_pool ⟨targets, hpos, hsmall, next⟩
  rw [show pickOf targets next = _ from this]
  exact congrArg some (ProxyPool.pick_fst _)

/-- the indices count on through the wraps of the counter -/
theorem picks_eq (next : UInt32) (m : Nat) :
    picks targets next m =
      (List.range m).map fun k => some ((next.toNat + k) % 2 ^ 32 % targets) := by
  induction m generalizing next with
  | zero => rfl
  | succ m ih =>
    have hnext : (pickOf targets next).2.toNat = (next.toNat + 1) % 2 ^ 32 := by
      show (next + 1).toNat = _
      rw [UInt32.toNat_add, UInt32.toNat_one]
    have hfirst : (next.toNat + 0) % 2 ^ 32 = next.toNat := Nat.mod_eq_of_lt next.toNat_lt
    rw [picks, ih, hnext, pickOf_fst hpos hsmall, List.range_succ_eq_map, List.map_cons,
      List.map_map, hfirst]
    congr 1
    refine List.map_congr_left fun k _ => ?_
    have hk : ((next.toNat + 1) % 2 ^ 32 + k) % 2 ^ 32 = (next.toNat + (k + 1)) % 2 ^ 32 := by omega
    exact congrArg (fun x => some (x % targets)) hk

theorem count_picks (next : UInt32) (m i : Nat) :
    (picks targets next m).count (some i) =
      RoundRobin.chosen (2 ^ 32) targets next.toNat i m := by
  rw [picks_eq hpos hsmall, List.count, List.countP_map, RoundRobin.chosen, Nat.count]
  refine List.countP_congr fun k _ => ?_
  simp

end

theorem wraps_eq (next : UInt32) (m : Nat) : wraps next m = (next.toNat + m) / 2 ^ 32 := by
  induction m generalizing next with
  | zero =>
    rw [wraps, Nat.add_zero, Nat.div_eq_of_lt next.toNat_lt]
  | succ m ih =>
    have hnext : (next + 1).toNat = (next.toNat + 1) % 2 ^ 32 := by
      rw [UInt32.toNat_add, UInt32.toNat_one]
    have hlt := next.toNat_lt
    have hzero : next + 1 = 0 ↔ next.toNat + 1 = 2 ^ 32 := by
      rw [← UInt32.toNat_inj, hnext, UInt32.toNat_zero]
      omega
    rw [wraps, ih, hnext]
    by_cases h : next + 1 = 0
    · rw [if_pos h]
      have := hzero.mp h
      omega
    · rw [if_neg h]
      have := mt hzero.mpr h
      omega

/-- **Round robin stays in range and balanced.**  With at least one target and fewer than `2 ^ 32`, for
every value of the counter and every number of calls, the indices that consecutive calls of `pick`
return are all in range, and any two targets are chosen equally often, up to one and the number of times
the counter wraps. -/
theorem picks_balanced {targets : Nat} (hpos : 1 ≤ targets) (hsmall : targets < 2 ^ 32) (next : UInt32)
    (m : Nat) :
    (∀ r ∈ picks targets next m, ∃ i < targets, r = some i) ∧
      ∀ i < targets, ∀ j < targets,
        (picks targets next m).count (some i) ≤
          (picks targets next m).count (some j) + 1 + wraps next m := by
  constructor
  · intro r hr
    rw [picks_eq hpos hsmall] at hr
    obtain ⟨k, _, rfl⟩ := List.mem_map.mp hr
    exact ⟨_, Nat.mod_lt _ hpos, rfl⟩
  · intro i hi j hj
    rw [count_picks hpos hsmall, count_picks hpos hsmall, wraps_eq]
    exact RoundRobin.chosen_le next.toNat_lt hi hj

/-- three targets, and a counter that wraps after two calls -/
theorem picks_balanced_three :
    (picks 3 4294967294 5).count (some 0) ≤
      (picks 3 4294967294 5).count (some 2) + 1 + wraps 4294967294 5 :=
  (picks_balanced (by decide) (by decide) 4294967294 5).2 0 (by decide) 2 (by decide)

/-- **One target more than an uint32 can count, and the first of them is always chosen.** -/
theorem picks_truncated :
    1 ≤ 2 ^ 32 + 1 ∧
      ¬ (picks (2 ^ 32 + 1) 0 2).count (some 0) ≤
        (picks (2 ^ 32 + 1) 0 2).count (some 1) + 1 + wraps 0 2 := by
  decide

end Gateway
