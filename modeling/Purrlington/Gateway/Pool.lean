import Mathlib.Data.UInt
import Mathlib.Data.List.Basic

/-!
# Gateway: the proxy pool

`ProxyPool` round-robins requests over its targets with an atomic uint32 counter.

* `ProxyPool.pick`        the index of the next target, and the pool with the counter moved on;
* `ProxyPool.index`       the target of the request that comes after `k` others;
* `index_pick`            the index counts on from one pick to the next.
-/

namespace Gateway

/-- the targets as the pool sees them: how many there are (at least one, and a uint32 of them) -/
structure ProxyPool where
  targets : Nat
  pos : 0 < targets
  small : targets < 2^32
  next : UInt32

namespace ProxyPool

/-- `atomic.AddUint32(&p.next, 1) - 1`, modulo the number of targets -/
def pick (p : ProxyPool) : Nat × ProxyPool :=
  let next := p.next + 1
  let n := next - 1
  ((n % UInt32.ofNat p.targets).toNat, { p with next })

/-- the target of the request that comes after `k` others -/
def index (p : ProxyPool) (k : Nat) : Nat := (p.next.toNat + k) % 2^32 % p.targets

theorem pick_fst (p : ProxyPool) : p.pick.1 = p.next.toNat % p.targets := by
  unfold pick
  simp only [UInt32.add_sub_cancel, UInt32.toNat_mod, UInt32.toNat_ofNat']
  rw [Nat.mod_eq_of_lt p.small]

theorem pick_fst_lt (p : ProxyPool) : p.pick.1 < p.targets := by
  rw [pick_fst]
  exact Nat.mod_lt _ p.pos

theorem index_zero (p : ProxyPool) : p.index 0 = p.pick.1 := by
  rw [index, pick_fst, Nat.add_zero, Nat.mod_eq_of_lt p.next.toNat_lt]

/-- the index counts on from one pick to the next, through the wrap of the counter -/
theorem index_pick (p : ProxyPool) (k : Nat) : p.pick.2.index k = p.index (k + 1) := by
  unfold index pick
  simp only [UInt32.toNat_add, UInt32.toNat_one]
  have e : ((p.next.toNat + 1) % 2^32 + k) % 2^32 = (p.next.toNat + (k + 1)) % 2^32 := by omega
  rw [e]

end ProxyPool
end Gateway
