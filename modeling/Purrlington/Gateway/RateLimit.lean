import Purrlington.Gateway.Cache
import Purrlington.Lib.Dict
import Purrlington.Lib.FixedWindow
import Purrlington.Lib.Binary64
import Mathlib.Algebra.BigOperators.Group.Finset.Piecewise
import Mathlib.Algebra.Order.BigOperators.Group.Finset

/-!
# Gateway: the rate limiter

`RateLimitMiddleware` as it decides on the requests that reach it, with its clock and the limits
that `main` sets; the times of a history do not decrease.

* `RateLimiter.allow`, `rateLimitMiddleware`   one counter for each remote address;
* `admitted_of_addr`      the requests of one address are admitted as by a counter of their own;
* `PerClient`             at most `2 * L` requests of an IP address in any interval of length `W`;
* `per_client_iff`        this holds exactly for as many connections as share out that bound;
* `three_connections`     a limit of one, and three requests admitted at once.
-/

set_option linter.unusedSectionVars false

namespace Gateway
open FixedWindow

/-! ## the limiter -/

structure RateLimiter where
  clients : Dict String Window
  limit : Int
  perNs : Int

def newRateLimiter (limit per : Int) : RateLimiter :=
  { clients := Dict.empty, limit, perNs := per }

/-- the lock is held throughout -/
def RateLimiter.allow (rl : RateLimiter) (key : String) (now : Int) : Bool × RateLimiter :=
  let w := match rl.clients.get? key with
    | none => { count := 0, reset := now + rl.perNs }
    | some w => if w.reset < now then { count := 0, reset := now + rl.perNs } else w
  if rl.limit ≤ w.count then (false, { rl with clients := rl.clients.set key w })
  else (true, { rl with clients := rl.clients.set key { w with count := w.count + 1 } })

/-- `Duration.Seconds()`, the whole seconds and the rest added as floating-point numbers -/
def seconds (d : Int) : ℚ :=
  Binary64.double (d.tdiv 1000000000 + Binary64.double ((d.tmod 1000000000 : Int) / 1000000000))

/-- `int(rl.Window().Seconds())` -/
def retryAfter (perNs : Int) : Int := Binary64.trunc (seconds perNs)

/-- the response to a request over the limit -/
def tooManyRequests (rl : RateLimiter) : List RwAct :=
  [.set "Retry-After" (toString (retryAfter rl.perNs)),
    .set "Content-Type" "application/json", .writeHeader 429,
    .write (ascii "\x7b\"error\": \"rate limit exceeded\"\x7d")]

/-- `none` where the request is passed on -/
def rateLimitMiddleware (rl : RateLimiter) (remoteAddr : String) (now : Int) :
    Option (List RwAct) × RateLimiter :=
  if rl.limit ≤ 0 then (none, rl)
  else
    let r := rl.allow remoteAddr now
    if r.1 then (none, r.2) else (some (tooManyRequests rl), r.2)

theorem allow_keeps (rl : RateLimiter) (key : String) (now : Int) :
    (rl.allow key now).2.limit = rl.limit ∧ (rl.allow key now).2.perNs = rl.perNs := by
  -- whichever window the call is counted in
  have hcount : ∀ w : FixedWindow.Window, ∀ p : Bool × RateLimiter,
      (if rl.limit ≤ (w.count : Int) then (false, { rl with clients := rl.clients.set key w })
        else (true, { rl with clients := rl.clients.set key { w with count := w.count + 1 } })) = p →
      p.2.limit = rl.limit ∧ p.2.perNs = rl.perNs := by
    rintro w p rfl
    split <;> exact ⟨rfl, rfl⟩
  exact hcount _ _ rfl

theorem middleware_keeps (rl : RateLimiter) (addr : String) (now : Int) :
    (rateLimitMiddleware rl addr now).2.limit = rl.limit ∧
      (rateLimitMiddleware rl addr now).2.perNs = rl.perNs := by
  have hallow := allow_keeps rl addr now
  unfold rateLimitMiddleware
  split
  · exact ⟨rfl, rfl⟩
  · dsimp only
    split <;> exact hallow

/-! ## histories -/

/-- a request over the connection from `port` of `ip`, and when the limiter sees it -/
structure Arrival where
  ip : String
  port : Nat
  now : Int
  deriving DecidableEq, Repr

/-- the `RemoteAddr` that net/http sets -/
def remoteAddr (ip : String) (port : Nat) : String := ip ++ (":" ++ port.repr)

def Arrival.remoteAddr (r : Arrival) : String := Gateway.remoteAddr r.ip r.port

/-- the requests of a history that are passed on -/
def admitted (rl : RateLimiter) : List Arrival → List Arrival
  | [] => []
  | r :: rs =>
    if (rateLimitMiddleware rl r.remoteAddr r.now).1.isNone then
      r :: admitted (rateLimitMiddleware rl r.remoteAddr r.now).2 rs
    else admitted (rateLimitMiddleware rl r.remoteAddr r.now).2 rs

/-- the requests of `ip` at a time between `a` and `b` -/
def fromWithin (ip : String) (a b : Int) (r : Arrival) : Bool :=
  r.ip == ip && decide (a ≤ r.now ∧ r.now ≤ b)

/-- **At most `2 * L` requests of the client are admitted in any interval of length `W`**, in every
history in which the client's requests come from these ports; other clients' come from anywhere. -/
def PerClient (L : Nat) (W : Int) (ip : String) (ports : Finset Nat) : Prop :=
  ∀ rs : List Arrival, (rs.map Arrival.now).Pairwise (· ≤ ·) →
    (∀ r ∈ rs, r.ip = ip → r.port ∈ ports) →
    ∀ a, (admitted (newRateLimiter L W) rs).countP (fromWithin ip a (a + W)) ≤ 2 * L

/-! ## one address -/

theorem remoteAddr_inj {ip : String} {p p' : Nat} (h : remoteAddr ip p = remoteAddr ip p') :
    p = p' := by
  have hr : p.repr = p'.repr := (String.append_right_inj _).mp ((String.append_right_inj _).mp h)
  have hd : Nat.toDigits 10 p = Nat.toDigits 10 p' := by
    rw [← Nat.toList_repr, hr, Nat.toList_repr]
  rw [← Nat.ofDigitChars_ten_toDigits (n := p), hd, Nat.ofDigitChars_ten_toDigits]

section
variable {L : Nat} (rl : RateLimiter)

/-- the window of the key decides, and no other window changes -/
theorem allow_eq (hl : rl.limit = (L : Int)) (key : String) (now : Int) :
    rl.allow key now = ((grant L rl.perNs now (rl.clients.get? key)).1,
      { rl with clients := rl.clients.set key (grant L rl.perNs now (rl.clients.get? key)).2 }) := by
  have hw : ∀ w : Window,
      (if rl.limit ≤ (w.count : Int) then (false, { rl with clients := rl.clients.set key w })
        else (true, { rl with clients := rl.clients.set key { w with count := w.count + 1 } })) =
      ((if L ≤ w.count then (false, w) else (true, { w with count := w.count + 1 })).1,
        { rl with
          clients := rl.clients.set key
            (if L ≤ w.count then (false, w) else (true, { w with count := w.count + 1 })).2 }) := by
    intro w
    by_cases h : L ≤ w.count
    · rw [if_pos (by omega), if_pos h]
    · rw [if_neg (by omega), if_neg h]
  unfold RateLimiter.allow grant current
  cases rl.clients.get? key with
  | none => exact hw _
  | some w => exact hw _

theorem rateLimitMiddleware_eq (hl : rl.limit = (L : Int)) (hL : 0 < L) (addr : String) (now : Int) :
    (rateLimitMiddleware rl addr now).1.isNone = (grant L rl.perNs now (rl.clients.get? addr)).1 ∧
      (rateLimitMiddleware rl addr now).2 =
        { rl with
          clients := rl.clients.set addr (grant L rl.perNs now (rl.clients.get? addr)).2 } := by
  have h0 : ¬ rl.limit ≤ 0 := by omega
  unfold rateLimitMiddleware
  rw [if_neg h0, allow_eq rl hl]
  dsimp only
  cases (grant L rl.perNs now (rl.clients.get? addr)).1 <;> exact ⟨rfl, rfl⟩

/-- **The requests of one address are admitted as by a counter of their own.** -/
theorem admitted_of_addr (hl : rl.limit = (L : Int)) (hL : 0 < L) (addr : String)
    (rs : List Arrival) :
    ((admitted rl rs).filter fun r => r.remoteAddr = addr).map Arrival.now =
      FixedWindow.admitted L rl.perNs (rl.clients.get? addr)
        ((rs.filter fun r => r.remoteAddr = addr).map Arrival.now) := by
  induction rs generalizing rl with
  | nil => rfl
  | cons r rs ih =>
    obtain ⟨h1, h2⟩ := rateLimitMiddleware_eq rl hl hL r.remoteAddr r.now
    have hrest := ih (rateLimitMiddleware rl r.remoteAddr r.now).2 (by rw [h2]; exact hl)
    unfold admitted
    rw [h1]
    by_cases e : r.remoteAddr = addr
    · rw [List.filter_cons_of_pos (by simpa using e), List.map_cons, FixedWindow.admitted]
      rw [h2] at hrest ⊢
      dsimp only at hrest
      rw [e, Dict.get?_set_self] at hrest
      rw [e]
      split
      · rw [List.filter_cons_of_pos (by simpa using e), List.map_cons, hrest]
      · exact hrest
    · rw [List.filter_cons_of_neg (by simpa using e)]
      rw [h2] at hrest ⊢
      dsimp only at hrest
      rw [Dict.get?_set_ne _ (fun e' => e e'.symm)] at hrest
      split
      · rw [List.filter_cons_of_neg (by simpa using e)]
        exact hrest
      · exact hrest

/-- the same from the limiter that `main` makes -/
theorem admitted_new_of_addr (W : Int) (hL : 0 < L) (addr : String) (rs : List Arrival) :
    ((admitted (newRateLimiter L W) rs).filter fun r => r.remoteAddr = addr).map Arrival.now =
      FixedWindow.admitted L W none
        ((rs.filter fun r => r.remoteAddr = addr).map Arrival.now) :=
  admitted_of_addr (newRateLimiter L W) rfl hL addr rs

theorem admitted_subset (rs : List Arrival) : admitted rl rs ⊆ rs := by
  induction rs generalizing rl with
  | nil => exact List.Subset.refl _
  | cons r rs ih =>
    unfold admitted
    split
    · exact List.cons_subset_cons r (ih _)
    · exact List.subset_cons_of_subset r (ih _)

end

theorem countP_addr (addr : String) (a W : Int) (rs : List Arrival) :
    (within a W ((rs.filter fun r => r.remoteAddr = addr).map Arrival.now)).length =
      rs.countP fun r => decide (r.remoteAddr = addr) && decide (a ≤ r.now ∧ r.now ≤ a + W) := by
  unfold within
  rw [List.filter_map, List.length_map, List.filter_filter, List.countP_eq_length_filter]
  refine congrArg List.length (List.filter_congr fun r _ => ?_)
  exact Bool.and_comm _ _

/-! ## the ports of a client -/

theorem countP_ports {q : Arrival → Bool} (ports : Finset Nat) {rs : List Arrival}
    (h : ∀ r ∈ rs, q r = true → r.port ∈ ports) :
    rs.countP q = ∑ p ∈ ports, rs.countP fun r => q r && decide (r.port = p) := by
  induction rs with
  | nil => simp
  | cons r rs ih =>
    have hr := h r List.mem_cons_self
    simp only [List.countP_cons, Finset.sum_add_distrib]
    rw [ih fun u hu => h u (List.mem_cons_of_mem _ hu)]
    cases hq : q r with
    | false => simp
    | true => simp [hr hq]

/-- a request of the client from every port, at each of these times -/
def eachPort (ip : String) (ports : List Nat) (ts : List Int) : List Arrival :=
  ts.flatMap fun t => ports.map fun p => { ip, port := p, now := t }

theorem mem_eachPort {ip : String} {ports : List Nat} {ts : List Int} {r : Arrival}
    (h : r ∈ eachPort ip ports ts) : r.ip = ip ∧ r.port ∈ ports := by
  obtain ⟨t, _, ht⟩ := List.mem_flatMap.mp h
  obtain ⟨p, hp, rfl⟩ := List.mem_map.mp ht
  exact ⟨rfl, hp⟩

theorem eachPort_sorted (ip : String) (ports : List Nat) {ts : List Int}
    (hs : ts.Pairwise (· ≤ ·)) :
    ((eachPort ip ports ts).map Arrival.now).Pairwise (· ≤ ·) := by
  have hnow : ∀ ts, (eachPort ip ports ts).map Arrival.now =
      ts.flatMap fun t => List.replicate ports.length t := by
    intro ts
    unfold eachPort
    rw [List.map_flatMap]
    refine List.flatMap_congr fun t _ => ?_
    rw [List.map_map]
    exact List.map_const'
  rw [hnow, List.pairwise_flatMap]
  refine ⟨fun t _ => List.pairwise_replicate.mpr (.inr (Int.le_refl t)), hs.imp ?_⟩
  intro t u htu x hx y hy
  rw [(List.mem_replicate.mp hx).2, (List.mem_replicate.mp hy).2]
  exact htu

/-- one connection sees each time once -/
theorem eachPort_of_addr (ip : String) {ports : List Nat} (hn : ports.Nodup) {p : Nat}
    (hp : p ∈ ports) (ts : List Int) :
    ((eachPort ip ports ts).filter fun r => r.remoteAddr = remoteAddr ip p).map Arrival.now = ts := by
  induction ts with
  | nil => rfl
  | cons t ts ih =>
    have hone : ((ports.map fun p => ({ ip, port := p, now := t } : Arrival)).filter
        fun r => r.remoteAddr = remoteAddr ip p) = [{ ip, port := p, now := t }] := by
      rw [List.filter_map]
      have hfun : ((fun r : Arrival => decide (r.remoteAddr = remoteAddr ip p)) ∘
          fun p => ({ ip, port := p, now := t } : Arrival)) = fun p' => p' == p := by
        funext p'
        rw [beq_eq_decide]
        exact decide_eq_decide.mpr ⟨remoteAddr_inj, fun e => e ▸ rfl⟩
      rw [hfun, List.filter_beq, hn.count, if_pos hp]
      rfl
    unfold eachPort at ih ⊢
    rw [List.flatMap_cons, List.filter_append, hone, List.map_append, ih]
    rfl

/-! ## the bound for a client -/

theorem countP_port_le {L : Nat} (hL : 0 < L) {W : Int} (hW : 0 ≤ W) {rs : List Arrival}
    (hs : (rs.map Arrival.now).Pairwise (· ≤ ·)) (ip : String) (p : Nat) (a : Int) :
    ((admitted (newRateLimiter L W) rs).countP fun r =>
      fromWithin ip a (a + W) r && decide (r.port = p)) ≤ peak L W := by
  have hsub : ((rs.filter fun r => r.remoteAddr = remoteAddr ip p).map Arrival.now).Pairwise
      (· ≤ ·) := hs.sublist (List.filter_sublist.map Arrival.now)
  have hb := admitted_le_peak hL hW hsub a
  rw [← admitted_new_of_addr W hL, countP_addr] at hb
  refine Nat.le_trans (List.countP_mono_left fun r _ hr => ?_) hb
  simp only [fromWithin, Bool.and_eq_true, beq_iff_eq, decide_eq_true_eq] at hr ⊢
  obtain ⟨⟨rfl, hi⟩, rfl⟩ := hr
  exact ⟨rfl, hi⟩

/-- one connection reaches the peak, whatever the others do at the same times -/
theorem countP_port_burst {L : Nat} (hL : 0 < L) {W : Int} (hW : 0 ≤ W) (ip : String)
    {ports : List Nat} (hn : ports.Nodup) {p : Nat} (hp : p ∈ ports) :
    ((admitted (newRateLimiter L W) (eachPort ip ports (burst L W))).countP fun r =>
      fromWithin ip W (W + W) r && decide (r.port = p)) = peak L W := by
  have hk := admitted_new_of_addr W hL (remoteAddr ip p) (eachPort ip ports (burst L W))
  rw [eachPort_of_addr ip hn hp, admitted_burst hL hW] at hk
  have hb := within_burst hL hW
  rw [← hk, countP_addr] at hb
  rw [← hb]
  refine List.countP_congr fun r hr => ?_
  have hip := (mem_eachPort (admitted_subset _ _ hr)).1
  simp only [fromWithin, Bool.and_eq_true, beq_iff_eq, decide_eq_true_eq]
  constructor
  · rintro ⟨⟨_, hi⟩, hport⟩
    refine ⟨?_, hi⟩
    rw [Arrival.remoteAddr, hip, hport]
  · rintro ⟨e, hi⟩
    rw [Arrival.remoteAddr, hip] at e
    exact ⟨⟨hip, hi⟩, remoteAddr_inj e⟩

/-- **The bound holds for a client exactly if the peaks of its connections together keep it.** -/
theorem per_client_iff {L : Nat} (hL : 0 < L) {W : Int} (hW : 0 ≤ W) (ip : String)
    (ports : Finset Nat) : PerClient L W ip ports ↔ ports.card * peak L W ≤ 2 * L := by
  constructor
  · intro h
    have hc := h (eachPort ip ports.toList (burst L W))
      (eachPort_sorted ip ports.toList (burst_sorted L hW))
      (fun r hr _ => Finset.mem_toList.mp (mem_eachPort hr).2) W
    rw [countP_ports ports fun r hr _ =>
        Finset.mem_toList.mp (mem_eachPort (admitted_subset _ _ hr)).2,
      Finset.sum_const_nat fun p hp =>
        countP_port_burst hL hW ip ports.nodup_toList (Finset.mem_toList.mpr hp)] at hc
    exact hc
  · intro h rs hs hports a
    rw [countP_ports ports fun r hr hq =>
      hports r (admitted_subset _ _ hr) (by
        simp only [fromWithin, Bool.and_eq_true, beq_iff_eq] at hq
        exact hq.1)]
    calc ∑ p ∈ ports, (admitted (newRateLimiter L W) rs).countP (fun r =>
            fromWithin ip a (a + W) r && decide (r.port = p))
        ≤ ∑ _p ∈ ports, peak L W := Finset.sum_le_sum fun p _ => countP_port_le hL hW hs ip p a
      _ = ports.card * peak L W := Finset.sum_const_nat fun _ _ => rfl
      _ ≤ 2 * L := h

/-- one connection keeps the bound -/
theorem per_client_single : 0 < 60 ∧ (0 : Int) ≤ 60000000000 ∧
    PerClient 60 60000000000 "10.0.0.7" {50001} :=
  ⟨by decide, by decide, (per_client_iff (by decide) (by decide) "10.0.0.7" {50001}).mpr (by decide)⟩

/-- **One request a minute, and three admitted at once, each over a connection of its own.** -/
theorem three_connections : ¬ PerClient 1 60000000000 "10.0.0.7" {50001, 50002, 50003} := by
  intro h
  have hc := h [⟨"10.0.0.7", 50001, 0⟩, ⟨"10.0.0.7", 50002, 0⟩, ⟨"10.0.0.7", 50003, 0⟩]
    (by decide) (by simp) 0
  exact absurd hc (by decide +kernel)

end Gateway
