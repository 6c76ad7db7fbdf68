import Purrlington.Gateway.RateLimit

/-!
# Gateway: the header Retry-After

A refused request is told the length of the window in whole seconds; the window ends where it was set
to end when it opened.

* `retryAfter_mem`        the header has the whole seconds of the window, or one more;
* `retryAfter_eq`         never one more for a window below `2 ^ 24` seconds;
* `retryAfter_whole`      a whole number of seconds is told as it is;
* `serve`, `Suffices`     further requests, and that the next of the client is then admitted;
* `retry_after_iff`       the header is enough just when the fraction of a second that it drops has
                          passed since the window opened;
* `dropped_half`          a window of one second and a half.
-/

set_option linter.unusedSectionVars false

namespace Gateway
open FixedWindow

/-! ## the header -/

section
variable {d : Int}

def fraction (d : Int) : ℚ := (d % 1000000000 : Int) / 1000000000

theorem fraction_nonneg (d : Int) : 0 ≤ fraction d := by
  have h : (0 : ℚ) ≤ (d % 1000000000 : Int) := Int.cast_nonneg (by omega)
  exact div_nonneg h (by norm_num)

theorem fraction_le (d : Int) : fraction d ≤ 999999999 / 1000000000 := by
  have h : ((d % 1000000000 : Int) : ℚ) ≤ (999999999 : Int) := Int.cast_le.mpr (by omega)
  unfold fraction
  rw [div_le_div_iff_of_pos_right (by norm_num)]
  exact_mod_cast h

theorem seconds_eq (hd : 0 ≤ d) :
    seconds d = Binary64.double ((d / 1000000000 : Int) + Binary64.double (fraction d)) := by
  rw [seconds, Int.tdiv_eq_ediv_of_nonneg hd, Int.tmod_eq_emod_of_nonneg hd, fraction]

theorem double_fraction_mem (d : Int) :
    0 ≤ Binary64.double (fraction d) ∧ Binary64.double (fraction d) ≤ 1 := by
  have h0 := fraction_nonneg d
  have h1 : fraction d < 1 := (fraction_le d).trans_lt (by norm_num)
  have hk : fraction d < 2 ^ (53 : ℤ) := h1.trans (by norm_num)
  constructor
  · exact_mod_cast Binary64.le_double (n := 0) h0 hk (by exact_mod_cast h0)
  · exact_mod_cast Binary64.double_le (n := 1) h0 hk (by exact_mod_cast h1.le)

theorem whole_nonneg (hd : 0 ≤ d) : (0 : ℚ) ≤ (d / 1000000000 : Int) :=
  Int.cast_nonneg (Int.ediv_nonneg hd (by decide))

theorem seconds_mem (hd : 0 ≤ d) (hmax : d < 2 ^ 63) :
    (d / 1000000000 : Int) ≤ seconds d ∧ seconds d ≤ (d / 1000000000 + 1 : Int) := by
  obtain ⟨h0, h1⟩ := double_fraction_mem d
  have hx := add_nonneg (whole_nonneg hd) h0
  have hmax' : ((d / 1000000000 : Int) : ℚ) ≤ (2 ^ 34 : Int) := Int.cast_le.mpr (by omega)
  have hk : (d / 1000000000 : Int) + Binary64.double (fraction d) < 2 ^ (53 : ℤ) :=
    (add_le_add hmax' h1).trans_lt (by norm_num)
  rw [seconds_eq hd]
  refine ⟨Binary64.le_double hx hk (le_add_of_nonneg_right h0), Binary64.double_le hx hk ?_⟩
  rw [Int.cast_add, Int.cast_one]
  linarith

theorem retryAfter_eq_floor (hd : 0 ≤ d) (hmax : d < 2 ^ 63) : retryAfter d = ⌊seconds d⌋ :=
  Binary64.trunc_of_nonneg ((whole_nonneg hd).trans (seconds_mem hd hmax).1)

/-- **The header has the whole seconds of the window, or one more.** -/
theorem retryAfter_mem (hd : 0 ≤ d) (hmax : d < 2 ^ 63) :
    d / 1000000000 ≤ retryAfter d ∧ retryAfter d ≤ d / 1000000000 + 1 := by
  obtain ⟨hlow, hhigh⟩ := seconds_mem hd hmax
  rw [retryAfter_eq_floor hd hmax]
  exact ⟨Int.le_floor.mpr hlow, Int.cast_le.mp ((Int.floor_le (seconds d)).trans hhigh)⟩

/-- **A window below `2 ^ 24` seconds is told in its whole seconds.** -/
theorem retryAfter_eq (hd : 0 ≤ d) (hmax : d < 2 ^ 24 * 1000000000) :
    retryAfter d = d / 1000000000 := by
  have hf1 := fraction_le d
  obtain ⟨h0, _⟩ := double_fraction_mem d
  have hmax' : ((d / 1000000000 : Int) : ℚ) ≤ (2 ^ 24 - 1 : Int) := Int.cast_le.mpr (by omega)
  -- the fraction is rounded, and then the sum is
  have herr : |Binary64.double (fraction d) - fraction d| ≤ 1 / 10 ^ 16 :=
    (Binary64.abs_double_sub_le (k := 0) (fraction_nonneg d) (hf1.trans_lt (by norm_num))).trans
      (by norm_num)
  have hround : Binary64.double (fraction d) ≤ 999999999 / 1000000000 + 1 / 10 ^ 16 := by
    have := (abs_le.mp herr).2
    linarith
  have hk : (d / 1000000000 : Int) + Binary64.double (fraction d) < 2 ^ (24 : ℤ) :=
    (add_le_add hmax' hround).trans_lt (by norm_num)
  have hsum : |seconds d - ((d / 1000000000 : Int) + Binary64.double (fraction d))| ≤ 99 / 10 ^ 11 := by
    rw [seconds_eq hd]
    exact (Binary64.abs_double_sub_le (add_nonneg (whole_nonneg hd) h0) hk).trans (by norm_num)
  have hlt : seconds d < (d / 1000000000 + 1 : Int) := by
    have := (abs_le.mp hsum).2
    rw [Int.cast_add, Int.cast_one]
    linarith
  have hmem := retryAfter_mem hd (by omega)
  rw [retryAfter_eq_floor hd (by omega)] at hmem ⊢
  have := Int.floor_lt.mpr hlt
  omega

end

/-! ## the next request -/

def serve (rl : RateLimiter) (rs : List Arrival) : RateLimiter :=
  rs.foldl (fun rl r => (rateLimitMiddleware rl r.remoteAddr r.now).2) rl

/-- a request of the client at any time later than `s` seconds after its request at `t` is admitted,
if only others' come in between -/
def Suffices (rl : RateLimiter) (addr : String) (t s : Int) : Prop :=
  ∀ others : List Arrival, (∀ r ∈ others, r.remoteAddr ≠ addr) → ∀ u, t + s * 1000000000 < u →
    (rateLimitMiddleware (serve (rateLimitMiddleware rl addr t).2 others) addr u).1 = none

section
variable {L : Nat} {rl : RateLimiter}

theorem serve_limits (rl : RateLimiter) (rs : List Arrival) :
    (serve rl rs).limit = rl.limit ∧ (serve rl rs).perNs = rl.perNs := by
  induction rs generalizing rl with
  | nil => exact ⟨rfl, rfl⟩
  | cons r rs ih =>
    obtain ⟨h1, h2⟩ := middleware_keeps rl r.remoteAddr r.now
    obtain ⟨h3, h4⟩ := ih (rateLimitMiddleware rl r.remoteAddr r.now).2
    exact ⟨h3.trans h1, h4.trans h2⟩

theorem serve_others (hl : rl.limit = (L : Int)) (hL : 0 < L) {addr : String} {others : List Arrival}
    (h : ∀ r ∈ others, r.remoteAddr ≠ addr) :
    (serve rl others).clients.get? addr = rl.clients.get? addr := by
  induction others generalizing rl with
  | nil => rfl
  | cons r rs ih =>
    have hne := h r List.mem_cons_self
    have hlimit := (middleware_keeps rl r.remoteAddr r.now).1.trans hl
    refine (ih hlimit fun x hx => h x (List.mem_cons_of_mem r hx)).trans ?_
    rw [(rateLimitMiddleware_eq rl hl hL r.remoteAddr r.now).2]
    exact Dict.get?_set_ne _ hne.symm _

/-- a request is refused in a window that is open and full, and leaves it so -/
theorem window_of_refused (hl : rl.limit = (L : Int)) (hL : 0 < L) {addr : String} {t : Int}
    {resp : List RwAct} (h : (rateLimitMiddleware rl addr t).1 = some resp) :
    ∃ w, rl.clients.get? addr = some w ∧ ¬ w.reset < t ∧ L ≤ w.count ∧
      (rateLimitMiddleware rl addr t).2.clients.get? addr = some w := by
  obtain ⟨h1, h2⟩ := rateLimitMiddleware_eq rl hl hL addr t
  rw [h] at h1
  rw [h2]
  cases hw : rl.clients.get? addr with
  | none =>
    rw [hw, grant_none hL] at h1
    exact absurd h1 (by simp)
  | some w =>
    rw [hw] at h1
    have hopen : ¬ w.reset < t := by
      intro hexp
      rw [grant_expired hL hexp] at h1
      exact absurd h1 (by simp)
    have hfull : L ≤ w.count := by
      by_contra hfree
      rw [grant_counted hopen (Nat.not_le.mp hfree)] at h1
      exact absurd h1 (by simp)
    refine ⟨w, rfl, hopen, hfull, ?_⟩
    rw [grant_full hopen hfull]
    exact Dict.get?_set_self _ _ _

/-- a full window admits the next request just when it has ended -/
theorem admitted_iff_ended (hl : rl.limit = (L : Int)) (hL : 0 < L) {addr : String} {w : Window}
    (hw : rl.clients.get? addr = some w) (hfull : L ≤ w.count) (u : Int) :
    (rateLimitMiddleware rl addr u).1 = none ↔ w.reset < u := by
  have h1 := (rateLimitMiddleware_eq rl hl hL addr u).1
  rw [hw] at h1
  rw [← Option.isNone_iff_eq_none, h1]
  by_cases hexp : w.reset < u
  · rw [grant_expired hL hexp]
    exact iff_of_true rfl hexp
  · rw [grant_full hexp hfull]
    exact iff_of_false Bool.false_ne_true hexp

theorem suffices_iff (hl : rl.limit = (L : Int)) (hL : 0 < L) {addr : String} {t : Int} {w : Window}
    (hw : (rateLimitMiddleware rl addr t).2.clients.get? addr = some w) (hfull : L ≤ w.count)
    (s : Int) : Suffices rl addr t s ↔ w.reset ≤ t + s * 1000000000 := by
  have hl' := (middleware_keeps rl addr t).1.trans hl
  constructor
  · intro h
    have hnone := h [] (fun _ hr => absurd hr List.not_mem_nil) (t + s * 1000000000 + 1) (by omega)
    have := (admitted_iff_ended hl' hL hw hfull _).mp hnone
    omega
  · intro h others hothers u hu
    have hw' := (serve_others hl' hL hothers).trans hw
    exact (admitted_iff_ended ((serve_limits _ others).1.trans hl') hL hw' hfull u).mpr (by omega)

/-! ## the windows of a history -/

/-- a window ends at most its length after the last request -/
def Opened (rl : RateLimiter) (last : Int) : Prop :=
  ∀ addr w, rl.clients.get? addr = some w → w.reset ≤ last + rl.perNs

theorem grant_reset (hL : 0 < L) {W now : Int} {w : Option Window}
    (h : ∀ x, w = some x → x.reset ≤ now + W) : (grant L W now w).2.reset ≤ now + W := by
  cases w with
  | none =>
    rw [grant_none hL]
  | some x =>
    by_cases hexp : x.reset < now
    · rw [grant_expired hL hexp]
    · by_cases hfull : L ≤ x.count
      · rw [grant_full hexp hfull]
        exact h x rfl
      · rw [grant_counted hexp (Nat.not_le.mp hfull)]
        exact h x rfl

theorem Opened.step {last now : Int} (h : Opened rl last) (hl : rl.limit = (L : Int)) (hL : 0 < L)
    (hle : last ≤ now) (addr : String) : Opened (rateLimitMiddleware rl addr now).2 now := by
  intro x w hw
  rw [(middleware_keeps rl addr now).2]
  rw [(rateLimitMiddleware_eq rl hl hL addr now).2] at hw
  have hold : ∀ y v, rl.clients.get? y = some v → v.reset ≤ now + rl.perNs := fun y v hv =>
    (h y v hv).trans (by omega)
  by_cases hx : x = addr
  · subst hx
    rw [Dict.get?_set_self] at hw
    obtain rfl := Option.some.inj hw
    exact grant_reset hL fun v hv => hold x v hv
  · rw [Dict.get?_set_ne _ hx] at hw
    exact hold x w hw

theorem Opened.run {last t : Int} (h : Opened rl last) (hl : rl.limit = (L : Int)) (hL : 0 < L)
    {rs : List Arrival} (hs : (last :: (rs.map Arrival.now ++ [t])).Pairwise (· ≤ ·)) :
    Opened (serve rl rs) t := by
  induction rs generalizing rl last with
  | nil =>
    obtain ⟨hle, -⟩ := List.pairwise_cons.mp hs
    have := hle t (List.mem_singleton_self t)
    show Opened rl t
    exact fun y v hv => (h y v hv).trans (by omega)
  | cons r rs ih =>
    obtain ⟨hle, hs⟩ := List.pairwise_cons.mp hs
    have hlimit := (middleware_keeps rl r.remoteAddr r.now).1.trans hl
    exact ih (h.step hl hL (hle r.now List.mem_cons_self) r.remoteAddr) hlimit hs

theorem opened_new (hL : 0 < L) (W : Int) {rs : List Arrival} {t : Int}
    (hs : (rs.map Arrival.now ++ [t]).Pairwise (· ≤ ·)) :
    Opened (serve (newRateLimiter L W) rs) t := by
  have hnew : ∀ last, Opened (newRateLimiter L W) last :=
    fun _ _ w hw => absurd hw.symm (Option.some_ne_none w)
  cases rs with
  | nil => exact hnew t
  | cons r rs =>
    have hfirst : (r.now :: ((r :: rs).map Arrival.now ++ [t])).Pairwise (· ≤ ·) := by
      refine List.pairwise_cons.mpr ⟨fun u hu => ?_, hs⟩
      rcases List.mem_cons.mp hu with rfl | hu
      · exact Int.le_refl _
      · exact (List.pairwise_cons.mp hs).1 u hu
    exact (hnew r.now).run rfl hL hfirst

end

/-- **Honouring Retry-After is enough where what it drops has passed.**  The limit is at least one and
the window `W` is positive (and a `Duration`), both held constant; after any history, with the times
of the requests not decreasing, a request of the client is refused at `t` with `Retry-After: s`.  Its
next request at any time later than `t + s` seconds is admitted, whatever others do in between, if and
only if the fraction of a second of `W` has passed at `t` since the window opened, or `Seconds()` has
been rounded up to a whole second. -/
theorem retry_after_iff {limit W : Int} (hl : 1 ≤ limit) (hW : 0 < W) (hmax : W < 2 ^ 63)
    (before : List Arrival) (addr : String) (t : Int)
    (hs : (before.map Arrival.now ++ [t]).Pairwise (· ≤ ·)) {resp : List RwAct}
    (href : (rateLimitMiddleware (serve (newRateLimiter limit W) before) addr t).1 = some resp) :
    ∃ w s, (serve (newRateLimiter limit W) before).clients.get? addr = some w ∧
      .set "Retry-After" (toString s) ∈ resp ∧
      (Suffices (serve (newRateLimiter limit W) before) addr t s ↔
        W % 1000000000 ≤ t - (w.reset - W) ∨ W / 1000000000 < ⌊seconds W⌋) := by
  obtain ⟨L, rfl⟩ := Int.eq_ofNat_of_zero_le (by omega : 0 ≤ limit)
  have hL : 0 < L := by omega
  have hopened := opened_new hL W hs
  obtain ⟨hlimit, hper⟩ := serve_limits (newRateLimiter L W) before
  generalize serve (newRateLimiter L W) before = rl at href hopened hlimit hper ⊢
  replace hlimit : rl.limit = (L : Int) := hlimit
  replace hper : rl.perNs = W := hper
  obtain ⟨w, hw, hopen, hfull, hkept⟩ := window_of_refused hlimit hL href
  have hresp : resp = tooManyRequests rl := by
    unfold rateLimitMiddleware at href
    rw [if_neg (by omega)] at href
    dsimp only at href
    split at href
    · exact absurd href (by simp)
    · exact (Option.some.inj href).symm
  refine ⟨w, retryAfter W, hw, ?_, ?_⟩
  · rw [hresp, tooManyRequests, hper]
    exact List.mem_cons_self
  · have hend := hopened addr w hw
    obtain ⟨hlow, hhigh⟩ := retryAfter_mem hW.le hmax
    rw [suffices_iff hlimit hL hkept hfull, ← retryAfter_eq_floor hW.le hmax]
    omega

/-- one request has been admitted, at time 0 -/
def oneServed (W : Int) : RateLimiter := serve (newRateLimiter 1 W) [⟨"10.0.0.7", 50001, 0⟩]

theorem retry_after_iff_two_seconds :
    ∃ w s, (oneServed 2000000000).clients.get? "10.0.0.7:50001" = some w ∧
      .set "Retry-After" (toString s) ∈ tooManyRequests (oneServed 2000000000) ∧
      (Suffices (oneServed 2000000000) "10.0.0.7:50001" 5 s ↔
        2000000000 % 1000000000 ≤ 5 - (w.reset - 2000000000) ∨
          2000000000 / 1000000000 < ⌊seconds 2000000000⌋) :=
  retry_after_iff (by decide) (by decide) (by decide) [⟨"10.0.0.7", 50001, 0⟩] "10.0.0.7:50001" 5
    (by decide) rfl

/-- **A window of one second and a half, and a client that is refused twice.**  It is told to wait for
one second, waits for 1.1, and is refused again. -/
theorem dropped_half :
    (rateLimitMiddleware (oneServed 1500000000) "10.0.0.7:50001" 200000000).1 =
        some (tooManyRequests (oneServed 1500000000)) ∧
      .set "Retry-After" "1" ∈ tooManyRequests (oneServed 1500000000) ∧
      ¬ Suffices (oneServed 1500000000) "10.0.0.7:50001" 200000000 1 := by
  have htold : retryAfter 1500000000 = 1 := retryAfter_eq (by decide) (by decide)
  refine ⟨rfl, ?_, fun h => ?_⟩
  · show RwAct.set "Retry-After" "1" ∈
      RwAct.set "Retry-After" (toString (retryAfter 1500000000)) :: _
    rw [htold]
    exact List.mem_cons_self
  · have hnone := h [] (fun _ hr => absurd hr List.not_mem_nil) 1300000000 (by decide)
    exact absurd hnone (Option.some_ne_none (tooManyRequests (oneServed 1500000000)))

end Gateway
