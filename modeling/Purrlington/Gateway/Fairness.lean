import Purrlington.Gateway.RateLimit

/-!
# Gateway: what the rate limiter owes each client

Runs of `allow`, by any clients in any order; the clock does not go back.

* `decisions`           the calls of a run with what is decided on them;
* `decisions_filter`    the decisions on one key are those of a run of its own calls;
* `admittedWithin_eq`   what is admitted of a key is what a counter of its own admits;
* `fair`                a window admits no more than the limit, an interval of its length twice that,
                        and a call is refused only for calls of the same key.
-/

namespace Gateway
open FixedWindow (Window grant within)

structure Visit where
  key : String
  now : Int
  deriving DecidableEq, Repr

def decisions (rl : RateLimiter) : List Visit → List (Visit × Bool)
  | [] => []
  | v :: vs => (v, (rl.allow v.key v.now).1) :: decisions (rl.allow v.key v.now).2 vs

def RateLimiter.after (rl : RateLimiter) (vs : List Visit) : RateLimiter :=
  vs.foldl (fun rl v => (rl.allow v.key v.now).2) rl

/-- how many calls of a key are admitted from `a` through `b` -/
def admittedWithin (key : String) (a b : Int) (ds : List (Visit × Bool)) : Nat :=
  ds.countP fun d => d.1.key = key ∧ d.2 = true ∧ a ≤ d.1.now ∧ d.1.now ≤ b

def timesOf (key : String) (vs : List Visit) : List Int :=
  (vs.filter fun v => v.key = key).map Visit.now

theorem timesOf_append (key : String) (vs vs' : List Visit) :
    timesOf key (vs ++ vs') = timesOf key vs ++ timesOf key vs' := by
  unfold timesOf
  rw [List.filter_append, List.map_append]

theorem timesOf_sorted {vs : List Visit} (h : (vs.map Visit.now).Pairwise (· ≤ ·)) (key : String) :
    (timesOf key vs).Pairwise (· ≤ ·) := h.sublist (List.filter_sublist.map Visit.now)

section
variable {L : Nat} (rl : RateLimiter) (key : String)

/-! ## one key -/

theorem get?_allow_self (hl : rl.limit = (L : Int)) (now : Int) :
    (rl.allow key now).2.clients.get? key =
      some (grant L rl.perNs now (rl.clients.get? key)).2 := by
  rw [allow_eq rl hl]
  exact Dict.get?_set_self _ _ _

theorem get?_allow_ne (hl : rl.limit = (L : Int)) {key' : String} (h : key ≠ key') (now : Int) :
    (rl.allow key' now).2.clients.get? key = rl.clients.get? key := by
  rw [allow_eq rl hl]
  exact Dict.get?_set_ne _ h _

/-- **The decisions on a key depend on its own calls.**  Two limiters that know the same of the key
decide the same on it, whether or not the other keys call. -/
theorem decisions_filter {rl rl' : RateLimiter} (hl : rl.limit = (L : Int))
    (hl' : rl'.limit = (L : Int)) (hp : rl'.perNs = rl.perNs)
    (hk : rl'.clients.get? key = rl.clients.get? key) (vs : List Visit) :
    (decisions rl vs).filter (fun d => d.1.key = key) =
      decisions rl' (vs.filter fun v => v.key = key) := by
  induction vs generalizing rl rl' with
  | nil => rfl
  | cons v vs ih =>
    obtain ⟨hlimit, hper⟩ := allow_keeps rl v.key v.now
    have hlim := hlimit.trans hl
    by_cases e : v.key = key
    · obtain ⟨hlimit', hper'⟩ := allow_keeps rl' v.key v.now
      have hlim' := hlimit'.trans hl'
      have hnext : (rl'.allow v.key v.now).2.clients.get? key =
          (rl.allow v.key v.now).2.clients.get? key := by
        rw [e, get?_allow_self rl' key hl', get?_allow_self rl key hl, hk, hp]
      have hsame : (rl'.allow v.key v.now).1 = (rl.allow v.key v.now).1 := by
        rw [e, allow_eq rl' hl', allow_eq rl hl, hk, hp]
      rw [List.filter_cons_of_pos (p := fun v : Visit => decide (v.key = key)) (decide_eq_true e),
        decisions, decisions, List.filter_cons_of_pos (by simpa using e), hsame,
        ih hlim hlim' (by rw [hper', hper, hp]) hnext]
    · have hnext : rl'.clients.get? key = (rl.allow v.key v.now).2.clients.get? key := by
        rw [get?_allow_ne rl key hl (fun e' => e e'.symm), hk]
      rw [List.filter_cons_of_neg (p := fun v : Visit => decide (v.key = key)) (by simpa using e),
        decisions, List.filter_cons_of_neg (by simpa using e),
        ih hlim hl' (by rw [hper, hp]) hnext]

/-- what is admitted of a key, as by a counter of its own -/
theorem admitted_times (hl : rl.limit = (L : Int)) (vs : List Visit) :
    ((decisions rl vs).filter fun d => d.1.key = key ∧ d.2 = true).map (fun d => d.1.now) =
      FixedWindow.admitted L rl.perNs (rl.clients.get? key) (timesOf key vs) := by
  induction vs generalizing rl with
  | nil => rfl
  | cons v vs ih =>
    obtain ⟨hlimit, hper⟩ := allow_keeps rl v.key v.now
    have hlim := hlimit.trans hl
    have hrest := ih (rl.allow v.key v.now).2 hlim
    rw [hper] at hrest
    unfold timesOf at hrest ⊢
    rw [decisions]
    by_cases e : v.key = key
    · have hv : (rl.allow v.key v.now).1 = (grant L rl.perNs v.now (rl.clients.get? key)).1 := by
        rw [e, allow_eq rl hl]
      rw [e, get?_allow_self rl key hl, ← e] at hrest
      rw [List.filter_cons_of_pos (p := fun v : Visit => decide (v.key = key)) (decide_eq_true e),
        List.map_cons, FixedWindow.admitted, ← hv]
      cases hd : (rl.allow v.key v.now).1 with
      | true =>
        rw [List.filter_cons_of_pos (by simpa using e), List.map_cons, if_pos rfl]
        subst e
        exact congrArg (v.now :: ·) hrest
      | false =>
        rw [List.filter_cons_of_neg (by simp), if_neg Bool.false_ne_true]
        subst e
        exact hrest
    · rw [get?_allow_ne rl key hl (fun e' => e e'.symm)] at hrest
      rw [List.filter_cons_of_neg (p := fun v : Visit => decide (v.key = key)) (by simpa using e),
        List.filter_cons_of_neg (by simp [e]), hrest]

theorem admittedWithin_eq (hl : rl.limit = (L : Int)) (vs : List Visit) (a : Int) :
    admittedWithin key a (a + rl.perNs) (decisions rl vs) =
      (within a rl.perNs
        (FixedWindow.admitted L rl.perNs (rl.clients.get? key) (timesOf key vs))).length := by
  rw [← admitted_times rl key hl, within, List.filter_map, List.length_map, List.filter_filter,
    ← List.countP_eq_length_filter, admittedWithin]
  refine List.countP_congr fun d _ => ?_
  simp only [Function.comp_apply, Bool.and_eq_true, decide_eq_true_eq]
  tauto

theorem get?_after (hl : rl.limit = (L : Int)) (vs : List Visit) :
    (rl.after vs).clients.get? key =
      FixedWindow.after L rl.perNs (rl.clients.get? key) (timesOf key vs) := by
  induction vs generalizing rl with
  | nil => rfl
  | cons v vs ih =>
    obtain ⟨hlimit, hper⟩ := allow_keeps rl v.key v.now
    have hlim := hlimit.trans hl
    have hrest := ih (rl.allow v.key v.now).2 hlim
    rw [hper] at hrest
    unfold timesOf at hrest ⊢
    by_cases e : v.key = key
    · rw [List.filter_cons_of_pos (p := fun v : Visit => decide (v.key = key)) (decide_eq_true e)]
      subst e
      rw [get?_allow_self rl v.key hl] at hrest
      exact hrest
    · rw [get?_allow_ne rl key hl (fun e' => e e'.symm)] at hrest
      rw [List.filter_cons_of_neg (p := fun v : Visit => decide (v.key = key)) (by simpa using e)]
      exact hrest

theorem after_limits (hl : rl.limit = (L : Int)) (vs : List Visit) :
    (rl.after vs).limit = L ∧ (rl.after vs).perNs = rl.perNs := by
  induction vs generalizing rl with
  | nil => exact ⟨hl, rfl⟩
  | cons v vs ih =>
    obtain ⟨hlimit, hper⟩ := allow_keeps rl v.key v.now
    have hlim := hlimit.trans hl
    obtain ⟨h1, h2⟩ := ih (rl.allow v.key v.now).2 hlim
    exact ⟨h1, h2.trans hper⟩

end

/-! ## the bounds -/

theorem peak_le (L : Nat) (W : Int) : FixedWindow.peak L W ≤ 2 * L := by
  unfold FixedWindow.peak
  split <;> omega

/-- **What the limiter owes a client.**  In every run of calls whose times do not decrease: the
decisions on a key are those on its own calls alone; each window of the key admits at most `L`, from
its start through `reset`; any closed interval of length `W` at most `2 * L`; and a call is refused
only if `L` calls of the key were admitted within the `W` before it. -/
theorem fair {L : Nat} (hL : 1 ≤ L) {W : Int} (hW : 0 < W) {vs : List Visit}
    (hs : (vs.map Visit.now).Pairwise (· ≤ ·)) (key : String) :
    ((decisions (newRateLimiter L W) vs).filter (fun d => d.1.key = key) =
      decisions (newRateLimiter L W) (vs.filter fun v => v.key = key)) ∧
    (∀ pre post, vs = pre ++ post →
      ∀ w, ((newRateLimiter L W).after pre).clients.get? key = some w →
        admittedWithin key (w.reset - W) w.reset (decisions (newRateLimiter L W) vs) ≤ L) ∧
    (∀ a, admittedWithin key a (a + W) (decisions (newRateLimiter L W) vs) ≤ 2 * L) ∧
    ∀ pre now post, vs = pre ++ ⟨key, now⟩ :: post →
      (((newRateLimiter L W).after pre).allow key now).1 = false →
        L ≤ admittedWithin key (now - W) now (decisions (newRateLimiter L W) pre) := by
  have hl : (newRateLimiter L W).limit = (L : Int) := rfl
  have hwithin : ∀ vs a, admittedWithin key a (a + W) (decisions (newRateLimiter L W) vs) =
      (within a W (FixedWindow.admitted L W none (timesOf key vs))).length :=
    fun vs a => admittedWithin_eq (newRateLimiter L W) key hl vs a
  have hafter : ∀ vs, ((newRateLimiter L W).after vs).clients.get? key =
      FixedWindow.after L W none (timesOf key vs) :=
    fun vs => get?_after (newRateLimiter L W) key hl vs
  have hsorted := timesOf_sorted hs key
  refine ⟨decisions_filter key hl hl rfl rfl vs, ?_, ?_, ?_⟩
  · rintro pre post rfl w hw
    rw [timesOf_append] at hsorted
    rw [hafter] at hw
    have hle := FixedWindow.window_le hL hW.le hsorted hw
    have heq := hwithin (pre ++ post) (w.reset - W)
    rw [timesOf_append, Int.sub_add_cancel] at heq
    exact heq.trans_le hle
  · intro a
    rw [hwithin vs a]
    exact (FixedWindow.admitted_le_peak hL hW.le hsorted a).trans (peak_le L W)
  · rintro pre now post rfl href
    obtain ⟨hlim, hper⟩ := after_limits (newRateLimiter L W) hl pre
    rw [allow_eq _ hlim, hafter, hper] at href
    have htimes : timesOf key (⟨key, now⟩ :: post) = now :: timesOf key post := by
      unfold timesOf
      rw [List.filter_cons_of_pos (by simp), List.map_cons]
    rw [timesOf_append, htimes] at hsorted
    have hpre : (timesOf key pre ++ [now]).Pairwise (· ≤ ·) :=
      hsorted.sublist (List.Sublist.append_left
        (List.cons_sublist_cons.mpr (List.nil_sublist _)) _)
    have hle := FixedWindow.le_of_refused hL hW.le hpre href
    have heq := hwithin pre (now - W)
    rw [Int.sub_add_cancel] at heq
    exact hle.trans_eq heq.symm

/-- one key is refused within its window and served after it; another is served in between -/
def twoKeys : List Visit :=
  [⟨"10.0.0.7:50001", 0⟩, ⟨"10.0.0.7:50001", 60⟩, ⟨"10.0.0.8:50001", 60⟩, ⟨"10.0.0.7:50001", 61⟩]

theorem fair_two_keys :
    (decisions (newRateLimiter (1 : Nat) 60) twoKeys).map Prod.snd = [true, false, true, true] ∧
      (1 : Nat) ≤ admittedWithin "10.0.0.7:50001" (60 - 60) 60
        (decisions (newRateLimiter (1 : Nat) 60) [⟨"10.0.0.7:50001", 0⟩]) :=
  ⟨by decide, (fair (L := 1) (by decide) (W := 60) (by decide)
    (show (twoKeys.map Visit.now).Pairwise (· ≤ ·) by decide)
    "10.0.0.7:50001").2.2.2 [⟨"10.0.0.7:50001", 0⟩] 60
      [⟨"10.0.0.8:50001", 60⟩, ⟨"10.0.0.7:50001", 61⟩] rfl (by decide)⟩

end Gateway
