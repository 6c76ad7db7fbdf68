import Mathlib.Data.List.Basic
import Mathlib.Tactic.Common

/-!
# Fixed-window counters

One counter of a fixed-window limiter: a window opens with a request and counts up to `L` of them
until its time `reset` is past; the next request after that opens a new one.

* `grant L W now w`        the decision on a request, and the window after it;
* `admitted L W w ts`      the requests of a series of times that are admitted;
* `peak L W`               the most that one interval of length `W` can see admitted;
* `admitted_le_peak`       no interval of that length sees more, for times that do not decrease;
* `burst L W`              a series that reaches the peak;
* `window_le`              one window admits no more than `L`, through its time `reset`;
* `le_of_refused`          a request is refused after `L` others of the last `W`.

An interval is closed, as a window is: a window that opens at `s` still counts at `s + W`.
-/

set_option linter.unusedSectionVars false

namespace FixedWindow

structure Window where
  count : Nat
  reset : Int
  deriving DecidableEq, Repr

/-- the window that a request at `now` is counted in -/
def current (W now : Int) : Option Window → Window
  | none => { count := 0, reset := now + W }
  | some w => if w.reset < now then { count := 0, reset := now + W } else w

/-- check and increment -/
def grant (L : Nat) (W now : Int) (w : Option Window) : Bool × Window :=
  let w := current W now w
  if L ≤ w.count then (false, w) else (true, { w with count := w.count + 1 })

def admitted (L : Nat) (W : Int) : Option Window → List Int → List Int
  | _, [] => []
  | w, t :: ts =>
    if (grant L W t w).1 then t :: admitted L W (some (grant L W t w).2) ts
    else admitted L W (some (grant L W t w).2) ts

/-- the times of the closed interval of length `W` from `a` on -/
def within (a W : Int) (ts : List Int) : List Int := ts.filter fun t => a ≤ t ∧ t ≤ a + W

/-- a full window, and of the window before it all but the request that opened it -/
def peak (L : Nat) (W : Int) : Nat := if 0 < W then L + (L - 1) else L

/-! ## one request -/

section
variable {L : Nat} {W a : Int}

theorem grant_none (hL : 0 < L) (W t : Int) : grant L W t none = (true, ⟨1, t + W⟩) :=
  if_neg (Nat.not_le.mpr hL)

theorem grant_expired (hL : 0 < L) {w : Window} {t : Int} (hw : w.reset < t) :
    grant L W t (some w) = (true, ⟨1, t + W⟩) := by
  have hc : current W t (some w) = ⟨0, t + W⟩ := if_pos hw
  unfold grant
  rw [hc]
  exact if_neg (Nat.not_le.mpr hL)

theorem grant_counted {w : Window} {t : Int} (hw : ¬ w.reset < t) (hc : w.count < L) :
    grant L W t (some w) = (true, ⟨w.count + 1, w.reset⟩) := by
  have h : current W t (some w) = w := if_neg hw
  unfold grant
  rw [h]
  exact if_neg (Nat.not_le.mpr hc)

theorem grant_full {w : Window} {t : Int} (hw : ¬ w.reset < t) (hc : L ≤ w.count) :
    grant L W t (some w) = (false, w) := by
  have h : current W t (some w) = w := if_neg hw
  unfold grant
  rw [h]
  exact if_pos hc

theorem admitted_none (hL : 0 < L) (W t : Int) (ts : List Int) :
    admitted L W none (t :: ts) = t :: admitted L W (some ⟨1, t + W⟩) ts := by
  rw [admitted, grant_none hL]
  exact if_pos rfl

theorem admitted_expired (hL : 0 < L) {w : Window} {t : Int} (hw : w.reset < t) (ts : List Int) :
    admitted L W (some w) (t :: ts) = t :: admitted L W (some ⟨1, t + W⟩) ts := by
  rw [admitted, grant_expired hL hw]
  exact if_pos rfl

theorem admitted_counted {w : Window} {t : Int} (hw : ¬ w.reset < t) (hc : w.count < L)
    (ts : List Int) :
    admitted L W (some w) (t :: ts) = t :: admitted L W (some ⟨w.count + 1, w.reset⟩) ts := by
  rw [admitted, grant_counted hw hc]
  exact if_pos rfl

theorem admitted_full {w : Window} {t : Int} (hw : ¬ w.reset < t) (hc : L ≤ w.count)
    (ts : List Int) : admitted L W (some w) (t :: ts) = admitted L W (some w) ts := by
  rw [admitted, grant_full hw hc]
  exact if_neg Bool.false_ne_true

theorem admitted_subset (w : Option Window) (ts : List Int) : admitted L W w ts ⊆ ts := by
  induction ts generalizing w with
  | nil => exact List.Subset.refl _
  | cons t ts ih =>
    unfold admitted
    split
    · exact List.cons_subset_cons t (ih _)
    · exact List.subset_cons_of_subset t (ih _)

theorem length_within_cons (a W t : Int) (ts : List Int) :
    (within a W (t :: ts)).length = (within a W ts).length + if a ≤ t ∧ t ≤ a + W then 1 else 0 := by
  unfold within
  rw [List.filter_cons]
  by_cases hi : a ≤ t ∧ t ≤ a + W
  · rw [if_pos (decide_eq_true hi), if_pos hi, List.length_cons]
  · rw [if_neg (by simpa using hi), if_neg hi, Nat.add_zero]

/-! ## the bound -/

/-- what is known of a window with `count` requests, of which the last was at `last`, when so far
`n` requests have been admitted in the interval from `a` on -/
structure Room (L : Nat) (W a last : Int) (n count : Nat) (reset : Int) : Prop where
  pos : 0 < count
  le : count ≤ L
  opened : reset - W ≤ last
  early : last < a → n = 0
  expired : reset < a → n = 0
  before : reset - W < a → n ≤ count - 1
  inside : reset - W ≤ a + W → n ≤ count + (peak L W - L)
  most : n ≤ peak L W

theorem le_peak (L : Nat) (W : Int) : L ≤ peak L W := by
  unfold peak
  split <;> omega

theorem Room.count {last t reset : Int} {n count : Nat} (h : Room L W a last n count reset)
    (ht : last ≤ t) (hw : ¬ reset < t) (hL : count < L) :
    Room L W a t (n + if a ≤ t ∧ t ≤ a + W then 1 else 0) (count + 1) reset := by
  have hp := le_peak L W
  have hop := h.opened
  by_cases hi : a ≤ t ∧ t ≤ a + W
  · rw [if_pos hi]
    have hin := h.inside (by omega)
    exact
      { pos := Nat.succ_pos count
        le := hL
        opened := by omega
        early := by omega
        expired := by omega
        before := fun hb => by
          have := h.before hb
          have := h.pos
          omega
        inside := fun _ => by omega
        most := by omega }
  · rw [if_neg hi, Nat.add_zero]
    exact
      { pos := Nat.succ_pos count
        le := hL
        opened := by omega
        early := fun hb => h.early (by omega)
        expired := h.expired
        before := fun hb => by
          have := h.before hb
          omega
        inside := fun hb => by
          have := h.inside hb
          omega
        most := h.most }

/-- a window that opens in the interval follows one that opened before it -/
theorem Room.renew {last t reset : Int} {n count : Nat} (h : Room L W a last n count reset)
    (hL : 0 < L) (hW : 0 ≤ W) (ht : last ≤ t) (hw : reset < t) :
    Room L W a t (n + if a ≤ t ∧ t ≤ a + W then 1 else 0) 1 (t + W) := by
  have hp := le_peak L W
  have hop := h.opened
  by_cases hi : a ≤ t ∧ t ≤ a + W
  · rw [if_pos hi]
    have hn : n ≤ peak L W - L := by
      by_cases h0 : 0 < W
      · have := h.before (by omega)
        have := h.le
        rw [peak, if_pos h0]
        omega
      · have := h.expired (by omega)
        omega
    exact
      { pos := Nat.one_pos
        le := hL
        opened := by omega
        early := by omega
        expired := by omega
        before := by omega
        inside := fun _ => by omega
        most := by omega }
  · rw [if_neg hi, Nat.add_zero]
    have h0 : t < a → n = 0 := fun hb => h.early (by omega)
    exact
      { pos := Nat.one_pos
        le := hL
        opened := by omega
        early := h0
        expired := fun hb => h0 (by omega)
        before := fun hb => by
          have := h0 (by omega)
          omega
        inside := fun hb => by
          have := h0 (by omega)
          omega
        most := h.most }

theorem Room.first {t : Int} (hL : 0 < L) (hW : 0 ≤ W) :
    Room L W a t (if a ≤ t ∧ t ≤ a + W then 1 else 0) 1 (t + W) := by
  have hp := le_peak L W
  by_cases hi : a ≤ t ∧ t ≤ a + W
  · rw [if_pos hi]
    exact
      { pos := Nat.one_pos
        le := hL
        opened := by omega
        early := by omega
        expired := by omega
        before := by omega
        inside := fun _ => by omega
        most := by omega }
  · rw [if_neg hi]
    exact
      { pos := Nat.one_pos
        le := hL
        opened := by omega
        early := fun _ => rfl
        expired := fun _ => rfl
        before := fun _ => Nat.zero_le _
        inside := fun _ => Nat.zero_le _
        most := Nat.zero_le _ }

theorem Room.run {last : Int} {n : Nat} {w : Window} (h : Room L W a last n w.count w.reset)
    (hL : 0 < L) (hW : 0 ≤ W) {ts : List Int} (hs : ts.Pairwise (· ≤ ·))
    (hlast : ∀ t ∈ ts, last ≤ t) :
    n + (within a W (admitted L W (some w) ts)).length ≤ peak L W := by
  induction ts generalizing last n w with
  | nil => exact h.most
  | cons t ts ih =>
    obtain ⟨hts, hs⟩ := List.pairwise_cons.mp hs
    have hlt := hlast t List.mem_cons_self
    by_cases hw : w.reset < t
    · rw [admitted_expired hL hw, length_within_cons]
      have := ih (w := ⟨1, t + W⟩) (h.renew hL hW hlt hw) hs hts
      omega
    · by_cases hfull : L ≤ w.count
      · rw [admitted_full hw hfull]
        exact ih h hs fun u hu => hlast u (List.mem_cons_of_mem _ hu)
      · rw [admitted_counted hw (Nat.not_le.mp hfull), length_within_cons]
        have := ih (w := ⟨w.count + 1, w.reset⟩) (h.count hlt hw (Nat.not_le.mp hfull)) hs hts
        omega

/-- **No closed interval of length `W` sees more than the peak admitted.** -/
theorem admitted_le_peak (hL : 0 < L) (hW : 0 ≤ W) {ts : List Int} (hs : ts.Pairwise (· ≤ ·))
    (a : Int) : (within a W (admitted L W none ts)).length ≤ peak L W := by
  cases ts with
  | nil => exact Nat.zero_le _
  | cons t ts =>
    obtain ⟨hts, hs⟩ := List.pairwise_cons.mp hs
    rw [admitted_none hL, length_within_cons]
    have := (Room.first (a := a) (t := t) hL hW).run (w := ⟨1, t + W⟩) hL hW hs hts
    omega

/-! ## one window -/

/-- the window after a series of requests -/
def after (L : Nat) (W : Int) (w : Option Window) (ts : List Int) : Option Window :=
  ts.foldl (fun w t => some (grant L W t w).2) w

theorem admitted_append (w : Option Window) (ts ts' : List Int) :
    admitted L W w (ts ++ ts') = admitted L W w ts ++ admitted L W (after L W w ts) ts' := by
  induction ts generalizing w with
  | nil => rfl
  | cons t ts ih =>
    rw [List.cons_append, admitted, admitted]
    split
    · rw [ih]
      rfl
    · rw [ih]
      rfl

theorem within_append (a W : Int) (ts ts' : List Int) :
    within a W (ts ++ ts') = within a W ts ++ within a W ts' := List.filter_append ts ts'

/-- what is known of the window `w` when `ts` have been admitted, the last request being at `last` -/
structure Tally (L : Nat) (W last : Int) (ts : List Int) (w : Window) : Prop where
  le : w.count ≤ L
  opened : w.reset - W ≤ last
  past : ∀ t ∈ ts, t ≤ last ∧ t ≤ w.reset
  count : (within (w.reset - W) W ts).length = w.count

theorem Tally.step {last t : Int} {ts : List Int} {w : Window} (h : Tally L W last ts w)
    (hL : 0 < L) (hW : 0 ≤ W) (ht : last ≤ t) :
    Tally L W t (ts ++ admitted L W (some w) [t]) (grant L W t (some w)).2 := by
  have hop := h.opened
  by_cases hw : w.reset < t
  · rw [grant_expired hL hw, admitted_expired hL hw]
    have hold : within (t + W - W) W ts = [] := by
      apply List.filter_eq_nil_iff.mpr
      intro u hu hin
      have := (h.past u hu).2
      have := of_decide_eq_true hin
      omega
    refine ⟨hL, by dsimp only; omega, ?_, ?_⟩
    · intro u hu
      dsimp only
      rcases List.mem_append.mp hu with hu | hu
      · have := (h.past u hu).1
        omega
      · rw [List.mem_singleton.mp hu]
        omega
    · show (within (t + W - W) W (ts ++ [t])).length = 1
      rw [within_append, hold, List.nil_append, length_within_cons, if_pos (by omega)]
      rfl
  · by_cases hfull : L ≤ w.count
    · rw [grant_full hw hfull, admitted_full hw hfull, admitted, List.append_nil]
      refine ⟨h.le, by dsimp only; omega, ?_, h.count⟩
      intro u hu
      have := h.past u hu
      dsimp only
      omega
    · rw [grant_counted hw (Nat.not_le.mp hfull), admitted_counted hw (Nat.not_le.mp hfull)]
      refine ⟨Nat.not_le.mp hfull, by dsimp only; omega, ?_, ?_⟩
      · intro u hu
        dsimp only
        rcases List.mem_append.mp hu with hu | hu
        · have := h.past u hu
          omega
        · rw [List.mem_singleton.mp hu]
          omega
      · show (within (w.reset - W) W (ts ++ [t])).length = w.count + 1
        rw [within_append, List.length_append, h.count, length_within_cons, if_pos (by omega)]
        rfl

theorem Tally.run {last : Int} {ts us : List Int} {w w' : Window} (h : Tally L W last ts w)
    (hL : 0 < L) (hW : 0 ≤ W) (hs : us.Pairwise (· ≤ ·)) (hlast : ∀ u ∈ us, last ≤ u)
    (hw' : after L W (some w) us = some w') :
    ∃ last', (last' = last ∨ last' ∈ us) ∧ Tally L W last' (ts ++ admitted L W (some w) us) w' := by
  induction us generalizing last ts w with
  | nil =>
    obtain rfl := Option.some.inj hw'
    refine ⟨last, .inl rfl, ?_⟩
    rw [admitted, List.append_nil]
    exact h
  | cons u us ih =>
    obtain ⟨hu, hs⟩ := List.pairwise_cons.mp hs
    have hstep := h.step hL hW (hlast u List.mem_cons_self)
    obtain ⟨last', hl, ht⟩ := ih hstep hs hu hw'
    refine ⟨last', .inr ?_, ?_⟩
    · rcases hl with rfl | hl
      · exact List.mem_cons_self
      · exact List.mem_cons_of_mem _ hl
    · have happ := admitted_append (L := L) (W := W) (some w) [u] us
      rw [List.append_assoc] at ht
      rw [List.singleton_append] at happ
      rw [happ]
      exact ht

theorem tally_of_after (hL : 0 < L) (hW : 0 ≤ W) {ts : List Int} (hs : ts.Pairwise (· ≤ ·))
    {w : Window} (hw : after L W none ts = some w) :
    ∃ last ∈ ts, Tally L W last (admitted L W none ts) w := by
  cases ts with
  | nil => exact absurd hw nofun
  | cons t ts =>
    obtain ⟨ht, hs⟩ := List.pairwise_cons.mp hs
    replace hw : after L W (some (grant L W t none).2) ts = some w := hw
    rw [grant_none hL] at hw
    have hone : Tally L W t [t] ⟨1, t + W⟩ := by
      refine ⟨hL, by dsimp only; omega, ?_, ?_⟩
      · intro u hu
        rw [List.mem_singleton.mp hu]
        dsimp only
        omega
      · show (within (t + W - W) W [t]).length = 1
        rw [length_within_cons, if_pos (by omega)]
        rfl
    obtain ⟨last, hl, htally⟩ := hone.run hL hW hs ht hw
    refine ⟨last, ?_, ?_⟩
    · rcases hl with rfl | hl
      · exact List.mem_cons_self
      · exact List.mem_cons_of_mem _ hl
    · rw [admitted_none hL]
      exact htally

theorem within_window_le {w : Window} (hc : w.count ≤ L) {ts : List Int}
    (hs : ts.Pairwise (· ≤ ·)) :
    w.count + (within (w.reset - W) W (admitted L W (some w) ts)).length ≤ L := by
  induction ts generalizing w with
  | nil => exact hc
  | cons t ts ih =>
    obtain ⟨ht, hs⟩ := List.pairwise_cons.mp hs
    by_cases hw : w.reset < t
    · have hnil : within (w.reset - W) W (admitted L W (some w) (t :: ts)) = [] := by
        apply List.filter_eq_nil_iff.mpr
        intro u hu hin
        have := of_decide_eq_true hin
        rcases List.mem_cons.mp (admitted_subset _ _ hu) with e | hu
        · omega
        · have := ht u hu
          omega
      rw [hnil]
      exact hc
    · by_cases hfull : L ≤ w.count
      · rw [admitted_full hw hfull]
        exact ih hc hs
      · rw [admitted_counted hw (Nat.not_le.mp hfull), length_within_cons]
        have := ih (w := ⟨w.count + 1, w.reset⟩) (Nat.not_le.mp hfull) hs
        dsimp only at this
        split <;> omega

/-- **A window admits no more than `L`, from its opening through its time `reset`.** -/
theorem window_le (hL : 0 < L) (hW : 0 ≤ W) {ts us : List Int} (hs : (ts ++ us).Pairwise (· ≤ ·))
    {w : Window} (hw : after L W none ts = some w) :
    (within (w.reset - W) W (admitted L W none (ts ++ us))).length ≤ L := by
  rw [List.pairwise_append] at hs
  obtain ⟨last, -, htally⟩ := tally_of_after hL hW hs.1 hw
  have := within_window_le (W := W) htally.le hs.2.1
  have := htally.count
  rw [admitted_append, hw, within_append, List.length_append]
  omega

/-- **A request is refused only if `L` others have been admitted within the last `W`.** -/
theorem le_of_refused (hL : 0 < L) (hW : 0 ≤ W) {ts : List Int} {t : Int}
    (hs : (ts ++ [t]).Pairwise (· ≤ ·)) (href : (grant L W t (after L W none ts)).1 = false) :
    L ≤ (within (t - W) W (admitted L W none ts)).length := by
  rw [List.pairwise_append] at hs
  cases hw : after L W none ts with
  | none =>
    rw [hw, grant_none hL] at href
    exact absurd href Bool.noConfusion
  | some w =>
    rw [hw] at href
    obtain ⟨last, hlast, htally⟩ := tally_of_after hL hW hs.1 hw
    have hle := hs.2.2 last hlast t (List.mem_singleton_self t)
    have hopen : ¬ w.reset < t := by
      intro hexp
      rw [grant_expired hL hexp] at href
      exact Bool.noConfusion href
    have hfull : L ≤ w.count := by
      by_contra hfree
      rw [grant_counted hopen (Nat.not_le.mp hfree)] at href
      exact Bool.noConfusion href
    have hcount := htally.count
    have hmono : (within (w.reset - W) W (admitted L W none ts)).length ≤
        (within (t - W) W (admitted L W none ts)).length := by
      unfold within
      rw [← List.countP_eq_length_filter, ← List.countP_eq_length_filter]
      apply List.countP_mono_left
      intro u hu hin
      have hlast := (htally.past u hu).1
      have hin := of_decide_eq_true hin
      apply decide_eq_true
      omega
    omega

/-! ## the bound is reached -/

/-- a window opens at 0 and is filled at its end, the next opens right after and is filled -/
def burst (L : Nat) (W : Int) : List Int :=
  0 :: (List.replicate (L - 1) W ++ List.replicate L (W + 1))

theorem burst_sorted (L : Nat) (hW : 0 ≤ W) : (burst L W).Pairwise (· ≤ ·) := by
  unfold burst
  rw [List.pairwise_cons, List.pairwise_append]
  refine ⟨fun t ht => ?_, List.pairwise_replicate.mpr (.inr (Int.le_refl _)),
    List.pairwise_replicate.mpr (.inr (Int.le_refl _)), fun t ht u hu => ?_⟩
  · rcases List.mem_append.mp ht with ht | ht <;> have := (List.mem_replicate.mp ht).2 <;> omega
  · have := (List.mem_replicate.mp ht).2
    have := (List.mem_replicate.mp hu).2
    omega

theorem admitted_replicate {k : Nat} {w : Window} {t : Int} (hw : ¬ w.reset < t)
    (hk : w.count + k ≤ L) (ts : List Int) :
    admitted L W (some w) (List.replicate k t ++ ts) =
      List.replicate k t ++ admitted L W (some ⟨w.count + k, w.reset⟩) ts := by
  induction k generalizing w with
  | zero => rfl
  | succ k ih =>
    rw [List.replicate_succ, List.cons_append, admitted_counted hw (by omega),
      ih (w := ⟨w.count + 1, w.reset⟩) hw (by dsimp only; omega), List.cons_append]
    dsimp only
    rw [Nat.add_assoc, Nat.add_comm 1 k]

theorem admitted_burst (hL : 0 < L) (hW : 0 ≤ W) : admitted L W none (burst L W) = burst L W := by
  obtain ⟨k, rfl⟩ : ∃ k, L = k + 1 := ⟨L - 1, by omega⟩
  have hfull : admitted (k + 1) W (some ⟨1, W + 1 + W⟩) (List.replicate k (W + 1)) =
      List.replicate k (W + 1) := by
    have := admitted_replicate (L := k + 1) (W := W) (k := k) (w := ⟨1, W + 1 + W⟩) (t := W + 1)
      (by dsimp only; omega) (by dsimp only; omega) []
    rw [List.append_nil] at this
    rw [this]
    exact List.append_nil _
  unfold burst
  rw [admitted_none hL, Nat.add_sub_cancel,
    admitted_replicate (w := ⟨1, 0 + W⟩) (by dsimp only; omega) (by dsimp only; omega),
    List.replicate_succ, admitted_expired hL (by dsimp only; omega), hfull]

/-- **The peak is reached.** -/
theorem within_burst (hL : 0 < L) (hW : 0 ≤ W) : (within W W (burst L W)).length = peak L W := by
  have hrep : ∀ (k : Nat) (t : Int), (within W W (List.replicate k t)).length =
      if W ≤ t ∧ t ≤ W + W then k else 0 := by
    intro k t
    unfold within
    rw [List.filter_replicate]
    by_cases h : W ≤ t ∧ t ≤ W + W
    · rw [if_pos (decide_eq_true h), if_pos h, List.length_replicate]
    · rw [if_neg (by simpa using h), if_neg h, List.length_nil]
  have happ : ∀ l l' : List Int, within W W (l ++ l') = within W W l ++ within W W l' :=
    fun l l' => List.filter_append l l'
  unfold burst
  rw [length_within_cons, happ, List.length_append, hrep, hrep, if_pos (by omega)]
  unfold peak
  split <;> split <;> split <;> omega

end
end FixedWindow
