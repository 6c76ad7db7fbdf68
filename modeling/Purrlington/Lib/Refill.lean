import Purrlington.Lib.Machine
import Mathlib.Data.List.Induction

/-!
# Supplies that are refilled together

Of each item `i` there is `M i`.  The first take starts a timer; when `W` has passed since, all items
may be refilled at once, and the timer is unset.

* `supply W M`          the takes and refills that are possible;
* `firstSince es`       when the first take was since the last refill;
* `refill_after`        no refill comes earlier than `W` after it;
* `taken_le`            of an item, at most `2 * M i` are taken in a half-open interval of length `W`.

An interval can meet two cycles of takes but no more: their first takes are `W` apart.
-/

set_option linter.unusedSectionVars false

namespace Refill
open SM

variable {ι : Type*} [DecidableEq ι]

inductive Event (ι : Type*) where
  | refill (t : Int)
  | take (t : Int) (i : ι)

def Event.time : Event ι → Int
  | .refill t => t
  | .take t _ => t

/-- what has been taken since the last refill, and when the first of it -/
@[ext] structure Supply (ι : Type*) where
  first : Option Int
  used : ι → Nat

def Supply.full : Supply ι := ⟨none, fun _ => 0⟩

def Supply.take (s : Supply ι) (t : Int) (i : ι) : Supply ι :=
  ⟨s.first.or (some t), fun j => if j = i then s.used i + 1 else s.used j⟩

def supply (W : Int) (M : ι → Nat) : Machine (Supply ι) (Event ι)
  | s, .refill t => if ∃ t₀ ∈ s.first, t₀ + W ≤ t then some .full else none
  | s, .take t i => if s.used i < M i then some (s.take t i) else none

/-- the first take since the last refill, of a history that begins with a full supply -/
def firstSince (es : List (Event ι)) : Option Int :=
  es.foldl (fun first e => match e with
    | .refill _ => none
    | .take t _ => first.or (some t)) none

/-- how often an item is taken in the interval from `a` to before `a + W` -/
def taken (i : ι) (a W : Int) : List (Event ι) → Nat
  | [] => 0
  | .refill _ :: es => taken i a W es
  | .take t j :: es => (if j = i ∧ a ≤ t ∧ t < a + W then 1 else 0) + taken i a W es

section
variable {W : Int} {M : ι → Nat} {s s' : Supply ι} {es : List (Event ι)}

theorem refill_eff {t : Int} (h : supply W M s (.refill t) = some s') :
    ∃ t₀, s.first = some t₀ ∧ t₀ + W ≤ t ∧ s' = .full := by
  replace h : (if ∃ t₀ ∈ s.first, t₀ + W ≤ t then some Supply.full else none) = some s' := h
  split at h
  · rename_i hex
    obtain ⟨t₀, h₀, hle⟩ := hex
    exact ⟨t₀, h₀, hle, (Option.some.inj h).symm⟩
  · exact absurd h nofun

theorem take_eff {t : Int} {i : ι} (h : supply W M s (.take t i) = some s') :
    s.used i < M i ∧ s' = s.take t i := by
  replace h : (if s.used i < M i then some (s.take t i) else none) = some s' := h
  split at h
  · rename_i hlt
    exact ⟨hlt, (Option.some.inj h).symm⟩
  · exact absurd h nofun

theorem first_eq (h : (supply W M).Runs free s es s') :
    s'.first = es.foldl (fun first e => match e with
      | .refill _ => none
      | .take t _ => first.or (some t)) s.first := by
  induction es generalizing s with
  | nil => exact congrArg Supply.first h.symm
  | cons e es ih =>
    obtain ⟨-, t, hs, ht⟩ := h
    rw [ih ht, List.foldl_cons]
    cases e with
    | refill t =>
      obtain ⟨t₀, -, -, rfl⟩ := refill_eff hs
      rfl
    | take t i =>
      obtain ⟨-, rfl⟩ := take_eff hs
      rfl

theorem firstSince_eq (h : (supply W M).Runs free .full es s') : firstSince es = s'.first :=
  (first_eq h).symm

theorem mem_of_firstSince {es : List (Event ι)} {t₀ : Int} (h : firstSince es = some t₀) :
    ∃ e ∈ es, e.time = t₀ := by
  unfold firstSince at h
  induction es using List.reverseRecOn with
  | nil => exact absurd h nofun
  | append_singleton es e ih =>
    rw [List.foldl_append, List.foldl_cons, List.foldl_nil] at h
    cases e with
    | refill t => exact absurd h nofun
    | take t i =>
      rcases Option.or_eq_some_iff.mp h with hf | ⟨-, hf⟩
      · obtain ⟨e, he, ht⟩ := ih hf
        exact ⟨e, List.mem_append_left _ he, ht⟩
      · exact ⟨_, List.mem_append_right _ (List.mem_singleton_self _), Option.some.inj hf⟩

/-- **No refill comes earlier than `W` after the first take since the refill before it.** -/
theorem refill_after (h : (supply W M).Runs free .full es s') {pre post : List (Event ι)} {t : Int}
    (e : es = pre ++ .refill t :: post) : ∃ t₀, firstSince pre = some t₀ ∧ t₀ + W ≤ t := by
  subst e
  obtain ⟨u, hpre, hpost⟩ := h.split
  obtain ⟨-, v, hs, -⟩ := hpost
  obtain ⟨t₀, h₀, hle, -⟩ := refill_eff hs
  exact ⟨t₀, (firstSince_eq hpre).trans h₀, hle⟩

/-! ## the bound -/

/-- what is known of an item of which `n` have been taken in the interval from `a` on, the last event
being at `last` -/
structure Room (W : Int) (M : ι → Nat) (i : ι) (a last : Int) (n : Nat) (s : Supply ι) : Prop where
  used : s.used i ≤ M i
  started : ∀ t₀, s.first = some t₀ → t₀ ≤ last
  early : last < a → n = 0
  before : ∀ t₀, s.first = some t₀ → t₀ < a → n ≤ s.used i
  inside : ∀ t₀, s.first = some t₀ → t₀ < a + W → n ≤ M i + s.used i
  refilled : s.first = none → last < a + W → n ≤ M i
  most : n ≤ 2 * M i

variable {i : ι} {a last t : Int} {n : Nat}

/-- the cycle that a refill ends began before an interval that the refill is in -/
theorem Room.refill (h : Room W M i a last n s) (ht : last ≤ t) {t₀ : Int} (h₀ : s.first = some t₀)
    (hle : t₀ + W ≤ t) : Room W M i a t n .full where
  used := Nat.zero_le _
  started := nofun
  early := fun hlt => h.early (by omega)
  before := nofun
  inside := nofun
  refilled := fun _ hlt => by
    have := h.before t₀ h₀ (by omega)
    have := h.used
    omega
  most := h.most

theorem Room.take (h : Room W M i a last n s) (ht : last ≤ t) {j : ι} (hj : s.used j < M j) :
    Room W M i a t ((if j = i ∧ a ≤ t ∧ t < a + W then 1 else 0) + n) (s.take t j) := by
  have hused : (s.take t j).used i = s.used i + if j = i then 1 else 0 := by
    show (if i = j then s.used j + 1 else s.used i) = _
    by_cases e : j = i
    · subst e
      rw [if_pos rfl, if_pos rfl]
    · rw [if_neg (fun e' => e e'.symm), if_neg e, Nat.add_zero]
  have hmax : (s.take t j).used i ≤ M i := by
    rw [hused]
    by_cases e : j = i
    · subst e
      rw [if_pos rfl]
      exact hj
    · rw [if_neg e]
      exact h.used
  have hcount : (if j = i ∧ a ≤ t ∧ t < a + W then 1 else 0) ≤ if j = i then 1 else 0 := by
    by_cases e : j = i
    · rw [if_pos e]
      split <;> omega
    · rw [if_neg fun hc => e hc.1]
      exact Nat.zero_le _
  have hout : ¬ (a ≤ t ∧ t < a + W) → (if j = i ∧ a ≤ t ∧ t < a + W then 1 else 0) = 0 :=
    fun hn => if_neg fun hc => hn hc.2
  have hearly := h.early
  have hused' := h.used
  have hmost := h.most
  cases hf : s.first with
  | none =>
    have hfirst : (s.take t j).first = some t := by rw [Supply.take, hf]; rfl
    have hrefilled := h.refilled hf
    refine ⟨hmax, ?_, ?_, ?_, ?_, ?_, ?_⟩
    · rw [hfirst]
      rintro _ ⟨⟩
      exact Int.le_refl t
    · intro hlt
      have := hout (by omega)
      omega
    · rw [hfirst]
      rintro _ ⟨⟩ hlt
      have := hout (by omega)
      omega
    · rw [hfirst]
      rintro _ ⟨⟩ hlt
      omega
    · rw [hfirst]
      nofun
    · by_cases hin : t < a + W
      · omega
      · have := hout (by omega)
        omega
  | some t₀ =>
    have hfirst : (s.take t j).first = some t₀ := by rw [Supply.take, hf]; rfl
    have hstarted := h.started t₀ hf
    have hbefore := h.before t₀ hf
    have hinside := h.inside t₀ hf
    refine ⟨hmax, ?_, ?_, ?_, ?_, ?_, ?_⟩
    · rw [hfirst]
      rintro _ ⟨⟩
      omega
    · intro hlt
      have := hout (by omega)
      omega
    · rw [hfirst]
      rintro _ ⟨⟩ hlt
      omega
    · rw [hfirst]
      rintro _ ⟨⟩ hlt
      omega
    · rw [hfirst]
      nofun
    · by_cases hin : t < a + W
      · omega
      · have := hout (by omega)
        omega

theorem Room.run (h : Room W M i a last n s) (hs : (es.map Event.time).Pairwise (· ≤ ·))
    (hlast : ∀ e ∈ es, last ≤ e.time) (hr : (supply W M).Runs free s es s') :
    n + taken i a W es ≤ 2 * M i := by
  induction es generalizing last n s with
  | nil => exact h.most
  | cons e es ih =>
    rw [List.map_cons, List.pairwise_cons] at hs
    have hnext : ∀ e' ∈ es, e.time ≤ e'.time := fun e' he' => hs.1 _ (List.mem_map_of_mem he')
    have hle := hlast e List.mem_cons_self
    obtain ⟨-, u, hm, hu⟩ := hr
    cases e with
    | refill t =>
      obtain ⟨t₀, h₀, hle₀, rfl⟩ := refill_eff hm
      exact ih (h.refill hle h₀ hle₀) hs.2 hnext hu
    | take t j =>
      obtain ⟨hj, rfl⟩ := take_eff hm
      have hle' : last ≤ t := hle
      have := ih (h.take hle' hj) hs.2 hnext hu
      rw [taken]
      omega

/-- **At most `2 * M i` in any half-open interval of length `W`.** -/
theorem taken_le (hs : (es.map Event.time).Pairwise (· ≤ ·)) (hr : (supply W M).Runs free .full es s')
    (i : ι) (a : Int) : taken i a W es ≤ 2 * M i := by
  cases es with
  | nil => exact Nat.zero_le _
  | cons e es =>
    have h0 : Room W M i a e.time 0 Supply.full :=
      ⟨Nat.zero_le _, nofun, fun _ => rfl, nofun, nofun, fun _ _ => Nat.zero_le _, Nat.zero_le _⟩
    have hlast : ∀ e' ∈ e :: es, e.time ≤ e'.time := by
      intro e' he'
      rcases List.mem_cons.mp he' with rfl | he'
      · exact Int.le_refl _
      · exact (List.pairwise_cons.mp hs).1 _ (List.mem_map_of_mem he')
    have := h0.run hs hlast hr
    omega

end
end Refill
