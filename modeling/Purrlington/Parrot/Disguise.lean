import Purrlington.Parrot.Masking
import Mathlib.Data.List.Forall2

/-!
# Parrot: stop words in disguise

A stop word can be written in another case and with leetspeak for its letters. The filter undoes this,
but takes a `!` at an edge for punctuation.

* `Disguises w v`       `v` is such a writing of `w`;
* `Alone before after`  nothing before or after a word goes on with it;
* `core w v`            the letters of `w` without those written as a `!` at an edge of `v`;
* `disguise_masked`     when a disguise is masked.
-/

namespace Parrot

open Regex Runs
open Framing (strip strip_map strip_eq_self mem_of_mem_strip mem_strip_of_neg)

/-- the letter in either case, or a symbol for it; the letter is then in lower case -/
def StandsFor (letter ch : Char) : Prop :=
  (ch.isAlpha = true ∧ ch.toLower = letter) ∨ LEET_MAP.lookup ch = some letter

structure Disguises (w v : List Char) : Prop where
  stands : List.Forall₂ StandsFor w v
  letter : v.any Char.isAlpha = true

structure Alone (before after : List Char) : Prop where
  left : ∀ c ∈ before.getLast?, tokenChar c = false
  right : ∀ c ∈ after.head?, tokenChar c = false

def core (w v : List Char) : List Char := (strip (fun p => p.2 == '!') (w.zip v)).map Prod.fst

/-! ### a disguise is a token, and what it normalises to -/

section
variable {w v : List Char}

theorem StandsFor.tokenChar {letter ch : Char} (h : StandsFor letter ch) : tokenChar ch = true := by
  rcases h with ⟨halpha, -⟩ | hleet
  · exact tokenChar_of_isAlpha ch halpha
  · rw [Parrot.tokenChar, hleet]
    exact Bool.or_true _

theorem mem_of_lookup {ch letter : Char} (h : LEET_MAP.lookup ch = some letter) :
    (ch, letter) ∈ LEET_MAP := by
  obtain ⟨l₁, l₂, heq, -⟩ := List.lookup_eq_some_iff.mp h
  rw [heq]
  exact List.mem_append_right l₁ List.mem_cons_self

theorem not_isAlpha_of_mem : ∀ p ∈ LEET_MAP, p.1.isAlpha = false ∧ p.1.toLower = p.1 := by decide

theorem isAlpha_toLower {ch : Char} (h : ch.isAlpha = true) : ch.toLower.isAlpha = true := by
  by_cases hupper : ch.val ≥ 65 ∧ ch.val ≤ 90
  · have hval : ch.toLower.val = ch.val + 32 := congrArg Char.val (dif_pos hupper)
    have hrange : 97 ≤ ch.val + 32 ∧ ch.val + 32 ≤ 122 := by
      simp only [ge_iff_le, UInt32.le_iff_toNat_le, UInt32.toNat_add, UInt32.reduceToNat] at hupper ⊢
      omega
    have hlower : ch.toLower.isLower = true := by
      show (decide (97 ≤ ch.toLower.val) && decide (ch.toLower.val ≤ 122)) = true
      rw [hval]
      exact Bool.and_eq_true_iff.mpr ⟨decide_eq_true hrange.1, decide_eq_true hrange.2⟩
    show (ch.toLower.isUpper || ch.toLower.isLower) = true
    rw [hlower, Bool.or_true]
  · rw [show ch.toLower = ch from dif_neg hupper]
    exact h

theorem lookup_toLower_of_isAlpha {ch : Char} (h : ch.isAlpha = true) :
    LEET_MAP.lookup ch.toLower = none := by
  refine Option.eq_none_iff_forall_ne_some.mpr fun letter hlookup => ?_
  have hnot := (not_isAlpha_of_mem _ (mem_of_lookup hlookup)).1
  exact Bool.false_ne_true (hnot.symm.trans (isAlpha_toLower h))

theorem StandsFor.normalise {letter ch : Char} (h : StandsFor letter ch) :
    (LEET_MAP.lookup ch.toLower).getD ch.toLower = letter := by
  rcases h with ⟨halpha, rfl⟩ | hleet
  · rw [lookup_toLower_of_isAlpha halpha]
    rfl
  · rw [(not_isAlpha_of_mem _ (mem_of_lookup hleet)).2, hleet]
    rfl

theorem normalise_eq_map (token : List Char) :
    normalise token = token.map fun ch => (LEET_MAP.lookup ch.toLower).getD ch.toLower := by
  rw [normalise, List.map_map]
  rfl

theorem normalise_of_stands (h : List.Forall₂ StandsFor w v) : normalise v = w := by
  rw [normalise_eq_map]
  induction h with
  | nil => rfl
  | cons hc _ ih => rw [List.map_cons, hc.normalise, ih]

theorem tokenChar_of_stands (h : List.Forall₂ StandsFor w v) : ∀ c ∈ v, tokenChar c = true := by
  induction h with
  | nil => exact fun c hc => absurd hc List.not_mem_nil
  | cons hc _ ih => exact List.forall_mem_cons.mpr ⟨hc.tokenChar, ih⟩

/-- **A disguise without its edges normalises to the core of its word.** -/
theorem normalise_stripEdge (h : List.Forall₂ StandsFor w v) :
    normalise (stripEdge v) = core w v := by
  have hv : (w.zip v).map Prod.snd = v := List.map_snd_zip h.length_eq.ge
  have hstrip : stripEdge v = (strip (fun p => p.2 == '!') (w.zip v)).map Prod.snd := by
    conv_lhs => rw [← hv]
    exact strip_map (· == '!') Prod.snd (w.zip v)
  rw [normalise_eq_map, hstrip, List.map_map, core]
  refine List.map_congr_left fun p hp => ?_
  exact StandsFor.normalise (List.forall₂_iff_zip.mp h |>.2 (mem_of_mem_strip hp))

theorem stripEdge_ne_nil (h : v.any Char.isAlpha = true) : stripEdge v ≠ [] := by
  obtain ⟨c, hc, halpha⟩ := List.any_eq_true.mp h
  have hne : (c == '!') = false := by
    refine beq_false_of_ne fun heq => ?_
    rw [heq] at halpha
    exact absurd halpha (by decide)
  exact List.ne_nil_of_mem (mem_strip_of_neg (p := (· == '!')) hc hne)

theorem isProfane_disguise {profanitySet : List String} (h : Disguises w v) :
    isProfane profanitySet v = true ↔ String.ofList (core w v) ∈ profanitySet := by
  have hne : (stripEdge v).isEmpty = false :=
    Bool.eq_false_iff.mpr fun hnil => stripEdge_ne_nil h.letter (List.isEmpty_iff.mp hnil)
  rw [isProfane, hne, normalise_stripEdge h.stands, Bool.not_false, Bool.true_and, decide_eq_true_iff]

theorem core_eq_self (h : List.Forall₂ StandsFor w v) (hhead : v.head? ≠ some '!')
    (hlast : v.getLast? ≠ some '!') : core w v = w := by
  have hstrip : stripEdge v = v := by
    refine strip_eq_self (p := (· == '!')) ?_ ?_
    · intro c hc
      exact beq_false_of_ne fun heq => hhead (heq ▸ hc)
    · intro c hc
      exact beq_false_of_ne fun heq => hlast (heq ▸ hc)
  rw [← normalise_stripEdge h, hstrip, normalise_of_stands h]

theorem token_of_alone {before after : List Char} (h : Disguises w v) (ha : Alone before after) :
    Token (before ++ (v ++ after)) before.length v := by
  have hne : v ≠ [] := by
    rintro rfl
    exact absurd h.letter (by decide)
  exact ⟨⟨hne, tokenChar_of_stands h.stands, before, after, rfl, rfl, ha.left, ha.right⟩, h.letter⟩

theorem masked_token {profanitySet : List String} {text : List Char} {i k : Nat} {token : List Char}
    (h : Token text i token) (hk : i ≤ k ∧ k < i + token.length) :
    InProfane profanitySet text k ↔ isProfane profanitySet token = true := by
  constructor
  · rintro ⟨i', token', htoken, hprof, hk'⟩
    rw [(Maximal.unique h.maximal htoken.maximal hk hk').2]
    exact hprof
  · intro hprof
    exact ⟨i, token, h, hprof, hk⟩

end

/-- **A stop word in disguise is masked**, whole, exactly when its core is on the stop list: so whenever
it neither begins nor ends with a `!`. Otherwise the filter leaves it as it is. -/
theorem disguise_masked (profanitySet : List String) {w v before after : List Char}
    (hw : String.ofList w ∈ profanitySet) (hv : Disguises w v) (halone : Alone before after)
    {text : String} (htext : text.toList = before ++ (v ++ after)) :
    (String.ofList (core w v) ∈ profanitySet → ∀ k, before.length ≤ k → k < before.length + v.length →
        (Re.maskProfanity profanitySet text).1.toList[k]? = some MASK_CHAR) ∧
      (String.ofList (core w v) ∉ profanitySet → ∀ k, before.length ≤ k → k < before.length + v.length →
        (Re.maskProfanity profanitySet text).1.toList[k]? = text.toList[k]?) ∧
      (v.head? ≠ some '!' → v.getLast? ≠ some '!' → ∀ k, before.length ≤ k →
        k < before.length + v.length →
        (Re.maskProfanity profanitySet text).1.toList[k]? = some MASK_CHAR) := by
  have htoken := token_of_alone hv halone
  rw [← htext] at htoken
  have hplace : ∀ k, before.length ≤ k → k < before.length + v.length →
      (InProfane profanitySet text.toList k ↔ String.ofList (core w v) ∈ profanitySet) := by
    intro k hle hlt
    rw [masked_token htoken ⟨hle, hlt⟩, isProfane_disguise hv]
  rw [Re.maskProfanity_eq, String.toList_ofList]
  have hmask : String.ofList (core w v) ∈ profanitySet → ∀ k, before.length ≤ k →
      k < before.length + v.length → (masked profanitySet text.toList)[k]? = some MASK_CHAR := by
    intro hcore k hle hlt
    exact (getElem?_masked profanitySet text.toList k).1 ((hplace k hle hlt).mpr hcore)
  refine ⟨hmask, fun hcore k hle hlt => ?_, fun hhead hlast => hmask ?_⟩
  · exact (getElem?_masked profanitySet text.toList k).2 fun hin => hcore ((hplace k hle hlt).mp hin)
  · rw [core_eq_self hv.stands hhead hlast]
    exact hw

theorem disguises_shit : Disguises "shit".toList "Sh1t".toList := by
  refine ⟨.cons (.inl ⟨rfl, rfl⟩) (.cons (.inl ⟨rfl, rfl⟩) (.cons (.inr rfl) ?_)), by decide⟩
  exact .cons (.inl ⟨rfl, rfl⟩) .nil

theorem disguise_masked_shit :
    (Re.maskProfanity ["shit"] "oh Sh1t.").1.toList[5]? = some MASK_CHAR := by
  have halone : Alone "oh ".toList ".".toList := ⟨by simp; decide, by simp; decide⟩
  have htext : "oh Sh1t.".toList = "oh ".toList ++ ("Sh1t".toList ++ ".".toList) := by decide
  have hmasked := (disguise_masked ["shit"] (by decide) disguises_shit halone htext).2.2
  exact hmasked (by decide) (by decide) 5 (by decide) (by decide)

theorem disguises_idiot : Disguises "idiot".toList "!diot".toList := by
  refine ⟨.cons (.inr rfl) (.cons (.inl ⟨rfl, rfl⟩) (.cons (.inl ⟨rfl, rfl⟩) ?_)), by decide⟩
  exact .cons (.inl ⟨rfl, rfl⟩) (.cons (.inl ⟨rfl, rfl⟩) .nil)

/-- the `!` for the first letter is taken for punctuation, and `diot` is no stop word -/
theorem disguise_unmasked : ¬ ∀ (profanitySet : List String) (w v before after : List Char)
    (text : String), String.ofList w ∈ profanitySet → (∀ c ∈ w, c.isLower = true) →
      Disguises w v → Alone before after → text.toList = before ++ (v ++ after) →
      ∀ k, before.length ≤ k → k < before.length + v.length →
        (Re.maskProfanity profanitySet text).1.toList[k]? = some MASK_CHAR := by
  intro hall
  have hletters : ∀ c ∈ "idiot".toList, c.isLower = true := List.all_eq_true.mp (by decide)
  have hfirst := hall ["idiot"] "idiot".toList "!diot".toList [] [] "!diot" (by decide) hletters
    disguises_idiot ⟨by simp, by simp⟩ (by decide) 0 (Nat.le_refl 0) (by decide)
  rw [← maskProfanity_eq_re] at hfirst
  exact absurd hfirst (by decide)

end Parrot
