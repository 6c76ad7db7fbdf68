import Purrlington.Lib.Regex
import Purrlington.Parrot.Profanity

/-!
# Parrot: what the profanity filter masks and reports

The filter as the source has it, over the matches of its token expression, and what it does to a text.

* `tokenRe`, `Re.maskProfanity`, `Re.findProfaneWords`   the filter by its expression;
* `Token`, `InProfane`     the maximal runs with a letter, and the places in profane ones;
* `mem_finditer`           the matches are the tokens;
* `getElem?_masked`        what is masked, place by place;
* `matches_masked`         what a masked text still matches;
* `masked_and_reported`    a text is masked exactly where it is profane, and once.
-/

namespace Parrot

open Regex Runs

def tokenRe : Pattern Char := withLetter tokenChar Char.isAlpha

theorem tokenChar_of_isAlpha (c : Char) (h : c.isAlpha = true) : tokenChar c = true := by
  rw [tokenChar, h]
  exact Bool.true_or _

theorem tokenChar_mask : tokenChar MASK_CHAR = false := by decide

section
variable (profanitySet : List String)

/-- `_replace`, with the flag it sets -/
def Re.replace (masked : Bool) (token : List Char) : List Char × Bool :=
  if isProfane profanitySet token then (List.replicate token.length MASK_CHAR, true)
  else (token, masked)

def Re.maskProfanity (text : String) : String × Bool :=
  if text = "" ∨ profanitySet = [] then (text, false)
  else
    let (result, masked) := sub tokenRe (Re.replace profanitySet) false text.toList
    (String.ofList result, masked)

def Re.findProfaneWords (text : String) : List String :=
  if text = "" ∨ profanitySet = [] then []
  else ((finditer tokenRe text.toList).filter fun m => isProfane profanitySet m.2).map fun m =>
    String.ofList (normalise (stripEdge m.2))

/-- a token of the text, `i` characters into it -/
structure Token (text : List Char) (i : Nat) (token : List Char) : Prop where
  maximal : Maximal tokenChar text i token
  letter : isToken token = true

/-- the character at `k` is one of a profane token -/
def InProfane (text : List Char) (k : Nat) : Prop :=
  ∃ i token, Token text i token ∧ isProfane profanitySet token = true ∧ i ≤ k ∧
    k < i + token.length

/-- a run, masked if it is profane -/
def maskRun (run : List Char) : List Char :=
  if profaneRun profanitySet run then List.replicate run.length MASK_CHAR else run

def masked (text : List Char) : List Char := (textRuns text).flatMap (maskRun profanitySet)

end

/-! ### a text by its first run -/

section
variable {profanitySet : List String} {b : Bool} {run rest : List Char}

theorem isToken_of_leads_false (h : Leads tokenChar false run rest) : isToken run = false := by
  refine List.any_eq_false.mpr fun c hc halpha => ?_
  have hnot := h.uniform c hc
  rw [tokenChar_of_isAlpha c halpha] at hnot
  exact absurd hnot (by decide)

theorem eq_true_of_isToken (h : Leads tokenChar b run rest) (htok : isToken run = true) : b = true := by
  cases b with
  | true => rfl
  | false =>
    rw [isToken_of_leads_false h] at htok
    exact htok

theorem textRuns_append (hne : run ≠ []) (h : Leads tokenChar b run rest) :
    textRuns (run ++ rest) = run :: textRuns rest := splitBy_append hne h

theorem pieces_append (h : Leads tokenChar b run rest) :
    pieces tokenRe (run ++ rest) =
      (if isToken run then [.matched run] else run.map .skipped) ++ pieces tokenRe rest := by
  cases b with
  | true => exact pieces_leads tokenChar_of_isAlpha h
  | false =>
    rw [isToken_of_leads_false h]
    exact pieces_outside tokenChar_of_isAlpha h.uniform rest

theorem token_append (hne : run ≠ []) (h : Leads tokenChar b run rest) (i : Nat)
    (token : List Char) :
    Token (run ++ rest) i token ↔
      (isToken run = true ∧ i = 0 ∧ token = run) ∨
        ∃ j, i = run.length + j ∧ Token rest j token := by
  constructor
  · rintro ⟨hmax, hletter⟩
    rcases (maximal_append hne h i token).mp hmax with ⟨-, hi, rfl⟩ | ⟨j, hj, hrest⟩
    · exact .inl ⟨hletter, hi, rfl⟩
    · exact .inr ⟨j, hj, hrest, hletter⟩
  · rintro (⟨htok, hi, rfl⟩ | ⟨j, hj, hrest⟩)
    · exact ⟨(maximal_append hne h i token).mpr (.inl ⟨eq_true_of_isToken h htok, hi, rfl⟩), htok⟩
    · exact ⟨(maximal_append hne h i token).mpr (.inr ⟨j, hj, hrest.maximal⟩), hrest.letter⟩

theorem inProfane_append (hne : run ≠ []) (h : Leads tokenChar b run rest) (k : Nat) :
    InProfane profanitySet (run ++ rest) k ↔
      (profaneRun profanitySet run = true ∧ k < run.length) ∨
        (run.length ≤ k ∧ InProfane profanitySet rest (k - run.length)) := by
  constructor
  · rintro ⟨i, token, htoken, hprof, hle, hlt⟩
    rcases (token_append hne h i token).mp htoken with ⟨htok, rfl, rfl⟩ | ⟨j, rfl, hrest⟩
    · exact .inl ⟨Bool.and_eq_true_iff.mpr ⟨htok, hprof⟩, by omega⟩
    · exact .inr ⟨by omega, j, token, hrest, hprof, by omega, by omega⟩
  · rintro (⟨hrun, hlt⟩ | ⟨hle, j, token, hrest, hprof, hj, hlt⟩)
    · obtain ⟨htok, hprof⟩ := Bool.and_eq_true_iff.mp hrun
      exact ⟨0, run, (token_append hne h 0 run).mpr (.inl ⟨htok, rfl, rfl⟩), hprof, Nat.zero_le k,
        by omega⟩
    · exact ⟨run.length + j, token, (token_append hne h _ token).mpr (.inr ⟨j, rfl, hrest⟩), hprof,
        by omega, by omega⟩

theorem masked_append (hne : run ≠ []) (h : Leads tokenChar b run rest) :
    masked profanitySet (run ++ rest) = maskRun profanitySet run ++ masked profanitySet rest := by
  rw [masked, textRuns_append hne h, List.flatMap_cons, masked]

@[simp] theorem length_maskRun (run : List Char) :
    (maskRun profanitySet run).length = run.length := by
  rw [maskRun]
  split
  · exact List.length_replicate
  · rfl

/-! ### the scan, the replacement and the runs -/

theorem matchesFrom_skipped (i : Nat) (run : List Char) (ps : List (Piece Char)) :
    matchesFrom i (run.map .skipped ++ ps) = matchesFrom (i + run.length) ps := by
  induction run generalizing i with
  | nil => rfl
  | cons c t ih =>
    rw [List.map_cons, List.cons_append, matchesFrom, ih, List.length_cons]
    congr 1
    omega

theorem matchesFrom_append (i : Nat) (h : Leads tokenChar b run rest) :
    matchesFrom i (pieces tokenRe (run ++ rest)) =
      (if isToken run then [(i, run)] else []) ++
        matchesFrom (i + run.length) (pieces tokenRe rest) := by
  rw [pieces_append h]
  cases isToken run with
  | true => rfl
  | false => exact matchesFrom_skipped i run _

theorem replaceFrom_skipped {σ : Type} (f : σ → List Char → List Char × σ) (s : σ)
    (run : List Char) (ps : List (Piece Char)) :
    replaceFrom f s (run.map .skipped ++ ps) =
      (run ++ (replaceFrom f s ps).1, (replaceFrom f s ps).2) := by
  induction run with
  | nil => rfl
  | cons c t ih =>
    rw [List.map_cons, List.cons_append, replaceFrom, ih]
    rfl

theorem replaceFrom_pieces (flag : Bool) (text : List Char) :
    replaceFrom (Re.replace profanitySet) flag (pieces tokenRe text) =
      (masked profanitySet text, flag || (textRuns text).any (profaneRun profanitySet)) := by
  induction text using Runs.induction tokenChar generalizing flag with
  | nil =>
    rw [pieces_nil, replaceFrom, textRuns, List.splitBy_nil, List.any_nil, Bool.or_false]
    rfl
  | append b run rest hne h ih =>
    rw [pieces_append h, masked_append hne h, textRuns_append hne h, List.any_cons, maskRun,
      profaneRun]
    cases htok : isToken run with
    | false =>
      simp only [Bool.false_eq_true, if_false, Bool.false_and, Bool.false_or]
      rw [replaceFrom_skipped, ih]
    | true =>
      simp only [if_true, List.cons_append, List.nil_append, Bool.true_and]
      rw [replaceFrom, Re.replace]
      cases hprof : isProfane profanitySet run with
      | true =>
        simp only [if_true]
        rw [ih, Bool.true_or, Bool.or_true]
      | false =>
        simp only [Bool.false_eq_true, if_false, Bool.false_or]
        rw [ih]

theorem finditer_eq (i : Nat) (text : List Char) :
    (matchesFrom i (pieces tokenRe text)).map Prod.snd = (textRuns text).filter isToken := by
  induction text using Runs.induction tokenChar generalizing i with
  | nil => rfl
  | append b run rest hne h ih =>
    rw [matchesFrom_append i h, textRuns_append hne h, List.map_append, ih, List.filter_cons]
    cases isToken run with
    | true => rfl
    | false => rfl

theorem mem_matchesFrom (k : Nat) (text : List Char) (i : Nat) (token : List Char) :
    (i, token) ∈ matchesFrom k (pieces tokenRe text) ↔ ∃ j, i = k + j ∧ Token text j token := by
  induction text using Runs.induction tokenChar generalizing k with
  | nil =>
    refine iff_of_false List.not_mem_nil ?_
    rintro ⟨j, -, htoken⟩
    exact not_maximal_nil htoken.maximal
  | append b run rest hne h ih =>
    have hhead : (i, token) ∈ (if isToken run then [(k, run)] else []) ↔
        isToken run = true ∧ i = k ∧ token = run := by
      cases isToken run with
      | true => simp
      | false => simp
    rw [matchesFrom_append k h, List.mem_append, hhead, ih]
    constructor
    · rintro (⟨htok, rfl, rfl⟩ | ⟨j, rfl, hrest⟩)
      · exact ⟨0, rfl, (token_append hne h 0 token).mpr (.inl ⟨htok, rfl, rfl⟩)⟩
      · exact ⟨run.length + j, by omega, (token_append hne h _ token).mpr (.inr ⟨j, rfl, hrest⟩)⟩
    · rintro ⟨j, rfl, htoken⟩
      rcases (token_append hne h j token).mp htoken with ⟨htok, rfl, rfl⟩ | ⟨j', rfl, hrest⟩
      · exact .inl ⟨htok, rfl, rfl⟩
      · exact .inr ⟨j', by omega, hrest⟩

/-- **The matches of the token expression are the tokens of the text.** -/
theorem mem_finditer (text : List Char) (i : Nat) (token : List Char) :
    (i, token) ∈ finditer tokenRe text ↔ Token text i token := by
  rw [finditer, mem_matchesFrom]
  constructor
  · rintro ⟨j, hj, htoken⟩
    rw [hj, Nat.zero_add]
    exact htoken
  · intro htoken
    exact ⟨i, (Nat.zero_add i).symm, htoken⟩

theorem matchesFrom_sorted (k : Nat) (text : List Char) :
    (matchesFrom k (pieces tokenRe text)).Pairwise fun m m' => m.1 < m'.1 := by
  induction text using Runs.induction tokenChar generalizing k with
  | nil => exact List.Pairwise.nil
  | append b run rest hne h ih =>
    rw [matchesFrom_append k h]
    cases isToken run with
    | false => exact ih _
    | true =>
      refine List.pairwise_cons.mpr ⟨fun m hm => ?_, ih _⟩
      obtain ⟨j, hj, -⟩ := (mem_matchesFrom _ rest m.1 m.2).mp hm
      have hpos := List.length_pos_of_ne_nil hne
      show k < m.1
      omega

/-! ### what is masked -/

theorem getElem?_masked (profanitySet : List String) (text : List Char) (k : Nat) :
    (InProfane profanitySet text k → (masked profanitySet text)[k]? = some MASK_CHAR) ∧
      (¬ InProfane profanitySet text k → (masked profanitySet text)[k]? = text[k]?) := by
  induction text using Runs.induction tokenChar generalizing k with
  | nil =>
    refine ⟨?_, fun _ => rfl⟩
    rintro ⟨i, token, htoken, -⟩
    exact absurd htoken.maximal not_maximal_nil
  | append b run rest hne h ih =>
    rw [masked_append hne h, inProfane_append hne h]
    by_cases hlt : k < run.length
    · rw [List.getElem?_append_left (by rw [length_maskRun]; exact hlt),
        List.getElem?_append_left hlt, maskRun]
      cases hprof : profaneRun profanitySet run with
      | true =>
        refine ⟨fun _ => ?_, fun hnot => absurd (.inl ⟨rfl, hlt⟩) hnot⟩
        rw [if_pos rfl, List.getElem?_replicate, if_pos hlt]
      | false =>
        refine ⟨?_, fun _ => rfl⟩
        rintro (⟨hfalse, -⟩ | ⟨hle, -⟩)
        · exact absurd hfalse Bool.false_ne_true
        · exact absurd hlt (Nat.not_lt.mpr hle)
    · have hle : run.length ≤ k := Nat.not_lt.mp hlt
      rw [List.getElem?_append_right (by rw [length_maskRun]; exact hle),
        List.getElem?_append_right hle, length_maskRun]
      refine ⟨?_, fun hnot => (ih _).2 fun hin => hnot (.inr ⟨hle, hin⟩)⟩
      rintro (⟨-, hlt'⟩ | ⟨-, hin⟩)
      · exact absurd hlt' hlt
      · exact (ih _).1 hin

theorem length_masked (text : List Char) : (masked profanitySet text).length = text.length := by
  induction text using Runs.induction tokenChar with
  | nil => rfl
  | append b run rest hne h ih =>
    rw [masked_append hne h, List.length_append, List.length_append, length_maskRun, ih]

theorem head?_masked (h : ∀ c ∈ rest.head?, tokenChar c = false) :
    ∀ c ∈ (masked profanitySet rest).head?, tokenChar c = false := by
  intro c hc
  obtain ⟨hin, hout⟩ := getElem?_masked profanitySet rest 0
  rw [List.head?_eq_getElem?, Option.mem_def] at hc
  by_cases h0 : InProfane profanitySet rest 0
  · rw [hin h0] at hc
    rw [← Option.some.inj hc]
    exact tokenChar_mask
  · rw [hout h0, ← List.head?_eq_getElem?] at hc
    exact h c hc

/-- a run stays a run when what follows it is masked -/
theorem matchesFrom_append_masked (i : Nat) (h : Leads tokenChar b run rest) :
    matchesFrom i (pieces tokenRe (run ++ masked profanitySet rest)) =
      (if isToken run then [(i, run)] else []) ++
        matchesFrom (i + run.length) (pieces tokenRe (masked profanitySet rest)) := by
  cases b with
  | true =>
    have hrest : ∀ c ∈ rest.head?, tokenChar c = false := fun c hc =>
      Bool.eq_false_iff.mpr (h.ends c hc)
    have hends : ∀ c ∈ (masked profanitySet rest).head?, tokenChar c ≠ true := fun c hc =>
      Bool.eq_false_iff.mp (head?_masked hrest c hc)
    exact matchesFrom_append i ⟨h.uniform, hends⟩
  | false =>
    rw [isToken_of_leads_false h, tokenRe, pieces_outside tokenChar_of_isAlpha h.uniform,
      matchesFrom_skipped]
    rfl

/-- **A masked text matches what the text matches, less what is profane.** -/
theorem matches_masked (i : Nat) (text : List Char) :
    matchesFrom i (pieces tokenRe (masked profanitySet text)) =
      (matchesFrom i (pieces tokenRe text)).filter fun m => !isProfane profanitySet m.2 := by
  induction text using Runs.induction tokenChar generalizing i with
  | nil => rfl
  | append b run rest hne h ih =>
    rw [matchesFrom_append i h, List.filter_append, ← ih, masked_append hne h, maskRun, profaneRun]
    cases htok : isToken run && isProfane profanitySet run with
    | true =>
      obtain ⟨htok, hprof⟩ := Bool.and_eq_true_iff.mp htok
      have hmask : ∀ c ∈ List.replicate run.length MASK_CHAR, tokenChar c = false := by
        intro c hc
        rw [List.eq_of_mem_replicate hc]
        exact tokenChar_mask
      rw [if_pos rfl, tokenRe, pieces_outside tokenChar_of_isAlpha hmask, matchesFrom_skipped,
        List.length_replicate, htok]
      simp [hprof]
    | false =>
      rw [if_neg Bool.false_ne_true, matchesFrom_append_masked i h]
      cases hletter : isToken run with
      | false => rfl
      | true =>
        rw [hletter, Bool.true_and] at htok
        simp [htok]

end

/-! ### the filter -/

section
variable (profanitySet : List String)

theorem isProfane_nil (token : List Char) : isProfane [] token = false := by
  rw [isProfane, Bool.and_eq_false_iff]
  exact .inr (decide_eq_false List.not_mem_nil)

/-- the early return leaves out nothing: there is no profane run then -/
theorem profaneRun_of_guard {text : String} (h : text = "" ∨ profanitySet = []) :
    ∀ run ∈ textRuns text.toList, profaneRun profanitySet run = false := by
  intro run hrun
  rcases h with rfl | rfl
  · exact absurd hrun List.not_mem_nil
  · rw [profaneRun, isProfane_nil, Bool.and_false]

theorem masked_of_not_profane {text : List Char}
    (h : ∀ run ∈ textRuns text, profaneRun profanitySet run = false) :
    masked profanitySet text = text := by
  have hrun : ∀ run ∈ textRuns text, maskRun profanitySet run = run := by
    intro run hrun
    rw [maskRun, h run hrun]
    rfl
  rw [masked, List.flatMap_def, List.map_congr_left hrun, List.map_id', textRuns,
    List.flatten_splitBy]

theorem Re.maskProfanity_eq (text : String) :
    Re.maskProfanity profanitySet text =
      (String.ofList (masked profanitySet text.toList),
        (textRuns text.toList).any (profaneRun profanitySet)) := by
  rw [Re.maskProfanity]
  split
  · rename_i hguard
    have hnone := profaneRun_of_guard profanitySet hguard
    rw [masked_of_not_profane profanitySet hnone, String.ofList_toList, List.any_eq_false.mpr]
    intro run hrun
    rw [hnone run hrun]
    exact Bool.false_ne_true
  · rw [sub, replaceFrom_pieces, Bool.false_or]

theorem Re.findProfaneWords_eq (text : String) :
    Re.findProfaneWords profanitySet text =
      ((finditer tokenRe text.toList).filter fun m => isProfane profanitySet m.2).map fun m =>
        String.ofList (normalise (stripEdge m.2)) := by
  rw [Re.findProfaneWords]
  split
  · rename_i hguard
    rcases hguard with rfl | rfl
    · rfl
    · rw [List.filter_eq_nil_iff.mpr, List.map_nil]
      intro m _
      rw [isProfane_nil]
      exact Bool.false_ne_true
  · rfl

/-- **The expression and the runs of the text give the same filter.** -/
theorem maskProfanity_eq_re : maskProfanity profanitySet = Re.maskProfanity profanitySet := by
  funext text
  by_cases hguard : text = "" ∨ profanitySet = []
  · rw [maskProfanity, if_pos hguard, Re.maskProfanity, if_pos hguard]
  · rw [Re.maskProfanity_eq, maskProfanity, if_neg hguard]
    rfl

theorem filter_profaneRun (text : List Char) :
    (textRuns text).filter (profaneRun profanitySet) =
      ((finditer tokenRe text).filter fun m => isProfane profanitySet m.2).map Prod.snd := by
  have hruns : (textRuns text).filter (profaneRun profanitySet) =
      ((textRuns text).filter isToken).filter (isProfane profanitySet) := by
    rw [List.filter_filter]
    exact List.filter_congr fun run _ => Bool.and_comm _ _
  rw [hruns, ← finditer_eq 0, List.filter_map]
  rfl

theorem findProfaneWords_eq_re :
    findProfaneWords profanitySet = Re.findProfaneWords profanitySet := by
  funext text
  by_cases hguard : text = "" ∨ profanitySet = []
  · rw [findProfaneWords, if_pos hguard, Re.findProfaneWords, if_pos hguard]
  · rw [Re.findProfaneWords_eq, findProfaneWords, if_neg hguard, filter_profaneRun, List.map_map]
    rfl

theorem any_profaneRun_iff (text : String) :
    (textRuns text.toList).any (profaneRun profanitySet) = true ↔
      Re.findProfaneWords profanitySet text ≠ [] := by
  rw [Re.findProfaneWords_eq, Ne, List.map_eq_nil_iff, ← List.map_eq_nil_iff (f := Prod.snd),
    ← filter_profaneRun, List.filter_eq_nil_iff, List.any_eq_true]
  push Not
  rfl

theorem mem_of_isProfane {token : List Char} (h : isProfane profanitySet token = true) :
    String.ofList (normalise (stripEdge token)) ∈ profanitySet :=
  of_decide_eq_true (Bool.and_eq_true_iff.mp h).2

theorem findProfaneWords_masked (text : String) :
    Re.findProfaneWords profanitySet (Re.maskProfanity profanitySet text).1 = [] := by
  rw [Re.findProfaneWords_eq, Re.maskProfanity_eq, String.toList_ofList, finditer, matches_masked,
    List.map_eq_nil_iff, List.filter_eq_nil_iff]
  intro m hm hprof
  have hnot := (List.mem_filter.mp hm).2
  rw [hprof] at hnot
  exact absurd hnot (by decide)

theorem maskProfanity_of_no_word {text : String} (h : Re.findProfaneWords profanitySet text = []) :
    Re.maskProfanity profanitySet text = (text, false) := by
  have hany : (textRuns text.toList).any (profaneRun profanitySet) = false :=
    Bool.eq_false_iff.mpr fun hany => (any_profaneRun_iff profanitySet text).mp hany h
  rw [Re.maskProfanity_eq, hany, masked_of_not_profane, String.ofList_toList]
  intro run hrun
  exact Bool.eq_false_iff.mpr (List.any_eq_false.mp hany run hrun)

/-- **The filter masks the profane tokens of a text and nothing else**, reports one word of the stop
list for each, and finds nothing in what it has masked. -/
theorem masked_and_reported (text : String) :
    ∃ tokens : List (Nat × List Char),
      (∀ i token, (i, token) ∈ tokens ↔
        Token text.toList i token ∧ isProfane profanitySet token = true) ∧
      (tokens.Pairwise fun m m' => m.1 < m'.1) ∧
      (Re.maskProfanity profanitySet text).1.length = text.length ∧
      (∀ k, ((∃ m ∈ tokens, m.1 ≤ k ∧ k < m.1 + m.2.length) →
          (Re.maskProfanity profanitySet text).1.toList[k]? = some MASK_CHAR) ∧
        ((¬ ∃ m ∈ tokens, m.1 ≤ k ∧ k < m.1 + m.2.length) →
          (Re.maskProfanity profanitySet text).1.toList[k]? = text.toList[k]?)) ∧
      ((Re.maskProfanity profanitySet text).2 = true ↔
        Re.findProfaneWords profanitySet text ≠ []) ∧
      (Re.findProfaneWords profanitySet text =
        tokens.map fun m => String.ofList (normalise (stripEdge m.2))) ∧
      (∀ word ∈ Re.findProfaneWords profanitySet text, word ∈ profanitySet) ∧
      Re.findProfaneWords profanitySet (Re.maskProfanity profanitySet text).1 = [] ∧
      Re.maskProfanity profanitySet (Re.maskProfanity profanitySet text).1 =
        ((Re.maskProfanity profanitySet text).1, false) := by
  have hmasked : (Re.maskProfanity profanitySet text).1.toList = masked profanitySet text.toList := by
    rw [Re.maskProfanity_eq, String.toList_ofList]
  have hwords := Re.findProfaneWords_eq profanitySet text
  have hnone := findProfaneWords_masked profanitySet text
  have hmem : ∀ i token, (i, token) ∈ (finditer tokenRe text.toList).filter
      (fun m => isProfane profanitySet m.2) ↔
        Token text.toList i token ∧ isProfane profanitySet token = true := by
    intro i token
    rw [List.mem_filter, mem_finditer]
  have hin : ∀ k, (∃ m ∈ (finditer tokenRe text.toList).filter (fun m => isProfane profanitySet m.2),
      m.1 ≤ k ∧ k < m.1 + m.2.length) ↔ InProfane profanitySet text.toList k := by
    intro k
    constructor
    · rintro ⟨m, hm, hle, hlt⟩
      obtain ⟨htoken, hprof⟩ := (hmem m.1 m.2).mp hm
      exact ⟨m.1, m.2, htoken, hprof, hle, hlt⟩
    · rintro ⟨i, token, htoken, hprof, hle, hlt⟩
      exact ⟨(i, token), (hmem i token).mpr ⟨htoken, hprof⟩, hle, hlt⟩
  refine ⟨_, hmem, (matchesFrom_sorted 0 text.toList).filter _, ?_, fun k => ?_, ?_, hwords, ?_, hnone,
    maskProfanity_of_no_word profanitySet hnone⟩
  · rw [← String.length_toList, hmasked, length_masked, String.length_toList]
  · rw [hin, hmasked]
    exact getElem?_masked profanitySet text.toList k
  · rw [Re.maskProfanity_eq]
    exact any_profaneRun_iff profanitySet text
  · intro word hword
    rw [hwords] at hword
    obtain ⟨m, hm, rfl⟩ := List.mem_map.mp hword
    exact mem_of_isProfane profanitySet (List.mem_filter.mp hm).2

end

end Parrot
