import Purrlington.Lib.Framing
import Mathlib.Data.List.SplitBy
import Mathlib.Tactic.Common

/-!
# Parrot: the profanity filter

A text is cut into its maximal runs of letters and leetspeak symbols and what lies between them; a
run with a letter in it is a token, and a token on the stop list is masked.

* `maskProfanity`, `findProfaneWords`   the text with its profane words masked, and these words;
* `length_maskProfanity`   a masked text is as long as the text;
* `findProfaneWords_ne_nil`   a text that was masked has such a word.
-/

set_option linter.unusedSectionVars false

namespace Parrot

def MASK_CHAR : Char := '*'

def LEET_MAP : List (Char × Char) :=
  [('$', 's'), ('@', 'a'), ('0', 'o'), ('1', 'i'), ('!', 'i'), ('3', 'e'), ('4', 'a'), ('5', 's'),
   ('7', 't'), ('8', 'b'), ('9', 'g')]

/-- a letter or a leetspeak symbol -/
def tokenChar (c : Char) : Bool := c.isAlpha || (LEET_MAP.lookup c).isSome

/-- the maximal runs of token characters, and of others -/
def textRuns (text : List Char) : List (List Char) :=
  text.splitBy fun a b => tokenChar a == tokenChar b

/-- `_TOKEN_RE` matches a run of token characters that has a letter, from its first character on -/
def isToken (run : List Char) : Bool := run.any Char.isAlpha

def normalise (token : List Char) : List Char :=
  (token.map Char.toLower).map fun ch => (LEET_MAP.lookup ch).getD ch

/-- `strip(_EDGE_PUNCTUATION)` -/
def stripEdge (token : List Char) : List Char := Framing.strip (· == '!') token

section
variable (profanitySet : List String)

def isProfane (token : List Char) : Bool :=
  let stripped := stripEdge token
  !stripped.isEmpty && String.ofList (normalise stripped) ∈ profanitySet

/-- a match of the token expression that is on the stop list -/
def profaneRun (run : List Char) : Bool := isToken run && isProfane profanitySet run

/-- `mask_profanity`: the text, and whether anything was masked -/
def maskProfanity (text : String) : String × Bool :=
  if text = "" ∨ profanitySet = [] then (text, false)
  else
    let runs := textRuns text.toList
    (String.ofList (runs.flatMap fun run =>
        if profaneRun profanitySet run then List.replicate run.length MASK_CHAR else run),
      runs.any (profaneRun profanitySet))

def findProfaneWords (text : String) : List String :=
  if text = "" ∨ profanitySet = [] then []
  else ((textRuns text.toList).filter (profaneRun profanitySet)).map fun run =>
    String.ofList (normalise (stripEdge run))

/-- **The mask keeps the length of the text.** -/
theorem length_maskProfanity (text : String) :
    (maskProfanity profanitySet text).1.length = text.length := by
  rw [maskProfanity]
  split
  · rfl
  · show (String.ofList _).length = _
    rw [String.length_ofList, List.length_flatMap]
    have hlen : ((textRuns text.toList).map fun run => (if profaneRun profanitySet run then
        List.replicate run.length MASK_CHAR else run).length) =
        (textRuns text.toList).map List.length := by
      apply List.map_congr_left
      intro run _
      split
      · exact List.length_replicate
      · rfl
    rw [hlen, ← List.length_flatten, textRuns, List.flatten_splitBy, String.length_toList]

/-- **A text that was masked has a word to report**, and is not empty. -/
theorem findProfaneWords_ne_nil {text : String} (h : (maskProfanity profanitySet text).2 = true) :
    text ≠ "" ∧ findProfaneWords profanitySet text ≠ [] := by
  rw [maskProfanity] at h
  split at h
  · exact absurd h (by simp)
  · rename_i hne
    refine ⟨fun e => hne (.inl e), ?_⟩
    obtain ⟨run, hrun, hp⟩ := List.any_eq_true.mp h
    rw [findProfaneWords, if_neg hne]
    apply List.ne_nil_of_mem
    exact List.mem_map_of_mem (List.mem_filter.mpr ⟨hrun, hp⟩)

end

example : maskProfanity ["ass"] "a$$! passport" = ("**** passport", true) := by decide

end Parrot
