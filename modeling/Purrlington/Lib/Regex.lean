import Purrlington.Lib.Runs

/-!
# Regular expressions with a lookahead, by backtracking

The fragment has character classes, sequences, greedy repetition and lookahead; `rests` lists what may be
left of a text after a match at its beginning, in the order in which the engine tries.

* `matchAt r text`         what is left after the match the engine reports;
* `pieces r text`          a scan of the text: what was matched, and what was passed over;
* `finditer`, `sub`        the matches of a scan, and the text with each of them replaced;
* `withLetter C L`         a run of `C` with an `L` in it;
* `pieces_leads`           its scan of a text whose first run is known.
-/

namespace Regex

open Runs

variable {α : Type*}

inductive Pattern (α : Type*) where
  | char (C : α → Bool)
  | seq (r s : Pattern α)
  | star (r : Pattern α)
  | ahead (r : Pattern α)

/-- the greedy repetition of a match, at most `n` times -/
def starRests (m : List α → List (List α)) : Nat → List α → List (List α)
  | 0, text => [text]
  | n + 1, text =>
    ((m text).filter fun rest => rest.length < text.length).flatMap (starRests m n) ++ [text]

def rests : Pattern α → List α → List (List α)
  | .char C, text =>
    match text with
    | c :: t => if C c then [t] else []
    | [] => []
  | .seq r s, text => (rests r text).flatMap (rests s)
  | .star r, text => starRests (rests r) text.length text
  | .ahead r, text => if (rests r text).isEmpty then [] else [text]

/-- one repetition or more -/
def Pattern.plus (r : Pattern α) : Pattern α := .seq r (.star r)

/-- the first match at the beginning of the text, by what it leaves; an empty match is none -/
def matchAt (r : Pattern α) (text : List α) : Option (List α) :=
  (rests r text).head?.filter fun rest => rest.length < text.length

inductive Piece (α : Type*) where
  | matched (group : List α)
  | skipped (c : α)

def scan (r : Pattern α) : Nat → List α → List (Piece α)
  | 0, _ => []
  | n + 1, text =>
    match matchAt r text with
    | some rest => .matched (text.take (text.length - rest.length)) :: scan r n rest
    | none =>
      match text with
      | c :: t => .skipped c :: scan r n t
      | [] => []

def pieces (r : Pattern α) (text : List α) : List (Piece α) := scan r text.length text

/-- the matches, each with its place -/
def matchesFrom : Nat → List (Piece α) → List (Nat × List α)
  | _, [] => []
  | i, .matched group :: ps => (i, group) :: matchesFrom (i + group.length) ps
  | i, .skipped _ :: ps => matchesFrom (i + 1) ps

def finditer (r : Pattern α) (text : List α) : List (Nat × List α) := matchesFrom 0 (pieces r text)

/-- the text put together again, each match by a callback that keeps a state -/
def replaceFrom {σ : Type*} (f : σ → List α → List α × σ) : σ → List (Piece α) → List α × σ
  | s, [] => ([], s)
  | s, .matched group :: ps =>
    let (new, s') := f s group
    let (out, s'') := replaceFrom f s' ps
    (new ++ out, s'')
  | s, .skipped c :: ps =>
    let (out, s') := replaceFrom f s ps
    (c :: out, s')

def sub {σ : Type*} (r : Pattern α) (f : σ → List α → List α × σ) (s : σ) (text : List α) :
    List α × σ :=
  replaceFrom f s (pieces r text)

/-! ### a scan, step by step -/

section
variable {r : Pattern α}

theorem length_lt_of_matchAt {text rest : List α} (h : matchAt r text = some rest) :
    rest.length < text.length := by
  have hlt := (Option.filter_eq_some_iff.mp h).2
  exact of_decide_eq_true hlt

theorem matchAt_nil : matchAt r ([] : List α) = none :=
  Option.eq_none_iff_forall_ne_some.mpr fun _ h => absurd (length_lt_of_matchAt h) (Nat.not_lt_zero _)

theorem scan_of_le {n : Nat} {text : List α} (h : text.length ≤ n) : scan r n text = pieces r text := by
  induction n using Nat.strong_induction_on generalizing text with
  | h n ih =>
    cases text with
    | nil =>
      cases n with
      | zero => rfl
      | succ n =>
        rw [scan, matchAt_nil]
        rfl
    | cons c t =>
      cases n with
      | zero => exact absurd h (Nat.not_succ_le_zero _)
      | succ n =>
        have ht : t.length ≤ n := Nat.le_of_succ_le_succ h
        rw [pieces, List.length_cons, scan, scan]
        cases hm : matchAt r (c :: t) with
        | none =>
          show Piece.skipped c :: scan r n t = Piece.skipped c :: scan r t.length t
          rw [ih n n.lt_succ_self ht, pieces]
        | some rest =>
          have hlt := length_lt_of_matchAt hm
          rw [List.length_cons] at hlt
          show Piece.matched _ :: scan r n rest = Piece.matched _ :: scan r t.length rest
          rw [ih n n.lt_succ_self (by omega), ih t.length (by omega) (by omega)]

@[simp] theorem pieces_nil : pieces r [] = [] := rfl

theorem pieces_cons_of_none {c : α} {t : List α} (h : matchAt r (c :: t) = none) :
    pieces r (c :: t) = .skipped c :: pieces r t := by
  rw [pieces, List.length_cons, scan, h]
  rfl

theorem pieces_of_match {run rest : List α} (h : matchAt r (run ++ rest) = some rest) :
    pieces r (run ++ rest) = .matched run :: pieces r rest := by
  have hlt := length_lt_of_matchAt h
  have hrun : (run ++ rest).take ((run ++ rest).length - rest.length) = run := by
    rw [List.length_append, Nat.add_sub_cancel, List.take_left']
    rfl
  obtain ⟨n, hn⟩ := Nat.exists_eq_add_one_of_ne_zero (Nat.ne_zero_of_lt hlt)
  rw [hn] at hlt
  have hle : rest.length ≤ n := Nat.le_of_lt_add_one hlt
  rw [pieces, hn, scan.eq_def]
  simp only [h]
  rw [hrun, scan_of_le hle]

end

/-! ### repetition of a character class -/

section
variable {C L : α → Bool}

theorem rests_star_char_cons (C : α → Bool) (c : α) (t : List α) :
    rests (.star (.char C)) (c :: t) =
      if C c then rests (.star (.char C)) t ++ [c :: t] else [c :: t] := by
  rw [rests, List.length_cons, starRests]
  cases hc : C c with
  | true =>
    have hstep : rests (.char C) (c :: t) = [t] := by rw [rests, if_pos hc]
    rw [hstep, List.filter_cons_of_pos (by simp), List.filter_nil, List.flatMap_singleton]
    rfl
  | false =>
    have hstep : rests (.char C) (c :: t) = [] := by
      rw [rests, if_neg (Bool.eq_false_iff.mp hc)]
    rw [hstep]
    rfl

/-- greedy: the whole run is tried first -/
theorem head?_rests_star_char (C : α → Bool) (text : List α) :
    (rests (.star (.char C)) text).head? = some (text.dropWhile C) := by
  induction text with
  | nil => rfl
  | cons c t ih =>
    rw [rests_star_char_cons]
    cases hc : C c with
    | true => rw [if_pos rfl, List.head?_append, ih, List.dropWhile_cons_of_pos hc, Option.some_or]
    | false =>
      rw [if_neg Bool.false_ne_true, List.dropWhile_cons_of_neg (Bool.eq_false_iff.mp hc)]
      rfl

/-- with backtracking: some letter of the run is an `L` -/
theorem rests_star_then_letter (hL : ∀ c, L c = true → C c = true) (text : List α) :
    rests (.seq (.star (.char C)) (.char L)) text = [] ↔ (text.takeWhile C).any L = false := by
  induction text with
  | nil => exact iff_of_true rfl rfl
  | cons c t ih =>
    rw [rests] at ih
    rw [rests, rests_star_char_cons]
    cases hc : C c with
    | true =>
      have hhere : rests (.char L) (c :: t) = [] ↔ L c = false := by
        rw [rests]
        cases L c with
        | true => simp
        | false => simp
      rw [if_pos rfl, List.flatMap_append, List.append_eq_nil_iff, ih, List.flatMap_singleton, hhere,
        List.takeWhile_cons_of_pos hc, List.any_cons, Bool.or_eq_false_iff, and_comm]
    | false =>
      have hnot : L c = false := Bool.eq_false_iff.mpr fun h => absurd (hL c h) (Bool.eq_false_iff.mp hc)
      rw [if_neg Bool.false_ne_true, List.takeWhile_cons_of_neg (Bool.eq_false_iff.mp hc),
        List.flatMap_singleton, rests, hnot]
      exact iff_of_true rfl rfl

end

/-! ### a run with a letter in it -/

section
variable {C L : α → Bool} {b : Bool} {run rest : List α}

/-- `(?=C*L)C+` -/
def withLetter (C L : α → Bool) : Pattern α :=
  .seq (.ahead (.seq (.star (.char C)) (.char L))) (.plus (.char C))

theorem matchAt_withLetter (hL : ∀ c, L c = true → C c = true) (text : List α) :
    matchAt (withLetter C L) text =
      if (text.takeWhile C).any L then some (text.dropWhile C) else none := by
  rw [matchAt, withLetter, rests, rests]
  cases hany : (text.takeWhile C).any L with
  | false =>
    rw [(rests_star_then_letter hL text).mpr hany]
    rfl
  | true =>
    have hahead : ¬ (rests (.seq (.star (.char C)) (.char L)) text).isEmpty = true := by
      rw [List.isEmpty_iff, rests_star_then_letter hL, hany]
      exact Bool.noConfusion
    rw [if_neg hahead, List.flatMap_singleton, if_pos rfl]
    cases text with
    | nil => exact absurd hany (by simp)
    | cons c t =>
      have hc : C c = true := by
        by_contra hc
        rw [List.takeWhile_cons_of_neg hc] at hany
        exact absurd hany (by simp)
      have hplus : rests (.plus (.char C)) (c :: t) = rests (.star (.char C)) t := by
        rw [Pattern.plus, rests, rests, if_pos hc, List.flatMap_singleton]
      have hlt : (t.dropWhile C).length < (c :: t).length := by
        rw [List.length_cons]
        exact Nat.lt_succ_of_le (List.dropWhile_suffix _).length_le
      rw [hplus, head?_rests_star_char, List.dropWhile_cons_of_pos hc]
      exact Option.filter_some_pos (decide_eq_true hlt)

theorem pieces_outside (hL : ∀ c, L c = true → C c = true) (h : ∀ c ∈ run, C c = false)
    (rest : List α) :
    pieces (withLetter C L) (run ++ rest) = run.map .skipped ++ pieces (withLetter C L) rest := by
  induction run with
  | nil => rfl
  | cons c t ih =>
    have hc : ¬ C c = true := Bool.eq_false_iff.mp (h c List.mem_cons_self)
    have hnone : matchAt (withLetter C L) (c :: (t ++ rest)) = none := by
      rw [matchAt_withLetter hL, List.takeWhile_cons_of_neg hc]
      rfl
    rw [List.cons_append, pieces_cons_of_none hnone, ih fun a ha => h a (List.mem_cons_of_mem c ha)]
    rfl

/-- a run of the class without an `L` is passed over, letter by letter -/
theorem pieces_letterless (hL : ∀ c, L c = true → C c = true) (h : Leads C true run rest)
    (hno : run.any L = false) :
    pieces (withLetter C L) (run ++ rest) = run.map .skipped ++ pieces (withLetter C L) rest := by
  induction run with
  | nil => rfl
  | cons c t ih =>
    have hnone : matchAt (withLetter C L) (c :: (t ++ rest)) = none := by
      rw [matchAt_withLetter hL, ← List.cons_append, takeWhile_of_leads h, hno]
      rfl
    rw [List.any_cons, Bool.or_eq_false_iff] at hno
    rw [List.cons_append, pieces_cons_of_none hnone, ih h.tail hno.2]
    rfl

/-- **The scan matches a whole run of the class, and only if it has an `L`.** -/
theorem pieces_leads (hL : ∀ c, L c = true → C c = true) (h : Leads C true run rest) :
    pieces (withLetter C L) (run ++ rest) =
      (if run.any L then [.matched run] else run.map .skipped) ++ pieces (withLetter C L) rest := by
  cases hany : run.any L with
  | true =>
    have hmatch : matchAt (withLetter C L) (run ++ rest) = some rest := by
      rw [matchAt_withLetter hL, takeWhile_of_leads h, dropWhile_of_leads h, hany]
      rfl
    rw [pieces_of_match hmatch]
    rfl
  | false =>
    rw [pieces_letterless hL h hany]
    rfl

end

end Regex
