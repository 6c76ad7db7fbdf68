import Purrlington.Gateway.Http
import Purrlington.Lib.Framing
import Purrlington.Lib.Percent

/-!
# Gateway: request targets

net/url keeps a path in two forms: decoded, and as it was sent where that is not the encoding it
would choose itself.  httputil's single-host director joins both to those of the target.

* `parseRequestURI`             a request target in origin form, as the server reads it;
* `URL.escapedPath`             the form that is sent on;
* `rewriteRequestURL`           what the director does to the URL;
* `readTarget`                  the decoded path and the query that a backend finds in a target;
* `readTarget_rewriteRequestURL`  through the director, the backend finds the decoded form `path`,
                                whatever `rawPath` is.
-/

set_option linter.unusedSectionVars false

namespace Gateway
open Framing Percent

/-- of the fields of `url.URL`, those that a request in origin form and a service URL can have -/
structure URL where
  scheme : String := ""
  host : String := ""
  path : Bytes := []
  rawPath : Bytes := []
  forceQuery : Bool := false
  rawQuery : Bytes := []
  deriving DecidableEq, Repr

/-! ## the encoding of a path -/

/-- letters, digits and `-_.~` -/
def isUnreserved (c : UInt8) : Bool :=
  (97 ≤ c && c ≤ 122) || (65 ≤ c && c ≤ 90) || (48 ≤ c && c ≤ 57) ||
    c == 45 || c == 95 || c == 46 || c == 126

/-- `shouldEscape(c, encodePath)`: not a letter, a digit or one of `-_.~$&+,/:;=@` -/
def shouldEscape (c : UInt8) : Bool :=
  !(isUnreserved c || [36, 38, 43, 44, 47, 58, 59, 61, 64].contains c)

/-- `escape(s, encodePath)` -/
def escapePath (s : Bytes) : Bytes := escape (fun c => !shouldEscape c) s

/-- `validEncoded(s, encodePath)`: also the bytes `!'()*[]` and `%` -/
def validEncoded (s : Bytes) : Bool :=
  s.all fun c => [33, 36, 38, 39, 40, 41, 42, 43, 44, 59, 61, 58, 64, 91, 93, 37].contains c ||
    !shouldEscape c

/-- `setPath`: the decoded form, and the form as sent if it is not the default encoding -/
def setPath (p : Bytes) : Option (Bytes × Bytes) :=
  (unescape p).map fun path => (path, if p = escapePath path then [] else p)

def URL.escapedPath (u : URL) : Bytes :=
  if u.rawPath ≠ [] ∧ validEncoded u.rawPath = true ∧ unescape u.rawPath = some u.path then u.rawPath
  else if u.path = [42] then [42]
  else escapePath u.path

theorem unescape_escapePath (s : Bytes) : unescape (escapePath s) = some s :=
  unescape_escape (by decide) s

/-- neither form that is sent on has a `?` -/
theorem URL.not_mem_escapedPath (u : URL) : (63 : UInt8) ∉ u.escapedPath := by
  unfold URL.escapedPath
  split
  · rename_i h
    intro hm
    exact absurd (List.all_eq_true.mp h.2.1 63 hm) (by decide)
  · split
    · decide
    · exact not_mem_escape (by decide) (by decide) (by decide) u.path

theorem URL.unescape_escapedPath (u : URL) : unescape u.escapedPath = some u.path := by
  unfold URL.escapedPath
  split
  · rename_i h
    exact h.2.2
  · split
    · rename_i h
      rw [h]
      rfl
    · exact unescape_escapePath u.path

/-! ## request targets -/

/-- `strings.HasPrefix(s, "/")` -/
def startsWithSlash (s : Bytes) : Bool := s.head? == some 47

/-- a control byte, which net/http refuses in a target -/
def isCTL (c : UInt8) : Bool := c < 32 || c == 127

/-- `url.ParseRequestURI` for a target in origin form; a lone `?` at the end sets `forceQuery` -/
def parseRequestURI (target : Bytes) : Option URL :=
  if target.any isCTL || !startsWithSlash target then none
  else
    let parts := cut 63 target
    (setPath parts.1).map fun p =>
      { path := p.1
        rawPath := p.2
        forceQuery := target.getLast? == some 63 && target.count 63 == 1
        rawQuery := parts.2 }

def URL.requestURI (u : URL) : Bytes :=
  let result := if u.escapedPath = [] then [47] else u.escapedPath
  if u.forceQuery || u.rawQuery != [] then result ++ 63 :: u.rawQuery else result

/-- the decoded path and the query in a target -/
def readTarget (target : Bytes) : Option (Bytes × Bytes) :=
  let parts := cut 63 target
  (unescape parts.1).map fun path => (path, parts.2)

/-- a parsed path that is kept as it was sent begins with a slash and decodes to the other form -/
theorem parseRequestURI_rawPath {target : Bytes} {u : URL} (h : parseRequestURI target = some u)
    (hne : u.rawPath ≠ []) :
    startsWithSlash u.rawPath = true ∧ unescape u.rawPath = some u.path := by
  unfold parseRequestURI at h
  split at h
  · exact absurd h (by simp)
  · rename_i hc
    simp only [Bool.or_eq_true, Bool.not_eq_true', not_or, Bool.not_eq_false] at hc
    obtain ⟨⟨path, rawPath⟩, hs, rfl⟩ := Option.map_eq_some_iff.mp h
    obtain ⟨q, hq, e⟩ := Option.map_eq_some_iff.mp hs
    obtain ⟨rfl, rfl⟩ := Prod.mk.inj e
    dsimp only at hne ⊢
    split at hne
    · exact absurd rfl hne
    · rename_i hp
      rw [if_neg hp]
      refine ⟨?_, hq⟩
      cases target with
      | nil => exact absurd hc.2 (by decide)
      | cons c s =>
        obtain rfl : c = 47 := by simpa [startsWithSlash] using hc.2
        rfl

/-- a backend reads what the URL says: its decoded path and its query -/
theorem URL.readTarget_requestURI {u : URL} (h : u.path ≠ []) :
    readTarget u.requestURI = some (u.path, u.rawQuery) := by
  have hne : u.escapedPath ≠ [] := by
    intro e
    have hu := u.unescape_escapedPath
    rw [e] at hu
    exact h (Option.some.inj hu).symm
  unfold readTarget URL.requestURI
  rw [if_neg hne]
  split
  · rw [cut_append_cons u.not_mem_escapedPath]
    dsimp only
    rw [u.unescape_escapedPath, Option.map_some]
  · rename_i hq
    simp only [Bool.or_eq_true, bne_iff_ne, not_or, not_not] at hq
    rw [cut_of_not_mem u.not_mem_escapedPath, hq.2]
    dsimp only
    rw [u.unescape_escapedPath, Option.map_some]

/-! ## the director -/

/-- `strings.HasSuffix(s, "/")` -/
def endsWithSlash (s : Bytes) : Bool := s.getLast? == some 47

def singleJoiningSlash (a b : Bytes) : Bytes :=
  if endsWithSlash a && startsWithSlash b then a ++ b.tail
  else if !endsWithSlash a && !startsWithSlash b then a ++ 47 :: b
  else a ++ b

def joinURLPath (a b : URL) : Bytes × Bytes :=
  if a.rawPath = [] ∧ b.rawPath = [] then (singleJoiningSlash a.path b.path, [])
  else
    let apath := a.escapedPath
    let bpath := b.escapedPath
    if endsWithSlash apath && startsWithSlash bpath then (a.path ++ b.path.tail, apath ++ bpath.tail)
    else if !endsWithSlash apath && !startsWithSlash bpath then
      (a.path ++ 47 :: b.path, apath ++ 47 :: bpath)
    else (a.path ++ b.path, apath ++ bpath)

/-- `rewriteRequestURL(req, target)`, the single-host director -/
def rewriteRequestURL (u target : URL) : URL :=
  { u with
    scheme := target.scheme
    host := target.host
    path := (joinURLPath target u).1
    rawPath := (joinURLPath target u).2
    rawQuery :=
      if target.rawQuery = [] ∨ u.rawQuery = [] then target.rawQuery ++ u.rawQuery
      else target.rawQuery ++ 38 :: u.rawQuery }

def URL.NoBasePath (target : URL) : Prop := target.path = [] ∧ target.rawPath = []

instance (target : URL) : Decidable target.NoBasePath := inferInstanceAs (Decidable (_ ∧ _))

theorem joinURLPath_noBasePath {a b : URL} (ha : a.NoBasePath)
    (hp : startsWithSlash b.path = true) (hr : b.rawPath ≠ [] → startsWithSlash b.rawPath = true) :
    (joinURLPath a b).1 = b.path := by
  have he : startsWithSlash b.escapedPath = true := by
    unfold URL.escapedPath
    split
    · rename_i h
      exact hr h.1
    · rw [if_neg (by intro e; rw [e] at hp; exact absurd hp (by decide))]
      cases hb : b.path with
      | nil =>
        rw [hb] at hp
        exact absurd hp (by decide)
      | cons c s =>
        rw [hb] at hp
        obtain rfl : c = 47 := by simpa [startsWithSlash] using hp
        rfl
  have hA : a.escapedPath = [] := by
    unfold URL.escapedPath
    rw [ha.1, ha.2]
    rfl
  unfold joinURLPath
  split
  · show singleJoiningSlash a.path b.path = _
    unfold singleJoiningSlash
    rw [ha.1, hp]
    rfl
  · rw [hA, ha.1]
    dsimp only
    rw [he]
    rfl

/-- **Through the director the backend finds `path`, whatever `rawPath` is.** -/
theorem readTarget_rewriteRequestURL {u target : URL} (ht : target.NoBasePath)
    (hp : startsWithSlash u.path = true) (hr : u.rawPath ≠ [] → startsWithSlash u.rawPath = true) :
    readTarget (rewriteRequestURL u target).requestURI =
      some (u.path, (rewriteRequestURL u target).rawQuery) := by
  have e : (rewriteRequestURL u target).path = u.path := joinURLPath_noBasePath ht hp hr
  have hne : (rewriteRequestURL u target).path ≠ [] := by
    rw [e]
    intro h
    rw [h] at hp
    exact absurd hp (by decide)
  rw [URL.readTarget_requestURI hne, e]

/-- the query goes through unchanged exactly if the target has none of its own -/
theorem rawQuery_rewriteRequestURL (u target : URL) :
    (rewriteRequestURL u target).rawQuery = u.rawQuery ↔ target.rawQuery = [] := by
  show (if _ then _ else _) = _ ↔ _
  split
  · exact List.append_left_eq_self
  · rename_i h
    rw [not_or] at h
    refine iff_of_false (fun e => ?_) h.1
    have hl := congrArg List.length e
    simp only [List.length_append, List.length_cons] at hl
    omega

end Gateway
