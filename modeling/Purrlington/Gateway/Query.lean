import Purrlington.Gateway.Url
import Purrlington.Lib.Dict
import Mathlib.Data.List.Sort

/-!
# Gateway: requests and their cache keys

The key is computed from the query that `URL.Query()` parses out of the request's raw query.

* `queryEscape`, `Values.encode`   net/url's query encoding, as `Encode` sorts and joins it;
* `parseQuery`            net/url's `ParseQuery`, without its error, which `Query` drops;
* `QueryMap.values`       the multimap in the order in which `Encode` visits its keys;
* `values_eq_iff`         this order depends on nothing but the multimap;
* `Request.cacheKey`      the key that `CacheMiddleware` computes;
* `cacheKey_eq_iff`       two keys are equal just for equal methods, decoded paths and multimaps.
-/

set_option linter.unusedSectionVars false

namespace Gateway
open Framing Percent

/-! ## the encoding of a query -/

/-- not escaped by `QueryEscape`, but for the space, which is a `+` -/
def staysInQuery (c : UInt8) : Bool := isUnreserved c || c == 32

def queryEscape (s : Bytes) : Bytes := (escape staysInQuery s).map fun c => if c = 32 then 43 else c

/-- `QueryUnescape`, where `none` is an error: `+` is a space -/
def queryUnescape (s : Bytes) : Option Bytes := unescape (s.map fun c => if c = 43 then 32 else c)

/-- `url.Values`, its keys in the order in which `Encode` visits them -/
structure Values where
  entries : List (Bytes × List Bytes)
  sorted : (entries.map Prod.fst).Pairwise (· < ·)
  nonempty : ∀ g ∈ entries, g.2 ≠ []

/-- `key=value`, escaped -/
def encodePair (p : Bytes × Bytes) : Bytes := queryEscape p.1 ++ 61 :: queryEscape p.2

def Values.encode (q : Values) : Bytes :=
  ([38] : Bytes).intercalate ((ungroup q.entries).map encodePair)

/-! ## what the encoding determines -/

/-- **What was escaped is read back.** -/
theorem queryUnescape_queryEscape (s : Bytes) : queryUnescape (queryEscape s) = some s := by
  have hplus : (43 : UInt8) ∉ escape staysInQuery s := not_mem_escape (by decide) (by decide) (by decide) s
  have hback : (queryEscape s).map (fun c => if c = 43 then 32 else c) = escape staysInQuery s := by
    rw [queryEscape, List.map_map]
    conv_rhs => rw [← List.map_id (escape staysInQuery s)]
    refine List.map_congr_left fun c hc => ?_
    show (if (if c = 32 then 43 else c) = 43 then 32 else if c = 32 then 43 else c) = c
    by_cases h : c = 32
    · rw [if_pos h, if_pos rfl, h]
    · have hne : c ≠ 43 := by
        rintro rfl
        exact hplus hc
      rw [if_neg h, if_neg hne]
  rw [queryUnescape, hback]
  exact unescape_escape (by decide) s

theorem queryEscape_inj {s t : Bytes} (e : queryEscape s = queryEscape t) : s = t := by
  have hs := queryUnescape_queryEscape s
  rw [e, queryUnescape_queryEscape] at hs
  exact (Option.some.inj hs).symm

/-- a byte that is written only where it stands for nothing itself -/
theorem not_mem_queryEscape {d : UInt8} (hk : staysInQuery d = false) (hd : d ≠ 37)
    (hh : unhex d = none) (hplus : d ≠ 43) (s : Bytes) : d ∉ queryEscape s := by
  intro h
  obtain ⟨c, hc, e⟩ := List.mem_map.mp h
  split at e
  · exact hplus e.symm
  · subst e
    exact not_mem_escape hk hd hh s hc

theorem encodePair_inj {p q : Bytes × Bytes} (e : encodePair p = encodePair q) : p = q := by
  have hnot : ∀ s, (61 : UInt8) ∉ queryEscape s :=
    not_mem_queryEscape (by decide) (by decide) (by decide) (by decide)
  obtain ⟨h1, h2⟩ := append_sep_inj (hnot p.1) (hnot q.1) e
  exact Prod.ext (queryEscape_inj h1) (queryEscape_inj h2)

theorem not_mem_encodePair {d : UInt8} (hd : ∀ s, d ∉ queryEscape s) (hne : d ≠ 61)
    (p : Bytes × Bytes) : d ∉ encodePair p := by
  intro h
  rcases List.mem_append.mp h with h | h
  · exact hd _ h
  · rcases List.mem_cons.mp h with h | h
    · exact hne h
    · exact hd _ h

theorem encodePair_ne_nil (p : Bytes × Bytes) : encodePair p ≠ [] := by
  unfold encodePair
  simp

theorem Values.encode_inj {q q' : Values} (e : q.encode = q'.encode) : q = q' := by
  have parts : ∀ q : Values, ∀ p ∈ (ungroup q.entries).map encodePair, p ≠ [] ∧ (38 : UInt8) ∉ p := by
    intro q p hp
    obtain ⟨x, _, rfl⟩ := List.mem_map.mp hp
    exact ⟨encodePair_ne_nil x, not_mem_encodePair (not_mem_queryEscape (by decide) (by decide) (by decide) (by decide))
      (by decide) x⟩
  have hpairs : ungroup q.entries = ungroup q'.entries :=
    List.map_injective_iff.mpr (fun _ _ h => encodePair_inj h)
      (intercalate_inj (parts q) (parts q') e)
  have hent : q.entries = q'.entries := ungroup_inj (fun k => List.lt_irrefl k) q.sorted q'.sorted
    q.nonempty q'.nonempty hpairs
  cases q
  cases q'
  cases hent
  rfl

theorem Values.not_mem_encode (q : Values) : (63 : UInt8) ∉ q.encode := by
  intro h
  rcases mem_intercalate h with h | ⟨p, hp, h⟩
  · exact absurd h (by decide)
  · obtain ⟨x, _, rfl⟩ := List.mem_map.mp hp
    exact not_mem_encodePair (not_mem_queryEscape (by decide) (by decide) (by decide) (by decide))
      (by decide) x h

/-! ## parsing -/

/-- keys with their values in order, at least one for each key -/
structure QueryMap where
  dict : Dict Bytes (List Bytes)
  nonempty : ∀ g ∈ dict.items, g.2 ≠ []

namespace QueryMap

def empty : QueryMap := ⟨.empty, fun _ h => absurd h List.not_mem_nil⟩

def get? (m : QueryMap) (key : Bytes) : Option (List Bytes) := m.dict.get? key

/-- `m[key] = append(m[key], value)` -/
def append (m : QueryMap) (key value : Bytes) : QueryMap where
  dict := m.dict.set key ((m.dict.get? key).getD [] ++ [value])
  nonempty := by
    rintro ⟨k, vs⟩ h
    have hget := Dict.mem_items_iff.mp h
    by_cases e : k = key
    · subst e
      rw [Dict.get?_set_self] at hget
      rw [← Option.some.inj hget]
      exact List.concat_ne_nil _ _
    · rw [Dict.get?_set_ne _ e] at hget
      exact m.nonempty (k, vs) (Dict.mem_items_iff.mpr hget)

end QueryMap

/-- a part of the query between two `&` -/
def parsePair (m : QueryMap) (pair : Bytes) : QueryMap :=
  if 59 ∈ pair then m  -- a semicolon is an error
  else if pair = [] then m
  else
    match queryUnescape (cut 61 pair).1, queryUnescape (cut 61 pair).2 with
    | some key, some value => m.append key value
    | _, _ => m

def parseQuery (query : Bytes) : QueryMap := (query.splitOn 38).foldl parsePair .empty

/-! ## the order of the keys -/

/-- the entries, sorted by their keys -/
def sortedEntries (m : QueryMap) : List (Bytes × List Bytes) :=
  m.dict.items.insertionSort fun a b => a.1 ≤ b.1

theorem sortedEntries_perm (m : QueryMap) : (sortedEntries m).Perm m.dict.items :=
  List.perm_insertionSort ..

theorem sortedEntries_sorted (m : QueryMap) :
    ((sortedEntries m).map Prod.fst).Pairwise (· < ·) := by
  have : Std.Total fun a b : Bytes × List Bytes => a.1 ≤ b.1 := ⟨fun a b => List.le_total a.1 b.1⟩
  have : IsTrans (Bytes × List Bytes) fun a b => a.1 ≤ b.1 := ⟨fun _ _ _ => List.le_trans⟩
  have hle := List.pairwise_insertionSort (fun a b : Bytes × List Bytes => a.1 ≤ b.1) m.dict.items
  have hnodup : ((sortedEntries m).map Prod.fst).Nodup :=
    ((sortedEntries_perm m).map Prod.fst).nodup_iff.mpr m.dict.nodup
  rw [List.Nodup, List.pairwise_map] at hnodup
  rw [List.pairwise_map]
  refine (hle.and hnodup).imp fun h => ?_
  exact (List.le_iff_lt_or_eq.mp h.1).resolve_right h.2

namespace QueryMap

/-- what `Encode` is applied to -/
def values (m : QueryMap) : Values where
  entries := sortedEntries m
  sorted := sortedEntries_sorted m
  nonempty g h := m.nonempty g ((sortedEntries_perm m).mem_iff.mp h)

theorem mem_entries_iff (m : QueryMap) (k : Bytes) (vs : List Bytes) :
    (k, vs) ∈ m.values.entries ↔ m.get? k = some vs :=
  (sortedEntries_perm m).mem_iff.trans Dict.mem_items_iff

/-- **The order of the keys depends on nothing but the multimap.** -/
theorem values_eq_iff {m m' : QueryMap} : m.values = m'.values ↔ ∀ k, m.get? k = m'.get? k := by
  constructor
  · intro h k
    refine Option.ext fun vs => ?_
    rw [← mem_entries_iff, ← mem_entries_iff, h]
  · intro h
    have hperm : m.values.entries.Perm m'.values.entries := by
      have hnodup : ∀ m : QueryMap, m.values.entries.Nodup := fun m =>
        (sortedEntries_perm m).nodup_iff.mpr m.dict.nodup.of_map
      refine (List.perm_ext_iff_of_nodup (hnodup m) (hnodup m')).mpr fun g => ?_
      rw [mem_entries_iff, mem_entries_iff, h]
    have hentries : m.values.entries = m'.values.entries := by
      refine hperm.eq_of_pairwise (fun a b _ _ hab hba => ?_)
        (List.pairwise_map.mp m.values.sorted) (List.pairwise_map.mp m'.values.sorted)
      exact absurd (List.lt_trans hab hba) (List.lt_irrefl a.1)
    cases hm : m.values
    cases hm' : m'.values
    rw [hm, hm'] at hentries
    cases hentries
    rfl

end QueryMap

/-! ## requests -/

/-- a request as `CacheMiddleware` receives it: the request target, and what the server has read from it -/
structure Request where
  method : Bytes
  target : Bytes
  url : URL
  parsed : parseRequestURI target = some url
  header : Header

namespace Request

/-- the X-Admin-Passcode header -/
def passcode (r : Request) : String := r.header.get "X-Admin-Passcode"

/-- a method whose responses the middleware may cache -/
def Safe (r : Request) : Prop := r.method = ascii "GET" ∨ r.method = ascii "HEAD"

instance (r : Request) : Decidable r.Safe := inferInstanceAs (Decidable (_ ∨ _))

/-- `r.URL.Query()` -/
def query (r : Request) : QueryMap := parseQuery r.url.rawQuery

/-- `r.Method + " " + r.URL.Path + "?" + r.URL.Query().Encode()` -/
def cacheKey (r : Request) : Bytes := r.method ++ 32 :: (r.url.path ++ 63 :: r.query.values.encode)

end Request

/-- the method, the decoded path and the query multimap are the same -/
def Request.Alike (r r' : Request) : Prop :=
  r.method = r'.method ∧ r.url.path = r'.url.path ∧ ∀ k, r.query.get? k = r'.query.get? k

/-- no space in a cached method, and the last `?` of a key is the one before the query -/
theorem cacheKey_inj {r r' : Request} (hs : r.Safe) (hs' : r'.Safe) (e : r.cacheKey = r'.cacheKey) :
    r.Alike r' := by
  have nosp : ∀ r : Request, r.Safe → (32 : UInt8) ∉ r.method := by
    intro r h
    rcases h with h | h <;> · rw [h]; decide
  obtain ⟨hm, e⟩ := append_sep_inj (nosp r hs) (nosp r' hs') e
  obtain ⟨hp, hq⟩ := append_sep_inj_right (Values.not_mem_encode _) (Values.not_mem_encode _) e
  exact ⟨hm, hp, QueryMap.values_eq_iff.mp (Values.encode_inj hq)⟩

theorem Request.Alike.cacheKey_eq {r r' : Request} (h : r.Alike r') : r.cacheKey = r'.cacheKey := by
  unfold Request.cacheKey
  rw [h.1, h.2.1, QueryMap.values_eq_iff.mpr h.2.2]

/-- **The cache key identifies the request.**  The keys of two GET or HEAD requests are equal if and only
if their methods, their decoded paths and their query multimaps are. -/
theorem cacheKey_eq_iff {r r' : Request} (hs : r.Safe) (hs' : r'.Safe) :
    r.cacheKey = r'.cacheKey ↔
      r.method = r'.method ∧ r.url.path = r'.url.path ∧ ∀ k, r.query.get? k = r'.query.get? k :=
  ⟨cacheKey_inj hs hs', Request.Alike.cacheKey_eq⟩

def getRequest {u : URL} (target : String) (parsed : parseRequestURI (ascii target) = some u)
    (header : Header) : Request :=
  { method := ascii "GET", target := ascii target, url := u, parsed, header }

/-- a `?` of the decoded path is none of the query -/
theorem cacheKey_eq_iff_mark :
    (getRequest (u := { path := ascii "/a?b=c" }) "/a%3Fb=c" (by decide +kernel) []).cacheKey ≠
      (getRequest (u := { path := ascii "/a", rawQuery := ascii "b=c" }) "/a?b=c"
        (by decide +kernel) []).cacheKey := by
  intro h
  have hpath := ((cacheKey_eq_iff (.inl rfl) (.inl rfl)).mp h).2.1
  exact absurd hpath (by decide)

/-- a pair that is not well formed is sent on, and is not in the key -/
example : (getRequest (u := { path := ascii "/a", rawQuery := ascii "status=%zz" }) "/a?status=%zz"
      (by decide +kernel) []).cacheKey =
    (getRequest (u := { path := ascii "/a" }) "/a" (by decide +kernel) []).cacheKey := by
  decide +kernel

end Gateway
