import Purrlington.Gateway.Route

/-!
# Gateway: the rest of the path

chi routes on the path as it was sent where net/url keeps it, and on the decoded path otherwise; the
handlers take the wildcard for a decoded path in both cases.

* `Mount`, `Mount.urlParam`   the service prefixes, and the wildcard behind one;
* `Route.received`            what the target of a route reads from the forwarded request;
* `Mount.AsSent`              the rest of the path has the same form, sent and decoded;
* `forwards_rest_iff`         this is when the target reads the rest of the decoded path;
* `encoded_slash_twice`       an id with an encoded slash comes out encoded once more.
-/

set_option linter.unusedSectionVars false

namespace Gateway
open Percent

/-! ## mounts -/

/-- the keys of `pools` in `main` -/
inductive Mount where
  | airport
  | hotel
  | beach
  | crab
  | goatFarm
  | broadcast
  | parrot
  deriving DecidableEq, Repr

namespace Mount

def path : Mount → Bytes
  | airport => ascii "/api/airport"
  | hotel => ascii "/api/hotel"
  | beach => ascii "/api/beach"
  | crab => ascii "/api/crab"
  | goatFarm => ascii "/api/goat-farm"
  | broadcast => ascii "/api/broadcast"
  | parrot => ascii "/api/parrot"

/-- the routing path past the mount, with which chi calls the mounted router; `none` if the mount
does not match -/
def nextRoutePath (m : Mount) (routePath : Bytes) : Option Bytes :=
  if routePath = m.path then some [47]
  else if m.path ++ [47] <+: routePath then some (47 :: routePath.drop (m.path.length + 1))
  else none

end Mount

/-- the path that chi routes on -/
def URL.routePath (u : URL) : Bytes := if u.rawPath ≠ [] then u.rawPath else u.path

/-- `chi.URLParam(req, "*")` under the mounted router's `/*` -/
def Mount.urlParam (m : Mount) (u : URL) : Option Bytes :=
  (m.nextRoutePath u.routePath).map List.tail

/-- the decoded path with the prefix removed; an empty path is the root -/
def Mount.rest (m : Mount) (path : Bytes) : Bytes :=
  if path.drop m.path.length = [] then [47] else path.drop m.path.length

/-! ## routes -/

/-- how a mount is served: `ProxyRoute` for one URL, `PooledProxyRoute` with its counter for more -/
inductive Route where
  | single (target : URL)
  | pooled (targets : Targets) (next : UInt32)

namespace Route

def target : Route → URL
  | single target => target
  | pooled ts next => ts.picked next

def handler : Route → Bytes → HttpRequest → Header → Option Response → Outcome
  | single target => proxyRouteHandler target
  | pooled ts next => pooledProxyRouteHandler ts next

/-- the decoded path and the query that the target reads, `none` if it gets no request -/
def received (r : Route) (m : Mount) (req : HttpRequest) : Option (Bytes × Bytes) :=
  (m.urlParam req.url).bind fun wildcard =>
    readTarget (r.handler wildcard req [] none).forwarded.url.requestURI

end Route

/-- chi matches the mount, and what is left of the path it routes on does not begin with another
slash and, if that path is the one that was sent, has no `%` -/
def Mount.AsSent (m : Mount) (u : URL) : Prop :=
  u.routePath = m.path ∨ ∃ rest, u.routePath = m.path ++ 47 :: rest ∧
    startsWithSlash rest = false ∧ (u.rawPath ≠ [] → (37 : UInt8) ∉ rest)

/-! ## what the target reads -/

theorem Mount.percent_not_mem (m : Mount) : (37 : UInt8) ∉ m.path := by
  cases m <;> decide

theorem startsWithSlash_wildcardPath (wildcard : Bytes) :
    startsWithSlash (wildcardPath wildcard) = true := by
  unfold wildcardPath
  split
  · rfl
  · split
    · rfl
    · rename_i h
      simpa using h

theorem Route.handler_url (r : Route) (wildcard : Bytes) (req : HttpRequest) (outer : Header)
    (answer : Option Response) :
    (r.handler wildcard req outer answer).forwarded.url =
      rewriteRequestURL (rewrite r.target wildcard req).url r.target := by
  cases r with
  | single target => rfl
  | pooled ts next =>
    show (pooledProxyRouteHandler ts next wildcard req outer answer).forwarded.url = _
    rw [pooled_forwards_as_single]
    rfl

theorem Route.received_eq {r : Route} (ht : r.target.NoBasePath) {m : Mount} {req : HttpRequest}
    {wildcard : Bytes} (hw : m.urlParam req.url = some wildcard)
    (hr : req.url.rawPath ≠ [] → startsWithSlash req.url.rawPath = true) :
    r.received m req = some (wildcardPath wildcard,
      (rewriteRequestURL (rewrite r.target wildcard req).url r.target).rawQuery) := by
  unfold received
  rw [hw, Option.bind_some, r.handler_url]
  exact readTarget_rewriteRequestURL ht (startsWithSlash_wildcardPath wildcard) hr

/-- the two forms of a path in agreement: if the sent one is kept, it decodes to the other -/
def URL.Agrees (u : URL) : Prop := u.rawPath ≠ [] → unescape u.rawPath = some u.path

theorem URL.Agrees.path_eq {u : URL} (h : u.Agrees) {m : Mount} (e : u.routePath = m.path) :
    u.path = m.path := by
  unfold routePath at e
  split at e
  · rename_i hne
    have hp := h hne
    rw [e, unescape_of_not_mem m.percent_not_mem] at hp
    exact (Option.some.inj hp).symm
  · exact e

theorem URL.Agrees.path_below {u : URL} (h : u.Agrees) {m : Mount} {rest : Bytes}
    (e : u.routePath = m.path ++ 47 :: rest) :
    ∃ t, u.path = m.path ++ 47 :: t ∧ (u.rawPath = [] → t = rest) ∧
      (u.rawPath ≠ [] → unescape rest = some t) := by
  unfold routePath at e
  split at e
  · rename_i hne
    have hp := h hne
    rw [e, unescape_append m.percent_not_mem, unescape_cons_ne (by decide), Option.map_map] at hp
    obtain ⟨t, ht, e'⟩ := Option.map_eq_some_iff.mp hp
    exact ⟨t, e'.symm, fun e0 => absurd e0 hne, fun _ => ht⟩
  · rename_i h0
    rw [not_not] at h0
    exact ⟨rest, e, fun _ => rfl, fun hne => absurd h0 hne⟩

theorem Mount.rest_append (m : Mount) (t : Bytes) : m.rest (m.path ++ 47 :: t) = 47 :: t := by
  unfold rest
  rw [List.drop_left, if_neg (by simp)]

theorem wildcardPath_eq_iff {rawPath rest t : Bytes} (h0 : rawPath = [] → t = rest)
    (h1 : rawPath ≠ [] → unescape rest = some t) :
    wildcardPath rest = 47 :: t ↔
      startsWithSlash rest = false ∧ (rawPath ≠ [] → (37 : UInt8) ∉ rest) := by
  -- the bytes that the wildcard is short of, or an escape has dropped
  have hlen : ∃ k, rest.length = t.length + 2 * k := by
    by_cases h : rawPath = []
    · exact ⟨0, by rw [h0 h]; rfl⟩
    · obtain ⟨k, hk, _⟩ := length_unescape (h1 h)
      exact ⟨k, hk⟩
  have hsame : rest = t ↔ (rawPath ≠ [] → (37 : UInt8) ∉ rest) := by
    by_cases h : rawPath = []
    · exact iff_of_true (h0 h).symm fun hne => absurd h hne
    · rw [← unescape_eq_self_iff, h1 h, Option.some.injEq, eq_comm (a := t)]
      exact ⟨fun e _ => e, fun e => e h⟩
  cases rest with
  | nil =>
    rw [← hsame]
    obtain ⟨k, hk⟩ := hlen
    have ht : t = [] := List.eq_nil_of_length_eq_zero (by simp only [List.length_nil] at hk; omega)
    subst ht
    exact iff_of_true rfl ⟨rfl, rfl⟩
  | cons c s =>
    cases hs : startsWithSlash (c :: s) with
    | false =>
      rw [wildcardPath, if_neg (by simp), if_pos (by simp [hs]), ← hsame]
      exact ⟨fun e => ⟨rfl, (List.cons.inj e).2⟩, fun e => by rw [e.2]⟩
    | true =>
      refine iff_of_false (fun e => ?_) fun e => absurd e.1 (by simp)
      rw [wildcardPath, if_neg (by simp), if_neg (by simp [hs])] at e
      obtain ⟨k, hk⟩ := hlen
      rw [e, List.length_cons] at hk
      omega

theorem Mount.urlParam_eq_some_iff {m : Mount} {u : URL} {wildcard : Bytes} :
    m.urlParam u = some wildcard ↔
      (u.routePath = m.path ∧ wildcard = []) ∨ u.routePath = m.path ++ 47 :: wildcard := by
  unfold urlParam nextRoutePath
  by_cases h : u.routePath = m.path
  · rw [if_pos h]
    constructor
    · intro e
      exact .inl ⟨h, (Option.some.inj e).symm⟩
    · rintro (⟨_, rfl⟩ | e)
      · rfl
      · rw [h] at e
        exact absurd e (by simp)
  · rw [if_neg h]
    by_cases hp : m.path ++ [47] <+: u.routePath
    · rw [if_pos hp]
      obtain ⟨s, hs⟩ := hp
      rw [← hs, List.append_assoc]
      have hd : (m.path ++ ([47] ++ s)).drop (m.path.length + 1) = s := by
        rw [← List.append_assoc]
        exact List.drop_left' (by simp)
      rw [hd]
      constructor
      · intro e
        obtain rfl := Option.some.inj e
        exact .inr rfl
      · rintro (⟨e, _⟩ | e)
        · exact absurd e (by simp)
        · have hsw : (47 : UInt8) :: s = 47 :: wildcard := List.append_cancel_left e
          rw [(List.cons.inj hsw).2]
          rfl
    · rw [if_neg hp]
      refine iff_of_false (by simp) ?_
      rintro (⟨e, _⟩ | e)
      · exact h e
      · exact hp ⟨wildcard, by rw [e, List.append_assoc]; rfl⟩

/-- the rest of the path, as the handlers take it from the wildcard -/
theorem Mount.wildcardPath_eq_rest_iff {m : Mount} {u : URL} (ha : u.Agrees) {wildcard : Bytes}
    (hw : m.urlParam u = some wildcard) : wildcardPath wildcard = m.rest u.path ↔ m.AsSent u := by
  rcases urlParam_eq_some_iff.mp hw with ⟨h, rfl⟩ | h
  · refine iff_of_true ?_ (.inl h)
    rw [ha.path_eq h, rest, List.drop_length, if_pos rfl]
    rfl
  · obtain ⟨t, hpath, h0, h1⟩ := ha.path_below h
    rw [hpath, m.rest_append, wildcardPath_eq_iff h0 h1]
    constructor
    · intro e
      exact .inr ⟨wildcard, h, e⟩
    · rintro (e | ⟨rest, e, hs⟩)
      · rw [h] at e
        exact absurd e (by simp)
      · rw [h] at e
        have hsw : (47 : UInt8) :: wildcard = 47 :: rest := List.append_cancel_left e
        rw [(List.cons.inj hsw).2]
        exact hs

theorem Mount.not_asSent {m : Mount} {u : URL} (h : m.urlParam u = none) : ¬ m.AsSent u := by
  have hnot : ∀ wildcard, m.urlParam u ≠ some wildcard := by
    intro wildcard e
    rw [h] at e
    exact absurd e (by simp)
  rintro (e | ⟨rest, e, _⟩)
  · exact hnot [] (urlParam_eq_some_iff.mpr (.inl ⟨e, rfl⟩))
  · exact hnot rest (urlParam_eq_some_iff.mpr (.inr e))

/-- **For every request target, a route's backend reads the decoded path without the prefix and the
query unchanged exactly if the rest of the path was sent as it decodes, below the mount as written
and with one slash, and the service URL has no query.** -/
theorem forwards_rest_iff (r : Route) (m : Mount) (req : HttpRequest) {target : Bytes}
    (hu : parseRequestURI target = some req.url) (ht : r.target.NoBasePath) :
    r.received m req = some (m.rest req.url.path, req.url.rawQuery) ↔
      m.AsSent req.url ∧ r.target.rawQuery = [] := by
  cases hw : m.urlParam req.url with
  | none =>
    have hn : r.received m req = none := by
      unfold Route.received
      rw [hw]
      rfl
    rw [hn]
    exact iff_of_false (by simp) fun h => Mount.not_asSent hw h.1
  | some wildcard =>
    rw [Route.received_eq ht hw fun hne => (parseRequestURI_rawPath hu hne).1, Option.some.injEq,
      Prod.mk.injEq]
    exact and_congr
      (Mount.wildcardPath_eq_rest_iff (fun hne => (parseRequestURI_rawPath hu hne).2) hw)
      (rawQuery_rewriteRequestURL _ _)

/-- a plain path goes through as it is -/
theorem forwards_rest_reservation :
    parseRequestURI (ascii "/api/hotel/reservation?day=3") =
        some { path := ascii "/api/hotel/reservation", rawQuery := ascii "day=3" } ∧
      (Route.single { scheme := "http", host := "hotel:3000" }).received .hotel
          { activitiesRequest with
            url := { path := ascii "/api/hotel/reservation", rawQuery := ascii "day=3" } } =
        some (ascii "/reservation", ascii "day=3") := by
  have hu : parseRequestURI (ascii "/api/hotel/reservation?day=3") =
      some { path := ascii "/api/hotel/reservation", rawQuery := ascii "day=3" } := by
    decide +kernel
  refine ⟨hu, ?_⟩
  have h := (forwards_rest_iff (.single { scheme := "http", host := "hotel:3000" }) .hotel
    { activitiesRequest with
      url := { path := ascii "/api/hotel/reservation", rawQuery := ascii "day=3" } } hu
    ⟨rfl, rfl⟩).mpr ⟨.inr ⟨ascii "reservation", by decide +kernel, by decide, by simp⟩, rfl⟩
  rw [h]
  decide +kernel

/-- a reservation whose id has a slash in it, escaped -/
def slashRequest : HttpRequest :=
  { activitiesRequest with
    url := { path := ascii "/api/hotel/reservation/a/b"
             rawPath := ascii "/api/hotel/reservation/a%2Fb" } }

/-- the hotel reads `a%2Fb` for the id `a/b`: the escape is escaped once more -/
theorem encoded_slash_twice :
    parseRequestURI (ascii "/api/hotel/reservation/a%2Fb") = some slashRequest.url ∧
      (Route.single { scheme := "http", host := "hotel:3000" }).received .hotel slashRequest =
        some (ascii "/reservation/a%2Fb", []) ∧
      (Route.single { scheme := "http", host := "hotel:3000" }).received .hotel slashRequest ≠
        some (Mount.hotel.rest slashRequest.url.path, slashRequest.url.rawQuery) := by
  decide +kernel

end Gateway
