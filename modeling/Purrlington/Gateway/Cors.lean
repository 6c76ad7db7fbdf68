import Purrlington.Lib.Framing
import Purrlington.Gateway.Delivery
import Purrlington.Gateway.Capture

/-!
# Gateway: CORS in front of the cache, the proxy behind it

`CORSMiddleware`, `CacheMiddleware` and `ProxyRoute` as one stack.  The response header of an
upstream is as ModifyResponse sees it, with the hop-by-hop fields gone; an upstream sends one final
response, no interim ones and no trailers.

* `corsAllows`, `corsHeader`   which origins are allowed, and what the middleware then sets;
* `modifyResponse`             the upstream's CORS headers are dropped;
* `proxyRoute`                 what the reverse proxy may do with its writer, for any upstream;
* `stack`                      the requests of the three together, preflights included.
-/

set_option linter.unusedSectionVars false

namespace Gateway
open SM

/-! ## CORSMiddleware -/

def isSpace (c : Char) : Bool :=
  (9 ≤ c.toNat && c.toNat ≤ 13) || c.toNat == 32 || c.toNat == 0x85 || c.toNat == 0xA0 ||
    c.toNat == 0x1680 || (0x2000 ≤ c.toNat && c.toNat ≤ 0x200A) || c.toNat == 0x2028 ||
    c.toNat == 0x2029 || c.toNat == 0x202F || c.toNat == 0x205F || c.toNat == 0x3000

def trimSpace (s : String) : String := String.ofList (Framing.strip isSpace s.toList)

def Request.origin (r : Request) : String := r.header.get "Origin"

def originSet (allowedOrigins : List String) : List String := allowedOrigins.map trimSpace

def allowAny (allowedOrigins : List String) : Bool := (originSet allowedOrigins).contains "*"

/-- the condition on the request's origin -/
def corsAllows (allowedOrigins : List String) (origin : String) : Bool :=
  origin != "" && (allowAny allowedOrigins || (originSet allowedOrigins).contains origin)

/-- what `CORSMiddleware` sets on the writer it passes on -/
def corsHeader (allowedOrigins : List String) (r : Request) : Header :=
  if corsAllows allowedOrigins r.origin then
    Header.set (Header.set (Header.set (Header.set (Header.set []
      "Access-Control-Allow-Origin" r.origin)
      "Access-Control-Allow-Methods" "GET, POST, PUT, DELETE, OPTIONS")
      "Access-Control-Allow-Headers"
        "Content-Type, Authorization, X-Internal-Key, X-Admin-Passcode, X-Admin-Secret")
      "Access-Control-Allow-Credentials" "true")
      "Access-Control-Max-Age" "3600"
  else []

/-- the name of the header that carries the origin -/
def acao : String := "Access-Control-Allow-Origin"

namespace Header

theorem values_del_ne {h : Header} {n m : String} (hne : n ≠ m) : values (del h n) m = values h m := by
  unfold values del
  rw [List.filterMap_filter]
  refine congrArg (List.filterMap · h) (funext ?_)
  intro p
  by_cases hp : p.1 = m
  · simp [hp, hne.symm]
  · simp [hp]

theorem values_add_ne {h : Header} {n m v : String} (hne : n ≠ m) :
    values (add h n v) m = values h m := by
  unfold add
  rw [values_append]
  simp [values, hne]

theorem values_set_ne {h : Header} {n m v : String} (hne : n ≠ m) :
    values (set h n v) m = values h m := by
  unfold set
  rw [values_add_ne hne, values_del_ne hne]

end Header

/-- an allowed origin is named once, and no other -/
theorem corsHeader_origin (allowedOrigins : List String) (r : Request) :
    (corsHeader allowedOrigins r).values acao =
      if corsAllows allowedOrigins r.origin then [r.origin] else [] := by
  unfold corsHeader
  split
  · rw [Header.values_set_ne (by decide), Header.values_set_ne (by decide),
      Header.values_set_ne (by decide), Header.values_set_ne (by decide)]
    simp [Header.set, Header.add, Header.del, Header.values, acao]
  · rfl

theorem corsHeader_contentType (allowedOrigins : List String) (r : Request) :
    (corsHeader allowedOrigins r).values "Content-Type" = [] := by
  unfold corsHeader
  split
  · rw [Header.values_set_ne (by decide), Header.values_set_ne (by decide),
      Header.values_set_ne (by decide), Header.values_set_ne (by decide),
      Header.values_set_ne (by decide)]
    rfl
  · rfl

/-! ## ProxyRoute -/

/-- `strings.HasPrefix(strings.ToLower(h), "access-control-")` -/
def isCorsHeader (name : String) : Bool :=
  "access-control-".toList.isPrefixOf (name.toList.map Char.toLower)

/-- `proxy.ModifyResponse` -/
def modifyResponse (h : Header) : Header := h.filter fun p => !isCorsHeader p.1

/-- the upstream's response as the proxy copies it -/
def Reply.modified (p : Reply) : Reply := { p with header := modifyResponse p.header }

def errorHandler : List RwAct :=
  [.set "Content-Type" "application/json", .writeHeader 502,
    .write (ascii "\x7b\"error\": \"Service unavailable\"\x7d")]

/-- what the proxy may do with its writer: the upstream is not reachable, or its response is copied,
and the copy may break off -/
def proxyRoute : Backend :=
  { acts := fun _ h => h <+: errorHandler ∨ ∃ p : Reply, p.modified.Begun h
    acts_nil := fun _ => .inl List.nil_prefix
    acts_closed := by
      rintro r h a (hp | ⟨p, hp⟩)
      · exact .inl ((List.prefix_append h [a]).trans hp)
      · exact .inr ⟨p, Reply.begun_of_snoc hp⟩
    returns := fun _ h => h = errorHandler ∨ ∃ p : Reply, p.modified.Ended h
    panics := fun _ h => ∃ p : Reply, p.modified.Begun h }

/-! ## the stack -/

def corsConfig (allowedOrigins : List String) (ttl : Int) (ttl_pos : 0 < ttl) : Config :=
  { ttl, ttl_pos
    outer := corsHeader allowedOrigins
    outer_contentType := corsHeader_contentType allowedOrigins }

/-- a preflight is answered by `CORSMiddleware` itself -/
def preflight (cfg : Config) (r : Request) : Thread :=
  { req := r
    cc := { writer := ((cfg.fresh r).writer.writeHeader 204).finish }
    trace := []
    pc := .finished .returned }

def stack (cfg : Config) : Sys ResponseCache Thread Request Nat Op :=
  { middleware cfg with
    start := fun r => if r.method = ascii "OPTIONS" then preflight cfg r else cfg.start r }

end Gateway
