import Purrlington.Gateway.Url
import Purrlington.Gateway.Cors
import Purrlington.Gateway.Pool

/-!
# Gateway: the routes to the services

`ProxyRoute` and `PooledProxyRoute`, from the wildcard on that chi passes them.  A request header is as the handler hands
it to the reverse proxy, a response header as ModifyResponse sees it; a body comes in pieces.

* `ReverseProxy.serveHTTP` what is sent to the target, and what the client gets;
* `proxyRouteHandler`, `pooledProxyRouteHandler`   the two handlers;
* `pooled_as_single_iff`   they do the same unless the target answers with a CORS header;
* `pooled_origin_twice`    a pooled beach: the client is told two origins.
-/

set_option linter.unusedSectionVars false

namespace Gateway
open Percent

/-! ## requests, responses, reverse proxies -/

/-- `requestID` is what `middleware.GetReqID` finds in the context -/
structure HttpRequest where
  method : Bytes
  url : URL
  host : String
  header : Header
  body : Bytes
  requestID : String
  deriving DecidableEq

structure Response where
  status : Nat
  header : Header
  body : List Bytes

structure ReverseProxy where
  target : URL
  modifyResponse : Header → Header
  errorHandler : List RwAct
  flushInterval : Int

/-- httputil's default: responses as they are, an empty 502, no flushing -/
def newSingleHostReverseProxy (target : URL) : ReverseProxy :=
  { target, modifyResponse := id, errorHandler := [.writeHeader 502], flushInterval := 0 }

/-- what a request leads to: the request that the target gets, and the status line with its header
and the body that the client gets -/
structure Outcome where
  forwarded : HttpRequest
  sent : Option (Nat × Header)
  body : Bytes
  deriving DecidableEq

namespace ReverseProxy

/-- the header is copied, then the status, then the body piece by piece -/
def copyResponse (p : ReverseProxy) (res : Response) : List RwAct :=
  (p.modifyResponse res.header).map (fun q => .add q.1 q.2) ++
    .writeHeader res.status ::
      res.body.flatMap fun b => .write b :: if p.flushInterval < 0 then [.flush] else []

/-- `outer` is the header that the middleware has set, `answer` the target's response unless it is
unreachable -/
def serveHTTP (p : ReverseProxy) (req : HttpRequest) (outer : Header) (answer : Option Response) :
    Outcome :=
  let acts := match answer with
    | none => p.errorHandler
    | some res => p.copyResponse res
  let w := (acts.foldl ResponseWriter.act { header := outer }).finish
  { forwarded := { req with url := rewriteRequestURL req.url p.target }
    sent := w.sent
    body := w.body }

end ReverseProxy

/-! ## the handlers -/

/-- the wildcard part after /api/<service>, with a leading slash -/
def wildcardPath (wildcard : Bytes) : Bytes :=
  if wildcard = [] then [47]
  else if !startsWithSlash wildcard then 47 :: wildcard
  else wildcard

/-- the rewrite of the request, of which each handler has its own copy -/
def rewrite (target : URL) (wildcard : Bytes) (req : HttpRequest) : HttpRequest :=
  { req with
    url := { req.url with
      scheme := target.scheme
      host := target.host
      path := wildcardPath wildcard }
    host := target.host
    header := req.header.set "X-Request-Id" req.requestID }

/-- the proxy in `ProxyRoute` -/
def singleProxy (target : URL) : ReverseProxy :=
  { newSingleHostReverseProxy target with
    modifyResponse := modifyResponse
    errorHandler := errorHandler
    flushInterval := -1 }

/-- the handler in `ProxyRoute` -/
def proxyRouteHandler (target : URL) (wildcard : Bytes) (req : HttpRequest) (outer : Header)
    (answer : Option Response) : Outcome :=
  (singleProxy target).serveHTTP (rewrite target wildcard req) outer answer

/-- the service URLs of a pool, at least one and a uint32 of them -/
structure Targets where
  urls : List URL
  pos : 0 < urls.length
  small : urls.length < 2^32

namespace Targets

/-- the pool's counter at `next` -/
def pool (ts : Targets) (next : UInt32) : ProxyPool := ⟨ts.urls.length, ts.pos, ts.small, next⟩

/-- `pool.targets[pool.pick()]` -/
def picked (ts : Targets) (next : UInt32) : URL :=
  ts.urls.get ⟨(ts.pool next).pick.1, (ts.pool next).pick_fst_lt⟩

end Targets

/-- `NewProxyPool`, its `proxies` -/
def newProxyPool (ts : Targets) : List ReverseProxy :=
  ts.urls.map fun target =>
    { newSingleHostReverseProxy target with
      errorHandler := errorHandler
      flushInterval := -1 }

/-- `pool.proxies[pool.pick()]` -/
def Targets.pickedProxy (ts : Targets) (next : UInt32) : ReverseProxy :=
  (newProxyPool ts).get ⟨(ts.pool next).pick.1, by
    rw [newProxyPool, List.length_map]
    exact (ts.pool next).pick_fst_lt⟩

/-- the handler in `PooledProxyRoute` -/
def pooledProxyRouteHandler (ts : Targets) (next : UInt32) (wildcard : Bytes) (req : HttpRequest)
    (outer : Header) (answer : Option Response) : Outcome :=
  (ts.pickedProxy next).serveHTTP (rewrite (ts.picked next) wildcard req) outer answer

/-! ## a pooled route and a single-host route -/

theorem Targets.pickedProxy_eq (ts : Targets) (next : UInt32) :
    ts.pickedProxy next =
      { newSingleHostReverseProxy (ts.picked next) with
        errorHandler := errorHandler
        flushInterval := -1 } := by
  unfold Targets.pickedProxy newProxyPool Targets.picked
  simp

namespace ResponseWriter

theorem foldl_add (w : ResponseWriter) (h : Header) :
    (h.map fun q => RwAct.add q.1 q.2).foldl act w = { w with header := w.header ++ h } := by
  induction h generalizing w with
  | nil =>
    rw [List.append_nil]
    rfl
  | cons q h ih =>
    rw [List.map_cons, List.foldl_cons, ih]
    show ({ w with header := (w.header ++ [(q.1, q.2)]) ++ h } : ResponseWriter) = _
    rw [List.append_assoc]
    rfl

/-- the status line carries this header, or it is not yet written -/
def Carries (w : ResponseWriter) (h : Header) : Prop :=
  w.header = h ∧ ∀ p, w.sent = some p → p.2 = h

theorem Carries.writeHeader {w : ResponseWriter} {h : Header} (hw : w.Carries h) (code : Nat) :
    (w.writeHeader code).Carries h := by
  refine ⟨?_, ?_⟩
  · rw [writeHeader_header]
    exact hw.1
  · intro p hp
    rcases writeHeader_sent hp with hp | e
    · exact hw.2 p hp
    · rw [e]
      exact hw.1

theorem Carries.act {w : ResponseWriter} {h : Header} (hw : w.Carries h) {a : RwAct}
    (ha : a.isBody = true ∨ ∃ code, a = .writeHeader code) : (w.act a).Carries h := by
  cases a with
  | writeHeader code => exact hw.writeHeader code
  | write b => exact hw.writeHeader 200
  | flush => exact hw.writeHeader 200
  | add _ _ | set _ _ | del _ =>
    rcases ha with ha | ⟨_, ha⟩
    · exact absurd ha Bool.false_ne_true
    · exact absurd ha (by simp)

theorem Carries.foldl {w : ResponseWriter} {h : Header} (hw : w.Carries h) {as : List RwAct}
    (ha : ∀ a ∈ as, a.isBody = true ∨ ∃ code, a = .writeHeader code) :
    (as.foldl ResponseWriter.act w).Carries h := by
  induction as generalizing w with
  | nil => exact hw
  | cons a as ih =>
    exact ih (hw.act (ha a List.mem_cons_self)) fun b hb => ha b (List.mem_cons_of_mem _ hb)

end ResponseWriter

/-- the client gets the middleware's header, and behind it the response's as modified -/
theorem ReverseProxy.serveHTTP_header (p : ReverseProxy) (req : HttpRequest) (outer : Header)
    (res : Response) :
    ∃ status, (p.serveHTTP req outer (some res)).sent =
      some (status, outer ++ p.modifyResponse res.header) := by
  have hc : ((p.copyResponse res).foldl ResponseWriter.act { header := outer }).Carries
      (outer ++ p.modifyResponse res.header) := by
    unfold copyResponse
    rw [List.foldl_append, ResponseWriter.foldl_add]
    refine ResponseWriter.Carries.foldl ⟨rfl, fun q hq => absurd hq (by simp)⟩ fun a ha => ?_
    rcases List.mem_cons.mp ha with rfl | ha
    · exact .inr ⟨_, rfl⟩
    · obtain ⟨b, _, hb⟩ := List.mem_flatMap.mp ha
      rcases List.mem_cons.mp hb with rfl | hb
      · exact .inl rfl
      · split at hb
        · obtain rfl := List.mem_singleton.mp hb
          exact .inl rfl
        · exact absurd hb (by simp)
  obtain ⟨q, hq, _⟩ := ResponseWriter.finish_sent
    ((p.copyResponse res).foldl ResponseWriter.act { header := outer })
  have h2 : q.2 = outer ++ p.modifyResponse res.header := (hc.writeHeader 200).2 q hq
  exact ⟨q.1, hq.trans (by rw [← h2])⟩

theorem ReverseProxy.serveHTTP_congr {p p' : ReverseProxy} (req : HttpRequest) (outer : Header)
    {answer : Option Response} (ht : p.target = p'.target) (he : p.errorHandler = p'.errorHandler)
    (hf : p.flushInterval = p'.flushInterval)
    (hm : ∀ res, answer = some res → p.modifyResponse res.header = p'.modifyResponse res.header) :
    p.serveHTTP req outer answer = p'.serveHTTP req outer answer := by
  unfold serveHTTP
  cases answer with
  | none => rw [ht, he]
  | some res =>
    dsimp only
    rw [ht, copyResponse, copyResponse, hf, hm res rfl]

theorem modifyResponse_eq_self_iff (h : Header) :
    modifyResponse h = h ↔ ∀ p ∈ h, isCorsHeader p.1 = false := by
  unfold modifyResponse
  rw [List.filter_eq_self]
  simp

/-- the two handlers always send the same request on -/
theorem pooled_forwards_as_single (ts : Targets) (next : UInt32) (wildcard : Bytes)
    (req : HttpRequest) (outer : Header) (answer : Option Response) :
    (pooledProxyRouteHandler ts next wildcard req outer answer).forwarded =
      (proxyRouteHandler (ts.picked next) wildcard req outer answer).forwarded := by
  unfold pooledProxyRouteHandler
  rw [ts.pickedProxy_eq]
  rfl

/-- **A pooled route does what the single-host route to the picked target does, exactly if the
target is unreachable or its response has no CORS header.** -/
theorem pooled_as_single_iff (ts : Targets) (next : UInt32) (wildcard : Bytes) (req : HttpRequest)
    (outer : Header) (answer : Option Response) :
    pooledProxyRouteHandler ts next wildcard req outer answer =
        proxyRouteHandler (ts.picked next) wildcard req outer answer ↔
      ∀ res, answer = some res → ∀ p ∈ res.header, isCorsHeader p.1 = false := by
  unfold pooledProxyRouteHandler proxyRouteHandler
  rw [ts.pickedProxy_eq]
  constructor
  · rintro e res rfl
    obtain ⟨status, h⟩ := ReverseProxy.serveHTTP_header
      { newSingleHostReverseProxy (ts.picked next) with errorHandler, flushInterval := -1 }
      (rewrite (ts.picked next) wildcard req) outer res
    obtain ⟨status', h'⟩ := (singleProxy (ts.picked next)).serveHTTP_header
      (rewrite (ts.picked next) wildcard req) outer res
    rw [e, h'] at h
    have hh : outer ++ modifyResponse res.header = outer ++ res.header :=
      (Prod.mk.inj (Option.some.inj h)).2
    exact (modifyResponse_eq_self_iff _).mp (List.append_cancel_left hh)
  · intro h
    exact ReverseProxy.serveHTTP_congr _ _ rfl rfl rfl
      fun res hres => ((modifyResponse_eq_self_iff _).mpr (h res hres)).symm

/-- beach with two instances -/
def beachPool : Targets :=
  { urls := [{ scheme := "http", host := "beach-a:3002" }, { scheme := "http", host := "beach-b:3002" }]
    pos := by decide
    small := by decide }

/-- the frontend asks for the activities, beach answers for any origin -/
def activitiesRequest : HttpRequest :=
  { method := ascii "GET"
    url := { path := ascii "/api/beach/activities" }
    host := "localhost:8000"
    header := [("Origin", "http://localhost:5173")]
    body := []
    requestID := "r1" }

def anyOrigin : Response :=
  { status := 200, header := [(acao, "*")], body := [ascii "[]"] }

/-- behind the middleware's own header the pooled route lets the upstream's through -/
theorem pooled_origin_twice :
    pooledProxyRouteHandler beachPool 0 (ascii "activities") activitiesRequest
        [(acao, "http://localhost:5173")] (some anyOrigin) ≠
      proxyRouteHandler (beachPool.picked 0) (ascii "activities") activitiesRequest
        [(acao, "http://localhost:5173")] (some anyOrigin) := by
  intro e
  have hp : (pooledProxyRouteHandler beachPool 0 (ascii "activities") activitiesRequest
      [(acao, "http://localhost:5173")] (some anyOrigin)).sent =
        some (200, [(acao, "http://localhost:5173"), (acao, "*")]) := rfl
  have hs : (proxyRouteHandler (beachPool.picked 0) (ascii "activities") activitiesRequest
      [(acao, "http://localhost:5173")] (some anyOrigin)).sent =
        some (200, [(acao, "http://localhost:5173")]) := by decide +kernel
  rw [e, hs] at hp
  exact absurd hp (by simp)

end Gateway
