import Purrlington.Gateway.Query
import Purrlington.Lib.Pool
import Mathlib.Data.List.AList
import Mathlib.Data.List.Induction

/-!
# Gateway: the cache middleware as a system of requests

`CacheMiddleware` with ttl > 0, every request a thread.  Each critical section, each operation of
the backend's handler on the response writer, and each of the three effects of `finishFlight` is a
step of its own; the clock moves between any two steps.

* `CacheCapture`     the writer that tees a cacheable response;
* `ResponseCache`    entries, flights in progress, and the flights ever made (`heap`);
* `Pc`, `go`         where a request stands and what it does next;
* `Backend`          what the handler behind the middleware may do, and `Conforms`;
* `Moves`, `step_moves`   everything one step can do, guards included.
-/

set_option linter.unusedSectionVars false

namespace Gateway
open SM

/-! ## the capturing writer -/

/-- an operation of a handler on its response writer -/
inductive RwAct where
  | add (name value : String)
  | set (name value : String)
  | del (name : String)
  | writeHeader (code : Nat)
  | write (b : Bytes)
  | flush
  deriving DecidableEq, Repr

def ResponseWriter.act (w : ResponseWriter) : RwAct → ResponseWriter
  | .add name value => { w with header := w.header.add name value }
  | .set name value => { w with header := w.header.set name value }
  | .del name => { w with header := w.header.del name }
  | .writeHeader code => w.writeHeader code
  | .write b => w.write b
  | .flush => w.flush

/-- `strings.HasPrefix(ct, "text/event-stream")` -/
def isEventStream (ct : String) : Bool := "text/event-stream".toList.isPrefixOf ct.toList

structure CacheCapture where
  writer : ResponseWriter
  buf : Bytes := []
  status : Nat := 0
  cacheable : Bool := false
  decided : Bool := false
  deriving DecidableEq, Repr

namespace CacheCapture

/-- cacheability is decided on the first `WriteHeader`, interim statuses included -/
def decideOn (c : CacheCapture) (code : Nat) : CacheCapture :=
  if c.decided then c
  else { c with
    status := code
    cacheable := code == 200 && !isEventStream (c.writer.header.get "Content-Type")
    decided := true }

theorem decideOn_first {c : CacheCapture} (h : c.decided = false) (code : Nat) :
    c.decideOn code = { c with
      status := code
      cacheable := code == 200 && !isEventStream (c.writer.header.get "Content-Type")
      decided := true } := by
  unfold decideOn
  rw [h, if_neg Bool.false_ne_true]

def writeHeader (c : CacheCapture) (code : Nat) : CacheCapture :=
  let c := c.decideOn code
  { c with writer := c.writer.writeHeader code }

def write (c : CacheCapture) (b : Bytes) : CacheCapture :=
  let c := if c.decided then c else c.writeHeader 200
  let c := if c.cacheable then { c with buf := c.buf ++ b } else c
  { c with writer := c.writer.write b }

/-- a flush goes past the capture, straight to the wrapped writer -/
def flush (c : CacheCapture) : CacheCapture := { c with writer := c.writer.flush }

def act (c : CacheCapture) : RwAct → CacheCapture
  | .writeHeader code => c.writeHeader code
  | .write b => c.write b
  | .flush => c.flush
  | a => { c with writer := c.writer.act a }

def acts (c : CacheCapture) (as : List RwAct) : CacheCapture := as.foldl act c

/-- decided, and against sharing -/
def Unshareable (c : CacheCapture) : Prop := c.decided = true ∧ c.cacheable = false

instance (c : CacheCapture) : Decidable c.Unshareable := inferInstanceAs (Decidable (_ ∧ _))

end CacheCapture

/-! ## the shared state -/

structure CacheEntry where
  status : Nat
  header : Header
  body : Bytes
  expires : Int
  deriving DecidableEq, Repr

/-- the zero value is what a leader that panics publishes -/
structure FlightResult where
  status : Nat := 0
  header : Header := []
  body : Bytes := []
  cacheable : Bool := false
  deriving DecidableEq, Repr

/-- `key` is a ghost: the key the flight was made for -/
structure Flight where
  key : Bytes
  done : Bool := false
  result : FlightResult := {}
  deriving DecidableEq, Repr

structure ResponseCache where
  entries : AList (fun _ : Bytes => CacheEntry)
  flights : AList (fun _ : Bytes => Nat)
  heap : List Flight
  now : Int

/-- a positive ttl, and the headers that the handlers in front of the middleware have set on the
writer it is given (no Content-Type among them) -/
structure Config where
  ttl : Int
  ttl_pos : 0 < ttl
  outer : Request → Header
  outer_contentType : ∀ r, (outer r).values "Content-Type" = []

namespace ResponseCache

def new (now : Int) : ResponseCache := ⟨∅, ∅, [], now⟩

/-- the live entry of a key -/
def live (c : ResponseCache) (key : Bytes) : Option CacheEntry :=
  (c.entries.lookup key).filter fun e => ¬ (c.now > e.expires)

/-- what `get` leaves behind: an expired entry is deleted -/
def expire (c : ResponseCache) (key : Bytes) : ResponseCache :=
  match c.entries.lookup key with
  | some e => if c.now > e.expires then { c with entries := c.entries.erase key } else c
  | none => c

def get (c : ResponseCache) (key : Bytes) : Option CacheEntry × ResponseCache :=
  (c.live key, c.expire key)

/-- `responseCache.beginFlight`: the flight of the key, and whether the caller leads it -/
def beginFlight (c : ResponseCache) (key : Bytes) : (Nat × Bool) × ResponseCache :=
  match c.flights.lookup key with
  | some fl => ((fl, false), c)
  | none =>
    let fl := c.heap.length
    ((fl, true), { c with flights := c.flights.insert key fl, heap := c.heap ++ [{ key }] })

def store (c : ResponseCache) (key : Bytes) (e : CacheEntry) : ResponseCache :=
  { c with entries := c.entries.insert key e }

/-- the three effects of `finishFlight`, in order -/
def publish (c : ResponseCache) (fl : Nat) (result : FlightResult) : ResponseCache :=
  { c with heap := c.heap.modify fl fun f => { f with result } }

def remove (c : ResponseCache) (key : Bytes) : ResponseCache :=
  { c with flights := c.flights.erase key }

def close (c : ResponseCache) (fl : Nat) : ResponseCache :=
  { c with heap := c.heap.modify fl fun f => { f with done := true } }

end ResponseCache

/-! ## requests in progress -/

/-- how a request came to call the backend -/
inductive Via where
  | bypass
  | own
  | lead (fl : Nat)
  deriving DecidableEq, Repr

/-- how the backend's handler ended -/
inductive Ending where
  | returned
  | panicked
  deriving DecidableEq, Repr

inductive Pc where
  | lookup
  | begin
  | wait (fl : Nat)
  | recheck (res : FlightResult)
  | fetch (via : Via)
  | stamp (fl : Nat) (result : FlightResult)
  | store (fl : Nat) (result : FlightResult) (expires : Int)
  | publish (fl : Nat) (result : FlightResult) (ending : Ending)
  | remove (fl : Nat) (ending : Ending)
  | close (fl : Nat) (ending : Ending)
  | finished (ending : Ending)
  deriving DecidableEq, Repr

/-- `cc` holds the request's writer (and its capture, on the paths that make one); `trace` is a
ghost, the operations of the backend's handler so far -/
structure Thread where
  req : Request
  cc : CacheCapture
  trace : List RwAct
  pc : Pc

/-- what a step of a request is: its own code goes on, or the backend's handler does something -/
inductive Op where
  | go
  | act (a : RwAct)
  | ret
  | crash
  deriving DecidableEq, Repr

/-- the capture a request would start with -/
def Config.fresh (cfg : Config) (r : Request) : CacheCapture := { writer := { header := cfg.outer r } }

def Config.start (cfg : Config) (r : Request) : Thread :=
  { req := r, cc := cfg.fresh r, trace := [],
    pc := if r.Safe then .lookup else .fetch .bypass }

namespace Thread

def finish (t : Thread) (e : Ending) : Thread :=
  match e with
  | .returned => { t with cc := { t.cc with writer := t.cc.writer.finish }, pc := .finished e }
  | .panicked => { t with pc := .finished e }

/-- `writeReplay`, and the handler returns -/
def writeReplay (t : Thread) (header : Header) (status : Nat) (body : Bytes) (tag : String) :
    Thread :=
  let w := { t.cc.writer with header := Header.set (t.cc.writer.header ++ header) "X-Cache" tag }
  finish { t with cc := { t.cc with writer := (w.writeHeader status).write body } } .returned

def replayEntry (t : Thread) (e : CacheEntry) : Thread :=
  t.writeReplay e.header e.status e.body "HIT"

def replayResult (t : Thread) (res : FlightResult) : Thread :=
  t.writeReplay res.header res.status res.body "HIT"

/-- the operations of a bypassing handler are not captured -/
def capture (t : Thread) (via : Via) (a : RwAct) : CacheCapture :=
  match via with
  | .bypass => { t.cc with writer := t.cc.writer.act a }
  | _ => t.cc.act a

/-- what the leader publishes when the handler returns -/
def flightResult (t : Thread) : FlightResult :=
  { status := t.cc.status, header := t.cc.writer.header, body := t.cc.buf,
    cacheable := t.cc.cacheable }

def go (cfg : Config) (c : ResponseCache) (t : Thread) : Option (ResponseCache × Thread) :=
  let key := t.req.cacheKey
  match t.pc with
  | .lookup =>
    match c.get key with
    | (some e, c) => some (c, t.replayEntry e)
    | (none, c) => some (c, { t with pc := .begin })
  | .begin =>
    match c.beginFlight key with
    | ((fl, false), c) => some (c, { t with pc := .wait fl })
    | ((fl, true), c) => some (c, { t with pc := .fetch (.lead fl) })
  | .wait fl => c.heap[fl]?.bind fun f =>
      -- a receive from `done` returns once the channel is closed
      if f.done then
        let res := f.result
        some (c, { t with pc := if res.cacheable then .recheck res else .fetch .own })
      else none
  | .recheck res =>
    match c.get key with
    | (some e, c) => some (c, t.replayEntry e)
    | (none, c) => some (c, t.replayResult res)
  | .fetch _ => none
  | .stamp fl result => some (c, { t with pc := .store fl result (c.now + cfg.ttl) })
  | .store fl result expires =>
    some (c.store key ⟨result.status, result.header, result.body, expires⟩,
      { t with pc := .publish fl result .returned })
  | .publish fl result ending => some (c.publish fl result, { t with pc := .remove fl ending })
  | .remove fl ending => some (c.remove key, { t with pc := .close fl ending })
  | .close fl ending => c.heap[fl]?.bind fun f =>
      -- closing a closed channel panics
      if f.done then some (c, t.finish .panicked) else some (c.close fl, t.finish ending)
  | .finished _ => none

/-- a step of a request -/
def step (cfg : Config) (c : ResponseCache) (t : Thread) (op : Op) :
    Option (ResponseCache × Thread) :=
  match op, t.pc with
  | .go, _ => t.go cfg c
  | .act a, .fetch via => some (c, { t with cc := t.capture via a, trace := t.trace ++ [a] })
  | .ret, .fetch (.lead fl) =>
    let result := t.flightResult
    some (c, { t with
      pc := if result.cacheable then .stamp fl result else .publish fl result .returned })
  | .ret, .fetch _ => some (c, t.finish .returned)
  | .crash, .fetch (.lead fl) => some (c, { t with pc := .publish fl {} .panicked })
  | .crash, .fetch _ => some (c, t.finish .panicked)
  | _, _ => none

end Thread

/-- the clock is the environment -/
def ResponseCache.tick (c : ResponseCache) (d : Nat) : ResponseCache := { c with now := c.now + d }

def middleware (cfg : Config) : Sys ResponseCache Thread Request Nat Op :=
  { start := cfg.start
    env := fun c d => some (c.tick d)
    step := fun c t op => t.step cfg c op }

abbrev State := Pool ResponseCache Thread

abbrev Acts := List (PoolAct Request Nat Op)

def init (now : Int) : State := ⟨.new now, []⟩

/-! ## the backend -/

/-- what the next handler may do for a request: the operations it may have performed so far, and
after which of them it may return or panic -/
structure Backend where
  acts : Request → List RwAct → Prop
  acts_nil : ∀ r, acts r []
  acts_closed : ∀ r h a, acts r (h ++ [a]) → acts r h
  returns : Request → List RwAct → Prop
  panics : Request → List RwAct → Prop

/-- the handler that a request calls behaves as the backend does -/
def Backend.allows (B : Backend) (t : Thread) : Op → Prop
  | .go => True
  | .act a => B.acts t.req (t.trace ++ [a])
  | .ret => B.returns t.req t.trace
  | .crash => B.panics t.req t.trace

abbrev Conforms (B : Backend) : State → PoolAct Request Nat Op → Prop := Local B.allows

/-! ## what a step can do -/

namespace Thread

/-- one constructor for each way a request can move -/
inductive Moves (cfg : Config) (c : ResponseCache) (t : Thread) :
    Op → ResponseCache → Thread → Prop
  | hit (e : CacheEntry) (hpc : t.pc = .lookup) (he : c.live t.req.cacheKey = some e) :
      Moves cfg c t .go (c.expire t.req.cacheKey) (t.replayEntry e)
  | miss (hpc : t.pc = .lookup) :
      Moves cfg c t .go (c.expire t.req.cacheKey) { t with pc := .begin }
  | follow (fl : Nat) (hpc : t.pc = .begin) (hfl : c.flights.lookup t.req.cacheKey = some fl) :
      Moves cfg c t .go c { t with pc := .wait fl }
  | lead (hpc : t.pc = .begin) (hfl : c.flights.lookup t.req.cacheKey = none) :
      Moves cfg c t .go
        { c with flights := c.flights.insert t.req.cacheKey c.heap.length,
                 heap := c.heap ++ [{ key := t.req.cacheKey }] }
        { t with pc := .fetch (.lead c.heap.length) }
  | released (fl : Nat) (f : Flight) (hpc : t.pc = .wait fl) (hf : c.heap[fl]? = some f)
      (hdone : f.done = true) (hc : f.result.cacheable = true) :
      Moves cfg c t .go c { t with pc := .recheck f.result }
  | refused (fl : Nat) (f : Flight) (hpc : t.pc = .wait fl) (hf : c.heap[fl]? = some f)
      (hdone : f.done = true) (hc : f.result.cacheable = false) :
      Moves cfg c t .go c { t with pc := .fetch .own }
  | rehit (res : FlightResult) (e : CacheEntry) (hpc : t.pc = .recheck res)
      (he : c.live t.req.cacheKey = some e) :
      Moves cfg c t .go (c.expire t.req.cacheKey) (t.replayEntry e)
  | share (res : FlightResult) (hpc : t.pc = .recheck res) :
      Moves cfg c t .go (c.expire t.req.cacheKey) (t.replayResult res)
  | stamp (fl : Nat) (res : FlightResult) (hpc : t.pc = .stamp fl res) :
      Moves cfg c t .go c { t with pc := .store fl res (c.now + cfg.ttl) }
  | store (fl : Nat) (res : FlightResult) (expires : Int) (hpc : t.pc = .store fl res expires) :
      Moves cfg c t .go (c.store t.req.cacheKey ⟨res.status, res.header, res.body, expires⟩)
        { t with pc := .publish fl res .returned }
  | publish (fl : Nat) (res : FlightResult) (ending : Ending) (hpc : t.pc = .publish fl res ending) :
      Moves cfg c t .go (c.publish fl res) { t with pc := .remove fl ending }
  | remove (fl : Nat) (ending : Ending) (hpc : t.pc = .remove fl ending) :
      Moves cfg c t .go (c.remove t.req.cacheKey) { t with pc := .close fl ending }
  | close (fl : Nat) (f : Flight) (ending : Ending) (hpc : t.pc = .close fl ending)
      (hf : c.heap[fl]? = some f) (hdone : f.done = false) :
      Moves cfg c t .go (c.close fl) (t.finish ending)
  | closeClosed (fl : Nat) (f : Flight) (ending : Ending) (hpc : t.pc = .close fl ending)
      (hf : c.heap[fl]? = some f) (hdone : f.done = true) :
      Moves cfg c t .go c (t.finish .panicked)
  | act (via : Via) (a : RwAct) (hpc : t.pc = .fetch via) :
      Moves cfg c t (.act a) c { t with cc := t.capture via a, trace := t.trace ++ [a] }
  | retShare (fl : Nat) (hpc : t.pc = .fetch (.lead fl)) (hc : t.cc.cacheable = true) :
      Moves cfg c t .ret c { t with pc := .stamp fl t.flightResult }
  | retLead (fl : Nat) (hpc : t.pc = .fetch (.lead fl)) (hc : t.cc.cacheable = false) :
      Moves cfg c t .ret c { t with pc := .publish fl t.flightResult .returned }
  | ret (via : Via) (hpc : t.pc = .fetch via) (hvia : via = .bypass ∨ via = .own) :
      Moves cfg c t .ret c (t.finish .returned)
  | crashLead (fl : Nat) (hpc : t.pc = .fetch (.lead fl)) :
      Moves cfg c t .crash c { t with pc := .publish fl {} .panicked }
  | crash (via : Via) (hpc : t.pc = .fetch via) (hvia : via = .bypass ∨ via = .own) :
      Moves cfg c t .crash c (t.finish .panicked)

section
variable {cfg : Config} {c : ResponseCache} {t : Thread} {p : ResponseCache × Thread}

theorem lookup_moves (hpc : t.pc = .lookup) (h : t.go cfg c = some p) : Moves cfg c t .go p.1 p.2 := by
  simp only [go, hpc, ResponseCache.get] at h
  cases he : c.live t.req.cacheKey with
  | some e =>
    rw [he] at h
    obtain rfl := Option.some.inj h
    exact .hit e hpc he
  | none =>
    rw [he] at h
    obtain rfl := Option.some.inj h
    exact .miss hpc

theorem begin_moves (hpc : t.pc = .begin) (h : t.go cfg c = some p) : Moves cfg c t .go p.1 p.2 := by
  simp only [go, hpc, ResponseCache.beginFlight] at h
  cases hfl : c.flights.lookup t.req.cacheKey with
  | some fl =>
    rw [hfl] at h
    obtain rfl := Option.some.inj h
    exact .follow fl hpc hfl
  | none =>
    rw [hfl] at h
    obtain rfl := Option.some.inj h
    exact .lead hpc hfl

theorem wait_moves {fl : Nat} (hpc : t.pc = .wait fl) (h : t.go cfg c = some p) :
    Moves cfg c t .go p.1 p.2 := by
  simp only [go, hpc] at h
  obtain ⟨f, hf, h⟩ := Option.bind_eq_some_iff.mp h
  cases hd : f.done with
  | false =>
    rw [hd] at h
    exact absurd h (by simp)
  | true =>
    rw [hd, if_pos rfl] at h
    obtain rfl := Option.some.inj h
    cases hc : f.result.cacheable with
    | true => exact .released fl f hpc hf hd hc
    | false => exact .refused fl f hpc hf hd hc

theorem recheck_moves {res : FlightResult} (hpc : t.pc = .recheck res) (h : t.go cfg c = some p) :
    Moves cfg c t .go p.1 p.2 := by
  simp only [go, hpc, ResponseCache.get] at h
  cases he : c.live t.req.cacheKey with
  | some e =>
    rw [he] at h
    obtain rfl := Option.some.inj h
    exact .rehit res e hpc he
  | none =>
    rw [he] at h
    obtain rfl := Option.some.inj h
    exact .share res hpc

theorem close_moves {fl : Nat} {ending : Ending} (hpc : t.pc = .close fl ending)
    (h : t.go cfg c = some p) : Moves cfg c t .go p.1 p.2 := by
  simp only [go, hpc] at h
  obtain ⟨f, hf, h⟩ := Option.bind_eq_some_iff.mp h
  cases hd : f.done with
  | false =>
    rw [hd] at h
    obtain rfl := Option.some.inj h
    exact .close fl f ending hpc hf hd
  | true =>
    rw [hd] at h
    obtain rfl := Option.some.inj h
    exact .closeClosed fl f ending hpc hf hd

theorem go_moves (h : t.go cfg c = some p) : Moves cfg c t .go p.1 p.2 := by
  cases hpc : t.pc with
  | lookup => exact lookup_moves hpc h
  | begin => exact begin_moves hpc h
  | wait fl => exact wait_moves hpc h
  | recheck res => exact recheck_moves hpc h
  | close fl ending => exact close_moves hpc h
  | stamp fl res =>
    simp only [go, hpc] at h
    obtain rfl := Option.some.inj h
    exact .stamp fl res hpc
  | store fl res expires =>
    simp only [go, hpc] at h
    obtain rfl := Option.some.inj h
    exact .store fl res expires hpc
  | publish fl res ending =>
    simp only [go, hpc] at h
    obtain rfl := Option.some.inj h
    exact .publish fl res ending hpc
  | remove fl ending =>
    simp only [go, hpc] at h
    obtain rfl := Option.some.inj h
    exact .remove fl ending hpc
  | fetch via =>
    simp only [go, hpc] at h
    exact absurd h (by simp)
  | finished ending =>
    simp only [go, hpc] at h
    exact absurd h (by simp)

end

theorem step_moves {cfg : Config} {c c' : ResponseCache} {t t' : Thread} {op : Op}
    (h : t.step cfg c op = some (c', t')) : Moves cfg c t op c' t' := by
  unfold step at h
  split at h
  · exact go_moves h
  · rename_i a via hpc
    obtain ⟨rfl, rfl⟩ := Prod.mk.inj (Option.some.inj h)
    exact .act via a hpc
  · rename_i fl hpc
    obtain ⟨rfl, rfl⟩ := Prod.mk.inj (Option.some.inj h)
    cases hc : t.flightResult.cacheable with
    | true =>
      rw [if_pos rfl]
      exact .retShare fl hpc hc
    | false =>
      rw [if_neg Bool.false_ne_true]
      exact .retLead fl hpc hc
  · rename_i via hne hpc
    obtain ⟨rfl, rfl⟩ := Prod.mk.inj (Option.some.inj h)
    exact .ret via hpc (by cases via with
      | bypass => exact .inl rfl
      | own => exact .inr rfl
      | lead fl => exact absurd rfl (hne fl))
  · rename_i fl hpc
    obtain ⟨rfl, rfl⟩ := Prod.mk.inj (Option.some.inj h)
    exact .crashLead fl hpc
  · rename_i via hne hpc
    obtain ⟨rfl, rfl⟩ := Prod.mk.inj (Option.some.inj h)
    exact .crash via hpc (by cases via with
      | bypass => exact .inl rfl
      | own => exact .inr rfl
      | lead fl => exact absurd rfl (hne fl))
  · exact absurd h (by simp)

end Thread

/-! ## steps of a request that is alone -/

section
variable {cfg : Config} {c : ResponseCache} {r : Request} {cc : CacheCapture} {tr : List RwAct}

theorem step_go_miss (h : c.entries.lookup r.cacheKey = none) :
    (middleware cfg).step c ⟨r, cc, tr, .lookup⟩ .go = some (c, ⟨r, cc, tr, .begin⟩) := by
  simp only [middleware, Thread.step, Thread.go, ResponseCache.get, ResponseCache.live, ResponseCache.expire, h, Option.filter_none]

theorem step_go_hit {e : CacheEntry} (h : c.entries.lookup r.cacheKey = some e) (hnow : c.now ≤ e.expires) :
    (middleware cfg).step c ⟨r, cc, tr, .lookup⟩ .go = some (c, Thread.replayEntry ⟨r, cc, tr, .lookup⟩ e) := by
  have hlive : c.live r.cacheKey = some e := by
    rw [ResponseCache.live, h, Option.filter_some, if_pos (by simpa using hnow)]
  have hexp : c.expire r.cacheKey = c := by
    simp only [ResponseCache.expire, h]
    exact if_neg (by omega)
  simp only [middleware, Thread.step, Thread.go, ResponseCache.get, hlive, hexp]

theorem step_go_lead (h : c.flights.lookup r.cacheKey = none) :
    (middleware cfg).step c ⟨r, cc, tr, .begin⟩ .go = some
      ({ c with flights := c.flights.insert r.cacheKey c.heap.length,
                heap := c.heap ++ [{ key := r.cacheKey }] },
        ⟨r, cc, tr, .fetch (.lead c.heap.length)⟩) := by
  simp only [middleware, Thread.step, Thread.go, ResponseCache.beginFlight, h]

theorem step_go_follow {fl : Nat} (h : c.flights.lookup r.cacheKey = some fl) :
    (middleware cfg).step c ⟨r, cc, tr, .begin⟩ .go = some (c, ⟨r, cc, tr, .wait fl⟩) := by
  simp only [middleware, Thread.step, Thread.go, ResponseCache.beginFlight, h]

theorem Thread.writeReplay_delivers {t : Thread} (ht : t.cc.writer.sent = none)
    (hb : t.cc.writer.body = []) {status : Nat} (hst : 200 ≤ status) (header : Header)
    (body : Bytes) (tag : String) :
    (t.writeReplay header status body tag).cc.writer.status = some status ∧
      (t.writeReplay header status body tag).cc.writer.body = body := by
  let w : ResponseWriter :=
    { t.cc.writer with header := Header.set (t.cc.writer.header ++ header) "X-Cache" tag }
  have hw : w.sent = none := ht
  have e : ((w.writeHeader status).write body).finish =
      { w with sent := some (status, w.header), body := w.body ++ body } := by
    rw [ResponseWriter.writeHeader_final hw hst, ResponseWriter.write_of_sent rfl]
    exact ResponseWriter.writeHeader_of_sent rfl 200
  show ((w.writeHeader status).write body).finish.status = _ ∧
    ((w.writeHeader status).write body).finish.body = _
  rw [e]
  refine ⟨rfl, ?_⟩
  show t.cc.writer.body ++ body = body
  rw [hb, List.nil_append]

end

theorem Backend.acts_left (B : Backend) {r : Request} {h k : List RwAct} (hk : B.acts r (h ++ k)) :
    B.acts r h := by
  induction k using List.reverseRecOn with
  | nil => rwa [List.append_nil] at hk
  | append_singleton k a ih =>
    rw [← List.append_assoc] at hk
    exact ih (B.acts_closed r _ a hk)

/-- a captured handler may perform operations of its backend while nothing else happens -/
theorem acts_steps (cfg : Config) {B : Backend} (c : ResponseCache) {r : Request} (fl : Nat)
    (cc : CacheCapture) (tr : List RwAct) {h : List RwAct} (hB : B.acts r (tr ++ h)) :
    (middleware cfg).Steps B.allows c ⟨r, cc, tr, .fetch (.lead fl)⟩ (h.map .act) c
      ⟨r, cc.acts h, tr ++ h, .fetch (.lead fl)⟩ := by
  induction h generalizing cc tr with
  | nil =>
    rw [List.append_nil]
    exact ⟨rfl, rfl⟩
  | cons a h ih =>
    rw [List.append_cons] at hB ⊢
    exact ⟨B.acts_left hB, c, ⟨r, cc.act a, tr ++ [a], .fetch (.lead fl)⟩, rfl, ih _ _ hB⟩

/-! ## captures -/

namespace CacheCapture

theorem acts_append (c : CacheCapture) (as bs : List RwAct) :
    c.acts (as ++ bs) = (c.acts as).acts bs := List.foldl_append

theorem acts_snoc (c : CacheCapture) (as : List RwAct) (a : RwAct) :
    c.acts (as ++ [a]) = (c.acts as).act a := acts_append c as [a]

end CacheCapture

/-! ## requests and their flights -/

namespace Pc

/-- the request has a writer of its own and a cacheable method -/
def captured : Pc → Bool
  | .fetch .bypass => false
  | .finished _ => false
  | _ => true

/-- the backend has not been called for the request -/
def idle : Pc → Bool
  | .lookup => true
  | .begin => true
  | .wait _ => true
  | .recheck _ => true
  | _ => false

/-- the flight the request waits on or leads -/
def flight : Pc → Option Nat
  | .wait fl => some fl
  | .fetch (.lead fl) => some fl
  | .stamp fl _ => some fl
  | .store fl _ _ => some fl
  | .publish fl _ _ => some fl
  | .remove fl _ => some fl
  | .close fl _ => some fl
  | _ => none

/-- the request leads the flight -/
def leads (pc : Pc) (fl : Nat) : Bool :=
  pc.flight == some fl && pc != .wait fl

end Pc

/-- a capture is what the backend's operations make of a fresh one -/
structure Thread.Traced (cfg : Config) (B : Backend) (t : Thread) : Prop where
  acts : B.acts t.req t.trace
  captured : t.pc.captured = true → t.req.Safe ∧ t.cc = (cfg.fresh t.req).acts t.trace
  idle : t.pc.idle = true → t.trace = []
  bypass : t.pc = .fetch .bypass → ¬ t.req.Safe

namespace Thread

theorem start_traced (cfg : Config) (B : Backend) (r : Request) : (cfg.start r).Traced cfg B := by
  refine ⟨B.acts_nil r, fun h => ?_, fun _ => rfl, fun h hs => ?_⟩
  · by_cases hs : r.Safe
    · exact ⟨hs, rfl⟩
    · rw [Config.start, if_neg hs] at h
      exact absurd h (by simp [Pc.captured])
  · replace hs : r.Safe := hs
    rw [Config.start, if_pos hs] at h
    exact absurd h (by simp)

variable {cfg : Config} {B : Backend}

theorem Traced.goto {t : Thread} {pc : Pc} (h : t.Traced cfg B) (hc : t.pc.captured = true)
    (hc' : pc.captured = true) (hi : pc.idle = true → t.pc.idle = true) :
    Traced cfg B { t with pc := pc } := by
  refine ⟨h.acts, fun _ => h.captured hc, fun hp => h.idle (hi hp), ?_⟩
  intro e
  replace e : pc = .fetch .bypass := e
  rw [e] at hc'
  exact absurd hc' (by simp [Pc.captured])

theorem Traced.finished {t : Thread} {e : Ending} (h : t.Traced cfg B) (cc : CacheCapture) :
    Traced cfg B { t with cc := cc, pc := .finished e } :=
  ⟨h.acts, fun hp => absurd hp (by simp [Pc.captured]), fun hp => absurd hp (by simp [Pc.idle]),
    fun hp => absurd hp (by simp)⟩

theorem Traced.finish {t : Thread} {e : Ending} (h : t.Traced cfg B) : (t.finish e).Traced cfg B := by
  cases e with
  | returned => exact h.finished _
  | panicked => exact h.finished t.cc

theorem Traced.act {t : Thread} {via : Via} {a : RwAct} (h : t.Traced cfg B)
    (hpc : t.pc = .fetch via) (hg : B.acts t.req (t.trace ++ [a])) :
    Traced cfg B { t with cc := t.capture via a, trace := t.trace ++ [a] } := by
  refine ⟨hg, fun hp => ?_, fun hp => ?_, h.bypass⟩
  · replace hp : t.pc.captured = true := hp
    obtain ⟨hs, hcc⟩ := h.captured hp
    refine ⟨hs, ?_⟩
    show t.capture via a = _
    rw [CacheCapture.acts_snoc, ← hcc]
    cases via with
    | bypass =>
      rw [hpc] at hp
      exact absurd hp (by simp [Pc.captured])
    | own => rfl
    | lead fl => rfl
  · replace hp : t.pc.idle = true := hp
    rw [hpc] at hp
    exact absurd hp (by simp [Pc.idle])

theorem Traced.step {c c' : ResponseCache} {t t' : Thread} {op : Op} (h : t.Traced cfg B)
    (hg : B.allows t op) (hm : Moves cfg c t op c' t') : t'.Traced cfg B := by
  cases hm with
  | hit e hpc he => exact h.finished _
  | miss hpc => exact h.goto (by rw [hpc]; rfl) rfl (fun _ => by rw [hpc]; rfl)
  | follow fl hpc hfl => exact h.goto (by rw [hpc]; rfl) rfl (fun _ => by rw [hpc]; rfl)
  | lead hpc hfl => exact h.goto (by rw [hpc]; rfl) rfl (fun hp => absurd hp (by simp [Pc.idle]))
  | released fl f hpc hf hdone hc =>
    exact h.goto (by rw [hpc]; rfl) rfl (fun _ => by rw [hpc]; rfl)
  | refused fl f hpc hf hdone hc =>
    exact h.goto (by rw [hpc]; rfl) rfl (fun hp => absurd hp (by simp [Pc.idle]))
  | rehit res e hpc he => exact h.finished _
  | share res hpc => exact h.finished _
  | stamp fl res hpc =>
    exact h.goto (by rw [hpc]; rfl) rfl (fun hp => absurd hp (by simp [Pc.idle]))
  | store fl res expires hpc =>
    exact h.goto (by rw [hpc]; rfl) rfl (fun hp => absurd hp (by simp [Pc.idle]))
  | publish fl res ending hpc =>
    exact h.goto (by rw [hpc]; rfl) rfl (fun hp => absurd hp (by simp [Pc.idle]))
  | remove fl ending hpc =>
    exact h.goto (by rw [hpc]; rfl) rfl (fun hp => absurd hp (by simp [Pc.idle]))
  | close fl f ending hpc hf hdone => exact h.finish
  | closeClosed fl f ending hpc hf hdone => exact h.finish
  | act via a hpc => exact h.act hpc hg
  | retShare fl hpc hc =>
    exact h.goto (by rw [hpc]; rfl) rfl (fun hp => absurd hp (by simp [Pc.idle]))
  | retLead fl hpc hc =>
    exact h.goto (by rw [hpc]; rfl) rfl (fun hp => absurd hp (by simp [Pc.idle]))
  | ret via hpc hvia => exact h.finish
  | crashLead fl hpc =>
    exact h.goto (by rw [hpc]; rfl) rfl (fun hp => absurd hp (by simp [Pc.idle]))
  | crash via hpc hvia => exact h.finish

end Thread

/-! ## flights keep their key -/

namespace ResponseCache

/-- the key a flight was made for -/
def keyAt (c : ResponseCache) (fl : Nat) : Option Bytes := c.heap[fl]?.map Flight.key

/-- flights are only added -/
def KeysLe (c c' : ResponseCache) : Prop := ∀ fl k, c.keyAt fl = some k → c'.keyAt fl = some k

theorem expire_heap (c : ResponseCache) (key : Bytes) : (c.expire key).heap = c.heap := by
  unfold expire
  split
  · split <;> rfl
  · rfl

theorem expire_flights (c : ResponseCache) (key : Bytes) :
    (c.expire key).flights = c.flights := by
  unfold expire
  split
  · split <;> rfl
  · rfl

theorem keysLe_of_heap {c c' : ResponseCache} (h : c'.heap = c.heap) : c.KeysLe c' := by
  intro fl k hk
  unfold keyAt at hk ⊢
  rw [h]
  exact hk

theorem keyAt_modify (l : List Flight) (g : Flight → Flight) (hg : ∀ f, (g f).key = f.key)
    (fl fl' : Nat) : (l.modify fl g)[fl']?.map Flight.key = l[fl']?.map Flight.key := by
  rw [List.getElem?_modify]
  cases l[fl']? with
  | none => rfl
  | some f =>
    show some (if fl = fl' then g f else f).key = some f.key
    split
    · rw [hg]
    · rfl

theorem publish_keyAt (c : ResponseCache) (fl fl' : Nat) (res : FlightResult) :
    (c.publish fl res).keyAt fl' = c.keyAt fl' :=
  keyAt_modify c.heap (fun f => { f with result := res }) (fun _ => rfl) fl fl'

theorem close_keyAt (c : ResponseCache) (fl fl' : Nat) : (c.close fl).keyAt fl' = c.keyAt fl' :=
  keyAt_modify c.heap (fun f => { f with done := true }) (fun _ => rfl) fl fl'

theorem keyAt_concat (c : ResponseCache) (flights : AList fun _ : Bytes => Nat) (f : Flight) :
    keyAt { c with flights := flights, heap := c.heap ++ [f] } c.heap.length = some f.key := by
  show (c.heap ++ [f])[c.heap.length]?.map Flight.key = some f.key
  rw [List.getElem?_concat_length]
  rfl

end ResponseCache

theorem Thread.Moves.keysLe {cfg : Config} {c c' : ResponseCache} {t t' : Thread} {op : Op}
    (h : Thread.Moves cfg c t op c' t') : c.KeysLe c' := by
  cases h with
  | hit e hpc he => exact ResponseCache.keysLe_of_heap (c.expire_heap _)
  | miss hpc => exact ResponseCache.keysLe_of_heap (c.expire_heap _)
  | rehit res e hpc he => exact ResponseCache.keysLe_of_heap (c.expire_heap _)
  | share res hpc => exact ResponseCache.keysLe_of_heap (c.expire_heap _)
  | lead hpc hfl =>
    intro fl k hk
    obtain ⟨f, hf, rfl⟩ := Option.map_eq_some_iff.mp hk
    show (c.heap ++ _)[fl]?.map Flight.key = _
    rw [List.getElem?_append_left (List.getElem?_eq_some_iff.mp hf).1, hf]
    rfl
  | publish fl res ending hpc => exact fun fl' k hk => (c.publish_keyAt fl fl' res).trans hk
  | close fl f ending hpc hf hdone => exact fun fl' k hk => (c.close_keyAt fl fl').trans hk
  | _ => exact ResponseCache.keysLe_of_heap rfl

/-! ## every run -/

/-- in every run, every capture is the trace of a backend's handler -/
theorem traced_of_runs {cfg : Config} {B : Backend} {now : Int} {s : State}
    {as : List (PoolAct Request Nat Op)}
    (h : (middleware cfg).machine.Runs (Conforms B) (init now) as s) :
    ∀ t ∈ s.threads, t.Traced cfg B := by
  have hinv := Sys.inv (I := fun _ => True) (T := fun _ t => t.Traced cfg B) h
    (fun _ r _ => Thread.start_traced cfg B r)
    (fun _ _ _ _ _ => ⟨trivial, fun _ hu => hu⟩)
    (fun s i a t c' t' hs hg ht hst => ⟨trivial,
      (hs.threads t (List.mem_of_getElem? ht)).step (hg t ht) (Thread.step_moves hst),
      fun _ hu => hu⟩)
    ⟨trivial, fun t ht => absurd ht (by simp [init])⟩
  exact hinv.threads

/-! ## a small configuration -/

/-- a gateway with a cache and nothing in front of it -/
def plainConfig : Config :=
  { ttl := 5, ttl_pos := by decide, outer := fun _ => [], outer_contentType := fun _ => rfl }

def gatesRequest (header : Header) : Request :=
  getRequest (u := { path := ascii "/api/airport/gates" }) "/api/airport/gates" (by decide +kernel) header

end Gateway
