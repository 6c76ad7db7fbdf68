import Purrlington.Gateway.Cache

/-!
# Gateway: whose answer a request receives

Behind the middleware is a service whose answer to a GET or HEAD request is a function of method,
path, query and the X-Admin-Passcode header, as parrot's guarded routes are.  What is forwarded of
path and query is how they were sent; the cache key has the method, the decoded path and the parsed
query.

* `Reply`, `Service`       the answers, and the backend that gives them piece by piece;
* `OwnAnswers`             in every run, every request receives the answer to itself;
* `own_answers_iff`        this holds exactly when an answer that can be shared depends on nothing
                           that the key leaves out;
* `guarded_leaked`         a run that hands a guarded answer to a request without the passcode.
-/

set_option linter.unusedSectionVars false

namespace Gateway
open SM

/-! ## services -/

/-- a complete answer; interim statuses are not answers -/
structure Reply where
  status : Nat
  header : Header
  body : Bytes
  final : 200 ≤ status

def RwAct.written : RwAct → Bytes
  | .write b => b
  | _ => []

def RwAct.isBody : RwAct → Bool
  | .write _ => true
  | .flush => true
  | _ => false

namespace Reply

/-- the header is copied and the status written -/
def head (p : Reply) : List RwAct :=
  p.header.map (fun q => .add q.1 q.2) ++ [.writeHeader p.status]

def Begun (p : Reply) (h : List RwAct) : Prop :=
  h <+: p.head ∨ ∃ bs, h = p.head ++ bs ∧ (∀ a ∈ bs, a.isBody = true) ∧
    bs.flatMap RwAct.written <+: p.body

/-- the handler has copied all of it -/
def Ended (p : Reply) (h : List RwAct) : Prop :=
  ∃ bs, h = p.head ++ bs ∧ (∀ a ∈ bs, a.isBody = true) ∧ bs.flatMap RwAct.written = p.body

/-- what the middleware may share -/
def Shareable (p : Reply) : Prop :=
  p.status = 200 ∧ isEventStream (p.header.get "Content-Type") = false

/-- the same status and body -/
def Same (p q : Reply) : Prop := p.status = q.status ∧ p.body = q.body

theorem begun_of_snoc {p : Reply} {h : List RwAct} {a : RwAct} (hb : p.Begun (h ++ [a])) :
    p.Begun h := by
  rcases hb with hb | ⟨bs, e, hbody, hpre⟩
  · exact .inl ((List.prefix_append h [a]).trans hb)
  · induction bs using List.reverseRecOn with
    | nil =>
      rw [List.append_nil] at e
      exact .inl (e ▸ List.prefix_append h [a])
    | append_singleton bs b _ =>
      rw [← List.append_assoc] at e
      obtain ⟨rfl, _⟩ := List.append_inj' e rfl
      refine .inr ⟨bs, rfl, fun x hx => hbody x (List.mem_append_left _ hx), ?_⟩
      rw [List.flatMap_append] at hpre
      exact (List.prefix_append _ _).trans hpre

/-- an answer in one piece -/
def script (p : Reply) : List RwAct := p.head ++ [.write p.body]

theorem ended_script (p : Reply) : p.Ended p.script := by
  refine ⟨[.write p.body], rfl, fun a ha => ?_, ?_⟩
  · obtain rfl := List.mem_singleton.mp ha
    rfl
  · rw [List.flatMap_singleton]
    rfl

theorem begun_of_ended {p : Reply} {h : List RwAct} (he : p.Ended h) : p.Begun h := by
  obtain ⟨bs, e, hb, hw⟩ := he
  exact .inr ⟨bs, e, hb, hw ▸ List.prefix_refl _⟩

end Reply

/-- the answer to a GET or HEAD request, by method, URL and passcode: of the URL a backend may see
the path and the query as they were sent -/
abbrev Service := Bytes → URL → String → Reply

namespace Service

def reply (f : Service) (r : Request) : Reply := f r.method r.url r.passcode

/-- other methods are not restricted -/
def backend (f : Service) : Backend :=
  { acts := fun r h => r.Safe → (f.reply r).Begun h
    acts_nil := fun _ _ => .inl List.nil_prefix
    acts_closed := fun _ _ _ h hs => Reply.begun_of_snoc (h hs)
    returns := fun r h => r.Safe → (f.reply r).Ended h
    panics := fun r _ => ¬ r.Safe }

/-- an answer that can be shared is the same for every passcode, and however the path and the query
were sent -/
def Indifferent (f : Service) : Prop :=
  ∀ r r' : Request, r.Safe → r.Alike r' → (f.reply r).Shareable → (f.reply r).Same (f.reply r')

end Service

/-- a finished request has received this answer -/
def Thread.Received (t : Thread) (p : Reply) : Prop :=
  t.cc.writer.status = some p.status ∧ t.cc.writer.body = p.body

/-- in every run every GET or HEAD request that is answered receives its own answer -/
def OwnAnswers (cfg : Config) (f : Service) : Prop :=
  ∀ now as s, (middleware cfg).machine.Runs (Conforms f.backend) (init now) as s →
    ∀ t ∈ s.threads, t.req.Safe → t.pc = .finished .returned → t.Received (f.reply t.req)

/-! ## captures of a complete answer -/

namespace CacheCapture

theorem acts_add (c : CacheCapture) (h : Header) :
    c.acts (h.map fun q => .add q.1 q.2) =
      { c with writer := { c.writer with header := c.writer.header ++ h } } := by
  induction h generalizing c with
  | nil =>
    rw [List.append_nil]
    rfl
  | cons q h ih =>
    rw [List.map_cons]
    show (c.act (.add q.1 q.2)).acts _ = _
    rw [ih]
    show ({ c with writer := _ } : CacheCapture) = _
    simp [act, ResponseWriter.act, Header.add]

theorem writeHeader_first {c : CacheCapture} (hd : c.decided = false) (hs : c.writer.sent = none)
    {code : Nat} (hc : 200 ≤ code) :
    c.writeHeader code = { c with
      writer := { c.writer with sent := some (code, c.writer.header) }
      status := code
      cacheable := code == 200 && !isEventStream (c.writer.header.get "Content-Type")
      decided := true } := by
  unfold writeHeader
  rw [decideOn_first hd]
  simp only [ResponseWriter.writeHeader_final hs hc]

/-- bytes that go to the client and, if the response can be shared, to the buffer -/
def tee (c : CacheCapture) (b : Bytes) : CacheCapture :=
  { c with
    buf := if c.cacheable then c.buf ++ b else c.buf
    writer := { c.writer with body := c.writer.body ++ b } }

theorem tee_nil (c : CacheCapture) : c.tee [] = c := by
  unfold tee
  rw [List.append_nil, List.append_nil, ite_self]

theorem tee_tee (c : CacheCapture) (b b' : Bytes) : (c.tee b).tee b' = c.tee (b ++ b') := by
  unfold tee
  cases hc : c.cacheable with
  | true => simp
  | false => simp

theorem write_sent {c : CacheCapture} {p : Nat × Header} (hd : c.decided = true)
    (hs : c.writer.sent = some p) (b : Bytes) : c.write b = c.tee b := by
  unfold write tee ResponseWriter.write
  rw [if_pos hd]
  cases hc : c.cacheable with
  | true => simp [ResponseWriter.writeHeader_of_sent hs, hc]
  | false => simp [ResponseWriter.writeHeader_of_sent hs, hc]

theorem flush_sent {c : CacheCapture} {p : Nat × Header} (hs : c.writer.sent = some p) :
    c.flush = c := by
  unfold flush ResponseWriter.flush
  rw [ResponseWriter.writeHeader_of_sent hs]

theorem acts_body {c : CacheCapture} {p : Nat × Header} (hd : c.decided = true)
    (hs : c.writer.sent = some p) {bs : List RwAct} (hb : ∀ a ∈ bs, a.isBody = true) :
    c.acts bs = c.tee (bs.flatMap RwAct.written) := by
  induction bs generalizing c with
  | nil => exact (tee_nil c).symm
  | cons a bs ih =>
    have hb' : ∀ x ∈ bs, x.isBody = true := fun x hx => hb x (List.mem_cons_of_mem _ hx)
    show (c.act a).acts bs = _
    rw [List.flatMap_cons]
    cases a with
    | write b =>
      show (c.write b).acts bs = _
      have h := ih (c := c.tee b) hd hs hb'
      rw [write_sent hd hs, h, tee_tee]
      rfl
    | flush =>
      show c.flush.acts bs = _
      rw [flush_sent hs, ih hd hs hb']
      rfl
    | add n v => exact absurd (hb _ List.mem_cons_self) (by simp [RwAct.isBody])
    | set n v => exact absurd (hb _ List.mem_cons_self) (by simp [RwAct.isBody])
    | del n => exact absurd (hb _ List.mem_cons_self) (by simp [RwAct.isBody])
    | writeHeader code => exact absurd (hb _ List.mem_cons_self) (by simp [RwAct.isBody])

end CacheCapture

theorem fresh_acts_ended (cfg : Config) (r : Request) {p : Reply} {h : List RwAct}
    (he : p.Ended h) :
    (cfg.fresh r).acts h =
      { writer := { header := cfg.outer r ++ p.header
                    sent := some (p.status, cfg.outer r ++ p.header)
                    body := p.body }
        buf := if p.status = 200 ∧ isEventStream (p.header.get "Content-Type") = false
          then p.body else []
        status := p.status
        cacheable := p.status == 200 && !isEventStream (p.header.get "Content-Type")
        decided := true } := by
  obtain ⟨bs, rfl, hb, hw⟩ := he
  have hct : Header.get (cfg.outer r ++ p.header) "Content-Type" = p.header.get "Content-Type" :=
    Header.get_append_of_values_nil (cfg.outer_contentType r)
  rw [Reply.head, List.append_assoc, CacheCapture.acts_append, CacheCapture.acts_add,
    CacheCapture.acts_append]
  have hhead : CacheCapture.acts { cfg.fresh r with
      writer := { (cfg.fresh r).writer with header := (cfg.fresh r).writer.header ++ p.header } }
      [.writeHeader p.status] =
      { writer := { header := cfg.outer r ++ p.header
                    sent := some (p.status, cfg.outer r ++ p.header) }
        status := p.status
        cacheable := p.status == 200 && !isEventStream (p.header.get "Content-Type")
        decided := true } := by
    rw [← hct]
    exact CacheCapture.writeHeader_first rfl rfl p.final
  rw [hhead, CacheCapture.acts_body rfl rfl hb, hw]
  simp [CacheCapture.tee]

/-! ## the invariant -/

/-- a response that came from the answer to a request with this key -/
def Vouched (f : Service) (key : Bytes) (status : Nat) (body : Bytes) : Prop :=
  ∃ r : Request, r.Safe ∧ r.cacheKey = key ∧ (f.reply r).Shareable ∧
    status = (f.reply r).status ∧ body = (f.reply r).body

namespace Pc

/-- what the request is about to store, publish or replay came from an answer for this key -/
def Sound (f : Service) (key : Bytes) : Pc → Prop
  | .recheck res => Vouched f key res.status res.body
  | .stamp _ res => Vouched f key res.status res.body
  | .store _ res _ => Vouched f key res.status res.body
  | .publish _ res _ => res.cacheable = true → Vouched f key res.status res.body
  | _ => True

/-- the leader's handler has returned -/
def ended : Pc → Bool
  | .stamp _ _ => true
  | .store _ _ _ => true
  | .publish _ _ e => e == .returned
  | .remove _ e => e == .returned
  | .close _ e => e == .returned
  | _ => false

end Pc

structure CacheOk (f : Service) (c : ResponseCache) : Prop where
  entries : ∀ k e, c.entries.lookup k = some e → Vouched f k e.status e.body
  flights : ∀ k fl, c.flights.lookup k = some fl → c.keyAt fl = some k
  results : ∀ (i : Nat) (fl : Flight), c.heap[i]? = some fl → fl.result.cacheable = true →
    Vouched f fl.key fl.result.status fl.result.body

structure ThreadOk (cfg : Config) (f : Service) (c : ResponseCache) (t : Thread) : Prop where
  traced : t.Traced cfg f.backend
  flight : ∀ fl ∈ t.pc.flight, c.keyAt fl = some t.req.cacheKey
  sound : t.pc.Sound f t.req.cacheKey
  ended : t.pc.ended = true → (f.reply t.req).Ended t.trace
  answer : t.pc = .finished .returned → t.req.Safe → t.Received (f.reply t.req)

/-- with the same key, an answer that can be shared is everybody's answer -/
theorem Vouched.own {f : Service} (hf : f.Indifferent) {r : Request} (hs : r.Safe) {status : Nat}
    {body : Bytes} (h : Vouched f r.cacheKey status body) :
    status = (f.reply r).status ∧ body = (f.reply r).body := by
  obtain ⟨r', hs', hk, hsh, rfl, rfl⟩ := h
  exact hf r' r hs' (cacheKey_inj hs' hs hk) hsh

theorem live_some {c : ResponseCache} {k : Bytes} {e : CacheEntry} (h : c.live k = some e) :
    c.entries.lookup k = some e := (Option.filter_eq_some_iff.mp h).1

theorem CacheOk.expire {f : Service} {c : ResponseCache} (h : CacheOk f c) (key : Bytes) :
    CacheOk f (c.expire key) := by
  refine ⟨fun k e he => ?_, ?_, ?_⟩
  · unfold ResponseCache.expire at he
    split at he
    · split at he
      · by_cases hk : k = key
        · subst hk
          rw [AList.lookup_erase] at he
          exact absurd he (by simp)
        · rw [AList.lookup_erase_ne hk] at he
          exact h.entries k e he
      · exact h.entries k e he
    · exact h.entries k e he
  · unfold ResponseCache.keyAt
    rw [c.expire_flights, c.expire_heap]
    exact h.flights
  · rw [c.expire_heap]
    exact h.results

/-- a request that has not called the backend can still be answered in full -/
theorem received_replay {t : Thread} (ht : t.cc.writer.sent = none) (hb : t.cc.writer.body = [])
    {p : Reply} {status : Nat} {body : Bytes} (hst : status = p.status) (hbd : body = p.body)
    (header : Header) (tag : String) : (t.writeReplay header status body tag).Received p := by
  subst hst hbd
  exact Thread.writeReplay_delivers ht hb p.final header p.body tag

section
variable {cfg : Config} {f : Service} {c c' : ResponseCache} {t t' : Thread} {op : Op}

theorem ThreadOk.mono (h : ThreadOk cfg f c t) (hle : c.KeysLe c') : ThreadOk cfg f c' t :=
  ⟨h.traced, fun fl hfl => hle fl _ (h.flight fl hfl), h.sound, h.ended, h.answer⟩

theorem CacheOk.lead (h : CacheOk f c) (key : Bytes)
    (hle : c.KeysLe { c with flights := c.flights.insert key c.heap.length,
                             heap := c.heap ++ [{ key }] }) :
    CacheOk f { c with flights := c.flights.insert key c.heap.length, heap := c.heap ++ [{ key }] } := by
  refine ⟨h.entries, fun k fl hk => ?_, forall_snoc h.results nofun⟩
  replace hk : (c.flights.insert key c.heap.length).lookup k = some fl := hk
  by_cases e : k = key
  · subst e
    rw [AList.lookup_insert] at hk
    obtain rfl := Option.some.inj hk
    exact c.keyAt_concat _ _
  · rw [AList.lookup_insert_ne e] at hk
    exact hle fl k (h.flights k fl hk)

theorem CacheOk.store (h : CacheOk f c) {key : Bytes} {e : CacheEntry}
    (hv : Vouched f key e.status e.body) : CacheOk f (c.store key e) := by
  refine ⟨fun k e' he => ?_, h.flights, h.results⟩
  replace he : (c.entries.insert key e).lookup k = some e' := he
  by_cases ek : k = key
  · subst ek
    rw [AList.lookup_insert] at he
    obtain rfl := Option.some.inj he
    exact hv
  · rw [AList.lookup_insert_ne ek] at he
    exact h.entries k e' he

theorem CacheOk.publish (h : CacheOk f c) {key : Bytes} {fl : Nat} {res : FlightResult}
    (hfl : c.keyAt fl = some key) (hv : res.cacheable = true → Vouched f key res.status res.body) :
    CacheOk f (c.publish fl res) := by
  refine ⟨h.entries, fun k fl' hk => (c.publish_keyAt fl fl' res).trans (h.flights k fl' hk), ?_⟩
  refine forall_modify h.results fun g hg hcb => ?_
  have hk : g.key = key := by
    rw [ResponseCache.keyAt, hg] at hfl
    exact Option.some.inj hfl
  show Vouched f g.key res.status res.body
  rw [hk]
  exact hv hcb

theorem CacheOk.remove (h : CacheOk f c) (key : Bytes) : CacheOk f (c.remove key) := by
  refine ⟨h.entries, fun k fl hk => ?_, h.results⟩
  replace hk : (c.flights.erase key).lookup k = some fl := hk
  by_cases e : k = key
  · subst e
    rw [AList.lookup_erase] at hk
    exact absurd hk (by simp)
  · rw [AList.lookup_erase_ne e] at hk
    exact h.flights k fl hk

theorem CacheOk.close (h : CacheOk f c) (fl : Nat) : CacheOk f (c.close fl) :=
  ⟨h.entries, fun k fl' hk => (c.close_keyAt fl fl').trans (h.flights k fl' hk),
    forall_modify h.results fun g hg => h.results fl g hg⟩

theorem CacheOk.step (hc : CacheOk f c) (ht : ThreadOk cfg f c t)
    (hm : Thread.Moves cfg c t op c' t') : CacheOk f c' := by
  have hle := hm.keysLe
  have sound := ht.sound
  cases hm with
  | hit e hpc he => exact hc.expire _
  | miss hpc => exact hc.expire _
  | rehit res e hpc he => exact hc.expire _
  | share res hpc => exact hc.expire _
  | lead hpc hfl => exact hc.lead _ hle
  | store fl res expires hpc =>
    rw [hpc] at sound
    exact hc.store sound
  | publish fl res ending hpc =>
    rw [hpc] at sound
    exact hc.publish (ht.flight fl (by rw [hpc]; rfl)) sound
  | remove fl ending hpc => exact hc.remove _
  | close fl fl' ending hpc hf hdone => exact hc.close fl
  | _ => exact hc

theorem received_finish (hcc : t.cc = (cfg.fresh t.req).acts t.trace) {p : Reply}
    (he : p.Ended t.trace) : (t.finish .returned).Received p := by
  show t.cc.writer.finish.status = _ ∧ t.cc.writer.finish.body = _
  rw [hcc, fresh_acts_ended cfg t.req he]
  unfold ResponseWriter.finish
  rw [ResponseWriter.writeHeader_of_sent rfl]
  exact ⟨rfl, rfl⟩

/-- a request that has not called the backend is answered from a vouched response -/
theorem ThreadOk.replay (h : ThreadOk cfg f c t) (hf : f.Indifferent) (hpc : t.pc.captured = true)
    (hi : t.pc.idle = true) {status : Nat} {body : Bytes}
    (hv : Vouched f t.req.cacheKey status body) (header : Header) (tag : String) :
    ThreadOk cfg f c' (t.writeReplay header status body tag) := by
  obtain ⟨hs, hcc⟩ := h.traced.captured hpc
  rw [h.traced.idle hi] at hcc
  obtain ⟨hst, hbd⟩ := hv.own hf hs
  refine ⟨h.traced.finished _, fun fl hfl => absurd hfl (by simp [Thread.writeReplay, Thread.finish,
    Pc.flight]), trivial, fun he => absurd he Bool.false_ne_true, fun _ _ => ?_⟩
  exact received_replay (by rw [hcc]; rfl) (by rw [hcc]; rfl) hst hbd header tag

/-- a leader's shared result came from the answer to its own request -/
theorem vouched_flightResult (h : ThreadOk cfg f c t) {fl : Nat} (hpc : t.pc = .fetch (.lead fl))
    (he : (f.reply t.req).Ended t.trace) (hc : t.cc.cacheable = true) :
    Vouched f t.req.cacheKey t.cc.status t.cc.buf := by
  obtain ⟨hs, hcc⟩ := h.traced.captured (by rw [hpc]; rfl)
  rw [fresh_acts_ended cfg t.req he] at hcc
  rw [hcc] at hc ⊢
  have hsh : (f.reply t.req).Shareable := by simpa [Reply.Shareable] using hc
  exact ⟨t.req, hs, rfl, hsh, rfl, if_pos hsh⟩

/-- a released follower takes the result of a flight for its own key -/
theorem ThreadOk.released (hc : CacheOk f c) (h : ThreadOk cfg f c t) {fl : Nat} {g : Flight}
    (hpc : t.pc = .wait fl) (hfg : c.heap[fl]? = some g) (hcb : g.result.cacheable = true) :
    Vouched f t.req.cacheKey g.result.status g.result.body := by
  have hk : g.key = t.req.cacheKey := by
    have hfl := h.flight fl (by rw [hpc]; rfl)
    rw [ResponseCache.keyAt, hfg] at hfl
    exact Option.some.inj hfl
  rw [← hk]
  exact hc.results fl g hfg hcb

/-- while the handler writes, nothing is said about its answer yet -/
theorem ThreadOk.act (h : ThreadOk cfg f c t) {via : Via} (hpc : t.pc = .fetch via) {a : RwAct}
    (htr : Thread.Traced cfg f.backend { t with cc := t.capture via a, trace := t.trace ++ [a] }) :
    ThreadOk cfg f c { t with cc := t.capture via a, trace := t.trace ++ [a] } := by
  refine ⟨htr, fun g hg => h.flight g hg, ?_, fun he => ?_, fun he => ?_⟩
  · show t.pc.Sound f t.req.cacheKey
    rw [hpc]
    trivial
  · replace he : t.pc.ended = true := he
    rw [hpc] at he
    exact absurd he Bool.false_ne_true
  · replace he : t.pc = _ := he
    rw [hpc] at he
    exact absurd he nofun

theorem ThreadOk.received (h : ThreadOk cfg f c t) {via : Via} (hpc : t.pc = .fetch via)
    (hvia : via = .bypass ∨ via = .own) (hg : f.backend.allows t .ret) (hs : t.req.Safe) :
    (t.finish .returned).Received (f.reply t.req) := by
  rcases hvia with rfl | rfl
  · exact absurd hs (h.traced.bypass hpc)
  · obtain ⟨_, hcc⟩ := h.traced.captured (by rw [hpc]; rfl)
    exact received_finish hcc (hg hs)

theorem ThreadOk.close (h : ThreadOk cfg f c t) {fl : Nat} {ending : Ending}
    (hpc : t.pc = .close fl ending) (htr : (t.finish ending).Traced cfg f.backend) :
    ThreadOk cfg f c' (t.finish ending) := by
  cases ending with
  | panicked => exact ⟨htr, nofun, trivial, nofun, nofun⟩
  | returned =>
    have ended := h.ended
    rw [hpc] at ended
    obtain ⟨_, hcc⟩ := h.traced.captured (by rw [hpc]; rfl)
    exact ⟨htr, nofun, trivial, nofun, fun _ _ => received_finish hcc (ended rfl)⟩

theorem ThreadOk.step (hf : f.Indifferent) (hc : CacheOk f c) (h : ThreadOk cfg f c t)
    (hg : f.backend.allows t op) (hm : Thread.Moves cfg c t op c' t') : ThreadOk cfg f c' t' := by
  have htr := h.traced.step hg hm
  have hle := hm.keysLe
  -- what a request keeps while it stays on its flight
  have stays : ∀ fl, t.pc.flight = some fl → ∀ g ∈ some fl, c'.keyAt g = some t.req.cacheKey :=
    fun fl hfl g hg => hle g _ (h.flight g (hfl ▸ hg))
  have sound := h.sound
  have ended := h.ended
  cases hm with
  | hit e hpc he =>
    exact h.replay hf (by rw [hpc]; rfl) (by rw [hpc]; rfl) (hc.entries _ e (live_some he)) _ _
  | miss hpc => exact ⟨htr, nofun, trivial, nofun, nofun⟩
  | follow fl hpc hfl =>
    refine ⟨htr, fun g hg => ?_, trivial, nofun, nofun⟩
    obtain rfl := Option.some.inj hg
    exact hc.flights _ _ hfl
  | lead hpc hfl =>
    refine ⟨htr, fun g hg => ?_, trivial, nofun, nofun⟩
    obtain rfl := Option.some.inj hg
    exact c.keyAt_concat _ _
  | released fl g hpc hfg hdone hcb =>
    exact ⟨htr, nofun, h.released hc hpc hfg hcb, nofun, nofun⟩
  | refused fl g hpc hg hdone hcb => exact ⟨htr, nofun, trivial, nofun, nofun⟩
  | rehit res e hpc he =>
    exact h.replay hf (by rw [hpc]; rfl) (by rw [hpc]; rfl) (hc.entries _ e (live_some he)) _ _
  | share res hpc =>
    rw [hpc] at sound
    exact h.replay hf (by rw [hpc]; rfl) (by rw [hpc]; rfl) sound _ _
  | stamp fl res hpc =>
    rw [hpc] at sound ended
    exact ⟨htr, stays fl (by rw [hpc]; rfl), sound, fun _ => ended rfl, nofun⟩
  | store fl res expires hpc =>
    rw [hpc] at sound ended
    exact ⟨htr, stays fl (by rw [hpc]; rfl), fun _ => sound, fun _ => ended rfl, nofun⟩
  | publish fl res ending hpc =>
    rw [hpc] at ended
    exact ⟨htr, stays fl (by rw [hpc]; rfl), trivial, ended, nofun⟩
  | remove fl ending hpc =>
    rw [hpc] at ended
    exact ⟨htr, stays fl (by rw [hpc]; rfl), trivial, ended, nofun⟩
  | close fl g ending hpc hg hdone => exact h.close hpc htr
  | closeClosed fl g ending hpc hg hdone => exact ⟨htr, nofun, trivial, nofun, nofun⟩
  | act via a hpc => exact h.act hpc htr
  | retShare fl hpc hcb =>
    obtain ⟨hs, _⟩ := h.traced.captured (by rw [hpc]; rfl)
    have hv := vouched_flightResult h hpc (hg hs) hcb
    exact ⟨htr, stays fl (by rw [hpc]; rfl), hv, fun _ => hg hs, nofun⟩
  | retLead fl hpc hcb =>
    obtain ⟨hs, _⟩ := h.traced.captured (by rw [hpc]; rfl)
    refine ⟨htr, stays fl (by rw [hpc]; rfl), fun he => ?_, fun _ => hg hs, nofun⟩
    replace he : t.cc.cacheable = true := he
    rw [hcb] at he
    exact absurd he Bool.false_ne_true
  | ret via hpc hvia =>
    exact ⟨htr, nofun, trivial, nofun, fun _ hs => h.received hpc hvia hg hs⟩
  | crashLead fl hpc => exact ⟨htr, stays fl (by rw [hpc]; rfl), nofun, nofun, nofun⟩
  | crash via hpc hvia => exact ⟨htr, nofun, trivial, nofun, nofun⟩

end

theorem start_ok (cfg : Config) (f : Service) (c : ResponseCache) (r : Request) :
    ThreadOk cfg f c (cfg.start r) := by
  refine ⟨Thread.start_traced cfg f.backend r, ?_, ?_, ?_, ?_⟩
  · unfold Config.start
    split <;> nofun
  · unfold Config.start
    split <;> trivial
  · unfold Config.start
    split <;> nofun
  · unfold Config.start
    split <;> nofun

theorem new_ok (f : Service) (now : Int) : CacheOk f (.new now) :=
  ⟨nofun, nofun, nofun⟩

theorem ok_of_runs {cfg : Config} {f : Service} (hf : f.Indifferent) {now : Int} {s : State}
    {as : List (PoolAct Request Nat Op)}
    (h : (middleware cfg).machine.Runs (Conforms f.backend) (init now) as s) :
    Sys.Holds (CacheOk f) (ThreadOk cfg f) s := by
  refine Sys.inv h (fun c r _ => start_ok cfg f c r) ?_ ?_ ⟨new_ok f now, nofun⟩
  · intro c d c' hc hd
    obtain rfl := Option.some.inj hd
    exact ⟨⟨hc.entries, hc.flights, hc.results⟩, fun u hu => hu.mono fun _ _ hk => hk⟩
  · intro s i op t c' t' hs hg ht hst
    have hm := Thread.step_moves hst
    have hok := hs.threads t (List.mem_of_getElem? ht)
    exact ⟨hs.shared.step hok hm, hok.step hf hs.shared (hg t ht) hm,
      fun u hu => hu.mono hm.keysLe⟩

/-! ## a run to somebody else's answer -/

/-- a leader's steps, with a handler that does `h` and returns -/
def leaderOps (h : List RwAct) : List Op :=
  ([.go, .go] : List Op) ++ ((h.map .act : List Op) ++ ([.ret, .go, .go, .go, .go, .go] : List Op))

/-- one request is fetched and stored, then another one arrives -/
def hitSchedule (r r' : Request) (h : List RwAct) : List (PoolAct Request Nat Op) :=
  .spawn r :: (((leaderOps h).map (.step 0) : Acts) ++ ([.spawn r', .step 1 .go] : Acts))

/-- the leader's code after a handler that gave a shareable answer has returned -/
theorem leader_steps (cfg : Config) {f : Service} (c : ResponseCache) {r : Request} (fl : Nat)
    {h : List RwAct} {g : Flight} (he : (f.reply r).Ended h) (hsh : (f.reply r).Shareable)
    (hg : c.heap[fl]? = some g) (hd : g.done = false) :
    ∃ c' t' header, (middleware cfg).Steps f.backend.allows c
        ⟨r, (cfg.fresh r).acts h, h, .fetch (.lead fl)⟩ [.ret, .go, .go, .go, .go, .go] c' t' ∧
      c'.now = c.now ∧ c'.entries.lookup r.cacheKey =
        some ⟨(f.reply r).status, header, (f.reply r).body, c.now + cfg.ttl⟩ := by
  have hcc := fresh_acts_ended cfg r he
  let t : Thread := ⟨r, (cfg.fresh r).acts h, h, .fetch (.lead fl)⟩
  have hcb : t.flightResult.cacheable = true := by
    show ((cfg.fresh r).acts h).cacheable = true
    rw [hcc]
    simpa [Reply.Shareable] using hsh
  have hret : (middleware cfg).step c t .ret =
      some (c, ⟨r, (cfg.fresh r).acts h, h, .stamp fl t.flightResult⟩) := by
    show some (c, { t with pc := ite _ _ _ }) = _
    rw [if_pos hcb]
  have hclose : (((c.store r.cacheKey ⟨t.flightResult.status, t.flightResult.header,
      t.flightResult.body, c.now + cfg.ttl⟩).publish fl t.flightResult).remove r.cacheKey).heap[fl]? =
      some { g with result := t.flightResult } := by
    show (c.heap.modify fl _)[fl]? = _
    rw [List.getElem?_modify, hg]
    show some (if fl = fl then _ else _) = _
    rw [if_pos rfl]
  have hlast : (middleware cfg).step (((c.store r.cacheKey ⟨t.flightResult.status,
      t.flightResult.header, t.flightResult.body, c.now + cfg.ttl⟩).publish fl
      t.flightResult).remove r.cacheKey)
      ⟨r, (cfg.fresh r).acts h, h, .close fl .returned⟩ .go = some
      ((((c.store r.cacheKey ⟨t.flightResult.status, t.flightResult.header,
        t.flightResult.body, c.now + cfg.ttl⟩).publish fl t.flightResult).remove
          r.cacheKey).close fl,
        Thread.finish ⟨r, (cfg.fresh r).acts h, h, .close fl .returned⟩ .returned) := by
    show Option.bind _ _ = _
    rw [hclose, Option.bind_some, hd]
    rfl
  refine ⟨_, _, t.flightResult.header, ⟨fun _ => he, _, _, hret, trivial, _, _, rfl, trivial, _, _,
    rfl, trivial, _, _, rfl, trivial, _, _, rfl, trivial, _, _, hlast, rfl, rfl⟩, rfl, ?_⟩
  show (c.entries.insert r.cacheKey _).lookup r.cacheKey = _
  rw [AList.lookup_insert]
  have hst : t.flightResult.status = (f.reply r).status := by
    show ((cfg.fresh r).acts h).status = _
    rw [hcc]
  have hbd : t.flightResult.body = (f.reply r).body := by
    show ((cfg.fresh r).acts h).buf = _
    rw [hcc]
    exact if_pos hsh
  rw [hst, hbd]

theorem hit_runs (cfg : Config) (f : Service) (now : Int) (r r' : Request) (hs : r.Safe)
    (hs' : r'.Safe) (hk : r'.cacheKey = r.cacheKey) (hsh : (f.reply r).Shareable) :
    ∃ s, (middleware cfg).machine.Runs (Conforms f.backend) (init now)
        (hitSchedule r r' (f.reply r).script) s ∧
      ∃ t, s.threads[1]? = some t ∧ t.req = r' ∧ t.pc = .finished .returned ∧
        t.Received (f.reply r) := by
  have he := (f.reply r).ended_script
  let c1 : ResponseCache :=
    { entries := ∅, flights := (∅ : AList _).insert r.cacheKey 0,
      heap := [{ key := r.cacheKey }], now := now }
  have h1 : (middleware cfg).Steps f.backend.allows (.new now) ⟨r, cfg.fresh r, [], .lookup⟩
      [.go, .go] c1 ⟨r, cfg.fresh r, [], .fetch (.lead 0)⟩ :=
    ⟨trivial, _, _, step_go_miss rfl, trivial, _, _, step_go_lead rfl, rfl, rfl⟩
  have hB : f.backend.acts r ([] ++ (f.reply r).script) := fun _ => Reply.begun_of_ended he
  have h2 := acts_steps cfg c1 0 (cfg.fresh r) [] hB
  obtain ⟨c', t', header, h3, hnow, hent⟩ :=
    leader_steps cfg c1 0 he hsh rfl rfl
  have hstart : ∀ q : Request, q.Safe →
      (middleware cfg).start q = ⟨q, cfg.fresh q, [], .lookup⟩ := by
    intro q hq
    show cfg.start q = _
    rw [Config.start, if_pos hq]
  rw [← hk] at hent
  have hle : c'.now ≤ c1.now + cfg.ttl := by
    have := cfg.ttl_pos
    omega
  let e : CacheEntry := ⟨(f.reply r).status, header, (f.reply r).body, c1.now + cfg.ttl⟩
  let t2 : Thread := Thread.replayEntry ⟨r', cfg.fresh r', [], .lookup⟩ e
  have h4 : (middleware cfg).Steps f.backend.allows c' ⟨r', cfg.fresh r', [], .lookup⟩ [.go] c' t2 :=
    ⟨trivial, _, _, step_go_hit hent hle, rfl, rfl⟩
  have r1 := (h1.append (h2.append h3)).runs [⟨r, cfg.fresh r, [], .lookup⟩] 0 rfl
  have r2 := h4.runs [t', ⟨r', cfg.fresh r', [], .lookup⟩] 1 rfl
  have s1 : (middleware cfg).machine.Runs (Conforms f.backend) (init now)
      (.spawn r :: (leaderOps (f.reply r).script).map (.step 0)) ⟨c', [t']⟩ := by
    refine Sys.runs_spawn trivial ?_
    rw [hstart r hs]
    exact r1
  have s2 : (middleware cfg).machine.Runs (Conforms f.backend) ⟨c', [t']⟩
      [.spawn r', .step 1 .go] ⟨c', [t', t2]⟩ := by
    refine Sys.runs_spawn trivial ?_
    rw [hstart r' hs']
    exact r2
  exact ⟨_, s1.append s2, t2, rfl, rfl, rfl, received_replay rfl rfl rfl rfl _ _⟩

/-! ## the condition -/

/-- **Whose answer.**  In every run every GET and HEAD request receives the answer to its own
method, path, query and passcode, if and only if an answer that can be shared is the same for
every passcode and every way to send the decoded path and the parsed query. -/
theorem own_answers_iff (cfg : Config) (f : Service) : OwnAnswers cfg f ↔ f.Indifferent := by
  constructor
  · intro hown r r' hs hsame hsh
    have hs' : r'.Safe := by
      unfold Request.Safe
      rw [← hsame.1]
      exact hs
    obtain ⟨s, hrun, t, ht, hreq, hpc, hst, hbd⟩ :=
      hit_runs cfg f 0 r r' hs hs' hsame.cacheKey_eq.symm hsh
    obtain ⟨hst', hbd'⟩ := hown 0 _ s hrun t (List.mem_of_getElem? ht) (hreq ▸ hs') hpc
    rw [hreq] at hst' hbd'
    exact ⟨Option.some.inj (hst.symm.trans hst'), hbd.symm.trans hbd'⟩
  · intro hf now as s hrun t ht hs hpc
    exact ((ok_of_runs hf hrun).threads t ht).answer hpc hs

/-! ## a guarded route -/

/-- `require_admin` in front of GET /admin/conversations, with ADMIN_PASSCODE set -/
def adminService : Service := fun _ _ passcode =>
  if passcode = "ahoy" then
    { status := 200, header := [("Content-Type", "application/json")],
      body := ascii "\x7b\"count\":0,\"conversations\":[]\x7d", final := by decide }
  else
    { status := 401, header := [("Content-Type", "application/json")],
      body := ascii "\x7b\"detail\":\"Admin authentication required\"\x7d", final := by decide }

def adminConversations (header : Header) : Request :=
  getRequest (u := { path := ascii "/api/parrot/admin/conversations" })
    "/api/parrot/admin/conversations" (by decide +kernel) header

/-- an admin reads a guarded URL, and within the ttl a request without the passcode is given the
same 200 response -/
theorem guarded_leaked :
    ∃ s t, (middleware plainConfig).machine.Runs (Conforms adminService.backend) (init 0)
        (hitSchedule (adminConversations [("X-Admin-Passcode", "ahoy")]) (adminConversations [])
          (adminService.reply (adminConversations [("X-Admin-Passcode", "ahoy")])).script) s ∧
      s.threads[1]? = some t ∧ t.pc = .finished .returned ∧ t.req = adminConversations [] ∧
      t.cc.writer.status = some 200 ∧ (adminService.reply t.req).status = 401 := by
  obtain ⟨s, hrun, t, ht, hreq, hpc, hst, -⟩ := hit_runs plainConfig adminService 0
    (adminConversations [("X-Admin-Passcode", "ahoy")]) (adminConversations [])
    (.inl rfl) (.inl rfl) rfl ⟨rfl, by decide⟩
  refine ⟨s, t, hrun, ht, hpc, hreq, hst, ?_⟩
  rw [hreq]
  rfl

end Gateway
