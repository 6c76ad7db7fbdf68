import Purrlington.Gateway.Capture
import Purrlington.Gateway.Flights

/-!
# Gateway: what a client may be given

Every response that leaves the middleware for a GET or HEAD request is the pass-through of the
request's own call of the backend, or a copy of a complete response that an earlier call for the
same key has returned.

* `Thread.PassThrough`     the writer is what the handler's operations make of it;
* `Thread.Complete`        a call that returned with status 200 and no event stream;
* `Sourced`, `Vetted`      the invariant: entries and results come from complete calls;
* `delivered_sound`        every delivery of every run.
-/

set_option linter.unusedSectionVars false

namespace Gateway
open SM

/-! ## pass-through, complete calls and copies -/

namespace Pc

/-- the request's handler has returned, or the request has been answered without one -/
def returned : Pc → Bool
  | .stamp _ _ => true
  | .store _ _ _ => true
  | .publish _ _ e => e == .returned
  | .remove _ e => e == .returned
  | .close _ e => e == .returned
  | .finished e => e == .returned
  | _ => false

end Pc

namespace Thread

/-- the writer as the handler's operations leave it, and the server after a return -/
def passed (cfg : Config) (t : Thread) : ResponseWriter :=
  let w := (cfg.fresh t.req).writer.acts t.trace
  if t.pc = .finished .returned then w.finish else w

theorem passed_returned {cfg : Config} {t : Thread} (h : t.pc = .finished .returned) :
    t.passed cfg = ((cfg.fresh t.req).writer.acts t.trace).finish := if_pos h

theorem passed_pending {cfg : Config} {t : Thread} (h : t.pc ≠ .finished .returned) :
    t.passed cfg = (cfg.fresh t.req).writer.acts t.trace := if_neg h

/-- the client is sent what the request's own handler does -/
def PassThrough (cfg : Config) (t : Thread) : Prop := t.cc.writer = t.passed cfg

/-- the request's own call has returned, with status 200 and no event stream: the Content-Type is
that of the handler's first WriteHeader or Write, which is the one sent unless a Flush came first -/
structure Complete (cfg : Config) (u : Thread) : Prop where
  safe : u.req.Safe
  returned : u.pc.returned = true
  passed : u.PassThrough cfg
  status : u.cc.writer.status = some 200
  contentType : ∃ h, firstStatus (cfg.outer u.req) u.trace = some (200, h) ∧
    isEventStream (h.get "Content-Type") = false ∧
    (flushesFirst u.trace = false → u.cc.writer.sent = some (200, h))

/-- the same status and body -/
def Copies (t u : Thread) : Prop :=
  t.cc.writer.status = u.cc.writer.status ∧ t.cc.writer.body = u.cc.writer.body

end Thread

/-! ## the invariant -/

/-- a handler that may do anything -/
def anyBackend : Backend :=
  { acts := fun _ _ => True
    acts_nil := fun _ => trivial
    acts_closed := fun _ _ _ _ => trivial
    returns := fun _ _ => True
    panics := fun _ _ => True }

theorem anyBackend_allows (t : Thread) (op : Op) : anyBackend.allows t op := by
  cases op <;> trivial

theorem CacheCapture.fresh_undecided (cfg : Config) (r : Request) : (cfg.fresh r).Undecided :=
  ⟨rfl, rfl, rfl, rfl, fun p hp => absurd hp (by simp [Config.fresh])⟩

/-- what holds of a request by itself -/
structure Honest (cfg : Config) (c : ResponseCache) (t : Thread) : Prop where
  traced : t.Traced cfg anyBackend
  safe : t.cc.cacheable = true → t.req.Safe
  finished : t.pc = .finished .returned → t.cc.cacheable = true →
    t.cc = { (cfg.fresh t.req).acts t.trace with
      writer := ((cfg.fresh t.req).acts t.trace).writer.finish }
  shares : ∀ fl res x, t.pc = .stamp fl res ∨ t.pc = .store fl res x → t.cc.cacheable = true
  expires : ∀ fl res x, t.pc = .store fl res x → x ≤ c.now + cfg.ttl

theorem Thread.Moves.now_eq {cfg : Config} {c c' : ResponseCache} {t t' : Thread} {op : Op}
    (h : Thread.Moves cfg c t op c' t') : c'.now = c.now := by
  have hexp : ∀ key, (c.expire key).now = c.now := by
    intro key
    unfold ResponseCache.expire
    split
    · split <;> rfl
    · rfl
  cases h with
  | hit e hpc he => exact hexp _
  | miss hpc => exact hexp _
  | rehit res e hpc he => exact hexp _
  | share res hpc => exact hexp _
  | _ => rfl

namespace Honest
variable {cfg : Config} {c c' : ResponseCache} {t t' : Thread} {op : Op}

theorem mono (h : Honest cfg c t) (hle : c.now ≤ c'.now) : Honest cfg c' t := by
  refine ⟨h.traced, h.safe, h.finished, h.shares, ?_⟩
  intro fl res x hpc
  have := h.expires fl res x hpc
  omega

/-- a request that has not called the backend has an unused capture -/
theorem fresh_of_idle (h : Honest cfg c t) (hi : t.pc.idle = true) :
    t.req.Safe ∧ t.cc = cfg.fresh t.req := by
  have hcap : t.pc.captured = true := by
    cases hpc : t.pc with
    | fetch via => rw [hpc] at hi; exact absurd hi (by simp [Pc.idle])
    | finished e => rw [hpc] at hi; exact absurd hi (by simp [Pc.idle])
    | _ => rfl
  obtain ⟨hs, hcc⟩ := h.traced.captured hcap
  rw [h.traced.idle hi] at hcc
  exact ⟨hs, hcc⟩

theorem replay (h : Honest cfg c t) (htr : Thread.Traced cfg anyBackend t') (hi : t.pc.idle = true)
    (hcb : t'.cc.cacheable = t.cc.cacheable) (hpc : t'.pc = .finished .returned) :
    Honest cfg c' t' := by
  have hno : t'.cc.cacheable ≠ true := by
    rw [hcb, (h.fresh_of_idle hi).2]
    simp [Config.fresh]
  refine ⟨htr, fun hc => absurd hc hno, fun _ hc => absurd hc hno, fun fl res x hp => ?_,
    fun fl res x hp => ?_⟩
  · rw [hpc] at hp
    exact absurd hp (by simp)
  · rw [hpc] at hp
    exact absurd hp (by simp)

theorem goto (h : Honest cfg c t) {pc : Pc} (htr : Thread.Traced cfg anyBackend { t with pc := pc })
    (hf : ∀ e, pc ≠ .finished e)
    (hsh : ∀ fl res x, pc = .stamp fl res ∨ pc = .store fl res x → t.cc.cacheable = true)
    (hex : ∀ fl res x, pc = .store fl res x → x ≤ c'.now + cfg.ttl) :
    Honest cfg c' { t with pc := pc } :=
  ⟨htr, h.safe, fun hp => absurd hp (hf _), hsh, hex⟩

theorem finish (h : Honest cfg c t) (hpc : t.pc.captured = true)
    (htr : Thread.Traced cfg anyBackend (t.finish .returned)) : Honest cfg c' (t.finish .returned) := by
  refine ⟨htr, h.safe, fun _ _ => ?_, fun fl res x hp => ?_, fun fl res x hp => ?_⟩
  · show { t.cc with writer := t.cc.writer.finish } = _
    obtain ⟨_, hcc⟩ := h.traced.captured hpc
    show { t.cc with writer := t.cc.writer.finish } =
      { (cfg.fresh t.req).acts t.trace with
        writer := ((cfg.fresh t.req).acts t.trace).writer.finish }
    rw [← hcc]
  · rw [t.finish_pc] at hp
    exact absurd hp (by simp)
  · rw [t.finish_pc] at hp
    exact absurd hp (by simp)

theorem finish_panicked (h : Honest cfg c t)
    (htr : Thread.Traced cfg anyBackend (t.finish .panicked)) : Honest cfg c' (t.finish .panicked) := by
  refine ⟨htr, h.safe, fun hp => ?_, fun fl res x hp => ?_, fun fl res x hp => ?_⟩
  all_goals
    rw [t.finish_pc] at hp
    exact absurd hp (by simp)

theorem step (h : Honest cfg c t) (hm : Thread.Moves cfg c t op c' t') : Honest cfg c' t' := by
  have htr := h.traced.step (anyBackend_allows t op) hm
  have hnow := hm.now_eq
  cases hm with
  | hit e hpc he => exact h.replay htr (by rw [hpc]; rfl) rfl rfl
  | miss hpc => exact h.goto htr (by simp) (by simp) (by simp)
  | follow fl hpc hfl => exact h.goto htr (by simp) (by simp) (by simp)
  | lead hpc hfl => exact h.goto htr (by simp) (by simp) (by simp)
  | released fl f hpc hf hdone hc => exact h.goto htr (by simp) (by simp) (by simp)
  | refused fl f hpc hf hdone hc => exact h.goto htr (by simp) (by simp) (by simp)
  | rehit res e hpc he => exact h.replay htr (by rw [hpc]; rfl) rfl rfl
  | share res hpc => exact h.replay htr (by rw [hpc]; rfl) rfl rfl
  | stamp fl res hpc =>
    refine h.goto htr (by simp) (fun _ _ _ _ => h.shares fl res 0 (.inl hpc)) ?_
    intro g r x hp
    obtain ⟨_, _, rfl⟩ := Pc.store.inj hp
    exact Int.le_refl _
  | store fl res x hpc => exact h.goto htr (by simp) (by simp) (by simp)
  | publish fl res e hpc => exact h.goto htr (by simp) (by simp) (by simp)
  | remove fl e hpc => exact h.goto htr (by simp) (by simp) (by simp)
  | close fl f e hpc hf hdone =>
    cases e with
    | returned => exact h.finish (by rw [hpc]; rfl) htr
    | panicked => exact h.finish_panicked htr
  | closeClosed fl f e hpc hf hdone => exact h.finish_panicked htr
  | act via a hpc =>
    have hne : t.pc ≠ .finished .returned ∧ (∀ fl res x, ¬ (t.pc = .stamp fl res ∨ t.pc = .store fl res x)) ∧
        ∀ fl res x, t.pc ≠ .store fl res x := by
      rw [hpc]
      simp
    refine ⟨htr, fun hc => ?_, fun hp => absurd hp hne.1, fun fl res x hp => absurd hp (hne.2.1 fl res x),
      fun fl res x hp => absurd hp (hne.2.2 fl res x)⟩
    cases via with
    | bypass => exact h.safe hc
    | own => exact (h.traced.captured (by rw [hpc]; rfl)).1
    | lead fl => exact (h.traced.captured (by rw [hpc]; rfl)).1
  | retShare fl hpc hc => exact h.goto htr (by simp) (fun _ _ _ _ => hc) (by simp)
  | retLead fl hpc hc => exact h.goto htr (by simp) (by simp) (by simp)
  | ret via hpc hvia =>
    rcases hvia with rfl | rfl
    · -- a request that is passed by has no capture to share
      have hno : ¬ t.cc.cacheable = true := fun hc => h.traced.bypass hpc (h.safe hc)
      refine ⟨htr, fun hc => absurd hc hno, fun _ hc => absurd hc hno, fun fl res x hp => ?_,
        fun fl res x hp => ?_⟩
      all_goals
        rw [t.finish_pc] at hp
        exact absurd hp (by simp)
    · exact h.finish (by rw [hpc]; rfl) htr
  | crashLead fl hpc => exact h.goto htr (by simp) (by simp) (by simp)
  | crash via hpc hvia => exact h.finish_panicked htr

theorem start (cfg : Config) (c : ResponseCache) (r : Request) : Honest cfg c (cfg.start r) := by
  have hpc : (cfg.start r).pc = .lookup ∨ (cfg.start r).pc = .fetch .bypass := by
    unfold Config.start
    split
    · exact .inl rfl
    · exact .inr rfl
  have hcb : (cfg.start r).cc.cacheable ≠ true := by simp [Config.start, Config.fresh]
  refine ⟨Thread.start_traced cfg anyBackend r, fun hc => absurd hc hcb, fun _ hc => absurd hc hcb,
    fun fl res x hp => ?_, fun fl res x hp => ?_⟩
  · rcases hpc with hpc | hpc <;>
    · rw [hpc] at hp
      exact absurd hp (by simp)
  · rcases hpc with hpc | hpc <;>
    · rw [hpc] at hp
      exact absurd hp (by simp)

end Honest

theorem honest_of_runs {cfg : Config} {G : State → PoolAct Request Nat Op → Prop} {now : Int}
    {s : State} {as : List (PoolAct Request Nat Op)}
    (h : (middleware cfg).machine.Runs G (init now) as s) :
    ∀ t ∈ s.threads, Honest cfg s.shared t := by
  have hinv := Sys.inv (I := fun _ => True) (T := Honest cfg) h
    (fun c r _ => Honest.start cfg c r)
    (fun c d c' _ hd => ⟨trivial, fun u hu => ?_⟩)
    (fun s i a t c' t' hs hg ht hst => ?_)
    ⟨trivial, fun t ht => absurd ht (by simp [init])⟩
  · exact hinv.threads
  · obtain rfl := Option.some.inj hd
    apply hu.mono
    show c.now ≤ c.now + d
    omega
  · have hm := Thread.step_moves hst
    exact ⟨trivial, (hs.threads t (List.mem_of_getElem? ht)).step hm,
      fun u hu => hu.mono (Int.le_of_eq hm.now_eq.symm)⟩

/-- the request has fetched this response for the key, and its handler has returned -/
structure Sourced (key : Bytes) (status : Nat) (body : Bytes) (u : Thread) : Prop where
  key : u.req.cacheKey = key
  returned : u.pc.returned = true
  cacheable : u.cc.cacheable = true
  status : u.cc.status = status
  body : u.cc.buf = body

theorem Sourced.complete {cfg : Config} {c : ResponseCache} {u : Thread} {key : Bytes} {status : Nat}
    {body : Bytes} (h : Sourced key status body u) (hu : Honest cfg c u) :
    u.Complete cfg ∧ status = 200 ∧ u.cc.writer.body = body := by
  obtain ⟨cc, hcc⟩ : ∃ cc, cc = (cfg.fresh u.req).acts u.trace := ⟨_, rfl⟩
  -- the capture is that of the handler's operations, after a return with the response ended
  have hwhere : u.cc = cc ∧ u.pc ≠ .finished .returned ∨
      u.cc = { cc with writer := cc.writer.finish } ∧ u.pc = .finished .returned := by
    by_cases hf : u.pc = .finished .returned
    · exact .inr ⟨hcc ▸ hu.finished hf h.cacheable, hf⟩
    · refine .inl ⟨hcc ▸ (hu.traced.captured ?_).2, hf⟩
      have hr := h.returned
      cases hpc : u.pc with
      | fetch via => rw [hpc] at hr; exact absurd hr (by simp [Pc.returned])
      | finished e =>
        rw [hpc] at hr hf
        cases e with
        | returned => exact absurd rfl hf
        | panicked => exact absurd hr (by simp [Pc.returned])
      | _ => rfl
  have hcb : cc.cacheable = true := by
    rcases hwhere with ⟨e, _⟩ | ⟨e, _⟩
    · rw [← e]
      exact h.cacheable
    · have := h.cacheable
      rwa [e] at this
  have hund := CacheCapture.fresh_undecided cfg u.req
  obtain ⟨hd, hf, hct, hteed, hsent⟩ := hund.acts (hcc ▸ hcb)
  rw [← hcc] at hteed hsent
  have hfin : cc.writer.finish = cc.writer := by
    obtain ⟨p, hp, _⟩ := hteed.sent
    exact ResponseWriter.writeHeader_of_sent hp 200
  have hucc : u.cc = cc := by
    rcases hwhere with ⟨e, _⟩ | ⟨e, _⟩
    · exact e
    · rw [e, hfin]
  have hw : cc.writer = (cfg.fresh u.req).writer.acts u.trace := by
    rw [hcc, CacheCapture.acts_writer]
  refine ⟨⟨hu.safe h.cacheable, h.returned, ?_, ?_, hd, hf, hct, fun hfl => ?_⟩, ?_, ?_⟩
  · show u.cc.writer = ite _ _ _
    rw [hucc, ← hw, hfin, ite_self]
  · obtain ⟨p, hp, hp1⟩ := hteed.sent
    rw [hucc, ResponseWriter.status, hp, Option.map_some, hp1]
  · rw [hucc]
    exact hsent hfl rfl
  · rw [← h.status, hucc]
    exact hteed.status
  · rw [← h.body, hucc]
    exact hteed.buf.symm

/-- a source stays one; a second close, which no run has, would end it -/
theorem Sourced.step {cfg : Config} {c c' : ResponseCache} {u u' : Thread} {op : Op} {key : Bytes}
    {status : Nat} {body : Bytes} (h : Sourced key status body u)
    (hopen : ∀ fl f, u.pc.leads fl = true → c.heap[fl]? = some f → f.done = false)
    (hm : Thread.Moves cfg c u op c' u') : Sourced key status body u' := by
  have hr := h.returned
  have goto : ∀ pc : Pc, pc.returned = true → Sourced key status body { u with pc := pc } :=
    fun pc hpc => ⟨h.key, hpc, h.cacheable, h.status, h.body⟩
  cases hm with
  | stamp fl res hpc => exact goto _ rfl
  | store fl res x hpc => exact goto _ rfl
  | publish fl res e hpc => rw [hpc] at hr; exact goto _ hr
  | remove fl e hpc => rw [hpc] at hr; exact goto _ hr
  | close fl f e hpc hf hdone =>
    rw [hpc] at hr
    obtain rfl : e = .returned := by simpa [Pc.returned] using hr
    exact ⟨h.key, rfl, h.cacheable, h.status, h.body⟩
  | closeClosed fl f e hpc hf hdone =>
    have := hopen fl f (Pc.leads_iff.mpr (.inr ⟨e, hpc⟩)) hf
    rw [hdone] at this
    exact absurd this (by simp)
  | hit e hpc he => rw [hpc] at hr; exact absurd hr (by simp [Pc.returned])
  | miss hpc => rw [hpc] at hr; exact absurd hr (by simp [Pc.returned])
  | follow fl hpc hfl => rw [hpc] at hr; exact absurd hr (by simp [Pc.returned])
  | lead hpc hfl => rw [hpc] at hr; exact absurd hr (by simp [Pc.returned])
  | released fl f hpc hf hdone hc => rw [hpc] at hr; exact absurd hr (by simp [Pc.returned])
  | refused fl f hpc hf hdone hc => rw [hpc] at hr; exact absurd hr (by simp [Pc.returned])
  | rehit res e hpc he => rw [hpc] at hr; exact absurd hr (by simp [Pc.returned])
  | share res hpc => rw [hpc] at hr; exact absurd hr (by simp [Pc.returned])
  | act via a hpc => rw [hpc] at hr; exact absurd hr (by simp [Pc.returned])
  | retShare fl hpc hc => rw [hpc] at hr; exact absurd hr (by simp [Pc.returned])
  | retLead fl hpc hc => rw [hpc] at hr; exact absurd hr (by simp [Pc.returned])
  | ret via hpc hvia => rw [hpc] at hr; exact absurd hr (by simp [Pc.returned])
  | crashLead fl hpc => rw [hpc] at hr; exact absurd hr (by simp [Pc.returned])
  | crash via hpc hvia => rw [hpc] at hr; exact absurd hr (by simp [Pc.returned])

/-- entries, and results about to be replayed, have a source -/
structure Vetted (s : State) : Prop where
  entries : ∀ k e, s.shared.entries.lookup k = some e → ∃ u ∈ s.threads, Sourced k e.status e.body u
  recheck : ∀ t ∈ s.threads, ∀ res, t.pc = .recheck res →
    ∃ u ∈ s.threads, Sourced t.req.cacheKey res.status res.body u

theorem ResponseCache.lookup_expire {c : ResponseCache} {key k : Bytes} {e : CacheEntry}
    (h : (c.expire key).entries.lookup k = some e) : c.entries.lookup k = some e := by
  unfold expire at h
  split at h
  · split at h
    · by_cases hk : k = key
      · subst hk
        rw [AList.lookup_erase] at h
        exact absurd h (by simp)
      · rwa [AList.lookup_erase_ne hk] at h
    · exact h
  · exact h

theorem Thread.Moves.req_eq {cfg : Config} {c c' : ResponseCache} {t t' : Thread} {op : Op}
    (h : Thread.Moves cfg c t op c' t') : t'.req = t.req := by
  cases h with
  | close fl f e hpc hf hdone => exact t.finish_req e
  | _ => rfl

theorem step_req_eq {cfg : Config} {c c' : ResponseCache} {t t' : Thread} {op : Op}
    (h : (middleware cfg).step c t op = some (c', t')) : t'.req = t.req := by
  replace h : t.step cfg c op = some (c', t') := h
  exact (Thread.step_moves h).req_eq

theorem Thread.Moves.entries {cfg : Config} {c c' : ResponseCache} {t t' : Thread} {op : Op}
    (h : Thread.Moves cfg c t op c' t') {k : Bytes} {e : CacheEntry}
    (he : c'.entries.lookup k = some e) :
    c.entries.lookup k = some e ∨ ∃ fl res, t.pc = .store fl res e.expires ∧ op = .go ∧
      t' = { t with pc := .publish fl res .returned } ∧ k = t.req.cacheKey ∧
      e = ⟨res.status, res.header, res.body, e.expires⟩ := by
  cases h with
  | hit e hpc hl => exact .inl (ResponseCache.lookup_expire he)
  | miss hpc => exact .inl (ResponseCache.lookup_expire he)
  | rehit res e hpc hl => exact .inl (ResponseCache.lookup_expire he)
  | share res hpc => exact .inl (ResponseCache.lookup_expire he)
  | store fl res x hpc =>
    replace he : (c.entries.insert t.req.cacheKey ⟨res.status, res.header, res.body, x⟩).lookup k =
      some e := he
    by_cases hk : k = t.req.cacheKey
    · subst hk
      rw [AList.lookup_insert] at he
      obtain rfl := Option.some.inj he
      exact .inr ⟨fl, res, hpc, rfl, rfl, rfl, rfl⟩
    · rw [AList.lookup_insert_ne hk] at he
      exact .inl he
  | _ => exact .inl he

/-- a released follower has the result of a finished source -/
theorem sourced_of_done {s : State} (hf : Flying s) {fl : Nat} {f : Flight}
    (hfl : s.shared.heap[fl]? = some f) (hd : f.done = true) (hc : f.result.cacheable = true) :
    ∃ u ∈ s.threads, Sourced f.key f.result.status f.result.body u := by
  have ha := hf.answered fl f hfl
  unfold AnsweredFor at ha
  rw [if_pos hd] at ha
  obtain ⟨u, hu, e, hpc, hk, hres⟩ := ha
  rw [hres] at hc ⊢
  cases e with
  | panicked => exact absurd hc (by simp [Thread.outcome])
  | returned => exact ⟨u, hu, hk, by rw [hpc]; rfl, hc, rfl, rfl⟩

theorem Vetted.step {cfg : Config} {s : State} {i : Nat} {t t' : Thread} {c' : ResponseCache} {op : Op}
    (h : Vetted s) (hf : Flying s) (hh : ∀ t ∈ s.threads, Honest cfg s.shared t)
    (hi : s.threads[i]? = some t) (hm : Thread.Moves cfg s.shared t op c' t') :
    Vetted ⟨c', s.threads.set i t'⟩ := by
  have keep : ∀ {k status body}, (∃ u ∈ s.threads, Sourced k status body u) →
      ∃ u ∈ s.threads.set i t', Sourced k status body u := by
    intro k status body hu
    exact exists_set hi hu (fun ht => ht.step (hf.seated i t hi).opened hm) fun _ hu => hu
  refine ⟨fun k e he => ?_, fun u hu res hpc => ?_⟩
  · rcases hm.entries he with he | ⟨fl, res, hpc, _, rfl, rfl, hee⟩
    · exact keep (h.entries k e he)
    · -- the leader itself is the source of what it stores
      have hcar := (hf.seated i t hi).carries
      unfold Thread.Carries at hcar
      rw [hpc] at hcar
      have hcb := (hh t (List.mem_of_getElem? hi)).shares fl res e.expires (.inr hpc)
      refine ⟨_, List.mem_set (List.getElem?_eq_some_iff.mp hi).1 _, rfl, rfl, hcb, ?_, ?_⟩
      · rw [hee, hcar]
        rfl
      · rw [hee, hcar]
        rfl
  · rcases List.mem_or_eq_of_mem_set hu with hu | rfl
    · exact keep (h.recheck u hu res hpc)
    · -- only a released follower comes to the second look-up
      cases hm with
      | released fl f hpc' hfl hdone hc =>
        obtain rfl := Pc.recheck.inj hpc
        have hk : f.key = t.req.cacheKey := by
          have hkey := (hf.seated i t hi).key fl (.inl hpc')
          rw [ResponseCache.keyAt, hfl] at hkey
          exact Option.some.inj hkey
        have := sourced_of_done hf hfl hdone hc
        rw [hk] at this
        exact keep this
      | act via a hpc' =>
        replace hpc : t.pc = _ := hpc
        rw [hpc'] at hpc
        exact absurd hpc (by simp)
      | close fl f e hpc' hfl hdone => rw [t.finish_pc] at hpc; exact absurd hpc (by simp)
      | closeClosed fl f e hpc' hfl hdone => rw [t.finish_pc] at hpc; exact absurd hpc (by simp)
      | ret via hpc' hvia => rw [t.finish_pc] at hpc; exact absurd hpc (by simp)
      | crash via hpc' hvia => rw [t.finish_pc] at hpc; exact absurd hpc (by simp)
      | _ => exact absurd hpc (by simp [Thread.replayEntry, Thread.replayResult, Thread.writeReplay, Thread.finish])

theorem vetted_of_runs {cfg : Config} {G : State → PoolAct Request Nat Op → Prop} {now : Int}
    {s : State} {as : List (PoolAct Request Nat Op)}
    (h : (middleware cfg).machine.Runs G (init now) as s) : Vetted s := by
  refine h.inv_along (fun bs s a s' hr hs _ hm => ?_) ⟨fun k e he => absurd he ?_,
    fun t ht => absurd ht (by simp [init])⟩
  · cases a with
    | spawn r =>
      obtain rfl := Option.some.inj hm
      refine ⟨fun k e he => exists_snoc (hs.entries k e he), ?_⟩
      intro u hu res hpc
      rcases List.mem_append.mp hu with hu | hu
      · exact exists_snoc (hs.recheck u hu res hpc)
      · obtain rfl := List.mem_singleton.mp hu
        replace hpc : ite _ _ _ = _ := hpc
        split at hpc <;> exact absurd hpc (by simp)
    | env d =>
      obtain ⟨c', hc, rfl⟩ := Sys.machine_env hm
      obtain rfl := Option.some.inj hc
      exact ⟨hs.entries, hs.recheck⟩
    | step i op =>
      obtain ⟨t, c', t', ht, hst, rfl⟩ := Sys.machine_step hm
      exact hs.step (flying_of_runs hr) (honest_of_runs hr) ht (Thread.step_moves hst)
  · show (∅ : AList fun _ : Bytes => CacheEntry).lookup k ≠ some e
    rw [AList.lookup_empty]
    simp

/-! ## deliveries -/

/-- the request `j` is about to store the entry -/
def Stores (s : State) (j : Nat) (key : Bytes) (e : CacheEntry) : Prop :=
  ∃ v fl res, s.threads[j]? = some v ∧ v.req.cacheKey = key ∧ v.pc = .store fl res e.expires ∧
    e = ⟨res.status, res.header, res.body, e.expires⟩

/-- a run `as` to `s` has stored the entry, and its clock has not moved more than the ttl since -/
def StoredWithin (cfg : Config) (now : Int) (as : List (PoolAct Request Nat Op)) (s : State)
    (key : Bytes) (e : CacheEntry) : Prop :=
  ∃ bs j cs s₀, as = bs ++ .step j .go :: cs ∧
    (middleware cfg).machine.Runs free (init now) bs s₀ ∧ Stores s₀ j key e ∧
    s.shared.now ≤ s₀.shared.now + cfg.ttl

theorem stored_within {cfg : Config} {now : Int} {as : List (PoolAct Request Nat Op)} {s : State}
    (h : (middleware cfg).machine.Runs free (init now) as s) {key : Bytes} {e : CacheEntry}
    (hl : s.shared.live key = some e) : StoredWithin cfg now as s key e := by
  obtain ⟨hlook, hfresh⟩ := Option.filter_eq_some_iff.mp hl
  have hle : s.shared.now ≤ e.expires := by simpa using hfresh
  have h0 : ¬ (init now).shared.entries.lookup key = some e := by
    show (∅ : AList fun _ : Bytes => CacheEntry).lookup key ≠ some e
    rw [AList.lookup_empty]
    simp
  obtain ⟨bs, a, cs, s₀, s₁, rfl, hr, hno, _, hm, hyes, _⟩ :=
    h.exists_step (P := fun s => s.shared.entries.lookup key = some e) h0 hlook
  cases a with
  | spawn r =>
    obtain rfl := Option.some.inj hm
    exact absurd hyes hno
  | env d =>
    obtain ⟨c', hc, rfl⟩ := Sys.machine_env hm
    obtain rfl := Option.some.inj hc
    exact absurd hyes hno
  | step j op =>
    obtain ⟨v, c', v', hv, hst, rfl⟩ := Sys.machine_step hm
    rcases (Thread.step_moves hst).entries hyes with hold | ⟨fl, res, hpc, rfl, _, rfl, hee⟩
    · exact absurd hold hno
    · have hx := (honest_of_runs hr v (List.mem_of_getElem? hv)).expires fl res _ hpc
      exact ⟨bs, j, cs, s₀, rfl, hr, ⟨v, fl, res, hv, rfl, hpc, hee⟩, by omega⟩

theorem finished_stays {S : Sys ResponseCache Thread Request Nat Op} {cfg : Config}
    (hS : S.step = (middleware cfg).step) {s s' : State} {as : List (PoolAct Request Nat Op)}
    {G : State → PoolAct Request Nat Op → Prop} (h : S.machine.Runs G s as s')
    {i : Nat} {t : Thread} {e : Ending} (ht : s.threads[i]? = some t) (hpc : t.pc = .finished e) :
    s'.threads[i]? = some t := by
  refine h.inv (P := fun s => s.threads[i]? = some t) (fun s a s' hs _ hm => ?_) ht
  cases a with
  | spawn r =>
    obtain rfl := Option.some.inj hm
    show (s.threads ++ _)[i]? = _
    rw [List.getElem?_append_left (List.getElem?_eq_some_iff.mp hs).1]
    exact hs
  | env d =>
    obtain ⟨c', _, rfl⟩ := Sys.machine_env hm
    exact hs
  | step j op =>
    obtain ⟨u, c', u', hu, hst, rfl⟩ := Sys.machine_step hm
    rw [hS] at hst
    by_cases hj : j = i
    · subst hj
      obtain rfl := Option.some.inj (hu.symm.trans hs)
      exact absurd hpc ((Thread.step_moves hst).not_finished e)
    · show (s.threads.set j u')[i]? = _
      rw [List.getElem?_set_ne hj]
      exact hs

/-- the step that delivers a request's response: the state before it, and the request there -/
structure DeliveredAt (cfg : Config) (now : Int) (as : List (PoolAct Request Nat Op)) (i : Nat)
    (as₁ : List (PoolAct Request Nat Op)) (s₁ : State) (t₁ : Thread) : Prop where
  run : (middleware cfg).machine.Runs free (init now) as₁ s₁
  step : ∃ op as₂, as = as₁ ++ .step i op :: as₂
  thread : s₁.threads[i]? = some t₁
  pending : ∀ e, t₁.pc ≠ .finished e

/-- a copy: somebody's earlier call for the key has returned the response, and if the request found
an entry it is that entry's, stored at most ttl before -/
def CopiedFrom (cfg : Config) (now : Int) (as₁ : List (PoolAct Request Nat Op)) (s₁ : State)
    (t : Thread) : Prop :=
  (∃ u ∈ s₁.threads, u.Complete cfg ∧ u.req.cacheKey = t.req.cacheKey ∧ t.Copies u) ∧
  ∀ e, s₁.shared.live t.req.cacheKey = some e →
    (t.cc.writer.status = some e.status ∧ t.cc.writer.body = e.body) ∧
    StoredWithin cfg now as₁ s₁ t.req.cacheKey e

section
variable {cfg : Config} {now : Int} {as₁ : List (PoolAct Request Nat Op)} {s₁ : State}
variable (h : (middleware cfg).machine.Runs free (init now) as₁ s₁) {i : Nat} {t₁ : Thread}
variable (ht₁ : s₁.threads[i]? = some t₁)
include h ht₁

theorem copies_of_sourced {status : Nat} {body : Bytes} (hi : t₁.pc.idle = true)
    (hsrc : ∃ u ∈ s₁.threads, Sourced t₁.req.cacheKey status body u) (header : Header) :
    (∃ u ∈ s₁.threads, u.Complete cfg ∧ u.req.cacheKey = t₁.req.cacheKey ∧
      (t₁.writeReplay header status body "HIT").Copies u) ∧
    (t₁.writeReplay header status body "HIT").cc.writer.status = some status ∧
    (t₁.writeReplay header status body "HIT").cc.writer.body = body := by
  obtain ⟨u, hu, hsu⟩ := hsrc
  obtain ⟨hcomp, rfl, hbody⟩ := hsu.complete (honest_of_runs h u hu)
  obtain ⟨_, hcc⟩ := (honest_of_runs h t₁ (List.mem_of_getElem? ht₁)).fresh_of_idle hi
  obtain ⟨hst, hbd⟩ := Thread.writeReplay_delivers (t := t₁) (by rw [hcc]; rfl) (by rw [hcc]; rfl)
    (le_refl 200) header body "HIT"
  exact ⟨⟨u, hu, hcomp, hsu.key, hst.trans hcomp.status.symm, hbd.trans hbody.symm⟩, hst, hbd⟩

theorem copied_entry {e : CacheEntry} (hi : t₁.pc.idle = true)
    (hl : s₁.shared.live t₁.req.cacheKey = some e) :
    CopiedFrom cfg now as₁ s₁ (t₁.replayEntry e) := by
  have hlook := (Option.filter_eq_some_iff.mp hl).1
  obtain ⟨hcopy, hst, hbd⟩ := copies_of_sourced h ht₁ hi ((vetted_of_runs h).entries _ e hlook) e.header
  refine ⟨hcopy, ?_⟩
  intro e' he'
  replace he' : s₁.shared.live t₁.req.cacheKey = some e' := he'
  obtain rfl := Option.some.inj (hl.symm.trans he')
  exact ⟨⟨hst, hbd⟩, stored_within h hl⟩

theorem copied_result {res : FlightResult} (hpc : t₁.pc = .recheck res)
    (hl : s₁.shared.live t₁.req.cacheKey = none) :
    CopiedFrom cfg now as₁ s₁ (t₁.replayResult res) := by
  obtain ⟨hcopy, _⟩ := copies_of_sourced h ht₁ (by rw [hpc]; rfl)
    ((vetted_of_runs h).recheck t₁ (List.mem_of_getElem? ht₁) res hpc) res.header
  refine ⟨hcopy, ?_⟩
  intro e he
  replace he : s₁.shared.live t₁.req.cacheKey = some e := he
  rw [hl] at he
  exact absurd he (by simp)

theorem passThrough_finish (hpc : t₁.pc.captured = true) (e : Ending) :
    (t₁.finish e).PassThrough cfg := by
  obtain ⟨_, hcc⟩ := (honest_of_runs h t₁ (List.mem_of_getElem? ht₁)).traced.captured hpc
  have hw : t₁.cc.writer = (cfg.fresh t₁.req).writer.acts t₁.trace := by
    rw [hcc, CacheCapture.acts_writer]
  unfold Thread.PassThrough
  cases e with
  | returned =>
    rw [Thread.passed_returned (t₁.finish_pc .returned)]
    exact congrArg ResponseWriter.finish hw
  | panicked =>
    rw [Thread.passed_pending (by rw [t₁.finish_pc]; simp)]
    exact hw

theorem delivering_step {op : Op} {c' : ResponseCache} {t' : Thread} {e : Ending}
    (hst : (middleware cfg).step s₁.shared t₁ op = some (c', t')) (hs : t₁.req.Safe)
    (hfin : t'.pc = .finished e) :
    t₁.pc.idle = false ∧ t'.PassThrough cfg ∨
      t₁.pc.idle = true ∧ CopiedFrom cfg now as₁ s₁ t' := by
  have hm := Thread.step_moves hst
  have hnf := hm.not_finished
  cases hm with
  | hit e hpc he => exact .inr ⟨by rw [hpc]; rfl, copied_entry h ht₁ (by rw [hpc]; rfl) he⟩
  | rehit res e hpc he => exact .inr ⟨by rw [hpc]; rfl, copied_entry h ht₁ (by rw [hpc]; rfl) he⟩
  | share res hpc =>
    refine .inr ⟨by rw [hpc]; rfl, ?_⟩
    cases hl : s₁.shared.live t₁.req.cacheKey with
    | none => exact copied_result h ht₁ hpc hl
    | some e =>
      -- the second look-up comes first
      have hgo : t₁.go cfg s₁.shared = some (s₁.shared.expire t₁.req.cacheKey, t₁.replayEntry e) := by
        simp only [Thread.go, hpc, ResponseCache.get, hl]
      have he : t₁.replayResult res = t₁.replayEntry e :=
        (Prod.mk.inj (Option.some.inj (hst.symm.trans hgo))).2
      rw [he]
      exact copied_entry h ht₁ (by rw [hpc]; rfl) hl
  | close fl f e hpc hf hdone =>
    exact .inl ⟨by rw [hpc]; rfl, passThrough_finish h ht₁ (by rw [hpc]; rfl) e⟩
  | closeClosed fl f e hpc hf hdone =>
    exact .inl ⟨by rw [hpc]; rfl, passThrough_finish h ht₁ (by rw [hpc]; rfl) .panicked⟩
  | ret via hpc hvia =>
    rcases hvia with rfl | rfl
    · have hb := (honest_of_runs h t₁ (List.mem_of_getElem? ht₁)).traced.bypass hpc
      exact absurd hs hb
    · exact .inl ⟨by rw [hpc]; rfl, passThrough_finish h ht₁ (by rw [hpc]; rfl) .returned⟩
  | crash via hpc hvia =>
    rcases hvia with rfl | rfl
    · have hb := (honest_of_runs h t₁ (List.mem_of_getElem? ht₁)).traced.bypass hpc
      exact absurd hs hb
    · exact .inl ⟨by rw [hpc]; rfl, passThrough_finish h ht₁ (by rw [hpc]; rfl) .panicked⟩
  | act via a hpc =>
    replace hfin : t₁.pc = _ := hfin
    exact absurd hfin (hnf e)
  | _ => exact absurd hfin (by simp)

end

/-- **What a client is given.**  In every run, a GET or HEAD request that is done has called the
backend itself and its client was sent what its handler did, or it has not, and its client was sent
status and body of an earlier call for the same key that returned 200 with no event stream; a copy
found in the map was stored at most ttl before. -/
theorem delivered_sound (cfg : Config) (now : Int) (as : List (PoolAct Request Nat Op)) (s : State)
    (h : (middleware cfg).machine.Runs free (init now) as s) (i : Nat) (t : Thread) (e : Ending)
    (ht : s.threads[i]? = some t) (hs : t.req.Safe) (hfin : t.pc = .finished e) :
    ∃ as₁ s₁ t₁, DeliveredAt cfg now as i as₁ s₁ t₁ ∧
      (t₁.pc.idle = false ∧ t.PassThrough cfg ∨
        t₁.pc.idle = true ∧ CopiedFrom cfg now as₁ s₁ t) := by
  let P : State → Prop := fun s => ∃ t e, s.threads[i]? = some t ∧ t.pc = .finished e
  have h0 : ¬ P (init now) := by
    rintro ⟨t, e, ht, _⟩
    exact absurd ht (by simp [init])
  obtain ⟨as₁, a, as₂, s₁, s₂, rfl, hr, hno, _, hm, ⟨t', e', ht', hfin'⟩, hr'⟩ :=
    h.exists_step (P := P) h0 ⟨t, e, ht, hfin⟩
  -- it is the request's own step that ends it, and nothing happens to it later
  obtain rfl := Option.some.inj (ht.symm.trans (finished_stays rfl hr' ht' hfin'))
  cases a with
  | spawn r =>
    obtain rfl := Option.some.inj hm
    refine absurd hfin' (forall_snoc (P := fun j t => j = i → t.pc ≠ .finished e')
      (fun j t hj hji hp => ?_) (fun _ => ?_) i t ht' rfl)
    · subst hji
      exact hno ⟨t, e', hj, hp⟩
    · show ite _ _ _ ≠ _
      split <;> simp
  | env d =>
    obtain ⟨c', _, rfl⟩ := Sys.machine_env hm
    exact absurd ⟨t, e', ht', hfin'⟩ hno
  | step j op =>
    obtain ⟨u, c', u', hu, hst, rfl⟩ := Sys.machine_step hm
    by_cases hj : j = i
    · subst hj
      have hlt := (List.getElem?_eq_some_iff.mp hu).1
      replace ht' : (s₁.threads.set j u')[j]? = some t := ht'
      rw [List.getElem?_set_self hlt] at ht'
      obtain rfl := Option.some.inj ht'
      have hreq := (Thread.step_moves hst).req_eq
      exact ⟨as₁, s₁, u, ⟨hr, ⟨op, as₂, rfl⟩, hu, (Thread.step_moves hst).not_finished⟩,
        delivering_step hr hu hst (hreq ▸ hs) hfin⟩
    · replace ht' : (s₁.threads.set j u')[i]? = some t := ht'
      rw [List.getElem?_set_ne hj] at ht'
      exact absurd ⟨t, e', ht', hfin'⟩ hno

/-- a request is fetched and stored, and three seconds later another one finds the entry -/
def hitAfterFetch : List (PoolAct Request Nat Op) :=
  [.spawn (gatesRequest []), .step 0 .go, .step 0 .go,
    .step 0 (.act (.add "Content-Type" "application/json")), .step 0 (.act (.writeHeader 200)),
    .step 0 (.act (.write (ascii "[]"))), .step 0 .ret, .step 0 .go, .step 0 .go, .step 0 .go,
    .step 0 .go, .step 0 .go, .env 3, .spawn (gatesRequest []), .step 1 .go]

theorem hit_delivered :
    ∃ s t, (middleware plainConfig).machine.Runs free (init 0) hitAfterFetch s ∧
      s.threads[1]? = some t ∧ t.cc.writer.body = ascii "[]" ∧
      ∃ as₁ s₁ t₁, DeliveredAt plainConfig 0 hitAfterFetch 1 as₁ s₁ t₁ ∧
        (t₁.pc.idle = false ∧ t.PassThrough plainConfig ∨
          t₁.pc.idle = true ∧ CopiedFrom plainConfig 0 as₁ s₁ t) :=
  ⟨_, _, Machine.runs_free_iff.mpr rfl, rfl, rfl,
    delivered_sound plainConfig 0 hitAfterFetch _ (Machine.runs_free_iff.mpr rfl) 1 _ .returned rfl
      (.inl rfl) rfl⟩

end Gateway
