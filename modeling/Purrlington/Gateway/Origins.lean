import Purrlington.Gateway.Cors
import Purrlington.Gateway.OneFetch

/-!
# Gateway: the origin a response names

`ProxyRoute` drops the CORS headers of an upstream, so a fetched response has the one origin that
`CORSMiddleware` has set for the request.  A stored response has the header of the request that
fetched it, and a replay adds it to the header of the request it is replayed to.

* `Tagged`            a request that has not been answered has its own origin and no other;
* `Untagged`          nothing is replayed to an allowed origin that names an origin already;
* `one_origin_iff`    every allowed request is sent its own origin, once, exactly in the runs whose
                      replays are so;
* `origin_twice`      a run that answers with two origins.
-/

set_option linter.unusedSectionVars false

namespace Gateway
open SM

/-! ## writers -/

namespace RwAct

/-- the operation leaves the values of a header -/
def keeps (name : String) : RwAct → Bool
  | .add n _ => n != name
  | .set n _ => n != name
  | .del n => n != name
  | _ => true

end RwAct

/-- the values of the header, and of the header that was sent -/
def ResponseWriter.Shows (w : ResponseWriter) (name : String) (vs : List String) : Prop :=
  w.header.values name = vs ∧ ∀ p, w.sent = some p → p.2.values name = vs

namespace ResponseWriter
variable {w : ResponseWriter} {name : String} {vs : List String}

theorem Shows.writeHeader (h : w.Shows name vs) (code : Nat) : (w.writeHeader code).Shows name vs := by
  refine ⟨?_, ?_⟩
  · rw [writeHeader_header]
    exact h.1
  · intro p hp
    rcases writeHeader_sent hp with hp | e
    · exact h.2 p hp
    · rw [e]
      exact h.1

theorem Shows.act (h : w.Shows name vs) {a : RwAct} (ha : a.keeps name = true) :
    (w.act a).Shows name vs := by
  cases a with
  | add n v =>
    refine ⟨?_, h.2⟩
    show (w.header.add n v).values name = vs
    rw [Header.values_add_ne (by simpa [RwAct.keeps] using ha)]
    exact h.1
  | set n v =>
    refine ⟨?_, h.2⟩
    show (w.header.set n v).values name = vs
    rw [Header.values_set_ne (by simpa [RwAct.keeps] using ha)]
    exact h.1
  | del n =>
    refine ⟨?_, h.2⟩
    show (w.header.del n).values name = vs
    rw [Header.values_del_ne (by simpa [RwAct.keeps] using ha)]
    exact h.1
  | writeHeader code => exact h.writeHeader code
  | write b => exact h.writeHeader 200
  | flush => exact h.writeHeader 200

end ResponseWriter

/-- a replay is sent with the request's own header and the stored one -/
theorem Thread.writeReplay_sent {t : Thread} (ht : t.cc.writer.sent = none) (header : Header)
    (status : Nat) (body : Bytes) (tag : String) :
    ∃ p, (t.writeReplay header status body tag).cc.writer.sent = some p ∧
      p.2.values acao = t.cc.writer.header.values acao ++ header.values acao := by
  let w : ResponseWriter :=
    { t.cc.writer with header := Header.set (t.cc.writer.header ++ header) "X-Cache" tag }
  have hw : w.Shows acao (t.cc.writer.header.values acao ++ header.values acao) := by
    refine ⟨?_, fun p hp => ?_⟩
    · show (Header.set (t.cc.writer.header ++ header) "X-Cache" tag).values acao = _
      rw [Header.values_set_ne (by decide), Header.values_append]
    · replace hp : t.cc.writer.sent = some p := hp
      rw [ht] at hp
      exact absurd hp (by simp)
  have hw' : ((w.writeHeader status).write body).Shows acao
      (t.cc.writer.header.values acao ++ header.values acao) :=
    (hw.writeHeader status).act (a := .write body) rfl
  obtain ⟨p, hp, hwas⟩ := ((w.writeHeader status).write body).finish_sent
  refine ⟨p, hp, ?_⟩
  rcases hwas with hsent | ⟨_, hheader⟩
  · exact hw'.2 p hsent
  · rw [hheader]
    exact hw'.1

/-! ## the proxy leaves the origin -/

theorem proxyRoute_keeps {r : Request} {h : List RwAct} (hp : proxyRoute.acts r h) :
    ∀ a ∈ h, a.keeps acao = true := by
  have hbody : ∀ a : RwAct, a.isBody = true → a.keeps acao = true := by
    intro a ha
    cases a with
    | write b => rfl
    | flush => rfl
    | _ => exact absurd ha (by simp [RwAct.isBody])
  have hhead : ∀ p : Reply, ∀ a ∈ p.modified.head, a.keeps acao = true := by
    intro p a ha
    rcases List.mem_append.mp ha with ha | ha
    · obtain ⟨q, hq, rfl⟩ := List.mem_map.mp ha
      have hcors := (List.mem_filter.mp hq).2
      apply bne_iff_ne.mpr
      intro e
      rw [e] at hcors
      exact absurd hcors (by decide)
    · obtain rfl := List.mem_singleton.mp ha
      rfl
  intro a ha
  rcases hp with hp | ⟨p, hp | ⟨bs, rfl, hb, _⟩⟩
  · have herr : ∀ a ∈ errorHandler, a.keeps acao = true := by
      intro a ha
      simp only [errorHandler, List.mem_cons, List.not_mem_nil, or_false] at ha
      rcases ha with rfl | rfl | rfl
      · decide
      · rfl
      · rfl
    exact herr a (hp.subset ha)
  · exact hhead p a (hp.subset ha)
  · rcases List.mem_append.mp ha with ha | ha
    · exact hhead p a ha
    · exact hbody a (hb a ha)

/-! ## requests -/

/-- the origin values that `CORSMiddleware` gives a request -/
def Config.ownOrigin (cfg : Config) (r : Request) : List String := (cfg.outer r).values acao

/-- what a request has before it is answered -/
structure Tagged (cfg : Config) (t : Thread) : Prop where
  fresh : t.pc.idle = true → t.cc = cfg.fresh t.req
  own : (∀ e, t.pc ≠ .finished e) → t.cc.writer.Shows acao (cfg.ownOrigin t.req)

theorem fresh_shows (cfg : Config) (r : Request) :
    (cfg.fresh r).writer.Shows acao (cfg.ownOrigin r) :=
  ⟨rfl, fun p hp => absurd hp (by simp [Config.fresh])⟩

theorem Thread.capture_writer (t : Thread) (via : Via) (a : RwAct) :
    (t.capture via a).writer = t.cc.writer.act a := by
  cases via with
  | bypass => rfl
  | own => exact t.cc.act_writer a
  | lead fl => exact t.cc.act_writer a

/-- the header a request's next step replays -/
def Thread.replays (c : ResponseCache) (t : Thread) : Option Header :=
  match t.pc with
  | .lookup => (c.live t.req.cacheKey).map CacheEntry.header
  | .recheck res => some ((c.live t.req.cacheKey).elim res.header CacheEntry.header)
  | _ => none

section
variable {cfg : Config} {c c' : ResponseCache} {t t' : Thread} {op : Op}

theorem Tagged.goto (h : Tagged cfg t) {pc : Pc} (hpc : ∀ e, t.pc ≠ .finished e)
    (hi : pc.idle = true → t.pc.idle = true) : Tagged cfg { t with pc := pc } :=
  ⟨fun hp => h.fresh (hi hp), fun _ => h.own hpc⟩

theorem Tagged.done {e : Ending} (hpc : t'.pc = .finished e) : Tagged cfg t' :=
  ⟨fun hp => absurd hp (by rw [hpc]; simp [Pc.idle]), fun hp => absurd hpc (hp e)⟩

theorem Tagged.step (h : Tagged cfg t) (hg : proxyRoute.allows t op)
    (hm : Thread.Moves cfg c t op c' t') : Tagged cfg t' := by
  have hnf := hm.not_finished
  cases hm with
  | hit e hpc he => exact .done rfl
  | miss hpc => exact h.goto hnf fun _ => by rw [hpc]; rfl
  | follow fl hpc hfl => exact h.goto hnf fun _ => by rw [hpc]; rfl
  | lead hpc hfl => exact h.goto hnf fun hp => absurd hp (by simp [Pc.idle])
  | released fl f hpc hf hdone hc => exact h.goto hnf fun _ => by rw [hpc]; rfl
  | refused fl f hpc hf hdone hc => exact h.goto hnf fun hp => absurd hp (by simp [Pc.idle])
  | rehit res e hpc he => exact .done rfl
  | share res hpc => exact .done rfl
  | stamp fl res hpc => exact h.goto hnf fun hp => absurd hp (by simp [Pc.idle])
  | store fl res x hpc => exact h.goto hnf fun hp => absurd hp (by simp [Pc.idle])
  | publish fl res e hpc => exact h.goto hnf fun hp => absurd hp (by simp [Pc.idle])
  | remove fl e hpc => exact h.goto hnf fun hp => absurd hp (by simp [Pc.idle])
  | close fl f e hpc hf hdone => exact .done (t.finish_pc e)
  | closeClosed fl f e hpc hf hdone => exact .done (t.finish_pc .panicked)
  | act via a hpc =>
    refine ⟨fun hp => ?_, fun _ => ?_⟩
    · replace hp : t.pc.idle = true := hp
      rw [hpc] at hp
      exact absurd hp (by simp [Pc.idle])
    · show (t.capture via a).writer.Shows acao _
      rw [t.capture_writer]
      exact (h.own hnf).act (proxyRoute_keeps hg a (List.mem_append_right _ List.mem_cons_self))
  | retShare fl hpc hc => exact h.goto hnf fun hp => absurd hp (by simp [Pc.idle])
  | retLead fl hpc hc => exact h.goto hnf fun hp => absurd hp (by simp [Pc.idle])
  | ret via hpc hvia => exact .done (t.finish_pc .returned)
  | crashLead fl hpc => exact h.goto hnf fun hp => absurd hp (by simp [Pc.idle])
  | crash via hpc hvia => exact .done (t.finish_pc .panicked)

theorem Tagged.answer (h : Tagged cfg t) {e : Ending}
    (hst : (middleware cfg).step c t op = some (c', t')) (hfin : t'.pc = .finished e) :
    (op ≠ .go ∨ t.replays c = none) ∧ t'.cc.writer.Shows acao (cfg.ownOrigin t.req) ∨
    ∃ hd, op = .go ∧ t.replays c = some hd ∧ ∃ p, t'.cc.writer.sent = some p ∧
      p.2.values acao = cfg.ownOrigin t.req ++ hd.values acao := by
  have hm := Thread.step_moves hst
  have hnf := hm.not_finished
  have hown := h.own hnf
  have replay : t.pc.idle = true → ∀ header status body, t'= t.writeReplay header status body "HIT" →
      ∃ p, t'.cc.writer.sent = some p ∧ p.2.values acao = cfg.ownOrigin t.req ++ header.values acao := by
    rintro hi header status body rfl
    have hcc := h.fresh hi
    obtain ⟨p, hp, hv⟩ := Thread.writeReplay_sent (t := t) (by rw [hcc]; rfl) header status body "HIT"
    refine ⟨p, hp, ?_⟩
    rw [hv, hcc]
    rfl
  have finish : ∀ e', (t.finish e').cc.writer.Shows acao (cfg.ownOrigin t.req) := by
    intro e'
    cases e' with
    | returned => exact hown.writeHeader 200
    | panicked => exact hown
  cases hm with
  | hit e hpc he =>
    refine .inr ⟨e.header, rfl, ?_, replay (by rw [hpc]; rfl) e.header e.status e.body rfl⟩
    simp only [Thread.replays, hpc, he, Option.map_some]
  | rehit res e hpc he =>
    refine .inr ⟨e.header, rfl, ?_, replay (by rw [hpc]; rfl) e.header e.status e.body rfl⟩
    simp only [Thread.replays, hpc, he, Option.elim_some]
  | share res hpc =>
    cases hl : c.live t.req.cacheKey with
    | none =>
      refine .inr ⟨res.header, rfl, ?_, replay (by rw [hpc]; rfl) res.header res.status res.body rfl⟩
      simp only [Thread.replays, hpc, hl, Option.elim_none]
    | some e =>
      -- the second look-up comes first
      have hgo : t.go cfg c = some (c.expire t.req.cacheKey, t.replayEntry e) := by
        simp only [Thread.go, hpc, ResponseCache.get, hl]
      have he : t.replayResult res = t.replayEntry e :=
        (Prod.mk.inj (Option.some.inj (hst.symm.trans hgo))).2
      refine .inr ⟨e.header, rfl, ?_, replay (by rw [hpc]; rfl) e.header e.status e.body he⟩
      simp only [Thread.replays, hpc, hl, Option.elim_some]
  | close fl f e hpc hf hdone =>
    exact .inl ⟨.inr (by simp only [Thread.replays, hpc]), finish e⟩
  | closeClosed fl f e hpc hf hdone =>
    exact .inl ⟨.inr (by simp only [Thread.replays, hpc]), finish .panicked⟩
  | ret via hpc hvia => exact .inl ⟨.inl (by simp), finish .returned⟩
  | crash via hpc hvia => exact .inl ⟨.inl (by simp), finish .panicked⟩
  | act via a hpc =>
    replace hfin : t.pc = _ := hfin
    exact absurd hfin (hnf e)
  | _ => exact absurd hfin (by simp)

end

theorem finished_of_replays {cfg : Config} {c c' : ResponseCache} {t t' : Thread} {hd : Header}
    (hr : t.replays c = some hd) (hst : (middleware cfg).step c t .go = some (c', t')) :
    t'.pc = .finished .returned := by
  replace hst : t.go cfg c = some (c', t') := hst
  unfold Thread.replays at hr
  cases hpc : t.pc with
  | lookup =>
    rw [hpc] at hr
    obtain ⟨e, he, _⟩ := Option.map_eq_some_iff.mp hr
    simp only [Thread.go, hpc, ResponseCache.get, he] at hst
    obtain ⟨_, rfl⟩ := Prod.mk.inj (Option.some.inj hst)
    rfl
  | recheck res =>
    simp only [Thread.go, hpc, ResponseCache.get] at hst
    cases hl : c.live t.req.cacheKey with
    | none =>
      rw [hl] at hst
      obtain ⟨_, rfl⟩ := Prod.mk.inj (Option.some.inj hst)
      rfl
    | some e =>
      rw [hl] at hst
      obtain ⟨_, rfl⟩ := Prod.mk.inj (Option.some.inj hst)
      rfl
  | _ =>
    rw [hpc] at hr
    exact absurd hr (by simp)

/-! ## whole runs -/

/-- the response that was sent names the request's origin, once, and no other -/
def OneOrigin (t : Thread) : Prop := ∀ p, t.cc.writer.sent = some p → p.2.values acao = [t.req.origin]

/-- what is replayed to a request with an allowed origin names no origin yet -/
def Untagged (allowedOrigins : List String) (s : State) : PoolAct Request Nat Op → Prop
  | .step i .go => ∀ t ∈ s.threads[i]?, corsAllows allowedOrigins t.req.origin = true →
      ∀ hd, t.replays s.shared = some hd → hd.values acao = []
  | _ => True

theorem start_tagged (cfg : Config) (r : Request) : Tagged cfg ((stack cfg).start r) := by
  show Tagged cfg (if r.method = ascii "OPTIONS" then preflight cfg r else cfg.start r)
  split
  · exact .done rfl
  · exact ⟨fun _ => rfl, fun _ => fresh_shows cfg r⟩

theorem tagged_of_runs {cfg : Config} {G : State → PoolAct Request Nat Op → Prop}
    (hG : ∀ s a, G s a → Conforms proxyRoute s a) {now : Int} {s : State}
    {as : List (PoolAct Request Nat Op)} (h : (stack cfg).machine.Runs G (init now) as s) :
    ∀ t ∈ s.threads, Tagged cfg t := by
  have hinv := Sys.inv (I := fun _ => True) (T := fun _ t => Tagged cfg t) h
    (fun _ r _ => start_tagged cfg r)
    (fun _ _ _ _ _ => ⟨trivial, fun _ hu => hu⟩)
    (fun s i a t c' t' hs hg ht hst => ⟨trivial,
      (hs.threads t (List.mem_of_getElem? ht)).step (hG s _ hg t ht) (Thread.step_moves hst),
      fun _ hu => hu⟩)
    ⟨trivial, fun t ht => absurd ht (by simp [init])⟩
  exact hinv.threads

section
variable {allowedOrigins : List String} {ttl : Int} {ttl_pos : 0 < ttl}

theorem ownOrigin_of_allows {r : Request} (h : corsAllows allowedOrigins r.origin = true) :
    (corsConfig allowedOrigins ttl ttl_pos).ownOrigin r = [r.origin] := by
  show (corsHeader allowedOrigins r).values acao = _
  rw [corsHeader_origin, if_pos h]

theorem start_oneOrigin {r : Request} (h : corsAllows allowedOrigins r.origin = true) :
    OneOrigin ((stack (corsConfig allowedOrigins ttl ttl_pos)).start r) := by
  have hfresh := fresh_shows (corsConfig allowedOrigins ttl ttl_pos) r
  rw [ownOrigin_of_allows h] at hfresh
  show OneOrigin (if r.method = ascii "OPTIONS" then preflight _ r else Config.start _ r)
  split
  · exact ((hfresh.writeHeader 204).writeHeader 200).2
  · exact hfresh.2

theorem oneOrigin_step {s : State} {i : Nat} {t t' : Thread} {c' : ResponseCache} {op : Op}
    (hi : s.threads[i]? = some t) (ht : Tagged (corsConfig allowedOrigins ttl ttl_pos) t)
    (hg : proxyRoute.allows t op) (hu : Untagged allowedOrigins s (.step i op))
    (hst : (middleware (corsConfig allowedOrigins ttl ttl_pos)).step s.shared t op = some (c', t'))
    (ha : corsAllows allowedOrigins t.req.origin = true) : OneOrigin t' := by
  have hm := Thread.step_moves hst
  have hreq := hm.req_eq
  have hown : (corsConfig allowedOrigins ttl ttl_pos).ownOrigin t.req = [t.req.origin] :=
    ownOrigin_of_allows ha
  intro p hp
  rw [hreq]
  by_cases hfin : ∃ e, t'.pc = .finished e
  · obtain ⟨e, hfin⟩ := hfin
    rcases ht.answer hst hfin with ⟨_, hshow⟩ | ⟨hd, rfl, hr, q, hq, hv⟩
    · rw [← hown]
      exact hshow.2 p hp
    · obtain rfl := Option.some.inj (hq.symm.trans hp)
      rw [hv, hown, hu t hi ha hd hr, List.append_nil]
  · have hshow := (ht.step hg hm).own fun e he => hfin ⟨e, he⟩
    rw [hreq, hown] at hshow
    exact hshow.2 p hp

/-- **One origin.**  In a run of the whole stack every response to a request with an allowed origin
names that origin, once and alone, if and only if nothing is replayed to such a request that names
an origin already. -/
theorem one_origin_iff {now : Int} {s : State} {as : List (PoolAct Request Nat Op)}
    (h : (stack (corsConfig allowedOrigins ttl ttl_pos)).machine.Runs (Conforms proxyRoute)
      (init now) as s) :
    (∀ t ∈ s.threads, corsAllows allowedOrigins t.req.origin = true → OneOrigin t) ↔
      (stack (corsConfig allowedOrigins ttl ttl_pos)).machine.Runs
        (fun s a => Conforms proxyRoute s a ∧ Untagged allowedOrigins s a) (init now) as s := by
  constructor
  · intro hone
    refine h.guarded fun bs s₁ a s₂ cs _ hr hg hm hrest => ⟨hg, ?_⟩
    cases a with
    | spawn r => trivial
    | env d => trivial
    | step i op =>
      cases op with
      | act a => trivial
      | ret => trivial
      | crash => trivial
      | go =>
        intro t ht ha hd hrep
        obtain ⟨u, c', t', hu, hst, rfl⟩ := Sys.machine_step hm
        obtain rfl := Option.some.inj (ht.symm.trans hu)
        replace hst : (middleware (corsConfig allowedOrigins ttl ttl_pos)).step s₁.shared t .go =
          some (c', t') := hst
        have hfin := finished_of_replays hrep hst
        have htag := tagged_of_runs (fun _ _ h => h) hr t (List.mem_of_getElem? ht)
        rcases htag.answer hst hfin with ⟨hno, _⟩ | ⟨hd', _, hrep', p, hp, hv⟩
        · rcases hno with hno | hno
          · exact absurd rfl hno
          · rw [hrep] at hno
            exact absurd hno (by simp)
        · obtain rfl := Option.some.inj (hrep.symm.trans hrep')
          have hlt := (List.getElem?_eq_some_iff.mp ht).1
          have hstay := finished_stays (S := stack (corsConfig allowedOrigins ttl ttl_pos)) rfl hrest
            (List.getElem?_set_self hlt) hfin
          have hreq := step_req_eq hst
          have := hone t' (List.mem_of_getElem? hstay) (by rw [hreq]; exact ha) p hp
          rw [hv, hreq, ownOrigin_of_allows ha] at this
          exact List.append_right_eq_self.mp this
  · intro hrun
    refine hrun.inv_along (P := fun s => ∀ t ∈ s.threads,
      corsAllows allowedOrigins t.req.origin = true → OneOrigin t)
      (fun bs s a s' hr hs hg hm => ?_) (fun t ht => absurd ht (by simp [init]))
    cases a with
    | spawn r =>
      obtain rfl := Option.some.inj hm
      intro t ht ha
      rcases List.mem_append.mp ht with ht | ht
      · exact hs t ht ha
      · obtain rfl := List.mem_singleton.mp ht
        apply start_oneOrigin
        have hreq : ((stack (corsConfig allowedOrigins ttl ttl_pos)).start r).req = r := by
          show (if r.method = ascii "OPTIONS" then preflight _ r else Config.start _ r).req = r
          split <;> rfl
        rw [hreq] at ha
        exact ha
    | env d =>
      obtain ⟨c', _, rfl⟩ := Sys.machine_env hm
      exact hs
    | step i op =>
      obtain ⟨t, c', t', ht, hst, rfl⟩ := Sys.machine_step hm
      intro u hu ha
      rcases List.mem_or_eq_of_mem_set hu with hu | rfl
      · exact hs u hu ha
      · have htag := tagged_of_runs (fun _ _ h => h.1) hr t (List.mem_of_getElem? ht)
        have hreq := step_req_eq hst
        exact oneOrigin_step ht htag (hg.1 t ht) hg.2 hst (hreq ▸ ha)

end

/-! ## two origins -/

def allowedPair : List String := ["http://localhost:3000", " http://localhost:5173"]

def pairConfig : Config := corsConfig allowedPair 5 plainConfig.ttl_pos

/-- the answer of `gatesBackend` is one that the proxy may give -/
theorem gates_allowed {t : Thread} {op : Op} (h : gatesBackend.allows t op) :
    proxyRoute.allows t op := by
  let p : Reply :=
    { status := 200, header := [("Content-Type", "application/json")], body := ascii "[]",
      final := by decide }
  have hp : p.modified.script = gatesAnswer := by decide
  have hend : p.modified.Ended gatesAnswer := hp ▸ p.modified.ended_script
  have hpre : ∀ k, k <+: gatesAnswer → p.modified.Begun k := by
    rintro k ⟨l, hl⟩
    have := Reply.begun_of_ended hend
    rw [← hl] at this
    clear hl
    induction l using List.reverseRecOn with
    | nil => rwa [List.append_nil] at this
    | append_singleton l a ih =>
      rw [← List.append_assoc] at this
      exact ih (Reply.begun_of_snoc this)
  cases op with
  | go => trivial
  | act a => exact .inr ⟨p, hpre _ h⟩
  | ret =>
    replace h : t.trace = gatesAnswer := h
    exact .inr ⟨p, h ▸ hend⟩
  | crash => exact h.elim

theorem gates_conforms {s s' : State} {as : List (PoolAct Request Nat Op)} {S : Sys _ _ _ _ _}
    (h : S.machine.Runs (Local gatesBackend.allows) s as s') :
    S.machine.Runs (Conforms proxyRoute) s as s' := by
  apply h.mono
  intro s a ha
  cases a with
  | spawn r => trivial
  | env d => trivial
  | step i op => exact fun t ht => gates_allowed (ha t ht)

/-- a page of each origin asks for the same URL, one after the other -/
def twoPages (first second : Header) : List (PoolAct Request Nat Op) :=
  ([.spawn (gatesRequest first), .step 0 .go, .step 0 .go] : Acts) ++
    (leadOps.map (.step 0) : Acts) ++
    ([.spawn (gatesRequest second), .step 1 .go] : Acts)

/-- a response without an Origin is cached and replayed to a page -/
theorem untagged_replay :
    ∃ s, (stack pairConfig).machine.Runs (Conforms proxyRoute) (init 0)
        (twoPages [] [("Origin", "http://localhost:5173")]) s ∧
      ((∀ t ∈ s.threads, corsAllows allowedPair t.req.origin = true → OneOrigin t) ↔
        (stack pairConfig).machine.Runs
          (fun s a => Conforms proxyRoute s a ∧ Untagged allowedPair s a) (init 0)
          (twoPages [] [("Origin", "http://localhost:5173")]) s) :=
  ⟨_, gates_conforms (Machine.runs_iff_runG.mpr rfl),
    one_origin_iff (gates_conforms (Machine.runs_iff_runG.mpr rfl))⟩

/-- the second page is sent both origins -/
theorem origin_twice :
    ∃ s t, (stack pairConfig).machine.Runs (Conforms proxyRoute) (init 0)
        (twoPages [("Origin", "http://localhost:3000")] [("Origin", "http://localhost:5173")]) s ∧
      s.threads[1]? = some t ∧ corsAllows allowedPair t.req.origin = true ∧
      t.pc = .finished .returned ∧
      t.cc.writer.sent.map (fun p => p.2.values acao) =
        some ["http://localhost:5173", "http://localhost:3000"] :=
  ⟨_, _, gates_conforms (Machine.runs_iff_runG.mpr rfl), rfl, by decide, rfl, by decide⟩

end Gateway
