import Purrlington.Gateway.Flights

/-!
# Gateway: single flight

What the bookkeeping of flights says about leaders, followers and `finishFlight`.

* `Closes`             a leader, going on alone, closes its flight;
* `Attended`           where the flight of a follower stands;
* `Bookkept`           one leader a key, the map is the leaders' flights, nobody is stranded;
* `bookkept_of_runs`   this holds in every reachable state.
-/

set_option linter.unusedSectionVars false

namespace Gateway
open SM

/-! ## followers are released -/

section
variable {cfg : Config} {c : ResponseCache} {t : Thread} {fl : Nat}

/-- the flight has been closed -/
def ResponseCache.isDone (c : ResponseCache) (fl : Nat) : Prop := ∃ f, c.heap[fl]? = some f ∧ f.done = true

/-- the steps of the request's own code, and the end of its handler -/
def Closing (fin : Op) (_ : Thread) (op : Op) : Prop := op = .go ∨ op = fin

/-- the request, going on alone, closes the flight -/
def Closes (cfg : Config) (fin : Op) (c : ResponseCache) (t : Thread) (fl : Nat) : Prop :=
  ∃ ops c' t', (middleware cfg).Steps (Closing fin) c t ops c' t' ∧ c'.isDone fl

theorem Closes.step {fin op : Op} {c' : ResponseCache} {t' : Thread} (hop : op = .go ∨ op = fin)
    (hs : (middleware cfg).step c t op = some (c', t')) (h : Closes cfg fin c' t' fl) :
    Closes cfg fin c t fl := by
  obtain ⟨ops, c'', t'', hst, hd⟩ := h
  exact ⟨op :: ops, c'', t'', ⟨hop, c', t', hs, hst⟩, hd⟩

theorem closes_close (fin : Op) {e : Ending} {f : Flight} (hpc : t.pc = .close fl e)
    (hf : c.heap[fl]? = some f) (hd : f.done = false) : Closes cfg fin c t fl := by
  have hs : (middleware cfg).step c t .go = some (c.close fl, t.finish e) := by
    show t.go cfg c = _
    simp only [Thread.go, hpc, hf, Option.bind_some, hd, Bool.false_eq_true, if_false]
  refine .step (.inl rfl) hs ⟨[], _, _, ⟨rfl, rfl⟩, { f with done := true }, ?_, rfl⟩
  rw [ResponseCache.close_heap_eq, hf]
  rfl

theorem closes_remove (fin : Op) {e : Ending} {f : Flight} (hpc : t.pc = .remove fl e)
    (hf : c.heap[fl]? = some f) (hd : f.done = false) : Closes cfg fin c t fl := by
  have hs : (middleware cfg).step c t .go =
      some (c.remove t.req.cacheKey, { t with pc := .close fl e }) := by
    show t.go cfg c = _
    simp only [Thread.go, hpc]
  exact .step (.inl rfl) hs (closes_close fin rfl hf hd)

theorem closes_publish (fin : Op) {res : FlightResult} {e : Ending} {f : Flight}
    (hpc : t.pc = .publish fl res e) (hf : c.heap[fl]? = some f) (hd : f.done = false) :
    Closes cfg fin c t fl := by
  have hs : (middleware cfg).step c t .go =
      some (c.publish fl res, { t with pc := .remove fl e }) := by
    show t.go cfg c = _
    simp only [Thread.go, hpc]
  have hf' : (c.publish fl res).heap[fl]? = some { f with result := res } := by
    rw [ResponseCache.publish_heap_eq, hf]
    rfl
  exact .step (.inl rfl) hs (closes_remove fin rfl hf' hd)

theorem closes_store (fin : Op) {res : FlightResult} {x : Int} {f : Flight}
    (hpc : t.pc = .store fl res x) (hf : c.heap[fl]? = some f) (hd : f.done = false) :
    Closes cfg fin c t fl := by
  have hs : (middleware cfg).step c t .go =
      some (c.store t.req.cacheKey ⟨res.status, res.header, res.body, x⟩,
        { t with pc := .publish fl res .returned }) := by
    show t.go cfg c = _
    simp only [Thread.go, hpc]
  exact .step (.inl rfl) hs (closes_publish fin rfl hf hd)

theorem closes_stamp (fin : Op) {res : FlightResult} {f : Flight} (hpc : t.pc = .stamp fl res)
    (hf : c.heap[fl]? = some f) (hd : f.done = false) : Closes cfg fin c t fl := by
  have hs : (middleware cfg).step c t .go =
      some (c, { t with pc := .store fl res (c.now + cfg.ttl) }) := by
    show t.go cfg c = _
    simp only [Thread.go, hpc]
  exact .step (.inl rfl) hs (closes_store fin rfl hf hd)

theorem closes_fetch {fin : Op} (hfin : fin = .ret ∨ fin = .crash) {f : Flight}
    (hpc : t.pc = .fetch (.lead fl)) (hf : c.heap[fl]? = some f) (hd : f.done = false) :
    Closes cfg fin c t fl := by
  rcases hfin with rfl | rfl
  · have hs : (middleware cfg).step c t .ret = some (c, { t with
        pc := if t.flightResult.cacheable then .stamp fl t.flightResult
          else .publish fl t.flightResult .returned }) := by
      show t.step cfg c .ret = _
      simp only [Thread.step, hpc]
    refine .step (.inr rfl) hs ?_
    cases hc : t.flightResult.cacheable with
    | true => exact closes_stamp .ret rfl hf hd
    | false => exact closes_publish .ret rfl hf hd
  · have hs : (middleware cfg).step c t .crash =
        some (c, { t with pc := .publish fl {} .panicked }) := by
      show t.step cfg c .crash = _
      simp only [Thread.step, hpc]
    exact .step (.inr rfl) hs (closes_publish .crash rfl hf hd)

/-- a leader closes its flight by its own steps, whichever way its handler ends -/
theorem closes_of_leads {fin : Op} (hfin : fin = .ret ∨ fin = .crash) {f : Flight}
    (hl : t.pc.leads fl = true) (hf : c.heap[fl]? = some f) (hd : f.done = false) :
    Closes cfg fin c t fl := by
  rcases Pc.leads_iff.mp hl with hl | ⟨e, hpc⟩
  · cases hpc : t.pc with
    | fetch via =>
      rw [hpc] at hl
      cases via with
      | lead g =>
        obtain rfl := Option.some.inj hl
        exact closes_fetch hfin hpc hf hd
      | bypass => exact absurd hl (by simp [Pc.leading])
      | own => exact absurd hl (by simp [Pc.leading])
    | stamp g res =>
      rw [hpc] at hl
      obtain rfl := Option.some.inj hl
      exact closes_stamp fin hpc hf hd
    | store g res x =>
      rw [hpc] at hl
      obtain rfl := Option.some.inj hl
      exact closes_store fin hpc hf hd
    | publish g res e =>
      rw [hpc] at hl
      obtain rfl := Option.some.inj hl
      exact closes_publish fin hpc hf hd
    | remove g e =>
      rw [hpc] at hl
      obtain rfl := Option.some.inj hl
      exact closes_remove fin hpc hf hd
    | _ =>
      rw [hpc] at hl
      exact absurd hl (by simp [Pc.leading])
  · exact closes_close fin hpc hf hd

end

/-! ## what the bookkeeping says -/

/-- where the flight that a request with this key waits on stands: registered; or removed by its
leader, which has only the close left; or closed, and its result set by a request that is done -/
def Attended (s : State) (key : Bytes) (fl : Nat) : Prop :=
  ∃ f, s.shared.heap[fl]? = some f ∧ f.key = key ∧
    ((f.done = false ∧ s.shared.flights.lookup key = some fl) ∨
     (f.done = false ∧ s.shared.flights.lookup key ≠ some fl ∧ ∃ u ∈ s.threads, ∃ e,
        u.pc = .close fl e ∧ u.req.cacheKey = key ∧ f.result = u.outcome e) ∨
     (f.done = true ∧ s.shared.flights.lookup key ≠ some fl ∧ ∃ u ∈ s.threads, ∃ e,
        u.pc = .finished e ∧ u.req.cacheKey = key ∧ f.result = u.outcome e))

/-- request `i` goes on after steps of one other request, of its own code and the end `fin` of its
handler -/
def Released (cfg : Config) (s : State) (i : Nat) (fin : Op) : Prop :=
  ∃ (j : Nat) (ops : List Op) (s' s'' : State), (∀ op ∈ ops, op = .go ∨ op = fin) ∧
    (middleware cfg).machine.Runs free s (ops.map (.step j)) s' ∧
    (middleware cfg).machine s' (.step i .go) = some s''

structure Bookkept (cfg : Config) (s : State) : Prop where
  /-- at most one leader of a key between `beginFlight` and the removal -/
  one_leader : ∀ (i j : Nat) (t u : Thread), s.threads[i]? = some t → s.threads[j]? = some u →
    t.pc.leading.isSome → u.pc.leading.isSome → t.req.cacheKey = u.req.cacheKey → i = j
  /-- a key is in the map exactly while it has a leader, with that leader's flight -/
  registered : ∀ key fl, s.shared.flights.lookup key = some fl ↔
    ∃ t ∈ s.threads, t.req.cacheKey = key ∧ t.pc.leading = some fl
  /-- the removal is of the request's own flight -/
  removes_own : ∀ t ∈ s.threads, ∀ fl e, t.pc = .remove fl e →
    s.shared.flights.lookup t.req.cacheKey = some fl
  /-- the close is of an open channel -/
  closes_open : ∀ t ∈ s.threads, ∀ fl e, t.pc = .close fl e →
    ∃ f, s.shared.heap[fl]? = some f ∧ f.done = false
  attended : ∀ t ∈ s.threads, ∀ fl, t.pc = .wait fl → Attended s t.req.cacheKey fl
  /-- nobody waits for a request with another key -/
  apart : ∀ t ∈ s.threads, ∀ u ∈ s.threads, ∀ fl, t.pc = .wait fl → u.pc.leads fl = true →
    u.req.cacheKey = t.req.cacheKey
  /-- nobody is stranded -/
  released : ∀ (i : Nat) (t : Thread), s.threads[i]? = some t → ∀ fl, t.pc = .wait fl →
    ∀ fin, fin = .ret ∨ fin = .crash → Released cfg s i fin

namespace Flying
variable {s : State} {cfg : Config}

theorem attended (h : Flying s) {t : Thread} {fl : Nat} (ht : t ∈ s.threads)
    (hpc : t.pc = .wait fl) : Attended s t.req.cacheKey fl := by
  obtain ⟨i, hi⟩ := List.mem_iff_getElem?.mp ht
  have hkey := (h.seated i t hi).key fl (.inl hpc)
  obtain ⟨f, hf, hfk⟩ := Option.map_eq_some_iff.mp hkey
  refine ⟨f, hf, hfk, ?_⟩
  -- who is registered under the key leads a flight that is open
  have hout : (∀ u ∈ s.threads, u.pc.leading ≠ some fl) →
      s.shared.flights.lookup t.req.cacheKey ≠ some fl := by
    intro hno hk
    obtain ⟨_, u, hu, hul⟩ := h.led _ _ hk
    exact hno u hu hul
  have ha := h.answered fl f hf
  unfold AnsweredFor at ha
  cases hd : f.done with
  | true =>
    rw [if_pos hd] at ha
    obtain ⟨u, hu, e, hue, huk, hur⟩ := ha
    refine .inr (.inr ⟨rfl, hout fun v hv hvl => ?_, u, hu, e, hue, huk.trans hfk, hur⟩)
    obtain ⟨j, hj⟩ := List.mem_iff_getElem?.mp hv
    have := (h.seated j v hj).opened fl f (Pc.leads_of_leading hvl) hf
    rw [hd] at this
    exact absurd this (by simp)
  | false =>
    rw [if_neg (by simp [hd])] at ha
    obtain ⟨u, hu, hul⟩ := ha
    obtain ⟨j, hj⟩ := List.mem_iff_getElem?.mp hu
    have hus := h.seated j u hj
    have huk : u.req.cacheKey = t.req.cacheKey :=
      Option.some.inj ((hus.key fl (.inr hul)).symm.trans hkey)
    rcases Pc.leads_iff.mp hul with hlead | ⟨e, hclose⟩
    · refine .inl ⟨rfl, ?_⟩
      rw [← huk]
      exact hus.registered fl hlead
    · refine .inr (.inl ⟨rfl, hout fun v hv hvl => ?_, u, hu, e, hclose, huk, ?_⟩)
      · obtain ⟨k, hk⟩ := List.mem_iff_getElem?.mp hv
        have hjk := h.single j u hj k v hk fl hul (Pc.leads_of_leading hvl)
        subst hjk
        obtain rfl := Option.some.inj (hj.symm.trans hk)
        rw [hclose] at hvl
        exact absurd hvl (by simp [Pc.leading])
      · have hc := hus.carries
        unfold Thread.Carries at hc
        rw [hclose] at hc
        exact hc f hf

theorem released (h : Flying s) {i : Nat} {t : Thread} {fl : Nat} (hi : s.threads[i]? = some t)
    (hpc : t.pc = .wait fl) {fin : Op} (hfin : fin = .ret ∨ fin = .crash) :
    Released cfg s i fin := by
  have hgo : ∀ s' : State, s'.threads[i]? = some t → s'.shared.isDone fl →
      ∃ s'', (middleware cfg).machine s' (.step i .go) = some s'' := by
    rintro s' hi' ⟨f, hf, hd⟩
    refine ⟨⟨s'.shared, s'.threads.set i { t with
      pc := if f.result.cacheable then .recheck f.result else .fetch .own }⟩, ?_⟩
    show s'.threads[i]?.bind (fun t => (t.go cfg s'.shared).map _) = _
    rw [hi', Option.bind_some]
    simp only [Thread.go, hpc, hf, Option.bind_some, hd, if_true, Option.map_some]
  obtain ⟨f, hf, _⟩ := Option.map_eq_some_iff.mp ((h.seated i t hi).key fl (.inl hpc))
  have ha := h.answered fl f hf
  unfold AnsweredFor at ha
  cases hd : f.done with
  | true =>
    obtain ⟨s'', hs''⟩ := hgo s hi ⟨f, hf, hd⟩
    exact ⟨i, [], s, s'', fun op hop => absurd hop (by simp), rfl, hs''⟩
  | false =>
    rw [if_neg (by simp [hd])] at ha
    obtain ⟨u, hu, hul⟩ := ha
    obtain ⟨j, hj⟩ := List.mem_iff_getElem?.mp hu
    have hne : j ≠ i := by
      rintro rfl
      obtain rfl := Option.some.inj (hi.symm.trans hj)
      rw [hpc] at hul
      exact absurd hul (by simp [Pc.leads, Pc.flight])
    obtain ⟨ops, c', u', hst, hdone⟩ : Closes cfg fin s.shared u fl :=
      closes_of_leads hfin hul hf hd
    have hrun := hst.runs s.threads j hj
    obtain ⟨s'', hs''⟩ := hgo ⟨c', s.threads.set j u'⟩
      (by rw [List.getElem?_set_ne hne]; exact hi) hdone
    exact ⟨j, ops, _, s'', hst.mem, hrun.mono fun _ _ _ => trivial, hs''⟩

end Flying

/-- **Single flight.**  In every reachable state a key has at most one leader from `beginFlight`
to the removal of its flight, the map holds exactly the flights of these leaders, `finishFlight`
removes its own flight and closes an open channel, and a follower waits on a flight of its own key
that its leader, or nobody, still has to close. -/
theorem bookkept_of_runs (cfg : Config) (now : Int) (as : List (PoolAct Request Nat Op)) (s : State)
    (h : (middleware cfg).machine.Runs free (init now) as s) : Bookkept cfg s := by
  have hf := flying_of_runs h
  refine ⟨fun i j t u hi hj hl hl' hk => ?_, fun key fl => ⟨fun hk => ?_, ?_⟩,
    fun t ht fl e hpc => ?_, fun t ht fl e hpc => ?_, fun t ht fl hpc => hf.attended ht hpc,
    fun t ht u hu fl hpc hul => ?_, fun i t hi fl hpc fin hfin => hf.released hi hpc hfin⟩
  · obtain ⟨fl, hfl⟩ := Option.isSome_iff_exists.mp hl
    obtain ⟨g, hg⟩ := Option.isSome_iff_exists.mp hl'
    have h1 := (hf.seated i t hi).registered fl hfl
    have h2 := (hf.seated j u hj).registered g hg
    rw [hk, h2] at h1
    obtain rfl := Option.some.inj h1
    exact hf.single i t hi j u hj g (Pc.leads_of_leading hfl) (Pc.leads_of_leading hg)
  · obtain ⟨hkey, u, hu, hul⟩ := hf.led key fl hk
    obtain ⟨j, hj⟩ := List.mem_iff_getElem?.mp hu
    refine ⟨u, hu, ?_, hul⟩
    have := (hf.seated j u hj).key fl (.inr (Pc.leads_of_leading hul))
    exact Option.some.inj (this.symm.trans hkey)
  · rintro ⟨t, ht, rfl, hl⟩
    obtain ⟨i, hi⟩ := List.mem_iff_getElem?.mp ht
    exact (hf.seated i t hi).registered fl hl
  · obtain ⟨i, hi⟩ := List.mem_iff_getElem?.mp ht
    exact (hf.seated i t hi).registered fl (by rw [hpc]; rfl)
  · obtain ⟨i, hi⟩ := List.mem_iff_getElem?.mp ht
    have hl : t.pc.leads fl = true := Pc.leads_iff.mpr (.inr ⟨e, hpc⟩)
    obtain ⟨f, hff, _⟩ := Option.map_eq_some_iff.mp ((hf.seated i t hi).key fl (.inr hl))
    exact ⟨f, hff, (hf.seated i t hi).opened fl f hl hff⟩
  · obtain ⟨i, hi⟩ := List.mem_iff_getElem?.mp ht
    obtain ⟨j, hj⟩ := List.mem_iff_getElem?.mp hu
    have h1 := (hf.seated i t hi).key fl (.inl hpc)
    have h2 := (hf.seated j u hj).key fl (.inr hul)
    exact Option.some.inj (h2.symm.trans h1)

/-- two requests for one URL: the second waits on the flight of the first -/
def twoGets : List (PoolAct Request Nat Op) :=
  [.spawn (gatesRequest []), .spawn (gatesRequest []),
    .step 0 .go, .step 0 .go, .step 1 .go, .step 1 .go]

theorem two_gets_bookkept :
    ∃ s, (middleware plainConfig).machine.Runs free (init 0) twoGets s ∧
      s.threads.map Thread.pc = [.fetch (.lead 0), .wait 0] ∧ Bookkept plainConfig s :=
  ⟨_, Machine.runs_free_iff.mpr rfl, rfl,
    bookkept_of_runs plainConfig 0 twoGets _ (Machine.runs_free_iff.mpr rfl)⟩

end Gateway
