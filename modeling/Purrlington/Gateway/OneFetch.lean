import Purrlington.Gateway.Soundness

/-!
# Gateway: what a burst of requests costs the backend

Any number of GET requests for one key, a backend that answers each with a response that can be
shared, and no entry that expires.  The look-up and `beginFlight` are two critical sections: a
request that missed can come to `beginFlight` after the leader has stored its entry and removed its
flight, and fetches again.

* `Burst`            the guard of such a run;
* `backendCalls`     the steps of a run that call the backend's handler;
* `Timely`           nobody makes a flight while the key has an entry;
* `calls_eq_heap`    in a burst every call is a flight;
* `one_fetch_iff`    the backend is called once exactly in the runs whose steps are timely;
* `late_begin_fetches_twice`   a run that is not.
-/

set_option linter.unusedSectionVars false

namespace Gateway
open SM

/-! ## bursts -/

/-- the backend gives every GET or HEAD request a response that can be shared, and does not panic -/
structure Backend.Cacheable (cfg : Config) (B : Backend) : Prop where
  returns : ∀ r h, r.Safe → B.returns r h → ∃ hd, firstStatus (cfg.outer r) h = some (200, hd) ∧
    isEventStream (hd.get "Content-Type") = false
  panics : ∀ r h, r.Safe → ¬ B.panics r h

/-- no entry has expired -/
def Fresh (c : ResponseCache) : Prop := ∀ p ∈ c.entries.entries, c.now ≤ p.2.expires

instance (c : ResponseCache) : Decidable (Fresh c) := inferInstanceAs (Decidable (∀ p ∈ _, _))

def Asks (key : Bytes) : PoolAct Request Nat Op → Prop
  | .spawn r => r.method = ascii "GET" ∧ r.cacheKey = key
  | _ => True

instance (key : Bytes) : ∀ a, Decidable (Asks key a)
  | .spawn r => inferInstanceAs (Decidable (r.method = ascii "GET" ∧ r.cacheKey = key))
  | .env _ => inferInstanceAs (Decidable True)
  | .step _ _ => inferInstanceAs (Decidable True)

/-- GET requests for one key, the backend behaves as `B` and nothing expires -/
def Burst (B : Backend) (key : Bytes) (s : State) (a : PoolAct Request Nat Op) : Prop :=
  Conforms B s a ∧ Asks key a ∧ Fresh s.shared

/-- whoever finds no flight to follow finds no entry of its key either -/
def Timely (s : State) : PoolAct Request Nat Op → Prop
  | .step i .go => ∀ t ∈ s.threads[i]?, t.pc = .begin →
      s.shared.flights.lookup t.req.cacheKey = none → s.shared.entries.lookup t.req.cacheKey = none
  | _ => True

/-! ## calls -/

def Pc.fetching : Pc → Bool
  | .fetch _ => true
  | _ => false

/-- the action takes a request into the backend's handler -/
def callsBackend (s s' : State) : PoolAct Request Nat Op → Bool
  | .step i _ => (s'.threads[i]?.any fun t => t.pc.fetching) && !(s.threads[i]?.any fun t => t.pc.fetching)
  | _ => false

/-- how often a run calls the backend -/
def backendCalls (cfg : Config) : State → List (PoolAct Request Nat Op) → Nat
  | _, [] => 0
  | s, a :: as =>
    match (middleware cfg).machine s a with
    | none => 0
    | some s' => (if callsBackend s s' a then 1 else 0) + backendCalls cfg s' as

theorem backendCalls_cons {cfg : Config} {s s' : State} {a : PoolAct Request Nat Op}
    {as : List (PoolAct Request Nat Op)} (h : (middleware cfg).machine s a = some s') :
    backendCalls cfg s (a :: as) = (if callsBackend s s' a then 1 else 0) + backendCalls cfg s' as := by
  show (match (middleware cfg).machine s a with | none => 0 | some s' => _) = _
  rw [h]

/-! ## what a burst keeps -/

/-- where a request of a burst may be: its handler has given a response that can be shared, and
from `finishFlight` on the entry is stored -/
def Sharing (c : ResponseCache) (t : Thread) : Prop :=
  match t.pc with
  | .fetch .own => False
  | .fetch .bypass => False
  | .publish _ _ e => e = .returned ∧ t.cc.cacheable = true ∧ (c.entries.lookup t.req.cacheKey).isSome
  | .remove _ e => e = .returned ∧ t.cc.cacheable = true ∧ (c.entries.lookup t.req.cacheKey).isSome
  | .close _ e => e = .returned ∧ t.cc.cacheable = true ∧ (c.entries.lookup t.req.cacheKey).isSome
  | _ => True

structure BurstOk (key : Bytes) (s : State) : Prop where
  asked : ∀ t ∈ s.threads, t.req.Safe ∧ t.req.cacheKey = key
  sharing : ∀ t ∈ s.threads, Sharing s.shared t
  landed : ∀ (fl : Nat) (f : Flight), s.shared.heap[fl]? = some f → f.done = true →
    f.result.cacheable = true
  started : ∀ t ∈ s.threads, t.pc ≠ .lookup → t.pc ≠ .begin → s.shared.heap ≠ []
  entries : ∀ k e, s.shared.entries.lookup k = some e → s.shared.heap ≠ []

theorem Fresh.expire {c : ResponseCache} (h : Fresh c) (key : Bytes) : c.expire key = c := by
  unfold ResponseCache.expire
  split
  · rename_i e he
    have hmem : (⟨key, e⟩ : Sigma fun _ : Bytes => CacheEntry) ∈ c.entries.entries :=
      AList.mem_lookup_iff.mp he
    have hle : c.now ≤ e.expires := h _ hmem
    rw [if_neg (by omega)]
  · rfl

theorem Thread.Moves.entries_isSome {cfg : Config} {c c' : ResponseCache} {t t' : Thread} {op : Op}
    (h : Thread.Moves cfg c t op c' t') (hf : Fresh c) {k : Bytes}
    (hk : (c.entries.lookup k).isSome = true) : (c'.entries.lookup k).isSome = true := by
  cases h with
  | hit e hpc he => rw [hf.expire]; exact hk
  | miss hpc => rw [hf.expire]; exact hk
  | rehit res e hpc he => rw [hf.expire]; exact hk
  | share res hpc => rw [hf.expire]; exact hk
  | store fl res x hpc =>
    show ((c.entries.insert t.req.cacheKey _).lookup k).isSome = true
    by_cases e : k = t.req.cacheKey
    · subst e
      rw [AList.lookup_insert]
      rfl
    · rw [AList.lookup_insert_ne e]
      exact hk
  | _ => exact hk

theorem Sharing.mono {c c' : ResponseCache} {t : Thread} (h : Sharing c t)
    (hle : ∀ k, (c.entries.lookup k).isSome = true → (c'.entries.lookup k).isSome = true) :
    Sharing c' t := by
  unfold Sharing at h ⊢
  cases hpc : t.pc with
  | publish fl res e => rw [hpc] at h; exact ⟨h.1, h.2.1, hle _ h.2.2⟩
  | remove fl e => rw [hpc] at h; exact ⟨h.1, h.2.1, hle _ h.2.2⟩
  | close fl e => rw [hpc] at h; exact ⟨h.1, h.2.1, hle _ h.2.2⟩
  | fetch via => cases via <;> (rw [hpc] at h; exact h)
  | _ => trivial

/-- a step makes a flight, and calls the backend, or it makes none; then it calls the backend only
for a follower that was refused -/
theorem Thread.Moves.flight_or_not {cfg : Config} {c c' : ResponseCache} {t t' : Thread} {op : Op}
    (h : Thread.Moves cfg c t op c' t') :
    (op = .go ∧ t.pc = .begin ∧ c.flights.lookup t.req.cacheKey = none ∧ t'.pc.fetching = true ∧
      c'.heap.length = c.heap.length + 1) ∨
    (c'.heap.length = c.heap.length ∧
      (t'.pc.fetching = true → t.pc.fetching = true ∨ t'.pc = .fetch .own)) := by
  have no : ∀ {pc : Pc}, pc.fetching = false → (pc.fetching = true → t.pc.fetching = true ∨ pc = .fetch .own) := by
    intro pc h0 h1
    rw [h0] at h1
    exact absurd h1 Bool.false_ne_true
  cases h with
  | lead hpc hfl => exact .inl ⟨rfl, hpc, hfl, rfl, by simp⟩
  | hit e hpc he => exact .inr ⟨by rw [c.expire_heap], no rfl⟩
  | miss hpc => exact .inr ⟨by rw [c.expire_heap], no rfl⟩
  | rehit res e hpc he => exact .inr ⟨by rw [c.expire_heap], no rfl⟩
  | share res hpc => exact .inr ⟨by rw [c.expire_heap], no rfl⟩
  | refused fl f hpc hf hdone hc => exact .inr ⟨rfl, fun _ => .inr rfl⟩
  | publish fl res e hpc => exact .inr ⟨List.length_modify _ _ _, no rfl⟩
  | close fl f e hpc hf hdone => exact .inr ⟨List.length_modify _ _ _, no (by rw [t.finish_pc]; rfl)⟩
  | closeClosed fl f e hpc hf hdone => exact .inr ⟨rfl, no (by rw [t.finish_pc]; rfl)⟩
  | ret via hpc hvia => exact .inr ⟨rfl, no (by rw [t.finish_pc]; rfl)⟩
  | crash via hpc hvia => exact .inr ⟨rfl, no (by rw [t.finish_pc]; rfl)⟩
  | act via a hpc => exact .inr ⟨rfl, fun h => .inl h⟩
  | _ => exact .inr ⟨rfl, no rfl⟩

theorem Thread.Moves.heap_le {cfg : Config} {c c' : ResponseCache} {t t' : Thread} {op : Op}
    (h : Thread.Moves cfg c t op c' t') : c.heap.length ≤ c'.heap.length := by
  rcases h.flight_or_not with ⟨_, _, _, _, hl⟩ | ⟨hl, _⟩ <;> omega

section
variable {cfg : Config} {B : Backend} {key : Bytes} {s : State} {i : Nat} {t t' : Thread}
variable {c' : ResponseCache} {op : Op}

/-- a handler that has returned has given a response that can be shared -/
theorem cacheable_of_returns (hB : B.Cacheable cfg) (hs : t.req.Safe) (hh : Honest cfg s.shared t)
    (hpc : t.pc.captured = true) (hg : B.returns t.req t.trace) : t.cc.cacheable = true := by
  obtain ⟨_, hcc⟩ := hh.traced.captured hpc
  obtain ⟨hd, hf, hct⟩ := hB.returns t.req t.trace hs hg
  rw [hcc]
  exact (CacheCapture.fresh_undecided cfg t.req).cacheable hf hct

theorem BurstOk.sharing_step (h : BurstOk key s) (hh : ∀ t ∈ s.threads, Honest cfg s.shared t)
    (hB : B.Cacheable cfg) (hi : s.threads[i]? = some t) (hg : B.allows t op)
    (hm : Thread.Moves cfg s.shared t op c' t') : Sharing c' t' := by
  have ht := List.mem_of_getElem? hi
  have hs := (h.asked t ht).1
  have hsh := h.sharing t ht
  cases hm with
  | refused fl f hpc hf hdone hc =>
    have := h.landed fl f hf hdone
    rw [hc] at this
    exact absurd this Bool.false_ne_true
  | store fl res x hpc =>
    refine ⟨rfl, (hh t ht).shares fl res x (.inr hpc), ?_⟩
    show ((s.shared.entries.insert t.req.cacheKey _).lookup t.req.cacheKey).isSome = true
    rw [AList.lookup_insert]
    rfl
  | publish fl res e hpc =>
    unfold Sharing at hsh
    rw [hpc] at hsh
    exact hsh
  | remove fl e hpc =>
    unfold Sharing at hsh
    rw [hpc] at hsh
    exact hsh
  | close fl f e hpc hf hdone =>
    unfold Sharing
    rw [t.finish_pc]
    trivial
  | closeClosed fl f e hpc hf hdone => trivial
  | act via a hpc =>
    unfold Sharing at hsh ⊢
    simp only [hpc] at hsh ⊢
    cases via <;> trivial
  | retLead fl hpc hc =>
    have := cacheable_of_returns hB hs (hh t ht) (by rw [hpc]; rfl) hg
    rw [hc] at this
    exact absurd this Bool.false_ne_true
  | ret via hpc hvia =>
    unfold Sharing
    rw [t.finish_pc]
    trivial
  | crashLead fl hpc => exact absurd hg (hB.panics _ _ hs)
  | crash via hpc hvia => exact absurd hg (hB.panics _ _ hs)
  | _ => trivial

theorem BurstOk.landed_step (h : BurstOk key s) (hf : Flying s) (hi : s.threads[i]? = some t)
    (hm : Thread.Moves cfg s.shared t op c' t') :
    ∀ (fl : Nat) (f : Flight), c'.heap[fl]? = some f → f.done = true → f.result.cacheable = true := by
  have ht := List.mem_of_getElem? hi
  have hsh := h.sharing t ht
  have same : c'.heap = s.shared.heap → ∀ (fl : Nat) (f : Flight), c'.heap[fl]? = some f →
      f.done = true → f.result.cacheable = true := by
    intro e
    rw [e]
    exact h.landed
  cases hm.books with
  | quiet hq => exact same hq.heap
  | follow fl hpc hfl => exact h.landed
  | lead hpc hfl => exact forall_snoc h.landed fun hd => absurd hd (by simp)
  | publish fl res e hpc =>
    intro g f hf' hd
    by_cases hg : fl = g
    · subst hg
      rw [ResponseCache.publish_heap_eq] at hf'
      obtain ⟨f0, hf0, rfl⟩ := Option.map_eq_some_iff.mp hf'
      have hopen := (hf.seated i t hi).opened fl f0 (Pc.leads_of_leading (by rw [hpc]; rfl)) hf0
      replace hd : f0.done = true := hd
      rw [hopen] at hd
      exact absurd hd Bool.false_ne_true
    · rw [ResponseCache.publish_heap_ne res hg] at hf'
      exact h.landed g f hf' hd
  | remove fl e hpc => exact h.landed
  | close fl e hpc =>
    intro g f hf' hd
    by_cases hg : fl = g
    · subst hg
      rw [ResponseCache.close_heap_eq] at hf'
      obtain ⟨f0, hf0, rfl⟩ := Option.map_eq_some_iff.mp hf'
      have hcar := (hf.seated i t hi).carries
      unfold Thread.Carries at hcar
      unfold Sharing at hsh
      rw [hpc] at hcar hsh
      obtain ⟨rfl, hcb, _⟩ := hsh
      show f0.result.cacheable = true
      rw [hcar f0 hf0]
      exact hcb
    · rw [ResponseCache.close_heap_ne hg] at hf'
      exact h.landed g f hf' hd
  | closeClosed fl f e hpc hf hdone => exact h.landed

theorem BurstOk.started_step (h : BurstOk key s) (hf : Flying s) (hi : s.threads[i]? = some t)
    (hm : Thread.Moves cfg s.shared t op c' t') (h1 : t'.pc ≠ .lookup) (h2 : t'.pc ≠ .begin) :
    c'.heap ≠ [] := by
  have ht := List.mem_of_getElem? hi
  have hle := hm.heap_le
  have keep : s.shared.heap ≠ [] → c'.heap ≠ [] := by
    intro hne
    have := List.length_pos_iff.mpr hne
    exact List.length_pos_iff.mp (by omega)
  by_cases hl : t.pc = .lookup
  · cases hm with
    | hit e hpc he => exact keep (h.entries _ e (Option.filter_eq_some_iff.mp he).1)
    | miss hpc => exact absurd rfl h2
    | _ => simp_all
  · by_cases hb : t.pc = .begin
    · cases hm with
      | follow fl hpc hfl =>
        obtain ⟨f, hff, _⟩ := Option.map_eq_some_iff.mp (hf.led _ _ hfl).1
        exact List.ne_nil_of_mem (List.mem_of_getElem? hff)
      | lead hpc hfl => simp
      | _ => simp_all
    · exact keep (h.started t ht hl hb)

theorem BurstOk.step (h : BurstOk key s) (hf : Flying s) (hh : ∀ t ∈ s.threads, Honest cfg s.shared t)
    (hB : B.Cacheable cfg) (hfresh : Fresh s.shared) (hi : s.threads[i]? = some t)
    (hg : B.allows t op) (hm : Thread.Moves cfg s.shared t op c' t') :
    BurstOk key ⟨c', s.threads.set i t'⟩ := by
  have ht := List.mem_of_getElem? hi
  have keep : s.shared.heap ≠ [] → c'.heap ≠ [] := by
    intro hne
    have := List.length_pos_iff.mpr hne
    have := hm.heap_le
    exact List.length_pos_iff.mp (by omega)
  refine ⟨fun u hu => ?_, fun u hu => ?_, h.landed_step hf hi hm, fun u hu h1 h2 => ?_, fun k e he => ?_⟩
  · rcases List.mem_or_eq_of_mem_set hu with hu | rfl
    · exact h.asked u hu
    · rw [hm.req_eq]
      exact h.asked t ht
  · rcases List.mem_or_eq_of_mem_set hu with hu | rfl
    · exact (h.sharing u hu).mono fun k hk => hm.entries_isSome hfresh hk
    · exact h.sharing_step hh hB hi hg hm
  · rcases List.mem_or_eq_of_mem_set hu with hu | rfl
    · exact keep (h.started u hu h1 h2)
    · exact h.started_step hf hi hm h1 h2
  · rcases hm.entries he with he | ⟨fl, res, hpc, _⟩
    · exact keep (h.entries k e he)
    · exact keep (h.started t ht (by rw [hpc]; simp) (by rw [hpc]; simp))

end

/-! ## whole bursts -/

section
variable {cfg : Config} {B : Backend} {key : Bytes} {now : Int} {s s' : State}
variable {as bs : List (PoolAct Request Nat Op)} {G : State → PoolAct Request Nat Op → Prop}
variable (hB : B.Cacheable cfg) (hG : ∀ s a, G s a → Burst B key s a)
include hB hG

theorem burstOk_of_runs (h : (middleware cfg).machine.Runs G (init now) as s) : BurstOk key s := by
  refine h.inv_along (fun bs s a s' hr hs hg hm => ?_) ⟨fun t ht => absurd ht (by simp [init]),
    fun t ht => absurd ht (by simp [init]), fun fl f hf => absurd hf (by simp [init, ResponseCache.new]),
    fun t ht => absurd ht (by simp [init]), fun k e he => absurd he ?_⟩
  · obtain ⟨hconf, hask, hfresh⟩ := hG s a hg
    cases a with
    | spawn r =>
      obtain rfl := Option.some.inj hm
      have hsafe : r.Safe := .inl hask.1
      have hst : (middleware cfg).start r = ⟨r, cfg.fresh r, [], .lookup⟩ := by
        show cfg.start r = _
        rw [Config.start, if_pos hsafe]
      have new : ∀ {P : Thread → Prop}, (∀ t ∈ s.threads, P t) → P ⟨r, cfg.fresh r, [], .lookup⟩ →
          ∀ t ∈ s.threads ++ [(middleware cfg).start r], P t := by
        intro P hP hr t ht
        rcases List.mem_append.mp ht with ht | ht
        · exact hP t ht
        · obtain rfl := List.mem_singleton.mp ht
          rw [hst]
          exact hr
      exact ⟨new hs.asked ⟨hsafe, hask.2⟩, new hs.sharing trivial, hs.landed,
        new hs.started fun h => absurd rfl h, hs.entries⟩
    | env d =>
      obtain ⟨c', hc, rfl⟩ := Sys.machine_env hm
      obtain rfl := Option.some.inj hc
      exact ⟨hs.asked, fun t ht => (hs.sharing t ht).mono fun _ hk => hk, hs.landed, hs.started,
        hs.entries⟩
    | step i op =>
      obtain ⟨t, c', t', ht, hst, rfl⟩ := Sys.machine_step hm
      exact hs.step (flying_of_runs hr) (honest_of_runs hr) hB hfresh ht (hconf t ht)
        (Thread.step_moves hst)
  · show (∅ : AList fun _ : Bytes => CacheEntry).lookup k ≠ some e
    rw [AList.lookup_empty]
    simp

theorem calls_step {a : PoolAct Request Nat Op}
    (h : (middleware cfg).machine.Runs G (init now) bs s) (hg : G s a)
    (hm : (middleware cfg).machine s a = some s') :
    (if callsBackend s s' a then 1 else 0) + s.shared.heap.length = s'.shared.heap.length := by
  have hafter : BurstOk key s' := burstOk_of_runs hB hG (h.snoc hg hm)
  cases a with
  | spawn r =>
    obtain rfl := Option.some.inj hm
    exact Nat.zero_add _
  | env d =>
    obtain ⟨c', hc, rfl⟩ := Sys.machine_env hm
    obtain rfl := Option.some.inj hc
    exact Nat.zero_add _
  | step i op =>
    obtain ⟨t, c', t', ht, hst, rfl⟩ := Sys.machine_step hm
    have hlt := (List.getElem?_eq_some_iff.mp ht).1
    have hcall : callsBackend s ⟨c', s.threads.set i t'⟩ (.step i op) =
        (t'.pc.fetching && !t.pc.fetching) := by
      show (((s.threads.set i t')[i]?.any _) && !(s.threads[i]?.any _)) = _
      rw [List.getElem?_set_self hlt, ht]
      rfl
    rw [hcall]
    rcases (Thread.step_moves hst).flight_or_not with ⟨_, hpc, _, hfetch, hl⟩ | ⟨hl, hno⟩
    · have hold : t.pc.fetching = false := by rw [hpc]; rfl
      rw [hfetch, hold]
      show 1 + s.shared.heap.length = c'.heap.length
      omega
    · show _ = c'.heap.length
      rw [hl]
      cases hfetch : t'.pc.fetching with
      | false => exact Nat.zero_add _
      | true =>
        rcases hno hfetch with hold | hown
        · rw [hold]
          exact Nat.zero_add _
        · have hsh := hafter.sharing t' (List.mem_set hlt t')
          unfold Sharing at hsh
          rw [hown] at hsh
          exact hsh.elim

theorem calls_add (h : (middleware cfg).machine.Runs G (init now) bs s)
    (h' : (middleware cfg).machine.Runs G s as s') :
    backendCalls cfg s as + s.shared.heap.length = s'.shared.heap.length := by
  induction as generalizing s bs with
  | nil =>
    cases h'
    exact Nat.zero_add _
  | cons a as ih =>
    obtain ⟨hg, t, hm, ht⟩ := h'
    have hstep := calls_step hB hG h hg hm
    have hrest := ih (h.snoc hg hm) ht
    rw [backendCalls_cons hm]
    omega

theorem calls_eq_heap (h : (middleware cfg).machine.Runs G (init now) as s) :
    backendCalls cfg (init now) as = s.shared.heap.length := by
  have h0 : (middleware cfg).machine.Runs G (init now) [] (init now) := rfl
  have := calls_add hB hG h0 h
  rw [← this]
  rfl

theorem heap_le_of_runs (h : (middleware cfg).machine.Runs G (init now) bs s)
    (h' : (middleware cfg).machine.Runs G s as s') :
    s.shared.heap.length ≤ s'.shared.heap.length := by
  have := calls_add hB hG h h'
  omega

end

section
variable {cfg : Config} {B : Backend} {key : Bytes} {now : Int} {s : State}
variable {as : List (PoolAct Request Nat Op)} (hB : B.Cacheable cfg)
include hB

/-- one flight at most, and once there is one the key has a flight or an entry -/
theorem timely_one_flight
    (h : (middleware cfg).machine.Runs (fun s a => Burst B key s a ∧ Timely s a) (init now) as s) :
    s.shared.heap.length ≤ 1 ∧ (s.shared.heap ≠ [] →
      (s.shared.flights.lookup key).isSome ∨ (s.shared.entries.lookup key).isSome) := by
  refine h.inv_along (P := fun s => s.shared.heap.length ≤ 1 ∧ (s.shared.heap ≠ [] →
      (s.shared.flights.lookup key).isSome ∨ (s.shared.entries.lookup key).isSome))
    (fun bs s a s' hr hs hg hm => ?_) ⟨Nat.zero_le _, fun hne => absurd rfl hne⟩
  obtain ⟨⟨hconf, _, hfresh⟩, htime⟩ := hg
  have hok : BurstOk key s := burstOk_of_runs hB (fun _ _ h => h.1) hr
  cases a with
  | spawn r =>
    obtain rfl := Option.some.inj hm
    exact hs
  | env d =>
    obtain ⟨c', hc, rfl⟩ := Sys.machine_env hm
    obtain rfl := Option.some.inj hc
    exact hs
  | step i op =>
    obtain ⟨t, c', t', ht, hst, rfl⟩ := Sys.machine_step hm
    have hmv := Thread.step_moves hst
    have hmem := List.mem_of_getElem? ht
    have hkey := (hok.asked t hmem).2
    rcases hmv.flight_or_not with ⟨rfl, hpc, hfl, _, hl⟩ | ⟨hl, _⟩
    · -- a new flight: the map and the entries have nothing, so there was none before
      have hent := htime t ht hpc hfl
      rw [hkey] at hfl hent
      have hnil : s.shared.heap = [] := by
        by_contra hne
        rcases hs.2 hne with h | h
        · rw [hfl] at h
          exact absurd h (by simp)
        · rw [hent] at h
          exact absurd h (by simp)
      rw [hnil] at hl
      refine ⟨le_of_eq hl, fun _ => .inl ?_⟩
      cases hmv with
      | lead hpc hfl =>
        show ((s.shared.flights.insert t.req.cacheKey _).lookup key).isSome = true
        rw [hkey, AList.lookup_insert]
        rfl
      | _ => simp_all
    · refine ⟨hl ▸ hs.1, ?_⟩
      intro hne
      have hne0 : s.shared.heap ≠ [] := by
        replace hne : c'.heap ≠ [] := hne
        have := List.length_pos_iff.mpr hne
        exact List.length_pos_iff.mp (by omega)
      have same : c'.flights = s.shared.flights →
          (c'.flights.lookup key).isSome ∨ (c'.entries.lookup key).isSome := by
        intro e
        rw [e]
        exact (hs.2 hne0).imp_right fun h => hmv.entries_isSome hfresh h
      cases hmv.books with
      | quiet hq => exact same hq.flights
      | follow fl hpc hfl => exact same rfl
      | lead hpc hfl =>
        exact absurd hl (by simp)
      | publish fl res e hpc => exact same rfl
      | remove fl e hpc =>
        have hsh := hok.sharing t hmem
        unfold Sharing at hsh
        rw [hpc, hkey] at hsh
        exact .inr hsh.2.2
      | close fl e hpc => exact same rfl
      | closeClosed fl f e hpc hf hdone => exact same rfl

/-- **One fetch.**  A burst of requests for one key calls the backend at most once exactly when
every request that finds no flight to follow finds no entry either; and when there is a request and
all are done, exactly once. -/
theorem one_fetch_iff (h : (middleware cfg).machine.Runs (Burst B key) (init now) as s) :
    (backendCalls cfg (init now) as ≤ 1 ↔
      (middleware cfg).machine.Runs (fun s a => Burst B key s a ∧ Timely s a) (init now) as s) ∧
    (s.threads ≠ [] → (∀ t ∈ s.threads, ∃ e, t.pc = .finished e) →
      (backendCalls cfg (init now) as = 1 ↔
        (middleware cfg).machine.Runs (fun s a => Burst B key s a ∧ Timely s a) (init now) as s)) := by
  have hcalls := calls_eq_heap hB (fun _ _ h => h) h
  have hiff : backendCalls cfg (init now) as ≤ 1 ↔
      (middleware cfg).machine.Runs (fun s a => Burst B key s a ∧ Timely s a) (init now) as s := by
    rw [hcalls]
    constructor
    · intro hle
      refine h.guarded fun bs s₁ a s₂ cs _ hr hg hm hrest => ⟨hg, ?_⟩
      have hok : BurstOk key s₁ := burstOk_of_runs hB (fun _ _ h => h) hr
      cases a with
      | spawn r => trivial
      | env d => trivial
      | step i op =>
        cases op with
        | go =>
          intro t ht hpc hfl
          by_contra hent
          -- an entry means a flight before this one, so there would be two
          obtain ⟨e, he⟩ := Option.ne_none_iff_exists'.mp hent
          have hpos := List.length_pos_iff.mpr (hok.entries _ e he)
          obtain ⟨u, c', u', hu, hst, rfl⟩ := Sys.machine_step hm
          obtain rfl := Option.some.inj (ht.symm.trans hu)
          have hlen : c'.heap.length = s₁.shared.heap.length + 1 := by
            have hmv : Thread.Moves cfg s₁.shared t .go c' u' := Thread.step_moves hst
            cases hmv with
            | lead hpc hfl => simp
            | follow fl hpc hfl' =>
              rw [hfl] at hfl'
              exact absurd hfl' (by simp)
            | _ => simp_all
          have hmono := heap_le_of_runs hB (fun _ _ h => h) (hr.snoc hg hm) hrest
          replace hmono : c'.heap.length ≤ s.shared.heap.length := hmono
          omega
        | act a => trivial
        | ret => trivial
        | crash => trivial
    · intro htime
      exact (timely_one_flight hB htime).1
  refine ⟨hiff, ?_⟩
  intro hne hfin
  have hok : BurstOk key s := burstOk_of_runs hB (fun _ _ h => h) h
  obtain ⟨t, ht⟩ := List.exists_mem_of_ne_nil _ hne
  obtain ⟨e, he⟩ := hfin t ht
  have hpos := List.length_pos_iff.mpr (hok.started t ht (by rw [he]; simp) (by rw [he]; simp))
  rw [← hiff, hcalls]
  omega

end

/-! ## two requests -/

def gatesAnswer : List RwAct :=
  [.add "Content-Type" "application/json", .writeHeader 200, .write (ascii "[]")]

def gatesBackend : Backend :=
  { acts := fun _ h => h <+: gatesAnswer
    acts_nil := fun _ => List.nil_prefix
    acts_closed := fun _ h a hp => (List.prefix_append h [a]).trans hp
    returns := fun _ h => h = gatesAnswer
    panics := fun _ _ => False }

theorem gatesBackend_cacheable : gatesBackend.Cacheable plainConfig := by
  refine ⟨fun r h _ hr => ?_, fun r h _ hp => hp⟩
  obtain rfl : h = gatesAnswer := hr
  exact ⟨[("Content-Type", "application/json")], rfl, by decide⟩

instance (t : Thread) : ∀ op, Decidable (gatesBackend.allows t op)
  | .go => inferInstanceAs (Decidable True)
  | .act a => inferInstanceAs (Decidable (t.trace ++ [a] <+: gatesAnswer))
  | .ret => inferInstanceAs (Decidable (t.trace = gatesAnswer))
  | .crash => inferInstanceAs (Decidable False)

instance (key : Bytes) (s : State) (a : PoolAct Request Nat Op) :
    Decidable (Burst gatesBackend key s a) :=
  inferInstanceAs (Decidable (Local gatesBackend.allows s a ∧ Asks key a ∧ Fresh s.shared))

/-- what a leader does with `gatesAnswer`, from the call of the backend on -/
def leadOps : List Op :=
  (gatesAnswer.map .act : List Op) ++ ([.ret, .go, .go, .go, .go, .go] : List Op)

/-- the second request follows the first -/
def coalesced : List (PoolAct Request Nat Op) :=
  ([.spawn (gatesRequest []), .spawn (gatesRequest []), .step 0 .go, .step 0 .go, .step 1 .go, .step 1 .go] :
    Acts) ++ (leadOps.map (.step 0) : Acts) ++ ([.step 1 .go, .step 1 .go] : Acts)

/-- the second request has missed, and comes to `beginFlight` when the first one is done -/
def lateBegin : List (PoolAct Request Nat Op) :=
  ([.spawn (gatesRequest []), .spawn (gatesRequest []), .step 1 .go, .step 0 .go, .step 0 .go] : Acts) ++
    (leadOps.map (.step 0) : Acts) ++ (.step 1 .go :: leadOps.map (.step 1) : Acts)

/-- the run of `coalesced` is a burst, so the equivalence says what it costs -/
theorem coalesced_one_fetch :
    ∃ s, (middleware plainConfig).machine.Runs (Burst gatesBackend (gatesRequest []).cacheKey) (init 0)
        coalesced s ∧
      s.threads.map Thread.pc = [.finished .returned, .finished .returned] ∧
      (backendCalls plainConfig (init 0) coalesced ≤ 1 ↔
        (middleware plainConfig).machine.Runs
          (fun s a => Burst gatesBackend (gatesRequest []).cacheKey s a ∧ Timely s a) (init 0) coalesced s) :=
  ⟨_, Machine.runs_iff_runG.mpr rfl, rfl,
    (one_fetch_iff gatesBackend_cacheable (Machine.runs_iff_runG.mpr rfl)).1⟩

/-- two requests for one URL, nothing expires, every response can be shared, and the backend is
called twice -/
theorem late_begin_fetches_twice :
    ∃ s, (middleware plainConfig).machine.Runs (Burst gatesBackend (gatesRequest []).cacheKey) (init 0)
        lateBegin s ∧
      s.threads.map Thread.pc = [.finished .returned, .finished .returned] ∧
      gatesBackend.Cacheable plainConfig ∧ backendCalls plainConfig (init 0) lateBegin = 2 :=
  ⟨_, Machine.runs_iff_runG.mpr rfl, rfl, gatesBackend_cacheable, rfl⟩

end Gateway
