import Purrlington.Gateway.Cache

/-!
# Gateway: the bookkeeping of flights

The map of flights, the flight objects and the requests that lead or follow them, in every state
that any interleaving reaches, whatever the backend's handlers do.

* `Pc.leading`       between `beginFlight` and the removal in `finishFlight`;
* `Books`            the moves as the bookkeeping sees them: most are quiet;
* `Flying`           the invariant, kept by every step (`Flying.step`);
* `flying_of_runs`   it holds in every reachable state.
-/

set_option linter.unusedSectionVars false

namespace Gateway
open SM

/-! ## leaders -/

namespace Pc

/-- the flight of a leader between its `beginFlight` and the removal from the map -/
def leading : Pc → Option Nat
  | .fetch (.lead fl) => some fl
  | .stamp fl _ => some fl
  | .store fl _ _ => some fl
  | .publish fl _ _ => some fl
  | .remove fl _ => some fl
  | _ => none

theorem leads_iff {pc : Pc} {fl : Nat} :
    pc.leads fl = true ↔ pc.leading = some fl ∨ ∃ e, pc = .close fl e := by
  cases pc with
  | fetch via => cases via <;> simp [leads, flight, leading]
  | _ => simp [leads, flight, leading]

theorem leads_of_leading {pc : Pc} {fl : Nat} (h : pc.leading = some fl) : pc.leads fl = true :=
  leads_iff.mpr (.inl h)

theorem leads_iff_of_leading {pc : Pc} {fl g : Nat} (h : pc.leading = some fl) :
    pc.leads g = true ↔ fl = g := by
  rw [leads_iff, h, Option.some.injEq]
  apply or_iff_left
  rintro ⟨e, rfl⟩
  exact absurd h (by simp [leading])

end Pc

namespace Thread

/-- what a leader hands to `finishFlight`, by how its handler ended -/
def outcome (t : Thread) : Ending → FlightResult
  | .returned => t.flightResult
  | .panicked => {}

theorem outcome_finish (t : Thread) (e e' : Ending) : (t.finish e').outcome e = t.outcome e := by
  have hw : t.cc.writer.finish.header = t.cc.writer.header := by
    unfold ResponseWriter.finish ResponseWriter.writeHeader
    split
    · rfl
    · split <;> rfl
  cases e with
  | panicked => rfl
  | returned =>
    cases e' with
    | panicked => rfl
    | returned =>
      show FlightResult.mk _ t.cc.writer.finish.header _ _ = _
      rw [hw]
      rfl

/-- what a leader carries to `finishFlight`, and what the flight holds once it is published -/
def Carries (c : ResponseCache) (t : Thread) : Prop :=
  match t.pc with
  | .stamp _ res => res = t.outcome .returned
  | .store _ res _ => res = t.outcome .returned
  | .publish _ res e => res = t.outcome e
  | .remove fl e => ∀ f, c.heap[fl]? = some f → f.result = t.outcome e
  | .close fl e => ∀ f, c.heap[fl]? = some f → f.result = t.outcome e
  | _ => True

theorem carries_of_leads_none {c : ResponseCache} {t : Thread} (h : ∀ fl, t.pc.leads fl = false) :
    t.Carries c := by
  unfold Carries
  cases hpc : t.pc with
  | stamp fl res => exact absurd (h fl) (by rw [hpc]; simp [Pc.leads, Pc.flight])
  | store fl res x => exact absurd (h fl) (by rw [hpc]; simp [Pc.leads, Pc.flight])
  | publish fl res e => exact absurd (h fl) (by rw [hpc]; simp [Pc.leads, Pc.flight])
  | remove fl e => exact absurd (h fl) (by rw [hpc]; simp [Pc.leads, Pc.flight])
  | close fl e => exact absurd (h fl) (by rw [hpc]; simp [Pc.leads, Pc.flight])
  | _ => trivial

/-- only a change of its own flight matters to a leader -/
theorem carries_congr {c c' : ResponseCache} {t : Thread}
    (h : ∀ fl, t.pc.leads fl = true → c'.heap[fl]? = c.heap[fl]?) (ht : t.Carries c) :
    t.Carries c' := by
  unfold Carries at ht ⊢
  cases hpc : t.pc with
  | remove fl e =>
    rw [hpc] at ht
    show ∀ f, c'.heap[fl]? = some f → _
    rw [h fl (by rw [hpc]; simp [Pc.leads, Pc.flight])]
    exact ht
  | close fl e =>
    rw [hpc] at ht
    show ∀ f, c'.heap[fl]? = some f → _
    rw [h fl (by rw [hpc]; simp [Pc.leads, Pc.flight])]
    exact ht
  | _ =>
    rw [hpc] at ht
    exact ht

end Thread

/-! ## the moves as the bookkeeping sees them -/

/-- the request keeps its place in the bookkeeping, and does not start to wait -/
structure Quiet (c : ResponseCache) (t : Thread) (c' : ResponseCache) (t' : Thread) : Prop where
  heap : c'.heap = c.heap
  flights : c'.flights = c.flights
  req : t'.req = t.req
  leads : ∀ fl, t'.pc.leads fl = t.pc.leads fl
  leading : t'.pc.leading = t.pc.leading
  waits : ∀ fl, t'.pc ≠ .wait fl
  carries : t.Carries c → t'.Carries c'

/-- a move is quiet, or one of the five that touch flights -/
inductive Books (c : ResponseCache) (t : Thread) : ResponseCache → Thread → Prop
  | quiet {c' : ResponseCache} {t' : Thread} (h : Quiet c t c' t') : Books c t c' t'
  | follow (fl : Nat) (hpc : t.pc = .begin) (hfl : c.flights.lookup t.req.cacheKey = some fl) :
      Books c t c { t with pc := .wait fl }
  | lead (hpc : t.pc = .begin) (hfl : c.flights.lookup t.req.cacheKey = none) :
      Books c t
        { c with flights := c.flights.insert t.req.cacheKey c.heap.length,
                 heap := c.heap ++ [{ key := t.req.cacheKey }] }
        { t with pc := .fetch (.lead c.heap.length) }
  | publish (fl : Nat) (res : FlightResult) (e : Ending) (hpc : t.pc = .publish fl res e) :
      Books c t (c.publish fl res) { t with pc := .remove fl e }
  | remove (fl : Nat) (e : Ending) (hpc : t.pc = .remove fl e) :
      Books c t (c.remove t.req.cacheKey) { t with pc := .close fl e }
  | close (fl : Nat) (e : Ending) (hpc : t.pc = .close fl e) : Books c t (c.close fl) (t.finish e)
  | closeClosed (fl : Nat) (f : Flight) (e : Ending) (hpc : t.pc = .close fl e)
      (hf : c.heap[fl]? = some f) (hdone : f.done = true) : Books c t c (t.finish .panicked)

namespace Thread
variable {cfg : Config} {c c' : ResponseCache} {t t' : Thread} {op : Op}

theorem quiet_of_leads_none (hheap : c'.heap = c.heap) (hflights : c'.flights = c.flights)
    (hreq : t'.req = t.req) (h : ∀ fl, t.pc.leads fl = false) (h' : ∀ fl, t'.pc.leads fl = false)
    (hw : ∀ fl, t'.pc ≠ .wait fl) : Quiet c t c' t' := by
  have hnone : ∀ pc : Pc, (∀ fl, pc.leads fl = false) → pc.leading = none := by
    intro pc hpc
    cases hl : pc.leading with
    | none => rfl
    | some fl =>
      have := Pc.leads_of_leading hl
      rw [hpc fl] at this
      exact absurd this (by simp)
  refine ⟨hheap, hflights, hreq, fun fl => ?_, ?_, hw, fun _ => carries_of_leads_none h'⟩
  · rw [h, h']
  · rw [hnone _ h, hnone _ h']

theorem finish_pc (t : Thread) (e : Ending) : (t.finish e).pc = .finished e := by
  cases e <;> rfl

theorem finish_req (t : Thread) (e : Ending) : (t.finish e).req = t.req := by
  cases e <;> rfl

theorem quiet_finished {e : Ending} (hheap : c'.heap = c.heap) (hflights : c'.flights = c.flights)
    (hreq : t'.req = t.req) (h : ∀ fl, t.pc.leads fl = false) (hpc : t'.pc = .finished e) :
    Quiet c t c' t' := by
  refine quiet_of_leads_none hheap hflights hreq h (fun fl => ?_) (fun fl => ?_)
  · rw [hpc]
    simp [Pc.leads, Pc.flight]
  · rw [hpc]
    simp

theorem quiet_lead {fl : Nat} (hheap : c'.heap = c.heap) (hflights : c'.flights = c.flights)
    (hreq : t'.req = t.req) (h : t.pc.leading = some fl) (h' : t'.pc.leading = some fl)
    (hcar : t.Carries c → t'.Carries c') : Quiet c t c' t' := by
  refine ⟨hheap, hflights, hreq, fun g => ?_, by rw [h, h'], fun g hg => ?_, hcar⟩
  · rw [Bool.eq_iff_iff, Pc.leads_iff_of_leading h, Pc.leads_iff_of_leading h']
  · rw [hg] at h'
    exact absurd h' (by simp [Pc.leading])

theorem Moves.books (h : Moves cfg c t op c' t') : Books c t c' t' := by
  have none : ∀ pc : Pc, t.pc = pc → pc.flight = none → ∀ fl, t.pc.leads fl = false := by
    rintro pc rfl hpc fl
    simp [Pc.leads, hpc]
  cases h with
  | hit e hpc he =>
    exact .quiet (quiet_finished (c.expire_heap _) (c.expire_flights _) rfl (none _ hpc rfl) rfl)
  | miss hpc =>
    exact .quiet (quiet_of_leads_none (c.expire_heap _) (c.expire_flights _) rfl (none _ hpc rfl)
      (fun fl => by simp [Pc.leads, Pc.flight]) (fun fl => by simp))
  | follow fl hpc hfl => exact .follow fl hpc hfl
  | lead hpc hfl => exact .lead hpc hfl
  | released fl f hpc hf hdone hc =>
    exact .quiet (quiet_of_leads_none rfl rfl rfl (fun g => by simp [hpc, Pc.leads, Pc.flight])
      (fun g => by simp [Pc.leads, Pc.flight]) (fun g => by simp))
  | refused fl f hpc hf hdone hc =>
    exact .quiet (quiet_of_leads_none rfl rfl rfl (fun g => by simp [hpc, Pc.leads, Pc.flight])
      (fun g => by simp [Pc.leads, Pc.flight]) (fun g => by simp))
  | rehit res e hpc he =>
    exact .quiet (quiet_finished (c.expire_heap _) (c.expire_flights _) rfl (none _ hpc rfl) rfl)
  | share res hpc =>
    exact .quiet (quiet_finished (c.expire_heap _) (c.expire_flights _) rfl (none _ hpc rfl) rfl)
  | stamp fl res hpc =>
    refine .quiet (quiet_lead rfl rfl rfl (by rw [hpc]; rfl) rfl ?_)
    intro h
    unfold Carries at h
    rw [hpc] at h
    exact h
  | store fl res expires hpc =>
    refine .quiet (quiet_lead rfl rfl rfl (by rw [hpc]; rfl) rfl ?_)
    intro h
    unfold Carries at h
    rw [hpc] at h
    exact h
  | publish fl res e hpc => exact .publish fl res e hpc
  | remove fl e hpc => exact .remove fl e hpc
  | close fl f e hpc hf hdone => exact .close fl e hpc
  | closeClosed fl f e hpc hf hdone => exact .closeClosed fl f e hpc hf hdone
  | act via a hpc =>
    refine .quiet ⟨rfl, rfl, rfl, fun _ => rfl, rfl, fun fl => ?_, fun _ => ?_⟩
    · show t.pc ≠ _
      rw [hpc]
      simp
    · simp only [Carries, hpc]
  | retShare fl hpc hc => exact .quiet (quiet_lead rfl rfl rfl (by rw [hpc]; rfl) rfl fun _ => rfl)
  | retLead fl hpc hc => exact .quiet (quiet_lead rfl rfl rfl (by rw [hpc]; rfl) rfl fun _ => rfl)
  | ret via hpc hvia =>
    refine .quiet (quiet_finished rfl rfl (t.finish_req _) (none _ hpc ?_) (t.finish_pc _))
    rcases hvia with rfl | rfl <;> rfl
  | crashLead fl hpc => exact .quiet (quiet_lead rfl rfl rfl (by rw [hpc]; rfl) rfl fun _ => rfl)
  | crash via hpc hvia =>
    refine .quiet (quiet_finished rfl rfl (t.finish_req _) (none _ hpc ?_) (t.finish_pc _))
    rcases hvia with rfl | rfl <;> rfl

theorem Moves.not_finished (h : Moves cfg c t op c' t') (e : Ending) : t.pc ≠ .finished e := by
  cases h <;> simp_all

end Thread

/-! ## the invariant -/

structure Seated (c : ResponseCache) (t : Thread) : Prop where
  key : ∀ fl, t.pc = .wait fl ∨ t.pc.leads fl = true → c.keyAt fl = some t.req.cacheKey
  registered : ∀ fl, t.pc.leading = some fl → c.flights.lookup t.req.cacheKey = some fl
  opened : ∀ fl f, t.pc.leads fl = true → c.heap[fl]? = some f → f.done = false
  carries : t.Carries c

/-- whoever has to answer for a flight: its leader, and after the close a finished request that
has left its result there -/
def AnsweredFor (ts : List Thread) (fl : Nat) (f : Flight) : Prop :=
  if f.done then ∃ u ∈ ts, ∃ e, u.pc = .finished e ∧ u.req.cacheKey = f.key ∧ f.result = u.outcome e
  else ∃ u ∈ ts, u.pc.leads fl = true

structure Flying (s : State) : Prop where
  seated : ∀ (i : Nat) (t : Thread), s.threads[i]? = some t → Seated s.shared t
  single : ∀ (i : Nat) (t : Thread), s.threads[i]? = some t → ∀ (j : Nat) (u : Thread),
    s.threads[j]? = some u → ∀ fl, t.pc.leads fl = true → u.pc.leads fl = true → i = j
  led : ∀ k fl, s.shared.flights.lookup k = some fl →
    s.shared.keyAt fl = some k ∧ ∃ u ∈ s.threads, u.pc.leading = some fl
  answered : ∀ (fl : Nat) (f : Flight), s.shared.heap[fl]? = some f → AnsweredFor s.threads fl f

namespace ResponseCache
variable {c : ResponseCache} {fl g : Nat}

theorem publish_heap_ne (res : FlightResult) (h : fl ≠ g) :
    (c.publish fl res).heap[g]? = c.heap[g]? := List.getElem?_modify_ne _ _ h

theorem close_heap_ne (h : fl ≠ g) : (c.close fl).heap[g]? = c.heap[g]? :=
  List.getElem?_modify_ne _ _ h

theorem publish_heap_eq (res : FlightResult) :
    (c.publish fl res).heap[fl]? = c.heap[fl]?.map fun f => { f with result := res } :=
  List.getElem?_modify_eq _ _ _

theorem close_heap_eq : (c.close fl).heap[fl]? = c.heap[fl]?.map fun f => { f with done := true } :=
  List.getElem?_modify_eq _ _ _

theorem keyAt_congr {c' : ResponseCache} (h : c'.heap = c.heap) : c'.keyAt fl = c.keyAt fl := by
  unfold keyAt
  rw [h]

end ResponseCache

section
variable {c c' : ResponseCache} {t t' : Thread} {ts : List Thread} {i : Nat}

theorem Seated.congr {u : Thread} (h : Seated c u)
    (hkey : ∀ fl, c'.keyAt fl = c.keyAt fl)
    (hreg : ∀ fl, u.pc.leading = some fl →
      c'.flights.lookup u.req.cacheKey = c.flights.lookup u.req.cacheKey)
    (hheap : ∀ fl, u.pc.leads fl = true → c'.heap[fl]? = c.heap[fl]?) : Seated c' u := by
  refine ⟨fun fl hfl => ?_, fun fl hfl => ?_, fun fl f hfl hf => ?_,
    Thread.carries_congr hheap h.carries⟩
  · rw [hkey]
    exact h.key fl hfl
  · rw [hreg fl hfl]
    exact h.registered fl hfl
  · rw [hheap fl hfl] at hf
    exact h.opened fl f hfl hf

/-- nobody else leads what the request leads after its move -/
theorem Flying.single_set {s : State} (h : Flying s)
    (hnew : ∀ (j : Nat) (u : Thread), j ≠ i → s.threads[j]? = some u → ∀ fl,
      t'.pc.leads fl = true → u.pc.leads fl = false) :
    ∀ (j : Nat) (u : Thread), (s.threads.set i t')[j]? = some u → ∀ (k : Nat) (v : Thread),
      (s.threads.set i t')[k]? = some v → ∀ fl, u.pc.leads fl = true → v.pc.leads fl = true →
      j = k := by
  refine forall_set (fun j u hj hu => forall_set (fun k v hk hv => h.single j u hu k v hv) ?_) ?_
  · intro fl hfl hfl'
    rw [hnew j u hj hu fl hfl'] at hfl
    exact absurd hfl (by simp)
  · refine forall_set (fun k v hk hv fl hfl hfl' => ?_) fun _ _ _ => rfl
    rw [hnew k v hk hv fl hfl] at hfl'
    exact absurd hfl' (by simp)

theorem Flying.alone {s : State} (h : Flying s) (hi : s.threads[i]? = some t) {j : Nat} {u : Thread}
    (hj : j ≠ i) (hu : s.threads[j]? = some u) {fl : Nat} (hfl : t.pc.leads fl = true) :
    u.pc.leads fl = false := by
  cases hl : u.pc.leads fl with
  | false => rfl
  | true => exact absurd (h.single j u hu i t hi fl hl hfl) hj

theorem AnsweredFor.set {fl : Nat} {f : Flight} (h : AnsweredFor ts fl f) (hi : ts[i]? = some t)
    (hnf : ∀ e, t.pc ≠ .finished e) (hl : t.pc.leads fl = true → t'.pc.leads fl = true) :
    AnsweredFor (ts.set i t') fl f := by
  unfold AnsweredFor at h ⊢
  by_cases hd : f.done = true
  · rw [if_pos hd] at h ⊢
    refine exists_set hi h ?_ fun u hu => hu
    rintro ⟨e, he, _⟩
    exact absurd he (hnf e)
  · rw [if_neg hd] at h ⊢
    exact exists_set hi h hl fun u hu => hu

end

namespace Flying
variable {s : State} {c' : ResponseCache} {t t' : Thread} {i : Nat}

theorem quiet (h : Flying s) (hi : s.threads[i]? = some t) (hnf : ∀ e, t.pc ≠ .finished e)
    (hq : Quiet s.shared t c' t') : Flying ⟨c', s.threads.set i t'⟩ := by
  have hkey : ∀ fl, c'.keyAt fl = s.shared.keyAt fl :=
    fun fl => ResponseCache.keyAt_congr hq.heap
  refine ⟨forall_set (fun j u _ hu => ?_) ?_, single_set h fun j u hj hu fl hfl => ?_,
    fun k fl hk => ?_, fun fl f hf => ?_⟩
  · exact (h.seated j u hu).congr hkey (fun _ _ => by rw [hq.flights]) (fun _ _ => by rw [hq.heap])
  · have ht := h.seated i t hi
    refine ⟨fun fl hfl => ?_, fun fl hfl => ?_, fun fl f hfl hf => ?_, hq.carries ht.carries⟩
    · rw [hq.leads] at hfl
      rw [hkey, hq.req]
      exact ht.key fl (.inr (hfl.resolve_left (hq.waits fl)))
    · rw [hq.leading] at hfl
      rw [hq.flights, hq.req]
      exact ht.registered fl hfl
    · rw [hq.leads] at hfl
      rw [hq.heap] at hf
      exact ht.opened fl f hfl hf
  · rw [hq.leads] at hfl
    exact h.alone hi hj hu hfl
  · rw [hq.flights] at hk
    obtain ⟨hkk, hu⟩ := h.led k fl hk
    refine ⟨(hkey fl).trans hkk, exists_set hi hu (fun ht => ?_) fun _ hu => hu⟩
    rw [hq.leading]
    exact ht
  · rw [hq.heap] at hf
    exact (h.answered fl f hf).set hi hnf fun hl => by rw [hq.leads]; exact hl

theorem follow (h : Flying s) (hi : s.threads[i]? = some t) (hpc : t.pc = .begin) {fl : Nat}
    (hfl : s.shared.flights.lookup t.req.cacheKey = some fl) :
    Flying ⟨s.shared, s.threads.set i { t with pc := .wait fl }⟩ := by
  have hno : ∀ g, (Pc.wait fl).leads g = false := fun g => by simp [Pc.leads, Pc.flight]
  refine ⟨forall_set (fun j u _ hu => h.seated j u hu) ?_, single_set h fun j u hj hu g hg => ?_,
    fun k g hk => ?_, fun g f hf => ?_⟩
  · refine ⟨fun g hg => ?_, fun g hg => absurd hg (by simp [Pc.leading]), fun g f hg => ?_, trivial⟩
    · rcases hg with hg | hg
      · obtain rfl := Pc.wait.inj hg
        exact (h.led _ _ hfl).1
      · rw [hno g] at hg
        exact absurd hg (by simp)
    · rw [hno g] at hg
      exact absurd hg (by simp)
  · rw [hno g] at hg
    exact absurd hg (by simp)
  · obtain ⟨hk', hu⟩ := h.led k g hk
    refine ⟨hk', exists_set hi hu (fun ht => ?_) fun _ hu => hu⟩
    rw [hpc] at ht
    exact absurd ht (by simp [Pc.leading])
  · refine (h.answered g f hf).set hi (fun e => by rw [hpc]; simp) ?_
    intro hl
    rw [hpc] at hl
    exact absurd hl (by simp [Pc.leads, Pc.flight])

theorem lead (h : Flying s) (hi : s.threads[i]? = some t) (hpc : t.pc = .begin)
    (hfl : s.shared.flights.lookup t.req.cacheKey = none) :
    Flying ⟨{ s.shared with
        flights := s.shared.flights.insert t.req.cacheKey s.shared.heap.length,
        heap := s.shared.heap ++ [{ key := t.req.cacheKey }] },
      s.threads.set i { t with pc := .fetch (.lead s.shared.heap.length) }⟩ := by
  have hlt : ∀ fl k, s.shared.keyAt fl = some k → fl < s.shared.heap.length := by
    intro fl k hk
    obtain ⟨f, hf, _⟩ := Option.map_eq_some_iff.mp hk
    exact (List.getElem?_eq_some_iff.mp hf).1
  have hold : ∀ fl, fl < s.shared.heap.length →
      (s.shared.heap ++ [{ key := t.req.cacheKey }])[fl]? = s.shared.heap[fl]? :=
    fun fl h => List.getElem?_append_left h
  have hnew : ∀ fl, (Pc.fetch (.lead s.shared.heap.length)).leads fl = true →
      s.shared.heap.length = fl := fun fl hl => (Pc.leads_iff_of_leading rfl).mp hl
  refine ⟨forall_set (fun j u _ hu => ?_) ?_, single_set h fun j u hj hu fl hl => ?_,
    fun k fl hk => ?_, forall_snoc (fun fl f hf => ?_) ?_⟩
  · have hs := h.seated j u hu
    have hin : ∀ fl, u.pc = .wait fl ∨ u.pc.leads fl = true → fl < s.shared.heap.length :=
      fun fl hl => hlt fl _ (hs.key fl hl)
    refine ⟨fun fl hl => ?_, fun fl hl => ?_, fun fl f hl hf => ?_,
      Thread.carries_congr (fun fl hl => hold fl (hin fl (.inr hl))) hs.carries⟩
    · show (s.shared.heap ++ _)[fl]?.map _ = _
      rw [hold fl (hin fl hl)]
      exact hs.key fl hl
    · have hreg := hs.registered fl hl
      have hne : u.req.cacheKey ≠ t.req.cacheKey := by
        intro e
        rw [e, hfl] at hreg
        exact absurd hreg (by simp)
      show (s.shared.flights.insert _ _).lookup _ = _
      rw [AList.lookup_insert_ne hne]
      exact hreg
    · replace hf : (s.shared.heap ++ _)[fl]? = some f := hf
      rw [hold fl (hin fl (.inr hl))] at hf
      exact hs.opened fl f hl hf
  · refine ⟨fun fl hl => ?_, fun fl hl => ?_, fun fl f hl hf => ?_, trivial⟩
    · rcases hl with hl | hl
      · exact absurd hl (by simp)
      · obtain rfl := hnew fl hl
        exact s.shared.keyAt_concat _ _
    · obtain rfl := Option.some.inj hl
      exact AList.lookup_insert _
    · obtain rfl := hnew fl hl
      replace hf : (s.shared.heap ++ _)[s.shared.heap.length]? = some f := hf
      rw [List.getElem?_concat_length] at hf
      obtain rfl := Option.some.inj hf
      rfl
  · obtain rfl := hnew fl hl
    cases hu' : u.pc.leads s.shared.heap.length with
    | false => rfl
    | true => exact absurd (hlt _ _ ((h.seated j u hu).key _ (.inr hu'))) (lt_irrefl _)
  · replace hk : (s.shared.flights.insert t.req.cacheKey s.shared.heap.length).lookup k = some fl := hk
    by_cases e : k = t.req.cacheKey
    · subst e
      rw [AList.lookup_insert] at hk
      obtain rfl := Option.some.inj hk
      exact ⟨s.shared.keyAt_concat _ _, _,
        List.mem_set (List.getElem?_eq_some_iff.mp hi).1 _, rfl⟩
    · rw [AList.lookup_insert_ne e] at hk
      obtain ⟨hk', hu⟩ := h.led k fl hk
      refine ⟨?_, exists_set hi hu (fun ht => ?_) fun _ hu => hu⟩
      · show (s.shared.heap ++ _)[fl]?.map _ = _
        rw [hold fl (hlt fl k hk')]
        exact hk'
      · rw [hpc] at ht
        exact absurd ht (by simp [Pc.leading])
  · refine (h.answered fl f hf).set hi (fun e => by rw [hpc]; simp) ?_
    intro hl
    rw [hpc] at hl
    exact absurd hl (by simp [Pc.leads, Pc.flight])
  · refine ⟨_, List.mem_set (List.getElem?_eq_some_iff.mp hi).1 _, ?_⟩
    exact Pc.leads_of_leading rfl

theorem touch (h : Flying s) (hi : s.threads[i]? = some t) {fl : Nat} (hl : t.pc.leads fl = true)
    (hkey : ∀ g, c'.keyAt g = s.shared.keyAt g) (hflights : c'.flights = s.shared.flights)
    (hheap : ∀ g, fl ≠ g → c'.heap[g]? = s.shared.heap[g]?) {j : Nat} {u : Thread} (hj : j ≠ i)
    (hu : s.threads[j]? = some u) : Seated c' u := by
  refine (h.seated j u hu).congr hkey (fun _ _ => by rw [hflights]) fun g hg => hheap g ?_
  rintro rfl
  rw [h.alone hi hj hu hl] at hg
  exact absurd hg (by simp)

theorem publish (h : Flying s) (hi : s.threads[i]? = some t) {fl : Nat} {res : FlightResult}
    {e : Ending} (hpc : t.pc = .publish fl res e) :
    Flying ⟨s.shared.publish fl res, s.threads.set i { t with pc := .remove fl e }⟩ := by
  have hlead : t.pc.leading = some fl := by rw [hpc]; rfl
  have hl := Pc.leads_of_leading hlead
  have ht := h.seated i t hi
  have hnew : ∀ g, (Pc.remove fl e).leads g = true → fl = g :=
    fun g hg => (Pc.leads_iff_of_leading rfl).mp hg
  have hmem := List.mem_set (List.getElem?_eq_some_iff.mp hi).1 { t with pc := .remove fl e }
  refine ⟨forall_set (fun j u hj hu => ?_) ?_, single_set h fun j u hj hu g hg => ?_,
    fun k g hk => ?_, fun g f hf => ?_⟩
  · exact h.touch hi hl (fun g => s.shared.publish_keyAt fl g res) rfl
      (fun g hg => ResponseCache.publish_heap_ne res hg) hj hu
  · refine ⟨fun g hg => ?_, fun g hg => ?_, fun g f hg hf => ?_, fun f hf => ?_⟩
    · obtain rfl := hnew g (hg.resolve_left (by simp))
      exact (s.shared.publish_keyAt fl fl res).trans (ht.key fl (.inr hl))
    · obtain rfl := Option.some.inj hg
      exact ht.registered fl hlead
    · obtain rfl := hnew g hg
      rw [ResponseCache.publish_heap_eq] at hf
      obtain ⟨f0, hf0, rfl⟩ := Option.map_eq_some_iff.mp hf
      exact ht.opened fl f0 hl hf0
    · rw [ResponseCache.publish_heap_eq] at hf
      obtain ⟨f0, hf0, rfl⟩ := Option.map_eq_some_iff.mp hf
      have hc := ht.carries
      unfold Thread.Carries at hc
      rw [hpc] at hc
      exact hc
  · obtain rfl := hnew g hg
    exact h.alone hi hj hu hl
  · obtain ⟨hk', hu⟩ := h.led k g hk
    refine ⟨(s.shared.publish_keyAt fl g res).trans hk', exists_set hi hu (fun hg => ?_) fun _ hu => hu⟩
    exact hlead.symm.trans hg
  · by_cases hg : fl = g
    · subst hg
      rw [ResponseCache.publish_heap_eq] at hf
      obtain ⟨f0, hf0, rfl⟩ := Option.map_eq_some_iff.mp hf
      have hd := ht.opened fl f0 hl hf0
      unfold AnsweredFor
      rw [if_neg (by simp [hd])]
      exact ⟨_, hmem, Pc.leads_of_leading rfl⟩
    · rw [ResponseCache.publish_heap_ne res hg] at hf
      refine (h.answered g f hf).set hi (fun e => by rw [hpc]; simp) ?_
      intro hl'
      exact absurd ((Pc.leads_iff_of_leading hlead).mp hl') hg

theorem remove (h : Flying s) (hi : s.threads[i]? = some t) {fl : Nat} {e : Ending}
    (hpc : t.pc = .remove fl e) :
    Flying ⟨s.shared.remove t.req.cacheKey, s.threads.set i { t with pc := .close fl e }⟩ := by
  have hlead : t.pc.leading = some fl := by rw [hpc]; rfl
  have hl := Pc.leads_of_leading hlead
  have ht := h.seated i t hi
  have hreg := ht.registered fl hlead
  have hnew : ∀ g, (Pc.close fl e).leads g = true → fl = g := by
    intro g hg
    rcases Pc.leads_iff.mp hg with hg | ⟨e', hg⟩
    · exact absurd hg (by simp [Pc.leading])
    · exact (Pc.close.inj hg).1
  have hclose : (Pc.close fl e).leads fl = true := Pc.leads_iff.mpr (.inr ⟨e, rfl⟩)
  refine ⟨forall_set (fun j u hj hu => ?_) ?_, single_set h fun j u hj hu g hg => ?_,
    fun k g hk => ?_, fun g f hf => ?_⟩
  · -- another registered leader has another key, or it would lead the same flight
    refine (h.seated j u hu).congr (fun _ => rfl) (fun g hg => ?_) fun _ _ => rfl
    apply AList.lookup_erase_ne
    intro ek
    have hreg' := (h.seated j u hu).registered g hg
    rw [ek, hreg] at hreg'
    obtain rfl := Option.some.inj hreg'
    have hno := h.alone hi hj hu hl
    rw [Pc.leads_of_leading hg] at hno
    exact absurd hno (by simp)
  · refine ⟨fun g hg => ?_, fun g hg => absurd hg (by simp [Pc.leading]), fun g f hg hf => ?_,
      fun f hf => ?_⟩
    · obtain rfl := hnew g (hg.resolve_left (by simp))
      exact ht.key fl (.inr hl)
    · obtain rfl := hnew g hg
      exact ht.opened fl f hl hf
    · have hc := ht.carries
      unfold Thread.Carries at hc
      rw [hpc] at hc
      exact hc f hf
  · obtain rfl := hnew g hg
    exact h.alone hi hj hu hl
  · replace hk : (s.shared.flights.erase t.req.cacheKey).lookup k = some g := hk
    by_cases ek : k = t.req.cacheKey
    · subst ek
      rw [AList.lookup_erase] at hk
      exact absurd hk (by simp)
    · rw [AList.lookup_erase_ne ek] at hk
      obtain ⟨hk', hu⟩ := h.led k g hk
      refine ⟨hk', exists_set hi hu (fun hg => ?_) fun _ hu => hu⟩
      -- the flight of another key is not the one the request leads
      obtain rfl := Option.some.inj (hlead.symm.trans hg)
      have hkey := ht.key fl (.inr hl)
      exact absurd (Option.some.inj (hk'.symm.trans hkey)) ek
  · refine (h.answered g f hf).set hi (fun e => by rw [hpc]; simp) ?_
    intro hl'
    obtain rfl := (Pc.leads_iff_of_leading hlead).mp hl'
    exact hclose

theorem close (h : Flying s) (hi : s.threads[i]? = some t) {fl : Nat} {e : Ending}
    (hpc : t.pc = .close fl e) : Flying ⟨s.shared.close fl, s.threads.set i (t.finish e)⟩ := by
  have hl : t.pc.leads fl = true := Pc.leads_iff.mpr (.inr ⟨e, hpc⟩)
  have ht := h.seated i t hi
  have hno : ∀ g, (t.finish e).pc.leads g = false := by
    intro g
    rw [t.finish_pc]
    simp [Pc.leads, Pc.flight]
  refine ⟨forall_set (fun j u hj hu => ?_) ?_, single_set h fun j u hj hu g hg => ?_,
    fun k g hk => ?_, fun g f hf => ?_⟩
  · exact h.touch hi hl (fun g => s.shared.close_keyAt fl g) rfl
      (fun g hg => ResponseCache.close_heap_ne hg) hj hu
  · refine ⟨fun g hg => ?_, fun g hg => ?_, fun g f hg hf => ?_, Thread.carries_of_leads_none hno⟩
    · rw [hno, t.finish_pc] at hg
      exact absurd hg (by simp)
    · rw [t.finish_pc] at hg
      exact absurd hg (by simp [Pc.leading])
    · rw [hno] at hg
      exact absurd hg (by simp)
  · rw [hno] at hg
    exact absurd hg (by simp)
  · obtain ⟨hk', hu⟩ := h.led k g hk
    refine ⟨(s.shared.close_keyAt fl g).trans hk', exists_set hi hu (fun hg => ?_) fun _ hu => hu⟩
    rw [hpc] at hg
    exact absurd hg (by simp [Pc.leading])
  · by_cases hg : fl = g
    · subst hg
      rw [ResponseCache.close_heap_eq] at hf
      obtain ⟨f0, hf0, rfl⟩ := Option.map_eq_some_iff.mp hf
      have hc := ht.carries
      unfold Thread.Carries at hc
      rw [hpc] at hc
      have hkey := ht.key fl (.inr hl)
      rw [ResponseCache.keyAt, hf0] at hkey
      unfold AnsweredFor
      rw [if_pos rfl]
      refine ⟨_, List.mem_set (List.getElem?_eq_some_iff.mp hi).1 _, e, t.finish_pc e, ?_, ?_⟩
      · rw [t.finish_req]
        exact (Option.some.inj hkey).symm
      · rw [t.outcome_finish]
        exact hc f0 hf0
    · rw [ResponseCache.close_heap_ne hg] at hf
      refine (h.answered g f hf).set hi (fun e => by rw [hpc]; simp) ?_
      intro hl'
      rcases Pc.leads_iff.mp hl' with hl' | ⟨e', hl'⟩
      · rw [hpc] at hl'
        exact absurd hl' (by simp [Pc.leading])
      · rw [hpc] at hl'
        exact absurd (Pc.close.inj hl').1 hg

theorem step (h : Flying s) {cfg : Config} {op : Op} (hi : s.threads[i]? = some t)
    (hm : Thread.Moves cfg s.shared t op c' t') : Flying ⟨c', s.threads.set i t'⟩ := by
  have hnf := hm.not_finished
  cases hm.books with
  | quiet hq => exact h.quiet hi hnf hq
  | follow fl hpc hfl => exact h.follow hi hpc hfl
  | lead hpc hfl => exact h.lead hi hpc hfl
  | publish fl res e hpc => exact h.publish hi hpc
  | remove fl e hpc => exact h.remove hi hpc
  | close fl e hpc => exact h.close hi hpc
  | closeClosed fl f e hpc hf hdone =>
    have := (h.seated i t hi).opened fl f (Pc.leads_iff.mpr (.inr ⟨e, hpc⟩)) hf
    rw [hdone] at this
    exact absurd this (by simp)

theorem spawn (h : Flying s) (cfg : Config) (r : Request) :
    Flying ⟨s.shared, s.threads ++ [cfg.start r]⟩ := by
  have hfl : (cfg.start r).pc.flight = none := by
    unfold Config.start
    split <;> rfl
  have hno : ∀ fl, (cfg.start r).pc.leads fl = false := fun fl => by simp [Pc.leads, hfl]
  have hw : ∀ fl, (cfg.start r).pc ≠ .wait fl := by
    intro fl e
    rw [e] at hfl
    exact absurd hfl (by simp [Pc.flight])
  refine ⟨forall_snoc h.seated ⟨fun fl hl => ?_, fun fl hl => ?_, fun fl f hl => ?_,
    Thread.carries_of_leads_none hno⟩,
    forall_snoc (fun j u hu => forall_snoc (h.single j u hu) fun fl _ hl => ?_) ?_,
    fun k fl hk => ?_, fun fl f hf => ?_⟩
  · rw [hno] at hl
    exact absurd hl (by simp [hw])
  · have := Pc.leads_of_leading hl
    rw [hno] at this
    exact absurd this (by simp)
  · rw [hno] at hl
    exact absurd hl (by simp)
  · rw [hno] at hl
    exact absurd hl (by simp)
  · intro k v _ fl hl
    rw [hno] at hl
    exact absurd hl (by simp)
  · obtain ⟨hk', hu⟩ := h.led k fl hk
    exact ⟨hk', exists_snoc hu⟩
  · have ha := h.answered fl f hf
    unfold AnsweredFor at ha ⊢
    by_cases hd : f.done = true
    · rw [if_pos hd] at ha ⊢
      exact exists_snoc ha
    · rw [if_neg hd] at ha ⊢
      exact exists_snoc ha

end Flying

/-- the bookkeeping is kept in every run, whatever the handlers do -/
theorem flying_of_runs {cfg : Config} {G : State → PoolAct Request Nat Op → Prop} {now : Int}
    {s : State} {as : List (PoolAct Request Nat Op)}
    (h : (middleware cfg).machine.Runs G (init now) as s) : Flying s := by
  refine h.inv (fun s a s' hs _ hm => ?_) ⟨fun i t ht => absurd ht (by simp [init]),
    fun i t ht => absurd ht (by simp [init]), fun k fl hk => absurd hk ?_,
    fun fl f hf => absurd hf (by simp [init, ResponseCache.new])⟩
  · cases a with
    | spawn r =>
      obtain rfl := Option.some.inj hm
      exact hs.spawn cfg r
    | env d =>
      obtain ⟨c', hc, rfl⟩ := Sys.machine_env hm
      obtain rfl := Option.some.inj hc
      exact ⟨fun i t ht => (hs.seated i t ht).congr (fun _ => rfl) (fun _ _ => rfl) fun _ _ => rfl,
        hs.single, hs.led, hs.answered⟩
    | step i op =>
      obtain ⟨t, c', t', ht, hst, rfl⟩ := Sys.machine_step hm
      exact hs.step ht (Thread.step_moves hst)
  · show (∅ : AList fun _ : Bytes => Nat).lookup k ≠ some fl
    rw [AList.lookup_empty]
    simp

end Gateway
