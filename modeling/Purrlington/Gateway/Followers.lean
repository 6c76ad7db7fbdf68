import Purrlington.Gateway.Cache

/-!
# Gateway: requests held behind a response that cannot be shared

The capture decides on the first `WriteHeader` whether a response can be shared; the followers of
the flight are released by `finishFlight`, after the handler has returned.  In between they wait
for an answer that they will not be given.

* `HeldFollower`           a follower blocked on a flight whose leader has decided against sharing;
* `no_held_follower_iff`   no reachable state has one exactly when the backend never gives a GET or
                           HEAD request a response that cannot be shared;
* `sse_follower_held`      a run with a held follower, behind an event stream.
-/

set_option linter.unusedSectionVars false

namespace Gateway
open SM

/-- a request waits on a flight that is not done, and the flight's leader has a response that
cannot be shared -/
def HeldFollower (s : State) : Prop :=
  ∃ t ∈ s.threads, ∃ u ∈ s.threads, ∃ fl f, t.pc = .wait fl ∧ s.shared.heap[fl]? = some f ∧
    f.done = false ∧ u.pc.leads fl = true ∧ u.cc.Unshareable

theorem Pc.captured_of_leads {pc : Pc} {fl : Nat} (h : pc.leads fl = true) :
    pc.captured = true := by
  cases pc with
  | fetch via =>
    cases via with
    | bypass => exact absurd h (by simp [Pc.leads, Pc.flight])
    | own => rfl
    | lead g => rfl
  | finished e => exact absurd h (by simp [Pc.leads, Pc.flight])
  | _ => rfl

/-! ## a run to a held follower -/

/-- the schedule: two requests for one URL, the first leads, the second follows, and then the
backend answers the first -/
def followSchedule (r : Request) (h : List RwAct) : List (PoolAct Request Nat Op) :=
  ([.spawn r, .spawn r, .step 0 .go, .step 0 .go, .step 1 .go, .step 1 .go] : Acts) ++
    ((h.map Op.act).map (.step 0) : Acts)

/-- the leader of the first flight, with the answer so far, and its follower -/
def followed (cfg : Config) (now : Int) (r : Request) (h : List RwAct) : State :=
  { shared := { entries := ∅, flights := (∅ : AList _).insert r.cacheKey 0,
                heap := [{ key := r.cacheKey }], now := now }
    threads := [⟨r, (cfg.fresh r).acts h, h, .fetch (.lead 0)⟩, ⟨r, cfg.fresh r, [], .wait 0⟩] }

theorem follow_runs (cfg : Config) (B : Backend) (now : Int) {r : Request} (hs : r.Safe)
    {h : List RwAct} (hB : B.acts r h) :
    (middleware cfg).machine.Runs (Conforms B) (init now) (followSchedule r h)
      (followed cfg now r h) := by
  have hstart : (middleware cfg).start r = ⟨r, cfg.fresh r, [], .lookup⟩ := by
    show cfg.start r = _
    rw [Config.start, if_pos hs]
  have leader : (middleware cfg).Steps B.allows (.new now) ⟨r, cfg.fresh r, [], .lookup⟩ [.go, .go]
      (followed cfg now r []).shared ⟨r, cfg.fresh r, [], .fetch (.lead 0)⟩ :=
    ⟨trivial, _, _, step_go_miss rfl, trivial, _, _, step_go_lead rfl, rfl, rfl⟩
  have follower : (middleware cfg).Steps B.allows (followed cfg now r []).shared
      ⟨r, cfg.fresh r, [], .lookup⟩ [.go, .go]
      (followed cfg now r []).shared ⟨r, cfg.fresh r, [], .wait 0⟩ :=
    ⟨trivial, _, _, step_go_miss rfl, trivial, _, _, step_go_follow (AList.lookup_insert _),
      rfl, rfl⟩
  refine Sys.runs_spawn trivial (Sys.runs_spawn trivial ?_)
  rw [hstart]
  have h0 := leader.runs [⟨r, cfg.fresh r, [], .lookup⟩, ⟨r, cfg.fresh r, [], .lookup⟩] 0 rfl
  have h1 := follower.runs
    [⟨r, cfg.fresh r, [], .fetch (.lead 0)⟩, ⟨r, cfg.fresh r, [], .lookup⟩] 1 rfl
  have h2 := (acts_steps cfg (followed cfg now r []).shared 0 (cfg.fresh r) [] hB).runs
    [⟨r, cfg.fresh r, [], .fetch (.lead 0)⟩, ⟨r, cfg.fresh r, [], .wait 0⟩] 0 rfl
  exact h0.append (h1.append h2)

theorem held_of_unshareable (cfg : Config) (now : Int) (r : Request) {h : List RwAct}
    (hu : ((cfg.fresh r).acts h).Unshareable) : HeldFollower (followed cfg now r h) := by
  refine ⟨_, List.mem_cons_of_mem _ List.mem_cons_self, _, List.mem_cons_self, 0, _, rfl, rfl,
    rfl, ?_, hu⟩
  rfl

/-- **When nobody is held.**  Whatever the interleaving, no follower is blocked behind a response
that its leader has decided not to share, if and only if no GET or HEAD request ever gets such a
response from the backend. -/
theorem no_held_follower_iff (cfg : Config) (B : Backend) (now : Int) :
    (∀ as s, (middleware cfg).machine.Runs (Conforms B) (init now) as s → ¬ HeldFollower s) ↔
      ∀ r h, r.Safe → B.acts r h → ¬ ((cfg.fresh r).acts h).Unshareable := by
  constructor
  · intro hno r h hs hB hu
    exact hno _ _ (follow_runs cfg B now hs hB) (held_of_unshareable cfg now r hu)
  · rintro hB as s hrun ⟨t, _, u, hu, fl, f, _, _, _, hlead, hun⟩
    -- the leader's capture is the trace of a response of the backend
    have htr := traced_of_runs hrun u hu
    obtain ⟨hs, hcc⟩ := htr.captured (Pc.captured_of_leads hlead)
    rw [hcc] at hun
    exact hB u.req u.trace hs htr.acts hun

/-! ## an event stream -/

/-- an event stream that stays open -/
def streamHead : List RwAct :=
  [.add "Content-Type" "text/event-stream", .writeHeader 200, .flush]

def streamBackend : Backend :=
  { acts := fun _ h => h <+: streamHead
    acts_nil := fun _ => List.nil_prefix
    acts_closed := fun _ h a hp => (List.prefix_append h [a]).trans hp
    returns := fun _ _ => False
    panics := fun _ _ => False }

/-- the second client of an event stream waits for the first to disconnect -/
theorem sse_follower_held :
    ∃ s, (middleware plainConfig).machine.Runs (Conforms streamBackend) (init 0)
        (followSchedule (getRequest (u := { path := ascii "/api/broadcast/events" })
          "/api/broadcast/events" (by decide +kernel) []) streamHead) s ∧
      HeldFollower s :=
  ⟨_, follow_runs plainConfig streamBackend 0 (.inl rfl) (List.prefix_refl streamHead),
    held_of_unshareable plainConfig 0 _ (by decide)⟩

end Gateway
