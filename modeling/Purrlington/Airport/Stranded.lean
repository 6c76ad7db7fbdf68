import Purrlington.Airport.Accounts

/-!
# Airport: no guest is stranded

`assign_and_enqueue` chooses its gate without a lock and enqueues after a commit, and `close_gate`
requeues to gates that it listed at its start.  Either may meet a gate that has left the dictionary,
or is about to leave it.

* `Orderly`              the condition: guests are enqueued at gates of the dictionary, a gate leaves
                         it with an empty queue, and the status of a row is written only while
                         somebody still holds the guest;
* `Kept`                 the invariant: whoever is not processed is held by a gate, a worker or a
                         call, and only gates of the dictionary have a queue;
* `never_stranded`       the law under that condition, over all runs;
* `guest_stranded`       a run that closes the gate between the choice and the enqueue.
-/

set_option linter.unusedSectionVars false

namespace Airport
open SM Ledger

/-- the guest waits at a gate of the dictionary, or is in the bundle of a worker -/
def World.Waits (w : World) (x : Nat) : Prop :=
  (∃ g ∈ w.gates.values, ∃ gate ∈ w.heap[g]?, x ∈ gate.queue) ∨
    ∃ gate ∈ w.heap, x ∈ gate.worker.bundle

instance (w : World) (x : Nat) : Decidable (w.Waits x) := inferInstanceAs (Decidable (_ ∨ _))

/-- a gate, a worker or a call has the guest -/
def State.Holds (s : State) (x : Nat) : Prop :=
  (∃ gate ∈ s.shared.heap, x ∈ gate.queue ∨ x ∈ gate.worker.bundle) ∨
    ∃ call ∈ s.threads, x ∈ call.pending

instance (s : State) (x : Nat) : Decidable (s.Holds x) := inferInstanceAs (Decidable (_ ∨ _))

theorem holds_iff {s : State} {x : Nat} : s.Holds x ↔ 0 < s.held x := by
  constructor
  · rintro (⟨gate, hg, hx⟩ | ⟨call, hc, hx⟩)
    · obtain ⟨g, hg⟩ := List.mem_iff_getElem?.mp hg
      exact Nat.lt_of_lt_of_le (stock_pos hg hx) (Nat.le_add_right _ _)
    · exact Nat.lt_of_lt_of_le (pendingIn_pos hc hx) (Nat.le_add_left _ _)
  · intro h
    by_cases hp : 0 < pendingIn s.threads x
    · obtain ⟨call, hc, hpos⟩ := exists_of_total_pos hp
      exact .inr ⟨call, hc, List.count_pos_iff.mp hpos⟩
    · have hs : 0 < s.shared.stock x := by
        rw [State.held] at h
        omega
      obtain ⟨gate, hg, hpos⟩ := exists_of_total_pos hs
      refine .inl ⟨gate, hg, ?_⟩
      by_cases hq : x ∈ gate.queue
      · exact .inl hq
      · rw [Gate.holds, List.count_eq_zero.mpr hq, Nat.zero_add] at hpos
        exact .inr (List.count_pos_iff.mp hpos)

/-! ## the condition -/

/-- the gate that has the id, if there is one, has an empty queue -/
def World.EmptyAt (w : World) (gate_id : String) : Prop :=
  ∀ g ∈ w.gates.get? gate_id, ∀ gate ∈ w.heap[g]?, gate.queue = []

instance (w : World) (gate_id : String) : Decidable (w.EmptyAt gate_id) :=
  inferInstanceAs (Decidable (∀ g ∈ w.gates.get? gate_id, ∀ gate ∈ w.heap[g]?, gate.queue = []))

def Call.Orderly (s : State) : Call → Prop
  | .enqueue g _ => g ∈ s.shared.gates.values
  | .requeue _ dest _ _ => dest ∈ s.shared.gates.values
  | .record _ _ x _ => s.Holds x
  | .delete k => s.shared.EmptyAt k.gate_id
  | .register gate_id _ => s.shared.EmptyAt gate_id
  | _ => True

instance (s : State) : ∀ call : Call, Decidable (call.Orderly s)
  | .enqueue g _ => inferInstanceAs (Decidable (g ∈ s.shared.gates.values))
  | .requeue _ dest _ _ => inferInstanceAs (Decidable (dest ∈ s.shared.gates.values))
  | .record _ _ x _ => inferInstanceAs (Decidable (s.Holds x))
  | .delete k => inferInstanceAs (Decidable (s.shared.EmptyAt k.gate_id))
  | .register gate_id _ => inferInstanceAs (Decidable (s.shared.EmptyAt gate_id))
  | .choose _ | .insert _ _ _ | .accepted _ | .check _ _ | .opened | .lookup _ | .deactivate _
  | .displace _ | .target _ _ | .closed _ | .failed _ => isTrue trivial

/-- guests are enqueued at gates of the dictionary, a gate leaves it with an empty queue, and the
`queued` and `held` of a row are written while somebody holds the guest -/
def Orderly (s : State) : PoolAct Api Env Unit → Prop
  | .env (.work g) => ∀ gate ∈ s.shared.heap[g]?, ∀ x ∈ gate.worker.marks, s.Holds x
  | .step i _ => ∀ call ∈ s.threads[i]?, call.Orderly s
  | _ => True

instance (s : State) : ∀ act, Decidable (Orderly s act)
  | .env (.work g) => inferInstanceAs
      (Decidable (∀ gate ∈ s.shared.heap[g]?, ∀ x ∈ gate.worker.marks, s.Holds x))
  | .step i _ => inferInstanceAs (Decidable (∀ call ∈ s.threads[i]?, call.Orderly s))
  | .spawn _ => isTrue trivial
  | .env (.tick _) => isTrue trivial

/-! ## the invariant -/

/-- only gates of the dictionary have a queue -/
def World.QueuesListed (w : World) : Prop :=
  ∀ g gate, w.heap[g]? = some gate → gate.queue ≠ [] → g ∈ w.gates.values

structure Kept (s : State) : Prop where
  row : ∀ x st, s.shared.statusOf x = some st → st ≠ .processed → 0 < s.held x
  queues : s.shared.QueuesListed

section
variable {cfg : Config} {s : State} {w w' : World} {g i : Nat} {gate : Gate} {call call' : Call}

theorem Works.queuesListed (hg : w.heap[g]? = some gate) (h : w.QueuesListed) (hw : Works cfg w g gate w') :
    w'.QueuesListed := by
  have change : ∀ gate' : Gate, (gate'.queue ≠ [] → gate.queue ≠ []) →
      ∀ j u, (w.heap.set g gate')[j]? = some u → u.queue ≠ [] → j ∈ w.gates.values :=
    fun gate' hne => forall_set (fun j u _ hj => h j u hj) fun hq => h g gate hg (hne hq)
  cases hw with
  | idle gate' guests hid hq hb hu hm hcp hlen => exact change gate' (by rw [hq]; exact id)
  | pick gate' guests hw hid hq hb hu hm hcp hlen =>
    refine change gate' fun hne he => hne ?_
    have hp := pickNext_perm (w.reads cfg) gate.queue
    rw [he] at hp
    rw [hq, he]
    exact (List.append_eq_nil_iff.mp hp.eq_nil).2
  | hold bundle held hw => exact change _ id
  | mark bundle hw => exact change _ id
  | complete bundle hw => exact change _ id
  | publish y left hw => exact change _ id

theorem World.QueuesListed.modify (h : w.QueuesListed) {f : Gate → Gate}
    (hf : ∀ gate, w.heap[g]? = some gate → (f gate).queue ≠ [] →
      gate.queue ≠ [] ∨ g ∈ w.gates.values) : (w.modifyGate g f).QueuesListed := by
  refine forall_modify h ?_
  intro gate hg hq
  rcases hf gate hg hq with hne | hmem
  · exact h g gate hg hne
  · exact hmem

theorem ne_of_emptyAt {gate_id : String} (he : w.EmptyAt gate_id) (hg : w.heap[g]? = some gate)
    (hq : gate.queue ≠ []) : w.gates.get? gate_id ≠ some g := fun e => hq (he g e gate hg)

theorem Moves.queuesListed (h : s.shared.QueuesListed) (ho : call.Orderly s)
    (hm : Moves cfg s.shared call w' call') : w'.QueuesListed := by
  cases hm with
  | enqueue g x gate reply hg => exact h.modify fun _ _ _ => .inr ho
  | requeue k dest x left gate hg => exact h.modify fun _ _ _ => .inr ho
  | deactivate k => exact h.modify fun _ _ hq => .inl hq
  | displace k gate n hg =>
    have hopen := h.modify (g := k.gate)
      (f := fun gate => { gate with queue := [], currently_processing := none })
      fun _ _ hq => absurd rfl hq
    exact hopen
  | register gate_id type =>
    refine forall_snoc (fun j u hj hq => ?_) (fun hq => absurd rfl hq)
    exact Dict.mem_values_set (h j u hj hq) (ne_of_emptyAt ho hj hq)
  | delete k =>
    intro j u hj hq
    exact Dict.mem_values_del (h j u hj hq) (ne_of_emptyAt ho hj hq)
  | idle => exact h
  | insert => exact h
  | retarget => exact h
  | record => exact h
  | missing => exact h

/-- a row that is not processed after a step of a worker is as it was, or the worker has the guest or
holds it back; and the guest was not completed -/
theorem Works.statusOf (hw : Works cfg w g gate w') {x : Nat} {st : Status}
    (hst : w'.statusOf x = some st) (hne : st ≠ .processed) :
    w'.completions.count x = w.completions.count x ∧
      (w.statusOf x = some st ∨ x ∈ gate.worker.marks ∨ x ∈ gate.worker.bundle) := by
  cases hw with
  | idle gate' guests hid hq hb hu hm hcp hlen => exact ⟨rfl, .inl hst⟩
  | pick gate' guests hw hid hq hb hu hm hcp hlen => exact ⟨rfl, .inl hst⟩
  | hold bundle held hw =>
    rw [statusOf_updateAt rfl (setStatus_status .held)] at hst
    rw [hw]
    split at hst
    · rename_i hx
      exact ⟨rfl, .inr (.inl hx)⟩
    · exact ⟨rfl, .inl hst⟩
  | mark bundle hw =>
    rw [statusOf_updateAt rfl (setStatus_status .processing)] at hst
    rw [hw]
    split at hst
    · rename_i hx
      exact ⟨rfl, .inr (.inr hx)⟩
    · exact ⟨rfl, .inl hst⟩
  | complete bundle hw =>
    rw [statusOf_updateAt rfl (finishRow_status w.guests)] at hst
    split at hst
    · obtain ⟨_, _, e⟩ := Option.map_eq_some_iff.mp hst
      exact absurd e.symm hne
    · rename_i hx
      refine ⟨?_, .inl hst⟩
      show (w.completions ++ bundle).count x = _
      rw [List.count_append, List.count_eq_zero.mpr hx, Nat.add_zero]
  | publish y left hw => exact ⟨rfl, .inl hst⟩

theorem Kept.work (h : Kept s) (ho : Orderly s (.env (.work g)))
    (hw : s.shared.work cfg g = some w') : Kept ⟨w', s.threads⟩ := by
  obtain ⟨gate, hg, hworks⟩ := work_works hw
  refine ⟨fun x st hst hne => ?_, hworks.queuesListed hg h.queues⟩
  obtain ⟨hc, hcase⟩ := hworks.statusOf hst hne
  have hl := hworks.ledger hg x
  have hpos : 0 < s.held x := by
    rcases hcase with hold | hmark | hbundle
    · exact h.row x st hold hne
    · exact holds_iff.mp (ho gate hg x hmark)
    · exact holds_iff.mp (.inl ⟨gate, List.mem_of_getElem? hg, .inr hbundle⟩)
  show 0 < w'.stock x + pendingIn s.threads x
  replace hpos : 0 < s.shared.stock x + pendingIn s.threads x := hpos
  omega

theorem Kept.move (h : Kept s) (hi : s.threads[i]? = some call) (ho : call.Orderly s)
    (hm : Moves cfg s.shared call w' call') : Kept ⟨w', s.threads.set i call'⟩ := by
  refine ⟨fun x st hst hne => ?_, hm.queuesListed h.queues ho⟩
  have hl := hm.ledger x
  have hp := pendingIn_set hi call' x
  show 0 < w'.stock x + pendingIn (s.threads.set i call') x
  rcases hm.statusOf x with e | ⟨hr, _⟩ | ⟨_, hx, _⟩
  · have hpos : 0 < s.shared.stock x + pendingIn s.threads x := h.row x st (e ▸ hst) hne
    omega
  · -- the row that `close_gate` writes is that of a guest somebody holds
    have hpos : 0 < s.shared.stock x + pendingIn s.threads x := by
      cases call with
      | record k dest y left =>
        obtain rfl := Option.some.inj hr
        exact holds_iff.mp ho
      | _ => exact absurd hr nofun
    omega
  · have hpos := List.count_pos_iff.mpr hx
    have hle : call.pending.count x ≤ pendingIn s.threads x :=
      le_total (w := fun c : Call => c.pending.count x) (List.mem_of_getElem? hi)
    omega

end

/-! ## runs -/

theorem Kept.step {cfg : Config} {s s' : State} {act : PoolAct Api Env Unit} (h : Kept s)
    (ho : Orderly s act) (hs : (airport cfg).machine s act = some s') : Kept s' := by
  cases act with
  | spawn r =>
    have hl := State.ledger hs
    obtain rfl := Option.some.inj hs
    refine ⟨fun x st hst hne => ?_, h.queues⟩
    have hpos := h.row x st hst hne
    have hlx : _ + s.shared.completions.count x = _ + 0 := hl x
    omega
  | env e =>
    obtain ⟨w', he, rfl⟩ := Sys.machine_env hs
    cases e with
    | work g => exact h.work ho he
    | tick d =>
      obtain rfl := Option.some.inj he
      exact ⟨h.row, h.queues⟩
  | step i a =>
    obtain ⟨call, w', call', hi, hst, rfl⟩ := Sys.machine_step hs
    exact h.move hi (ho call hi) (step_moves hst)

theorem Kept.init (cfg : Config) : Kept (State.init cfg) := by
  have hf := World.init_fresh cfg
  refine ⟨fun x st hst _ => ?_, fun g gate hg hq => ?_⟩
  · have hr : (State.init cfg).shared.rows = [] := hf.rows
    rw [World.statusOf, hr] at hst
    exact absurd hst (by simp)
  · exact absurd (hf.gates gate (List.mem_of_getElem? hg)).1 hq

/-- an `assign_and_enqueue` or a `close_gate` that has not returned -/
def Call.inProgress : Call → Bool
  | .choose _ | .insert _ _ _ | .enqueue _ _ => true
  | .lookup _ | .deactivate _ | .displace _ | .target _ _ | .requeue _ _ _ _ | .record _ _ _ _
  | .delete _ => true
  | .check _ _ | .register _ _ => false
  | .accepted _ | .opened | .closed _ | .failed _ => false

theorem pending_of_returned {call : Call} (h : call.inProgress = false) : call.pending = [] := by
  cases call with
  | enqueue g x => exact absurd h nofun
  | target k left => exact absurd h nofun
  | requeue k dest x left => exact absurd h nofun
  | record k dest x left => exact absurd h nofun
  | _ => rfl

/-- **Nobody is stranded.**  In an orderly run from the empty system, whenever no assignment and no
closing is in progress, every arrival whose row is not `processed` waits at a gate of the dictionary
or is in the bundle of a worker. -/
theorem never_stranded (cfg : Config) (acts : List (PoolAct Api Env Unit)) (s : State)
    (hrun : (airport cfg).machine.Runs Orderly (State.init cfg) acts s)
    (hquiet : ∀ call ∈ s.threads, call.inProgress = false) (x : Nat) (st : Status)
    (hst : s.shared.statusOf x = some st) (hne : st ≠ .processed) : s.shared.Waits x := by
  have hs : Kept s := hrun.inv (fun s a t h hg hst => h.step hg hst) (.init cfg)
  rcases holds_iff.mpr (hs.row x st hst hne) with ⟨gate, hg, hq | hb⟩ | ⟨call, hc, hx⟩
  · obtain ⟨g, hg⟩ := List.mem_iff_getElem?.mp hg
    exact .inl ⟨g, hs.queues g gate hg (List.ne_nil_of_mem hq), gate, hg, hq⟩
  · exact .inr ⟨gate, hg, hb⟩
  · rw [pending_of_returned (hquiet call hc)] at hx
    exact absurd hx List.not_mem_nil

def popescu : Guest := ⟨"guest-2", "dan", "popescu", 41, .EU, .fast, false⟩

/-- the guest joins the queue of EU-1, which is then closed by a second call -/
def enqueueThenClose : List (PoolAct Api Env Unit) :=
  ([.spawn (.assign popescu), .step 0 (), .step 0 (), .step 0 ()] : Acts) ++
    (.spawn (.close "EU-1") :: List.replicate 8 (.step 1 ()) : Acts)

theorem never_stranded_requeued : ∃ s,
    (airport threeGates).machine.run (State.init threeGates) enqueueThenClose = some s ∧
    s.shared.statusOf 0 = some .queued ∧ s.shared.gates.keys = ["EU-2", "ALL-1"] ∧
    s.shared.Waits 0 :=
  ⟨_, rfl, rfl, rfl, never_stranded threeGates enqueueThenClose _ (Machine.runs_iff_runG.mpr rfl)
    (by decide) 0 .queued rfl (by decide)⟩

/-- the same calls, with the closing between the insert of the row and the enqueue -/
def closeThenEnqueue : List (PoolAct Api Env Unit) :=
  ([.spawn (.assign popescu), .step 0 (), .step 0 ()] : Acts) ++
    (.spawn (.close "EU-1") :: List.replicate 5 (.step 1 ()) : Acts) ++
    ([.step 0 (), .env (.work 0)] : Acts)

/-- **A gate is closed between the choice and the enqueue.**  The arrival is accepted, both calls
have returned and the worker of the closed gate has stopped, and the guest is in its queue. -/
theorem guest_stranded : ∃ s,
    (airport threeGates).machine.run (State.init threeGates) closeThenEnqueue = some s ∧
    (∀ call ∈ s.threads, call.inProgress = false) ∧ s.shared.statusOf 0 = some .queued ∧
    s.shared.gates.keys = ["EU-2", "ALL-1"] ∧
    (s.shared.heap[0]?.map fun gate => (gate.queue, gate.worker)) = some ([0], .stopped) ∧
    ¬ s.shared.Waits 0 :=
  ⟨_, rfl, by decide, rfl, rfl, rfl, by decide⟩

end Airport
