import Purrlington.Airport.Manager
import Purrlington.Lib.Ledger

/-!
# Airport: where every arrival is

An arrival waits in the queue of a gate, is in the bundle of a worker, or is in the hands of a call
that will enqueue it; a worker that has recorded it is done with it.

* `Worker.bundle`, `Call.pending`   the arrivals a worker and a call hold;
* `Worker.marks`, `Call.recorded`   the arrivals whose row a worker or a call is about to write;
* `WorkStep`                 the steps of a worker, by where it stands;
* `Works`, `Moves`           what a step of a worker and a step of a call can do;
* `State.ledger`             the ledger of one arrival: every step of a worker moves it, and a call
                             adds it when the row is inserted and when a gate is displaced under a
                             guest that is being processed;
* `statusOf_updateAt`, `statusOf_insertRow`   what a step writes to the status of a row;
* `World.Recorded`           the processed rows are those of the completed arrivals;
* `World.Fresh`              the state before the first arrival.
-/

set_option linter.unusedSectionVars false

namespace Airport
open SM Ledger

/-! ## holders -/

/-- the guests of a worker between the pick and the commit of `processed` -/
def Worker.bundle : Worker → List Nat
  | .holding bundle _ => bundle.getD []
  | .marking bundle => bundle
  | .processing bundle => bundle
  | .recording bundle => bundle
  | _ => []

/-- the guests whose event is still to be published -/
def Worker.unpublished : Worker → List Nat
  | .publishing left => left
  | _ => []

/-- the guests whose row is still to be marked as held -/
def Worker.marks : Worker → List Nat
  | .holding _ held => held
  | _ => []

/-- the guests that the call has yet to enqueue -/
def Call.pending : Call → List Nat
  | .enqueue _ x => [x]
  | .target _ left => left
  | .requeue _ _ x left => x :: left
  | .record _ _ _ left => left
  | _ => []

/-- the guest whose row the call writes next -/
def Call.recorded : Call → Option Nat
  | .record _ _ x _ => some x
  | _ => none

/-- the arrivals that come into the system with the next step of the call, or are taken a second
time: the new row, and whoever is being processed at a gate that is displaced -/
def Call.issued (w : World) : Call → List Nat
  | .insert _ _ _ => [w.rows.length]
  | .displace k => match w.heap[k.gate]? with
    | some gate => gate.currently_processing.toList
    | none => []
  | _ => []

/-! ## what a step can do -/

/-- a step of the worker of `gate`, by where the worker stands: the gate afterwards, and the state
but for its gates -/
inductive WorkStep (cfg : Config) (w : World) (gate : Gate) : Gate → World → Prop
  | head (hw : gate.worker = .head) :
      WorkStep cfg w gate { gate with worker := if gate.active then .ready else .stopped } w
  | ready (hw : gate.worker = .ready) :
      WorkStep cfg w gate
        { gate with
          queue := (pickNext (w.reads cfg) gate.queue).queue
          currently_processing := match (pickNext (w.reads cfg) gate.queue).bundle with
            | some bundle => bundle.head?
            | none => gate.currently_processing
          worker := if (pickNext (w.reads cfg) gate.queue).held = [] then
              World.afterHeld (pickNext (w.reads cfg) gate.queue).bundle
            else .holding (pickNext (w.reads cfg) gate.queue).bundle
              (pickNext (w.reads cfg) gate.queue).held }
        { w with
          guests := updateAt ((pickNext (w.reads cfg) gate.queue).bundle.getD [])
            (setStatus .processing)
            (updateAt (pickNext (w.reads cfg) gate.queue).held (setStatus .held) w.guests) }
  | holding (bundle : Option (List Nat)) (held : List Nat) (hw : gate.worker = .holding bundle held) :
      WorkStep cfg w gate { gate with worker := World.afterHeld bundle }
        { w with rows := updateAt held (setStatus .held) w.rows }
  | marking (bundle : List Nat) (hw : gate.worker = .marking bundle) :
      WorkStep cfg w gate { gate with worker := .processing bundle }
        { w with rows := updateAt bundle (setStatus .processing) w.rows }
  | processing (bundle : List Nat) (hw : gate.worker = .processing bundle) :
      WorkStep cfg w gate { gate with worker := .recording bundle }
        { w with guests := updateAt bundle (World.finishGuest w.now) w.guests }
  | recording (bundle : List Nat) (hw : gate.worker = .recording bundle) :
      WorkStep cfg w gate { gate with worker := .publishing bundle }
        { w with rows := updateAt bundle (World.finishRow w.guests) w.rows
                 completions := w.completions ++ bundle }
  | publishing (x : Nat) (left : List Nat) (hw : gate.worker = .publishing (x :: left)) :
      WorkStep cfg w gate { gate with worker := .publishing left }
        { w with events := w.events ++ [x] }
  | done (hw : gate.worker = .publishing []) :
      WorkStep cfg w gate { gate with currently_processing := none, worker := .head } w

theorem modify_eq_set {w : World} {g : Nat} {gate : Gate} (hg : w.heap[g]? = some gate)
    (f : Gate → Gate) : w.heap.modify g f = w.heap.set g (f gate) := by
  rw [List.modify_eq_set_getElem?, hg]
  rfl

theorem work_step {cfg : Config} {w w' : World} {g : Nat} (h : w.work cfg g = some w') :
    ∃ gate gate' w₁, w.heap[g]? = some gate ∧ WorkStep cfg w gate gate' w₁ ∧
      w' = { w₁ with heap := w.heap.set g gate' } := by
  obtain ⟨gate, hg, h⟩ := Option.bind_eq_some_iff.mp h
  cases hw : gate.worker with
  | head =>
    rw [hw] at h
    obtain rfl := Option.some.inj h
    refine ⟨gate, _, _, hg, .head hw, ?_⟩
    rw [World.modifyGate, modify_eq_set hg]
  | ready =>
    rw [hw] at h
    obtain rfl := Option.some.inj h
    refine ⟨gate, _, _, hg, .ready hw, ?_⟩
    exact congrArg (fun heap => ({ w with guests := _, heap } : World)) (modify_eq_set hg _)
  | holding bundle held =>
    rw [hw] at h
    obtain rfl := Option.some.inj h
    refine ⟨gate, _, _, hg, .holding bundle held hw, ?_⟩
    rw [modify_eq_set hg]
  | marking bundle =>
    rw [hw] at h
    obtain rfl := Option.some.inj h
    refine ⟨gate, _, _, hg, .marking bundle hw, ?_⟩
    rw [modify_eq_set hg]
  | processing bundle =>
    rw [hw] at h
    obtain rfl := Option.some.inj h
    refine ⟨gate, _, _, hg, .processing bundle hw, ?_⟩
    rw [modify_eq_set hg]
  | recording bundle =>
    rw [hw] at h
    obtain rfl := Option.some.inj h
    refine ⟨gate, _, _, hg, .recording bundle hw, ?_⟩
    rw [modify_eq_set hg]
  | publishing left =>
    cases left with
    | nil =>
      rw [hw] at h
      obtain rfl := Option.some.inj h
      refine ⟨gate, _, _, hg, .done hw, ?_⟩
      rw [World.modifyGate, modify_eq_set hg]
    | cons x left =>
      rw [hw] at h
      obtain rfl := Option.some.inj h
      refine ⟨gate, _, _, hg, .publishing x left hw, ?_⟩
      rw [modify_eq_set hg]
  | stopped =>
    rw [hw] at h
    exact absurd h (by simp)

/-- a step of the worker of `gate`, which is gate number `g` -/
inductive Works (cfg : Config) (w : World) (g : Nat) (gate : Gate) : World → Prop
  | idle (gate' : Gate) (guests : List Arrival) (hid : gate'.gate_id = gate.gate_id)
      (hq : gate'.queue = gate.queue) (hb : gate'.worker.bundle = gate.worker.bundle)
      (hu : gate'.worker.unpublished = gate.worker.unpublished)
      (hm : gate'.worker.marks = [])
      (hcp : ∀ x ∈ gate'.currently_processing, x ∈ gate.currently_processing ∨ x ∈ gate'.worker.bundle)
      (hlen : guests.length = w.guests.length) :
      Works cfg w g gate { w with guests := guests, heap := w.heap.set g gate' }
  | pick (gate' : Gate) (guests : List Arrival) (hw : gate.worker = .ready)
      (hid : gate'.gate_id = gate.gate_id)
      (hq : gate'.queue = (pickNext (w.reads cfg) gate.queue).queue)
      (hb : gate'.worker.bundle = (pickNext (w.reads cfg) gate.queue).bundle.getD [])
      (hu : gate'.worker.unpublished = [])
      (hm : ∀ x ∈ gate'.worker.marks, x ∈ (pickNext (w.reads cfg) gate.queue).held)
      (hcp : ∀ x ∈ gate'.currently_processing, x ∈ gate.currently_processing ∨ x ∈ gate'.worker.bundle)
      (hlen : guests.length = w.guests.length) :
      Works cfg w g gate { w with guests := guests, heap := w.heap.set g gate' }
  | hold (bundle : Option (List Nat)) (held : List Nat) (hw : gate.worker = .holding bundle held) :
      Works cfg w g gate
        { w with rows := updateAt held (setStatus .held) w.rows
                 heap := w.heap.set g { gate with worker := World.afterHeld bundle } }
  | mark (bundle : List Nat) (hw : gate.worker = .marking bundle) :
      Works cfg w g gate
        { w with rows := updateAt bundle (setStatus .processing) w.rows
                 heap := w.heap.set g { gate with worker := .processing bundle } }
  | complete (bundle : List Nat) (hw : gate.worker = .recording bundle) :
      Works cfg w g gate
        { w with rows := updateAt bundle (World.finishRow w.guests) w.rows
                 completions := w.completions ++ bundle
                 heap := w.heap.set g { gate with worker := .publishing bundle } }
  | publish (x : Nat) (left : List Nat) (hw : gate.worker = .publishing (x :: left)) :
      Works cfg w g gate
        { w with events := w.events ++ [x]
                 heap := w.heap.set g { gate with worker := .publishing left } }

theorem afterHeld_bundle (bundle : Option (List Nat)) :
    (World.afterHeld bundle).bundle = bundle.getD [] := by
  cases bundle <;> rfl

theorem afterHeld_marks (bundle : Option (List Nat)) : (World.afterHeld bundle).marks = [] := by
  cases bundle <;> rfl

theorem afterHeld_unpublished (bundle : Option (List Nat)) :
    (World.afterHeld bundle).unpublished = [] := by
  cases bundle <;> rfl

theorem pick_bundle (p : Pick Nat) :
    (if p.held = [] then World.afterHeld p.bundle else .holding p.bundle p.held).bundle =
      p.bundle.getD [] := by
  split
  · exact afterHeld_bundle _
  · rfl

theorem work_works {cfg : Config} {w w' : World} {g : Nat} (h : w.work cfg g = some w') :
    ∃ gate, w.heap[g]? = some gate ∧ Works cfg w g gate w' := by
  obtain ⟨gate, gate', w₁, hg, hs, rfl⟩ := work_step h
  refine ⟨gate, hg, ?_⟩
  cases hs with
  | head hw =>
    refine .idle _ w.guests rfl rfl ?_ ?_ ?_ (fun _ h => .inl h) rfl
    · rw [hw]
      split <;> rfl
    · rw [hw]
      split <;> rfl
    · show Worker.marks (if gate.active = true then .ready else .stopped) = []
      split <;> rfl
  | ready hw =>
    refine .pick _ _ hw rfl rfl ?_ ?_ ?_ ?_ ?_
    · exact pick_bundle _
    · show Worker.unpublished (if _ then _ else _) = _
      split
      · exact afterHeld_unpublished _
      · rfl
    · intro x hx
      replace hx : x ∈ Worker.marks (if _ then _ else _) := hx
      split at hx
      · rw [afterHeld_marks] at hx
        exact absurd hx List.not_mem_nil
      · exact hx
    · intro x hx
      rw [pick_bundle]
      revert hx
      cases (pickNext (w.reads cfg) gate.queue).bundle with
      | none => exact fun hx => .inl hx
      | some bundle => exact fun hx => .inr (List.mem_of_head? hx)
    · rw [updateAt, List.length_mapIdx, updateAt, List.length_mapIdx]
  | holding bundle held hw => exact .hold bundle held hw
  | marking bundle hw => exact .mark bundle hw
  | processing bundle hw =>
    exact .idle _ _ rfl rfl (by rw [hw]; rfl) (by rw [hw]; rfl) rfl (fun _ h => .inl h)
      List.length_mapIdx
  | recording bundle hw => exact .complete bundle hw
  | publishing x left hw => exact .publish x left hw
  | done hw =>
    exact .idle _ w.guests rfl rfl (by rw [hw]; rfl) (by rw [hw]; rfl) rfl
      (fun _ h => absurd h (by simp)) rfl

inductive Moves (cfg : Config) (w : World) : Call → World → Call → Prop
  | idle (call call' : Call) (hi : call.issued w = []) (hp : call'.pending = call.pending)
      (hr : call'.recorded = none) :
      Moves cfg w call w call'
  | insert (guest : Guest) (g : Nat) (queued_at : Int) (gate : Gate) :
      Moves cfg w (.insert guest g queued_at) (w.insertRow guest queued_at gate.gate_id)
        (.enqueue g w.rows.length)
  | enqueue (g x : Nat) (gate : Gate) (reply : Accepted) (hg : w.heap[g]? = some gate) :
      Moves cfg w (.enqueue g x) (w.join g x) (.accepted reply)
  | register (gate_id : String) (type : GateType) :
      Moves cfg w (.register gate_id type) (w.register cfg gate_id type) .opened
  | deactivate (k : Closing) : Moves cfg w (.deactivate k) (w.deactivate k.gate) (.displace k)
  | displace (k : Closing) (gate : Gate) (n : Nat) (hg : w.heap[k.gate]? = some gate) :
      Moves cfg w (.displace k) (w.displace k.gate gate)
        (.target { k with displaced := n } (gate.currently_processing.toList ++ gate.queue))
  | retarget (k : Closing) (x : Nat) (left : List Nat) (dest : Nat) (gate_id : String) :
      Moves cfg w (.target k (x :: left)) (w.retarget x gate_id) (.requeue k dest x left)
  | requeue (k : Closing) (dest x : Nat) (left : List Nat) (gate : Gate)
      (hg : w.heap[dest]? = some gate) :
      Moves cfg w (.requeue k dest x left) (w.join dest x) (.record k dest x left)
  | record (k : Closing) (dest x : Nat) (left : List Nat) (gate_id : String) :
      Moves cfg w (.record k dest x left) (w.recordRow x gate_id) (.target k left)
  | delete (k : Closing) :
      Moves cfg w (.delete k) (w.remove k.gate_id) (.closed k.displaced)
  | missing (k : Closing) (h : w.gates.get? k.gate_id = none) :
      Moves cfg w (.delete k) w (.failed k.gate_id)

theorem checkOpen_idle (w : World) (gate_id gate_type : String) :
    (Call.checkOpen w gate_id gate_type).pending = [] ∧
      (Call.checkOpen w gate_id gate_type).recorded = none := by
  unfold Call.checkOpen
  split
  · exact ⟨rfl, rfl⟩
  · split
    · exact ⟨rfl, rfl⟩
    · split <;> exact ⟨rfl, rfl⟩

theorem lookupClose_idle {w : World} {gate_id : String} {call : Call}
    (h : Call.lookupClose w gate_id = some call) :
    call.pending = [] ∧ call.recorded = none := by
  unfold Call.lookupClose at h
  split at h
  · obtain rfl := Option.some.inj h
    exact ⟨rfl, rfl⟩
  · obtain ⟨gate, _, rfl⟩ := Option.map_eq_some_iff.mp h
    split <;> exact ⟨rfl, rfl⟩

theorem step_moves {cfg : Config} {w w' : World} {call call' : Call}
    (h : call.step cfg w = some (w', call')) : Moves cfg w call w' call' := by
  cases call with
  | choose guest =>
    rw [Call.step] at h
    split at h
    · obtain ⟨rfl, rfl⟩ := Prod.mk.inj (Option.some.inj h)
      exact .idle _ _ rfl rfl rfl
    · obtain ⟨rfl, rfl⟩ := Prod.mk.inj (Option.some.inj h)
      exact .idle _ _ rfl rfl rfl
  | insert guest g queued_at =>
    obtain ⟨gate, _, e⟩ := Option.map_eq_some_iff.mp h
    obtain ⟨rfl, rfl⟩ := Prod.mk.inj e
    exact .insert guest g queued_at gate
  | enqueue g x =>
    obtain ⟨gate, hg, e⟩ := Option.map_eq_some_iff.mp h
    obtain ⟨rfl, rfl⟩ := Prod.mk.inj e
    exact .enqueue g x gate _ hg
  | check gate_id gate_type =>
    obtain ⟨rfl, rfl⟩ := Prod.mk.inj (Option.some.inj h)
    obtain ⟨hp, hr⟩ := checkOpen_idle w gate_id gate_type
    exact .idle _ _ rfl hp hr
  | register gate_id type =>
    obtain ⟨rfl, rfl⟩ := Prod.mk.inj (Option.some.inj h)
    exact .register gate_id type
  | lookup gate_id =>
    obtain ⟨c, hc, e⟩ := Option.map_eq_some_iff.mp h
    obtain ⟨rfl, rfl⟩ := Prod.mk.inj e
    obtain ⟨hp, hr⟩ := lookupClose_idle hc
    exact .idle _ _ rfl hp hr
  | deactivate k =>
    obtain ⟨rfl, rfl⟩ := Prod.mk.inj (Option.some.inj h)
    exact .deactivate k
  | displace k =>
    obtain ⟨gate, hg, e⟩ := Option.map_eq_some_iff.mp h
    obtain ⟨rfl, rfl⟩ := Prod.mk.inj e
    exact .displace k gate _ hg
  | target k left =>
    cases left with
    | nil =>
      obtain ⟨rfl, rfl⟩ := Prod.mk.inj (Option.some.inj h)
      exact .idle _ _ rfl rfl rfl
    | cons x left =>
      obtain ⟨gate, _, e⟩ := Option.map_eq_some_iff.mp h
      obtain ⟨rfl, rfl⟩ := Prod.mk.inj e
      exact .retarget k x left _ gate.gate_id
  | requeue k dest x left =>
    obtain ⟨gate, hg, e⟩ := Option.map_eq_some_iff.mp h
    obtain ⟨rfl, rfl⟩ := Prod.mk.inj e
    exact .requeue k dest x left gate hg
  | record k dest x left =>
    obtain ⟨gate, _, e⟩ := Option.map_eq_some_iff.mp h
    obtain ⟨rfl, rfl⟩ := Prod.mk.inj e
    exact .record k dest x left gate.gate_id
  | delete k =>
    rw [Call.step] at h
    split at h
    · obtain ⟨rfl, rfl⟩ := Prod.mk.inj (Option.some.inj h)
      exact .delete k
    · rename_i hn
      obtain ⟨rfl, rfl⟩ := Prod.mk.inj (Option.some.inj h)
      exact .missing k hn
  | accepted reply => exact absurd h nofun
  | opened => exact absurd h nofun
  | closed n => exact absurd h nofun
  | failed e => exact absurd h nofun

/-! ## the ledger -/

/-- how often a gate holds an arrival -/
def Gate.holds (x : Nat) (gate : Gate) : Nat := gate.queue.count x + gate.worker.bundle.count x

/-- how often the gates hold an arrival -/
def World.stock (w : World) (x : Nat) : Nat := total (Gate.holds x) w.heap

/-- how often the calls hold it -/
def pendingIn (calls : List Call) (x : Nat) : Nat := total (fun c => c.pending.count x) calls

theorem count_enqueue (rank : Nat → Nat) (queue : List Nat) (y x : Nat) :
    (enqueue rank queue y).1.count x = queue.count x + [y].count x := by
  rw [(enqueue_perm rank queue y).count_eq, ← List.singleton_append, List.count_append]
  omega

theorem count_pick (cfg : Config) (w : World) (queue : List Nat) (x : Nat) :
    ((pickNext (w.reads cfg) queue).bundle.getD []).count x +
      (pickNext (w.reads cfg) queue).queue.count x = queue.count x := by
  rw [← List.count_append]
  exact (pickNext_perm (w.reads cfg) queue).count_eq x

section
variable {cfg : Config} {w w' : World} {g : Nat} {gate : Gate} {call call' : Call}

/-- **The ledger of a worker.**  A worker only moves arrivals: from the queue to its bundle, and
from its bundle to the completed ones. -/
theorem Works.ledger (hg : w.heap[g]? = some gate) (h : Works cfg w g gate w') (x : Nat) :
    w'.stock x + w'.completions.count x = w.stock x + w.completions.count x := by
  have change : ∀ gate' : Gate, total (Gate.holds x) (w.heap.set g gate') + gate.holds x =
      w.stock x + gate'.holds x := fun gate' => total_set hg gate'
  cases h with
  | idle gate' guests hid hq hb hu hm hcp hlen =>
    have hset := change gate'
    have e : gate'.holds x = gate.holds x := by rw [Gate.holds, Gate.holds, hq, hb]
    show total _ (w.heap.set g gate') + w.completions.count x = _
    omega
  | pick gate' guests hw hid hq hb hu hm hcp hlen =>
    have hset := change gate'
    have hp := count_pick cfg w gate.queue x
    have e : gate.holds x = gate.queue.count x := by
      rw [Gate.holds, hw]
      rfl
    have e' : gate'.holds x = gate.queue.count x := by
      rw [Gate.holds, hq, hb]
      omega
    show total _ (w.heap.set g gate') + w.completions.count x = _
    omega
  | hold bundle held hw =>
    have hset := change { gate with worker := World.afterHeld bundle }
    have e : Gate.holds x { gate with worker := World.afterHeld bundle } = gate.holds x := by
      rw [Gate.holds, Gate.holds, hw, afterHeld_bundle]
      rfl
    show total _ (w.heap.set g _) + w.completions.count x = _
    omega
  | mark bundle hw =>
    have hset := change { gate with worker := .processing bundle }
    have e : Gate.holds x { gate with worker := .processing bundle } = gate.holds x := by
      rw [Gate.holds, Gate.holds, hw]
      rfl
    show total _ (w.heap.set g _) + w.completions.count x = _
    omega
  | complete bundle hw =>
    have hset := change { gate with worker := .publishing bundle }
    have e : gate.holds x = gate.queue.count x + bundle.count x := by
      rw [Gate.holds, hw]
      rfl
    have e' : Gate.holds x { gate with worker := .publishing bundle } = gate.queue.count x := rfl
    show total _ (w.heap.set g _) + (w.completions ++ bundle).count x = _
    rw [List.count_append]
    omega
  | publish y left hw =>
    have hset := change { gate with worker := .publishing left }
    have e : Gate.holds x { gate with worker := .publishing left } = gate.holds x := by
      rw [Gate.holds, Gate.holds, hw]
      rfl
    show total _ (w.heap.set g _) + w.completions.count x = _
    omega

theorem stock_join (hg : w.heap[g]? = some gate) (y x : Nat) :
    (w.join g y).stock x = w.stock x + [y].count x := by
  have h : total (Gate.holds x) (w.heap.modify g _) + gate.holds x = w.stock x + _ :=
    total_modify hg fun gate => { gate with queue := (Airport.enqueue w.rank gate.queue y).1 }
  have e : Gate.holds x { gate with queue := (Airport.enqueue w.rank gate.queue y).1 } =
      gate.holds x + [y].count x := by
    show (Airport.enqueue w.rank gate.queue y).1.count x + gate.worker.bundle.count x =
      gate.queue.count x + gate.worker.bundle.count x + [y].count x
    rw [count_enqueue]
    omega
  show total _ (w.heap.modify g _) = _
  omega

/-- **The ledger of a call.**  A call moves arrivals too, and issues the new row and the guest that
it takes from a worker. -/
theorem Moves.ledger (h : Moves cfg w call w' call') (x : Nat) :
    w'.stock x + call'.pending.count x =
      w.stock x + call.pending.count x + (call.issued w).count x := by
  cases h with
  | idle call call' hi hp hr =>
    rw [hp, hi, List.count_nil]
    rfl
  | insert guest g queued_at gate =>
    show w.stock x + [w.rows.length].count x = w.stock x + 0 + [w.rows.length].count x
    omega
  | enqueue g y gate reply hg =>
    have := stock_join hg y x
    show (w.join g y).stock x + 0 = w.stock x + [y].count x + 0
    omega
  | register gate_id type =>
    show total (Gate.holds x) (w.heap ++ [_]) + 0 = w.stock x + 0 + 0
    rw [total_snoc]
    rfl
  | deactivate k =>
    have h : (w.deactivate k.gate).stock x = w.stock x :=
      total_modify_of_eq (w := Gate.holds x) (f := fun gate => { gate with active := false })
        (fun _ => rfl) w.heap k.gate
    show (w.deactivate k.gate).stock x + 0 = w.stock x + 0 + 0
    omega
  | displace k gate n hg =>
    have h : total (Gate.holds x) (w.heap.modify k.gate _) + gate.holds x = w.stock x + _ :=
      total_modify hg fun gate => { gate with queue := [], currently_processing := none }
    have e : (Call.issued w (.displace k)) = gate.currently_processing.toList := by
      rw [Call.issued, hg]
    have e' : Gate.holds x { gate with queue := [], currently_processing := none } +
        gate.queue.count x = gate.holds x := by
      show 0 + gate.worker.bundle.count x + gate.queue.count x =
        gate.queue.count x + gate.worker.bundle.count x
      omega
    show total _ (w.heap.modify k.gate _) + (gate.currently_processing.toList ++ gate.queue).count x =
      w.stock x + 0 + _
    rw [e, List.count_append]
    omega
  | retarget k y left dest gate_id => rfl
  | requeue k dest y left gate hg =>
    have := stock_join hg y x
    have e : (y :: left).count x = [y].count x + left.count x := by
      rw [← List.singleton_append, List.count_append]
    show (w.join dest y).stock x + left.count x = w.stock x + (y :: left).count x + 0
    omega
  | record k dest y left gate_id => rfl
  | delete k => rfl
  | missing k hk => rfl

end

/-- how often an arrival is held in all -/
def State.held (s : State) (x : Nat) : Nat := s.shared.stock x + pendingIn s.threads x

/-- what the action adds -/
def State.issued (s : State) : PoolAct Api Env Unit → List Nat
  | .step i _ => match s.threads[i]? with
    | some call => call.issued s.shared
    | none => []
  | _ => []

theorem start_pending (r : Api) : r.start.pending = [] := by
  cases r <;> rfl

/-- a call takes a step: its pending guests are exchanged in the ledger -/
theorem pendingIn_set {calls : List Call} {i : Nat} {call : Call} (h : calls[i]? = some call)
    (call' : Call) (x : Nat) :
    pendingIn (calls.set i call') x + call.pending.count x =
      pendingIn calls x + call'.pending.count x := total_set h call'

theorem Moves.completions {cfg : Config} {w w' : World} {call call' : Call}
    (h : Moves cfg w call w' call') : w'.completions = w.completions ∧ w'.events = w.events := by
  cases h <;> exact ⟨rfl, rfl⟩

/-- **The ledger of the airport.**  Every step moves arrivals between gates, workers, calls and the
completed ones, and adds only what it issues. -/
theorem State.ledger {cfg : Config} {s s' : State} {act : PoolAct Api Env Unit}
    (h : (airport cfg).machine s act = some s') (x : Nat) :
    s'.held x + s'.shared.completions.count x =
      s.held x + s.shared.completions.count x + (s.issued act).count x := by
  cases act with
  | spawn r =>
    obtain rfl := Option.some.inj h
    show s.shared.stock x + total _ (s.threads ++ [r.start]) + _ = _
    rw [total_snoc, start_pending]
    rfl
  | env e =>
    obtain ⟨w', he, rfl⟩ := Sys.machine_env h
    cases e with
    | work g =>
      obtain ⟨gate, hg, hw⟩ := work_works he
      have := hw.ledger hg x
      show w'.stock x + pendingIn s.threads x + w'.completions.count x =
        s.shared.stock x + pendingIn s.threads x + s.shared.completions.count x + 0
      omega
    | tick d =>
      obtain rfl := Option.some.inj he
      rfl
  | step i a =>
    obtain ⟨call, w', call', hi, hs, rfl⟩ := Sys.machine_step h
    have hm := step_moves hs
    have hl := hm.ledger x
    have hp := pendingIn_set hi call' x
    have e : s.issued (.step i a) = call.issued s.shared := by
      rw [State.issued, hi]
    rw [e, hm.completions.1]
    show w'.stock x + pendingIn (s.threads.set i call') x + _ =
      s.shared.stock x + pendingIn s.threads x + _ + _
    omega

theorem stock_pos {w : World} {g : Nat} {gate : Gate} {x : Nat} (hg : w.heap[g]? = some gate)
    (h : x ∈ gate.queue ∨ x ∈ gate.worker.bundle) : 0 < w.stock x := by
  have hle : gate.holds x ≤ w.stock x := le_total (List.mem_of_getElem? hg)
  have hpos : 0 < gate.queue.count x + gate.worker.bundle.count x := by
    rcases h with h | h
    · have := List.count_pos_iff.mpr h
      omega
    · have := List.count_pos_iff.mpr h
      omega
  exact Nat.lt_of_lt_of_le hpos hle

theorem pendingIn_pos {calls : List Call} {call : Call} {x : Nat} (hc : call ∈ calls)
    (h : x ∈ call.pending) : 0 < pendingIn calls x :=
  Nat.lt_of_lt_of_le (List.count_pos_iff.mpr h)
    (le_total (w := fun c : Call => c.pending.count x) hc)

theorem Moves.total_worker {cfg : Config} {w w' : World} {call call' : Call}
    (h : Moves cfg w call w' call') {f : Worker → Nat} (hf : f .head = 0) :
    total (fun gate => f gate.worker) w'.heap = total (fun gate => f gate.worker) w.heap := by
  have keep : ∀ (g : Nat) (u : Gate → Gate), (∀ gate, (u gate).worker = gate.worker) →
      total (fun gate : Gate => f gate.worker) (w.heap.modify g u) =
        total (fun gate => f gate.worker) w.heap := fun g u hu =>
    total_modify_of_eq (w := fun gate : Gate => f gate.worker) (fun gate => congrArg f (hu gate)) w.heap g
  cases h with
  | idle => rfl
  | insert => rfl
  | enqueue g x => exact keep g _ fun _ => rfl
  | register gate_id type =>
    show total _ (w.heap ++ [_]) = _
    rw [total_snoc]
    show _ + f .head = _
    rw [hf, Nat.add_zero]
  | deactivate k => exact keep k.gate _ fun _ => rfl
  | displace k => exact keep k.gate _ fun _ => rfl
  | retarget => rfl
  | requeue k dest => exact keep dest _ fun _ => rfl
  | record => rfl
  | delete => rfl
  | missing => rfl

/-! ## updates of rows -/

theorem updateAt_nil (f : Nat → Arrival → Arrival) (l : List Arrival) : updateAt [] f l = l := by
  apply List.ext_getElem?
  intro i
  rw [updateAt, List.getElem?_mapIdx]
  exact congrFun Option.map_id _

theorem map_updateAt {β : Type*} {q : Arrival → β} {f : Nat → Arrival → Arrival}
    (hf : ∀ i a, q (f i a) = q a) (ids : List Nat) (l : List Arrival) :
    (updateAt ids f l).map q = l.map q := by
  apply List.ext_getElem?
  intro i
  rw [List.getElem?_map, List.getElem?_map, updateAt, List.getElem?_mapIdx, Option.map_map]
  congr 1
  funext a
  show q (if i ∈ ids then f i a else a) = q a
  split
  · exact hf i a
  · rfl

/-! ## the status of a row -/

def World.statusOf (w : World) (x : Nat) : Option Status := w.rows[x]?.map Arrival.status

theorem statusOf_updateAt {w w' : World} {ids : List Nat} {f : Nat → Arrival → Arrival}
    {st : Status} (hr : w'.rows = updateAt ids f w.rows) (hf : ∀ i a, (f i a).status = st)
    (x : Nat) :
    w'.statusOf x = if x ∈ ids then (w.statusOf x).map fun _ => st else w.statusOf x := by
  rw [World.statusOf, World.statusOf, hr, updateAt, List.getElem?_mapIdx]
  cases w.rows[x]? with
  | none =>
    show none = _
    split <;> rfl
  | some a =>
    show some (Arrival.status (if x ∈ ids then f x a else a)) = _
    split
    · rw [hf]
      rfl
    · rfl

theorem setStatus_status (st : Status) (i : Nat) (a : Arrival) : (setStatus st i a).status = st := rfl

theorem finishRow_status (guests : List Arrival) (i : Nat) (a : Arrival) :
    (World.finishRow guests i a).status = .processed := rfl

/-- the processed rows are those of the completed arrivals -/
def World.Recorded (w : World) : Prop :=
  ∀ x, w.statusOf x = some .processed ↔ x ∈ w.completions

theorem World.Recorded.overwrite {w w' : World} {ids : List Nat} {f : Nat → Arrival → Arrival}
    {st : Status} (h : w.Recorded) (hr : w'.rows = updateAt ids f w.rows)
    (hf : ∀ i a, (f i a).status = st) (hst : st ≠ .processed)
    (hids : ∀ x ∈ ids, x ∉ w.completions) (x : Nat) :
    w'.statusOf x = some .processed ↔ x ∈ w.completions := by
  rw [statusOf_updateAt hr hf]
  split
  · rename_i hx
    constructor
    · intro e
      obtain ⟨_, _, e⟩ := Option.map_eq_some_iff.mp e
      exact absurd e hst
    · intro hc
      exact absurd hc (hids x hx)
  · exact h x

theorem Works.recorded {cfg : Config} {w w' : World} {g : Nat} {gate : Gate} (h : w.Recorded)
    (hb : ∀ x ∈ gate.worker.bundle, x ∉ w.completions ∧ x < w.rows.length)
    (hm : ∀ x ∈ gate.worker.marks, x ∉ w.completions) (hw : Works cfg w g gate w') :
    w'.Recorded := by
  intro x
  cases hw with
  | idle gate' guests hid hq hb hu hm hcp hlen => exact h x
  | pick gate' guests hw hid hq hb hu hm hcp hlen => exact h x
  | hold bundle held hw =>
    rw [hw] at hm
    exact h.overwrite rfl (setStatus_status .held) (by decide) hm x
  | mark bundle hw =>
    rw [hw] at hb
    exact h.overwrite rfl (setStatus_status .processing) (by decide) (fun y hy => (hb y hy).1) x
  | complete bundle hw =>
    rw [hw] at hb
    rw [statusOf_updateAt rfl (finishRow_status w.guests)]
    show _ ↔ x ∈ w.completions ++ bundle
    rw [List.mem_append]
    split
    · rename_i hx
      have hlt : x < w.rows.length := (hb x hx).2
      have hst : w.statusOf x = some w.rows[x].status :=
        congrArg (Option.map Arrival.status) (List.getElem?_eq_getElem hlt)
      rw [hst]
      exact ⟨fun _ => .inr hx, fun _ => rfl⟩
    · rename_i hx
      rw [h x]
      exact ⟨.inl, fun hc => hc.resolve_right hx⟩
  | publish y left hw => exact h x

theorem statusOf_recordRow (w : World) (y : Nat) (gate_id : String) (x : Nat) :
    (w.recordRow y gate_id).statusOf x =
      if x ∈ [y] then (w.statusOf x).map fun _ => .queued else w.statusOf x :=
  statusOf_updateAt (f := fun _ a => { a with gate := gate_id, status := .queued }) rfl
    (fun _ _ => rfl) x

theorem statusOf_insertRow (w : World) (guest : Guest) (t : Int) (gate_id : String) (x : Nat) :
    (w.insertRow guest t gate_id).statusOf x =
      if x = w.rows.length then some .queued else w.statusOf x := by
  show (w.rows ++ [_])[x]?.map Arrival.status = _
  by_cases hx : x = w.rows.length
  · rw [if_pos hx, hx, List.getElem?_concat_length]
    rfl
  · rw [if_neg hx, List.getElem?_append]
    split
    · rfl
    · rw [List.getElem?_eq_none (by rw [List.length_singleton]; omega), World.statusOf,
        List.getElem?_eq_none (by omega)]

theorem Moves.statusOf {cfg : Config} {w w' : World} {call call' : Call}
    (h : Moves cfg w call w' call') (x : Nat) :
    w'.statusOf x = w.statusOf x ∨
      call.recorded = some x ∧ w'.statusOf x ≠ some .processed ∨
      x = w.rows.length ∧ x ∈ call'.pending ∧ w'.statusOf x = some .queued := by
  cases h with
  | insert guest g queued_at gate =>
    rw [statusOf_insertRow]
    split
    · rename_i hx
      exact .inr (.inr ⟨hx, List.mem_singleton.mpr hx, rfl⟩)
    · exact .inl rfl
  | record k dest y left gate_id =>
    rw [statusOf_recordRow]
    split
    · rename_i hx
      refine .inr (.inl ⟨congrArg some (List.mem_singleton.mp hx).symm, ?_⟩)
      intro e
      obtain ⟨_, _, e⟩ := Option.map_eq_some_iff.mp e
      exact absurd e (by decide)
    · exact .inl rfl
  | idle => exact .inl rfl
  | enqueue => exact .inl rfl
  | register => exact .inl rfl
  | deactivate => exact .inl rfl
  | displace => exact .inl rfl
  | retarget => exact .inl rfl
  | requeue => exact .inl rfl
  | delete => exact .inl rfl
  | missing => exact .inl rfl

/-! ## the first state -/

/-- no arrivals yet, and every worker is at the start of its loop -/
structure World.Fresh (w : World) : Prop where
  rows : w.rows = []
  guests : w.guests = []
  completions : w.completions = []
  events : w.events = []
  gates : ∀ gate ∈ w.heap, gate.queue = [] ∧ gate.worker = .head ∧ gate.currently_processing = none

theorem World.Fresh.register {w : World} (h : w.Fresh) (cfg : Config) (gate_id : String)
    (type : GateType) : (w.register cfg gate_id type).Fresh := by
  refine ⟨h.rows, h.guests, h.completions, h.events, ?_⟩
  intro gate hg
  rcases List.mem_append.mp hg with hg | hg
  · exact h.gates gate hg
  · rw [List.mem_singleton.mp hg]
    exact ⟨rfl, rfl, rfl⟩

theorem World.Fresh.registerAll {cfg : Config} {type : GateType} (ids : Nat → String)
    (l : List Nat) {w : World} (h : w.Fresh) :
    (l.foldl (fun w i => w.register cfg (ids i) type) w).Fresh := by
  induction l generalizing w with
  | nil => exact h
  | cons i l ih => exact ih (h.register cfg (ids i) type)

theorem World.init_fresh (cfg : Config) : (World.init cfg).Fresh := by
  have h : World.Fresh ⟨[], [], [], .empty, [], [], 0⟩ :=
    ⟨rfl, rfl, rfl, rfl, fun _ hg => absurd hg List.not_mem_nil⟩
  exact (h.registerAll _ _).registerAll _ _

theorem World.Fresh.stock {w : World} (h : w.Fresh) (x : Nat) : w.stock x = 0 := by
  apply total_eq_zero
  intro gate hg
  obtain ⟨hq, hw, _⟩ := h.gates gate hg
  rw [Gate.holds, hq, hw]
  rfl

end Airport
