import Purrlington.Airport.View
import Purrlington.Airport.Upkeep
import Purrlington.Lib.Schema

/-!
# Airport: what the frontend accepts

The gate workers write the status `held` to a minor that waits alone; the frontend's enumeration of
statuses does not have it, and one such guest makes a whole response fail.

* `ArrivalStatusSchema`, `QueueResponseSchema`   the schemas of the frontend;
* `arrivalResponse`        the answer of `/arrivals/<guest_id>`;
* `World.Presentable`      the condition on a state: nobody who is shown is held;
* `Escorted`               the condition on a run: no worker comes to a minor that waits alone;
* `responses_accepted_iff` the law under these conditions, over all runs;
* `held_rejected`          one child in a queue.
-/

set_option linter.unusedSectionVars false

namespace Airport
open SM Ledger

/-! ## the schemas of the frontend -/

def ArrivalStatusValue : Schema := .enum ["queued", "processing", "processed"]

def ArrivalStatusSchema : Schema := .object
  [("guest_id", .string), ("status", ArrivalStatusValue), ("gate", .string),
   ("position", .nullable .int), ("queued_at", .number), ("processed_at", .nullable .number),
   ("wait_time_seconds", .nullable .number)] false

def QueuedGuestSchema : Schema := .object
  [("guest_id", .string), ("name", .string), ("surname", .string),
   ("passport_type", .enum ["EU", "non-EU"]), ("priority", .enum ["standard", "fast"]),
   ("disability", .boolean), ("status", ArrivalStatusValue), ("gate", .string), ("position", .int),
   ("queued_at", .number), ("wait_time_seconds", .number)] false

def GateStatusSchema : Schema := .object
  [("gate_id", .string), ("gate_type", .enum ["EU", "ALL"]), ("queue_size", .int),
   ("queue", .array QueuedGuestSchema)] false

def QueueResponseSchema : Schema := .object
  [("gates", .array GateStatusSchema), ("total_queued", .int), ("current_game_time", .number)] false

/-! ## /arrivals/<guest_id> -/

namespace World

/-- a row that `get_guest` may return: no other of the guest was queued later -/
def Latest (w : World) (guest_id : String) (a : Arrival) : Prop :=
  a ∈ w.rows ∧ a.guest.guest_id = guest_id ∧
    ∀ b ∈ w.rows, b.guest.guest_id = guest_id → b.queued_at ≤ a.queued_at

instance (w : World) (guest_id : String) (a : Arrival) : Decidable (w.Latest guest_id a) :=
  inferInstanceAs (Decidable (_ ∧ _ ∧ ∀ b ∈ w.rows, _))

def hasId (w : World) (guest_id : String) (x : Nat) : Bool :=
  match w.guests[x]? with
  | some a => a.guest.guest_id = guest_id
  | none => false

def guestPosition (w : World) (guest_id gate_id : String) : Option Nat :=
  (w.gateAt gate_id).bind fun gate =>
    if gate.currently_processing.any (w.hasId guest_id) then some 0
    else (gate.queue.findIdx? (w.hasId guest_id)).map fun i => i + 1

def estimatedWait (w : World) (guest_id gate_id : String) : Option Int :=
  (w.gateAt gate_id).bind fun gate =>
    if gate.currently_processing.any (w.hasId guest_id) then some 0
    else (gate.queue.findIdx? (w.hasId guest_id)).map fun i =>
      (if gate.currently_processing.isSome then i + 1 else i) * gate.processing_time

end World

def orNull {α : Type} (f : α → Json) : Option α → Json
  | some a => f a
  | none => .null

/-- `get_arrival`, for the row that `get_guest` has returned -/
def arrivalResponse (w : World) (a : Arrival) : Json :=
  let id := a.guest.guest_id
  .obj [("guest_id", .str id),
    ("status", .str a.status.text),
    ("gate", .str a.gate),
    ("position", orNull (fun i : Nat => .int i)
      (if a.status = .processed then none else w.guestPosition id a.gate)),
    ("queued_at", .float a.queued_at),
    ("processed_at", orNull (fun t : Int => .float t) a.processed_at),
    ("wait_time_seconds",
      if a.status = .processed then orNull (fun t : Int => .float t) a.wait_time_seconds
      else .float (w.now - a.queued_at : Int)),
    ("estimated_wait_seconds", orNull (fun t : Int => .float t)
      (if a.status = .processed then none else w.estimatedWait id a.gate))]

/-- every response about the state is accepted: that of `/queue`, and for every guest that of
`/arrivals/<guest_id>` -/
def World.Readable (w : World) : Prop :=
  QueueResponseSchema.accepts (getAllGatesStatus w) = true ∧
    ∀ guest_id a, w.Latest guest_id a → ArrivalStatusSchema.accepts (arrivalResponse w a) = true

/-- how many guests are at the gates -/
def World.shown (w : World) : Nat := total (fun gate => gate.places.length) w.present

/-- nobody at a gate of the dictionary is held, nor is the latest row of any guest; and there are
no more guests than `int()` can count -/
structure World.Presentable (w : World) : Prop where
  gates : ∀ gate ∈ w.present, ∀ p ∈ gate.places, ∀ a ∈ w.guests[p.1]?, a.status ≠ .held
  rows : ∀ guest_id a, w.Latest guest_id a → a.status ≠ .held
  count : (w.shown : Int) ≤ Schema.maxSafeInteger

/-! ## acceptance, part by part -/

section
variable {w : World} {gate : Gate}

theorem status_accepted (st : Status) :
    ArrivalStatusValue.accepts (.str st.text) = true ↔ st ≠ .held := by
  cases st <;> decide

theorem int_accepted (n : Nat) : Schema.accepts .int (.int n) = true ↔
    (n : Int) ≤ Schema.maxSafeInteger := by
  rw [Schema.accepts, Schema.parse, Schema.safe]
  have h : -Schema.maxSafeInteger ≤ (n : Int) := by
    have : (0 : Int) ≤ n := Int.natCast_nonneg n
    have : -Schema.maxSafeInteger ≤ 0 := by decide
    omega
  by_cases hn : (n : Int) ≤ Schema.maxSafeInteger <;> simp [h, hn]

theorem passport_accepted (t : PassportType) :
    Schema.accepts (.enum ["EU", "non-EU"]) (.str t.text) = true := by
  cases t <;> decide

theorem priority_accepted (t : Priority) :
    Schema.accepts (.enum ["standard", "fast"]) (.str t.text) = true := by
  cases t <;> decide

theorem gateType_accepted (t : GateType) :
    Schema.accepts (.enum ["EU", "ALL"]) (.str (Call.typeName t)) = true := by
  cases t <;> decide

theorem entry_accepted {p : Nat × Nat} {a : Arrival} (ha : w.guests[p.1]? = some a) :
    QueuedGuestSchema.accepts (w.entry p) = true ↔
      a.status ≠ .held ∧ (p.2 : Int) ≤ Schema.maxSafeInteger := by
  rw [World.entry, ha, QueuedGuestSchema, Schema.accepts_object]
  simp only [List.forall_mem_cons, List.not_mem_nil, false_imp_iff, implies_true, and_true]
  rw [← status_accepted, ← int_accepted]
  obtain ⟨guest, queued_at, gate, status, processed_at, wait⟩ := a
  -- a record that was processed has one more member, before the position
  cases processed_at with
  | none =>
    exact ⟨fun h => ⟨h.2.2.2.2.2.2.1, h.2.2.2.2.2.2.2.2.1⟩, fun h => ⟨rfl, rfl, rfl,
      passport_accepted _, priority_accepted _, rfl, h.1, rfl, h.2, rfl, rfl⟩⟩
  | some t =>
    exact ⟨fun h => ⟨h.2.2.2.2.2.2.1, h.2.2.2.2.2.2.2.2.1⟩, fun h => ⟨rfl, rfl, rfl,
      passport_accepted _, priority_accepted _, rfl, h.1, rfl, h.2, rfl, rfl⟩⟩

theorem queue_le_places (gate : Gate) : gate.queue.length ≤ gate.places.length := by
  rw [Gate.places, List.length_append, List.length_zipIdx]
  exact Nat.le_add_left _ _

theorem place_le {p : Nat × Nat} (h : p ∈ gate.places) : p.2 ≤ gate.places.length := by
  have hlen := queue_le_places gate
  rcases List.mem_append.mp h with h | h
  · obtain ⟨x, _, rfl⟩ := List.mem_map.mp h
    exact Nat.zero_le _
  · have := (List.mem_zipIdx h).2.1
    omega

theorem places_le_shown (h : gate ∈ w.present) : gate.places.length ≤ w.shown :=
  le_total (w := fun gate : Gate => gate.places.length) h

theorem gateStatus_accepted (hs : w.Sound) (hgate : gate ∈ w.heap) :
    GateStatusSchema.accepts (w.gateStatus gate) = true ↔
      (gate.places.length : Int) ≤ Schema.maxSafeInteger ∧
        ∀ p ∈ gate.places, ∀ a ∈ w.guests[p.1]?, a.status ≠ .held := by
  rw [World.gateStatus, GateStatusSchema, Schema.accepts_object]
  simp only [List.forall_mem_cons, List.not_mem_nil, false_imp_iff, implies_true, and_true]
  rw [← int_accepted]
  have hqueue : Schema.accepts (.array QueuedGuestSchema) (.arr (gate.places.map w.entry)) = true ↔
      ∀ p ∈ gate.places, QueuedGuestSchema.accepts (w.entry p) = true := by
    rw [Schema.accepts_array, List.forall_mem_map]
  have hguest : ∀ p ∈ gate.places, ∃ a, w.guests[p.1]? = some a := fun p hp =>
    ⟨_, List.getElem?_eq_getElem (hs.gates gate hgate p.1 (Gate.mem_guests_of_places hp))⟩
  constructor
  · rintro ⟨_, _, hsize, hq⟩
    refine ⟨hsize, ?_⟩
    intro p hp a ha
    exact ((entry_accepted ha).mp (hqueue.mp hq p hp)).1
  · rintro ⟨hsize, hall⟩
    refine ⟨rfl, gateType_accepted _, hsize, hqueue.mpr ?_⟩
    intro p hp
    obtain ⟨a, ha⟩ := hguest p hp
    have hle : (p.2 : Int) ≤ gate.places.length := Int.ofNat_le.mpr (place_le hp)
    exact (entry_accepted ha).mpr ⟨hall p hp a ha, hle.trans ((int_accepted _).mp hsize)⟩

/-- **The answer of `/queue`.** -/
theorem queue_accepted (hs : w.Sound) :
    QueueResponseSchema.accepts (getAllGatesStatus w) = true ↔
      (w.shown : Int) ≤ Schema.maxSafeInteger ∧
        ∀ gate ∈ w.present, ∀ p ∈ gate.places, ∀ a ∈ w.guests[p.1]?, a.status ≠ .held := by
  rw [getAllGatesStatus, QueueResponseSchema, Schema.accepts_object]
  simp only [List.forall_mem_cons, List.not_mem_nil, false_imp_iff, implies_true, and_true]
  have hgates : Schema.accepts (.array GateStatusSchema)
      (.arr ((w.present.insertionSort fun a b => a.gate_id ≤ b.gate_id).map w.gateStatus)) = true ↔
      ∀ gate ∈ w.present, GateStatusSchema.accepts (w.gateStatus gate) = true := by
    rw [Schema.accepts_array, List.forall_mem_map]
    exact forall_congr' fun gate => by rw [List.mem_insertionSort]
  have hheap : ∀ gate ∈ w.present, gate ∈ w.heap := fun gate hg => World.mem_heap_of_present hg
  constructor
  · rintro ⟨hg, ht, _⟩
    refine ⟨(int_accepted _).mp ht, ?_⟩
    intro gate hgate
    exact ((gateStatus_accepted hs (hheap gate hgate)).mp (hgates.mp hg gate hgate)).2
  · rintro ⟨ht, hall⟩
    refine ⟨hgates.mpr fun gate hgate => ?_, (int_accepted _).mpr ht, rfl⟩
    have hle : (gate.places.length : Int) ≤ w.shown := Int.ofNat_le.mpr (places_le_shown hgate)
    exact (gateStatus_accepted hs (hheap gate hgate)).mpr ⟨hle.trans ht, hall gate hgate⟩

theorem guestPosition_le {guest_id gate_id : String} {i : Nat}
    (h : w.guestPosition guest_id gate_id = some i) : i ≤ w.shown := by
  obtain ⟨gate, hgate, h⟩ := Option.bind_eq_some_iff.mp h
  obtain ⟨g, hg, hheap⟩ := Option.bind_eq_some_iff.mp hgate
  have hpresent : gate ∈ w.present :=
    List.mem_filterMap.mpr ⟨g, Dict.mem_values_iff.mpr ⟨gate_id, hg⟩, hheap⟩
  have hshown := places_le_shown hpresent
  have hlen := queue_le_places gate
  split at h
  · obtain rfl := Option.some.inj h
    exact Nat.zero_le _
  · obtain ⟨j, hj, rfl⟩ := Option.map_eq_some_iff.mp h
    have := (List.findIdx?_eq_some_iff_getElem.mp hj).1
    omega

theorem orNull_accepted {α : Type} {f : α → Json} {s : Schema} {o : Option α}
    (h : ∀ a ∈ o, Schema.accepts (.nullable s) (f a) = true) :
    Schema.accepts (.nullable s) (orNull f o) = true := by
  cases o with
  | none => rfl
  | some a => exact h a rfl

/-- **The answer of `/arrivals/<guest_id>`**, where the positions are safe. -/
theorem arrival_accepted (hcount : (w.shown : Int) ≤ Schema.maxSafeInteger) (a : Arrival) :
    ArrivalStatusSchema.accepts (arrivalResponse w a) = true ↔ a.status ≠ .held := by
  rw [arrivalResponse, ArrivalStatusSchema, Schema.accepts_object]
  simp only [List.forall_mem_cons, List.not_mem_nil, false_imp_iff, implies_true, and_true]
  rw [← status_accepted]
  refine ⟨fun h => h.2.1, fun h => ⟨rfl, h, rfl, ?_, rfl, ?_, ?_⟩⟩
  · refine orNull_accepted (s := .int) (f := fun i : Nat => .int i) ?_
    intro i hi
    split at hi
    · exact absurd hi (by simp)
    · have hle : (i : Int) ≤ w.shown := Int.ofNat_le.mpr (guestPosition_le hi)
      exact (int_accepted i).mpr (hle.trans hcount)
  · exact orNull_accepted (s := .number) (f := fun t : Int => .float t) fun _ _ => rfl
  · show Schema.accepts (.nullable .number) (if a.status = .processed then _ else _) = true
    split
    · exact orNull_accepted (s := .number) (f := fun t : Int => .float t) fun _ _ => rfl
    · rfl

/-- **What the frontend accepts.**  The responses about a state are accepted exactly when it is
presentable. -/
theorem readable_iff (hs : w.Sound) : w.Readable ↔ w.Presentable := by
  constructor
  · rintro ⟨hq, ha⟩
    obtain ⟨hcount, hgates⟩ := (queue_accepted hs).mp hq
    exact ⟨hgates, fun id a hl => (arrival_accepted hcount a).mp (ha id a hl), hcount⟩
  · intro h
    exact ⟨(queue_accepted hs).mpr ⟨h.count, h.gates⟩, fun id a hl =>
      (arrival_accepted h.count a).mpr (h.rows id a hl)⟩

end

/-! ## runs in which nobody is held -/

/-- whenever a worker picks, the guest at the front of its queue is no minor, or has an adult of its
surname in that queue -/
def Escorted (cfg : Config) (s : State) : PoolAct Api Env Unit → Prop
  | .env (.work g) => ∀ gate ∈ s.shared.heap[g]?, gate.worker = .ready →
      ∀ x ∈ gate.queue.head?, ¬ Unaccompanied (s.shared.reads cfg) gate.queue x
  | _ => True

instance (cfg : Config) (s : State) : ∀ act, Decidable (Escorted cfg s act)
  | .env (.work g) => inferInstanceAs (Decidable (∀ gate ∈ s.shared.heap[g]?, gate.worker = .ready →
      ∀ x ∈ gate.queue.head?, ¬ Unaccompanied (s.shared.reads cfg) gate.queue x))
  | .spawn _ => isTrue trivial
  | .step _ _ => isTrue trivial
  | .env (.tick _) => isTrue trivial

theorem pickNext_held_nil {α : Type*} (R : Reads α) {queue : List α}
    (h : ∀ x ∈ queue.head?, ¬ Unaccompanied R queue x) : (pickNext R queue).held = [] := by
  cases queue with
  | nil => rfl
  | cons guest rest =>
    rw [pickNext, pickFrom]
    split
    · rename_i hc
      exact absurd (unaccompanied_of_passed R hc) (h guest rfl)
    · rfl

/-- nobody is held, and no worker is about to write that somebody is -/
structure World.NoneHeld (w : World) : Prop where
  rows : ∀ a ∈ w.rows, a.status ≠ .held
  guests : ∀ a ∈ w.guests, a.status ≠ .held
  marks : ∀ gate ∈ w.heap, gate.worker.marks = []

theorem forall_updateAt {P : Arrival → Prop} {f : Nat → Arrival → Arrival}
    (hf : ∀ i a, P a → P (f i a)) {l : List Arrival} (h : ∀ a ∈ l, P a) (ids : List Nat) :
    ∀ a ∈ updateAt ids f l, P a := by
  intro a ha
  obtain ⟨i, hi, rfl⟩ := List.mem_mapIdx.mp ha
  split
  · exact hf i _ (h _ (List.getElem_mem hi))
  · exact h _ (List.getElem_mem hi)

section
variable {cfg : Config} {w w' : World} {g : Nat} {call call' : Call}

theorem World.NoneHeld.set_marks (h : w.NoneHeld) {gate' : Gate} (hm : gate'.worker.marks = []) :
    ∀ gate ∈ w.heap.set g gate', gate.worker.marks = [] := by
  intro gate hgate
  rcases List.mem_or_eq_of_mem_set hgate with hgate | rfl
  · exact h.marks gate hgate
  · exact hm

theorem World.NoneHeld.modify_marks (h : w.NoneHeld) (g : Nat) {f : Gate → Gate}
    (hf : ∀ gate, (f gate).worker = gate.worker) :
    ∀ gate ∈ (w.modifyGate g f).heap, gate.worker.marks = [] := by
  intro gate hgate
  obtain ⟨j, hj⟩ := List.mem_iff_getElem?.mp hgate
  refine forall_modify (P := fun _ u => u.worker.marks = [])
    (fun _ u hu => h.marks u (List.mem_of_getElem? hu)) (fun u hu => ?_) j gate hj
  rw [hf]
  exact h.marks u (List.mem_of_getElem? hu)

theorem ne_held (st : Status) (hst : st ≠ .held) (i : Nat) (a : Arrival) (_ : a.status ≠ .held) :
    (setStatus st i a).status ≠ .held := hst

theorem World.NoneHeld.work (h : w.NoneHeld) (hw : w.work cfg g = some w')
    (hfront : ∀ gate ∈ w.heap[g]?, gate.worker = .ready →
      (pickNext (w.reads cfg) gate.queue).held = []) : w'.NoneHeld := by
  obtain ⟨gate, gate', w₁, hg, hs, rfl⟩ := work_step hw
  cases hs with
  | head hwk =>
    refine ⟨h.rows, h.guests, h.set_marks ?_⟩
    show Worker.marks (if gate.active = true then .ready else .stopped) = []
    split <;> rfl
  | ready hwk =>
    have hheld := hfront gate hg hwk
    refine ⟨h.rows, ?_, h.set_marks ?_⟩
    · show ∀ a ∈ updateAt _ (setStatus .processing) (updateAt _ (setStatus .held) w.guests), _
      rw [hheld, updateAt_nil]
      exact forall_updateAt (ne_held .processing (by decide)) h.guests _
    · show Worker.marks (if _ then _ else _) = []
      rw [if_pos hheld]
      exact afterHeld_marks _
  | holding bundle held hwk =>
    have hm : held = [] := by
      have := h.marks gate (List.mem_of_getElem? hg)
      rwa [hwk] at this
    refine ⟨?_, h.guests, h.set_marks (afterHeld_marks bundle)⟩
    show ∀ a ∈ updateAt held (setStatus .held) w.rows, _
    rw [hm, updateAt_nil]
    exact h.rows
  | marking bundle hwk =>
    exact ⟨forall_updateAt (ne_held .processing (by decide)) h.rows bundle, h.guests,
      h.set_marks rfl⟩
  | processing bundle hwk =>
    refine ⟨h.rows, forall_updateAt (fun i a _ => ?_) h.guests bundle, h.set_marks rfl⟩
    show Status.processed ≠ .held
    decide
  | recording bundle hwk =>
    refine ⟨forall_updateAt (fun i a _ => ?_) h.rows bundle, h.guests, h.set_marks rfl⟩
    show Status.processed ≠ .held
    decide
  | publishing x left hwk => exact ⟨h.rows, h.guests, h.set_marks rfl⟩
  | done hwk => exact ⟨h.rows, h.guests, h.set_marks rfl⟩

theorem Moves.noneHeld (h : w.NoneHeld) (hm : Moves cfg w call w' call') : w'.NoneHeld := by
  cases hm with
  | idle call call' hi hp hr => exact h
  | insert guest g queued_at gate =>
    have new : ∀ l : List Arrival, (∀ a ∈ l, a.status ≠ .held) →
        ∀ a ∈ l ++ [({ guest, queued_at, gate := gate.gate_id } : Arrival)], a.status ≠ .held := by
      intro l hl a ha
      rcases List.mem_append.mp ha with ha | ha
      · exact hl a ha
      · obtain rfl := List.mem_singleton.mp ha
        show Status.queued ≠ .held
        decide
    exact ⟨new _ h.rows, new _ h.guests, h.marks⟩
  | enqueue g x gate reply hg => exact ⟨h.rows, h.guests, h.modify_marks g fun _ => rfl⟩
  | register gate_id type =>
    refine ⟨h.rows, h.guests, ?_⟩
    intro gate hgate
    rcases List.mem_append.mp hgate with hgate | hgate
    · exact h.marks gate hgate
    · rw [List.mem_singleton.mp hgate]
      rfl
  | deactivate k => exact ⟨h.rows, h.guests, h.modify_marks k.gate fun _ => rfl⟩
  | displace k gate n hg =>
    exact ⟨h.rows, forall_updateAt (ne_held .queued (by decide)) h.guests _,
      h.modify_marks k.gate fun _ => rfl⟩
  | retarget k x left dest gate_id =>
    exact ⟨h.rows, forall_updateAt (f := fun _ a => { a with gate := gate_id }) (fun _ _ ha => ha)
      h.guests [x], h.marks⟩
  | requeue k dest x left gate hg => exact ⟨h.rows, h.guests, h.modify_marks dest fun _ => rfl⟩
  | record k dest x left gate_id =>
    refine ⟨forall_updateAt (fun _ a _ => ?_) h.rows _, h.guests, h.marks⟩
    show Status.queued ≠ .held
    decide
  | delete k => exact ⟨h.rows, h.guests, h.marks⟩
  | missing k hk => exact h

end

theorem World.init_noneHeld (cfg : Config) : (World.init cfg).NoneHeld := by
  have hf := World.init_fresh cfg
  refine ⟨fun a ha => ?_, fun a ha => ?_, fun gate hg => ?_⟩
  · rw [hf.rows] at ha
    exact absurd ha List.not_mem_nil
  · rw [hf.guests] at ha
    exact absurd ha List.not_mem_nil
  · rw [(hf.gates gate hg).2.1]
    rfl

/-- where every minor that comes to the front has an adult of its surname behind it, nobody is ever
held -/
theorem run_noneHeld {cfg : Config} {acts : List (PoolAct Api Env Unit)} {s : State}
    (hrun : (airport cfg).machine.Runs (Escorted cfg) (State.init cfg) acts s) :
    s.shared.NoneHeld := by
  refine hrun.inv (P := fun s => s.shared.NoneHeld) (fun s act s' h hg hm => ?_)
    (World.init_noneHeld cfg)
  cases act with
  | spawn r =>
    obtain rfl := Option.some.inj hm
    exact h
  | env e =>
    obtain ⟨c', hc, rfl⟩ := Sys.machine_env hm
    cases e with
    | work g =>
      exact h.work hc fun gate hgate hready => pickNext_held_nil _ (hg gate hgate hready)
    | tick d =>
      obtain rfl := Option.some.inj hc
      exact ⟨h.rows, h.guests, h.marks⟩
  | step i a =>
    obtain ⟨call, w', call', _, hst, rfl⟩ := Sys.machine_step hm
    exact (step_moves hst).noneHeld h

/-- **The responses that the frontend accepts.**  In every state of every run the answers of
`/queue` and `/arrivals/<guest_id>` are accepted exactly when nobody who is shown is held (and there
are no more guests than `int()` counts); and in every run where no minor is at the front of a queue
without an adult of its surname when the worker picks, that is so. -/
theorem responses_accepted_iff (cfg : Config) (acts : List (PoolAct Api Env Unit)) (s : State) :
    ((airport cfg).machine.Runs free (State.init cfg) acts s →
      (s.shared.Readable ↔ s.shared.Presentable)) ∧
    ((airport cfg).machine.Runs (Escorted cfg) (State.init cfg) acts s →
      (s.shared.shown : Int) ≤ Schema.maxSafeInteger → s.shared.Readable) := by
  refine ⟨fun hrun => readable_iff (run_sound hrun), ?_⟩
  intro hrun hcount
  have hs := run_sound (hrun.mono fun _ _ _ => trivial)
  have h := run_noneHeld hrun
  exact (readable_iff hs).mpr ⟨fun _ _ p _ a ha => h.guests a (List.mem_of_getElem? ha),
    fun _ a hl => h.rows a hl.1, hcount⟩

/-- a mother waits at EU-1 and another guest at ALL-1; the child comes to the front of its mother's
queue, and the worker picks both -/
def childWithMother : List (PoolAct Api Env Unit) :=
  [.spawn (.assign andrei), .step 0 (), .step 0 (), .step 0 (),
   .spawn (.assign chang), .step 1 (), .step 1 (), .step 1 (),
   .spawn (.assign mihai), .step 2 (), .step 2 (), .step 2 (),
   .env (.work 0), .env (.work 0), .env (.work 0)]

theorem responses_accepted_family : ∃ s,
    (airport ⟨id, 1, 1, 40, 60⟩).machine.Runs (Escorted ⟨id, 1, 1, 40, 60⟩)
      (State.init ⟨id, 1, 1, 40, 60⟩) childWithMother s ∧
    s.shared.statusOf 2 = some .processing ∧ s.shared.shown = 2 ∧ s.shared.Readable :=
  ⟨_, Machine.runs_iff_runG.mpr rfl, rfl, rfl,
    (responses_accepted_iff ⟨id, 1, 1, 40, 60⟩ childWithMother _).2 (Machine.runs_iff_runG.mpr rfl)
      (by decide)⟩

/-- a child arrives alone, and the worker of its gate passes over it -/
def childAlone : List (PoolAct Api Env Unit) :=
  [.spawn (.assign mihai), .step 0 (), .step 0 (), .step 0 (),
   .env (.work 0), .env (.work 0), .env (.work 0)]

/-- **One child alone.**  Once a worker has passed over it neither response is accepted. -/
theorem held_rejected : ∃ s,
    (airport threeGates).machine.Runs free (State.init threeGates) childAlone s ∧
    QueueResponseSchema.accepts (getAllGatesStatus s.shared) = false ∧
    (∃ a, s.shared.Latest "guest-2" a ∧
      ArrivalStatusSchema.accepts (arrivalResponse s.shared a) = false) ∧
    ¬ s.shared.Readable :=
  ⟨_, Machine.runs_free_iff.mpr rfl, by decide +kernel,
    ⟨⟨mihai, 0, .held, "EU-1", none, none⟩, by decide +kernel, by decide +kernel⟩,
    fun h => absurd h.1 (by decide +kernel)⟩

end Airport
