import Purrlington.Airport.Accounts
import Purrlington.Lib.Json

/-!
# Airport: what the service shows of its state

* `getAllGatesStatus`, `getStats`   the answers of `/queue` and `/stats`;
* `World.impersonal`       the state without the id, name, surname and age of every guest that waits
                           or is being processed;
* `getStats_impersonal`    the statistics do not depend on these;
* `size_renamed`           the gates' status does: a longer name of a guest in it is a longer text;
* `World.Sound`            every reference to a guest is valid, in every state of a run.
-/

set_option linter.unusedSectionVars false

namespace Airport
open SM

def Status.text : Status → String
  | .queued => "queued"
  | .processing => "processing"
  | .held => "held"
  | .processed => "processed"

def PassportType.text : PassportType → String
  | .EU => "EU"
  | .nonEU => "non-EU"

def Priority.text : Priority → String
  | .standard => "standard"
  | .fast => "fast"

/-! ## /queue -/

/-- the record of a guest; `processed_at` is there once a worker has set it -/
def recordMembers (x : Nat) (a : Arrival) : List (String × Json) :=
  ([("guest_id", .str a.guest.guest_id),
   ("name", .str a.guest.name),
   ("surname", .str a.guest.surname),
   ("age", .int a.guest.age),
   ("passport_type", .str a.guest.passport_type.text),
   ("priority", .str a.guest.priority.text),
   ("disability", .bool a.guest.disability),
   ("queued_at", .float a.queued_at),
   ("status", .str a.status.text),
   ("gate", .str a.gate),
   ("arrival_id", .int (x + 1))] : List (String × Json)) ++
    (a.processed_at.toList.map fun t => ("processed_at", .float t))

/-- the guests of a snapshot with their positions: first whoever is being processed -/
def Gate.places (gate : Gate) : List (Nat × Nat) :=
  (gate.currently_processing.toList.map fun x => (x, 0)) ++ gate.queue.zipIdx 1

/-- an entry of a snapshot: the record with its position, and the time so far in the place of its
`wait_time_seconds` -/
def World.entry (w : World) (p : Nat × Nat) : Json :=
  match w.guests[p.1]? with
  | some a => .obj (recordMembers p.1 a ++
      [("position", .int p.2), ("wait_time_seconds", .float (w.now - a.queued_at : Int))])
  | none => .null

def World.gateStatus (w : World) (gate : Gate) : Json :=
  .obj [("gate_id", .str gate.gate_id),
    ("gate_type", .str (Call.typeName gate.gate_type)),
    ("queue_size", .int gate.places.length),
    ("queue", .arr (gate.places.map w.entry))]

/-- the gates of the dictionary -/
def World.present (w : World) : List Gate := w.gates.values.filterMap fun g => w.heap[g]?

def getAllGatesStatus (w : World) : Json :=
  .obj [("gates", .arr ((w.present.insertionSort fun a b => a.gate_id ≤ b.gate_id).map w.gateStatus)),
    ("total_queued", .int (Ledger.total (fun gate => gate.places.length) w.present)),
    ("current_game_time", .float w.now)]

/-! ## /stats -/

/-- the columns that the statistics read -/
structure Columns where
  status : Status
  gate : String
  wait_time_seconds : Option Int
  passport_type : PassportType
  priority : Priority

def Arrival.columns (a : Arrival) : Columns :=
  ⟨a.status, a.gate, a.wait_time_seconds, a.guest.passport_type, a.guest.priority⟩

/-- `x or 0`, of an aggregate that is NULL over no rows -/
def orZero : Option Rat → Json
  | some q => if q = 0 then .int 0 else .float q
  | none => .int 0

def average (l : List Int) : Option Rat := if l = [] then none else some (mkRat (l.foldl (· + ·) 0) l.length)

/-- a count for each of the keys that occur -/
def distribution (keys : List String) : Json :=
  .obj (keys.dedup.map fun k => (k, .int (keys.count k)))

/-- `get_stats`, from the columns of all rows -/
def statsOf (now : Int) (rows : List Columns) : Json :=
  let withStatus (st : Status) : List Columns := rows.filter fun r => r.status = st
  let waits := (withStatus .processed).filterMap Columns.wait_time_seconds
  .obj [("total_arrivals", .int rows.length),
    ("total_processed", .int (withStatus .processed).length),
    ("currently_in_queue", .int (withStatus .queued).length),
    ("currently_processing", .int (withStatus .processing).length),
    ("avg_wait_time_seconds", orZero (average waits)),
    ("max_wait_time_seconds", orZero (waits.max?.map fun t => (t : Rat))),
    ("min_wait_time_seconds", orZero (waits.min?.map fun t => (t : Rat))),
    ("gate_distribution", distribution ((withStatus .processed).map Columns.gate)),
    ("passport_distribution", distribution (rows.map fun r => r.passport_type.text)),
    ("priority_distribution", distribution (rows.map fun r => r.priority.text)),
    ("current_game_time", .float now)]

def getStats (w : World) : Json := statsOf w.now (w.rows.map Arrival.columns)

/-! ## without personal fields -/

def Guest.impersonal (g : Guest) : Guest :=
  { g with guest_id := "", name := "", surname := "", age := 0 }

def Arrival.impersonal (a : Arrival) : Arrival := { a with guest := a.guest.impersonal }

/-- the guests that wait or are being processed at a gate -/
def Gate.guests (gate : Gate) : List Nat :=
  gate.queue ++ gate.currently_processing.toList ++ gate.worker.bundle

def World.involved (w : World) : List Nat := w.heap.flatMap Gate.guests

def World.impersonal (w : World) : World :=
  { w with rows := updateAt w.involved (fun _ => Arrival.impersonal) w.rows
           guests := updateAt w.involved (fun _ => Arrival.impersonal) w.guests }

theorem Gate.places_eq_nil {gate : Gate} :
    gate.places = [] ↔ gate.queue = [] ∧ gate.currently_processing = none := by
  rw [Gate.places, List.append_eq_nil_iff, List.map_eq_nil_iff, List.zipIdx_eq_nil_iff,
    Option.toList_eq_nil_iff]
  exact And.comm

theorem Gate.mem_guests_of_places {gate : Gate} {x i : Nat} (h : (x, i) ∈ gate.places) :
    x ∈ gate.guests := by
  apply List.mem_append_left
  rcases List.mem_append.mp h with h | h
  · obtain ⟨y, hy, e⟩ := List.mem_map.mp h
    obtain rfl := (Prod.mk.inj e).1
    exact List.mem_append_right _ hy
  · exact List.mem_append_left _ (List.fst_mem_of_mem_zipIdx h)

theorem World.mem_heap_of_present {w : World} {gate : Gate} (h : gate ∈ w.present) :
    gate ∈ w.heap := by
  obtain ⟨g, _, hg⟩ := List.mem_filterMap.mp h
  exact List.mem_of_getElem? hg

theorem getStats_impersonal (w : World) : getStats w.impersonal = getStats w := by
  have h : w.impersonal.rows.map Arrival.columns = w.rows.map Arrival.columns :=
    map_updateAt (f := fun _ => Arrival.impersonal) (fun _ _ => rfl) _ _
  show statsOf w.now (w.impersonal.rows.map Arrival.columns) = _
  rw [h]
  rfl

theorem getAllGatesStatus_congr {w w' : World} (hg : w.gates = w'.gates) (hh : w.heap = w'.heap)
    (hn : w.now = w'.now) (hempty : ∀ gate ∈ w.present, gate.places = []) :
    getAllGatesStatus w = getAllGatesStatus w' := by
  have hp : w'.present = w.present := by rw [World.present, World.present, hg, hh]
  rw [getAllGatesStatus, getAllGatesStatus, hp, hn]
  have e : ∀ gate ∈ w.present.insertionSort fun a b => a.gate_id ≤ b.gate_id,
      w.gateStatus gate = w'.gateStatus gate := by
    intro gate hgate
    rw [World.gateStatus, World.gateStatus, hempty gate ((List.mem_insertionSort _).mp hgate)]
    rfl
  rw [List.map_congr_left e]

/-! ## a longer name -/

/-- the guest has a letter more in its name -/
def lengthen (_ : Nat) (a : Arrival) : Arrival :=
  { a with guest := { a.guest with name := a.guest.name ++ "a" } }

def World.renamed (w : World) (x : Nat) : World :=
  { w with rows := updateAt [x] lengthen w.rows, guests := updateAt [x] lengthen w.guests }

theorem updateAt_lengthen {ids : List Nat} {x : Nat} (hx : x ∈ ids) (l : List Arrival) :
    updateAt ids (fun _ => Arrival.impersonal) (updateAt [x] lengthen l) =
      updateAt ids (fun _ => Arrival.impersonal) l := by
  apply List.ext_getElem?
  intro i
  rw [updateAt, updateAt, updateAt, List.getElem?_mapIdx, List.getElem?_mapIdx,
    List.getElem?_mapIdx, Option.map_map]
  congr 1
  funext a
  show (if i ∈ ids then (if i ∈ [x] then lengthen i a else a).impersonal else
    if i ∈ [x] then lengthen i a else a) = if i ∈ ids then a.impersonal else a
  by_cases hi : i ∈ [x]
  · have hids : i ∈ ids := List.mem_singleton.mp hi ▸ hx
    rw [if_pos hids, if_pos hi, if_pos hids]
    rfl
  · rw [if_neg hi]

theorem renamed_impersonal {w : World} {x : Nat} (hx : x ∈ w.involved) :
    (w.renamed x).impersonal = w.impersonal := by
  show ({ w with
    rows := updateAt w.involved (fun _ => Arrival.impersonal) (updateAt [x] lengthen w.rows)
    guests := updateAt w.involved (fun _ => Arrival.impersonal) (updateAt [x] lengthen w.guests) } :
      World) = _
  rw [updateAt_lengthen hx, updateAt_lengthen hx]
  rfl

section
variable (showFloat : Rat → String)
open Json

theorem size_name (name : String) :
    memberSize showFloat ("name", .str (name ++ "a")) = memberSize showFloat ("name", .str name) + 1 := by
  have h : (quote (name ++ "a")).length = (quote name).length + 1 := length_quote_append name "a"
  show (quote "name").length + 2 + (quote (name ++ "a")).length =
    (quote "name").length + 2 + (quote name).length + 1
  omega

theorem width_second (a b : Nat) (l : List Nat) :
    width (a :: (b + 1) :: l) = width (a :: b :: l) + 1 := by
  rw [width, width, List.sum_cons, List.sum_cons, List.sum_cons, List.sum_cons]
  show a + (b + 1 + l.sum) + 2 * (l.length + 1) = a + (b + l.sum) + 2 * (l.length + 1) + 1
  omega

theorem size_recordMembers (x : Nat) (a : Arrival) (extra : List (String × Json)) :
    size showFloat (.obj (recordMembers x (lengthen x a) ++ extra)) =
      size showFloat (.obj (recordMembers x a ++ extra)) + 1 := by
  -- the name is the second member
  have h : width ((recordMembers x (lengthen x a) ++ extra).map (memberSize showFloat)) =
      width ((recordMembers x a ++ extra).map (memberSize showFloat)) + 1 := by
    show width (_ :: memberSize showFloat ("name", .str (a.guest.name ++ "a")) :: _) =
      width (_ :: memberSize showFloat ("name", .str a.guest.name) :: _) + 1
    rw [size_name]
    exact width_second _ _ _
  rw [size_obj, size_obj, h]

theorem entry_renamed_ne {w : World} {x : Nat} {p : Nat × Nat} (hp : p.1 ≠ x) :
    (w.renamed x).entry p = w.entry p := by
  have h : (w.renamed x).guests[p.1]? = w.guests[p.1]? := by
    show (updateAt [x] lengthen w.guests)[p.1]? = _
    rw [updateAt, List.getElem?_mapIdx]
    have hid : (fun a => if p.1 ∈ [x] then lengthen p.1 a else a) = id :=
      funext fun a => if_neg fun hm => hp (List.mem_singleton.mp hm)
    rw [hid, Option.map_id]
    rfl
  rw [World.entry, World.entry, h]
  rfl

theorem size_entry_renamed {w : World} {x i : Nat} (hx : x < w.guests.length) :
    size showFloat ((w.renamed x).entry (x, i)) = size showFloat (w.entry (x, i)) + 1 := by
  have h : (w.renamed x).guests[x]? = some (lengthen x w.guests[x]) := by
    show (updateAt [x] lengthen w.guests)[x]? = _
    rw [updateAt, List.getElem?_mapIdx, List.getElem?_eq_getElem hx]
    show some (if x ∈ [x] then _ else _) = _
    rw [if_pos (List.mem_singleton.mpr rfl)]
  rw [World.entry, World.entry, h, List.getElem?_eq_getElem hx]
  exact size_recordMembers showFloat x w.guests[x] _

theorem size_entry_le {w : World} {x : Nat} (hx : x < w.guests.length) (p : Nat × Nat) :
    size showFloat (w.entry p) ≤ size showFloat ((w.renamed x).entry p) := by
  by_cases hp : p.1 = x
  · obtain ⟨y, i⟩ := p
    obtain rfl : y = x := hp
    have := size_entry_renamed showFloat (i := i) hx
    omega
  · rw [entry_renamed_ne hp]

theorem size_gateStatus (w : World) (gate : Gate) :
    size showFloat (w.gateStatus gate) =
      memberSize showFloat ("gate_id", .str gate.gate_id) +
      memberSize showFloat ("gate_type", .str (Call.typeName gate.gate_type)) +
      memberSize showFloat ("queue_size", .int gate.places.length) +
      ((quote "queue").length + 2 + (width (gate.places.map fun p => size showFloat (w.entry p)) + 2))
      + 8 := by
  have h : size showFloat (.arr (gate.places.map w.entry)) =
      width (gate.places.map fun p => size showFloat (w.entry p)) + 2 := by
    rw [size_arr, List.map_map]
    rfl
  rw [World.gateStatus, size_obj]
  show _ + (_ + (_ + ((quote "queue").length + 2 + size showFloat (.arr (gate.places.map w.entry)) + 0)))
    + 2 * 3 + 2 = _
  rw [h]
  omega

theorem size_getAllGatesStatus (w : World) :
    size showFloat (getAllGatesStatus w) =
      ((quote "gates").length + 2 +
        (width (w.present.map fun gate => size showFloat (w.gateStatus gate)) + 2)) +
      memberSize showFloat
        ("total_queued", .int (Ledger.total (fun gate => gate.places.length) w.present)) +
      memberSize showFloat ("current_game_time", .float w.now) + 6 := by
  have h : size showFloat
      (.arr ((w.present.insertionSort fun a b => a.gate_id ≤ b.gate_id).map w.gateStatus)) =
      width (w.present.map fun gate => size showFloat (w.gateStatus gate)) + 2 := by
    rw [size_arr, List.map_map]
    exact congrArg (· + 2) (width_perm ((List.perm_insertionSort _ _).map _))
  rw [getAllGatesStatus, size_obj]
  show (quote "gates").length + 2 + size showFloat (.arr _) + (_ + (_ + 0)) + 2 * 2 + 2 = _
  rw [h]
  omega

/-- **A longer name of a guest that waits or is processed is a longer status.** -/
theorem size_renamed {w : World} {x i : Nat} {gate : Gate} (hx : x < w.guests.length)
    (hgate : gate ∈ w.present) (hp : (x, i) ∈ gate.places) :
    size showFloat (getAllGatesStatus w) < size showFloat (getAllGatesStatus (w.renamed x)) := by
  have hle : ∀ other : Gate, size showFloat (w.gateStatus other) ≤
      size showFloat ((w.renamed x).gateStatus other) := by
    intro other
    have := width_map_le (l := other.places) fun p _ => size_entry_le showFloat hx p
    rw [size_gateStatus, size_gateStatus]
    omega
  have hlt : size showFloat (w.gateStatus gate) < size showFloat ((w.renamed x).gateStatus gate) := by
    have hentry := size_entry_renamed showFloat (i := i) hx
    have := width_map_lt (l := gate.places) (fun p _ => size_entry_le showFloat hx p)
      ⟨(x, i), hp, by omega⟩
    rw [size_gateStatus, size_gateStatus]
    omega
  have hgates := width_map_lt (l := w.present) (fun other _ => hle other) ⟨gate, hgate, hlt⟩
  have hp : (w.renamed x).present = w.present := rfl
  have hn : (w.renamed x).now = w.now := rfl
  rw [size_getAllGatesStatus, size_getAllGatesStatus, hp, hn]
  omega

end

/-! ## valid references -/

/-- every row has a record, and the gates refer to guests that exist -/
structure World.Sound (w : World) : Prop where
  length : w.guests.length = w.rows.length
  gates : ∀ gate ∈ w.heap, ∀ x ∈ gate.guests, x < w.guests.length

theorem Gate.mem_guests {gate : Gate} {x : Nat} :
    x ∈ gate.guests ↔ x ∈ gate.queue ∨ x ∈ gate.currently_processing ∨ x ∈ gate.worker.bundle := by
  rw [Gate.guests, List.mem_append, List.mem_append, Option.mem_toList, or_assoc]
  rfl

theorem Works.sound {cfg : Config} {w w' : World} {g : Nat} {gate : Gate} (h : w.Sound)
    (hg : w.heap[g]? = some gate) (hw : Works cfg w g gate w') :
    w'.Sound ∧ w'.guests.length = w.guests.length := by
  have hgate := h.gates gate (List.mem_of_getElem? hg)
  have change : ∀ gate' : Gate, (∀ x ∈ gate'.guests, x ∈ gate.guests) →
      ∀ u ∈ w.heap.set g gate', ∀ x ∈ u.guests, x < w.guests.length := by
    intro gate' hsub u hu x hx
    rcases List.mem_or_eq_of_mem_set hu with hu | rfl
    · exact h.gates u hu x hx
    · exact hgate x (hsub x hx)
  cases hw with
  | idle gate' guests hid hq hb hu hm hcp hlen =>
    refine ⟨⟨hlen.trans h.length, ?_⟩, hlen⟩
    show ∀ u ∈ w.heap.set g gate', ∀ x ∈ u.guests, x < guests.length
    rw [hlen]
    refine change gate' ?_
    intro x hx
    rw [Gate.mem_guests, hq, hb] at hx
    rw [Gate.mem_guests]
    rcases hx with hx | hx | hx
    · exact .inl hx
    · rw [← hb]
      exact .inr (hcp x hx)
    · exact .inr (.inr hx)
  | pick gate' guests hw hid hq hb hu hm hcp hlen =>
    refine ⟨⟨hlen.trans h.length, ?_⟩, hlen⟩
    show ∀ u ∈ w.heap.set g gate', ∀ x ∈ u.guests, x < guests.length
    rw [hlen]
    refine change gate' ?_
    intro x hx
    have hbundle : x ∈ gate'.worker.bundle → x ∈ gate.queue := fun hx =>
      (pickNext_perm (w.reads cfg) gate.queue).mem_iff.mp (List.mem_append_left _ (hb ▸ hx))
    rw [Gate.mem_guests] at hx ⊢
    rcases hx with hx | hx | hx
    · exact .inl ((pickNext_perm (w.reads cfg) gate.queue).mem_iff.mp
        (List.mem_append_right _ (hq ▸ hx)))
    · exact (hcp x hx).elim (fun hx => .inr (.inl hx)) fun hx => .inl (hbundle hx)
    · exact .inl (hbundle hx)
  | hold bundle held hw =>
    refine ⟨⟨h.length.trans List.length_mapIdx.symm, change _ fun x hx => ?_⟩, rfl⟩
    rw [Gate.mem_guests] at hx ⊢
    refine hx.imp id (Or.imp id ?_)
    intro hx
    replace hx : x ∈ (World.afterHeld bundle).bundle := hx
    rw [afterHeld_bundle] at hx
    rw [hw]
    exact hx
  | mark bundle hw =>
    refine ⟨⟨h.length.trans List.length_mapIdx.symm, change _ fun x hx => ?_⟩, rfl⟩
    rw [Gate.mem_guests] at hx ⊢
    refine hx.imp id (Or.imp id ?_)
    intro hx
    rw [hw]
    exact hx
  | complete bundle hw =>
    refine ⟨⟨h.length.trans List.length_mapIdx.symm, change _ fun x hx => ?_⟩, rfl⟩
    rw [Gate.mem_guests] at hx ⊢
    exact hx.imp id (Or.imp id fun hx => absurd hx List.not_mem_nil)
  | publish y left hw =>
    refine ⟨⟨h.length, change _ fun x hx => ?_⟩, rfl⟩
    rw [Gate.mem_guests] at hx ⊢
    exact hx.imp id (Or.imp id fun hx => absurd hx List.not_mem_nil)

section
variable {cfg : Config} {w w' : World} {call call' : Call}

theorem World.Sound.modify (h : w.Sound) (g : Nat) {f : Gate → Gate}
    (hf : ∀ gate ∈ w.heap, ∀ x ∈ (f gate).guests, x < w.guests.length) :
    (w.modifyGate g f).Sound := by
  refine ⟨h.length, ?_⟩
  intro u hu
  obtain ⟨j, hj⟩ := List.mem_iff_getElem?.mp hu
  exact forall_modify (P := fun _ u => ∀ x ∈ u.guests, x < w.guests.length)
    (fun _ gate hgate => h.gates gate (List.mem_of_getElem? hgate))
    (fun gate hgate => hf gate (List.mem_of_getElem? hgate)) j u hj

theorem World.Sound.join (h : w.Sound) (g : Nat) {y : Nat} (hy : y < w.guests.length) :
    (w.join g y).Sound := by
  refine h.modify g ?_
  intro gate hgate x hx
  rw [Gate.mem_guests] at hx
  rcases hx with hx | hx
  · rcases mem_enqueue.mp hx with rfl | hx
    · exact hy
    · exact h.gates gate hgate x (Gate.mem_guests.mpr (.inl hx))
  · exact h.gates gate hgate x (Gate.mem_guests.mpr (.inr hx))

theorem Moves.sound (h : w.Sound) (hp : ∀ x ∈ call.pending, x < w.guests.length)
    (hm : Moves cfg w call w' call') :
    w'.Sound ∧ (∀ x ∈ call'.pending, x < w'.guests.length) ∧
      w.guests.length ≤ w'.guests.length := by
  cases hm with
  | idle call call' hi hpend hr =>
    rw [hpend]
    exact ⟨h, hp, Nat.le_refl _⟩
  | insert guest g queued_at gate =>
    have hlen : (w.insertRow guest queued_at gate.gate_id).guests.length = w.guests.length + 1 :=
      List.length_append
    refine ⟨⟨?_, fun u hu x hx => ?_⟩, fun x hx => ?_, by omega⟩
    · rw [hlen, h.length]
      show _ = (w.rows ++ [_]).length
      rw [List.length_append]
      rfl
    · have := h.gates u hu x hx
      omega
    · have e : x = w.rows.length := List.mem_singleton.mp hx
      have := h.length
      omega
  | enqueue g y gate reply hg =>
    exact ⟨h.join g (hp y List.mem_cons_self), fun _ hx => absurd hx List.not_mem_nil, Nat.le_refl _⟩
  | register gate_id type =>
    refine ⟨⟨h.length, fun u hu x hx => ?_⟩, fun _ hx => absurd hx List.not_mem_nil, Nat.le_refl _⟩
    rcases List.mem_append.mp hu with hu | hu
    · exact h.gates u hu x hx
    · rw [List.mem_singleton.mp hu] at hx
      exact absurd hx List.not_mem_nil
  | deactivate k => exact ⟨h.modify k.gate fun gate hgate x hx => h.gates gate hgate x hx, hp, Nat.le_refl _⟩
  | displace k gate n hg =>
    have hlen : (w.displace k.gate gate).guests.length = w.guests.length := List.length_mapIdx
    have hmod := h.modify k.gate (f := fun gate =>
      { gate with queue := [], currently_processing := none }) fun gate hgate x hx =>
        h.gates gate hgate x (Gate.mem_guests.mpr (.inr (.inr hx)))
    refine ⟨⟨hlen.trans h.length, ?_⟩, fun x hx => ?_, Nat.le_of_eq hlen.symm⟩
    · rw [hlen]
      exact hmod.gates
    · rw [hlen]
      have hgate := h.gates gate (List.mem_of_getElem? hg) x
      rw [Gate.mem_guests] at hgate
      rcases List.mem_append.mp hx with hx | hx
      · exact hgate (.inr (.inl (Option.mem_toList.mp hx)))
      · exact hgate (.inl hx)
  | retarget k y left dest gate_id =>
    have hlen : (w.retarget y gate_id).guests.length = w.guests.length := List.length_mapIdx
    refine ⟨⟨hlen.trans h.length, ?_⟩, ?_, Nat.le_of_eq hlen.symm⟩
    · rw [hlen]
      exact h.gates
    · rw [hlen]
      exact hp
  | requeue k dest y left gate hg =>
    exact ⟨h.join dest (hp y List.mem_cons_self), fun x hx => hp x (List.mem_cons_of_mem _ hx),
      Nat.le_refl _⟩
  | record k dest y left gate_id =>
    exact ⟨⟨h.length.trans List.length_mapIdx.symm, h.gates⟩, hp, Nat.le_refl _⟩
  | delete k => exact ⟨⟨h.length, h.gates⟩, hp, Nat.le_refl _⟩
  | missing k hk => exact ⟨h, hp, Nat.le_refl _⟩

end

/-- **In every state of every run the references to guests are valid.** -/
theorem run_sound {cfg : Config} {acts : List (PoolAct Api Env Unit)} {s : State}
    (hrun : (airport cfg).machine.Runs free (State.init cfg) acts s) : s.shared.Sound := by
  have h := Sys.inv (I := World.Sound) (T := fun w call => ∀ x ∈ call.pending, x < w.guests.length)
    hrun ?_ ?_ ?_ ?_
  · exact h.shared
  · intro w r _ x hx
    replace hx : x ∈ r.start.pending := hx
    rw [start_pending] at hx
    exact absurd hx List.not_mem_nil
  · intro w e w' hw he
    cases e with
    | work g =>
      obtain ⟨gate, hg, hworks⟩ := work_works he
      obtain ⟨hs, hlen⟩ := hworks.sound hw hg
      refine ⟨hs, ?_⟩
      intro call hc x hx
      rw [hlen]
      exact hc x hx
    | tick d =>
      obtain rfl := Option.some.inj he
      exact ⟨⟨hw.length, hw.gates⟩, fun _ hc => hc⟩
  · intro s i a call w' call' hs _ hi hst
    obtain ⟨hw, hp, hle⟩ :=
      (step_moves hst).sound hs.shared (hs.threads call (List.mem_of_getElem? hi))
    exact ⟨hw, hp, fun other ho x hx => Nat.lt_of_lt_of_le (ho x hx) hle⟩
  · have hf := World.init_fresh cfg
    refine ⟨⟨?_, fun gate hg x hx => ?_⟩, fun call hc => absurd hc List.not_mem_nil⟩
    · show (World.init cfg).guests.length = (World.init cfg).rows.length
      rw [hf.guests, hf.rows]
    · obtain ⟨hq, hw, hcp⟩ := hf.gates gate hg
      rw [Gate.guests, hq, hw, hcp] at hx
      exact absurd hx List.not_mem_nil

end Airport
