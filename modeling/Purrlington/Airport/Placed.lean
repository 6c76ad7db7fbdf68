import Purrlington.Airport.Processed
import Purrlington.Airport.Upkeep

/-!
# Airport: whoever is at a gate can be found there

The dictionary leads from an id to its gate, the row of a guest to the id, and `currently_processing`
to the first guest of the bundle.  A call may break each of these for others: it enqueues at a gate
that has left the dictionary, it takes away a gate with guests, and it writes the row of a guest that
another call has moved on since.

* `InPlace`              the condition on the calls;
* `World.Catalogued`     the keys are the names of their gates, and a gate with guests is among them;
* `Gate.Booth`           the booth has the first guest of the bundle;
* `Placed`               the invariant: with these two, whoever is at a gate has a row that names it,
                         or a call is about to write that name;
* `run_placed`           the law under that condition, over all runs.
-/

set_option linter.unusedSectionVars false

namespace Airport
open SM Ledger

instance (gate : Gate) (x : Nat) : Decidable (gate.Has x) := inferInstanceAs (Decidable (_ ∨ _))

/-! ## the condition -/

/-- nobody is at the gate that has the id, if there is one -/
def World.VacantAt (w : World) (gate_id : String) : Prop :=
  ∀ g ∈ w.gates.get? gate_id, ∀ gate ∈ w.heap[g]?, gate.queue = [] ∧ gate.worker.bundle = []

instance (w : World) (gate_id : String) : Decidable (w.VacantAt gate_id) := inferInstanceAs
  (Decidable (∀ g ∈ w.gates.get? gate_id, ∀ gate ∈ w.heap[g]?, _))

/-- the gate and the guest whose row the call is about to write the id of the gate into -/
def Call.recordedAt : Call → Option (Nat × Nat)
  | .record _ dest x _ => some (dest, x)
  | _ => none

/-- guests are enqueued at gates of the dictionary, a gate leaves it when nobody is there, and the row
of a guest gets the id of a gate unless the guest is at another one by now, whose id no other call is
about to write -/
def Call.InPlace (s : State) (i : Nat) : Call → Prop
  | .enqueue g _ => g ∈ s.shared.gates.values
  | .requeue _ dest _ _ => dest ∈ s.shared.gates.values
  | .record _ dest x _ => ∀ g < s.shared.heap.length, ∀ gate ∈ s.shared.heap[g]?, gate.Has x →
      g = dest ∨ ∃ call ∈ s.threads.eraseIdx i, call.recordedAt = some (g, x)
  | .delete k => s.shared.VacantAt k.gate_id
  | .register gate_id _ => s.shared.VacantAt gate_id
  | _ => True

instance (s : State) (i : Nat) : ∀ call : Call, Decidable (call.InPlace s i)
  | .enqueue g _ => inferInstanceAs (Decidable (g ∈ s.shared.gates.values))
  | .requeue _ dest _ _ => inferInstanceAs (Decidable (dest ∈ s.shared.gates.values))
  | .record _ _ _ _ => inferInstanceAs (Decidable (∀ g < s.shared.heap.length, _))
  | .delete k => inferInstanceAs (Decidable (s.shared.VacantAt k.gate_id))
  | .register gate_id _ => inferInstanceAs (Decidable (s.shared.VacantAt gate_id))
  | .choose _ | .insert _ _ _ | .accepted _ | .check _ _ | .opened | .lookup _ | .deactivate _
  | .displace _ | .target _ _ | .closed _ | .failed _ => isTrue trivial

/-- no call takes a guest out of place, nor does one disturb the processing -/
def InPlace (s : State) : PoolAct Api Env Unit → Prop
  | .step i a => Undisturbed s (.step i a) ∧ ∀ call ∈ s.threads[i]?, call.InPlace s i
  | act => Undisturbed s act

instance (s : State) : ∀ act, Decidable (InPlace s act)
  | .step i a => inferInstanceAs
      (Decidable (Undisturbed s (.step i a) ∧ ∀ call ∈ s.threads[i]?, call.InPlace s i))
  | .spawn r => inferInstanceAs (Decidable (Undisturbed s (.spawn r)))
  | .env e => inferInstanceAs (Decidable (Undisturbed s (.env e)))

theorem InPlace.undisturbed {s : State} {act : PoolAct Api Env Unit} (h : InPlace s act) :
    Undisturbed s act := by
  cases act with
  | spawn r => exact h
  | env e => exact h
  | step i a => exact h.1

/-! ## the dictionary -/

/-- the keys are the names of their gates, and a gate with guests has its own name as its key -/
structure World.Catalogued (w : World) : Prop where
  keyed : ∀ k g, w.gates.get? k = some g → ∃ gate, w.heap[g]? = some gate ∧ gate.gate_id = k
  listed : ∀ g gate, w.heap[g]? = some gate → ∀ x, gate.Has x →
    w.gates.get? gate.gate_id = some g

/-- the booth has the first guest of the bundle, until the bundle is done -/
def Gate.Booth (gate : Gate) : Prop :=
  (∃ left, gate.worker = .publishing left) ∨
    gate.currently_processing = gate.worker.bundle.head?

section
variable {cfg : Config} {s : State} {w w' : World} {g i : Nat} {gate gate' : Gate}
  {call call' : Call}

theorem World.Catalogued.get (h : w.Catalogued) (hg : w.heap[g]? = some gate)
    (hv : g ∈ w.gates.values) : w.gates.get? gate.gate_id = some g := by
  obtain ⟨k, hk⟩ := Dict.mem_values_iff.mp hv
  obtain ⟨u, hu, rfl⟩ := h.keyed k g hk
  obtain rfl := Option.some.inj (hg.symm.trans hu)
  exact hk

theorem World.Catalogued.set (h : w.Catalogued) (hg : w.heap[g]? = some gate)
    (hheap : w'.heap = w.heap.set g gate') (hgates : w'.gates = w.gates)
    (hid : gate'.gate_id = gate.gate_id)
    (hhas : ∀ x, gate'.Has x → gate.Has x ∨ g ∈ w.gates.values) : w'.Catalogued := by
  refine ⟨fun k j hk => ?_, ?_⟩
  · rw [hgates] at hk
    obtain ⟨u, hu, hku⟩ := h.keyed k j hk
    rw [hheap]
    by_cases e : g = j
    · subst e
      obtain rfl := Option.some.inj (hg.symm.trans hu)
      exact ⟨gate', List.getElem?_set_self (List.getElem?_eq_some_iff.mp hg).1, hid.trans hku⟩
    · exact ⟨u, (List.getElem?_set_ne e).trans hu, hku⟩
  · rw [hheap, hgates]
    refine forall_set (fun j u _ hu x hx => h.listed j u hu x hx) fun x hx => ?_
    rw [hid]
    rcases hhas x hx with hx | hv
    · exact h.listed g gate hg x hx
    · exact h.get hg hv

theorem World.Catalogued.modify (h : w.Catalogued) (g : Nat) {f : Gate → Gate}
    (hid : ∀ gate, (f gate).gate_id = gate.gate_id)
    (hhas : ∀ gate x, (f gate).Has x → gate.Has x ∨ g ∈ w.gates.values) :
    (w.modifyGate g f).Catalogued := by
  rcases hg : w.heap[g]? with _ | gate
  · have hheap : (w.modifyGate g f).heap = w.heap :=
      List.modify_eq_self (List.getElem?_eq_none_iff.mp hg)
    refine ⟨?_, ?_⟩
    · rw [hheap]
      exact h.keyed
    · rw [hheap]
      exact h.listed
  · exact h.set hg (modify_eq_set hg f) rfl (hid gate) (hhas gate)

theorem World.Catalogued.congr (h : w.Catalogued) (hh : w'.heap = w.heap) (hg : w'.gates = w.gates) :
    w'.Catalogued := by
  refine ⟨?_, ?_⟩
  · rw [hh, hg]
    exact h.keyed
  · rw [hh, hg]
    exact h.listed

/-- an id whose gate nobody is at is given to a new gate -/
theorem World.Catalogued.register (h : w.Catalogued) {gate_id : String} (hv : w.VacantAt gate_id)
    (type : GateType) : (w.register cfg gate_id type).Catalogued := by
  refine ⟨fun k g hk => ?_, forall_snoc (fun g u hu x hx => ?_) fun x hx => ?_⟩
  · by_cases e : k = gate_id
    · subst e
      obtain rfl := Option.some.inj ((Dict.get?_set_self w.gates k _).symm.trans hk)
      exact ⟨_, List.getElem?_concat_length, rfl⟩
    · obtain ⟨u, hu, hid⟩ := h.keyed k g ((Dict.get?_set_ne w.gates e _).symm.trans hk)
      exact ⟨u, (List.getElem?_append_left (List.getElem?_eq_some_iff.mp hu).1).trans hu, hid⟩
  · have hk := h.listed g u hu x hx
    refine (Dict.get?_set_ne w.gates ?_ _).trans hk
    rintro rfl
    obtain ⟨hq, hb⟩ := hv g hk u hu
    exact Gate.not_has hq hb x hx
  · exact absurd hx (not_or.mpr ⟨List.not_mem_nil, List.not_mem_nil⟩)

/-- a gate leaves the dictionary when nobody is there -/
theorem World.Catalogued.remove (h : w.Catalogued) {gate_id : String} (hv : w.VacantAt gate_id) :
    (w.remove gate_id).Catalogued := by
  refine ⟨fun k g hk => ?_, fun g u hu x hx => ?_⟩
  · by_cases e : k = gate_id
    · subst e
      exact absurd ((Dict.get?_del_self w.gates k).symm.trans hk) (by simp)
    · exact h.keyed k g ((Dict.get?_del_ne w.gates e).symm.trans hk)
  · have hk := h.listed g u hu x hx
    refine (Dict.get?_del_ne w.gates ?_).trans hk
    rintro rfl
    obtain ⟨hq, hb⟩ := hv g hk u hu
    exact Gate.not_has hq hb x hx

/-! ## a step of a worker -/

/-- a step of a worker changes its gate: nobody comes to it, and the booth has the first guest of the
bundle -/
theorem work_moves (h : w.work cfg g = some w') : ∃ gate gate', w.heap[g]? = some gate ∧
    w'.heap = w.heap.set g gate' ∧ w'.gates = w.gates ∧ gate'.gate_id = gate.gate_id ∧
    (∀ x, gate'.Has x → gate.Has x) ∧ (gate.Booth → gate'.Booth) := by
  obtain ⟨gate, gate', w₁, hg, hs, rfl⟩ := work_step h
  -- the worker moves on with the bundle that it has
  have move : ∀ worker : Worker, worker.bundle = gate.worker.bundle →
      (∀ left, gate.worker ≠ .publishing left) →
      (∀ x, Gate.Has { gate with worker := worker } x → gate.Has x) ∧
        (gate.Booth → Gate.Booth { gate with worker := worker }) := by
    intro worker hb hp
    refine ⟨fun x hx => hx.imp id fun hx => ?_, fun hbooth => .inr ?_⟩
    · rw [← hb]
      exact hx
    · show gate.currently_processing = worker.bundle.head?
      rw [hb]
      exact hbooth.resolve_left (not_exists.mpr hp)
  cases hs with
  | head hw =>
    refine ⟨gate, _, hg, rfl, rfl, rfl, move _ ?_ fun left e => ?_⟩
    · rw [hw]
      split <;> rfl
    · exact absurd (hw.symm.trans e) (by simp)
  | ready hw =>
    refine ⟨gate, _, hg, rfl, rfl, rfl, fun x hx => .inl ?_, fun hbooth => .inr ?_⟩
    · have hperm := pickNext_perm (w.reads cfg) gate.queue
      refine hperm.mem_iff.mp (List.mem_append.mpr ?_)
      rcases hx with hx | hx
      · exact .inr hx
      · replace hx : x ∈ Worker.bundle (if _ then _ else _) := hx
        rw [pick_bundle] at hx
        exact .inl hx
    · have hcp : gate.currently_processing = none := by
        rcases hbooth with ⟨left, e⟩ | e
        · exact absurd (hw.symm.trans e) (by simp)
        · rw [e, hw]
          rfl
      show _ = (Worker.bundle (if _ then _ else _)).head?
      rw [pick_bundle]
      dsimp only
      cases (pickNext (w.reads cfg) gate.queue).bundle with
      | none => exact hcp
      | some bundle => rfl
  | holding bundle held hw =>
    refine ⟨gate, _, hg, rfl, rfl, rfl, move _ ?_ fun left e => absurd (hw.symm.trans e) (by simp)⟩
    rw [hw, afterHeld_bundle]
    rfl
  | marking bundle hw =>
    refine ⟨gate, _, hg, rfl, rfl, rfl, move _ ?_ fun left e => absurd (hw.symm.trans e) (by simp)⟩
    rw [hw]
    rfl
  | processing bundle hw =>
    refine ⟨gate, _, hg, rfl, rfl, rfl, move _ ?_ fun left e => absurd (hw.symm.trans e) (by simp)⟩
    rw [hw]
    rfl
  | recording bundle hw =>
    refine ⟨gate, _, hg, rfl, rfl, rfl, fun x hx => ?_, fun _ => .inl ⟨_, rfl⟩⟩
    exact hx.imp id fun hx => absurd hx List.not_mem_nil
  | publishing y left hw =>
    refine ⟨gate, _, hg, rfl, rfl, rfl, fun x hx => ?_, fun _ => .inl ⟨_, rfl⟩⟩
    exact hx.imp id fun hx => absurd hx List.not_mem_nil
  | done hw =>
    refine ⟨gate, _, hg, rfl, rfl, rfl, fun x hx => ?_, fun _ => .inr rfl⟩
    exact hx.imp id fun hx => absurd hx List.not_mem_nil

/-! ## a step of a call -/

theorem Moves.catalogued (h : s.shared.Catalogued) (hin : call.InPlace s i)
    (hm : Moves cfg s.shared call w' call') : w'.Catalogued := by
  cases hm with
  | enqueue g x gate reply hg => exact h.modify g (fun _ => rfl) fun _ _ _ => .inr hin
  | requeue k dest x left gate hg => exact h.modify dest (fun _ => rfl) fun _ _ _ => .inr hin
  | deactivate k => exact h.modify k.gate (fun _ => rfl) fun _ _ hx => .inl hx
  | displace k gate n hg =>
    have hmod := h.modify k.gate
      (f := fun gate => { gate with queue := [], currently_processing := none }) (fun _ => rfl)
      fun _ _ hx => .inl (.inr (hx.resolve_left List.not_mem_nil))
    exact hmod.congr rfl rfl
  | register gate_id type => exact h.register hin type
  | delete k => exact h.remove hin
  | _ => exact h.congr rfl rfl

theorem Gate.Booth.modify (h : ∀ gate ∈ w.heap, gate.Booth) {f : Gate → Gate}
    (hf : ∀ gate, w.heap[g]? = some gate → gate.Booth → (f gate).Booth) :
    ∀ gate ∈ (w.modifyGate g f).heap, gate.Booth := by
  intro u hu
  obtain ⟨j, hj⟩ := List.mem_iff_getElem?.mp hu
  exact forall_modify (P := fun _ gate => gate.Booth)
    (fun _ gate hgate => h gate (List.mem_of_getElem? hgate))
    (fun gate hgate => hf gate hgate (h gate (List.mem_of_getElem? hgate))) j u hj

theorem Moves.booth (h : ∀ gate ∈ w.heap, gate.Booth) (hund : call.Undisturbing w)
    (hm : Moves cfg w call w' call') : ∀ gate ∈ w'.heap, gate.Booth := by
  cases hm with
  | enqueue g x gate reply hg => exact Gate.Booth.modify h fun _ _ hb => hb
  | requeue k dest x left gate hg => exact Gate.Booth.modify h fun _ _ hb => hb
  | deactivate k => exact Gate.Booth.modify h fun _ _ hb => hb
  | displace k gate n hg =>
    have hmod := Gate.Booth.modify (g := k.gate)
      (f := fun gate => { gate with queue := [], currently_processing := none }) h
      fun gate hgate hb => hb.imp id fun e => (hund gate hgate).symm.trans e
    exact hmod
  | register gate_id type =>
    intro u hu
    rcases List.mem_append.mp hu with hu | hu
    · exact h u hu
    · rw [List.mem_singleton.mp hu]
      exact .inr rfl
  | _ => exact h

end

/-! ## the invariant -/

/-- the gate that the row of the guest names -/
def World.gateOf (w : World) (x : Nat) : Option String := w.rows[x]?.map Arrival.gate

structure Placed (s : State) : Prop where
  catalogued : s.shared.Catalogued
  booth : ∀ gate ∈ s.shared.heap, gate.Booth
  named : ∀ g gate, s.shared.heap[g]? = some gate → ∀ x, gate.Has x →
    s.shared.gateOf x = some gate.gate_id ∨ ∃ call ∈ s.threads, call.recordedAt = some (g, x)
  assigned : ∀ g x, .enqueue g x ∈ s.threads →
    (∃ gate, s.shared.heap[g]? = some gate ∧ s.shared.gateOf x = some gate.gate_id) ∧
      ∀ call ∈ s.threads, call.recorded ≠ some x
  written : ∀ call ∈ s.threads, ∀ x ∈ call.recorded, x < s.shared.rows.length
  guests : s.shared.guests.map Arrival.guest = s.shared.rows.map Arrival.guest

section
variable {cfg : Config} {s : State} {w w' : World} {g i : Nat} {gate : Gate} {call call' : Call}

theorem gateOf_of_keys (h : w'.rows.map Arrival.key = w.rows.map Arrival.key) (x : Nat) :
    w'.gateOf x = w.gateOf x := by
  have hg := congrArg (List.map fun k : Guest × Int × String => k.2.2) h
  rw [List.map_map, List.map_map] at hg
  rw [World.gateOf, World.gateOf, ← List.getElem?_map, ← List.getElem?_map]
  exact congrArg (fun l : List String => l[x]?) hg

theorem gateOf_insertRow (w : World) (guest : Guest) (t : Int) (gate_id : String) (x : Nat) :
    (w.insertRow guest t gate_id).gateOf x =
      if x = w.rows.length then some gate_id else w.gateOf x := by
  show (w.rows ++ [_])[x]?.map Arrival.gate = _
  rw [List.getElem?_append]
  by_cases hlt : x < w.rows.length
  · rw [if_pos hlt, if_neg (Nat.ne_of_lt hlt)]
    rfl
  · rw [if_neg hlt]
    split
    · rename_i e
      rw [e, Nat.sub_self]
      rfl
    · rw [World.gateOf, List.getElem?_eq_none (by rw [List.length_singleton]; omega),
        List.getElem?_eq_none (by omega)]

theorem gateOf_recordRow (w : World) (y : Nat) (gate_id : String) (x : Nat) :
    (w.recordRow y gate_id).gateOf x =
      if x = y then (w.gateOf x).map fun _ => gate_id else w.gateOf x := by
  show (updateAt [y] _ w.rows)[x]?.map Arrival.gate = _
  rw [getElem?_updateAt]
  by_cases e : x = y
  · have hmem : x ∈ [y] := List.mem_singleton.mpr e
    rw [if_pos e]
    simp only [hmem, if_true, World.gateOf, Option.map_map, Function.comp_def]
  · have hmem : x ∉ [y] := fun hm => e (List.mem_singleton.mp hm)
    simp only [hmem, e, if_false, World.gateOf, Option.map_id']

theorem Moves.gate_ids (hm : Moves cfg w call w' call') (hg : w.heap[g]? = some gate) :
    ∃ gate', w'.heap[g]? = some gate' ∧ gate'.gate_id = gate.gate_id := by
  have modify : ∀ (j : Nat) (f : Gate → Gate), (∀ gate, (f gate).gate_id = gate.gate_id) →
      ∃ gate', (w.heap.modify j f)[g]? = some gate' ∧ gate'.gate_id = gate.gate_id := by
    intro j f hf
    rw [List.getElem?_modify, hg]
    refine ⟨_, rfl, ?_⟩
    split
    · exact hf gate
    · rfl
  cases hm with
  | enqueue j x gate reply _ => exact modify j _ fun _ => rfl
  | requeue k dest x left gate _ => exact modify dest _ fun _ => rfl
  | deactivate k => exact modify k.gate _ fun _ => rfl
  | displace k gate n _ => exact modify k.gate _ fun _ => rfl
  | register gate_id type =>
    exact ⟨gate, (List.getElem?_append_left (List.getElem?_eq_some_iff.mp hg).1).trans hg, rfl⟩
  | _ => exact ⟨gate, hg, rfl⟩

/-- where a guest at a gate has come from: it was there, or the call has just enqueued it -/
theorem Moves.has (hm : Moves cfg w call w' call') (hg : w'.heap[g]? = some gate) {x : Nat}
    (hx : gate.Has x) : (∃ u, w.heap[g]? = some u ∧ u.gate_id = gate.gate_id ∧ u.Has x) ∨
      call = .enqueue g x ∨ ∃ k left, call = .requeue k g x left := by
  have modify : ∀ (j : Nat) (f : Gate → Gate), (w.heap.modify j f)[g]? = some gate →
      (∀ gate, (f gate).gate_id = gate.gate_id) → (∀ u, j = g → (f u).Has x → u.Has x) →
      ∃ u, w.heap[g]? = some u ∧ u.gate_id = gate.gate_id ∧ u.Has x := by
    intro j f hmod hf hhas
    rw [List.getElem?_modify] at hmod
    obtain ⟨u, hu, rfl⟩ := Option.map_eq_some_iff.mp hmod
    split at hx
    · rename_i e
      exact ⟨u, hu, by rw [if_pos e, hf], hhas u e hx⟩
    · rename_i e
      exact ⟨u, hu, by rw [if_neg e], hx⟩
  cases hm with
  | enqueue j y u reply _ =>
    by_cases e : j = g ∧ x = y
    · obtain ⟨rfl, rfl⟩ := e
      exact .inr (.inl rfl)
    · refine .inl (modify j _ hg (fun _ => rfl) fun u ej hx => hx.imp (fun hx => ?_) id)
      exact (mem_enqueue.mp hx).resolve_left fun ex => e ⟨ej, ex⟩
  | requeue k dest y left u _ =>
    by_cases e : dest = g ∧ x = y
    · obtain ⟨rfl, rfl⟩ := e
      exact .inr (.inr ⟨k, left, rfl⟩)
    · refine .inl (modify dest _ hg (fun _ => rfl) fun u ej hx => hx.imp (fun hx => ?_) id)
      exact (mem_enqueue.mp hx).resolve_left fun ex => e ⟨ej, ex⟩
  | deactivate k => exact .inl (modify k.gate _ hg (fun _ => rfl) fun _ _ hx => hx)
  | displace k u n _ =>
    refine .inl (modify k.gate _ hg (fun _ => rfl) fun _ _ hx => .inr ?_)
    exact hx.resolve_left List.not_mem_nil
  | register gate_id type =>
    refine .inl (forall_snoc (l := w.heap) (P := fun g u => u.Has x →
      ∃ v, w.heap[g]? = some v ∧ v.gate_id = u.gate_id ∧ v.Has x) (fun j u hu hx => ⟨u, hu, rfl, hx⟩)
      (fun hx => absurd hx ?_) g gate hg hx)
    exact not_or.mpr ⟨List.not_mem_nil, List.not_mem_nil⟩
  | _ => exact .inl ⟨gate, hg, rfl, hx⟩

theorem record_gateOf {k : Closing} {dest x : Nat} {left : List Nat}
    (h : Call.step cfg w (.record k dest x left) = some (w', call')) (hx : x < w.rows.length) :
    ∃ gate, w.heap[dest]? = some gate ∧ w'.gateOf x = some gate.gate_id := by
  obtain ⟨gate, hg, e⟩ := Option.map_eq_some_iff.mp h
  obtain ⟨rfl, rfl⟩ := Prod.mk.inj e
  refine ⟨gate, hg, ?_⟩
  rw [gateOf_recordRow, if_pos rfl, World.gateOf, List.getElem?_eq_getElem hx]
  rfl

theorem Moves.gateOf_ne (hm : Moves cfg w call w' call') {x : Nat} (hr : call.recorded ≠ some x)
    (hx : x < w.rows.length) : w'.gateOf x = w.gateOf x := by
  cases hm with
  | insert guest g t gate => rw [gateOf_insertRow, if_neg (Nat.ne_of_lt hx)]
  | record k dest y left gate_id =>
    rw [gateOf_recordRow, if_neg]
    rintro rfl
    exact hr rfl
  | _ => rfl

/-- a guest that a call is about to enqueue has just been inserted, with the id of the gate -/
theorem step_enqueue {x : Nat} (h : call.step cfg w = some (w', .enqueue g x)) :
    x = w.rows.length ∧
      ∃ gate, w'.heap[g]? = some gate ∧ w'.gateOf x = some gate.gate_id := by
  cases call with
  | insert guest j t =>
    obtain ⟨gate, hg, e⟩ := Option.map_eq_some_iff.mp h
    obtain ⟨rfl, hcall⟩ := Prod.mk.inj e
    obtain ⟨rfl, rfl⟩ := Call.enqueue.inj hcall
    refine ⟨rfl, gate, hg, ?_⟩
    rw [gateOf_insertRow, if_pos rfl]
  | choose guest =>
    rw [Call.step] at h
    split at h <;> exact absurd (Prod.mk.inj (Option.some.inj h)).2 (by simp)
  | check gate_id gate_type =>
    have hp := (checkOpen_idle w gate_id gate_type).1
    rw [(Prod.mk.inj (Option.some.inj h)).2] at hp
    exact absurd hp (by simp [Call.pending])
  | lookup gate_id =>
    obtain ⟨c, hc, e⟩ := Option.map_eq_some_iff.mp h
    obtain ⟨_, rfl⟩ := Prod.mk.inj e
    exact absurd (lookupClose_idle hc).1 (by simp [Call.pending])
  | target k left =>
    cases left with
    | nil => exact absurd (Prod.mk.inj (Option.some.inj h)).2 (by simp)
    | cons y left =>
      obtain ⟨gate, _, e⟩ := Option.map_eq_some_iff.mp h
      exact absurd (Prod.mk.inj e).2 (by simp)
  | delete k =>
    rw [Call.step] at h
    split at h <;> exact absurd (Prod.mk.inj (Option.some.inj h)).2 (by simp)
  | enqueue _ _ | displace _ | requeue _ _ _ _ | record _ _ _ _ =>
    obtain ⟨gate, _, e⟩ := Option.map_eq_some_iff.mp h
    exact absurd (Prod.mk.inj e).2 (by simp)
  | register _ _ | deactivate _ => exact absurd (Prod.mk.inj (Option.some.inj h)).2 (by simp)
  | accepted _ | opened | closed _ | failed _ => exact absurd h (by simp [Call.step])

theorem Moves.guests (h : w.guests.map Arrival.guest = w.rows.map Arrival.guest)
    (hm : Moves cfg w call w' call') : w'.guests.map Arrival.guest = w'.rows.map Arrival.guest := by
  cases hm with
  | insert guest g t gate =>
    show (w.guests ++ [_]).map Arrival.guest = (w.rows ++ [_]).map Arrival.guest
    rw [List.map_append, List.map_append, h]
  | displace k gate n hg =>
    exact (map_updateAt (f := setStatus .queued) (fun _ _ => rfl) _ _).trans h
  | retarget k x left dest gate_id =>
    exact (map_updateAt (f := fun _ a => { a with gate := gate_id }) (fun _ _ => rfl) _ _).trans h
  | record k dest x left gate_id =>
    exact h.trans (map_updateAt (f := fun _ a => { a with gate := gate_id, status := .queued })
      (fun _ _ => rfl) _ _).symm
  | _ => exact h

theorem Placed.work (h : Placed s) (hw : s.shared.work cfg g = some w') : Placed ⟨w', s.threads⟩ := by
  obtain ⟨gate, gate', hg, hheap, hgates, hid, hhas, hbooth⟩ := work_moves hw
  obtain ⟨hkg, hkr⟩ := work_key hw
  have hgate := fun x => gateOf_of_keys hkr x
  refine ⟨h.catalogued.set hg hheap hgates hid fun x hx => .inl (hhas x hx), ?_, ?_, ?_, ?_, ?_⟩
  · show ∀ u ∈ w'.heap, u.Booth
    rw [hheap]
    intro u hu
    rcases List.mem_or_eq_of_mem_set hu with hu | rfl
    · exact h.booth u hu
    · exact hbooth (h.booth gate (List.mem_of_getElem? hg))
  · show ∀ (j : Nat) (u : Gate), w'.heap[j]? = some u → ∀ x, u.Has x →
      w'.gateOf x = some u.gate_id ∨ _
    rw [hheap]
    refine forall_set (fun j u _ hu x hx => ?_) fun x hx => ?_
    · rw [hgate]
      exact h.named j u hu x hx
    · rw [hgate, hid]
      exact h.named g gate hg x (hhas x hx)
  · intro j x hc
    obtain ⟨⟨u, hu, hux⟩, hno⟩ := h.assigned j x hc
    refine ⟨?_, hno⟩
    show ∃ u, w'.heap[j]? = some u ∧ w'.gateOf x = some u.gate_id
    rw [hheap, hgate]
    by_cases e : g = j
    · subst e
      obtain rfl := Option.some.inj (hg.symm.trans hu)
      exact ⟨gate', List.getElem?_set_self (List.getElem?_eq_some_iff.mp hg).1, hid ▸ hux⟩
    · exact ⟨u, (List.getElem?_set_ne e).trans hu, hux⟩
  · have hlen := congrArg List.length hkr
    rw [List.length_map, List.length_map] at hlen
    show ∀ call ∈ s.threads, ∀ x ∈ call.recorded, x < w'.rows.length
    rw [hlen]
    exact h.written
  · have hguest := fun l : List Arrival =>
      (List.map_map (l := l) (f := Arrival.key) (g := fun k : Guest × Int × String => k.1))
    show w'.guests.map Arrival.guest = w'.rows.map Arrival.guest
    have hg' := (hguest w'.guests).symm.trans ((congrArg _ hkg).trans (hguest s.shared.guests))
    have hr' := (hguest w'.rows).symm.trans ((congrArg _ hkr).trans (hguest s.shared.rows))
    exact hg'.trans (h.guests.trans hr'.symm)

theorem Once.pending_lt (h : Once s) (hc : call ∈ s.threads) {x : Nat} (hx : x ∈ call.pending) :
    x < s.shared.rows.length :=
  h.row (Nat.lt_of_lt_of_le (pendingIn_pos hc hx) (Nat.le_add_left _ _))

theorem Once.has_lt (h : Once s) (hg : s.shared.heap[g]? = some gate) {x : Nat} (hx : gate.Has x) :
    x < s.shared.rows.length :=
  h.row (Nat.lt_of_lt_of_le (stock_pos hg hx) (Nat.le_add_right _ _))

theorem Once.pending_unique (h : Once s) {c c' : Call} (hc : c ∈ s.threads) (hc' : c' ∈ s.threads)
    {x : Nat} (hx : x ∈ c.pending) (hx' : x ∈ c'.pending) : c = c' := by
  by_contra hne
  have hle := add_le_total (w := fun c : Call => c.pending.count x) hc hc' hne
  have hone := h.one x
  have hpos := List.count_pos_iff.mpr hx
  have hpos' := List.count_pos_iff.mpr hx'
  replace hone : s.shared.stock x + total (fun c : Call => c.pending.count x) s.threads + _ = _ := hone
  split at hone <;> omega

theorem Placed.move_named (h : Placed s) (ho : Once s) (hi : s.threads[i]? = some call)
    (hin : call.InPlace s i) (hst : call.step cfg s.shared = some (w', call'))
    (hg : w'.heap[g]? = some gate) {x : Nat} (hx : gate.Has x) :
    w'.gateOf x = some gate.gate_id ∨
      ∃ c ∈ s.threads.set i call', c.recordedAt = some (g, x) := by
  have hm := step_moves hst
  have hmem := List.mem_of_getElem? hi
  rcases hm.has hg hx with ⟨u, hu, hid, hux⟩ | rfl | ⟨k, left, rfl⟩
  · have hlt := ho.has_lt hu hux
    by_cases hr : call.recorded = some x
    · -- the call writes this row now: its gate has the guest, or another call will write the row
      cases call with
      | record k dest y left =>
        obtain rfl := Option.some.inj hr
        rcases hin g (List.getElem?_eq_some_iff.mp hu).1 u hu hux with rfl | ⟨c, hc, hcr⟩
        · obtain ⟨v, hv, hvx⟩ := record_gateOf hst hlt
          obtain rfl := Option.some.inj (hu.symm.trans hv)
          exact .inl (hid ▸ hvx)
        · obtain ⟨j, hj, hji⟩ := List.mem_eraseIdx_iff_getElem?.mp hc
          refine .inr ⟨c, List.mem_of_getElem? (i := j) ?_, hcr⟩
          rw [List.getElem?_set_ne hj.symm]
          exact hji
      | _ => exact absurd hr nofun
    · rw [hm.gateOf_ne hr hlt]
      refine (h.named g u hu x hux).imp (fun e => hid ▸ e) fun hdue => ?_
      refine exists_set hi hdue (fun hcr => absurd ?_ hr) fun _ hcr => hcr
      cases call with
      | record k dest y left => exact congrArg (Option.map Prod.snd) hcr
      | _ => exact absurd hcr nofun
  · -- the guest has joined the gate that its row was inserted with
    obtain ⟨⟨u, hu, hux⟩, hno⟩ := h.assigned g x hmem
    obtain ⟨u', hu', hid⟩ := hm.gate_ids hu
    obtain rfl := Option.some.inj (hg.symm.trans hu')
    rw [hm.gateOf_ne nofun (ho.pending_lt hmem List.mem_cons_self), hid]
    exact .inl hux
  · -- the row of the guest is due
    refine .inr ⟨call', List.mem_set (List.getElem?_eq_some_iff.mp hi).1 call', ?_⟩
    obtain ⟨u, _, e⟩ := Option.map_eq_some_iff.mp hst
    rw [← (Prod.mk.inj e).2]
    rfl

theorem Placed.move (h : Placed s) (ho : Once s) (hi : s.threads[i]? = some call)
    (hund : call.Undisturbing s.shared) (hin : call.InPlace s i)
    (hst : call.step cfg s.shared = some (w', call')) : Placed ⟨w', s.threads.set i call'⟩ := by
  have hm := step_moves hst
  have hmem := List.mem_of_getElem? hi
  have hlen : s.shared.rows.length ≤ w'.rows.length := by
    rcases hm.rows hund with ⟨e, _⟩ | ⟨e, _⟩ <;> omega
  refine ⟨hm.catalogued h.catalogued hin, hm.booth h.booth hund,
    fun g gate hg x hx => h.move_named ho hi hin hst hg hx, fun g x hc => ?_, fun c hc x hx => ?_,
    hm.guests h.guests⟩
  · rcases List.mem_or_eq_of_mem_set hc with hold | rfl
    · obtain ⟨⟨gate, hg, hgx⟩, hno⟩ := h.assigned g x hold
      obtain ⟨gate', hg', hid⟩ := hm.gate_ids hg
      refine ⟨⟨gate', hg', ?_⟩, fun c hc' hr => ?_⟩
      · rw [hid, ← hgx]
        exact hm.gateOf_ne (hno call hmem) (ho.pending_lt hold List.mem_cons_self)
      · rcases List.mem_or_eq_of_mem_set hc' with hc' | rfl
        · exact hno c hc' hr
        · -- the call would have the guest to enqueue as well
          have hx : x ∈ Call.pending (.enqueue g x) := List.mem_cons_self
          obtain rfl := ho.pending_unique hold hmem hx (hm.recorded hr)
          obtain ⟨gate, _, e⟩ := Option.map_eq_some_iff.mp hst
          rw [← (Prod.mk.inj e).2] at hr
          exact absurd hr nofun
    · obtain ⟨rfl, hgate⟩ := step_enqueue hst
      refine ⟨hgate, fun c hc' hr => ?_⟩
      rcases List.mem_or_eq_of_mem_set hc' with hc' | rfl
      · exact Nat.lt_irrefl _ (h.written c hc' _ hr)
      · exact absurd hr nofun
  · rcases List.mem_or_eq_of_mem_set hc with hc | rfl
    · exact Nat.lt_of_lt_of_le (h.written c hc x hx) hlen
    · exact Nat.lt_of_lt_of_le (ho.pending_lt hmem (hm.recorded hx)) hlen

end

/-! ## runs -/

theorem Placed.step {cfg : Config} {s s' : State} {act : PoolAct Api Env Unit} (h : Placed s)
    (ho : Once s) (hin : InPlace s act) (hs : (airport cfg).machine s act = some s') : Placed s' := by
  cases act with
  | spawn r =>
    obtain rfl := Option.some.inj hs
    have hnew : ∀ call ∈ s.threads ++ [r.start], call ∈ s.threads ∨
        call.recorded = none ∧ ∀ g x, call ≠ .enqueue g x := by
      intro call hc
      rcases List.mem_append.mp hc with hc | hc
      · exact .inl hc
      · rw [List.mem_singleton.mp hc]
        cases r <;> exact .inr ⟨rfl, nofun⟩
    refine ⟨h.catalogued, h.booth, fun g gate hg x hx => (h.named g gate hg x hx).imp id exists_snoc,
      fun g x hc => ?_, fun call hc x hx => ?_, h.guests⟩
    · obtain ⟨hgate, hno⟩ := h.assigned g x ((hnew _ hc).resolve_right fun hne => hne.2 g x rfl)
      refine ⟨hgate, fun call hc => ?_⟩
      rcases hnew call hc with hc | ⟨e, _⟩
      · exact hno call hc
      · rw [e]
        exact nofun
    · rcases hnew call hc with hc | ⟨e, _⟩
      · exact h.written call hc x hx
      · rw [e] at hx
        exact absurd hx nofun
  | env e =>
    obtain ⟨w', he, rfl⟩ := Sys.machine_env hs
    cases e with
    | work g => exact h.work he
    | tick d =>
      obtain rfl := Option.some.inj he
      exact ⟨h.catalogued.congr rfl rfl, h.booth, h.named, h.assigned, h.written, h.guests⟩
  | step i a =>
    obtain ⟨call, w', call', hi, hst, rfl⟩ := Sys.machine_step hs
    exact h.move ho hi (hin.1 call hi) (hin.2 call hi) hst

theorem Placed.init (cfg : Config) : Placed (State.init cfg) := by
  have hf := World.init_fresh cfg
  have hhas := hf.not_has
  refine ⟨⟨(init_registry cfg).keyed, fun g gate hg x hx => ?_⟩, fun gate hg => .inr ?_,
    fun g gate hg x hx => ?_, fun g x hc => absurd hc List.not_mem_nil,
    fun call hc => absurd hc List.not_mem_nil, ?_⟩
  · exact absurd hx (hhas gate (List.mem_of_getElem? hg) x)
  · obtain ⟨_, hw, hcp⟩ := hf.gates gate hg
    rw [hcp, hw]
    rfl
  · exact absurd hx (hhas gate (List.mem_of_getElem? hg) x)
  · show (World.init cfg).guests.map _ = (World.init cfg).rows.map _
    rw [hf.guests, hf.rows]

/-- **Whoever is at a gate can be found there**, in every state of a run in which every call takes
nobody out of place and disturbs nobody. -/
theorem run_placed {cfg : Config} {acts : Acts} {s : State}
    (hrun : (airport cfg).machine.Runs InPlace (State.init cfg) acts s) : Once s ∧ Placed s := by
  refine hrun.inv (P := fun s => Once s ∧ Placed s) ?_ ⟨.init cfg, .init cfg⟩
  intro s act s' h hg hst
  exact ⟨h.1.step hg.undisturbed hst, h.2.step h.1 hg hst⟩

end Airport
