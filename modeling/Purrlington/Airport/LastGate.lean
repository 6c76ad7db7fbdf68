import Purrlington.Airport.Operations
import Purrlington.Airport.Tidy

/-!
# Airport: the last gate of a type

`close_gate` checks that there is another gate of the type, and deletes its own some steps later;
`open_gate` checks that an id is free, and takes it in a later step.

* `Call.closes`          the id that a close past its checks is going to delete;
* `State.Spare`          a gate of the type that no close in progress is going to delete;
* `SparesOne`            the condition: a close passes its check, and an id changes its type, only
                         while another gate of the type is spare;
* `last_gate_kept`       then both types keep a gate, whatever the interleaving;
* `last_gates_closed`    two gates, each closed because of the other.
-/

set_option linter.unusedSectionVars false

namespace Airport
open SM

def World.typeAt (w : World) (gate_id : String) : Option GateType :=
  (w.gateAt gate_id).map Gate.gate_type

/-- the id that a close past its checks is going to delete -/
def Call.closes : Call → Option String
  | .deactivate k => some k.gate_id
  | .displace k => some k.gate_id
  | .target k _ => some k.gate_id
  | .requeue k _ _ _ => some k.gate_id
  | .record k _ _ _ => some k.gate_id
  | .delete k => some k.gate_id
  | _ => none

/-- a gate of the type that no close in progress is going to delete -/
def State.Lasting (s : State) (type : GateType) (gate_id : String) : Prop :=
  s.shared.typeAt gate_id = some type ∧ ∀ call ∈ s.threads, call.closes ≠ some gate_id

/-- there is one besides the gate with this id -/
def State.Spare (s : State) (type : GateType) (gate_id : String) : Prop :=
  ∃ id ∈ s.shared.gates.keys, id ≠ gate_id ∧ s.Lasting type id

instance (s : State) (type : GateType) (gate_id : String) : Decidable (s.Lasting type gate_id) :=
  inferInstanceAs (Decidable (_ ∧ _))

instance (s : State) (type : GateType) (gate_id : String) : Decidable (s.Spare type gate_id) :=
  inferInstanceAs (Decidable (∃ id ∈ s.shared.gates.keys, _))

/-! ## the condition -/

def Call.SparesOne (s : State) : Call → Prop
  | .lookup gate_id => ∀ type ∈ s.shared.typeAt gate_id,
      s.shared.sameType gate_id type ≠ [] → s.Spare type gate_id
  | .register gate_id type' => ∀ type ∈ s.shared.typeAt gate_id,
      type ≠ type' → s.Spare type gate_id
  | _ => True

instance (s : State) : ∀ call : Call, Decidable (call.SparesOne s)
  | .lookup gate_id => inferInstanceAs (Decidable (∀ type ∈ s.shared.typeAt gate_id, _))
  | .register gate_id _ => inferInstanceAs (Decidable (∀ type ∈ s.shared.typeAt gate_id, _))
  | .choose _ | .insert _ _ _ | .enqueue _ _ | .accepted _ | .check _ _ | .opened | .deactivate _
  | .displace _ | .target _ _ | .requeue _ _ _ _ | .record _ _ _ _ | .delete _ | .closed _
  | .failed _ => isTrue trivial

/-- a close passes its check, and a gate takes an id from one of the other type, only while another
gate of the type is there that no close in progress is going to delete -/
def SparesOne (s : State) : PoolAct Api Env Unit → Prop
  | .step i _ => ∀ call ∈ s.threads[i]?, call.SparesOne s
  | _ => True

instance (s : State) : ∀ act, Decidable (SparesOne s act)
  | .step i _ => inferInstanceAs (Decidable (∀ call ∈ s.threads[i]?, call.SparesOne s))
  | .spawn _ => isTrue trivial
  | .env _ => isTrue trivial

/-! ## what a step does to the types -/

section
variable {cfg : Config} {s : State} {w w' : World} {call call' : Call} {type : GateType}
  {gate_id : String}

theorem typeAt_eq_some_iff : w.typeAt gate_id = some type ↔
    ∃ g gate, w.gates.get? gate_id = some g ∧ w.heap[g]? = some gate ∧ gate.gate_type = type := by
  unfold World.typeAt World.gateAt
  simp only [Option.map_eq_some_iff, Option.bind_eq_some_iff]
  constructor
  · rintro ⟨gate, ⟨g, hg, hh⟩, ht⟩
    exact ⟨g, gate, hg, hh, ht⟩
  · rintro ⟨g, gate, hg, hh, ht⟩
    exact ⟨gate, ⟨g, hg, hh⟩, ht⟩

theorem typeAt_of_types (h : w.typeAt gate_id = some type)
    (hg : w'.gates.get? gate_id = w.gates.get? gate_id)
    (hh : w.heap.map Gate.gate_type <+: w'.heap.map Gate.gate_type) :
    w'.typeAt gate_id = some type := by
  obtain ⟨g, gate, hget, hheap, rfl⟩ := typeAt_eq_some_iff.mp h
  have hm : (w.heap.map Gate.gate_type)[g]? = some gate.gate_type := by
    rw [List.getElem?_map, hheap]
    rfl
  have hm' : (w'.heap.map Gate.gate_type)[g]? = some gate.gate_type := by
    obtain ⟨r, hr⟩ := hh
    rw [← hr, List.getElem?_append_left (List.getElem?_eq_some_iff.mp hm).1]
    exact hm
  rw [List.getElem?_map] at hm'
  obtain ⟨gate', hgate', ht⟩ := Option.map_eq_some_iff.mp hm'
  exact typeAt_eq_some_iff.mpr ⟨g, gate', hg.trans hget, hgate', ht⟩

theorem types_modify (l : List Gate) (g : Nat) {f : Gate → Gate}
    (hf : ∀ gate, (f gate).gate_type = gate.gate_type) :
    (l.modify g f).map Gate.gate_type = l.map Gate.gate_type := by
  apply List.ext_getElem?
  intro j
  rw [List.getElem?_map, List.getElem?_map, List.getElem?_modify]
  show (Option.map _ l[j]?).map Gate.gate_type = _
  rw [Option.map_map]
  congr 1
  funext gate
  show Gate.gate_type (if g = j then f gate else gate) = _
  split
  · exact hf gate
  · rfl

theorem work_typeAt {g : Nat} (h : w.work cfg g = some w') (ht : w.typeAt gate_id = some type) :
    w'.typeAt gate_id = some type := by
  obtain ⟨gate, gate', hg, hheap, hgates, _, htype, _⟩ := work_gate h
  have htypes : w'.heap.map Gate.gate_type = w.heap.map Gate.gate_type := ?_
  · exact typeAt_of_types ht (by rw [hgates]) (htypes ▸ List.prefix_refl _)
  rw [hheap]
  apply List.ext_getElem?
  intro j
  rw [List.getElem?_map, List.getElem?_map]
  by_cases e : g = j
  · subst e
    rw [hg, List.getElem?_set_self (List.getElem?_eq_some_iff.mp hg).1, Option.map_some,
      Option.map_some, htype]
  · rw [List.getElem?_set_ne e]

/-- a call takes the id from a gate only to delete it, or to give it to another -/
theorem Moves.typeAt (h : Moves cfg w call w' call') (ht : w.typeAt gate_id = some type)
    (hc : call.closes ≠ some gate_id) (hr : ∀ type', call = .register gate_id type' → type' = type) :
    w'.typeAt gate_id = some type := by
  have modify : ∀ (g : Nat) (f : Gate → Gate), (∀ gate, (f gate).gate_type = gate.gate_type) →
      w.heap.map Gate.gate_type <+: (w.heap.modify g f).map Gate.gate_type :=
    fun g f hf => (types_modify w.heap g hf).symm ▸ List.prefix_refl _
  cases h with
  | register id type' =>
    by_cases e : gate_id = id
    · subst e
      obtain rfl := hr type' rfl
      refine typeAt_eq_some_iff.mpr ⟨w.heap.length, _, Dict.get?_set_self _ _ _,
        List.getElem?_concat_length, rfl⟩
    · refine typeAt_of_types ht (Dict.get?_set_ne _ e _) ?_
      show _ <+: (w.heap ++ [_]).map Gate.gate_type
      rw [List.map_append]
      exact List.prefix_append _ _
  | delete k =>
    have hne : gate_id ≠ k.gate_id := fun e => hc (congrArg some e.symm)
    exact typeAt_of_types ht (Dict.get?_del_ne _ hne) (List.prefix_refl _)
  | enqueue g x gate reply hg => exact typeAt_of_types ht rfl (modify g _ fun _ => rfl)
  | deactivate k => exact typeAt_of_types ht rfl (modify k.gate _ fun _ => rfl)
  | displace k gate n hg => exact typeAt_of_types ht rfl (modify k.gate _ fun _ => rfl)
  | requeue k dest x left gate hg => exact typeAt_of_types ht rfl (modify dest _ fun _ => rfl)
  | _ => exact ht

theorem lookupClose_cases (h : Call.lookupClose w gate_id = some call) :
    (∃ k, call = .deactivate k) ∨ ∃ error, call = .failed error := by
  unfold Call.lookupClose at h
  split at h
  · exact .inr ⟨_, (Option.some.inj h).symm⟩
  · obtain ⟨gate, _, rfl⟩ := Option.map_eq_some_iff.mp h
    split
    · exact .inr ⟨_, rfl⟩
    · exact .inl ⟨_, rfl⟩

theorem step_closes_of_ne_lookup (h : call.step cfg w = some (w', call'))
    (hl : ∀ id, call ≠ .lookup id) : call'.closes = none ∨ call'.closes = call.closes := by
  cases call with
  | lookup id => exact absurd rfl (hl id)
  | choose guest =>
    rw [Call.step] at h
    split at h
    · obtain ⟨_, rfl⟩ := Prod.mk.inj (Option.some.inj h)
      exact .inl rfl
    · obtain ⟨_, rfl⟩ := Prod.mk.inj (Option.some.inj h)
      exact .inl rfl
  | check id type =>
    obtain ⟨_, rfl⟩ := Prod.mk.inj (Option.some.inj h)
    unfold Call.checkOpen
    split
    · exact .inl rfl
    · split
      · exact .inl rfl
      · split <;> exact .inl rfl
  | insert _ _ _ | enqueue _ _ =>
    obtain ⟨gate, _, e⟩ := Option.map_eq_some_iff.mp h
    obtain ⟨_, rfl⟩ := Prod.mk.inj e
    exact .inl rfl
  | register _ _ =>
    obtain ⟨_, rfl⟩ := Prod.mk.inj (Option.some.inj h)
    exact .inl rfl
  | deactivate k =>
    obtain ⟨_, rfl⟩ := Prod.mk.inj (Option.some.inj h)
    exact .inr rfl
  | displace _ | requeue _ _ _ _ | record _ _ _ _ =>
    obtain ⟨gate, _, e⟩ := Option.map_eq_some_iff.mp h
    obtain ⟨_, rfl⟩ := Prod.mk.inj e
    exact .inr rfl
  | target k left =>
    cases left with
    | nil =>
      obtain ⟨_, rfl⟩ := Prod.mk.inj (Option.some.inj h)
      exact .inr rfl
    | cons x left =>
      obtain ⟨gate, _, e⟩ := Option.map_eq_some_iff.mp h
      obtain ⟨_, rfl⟩ := Prod.mk.inj e
      exact .inr rfl
  | delete k =>
    rw [Call.step] at h
    split at h
    · obtain ⟨_, rfl⟩ := Prod.mk.inj (Option.some.inj h)
      exact .inl rfl
    · obtain ⟨_, rfl⟩ := Prod.mk.inj (Option.some.inj h)
      exact .inl rfl
  | accepted _ | opened | closed _ | failed _ => exact absurd h (by simp [Call.step])

theorem step_closes (h : call.step cfg w = some (w', call')) (hc : call'.closes = some gate_id) :
    call.closes = some gate_id ∨
      call = .lookup gate_id ∧ ∀ type ∈ w.typeAt gate_id, w.sameType gate_id type ≠ [] := by
  by_cases hl : ∃ id, call = .lookup id
  · obtain ⟨id, rfl⟩ := hl
    obtain ⟨c, hl, e⟩ := Option.map_eq_some_iff.mp h
    obtain ⟨rfl, rfl⟩ := Prod.mk.inj e
    rcases lookupClose_cases hl with ⟨k, rfl⟩ | ⟨error, rfl⟩
    · obtain ⟨rfl, hget, gate, hgate, hs⟩ := lookupClose_closing hl
      obtain rfl := Option.some.inj hc
      refine .inr ⟨rfl, fun type ht => ?_⟩
      obtain ⟨g, gate', hg', hh', rfl⟩ := typeAt_eq_some_iff.mp ht
      obtain rfl := Option.some.inj (hget.symm.trans hg')
      obtain rfl := Option.some.inj (hgate.symm.trans hh')
      rw [hs]
      simp
    · exact absurd hc (by simp [Call.closes])
  · rcases step_closes_of_ne_lookup h fun id e => hl ⟨id, e⟩ with e | e
    · rw [e] at hc
      exact absurd hc (by simp)
    · exact .inl (e ▸ hc)

/-! ## the invariant -/

/-- each type has a gate that stays -/
def State.Staffed (s : State) : Prop := ∀ type, ∃ gate_id, s.Lasting type gate_id

/-- a gate that stays, and that the call about to step does not take away -/
theorem exists_untouched (h : s.Staffed) (hg : call.SparesOne s) (type : GateType) :
    ∃ id, s.Lasting type id ∧
      (call = .lookup id → ∀ t ∈ s.shared.typeAt id, s.shared.sameType id t = []) ∧
      ∀ type', call = .register id type' → type' = type := by
  obtain ⟨id, hid⟩ := h type
  have other : s.Spare type id → (∀ id', id' ≠ id → call ≠ .lookup id' ∧
      ∀ type', call ≠ .register id' type') → ∃ id, s.Lasting type id ∧
      (call = .lookup id → ∀ t ∈ s.shared.typeAt id, s.shared.sameType id t = []) ∧
      ∀ type', call = .register id type' → type' = type := by
    rintro ⟨id', _, hne, hlast⟩ hcall
    exact ⟨id', hlast, fun e => absurd e (hcall id' hne).1,
      fun type' e => absurd e ((hcall id' hne).2 type')⟩
  by_cases hl : call = .lookup id
  · subst hl
    by_cases hs : s.shared.sameType id type = []
    · refine ⟨id, hid, fun _ t ht => ?_, fun type' e => absurd e (by simp)⟩
      obtain rfl := Option.some.inj (hid.1.symm.trans ht)
      exact hs
    · exact other (hg type hid.1 hs) fun id' hne =>
        ⟨fun e => hne (Call.lookup.inj e).symm, fun type' e => absurd e (by simp)⟩
  · by_cases hr : ∃ type', call = .register id type' ∧ type' ≠ type
    · obtain ⟨type', rfl, hne⟩ := hr
      exact other (hg type hid.1 fun e => hne e.symm) fun id' hne' =>
        ⟨by simp, fun t e => hne' (Call.register.inj e).1.symm⟩
    · refine ⟨id, hid, fun e => absurd e hl, fun type' e => ?_⟩
      by_contra hne
      exact hr ⟨type', e, hne⟩

theorem start_closes (r : Api) : r.start.closes = none := by
  cases r <;> rfl

theorem State.Staffed.step {s' : State} {act : PoolAct Api Env Unit} (h : s.Staffed)
    (hg : SparesOne s act) (hm : (airport cfg).machine s act = some s') : s'.Staffed := by
  intro type
  cases act with
  | spawn r =>
    obtain rfl := Option.some.inj hm
    obtain ⟨id, hid, hno⟩ := h type
    refine ⟨id, hid, fun call hc => ?_⟩
    rcases List.mem_append.mp hc with hc | hc
    · exact hno call hc
    · obtain rfl := List.mem_singleton.mp hc
      show r.start.closes ≠ some id
      rw [start_closes]
      simp
  | env e =>
    obtain ⟨w', hw, rfl⟩ := Sys.machine_env hm
    obtain ⟨id, hid, hno⟩ := h type
    refine ⟨id, ?_, hno⟩
    cases e with
    | work g => exact work_typeAt (w := s.shared) hw hid
    | tick d =>
      obtain rfl := Option.some.inj hw
      exact hid
  | step i a =>
    obtain ⟨call, w', call', ht, hst, rfl⟩ := Sys.machine_step hm
    replace hst : call.step cfg s.shared = some (w', call') := hst
    obtain ⟨id, ⟨hid, hno⟩, hlook, hreg⟩ := exists_untouched h (hg call ht) type
    have hcall := hno call (List.mem_of_getElem? ht)
    refine ⟨id, (step_moves hst).typeAt hid hcall hreg, fun c hc => ?_⟩
    rcases List.mem_or_eq_of_mem_set hc with hc | rfl
    · exact hno c hc
    · intro e
      rcases step_closes hst e with e' | ⟨rfl, hs⟩
      · exact hcall e'
      · exact hs type hid (hlook rfl type hid)

theorem shortestQueueGate_ne_none (h : w.typeAt gate_id = some type) :
    w.shortestQueueGate type ≠ none := by
  obtain ⟨g, gate, hget, hheap, ht⟩ := typeAt_eq_some_iff.mp h
  have hmem : g ∈ w.gates.values.filter (w.hasType type) := by
    refine List.mem_filter.mpr ⟨Dict.mem_values_iff.mpr ⟨gate_id, hget⟩, ?_⟩
    unfold World.hasType
    rw [hheap]
    exact decide_eq_true ht
  unfold World.shortestQueueGate
  split
  · rename_i e
    rw [e] at hmem
    exact absurd hmem List.not_mem_nil
  · simp

end

/-- **The last gate of a type is never closed**, in a run from a start with gates of both types,
if every check that is passed and every id that changes its type leaves a gate of the type that no
close in progress is going to delete. -/
theorem last_gate_kept (cfg : Config) (w : World) (acts : Acts) (s : State)
    (hstart : ∀ type, ∃ gate_id, w.typeAt gate_id = some type)
    (hrun : (airport cfg).machine.Runs SparesOne ⟨w, []⟩ acts s) (type : GateType) :
    (∃ gate_id, s.shared.typeAt gate_id = some type) ∧ s.shared.shortestQueueGate type ≠ none := by
  have h0 : State.Staffed ⟨w, []⟩ := by
    intro type
    obtain ⟨id, hid⟩ := hstart type
    exact ⟨id, hid, fun call hc => absurd hc List.not_mem_nil⟩
  have hs : s.Staffed := hrun.inv (fun s a t h hg hst => h.step hg hst) h0
  obtain ⟨id, hid, _⟩ := hs type
  exact ⟨⟨id, hid⟩, shortestQueueGate_ne_none hid⟩

/-- two closes and nothing else, the second after the first has finished -/
def closeBoth : Acts :=
  (.spawn (.close "EU-1") :: List.replicate 5 (.step 0 ()) : Acts) ++
    ([.spawn (.close "EU-2"), .step 1 ()] : Acts)

theorem last_gate_kept_closeBoth : ∃ s,
    (airport threeGates).machine.run (State.init threeGates) closeBoth = some s ∧
    s.threads = [.closed 0, .failed "Cannot close the last EU gate"] ∧
    (∃ gate_id, s.shared.typeAt gate_id = some .EU) ∧ s.shared.shortestQueueGate .EU ≠ none :=
  ⟨_, rfl, rfl, last_gate_kept threeGates (World.init threeGates) closeBoth _
    (by rintro (_ | _); exacts [⟨"EU-1", rfl⟩, ⟨"ALL-1", rfl⟩])
    (Machine.runs_iff_runG.mpr rfl) .EU⟩

/-- the same two closes, with both checks before either deletes its gate -/
def closeTogether : Acts :=
  ([.spawn (.close "EU-1"), .spawn (.close "EU-2"), .step 0 (), .step 1 ()] : Acts) ++
    (List.replicate 4 (.step 0 ()) ++ List.replicate 4 (.step 1 ()) : Acts)

/-- **Two gates, each closed because of the other.**  There is no EU gate left, and the next arrival
from the EU takes the minimum of an empty list. -/
theorem last_gates_closed : ∃ s,
    (airport threeGates).machine.run (State.init threeGates) closeTogether = some s ∧
    s.threads = [.closed 0, .closed 0] ∧ s.shared.gates.keys = ["ALL-1"] ∧
    s.shared.gates.values.filter (s.shared.hasType .EU) = [] ∧
    s.shared.shortestQueueGate .EU = none :=
  ⟨_, rfl, rfl, rfl, rfl, rfl⟩

end Airport
