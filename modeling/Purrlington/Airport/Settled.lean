import Purrlington.Airport.Tidy

/-!
# Airport: the state between operations

* `World.Registry`       the dictionary: keys are the names of their gates, and every type is there;
* `World.Settled`        tidy gates, rows in step with the records, and every arrival accounted for;
                         its parameter has the guests that `close_gate` is yet to requeue;
* `Settled.work`, `Settled.assign`, `Settled.openGate`, `Settled.closeGate`   each operation goes
                         through and keeps it.
-/

set_option linter.unusedSectionVars false

namespace Airport
open SM Ledger

/-! ## the whole -/

/-- the dictionary: a key is the name of its gate, and there is a gate of each type in `T` -/
structure World.Registry (T : GateType → Prop) (w : World) : Prop where
  keyed : ∀ k g, w.gates.get? k = some g → ∃ gate, w.heap[g]? = some gate ∧ gate.gate_id = k
  types : ∀ type, T type → ∃ k g gate, w.gates.get? k = some g ∧ w.heap[g]? = some gate ∧
    gate.gate_type = type

/-- the state between two operations, and between two guests that `close_gate` requeues -/
structure World.Settled (T : GateType → Prop) (pending : List Nat) (w : World) : Prop where
  agree : w.guests.map Arrival.key = w.rows.map Arrival.key
  tidy : ∀ gate ∈ w.heap, gate.Tidy w
  registry : w.Registry T
  closed : ∀ g gate, w.heap[g]? = some gate → w.gates.get? gate.gate_id ≠ some g →
    ∀ x, ¬ gate.Has x
  one : ∀ x, w.stock x + pending.count x + w.completions.count x =
    if x < w.rows.length then 1 else 0
  recorded : w.Recorded

section
variable {cfg : Config} {w w' : World} {g : Nat} {gate gate' : Gate} {pending : List Nat} {T : GateType → Prop}

theorem World.Registry.set (h : w.Registry T) (hg : w.heap[g]? = some gate)
    (hh : w'.heap = w.heap.set g gate') (hgs : w'.gates = w.gates)
    (hid : gate'.gate_id = gate.gate_id) (htype : gate'.gate_type = gate.gate_type) :
    w'.Registry T := by
  -- a gate is there as before, but for what the change leaves alone
  have look : ∀ (g₁ : Nat) (u : Gate), w.heap[g₁]? = some u → ∃ u' : Gate,
      w'.heap[g₁]? = some u' ∧ u'.gate_id = u.gate_id ∧ u'.gate_type = u.gate_type := by
    intro g₁ u hu
    by_cases e : g = g₁
    · subst e
      obtain rfl := Option.some.inj (hg.symm.trans hu)
      rw [hh, List.getElem?_set_self (List.getElem?_eq_some_iff.mp hg).1]
      exact ⟨gate', rfl, hid, htype⟩
    · rw [hh, List.getElem?_set_ne e]
      exact ⟨u, hu, rfl, rfl⟩
  refine ⟨fun k g₁ hk => ?_, fun type hT => ?_⟩
  · rw [hgs] at hk
    obtain ⟨u, hu, hku⟩ := h.keyed k g₁ hk
    obtain ⟨u', hu', hid', _⟩ := look g₁ u hu
    exact ⟨u', hu', hid'.trans hku⟩
  · obtain ⟨k, g₁, u, hk, hu, ht⟩ := h.types type hT
    obtain ⟨u', hu', _, ht'⟩ := look g₁ u hu
    exact ⟨k, g₁, u', by rw [hgs]; exact hk, hu', ht'.trans ht⟩

namespace World.Settled

theorem length (h : w.Settled T pending) : w.guests.length = w.rows.length := by
  have := congrArg List.length h.agree
  rwa [List.length_map, List.length_map] at this

theorem row (h : w.Settled T pending) {x : Nat} (hg : w.heap[g]? = some gate) (hx : gate.Has x) :
    x < w.rows.length ∧ x ∉ w.completions := by
  have hone := h.one x
  have hpos := stock_pos hg hx
  split at hone
  · rename_i hlt
    refine ⟨hlt, ?_⟩
    intro hc
    have := List.count_pos_iff.mpr hc
    omega
  · omega

theorem work (h : w.Settled T pending) (hw : w.work cfg g = some w') : w'.Settled T pending := by
  obtain ⟨gate, gate', hg, hh, hgs, hid, htype, _⟩ := work_gate hw
  obtain ⟨gate₁, hg₁, hworks⟩ := work_works hw
  obtain rfl := Option.some.inj (hg.symm.trans hg₁)
  obtain ⟨hkg, hkr⟩ := work_key hw
  have hrows : w'.rows.length = w.rows.length := by
    have := congrArg List.length hkr
    rwa [List.length_map, List.length_map] at this
  have hledger := fun x => hworks.ledger hg x
  refine ⟨by rw [hkg, hkr, h.agree], work_tidy h.tidy hw, h.registry.set hg hh hgs hid htype,
    ?_, fun x => ?_, ?_⟩
  · intro g₁ u hu hk x hx
    -- nobody comes to a gate by a step of its worker
    have hpos : 0 < w'.stock x := stock_pos hu hx
    rw [hh] at hu
    by_cases e : g = g₁
    · subst e
      rw [List.getElem?_set_self (List.getElem?_eq_some_iff.mp hg).1] at hu
      obtain rfl := Option.some.inj hu
      rw [hgs, hid] at hk
      have hempty := h.closed g gate hg hk
      have hset : total (Gate.holds x) (w.heap.set g gate') + gate.holds x =
          w.stock x + gate'.holds x := total_set hg gate'
      have hl := hledger x
      have hz : gate.holds x = 0 := Nat.eq_zero_of_not_pos fun hp => hempty x (Gate.holds_pos.mp hp)
      have hz' : 0 < gate'.holds x := Gate.holds_pos.mpr hx
      have hstock : w'.stock x = total (Gate.holds x) (w.heap.set g gate') := by
        rw [World.stock, hh]
      have hc : w.completions.count x ≤ w'.completions.count x := by
        cases hworks <;> first | exact Nat.le_refl _ | (rw [List.count_append]; omega)
      omega
    · rw [List.getElem?_set_ne e] at hu
      exact h.closed g₁ u hu (by rw [hgs] at hk; exact hk) x hx
  · have := h.one x
    have := hledger x
    rw [hrows]
    omega
  · refine hworks.recorded h.recorded (fun x hx => ?_) fun x hx => ?_
    · have := h.row hg (.inr hx)
      exact ⟨this.2, this.1⟩
    · exact (h.row hg (.inl ((h.tidy gate (List.mem_of_getElem? hg)).marks x hx))).2

theorem toRest (h : w.Settled T pending) {n : Nat} (hw : w.toRest cfg g n = some w') :
    w'.Settled T pending := by
  induction n generalizing w with
  | zero =>
    obtain rfl := Option.some.inj hw
    exact h
  | succ n ih =>
    rw [World.toRest] at hw
    split at hw
    · obtain rfl := Option.some.inj hw
      exact h
    · obtain ⟨w₁, h₁, hw⟩ := Option.bind_eq_some_iff.mp hw
      exact ih (h.work h₁) hw

theorem operate (h : w.Settled T pending) (hw : w.operate cfg g = some w') : w'.Settled T pending := by
  obtain ⟨w₁, h₁, hw⟩ := Option.bind_eq_some_iff.mp hw
  exact (h.work h₁).toRest hw

end World.Settled

/-! ## the choice of a gate -/

theorem argmin_mem (key : Nat → Nat) (first : Nat) (rest : List Nat) :
    argmin key first rest ∈ first :: rest := by
  induction rest generalizing first with
  | nil => exact List.mem_singleton.mpr rfl
  | cons g rest ih =>
    rw [argmin]
    split
    · exact List.mem_cons_of_mem _ (ih g)
    · rcases List.mem_cons.mp (ih first) with h | h
      · rw [h]
        exact List.mem_cons_self
      · exact List.mem_cons_of_mem _ (List.mem_cons_of_mem _ h)

/-- the gate of this number is in the dictionary and of this type -/
def World.Takes (w : World) (type : GateType) (g : Nat) : Prop :=
  ∃ gate, w.heap[g]? = some gate ∧ w.gates.get? gate.gate_id = some g ∧ gate.gate_type = type

theorem takes_of_values (h : w.Registry T) {type : GateType} (hg : g ∈ w.gates.values)
    (ht : w.hasType type g = true) : w.Takes type g := by
  obtain ⟨k, hk⟩ := Dict.mem_values_iff.mp hg
  obtain ⟨gate, hgate, rfl⟩ := h.keyed k g hk
  refine ⟨gate, hgate, hk, ?_⟩
  rw [World.hasType, hgate] at ht
  exact of_decide_eq_true ht

theorem shortestQueueGate_takes (h : w.Registry T) {type : GateType}
    (hs : w.shortestQueueGate type = some g) : w.Takes type g := by
  unfold World.shortestQueueGate at hs
  split at hs
  · exact absurd hs (by simp)
  · rename_i first rest he
    obtain rfl := Option.some.inj hs
    have hmem := argmin_mem w.queueLength first rest
    rw [← he] at hmem
    obtain ⟨hv, ht⟩ := List.mem_filter.mp hmem
    exact takes_of_values h hv ht

/-- the gate that is chosen is in the dictionary, and for a non-EU passport of type ALL -/
theorem chooseGate_takes (h : w.Registry T) {guest : Guest} (hc : w.chooseGate guest = some g) :
    ∃ type, w.Takes type g ∧ (guest.passport_type = .nonEU → type = .ALL) := by
  unfold World.chooseGate at hc
  split at hc
  · rename_i hp
    obtain ⟨eu, heu, hc⟩ := Option.bind_eq_some_iff.mp hc
    obtain ⟨all, hall, rfl⟩ := Option.map_eq_some_iff.mp hc
    rw [hp]
    split
    · exact ⟨.ALL, shortestQueueGate_takes h hall, fun h => absurd h (by decide)⟩
    · exact ⟨.EU, shortestQueueGate_takes h heu, fun h => absurd h (by decide)⟩
  · exact ⟨.ALL, shortestQueueGate_takes h hc, fun _ => rfl⟩

/-! ## assign_and_enqueue -/

namespace World.Settled

/-- a change of one gate: whom it gets or loses, the call in progress has given or taken -/
theorem set (h : w.Settled T pending) {left : List Nat} (hg : w.heap[g]? = some gate)
    (hh : w'.heap = w.heap.set g gate') (hgs : w'.gates = w.gates) (hr : w'.rows = w.rows)
    (hgu : w'.guests = w.guests) (hc : w'.completions = w.completions)
    (hid : gate'.gate_id = gate.gate_id) (htype : gate'.gate_type = gate.gate_type)
    (ht : gate.Tidy w → gate'.Tidy w)
    (hx : ∀ x, gate'.holds x + left.count x = gate.holds x + pending.count x)
    (hsub : w.gates.get? gate.gate_id = some g ∨ ∀ x, gate'.Has x → gate.Has x) :
    w'.Settled T left := by
  refine ⟨by rw [hgu, hr]; exact h.agree, fun u hu => ?_, h.registry.set hg hh hgs hid htype, ?_,
    fun x => ?_, fun x => ?_⟩
  · refine Gate.Tidy.frame (w := w) ?_ fun _ _ => keeps_of_map (by rw [hgu]) _
    rw [hh] at hu
    rcases List.mem_or_eq_of_mem_set hu with hu | rfl
    · exact h.tidy u hu
    · exact ht (h.tidy gate (List.mem_of_getElem? hg))
  · rw [hh, hgs]
    refine forall_set (fun j u _ hu => h.closed j u hu) ?_
    intro hne x hhas
    rw [hid] at hne
    exact h.closed g gate hg hne x (hsub.resolve_left hne x hhas)
  · have hone := h.one x
    have hset : total (Gate.holds x) (w.heap.set g gate') + gate.holds x =
        w.stock x + gate'.holds x := total_set hg gate'
    have := hx x
    rw [World.stock, hh, hc, hr]
    omega
  · rw [World.statusOf, hr, hc]
    exact h.recorded x

theorem join (h : w.Settled T pending) {x : Nat} {left : List Nat} {a : Arrival} {type : GateType}
    (hg : w.heap[g]? = some gate) (hk : w.gates.get? gate.gate_id = some g)
    (htype : gate.gate_type = type) (hp : ∀ y, pending.count y = [x].count y + left.count y)
    (ha : w.guests[x]? = some a) (hn : a.gate = gate.gate_id)
    (ht : a.guest.passport_type = .nonEU → type = .ALL) : (w.join g x).Settled T left := by
  refine h.set hg (modify_eq_set hg _) rfl rfl rfl rfl rfl rfl (fun htidy => ?_) (fun y => ?_)
    (.inl hk)
  · exact htidy.join ha hn (by rw [htype]; exact ht)
  · have hc := count_enqueue w.rank gate.queue x y
    show (enqueue w.rank gate.queue x).1.count y + gate.worker.bundle.count y + left.count y =
      gate.queue.count y + gate.worker.bundle.count y + pending.count y
    rw [hp y]
    omega

theorem insertRow (h : w.Settled T []) (guest : Guest) (t : Int) (gate_id : String) :
    (w.insertRow guest t gate_id).Settled T [w.rows.length] := by
  have hkeep : ∀ x, w.Keeps (w.insertRow guest t gate_id) x := by
    intro x a ha
    exact ⟨a, (List.getElem?_append_left (List.getElem?_eq_some_iff.mp ha).1).trans ha, rfl⟩
  have hrows : (w.insertRow guest t gate_id).rows.length = w.rows.length + 1 := List.length_append
  refine ⟨?_, fun u hu => (h.tidy u hu).frame fun x _ => hkeep x, ⟨h.registry.keyed,
    h.registry.types⟩, h.closed, fun x => ?_, fun x => ?_⟩
  · show (w.guests ++ [_]).map Arrival.key = (w.rows ++ [_]).map Arrival.key
    rw [List.map_append, List.map_append, h.agree]
  · have hone := h.one x
    show w.stock x + [w.rows.length].count x + w.completions.count x = _
    rw [List.count_nil] at hone
    rw [hrows]
    by_cases hx : x = w.rows.length
    · rw [if_neg (by omega)] at hone
      rw [hx, List.count_singleton_self, if_pos (by omega)]
      rw [hx] at hone
      omega
    · rw [List.count_eq_zero.mpr fun hm => hx (List.mem_singleton.mp hm)]
      split at hone <;> split <;> omega
  · rw [statusOf_insertRow]
    split
    · rename_i hx
      have hone := h.one x
      rw [if_neg (by omega)] at hone
      have hnot : x ∉ w.completions := fun hc => by
        have := List.count_pos_iff.mpr hc
        omega
      exact ⟨fun e => absurd e (by decide), fun hc => absurd hc hnot⟩
    · exact h.recorded x

theorem assign (h : w.Settled T []) (guest : Guest) :
    ∃ w', w.assignAndEnqueue guest = some w' ∧ w'.Settled T [] := by
  unfold World.assignAndEnqueue
  split
  · exact ⟨w, rfl, h⟩
  · rename_i g hc
    obtain ⟨type, ⟨gate, hg, hk, htype⟩, ht⟩ := chooseGate_takes h.registry hc
    refine ⟨(w.insertRow guest w.now gate.gate_id).join g w.rows.length, by rw [hg]; rfl, ?_⟩
    refine (h.insertRow guest w.now gate.gate_id).join hg hk htype (fun y => ?_)
      (a := { guest, queued_at := w.now, gate := gate.gate_id }) ?_ rfl ht
    · rw [List.count_nil, Nat.add_zero]
    · show (w.guests ++ [_])[w.rows.length]? = _
      rw [← h.length, List.getElem?_concat_length]

/-! ## open_gate -/

theorem register (h : w.Settled T pending) {gate_id : String} (hnew : w.gates.get? gate_id = none)
    (type : GateType) : (w.register cfg gate_id type).Settled T pending := by
  have hget : ∀ k, k ≠ gate_id →
      (w.register cfg gate_id type).gates.get? k = w.gates.get? k := fun k hk =>
    Dict.get?_set_ne w.gates hk w.heap.length
  have hheap : ∀ (g : Nat) (u : Gate), w.heap[g]? = some u →
      (w.register cfg gate_id type).heap[g]? = some u := fun g u hu =>
    (List.getElem?_append_left (List.getElem?_eq_some_iff.mp hu).1).trans hu
  have hother : ∀ k g, w.gates.get? k = some g → k ≠ gate_id := by
    rintro k g hk rfl
    rw [hnew] at hk
    exact absurd hk (by simp)
  refine ⟨h.agree, fun u hu => ?_, ⟨fun k g hk => ?_, fun t hT => ?_⟩, ?_, fun x => ?_, h.recorded⟩
  · refine Gate.Tidy.frame (w := w) ?_ fun _ _ => keeps_of_map rfl _
    rcases List.mem_append.mp hu with hu | hu
    · exact h.tidy u hu
    · rw [List.mem_singleton.mp hu]
      exact ⟨.nil, fun _ hx => absurd hx List.not_mem_nil,
        fun _ hx => hx.elim (fun hx => absurd hx List.not_mem_nil)
          fun hx => absurd hx List.not_mem_nil,
        fun _ hx => absurd hx List.not_mem_nil, fun _ => rfl⟩
  · by_cases e : k = gate_id
    · subst e
      replace hk : (w.gates.set k w.heap.length).get? k = some g := hk
      rw [Dict.get?_set_self] at hk
      obtain rfl := Option.some.inj hk
      exact ⟨_, List.getElem?_concat_length, rfl⟩
    · rw [hget k e] at hk
      obtain ⟨u, hu, hid⟩ := h.registry.keyed k g hk
      exact ⟨u, hheap g u hu, hid⟩
  · obtain ⟨k, g, u, hk, hu, ht⟩ := h.registry.types t hT
    exact ⟨k, g, u, (hget k (hother k g hk)).trans hk, hheap g u hu, ht⟩
  · refine forall_snoc (fun g u hu hne => ?_) fun hne => ?_
    · refine h.closed g u hu fun hk => hne ?_
      exact (hget u.gate_id (hother _ _ hk)).trans hk
    · exact absurd (Dict.get?_set_self w.gates gate_id w.heap.length) hne
  · have hs : (w.register cfg gate_id type).stock x = w.stock x := by
      show total (Gate.holds x) (w.heap ++ [_]) = _
      rw [total_snoc]
      rfl
    rw [hs]
    exact h.one x

theorem openGate (h : w.Settled T pending) (gate_id gate_type : String) :
    (w.openGate cfg gate_id gate_type).Settled T pending := by
  unfold World.openGate
  split
  · rename_i id type hc
    unfold Call.checkOpen at hc
    split at hc
    · exact absurd hc (by simp)
    · rename_i hnone
      split at hc
      · exact absurd hc (by simp)
      · split at hc
        · exact absurd hc (by simp)
        · obtain ⟨rfl, rfl⟩ := Call.register.inj hc
          exact h.register (Option.not_isSome_iff_eq_none.mp hnone) _
  · exact h

/-! ## close_gate -/

theorem rename (h : w.Settled T pending) {x : Nat} (hs : w.stock x = 0) (hc : x ∉ w.completions)
    (gate_id : String) : ((w.retarget x gate_id).recordRow x gate_id).Settled T pending := by
  have hkeep : ∀ u ∈ w.heap, ∀ y, u.Has y → w.Keeps ((w.retarget x gate_id).recordRow x gate_id) y := by
    intro u hu y hy a ha
    have hne : y ∉ [x] := by
      intro hm
      obtain ⟨g, hg⟩ := List.mem_iff_getElem?.mp hu
      have hpos := stock_pos hg hy
      rw [List.mem_singleton.mp hm, hs] at hpos
      exact Nat.lt_irrefl 0 hpos
    refine ⟨a, ?_, rfl⟩
    show (updateAt [x] _ w.guests)[y]? = some a
    rw [getElem?_updateAt, ha]
    exact congrArg some (if_neg hne)
  refine ⟨?_, fun u hu => (h.tidy u hu).frame (hkeep u hu), ⟨h.registry.keyed, h.registry.types⟩,
    h.closed, fun y => ?_, fun y => ?_⟩
  · show (updateAt [x] _ w.guests).map Arrival.key = (updateAt [x] _ w.rows).map Arrival.key
    rw [map_key_updateAt (u := fun k => (k.1, k.2.1, gate_id)) fun _ _ => rfl,
      map_key_updateAt (u := fun k => (k.1, k.2.1, gate_id)) fun _ _ => rfl, h.agree]
  · show w.stock y + pending.count y + w.completions.count y =
      if y < (updateAt [x] _ w.rows).length then 1 else 0
    rw [updateAt, List.length_mapIdx]
    exact h.one y
  · exact h.recorded.overwrite (f := fun _ a => { a with gate := gate_id, status := .queued }) rfl
      (fun _ _ => rfl) (by decide) (fun z hz => List.mem_singleton.mp hz ▸ hc) y

/-- those who are yet to be requeued have a record, with a passport for the gate that closes -/
def Fit (w : World) (type : GateType) (pending : List Nat) : Prop :=
  ∀ x ∈ pending, ∃ a, w.guests[x]? = some a ∧ (a.guest.passport_type = .nonEU → type = .ALL)

theorem requeue {x first : Nat} {left others : List Nat} {type : GateType}
    (h : w.Settled T (x :: left)) (hfit : Fit w type (x :: left))
    (hall : ∀ g ∈ first :: others, w.Takes type g) :
    ∃ w', w.requeue first others x = some w' ∧ w'.Settled T left ∧ Fit w' type left ∧
      (∀ g ∈ first :: others, w'.Takes type g) ∧
      ∀ g, g ∉ first :: others → w'.heap[g]? = w.heap[g]? := by
  have hmem : argmin w.queueLength first others ∈ first :: others := argmin_mem _ _ _
  generalize ht : argmin w.queueLength first others = target at hmem
  obtain ⟨gate, hg, hk, htype⟩ := hall target hmem
  obtain ⟨a, ha, hpass⟩ := hfit x List.mem_cons_self
  -- nobody but the call has the guest
  have hone := h.one x
  rw [List.count_cons_self] at hone
  have hfree : w.stock x = 0 ∧ x ∉ w.completions := by
    split at hone
    · exact ⟨by omega, fun hc => by have := List.count_pos_iff.mpr hc; omega⟩
    · omega
  have hguests : ∀ y b, w.guests[y]? = some b → ∃ b', (w.retarget x gate.gate_id).guests[y]? = some b' ∧
      b'.guest = b.guest ∧ (y = x → b'.gate = gate.gate_id) := by
    intro y b hb
    refine ⟨_, (getElem?_updateAt [x] _ w.guests y).trans (by rw [hb]; rfl), ?_, fun e => ?_⟩
    · show Arrival.guest (if y ∈ [x] then _ else _) = _
      split <;> rfl
    · show Arrival.gate (if y ∈ [x] then _ else _) = _
      rw [if_pos (List.mem_singleton.mpr e)]
  refine ⟨((w.retarget x gate.gate_id).join target x).recordRow x gate.gate_id, ?_, ?_, ?_, ?_, ?_⟩
  · show w.heap[argmin w.queueLength first others]?.map _ = _
    rw [ht, hg]
    rfl
  · obtain ⟨a', ha', hguest, hgate⟩ := hguests x a ha
    refine (h.rename hfree.1 hfree.2 gate.gate_id).join hg hk htype (fun y => ?_) ha' (hgate rfl)
      (by rw [hguest]; exact hpass)
    rw [← List.singleton_append, List.count_append]
  · intro y hy
    obtain ⟨b, hb, hp⟩ := hfit y (List.mem_cons_of_mem _ hy)
    obtain ⟨b', hb', hguest, _⟩ := hguests y b hb
    exact ⟨b', hb', by rw [hguest]; exact hp⟩
  · intro g hgm
    obtain ⟨u, hu, hku, htu⟩ := hall g hgm
    by_cases e : g = target
    · subst e
      obtain rfl := Option.some.inj (hg.symm.trans hu)
      exact ⟨_, modifyGate_self (w := w.retarget x gate.gate_id) hg _, hku, htu⟩
    · exact ⟨u, (modifyGate_ne (w := w.retarget x gate.gate_id) e _).trans hu, hku, htu⟩
  · intro g hgm
    have hne : g ≠ target := by
      rintro rfl
      exact hgm hmem
    exact modifyGate_ne (w := w.retarget x gate.gate_id) hne _

theorem requeueAll {first : Nat} {left others : List Nat} {type : GateType}
    (h : w.Settled T left) (hfit : Fit w type left)
    (hall : ∀ g ∈ first :: others, w.Takes type g) :
    ∃ w', World.requeueAll first others w left = some w' ∧ w'.Settled T [] ∧
      (∀ g ∈ first :: others, w'.Takes type g) ∧
      ∀ g, g ∉ first :: others → w'.heap[g]? = w.heap[g]? := by
  induction left generalizing w with
  | nil => exact ⟨w, rfl, h, hall, fun _ _ => rfl⟩
  | cons x left ih =>
    obtain ⟨w₁, h₁, hs, hf, ht, hh⟩ := h.requeue hfit hall
    obtain ⟨w₂, h₂, hs₂, ht₂, hh₂⟩ := ih hs hf ht
    refine ⟨w₂, ?_, hs₂, ht₂, fun g hg => (hh₂ g hg).trans (hh g hg)⟩
    rw [World.requeueAll, h₁]
    exact h₂

theorem remove (h : w.Settled T []) {t : Nat} (hg : w.heap[g]? = some gate)
    (hk : w.gates.get? gate.gate_id = some g) (hempty : ∀ x, ¬ gate.Has x) (ht : t ≠ g)
    (hother : w.Takes gate.gate_type t) : (w.remove gate.gate_id).Settled T [] := by
  have hget : ∀ k g₁, w.gates.get? k = some g₁ → g₁ ≠ g →
      (w.remove gate.gate_id).gates.get? k = some g₁ := by
    intro k g₁ hk₁ hne
    refine (Dict.get?_del_ne w.gates ?_).trans hk₁
    rintro rfl
    exact hne (Option.some.inj (hk₁.symm.trans hk))
  refine ⟨h.agree, fun u hu => (h.tidy u hu).frame fun x _ => keeps_of_map rfl x,
    ⟨fun k g₁ hk₁ => ?_, fun type hT => ?_⟩, fun g₁ u hu hne x => ?_, h.one, h.recorded⟩
  · refine h.registry.keyed k g₁ ?_
    by_cases e : k = gate.gate_id
    · subst e
      exact absurd ((Dict.get?_del_self w.gates _).symm.trans hk₁) (by simp)
    · exact (Dict.get?_del_ne w.gates e).symm.trans hk₁
  · by_cases e : gate.gate_type = type
    · obtain ⟨u, hu, hku, htu⟩ := hother
      exact ⟨u.gate_id, t, u, hget _ _ hku ht, hu, htu.trans e⟩
    · obtain ⟨k, g₁, u, hk₁, hu, htu⟩ := h.registry.types type hT
      refine ⟨k, g₁, u, hget k g₁ hk₁ ?_, hu, htu⟩
      rintro rfl
      obtain rfl := Option.some.inj (hg.symm.trans hu)
      exact e htu
  · by_cases e : g₁ = g
    · subst e
      obtain rfl := Option.some.inj (hg.symm.trans hu)
      exact hempty x
    · exact h.closed g₁ u hu (fun hk₁ => hne (hget _ _ hk₁ e)) x

/-- a gate is another one than those of its type that `close_gate` lists -/
theorem sameType_takes (h : w.Settled T pending) {gate_id : String} {type : GateType} {t : Nat}
    (hk : w.gates.get? gate_id = some g) (ht : t ∈ w.sameType gate_id type) :
    t ≠ g ∧ w.Takes type t := by
  obtain ⟨⟨k, t⟩, hp, rfl⟩ := List.mem_map.mp ht
  obtain ⟨hitem, hc⟩ := List.mem_filter.mp hp
  obtain ⟨htype, hne⟩ := Bool.and_eq_true_iff.mp hc
  have hkt := Dict.mem_items_iff.mp hitem
  refine ⟨?_, takes_of_values h.registry (Dict.mem_values_iff.mpr ⟨k, hkt⟩) htype⟩
  rintro rfl
  -- the two keys would be the name of one gate
  obtain ⟨u, hu, hku⟩ := h.registry.keyed _ _ hkt
  obtain ⟨u', hu', hku'⟩ := h.registry.keyed _ _ hk
  obtain rfl := Option.some.inj (hu.symm.trans hu')
  exact absurd (hku.symm.trans hku') (bne_iff_ne.mp hne)

theorem deactivate (h : w.Settled T pending) (hg : w.heap[g]? = some gate) :
    (w.deactivate g).Settled T pending := by
  refine h.set hg (modify_eq_set hg _) rfl rfl rfl rfl rfl rfl (fun ht => ?_) (fun _ => rfl)
    (.inr fun _ hx => hx)
  exact ht.change rfl rfl (.refl _) (fun _ hx => .inr hx) ht.marks ht.booth

theorem displace_guests (hcp : gate.currently_processing = none) :
    (w.displace g gate).guests = w.guests := by
  show updateAt gate.currently_processing.toList _ w.guests = w.guests
  rw [hcp]
  exact updateAt_nil _ _

/-- the gate is empty after the locked section, and its queue is in the hands of the call -/
theorem displace (h : w.Settled T []) (hg : w.heap[g]? = some gate)
    (hcp : gate.currently_processing = none) (hmarks : gate.worker.marks = []) :
    (w.displace g gate).Settled T gate.queue := by
  refine h.set hg (modify_eq_set hg _) rfl rfl (displace_guests hcp) rfl rfl rfl (fun ht => ?_)
    (fun x => ?_) (.inr fun x hx => ?_)
  · refine ht.change rfl rfl (List.nil_sublist _) (fun x hx => .inr hx) (fun x hx => ?_) fun _ => rfl
    replace hx : x ∈ gate.worker.marks := hx
    rw [hmarks] at hx
    exact absurd hx List.not_mem_nil
  · show 0 + gate.worker.bundle.count x + gate.queue.count x =
      gate.queue.count x + gate.worker.bundle.count x + 0
    omega
  · exact hx.imp (fun hx => absurd hx List.not_mem_nil) id

theorem displace_takes {type : GateType} {t : Nat} (hg : w.heap[g]? = some gate) (hne : t ≠ g)
    (ht : w.Takes type t) : (w.displace g gate).Takes type t := by
  obtain ⟨u, hu, hk, htype⟩ := ht
  refine ⟨u, ?_, hk, htype⟩
  rw [show (w.displace g gate).heap = w.heap.set g _ from modify_eq_set hg _,
    List.getElem?_set_ne hne.symm]
  exact hu

theorem emptied (h : w.Settled T []) (k : Closing) (hg : w.heap[k.gate]? = some gate)
    (hk : w.gates.get? gate.gate_id = some k.gate) (hcp : gate.currently_processing = none)
    (hbundle : gate.worker.bundle = []) (hmarks : gate.worker.marks = [])
    (hall : ∀ t ∈ k.first :: k.others, t ≠ k.gate ∧ w.Takes gate.gate_type t) :
    ∃ w', World.requeueAll k.first k.others (w.displace k.gate gate)
        (gate.currently_processing.toList ++ gate.queue) = some w' ∧
      (w'.remove gate.gate_id).Settled T [] := by
  have hqueue : gate.currently_processing.toList ++ gate.queue = gate.queue := by
    rw [hcp]
    rfl
  have hfit : Fit (w.displace k.gate gate) gate.gate_type gate.queue := by
    intro x hx
    rw [displace_guests hcp]
    exact (h.tidy gate (List.mem_of_getElem? hg)).typed x (.inl hx)
  obtain ⟨w₁, hw₁, hs₁, hall₁, hkeep⟩ := (h.displace hg hcp hmarks).requeueAll hfit
    fun t ht => displace_takes hg (hall t ht).1 (hall t ht).2
  -- the gate itself is as the locked section has left it
  have hg₁ : w₁.heap[k.gate]? = some { gate with queue := [], currently_processing := none } := by
    rw [hkeep k.gate fun hm => (hall k.gate hm).1 rfl]
    exact modifyGate_self hg _
  have hk₁ : w₁.gates.get? gate.gate_id = some k.gate := by
    rw [requeueAll_gates hw₁]
    exact hk
  have hempty : ∀ x, ¬ Gate.Has { gate with queue := [], currently_processing := none } x :=
    Gate.not_has rfl hbundle
  have hs₂ := hs₁.remove hg₁ hk₁ hempty (hall k.first List.mem_cons_self).1
    (hall₁ k.first List.mem_cons_self)
  rw [hqueue]
  exact ⟨w₁, hw₁, hs₂⟩

/-- the checks of `close_gate` end: a key of the dictionary has its gate -/
theorem lookupClose_isSome (h : w.Settled T pending) (gate_id : String) :
    (Call.lookupClose w gate_id).isSome = true := by
  unfold Call.lookupClose
  split
  · rfl
  · rename_i g hg
    obtain ⟨gate, hgate, _⟩ := h.registry.keyed _ _ hg
    rw [hgate]
    rfl

theorem closeGate (h : w.Settled T []) {gate_id : String} (hidle : ∀ gate ∈ w.gateAt gate_id,
      gate.worker.free = true ∧ gate.worker.bundle = [] ∧ gate.worker.marks = []) :
    ∃ w', w.closeGate gate_id = some w' ∧ w'.Settled T [] := by
  unfold World.closeGate
  split
  · rename_i k hl
    obtain ⟨rfl, hk, gate, hg, hsame⟩ := lookupClose_closing hl
    obtain ⟨u, hu, hid⟩ := h.registry.keyed _ _ hk
    obtain rfl := Option.some.inj (hg.symm.trans hu)
    obtain ⟨hfree, hbundle, hmarks⟩ := hidle gate (by rw [Option.mem_def, World.gateAt, hk]; exact hg)
    have hcp : gate.currently_processing = none :=
      (h.tidy gate (List.mem_of_getElem? hg)).booth hfree
    have hall : ∀ t ∈ k.first :: k.others, t ≠ k.gate ∧ w.Takes gate.gate_type t := by
      intro t ht
      rw [← hsame] at ht
      exact h.sameType_takes hk ht
    have hg₁ : (w.deactivate k.gate).heap[k.gate]? = some { gate with active := false } :=
      modifyGate_self hg _
    have hk₁ : (w.deactivate k.gate).gates.get? gate.gate_id = some k.gate := by
      rw [hid]
      exact hk
    have hall₁ : ∀ t ∈ k.first :: k.others,
        t ≠ k.gate ∧ (w.deactivate k.gate).Takes gate.gate_type t := by
      intro t ht
      obtain ⟨hne, u, hu, hku, htu⟩ := hall t ht
      exact ⟨hne, u, (modifyGate_ne hne _).trans hu, hku, htu⟩
    obtain ⟨w₁, hw₁, hs₁⟩ := (h.deactivate hg).emptied k hg₁ hk₁ hcp hbundle hmarks hall₁
    refine ⟨w₁.remove k.gate_id, ?_, by rw [← hid]; exact hs₁⟩
    rw [World.close, hg₁]
    show (World.requeueAll _ _ _ _).map _ = _
    rw [hw₁]
    rfl
  · exact ⟨w, rfl, h⟩
  · rename_i hl
    have := h.lookupClose_isSome gate_id
    rw [hl] at this
    exact absurd this (by simp)

end World.Settled

end

end Airport
