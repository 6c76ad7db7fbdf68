import Purrlington.Airport.Settled

/-!
# Airport: the invariant of the gate manager

* `World.AtRest`         between whole operations the workers rest;
* `init_settled`         the fresh manager;
* `World.Invariant`      queues in order of rank, every queued guest under the name of its gate,
                         non-EU passports at gates of type ALL, every arrival at one gate until it is
                         processed, a gate of each type;
* `Unoccupied`           a gate is closed only when it has no bundle in flight;
* `serial_invariant`     the invariant holds after every run of whole operations.
-/

set_option linter.unusedSectionVars false

namespace Airport
open SM Ledger

section
variable {cfg : Config} {w w' : World} {g : Nat} {gate : Gate}

/-! ## workers at rest -/

/-- every worker is at the head of its loop, in the booth or at its end -/
def World.AtRest (w : World) : Prop := ∀ gate ∈ w.heap, gate.worker.left = 0

theorem toRest_other {n j : Nat} (hj : j ≠ g) (h : w.toRest cfg g n = some w') :
    w'.heap[j]? = w.heap[j]? := by
  induction n generalizing w with
  | zero =>
    obtain rfl := Option.some.inj h
    rfl
  | succ n ih =>
    rw [World.toRest] at h
    split at h
    · obtain rfl := Option.some.inj h
      rfl
    · obtain ⟨w₁, h₁, h⟩ := Option.bind_eq_some_iff.mp h
      obtain ⟨gate, gate', _, hh, _⟩ := work_gate h₁
      rw [ih h, hh, List.getElem?_set_ne hj.symm]

theorem World.AtRest.operate (h : w.AtRest) (hw : w.operate cfg g = some w') : w'.AtRest := by
  obtain ⟨w₁, h₁, hw⟩ := Option.bind_eq_some_iff.mp hw
  intro u hu
  obtain ⟨j, hj⟩ := List.mem_iff_getElem?.mp hu
  by_cases e : j = g
  · subst e
    rw [← left_eq hj]
    exact toRest_rests (Nat.le_refl _) hw
  · obtain ⟨gate, gate', _, hh, _⟩ := work_gate h₁
    rw [toRest_other e hw, hh, List.getElem?_set_ne fun e' => e e'.symm] at hj
    exact h u (List.mem_of_getElem? hj)

theorem World.AtRest.alone {call call' : Call} {as : List Unit} (h : w.AtRest)
    (hs : Alone cfg w call as w' call') : w'.AtRest := by
  induction as generalizing w call with
  | nil =>
    obtain ⟨rfl, _⟩ := hs
    exact h
  | cons a as ih =>
    obtain ⟨_, w₁, call₁, hst, hr⟩ := hs
    refine ih (fun u hu => ?_) hr
    have hle := le_total (w := fun gate : Gate => gate.worker.left) hu
    rw [(step_moves hst).total_worker (f := Worker.left) rfl, total_eq_zero h] at hle
    exact Nat.le_zero.mp hle

theorem World.AtRest.marks (h : w.AtRest) (hg : gate ∈ w.heap) : gate.worker.marks = [] := by
  have hrest := h gate hg
  cases hw : gate.worker with
  | holding bundle held =>
    rw [hw] at hrest
    exact absurd hrest (Nat.succ_ne_zero 1)
  | _ => rfl

theorem World.AtRest.idle (h : w.AtRest) (hg : gate ∈ w.heap) (hb : gate.worker.bundle = []) :
    gate.worker.free = true ∧ gate.worker.bundle = [] ∧ gate.worker.marks = [] := by
  have hrest := h gate hg
  refine ⟨?_, hb, h.marks hg⟩
  cases hw : gate.worker with
  | publishing left =>
    rw [hw] at hrest
    exact absurd hrest (Nat.succ_ne_zero _)
  | _ =>
    rw [hw] at hb
    exact decide_eq_true hb

/-! ## the first state -/

/-- the key leads to a gate of this type -/
def World.TypeAt (w : World) (k : String) (type : GateType) : Prop :=
  ∃ g gate, w.gates.get? k = some g ∧ w.heap[g]? = some gate ∧ gate.gate_type = type

theorem register_heap (gate_id : String) (t : GateType) {u : Gate} (hu : w.heap[g]? = some u) :
    (w.register cfg gate_id t).heap[g]? = some u :=
  (List.getElem?_append_left (List.getElem?_eq_some_iff.mp hu).1).trans hu

theorem typeAt_register (gate_id : String) (t : GateType) :
    (w.register cfg gate_id t).TypeAt gate_id t :=
  ⟨w.heap.length, _, Dict.get?_set_self _ _ _, List.getElem?_concat_length, rfl⟩

theorem World.TypeAt.registerAll {k : String} {type t : GateType} (ids : Nat → String) (l : List Nat)
    (h : w.TypeAt k type) (hl : ∀ i ∈ l, k ≠ ids i ∨ t = type) :
    (l.foldl (fun w i => w.register cfg (ids i) t) w).TypeAt k type := by
  induction l generalizing w with
  | nil => exact h
  | cons i l ih =>
    refine ih ?_ fun j hj => hl j (List.mem_cons_of_mem _ hj)
    by_cases e : k = ids i
    · obtain rfl := (hl i List.mem_cons_self).resolve_left (fun hne => hne e)
      rw [e]
      exact typeAt_register _ _
    · obtain ⟨g, u, hk, hu, ht⟩ := h
      exact ⟨g, u, (Dict.get?_set_ne w.gates e _).trans hk, register_heap _ _ hu, ht⟩

theorem keyed_registerAll {t : GateType} (ids : Nat → String) (l : List Nat)
    (h : ∀ k g, w.gates.get? k = some g → ∃ gate, w.heap[g]? = some gate ∧ gate.gate_id = k) :
    ∀ k g, (l.foldl (fun w i => w.register cfg (ids i) t) w).gates.get? k = some g →
      ∃ gate, (l.foldl (fun w i => w.register cfg (ids i) t) w).heap[g]? = some gate ∧
        gate.gate_id = k := by
  induction l generalizing w with
  | nil => exact h
  | cons i l ih =>
    apply ih
    intro k g hk
    by_cases e : k = ids i
    · subst e
      replace hk : (w.gates.set (ids i) w.heap.length).get? (ids i) = some g := hk
      rw [Dict.get?_set_self] at hk
      obtain rfl := Option.some.inj hk
      exact ⟨_, List.getElem?_concat_length, rfl⟩
    · obtain ⟨u, hu, hid⟩ := h k g ((Dict.get?_set_ne w.gates e _).symm.trans hk)
      exact ⟨u, register_heap _ _ hu, hid⟩

theorem names_differ (s t : String) : "EU-" ++ s ≠ "ALL-" ++ t := by
  intro h
  have := congrArg (fun s => s.toList.head?) h
  simp at this

def Config.Types (cfg : Config) : GateType → Prop
  | .EU => 1 ≤ cfg.euGates
  | .ALL => 1 ≤ cfg.allGates

theorem range_cons {n : Nat} (h : 1 ≤ n) : ∃ l, List.range n = 0 :: l := by
  obtain ⟨m, rfl⟩ := Nat.exists_eq_add_of_le h
  exact ⟨_, by rw [Nat.add_comm, List.range_succ_eq_map]⟩

theorem init_registry (cfg : Config) : (World.init cfg).Registry cfg.Types := by
  refine ⟨?_, fun type hT => ?_⟩
  · refine keyed_registerAll _ _ (keyed_registerAll _ _ ?_)
    intro k g hk
    exact absurd hk (by simp [Dict.get?, Dict.empty, Dict.find])
  · cases type with
    | EU =>
      obtain ⟨l, hl⟩ := range_cons hT
      refine ⟨"EU-" ++ toString (0 + 1), ?_⟩
      refine World.TypeAt.registerAll _ _ ?_ fun i _ => .inl (names_differ _ _)
      rw [hl]
      exact (typeAt_register _ _).registerAll _ l fun i _ => .inr rfl
    | ALL =>
      obtain ⟨l, hl⟩ := range_cons hT
      refine ⟨"ALL-" ++ toString (0 + 1), ?_⟩
      unfold World.init
      rw [hl]
      exact (typeAt_register _ _).registerAll _ l fun i _ => .inr rfl

theorem World.Fresh.not_has {w : World} (h : w.Fresh) :
    ∀ gate ∈ w.heap, ∀ x, ¬ gate.Has x := by
  intro gate hg
  obtain ⟨hq, hw, _⟩ := h.gates gate hg
  exact Gate.not_has hq (congrArg Worker.bundle hw)

theorem init_settled (cfg : Config) : (World.init cfg).Settled cfg.Types [] := by
  have hf := World.init_fresh cfg
  have hhas := hf.not_has
  refine ⟨by rw [hf.guests, hf.rows], fun gate hg => ?_, init_registry cfg,
    fun g gate hg _ => hhas gate (List.mem_of_getElem? hg), fun x => ?_, fun x => ?_⟩
  · obtain ⟨hq, hw, hcp⟩ := hf.gates gate hg
    refine ⟨by rw [hq]; exact .nil, fun x hx => ?_, fun x hx => absurd hx (hhas gate hg x),
      fun x hx => ?_, fun _ => hcp⟩
    · exact absurd (.inl hx) (hhas gate hg x)
    · rw [hw] at hx
      exact absurd hx List.not_mem_nil
  · rw [hf.stock, hf.completions, hf.rows]
    rfl
  · rw [World.statusOf, hf.rows, hf.completions]
    exact ⟨fun e => absurd e (by simp), fun hx => absurd hx List.not_mem_nil⟩

end

/-! ## the invariant -/

structure World.Invariant (w : World) : Prop where
  sorted : ∀ gate ∈ w.heap, gate.queue.Pairwise fun x y => w.rank x ≤ w.rank y
  named : ∀ g gate, w.heap[g]? = some gate → ∀ x ∈ gate.queue,
    w.gates.get? gate.gate_id = some g ∧ w.guests[x]?.map Arrival.gate = some gate.gate_id ∧
      w.rows[x]?.map Arrival.gate = some gate.gate_id
  typed : ∀ gate ∈ w.heap, ∀ x, gate.Has x → ∀ a ∈ w.rows[x]?,
    a.guest.passport_type = .nonEU → gate.gate_type = .ALL
  waiting : ∀ x, ∀ a ∈ w.rows[x]?, a.status ≠ .processed → ∃ k g gate,
    w.gates.get? k = some g ∧ w.heap[g]? = some gate ∧ gate.queue.count x + gate.worker.bundle.count x = 1 ∧
      ∀ g' gate', g' ≠ g → w.heap[g']? = some gate' → ¬ gate'.Has x
  processed : ∀ x, ∀ a ∈ w.rows[x]?, a.status = .processed → ∀ gate ∈ w.heap, ¬ gate.Has x
  types : ∀ type, ∃ k gate, w.gateAt k = some gate ∧ gate.gate_type = type

/-- a gate is closed only when it has no bundle in flight -/
def Unoccupied (w : World) : Op → Prop
  | .close gate_id => ∀ gate ∈ w.gateAt gate_id, gate.worker.bundle = []
  | _ => True

instance (w : World) : ∀ op, Decidable (Unoccupied w op)
  | .close gate_id => inferInstanceAs
      (Decidable (∀ gate ∈ w.gateAt gate_id, gate.worker.bundle = []))
  | .assign _ | .open _ _ | .work _ | .tick _ => isTrue trivial

section
variable {cfg : Config} {w w' : World} {T : GateType → Prop}

theorem gateAt_mem {k : String} {gate : Gate} (h : w.gateAt k = some gate) : gate ∈ w.heap := by
  obtain ⟨g, _, hg⟩ := Option.bind_eq_some_iff.mp h
  exact List.mem_of_getElem? hg

theorem World.Settled.row_of_guest (h : w.Settled T []) {x : Nat} {a : Arrival}
    (ha : w.guests[x]? = some a) : ∃ b, w.rows[x]? = some b ∧ b.key = a.key := by
  have hx := congrArg (fun l => l[x]?) h.agree
  rw [List.getElem?_map, List.getElem?_map, ha] at hx
  obtain ⟨b, hb, hk⟩ := Option.map_eq_some_iff.mp hx.symm
  exact ⟨b, hb, hk⟩

theorem World.Settled.stock_one (h : w.Settled T []) {x : Nat} {a : Arrival}
    (ha : w.rows[x]? = some a) (hne : a.status ≠ .processed) : w.stock x = 1 := by
  have hnot : x ∉ w.completions := by
    intro hc
    have hst := (h.recorded x).mpr hc
    rw [World.statusOf, ha] at hst
    exact hne (Option.some.inj hst)
  have hone := h.one x
  rwa [if_pos (List.getElem?_eq_some_iff.mp ha).1, List.count_nil,
    List.count_eq_zero.mpr hnot] at hone

theorem World.Settled.invariant (h : w.Settled T []) (hT : ∀ type, T type) : w.Invariant := by
  refine ⟨fun gate hg => (h.tidy gate hg).sorted, fun g gate hg x hx => ?_, fun gate hg x hx a ha => ?_,
    fun x a ha hne => ?_, fun x a ha hst gate hg hx => ?_, fun type => ?_⟩
  · obtain ⟨a, ha, hn⟩ := (h.tidy gate (List.mem_of_getElem? hg)).named x hx
    obtain ⟨b, hb, hk⟩ := h.row_of_guest ha
    refine ⟨?_, by rw [ha]; exact congrArg some hn, ?_⟩
    · by_contra hk
      exact h.closed g gate hg hk x (.inl hx)
    · obtain ⟨_, hrest⟩ := Prod.mk.inj hk
      rw [hb]
      exact congrArg some ((Prod.mk.inj hrest).2.trans hn)
  · obtain ⟨b, hb, ht⟩ := (h.tidy gate hg).typed x hx
    obtain ⟨a', ha', hk⟩ := h.row_of_guest hb
    obtain rfl := Option.some.inj (ha'.symm.trans ha)
    obtain ⟨hguest, _⟩ := Prod.mk.inj hk
    rw [hguest]
    exact ht
  · obtain ⟨g, gate, hg, hx, hz⟩ := exists_of_total_eq_one (h.stock_one ha hne)
    refine ⟨gate.gate_id, g, gate, ?_, hg, hx, fun g' gate' hne hg' hhas => ?_⟩
    · by_contra hk
      exact h.closed g gate hg hk x (Gate.holds_pos.mp (by omega))
    · have := hz g' gate' hne hg'
      have := Gate.holds_pos.mpr hhas
      omega
  · obtain ⟨g, hg⟩ := List.mem_iff_getElem?.mp hg
    refine (h.row hg hx).2 ((h.recorded x).mp ?_)
    rw [World.statusOf, ha]
    exact congrArg some hst
  · obtain ⟨k, g, gate, hk, hg, ht⟩ := h.registry.types type (hT type)
    exact ⟨k, gate, by rw [World.gateAt, hk]; exact hg, ht⟩

theorem World.Settled.tick (h : w.Settled T []) (d : Nat) :
    World.Settled T [] { w with now := w.now + d } :=
  ⟨h.agree, fun u hu => (h.tidy u hu).frame fun x _ => keeps_of_map rfl x,
    ⟨h.registry.keyed, h.registry.types⟩, h.closed, h.one, h.recorded⟩

theorem World.AtRest.idle_at (hr : w.AtRest) {gate_id : String} (hu : Unoccupied w (.close gate_id)) :
    ∀ gate ∈ w.gateAt gate_id, gate.worker.free = true ∧ gate.worker.bundle = [] ∧
      gate.worker.marks = [] :=
  fun gate hgate => hr.idle (gateAt_mem hgate) (hu gate hgate)

/-- no operation is stuck: a call goes through, and so does a worker that has not ended -/
theorem World.Settled.goes (h : w.Settled T []) (hr : w.AtRest) {op : Op} (hu : Unoccupied w op)
    (hg : ∀ g, op = .work g → ∃ gate, w.heap[g]? = some gate ∧ gate.worker ≠ .stopped) :
    ∃ w', serial cfg w op = some w' := by
  cases op with
  | assign guest =>
    obtain ⟨w', hw, _⟩ := h.assign guest
    exact ⟨w', hw⟩
  | «open» gate_id gate_type => exact ⟨_, rfl⟩
  | close gate_id =>
    obtain ⟨w', hw, _⟩ := h.closeGate (hr.idle_at hu)
    exact ⟨w', hw⟩
  | work g =>
    obtain ⟨gate, hgate, hne⟩ := hg g rfl
    exact operate_isSome hgate hne
  | tick d => exact ⟨_, rfl⟩

theorem World.Settled.serial (h : w.Settled T []) (hr : w.AtRest) {op : Op} (hu : Unoccupied w op)
    (hw : serial cfg w op = some w') : w'.Settled T [] ∧ w'.AtRest := by
  cases op with
  | assign guest =>
    obtain ⟨w₁, h₁, hs⟩ := h.assign guest
    obtain rfl := Option.some.inj (h₁.symm.trans hw)
    obtain ⟨_, _, ha⟩ : ∃ as call, Alone cfg w (.choose guest) as w₁ call := assign_alone h₁
    exact ⟨hs, hr.alone ha⟩
  | «open» gate_id gate_type =>
    obtain rfl := Option.some.inj hw
    obtain ⟨_, _, ha⟩ := @open_alone cfg w gate_id gate_type
    exact ⟨h.openGate gate_id gate_type, hr.alone ha⟩
  | close gate_id =>
    obtain ⟨w₁, h₁, hs⟩ := h.closeGate (hr.idle_at hu)
    obtain rfl := Option.some.inj (h₁.symm.trans hw)
    obtain ⟨_, _, ha⟩ : ∃ as call, Alone cfg w (.lookup gate_id) as w₁ call := close_alone h₁
    exact ⟨hs, hr.alone ha⟩
  | work g => exact ⟨h.operate hw, hr.operate hw⟩
  | tick d =>
    obtain rfl := Option.some.inj hw
    exact ⟨h.tick d, hr⟩

end

theorem serial_settled (cfg : Config) {ops : List Op} {w : World}
    (hrun : (serial cfg).Runs Unoccupied (World.init cfg) ops w) :
    w.Settled cfg.Types [] ∧ w.AtRest := by
  refine hrun.inv (P := fun w => w.Settled cfg.Types [] ∧ w.AtRest)
    (fun w op w' h hu hw => h.1.serial h.2 hu hw) ⟨init_settled cfg, ?_⟩
  intro gate hg
  rw [((World.init_fresh cfg).gates gate hg).2.1]
  rfl

/-- **The invariant of the gate manager.**  From a fresh manager with at least one gate of each type,
after every run of whole operations in which a gate is closed only while it has no bundle in flight. -/
theorem serial_invariant (cfg : Config) (heu : 1 ≤ cfg.euGates) (hall : 1 ≤ cfg.allGates)
    (ops : List Op) (w : World) (hrun : (serial cfg).Runs Unoccupied (World.init cfg) ops w) :
    w.Invariant := by
  obtain ⟨hs, _⟩ := serial_settled cfg hrun
  refine hs.invariant ?_
  intro type
  cases type with
  | EU => exact heu
  | ALL => exact hall

def andrei : Guest := ⟨"guest-1", "ana", "andrei", 34, .EU, .standard, false⟩
def mihai : Guest := ⟨"guest-2", "ion", "andrei", 7, .EU, .fast, false⟩
def chang : Guest := ⟨"guest-3", "li", "chang", 50, .nonEU, .standard, true⟩

/-- the child is held at EU-2, the gate closes and it joins its mother at EU-1; both are picked and
completed, and so is a guest at ALL-1; a gate opens and takes another arrival -/
def familyDay : List Op :=
  [.assign andrei, .tick 5, .assign mihai, .assign chang, .work 1, .close "EU-2", .work 0, .work 2,
   .tick 40, .work 0, .work 2, .open "EU-9" "EU", .work 0, .assign andrei, .work 3]

theorem serial_invariant_family : ∃ w, (serial threeGates).Runs Unoccupied (World.init threeGates)
    familyDay w ∧
    w.rows.map (fun a => (a.status, a.gate)) = [(.processed, "EU-1"), (.processed, "EU-1"),
      (.processed, "ALL-1"), (.queued, "EU-1")] ∧ w.Invariant :=
  ⟨_, Machine.runs_iff_runG.mpr rfl, rfl,
    serial_invariant threeGates (by decide) (by decide) familyDay _ (Machine.runs_iff_runG.mpr rfl)⟩

end Airport
