import Purrlington.Airport.Upkeep
import Mathlib.Data.List.Sort

/-!
# Airport: a restart

A new process builds the configured gates and puts the unfinished rows back into their queues.  A
gate that was opened at runtime is not among the configured ones, and `_rehydrate_from_db` skips the
rows that name it.

* `Fetched`               the rows of its query, in one of the orders the database may give them;
* `World.restart`         the manager after `__init__` on the rows that the last process has left;
* `restart_queue`         the queue of every gate then: the unfinished rows that name it;
* `restart_keeps_iff`     nobody is lost exactly when every unfinished row names a configured gate;
* `lost_by_restart`       a guest of a gate that was opened at runtime.
-/

set_option linter.unusedSectionVars false

namespace Airport
open SM Ledger

/-! ## _rehydrate_from_db -/

/-- the statuses that the query asks for -/
def Arrival.unfinished (a : Arrival) : Bool :=
  match a.status with
  | .queued => true
  | .processing => true
  | .held => true
  | .processed => false

namespace World

def unfinished (w : World) (x : Nat) : Bool :=
  match w.rows[x]? with
  | some a => a.unfinished
  | none => false

def queuedAt (w : World) (x : Nat) : Int :=
  match w.rows[x]? with
  | some a => a.queued_at
  | none => 0

/-- a result of the query: the unfinished rows by `queued_at`, those of one time in any order -/
structure Fetched (w : World) (l : List Nat) : Prop where
  perm : l.Perm ((List.range w.rows.length).filter w.unfinished)
  sorted : l.Pairwise fun x y => w.queuedAt x ≤ w.queuedAt y

/-- the result in which rows of one time are by id -/
def fetch (w : World) : List Nat :=
  ((List.range w.rows.length).filter w.unfinished).insertionSort fun x y => w.queuedAt x ≤ w.queuedAt y

/-- a guest that was being processed is queued again, before all others -/
def putFirst (w : World) (g x : Nat) : World :=
  { w with
    guests := updateAt [x] (setStatus .queued) w.guests
    rows := updateAt [x] (setStatus .queued) w.rows
    heap := w.heap.modify g fun gate => { gate with queue := x :: gate.queue } }

/-- the loop body of `_rehydrate_from_db` -/
def rehydrate (w : World) (x : Nat) : World :=
  match w.rows[x]? with
  | none => w
  | some row =>
    match w.gates.get? row.gate with
    | none => w
    | some g => if row.status = .processing then w.putFirst g x else w.join g x

/-- `GateManager.__init__` and `start_all` on the rows of the last process, which the schema dumps as
the records of their guests; the record of a row that is not fetched is never read -/
def restart (cfg : Config) (w : World) (l : List Nat) : World :=
  l.foldl rehydrate { World.init cfg with
    rows := w.rows, guests := w.rows, completions := w.completions, events := w.events, now := w.now }

/-- the gate that a row names -/
def dest (w : World) (x : Nat) : Option Nat := w.rows[x]?.bind fun a => w.gates.get? a.gate

end World

section
variable {cfg : Config} {w : World} {l : List Nat}

theorem fetch_fetched (w : World) : w.Fetched w.fetch := by
  refine ⟨List.perm_insertionSort _ _, ?_⟩
  have := List.pairwise_insertionSort (fun x y => w.queuedAt x ≤ w.queuedAt y)
    ((List.range w.rows.length).filter w.unfinished)
  exact this

theorem World.Fetched.mem_iff (h : w.Fetched l) {x : Nat} :
    x ∈ l ↔ ∃ a, w.rows[x]? = some a ∧ a.unfinished = true := by
  rw [h.perm.mem_iff, List.mem_filter, List.mem_range, World.unfinished]
  constructor
  · rintro ⟨hx, hu⟩
    rw [List.getElem?_eq_getElem hx] at hu ⊢
    exact ⟨_, rfl, hu⟩
  · rintro ⟨a, ha, hu⟩
    rw [ha]
    exact ⟨(List.getElem?_eq_some_iff.mp ha).1, hu⟩

theorem World.Fetched.nodup (h : w.Fetched l) : l.Nodup :=
  h.perm.nodup_iff.mpr (List.nodup_range.filter _)

/-! ## the queues after a restart -/

theorem rehydrate_cases (w : World) (x : Nat) :
    w.dest x = none ∧ w.rehydrate x = w ∨
      ∃ g, w.dest x = some g ∧
        (w.statusOf x = some .processing ∧ w.rehydrate x = w.putFirst g x ∨
          w.statusOf x ≠ some .processing ∧ w.rehydrate x = w.join g x) := by
  unfold World.rehydrate World.dest World.statusOf
  split
  · rename_i hx
    rw [hx]
    exact .inl ⟨rfl, rfl⟩
  · rename_i row hx
    rw [hx]
    show w.gates.get? row.gate = none ∧ _ ∨ ∃ g, w.gates.get? row.gate = some g ∧ _
    split
    · rename_i hn
      exact .inl ⟨hn, rfl⟩
    · rename_i g hg
      refine .inr ⟨g, hg, ?_⟩
      split
      · rename_i hst
        exact .inl ⟨congrArg some hst, rfl⟩
      · rename_i hst
        exact .inr ⟨fun e => hst (Option.some.inj e), rfl⟩

theorem rehydrate_gates (w : World) (x : Nat) : (w.rehydrate x).gates = w.gates := by
  obtain ⟨_, e⟩ | ⟨g, _, ⟨_, e⟩ | ⟨_, e⟩⟩ := rehydrate_cases w x <;> rw [e] <;> rfl

theorem rehydrate_key (w : World) (x : Nat) :
    (w.rehydrate x).rows.map Arrival.key = w.rows.map Arrival.key := by
  obtain ⟨_, e⟩ | ⟨g, _, ⟨_, e⟩ | ⟨_, e⟩⟩ := rehydrate_cases w x
  · rw [e]
  · rw [e]
    exact map_updateAt (f := setStatus .queued) (fun _ _ => rfl) _ _
  · rw [e]
    rfl

theorem dest_of_key {w' : World} (hg : w'.gates = w.gates)
    (hk : w'.rows.map Arrival.key = w.rows.map Arrival.key) (x : Nat) : w'.dest x = w.dest x := by
  have hx := congrArg (fun l => (l[x]?).bind fun k : Guest × Int × String => w.gates.get? k.2.2) hk
  rw [List.getElem?_map, List.getElem?_map, Option.bind_map, Option.bind_map] at hx
  rw [World.dest, World.dest, hg]
  exact hx

theorem rehydrate_dest (w : World) (x : Nat) : (w.rehydrate x).dest = w.dest :=
  funext fun y => dest_of_key (rehydrate_gates w x) (rehydrate_key w x) y

theorem rehydrate_queue (w : World) (x : Nat) {g : Nat} {gate : Gate} (hg : w.heap[g]? = some gate) :
    ∃ gate', (w.rehydrate x).heap[g]? = some gate' ∧ gate'.gate_id = gate.gate_id ∧
      gate'.queue.Perm (if w.dest x = some g then x :: gate.queue else gate.queue) := by
  obtain ⟨hd, e⟩ | ⟨g₁, hd, e⟩ := rehydrate_cases w x
  · rw [e, hd]
    exact ⟨gate, hg, rfl, .refl _⟩
  · by_cases hne : g = g₁
    · subst hne
      rw [if_pos hd]
      obtain ⟨_, e⟩ | ⟨_, e⟩ := e
      · rw [e]
        exact ⟨_, modifyGate_self hg _, rfl, .refl _⟩
      · rw [e]
        exact ⟨_, modifyGate_self hg _, rfl, enqueue_perm w.rank gate.queue x⟩
    · rw [hd, if_neg fun h => hne (Option.some.inj h).symm]
      refine ⟨gate, ?_, rfl, .refl _⟩
      obtain ⟨_, e⟩ | ⟨_, e⟩ := e
      · rw [e]
        exact (modifyGate_ne hne _).trans hg
      · rw [e]
        exact (modifyGate_ne hne _).trans hg

theorem rehydrateAll_gates (w : World) (l : List Nat) : (l.foldl World.rehydrate w).gates = w.gates := by
  induction l generalizing w with
  | nil => rfl
  | cons x l ih => exact (ih (w.rehydrate x)).trans (rehydrate_gates w x)

theorem rehydrateAll_queue (w : World) (l : List Nat) {g : Nat} {gate : Gate}
    (hg : w.heap[g]? = some gate) :
    ∃ gate', (l.foldl World.rehydrate w).heap[g]? = some gate' ∧ gate'.gate_id = gate.gate_id ∧
      gate'.queue.Perm (l.filter (fun x => w.dest x = some g) ++ gate.queue) := by
  induction l generalizing w gate with
  | nil => exact ⟨gate, hg, rfl, .refl _⟩
  | cons x l ih =>
    obtain ⟨gate₁, hg₁, hid₁, hp₁⟩ := rehydrate_queue w x hg
    obtain ⟨gate₂, hg₂, hid₂, hp₂⟩ := ih (w.rehydrate x) hg₁
    refine ⟨gate₂, hg₂, hid₂.trans hid₁, hp₂.trans ?_⟩
    rw [rehydrate_dest, List.filter_cons]
    by_cases hd : w.dest x = some g
    · rw [if_pos hd] at hp₁
      rw [if_pos (decide_eq_true hd)]
      exact (hp₁.append_left _).trans List.perm_middle
    · rw [if_neg hd] at hp₁
      rw [if_neg (by simpa using hd)]
      exact hp₁.append_left _

/-- the names of the configured gates -/
def Config.gateIds (cfg : Config) : List String :=
  ((List.range cfg.euGates).map fun i => "EU-" ++ toString (i + 1)) ++
    (List.range cfg.allGates).map fun i => "ALL-" ++ toString (i + 1)

theorem registerAll_isSome {t : GateType} (ids : Nat → String) (l : List Nat) (w : World) (k : String) :
    ((l.foldl (fun w i => w.register cfg (ids i) t) w).gates.get? k).isSome ↔
      (w.gates.get? k).isSome ∨ k ∈ l.map ids := by
  induction l generalizing w with
  | nil => simp
  | cons i l ih =>
    refine (ih (w.register cfg (ids i) t)).trans ?_
    rw [List.map_cons, List.mem_cons, ← or_assoc]
    refine or_congr ?_ Iff.rfl
    show ((w.gates.set (ids i) w.heap.length).get? k).isSome ↔ _
    by_cases e : k = ids i
    · rw [e, Dict.get?_set_self]
      simp
    · rw [Dict.get?_set_ne w.gates e]
      simp [e]

theorem init_isSome (cfg : Config) (k : String) :
    ((World.init cfg).gates.get? k).isSome ↔ k ∈ cfg.gateIds := by
  rw [World.init, registerAll_isSome, registerAll_isSome, Config.gateIds, List.mem_append]
  simp [Dict.get?, Dict.empty, Dict.find]

/-- a row goes to a configured gate only by the gate's own name -/
theorem init_dest {k : String} {g : Nat} (hk : (World.init cfg).gates.get? k = some g) (w : World)
    (x : Nat) : (w.rows[x]?.bind fun a => (World.init cfg).gates.get? a.gate) = some g ↔
      w.rows[x]?.map Arrival.gate = some k := by
  constructor
  · intro h
    obtain ⟨a, ha, hga⟩ := Option.bind_eq_some_iff.mp h
    obtain ⟨gate₀, hg₀, hid₀⟩ := (init_registry cfg).keyed k g hk
    obtain ⟨gate₁, hg₁, hid₁⟩ := (init_registry cfg).keyed a.gate g hga
    obtain rfl := Option.some.inj (hg₀.symm.trans hg₁)
    rw [ha]
    exact congrArg some (hid₁.symm.trans hid₀)
  · intro h
    obtain ⟨a, ha, rfl⟩ := Option.map_eq_some_iff.mp h
    rw [ha]
    exact hk

/-- **The queue of a gate after a restart**: the fetched rows that name it. -/
theorem restart_queue (cfg : Config) (w : World) (l : List Nat) {k : String} {g : Nat}
    (hk : (World.init cfg).gates.get? k = some g) :
    ∃ gate, (w.restart cfg l).gateAt k = some gate ∧
      gate.queue.Perm (l.filter fun x => w.rows[x]?.map Arrival.gate = some k) := by
  obtain ⟨gate₀, hg₀, _⟩ := (init_registry cfg).keyed k g hk
  obtain ⟨gate, hg, _, hp⟩ := rehydrateAll_queue { World.init cfg with
    rows := w.rows, guests := w.rows, completions := w.completions, events := w.events, now := w.now }
    l hg₀
  refine ⟨gate, ?_, hp.trans ?_⟩
  · rw [World.gateAt, World.restart, rehydrateAll_gates]
    show ((World.init cfg).gates.get? k).bind _ = _
    rw [hk]
    exact hg
  · rw [((World.init_fresh cfg).gates gate₀ (List.mem_of_getElem? hg₀)).1, List.append_nil]
    refine .of_eq (List.filter_congr ?_)
    intro x _
    exact decide_eq_decide.mpr (init_dest hk w x)

end

/-! ## who is lost -/

/-- the guest is in the queue of exactly one gate, once -/
def World.InOneQueue (w : World) (x : Nat) : Prop :=
  ∃ k gate, w.gateAt k = some gate ∧ gate.queue.count x = 1 ∧
    ∀ k' gate', k' ≠ k → w.gateAt k' = some gate' → x ∉ gate'.queue

theorem not_inOneQueue {w : World} {x : Nat} (h : ∀ gate ∈ w.heap, x ∉ gate.queue) :
    ¬ w.InOneQueue x := by
  rintro ⟨k, gate, hgate, hc, _⟩
  exact h gate (gateAt_mem hgate) (List.count_pos_iff.mp (by omega))

/-- every unfinished row names a configured gate -/
def World.NamesConfigured (cfg : Config) (w : World) : Prop :=
  ∀ x : Nat, ∀ a ∈ w.rows[x]?, a.unfinished = true → a.gate ∈ cfg.gateIds

section
variable {cfg : Config} {w w' : World} {l : List Nat}

theorem restart_gates (cfg : Config) (w : World) (l : List Nat) :
    (w.restart cfg l).gates = (World.init cfg).gates := rehydrateAll_gates _ l

/-- the row is in the queue of the gate that it names, and in no other -/
theorem restart_inOneQueue_iff (hl : w.Fetched l) {x : Nat} {a : Arrival} (ha : w.rows[x]? = some a)
    (hu : a.unfinished = true) : (w.restart cfg l).InOneQueue x ↔ a.gate ∈ cfg.gateIds := by
  have hmem : ∀ k gate, (w.restart cfg l).gateAt k = some gate →
      (x ∈ gate.queue ↔ k = a.gate) ∧ gate.queue.Nodup ∧ k ∈ cfg.gateIds := by
    intro k gate hgate
    obtain ⟨g, hk, _⟩ := Option.bind_eq_some_iff.mp hgate
    rw [restart_gates] at hk
    obtain ⟨gate', hgate', hp⟩ := restart_queue cfg w l hk
    obtain rfl := Option.some.inj (hgate'.symm.trans hgate)
    refine ⟨?_, hp.nodup_iff.mpr (hl.nodup.filter _), (init_isSome cfg k).mp (by rw [hk]; rfl)⟩
    rw [hp.mem_iff, List.mem_filter, ha]
    constructor
    · exact fun h => (Option.some.inj (of_decide_eq_true h.2)).symm
    · rintro rfl
      exact ⟨hl.mem_iff.mpr ⟨a, ha, hu⟩, decide_eq_true rfl⟩
  constructor
  · rintro ⟨k, gate, hgate, hc, _⟩
    obtain ⟨hx, _, hk⟩ := hmem k gate hgate
    rw [← hx.mp (List.count_pos_iff.mp (by omega))]
    exact hk
  · intro hg
    obtain ⟨g, hk⟩ := Option.isSome_iff_exists.mp ((init_isSome cfg a.gate).mpr hg)
    obtain ⟨gate, hgate, _⟩ := restart_queue cfg w l hk
    obtain ⟨hx, hnd, _⟩ := hmem _ _ hgate
    refine ⟨a.gate, gate, hgate, List.count_eq_one_of_mem hnd (hx.mpr rfl), ?_⟩
    intro k' gate' hne hg'
    exact fun hx' => hne ((hmem k' gate' hg').1.mp hx')

/-! ## runs that open no gate of another name -/

/-- all gates, past and present, and all rows have one of these names -/
structure World.Named (ids : List String) (w : World) : Prop where
  gates : ∀ gate ∈ w.heap, gate.gate_id ∈ ids
  rows : ∀ name ∈ w.rows.map Arrival.gate, name ∈ ids

/-- the name of the gate that the call registers next -/
def Call.opens : Call → Option String
  | .register gate_id _ => some gate_id
  | _ => none

/-- `open_gate` registers a gate of a configured name only -/
def OpensConfigured (cfg : Config) (s : State) : PoolAct Api Env Unit → Prop
  | .step i _ => ∀ call ∈ s.threads[i]?, ∀ gate_id ∈ call.opens, gate_id ∈ cfg.gateIds
  | _ => True

instance (cfg : Config) (s : State) : ∀ act, Decidable (OpensConfigured cfg s act)
  | .step i _ => inferInstanceAs
      (Decidable (∀ call ∈ s.threads[i]?, ∀ gate_id ∈ call.opens, gate_id ∈ cfg.gateIds))
  | .spawn _ | .env _ => isTrue trivial

theorem World.Named.modify {ids : List String} (h : w.Named ids) {g : Nat} {f : Gate → Gate}
    (hh : w'.heap = w.heap.modify g f) (hf : ∀ gate, (f gate).gate_id = gate.gate_id)
    (hr : w'.rows.map Arrival.gate = w.rows.map Arrival.gate) : w'.Named ids := by
  refine ⟨fun u hu => ?_, by rw [hr]; exact h.rows⟩
  obtain ⟨j, hj⟩ := List.mem_iff_getElem?.mp hu
  rw [hh] at hj
  exact forall_modify (P := fun _ u => u.gate_id ∈ ids)
    (fun _ gate hg => h.gates gate (List.mem_of_getElem? hg))
    (fun gate hg => by rw [hf]; exact h.gates gate (List.mem_of_getElem? hg)) j u hj

theorem World.Named.work {ids : List String} {g : Nat} (h : w.Named ids)
    (hw : w.work cfg g = some w') : w'.Named ids := by
  obtain ⟨gate, gate', hg, hh, _, hid, _⟩ := work_gate hw
  have hr := congrArg (List.map fun k : Guest × Int × String => k.2.2) (work_key hw).2
  rw [List.map_map, List.map_map] at hr
  replace hr : w'.rows.map Arrival.gate = w.rows.map Arrival.gate := hr
  refine ⟨fun u hu => ?_, by rw [hr]; exact h.rows⟩
  rw [hh] at hu
  rcases List.mem_or_eq_of_mem_set hu with hu | rfl
  · exact h.gates u hu
  · rw [hid]
    exact h.gates gate (List.mem_of_getElem? hg)

theorem World.Named.step {ids : List String} {call call' : Call} (h : w.Named ids)
    (hc : ∀ gate_id ∈ call.opens, gate_id ∈ ids)
    (hs : call.step cfg w = some (w', call')) : w'.Named ids := by
  cases step_moves hs with
  | idle call call' hi hp hr => exact h
  | insert guest g queued_at gate =>
    -- the name is that of the gate which the step looks up
    obtain ⟨gate₁, hg, e⟩ := Option.map_eq_some_iff.mp hs
    rw [← (Prod.mk.inj e).1]
    refine ⟨h.gates, ?_⟩
    intro name hn
    replace hn : name ∈ (w.rows ++ [_]).map Arrival.gate := hn
    rw [List.map_append, List.mem_append] at hn
    rcases hn with hn | hn
    · exact h.rows name hn
    · rw [List.mem_singleton.mp hn]
      exact h.gates gate₁ (List.mem_of_getElem? hg)
  | enqueue g x gate reply hg => exact h.modify rfl (fun _ => rfl) rfl
  | register gate_id type =>
    refine ⟨?_, h.rows⟩
    intro u hu
    rcases List.mem_append.mp hu with hu | hu
    · exact h.gates u hu
    · rw [List.mem_singleton.mp hu]
      exact hc gate_id rfl
  | deactivate k => exact h.modify rfl (fun _ => rfl) rfl
  | displace k gate n hg => exact h.modify rfl (fun _ => rfl) rfl
  | retarget k x left dest gate_id => exact ⟨h.gates, h.rows⟩
  | requeue k dest x left gate hg => exact h.modify rfl (fun _ => rfl) rfl
  | record k dest x left gate_id =>
    obtain ⟨gate₁, hg, e⟩ := Option.map_eq_some_iff.mp hs
    rw [← (Prod.mk.inj e).1]
    refine ⟨h.gates, ?_⟩
    intro name hn
    obtain ⟨a, ha, rfl⟩ := List.mem_map.mp hn
    obtain ⟨j, hj⟩ := List.mem_iff_getElem?.mp ha
    replace hj : (updateAt [x] _ w.rows)[j]? = some a := hj
    rw [getElem?_updateAt] at hj
    obtain ⟨b, hb, rfl⟩ := Option.map_eq_some_iff.mp hj
    show Arrival.gate (if j ∈ [x] then _ else _) ∈ ids
    split
    · exact h.gates gate₁ (List.mem_of_getElem? hg)
    · exact h.rows _ (List.mem_map_of_mem (List.mem_of_getElem? hb))
  | delete k => exact ⟨h.gates, h.rows⟩
  | missing k hk => exact h

theorem registerAll_names {t : GateType} (ids : Nat → String) (l : List Nat) (w : World) :
    ∀ gate ∈ (l.foldl (fun w i => w.register cfg (ids i) t) w).heap,
      gate ∈ w.heap ∨ gate.gate_id ∈ l.map ids := by
  induction l generalizing w with
  | nil => exact fun gate hg => .inl hg
  | cons i l ih =>
    intro gate hg
    rcases ih (w.register cfg (ids i) t) gate hg with hg | hg
    · rcases List.mem_append.mp hg with hg | hg
      · exact .inl hg
      · rw [List.mem_singleton.mp hg]
        exact .inr List.mem_cons_self
    · exact .inr (List.mem_cons_of_mem _ hg)

theorem init_named (cfg : Config) : (World.init cfg).Named cfg.gateIds := by
  refine ⟨fun gate hg => ?_, ?_⟩
  · rcases registerAll_names _ _ _ gate hg with hg | hg
    · rcases registerAll_names _ _ _ gate hg with hg | hg
      · exact absurd hg List.not_mem_nil
      · exact List.mem_append_left _ hg
    · exact List.mem_append_right _ hg
  · rw [(World.init_fresh cfg).rows]
    exact fun name hn => absurd hn List.not_mem_nil

theorem named_of_runs {acts : List (PoolAct Api Env Unit)} {s : State}
    (hrun : (airport cfg).machine.Runs (OpensConfigured cfg) (State.init cfg) acts s) :
    s.shared.Named cfg.gateIds := by
  have h := Sys.inv (I := World.Named cfg.gateIds) (T := fun _ _ => True) hrun ?_ ?_ ?_ ?_
  · exact h.shared
  · exact fun _ _ _ => trivial
  · intro w e w' hw he
    cases e with
    | work g => exact ⟨hw.work he, fun _ _ => trivial⟩
    | tick d =>
      obtain rfl := Option.some.inj he
      exact ⟨⟨hw.gates, hw.rows⟩, fun _ _ => trivial⟩
  · intro s i a call w' call' hs hg hi hst
    exact ⟨hs.shared.step (hg call hi) hst, trivial, fun _ _ => trivial⟩
  · exact ⟨init_named cfg, fun _ _ => trivial⟩

end

/-- **A restart loses nobody exactly when every unfinished row names a configured gate.**  This is
so for every content of the database, hence after every run, and for every order in which it may
give rows of one time.  In particular a run in which `open_gate` opens gates of configured names
only loses nobody. -/
theorem restart_keeps_iff (cfg : Config) :
    (∀ (w : World) (l : List Nat), w.Fetched l →
      ((∀ x, ∀ a ∈ w.rows[x]?, a.unfinished = true → (w.restart cfg l).InOneQueue x) ↔
        w.NamesConfigured cfg)) ∧
    ∀ (acts : List (PoolAct Api Env Unit)) (s : State) (l : List Nat),
      (airport cfg).machine.Runs (OpensConfigured cfg) (State.init cfg) acts s →
      s.shared.Fetched l →
      ∀ x, ∀ a ∈ s.shared.rows[x]?, a.unfinished = true →
        (s.shared.restart cfg l).InOneQueue x := by
  refine ⟨fun w l hl => ⟨fun h x a ha hu => ?_, fun h x a ha hu => ?_⟩,
    fun acts s l hrun hl x a ha hu => ?_⟩
  · exact (restart_inOneQueue_iff hl ha hu).mp (h x a ha hu)
  · exact (restart_inOneQueue_iff hl ha hu).mpr (h x a ha hu)
  · refine (restart_inOneQueue_iff hl ha hu).mpr ((named_of_runs hrun).rows _ ?_)
    exact List.mem_map_of_mem (List.mem_of_getElem? ha)

/-- an EU gate opens, and three arrivals take a queue each -/
def openEU9 : List (PoolAct Api Env Unit) :=
  ([.spawn (.open "EU-9" "EU"), .step 0 (), .step 0 (), .env (.tick 1)] : Acts) ++
  ([.spawn (.assign andrei), .step 1 (), .step 1 (), .step 1 (), .env (.tick 1)] : Acts) ++
  ([.spawn (.assign mihai), .step 2 (), .step 2 (), .step 2 (), .env (.tick 1)] : Acts) ++
  ([.spawn (.assign andrei), .step 3 (), .step 3 (), .step 3 ()] : Acts)

/-- EU-1 is closed and opened again, and takes the next arrival -/
def reopenEU1 : List (PoolAct Api Env Unit) :=
  (.spawn (.close "EU-1") :: List.replicate 5 (.step 0 ()) : Acts) ++
  ([.spawn (.open "EU-1" "EU"), .step 1 (), .step 1 ()] : Acts) ++
  ([.spawn (.assign andrei), .step 2 (), .step 2 (), .step 2 ()] : Acts) ++
  ([.spawn (.assign mihai), .step 3 (), .step 3 (), .step 3 ()] : Acts)

theorem restart_keeps_reopened : ∃ s,
    (airport threeGates).machine.Runs (OpensConfigured threeGates) (State.init threeGates) reopenEU1 s ∧
    s.shared.rows.map Arrival.gate = ["EU-2", "EU-1"] ∧
    (s.shared.restart threeGates s.shared.fetch).InOneQueue 1 :=
  ⟨_, Machine.runs_iff_runG.mpr rfl, rfl,
    (restart_keeps_iff threeGates).2 reopenEU1 _ _ (Machine.runs_iff_runG.mpr rfl) (fetch_fetched _)
      1 _ rfl rfl⟩

/-- **A guest of EU-9 is lost.**  The gate was opened at runtime; after the restart no gate has the
guest, and its row is still `queued`. -/
theorem lost_by_restart : ∃ s, (airport threeGates).machine.Runs free (State.init threeGates) openEU9 s ∧
    s.shared.Fetched s.shared.fetch ∧ s.shared.statusOf 2 = some .queued ∧
    (∀ gate ∈ (s.shared.restart threeGates s.shared.fetch).heap, 2 ∉ gate.queue) ∧
    ¬ (s.shared.restart threeGates s.shared.fetch).InOneQueue 2 := by
  refine ⟨_, Machine.runs_free_iff.mpr rfl, fetch_fetched _, rfl, by decide, ?_⟩
  exact not_inOneQueue (by decide)

end Airport
