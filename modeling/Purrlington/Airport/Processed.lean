import Purrlington.Airport.Accounts

/-!
# Airport: an arrival is processed at most once

`close_gate` requeues `currently_processing` while the worker of the gate still has it in its local
bundle, so one guest is then completed by two workers.  A row that was completed is also written
again by a step that was due earlier: the `held` mark of a worker, the `queued` of `close_gate`.

* `Undisturbed`            the condition: a gate is displaced only when nobody is processed there,
                           and a bundle is completed only when no such write is due for it;
* `Once`                   the invariant: every arrival is held once until it is completed once, the
                           rows of the completed ones are `processed`, and no write is due for them;
* `processed_at_most_once` the law under that condition, over all runs;
* `processed_twice`        a run that closes a gate during processing.
-/

set_option linter.unusedSectionVars false

namespace Airport
open SM Ledger

/-- the bundle whose rows the worker sets to `processed` in its next step -/
def Worker.completing : Worker → List Nat
  | .recording bundle => bundle
  | _ => []

/-- the status of the row is about to be written: by a worker that holds the guest back, or by the
call that has requeued it -/
def State.Due (s : State) (x : Nat) : Prop :=
  (∃ gate ∈ s.shared.heap, x ∈ gate.worker.marks) ∨ ∃ call ∈ s.threads, call.recorded = some x

instance (s : State) (x : Nat) : Decidable (s.Due x) := inferInstanceAs (Decidable (_ ∨ _))

/-- nobody is being processed at a gate that the call displaces -/
def Call.Undisturbing (w : World) : Call → Prop
  | .displace k => ∀ gate ∈ w.heap[k.gate]?, gate.currently_processing = none
  | _ => True

instance (w : World) : ∀ call : Call, Decidable (call.Undisturbing w)
  | .displace k =>
    inferInstanceAs (Decidable (∀ gate ∈ w.heap[k.gate]?, gate.currently_processing = none))
  | .choose _ | .insert _ _ _ | .enqueue _ _ | .accepted _ | .check _ _ | .register _ _ | .opened
  | .lookup _ | .deactivate _ | .target _ _ | .requeue _ _ _ _ | .record _ _ _ _ | .delete _
  | .closed _ | .failed _ => isTrue trivial

/-- no gate is displaced while a guest is processed there, and no guest is completed while a write
of its status is due -/
def Undisturbed (s : State) : PoolAct Api Env Unit → Prop
  | .env (.work g) => ∀ gate ∈ s.shared.heap[g]?, ∀ x ∈ gate.worker.completing, ¬ s.Due x
  | .step i _ => ∀ call ∈ s.threads[i]?, call.Undisturbing s.shared
  | _ => True

instance (s : State) : ∀ act, Decidable (Undisturbed s act)
  | .env (.work g) => inferInstanceAs
      (Decidable (∀ gate ∈ s.shared.heap[g]?, ∀ x ∈ gate.worker.completing, ¬ s.Due x))
  | .step i _ => inferInstanceAs (Decidable (∀ call ∈ s.threads[i]?, call.Undisturbing s.shared))
  | .spawn _ => isTrue trivial
  | .env (.tick _) => isTrue trivial

/-! ## the invariant -/

/-- how often an event is still to be published for the arrival -/
def World.unpublished (w : World) (x : Nat) : Nat :=
  total (fun gate => gate.worker.unpublished.count x) w.heap

structure Once (s : State) : Prop where
  one : ∀ x, s.held x + s.shared.completions.count x = if x < s.shared.rows.length then 1 else 0
  published : ∀ x, s.shared.events.count x + s.shared.unpublished x = s.shared.completions.count x
  processed : ∀ x, s.shared.statusOf x = some .processed ↔ x ∈ s.shared.completions
  due : ∀ x, s.Due x → x ∉ s.shared.completions

theorem Once.not_completed {s : State} (h : Once s) {x : Nat} (hx : 0 < s.held x) :
    x ∉ s.shared.completions := by
  intro hc
  have hone := h.one x
  have hpos := List.count_pos_iff.mpr hc
  split at hone <;> omega

theorem Once.not_completed_bundle {s : State} (h : Once s) {g : Nat} {gate : Gate} {x : Nat}
    (hg : s.shared.heap[g]? = some gate) (hx : x ∈ gate.queue ∨ x ∈ gate.worker.bundle) :
    x ∉ s.shared.completions :=
  h.not_completed (Nat.lt_of_lt_of_le (stock_pos hg hx) (Nat.le_add_right _ _))

theorem Once.row {s : State} (h : Once s) {x : Nat} (hx : 0 < s.held x) :
    x < s.shared.rows.length := by
  have hone := h.one x
  split at hone
  · assumption
  · omega

/-! ## one step of a worker -/

section
variable {cfg : Config} {s : State} {w' : World} {g : Nat} {gate : Gate}

/-- a write that is due after a gate has changed was due before, or is due at the gate -/
theorem due_set {gate' : Gate} (hh : w'.heap = s.shared.heap.set g gate') {x : Nat}
    (h : State.Due ⟨w', s.threads⟩ x) : x ∈ gate'.worker.marks ∨ s.Due x := by
  rcases h with ⟨other, ho, hx⟩ | h
  · rw [hh] at ho
    rcases List.mem_or_eq_of_mem_set ho with ho | rfl
    · exact .inr (.inl ⟨other, ho, hx⟩)
    · exact .inl hx
  · exact .inr (.inr h)

theorem Works.due (h : Once s) (hg : s.shared.heap[g]? = some gate)
    (hund : ∀ x ∈ gate.worker.completing, ¬ s.Due x) (hw : Works cfg s.shared g gate w') {x : Nat}
    (hx : State.Due ⟨w', s.threads⟩ x) : x ∉ w'.completions := by
  cases hw with
  | idle gate' guests hid hq hb hu hm hcp hlen =>
    refine h.due x ((due_set rfl hx).resolve_left ?_)
    rw [hm]
    exact List.not_mem_nil
  | pick gate' guests hw hid hq hb hu hm hcp hlen =>
    rcases due_set rfl hx with hx | hx
    · have hmem := pickNext_held_mem _ (hm x hx)
      have hqueue := (pickNext_perm _ gate.queue).mem_iff.mp (List.mem_append_right _ hmem)
      exact h.not_completed_bundle hg (.inl hqueue)
    · exact h.due x hx
  | hold bundle held hw =>
    refine h.due x ((due_set rfl hx).resolve_left ?_)
    show x ∉ (World.afterHeld bundle).marks
    rw [afterHeld_marks]
    exact List.not_mem_nil
  | mark bundle hw => exact h.due x ((due_set rfl hx).resolve_left List.not_mem_nil)
  | complete bundle hw =>
    have hdue := (due_set rfl hx).resolve_left List.not_mem_nil
    intro hc
    rcases List.mem_append.mp hc with hc | hc
    · exact h.due x hdue hc
    · refine hund x ?_ hdue
      rw [hw]
      exact hc
  | publish y left hw => exact h.due x ((due_set rfl hx).resolve_left List.not_mem_nil)

theorem Works.processed (h : Once s) (hg : s.shared.heap[g]? = some gate)
    (hw : Works cfg s.shared g gate w') : w'.Recorded := by
  refine hw.recorded h.processed (fun x hx => ⟨h.not_completed_bundle hg (.inr hx), ?_⟩)
    fun x hx => h.due x (.inl ⟨gate, List.mem_of_getElem? hg, hx⟩)
  exact h.row (Nat.lt_of_lt_of_le (stock_pos hg (.inr hx)) (Nat.le_add_right _ _))

theorem Works.published {w : World} (hg : w.heap[g]? = some gate) (hw : Works cfg w g gate w')
    (x : Nat) : w'.events.count x + w'.unpublished x + w.completions.count x =
      w.events.count x + w.unpublished x + w'.completions.count x := by
  have change : ∀ gate' : Gate, total (fun gate : Gate => gate.worker.unpublished.count x)
      (w.heap.set g gate') + gate.worker.unpublished.count x =
      w.unpublished x + gate'.worker.unpublished.count x := fun gate' => total_set hg gate'
  cases hw with
  | idle gate' guests hid hq hb hu hm hcp hlen =>
    have hset := change gate'
    rw [hu] at hset
    show w.events.count x + total _ (w.heap.set g gate') + _ = _ + w.completions.count x
    omega
  | pick gate' guests hw hid hq hb hu hm hcp hlen =>
    have hset := change gate'
    rw [hu, hw] at hset
    show w.events.count x + total _ (w.heap.set g gate') + _ = _ + w.completions.count x
    replace hset : _ + 0 = _ + 0 := hset
    omega
  | hold bundle held hw =>
    have hset := change { gate with worker := World.afterHeld bundle }
    rw [hw] at hset
    replace hset : _ + 0 = _ + (World.afterHeld bundle).unpublished.count x := hset
    rw [afterHeld_unpublished] at hset
    show w.events.count x + total _ (w.heap.set g _) + _ = _ + w.completions.count x
    replace hset : _ + 0 = _ + 0 := hset
    omega
  | mark bundle hw =>
    have hset := change { gate with worker := .processing bundle }
    rw [hw] at hset
    replace hset : _ + 0 = _ + 0 := hset
    show w.events.count x + total _ (w.heap.set g _) + _ = _ + w.completions.count x
    omega
  | complete bundle hw =>
    have hset := change { gate with worker := .publishing bundle }
    rw [hw] at hset
    replace hset : _ + 0 = _ + bundle.count x := hset
    show w.events.count x + total _ (w.heap.set g _) + _ = _ + (w.completions ++ bundle).count x
    rw [List.count_append]
    omega
  | publish y left hw =>
    have hset := change { gate with worker := .publishing left }
    rw [hw] at hset
    replace hset : _ + (y :: left).count x = _ + left.count x := hset
    have e : (y :: left).count x = [y].count x + left.count x := by
      rw [← List.singleton_append, List.count_append]
    show (w.events ++ [y]).count x + total _ (w.heap.set g _) + _ = _ + w.completions.count x
    rw [List.count_append]
    omega

theorem Once.work (h : Once s) (hund : Undisturbed s (.env (.work g)))
    (hw : s.shared.work cfg g = some w') : Once ⟨w', s.threads⟩ := by
  obtain ⟨gate, hg, hworks⟩ := work_works hw
  have hrows : w'.rows.length = s.shared.rows.length := by
    cases hworks <;> first | rfl | exact List.length_mapIdx
  refine ⟨fun x => ?_, fun x => ?_, hworks.processed h hg,
    fun x hx => hworks.due h hg (hund gate hg) hx⟩
  · have hone := h.one x
    have hl := hworks.ledger hg x
    show w'.stock x + pendingIn s.threads x + w'.completions.count x = if x < w'.rows.length then 1 else 0
    rw [hrows, ← hone]
    show _ = s.shared.stock x + pendingIn s.threads x + s.shared.completions.count x
    omega
  · have hp := h.published x
    have hpw := hworks.published hg x
    show w'.events.count x + w'.unpublished x = w'.completions.count x
    omega

end

/-! ## one step of a call -/

section
variable {cfg : Config} {s : State} {w' : World} {i : Nat} {call call' : Call}

theorem Moves.rows (hund : call.Undisturbing s.shared) (hm : Moves cfg s.shared call w' call') :
    w'.rows.length = s.shared.rows.length ∧ call.issued s.shared = [] ∨
      w'.rows.length = s.shared.rows.length + 1 ∧
        call.issued s.shared = [s.shared.rows.length] := by
  cases hm with
  | idle call call' hi hp hr => exact .inl ⟨rfl, hi⟩
  | insert guest g queued_at gate => exact .inr ⟨List.length_append, rfl⟩
  | displace k gate n hg =>
    refine .inl ⟨rfl, ?_⟩
    rw [Call.issued, hg]
    show gate.currently_processing.toList = []
    rw [hund gate hg]
    rfl
  | record k dest x left gate_id => exact .inl ⟨List.length_mapIdx, rfl⟩
  | enqueue => exact .inl ⟨rfl, rfl⟩
  | register => exact .inl ⟨rfl, rfl⟩
  | deactivate => exact .inl ⟨rfl, rfl⟩
  | retarget => exact .inl ⟨rfl, rfl⟩
  | requeue => exact .inl ⟨rfl, rfl⟩
  | delete => exact .inl ⟨rfl, rfl⟩
  | missing => exact .inl ⟨rfl, rfl⟩

/-- a write that is due after a step of a call was due before, or is that of a guest the call held -/
theorem Moves.recorded (hm : Moves cfg s.shared call w' call') {x : Nat}
    (hx : call'.recorded = some x) : x ∈ call.pending := by
  cases hm with
  | idle call call' hi hp hr =>
    rw [hr] at hx
    exact absurd hx nofun
  | requeue k dest y left gate hg =>
    obtain rfl := Option.some.inj hx
    exact List.mem_cons_self
  | insert => exact absurd hx nofun
  | enqueue => exact absurd hx nofun
  | register => exact absurd hx nofun
  | deactivate => exact absurd hx nofun
  | displace => exact absurd hx nofun
  | retarget => exact absurd hx nofun
  | record => exact absurd hx nofun
  | delete => exact absurd hx nofun
  | missing => exact absurd hx nofun

theorem Moves.due (h : Once s) (hi : s.threads[i]? = some call)
    (hm : Moves cfg s.shared call w' call') {x : Nat}
    (hx : State.Due ⟨w', s.threads.set i call'⟩ x) : x ∉ s.shared.completions := by
  rcases hx with ⟨gate, hg, hx⟩ | ⟨c, hc, hx⟩
  · -- the marks of the workers are as before
    have hpos : 0 < total (fun gate : Gate => gate.worker.marks.count x) w'.heap :=
      Nat.lt_of_lt_of_le (List.count_pos_iff.mpr hx)
        (le_total (w := fun gate : Gate => gate.worker.marks.count x) hg)
    rw [hm.total_worker (f := fun wk => wk.marks.count x) rfl] at hpos
    obtain ⟨gate, hg, hpos⟩ := exists_of_total_pos hpos
    exact h.due x (.inl ⟨gate, hg, List.count_pos_iff.mp hpos⟩)
  · rcases List.mem_or_eq_of_mem_set hc with hc | rfl
    · exact h.due x (.inr ⟨c, hc, hx⟩)
    · have hp := pendingIn_pos (List.mem_of_getElem? hi) (hm.recorded hx)
      exact h.not_completed (Nat.lt_of_lt_of_le hp (Nat.le_add_left _ _))

theorem Moves.processed (h : Once s) (hi : s.threads[i]? = some call)
    (hm : Moves cfg s.shared call w' call') (x : Nat) :
    w'.statusOf x = some .processed ↔ x ∈ s.shared.completions := by
  rcases hm.statusOf x with e | ⟨hr, hne⟩ | ⟨hx, _, e⟩
  · rw [e]
    exact h.processed x
  · have hdue : s.Due x := .inr ⟨call, List.mem_of_getElem? hi, hr⟩
    exact ⟨fun e => absurd e hne, fun hc => absurd hc (h.due x hdue)⟩
  · -- the new row: nobody with this id was completed before
    have hone := h.one x
    rw [if_neg (by omega)] at hone
    have hnot : x ∉ s.shared.completions := fun hc => by
      have := List.count_pos_iff.mpr hc
      omega
    rw [e]
    exact ⟨fun e => absurd e (by decide), fun hc => absurd hc hnot⟩

theorem Once.move (h : Once s) (hi : s.threads[i]? = some call)
    (hund : call.Undisturbing s.shared) (hs : call.step cfg s.shared = some (w', call'))
    (hl : ∀ x, State.held ⟨w', s.threads.set i call'⟩ x + w'.completions.count x =
      s.held x + s.shared.completions.count x + (call.issued s.shared).count x) :
    Once ⟨w', s.threads.set i call'⟩ := by
  have hm := step_moves hs
  obtain ⟨hc, he⟩ := hm.completions
  refine ⟨fun x => ?_, fun x => ?_, fun x => ?_, fun x hx => ?_⟩
  · have hone := h.one x
    have hlx := hl x
    show State.held ⟨w', s.threads.set i call'⟩ x + w'.completions.count x =
      if x < w'.rows.length then 1 else 0
    rcases hm.rows hund with ⟨hr, hiss⟩ | ⟨hr, hiss⟩
    · rw [hiss, List.count_nil] at hlx
      rw [hr]
      omega
    · rw [hiss] at hlx
      rw [hr, hlx, hone]
      by_cases hx : x = s.shared.rows.length
      · rw [hx, List.count_singleton_self, if_neg (by omega), if_pos (by omega)]
      · rw [List.count_eq_zero.mpr (fun hm => hx (List.mem_singleton.mp hm))]
        split <;> split <;> omega
  · have hp := h.published x
    have e : w'.unpublished x = s.shared.unpublished x :=
      hm.total_worker (f := fun wk => wk.unpublished.count x) rfl
    show w'.events.count x + w'.unpublished x = w'.completions.count x
    rw [e, he, hc]
    exact hp
  · show _ ↔ x ∈ w'.completions
    rw [hc]
    exact hm.processed h hi x
  · show x ∉ w'.completions
    rw [hc]
    exact hm.due h hi hx

end

/-! ## runs -/

theorem Once.step {cfg : Config} {s s' : State} {act : PoolAct Api Env Unit} (h : Once s)
    (hund : Undisturbed s act) (hs : (airport cfg).machine s act = some s') : Once s' := by
  have hl := State.ledger hs
  cases act with
  | spawn r =>
    obtain rfl := Option.some.inj hs
    refine ⟨fun x => ?_, h.published, h.processed, fun x hx => h.due x ?_⟩
    · rw [hl x]
      exact h.one x
    · refine hx.imp id ?_
      rintro ⟨c, hc, hx⟩
      rcases List.mem_append.mp hc with hc | hc
      · exact ⟨c, hc, hx⟩
      · rw [List.mem_singleton.mp hc] at hx
        cases r <;> exact absurd hx nofun
  | env e =>
    obtain ⟨w', he, rfl⟩ := Sys.machine_env hs
    cases e with
    | work g => exact h.work hund he
    | tick d =>
      obtain rfl := Option.some.inj he
      exact ⟨h.one, h.published, h.processed, h.due⟩
  | step i a =>
    obtain ⟨call, w', call', hi, hst, rfl⟩ := Sys.machine_step hs
    refine h.move hi (hund call hi) hst ?_
    intro x
    have e : s.issued (.step i a) = call.issued s.shared := by
      rw [State.issued, hi]
    rw [← e]
    exact hl x

theorem Once.init (cfg : Config) : Once (State.init cfg) := by
  have hf := World.init_fresh cfg
  have hc : (State.init cfg).shared.completions = [] := hf.completions
  refine ⟨fun x => ?_, fun x => ?_, fun x => ?_, fun x _ => ?_⟩
  · have hr : (State.init cfg).shared.rows = [] := hf.rows
    rw [hc, hr]
    show (World.init cfg).stock x + 0 + 0 = 0
    rw [hf.stock]
  · have hu : (World.init cfg).unpublished x = 0 := total_eq_zero fun gate hg => by
      rw [(hf.gates gate hg).2.1]
      rfl
    have he : (State.init cfg).shared.events = [] := hf.events
    rw [he, hc]
    show 0 + (World.init cfg).unpublished x = 0
    rw [hu]
  · have hr : (State.init cfg).shared.rows = [] := hf.rows
    rw [World.statusOf, hr, hc]
    exact ⟨fun e => absurd e (by simp), fun hx => absurd hx List.not_mem_nil⟩
  · rw [hc]
    exact List.not_mem_nil

theorem State.completions_mono {cfg : Config} {s s' : State} {act : PoolAct Api Env Unit}
    (hs : (airport cfg).machine s act = some s') {x : Nat} (hx : x ∈ s.shared.completions) :
    x ∈ s'.shared.completions := by
  cases act with
  | spawn r =>
    obtain rfl := Option.some.inj hs
    exact hx
  | env e =>
    obtain ⟨w', he, rfl⟩ := Sys.machine_env hs
    cases e with
    | work g =>
      obtain ⟨gate, hg, hworks⟩ := work_works he
      cases hworks with
      | complete bundle hw => exact List.mem_append_left _ hx
      | idle => exact hx
      | pick => exact hx
      | hold => exact hx
      | mark => exact hx
      | publish => exact hx
    | tick d =>
      obtain rfl := Option.some.inj he
      exact hx
  | step i a =>
    obtain ⟨call, w', call', hi, hst, rfl⟩ := Sys.machine_step hs
    show x ∈ w'.completions
    rw [(step_moves hst).completions.1]
    exact hx

/-- **At most once.**  In a run from the empty system in which no gate is displaced while a guest is
processed there and no guest is completed while a write of its status is due, every arrival is set
to `processed` at most once and published at most once, and a row that is `processed` stays so. -/
theorem processed_at_most_once (cfg : Config) (acts acts' : List (PoolAct Api Env Unit))
    (s s' : State) (hrun : (airport cfg).machine.Runs Undisturbed (State.init cfg) acts s)
    (hrun' : (airport cfg).machine.Runs Undisturbed s acts' s') :
    (∀ x, s'.shared.completions.count x ≤ 1 ∧ s'.shared.events.count x ≤ 1) ∧
      ∀ x, s.shared.statusOf x = some .processed → s'.shared.statusOf x = some .processed := by
  have hs : Once s := hrun.inv (fun s a t h hg hst => h.step hg hst) (.init cfg)
  have hs' : Once s' := hrun'.inv (fun s a t h hg hst => h.step hg hst) hs
  refine ⟨fun x => ?_, fun x hx => ?_⟩
  · have hone := hs'.one x
    have hp := hs'.published x
    split at hone <;> exact ⟨by omega, by omega⟩
  · rw [hs.processed] at hx
    rw [hs'.processed]
    exact hrun'.inv (P := fun s => x ∈ s.shared.completions)
      (fun s a t h _ hst => State.completions_mono hst h) hx

def ionescu : Guest := ⟨"guest-1", "ana", "ionescu", 30, .EU, .standard, false⟩

/-- the guest joins the queue of EU-1 -/
def arrive : List (PoolAct Api Env Unit) :=
  [.spawn (.assign ionescu), .step 0 (), .step 0 (), .step 0 ()]

def works (g n : Nat) : List (PoolAct Api Env Unit) := List.replicate n (.env (.work g))

/-- EU-1 is closed by a call of its own -/
def closeEU1 : List (PoolAct Api Env Unit) :=
  .spawn (.close "EU-1") :: List.replicate 8 (.step 1 ())

/-- EU-1 is closed while the guest waits there, and EU-2 processes the guest -/
theorem processed_at_most_once_closing : ∃ s s',
    (airport threeGates).machine.run (State.init threeGates)
      (arrive ++ closeEU1 ++ works 1 6) = some s ∧
    (airport threeGates).machine.run s (works 1 2 ++ works 0 1) = some s' ∧
    s'.shared.completions = [0] ∧ s'.shared.events = [0] ∧
    s'.shared.statusOf 0 = some .processed :=
  ⟨_, _, rfl, rfl, rfl, rfl,
    (processed_at_most_once threeGates (arrive ++ closeEU1 ++ works 1 6) (works 1 2 ++ works 0 1)
      _ _ (Machine.runs_iff_runG.mpr rfl) (Machine.runs_iff_runG.mpr rfl)).2 0 rfl⟩

/-- **A gate is closed while its worker processes a guest.**  The guest is requeued and its worker
completes it all the same; EU-2 takes it again, so that its row is no longer `processed`, and
completes and publishes it a second time. -/
theorem processed_twice : ∃ s s' s'',
    (airport threeGates).machine.run (State.init threeGates)
      (arrive ++ works 0 3 ++ closeEU1 ++ works 0 4) = some s ∧
    (airport threeGates).machine.run s (works 1 3) = some s' ∧
    (airport threeGates).machine.run s' (works 1 3) = some s'' ∧
    s.shared.statusOf 0 = some .processed ∧ s'.shared.statusOf 0 = some .processing ∧
    s''.shared.completions.count 0 = 2 ∧ s''.shared.events.count 0 = 2 :=
  ⟨_, _, _, rfl, rfl, rfl, rfl, rfl, rfl, rfl⟩

end Airport
