import Purrlington.Airport.Restart
import Purrlington.Airport.Truthful

/-!
# Airport: a restart restores the queues

Without `open_gate` and `close_gate`, and with a later time for every arrival, the order of a queue is
by rank and then by arrival id, in the live process and after a restart.

* `arrivals`             whole `assign_and_enqueue` calls between single steps of the workers;
* `operations_interleave`   whole operations are runs of the airport;
* `ArrivesLater`         every arrival reads a later time than those before it;
* `Gate.InStep`          the order of a queue, and the statuses of those in it: the row has the status
                         of the record, but for the guests whose `held` mark is still to be committed;
* `restart_restores`     the queues after a restart are those before it, with their statuses.
-/

set_option linter.unusedSectionVars false

namespace Airport
open SM Ledger

/-! ## arrivals and workers -/

inductive Move where
  | assign (guest : Guest)
  | work (g : Nat)
  | tick (d : Nat)

def arrivals (cfg : Config) : Machine World Move
  | w, .assign guest => w.assignAndEnqueue guest
  | w, .work g => w.work cfg g
  | w, .tick d => w.env cfg (.tick d)

/-- an arrival reads a later time than all before it -/
def ArrivesLater (w : World) : Move → Prop
  | .assign _ => ∀ a ∈ w.rows, a.queued_at < w.now
  | _ => True

instance (w : World) : ∀ move, Decidable (ArrivesLater w move)
  | .assign _ => inferInstanceAs (Decidable (∀ a ∈ w.rows, a.queued_at < w.now))
  | .work _ | .tick _ => isTrue trivial

theorem arrivals_runs {cfg : Config} {w w' : World} {move : Move}
    (h : arrivals cfg w move = some w') (ts : List Call) :
    ∃ acts ts', (airport cfg).machine.Runs free ⟨w, ts⟩ acts ⟨w', ts'⟩ := by
  cases move with
  | assign guest =>
    have h' : serial cfg w (.assign guest) = some w' := h
    exact serial_runs h' ts
  | work g => exact ⟨_, ts, work_runs h ts⟩
  | tick d =>
    have h' : serial cfg w (.tick d) = some w' := h
    exact serial_runs h' ts

section
variable {cfg : Config} {α : Type} {M : Machine World α} {w w' : World} {as : List α}

/-- what the airport can do in each step it can do in a run -/
theorem airport_runs_of_steps (hstep : ∀ w a w', M w a = some w' → ∀ ts,
      ∃ acts ts', (airport cfg).machine.Runs free ⟨w, ts⟩ acts ⟨w', ts'⟩)
    (h : M.Runs free w as w') (ts : List Call) :
    ∃ acts ts', (airport cfg).machine.Runs free ⟨w, ts⟩ acts ⟨w', ts'⟩ := by
  refine h.inv (P := fun v => ∃ acts ts', (airport cfg).machine.Runs free ⟨w, ts⟩ acts ⟨v, ts'⟩)
    (fun v a v' hv _ hm => ?_) ⟨[], ts, Machine.runs_nil _⟩
  obtain ⟨acts, ts', hacts⟩ := hv
  obtain ⟨more, ts'', hmore⟩ := hstep v a v' hm ts'
  exact ⟨_, ts'', hacts.append hmore⟩

end

/-- **Whole operations are interleavings.**  What endpoints and workers reach one operation after the
other, or whole arrivals between the single steps of the workers, the airport reaches in a run of its
own, whatever calls it has already had. -/
theorem operations_interleave (cfg : Config) (w w' : World) (ts : List Call) :
    (∀ ops, (serial cfg).Runs free w ops w' →
      ∃ acts ts', (airport cfg).machine.Runs free ⟨w, ts⟩ acts ⟨w', ts'⟩) ∧
    ∀ moves, (arrivals cfg).Runs free w moves w' →
      ∃ acts ts', (airport cfg).machine.Runs free ⟨w, ts⟩ acts ⟨w', ts'⟩ :=
  ⟨fun _ h => airport_runs_of_steps (fun _ _ _ hs => serial_runs hs) h ts,
    fun _ h => airport_runs_of_steps (fun _ _ _ hs => arrivals_runs hs) h ts⟩

/-- the airport can do what `familyDay` does -/
theorem operations_interleave_family : ∃ w acts ts,
    (airport threeGates).machine.Runs free ⟨World.init threeGates, []⟩ acts ⟨w, ts⟩ ∧
      w.rows.map Arrival.status = [.processed, .processed, .processed, .queued] := by
  obtain ⟨w, hrun, hrows⟩ : ∃ w, (serial threeGates).Runs free (World.init threeGates) familyDay w ∧
      w.rows.map Arrival.status = [.processed, .processed, .processed, .queued] :=
    ⟨_, Machine.runs_free_iff.mpr rfl, rfl⟩
  obtain ⟨acts, ts, hacts⟩ := (operations_interleave threeGates _ w []).1 familyDay hrun
  exact ⟨w, acts, ts, hacts, hrows⟩

/-! ## the order of a queue and the statuses in it -/

/-- the guest comes before the other one: by rank, then by arrival -/
def World.Before (w : World) (x y : Nat) : Prop :=
  w.rank x < w.rank y ∨ w.rank x = w.rank y ∧ x < y

structure Gate.InStep (w : World) (gate : Gate) : Prop where
  order : gate.queue.Pairwise w.Before
  same : ∀ x ∈ gate.queue, x ∉ gate.worker.marks →
    w.statusOf x = w.memory x ∧ w.memory x ≠ some .processing
  marked : ∀ x ∈ gate.worker.marks, w.memory x = some .held

section
variable {cfg : Config} {w w' : World} {g : Nat} {gate : Gate}

theorem Gate.InStep.told (h : gate.InStep w) : gate.Told w := ⟨h.same, h.marked⟩

/-- those of a queue who are still there, with the ranks they had, are in the order they had -/
theorem order_of_sublist {queue queue' : List Nat} (h : queue.Pairwise w.Before)
    (hsub : queue'.Sublist queue) (hr : ∀ x ∈ queue, w'.rank x = w.rank x) :
    queue'.Pairwise w'.Before := by
  apply (h.sublist hsub).imp_of_mem
  intro x y hx hy hb
  rw [World.Before, hr x (hsub.subset hx), hr y (hsub.subset hy)]
  exact hb

theorem Gate.InStep.frame (h : gate.InStep w) (hm : ∀ x ∈ gate.worker.marks, x ∈ gate.queue)
    (hr : ∀ x ∈ gate.queue, w'.rank x = w.rank x)
    (hst : ∀ x ∈ gate.queue, w'.statusOf x = w.statusOf x ∧ w'.memory x = w.memory x) :
    gate.InStep w' := by
  have htold : gate.Told w' := h.told.frame hm hst
  exact ⟨order_of_sublist h.order (.refl _) hr, htold.same, htold.marked⟩

theorem Gate.InStep.congr (h : gate.InStep w) (hg : w'.guests = w.guests) (hr : w'.rows = w.rows) :
    gate.InStep w' := by
  have hrank : ∀ x ∈ gate.queue, w'.rank x = w.rank x := by
    intro x _
    rw [World.rank, World.rank, hg]
  have htold : gate.Told w' := h.told.congr hg hr
  exact ⟨order_of_sublist h.order (.refl _) hrank, htold.same, htold.marked⟩

theorem work_queue (h : w.work cfg g = some w') {j : Nat} {u : Gate} (hu : w'.heap[j]? = some u) :
    ∃ v, w.heap[j]? = some v ∧ u.queue.Sublist v.queue := by
  obtain ⟨gate, gate', w₁, hg, hs, rfl⟩ := work_step h
  replace hu : (w.heap.set g gate')[j]? = some u := hu
  by_cases e : g = j
  · subst e
    rw [List.getElem?_set_self (List.getElem?_eq_some_iff.mp hg).1] at hu
    obtain rfl := Option.some.inj hu
    refine ⟨gate, hg, ?_⟩
    cases hs with
    | ready hw => exact pickNext_sublist _ _
    | _ => exact .refl _
  · rw [List.getElem?_set_ne e] at hu
    exact ⟨u, hu, .refl _⟩

/-- **The queues stay in step whatever the workers do.** -/
theorem work_inStep {T : GateType → Prop} (hs : w.Settled T []) (hin : ∀ gate ∈ w.heap, gate.InStep w)
    (h : w.work cfg g = some w') : ∀ gate ∈ w'.heap, gate.InStep w' := by
  intro u hu
  have htold : u.Told w' := work_told hs (fun gate hg => (hin gate hg).told) h u hu
  obtain ⟨j, hj⟩ := List.mem_iff_getElem?.mp hu
  obtain ⟨v, hv, hsub⟩ := work_queue h hj
  have hv := List.mem_of_getElem? hv
  refine ⟨order_of_sublist (hin v hv).order hsub fun x hx => ?_, htold.same, htold.marked⟩
  obtain ⟨a, ha, _⟩ := (hs.tidy v hv).named x hx
  exact (keeps_of_map (work_key h).1 x).rank ha

/-! ## runs -/

/-- the state of a run without `open_gate` and `close_gate` -/
structure World.Timely (cfg : Config) (w : World) : Prop where
  settled : w.Settled cfg.Types []
  gates : w.gates = (World.init cfg).gates
  times : w.rows.Pairwise fun a b => a.queued_at < b.queued_at
  inStep : ∀ gate ∈ w.heap, gate.InStep w

theorem before_rank {x y : Nat} (h : w.Before x y) : w.rank x ≤ w.rank y := by
  rcases h with h | h
  · exact Nat.le_of_lt h
  · exact Nat.le_of_eq h.1

theorem enqueue_before {queue : List Nat} {x : Nat} (h : queue.Pairwise w.Before)
    (hx : ∀ y ∈ queue, y < x) : (enqueue w.rank queue x).1.Pairwise w.Before := by
  refine enqueue_pairwise (h.imp before_rank) h (fun y hy hle => ?_) fun y hy hlt => .inl hlt
  rcases Nat.lt_or_eq_of_le hle with hlt | heq
  · exact .inl hlt
  · exact .inr ⟨heq, hx y hy⟩

theorem World.Timely.assign (h : w.Timely cfg) {guest : Guest}
    (hlater : ∀ a ∈ w.rows, a.queued_at < w.now) (hw : w.assignAndEnqueue guest = some w') :
    w'.Timely cfg := by
  obtain ⟨w₁, hw₁, hs'⟩ := h.settled.assign guest
  obtain rfl := Option.some.inj (hw₁.symm.trans hw)
  have hs := h.settled
  unfold World.assignAndEnqueue at hw
  split at hw
  · obtain rfl := Option.some.inj hw
    exact h
  · rename_i g hc
    obtain ⟨gate, hg, rfl⟩ := Option.map_eq_some_iff.mp hw
    refine ⟨hs', h.gates, ?_, fun u hu => ?_⟩
    · refine List.pairwise_append.mpr ⟨h.times, List.pairwise_singleton _ _, ?_⟩
      intro a ha b hb
      rw [List.mem_singleton.mp hb]
      exact hlater a ha
    · have htold := assign_told hs (fun v hv => (h.inStep v hv).told) hw₁ u hu
      refine ⟨?_, htold.same, htold.marked⟩
      -- those who wait have the ranks that they had
      have hrank : ∀ x < w.rows.length,
          ((w.insertRow guest w.now gate.gate_id).join g w.rows.length).rank x = w.rank x := by
        intro x hx
        show (w.insertRow guest w.now gate.gate_id).rank x = _
        simp only [World.rank, (insertRow_untouched hs guest w.now gate.gate_id hx).1]
      replace hu : u ∈ w.heap.modify g _ := hu
      rw [modify_eq_set hg] at hu
      rcases List.mem_or_eq_of_mem_set hu with hu | rfl
      · obtain ⟨j, hj⟩ := List.mem_iff_getElem?.mp hu
        exact order_of_sublist (h.inStep u hu).order (.refl _) fun x hx =>
          hrank x (hs.row hj (.inl hx)).1
      · have horder := order_of_sublist (h.inStep gate (List.mem_of_getElem? hg)).order (.refl _)
          fun x hx => hrank x (hs.row hg (.inl hx)).1
        exact enqueue_before horder fun y hy => (hs.row hg (.inl hy)).1

theorem World.Timely.step (h : w.Timely cfg) {move : Move} (hl : ArrivesLater w move)
    (hw : arrivals cfg w move = some w') : w'.Timely cfg := by
  cases move with
  | assign guest => exact h.assign hl hw
  | work g =>
    obtain ⟨gate, gate', _, _, hgs, _⟩ := work_gate hw
    have hk := congrArg (List.map fun k : Guest × Int × String => k.2.1) (work_key hw).2
    rw [List.map_map, List.map_map] at hk
    refine ⟨h.settled.work hw, hgs.trans h.gates, ?_, work_inStep h.settled h.inStep hw⟩
    have ht := List.pairwise_map.mpr h.times
    rw [show w.rows.map Arrival.queued_at = w'.rows.map Arrival.queued_at from hk.symm] at ht
    exact List.pairwise_map.mp ht
  | tick d =>
    obtain rfl := Option.some.inj hw
    exact ⟨h.settled.tick d, h.gates, h.times, fun gate hg => (h.inStep gate hg).congr rfl rfl⟩

theorem init_timely (cfg : Config) : (World.init cfg).Timely cfg := by
  have hf := World.init_fresh cfg
  refine ⟨init_settled cfg, rfl, by rw [hf.rows]; exact .nil, ?_⟩
  intro gate hg
  obtain ⟨hq, hw, _⟩ := hf.gates gate hg
  refine ⟨by rw [hq]; exact .nil, fun x hx => ?_, fun x hx => ?_⟩
  · rw [hq] at hx
    exact absurd hx List.not_mem_nil
  · rw [hw] at hx
    exact absurd hx List.not_mem_nil

/-! ## the rebuilt queues -/

/-- rows in order of arrival, none of which was being processed, are put back in order -/
theorem rehydrateAll_order {l : List Nat} (v : World) (hl : l.Pairwise (· < ·))
    (hst : ∀ x ∈ l, v.statusOf x ≠ some .processing)
    (hq : ∀ gate ∈ v.heap, gate.queue.Pairwise v.Before ∧ ∀ y ∈ gate.queue, ∀ x ∈ l, y < x) :
    (l.foldl World.rehydrate v).guests = v.guests ∧
      ∀ gate ∈ (l.foldl World.rehydrate v).heap, gate.queue.Pairwise v.Before := by
  induction l generalizing v with
  | nil => exact ⟨rfl, fun gate hg => (hq gate hg).1⟩
  | cons x l ih =>
    obtain ⟨hx, hl⟩ := List.pairwise_cons.mp hl
    have hst' : ∀ y ∈ l, v.statusOf y ≠ some .processing := fun y hy =>
      hst y (List.mem_cons_of_mem _ hy)
    obtain ⟨_, e⟩ | ⟨g, _, ⟨hp, _⟩ | ⟨_, e⟩⟩ := rehydrate_cases v x
    · rw [List.foldl_cons, e]
      exact ih v hl hst' fun gate hg => ⟨(hq gate hg).1, fun y hy z hz =>
        (hq gate hg).2 y hy z (List.mem_cons_of_mem _ hz)⟩
    · exact absurd hp (hst x List.mem_cons_self)
    · rw [List.foldl_cons, e]
      refine ih (v.join g x) hl hst' ?_
      intro u hu
      obtain ⟨j, hj⟩ := List.mem_iff_getElem?.mp hu
      refine forall_modify (P := fun _ u => u.queue.Pairwise v.Before ∧ ∀ y ∈ u.queue, ∀ z ∈ l, y < z)
        (fun _ gate hg => ?_) (fun gate hg => ?_) j u hj
      · obtain ⟨ho, hlt⟩ := hq gate (List.mem_of_getElem? hg)
        exact ⟨ho, fun y hy z hz => hlt y hy z (List.mem_cons_of_mem _ hz)⟩
      · obtain ⟨ho, hlt⟩ := hq gate (List.mem_of_getElem? hg)
        refine ⟨enqueue_before ho fun y hy => hlt y hy x List.mem_cons_self, ?_⟩
        intro y hy z hz
        rcases mem_enqueue.mp hy with rfl | hy
        · exact hx z hz
        · exact hlt y hy z (List.mem_cons_of_mem _ hz)

/-- no bundle is in flight, and all marks are committed -/
def World.Idle (w : World) : Prop :=
  ∀ gate ∈ w.heap, gate.worker.bundle = [] ∧ gate.worker.marks = []

instance (w : World) : Decidable w.Idle := inferInstanceAs
  (Decidable (∀ gate ∈ w.heap, gate.worker.bundle = [] ∧ gate.worker.marks = []))

/-- a queue with the statuses of its guests -/
def World.lineUp (w : World) (gate : Gate) : List (Nat × Option Status) :=
  gate.queue.map fun x => (x, w.memory x)

namespace World.Timely

theorem fetched_lt (h : w.Timely cfg) {l : List Nat} (hl : w.Fetched l) : l.Pairwise (· < ·) := by
  have hne : l.Pairwise (· ≠ ·) := hl.nodup
  refine (hl.sorted.and hne).imp_of_mem ?_
  intro x y hx hy hxy
  obtain ⟨a, ha, _⟩ := hl.mem_iff.mp hx
  obtain ⟨b, hb, _⟩ := hl.mem_iff.mp hy
  obtain ⟨hle, hne⟩ := hxy
  by_contra hge
  obtain ⟨hxl, rfl⟩ := List.getElem?_eq_some_iff.mp ha
  obtain ⟨hyl, rfl⟩ := List.getElem?_eq_some_iff.mp hb
  have hlt := List.pairwise_iff_getElem.mp h.times y x hyl hxl (by omega)
  rw [World.queuedAt, World.queuedAt, ha, hb] at hle
  exact absurd hlt (Int.not_lt.mpr hle)

theorem queued (h : w.Timely cfg) (hidle : w.Idle) (hg : w.heap[g]? = some gate) {x : Nat}
    (hx : x ∈ gate.queue) : ∃ a, w.rows[x]? = some a ∧ a.unfinished = true ∧
      a.gate = gate.gate_id ∧ w.memory x = some a.status ∧ a.status ≠ .processing := by
  have hm := List.mem_of_getElem? hg
  obtain ⟨b, hb, hn⟩ := (h.settled.tidy gate hm).named x hx
  obtain ⟨a, ha, hk⟩ := h.settled.row_of_guest hb
  obtain ⟨hsame, hne⟩ := (h.inStep gate hm).same x hx (by rw [(hidle gate hm).2]; exact List.not_mem_nil)
  have hst : w.statusOf x = some a.status := by
    rw [World.statusOf, ha]
    rfl
  rw [← hsame, hst] at hne
  refine ⟨a, ha, ?_, ?_, hsame.symm.trans hst, fun e => hne (congrArg some e)⟩
  · have hnot := (h.settled.row hg (.inl hx)).2
    have hnp : a.status ≠ .processed := fun e =>
      hnot ((h.settled.recorded x).mp (hst.trans (congrArg some e)))
    unfold Arrival.unfinished
    split
    · rfl
    · rfl
    · rfl
    · rename_i e
      exact absurd e hnp
  · obtain ⟨_, hrest⟩ := Prod.mk.inj hk
    exact (Prod.mk.inj hrest).2.trans hn

theorem waits (h : w.Timely cfg) (hidle : w.Idle) {x : Nat} {a : Arrival} (ha : w.rows[x]? = some a)
    (hu : a.unfinished = true) :
    ∃ g gate, w.gates.get? a.gate = some g ∧ w.heap[g]? = some gate ∧ x ∈ gate.queue := by
  have hne : a.status ≠ .processed := by
    intro e
    rw [Arrival.unfinished, e] at hu
    exact Bool.false_ne_true hu
  obtain ⟨g, gate, hg, hx, _⟩ := exists_of_total_eq_one (h.settled.stock_one ha hne)
  have hhas : gate.Has x := Gate.holds_pos.mp (by omega)
  have hq : x ∈ gate.queue := hhas.resolve_right (by
    rw [(hidle gate (List.mem_of_getElem? hg)).1]
    exact List.not_mem_nil)
  obtain ⟨b, hb, _, hgate, _⟩ := h.queued hidle hg hq
  obtain rfl := Option.some.inj (ha.symm.trans hb)
  refine ⟨g, gate, ?_, hg, hq⟩
  by_contra hk
  rw [hgate] at hk
  exact h.settled.closed g gate hg hk x hhas

theorem queue_perm (h : w.Timely cfg) (hidle : w.Idle) {l : List Nat} (hl : w.Fetched l)
    (hg : w.heap[g]? = some gate) (hk : w.gates.get? gate.gate_id = some g) :
    gate.queue.Perm (l.filter fun x => w.rows[x]?.map Arrival.gate = some gate.gate_id) := by
  have hnd : gate.queue.Nodup := List.nodup_iff_count_le_one.mpr fun x =>
    Nat.le_trans (Nat.le_add_right _ _) (h.settled.holds_le hg x)
  refine (List.perm_ext_iff_of_nodup hnd (hl.nodup.filter _)).mpr ?_
  intro x
  rw [List.mem_filter, hl.mem_iff]
  constructor
  · intro hx
    obtain ⟨a, ha, hu, hgate, _⟩ := h.queued hidle hg hx
    refine ⟨⟨a, ha, hu⟩, decide_eq_true ?_⟩
    rw [ha]
    exact congrArg some hgate
  · rintro ⟨⟨a, ha, hu⟩, hgate⟩
    obtain ⟨g₁, gate₁, hk₁, hg₁, hx⟩ := h.waits hidle ha hu
    replace hgate := of_decide_eq_true hgate
    rw [ha] at hgate
    rw [Option.some.inj hgate, hk] at hk₁
    obtain rfl := Option.some.inj hk₁
    obtain rfl := Option.some.inj (hg.symm.trans hg₁)
    exact hx

/-- the records after a restart are the rows, and the queues are in order -/
theorem restart_order (h : w.Timely cfg) (hidle : w.Idle) {l : List Nat} (hl : w.Fetched l) :
    (w.restart cfg l).guests = w.rows ∧
      ∀ gate ∈ (w.restart cfg l).heap, gate.queue.Pairwise w.Before := by
  let v : World := { World.init cfg with
    rows := w.rows, guests := w.rows, completions := w.completions, events := w.events, now := w.now }
  have hrank : v.rank = w.rank := by
    funext x
    rcases hx : w.guests[x]? with _ | a
    · have hv : v.guests[x]? = none := by
        rw [List.getElem?_eq_none_iff] at hx ⊢
        rw [← h.settled.length]
        exact hx
      rw [World.rank, World.rank, hx, hv]
    · obtain ⟨b, hb, hkey⟩ := h.settled.row_of_guest hx
      have hv : v.guests[x]? = some b := hb
      obtain ⟨hguest, _⟩ := Prod.mk.inj hkey
      simp only [World.rank, hx, hv, hguest]
  have hbefore : v.Before = w.Before := by
    funext x y
    rw [World.Before, World.Before, hrank]
  rw [← hbefore]
  refine rehydrateAll_order v (h.fetched_lt hl) (fun x hx => ?_) fun gate hg => ?_
  · obtain ⟨a, ha, hu⟩ := hl.mem_iff.mp hx
    obtain ⟨g, gate, _, hg, hq⟩ := h.waits hidle ha hu
    obtain ⟨b, hb, _, _, _, hne⟩ := h.queued hidle hg hq
    show w.rows[x]?.map Arrival.status ≠ some .processing
    rw [hb]
    exact fun e => hne (Option.some.inj e)
  · rw [((World.init_fresh cfg).gates gate hg).1]
    exact ⟨.nil, fun _ hy => absurd hy List.not_mem_nil⟩

end World.Timely

end

/-- **A restart restores the queues.**  After every run of arrivals and steps of the workers in which
the arrivals read later and later times, when no bundle is in flight and no mark is uncommitted, a
restart gives every gate the same queue: the same arrivals in the same order with the same
statuses. -/
theorem restart_restores (cfg : Config) (moves : List Move) (w : World)
    (hrun : (arrivals cfg).Runs ArrivesLater (World.init cfg) moves w) (hidle : w.Idle) (l : List Nat)
    (hl : w.Fetched l) (k : String) :
    ((w.restart cfg l).gateAt k).map (w.restart cfg l).lineUp = (w.gateAt k).map w.lineUp := by
  have h : w.Timely cfg :=
    hrun.inv (P := World.Timely cfg) (fun w move w' h hg hw => h.step hg hw) (init_timely cfg)
  rcases hk : (World.init cfg).gates.get? k with _ | g
  · rw [World.gateAt, World.gateAt, restart_gates, h.gates, hk]
    rfl
  · have hkw : w.gates.get? k = some g := by rw [h.gates, hk]
    obtain ⟨gate, hg, rfl⟩ := h.settled.registry.keyed k g hkw
    obtain ⟨gate', hgate', hp⟩ := restart_queue cfg w l hk
    obtain ⟨hguests, horder⟩ := h.restart_order hidle hl
    -- both queues have the same guests in the same order
    have hq : gate'.queue = gate.queue := by
      refine List.Perm.eq_of_pairwise (fun x y _ _ hxy hyx => ?_) (horder gate' (gateAt_mem hgate'))
        (h.inStep gate (List.mem_of_getElem? hg)).order (hp.trans (h.queue_perm hidle hl hg hkw).symm)
      rw [World.Before] at hxy hyx
      omega
    have hlive : w.gateAt gate.gate_id = some gate := by
      rw [World.gateAt, hkw]
      exact hg
    rw [hgate', hlive]
    refine congrArg some ?_
    rw [World.lineUp, World.lineUp, hq]
    apply List.map_congr_left
    intro x hx
    obtain ⟨a, ha, _, _, hmem, _⟩ := h.queued hidle hg hx
    rw [hmem, World.memory, hguests, ha]
    rfl

/-- a child is held at EU-1, and two more arrivals come later -/
def heldChild : List Move :=
  [.assign chang, .tick 1, .assign mihai, .tick 1, .work 0, .work 0, .work 0, .work 1, .work 1,
   .work 1, .assign andrei, .tick 1, .assign andrei]

theorem restart_restores_held :
    ∃ w, (arrivals threeGates).Runs ArrivesLater (World.init threeGates) heldChild w ∧
      w.Idle ∧ (w.gateAt "EU-1").map w.lineUp = some [(1, some .held), (3, some .queued)] ∧
      ∀ k, ((w.restart threeGates w.fetch).gateAt k).map (w.restart threeGates w.fetch).lineUp =
        (w.gateAt k).map w.lineUp :=
  ⟨_, Machine.runs_iff_runG.mpr rfl, by decide, rfl,
    restart_restores threeGates heldChild _ (Machine.runs_iff_runG.mpr rfl) (by decide) _
      (fetch_fetched _)⟩

end Airport
