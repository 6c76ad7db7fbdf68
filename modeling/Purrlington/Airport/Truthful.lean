import Purrlington.Airport.Upkeep

/-!
# Airport: what the table tells of those who wait

The status of a guest is kept twice, in its row and in its record in memory, and so is its gate.

* `Gate.Told`            the row of a guest in the queue has the status of its record, but for the
                         guests whose `held` mark is still to be committed;
* `work_told`            the workers keep it;
* `Requeued`             what `close_gate` does to the two statuses of those it displaces;
* `truthful_iff`         the table tells the truth between operations exactly as long as no close
                         displaces a guest that is held.
-/

set_option linter.unusedSectionVars false

namespace Airport
open SM Ledger

/-- the status of the guest's record -/
def World.memory (w : World) (x : Nat) : Option Status := w.guests[x]?.map Arrival.status

structure Gate.Told (w : World) (gate : Gate) : Prop where
  same : ∀ x ∈ gate.queue, x ∉ gate.worker.marks →
    w.statusOf x = w.memory x ∧ w.memory x ≠ some .processing
  marked : ∀ x ∈ gate.worker.marks, w.memory x = some .held

section
variable {cfg : Config} {w w' : World} {g : Nat} {gate : Gate} {T : GateType → Prop}
  {pending : List Nat}

theorem status_updateAt_ne {ids : List Nat} {x : Nat} (hx : x ∉ ids) (f : Nat → Arrival → Arrival)
    (l : List Arrival) : (updateAt ids f l)[x]?.map Arrival.status = l[x]?.map Arrival.status := by
  rw [getElem?_updateAt, Option.map_map]
  congr 1
  funext a
  show Arrival.status (if x ∈ ids then _ else _) = _
  rw [if_neg hx]

theorem status_updateAt_mem {ids : List Nat} {x : Nat} (hx : x ∈ ids) {f : Nat → Arrival → Arrival}
    {st : Status} (hf : ∀ i a, (f i a).status = st) {l : List Arrival} (hl : x < l.length) :
    (updateAt ids f l)[x]?.map Arrival.status = some st := by
  rw [getElem?_updateAt, List.getElem?_eq_getElem hl]
  show some (Arrival.status (if x ∈ ids then _ else _)) = _
  rw [if_pos hx, hf]

/-! ## one place for one arrival -/

theorem World.Settled.place_unique (h : w.Settled T pending) {i j x : Nat} {a b : Gate}
    (hi : w.heap[i]? = some a) (hj : w.heap[j]? = some b) (ha : a.Has x) (hb : b.Has x) :
    i = j := by
  have hone := h.one x
  have hstock : w.stock x ≤ 1 := by
    split at hone <;> omega
  exact holder_unique hstock hi hj (Gate.holds_pos.mpr ha) (Gate.holds_pos.mpr hb)

theorem World.Settled.holds_le (h : w.Settled T pending) (hg : w.heap[g]? = some gate) (x : Nat) :
    gate.holds x ≤ 1 := by
  have hone := h.one x
  have hle : gate.holds x ≤ w.stock x := le_total (List.mem_of_getElem? hg)
  split at hone <;> omega

/-! ## the worker of a gate -/

theorem Gate.Told.frame (h : gate.Told w) (hm : ∀ x ∈ gate.worker.marks, x ∈ gate.queue)
    (hst : ∀ x ∈ gate.queue, w'.statusOf x = w.statusOf x ∧ w'.memory x = w.memory x) :
    gate.Told w' := by
  refine ⟨fun x hx hnm => ?_, fun x hx => ?_⟩
  · rw [(hst x hx).1, (hst x hx).2]
    exact h.same x hx hnm
  · rw [(hst x (hm x hx)).2]
    exact h.marked x hx

theorem Gate.Told.congr (h : gate.Told w) (hg : w'.guests = w.guests) (hr : w'.rows = w.rows) :
    gate.Told w' := by
  refine ⟨?_, ?_⟩
  · simp only [World.statusOf, World.memory, hg, hr]
    exact h.same
  · simp only [World.memory, hg]
    exact h.marked

theorem Gate.Told.move (h : gate.Told w) (hm : gate.worker.marks = []) {worker : Worker}
    (hm' : worker.marks = []) (cp : Option Nat) :
    Gate.Told w { gate with worker := worker, currently_processing := cp } := by
  refine ⟨fun x hx _ => h.same x hx (by rw [hm]; exact List.not_mem_nil), ?_⟩
  intro x hx
  replace hx : x ∈ worker.marks := hx
  rw [hm'] at hx
  exact absurd hx List.not_mem_nil

/-- a worker writes the statuses of guests of its gate only -/
theorem work_untouched (ht : gate.Tidy w) (hg : w.heap[g]? = some gate)
    (h : w.work cfg g = some w') {x : Nat} (hx : ¬ gate.Has x) :
    w'.statusOf x = w.statusOf x ∧ w'.memory x = w.memory x := by
  obtain ⟨gate₁, gate', w₁, hg₁, hs, rfl⟩ := work_step h
  obtain rfl := Option.some.inj (hg.symm.trans hg₁)
  have hq : x ∉ gate.queue := fun hm => hx (.inl hm)
  have hb : x ∉ gate.worker.bundle := fun hm => hx (.inr hm)
  have hm : x ∉ gate.worker.marks := fun hm => hq (ht.marks x hm)
  cases hs with
  | ready hw =>
    have hpick := pickNext_perm (w.reads cfg) gate.queue
    refine ⟨rfl, (status_updateAt_ne ?_ _ _).trans (status_updateAt_ne ?_ _ _)⟩
    · exact fun hm => hq (hpick.mem_iff.mp (List.mem_append_left _ hm))
    · exact fun hm => hq (hpick.mem_iff.mp (List.mem_append_right _ (pickNext_held_mem _ hm)))
  | holding bundle held hw =>
    rw [hw] at hm
    exact ⟨status_updateAt_ne hm _ _, rfl⟩
  | marking bundle hw =>
    rw [hw] at hb
    exact ⟨status_updateAt_ne hb _ _, rfl⟩
  | processing bundle hw =>
    rw [hw] at hb
    exact ⟨rfl, status_updateAt_ne hb _ _⟩
  | recording bundle hw =>
    rw [hw] at hb
    exact ⟨status_updateAt_ne hb _ _, rfl⟩
  | _ => exact ⟨rfl, rfl⟩

/-- the worker picks: the newly held guests have their mark in memory only -/
theorem Gate.Told.pick (h : gate.Told w) (cfg : Config) (hnd : gate.queue.Nodup)
    (hm : gate.worker.marks = [])
    (hrow : ∀ x ∈ gate.queue, x < w.guests.length) (hrows : w'.rows = w.rows)
    (hguests : w'.guests = updateAt ((pickNext (w.reads cfg) gate.queue).bundle.getD [])
      (setStatus .processing)
      (updateAt (pickNext (w.reads cfg) gate.queue).held (setStatus .held) w.guests))
    {u : Gate} (hq : u.queue = (pickNext (w.reads cfg) gate.queue).queue)
    (hmu : u.worker.marks = (pickNext (w.reads cfg) gate.queue).held) : u.Told w' := by
  have hsub := pickNext_sublist (w.reads cfg) gate.queue
  have hheld : ∀ x ∈ (pickNext (w.reads cfg) gate.queue).held,
      x ∈ (pickNext (w.reads cfg) gate.queue).queue := fun x hx => pickNext_held_mem _ hx
  -- nobody who stays is in the bundle
  have hb : ∀ x ∈ (pickNext (w.reads cfg) gate.queue).queue,
      x ∉ (pickNext (w.reads cfg) gate.queue).bundle.getD [] := by
    intro x hx hm
    have hd := (pickNext_perm (w.reads cfg) gate.queue).nodup_iff.mpr hnd
    exact (List.nodup_append.mp hd).2.2 x hm x hx rfl
  have hmem : ∀ x ∈ (pickNext (w.reads cfg) gate.queue).queue, w'.memory x =
      (updateAt (pickNext (w.reads cfg) gate.queue).held (setStatus .held) w.guests)[x]?.map
        Arrival.status := by
    intro x hx
    rw [World.memory, hguests]
    exact status_updateAt_ne (hb x hx) _ _
  refine ⟨fun x hx hnm => ?_, fun x hx => ?_⟩
  · rw [hq] at hx
    rw [hmu] at hnm
    rw [hmem x hx, status_updateAt_ne hnm, World.statusOf, hrows]
    exact h.same x (hsub.subset hx) (by rw [hm]; exact List.not_mem_nil)
  · rw [hmu] at hx
    rw [hmem x (hheld x hx)]
    exact status_updateAt_mem hx (setStatus_status .held) (hrow x (hsub.subset (hheld x hx)))

theorem Gate.Told.hold (h : gate.Told w) {held : List Nat} (hm : gate.worker.marks = held)
    (hrow : ∀ x ∈ gate.queue, x < w.rows.length)
    (hrows : w'.rows = updateAt held (setStatus .held) w.rows) (hguests : w'.guests = w.guests)
    {u : Gate} (hq : u.queue = gate.queue) (hmu : u.worker.marks = []) : u.Told w' := by
  have hmem : ∀ x, w'.memory x = w.memory x := fun x => by
    rw [World.memory, hguests]
    rfl
  refine ⟨fun x hx _ => ?_, fun x hx => ?_⟩
  · rw [hq] at hx
    rw [hmem, World.statusOf, hrows]
    by_cases hxm : x ∈ held
    · rw [status_updateAt_mem hxm (setStatus_status .held) (hrow x hx),
        h.marked x (by rw [hm]; exact hxm)]
      exact ⟨rfl, by decide⟩
    · rw [status_updateAt_ne hxm]
      exact h.same x hx (by rw [hm]; exact hxm)
  · rw [hmu] at hx
    exact absurd hx List.not_mem_nil

theorem work_told_own {u : Gate} (ht : gate.Tidy w) (hin : gate.Told w)
    (hone : ∀ x, gate.queue.count x + gate.worker.bundle.count x ≤ 1)
    (hrow : ∀ x ∈ gate.queue, x < w.rows.length ∧ x < w.guests.length)
    (hg : w.heap[g]? = some gate) (h : w.work cfg g = some w') (hu : w'.heap[g]? = some u) :
    u.Told w' := by
  obtain ⟨gate₁, gate', w₁, hg₁, hs, hw'⟩ := work_step h
  obtain rfl := Option.some.inj (hg.symm.trans hg₁)
  have hu' : w'.heap[g]? = some gate' := by
    rw [hw']
    exact List.getElem?_set_self (List.getElem?_eq_some_iff.mp hg).1
  obtain rfl := Option.some.inj (hu'.symm.trans hu)
  have hb : ∀ x ∈ gate.queue, x ∉ gate.worker.bundle := by
    intro x hx hm
    have := hone x
    have := List.count_pos_iff.mpr hx
    have := List.count_pos_iff.mpr hm
    omega
  -- a worker without marks that writes the status of nobody in the queue
  have move : ∀ (worker : Worker) (cp : Option Nat), gate.worker.marks = [] → worker.marks = [] →
      (∀ x ∈ gate.queue, w'.statusOf x = w.statusOf x ∧ w'.memory x = w.memory x) →
      Gate.Told w' { gate with worker := worker, currently_processing := cp } := by
    intro worker cp hm hm' hst
    exact Gate.Told.move (hin.frame ht.marks hst) hm hm' cp
  subst hw'
  cases hs with
  | head hw =>
    refine move _ _ (by rw [hw]; rfl) ?_ fun x _ => ⟨rfl, rfl⟩
    split <;> rfl
  | ready hw =>
    have hnd : gate.queue.Nodup := List.nodup_iff_count_le_one.mpr fun x => by
      have := hone x
      omega
    have hmarks : gate.worker.marks = [] := by
      rw [hw]
      rfl
    refine hin.pick cfg hnd hmarks (fun x hx => (hrow x hx).2) ?_ ?_ ?_ ?_
    · rfl
    · rfl
    · rfl
    · show Worker.marks (if _ then _ else _) = _
      split
      · rename_i hnil
        rw [afterHeld_marks, hnil]
      · rfl
  | holding bundle held hw =>
    have hmarks : gate.worker.marks = held := by
      rw [hw]
      rfl
    refine hin.hold hmarks (fun x hx => (hrow x hx).1) ?_ ?_ ?_ (afterHeld_marks bundle)
    · rfl
    · rfl
    · rfl
  | marking bundle hw =>
    rw [hw] at hb
    exact move _ _ (by rw [hw]; rfl) rfl fun x hx => ⟨status_updateAt_ne (hb x hx) _ _, rfl⟩
  | processing bundle hw =>
    rw [hw] at hb
    exact move _ _ (by rw [hw]; rfl) rfl fun x hx => ⟨rfl, status_updateAt_ne (hb x hx) _ _⟩
  | recording bundle hw =>
    rw [hw] at hb
    exact move _ _ (by rw [hw]; rfl) rfl fun x hx => ⟨status_updateAt_ne (hb x hx) _ _, rfl⟩
  | publishing y left hw => exact move _ _ (by rw [hw]; rfl) rfl fun x _ => ⟨rfl, rfl⟩
  | done hw => exact move _ _ (by rw [hw]; rfl) rfl fun x _ => ⟨rfl, rfl⟩

/-- **The statuses of those who wait are told whatever the workers do.** -/
theorem work_told (hs : w.Settled T pending) (hin : ∀ gate ∈ w.heap, gate.Told w)
    (h : w.work cfg g = some w') : ∀ gate ∈ w'.heap, gate.Told w' := by
  obtain ⟨gate, gate', hg, hh, _⟩ := work_gate h
  have htidy := hs.tidy gate (List.mem_of_getElem? hg)
  intro u hu
  obtain ⟨j, hj⟩ := List.mem_iff_getElem?.mp hu
  by_cases e : j = g
  · subst e
    refine work_told_own htidy (hin gate (List.mem_of_getElem? hg)) (hs.holds_le hg)
      (fun x hx => ?_) hg h hj
    have hlt := (hs.row hg (.inl hx)).1
    exact ⟨hlt, by rw [hs.length]; exact hlt⟩
  · rw [hh, List.getElem?_set_ne fun e' => e e'.symm] at hj
    have hu := List.mem_of_getElem? hj
    apply (hin u hu).frame (hs.tidy u hu).marks
    intro x hx
    exact work_untouched htidy hg h fun hx' => e (hs.place_unique hj hg (.inl hx) hx')

theorem toRest_told (hs : w.Settled T pending) (hin : ∀ gate ∈ w.heap, gate.Told w) {n : Nat}
    (h : w.toRest cfg g n = some w') : ∀ gate ∈ w'.heap, gate.Told w' := by
  induction n generalizing w with
  | zero =>
    obtain rfl := Option.some.inj h
    exact hin
  | succ n ih =>
    rw [World.toRest] at h
    split at h
    · obtain rfl := Option.some.inj h
      exact hin
    · obtain ⟨w₁, h₁, h⟩ := Option.bind_eq_some_iff.mp h
      exact ih (hs.work h₁) (work_told hs hin h₁) h

theorem operate_told (hs : w.Settled T pending) (hin : ∀ gate ∈ w.heap, gate.Told w)
    (h : w.operate cfg g = some w') : ∀ gate ∈ w'.heap, gate.Told w' := by
  obtain ⟨w₁, h₁, h⟩ := Option.bind_eq_some_iff.mp h
  exact toRest_told (hs.work h₁) (work_told hs hin h₁) h

/-! ## assign_and_enqueue and open_gate -/

theorem insertRow_untouched (hs : w.Settled T pending) (guest : Guest) (t : Int) (gate_id : String)
    {x : Nat} (hx : x < w.rows.length) :
    (w.insertRow guest t gate_id).guests[x]? = w.guests[x]? ∧
      (w.insertRow guest t gate_id).statusOf x = w.statusOf x ∧
      (w.insertRow guest t gate_id).memory x = w.memory x := by
  have hgu : (w.insertRow guest t gate_id).guests[x]? = w.guests[x]? :=
    List.getElem?_append_left (by rw [hs.length]; exact hx)
  refine ⟨hgu, ?_, ?_⟩
  · rw [statusOf_insertRow, if_neg (Nat.ne_of_lt hx)]
  · rw [World.memory, hgu]
    rfl

theorem memory_insertRow (hs : w.Settled T pending) (guest : Guest) (t : Int) (gate_id : String) :
    (w.insertRow guest t gate_id).memory w.rows.length = some .queued := by
  show (w.guests ++ [_])[w.rows.length]?.map _ = _
  rw [← hs.length, List.getElem?_concat_length]
  rfl

theorem Gate.Told.join (h : gate.Told w) {x : Nat} (hx : w.statusOf x = w.memory x)
    (hp : w.memory x ≠ some .processing) :
    Gate.Told w { gate with queue := (enqueue w.rank gate.queue x).1 } := by
  refine ⟨fun y hy hnm => ?_, h.marked⟩
  rcases mem_enqueue.mp hy with rfl | hy
  · exact ⟨hx, hp⟩
  · exact h.same y hy hnm

theorem assign_told (hs : w.Settled T []) (hin : ∀ gate ∈ w.heap, gate.Told w) {guest : Guest}
    (h : w.assignAndEnqueue guest = some w') : ∀ gate ∈ w'.heap, gate.Told w' := by
  unfold World.assignAndEnqueue at h
  split at h
  · obtain rfl := Option.some.inj h
    exact hin
  · rename_i g _
    obtain ⟨gate, hg, rfl⟩ := Option.map_eq_some_iff.mp h
    have hframe : ∀ v ∈ w.heap, v.Told (w.insertRow guest w.now gate.gate_id) := by
      intro v hv
      obtain ⟨j, hj⟩ := List.mem_iff_getElem?.mp hv
      apply (hin v hv).frame (hs.tidy v hv).marks
      intro x hx
      exact (insertRow_untouched hs guest _ _ (hs.row hj (.inl hx)).1).2
    intro u hu
    replace hu : u ∈ w.heap.modify g _ := hu
    rw [modify_eq_set hg] at hu
    rcases List.mem_or_eq_of_mem_set hu with hu | rfl
    · exact (hframe u hu).congr rfl rfl
    · have hmem := memory_insertRow hs guest w.now gate.gate_id
      have hjoin := (hframe gate (List.mem_of_getElem? hg)).join (x := w.rows.length)
        (by rw [statusOf_insertRow, if_pos rfl, hmem]) (by rw [hmem]; simp)
      exact hjoin.congr rfl rfl

theorem openGate_told (hin : ∀ gate ∈ w.heap, gate.Told w) (gate_id gate_type : String) :
    ∀ gate ∈ (w.openGate cfg gate_id gate_type).heap,
      gate.Told (w.openGate cfg gate_id gate_type) := by
  unfold World.openGate
  split
  · intro u hu
    rcases List.mem_append.mp hu with hu | hu
    · exact (hin u hu).congr rfl rfl
    · rw [List.mem_singleton.mp hu]
      exact ⟨fun x hx => absurd hx List.not_mem_nil, fun x hx => absurd hx List.not_mem_nil⟩
  · exact hin

/-! ## close_gate -/

/-- what `close_gate` does to those it displaces: their rows are queued again, their records have
the statuses they had, and each of them is in a queue -/
structure Requeued (w : World) (left : List Nat) (w' : World) : Prop where
  memory : ∀ x, w'.memory x = w.memory x
  statusOf : ∀ x, w'.statusOf x =
    if x ∈ left then (w.statusOf x).map fun _ => .queued else w.statusOf x
  origin : ∀ u ∈ w'.heap, ∃ v ∈ w.heap, u.worker = v.worker ∧ ∀ y ∈ u.queue, y ∈ v.queue ∨ y ∈ left
  placed : ∀ x ∈ left, ∃ u ∈ w'.heap, x ∈ u.queue

theorem memory_retarget (x : Nat) (gate_id : String) (y : Nat) :
    (w.retarget x gate_id).memory y = w.memory y := by
  have hst : (updateAt [x] (fun _ (a : Arrival) => { a with gate := gate_id }) w.guests).map
      Arrival.status = w.guests.map Arrival.status :=
    map_updateAt (f := fun _ a => { a with gate := gate_id }) (fun _ _ => rfl) _ _
  show (updateAt [x] _ w.guests)[y]?.map _ = w.guests[y]?.map _
  rw [← List.getElem?_map, ← List.getElem?_map, hst]

theorem requeue_heap {first x : Nat} {others : List Nat} (h : w.requeue first others x = some w') :
    ∃ target gate rank, w.heap[target]? = some gate ∧
      w'.heap = w.heap.set target { gate with queue := (enqueue rank gate.queue x).1 } := by
  obtain ⟨gate, hg, rfl⟩ := Option.map_eq_some_iff.mp h
  exact ⟨_, gate, _, hg, modify_eq_set hg _⟩

/-- who waits at a gate still does after a displaced guest has joined a queue -/
theorem requeue_stay {first x : Nat} {others : List Nat} (h : w.requeue first others x = some w')
    {v : Gate} (hv : v ∈ w.heap) : ∃ u ∈ w'.heap, ∀ y ∈ v.queue, y ∈ u.queue := by
  obtain ⟨target, gate, rank, hg, hheap⟩ := requeue_heap h
  rw [hheap]
  obtain ⟨j, hj⟩ := List.mem_iff_getElem?.mp hv
  by_cases e : target = j
  · subst e
    obtain rfl := Option.some.inj (hg.symm.trans hj)
    refine ⟨_, List.mem_set (List.getElem?_eq_some_iff.mp hg).1 _, fun y hy => ?_⟩
    exact mem_enqueue.mpr (.inr hy)
  · refine ⟨v, List.mem_of_getElem? (i := j) ?_, fun y hy => hy⟩
    rw [List.getElem?_set_ne e, hj]

theorem requeueAll_stay {first : Nat} {others left : List Nat}
    (h : World.requeueAll first others w left = some w') {v : Gate} (hv : v ∈ w.heap) :
    ∃ u ∈ w'.heap, ∀ y ∈ v.queue, y ∈ u.queue := by
  induction left generalizing w v with
  | nil =>
    obtain rfl := Option.some.inj h
    exact ⟨v, hv, fun y hy => hy⟩
  | cons x left ih =>
    obtain ⟨w₁, h₁, h⟩ := Option.bind_eq_some_iff.mp h
    obtain ⟨v₁, hv₁, hq₁⟩ := requeue_stay h₁ hv
    obtain ⟨u, hu, hq⟩ := ih h hv₁
    exact ⟨u, hu, fun y hy => hq y (hq₁ y hy)⟩

theorem requeue_requeued {first x : Nat} {others : List Nat}
    (h : w.requeue first others x = some w') : Requeued w [x] w' := by
  refine ⟨fun y => ?_, fun y => ?_, fun u hu => ?_, fun y hy => ?_⟩
  · obtain ⟨gate, _, rfl⟩ := Option.map_eq_some_iff.mp h
    exact memory_retarget x gate.gate_id y
  · obtain ⟨gate, _, rfl⟩ := Option.map_eq_some_iff.mp h
    exact statusOf_recordRow _ x gate.gate_id y
  · obtain ⟨target, gate, rank, hg, hheap⟩ := requeue_heap h
    rw [hheap] at hu
    rcases List.mem_or_eq_of_mem_set hu with hu | rfl
    · exact ⟨u, hu, rfl, fun y hy => .inl hy⟩
    · refine ⟨gate, List.mem_of_getElem? hg, rfl, fun y hy => ?_⟩
      exact (mem_enqueue.mp hy).symm.imp id List.mem_singleton.mpr
  · obtain ⟨target, gate, rank, hg, hheap⟩ := requeue_heap h
    rw [hheap]
    refine ⟨_, List.mem_set (List.getElem?_eq_some_iff.mp hg).1 _, ?_⟩
    exact mem_enqueue.mpr (.inl (List.mem_singleton.mp hy))

theorem requeueAll_requeued {first : Nat} {others left : List Nat}
    (h : World.requeueAll first others w left = some w') : Requeued w left w' := by
  induction left generalizing w with
  | nil =>
    obtain rfl := Option.some.inj h
    exact ⟨fun _ => rfl, fun _ => rfl, fun u hu => ⟨u, hu, rfl, fun _ hy => .inl hy⟩,
      fun x hx => absurd hx List.not_mem_nil⟩
  | cons x left ih =>
    obtain ⟨w₁, h₁, hrest⟩ := Option.bind_eq_some_iff.mp h
    have hone := requeue_requeued h₁
    have hall := ih hrest
    refine ⟨fun y => (hall.memory y).trans (hone.memory y), fun y => ?_, fun u hu => ?_,
      fun y hy => ?_⟩
    · rw [hall.statusOf, hone.statusOf]
      by_cases hx : y = x
      · subst hx
        rw [if_pos (List.mem_singleton_self y), if_pos List.mem_cons_self, Option.map_map]
        split <;> rfl
      · rw [if_neg fun hm => hx (List.mem_singleton.mp hm)]
        simp only [List.mem_cons, hx, false_or]
    · obtain ⟨v, hv, hworker, hq⟩ := hall.origin u hu
      obtain ⟨v₀, hv₀, hworker₀, hq₀⟩ := hone.origin v hv
      refine ⟨v₀, hv₀, hworker.trans hworker₀, fun y hy => ?_⟩
      rcases hq y hy with hy | hy
      · refine (hq₀ y hy).imp id fun hm => ?_
        exact List.mem_cons.mpr (.inl (List.mem_singleton.mp hm))
      · exact .inr (List.mem_cons_of_mem x hy)
    · rcases List.mem_cons.mp hy with rfl | hy
      · obtain ⟨v, hv, hq⟩ := hone.placed y List.mem_cons_self
        obtain ⟨u, hu, hsub⟩ := requeueAll_stay hrest hv
        exact ⟨u, hu, hsub y hq⟩
      · exact hall.placed y hy

theorem closeGate_requeued (hs : w.Settled T []) (hr : w.AtRest) {gate_id : String} {k : Closing}
    (hidle : Unoccupied w (.close gate_id)) (hl : Call.lookupClose w gate_id = some (.deactivate k))
    (hat : w.gateAt gate_id = some gate) (h : w.closeGate gate_id = some w') :
    Requeued w gate.queue w' := by
  obtain ⟨_, hk, u, hg, _⟩ := lookupClose_closing hl
  rw [World.gateAt, hk] at hat
  obtain rfl := Option.some.inj (hat.symm.trans hg)
  have hcp : gate.currently_processing = none := by
    refine (hs.tidy gate (List.mem_of_getElem? hg)).booth (hr.idle_at hidle gate ?_).1
    rw [Option.mem_def, World.gateAt, hk]
    exact hg
  have hg₁ : (w.deactivate k.gate).heap[k.gate]? = some { gate with active := false } :=
    modifyGate_self hg _
  rw [World.closeGate, hl] at h
  replace h : ((w.deactivate k.gate).heap[k.gate]?.bind fun gate => _) = some w' := h
  rw [hg₁, Option.bind_some] at h
  obtain ⟨w₁, hloop, rfl⟩ := Option.map_eq_some_iff.mp h
  rw [show (Gate.currently_processing { gate with active := false }).toList ++ gate.queue =
    gate.queue by rw [hcp]; rfl] at hloop
  have hreq := requeueAll_requeued hloop
  have hguests : ((w.deactivate k.gate).displace k.gate { gate with active := false }).guests =
      w.guests := World.Settled.displace_guests (w := w.deactivate k.gate) hcp
  refine ⟨fun x => (hreq.memory x).trans ?_, hreq.statusOf, fun u hu => ?_, hreq.placed⟩
  · rw [World.memory, hguests]
    rfl
  · obtain ⟨v, hv, hworker, hq⟩ := hreq.origin u hu
    replace hv : v ∈ (w.deactivate k.gate).heap.modify k.gate _ := hv
    rw [modify_eq_set hg₁] at hv
    rcases List.mem_or_eq_of_mem_set hv with hv | rfl
    · replace hv : v ∈ w.heap.modify k.gate _ := hv
      rw [modify_eq_set hg] at hv
      rcases List.mem_or_eq_of_mem_set hv with hv | rfl
      · exact ⟨v, hv, hworker, hq⟩
      · exact ⟨gate, List.mem_of_getElem? hg, hworker, hq⟩
    · refine ⟨gate, List.mem_of_getElem? hg, hworker, fun y hy => ?_⟩
      exact .inr ((hq y hy).resolve_left List.not_mem_nil)

end

/-! ## the truth about those who wait -/

/-- the row of a guest in the queue of a gate has the status of its record and the id of the gate -/
def World.Truthful (w : World) : Prop :=
  ∀ gate ∈ w.heap, ∀ x ∈ gate.queue, ∃ row ∈ w.rows[x]?, ∃ a ∈ w.guests[x]?,
    row.status = a.status ∧ row.gate = gate.gate_id

instance (w : World) : Decidable w.Truthful :=
  inferInstanceAs (Decidable (∀ gate ∈ w.heap, ∀ x ∈ gate.queue, _))

/-- a close that passes its checks finds nobody in the queue who is held -/
def SparesHeld (w : World) : Op → Prop
  | .close gate_id =>
    match Call.lookupClose w gate_id with
    | some (.deactivate _) => ∀ gate ∈ w.gateAt gate_id, ∀ x ∈ gate.queue, w.memory x ≠ some .held
    | _ => True
  | _ => True

instance (w : World) : ∀ op, Decidable (SparesHeld w op)
  | .close gate_id => by
    show Decidable (match Call.lookupClose w gate_id with
      | some (.deactivate _) => ∀ gate ∈ w.gateAt gate_id, ∀ x ∈ gate.queue, w.memory x ≠ some .held
      | _ => True)
    split <;> infer_instance
  | .assign _ | .open _ _ | .work _ | .tick _ => isTrue trivial

section
variable {cfg : Config} {w w' : World} {gate : Gate} {T : GateType → Prop}

theorem sparesHeld_close {gate_id : String} {k : Closing}
    (hl : Call.lookupClose w gate_id = some (.deactivate k)) : SparesHeld w (.close gate_id) ↔
      ∀ gate ∈ w.gateAt gate_id, ∀ x ∈ gate.queue, w.memory x ≠ some .held := by
  rw [SparesHeld, hl]

theorem gateAt_of_lookupClose {gate_id : String} {k : Closing}
    (hl : Call.lookupClose w gate_id = some (.deactivate k)) :
    ∃ gate, w.gateAt gate_id = some gate := by
  obtain ⟨_, hk, gate, hg, _⟩ := lookupClose_closing hl
  exact ⟨gate, by rw [World.gateAt, hk]; exact hg⟩

theorem World.Settled.known (hs : w.Settled T []) (hg : gate ∈ w.heap) {x : Nat} (hx : gate.Has x) :
    ∃ row a, w.rows[x]? = some row ∧ w.guests[x]? = some a := by
  obtain ⟨j, hj⟩ := List.mem_iff_getElem?.mp hg
  have hlt := (hs.row hj hx).1
  exact ⟨_, _, List.getElem?_eq_getElem hlt, List.getElem?_eq_getElem (by rw [hs.length]; exact hlt)⟩

/-- between operations the table tells the truth where the statuses are told -/
theorem World.Settled.truthful (hs : w.Settled T []) (hr : w.AtRest)
    (htold : ∀ gate ∈ w.heap, gate.Told w) : w.Truthful := by
  intro gate hg x hx
  obtain ⟨a, ha, hname⟩ := (hs.tidy gate hg).named x hx
  obtain ⟨row, hrow, hkey⟩ := hs.row_of_guest ha
  have hst := ((htold gate hg).same x hx (by rw [hr.marks hg]; exact List.not_mem_nil)).1
  rw [World.statusOf, World.memory, hrow, ha] at hst
  obtain ⟨_, hrest⟩ := Prod.mk.inj hkey
  exact ⟨row, hrow, a, ha, Option.some.inj hst, (Prod.mk.inj hrest).2.trans hname⟩

theorem memory_of_truthful (h : w.Truthful) (hg : gate ∈ w.heap) {x : Nat} (hx : x ∈ gate.queue) :
    w.statusOf x = w.memory x := by
  obtain ⟨row, hrow, a, ha, hst, _⟩ := h gate hg x hx
  rw [World.statusOf, World.memory, Option.mem_def.mp hrow, Option.mem_def.mp ha]
  exact congrArg some hst

theorem memory_queued (hs : w.Settled T []) (hr : w.AtRest) (hg : gate ∈ w.heap)
    (htold : gate.Told w) {x : Nat} (hx : x ∈ gate.queue) (hh : w.memory x ≠ some .held) :
    w.memory x = some .queued := by
  obtain ⟨hsame, hp⟩ := htold.same x hx (by rw [hr.marks hg]; exact List.not_mem_nil)
  obtain ⟨j, hj⟩ := List.mem_iff_getElem?.mp hg
  have hd : w.memory x ≠ some .processed := by
    rw [← hsame]
    exact fun e => (hs.row hj (.inl hx)).2 ((hs.recorded x).mp e)
  obtain ⟨row, a, _, ha⟩ := hs.known hg (.inl hx)
  rw [World.memory, ha] at hh hp hd ⊢
  replace hh : some a.status ≠ some .held := hh
  replace hp : some a.status ≠ some .processing := hp
  replace hd : some a.status ≠ some .processed := hd
  show some a.status = some .queued
  cases hst : a.status with
  | queued => rfl
  | processing => exact absurd (congrArg some hst) hp
  | held => exact absurd (congrArg some hst) hh
  | processed => exact absurd (congrArg some hst) hd

theorem closeGate_told (hs : w.Settled T []) (hr : w.AtRest) (htold : ∀ gate ∈ w.heap, gate.Told w)
    {gate_id : String} (hidle : Unoccupied w (.close gate_id))
    (hspare : SparesHeld w (.close gate_id)) (h : w.closeGate gate_id = some w') :
    ∀ gate ∈ w'.heap, gate.Told w' := by
  by_cases hl : ∃ k, Call.lookupClose w gate_id = some (.deactivate k)
  · obtain ⟨k, hl⟩ := hl
    obtain ⟨gate, hat⟩ := gateAt_of_lookupClose hl
    have hreq := closeGate_requeued hs hr hidle hl hat h
    have hg := gateAt_mem hat
    intro u hu
    obtain ⟨v, hv, hworker, hq⟩ := hreq.origin u hu
    have hmarks : u.worker.marks = [] := by
      rw [hworker]
      exact hr.marks hv
    refine ⟨fun x hx _ => ?_, fun x hx => ?_⟩
    · rw [hreq.statusOf, hreq.memory]
      by_cases hxq : x ∈ gate.queue
      · have hqueued : w.memory x = some .queued :=
          memory_queued hs hr hg (htold gate hg) hxq ((sparesHeld_close hl).mp hspare gate hat x hxq)
        have hsame := ((htold gate hg).same x hxq (by rw [hr.marks hg]; exact List.not_mem_nil)).1
        rw [if_pos hxq, hsame, hqueued]
        exact ⟨rfl, by simp⟩
      · rw [if_neg hxq]
        have hxv := (hq x hx).resolve_right hxq
        exact (htold v hv).same x hxv (by rw [hr.marks hv]; exact List.not_mem_nil)
    · rw [hmarks] at hx
      exact absurd hx List.not_mem_nil
  · unfold World.closeGate at h
    split at h
    · exact absurd ⟨_, ‹_›⟩ hl
    · obtain rfl := Option.some.inj h
      exact htold
    · exact absurd h (by simp)

/-- a close that displaces somebody who is held leaves the table with another status -/
theorem sparesHeld_of_truthful (hs : w.Settled T []) (hr : w.AtRest) {gate_id : String}
    (hidle : Unoccupied w (.close gate_id)) (h : w.closeGate gate_id = some w')
    (ht : w'.Truthful) : SparesHeld w (.close gate_id) := by
  show (match Call.lookupClose w gate_id with
    | some (.deactivate _) => ∀ gate ∈ w.gateAt gate_id, ∀ x ∈ gate.queue, w.memory x ≠ some .held
    | _ => True)
  split
  · rename_i k hl
    intro gate hat x hx hheld
    have hreq := closeGate_requeued hs hr hidle hl hat h
    obtain ⟨u, hu, hxu⟩ := hreq.placed x hx
    obtain ⟨row, a, hrow, _⟩ := hs.known (gateAt_mem hat) (.inl hx)
    have hsame := memory_of_truthful ht hu hxu
    rw [hreq.statusOf, hreq.memory, if_pos hx, World.statusOf, hrow, hheld] at hsame
    exact absurd hsame (by simp)
  · trivial

theorem serial_told (hs : w.Settled T []) (hr : w.AtRest) (htold : ∀ gate ∈ w.heap, gate.Told w)
    {op : Op} (hidle : Unoccupied w op) (hspare : SparesHeld w op)
    (h : serial cfg w op = some w') : ∀ gate ∈ w'.heap, gate.Told w' := by
  cases op with
  | assign guest => exact assign_told hs htold h
  | «open» gate_id gate_type =>
    obtain rfl := Option.some.inj h
    exact openGate_told htold gate_id gate_type
  | close gate_id => exact closeGate_told hs hr htold hidle hspare h
  | work g => exact operate_told hs htold h
  | tick d =>
    obtain rfl := Option.some.inj h
    exact fun gate hg => (htold gate hg).congr rfl rfl

end

/-- **The table tells the truth about those who wait** at every point of a run of whole operations
exactly if no close displaces a guest that is held. -/
theorem truthful_iff (cfg : Config) (ops : List Op) (w : World)
    (hrun : (serial cfg).Runs Unoccupied (World.init cfg) ops w) :
    (∀ before after v, ops = before ++ after →
      (serial cfg).Runs Unoccupied (World.init cfg) before v → v.Truthful) ↔
      (serial cfg).Runs SparesHeld (World.init cfg) ops w := by
  constructor
  · intro h
    apply hrun.guarded
    intro before v op v' after e hr hidle hop _
    obtain ⟨hs, hrest⟩ := serial_settled cfg hr
    cases op with
    | close gate_id =>
      refine sparesHeld_of_truthful hs hrest hidle hop ?_
      exact h (before ++ [.close gate_id]) after v' (by rw [e, List.append_assoc]; rfl)
        (hr.snoc hidle hop)
    | _ => trivial
  · intro hspare before after v e hr
    subst e
    obtain ⟨v₁, hr₁, _⟩ := hspare.split
    obtain rfl := hr.det hr₁
    obtain ⟨hs, hrest⟩ := serial_settled cfg hr
    have htold : ∀ gate ∈ v.heap, gate.Told v := by
      refine (hr.and hr₁).inv_along (P := fun w => ∀ gate ∈ w.heap, gate.Told w) ?_ ?_
      · intro bs t op t' hbs ht hg hop
        have hbs' : (serial cfg).Runs Unoccupied (World.init cfg) bs t := hbs.mono fun _ _ h => h.1
        obtain ⟨hs, hrest⟩ := serial_settled cfg hbs'
        exact serial_told hs hrest ht hg.1 hg.2 hop
      · intro gate hg
        obtain ⟨hq, hw, _⟩ := (World.init_fresh cfg).gates gate hg
        refine ⟨fun x hx => ?_, fun x hx => ?_⟩
        · rw [hq] at hx
          exact absurd hx List.not_mem_nil
        · rw [hw] at hx
          exact absurd hx List.not_mem_nil
    exact hs.truthful hrest htold

/-- the child joins its mother's queue before a worker has looked at it, and both are processed -/
def closeBeforePick : List Op :=
  [.assign andrei, .assign mihai, .close "EU-2", .work 0, .tick 40, .work 0]

theorem truthful_closeBeforePick : ∃ w, (serial threeGates).Runs Unoccupied (World.init threeGates)
    closeBeforePick w ∧ w.rows.map (fun a => (a.status, a.gate)) =
      [(.processed, "EU-1"), (.processed, "EU-1")] ∧
    ∀ before after v, closeBeforePick = before ++ after →
      (serial threeGates).Runs Unoccupied (World.init threeGates) before v → v.Truthful :=
  ⟨_, Machine.runs_iff_runG.mpr rfl, rfl, (truthful_iff threeGates closeBeforePick _
    (Machine.runs_iff_runG.mpr rfl)).mpr (Machine.runs_iff_runG.mpr rfl)⟩

/-- a child without its family is held at EU-1, and the gate closes -/
def closeOnHeld : List Op := [.assign mihai, .work 0, .close "EU-1"]

/-- **A held guest whose row says queued.** -/
theorem held_child_requeued : ∃ w, (serial threeGates).Runs Unoccupied (World.init threeGates)
    closeOnHeld w ∧ w.gateAt "EU-2" = some ⟨"EU-2", .EU, 40, [0], none, true, .head⟩ ∧
    w.rows.map (fun a => (a.status, a.gate)) = [(.queued, "EU-2")] ∧ w.memory 0 = some .held ∧
    ¬ w.Truthful :=
  ⟨_, Machine.runs_iff_runG.mpr rfl, rfl, rfl, rfl, by decide⟩

end Airport
