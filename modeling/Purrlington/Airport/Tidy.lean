import Purrlington.Airport.Operations

/-!
# Airport: a gate and its queue

* `Gate.Tidy`            the queue is in order of rank, those in it have the name of the gate and a
                         passport for it, and the booth is empty while the worker is free;
* `Gate.Tidy.join`       a guest joins the queue;
* `work_tidy`            the gates stay tidy whatever the workers do.
-/

set_option linter.unusedSectionVars false

namespace Airport
open SM Ledger

/-- what the guest's record and its row have in common as long as nobody moves the guest -/
def Arrival.key (a : Arrival) : Guest × Int × String := (a.guest, a.queued_at, a.gate)

/-- the guest waits at the gate, or is in the bundle of its worker -/
def Gate.Has (gate : Gate) (x : Nat) : Prop := x ∈ gate.queue ∨ x ∈ gate.worker.bundle

theorem Gate.not_has {gate : Gate} (hq : gate.queue = []) (hb : gate.worker.bundle = []) (x : Nat) :
    ¬ gate.Has x := by
  rw [Gate.Has, hq, hb]
  exact not_or.mpr ⟨List.not_mem_nil, List.not_mem_nil⟩

theorem Gate.holds_pos {gate : Gate} {x : Nat} : 0 < gate.holds x ↔ gate.Has x := by
  rw [Gate.holds, Gate.Has, ← List.count_pos_iff, ← List.count_pos_iff]
  omega

/-! ## one gate -/

/-- the worker has no bundle, and no event of one is left -/
def Worker.free : Worker → Bool
  | .publishing _ => false
  | worker => worker.bundle = []

/-- the order of the queue, the names and passports of those at the gate, and two facts about its
worker: it holds back guests of the queue, and nobody is in the booth while it is free -/
structure Gate.Tidy (w : World) (gate : Gate) : Prop where
  sorted : gate.queue.Pairwise fun x y => w.rank x ≤ w.rank y
  named : ∀ x ∈ gate.queue, ∃ a, w.guests[x]? = some a ∧ a.gate = gate.gate_id
  typed : ∀ x, gate.Has x → ∃ a, w.guests[x]? = some a ∧
    (a.guest.passport_type = .nonEU → gate.gate_type = .ALL)
  marks : ∀ x ∈ gate.worker.marks, x ∈ gate.queue
  booth : gate.worker.free = true → gate.currently_processing = none

/-- the record of the guest keeps its guest, time and gate -/
def World.Keeps (w w' : World) (x : Nat) : Prop :=
  ∀ a, w.guests[x]? = some a → ∃ a', w'.guests[x]? = some a' ∧ a'.key = a.key

section
variable {cfg : Config} {w w' : World} {g : Nat} {gate gate' : Gate}

theorem World.Keeps.rank {x : Nat} {a : Arrival} (h : w.Keeps w' x) (ha : w.guests[x]? = some a) :
    w'.rank x = w.rank x := by
  obtain ⟨a', ha', hk⟩ := h a ha
  obtain ⟨hguest, _⟩ := Prod.mk.inj hk
  simp only [World.rank, ha, ha', hguest]

theorem Gate.Tidy.frame (h : gate.Tidy w) (hk : ∀ x, gate.Has x → w.Keeps w' x) :
    gate.Tidy w' := by
  have hrank : ∀ x ∈ gate.queue, w'.rank x = w.rank x := by
    intro x hx
    obtain ⟨a, ha, _⟩ := h.named x hx
    exact (hk x (.inl hx)).rank ha
  refine ⟨h.sorted.imp_of_mem fun hx hy hle => ?_, fun x hx => ?_, fun x hx => ?_, h.marks, h.booth⟩
  · rw [hrank _ hx, hrank _ hy]
    exact hle
  · obtain ⟨a, ha, hn⟩ := h.named x hx
    obtain ⟨a', ha', hkey⟩ := hk x (.inl hx) a ha
    obtain ⟨_, hrest⟩ := Prod.mk.inj hkey
    exact ⟨a', ha', (Prod.mk.inj hrest).2.trans hn⟩
  · obtain ⟨a, ha, ht⟩ := h.typed x hx
    obtain ⟨a', ha', hkey⟩ := hk x hx a ha
    obtain ⟨hguest, _⟩ := Prod.mk.inj hkey
    exact ⟨a', ha', by rw [hguest]; exact ht⟩

theorem Gate.Tidy.change (h : gate.Tidy w) (hid : gate'.gate_id = gate.gate_id)
    (htype : gate'.gate_type = gate.gate_type) (hq : gate'.queue.Sublist gate.queue)
    (hb : ∀ x ∈ gate'.worker.bundle, gate.Has x) (hm : ∀ x ∈ gate'.worker.marks, x ∈ gate'.queue)
    (hbooth : gate'.worker.free = true → gate'.currently_processing = none) : gate'.Tidy w := by
  refine ⟨h.sorted.sublist hq, fun x hx => ?_, fun x hx => ?_, hm, hbooth⟩
  · rw [hid]
    exact h.named x (hq.subset hx)
  · rw [htype]
    exact h.typed x (hx.elim (fun hx => .inl (hq.subset hx)) (hb x))

theorem Gate.Tidy.join (h : gate.Tidy w) {x : Nat} {a : Arrival} (ha : w.guests[x]? = some a)
    (hn : a.gate = gate.gate_id) (ht : a.guest.passport_type = .nonEU → gate.gate_type = .ALL) :
    Gate.Tidy w { gate with queue := (enqueue w.rank gate.queue x).1 } := by
  refine ⟨enqueue_sorted h.sorted x, fun y hy => ?_, fun y hy => ?_,
    fun y hy => mem_enqueue.mpr (.inr (h.marks y hy)), h.booth⟩
  · rcases mem_enqueue.mp hy with rfl | hy
    · exact ⟨a, ha, hn⟩
    · exact h.named y hy
  · rcases hy with hy | hy
    · rcases mem_enqueue.mp hy with rfl | hy
      · exact ⟨a, ha, ht⟩
      · exact h.typed y (.inl hy)
    · exact h.typed y (.inr hy)

/-! ## one step of a worker -/

theorem afterHeld_free (bundle : Option (List Nat)) :
    (World.afterHeld bundle).free = decide (bundle.getD [] = []) := by
  cases bundle <;> rfl

theorem Gate.Tidy.pick (h : gate.Tidy w) (hw : gate.worker = .ready) :
    Gate.Tidy w { gate with
      queue := (pickNext (w.reads cfg) gate.queue).queue
      currently_processing := match (pickNext (w.reads cfg) gate.queue).bundle with
        | some bundle => bundle.head?
        | none => gate.currently_processing
      worker := if (pickNext (w.reads cfg) gate.queue).held = [] then
          World.afterHeld (pickNext (w.reads cfg) gate.queue).bundle
        else .holding (pickNext (w.reads cfg) gate.queue).bundle
          (pickNext (w.reads cfg) gate.queue).held } := by
  have hcp : gate.currently_processing = none := h.booth (by rw [hw]; rfl)
  refine h.change rfl rfl (pickNext_sublist _ _) (fun x hx => ?_) (fun x hx => ?_) fun hf => ?_
  · replace hx : x ∈ Worker.bundle (if _ then _ else _) := hx
    rw [pick_bundle] at hx
    exact .inl ((pickNext_perm (w.reads cfg) gate.queue).mem_iff.mp (List.mem_append_left _ hx))
  · replace hx : x ∈ Worker.marks (if _ then _ else _) := hx
    split at hx
    · rw [afterHeld_marks] at hx
      exact absurd hx List.not_mem_nil
    · exact pickNext_held_mem _ hx
  · have hempty : (pickNext (w.reads cfg) gate.queue).bundle.getD [] = [] := by
      replace hf : Worker.free (if _ then _ else _) = true := hf
      split at hf
      · rw [afterHeld_free] at hf
        exact of_decide_eq_true hf
      · exact of_decide_eq_true hf
    show (match (pickNext (w.reads cfg) gate.queue).bundle with
      | some bundle => bundle.head?
      | none => gate.currently_processing) = none
    revert hempty
    cases (pickNext (w.reads cfg) gate.queue).bundle with
    | none => exact fun _ => hcp
    | some bundle =>
      rintro rfl
      rfl

theorem work_gate (h : w.work cfg g = some w') :
    ∃ gate gate', w.heap[g]? = some gate ∧ w'.heap = w.heap.set g gate' ∧ w'.gates = w.gates ∧
      gate'.gate_id = gate.gate_id ∧ gate'.gate_type = gate.gate_type ∧
      (gate.Tidy w → gate'.Tidy w) := by
  obtain ⟨gate, gate', w₁, hg, hs, rfl⟩ := work_step h
  -- the worker moves on with its gate as it is
  have move : ∀ worker : Worker, worker.bundle = gate.worker.bundle ∨ worker.bundle = [] →
      worker.marks = [] → (worker.free = true → gate.worker.free = true) →
      (gate.Tidy w → Gate.Tidy w { gate with worker := worker }) := by
    intro worker hb hm hf ht
    refine ht.change rfl rfl (.refl _) (fun x hx => ?_) (fun x hx => ?_) fun h => ht.booth (hf h)
    · replace hx : x ∈ worker.bundle := hx
      rcases hb with hb | hb
      · exact .inr (hb ▸ hx)
      · rw [hb] at hx
        exact absurd hx List.not_mem_nil
    · replace hx : x ∈ worker.marks := hx
      rw [hm] at hx
      exact absurd hx List.not_mem_nil
  cases hs with
  | head hw =>
    refine ⟨gate, _, hg, rfl, rfl, rfl, rfl, move _ (.inr ?_) ?_ fun _ => by rw [hw]; rfl⟩
    · split <;> rfl
    · split <;> rfl
  | ready hw => exact ⟨gate, _, hg, rfl, rfl, rfl, rfl, fun ht => ht.pick hw⟩
  | holding bundle held hw =>
    refine ⟨gate, _, hg, rfl, rfl, rfl, rfl, move _ (.inl ?_) (afterHeld_marks bundle) fun hf => ?_⟩
    · rw [hw, afterHeld_bundle]
      rfl
    · rw [afterHeld_free] at hf
      rw [hw]
      exact hf
  | marking bundle hw =>
    refine ⟨gate, _, hg, rfl, rfl, rfl, rfl, ?_⟩
    exact move _ (.inl (by rw [hw]; rfl)) rfl fun hf => by rw [hw]; exact hf
  | processing bundle hw =>
    refine ⟨gate, _, hg, rfl, rfl, rfl, rfl, ?_⟩
    exact move _ (.inl (by rw [hw]; rfl)) rfl fun hf => by rw [hw]; exact hf
  | recording bundle hw =>
    refine ⟨gate, _, hg, rfl, rfl, rfl, rfl, ?_⟩
    exact move _ (.inr rfl) rfl fun hf => absurd hf Bool.false_ne_true
  | publishing x left hw =>
    refine ⟨gate, _, hg, rfl, rfl, rfl, rfl, ?_⟩
    exact move _ (.inr rfl) rfl fun hf => absurd hf Bool.false_ne_true
  | done hw =>
    refine ⟨gate, _, hg, rfl, rfl, rfl, rfl, ?_⟩
    intro ht
    exact ht.change rfl rfl (.refl _) (fun x hx => absurd hx List.not_mem_nil)
      (fun x hx => absurd hx List.not_mem_nil) fun _ => rfl

theorem work_key (h : w.work cfg g = some w') :
    w'.guests.map Arrival.key = w.guests.map Arrival.key ∧
      w'.rows.map Arrival.key = w.rows.map Arrival.key := by
  obtain ⟨gate, gate', w₁, hg, hs, rfl⟩ := work_step h
  have hst : ∀ (st : Status) (ids : List Nat) (l : List Arrival),
      (updateAt ids (setStatus st) l).map Arrival.key = l.map Arrival.key :=
    fun st ids l => map_updateAt (f := setStatus st) (fun _ _ => rfl) ids l
  cases hs with
  | ready hw => exact ⟨(hst .processing _ _).trans (hst .held _ _), rfl⟩
  | holding bundle held hw => exact ⟨rfl, hst .held _ _⟩
  | marking bundle hw => exact ⟨rfl, hst .processing _ _⟩
  | processing bundle hw =>
    exact ⟨map_updateAt (f := World.finishGuest w.now) (fun _ _ => rfl) _ _, rfl⟩
  | recording bundle hw =>
    exact ⟨rfl, map_updateAt (f := World.finishRow w.guests) (fun _ _ => rfl) _ _⟩
  | _ => exact ⟨rfl, rfl⟩

theorem map_key_updateAt {f : Nat → Arrival → Arrival}
    {u : Guest × Int × String → Guest × Int × String} (hf : ∀ i a, (f i a).key = u a.key)
    (ids : List Nat) (l : List Arrival) : (updateAt ids f l).map Arrival.key =
      (l.map Arrival.key).mapIdx fun i k => if i ∈ ids then u k else k := by
  apply List.ext_getElem?
  intro i
  rw [List.getElem?_map, getElem?_updateAt, List.getElem?_mapIdx, List.getElem?_map, Option.map_map,
    Option.map_map]
  congr 1
  funext a
  show Arrival.key (if i ∈ ids then f i a else a) = if i ∈ ids then u a.key else a.key
  split
  · exact hf i a
  · rfl

theorem keeps_of_map (h : w'.guests.map Arrival.key = w.guests.map Arrival.key) (x : Nat) :
    w.Keeps w' x := by
  intro a ha
  have hx := congrArg (fun l => l[x]?) h
  rw [List.getElem?_map, List.getElem?_map, ha] at hx
  obtain ⟨a', ha', hk⟩ := Option.map_eq_some_iff.mp hx
  exact ⟨a', ha', hk⟩

/-- **The gates stay tidy whatever the workers do.** -/
theorem work_tidy (ht : ∀ gate ∈ w.heap, gate.Tidy w) (h : w.work cfg g = some w') :
    ∀ gate ∈ w'.heap, gate.Tidy w' := by
  obtain ⟨gate, gate', hg, hh, _, _, _, hgate⟩ := work_gate h
  intro u hu
  refine Gate.Tidy.frame (w := w) ?_ fun x _ => keeps_of_map (work_key h).1 x
  rw [hh] at hu
  rcases List.mem_or_eq_of_mem_set hu with hu | rfl
  · exact ht u hu
  · exact hgate (ht gate (List.mem_of_getElem? hg))

end

end Airport
