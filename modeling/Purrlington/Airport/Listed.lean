import Purrlington.Airport.Placed
import Purrlington.Airport.Frontend
import Purrlington.Airport.Restart
import Purrlington.Airport.Stranded
import Mathlib.Data.List.Induction

/-!
# Airport: the queue view shows everyone who has not cleared control

The booth of a gate has one guest, the bundle of its worker a whole family.

* `World.EveryoneShown`      what `/queue` lists, and the position of each guest at a gate;
* `World.Calm`               the state when no assignment and no closing is in progress, and the
                             workers wait;
* `Calm.everyoneShown_iff`   everyone is shown exactly when no bundle has two guests;
* `everyone_shown_iff`       so it is in every such state of a run.
-/

set_option linter.unusedSectionVars false

namespace Airport
open SM Ledger

/-! ## the view -/

/-- the ids of the gates under which the answer of `/queue` lists the guest, once for each entry -/
def listings (status : Json) (guest_id : String) : List (Option String) :=
  (status.elements "gates").flatMap fun gate =>
    ((gate.elements "queue").filter fun entry => entry.text "guest_id" = some guest_id).map
      fun _ => gate.text "gate_id"

/-- every unfinished arrival is listed once, under its gate, and nobody else is counted; whoever is
processed has position 0, and whoever waits the place in the queue -/
structure World.EveryoneShown (w : World) : Prop where
  listed : ∀ row ∈ w.rows, row.unfinished = true →
    listings (getAllGatesStatus w) row.guest.guest_id = [some row.gate]
  total : (getAllGatesStatus w).member "total_queued" =
    some (.int (w.rows.countP Arrival.unfinished))
  processing : ∀ gate ∈ w.heap, ∀ x ∈ gate.worker.bundle, ∃ row ∈ w.rows[x]?,
    w.guestPosition row.guest.guest_id gate.gate_id = some 0
  waiting : ∀ gate ∈ w.heap, ∀ i, ∀ x ∈ gate.queue[i]?, ∃ row ∈ w.rows[x]?,
    w.guestPosition row.guest.guest_id gate.gate_id = some (i + 1)

/-- the guest id of an arrival -/
def World.idOf (w : World) (x : Nat) : Option String := w.guests[x]?.map fun a => a.guest.guest_id

/-- the guests that are listed, with the names of their gates -/
def World.roll (w : World) : List (Nat × String) :=
  w.present.flatMap fun gate => gate.places.map fun p => (p.1, gate.gate_id)

section
variable {w : World}

theorem entry_text (p : Nat × Nat) : (w.entry p).text "guest_id" = w.idOf p.1 := by
  unfold World.entry World.idOf
  cases w.guests[p.1]? with
  | none => rfl
  | some a => rfl

theorem listings_eq (guest_id : String) : listings (getAllGatesStatus w) guest_id =
    (w.present.insertionSort fun a b => a.gate_id ≤ b.gate_id).flatMap fun gate =>
      ((gate.places.map fun p => (p.1, gate.gate_id)).filter fun q =>
        w.idOf q.1 = some guest_id).map fun q => some q.2 := by
  show ((w.present.insertionSort _).map w.gateStatus).flatMap _ = _
  rw [List.flatMap_map]
  congr 1
  funext gate
  show ((gate.places.map w.entry).filter _).map _ = _
  rw [List.filter_map, List.map_map, List.filter_map, List.map_map]
  congr 1
  apply List.filter_congr
  intro p _
  show decide ((w.entry p).text "guest_id" = some guest_id) = decide (w.idOf p.1 = some guest_id)
  rw [entry_text]

/-- the order of the gates aside, that is the part of the roll with the guest id -/
theorem listings_perm (guest_id : String) : (listings (getAllGatesStatus w) guest_id).Perm
    ((w.roll.filter fun q => w.idOf q.1 = some guest_id).map fun q => some q.2) := by
  rw [listings_eq, World.roll, List.filter_flatMap, List.map_flatMap]
  exact List.Perm.flatMap_right _ (List.perm_insertionSort _ _)

theorem length_flatMap_total {α β : Type} (f : α → List β) (l : List α) :
    (l.flatMap f).length = total (fun a => (f a).length) l := by
  induction l with
  | nil => rfl
  | cons a l ih => rw [List.flatMap_cons, List.length_append, ih, total_cons]

theorem total_queued : (getAllGatesStatus w).member "total_queued" = some (.int w.roll.length) := by
  rw [World.roll, length_flatMap_total]
  simp only [List.length_map]
  rfl

end

/-! ## keyed lists -/

theorem head?_toList_of_length_le {α : Type} {l : List α} (h : l.length ≤ 1) :
    l.head?.toList = l := by
  rw [← List.take_one, List.take_of_length_le h]

section
variable {α β : Type} [DecidableEq α]

theorem filter_key {l : List (α × β)} (hl : (l.map Prod.fst).Nodup) {a : α} {b : β}
    (h : (a, b) ∈ l) : (l.filter fun q => q.1 = a) = [(a, b)] := by
  induction l with
  | nil => exact absurd h List.not_mem_nil
  | cons q l ih =>
    obtain ⟨hq, hl⟩ := List.nodup_cons.mp hl
    rw [List.filter_cons]
    rcases List.mem_cons.mp h with rfl | h
    · have hnone : (l.filter fun q => q.1 = a) = [] := by
        apply List.filter_eq_nil_iff.mpr
        intro p hp e
        exact hq (List.mem_map.mpr ⟨p, hp, of_decide_eq_true e⟩)
      rw [if_pos (decide_eq_true rfl), hnone]
    · have hne : q.1 ≠ a := by
        rintro rfl
        exact hq (List.mem_map.mpr ⟨(q.1, b), h, rfl⟩)
      rw [if_neg (by simpa using hne)]
      exact ih hl h

theorem countP_eq_range {γ : Type} (p : γ → Bool) (l : List γ) :
    l.countP p = ((List.range l.length).filter fun i => l[i]?.any p).length := by
  induction l using List.reverseRecOn with
  | nil => rfl
  | append_singleton l a ih =>
    have hold : ((List.range l.length).filter fun i => (l ++ [a])[i]?.any p) =
        (List.range l.length).filter fun i => l[i]?.any p := by
      apply List.filter_congr
      intro i hi
      rw [List.getElem?_append_left (List.mem_range.mp hi)]
    rw [List.length_append, List.length_singleton, List.range_succ, List.filter_append, hold,
      List.countP_append, List.length_append, ih]
    congr 1
    show [a].countP p = ([l.length].filter fun i => (l ++ [a])[i]?.any p).length
    rw [List.filter_singleton, List.getElem?_concat_length]
    rw [List.countP_singleton]
    show (if p a = true then 1 else 0) = List.length (bif p a then [l.length] else [])
    cases p a <;> rfl

end

/-! ## a calm state -/

/-- the state when no assignment and no closing is in progress, and the workers wait -/
structure World.Calm (w : World) : Prop where
  catalogued : w.Catalogued
  booth : ∀ gate ∈ w.heap, gate.currently_processing = gate.worker.bundle.head?
  named : ∀ gate ∈ w.heap, ∀ x, gate.Has x → w.gateOf x = some gate.gate_id
  stock : ∀ x, w.stock x = if w.unfinished x then 1 else 0
  guests : w.guests.map Arrival.guest = w.rows.map Arrival.guest

/-- no two arrivals have one guest id -/
def World.DistinctIds (w : World) : Prop := (w.rows.map fun a => a.guest.guest_id).Nodup

instance (w : World) : Decidable w.DistinctIds :=
  inferInstanceAs (Decidable (w.rows.map fun a => a.guest.guest_id).Nodup)

/-- no bundle has two guests -/
def World.NoFamily (w : World) : Prop := ∀ gate ∈ w.heap, gate.worker.bundle.length ≤ 1

instance (w : World) : Decidable w.NoFamily :=
  inferInstanceAs (Decidable (∀ gate ∈ w.heap, gate.worker.bundle.length ≤ 1))

namespace World.Calm

section
variable {w : World} {g j : Nat} {gate u : Gate} {x y : Nat}

theorem has_iff : 0 < w.stock x ↔ ∃ gate ∈ w.heap, gate.Has x := by
  constructor
  · intro h
    obtain ⟨gate, hg, hpos⟩ := exists_of_total_pos h
    exact ⟨gate, hg, Gate.holds_pos.mp hpos⟩
  · rintro ⟨gate, hg, hx⟩
    obtain ⟨g, hg⟩ := List.mem_iff_getElem?.mp hg
    exact stock_pos hg hx

theorem unfinished_iff (h : w.Calm) : w.unfinished x = true ↔ ∃ gate ∈ w.heap, gate.Has x := by
  rw [← has_iff, h.stock]
  cases w.unfinished x with
  | true => exact ⟨fun _ => Nat.zero_lt_one, fun _ => rfl⟩
  | false => exact ⟨fun e => absurd e Bool.false_ne_true, fun e => absurd e (Nat.lt_irrefl 0)⟩

theorem stock_le (h : w.Calm) : w.stock x ≤ 1 := by
  rw [h.stock]
  split <;> omega

theorem nodup (h : w.Calm) (hg : gate ∈ w.heap) : (gate.worker.bundle ++ gate.queue).Nodup := by
  apply List.nodup_iff_count_le_one.mpr
  intro x
  have hle : gate.holds x ≤ w.stock x := le_total hg
  have := h.stock_le (x := x)
  rw [Gate.holds] at hle
  rw [List.count_append]
  omega

theorem unique (h : w.Calm) (hg : w.heap[g]? = some gate) (hj : w.heap[j]? = some u)
    (hx : gate.Has x) (hx' : u.Has x) : g = j :=
  holder_unique h.stock_le hg hj (Gate.holds_pos.mpr hx) (Gate.holds_pos.mpr hx')

theorem present (h : w.Calm) (hg : gate ∈ w.heap) (hx : gate.Has x) :
    gate ∈ w.present ∧ w.gateAt gate.gate_id = some gate := by
  obtain ⟨g, hg⟩ := List.mem_iff_getElem?.mp hg
  have hk := h.catalogued.listed g gate hg x hx
  refine ⟨List.mem_filterMap.mpr ⟨g, Dict.mem_values_iff.mpr ⟨_, hk⟩, hg⟩, ?_⟩
  rw [World.gateAt, hk]
  exact hg

theorem values_nodup (h : w.Calm) : w.gates.values.Nodup := by
  apply List.Nodup.map_on
  · rintro ⟨k, g⟩ hp ⟨k', g'⟩ hq e
    obtain rfl : g = g' := e
    obtain ⟨gate, hg, rfl⟩ := h.catalogued.keyed k g (Dict.mem_items_iff.mp hp)
    obtain ⟨gate', hg', rfl⟩ := h.catalogued.keyed k' g (Dict.mem_items_iff.mp hq)
    obtain rfl := Option.some.inj (hg.symm.trans hg')
    rfl
  · exact w.gates.nodup.of_map

theorem has_of_places (h : w.Calm) (hg : gate ∈ w.heap) (hx : x ∈ gate.places.map Prod.fst) :
    gate.Has x := by
  obtain ⟨p, hp, rfl⟩ := List.mem_map.mp hx
  rcases List.mem_append.mp hp with hp | hp
  · obtain ⟨y, hy, rfl⟩ := List.mem_map.mp hp
    refine .inr (List.mem_of_head? ?_)
    rw [← h.booth gate hg]
    exact Option.mem_toList.mp hy
  · exact .inl (List.fst_mem_of_mem_zipIdx hp)

theorem places_fst (h : w.Calm) (hg : gate ∈ w.heap) :
    gate.places.map Prod.fst = gate.worker.bundle.head?.toList ++ gate.queue := by
  rw [Gate.places, List.map_append, List.map_map, h.booth gate hg, List.zipIdx_map_fst]
  congr 1
  exact List.map_id _

theorem roll_fst : w.roll.map Prod.fst = w.present.flatMap fun gate => gate.places.map Prod.fst := by
  rw [World.roll, List.map_flatMap]
  congr 1
  funext gate
  rw [List.map_map]
  rfl

theorem roll_nodup (h : w.Calm) : (w.roll.map Prod.fst).Nodup := by
  rw [roll_fst, List.nodup_flatMap]
  constructor
  · intro gate hgate
    have hg := World.mem_heap_of_present hgate
    rw [h.places_fst hg]
    refine (h.nodup hg).sublist (.append_right ?_ _)
    cases gate.worker.bundle with
    | nil => exact .refl _
    | cons x bundle => exact List.singleton_sublist.mpr List.mem_cons_self
  · refine List.Pairwise.filterMap _ ?_ h.values_nodup
    intro g j hne gate hg u hj
    apply List.disjoint_left.mpr
    intro x hx hx'
    have hgate := h.has_of_places (List.mem_of_getElem? hg) hx
    have hu := h.has_of_places (List.mem_of_getElem? hj) hx'
    exact hne (h.unique hg hj hgate hu)

/-- without families everybody at a gate is listed there -/
theorem mem_places (h : w.Calm) (hf : w.NoFamily) (hg : gate ∈ w.heap) (hx : gate.Has x) :
    x ∈ gate.places.map Prod.fst := by
  rw [h.places_fst hg, head?_toList_of_length_le (hf gate hg)]
  exact List.mem_append.mpr hx.symm

/-- without families the listed guests are the unfinished arrivals -/
theorem mem_roll_iff (h : w.Calm) (hf : w.NoFamily) :
    x ∈ w.roll.map Prod.fst ↔ w.unfinished x = true := by
  rw [h.unfinished_iff, roll_fst, List.mem_flatMap]
  constructor
  · rintro ⟨gate, hgate, hx⟩
    have hg := World.mem_heap_of_present hgate
    exact ⟨gate, hg, h.has_of_places hg hx⟩
  · rintro ⟨gate, hg, hx⟩
    exact ⟨gate, (h.present hg hx).1, h.mem_places hf hg hx⟩

theorem roll_length (h : w.Calm) (hf : w.NoFamily) :
    w.roll.length = w.rows.countP Arrival.unfinished := by
  have hrow : ∀ x, w.rows[x]?.any Arrival.unfinished = w.unfinished x := by
    intro x
    rw [World.unfinished]
    cases w.rows[x]? <;> rfl
  have hperm : (w.roll.map Prod.fst).Perm ((List.range w.rows.length).filter w.unfinished) := by
    apply (List.perm_ext_iff_of_nodup h.roll_nodup (List.nodup_range.filter _)).mpr
    intro x
    rw [h.mem_roll_iff hf, List.mem_filter, List.mem_range]
    refine ⟨fun hx => ⟨?_, hx⟩, fun hx => hx.2⟩
    rw [← hrow, Option.any_eq_true] at hx
    obtain ⟨a, ha, _⟩ := hx
    exact (List.getElem?_eq_some_iff.mp ha).1
  rw [countP_eq_range, ← List.length_map (f := Prod.fst), hperm.length_eq]
  congr 1
  apply List.filter_congr
  intro x _
  exact (hrow x).symm

/-! ### the ids of the guests -/

theorem idOf_row (h : w.Calm) (x : Nat) : w.idOf x = w.rows[x]?.map fun a => a.guest.guest_id := by
  have hx := congrArg (fun l : List Guest => l[x]?.map Guest.guest_id) h.guests
  rw [List.getElem?_map, List.getElem?_map, Option.map_map, Option.map_map] at hx
  exact hx

theorem hasId_iff {guest_id : String} : w.hasId guest_id x = true ↔ w.idOf x = some guest_id := by
  unfold World.hasId World.idOf
  cases w.guests[x]? with
  | none => simp
  | some a => simp

theorem idOf_inj (h : w.Calm) (hids : w.DistinctIds) {guest_id : String}
    (hx : w.idOf x = some guest_id) (hy : w.idOf y = some guest_id) : x = y := by
  rw [h.idOf_row, ← List.getElem?_map] at hx hy
  exact (List.getElem?_inj (List.getElem?_eq_some_iff.mp hx).1 hids).mp (hx.trans hy.symm)

theorem row_of_has (h : w.Calm) (hg : gate ∈ w.heap) (hx : gate.Has x) :
    ∃ row, w.rows[x]? = some row ∧ row.gate = gate.gate_id ∧
      w.idOf x = some row.guest.guest_id := by
  obtain ⟨row, hrow, hgate⟩ := Option.map_eq_some_iff.mp (h.named gate hg x hx)
  refine ⟨row, hrow, hgate, ?_⟩
  rw [h.idOf_row, hrow]
  rfl

/-! ### what is shown -/

theorem listings_row (h : w.Calm) (hf : w.NoFamily) (hids : w.DistinctIds) {row : Arrival}
    (hrow : row ∈ w.rows) (hu : row.unfinished = true) :
    listings (getAllGatesStatus w) row.guest.guest_id = [some row.gate] := by
  obtain ⟨x, hx⟩ := List.mem_iff_getElem?.mp hrow
  have hun : w.unfinished x = true := by
    rw [World.unfinished, hx]
    exact hu
  obtain ⟨gate, hg, hhas⟩ := h.unfinished_iff.mp hun
  obtain ⟨row', hrow', hgate, hid⟩ := h.row_of_has hg hhas
  obtain rfl := Option.some.inj (hx.symm.trans hrow')
  have hmem : (x, row.gate) ∈ w.roll := by
    obtain ⟨p, hp, hpx⟩ := List.mem_map.mp (h.mem_places hf hg hhas)
    refine List.mem_flatMap.mpr ⟨gate, (h.present hg hhas).1, List.mem_map.mpr ⟨p, hp, ?_⟩⟩
    rw [hpx, hgate]
  have hfilter : (w.roll.filter fun q => w.idOf q.1 = some row.guest.guest_id) =
      w.roll.filter fun q => q.1 = x := by
    apply List.filter_congr
    intro q _
    refine decide_eq_decide.mpr ⟨fun hq => h.idOf_inj hids hq hid, ?_⟩
    rintro rfl
    exact hid
  have hperm := listings_perm (w := w) row.guest.guest_id
  rw [hfilter, filter_key h.roll_nodup hmem] at hperm
  exact List.perm_singleton.mp hperm

theorem position_processing (h : w.Calm) (hf : w.NoFamily) (hg : gate ∈ w.heap)
    (hx : x ∈ gate.worker.bundle) : ∃ row ∈ w.rows[x]?,
    w.guestPosition row.guest.guest_id gate.gate_id = some 0 := by
  obtain ⟨row, hrow, _, hid⟩ := h.row_of_has hg (.inr hx)
  refine ⟨row, hrow, ?_⟩
  have hcp : gate.currently_processing = some x := by
    rw [← head?_toList_of_length_le (hf gate hg)] at hx
    rw [h.booth gate hg]
    exact Option.mem_toList.mp hx
  rw [World.guestPosition, (h.present hg (.inr hx)).2, Option.bind_some, hcp, Option.any_some,
    hasId_iff.mpr hid, if_pos rfl]

theorem position_waiting (h : w.Calm) (hids : w.DistinctIds) (hg : gate ∈ w.heap) {i : Nat}
    (hx : gate.queue[i]? = some x) : ∃ row ∈ w.rows[x]?,
    w.guestPosition row.guest.guest_id gate.gate_id = some (i + 1) := by
  have hmem := List.mem_of_getElem? hx
  obtain ⟨row, hrow, _, hid⟩ := h.row_of_has hg (.inl hmem)
  refine ⟨row, hrow, ?_⟩
  obtain ⟨_, hq, hdisj⟩ := List.nodup_append.mp (h.nodup hg)
  -- the guest in the booth is another one
  have hcp : gate.currently_processing.any (w.hasId row.guest.guest_id) = false := by
    rw [h.booth gate hg, Option.any_eq_false]
    intro y hy
    rw [Bool.eq_false_iff]
    intro hid'
    have hyx : y = x := h.idOf_inj hids (hasId_iff.mp hid') hid
    exact hdisj y (List.mem_of_head? hy) x hmem hyx
  obtain ⟨hi, hxi⟩ := List.getElem?_eq_some_iff.mp hx
  have hfind : gate.queue.findIdx? (w.hasId row.guest.guest_id) = some i := by
    refine List.findIdx?_eq_some_iff_getElem.mpr ⟨hi, ?_, fun j hj hid' => ?_⟩
    · rw [hxi]
      exact hasId_iff.mpr hid
    · have hjx : gate.queue[j] = x := h.idOf_inj hids (hasId_iff.mp hid') hid
      have hij : j = i := hq.getElem_inj_iff.mp (hjx.trans hxi.symm)
      omega
  rw [World.guestPosition, (h.present hg (.inl hmem)).2, Option.bind_some, hcp, hfind]
  rfl

/-- a second guest of a bundle has no position -/
theorem noFamily (h : w.Calm) (hids : w.DistinctIds)
    (hshown : ∀ gate ∈ w.heap, ∀ x ∈ gate.worker.bundle, ∃ row ∈ w.rows[x]?,
      w.guestPosition row.guest.guest_id gate.gate_id = some 0) : w.NoFamily := by
  intro gate hg
  by_contra hlen
  match hb : gate.worker.bundle with
  | [] => exact hlen (by rw [hb]; exact Nat.zero_le 1)
  | [y] => exact hlen (by rw [hb]; exact Nat.le_refl 1)
  | y :: z :: bundle =>
    have hz : z ∈ gate.worker.bundle := by
      rw [hb]
      exact List.mem_cons_of_mem _ List.mem_cons_self
    obtain ⟨row, hrow, hpos⟩ := hshown gate hg z hz
    obtain ⟨row', hrow', _, hid⟩ := h.row_of_has hg (.inr hz)
    obtain rfl := Option.some.inj (hrow'.symm.trans hrow)
    have hcp : gate.currently_processing = some y := by
      rw [h.booth gate hg, hb]
      rfl
    have hne : w.hasId row'.guest.guest_id y = false := by
      rw [Bool.eq_false_iff]
      intro hid'
      have hyz : y = z := h.idOf_inj hids (hasId_iff.mp hid') hid
      have hnd := (List.nodup_append.mp (h.nodup hg)).1
      rw [hb] at hnd
      exact (List.nodup_cons.mp hnd).1 (hyz ▸ List.mem_cons_self)
    rw [World.guestPosition, (h.present hg (.inr hz)).2, Option.bind_some, hcp, Option.any_some,
      hne] at hpos
    obtain ⟨i, _, e⟩ := Option.map_eq_some_iff.mp hpos
    exact absurd e (Nat.succ_ne_zero i)

/-- **In a calm state everyone is shown exactly when no bundle has two guests.** -/
theorem everyoneShown_iff (h : w.Calm) (hids : w.DistinctIds) : w.EveryoneShown ↔ w.NoFamily := by
  constructor
  · intro hs
    exact h.noFamily hids hs.processing
  · intro hf
    refine ⟨fun row hrow hu => h.listings_row hf hids hrow hu, ?_,
      fun gate hg x hx => h.position_processing hf hg hx,
      fun gate hg i x hx => h.position_waiting hids hg hx⟩
    rw [total_queued, h.roll_length hf]

end
end World.Calm

/-! ## runs -/

/-- the worker is between two picks, waits out its processing delay, or has ended -/
def Worker.resting : Worker → Bool
  | .head | .ready | .processing _ | .stopped => true
  | .holding _ _ | .marking _ | .recording _ | .publishing _ => false

theorem unfinished_eq (a : Arrival) : a.unfinished = decide (a.status ≠ .processed) := by
  unfold Arrival.unfinished
  cases a.status <;> rfl

/-- when all assignments and closings have returned, the gates hold the unfinished arrivals -/
theorem Once.stock_unfinished {s : State} (h : Once s)
    (hquiet : ∀ call ∈ s.threads, call.inProgress = false) (x : Nat) :
    s.shared.stock x = if s.shared.unfinished x then 1 else 0 := by
  have hpending : pendingIn s.threads x = 0 := total_eq_zero fun call hc => by
    rw [pending_of_returned (hquiet call hc)]
    rfl
  have hone := h.one x
  replace hone : s.shared.stock x + pendingIn s.threads x + _ = _ := hone
  rw [hpending, Nat.add_zero] at hone
  have hdone := h.processed x
  unfold World.unfinished
  rw [World.statusOf] at hdone
  rcases ha : s.shared.rows[x]? with _ | a
  · rw [if_neg (Nat.not_lt.mpr (List.getElem?_eq_none_iff.mp ha))] at hone
    exact Nat.eq_zero_of_add_eq_zero_right hone
  · rw [if_pos (List.getElem?_eq_some_iff.mp ha).1] at hone
    rw [ha] at hdone
    replace hdone : some a.status = some .processed ↔ _ := hdone
    show s.shared.stock x = if a.unfinished then 1 else 0
    rw [unfinished_eq]
    by_cases hst : a.status = .processed
    · have hpos := List.count_pos_iff.mpr (hdone.mp (congrArg some hst))
      rw [if_neg (by simpa using hst)]
      omega
    · have hz := List.count_eq_zero.mpr fun hc => hst (Option.some.inj (hdone.mpr hc))
      rw [if_pos (decide_eq_true hst)]
      omega

theorem Placed.calm {s : State} (h : Placed s) (ho : Once s)
    (hquiet : ∀ call ∈ s.threads, call.inProgress = false)
    (hrest : ∀ gate ∈ s.shared.heap, gate.worker.resting = true) : s.shared.Calm := by
  refine ⟨h.catalogued, fun gate hg => ?_, fun gate hg x hx => ?_, ho.stock_unfinished hquiet,
    h.guests⟩
  · refine (h.booth gate hg).resolve_left ?_
    rintro ⟨left, e⟩
    have hr := hrest gate hg
    rw [e] at hr
    exact absurd hr nofun
  · obtain ⟨g, hg⟩ := List.mem_iff_getElem?.mp hg
    refine (h.named g gate hg x hx).resolve_right ?_
    rintro ⟨call, hc, hr⟩
    have hq := hquiet call hc
    cases call with
    | record k dest y left => exact absurd hq nofun
    | _ => exact absurd hr nofun

/-- **The queue view shows everyone who has not cleared control** exactly when no bundle has two
guests: in every state of a run that takes nobody out of place, in which no assignment and no closing
is in progress, the workers wait and the guest ids differ. -/
theorem everyone_shown_iff (cfg : Config) (acts : Acts) (s : State)
    (hrun : (airport cfg).machine.Runs InPlace (State.init cfg) acts s)
    (hquiet : ∀ call ∈ s.threads, call.inProgress = false)
    (hrest : ∀ gate ∈ s.shared.heap, gate.worker.resting = true)
    (hids : s.shared.DistinctIds) : s.shared.EveryoneShown ↔ s.shared.NoFamily := by
  obtain ⟨ho, hp⟩ := run_placed hrun
  exact (hp.calm ho hquiet hrest).everyoneShown_iff hids

/-- one guest is being processed at EU-1, and another one comes there from EU-2, which is closed -/
def strangers : Acts :=
  [.spawn (.assign ionescu), .step 0 (), .step 0 (), .step 0 (),
   .spawn (.assign popescu), .step 1 (), .step 1 (), .step 1 (),
   .env (.work 0), .env (.work 0), .env (.work 0)] ++
  (.spawn (.close "EU-2") :: List.replicate 8 (.step 2 ()))

theorem everyone_shown_strangers : ∃ s,
    (airport threeGates).machine.run (State.init threeGates) strangers = some s ∧
    s.shared.rows.map (fun a => (a.status, a.gate)) =
      [(.processing, "EU-1"), (.queued, "EU-1")] ∧ s.shared.EveryoneShown :=
  ⟨_, rfl, rfl, (everyone_shown_iff threeGates strangers _ (Machine.runs_iff_runG.mpr rfl)
    (by decide) (by decide) (by decide)).mpr (by decide)⟩

/-- **A mother and her child are processed together.**  The child is in the booth and the mother is
not shown at all, although her row is being processed at EU-1. -/
theorem family_hidden : ∃ s,
    (airport ⟨id, 1, 1, 40, 60⟩).machine.run (State.init ⟨id, 1, 1, 40, 60⟩) childWithMother =
      some s ∧
    (∀ call ∈ s.threads, call.inProgress = false) ∧
    (∀ gate ∈ s.shared.heap, gate.worker.resting = true) ∧ s.shared.DistinctIds ∧
    s.shared.rows.map (fun a => (a.guest.guest_id, a.status, a.gate)) =
      [("guest-1", .processing, "EU-1"), ("guest-3", .queued, "ALL-1"),
        ("guest-2", .processing, "EU-1")] ∧
    listings (getAllGatesStatus s.shared) "guest-1" = [] ∧
    s.shared.guestPosition "guest-1" "EU-1" = none ∧ s.shared.shown = 2 ∧
    ¬ s.shared.EveryoneShown :=
  ⟨_, rfl, by decide, by decide, by decide, rfl, by decide +kernel, by decide +kernel, rfl,
    fun h => absurd (h.listed _ List.mem_cons_self rfl) (by decide +kernel)⟩

end Airport
