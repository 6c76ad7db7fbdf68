import Purrlington.Airport.Frontend

/-!
# Airport: who has cleared control

Other services read the status of a guest's newest row.

* `World.Cleared`        a gate worker has completed an arrival of the guest;
* `World.Precedes`       the table only grows, a row keeps its guest, and completions stay;
* `Vouching`             a row that is called processed is one of a completed arrival;
* `cleared_of_row`       so whoever is shown as processed has cleared control.
-/

set_option linter.unusedSectionVars false

namespace Airport
open SM

/-- a gate worker has completed an arrival of the guest -/
def World.Cleared (w : World) (guest_id : String) : Prop :=
  ∃ x ∈ w.completions, ∃ a, w.rows[x]? = some a ∧ a.guest.guest_id = guest_id

/-! ## what a step leaves -/

/-- the guests of the rows stay, and so do the completions -/
structure World.Precedes (w w' : World) : Prop where
  rows : w.rows.map Arrival.guest <+: w'.rows.map Arrival.guest
  completions : w.completions <+: w'.completions

section
variable {cfg : Config} {w w' : World}

theorem World.Precedes.guest (h : w.Precedes w') {x : Nat} {a : Arrival} (ha : w.rows[x]? = some a) :
    ∃ a', w'.rows[x]? = some a' ∧ a'.guest = a.guest := by
  have hx : (w.rows.map Arrival.guest)[x]? = some a.guest := by
    rw [List.getElem?_map, ha]
    rfl
  have hx' := List.prefix_iff_getElem?.mp h.rows x (List.getElem?_eq_some_iff.mp hx).1
  rw [(List.getElem?_eq_some_iff.mp hx).2, List.getElem?_map] at hx'
  exact Option.map_eq_some_iff.mp hx'

theorem World.Cleared.of_precedes {guest_id : String} (h : w.Cleared guest_id) (hl : w.Precedes w') :
    w'.Cleared guest_id := by
  obtain ⟨x, hx, a, ha, hid⟩ := h
  obtain ⟨a', ha', hguest⟩ := hl.guest ha
  exact ⟨x, hl.completions.subset hx, a', ha', by rw [hguest]; exact hid⟩

theorem Works.precedes {g : Nat} {gate : Gate} (h : Works cfg w g gate w') : w.Precedes w' := by
  have same : ∀ {ids : List Nat} {f : Nat → Arrival → Arrival}, (∀ i a, (f i a).guest = a.guest) →
      w.rows.map Arrival.guest <+: (updateAt ids f w.rows).map Arrival.guest := by
    intro ids f hf
    exact ⟨[], (List.append_nil _).trans (map_updateAt hf ids w.rows).symm⟩
  cases h with
  | idle => exact ⟨List.prefix_rfl, List.prefix_rfl⟩
  | pick => exact ⟨List.prefix_rfl, List.prefix_rfl⟩
  | hold bundle held hw => exact ⟨same fun _ _ => rfl, List.prefix_rfl⟩
  | mark bundle hw => exact ⟨same fun _ _ => rfl, List.prefix_rfl⟩
  | complete bundle hw => exact ⟨same fun _ _ => rfl, List.prefix_append _ _⟩
  | publish x left hw => exact ⟨List.prefix_rfl, List.prefix_rfl⟩

theorem Moves.precedes {call call' : Call} (h : Moves cfg w call w' call') : w.Precedes w' := by
  cases h with
  | insert guest g t gate =>
    refine ⟨?_, List.prefix_rfl⟩
    show _ <+: (w.rows ++ [_]).map Arrival.guest
    rw [List.map_append]
    exact List.prefix_append _ _
  | record k dest x left gate_id =>
    have hmap := map_updateAt (q := Arrival.guest)
      (f := fun _ a => { a with gate := gate_id, status := .queued }) (fun _ _ => rfl) [x] w.rows
    exact ⟨⟨[], (List.append_nil _).trans hmap.symm⟩, List.prefix_rfl⟩
  | _ => exact ⟨List.prefix_rfl, List.prefix_rfl⟩

end

section
variable {cfg : Config} {s s' : State} {act : PoolAct Api Env Unit}

theorem machine_precedes (h : (airport cfg).machine s act = some s') : s.shared.Precedes s'.shared := by
  cases act with
  | spawn r =>
    obtain rfl := Option.some.inj h
    exact ⟨List.prefix_rfl, List.prefix_rfl⟩
  | env e =>
    obtain ⟨w', he, rfl⟩ := Sys.machine_env h
    cases e with
    | work g =>
      obtain ⟨gate, _, hw⟩ := work_works he
      exact hw.precedes
    | tick d =>
      obtain rfl := Option.some.inj he
      exact ⟨List.prefix_rfl, List.prefix_rfl⟩
  | step i a =>
    obtain ⟨call, w', call', _, hs, rfl⟩ := Sys.machine_step h
    exact (step_moves hs).precedes

/-! ## the processed rows -/

/-- a row that is called processed is one of a completed arrival -/
def World.Vouching (w : World) : Prop :=
  ∀ x, w.statusOf x = some .processed → x ∈ w.completions

theorem Works.vouching {w w' : World} {g : Nat} {gate : Gate} (h : w.Vouching)
    (hw : Works cfg w g gate w') : w'.Vouching := by
  -- a write of another status to some rows
  have other : ∀ {ids : List Nat} {st : Status} {w₁ : World}, st ≠ .processed →
      w₁.rows = updateAt ids (setStatus st) w.rows → w₁.completions = w.completions →
      w₁.Vouching := by
    intro ids st w₁ hst hr hc x hx
    rw [statusOf_updateAt hr (setStatus_status st)] at hx
    rw [hc]
    split at hx
    · obtain ⟨_, _, e⟩ := Option.map_eq_some_iff.mp hx
      exact absurd e hst
    · exact h x hx
  cases hw with
  | idle => exact h
  | pick => exact h
  | hold bundle held hw => exact other (by decide) rfl rfl
  | mark bundle hw => exact other (by decide) rfl rfl
  | complete bundle hw =>
    intro x hx
    rw [statusOf_updateAt rfl (finishRow_status w.guests)] at hx
    split at hx
    · rename_i hmem
      exact List.mem_append_right _ hmem
    · exact List.mem_append_left _ (h x hx)
  | publish x left hw => exact h

theorem Moves.vouching {w w' : World} {call call' : Call} (h : w.Vouching)
    (hm : Moves cfg w call w' call') : w'.Vouching := by
  intro x hx
  rw [hm.completions.1]
  rcases hm.statusOf x with he | ⟨_, hne⟩ | ⟨_, _, hq⟩
  · exact h x (he ▸ hx)
  · exact absurd hx hne
  · rw [hq] at hx
    exact absurd hx (by simp)

theorem vouching_step (h : s.shared.Vouching) (hs : (airport cfg).machine s act = some s') :
    s'.shared.Vouching := by
  cases act with
  | spawn r =>
    obtain rfl := Option.some.inj hs
    exact h
  | env e =>
    obtain ⟨w', he, rfl⟩ := Sys.machine_env hs
    cases e with
    | work g =>
      obtain ⟨gate, _, hw⟩ := work_works he
      exact hw.vouching h
    | tick d =>
      obtain rfl := Option.some.inj he
      exact h
  | step i a =>
    obtain ⟨call, w', call', _, hst, rfl⟩ := Sys.machine_step hs
    exact (step_moves hst).vouching h

end

theorem arrivalResponse_status (w : World) (a : Arrival) :
    (arrivalResponse w a).text "status" = some a.status.text := rfl

theorem cleared_of_row {w : World} (h : w.Vouching) {x : Nat} {a : Arrival}
    (ha : w.rows[x]? = some a) (hst : (arrivalResponse w a).text "status" = some "processed") :
    w.Cleared a.guest.guest_id := by
  have hp : a.status = .processed := by
    rw [arrivalResponse_status] at hst
    cases hs : a.status with
    | processed => rfl
    | queued => rw [hs] at hst; exact absurd hst (by decide)
    | processing => rw [hs] at hst; exact absurd hst (by decide)
    | held => rw [hs] at hst; exact absurd hst (by decide)
  exact ⟨x, h x (by rw [World.statusOf, ha, Option.map_some, hp]), a, ha, rfl⟩

end Airport
