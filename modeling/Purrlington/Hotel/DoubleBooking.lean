import Purrlington.Hotel.Reservation
import Mathlib.Data.Fintype.EquivFin

/-!
# Hotel: double booking

`create` counts the overlapping reservations of a room in one statement and inserts its own in a
later one, and nothing in the schema excludes two overlapping rows.

* `NoDoubleBooking`   no two CONFIRMED reservations of one room overlap;
* `Unraced`           a create inserts only while no other create that has found the same room
                      free for intersecting days has its own insert still to come;
* `unraced_no_double_booking`   the law holds in every run of such inserts, and any other insert
                      is one step away from breaking it;
* `double_booked`     a run that breaks it.
-/

set_option linter.unusedSectionVars false

namespace Hotel
open SM

/-- the service's own overlap test, between two rows -/
def Reservation.overlaps (a b : Reservation) : Prop :=
  a.check_in_day ≤ b.check_out_day ∧ a.check_out_day ≥ b.check_in_day

/-- two CONFIRMED reservations of one room on intersecting days -/
def Reservation.Conflicts (a b : Reservation) : Prop :=
  a.status = .CONFIRMED ∧ b.status = .CONFIRMED ∧ a.room_id = b.room_id ∧ a.overlaps b

theorem Reservation.Conflicts.symm {a b : Reservation} (h : a.Conflicts b) : b.Conflicts a := by
  obtain ⟨ha, hb, hroom, h1, h2⟩ := h
  exact ⟨hb, ha, hroom.symm, h2, h1⟩

def NoDoubleBooking (db : Db) : Prop :=
  ∀ a ∈ db.reservations, ∀ b ∈ db.reservations, a.id ≠ b.id → ¬ a.Conflicts b

/-- the row a request would insert conflicts with those its overlap count counts -/
theorem newRow_conflicts {uuid : String} {dto : CreateReservationDto} {room : Room}
    {r : Reservation} : (Db.newRow uuid dto room).Conflicts r ↔ Db.overlapping room.id dto r = true := by
  rw [Db.overlapping, decide_eq_true_iff]
  constructor
  · rintro ⟨_, hst, hroom, h1, h2⟩
    exact ⟨hroom.symm, hst, h2, h1⟩
  · rintro ⟨hroom, hst, h1, h2⟩
    exact ⟨rfl, hst, hroom.symm, h2, h1⟩

theorem count_eq_zero {db : Db} {roomId : String} {dto : CreateReservationDto} :
    db.count roomId dto = 0 ↔ ∀ r ∈ db.reservations, Db.overlapping roomId dto r = false := by
  rw [Db.count, List.countP_eq_zero]
  exact forall₂_congr fun r _ => by rw [Bool.not_eq_true]

/-! ## the condition -/

/-- the request and the room of a create whose next statement inserts a row -/
def State.inserting (s : State) (i : Nat) : Option (CreateReservationDto × Room) :=
  match s.threads[i]? with
  | some ⟨.create dto, .insert room⟩ =>
    if dto.Storable then some (dto, room) else none
  | _ => none

theorem State.inserting_eq_some {s : State} {i : Nat} {p : CreateReservationDto × Room} :
    s.inserting i = some p ↔
      s.threads[i]? = some ⟨.create p.1, .insert p.2⟩ ∧ p.1.Storable := by
  unfold State.inserting
  constructor
  · intro h
    split at h
    · rename_i dto room ht
      split at h
      · rename_i hst
        obtain rfl := Option.some.inj h
        exact ⟨ht, hst⟩
      · exact absurd h (by simp)
    · exact absurd h (by simp)
  · rintro ⟨ht, hst⟩
    rw [ht]
    exact if_pos hst

/-- two requested stays share a day, by the overlap test -/
def CreateReservationDto.intersects (d e : CreateReservationDto) : Prop :=
  d.check_in_day ≤ e.check_out_day ∧ e.check_in_day ≤ d.check_out_day

instance (d e : CreateReservationDto) : Decidable (d.intersects e) :=
  inferInstanceAs (Decidable (_ ∧ _))

/-- no other create has found the same room free for intersecting days and is yet to insert -/
def Unraced (s : State) : Act → Prop
  | .insert i _ => ∀ p ∈ s.inserting i, ∀ j < s.threads.length, j ≠ i → ∀ q ∈ s.inserting j,
      q.2.id = p.2.id → ¬ p.1.intersects q.1
  | .arrive _ => True
  | .go _ => True
  | .airport _ _ => True

instance : ∀ s act, Decidable (Unraced s act)
  | s, .insert i _ => inferInstanceAs (Decidable (∀ p ∈ s.inserting i, ∀ j < s.threads.length,
      j ≠ i → ∀ q ∈ s.inserting j, q.2.id = p.2.id → ¬ p.1.intersects q.1))
  | _, .arrive _ => inferInstanceAs (Decidable True)
  | _, .go _ => inferInstanceAs (Decidable True)
  | _, .airport _ _ => inferInstanceAs (Decidable True)

/-! ## the invariant -/

/-- a create that is about to insert has no conflicting row in the table -/
def Thread.Clear (db : Db) : Thread → Prop
  | ⟨.create dto, .insert room⟩ => dto.Storable →
      ∀ r ∈ db.reservations, Db.overlapping room.id dto r = false
  | _ => True

structure Disjoint (s : State) : Prop where
  rows : NoDoubleBooking s.db
  clear : ∀ (i : Nat) (t : Thread), s.threads[i]? = some t → t.Clear s.db

theorem nextRoom_clear (db : Db) (dto : CreateReservationDto) (rooms : List Room) :
    Thread.Clear db ⟨.create dto, nextRoom dto rooms⟩ := by
  obtain ⟨_, e⟩ | ⟨_, _, _, _, _, _, e⟩ := nextRoom_cases dto rooms
  · rw [e]
    trivial
  · rw [e]
    trivial

theorem Call.entry_clear (db : Db) (call : Call) : Thread.Clear db ⟨call, call.entry⟩ := by
  cases call with
  | create dto => rw [Call.entry]; split <;> trivial
  | cancel id => trivial

theorem Moves.clear {db : Db} {call : Call} {pc pc' : Pc} (h : Moves db call pc pc') :
    Thread.Clear db ⟨call, pc'⟩ := by
  cases h with
  | finish call pc r => cases call <;> trivial
  | cleared dto => trivial
  | search dto pc rooms => exact nextRoom_clear db dto rooms
  | free dto room rest hc => exact fun _ => count_eq_zero.mp hc
  | found id => trivial

/-- rows that are only ever taken out of the running leave a clear room clear -/
theorem Thread.Clear.mono {db db' : Db} {t : Thread} (h : t.Clear db)
    (hsub : ∀ r' ∈ db'.reservations, ∀ roomId dto, Db.overlapping roomId dto r' = true →
      ∃ r ∈ db.reservations, Db.overlapping roomId dto r = true) : t.Clear db' := by
  obtain ⟨call, pc⟩ := t
  cases call with
  | cancel id => trivial
  | create dto =>
    cases pc with
    | insert room =>
      intro hst r' hr'
      rw [Bool.eq_false_iff]
      intro hov
      obtain ⟨r, hr, ho⟩ := hsub r' hr' room.id dto hov
      rw [h hst r hr] at ho
      exact Bool.false_ne_true ho
    | _ => trivial

theorem overlapping_cancelRow {id roomId : String} {dto : CreateReservationDto} {r : Reservation}
    (h : Db.overlapping roomId dto (Db.cancelRow id r) = true) :
    Db.overlapping roomId dto r = true := by
  rw [Db.overlapping, decide_eq_true_iff] at h ⊢
  unfold Db.cancelRow at h
  split at h
  · exact absurd h.2.1 (by simp)
  · exact h

theorem NoDoubleBooking.cancel {db : Db} (h : NoDoubleBooking db) (id : String) :
    NoDoubleBooking (db.cancel id) := by
  intro a ha b hb hne hc
  obtain ⟨a', ha', rfl⟩ := List.mem_map.mp ha
  obtain ⟨b', hb', rfl⟩ := List.mem_map.mp hb
  rw [Db.cancelRow_id, Db.cancelRow_id] at hne
  have hkeep : ∀ r : Reservation, (Db.cancelRow id r).status = .CONFIRMED → Db.cancelRow id r = r := by
    intro r hr
    unfold Db.cancelRow at hr ⊢
    split at hr
    · exact absurd hr (by simp)
    · rename_i hid; rw [if_neg hid]
  rw [hkeep a' hc.1, hkeep b' hc.2.1] at hc
  exact h a' ha' b' hb' hne hc

theorem NoDoubleBooking.create {db : Db} (h : NoDoubleBooking db) (r : Reservation)
    (hid : r.id ∉ db.reservations.map Reservation.id)
    (hfits : r.fits = true) (hr : ∀ r' ∈ db.reservations, ¬ r.Conflicts r') :
    NoDoubleBooking (db.create r hid hfits) := by
  intro a ha b hb hne hc
  have hsplit : ∀ x ∈ (db.create r hid hfits).reservations, x ∈ db.reservations ∨ x = r := by
    intro x hx
    rcases List.mem_append.mp hx with h1 | h1
    · exact Or.inl h1
    · exact Or.inr (List.mem_singleton.mp h1)
  rcases hsplit a ha with ha' | rfl
  · rcases hsplit b hb with hb' | rfl
    · exact h a ha' b hb' hne hc
    · exact hr a ha' hc.symm
  · rcases hsplit b hb with hb' | rfl
    · exact hr b hb' hc
    · exact hne rfl

theorem Disjoint.insert {s : State} {i : Nat} {dto : CreateReservationDto} {room : Room}
    {uuid : String} (h : Disjoint s) (hu : Unraced s (.insert i uuid))
    (ht : s.threads[i]? = some ⟨.create dto, .insert room⟩)
    (hst : dto.Storable) (hid : uuid ∉ s.db.reservations.map Reservation.id) (pc : Pc)
    (hpc : ∀ db, Thread.Clear db ⟨.create dto, pc⟩) :
    Disjoint { s.goto i (.create dto) pc with
      db := s.db.create (Db.newRow uuid dto room) hid (Db.newRow_fits hst) } := by
  have hclear := h.clear i _ ht hst
  have hi : s.inserting i = some (dto, room) := State.inserting_eq_some.mpr ⟨ht, hst⟩
  refine ⟨?_, forall_set ?_ (hpc _)⟩
  · apply h.rows.create (Db.newRow uuid dto room) hid (Db.newRow_fits hst)
    intro r hr hc
    have := hclear r hr
    rw [newRow_conflicts.mp hc] at this
    exact Bool.false_ne_true this.symm
  · -- another create about to insert: the new row is not in its way
    intro j t hj htj
    have hold := h.clear j t htj
    obtain ⟨call, pc'⟩ := t
    cases call with
    | cancel id => trivial
    | create dto' =>
      cases pc' with
      | insert room' =>
        intro hst' r hr
        rcases List.mem_append.mp hr with hr | hr
        · exact hold hst' r hr
        · rw [List.mem_singleton] at hr
          subst hr
          rw [Bool.eq_false_iff]
          intro hov
          rw [Db.overlapping, decide_eq_true_iff] at hov
          obtain ⟨hroom, _, h1, h2⟩ := hov
          have hjlt : j < s.threads.length := (List.getElem?_eq_some_iff.mp htj).1
          exact hu (dto, room) hi j hjlt hj (dto', room')
            (State.inserting_eq_some.mpr ⟨htj, hst'⟩) hroom.symm ⟨h1, h2⟩
      | _ => trivial

theorem Disjoint.step {s s' : State} {act : Act} (h : Disjoint s) (hu : Unraced s act)
    (hs : machine s act = some s') : Disjoint s' := by
  cases machine_eff hs with
  | arrive call => exact ⟨h.rows, forall_snoc h.clear (call.entry_clear s.db)⟩
  | move act i call pc pc' ev ht hm =>
    exact ⟨h.rows, forall_set (fun j t _ hj => h.clear j t hj) hm.clear⟩
  | insert i dto room uuid hid hst ht =>
    exact h.insert hu ht hst hid _ (fun db => trivial)
  | cancel i id r type ht =>
    refine ⟨h.rows.cancel id, forall_set (fun j t _ hj => (h.clear j t hj).mono ?_) trivial⟩
    intro r' hr' roomId dto hov
    obtain ⟨r, hr, rfl⟩ := List.mem_map.mp hr'
    exact ⟨r, hr, overlapping_cancelRow hov⟩

/-! ## the law, and where it fails -/

/-- an insert against the condition: the other create's insert then double books the room -/
theorem raced_insert_double_books {s s' : State} {act : Act} (hs : machine s act = some s')
    (hu : ¬ Unraced s act) :
    ∃ act' s'', machine s' act' = some s'' ∧ ¬ NoDoubleBooking s''.db := by
  cases act with
  | arrive call => exact absurd trivial hu
  | go i => exact absurd trivial hu
  | airport i answer => exact absurd trivial hu
  | insert i uuid =>
    simp only [Unraced, not_forall, not_not] at hu
    obtain ⟨⟨dto, room⟩, hp, j, hj, hji, ⟨dto', room'⟩, hq, hroom, hint⟩ := hu
    obtain ⟨hti, hsti⟩ := State.inserting_eq_some.mp hp
    obtain ⟨htj, hstj⟩ := State.inserting_eq_some.mp hq
    -- the insert of `i` leaves `j` where it was
    have hid := insert_fresh hti hs
    rw [machine_insert hti hsti hid] at hs
    obtain rfl := Option.some.inj hs
    have htj' : (s.threads.set i ⟨.create dto, .publishConfirmed (Db.newRow uuid dto room) room⟩)[j]?
        = some ⟨.create dto', .insert room'⟩ := by
      rw [List.getElem?_set_ne (fun e => hji e.symm)]
      exact htj
    obtain ⟨fresh, hfresh⟩ := Infinite.exists_notMem_finset
      ((s.db.create (Db.newRow uuid dto room) hid (Db.newRow_fits hsti)).reservations.map Reservation.id).toFinset
    rw [List.mem_toFinset] at hfresh
    refine ⟨.insert j fresh, _, machine_insert htj' hstj hfresh, ?_⟩
    intro hno
    have hmem : Db.newRow uuid dto room ∈ s.db.reservations ++ [Db.newRow uuid dto room] :=
      List.mem_append_right _ List.mem_cons_self
    refine hno (Db.newRow uuid dto room) (List.mem_append_left _ hmem)
      (Db.newRow fresh dto' room') (List.mem_append_right _ List.mem_cons_self) ?_ ?_
    · intro he
      exact hfresh (List.mem_map.mpr ⟨_, hmem, he⟩)
    · exact ⟨rfl, rfl, hroom.symm, hint.1, hint.2⟩

/-- **No double booking without a race.**  From an empty reservation table, every run whose inserts
are unraced keeps the CONFIRMED reservations of each room disjoint; and the first insert that is
raced leaves a state from which one more statement double books. -/
theorem unraced_no_double_booking (db₀ : Db) (h₀ : db₀.reservations = []) (acts : List Act)
    (s : State) (hrun : machine.Runs Unraced (State.init db₀) acts s) :
    NoDoubleBooking s.db ∧
    ∀ act s', machine s act = some s' → ¬ Unraced s act →
      ∃ act' s'', machine s' act' = some s'' ∧ ¬ NoDoubleBooking s''.db := by
  have hinit : Disjoint (State.init db₀) := by
    constructor
    · intro a ha
      have : a ∈ db₀.reservations := ha
      rw [h₀] at this
      exact absurd this (by simp)
    · intro i t ht
      exact absurd ht (by simp [State.init])
  have hs : Disjoint s := hrun.inv (fun s a t h hg hst => h.step hg hst) hinit
  exact ⟨hs.rows, fun act s' hst hu => raced_insert_double_books hst hu⟩

/-- one standard room for two, and no reservations -/
def oneRoomDb : Db where
  rooms := [⟨"room-standard-01", .STANDARD, 2, 100⟩]
  reservations := []
  rooms_sorted := List.pairwise_singleton _ _
  ids_nodup := List.nodup_nil
  rooms_fit := by decide
  reservations_fit := by decide

/-- a stay from day `ci` to day `co` -/
def stay (guest : String) (ci co : Int) : CreateReservationDto :=
  ⟨guest, .STANDARD, 1, none, ci, co, by decide⟩

/-- two guests want the same nights; both count before either inserts -/
def racingCreates : List Act :=
  [.arrive (.create (stay "ana" 1 3)), .arrive (.create (stay "bob" 2 4)),
   .airport 0 (some true), .airport 1 (some true), .go 0, .go 1, .go 0, .go 1,
   .insert 0 "r-0", .insert 1 "r-1"]

/-- the same with the second create after the first -/
def createThenCreate : List Act :=
  [.arrive (.create (stay "ana" 1 3)), .airport 0 (some true), .go 0, .go 0, .insert 0 "r-0", .go 0,
   .arrive (.create (stay "bob" 4 6)), .airport 1 (some true), .go 1, .go 1, .insert 1 "r-1", .go 1]

theorem unraced_no_double_booking_sequential :
    ∃ s, machine.run (State.init oneRoomDb) createThenCreate = some s ∧
      s.db.reservations.length = 2 ∧ NoDoubleBooking s.db :=
  ⟨_, rfl, rfl, (unraced_no_double_booking oneRoomDb rfl createThenCreate _
    (Machine.runs_iff_runG.mpr rfl)).1⟩

/-- **Two creates that both count before either inserts get the same room for the same nights.** -/
theorem double_booked :
    ∃ s, machine.run (State.init oneRoomDb) racingCreates = some s ∧ ¬ NoDoubleBooking s.db := by
  refine ⟨_, rfl, ?_⟩
  intro h
  exact h (Db.newRow "r-0" (stay "ana" 1 3) ⟨"room-standard-01", .STANDARD, 2, 100⟩) (by decide)
    (Db.newRow "r-1" (stay "bob" 2 4) ⟨"room-standard-01", .STANDARD, 2, 100⟩) (by decide)
    (by decide) ⟨rfl, rfl, rfl, by decide, by decide⟩

end Hotel
