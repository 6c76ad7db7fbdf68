import Purrlington.Hotel.Cancellation
import Purrlington.Hotel.Occupancy

/-!
# Hotel: what becomes of a reservation

The two lookups of the service, and what they answer after other requests have been answered.

* `Db.findById`           `ReservationService.findById`;
* `Db.Answers`            the possible answers of `findActiveByGuestId`: the rows that tie on
                          `check_in_day` come in no fixed order;
* `Reservation.UpToCancel`   all that can happen to a row;
* `Pc.Honest`             what a request knows of the tables when it is about to answer;
* `Db.LastsIn.findById`, `Db.LastsIn.answers`   what the lookups answer once something has happened;
* `promises_kept`         whatever the interleaving, what was answered at one time holds later, up to
                          the cancellation of the reservation.
-/

set_option linter.unusedSectionVars false

namespace Hotel
open SM

/-! ## the lookups -/

structure ReservationResponse where
  id : String
  guest_id : String
  room_id : String
  room_type : RoomType
  guest_count : Int
  party_guest_ids : List String
  check_in_day : Int
  check_out_day : Int
  status : ReservationStatus
  deriving DecidableEq

def Reservation.response (r : Reservation) (type : RoomType) : ReservationResponse :=
  ⟨r.id, r.guest_id, r.room_id, type, r.guest_count, r.guests, r.check_in_day, r.check_out_day,
    r.status⟩

/-- the answer for a row, by way of its room -/
def Db.respond (db : Db) (r : Reservation) : Except Err ReservationResponse :=
  match db.roomType r.room_id with
  | some type => .ok (r.response type)
  | none => .error .prisma

def Db.findById (db : Db) (id : String) : Except Err ReservationResponse :=
  match db.findFirst id with
  | some r => db.respond r
  | none => .error .notFound

/-- the `where` clause of `findActiveByGuestId` -/
def Reservation.activeFor (guestId : String) (r : Reservation) : Bool :=
  decide (r.guest_id = guestId ∧ r.status = .CONFIRMED)

/-- `findActiveByGuestId`: a row with the latest `check_in_day` of those that the clause admits -/
inductive Db.Answers (db : Db) (guestId : String) : Except Err ReservationResponse → Prop where
  | found (r : Reservation) : r ∈ db.reservations → r.activeFor guestId = true →
      (∀ r' ∈ db.reservations, r'.activeFor guestId = true → r'.check_in_day ≤ r.check_in_day) →
      Answers db guestId (db.respond r)
  | none : (∀ r ∈ db.reservations, r.activeFor guestId = false) →
      Answers db guestId (.error .notFound)

/-! ## what happens to a row -/

/-- a row stays as it is, or is cancelled -/
def Reservation.UpToCancel (r r' : Reservation) : Prop := r' = r ∨ r' = { r with status := .CANCELLED }

theorem Reservation.upToCancel_trans {r r' r'' : Reservation} (h : r.UpToCancel r') (h' : r'.UpToCancel r'') :
    r.UpToCancel r'' := by
  rcases h with rfl | rfl
  · exact h'
  · rcases h' with rfl | rfl
    · exact .inr rfl
    · exact .inr rfl

theorem upToCancel_cancelRow (id : String) (r : Reservation) : r.UpToCancel (Db.cancelRow id r) := by
  unfold Db.cancelRow
  split
  · exact .inr rfl
  · exact .inl rfl

/-- the rooms stay, and so does every row -/
structure Db.LastsIn (db db' : Db) : Prop where
  rooms : db'.rooms = db.rooms
  rows : ∀ r ∈ db.reservations, ∃ r' ∈ db'.reservations, r.UpToCancel r'

theorem Db.LastsIn.findRooms {db db' : Db} (h : db.LastsIn db') (type : RoomType) :
    db'.findRooms type = db.findRooms type := by
  rw [Db.findRooms, Db.findRooms, h.rooms]

theorem Db.lastsIn_refl (db : Db) : db.LastsIn db := ⟨rfl, fun r hr => ⟨r, hr, .inl rfl⟩⟩

theorem Db.lastsIn_trans {db db' db'' : Db} (h : db.LastsIn db') (h' : db'.LastsIn db'') :
    db.LastsIn db'' := by
  refine ⟨h'.rooms.trans h.rooms, fun r hr => ?_⟩
  obtain ⟨r', hr', hl⟩ := h.rows r hr
  obtain ⟨r'', hr'', hl'⟩ := h'.rows r' hr'
  exact ⟨r'', hr'', Reservation.upToCancel_trans hl hl'⟩

theorem machine_lastsIn {s s' : State} {act : Act} (hs : machine s act = some s') :
    s.db.LastsIn s'.db := by
  refine ⟨machine_rooms hs, ?_⟩
  cases machine_eff hs with
  | arrive call => exact s.db.lastsIn_refl.rows
  | move act i call pc pc' ev ht hm => exact s.db.lastsIn_refl.rows
  | insert i dto room uuid hid hst ht =>
    exact fun r hr => ⟨r, List.mem_append_left _ hr, .inl rfl⟩
  | cancel i id r type ht =>
    exact fun r hr => ⟨Db.cancelRow id r, List.mem_map_of_mem hr, upToCancel_cancelRow id r⟩

theorem runs_lastsIn {s s' : State} {acts : List Act} (h : machine.Runs free s acts s') :
    s.db.LastsIn s'.db :=
  h.inv (P := fun t => s.db.LastsIn t.db)
    (fun _ _ _ hp _ hm => Db.lastsIn_trans hp (machine_lastsIn hm)) s.db.lastsIn_refl

/-! ## rows and rooms -/

/-- the foreign key of `reservations` -/
def Db.Housed (db : Db) : Prop := ∀ r ∈ db.reservations, ∃ room ∈ db.rooms, room.id = r.room_id

/-- the row of a reservation is in the table, cancelled or not -/
def Db.Holds (db : Db) (r : Reservation) : Prop := ∃ r' ∈ db.reservations, r.UpToCancel r'

section
variable {db db' : Db}

theorem Db.Holds.lasts {r : Reservation} (h : db.Holds r) (hl : db.LastsIn db') : db'.Holds r := by
  obtain ⟨r', hr', hrr'⟩ := h
  obtain ⟨r'', hr'', hl'⟩ := hl.rows r' hr'
  exact ⟨r'', hr'', Reservation.upToCancel_trans hrr' hl'⟩

/-- a cancelled row has nowhere to go -/
theorem statusOf_lasts {id : String} (hl : db.LastsIn db')
    (h : db.statusOf id = some .CANCELLED) : db'.statusOf id = some .CANCELLED := by
  obtain ⟨r, hr, hid, hst⟩ := statusOf_eq_some.mp h
  obtain ⟨r', hr', hrr'⟩ := hl.rows r hr
  refine statusOf_eq_some.mpr ⟨r', hr', ?_⟩
  rcases hrr' with rfl | rfl
  · exact ⟨hid, hst⟩
  · exact ⟨hid, rfl⟩

theorem roomType_of_mem {room : Room} (h : room ∈ db.rooms) :
    db.roomType room.id = some room.type := by
  have hsome : (db.rooms.find? fun r => r.id = room.id).isSome = true :=
    List.find?_isSome.mpr ⟨room, h, decide_eq_true rfl⟩
  obtain ⟨found, hfound⟩ := Option.isSome_iff_exists.mp hsome
  have hid : found.id = room.id := by simpa using List.find?_some hfound
  obtain rfl := Db.room_ext (List.mem_of_find?_eq_some hfound) h hid
  rw [Db.roomType, hfound]
  rfl

theorem findFirst_of_mem {r : Reservation} (h : r ∈ db.reservations) : db.findFirst r.id = some r := by
  have hsome : (db.findFirst r.id).isSome = true := List.find?_isSome.mpr ⟨r, h, decide_eq_true rfl⟩
  obtain ⟨found, hfound⟩ := Option.isSome_iff_exists.mp hsome
  obtain ⟨hmem, hid⟩ := findFirst_eq_some hfound
  obtain rfl := List.inj_on_of_nodup_map db.ids_nodup hmem h hid
  exact hfound

theorem findById_of_mem {r : Reservation} (h : r ∈ db.reservations) :
    db.findById r.id = db.respond r := by
  rw [Db.findById, findFirst_of_mem h]

theorem respond_of_type {r : Reservation} {type : RoomType} (h : db.roomType r.room_id = some type) :
    db.respond r = .ok (r.response type) := by
  rw [Db.respond, h]

theorem respond_of_room {r : Reservation} {room : Room} (h : room ∈ db.rooms)
    (hid : r.room_id = room.id) : db.respond r = .ok (r.response room.type) :=
  respond_of_type (by rw [hid, roomType_of_mem h])

theorem findById_of_cancelled {id : String} (h : db.statusOf id = some .CANCELLED)
    (hhoused : db.Housed) : ∃ found, db.findById id = .ok found ∧ found.id = id ∧
      found.status = .CANCELLED := by
  obtain ⟨r, hr, rfl, hst⟩ := statusOf_eq_some.mp h
  obtain ⟨room, hroom, hid⟩ := hhoused r hr
  refine ⟨r.response room.type, ?_, rfl, hst⟩
  rw [Db.findById, findFirst_of_mem hr]
  exact respond_of_room hroom hid.symm

/-- a guest with a CONFIRMED row is always answered with one, and none that begins earlier -/
theorem Db.Answers.of_active {guestId : String} {answer : Except Err ReservationResponse}
    {r : Reservation} (h : db.Answers guestId answer) (hhoused : db.Housed)
    (hr : r ∈ db.reservations) (hactive : r.activeFor guestId = true) :
    ∃ found, answer = .ok found ∧ found.guest_id = guestId ∧ found.status = .CONFIRMED ∧
      r.check_in_day ≤ found.check_in_day := by
  cases h with
  | found r' hr' hactive' hlast =>
    obtain ⟨room, hroom, hid⟩ := hhoused r' hr'
    obtain ⟨hguest, hst⟩ := of_decide_eq_true hactive'
    exact ⟨_, respond_of_room hroom hid.symm, hguest, hst, hlast r hr hactive⟩
  | none hnone =>
    rw [hnone r hr] at hactive
    exact absurd hactive (by simp)

end

/-- the rooms that requests hold are those of the table -/
def Placed (s : State) : Prop :=
  ∀ (i : Nat) (t : Thread), s.threads[i]? = some t → t.Placed s.db.rooms

theorem Placed.step {s s' : State} {act : Act} (h : Placed s) (hs : machine s act = some s') :
    Placed s' := by
  unfold Placed
  rw [machine_rooms hs]
  rcases machine_turn hs with ⟨call, rfl, rfl⟩ | ⟨i, t, t', hturn⟩
  · exact forall_snoc h (call.entry_placed s.db.rooms)
  · rw [hturn.moved]
    exact forall_set (fun j u _ hj => h j u hj) (hturn.placed (h i t hturn.here))

theorem Placed.inserting {s : State} {i : Nat} {dto : CreateReservationDto} {room : Room}
    (h : Placed s) (ht : s.threads[i]? = some ⟨.create dto, .insert room⟩) :
    room ∈ s.db.findRooms dto.room_type := (h i _ ht).2.2

theorem Db.Housed.step {s s' : State} {act : Act} (h : s.db.Housed) (hp : Placed s)
    (hs : machine s act = some s') : s'.db.Housed := by
  unfold Db.Housed
  rw [machine_rooms hs]
  apply forall_rows_step hs h
  · intro id r hr
    rw [cancelRow_room_id]
    exact hr
  · rintro i uuid dto room rfl hi
    exact ⟨room, List.mem_of_mem_filter (hp.inserting (State.inserting_eq_some.mp hi).1), rfl⟩

/-! ## what the requests know -/

/-- a request that has a row, or has cancelled one, answers with what is in the table -/
def Pc.Honest (db : Db) : Call → Pc → Prop
  | .create dto, .publishConfirmed r room =>
      room ∈ db.findRooms dto.room_type ∧ r = Db.newRow r.id dto room ∧ db.Holds r
  | .create dto, .done (.reservation r type) =>
      ∃ room ∈ db.findRooms dto.room_type, type = room.type ∧ r = Db.newRow r.id dto room ∧
        db.Holds r
  | .cancel id, .publishCancelled r _ =>
      r.id = id ∧ r.status = .CANCELLED ∧ db.statusOf id = some .CANCELLED
  | .cancel id, .done (.cancelled id' st) =>
      id' = id ∧ st = .CANCELLED ∧ db.statusOf id = some .CANCELLED
  | _, _ => True

def Honest (s : State) : Prop :=
  ∀ (i : Nat) (t : Thread), s.threads[i]? = some t → t.pc.Honest s.db t.call

theorem Pc.Honest.lasts {db db' : Db} {call : Call} {pc : Pc} (h : pc.Honest db call)
    (hl : db.LastsIn db') : pc.Honest db' call := by
  cases call with
  | create dto =>
    cases pc with
    | publishConfirmed r room =>
      obtain ⟨hroom, hrow, hh⟩ := h
      exact ⟨hl.findRooms dto.room_type ▸ hroom, hrow, hh.lasts hl⟩
    | done result =>
      cases result with
      | reservation r type =>
        obtain ⟨room, hroom, htype, hrow, hh⟩ := h
        exact ⟨room, hl.findRooms dto.room_type ▸ hroom, htype, hrow, hh.lasts hl⟩
      | cancelled id st => trivial
      | error e => trivial
    | _ => trivial
  | cancel id =>
    cases pc with
    | publishCancelled r type => exact ⟨h.1, h.2.1, statusOf_lasts hl h.2.2⟩
    | done result =>
      cases result with
      | cancelled id' st => exact ⟨h.1, h.2.1, statusOf_lasts hl h.2.2⟩
      | reservation r type => trivial
      | error e => trivial
    | _ => trivial

theorem nextRoom_honest (db : Db) (dto : CreateReservationDto) (rooms : List Room) :
    (nextRoom dto rooms).Honest db (.create dto) := by
  obtain ⟨_, e⟩ | ⟨_, _, _, _, _, _, e⟩ := nextRoom_cases dto rooms
  · rw [e]
    trivial
  · rw [e]
    trivial

theorem searchRooms_honest (db : Db) (dto : CreateReservationDto) (rooms : List Room) :
    (searchRooms dto rooms).Honest db (.create dto) := by
  obtain ⟨max, e⟩ | e := searchRooms_cases dto rooms
  · rw [e]
    trivial
  · rw [e]
    exact nextRoom_honest db dto rooms

theorem Call.entry_honest (db : Db) (call : Call) : call.entry.Honest db call := by
  cases call with
  | create dto =>
    rw [Call.entry]
    split <;> trivial
  | cancel id => trivial

section
variable {s s' : State} {i : Nat}

theorem Honest.move {call : Call} {pc : Pc} (h : Honest s) (hl : s.db.LastsIn s'.db)
    (ht : s'.threads = s.threads.set i ⟨call, pc⟩) (hpc : pc.Honest s'.db call) : Honest s' := by
  unfold Honest
  rw [ht]
  exact forall_set (fun j t _ hj => (h j t hj).lasts hl) hpc

theorem findFirst_step {id : String} (ht : s.threads[i]? = some ⟨.cancel id, .findFirst⟩)
    (hs : machine s (.go i) = some s') : ∃ pc : Pc, s' = s.goto i (.cancel id) pc ∧
      pc.Honest s.db (.cancel id) := by
  obtain ⟨t, ht', hstep⟩ := Option.bind_eq_some_iff.mp hs
  obtain rfl := Option.some.inj (ht.symm.trans ht')
  simp only [stepCancel] at hstep
  split at hstep
  · exact ⟨_, (Option.some.inj hstep).symm, trivial⟩
  · rename_i r hr
    split at hstep
    · rename_i hst
      obtain ⟨hmem, hid⟩ := findFirst_eq_some hr
      exact ⟨_, (Option.some.inj hstep).symm, hid, hst, statusOf_eq_some.mpr ⟨r, hmem, hid, hst⟩⟩
    · exact ⟨_, (Option.some.inj hstep).symm, trivial⟩

theorem CreateStep.honest {dto : CreateReservationDto} {act : Act} {pc : Pc} (h : Honest s)
    (hp : Placed s) (ht : s.threads[i]? = some ⟨.create dto, pc⟩)
    (hstep : CreateStep s i dto act pc s') (hl : s.db.LastsIn s'.db) : Honest s' := by
  cases hstep with
  | notCleared => exact h.move hl rfl trivial
  | cleared answer hne => exact h.move hl rfl trivial
  | rooms => exact h.move hl rfl (searchRooms_honest _ dto _)
  | unfit room rest hunfit => exact h.move hl rfl trivial
  | free room rest hfit hfree => exact h.move hl rfl trivial
  | taken room rest hfit htaken => exact h.move hl rfl (nextRoom_honest _ dto rest)
  | insert room uuid hid hst =>
    exact h.move hl rfl ⟨hp.inserting ht, rfl, Db.newRow uuid dto room,
      List.mem_append_right _ List.mem_cons_self, .inl rfl⟩
  | raises room uuid hst => exact h.move hl rfl trivial
  | publish r room =>
    obtain ⟨hroom, hrow, hh⟩ := h i _ ht
    exact h.move hl rfl ⟨room, hroom, rfl, hrow, hh⟩

theorem CancelStep.honest {id : String} {pc : Pc} (h : Honest s)
    (ht : s.threads[i]? = some ⟨.cancel id, pc⟩) (hstep : CancelStep s i id pc s')
    (hs : machine s (.go i) = some s') (hl : s.db.LastsIn s'.db) : Honest s' := by
  by_cases hpc : pc = .findFirst
  · subst hpc
    obtain ⟨pc', rfl, hread⟩ := findFirst_step ht hs
    exact h.move hl rfl hread
  · cases hstep with
    | notFound => exact absurd rfl hpc
    | already r => exact absurd rfl hpc
    | found r hr hst => exact absurd rfl hpc
    | missing => exact h.move hl rfl trivial
    | update r hr =>
      obtain ⟨hid, _, hst⟩ := findFirst_cancel_self hr
      have hrst : r.status = .CANCELLED := by
        rw [Db.statusOf, hr] at hst
        exact Option.some.inj hst
      exact h.move hl rfl ⟨hid, hrst, hst⟩
    | publish r type =>
      obtain ⟨hid, hrst, hst⟩ := h i _ ht
      exact h.move hl rfl ⟨hid, hrst, hst⟩

theorem Honest.step {act : Act} (h : Honest s) (hp : Placed s) (hs : machine s act = some s') :
    Honest s' := by
  have hl := machine_lastsIn hs
  obtain ⟨call, rfl, rfl⟩ | ⟨i, dto, pc, ht, hstep⟩ | ⟨i, id, pc, rfl, ht, hstep⟩ := machine_steps hs
  · exact forall_snoc h (call.entry_honest s.db)
  · exact hstep.honest h hp ht hl
  · exact hstep.honest h ht hs hl

end

/-! ## the law -/

/-- what the service has told of a reservation -/
structure Promises (s : State) : Prop where
  /-- a reservation that a create has answered with is found as answered, but for its status -/
  booked : ∀ (i : Nat) dto r type, s.threads[i]? = some ⟨.create dto, .done (.reservation r type)⟩ →
    r.guest_id = dto.guest_id ∧ type = dto.room_type ∧
    ∃ st, s.db.findById r.id = .ok { r.response type with status := st } ∧
      (st = .CONFIRMED → ∀ answer, s.db.Answers dto.guest_id answer → ∃ found, answer = .ok found ∧
        found.guest_id = dto.guest_id ∧ found.status = .CONFIRMED ∧
        dto.check_in_day ≤ found.check_in_day)
  /-- and one that a cancel has answered is cancelled -/
  cancelled : ∀ (i : Nat) id id' st, s.threads[i]? = some ⟨.cancel id, .done (.cancelled id' st)⟩ →
    id' = id ∧ st = .CANCELLED ∧ ∃ found, s.db.findById id = .ok found ∧ found.id = id ∧
      found.status = .CANCELLED

/-- what is kept for it -/
structure Kept (s : State) : Prop where
  housed : s.db.Housed
  placed : Placed s
  honest : Honest s

theorem Kept.step {s s' : State} {act : Act} (h : Kept s) (hs : machine s act = some s') : Kept s' :=
  ⟨h.housed.step h.placed hs, h.placed.step hs, h.honest.step h.placed hs⟩

theorem Kept.promises {s : State} (h : Kept s) : Promises s := by
  constructor
  · intro i dto r type ht
    obtain ⟨room, hroom, htype, hrow, r', hr', hl⟩ := h.honest i _ ht
    obtain ⟨hmem, hasked⟩ := List.mem_filter.mp hroom
    have hguest : r.guest_id = dto.guest_id := by rw [hrow]; rfl
    have hin : r.room_id = room.id := by rw [hrow]; rfl
    have hday : r.check_in_day = dto.check_in_day := by rw [hrow]; rfl
    refine ⟨hguest, htype.trans (of_decide_eq_true hasked), ?_⟩
    have hfind := findFirst_of_mem hr'
    rcases hl with rfl | rfl
    · refine ⟨r'.status, ?_, fun hst answer hanswer => ?_⟩
      · rw [Db.findById, hfind, htype]
        exact respond_of_room hmem hin
      · rw [← hday]
        exact hanswer.of_active h.housed hr' (decide_eq_true ⟨hguest, hst⟩)
    · refine ⟨.CANCELLED, ?_, fun hst => absurd hst (by simp)⟩
      rw [Db.findById, hfind, htype]
      exact respond_of_room hmem hin
  · intro i id id' st ht
    obtain ⟨hid, hst, hcan⟩ := h.honest i _ ht
    exact ⟨hid, hst, findById_of_cancelled hcan h.housed⟩

/-- what is found by its id is found so later, but for its status -/
theorem Db.LastsIn.findById {db db' : Db} (hl : db.LastsIn db') {id : String} {found : ReservationResponse}
    (h : db.findById id = .ok found) : ∃ st, db'.findById id = .ok { found with status := st } ∧
      (st = found.status ∨ st = .CANCELLED) := by
  unfold Db.findById at h
  split at h
  · rename_i r hr
    obtain ⟨hmem, rfl⟩ := findFirst_eq_some hr
    unfold Db.respond at h
    split at h
    · rename_i type htype
      obtain rfl := Except.ok.inj h
      obtain ⟨r', hr', hrr'⟩ := hl.rows r hmem
      have hroom : db'.roomType r.room_id = some type := by
        rw [Db.roomType, hl.rooms]
        exact htype
      have hfind := findById_of_mem hr'
      rcases hrr' with rfl | rfl
      · exact ⟨r'.status, hfind.trans (respond_of_type hroom), .inl rfl⟩
      · exact ⟨.CANCELLED, hfind.trans (respond_of_type hroom), .inr rfl⟩
    · exact absurd h (by simp)
  · exact absurd h (by simp)

/-- the guest of an active reservation is told of one as long as it is CONFIRMED -/
theorem Db.LastsIn.answers {db db' : Db} (hl : db.LastsIn db') (hhoused : db'.Housed) {guestId : String}
    {found : ReservationResponse} (h : db.Answers guestId (.ok found)) :
    ∃ st, db'.findById found.id = .ok { found with status := st } ∧
      (st = .CONFIRMED → ∀ answer, db'.Answers guestId answer → ∃ found', answer = .ok found' ∧
        found'.guest_id = guestId ∧ found'.status = .CONFIRMED ∧
        found.check_in_day ≤ found'.check_in_day) := by
  generalize he : (Except.ok found : Except Err ReservationResponse) = told at h
  cases h with
  | none _ => exact absurd he (by simp)
  | found r hr hactive _ =>
    have hfind : db.findById r.id = .ok found := (findById_of_mem hr).trans he.symm
    obtain ⟨st, hlater, _⟩ := hl.findById hfind
    obtain ⟨hid, hday⟩ : found.id = r.id ∧ found.check_in_day = r.check_in_day := by
      unfold Db.respond at he
      split at he
      · obtain rfl := Except.ok.inj he
        exact ⟨rfl, rfl⟩
      · exact absurd he (by simp)
    refine ⟨st, hid ▸ hlater, fun hst answer hanswer => ?_⟩
    obtain ⟨r', hr', hrr'⟩ := hl.rows r hr
    rcases hrr' with rfl | rfl
    · rw [hday]
      exact hanswer.of_active hhoused hr' hactive
    · -- the row is cancelled, and so is what is found
      obtain ⟨found', hfound', _, hcancelled⟩ := findById_of_cancelled
        (statusOf_eq_some.mpr ⟨_, hr', rfl, rfl⟩) hhoused
      rw [hlater] at hfound'
      obtain rfl := Except.ok.inj hfound'
      exact absurd (hst.symm.trans hcancelled) (by simp)

/-- **The hotel keeps what it has answered.**  From tables whose reservations are in rooms that exist,
and in any interleaving of creates and cancels, at a time and at any later one: what `findById` answers
it answers again, but for a status that has become CANCELLED; what `findActiveByGuestId` answers is
found by its id likewise, and while it is CONFIRMED its guest is told of a CONFIRMED reservation that
begins no earlier.  A reservation that a create has answered with is found by its id as it was answered,
and while it is CONFIRMED its guest is never told that there is none; one that a cancel has answered is
found as CANCELLED. -/
theorem promises_kept (db₀ : Db) (h₀ : db₀.Housed) (acts later : List Act) (t s : State)
    (hrun : machine.Runs free (State.init db₀) acts t) (hlater : machine.Runs free t later s) :
    (∀ id found, t.db.findById id = .ok found →
      ∃ st, s.db.findById id = .ok { found with status := st } ∧
        (st = found.status ∨ st = .CANCELLED)) ∧
    (∀ guestId found, t.db.Answers guestId (.ok found) →
      ∃ st, s.db.findById found.id = .ok { found with status := st } ∧
        (st = .CONFIRMED → ∀ answer, s.db.Answers guestId answer → ∃ found', answer = .ok found' ∧
          found'.guest_id = guestId ∧ found'.status = .CONFIRMED ∧
          found.check_in_day ≤ found'.check_in_day)) ∧
    Promises s := by
  have hinit : Kept (State.init db₀) :=
    ⟨h₀, fun i t ht => absurd ht (by simp [State.init]), fun i t ht => absurd ht (by simp [State.init])⟩
  have hkept : Kept s := (hrun.append hlater).inv (fun _ _ _ h _ hm => h.step hm) hinit
  have hl := runs_lastsIn hlater
  exact ⟨fun id found h => hl.findById h, fun guestId found h => hl.answers hkept.housed h,
    hkept.promises⟩

/-- bob books the room after ana's stay, and the first of two reservations is cancelled -/
def bookAndCancel : List Act :=
  [.arrive (.create (stay "bob" 4 6)), .airport 0 (some true), .go 0, .arrive (.cancel "r-0"), .go 0,
   .go 1, .insert 0 "r-1", .go 1, .go 0, .go 1]

/-- ana is found by her id, and as cancelled later -/
theorem promises_kept_bob :
    ∃ s found st, machine.Runs free (State.init takenDb) bookAndCancel s ∧
      takenDb.findById "r-0" = .ok found ∧ found.status = .CONFIRMED ∧
      s.db.findById "r-0" = .ok { found with status := st } ∧ Promises s := by
  have hrun : ∃ s, machine.Runs free (State.init takenDb) bookAndCancel s :=
    ⟨_, Machine.runs_free_iff.mpr rfl⟩
  have hhoused : takenDb.Housed := by
    intro r hr
    obtain rfl := List.mem_singleton.mp hr
    exact ⟨⟨"room-standard-01", .STANDARD, 2, 100⟩, List.mem_singleton.mpr rfl, rfl⟩
  have hfound : ∃ found, takenDb.findById "r-0" = .ok found ∧ found.status = .CONFIRMED :=
    ⟨_, rfl, rfl⟩
  obtain ⟨s, hrun⟩ := hrun
  obtain ⟨found, hfound, hst⟩ := hfound
  obtain ⟨hid, _, hpromises⟩ :=
    promises_kept takenDb hhoused [] bookAndCancel (State.init takenDb) s rfl hrun
  obtain ⟨st, hlater, _⟩ := hid "r-0" found hfound
  exact ⟨s, found, st, hrun, hfound, hst, hlater, hpromises⟩

end Hotel
