import Purrlington.Lib.Column
import Purrlington.Lib.Machine
import Mathlib.Data.List.Nodup

/-!
# Hotel: the reservation service, one Prisma call at a time

* `Db`        the tables of `schema.prisma` that the service reads and writes.  `rooms` is kept in
              primary key order, which is the order `findMany` asks for; a reservation carries its
              `ReservationGuest` rows, and its columns take its values;
* `Db.count`, `Db.create`, `Db.findFirst`, `Db.cancel`   the statements, each atomic;
* `stepCreate`, `stepCancel`   `ReservationService.create` and `.cancel` as threads: a `Pc` names
              the awaited call with the locals live there, and the code up to the next await
              runs in the same step;
* `machine`   any number of requests, with the answers of the airport service and the fresh
              `uuid()` chosen by the environment;
* `CreateStep`, `CancelStep`   what one step of a request comes to, and `machine_steps`, that the
              machine takes no other.
-/

set_option linter.unusedSectionVars false

namespace Hotel
open SM
open Column (takesText int4)

/-! ## the tables -/

inductive RoomType where
  | STANDARD | DELUXE | SUITE
  deriving DecidableEq, Repr

def RoomType.text : RoomType → String
  | .STANDARD => "STANDARD"
  | .DELUXE => "DELUXE"
  | .SUITE => "SUITE"

inductive ReservationStatus where
  | CONFIRMED | CANCELLED
  deriving DecidableEq, Repr

structure Room where
  id : String
  type : RoomType
  capacity : Int
  price_per_night : Int
  deriving DecidableEq

structure Reservation where
  id : String
  guest_id : String
  room_id : String
  guest_count : Int
  check_in_day : Int
  check_out_day : Int
  status : ReservationStatus
  guests : List String
  deriving DecidableEq

/-- `Int` is an INTEGER of PostgreSQL, `String` a TEXT -/
def Reservation.fits (r : Reservation) : Bool :=
  int4 r.guest_count && int4 r.check_in_day && int4 r.check_out_day && takesText r.guest_id &&
    r.guests.all takesText

def Room.fits (room : Room) : Bool := int4 room.capacity && int4 room.price_per_night

/-- `rooms` in primary key order, reservation ids distinct, and every value in its column -/
structure Db where
  rooms : List Room
  reservations : List Reservation
  rooms_sorted : rooms.Pairwise (fun a b => a.id < b.id)
  ids_nodup : (reservations.map Reservation.id).Nodup
  rooms_fit : ∀ room ∈ rooms, room.fits = true
  reservations_fit : ∀ r ∈ reservations, r.fits = true

/-- the body that passed validation (`create-reservation.dto.ts`) -/
structure CreateReservationDto where
  guest_id : String
  room_type : RoomType
  guest_count : Int
  party_guest_ids : Option (List String)
  check_in_day : Int
  check_out_day : Int
  guest_count_min : 1 ≤ guest_count
  deriving DecidableEq

/-- both days may be compared with INTEGER columns -/
def CreateReservationDto.daysFit (dto : CreateReservationDto) : Bool :=
  int4 dto.check_in_day && int4 dto.check_out_day

/-- the columns take what the request brings; validation knows nothing of them -/
def CreateReservationDto.fits (dto : CreateReservationDto) : Bool :=
  int4 dto.guest_count && int4 dto.check_in_day && int4 dto.check_out_day &&
    takesText dto.guest_id && (dto.party_guest_ids.getD []).all takesText

/-- the insert raises no error: the values fit, and the key of `ReservationGuest` holds -/
def CreateReservationDto.Storable (dto : CreateReservationDto) : Prop :=
  dto.fits = true ∧ (dto.party_guest_ids.getD []).Nodup

instance (dto : CreateReservationDto) : Decidable dto.Storable :=
  inferInstanceAs (Decidable (_ ∧ _))

theorem CreateReservationDto.daysFit_of_fits {dto : CreateReservationDto} (h : dto.fits = true) :
    dto.daysFit = true := by
  simp only [fits, Bool.and_eq_true] at h
  simp only [daysFit, Bool.and_eq_true]
  exact ⟨h.1.1.1.2, h.1.1.2⟩

namespace Db

/-- `prisma.room.findMany({ where: { type }, orderBy: { id: 'asc' } })` -/
def findRooms (db : Db) (type : RoomType) : List Room := db.rooms.filter (fun r => r.type = type)

/-- the `where` clause of the overlap count -/
def overlapping (roomId : String) (dto : CreateReservationDto) (r : Reservation) : Bool :=
  decide (r.room_id = roomId ∧ r.status = .CONFIRMED ∧ r.check_in_day ≤ dto.check_out_day ∧
    dto.check_in_day ≤ r.check_out_day)

def count (db : Db) (roomId : String) (dto : CreateReservationDto) : Nat :=
  db.reservations.countP (overlapping roomId dto)

/-- `include: { room: true }`, of which only the type is used -/
def roomType (db : Db) (roomId : String) : Option RoomType :=
  (db.rooms.find? (fun room => room.id = roomId)).map Room.type

def findFirst (db : Db) (id : String) : Option Reservation :=
  db.reservations.find? (fun r => r.id = id)

/-- the row `prisma.reservation.create` inserts for a request that found `room` -/
def newRow (id : String) (dto : CreateReservationDto) (room : Room) : Reservation where
  id := id
  guest_id := dto.guest_id
  room_id := room.id
  guest_count := dto.guest_count
  check_in_day := dto.check_in_day
  check_out_day := dto.check_out_day
  status := .CONFIRMED
  guests := dto.party_guest_ids.getD []

theorem newRow_fits {id : String} {dto : CreateReservationDto} {room : Room} (h : dto.Storable) :
    (newRow id dto room).fits = true := h.1

def create (db : Db) (r : Reservation) (h : r.id ∉ db.reservations.map Reservation.id)
    (hfits : r.fits = true) : Db :=
  { db with
    reservations := db.reservations ++ [r]
    ids_nodup := by
      rw [List.map_append, List.map_singleton]
      exact db.ids_nodup.append (List.nodup_singleton _)
        (List.disjoint_singleton.mpr h)
    reservations_fit :=
      List.forall_mem_append.mpr ⟨db.reservations_fit, List.forall_mem_singleton.mpr hfits⟩ }

/-- `data: { status: CANCELLED }` on the row with the given id -/
def cancelRow (id : String) (r : Reservation) : Reservation :=
  if r.id = id then { r with status := .CANCELLED } else r

theorem cancelRow_id (id : String) (r : Reservation) : (cancelRow id r).id = r.id := by
  unfold cancelRow; split <;> rfl

theorem cancelRow_fits (id : String) (r : Reservation) : (cancelRow id r).fits = r.fits := by
  unfold cancelRow; split <;> rfl

def cancel (db : Db) (id : String) : Db :=
  { db with
    reservations := db.reservations.map (cancelRow id)
    ids_nodup := by
      have h : (fun r => (cancelRow id r).id) = Reservation.id := by
        funext r; exact cancelRow_id id r
      rw [List.map_map]
      show (db.reservations.map (fun r => (cancelRow id r).id)).Nodup
      rw [h]
      exact db.ids_nodup
    reservations_fit := by
      intro r' hr'
      obtain ⟨r, hr, rfl⟩ := List.mem_map.mp hr'
      rw [cancelRow_fits]
      exact db.reservations_fit r hr }

end Db

/-! ## errors, answers and events -/

/-- the `HttpException`s of the service, and `prisma` for an error the database raises -/
inductive Err where
  | dayOrder
  | notCleared
  | partyTooLarge (type : RoomType) (maxCapacity : Option Int)
  | noRooms (type : RoomType) (checkIn checkOut : Int)
  | notFound
  | prisma
  deriving DecidableEq

/-- the `error` text of the exception; `Math.max()` of no rooms prints as `-Infinity` -/
def Err.text : Err → String
  | .dayOrder => "check_out_day must be greater than check_in_day"
  | .notCleared => "Guest has not cleared airport processing"
  | .partyTooLarge type max => "Room type " ++ type.text ++ " supports at most " ++
      (match max with
      | none => "-Infinity"
      | some n => toString n) ++ " guests"
  | .noRooms type ci co => "No available rooms of type " ++ type.text ++ " for days " ++
      toString ci ++ "-" ++ toString co
  | .notFound => "Reservation not found"
  | .prisma => "Internal server error"

def Err.status : Err → Nat
  | .dayOrder => 400
  | .notCleared => 409
  | .partyTooLarge _ _ => 409
  | .noRooms _ _ _ => 409
  | .notFound => 404
  | .prisma => 500

inductive HotelBroadcastEventType where
  | ReservationConfirmed | ReservationCancelled
  deriving DecidableEq

/-- the payload that `publishHotelEvent` sends -/
structure HotelBroadcastEvent where
  type : HotelBroadcastEventType
  message : String
  reservation_id : String
  guest_id : String
  room_type : Option RoomType
  guest_count : Int
  check_in_day : Int
  check_out_day : Int
  deriving DecidableEq

def eventOf (type : HotelBroadcastEventType) (message : String) (r : Reservation)
    (roomType : Option RoomType) : HotelBroadcastEvent :=
  ⟨type, message, r.id, r.guest_id, roomType, r.guest_count, r.check_in_day, r.check_out_day⟩

inductive Result where
  | reservation (r : Reservation) (type : RoomType)
  | cancelled (id : String) (status : ReservationStatus)
  | error (e : Err)
  deriving DecidableEq

/-! ## threads -/

inductive Call where
  | create (dto : CreateReservationDto)
  | cancel (id : String)
  deriving DecidableEq

/-- the awaited call, with the locals live there -/
inductive Pc where
  | airport
  | findRooms
  | count (room : Room) (rest : List Room)
  | insert (room : Room)
  | publishConfirmed (r : Reservation) (room : Room)
  | findFirst
  | update
  | publishCancelled (r : Reservation) (type : Option RoomType)
  | done (result : Result)
  deriving DecidableEq

structure Thread where
  call : Call
  pc : Pc
  deriving DecidableEq

structure State where
  db : Db
  threads : List Thread
  published : List HotelBroadcastEvent

def State.init (db : Db) : State := ⟨db, [], []⟩

def State.goto (s : State) (i : Nat) (call : Call) (pc : Pc) : State :=
  { s with threads := s.threads.set i ⟨call, pc⟩ }

def CreateReservationDto.partySize (dto : CreateReservationDto) : Int :=
  match dto.party_guest_ids with
  | some (g :: gs) => (g :: gs).length
  | _ => dto.guest_count

/-- `Math.max(...capacities)`; `none` is the `-Infinity` of no rooms -/
def maxCapacity (rooms : List Room) : Option Int :=
  rooms.foldl (fun m r => some (match m with
    | none => r.capacity
    | some n => max n r.capacity)) none

/-- the loop over the rooms up to its next `count`: rooms that are too small are skipped -/
def nextRoom (dto : CreateReservationDto) : List Room → Pc
  | [] => .done (.error (.noRooms dto.room_type dto.check_in_day dto.check_out_day))
  | room :: rest => if room.capacity < dto.partySize then nextRoom dto rest else .count room rest

/-- the capacity check after `findMany`, then the loop -/
def searchRooms (dto : CreateReservationDto) (rooms : List Room) : Pc :=
  match maxCapacity rooms with
  | none => .done (.error (.partyTooLarge dto.room_type none))
  | some n =>
    if n < dto.partySize then .done (.error (.partyTooLarge dto.room_type (some n)))
    else nextRoom dto rooms

def Call.entry : Call → Pc
  | .create dto =>
    if dto.check_out_day ≤ dto.check_in_day then .done (.error .dayOrder) else .airport
  | .cancel _ => .findFirst

inductive Act where
  | arrive (call : Call)
  | go (i : Nat)
  | airport (i : Nat) (hasClearedAirport : Option Bool)
  | insert (i : Nat) (uuid : String)
  deriving DecidableEq

/-- the awaits of `create` that need no answer from the environment -/
def stepCreate (s : State) (i : Nat) (dto : CreateReservationDto) : Pc → Option State
  | .findRooms => some (s.goto i (.create dto) (searchRooms dto (s.db.findRooms dto.room_type)))
  | .count room rest =>
    -- a day that is no INTEGER cannot be compared with a column of these
    if dto.daysFit = false then some (s.goto i (.create dto) (.done (.error .prisma)))
    else if s.db.count room.id dto = 0 then some (s.goto i (.create dto) (.insert room))
    else some (s.goto i (.create dto) (nextRoom dto rest))
  | .publishConfirmed r room =>
    some { s.goto i (.create dto) (.done (.reservation r room.type)) with
      published := s.published ++
        [eventOf .ReservationConfirmed "Hotel reservation confirmed." r (some room.type)] }
  | _ => none

def stepCancel (s : State) (i : Nat) (id : String) : Pc → Option State
  | .findFirst =>
    match s.db.findFirst id with
    | none => some (s.goto i (.cancel id) (.done (.error .notFound)))
    | some existing =>
      if existing.status = .CANCELLED then
        some (s.goto i (.cancel id) (.done (.cancelled existing.id existing.status)))
      else some (s.goto i (.cancel id) .update)
  | .update =>
    match (s.db.cancel id).findFirst id with
    | none => some (s.goto i (.cancel id) (.done (.error .prisma)))
    | some r => some { s.goto i (.cancel id) (.publishCancelled r (s.db.roomType r.room_id)) with
        db := s.db.cancel id }
  | .publishCancelled r type =>
    some { s.goto i (.cancel id) (.done (.cancelled r.id r.status)) with
      published := s.published ++
        [eventOf .ReservationCancelled "Hotel reservation cancelled." r type] }
  | _ => none

/-- `rejectIfGuestHasNotClearedAirport` with the airport's answer -/
def stepAirport (s : State) (i : Nat) (t : Thread) (hasClearedAirport : Option Bool) :
    Option State :=
  match t with
  | ⟨.create dto, .airport⟩ =>
    if hasClearedAirport = some false then
      some (s.goto i (.create dto) (.done (.error .notCleared)))
    else some (s.goto i (.create dto) .findRooms)
  | _ => none

/-- `prisma.reservation.create`: `uuid()` is fresh, the nested party rows have their own key.  An error
rolls back what is written. -/
def stepInsert (s : State) (i : Nat) (t : Thread) (uuid : String) : Option State :=
  match t with
  | ⟨.create dto, .insert room⟩ =>
    if hid : uuid ∈ s.db.reservations.map Reservation.id then none
    else if h : dto.Storable then
      some { s.goto i (.create dto) (.publishConfirmed (Db.newRow uuid dto room) room) with
        db := s.db.create (Db.newRow uuid dto room) hid (Db.newRow_fits h) }
    else some (s.goto i (.create dto) (.done (.error .prisma)))
  | _ => none

def machine : Machine State Act := fun s act =>
  match act with
  | .arrive call => some { s with threads := s.threads ++ [⟨call, call.entry⟩] }
  | .go i => s.threads[i]?.bind fun t =>
    match t.call with
    | .create dto => stepCreate s i dto t.pc
    | .cancel id => stepCancel s i id t.pc
  | .airport i answer => s.threads[i]?.bind fun t => stepAirport s i t answer
  | .insert i uuid => s.threads[i]?.bind fun t => stepInsert s i t uuid

/-! ## the search for a room -/

/-- the loop comes to the first room that is large enough, or to its end -/
theorem nextRoom_cases (dto : CreateReservationDto) (rooms : List Room) :
    (∀ x ∈ rooms, x.capacity < dto.partySize) ∧ nextRoom dto rooms =
        .done (.error (.noRooms dto.room_type dto.check_in_day dto.check_out_day)) ∨
      ∃ small room rest, rooms = small ++ room :: rest ∧
        (∀ x ∈ small, x.capacity < dto.partySize) ∧ dto.partySize ≤ room.capacity ∧
        nextRoom dto rooms = .count room rest := by
  induction rooms with
  | nil => exact .inl ⟨by simp, rfl⟩
  | cons room rooms ih =>
    by_cases hcap : room.capacity < dto.partySize
    · have hskip : nextRoom dto (room :: rooms) = nextRoom dto rooms := if_pos hcap
      rw [hskip]
      obtain ⟨hall, e⟩ | ⟨small, found, rest, rfl, hsmall, hfits, e⟩ := ih
      · exact .inl ⟨List.forall_mem_cons.mpr ⟨hcap, hall⟩, e⟩
      · exact .inr ⟨room :: small, found, rest, rfl, List.forall_mem_cons.mpr ⟨hcap, hsmall⟩,
          hfits, e⟩
    · exact .inr ⟨[], room, rooms, rfl, by simp, by omega, if_neg hcap⟩

theorem searchRooms_cases (dto : CreateReservationDto) (rooms : List Room) :
    (∃ max, searchRooms dto rooms = .done (.error (.partyTooLarge dto.room_type max))) ∨
      searchRooms dto rooms = nextRoom dto rooms := by
  unfold searchRooms
  split
  · exact .inl ⟨_, rfl⟩
  · split
    · exact .inl ⟨_, rfl⟩
    · exact .inr rfl

theorem machine_insert {s : State} {i : Nat} {dto : CreateReservationDto} {room : Room}
    {uuid : String} (ht : s.threads[i]? = some ⟨.create dto, .insert room⟩) (hst : dto.Storable)
    (hid : uuid ∉ s.db.reservations.map Reservation.id) :
    machine s (.insert i uuid) =
      some { s.goto i (.create dto) (.publishConfirmed (Db.newRow uuid dto room) room) with
        db := s.db.create (Db.newRow uuid dto room) hid hst.1 } := by
  show (s.threads[i]?.bind fun t => stepInsert s i t uuid) = _
  rw [ht, Option.bind_some, stepInsert, dif_neg hid]
  exact dif_pos hst

theorem machine_insert_raises {s : State} {i : Nat} {dto : CreateReservationDto} {room : Room}
    {uuid : String} (ht : s.threads[i]? = some ⟨.create dto, .insert room⟩) (hst : ¬ dto.Storable)
    (hid : uuid ∉ s.db.reservations.map Reservation.id) :
    machine s (.insert i uuid) = some (s.goto i (.create dto) (.done (.error .prisma))) := by
  show (s.threads[i]?.bind fun t => stepInsert s i t uuid) = _
  rw [ht, Option.bind_some, stepInsert, dif_neg hid]
  exact dif_neg hst

theorem insert_fresh {s s' : State} {i : Nat} {dto : CreateReservationDto} {room : Room}
    {uuid : String} (ht : s.threads[i]? = some ⟨.create dto, .insert room⟩)
    (hs : machine s (.insert i uuid) = some s') :
    uuid ∉ s.db.reservations.map Reservation.id := by
  intro hmem
  have hnone : machine s (.insert i uuid) = none := by
    show (s.threads[i]?.bind fun t => stepInsert s i t uuid) = none
    rw [ht, Option.bind_some, stepInsert, dif_pos hmem]
  rw [hnone] at hs
  exact absurd hs (by simp)

/-! ## what a step can do -/

/-- the steps of a create -/
inductive CreateStep (s : State) (i : Nat) (dto : CreateReservationDto) :
    Act → Pc → State → Prop where
  | notCleared : CreateStep s i dto (.airport i (some false)) .airport
      (s.goto i (.create dto) (.done (.error .notCleared)))
  | cleared (answer) : answer ≠ some false →
      CreateStep s i dto (.airport i answer) .airport (s.goto i (.create dto) .findRooms)
  | rooms : CreateStep s i dto (.go i) .findRooms
      (s.goto i (.create dto) (searchRooms dto (s.db.findRooms dto.room_type)))
  | unfit (room rest) : dto.daysFit = false →
      CreateStep s i dto (.go i) (.count room rest)
        (s.goto i (.create dto) (.done (.error .prisma)))
  | free (room rest) : dto.daysFit = true → s.db.count room.id dto = 0 →
      CreateStep s i dto (.go i) (.count room rest) (s.goto i (.create dto) (.insert room))
  | taken (room rest) : dto.daysFit = true → s.db.count room.id dto ≠ 0 →
      CreateStep s i dto (.go i) (.count room rest) (s.goto i (.create dto) (nextRoom dto rest))
  | insert (room uuid) (h : uuid ∉ s.db.reservations.map Reservation.id) (hst : dto.Storable) :
      CreateStep s i dto (.insert i uuid) (.insert room)
        { s.goto i (.create dto) (.publishConfirmed (Db.newRow uuid dto room) room) with
          db := s.db.create (Db.newRow uuid dto room) h (Db.newRow_fits hst) }
  | raises (room uuid) : ¬ dto.Storable →
      CreateStep s i dto (.insert i uuid) (.insert room)
        (s.goto i (.create dto) (.done (.error .prisma)))
  | publish (r room) : CreateStep s i dto (.go i) (.publishConfirmed r room)
      { s.goto i (.create dto) (.done (.reservation r room.type)) with
        published := s.published ++
          [eventOf .ReservationConfirmed "Hotel reservation confirmed." r (some room.type)] }

/-- the steps of a cancel -/
inductive CancelStep (s : State) (i : Nat) (id : String) : Pc → State → Prop where
  | notFound : CancelStep s i id .findFirst (s.goto i (.cancel id) (.done (.error .notFound)))
  | already (r : Reservation) : CancelStep s i id .findFirst
      (s.goto i (.cancel id) (.done (.cancelled r.id r.status)))
  | found (r) : s.db.findFirst id = some r → r.status ≠ .CANCELLED →
      CancelStep s i id .findFirst (s.goto i (.cancel id) .update)
  | missing : CancelStep s i id .update (s.goto i (.cancel id) (.done (.error .prisma)))
  | update (r) : (s.db.cancel id).findFirst id = some r → CancelStep s i id .update
      { s.goto i (.cancel id) (.publishCancelled r (s.db.roomType r.room_id)) with
        db := s.db.cancel id }
  | publish (r type) : CancelStep s i id (.publishCancelled r type)
      { s.goto i (.cancel id) (.done (.cancelled r.id r.status)) with
        published := s.published ++
          [eventOf .ReservationCancelled "Hotel reservation cancelled." r type] }

section
variable {s s' : State} {i : Nat} {t : Thread}

theorem stepCreate_spec {dto : CreateReservationDto} {pc : Pc}
    (h : stepCreate s i dto pc = some s') : CreateStep s i dto (.go i) pc s' := by
  cases pc with
  | findRooms =>
    obtain rfl := Option.some.inj h
    exact .rooms
  | count room rest =>
    rw [stepCreate] at h
    split at h
    · rename_i hunfit
      obtain rfl := Option.some.inj h
      exact .unfit room rest hunfit
    · rename_i hfit
      rw [Bool.not_eq_false] at hfit
      split at h
      · rename_i hfree
        obtain rfl := Option.some.inj h
        exact .free room rest hfit hfree
      · rename_i htaken
        obtain rfl := Option.some.inj h
        exact .taken room rest hfit htaken
  | publishConfirmed r room =>
    obtain rfl := Option.some.inj h
    exact .publish r room
  | airport => exact absurd h (by simp [stepCreate])
  | insert room => exact absurd h (by simp [stepCreate])
  | findFirst => exact absurd h (by simp [stepCreate])
  | update => exact absurd h (by simp [stepCreate])
  | publishCancelled r type => exact absurd h (by simp [stepCreate])
  | done r => exact absurd h (by simp [stepCreate])

theorem stepCancel_spec {id : String} {pc : Pc} (h : stepCancel s i id pc = some s') :
    CancelStep s i id pc s' := by
  cases pc with
  | findFirst =>
    simp only [stepCancel] at h
    split at h
    · obtain rfl := Option.some.inj h
      exact .notFound
    · rename_i r hr
      split at h
      · obtain rfl := Option.some.inj h
        exact .already r
      · rename_i hst
        obtain rfl := Option.some.inj h
        exact .found r hr hst
  | update =>
    simp only [stepCancel] at h
    split at h
    · obtain rfl := Option.some.inj h
      exact .missing
    · rename_i r hr
      obtain rfl := Option.some.inj h
      exact .update r hr
  | publishCancelled r type =>
    obtain rfl := Option.some.inj h
    exact .publish r type
  | airport => exact absurd h (by simp [stepCancel])
  | findRooms => exact absurd h (by simp [stepCancel])
  | count room rest => exact absurd h (by simp [stepCancel])
  | insert room => exact absurd h (by simp [stepCancel])
  | publishConfirmed r room => exact absurd h (by simp [stepCancel])
  | done r => exact absurd h (by simp [stepCancel])

theorem stepAirport_spec {answer : Option Bool} (h : stepAirport s i t answer = some s') :
    ∃ dto pc, t = ⟨.create dto, pc⟩ ∧ CreateStep s i dto (.airport i answer) pc s' := by
  unfold stepAirport at h
  split at h
  · rename_i dto
    split at h
    · rename_i hfalse
      obtain rfl := Option.some.inj h
      subst hfalse
      exact ⟨dto, .airport, rfl, .notCleared⟩
    · rename_i hclear
      obtain rfl := Option.some.inj h
      exact ⟨dto, .airport, rfl, .cleared answer hclear⟩
  · exact absurd h (by simp)

theorem stepInsert_spec {uuid : String} (h : stepInsert s i t uuid = some s') :
    ∃ dto pc, t = ⟨.create dto, pc⟩ ∧ CreateStep s i dto (.insert i uuid) pc s' := by
  unfold stepInsert at h
  split at h
  · rename_i dto room
    split at h
    · exact absurd h (by simp)
    · rename_i hid
      split at h
      · rename_i hst
        obtain rfl := Option.some.inj h
        exact ⟨dto, .insert room, rfl, .insert room uuid hid hst⟩
      · rename_i hst
        obtain rfl := Option.some.inj h
        exact ⟨dto, .insert room, rfl, .raises room uuid hst⟩
  · exact absurd h (by simp)

/-- **A step is an arrival, or a step of a create or of a cancel that has arrived.** -/
theorem machine_steps {act : Act} (h : machine s act = some s') :
    (∃ call, act = .arrive call ∧ s' = { s with threads := s.threads ++ [⟨call, call.entry⟩] }) ∨
    (∃ i dto pc, s.threads[i]? = some ⟨.create dto, pc⟩ ∧ CreateStep s i dto act pc s') ∨
    ∃ i id pc, act = .go i ∧ s.threads[i]? = some ⟨.cancel id, pc⟩ ∧ CancelStep s i id pc s' := by
  cases act with
  | arrive call => exact .inl ⟨call, rfl, (Option.some.inj h).symm⟩
  | go i =>
    obtain ⟨⟨call, pc⟩, ht, hs⟩ := Option.bind_eq_some_iff.mp h
    cases call with
    | create dto => exact .inr (.inl ⟨i, dto, pc, ht, stepCreate_spec hs⟩)
    | cancel id => exact .inr (.inr ⟨i, id, pc, rfl, ht, stepCancel_spec hs⟩)
  | airport i answer =>
    obtain ⟨t, ht, hs⟩ := Option.bind_eq_some_iff.mp h
    obtain ⟨dto, pc, rfl, hstep⟩ := stepAirport_spec hs
    exact .inr (.inl ⟨i, dto, pc, ht, hstep⟩)
  | insert i uuid =>
    obtain ⟨t, ht, hs⟩ := Option.bind_eq_some_iff.mp h
    obtain ⟨dto, pc, rfl, hstep⟩ := stepInsert_spec hs
    exact .inr (.inl ⟨i, dto, pc, ht, hstep⟩)

end

/-! ## what it does to the shared state -/

/-- the moves of a request that do not write: an `insert` is only reached after an overlap count
of zero -/
inductive Moves (db : Db) : Call → Pc → Pc → Prop where
  | finish (call pc r) : Moves db call pc (.done r)
  | cleared (dto) : Moves db (.create dto) .airport .findRooms
  | search (dto pc rooms) : Moves db (.create dto) pc (nextRoom dto rooms)
  | free (dto room rest) : db.count room.id dto = 0 →
      Moves db (.create dto) (.count room rest) (.insert room)
  | found (id) : Moves db (.cancel id) .findFirst .update

/-- the effect of each action on the shared state -/
inductive Eff (s : State) : Act → State → Prop where
  | arrive (call) : Eff s (.arrive call) { s with threads := s.threads ++ [⟨call, call.entry⟩] }
  | move (act i call pc pc' ev) : s.threads[i]? = some ⟨call, pc⟩ → Moves s.db call pc pc' →
      Eff s act { s.goto i call pc' with published := s.published ++ ev }
  | insert (i dto room uuid) (h : uuid ∉ s.db.reservations.map Reservation.id)
      (hst : dto.Storable) : s.threads[i]? = some ⟨.create dto, .insert room⟩ →
      Eff s (.insert i uuid)
        { s.goto i (.create dto) (.publishConfirmed (Db.newRow uuid dto room) room) with
          db := s.db.create (Db.newRow uuid dto room) h (Db.newRow_fits hst) }
  | cancel (i id r type) : s.threads[i]? = some ⟨.cancel id, .update⟩ →
      Eff s (.go i) { s.goto i (.cancel id) (.publishCancelled r type) with db := s.db.cancel id }

theorem Eff.quiet {s : State} (act : Act) {i : Nat} {call : Call} {pc pc' : Pc}
    (ht : s.threads[i]? = some ⟨call, pc⟩) (hm : Moves s.db call pc pc') :
    Eff s act (s.goto i call pc') := by
  have e := Eff.move act i call pc pc' [] ht hm
  rwa [List.append_nil] at e

theorem searchRooms_moves (db : Db) (dto : CreateReservationDto) (pc : Pc) (rooms : List Room) :
    Moves db (.create dto) pc (searchRooms dto rooms) := by
  obtain ⟨max, e⟩ | e := searchRooms_cases dto rooms
  · rw [e]
    exact .finish _ _ _
  · rw [e]
    exact .search dto _ _

theorem CreateStep.eff {s s' : State} {i : Nat} {dto : CreateReservationDto} {act : Act} {pc : Pc}
    (ht : s.threads[i]? = some ⟨.create dto, pc⟩) (h : CreateStep s i dto act pc s') :
    Eff s act s' := by
  cases h with
  | notCleared => exact Eff.quiet _ ht (.finish _ _ _)
  | cleared answer hne => exact Eff.quiet _ ht (.cleared dto)
  | rooms => exact Eff.quiet _ ht (searchRooms_moves _ dto _ _)
  | unfit room rest hunfit => exact Eff.quiet _ ht (.finish _ _ _)
  | free room rest hfit hfree => exact Eff.quiet _ ht (.free dto room rest hfree)
  | taken room rest hfit htaken => exact Eff.quiet _ ht (.search dto _ rest)
  | insert room uuid hid hst => exact .insert i dto room uuid hid hst ht
  | raises room uuid hst => exact Eff.quiet _ ht (.finish _ _ _)
  | publish r room => exact .move _ i _ _ _ _ ht (.finish _ _ _)

theorem CancelStep.eff {s s' : State} {i : Nat} {id : String} {pc : Pc}
    (ht : s.threads[i]? = some ⟨.cancel id, pc⟩) (h : CancelStep s i id pc s') :
    Eff s (.go i) s' := by
  cases h with
  | notFound => exact Eff.quiet _ ht (.finish _ _ _)
  | already r => exact Eff.quiet _ ht (.finish _ _ _)
  | found r hr hst => exact Eff.quiet _ ht (.found id)
  | missing => exact Eff.quiet _ ht (.finish _ _ _)
  | update r hr => exact .cancel i id _ _ ht
  | publish r type => exact .move _ i _ _ _ _ ht (.finish _ _ _)

/-- **Every step of the machine has one of the listed effects.** -/
theorem machine_eff {s s' : State} {act : Act} (h : machine s act = some s') : Eff s act s' := by
  obtain ⟨call, rfl, rfl⟩ | ⟨i, dto, pc, ht, hstep⟩ | ⟨i, id, pc, rfl, ht, hstep⟩ := machine_steps h
  · exact .arrive call
  · exact hstep.eff ht
  · exact hstep.eff ht

end Hotel
