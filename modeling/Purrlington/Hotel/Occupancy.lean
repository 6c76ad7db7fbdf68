import Purrlington.Hotel.DoubleBooking
import Purrlington.Lib.Dict
import Mathlib.Algebra.Order.BigOperators.Group.List
import Mathlib.Algebra.Order.Ring.Int

/-!
# Hotel: occupancy

`RoomsService.findAll` reports how many guests are in each room on the current day.

* `Db.groupBy`, `findAll`   the two queries and the report, and `current_guests_eq`, what the report
              counts;
* `machine_turn`   what a request's step does to the table of requests, with the rooms that its
              search holds;
* `Serial`    requests are served one at a time;
* `Fits`      a create inserts only a `guest_count` that its room has the capacity for.  The search
              compares the capacity with the length of a party that is given, and the row stores
              `guest_count`;
* `occupancy_within_capacity_iff`   the report stays within the capacities exactly in the runs of
              such inserts.
-/

set_option linter.unusedSectionVars false

namespace Hotel
open SM

/-! ## the report -/

/-- the `where` clause of the occupancy query -/
def Reservation.occupies (currentDay : Int) (r : Reservation) : Bool :=
  decide (r.status = .CONFIRMED ∧ r.check_in_day ≤ currentDay ∧ currentDay < r.check_out_day)

/-- `SUM`, which is null of no rows -/
def sqlSum : List Int → Option Int
  | [] => none
  | n :: l => some (n :: l).sum

/-- `by: ['room_id']` with `_sum: { guest_count: true }` -/
structure ReservationGroup where
  room_id : String
  guest_count : Option Int

/-- `prisma.reservation.groupBy` -/
def Db.groupBy (db : Db) (currentDay : Int) : List ReservationGroup :=
  let rows := db.reservations.filter (Reservation.occupies currentDay)
  (rows.map Reservation.room_id).dedup.map fun roomId =>
    ⟨roomId, sqlSum ((rows.filter fun r => r.room_id = roomId).map Reservation.guest_count)⟩

structure RoomReport where
  id : String
  type : RoomType
  capacity : Int
  price_per_night : Int
  current_guests : Int
  deriving DecidableEq

def findAll (db : Db) (currentDay : Int) : List RoomReport :=
  let occupiedRooms := db.groupBy currentDay
  let currentGuestsByRoomId := Dict.ofList
    (occupiedRooms.map fun group => (group.room_id, group.guest_count.getD 0))
  db.rooms.map fun room => ⟨room.id, room.type, room.capacity, room.price_per_night,
    (currentGuestsByRoomId.get? room.id).getD 0⟩

/-- the rows of one room that the report of a day counts -/
def Db.staying (db : Db) (currentDay : Int) (roomId : String) : List Reservation :=
  (db.reservations.filter (Reservation.occupies currentDay)).filter fun r => r.room_id = roomId

theorem sqlSum_getD (l : List Int) : (sqlSum l).getD 0 = l.sum := by
  cases l <;> rfl

/-- **What the report counts**: the guests of the CONFIRMED reservations of the room that have
begun and not ended. -/
theorem mem_findAll {db : Db} {currentDay : Int} {rep : RoomReport} :
    rep ∈ findAll db currentDay ↔ ∃ room ∈ db.rooms, rep = ⟨room.id, room.type, room.capacity,
      room.price_per_night, ((db.staying currentDay room.id).map Reservation.guest_count).sum⟩ := by
  have hcount : ∀ roomId, ((Dict.ofList ((db.groupBy currentDay).map fun group =>
      (group.room_id, group.guest_count.getD 0))).get? roomId).getD 0 =
      ((db.staying currentDay roomId).map Reservation.guest_count).sum := by
    intro roomId
    rw [Db.groupBy, List.map_map]
    refine (congrArg (·.getD 0) (Dict.get?_ofList_map (fun roomId =>
      (sqlSum ((db.staying currentDay roomId).map Reservation.guest_count)).getD 0) _ roomId)).trans ?_
    split
    · exact sqlSum_getD _
    · rename_i h
      rw [List.mem_dedup] at h
      have hnil : db.staying currentDay roomId = [] := by
        rw [Db.staying, List.filter_eq_nil_iff]
        intro r hr e
        exact h (List.mem_map.mpr ⟨r, hr, of_decide_eq_true e⟩)
      rw [hnil]
      rfl
  rw [findAll, List.mem_map]
  constructor
  · rintro ⟨room, hroom, rfl⟩
    exact ⟨room, hroom, by rw [hcount]⟩
  · rintro ⟨room, hroom, rfl⟩
    exact ⟨room, hroom, by rw [hcount]⟩

theorem mem_staying {db : Db} {currentDay : Int} {roomId : String} {r : Reservation} :
    r ∈ db.staying currentDay roomId ↔ r ∈ db.reservations ∧
      (r.status = .CONFIRMED ∧ r.check_in_day ≤ currentDay ∧ currentDay < r.check_out_day) ∧
      r.room_id = roomId := by
  rw [Db.staying, List.mem_filter, List.mem_filter, Reservation.occupies, decide_eq_true_iff,
    decide_eq_true_iff, and_assoc]

/-! ## the turn of one request -/

def Pc.finished : Pc → Bool
  | .done _ => true
  | _ => false

/-- the rooms that a create holds on to are rooms of the requested type, and the one it has come
to is large enough for the party -/
def Pc.Placed (rooms : List Room) (dto : CreateReservationDto) : Pc → Prop
  | .airport => dto.check_in_day < dto.check_out_day
  | .findRooms => dto.check_in_day < dto.check_out_day
  | .count room rest => dto.check_in_day < dto.check_out_day ∧ dto.partySize ≤ room.capacity ∧
      room :: rest <:+ rooms.filter (fun r => r.type = dto.room_type)
  | .insert room => dto.check_in_day < dto.check_out_day ∧ dto.partySize ≤ room.capacity ∧
      room ∈ rooms.filter (fun r => r.type = dto.room_type)
  | _ => True

def Thread.Placed (rooms : List Room) : Thread → Prop
  | ⟨.create dto, pc⟩ => pc.Placed rooms dto
  | ⟨.cancel _, _⟩ => True

theorem nextRoom_placed {rooms l : List Room} {dto : CreateReservationDto}
    (hdays : dto.check_in_day < dto.check_out_day)
    (hl : l <:+ rooms.filter (fun r => r.type = dto.room_type)) :
    (nextRoom dto l).Placed rooms dto := by
  obtain ⟨_, e⟩ | ⟨small, room, rest, rfl, _, hfits, e⟩ := nextRoom_cases dto l
  · rw [e]
    trivial
  · rw [e]
    exact ⟨hdays, hfits, (List.suffix_append small (room :: rest)).trans hl⟩

theorem Call.entry_placed (rooms : List Room) (call : Call) :
    Thread.Placed rooms ⟨call, call.entry⟩ := by
  cases call with
  | create dto =>
    show Pc.Placed rooms dto (Call.entry (.create dto))
    rw [Call.entry]
    split
    · trivial
    · rename_i h
      show dto.check_in_day < dto.check_out_day
      omega
  | cancel id => trivial

/-- one request takes its next statement -/
structure Turn (s s' : State) (i : Nat) (t t' : Thread) : Prop where
  here : s.threads[i]? = some t
  active : t.pc.finished = false
  moved : s'.threads = s.threads.set i t'
  call : t'.call = t.call
  rooms : s'.db.rooms = s.db.rooms
  placed : t.Placed s.db.rooms → t'.Placed s.db.rooms

theorem CreateStep.turn {s s' : State} {i : Nat} {dto : CreateReservationDto} {act : Act} {pc : Pc}
    (ht : s.threads[i]? = some ⟨.create dto, pc⟩) (h : CreateStep s i dto act pc s') :
    ∃ t', Turn s s' i ⟨.create dto, pc⟩ t' := by
  cases h with
  | notCleared => exact ⟨_, ht, rfl, rfl, rfl, rfl, fun _ => trivial⟩
  | cleared answer hne => exact ⟨_, ht, rfl, rfl, rfl, rfl, fun hp => hp⟩
  | rooms =>
    refine ⟨_, ht, rfl, rfl, rfl, rfl, fun hp => ?_⟩
    show Pc.Placed s.db.rooms dto (searchRooms dto (s.db.findRooms dto.room_type))
    obtain ⟨max, e⟩ | e := searchRooms_cases dto (s.db.findRooms dto.room_type)
    · rw [e]
      trivial
    · rw [e]
      exact nextRoom_placed hp (List.suffix_refl _)
  | unfit room rest hunfit => exact ⟨_, ht, rfl, rfl, rfl, rfl, fun _ => trivial⟩
  | free room rest hfit hfree =>
    exact ⟨_, ht, rfl, rfl, rfl, rfl, fun hp => ⟨hp.1, hp.2.1, hp.2.2.subset List.mem_cons_self⟩⟩
  | taken room rest hfit htaken =>
    exact ⟨_, ht, rfl, rfl, rfl, rfl,
      fun hp => nextRoom_placed hp.1 ((List.suffix_cons room rest).trans hp.2.2)⟩
  | insert room uuid hid hst => exact ⟨_, ht, rfl, rfl, rfl, rfl, fun _ => trivial⟩
  | raises room uuid hst => exact ⟨_, ht, rfl, rfl, rfl, rfl, fun _ => trivial⟩
  | publish r room => exact ⟨_, ht, rfl, rfl, rfl, rfl, fun _ => trivial⟩

theorem CancelStep.turn {s s' : State} {i : Nat} {id : String} {pc : Pc}
    (ht : s.threads[i]? = some ⟨.cancel id, pc⟩) (h : CancelStep s i id pc s') :
    ∃ t', Turn s s' i ⟨.cancel id, pc⟩ t' := by
  cases h with
  | notFound => exact ⟨_, ht, rfl, rfl, rfl, rfl, fun _ => trivial⟩
  | already r => exact ⟨_, ht, rfl, rfl, rfl, rfl, fun _ => trivial⟩
  | found r hr hst => exact ⟨_, ht, rfl, rfl, rfl, rfl, fun _ => trivial⟩
  | missing => exact ⟨_, ht, rfl, rfl, rfl, rfl, fun _ => trivial⟩
  | update r hr => exact ⟨_, ht, rfl, rfl, rfl, rfl, fun _ => trivial⟩
  | publish r type => exact ⟨_, ht, rfl, rfl, rfl, rfl, fun _ => trivial⟩

/-- **A step is an arrival or the turn of one unfinished request.** -/
theorem machine_turn {s s' : State} {act : Act} (h : machine s act = some s') :
    (∃ call, act = .arrive call ∧ s' = { s with threads := s.threads ++ [⟨call, call.entry⟩] }) ∨
    ∃ i t t', Turn s s' i t t' := by
  obtain harrive | ⟨i, dto, pc, ht, hstep⟩ | ⟨i, id, pc, rfl, ht, hstep⟩ := machine_steps h
  · exact .inl harrive
  · exact .inr ⟨i, _, hstep.turn ht⟩
  · exact .inr ⟨i, _, hstep.turn ht⟩

/-! ## one request at a time -/

/-- a request arrives only when every earlier one has its answer -/
def Serial (s : State) : Act → Prop
  | .arrive _ => ∀ t ∈ s.threads, t.pc.finished = true
  | .go _ => True
  | .airport _ _ => True
  | .insert _ _ => True

instance : ∀ s act, Decidable (Serial s act)
  | s, .arrive _ => inferInstanceAs (Decidable (∀ t ∈ s.threads, t.pc.finished = true))
  | _, .go _ => inferInstanceAs (Decidable True)
  | _, .airport _ _ => inferInstanceAs (Decidable True)
  | _, .insert _ _ => inferInstanceAs (Decidable True)

/-- the room that a create inserts into has the capacity for the `guest_count` of the row -/
def Fits (s : State) : Act → Prop
  | .insert i _ => ∀ p ∈ s.inserting i, p.1.guest_count ≤ p.2.capacity
  | .arrive _ => True
  | .go _ => True
  | .airport _ _ => True

instance : ∀ s act, Decidable (Fits s act)
  | s, .insert i _ =>
    inferInstanceAs (Decidable (∀ p ∈ s.inserting i, p.1.guest_count ≤ p.2.capacity))
  | _, .arrive _ => inferInstanceAs (Decidable True)
  | _, .go _ => inferInstanceAs (Decidable True)
  | _, .airport _ _ => inferInstanceAs (Decidable True)

/-- at most one request is unfinished -/
def State.Single (s : State) : Prop :=
  ∃ i, ∀ (j : Nat) (t : Thread), s.threads[j]? = some t → t.pc.finished = false → j = i

theorem State.Single.step {s s' : State} {act : Act} (h : s.Single) (hser : Serial s act)
    (hs : machine s act = some s') : s'.Single := by
  rcases machine_turn hs with ⟨call, rfl, rfl⟩ | ⟨i, t, t', hturn⟩
  · refine ⟨s.threads.length, forall_snoc ?_ fun _ => rfl⟩
    intro j t hj hact
    rw [hser t (List.mem_of_getElem? hj)] at hact
    exact absurd hact (by simp)
  · obtain ⟨k, hk⟩ := h
    refine ⟨i, ?_⟩
    rw [hturn.moved]
    refine forall_set (P := fun j (u : Thread) => u.pc.finished = false → j = i) ?_ fun _ => rfl
    intro j u _ hj hact
    exact (hk j u hj hact).trans (hk i t hturn.here hturn.active).symm

theorem State.Single.unraced {s : State} (h : s.Single) (act : Act) : Unraced s act := by
  cases act with
  | insert i uuid =>
    intro p hp j _ hji q hq
    obtain ⟨k, hk⟩ := h
    have hi := hk i _ (State.inserting_eq_some.mp hp).1 rfl
    have hj := hk j _ (State.inserting_eq_some.mp hq).1 rfl
    exact absurd (hj.trans hi.symm) hji
  | arrive call => trivial
  | go i => trivial
  | airport i answer => trivial

/-! ## what a run stores -/

/-- requests hold rooms of the table, rows count at least one guest -/
structure Listed (s : State) : Prop where
  placed : ∀ (i : Nat) (t : Thread), s.threads[i]? = some t → t.Placed s.db.rooms
  counted : ∀ r ∈ s.db.reservations, 1 ≤ r.guest_count

theorem cancelRow_guest_count (id : String) (r : Reservation) :
    (Db.cancelRow id r).guest_count = r.guest_count := by
  unfold Db.cancelRow; split <;> rfl

theorem cancelRow_room_id (id : String) (r : Reservation) :
    (Db.cancelRow id r).room_id = r.room_id := by
  unfold Db.cancelRow; split <;> rfl

theorem forall_rows_step {P : Reservation → Prop} {s s' : State} {act : Act}
    (hs : machine s act = some s') (h : ∀ r ∈ s.db.reservations, P r)
    (hcancel : ∀ id r, P r → P (Db.cancelRow id r))
    (hinsert : ∀ i uuid dto room, act = .insert i uuid → s.inserting i = some (dto, room) →
      P (Db.newRow uuid dto room)) : ∀ r ∈ s'.db.reservations, P r := by
  cases machine_eff hs with
  | arrive call => exact h
  | move act i call pc pc' ev ht hm => exact h
  | insert i dto room uuid hid hst ht =>
    intro r hr
    rcases List.mem_append.mp hr with hr | hr
    · exact h r hr
    · rw [List.mem_singleton.mp hr]
      exact hinsert i uuid dto room rfl (State.inserting_eq_some.mpr ⟨ht, hst⟩)
  | cancel i id r type ht =>
    intro r' hr'
    obtain ⟨r, hr, rfl⟩ := List.mem_map.mp hr'
    exact hcancel id r (h r hr)

theorem machine_rooms {s s' : State} {act : Act} (hs : machine s act = some s') :
    s'.db.rooms = s.db.rooms := by
  rcases machine_turn hs with ⟨call, _, rfl⟩ | ⟨i, t, t', hturn⟩
  · rfl
  · exact hturn.rooms

theorem Listed.step {s s' : State} {act : Act} (h : Listed s) (hs : machine s act = some s') :
    Listed s' := by
  constructor
  · rw [machine_rooms hs]
    rcases machine_turn hs with ⟨call, rfl, rfl⟩ | ⟨i, t, t', hturn⟩
    · exact forall_snoc h.placed (call.entry_placed s.db.rooms)
    · rw [hturn.moved]
      exact forall_set (fun j u _ hj => h.placed j u hj) (hturn.placed (h.placed i t hturn.here))
  · apply forall_rows_step hs h.counted
    · intro id r hr
      rw [cancelRow_guest_count]
      exact hr
    · intro i uuid dto room _ _
      exact dto.guest_count_min

theorem Listed.inserting {s : State} {i : Nat} {dto : CreateReservationDto} {room : Room}
    (h : Listed s) (hi : s.inserting i = some (dto, room)) :
    dto.check_in_day < dto.check_out_day ∧ room ∈ s.db.rooms := by
  obtain ⟨hdays, _, hroom⟩ := h.placed i _ (State.inserting_eq_some.mp hi).1
  exact ⟨hdays, (List.mem_filter.mp hroom).1⟩

/-- the state of a run of serial requests whose rows fit -/
structure Housed (s : State) : Prop where
  single : s.Single
  disjoint : Disjoint s
  listed : Listed s
  fits : ∀ r ∈ s.db.reservations, ∃ room ∈ s.db.rooms, room.id = r.room_id ∧
    r.guest_count ≤ room.capacity

theorem Housed.step {s s' : State} {act : Act} (h : Housed s) (hser : Serial s act)
    (hfit : Fits s act) (hs : machine s act = some s') : Housed s' := by
  refine ⟨h.single.step hser hs, h.disjoint.step (h.single.unraced act) hs, h.listed.step hs, ?_⟩
  rw [machine_rooms hs]
  apply forall_rows_step hs h.fits
  · intro id r hr
    rw [cancelRow_room_id, cancelRow_guest_count]
    exact hr
  · rintro i uuid dto room rfl hi
    exact ⟨room, (h.listed.inserting hi).2, rfl, hfit (dto, room) hi⟩

/-! ## the reported guests -/

theorem Db.room_ext {db : Db} {a b : Room} (ha : a ∈ db.rooms) (hb : b ∈ db.rooms)
    (h : a.id = b.id) : a = b := by
  have hnd : (db.rooms.map Room.id).Nodup := by
    apply List.pairwise_map.mpr
    apply db.rooms_sorted.imp
    intro a b hlt e
    rw [e] at hlt
    exact String.lt_irrefl _ hlt
  exact List.inj_on_of_nodup_map hnd ha hb h

/-- without double bookings at most one reservation is staying in a room -/
theorem staying_subsingleton {db : Db} (h : NoDoubleBooking db) {currentDay : Int} {roomId : String}
    {a b : Reservation} (ha : a ∈ db.staying currentDay roomId)
    (hb : b ∈ db.staying currentDay roomId) : a = b := by
  obtain ⟨hma, ⟨hsa, ha1, ha2⟩, hra⟩ := mem_staying.mp ha
  obtain ⟨hmb, ⟨hsb, hb1, hb2⟩, hrb⟩ := mem_staying.mp hb
  apply List.inj_on_of_nodup_map db.ids_nodup hma hmb
  by_contra hne
  have hdays : a.overlaps b := by
    constructor <;> omega
  exact h a hma b hmb hne ⟨hsa, hsb, hra.trans hrb.symm, hdays⟩

theorem staying_nodup (db : Db) (currentDay : Int) (roomId : String) :
    (db.staying currentDay roomId).Nodup :=
  (db.ids_nodup.of_map.filter _).filter _

theorem sum_map_le {α : Type} {l : List α} {f : α → Int} {c : Int} (hnd : l.Nodup)
    (hone : ∀ a ∈ l, ∀ b ∈ l, a = b) (hle : ∀ a ∈ l, f a ≤ c) (hc : 0 ≤ c) :
    (l.map f).sum ≤ c := by
  rcases l with _ | ⟨a, _ | ⟨b, l⟩⟩
  · exact hc
  · rw [List.map_singleton, List.sum_singleton]
    exact hle a List.mem_cons_self
  · have e := hone a List.mem_cons_self b (List.mem_cons_of_mem _ List.mem_cons_self)
    rw [e, List.nodup_cons] at hnd
    exact absurd List.mem_cons_self hnd.1

theorem Housed.within {s : State} (h : Housed s) (hcap : ∀ room ∈ s.db.rooms, 0 ≤ room.capacity)
    (currentDay : Int) : ∀ rep ∈ findAll s.db currentDay, rep.current_guests ≤ rep.capacity := by
  intro rep hrep
  obtain ⟨room, hroom, rfl⟩ := mem_findAll.mp hrep
  apply sum_map_le (staying_nodup s.db currentDay room.id)
  · intro a ha b hb
    exact staying_subsingleton h.disjoint.rows ha hb
  · intro r hr
    obtain ⟨hmem, _, hid⟩ := mem_staying.mp hr
    obtain ⟨room', hroom', hid', hle⟩ := h.fits r hmem
    obtain rfl := Db.room_ext hroom hroom' (hid.symm.trans hid'.symm)
    exact hle
  · exact hcap room hroom

theorem guest_count_le_reported {s : State} (h : Listed s) {currentDay : Int} {roomId : String}
    {r : Reservation} (hr : r ∈ s.db.staying currentDay roomId) :
    r.guest_count ≤ ((s.db.staying currentDay roomId).map Reservation.guest_count).sum := by
  apply List.single_le_sum
  · intro n hn
    obtain ⟨r', hr', rfl⟩ := List.mem_map.mp hn
    have := h.counted r' (mem_staying.mp hr').1
    omega
  · exact List.mem_map_of_mem hr

/-! ## the law, and where it fails -/

/-- every room is reported with at most the guests it has the capacity for -/
def WithinCapacity (db : Db) : Prop :=
  ∀ currentDay, ∀ rep ∈ findAll db currentDay, rep.current_guests ≤ rep.capacity

/-- the row of an insert is counted on its first day, so a report within the capacities is one of
an insert that fits -/
theorem fits_of_withinCapacity {s s' : State} {act : Act} (h : Listed s)
    (hs : machine s act = some s') (hw : WithinCapacity s'.db) : Fits s act := by
  cases act with
  | insert i uuid =>
    rintro ⟨dto, room⟩ hi
    have hl := h.step hs
    obtain ⟨ht, hst⟩ := State.inserting_eq_some.mp hi
    obtain ⟨hdays, hroom⟩ := h.inserting hi
    have hid := insert_fresh ht hs
    rw [machine_insert ht hst hid] at hs
    obtain rfl := Option.some.inj hs
    have hstay : Db.newRow uuid dto room ∈
        (s.db.create (Db.newRow uuid dto room) hid (Db.newRow_fits hst)).staying dto.check_in_day room.id :=
      mem_staying.mpr ⟨List.mem_append_right _ List.mem_cons_self, ⟨rfl, le_refl _, hdays⟩, rfl⟩
    calc dto.guest_count
        ≤ (((s.db.create (Db.newRow uuid dto room) hid (Db.newRow_fits hst)).staying dto.check_in_day room.id).map
            Reservation.guest_count).sum := guest_count_le_reported hl hstay
      _ ≤ room.capacity := hw dto.check_in_day _ (mem_findAll.mpr ⟨room, hroom, rfl⟩)
  | arrive call => trivial
  | go i => trivial
  | airport i answer => trivial

/-- **When occupancy stays within capacity.**  From an empty reservation table, with requests
served one at a time, no report of any state on the way shows more guests in a room than its
capacity, on any day, exactly if no capacity is negative and every insert fits. -/
theorem occupancy_within_capacity_iff (db₀ : Db) (h₀ : db₀.reservations = []) (acts : List Act)
    (s : State) (hrun : machine.Runs Serial (State.init db₀) acts s) :
    (∀ bs t, bs <+: acts → machine.Runs Serial (State.init db₀) bs t → WithinCapacity t.db) ↔
    (∀ room ∈ db₀.rooms, 0 ≤ room.capacity) ∧ machine.Runs Fits (State.init db₀) acts s := by
  have hlisted : Listed (State.init db₀) := by
    refine ⟨fun i t ht => absurd ht (by simp [State.init]), ?_⟩
    show ∀ r ∈ db₀.reservations, 1 ≤ r.guest_count
    rw [h₀]
    exact fun r hr => absurd hr (by simp)
  constructor
  · intro hall
    constructor
    · intro room hroom
      have hempty : db₀.staying 0 room.id = [] := by
        rw [Db.staying, h₀]
        rfl
      have := hall [] (State.init db₀) (List.nil_prefix) rfl 0 _ (mem_findAll.mpr ⟨room, hroom, rfl⟩)
      rw [show (State.init db₀).db = db₀ from rfl, hempty] at this
      exact this
    · apply hrun.guarded
      intro bs t act t' cs e hbs hser hs _
      have hlt : Listed t := hbs.inv (fun s a t h _ hst => h.step hst) hlisted
      apply fits_of_withinCapacity hlt hs
      exact hall (bs ++ [act]) t' ⟨cs, by rw [e, List.append_assoc]; rfl⟩ (hbs.snoc hser hs)
  · rintro ⟨hcap, hfits⟩ bs t ⟨cs, rfl⟩ hbs
    obtain ⟨t', ht', _⟩ := hfits.split
    obtain rfl := hbs.det ht'
    have hinit : Housed (State.init db₀) := by
      refine ⟨⟨0, fun j u hj => absurd hj (by simp [State.init])⟩, ⟨?_, ?_⟩, hlisted, ?_⟩
      · show NoDoubleBooking db₀
        intro a ha
        rw [h₀] at ha
        exact absurd ha (by simp)
      · intro i u hu
        exact absurd hu (by simp [State.init])
      · show ∀ r ∈ db₀.reservations, _
        rw [h₀]
        exact fun r hr => absurd hr (by simp)
    have hrooms : t.db.rooms = db₀.rooms :=
      hbs.inv (P := fun u => u.db.rooms = db₀.rooms)
        (fun s a u h _ hst => (machine_rooms hst).trans h) rfl
    have ht : Housed t :=
      (hbs.and ht').inv (fun s a u h hg hst => h.step hg.1 hg.2 hst) hinit
    exact ht.within (hrooms ▸ hcap)

/-- a party of one that gives its guest count as five -/
def miscounted : CreateReservationDto :=
  ⟨"ana", .STANDARD, 5, some ["ana"], 1, 3, by decide⟩

def createAlone (dto : CreateReservationDto) : List Act :=
  [.arrive (.create dto), .airport 0 (some true), .go 0, .go 0, .insert 0 "r-0", .go 0]

theorem occupancy_within_capacity_stay :
    ∃ s, machine.Runs Serial (State.init oneRoomDb) (createAlone (stay "ana" 1 3)) s ∧
      s.db.reservations.length = 1 ∧ WithinCapacity s.db :=
  ⟨_, Machine.runs_iff_runG.mpr rfl, rfl,
    (occupancy_within_capacity_iff oneRoomDb rfl (createAlone (stay "ana" 1 3)) _
      (Machine.runs_iff_runG.mpr rfl)).mpr ⟨by decide, Machine.runs_iff_runG.mpr rfl⟩ _ _
      (List.prefix_refl _) (Machine.runs_iff_runG.mpr rfl)⟩

/-- **A room for two is reported with five guests.** -/
theorem overfull_room :
    ∃ s, machine.Runs Serial (State.init oneRoomDb) (createAlone miscounted) s ∧
      findAll s.db 1 = [⟨"room-standard-01", .STANDARD, 2, 100, 5⟩] ∧ ¬ WithinCapacity s.db := by
  refine ⟨_, Machine.runs_iff_runG.mpr rfl, by decide, ?_⟩
  intro h
  exact absurd (h 1 ⟨"room-standard-01", .STANDARD, 2, 100, 5⟩ (by decide)) (by decide)

end Hotel
