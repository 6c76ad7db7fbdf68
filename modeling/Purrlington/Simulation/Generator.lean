import Purrlington.Airport.Gate
import Purrlington.Hotel.Lifecycle
import Purrlington.Beach.Bookings
import Purrlington.Simulation.Calendar
import Purrlington.Lib.Dict

/-!
# Simulation: the traffic generator

While the map page is open, `useTrafficGenerator` keeps timers going, and each that fires takes a
synthetic guest one step further through the resort.  A step runs up to its next await at once; the
requests, the steps of the services and the other clients interleave at will.

* `Next`, `Wait`      what a step does up to its next await, and what it goes on with after it;
* `handle`            the four stage handlers;
* `Wait.resume`       the rest of a handler, from the answer of its request;
* `State`, `machine`  the generator, the hotel and the beach together;
* `Balanced`          on a page that runs, timers and steps make up three loops;
* `three_loops`       and the questions to the parrot keep their distance.
-/

set_option linter.unusedSectionVars false

namespace Simulation
open SM

/-! ## what comes from outside -/

/-- what the handlers read of a `GuestProfile` -/
structure GuestProfile where
  id : String
  name : String
  surname : String
  age : Nat
  passport : Airport.PassportType
  priority : Airport.Priority
  disability : Bool
  deriving DecidableEq

structure Env where
  trafficGeneratorEnabled : Bool
  parrotChatCooldownMs : Nat
  anchor : ℤ
  gameSpeed : ℚ

/-- where the path of a POST to the beach leads -/
inductive ActivityRoute where
  | book (activityId : String)
  | cancel (activityId : String)

def ActivityRoute.call (visitorId : String) : ActivityRoute → Beach.Call
  | .book activityId => .book activityId visitorId
  | .cancel activityId => .cancel activityId visitorId

/-- ids are put into paths as they are: `reservationAt` is the id that the hotel reads out of the path of
a DELETE, and `activityAt` the use case that a path of the beach leads to -/
structure Outside where
  env : Env
  syntheticGuests : List GuestProfile
  reservationAt : String → Option String
  activityAt : String → Option ActivityRoute

/-- `Math.random()` -/
abbrev Random := { u : ℚ // 0 ≤ u ∧ u < 1 }

def randomInt (u : Random) (min max : ℤ) : ℤ := ⌊u.1 * ((max - min + 1 : ℤ) : ℚ)⌋ + min

def sample {α : Type} (u : Random) (items : List α) : Option α :=
  items[⌊u.1 * (items.length : ℚ)⌋.toNat]?

/-- the random numbers that a step may draw when it starts -/
structure Dice where
  guest : Random
  action : Random
  checkIn : Random
  roomType : Random
  guests : Random
  nights : Random
  question : Random

theorem min_le_randomInt (u : Random) {min max : ℤ} (h : min ≤ max) : min ≤ randomInt u min max := by
  have hpos : (0 : ℚ) ≤ ((max - min + 1 : ℤ) : ℚ) := Int.cast_nonneg (by omega)
  have hfloor : 0 ≤ ⌊u.1 * ((max - min + 1 : ℤ) : ℚ)⌋ := Int.floor_nonneg.mpr (mul_nonneg u.2.1 hpos)
  unfold randomInt
  omega

theorem sample_mem {α : Type} {u : Random} {items : List α} {a : α} (h : sample u items = some a) :
    a ∈ items := List.mem_of_getElem? h

/-! ## actions -/

def PARROT_QUESTIONS : List String :=
  ["What should I do first on the island?",
   "Can you suggest a beach activity?",
   "What should I know before checking in?",
   "What is the resort like this afternoon?"]

def ROOM_TYPES : List Hotel.RoomType := [.STANDARD, .DELUXE, .SUITE]

def ROOM_MAX_GUESTS : Hotel.RoomType → ℤ
  | .STANDARD => 2
  | .DELUXE => 3
  | .SUITE => 4

theorem one_le_roomMaxGuests (type : Hotel.RoomType) : 1 ≤ ROOM_MAX_GUESTS type := by
  cases type <;> decide

def guestToArrivalBody (guest : GuestProfile) : Airport.Guest :=
  ⟨guest.id, guest.name, guest.surname, guest.age, guest.passport, guest.priority, guest.disability⟩

/-- `sample` of the three room types always has one -/
def randomRoomType (u : Random) : Hotel.RoomType := (sample u ROOM_TYPES).getD .SUITE

def randomReservationBody (env : Env) (now : ℤ) (dice : Dice) (guest : GuestProfile) :
    Hotel.CreateReservationDto :=
  let today := max 0 (getCurrentSimulationDay env.anchor env.gameSpeed now)
  let checkIn := today + randomInt dice.checkIn 0 2
  let roomType := randomRoomType dice.roomType
  { guest_id := guest.id
    room_type := roomType
    guest_count := randomInt dice.guests 1 (ROOM_MAX_GUESTS roomType)
    party_guest_ids := none
    check_in_day := checkIn
    check_out_day := checkIn + randomInt dice.nights 1 3
    guest_count_min := min_le_randomInt _ (one_le_roomMaxGuests roomType) }

/-- the calls of the service clients -/
inductive Request where
  | arrival (body : Airport.Guest)
  | reservation (body : Hotel.CreateReservationDto)
  | byGuest (guest_id : String)
  | chat (guest_id message : String)
  | activities
  | bookActivity (activityId guest_id : String)
  | cancelActivity (activityId guest_id : String)
  | cancelReservation (id : String)

/-- the call of the hotel's service that a request leads to; `/reservation/` has no id -/
def Request.toHotel (x : Outside) : Request → Option Hotel.Call
  | .reservation body => some (.create body)
  | .cancelReservation id => if id = "" then none else (x.reservationAt id).map .cancel
  | _ => none

def Request.toBeach (x : Outside) : Request → Option Beach.Call
  | .bookActivity a guest_id => (x.activityAt ("/activity/book/" ++ a)).map (·.call guest_id)
  | .cancelActivity a guest_id => (x.activityAt ("/activity/cancel/" ++ a)).map (·.call guest_id)
  | _ => none

/-! ## the stages -/

inductive SimGuestState where
  | new
  | arrived (gate : String)
  | hotel_booked (gate reservationId : String)
  | beach_booked (gate reservationId activityId : String)
  deriving DecidableEq

/-- where a handler waits, with the locals it still needs; `leave` is `cancelBeachActivity` before
`cancelHotelReservation` -/
inductive Wait where
  | arrive
  | bookHotel (gate : String)
  | recover (gate : String)
  | askParrot
  | getActivities (gate reservationId : String)
  | bookActivity (gate reservationId activityId : String)
  | cancelActivity (gate reservationId : String)
  | leave (reservationId : String)
  | cancelReservation
  deriving DecidableEq

/-- up to the next await: a request, a question to the parrot at its time, or the end of the step with the
state that it sets -/
inductive Next where
  | await (request : Request) (wait : Wait)
  | ask (now : ℤ) (request : Request)
  | done (state : Option SimGuestState)

def askParrot (env : Env) (lastParrotChatAt now : ℤ) (dice : Dice) (guest : GuestProfile) : Next :=
  if now - lastParrotChatAt < env.parrotChatCooldownMs then .done none
  else .ask now (.chat guest.id ((sample dice.question PARROT_QUESTIONS).getD ""))

section
variable (env : Env) (lastParrotChatAt now : ℤ) (dice : Dice) (guest : GuestProfile)

def handleNew : Next := .await (.arrival (guestToArrivalBody guest)) .arrive

def handleArrived (gate : String) : Next :=
  if dice.action.1 < 8 / 10 then
    .await (.reservation (randomReservationBody env now dice guest)) (.bookHotel gate)
  else askParrot env lastParrotChatAt now dice guest

def handleHotelBooked (gate reservationId : String) : Next :=
  if dice.action.1 < 25 / 100 then .await .activities (.getActivities gate reservationId)
  else if dice.action.1 < 65 / 100 then askParrot env lastParrotChatAt now dice guest
  else .done none

def handleBeachBooked (gate reservationId activityId : String) : Next :=
  if dice.action.1 < 1 / 10 then
    .await (.cancelActivity activityId guest.id) (.leave reservationId)
  else if dice.action.1 < 25 / 100 then
    .await (.cancelActivity activityId guest.id) (.cancelActivity gate reservationId)
  else if dice.action.1 < 45 / 100 then askParrot env lastParrotChatAt now dice guest
  else .done none

/-- `STAGE_HANDLERS` -/
def handle : SimGuestState → Next
  | .new => handleNew guest
  | .arrived gate => handleArrived env lastParrotChatAt now dice guest gate
  | .hotel_booked gate reservationId =>
    handleHotelBooked env lastParrotChatAt now dice guest gate reservationId
  | .beach_booked gate reservationId activityId =>
    handleBeachBooked env lastParrotChatAt now dice guest gate reservationId activityId

end

/-- what a handler sees of an answer -/
inductive Answer where
  | failure
  | ok
  | gate (gate : String)
  | reservation (id : String)
  | activities (activities : List (String × ℤ)) (u : Random)

/-- `if (id) setState(…)` -/
def setIf (id : String) (state : SimGuestState) : Next := .done (if id = "" then none else some state)

/-- the rest of a handler after its await -/
def Wait.resume (guest : GuestProfile) : Wait → Answer → Option Next
  | .arrive, .gate gate => some (setIf gate (.arrived gate))
  | .arrive, .failure => some (.done none)
  | .bookHotel gate, .reservation id => some (setIf id (.hotel_booked gate id))
  | .bookHotel gate, .failure => some (.await (.byGuest guest.id) (.recover gate))
  | .recover gate, .reservation id => some (setIf id (.hotel_booked gate id))
  | .recover _, .failure => some (.done none)
  | .askParrot, .ok => some (.done none)
  | .askParrot, .failure => some (.done none)
  | .getActivities gate reservationId, .activities activities u =>
    match sample u (activities.filter fun a => 0 < a.2) with
    | none => some (.done none)
    | some activity => some (.await (.bookActivity activity.1 guest.id)
        (.bookActivity gate reservationId activity.1))
  | .getActivities _ _, .failure => some (.done none)
  | .bookActivity gate reservationId activityId, .ok =>
    some (setIf activityId (.beach_booked gate reservationId activityId))
  | .bookActivity _ _ _, .failure => some (.done none)
  | .cancelActivity gate reservationId, .ok => some (.done (some (.hotel_booked gate reservationId)))
  | .cancelActivity gate reservationId, .failure =>
    some (.done (some (.hotel_booked gate reservationId)))
  | .leave reservationId, .ok => some (.await (.cancelReservation reservationId) .cancelReservation)
  | .leave reservationId, .failure =>
    some (.await (.cancelReservation reservationId) .cancelReservation)
  | .cancelReservation, .ok => some (.done (some .new))
  | .cancelReservation, .failure => some (.done (some .new))
  | _, _ => none

def STAGES : List SimGuestState :=
  [.new, .arrived "", .hotel_booked "" "", .beach_booked "" "" ""]

/-- `seedState(STAGES[i % STAGES.length])`: a guest at the beach starts with a hotel -/
def seedState (i : Nat) : SimGuestState :=
  match STAGES[i % STAGES.length]? with
  | some (.beach_booked _ _ _) => .hotel_booked "" ""
  | some state => state
  | none => .new

abbrev GuestStates := Dict String SimGuestState

def createInitialState (syntheticGuests : List GuestProfile) : GuestStates :=
  .ofList (syntheticGuests.zipIdx.map fun p => (p.1.id, seedState p.2))

/-! ## the hook -/

def CONCURRENT_GUESTS : Nat := 3

/-- a map page with its refs: the timers that are set, and all that `ticksRef` has collected;
`stragglers` is a ghost, the steps that were still under way when the effect ran last -/
structure Page where
  running : Bool
  timers : List Nat
  ticks : List Nat
  guests : GuestStates
  stragglers : Nat

def Page.scheduleNext (pg : Page) (id : Nat) : Page :=
  if pg.running then { pg with timers := pg.timers ++ [id], ticks := pg.ticks ++ [id] } else pg

/-- the clean-up of the effect -/
def Page.cleanup (pg : Page) : Page :=
  { pg with running := false, timers := pg.timers.filter (· ∉ pg.ticks), ticks := [] }

/-- a step under way: its page, its guest, the request it waits for and what it goes on with -/
structure Task where
  page : Nat
  guest : GuestProfile
  request : Nat
  wait : Wait

/-- `lookups` are the reservations that the hotel has answered lookups with, `sent` the requests of the
generator, `atHotel` and `atBeach` the threads that have come of them; `chats` is a ghost, the times
of the questions to the parrot, the last one first -/
structure State where
  hotel : Hotel.State
  beach : Beach.State
  lookups : List Hotel.ReservationResponse
  pages : List Page
  tasks : List Task
  sent : List Request
  atHotel : List (Nat × Nat)
  atBeach : List (Nat × Nat)
  nextTimer : Nat
  lastParrotChatAt : ℤ
  chats : List ℤ

def State.init (hotel : Hotel.Db) (beach : Beach.Db) : State :=
  ⟨.init hotel, .init beach, [], [], [], [], [], [], 0, 0, []⟩

def State.inFlight (s : State) (p : Nat) : Nat := s.tasks.countP fun t => decide (t.page = p)

def State.schedule (s : State) (p : Nat) : State :=
  { s with pages := s.pages.modify p fun pg => pg.scheduleNext s.nextTimer
           nextTimer := s.nextTimer + 1 }

def State.setState (s : State) (p : Nat) (guest : GuestProfile) (state : SimGuestState) : State :=
  { s with pages := s.pages.modify p fun pg => { pg with guests := pg.guests.set guest.id state } }

def State.send (s : State) (p : Nat) (guest : GuestProfile) (request : Request) (wait : Wait) : State :=
  { s with tasks := s.tasks ++ [⟨p, guest, s.sent.length, wait⟩], sent := s.sent ++ [request] }

/-- a step goes on: it waits again, or its loop sets the next timer -/
def State.advance (s : State) (p : Nat) (guest : GuestProfile) : Next → State
  | .await request wait => s.send p guest request wait
  | .ask now request =>
    { s.send p guest request .askParrot with lastParrotChatAt := now, chats := now :: s.chats }
  | .done none => s.schedule p
  | .done (some state) => (s.setState p guest state).schedule p

/-- the answer of a service to a request, or none -/
inductive Reply where
  | failure
  | ok
  | gate (gate : String)
  | reserved (thread : Nat)
  | lookup (l : Nat)
  | activities (activities : List (String × ℤ)) (u : Random)
  | booked (thread : Nat)

/-- what arrives for the `k`-th request; the hotel and the beach answer from their threads -/
def State.answer (s : State) (k : Nat) : Reply → Option Answer
  | .failure => some .failure
  | .ok =>
    match s.sent[k]? with
    | some (.chat _ _) => some .ok
    | some (.cancelActivity _ _) => some .ok
    | some (.cancelReservation _) => some .ok
    | _ => none
  | .gate gate =>
    match s.sent[k]? with
    | some (.arrival _) => some (.gate gate)
    | _ => none
  | .reserved i =>
    match s.sent[k]?, s.hotel.threads[i]? with
    | some (.reservation _), some ⟨_, .done (.reservation r _)⟩ =>
      if (k, i) ∈ s.atHotel then some (.reservation r.id) else none
    | _, _ => none
  | .lookup l =>
    match s.sent[k]?, s.lookups[l]? with
    | some (.byGuest guest_id), some found =>
      if found.guest_id = guest_id then some (.reservation found.id) else none
    | _, _ => none
  | .activities activities u =>
    match s.sent[k]? with
    | some .activities => some (.activities activities u)
    | _ => none
  | .booked i =>
    match s.sent[k]?, s.beach.threads[i]? with
    | some (.bookActivity _ _), some ⟨_, .done .null⟩ => if (k, i) ∈ s.atBeach then some .ok else none
    | _, _ => none

/-- a lookup by guest answers with a row that `findActiveByGuestId` may find -/
def found (db : Hotel.Db) (r : Hotel.Reservation) : Bool :=
  r.activeFor r.guest_id && db.reservations.all fun r' =>
    !r'.activeFor r.guest_id || decide (r'.check_in_day ≤ r.check_in_day)

inductive Act where
  | hotel (act : Hotel.Act)
  | beach (act : Beach.Act)
  | lookup (row : Nat)
  | «open»
  | mount (p : Nat)
  | unmount (p : Nat)
  | fire (p id : Nat) (dice : Dice) (now : ℤ)
  | deliver (k : Nat)
  | resume (j : Nat) (reply : Reply)

/-- the effect of the hook -/
def State.mount (x : Outside) (s : State) (p : Nat) : State :=
  if x.env.trafficGeneratorEnabled then
    (({ s with pages := s.pages.modify p fun pg =>
          { pg with running := true, stragglers := s.inFlight p } }.schedule p).schedule p).schedule p
  else s

/-- a timer that fires is no longer set -/
def State.unset (s : State) (p id : Nat) : State :=
  { s with pages := s.pages.modify p fun pg => { pg with timers := pg.timers.erase id } }

/-- a timer calls `runGuestStep`; without a guest to draw it throws -/
def State.fire (x : Outside) (s : State) (p id : Nat) (dice : Dice) (now : ℤ) (pg : Page) : State :=
  match sample dice.guest x.syntheticGuests with
  | none => (s.unset p id).schedule p
  | some guest =>
    match pg.guests.get? guest.id with
    | none => (s.unset p id).schedule p
    | some state => (s.unset p id).advance p guest
        (handle x.env s.lastParrotChatAt now dice guest state)

/-- the await of a task is over -/
def State.wake (s : State) (j : Nat) : State := { s with tasks := s.tasks.eraseIdx j }

/-- a request reaches its service, after however long -/
def State.deliver (x : Outside) (s : State) (k : Nat) (request : Request) : Option State :=
  match request.toHotel x with
  | some call => (Hotel.machine s.hotel (.arrive call)).map fun hotel =>
      { s with hotel := hotel, atHotel := s.atHotel ++ [(k, s.hotel.threads.length)] }
  | none =>
    match request.toBeach x with
    | some call => (Beach.machine s.beach (.arrive call)).map fun beach =>
        { s with beach := beach, atBeach := s.atBeach ++ [(k, s.beach.threads.length)] }
    | none => none

def machine (x : Outside) : Machine State Act := fun s act =>
  match act with
  | .hotel act => (Hotel.machine s.hotel act).map fun hotel => { s with hotel := hotel }
  | .beach act => (Beach.machine s.beach act).map fun beach => { s with beach := beach }
  | .lookup row => s.hotel.db.reservations[row]?.bind fun r =>
      match found s.hotel.db r, s.hotel.db.respond r with
      | true, .ok response => some { s with lookups := s.lookups ++ [response] }
      | _, _ => none
  | .open => some { s with
      pages := s.pages ++ [⟨false, [], [], createInitialState x.syntheticGuests, 0⟩] }
  | .mount p => s.pages[p]?.bind fun pg => if pg.running then none else some (s.mount x p)
  | .unmount p => s.pages[p]?.map fun _ => { s with pages := s.pages.modify p Page.cleanup }
  | .fire p id dice now => s.pages[p]?.bind fun pg =>
      if id ∈ pg.timers then some (s.fire x p id dice now pg) else none
  | .deliver k => s.sent[k]?.bind fun request => s.deliver x k request
  | .resume j reply => s.tasks[j]?.bind fun t => (s.answer t.request reply).bind fun answer =>
      (t.wait.resume t.guest answer).map fun next =>
        (s.wake j).advance t.page t.guest next

/-! ## three loops -/

/-- a page whose loops are timers and `n` more -/
structure Page.Balanced (pg : Page) (n : Nat) : Prop where
  ticks : ∀ id ∈ pg.timers, id ∈ pg.ticks
  running : pg.running = true → pg.timers.length + n = CONCURRENT_GUESTS + pg.stragglers
  stopped : pg.running = false → pg.timers = []

namespace Page.Balanced
variable {pg : Page} {n : Nat}

theorem scheduleNext (h : pg.Balanced (n + 1)) (id : Nat) : (pg.scheduleNext id).Balanced n := by
  unfold Page.scheduleNext
  split
  · rename_i hrun
    have hloops := h.running hrun
    refine ⟨fun i hi => ?_, fun _ => ?_, fun hstop => absurd (hrun.symm.trans hstop) (by simp)⟩
    · rcases List.mem_append.mp hi with hi | hi
      · exact List.mem_append_left _ (h.ticks i hi)
      · exact List.mem_append_right _ hi
    · show (pg.timers ++ [id]).length + n = CONCURRENT_GUESTS + pg.stragglers
      rw [List.length_append, List.length_singleton]
      omega
  · rename_i hrun
    exact ⟨h.ticks, fun hr => absurd hr hrun, h.stopped⟩

theorem cleanup (h : pg.Balanced n) (m : Nat) : pg.cleanup.Balanced m := by
  have hnone : pg.timers.filter (· ∉ pg.ticks) = [] := by
    apply List.filter_eq_nil_iff.mpr
    intro id hid
    simp only [decide_eq_true_eq, not_not]
    exact h.ticks id hid
  refine ⟨fun id hid => ?_, fun hrun => absurd hrun (by simp [Page.cleanup]), fun _ => hnone⟩
  rw [Page.cleanup, hnone] at hid
  exact absurd hid (by simp)

theorem fire (h : pg.Balanced n) {id : Nat} (hid : id ∈ pg.timers) :
    Page.Balanced { pg with timers := pg.timers.erase id } (n + 1) := by
  refine ⟨fun i hi => h.ticks i (List.mem_of_mem_erase hi), fun hrun => ?_, fun hstop => ?_⟩
  · have hloops := h.running hrun
    have hlen := List.length_erase_of_mem hid
    have hpos := List.length_pos_of_mem hid
    show (pg.timers.erase id).length + (n + 1) = CONCURRENT_GUESTS + pg.stragglers
    omega
  · rw [h.stopped hstop] at hid
    exact absurd hid (by simp)

theorem mount (h : pg.Balanced n) (hstop : pg.running = false) :
    Page.Balanced { pg with running := true, stragglers := n } (n + 3) := by
  refine ⟨h.ticks, fun _ => ?_, fun hr => absurd hr (by simp)⟩
  show pg.timers.length + (n + 3) = CONCURRENT_GUESTS + n
  rw [h.stopped hstop, List.length_nil, CONCURRENT_GUESTS]
  omega

end Page.Balanced

/-- every page is balanced, with a loop more for each time that `owed` names it -/
def State.Loops (s : State) (owed : List Nat) : Prop :=
  ∀ (p : Nat) pg, s.pages[p]? = some pg → pg.Balanced (s.inFlight p + owed.count p)

namespace State.Loops
variable {s : State} {p : Nat} {owed : List Nat}

theorem modify {s' : State} {owed' : List Nat} {f : Page → Page} (h : s.Loops owed)
    (hpages : s'.pages = s.pages.modify p f)
    (hsame : ∀ q, q ≠ p → s'.inFlight q + owed'.count q = s.inFlight q + owed.count q)
    (hp : ∀ pg, s.pages[p]? = some pg → pg.Balanced (s.inFlight p + owed.count p) →
      (f pg).Balanced (s'.inFlight p + owed'.count p)) : s'.Loops owed' := by
  intro q pg hq
  rw [hpages, List.getElem?_modify] at hq
  obtain ⟨pg₀, hq₀, rfl⟩ := Option.map_eq_some_iff.mp hq
  by_cases e : p = q
  · subst e
    rw [if_pos rfl]
    exact hp pg₀ hq₀ (h p pg₀ hq₀)
  · rw [if_neg e, hsame q fun e' => e e'.symm]
    exact h q pg₀ hq₀

theorem schedule (h : s.Loops (p :: owed)) : (s.schedule p).Loops owed := by
  refine h.modify rfl (fun q hq => ?_) (fun pg _ hb => ?_)
  · rw [List.count_cons_of_ne fun e => hq e.symm]
    rfl
  · rw [List.count_cons_self, ← Nat.add_assoc] at hb
    exact hb.scheduleNext _

theorem setState (h : s.Loops owed) (guest : GuestProfile) (state : SimGuestState) :
    (s.setState p guest state).Loops owed :=
  h.modify rfl (fun _ _ => rfl) fun _ _ hb => ⟨hb.ticks, hb.running, hb.stopped⟩

theorem send (h : s.Loops (p :: owed)) (guest : GuestProfile) (request : Request) (wait : Wait) :
    (s.send p guest request wait).Loops owed := by
  intro q pg hq
  have hb := h q pg hq
  have hcount : (s.send p guest request wait).inFlight q + owed.count q =
      s.inFlight q + (p :: owed).count q := by
    show (s.tasks ++ [_]).countP _ + _ = s.tasks.countP _ + _
    rw [List.countP_append, List.countP_singleton, List.count_cons]
    show _ + (if decide (p = q) = true then 1 else 0) + _ = _ + (_ + if (p == q) = true then 1 else 0)
    by_cases e : p = q
    · simp only [e, decide_true, beq_self_eq_true, if_true]
      omega
    · simp [e]
  rw [hcount]
  exact hb

theorem advance (h : s.Loops (p :: owed)) (guest : GuestProfile) (next : Next) :
    (s.advance p guest next).Loops owed := by
  match next with
  | .await request wait => exact h.send guest request wait
  | .ask now request => exact h.send guest request .askParrot
  | .done none => exact h.schedule
  | .done (some state) => exact (h.setState guest state).schedule

end State.Loops

/-! ## the distance between questions -/

/-- a question is asked only when the last one is far enough away -/
theorem askParrot_ask {env : Env} {last now now' : ℤ} {dice : Dice} {guest : GuestProfile}
    {request : Request} (h : askParrot env last now dice guest = .ask now' request) :
    last + env.parrotChatCooldownMs ≤ now' := by
  unfold askParrot at h
  split at h
  · exact absurd h (by simp)
  · rename_i hlate
    injection h with e
    subst e
    omega

theorem handle_ask {env : Env} {last now now' : ℤ} {dice : Dice} {guest : GuestProfile}
    {state : SimGuestState} {request : Request}
    (h : handle env last now dice guest state = .ask now' request) :
    last + env.parrotChatCooldownMs ≤ now' := by
  cases state with
  | new => exact absurd h (by simp [handle, handleNew])
  | arrived gate =>
    rw [handle, handleArrived] at h
    split at h
    · exact absurd h (by simp)
    · exact askParrot_ask h
  | hotel_booked gate reservationId =>
    rw [handle, handleHotelBooked] at h
    split at h
    · exact absurd h (by simp)
    · split at h
      · exact askParrot_ask h
      · exact absurd h (by simp)
  | beach_booked gate reservationId activityId =>
    rw [handle, handleBeachBooked] at h
    split at h
    · exact absurd h (by simp)
    · split at h
      · exact absurd h (by simp)
      · split at h
        · exact askParrot_ask h
        · exact absurd h (by simp)

theorem resume_ne_ask {guest : GuestProfile} {wait : Wait} {answer : Answer} {now : ℤ}
    {request : Request} : wait.resume guest answer ≠ some (.ask now request) := by
  unfold Wait.resume
  split
  all_goals first
    | (split <;> simp)
    | simp [setIf]

structure State.Spaced (cooldown : Nat) (s : State) : Prop where
  apart : s.chats.Pairwise fun later earlier : ℤ => earlier + cooldown ≤ later
  last : ∀ t ∈ s.chats, t ≤ s.lastParrotChatAt

theorem State.Spaced.advance {cooldown : Nat} {s : State} (h : s.Spaced cooldown) (p : Nat)
    (guest : GuestProfile) {next : Next}
    (hask : ∀ now request, next = .ask now request → s.lastParrotChatAt + cooldown ≤ now) :
    (s.advance p guest next).Spaced cooldown := by
  match next with
  | .await request wait => exact ⟨h.apart, h.last⟩
  | .done none => exact ⟨h.apart, h.last⟩
  | .done (some state) => exact ⟨h.apart, h.last⟩
  | .ask now request =>
    have hnow := hask now request rfl
    refine ⟨List.pairwise_cons.mpr ⟨fun t ht => ?_, h.apart⟩, fun t ht => ?_⟩
    · have hlast := h.last t ht
      omega
    · show t ≤ now
      rcases List.mem_cons.mp ht with rfl | ht
      · exact Int.le_refl t
      · have hlast := h.last t ht
        omega

/-! ## the law -/

structure Tended (x : Outside) (s : State) : Prop where
  loops : s.Loops []
  spaced : s.Spaced x.env.parrotChatCooldownMs

section
variable {x : Outside} {s s' : State}

theorem unset_loops {p id : Nat} {pg : Page} (h : s.Loops []) (hpg : s.pages[p]? = some pg)
    (hid : id ∈ pg.timers) : (s.unset p id).Loops [p] := by
  refine h.modify rfl (fun q hq => ?_) (fun pg' hpg' hb => ?_)
  · rw [List.count_cons_of_ne fun e => hq e.symm]
    rfl
  · obtain rfl := Option.some.inj (hpg.symm.trans hpg')
    rw [List.count_singleton_self]
    exact hb.fire hid

theorem Tended.fire {p id : Nat} {pg : Page} (h : Tended x s) (dice : Dice) (now : ℤ)
    (hpg : s.pages[p]? = some pg) (hid : id ∈ pg.timers) : Tended x (s.fire x p id dice now pg) := by
  have hl := unset_loops h.loops hpg hid
  have hsp : (s.unset p id).Spaced x.env.parrotChatCooldownMs := ⟨h.spaced.apart, h.spaced.last⟩
  unfold State.fire
  split
  · exact ⟨hl.schedule, hsp.apart, hsp.last⟩
  · split
    · exact ⟨hl.schedule, hsp.apart, hsp.last⟩
    · exact ⟨hl.advance _ _, hsp.advance _ _ fun _ _ hask => handle_ask hask⟩

theorem mount_loops {p : Nat} {pg : Page} (h : s.Loops []) (hpg : s.pages[p]? = some pg)
    (hstop : pg.running = false) : (s.mount x p).Loops [] := by
  unfold State.mount
  split
  · refine State.Loops.schedule (State.Loops.schedule (State.Loops.schedule ?_))
    refine h.modify rfl (fun q hq => ?_) (fun pg' hpg' hb => ?_)
    · rw [List.count_cons_of_ne fun e => hq e.symm, List.count_cons_of_ne fun e => hq e.symm,
        List.count_cons_of_ne fun e => hq e.symm]
      rfl
    · obtain rfl := Option.some.inj (hpg.symm.trans hpg')
      rw [List.count_cons_self, List.count_cons_self, List.count_singleton_self]
      exact hb.mount hstop
  · exact h

/-- a task that has its answer owes its page a loop -/
theorem wake_loops {j : Nat} {t : Task} (h : s.Loops []) (ht : s.tasks[j]? = some t) :
    (s.wake j).Loops [t.page] := by
  intro q pg hq
  have hb := h q pg hq
  have hperm : (t :: s.tasks.eraseIdx j).Perm s.tasks := by
    obtain ⟨hj, rfl⟩ := List.getElem?_eq_some_iff.mp ht
    exact List.getElem_cons_eraseIdx_perm hj
  have hcount := hperm.countP_eq fun t => decide (t.page = q)
  rw [List.countP_cons] at hcount
  have hsum : (s.tasks.eraseIdx j).countP (fun t => decide (t.page = q)) + [t.page].count q =
      s.inFlight q + ([] : List Nat).count q := by
    rw [List.count_singleton, List.count_nil, Nat.add_zero, State.inFlight, ← hcount]
    by_cases e : t.page = q <;> simp [e]
  show pg.Balanced ((s.tasks.eraseIdx j).countP _ + _)
  rw [hsum]
  exact hb

theorem Tended.step {act : Act} (h : Tended x s) (hs : machine x s act = some s') : Tended x s' := by
  obtain ⟨hl, hsp⟩ := h
  cases act with
  | hotel act =>
    obtain ⟨hotel, _, rfl⟩ := Option.map_eq_some_iff.mp hs
    exact ⟨hl, hsp.apart, hsp.last⟩
  | beach act =>
    obtain ⟨beach, _, rfl⟩ := Option.map_eq_some_iff.mp hs
    exact ⟨hl, hsp.apart, hsp.last⟩
  | lookup row =>
    obtain ⟨r, _, hlook⟩ := Option.bind_eq_some_iff.mp hs
    split at hlook
    · obtain rfl := Option.some.inj hlook
      exact ⟨hl, hsp.apart, hsp.last⟩
    · exact absurd hlook (by simp)
  | «open» =>
    obtain rfl := Option.some.inj hs
    exact ⟨forall_snoc hl ⟨by simp, by simp, fun _ => rfl⟩, hsp.apart, hsp.last⟩
  | mount p =>
    obtain ⟨pg, hpg, hmount⟩ := Option.bind_eq_some_iff.mp hs
    split at hmount
    · exact absurd hmount (by simp)
    · rename_i hstop
      obtain rfl := Option.some.inj hmount
      refine ⟨mount_loops hl hpg (Bool.eq_false_iff.mpr hstop), ?_⟩
      unfold State.mount
      split
      · exact ⟨hsp.apart, hsp.last⟩
      · exact hsp
  | unmount p =>
    obtain ⟨pg, _, rfl⟩ := Option.map_eq_some_iff.mp hs
    exact ⟨hl.modify rfl (fun _ _ => rfl) fun _ _ hb => hb.cleanup _, hsp.apart, hsp.last⟩
  | fire p id dice now =>
    obtain ⟨pg, hpg, hfire⟩ := Option.bind_eq_some_iff.mp hs
    split at hfire
    · rename_i hid
      obtain rfl := Option.some.inj hfire
      exact Tended.fire ⟨hl, hsp⟩ dice now hpg hid
    · exact absurd hfire (by simp)
  | deliver k =>
    obtain ⟨request, _, hdel⟩ := Option.bind_eq_some_iff.mp hs
    unfold State.deliver at hdel
    split at hdel
    · obtain ⟨hotel, _, rfl⟩ := Option.map_eq_some_iff.mp hdel
      exact ⟨hl, hsp.apart, hsp.last⟩
    · split at hdel
      · obtain ⟨beach, _, rfl⟩ := Option.map_eq_some_iff.mp hdel
        exact ⟨hl, hsp.apart, hsp.last⟩
      · exact absurd hdel (by simp)
  | resume j reply =>
    obtain ⟨t, ht, hrest⟩ := Option.bind_eq_some_iff.mp hs
    obtain ⟨answer, _, hmap⟩ := Option.bind_eq_some_iff.mp hrest
    obtain ⟨next, hnext, rfl⟩ := Option.map_eq_some_iff.mp hmap
    have hspaced : (s.wake j).Spaced x.env.parrotChatCooldownMs := ⟨hsp.apart, hsp.last⟩
    refine ⟨(wake_loops hl ht).advance _ _, hspaced.advance _ _ ?_⟩
    rintro now request rfl
    exact absurd hnext resume_ne_ask

end

/-- **Three loops and no more.**  Whatever the interleaving, on a page whose generator runs the timers that
are set and the steps under way are three, and those steps more that were under way when the effect
ran; on one that has stopped no timer is set.  Any two questions to the parrot are at least the cooldown
apart, on all pages together and whatever the clock does. -/
theorem three_loops (x : Outside) (hotel : Hotel.Db) (beach : Beach.Db) (acts : List Act) (s : State)
    (hrun : (machine x).Runs free (State.init hotel beach) acts s) :
    (∀ (p : Nat) pg, s.pages[p]? = some pg →
      (pg.running = true → pg.timers.length + s.inFlight p = CONCURRENT_GUESTS + pg.stragglers) ∧
      (pg.running = false → pg.timers = [])) ∧
    s.chats.Pairwise fun later earlier : ℤ => earlier + x.env.parrotChatCooldownMs ≤ later := by
  have hinit : Tended x (State.init hotel beach) :=
    ⟨fun p pg hp => absurd hp (by simp [State.init]), .nil, fun t ht => absurd ht (by simp [State.init])⟩
  have h : Tended x s := hrun.inv (fun _ _ _ h _ hm => h.step hm) hinit
  refine ⟨fun p pg hp => ?_, h.spaced.apart⟩
  have hb := h.loops p pg hp
  rw [List.count_nil, Nat.add_zero] at hb
  exact ⟨hb.running, hb.stopped⟩

def mango : GuestProfile := ⟨"sim-guest-mango-0001", "Mango", "Marin", 29, .EU, .standard, false⟩

def coral : GuestProfile := ⟨"sim-guest-coral-0002", "Coral", "Vale", 34, .nonEU, .fast, false⟩

/-- two synthetic guests, and services that read the ids as they are -/
def island : Outside where
  env := ⟨true, 30000, 0, 300⟩
  syntheticGuests := [mango, coral]
  reservationAt := some
  activityAt path :=
    if path = "/activity/book/volley" then some (.book "volley")
    else if path = "/activity/cancel/volley" then some (.cancel "volley") else none

def half : Random := ⟨1 / 2, by norm_num, by norm_num⟩

def high : Random := ⟨9 / 10, by norm_num, by norm_num⟩

/-- coral comes up, with a choice of what to do -/
def coralDoes (action : Random) : Dice := ⟨half, action, half, half, half, half, half⟩

/-- a booking and a question are under way when the effect runs again -/
def remounted : List Act :=
  [.open, .mount 0, .fire 0 0 (coralDoes half) 40000, .fire 0 1 (coralDoes high) 50000, .unmount 0, .mount 0]

theorem remounted_runs :
    ((machine island).run (State.init Hotel.oneRoomDb (Beach.volleyDb 1)) remounted).map
      (fun s => (s.chats, s.pages.map fun pg => (pg.running, pg.stragglers))) =
    some ([50000], [(true, 2)]) := by decide +kernel

theorem three_loops_remounted : ∃ s,
    (machine island).run (State.init Hotel.oneRoomDb (Beach.volleyDb 1)) remounted = some s ∧
    s.chats = [50000] ∧ ∃ pg, s.pages = [pg] ∧ pg.timers.length + s.inFlight 0 = 5 := by
  obtain ⟨s, hs, e⟩ := Option.map_eq_some_iff.mp remounted_runs
  obtain ⟨hchats, hpages⟩ := Prod.mk.inj e
  obtain ⟨pg, hpg, hghost⟩ := List.map_eq_singleton_iff.mp hpages
  obtain ⟨hrun, hstrag⟩ := Prod.mk.inj hghost
  refine ⟨s, hs, hchats, pg, hpg, ?_⟩
  have h := (three_loops island Hotel.oneRoomDb (Beach.volleyDb 1) remounted s
    (Machine.runs_free_iff.mpr hs)).1 0 pg (by rw [hpg]; rfl)
  rw [h.1 hrun, hstrag]
  rfl

end Simulation
