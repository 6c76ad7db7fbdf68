import Purrlington.Simulation.Generator

/-!
# Simulation: the traffic generator and the other guests

The generator cancels what it finds in its own states, and its steps interleave with the other clients,
with lost answers and with requests that arrive late.

* `Hotel.Blamed`, `Beach.Blamed`   what was cancelled, a request has cancelled;
* `State.Mine`, `State.Booked`     what a guest of the generator holds;
* `SimGuestState.Own`, `Wait.Own`, `Request.Own`   where the ids of states, steps and requests come from;
* `State.Grows`                    what no step takes back;
* `Owned`                          the invariant;
* `others_not_cancelled`           nothing of another guest is cancelled by the generator.
-/

set_option linter.unusedSectionVars false

/-! ## who has cancelled -/

namespace Hotel
open SM

section
variable {s s' : State} {act : Act}

theorem call_kept (hs : machine s act = some s') {i : Nat} {t : Thread} (ht : s.threads[i]? = some t) :
    ∃ t', s'.threads[i]? = some t' ∧ t'.call = t.call := by
  cases machine_eff hs with
  | arrive call => exact ⟨t, get_snoc_keeps ht, rfl⟩
  | move act j call pc pc' ev hj hm => exact get_set_keeps Thread.call hj rfl ht
  | insert j dto room uuid hid hst hj => exact get_set_keeps Thread.call hj rfl ht
  | cancel j id r type hj => exact get_set_keeps Thread.call hj rfl ht

/-- every row that is CANCELLED was so in `db₀`, or has a cancel -/
def Blamed (db₀ : Db) (s : State) : Prop :=
  ∀ r ∈ s.db.reservations, r.status = .CANCELLED →
    db₀.statusOf r.id = some .CANCELLED ∨
    ∃ (i : Nat) (t : Thread), s.threads[i]? = some t ∧ t.call = .cancel r.id

theorem Blamed.step {db₀ : Db} (h : Blamed db₀ s) (hs : machine s act = some s') : Blamed db₀ s' := by
  -- a request that is blamed before the step is there after it
  have hold : ∀ id, (db₀.statusOf id = some .CANCELLED ∨
      ∃ (i : Nat) (t : Thread), s.threads[i]? = some t ∧ t.call = .cancel id) →
      db₀.statusOf id = some .CANCELLED ∨
      ∃ (i : Nat) (t : Thread), s'.threads[i]? = some t ∧ t.call = .cancel id := by
    rintro id (hid | ⟨i, t, ht, hcall⟩)
    · exact .inl hid
    · obtain ⟨t', ht', hcall'⟩ := call_kept hs ht
      exact .inr ⟨i, t', ht', hcall'.trans hcall⟩
  cases machine_eff hs with
  | arrive call => exact fun r hr hst => hold r.id (h r hr hst)
  | move act i call pc pc' ev ht hm => exact fun r hr hst => hold r.id (h r hr hst)
  | insert i dto room uuid hid hst ht =>
    intro r hr hst
    rcases List.mem_append.mp hr with hr | hr
    · exact hold r.id (h r hr hst)
    · obtain rfl := List.mem_singleton.mp hr
      exact absurd hst (by simp [Db.newRow])
  | cancel i id r type ht =>
    intro r' hr' hst
    obtain ⟨r₀, hr₀, rfl⟩ := List.mem_map.mp hr'
    rw [Db.cancelRow_id]
    by_cases e : r₀.id = id
    · subst e
      exact hold r₀.id (.inr ⟨i, _, ht, rfl⟩)
    · rw [Db.cancelRow, if_neg e] at hst
      exact hold r₀.id (h r₀ hr₀ hst)

end

theorem blamed_init (db₀ : Db) : Blamed db₀ (State.init db₀) :=
  fun r hr hst => .inl (statusOf_eq_some.mpr ⟨r, hr, rfl, hst⟩)

end Hotel

namespace Beach
open SM

section
variable {s s' : State} {act : Act}

theorem call_kept (hs : machine s act = some s') {i : Nat} {t : Thread} (ht : s.threads[i]? = some t) :
    ∃ t', s'.threads[i]? = some t' ∧ t'.call = t.call := by
  cases machine_eff hs with
  | arrive call => exact ⟨t, get_snoc_keeps ht, rfl⟩
  | read j call pc pc' hj hr => exact get_set_keeps Thread.call hj rfl ht
  | save j call activity w c hj hc => exact get_set_keeps Thread.call hj rfl ht
  | publish j call activity w ev hj => exact get_set_keeps Thread.call hj rfl ht
  | create j r activity hj hnew => exact get_set_keeps Thread.call hj rfl ht
  | remove j id? id hj hmem => exact get_set_keeps Thread.call hj rfl ht
  | checkIn v => exact ⟨t, ht, rfl⟩

/-- a write that is committed stays in the log, and one that is new is its thread's -/
theorem log_step (hs : machine s act = some s') : (∀ c ∈ s.log, c ∈ s'.log) ∧
    ∀ a v, .cancelled a v ∈ s'.log → .cancelled a v ∈ s.log ∨
      ∃ (i : Nat) (t : Thread), s.threads[i]? = some t ∧ t.call = .cancel a v := by
  cases machine_eff hs with
  | arrive call => exact ⟨fun _ hc => hc, fun _ _ hc => .inl hc⟩
  | read j call pc pc' hj hr => exact ⟨fun _ hc => hc, fun _ _ hc => .inl hc⟩
  | publish j call activity w ev hj => exact ⟨fun _ hc => hc, fun _ _ hc => .inl hc⟩
  | checkIn v => exact ⟨fun _ hc => hc, fun _ _ hc => .inl hc⟩
  | create j r activity hj hnew =>
    refine ⟨fun _ hc => List.mem_cons_of_mem _ hc, fun a v hc => ?_⟩
    exact .inl ((List.mem_cons.mp hc).resolve_left (by simp))
  | remove j id? id hj hmem =>
    refine ⟨fun _ hc => List.mem_cons_of_mem _ hc, fun a v hc => ?_⟩
    exact .inl ((List.mem_cons.mp hc).resolve_left (by simp))
  | save j call activity w c hj hc =>
    refine ⟨fun _ hc => List.mem_cons_of_mem _ hc, fun a v hmem => ?_⟩
    rcases List.mem_cons.mp hmem with rfl | hmem
    · refine .inr ⟨j, _, hj, ?_⟩
      cases call with
      | cancel a' v' =>
        cases hc
        rfl
      | book a' v' => cases hc
      | create r => cases hc
      | remove id? => cases hc
    · exact .inl hmem

/-- every cancellation in the log has its request -/
def Blamed (s : State) : Prop :=
  ∀ a v, .cancelled a v ∈ s.log → ∃ (i : Nat) (t : Thread), s.threads[i]? = some t ∧ t.call = .cancel a v

theorem Blamed.step (h : Blamed s) (hs : machine s act = some s') : Blamed s' := by
  intro a v hc
  obtain ⟨i, t, ht, hcall⟩ : ∃ (i : Nat) (t : Thread), s.threads[i]? = some t ∧ t.call = .cancel a v :=
    ((log_step hs).2 a v hc).elim (h a v) id
  obtain ⟨t', ht', hcall'⟩ := call_kept hs ht
  exact ⟨i, t', ht', hcall'.trans hcall⟩

/-- the calls past their save are in the log, whatever the saves have overwritten -/
def Logged (s : State) : Prop := ∀ (i : Nat) (t : Thread), s.threads[i]? = some t → t.Logged s.log

theorem Logged.step (h : Logged s) (hs : machine s act = some s') : Logged s' := by
  have hlater : ∀ (i : Nat) (t : Thread), s.threads[i]? = some t → t.Logged s'.log :=
    fun i t ht hc a v hcall => (log_step hs).1 _ (h i t ht hc a v hcall)
  cases machine_eff hs with
  | arrive call => exact forall_snoc hlater fun hc => absurd hc call.entry_not_committed
  | read j call pc pc' hj hr =>
    exact forall_set (fun i t _ ht => hlater i t ht) fun hc => absurd hc hr.not_committed
  | save j call activity w c hj hc =>
    refine forall_set (fun i t _ ht => hlater i t ht) ?_
    rintro - a v rfl
    cases hc
    exact List.mem_cons_self
  | publish j call activity w ev hj =>
    exact forall_set (fun i t _ ht => hlater i t ht) fun _ a v hcall => hlater j _ hj trivial a v hcall
  | create j r activity hj hnew =>
    exact forall_set (fun i t _ ht => hlater i t ht) fun hc => hc.elim
  | remove j id? id hj hmem =>
    exact forall_set (fun i t _ ht => hlater i t ht) fun hc => hc.elim
  | checkIn v => exact hlater

end
end Beach

namespace Simulation
open SM

/-! ## what is held -/

def Outside.guestIds (x : Outside) : List String := x.syntheticGuests.map GuestProfile.id

/-- a reservation of the guest, by its id -/
def State.Reserved (s : State) (guest_id id : String) : Prop :=
  ∃ r ∈ s.hotel.db.reservations, r.id = id ∧ r.guest_id = guest_id

/-- the seeds have no reservation -/
def State.Mine (s : State) (guest_id id : String) : Prop := id = "" ∨ s.Reserved guest_id id

/-- if the path of the activity leads to it, the guest has been booked into it -/
def State.Booked (x : Outside) (s : State) (guest_id activityId : String) : Prop :=
  ∀ a, x.activityAt ("/activity/book/" ++ activityId) = some (.book a) → .booked a guest_id ∈ s.beach.log

def SimGuestState.Own (x : Outside) (s : State) (guest_id : String) : SimGuestState → Prop
  | .hotel_booked _ reservationId => s.Mine guest_id reservationId
  | .beach_booked _ reservationId activityId =>
    s.Mine guest_id reservationId ∧ s.Booked x guest_id activityId
  | _ => True

/-- a step waits for the request that it has sent, and holds what its state held -/
def Wait.Own (s : State) (guest_id : String) (request : Request) : Wait → Prop
  | .bookHotel _ => ∃ body, request = .reservation body ∧ body.guest_id = guest_id
  | .recover _ => request = .byGuest guest_id
  | .getActivities _ reservationId => s.Mine guest_id reservationId
  | .bookActivity _ reservationId activityId =>
    s.Mine guest_id reservationId ∧ request = .bookActivity activityId guest_id
  | .cancelActivity _ reservationId => s.Mine guest_id reservationId
  | .leave reservationId => s.Mine guest_id reservationId
  | _ => True

def Request.Own (x : Outside) (s : State) : Request → Prop
  | .reservation body => body.guest_id ∈ x.guestIds
  | .cancelReservation id => ∃ guest_id ∈ x.guestIds, s.Mine guest_id id
  | .bookActivity _ guest_id => guest_id ∈ x.guestIds
  | .cancelActivity _ guest_id => guest_id ∈ x.guestIds
  | _ => True

/-- what an answer says of the request that it answers -/
def Answer.Own (x : Outside) (s : State) : Request → Answer → Prop
  | .reservation body, .reservation id => s.Reserved body.guest_id id
  | .byGuest guest_id, .reservation id => s.Reserved guest_id id
  | .bookActivity activityId guest_id, .ok => s.Booked x guest_id activityId
  | _, .reservation _ => False
  | _, _ => True

def Next.Own (x : Outside) (s : State) (guest : GuestProfile) : Next → Prop
  | .await request wait => request.Own x s ∧ wait.Own s guest.id request
  | .ask _ request => request.Own x s
  | .done none => True
  | .done (some state) => state.Own x s guest.id

/-! ## what no step takes back -/

/-- rows, committed writes, requests and the calls of threads stay -/
structure State.Grows (s s' : State) : Prop where
  rows : s.hotel.db.LastsIn s'.hotel.db
  log : ∀ c ∈ s.beach.log, c ∈ s'.beach.log
  sent : ∀ (k : Nat) request, s.sent[k]? = some request → s'.sent[k]? = some request
  hotel : ∀ (i : Nat) t, s.hotel.threads[i]? = some t →
    ∃ t', s'.hotel.threads[i]? = some t' ∧ t'.call = t.call
  beach : ∀ (i : Nat) t, s.beach.threads[i]? = some t →
    ∃ t', s'.beach.threads[i]? = some t' ∧ t'.call = t.call

namespace State.Grows
variable {x : Outside} {s s' : State} {guest_id : String}

theorem of_same (hh : s'.hotel = s.hotel) (hb : s'.beach = s.beach)
    (hsent : ∀ (k : Nat) request, s.sent[k]? = some request → s'.sent[k]? = some request) :
    s.Grows s' := by
  refine ⟨?_, fun c hc => ?_, hsent, fun i t ht => ⟨t, ?_, rfl⟩, fun i t ht => ⟨t, ?_, rfl⟩⟩
  · rw [hh]
    exact Hotel.Db.lastsIn_refl _
  · rwa [hb]
  · rwa [hh]
  · rwa [hb]

theorem reserved (h : s.Grows s') {id : String} (hr : s.Reserved guest_id id) :
    s'.Reserved guest_id id := by
  obtain ⟨r, hmem, hid, hguest⟩ := hr
  obtain ⟨r', hmem', rfl | rfl⟩ := h.rows.rows r hmem
  · exact ⟨_, hmem', hid, hguest⟩
  · exact ⟨_, hmem', hid, hguest⟩

theorem mine (h : s.Grows s') {id : String} (hm : s.Mine guest_id id) : s'.Mine guest_id id :=
  hm.imp_right h.reserved

theorem booked (h : s.Grows s') {a : String} (hb : s.Booked x guest_id a) : s'.Booked x guest_id a :=
  fun a' ha => h.log _ (hb a' ha)

theorem state (h : s.Grows s') {state : SimGuestState} (ho : state.Own x s guest_id) :
    state.Own x s' guest_id := by
  cases state with
  | new => trivial
  | arrived gate => trivial
  | hotel_booked gate reservationId => exact h.mine ho
  | beach_booked gate reservationId activityId => exact ⟨h.mine ho.1, h.booked ho.2⟩

theorem wait (h : s.Grows s') {request : Request} {wait : Wait} (ho : wait.Own s guest_id request) :
    wait.Own s' guest_id request := by
  cases wait with
  | getActivities gate reservationId => exact h.mine ho
  | bookActivity gate reservationId activityId => exact ⟨h.mine ho.1, ho.2⟩
  | cancelActivity gate reservationId => exact h.mine ho
  | leave reservationId => exact h.mine ho
  | _ => exact ho

theorem request (h : s.Grows s') {request : Request} (ho : request.Own x s) : request.Own x s' := by
  cases request with
  | cancelReservation id =>
    obtain ⟨guest_id, hguest, hm⟩ := ho
    exact ⟨guest_id, hguest, h.mine hm⟩
  | _ => exact ho

end State.Grows

/-! ## the handlers -/

section
variable {x : Outside} {s : State} {guest : GuestProfile}

theorem askParrot_own (last now : ℤ) (dice : Dice) : (askParrot x.env last now dice guest).Own x s guest := by
  unfold askParrot
  split <;> trivial

theorem setIf_own {id : String} {state : SimGuestState} (h : id ≠ "" → state.Own x s guest.id) :
    (setIf id state).Own x s guest := by
  unfold setIf
  by_cases e : id = ""
  · rw [if_pos e]
    trivial
  · rw [if_neg e]
    exact h e

theorem handle_own {state : SimGuestState} (hguest : guest ∈ x.syntheticGuests)
    (h : state.Own x s guest.id) (last now : ℤ) (dice : Dice) :
    (handle x.env last now dice guest state).Own x s guest := by
  have hid : guest.id ∈ x.guestIds := List.mem_map_of_mem hguest
  cases state with
  | new => exact ⟨trivial, trivial⟩
  | arrived gate =>
    rw [handle, handleArrived]
    split
    · exact ⟨hid, _, rfl, rfl⟩
    · exact askParrot_own last now dice
  | hotel_booked gate reservationId =>
    rw [handle, handleHotelBooked]
    split
    · exact ⟨trivial, h⟩
    · split
      · exact askParrot_own last now dice
      · trivial
  | beach_booked gate reservationId activityId =>
    rw [handle, handleBeachBooked]
    split
    · exact ⟨hid, h.1⟩
    · split
      · exact ⟨hid, h.1⟩
      · split
        · exact askParrot_own last now dice
        · trivial

section
variable {request : Request} {answer : Answer} {next : Next} {gate reservationId activityId : String}

theorem resume_arrive_own (hnext : Wait.arrive.resume guest answer = some next) :
    next.Own x s guest := by
  cases answer with
  | gate gate =>
    obtain rfl := Option.some.inj hnext
    exact setIf_own fun _ => trivial
  | failure =>
    obtain rfl := Option.some.inj hnext
    trivial
  | _ => exact absurd hnext (by simp [Wait.resume])

/-- the reservation that a guest books is his, and after a conflict he asks for his own -/
theorem resume_bookHotel_own (hw : (Wait.bookHotel gate).Own s guest.id request)
    (ha : answer.Own x s request) (hnext : (Wait.bookHotel gate).resume guest answer = some next) :
    next.Own x s guest := by
  obtain ⟨body, rfl, hbody⟩ := hw
  cases answer with
  | reservation id =>
    obtain rfl := Option.some.inj hnext
    exact setIf_own fun _ => .inr (hbody ▸ ha)
  | failure =>
    obtain rfl := Option.some.inj hnext
    exact ⟨trivial, rfl⟩
  | _ => exact absurd hnext (by simp [Wait.resume])

theorem resume_recover_own (hw : (Wait.recover gate).Own s guest.id request)
    (ha : answer.Own x s request) (hnext : (Wait.recover gate).resume guest answer = some next) :
    next.Own x s guest := by
  obtain rfl : request = .byGuest guest.id := hw
  cases answer with
  | reservation id =>
    obtain rfl := Option.some.inj hnext
    exact setIf_own fun _ => .inr ha
  | failure =>
    obtain rfl := Option.some.inj hnext
    trivial
  | _ => exact absurd hnext (by simp [Wait.resume])

theorem resume_askParrot_own (hnext : Wait.askParrot.resume guest answer = some next) :
    next.Own x s guest := by
  cases answer with
  | ok =>
    obtain rfl := Option.some.inj hnext
    trivial
  | failure =>
    obtain rfl := Option.some.inj hnext
    trivial
  | _ => exact absurd hnext (by simp [Wait.resume])

theorem resume_getActivities_own (hid : guest.id ∈ x.guestIds)
    (hw : (Wait.getActivities gate reservationId).Own s guest.id request)
    (hnext : (Wait.getActivities gate reservationId).resume guest answer = some next) :
    next.Own x s guest := by
  cases answer with
  | activities activities u =>
    simp only [Wait.resume] at hnext
    split at hnext
    · obtain rfl := Option.some.inj hnext
      trivial
    · obtain rfl := Option.some.inj hnext
      exact ⟨hid, hw, rfl⟩
  | failure =>
    obtain rfl := Option.some.inj hnext
    trivial
  | _ => exact absurd hnext (by simp [Wait.resume])

/-- a guest holds a place at the beach once his booking is answered -/
theorem resume_bookActivity_own
    (hw : (Wait.bookActivity gate reservationId activityId).Own s guest.id request)
    (ha : answer.Own x s request)
    (hnext : (Wait.bookActivity gate reservationId activityId).resume guest answer = some next) :
    next.Own x s guest := by
  obtain ⟨hmine, rfl⟩ := hw
  cases answer with
  | ok =>
    obtain rfl := Option.some.inj hnext
    exact setIf_own fun _ => ⟨hmine, ha⟩
  | failure =>
    obtain rfl := Option.some.inj hnext
    trivial
  | _ => exact absurd hnext (by simp [Wait.resume])

/-- a guest who gives his place up keeps his reservation, whatever the beach answers -/
theorem resume_cancelActivity_own
    (hw : (Wait.cancelActivity gate reservationId).Own s guest.id request)
    (hnext : (Wait.cancelActivity gate reservationId).resume guest answer = some next) :
    next.Own x s guest := by
  cases answer with
  | ok =>
    obtain rfl := Option.some.inj hnext
    exact hw
  | failure =>
    obtain rfl := Option.some.inj hnext
    exact hw
  | _ => exact absurd hnext (by simp [Wait.resume])

/-- a guest who has left cancels the reservation that is his, whatever the airport answers -/
theorem resume_leave_own (hid : guest.id ∈ x.guestIds)
    (hw : (Wait.leave reservationId).Own s guest.id request)
    (hnext : (Wait.leave reservationId).resume guest answer = some next) :
    next.Own x s guest := by
  cases answer with
  | ok =>
    obtain rfl := Option.some.inj hnext
    exact ⟨⟨guest.id, hid, hw⟩, trivial⟩
  | failure =>
    obtain rfl := Option.some.inj hnext
    exact ⟨⟨guest.id, hid, hw⟩, trivial⟩
  | _ => exact absurd hnext (by simp [Wait.resume])

theorem resume_cancelReservation_own
    (hnext : Wait.cancelReservation.resume guest answer = some next) : next.Own x s guest := by
  cases answer with
  | ok =>
    obtain rfl := Option.some.inj hnext
    trivial
  | failure =>
    obtain rfl := Option.some.inj hnext
    trivial
  | _ => exact absurd hnext (by simp [Wait.resume])

/-- a handler holds on to what it held, and takes what its request was answered with -/
theorem resume_own {wait : Wait} (hguest : guest ∈ x.syntheticGuests)
    (hw : wait.Own s guest.id request) (ha : answer.Own x s request)
    (hnext : wait.resume guest answer = some next) : next.Own x s guest := by
  have hid : guest.id ∈ x.guestIds := List.mem_map_of_mem hguest
  cases wait with
  | arrive => exact resume_arrive_own hnext
  | bookHotel gate => exact resume_bookHotel_own hw ha hnext
  | recover gate => exact resume_recover_own hw ha hnext
  | askParrot => exact resume_askParrot_own hnext
  | getActivities gate reservationId => exact resume_getActivities_own hid hw hnext
  | bookActivity gate reservationId activityId => exact resume_bookActivity_own hw ha hnext
  | cancelActivity gate reservationId => exact resume_cancelActivity_own hw hnext
  | leave reservationId => exact resume_leave_own hid hw hnext
  | cancelReservation => exact resume_cancelReservation_own hnext

end

theorem seedState_own (s : State) (guest_id : String) (i : Nat) : (seedState i).Own x s guest_id := by
  unfold seedState
  obtain e | e | e | e : i % 4 = 0 ∨ i % 4 = 1 ∨ i % 4 = 2 ∨ i % 4 = 3 := by omega
  all_goals rw [show STAGES.length = 4 from rfl, e]
  · trivial
  · trivial
  · exact .inl rfl
  · exact .inl rfl

theorem createInitialState_own (s : State) {guest_id : String} {state : SimGuestState}
    (h : (createInitialState x.syntheticGuests).get? guest_id = some state) :
    state.Own x s guest_id := by
  obtain ⟨p, _, e⟩ := List.mem_map.mp (Dict.mem_of_get?_ofList h)
  obtain ⟨-, rfl⟩ := Prod.mk.inj e
  exact seedState_own s guest_id p.2

end

/-! ## the invariant -/

/-- where the ids of the generator come from -/
structure Owned (x : Outside) (s : State) : Prop where
  placed : Hotel.Placed s.hotel
  honest : Hotel.Honest s.hotel
  logged : Beach.Logged s.beach
  lookups : ∀ found ∈ s.lookups, s.Reserved found.guest_id found.id
  states : ∀ (p : Nat) pg, s.pages[p]? = some pg →
    ∀ guest_id state, pg.guests.get? guest_id = some state → state.Own x s guest_id
  tasks : ∀ t ∈ s.tasks, t.guest ∈ x.syntheticGuests ∧
    ∃ request, s.sent[t.request]? = some request ∧ t.wait.Own s t.guest.id request
  sent : ∀ (k : Nat) request, s.sent[k]? = some request → request.Own x s
  atHotel : ∀ k i, (k, i) ∈ s.atHotel → ∃ request call t, s.sent[k]? = some request ∧
    request.toHotel x = some call ∧ s.hotel.threads[i]? = some t ∧ t.call = call
  atBeach : ∀ k i, (k, i) ∈ s.atBeach → ∃ request call t, s.sent[k]? = some request ∧
    request.toBeach x = some call ∧ s.beach.threads[i]? = some t ∧ t.call = call

section
variable {x : Outside} {s s' : State}

theorem Owned.grow (h : Owned x s) (hg : s.Grows s') (hplaced : Hotel.Placed s'.hotel)
    (hhonest : Hotel.Honest s'.hotel) (hlogged : Beach.Logged s'.beach)
    (hlookups : ∀ found ∈ s'.lookups, found ∈ s.lookups ∨ s'.Reserved found.guest_id found.id)
    (hpages : s'.pages = s.pages) (htasks : s'.tasks = s.tasks) (hsent : s'.sent = s.sent)
    (hhotel : ∀ k i, (k, i) ∈ s'.atHotel → (k, i) ∈ s.atHotel ∨ ∃ request call t,
      s'.sent[k]? = some request ∧ request.toHotel x = some call ∧
      s'.hotel.threads[i]? = some t ∧ t.call = call)
    (hbeach : ∀ k i, (k, i) ∈ s'.atBeach → (k, i) ∈ s.atBeach ∨ ∃ request call t,
      s'.sent[k]? = some request ∧ request.toBeach x = some call ∧
      s'.beach.threads[i]? = some t ∧ t.call = call) : Owned x s' := by
  refine ⟨hplaced, hhonest, hlogged, fun found hf => ?_, fun p pg hp g st hst => ?_, fun t ht => ?_,
    fun k request hk => ?_, fun k i hki => ?_, fun k i hki => ?_⟩
  · exact (hlookups found hf).elim (fun hold => hg.reserved (h.lookups found hold)) id
  · exact hg.state (h.states p pg (hpages ▸ hp) g st hst)
  · obtain ⟨hguest, request, hreq, hwait⟩ := h.tasks t (htasks ▸ ht)
    exact ⟨hguest, request, hg.sent _ _ hreq, hg.wait hwait⟩
  · exact hg.request (h.sent k request (hsent ▸ hk))
  · rcases hhotel k i hki with hold | hnew
    · obtain ⟨request, call, t, hk, hto, ht, hcall⟩ := h.atHotel k i hold
      obtain ⟨t', ht', hcall'⟩ := hg.hotel i t ht
      exact ⟨request, call, t', hg.sent k request hk, hto, ht', hcall'.trans hcall⟩
    · exact hnew
  · rcases hbeach k i hki with hold | hnew
    · obtain ⟨request, call, t, hk, hto, ht, hcall⟩ := h.atBeach k i hold
      obtain ⟨t', ht', hcall'⟩ := hg.beach i t ht
      exact ⟨request, call, t', hg.sent k request hk, hto, ht', hcall'.trans hcall⟩
    · exact hnew

theorem Owned.page (h : Owned x s) (p n : Nat) {f : Page → Page} (hf : ∀ pg, (f pg).guests = pg.guests) :
    Owned x { s with pages := s.pages.modify p f, nextTimer := n } := by
  refine ⟨h.placed, h.honest, h.logged, h.lookups, ?_, h.tasks, h.sent, h.atHotel, h.atBeach⟩
  refine forall_modify h.states fun pg hpg guest_id state hst => ?_
  rw [hf] at hst
  exact h.states p pg hpg guest_id state hst

theorem Owned.schedule (h : Owned x s) (p : Nat) : Owned x (s.schedule p) := by
  refine h.page p _ fun pg => ?_
  unfold Page.scheduleNext
  split <;> rfl

theorem Owned.setState (h : Owned x s) (p : Nat) {guest : GuestProfile} {state : SimGuestState}
    (ho : state.Own x s guest.id) : Owned x (s.setState p guest state) := by
  refine ⟨h.placed, h.honest, h.logged, h.lookups, ?_, h.tasks, h.sent, h.atHotel, h.atBeach⟩
  refine forall_modify h.states fun pg hpg guest_id old hold => ?_
  by_cases e : guest_id = guest.id
  · subst e
    rw [Dict.get?_set_self] at hold
    obtain rfl := Option.some.inj hold
    exact ho
  · rw [Dict.get?_set_ne _ e] at hold
    exact h.states p pg hpg guest_id old hold

theorem Owned.send (h : Owned x s) (p : Nat) {guest : GuestProfile} {request : Request} {wait : Wait}
    (hguest : guest ∈ x.syntheticGuests) (hr : request.Own x s) (hw : wait.Own s guest.id request) :
    Owned x (s.send p guest request wait) := by
  have hg : s.Grows (s.send p guest request wait) := .of_same rfl rfl fun k r hk => get_snoc_keeps hk
  refine ⟨h.placed, h.honest, h.logged, h.lookups, h.states, fun t ht => ?_, ?_, fun k i hki => ?_,
    fun k i hki => ?_⟩
  · rcases List.mem_append.mp ht with ht | ht
    · obtain ⟨hg', request', hreq, hwait⟩ := h.tasks t ht
      exact ⟨hg', request', hg.sent _ _ hreq, hwait⟩
    · obtain rfl := List.mem_singleton.mp ht
      exact ⟨hguest, request, List.getElem?_concat_length, hw⟩
  · exact forall_snoc h.sent hr
  · obtain ⟨request', call, t, hk, hto, ht, hcall⟩ := h.atHotel k i hki
    exact ⟨request', call, t, hg.sent _ _ hk, hto, ht, hcall⟩
  · obtain ⟨request', call, t, hk, hto, ht, hcall⟩ := h.atBeach k i hki
    exact ⟨request', call, t, hg.sent _ _ hk, hto, ht, hcall⟩

theorem Owned.advance (h : Owned x s) (p : Nat) {guest : GuestProfile} {next : Next}
    (hguest : guest ∈ x.syntheticGuests) (hn : next.Own x s guest) :
    Owned x (s.advance p guest next) := by
  match next with
  | .await request wait => exact h.send p hguest hn.1 hn.2
  | .ask now request =>
    have hs : Owned x (s.send p guest request .askParrot) := h.send p hguest hn trivial
    exact ⟨hs.placed, hs.honest, hs.logged, hs.lookups, hs.states, hs.tasks, hs.sent, hs.atHotel,
      hs.atBeach⟩
  | .done none => exact h.schedule p
  | .done (some state) => exact (h.setState p hn).schedule p

/-- the hotel answers a booking with a row of the guest who booked -/
theorem Owned.answer_reserved (h : Owned x s) {k i : Nat} {body : Hotel.CreateReservationDto}
    {call : Hotel.Call} {r : Hotel.Reservation} {type : Hotel.RoomType}
    (hk : s.sent[k]? = some (.reservation body))
    (hthread : s.hotel.threads[i]? = some ⟨call, .done (.reservation r type)⟩)
    (hki : (k, i) ∈ s.atHotel) : s.Reserved body.guest_id r.id := by
  obtain ⟨request, call', t, hk', hto, ht, hcall⟩ := h.atHotel k i hki
  obtain rfl := Option.some.inj (hk.symm.trans hk')
  obtain rfl := Option.some.inj hto
  obtain rfl := Option.some.inj (hthread.symm.trans ht)
  obtain rfl : call = .create body := hcall
  obtain ⟨room, _, _, hrow, r', hr', hl⟩ := h.honest i _ hthread
  have hguest : r.guest_id = body.guest_id := by rw [hrow]; rfl
  rcases hl with rfl | rfl
  · exact ⟨_, hr', rfl, hguest⟩
  · exact ⟨_, hr', rfl, hguest⟩

/-- a booking that the beach has answered is in its log -/
theorem Owned.answer_booked (h : Owned x s) {k i : Nat} {a guest_id : String} {call : Beach.Call}
    (hk : s.sent[k]? = some (.bookActivity a guest_id))
    (hthread : s.beach.threads[i]? = some ⟨call, .done .null⟩) (hki : (k, i) ∈ s.atBeach) :
    s.Booked x guest_id a := by
  intro a' ha'
  obtain ⟨request, call', t, hk', hto, ht, hcall⟩ := h.atBeach k i hki
  obtain rfl := Option.some.inj (hk.symm.trans hk')
  obtain rfl := Option.some.inj (hthread.symm.trans ht)
  rw [Request.toBeach, ha'] at hto
  obtain rfl := Option.some.inj hto
  exact h.logged i _ hthread trivial a' guest_id hcall

/-- what a service answers is true of its tables -/
theorem Owned.answer (h : Owned x s) {k : Nat} {request : Request} {reply : Reply} {answer : Answer}
    (hk : s.sent[k]? = some request) (ha : s.answer k reply = some answer) : answer.Own x s request := by
  cases reply with
  | failure =>
    obtain rfl := Option.some.inj ha
    cases request <;> trivial
  | ok =>
    simp only [State.answer, hk] at ha
    cases request with
    | chat guest_id message =>
      obtain rfl := Option.some.inj ha
      trivial
    | cancelActivity a guest_id =>
      obtain rfl := Option.some.inj ha
      trivial
    | cancelReservation id =>
      obtain rfl := Option.some.inj ha
      trivial
    | _ => exact absurd ha (by simp)
  | gate gate =>
    simp only [State.answer, hk] at ha
    cases request with
    | arrival body =>
      obtain rfl := Option.some.inj ha
      trivial
    | _ => exact absurd ha (by simp)
  | activities activities u =>
    simp only [State.answer, hk] at ha
    cases request with
    | activities =>
      obtain rfl := Option.some.inj ha
      trivial
    | _ => exact absurd ha (by simp)
  | reserved i =>
    simp only [State.answer, hk] at ha
    split at ha
    · rename_i body call r type hreq hthread
      obtain rfl := Option.some.inj hreq
      split at ha
      · rename_i hki
        obtain rfl := Option.some.inj ha
        exact h.answer_reserved hk hthread hki
      · exact absurd ha (by simp)
    · exact absurd ha (by simp)
  | lookup l =>
    simp only [State.answer, hk] at ha
    split at ha
    · rename_i guest_id found hreq hfound
      obtain rfl := Option.some.inj hreq
      split at ha
      · rename_i hguest
        obtain rfl := Option.some.inj ha
        subst hguest
        exact h.lookups found (List.mem_of_getElem? hfound)
      · exact absurd ha (by simp)
    · exact absurd ha (by simp)
  | booked i =>
    simp only [State.answer, hk] at ha
    split at ha
    · rename_i a guest_id call hreq hthread
      obtain rfl := Option.some.inj hreq
      split at ha
      · rename_i hki
        obtain rfl := Option.some.inj ha
        exact h.answer_booked hk hthread hki
      · exact absurd ha (by simp)
    · exact absurd ha (by simp)

theorem found_iff {db : Hotel.Db} {r : Hotel.Reservation} : found db r = true ↔
    r.activeFor r.guest_id = true ∧
    ∀ r' ∈ db.reservations, r'.activeFor r.guest_id = true → r'.check_in_day ≤ r.check_in_day := by
  rw [found, Bool.and_eq_true, List.all_eq_true]
  refine and_congr_right fun _ => forall₂_congr fun r' _ => ?_
  rw [Bool.or_eq_true, Bool.not_eq_true', decide_eq_true_iff, ← Bool.not_eq_true]
  exact imp_iff_not_or.symm

theorem answers_of_found {db : Hotel.Db} {r : Hotel.Reservation} {response : Hotel.ReservationResponse}
    (hr : r ∈ db.reservations) (hf : found db r = true) (he : db.respond r = .ok response) :
    db.Answers r.guest_id (.ok response) := by
  obtain ⟨hactive, hlast⟩ := found_iff.mp hf
  rw [← he]
  exact .found r hr hactive hlast

theorem reserved_of_answers {guest_id : String} {response : Hotel.ReservationResponse}
    (h : s.hotel.db.Answers guest_id (.ok response)) :
    response.guest_id = guest_id ∧ s.Reserved guest_id response.id := by
  generalize he : (Except.ok response : Except Hotel.Err Hotel.ReservationResponse) = answer at h
  cases h with
  | none _ => exact absurd he (by simp)
  | found r hr hactive _ =>
    obtain ⟨hguest, _⟩ := of_decide_eq_true hactive
    unfold Hotel.Db.respond at he
    split at he
    · obtain rfl := Except.ok.inj he
      exact ⟨hguest, r, hr, rfl, hguest⟩
    · exact absurd he (by simp)

theorem Owned.hotel {act : Hotel.Act} {hotel : Hotel.State} (h : Owned x s)
    (hs : Hotel.machine s.hotel act = some hotel) : Owned x { s with hotel := hotel } :=
  h.grow ⟨Hotel.machine_lastsIn hs, fun _ hc => hc, fun _ _ hk => hk, fun _ _ ht => Hotel.call_kept hs ht,
      fun _ t ht => ⟨t, ht, rfl⟩⟩
    (h.placed.step hs) (h.honest.step h.placed hs) h.logged (fun _ hf => .inl hf) rfl rfl rfl
    (fun _ _ hki => .inl hki) (fun _ _ hki => .inl hki)

theorem Owned.beach {act : Beach.Act} {beach : Beach.State} (h : Owned x s)
    (hs : Beach.machine s.beach act = some beach) : Owned x { s with beach := beach } :=
  h.grow ⟨Hotel.Db.lastsIn_refl _, (Beach.log_step hs).1, fun _ _ hk => hk, fun _ t ht => ⟨t, ht, rfl⟩,
      fun _ _ ht => Beach.call_kept hs ht⟩
    h.placed h.honest (h.logged.step hs) (fun _ hf => .inl hf) rfl rfl rfl
    (fun _ _ hki => .inl hki) (fun _ _ hki => .inl hki)

/-- a request arrives as a thread with its call -/
theorem Owned.deliver {k : Nat} {request : Request} (h : Owned x s) (hk : s.sent[k]? = some request)
    (hs : s.deliver x k request = some s') : Owned x s' := by
  unfold State.deliver at hs
  split at hs
  · rename_i call hto
    obtain ⟨hotel, hm, rfl⟩ := Option.map_eq_some_iff.mp hs
    have hh := h.hotel hm
    obtain rfl := Option.some.inj hm
    refine ⟨hh.placed, hh.honest, hh.logged, hh.lookups, hh.states, hh.tasks, hh.sent, ?_, hh.atBeach⟩
    intro k' i hki
    rcases List.mem_append.mp hki with hki | hki
    · exact hh.atHotel k' i hki
    · obtain ⟨rfl, rfl⟩ := Prod.mk.inj (List.mem_singleton.mp hki)
      exact ⟨request, call, _, hk, hto, List.getElem?_concat_length, rfl⟩
  · split at hs
    · rename_i call hto
      obtain ⟨beach, hm, rfl⟩ := Option.map_eq_some_iff.mp hs
      have hb := h.beach hm
      obtain rfl := Option.some.inj hm
      refine ⟨hb.placed, hb.honest, hb.logged, hb.lookups, hb.states, hb.tasks, hb.sent, hb.atHotel, ?_⟩
      intro k' i hki
      rcases List.mem_append.mp hki with hki | hki
      · exact hb.atBeach k' i hki
      · obtain ⟨rfl, rfl⟩ := Prod.mk.inj (List.mem_singleton.mp hki)
        exact ⟨request, call, _, hk, hto, List.getElem?_concat_length, rfl⟩
    · exact absurd hs (by simp)

theorem Owned.fire {p id : Nat} {pg : Page} (h : Owned x s) (dice : Dice) (now : ℤ)
    (hpg : s.pages[p]? = some pg) : Owned x (s.fire x p id dice now pg) := by
  have hu : Owned x (s.unset p id) := h.page p _ fun _ => rfl
  unfold State.fire
  split
  · exact hu.schedule p
  · rename_i guest hsample
    split
    · exact hu.schedule p
    · rename_i state hst
      have hguest := sample_mem hsample
      exact hu.advance p hguest (handle_own hguest (h.states p pg hpg guest.id state hst) _ now dice)

theorem Owned.resume {j : Nat} {t : Task} {reply : Reply} {answer : Answer} {next : Next}
    (h : Owned x s) (ht : s.tasks[j]? = some t) (ha : s.answer t.request reply = some answer)
    (hnext : t.wait.resume t.guest answer = some next) :
    Owned x ((s.wake j).advance t.page t.guest next) := by
  obtain ⟨hguest, request, hreq, hwait⟩ := h.tasks t (List.mem_of_getElem? ht)
  have hn : next.Own x s t.guest := resume_own hguest hwait (h.answer hreq ha) hnext
  have hw : Owned x (s.wake j) := ⟨h.placed, h.honest, h.logged, h.lookups, h.states,
    fun u hu => h.tasks u (List.mem_of_mem_eraseIdx hu), h.sent, h.atHotel, h.atBeach⟩
  exact hw.advance t.page hguest hn

theorem Owned.step {act : Act} (h : Owned x s) (hs : machine x s act = some s') : Owned x s' := by
  cases act with
  | hotel act =>
    obtain ⟨hotel, hm, rfl⟩ := Option.map_eq_some_iff.mp hs
    exact h.hotel hm
  | beach act =>
    obtain ⟨beach, hm, rfl⟩ := Option.map_eq_some_iff.mp hs
    exact h.beach hm
  | lookup row =>
    obtain ⟨r, hr, hlook⟩ := Option.bind_eq_some_iff.mp hs
    split at hlook
    · rename_i response hf he
      obtain rfl := Option.some.inj hlook
      obtain ⟨hguest, hres⟩ := reserved_of_answers (answers_of_found (List.mem_of_getElem? hr) hf he)
      refine ⟨h.placed, h.honest, h.logged, fun found hmem => ?_, h.states, h.tasks, h.sent, h.atHotel,
        h.atBeach⟩
      rcases List.mem_append.mp hmem with hmem | hmem
      · exact h.lookups found hmem
      · obtain rfl := List.mem_singleton.mp hmem
        rw [hguest]
        exact hres
    · exact absurd hlook (by simp)
  | «open» =>
    obtain rfl := Option.some.inj hs
    exact ⟨h.placed, h.honest, h.logged, h.lookups,
      forall_snoc h.states fun _ _ hst => createInitialState_own _ hst, h.tasks, h.sent, h.atHotel,
      h.atBeach⟩
  | mount p =>
    obtain ⟨pg, _, hmount⟩ := Option.bind_eq_some_iff.mp hs
    split at hmount
    · exact absurd hmount (by simp)
    · obtain rfl := Option.some.inj hmount
      unfold State.mount
      split
      · have hp := h.page p s.nextTimer (f := fun pg =>
          { pg with running := true, stragglers := s.inFlight p }) fun _ => rfl
        exact ((hp.schedule p).schedule p).schedule p
      · exact h
  | unmount p =>
    obtain ⟨pg, _, rfl⟩ := Option.map_eq_some_iff.mp hs
    exact h.page p s.nextTimer fun _ => rfl
  | fire p id dice now =>
    obtain ⟨pg, hpg, hfire⟩ := Option.bind_eq_some_iff.mp hs
    split at hfire
    · obtain rfl := Option.some.inj hfire
      exact h.fire dice now hpg
    · exact absurd hfire (by simp)
  | deliver k =>
    obtain ⟨request, hk, hdel⟩ := Option.bind_eq_some_iff.mp hs
    exact h.deliver hk hdel
  | resume j reply =>
    obtain ⟨t, ht, hrest⟩ := Option.bind_eq_some_iff.mp hs
    obtain ⟨answer, ha, hmap⟩ := Option.bind_eq_some_iff.mp hrest
    obtain ⟨next, hnext, rfl⟩ := Option.map_eq_some_iff.mp hmap
    exact h.resume ht ha hnext

end

theorem owned_init (x : Outside) (hotel : Hotel.Db) (beach : Beach.Db) :
    Owned x (State.init hotel beach) where
  placed i t ht := absurd ht (by simp [State.init, Hotel.State.init])
  honest i t ht := absurd ht (by simp [State.init, Hotel.State.init])
  logged i t ht := absurd ht (by simp [State.init, Beach.State.init])
  lookups _ h := absurd h (by simp [State.init])
  states p pg hp := absurd hp (by simp [State.init])
  tasks _ h := absurd h (by simp [State.init])
  sent k r hk := absurd hk (by simp [State.init])
  atHotel k i h := absurd h (by simp [State.init])
  atBeach k i h := absurd h (by simp [State.init])

/-! ## the law -/

theorem advance_services (s : State) (p : Nat) (guest : GuestProfile) (next : Next) :
    (s.advance p guest next).hotel = s.hotel ∧ (s.advance p guest next).beach = s.beach := by
  match next with
  | .await request wait => exact ⟨rfl, rfl⟩
  | .ask now request => exact ⟨rfl, rfl⟩
  | .done none => exact ⟨rfl, rfl⟩
  | .done (some state) => exact ⟨rfl, rfl⟩

/-- a service takes a step of its own, or none -/
theorem services_step {x : Outside} {s s' : State} {act : Act} (hs : machine x s act = some s') :
    (s'.hotel = s.hotel ∨ ∃ a, Hotel.machine s.hotel a = some s'.hotel) ∧
    (s'.beach = s.beach ∨ ∃ a, Beach.machine s.beach a = some s'.beach) := by
  cases act with
  | hotel act =>
    obtain ⟨hotel, hm, rfl⟩ := Option.map_eq_some_iff.mp hs
    exact ⟨.inr ⟨act, hm⟩, .inl rfl⟩
  | beach act =>
    obtain ⟨beach, hm, rfl⟩ := Option.map_eq_some_iff.mp hs
    exact ⟨.inl rfl, .inr ⟨act, hm⟩⟩
  | lookup row =>
    obtain ⟨r, _, hlook⟩ := Option.bind_eq_some_iff.mp hs
    split at hlook
    · obtain rfl := Option.some.inj hlook
      exact ⟨.inl rfl, .inl rfl⟩
    · exact absurd hlook (by simp)
  | «open» =>
    obtain rfl := Option.some.inj hs
    exact ⟨.inl rfl, .inl rfl⟩
  | mount p =>
    obtain ⟨pg, _, hmount⟩ := Option.bind_eq_some_iff.mp hs
    split at hmount
    · exact absurd hmount (by simp)
    · obtain rfl := Option.some.inj hmount
      unfold State.mount
      split <;> exact ⟨.inl rfl, .inl rfl⟩
  | unmount p =>
    obtain ⟨pg, _, rfl⟩ := Option.map_eq_some_iff.mp hs
    exact ⟨.inl rfl, .inl rfl⟩
  | fire p id dice now =>
    obtain ⟨pg, _, hfire⟩ := Option.bind_eq_some_iff.mp hs
    split at hfire
    · obtain rfl := Option.some.inj hfire
      unfold State.fire
      split
      · exact ⟨.inl rfl, .inl rfl⟩
      · split
        · exact ⟨.inl rfl, .inl rfl⟩
        · exact (advance_services _ p _ _).imp .inl .inl
    · exact absurd hfire (by simp)
  | deliver k =>
    obtain ⟨request, _, hdel⟩ := Option.bind_eq_some_iff.mp hs
    unfold State.deliver at hdel
    split at hdel
    · obtain ⟨hotel, hm, rfl⟩ := Option.map_eq_some_iff.mp hdel
      exact ⟨.inr ⟨_, hm⟩, .inl rfl⟩
    · split at hdel
      · obtain ⟨beach, hm, rfl⟩ := Option.map_eq_some_iff.mp hdel
        exact ⟨.inl rfl, .inr ⟨_, hm⟩⟩
      · exact absurd hdel (by simp)
  | resume j reply =>
    obtain ⟨t, _, hrest⟩ := Option.bind_eq_some_iff.mp hs
    obtain ⟨answer, _, hmap⟩ := Option.bind_eq_some_iff.mp hrest
    obtain ⟨next, _, rfl⟩ := Option.map_eq_some_iff.mp hmap
    exact (advance_services (s.wake j) t.page t.guest next).imp .inl .inl

/-- the invariant, and who is to blame for what was cancelled -/
structure Accounted (x : Outside) (hotel : Hotel.Db) (s : State) : Prop where
  owned : Owned x s
  hotel : Hotel.Blamed hotel s.hotel
  beach : Beach.Blamed s.beach

section
variable {x : Outside} {hotel : Hotel.Db} {s s' : State}

theorem Accounted.step {act : Act} (h : Accounted x hotel s) (hs : machine x s act = some s') :
    Accounted x hotel s' := by
  obtain ⟨hh, hb⟩ := services_step hs
  refine ⟨h.owned.step hs, ?_, ?_⟩
  · rcases hh with e | ⟨a, hm⟩
    · rw [e]
      exact h.hotel
    · exact h.hotel.step hm
  · rcases hb with e | ⟨a, hm⟩
    · rw [e]
      exact h.beach
    · exact h.beach.step hm

/-- a thread that came of the generator cancels a row of one of its guests -/
theorem Owned.cancels (h : Owned x s)
    (hplain : ∀ r ∈ s.hotel.db.reservations, ∀ id, x.reservationAt r.id = some id → id = r.id)
    {k i : Nat} {t : Hotel.Thread} {id : String} (hki : (k, i) ∈ s.atHotel)
    (ht : s.hotel.threads[i]? = some t) (hcall : t.call = .cancel id) :
    ∃ guest_id ∈ x.guestIds, s.Reserved guest_id id := by
  obtain ⟨request, call, t', hk, hto, ht', hcall'⟩ := h.atHotel k i hki
  obtain rfl := Option.some.inj (ht.symm.trans ht')
  rw [← hcall', hcall] at hto
  have hown := h.sent k request hk
  cases request with
  | reservation body => exact absurd hto (by simp [Request.toHotel])
  | cancelReservation id₀ =>
    rw [Request.toHotel] at hto
    split at hto
    · exact absurd hto (by simp)
    · rename_i hne
      obtain ⟨id', hat, e⟩ := Option.map_eq_some_iff.mp hto
      obtain rfl : id' = id := by injection e
      obtain ⟨guest_id, hguest, hmine⟩ := hown
      obtain ⟨r, hr, rfl, hrg⟩ := hmine.resolve_left hne
      exact ⟨guest_id, hguest, r, hr, (hplain r hr _ hat).symm, hrg⟩
  | _ => exact absurd hto (by simp [Request.toHotel])

theorem Owned.visitor (h : Owned x s) {k i : Nat} {t : Beach.Thread} {a v : String}
    (hki : (k, i) ∈ s.atBeach) (ht : s.beach.threads[i]? = some t) (hcall : t.call = .cancel a v) :
    v ∈ x.guestIds := by
  obtain ⟨request, call, t', hk, hto, ht', hcall'⟩ := h.atBeach k i hki
  obtain rfl := Option.some.inj (ht.symm.trans ht')
  rw [← hcall', hcall] at hto
  have hown := h.sent k request hk
  have hroute : ∀ (route : Option ActivityRoute) guest_id,
      route.map (ActivityRoute.call guest_id) = some (.cancel a v) → v = guest_id := by
    intro route guest_id e
    obtain ⟨r, _, e⟩ := Option.map_eq_some_iff.mp e
    cases r with
    | book a' => exact absurd e (by simp [ActivityRoute.call])
    | cancel a' =>
      injection e with _ e
      exact e.symm
  cases request with
  | bookActivity a' guest_id =>
    rw [hroute _ guest_id hto]
    exact hown
  | cancelActivity a' guest_id =>
    rw [hroute _ guest_id hto]
    exact hown
  | _ => exact absurd hto (by simp [Request.toBeach])

end

/-- **The generator cancels for its own guests only.**  Whatever the interleaving with the other clients,
whatever answers are lost and however late requests arrive, and as long as the hotel reads the ids of its
reservations out of paths as they are: every reservation that the generator asks the hotel to cancel is
one of its own guests', unless it has no id at all; a reservation of any other guest that is CANCELLED and
was not to begin with, and a booking of any other guest at the beach that was cancelled, has been
cancelled by a request that did not come from the generator. -/
theorem others_not_cancelled (x : Outside) (hotel : Hotel.Db) (beach : Beach.Db) (acts : List Act)
    (s : State) (hrun : (machine x).Runs free (State.init hotel beach) acts s)
    (hplain : ∀ r ∈ s.hotel.db.reservations, ∀ id, x.reservationAt r.id = some id → id = r.id) :
    (∀ id, .cancelReservation id ∈ s.sent → ∃ guest_id ∈ x.guestIds, s.Mine guest_id id) ∧
    (∀ r ∈ s.hotel.db.reservations, r.guest_id ∉ x.guestIds → r.status = .CANCELLED →
      hotel.statusOf r.id = some .CANCELLED ∨
      ∃ (i : Nat) (t : Hotel.Thread), s.hotel.threads[i]? = some t ∧ t.call = .cancel r.id ∧
        ∀ k, (k, i) ∉ s.atHotel) ∧
    ∀ a v, .cancelled a v ∈ s.beach.log → v ∉ x.guestIds →
      ∃ (i : Nat) (t : Beach.Thread), s.beach.threads[i]? = some t ∧ t.call = .cancel a v ∧
        ∀ k, (k, i) ∉ s.atBeach := by
  have hinit : Accounted x hotel (State.init hotel beach) :=
    ⟨owned_init x hotel beach, Hotel.blamed_init hotel, fun _ _ hc => absurd hc (by simp [State.init, Beach.State.init])⟩
  have h : Accounted x hotel s := hrun.inv (fun _ _ _ h _ hm => h.step hm) hinit
  refine ⟨fun id hid => ?_, fun r hr hguest hst => ?_, fun a v hc hv => ?_⟩
  · obtain ⟨k, hk⟩ := List.mem_iff_getElem?.mp hid
    exact h.owned.sent k _ hk
  · refine (h.hotel r hr hst).imp_right ?_
    rintro ⟨i, t, ht, hcall⟩
    refine ⟨i, t, ht, hcall, fun k hki => ?_⟩
    obtain ⟨guest_id, hmem, r', hr', hid, rfl⟩ := h.owned.cancels hplain hki ht hcall
    obtain rfl := List.inj_on_of_nodup_map s.hotel.db.ids_nodup hr' hr hid
    exact hguest hmem
  · obtain ⟨i, t, ht, hcall⟩ := h.beach a v hc
    exact ⟨i, t, ht, hcall, fun k hki => hv (h.owned.visitor hki ht hcall)⟩

def low : Random := ⟨0, by norm_num, by norm_num⟩

/-- coral books a room, or takes the first branch of a later stage -/
def coralGoes (action : Random) : Dice := ⟨half, action, low, low, low, low, low⟩

/-- ana books and cancels; coral books a room and an activity, and leaves -/
def coralLeaves : List Act :=
  [.hotel (.arrive (.create (Hotel.stay "ana" 1 3))), .hotel (.airport 0 (some true)), .hotel (.go 0),
   .hotel (.go 0), .hotel (.insert 0 "r-0"), .hotel (.go 0), .hotel (.arrive (.cancel "r-0")),
   .hotel (.go 1), .hotel (.go 1), .hotel (.go 1),
   .open, .mount 0, .fire 0 0 (coralGoes half) 0, .deliver 0, .hotel (.airport 2 (some true)),
   .hotel (.go 2), .hotel (.go 2), .hotel (.insert 2 "r-1"), .hotel (.go 2), .resume 0 (.reserved 2),
   .beach (.checkIn coral.id), .fire 0 1 (coralGoes low) 0, .resume 0 (.activities [("volley", 1)] low),
   .deliver 2, .beach (.go 0), .beach (.go 0), .beach (.go 0), .beach (.go 0), .beach (.go 0),
   .resume 0 (.booked 0), .fire 0 2 (coralGoes low) 0, .deliver 3, .beach (.go 1), .beach (.go 1),
   .beach (.go 1), .resume 0 .ok, .deliver 4, .hotel (.go 3), .hotel (.go 3), .hotel (.go 3), .resume 0 .ok]

theorem coralLeaves_runs :
    ((machine island).run (State.init Hotel.oneRoomDb (Beach.volleyDb 1)) coralLeaves).map
      (fun s => (s.hotel.db.reservations.map fun r => (r.id, r.guest_id, r.status), s.atHotel)) =
    some ([("r-0", "ana", .CANCELLED), ("r-1", coral.id, .CANCELLED)], [(0, 2), (4, 3)]) := by
  decide +kernel

theorem others_not_cancelled_coral : ∃ s,
    (machine island).run (State.init Hotel.oneRoomDb (Beach.volleyDb 1)) coralLeaves = some s ∧
    s.atHotel = [(0, 2), (4, 3)] ∧
    ∃ (i : Nat) (t : Hotel.Thread), s.hotel.threads[i]? = some t ∧ t.call = .cancel "r-0" ∧
      ∀ k, (k, i) ∉ s.atHotel := by
  obtain ⟨s, hs, e⟩ := Option.map_eq_some_iff.mp coralLeaves_runs
  obtain ⟨hrows, hat⟩ := Prod.mk.inj e
  have hmem : ("r-0", "ana", Hotel.ReservationStatus.CANCELLED) ∈
      s.hotel.db.reservations.map fun r => (r.id, r.guest_id, r.status) := by
    rw [hrows]
    exact List.mem_cons_self
  obtain ⟨r, hr, e⟩ := List.mem_map.mp hmem
  obtain ⟨hid, hguest, hst⟩ : r.id = "r-0" ∧ r.guest_id = "ana" ∧ r.status = .CANCELLED := by
    simpa using e
  have h := (others_not_cancelled island Hotel.oneRoomDb (Beach.volleyDb 1) coralLeaves s
    (Machine.runs_free_iff.mpr hs) (fun r _ id h => (Option.some.inj h).symm)).2.1 r hr
    (by rw [hguest]; decide) hst
  rw [hid] at h
  exact ⟨s, hs, hat, h.resolve_left (by decide)⟩

end Simulation
