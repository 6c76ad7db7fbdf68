import Purrlington.Hotel.Availability
import Purrlington.Lib.Json

/-!
# Hotel: what a create comes to

* `hasGuestClearedProcessing`   the airport's word on a guest, from its reply;
* `Rejected`, `FirstFree`       the four grounds on which a request is turned down, and the room
                                that it gets otherwise;
* `TurnedDown`                  the grounds that are found before the database raises an error;
* `Outcome`                     the three ways to end: turned down with nothing written or
                                published, booked, or failed in the database over a value that
                                its column does not take or a guest who is named twice;
* `Stage`                       what is known at each await, kept by every step of a create alone;
* `create_exact`                the ends of a create whose party names nobody twice;
* `no_prisma_error_iff`         exactly the requests that cannot be stored end in the error of the
                                database, unless they are turned down before.
-/

set_option linter.unusedSectionVars false

namespace Hotel
open SM

/-! ## the airport's reply -/

/-- no `AIRPORT_SERVICE_URL`, a rejected `fetch`, or a response with the value of its text, which
`JSON.parse` may refuse -/
inductive AirportReply where
  | unset
  | failed
  | response (ok : Bool) (body : Option Json)

def hasGuestClearedProcessing : AirportReply → Option Bool
  | .unset => none
  | .failed => none
  | .response ok body =>
    if ok then
      match body with
      | none => none
      -- `null.status` throws, and the `catch` answers
      | some .null => none
      | some v => some (decide (v.text "status" = some "processed"))
    else none

/-- the airport knows the guest and does not call it processed -/
def AirportReply.NotProcessed (reply : AirportReply) : Prop :=
  ∃ v, reply = .response true (some v) ∧ v ≠ .null ∧ v.text "status" ≠ some "processed"

theorem hasGuestClearedProcessing_eq_false {reply : AirportReply} :
    hasGuestClearedProcessing reply = some false ↔ reply.NotProcessed := by
  constructor
  · intro h
    unfold hasGuestClearedProcessing at h
    split at h
    · exact absurd h (by simp)
    · exact absurd h (by simp)
    · rename_i ok body
      split at h
      · rename_i hok
        split at h
        · exact absurd h (by simp)
        · exact absurd h (by simp)
        · rename_i v hv
          refine ⟨v, by rw [hok], hv, ?_⟩
          exact of_decide_eq_false (Option.some.inj h)
      · exact absurd h (by simp)
  · rintro ⟨v, rfl, hv, hst⟩
    cases v with
    | null => exact absurd rfl hv
    | _ => exact congrArg some (decide_eq_false hst)

/-! ## the grounds -/

/-- a CONFIRMED reservation of the room meets the requested days -/
def Db.Taken (db : Db) (dto : CreateReservationDto) (room : Room) : Prop :=
  ∃ r ∈ db.reservations, r.room_id = room.id ∧ r.status = .CONFIRMED ∧
    r.check_in_day ≤ dto.check_out_day ∧ dto.check_in_day ≤ r.check_out_day

theorem count_ne_zero_iff {db : Db} {dto : CreateReservationDto} {room : Room} :
    db.count room.id dto ≠ 0 ↔ db.Taken dto room := by
  rw [Ne, count_eq_zero, not_forall₂]
  apply exists_congr
  intro r
  rw [exists_prop, Bool.not_eq_false, Db.overlapping, decide_eq_true_iff]

/-- the request is for no night, the guest is not processed, the party is larger than every room of
the type, or every room that is large enough is taken -/
def Rejected (db : Db) (dto : CreateReservationDto) (reply : AirportReply) : Prop :=
  dto.check_out_day ≤ dto.check_in_day ∨ reply.NotProcessed ∨
  (∀ room ∈ db.findRooms dto.room_type, room.capacity < dto.partySize) ∨
  ∀ room ∈ db.fitting dto, db.Taken dto room

/-- the same, where the count of a room has to be answered before it is known to be taken -/
def TurnedDown (db : Db) (dto : CreateReservationDto) (reply : AirportReply) : Prop :=
  dto.check_out_day ≤ dto.check_in_day ∨ reply.NotProcessed ∨
  (∀ room ∈ db.findRooms dto.room_type, room.capacity < dto.partySize) ∨
  ∀ room ∈ db.fitting dto, dto.daysFit = true ∧ db.Taken dto room

theorem TurnedDown.rejected {db : Db} {dto : CreateReservationDto} {reply : AirportReply}
    (h : TurnedDown db dto reply) : Rejected db dto reply :=
  h.imp id (Or.imp id (Or.imp id fun ht room hroom => (ht room hroom).2))

/-- of the rooms that are large enough and free, the one with the smallest id -/
structure FirstFree (db : Db) (dto : CreateReservationDto) (room : Room) : Prop where
  fits : room ∈ db.fitting dto
  free : ¬ db.Taken dto room
  first : ∀ x ∈ db.fitting dto, ¬ db.Taken dto x → room.id ≤ x.id

/-- what the first two checks let through -/
def Admitted (dto : CreateReservationDto) (reply : AirportReply) : Prop :=
  dto.check_in_day < dto.check_out_day ∧ ¬ reply.NotProcessed

theorem not_rejected {db : Db} {dto : CreateReservationDto} {reply : AirportReply} {room : Room}
    (h : Admitted dto reply) (hroom : FirstFree db dto room) : ¬ Rejected db dto reply := by
  obtain ⟨hdays, hreply⟩ := h
  obtain ⟨hmem, hcap⟩ := mem_fitting.mp hroom.fits
  rintro (hle | hnot | hlarge | htaken)
  · omega
  · exact hreply hnot
  · have := hlarge room hmem
    omega
  · exact hroom.free (htaken room hroom.fits)

/-- the count of a room raises: nothing has turned the request down before -/
theorem not_turnedDown_of_unfit {db : Db} {dto : CreateReservationDto} {reply : AirportReply}
    {room : Room} (h : Admitted dto reply) (hroom : room ∈ db.fitting dto)
    (hunfit : dto.daysFit = false) : ¬ TurnedDown db dto reply := by
  obtain ⟨hdays, hreply⟩ := h
  obtain ⟨hmem, hcap⟩ := mem_fitting.mp hroom
  rintro (hle | hnot | hlarge | htaken)
  · omega
  · exact hreply hnot
  · have := hlarge room hmem
    omega
  · exact absurd (hunfit.symm.trans (htaken room hroom).1) Bool.false_ne_true

theorem firstFree_of_searched {db : Db} {dto : CreateReservationDto} {room : Room}
    {l rest : List Room} (hrooms : db.findRooms dto.room_type = l ++ room :: rest)
    (hl : ∀ x ∈ l, dto.partySize ≤ x.capacity → dto.daysFit = true ∧ db.Taken dto x)
    (hcap : dto.partySize ≤ room.capacity) (hfree : ¬ db.Taken dto room) :
    FirstFree db dto room := by
  have hmem : room ∈ db.findRooms dto.room_type := by
    rw [hrooms]
    exact List.mem_append_right _ List.mem_cons_self
  refine ⟨mem_fitting.mpr ⟨hmem, hcap⟩, hfree, ?_⟩
  intro x hx hxfree
  obtain ⟨hxmem, hxcap⟩ := mem_fitting.mp hx
  have hsorted : (l ++ room :: rest).Pairwise fun a b => a.id < b.id := by
    rw [← hrooms]
    exact db.rooms_sorted.filter _
  rw [hrooms] at hxmem
  rcases List.mem_append.mp hxmem with hxl | hxr
  · exact absurd (hl x hxl hxcap).2 hxfree
  · rcases List.mem_cons.mp hxr with rfl | hxr
    · exact le_refl _
    · have hrest := (List.pairwise_append.mp hsorted).2.1
      exact le_of_lt ((List.pairwise_cons.mp hrest).1 x hxr)

/-! ## the ends and the stages before them -/

/-- the result with the tables and the events that it leaves -/
inductive Outcome (db : Db) (dto : CreateReservationDto) (reply : AirportReply) :
    Result → Db → List HotelBroadcastEvent → Prop where
  | rejected (e) : e ≠ .prisma → TurnedDown db dto reply → Outcome db dto reply (.error e) db []
  | raised : ¬ TurnedDown db dto reply → ¬ dto.Storable →
      Outcome db dto reply (.error .prisma) db []
  | booked (room uuid) (h : uuid ∉ db.reservations.map Reservation.id) (hst : dto.Storable) :
      ¬ Rejected db dto reply → FirstFree db dto room →
      Outcome db dto reply (.reservation (Db.newRow uuid dto room) room.type)
        (db.create (Db.newRow uuid dto room) h (Db.newRow_fits hst))
        [eventOf .ReservationConfirmed "Hotel reservation confirmed." (Db.newRow uuid dto room)
          (some room.type)]

/-- nothing is written or published before the insert, and the rooms passed are taken -/
def Stage (db : Db) (dto : CreateReservationDto) (reply : AirportReply) (now : Db)
    (ev : List HotelBroadcastEvent) : Pc → Prop
  | .airport => now = db ∧ ev = [] ∧ dto.check_in_day < dto.check_out_day
  | .findRooms => now = db ∧ ev = [] ∧ Admitted dto reply
  | .count room rest => now = db ∧ ev = [] ∧ Admitted dto reply ∧ dto.partySize ≤ room.capacity ∧
      ∃ l, db.findRooms dto.room_type = l ++ room :: rest ∧
        ∀ x ∈ l, dto.partySize ≤ x.capacity → dto.daysFit = true ∧ db.Taken dto x
  | .insert room => now = db ∧ ev = [] ∧ Admitted dto reply ∧ FirstFree db dto room
  | .publishConfirmed r room => ev = [] ∧ Admitted dto reply ∧ FirstFree db dto room ∧
      ∃ uuid, ∃ h : uuid ∉ db.reservations.map Reservation.id, ∃ hst : dto.Storable,
        r = Db.newRow uuid dto room ∧ now = db.create (Db.newRow uuid dto room) h (Db.newRow_fits hst)
  | .done r => Outcome db dto reply r now ev
  | .findFirst => False
  | .update => False
  | .publishCancelled _ _ => False

theorem nextRoom_stage {db : Db} {dto : CreateReservationDto} {reply : AirportReply}
    {l rest : List Room} (h : Admitted dto reply) (hrooms : db.findRooms dto.room_type = l ++ rest)
    (hl : ∀ x ∈ l, dto.partySize ≤ x.capacity → dto.daysFit = true ∧ db.Taken dto x) :
    Stage db dto reply db [] (nextRoom dto rest) := by
  obtain ⟨hall, e⟩ | ⟨small, room, rest, rfl, hsmall, hfits, e⟩ := nextRoom_cases dto rest
  · rw [e]
    refine .rejected _ (by simp) (.inr (.inr (.inr ?_)))
    intro room hroom
    obtain ⟨hmem, hcap⟩ := mem_fitting.mp hroom
    rw [hrooms] at hmem
    exact passed_append hl hall room hmem hcap
  · rw [e]
    refine ⟨rfl, rfl, h, hfits, l ++ small, ?_, passed_append hl hsmall⟩
    rw [hrooms, List.append_assoc]

theorem searchRooms_stage {db : Db} {dto : CreateReservationDto} {reply : AirportReply}
    (h : Admitted dto reply) :
    Stage db dto reply db [] (searchRooms dto (db.findRooms dto.room_type)) := by
  by_cases hfit : ∃ room ∈ db.findRooms dto.room_type, dto.partySize ≤ room.capacity
  · obtain ⟨room, hroom, hcap⟩ := hfit
    rw [searchRooms_of_mem hroom hcap]
    exact nextRoom_stage h (List.nil_append _).symm (fun x hx => absurd hx (by simp))
  · -- the party is too large for every room, whatever the check says
    have hlarge : ∀ room ∈ db.findRooms dto.room_type, room.capacity < dto.partySize := by
      intro room hroom
      by_contra hcap
      exact hfit ⟨room, hroom, by omega⟩
    obtain ⟨max, e⟩ | e := searchRooms_cases dto (db.findRooms dto.room_type)
    · rw [e]
      exact .rejected _ (by simp) (.inr (.inr (.inl hlarge)))
    · rw [e]
      exact nextRoom_stage h (List.nil_append _).symm (fun x hx => absurd hx (by simp))

theorem entry_stage (db : Db) (dto : CreateReservationDto) (reply : AirportReply) :
    Stage db dto reply db [] (Call.entry (.create dto)) := by
  rw [Call.entry]
  split
  · rename_i hdays
    exact .rejected _ (by simp) (.inl hdays)
  · rename_i hdays
    exact ⟨rfl, rfl, by omega⟩

/-! ## a create alone -/

/-- no request but the first, and the airport replies so -/
def Solo (reply : AirportReply) (s : State) : Act → Prop
  | .arrive _ => s.threads = []
  | .airport _ answer => answer = hasGuestClearedProcessing reply
  | .go _ => True
  | .insert _ _ => True

instance (reply : AirportReply) : ∀ s act, Decidable (Solo reply s act)
  | s, .arrive _ => inferInstanceAs (Decidable (s.threads = []))
  | _, .airport _ answer => inferInstanceAs (Decidable (answer = hasGuestClearedProcessing reply))
  | _, .go _ => inferInstanceAs (Decidable True)
  | _, .insert _ _ => inferInstanceAs (Decidable True)

theorem Solo.alone {reply : AirportReply} {s : State} {act : Act} (h : Solo reply s act) :
    ∀ call, act = .arrive call → s.threads = [] := by
  intro call hcall
  subst hcall
  exact h

def Staged (db : Db) (dto : CreateReservationDto) (reply : AirportReply) (s : State) : Prop :=
  ∃ pc, s.threads = [⟨.create dto, pc⟩] ∧ Stage db dto reply s.db s.published pc

theorem Staged.step {db : Db} {dto : CreateReservationDto} {reply : AirportReply} {s s' : State}
    {act : Act} (h : Staged db dto reply s) (hsolo : Solo reply s act)
    (hs : machine s act = some s') : Staged db dto reply s' := by
  obtain ⟨pc, hthreads, hstage⟩ := h
  have hact := hsolo.alone
  have hgoto := goto_alone hthreads
  obtain ⟨now, threads, ev⟩ := s
  cases lone_step hthreads hact hs with
  | notCleared =>
    obtain ⟨rfl, rfl, hdays⟩ := hstage
    have hsay : some false = hasGuestClearedProcessing reply := hsolo
    refine ⟨_, hgoto _, .rejected _ (by simp) (.inr (.inl ?_))⟩
    exact hasGuestClearedProcessing_eq_false.mp hsay.symm
  | cleared answer hne =>
    obtain ⟨rfl, rfl, hdays⟩ := hstage
    have hsay : answer = hasGuestClearedProcessing reply := hsolo
    refine ⟨_, hgoto _, rfl, rfl, hdays, ?_⟩
    intro hnot
    rw [hsay] at hne
    exact hne (hasGuestClearedProcessing_eq_false.mpr hnot)
  | rooms =>
    obtain ⟨rfl, rfl, hadm⟩ := hstage
    exact ⟨_, hgoto _, searchRooms_stage hadm⟩
  | unfit room rest hunfit =>
    obtain ⟨rfl, rfl, hadm, hcap, l, hrooms, _⟩ := hstage
    have hroom : room ∈ Db.fitting _ dto :=
      mem_fitting.mpr ⟨hrooms ▸ List.mem_append_right _ List.mem_cons_self, hcap⟩
    refine ⟨_, hgoto _, .raised (not_turnedDown_of_unfit hadm hroom hunfit) fun hst => ?_⟩
    exact absurd (hunfit.symm.trans (CreateReservationDto.daysFit_of_fits hst.1)) Bool.false_ne_true
  | free room rest hfit hzero =>
    obtain ⟨rfl, rfl, hadm, hcap, l, hrooms, hl⟩ := hstage
    have hfree : ¬ Db.Taken _ dto room := fun htaken => count_ne_zero_iff.mpr htaken hzero
    exact ⟨_, hgoto _, rfl, rfl, hadm, firstFree_of_searched hrooms hl hcap hfree⟩
  | taken room rest hfit hne =>
    obtain ⟨rfl, rfl, hadm, hcap, l, hrooms, hl⟩ := hstage
    refine ⟨_, hgoto _, ?_⟩
    exact nextRoom_stage hadm (hrooms.trans (List.append_assoc l [room] rest).symm)
      (passed_snoc hl fun _ => ⟨hfit, count_ne_zero_iff.mp hne⟩)
  | insert room uuid hid hst =>
    obtain ⟨rfl, rfl, hadm, hfirst⟩ := hstage
    exact ⟨_, hgoto _, rfl, hadm, hfirst, uuid, hid, hst, rfl, rfl⟩
  | raises room uuid hst =>
    obtain ⟨rfl, rfl, hadm, hfirst⟩ := hstage
    exact ⟨_, hgoto _, .raised (fun h => not_rejected hadm hfirst h.rejected) hst⟩
  | publish r room =>
    obtain ⟨rfl, hadm, hfirst, uuid, hid, hst, rfl, rfl⟩ := hstage
    exact ⟨_, hgoto _, .booked room uuid hid hst (not_rejected hadm hfirst) hfirst⟩

/-- how many awaits are left at most, of a search through `n` rooms -/
def Pc.left (n : Nat) : Pc → Nat
  | .airport => n + 4
  | .findRooms => n + 3
  | .count _ rest => rest.length + 3
  | .insert _ => 2
  | .publishConfirmed _ _ => 1
  | .done _ => 0
  | .findFirst => 0
  | .update => 0
  | .publishCancelled _ _ => 0

def State.left (n : Nat) (s : State) : Nat :=
  match s.threads with
  | [] => 0
  | t :: _ => t.pc.left n

theorem nextRoom_left (n : Nat) (dto : CreateReservationDto) (rooms : List Room) :
    (nextRoom dto rooms).left n ≤ rooms.length + 2 := by
  obtain ⟨_, e⟩ | ⟨small, room, rest, rfl, _, _, e⟩ := nextRoom_cases dto rooms
  · rw [e]
    exact Nat.zero_le _
  · rw [e, List.length_append, List.length_cons]
    show rest.length + 3 ≤ _
    omega

theorem searchRooms_left (n : Nat) (dto : CreateReservationDto) (rooms : List Room) :
    (searchRooms dto rooms).left n ≤ rooms.length + 2 := by
  obtain ⟨max, e⟩ | e := searchRooms_cases dto rooms
  · rw [e]
    exact Nat.zero_le _
  · rw [e]
    exact nextRoom_left n dto rooms

theorem entry_left (n : Nat) (dto : CreateReservationDto) :
    (Call.entry (.create dto)).left n ≤ n + 4 := by
  rw [Call.entry]
  split
  · exact Nat.zero_le _
  · exact le_refl _

theorem State.left_eq {s : State} {dto : CreateReservationDto} {pc : Pc}
    (h : s.threads = [⟨.create dto, pc⟩]) (n : Nat) : s.left n = pc.left n := by
  rw [State.left, h]

theorem Staged.left_lt {db : Db} {dto : CreateReservationDto} {reply : AirportReply} {s s' : State}
    {act : Act} (h : Staged db dto reply s) (hsolo : Solo reply s act)
    (hs : machine s act = some s') :
    s'.left (db.findRooms dto.room_type).length < s.left (db.findRooms dto.room_type).length := by
  obtain ⟨pc, hthreads, hstage⟩ := h
  have hact := hsolo.alone
  have hgoto := goto_alone hthreads
  rw [State.left_eq hthreads]
  cases lone_step hthreads hact hs with
  | notCleared =>
    rw [State.left_eq (hgoto _)]
    exact Nat.succ_pos _
  | cleared answer hne =>
    rw [State.left_eq (hgoto _)]
    exact Nat.lt_succ_self _
  | rooms =>
    rw [State.left_eq (hgoto _)]
    have hdb : s.db = db := hstage.1
    have := searchRooms_left (db.findRooms dto.room_type).length dto (db.findRooms dto.room_type)
    rw [hdb]
    show _ < (db.findRooms dto.room_type).length + 3
    omega
  | unfit room rest hunfit =>
    rw [State.left_eq (hgoto _)]
    exact Nat.succ_pos _
  | free room rest hfit hzero =>
    rw [State.left_eq (hgoto _)]
    show 2 < rest.length + 3
    omega
  | taken room rest hfit hne =>
    rw [State.left_eq (hgoto _)]
    have := nextRoom_left (db.findRooms dto.room_type).length dto rest
    show _ < rest.length + 3
    omega
  | insert room uuid hid hst =>
    have hleft := State.left_eq (hgoto (.publishConfirmed (Db.newRow uuid dto room) room))
      (db.findRooms dto.room_type).length
    exact hleft.trans_lt (Nat.lt_succ_self 1)
  | raises room uuid hst =>
    rw [State.left_eq (hgoto _)]
    exact Nat.succ_pos 1
  | publish r room =>
    have hleft := State.left_eq (hgoto (.done (.reservation r room.type)))
      (db.findRooms dto.room_type).length
    exact hleft.trans_lt (Nat.succ_pos 0)

theorem Staged.next {db : Db} {dto : CreateReservationDto} {reply : AirportReply} {s : State}
    (h : Staged db dto reply s) :
    (∃ r, s.threads = [⟨.create dto, .done r⟩]) ∨
      ∃ act s', Solo reply s act ∧ machine s act = some s' := by
  obtain ⟨now, threads, ev⟩ := s
  obtain ⟨pc, rfl, hstage⟩ := h
  cases pc with
  | airport =>
    right
    by_cases hsay : hasGuestClearedProcessing reply = some false
    · exact ⟨.airport 0 (hasGuestClearedProcessing reply), _, rfl, if_pos hsay⟩
    · exact ⟨.airport 0 (hasGuestClearedProcessing reply), _, rfl, if_neg hsay⟩
  | findRooms => exact .inr ⟨.go 0, _, trivial, rfl⟩
  | count room rest =>
    right
    by_cases hunfit : dto.daysFit = false
    · exact ⟨.go 0, _, trivial, if_pos hunfit⟩
    · by_cases hzero : now.count room.id dto = 0
      · exact ⟨.go 0, _, trivial, (if_neg hunfit).trans (if_pos hzero)⟩
      · exact ⟨.go 0, _, trivial, (if_neg hunfit).trans (if_neg hzero)⟩
  | insert room =>
    right
    obtain ⟨uuid, hfresh⟩ :=
      Infinite.exists_notMem_finset (now.reservations.map Reservation.id).toFinset
    rw [List.mem_toFinset] at hfresh
    by_cases hst : dto.Storable
    · exact ⟨.insert 0 uuid, _, trivial, machine_insert rfl hst hfresh⟩
    · exact ⟨.insert 0 uuid, _, trivial, machine_insert_raises rfl hst hfresh⟩
  | publishConfirmed r room => exact .inr ⟨.go 0, _, trivial, rfl⟩
  | findFirst => exact absurd hstage id
  | update => exact absurd hstage id
  | publishCancelled r type => exact absurd hstage id
  | done r => exact .inl ⟨r, rfl⟩

theorem staged_of_runs {db : Db} {dto : CreateReservationDto} {reply : AirportReply}
    {acts : List Act} {s : State}
    (h : machine.Runs (Solo reply) (State.init db) (.arrive (.create dto) :: acts) s) :
    Staged db dto reply s ∧ acts.length ≤ (db.findRooms dto.room_type).length + 4 := by
  obtain ⟨_, t, hm, hrun⟩ := h
  obtain rfl := Option.some.inj hm
  have hinit : Staged db dto reply
      { State.init db with threads := [] ++ [⟨.create dto, Call.entry (.create dto)⟩] } :=
    ⟨_, rfl, entry_stage db dto reply⟩
  refine ⟨hrun.inv (fun s a t h hg hst => h.step hg hst) hinit, ?_⟩
  have hlen := hrun.length_le (fun s a t h hg hst => ⟨Staged.step h hg hst, h.left_lt hg hst⟩) hinit
  have hleft := entry_left (db.findRooms dto.room_type).length dto
  exact le_trans (Nat.le_of_add_right_le hlen) hleft

theorem exists_end {db : Db} {dto : CreateReservationDto} {reply : AirportReply} {s : State}
    (h : Staged db dto reply s) : ∃ acts s' r, machine.Runs (Solo reply) s acts s' ∧
      s'.threads = [⟨.create dto, .done r⟩] ∧ Outcome db dto reply r s'.db s'.published := by
  obtain ⟨acts, s', hrun, ⟨pc, hthreads, hstage⟩, r, hdone⟩ :=
    Machine.exists_runs (fun s a t h hg hst => ⟨Staged.step h hg hst, h.left_lt hg hst⟩) (fun s h => h.next) h
  rw [hdone] at hthreads
  obtain rfl : Pc.done r = pc := congrArg Thread.pc (List.cons.inj hthreads).1
  exact ⟨acts, s', r, hrun, hdone, hstage⟩

theorem outcome_of_runs {db : Db} {dto : CreateReservationDto} {reply : AirportReply}
    {acts : List Act} {s : State} {r : Result}
    (h : machine.Runs (Solo reply) (State.init db) (.arrive (.create dto) :: acts) s)
    (hdone : s.threads = [⟨.create dto, .done r⟩]) : Outcome db dto reply r s.db s.published := by
  obtain ⟨⟨pc, hthreads, hstage⟩, _⟩ := staged_of_runs h
  rw [hdone] at hthreads
  obtain rfl : Pc.done r = pc := congrArg Thread.pc (List.cons.inj hthreads).1
  exact hstage

/-! ## the reservation -/

theorem NoDoubleBooking.firstFree {db : Db} (h : NoDoubleBooking db) {dto : CreateReservationDto}
    {room : Room} (hroom : FirstFree db dto room) {uuid : String}
    (hid : uuid ∉ db.reservations.map Reservation.id) (hfits : dto.fits = true) :
    NoDoubleBooking (db.create (Db.newRow uuid dto room) hid hfits) := by
  apply h.create (Db.newRow uuid dto room) hid hfits
  intro r hr hc
  have hov := newRow_conflicts.mp hc
  rw [Db.overlapping, decide_eq_true_iff] at hov
  exact hroom.free ⟨r, hr, hov⟩

theorem Outcome.error_iff {db now : Db} {dto : CreateReservationDto} {reply : AirportReply}
    {r : Result} {ev : List HotelBroadcastEvent} (h : Outcome db dto reply r now ev)
    (hparty : (dto.party_guest_ids.getD []).Nodup) :
    (∃ e, r = .error e) ↔ Rejected db dto reply ∨ dto.fits = false := by
  cases h with
  | rejected e hne hdown => exact ⟨fun _ => .inl hdown.rejected, fun _ => ⟨e, rfl⟩⟩
  | raised hdown hst =>
    refine ⟨fun _ => .inr ?_, fun _ => ⟨_, rfl⟩⟩
    rw [← Bool.not_eq_true]
    exact fun hfits => hst ⟨hfits, hparty⟩
  | booked room uuid hid hst hrej hroom =>
    constructor
    · rintro ⟨e, he⟩
      exact absurd he (by simp)
    · rintro (h | hfits)
      · exact absurd h hrej
      · exact absurd (hfits.symm.trans hst.1) Bool.false_ne_true

/-- an error leaves nothing behind, whatever the party -/
theorem Outcome.of_error {db now : Db} {dto : CreateReservationDto} {reply : AirportReply}
    {e : Err} {ev : List HotelBroadcastEvent} (h : Outcome db dto reply (.error e) now ev) :
    now = db ∧ ev = [] := by
  cases h with
  | rejected e hne hdown => exact ⟨rfl, rfl⟩
  | raised hdown hst => exact ⟨rfl, rfl⟩

theorem Outcome.of_not_rejected {db now : Db} {dto : CreateReservationDto} {reply : AirportReply}
    {r : Result} {ev : List HotelBroadcastEvent} (h : Outcome db dto reply r now ev)
    (hparty : (dto.party_guest_ids.getD []).Nodup) (hrej : ¬ (Rejected db dto reply ∨ dto.fits = false)) :
    ∃ room uuid, FirstFree db dto room ∧
      r = .reservation (Db.newRow uuid dto room) room.type ∧
      now.rooms = db.rooms ∧ now.reservations = db.reservations ++ [Db.newRow uuid dto room] ∧
      ev = [eventOf .ReservationConfirmed "Hotel reservation confirmed."
        (Db.newRow uuid dto room) (some room.type)] := by
  cases h with
  | rejected e hne h => exact absurd (.inl h.rejected) hrej
  | raised h hst =>
    rw [not_or, Bool.not_eq_false] at hrej
    exact absurd ⟨hrej.2, hparty⟩ hst
  | booked room uuid hid hst h hroom => exact ⟨room, uuid, hroom, rfl, rfl, rfl, rfl⟩

theorem Outcome.noDoubleBooking {db now : Db} {dto : CreateReservationDto} {reply : AirportReply}
    {r : Result} {ev : List HotelBroadcastEvent} (h : Outcome db dto reply r now ev)
    (hno : NoDoubleBooking db) : NoDoubleBooking now := by
  cases h with
  | rejected e hne hdown => exact hno
  | raised hdown hst => exact hno
  | booked room uuid hid hst hrej hroom => exact hno.firstFree hroom hid hst.1

/-- **A create is exact and atomic.**  Of any table, request and reply of the airport, the party
naming nobody twice, the request alone: it ends within a bounded number of steps, in an error
exactly if it is rejected or has a value that its column does not take; an error leaves the tables and
the events as they were; otherwise one CONFIRMED row for the first free room is added and one
confirmation published.  Either way the reservations of each room stay disjoint. -/
theorem create_exact (db : Db) (dto : CreateReservationDto) (reply : AirportReply)
    (hparty : (dto.party_guest_ids.getD []).Nodup) :
    (∀ acts s, machine.Runs (Solo reply) (State.init db) (.arrive (.create dto) :: acts) s →
      acts.length ≤ (db.findRooms dto.room_type).length + 4 ∧
      ∃ acts' s' r, machine.Runs (Solo reply) s acts' s' ∧
        s'.threads = [⟨.create dto, .done r⟩]) ∧
    ∀ acts s r, machine.Runs (Solo reply) (State.init db) (.arrive (.create dto) :: acts) s →
      s.threads = [⟨.create dto, .done r⟩] →
      ((∃ e, r = .error e) ↔ Rejected db dto reply ∨ dto.fits = false) ∧
      ((∃ e, r = .error e) → s.db = db ∧ s.published = []) ∧
      (¬ (Rejected db dto reply ∨ dto.fits = false) → ∃ room uuid, FirstFree db dto room ∧
        r = .reservation (Db.newRow uuid dto room) room.type ∧
        s.db.rooms = db.rooms ∧
        s.db.reservations = db.reservations ++ [Db.newRow uuid dto room] ∧
        s.published = [eventOf .ReservationConfirmed "Hotel reservation confirmed."
          (Db.newRow uuid dto room) (some room.type)]) ∧
      (NoDoubleBooking db → NoDoubleBooking s.db) := by
  constructor
  · intro acts s hrun
    obtain ⟨hstaged, hlen⟩ := staged_of_runs hrun
    obtain ⟨acts', s', r, hrun', hdone, _⟩ := exists_end hstaged
    exact ⟨hlen, acts', s', r, hrun', hdone⟩
  · intro acts s r hrun hdone
    have hout := outcome_of_runs hrun hdone
    refine ⟨hout.error_iff hparty, ?_, hout.of_not_rejected hparty, hout.noDoubleBooking⟩
    rintro ⟨e, rfl⟩
    exact hout.of_error

/-- two guests, of whom the airport has processed the one who asks -/
def pair : CreateReservationDto := { stay "ana" 1 3 with party_guest_ids := some ["ana", "bob"] }

/-- a party of one with a guest count beyond 32 bits -/
def hugeCount : CreateReservationDto := ⟨"ana", .STANDARD, 3000000000, some ["ana"], 1, 3, by decide⟩

def processedReply : AirportReply := .response true (some (.obj [("status", .str "processed")]))

theorem create_exact_pair :
    ∃ s row, machine.Runs (Solo processedReply) (State.init oneRoomDb)
        [.arrive (.create pair), .airport 0 (some true), .go 0, .go 0, .insert 0 "r-0", .go 0] s ∧
      s.threads = [⟨.create pair, .done (.reservation row .STANDARD)⟩] ∧
      ¬ Rejected oneRoomDb pair processedReply := by
  have hrun : ∃ s row, machine.Runs (Solo processedReply) (State.init oneRoomDb)
      [.arrive (.create pair), .airport 0 (some true), .go 0, .go 0, .insert 0 "r-0", .go 0] s ∧
      s.threads = [⟨.create pair, .done (.reservation row .STANDARD)⟩] :=
    ⟨_, _, Machine.runs_iff_runG.mpr rfl, rfl⟩
  obtain ⟨s, row, hrun, hdone⟩ := hrun
  refine ⟨s, row, hrun, hdone, ?_⟩
  intro hrej
  obtain ⟨e, he⟩ := ((create_exact oneRoomDb pair processedReply (by decide)).2 _ s _ hrun
    hdone).1.mpr (.inl hrej)
  exact absurd he (by simp)

/-- **A guest count that is no INTEGER ends in an error, and nothing has rejected the request.** -/
theorem unfit_count_raises :
    (∃ s, machine.Runs (Solo .unset) (State.init oneRoomDb) [.arrive (.create hugeCount),
      .airport 0 none, .go 0, .go 0, .insert 0 "r-0"] s ∧
      s.threads = [⟨.create hugeCount, .done (.error .prisma)⟩]) ∧
    (hugeCount.party_guest_ids.getD []).Nodup ∧ ¬ Rejected oneRoomDb hugeCount .unset := by
  refine ⟨⟨_, Machine.runs_iff_runG.mpr rfl, rfl⟩, by decide, ?_⟩
  rintro (hdays | ⟨v, hv, _⟩ | hlarge | htaken)
  · exact absurd hdays (by decide)
  · exact absurd hv (by simp)
  · exact absurd (hlarge ⟨"room-standard-01", .STANDARD, 2, 100⟩ (by decide)) (by decide)
  · obtain ⟨r, hr, _⟩ := htaken ⟨"room-standard-01", .STANDARD, 2, 100⟩ (by decide)
    exact absurd hr (by simp [oneRoomDb])

/-! ## the error of the database -/

theorem nextRoom_ne_prisma (dto : CreateReservationDto) (rooms : List Room) :
    nextRoom dto rooms ≠ .done (.error .prisma) := by
  obtain ⟨_, e⟩ | ⟨_, _, _, _, _, _, e⟩ := nextRoom_cases dto rooms
  · rw [e]
    simp
  · rw [e]
    simp

theorem searchRooms_ne_prisma (dto : CreateReservationDto) (rooms : List Room) :
    searchRooms dto rooms ≠ .done (.error .prisma) := by
  obtain ⟨max, e⟩ | e := searchRooms_cases dto rooms
  · rw [e]
    simp
  · rw [e]
    exact nextRoom_ne_prisma dto rooms

/-- a create whose request can be stored has not ended in the error of the database -/
def Thread.Handled : Thread → Prop
  | ⟨.create dto, .done (.error .prisma)⟩ => ¬ dto.Storable
  | _ => True

theorem handled_of_ne {call : Call} {pc : Pc} (h : pc ≠ .done (.error .prisma)) :
    Thread.Handled ⟨call, pc⟩ := by
  unfold Thread.Handled
  split
  · rename_i heq
    obtain ⟨-, rfl⟩ := Thread.mk.inj heq
    exact absurd rfl h
  · trivial

theorem handled_cancel (id : String) (pc : Pc) : Thread.Handled ⟨.cancel id, pc⟩ := trivial

theorem CreateStep.handled {s s' : State} {i : Nat} {dto : CreateReservationDto} {act : Act} {pc : Pc}
    (h : CreateStep s i dto act pc s') : ∃ t, s'.threads = s.threads.set i t ∧ t.Handled := by
  cases h with
  | notCleared => exact ⟨_, rfl, handled_of_ne (by simp)⟩
  | cleared answer hne => exact ⟨_, rfl, handled_of_ne (by simp)⟩
  | rooms => exact ⟨_, rfl, handled_of_ne (searchRooms_ne_prisma dto _)⟩
  | unfit room rest hunfit =>
    refine ⟨_, rfl, fun hst => ?_⟩
    exact absurd (hunfit.symm.trans (CreateReservationDto.daysFit_of_fits hst.1)) Bool.false_ne_true
  | free room rest hfit hfree => exact ⟨_, rfl, handled_of_ne (by simp)⟩
  | taken room rest hfit htaken => exact ⟨_, rfl, handled_of_ne (nextRoom_ne_prisma dto rest)⟩
  | insert room uuid hid hst => exact ⟨_, rfl, handled_of_ne (by simp)⟩
  | raises room uuid hst => exact ⟨_, rfl, hst⟩
  | publish r room => exact ⟨_, rfl, handled_of_ne (by simp)⟩

theorem entry_handled (call : Call) : Thread.Handled ⟨call, call.entry⟩ := by
  cases call with
  | create dto =>
    apply handled_of_ne
    rw [Call.entry]
    split
    · simp
    · simp
  | cancel id => exact handled_cancel id _

theorem handled_step {s s' : State} {act : Act}
    (h : ∀ (i : Nat) t, s.threads[i]? = some t → t.Handled) (hs : machine s act = some s') :
    ∀ (i : Nat) t, s'.threads[i]? = some t → t.Handled := by
  have hset : ∀ {i : Nat}, (∃ t, s'.threads = s.threads.set i t ∧ t.Handled) →
      ∀ (j : Nat) t, s'.threads[j]? = some t → t.Handled := by
    rintro i ⟨t, hthreads, ht⟩
    rw [hthreads]
    exact forall_set (fun j u _ hj => h j u hj) ht
  obtain ⟨call, rfl, rfl⟩ | ⟨i, dto, pc, ht, hstep⟩ | ⟨i, id, pc, rfl, ht, hstep⟩ :=
    machine_steps hs
  · exact forall_snoc h (entry_handled call)
  · exact hset hstep.handled
  · obtain ⟨t, hturn⟩ := hstep.turn ht
    refine hset ⟨t, hturn.moved, ?_⟩
    obtain ⟨call, pc'⟩ := t
    obtain rfl : call = .cancel id := hturn.call
    exact handled_cancel id pc'

/-- among any other requests, one that can be stored does not end in that error -/
theorem handled_of_runs {db : Db} {acts : List Act} {s : State} {i : Nat} {t : Thread}
    (h : machine.Runs free (State.init db) acts s) (ht : s.threads[i]? = some t) : t.Handled := by
  have hinit : ∀ (i : Nat) t, (State.init db).threads[i]? = some t → t.Handled := by
    intro i t hi
    exact absurd hi (by simp [State.init])
  exact h.inv (P := fun s => ∀ (i : Nat) t, s.threads[i]? = some t → t.Handled)
    (fun s a t h _ hst => handled_step h hst) hinit i t ht

def failure (dto : CreateReservationDto) : Thread := ⟨.create dto, .done (.error .prisma)⟩

/-- the request is answered by the service in every run of its own -/
def NeverRaises (db : Db) (dto : CreateReservationDto) (reply : AirportReply) : Prop :=
  ∀ acts s, machine.Runs (Solo reply) (State.init db) (.arrive (.create dto) :: acts) s →
    s.threads ≠ [failure dto]

theorem Outcome.prisma_iff {db now : Db} {dto : CreateReservationDto} {reply : AirportReply}
    {r : Result} {ev : List HotelBroadcastEvent} (h : Outcome db dto reply r now ev) :
    r = .error .prisma ↔ ¬ TurnedDown db dto reply ∧ ¬ dto.Storable := by
  cases h with
  | rejected e hne hdown =>
    constructor
    · intro he
      exact absurd (Result.error.inj he) hne
    · rintro ⟨h, -⟩
      exact absurd hdown h
  | raised hdown hst => exact ⟨fun _ => ⟨hdown, hst⟩, fun _ => rfl⟩
  | booked room uuid hid hst hrej hroom =>
    constructor
    · intro he
      exact absurd he (by simp)
    · rintro ⟨-, hnot⟩
      exact absurd hst hnot

/-- **When a create ends in an unhandled error of the database.**  Of any table, request and reply
of the airport, a create alone never does exactly if the columns take its values and the party names
nobody twice, or the request is turned down before the first statement that raises; and a request of
the first kind never makes it do so, whatever else is going on. -/
theorem no_prisma_error_iff (db : Db) (dto : CreateReservationDto) (reply : AirportReply) :
    (NeverRaises db dto reply ↔ dto.Storable ∨ TurnedDown db dto reply) ∧
    (dto.Storable → ∀ acts s, machine.Runs free (State.init db) acts s →
      ∀ i : Nat, s.threads[i]? ≠ some (failure dto)) := by
  refine ⟨⟨?_, ?_⟩, ?_⟩
  · intro h
    by_contra hneither
    rw [not_or] at hneither
    obtain ⟨hst, hdown⟩ := hneither
    have harrive : machine.Runs (Solo reply) (State.init db) [.arrive (.create dto)]
        ⟨db, [⟨.create dto, Call.entry (.create dto)⟩], []⟩ := ⟨rfl, _, rfl, rfl⟩
    obtain ⟨acts, s, r, hrun, hdone, hout⟩ := exists_end (staged_of_runs harrive).1
    rw [hout.prisma_iff.mpr ⟨hdown, hst⟩] at hdone
    exact h acts s (harrive.append hrun) hdone
  · rintro hor acts s hrun hdone
    obtain ⟨hdown, hst⟩ := (outcome_of_runs hrun hdone).prisma_iff.mp rfl
    exact hor.elim hst hdown
  · intro hst acts s hrun i hi
    exact handled_of_runs hrun hi hst

/-- **A party that names a guest twice violates the key of `ReservationGuest`.** -/
theorem repeated_guest_raises :
    ¬ NeverRaises oneRoomDb { stay "ana" 1 3 with party_guest_ids := some ["ana", "ana"] } .unset := by
  intro h
  exact h [.airport 0 none, .go 0, .go 0, .insert 0 "r-0"] _ (Machine.runs_iff_runG.mpr rfl) rfl

end Hotel
