import Purrlington.Hotel.Occupancy

/-!
# Hotel: availability

The overlap count of `create` takes a stay as all days from the first to the last, the last one
included; the occupancy query of `findAll` leaves the last one out.

* `RefusesRightly`   where a create on its own answers that there are no rooms, every room that is
              large enough is occupied on some day of the stay, by the rule of `findAll`;
* `lone_step`        the steps of a create on its own;
* `Searching`        what the loop over the rooms has seen;
* `Refused.counted`, `refused_of_counted`   when a create on its own is refused so;
* `AbuttedOnly`      the room has only stays that end on the requested first day or begin on the
              requested last one;
* `refusesRightly_iff`   the two rules agree on a request exactly if a room is left free or no room
              is in the way with its ends only.
-/

set_option linter.unusedSectionVars false

namespace Hotel
open SM

/-- no request but the first -/
def Alone (s : State) : Act → Prop
  | .arrive _ => s.threads = []
  | .go _ => True
  | .airport _ _ => True
  | .insert _ _ => True

instance : ∀ s act, Decidable (Alone s act)
  | s, .arrive _ => inferInstanceAs (Decidable (s.threads = []))
  | _, .go _ => inferInstanceAs (Decidable True)
  | _, .airport _ _ => inferInstanceAs (Decidable True)
  | _, .insert _ _ => inferInstanceAs (Decidable True)

/-- "No available rooms of type .. for days .." -/
def refusal (dto : CreateReservationDto) : Thread :=
  ⟨.create dto, .done (.error (.noRooms dto.room_type dto.check_in_day dto.check_out_day))⟩

/-- the create ends so in a run of its own on the table -/
def Refused (db : Db) (dto : CreateReservationDto) : Prop :=
  ∃ acts s, machine.Runs Alone (State.init db) (.arrive (.create dto) :: acts) s ∧
    s.threads = [refusal dto]

/-- the rooms of the type with enough capacity -/
def Db.fitting (db : Db) (dto : CreateReservationDto) : List Room :=
  (db.findRooms dto.room_type).filter fun room => dto.partySize ≤ room.capacity

/-- some day of the requested stay counts for `findAll` as a day on which the room is taken -/
def Db.OccupiedDuring (db : Db) (dto : CreateReservationDto) (room : Room) : Prop :=
  ∃ day, dto.check_in_day ≤ day ∧ day < dto.check_out_day ∧ db.staying day room.id ≠ []

def RefusesRightly (db : Db) (dto : CreateReservationDto) : Prop :=
  Refused db dto → ∀ room ∈ db.fitting dto, db.OccupiedDuring dto room

/-! ## a create that is the only request -/

theorem getElem?_singleton_eq_some {τ : Type} {a b : τ} {i : Nat} (h : [a][i]? = some b) :
    i = 0 ∧ b = a := by
  cases i with
  | zero => exact ⟨rfl, (Option.some.inj h).symm⟩
  | succ i => exact absurd h (by simp)

/-- **The steps of a create that is the only request, if no other arrives.** -/
theorem lone_step {s s' : State} {dto : CreateReservationDto} {pc : Pc} {act : Act}
    (hthreads : s.threads = [⟨.create dto, pc⟩])
    (hact : ∀ call, act = .arrive call → s.threads = []) (hs : machine s act = some s') :
    CreateStep s 0 dto act pc s' := by
  obtain ⟨call, rfl, _⟩ | ⟨i, dto', pc', ht, hstep⟩ | ⟨i, id, pc', _, ht, _⟩ := machine_steps hs
  · have hempty := hact call rfl
    rw [hthreads] at hempty
    exact absurd hempty (by simp)
  · rw [hthreads] at ht
    obtain ⟨rfl, he⟩ := getElem?_singleton_eq_some ht
    obtain ⟨hcall, rfl⟩ := Thread.mk.inj he
    obtain rfl := Call.create.inj hcall
    exact hstep
  · rw [hthreads] at ht
    obtain ⟨_, he⟩ := getElem?_singleton_eq_some ht
    exact absurd (congrArg Thread.call he) (by simp)

theorem goto_alone {s : State} {dto : CreateReservationDto} {pc : Pc}
    (hthreads : s.threads = [⟨.create dto, pc⟩]) (pc' : Pc) :
    (s.goto 0 (.create dto) pc').threads = [⟨.create dto, pc'⟩] := by
  rw [State.goto, hthreads]
  rfl

/-! ## the search -/

/-- the count of the room has been answered, and not by zero -/
def Db.Counted (db : Db) (dto : CreateReservationDto) (room : Room) : Prop :=
  dto.daysFit = true ∧ db.count room.id dto ≠ 0

/-- the rooms that the search has passed were too small or not free; until the create inserts, the
table is as it found it -/
def Searched (db now : Db) (dto : CreateReservationDto) : Pc → Prop
  | .airport => now = db
  | .findRooms => now = db
  | .count room rest => now = db ∧ ∃ l, db.findRooms dto.room_type = l ++ room :: rest ∧
      ∀ x ∈ l, dto.partySize ≤ x.capacity → db.Counted dto x
  | .done (.error (.noRooms _ _ _)) =>
      ∀ room ∈ db.findRooms dto.room_type, dto.partySize ≤ room.capacity → db.Counted dto room
  | _ => True

def Searching (db : Db) (dto : CreateReservationDto) (s : State) : Prop :=
  ∃ pc, s.threads = [⟨.create dto, pc⟩] ∧ Searched db s.db dto pc

theorem passed_snoc {dto : CreateReservationDto} {P : Room → Prop} {l : List Room} {room : Room}
    (hl : ∀ x ∈ l, dto.partySize ≤ x.capacity → P x) (h : dto.partySize ≤ room.capacity → P room) :
    ∀ x ∈ l ++ [room], dto.partySize ≤ x.capacity → P x :=
  List.forall_mem_append.mpr ⟨hl, List.forall_mem_singleton.mpr h⟩

theorem passed_append {dto : CreateReservationDto} {P : Room → Prop} {l small : List Room}
    (hl : ∀ x ∈ l, dto.partySize ≤ x.capacity → P x)
    (hsmall : ∀ x ∈ small, x.capacity < dto.partySize) :
    ∀ x ∈ l ++ small, dto.partySize ≤ x.capacity → P x :=
  List.forall_mem_append.mpr ⟨hl, fun x hx hle => absurd hle (Int.not_le.mpr (hsmall x hx))⟩

theorem nextRoom_searched {db : Db} {dto : CreateReservationDto} {l rest : List Room}
    (h : db.findRooms dto.room_type = l ++ rest)
    (hl : ∀ x ∈ l, dto.partySize ≤ x.capacity → db.Counted dto x) :
    Searched db db dto (nextRoom dto rest) := by
  obtain ⟨hall, e⟩ | ⟨small, room, rest, rfl, hsmall, _, e⟩ := nextRoom_cases dto rest
  · rw [e]
    show ∀ room ∈ db.findRooms dto.room_type, _
    rw [h]
    exact passed_append hl hall
  · rw [e]
    refine ⟨rfl, l ++ small, ?_, passed_append hl hsmall⟩
    rw [h, List.append_assoc]

/-- a room that is not free joins those that the search has passed -/
theorem searched_of_count {db : Db} {dto : CreateReservationDto} {room : Room} {rest : List Room}
    (h : Searched db db dto (.count room rest)) (hne : db.Counted dto room) :
    Searched db db dto (nextRoom dto rest) := by
  obtain ⟨_, l, hl, hcount⟩ := h
  exact nextRoom_searched (hl.trans (List.append_assoc l [room] rest).symm)
    (passed_snoc hcount fun _ => hne)

theorem searchRooms_searched (db : Db) (dto : CreateReservationDto) :
    Searched db db dto (searchRooms dto (db.findRooms dto.room_type)) := by
  obtain ⟨max, e⟩ | e := searchRooms_cases dto (db.findRooms dto.room_type)
  · rw [e]
    trivial
  · rw [e]
    exact nextRoom_searched (List.nil_append _).symm (fun x hx => absurd hx (by simp))

theorem Searching.step {db : Db} {dto : CreateReservationDto} {s s' : State} {act : Act}
    (h : Searching db dto s) (halone : Alone s act) (hs : machine s act = some s') :
    Searching db dto s' := by
  obtain ⟨pc, hthreads, hpc⟩ := h
  have hact : ∀ call, act = .arrive call → s.threads = [] := by
    intro call hcall
    subst hcall
    exact halone
  have hgoto := goto_alone hthreads
  cases lone_step hthreads hact hs with
  | notCleared => exact ⟨_, hgoto _, trivial⟩
  | cleared answer hclear => exact ⟨_, hgoto _, hpc⟩
  | rooms =>
    refine ⟨_, hgoto _, ?_⟩
    have hdb : s.db = db := hpc
    show Searched db s.db dto (searchRooms dto (s.db.findRooms dto.room_type))
    rw [hdb]
    exact searchRooms_searched db dto
  | unfit room rest hunfit => exact ⟨_, hgoto _, trivial⟩
  | free room rest hfit hfree => exact ⟨_, hgoto _, trivial⟩
  | taken room rest hfit htaken =>
    refine ⟨_, hgoto _, ?_⟩
    have hdb : s.db = db := hpc.1
    show Searched db s.db dto (nextRoom dto rest)
    rw [hdb] at htaken hpc ⊢
    exact searched_of_count hpc ⟨hfit, htaken⟩
  | insert room uuid hid hst => exact ⟨_, hgoto _, trivial⟩
  | raises room uuid hst => exact ⟨_, hgoto _, trivial⟩
  | publish r room => exact ⟨_, hgoto _, trivial⟩

/-! ## when a create is refused -/

theorem le_maxCapacity (r : Room) (rooms : List Room) :
    ∃ n, maxCapacity (r :: rooms) = some n ∧ ∀ room ∈ r :: rooms, room.capacity ≤ n := by
  induction rooms generalizing r with
  | nil =>
    refine ⟨r.capacity, rfl, ?_⟩
    intro room hroom
    rw [List.mem_singleton.mp hroom]
  | cons r' rooms ih =>
    -- the fold goes on from the larger of the first two
    obtain ⟨n, hn, hall⟩ := ih { r with capacity := max r.capacity r'.capacity }
    have hmax : max r.capacity r'.capacity ≤ n := hall _ List.mem_cons_self
    refine ⟨n, hn, ?_⟩
    intro room hroom
    rcases List.mem_cons.mp hroom with rfl | hroom
    · omega
    · rcases List.mem_cons.mp hroom with rfl | hroom
      · omega
      · exact hall room (List.mem_cons_of_mem _ hroom)

theorem searchRooms_of_mem {dto : CreateReservationDto} {rooms : List Room} {room : Room}
    (hroom : room ∈ rooms) (hcap : dto.partySize ≤ room.capacity) :
    searchRooms dto rooms = nextRoom dto rooms := by
  cases rooms with
  | nil => exact absurd hroom (by simp)
  | cons r rooms =>
    obtain ⟨n, hn, hall⟩ := le_maxCapacity r rooms
    have hle := hall room hroom
    unfold searchRooms
    rw [hn]
    exact if_neg (by omega)

/-- the loop runs over rooms that are not free to its end -/
theorem loop_refuses {db : Db} {dto : CreateReservationDto} {rooms : List Room}
    (hfit : dto.daysFit = true)
    (h : ∀ room ∈ rooms, dto.partySize ≤ room.capacity → db.count room.id dto ≠ 0) :
    ∃ acts, machine.Runs Alone ⟨db, [⟨.create dto, nextRoom dto rooms⟩], []⟩ acts
      ⟨db, [refusal dto], []⟩ := by
  induction rooms with
  | nil => exact ⟨[], rfl⟩
  | cons room rest ih =>
    obtain ⟨acts, hacts⟩ := ih fun x hx => h x (List.mem_cons_of_mem _ hx)
    rw [nextRoom]
    split
    · exact ⟨acts, hacts⟩
    · rename_i hcap
      refine ⟨.go 0 :: acts, trivial, _, ?_, hacts⟩
      exact (if_neg (by simp [hfit])).trans (if_neg (h room List.mem_cons_self (by omega)))

theorem mem_fitting {db : Db} {dto : CreateReservationDto} {room : Room} :
    room ∈ db.fitting dto ↔ room ∈ db.findRooms dto.room_type ∧ dto.partySize ≤ room.capacity := by
  rw [Db.fitting, List.mem_filter, decide_eq_true_iff]

theorem Refused.counted {db : Db} {dto : CreateReservationDto} (h : Refused db dto) :
    ∀ room ∈ db.fitting dto, db.Counted dto room := by
  obtain ⟨acts, s, ⟨_, t, hm, hrun⟩, hthreads⟩ := h
  obtain rfl := Option.some.inj hm
  have hinit : Searching db dto
      { State.init db with threads := [] ++ [⟨.create dto, Call.entry (.create dto)⟩] } := by
    refine ⟨_, rfl, ?_⟩
    rw [Call.entry]
    split
    · trivial
    · exact rfl
  obtain ⟨pc, hpc, hsearched⟩ := hrun.inv (fun s a t h hg hst => h.step hg hst) hinit
  rw [hthreads] at hpc
  obtain rfl : _ = pc := congrArg Thread.pc (List.cons.inj hpc).1
  intro room hroom
  obtain ⟨hmem, hcap⟩ := mem_fitting.mp hroom
  exact hsearched room hmem hcap

theorem refused_of_counted {db : Db} {dto : CreateReservationDto}
    (hdays : dto.check_in_day < dto.check_out_day) (hfit : dto.daysFit = true) {room : Room} (hroom : room ∈ db.fitting dto)
    (h : ∀ room ∈ db.fitting dto, db.count room.id dto ≠ 0) : Refused db dto := by
  obtain ⟨hmem, hcap⟩ := mem_fitting.mp hroom
  have hfind : ∀ room ∈ db.findRooms dto.room_type, dto.partySize ≤ room.capacity →
      db.count room.id dto ≠ 0 := fun x hx hle => h x (mem_fitting.mpr ⟨hx, hle⟩)
  obtain ⟨acts, hacts⟩ := loop_refuses hfit hfind
  have hentry : Call.entry (.create dto) = .airport := if_neg (by omega)
  rw [← searchRooms_of_mem hmem hcap] at hacts
  refine ⟨.airport 0 (some true) :: .go 0 :: acts, ⟨db, [refusal dto], []⟩, ⟨rfl, _, rfl, ?_⟩, rfl⟩
  rw [hentry]
  exact ⟨trivial, _, rfl, trivial, _, rfl, hacts⟩

/-! ## the two rules -/

/-- the stays that the overlap count counts for the room end on the requested first day, begin on
the requested last one, or have no day at all -/
def AbuttedOnly (db : Db) (dto : CreateReservationDto) (room : Room) : Prop :=
  ∀ r ∈ db.reservations, Db.overlapping room.id dto r = true →
    r.check_out_day = dto.check_in_day ∨ r.check_in_day = dto.check_out_day ∨
    r.check_out_day ≤ r.check_in_day

theorem occupiedDuring_iff {db : Db} {dto : CreateReservationDto} {room : Room}
    (hdays : dto.check_in_day < dto.check_out_day) :
    db.OccupiedDuring dto room ↔ ¬ AbuttedOnly db dto room := by
  constructor
  · rintro ⟨day, h1, h2, hne⟩ habut
    obtain ⟨r, hr⟩ := List.exists_mem_of_ne_nil _ hne
    obtain ⟨hmem, ⟨hst, hin, hout⟩, hroom⟩ := mem_staying.mp hr
    have hov : Db.overlapping room.id dto r = true :=
      decide_eq_true ⟨hroom, hst, by omega, by omega⟩
    have := habut r hmem hov
    omega
  · intro h
    simp only [AbuttedOnly, not_forall] at h
    obtain ⟨r, hmem, hov, hr⟩ := h
    rw [Db.overlapping, decide_eq_true_iff] at hov
    obtain ⟨hroom, hst, h1, h2⟩ := hov
    -- the first day on which both have begun
    refine ⟨max r.check_in_day dto.check_in_day, by omega, by omega, ?_⟩
    apply List.ne_nil_of_mem
    exact mem_staying.mpr ⟨hmem, ⟨hst, by omega, by omega⟩, hroom⟩

/-- **When booking and occupancy agree on a request.**  Of any table and any request for at least
one day: that there are no rooms is answered only if `findAll` counts every room that is large
enough as taken on some day of the stay, exactly if the days are such that the overlap count raises,
or one such room is free by it, or none of them is in the way only with the ends of its stays. -/
theorem refusesRightly_iff (db : Db) (dto : CreateReservationDto)
    (hdays : dto.check_in_day < dto.check_out_day) :
    RefusesRightly db dto ↔ dto.daysFit = false ∨
      (∃ room ∈ db.fitting dto, db.count room.id dto = 0) ∨
      ∀ room ∈ db.fitting dto, ¬ AbuttedOnly db dto room := by
  constructor
  · intro h
    rw [or_iff_not_imp_left, Bool.not_eq_false]
    intro hfit
    by_cases hfree : ∃ room ∈ db.fitting dto, db.count room.id dto = 0
    · exact .inl hfree
    · right
      have hcount : ∀ room ∈ db.fitting dto, db.count room.id dto ≠ 0 :=
        fun room hroom h0 => hfree ⟨room, hroom, h0⟩
      intro room hroom
      apply (occupiedDuring_iff hdays).mp
      exact h (refused_of_counted hdays hfit hroom hcount) room hroom
  · rintro (hunfit | ⟨room, hroom, h0⟩ | h) href room' hroom'
    · exact absurd (hunfit.symm.trans (href.counted room' hroom').1) Bool.false_ne_true
    · exact absurd h0 (href.counted room hroom).2
    · exact (occupiedDuring_iff hdays).mpr (h room' hroom')

/-- the room is taken from day one to day three -/
def takenDb : Db where
  rooms := oneRoomDb.rooms
  reservations := [Db.newRow "r-0" (stay "ana" 1 3) ⟨"room-standard-01", .STANDARD, 2, 100⟩]
  rooms_sorted := oneRoomDb.rooms_sorted
  ids_nodup := List.nodup_singleton _
  rooms_fit := oneRoomDb.rooms_fit
  reservations_fit := by decide

theorem refusesRightly_overlap : RefusesRightly takenDb (stay "bob" 2 4) := by
  refine (refusesRightly_iff takenDb (stay "bob" 2 4) (by decide)).mpr (.inr (.inr ?_))
  intro room hroom habut
  have hfit : takenDb.fitting (stay "bob" 2 4) = [⟨"room-standard-01", .STANDARD, 2, 100⟩] := by
    decide
  rw [hfit] at hroom
  rw [List.mem_singleton.mp hroom] at habut
  exact absurd (habut _ List.mem_cons_self (by decide)) (by decide)

/-- **A stay that begins when the other ends is refused, and the room is free on all its days.** -/
theorem back_to_back_refused : ¬ RefusesRightly takenDb (stay "bob" 3 5) := by
  intro h
  have href : Refused takenDb (stay "bob" 3 5) :=
    ⟨[.airport 0 (some true), .go 0, .go 0], _, Machine.runs_iff_runG.mpr rfl, rfl⟩
  obtain ⟨day, h1, h2, hne⟩ := h href ⟨"room-standard-01", .STANDARD, 2, 100⟩ (by decide)
  obtain ⟨r, hr⟩ := List.exists_mem_of_ne_nil _ hne
  obtain ⟨hmem, ⟨_, _, hout⟩, _⟩ := mem_staying.mp hr
  obtain rfl := List.mem_singleton.mp hmem
  have h3 : (3 : Int) ≤ day := h1
  have h4 : day < (3 : Int) := hout
  omega

end Hotel
