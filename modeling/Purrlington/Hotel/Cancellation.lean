import Purrlington.Hotel.Availability
import Purrlington.Lib.Ledger

/-!
# Hotel: announced cancellations

`cancel` reads the status in one statement and sets it in a later one, whatever it is by then.

* `State.announced`       the `ReservationCancelled` events published for a reservation, and
  `State.owed`            the cancels that have set the status and are yet to publish;
* `machine_entry`         only the update of a cancel changes their sum, and then by one;
* `Standing`              a cancel updates a reservation only while it is still CONFIRMED, that is,
                          no other cancel has updated it in between;
* `one_cancellation`      in such runs a cancellation is announced at most once, in other runs it is
                          announced again; a cancelled reservation stays so in all of them;
* `announced_twice`       a run that announces one cancellation twice.
-/

set_option linter.unusedSectionVars false

namespace Hotel
open SM Ledger

/-! ## the status of a reservation -/

def Db.statusOf (db : Db) (id : String) : Option ReservationStatus :=
  (db.findFirst id).map Reservation.status

theorem findFirst_eq_some {db : Db} {id : String} {r : Reservation} (h : db.findFirst id = some r) :
    r ∈ db.reservations ∧ r.id = id := by
  have hp := List.find?_some h
  exact ⟨List.mem_of_find?_eq_some h, of_decide_eq_true hp⟩

theorem statusOf_eq_some {db : Db} {id : String} {st : ReservationStatus} :
    db.statusOf id = some st ↔ ∃ r ∈ db.reservations, r.id = id ∧ r.status = st := by
  rw [Db.statusOf, Option.map_eq_some_iff]
  constructor
  · rintro ⟨r, hr, rfl⟩
    obtain ⟨hmem, hid⟩ := findFirst_eq_some hr
    exact ⟨r, hmem, hid, rfl⟩
  · rintro ⟨r, hr, hid, rfl⟩
    have hsome : (db.findFirst id).isSome = true :=
      List.find?_isSome.mpr ⟨r, hr, decide_eq_true hid⟩
    obtain ⟨r', hr'⟩ := Option.isSome_iff_exists.mp hsome
    obtain ⟨hmem, hid'⟩ := findFirst_eq_some hr'
    obtain rfl := List.inj_on_of_nodup_map db.ids_nodup hmem hr (hid'.trans hid.symm)
    exact ⟨r', hr', rfl⟩

theorem statusOf_eq_none {db : Db} {id : String} :
    db.statusOf id = none ↔ id ∉ db.reservations.map Reservation.id := by
  rw [Db.statusOf, Option.map_eq_none_iff, Db.findFirst, List.find?_eq_none, List.mem_map]
  constructor
  · rintro h ⟨r, hr, hid⟩
    exact h r hr (decide_eq_true hid)
  · intro h r hr hid
    exact h ⟨r, hr, of_decide_eq_true hid⟩

theorem findFirst_cancel_self {db : Db} {id : String} {r : Reservation}
    (h : (db.cancel id).findFirst id = some r) :
    r.id = id ∧ db.statusOf id ≠ none ∧ (db.cancel id).statusOf id = some .CANCELLED := by
  obtain ⟨hmem, hid⟩ := findFirst_eq_some h
  obtain ⟨r', hr', hrow⟩ := List.mem_map.mp hmem
  have hid' : r'.id = id := by
    rw [← Db.cancelRow_id id r', hrow]
    exact hid
  refine ⟨hid, fun hnone => statusOf_eq_none.mp hnone (List.mem_map.mpr ⟨r', hr', hid'⟩), ?_⟩
  rw [Db.statusOf, h, Option.map_some, ← hrow, Db.cancelRow, if_pos hid']

theorem statusOf_cancel_ne (db : Db) {id id' : String} (h : id' ≠ id) :
    (db.cancel id).statusOf id' = db.statusOf id' := by
  have hrow : ∀ r : Reservation, r.id = id' → Db.cancelRow id r = r := by
    intro r hr
    exact if_neg fun e => h (hr.symm.trans e)
  apply Option.ext
  intro st
  rw [statusOf_eq_some, statusOf_eq_some]
  constructor
  · rintro ⟨r, hr, hid, hst⟩
    obtain ⟨r', hr', rfl⟩ := List.mem_map.mp hr
    rw [Db.cancelRow_id] at hid
    rw [hrow r' hid] at hst
    exact ⟨r', hr', hid, hst⟩
  · rintro ⟨r, hr, hid, hst⟩
    exact ⟨Db.cancelRow id r, List.mem_map_of_mem hr, by rw [hrow r hid]; exact ⟨hid, hst⟩⟩

theorem statusOf_create (db : Db) (r : Reservation) (hr : r.id ∉ db.reservations.map Reservation.id)
    (hfits : r.fits = true) (id : String) :
    (db.create r hr hfits).statusOf id = if r.id = id then some r.status else db.statusOf id := by
  split
  · rename_i e
    exact statusOf_eq_some.mpr ⟨r, List.mem_append_right _ List.mem_cons_self, e, rfl⟩
  · rename_i e
    apply Option.ext
    intro st
    rw [statusOf_eq_some, statusOf_eq_some]
    constructor
    · rintro ⟨r', hr', hid, hst⟩
      rcases List.mem_append.mp hr' with hr' | hr'
      · exact ⟨r', hr', hid, hst⟩
      · rw [List.mem_singleton.mp hr'] at hid
        exact absurd hid e
    · rintro ⟨r', hr', hid, hst⟩
      exact ⟨r', List.mem_append_left _ hr', hid, hst⟩

/-! ## the ledger of announcements -/

def announces (id : String) (e : HotelBroadcastEvent) : Bool :=
  decide (e.type = .ReservationCancelled ∧ e.reservation_id = id)

def State.announced (s : State) (id : String) : Nat := s.published.countP (announces id)

/-- a cancel that is about to announce the reservation -/
def Thread.owes (id : String) : Thread → Nat
  | ⟨_, .publishCancelled r _⟩ => if r.id = id then 1 else 0
  | _ => 0

def State.owed (s : State) (id : String) : Nat := total (Thread.owes id) s.threads

theorem nextRoom_owes (id : String) (call : Call) (dto : CreateReservationDto) (rooms : List Room) :
    Thread.owes id ⟨call, nextRoom dto rooms⟩ = 0 := by
  obtain ⟨_, e⟩ | ⟨_, _, _, _, _, _, e⟩ := nextRoom_cases dto rooms
  · rw [e]
    rfl
  · rw [e]
    rfl

theorem searchRooms_owes (id : String) (call : Call) (dto : CreateReservationDto)
    (rooms : List Room) : Thread.owes id ⟨call, searchRooms dto rooms⟩ = 0 := by
  obtain ⟨max, e⟩ | e := searchRooms_cases dto rooms
  · rw [e]
    rfl
  · rw [e]
    exact nextRoom_owes id call dto rooms

theorem Call.entry_owes (id : String) (call : Call) : Thread.owes id ⟨call, call.entry⟩ = 0 := by
  cases call with
  | create dto => rw [Call.entry]; split <;> rfl
  | cancel id' => rfl

/-- announced, or sure to be -/
def State.announcements (s : State) (id : String) : Nat := s.announced id + s.owed id

/-- what a step enters for a reservation -/
inductive Entry (id : String) (s : State) (act : Act) (s' : State) : Prop where
  | same : s'.db.statusOf id = s.db.statusOf id → s'.announcements id = s.announcements id →
      Entry id s act s'
  | booked : s.db.statusOf id = none → s'.db.statusOf id = some .CONFIRMED →
      s'.announcements id = s.announcements id → Entry id s act s'
  | updated (i) : act = .go i → s.threads[i]? = some ⟨.cancel id, .update⟩ →
      s'.db.statusOf id = some .CANCELLED → s'.announcements id = s.announcements id + 1 →
      Entry id s act s'

/-- a thread that owes nothing before and after its step, and publishes no cancellation, leaves the
ledger as it is -/
theorem announcements_goto {s : State} {i : Nat} {t t' : Thread} {id : String} (db : Db)
    (ev : List HotelBroadcastEvent) (ht : s.threads[i]? = some t) (h : Thread.owes id t = 0)
    (h' : Thread.owes id t' = 0) (hev : ev.countP (announces id) = 0) :
    State.announcements ⟨db, s.threads.set i t', s.published ++ ev⟩ id = s.announcements id := by
  have hset := total_set (w := Thread.owes id) ht t'
  show (s.published ++ ev).countP (announces id) + total (Thread.owes id) (s.threads.set i t') =
    s.published.countP (announces id) + total (Thread.owes id) s.threads
  rw [List.countP_append]
  omega

theorem Entry.quiet {s : State} {i : Nat} {t : Thread} {id : String} {call : Call} {pc : Pc}
    (act : Act) (ht : s.threads[i]? = some t) (h : Thread.owes id t = 0)
    (h' : Thread.owes id ⟨call, pc⟩ = 0) : Entry id s act (s.goto i call pc) := by
  have hann := announcements_goto s.db [] ht h h' rfl
  rw [List.append_nil] at hann
  exact .same rfl hann

/-- a cancel that has updated a row owes its announcement -/
theorem announcements_update {s : State} {i : Nat} {call : Call} (id : String) (db : Db)
    (r : Reservation) (type : Option RoomType) (ht : s.threads[i]? = some ⟨call, .update⟩) :
    State.announcements ⟨db, s.threads.set i ⟨call, .publishCancelled r type⟩, s.published⟩ id =
      s.announcements id + if r.id = id then 1 else 0 := by
  have hset := total_set (w := Thread.owes id) ht ⟨call, .publishCancelled r type⟩
  have hold : Thread.owes id ⟨call, .update⟩ = 0 := rfl
  have hnew : Thread.owes id ⟨call, .publishCancelled r type⟩ = if r.id = id then 1 else 0 := rfl
  show s.announced id + total (Thread.owes id) (s.threads.set i _) =
    s.announced id + total (Thread.owes id) s.threads + if r.id = id then 1 else 0
  omega

theorem CreateStep.entry {s s' : State} {i : Nat} {dto : CreateReservationDto} {act : Act} {pc : Pc}
    (id : String) (ht : s.threads[i]? = some ⟨.create dto, pc⟩)
    (h : CreateStep s i dto act pc s') : Entry id s act s' := by
  cases h with
  | notCleared => exact .quiet _ ht rfl rfl
  | cleared answer hne => exact .quiet _ ht rfl rfl
  | rooms => exact .quiet _ ht rfl (searchRooms_owes id _ dto _)
  | unfit room rest hunfit => exact .quiet _ ht rfl rfl
  | free room rest hfit hfree => exact .quiet _ ht rfl rfl
  | taken room rest hfit htaken => exact .quiet _ ht rfl (nextRoom_owes id _ dto rest)
  | insert room uuid hid hst =>
    have howes : Thread.owes id ⟨.create dto,
      .publishConfirmed (Db.newRow uuid dto room) room⟩ = 0 := rfl
    have hann := announcements_goto (s.db.create (Db.newRow uuid dto room) hid (Db.newRow_fits hst)) [] ht rfl
      howes rfl
    rw [List.append_nil] at hann
    have hstatus := statusOf_create s.db (Db.newRow uuid dto room) hid (Db.newRow_fits hst) id
    by_cases e : (Db.newRow uuid dto room).id = id
    · rw [if_pos e] at hstatus
      exact .booked (statusOf_eq_none.mpr (e ▸ hid)) hstatus hann
    · rw [if_neg e] at hstatus
      exact .same hstatus hann
  | raises room uuid hst => exact .quiet _ ht rfl rfl
  | publish r room => exact .same rfl (announcements_goto _ _ ht rfl rfl rfl)

theorem CancelStep.entry {s s' : State} {i : Nat} {id' : String} {pc : Pc}
    (id : String) (ht : s.threads[i]? = some ⟨.cancel id', pc⟩)
    (h : CancelStep s i id' pc s') : Entry id s (.go i) s' := by
  cases h with
  | notFound => exact .quiet _ ht rfl rfl
  | already r => exact .quiet _ ht rfl rfl
  | found r hr hst => exact .quiet _ ht rfl rfl
  | missing => exact .quiet _ ht rfl rfl
  | update r hr =>
    obtain ⟨hid, _, hst⟩ := findFirst_cancel_self hr
    have hann := announcements_update id (s.db.cancel id') r (s.db.roomType r.room_id) ht
    by_cases e : id = id'
    · subst e
      rw [if_pos hid] at hann
      exact .updated i rfl ht hst hann
    · rw [if_neg fun h' => e (h'.symm.trans hid)] at hann
      exact .same (statusOf_cancel_ne s.db e) hann
  | publish r type =>
    have hset := total_set (w := Thread.owes id) ht ⟨.cancel id', .done (.cancelled r.id r.status)⟩
    have hnew : Thread.owes id ⟨.cancel id', .done (.cancelled r.id r.status)⟩ = 0 := rfl
    -- the debt of the thread is the event that it publishes
    have hpaid : [eventOf .ReservationCancelled "Hotel reservation cancelled." r type].countP
        (announces id) = Thread.owes id ⟨.cancel id', .publishCancelled r type⟩ := by
      rw [List.countP_singleton]
      simp [announces, eventOf, Thread.owes]
    refine .same rfl ?_
    show (s.published ++ _).countP (announces id) + total (Thread.owes id) (s.threads.set i _) =
      s.published.countP (announces id) + total (Thread.owes id) s.threads
    rw [List.countP_append]
    omega

/-- **What each step enters for a reservation.** -/
theorem machine_entry {s s' : State} {act : Act} (id : String) (h : machine s act = some s') :
    Entry id s act s' := by
  obtain ⟨call, rfl, rfl⟩ | ⟨i, dto, pc, ht, hstep⟩ | ⟨i, id', pc, rfl, ht, hstep⟩ :=
    machine_steps h
  · refine .same rfl ?_
    show s.announced id + total (Thread.owes id) (s.threads ++ [⟨call, call.entry⟩]) =
      s.announced id + total (Thread.owes id) s.threads
    rw [total_snoc, call.entry_owes]
    rfl
  · exact hstep.entry id ht
  · exact hstep.entry id ht

/-! ## the law, and where it fails -/

/-- a cancel updates the reservation only while it is CONFIRMED -/
def Standing (id : String) (s : State) : Act → Prop
  | .go i => s.threads[i]? = some ⟨.cancel id, .update⟩ → s.db.statusOf id = some .CONFIRMED
  | .arrive _ => True
  | .airport _ _ => True
  | .insert _ _ => True

instance (id : String) : ∀ s act, Decidable (Standing id s act)
  | s, .go i => inferInstanceAs (Decidable (s.threads[i]? = some ⟨.cancel id, .update⟩ →
      s.db.statusOf id = some .CONFIRMED))
  | _, .arrive _ => inferInstanceAs (Decidable True)
  | _, .airport _ _ => inferInstanceAs (Decidable True)
  | _, .insert _ _ => inferInstanceAs (Decidable True)

theorem statusOf_step {s s' : State} {act : Act} {id : String} (hs : machine s act = some s')
    (h : s.db.statusOf id = some .CANCELLED) : s'.db.statusOf id = some .CANCELLED := by
  cases machine_entry id hs with
  | same hst _ => exact hst.trans h
  | booked hnone _ _ =>
    rw [hnone] at h
    exact absurd h (by simp)
  | updated i _ _ hst _ => exact hst

/-- only a cancelled reservation has announcements -/
def Due (id : String) (s : State) : Prop :=
  s.announcements id ≠ 0 → s.db.statusOf id = some .CANCELLED

theorem Due.step {s s' : State} {act : Act} {id : String} (h : Due id s)
    (hs : machine s act = some s') : Due id s' := by
  cases machine_entry id hs with
  | same hst hann =>
    rw [Due, hst, hann]
    exact h
  | booked hnone _ hann =>
    intro hne
    rw [hann] at hne
    exact absurd (hnone.symm.trans (h hne)) (by simp)
  | updated i _ _ hst _ => exact fun _ => hst

/-- at most one announcement -/
def Once (id : String) (s : State) : Prop := Due id s ∧ s.announcements id ≤ 1

theorem Once.step {s s' : State} {act : Act} {id : String} (h : Once id s)
    (hg : Standing id s act) (hs : machine s act = some s') : Once id s' := by
  refine ⟨h.1.step hs, ?_⟩
  have hle := h.2
  cases machine_entry id hs with
  | same _ hann => omega
  | booked _ _ hann => omega
  | updated i hact ht _ hann =>
    subst hact
    have h0 : s.announcements id = 0 := by
      by_contra hne
      exact absurd ((hg ht).symm.trans (h.1 hne)) (by simp)
    omega

/-- a cancel that waits to update has read a CONFIRMED row; if the row is no longer so, somebody
has an announcement to make for it -/
def Overtaken (id : String) (s : State) : Prop :=
  ∀ (i : Nat) (t : Thread), s.threads[i]? = some t → t = ⟨.cancel id, .update⟩ →
    s.db.statusOf id = some .CONFIRMED ∨ 1 ≤ s.announcements id

theorem CancelStep.update_read {s s' : State} {i : Nat} (id : String) {id' : String} {pc : Pc}
    (h : CancelStep s i id' pc s') :
    ∃ t', s'.threads = s.threads.set i t' ∧
      (t' = ⟨.cancel id, .update⟩ → s.db.statusOf id = some .CONFIRMED) := by
  cases h with
  | notFound => exact ⟨_, rfl, fun e => absurd e (by simp)⟩
  | already r => exact ⟨_, rfl, fun e => absurd e (by simp)⟩
  | found r hr hst =>
    refine ⟨_, rfl, fun e => ?_⟩
    obtain rfl : id' = id := Call.cancel.inj (congrArg Thread.call e)
    rw [Db.statusOf, hr, Option.map_some]
    cases hrs : r.status with
    | CONFIRMED => rfl
    | CANCELLED => exact absurd hrs hst
  | missing => exact ⟨_, rfl, fun e => absurd e (by simp)⟩
  | update r hr => exact ⟨_, rfl, fun e => absurd e (by simp)⟩
  | publish r type => exact ⟨_, rfl, fun e => absurd e (by simp)⟩

theorem machine_update {s s' : State} {act : Act} {id : String} (hs : machine s act = some s') :
    ∀ (j : Nat) (t : Thread), s'.threads[j]? = some t → t = ⟨.cancel id, .update⟩ →
      s.threads[j]? = some t ∨ s.db.statusOf id = some .CONFIRMED := by
  -- one thread moves
  have hset : ∀ (i : Nat) (t' : Thread), s'.threads = s.threads.set i t' →
      (t' = ⟨.cancel id, .update⟩ → s.db.statusOf id = some .CONFIRMED) →
      ∀ (j : Nat) (t : Thread), s'.threads[j]? = some t → t = ⟨.cancel id, .update⟩ →
        s.threads[j]? = some t ∨ s.db.statusOf id = some .CONFIRMED := by
    intro i t' hmoved hupdate
    rw [hmoved]
    apply forall_set
    · intro j t _ hj _
      exact .inl hj
    · intro e
      exact .inr (hupdate e)
  obtain ⟨call, rfl, rfl⟩ | ⟨i, dto, pc, ht, hstep⟩ | ⟨i, id', pc, rfl, ht, hstep⟩ :=
    machine_steps hs
  · apply forall_snoc
    · intro j t hj _
      exact .inl hj
    · intro e
      cases call with
      | create dto => exact absurd (congrArg Thread.call e) (by simp)
      | cancel id' => exact absurd (congrArg Thread.pc e) (by simp [Call.entry])
  · obtain ⟨t', hturn⟩ := hstep.turn ht
    apply hset i t' hturn.moved
    intro e
    exact absurd (hturn.call.symm.trans (congrArg Thread.call e)) (by simp)
  · obtain ⟨t', hmoved, hupdate⟩ := hstep.update_read id
    exact hset i t' hmoved hupdate

theorem announcements_mono {s s' : State} {act : Act} {id : String}
    (hs : machine s act = some s') : s.announcements id ≤ s'.announcements id := by
  cases machine_entry id hs with
  | same _ hann => omega
  | booked _ _ hann => omega
  | updated _ _ _ _ hann => omega

theorem Overtaken.step {s s' : State} {act : Act} {id : String} (h : Overtaken id s)
    (hs : machine s act = some s') : Overtaken id s' := by
  intro j t hj ht
  have hread : s.db.statusOf id = some .CONFIRMED ∨ 1 ≤ s.announcements id := by
    rcases machine_update hs j t hj ht with hold | hst
    · exact h j t hold ht
    · exact .inl hst
  cases machine_entry id hs with
  | same hst hann =>
    rw [hst, hann]
    exact hread
  | booked _ hst _ => exact .inl hst
  | updated _ _ _ _ hann => exact .inr (by omega)

/-- an update against the condition is a second announcement -/
theorem two_announcements {s s' : State} {act : Act} {id : String} (h : Overtaken id s)
    (hdue : Due id s) (hs : machine s act = some s') (hg : ¬ Standing id s act) :
    2 ≤ s'.announcements id := by
  cases act with
  | arrive call => exact absurd trivial hg
  | airport i answer => exact absurd trivial hg
  | insert i uuid => exact absurd trivial hg
  | go i =>
    simp only [Standing, Classical.not_imp] at hg
    obtain ⟨ht, hst⟩ := hg
    have hone : 1 ≤ s.announcements id := (h i _ ht rfl).resolve_left hst
    have hcan : s.db.statusOf id = some .CANCELLED := hdue (by omega)
    obtain ⟨t, ht', hstep⟩ := Option.bind_eq_some_iff.mp hs
    obtain rfl := Option.some.inj (ht.symm.trans ht')
    simp only [stepCancel] at hstep
    split at hstep
    · -- the row is there
      rename_i hnone
      obtain ⟨r, hr, hid, _⟩ := statusOf_eq_some.mp hcan
      have := List.find?_eq_none.mp hnone (Db.cancelRow id r) (List.mem_map_of_mem hr)
      rw [Db.cancelRow_id] at this
      exact absurd (decide_eq_true hid) this
    · rename_i r hr
      obtain rfl := Option.some.inj hstep
      have hann := announcements_update id (s.db.cancel id) r (s.db.roomType r.room_id) ht
      rw [if_pos (findFirst_cancel_self hr).1] at hann
      show 2 ≤ State.announcements
        ⟨s.db.cancel id, s.threads.set i ⟨.cancel id, .publishCancelled r _⟩, s.published⟩ id
      omega

/-- **When a cancellation is announced once.**  In every run, from any tables and with any other
requests, a reservation that has been cancelled stays so.  If every update of a cancel finds its
reservation CONFIRMED, at most one cancellation of it has been announced; and once nobody has an
announcement of it left to make, this is so only in such runs. -/
theorem one_cancellation (db₀ : Db) (id : String) (acts : List Act) (s : State)
    (hrun : machine.Runs free (State.init db₀) acts s) :
    (∀ bs t cs, acts = bs ++ cs → machine.Runs free (State.init db₀) bs t →
      t.db.statusOf id = some .CANCELLED → s.db.statusOf id = some .CANCELLED) ∧
    (machine.Runs (Standing id) (State.init db₀) acts s → s.announced id ≤ 1) ∧
    (s.owed id = 0 →
      (s.announced id ≤ 1 ↔ machine.Runs (Standing id) (State.init db₀) acts s)) := by
  have hzero : (State.init db₀).announcements id = 0 := rfl
  have hdue : Due id (State.init db₀) := fun hne => absurd hzero hne
  have hover : Overtaken id (State.init db₀) := fun i t ht => absurd ht (by simp [State.init])
  have honce : machine.Runs (Standing id) (State.init db₀) acts s → s.announced id ≤ 1 := by
    intro hg
    have hs : Once id s := hg.inv (fun s a t h hg hst => h.step hg hst) ⟨hdue, by omega⟩
    have : s.announced id + s.owed id ≤ 1 := hs.2
    omega
  refine ⟨?_, honce, fun howed => ⟨fun hle => ?_, honce⟩⟩
  · rintro bs t cs rfl hbs hst
    obtain ⟨t', ht', hcs⟩ := hrun.split
    obtain rfl := hbs.det ht'
    exact hcs.inv (fun s a u h _ hm => statusOf_step hm h) hst
  · apply hrun.guarded
    intro bs t act t' cs _ hbs _ hm hcs
    by_contra hg
    have hdt : Due id t := hbs.inv (fun s a u h _ hst => h.step hst) hdue
    have hot : Overtaken id t := hbs.inv (fun s a u h _ hst => h.step hst) hover
    have htwo : 2 ≤ t'.announcements id := two_announcements hot hdt hm hg
    have hend : 2 ≤ s.announcements id :=
      hcs.inv (P := fun u => 2 ≤ u.announcements id)
        (fun s a u h _ hst => le_trans h (announcements_mono hst)) htwo
    have : 2 ≤ s.announced id + s.owed id := hend
    omega

def cancelAlone : List Act := [.arrive (.cancel "r-0"), .go 0, .go 0, .go 0]

theorem one_cancellation_alone :
    ∃ s, machine.run (State.init takenDb) cancelAlone = some s ∧ s.published.length = 1 ∧
      s.announced "r-0" ≤ 1 :=
  ⟨_, rfl, rfl, (one_cancellation takenDb "r-0" cancelAlone _ (Machine.runs_free_iff.mpr rfl)).2.1
    (Machine.runs_iff_runG.mpr rfl)⟩

/-- two cancels that both read before either updates -/
def racingCancels : List Act :=
  [.arrive (.cancel "r-0"), .arrive (.cancel "r-0"), .go 0, .go 1, .go 0, .go 1, .go 0, .go 1]

/-- **Two cancels that both find the reservation CONFIRMED both announce it.** -/
theorem announced_twice :
    ∃ s, machine.run (State.init takenDb) racingCancels = some s ∧ s.announced "r-0" = 2 :=
  ⟨_, rfl, by decide⟩

end Hotel
