import Purrlington.Beach.OneActivity

/-!
# Beach: who may book

A booking looks at the visitor in one transaction and is written in a later one, by a save that
replaces all rows of its activity with those that the request read at its start.

* `Db.CheckedIn`        the visitors that are checked in;
* `Db.Admitted`         every row of `activity_bookings` is one of these;
* `Pc.Vouched`          what a request in flight may still write;
* `checkedIn_iff`       the visitors that are checked in are those from the start and those that were
                        checked in since;
* `booked_checked_in`   whatever the interleaving, nobody else is ever booked.
-/

set_option linter.unusedSectionVars false

namespace Beach
open SM

/-! ## the tables -/

def Db.CheckedIn (db : Db) (v : String) : Prop := db.findVisitor v = some true

instance (db : Db) (v : String) : Decidable (db.CheckedIn v) :=
  inferInstanceAs (Decidable (db.findVisitor v = some true))

/-- every booked visitor is checked in -/
def Db.Admitted (db : Db) : Prop := ∀ p ∈ db.bookings, db.CheckedIn p.2

instance (db : Db) : Decidable db.Admitted :=
  inferInstanceAs (Decidable (∀ p ∈ db.bookings, db.CheckedIn p.2))

namespace Db

theorem checkedIn_markCheckedIn {db : Db} {v w : String} :
    (db.markCheckedIn w).CheckedIn v ↔ v = w ∨ db.CheckedIn v := by
  by_cases e : v = w
  · subst e
    exact iff_of_true (AList.lookup_insert _) (.inl rfl)
  · have hl : (db.visitors.insert w true).lookup v = db.visitors.lookup v := AList.lookup_insert_ne e
    show (db.visitors.insert w true).lookup v = some true ↔ _
    rw [hl]
    exact ⟨.inr, fun h => h.resolve_left e⟩

theorem create_visitors (db : Db) (a : Activity) : (db.create a).1.visitors = db.visitors := by
  unfold create
  split <;> rfl

theorem delete_visitors (db : Db) (id : String) : (db.delete id).1.visitors = db.visitors := by
  unfold delete
  split <;> rfl

theorem checkedIn_congr {db db' : Db} (h : db'.visitors = db.visitors) {v : String} :
    db'.CheckedIn v ↔ db.CheckedIn v := by
  rw [CheckedIn, CheckedIn, findVisitor, findVisitor, h]

end Db

/-! ## who is checked in -/

theorem checkedIn_step {s s' : State} {act : Act} (hs : machine s act = some s') (v : String) :
    s'.db.CheckedIn v ↔ s.db.CheckedIn v ∨ act = .checkIn v := by
  have same : ∀ {i : Nat}, s'.db.visitors = s.db.visitors →
      (s'.db.CheckedIn v ↔ s.db.CheckedIn v ∨ Act.go i = .checkIn v) := by
    intro i h
    rw [Db.checkedIn_congr h]
    exact ⟨.inl, fun h => h.resolve_right (by simp)⟩
  cases machine_eff hs with
  | arrive call => exact ⟨.inl, fun h => h.resolve_right (by simp)⟩
  | read i call pc pc' ht hr => exact same rfl
  | save i call activity w c ht hc => exact same rfl
  | publish i call activity w ev ht => exact same rfl
  | create i r activity ht hnew => exact same (s.db.create_visitors activity)
  | remove i id? id ht hmem => exact same (s.db.delete_visitors id)
  | checkIn w =>
    show (s.db.markCheckedIn w).CheckedIn v ↔ _
    rw [Db.checkedIn_markCheckedIn, Act.checkIn.injEq, eq_comm, or_comm]

/-- **Nobody is checked in but by a check-in, and nobody is ever checked out.** -/
theorem checkedIn_iff {s s' : State} {acts : List Act} (h : machine.Runs free s acts s')
    (v : String) : s'.db.CheckedIn v ↔ s.db.CheckedIn v ∨ .checkIn v ∈ acts := by
  induction acts generalizing s with
  | nil =>
    cases h
    simp
  | cons act acts ih =>
    obtain ⟨_, t, hs, ht⟩ := h
    rw [ih ht, checkedIn_step hs, List.mem_cons, or_assoc, eq_comm]

/-! ## who is booked -/

/-- the visitors that a request may still write are checked in: those it has read with the
activity, and its own once it has been looked up -/
def Pc.Vouched (db : Db) : Call → Pc → Prop
  | _, .findVisitor activity => ∀ v ∈ activity.bookedVisitors, db.CheckedIn v
  | .book _ v, .isVisitorBooked activity =>
      db.CheckedIn v ∧ ∀ w ∈ activity.bookedVisitors, db.CheckedIn w
  | _, .save activity _ => ∀ v ∈ activity.bookedVisitors, db.CheckedIn v
  | _, _ => True

/-- the tables and every request in flight -/
structure Admitted (s : State) : Prop where
  db : s.db.Admitted
  threads : ∀ (i : Nat) (t : Thread), s.threads[i]? = some t → t.pc.Vouched s.db t.call

section
variable {s s' : State} {db db' : Db}

theorem Pc.Vouched.mono {call : Call} {pc : Pc} (h : pc.Vouched db call)
    (hle : ∀ v, db.CheckedIn v → db'.CheckedIn v) : pc.Vouched db' call := by
  cases pc with
  | findVisitor activity => exact fun v hv => hle v (h v hv)
  | save activity w => exact fun v hv => hle v (h v hv)
  | isVisitorBooked activity =>
    cases call with
    | book a v => exact ⟨hle v h.1, fun w hw => hle w (h.2 w hw)⟩
    | cancel a v => trivial
    | create r => trivial
    | remove id? => trivial
  | findById => trivial
  | publish activity w => trivial
  | create activity => trivial
  | delete id => trivial
  | done r => trivial

theorem Call.entry_vouched (db : Db) (call : Call) : call.entry.Vouched db call := by
  have create : ∀ r : CreateActivityRequest, (Call.create r).entry.Vouched db (.create r) := by
    intro r
    rw [Call.entry]
    split
    · trivial
    · split
      · trivial
      · split <;> trivial
  cases call with
  | book a v => trivial
  | cancel a v => trivial
  | create r => exact create r
  | remove id? =>
    cases id? with
    | none => trivial
    | some id =>
      rw [Call.entry]
      split <;> trivial

theorem Db.Admitted.findById {id : String} {activity : Activity} (h : db.Admitted)
    (hf : db.findById id = some activity) : ∀ v ∈ activity.bookedVisitors, db.CheckedIn v := by
  obtain ⟨row, _, rfl⟩ := Option.map_eq_some_iff.mp hf
  exact fun v hv => h _ (Db.mem_bookedVisitors.mp hv)

/-- a booking passes the look at its visitor only if the visitor is checked in -/
theorem checkedIn_of_passed {i : Nat} {a v : String} {activity : Activity}
    (ht : s.threads[i]? = some ⟨.book a v, .findVisitor activity⟩)
    (hs : machine s (.go i) = some (s.goto i (.book a v) (.isVisitorBooked activity))) :
    s.db.CheckedIn v := by
  -- the request would be elsewhere
  have apart : ∀ pc : Pc, pc ≠ .isVisitorBooked activity →
      some (s.goto i (.book a v) pc) ≠ some (s.goto i (.book a v) (.isVisitorBooked activity)) := by
    intro pc hne e
    have hthreads := congrArg (fun t : State => t.threads[i]?) (Option.some.inj e)
    have hlt : i < s.threads.length := (List.getElem?_eq_some_iff.mp ht).1
    simp only [State.goto, List.getElem?_set_self hlt] at hthreads
    exact hne (congrArg Thread.pc (Option.some.inj hthreads))
  simp only [machine, ht, stepCall, stepBook] at hs
  split at hs
  · exact absurd hs (apart _ (by simp))
  · exact absurd hs (apart _ (by simp))
  · assumption

theorem Admitted.goto {i : Nat} {call : Call} {pc : Pc} (h : Admitted s)
    (hpc : pc.Vouched s.db call) : Admitted (s.goto i call pc) :=
  ⟨h.db, forall_set (fun j t _ hj => h.threads j t hj) hpc⟩

theorem Admitted.read {i : Nat} {call : Call} {pc pc' : Pc} (h : Admitted s)
    (ht : s.threads[i]? = some ⟨call, pc⟩) (hr : Reads s.db call pc pc')
    (hs : machine s (.go i) = some (s.goto i call pc')) : Admitted (s.goto i call pc') := by
  have hold : pc.Vouched s.db call := h.threads i _ ht
  refine h.goto ?_
  cases hr with
  | fail e => trivial
  | bookFind a v activity hf => exact h.db.findById hf
  | bookVisitor a v activity hv => exact ⟨checkedIn_of_passed ht hs, hold⟩
  | bookCheck a v activity hb hf =>
    intro w hw
    rcases Activity.mem_add.mp hw with rfl | hw
    · exact hold.1
    · exact hold.2 w hw
  | cancelFind a v activity hf hv =>
    exact fun w hw => h.db.findById hf w (Finset.mem_of_mem_erase hw)
  | «exists» r activity hmem => trivial
  | absent id? id hmem => trivial

theorem Admitted.write {i : Nat} {call : Call} {pc : Pc} {log : List Commit}
    {published : List Published} (h : Admitted s) (hv : db'.visitors = s.db.visitors)
    (hb : ∀ p ∈ db'.bookings, p ∈ s.db.bookings ∨ s.db.CheckedIn p.2)
    (hpc : ∀ db, pc.Vouched db call) :
    Admitted ⟨db', s.threads.set i ⟨call, pc⟩, log, published⟩ := by
  have hle : ∀ v, s.db.CheckedIn v → db'.CheckedIn v := fun v => (Db.checkedIn_congr hv).mpr
  refine ⟨fun p hp => ?_, forall_set (fun j t _ hj => (h.threads j t hj).mono hle) (hpc db')⟩
  exact hle p.2 ((hb p hp).elim (h.db p) id)

theorem Admitted.step {act : Act} (h : Admitted s) (hs : machine s act = some s') : Admitted s' := by
  cases machine_eff hs with
  | arrive call => exact ⟨h.db, forall_snoc h.threads (call.entry_vouched s.db)⟩
  | read i call pc pc' ht hr => exact h.read ht hr hs
  | save i call activity w c ht hc =>
    have hvouched : ∀ v ∈ activity.bookedVisitors, s.db.CheckedIn v := h.threads i _ ht
    refine h.write rfl ?_ fun _ => trivial
    rintro ⟨id, v⟩ hp
    rcases Db.mem_save.mp hp with ⟨_, hp⟩ | ⟨_, hv⟩
    · exact .inl hp
    · exact .inr (hvouched v hv)
  | publish i call activity w ev ht => exact h.write rfl (fun p hp => .inl hp) fun _ => trivial
  | create i r activity ht hnew =>
    refine h.write (s.db.create_visitors activity) (fun p hp => .inl ?_) fun _ => trivial
    rwa [Db.create_bookings] at hp
  | remove i id? id ht hmem =>
    exact h.write (s.db.delete_visitors id) (fun p hp => .inl (s.db.delete_bookings_subset id hp))
      fun _ => trivial
  | checkIn v =>
    have hle : ∀ w, s.db.CheckedIn w → (s.db.markCheckedIn v).CheckedIn w :=
      fun w hw => Db.checkedIn_markCheckedIn.mpr (.inr hw)
    exact ⟨fun p hp => hle _ (h.db p hp), fun j t hj => (h.threads j t hj).mono hle⟩

end

theorem admitted_init {db₀ : Db} (h : db₀.Admitted) : Admitted (State.init db₀) :=
  ⟨h, fun i t ht => absurd ht (by simp [State.init])⟩

/-- **Only checked-in visitors are booked.**  From tables where it is so, every row of
`activity_bookings` is one of a checked-in visitor after any interleaving of booking, cancelling,
creating and removing requests with check-ins; and whoever is checked in then was so at the start, or
has been checked in since. -/
theorem booked_checked_in (db₀ : Db) (h₀ : db₀.Admitted) (acts : List Act) (s : State)
    (hrun : machine.Runs free (State.init db₀) acts s) :
    s.db.Admitted ∧ ∀ v, s.db.CheckedIn v ↔ db₀.CheckedIn v ∨ .checkIn v ∈ acts := by
  have hs : Admitted s := hrun.inv (fun s a s' h _ hm => h.step hm) (admitted_init h₀)
  exact ⟨hs.db, checkedIn_iff hrun⟩

/-- one activity, and a visitor who is known and not checked in -/
def quietDb : Db where
  activities := (∅ : AList _).insert "surf" ⟨"Surfing", none, 4⟩
  bookings := ∅
  visitors := (∅ : AList _).insert "ana" false
  references := by intro p hp; cases hp

/-- ana is turned down, is checked in while a second request of hers is on its way, and gets in -/
def lateCheckIn : List Act :=
  [.arrive (.book "surf" "ana"), .go 0, .go 0, .arrive (.book "surf" "ana"), .go 1,
   .checkIn "ana", .go 1, .go 1, .go 1, .go 1]

theorem booked_checked_in_late :
    ∃ s, machine.Runs free (State.init quietDb) lateCheckIn s ∧ s.db.bookings = {("surf", "ana")} ∧
      s.db.Admitted ∧
      ∀ v, s.db.CheckedIn v ↔ quietDb.CheckedIn v ∨ .checkIn v ∈ lateCheckIn :=
  ⟨_, Machine.runs_free_iff.mpr rfl, by decide,
    booked_checked_in quietDb (by decide) lateCheckIn _ (Machine.runs_free_iff.mpr rfl)⟩

end Beach
