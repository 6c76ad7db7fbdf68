import Purrlington.Beach.UseCases

/-!
# Beach: what the booking table keeps under concurrent requests

A request reads an activity in one transaction and writes the whole booking set back in a later
one.  Two laws of the table, for every interleaving:

* `bookings_le_capacity`   no activity is ever overbooked: `save` writes the capacity together
                           with the set that was checked against it, so a stale snapshot cannot
                           break the bound, only bring back an older consistent one;
* `standing_booked`        no booking is lost, in every run in which a save does not write back
                           a snapshot that misses a visitor booked since it was read (`Current`);
                           without that a booking can be lost (`booking_lost`).
-/

set_option linter.unusedSectionVars false

namespace Beach
open SM

/-! ## capacity -/

/-- the activity a request is about to write fits its capacity -/
def Pc.Fits : Pc → Prop
  | .save activity _ => activity.Fits
  | .create activity => 0 ≤ activity.capacity
  | _ => True

theorem Call.entry_fits (call : Call) : call.entry.Fits := by
  cases call with
  | book a v => trivial
  | cancel a v => trivial
  | create r =>
    simp only [Call.entry]
    split
    · trivial
    · split
      · trivial
      · split
        · trivial
        · show 0 ≤ r.capacity
          omega
  | remove id? =>
    cases id? with
    | none => trivial
    | some id =>
      simp only [Call.entry]
      split <;> trivial

theorem Reads.fits {db : Db} {call : Call} {pc pc' : Pc} (hdb : db.Fits)
    (h : Reads db call pc pc') : pc'.Fits := by
  cases h with
  | fail => trivial
  | bookFind => trivial
  | bookVisitor => trivial
  | bookCheck a v activity _ hfull => exact Activity.fits_add hfull v
  | cancelFind a v activity hfind _ => exact Activity.fits_remove (hdb a activity hfind) v
  | «exists» => trivial
  | absent => trivial

/-- the database and every snapshot about to be written fit -/
structure Capacity (s : State) : Prop where
  db : s.db.Fits
  threads : ∀ (i : Nat) (t : Thread), s.threads[i]? = some t → t.pc.Fits

theorem Capacity.goto {s : State} (h : Capacity s) (i : Nat) (call : Call) {pc : Pc}
    (hpc : pc.Fits) : ∀ (j : Nat) (t : Thread), (s.goto i call pc).threads[j]? = some t → t.pc.Fits :=
  forall_set (fun j t _ ht => h.threads j t ht) hpc

theorem Capacity.step {s s' : State} {act : Act} (h : Capacity s) (hs : machine s act = some s') :
    Capacity s' := by
  cases machine_eff hs with
  | arrive call => exact ⟨h.db, forall_snoc h.threads call.entry_fits⟩
  | read i call pc pc' _ hr => exact ⟨h.db, h.goto i call (hr.fits h.db)⟩
  | save i call activity w c ht _ =>
    exact ⟨Db.fits_save h.db (h.threads i _ ht), h.goto i call trivial⟩
  | publish i call activity w ev _ => exact ⟨h.db, h.goto i call trivial⟩
  | create i r activity ht _ =>
    exact ⟨Db.fits_create h.db (h.threads i _ ht), h.goto i _ trivial⟩
  | remove i id? id _ _ => exact ⟨Db.fits_delete h.db id, h.goto i _ trivial⟩
  | checkIn v => exact ⟨h.db, h.threads⟩

/-- **No activity is ever overbooked**, under any interleaving of book, cancel, create and remove
requests: its rows in `activity_bookings` number at most its capacity. -/
theorem bookings_le_capacity (db₀ : Db)
    (h₀ : ∀ id row, db₀.activities.lookup id = some row →
      ((db₀.bookings.filter (fun p => p.1 = id)).card : Int) ≤ row.capacity)
    (acts : List Act) (s : State) (hrun : machine.Runs free (State.init db₀) acts s) :
    (∀ id row, s.db.activities.lookup id = some row →
      ((s.db.bookings.filter (fun p => p.1 = id)).card : Int) ≤ row.capacity) ∧
    ∀ id activity, s.db.findById id = some activity → 0 ≤ activity.remaining := by
  have hinit : Capacity (State.init db₀) := by
    refine ⟨?_, fun i t ht => by simp [State.init] at ht⟩
    intro id a ha
    obtain ⟨row, hrow, rfl⟩ := Option.map_eq_some_iff.mp ha
    show ((db₀.bookedVisitors id).card : Int) ≤ row.capacity
    rw [Db.card_bookedVisitors]
    exact h₀ id row hrow
  have hs : Capacity s := hrun.inv (fun s a t h _ hst => h.step hst) hinit
  constructor
  · intro id row hrow
    have hf := hs.db id (s.db.toActivity id row) (by rw [Db.findById, hrow]; rfl)
    rw [← Db.card_bookedVisitors]
    exact hf
  · intro id activity ha
    exact (Activity.fits_iff_remaining activity).mp (hs.db id activity ha)

/-- a database with the activity `volley` of the given capacity and two checked-in visitors -/
def volleyDb (capacity : Int) : Db where
  activities := (∅ : AList _).insert "volley" ⟨"Beach Volleyball", none, capacity⟩
  bookings := ∅
  visitors := ((∅ : AList _).insert "ana" true).insert "bob" true
  references := by intro p hp; cases hp

/-- two book requests that both read before either saves -/
def racingBooks : List Act :=
  [.arrive (.book "volley" "ana"), .arrive (.book "volley" "bob"),
   .go 0, .go 1, .go 0, .go 1, .go 0, .go 1, .go 0, .go 1, .go 0, .go 1]

theorem bookings_le_capacity_racing :
    ∃ s, machine.run (State.init (volleyDb 1)) racingBooks = some s ∧
      s.db.bookings = {("volley", "bob")} ∧
      ∀ id activity, s.db.findById id = some activity → 0 ≤ activity.remaining := by
  refine ⟨_, rfl, by decide, (bookings_le_capacity (volleyDb 1) ?_ racingBooks _
    (Machine.runs_free_iff.mpr rfl)).2⟩
  intro id row hrow
  have hid : id = "volley" := by
    by_contra hne
    have h := hrow.symm.trans (AList.lookup_insert_ne hne)
    simp at h
  subst hid
  have hr := hrow.symm.trans (AList.lookup_insert _)
  cases hr
  decide

/-! ## lost bookings -/

/-- the booking of `v` in `a` was committed and neither a later cancel of that visitor nor a later
removal of the activity succeeded -/
def Standing (log : List Commit) (a v : String) : Prop :=
  ∃ newer older, log = newer ++ .booked a v :: older ∧
    .cancelled a v ∉ newer ∧ .removed a ∉ newer

theorem standing_nil (a v : String) : ¬ Standing [] a v := by
  rintro ⟨newer, older, h, _⟩
  exact absurd h (by simp)

/-- one more commit: the booking itself, or another commit that does not end it -/
theorem standing_cons {c : Commit} {log : List Commit} {a v : String}
    (h : Standing (c :: log) a v) :
    c = .booked a v ∨ (c ≠ .cancelled a v ∧ c ≠ .removed a ∧ Standing log a v) := by
  obtain ⟨newer, older, he, hc, hr⟩ := h
  cases newer with
  | nil =>
    left
    exact (List.cons.inj he).1
  | cons d newer =>
    obtain ⟨rfl, he'⟩ := List.cons.inj he
    rw [List.mem_cons, not_or] at hc hr
    exact Or.inr ⟨fun e => hc.1 e.symm, fun e => hr.1 e.symm, newer, older, he', hc.2, hr.2⟩

/-- the visitor a book or cancel request is for -/
def Call.visitor : Call → Option String
  | .book _ v => some v
  | .cancel _ v => some v
  | _ => none

/-- the call and the activity of a request that is about to save -/
def State.saving (s : State) (i : Nat) : Option (Call × Activity) :=
  match s.threads[i]? with
  | some ⟨call, .save activity _⟩ => some (call, activity)
  | _ => none

/-- the snapshot a save writes back misses no visitor that other requests have booked into the
activity since it was read -/
def Current (s : State) : Act → Prop
  | .go i => ∀ ca ∈ s.saving i, ∀ p ∈ s.db.bookings, p.1 = ca.2.id → ca.1.visitor ≠ some p.2 →
      p.2 ∈ ca.2.bookedVisitors
  | .arrive _ => True
  | .checkIn _ => True

instance : ∀ s act, Decidable (Current s act)
  | s, .go i => inferInstanceAs (Decidable (∀ ca ∈ s.saving i, ∀ p ∈ s.db.bookings,
      p.1 = ca.2.id → ca.1.visitor ≠ some p.2 → p.2 ∈ ca.2.bookedVisitors))
  | _, .arrive _ => inferInstanceAs (Decidable True)
  | _, .checkIn _ => inferInstanceAs (Decidable True)

theorem Current.snapshot {s : State} {i : Nat} {call : Call} {activity : Activity} {w : Bool}
    (h : Current s (.go i)) (ht : s.threads[i]? = some ⟨call, .save activity w⟩) (v : String)
    (hv : call.visitor ≠ some v) (hrow : (activity.id, v) ∈ s.db.bookings) :
    v ∈ activity.bookedVisitors := by
  have hs : s.saving i = some (call, activity) := by simp only [State.saving, ht]
  exact h (call, activity) hs (activity.id, v) hrow rfl hv

/-- the snapshot of a request is one of the activity it was called for, and a booking request
has put its visitor in before it saves -/
def Thread.Own : Thread → Prop
  | ⟨.book a _, .findVisitor activity⟩ => activity.id = a
  | ⟨.book a _, .isVisitorBooked activity⟩ => activity.id = a
  | ⟨.book a v, .save activity _⟩ => activity.id = a ∧ v ∈ activity.bookedVisitors
  | ⟨.cancel a _, .save activity _⟩ => activity.id = a
  | _ => True

theorem Call.entry_own (call : Call) : Thread.Own ⟨call, call.entry⟩ := by
  cases call with
  | book a v => trivial
  | cancel a v => trivial
  | create r => trivial
  | remove id? => trivial

theorem Reads.own {db : Db} {call : Call} {pc pc' : Pc} (h : Reads db call pc pc')
    (hown : Thread.Own ⟨call, pc⟩) : Thread.Own ⟨call, pc'⟩ := by
  cases h with
  | fail call pc e => cases call <;> trivial
  | bookFind a v activity hf => exact Db.findById_id hf
  | bookVisitor a v activity _ => exact hown
  | bookCheck a v activity _ _ => exact ⟨hown, Activity.mem_add.mpr (Or.inl rfl)⟩
  | cancelFind a v activity hf _ =>
    show activity.id = a
    exact Db.findById_id hf
  | «exists» r activity _ => trivial
  | absent id? id _ => trivial

/-- past its save: the call goes on to return `null` -/
def Pc.Committed : Pc → Prop
  | .publish _ _ => True
  | .done .null => True
  | _ => False

theorem Reads.not_committed {db : Db} {call : Call} {pc pc' : Pc} (h : Reads db call pc pc') :
    ¬ pc'.Committed := by
  cases h <;> exact id

theorem Call.entry_not_committed (call : Call) : ¬ call.entry.Committed := by
  cases call with
  | book a v => exact id
  | cancel a v => exact id
  | create r =>
    simp only [Call.entry]
    split
    · exact id
    · split
      · exact id
      · split <;> exact id
  | remove id? =>
    cases id? with
    | none => exact id
    | some id =>
      simp only [Call.entry]
      split <;> exact fun h => h

/-- a book call past its save is in the log -/
def Thread.Logged (log : List Commit) (t : Thread) : Prop :=
  t.pc.Committed → ∀ a v, t.call = .book a v → .booked a v ∈ log

theorem Thread.Logged.cons {log : List Commit} {t : Thread} (h : t.Logged log) (c : Commit) :
    t.Logged (c :: log) := fun hc a v hcall => List.mem_cons_of_mem _ (h hc a v hcall)

/-- every standing booking has its row, and every committed call is logged -/
structure Kept (s : State) : Prop where
  own : ∀ (i : Nat) (t : Thread), s.threads[i]? = some t → t.Own
  row : ∀ a v, Standing s.log a v → (a, v) ∈ s.db.bookings
  logged : ∀ (i : Nat) (t : Thread), s.threads[i]? = some t → t.Logged s.log

theorem Kept.init (db₀ : Db) : Kept (State.init db₀) where
  own i t ht := by simp [State.init] at ht
  row a v h := absurd h (standing_nil a v)
  logged i t ht := by simp [State.init] at ht

theorem Kept.goto {s : State} (h : Kept s) (i : Nat) (call : Call) (pc : Pc)
    (hown : Thread.Own ⟨call, pc⟩)
    (hl : Thread.Logged s.log ⟨call, pc⟩) : Kept (s.goto i call pc) where
  own := forall_set (fun j t _ ht => h.own j t ht) hown
  row := h.row
  logged := forall_set (fun j t _ ht => h.logged j t ht) hl

/-- the save of a snapshot that misses nobody keeps every standing booking -/
theorem Kept.row_save {s : State} {call : Call} {activity : Activity} {c : Commit} (h : Kept s)
    (hown : Thread.Own ⟨call, .save activity false⟩) (hc : call.commit = some c)
    (hcur : ∀ v, call.visitor ≠ some v → (activity.id, v) ∈ s.db.bookings →
      v ∈ activity.bookedVisitors) :
    ∀ a v, Standing (c :: s.log) a v → (a, v) ∈ (s.db.save activity).bookings := by
  intro a v hst
  rw [Db.mem_save]
  by_cases e : a = activity.id
  · right
    refine ⟨e, ?_⟩
    cases call with
    | book a' v' =>
      obtain ⟨rfl, hv'⟩ := hown
      cases hc
      by_cases ev : v = v'
      · exact ev ▸ hv'
      · rcases standing_cons hst with hb | ⟨_, _, hold⟩
        · cases hb; exact absurd rfl ev
        · exact hcur v (fun hh => ev (Option.some.inj hh).symm) (e ▸ h.row a v hold)
    | cancel a' v' =>
      have hid : activity.id = a' := hown
      cases hc
      rcases standing_cons hst with hb | ⟨hne, _, hold⟩
      · cases hb
      · have ev : v ≠ v' := by
          rintro rfl
          exact hne (by rw [e, hid])
        exact hcur v (fun hh => ev (Option.some.inj hh).symm) (e ▸ h.row a v hold)
    | create r => cases hc
    | remove id? => cases hc
  · left
    refine ⟨e, ?_⟩
    rcases standing_cons hst with hb | ⟨_, _, hold⟩
    · -- the new booking is one of the saved activity
      exfalso
      cases call with
      | book a' v' =>
        obtain ⟨hid, _⟩ := hown
        cases hc
        cases hb
        exact e hid.symm
      | cancel a' v' => cases hc; cases hb
      | create r => cases hc
      | remove id? => cases hc
    · exact h.row a v hold

theorem Kept.step {s s' : State} {act : Act} (h : Kept s) (hcur : Current s act)
    (hs : machine s act = some s') : Kept s' := by
  cases machine_eff hs with
  | arrive call =>
    exact ⟨forall_snoc h.own call.entry_own, h.row,
      forall_snoc h.logged (fun hc => absurd hc call.entry_not_committed)⟩
  | read i call pc pc' ht hr =>
    exact h.goto i call pc' (hr.own (h.own i _ ht)) (fun hc => absurd hc hr.not_committed)
  | save i call activity w c ht hc =>
    have hown := h.own i _ ht
    have hown' : Thread.Own ⟨call, .save activity false⟩ := by cases call <;> exact hown
    refine ⟨?_, h.row_save hown' hc (hcur.snapshot ht), ?_⟩
    · exact forall_set (fun j t _ hj => h.own j t hj) (by cases call <;> trivial)
    · refine forall_set (fun j t _ hj => (h.logged j t hj).cons c) ?_
      intro _ a v hcall
      have hcall' : call = .book a v := hcall
      subst hcall'
      cases hc
      exact List.mem_cons_self
  | publish i call activity w ev ht =>
    have hk := h.goto i call (.done .null) (by cases call <;> trivial)
      (fun _ a v hcall => h.logged i _ ht trivial a v hcall)
    exact ⟨hk.own, hk.row, hk.logged⟩
  | create i r activity ht hnew =>
    have hk := h.goto i (.create r) (.done (.created activity)) trivial
      (fun hc => hc.elim)
    refine ⟨hk.own, ?_, fun j t hj => (hk.logged j t hj).cons _⟩
    · intro a v hst
      rcases standing_cons hst with hb | ⟨_, _, hold⟩
      · cases hb
      · have hb : (s.db.create activity).1.bookings = s.db.bookings := by
          unfold Db.create; split <;> rfl
        show (a, v) ∈ (s.db.create activity).1.bookings
        rw [hb]
        exact h.row a v hold
  | remove i id? id ht hmem =>
    have hk := h.goto i (.remove id?) (.done .removed) trivial (fun hc => hc.elim)
    refine ⟨hk.own, ?_, fun j t hj => (hk.logged j t hj).cons _⟩
    · intro a v hst
      rcases standing_cons hst with hb | ⟨_, hne, hold⟩
      · cases hb
      · have hd : (s.db.delete id).1 = s.db.erase id := by simp [Db.delete, hmem]
        show (a, v) ∈ (s.db.delete id).1.bookings
        rw [hd, Db.mem_erase]
        exact ⟨fun e => hne (by rw [e]), h.row a v hold⟩
  | checkIn v => exact ⟨h.own, h.row, h.logged⟩

/-- **No booking is lost in a run whose saves are current**: a booking that was committed and
neither cancelled nor removed with its activity afterwards has its row, and every book call that
returned `null` is such a committed booking. -/
theorem standing_booked (db₀ : Db) (acts : List Act) (s : State)
    (hrun : machine.Runs Current (State.init db₀) acts s) :
    (∀ (i : Nat) a v, s.threads[i]? = some ⟨.book a v, .done .null⟩ → .booked a v ∈ s.log) ∧
    ∀ a v, Standing s.log a v → (a, v) ∈ s.db.bookings := by
  have hs : Kept s := hrun.inv (fun s a t h hg hst => h.step hg hst) (Kept.init db₀)
  exact ⟨fun i a v ht => hs.logged i _ ht trivial a v rfl, hs.row⟩

/-- one booking after the other -/
def bookThenBook : List Act :=
  [.arrive (.book "volley" "ana"), .go 0, .go 0, .go 0, .go 0, .go 0,
   .arrive (.book "volley" "bob"), .go 1, .go 1, .go 1, .go 1, .go 1]

theorem standing_booked_sequential :
    ∃ s, machine.run (State.init (volleyDb 2)) bookThenBook = some s ∧
      Standing s.log "volley" "ana" ∧ ("volley", "ana") ∈ s.db.bookings := by
  have hst : Standing [.booked "volley" "bob", .booked "volley" "ana"] "volley" "ana" :=
    ⟨[.booked "volley" "bob"], [], rfl, by decide, by decide⟩
  refine ⟨_, rfl, hst, ?_⟩
  exact (standing_booked (volleyDb 2) bookThenBook _ (Machine.runs_iff_runG.mpr rfl)).2 _ _ hst

/-- **Two bookings that both read before either saves: the first one is lost**, although its call
returned `null` and nobody cancelled it. -/
theorem booking_lost :
    ∃ s, machine.run (State.init (volleyDb 2)) racingBooks = some s ∧
      s.threads[0]? = some ⟨.book "volley" "ana", .done .null⟩ ∧
      Standing s.log "volley" "ana" ∧ ("volley", "ana") ∉ s.db.bookings := by
  refine ⟨_, rfl, rfl, ⟨[.booked "volley" "bob"], [], rfl, ?_, ?_⟩, ?_⟩ <;> decide

end Beach
