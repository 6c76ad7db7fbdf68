import Mathlib.Data.List.AList
import Mathlib.Data.Finset.Card
import Mathlib.Data.Finset.Image
import Mathlib.Data.Finset.Union

/-!
# Beach: activities, the database and the activity repository

* `Activity`   the domain model (`domain/model/Activity.kt`), `remaining`, `isFull`;
* `Db`         the tables `activities`, `activity_bookings`, `visitors` with the declared keys:
               a primary key is a map key, the pair key of `activity_bookings` makes that table
               a set, and the foreign key (`ON DELETE CASCADE`) is the field `references`;
* `Db.findById`, `Db.isVisitorBooked`, `Db.save`, `Db.create`, `Db.delete`
               `PostgresActivityRepository.kt`, one transaction each;
* `Db.findVisitor`, `Db.markCheckedIn`   `PostgresVisitorRepository.kt`.

The order in which SQL returns rows is not specified, so a booking set is a `Finset`.
-/

set_option linter.unusedSectionVars false

namespace Beach

/-! ## the domain model -/

/-- `Activity.kt`; `bookedVisitors` is a set there too -/
structure Activity where
  id : String
  name : String
  description : Option String
  capacity : Int
  bookedVisitors : Finset String
  deriving DecidableEq

namespace Activity

def remaining (a : Activity) : Int := a.capacity - a.bookedVisitors.card

def isFull (a : Activity) : Bool := decide (a.capacity ≤ a.bookedVisitors.card)

/-- `activity.bookedVisitors.add(visitorId)` -/
def add (a : Activity) (v : String) : Activity :=
  { a with bookedVisitors := insert v a.bookedVisitors }

/-- `activity.bookedVisitors.remove(visitorId)` -/
def remove (a : Activity) (v : String) : Activity :=
  { a with bookedVisitors := a.bookedVisitors.erase v }

theorem mem_add {a : Activity} {v w : String} :
    w ∈ (a.add v).bookedVisitors ↔ w = v ∨ w ∈ a.bookedVisitors := Finset.mem_insert

/-- a booking count within the capacity: the negation of overbooking -/
def Fits (a : Activity) : Prop := (a.bookedVisitors.card : Int) ≤ a.capacity

theorem fits_iff_remaining (a : Activity) : a.Fits ↔ 0 ≤ a.remaining := by
  unfold Fits remaining; omega

theorem fits_add {a : Activity} (h : a.isFull = false) (v : String) : (a.add v).Fits := by
  have h1 : ¬ a.capacity ≤ a.bookedVisitors.card := by simpa [isFull] using h
  have h2 := Finset.card_insert_le v a.bookedVisitors
  show ((insert v a.bookedVisitors).card : Int) ≤ a.capacity
  omega

theorem fits_remove {a : Activity} (h : a.Fits) (v : String) : (a.remove v).Fits := by
  have h1 : (a.bookedVisitors.card : Int) ≤ a.capacity := h
  have h2 := Finset.card_erase_le (s := a.bookedVisitors) (a := v)
  show ((a.bookedVisitors.erase v).card : Int) ≤ a.capacity
  omega

end Activity

/-! ## the database -/

/-- a row of `activities` without its primary key -/
structure ActivityRow where
  name : String
  description : Option String
  capacity : Int
  deriving DecidableEq

/-- the three tables; `bookings` holds pairs `(activity_id, visitor_id)` -/
structure Db where
  activities : AList (fun _ : String => ActivityRow)
  bookings : Finset (String × String)
  visitors : AList (fun _ : String => Bool)
  references : ∀ p ∈ bookings, p.1 ∈ activities

namespace Db

/-- `findBookedVisitors` (the list is turned into a set by its only caller here) -/
def bookedVisitors (db : Db) (activityId : String) : Finset String :=
  (db.bookings.filter (fun p => p.1 = activityId)).image Prod.snd

def toActivity (db : Db) (activityId : String) (row : ActivityRow) : Activity where
  id := activityId
  name := row.name
  description := row.description
  capacity := row.capacity
  bookedVisitors := db.bookedVisitors activityId

def findById (db : Db) (id : String) : Option Activity :=
  (db.activities.lookup id).map (db.toActivity id)

def isVisitorBooked (db : Db) (visitorId : String) : Bool :=
  decide (0 < (db.bookings.filter (fun p => p.2 = visitorId)).card)

def findVisitor (db : Db) (id : String) : Option Bool := db.visitors.lookup id

def markCheckedIn (db : Db) (id : String) : Db :=
  { db with visitors := db.visitors.insert id true }

/-- the row that `save` and `create` write -/
def rowOf (a : Activity) : ActivityRow := ⟨a.name, a.description, a.capacity⟩

/-- `save`: the update and the insert branch both leave the activity's own row under its key;
then the persisted booking set is replaced by the model's -/
def save (db : Db) (a : Activity) : Db where
  activities := db.activities.insert a.id (rowOf a)
  bookings := db.bookings.filter (fun p => p.1 ≠ a.id) ∪ a.bookedVisitors.image (fun v => (a.id, v))
  visitors := db.visitors
  references := by
    intro p hp
    rw [AList.mem_insert]
    rcases Finset.mem_union.mp hp with h | h
    · exact Or.inr (db.references p (Finset.mem_filter.mp h).1)
    · obtain ⟨v, _, rfl⟩ := Finset.mem_image.mp h
      exact Or.inl rfl

/-- `create`: the flag is `false` (and nothing is written) when the id exists -/
def create (db : Db) (a : Activity) : Db × Bool :=
  if a.id ∈ db.activities then (db, false)
  else ({ db with
    activities := db.activities.insert a.id (rowOf a)
    references := fun p hp => AList.mem_insert _ |>.mpr (Or.inr (db.references p hp)) }, true)

/-- the rows left by `DELETE FROM activities WHERE id = ..` with its cascade -/
def erase (db : Db) (id : String) : Db where
  activities := db.activities.erase id
  bookings := db.bookings.filter (fun p => p.1 ≠ id)
  visitors := db.visitors
  references := by
    intro p hp
    have h := Finset.mem_filter.mp hp
    exact AList.mem_erase.mpr ⟨h.2, db.references p h.1⟩

/-- `delete`: `deletedRows > 0` -/
def delete (db : Db) (id : String) : Db × Bool :=
  if id ∈ db.activities then (db.erase id, true) else (db, false)

/-! ### what the operations leave in the tables -/

theorem mem_bookedVisitors {db : Db} {a v : String} :
    v ∈ db.bookedVisitors a ↔ (a, v) ∈ db.bookings := by
  simp [bookedVisitors]

theorem card_bookedVisitors (db : Db) (a : String) :
    (db.bookedVisitors a).card = (db.bookings.filter (fun p => p.1 = a)).card := by
  apply Finset.card_image_of_injOn
  intro p hp q hq h
  have hp' := (Finset.mem_filter.mp hp).2
  have hq' := (Finset.mem_filter.mp hq).2
  exact Prod.ext (hp'.trans hq'.symm) h

theorem findById_id {db : Db} {id : String} {a : Activity} (h : db.findById id = some a) :
    a.id = id := by
  obtain ⟨row, _, rfl⟩ := Option.map_eq_some_iff.mp h
  rfl

theorem mem_save {db : Db} {a : Activity} {id v : String} :
    (id, v) ∈ (db.save a).bookings ↔
      (id ≠ a.id ∧ (id, v) ∈ db.bookings) ∨ (id = a.id ∧ v ∈ a.bookedVisitors) := by
  simp only [save, Finset.mem_union, Finset.mem_filter, Finset.mem_image, Prod.mk.injEq]
  constructor
  · rintro (⟨h1, h2⟩ | ⟨w, hw, rfl, rfl⟩)
    · exact Or.inl ⟨h2, h1⟩
    · exact Or.inr ⟨rfl, hw⟩
  · rintro (⟨h1, h2⟩ | ⟨rfl, hv⟩)
    · exact Or.inl ⟨h2, h1⟩
    · exact Or.inr ⟨v, hv, rfl, rfl⟩

theorem mem_erase {db : Db} {id id' v : String} :
    (id', v) ∈ (db.erase id).bookings ↔ id' ≠ id ∧ (id', v) ∈ db.bookings := by
  simp [erase, and_comm]

theorem save_bookedVisitors_self (db : Db) (a : Activity) :
    (db.save a).bookedVisitors a.id = a.bookedVisitors := by
  ext v
  rw [mem_bookedVisitors, mem_save]
  simp

theorem save_bookedVisitors_of_ne (db : Db) (a : Activity) {id : String} (h : id ≠ a.id) :
    (db.save a).bookedVisitors id = db.bookedVisitors id := by
  ext v
  rw [mem_bookedVisitors, mem_save, mem_bookedVisitors]
  simp [h]

theorem erase_bookedVisitors_of_ne (db : Db) {id id' : String} (h : id' ≠ id) :
    (db.erase id).bookedVisitors id' = db.bookedVisitors id' := by
  ext v
  rw [mem_bookedVisitors, mem_erase, mem_bookedVisitors]
  simp [h]

/-- an id without an activity row has no bookings: the foreign key -/
theorem bookedVisitors_of_absent {db : Db} {id : String} (h : id ∉ db.activities) :
    db.bookedVisitors id = ∅ := by
  apply Finset.eq_empty_of_forall_notMem
  intro v hv
  exact h (db.references _ (mem_bookedVisitors.mp hv))

theorem findById_save_self (db : Db) (a : Activity) : (db.save a).findById a.id = some a := by
  have h : (db.save a).activities.lookup a.id = some (rowOf a) := AList.lookup_insert _
  rw [findById, h]
  show some ((db.save a).toActivity a.id (rowOf a)) = some a
  rw [toActivity, save_bookedVisitors_self]
  rfl

theorem findById_save_of_ne (db : Db) (a : Activity) {id : String} (h : id ≠ a.id) :
    (db.save a).findById id = db.findById id := by
  have h1 : (db.save a).activities.lookup id = db.activities.lookup id := AList.lookup_insert_ne h
  rw [findById, findById, h1]
  congr 1
  funext row
  rw [toActivity, toActivity, save_bookedVisitors_of_ne db a h]

end Db

/-! ## no activity is overbooked -/

/-- every activity of the database has at most `capacity` bookings -/
def Db.Fits (db : Db) : Prop := ∀ id a, db.findById id = some a → a.Fits

namespace Db

theorem fits_save {db : Db} {a : Activity} (h : db.Fits) (ha : a.Fits) : (db.save a).Fits := by
  intro id b hb
  by_cases e : id = a.id
  · subst e
    rw [findById_save_self] at hb
    cases hb
    exact ha
  · rw [findById_save_of_ne db a e] at hb
    exact h id b hb

theorem fits_create {db : Db} {a : Activity} (h : db.Fits) (ha : 0 ≤ a.capacity) :
    (db.create a).1.Fits := by
  unfold create
  split
  · exact h
  · rename_i hnew
    intro id b hb
    obtain ⟨row, hrow, rfl⟩ := Option.map_eq_some_iff.mp hb
    by_cases e : id = a.id
    · -- the new row: the foreign key leaves it without bookings
      subst e
      have hr : row = rowOf a := by
        have := hrow.symm.trans (AList.lookup_insert db.activities)
        exact Option.some.inj this
      subst hr
      show ((db.bookedVisitors a.id).card : Int) ≤ a.capacity
      rw [bookedVisitors_of_absent hnew]
      simpa using ha
    · have hl : db.activities.lookup id = some row := by
        rw [← hrow]; exact (AList.lookup_insert_ne e).symm
      exact h id (db.toActivity id row) (by rw [findById, hl]; rfl)

theorem fits_delete {db : Db} (h : db.Fits) (id : String) : (db.delete id).1.Fits := by
  unfold delete
  split
  · intro id' b hb
    obtain ⟨row, hrow, rfl⟩ := Option.map_eq_some_iff.mp hb
    have hne : id' ≠ id := by
      rintro rfl
      have : (db.activities.erase id').lookup id' = some row := hrow
      rw [AList.lookup_erase] at this
      exact absurd this (by simp)
    have hl : db.activities.lookup id' = some row := by
      rw [← hrow]; exact (AList.lookup_erase_ne hne).symm
    have hf := h id' (db.toActivity id' row) (by rw [findById, hl]; rfl)
    show (((db.erase id).bookedVisitors id').card : Int) ≤ row.capacity
    rw [erase_bookedVisitors_of_ne db hne]
    exact hf
  · exact h

end Db
end Beach
