import Purrlington.Beach.Repository
import Purrlington.Lib.Column
import Mathlib.Data.Finset.Dedup
import Mathlib.Data.Finset.Sort
import Mathlib.Logic.Function.Basic

/-!
# Beach: the activity repository, statement by statement

`PostgresActivityRepository.kt` with the SQL statements of each transaction.  A statement that breaks a
key, or has a text that its column does not take, raises, and the transaction is rolled back.

* `RowOrder`           the order in which a query gives its rows, which SQL leaves open;
* `Sql.save`, `Sql.create`, `Sql.delete`   the three transactions that write;
* `Sql.markCheckedIn`  that of `PostgresVisitorRepository.kt`;
* `save_ok`            a `save` that returns has left what `Db.save` says;
* `findById_eq`, `queries_agree`   the queries, in whatever order the rows come;
* `Catalogue`          the activities by their ids, as the callers of the repository see them;
* `run_catalogue`      any sequence of calls does to the tables what the calls that return do to it;
* `faithful_store`     what each call changes and what it leaves, and that the queries agree.
-/

namespace Beach
open Column (takesText varchar takesText_of_varchar)

/-! ## rows and columns -/

/-- the rows of a table or of a query, in the order in which they come -/
structure RowOrder where
  rows : {α : Type} → [DecidableEq α] → Finset α → List α
  nodup : ∀ {α : Type} [DecidableEq α] (s : Finset α), (rows s).Nodup
  toFinset : ∀ {α : Type} [DecidableEq α] (s : Finset α), (rows s).toFinset = s

instance : Nonempty RowOrder :=
  ⟨⟨fun s => s.toList, fun s => s.nodup_toList, fun s => s.toList_toFinset⟩⟩

theorem RowOrder.mem_rows (order : RowOrder) {α : Type} [DecidableEq α] {s : Finset α} {x : α} :
    x ∈ order.rows s ↔ x ∈ s := by
  rw [← List.mem_toFinset, order.toFinset]

theorem RowOrder.rows_empty (order : RowOrder) {α : Type} [DecidableEq α] :
    order.rows (∅ : Finset α) = [] := List.toFinset_eq_empty_iff _ |>.mp (order.toFinset ∅)

theorem RowOrder.rows_singleton (order : RowOrder) {α : Type} [DecidableEq α] (x : α) :
    order.rows {x} = [x] := by
  have hperm : (order.rows {x}).Perm [x] := by
    refine List.perm_of_nodup_nodup_toFinset_eq (order.nodup {x}) (List.nodup_singleton x) ?_
    rw [order.toFinset]
    rfl
  exact List.perm_singleton.mp hperm

/-- what `VARCHAR(255)` and `TEXT` take of an activity -/
def ActivityRow.fits (row : ActivityRow) : Bool :=
  varchar 255 row.name && row.description.all takesText

/-- every visitor has an id that the column takes -/
def Db.VisitorsFit (db : Db) : Prop := ∀ v ∈ db.visitors, varchar 50 v = true

/-- every column takes its value -/
def Activity.storable (a : Activity) : Prop :=
  varchar 50 a.id = true ∧ (Db.rowOf a).fits = true ∧ ∀ v ∈ a.bookedVisitors, varchar 50 v = true

inductive SqlError where
  | value
  | duplicateKey
  | foreignKey
  deriving DecidableEq, Repr

/-! ## statements -/

namespace Sql

/-- `INSERT INTO activities` -/
def insertActivity (db : Db) (id : String) (row : ActivityRow) : Except SqlError Db :=
  if varchar 50 id && row.fits then
    if id ∈ db.activities then .error .duplicateKey
    else .ok { db with
      activities := db.activities.insert id row
      references := fun p hp => AList.mem_insert _ |>.mpr (.inr (db.references p hp)) }
  else .error .value

/-- `UPDATE activities .. WHERE id = ..` -/
def updateActivity (db : Db) (id : String) (row : ActivityRow) : Except SqlError Db :=
  if row.fits then
    .ok { db with
      activities := if id ∈ db.activities then db.activities.insert id row else db.activities
      references := fun p hp => by
        split
        · exact AList.mem_insert _ |>.mpr (.inr (db.references p hp))
        · exact db.references p hp }
  else .error .value

/-- `DELETE FROM activity_bookings WHERE activity_id = ..` -/
def deleteBookings (db : Db) (id : String) : Db :=
  { db with
    bookings := db.bookings.filter fun p => p.1 ≠ id
    references := fun p hp => db.references p (Finset.mem_filter.mp hp).1 }

/-- `INSERT INTO activity_bookings` -/
def insertBooking (db : Db) (id v : String) : Except SqlError Db :=
  if varchar 50 id && varchar 50 v then
    if (id, v) ∈ db.bookings then .error .duplicateKey
    else if h : id ∈ db.activities then
      .ok { db with
        bookings := insert (id, v) db.bookings
        references := fun p hp => by
          rcases Finset.mem_insert.mp hp with rfl | hp
          · exact h
          · exact db.references p hp }
    else .error .foreignKey
  else .error .value

/-- `DELETE FROM activities WHERE id = ..`, with its cascade and the number of rows -/
def deleteActivity (db : Db) (id : String) : Db × Nat :=
  (db.erase id, if id ∈ db.activities then 1 else 0)

/-- `UPDATE visitors SET checked_in .. WHERE id = ..` -/
def updateVisitor (db : Db) (id : String) : Db :=
  { db with visitors := if id ∈ db.visitors then db.visitors.insert id true else db.visitors }

/-- `INSERT INTO visitors`, where no row has the key -/
def insertVisitor (db : Db) (id : String) : Except SqlError Db :=
  if varchar 50 id then .ok { db with visitors := db.visitors.insert id true } else .error .value

/-! ## the repositories -/

def markCheckedIn (db : Db) (id : String) : Except SqlError Db :=
  if takesText id then
    if id ∈ db.visitors then .ok (updateVisitor db id) else insertVisitor db id
  else .error .value

/-- `select { .. eq id }.count()` -/
def countActivities (db : Db) (id : String) : Nat :=
  (db.activities.entries.toFinset.filter fun row => row.1 = id).card

def singleOrNull {α : Type} : List α → Option α
  | [x] => some x
  | _ => none

section
variable (order : RowOrder)

def findBookedVisitors (db : Db) (activityId : String) : List String :=
  (order.rows (db.bookings.filter fun p => p.1 = activityId)).map Prod.snd

def toActivity (db : Db) (row : Sigma fun _ : String => ActivityRow) : Activity where
  id := row.1
  name := row.2.name
  description := row.2.description
  capacity := row.2.capacity
  bookedVisitors := (findBookedVisitors order db row.1).toFinset

def findAll (db : Db) : List Activity :=
  (order.rows db.activities.entries.toFinset).map (toActivity order db)

def findById (db : Db) (id : String) : Option Activity :=
  singleOrNull ((order.rows (db.activities.entries.toFinset.filter fun row => row.1 = id)).map
    (toActivity order db))

def findActivityIdByVisitor (db : Db) (visitorId : String) : Option String :=
  ((order.rows (db.bookings.filter fun p => p.2 = visitorId)).map Prod.fst).head?

/-- the row of the activity, updated or inserted -/
def upsert (db : Db) (a : Activity) : Except SqlError Db :=
  let exists? := decide (0 < countActivities db a.id)
  if exists? then updateActivity db a.id (Db.rowOf a) else insertActivity db a.id (Db.rowOf a)

def save (db : Db) (a : Activity) : Except SqlError Db := do
  let db ← upsert db a
  let db := deleteBookings db a.id
  (order.rows a.bookedVisitors).foldlM (fun db v => insertBooking db a.id v) db

def create (db : Db) (a : Activity) : Except SqlError (Db × Bool) :=
  if 0 < countActivities db a.id then .ok (db, false)
  else (insertActivity db a.id (Db.rowOf a)).map fun db => (db, true)

def delete (db : Db) (id : String) : Db × Bool :=
  let (db, deletedRows) := deleteActivity db id
  (db, decide (0 < deletedRows))

end

/-! ## what the transactions leave -/

theorem countActivities_pos {db : Db} {id : String} :
    0 < countActivities db id ↔ id ∈ db.activities := by
  rw [countActivities, Finset.card_pos]
  constructor
  · rintro ⟨row, hrow⟩
    obtain ⟨hmem, rfl⟩ := Finset.mem_filter.mp hrow
    exact List.mem_keys_of_mem (List.mem_toFinset.mp hmem)
  · intro hid
    obtain ⟨row, hrow⟩ := List.exists_of_mem_keys hid
    exact ⟨⟨id, row⟩, Finset.mem_filter.mpr ⟨List.mem_toFinset.mpr hrow, rfl⟩⟩

theorem insertBookings_ok {id : String} {vs : List String} {db db' : Db}
    (h : vs.foldlM (fun db v => insertBooking db id v) db = .ok db') :
    db'.activities = db.activities ∧ db'.visitors = db.visitors ∧
      db'.bookings = db.bookings ∪ vs.toFinset.image fun v => (id, v) := by
  induction vs generalizing db with
  | nil =>
    cases h
    exact ⟨rfl, rfl, by simp⟩
  | cons v vs ih =>
    rw [List.foldlM_cons] at h
    cases hv : insertBooking db id v with
    | error e =>
      rw [hv] at h
      cases h
    | ok db₁ =>
      rw [hv] at h
      obtain ⟨ha, hvis, hb⟩ := ih h
      have hone : db₁.activities = db.activities ∧ db₁.visitors = db.visitors ∧
          db₁.bookings = insert (id, v) db.bookings := by
        rw [insertBooking] at hv
        split at hv
        · split at hv
          · cases hv
          · split at hv
            · cases hv
              exact ⟨rfl, rfl, rfl⟩
            · cases hv
        · cases hv
      refine ⟨ha.trans hone.1, hvis.trans hone.2.1, ?_⟩
      rw [hb, hone.2.2]
      ext p
      simp only [Finset.mem_union, Finset.mem_insert, Finset.mem_image, List.mem_toFinset,
        List.mem_cons]
      constructor
      · rintro ((rfl | hp) | ⟨w, hw, rfl⟩)
        · exact .inr ⟨v, .inl rfl, rfl⟩
        · exact .inl hp
        · exact .inr ⟨w, .inr hw, rfl⟩
      · rintro (hp | ⟨w, rfl | hw, rfl⟩)
        · exact .inl (.inr hp)
        · exact .inl (.inl rfl)
        · exact .inr ⟨w, hw, rfl⟩

theorem insertBookings_returns {id : String} {vs : List String} {db : Db} (hnd : vs.Nodup)
    (hid : varchar 50 id = true) (hvs : ∀ v ∈ vs, varchar 50 v = true) (ha : id ∈ db.activities)
    (hnew : ∀ v ∈ vs, (id, v) ∉ db.bookings) :
    ∃ db', vs.foldlM (fun db v => insertBooking db id v) db = .ok db' := by
  induction vs generalizing db with
  | nil => exact ⟨db, rfl⟩
  | cons v vs ih =>
    obtain ⟨hv, hnd⟩ := List.nodup_cons.mp hnd
    have hins : insertBooking db id v = .ok { db with
        bookings := insert (id, v) db.bookings
        references := fun p hp => by
          rcases Finset.mem_insert.mp hp with rfl | hp
          · exact ha
          · exact db.references p hp } := by
      rw [insertBooking, if_pos, if_neg (hnew v List.mem_cons_self), dif_pos ha]
      rw [hid, hvs v List.mem_cons_self]
      rfl
    rw [List.foldlM_cons, hins]
    refine ih hnd (fun w hw => hvs w (List.mem_cons_of_mem v hw)) ha fun w hw hmem => ?_
    rcases Finset.mem_insert.mp hmem with he | hold
    · rw [(Prod.mk.inj he).2] at hw
      exact hv hw
    · exact hnew w (List.mem_cons_of_mem v hw) hold

theorem upsert_ok {db db' : Db} {a : Activity} (h : upsert db a = .ok db') :
    db'.activities = db.activities.insert a.id (Db.rowOf a) ∧ db'.visitors = db.visitors ∧
      db'.bookings = db.bookings := by
  rw [upsert] at h
  by_cases hid : a.id ∈ db.activities
  · rw [decide_eq_true (countActivities_pos.mpr hid)] at h
    by_cases hrow : (Db.rowOf a).fits = true
    · rw [if_pos rfl, updateActivity, if_pos hrow] at h
      cases h
      exact ⟨if_pos hid, rfl, rfl⟩
    · rw [if_pos rfl, updateActivity, if_neg hrow] at h
      cases h
  · rw [decide_eq_false (mt countActivities_pos.mp hid)] at h
    by_cases hfits : (varchar 50 a.id && (Db.rowOf a).fits) = true
    · rw [if_neg Bool.false_ne_true, insertActivity, if_pos hfits, if_neg hid] at h
      cases h
      exact ⟨rfl, rfl, rfl⟩
    · rw [if_neg Bool.false_ne_true, insertActivity, if_neg hfits] at h
      cases h

theorem upsert_returns {db : Db} {a : Activity} (hid : varchar 50 a.id = true)
    (hrow : (Db.rowOf a).fits = true) : ∃ db', upsert db a = .ok db' := by
  rw [upsert]
  by_cases hmem : a.id ∈ db.activities
  · rw [decide_eq_true (countActivities_pos.mpr hmem), if_pos rfl, updateActivity, if_pos hrow]
    exact ⟨_, rfl⟩
  · rw [decide_eq_false (mt countActivities_pos.mp hmem), if_neg Bool.false_ne_true, insertActivity,
      if_pos (Bool.and_eq_true_iff.mpr ⟨hid, hrow⟩), if_neg hmem]
    exact ⟨_, rfl⟩

section
variable {order : RowOrder} {db db' : Db} {a : Activity}

theorem db_ext {db db' : Db} (ha : db.activities = db'.activities)
    (hb : db.bookings = db'.bookings) (hv : db.visitors = db'.visitors) : db = db' := by
  obtain ⟨activities, bookings, visitors, references⟩ := db
  obtain ⟨activities', bookings', visitors', references'⟩ := db'
  cases ha
  cases hb
  cases hv
  rfl

/-- **A `save` that returns has left what `Db.save` says.** -/
theorem save_ok (h : save order db a = .ok db') : db' = db.save a := by
  rw [save] at h
  cases hup : upsert db a with
  | error e =>
    rw [hup] at h
    cases h
  | ok db₁ =>
    rw [hup] at h
    obtain ⟨ha, hv, hb⟩ := upsert_ok hup
    obtain ⟨ha', hv', hb'⟩ := insertBookings_ok h
    refine db_ext (ha'.trans ha) ?_ (hv'.trans hv)
    rw [hb', order.toFinset]
    show db₁.bookings.filter (fun p => p.1 ≠ a.id) ∪ _ = (db.save a).bookings
    rw [hb]
    rfl

/-- and it returns when every column takes its value -/
theorem save_returns (h : a.storable) : save order db a = .ok (db.save a) := by
  obtain ⟨hid, hrow, hvs⟩ := h
  obtain ⟨db₁, hup⟩ : ∃ db₁, upsert db a = .ok db₁ := upsert_returns hid hrow
  have hmem : a.id ∈ (deleteBookings db₁ a.id).activities := by
    show a.id ∈ db₁.activities
    rw [(upsert_ok hup).1]
    exact AList.mem_insert _ |>.mpr (.inl rfl)
  have hnew : ∀ v ∈ order.rows a.bookedVisitors, (a.id, v) ∉ (deleteBookings db₁ a.id).bookings :=
    fun v _ hv => (Finset.mem_filter.mp hv).2 rfl
  obtain ⟨db', hins⟩ := insertBookings_returns (order.nodup a.bookedVisitors) hid
    (fun v hv => hvs v (order.mem_rows.mp hv)) hmem hnew
  have hsave : save order db a = .ok db' := by
    rw [save, hup]
    exact hins
  rw [hsave, save_ok hsave]

theorem create_ok {b : Bool} (h : create db a = .ok (db', b)) : (db', b) = db.create a := by
  rw [create] at h
  by_cases hid : a.id ∈ db.activities
  · rw [if_pos (countActivities_pos.mpr hid)] at h
    rw [Db.create, if_pos hid]
    exact (Except.ok.inj h).symm
  · rw [if_neg (mt countActivities_pos.mp hid)] at h
    rw [Db.create, if_neg hid]
    by_cases hfits : (varchar 50 a.id && (Db.rowOf a).fits) = true
    · rw [insertActivity, if_pos hfits, if_neg hid] at h
      exact (Except.ok.inj h).symm
    · rw [insertActivity, if_neg hfits] at h
      cases h

theorem create_returns (hid : varchar 50 a.id = true) (hrow : (Db.rowOf a).fits = true) :
    create db a = .ok (db.create a) := by
  by_cases hmem : a.id ∈ db.activities
  · rw [create, if_pos (countActivities_pos.mpr hmem), Db.create, if_pos hmem]
  · rw [create, if_neg (mt countActivities_pos.mp hmem), insertActivity,
      if_pos (Bool.and_eq_true_iff.mpr ⟨hid, hrow⟩), if_neg hmem, Db.create, if_neg hmem]
    rfl

theorem delete_eq (db : Db) (id : String) : delete db id = (db.erase id, decide (id ∈ db.activities)) := by
  rw [delete, deleteActivity]
  by_cases hid : id ∈ db.activities
  · rw [if_pos hid, decide_eq_true hid]
    rfl
  · rw [if_neg hid, decide_eq_false hid]
    rfl

/-! ### the visitors -/

theorem markCheckedIn_ok {id : String} (h : markCheckedIn db id = .ok db') :
    db' = db.markCheckedIn id := by
  rw [markCheckedIn] at h
  split at h
  · split at h
    · rename_i hmem
      obtain rfl := Except.ok.inj h
      rw [updateVisitor, if_pos hmem]
      rfl
    · rw [insertVisitor] at h
      split at h
      · exact (Except.ok.inj h).symm
      · cases h
  · cases h

theorem markCheckedIn_returns {id : String} (hid : varchar 50 id = true) :
    markCheckedIn db id = .ok (db.markCheckedIn id) := by
  have hret : ∃ db', markCheckedIn db id = .ok db' := by
    rw [markCheckedIn, if_pos (takesText_of_varchar hid)]
    split
    · exact ⟨_, rfl⟩
    · exact ⟨_, if_pos hid⟩
  obtain ⟨db', h⟩ := hret
  rw [h, markCheckedIn_ok h]

/-- no row has an id that the column does not take, so there is nothing to update -/
theorem markCheckedIn_raises {id : String} (hfit : db.VisitorsFit) (hid : varchar 50 id = false) :
    markCheckedIn db id = .error .value := by
  rw [markCheckedIn]
  split
  · rw [if_neg fun hmem => Bool.eq_false_iff.mp hid (hfit id hmem)]
    exact if_neg (Bool.eq_false_iff.mp hid)
  · rfl

theorem visitorsFit_markCheckedIn {id : String} (hfit : db.VisitorsFit) (hid : varchar 50 id = true) :
    (db.markCheckedIn id).VisitorsFit := by
  intro v hv
  rcases AList.mem_insert _ |>.mp hv with rfl | hv
  · exact hid
  · exact hfit v hv

/-! ### the queries -/

theorem toActivity_eq (db : Db) (id : String) (row : ActivityRow) :
    toActivity order db ⟨id, row⟩ = db.toActivity id row := by
  have hbooked : (findBookedVisitors order db id).toFinset = db.bookedVisitors id := by
    ext v
    rw [List.mem_toFinset, findBookedVisitors, List.mem_map, Db.bookedVisitors, Finset.mem_image]
    constructor
    · rintro ⟨p, hp, rfl⟩
      exact ⟨p, order.mem_rows.mp hp, rfl⟩
    · rintro ⟨p, hp, rfl⟩
      exact ⟨p, order.mem_rows.mpr hp, rfl⟩
  rw [toActivity, hbooked, Db.toActivity]

theorem mem_entries {db : Db} {id : String} {row : ActivityRow} :
    ⟨id, row⟩ ∈ db.activities.entries.toFinset ↔ db.activities.lookup id = some row := by
  rw [List.mem_toFinset]
  exact AList.mem_lookup_iff.symm

theorem findById_eq (db : Db) (id : String) : findById order db id = db.findById id := by
  rw [findById, Db.findById]
  cases hrow : db.activities.lookup id with
  | none =>
    have hnone : (db.activities.entries.toFinset.filter fun row => row.1 = id) = ∅ := by
      refine Finset.filter_eq_empty_iff.mpr ?_
      rintro ⟨id', row⟩ hmem rfl
      rw [mem_entries.mp hmem] at hrow
      cases hrow
    rw [hnone, order.rows_empty]
    rfl
  | some row =>
    have hone : (db.activities.entries.toFinset.filter fun row => row.1 = id) = {⟨id, row⟩} := by
      ext ⟨id', row'⟩
      rw [Finset.mem_filter, mem_entries, Finset.mem_singleton]
      constructor
      · rintro ⟨hmem, rfl⟩
        rw [hrow] at hmem
        rw [Option.some.inj hmem]
      · intro he
        cases he
        exact ⟨hrow, rfl⟩
    rw [hone, order.rows_singleton, List.map_singleton, toActivity_eq]
    rfl

theorem mem_findAll {x : Activity} : x ∈ findAll order db ↔ db.findById x.id = some x := by
  rw [findAll, List.mem_map, Db.findById]
  constructor
  · rintro ⟨⟨id, row⟩, hmem, rfl⟩
    rw [toActivity_eq, Db.toActivity, mem_entries.mp (order.mem_rows.mp hmem)]
    rfl
  · intro hx
    obtain ⟨row, hrow, hact⟩ := Option.map_eq_some_iff.mp hx
    exact ⟨⟨x.id, row⟩, order.mem_rows.mpr (mem_entries.mpr hrow), (toActivity_eq db x.id row).trans hact⟩

end

end Sql

/-! ## the catalogue -/

/-- the activities by their ids -/
abbrev Catalogue := String → Option Activity

namespace Catalogue

def save (c : Catalogue) (a : Activity) : Catalogue := Function.update c a.id (some a)

/-- a new activity has no bookings, whatever the model of it says -/
def create (c : Catalogue) (a : Activity) : Catalogue × Bool :=
  if (c a.id).isSome then (c, false)
  else (Function.update c a.id (some { a with bookedVisitors := ∅ }), true)

def delete (c : Catalogue) (id : String) : Catalogue × Bool :=
  (Function.update c id none, (c id).isSome)

end Catalogue

namespace Db

theorem isSome_findById {db : Db} {id : String} :
    (db.findById id).isSome = true ↔ id ∈ db.activities := by
  rw [findById, Option.isSome_map, AList.lookup_isSome]

theorem findById_save (db : Db) (a : Activity) :
    (db.save a).findById = Catalogue.save db.findById a := by
  funext id
  rw [Catalogue.save]
  by_cases hid : id = a.id
  · rw [hid, findById_save_self, Function.update_self]
  · rw [findById_save_of_ne db a hid, Function.update_of_ne hid]

theorem findById_create (db : Db) (a : Activity) :
    ((db.create a).1.findById, (db.create a).2) = Catalogue.create db.findById a := by
  rw [create, Catalogue.create]
  by_cases hmem : a.id ∈ db.activities
  · rw [if_pos hmem, if_pos (isSome_findById.mpr hmem)]
  · rw [if_neg hmem, if_neg (mt isSome_findById.mp hmem)]
    refine congrArg (fun c => (c, true)) (funext fun id => ?_)
    show ((db.activities.insert a.id (rowOf a)).lookup id).map (db.toActivity id) = _
    by_cases hid : id = a.id
    · rw [hid, AList.lookup_insert, Function.update_self, Option.map_some, toActivity,
        bookedVisitors_of_absent hmem]
      rfl
    · rw [AList.lookup_insert_ne hid, Function.update_of_ne hid]
      rfl

theorem findById_erase (db : Db) (id : String) :
    (db.erase id).findById = Function.update db.findById id none := by
  funext id'
  by_cases hid : id' = id
  · rw [hid, Function.update_self]
    show ((db.activities.erase id).lookup id).map _ = none
    rw [AList.lookup_erase]
    rfl
  · rw [Function.update_of_ne hid, findById, findById]
    have hlookup : (db.erase id).activities.lookup id' = db.activities.lookup id' :=
      AList.lookup_erase_ne hid
    have hact : (db.erase id).toActivity id' = db.toActivity id' := by
      funext row
      rw [toActivity, toActivity, erase_bookedVisitors_of_ne db hid]
    rw [hlookup, hact]

theorem mem_bookings_iff {db : Db} {id v : String} :
    (id, v) ∈ db.bookings ↔ ∃ x, db.findById id = some x ∧ v ∈ x.bookedVisitors := by
  constructor
  · intro hmem
    obtain ⟨row, hrow⟩ := Option.isSome_iff_exists.mp (AList.lookup_isSome.mpr (db.references _ hmem))
    refine ⟨db.toActivity id row, ?_, mem_bookedVisitors.mpr hmem⟩
    rw [findById, hrow]
    rfl
  · rintro ⟨x, hx, hv⟩
    obtain ⟨row, -, rfl⟩ := Option.map_eq_some_iff.mp hx
    exact mem_bookedVisitors.mp hv

end Db

/-! ### runs -/

inductive RepoCall where
  | save (a : Activity)
  | create (a : Activity)
  | delete (id : String)

def Catalogue.after (c : Catalogue) : RepoCall → Catalogue
  | .save a => c.save a
  | .create a => (c.create a).1
  | .delete id => (c.delete id).1

namespace Sql

section
variable (order : RowOrder)

def call (db : Db) : RepoCall → Except SqlError Db
  | .save a => save order db a
  | .create a => (create db a).map Prod.fst
  | .delete id => .ok (delete db id).1

/-- the tables after some calls, and the calls that returned; one that raises leaves nothing behind -/
def run (db : Db) : List RepoCall → Db × List RepoCall
  | [] => (db, [])
  | c :: cs =>
    match call order db c with
    | .ok db' => ((run db' cs).1, c :: (run db' cs).2)
    | .error _ => run db cs

variable {order}

theorem call_catalogue {db db' : Db} {c : RepoCall} (h : call order db c = .ok db') :
    db'.findById = Catalogue.after db.findById c := by
  cases c with
  | save a =>
    rw [save_ok h]
    exact db.findById_save a
  | create a =>
    cases hc : create db a with
    | error e =>
      rw [call, hc] at h
      cases h
    | ok p =>
      obtain ⟨db₁, b⟩ := p
      rw [call, hc] at h
      obtain rfl : db₁ = db' := Except.ok.inj h
      have hcreate := db.findById_create a
      rw [← create_ok hc] at hcreate
      exact congrArg Prod.fst hcreate
  | delete id =>
    obtain rfl : (delete db id).1 = db' := Except.ok.inj h
    rw [delete_eq]
    exact db.findById_erase id

/-- **The tables hold the catalogue** that the calls that returned make of the one before. -/
theorem run_catalogue (db : Db) (calls : List RepoCall) :
    (run order db calls).1.findById = (run order db calls).2.foldl Catalogue.after db.findById := by
  induction calls generalizing db with
  | nil => rfl
  | cons c cs ih =>
    rw [run]
    cases hc : call order db c with
    | ok db' =>
      show (run order db' cs).1.findById = (run order db' cs).2.foldl _ (Catalogue.after _ c)
      rw [ih, call_catalogue hc]
    | error e => exact ih db

theorem queries_agree (order : RowOrder) (db : Db) (v : String) :
    (db.isVisitorBooked v = true ↔ findActivityIdByVisitor order db v ≠ none) ∧
      (db.isVisitorBooked v = true ↔ ∃ x ∈ findAll order db, v ∈ x.bookedVisitors) ∧
      ∀ id, findActivityIdByVisitor order db v = some id →
        ∃ x ∈ findAll order db, x.id = id ∧ v ∈ x.bookedVisitors := by
  have hfirst : ∀ id, findActivityIdByVisitor order db v = some id →
      ∃ x ∈ findAll order db, x.id = id ∧ v ∈ x.bookedVisitors := by
    intro id hid
    obtain ⟨p, hp, rfl⟩ := List.mem_map.mp (List.mem_of_head? hid)
    obtain ⟨hmem, rfl⟩ := Finset.mem_filter.mp (order.mem_rows.mp hp)
    obtain ⟨x, hx, hv⟩ := Db.mem_bookings_iff.mp hmem
    have hxid : x.id = p.1 := Db.findById_id hx
    refine ⟨x, mem_findAll.mpr ?_, hxid, hv⟩
    rw [hxid]
    exact hx
  have hpos : db.isVisitorBooked v = true ↔ findActivityIdByVisitor order db v ≠ none := by
    rw [Db.isVisitorBooked, decide_eq_true_iff, findActivityIdByVisitor, Ne, List.head?_eq_none_iff,
      List.map_eq_nil_iff, Finset.card_pos, Finset.nonempty_iff_ne_empty, not_iff_not]
    constructor
    · intro hnone
      rw [hnone, order.rows_empty]
    · intro hnil
      rw [← order.toFinset (db.bookings.filter fun p => p.2 = v), hnil]
      rfl
  refine ⟨hpos, ?_, hfirst⟩
  constructor
  · intro hbooked
    obtain ⟨id, hid⟩ := Option.ne_none_iff_exists'.mp (hpos.mp hbooked)
    obtain ⟨x, hx, -, hv⟩ := hfirst id hid
    exact ⟨x, hx, hv⟩
  · rintro ⟨x, hx, hv⟩
    have hmem := Db.mem_bookings_iff.mpr ⟨x, mem_findAll.mp hx, hv⟩
    exact decide_eq_true (Finset.card_pos.mpr ⟨_, Finset.mem_filter.mpr ⟨hmem, rfl⟩⟩)

end

/-- what each call on these tables changes and leaves, and that the queries agree -/
structure Faithful (order : RowOrder) (db : Db) : Prop where
  save_returns : ∀ a : Activity, a.storable → ∃ db', save order db a = .ok db'
  save_found : ∀ a db', save order db a = .ok db' → findById order db' a.id = some a
  save_frame : ∀ a db', save order db a = .ok db' → ∀ id, id ≠ a.id →
    findById order db' id = findById order db id
  create_existing : ∀ a : Activity, findById order db a.id ≠ none → create db a = .ok (db, false)
  create_returns : ∀ a : Activity, a.storable → ∃ db' b, create db a = .ok (db', b)
  create_found : ∀ a db' b, findById order db a.id = none → create db a = .ok (db', b) →
    b = true ∧ findById order db' a.id = some { a with bookedVisitors := ∅ }
  create_frame : ∀ a db' b, create db a = .ok (db', b) → ∀ id, id ≠ a.id →
    findById order db' id = findById order db id
  delete_gone : ∀ id, findById order (delete db id).1 id = none
  delete_frame : ∀ id id', id' ≠ id → findById order (delete db id).1 id' = findById order db id'
  delete_bookings : ∀ id, (delete db id).1.bookings = db.bookings.filter fun p => p.1 ≠ id
  delete_flag : ∀ id, (delete db id).2 = true ↔ findById order db id ≠ none
  booked_iff_id : ∀ v, db.isVisitorBooked v = true ↔ findActivityIdByVisitor order db v ≠ none
  booked_iff_all : ∀ v, db.isVisitorBooked v = true ↔ ∃ x ∈ findAll order db, v ∈ x.bookedVisitors
  id_found : ∀ v id, findActivityIdByVisitor order db v = some id →
    ∃ x ∈ findAll order db, x.id = id ∧ v ∈ x.bookedVisitors

theorem findById_ne_none {order : RowOrder} {db : Db} {id : String} :
    findById order db id ≠ none ↔ id ∈ db.activities := by
  rw [findById_eq, Option.ne_none_iff_isSome, Db.isSome_findById]

theorem faithful (order : RowOrder) (db : Db) : Faithful order db where
  save_returns a ha := ⟨db.save a, Sql.save_returns ha⟩
  save_found a db' h := by
    rw [findById_eq, save_ok h, Db.findById_save_self]
  save_frame a db' h id hid := by
    rw [findById_eq, findById_eq, save_ok h, Db.findById_save_of_ne db a hid]
  create_existing a ha := by
    rw [create, if_pos (countActivities_pos.mpr (findById_ne_none.mp ha))]
  create_returns a ha := ⟨_, _, Sql.create_returns ha.1 ha.2.1⟩
  create_found a db' b hnone h := by
    have hcreate := db.findById_create a
    rw [findById_eq] at hnone
    rw [← create_ok h, Catalogue.create, hnone, if_neg (by simp)] at hcreate
    obtain ⟨hfound, hb⟩ := Prod.mk.inj hcreate
    refine ⟨hb, ?_⟩
    rw [findById_eq]
    exact (congrFun hfound a.id).trans (Function.update_self ..)
  create_frame a db' b h id hid := by
    have hcreate := db.findById_create a
    rw [← create_ok h, Catalogue.create] at hcreate
    rw [findById_eq, findById_eq]
    split at hcreate
    · exact congrFun (Prod.mk.inj hcreate).1 id
    · exact (congrFun (Prod.mk.inj hcreate).1 id).trans (Function.update_of_ne hid ..)
  delete_gone id := by
    rw [findById_eq, delete_eq, Db.findById_erase, Function.update_self]
  delete_frame id id' hid := by
    rw [findById_eq, findById_eq, delete_eq, Db.findById_erase, Function.update_of_ne hid]
  delete_bookings id := by
    rw [delete_eq]
    rfl
  delete_flag id := by
    rw [delete_eq, decide_eq_true_iff, findById_ne_none]
  booked_iff_id v := (queries_agree order db v).1
  booked_iff_all v := (queries_agree order db v).2.1
  id_found v := (queries_agree order db v).2.2

/-- **The repository is a faithful store.**  After any sequence of calls on any tables with these keys,
`findById` gives what the calls that returned have made of the activities, the next call changes its own
activity only, and the queries by visitor agree. -/
theorem faithful_store (order : RowOrder) (db : Db) (calls : List RepoCall) :
    (∀ id, findById order (run order db calls).1 id =
      (run order db calls).2.foldl Catalogue.after (findById order db) id) ∧
    Faithful order (run order db calls).1 := by
  refine ⟨fun id => ?_, faithful order _⟩
  have hdb : findById order db = db.findById := funext (findById_eq db)
  rw [hdb, findById_eq, run_catalogue]

end Sql

end Beach
