import Purrlington.Beach.Bookings
import Purrlington.Beach.Statements

/-!
# Beach: full and available, in turn

The use cases when each runs to its end before the next one starts, and the events that they publish for
one activity.

* `bookActivity`, `cancelActivity`, `createActivity`, `removeActivity`   the four executions;
* `execute_alone`       the machine that runs alone does the same;
* `Moved`               what an execution does to an activity, and the events it publishes for it;
* `execute_moves`       no execution does anything else;
* `Alternates`          full, available, full, and so on;
* `full_and_available`  the events alternate, and the last one tells whether the activity is full.
-/

namespace Beach
open SM
open Kotlin (isBlank)

/-! ## whole executions -/

/-- `BookActivityUseCase.execute`: the result, the tables and what is published -/
def bookActivity (db : Db) (activityId visitorId : String) : Result × Db × List Published :=
  match db.findById activityId with
  | none => (.error .activityNotFound, db, [])
  | some activity =>
    match db.findVisitor visitorId with
    | none => (.error .visitorNotFound, db, [])
    | some false => (.error .visitorNotCheckedIn, db, [])
    | some true =>
      if visitorId ∈ activity.bookedVisitors then (.error .activityAlreadyBooked, db, [])
      else if db.isVisitorBooked visitorId then (.error .visitorAlreadyInActivity, db, [])
      else if activity.isFull then (.error .activityFull, db, [])
      else
        let activity := activity.add visitorId
        (.null, db.save activity, if activity.isFull then [.activityFull activity] else [])

def cancelActivity (db : Db) (activityId visitorId : String) : Result × Db × List Published :=
  match db.findById activityId with
  | none => (.error .activityNotFound, db, [])
  | some activity =>
    if visitorId ∈ activity.bookedVisitors then
      let wasFull := activity.isFull
      let activity := activity.remove visitorId
      (.null, db.save activity,
        if wasFull && !activity.isFull then [.activityAvailable activity] else [])
    else (.error .activityNotBooked, db, [])

def createActivity (db : Db) (r : CreateActivityRequest) : Result × Db × List Published :=
  if isBlank r.id then (.invalid .missingActivityId, db, [])
  else if isBlank r.name then (.invalid .missingActivityName, db, [])
  else if r.capacity ≤ 0 then (.invalid .invalidCapacity, db, [])
  else
    let activity : Activity := ⟨r.id, r.name, r.description, r.capacity, ∅⟩
    match db.create activity with
    | (_, false) => (.alreadyExists, db, [])
    | (db, true) => (.created activity, db, [])

def removeActivity (db : Db) : Option String → Result × Db × List Published
  | none => (.invalid .missingActivityId, db, [])
  | some id =>
    if isBlank id then (.invalid .missingActivityId, db, [])
    else match db.delete id with
      | (_, false) => (.notFound, db, [])
      | (db, true) => (.removed, db, [])

def Call.execute (db : Db) : Call → Result × Db × List Published
  | .book a v => bookActivity db a v
  | .cancel a v => cancelActivity db a v
  | .create r => createActivity db r
  | .remove id? => removeActivity db id?

/-- an execution, or a visitor who checks in between two of them -/
inductive Use where
  | run (call : Call)
  | checkIn (visitorId : String)
  deriving DecidableEq

def Use.execute (db : Db) : Use → Db × List Published
  | .run call => (call.execute db).2
  | .checkIn v => (db.markCheckedIn v, [])

/-- one after the other -/
def uses (db : Db) : List Use → Db × List Published
  | [] => (db, [])
  | u :: us => ((uses (u.execute db).1 us).1, (u.execute db).2 ++ (uses (u.execute db).1 us).2)

/-! ## the machine, with one request at a time -/

/-- a new request, as the last one -/
def State.withLast (s : State) (call : Call) (pc : Pc) : State :=
  { s with threads := s.threads ++ [⟨call, pc⟩] }

@[simp] theorem withLast_db (s : State) (call : Call) (pc : Pc) :
    (s.withLast call pc).db = s.db := rfl

@[simp] theorem withLast_published (s : State) (call : Call) (pc : Pc) :
    (s.withLast call pc).published = s.published := rfl

/-- from `pc` on, the last request is the only one to step, until it is done -/
def Ends (s : State) (call : Call) (pc : Pc) (out : Result × Db × List Published) : Prop :=
  ∃ n s', machine.Runs free (s.withLast call pc) (List.replicate n (.go s.threads.length)) s' ∧
    s'.threads = s.threads ++ [⟨call, .done out.1⟩] ∧ s'.db = out.2.1 ∧
    s'.published = s.published ++ out.2.2

section
variable {s : State} {call : Call} {pc : Pc}

theorem goto_withLast (s : State) (call call' : Call) (pc pc' : Pc) :
    (s.withLast call pc).goto s.threads.length call' pc' = s.withLast call' pc' := by
  have hset : (s.threads ++ [(⟨call, pc⟩ : Thread)]).set s.threads.length ⟨call', pc'⟩ =
      s.threads ++ [⟨call', pc'⟩] := by
    rw [List.set_append_right _ _ (Nat.le_refl _), Nat.sub_self]
    rfl
  exact congrArg (fun threads => { s with threads }) hset

theorem go_withLast (s : State) (call : Call) (pc : Pc) :
    machine (s.withLast call pc) (.go s.threads.length) =
      stepCall (s.withLast call pc) s.threads.length ⟨call, pc⟩ := by
  have hget : (s.withLast call pc).threads[s.threads.length]? = some ⟨call, pc⟩ :=
    List.getElem?_concat_length
  rw [machine, hget]

theorem ends_done (s : State) (call : Call) (r : Result) : Ends s call (.done r) (r, s.db, []) :=
  ⟨0, s.withLast call (.done r), rfl, rfl, rfl, (List.append_nil _).symm⟩

theorem ends_read (pc' : Pc) {out : Result × Db × List Published}
    (hstep : stepCall (s.withLast call pc) s.threads.length ⟨call, pc⟩ =
      some ((s.withLast call pc).goto s.threads.length call pc'))
    (h : Ends s call pc' out) : Ends s call pc out := by
  obtain ⟨n, s', hrun, hs'⟩ := h
  rw [goto_withLast, ← go_withLast] at hstep
  exact ⟨n + 1, s', Machine.runs_cons trivial hstep hrun, hs'⟩

theorem ends_write (pc' : Pc) (db : Db) (log : List Commit) {out : Result × Db × List Published}
    (hstep : stepCall (s.withLast call pc) s.threads.length ⟨call, pc⟩ =
      some { (s.withLast call pc).goto s.threads.length call pc' with db := db, log := log })
    (h : Ends { s with db := db, log := log } call pc' out) : Ends s call pc out := by
  obtain ⟨n, s', hrun, hs'⟩ := h
  rw [goto_withLast, ← go_withLast] at hstep
  exact ⟨n + 1, s', Machine.runs_cons trivial hstep hrun, hs'⟩

theorem ends_publish {r : Result} {evs : List Published}
    (hstep : stepCall (s.withLast call pc) s.threads.length ⟨call, pc⟩ =
      some { (s.withLast call pc).goto s.threads.length call (.done r) with
        published := s.published ++ evs }) : Ends s call pc (r, s.db, evs) := by
  rw [goto_withLast, ← go_withLast] at hstep
  exact ⟨1, _, Machine.runs_cons trivial hstep rfl, rfl, rfl, rfl⟩

end

section
variable (s : State)

theorem book_ends (a v : String) : Ends s (.book a v) .findById (bookActivity s.db a v) := by
  rw [bookActivity]
  cases hfind : s.db.findById a with
  | none =>
    refine ends_read _ ?_ (ends_done s _ _)
    simp only [stepCall, stepBook, withLast_db, hfind]
  | some activity =>
    refine ends_read (.findVisitor activity) ?_ ?_
    · simp only [stepCall, stepBook, withLast_db, hfind]
    dsimp only
    cases hvisitor : s.db.findVisitor v with
    | none =>
      refine ends_read _ ?_ (ends_done s _ _)
      simp only [stepCall, stepBook, withLast_db, hvisitor]
    | some checkedIn =>
      cases checkedIn with
      | false =>
        refine ends_read _ ?_ (ends_done s _ _)
        simp only [stepCall, stepBook, withLast_db, hvisitor]
      | true =>
        dsimp only
        by_cases hin : v ∈ activity.bookedVisitors
        · rw [if_pos hin]
          refine ends_read _ ?_ (ends_done s _ _)
          simp only [stepCall, stepBook, withLast_db, hvisitor, if_pos hin]
        rw [if_neg hin]
        refine ends_read (.isVisitorBooked activity) ?_ ?_
        · simp only [stepCall, stepBook, withLast_db, hvisitor, if_neg hin]
        by_cases hbooked : s.db.isVisitorBooked v = true
        · rw [if_pos hbooked]
          refine ends_read _ ?_ (ends_done s _ _)
          simp only [stepCall, stepBook, withLast_db, hbooked, if_true]
        rw [if_neg hbooked]
        by_cases hfull : activity.isFull = true
        · rw [if_pos hfull]
          refine ends_read _ ?_ (ends_done s _ _)
          simp only [stepCall, stepBook, withLast_db, if_neg hbooked, if_pos hfull]
        rw [if_neg hfull]
        refine ends_read (.save (activity.add v) false) ?_ ?_
        · simp only [stepCall, stepBook, withLast_db, if_neg hbooked, if_neg hfull]
        refine ends_write (.publish (activity.add v) false) (s.db.save (activity.add v))
          (.booked a v :: s.log) rfl ?_
        apply ends_publish
        by_cases hnow : (activity.add v).isFull = true
        · simp only [stepCall, stepBook, withLast_published, if_pos hnow]
        · simp only [stepCall, stepBook, if_neg hnow, List.append_nil]
          rfl

theorem cancel_ends (a v : String) : Ends s (.cancel a v) .findById (cancelActivity s.db a v) := by
  rw [cancelActivity]
  cases hfind : s.db.findById a with
  | none =>
    refine ends_read _ ?_ (ends_done s _ _)
    simp only [stepCall, stepCancel, withLast_db, hfind]
  | some activity =>
    dsimp only
    by_cases hin : v ∈ activity.bookedVisitors
    · rw [if_pos hin]
      refine ends_read (.save (activity.remove v) activity.isFull) ?_ ?_
      · simp only [stepCall, stepCancel, withLast_db, hfind, if_pos hin]
      refine ends_write (.publish (activity.remove v) activity.isFull)
        (s.db.save (activity.remove v)) (.cancelled a v :: s.log) rfl ?_
      apply ends_publish
      by_cases hnow : (activity.isFull && !(activity.remove v).isFull) = true
      · simp only [stepCall, stepCancel, withLast_published, if_pos hnow]
      · simp only [stepCall, stepCancel, if_neg hnow, List.append_nil]
        rfl
    · rw [if_neg hin]
      refine ends_read _ ?_ (ends_done s _ _)
      simp only [stepCall, stepCancel, withLast_db, hfind, if_neg hin]

theorem create_ends (r : CreateActivityRequest) :
    Ends s (.create r) (Call.create r).entry (createActivity s.db r) := by
  rw [createActivity, Call.entry]
  split
  · exact ends_done s _ _
  split
  · exact ends_done s _ _
  split
  · exact ends_done s _ _
  · dsimp only
    cases hcreate : s.db.create ⟨r.id, r.name, r.description, r.capacity, ∅⟩ with
    | mk db created =>
      cases created with
      | false =>
        refine ends_read _ ?_ (ends_done s _ _)
        simp only [stepCall, stepCreate, withLast_db, hcreate]
      | true =>
        refine ends_write _ db (.created r.id :: s.log) ?_ (ends_done _ _ _)
        simp only [stepCall, stepCreate, withLast_db, hcreate]
        rfl

theorem remove_ends (id? : Option String) :
    Ends s (.remove id?) (Call.remove id?).entry (removeActivity s.db id?) := by
  cases id? with
  | none => exact ends_done s _ _
  | some id =>
    rw [removeActivity, Call.entry]
    split
    · exact ends_done s _ _
    · cases hdelete : s.db.delete id with
      | mk db deleted =>
        cases deleted with
        | false =>
          refine ends_read _ ?_ (ends_done s _ _)
          simp only [stepCall, stepRemove, withLast_db, hdelete]
        | true =>
          refine ends_write _ db (.removed id :: s.log) ?_ (ends_done _ _ _)
          simp only [stepCall, stepRemove, withLast_db, hdelete]
          rfl

/-- **A request that is the only one to step** ends as the execution does, with its result, its tables
and its events. -/
theorem execute_alone (call : Call) : ∃ n s',
    machine.Runs free s (.arrive call :: List.replicate n (.go s.threads.length)) s' ∧
    s'.threads = s.threads ++ [⟨call, .done (call.execute s.db).1⟩] ∧
    s'.db = (call.execute s.db).2.1 ∧ s'.published = s.published ++ (call.execute s.db).2.2 := by
  have hends : Ends s call call.entry (call.execute s.db) := by
    cases call with
    | book a v => exact book_ends s a v
    | cancel a v => exact cancel_ends s a v
    | create r => exact create_ends s r
    | remove id? => exact remove_ends s id?
  obtain ⟨n, s', hrun, hs'⟩ := hends
  exact ⟨n, s', Machine.runs_cons trivial rfl hrun, hs'⟩

end

/-! ## the events for one activity -/

namespace Published

def activity : Published → Activity
  | .activityFull a => a
  | .activityAvailable a => a

def full : Published → Bool
  | .activityFull _ => true
  | .activityAvailable _ => false

end Published

def about (id : String) (evs : List Published) : List Published :=
  evs.filter fun e => e.activity.id = id

/-- what an execution does to an activity, and what it publishes for it -/
inductive Moved (a : Activity) : Activity → List Published → Prop where
  | stays : Moved a a []
  | booked (v : String) : a.isFull = false →
      Moved a (a.add v) (if (a.add v).isFull then [.activityFull (a.add v)] else [])
  | cancelled (v : String) :
      Moved a (a.remove v)
        (if a.isFull && !(a.remove v).isFull then [.activityAvailable (a.remove v)] else [])

section
variable {db : Db} {id : String} {a : Activity}

theorem about_own {b : Bool} {e : Published} (h : e.activity.id = id) :
    about id (if b then [e] else []) = if b then [e] else [] := by
  cases b with
  | true => exact List.filter_cons_of_pos (decide_eq_true h)
  | false => rfl

theorem about_other {b : Bool} {e : Published} (h : e.activity.id ≠ id) :
    about id (if b then [e] else []) = [] := by
  cases b with
  | true =>
    refine (List.filter_cons_of_neg ?_).trans rfl
    rw [decide_eq_false h]
    exact Bool.false_ne_true
  | false => rfl

/-- an activity is saved as it was changed, with at most one event, which is about it -/
theorem save_moves (ha : db.findById id = some a) {x : String} {activity : Activity}
    (hfind : db.findById x = some activity) (e : Published) (hsame : e.activity.id = activity.id)
    {b : Bool} (hmove : Moved activity e.activity (if b then [e] else [])) :
    ∃ a', (db.save e.activity).findById id = some a' ∧
      Moved a a' (about id (if b then [e] else [])) := by
  have hid : e.activity.id = x := hsame.trans (Db.findById_id hfind)
  by_cases hx : x = id
  · subst hx
    obtain rfl : activity = a := Option.some.inj (hfind.symm.trans ha)
    have hsaved := Db.findById_save_self db e.activity
    rw [hid] at hsaved
    refine ⟨e.activity, hsaved, ?_⟩
    rw [about_own hid]
    exact hmove
  · refine ⟨a, (Db.findById_save_of_ne db _ ?_).trans ha, ?_⟩
    · rw [hid]
      exact Ne.symm hx
    · rw [about_other (hid ▸ hx)]
      exact .stays

theorem book_moves (ha : db.findById id = some a) (x v : String) :
    ∃ a', (bookActivity db x v).2.1.findById id = some a' ∧
      Moved a a' (about id (bookActivity db x v).2.2) := by
  have hstays : ∃ a', db.findById id = some a' ∧ Moved a a' (about id []) := ⟨a, ha, .stays⟩
  rw [bookActivity]
  cases hfind : db.findById x with
  | none => exact hstays
  | some activity =>
    dsimp only
    cases db.findVisitor v with
    | none => exact hstays
    | some checkedIn =>
      cases checkedIn with
      | false => exact hstays
      | true =>
        dsimp only
        split
        · exact hstays
        split
        · exact hstays
        split
        · exact hstays
        · rename_i hfull
          exact save_moves ha hfind (.activityFull (activity.add v)) rfl
            (.booked v (Bool.eq_false_iff.mpr hfull))

theorem cancel_moves (ha : db.findById id = some a) (x v : String) :
    ∃ a', (cancelActivity db x v).2.1.findById id = some a' ∧
      Moved a a' (about id (cancelActivity db x v).2.2) := by
  have hstays : ∃ a', db.findById id = some a' ∧ Moved a a' (about id []) := ⟨a, ha, .stays⟩
  rw [cancelActivity]
  cases hfind : db.findById x with
  | none => exact hstays
  | some activity =>
    dsimp only
    split
    · exact save_moves ha hfind (.activityAvailable (activity.remove v)) rfl (.cancelled v)
    · exact hstays

theorem create_keeps (ha : db.findById id = some a) (r : CreateActivityRequest) :
    (createActivity db r).2.1.findById id = some a ∧ (createActivity db r).2.2 = [] := by
  rw [createActivity]
  split
  · exact ⟨ha, rfl⟩
  split
  · exact ⟨ha, rfl⟩
  split
  · exact ⟨ha, rfl⟩
  · dsimp only
    have hcatalogue := db.findById_create ⟨r.id, r.name, r.description, r.capacity, ∅⟩
    cases hcreate : db.create ⟨r.id, r.name, r.description, r.capacity, ∅⟩ with
    | mk db' created =>
      cases created with
      | false => exact ⟨ha, rfl⟩
      | true =>
        refine ⟨?_, rfl⟩
        rw [hcreate, Catalogue.create] at hcatalogue
        split at hcatalogue
        · cases (Prod.mk.inj hcatalogue).2
        · rename_i hnew
          have hid : id ≠ r.id := by
            rintro rfl
            rw [ha] at hnew
            exact hnew rfl
          rw [(Prod.mk.inj hcatalogue).1, Function.update_of_ne hid, ha]

theorem remove_keeps (ha : db.findById id = some a) {id? : Option String} (hid : id? ≠ some id) :
    (removeActivity db id?).2.1.findById id = some a ∧ (removeActivity db id?).2.2 = [] := by
  cases id? with
  | none => exact ⟨ha, rfl⟩
  | some id' =>
    rw [removeActivity]
    split
    · exact ⟨ha, rfl⟩
    · have hne : id ≠ id' := fun he => hid (congrArg some he.symm)
      by_cases hmem : id' ∈ db.activities
      · rw [Db.delete, if_pos hmem]
        refine ⟨?_, rfl⟩
        rw [Db.findById_erase, Function.update_of_ne hne, ha]
      · rw [Db.delete, if_neg hmem]
        exact ⟨ha, rfl⟩

/-- **No execution but the removal of the activity does anything else to it.** -/
theorem use_moves (ha : db.findById id = some a) {u : Use} (hkeep : u ≠ .run (.remove (some id))) :
    ∃ a', (u.execute db).1.findById id = some a' ∧ Moved a a' (about id (u.execute db).2) := by
  cases u with
  | run call =>
    cases call with
    | book x v => exact book_moves ha x v
    | cancel x v => exact cancel_moves ha x v
    | create r =>
      obtain ⟨hfound, hnone⟩ := create_keeps ha r
      refine ⟨a, hfound, ?_⟩
      show Moved a a (about id (createActivity db r).2.2)
      rw [hnone]
      exact .stays
    | remove id? =>
      have hid : id? ≠ some id := by
        rintro rfl
        exact hkeep rfl
      obtain ⟨hfound, hnone⟩ := remove_keeps ha hid
      refine ⟨a, hfound, ?_⟩
      show Moved a a (about id (removeActivity db id?).2.2)
      rw [hnone]
      exact .stays
  | checkIn v => exact ⟨a, ha, .stays⟩

end

/-! ## the alternation -/

/-- full, available, full, and so on -/
def Alternates (evs : List Published) : Prop :=
  ∀ i e, evs[i]? = some e → (e.full = true ↔ i % 2 = 0)

/-- the events so far alternate, and their number tells whether the activity is full -/
structure InTurn (a : Activity) (evs : List Published) : Prop where
  alternates : Alternates evs
  parity : a.isFull = true ↔ evs.length % 2 = 1

section
variable {a a' : Activity} {evs new : List Published}

theorem Alternates.snoc (h : Alternates evs) {e : Published}
    (he : e.full = true ↔ evs.length % 2 = 0) : Alternates (evs ++ [e]) := by
  intro i e' hi
  rcases Nat.lt_or_ge i evs.length with hlt | hge
  · rw [List.getElem?_append_left hlt] at hi
    exact h i e' hi
  · rw [List.getElem?_append_right hge, List.getElem?_singleton] at hi
    split at hi
    · obtain rfl := Option.some.inj hi
      have hlen : i = evs.length := by omega
      rw [hlen]
      exact he
    · cases hi

theorem isFull_remove (h : a.isFull = false) (v : String) : (a.remove v).isFull = false := by
  have hlt : ¬ a.capacity ≤ a.bookedVisitors.card := of_decide_eq_false h
  have hle := Finset.card_erase_le (s := a.bookedVisitors) (a := v)
  refine decide_eq_false fun hfull => ?_
  have hcard : a.capacity ≤ (a.bookedVisitors.erase v).card := hfull
  omega

theorem InTurn.step (h : InTurn a evs) (hmove : Moved a a' new) : InTurn a' (evs ++ new) := by
  have hsnoc : ∀ e : Published, (evs ++ [e]).length = evs.length + 1 := fun e => List.length_append
  cases hmove with
  | stays =>
    rw [List.append_nil]
    exact h
  | booked v hfull =>
    have heven : ¬ evs.length % 2 = 1 := fun hodd => by
      rw [h.parity.mpr hodd] at hfull
      cases hfull
    cases hnow : (a.add v).isFull with
    | true =>
      refine ⟨h.alternates.snoc (iff_of_true rfl (by omega)), iff_of_true hnow ?_⟩
      show (evs ++ [_]).length % 2 = 1
      rw [hsnoc]
      omega
    | false =>
      show InTurn _ (evs ++ [])
      rw [List.append_nil]
      refine ⟨h.alternates, iff_of_false ?_ heven⟩
      rw [hnow]
      exact Bool.false_ne_true
  | cancelled v =>
    cases hfull : a.isFull with
    | true =>
      have hodd : evs.length % 2 = 1 := h.parity.mp hfull
      cases hnow : (a.remove v).isFull with
      | true =>
        show InTurn _ (evs ++ [])
        rw [List.append_nil]
        exact ⟨h.alternates, iff_of_true hnow hodd⟩
      | false =>
        refine ⟨h.alternates.snoc (iff_of_false Bool.false_ne_true (by omega)), iff_of_false ?_ ?_⟩
        · rw [hnow]
          exact Bool.false_ne_true
        · show ¬ (evs ++ [_]).length % 2 = 1
          rw [hsnoc]
          omega
    | false =>
      show InTurn _ (evs ++ [])
      rw [List.append_nil]
      refine ⟨h.alternates, iff_of_false ?_ fun hodd => ?_⟩
      · rw [isFull_remove hfull v]
        exact Bool.false_ne_true
      · rw [h.parity.mpr hodd] at hfull
        cases hfull

theorem InTurn.last_iff (h : InTurn a evs) :
    (∃ e, evs.getLast? = some e ∧ e.full = true) ↔ a.isFull = true := by
  rw [h.parity, List.getLast?_eq_getElem?]
  constructor
  · rintro ⟨e, hlast, hfull⟩
    have hlt := (List.getElem?_eq_some_iff.mp hlast).1
    have heven := (h.alternates _ e hlast).mp hfull
    omega
  · intro hodd
    have hlt : evs.length - 1 < evs.length := by omega
    refine ⟨evs[evs.length - 1], List.getElem?_eq_getElem hlt, ?_⟩
    exact (h.alternates _ _ (List.getElem?_eq_getElem hlt)).mpr (by omega)

theorem InTurn.uses {db : Db} {id : String} (h : InTurn a (about id evs))
    (ha : db.findById id = some a) {us : List Use} (hkeep : ∀ u ∈ us, u ≠ .run (.remove (some id))) :
    ∃ a', (uses db us).1.findById id = some a' ∧ InTurn a' (about id (evs ++ (uses db us).2)) := by
  induction us generalizing db a evs with
  | nil =>
    refine ⟨a, ha, ?_⟩
    show InTurn a (about id (evs ++ []))
    rw [List.append_nil]
    exact h
  | cons u us ih =>
    obtain ⟨a₁, ha₁, hmove⟩ := use_moves ha (hkeep u List.mem_cons_self)
    have hstep := h.step hmove
    rw [about, about, ← List.filter_append] at hstep
    obtain ⟨a', ha', hturn⟩ := ih hstep ha₁ fun w hw => hkeep w (List.mem_cons_of_mem u hw)
    rw [List.append_assoc] at hturn
    exact ⟨a', ha', hturn⟩

end

/-- **Full and available come in turn.**  Since an activity was there with places and no bookings, and
until it is removed, whatever is executed one after the other: the events for it are full, available,
full, and so on, and the last of them is full exactly when the activity is. -/
theorem full_and_available {db : Db} {id : String} {a₀ : Activity} (hnew : db.findById id = some a₀)
    (hempty : a₀.bookedVisitors = ∅) (hcap : 0 < a₀.capacity) {us : List Use}
    (hkeep : ∀ u ∈ us, u ≠ .run (.remove (some id))) :
    ∃ a, (uses db us).1.findById id = some a ∧ Alternates (about id (uses db us).2) ∧
      ((∃ e, (about id (uses db us).2).getLast? = some e ∧ e.full = true) ↔ a.isFull = true) := by
  have hstart : InTurn a₀ (about id []) := by
    refine ⟨fun i e he => absurd he (by simp [about]), iff_of_false (fun hfull => ?_) Nat.zero_ne_one⟩
    have hle : a₀.capacity ≤ a₀.bookedVisitors.card := of_decide_eq_true hfull
    rw [hempty, Finset.card_empty] at hle
    omega
  obtain ⟨a, ha, hturn⟩ := hstart.uses hnew hkeep
  rw [List.nil_append] at hturn
  exact ⟨a, ha, hturn.alternates, hturn.last_iff⟩

/-- one place, taken and given back -/
def takenAndBack : List Use :=
  [.run (.book "volley" "ana"), .run (.book "volley" "bob"), .run (.cancel "volley" "ana")]

theorem full_and_available_volley :
    (about "volley" (uses (volleyDb 1) takenAndBack).2).map Published.full = [true, false] ∧
    ∃ a, (uses (volleyDb 1) takenAndBack).1.findById "volley" = some a ∧
      Alternates (about "volley" (uses (volleyDb 1) takenAndBack).2) ∧
      ((∃ e, (about "volley" (uses (volleyDb 1) takenAndBack).2).getLast? = some e ∧ e.full = true) ↔
        a.isFull = true) := by
  have hnew : (volleyDb 1).findById "volley" = some ⟨"volley", "Beach Volleyball", none, 1, ∅⟩ := by
    decide
  have hkeep : ∀ u ∈ takenAndBack, u ≠ .run (.remove (some "volley")) := by decide
  exact ⟨by decide, full_and_available hnew rfl (by decide) hkeep⟩

end Beach
