import Purrlington.Lib.Machine
import Purrlington.Beach.Repository

/-!
# Beach: the use cases, run concurrently

`BookActivityUseCase`, `CancelActivityUseCase`, `CreateActivityUseCase` and
`RemoveActivityUseCase` as threads that interleave at their repository calls.  A `Pc` names the
call a request is about to make together with the local variables that are live there; the code
between two repository calls runs in the step of the first one.

* `State`      the database, the requests in flight, the ghost log of committed writes and the
               events published;
* `stepCall`   one repository call of one request;
* `machine`    requests arriving, requests stepping, visitors checking in.
-/

set_option linter.unusedSectionVars false

namespace Kotlin

/-- `Char.isWhitespace`: the Unicode separators and the ASCII control blanks -/
def isWhitespace (c : Char) : Bool :=
  let n := c.toNat
  (9 ≤ n && n ≤ 13) || (28 ≤ n && n ≤ 32) || n == 0xA0 || n == 0x1680 ||
  (0x2000 ≤ n && n ≤ 0x200A) || n == 0x2028 || n == 0x2029 || n == 0x202F || n == 0x205F ||
  n == 0x3000

def isBlank (s : String) : Bool := s.toList.all isWhitespace

end Kotlin

namespace Beach
open SM
open Kotlin (isBlank)

/-! ## requests and results -/

/-- the error constants a use case can return (`domain/error`) -/
inductive Err where
  | activityNotFound | activityFull | activityAlreadyBooked | activityNotBooked
  | visitorAlreadyInActivity | missingActivityId | missingActivityName | invalidCapacity
  | visitorNotFound | visitorNotCheckedIn
  deriving DecidableEq, Repr

def Err.text : Err → String
  | .activityNotFound => "Activity not found"
  | .activityFull => "Activity is full"
  | .activityAlreadyBooked => "Already booked"
  | .activityNotBooked => "Activity not booked"
  | .visitorAlreadyInActivity => "Visitor is already in this activity"
  | .missingActivityId => "Missing activity id"
  | .missingActivityName => "Missing activity name"
  | .invalidCapacity => "Capacity must be greater than zero"
  | .visitorNotFound => "Visitor not found"
  | .visitorNotCheckedIn => "Visitor is not checked in"

structure CreateActivityRequest where
  id : String
  name : String
  description : Option String
  capacity : Int
  deriving DecidableEq

inductive Call where
  | book (activityId visitorId : String)
  | cancel (activityId visitorId : String)
  | create (request : CreateActivityRequest)
  | remove (activityId : Option String)
  deriving DecidableEq

/-- what `execute` returns: `null` and the error constants for book and cancel, the sealed
classes `CreateActivityResult` and `RemoveActivityResult` for the other two -/
inductive Result where
  | null
  | error (e : Err)
  | created (activity : Activity)
  | invalid (e : Err)
  | alreadyExists
  | removed
  | notFound
  deriving DecidableEq

/-! ## threads -/

/-- the repository call a request is about to make, with the locals live there -/
inductive Pc where
  | findById
  | findVisitor (activity : Activity)
  | isVisitorBooked (activity : Activity)
  | save (activity : Activity) (wasFull : Bool)
  | publish (activity : Activity) (wasFull : Bool)
  | create (activity : Activity)
  | delete (id : String)
  | done (result : Result)
  deriving DecidableEq

structure Thread where
  call : Call
  pc : Pc
  deriving DecidableEq

/-- ghost log of the writes that make a call succeed, in commit order (newest first) -/
inductive Commit where
  | booked (activityId visitorId : String)
  | cancelled (activityId visitorId : String)
  | created (activityId : String)
  | removed (activityId : String)
  deriving DecidableEq

inductive Published where
  | activityFull (activity : Activity)
  | activityAvailable (activity : Activity)
  deriving DecidableEq

structure State where
  db : Db
  threads : List Thread
  log : List Commit
  published : List Published

def State.init (db : Db) : State := ⟨db, [], [], []⟩

def State.goto (s : State) (i : Nat) (call : Call) (pc : Pc) : State :=
  { s with threads := s.threads.set i ⟨call, pc⟩ }

/-- where a request starts: the validation of `CreateActivityUseCase` and
`RemoveActivityUseCase` comes before their repository call -/
def Call.entry : Call → Pc
  | .book _ _ => .findById
  | .cancel _ _ => .findById
  | .create r =>
    if isBlank r.id then .done (.invalid .missingActivityId)
    else if isBlank r.name then .done (.invalid .missingActivityName)
    else if r.capacity ≤ 0 then .done (.invalid .invalidCapacity)
    else .create ⟨r.id, r.name, r.description, r.capacity, ∅⟩
  | .remove none => .done (.invalid .missingActivityId)
  | .remove (some id) => if isBlank id then .done (.invalid .missingActivityId) else .delete id

def State.spawn (s : State) (call : Call) : State :=
  { s with threads := s.threads ++ [⟨call, call.entry⟩] }

/-- `BookActivityUseCase.execute`, from the program point `pc` over one repository call -/
def stepBook (s : State) (i : Nat) (a v : String) : Pc → Option State
  | .findById =>
    match s.db.findById a with
    | none => some (s.goto i (.book a v) (.done (.error .activityNotFound)))
    | some activity => some (s.goto i (.book a v) (.findVisitor activity))
  | .findVisitor activity =>
    match s.db.findVisitor v with
    | none => some (s.goto i (.book a v) (.done (.error .visitorNotFound)))
    | some false => some (s.goto i (.book a v) (.done (.error .visitorNotCheckedIn)))
    | some true =>
      if v ∈ activity.bookedVisitors then
        some (s.goto i (.book a v) (.done (.error .activityAlreadyBooked)))
      else some (s.goto i (.book a v) (.isVisitorBooked activity))
  | .isVisitorBooked activity =>
    if s.db.isVisitorBooked v then
      some (s.goto i (.book a v) (.done (.error .visitorAlreadyInActivity)))
    else if activity.isFull then some (s.goto i (.book a v) (.done (.error .activityFull)))
    else some (s.goto i (.book a v) (.save (activity.add v) false))
  | .save activity wasFull =>
    some { s.goto i (.book a v) (.publish activity wasFull) with
      db := s.db.save activity, log := .booked a v :: s.log }
  | .publish activity _ =>
    if activity.isFull then
      some { s.goto i (.book a v) (.done .null) with
        published := s.published ++ [.activityFull activity] }
    else some (s.goto i (.book a v) (.done .null))
  | _ => none

def stepCancel (s : State) (i : Nat) (a v : String) : Pc → Option State
  | .findById =>
    match s.db.findById a with
    | none => some (s.goto i (.cancel a v) (.done (.error .activityNotFound)))
    | some activity =>
      if v ∈ activity.bookedVisitors then
        some (s.goto i (.cancel a v) (.save (activity.remove v) activity.isFull))
      else some (s.goto i (.cancel a v) (.done (.error .activityNotBooked)))
  | .save activity wasFull =>
    some { s.goto i (.cancel a v) (.publish activity wasFull) with
      db := s.db.save activity, log := .cancelled a v :: s.log }
  | .publish activity wasFull =>
    if wasFull && !activity.isFull then
      some { s.goto i (.cancel a v) (.done .null) with
        published := s.published ++ [.activityAvailable activity] }
    else some (s.goto i (.cancel a v) (.done .null))
  | _ => none

/-- `CreateActivityUseCase.execute` after its validation -/
def stepCreate (s : State) (i : Nat) (r : CreateActivityRequest) : Pc → Option State
  | .create activity =>
    match s.db.create activity with
    | (db, true) => some { s.goto i (.create r) (.done (.created activity)) with
        db := db, log := .created activity.id :: s.log }
    | (_, false) => some (s.goto i (.create r) (.done .alreadyExists))
  | _ => none

/-- `RemoveActivityUseCase.execute` after its validation -/
def stepRemove (s : State) (i : Nat) (id? : Option String) : Pc → Option State
  | .delete id =>
    match s.db.delete id with
    | (db, true) => some { s.goto i (.remove id?) (.done .removed) with
        db := db, log := .removed id :: s.log }
    | (_, false) => some (s.goto i (.remove id?) (.done .notFound))
  | _ => none

def stepCall (s : State) (i : Nat) (t : Thread) : Option State :=
  match t.call with
  | .book a v => stepBook s i a v t.pc
  | .cancel a v => stepCancel s i a v t.pc
  | .create r => stepCreate s i r t.pc
  | .remove id? => stepRemove s i id? t.pc

inductive Act where
  | arrive (call : Call)
  | go (i : Nat)
  | checkIn (visitorId : String)
  deriving DecidableEq

/-- any number of requests, interleaved at their repository calls -/
def machine : Machine State Act := fun s act =>
  match act with
  | .arrive call => some (s.spawn call)
  | .go i =>
    match s.threads[i]? with
    | none => none
    | some t => stepCall s i t
  | .checkIn v => some { s with db := s.db.markCheckedIn v }

/-! ## what a step can do -/

/-- the moves of a request over a call that only reads -/
inductive Reads (db : Db) : Call → Pc → Pc → Prop where
  | fail (call pc e) : Reads db call pc (.done (.error e))
  | bookFind (a v activity) : db.findById a = some activity →
      Reads db (.book a v) .findById (.findVisitor activity)
  | bookVisitor (a v activity) : v ∉ activity.bookedVisitors →
      Reads db (.book a v) (.findVisitor activity) (.isVisitorBooked activity)
  | bookCheck (a v activity) : db.isVisitorBooked v = false → activity.isFull = false →
      Reads db (.book a v) (.isVisitorBooked activity) (.save (activity.add v) false)
  | cancelFind (a v activity) : db.findById a = some activity → v ∈ activity.bookedVisitors →
      Reads db (.cancel a v) .findById (.save (activity.remove v) activity.isFull)
  | exists (r activity) : activity.id ∈ db.activities →
      Reads db (.create r) (.create activity) (.done .alreadyExists)
  | absent (id? id) : id ∉ db.activities → Reads db (.remove id?) (.delete id) (.done .notFound)

/-- the log entry of the save of a book or cancel request -/
def Call.commit : Call → Option Commit
  | .book a v => some (.booked a v)
  | .cancel a v => some (.cancelled a v)
  | _ => none

/-- the effect of each action on the shared state -/
inductive Eff (s : State) : Act → State → Prop where
  | arrive (call) : Eff s (.arrive call) (s.spawn call)
  | read (i call pc pc') : s.threads[i]? = some ⟨call, pc⟩ → Reads s.db call pc pc' →
      Eff s (.go i) (s.goto i call pc')
  | save (i call activity w c) : s.threads[i]? = some ⟨call, .save activity w⟩ →
      call.commit = some c → Eff s (.go i) { s.goto i call (.publish activity w) with
        db := s.db.save activity, log := c :: s.log }
  | publish (i call activity w ev) : s.threads[i]? = some ⟨call, .publish activity w⟩ →
      Eff s (.go i) { s.goto i call (.done .null) with published := s.published ++ ev }
  | create (i r activity) : s.threads[i]? = some ⟨.create r, .create activity⟩ →
      activity.id ∉ s.db.activities →
      Eff s (.go i) { s.goto i (.create r) (.done (.created activity)) with
        db := (s.db.create activity).1, log := .created activity.id :: s.log }
  | remove (i id? id) : s.threads[i]? = some ⟨.remove id?, .delete id⟩ → id ∈ s.db.activities →
      Eff s (.go i) { s.goto i (.remove id?) (.done .removed) with
        db := (s.db.delete id).1, log := .removed id :: s.log }
  | checkIn (v) : Eff s (.checkIn v) { s with db := s.db.markCheckedIn v }

theorem stepBook_eff {s s' : State} {i : Nat} {a v : String} {pc : Pc}
    (ht : s.threads[i]? = some ⟨.book a v, pc⟩) (h : stepBook s i a v pc = some s') :
    Eff s (.go i) s' := by
  cases pc with
  | findById =>
    simp only [stepBook] at h
    split at h
    · cases h; exact .read i _ _ _ ht (.fail _ _ _)
    · rename_i activity hf
      cases h; exact .read i _ _ _ ht (.bookFind a v activity hf)
  | findVisitor activity =>
    simp only [stepBook] at h
    split at h
    · cases h; exact .read i _ _ _ ht (.fail _ _ _)
    · cases h; exact .read i _ _ _ ht (.fail _ _ _)
    · split at h
      · cases h; exact .read i _ _ _ ht (.fail _ _ _)
      · rename_i hv
        cases h; exact .read i _ _ _ ht (.bookVisitor a v activity hv)
  | isVisitorBooked activity =>
    simp only [stepBook] at h
    split at h
    · cases h; exact .read i _ _ _ ht (.fail _ _ _)
    · rename_i hb
      split at h
      · cases h; exact .read i _ _ _ ht (.fail _ _ _)
      · rename_i hf
        cases h
        exact .read i _ _ _ ht (.bookCheck a v activity (by simpa using hb) (by simpa using hf))
  | save activity w => cases h; exact .save i _ activity w _ ht rfl
  | publish activity w =>
    simp only [stepBook] at h
    split at h
    · cases h; exact .publish i _ activity w [.activityFull activity] ht
    · cases h
      have e := Eff.publish (s := s) i _ activity w [] ht
      rwa [List.append_nil] at e
  | create activity => cases h
  | delete id => cases h
  | done r => cases h

theorem stepCancel_eff {s s' : State} {i : Nat} {a v : String} {pc : Pc}
    (ht : s.threads[i]? = some ⟨.cancel a v, pc⟩) (h : stepCancel s i a v pc = some s') :
    Eff s (.go i) s' := by
  cases pc with
  | findById =>
    simp only [stepCancel] at h
    split at h
    · cases h; exact .read i _ _ _ ht (.fail _ _ _)
    · rename_i activity hf
      split at h
      · rename_i hv
        cases h; exact .read i _ _ _ ht (.cancelFind a v activity hf hv)
      · cases h; exact .read i _ _ _ ht (.fail _ _ _)
  | save activity w => cases h; exact .save i _ activity w _ ht rfl
  | publish activity w =>
    simp only [stepCancel] at h
    split at h
    · cases h; exact .publish i _ activity w [.activityAvailable activity] ht
    · cases h
      have e := Eff.publish (s := s) i _ activity w [] ht
      rwa [List.append_nil] at e
  | findVisitor activity => cases h
  | isVisitorBooked activity => cases h
  | create activity => cases h
  | delete id => cases h
  | done r => cases h

theorem stepCreate_eff {s s' : State} {i : Nat} {r : CreateActivityRequest} {pc : Pc}
    (ht : s.threads[i]? = some ⟨.create r, pc⟩) (h : stepCreate s i r pc = some s') :
    Eff s (.go i) s' := by
  cases pc with
  | create activity =>
    by_cases hm : activity.id ∈ s.db.activities
    · have hc : s.db.create activity = (s.db, false) := by simp [Db.create, hm]
      simp only [stepCreate, hc] at h
      cases h; exact .read i _ _ _ ht (.exists r activity hm)
    · have hc : s.db.create activity = ((s.db.create activity).1, true) := by
        simp [Db.create, hm]
      simp only [stepCreate] at h
      rw [hc] at h
      cases h; exact .create i r activity ht hm
  | findById => cases h
  | findVisitor activity => cases h
  | isVisitorBooked activity => cases h
  | save activity w => cases h
  | publish activity w => cases h
  | delete id => cases h
  | done r => cases h

theorem stepRemove_eff {s s' : State} {i : Nat} {id? : Option String} {pc : Pc}
    (ht : s.threads[i]? = some ⟨.remove id?, pc⟩) (h : stepRemove s i id? pc = some s') :
    Eff s (.go i) s' := by
  cases pc with
  | delete id =>
    by_cases hm : id ∈ s.db.activities
    · have hd : s.db.delete id = ((s.db.delete id).1, true) := by simp [Db.delete, hm]
      simp only [stepRemove] at h
      rw [hd] at h
      cases h; exact .remove i id? id ht hm
    · have hd : s.db.delete id = (s.db, false) := by simp [Db.delete, hm]
      simp only [stepRemove, hd] at h
      cases h; exact .read i _ _ _ ht (.absent id? id hm)
  | findById => cases h
  | findVisitor activity => cases h
  | isVisitorBooked activity => cases h
  | save activity w => cases h
  | publish activity w => cases h
  | create activity => cases h
  | done r => cases h

/-- **Every step of the machine has one of the listed effects.** -/
theorem machine_eff {s s' : State} {act : Act} (h : machine s act = some s') : Eff s act s' := by
  cases act with
  | arrive call => cases h; exact .arrive call
  | go i =>
    simp only [machine] at h
    split at h
    · cases h
    · rename_i t ht
      obtain ⟨call, pc⟩ := t
      cases call with
      | book a v => exact stepBook_eff ht h
      | cancel a v => exact stepCancel_eff ht h
      | create r => exact stepCreate_eff ht h
      | remove id? => exact stepRemove_eff ht h
  | checkIn v => cases h; exact .checkIn v

end Beach
