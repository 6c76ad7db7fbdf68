import Purrlington.Beach.Bookings

/-!
# Beach: one activity a visitor

`BookActivityUseCase` asks `isVisitorBooked` in one transaction and saves in a later one, and no
constraint of `activity_bookings` stands behind it: its key is the pair.

* `Db.OnePlace`            no visitor has rows of two activities;
* `Exclusive`              a save writes nobody who has got a row of another activity by then;
* `one_place_iff`          the law holds all along a run exactly when the saves of the run are so;
* `visitor_in_two`         a run that puts a visitor into two activities.
-/

set_option linter.unusedSectionVars false

namespace Beach
open SM

/-- no two rows with the same visitor and different activities -/
def Db.OnePlace (db : Db) : Prop := ∀ p ∈ db.bookings, ∀ q ∈ db.bookings, p.2 = q.2 → p.1 = q.1

instance (db : Db) : Decidable db.OnePlace :=
  inferInstanceAs (Decidable (∀ p ∈ db.bookings, ∀ q ∈ db.bookings, p.2 = q.2 → p.1 = q.1))

/-- whoever a save writes has no row of another activity at that moment: since the request looked,
nobody has booked them elsewhere -/
def Exclusive (s : State) : Act → Prop
  | .go i => ∀ ca ∈ s.saving i, ∀ v ∈ ca.2.bookedVisitors, ∀ p ∈ s.db.bookings, p.2 = v →
      p.1 = ca.2.id
  | .arrive _ => True
  | .checkIn _ => True

instance : ∀ s act, Decidable (Exclusive s act)
  | s, .go i => inferInstanceAs (Decidable (∀ ca ∈ s.saving i, ∀ v ∈ ca.2.bookedVisitors,
      ∀ p ∈ s.db.bookings, p.2 = v → p.1 = ca.2.id))
  | _, .arrive _ => inferInstanceAs (Decidable True)
  | _, .checkIn _ => inferInstanceAs (Decidable True)

/-! ## the tables -/

namespace Db

/-- a save keeps the law exactly when those it writes have no other row -/
theorem onePlace_save_iff {db : Db} {a : Activity} (h : db.OnePlace) :
    (db.save a).OnePlace ↔ ∀ v ∈ a.bookedVisitors, ∀ p ∈ db.bookings, p.2 = v → p.1 = a.id := by
  constructor
  · rintro hs v hv ⟨id, w⟩ hp rfl
    by_cases e : id = a.id
    · exact e
    · exact hs (id, w) (mem_save.mpr (.inl ⟨e, hp⟩)) (a.id, w) (mem_save.mpr (.inr ⟨rfl, hv⟩)) rfl
  · rintro hx ⟨id, v⟩ hp ⟨id', v'⟩ hq e
    obtain rfl : v = v' := e
    rcases mem_save.mp hp with ⟨_, hp'⟩ | ⟨rfl, hp'⟩
    · rcases mem_save.mp hq with ⟨_, hq'⟩ | ⟨rfl, hq'⟩
      · exact h _ hp' _ hq' rfl
      · exact hx v hq' _ hp' rfl
    · rcases mem_save.mp hq with ⟨_, hq'⟩ | ⟨rfl, hq'⟩
      · exact (hx v hp' _ hq' rfl).symm
      · rfl

theorem onePlace_of_subset {db db' : Db} (h : db.OnePlace) (hsub : db'.bookings ⊆ db.bookings) :
    db'.OnePlace := fun p hp q hq e => h p (hsub hp) q (hsub hq) e

theorem create_bookings (db : Db) (a : Activity) : (db.create a).1.bookings = db.bookings := by
  unfold create
  split <;> rfl

theorem delete_bookings_subset (db : Db) (id : String) :
    (db.delete id).1.bookings ⊆ db.bookings := by
  unfold delete
  split
  · exact Finset.filter_subset _ _
  · exact Finset.Subset.refl _

end Db

/-! ## runs -/

theorem saving_eq {s : State} {i : Nat} {call : Call} {activity : Activity} {w : Bool}
    (ht : s.threads[i]? = some ⟨call, .save activity w⟩) : s.saving i = some (call, activity) := by
  simp only [State.saving, ht]

theorem saved_of_saving {s s' : State} {i : Nat} {call : Call} {activity : Activity}
    (hs : machine s (.go i) = some s') (hca : s.saving i = some (call, activity)) :
    ∃ w, s.threads[i]? = some ⟨call, .save activity w⟩ ∧ s'.db = s.db.save activity ∧
      ∃ c, call.commit = some c ∧ s'.log = c :: s.log := by
  obtain ⟨w, ht⟩ : ∃ w, s.threads[i]? = some ⟨call, .save activity w⟩ := by
    unfold State.saving at hca
    split at hca
    · rename_i call' activity' w ht
      obtain ⟨rfl, rfl⟩ := Prod.mk.inj (Option.some.inj hca)
      exact ⟨w, ht⟩
    · exact absurd hca (by simp)
  refine ⟨w, ht, ?_⟩
  simp only [machine, ht] at hs
  cases call with
  | book a v =>
    cases hs
    exact ⟨rfl, _, rfl, rfl⟩
  | cancel a v =>
    cases hs
    exact ⟨rfl, _, rfl, rfl⟩
  | create r => exact absurd hs (by simp [stepCall, stepCreate])
  | remove id? => exact absurd hs (by simp [stepCall, stepRemove])

theorem onePlace_step {s s' : State} {act : Act} (h : s.db.OnePlace) (hx : Exclusive s act)
    (hs : machine s act = some s') : s'.db.OnePlace := by
  cases machine_eff hs with
  | arrive call => exact h
  | read i call pc pc' ht hr => exact h
  | save i call activity w c ht hc =>
    exact (Db.onePlace_save_iff h).mpr (hx (call, activity) (saving_eq ht))
  | publish i call activity w ev ht => exact h
  | create i r activity ht hnew =>
    exact Db.onePlace_of_subset h (by rw [Db.create_bookings])
  | remove i id? id ht hmem => exact Db.onePlace_of_subset h (s.db.delete_bookings_subset id)
  | checkIn v => exact h

theorem exclusive_of_onePlace {s s' : State} {act : Act} (h : s.db.OnePlace) (h' : s'.db.OnePlace)
    (hs : machine s act = some s') : Exclusive s act := by
  cases act with
  | arrive call => trivial
  | checkIn v => trivial
  | go i =>
    rintro ⟨call, activity⟩ hca
    obtain ⟨w, _, hdb, _⟩ := saved_of_saving hs hca
    rw [hdb] at h'
    exact (Db.onePlace_save_iff h).mp h'

/-- **One activity a visitor.**  From a database where it holds, the law holds in every state that a
run of book and cancel requests (and others) goes through, if and only if no save of the run writes
a visitor who has got a row of another activity since the request looked. -/
theorem one_place_iff (db₀ : Db) (h₀ : db₀.OnePlace) (acts : List Act) (s : State)
    (hrun : machine.Runs free (State.init db₀) acts s) :
    (∀ acts₁ s₁, acts₁ <+: acts → machine.Runs free (State.init db₀) acts₁ s₁ → s₁.db.OnePlace) ↔
      machine.Runs Exclusive (State.init db₀) acts s := by
  constructor
  · intro hall
    apply hrun.guarded
    intro bs t a t' cs e hr hg hm _
    have hpre : bs <+: acts := ⟨a :: cs, e.symm⟩
    have hpre' : bs ++ [a] <+: acts := ⟨cs, by rw [e, List.append_assoc]; rfl⟩
    exact exclusive_of_onePlace (hall bs t hpre hr) (hall _ t' hpre' (hr.snoc hg hm)) hm
  · rintro hx acts₁ s₁ ⟨rest, rfl⟩ hr
    obtain ⟨t, ht, _⟩ := hx.split
    obtain rfl := ht.det hr
    exact ht.inv (fun s a s' h hg hm => onePlace_step h hg hm) h₀

/-! ## two requests of one visitor -/

/-- two activities and two checked-in visitors -/
def shoreDb : Db where
  activities := ((∅ : AList _).insert "volley" ⟨"Beach Volleyball", none, 4⟩).insert "surf"
    ⟨"Surfing", none, 4⟩
  bookings := ∅
  visitors := ((∅ : AList _).insert "ana" true).insert "bob" true
  references := by intro p hp; cases hp

/-- ana books both activities, and both checks come before either save -/
def doubleBook : List Act :=
  [.arrive (.book "volley" "ana"), .arrive (.book "surf" "ana"),
   .go 0, .go 1, .go 0, .go 1, .go 0, .go 1, .go 0, .go 1, .go 0, .go 1]

/-- ana books one and cancels it, then books the other -/
def moveOver : List Act :=
  [.arrive (.book "volley" "ana"), .go 0, .go 0, .go 0, .go 0, .go 0,
   .arrive (.cancel "volley" "ana"), .go 1, .go 1, .go 1,
   .arrive (.book "surf" "ana"), .go 2, .go 2, .go 2, .go 2, .go 2]

theorem move_over_one_place :
    ∃ s, machine.Runs free (State.init shoreDb) moveOver s ∧ s.db.bookings = {("surf", "ana")} ∧
      ((∀ acts₁ s₁, acts₁ <+: moveOver → machine.Runs free (State.init shoreDb) acts₁ s₁ →
        s₁.db.OnePlace) ↔ machine.Runs Exclusive (State.init shoreDb) moveOver s) :=
  ⟨_, Machine.runs_free_iff.mpr rfl, by decide,
    one_place_iff shoreDb (by decide) moveOver _ (Machine.runs_free_iff.mpr rfl)⟩

/-- both calls return `null`, and ana has a row of each activity -/
theorem visitor_in_two :
    shoreDb.OnePlace ∧ ∃ s, machine.Runs free (State.init shoreDb) doubleBook s ∧
      s.threads = [⟨.book "volley" "ana", .done .null⟩, ⟨.book "surf" "ana", .done .null⟩] ∧
      s.db.bookings = {("volley", "ana"), ("surf", "ana")} ∧ ¬ s.db.OnePlace :=
  ⟨by decide, _, Machine.runs_free_iff.mpr rfl, rfl, by decide, by decide⟩

end Beach
