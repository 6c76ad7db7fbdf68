import Purrlington.Beach.OneActivity

/-!
# Beach: a removed activity

`save` inserts the row of its activity where it is missing, so a request that read the activity
before a removal brings it back.

* `removedLast`            of the creations and removals of an activity the last was a removal;
* `StaysRemoved`           such an activity is not in the table;
* `Finds`                  a save finds the row of its activity;
* `stays_removed_iff`      the law holds all along a run exactly when the saves of the run do;
* `brought_back`           a cancellation over a removal.
-/

set_option linter.unusedSectionVars false

namespace Beach
open SM

/-- the log has the newest commit first; `RemoveActivityUseCase` and `CreateActivityUseCase` return
`Success` with theirs -/
def removedLast (id : String) : List Commit → Bool
  | [] => false
  | .created a :: log => if a = id then false else removedLast id log
  | .removed a :: log => if a = id then true else removedLast id log
  | .booked _ _ :: log => removedLast id log
  | .cancelled _ _ :: log => removedLast id log

/-- an activity that was removed, and not created since, is not there -/
def StaysRemoved (s : State) : Prop := ∀ id, removedLast id s.log = true → id ∉ s.db.activities

/-- whatever a request saves has its row at that moment -/
def Finds (s : State) : Act → Prop
  | .go i => ∀ ca ∈ s.saving i, ca.2.id ∈ s.db.activities
  | .arrive _ => True
  | .checkIn _ => True

instance : ∀ s act, Decidable (Finds s act)
  | s, .go i => inferInstanceAs (Decidable (∀ ca ∈ s.saving i, ca.2.id ∈ s.db.activities))
  | _, .arrive _ => inferInstanceAs (Decidable True)
  | _, .checkIn _ => inferInstanceAs (Decidable True)

/-! ## what a request has read -/

/-- the activity that a request has read and may save -/
def Pc.read : Pc → Option Activity
  | .findVisitor activity => some activity
  | .isVisitorBooked activity => some activity
  | .save activity _ => some activity
  | _ => none

/-- the row is there, or was removed since it was last created -/
def Db.Known (db : Db) (log : List Commit) (id : String) : Prop :=
  id ∈ db.activities ∨ removedLast id log = true

/-- whatever is about to be saved was there once -/
def Remembers (s : State) : Prop :=
  ∀ (i : Nat) (t : Thread), s.threads[i]? = some t →
    ∀ a ∈ t.pc.read, s.db.Known s.log a.id

theorem Call.entry_read (call : Call) : call.entry.read = none := by
  cases call with
  | book a v => rfl
  | cancel a v => rfl
  | create r =>
    rw [Call.entry]
    split
    · rfl
    · split
      · rfl
      · split <;> rfl
  | remove id? =>
    cases id? with
    | none => rfl
    | some id =>
      rw [Call.entry]
      split <;> rfl

theorem mem_of_findById {db : Db} {id : String} {a : Activity} (h : db.findById id = some a) :
    a.id ∈ db.activities := by
  rw [Db.findById_id h]
  obtain ⟨row, hrow, _⟩ := Option.map_eq_some_iff.mp h
  exact AList.lookup_isSome.mp (Option.isSome_iff_exists.mpr ⟨row, hrow⟩)

theorem Reads.read {db : Db} {call : Call} {pc pc' : Pc} (h : Reads db call pc pc') {a : Activity}
    (ha : pc'.read = some a) : a.id ∈ db.activities ∨ ∃ b, pc.read = some b ∧ b.id = a.id := by
  cases h with
  | fail => exact absurd ha nofun
  | bookFind a' v activity hfind =>
    obtain rfl := Option.some.inj ha
    exact .inl (mem_of_findById hfind)
  | bookVisitor a' v activity _ =>
    obtain rfl := Option.some.inj ha
    exact .inr ⟨activity, rfl, rfl⟩
  | bookCheck a' v activity _ _ =>
    obtain rfl := Option.some.inj ha
    exact .inr ⟨activity, rfl, rfl⟩
  | cancelFind a' v activity hfind _ =>
    obtain rfl := Option.some.inj ha
    have hmem : activity.id ∈ db.activities := mem_of_findById hfind
    exact .inl hmem
  | «exists» => exact absurd ha nofun
  | absent => exact absurd ha nofun

/-! ## the table and the log -/

theorem Db.mem_create (db : Db) (a : Activity) {id : String} (h : id ∈ db.activities) :
    id ∈ (db.create a).1.activities := by
  unfold Db.create
  split
  · exact h
  · exact (AList.mem_insert _).mpr (.inr h)

theorem Db.mem_delete {db : Db} {id id' : String} (h : id ∈ db.activities) :
    id' ∈ (db.delete id).1.activities ↔ id' ≠ id ∧ id' ∈ db.activities := by
  rw [Db.delete, if_pos h]
  exact AList.mem_erase

theorem removedLast_removed_self (id : String) (log : List Commit) :
    removedLast id (.removed id :: log) = true := if_pos rfl

theorem removedLast_removed_ne {id id' : String} (h : id' ≠ id) (log : List Commit) :
    removedLast id' (.removed id :: log) = removedLast id' log := if_neg fun e => h e.symm

theorem removedLast_created_self (id : String) (log : List Commit) :
    removedLast id (.created id :: log) = false := if_pos rfl

theorem removedLast_created_ne {id id' : String} (h : id' ≠ id) (log : List Commit) :
    removedLast id' (.created id :: log) = removedLast id' log := if_neg fun e => h e.symm

theorem removedLast_commit {call : Call} {c : Commit} (hc : call.commit = some c) (id : String)
    (log : List Commit) : removedLast id (c :: log) = removedLast id log := by
  cases call with
  | book a v =>
    obtain rfl := Option.some.inj hc
    rfl
  | cancel a v =>
    obtain rfl := Option.some.inj hc
    rfl
  | create r => exact absurd hc nofun
  | remove id? => exact absurd hc nofun

/-! ## one step -/

section
variable {s s' : State} {act : Act}

/-- a step forgets no activity: what is not there any more has just been removed -/
theorem machine_known (h : machine s act = some s') {id : String} (hk : s.db.Known s.log id) :
    s'.db.Known s'.log id := by
  cases machine_eff h with
  | arrive call => exact hk
  | read i call pc pc' _ _ => exact hk
  | save i call activity w c _ hc =>
    rcases hk with hmem | hlast
    · exact .inl ((AList.mem_insert _).mpr (.inr hmem))
    · exact .inr ((removedLast_commit hc _ _).trans hlast)
  | publish i call activity w ev _ => exact hk
  | create i r activity _ hnew =>
    by_cases e : id = activity.id
    · subst e
      refine .inl ?_
      show activity.id ∈ (s.db.create activity).1.activities
      rw [Db.create, if_neg hnew]
      exact (AList.mem_insert _).mpr (.inl rfl)
    · rcases hk with hmem | hlast
      · exact .inl (s.db.mem_create activity hmem)
      · exact .inr ((removedLast_created_ne e _).trans hlast)
  | remove i id? id₁ _ hmem₁ =>
    by_cases e : id = id₁
    · subst e
      exact .inr (removedLast_removed_self id s.log)
    · rcases hk with hmem | hlast
      · exact .inl ((Db.mem_delete hmem₁).mpr ⟨e, hmem⟩)
      · exact .inr ((removedLast_removed_ne e _).trans hlast)
  | checkIn v => exact hk

theorem Remembers.step (h : Remembers s) (hs : machine s act = some s') : Remembers s' := by
  have hkeep : ∀ (i : Nat) (t : Thread), s.threads[i]? = some t →
      ∀ a ∈ t.pc.read, s'.db.Known s'.log a.id := fun i t ht a ha => machine_known hs (h i t ht a ha)
  have move : ∀ (i : Nat) (call : Call) (pc : Pc), (∀ a ∈ pc.read, s'.db.Known s'.log a.id) →
      ∀ (j : Nat) (t : Thread), (s.threads.set i ⟨call, pc⟩)[j]? = some t →
        ∀ a ∈ t.pc.read, s'.db.Known s'.log a.id :=
    fun i call pc hpc => forall_set (fun j t _ hj => hkeep j t hj) hpc
  have hdone : ∀ r, ∀ a ∈ (Pc.done r).read, s'.db.Known s'.log a.id := fun _ _ ha => absurd ha nofun
  cases machine_eff hs with
  | arrive call =>
    refine forall_snoc hkeep ?_
    intro a ha
    replace ha : call.entry.read = some a := ha
    rw [call.entry_read] at ha
    exact absurd ha nofun
  | read i call pc pc' ht hr =>
    refine move i call pc' ?_
    intro a ha
    rcases hr.read ha with hmem | ⟨b, hb, hid⟩
    · exact .inl hmem
    · rw [← hid]
      exact h i _ ht b hb
  | save i call activity w c ht hc => exact move i call _ fun _ ha => absurd ha nofun
  | publish i call activity w ev ht => exact move i call _ (hdone _)
  | create i r activity ht hnew => exact move i _ _ (hdone _)
  | remove i id? id ht hmem => exact move i _ _ (hdone _)
  | checkIn v => exact hkeep

/-- one step keeps the law if a save of it finds its row -/
theorem stays_removed_step (h : StaysRemoved s) (hf : Finds s act) (hs : machine s act = some s') :
    StaysRemoved s' := by
  cases machine_eff hs with
  | arrive call => exact h
  | read i call pc pc' _ _ => exact h
  | save i call activity w c ht hc =>
    intro id hlast hmem
    replace hlast : removedLast id (c :: s.log) = true := hlast
    rw [removedLast_commit hc] at hlast
    rcases (AList.mem_insert _).mp hmem with e | hmem
    · exact h id hlast (e ▸ hf (call, activity) (saving_eq ht))
    · exact h id hlast hmem
  | publish i call activity w ev _ => exact h
  | create i r activity _ hnew =>
    intro id hlast hmem
    replace hlast : removedLast id (.created activity.id :: s.log) = true := hlast
    by_cases e : id = activity.id
    · rw [e, removedLast_created_self] at hlast
      exact absurd hlast Bool.false_ne_true
    · rw [removedLast_created_ne e] at hlast
      refine h id hlast ?_
      replace hmem : id ∈ (s.db.create activity).1.activities := hmem
      rw [Db.create, if_neg hnew] at hmem
      exact ((AList.mem_insert _).mp hmem).resolve_left e
  | remove i id? id₁ _ hmem₁ =>
    intro id hlast hmem
    obtain ⟨hne, hmem⟩ := (Db.mem_delete hmem₁).mp hmem
    replace hlast : removedLast id (.removed id₁ :: s.log) = true := hlast
    rw [removedLast_removed_ne hne] at hlast
    exact h id hlast hmem
  | checkIn v => exact h

/-- and only if: a save that misses its row brings back an activity that was removed -/
theorem finds_of_stays_removed (hr : Remembers s) (h' : StaysRemoved s') (hs : machine s act = some s') :
    Finds s act := by
  cases act with
  | arrive call => trivial
  | checkIn v => trivial
  | go i =>
    rintro ⟨call, activity⟩ hca
    obtain ⟨w, ht, hdb, c, hc, hlog⟩ := saved_of_saving hs hca
    refine (hr i _ ht activity rfl).resolve_right ?_
    intro hlast
    refine h' activity.id ?_ ?_
    · rw [hlog, removedLast_commit hc]
      exact hlast
    · rw [hdb]
      exact (AList.mem_insert _).mpr (.inl rfl)

end

/-! ## runs -/

/-- **A removed activity stays removed.**  From every database: in every state that a run of
requests goes through, an activity that was removed and not created since is not in the table, if and
only if every save of the run finds the row of its activity. -/
theorem stays_removed_iff (db₀ : Db) (acts : List Act) (s : State)
    (hrun : machine.Runs free (State.init db₀) acts s) :
    (∀ acts₁ s₁, acts₁ <+: acts → machine.Runs free (State.init db₀) acts₁ s₁ → StaysRemoved s₁) ↔
      machine.Runs Finds (State.init db₀) acts s := by
  have hinit : Remembers (State.init db₀) := fun i t ht => absurd ht (by simp [State.init])
  constructor
  · intro hall
    apply hrun.guarded
    intro bs t a t' cs e hr hg hm _
    have hpre : bs ++ [a] <+: acts := ⟨cs, by rw [e, List.append_assoc]; rfl⟩
    have hrem : Remembers t := hr.inv (fun s a s' h _ hst => h.step hst) hinit
    exact finds_of_stays_removed hrem (hall _ t' hpre (hr.snoc hg hm)) hm
  · rintro hf acts₁ s₁ ⟨rest, rfl⟩ hr
    obtain ⟨t, ht, _⟩ := hf.split
    obtain rfl := ht.det hr
    exact ht.inv (fun s a s' h hg hm => stays_removed_step h hg hm)
      fun id hlast => absurd hlast Bool.false_ne_true

/-- one activity with one booking -/
def bookedDb : Db where
  activities := (∅ : AList _).insert "volley" ⟨"Beach Volleyball", none, 4⟩
  bookings := {("volley", "ana")}
  visitors := (∅ : AList _).insert "ana" true
  references := by
    intro p hp
    rw [Finset.mem_singleton.mp hp]
    exact (AList.mem_insert _).mpr (.inl rfl)

/-- ana cancels, then the activity is removed, then it is created again -/
def cancelThenRemove : List Act :=
  [.arrive (.cancel "volley" "ana"), .go 0, .go 0, .go 0, .arrive (.remove (some "volley")), .go 1,
   .arrive (.create ⟨"volley", "Beach Volleyball", none, 2⟩), .go 2]

/-- the removal comes between the two transactions of the cancellation -/
def removeOverCancel : List Act :=
  [.arrive (.cancel "volley" "ana"), .go 0, .arrive (.remove (some "volley")), .go 1, .go 0, .go 0]

theorem stays_removed_created_again :
    ∃ s, machine.Runs free (State.init bookedDb) cancelThenRemove s ∧
      s.threads.map Thread.pc = [.done .null, .done .removed,
        .done (.created ⟨"volley", "Beach Volleyball", none, 2, ∅⟩)] ∧
      ((∀ acts₁ s₁, acts₁ <+: cancelThenRemove →
        machine.Runs free (State.init bookedDb) acts₁ s₁ → StaysRemoved s₁) ↔
        machine.Runs Finds (State.init bookedDb) cancelThenRemove s) :=
  ⟨_, Machine.runs_free_iff.mpr rfl, rfl,
    stays_removed_iff bookedDb cancelThenRemove _ (Machine.runs_free_iff.mpr rfl)⟩

/-- **A cancellation brings a removed activity back.**  The removal has returned `Success`, nobody has
created the activity again, and it is there. -/
theorem brought_back :
    ∃ s, machine.Runs free (State.init bookedDb) removeOverCancel s ∧
      s.threads = [⟨.cancel "volley" "ana", .done .null⟩, ⟨.remove (some "volley"), .done .removed⟩] ∧
      "volley" ∈ s.db.activities ∧ ¬ StaysRemoved s :=
  ⟨_, Machine.runs_free_iff.mpr rfl, rfl, by decide, fun h => h "volley" (by decide) (by decide)⟩

end Beach
