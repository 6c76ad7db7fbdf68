import Mathlib.Data.List.Basic
import Mathlib.Data.List.Perm.Basic
import Mathlib.Data.List.Count
import Mathlib.Tactic.Common

/-!
# Airport: guests and gate queues

The queue of a gate is a list of references to guests, so `enqueue` and `_pick_next` are given
what they read of a guest (its rank, its age, its surname, whether it is held) as functions.

* `Guest`, `Arrival`      the validated request, and a guest in the system (its row or its record
                          in memory);
* `effectiveRank`, `enqueue`   insertion before the first guest of a worse rank;
* `pickNext`              the first guest that is not an unaccompanied minor, with the family;
* `enqueue_perm`, `pickNext_perm`   nobody is lost or doubled by either;
* `enqueue_pairwise`, `pickNext_sublist`   what they do to the order of a queue.
-/

set_option linter.unusedSectionVars false

namespace Airport

inductive PassportType where
  | EU
  | nonEU
  deriving DecidableEq, Repr

inductive Priority where
  | standard
  | fast
  deriving DecidableEq, Repr

inductive GateType where
  | EU
  | ALL
  deriving DecidableEq, Repr

inductive Status where
  | queued
  | processing
  | held
  | processed
  deriving DecidableEq, Repr

/-- a request body that ArrivalInputSchema accepts -/
structure Guest where
  guest_id : String
  name : String
  surname : String
  age : Nat
  passport_type : PassportType
  priority : Priority
  disability : Bool := false
  deriving DecidableEq, Repr

/-- a row of the table, or the record of a guest in memory; times are game seconds -/
structure Arrival where
  guest : Guest
  queued_at : Int
  status : Status := .queued
  gate : String
  processed_at : Option Int := none
  wait_time_seconds : Option Int := none
  deriving DecidableEq, Repr

/-- `PRIORITY_RANKS`, with a disability before all -/
def effectiveRank (g : Guest) : Nat :=
  if g.disability then 0
  else match g.priority with
    | .fast => 1
    | .standard => 2

def isMinor (g : Guest) : Bool := g.age < 12

section
variable {α : Type*}

/-! ## enqueue -/

/-- the place of the first guest with a worse rank, or the end -/
def insertAt (rank : α → Nat) (r : Nat) : List α → Nat
  | [] => 0
  | existing :: queue => if rank existing > r then 0 else insertAt rank r queue + 1

/-- `Gate.enqueue`: the queue and the 1-based position -/
def enqueue (rank : α → Nat) (queue : List α) (guest : α) : List α × Nat :=
  let position := insertAt rank (rank guest) queue
  (queue.insertIdx position guest, position + 1)

theorem insertAt_le (rank : α → Nat) (r : Nat) (queue : List α) :
    insertAt rank r queue ≤ queue.length := by
  induction queue with
  | nil => exact Nat.le_refl 0
  | cons a queue ih =>
    rw [insertAt]
    split
    · exact Nat.zero_le _
    · rw [List.length_cons]
      omega

theorem enqueue_perm (rank : α → Nat) (queue : List α) (guest : α) :
    (enqueue rank queue guest).1.Perm (guest :: queue) :=
  List.perm_insertIdx guest queue (insertAt_le rank _ queue)

theorem mem_enqueue {rank : α → Nat} {queue : List α} {guest a : α} :
    a ∈ (enqueue rank queue guest).1 ↔ a = guest ∨ a ∈ queue :=
  (enqueue_perm rank queue guest).mem_iff.trans List.mem_cons

theorem enqueue_cons (rank : α → Nat) (a : α) (queue : List α) (guest : α) :
    (enqueue rank (a :: queue) guest).1 =
      if rank a > rank guest then guest :: a :: queue else a :: (enqueue rank queue guest).1 := by
  show (a :: queue).insertIdx (insertAt rank (rank guest) (a :: queue)) guest = _
  rw [insertAt]
  split
  · rfl
  · exact List.insertIdx_succ_cons

/-- **The order of a queue.**  In a queue sorted by rank the guest comes after everybody of its rank
or a better one and before everybody of a worse rank, so whatever holds pairwise still does. -/
theorem enqueue_pairwise {R : α → α → Prop} {rank : α → Nat} {queue : List α} {guest : α}
    (hs : queue.Pairwise fun a b => rank a ≤ rank b) (hR : queue.Pairwise R)
    (hle : ∀ a ∈ queue, rank a ≤ rank guest → R a guest)
    (hlt : ∀ a ∈ queue, rank guest < rank a → R guest a) :
    (enqueue rank queue guest).1.Pairwise R := by
  induction queue with
  | nil => exact List.pairwise_singleton R guest
  | cons a queue ih =>
    obtain ⟨hsa, hs⟩ := List.pairwise_cons.mp hs
    obtain ⟨hRa, hRq⟩ := List.pairwise_cons.mp hR
    rw [enqueue_cons]
    split
    · rename_i ha
      refine List.pairwise_cons.mpr ⟨fun b hb => hlt b hb ?_, hR⟩
      rcases List.mem_cons.mp hb with rfl | hb
      · exact ha
      · exact Nat.lt_of_lt_of_le ha (hsa b hb)
    · rename_i ha
      refine List.pairwise_cons.mpr ⟨fun b hb => ?_, ih hs hRq
        (fun b hb => hle b (List.mem_cons_of_mem _ hb))
        fun b hb => hlt b (List.mem_cons_of_mem _ hb)⟩
      rcases mem_enqueue.mp hb with rfl | hb
      · exact hle a List.mem_cons_self (Nat.le_of_not_gt ha)
      · exact hRa b hb

theorem enqueue_sorted {rank : α → Nat} {queue : List α}
    (hs : queue.Pairwise fun a b => rank a ≤ rank b) (guest : α) :
    (enqueue rank queue guest).1.Pairwise fun a b => rank a ≤ rank b :=
  enqueue_pairwise hs hs (fun _ _ h => h) fun _ _ h => Nat.le_of_lt h

/-! ## _pick_next -/

/-- what `_pick_next` reads of a guest -/
structure Reads (α : Type*) where
  minor : α → Bool
  surname : α → String
  held : α → Bool

/-- the outcome of `_pick_next`: the bundle if there is one, the queue afterwards, and the guests
that it has newly marked as held -/
structure Pick (α : Type*) where
  bundle : Option (List α)
  queue : List α
  held : List α

variable (R : Reads α)

/-- `_find_family`: the others with the surname, in queue order -/
def findFamily (surname : String) (others : List α) : List α :=
  others.filter fun g => R.surname g = surname

/-- the loop of `_pick_next`, with the guests already passed over and those newly held -/
def pickFrom (passed held : List α) : List α → Pick α
  | [] => ⟨none, passed, held⟩
  | guest :: rest =>
    let family := findFamily R (R.surname guest) (passed ++ rest)
    if R.minor guest && !(family.any fun g => !R.minor g) then
      pickFrom (passed ++ [guest]) (if R.held guest then held else held ++ [guest]) rest
    else
      -- the family joins in descending order of its place, and all of them leave the queue
      ⟨some (guest :: family.reverse),
        (passed ++ rest).filter fun g => R.surname g ≠ R.surname guest, held⟩

def pickNext (queue : List α) : Pick α := pickFrom R [] [] queue

theorem pickFrom_perm (passed held queue : List α) :
    ((pickFrom R passed held queue).bundle.getD [] ++ (pickFrom R passed held queue).queue).Perm
      (passed ++ queue) := by
  induction queue generalizing passed held with
  | nil =>
    rw [pickFrom, List.append_nil]
    exact .refl _
  | cons guest rest ih =>
    rw [pickFrom]
    split
    · have h := ih (passed ++ [guest]) (if R.held guest then held else held ++ [guest])
      rwa [List.append_assoc] at h
    · show (guest :: (findFamily R (R.surname guest) (passed ++ rest)).reverse ++
        (passed ++ rest).filter fun g => R.surname g ≠ R.surname guest).Perm _
      refine List.Perm.trans (.cons guest ?_) List.perm_middle.symm
      have h := List.filter_append_perm (fun g => decide (R.surname g = R.surname guest))
        (passed ++ rest)
      refine ((List.reverse_perm _).append_right _).trans (.trans ?_ h)
      rw [findFamily]
      refine .append_left _ (.of_eq ?_)
      exact List.filter_congr fun g _ => by simp

theorem pickNext_perm (queue : List α) :
    ((pickNext R queue).bundle.getD [] ++ (pickNext R queue).queue).Perm queue :=
  pickFrom_perm R [] [] queue

theorem pickFrom_sublist (passed held queue : List α) :
    (pickFrom R passed held queue).queue.Sublist (passed ++ queue) := by
  induction queue generalizing passed held with
  | nil => rw [pickFrom, List.append_nil]
  | cons guest rest ih =>
    rw [pickFrom]
    split
    · have h := ih (passed ++ [guest]) (if R.held guest then held else held ++ [guest])
      rwa [List.append_assoc] at h
    · exact List.filter_sublist.trans ((List.sublist_cons_self guest rest).append_left passed)

theorem pickNext_sublist (queue : List α) : (pickNext R queue).queue.Sublist queue :=
  pickFrom_sublist R [] [] queue

/-- a minor with no adult of its family anywhere in the queue -/
def Unaccompanied (queue : List α) (g : α) : Prop :=
  R.minor g = true ∧ ∀ a ∈ queue, R.surname a = R.surname g → R.minor a = true

instance (queue : List α) (g : α) : Decidable (Unaccompanied R queue g) :=
  inferInstanceAs (Decidable (_ ∧ ∀ a ∈ queue, _))

/-- a guest that the loop passes over is unaccompanied in the whole queue -/
theorem unaccompanied_of_passed {passed rest : List α} {guest : α}
    (h : (R.minor guest && !((findFamily R (R.surname guest) (passed ++ rest)).any
      fun g => !R.minor g)) = true) : Unaccompanied R (passed ++ guest :: rest) guest := by
  obtain ⟨hm, hf⟩ := Bool.and_eq_true_iff.mp h
  refine ⟨hm, ?_⟩
  intro a ha hs
  by_contra hna
  have hne : a ≠ guest := fun e => hna (e ▸ hm)
  have hmem : a ∈ passed ++ rest := by
    rcases List.mem_append.mp ha with ha | ha
    · exact List.mem_append_left _ ha
    · exact List.mem_append_right _ ((List.mem_cons.mp ha).resolve_left hne)
  have hany : (findFamily R (R.surname guest) (passed ++ rest)).any (fun g => !R.minor g) = true :=
    List.any_eq_true.mpr ⟨a, List.mem_filter.mpr ⟨hmem, decide_eq_true hs⟩, by simpa using hna⟩
  rw [hany] at hf
  exact absurd hf Bool.false_ne_true

theorem alone_iff {passed rest : List α} {guest : α} :
    (R.minor guest && !((findFamily R (R.surname guest) (passed ++ rest)).any
      fun g => !R.minor g)) = true ↔ Unaccompanied R (passed ++ guest :: rest) guest := by
  refine ⟨unaccompanied_of_passed R, fun ⟨hm, hall⟩ => ?_⟩
  rw [Bool.and_eq_true, Bool.not_eq_true', List.any_eq_false]
  refine ⟨hm, fun a ha => ?_⟩
  obtain ⟨ha, hs⟩ := List.mem_filter.mp ha
  have hmem : a ∈ passed ++ guest :: rest := by
    rcases List.mem_append.mp ha with ha | ha
    · exact List.mem_append_left _ ha
    · exact List.mem_append_right _ (List.mem_cons_of_mem _ ha)
  rw [hall a hmem (of_decide_eq_true hs)]
  exact Bool.false_ne_true

theorem pickFrom_held_mem {passed held queue : List α}
    (hheld : ∀ g ∈ held, g ∈ passed ∧ Unaccompanied R (passed ++ queue) g) {g : α}
    (h : g ∈ (pickFrom R passed held queue).held) : g ∈ (pickFrom R passed held queue).queue := by
  induction queue generalizing passed held with
  | nil => exact (hheld g h).1
  | cons guest rest ih =>
    rw [pickFrom] at h ⊢
    split at h
    · rename_i hc
      rw [if_pos hc]
      refine ih (fun x hx => ?_) h
      have hx' : x ∈ held ∨ x = guest := by
        split at hx
        · exact .inl hx
        · exact (List.mem_append.mp hx).imp id List.mem_singleton.mp
      rw [List.append_assoc]
      rcases hx' with hx | rfl
      · exact ⟨List.mem_append_left _ (hheld x hx).1, (hheld x hx).2⟩
      · exact ⟨List.mem_append_right _ List.mem_cons_self, unaccompanied_of_passed R hc⟩
    · rename_i hc
      rw [if_neg hc]
      obtain ⟨hpassed, hm, hall⟩ := hheld g h
      refine List.mem_filter.mpr ⟨List.mem_append_left _ hpassed, decide_eq_true fun hs => hc ?_⟩
      -- the chosen guest would be of an unaccompanied family itself
      have hmg := hall guest (List.mem_append_right _ List.mem_cons_self) hs.symm
      exact (alone_iff R).mpr ⟨hmg, fun a ha hsa => hall a ha (hsa.trans hs.symm)⟩

theorem pickNext_held_mem {queue : List α} {g : α} (h : g ∈ (pickNext R queue).held) :
    g ∈ (pickNext R queue).queue := pickFrom_held_mem R (fun _ hx => absurd hx List.not_mem_nil) h

end
end Airport
