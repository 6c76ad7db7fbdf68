import Purrlington.Airport.Bundle
import Purrlington.Lib.StableSort

/-!
# Airport: first come, first served

One gate under any sequence of `enqueue` and `_pick_next`.  An insertion stops at the first worse
rank, which is the right place as long as the queue is sorted, and a pick takes a family out of the
queue and leaves all others in order.

* `Line`, `Line.call`     the gate, with a ghost: who is still waiting, in the order of the enqueues;
* `ofKey_enqueue`         a guest comes last among those of its rank;
* `Line.InOrder`          sorted, with everybody of a rank in the order of the enqueues;
* `first_come_first_served`   the queue is the stable sort of those who wait.
-/

set_option linter.unusedSectionVars false

namespace Airport
open StableSort

/-! ## the place of an insertion -/

section
variable {α : Type*} {rank : α → Nat} {queue : List α}

theorem ofKey_enqueue (hs : queue.Pairwise fun a b => rank a ≤ rank b) (guest : α) (r : Nat) :
    ofKey rank r (enqueue rank queue guest).1 = ofKey rank r (queue ++ [guest]) := by
  induction queue with
  | nil => rfl
  | cons a queue ih =>
    obtain ⟨ha, hs⟩ := List.pairwise_cons.mp hs
    rw [enqueue_cons]
    split
    · rename_i hlt
      by_cases hr : rank guest = r
      · -- nobody behind the guest has its rank
        have hnone : ofKey rank (rank guest) (a :: queue) = [] := by
          refine ofKey_eq_nil fun b hb => ?_
          rcases List.mem_cons.mp hb with rfl | hb
          · omega
          · have := ha b hb
            omega
        subst hr
        rw [ofKey_append, ofKey_cons_self, hnone, ofKey_cons_self]
        rfl
      · rw [ofKey_cons_ne hr, ofKey_append, ofKey_cons_ne hr]
        exact (List.append_nil _).symm
    · rw [← List.singleton_append, ofKey_append, ih hs, ← ofKey_append]
      rfl

/-- the place is the number of guests of the guest's rank or a better one -/
theorem insertAt_eq_countP (hs : queue.Pairwise fun a b => rank a ≤ rank b) (r : Nat) :
    insertAt rank r queue = queue.countP fun a => rank a ≤ r := by
  induction queue with
  | nil => rfl
  | cons a queue ih =>
    obtain ⟨ha, hs⟩ := List.pairwise_cons.mp hs
    rw [insertAt]
    split
    · rename_i hlt
      refine (List.countP_eq_zero.mpr fun b hb h => ?_).symm
      have hb' : rank b ≤ r := of_decide_eq_true h
      rcases List.mem_cons.mp hb with rfl | hb
      · omega
      · have := ha b hb
        omega
    · rename_i hle
      rw [ih hs, List.countP_cons_of_pos (by simpa using hle)]

theorem enqueue_position (rank : α → Nat) (queue : List α) (guest : α) :
    (enqueue rank queue guest).1[(enqueue rank queue guest).2 - 1]? = some guest := by
  show (queue.insertIdx (insertAt rank (rank guest) queue) guest)[_ + 1 - 1]? = _
  rw [Nat.add_sub_cancel, List.getElem?_insertIdx_self]
  exact if_pos (insertAt_le rank _ queue)

end

/-! ## a gate under calls -/

inductive GateCall (α : Type*) where
  | enqueue (guest : α)
  | pickNext

/-- the queue of a gate and the statuses of the guests; `waiting` is a ghost: those enqueued and not
in a bundle since, in the order of their enqueues -/
structure Line (α : Type*) where
  status : α → Status
  queue : List α := []
  waiting : List α := []

section
variable {α : Type*} [DecidableEq α] (lower : String → String) (guest : α → Guest)

def Line.reads (s : Line α) : Reads α :=
  ⟨fun x => isMinor (guest x), fun x => lower (guest x).surname, fun x => s.status x = .held⟩

def Line.call (s : Line α) : GateCall α → Line α
  | .enqueue x =>
    { s with
      queue := (enqueue (fun x => effectiveRank (guest x)) s.queue x).1
      waiting := s.waiting ++ [x] }
  | .pickNext =>
    let p := pickNext (s.reads lower guest) s.queue
    { status := fun x => if x ∈ p.held then .held else s.status x
      queue := p.queue
      waiting := s.waiting.filter fun x => x ∉ p.bundle.getD [] }

/-- the queue is sorted, and those of one rank are in the order of their enqueues -/
structure Line.InOrder (s : Line α) : Prop where
  sorted : s.queue.Pairwise fun x y => effectiveRank (guest x) ≤ effectiveRank (guest y)
  stable : ∀ r, ofKey (fun x => effectiveRank (guest x)) r s.queue =
    ofKey (fun x => effectiveRank (guest x)) r s.waiting

variable {lower guest}

theorem Line.InOrder.call {s : Line α} (h : s.InOrder guest) (c : GateCall α) :
    (s.call lower guest c).InOrder guest := by
  cases c with
  | enqueue x =>
    refine ⟨enqueue_sorted h.sorted x, fun r => ?_⟩
    refine (ofKey_enqueue h.sorted x r).trans ?_
    show _ = ofKey _ r (s.waiting ++ [x])
    rw [ofKey_append, ofKey_append, h.stable r]
  | pickNext =>
    refine ⟨h.sorted.sublist (pickNext_sublist _ s.queue), fun r => ?_⟩
    show ofKey _ r (pickNext (s.reads lower guest) s.queue).queue = ofKey _ r (s.waiting.filter _)
    have hr := h.stable r
    rw [ofKey, ofKey] at hr ⊢
    rw [pickNext_queue, List.filter_comm, hr, List.filter_comm]

theorem inOrder_of_calls (calls : List (GateCall α)) {s : Line α} (h : s.InOrder guest) :
    (calls.foldl (Line.call lower guest) s).InOrder guest := by
  induction calls generalizing s with
  | nil => exact h
  | cons c calls ih => exact ih (h.call c)

end

/-- **Within a rank a gate is first come, first served.**  After any calls on an empty gate, the
queue is the stable sort by rank of those who wait, and whoever is enqueued next stands at the
returned position, behind all those of its rank or a better one. -/
theorem first_come_first_served {α : Type*} [DecidableEq α] (lower : String → String)
    (guest : α → Guest) (status : α → Status) (calls : List (GateCall α)) :
    let s := calls.foldl (Line.call lower guest) { status }
    s.queue = s.waiting.mergeSort (fun x y => effectiveRank (guest x) ≤ effectiveRank (guest y)) ∧
    ∀ x, let (queue, position) := enqueue (fun x => effectiveRank (guest x)) s.queue x
      queue = (s.call lower guest (.enqueue x)).queue ∧ queue[position - 1]? = some x ∧
      position = (s.waiting.countP fun y => effectiveRank (guest y) ≤ effectiveRank (guest x)) + 1 := by
  intro s
  have h : s.InOrder guest := inOrder_of_calls calls ⟨.nil, fun _ => rfl⟩
  have hsort := eq_mergeSort h.sorted h.stable
  refine ⟨hsort, fun x => ⟨rfl, enqueue_position _ s.queue x, ?_⟩⟩
  have hperm : s.queue.Perm s.waiting := by
    rw [hsort]
    exact List.mergeSort_perm _ _
  show insertAt _ _ s.queue + 1 = _
  rw [insertAt_eq_countP h.sorted, hperm.countP_eq]

end Airport
