import Purrlington.Airport.Manager
import Purrlington.Lib.Places
import Mathlib.Data.List.TakeWhile

/-!
# Airport: the loop of _pick_next by places

`_pick_next` works on places of the queue: it scans them in order, collects those of a family, sorts
them in descending order and pops them.  Here it is written so, over the guests' records, and every
access to the queue may fail.

* `pickNextByIdx`        the method;
* `pickByIdx_step`       what the loop does at one place;
* `pickNextByIdx_all`    all are unaccompanied: no bundle, and everybody is held;
* `pickNextByIdx_first`  otherwise: the first guest that is not, with the whole family;
* `pickNextByIdx_bundled`   it never fails, and what leaves is a family with an adult in it;
* `pickNext_cases`       the outcome of a pick on references;
* `pickNextByIdx_load`   the same pick as the loop by places.
-/

set_option linter.unusedSectionVars false

namespace Airport
open Places

/-! ## _pick_next -/

section
variable (lower : String → String)

/-- `guest["status"] = "held"` -/
def Arrival.hold (a : Arrival) : Arrival := { a with status := .held }

/-- what `_pick_next` reads of a record -/
def Arrival.reads : Reads Arrival :=
  ⟨fun a => isMinor a.guest, fun a => lower a.guest.surname, fun a => a.status = .held⟩

/-- `_find_family`: the places of the guests with the surname, but for `excludeIdx` -/
def findFamilyIdxs (queue : List Arrival) (surname : String) (excludeIdx : Option Nat) : List Nat :=
  (queue.zipIdx.filter fun e =>
    lower e.1.guest.surname = lower surname ∧ some e.2 ≠ excludeIdx).map Prod.snd

/-- `any(not self._is_minor(self.queue[i]) for i in family_idxs)` -/
def anyAdult (queue : List Arrival) : List Nat → Except String Bool
  | [] => .ok false
  | i :: familyIdxs => do
    let g ← getAt queue i
    if isMinor g.guest then anyAdult queue familyIdxs else .ok true

/-- the guest is a minor without an adult of its family in the queue -/
def isAlone (queue : List Arrival) (guest : Arrival) (familyIdxs : List Nat) : Except String Bool :=
  if isMinor guest.guest then do
    let hasAdult ← anyAdult queue familyIdxs
    return !hasAdult
  else .ok false

/-- the loop over the places, with the queue and those newly held so far -/
def pickByIdx (queue held : List Arrival) : List Nat → Except String (Pick Arrival)
  | [] => .ok ⟨none, queue, held⟩
  | idx :: places => do
    let guest ← getAt queue idx
    let familyIdxs := findFamilyIdxs lower queue guest.guest.surname (some idx)
    let alone ← isAlone queue guest familyIdxs
    if alone then
      if guest.status = .held then pickByIdx queue held places
      else pickByIdx (queue.set idx guest.hold) (held ++ [guest.hold]) places
    else
      let pullIdxs := (idx :: familyIdxs).mergeSort fun i j => j ≤ i
      let others ← (pullIdxs.filter fun i => i ≠ idx).mapM (getAt queue)
      let left ← pullIdxs.foldlM popAt queue
      return ⟨some (guest :: others), left, held⟩

/-- `Gate._pick_next` on the records of the queue -/
def pickNextByIdx (queue : List Arrival) : Except String (Pick Arrival) :=
  pickByIdx lower queue [] (List.range queue.length)

end

section
variable {lower : String → String} {queue held pre post : List Arrival} {guest : Arrival}

theorem findFamilyIdxs_around (surname : String) :
    findFamilyIdxs lower (pre ++ guest :: post) surname (some pre.length) =
      places (fun a => lower a.guest.surname = lower surname) 0 pre ++
        places (fun a => lower a.guest.surname = lower surname) (pre.length + 1) post := by
  rw [findFamilyIdxs, List.zipIdx_append, List.zipIdx_cons, List.filter_append, List.map_append,
    Nat.zero_add, places, places]
  congr 1
  · -- no place before the guest's own is its own
    refine congrArg (List.map Prod.snd) (List.filter_congr fun e he => ?_)
    obtain ⟨_, hlt, _⟩ := List.mem_zipIdx he
    have hne : some e.2 ≠ some pre.length := fun h => by
      have := Option.some.inj h
      omega
    exact decide_eq_decide.mpr (and_iff_left hne)
  · rw [List.filter_cons_of_neg (by simp)]
    refine congrArg (List.map Prod.snd) (List.filter_congr fun e he => ?_)
    obtain ⟨hle, _⟩ := List.mem_zipIdx he
    have hne : some e.2 ≠ some pre.length := fun h => by
      have := Option.some.inj h
      omega
    exact decide_eq_decide.mpr (and_iff_left hne)

theorem anyAdult_eq {is : List Nat} {family : List Arrival}
    (h : is.map (queue[·]?) = family.map some) :
    anyAdult queue is = .ok (family.any fun a => !isMinor a.guest) := by
  induction is generalizing family with
  | nil =>
    obtain rfl := List.map_eq_nil_iff.mp h.symm
    rfl
  | cons i is ih =>
    cases family with
    | nil => exact absurd h (List.cons_ne_nil _ _)
    | cons a family =>
      obtain ⟨hi, his⟩ := List.cons.inj h
      replace hi : queue[i]? = some a := hi
      rw [anyAdult, getAt, hi, List.any_cons]
      show (if isMinor a.guest then _ else _) = _
      cases ha : isMinor a.guest with
      | true => exact ih his
      | false => rfl

theorem isAlone_eq (guest : Arrival) {is : List Nat} {family : List Arrival}
    (h : is.map (queue[·]?) = family.map some) :
    isAlone queue guest is = .ok (isMinor guest.guest && !(family.any fun a => !isMinor a.guest)) := by
  rw [isAlone]
  cases isMinor guest.guest with
  | true =>
    rw [if_pos rfl, anyAdult_eq h]
    rfl
  | false => rfl

theorem hold_of_held (h : guest.status = .held) : guest.hold = guest := by
  rw [Arrival.hold, ← h]

/-- the guest at the place `pre.length` and its family are read and popped -/
theorem pull_family (pre post : List Arrival) (p : Arrival → Bool) (hp : p guest = true) :
    let pullIdxs := (pre.length :: (places p 0 pre ++ places p (pre.length + 1) post)).mergeSort
      fun i j => j ≤ i
    (pullIdxs.filter fun i => i ≠ pre.length).mapM (getAt (pre ++ guest :: post)) =
        .ok ((pre ++ post).filter p).reverse ∧
      pullIdxs.foldlM popAt (pre ++ guest :: post) = .ok ((pre ++ post).filter fun a => !p a) := by
  intro pullIdxs
  have hpull : pullIdxs = (places p 0 (pre ++ guest :: post)).reverse := by
    apply mergeSort_places
    rw [places_around hp]
    exact List.perm_middle.symm
  rw [hpull]
  constructor
  · apply mapM_getAt
    rw [List.filter_reverse, filter_ne_places hp, List.map_reverse, map_places_around,
      List.map_reverse]
  · rw [popAll_places, List.filter_append, List.filter_append, List.filter_cons_of_neg]
    rw [hp]
    exact Bool.false_ne_true

/-- **One place of the loop.**  An unaccompanied minor is marked and passed over; any other guest
leaves with the others of the surname, the last of them first. -/
theorem pickByIdx_step (is : List Nat) :
    pickByIdx lower (pre ++ guest :: post) held (pre.length :: is) =
      if Unaccompanied (Arrival.reads lower) (pre ++ guest :: post) guest then
        pickByIdx lower (pre ++ guest.hold :: post)
          (held ++ if guest.status = .held then [] else [guest.hold]) is
      else .ok ⟨some (guest :: (findFamily (Arrival.reads lower) (lower guest.guest.surname)
        (pre ++ post)).reverse), (pre ++ post).filter fun a =>
          !decide (lower a.guest.surname = lower guest.guest.surname), held⟩ := by
  have hmap := map_places_around (fun a : Arrival => lower a.guest.surname = lower guest.guest.surname)
    pre guest post
  have halone := isAlone_eq guest hmap
  rw [pickByIdx, getAt_append]
  show (isAlone (pre ++ guest :: post) guest (findFamilyIdxs lower (pre ++ guest :: post)
    guest.guest.surname (some pre.length)) >>= _) = _
  rw [findFamilyIdxs_around, halone]
  by_cases hu : Unaccompanied (Arrival.reads lower) (pre ++ guest :: post) guest
  · rw [if_pos hu]
    refine (if_pos ((alone_iff (Arrival.reads lower)).mpr hu)).trans ?_
    by_cases hst : guest.status = .held
    · rw [if_pos hst, if_pos hst, hold_of_held hst, List.append_nil]
    · rw [if_neg hst, if_neg hst, List.set_append_right _ _ (Nat.le_refl _), Nat.sub_self]
      rfl
  · rw [if_neg hu]
    refine (if_neg fun h => hu ((alone_iff (Arrival.reads lower)).mp h)).trans ?_
    obtain ⟨hread, hpop⟩ := pull_family pre post
      (fun a => decide (lower a.guest.surname = lower guest.guest.surname)) (decide_eq_true rfl)
    show ((List.filter _ _).mapM (getAt (pre ++ guest :: post)) >>= _) = _
    rw [hread]
    show (List.foldlM popAt (pre ++ guest :: post) _ >>= _) = _
    rw [hpop]
    rfl

/-! ## the whole loop -/

/-- who is unaccompanied depends on the ages and the surnames in the queue only -/
theorem unaccompanied_congr {α : Type*} {R : Reads α} {q q' : List α} {g g' : α}
    (hq : q.map (fun a => (R.minor a, R.surname a)) = q'.map fun a => (R.minor a, R.surname a))
    (hg : (R.minor g, R.surname g) = (R.minor g', R.surname g')) :
    Unaccompanied R q g ↔ Unaccompanied R q' g' := by
  have hkey : ∀ q g, Unaccompanied R q g ↔ R.minor g = true ∧
      ∀ k ∈ q.map (fun a => (R.minor a, R.surname a)), k.2 = R.surname g → k.1 = true := by
    intro q g
    rw [Unaccompanied, List.forall_mem_map]
  obtain ⟨hm, hs⟩ := Prod.mk.inj hg
  rw [hkey, hkey, hq, hm, hs]

theorem pickByIdx_scan (pre held post : List Arrival) {scanned : List Arrival} (n : Nat)
    (hs : ∀ g ∈ scanned, Unaccompanied (Arrival.reads lower) (pre ++ scanned ++ post) g) :
    pickByIdx lower (pre ++ scanned ++ post) held (List.range' pre.length (scanned.length + n)) =
      pickByIdx lower (pre ++ scanned.map Arrival.hold ++ post)
        (held ++ (scanned.filter fun g => g.status ≠ .held).map Arrival.hold)
        (List.range' (pre.length + scanned.length) n) := by
  induction scanned generalizing pre held with
  | nil => simp
  | cons g scanned ih =>
    have hsplit : ∀ x, pre ++ x :: scanned ++ post = pre ++ [x] ++ scanned ++ post := by simp
    have hrange : List.range' pre.length ((g :: scanned).length + n) =
        pre.length :: List.range' (pre ++ [g.hold]).length (scanned.length + n) := by
      rw [List.length_cons, Nat.add_right_comm, List.range'_succ, List.length_append]
      rfl
    have hg := hs g List.mem_cons_self
    rw [hrange, List.append_assoc, List.cons_append, pickByIdx_step]
    rw [List.append_assoc, List.cons_append] at hg
    rw [if_pos hg]
    have hmarked : ∀ a ∈ scanned, Unaccompanied (Arrival.reads lower)
        (pre ++ [g.hold] ++ scanned ++ post) a := by
      intro a ha
      refine (unaccompanied_congr ?_ rfl).mp (hs a (List.mem_cons_of_mem g ha))
      rw [← hsplit]
      simp only [List.map_append, List.map_cons]
      rfl
    have hih := ih (pre ++ [g.hold]) (held ++ if g.status = .held then [] else [g.hold]) hmarked
    rw [List.append_assoc, List.append_assoc] at hih
    have hheld : (held ++ if g.status = .held then [] else [g.hold]) ++
          (scanned.filter fun g => g.status ≠ .held).map Arrival.hold =
        held ++ ((g :: scanned).filter fun g => g.status ≠ .held).map Arrival.hold := by
      by_cases hst : g.status = .held
      · simp [hst]
      · simp [hst]
    have hlen : (pre ++ [g.hold]).length + scanned.length =
        pre.length + (g :: scanned).length := by
      simp only [List.length_append, List.length_cons, List.length_nil]
      omega
    have hqueue : pre ++ [g.hold] ++ scanned.map Arrival.hold ++ post =
        pre ++ (g :: scanned).map Arrival.hold ++ post := by simp
    rw [hheld, hlen, hqueue] at hih
    exact hih

/-- the guests that the loop passes over -/
def passedOver {α : Type*} (R : Reads α) (queue : List α) : List α :=
  queue.takeWhile fun g => Unaccompanied R queue g

theorem mem_passedOver {α : Type*} {R : Reads α} {q : List α} {g : α} (h : g ∈ passedOver R q) :
    g ∈ q ∧ Unaccompanied R q g := by
  have hp := List.mem_takeWhile_imp (p := fun g => decide (Unaccompanied R q g)) h
  exact ⟨(List.takeWhile_prefix _).subset h, of_decide_eq_true hp⟩

theorem passedOver_cases {α : Type*} (R : Reads α) (q : List α) :
    (∀ g ∈ q, Unaccompanied R q g) ∧ passedOver R q = q ∨
      ∃ first rest, q = passedOver R q ++ first :: rest ∧ ¬ Unaccompanied R q first := by
  have hsplit := List.takeWhile_append_dropWhile (p := fun g => decide (Unaccompanied R q g)) (l := q)
  rcases hd : q.dropWhile fun g => Unaccompanied R q g with _ | ⟨first, rest⟩
  · refine .inl ⟨fun g hg => of_decide_eq_true (List.dropWhile_eq_nil_iff.mp hd g hg), ?_⟩
    rw [hd, List.append_nil] at hsplit
    exact hsplit
  · refine .inr ⟨first, rest, ?_, ?_⟩
    · rw [hd] at hsplit
      exact hsplit.symm
    · have hne : (q.dropWhile fun g => Unaccompanied R q g) ≠ [] := by
        rw [hd]
        exact List.cons_ne_nil _ _
      have hnot := List.head_dropWhile_not (fun g => decide (Unaccompanied R q g)) hne
      simp only [hd, List.head_cons] at hnot
      exact of_decide_eq_false hnot

theorem passedOver_split {α : Type*} (R : Reads α) (q : List α) :
    (∀ g ∈ q, Unaccompanied R q g) ∧ passedOver R q = q ∨
      ∃ scanned first rest, q = scanned ++ first :: rest ∧ passedOver R q = scanned ∧
        (∀ g ∈ scanned, Unaccompanied R q g) ∧ ¬ Unaccompanied R q first := by
  obtain hall | ⟨first, rest, hq, hf⟩ := passedOver_cases R q
  · exact .inl hall
  · exact .inr ⟨passedOver R q, first, rest, hq, rfl, fun g hg => (mem_passedOver hg).2, hf⟩

theorem pickNextByIdx_all (h : ∀ g ∈ queue, Unaccompanied (Arrival.reads lower) queue g) :
    pickNextByIdx lower queue = .ok ⟨none, queue.map Arrival.hold,
      (queue.filter fun g => g.status ≠ .held).map Arrival.hold⟩ := by
  have hall : ∀ g ∈ queue, Unaccompanied (Arrival.reads lower) ([] ++ queue ++ []) g := by
    rw [List.append_nil]
    exact h
  have hscan := pickByIdx_scan [] [] [] 0 hall
  rw [List.append_nil, List.append_nil] at hscan
  rw [pickNextByIdx, List.range_eq_range']
  exact hscan

theorem pickNextByIdx_first {scanned rest : List Arrival} {first : Arrival}
    (hs : ∀ g ∈ scanned, Unaccompanied (Arrival.reads lower) (scanned ++ first :: rest) g)
    (hf : ¬ Unaccompanied (Arrival.reads lower) (scanned ++ first :: rest) first) :
    pickNextByIdx lower (scanned ++ first :: rest) = .ok
      ⟨some (first :: (findFamily (Arrival.reads lower) (lower first.guest.surname)
          (scanned.map Arrival.hold ++ rest)).reverse),
        (scanned.map Arrival.hold ++ rest).filter fun a =>
          !decide (lower a.guest.surname = lower first.guest.surname),
        (scanned.filter fun g => g.status ≠ .held).map Arrival.hold⟩ := by
  have hscan := pickByIdx_scan [] [] (first :: rest) (rest.length + 1) hs
  have hfirst : ¬ Unaccompanied (Arrival.reads lower) (scanned.map Arrival.hold ++ first :: rest)
      first := by
    refine fun h => hf ((unaccompanied_congr ?_ rfl).mp h)
    rw [List.map_append, List.map_append, List.map_map]
    rfl
  have hlen : (scanned ++ first :: rest).length = scanned.length + (rest.length + 1) := by
    rw [List.length_append, List.length_cons]
  have hrange : List.range' (([] : List Arrival).length + scanned.length) (rest.length + 1) =
      (scanned.map Arrival.hold).length :: List.range' (scanned.length + 1) rest.length := by
    rw [List.range'_succ, List.length_map, List.length_nil, Nat.zero_add]
  rw [hrange] at hscan
  rw [pickNextByIdx, hlen, List.range_eq_range']
  refine hscan.trans ?_
  exact (pickByIdx_step _).trans (if_neg hfirst)

/-- an unaccompanied guest is not of the family of one that is not -/
theorem surname_ne_of_unaccompanied {α : Type*} {R : Reads α} {q : List α} {g first : α}
    (hg : Unaccompanied R q g) (hf : ¬ Unaccompanied R q first) (hmem : first ∈ q) :
    R.surname g ≠ R.surname first := by
  intro hs
  exact hf ⟨hg.2 first hmem hs.symm, fun a ha hsa => hg.2 a ha (hsa.trans hs.symm)⟩

/-- a guest that is not unaccompanied has an adult in its family, maybe itself -/
theorem exists_adult {α : Type*} {R : Reads α} {q : List α} {first : α}
    (hf : ¬ Unaccompanied R q first) (hmem : first ∈ q) :
    ∃ a ∈ q, R.surname a = R.surname first ∧ R.minor a = false := by
  by_contra hno
  have hall : ∀ a ∈ q, R.surname a = R.surname first → R.minor a = true := by
    intro a ha hs
    by_contra hm
    exact hno ⟨a, ha, hs, Bool.not_eq_true _ ▸ hm⟩
  exact hf ⟨hall first hmem rfl, hall⟩

/-- what `_pick_next` promises of its outcome: `scanned` are the guests before the first that is not
unaccompanied, and the queue keeps everybody else, in order and with the status it had but for
those newly held -/
structure Bundled (lower : String → String) (queue : List Arrival) (out : Pick Arrival) : Prop where
  none_iff : out.bundle = none ↔ ∀ g ∈ queue, Unaccompanied (Arrival.reads lower) queue g
  held : out.held =
    ((passedOver (Arrival.reads lower) queue).filter fun g => g.status ≠ .held).map Arrival.hold
  kept : out.bundle = none → out.queue = queue.map Arrival.hold
  bundled : ∀ bundle ∈ out.bundle, ∃ first rest,
    queue = passedOver (Arrival.reads lower) queue ++ first :: rest ∧
    ¬ Unaccompanied (Arrival.reads lower) queue first ∧ bundle.head? = some first ∧
    bundle.Perm (queue.filter fun a => lower a.guest.surname = lower first.guest.surname) ∧
    (∃ a ∈ bundle, 12 ≤ a.guest.age) ∧
    out.queue = ((passedOver (Arrival.reads lower) queue).map Arrival.hold ++ first :: rest).filter
      fun a => lower a.guest.surname ≠ lower first.guest.surname

theorem family_perm {scanned : List Arrival} {first : Arrival} (rest : List Arrival)
    (hother : ∀ g ∈ scanned, lower g.guest.surname ≠ lower first.guest.surname) :
    (first :: (findFamily (Arrival.reads lower) (lower first.guest.surname)
        (scanned.map Arrival.hold ++ rest)).reverse).Perm
      ((scanned ++ first :: rest).filter fun a =>
        lower a.guest.surname = lower first.guest.surname) := by
  have hnone : ∀ l : List Arrival, (∀ g ∈ l, lower g.guest.surname ≠ lower first.guest.surname) →
      l.filter (fun a => lower a.guest.surname = lower first.guest.surname) = [] := fun l hl =>
    List.filter_eq_nil_iff.mpr fun a ha h => hl a ha (of_decide_eq_true h)
  have hheld : ∀ g ∈ scanned.map Arrival.hold,
      lower g.guest.surname ≠ lower first.guest.surname := by
    intro g hg
    obtain ⟨a, ha, rfl⟩ := List.mem_map.mp hg
    exact hother a ha
  rw [List.filter_append, hnone scanned hother, List.nil_append,
    List.filter_cons_of_pos (by simp)]
  refine .cons first ((List.reverse_perm _).trans (.of_eq ?_))
  show (scanned.map Arrival.hold ++ rest).filter (fun a => lower a.guest.surname = _) = _
  rw [List.filter_append, hnone _ hheld, List.nil_append]

/-- **Families are bundled exactly**, and no access to the queue is out of range. -/
theorem pickNextByIdx_bundled (lower : String → String) (queue : List Arrival) :
    ∃ out, pickNextByIdx lower queue = .ok out ∧ Bundled lower queue out := by
  obtain ⟨hall, he⟩ | ⟨scanned, first, rest, rfl, hs, hpassed, hf⟩ :=
    passedOver_split (Arrival.reads lower) queue
  · refine ⟨_, pickNextByIdx_all hall, ⟨iff_of_true rfl hall, ?_, fun _ => rfl, ?_⟩⟩
    · rw [he]
    · exact fun _ hb => absurd hb (by simp)
  · have hmem : first ∈ scanned ++ first :: rest := List.mem_append_right _ List.mem_cons_self
    -- nobody that is passed over is of the family
    have hother : ∀ g ∈ scanned, lower g.guest.surname ≠ lower first.guest.surname := fun g hg =>
      surname_ne_of_unaccompanied (hpassed g hg) hf hmem
    have hperm := family_perm rest hother
    refine ⟨_, pickNextByIdx_first hpassed hf, ⟨?_, ?_, ?_, ?_⟩⟩
    · exact iff_of_false (by simp) fun h => hf (h first hmem)
    · rw [hs]
    · exact fun h => absurd h (by simp)
    · intro bundle hb
      obtain rfl := Option.some.inj hb
      refine ⟨first, rest, by rw [hs], hf, rfl, hperm, ?_, ?_⟩
      · obtain ⟨a, ha, hsa, hma⟩ := exists_adult hf hmem
        refine ⟨a, hperm.mem_iff.mpr (List.mem_filter.mpr ⟨ha, decide_eq_true hsa⟩), ?_⟩
        exact Nat.le_of_not_lt (of_decide_eq_false hma)
      · rw [hs, List.filter_append, List.filter_append, List.filter_cons_of_neg (by simp)]
        simp

end
/-! ## the same on references -/

section
variable {α : Type*} {R : Reads α} {scanned rest : List α} {first : α}

theorem pickFrom_scan (passed held : List α)
    (hs : ∀ g ∈ scanned, Unaccompanied R (passed ++ scanned ++ rest) g) :
    pickFrom R passed held (scanned ++ rest) =
      pickFrom R (passed ++ scanned) (held ++ scanned.filter fun g => !R.held g) rest := by
  induction scanned generalizing passed held with
  | nil => simp
  | cons g scanned ih =>
    have hsplit : passed ++ g :: scanned = passed ++ [g] ++ scanned := by simp
    rw [hsplit] at hs
    have hg := hs g List.mem_cons_self
    rw [List.append_assoc, List.append_assoc, List.singleton_append] at hg
    rw [List.cons_append, pickFrom]
    refine (if_pos ((alone_iff R).mpr hg)).trans ?_
    rw [ih (passed ++ [g]) _ fun a ha => hs a (List.mem_cons_of_mem g ha), hsplit]
    congr 1
    cases hh : R.held g with
    | true => simp [hh]
    | false => simp [hh]

theorem pickNext_all {queue : List α} (h : ∀ g ∈ queue, Unaccompanied R queue g) :
    pickNext R queue = ⟨none, queue, queue.filter fun g => !R.held g⟩ := by
  have hall : ∀ g ∈ queue, Unaccompanied R ([] ++ queue ++ []) g := by
    rw [List.append_nil]
    exact h
  have hscan := pickFrom_scan [] [] hall
  rw [List.append_nil] at hscan
  exact hscan

theorem pickNext_first (hs : ∀ g ∈ scanned, Unaccompanied R (scanned ++ first :: rest) g)
    (hf : ¬ Unaccompanied R (scanned ++ first :: rest) first) :
    pickNext R (scanned ++ first :: rest) =
      ⟨some (first :: (findFamily R (R.surname first) (scanned ++ rest)).reverse),
        (scanned ++ rest).filter fun g => R.surname g ≠ R.surname first,
        scanned.filter fun g => !R.held g⟩ := by
  rw [pickNext, pickFrom_scan [] [] hs, pickFrom]
  exact if_neg fun h => hf ((alone_iff R).mp h)

/-- the outcome of a pick: all are unaccompanied, or the first guest that is not leaves with the
family -/
theorem pickNext_cases (R : Reads α) (queue : List α) :
    (∀ g ∈ queue, Unaccompanied R queue g) ∧
        pickNext R queue = ⟨none, queue, queue.filter fun g => !R.held g⟩ ∨
      ∃ scanned first rest, queue = scanned ++ first :: rest ∧
        (∀ g ∈ scanned, Unaccompanied R queue g) ∧ ¬ Unaccompanied R queue first ∧
        pickNext R queue =
          ⟨some (first :: (findFamily R (R.surname first) (scanned ++ rest)).reverse),
            queue.filter fun g => R.surname g ≠ R.surname first,
            scanned.filter fun g => !R.held g⟩ := by
  obtain ⟨hall, _⟩ | ⟨scanned, first, rest, rfl, _, hpassed, hf⟩ := passedOver_split R queue
  · exact .inl ⟨hall, pickNext_all hall⟩
  · refine .inr ⟨scanned, first, rest, rfl, hpassed, hf, ?_⟩
    rw [pickNext_first hpassed hf, List.filter_append, List.filter_append,
      List.filter_cons_of_neg (by simp)]

theorem mem_bundle {scanned rest : List α} {first g : α} :
    g ∈ first :: (findFamily R (R.surname first) (scanned ++ rest)).reverse ↔
      g ∈ scanned ++ first :: rest ∧ R.surname g = R.surname first := by
  rw [List.mem_cons, List.mem_reverse, findFamily, List.mem_filter, decide_eq_true_iff]
  simp only [List.mem_append, List.mem_cons]
  constructor
  · rintro (rfl | ⟨hg | hg, hs⟩)
    · exact ⟨.inr (.inl rfl), rfl⟩
    · exact ⟨.inl hg, hs⟩
    · exact ⟨.inr (.inr hg), hs⟩
  · rintro ⟨hg | rfl | hg, hs⟩
    · exact .inr ⟨.inl hg, hs⟩
    · exact .inl rfl
    · exact .inr ⟨.inr hg, hs⟩

theorem pickNext_queue [DecidableEq α] (R : Reads α) (queue : List α) :
    (pickNext R queue).queue =
      queue.filter fun g => g ∉ (pickNext R queue).bundle.getD [] := by
  obtain ⟨_, hp⟩ | ⟨scanned, first, rest, rfl, _, _, hp⟩ := pickNext_cases R queue
  · rw [hp]
    exact (List.filter_eq_self.mpr fun g _ => decide_eq_true List.not_mem_nil).symm
  · rw [hp]
    apply List.filter_congr
    intro g hg
    refine decide_eq_decide.mpr (not_congr (.trans ?_ mem_bundle.symm))
    exact (and_iff_right hg).symm

end

section
variable {cfg : Config} {w : World} {queue : List Nat} {load : Nat → Arrival}

theorem unaccompanied_load (hload : ∀ x ∈ queue, w.guests[x]? = some (load x)) {x : Nat}
    (hx : x ∈ queue) : Unaccompanied (Arrival.reads cfg.lower) (queue.map load) (load x) ↔
      Unaccompanied (w.reads cfg) queue x := by
  have hread : ∀ y ∈ queue, w.minor y = isMinor (load y).guest ∧
      w.surname cfg y = cfg.lower (load y).guest.surname := by
    intro y hy
    rw [World.minor, World.surname, hload y hy]
    exact ⟨rfl, rfl⟩
  obtain ⟨hm, hs⟩ := hread x hx
  show isMinor (load x).guest = true ∧ _ ↔ w.minor x = true ∧ _
  rw [hm, List.forall_mem_map]
  refine and_congr_right fun _ => forall₂_congr fun y hy => ?_
  show (cfg.lower (load y).guest.surname = cfg.lower (load x).guest.surname →
    isMinor (load y).guest = true) ↔ (w.surname cfg y = w.surname cfg x → w.minor y = true)
  rw [(hread y hy).1, (hread y hy).2, hs]

/-- the record of a guest after the held marks -/
def mark (load : Nat → Arrival) (held : List Nat) (x : Nat) : Arrival :=
  if x ∈ held then (load x).hold else load x

theorem map_mark_scanned {scanned : List Nat}
    (hst : ∀ x ∈ scanned, (!w.isHeld x) = decide ((load x).status ≠ .held)) :
    scanned.map (mark load (scanned.filter fun x => !w.isHeld x)) =
        (scanned.map load).map Arrival.hold ∧
      (scanned.filter fun x => !w.isHeld x).map (mark load (scanned.filter fun x => !w.isHeld x)) =
        ((scanned.map load).filter fun a => a.status ≠ .held).map Arrival.hold := by
  constructor
  · rw [List.map_map]
    apply List.map_congr_left
    intro x hx
    rw [mark]
    split
    · rfl
    · rename_i hn
      have hheld : (load x).status = .held := by
        by_contra hne
        exact hn (List.mem_filter.mpr ⟨hx, (hst x hx).trans (decide_eq_true hne)⟩)
      exact (hold_of_held hheld).symm
  · rw [List.filter_map, List.map_map, List.filter_congr hst]
    apply List.map_congr_left
    intro x hx
    exact if_pos hx

theorem status_load (hload : ∀ x ∈ queue, w.guests[x]? = some (load x)) :
    ∀ x ∈ queue, (!w.isHeld x) = decide ((load x).status ≠ .held) := by
  intro x hx
  rw [World.isHeld, hload x hx]
  exact (decide_not).symm

theorem surname_load (hload : ∀ x ∈ queue, w.guests[x]? = some (load x)) :
    ∀ x ∈ queue, w.surname cfg x = cfg.lower (load x).guest.surname := by
  intro x hx
  rw [World.surname, hload x hx]

theorem surname_mark {held : List Nat} {first : Nat}
    (hload : ∀ x ∈ queue, w.guests[x]? = some (load x)) (hfirst : first ∈ queue) :
    ∀ x ∈ queue, decide (cfg.lower (mark load held x).guest.surname =
      cfg.lower (load first).guest.surname) = decide (w.surname cfg x = w.surname cfg first) := by
  intro x hx
  rw [surname_load hload x hx, surname_load hload first hfirst, mark]
  split <;> rfl

theorem pickNextByIdx_load_first {scanned rest : List Nat} {first : Nat}
    (hnd : (scanned ++ first :: rest).Nodup)
    (hload : ∀ x ∈ scanned ++ first :: rest, w.guests[x]? = some (load x))
    (hpassed : ∀ x ∈ scanned, Unaccompanied (w.reads cfg) (scanned ++ first :: rest) x)
    (hf : ¬ Unaccompanied (w.reads cfg) (scanned ++ first :: rest) first) :
    pickNextByIdx cfg.lower ((scanned ++ first :: rest).map load) = .ok
      ⟨some ((first :: (findFamily (w.reads cfg) (w.surname cfg first) (scanned ++ rest)).reverse).map
          (mark load (scanned.filter fun x => !w.isHeld x))),
        ((scanned ++ rest).filter fun x => w.surname cfg x ≠ w.surname cfg first).map
          (mark load (scanned.filter fun x => !w.isHeld x)),
        (scanned.filter fun x => !w.isHeld x).map
          (mark load (scanned.filter fun x => !w.isHeld x))⟩ := by
  have hfirst : first ∈ scanned ++ first :: rest := List.mem_append_right _ List.mem_cons_self
  have hmap : (scanned ++ first :: rest).map load =
      scanned.map load ++ load first :: rest.map load := by
    rw [List.map_append, List.map_cons]
  have hpassed' : ∀ a ∈ scanned.map load, Unaccompanied (Arrival.reads cfg.lower)
      (scanned.map load ++ load first :: rest.map load) a := by
    rw [List.forall_mem_map, ← hmap]
    exact fun x hx => (unaccompanied_load hload (List.mem_append_left _ hx)).mpr (hpassed x hx)
  have hf' : ¬ Unaccompanied (Arrival.reads cfg.lower)
      (scanned.map load ++ load first :: rest.map load) (load first) := by
    rw [← hmap]
    exact fun h => hf ((unaccompanied_load hload hfirst).mp h)
  obtain ⟨hqueue, hheld⟩ := map_mark_scanned fun x hx =>
    status_load hload x (List.mem_append_left _ hx)
  -- the first guest and those behind it are not marked
  have hunmarked : ∀ x ∈ first :: rest,
      mark load (scanned.filter fun x => !w.isHeld x) x = load x := by
    intro x hx
    refine if_neg fun h => ?_
    exact List.disjoint_of_nodup_append hnd (List.mem_filter.mp h).1 hx
  have hrest : (scanned.map load).map Arrival.hold ++ rest.map load =
      (scanned ++ rest).map (mark load (scanned.filter fun x => !w.isHeld x)) := by
    rw [List.map_append, hqueue]
    refine congrArg _ (List.map_congr_left fun x hx => ?_)
    exact (hunmarked x (List.mem_cons_of_mem first hx)).symm
  have hsub : ∀ x ∈ scanned ++ rest, x ∈ scanned ++ first :: rest := fun x hx =>
    (List.sublist_cons_self first rest).append_left scanned |>.subset hx
  have hsame : ∀ x ∈ scanned ++ rest, decide (cfg.lower
        (mark load (scanned.filter fun x => !w.isHeld x) x).guest.surname =
      cfg.lower (load first).guest.surname) = decide (w.surname cfg x = w.surname cfg first) :=
    fun x hx => surname_mark hload hfirst x (hsub x hx)
  have hfamily := List.filter_congr hsame
  have hleft := List.filter_congr fun x hx => congrArg (!·) (hsame x hx)
  rw [hmap, pickNextByIdx_first hpassed' hf', hrest, ← hheld]
  refine congrArg Except.ok (congrArg₂ (fun bundle left => Pick.mk bundle left _) ?_ ?_)
  · refine congrArg some ?_
    rw [List.map_cons, List.map_reverse]
    refine congrArg₂ (fun a family => a :: List.reverse family) ?_ ?_
    · exact (hunmarked first List.mem_cons_self).symm
    · exact (List.filter_map ..).trans (congrArg (List.map _) hfamily)
  · rw [List.filter_map]
    refine congrArg (List.map _) (hleft.trans (List.filter_congr fun x _ => ?_))
    exact (decide_not).symm

/-- **The loop by places does what a worker's pick does** to the records of its queue. -/
theorem pickNextByIdx_load (hnd : queue.Nodup)
    (hload : ∀ x ∈ queue, w.guests[x]? = some (load x)) :
    ∃ load' : Nat → Arrival,
      (∀ x ∈ queue, (updateAt (pickNext (w.reads cfg) queue).held (setStatus .held) w.guests)[x]? =
        some (load' x)) ∧
      pickNextByIdx cfg.lower (queue.map load) = .ok
        ⟨(pickNext (w.reads cfg) queue).bundle.map (List.map load'),
          (pickNext (w.reads cfg) queue).queue.map load',
          (pickNext (w.reads cfg) queue).held.map load'⟩ := by
  refine ⟨mark load (pickNext (w.reads cfg) queue).held, ?_, ?_⟩
  · intro x hx
    rw [getElem?_updateAt, hload x hx]
    rfl
  obtain ⟨hall, _⟩ | ⟨scanned, first, rest, rfl, _, hpassed, hf⟩ :=
    passedOver_split (w.reads cfg) queue
  · have hall' : ∀ a ∈ queue.map load, Unaccompanied (Arrival.reads cfg.lower) (queue.map load) a := by
      rw [List.forall_mem_map]
      exact fun x hx => (unaccompanied_load hload hx).mpr (hall x hx)
    obtain ⟨hqueue, hheld⟩ := map_mark_scanned (status_load hload)
    rw [pickNext_all hall, pickNextByIdx_all hall', ← hqueue, ← hheld]
    rfl
  · rw [pickNext_first hpassed hf]
    exact pickNextByIdx_load_first hnd hload hpassed hf

end

end Airport
