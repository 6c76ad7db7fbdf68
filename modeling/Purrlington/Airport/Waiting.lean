import Purrlington.Airport.Bundle
import Purrlington.Airport.Frontend
import Purrlington.Airport.Interrupted
import Purrlington.Airport.Stranded

/-!
# Airport: the estimated wait

`get_estimated_wait` counts the guests ahead in the queue and the one in the booth.  A pick skips the
minors that are alone and takes families from anywhere in the queue, so the count is compared with
what the worker does later.

* `pickNext_progress`      a pick takes the guest, or somebody ahead of it and leaves it servable;
* `World.picks`            the bundles of one gate's worker along a run of workers and clock;
* `picks_before_le`        at most as many picks come before a guest's own as guests are ahead;
* `estimate_covers`        so the estimate is not too short;
* `World.WaitsKnown`       a held guest has no estimate, every other waiting guest has one;
* `waits_known_of_escorted`   that is so in every run where nobody is ever held.
-/

set_option linter.unusedSectionVars false

namespace Airport
open SM Ledger

/-! ## one pick -/

section
variable {α : Type*} {R : Reads α} {queue pre post : List α} {x : α}

/-- **A pick makes progress** for a guest that can be served: its bundle has the guest, or it takes
somebody ahead of it, and the guest can still be served. -/
theorem pickNext_progress (hq : queue = pre ++ x :: post) (hx : x ∉ pre)
    (hserve : ¬ Unaccompanied R queue x) :
    ∃ bundle, (pickNext R queue).bundle = some bundle ∧ (x ∈ bundle ∨ x ∉ bundle ∧
      ∃ pre' post', (pickNext R queue).queue = pre' ++ x :: post' ∧ x ∉ pre' ∧
        pre'.length < pre.length ∧ ¬ Unaccompanied R (pickNext R queue).queue x) := by
  have hmem : x ∈ queue := by
    rw [hq]
    exact List.mem_append_right _ List.mem_cons_self
  obtain ⟨hall, _⟩ | ⟨scanned, first, rest, hsplit, hpassed, _, hp⟩ := pickNext_cases R queue
  · exact absurd (hall x hmem) hserve
  · rw [hp]
    refine ⟨_, rfl, ?_⟩
    have hin : ∀ y ∈ queue, y ∈ first :: (findFamily R (R.surname first) (scanned ++ rest)).reverse ↔
        R.surname y = R.surname first := by
      intro y hy
      rw [mem_bundle, ← hsplit]
      exact and_iff_right hy
    by_cases hs : R.surname x = R.surname first
    · exact .inl ((hin x hmem).mpr hs)
    · refine .inr ⟨fun h => hs ((hin x hmem).mp h), pre.filter fun g => R.surname g ≠ R.surname first,
        post.filter fun g => R.surname g ≠ R.surname first, ?_, ?_, ?_, ?_⟩
      · rw [hq, List.filter_append, List.filter_cons_of_pos (by simpa using hs)]
      · exact fun h => hx (List.mem_filter.mp h).1
      · -- the first guest of the bundle is ahead of `x`
        have hfirst : first ∈ pre := by
          rcases List.append_eq_append_iff.mp (hsplit.symm.trans hq) with ⟨l, hl, hr⟩ | ⟨l, hl, hr⟩
          · cases l with
            | nil => exact absurd (congrArg R.surname (List.cons.inj hr).1).symm hs
            | cons a l =>
              rw [hl, (List.cons.inj hr).1]
              exact List.mem_append_right scanned List.mem_cons_self
          · cases l with
            | nil => exact absurd (congrArg R.surname (List.cons.inj hr).1) hs
            | cons a l =>
              have hxs : x ∈ scanned := by
                rw [hl, (List.cons.inj hr).1]
                exact List.mem_append_right pre List.mem_cons_self
              exact absurd (hpassed x hxs) hserve
        exact List.length_filter_lt_length_iff_exists.mpr ⟨first, hfirst, by simp⟩
      · -- the adult of the family of `x` stays
        obtain ⟨a, ha, hsa, hma⟩ := exists_adult hserve hmem
        intro hun
        have hstay : a ∈ queue.filter fun g => R.surname g ≠ R.surname first :=
          List.mem_filter.mpr ⟨ha, decide_eq_true (hsa ▸ hs)⟩
        rw [hun.2 a hstay hsa] at hma
        exact Bool.false_ne_true hma.symm

end

/-! ## the picks of a gate's worker -/

namespace World

/-- the bundle of the `_pick_next` that this step calls for the gate, if it does -/
def picked (cfg : Config) (w : World) (g : Nat) : Env → Option (List Nat)
  | .work j =>
    if j = g then (w.heap[g]?).bind fun gate =>
      if gate.worker = .ready then some ((pickNext (w.reads cfg) gate.queue).bundle.getD [])
      else none
    else none
  | .tick _ => none

/-- the bundles of a gate's picks along a run of workers and clock, without calls; one that is `[]`
found nobody -/
def picks (cfg : Config) (g : Nat) : World → List Env → List (List Nat)
  | _, [] => []
  | w, e :: es =>
    match w.env cfg e with
    | some w' => (w.picked cfg g e).toList ++ picks cfg g w' es
    | none => []

/-- how many picks of the gate come before the one that takes the guest -/
def picksBefore (cfg : Config) (w : World) (g x : Nat) (es : List Env) : Nat :=
  ((w.picks cfg g es).takeWhile fun bundle => x ∉ bundle).length

end World

section
variable {cfg : Config} {w w' : World} {g x : Nat} {gate : Gate}

theorem minor_eq (w : World) (x : Nat) :
    w.minor x = ((w.guests.map Arrival.guest)[x]?.map isMinor).getD false := by
  rw [World.minor, List.getElem?_map]
  cases w.guests[x]? <;> rfl

theorem surname_eq (w : World) (x : Nat) : w.surname cfg x =
    ((w.guests.map Arrival.guest)[x]?.map fun g => cfg.lower g.surname).getD "" := by
  rw [World.surname, List.getElem?_map]
  cases w.guests[x]? <;> rfl

theorem unaccompanied_of_guests (h : w'.guests.map Arrival.guest = w.guests.map Arrival.guest)
    (queue : List Nat) (x : Nat) :
    Unaccompanied (w'.reads cfg) queue x ↔ Unaccompanied (w.reads cfg) queue x := by
  have hminor : w'.minor = w.minor := funext fun y => by rw [minor_eq, minor_eq, h]
  have hsurname : w'.surname cfg = w.surname cfg := funext fun y => by rw [surname_eq, surname_eq, h]
  show (w'.minor x = true ∧ ∀ a ∈ queue, w'.surname cfg a = w'.surname cfg x → w'.minor a = true) ↔ _
  rw [hminor, hsurname]
  exact Iff.rfl

theorem env_guests {e : Env} (h : w.env cfg e = some w') :
    w'.guests.map Arrival.guest = w.guests.map Arrival.guest := by
  cases e with
  | work j =>
    have hk := congrArg (List.map fun k : Guest × Int × String => k.1) (work_key h).1
    rw [List.map_map, List.map_map] at hk
    exact hk
  | tick d =>
    obtain rfl := Option.some.inj h
    rfl

/-- the queue of a gate under workers and clock: only a pick of its own worker changes it -/
theorem env_queue {e : Env} (h : w.env cfg e = some w') (hg : w.heap[g]? = some gate) :
    ∃ gate', w'.heap[g]? = some gate' ∧
      (w.picked cfg g e = none ∧ gate'.queue = gate.queue ∨
        w.picked cfg g e = some ((pickNext (w.reads cfg) gate.queue).bundle.getD []) ∧
          gate'.queue = (pickNext (w.reads cfg) gate.queue).queue) := by
  cases e with
  | tick d =>
    obtain rfl := Option.some.inj h
    exact ⟨gate, hg, .inl ⟨rfl, rfl⟩⟩
  | work j =>
    obtain ⟨gate₀, gate', w₁, hg₀, hs, rfl⟩ := work_step h
    by_cases e : j = g
    · subst e
      obtain rfl := Option.some.inj (hg.symm.trans hg₀)
      refine ⟨gate', List.getElem?_set_self (List.getElem?_eq_some_iff.mp hg).1, ?_⟩
      have hpick : w.picked cfg j (.work j) = if gate.worker = .ready then
          some ((pickNext (w.reads cfg) gate.queue).bundle.getD []) else none := by
        rw [World.picked, if_pos rfl, hg]
        rfl
      rw [hpick]
      cases hs with
      | ready hw => exact .inr ⟨if_pos hw, rfl⟩
      | head hw | holding _ _ hw | marking _ hw | processing _ hw | recording _ hw
        | publishing _ _ hw | done hw => exact .inl ⟨if_neg (by rw [hw]; simp), rfl⟩
    · refine ⟨gate, (List.getElem?_set_ne e).trans hg, .inl ⟨if_neg e, rfl⟩⟩

/-- **No more picks come before a guest's own than guests are ahead of it.** -/
theorem picks_before_le {pre post : List Nat} (hg : w.heap[g]? = some gate)
    (hq : gate.queue = pre ++ x :: post) (hx : x ∉ pre)
    (hserve : ¬ Unaccompanied (w.reads cfg) gate.queue x) (es : List Env) :
    w.picksBefore cfg g x es ≤ pre.length := by
  induction es generalizing w gate pre post with
  | nil => exact Nat.zero_le _
  | cons e es ih =>
    rw [World.picksBefore, World.picks]
    cases he : w.env cfg e with
    | none => exact Nat.zero_le _
    | some w' =>
      obtain ⟨gate', hg', ⟨hp, hq'⟩ | ⟨hp, hq'⟩⟩ := env_queue he hg
      · rw [hp]
        refine ih hg' (hq'.trans hq) hx ?_
        rw [unaccompanied_of_guests (env_guests he), hq']
        exact hserve
      · obtain ⟨bundle, hb, hin | ⟨hnot, pre', post', hleft, hx', hlt, hserve'⟩⟩ :=
          pickNext_progress hq hx hserve
        · rw [hp, hb]
          show (List.takeWhile _ (bundle :: _)).length ≤ _
          rw [List.takeWhile_cons_of_neg (by simpa using hin)]
          exact Nat.zero_le _
        · rw [hp, hb]
          show (List.takeWhile _ (bundle :: _)).length ≤ _
          rw [List.takeWhile_cons_of_pos (by simpa using hnot), List.length_cons]
          refine Nat.le_trans (Nat.succ_le_succ (ih hg' (hq'.trans hleft) hx' ?_)) hlt
          rw [unaccompanied_of_guests (env_guests he), hq']
          exact hserve'

/-! ## get_estimated_wait -/

/-- the guest in the booth, as a number of rounds -/
def Gate.inBooth (gate : Gate) : Nat := if gate.currently_processing.isSome then 1 else 0

/-- what the estimate for the guest at place `i` of a queue tells: its number, and that it covers the
rounds before the guest's own, whatever the workers do from now on -/
structure World.Covers (cfg : Config) (w : World) (k : String) (g : Nat) (gate : Gate) (i x : Nat)
    (guest_id : String) : Prop where
  soon : ∀ es, w.picksBefore cfg g x es ≤ i
  estimate : w.estimatedWait guest_id k = some (((i + gate.inBooth : Nat) : Int) * gate.processing_time)
  enough : ∀ es, ∀ wait ∈ w.estimatedWait guest_id k,
    ((w.picksBefore cfg g x es + gate.inBooth : Nat) : Int) * gate.processing_time ≤ wait

/-- the guest is of age, or somebody of its family in the queue is -/
def World.Servable (cfg : Config) (w : World) (gate : Gate) (a : Arrival) : Prop :=
  12 ≤ a.guest.age ∨ ∃ y ∈ gate.queue, ∃ b, w.guests[y]? = some b ∧ 12 ≤ b.guest.age ∧
    cfg.lower b.guest.surname = cfg.lower a.guest.surname

theorem World.Servable.not_unaccompanied {a : Arrival} (h : w.Servable cfg gate a)
    (ha : w.guests[x]? = some a) : ¬ Unaccompanied (w.reads cfg) gate.queue x := by
  rintro ⟨hm, hall⟩
  rcases h with hage | ⟨y, hy, b, hb, hage, hs⟩
  · replace hm : w.minor x = true := hm
    rw [World.minor, ha] at hm
    exact absurd (of_decide_eq_true hm) (Nat.not_lt.mpr hage)
  · have hyx : w.surname cfg y = w.surname cfg x := by
      rw [World.surname, World.surname, ha, hb]
      exact hs
    have hmy : w.minor y = true := hall y hy hyx
    rw [World.minor, hb] at hmy
    exact absurd (of_decide_eq_true hmy) (Nat.not_lt.mpr hage)

/-- **The estimate is never too short.**  For a guest at place `i` of a queue that can be served,
and whose id is that of nobody else in the queue and not that of the guest in the booth. -/
theorem estimate_covers (cfg : Config) (w : World) (k : String) (g i x : Nat) (gate : Gate)
    (a : Arrival) (hk : w.gates.get? k = some g) (hg : w.heap[g]? = some gate)
    (hi : gate.queue[i]? = some x) (ha : w.guests[x]? = some a) (hserve : w.Servable cfg gate a)
    (hid : ∀ j y, gate.queue[j]? = some y → w.hasId a.guest.guest_id y = true → j = i)
    (hbooth : ∀ y ∈ gate.currently_processing, w.hasId a.guest.guest_id y = false)
    (ht : 0 ≤ gate.processing_time) : w.Covers cfg k g gate i x a.guest.guest_id := by
  have hx : w.hasId a.guest.guest_id x = true := by
    rw [World.hasId, ha]
    exact decide_eq_true rfl
  obtain ⟨hlt, hget⟩ := List.getElem?_eq_some_iff.mp hi
  have hlen : (gate.queue.take i).length = i := List.length_take_of_le (Nat.le_of_lt hlt)
  -- nobody ahead has the id
  have hahead : ∀ y ∈ gate.queue.take i, w.hasId a.guest.guest_id y = false := by
    intro y hy
    obtain ⟨j, hj, hyj⟩ := List.getElem_of_mem hy
    rw [List.getElem_take] at hyj
    rw [hlen] at hj
    by_contra hne
    have := hid j y (List.getElem?_eq_some_iff.mpr ⟨_, hyj⟩) (by simpa using hne)
    omega
  have hq : gate.queue = gate.queue.take i ++ x :: gate.queue.drop (i + 1) := by
    rw [← hget, List.getElem_cons_drop, List.take_append_drop]
  have hsoon : ∀ es, w.picksBefore cfg g x es ≤ i := by
    intro es
    have hle := picks_before_le hg hq (fun h => by rw [hahead x h] at hx; exact Bool.false_ne_true hx)
      (hserve.not_unaccompanied ha) es
    rwa [hlen] at hle
  have hest : w.estimatedWait a.guest.guest_id k =
      some (((i + gate.inBooth : Nat) : Int) * gate.processing_time) := by
    have hfind : gate.queue.findIdx? (w.hasId a.guest.guest_id) = some i := by
      refine List.findIdx?_eq_some_iff_getElem.mpr ⟨hlt, hget ▸ hx, fun j hj => ?_⟩
      rw [hahead _ (List.mem_take_iff_getElem.mpr ⟨j, by omega, rfl⟩)]
      exact Bool.false_ne_true
    have hnot : gate.currently_processing.any (w.hasId a.guest.guest_id) = false := by
      cases hcp : gate.currently_processing with
      | none => rfl
      | some y => exact hbooth y hcp
    rw [World.estimatedWait, World.gateAt, hk, Option.bind_some, hg, Option.bind_some, hnot, hfind,
      Gate.inBooth]
    cases gate.currently_processing with
    | none => rfl
    | some y => rfl
  refine ⟨hsoon, hest, fun es wait hwait => ?_⟩
  rw [hest] at hwait
  obtain rfl := Option.some.inj hwait
  refine Int.mul_le_mul_of_nonneg_right ?_ ht
  have := hsoon es
  omega

end

/-- EU-1 with a guest in the booth and one in the queue -/
def oneInBooth : Gate :=
  { gate_id := "EU-1", gate_type := .EU, processing_time := 40, queue := [1],
    currently_processing := some 0, worker := .processing [0] }

theorem oneInBooth_front {w : World} (guest_id : String) (j y : Nat)
    (h : oneInBooth.queue[j]? = some y) (_ : w.hasId guest_id y = true) : j = 0 :=
  Nat.lt_one_iff.mp (List.getElem?_eq_some_iff.mp h).1

theorem oneInBooth_other {w : World} {guest_id : String} (h : w.hasId guest_id 0 = false) :
    ∀ y ∈ oneInBooth.currently_processing, w.hasId guest_id y = false := by
  intro y hy
  rw [← Option.some.inj hy]
  exact h

/-- a fast guest waits behind a standard one in the booth of EU-1 -/
theorem estimate_covers_popescu : ∃ s,
    (airport threeGates).machine.Runs free (State.init threeGates) (whileProcessing popescu) s ∧
    s.shared.gateAt "EU-1" = some oneInBooth ∧ s.shared.estimatedWait "guest-2" "EU-1" = some 40 ∧
    s.shared.Covers threeGates "EU-1" 0 oneInBooth 0 1 "guest-2" := by
  refine ⟨_, Machine.runs_free_iff.mpr rfl, rfl, rfl, ?_⟩
  apply estimate_covers threeGates _ "EU-1" 0 0 1 oneInBooth
    ⟨popescu, 1, .queued, "EU-1", none, none⟩
  · rfl
  · rfl
  · rfl
  · rfl
  · exact .inl (by decide)
  · exact oneInBooth_front "guest-2"
  · exact oneInBooth_other rfl
  · decide

/-- **Two arrivals of one guest.**  The first is in the booth of EU-1 and the second at the front of
the queue; the estimate for the second is that for the first. -/
theorem no_wait_for_namesake : ∃ s a,
    (airport threeGates).machine.Runs free (State.init threeGates) (whileProcessing andrei) s ∧
    s.shared.gates.get? "EU-1" = some 0 ∧ s.shared.heap[0]? = some oneInBooth ∧
    oneInBooth.queue[0]? = some 1 ∧ s.shared.guests[1]? = some a ∧
    s.shared.Servable threeGates oneInBooth a ∧
    (∀ j y, oneInBooth.queue[j]? = some y → s.shared.hasId a.guest.guest_id y = true → j = 0) ∧
    s.shared.estimatedWait a.guest.guest_id "EU-1" = some 0 ∧
    ¬ s.shared.Covers threeGates "EU-1" 0 oneInBooth 0 1 a.guest.guest_id := by
  refine ⟨_, ⟨andrei, 1, .queued, "EU-1", none, none⟩, Machine.runs_free_iff.mpr rfl, rfl, rfl, rfl,
    rfl, .inl (by decide), oneInBooth_front "guest-1", rfl, ?_⟩
  intro h
  have hzero : some ((0 : Int)) = some (((0 + oneInBooth.inBooth : Nat) : Int) * 40) := h.estimate
  exact absurd hzero (by decide)

/-! ## held guests -/

/-- a held guest has no estimate at its gate, and every other guest in a queue has one -/
structure World.WaitsKnown (w : World) : Prop where
  held : ∀ (x : Nat) (a : Arrival), w.guests[x]? = some a → a.status = .held →
    w.estimatedWait a.guest.guest_id a.gate = none
  waiting : ∀ (k : String) (gate : Gate), w.gateAt k = some gate → ∀ x ∈ gate.queue,
    ∀ a : Arrival, w.guests[x]? = some a → a.status ≠ .held → (w.estimatedWait a.guest.guest_id k).isSome

section
variable {cfg : Config} {w w' : World} {g x : Nat} {gate : Gate} {a : Arrival}

/-- every guest in the queue of a gate has an estimate there, held or not -/
theorem estimatedWait_isSome {k : String} (hk : w.gateAt k = some gate) (hx : x ∈ gate.queue)
    (ha : w.guests[x]? = some a) : (w.estimatedWait a.guest.guest_id k).isSome := by
  rw [World.estimatedWait, hk, Option.bind_some]
  split
  · rfl
  · have hany : gate.queue.any (w.hasId a.guest.guest_id) = true := by
      refine List.any_eq_true.mpr ⟨x, hx, ?_⟩
      rw [World.hasId, ha]
      exact decide_eq_true rfl
    rw [← List.findIdx?_isSome] at hany
    obtain ⟨i, hi⟩ := Option.isSome_iff_exists.mp hany
    rw [hi]
    rfl

theorem waitsKnown_of_noneHeld (h : w.NoneHeld) : w.WaitsKnown :=
  ⟨fun _ a ha hst => absurd hst (h.guests a (List.mem_of_getElem? ha)),
    fun _ _ hk _ hx _ ha _ => estimatedWait_isSome hk hx ha⟩

/-- a minor that is alone at the front of the queue stays there and is held -/
theorem pickNext_front {R : Reads Nat} {queue : List Nat} (hx : queue.head? = some x)
    (hun : Unaccompanied R queue x) : x ∈ (pickNext R queue).queue ∧
      x ∉ (pickNext R queue).bundle.getD [] ∧ (x ∈ (pickNext R queue).held ∨ R.held x = true) := by
  obtain ⟨rest, rfl⟩ := List.head?_eq_some_iff.mp hx
  obtain ⟨_, hp⟩ | ⟨scanned, first, post, hq, hpassed, hf, hp⟩ := pickNext_cases R (x :: rest)
  · rw [hp]
    refine ⟨List.mem_cons_self, List.not_mem_nil, ?_⟩
    cases hh : R.held x with
    | true => exact .inr rfl
    | false => exact .inl (List.mem_filter.mpr ⟨List.mem_cons_self, by rw [hh]; rfl⟩)
  · have hfirst : first ∈ x :: rest := by
      rw [hq]
      exact List.mem_append_right scanned List.mem_cons_self
    have hne := surname_ne_of_unaccompanied hun hf hfirst
    rw [hp]
    refine ⟨List.mem_filter.mpr ⟨List.mem_cons_self, decide_eq_true hne⟩, ?_, ?_⟩
    · exact fun h => hne (mem_bundle.mp h).2
    · cases hh : R.held x with
      | true => exact .inr rfl
      | false =>
        -- the front is among those passed over
        have hx : x ∈ scanned := by
          cases scanned with
          | nil => exact absurd (congrArg R.surname (List.cons.inj hq).1) hne
          | cons b scanned =>
            rw [(List.cons.inj hq).1]
            exact List.mem_cons_self
        exact .inl (List.mem_filter.mpr ⟨hx, by rw [hh]; rfl⟩)

/-- a step in which a worker passes over a minor that is alone at the front breaks it, where the
record of the minor names that gate -/
theorem not_waitsKnown_of_passed (hg : w.heap[g]? = some gate) (hr : gate.worker = .ready)
    (hx : gate.queue.head? = some x) (hun : Unaccompanied (w.reads cfg) gate.queue x)
    (ha : w.guests[x]? = some a) (hk : w.gates.get? a.gate = some g)
    (hw : w.work cfg g = some w') : ¬ w'.WaitsKnown := by
  obtain ⟨hstay, hnot, hheld⟩ := pickNext_front hx hun
  have hpick : w' = w.pick cfg g gate := by
    rw [World.work, hg, Option.bind_some, hr] at hw
    exact (Option.some.inj hw).symm
  subst hpick
  -- the record of `x` after the pick
  obtain ⟨b, hb, hbs, hbg, hbi⟩ : ∃ b, (w.pick cfg g gate).guests[x]? = some b ∧ b.status = .held ∧
      b.gate = a.gate ∧ b.guest.guest_id = a.guest.guest_id := by
    refine ⟨if x ∈ (pickNext (w.reads cfg) gate.queue).held then a.hold else a, ?_, ?_, ?_, ?_⟩
    · show (updateAt _ _ (updateAt _ _ w.guests))[x]? = _
      rw [getElem?_updateAt, getElem?_updateAt, ha]
      exact congrArg some (if_neg hnot)
    · split
      · rfl
      · rename_i hn
        have hh : w.isHeld x = true := hheld.resolve_left hn
        rw [World.isHeld, ha] at hh
        exact of_decide_eq_true hh
    · split <;> rfl
    · split <;> rfl
  obtain ⟨gate', hg', hq'⟩ : ∃ gate', (w.pick cfg g gate).gateAt b.gate = some gate' ∧
      x ∈ gate'.queue := by
    have hat : (w.pick cfg g gate).gateAt b.gate = (w.pick cfg g gate).heap[g]? := by
      rw [World.gateAt, hbg]
      show (w.gates.get? a.gate).bind _ = _
      rw [hk]
      rfl
    exact ⟨_, hat.trans (modifyGate_self hg _), hstay⟩
  intro hknown
  have hsome := estimatedWait_isSome hg' hq' hb
  rw [hknown.held x b hb hbs] at hsome
  exact Bool.false_ne_true hsome

end

/-- **Waits are known exactly as promised where nobody is ever held.**  In every state of every run in
which no worker picks while a minor without an adult of its surname is at the front of its queue; and
such a pick breaks it, where the record of the minor names the gate. -/
theorem waits_known_of_escorted (cfg : Config) :
    (∀ (acts : List (PoolAct Api Env Unit)) (s : State),
      (airport cfg).machine.Runs (Escorted cfg) (State.init cfg) acts s → s.shared.WaitsKnown) ∧
    ∀ (s s' : State) (g x : Nat) (gate : Gate) (a : Arrival), s.shared.heap[g]? = some gate →
      gate.worker = .ready → gate.queue.head? = some x →
      Unaccompanied (s.shared.reads cfg) gate.queue x → s.shared.guests[x]? = some a →
      s.shared.gates.get? a.gate = some g → (airport cfg).machine s (.env (.work g)) = some s' →
      ¬ s'.shared.WaitsKnown := by
  refine ⟨fun acts s hrun => waitsKnown_of_noneHeld (run_noneHeld hrun), ?_⟩
  intro s s' g x gate a hg hr hx hun ha hk hm
  obtain ⟨w', hw, rfl⟩ := Sys.machine_env hm
  exact not_waitsKnown_of_passed hg hr hx hun ha hk hw

theorem waits_known_family : ∃ s,
    (airport ⟨id, 1, 1, 40, 60⟩).machine.Runs (Escorted ⟨id, 1, 1, 40, 60⟩)
      (State.init ⟨id, 1, 1, 40, 60⟩) childWithMother s ∧
    s.shared.estimatedWait "guest-3" "ALL-1" = some 0 ∧ s.shared.WaitsKnown :=
  ⟨_, Machine.runs_iff_runG.mpr rfl, rfl,
    (waits_known_of_escorted ⟨id, 1, 1, 40, 60⟩).1 childWithMother _ (Machine.runs_iff_runG.mpr rfl)⟩

/-- **A held child with an estimate.** -/
theorem wait_of_held : ∃ s,
    (airport threeGates).machine.Runs free (State.init threeGates) childAlone s ∧
    s.shared.memory 0 = some .held ∧ s.shared.estimatedWait "guest-2" "EU-1" = some 0 ∧
    ¬ s.shared.WaitsKnown := by
  refine ⟨_, Machine.runs_free_iff.mpr rfl, rfl, rfl, fun h => ?_⟩
  have hnone := h.held 0 ⟨mihai, 0, .held, "EU-1", none, none⟩ rfl rfl
  exact absurd hnone (by decide +kernel)

end Airport
