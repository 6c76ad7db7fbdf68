import Purrlington.GoatFarm.Store
import Purrlington.Lib.Refill

/-!
# Goat farm: how much it can sell

Runs in which each call reads the clock once, and the clock does not go back.

* `events`            the restocks and purchases of a run;
* `refines`           they are those of a supply that is refilled after a minute;
* `supply_bounded`    no early restock, no late one, at most `2 * maxStock` of an item in any minute, and
                      a countdown between 0 and 60.
-/

namespace GoatFarm
open SM
open Refill (Event Supply firstSince taken)

/-- one reading for the whole call -/
def Readings.once (now : Int) : Readings := ⟨now, now, now, now⟩

/-- the store after calls that read the clock once each -/
def Store.timed (s : Store) (calls : List (Int × Request)) : Store :=
  s.run (calls.map fun c => (Readings.once c.1, c.2))

def Due (s : Store) (now : Int) : Prop := ∃ t₀ ∈ s.restockStartedAt, t₀ + restockInterval ≤ now

instance (s : Store) (now : Int) : Decidable (Due s now) := by
  unfold Due
  infer_instance

/-- the item that a request buys -/
def bought (s : Store) (r : Readings) : Request → Option String
  | .stock => none
  | .purchase purchaseId guestId itemId =>
    (s.purchase r purchaseId guestId itemId).1.toOption.map fun _ => itemId

/-- the countdown of a response -/
def secondsUntilRestock (s : Store) (r : Readings) : Request → Option Int
  | .stock => some (s.stock r).1.secondsUntilRestock
  | .purchase purchaseId guestId itemId =>
    (s.purchase r purchaseId guestId itemId).1.toOption.map Purchase.secondsUntilRestock

/-- what a call does: the restock comes first -/
def callEvents (s : Store) (now : Int) (req : Request) : List (Event String) :=
  (if Due s now then [.refill now] else []) ++
    ((bought s (Readings.once now) req).map (Event.take now)).toList

def events : Store → List (Int × Request) → List (Event String)
  | _, [] => []
  | s, c :: calls => callEvents s c.1 c.2 ++ events (s.call (Readings.once c.1) c.2) calls

/-- what there is of an item when it is full -/
def capacity (s : Store) (id : String) : Nat :=
  match s.items.get? id with
  | none => 0
  | some item => item.maxStock.toNat

/-! ## the store as a supply -/

/-- what is missing of each item, and the timer -/
def Store.supply (s : Store) : Supply String where
  first := s.restockStartedAt
  used id := match s.items.get? id with
    | none => 0
    | some item => (item.maxStock - item.stock).toNat

section
variable {s : Store}

theorem restock_refines (s : Store) (now : Int) :
    capacity (s.restockIfNeeded now) = capacity s ∧
      (Refill.supply restockInterval (capacity s)).Runs free s.supply
        (if Due s now then [.refill now] else []) (s.restockIfNeeded now).supply := by
  rcases restockIfNeeded_cases s now with ⟨e, hno⟩ | ⟨t₀, h₀, hle, e⟩
  · have hdue : ¬ Due s now := by
      rintro ⟨t₀, h₀, hle⟩
      have := hno t₀ h₀
      omega
    rw [e, if_neg hdue]
    exact ⟨rfl, rfl⟩
  · have hdue : Due s now := ⟨t₀, h₀, hle⟩
    rw [e, if_pos hdue]
    constructor
    · funext id
      unfold capacity
      dsimp only
      rw [Dict.get?_mapValues]
      cases s.items.get? id <;> rfl
    · refine ⟨trivial, _, if_pos hdue, ?_⟩
      ext1
      · rfl
      · funext id
        unfold Store.supply
        dsimp only
        rw [Dict.get?_mapValues]
        cases s.items.get? id with
        | none => rfl
        | some item => exact (congrArg Int.toNat (Int.sub_self item.maxStock)).symm

theorem take_refines (h : Kept s) {itemId : String} {item : FarmItem}
    (hi : s.items.get? itemId = some item) (h0 : 0 < item.stock) (start : Int)
    (purchases : Dict String Purchase) :
    capacity { s.take start itemId item with purchases } = capacity s ∧
      (Refill.supply restockInterval (capacity s)).Runs free s.supply
        [.take start itemId] ({ s.take start itemId item with purchases } : Store).supply := by
  obtain ⟨-, hle⟩ := h.bounded itemId item hi
  constructor
  · funext id
    unfold capacity Store.take
    dsimp only
    by_cases e : id = itemId
    · rw [e, Dict.get?_set_self, hi]
    · rw [Dict.get?_set_ne _ e]
  · have hused : s.supply.used itemId = (item.maxStock - item.stock).toNat := by
      unfold Store.supply
      dsimp only
      rw [hi]
    have hcap : capacity s itemId = item.maxStock.toNat := by
      unfold capacity
      rw [hi]
    refine ⟨trivial, s.supply.take start itemId, if_pos (by omega), ?_⟩
    ext1
    · exact (restockStartedAt_take s start itemId item).symm
    · funext id
      show (if id = itemId then s.supply.used itemId + 1 else s.supply.used id) = _
      unfold Store.supply Store.take
      dsimp only
      by_cases e : id = itemId
      · subst e
        rw [if_pos rfl, Dict.get?_set_self, hi]
        dsimp only
        omega
      · rw [if_neg e, Dict.get?_set_ne _ e]

theorem call_refines (h : Kept s) (now : Int) (req : Request) :
    capacity (s.call (Readings.once now) req) = capacity s ∧
      (Refill.supply restockInterval (capacity s)).Runs free s.supply (callEvents s now req)
        (s.call (Readings.once now) req).supply := by
  obtain ⟨hcap, hr⟩ := restock_refines s now
  unfold callEvents
  cases req with
  | stock =>
    rw [bought, Option.map_none, Option.toList_none, List.append_nil]
    exact ⟨hcap, hr⟩
  | purchase purchaseId guestId itemId =>
    rw [bought, Store.call]
    rcases purchase_cases s (Readings.once now) purchaseId guestId itemId with
      ⟨e, hp⟩ | ⟨item, p, purchases, hi, h0, hp, -⟩
    · rw [hp]
      have hnil : (((Except.error e : Except PurchaseError Purchase).toOption.map fun _ => itemId).map
          (Event.take now)).toList = [] := rfl
      rw [hnil, List.append_nil]
      exact ⟨hcap, hr⟩
    · rw [hp]
      obtain ⟨hcap', ht⟩ := take_refines (h.restockIfNeeded now) hi h0 now purchases
      rw [hcap] at hcap' ht
      exact ⟨hcap', hr.append ht⟩

/-- **The store refines a supply that is refilled after a minute.** -/
theorem refines (h : Kept s) (calls : List (Int × Request)) :
    capacity (s.timed calls) = capacity s ∧
      (Refill.supply restockInterval (capacity s)).Runs free s.supply (events s calls)
        (s.timed calls).supply := by
  induction calls generalizing s with
  | nil => exact ⟨rfl, rfl⟩
  | cons c calls ih =>
    obtain ⟨hcap, hr⟩ := call_refines h c.1 c.2
    obtain ⟨hcap', hr'⟩ := ih (h.call (Readings.once c.1) c.2)
    rw [hcap] at hcap' hr'
    exact ⟨hcap', hr.append hr'⟩

/-! ## the times of the events -/

theorem mem_callEvents {now : Int} {req : Request} {e : Event String}
    (h : e ∈ callEvents s now req) : e.time = now := by
  rcases List.mem_append.mp h with h | h
  · split at h
    · rw [List.mem_singleton.mp h]
      rfl
    · exact absurd h List.not_mem_nil
  · obtain ⟨id, -, rfl⟩ := Option.map_eq_some_iff.mp (Option.mem_toList.mp h)
    rfl

theorem mem_events {calls : List (Int × Request)} {e : Event String} (h : e ∈ events s calls) :
    ∃ c ∈ calls, c.1 = e.time := by
  induction calls generalizing s with
  | nil => exact absurd h List.not_mem_nil
  | cons c calls ih =>
    rcases List.mem_append.mp h with h | h
    · exact ⟨c, List.mem_cons_self, (mem_callEvents h).symm⟩
    · obtain ⟨c', hc', e'⟩ := ih h
      exact ⟨c', List.mem_cons_of_mem _ hc', e'⟩

theorem events_sorted {calls : List (Int × Request)} (h : (calls.map Prod.fst).Pairwise (· ≤ ·)) :
    ((events s calls).map Event.time).Pairwise (· ≤ ·) := by
  induction calls generalizing s with
  | nil => exact List.Pairwise.nil
  | cons c calls ih =>
    rw [List.map_cons, List.pairwise_cons] at h
    rw [events, List.map_append, List.pairwise_append]
    have hnow : ∀ t ∈ (callEvents s c.1 c.2).map Event.time, t = c.1 := by
      intro t ht
      obtain ⟨e, he, rfl⟩ := List.mem_map.mp ht
      exact mem_callEvents he
    refine ⟨?_, ih h.2, ?_⟩
    · apply List.pairwise_of_forall_mem_list
      intro t ht u hu
      rw [hnow t ht, hnow u hu]
    · intro t ht u hu
      obtain ⟨e, he, rfl⟩ := List.mem_map.mp hu
      obtain ⟨c', hc', e'⟩ := mem_events he
      rw [hnow t ht, ← e']
      exact h.1 _ (List.mem_map_of_mem hc')

/-! ## the countdown -/

/-- a timer that is neither ahead nor due -/
def Running (s : Store) (now : Int) : Prop :=
  ∀ t₀, s.restockStartedAt = some t₀ → t₀ ≤ now ∧ now < t₀ + restockInterval

theorem seconds_of_running {now : Int} (h : Running s now) :
    0 ≤ (s.stockLocked now).secondsUntilRestock ∧ (s.stockLocked now).secondsUntilRestock ≤ 60 := by
  have hbound : ∀ next : Int, now ≤ next → next ≤ now + restockInterval →
      0 ≤ ceilSeconds (next - now) ∧ ceilSeconds (next - now) ≤ 60 := by
    intro next h1 h2
    unfold restockInterval at h2
    unfold ceilSeconds
    omega
  have hclamp : ∀ n : Int, 0 ≤ n ∧ n ≤ 60 → 0 ≤ (if n < 0 then 0 else n) ∧ (if n < 0 then 0 else n) ≤ 60 := by
    intro n hn
    split <;> omega
  unfold Store.stockLocked
  apply hclamp
  cases ht : s.restockStartedAt with
  | none => exact hbound (now + restockInterval) (by unfold restockInterval; omega) le_rfl
  | some t₀ =>
    obtain ⟨h1, h2⟩ := h t₀ ht
    exact hbound (t₀ + restockInterval) h2.le (by omega)

theorem Running.restock {now : Int} (h : ∀ t₀, s.restockStartedAt = some t₀ → t₀ ≤ now) :
    Running (s.restockIfNeeded now) now := by
  rcases restockIfNeeded_cases s now with ⟨e, hno⟩ | ⟨t₀, -, -, e⟩
  · rw [e]
    exact fun t₀ h₀ => ⟨h t₀ h₀, hno t₀ h₀⟩
  · rw [e]
    nofun

theorem Running.take {now : Int} (h : Running s now) (itemId : String) (item : FarmItem) :
    Running (s.take now itemId item) now := by
  intro t₀ h₀
  rw [restockStartedAt_take] at h₀
  rcases Option.or_eq_some_iff.mp h₀ with h₀ | ⟨-, h₀⟩
  · exact h t₀ h₀
  · obtain rfl := Option.some.inj h₀
    unfold restockInterval
    omega

/-- a response counts down from no more than 60 -/
theorem seconds_le {now : Int} (h : ∀ t₀, s.restockStartedAt = some t₀ → t₀ ≤ now) {req : Request}
    {n : Int} (hn : secondsUntilRestock s (Readings.once now) req = some n) : 0 ≤ n ∧ n ≤ 60 := by
  have hrun := Running.restock h
  cases req with
  | stock =>
    obtain rfl := Option.some.inj hn
    exact seconds_of_running hrun
  | purchase purchaseId guestId itemId =>
    rw [secondsUntilRestock] at hn
    rcases purchase_cases s (Readings.once now) purchaseId guestId itemId with
      ⟨e, hp⟩ | ⟨item, p, purchases, hi, h0, hp, hsec⟩
    · rw [hp] at hn
      exact absurd hn nofun
    · rw [hp] at hn
      obtain rfl := Option.some.inj hn
      rw [hsec]
      exact seconds_of_running (hrun.take itemId item)

end

/-! ## runs -/

section
variable (cfg : Config) (table : Table) (calls : List (Int × Request))

theorem kept_timed : Kept ((newStore cfg table).timed calls) := (Kept.new cfg table).run _

theorem refines_new :
    (Refill.supply restockInterval (capacity (newStore cfg table))).Runs free .full
      (events (newStore cfg table) calls) ((newStore cfg table).timed calls).supply := by
  have hfull : (newStore cfg table).supply = Supply.full := by
    ext1
    · rfl
    · funext id
      unfold Store.supply newStore
      dsimp only
      cases hi : table.items.get? id with
      | none => rfl
      | some item =>
        dsimp only
        rw [table.full id item hi, Int.sub_self]
        rfl
  have h := (refines (Kept.new cfg table) calls).2
  rwa [hfull] at h

theorem firstSince_events :
    firstSince (events (newStore cfg table) calls) =
      ((newStore cfg table).timed calls).restockStartedAt :=
  Refill.firstSince_eq (refines_new cfg table calls)

theorem sees_full {now t₀ : Int} (h₀ : firstSince (events (newStore cfg table) calls) = some t₀)
    (hle : t₀ + restockInterval ≤ now) :
    Full (((newStore cfg table).timed calls).restockIfNeeded now) := by
  rw [firstSince_events] at h₀
  have hk := (kept_timed cfg table calls).restockIfNeeded now
  rcases restockIfNeeded_cases ((newStore cfg table).timed calls) now with
    ⟨-, hno⟩ | ⟨t₁, -, -, e⟩
  · have := hno t₀ h₀
    omega
  · apply hk.timer.mp
    rw [e]

theorem timer_le {now : Int} (h : ∀ c ∈ calls, c.1 ≤ now) {t₀ : Int}
    (h₀ : ((newStore cfg table).timed calls).restockStartedAt = some t₀) : t₀ ≤ now := by
  rw [← firstSince_events] at h₀
  obtain ⟨e, he, rfl⟩ := Refill.mem_of_firstSince h₀
  obtain ⟨c, hc, e'⟩ := mem_events he
  rw [← e']
  exact h c hc

/-- **The supply is bounded.**  For calls whose times do not decrease: no restock comes earlier than a
minute after the first purchase since the restock before it; a call a minute after that purchase sees
everything full; of an item, at most `2 * maxStock` are sold in any half-open minute; and the
countdown stays between 0 and 60. -/
theorem supply_bounded (h : (calls.map Prod.fst).Pairwise (· ≤ ·)) :
    (∀ pre t post, events (newStore cfg table) calls = pre ++ .refill t :: post →
      ∃ t₀, firstSince pre = some t₀ ∧ t₀ + restockInterval ≤ t) ∧
    (∀ pre c post, calls = pre ++ c :: post →
      ∀ t₀, firstSince (events (newStore cfg table) pre) = some t₀ → t₀ + restockInterval ≤ c.1 →
        Full (((newStore cfg table).timed pre).restockIfNeeded c.1)) ∧
    (∀ itemId item, table.items.get? itemId = some item → ∀ a,
      (taken itemId a restockInterval (events (newStore cfg table) calls) : Int) ≤
        2 * item.maxStock) ∧
    ∀ pre c post, calls = pre ++ c :: post →
      ∀ n, secondsUntilRestock ((newStore cfg table).timed pre) (Readings.once c.1) c.2 = some n →
        0 ≤ n ∧ n ≤ 60 := by
  refine ⟨?_, ?_, ?_, ?_⟩
  · intro pre t post e
    exact Refill.refill_after (refines_new cfg table calls) e
  · intro pre c post _ t₀ h₀ hle
    exact sees_full cfg table pre h₀ hle
  · intro itemId item hi a
    have hb := Refill.taken_le (events_sorted h) (refines_new cfg table calls) itemId a
    have hcap : capacity (newStore cfg table) itemId = item.maxStock.toNat := by
      unfold capacity newStore
      dsimp only
      rw [hi]
    have := table.stocked itemId item hi
    omega
  · rintro pre c post rfl n hn
    rw [List.map_append, List.map_cons, List.pairwise_append] at h
    refine seconds_le (fun t₀ h₀ => timer_le cfg table pre ?_ h₀) hn
    exact fun c' hc' => h.2.2 _ (List.mem_map_of_mem hc') _ List.mem_cons_self

end

/-- a purchase, another when the minute is over, and one a minute later -/
def threeCalls : List (Int × Request) :=
  [(7, .purchase "p-1" "ana" "goat_milk"), (60000000007, .purchase "p-2" "ana" "goat_milk"),
   (120000000007, .stock)]

def plainConfig : Config := { simulationStart := 0, gameSpeed := 1, format := fun _ => "" }

theorem supply_bounded_three_calls :
    events (newStore plainConfig farmTable) threeCalls =
      [.take 7 "goat_milk", .refill 60000000007, .take 60000000007 "goat_milk",
        .refill 120000000007] ∧
    (taken "goat_milk" 7 restockInterval (events (newStore plainConfig farmTable) threeCalls) : Int) ≤
      2 * 5 :=
  ⟨rfl,
    (supply_bounded plainConfig farmTable threeCalls (by decide)).2.2.1 "goat_milk" goatMilk rfl 7⟩

end GoatFarm
