import Purrlington.Lib.Dict
import Purrlington.Simulation.Calendar

/-!
# Goat farm: the store

`Store` with its items, their purchases and the one timer of the restock.  The lock is held throughout
a call.  Instants are nanoseconds; the clock is read up to four times in a call.

* `Store.stock`, `Store.purchase`      the two calls, both behind `restockIfNeeded`;
* `purchase_cases`                     a purchase is refused and changes nothing, or takes one;
* `Kept`                               what holds after every call: the stocks in their bounds, the
                                       timer set exactly while something is missing;
* `stock_invariant`                    it does.
-/

namespace GoatFarm
open Simulation (truncate)

/-- `c.Now` is a parameter of the calls; `format` is `Format(time.RFC3339)` -/
structure Config where
  simulationStart : Int
  gameSpeed : ℚ
  format : Int → String

def Config.gameNow (c : Config) (now : Int) : Int :=
  let elapsedReal := now - c.simulationStart
  c.simulationStart + truncate (elapsedReal * c.gameSpeed)

structure FarmItem where
  id : String
  name : String
  stock : Int
  maxStock : Int
  deriving DecidableEq

structure StockItem where
  id : String
  name : String
  stock : Int
  maxStock : Int
  deriving DecidableEq

structure StockResponse where
  items : List StockItem
  nextRestockAt : String
  secondsUntilRestock : Int
  deriving DecidableEq

structure Purchase where
  purchaseId : String
  guestId : String
  itemId : String
  itemName : String
  remainingStock : Int
  purchasedAt : String
  nextRestockAt : String
  secondsUntilRestock : Int
  deriving DecidableEq

inductive PurchaseError where
  | unknownItem
  | outOfStock
  | missingGuest
  deriving DecidableEq

/-- a minute in nanoseconds -/
def restockInterval : Int := 60000000000

/-- `restockStartedAt` is `none` for the zero time, which the clock never reads -/
structure Store where
  cfg : Config
  items : Dict String FarmItem
  order : List String
  purchases : Dict String Purchase
  restockStartedAt : Option Int

/-- a table of items that starts full -/
structure Table where
  items : Dict String FarmItem
  full : ∀ id item, items.get? id = some item → item.stock = item.maxStock
  stocked : ∀ id item, items.get? id = some item → 1 ≤ item.maxStock

def newStore (cfg : Config) (table : Table) : Store where
  cfg := cfg
  items := table.items
  order := table.items.keys
  purchases := Dict.empty
  restockStartedAt := none

def goatMilk : FarmItem := { id := "goat_milk", name := "Goat Milk", stock := 5, maxStock := 5 }

def goatCheese : FarmItem := { id := "goat_cheese", name := "Goat Cheese", stock := 3, maxStock := 3 }

/-- the table of `NewStore` -/
def farmTable : Table where
  items := ⟨[("goat_milk", goatMilk), ("goat_cheese", goatCheese)], by decide⟩
  full := by
    intro id item h
    rcases List.mem_cons.mp (Dict.mem_items_iff.mpr h) with e | hmem
    · rw [(Prod.mk.inj e).2]
      rfl
    · rw [(Prod.mk.inj (List.mem_singleton.mp hmem)).2]
      rfl
  stocked := by
    intro id item h
    rcases List.mem_cons.mp (Dict.mem_items_iff.mpr h) with e | hmem
    · rw [(Prod.mk.inj e).2]
      decide
    · rw [(Prod.mk.inj (List.mem_singleton.mp hmem)).2]
      decide

/-- what the clock reads in a call: for the restock, for the timer, for the response, for the game
time -/
structure Readings where
  check : Int
  start : Int
  stock : Int
  game : Int

/-- `int64(math.Ceil(d.Seconds()))` -/
def ceilSeconds (d : Int) : Int := (d + 999999999) / 1000000000

namespace Store

def restockIfNeeded (s : Store) (now : Int) : Store :=
  match s.restockStartedAt with
  | none => s
  | some started =>
    if now < started + restockInterval then s
    else { s with
      items := s.items.mapValues fun _ item => { item with stock := item.maxStock }
      restockStartedAt := none }

def stockLocked (s : Store) (now : Int) : StockResponse :=
  let next := match s.restockStartedAt with
    | none => now + restockInterval
    | some started => started + restockInterval
  let realSeconds := ceilSeconds (next - now)
  { items := s.order.filterMap fun id => (s.items.get? id).map fun item =>
      { id := item.id, name := item.name, stock := item.stock, maxStock := item.maxStock }
    nextRestockAt := s.cfg.format next
    secondsUntilRestock := if realSeconds < 0 then 0 else realSeconds }

def stock (s : Store) (r : Readings) : StockResponse × Store :=
  let s := s.restockIfNeeded r.check
  (s.stockLocked r.stock, s)

/-- the timer starts unless it runs, and one is taken of the item -/
def take (s : Store) (start : Int) (itemId : String) (item : FarmItem) : Store :=
  { s with
    items := s.items.set itemId { item with stock := item.stock - 1 }
    restockStartedAt := match s.restockStartedAt with
      | none => some start
      | some started => some started }

/-- `purchaseId` is what `newID("goat-purchase")` returns -/
def purchase (s : Store) (r : Readings) (purchaseId guestId itemId : String) :
    Except PurchaseError Purchase × Store :=
  let s := s.restockIfNeeded r.check
  if guestId = "" then (.error .missingGuest, s)
  else match s.items.get? itemId with
    | none => (.error .unknownItem, s)
    | some item =>
      if item.stock ≤ 0 then (.error .outOfStock, s)
      else
        let s := s.take r.start itemId item
        let stock := s.stockLocked r.stock
        let purchase : Purchase :=
          { purchaseId, guestId, itemId := item.id, itemName := item.name,
            remainingStock := item.stock - 1
            purchasedAt := s.cfg.format (s.cfg.gameNow r.game)
            nextRestockAt := stock.nextRestockAt
            secondsUntilRestock := stock.secondsUntilRestock }
        (.ok purchase, { s with purchases := s.purchases.set purchase.purchaseId purchase })

end Store

/-- a call, but for the readings -/
inductive Request where
  | stock
  | purchase (purchaseId guestId itemId : String)

def Store.call (s : Store) (r : Readings) : Request → Store
  | .stock => (s.stock r).2
  | .purchase purchaseId guestId itemId => (s.purchase r purchaseId guestId itemId).2

def Store.run (s : Store) (calls : List (Readings × Request)) : Store :=
  calls.foldl (fun s c => s.call c.1 c.2) s

/-! ## one call -/

section
variable (s : Store)

theorem restockStartedAt_take (start : Int) (itemId : String) (item : FarmItem) :
    (s.take start itemId item).restockStartedAt = s.restockStartedAt.or (some start) := by
  unfold Store.take
  cases s.restockStartedAt <;> rfl

theorem restockIfNeeded_cases (now : Int) :
    (s.restockIfNeeded now = s ∧
        ∀ started ∈ s.restockStartedAt, now < started + restockInterval) ∨
      ∃ started, s.restockStartedAt = some started ∧ started + restockInterval ≤ now ∧
        s.restockIfNeeded now = { s with
          items := s.items.mapValues fun _ item => { item with stock := item.maxStock }
          restockStartedAt := none } := by
  unfold Store.restockIfNeeded
  cases h : s.restockStartedAt with
  | none => exact .inl ⟨rfl, nofun⟩
  | some started =>
    dsimp only
    by_cases hlt : now < started + restockInterval
    · rw [if_pos hlt]
      refine .inl ⟨rfl, ?_⟩
      intro started' h'
      rwa [← Option.mem_some.mp h']
    · rw [if_neg hlt]
      exact .inr ⟨started, rfl, Int.not_lt.mp hlt, rfl⟩

theorem purchase_cases (r : Readings) (purchaseId guestId itemId : String) :
    (∃ e, s.purchase r purchaseId guestId itemId = (.error e, s.restockIfNeeded r.check)) ∨
      ∃ item p purchases, (s.restockIfNeeded r.check).items.get? itemId = some item ∧
        0 < item.stock ∧
        s.purchase r purchaseId guestId itemId =
          (.ok p, { (s.restockIfNeeded r.check).take r.start itemId item with purchases }) ∧
        p.secondsUntilRestock =
          (((s.restockIfNeeded r.check).take r.start itemId item).stockLocked
            r.stock).secondsUntilRestock := by
  unfold Store.purchase
  dsimp only
  by_cases hg : guestId = ""
  · rw [if_pos hg]
    exact .inl ⟨_, rfl⟩
  · rw [if_neg hg]
    cases hi : (s.restockIfNeeded r.check).items.get? itemId with
    | none => exact .inl ⟨_, rfl⟩
    | some item =>
      dsimp only
      by_cases h0 : item.stock ≤ 0
      · rw [if_pos h0]
        exact .inl ⟨_, rfl⟩
      · rw [if_neg h0]
        exact .inr ⟨item, _, _, rfl, Int.not_le.mp h0, rfl, rfl⟩

end

/-! ## what every call keeps -/

def Bounded (s : Store) : Prop :=
  ∀ id item, s.items.get? id = some item → 0 ≤ item.stock ∧ item.stock ≤ item.maxStock

def Full (s : Store) : Prop := ∀ id item, s.items.get? id = some item → item.stock = item.maxStock

/-- the stocks are in their bounds, and the timer is set exactly while something is missing -/
structure Kept (s : Store) : Prop where
  stocked : ∀ id item, s.items.get? id = some item → 1 ≤ item.maxStock
  bounded : Bounded s
  timer : s.restockStartedAt = none ↔ Full s

/-- the stock of one item is lower by one, and nothing else of the items has changed -/
def TakesOne (s s' : Store) (itemId : String) : Prop :=
  ∃ item, s.items.get? itemId = some item ∧
    s'.items.get? itemId = some { item with stock := item.stock - 1 } ∧
    ∀ id, id ≠ itemId → s'.items.get? id = s.items.get? id

/-- a purchase that is refused leaves all but a due restock, one that succeeds takes one -/
def Settles (s : Store) (r : Readings) (purchaseId guestId itemId : String) : Prop :=
  match s.purchase r purchaseId guestId itemId with
  | (.error _, s') => s' = s.restockIfNeeded r.check
  | (.ok _, s') => TakesOne (s.restockIfNeeded r.check) s' itemId

theorem settles (s : Store) (r : Readings) (purchaseId guestId itemId : String) :
    Settles s r purchaseId guestId itemId := by
  unfold Settles
  rcases purchase_cases s r purchaseId guestId itemId with
    ⟨e, hp⟩ | ⟨item, p, purchases, hi, -, hp, -⟩
  · rw [hp]
  · rw [hp]
    exact ⟨item, hi, Dict.get?_set_self .., fun id hne => Dict.get?_set_ne _ hne _⟩

theorem Kept.new (cfg : Config) (table : Table) : Kept (newStore cfg table) where
  stocked := table.stocked
  bounded := fun id item h => by
    have := table.full id item h
    have := table.stocked id item h
    omega
  timer := iff_of_true rfl table.full

section
variable {s : Store}

theorem Kept.restockIfNeeded (h : Kept s) (now : Int) : Kept (s.restockIfNeeded now) := by
  rcases restockIfNeeded_cases s now with ⟨e, -⟩ | ⟨started, -, -, e⟩
  · rw [e]
    exact h
  · rw [e]
    have hitem : ∀ id item, (s.items.mapValues fun _ item =>
        { item with stock := item.maxStock }).get? id = some item →
        1 ≤ item.maxStock ∧ item.stock = item.maxStock := by
      intro id item hi
      rw [Dict.get?_mapValues] at hi
      obtain ⟨item', hi', rfl⟩ := Option.map_eq_some_iff.mp hi
      exact ⟨h.stocked id item' hi', rfl⟩
    refine ⟨fun id item hi => (hitem id item hi).1, fun id item hi => ?_,
      iff_of_true rfl fun id item hi => (hitem id item hi).2⟩
    obtain ⟨h1, h2⟩ := hitem id item hi
    omega

theorem Kept.take (h : Kept s) {itemId : String} {item : FarmItem}
    (hi : s.items.get? itemId = some item) (h0 : 0 < item.stock) (start : Int)
    (purchases : Dict String Purchase) : Kept { s.take start itemId item with purchases } := by
  obtain ⟨-, hle⟩ := h.bounded itemId item hi
  have hget : ∀ id it, (s.items.set itemId { item with stock := item.stock - 1 }).get? id = some it →
      it = { item with stock := item.stock - 1 } ∨ s.items.get? id = some it := by
    intro id it hit
    by_cases e : id = itemId
    · rw [e, Dict.get?_set_self] at hit
      exact .inl (Option.some.inj hit).symm
    · rw [Dict.get?_set_ne _ e] at hit
      exact .inr hit
  constructor
  · intro id it hit
    rcases hget id it hit with rfl | hit
    · exact h.stocked itemId item hi
    · exact h.stocked id it hit
  · intro id it hit
    rcases hget id it hit with rfl | hit
    · show 0 ≤ item.stock - 1 ∧ item.stock - 1 ≤ item.maxStock
      omega
    · exact h.bounded id it hit
  · refine iff_of_false ?_ ?_
    · show (s.take start itemId item).restockStartedAt ≠ none
      rw [restockStartedAt_take]
      exact fun e => absurd (Option.or_eq_none_iff.mp e).2 (by simp)
    · intro hall
      have : item.stock - 1 = item.maxStock := hall itemId _ (Dict.get?_set_self ..)
      omega

theorem Kept.call (h : Kept s) (r : Readings) (req : Request) : Kept (s.call r req) := by
  have hr := h.restockIfNeeded r.check
  cases req with
  | stock => exact hr
  | purchase purchaseId guestId itemId =>
    rw [Store.call]
    rcases purchase_cases s r purchaseId guestId itemId with
      ⟨e, hp⟩ | ⟨item, p, purchases, hi, h0, hp, -⟩
    · rw [hp]
      exact hr
    · rw [hp]
      exact hr.take hi h0 r.start purchases

theorem Kept.run (h : Kept s) (calls : List (Readings × Request)) : Kept (s.run calls) := by
  induction calls generalizing s with
  | nil => exact h
  | cons c calls ih => exact ih (h.call c.1 c.2)

end

/-- **The stock invariant.**  After every run of calls the stocks are in their bounds, the timer is unset
exactly if everything is full, and the next purchase changes what it should. -/
theorem stock_invariant (cfg : Config) (table : Table) (calls : List (Readings × Request)) :
    Bounded ((newStore cfg table).run calls) ∧
      (((newStore cfg table).run calls).restockStartedAt = none ↔
        Full ((newStore cfg table).run calls)) ∧
      ∀ r purchaseId guestId itemId,
        Settles ((newStore cfg table).run calls) r purchaseId guestId itemId := by
  have h := (Kept.new cfg table).run calls
  exact ⟨h.bounded, h.timer, settles _⟩

end GoatFarm
