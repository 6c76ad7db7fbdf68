import Purrlington.Lib.Dict
import Mathlib.Data.List.Basic
import Mathlib.Algebra.BigOperators.Group.List.Basic
import Mathlib.Algebra.Ring.Int.Defs

/-!
# Crab: the store of the restaurant

`Store` with its menu and its orders.  The lock is held throughout a call.  Go's `int` is `Int64`
here; the game day of a call, the id of an order and its times come from outside.

* `Menu`, `SeedMenu`        items under their ids; a menu as the day begins;
* `Store.placeOrder`        restock, check, serve;
* `Menu.wanted_eq`          what an order wants of an item, summed up in `Int64`;
* `Menu.accepts_of_check`   what the checks say of an order that passes them;
* `Menu.serve_items`, `Menu.serve_total`, `Menu.serve_lines`   what serving it changes and returns.
-/

namespace CrustyCrab

structure MenuItem where
  id : String
  name : String
  emoji : String
  description : String
  price : Int64
  dailyStock : Option Int64
  sold : Int64 := 0
  deriving DecidableEq

def MenuItem.remaining (m : MenuItem) : Option Int64 :=
  match m.dailyStock with
  | none => none
  | some stock =>
    let r := stock - m.sold
    if r < 0 then some 0 else some r

def MenuItem.available (m : MenuItem) : Bool :=
  match m.remaining with
  | none => true
  | some r => 0 < r

structure OrderLine where
  itemId : String
  name : String := ""
  emoji : String := ""
  qty : Int64
  deriving DecidableEq

structure Order where
  id : String
  guestId : String
  guestName : String
  items : List OrderLine
  total : Int64
  status : String
  gameTime : String
  createdAt : String
  deriving DecidableEq

inductive OrderError where
  | unknownItem
  | badQuantity
  | soldOut
  deriving DecidableEq

/-! ## the menu -/

/-- `s.menu`: each item stands under its own id -/
structure Menu where
  items : Dict String MenuItem
  keyed : ∀ id it, items.get? id = some it → it.id = id

namespace Menu

def empty : Menu := ⟨Dict.empty, nofun⟩

def insert (m : Menu) (it : MenuItem) : Menu where
  items := m.items.set it.id it
  keyed := by
    intro id it' h
    by_cases e : id = it.id
    · rw [e, Dict.get?_set_self] at h
      rw [← Option.some.inj h, e]
    · rw [Dict.get?_set_ne _ e] at h
      exact m.keyed id it' h

/-- what an order or a restock does to the items leaves their ids -/
def update (m : Menu) (f : String → MenuItem → MenuItem) (hf : ∀ id it, (f id it).id = it.id) :
    Menu where
  items := m.items.mapValues f
  keyed := by
    intro id it h
    rw [Dict.get?_mapValues] at h
    obtain ⟨it', h', rfl⟩ := Option.map_eq_some_iff.mp h
    rw [hf]
    exact m.keyed id it' h'

def restock (m : Menu) : Menu := m.update (fun _ it => { it with sold := 0 }) fun _ _ => rfl

/-- `item.Sold += qty` for the item under `id` -/
def sell (m : Menu) (id : String) (qty : Int64) : Menu :=
  m.update (fun id' it => if id' = id then { it with sold := it.sold + qty } else it)
    fun id' it => by split <;> rfl

/-- the first loop of `PlaceOrder` -/
def wanted (m : Menu) : Dict String Int64 → List OrderLine → Except OrderError (Dict String Int64)
  | want, [] => .ok want
  | want, l :: lines =>
    if l.qty ≤ 0 then .error .badQuantity
    else match m.items.get? l.itemId with
      | none => .error .unknownItem
      | some item =>
        m.wanted (want.set item.id ((want.get? item.id).getD 0 + l.qty)) lines

/-- less is left of the item than is wanted of it -/
def short (m : Menu) (p : String × Int64) : Bool :=
  match (m.items.get? p.1).bind MenuItem.remaining with
  | none => false
  | some r => r < p.2

/-- the checks of `PlaceOrder`: what is wanted of each item, if all of it can be served -/
def check (m : Menu) (lines : List OrderLine) : Except OrderError (Dict String Int64) :=
  match m.wanted Dict.empty lines with
  | .error e => .error e
  | .ok want =>
    if want.items.isEmpty then .error .badQuantity
    else if want.items.any m.short then .error .soldOut
    else .ok want

/-- the loop that serves the lines, with the total and the resolved lines so far -/
def serve : Menu → Int64 → List OrderLine → List OrderLine → Menu × Int64 × List OrderLine
  | m, total, resolved, [] => (m, total, resolved)
  | m, total, resolved, l :: lines =>
    match m.items.get? l.itemId with
    | none => serve m total resolved lines
    | some item =>
      serve (m.sell l.itemId l.qty) (total + item.price * l.qty)
        (resolved ++ [{ itemId := item.id, name := item.name, emoji := item.emoji, qty := l.qty }])
        lines

/-- the items of an order of which nothing is left; Go ranges over `want` in any order -/
def soldOut (m : Menu) (want : Dict String Int64) : List MenuItem :=
  (want.keys.filterMap m.items.get?).filter fun it => it.remaining = some 0

end Menu

/-! ## the store -/

structure Store where
  menu : Menu
  displayOrder : List String
  orders : Dict String Order
  lastRestockDay : Int

/-- a menu of the beginning of a day -/
structure SeedMenu where
  items : List MenuItem
  unsold : ∀ it ∈ items, it.sold = 0
  stocked : ∀ it ∈ items, ∀ stock ∈ it.dailyStock, 0 ≤ stock

theorem stocked_of_all {items : List MenuItem}
    (h : (items.all fun it => it.dailyStock.all fun stock => decide (0 ≤ stock)) = true) :
    ∀ it ∈ items, ∀ stock ∈ it.dailyStock, 0 ≤ stock := by
  intro it hit stock hstock
  have hit' := List.all_eq_true.mp h it hit
  exact of_decide_eq_true ((Option.all_eq_true _ _).mp hit' stock hstock)

def seedMenu : SeedMenu where
  items := [
    { id := "krabby-patty", name := "Krabby Patty", emoji := "🍔",
      description := "The legendary signature burger. Secret formula.", price := 3,
      dailyStock := some 50 },
    { id := "double-krabby", name := "Double Krabby Patty", emoji := "🍔",
      description := "Twice the patty, twice the purr.", price := 5, dailyStock := some 20 },
    { id := "kelp-fries", name := "Kelp Fries", emoji := "🍟",
      description := "Crispy green fries from the lagoon.", price := 2, dailyStock := none },
    { id := "seafoam-soda", name := "Seafoam Soda", emoji := "🥤",
      description := "Fizzy and faintly salty.", price := 1, dailyStock := none },
    { id := "kelp-shake", name := "Kelp Shake", emoji := "🥤",
      description := "Thick, cold, and surprisingly good.", price := 2, dailyStock := none },
    { id := "seaweed-sundae", name := "Seaweed Sundae", emoji := "🍰",
      description := "Today's sweet catch. Limited batch.", price := 3, dailyStock := some 15 }]
  unsold := by decide
  stocked := stocked_of_all (by decide)

/-- `NewStore` with the menu of `seedMenu()`, on a game day -/
def newStore (seed : SeedMenu) (day : Int) : Store where
  menu := seed.items.foldl Menu.insert Menu.empty
  displayOrder := seed.items.map MenuItem.id
  orders := Dict.empty
  lastRestockDay := day

/-- what a new order is given: `newID("order")` and the two times -/
structure Stamp where
  id : String
  gameTime : String
  createdAt : String

namespace Store

def restockIfNewDay (s : Store) (day : Int) : Store :=
  if s.lastRestockDay < day then { s with menu := s.menu.restock, lastRestockDay := day } else s

def showMenu (s : Store) (day : Int) : List MenuItem × Store :=
  let s := s.restockIfNewDay day
  (s.displayOrder.filterMap s.menu.items.get?, s)

def placeOrder (s : Store) (day : Int) (stamp : Stamp) (guestId guestName : String)
    (lines : List OrderLine) : Except OrderError (Order × List MenuItem) × Store :=
  let s := s.restockIfNewDay day
  match s.menu.check lines with
  | .error e => (.error e, s)
  | .ok want =>
    let (menu, total, resolved) := s.menu.serve 0 [] lines
    let order : Order :=
      { id := stamp.id, guestId, guestName, items := resolved, total, status := "served",
        gameTime := stamp.gameTime, createdAt := stamp.createdAt }
    (.ok (order, menu.soldOut want), { s with menu, orders := s.orders.set order.id order })

end Store

/-! ## what an order wants -/

/-- the quantity of an item over the lines of an order -/
def qtyOf (id : String) (lines : List OrderLine) : Int :=
  (lines.map fun l => if l.itemId = id then l.qty.toInt else 0).sum

theorem qtyOf_cons (id : String) (l : OrderLine) (lines : List OrderLine) :
    qtyOf id (l :: lines) = (if l.itemId = id then l.qty.toInt else 0) + qtyOf id lines := by
  rw [qtyOf, List.map_cons, List.sum_cons]
  rfl

/-- what the sums of an order depend on -/
def OrderLine.part (l : OrderLine) : String × Int64 := (l.itemId, l.qty)

theorem qtyOf_congr {id : String} {lines lines' : List OrderLine}
    (h : lines'.map OrderLine.part = lines.map OrderLine.part) : qtyOf id lines' = qtyOf id lines := by
  have e : ∀ ls, qtyOf id ls =
      ((ls.map OrderLine.part).map fun p => if p.1 = id then p.2.toInt else 0).sum := by
    intro ls
    rw [List.map_map]
    rfl
  rw [e, e, h]

theorem qtyOf_nonneg {id : String} {lines : List OrderLine} (h : ∀ l ∈ lines, 0 < l.qty) :
    0 ≤ qtyOf id lines := by
  induction lines with
  | nil => exact Int.le_refl 0
  | cons l lines ih =>
    have hl : 0 < l.qty.toInt := Int64.lt_iff_toInt_lt.mp (h l List.mem_cons_self)
    have := ih fun l' hl' => h l' (List.mem_cons_of_mem _ hl')
    rw [qtyOf_cons]
    split <;> omega

namespace Menu

/-- an item that is not on the menu has no price -/
def price (m : Menu) (id : String) : Int :=
  match m.items.get? id with
  | none => 0
  | some it => it.price.toInt

/-- the sum of `Price * Qty` over the lines -/
def bill (m : Menu) (lines : List OrderLine) : Int :=
  (lines.map fun l => m.price l.itemId * l.qty.toInt).sum

theorem bill_cons (m : Menu) (l : OrderLine) (lines : List OrderLine) :
    m.bill (l :: lines) = m.price l.itemId * l.qty.toInt + m.bill lines := by
  rw [bill, List.map_cons, List.sum_cons]
  rfl

theorem bill_congr_part (m : Menu) {lines lines' : List OrderLine}
    (h : lines'.map OrderLine.part = lines.map OrderLine.part) : m.bill lines' = m.bill lines := by
  have e : ∀ ls, m.bill ls =
      ((ls.map OrderLine.part).map fun p => m.price p.1 * p.2.toInt).sum := by
    intro ls
    rw [List.map_map]
    rfl
  rw [e, e, h]

theorem price_eq {m : Menu} {id : String} {it : MenuItem} (h : m.items.get? id = some it) :
    m.price id = it.price.toInt := by
  rw [price, h]

@[simp] theorem get?_update (m : Menu) (f : String → MenuItem → MenuItem)
    (hf : ∀ id it, (f id it).id = it.id) (id : String) :
    (m.update f hf).items.get? id = (m.items.get? id).map (f id) := Dict.get?_mapValues m.items f id

theorem get?_restock (m : Menu) (id : String) :
    m.restock.items.get? id = (m.items.get? id).map fun it => { it with sold := 0 } :=
  m.get?_update _ _ id

theorem get?_sell (m : Menu) (id : String) (qty : Int64) (id' : String) :
    (m.sell id qty).items.get? id' = (m.items.get? id').map fun it =>
      if id' = id then { it with sold := it.sold + qty } else it := m.get?_update _ _ id'

theorem price_update (m : Menu) {f : String → MenuItem → MenuItem}
    {hf : ∀ id it, (f id it).id = it.id} (hp : ∀ id it, (f id it).price = it.price) :
    (m.update f hf).price = m.price := by
  funext id
  unfold price
  rw [get?_update]
  cases m.items.get? id with
  | none => rfl
  | some it => exact congrArg Int64.toInt (hp id it)

theorem price_sell (m : Menu) (id : String) (qty : Int64) : (m.sell id qty).price = m.price :=
  m.price_update fun _ _ => by split <;> rfl

theorem bill_congr {m m' : Menu} (h : m'.price = m.price) (lines : List OrderLine) :
    m'.bill lines = m.bill lines := by
  rw [bill, bill, h]

/-! ## the checks -/

section
variable {m : Menu} {w want : Dict String Int64} {lines : List OrderLine}

/-- the lines that pass the first loop, and what is wanted of each item after it -/
theorem wanted_eq (h : m.wanted w lines = .ok want) :
    (∀ l ∈ lines, 0 < l.qty ∧ ∃ it, m.items.get? l.itemId = some it) ∧
      (∀ id, (want.get? id).getD 0 = (w.get? id).getD 0 + Int64.ofInt (qtyOf id lines)) ∧
      ∀ id, (want.get? id).isSome ↔ (w.get? id).isSome ∨ ∃ l ∈ lines, l.itemId = id := by
  induction lines generalizing w with
  | nil =>
    obtain rfl := Except.ok.inj h
    refine ⟨by simp, fun id => ?_, by simp⟩
    exact (Int64.add_zero _).symm
  | cons l lines ih =>
    rw [wanted] at h
    split at h
    · exact absurd h (by simp)
    · rename_i hq
      split at h
      · exact absurd h (by simp)
      · rename_i it hit
        have hid : it.id = l.itemId := m.keyed _ it hit
        rw [hid] at h
        obtain ⟨hl, hsum, hmem⟩ := ih h
        refine ⟨List.forall_mem_cons.mpr ⟨⟨Int64.not_le.mp hq, it, hit⟩, hl⟩, ?_, ?_⟩
        · intro id
          rw [hsum, qtyOf_cons]
          by_cases e : l.itemId = id
          · subst e
            rw [Dict.get?_set_self, if_pos rfl, Option.getD_some, Int64.ofInt_add,
              Int64.ofInt_toInt, Int64.add_assoc]
          · rw [Dict.get?_set_ne _ (fun e' => e e'.symm), if_neg e, Int.zero_add]
        · intro id
          rw [hmem]
          simp only [List.mem_cons, or_and_right, exists_or, exists_eq_left]
          by_cases e : l.itemId = id
          · subst e
            simp
          · rw [Dict.get?_set_ne _ (fun e' => e e'.symm)]
            simp [e]

/-- what an order must be to be accepted -/
structure Accepts (m : Menu) (lines : List OrderLine) : Prop where
  some : lines ≠ []
  positive : ∀ l ∈ lines, 0 < l.qty
  known : ∀ l ∈ lines, ∃ it, m.items.get? l.itemId = .some it
  enough : ∀ l ∈ lines, ∀ it, m.items.get? l.itemId = .some it → ∀ r, it.remaining = .some r →
    Int64.ofInt (qtyOf l.itemId lines) ≤ r

theorem accepts_of_check (h : m.check lines = .ok want) : m.Accepts lines := by
  unfold check at h
  split at h
  · exact absurd h nofun
  · rename_i want' hw
    obtain ⟨hl, hsum, hmem⟩ := wanted_eq hw
    split at h
    · exact absurd h nofun
    · rename_i hne
      split at h
      · exact absurd h nofun
      · rename_i hshort
        refine ⟨?_, fun l hl' => (hl l hl').1, fun l hl' => (hl l hl').2, ?_⟩
        · rintro rfl
          obtain rfl := Except.ok.inj hw
          exact hne rfl
        · intro l hl' it hit r hr
          obtain ⟨q, hq⟩ := Option.isSome_iff_exists.mp ((hmem l.itemId).mpr (.inr ⟨l, hl', rfl⟩))
          have hqe : q = Int64.ofInt (qtyOf l.itemId lines) := by
            have := hsum l.itemId
            rw [hq] at this
            exact this.trans (Int64.zero_add _)
          rw [← hqe]
          by_contra hlt
          refine hshort (List.any_eq_true.mpr ⟨(l.itemId, q), Dict.mem_items_iff.mpr hq, ?_⟩)
          rw [short, hit]
          show (match it.remaining with | none => false | some r => decide (r < q)) = true
          rw [hr]
          exact decide_eq_true (Int64.not_le.mp hlt)

end

/-! ## serving -/

/-- a line as it is stored -/
def resolve (m : Menu) (l : OrderLine) : OrderLine :=
  match m.items.get? l.itemId with
  | none => l
  | some it => { itemId := it.id, name := it.name, emoji := it.emoji, qty := l.qty }

section
variable (m : Menu) (total : Int64) (resolved lines : List OrderLine)

theorem known_sell {l : OrderLine} {lines : List OrderLine} {qty : Int64} {id : String}
    (h : ∀ l' ∈ l :: lines, ∃ it, m.items.get? l'.itemId = some it) :
    ∀ l' ∈ lines, ∃ it, (m.sell id qty).items.get? l'.itemId = some it := by
  intro l' hl'
  obtain ⟨it, hit⟩ := h l' (List.mem_cons_of_mem _ hl')
  exact ⟨_, by rw [get?_sell, hit]; rfl⟩

theorem serve_items (h : ∀ l ∈ lines, ∃ it, m.items.get? l.itemId = some it) (id : String) :
    (m.serve total resolved lines).1.items.get? id = (m.items.get? id).map fun it =>
      { it with sold := it.sold + Int64.ofInt (qtyOf id lines) } := by
  induction lines generalizing m total resolved with
  | nil =>
    rw [serve]
    have hid : (fun it : MenuItem => { it with sold := it.sold + Int64.ofInt (qtyOf id []) }) = fun it => it := by
      funext it
      rw [show it.sold + Int64.ofInt (qtyOf id []) = it.sold from Int64.add_zero _]
    rw [hid, Option.map_id']
  | cons l lines ih =>
    obtain ⟨it, hit⟩ := h l List.mem_cons_self
    rw [serve, hit]
    dsimp only
    rw [ih, get?_sell, Option.map_map]
    · congr 1
      funext it
      rw [qtyOf_cons]
      by_cases e : l.itemId = id
      · subst e
        rw [Function.comp_apply, if_pos rfl, if_pos rfl, Int64.ofInt_add, Int64.ofInt_toInt,
          ← Int64.add_assoc]
      · rw [Function.comp_apply, if_neg (fun e' => e e'.symm), if_neg e, Int.zero_add]
    · exact m.known_sell h

theorem serve_total (h : ∀ l ∈ lines, ∃ it, m.items.get? l.itemId = some it) :
    (m.serve total resolved lines).2.1 = total + Int64.ofInt (m.bill lines) := by
  induction lines generalizing m total resolved with
  | nil => exact (Int64.add_zero _).symm
  | cons l lines ih =>
    obtain ⟨it, hit⟩ := h l List.mem_cons_self
    rw [serve, hit]
    dsimp only
    rw [ih _ _ _ (m.known_sell h), bill_congr (m.price_sell _ _), bill_cons, price_eq hit,
      Int64.ofInt_add, Int64.ofInt_mul, Int64.ofInt_toInt, Int64.ofInt_toInt, Int64.add_assoc]

theorem resolve_of_known {l : OrderLine} {it : MenuItem} (h : m.items.get? l.itemId = some it) :
    m.resolve l = { itemId := it.id, name := it.name, emoji := it.emoji, qty := l.qty } := by
  rw [resolve, h]

theorem resolve_sell (id : String) (qty : Int64) : (m.sell id qty).resolve = m.resolve := by
  funext l
  unfold resolve
  rw [get?_sell]
  cases m.items.get? l.itemId with
  | none => rfl
  | some it =>
    by_cases e : l.itemId = id
    · simp [e]
    · simp [e]

theorem serve_lines (h : ∀ l ∈ lines, ∃ it, m.items.get? l.itemId = some it) :
    (m.serve total resolved lines).2.2 = resolved ++ lines.map m.resolve := by
  induction lines generalizing m total resolved with
  | nil => exact (List.append_nil _).symm
  | cons l lines ih =>
    obtain ⟨it, hit⟩ := h l List.mem_cons_self
    rw [serve, hit]
    dsimp only
    rw [ih _ _ _ (m.known_sell h), resolve_sell, List.map_cons, resolve_of_known m hit,
      List.append_assoc]
    rfl

theorem serve_resolved (h : ∀ l ∈ lines, ∃ it, m.items.get? l.itemId = some it) :
    (m.serve total resolved lines).2.2.map OrderLine.part =
      resolved.map OrderLine.part ++ lines.map OrderLine.part := by
  rw [serve_lines _ _ _ _ h, List.map_append, List.map_map]
  congr 1
  apply List.map_congr_left
  intro l hl
  obtain ⟨it, hit⟩ := h l hl
  rw [Function.comp_apply, resolve_of_known m hit, OrderLine.part, m.keyed _ it hit]
  rfl

end

end Menu

end CrustyCrab
