import Purrlington.Crab.Ledger

/-!
# Crab: orders and overflow

`PlaceOrder` adds and multiplies in `int`, and checks that a quantity is positive but not how large
it is.

* `Honest`           an accepted order keeps the stock, and its total is its bill;
* `Affordable`       the bill of an order that passes the checks fits in an `int`;
* `honest_iff`       the one all along a run exactly when the other;
* `two_lines_wrap`   two lines whose sum does not fit.
-/

set_option linter.unusedSectionVars false

namespace CrustyCrab
open SM

/-- an accepted order keeps the stock, and its total is its bill -/
def Honest (s : Store) (c : Call) : Prop :=
  ∀ order, s.accepted c = some order →
    InStock (s.call c).menu ∧ order.total.toInt = (s.call c).menu.bill order.items

/-- the bill of an order that passes the checks fits in an `int` -/
def Affordable (s : Store) (c : Call) : Prop :=
  (∃ want, (s.restockIfNewDay c.day).menu.check c.lines = .ok want) →
    (s.restockIfNewDay c.day).menu.bill c.lines < 2 ^ 63

/-- nothing is free -/
def Priced (m : Menu) : Prop := ∀ id it, m.items.get? id = some it → 0 < it.price

theorem Priced.restockIfNewDay {s : Store} (h : Priced s.menu) (day : Int) :
    Priced (s.restockIfNewDay day).menu := by
  unfold Store.restockIfNewDay
  split
  · intro id it hit
    rw [Menu.get?_restock] at hit
    obtain ⟨it', hit', rfl⟩ := Option.map_eq_some_iff.mp hit
    exact h id it' hit'
  · exact h

section
variable {s s' : Store} {lines : List OrderLine} {order : Order}

theorem Priced.serve (hp : Priced s.menu) (h : Served s lines order s') : Priced s'.menu := by
  intro id it' hit'
  obtain ⟨it, hit, -, e, -⟩ := h.sold hit'
  rw [e]
  exact hp id it hit

theorem Served.price (h : Served s lines order s') : s'.menu.price = s.menu.price := by
  funext id
  unfold Menu.price
  rw [h.items]
  cases s.menu.items.get? id <;> rfl

theorem Served.bill (h : Served s lines order s') :
    s'.menu.bill order.items = s.menu.bill lines :=
  (Menu.bill_congr h.price _).trans (s.menu.bill_congr_part h.parts)

/-- where nothing is free, an order comes to no less than the quantity of any item -/
theorem qtyOf_le_bill {m : Menu} {lines : List OrderLine} (hp : Priced m)
    (hpos : ∀ l ∈ lines, 0 < l.qty) (hk : ∀ l ∈ lines, ∃ it, m.items.get? l.itemId = some it)
    (id : String) : qtyOf id lines ≤ m.bill lines := by
  induction lines with
  | nil => exact Int.le_refl 0
  | cons l lines ih =>
    have hrest := ih (fun l' hl' => hpos l' (List.mem_cons_of_mem _ hl'))
      fun l' hl' => hk l' (List.mem_cons_of_mem _ hl')
    obtain ⟨it, hit⟩ := hk l List.mem_cons_self
    have hprice : 1 ≤ it.price.toInt := Int64.lt_iff_toInt_lt.mp (hp _ it hit)
    have hq : 0 < l.qty.toInt := Int64.lt_iff_toInt_lt.mp (hpos l List.mem_cons_self)
    have hmul := Int.mul_le_mul_of_nonneg_right hprice hq.le
    rw [qtyOf_cons, Menu.bill_cons, Menu.price_eq hit]
    split <;> omega

theorem bill_nonneg {m : Menu} {lines : List OrderLine} (hp : Priced m) (ha : m.Accepts lines) :
    0 ≤ m.bill lines := by
  have hqty : 0 ≤ qtyOf "" lines := qtyOf_nonneg ha.positive
  exact hqty.trans (qtyOf_le_bill hp ha.positive ha.known "")

end

section
variable {s : Store} {c : Call}

theorem affordable_step (h : InStock s.menu ∧ Priced s.menu) (ha : Affordable s c) :
    InStock (s.call c).menu ∧ Priced (s.call c).menu := by
  have hs₁ := h.1.restockIfNewDay c.day
  have hp₁ := h.2.restockIfNewDay c.day
  rcases call_eff s c with ⟨-, hs⟩ | ⟨order, -, hs⟩
  · rw [hs]
    exact ⟨hs₁, hp₁⟩
  · have hq : ∀ id, qtyOf id c.lines < 2 ^ 63 := fun id =>
      (qtyOf_le_bill hp₁ hs.accepts.positive hs.accepts.known id).trans_lt (ha hs.checked)
    exact ⟨hs₁.serve hs hq, hp₁.serve hs⟩

theorem honest_of_affordable (h : InStock s.menu ∧ Priced s.menu) (ha : Affordable s c) :
    Honest s c := by
  intro order ho
  refine ⟨(affordable_step h ha).1, ?_⟩
  rcases call_eff s c with ⟨hnone, -⟩ | ⟨order', ho', hs⟩
  · rw [hnone] at ho
    exact absurd ho nofun
  · obtain rfl := Option.some.inj (ho'.symm.trans ho)
    have h0 := bill_nonneg (h.2.restockIfNewDay c.day) hs.accepts
    rw [hs.bill, hs.total, Int64.toInt_ofInt_of_le (by omega) (ha hs.checked)]

theorem affordable_of_honest (h : Honest s c) : Affordable s c := by
  rintro ⟨want, hw⟩
  obtain ⟨order, ho, hs⟩ := accepted_of_check s hw
  have htotal := (h order ho).2
  rw [hs.bill] at htotal
  rw [← htotal]
  exact order.total.toInt_lt

end

theorem priced_seedMenu (day : Int) : Priced (newStore seedMenu day).menu := fun _ _ hit =>
  have hall : ∀ it ∈ seedMenu.items, 0 < it.price := by decide
  hall _ (mem_of_newStore hit)

/-- **When orders are honest.**  Over every run of the restaurant with its menu: each order that is
accepted keeps the stock and has its bill for its total, if and only if the bill of each order that
passes the checks fits in an `int`. -/
theorem honest_iff (day : Int) (calls : List Call) (s : Store) :
    machine.Runs Honest (newStore seedMenu day) calls s ↔
      machine.Runs Affordable (newStore seedMenu day) calls s := by
  constructor
  · exact fun h => h.mono fun _ _ => affordable_of_honest
  · intro h
    apply h.guarded
    intro bs t c t' cs _ hr hc _ _
    refine honest_of_affordable (hr.inv (P := fun s => InStock s.menu ∧ Priced s.menu) ?_ ?_) hc
    · intro s c s' hs hg hm
      obtain rfl := Option.some.inj hm
      exact affordable_step hs hg
    · exact ⟨inStock_new seedMenu day, priced_seedMenu day⟩

/-- two lines of the greatest quantity there is -/
def greedy : Call :=
  .placeOrder 0 ⟨"order-1", "", ""⟩ "g1" "Ana"
    [{ itemId := "krabby-patty", qty := 9223372036854775807 },
     { itemId := "krabby-patty", qty := 9223372036854775807 }]

/-- **Two lines whose sum wraps.**  The order passes the check of the stock, less than nothing has been
sold after it, and its total is negative. -/
theorem two_lines_wrap :
    (((newStore seedMenu 0).call greedy).menu.items.get? "krabby-patty").map MenuItem.sold = some (-2) ∧
      ((newStore seedMenu 0).accepted greedy).map Order.total = some (-6) ∧
      ¬ Honest (newStore seedMenu 0) greedy := by
  refine ⟨by decide, by decide, fun h => ?_⟩
  have hstock := (h _ rfl).1 "krabby-patty" _ 50 rfl rfl
  exact absurd hstock.1 (by decide)

end CrustyCrab
