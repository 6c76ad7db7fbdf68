import Purrlington.Crab.Ledger

/-!
# Crab: an order is all or nothing

`PlaceOrder` checks the sums of its lines and serves the lines one by one; Go ranges over a map in
any order.

* `Ranges`, `Store.placeOrderIn`   the orders in which one call ranges over the menu and over what is
                          wanted, and the call itself;
* `placeOrderIn_eq`       they change nothing but the order of the items that are sold out;
* `Sums`                  the sums of an order fit in an `int`;
* `Orderable`             what an order must be to be served;
* `check_ok_iff`          exactly such an order passes the checks;
* `Bought`                what a served order leaves behind;
* `order_all_or_nothing`  the law, with what no permutation of the lines changes.
-/

set_option linter.unusedSectionVars false

namespace CrustyCrab

/-! ## ranging over a map -/

/-- an order in which Go may range over a map with these entries -/
structure RangeOrder (α : Type) where
  list : List α → List α
  perm : ∀ l, (list l).Perm l

/-- the orders of the three loops of one call -/
structure Ranges where
  restocked : RangeOrder String
  checked : RangeOrder (String × Int64)
  listed : RangeOrder String

namespace Menu

/-- `item.Sold = 0` for the item under `id` -/
def reset (m : Menu) (id : String) : Menu :=
  m.update (fun id' it => if id' = id then { it with sold := 0 } else it)
    fun id' it => by split <;> rfl

def restockIn (m : Menu) (r : Ranges) : Menu := (r.restocked.list m.items.keys).foldl reset m

/-- `check` with its loop over `want` in any order -/
def checkIn (m : Menu) (r : Ranges) (lines : List OrderLine) :
    Except OrderError (Dict String Int64) :=
  match m.wanted Dict.empty lines with
  | .error e => .error e
  | .ok want =>
    if want.items.isEmpty then .error .badQuantity
    else if (r.checked.list want.items).any m.short then .error .soldOut
    else .ok want

/-- `soldOut` in the order in which the last loop meets the items -/
def soldOutIn (m : Menu) (r : Ranges) (want : Dict String Int64) : List MenuItem :=
  ((r.listed.list want.keys).filterMap m.items.get?).filter fun it => it.remaining = some 0

end Menu

namespace Store

def restockIfNewDayIn (s : Store) (r : Ranges) (day : Int) : Store :=
  if s.lastRestockDay < day then { s with menu := s.menu.restockIn r, lastRestockDay := day } else s

/-- `PlaceOrder` with the orders of its ranges -/
def placeOrderIn (s : Store) (r : Ranges) (day : Int) (stamp : Stamp) (guestId guestName : String)
    (lines : List OrderLine) : Except OrderError (Order × List MenuItem) × Store :=
  let s := s.restockIfNewDayIn r day
  match s.menu.checkIn r lines with
  | .error e => (.error e, s)
  | .ok want =>
    let (menu, total, resolved) := s.menu.serve 0 [] lines
    let order : Order :=
      { id := stamp.id, guestId, guestName, items := resolved, total, status := "served",
        gameTime := stamp.gameTime, createdAt := stamp.createdAt }
    (.ok (order, menu.soldOutIn r want), { s with menu, orders := s.orders.set order.id order })

end Store

/-! ### the order does not matter -/

section
variable (m : Menu) (r : Ranges)

theorem Menu.ext {m m' : Menu} (h : m.items = m'.items) : m = m' := by
  cases m
  cases m'
  congr

theorem foldl_reset (ids : List String) : (ids.foldl Menu.reset m).items =
    m.items.mapValues fun id it => if id ∈ ids then { it with sold := 0 } else it := by
  induction ids generalizing m with
  | nil =>
    ext1
    exact (List.map_id' m.items.items).symm
  | cons id ids ih =>
    rw [List.foldl_cons, ih, Menu.reset, Menu.update, Dict.mapValues_mapValues]
    congr 1
    funext id' it
    by_cases e : id' = id
    · have hmem : id' ∈ id :: ids := List.mem_cons.mpr (.inl e)
      rw [if_pos hmem, if_pos e]
      split <;> rfl
    · rw [if_neg e]
      exact if_congr (by simp [e]) rfl rfl

theorem restockIn_eq : m.restockIn r = m.restock := by
  apply Menu.ext
  rw [Menu.restockIn, foldl_reset]
  ext1
  apply List.map_congr_left
  intro p hp
  have hmem : p.1 ∈ r.restocked.list m.items.keys :=
    (r.restocked.perm _).mem_iff.mpr (List.mem_map_of_mem hp)
  dsimp only
  rw [if_pos hmem]

theorem restockIfNewDayIn_eq (s : Store) (day : Int) :
    s.restockIfNewDayIn r day = s.restockIfNewDay day := by
  unfold Store.restockIfNewDayIn Store.restockIfNewDay
  rw [restockIn_eq]

theorem checkIn_eq (lines : List OrderLine) : m.checkIn r lines = m.check lines := by
  unfold Menu.checkIn Menu.check
  cases m.wanted Dict.empty lines with
  | error e => rfl
  | ok want =>
    dsimp only
    rw [(r.checked.perm want.items).any_eq]

theorem soldOutIn_perm (want : Dict String Int64) :
    (m.soldOutIn r want).Perm (m.soldOut want) :=
  ((r.listed.perm want.keys).filterMap m.items.get?).filter _

end

/-- **The order of the ranges shows only in the order of the items that are sold out.** -/
theorem placeOrderIn_eq (s : Store) (r : Ranges) (day : Int) (stamp : Stamp)
    (guestId guestName : String) (lines : List OrderLine) :
    (s.placeOrderIn r day stamp guestId guestName lines).2 =
        (s.placeOrder day stamp guestId guestName lines).2 ∧
      ((∃ e, (s.placeOrderIn r day stamp guestId guestName lines).1 = .error e ∧
          (s.placeOrder day stamp guestId guestName lines).1 = .error e) ∨
        ∃ order l l', (s.placeOrderIn r day stamp guestId guestName lines).1 = .ok (order, l) ∧
          (s.placeOrder day stamp guestId guestName lines).1 = .ok (order, l') ∧ l.Perm l') := by
  unfold Store.placeOrderIn Store.placeOrder
  dsimp only
  rw [restockIfNewDayIn_eq, checkIn_eq]
  cases (s.restockIfNewDay day).menu.check lines with
  | error e => exact ⟨rfl, .inl ⟨e, rfl, rfl⟩⟩
  | ok want => exact ⟨rfl, .inr ⟨_, _, _, rfl, rfl, soldOutIn_perm _ r want⟩⟩

/-! ## what is served -/

/-- the value of an `int` -/
def IsInt (n : Int) : Prop := -2 ^ 63 ≤ n ∧ n < 2 ^ 63

instance (n : Int) : Decidable (IsInt n) := inferInstanceAs (Decidable (_ ∧ _))

theorem IsInt.toInt_ofInt {n : Int} (h : IsInt n) : (Int64.ofInt n).toInt = n :=
  Int64.toInt_ofInt_of_le h.1 h.2

theorem IsInt.toInt_add {a : Int64} {n : Int} (h : IsInt (a.toInt + n)) :
    (a + Int64.ofInt n).toInt = a.toInt + n := by
  have ha : a + Int64.ofInt n = Int64.ofInt (a.toInt + n) := by
    rw [Int64.ofInt_add, Int64.ofInt_toInt]
  rw [ha, h.toInt_ofInt]

namespace Menu

/-- the sums of an order fit in an `int`: of each item, what is sold of it then, and the bill where
there is one -/
structure Sums (m : Menu) (lines : List OrderLine) : Prop where
  wanted : ∀ l ∈ lines, IsInt (qtyOf l.itemId lines)
  sold : ∀ p ∈ m.items.items, IsInt (p.2.sold.toInt + qtyOf p.1 lines)
  bill : (∀ l ∈ lines, (m.items.get? l.itemId).isSome) → IsInt (m.bill lines)

/-- what an order must be to be served -/
structure Orderable (m : Menu) (lines : List OrderLine) : Prop where
  nonempty : lines ≠ []
  positive : ∀ l ∈ lines, 0 < l.qty
  known : ∀ l ∈ lines, ∃ it, m.items.get? l.itemId = some it
  enough : ∀ id it r, m.items.get? id = some it → it.remaining = some r →
    qtyOf id lines ≤ r.toInt

section
variable {m : Menu} {lines lines' : List OrderLine}

theorem wanted_ok (hpos : ∀ l ∈ lines, 0 < l.qty)
    (hknown : ∀ l ∈ lines, ∃ it, m.items.get? l.itemId = some it) (w : Dict String Int64) :
    ∃ want, m.wanted w lines = .ok want := by
  induction lines generalizing w with
  | nil => exact ⟨w, rfl⟩
  | cons l lines ih =>
    obtain ⟨it, hit⟩ := hknown l List.mem_cons_self
    rw [wanted, if_neg (Int64.not_le.mpr (hpos l List.mem_cons_self)), hit]
    exact ih (fun l' hl' => hpos l' (List.mem_cons_of_mem _ hl'))
      (fun l' hl' => hknown l' (List.mem_cons_of_mem _ hl')) _

theorem remaining_nonneg {it : MenuItem} {r : Int64} (h : it.remaining = some r) : 0 ≤ r.toInt := by
  unfold MenuItem.remaining at h
  split at h
  · exact absurd h nofun
  · dsimp only at h
    split at h
    · rw [← Option.some.inj h]
      decide
    · rename_i hneg
      rw [← Option.some.inj h]
      exact Int64.le_iff_toInt_le.mp (Int64.not_lt.mp hneg)

/-- **The checks let exactly these orders through.** -/
theorem check_ok_iff (hs : m.Sums lines) : (∃ want, m.check lines = .ok want) ↔ m.Orderable lines := by
  constructor
  · rintro ⟨want, h⟩
    have ha := accepts_of_check h
    refine ⟨ha.some, ha.positive, ha.known, fun id it r hit hr => ?_⟩
    by_cases hmem : ∃ l ∈ lines, l.itemId = id
    · obtain ⟨l, hl, rfl⟩ := hmem
      rw [← (hs.wanted l hl).toInt_ofInt]
      exact Int64.le_iff_toInt_le.mp (ha.enough l hl it hit r hr)
    · rw [qtyOf_eq_zero fun l hl e => hmem ⟨l, hl, e⟩]
      exact remaining_nonneg hr
  · intro h
    obtain ⟨want, hw⟩ := wanted_ok h.positive h.known Dict.empty
    obtain ⟨-, hsum, hmem⟩ := wanted_eq hw
    refine ⟨want, ?_⟩
    rw [check, hw]
    dsimp only
    -- every key of `want` is the id of a line, whose sum is its value
    have hentry : ∀ p ∈ want.items, ∃ l ∈ lines, l.itemId = p.1 ∧
        p.2 = Int64.ofInt (qtyOf p.1 lines) := by
      intro p hp
      have hget : want.get? p.1 = some p.2 := Dict.mem_items_iff.mp hp
      obtain hnone | ⟨l, hl, hid⟩ := (hmem p.1).mp (by rw [hget]; rfl)
      · exact absurd hnone (by simp [Dict.get?, Dict.empty, Dict.find])
      · have hval := hsum p.1
        rw [hget] at hval
        exact ⟨l, hl, hid, hval.trans (Int64.zero_add _)⟩
    have hempty : want.items.isEmpty = false := by
      obtain ⟨l, rest, rfl⟩ := List.exists_cons_of_ne_nil h.nonempty
      obtain ⟨q, hq⟩ := Option.isSome_iff_exists.mp
        ((hmem l.itemId).mpr (.inr ⟨l, List.mem_cons_self, rfl⟩))
      exact List.isEmpty_eq_false_iff.mpr (List.ne_nil_of_mem (Dict.mem_items_iff.mpr hq))
    have hshort : want.items.any m.short = false := by
      apply List.any_eq_false.mpr
      intro p hp hs'
      obtain ⟨l, hl, hid, hval⟩ := hentry p hp
      obtain ⟨it, hit⟩ := h.known l hl
      rw [hid] at hit
      rw [short, hit] at hs'
      cases hr : it.remaining with
      | none => simp [hr] at hs'
      | some r =>
        simp only [Option.bind_some, hr, decide_eq_true_eq] at hs'
        have hle := h.enough p.1 it r hit hr
        have hlt := Int64.lt_iff_toInt_lt.mp hs'
        have hint := hs.wanted l hl
        rw [hid] at hint
        rw [hval, hint.toInt_ofInt] at hlt
        omega
    rw [hempty, hshort]
    rfl

/-! ### the order of the lines -/

theorem qtyOf_perm (h : lines.Perm lines') (id : String) : qtyOf id lines = qtyOf id lines' :=
  (h.map _).sum_eq

theorem bill_perm (m : Menu) (h : lines.Perm lines') : m.bill lines = m.bill lines' :=
  (h.map _).sum_eq

theorem Sums.perm (hs : m.Sums lines) (h : lines.Perm lines') : m.Sums lines' := by
  refine ⟨fun l hl => ?_, fun p hp => ?_, fun hknown => ?_⟩
  · rw [← qtyOf_perm h]
    exact hs.wanted l (h.mem_iff.mpr hl)
  · rw [← qtyOf_perm h]
    exact hs.sold p hp
  · rw [← m.bill_perm h]
    exact hs.bill fun l hl => hknown l (h.mem_iff.mp hl)

theorem Orderable.perm (ho : m.Orderable lines) (h : lines.Perm lines') : m.Orderable lines' where
  nonempty := fun e => ho.nonempty (List.perm_nil.mp (e ▸ h))
  positive := fun l hl => ho.positive l (h.mem_iff.mpr hl)
  known := fun l hl => ho.known l (h.mem_iff.mpr hl)
  enough := fun id it r hit hr => by
    rw [← qtyOf_perm h]
    exact ho.enough id it r hit hr

end
end Menu

/-! ## the law -/

/-- what a served order leaves behind, from the store after the restock -/
structure Bought (s : Store) (stamp : Stamp) (guestId guestName : String) (lines : List OrderLine)
    (order : Order) (s' : Store) : Prop where
  written : order =
    { id := stamp.id, guestId, guestName, items := lines.map s.menu.resolve, total := order.total,
      status := "served", gameTime := stamp.gameTime, createdAt := stamp.createdAt }
  requested : order.items.map OrderLine.part = lines.map OrderLine.part
  total : order.total.toInt = s.menu.bill lines
  sold : ∀ id it, s.menu.items.get? id = some it → ∃ sold,
    s'.menu.items.get? id = some { it with sold } ∧ sold.toInt = it.sold.toInt + qtyOf id lines
  unknown : ∀ id, s.menu.items.get? id = none → s'.menu.items.get? id = none
  stored : s'.orders = s.orders.set stamp.id order
  rest : s'.displayOrder = s.displayOrder ∧ s'.lastRestockDay = s.lastRestockDay

/-- two orders meet the same fate, up to the stored lines -/
structure Agree (p p' : Except OrderError (Order × List MenuItem) × Store) : Prop where
  success : (∃ x, p.1 = .ok x) ↔ ∃ x, p'.1 = .ok x
  sold : ∀ id, p.2.menu.items.get? id = p'.2.menu.items.get? id
  total : ∀ order l order' l', p.1 = .ok (order, l) → p'.1 = .ok (order', l') →
    order.total = order'.total

section
variable (s : Store) (r : Ranges) (day : Int) (stamp : Stamp) (guestId guestName : String)
  {lines lines' : List OrderLine}

theorem placeOrderIn_refused (hs : (s.restockIfNewDay day).menu.Sums lines)
    (h : ¬ (s.restockIfNewDay day).menu.Orderable lines) :
    ∃ e, s.placeOrderIn r day stamp guestId guestName lines = (.error e, s.restockIfNewDay day) := by
  unfold Store.placeOrderIn
  dsimp only
  rw [restockIfNewDayIn_eq, checkIn_eq]
  cases hc : (s.restockIfNewDay day).menu.check lines with
  | error e => exact ⟨e, rfl⟩
  | ok want => exact absurd ((Menu.check_ok_iff hs).mp ⟨want, hc⟩) h

theorem placeOrderIn_served (hs : (s.restockIfNewDay day).menu.Sums lines)
    (h : (s.restockIfNewDay day).menu.Orderable lines) :
    ∃ order l s', s.placeOrderIn r day stamp guestId guestName lines = (.ok (order, l), s') ∧
      Bought (s.restockIfNewDay day) stamp guestId guestName lines order s' ∧
      order.total = Int64.ofInt ((s.restockIfNewDay day).menu.bill lines) ∧
      ∀ id, s'.menu.items.get? id = ((s.restockIfNewDay day).menu.items.get? id).map fun it =>
        { it with sold := it.sold + Int64.ofInt (qtyOf id lines) } := by
  obtain ⟨want, hc⟩ := (Menu.check_ok_iff hs).mpr h
  unfold Store.placeOrderIn
  dsimp only
  rw [restockIfNewDayIn_eq, checkIn_eq, hc]
  have hlines := Menu.serve_lines (s.restockIfNewDay day).menu 0 [] lines h.known
  have htotal := (Menu.serve_total (s.restockIfNewDay day).menu 0 [] lines h.known).trans
    (Int64.zero_add _)
  have hitems := Menu.serve_items (s.restockIfNewDay day).menu 0 [] lines h.known
  have hbill : IsInt ((s.restockIfNewDay day).menu.bill lines) :=
    hs.bill fun l hl => Option.isSome_iff_exists.mpr (h.known l hl)
  refine ⟨_, _, _, rfl, ⟨?_, ?_, ?_, ?_, ?_, rfl, rfl, rfl⟩, htotal, hitems⟩
  · dsimp only
    rw [hlines, List.nil_append]
  · exact Menu.serve_resolved _ 0 [] lines h.known
  · exact (congrArg Int64.toInt htotal).trans hbill.toInt_ofInt
  · intro id it hit
    have hsold := hs.sold (id, it) (Dict.mem_items_iff.mpr hit)
    exact ⟨it.sold + Int64.ofInt (qtyOf id lines), by rw [hitems, hit]; rfl, hsold.toInt_add⟩
  · intro id hnone
    rw [hitems, hnone]
    rfl

/-- **An order is all or nothing.**  For every store and every list of lines whose sums fit, in
whatever order Go ranges over its maps: the order is served exactly if it is one that can be; a
refused one leaves the store as the restock left it; a served one charges every item with the sum of
its lines and is stored with its lines in the order of the request and its bill; and no permutation
of the lines and no other order of the ranges changes this. -/
theorem order_all_or_nothing (hs : (s.restockIfNewDay day).menu.Sums lines) :
    ((∃ x, (s.placeOrderIn r day stamp guestId guestName lines).1 = .ok x) ↔
        (s.restockIfNewDay day).menu.Orderable lines) ∧
      (∀ e, (s.placeOrderIn r day stamp guestId guestName lines).1 = .error e →
        (s.placeOrderIn r day stamp guestId guestName lines).2 = s.restockIfNewDay day) ∧
      (∀ order l, (s.placeOrderIn r day stamp guestId guestName lines).1 = .ok (order, l) →
        Bought (s.restockIfNewDay day) stamp guestId guestName lines order
          (s.placeOrderIn r day stamp guestId guestName lines).2) ∧
      ∀ lines' r', lines.Perm lines' →
        Agree (s.placeOrderIn r day stamp guestId guestName lines)
          (s.placeOrderIn r' day stamp guestId guestName lines') := by
  by_cases h : (s.restockIfNewDay day).menu.Orderable lines
  · obtain ⟨order, l, s', e, hb, htotal, hitems⟩ :=
      placeOrderIn_served s r day stamp guestId guestName hs h
    rw [e]
    refine ⟨⟨fun _ => h, fun _ => ⟨_, rfl⟩⟩, nofun, ?_, ?_⟩
    · intro order' l' e'
      obtain ⟨rfl, rfl⟩ := Prod.mk.inj (Except.ok.inj e')
      exact hb
    · intro lines' r' hp
      obtain ⟨order', l', s'', e', -, htotal', hitems'⟩ :=
        placeOrderIn_served s r' day stamp guestId guestName (hs.perm hp) (h.perm hp)
      rw [e']
      refine ⟨⟨fun _ => ⟨_, rfl⟩, fun _ => ⟨_, rfl⟩⟩, fun id => ?_, ?_⟩
      · rw [hitems, hitems', Menu.qtyOf_perm hp]
      · intro o k o' k' ho ho'
        obtain ⟨rfl, rfl⟩ := Prod.mk.inj (Except.ok.inj ho)
        obtain ⟨rfl, rfl⟩ := Prod.mk.inj (Except.ok.inj ho')
        rw [htotal, htotal', Menu.bill_perm _ hp]
  · obtain ⟨err, e⟩ := placeOrderIn_refused s r day stamp guestId guestName hs h
    rw [e]
    refine ⟨⟨fun ⟨_, hx⟩ => absurd hx nofun, fun hx => absurd hx h⟩, fun _ _ => rfl, nofun, ?_⟩
    intro lines' r' hp
    obtain ⟨err', e'⟩ := placeOrderIn_refused s r' day stamp guestId guestName (hs.perm hp)
      fun h' => h (h'.perm hp.symm)
    rw [e']
    exact ⟨⟨fun ⟨_, hx⟩ => absurd hx nofun, fun ⟨_, hx⟩ => absurd hx nofun⟩, fun _ => rfl, nofun⟩

end

/-- as the menu and the order are written down -/
def inOrder : Ranges := ⟨⟨id, fun l => .refl l⟩, ⟨id, fun l => .refl l⟩, ⟨id, fun l => .refl l⟩⟩

def twicePatty : List OrderLine :=
  [{ itemId := "krabby-patty", qty := 2 }, { itemId := "kelp-fries", qty := 1 },
   { itemId := "krabby-patty", qty := 48 }]

/-- two lines that take all the patties together -/
theorem order_all_or_nothing_patties :
    (newStore seedMenu 0).menu.Orderable twicePatty ∧ ∃ order l s',
      (newStore seedMenu 0).placeOrderIn inOrder 0 ⟨"order-1", "", ""⟩ "g1" "Ana" twicePatty =
        (.ok (order, l), s') ∧
      Bought (newStore seedMenu 0) ⟨"order-1", "", ""⟩ "g1" "Ana" twicePatty order s' := by
  have hs : (newStore seedMenu 0).menu.Sums twicePatty :=
    ⟨by decide, by decide, fun _ => by decide⟩
  obtain ⟨hiff, -, hb, -⟩ :=
    order_all_or_nothing (newStore seedMenu 0) inOrder 0 ⟨"order-1", "", ""⟩ "g1" "Ana" hs
  exact ⟨hiff.mp ⟨_, rfl⟩, _, _, _, rfl, hb _ _ rfl⟩

end CrustyCrab
