import Purrlington.Crab.Store
import Purrlington.Lib.Machine
import Purrlington.Lib.Watermark
import Mathlib.Algebra.Order.Group.Int

/-!
# Crab: the stock ledger

The calls of a run come with the game days that they read.

* `entries`          what a run leaves to be counted: the day of each call and the order it accepted;
* `Fits`             the sums of an order fit in an `int`;
* `InStock`          a limited item is sold at most as often as there is of it;
* `stock_ledger`     what is sold of an item is what was ordered of it since the last restock.
-/

set_option linter.unusedSectionVars false

namespace CrustyCrab
open SM Watermark

inductive Call where
  | menu (day : Int)
  | placeOrder (day : Int) (stamp : Stamp) (guestId guestName : String) (lines : List OrderLine)

def Call.day : Call → Int
  | .menu day => day
  | .placeOrder day _ _ _ _ => day

def Call.lines : Call → List OrderLine
  | .menu _ => []
  | .placeOrder _ _ _ _ lines => lines

namespace Store

def call (s : Store) : Call → Store
  | .menu day => (s.showMenu day).2
  | .placeOrder day stamp guestId guestName lines =>
    (s.placeOrder day stamp guestId guestName lines).2

/-- the order that a call returns with no error -/
def accepted (s : Store) : Call → Option Order
  | .menu _ => none
  | .placeOrder day stamp guestId guestName lines =>
    (s.placeOrder day stamp guestId guestName lines).1.toOption.map Prod.fst

end Store

def machine : Machine Store Call := fun s c => some (s.call c)

structure Entry where
  day : Int
  order : Option Order

def entries : Store → List Call → List Entry
  | _, [] => []
  | s, c :: calls => ⟨c.day, s.accepted c⟩ :: entries (s.call c) calls

/-- the quantity of an item over the accepted orders -/
def soldIn (id : String) (es : List Entry) : Int :=
  (es.map fun e => e.order.elim 0 fun order => qtyOf id order.items).sum

/-- an order of these sums fits in an `int`: what is wanted of an item, and with it what is sold of
an item without limit -/
def Menu.Fits (m : Menu) (lines : List OrderLine) : Prop :=
  ∀ l ∈ lines, qtyOf l.itemId lines < 2 ^ 63 ∧ ∀ it ∈ m.items.get? l.itemId,
    it.dailyStock = none → it.sold.toInt + qtyOf l.itemId lines < 2 ^ 63

/-- a call sums up positive quantities only -/
def Fits (s : Store) (c : Call) : Prop :=
  (∀ l ∈ c.lines, 0 < l.qty) → (s.restockIfNewDay c.day).menu.Fits c.lines

instance (m : Menu) (lines : List OrderLine) : Decidable (m.Fits lines) := by
  unfold Menu.Fits
  infer_instance

instance (s : Store) (c : Call) : Decidable (Fits s c) := by
  unfold Fits
  infer_instance

/-- a limited item is sold at most as often as there is of it -/
def InStock (m : Menu) : Prop :=
  ∀ id it stock, m.items.get? id = some it → it.dailyStock = some stock →
    0 ≤ it.sold ∧ it.sold ≤ stock

/-! ## one call -/

/-- what an accepted order does to the store after the restock -/
structure Served (s : Store) (lines : List OrderLine) (order : Order) (s' : Store) : Prop where
  checked : ∃ want, s.menu.check lines = .ok want
  accepts : s.menu.Accepts lines
  parts : order.items.map OrderLine.part = lines.map OrderLine.part
  total : order.total = Int64.ofInt (s.menu.bill lines)
  day : s'.lastRestockDay = s.lastRestockDay
  items : ∀ id, s'.menu.items.get? id = (s.menu.items.get? id).map fun it =>
    { it with sold := it.sold + Int64.ofInt (qtyOf id lines) }

section
variable (s : Store)

theorem placeOrder_error {day : Int} {lines : List OrderLine} {e : OrderError}
    (h : (s.restockIfNewDay day).menu.check lines = .error e) (stamp : Stamp)
    (guestId guestName : String) :
    s.placeOrder day stamp guestId guestName lines = (.error e, s.restockIfNewDay day) := by
  unfold Store.placeOrder
  dsimp only
  rw [h]

theorem placeOrder_ok {day : Int} {lines : List OrderLine} {want : Dict String Int64}
    (h : (s.restockIfNewDay day).menu.check lines = .ok want) (stamp : Stamp)
    (guestId guestName : String) :
    ∃ order soldOut, (s.placeOrder day stamp guestId guestName lines).1 = .ok (order, soldOut) ∧
      Served (s.restockIfNewDay day) lines order
        (s.placeOrder day stamp guestId guestName lines).2 := by
  have ha := Menu.accepts_of_check h
  unfold Store.placeOrder
  dsimp only
  rw [h]
  refine ⟨_, _, rfl, ⟨want, h⟩, ha, ?_, ?_, rfl, ?_⟩
  · exact Menu.serve_resolved _ _ _ lines ha.known
  · exact (Menu.serve_total _ _ _ lines ha.known).trans (Int64.zero_add _)
  · exact Menu.serve_items _ _ _ lines ha.known

theorem accepted_of_check {c : Call} {want : Dict String Int64}
    (h : (s.restockIfNewDay c.day).menu.check c.lines = .ok want) :
    ∃ order, s.accepted c = some order ∧
      Served (s.restockIfNewDay c.day) c.lines order (s.call c) := by
  cases c with
  | menu day => exact absurd h nofun
  | placeOrder day stamp guestId guestName lines =>
    obtain ⟨order, soldOut, hr, hserved⟩ := placeOrder_ok s h stamp guestId guestName
    exact ⟨order, congrArg (fun r => r.toOption.map Prod.fst) hr, hserved⟩

/-- a call accepts an order, or does no more than a due restock -/
theorem call_eff (c : Call) :
    (s.accepted c = none ∧ s.call c = s.restockIfNewDay c.day) ∨
      ∃ order, s.accepted c = some order ∧
        Served (s.restockIfNewDay c.day) c.lines order (s.call c) := by
  cases c with
  | menu day => exact .inl ⟨rfl, rfl⟩
  | placeOrder day stamp guestId guestName lines =>
    cases h : (s.restockIfNewDay day).menu.check lines with
    | error e =>
      have hr := placeOrder_error s h stamp guestId guestName
      exact .inl ⟨congrArg (fun r => r.1.toOption.map Prod.fst) hr, congrArg Prod.snd hr⟩
    | ok want => exact .inr (accepted_of_check s (c := .placeOrder day stamp guestId guestName lines) h)

end

/-! ## the stock of an item -/

theorem toInt_add_ofInt {a : Int64} {q : Int} (ha : 0 ≤ a.toInt) (hq : 0 ≤ q)
    (h : a.toInt + q < 2 ^ 63) : (a + Int64.ofInt q).toInt = a.toInt + q := by
  rw [Int64.toInt_add, Int64.toInt_ofInt_of_le (by omega) (by omega)]
  exact Int.bmod_eq_of_le (by omega) (by omega)

theorem remaining_eq {it : MenuItem} {stock : Int64} (h : it.dailyStock = some stock)
    (h0 : 0 ≤ it.sold) (hle : it.sold ≤ stock) :
    ∃ r, it.remaining = some r ∧ r.toInt = stock.toInt - it.sold.toInt := by
  rw [Int64.le_iff_toInt_le] at h0 hle
  replace h0 : 0 ≤ it.sold.toInt := h0
  have hlt := stock.toInt_lt
  have hsub : (stock - it.sold).toInt = stock.toInt - it.sold.toInt := by
    rw [Int64.toInt_sub]
    exact Int.bmod_eq_of_le (by omega) (by omega)
  refine ⟨stock - it.sold, ?_, hsub⟩
  have hneg : ¬ stock - it.sold < 0 := by
    rw [Int64.lt_iff_toInt_lt, hsub]
    exact Int.not_lt.mpr (by show (0 : Int) ≤ _; omega)
  rw [MenuItem.remaining, h]
  exact if_neg hneg

theorem qtyOf_eq_zero {id : String} {lines : List OrderLine} (h : ∀ l ∈ lines, l.itemId ≠ id) :
    qtyOf id lines = 0 := by
  unfold qtyOf
  apply List.sum_eq_zero
  intro x hx
  obtain ⟨l, hl, rfl⟩ := List.mem_map.mp hx
  exact if_neg (h l hl)

theorem Menu.Fits.lt {m : Menu} {lines : List OrderLine} (h : m.Fits lines) (id : String) :
    qtyOf id lines < 2 ^ 63 := by
  by_cases hmem : ∃ l ∈ lines, l.itemId = id
  · obtain ⟨l, hl, rfl⟩ := hmem
    exact (h l hl).1
  · rw [qtyOf_eq_zero fun l hl e => hmem ⟨l, hl, e⟩]
    decide

theorem Menu.Fits.add_lt {m : Menu} {lines : List OrderLine} (h : m.Fits lines) {id : String}
    {it : MenuItem} (hit : m.items.get? id = some it) (hd : it.dailyStock = none) :
    it.sold.toInt + qtyOf id lines < 2 ^ 63 := by
  by_cases hmem : ∃ l ∈ lines, l.itemId = id
  · obtain ⟨l, hl, rfl⟩ := hmem
    exact (h l hl).2 it hit hd
  · rw [qtyOf_eq_zero fun l hl e => hmem ⟨l, hl, e⟩, add_zero]
    exact it.sold.toInt_lt

theorem sold_le_stock {m : Menu} {lines : List OrderLine} (ha : m.Accepts lines) (hs : InStock m)
    {id : String} {it : MenuItem} {stock : Int64} (hit : m.items.get? id = some it)
    (hstock : it.dailyStock = some stock) (hq : qtyOf id lines < 2 ^ 63) :
    it.sold.toInt + qtyOf id lines ≤ stock.toInt := by
  obtain ⟨h0, hle⟩ := hs id it stock hit hstock
  have hle' := Int64.le_iff_toInt_le.mp hle
  by_cases hmem : ∃ l ∈ lines, l.itemId = id
  · obtain ⟨l, hl, rfl⟩ := hmem
    obtain ⟨r, hr, hrem⟩ := remaining_eq hstock h0 hle
    have hpos : 0 ≤ qtyOf l.itemId lines := qtyOf_nonneg ha.positive
    have henough := Int64.le_iff_toInt_le.mp (ha.enough l hl it hit r hr)
    rw [Int64.toInt_ofInt_of_le (by omega) hq] at henough
    omega
  · rw [qtyOf_eq_zero fun l hl e => hmem ⟨l, hl, e⟩]
    omega

theorem InStock.restock {m : Menu} (h : InStock m) : InStock m.restock := by
  intro id it stock hit hstock
  rw [Menu.get?_restock] at hit
  obtain ⟨it', hit', rfl⟩ := Option.map_eq_some_iff.mp hit
  obtain ⟨h0, hle⟩ := h id it' stock hit' hstock
  exact ⟨Int64.le_refl 0, Int64.le_trans h0 hle⟩

theorem InStock.restockIfNewDay {s : Store} (h : InStock s.menu) (day : Int) :
    InStock (s.restockIfNewDay day).menu := by
  unfold Store.restockIfNewDay
  split
  · exact h.restock
  · exact h

section
variable {s s' : Store} {lines : List OrderLine} {order : Order}

theorem Served.sold (h : Served s lines order s') {id : String} {it' : MenuItem}
    (hit : s'.menu.items.get? id = some it') :
    ∃ it, s.menu.items.get? id = some it ∧ it'.dailyStock = it.dailyStock ∧ it'.price = it.price ∧
      it'.sold = it.sold + Int64.ofInt (qtyOf id lines) := by
  rw [h.items] at hit
  obtain ⟨it, hit', rfl⟩ := Option.map_eq_some_iff.mp hit
  exact ⟨it, hit', rfl, rfl, rfl⟩

theorem InStock.serve (hs : InStock s.menu) (h : Served s lines order s')
    (hq : ∀ id, qtyOf id lines < 2 ^ 63) : InStock s'.menu := by
  intro id it' stock hit hstock
  obtain ⟨it, hit', hd, -, hsold⟩ := h.sold hit
  rw [hd] at hstock
  have h0 := Int64.le_iff_toInt_le.mp (hs id it stock hit' hstock).1
  have hle := sold_le_stock h.accepts hs hit' hstock (hq id)
  have hpos : 0 ≤ qtyOf id lines := qtyOf_nonneg h.accepts.positive
  have hlt := stock.toInt_lt
  replace h0 : 0 ≤ it.sold.toInt := h0
  rw [Int64.le_iff_toInt_le, Int64.le_iff_toInt_le, hsold, toInt_add_ofInt h0 hpos (by omega)]
  exact ⟨Int.add_nonneg h0 hpos, hle⟩

end

theorem mem_of_foldl_insert {l : List MenuItem} {m : Menu} {id : String} {it : MenuItem}
    (h : (l.foldl Menu.insert m).items.get? id = some it) :
    it ∈ l ∨ m.items.get? id = some it := by
  induction l generalizing m with
  | nil => exact .inr h
  | cons a l ih =>
    rcases ih h with hmem | hm
    · exact .inl (List.mem_cons_of_mem _ hmem)
    · replace hm : (m.items.set a.id a).get? id = some it := hm
      by_cases e : id = a.id
      · rw [e, Dict.get?_set_self] at hm
        exact .inl (Option.some.inj hm ▸ List.mem_cons_self)
      · rw [Dict.get?_set_ne _ e] at hm
        exact .inr hm

theorem mem_of_newStore {seed : SeedMenu} {day : Int} {id : String} {it : MenuItem}
    (h : (newStore seed day).menu.items.get? id = some it) : it ∈ seed.items :=
  (mem_of_foldl_insert h).resolve_right nofun

theorem inStock_new (seed : SeedMenu) (day : Int) : InStock (newStore seed day).menu := by
  intro id it stock hit hstock
  have hmem := mem_of_newStore hit
  rw [seed.unsold it hmem]
  exact ⟨Int64.le_refl 0, seed.stocked it hmem stock hstock⟩

/-! ## the ledger -/

theorem soldIn_snoc (id : String) (es : List Entry) (e : Entry) :
    soldIn id (es ++ [e]) = soldIn id es + e.order.elim 0 fun order => qtyOf id order.items := by
  rw [soldIn, List.map_append, List.sum_append, List.map_singleton, List.sum_singleton]
  rfl

theorem exists_since (first day : Int) (es : List Entry) :
    ∃ l, ∀ order, since Entry.day first (es ++ [⟨day, order⟩]) = l ++ [⟨day, order⟩] := by
  by_cases h : high Entry.day first es < day
  · exact ⟨[], fun order => since_snoc_of_lt h⟩
  · exact ⟨_, fun order => since_snoc_of_le (not_lt.mp h)⟩

/-- the store agrees with the entries so far -/
structure Ledger (first : Int) (es : List Entry) (s : Store) : Prop where
  day : s.lastRestockDay = high Entry.day first es
  sold : ∀ id it, s.menu.items.get? id = some it →
    it.sold.toInt = soldIn id (since Entry.day first es)
  nonneg : ∀ id it, s.menu.items.get? id = some it → 0 ≤ it.sold.toInt
  stock : InStock s.menu

section
variable {first : Int} {es : List Entry} {s s' : Store}

theorem Ledger.new (seed : SeedMenu) (first : Int) : Ledger first [] (newStore seed first) where
  day := rfl
  sold := fun id it hit => by
    rw [seed.unsold it (mem_of_newStore hit)]
    rfl
  nonneg := fun id it hit => by
    rw [seed.unsold it (mem_of_newStore hit)]
    decide
  stock := inStock_new seed first

theorem Ledger.restock (h : Ledger first es s) (day : Int) :
    Ledger first (es ++ [⟨day, none⟩]) (s.restockIfNewDay day) := by
  have hstock := h.stock.restockIfNewDay day
  by_cases hd : s.lastRestockDay < day
  · have hs : s.restockIfNewDay day = { s with menu := s.menu.restock, lastRestockDay := day } :=
      if_pos hd
    have hzero : ∀ id it, (s.restockIfNewDay day).menu.items.get? id = some it →
        it.sold.toInt = 0 := by
      intro id it hit
      rw [hs, Menu.get?_restock] at hit
      obtain ⟨it', _, rfl⟩ := Option.map_eq_some_iff.mp hit
      rfl
    rw [h.day] at hd
    refine ⟨?_, fun id it hit => ?_, fun id it hit => (hzero id it hit).ge, hstock⟩
    · rw [hs, high_snoc]
      exact (max_eq_right hd.le).symm
    · rw [hzero id it hit, since_snoc_of_lt hd]
      rfl
  · have hs : s.restockIfNewDay day = s := if_neg hd
    rw [hs] at hstock ⊢
    rw [h.day] at hd
    refine ⟨?_, fun id it hit => ?_, h.nonneg, hstock⟩
    · rw [h.day, high_snoc]
      exact (max_eq_left (not_lt.mp hd)).symm
    · rw [h.sold id it hit, since_snoc_of_le (not_lt.mp hd), soldIn_snoc]
      exact (add_zero _).symm

theorem Ledger.serve {day : Int} {lines : List OrderLine} {order : Order}
    (h : Ledger first (es ++ [⟨day, none⟩]) s) (hs : Served s lines order s')
    (hf : s.menu.Fits lines) : Ledger first (es ++ [⟨day, some order⟩]) s' := by
  have hpos : ∀ id, 0 ≤ qtyOf id lines := fun id => qtyOf_nonneg hs.accepts.positive
  have hsold : ∀ id it', s'.menu.items.get? id = some it' → ∃ it,
      s.menu.items.get? id = some it ∧ it'.sold.toInt = it.sold.toInt + qtyOf id lines := by
    intro id it' hit'
    obtain ⟨it, hit, -, -, e⟩ := hs.sold hit'
    refine ⟨it, hit, ?_⟩
    have hfit : it.sold.toInt + qtyOf id lines < 2 ^ 63 := by
      cases hd : it.dailyStock with
      | none => exact hf.add_lt hit hd
      | some stock =>
        have := sold_le_stock hs.accepts h.stock hit hd (hf.lt id)
        have := stock.toInt_lt
        omega
    rw [e, toInt_add_ofInt (h.nonneg id it hit) (hpos id) hfit]
  obtain ⟨l, hl⟩ := exists_since first day es
  refine ⟨?_, fun id it' hit' => ?_, fun id it' hit' => ?_, h.stock.serve hs hf.lt⟩
  · rw [hs.day, h.day, high_snoc, high_snoc]
  · obtain ⟨it, hit, e⟩ := hsold id it' hit'
    have hbefore := h.sold id it hit
    rw [hl, soldIn_snoc] at hbefore
    rw [e, hbefore, hl, soldIn_snoc]
    show soldIn id l + 0 + qtyOf id lines = soldIn id l + qtyOf id order.items
    rw [qtyOf_congr hs.parts, add_zero]
  · obtain ⟨it, hit, e⟩ := hsold id it' hit'
    rw [e]
    exact add_nonneg (h.nonneg id it hit) (hpos id)

theorem Ledger.call {c : Call} (h : Ledger first es s) (hf : Fits s c) :
    Ledger first (es ++ [⟨c.day, s.accepted c⟩]) (s.call c) := by
  rcases call_eff s c with ⟨ha, hs⟩ | ⟨order, ha, hs⟩
  · rw [ha, hs]
    exact h.restock c.day
  · rw [ha]
    exact (h.restock c.day).serve hs (hf hs.accepts.positive)

theorem Ledger.run {calls : List Call} (h : Ledger first es s)
    (hrun : machine.Runs Fits s calls s') : Ledger first (es ++ entries s calls) s' := by
  induction calls generalizing s es with
  | nil =>
    obtain rfl := hrun
    rw [entries, List.append_nil]
    exact h
  | cons c calls ih =>
    obtain ⟨hf, t, hc, ht⟩ := hrun
    obtain rfl := Option.some.inj hc
    have := ih (h.call hf) ht
    rw [List.append_assoc] at this
    exact this

end

/-- **The stock ledger is exact.**  After every run of calls whose sums fit: what is sold of an item is
what the accepted orders since the last rise of the day hold of it, the day of the restock is the
greatest read, and what remains of a limited item is its stock less what is sold. -/
theorem stock_ledger (seed : SeedMenu) (first : Int) (calls : List Call) (s : Store)
    (hrun : machine.Runs Fits (newStore seed first) calls s) :
    (∀ id it, s.menu.items.get? id = some it →
      it.sold.toInt =
        soldIn id (since Entry.day first (entries (newStore seed first) calls))) ∧
      s.lastRestockDay = high Entry.day first (entries (newStore seed first) calls) ∧
      ∀ id it stock, s.menu.items.get? id = some it → it.dailyStock = some stock →
        0 ≤ it.sold ∧ it.sold ≤ stock ∧
          ∃ r, it.remaining = some r ∧ r.toInt = stock.toInt - it.sold.toInt := by
  have h := (Ledger.new seed first).run hrun
  rw [List.nil_append] at h
  refine ⟨h.sold, h.day, ?_⟩
  intro id it stock hit hstock
  obtain ⟨h0, hle⟩ := h.stock id it stock hit hstock
  exact ⟨h0, hle, remaining_eq hstock h0 hle⟩

/-- three orders on two days, the first of them before a restock, the last refused -/
def twoDays : List Call :=
  [.placeOrder 0 ⟨"order-1", "", ""⟩ "g1" "Ana"
    [{ itemId := "krabby-patty", qty := 2 }, { itemId := "krabby-patty", qty := 1 }],
   .placeOrder 1 ⟨"order-2", "", ""⟩ "g2" "Bo"
    [{ itemId := "krabby-patty", qty := 4 }, { itemId := "kelp-fries", qty := 1 }],
   .menu 0,
   .placeOrder 1 ⟨"order-3", "", ""⟩ "g1" "Ana" [{ itemId := "krabby-patty", qty := 47 }]]

theorem stock_ledger_two_days :
    ∃ s, machine.Runs Fits (newStore seedMenu 0) twoDays s ∧
      (s.menu.items.get? "krabby-patty").map MenuItem.sold = some 4 ∧
      (∀ id it, s.menu.items.get? id = some it →
        it.sold.toInt =
          soldIn id (since Entry.day 0 (entries (newStore seedMenu 0) twoDays))) ∧
      s.lastRestockDay = high Entry.day 0 (entries (newStore seedMenu 0) twoDays) ∧
      ∀ id it stock, s.menu.items.get? id = some it → it.dailyStock = some stock →
        0 ≤ it.sold ∧ it.sold ≤ stock ∧
          ∃ r, it.remaining = some r ∧ r.toInt = stock.toInt - it.sold.toInt := by
  have hrun : machine.Runs Fits (newStore seedMenu 0) twoDays _ :=
    ⟨by decide, _, rfl, by decide, _, rfl, by decide, _, rfl, by decide, _, rfl, rfl⟩
  exact ⟨_, hrun, by decide, stock_ledger seedMenu 0 twoDays _ hrun⟩

end CrustyCrab
