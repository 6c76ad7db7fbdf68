import Purrlington.Crab.Orders

/-!
# Crab: what is sold out is announced once

* `Store.soldOutBy`    the items that a call gives back as sold out;
* `Restocks`           the call finds a new day;
* `Announces`          an accepted order names the items that it sold out, each once;
* `mem_listed_iff`     these are the items of its lines of which nothing is left;
* `SoldOutOf.call`     nothing is left of such an item until the next restock;
* `sold_out_once`      so no two orders between two restocks name it.
-/

set_option linter.unusedSectionVars false

namespace CrustyCrab
open SM

/-- the items that are sold out by the order, as `PlaceOrder` returns them -/
def Store.soldOutBy (s : Store) (r : Ranges) : Call → List MenuItem
  | .menu _ => []
  | .placeOrder day stamp guestId guestName lines =>
    match (s.placeOrderIn r day stamp guestId guestName lines).1 with
    | .error _ => []
    | .ok (_, soldOut) => soldOut

def Store.listed (s : Store) (r : Ranges) (c : Call) : List String :=
  (s.soldOutBy r c).map MenuItem.id

/-- the sums of the quantities of a call fit in an `int` -/
def SumsFit (c : Call) : Prop := ∀ l ∈ c.lines, IsInt (qtyOf l.itemId c.lines)

instance (c : Call) : Decidable (SumsFit c) := inferInstanceAs (Decidable (∀ l ∈ c.lines, _))

/-- the call reads a later day than that of the last restock -/
def Restocks (s : Store) (c : Call) : Prop := s.lastRestockDay < c.day

/-- an item of which nothing is left -/
def SoldOutOf (m : Menu) (id : String) : Prop :=
  ∃ it, m.items.get? id = some it ∧ it.remaining = some 0

/-- an accepted order names exactly the limited items that were ordered in it and of which nothing
is left because of it, and each once -/
structure Announces (s : Store) (r : Ranges) (c : Call) (order : Order) : Prop where
  listed : ∀ id, id ∈ s.listed r c ↔
    (∃ l ∈ order.items, l.itemId = id) ∧ ¬ SoldOutOf (s.restockIfNewDay c.day).menu id ∧
      SoldOutOf (s.call c).menu id
  once : (s.listed r c).Nodup

/-! ## one order -/

theorem qtyOf_pos {lines : List OrderLine} (h : ∀ l ∈ lines, 0 < l.qty) {l : OrderLine}
    (hl : l ∈ lines) : 0 < qtyOf l.itemId lines := by
  induction lines with
  | nil => exact absurd hl List.not_mem_nil
  | cons l' lines ih =>
    have hrest : ∀ k ∈ lines, 0 < k.qty := fun k hk => h k (List.mem_cons_of_mem _ hk)
    have hl' : 0 < l'.qty.toInt := Int64.lt_iff_toInt_lt.mp (h l' List.mem_cons_self)
    rw [qtyOf_cons]
    rcases List.mem_cons.mp hl with rfl | hl
    · have hnonneg : 0 ≤ qtyOf l.itemId lines := qtyOf_nonneg hrest
      rw [if_pos rfl]
      omega
    · have := ih hrest hl
      split <;> omega

namespace Menu

theorem ids_filterMap_sublist (m : Menu) (ids : List String) :
    ((ids.filterMap m.items.get?).map MenuItem.id).Sublist ids := by
  induction ids with
  | nil => exact .slnil
  | cons id ids ih =>
    cases h : m.items.get? id with
    | none =>
      rw [List.filterMap_cons_none h]
      exact ih.cons id
    | some it =>
      rw [List.filterMap_cons_some h, List.map_cons, m.keyed id it h]
      exact ih.cons_cons id

theorem nodup_soldOutIn (m : Menu) (r : Ranges) (want : Dict String Int64) :
    ((m.soldOutIn r want).map MenuItem.id).Nodup := by
  have hkeys : (r.listed.list want.keys).Nodup := (r.listed.perm _).nodup_iff.mpr want.nodup
  have hsub : ((m.soldOutIn r want).map MenuItem.id).Sublist (r.listed.list want.keys) :=
    (List.filter_sublist.map MenuItem.id).trans (m.ids_filterMap_sublist _)
  exact hkeys.sublist hsub

theorem mem_soldOutIn {m : Menu} {r : Ranges} {want : Dict String Int64} {id : String} :
    id ∈ (m.soldOutIn r want).map MenuItem.id ↔ (want.get? id).isSome ∧ SoldOutOf m id := by
  have hkey : id ∈ want.keys ↔ (want.get? id).isSome := by
    rw [← not_iff_not, Bool.not_eq_true, Option.isSome_eq_false_iff, Option.isNone_iff_eq_none]
    exact Dict.find_eq_none.symm
  rw [← hkey, List.mem_map]
  constructor
  · rintro ⟨it, hit, rfl⟩
    obtain ⟨hmem, hzero⟩ := List.mem_filter.mp hit
    obtain ⟨key, hkey, hget⟩ := List.mem_filterMap.mp hmem
    rw [m.keyed key it hget]
    exact ⟨(r.listed.perm _).mem_iff.mp hkey, it, hget, of_decide_eq_true hzero⟩
  · rintro ⟨hkey, it, hget, hzero⟩
    refine ⟨it, List.mem_filter.mpr ⟨?_, decide_eq_true hzero⟩, m.keyed id it hget⟩
    exact List.mem_filterMap.mpr ⟨id, (r.listed.perm _).mem_iff.mpr hkey, hget⟩

theorem Accepts.not_soldOut {m : Menu} {lines : List OrderLine} (ha : m.Accepts lines)
    {l : OrderLine} (hl : l ∈ lines) (hint : IsInt (qtyOf l.itemId lines)) :
    ¬ SoldOutOf m l.itemId := by
  rintro ⟨it, hit, hzero⟩
  have hle := Int64.le_iff_toInt_le.mp (ha.enough l hl it hit 0 hzero)
  rw [hint.toInt_ofInt] at hle
  have hpos := qtyOf_pos ha.positive hl
  have hz : (0 : Int64).toInt = 0 := rfl
  omega

end Menu

section
variable {s : Store} {r : Ranges} {c : Call} {order : Order}

theorem mem_listed_iff (h : s.accepted c = some order) (id : String) :
    id ∈ s.listed r c ↔ (∃ l ∈ c.lines, l.itemId = id) ∧ SoldOutOf (s.call c).menu id := by
  cases c with
  | menu day => cases h
  | placeOrder day stamp guestId guestName lines =>
    cases hc : (s.restockIfNewDay day).menu.check lines with
    | error e =>
      have hr := placeOrder_error s hc stamp guestId guestName
      have hnone := congrArg (fun p => p.1.toOption.map Prod.fst) hr
      cases hnone.symm.trans h
    | ok want =>
      have hlisted : s.listed r (.placeOrder day stamp guestId guestName lines) =
          (((s.restockIfNewDay day).menu.serve 0 [] lines).1.soldOutIn r want).map
            MenuItem.id := by
        unfold Store.listed Store.soldOutBy Store.placeOrderIn
        dsimp only
        rw [restockIfNewDayIn_eq, checkIn_eq, hc]
      have hcall : (s.call (.placeOrder day stamp guestId guestName lines)).menu =
          ((s.restockIfNewDay day).menu.serve 0 [] lines).1 := by
        unfold Store.call Store.placeOrder
        dsimp only
        rw [hc]
      have hwant : (want.get? id).isSome ↔ ∃ l ∈ lines, l.itemId = id := by
        unfold Menu.check at hc
        split at hc
        · cases hc
        · rename_i want' hw
          split at hc
          · cases hc
          · split at hc
            · cases hc
            · obtain rfl := Except.ok.inj hc
              rw [(Menu.wanted_eq hw).2.2 id]
              exact or_iff_right (by simp [Dict.get?, Dict.empty, Dict.find])
      rw [hlisted, Menu.mem_soldOutIn, hcall, hwant]
      rfl

theorem nodup_listed (s : Store) (r : Ranges) (c : Call) : (s.listed r c).Nodup := by
  unfold Store.listed
  cases c with
  | menu day => exact List.nodup_nil
  | placeOrder day stamp guestId guestName lines =>
    unfold Store.soldOutBy Store.placeOrderIn
    dsimp only
    cases (s.restockIfNewDayIn r day).menu.checkIn r lines with
    | error e => exact List.nodup_nil
    | ok want => exact Menu.nodup_soldOutIn _ r want

theorem mem_items_iff_of_parts {lines : List OrderLine} {order : Order}
    (h : order.items.map OrderLine.part = lines.map OrderLine.part) (id : String) :
    (∃ l ∈ order.items, l.itemId = id) ↔ ∃ l ∈ lines, l.itemId = id := by
  have hids : order.items.map OrderLine.itemId = lines.map OrderLine.itemId := by
    have := congrArg (List.map Prod.fst) h
    rwa [List.map_map, List.map_map] at this
  rw [← List.mem_map, ← List.mem_map, hids]

theorem announces (hf : SumsFit c) (h : s.accepted c = some order) : Announces s r c order := by
  refine ⟨fun id => ?_, nodup_listed s r c⟩
  rcases call_eff s c with ⟨hnone, -⟩ | ⟨order', ho', hs⟩
  · exact absurd (hnone.symm.trans h) nofun
  · obtain rfl := Option.some.inj (ho'.symm.trans h)
    rw [mem_listed_iff h, mem_items_iff_of_parts hs.parts]
    constructor
    · rintro ⟨⟨l, hl, rfl⟩, hout⟩
      exact ⟨⟨l, hl, rfl⟩, hs.accepts.not_soldOut hl (hf l hl), hout⟩
    · rintro ⟨hl, -, hout⟩
      exact ⟨hl, hout⟩

/-- **Nothing is left of an item until the next restock.** -/
theorem SoldOutOf.call {id : String} (h : SoldOutOf s.menu id) (hf : SumsFit c)
    (hno : ¬ Restocks s c) : SoldOutOf (s.call c).menu id := by
  have hs₁ : s.restockIfNewDay c.day = s := if_neg hno
  rcases call_eff s c with ⟨-, hs⟩ | ⟨order, -, hs⟩
  · rw [hs, hs₁]
    exact h
  · rw [hs₁] at hs
    -- no line of an accepted order is about it
    have hzero : qtyOf id c.lines = 0 := by
      apply qtyOf_eq_zero
      rintro l hl rfl
      exact hs.accepts.not_soldOut hl (hf l hl) h
    obtain ⟨it, hit, hrem⟩ := h
    refine ⟨it, ?_, hrem⟩
    have hsold : it.sold + Int64.ofInt (qtyOf id c.lines) = it.sold := by
      rw [hzero]
      exact Int64.add_zero _
    rw [hs.items, hit, Option.map_some, hsold]

theorem accepted_of_listed {id : String} (h : id ∈ s.listed r c) :
    ∃ order, s.accepted c = some order := by
  cases c with
  | menu day => exact absurd h List.not_mem_nil
  | placeOrder day stamp guestId guestName lines =>
    rcases (placeOrderIn_eq s r day stamp guestId guestName lines).2 with
      ⟨e, he, -⟩ | ⟨order, l, l', -, ho, -⟩
    · rw [Store.listed, Store.soldOutBy, he] at h
      exact absurd h List.not_mem_nil
    · exact ⟨order, congrArg (fun x => x.toOption.map Prod.fst) ho⟩

/-- what is listed was not sold out before, and is then -/
theorem listed_soldOut {id : String} (hf : SumsFit c) (h : id ∈ s.listed r c) :
    ¬ SoldOutOf (s.restockIfNewDay c.day).menu id ∧ SoldOutOf (s.call c).menu id := by
  obtain ⟨order, ho⟩ := accepted_of_listed h
  exact (((announces hf ho).listed id).mp h).2

end

/-! ## runs -/

/-- without a restock a sold out item stays so -/
theorem SoldOutOf.run {s s' : Store} {calls : List Call} {id : String} (h : SoldOutOf s.menu id)
    (hrun : machine.Runs (fun s c => SumsFit c ∧ ¬ Restocks s c) s calls s') :
    SoldOutOf s'.menu id := by
  refine hrun.inv (P := fun s => SoldOutOf s.menu id) ?_ h
  rintro s c s' h ⟨hf, hno⟩ hm
  obtain rfl := Option.some.inj hm
  exact h.call hf hno

/-- **Sold out is announced once.**  In every run of calls whose sums fit, from any menu: an accepted
order names exactly the limited items that were ordered in it and of which nothing is left because of
it, and each once; and of two orders that name the same item, the later one comes after a restock
that the earlier one has not seen. -/
theorem sold_out_once (seed : SeedMenu) (first : Int) (calls : List Call) (s : Store)
    (hrun : machine.Runs (fun _ c => SumsFit c) (newStore seed first) calls s) :
    (∀ pre c post t r order, calls = pre ++ c :: post →
      machine.Runs free (newStore seed first) pre t → t.accepted c = some order →
        Announces t r c order) ∧
    ∀ pre c₁ mid c₂ post t₁ t₂ r₁ r₂ id, calls = pre ++ c₁ :: (mid ++ c₂ :: post) →
      machine.Runs free (newStore seed first) pre t₁ → machine.Runs free (t₁.call c₁) mid t₂ →
        id ∈ t₁.listed r₁ c₁ → id ∈ t₂.listed r₂ c₂ →
          ∃ mid₁ c mid₂ t, mid ++ [c₂] = mid₁ ++ c :: mid₂ ∧
            machine.Runs free (t₁.call c₁) mid₁ t ∧ Restocks t c := by
  constructor
  · rintro pre c post t r order rfl - ho
    obtain ⟨t', -, hf, -⟩ := hrun.split
    exact announces hf ho
  · rintro pre c₁ mid c₂ post t₁ t₂ r₁ r₂ id rfl hpre hmid h₁ h₂
    obtain ⟨u₁, hu₁, hf₁, v₁, hv₁, hrest⟩ := hrun.split
    obtain rfl := hu₁.det hpre
    obtain rfl := Option.some.inj hv₁
    obtain ⟨u₂, hu₂, hf₂, v₂, hv₂, -⟩ := hrest.split
    obtain rfl := hu₂.det hmid
    by_contra hno
    -- nothing restocks, so what is listed first is still sold out when it is listed again
    have hquiet : machine.Runs (fun s c => SumsFit c ∧ ¬ Restocks s c) (u₁.call c₁) mid u₂ := by
      apply hu₂.guarded
      intro bs t a t' cs e hr hg hm _
      refine ⟨hg, fun hres => hno ⟨bs, a, cs ++ [c₂], t, ?_, hr.mono fun _ _ _ => trivial, hres⟩⟩
      rw [e, List.append_assoc, List.cons_append]
    have hres : ¬ Restocks u₂ c₂ := fun hres => hno ⟨mid, c₂, [], u₂, rfl, hmid, hres⟩
    have hout := ((listed_soldOut hf₁ h₁).2).run hquiet
    have hagain := (listed_soldOut hf₂ h₂).1
    have hsame : u₂.restockIfNewDay c₂.day = u₂ := if_neg hres
    rw [hsame] at hagain
    exact hagain hout

/-- the sundaes are sold out in two lines, and again on the next day -/
def sundaes : List Call :=
  [.placeOrder 0 ⟨"order-1", "", ""⟩ "g1" "Ana"
    [{ itemId := "seaweed-sundae", qty := 9 }, { itemId := "seaweed-sundae", qty := 6 }],
   .placeOrder 0 ⟨"order-2", "", ""⟩ "g2" "Bo" [{ itemId := "seaweed-sundae", qty := 1 }],
   .placeOrder 1 ⟨"order-3", "", ""⟩ "g2" "Bo" [{ itemId := "seaweed-sundae", qty := 15 }]]

theorem sold_out_once_sundaes :
    ∃ s c₁ c₂ c₃, sundaes = [c₁, c₂, c₃] ∧
      machine.Runs (fun _ c => SumsFit c) (newStore seedMenu 0) sundaes s ∧
      (newStore seedMenu 0).listed inOrder c₁ = ["seaweed-sundae"] ∧
      ∃ mid₁ c mid₂ t, [c₂] ++ [c₃] = mid₁ ++ c :: mid₂ ∧
        machine.Runs free ((newStore seedMenu 0).call c₁) mid₁ t ∧ Restocks t c := by
  have hrun : machine.Runs (fun _ c => SumsFit c) (newStore seedMenu 0) sundaes _ :=
    ⟨by decide, _, rfl, by decide, _, rfl, by decide, _, rfl, rfl⟩
  refine ⟨_, _, _, _, rfl, hrun, by decide, ?_⟩
  exact (sold_out_once seedMenu 0 sundaes _ hrun).2 [] _ [_] _ [] _ _ inOrder inOrder
    "seaweed-sundae" rfl rfl ⟨trivial, _, rfl, rfl⟩ (by decide) (by decide)

end CrustyCrab
