import Purrlington.Airport.View
import Purrlington.Lib.Column
import Purrlington.Lib.Paging

/-!
# Airport: paging through the arrivals

`GET /arrivals` reads one row more than the limit, cuts the page to the limit and returns the id of
the last row on it as the cursor of the next page.  `int()` reads any integer, of which the database
takes those of 64 bits.

* `Table`                 the rows with their ids, which are a primary key;
* `listArrivals`          the handler, after `int()` on its arguments;
* `listArrivals_cases`    what the answer is: all that is left, a page of it, or an error;
* `Grows`                 the table at a later request: more rows, of greater ids;
* `paging_complete`       following the cursor gives every row of the first table once;
* `answered_iff`          an accepted request is answered exactly if the database takes its numbers, and
                          its limit is not 0 where rows remain.
-/

set_option linter.unusedSectionVars false

namespace Airport
open Paging
open Column (int8)

/-! ## GET /arrivals -/

structure Row where
  id : Int
  arrival : Arrival
  deriving DecidableEq, Repr

/-- the table; the id is its primary key -/
structure Table where
  rows : List Row
  distinct : (rows.map Row.id).Nodup
  ids_fit : ∀ r ∈ rows, int8 r.id = true

/-- an argument that is read by `int()` -/
inductive IntArg where
  | absent
  | invalid
  | int (n : Int)
  deriving DecidableEq, Repr

structure ListRequest where
  status : Option String := none
  passport_type : Option String := none
  limit : IntArg := .absent
  cursor : IntArg := .absent

structure Page where
  arrivals : List Row
  next_cursor : Option Int
  total : Nat
  deriving DecidableEq, Repr

inductive Listing where
  | page (p : Page)
  | badRequest (error : String)
  deriving DecidableEq, Repr

/-- `filter_by` of an argument that is given and not empty -/
def passes (arg : Option String) (column : String) : Bool :=
  match arg with
  | some s => s = "" || column = s
  | none => true

def ListRequest.matches (req : ListRequest) (r : Row) : Bool :=
  passes req.status r.arrival.status.text &&
    passes req.passport_type r.arrival.guest.passport_type.text

/-- `Arrival.id < cursor_id`, where there is a cursor -/
def below (cursor : Option Int) (id : Int) : Bool :=
  match cursor with
  | some c => id < c
  | none => true

/-- the rows of the query with a limit: `query.limit(limit + 1).all()`, cut to the page -/
def cut (limit : Nat) (rows : List Row) : Except String (List Row × Option Int) :=
  let arrivals := rows.take (limit + 1)
  if arrivals.length > limit then
    let arrivals := arrivals.take limit
    match arrivals.getLast? with
    | some last => .ok (arrivals, some last.id)
    | none => .error "list index out of range"
  else .ok (arrivals, none)

/-- the `OverflowError` of sqlite3 for a parameter beyond 64 bits -/
def overflow : String := "Python int too large to convert to SQLite INTEGER"

def listArrivals (t : Table) (req : ListRequest) : Except String Listing :=
  let query := t.rows.filter req.matches
  let total := query.length
  let answer (cursor : Option Int) : Except String Listing :=
    let query := descending Row.id (query.filter fun r => below cursor r.id)
    match req.limit with
    | .absent => if cursor.all int8 then .ok (.page ⟨query, none, total⟩) else .error overflow
    | .invalid => .ok (.badRequest "Invalid limit")
    | .int limit =>
      if limit < 0 then .ok (.badRequest "Limit must be non-negative")
      else if int8 (limit + 1) && cursor.all int8 then
        (cut limit.toNat query).map fun (arrivals, next) => .page ⟨arrivals, next, total⟩
      else .error overflow
  match req.cursor with
  | .absent => answer none
  | .invalid => .ok (.badRequest "Invalid cursor")
  | .int c => answer (some c)

/-! ## one page -/

section
variable {limit : Nat} {rows : List Row}

theorem cut_of_le (h : rows.length ≤ limit) : cut limit rows = .ok (rows, none) := by
  have htake : rows.take (limit + 1) = rows := List.take_of_length_le (Nat.le_succ_of_le h)
  rw [cut, htake]
  exact if_neg (Nat.not_lt.mpr h)

theorem cut_of_lt (h : limit < rows.length) : cut limit rows =
    match (rows.take limit).getLast? with
    | some last => .ok (rows.take limit, some last.id)
    | none => .error "list index out of range" := by
  have hlen : (rows.take (limit + 1)).length > limit := by
    rw [List.length_take]
    omega
  rw [cut]
  refine (if_pos hlen).trans ?_
  rw [List.take_take, Nat.min_eq_left (Nat.le_succ limit)]

theorem cut_pos (hl : 0 < limit) (h : limit < rows.length) :
    ∃ last, (rows.take limit).getLast? = some last ∧
      cut limit rows = .ok (rows.take limit, some last.id) := by
  have hne : rows.take limit ≠ [] := by
    apply List.ne_nil_of_length_pos
    rw [List.length_take]
    omega
  have hlast := List.getLast?_eq_some_getLast hne
  refine ⟨_, hlast, ?_⟩
  rw [cut_of_lt h, hlast]

end

/-- an argument that is absent or an integer -/
def argOf : Option Int → IntArg
  | some n => .int n
  | none => .absent

section
variable {t : Table} {status passport_type : Option String} {cursor : Option Int} {limit : Int}

/-- the rows of the query, in order -/
def Table.query (t : Table) (req : ListRequest) (cursor : Option Int) : List Row :=
  descending Row.id ((t.rows.filter req.matches).filter fun r => below cursor r.id)

/-- the database takes the parameters of the query -/
def Binds (cursor : Option Int) (limit : Int) : Prop := int8 (limit + 1) = true ∧ cursor.all int8 = true

instance (cursor : Option Int) (limit : Int) : Decidable (Binds cursor limit) :=
  inferInstanceAs (Decidable (_ ∧ _))

theorem listArrivals_overflow (h : 0 ≤ limit) (hbinds : ¬ Binds cursor limit) :
    listArrivals t ⟨status, passport_type, .int limit, argOf cursor⟩ = .error overflow := by
  have hfits : ¬ (int8 (limit + 1) && cursor.all int8) = true := by
    rw [Bool.and_eq_true]
    exact hbinds
  cases cursor with
  | none => exact (if_neg (Int.not_lt.mpr h)).trans (if_neg hfits)
  | some c => exact (if_neg (Int.not_lt.mpr h)).trans (if_neg hfits)

theorem listArrivals_int (h : 0 ≤ limit) (hbinds : Binds cursor limit) :
    listArrivals t ⟨status, passport_type, .int limit, argOf cursor⟩ =
      (cut limit.toNat (t.query ⟨status, passport_type, .int limit, argOf cursor⟩ cursor)).map
        fun p => .page ⟨p.1, p.2,
          (t.rows.filter (ListRequest.matches ⟨status, passport_type, .int limit, argOf cursor⟩)).length⟩ := by
  have hfits : (int8 (limit + 1) && cursor.all int8) = true := by
    rw [Bool.and_eq_true]
    exact hbinds
  cases cursor with
  | none => exact (if_neg (Int.not_lt.mpr h)).trans (if_pos hfits)
  | some c => exact (if_neg (Int.not_lt.mpr h)).trans (if_pos hfits)

theorem mem_query {req : ListRequest} {r : Row} :
    r ∈ t.query req cursor ↔ r ∈ t.rows ∧ req.matches r = true ∧ below cursor r.id = true := by
  rw [Table.query, (descending_perm _).mem_iff, List.mem_filter, List.mem_filter, and_assoc]

theorem query_strict (t : Table) (req : ListRequest) (cursor : Option Int) :
    (t.query req cursor).Pairwise fun a b => b.id < a.id := by
  apply descending_strict
  exact t.distinct.sublist ((List.filter_sublist.trans List.filter_sublist).map Row.id)

theorem listArrivals_cases (t : Table) (status passport_type : Option String) (cursor : Option Int)
    (h : 0 ≤ limit) (hbinds : Binds cursor limit) :
    let req : ListRequest := ⟨status, passport_type, .int limit, argOf cursor⟩
    let query := t.query req cursor
    let total := (t.rows.filter req.matches).length
    (query.length ≤ limit.toNat ∧ listArrivals t req = .ok (.page ⟨query, none, total⟩)) ∨
      (1 ≤ limit ∧ limit.toNat < query.length ∧ ∃ last,
        (query.take limit.toNat).getLast? = some last ∧
        listArrivals t req = .ok (.page ⟨query.take limit.toNat, some last.id, total⟩)) ∨
      limit = 0 ∧ query ≠ [] ∧ listArrivals t req = .error "list index out of range" := by
  intro req query total
  rcases Nat.lt_or_ge limit.toNat query.length with hlt | hle
  · by_cases hl : 1 ≤ limit
    · obtain ⟨last, hlast, hcut⟩ := cut_pos (show 0 < limit.toNat by omega) hlt
      refine .inr (.inl ⟨hl, hlt, last, hlast, ?_⟩)
      rw [listArrivals_int h hbinds, hcut]
      rfl
    · have h0 : limit = 0 := by omega
      refine .inr (.inr ⟨h0, ?_, ?_⟩)
      · exact List.ne_nil_of_length_pos (Nat.lt_of_le_of_lt (Nat.zero_le _) hlt)
      · rw [listArrivals_int h hbinds, cut_of_lt hlt, h0]
        rfl
  · refine .inl ⟨hle, ?_⟩
    rw [listArrivals_int h hbinds, cut_of_le hle]
    rfl

/-- a page of at most `limit` arrivals, with a cursor exactly when a matching row is below it -/
def PageAnswered (t : Table) (req : ListRequest) (cursor : Option Int) (limit : Int) : Prop :=
  ∃ p, listArrivals t req = .ok (.page p) ∧ (p.arrivals.length : Int) ≤ limit ∧
    (p.next_cursor = none ↔ ¬ ∃ r ∈ t.rows, req.matches r = true ∧ below cursor r.id = true ∧
      ∀ a ∈ p.arrivals, r.id < a.id)

theorem query_eq_nil_iff {t : Table} {req : ListRequest} {cursor : Option Int} :
    t.query req cursor = [] ↔
      ∀ r ∈ t.rows, req.matches r = true → below cursor r.id = false := by
  rw [List.eq_nil_iff_forall_not_mem]
  constructor
  · intro hno r hr hm
    exact Bool.eq_false_iff.mpr fun hb => hno r (mem_query.mpr ⟨hr, hm, hb⟩)
  · intro hno r hr
    obtain ⟨hr, hm, hb⟩ := mem_query.mp hr
    rw [hno r hr hm] at hb
    exact Bool.false_ne_true hb

/-- a page that is cut leaves a row below all of its own -/
theorem exists_below_of_cut {t : Table} {req : ListRequest} {cursor : Option Int} {n : Nat}
    (hlt : n < (t.query req cursor).length) :
    ∃ r ∈ t.rows, req.matches r = true ∧ below cursor r.id = true ∧
      ∀ a ∈ (t.query req cursor).take n, r.id < a.id := by
  have hstrict := query_strict t req cursor
  rw [← List.take_append_drop n (t.query req cursor)] at hstrict
  obtain ⟨_, _, hcross⟩ := List.pairwise_append.mp hstrict
  have hne : (t.query req cursor).drop n ≠ [] := by
    apply List.ne_nil_of_length_pos
    rw [List.length_drop]
    omega
  obtain ⟨r, hr⟩ := List.exists_mem_of_ne_nil _ hne
  obtain ⟨hrow, hm, hb⟩ := mem_query.mp (List.mem_of_mem_drop hr)
  exact ⟨r, hrow, hm, hb, fun a ha => hcross a ha r hr⟩

end

/-- **When an accepted request is answered.**  The database takes the cursor and one more than the limit,
and the limit is not 0 or no row remains. -/
theorem answered_iff (t : Table) (status passport_type : Option String) (cursor : Option Int)
    (limit : Int) (h : 0 ≤ limit) :
    let req : ListRequest := ⟨status, passport_type, .int limit, argOf cursor⟩
    PageAnswered t req cursor limit ↔ Binds cursor limit ∧
      (1 ≤ limit ∨ ∀ r ∈ t.rows, req.matches r = true → below cursor r.id = false) := by
  intro req
  by_cases hbinds : Binds cursor limit
  swap
  · refine iff_of_false ?_ fun hand => hbinds hand.1
    rintro ⟨p, hp, _⟩
    rw [listArrivals_overflow h hbinds] at hp
    exact absurd hp (by simp)
  refine Iff.trans ?_ (and_iff_right hbinds).symm
  obtain ⟨hle, hans⟩ | ⟨hl, hlt, last, hlast, hans⟩ | ⟨h0, hne, hans⟩ :=
    listArrivals_cases t status passport_type cursor h hbinds
  · -- all rows are on the page
    have hlen : (t.query req cursor).length ≤ limit.toNat := hle
    refine iff_of_true ⟨_, hans, ?_, iff_of_true rfl ?_⟩ ?_
    · show ((t.query req cursor).length : Int) ≤ limit
      omega
    · rintro ⟨r, hr, hm, hb, hlt⟩
      exact absurd (hlt r (mem_query.mpr ⟨hr, hm, hb⟩)) (Int.lt_irrefl _)
    · by_cases hl : 1 ≤ limit
      · exact .inl hl
      · refine .inr (query_eq_nil_iff.mp (List.eq_nil_of_length_eq_zero ?_))
        omega
  · -- the next row is below the page
    refine iff_of_true ⟨_, hans, ?_, iff_of_false (by simp) (not_not_intro ?_)⟩ (.inl hl)
    · show (((t.query req cursor).take limit.toNat).length : Int) ≤ limit
      rw [List.length_take]
      omega
    · exact exists_below_of_cut hlt
  · refine iff_of_false ?_ ?_
    · rintro ⟨p, hp, _⟩
      rw [hans] at hp
      exact absurd hp (by simp)
    · rintro (hl | hno)
      · omega
      · exact hne (query_eq_nil_iff.mpr hno)

def oneArrival : Table := ⟨[⟨1, ⟨⟨"guest-1", "ana", "andrei", 34, .EU, .standard, false⟩, 0, .queued,
  "EU-1", none, none⟩⟩], by decide, by decide⟩

theorem answered_one : PageAnswered oneArrival ⟨none, some "EU", .int 1, .absent⟩ none 1 :=
  (answered_iff oneArrival none (some "EU") none 1 (by decide)).mpr ⟨by decide, .inl (by decide)⟩

/-- **A page of no rows.**  The limit is accepted, and the last element of an empty list is read. -/
theorem limit_zero_raises :
    listArrivals oneArrival ⟨none, none, .int 0, .absent⟩ = .error "list index out of range" ∧
    ¬ PageAnswered oneArrival ⟨none, none, .int 0, .absent⟩ none 0 := by
  have hraise : listArrivals oneArrival ⟨none, none, .int 0, .absent⟩ =
    .error "list index out of range" := by decide +kernel
  refine ⟨hraise, ?_⟩
  rintro ⟨p, hp, _⟩
  rw [hraise] at hp
  exact absurd hp (by simp)

/-! ## following the cursor -/

/-- what a row keeps: its id and its guest -/
def Row.key (r : Row) : Int × Guest := (r.id, r.arrival.guest)

/-- the table later: the rows may have changed but for their ids and guests, and the new ones have
greater ids -/
def Grows (t t' : Table) : Prop :=
  ∃ new : List (Int × Guest), (t'.rows.map Row.key).Perm (t.rows.map Row.key ++ new) ∧
    ∀ k ∈ new, ∀ r ∈ t.rows, r.id < k.1

/-- the `n`-th request: the rows of its page and the next cursor -/
def nthPage (t : Nat → Table) (passport_type : Option String) (limit : Int) (n : Nat)
    (cursor : Option Int) : Except String (List Row × Option Int) :=
  match listArrivals (t n) { passport_type, limit := .int limit, cursor := argOf cursor } with
  | .ok (.page p) => .ok (p.arrivals, p.next_cursor)
  | .ok (.badRequest error) => .error error
  | .error error => .error error

section
variable {t t' t'' : Table} {passport_type : Option String} {limit : Int}

theorem Grows.refl (t : Table) : Grows t t :=
  ⟨[], by rw [List.append_nil], fun _ hk => absurd hk List.not_mem_nil⟩

theorem Grows.trans (h : Grows t t') (h' : Grows t' t'') : Grows t t'' := by
  obtain ⟨new, hp, hnew⟩ := h
  obtain ⟨new', hp', hnew'⟩ := h'
  refine ⟨new ++ new', ?_, ?_⟩
  · rw [← List.append_assoc]
    exact hp'.trans (hp.append_right new')
  · intro k hk r hr
    rcases List.mem_append.mp hk with hk | hk
    · exact hnew k hk r hr
    · have hmem : r.key ∈ t'.rows.map Row.key :=
        hp.mem_iff.mpr (List.mem_append_left new (List.mem_map_of_mem hr))
      obtain ⟨r', hr', hkey⟩ := List.mem_map.mp hmem
      have hid : r'.id = r.id := congrArg Prod.fst hkey
      rw [← hid]
      exact hnew' k hk r' hr'

theorem grows_of_steps {t : Nat → Table} (h : ∀ n, Grows (t n) (t (n + 1))) (n : Nat) :
    Grows (t 0) (t n) := by
  induction n with
  | zero => exact .refl _
  | succ n ih => exact ih.trans (h n)

/-- what is chosen of a row's key -/
def chosen (passport_type : Option String) (cursor : Option Int) (k : Int × Guest) : Bool :=
  passes passport_type k.2.passport_type.text && below cursor k.1

/-- the keys that are left at a cursor, of the first table -/
def keysLeft (t : Table) (passport_type : Option String) (cursor : Option Int) : List (Int × Guest) :=
  descending Prod.fst ((t.rows.map Row.key).filter (chosen passport_type cursor))

theorem keysLeft_strict (t : Table) (passport_type : Option String) (cursor : Option Int) :
    (keysLeft t passport_type cursor).Pairwise fun a b => b.1 < a.1 := by
  apply descending_strict
  have hids : (t.rows.map Row.key).map Prod.fst = t.rows.map Row.id := by
    rw [List.map_map]
    rfl
  exact (hids ▸ t.distinct).sublist (List.filter_sublist.map Prod.fst)

theorem mem_keysLeft {cursor : Option Int} {k : Int × Guest} :
    k ∈ keysLeft t passport_type cursor ↔
      k ∈ t.rows.map Row.key ∧ chosen passport_type cursor k = true := by
  rw [keysLeft, (descending_perm _).mem_iff, List.mem_filter]

theorem keysLeft_some {cursor : Option Int} {k : Int × Guest}
    (hk : k ∈ keysLeft t passport_type cursor) : keysLeft t passport_type (some k.1) =
      (keysLeft t passport_type cursor).filter fun l => l.1 < k.1 := by
  have hnd : (((t.rows.map Row.key).filter (chosen passport_type cursor)).map Prod.fst).Nodup := by
    have hstrict := keysLeft_strict t passport_type cursor
    have hp : ((keysLeft t passport_type cursor).map Prod.fst).Perm
        (((t.rows.map Row.key).filter (chosen passport_type cursor)).map Prod.fst) :=
      (descending_perm _).map Prod.fst
    refine hp.nodup_iff.mp (List.pairwise_map.mpr (hstrict.imp fun hlt he => ?_))
    exact absurd he (Int.ne_of_gt hlt)
  rw [keysLeft, keysLeft, ← descending_filter hnd, List.filter_filter]
  refine congrArg _ (List.filter_congr fun l _ => ?_)
  have hk' := (mem_keysLeft.mp hk).2
  rw [chosen, Bool.and_eq_true] at hk'
  have hbelow : l.1 < k.1 → below cursor l.1 = true := by
    intro hlt
    cases cursor with
    | none => rfl
    | some c => exact decide_eq_true (Int.lt_trans hlt (of_decide_eq_true hk'.2))
  rw [chosen, chosen, Bool.eq_iff_iff, Bool.and_eq_true, Bool.and_eq_true, Bool.and_eq_true]
  constructor
  · rintro ⟨hp, hlt⟩
    exact ⟨hlt, hp, hbelow (of_decide_eq_true hlt)⟩
  · rintro ⟨hlt, hp, _⟩
    exact ⟨hp, hlt⟩

/-- a page request without a status sees the keys that are left, if none of the new ones is chosen -/
theorem query_map_key {req : ListRequest} {cursor : Option Int} {new : List (Int × Guest)}
    (hs : req.status = none) (hp : (t'.rows.map Row.key).Perm (t.rows.map Row.key ++ new))
    (hnew : ∀ k ∈ new, chosen req.passport_type cursor k = false) :
    (t'.query req cursor).map Row.key = keysLeft t req.passport_type cursor := by
  have hchosen : ∀ r : Row, (req.matches r && below cursor r.id) =
      chosen req.passport_type cursor r.key := by
    intro r
    rw [ListRequest.matches, hs]
    rfl
  have hrows : ((t'.rows.filter req.matches).filter fun r => below cursor r.id).map Row.key =
      (t'.rows.map Row.key).filter (chosen req.passport_type cursor) := by
    rw [List.filter_filter, List.filter_map]
    refine congrArg _ (List.filter_congr fun r _ => ?_)
    rw [Bool.and_comm]
    exact hchosen r
  have hstrict : ((t'.query req cursor).map Row.key).Pairwise fun a b => b.1 < a.1 :=
    List.pairwise_map.mpr (query_strict t' req cursor)
  refine @eq_of_strict (Int × Guest) Int _ Prod.fst _ _ hstrict (keysLeft_strict t _ cursor) ?_
  refine ((descending_perm _).map Row.key).trans ?_
  rw [hrows]
  refine (hp.filter _).trans ?_
  have hnone : new.filter (chosen req.passport_type cursor) = [] := by
    refine List.filter_eq_nil_iff.mpr fun k hk => ?_
    rw [hnew k hk]
    exact Bool.false_ne_true
  rw [List.filter_append, hnone, List.append_nil]
  exact (descending_perm _).symm

/-- a cursor of the walk: none at first, then the id of a row that the first table has -/
def reached (t : Nat → Table) (n : Nat) (cursor : Option Int) : Prop :=
  n = 0 ∧ cursor = none ∨ ∃ r ∈ (t 0).rows, cursor = some r.id

theorem reached.binds {t : Nat → Table} {n : Nat} {cursor : Option Int} (h : reached t n cursor) :
    cursor.all int8 = true := by
  rcases h with ⟨_, rfl⟩ | ⟨r, hr, rfl⟩
  · rfl
  · exact (t 0).ids_fit r hr

theorem reached_query {t : Nat → Table} (h : ∀ n, Grows (t n) (t (n + 1))) {n : Nat}
    {cursor : Option Int} (hr : reached t n cursor) {req : ListRequest} (hs : req.status = none) :
    ((t n).query req cursor).map Row.key = keysLeft (t 0) req.passport_type cursor := by
  rcases hr with ⟨rfl, rfl⟩ | ⟨r, hr, rfl⟩
  · exact query_map_key hs (.of_eq (List.append_nil _).symm) fun _ hk => absurd hk List.not_mem_nil
  · obtain ⟨new, hp, hnew⟩ := grows_of_steps h n
    refine query_map_key hs hp fun k hk => ?_
    rw [chosen, Bool.and_eq_false_iff]
    exact .inr (decide_eq_false (Int.lt_asymm (hnew k hk r hr)))

end

/-- a page takes the first of the keys that are left, and leaves those below its cursor -/
theorem nthPage_reached {t : Nat → Table} (h : ∀ n, Grows (t n) (t (n + 1)))
    {passport_type : Option String} {limit : Int} (hl : 1 ≤ limit) (hfit : int8 (limit + 1) = true)
    {n : Nat} {cursor : Option Int} (hr : reached t n cursor) : ∃ rows next,
      nthPage t passport_type limit n cursor = .ok (rows, next) ∧
      keysLeft (t 0) passport_type cursor =
        rows.map Row.key ++ next.elim [] (fun c => keysLeft (t 0) passport_type (some c)) ∧
      ∀ c, next = some c → rows ≠ [] ∧ reached t (n + 1) (some c) := by
  let req : ListRequest := ⟨none, passport_type, .int limit, argOf cursor⟩
  have hleft : ((t n).query req cursor).map Row.key = keysLeft (t 0) passport_type cursor :=
    reached_query h hr rfl
  obtain ⟨_, hans⟩ | ⟨_, hlt, last, hlast, hans⟩ | ⟨h0, _⟩ :=
    listArrivals_cases (t n) none passport_type cursor (show 0 ≤ limit by omega) ⟨hfit, hr.binds⟩
  · refine ⟨(t n).query req cursor, none, ?_, ?_, fun c hc => absurd hc (by simp)⟩
    · rw [nthPage, hans]
    · rw [hleft]
      exact (List.append_nil _).symm
  · replace hlast : (((t n).query req cursor).take limit.toNat).getLast? = some last := hlast
    have hkey : last.key ∈ keysLeft (t 0) passport_type cursor := by
      rw [← hleft]
      exact List.mem_map_of_mem (List.mem_of_mem_take (List.mem_of_getLast? hlast))
    have hdrop : keysLeft (t 0) passport_type (some last.id) =
        (((t n).query req cursor).drop limit.toNat).map Row.key := by
      rw [← filter_lt_last (query_strict (t n) req cursor) hlast]
      refine (keysLeft_some hkey).trans ?_
      rw [← hleft, List.filter_map]
      rfl
    refine ⟨((t n).query req cursor).take limit.toNat, some last.id, ?_, ?_, ?_⟩
    · rw [nthPage, hans]
    · show _ = _ ++ keysLeft (t 0) passport_type (some last.id)
      rw [hdrop, ← List.map_append, List.take_append_drop, hleft]
    · intro c hc
      obtain rfl := Option.some.inj hc
      obtain ⟨r, hrow, hid⟩ := List.mem_map.mp (mem_keysLeft.mp hkey).1
      refine ⟨fun hnil => ?_, .inr ⟨r, hrow, congrArg (fun k => some k.1) hid.symm⟩⟩
      rw [hnil] at hlast
      exact absurd hlast (by simp)
  · omega

/-- **Paging misses and repeats nothing.**  Whatever the table becomes between the requests, following
the cursor from the first page comes to an end, with every chosen row of the first table once and in
strictly descending order of the ids.  One more than the limit has to be an integer of 64 bits. -/
theorem paging_complete (t : Nat → Table) (h : ∀ n, Grows (t n) (t (n + 1)))
    (passport_type : Option String) (limit : Int) (hl : 1 ≤ limit) (hfit : int8 (limit + 1) = true) :
    ∃ fuel pages, walk (nthPage t passport_type limit) fuel 0 none = some pages ∧
      (pages.flatten.map Row.id).Pairwise (fun a b => b < a) ∧
      ∀ k, k ∈ pages.flatten.map Row.key ↔ ∃ r ∈ (t 0).rows, r.key = k ∧
        passes passport_type r.arrival.guest.passport_type.text = true := by
  have hpage : ∀ n cursor, reached t n cursor → ∃ rows next,
      nthPage t passport_type limit n cursor = .ok (rows, next) ∧
      keysLeft (t 0) passport_type cursor =
        rows.map Row.key ++ next.elim [] (fun c => keysLeft (t 0) passport_type (some c)) ∧
      ∀ c, next = some c → rows ≠ [] ∧ reached t (n + 1) (some c) :=
    fun n cursor hr => nthPage_reached h hl hfit hr
  have hstart : reached t 0 none := .inl ⟨rfl, rfl⟩
  obtain ⟨pages, hwalk, hall⟩ := walk_complete hpage hstart (Nat.lt_succ_self _)
  refine ⟨_, pages, hwalk, ?_, fun k => ?_⟩
  · have hids : pages.flatten.map Row.id = (pages.flatten.map Row.key).map Prod.fst := by
      rw [List.map_map]
      rfl
    rw [hids, hall]
    exact List.pairwise_map.mpr (keysLeft_strict (t 0) passport_type none)
  · rw [hall, mem_keysLeft, List.mem_map]
    constructor
    · rintro ⟨⟨r, hr, rfl⟩, hp⟩
      rw [chosen, Bool.and_eq_true] at hp
      exact ⟨r, hr, rfl, hp.1⟩
    · rintro ⟨r, hr, rfl, hp⟩
      refine ⟨⟨r, hr, rfl⟩, ?_⟩
      rw [chosen, Bool.and_eq_true]
      exact ⟨hp, rfl⟩

def nthArrival (i : Nat) : Row :=
  ⟨i, ⟨⟨"guest", "ana", "andrei", 34, .EU, .standard, false⟩, i, .queued, "EU-1", none, none⟩⟩

/-- three arrivals, and one more after the first request -/
def arriving : Nat → Table
  | 0 => ⟨[0, 1, 2].map nthArrival, by decide, by decide⟩
  | _ + 1 => ⟨[0, 1, 2, 3].map nthArrival, by decide, by decide⟩

theorem arriving_grows (n : Nat) : Grows (arriving n) (arriving (n + 1)) := by
  cases n with
  | zero => exact ⟨[(nthArrival 3).key], .of_eq rfl, by decide⟩
  | succ n => exact .refl _

theorem paging_complete_arriving : ∃ fuel pages,
    walk (nthPage arriving (some "EU") 2) fuel 0 none = some pages ∧
    (pages.flatten.map Row.id).Pairwise (fun a b => b < a) ∧
    ∀ k, k ∈ pages.flatten.map Row.key ↔ ∃ r ∈ (arriving 0).rows, r.key = k ∧
      passes (some "EU") r.arrival.guest.passport_type.text = true :=
  paging_complete arriving arriving_grows (some "EU") 2 (by decide) (by decide)

/-- **The largest limit cannot be bound with its probe.**  No page is answered. -/
theorem largest_limit_raises :
    ¬ ∃ fuel pages, walk (nthPage (fun _ => oneArrival) none 9223372036854775807) fuel 0 none =
      some pages := by
  have hraise : nthPage (fun _ => oneArrival) none 9223372036854775807 0 none = .error overflow := by
    have h : listArrivals oneArrival ⟨none, none, .int 9223372036854775807, argOf none⟩ =
      .error overflow := listArrivals_overflow (by decide) (by decide)
    rw [nthPage, h]
  rintro ⟨fuel, pages, hwalk⟩
  cases fuel with
  | zero => exact absurd hwalk (by simp [walk])
  | succ fuel =>
    rw [walk, hraise] at hwalk
    exact absurd hwalk (by simp)

example : (walk (nthPage arriving (some "EU") 2) 2 0 none).map (·.map (·.map Row.id)) =
    some [[2, 1], [0]] := by decide +kernel

end Airport
