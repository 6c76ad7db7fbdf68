import Mathlib.Data.List.Nodup
import Mathlib.Data.List.Basic
import Mathlib.Tactic.Common

/-!
# Insertion-ordered dictionaries

A `Dict` keeps its items in the order in which their keys were first set.

* `Dict.get?`, `Dict.set`, `Dict.del`   lookup, assignment (in place for a key that is there),
                                        deletion;
* `get?_set_self`, `get?_set_ne`, `get?_del_self`, `get?_del_ne`   the lookup laws;
* `mem_items_iff`, `mem_values_iff`     an item is a key with its value;
* `mem_values_set`, `mem_values_del`    which values stay;
* `items_foldl_del`, `get?_foldl_del`   several keys deleted;
* `Dict.mapValues`                      every value changed in place;
* `Dict.ofList`                         the dictionary of a list of entries.
-/

structure Dict (κ ν : Type*) where
  items : List (κ × ν)
  nodup : (items.map Prod.fst).Nodup

set_option linter.unusedSectionVars false

namespace Dict

variable {κ ν : Type*}

def empty : Dict κ ν := ⟨[], List.nodup_nil⟩

def keys (d : Dict κ ν) : List κ := d.items.map Prod.fst

def values (d : Dict κ ν) : List ν := d.items.map Prod.snd

variable [DecidableEq κ]

/-- the value of a key in a list of items -/
def find (k : κ) : List (κ × ν) → Option ν
  | [] => none
  | p :: l => if p.1 = k then some p.2 else find k l

def get? (d : Dict κ ν) (k : κ) : Option ν := find k d.items

/-- replace the value of a key where it stands -/
def put (k : κ) (v : ν) (l : List (κ × ν)) : List (κ × ν) :=
  l.map fun p => if p.1 = k then (k, v) else p

theorem put_keys (k : κ) (v : ν) (l : List (κ × ν)) :
    (put k v l).map Prod.fst = l.map Prod.fst := by
  rw [put, List.map_map]
  apply List.map_congr_left
  intro p _
  show (if p.1 = k then (k, v) else p).1 = p.1
  split
  · rename_i h
    exact h.symm
  · rfl

theorem nodup_concat {d : Dict κ ν} {k : κ} (h : k ∉ d.keys) (v : ν) :
    ((d.items ++ [(k, v)]).map Prod.fst).Nodup := by
  rw [List.map_append, List.nodup_append]
  refine ⟨d.nodup, List.nodup_singleton k, ?_⟩
  rintro a ha b hb rfl
  rw [List.mem_singleton.mp hb] at ha
  exact h ha

def set (d : Dict κ ν) (k : κ) (v : ν) : Dict κ ν :=
  if h : k ∈ d.keys then ⟨put k v d.items, by rw [put_keys]; exact d.nodup⟩
  else ⟨d.items ++ [(k, v)], nodup_concat h v⟩

def del (d : Dict κ ν) (k : κ) : Dict κ ν :=
  ⟨d.items.filter fun p => p.1 ≠ k, d.nodup.sublist (List.Sublist.map _ List.filter_sublist)⟩

/-! ## lookups -/

theorem find_eq_none {k : κ} {l : List (κ × ν)} : find k l = none ↔ k ∉ l.map Prod.fst := by
  induction l with
  | nil => simp [find]
  | cons p l ih =>
    rw [find, List.map_cons, List.mem_cons, not_or]
    split
    · rename_i h
      simp [h]
    · rename_i h
      rw [ih]
      exact ⟨fun hn => ⟨fun e => h e.symm, hn⟩, fun hn => hn.2⟩

theorem find_append (k : κ) (l l' : List (κ × ν)) :
    find k (l ++ l') = (find k l).or (find k l') := by
  induction l with
  | nil => rfl
  | cons p l ih =>
    rw [List.cons_append, find, find, ih]
    split <;> rfl

theorem find_put_self {k : κ} (v : ν) {l : List (κ × ν)} (h : k ∈ l.map Prod.fst) :
    find k (put k v l) = some v := by
  induction l with
  | nil => exact absurd h (by simp)
  | cons p l ih =>
    show find k ((if p.1 = k then (k, v) else p) :: put k v l) = some v
    by_cases e : p.1 = k
    · rw [if_pos e, find, if_pos rfl]
    · rw [if_neg e, find, if_neg e]
      rcases List.mem_cons.mp h with h | h
      · exact absurd h.symm e
      · exact ih h

theorem find_put_ne {k k' : κ} (v : ν) (l : List (κ × ν)) (h : k' ≠ k) :
    find k' (put k v l) = find k' l := by
  induction l with
  | nil => rfl
  | cons p l ih =>
    show find k' ((if p.1 = k then (k, v) else p) :: put k v l) = find k' (p :: l)
    by_cases e : p.1 = k
    · rw [if_pos e, find, find, if_neg (fun h' => h h'.symm), if_neg (fun h' => h (h'.symm.trans e)),
        ih]
    · rw [if_neg e, find, find, ih]

theorem find_filter {k : κ} {q : κ × ν → Bool} {l : List (κ × ν)}
    (h : ∀ p ∈ l, p.1 = k → q p = true) : find k (l.filter q) = find k l := by
  induction l with
  | nil => rfl
  | cons p l ih =>
    have hl := ih fun x hx => h x (List.mem_cons_of_mem _ hx)
    by_cases e : q p = true
    · rw [List.filter_cons_of_pos e, find, find, hl]
    · rw [List.filter_cons_of_neg e, find,
        if_neg (fun hk => e (h p List.mem_cons_self hk)), hl]

@[simp] theorem get?_set_self (d : Dict κ ν) (k : κ) (v : ν) : (d.set k v).get? k = some v := by
  unfold set
  split
  · rename_i h
    exact find_put_self v h
  · rename_i h
    show find k (d.items ++ [(k, v)]) = some v
    rw [find_append, find_eq_none.mpr h, Option.none_or, find, if_pos rfl]

theorem get?_set_ne (d : Dict κ ν) {k k' : κ} (h : k' ≠ k) (v : ν) :
    (d.set k v).get? k' = d.get? k' := by
  unfold set
  split
  · exact find_put_ne v d.items h
  · show find k' (d.items ++ [(k, v)]) = find k' d.items
    rw [find_append, find, if_neg (fun h' => h h'.symm), find, Option.or_none]

@[simp] theorem get?_del_self (d : Dict κ ν) (k : κ) : (d.del k).get? k = none := by
  apply find_eq_none.mpr
  intro h
  obtain ⟨p, hp, rfl⟩ := List.mem_map.mp h
  exact absurd (List.mem_filter.mp hp).2 (by simp)

theorem get?_del_ne (d : Dict κ ν) {k k' : κ} (h : k' ≠ k) : (d.del k).get? k' = d.get? k' :=
  find_filter fun _ _ e => decide_eq_true (e ▸ h)

theorem mem_items_iff {d : Dict κ ν} {k : κ} {v : ν} : (k, v) ∈ d.items ↔ d.get? k = some v := by
  obtain ⟨l, hl⟩ := d
  show (k, v) ∈ l ↔ find k l = some v
  induction l with
  | nil => simp [find]
  | cons p l ih =>
    rw [List.map_cons, List.nodup_cons] at hl
    rw [find, List.mem_cons]
    by_cases e : p.1 = k
    · rw [if_pos e, Option.some_inj]
      constructor
      · rintro (h | h)
        · exact congrArg Prod.snd h.symm
        · exact absurd (List.mem_map_of_mem h) (e ▸ hl.1)
      · intro h
        exact .inl (Prod.ext e.symm h.symm)
    · rw [if_neg e, ← ih hl.2]
      exact ⟨fun h => h.resolve_left fun h' => e (congrArg Prod.fst h').symm, .inr⟩

theorem mem_values_iff {d : Dict κ ν} {v : ν} : v ∈ d.values ↔ ∃ k, d.get? k = some v := by
  constructor
  · intro h
    obtain ⟨p, hp, rfl⟩ := List.mem_map.mp h
    exact ⟨p.1, mem_items_iff.mp hp⟩
  · rintro ⟨k, hk⟩
    exact List.mem_map.mpr ⟨(k, v), mem_items_iff.mpr hk, rfl⟩

theorem mem_values_set {d : Dict κ ν} {k : κ} {v u : ν} (h : u ∈ d.values)
    (hk : d.get? k ≠ some u) : u ∈ (d.set k v).values := by
  obtain ⟨k', hk'⟩ := mem_values_iff.mp h
  have hne : k' ≠ k := fun e => hk (e ▸ hk')
  exact mem_values_iff.mpr ⟨k', (get?_set_ne d hne v).trans hk'⟩

theorem mem_values_del {d : Dict κ ν} {k : κ} {u : ν} (h : u ∈ d.values)
    (hk : d.get? k ≠ some u) : u ∈ (d.del k).values := by
  obtain ⟨k', hk'⟩ := mem_values_iff.mp h
  have hne : k' ≠ k := fun e => hk (e ▸ hk')
  exact mem_values_iff.mpr ⟨k', (get?_del_ne d hne).trans hk'⟩

/-! ## several keys deleted -/

/-- in a list with distinct keys, the key of an entry says whether it is among the chosen ones -/
theorem mem_keys_filter {l : List (κ × ν)} (h : (l.map Prod.fst).Nodup) {q : κ × ν → Bool}
    {p : κ × ν} (hp : p ∈ l) : p.1 ∈ (l.filter q).map Prod.fst ↔ q p = true := by
  constructor
  · intro hmem
    obtain ⟨p', hp', e⟩ := List.mem_map.mp hmem
    obtain ⟨hl, hq⟩ := List.mem_filter.mp hp'
    rwa [List.inj_on_of_nodup_map h hl hp e] at hq
  · intro hq
    exact List.mem_map_of_mem (List.mem_filter.mpr ⟨hp, hq⟩)

theorem filter_notMem_take {l : List (κ × ν)}
    (h : (l.map Prod.fst).Nodup) (n : Nat) :
    (l.filter fun p => p.1 ∉ (l.take n).map Prod.fst) = l.drop n := by
  have hsplit : ((l.take n ++ l.drop n).map Prod.fst).Nodup := by
    rw [List.take_append_drop]
    exact h
  rw [List.map_append, List.nodup_append] at hsplit
  obtain ⟨-, -, hdisj⟩ := hsplit
  have hl := List.take_append_drop n l
  generalize l.take n = a at hl hdisj ⊢
  generalize l.drop n = b at hl hdisj ⊢
  subst hl
  rw [List.filter_append, List.filter_eq_nil_iff.mpr, List.filter_eq_self.mpr, List.nil_append]
  · intro p hp
    exact decide_eq_true fun hmem => hdisj _ hmem _ (List.mem_map_of_mem hp) rfl
  · intro p hp hmem
    exact of_decide_eq_true hmem (List.mem_map_of_mem hp)

theorem items_foldl_del (ks : List κ) (d : Dict κ ν) :
    (ks.foldl del d).items = d.items.filter fun p => p.1 ∉ ks := by
  induction ks generalizing d with
  | nil =>
    rw [List.foldl_nil, List.filter_eq_self.mpr]
    exact fun p _ => decide_eq_true List.not_mem_nil
  | cons k ks ih =>
    rw [List.foldl_cons, ih, del, List.filter_filter]
    apply List.filter_congr
    intro p _
    simp [not_or, Bool.and_comm]

theorem get?_foldl_del (ks : List κ) (d : Dict κ ν) (k : κ) :
    (ks.foldl del d).get? k = if k ∈ ks then none else d.get? k := by
  rw [get?, items_foldl_del]
  by_cases h : k ∈ ks
  · rw [if_pos h, find_eq_none]
    intro hmem
    obtain ⟨p, hp, rfl⟩ := List.mem_map.mp hmem
    exact absurd h (of_decide_eq_true (List.mem_filter.mp hp).2)
  · rw [if_neg h]
    apply find_filter
    rintro p _ rfl
    exact decide_eq_true h

/-! ## every value changed -/

theorem keys_map (f : κ → ν → ν) (l : List (κ × ν)) :
    (l.map fun p => (p.1, f p.1 p.2)).map Prod.fst = l.map Prod.fst := by
  rw [List.map_map]
  rfl

def mapValues (d : Dict κ ν) (f : κ → ν → ν) : Dict κ ν :=
  ⟨d.items.map fun p => (p.1, f p.1 p.2), by rw [keys_map]; exact d.nodup⟩

theorem get?_mapValues (d : Dict κ ν) (f : κ → ν → ν) (k : κ) :
    (d.mapValues f).get? k = (d.get? k).map (f k) := by
  obtain ⟨l, hl⟩ := d
  show find k (l.map fun p => (p.1, f p.1 p.2)) = (find k l).map (f k)
  clear hl
  induction l with
  | nil => rfl
  | cons p l ih =>
    rw [List.map_cons, find, find, ih]
    by_cases e : p.1 = k
    · rw [if_pos e, if_pos e, ← e]
      rfl
    · rw [if_neg e, if_neg e]

@[ext] theorem ext {d d' : Dict κ ν} (h : d.items = d'.items) : d = d' := by
  cases d
  cases d'
  congr

theorem mapValues_mapValues (d : Dict κ ν) (f g : κ → ν → ν) :
    (d.mapValues f).mapValues g = d.mapValues fun k v => g k (f k v) := by
  ext1
  exact List.map_map

/-- set the entries one after the other -/
def ofList (l : List (κ × ν)) : Dict κ ν := l.foldl (fun d p => d.set p.1 p.2) empty

theorem get?_foldl_set (f : κ → ν) (ks : List κ) (d : Dict κ ν) (k : κ) :
    ((ks.map fun k => (k, f k)).foldl (fun d p => d.set p.1 p.2) d).get? k =
      if k ∈ ks then some (f k) else d.get? k := by
  induction ks generalizing d with
  | nil => rfl
  | cons k' ks ih =>
    rw [List.map_cons, List.foldl_cons, ih]
    by_cases h : k ∈ ks
    · rw [if_pos h, if_pos (List.mem_cons_of_mem _ h)]
    · rw [if_neg h]
      by_cases e : k = k'
      · subst e
        rw [get?_set_self, if_pos List.mem_cons_self]
      · rw [get?_set_ne d e, if_neg (fun hm => (List.mem_cons.mp hm).elim e h)]

theorem get?_ofList_map (f : κ → ν) (ks : List κ) (k : κ) :
    (ofList (ks.map fun k => (k, f k))).get? k = if k ∈ ks then some (f k) else none :=
  get?_foldl_set f ks empty k

theorem mem_of_get?_foldl_set {l : List (κ × ν)} {d : Dict κ ν} {k : κ} {v : ν}
    (h : (l.foldl (fun d p => d.set p.1 p.2) d).get? k = some v) : (k, v) ∈ l ∨ d.get? k = some v := by
  induction l generalizing d with
  | nil => exact .inr h
  | cons p l ih =>
    rcases ih h with hmem | hget
    · exact .inl (List.mem_cons_of_mem _ hmem)
    · by_cases e : k = p.1
      · subst e
        rw [get?_set_self] at hget
        obtain rfl := Option.some.inj hget
        exact .inl List.mem_cons_self
      · rw [get?_set_ne d e] at hget
        exact .inr hget

theorem mem_of_get?_ofList {l : List (κ × ν)} {k : κ} {v : ν} (h : (ofList l).get? k = some v) :
    (k, v) ∈ l := by
  rcases mem_of_get?_foldl_set h with hmem | hget
  · exact hmem
  · exact absurd hget (by simp [empty, get?, find])

end Dict
