import Purrlington.Lib.Json

/-!
# Schemas for JSON values

The part of zod that the services use.  A schema takes a JSON value apart and builds it again: an
object keeps the members that its schema names, and a strict one has no others.

* `Schema`                 strings, numbers, enumerations, arrays, records, objects;
* `Schema.parse`           `safeParse`: the value as the schema returns it;
* `Schema.accepts`         whether there is one;
* `accepts_array`, `accepts_object`   from the parts to the whole;
* `parse_object`, `lookup_parseFields`   what is in an object that was parsed;
* `Schema.Returns`, `Schema.kept`, `parse_strict`   an object whose members are returned as they
                           are.
-/

set_option linter.unusedSectionVars false

inductive Schema where
  | string
  | number
  | int
  | boolean
  | enum (values : List String)
  | nullable (s : Schema)
  | optional (s : Schema)
  | array (s : Schema)
  | record (s : Schema)
  | unknown
  | nonempty (s : Schema)
  | object (fields : List (String × Schema)) (strict : Bool)

namespace Schema

/-- `Number.MAX_SAFE_INTEGER` -/
def maxSafeInteger : Int := 9007199254740991

/-- `int()` takes integers in the safe range -/
def safe (n : Int) : Bool := -maxSafeInteger ≤ n && n ≤ maxSafeInteger

/-- `min(1)` of a string or an array -/
def hasMin : Json → Bool
  | .str s => s ≠ ""
  | .arr vs => !vs.isEmpty
  | _ => true

/-- a member of this schema may be missing -/
def isOptional : Schema → Bool
  | .optional _ => true
  | .unknown => true
  | _ => false

mutual

/-- `safeParse`, `none` when it does not succeed -/
def parse : Schema → Json → Option Json
  | .string, .str s => some (.str s)
  | .number, .int n => some (.int n)
  | .number, .float q => some (.float q)
  | .int, .int n => if safe n then some (.int n) else none
  | .int, .float q => if q.den = 1 && safe q.num then some (.float q) else none
  | .boolean, .bool b => some (.bool b)
  | .enum values, .str s => if s ∈ values then some (.str s) else none
  | .nullable _, .null => some .null
  | .nullable s, v => parse s v
  | .optional s, v => parse s v
  | .array s, .arr vs => (vs.mapM fun v => parse s v).map .arr
  | .record s, .obj members =>
    (members.mapM fun p => (parse s p.2).map fun v => (p.1, v)).map .obj
  | .unknown, v => some v
  | .nonempty s, v => (parse s v).filter hasMin
  | .object fields strict, .obj members =>
    if strict && members.any (fun p => !(fields.map Prod.fst).contains p.1) then none
    else (parseFields fields members).map .obj
  | _, _ => none

/-- the members that an object's schema names, in its order -/
def parseFields : List (String × Schema) → List (String × Json) → Option (List (String × Json))
  | [], _ => some []
  | (k, s) :: fields, members =>
    match members.lookup k with
    | some v => (parse s v).bind fun v => (parseFields fields members).map fun rest => (k, v) :: rest
    | none => if s.isOptional then parseFields fields members else none

end

/-- the value is one of the schema -/
def accepts (s : Schema) (v : Json) : Bool := (parse s v).isSome

/-- a member of the schema, or none where it may be missing -/
def acceptsMember (s : Schema) : Option Json → Bool
  | some v => s.accepts v
  | none => s.isOptional

theorem isSome_mapM {α β : Type} (f : α → Option β) (l : List α) :
    (l.mapM f).isSome = true ↔ ∀ a ∈ l, (f a).isSome = true := by
  induction l with
  | nil => simp
  | cons a l ih =>
    rw [List.mapM_cons, List.forall_mem_cons, ← ih]
    cases f a with
    | none => simp
    | some b =>
      show ((l.mapM f).bind fun bs => some (b :: bs)).isSome = true ↔ _
      cases l.mapM f <;> simp

theorem accepts_array {s : Schema} {vs : List Json} :
    accepts (.array s) (.arr vs) = true ↔ ∀ v ∈ vs, s.accepts v = true := by
  rw [accepts, parse, Option.isSome_map]
  exact isSome_mapM _ vs

theorem parseFields_isSome {fields : List (String × Schema)} {members : List (String × Json)} :
    (parseFields fields members).isSome = true ↔
      ∀ p ∈ fields, acceptsMember p.2 (members.lookup p.1) = true := by
  induction fields with
  | nil => simp [parseFields]
  | cons p fields ih =>
    obtain ⟨k, s⟩ := p
    rw [List.forall_mem_cons, ← ih, parseFields]
    show _ ↔ acceptsMember s (members.lookup k) = true ∧ _
    cases members.lookup k with
    | none =>
      rw [acceptsMember]
      by_cases hs : s.isOptional = true <;> simp [hs]
    | some v =>
      rw [acceptsMember, accepts]
      show ((parse s v).bind fun v => (parseFields fields members).map fun rest => (k, v) :: rest).isSome =
        true ↔ _
      cases parse s v with
      | none => simp
      | some v' =>
        show ((parseFields fields members).map _).isSome = true ↔ _
        rw [Option.isSome_map]
        simp

theorem accepts_object {fields : List (String × Schema)} {members : List (String × Json)} :
    accepts (.object fields false) (.obj members) = true ↔
      ∀ p ∈ fields, acceptsMember p.2 (members.lookup p.1) = true := by
  rw [accepts, parse, Bool.false_and, if_neg Bool.false_ne_true, Option.isSome_map]
  exact parseFields_isSome

/-! ## the value that is returned -/

theorem parse_object {fields : List (String × Schema)} {strict : Bool} {v out : Json}
    (h : parse (.object fields strict) v = some out) :
    ∃ members outs, v = .obj members ∧ parseFields fields members = some outs ∧ out = .obj outs := by
  cases v with
  | obj members =>
    rw [parse] at h
    split at h
    · exact absurd h (by simp)
    · obtain ⟨outs, ho, rfl⟩ := Option.map_eq_some_iff.mp h
      exact ⟨members, outs, rfl, ho, rfl⟩
  | _ =>
    rw [parse] at h
    · exact absurd h (by simp)
    all_goals simp

theorem lookup_cons_ne {β : Type} {k k' : String} (h : k ≠ k') (b : β) (l : List (String × β)) :
    ((k', b) :: l).lookup k = l.lookup k := by
  rw [List.lookup_cons, beq_false_of_ne h]

theorem lookup_parseFields {fields : List (String × Schema)} {members outs : List (String × Json)}
    (h : parseFields fields members = some outs) (k : String) :
    outs.lookup k = (fields.lookup k).bind fun s => (members.lookup k).bind (parse s) := by
  induction fields generalizing outs with
  | nil =>
    rw [parseFields] at h
    obtain rfl := Option.some.inj h
    rfl
  | cons p fields ih =>
    obtain ⟨k', s⟩ := p
    rw [parseFields] at h
    by_cases hk : k = k'
    · subst hk
      rw [List.lookup_cons_self, Option.bind_some]
      cases hm : members.lookup k with
      | none =>
        rw [hm] at h
        replace h : (if s.isOptional then parseFields fields members else none) = some outs := h
        split at h
        · rw [ih h, hm]
          cases fields.lookup k <;> rfl
        · exact absurd h (by simp)
      | some v =>
        rw [hm] at h
        obtain ⟨v', hv, h⟩ := Option.bind_eq_some_iff.mp h
        obtain ⟨rest, _, rfl⟩ := Option.map_eq_some_iff.mp h
        rw [List.lookup_cons_self]
        exact hv.symm
    · rw [lookup_cons_ne hk]
      cases hm : members.lookup k' with
      | none =>
        rw [hm] at h
        replace h : (if s.isOptional then parseFields fields members else none) = some outs := h
        split at h
        · exact ih h
        · exact absurd h (by simp)
      | some v =>
        rw [hm] at h
        obtain ⟨v', _, h⟩ := Option.bind_eq_some_iff.mp h
        obtain ⟨rest, hr, rfl⟩ := Option.map_eq_some_iff.mp h
        rw [lookup_cons_ne hk]
        exact ih hr

theorem parse_record_unknown (members : List (String × Json)) :
    parse (.record .unknown) (.obj members) = some (.obj members) := by
  have h : (members.mapM fun p => (parse .unknown p.2).map fun v => (p.1, v)) = some members := by
    induction members with
    | nil => rfl
    | cons p members ih =>
      rw [List.mapM_cons, ih]
      rfl
  rw [parse, h]
  rfl

/-! ## members that are returned as they are -/

/-- the member is returned as it is, or may be missing -/
def Returns (s : Schema) : Option Json → Prop
  | some v => parse s v = some v
  | none => s.isOptional = true

/-- the members that a list of fields names, in its order -/
def kept (fields : List (String × Schema)) (members : List (String × Json)) : List (String × Json) :=
  fields.flatMap fun p => (members.lookup p.1).toList.map fun v => (p.1, v)

theorem kept_cons (k : String) (s : Schema) (fields : List (String × Schema))
    (members : List (String × Json)) : kept ((k, s) :: fields) members =
      ((members.lookup k).toList.map fun v => (k, v)) ++ kept fields members :=
  List.flatMap_cons

theorem parseFields_of_returns {fields : List (String × Schema)} {members : List (String × Json)}
    (h : ∀ p ∈ fields, p.2.Returns (members.lookup p.1)) :
    parseFields fields members = some (kept fields members) := by
  induction fields with
  | nil => rfl
  | cons p fields ih =>
    obtain ⟨k, s⟩ := p
    rw [List.forall_mem_cons] at h
    obtain ⟨hs, h⟩ := h
    rw [parseFields, ih h, kept_cons]
    change s.Returns (members.lookup k) at hs
    cases hm : members.lookup k with
    | none =>
      rw [hm] at hs
      exact if_pos hs
    | some v =>
      rw [hm] at hs
      exact congrArg (fun o => o.bind fun v => (some (kept fields members)).map fun rest =>
        (k, v) :: rest) hs

theorem mem_of_lookup {β : Type} {k : String} {b : β} {l : List (String × β)}
    (h : l.lookup k = some b) : (k, b) ∈ l := by
  induction l with
  | nil => exact absurd h (by simp)
  | cons p l ih =>
    obtain ⟨k', b'⟩ := p
    by_cases e : k = k'
    · subst e
      rw [List.lookup_cons_self] at h
      obtain rfl := Option.some.inj h
      exact List.mem_cons_self
    · rw [lookup_cons_ne e] at h
      exact List.mem_cons_of_mem _ (ih h)

theorem parse_array {s : Schema} {vs : List Json} (h : ∀ v ∈ vs, parse s v = some v) :
    parse (.array s) (.arr vs) = some (.arr vs) := by
  have hm : (vs.mapM fun v => parse s v) = some vs := by
    induction vs with
    | nil => rfl
    | cons v vs ih =>
      rw [List.forall_mem_cons] at h
      rw [List.mapM_cons, h.1, ih h.2]
      rfl
  rw [parse, hm]
  rfl

/-- **A strict object with members that are all named and returned as they are.** -/
theorem parse_strict {fields : List (String × Schema)} {members : List (String × Json)}
    (hkeys : ∀ p ∈ members, p.1 ∈ fields.map Prod.fst)
    (h : ∀ p ∈ fields, p.2.Returns (members.lookup p.1)) :
    parse (.object fields true) (.obj members) = some (.obj (kept fields members)) ∧
      ∀ k, (kept fields members).lookup k = members.lookup k := by
  have hknown : (members.any fun p => !(fields.map Prod.fst).contains p.1) = false := by
    rw [List.any_eq_false]
    intro p hp
    rw [List.contains_iff_mem.mpr (hkeys p hp)]
    simp
  have houts := parseFields_of_returns h
  constructor
  · rw [parse, hknown, Bool.and_false, if_neg Bool.false_ne_true, houts]
    rfl
  · intro k
    rw [lookup_parseFields houts]
    cases hf : fields.lookup k with
    | none =>
      -- the schema does not name it, so it is not there
      rw [Option.bind_none]
      symm
      rw [List.lookup_eq_none_iff]
      intro p hp
      obtain ⟨q, hq, hk⟩ := List.mem_map.mp (hkeys p hp)
      rw [← hk]
      exact List.lookup_eq_none_iff.mp hf q hq
    | some s =>
      have hs := h (k, s) (mem_of_lookup hf)
      rw [Option.bind_some]
      cases hm : members.lookup k with
      | none => rfl
      | some v =>
        rw [hm] at hs
        exact hs

example : accepts (.object [("a", .int), ("b", .optional .string)] false)
    (.obj [("c", .null), ("a", .int 3)]) = true := by decide

end Schema
