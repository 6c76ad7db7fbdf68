import Mathlib.Data.List.Basic
import Mathlib.Data.List.Sort
import Mathlib.Data.Rat.Defs
import Mathlib.Algebra.BigOperators.Group.List.Basic
import Mathlib.Algebra.Order.BigOperators.Group.List
import Mathlib.Algebra.Order.Ring.Nat

/-!
# JSON values and their text

The text is that of Python's `json.dumps` with its defaults: `", "` and `": "`, and only ASCII.
How a float is printed is a parameter.

* `Json.dumps`          the text;
* `Json.sortKeys`       the value with the members of every object sorted by key;
* `Json.size`           the length of the text;
* `size_arr`, `size_obj`    that length from the lengths of the parts;
* `size_sortKeys`       sorting does not change it;
* `Json.member`, `Json.elements`, `Json.text`   what is read of a value.
-/

set_option linter.unusedSectionVars false

inductive Json where
  | null
  | bool (b : Bool)
  | int (n : Int)
  | float (q : Rat)
  | str (s : String)
  | arr (vs : List Json)
  | obj (members : List (String × Json))

namespace Json

/-! ## strings -/

def hexDigit (n : Nat) : Char := "0123456789abcdef".toList.getD (n % 16) '0'

/-- `\uXXXX` -/
def unicode (n : Nat) : List Char :=
  ['\\', 'u', hexDigit (n / 4096), hexDigit (n / 256), hexDigit (n / 16), hexDigit n]

/-- a character of a string: printable ASCII stays, the rest is escaped -/
def escape (c : Char) : List Char :=
  if c = '\\' then ['\\', '\\']
  else if c = '"' then ['\\', '"']
  else if c = '\n' then ['\\', 'n']
  else if c = '\r' then ['\\', 'r']
  else if c = '\t' then ['\\', 't']
  else if c.toNat = 12 then ['\\', 'f']
  else if c.toNat = 8 then ['\\', 'b']
  else if 32 ≤ c.toNat ∧ c.toNat ≤ 126 then [c]
  else if c.toNat < 65536 then unicode c.toNat
  else
    -- a pair of surrogates
    let n := c.toNat - 65536
    unicode (55296 + n / 1024) ++ unicode (56320 + n % 1024)

def quote (s : String) : List Char := '"' :: s.toList.flatMap escape ++ ['"']

theorem length_quote (s : String) :
    (quote s).length = (s.toList.flatMap escape).length + 2 := by
  rw [quote, List.length_append, List.length_cons]
  rfl

theorem length_quote_append (s t : String) :
    (quote (s ++ t)).length = (quote s).length + (t.toList.flatMap escape).length := by
  rw [length_quote, length_quote, String.toList_append, List.flatMap_append, List.length_append]
  omega

/-! ## values -/

def joined (texts : List (List Char)) : List Char := [',', ' '].intercalate texts

section
variable (showFloat : Rat → String)

mutual

def dumps : Json → List Char
  | .null => "null".toList
  | .bool b => if b then "true".toList else "false".toList
  | .int n => (toString n).toList
  | .float q => (showFloat q).toList
  | .str s => quote s
  | .arr vs => '[' :: joined (dumpsAll vs) ++ [']']
  | .obj members => '{' :: joined (dumpsMembers members) ++ ['}']

def dumpsAll : List Json → List (List Char)
  | [] => []
  | v :: vs => dumps v :: dumpsAll vs

def dumpsMembers : List (String × Json) → List (List Char)
  | [] => []
  | (k, v) :: members => (quote k ++ [':', ' '] ++ dumps v) :: dumpsMembers members

end

end

/-- sort the members of an object -/
def sortMembers (members : List (String × Json)) : List (String × Json) :=
  members.insertionSort fun p q => p.1 ≤ q.1

mutual

/-- `sort_keys=True` -/
def sortKeys : Json → Json
  | .arr vs => .arr (sortKeysAll vs)
  | .obj members => .obj (sortMembers (sortKeysMembers members))
  | v => v

def sortKeysAll : List Json → List Json
  | [] => []
  | v :: vs => sortKeys v :: sortKeysAll vs

def sortKeysMembers : List (String × Json) → List (String × Json)
  | [] => []
  | (k, v) :: members => (k, sortKeys v) :: sortKeysMembers members

end

/-! ## lengths -/

/-- the length of texts of these lengths with separators of length two between them -/
def width (lengths : List Nat) : Nat := lengths.sum + 2 * (lengths.length - 1)

theorem width_perm {l l' : List Nat} (h : l.Perm l') : width l = width l' := by
  rw [width, width, h.length_eq, h.sum_eq]

theorem width_map_le {ι : Type*} {l : List ι} {f g : ι → Nat} (h : ∀ i ∈ l, f i ≤ g i) :
    width (l.map f) ≤ width (l.map g) := by
  rw [width, width, List.length_map, List.length_map]
  exact Nat.add_le_add_right (List.sum_le_sum h) _

theorem width_map_lt {ι : Type*} {l : List ι} {f g : ι → Nat} (h : ∀ i ∈ l, f i ≤ g i)
    (h' : ∃ i ∈ l, f i < g i) : width (l.map f) < width (l.map g) := by
  rw [width, width, List.length_map, List.length_map]
  exact Nat.add_lt_add_right (List.sum_lt_sum f g h h') _

theorem length_joined (texts : List (List Char)) :
    (joined texts).length = width (texts.map List.length) := by
  induction texts with
  | nil => rfl
  | cons a texts ih =>
    cases texts with
    | nil =>
      rw [joined, List.intercalate_singleton]
      rfl
    | cons b texts =>
      rw [joined, List.intercalate_cons_cons, List.length_append, List.length_append]
      replace ih : ([',', ' '].intercalate (b :: texts)).length =
        (b.length + (texts.map List.length).sum) + 2 * ((texts.map List.length).length) := ih
      show a.length + 2 + _ = (a.length + (b.length + (texts.map List.length).sum)) +
        2 * ((texts.map List.length).length + 1)
      omega

section
variable (showFloat : Rat → String)

/-- the length of the text of a value -/
def size (v : Json) : Nat := (dumps showFloat v).length

/-- the length of the text of a member -/
def memberSize (p : String × Json) : Nat := (quote p.1).length + 2 + size showFloat p.2

theorem lengths_dumpsAll (vs : List Json) :
    (dumpsAll showFloat vs).map List.length = vs.map (size showFloat) := by
  induction vs with
  | nil => rfl
  | cons v vs ih =>
    rw [dumpsAll, List.map_cons, List.map_cons, ih]
    rfl

theorem lengths_dumpsMembers (members : List (String × Json)) :
    (dumpsMembers showFloat members).map List.length = members.map (memberSize showFloat) := by
  induction members with
  | nil => rfl
  | cons p members ih =>
    rw [dumpsMembers, List.map_cons, List.map_cons, ih, List.length_append, List.length_append]
    rfl

theorem size_arr (vs : List Json) :
    size showFloat (.arr vs) = width (vs.map (size showFloat)) + 2 := by
  rw [size, dumps, List.length_append, List.length_cons, length_joined, lengths_dumpsAll]
  rfl

theorem size_obj (members : List (String × Json)) :
    size showFloat (.obj members) = width (members.map (memberSize showFloat)) + 2 := by
  rw [size, dumps, List.length_append, List.length_cons, length_joined, lengths_dumpsMembers]
  rfl

mutual

theorem size_sortKeys (v : Json) : size showFloat (sortKeys v) = size showFloat v := by
  cases v with
  | arr vs => rw [sortKeys, size_arr, size_arr, sizes_sortKeysAll vs]
  | obj members =>
    rw [sortKeys, size_obj, size_obj, ← sizes_sortKeysMembers members]
    exact congrArg (· + 2) (width_perm ((List.perm_insertionSort _ _).map _))
  | null => rfl
  | bool b => rfl
  | int n => rfl
  | float q => rfl
  | str s => rfl

theorem sizes_sortKeysAll (vs : List Json) :
    (sortKeysAll vs).map (size showFloat) = vs.map (size showFloat) := by
  cases vs with
  | nil => rfl
  | cons v vs =>
    rw [sortKeysAll, List.map_cons, List.map_cons, sizes_sortKeysAll vs, size_sortKeys v]

theorem sizes_sortKeysMembers (members : List (String × Json)) :
    (sortKeysMembers members).map (memberSize showFloat) = members.map (memberSize showFloat) := by
  cases members with
  | nil => rfl
  | cons p members =>
    obtain ⟨k, v⟩ := p
    rw [sortKeysMembers, List.map_cons, List.map_cons, sizes_sortKeysMembers members, memberSize,
      memberSize, size_sortKeys v]

end
end
/-! ## reading -/

/-- the member of an object with this name -/
def member (k : String) : Json → Option Json
  | .obj members => members.lookup k
  | _ => none

/-- the array that is the member of an object, or nothing -/
def elements (k : String) (v : Json) : List Json :=
  match v.member k with
  | some (.arr vs) => vs
  | _ => []

/-- the string that is the member of an object -/
def text (k : String) (v : Json) : Option String :=
  match v.member k with
  | some (.str s) => some s
  | _ => none

end Json
