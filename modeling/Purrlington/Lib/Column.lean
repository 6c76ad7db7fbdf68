import Mathlib.Data.String.Basic

/-!
# Columns of a database

What a value has to be for a column to take it, or for a comparison with the column to be one.

* `takesText`, `varchar`   texts: PostgreSQL has no U+0000 in them, and may bound their length;
* `int4`, `int8`           signed integers of 32 and of 64 bits.
-/

namespace Column

/-- a text column takes no NUL -/
def takesText (s : String) : Bool := !s.toList.contains (Char.ofNat 0)

def varchar (n : Nat) (s : String) : Bool := s.length ≤ n && takesText s

theorem takesText_of_varchar {n : Nat} {s : String} (h : varchar n s = true) : takesText s = true :=
  (Bool.and_eq_true_iff.mp h).2

def int4 (n : Int) : Bool := decide (-2147483648 ≤ n ∧ n ≤ 2147483647)

def int8 (n : Int) : Bool := decide (-9223372036854775808 ≤ n ∧ n ≤ 9223372036854775807)

end Column
