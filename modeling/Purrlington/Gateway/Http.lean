import Mathlib.Data.UInt
import Mathlib.Data.List.Basic
import Mathlib.Tactic.Common

/-!
# Gateway: headers, response writers

A Go string is a list of bytes here (a decoded path may hold any byte), and header names are
canonical already.

* `Header`            one pair for each value;
* `ResponseWriter`    the part of net/http that the cache middleware touches; `body` is what the
                      handler writes, before the server drops it for HEAD and 304.
-/

set_option linter.unusedSectionVars false

namespace Gateway

abbrev Bytes := List UInt8

/-- the bytes of an ASCII literal -/
def ascii (s : String) : Bytes := s.toList.map fun c => c.toNat.toUInt8

/-! ## headers -/

/-- a header, one pair for each value, in the order of the values of a name -/
abbrev Header := List (String × String)

namespace Header

def values (h : Header) (name : String) : List String :=
  h.filterMap fun p => if p.1 = name then some p.2 else none

/-- `Header.Get`: the first value, or the empty string -/
def get (h : Header) (name : String) : String := (h.values name).headD ""

def add (h : Header) (name value : String) : Header := h ++ [(name, value)]

def del (h : Header) (name : String) : Header := h.filter fun p => p.1 ≠ name

def set (h : Header) (name value : String) : Header := add (del h name) name value

theorem values_append (h h' : Header) (name : String) :
    values (h ++ h') name = values h name ++ values h' name := List.filterMap_append

theorem get_append_of_values_nil {h h' : Header} {name : String} (e : values h name = []) :
    get (h ++ h') name = get h' name := by
  unfold get
  rw [values_append, e, List.nil_append]

end Header

/-! ## response writers -/

/-- what a handler has done to a `http.ResponseWriter`: the live header map, the status with the
header as it was when that status was written, and the bytes -/
structure ResponseWriter where
  header : Header
  sent : Option (Nat × Header) := none
  body : Bytes := []
  deriving DecidableEq, Repr

namespace ResponseWriter

/-- the status line the client sees -/
def status (w : ResponseWriter) : Option Nat := w.sent.map Prod.fst

/-- 1xx other than 101 is an interim response; after the first final status a call is superfluous -/
def writeHeader (w : ResponseWriter) (code : Nat) : ResponseWriter :=
  if w.sent.isSome then w
  else if 100 ≤ code ∧ code ≤ 199 ∧ code ≠ 101 then w
  else { w with sent := some (code, w.header) }

def write (w : ResponseWriter) (b : Bytes) : ResponseWriter :=
  let w := w.writeHeader 200
  { w with body := w.body ++ b }

/-- flushing sends the header first -/
def flush (w : ResponseWriter) : ResponseWriter := w.writeHeader 200

/-- the server ends the response when the handler returns -/
def finish (w : ResponseWriter) : ResponseWriter := w.writeHeader 200

theorem writeHeader_of_sent {w : ResponseWriter} {p : Nat × Header} (h : w.sent = some p)
    (code : Nat) : w.writeHeader code = w := by
  unfold writeHeader
  rw [h]
  rfl

theorem writeHeader_final {w : ResponseWriter} (h : w.sent = none) {code : Nat}
    (hc : 200 ≤ code) : w.writeHeader code = { w with sent := some (code, w.header) } := by
  unfold writeHeader
  have hi : ¬ (100 ≤ code ∧ code ≤ 199 ∧ code ≠ 101) := by omega
  rw [h, if_neg (by simp), if_neg hi]

theorem write_of_sent {w : ResponseWriter} {p : Nat × Header} (h : w.sent = some p) (b : Bytes) :
    w.write b = { w with body := w.body ++ b } := by
  unfold write
  rw [writeHeader_of_sent h]

theorem writeHeader_header (w : ResponseWriter) (code : Nat) :
    (w.writeHeader code).header = w.header := by
  unfold writeHeader
  split
  · rfl
  · split <;> rfl

theorem writeHeader_sent {w : ResponseWriter} {code : Nat} {p : Nat × Header}
    (h : (w.writeHeader code).sent = some p) : w.sent = some p ∨ p.2 = w.header := by
  unfold writeHeader at h
  split at h
  · exact .inl h
  · split at h
    · exact .inl h
    · obtain rfl := Option.some.inj h
      exact .inr rfl

/-- when the server has ended a response, its header has been sent -/
theorem finish_sent (w : ResponseWriter) : ∃ p, w.finish.sent = some p ∧
    (w.sent = some p ∨ w.sent = none ∧ p.2 = w.header) := by
  cases hs : w.sent with
  | some p =>
    refine ⟨p, ?_, .inl rfl⟩
    unfold finish
    rw [writeHeader_of_sent hs]
    exact hs
  | none =>
    refine ⟨(200, w.header), ?_, .inr ⟨rfl, rfl⟩⟩
    unfold finish
    rw [writeHeader_final hs (Nat.le_refl _)]

end ResponseWriter

end Gateway
