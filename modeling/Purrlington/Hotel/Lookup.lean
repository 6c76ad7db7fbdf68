import Purrlington.Lib.Url

/-!
# Hotel: asking the airport about a guest

`airport.service.ts` puts the id of the guest into the URL as it is, and `fetch` reads what it gets by
the URL standard.

* `requestPath`         the path that is asked for;
* `Plain`               an id that stands for itself in it;
* `requestPath_plain`   and what is then asked for.
-/

set_option linter.unusedSectionVars false

namespace Hotel
open Url (Bytes utf8)
open Percent (readEscapes)

/-- no blank or control character at the end, and no tab or line break -/
def trimmed (s : Bytes) : Bytes :=
  (s.reverse.dropWhile (· ≤ 32)).reverse.filter fun c => c != 9 && c != 10 && c != 13

/-- `%2e` is another way to write a dot -/
def readDots : Bytes → Bytes
  | a :: b :: c :: s =>
    if a = 37 ∧ b = 50 ∧ (c = 69 ∨ c = 101) then 46 :: readDots s else a :: readDots (b :: c :: s)
  | s => s
termination_by structural s => s

def isSingleDot (seg : Bytes) : Bool := readDots seg == [46]

def isDoubleDot (seg : Bytes) : Bool := readDots seg == [46, 46]

/-- a backslash is a slash, and a dot segment at the end leaves one -/
def prepared (s : Bytes) : Bytes :=
  let path := (Url.beforeQuery (trimmed s)).map fun c => if c = 92 then 47 else c
  if (path.splitOn 47).getLast?.any fun seg => isSingleDot seg || isDoubleDot seg then path ++ [47] else path

/-- the path of the request of `hasGuestClearedProcessing`, before `fetch` escapes what may not stand in
a path -/
def requestPath (guestId : String) : Bytes :=
  Url.resolve isSingleDot isDoubleDot (prepared (utf8 ("/arrivals/" ++ guestId)))

/-- neither blank nor control character, and none of `/`, `\`, `?`, `#` and `%` -/
def plainByte (c : UInt8) : Bool := 32 < c && !([47, 92, 63, 35, 37].contains c)

/-- an id that stands for itself -/
structure Plain (g : String) : Prop where
  bytes : (utf8 g).all plainByte = true
  text : g ≠ "" ∧ g ≠ "." ∧ g ≠ ".."

instance (g : String) : Decidable (Plain g) :=
  decidable_of_iff (_ ∧ _) ⟨fun h => ⟨h.1, h.2⟩, fun h => ⟨h.bytes, h.text⟩⟩

theorem plainByte_ne {c : UInt8} (h : plainByte c = true) :
    32 < c ∧ c ≠ 47 ∧ c ≠ 92 ∧ Url.inPath c = true ∧ c ≠ 37 := by
  simp only [plainByte, Bool.and_eq_true, decide_eq_true_iff, Bool.not_eq_true',
    List.contains_eq_mem, decide_eq_false_iff_not, List.mem_cons, List.not_mem_nil, or_false,
    not_or] at h
  simp [Url.inPath, h]

theorem readDots_eq_self {s : Bytes} (h : (37 : UInt8) ∉ s) : readDots s = s := by
  fun_induction readDots s with
  | case1 a b c s hdot ih => exact absurd (hdot.1 ▸ List.mem_cons_self) h
  | case2 a b c s hdot ih => rw [ih fun hm => h (List.mem_cons_of_mem _ hm)]
  | case3 s hs => rfl

theorem trimmed_eq_self {s : Bytes} (h : ∀ c ∈ s, 32 < c) : trimmed s = s := by
  have hne : ∀ c ∈ s, ¬ c ≤ 32 ∧ (c != 9 && c != 10 && c != 13) = true := by
    intro c hc
    have := h c hc
    refine ⟨UInt8.not_le.mpr this, ?_⟩
    simp only [Bool.and_eq_true, bne_iff_ne]
    refine ⟨⟨?_, ?_⟩, ?_⟩ <;> · rintro rfl; exact absurd this (by decide)
  have hdrop : s.reverse.dropWhile (· ≤ 32) = s.reverse := by
    cases hs : s.reverse with
    | nil => rfl
    | cons c t =>
      have hc : c ∈ s := List.mem_reverse.mp (hs ▸ List.mem_cons_self)
      exact List.dropWhile_cons_of_neg (by simpa using (hne c hc).1)
  rw [trimmed, hdrop, List.reverse_reverse, List.filter_eq_self.mpr fun c hc => (hne c hc).2]

section
variable {g : String} (h : Plain g)
include h

theorem Plain.mem {c : UInt8} (hc : c ∈ utf8 g) : plainByte c = true :=
  List.all_eq_true.mp h.bytes c hc

/-- the id is one segment, and no dot segment -/
theorem Plain.segment : (utf8 g).splitOn 47 = [utf8 g] ∧ isSingleDot (utf8 g) = false ∧
    isDoubleDot (utf8 g) = false := by
  have hslash : (47 : UInt8) ∉ utf8 g := fun hm => (plainByte_ne (h.mem hm)).2.1 rfl
  have hdots : readDots (utf8 g) = utf8 g :=
    readDots_eq_self fun hm => (plainByte_ne (h.mem hm)).2.2.2.2 rfl
  refine ⟨List.splitOn_eq_singleton hslash, ?_, ?_⟩
  · rw [isSingleDot, hdots]
    exact beq_false_of_ne fun e => h.text.2.1 (Url.utf8_inj e)
  · rw [isDoubleDot, hdots]
    exact beq_false_of_ne fun e => h.text.2.2 (Url.utf8_inj e)

/-- **A plain id is asked for as it is.** -/
theorem requestPath_plain : requestPath g = utf8 ("/arrivals/" ++ g) := by
  have htext : utf8 ("/arrivals/" ++ g) = 47 :: (utf8 "arrivals" ++ 47 :: utf8 g) := by
    rw [Url.utf8_append]
    rfl
  obtain ⟨hsplit, hdot, hdots⟩ := h.segment
  have hdirect : Url.Direct isSingleDot isDoubleDot (utf8 "arrivals" ++ 47 :: utf8 g) := by
    have hfront : (utf8 "arrivals").all Url.inPath = true := by decide
    refine (Url.direct_append ⟨List.all_eq_true.mp hfront, by unfold Url.NoDots; decide⟩).mpr ⟨?_, ?_⟩
    · exact fun c hc => (plainByte_ne (h.mem hc)).2.2.2.1
    · rw [Url.NoDots, hsplit]
      exact List.forall_mem_singleton.mpr ⟨hdot, hdots⟩
  have hbytes : ∀ c ∈ utf8 ("/arrivals/" ++ g), 32 < c ∧ c ≠ 92 := by
    rw [Url.utf8_append]
    have hfront : (utf8 "/arrivals/").all (fun c => 32 < c && c != 92) = true := by decide
    refine List.forall_mem_append.mpr ⟨fun c hc => ?_, fun c hc => ?_⟩
    · have hc := List.all_eq_true.mp hfront c hc
      rwa [Bool.and_eq_true, decide_eq_true_iff, bne_iff_ne] at hc
    · exact ⟨(plainByte_ne (h.mem hc)).1, (plainByte_ne (h.mem hc)).2.2.1⟩
  have hmap : (utf8 ("/arrivals/" ++ g)).map (fun c => if c = 92 then 47 else c) =
      utf8 ("/arrivals/" ++ g) := by
    refine (List.map_congr_left fun c hc => ?_).trans (List.map_id _)
    exact if_neg (hbytes c hc).2
  have hquery : Url.beforeQuery (utf8 ("/arrivals/" ++ g)) = utf8 ("/arrivals/" ++ g) := by
    rw [htext, Url.beforeQuery_cons_slash, Url.beforeQuery_eq_self hdirect.path]
  have hlast : ((utf8 ("/arrivals/" ++ g)).splitOn 47).getLast? = some (utf8 g) := by
    have hfront : utf8 ("/arrivals/" ++ g) = utf8 "/arrivals" ++ 47 :: utf8 g := by
      rw [htext]
      rfl
    rw [hfront, List.splitOn_append_cons_self, hsplit, List.getLast?_append]
    rfl
  have hprepared : prepared (utf8 ("/arrivals/" ++ g)) = utf8 ("/arrivals/" ++ g) := by
    rw [prepared, trimmed_eq_self fun c hc => (hbytes c hc).1, hquery, hmap, hlast]
    exact if_neg (by simp [hdot, hdots])
  rw [requestPath, hprepared, htext, Url.resolve_eq_self hdirect]

theorem readEscapes_requestPath : readEscapes (requestPath g) = utf8 ("/arrivals/" ++ g) := by
  rw [requestPath_plain h]
  refine Percent.readEscapes_of_unescape (Percent.unescape_of_not_mem ?_)
  rw [Url.utf8_append]
  intro hm
  rcases List.mem_append.mp hm with hm | hm
  · exact absurd hm (by decide)
  · exact (plainByte_ne (h.mem hm)).2.2.2.2 rfl

end
end Hotel
