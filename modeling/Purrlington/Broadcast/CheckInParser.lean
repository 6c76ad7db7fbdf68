import Purrlington.Broadcast.CheckIn

/-!
# Broadcast: the check-in parser on any input

Only the parse of `Kotlin.guestIdFrom` is guarded.  What the parsed object holds at the places it
then looks at may be any value: `jsonPrimitive` throws for an object or an array, and the `content`
of a null, a number or a boolean is a text like that of a string.

* `typeFields`, `guestFields`   the places, in the order of the two chains;
* `eventType_eq`, `guestId_eq`  a chain reads the first field that is present;
* `Sound`       the parser returns on an input, and what it returns is a string of the input;
* `StringsFirst`    the condition on an event, by the kinds of the first fields;
* `sound_iff`       it is the exact one;
* `listen_sound`, `listen_ended`   the listener over lines that all meet it, and over a line on
                                   which the parser throws.
-/

set_option linter.unusedSectionVars false

namespace Kotlin

/-! ## the two chains -/

/-- the places of the type of an event -/
def typeFields (event : List (String × Json)) : List (Option Json) :=
  [event.lookup "event_type",
   event.lookup "type",
   (obj event "data").bind fun data => data.lookup "type",
   (obj event "payload").bind fun payload => payload.lookup "type"]

/-- the places of the guest of an event -/
def guestFields (event : List (String × Json)) : List (Option Json) :=
  [event.lookup "guest_id",
   (obj event "data").bind fun data => data.lookup "guest_id",
   ((obj event "data").bind fun data => obj data "payload").bind fun payload =>
     payload.lookup "guest_id",
   (obj event "payload").bind fun payload => payload.lookup "guest_id",
   ((obj event "payload").bind fun payload => obj payload "payload").bind fun payload =>
     payload.lookup "guest_id"]

def firstPresent (fields : List (Option Json)) : Option Json := fields.findSome? id

theorem firstPresent_mem {fields : List (Option Json)} {v : Json}
    (h : firstPresent fields = some v) : some v ∈ fields := by
  obtain ⟨field, hmem, rfl⟩ := List.exists_of_findSome?_eq_some h
  exact hmem

section
variable (number : Rat → String) (parseToJsonElement : List Char → Option Json)

def textOf : Option Json → Result
  | none => .ok none
  | some v => match content number v with
    | some s => .ok (some s)
    | none => .error ()

theorem string_eq (o : List (String × Json)) (key : String) :
    string number o key = textOf number (o.lookup key) := by
  rw [string]
  cases o.lookup key with
  | none => rfl
  | some v => rfl

theorem stringOf_eq (o : Option (List (String × Json))) (key : String) :
    stringOf number o key = textOf number (o.bind fun members => members.lookup key) := by
  cases o with
  | none => rfl
  | some members => exact string_eq number members key

theorem elvis_none (a : Result) : elvis a (.ok none) = a := by
  cases a with
  | error e => rfl
  | ok result => cases result <;> rfl

/-- the field at the head of a chain is read if it is present, and else the rest of the chain -/
theorem elvis_textOf (field : Option Json) (fields : List (Option Json)) :
    elvis (textOf number field) (textOf number (firstPresent fields)) =
      textOf number (firstPresent (field :: fields)) := by
  cases field with
  | none => rfl
  | some v =>
    show elvis (textOf number (some v)) _ = textOf number (some v)
    rw [textOf]
    cases content number v with
    | none => rfl
    | some s => rfl

theorem textOf_last (field : Option Json) :
    textOf number field = textOf number (firstPresent [field]) := by
  rw [← elvis_textOf]
  exact (elvis_none _).symm

theorem eventType_eq (event : List (String × Json)) :
    eventType number event = textOf number (firstPresent (typeFields event)) := by
  rw [eventType, string_eq, string_eq, stringOf_eq, stringOf_eq,
    textOf_last number ((obj event "payload").bind fun payload => payload.lookup "type"),
    elvis_textOf, elvis_textOf, elvis_textOf]
  rfl

theorem guestId_eq (event : List (String × Json)) :
    guestId number event = textOf number (firstPresent (guestFields event)) := by
  rw [guestId, string_eq, stringOf_eq, stringOf_eq, stringOf_eq, stringOf_eq,
    textOf_last number (((obj event "payload").bind fun payload => obj payload "payload").bind
      fun payload => payload.lookup "guest_id"),
    elvis_textOf, elvis_textOf, elvis_textOf, elvis_textOf]
  rfl

/-! ## what is asked of the parser -/

/-- `g` is the guest of a confirmation: the type of the event and `g` are strings of it -/
structure Named (event : List (String × Json)) (g : String) : Prop where
  type : firstPresent (typeFields event) = some (.str HOTEL_CONFIRM_EVENT)
  guest : some (.str g) ∈ guestFields event

/-- the parser returns, and a guest that it returns is named by the input -/
def Sound (rawEvent : List Char) : Prop :=
  ∃ result, guestIdFrom number parseToJsonElement rawEvent = .ok result ∧
    ∀ g, result = some g →
      ∃ event, parseToJsonElement rawEvent = some (.obj event) ∧ Named event g

/-- the first guest is a string, or a scalar that a string at a later place spells -/
def GuestFirst (event : List (String × Json)) : Prop :=
  match firstPresent (guestFields event) with
  | none => True
  | some (.str _) => True
  | some .null => some (.str "null") ∈ guestFields event
  | some (.bool b) => some (.str (if b then "true" else "false")) ∈ guestFields event
  | some (.int n) => some (.str (number n)) ∈ guestFields event
  | some (.float q) => some (.str (number q)) ∈ guestFields event
  | some (.arr _) => False
  | some (.obj _) => False

/-- the first type is no object and no array.  If it spells a confirmation it is a string and the
first guest is as above, or it is no string and there is no guest -/
def StringsFirst (event : List (String × Json)) : Prop :=
  match firstPresent (typeFields event) with
  | none => True
  | some (.str type) => type = HOTEL_CONFIRM_EVENT → GuestFirst number event
  | some .null => True
  | some (.bool _) => True
  | some (.int n) => number n = HOTEL_CONFIRM_EVENT → firstPresent (guestFields event) = none
  | some (.float q) => number q = HOTEL_CONFIRM_EVENT → firstPresent (guestFields event) = none
  | some (.arr _) => False
  | some (.obj _) => False

/-! ## the condition is exact -/

theorem returns_ok (result : Option String) (P : Option String → Prop) :
    (∃ r, (Except.ok result : Result) = .ok r ∧ P r) ↔ P result := by
  constructor
  · rintro ⟨r, h, hr⟩
    obtain rfl := Except.ok.inj h
    exact hr
  · intro h
    exact ⟨result, rfl, h⟩

theorem returns_error (P : Option String → Prop) :
    (∃ r, (Except.error () : Result) = .ok r ∧ P r) ↔ False := by
  constructor
  · rintro ⟨r, h, _⟩
    cases h
  · exact False.elim

/-- a guest that is returned is the string at one of the places -/
theorem guestId_iff (event : List (String × Json)) :
    (∃ result, guestId number event = .ok result ∧
        ∀ g, result = some g → some (.str g) ∈ guestFields event) ↔
      GuestFirst number event := by
  have hspelled (s : String) :
      (∀ g, some s = some g → some (Json.str g) ∈ guestFields event) ↔
        some (.str s) ∈ guestFields event := by
    simp only [Option.some.injEq, forall_eq']
  rw [guestId_eq, GuestFirst]
  cases h : firstPresent (guestFields event) with
  | none =>
    rw [textOf, returns_ok]
    simp
  | some v =>
    cases v with
    | str s =>
      rw [textOf, content, returns_ok, hspelled]
      exact iff_true_intro (firstPresent_mem h)
    | null => rw [textOf, content, returns_ok, hspelled]
    | bool b => rw [textOf, content, returns_ok, hspelled]
    | int n => rw [textOf, content, returns_ok, hspelled]
    | float q => rw [textOf, content, returns_ok, hspelled]
    | arr vs => rw [textOf, content, returns_error]
    | obj members => rw [textOf, content, returns_error]

section
variable {number parseToJsonElement} {rawEvent : List Char} {event : List (String × Json)}
  (hparse : parseToJsonElement rawEvent = some (.obj event))
include hparse

theorem guestIdFrom_error (htype : textOf number (firstPresent (typeFields event)) = .error ()) :
    guestIdFrom number parseToJsonElement rawEvent = .error () := by
  rw [← eventType_eq] at htype
  simp only [guestIdFrom, hparse, htype]

theorem guestIdFrom_other {type : Option String} (hne : type ≠ some HOTEL_CONFIRM_EVENT)
    (htype : textOf number (firstPresent (typeFields event)) = .ok type) :
    guestIdFrom number parseToJsonElement rawEvent = .ok none := by
  rw [← eventType_eq] at htype
  simp only [guestIdFrom, hparse, htype]
  exact if_pos hne

theorem guestIdFrom_confirmed
    (htype : textOf number (firstPresent (typeFields event)) = .ok (some HOTEL_CONFIRM_EVENT)) :
    guestIdFrom number parseToJsonElement rawEvent = guestId number event := by
  rw [← eventType_eq] at htype
  simp only [guestIdFrom, hparse, htype]
  exact if_neg fun h => h rfl

/-- on an object it is the event of the object that has to name the guest -/
theorem sound_object :
    Sound number parseToJsonElement rawEvent ↔
      ∃ result, guestIdFrom number parseToJsonElement rawEvent = .ok result ∧
        ∀ g, result = some g → Named event g := by
  have hnamed (g : String) :
      (∃ event', parseToJsonElement rawEvent = some (.obj event') ∧ Named event' g) ↔
        Named event g := by
    constructor
    · rintro ⟨event', h, hg⟩
      obtain rfl := Json.obj.inj (Option.some.inj (hparse.symm.trans h))
      exact hg
    · intro hg
      exact ⟨event, hparse, hg⟩
  simp only [Sound, hnamed]

theorem sound_of_error (h : guestIdFrom number parseToJsonElement rawEvent = .error ()) :
    Sound number parseToJsonElement rawEvent ↔ False := by
  rw [sound_object hparse, h]
  exact returns_error _

theorem sound_of_other (h : guestIdFrom number parseToJsonElement rawEvent = .ok none) :
    Sound number parseToJsonElement rawEvent ↔ True := by
  rw [sound_object hparse, h, returns_ok]
  simp

theorem sound_of_differs {text : String}
    (htext : textOf number (firstPresent (typeFields event)) = .ok (some text))
    (hne : text ≠ HOTEL_CONFIRM_EVENT) : Sound number parseToJsonElement rawEvent ↔ True :=
  sound_of_other hparse (guestIdFrom_other hparse (fun h => hne (Option.some.inj h)) htext)

theorem sound_of_str {type : String}
    (htype : firstPresent (typeFields event) = some (.str type)) :
    Sound number parseToJsonElement rawEvent ↔
      (type = HOTEL_CONFIRM_EVENT → GuestFirst number event) := by
  have htext : textOf number (firstPresent (typeFields event)) = .ok (some type) := by rw [htype]; rfl
  by_cases e : type = HOTEL_CONFIRM_EVENT
  · subst e
    have hnamed (g : String) : Named event g ↔ some (.str g) ∈ guestFields event :=
      ⟨fun h => h.guest, fun h => ⟨htype, h⟩⟩
    rw [sound_object hparse, guestIdFrom_confirmed hparse htext, ← guestId_iff]
    simp only [hnamed, forall_const]
  · rw [sound_of_differs hparse htext e]
    exact (iff_true_intro fun h => absurd h e).symm

/-- another scalar in the first place: if it spells a confirmation, no guest may be there -/
theorem sound_of_scalar {v : Json} {text : String}
    (htype : firstPresent (typeFields event) = some v) (hcontent : content number v = some text)
    (hv : v ≠ .str HOTEL_CONFIRM_EVENT) :
    Sound number parseToJsonElement rawEvent ↔
      (text = HOTEL_CONFIRM_EVENT → firstPresent (guestFields event) = none) := by
  have htext : textOf number (firstPresent (typeFields event)) = .ok (some text) := by
    rw [htype, textOf, hcontent]
  by_cases e : text = HOTEL_CONFIRM_EVENT
  · subst e
    have hnamed (g : String) : ¬ Named event g := fun h =>
      hv (Option.some.inj (htype.symm.trans h.type))
    rw [sound_object hparse, guestIdFrom_confirmed hparse htext, guestId_eq]
    cases hguest : firstPresent (guestFields event) with
    | none =>
      rw [textOf, returns_ok]
      simp
    | some w =>
      rw [textOf]
      cases content number w with
      | none =>
        rw [returns_error]
        simp
      | some g =>
        rw [returns_ok]
        simp [hnamed]
  · rw [sound_of_differs hparse htext e]
    exact (iff_true_intro fun h => absurd h e).symm

theorem sound_object_iff :
    Sound number parseToJsonElement rawEvent ↔ StringsFirst number event := by
  have hnull : "null" ≠ HOTEL_CONFIRM_EVENT := by decide
  have hbool (b : Bool) : (if b then "true" else "false") ≠ HOTEL_CONFIRM_EVENT := by
    cases b <;> decide
  have hthrows (h : textOf number (firstPresent (typeFields event)) = .error ()) :
      Sound number parseToJsonElement rawEvent ↔ False :=
    sound_of_error hparse (guestIdFrom_error hparse h)
  rw [StringsFirst]
  cases htype : firstPresent (typeFields event) with
  | none =>
    have htext : textOf number (firstPresent (typeFields event)) = .ok none := by rw [htype]; rfl
    exact sound_of_other hparse (guestIdFrom_other hparse (by simp) htext)
  | some v =>
    cases v with
    | str type => exact sound_of_str hparse htype
    | null =>
      rw [sound_of_scalar hparse htype rfl (by simp)]
      exact iff_true_intro fun h => absurd h hnull
    | bool b =>
      rw [sound_of_scalar hparse htype rfl (by simp)]
      exact iff_true_intro fun h => absurd h (hbool b)
    | int n => exact sound_of_scalar hparse htype rfl (by simp)
    | float q => exact sound_of_scalar hparse htype rfl (by simp)
    | arr vs => exact hthrows (by rw [htype]; rfl)
    | obj members => exact hthrows (by rw [htype]; rfl)

end

/-- **When the check-in parser is total and truthful.**  Just on the inputs that are no object, and
on those objects whose first type and first guest are strings, or scalars that do no harm. -/
theorem sound_iff (rawEvent : List Char) :
    Sound number parseToJsonElement rawEvent ↔
      ∀ event, parseToJsonElement rawEvent = some (.obj event) → StringsFirst number event := by
  by_cases h : ∃ event, parseToJsonElement rawEvent = some (.obj event)
  · obtain ⟨event, hparse⟩ := h
    rw [sound_object_iff hparse]
    constructor
    · intro hfirst event' hparse'
      obtain rfl := Json.obj.inj (Option.some.inj (hparse.symm.trans hparse'))
      exact hfirst
    · intro hfirst
      exact hfirst event hparse
  · have hnone : guestIdFrom number parseToJsonElement rawEvent = .ok none := by
      rw [guestIdFrom]
      split
      · next event hparse => exact absurd ⟨event, hparse⟩ h
      · rfl
    constructor
    · intro _ event hparse
      exact absurd ⟨event, hparse⟩ h
    · intro _
      exact ⟨none, hnone, by simp⟩

/-! ## the listener -/

def dataOf (line : List Char) : Option (List Char) :=
  if "data:".toList.isPrefixOf line then some (trim (line.drop 5)) else none

theorem handleLine_eq (line : List Char) : handleLine number parseToJsonElement line =
    match dataOf line with
    | some text => guestIdFrom number parseToJsonElement text
    | none => .ok none := by
  rw [handleLine, dataOf]
  split <;> rfl

def guestOf (line : List Char) : Option String :=
  match handleLine number parseToJsonElement line with
  | .ok guest => guest
  | .error _ => none

/-- over lines on which the parser is sound the listener gets to the end of the stream, or to a guest
whose id the table does not take, and every guest that it marks is named by a line -/
theorem listen_sound {lines : List (List Char)}
    (h : ∀ line ∈ lines, ∀ text, dataOf line = some text → Sound number parseToJsonElement text)
    {db : Beach.Db} (hfit : db.VisitorsFit) :
    listen number parseToJsonElement db lines =
        untilRaised (lines.filterMap (guestOf number parseToJsonElement)) ∧
      ∀ g ∈ listen number parseToJsonElement db lines, ∃ line ∈ lines, ∃ text event,
        dataOf line = some text ∧ parseToJsonElement text = some (.obj event) ∧ Named event g := by
  induction lines generalizing db with
  | nil => exact ⟨rfl, fun g hg => absurd hg List.not_mem_nil⟩
  | cons line lines ih =>
    rw [List.forall_mem_cons] at h
    obtain ⟨hline, hlines⟩ := h
    have later : ∀ {db : Beach.Db}, db.VisitorsFit → ∀ g ∈ listen number parseToJsonElement db lines,
        ∃ l ∈ line :: lines, ∃ text event,
          dataOf l = some text ∧ parseToJsonElement text = some (.obj event) ∧ Named event g := by
      intro db hfit g hg
      obtain ⟨l, hl, hrest⟩ := (ih hlines hfit).2 g hg
      exact ⟨l, List.mem_cons_of_mem _ hl, hrest⟩
    obtain ⟨guest?, hfound, hnamed⟩ : ∃ guest?,
        handleLine number parseToJsonElement line = .ok guest? ∧ ∀ g, guest? = some g →
          ∃ text event, dataOf line = some text ∧ parseToJsonElement text = some (.obj event) ∧
            Named event g := by
      rw [handleLine_eq]
      cases htext : dataOf line with
      | none => exact ⟨none, rfl, by simp⟩
      | some text =>
        obtain ⟨guest?, hresult, hsound⟩ := hline text htext
        refine ⟨guest?, hresult, fun g e => ?_⟩
        obtain ⟨event, hparse, hevent⟩ := hsound g e
        exact ⟨text, event, rfl, hparse, hevent⟩
    have hguest : guestOf number parseToJsonElement line = guest? := by rw [guestOf, hfound]
    cases guest? with
    | none =>
      rw [listen_none hfound, List.filterMap_cons_none hguest]
      exact ⟨(ih hlines hfit).1, later hfit⟩
    | some g =>
      obtain ⟨text, event, hrest⟩ := hnamed g rfl
      have hhead : ∃ l ∈ line :: lines, ∃ text event, dataOf l = some text ∧
          parseToJsonElement text = some (.obj event) ∧ Named event g :=
        ⟨line, List.mem_cons_self, text, event, hrest⟩
      rw [listen_some hfound hfit, List.filterMap_cons_some hguest, untilRaised]
      by_cases hid : Column.varchar 50 g = true
      · have hfit' := Beach.Sql.visitorsFit_markCheckedIn hfit hid
        rw [if_pos hid, if_pos hid]
        refine ⟨congrArg _ (ih hlines hfit').1, fun g' hg' => ?_⟩
        rcases List.mem_cons.mp hg' with rfl | hg'
        · exact hhead
        · exact later hfit' g' hg'
      · rw [if_neg hid, if_neg hid]
        refine ⟨rfl, fun g' hg' => ?_⟩
        obtain rfl := List.mem_singleton.mp hg'
        exact hhead

/-- a line on which the parser throws ends the stream: no later confirmation is seen -/
theorem listen_ended {line text : List Char} (htext : dataOf line = some text)
    (hthrows : guestIdFrom number parseToJsonElement text = .error ())
    (before after : List (List Char)) (db : Beach.Db) :
    listen number parseToJsonElement db (before ++ line :: after) =
      listen number parseToJsonElement db before := by
  have hline : handleLine number parseToJsonElement line = .error () := by
    rw [handleLine_eq, htext]
    exact hthrows
  induction before generalizing db with
  | nil =>
    simp only [List.nil_append, listen, hline]
  | cons l before ih =>
    simp only [List.cons_append, listen, ih]

end

/-! ## two inputs -/

open Broadcast (quoted)

/-- an object of one member -/
def braces (key : String) (value : List Char) : List Char :=
  '{' :: (quoted key ++ ':' :: value ++ ['}'])

/-- the type of the event is an object -/
def nestedType : List Char := braces "event_type" ['{', '}']

/-- a confirmation, whose guest is null -/
def nullGuest : List Char :=
  '{' :: (quoted "event_type" ++ ':' :: quoted HOTEL_CONFIRM_EVENT ++
    ',' :: quoted "guest_id" ++ ':' :: "null".toList ++ ['}'])

def twoTexts (text : List Char) : Option Json :=
  if text = nestedType then some (.obj [("event_type", .obj [])])
  else if text = nullGuest then
    some (.obj [("event_type", .str HOTEL_CONFIRM_EVENT), ("guest_id", .null)])
  else none

theorem null_checked_in :
    guestIdFrom (fun _ => "0") twoTexts nestedType = .error () ∧
      guestIdFrom (fun _ => "0") twoTexts nullGuest = .ok (some "null") ∧
      ¬ Sound (fun _ => "0") twoTexts nestedType ∧ ¬ Sound (fun _ => "0") twoTexts nullGuest := by
  have hnested : twoTexts nestedType = some (.obj [("event_type", .obj [])]) := if_pos rfl
  have hnull : twoTexts nullGuest =
      some (.obj [("event_type", .str HOTEL_CONFIRM_EVENT), ("guest_id", .null)]) :=
    (if_neg (by decide +kernel)).trans (if_pos rfl)
  have hthrows : guestIdFrom (fun _ => "0") twoTexts nestedType = .error () := by
    rw [guestIdFrom, hnested]
    rfl
  have hmarks : guestIdFrom (fun _ => "0") twoTexts nullGuest = .ok (some "null") := by
    rw [guestIdFrom, hnull]
    rfl
  refine ⟨hthrows, hmarks, ?_, ?_⟩
  · rintro ⟨result, h, _⟩
    rw [hthrows] at h
    cases h
  · rintro ⟨result, h, hnamed⟩
    rw [hmarks] at h
    obtain rfl := Except.ok.inj h
    obtain ⟨event, hparse, hevent⟩ := hnamed "null" rfl
    obtain rfl := Json.obj.inj (Option.some.inj (hnull.symm.trans hparse))
    have hfields : guestFields [("event_type", .str HOTEL_CONFIRM_EVENT), ("guest_id", .null)] =
        [some .null, none, none, none, none] := rfl
    have hguest := hevent.guest
    rw [hfields] at hguest
    simp at hguest

end Kotlin
