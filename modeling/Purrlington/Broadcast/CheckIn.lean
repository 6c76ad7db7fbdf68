import Purrlington.Broadcast.Pipeline
import Purrlington.Beach.Statements
import Purrlington.Beach.UseCases

/-!
# Broadcast: the check-in listener of the beach

The beach listens to the hotel's events and marks the guest of every confirmation as checked in.

* `Kotlin.guestIdFrom`   the guest of an event, by the chain of places where one may be;
* `Kotlin.listen`        the guests that a stream of lines makes the listener mark.  An exception of
                         the parser or of the repository ends the stream;
* `HotelPayload`         a body that the hotel routes accept and that names a guest: every payload
                         of `publishHotelEvent` is one;
* `listen_frames`        what the listener does with the frames of the bus;
* `check_ins_exactly`    of everything that happens while the listener is attached, it marks the
                         guests of the confirmations, once each and in order, to the first whose id
                         is too long for the table.
-/

set_option linter.unusedSectionVars false

/-! ## the listener -/

namespace Kotlin
open Framing
open Column (varchar)

def trim (s : List Char) : List Char := strip isWhitespace s

theorem trim_space {a b : Char} (ha : isWhitespace a = false) (hb : isWhitespace b = false)
    (s : List Char) : trim (' ' :: a :: (s ++ [b])) = a :: (s ++ [b]) :=
  strip_between (by decide) ha hb s

def HOTEL_CONFIRM_EVENT : String := "hotel.reservation_confirmed"

/-- what a call returns, or an exception -/
abbrev Result := Except Unit (Option String)

/-- the elvis operator: the next one only where this is null -/
def elvis (a b : Result) : Result :=
  match a with
  | .ok none => b
  | r => r

section
variable (number : Rat → String) (parseToJsonElement : List Char → Option Json)

/-- the `content` of a primitive; `number` is the text of a number -/
def content : Json → Option String
  | .null => some "null"
  | .bool b => some (if b then "true" else "false")
  | .int n => some (number n)
  | .float q => some (number q)
  | .str s => some s
  | .arr _ => none
  | .obj _ => none

/-- `JsonObject.string`: `jsonPrimitive` throws for an array or an object -/
def string (o : List (String × Json)) (key : String) : Result :=
  match o.lookup key with
  | none => .ok none
  | some v => match content number v with
    | some s => .ok (some s)
    | none => .error ()

/-- `JsonObject.obj` -/
def obj (o : List (String × Json)) (key : String) : Option (List (String × Json)) :=
  match o.lookup key with
  | some (.obj members) => some members
  | _ => none

/-- `?.string(key)` -/
def stringOf (o : Option (List (String × Json))) (key : String) : Result :=
  match o with
  | some members => string number members key
  | none => .ok none

def eventType (event : List (String × Json)) : Result :=
  elvis (string number event "event_type")
    (elvis (string number event "type")
      (elvis (stringOf number (obj event "data") "type")
        (stringOf number (obj event "payload") "type")))

def guestId (event : List (String × Json)) : Result :=
  elvis (string number event "guest_id")
    (elvis (stringOf number (obj event "data") "guest_id")
      (elvis (stringOf number ((obj event "data").bind fun data => obj data "payload") "guest_id")
        (elvis (stringOf number (obj event "payload") "guest_id")
          (stringOf number ((obj event "payload").bind fun payload => obj payload "payload")
            "guest_id"))))

def guestIdFrom (rawEvent : List Char) : Result :=
  match parseToJsonElement rawEvent with
  | some (.obj event) => match eventType number event with
    | .ok type => if type ≠ some HOTEL_CONFIRM_EVENT then .ok none else guestId number event
    | .error e => .error e
  | _ => .ok none

/-- the guest of the event in a line, if it has one -/
def handleLine (line : List Char) : Result :=
  if "data:".toList.isPrefixOf line then guestIdFrom number parseToJsonElement (trim (line.drop 5))
  else .ok none

/-- the loop of `listen` over the lines: the guests with whom `markCheckedIn` is called -/
def listen (db : Beach.Db) : List (List Char) → List String
  | [] => []
  | line :: lines => match handleLine number parseToJsonElement line with
    | .ok (some id) => match Beach.Sql.markCheckedIn db id with
      | .ok db' => id :: listen db' lines
      | .error _ => [id]
    | .ok none => listen db lines
    | .error _ => []

variable {number parseToJsonElement} {line : List Char} {db : Beach.Db}

theorem listen_none (h : handleLine number parseToJsonElement line = .ok none)
    (lines : List (List Char)) : listen number parseToJsonElement db (line :: lines) =
      listen number parseToJsonElement db lines := by
  rw [listen, h]

/-- a guest is marked, and the stream goes on if the table takes the id -/
theorem listen_some {id : String} (h : handleLine number parseToJsonElement line = .ok (some id))
    (hfit : db.VisitorsFit) (lines : List (List Char)) :
    listen number parseToJsonElement db (line :: lines) =
      id :: if varchar 50 id then listen number parseToJsonElement (db.markCheckedIn id) lines
        else [] := by
  rw [listen, h]
  by_cases hid : varchar 50 id = true
  · simp only [Beach.Sql.markCheckedIn_returns hid, if_pos hid]
  · simp only [Beach.Sql.markCheckedIn_raises hfit (Bool.eq_false_iff.mpr hid), if_neg hid]

end

/-- the ids up to the first that the column does not take, and that one -/
def untilRaised : List String → List String
  | [] => []
  | id :: ids => id :: if varchar 50 id then untilRaised ids else []

theorem untilRaised_eq_self {ids : List String} (h : ∀ id ∈ ids, varchar 50 id = true) :
    untilRaised ids = ids := by
  induction ids with
  | nil => rfl
  | cons id ids ih =>
    rw [List.forall_mem_cons] at h
    rw [untilRaised, if_pos h.1, ih h.2]

end Kotlin

/-! ## the hotel's payloads -/

namespace Broadcast
open Framing
open Beach (Post)
open Hotel (HotelBroadcastEventType HotelBroadcastEvent getEndpointForEvent publishHotelEvent)

/-- the route of a hotel event -/
def hotelRelay : HotelBroadcastEventType → Relay
  | .ReservationConfirmed => hotelConfirm
  | .ReservationCancelled => hotelCancel

/-- a body of strings and numbers that `HotelEventSchema` accepts, with a guest -/
structure HotelPayload where
  body : List (String × Json)
  guest_id : String
  accepted : hotelConfirm.schema.accepts (.obj body) = true
  named : body.lookup "guest_id" = some (.str guest_id)

theorem publishHotelEvent_payload (event : HotelBroadcastEvent) :
    ∃ payload : HotelPayload, publishHotelEvent event =
      ⟨getEndpointForEvent event.type, .obj payload.body⟩ ∧ payload.guest_id = event.guest_id := by
  obtain ⟨type, message, reservation_id, guest_id, room_type, count, ci, co⟩ := event
  cases room_type with
  | none => exact ⟨⟨_, guest_id, rfl, rfl⟩, rfl, rfl⟩
  | some room_type => exact ⟨⟨_, guest_id, rfl, rfl⟩, rfl, rfl⟩

theorem HotelPayload.routed (payload : HotelPayload) (type : HotelBroadcastEventType) (id : String) :
    ∃ event, route id ⟨getEndpointForEvent type, .obj payload.body⟩ = some event ∧
      event.channel = .Hotel ∧ event.event_type = (hotelRelay type).event_type ∧
      event.guest_id = some payload.guest_id := by
  have hschema : (hotelRelay type).schema = hotelConfirm.schema := by cases type <;> rfl
  have hchannel : (hotelRelay type).channel = .Hotel := by cases type <;> rfl
  have hroute : route id ⟨getEndpointForEvent type, .obj payload.body⟩ =
      (hotelRelay type).handle id (.obj payload.body) := by cases type <;> rfl
  obtain ⟨out, hout⟩ := Option.isSome_iff_exists.mp payload.accepted
  obtain ⟨members, outs, e, hfields, rfl⟩ := Schema.parse_object hout
  obtain rfl := Json.obj.inj e
  refine ⟨(hotelRelay type).event id outs, ?_, hchannel, rfl, ?_⟩
  · rw [hroute, Relay.handle, hschema, hout]
  · show Beach.Frontend.text (outs.lookup "guest_id") = _
    rw [Schema.lookup_parseFields hfields, payload.named]
    rfl

/-- what happens while the listener is attached -/
inductive Input where
  | hotel (type : HotelBroadcastEventType) (id : String) (payload : HotelPayload)
  | other (act : Act)

def Input.event : Input → Option IslandEvent
  | .hotel type id payload => route id ⟨getEndpointForEvent type, .obj payload.body⟩
  | .other _ => none

def Input.acts : Input → List Act
  | .hotel type id payload => (Input.event (.hotel type id payload)).toList.map .publish
  | .other act => [act]

/-- neither the end of the listener's request nor an event of the hotel's channel -/
def Input.Foreign (res : Nat) : Input → Prop
  | .hotel _ _ _ => True
  | .other act => act ≠ .close res ∧ ∀ event, act = .publish event → event.channel ≠ .Hotel

/-- the guest of a confirmation -/
def Input.confirmed : Input → Option String
  | .hotel .ReservationConfirmed _ payload => some payload.guest_id
  | _ => none

theorem framesOf_inputs (stringify : Json → String) {res : Nat} {inputs : List Input}
    (h : ∀ input ∈ inputs, input.Foreign res) :
    framesOf stringify [.Hotel] (publishedUntil res (inputs.flatMap Input.acts)) =
      (inputs.filterMap Input.event).map (frame stringify) := by
  induction inputs with
  | nil => rfl
  | cons input inputs ih =>
    rw [List.forall_mem_cons] at h
    have hih := ih h.2
    rw [framesOf] at hih ⊢
    rw [List.flatMap_cons]
    cases input with
    | hotel type id payload =>
      obtain ⟨event, hroute, hchannel, _, _⟩ := payload.routed type id
      have hevent : Input.event (.hotel type id payload) = some event := hroute
      rw [List.filterMap_cons_some hevent, Input.acts, hevent]
      show ((event :: publishedUntil res (inputs.flatMap Input.acts)).filter _).map _ = _
      rw [List.filter_cons_of_pos (by simp [hchannel]), List.map_cons, List.map_cons, hih]
    | other act =>
      obtain ⟨hclose, hpublish⟩ := h.1
      rw [List.filterMap_cons_none rfl, Input.acts, List.singleton_append]
      cases act with
      | connect env req => exact hih
      | close i =>
        rw [publishedUntil, if_neg fun e => hclose (congrArg Act.close e)]
        exact hih
      | publish event =>
        have hne := hpublish event rfl
        rw [publishedUntil, List.filter_cons_of_neg (by simp [hne])]
        exact hih

/-! ## the frames as the listener reads them -/

section
variable (number : Rat → String) (stringify : Json → String)
  (parseToJsonElement : List Char → Option Json)

/-- what is assumed of the text of an event: it has no line break, is an object's text, and the
parser of the listener reads the value back -/
structure Readable (v : Json) : Prop where
  line : OneLine (stringify v).toList
  braces : ∃ inner, (stringify v).toList = '{' :: (inner ++ ['}'])
  inverse : parseToJsonElement (stringify v).toList = some v

theorem guestIdFrom_event {event : IslandEvent} {guest : String} (hguest : event.guest_id = some guest)
    {text : List Char} (hparse : parseToJsonElement text = some event.json) :
    Kotlin.guestIdFrom number parseToJsonElement text =
      .ok (if event.event_type = .HOTEL_CONFIRM then some guest else none) := by
  obtain ⟨_, _, htype, _, _, hid, _⟩ := lookup_members event
  rw [hguest] at hid
  have heventType : Kotlin.eventType number event.members = .ok (some event.event_type.text) := by
    rw [Kotlin.eventType, Kotlin.string, htype]
    rfl
  have hguestId : Kotlin.guestId number event.members = .ok (some guest) := by
    rw [Kotlin.guestId, Kotlin.string, hid]
    rfl
  rw [IslandEvent.json] at hparse
  simp only [Kotlin.guestIdFrom, hparse, heventType, hguestId]
  have hconfirm : some event.event_type.text ≠ some Kotlin.HOTEL_CONFIRM_EVENT ↔
      event.event_type ≠ .HOTEL_CONFIRM := by
    cases event.event_type <;> decide
  by_cases e : event.event_type = .HOTEL_CONFIRM
  · rw [if_neg fun h => hconfirm.mp h e, if_pos e]
  · rw [if_pos (hconfirm.mpr e), if_neg e]

theorem handleLine_skip {line : List Char} (h : "data:".toList.isPrefixOf line = false) :
    Kotlin.handleLine number parseToJsonElement line = .ok none := if_neg (Bool.eq_false_iff.mp h)

/-- one frame: a line with the event and an empty one -/
theorem listen_frame {event : IslandEvent} {guest : String} (hguest : event.guest_id = some guest)
    (h : Readable stringify parseToJsonElement event.json) {db : Beach.Db} (hfit : db.VisitorsFit)
    (rest : List Char) :
    Kotlin.listen number parseToJsonElement db (lines ((frame stringify event).toList ++ rest)) =
      if event.event_type = .HOTEL_CONFIRM then
        guest :: if Column.varchar 50 guest then
          Kotlin.listen number parseToJsonElement (db.markCheckedIn guest) (lines rest) else []
      else Kotlin.listen number parseToJsonElement db (lines rest) := by
  obtain ⟨inner, hbraces⟩ := h.braces
  have htext : (frame stringify event).toList ++ rest =
      ("data: ".toList ++ (stringify event.json).toList) ++ '\n' :: ([] ++ '\n' :: rest) := by
    rw [frame, String.toList_append, String.toList_append, List.append_assoc]
    rfl
  have hline : OneLine ("data: ".toList ++ (stringify event.json).toList) := by
    constructor
    · intro hmem
      rcases List.mem_append.mp hmem with hmem | hmem
      · exact absurd hmem (by decide)
      · exact h.line.1 hmem
    · intro hmem
      rcases List.mem_append.mp hmem with hmem | hmem
      · exact absurd hmem (by decide)
      · exact h.line.2 hmem
  have hnil : OneLine [] := by constructor <;> simp
  have hdata : "data:".toList.isPrefixOf ("data: ".toList ++ (stringify event.json).toList) = true :=
    rfl
  have htrim : Kotlin.trim (("data: ".toList ++ (stringify event.json).toList).drop 5) =
      (stringify event.json).toList := by
    rw [hbraces]
    exact Kotlin.trim_space (by decide) (by decide) inner
  have hempty : Kotlin.handleLine number parseToJsonElement [] = .ok none :=
    handleLine_skip number parseToJsonElement (by decide)
  have hhandle : Kotlin.handleLine number parseToJsonElement
      ("data: ".toList ++ (stringify event.json).toList) =
        .ok (if event.event_type = .HOTEL_CONFIRM then some guest else none) := by
    rw [Kotlin.handleLine, if_pos hdata, htrim]
    exact guestIdFrom_event number parseToJsonElement hguest h.inverse
  rw [htext, lines_cons hline, lines_cons hnil]
  by_cases e : event.event_type = .HOTEL_CONFIRM
  · rw [if_pos e] at hhandle ⊢
    rw [Kotlin.listen_some hhandle hfit, Kotlin.listen_none hempty]
  · rw [if_neg e] at hhandle ⊢
    rw [Kotlin.listen_none hhandle, Kotlin.listen_none hempty]

def Response.text (res : Response) : List Char := res.written.flatMap String.toList

/-- the lines of a stream, of which the comment is skipped -/
theorem listen_comment (db : Beach.Db) (frames : List String) :
    Kotlin.listen number parseToJsonElement db
        (lines (Response.text ⟨200, ": connected\n\n" :: frames⟩)) =
      Kotlin.listen number parseToJsonElement db (lines (frames.flatMap String.toList)) := by
  have hcomment : OneLine ": connected".toList := by constructor <;> decide
  have hnil : OneLine [] := by constructor <;> simp
  have hchars : ": connected\n\n".toList = ": connected".toList ++ ['\n', '\n'] := by decide
  have htext : Response.text ⟨200, ": connected\n\n" :: frames⟩ =
      ": connected".toList ++ '\n' :: ([] ++ '\n' :: frames.flatMap String.toList) := by
    rw [Response.text, List.flatMap_cons, hchars, List.append_assoc]
    rfl
  rw [htext, lines_cons hcomment, lines_cons hnil,
    Kotlin.listen_none (handleLine_skip number parseToJsonElement (by decide)),
    Kotlin.listen_none (handleLine_skip number parseToJsonElement (by decide))]

theorem listen_frames {inputs : List Input}
    (h : ∀ input ∈ inputs, ∀ event, input.event = some event →
      Readable stringify parseToJsonElement event.json) {db : Beach.Db} (hfit : db.VisitorsFit) :
    Kotlin.listen number parseToJsonElement db (lines
        (((inputs.filterMap Input.event).map (frame stringify)).flatMap String.toList)) =
      Kotlin.untilRaised (inputs.filterMap Input.confirmed) := by
  induction inputs generalizing db with
  | nil => rfl
  | cons input inputs ih =>
    rw [List.forall_mem_cons] at h
    cases input with
    | other act => exact ih h.2 hfit
    | hotel type id payload =>
      obtain ⟨event, hroute, _, htype, hguest⟩ := payload.routed type id
      have hevent : Input.event (.hotel type id payload) = some event := hroute
      rw [List.filterMap_cons_some hevent, List.map_cons, List.flatMap_cons,
        listen_frame number stringify parseToJsonElement hguest (h.1 event hevent) hfit, htype]
      cases type with
      | ReservationCancelled => exact ih h.2 hfit
      | ReservationConfirmed =>
        show _ = payload.guest_id :: _
        rw [if_pos (by rfl)]
        by_cases hid : Column.varchar 50 payload.guest_id = true
        · rw [if_pos hid, if_pos hid, ih h.2 (Beach.Sql.visitorsFit_markCheckedIn hfit hid)]
        · rw [if_neg hid, if_neg hid]

theorem listen_run (before : List Act) (env : Env) (req : Request) (inputs : List Input)
    (hbeach : identifyService env req = some ⟨"beach", [.Hotel]⟩)
    (hother : ∀ input ∈ inputs, input.Foreign (connects before))
    (hjson : ∀ input ∈ inputs, ∀ event, input.event = some event →
      Readable stringify parseToJsonElement event.json) (db : Beach.Db) (hfit : db.VisitorsFit) :
    ∃ res, (Bus.empty.run stringify (before ++ .connect env req ::
        inputs.flatMap Input.acts)).responses[connects before]? = some res ∧
      Kotlin.listen number parseToJsonElement db (lines res.text) =
        Kotlin.untilRaised (inputs.filterMap Input.confirmed) := by
  refine ⟨_, (run_connect_some stringify hbeach before (inputs.flatMap Input.acts)).1, ?_⟩
  rw [listen_comment, framesOf_inputs stringify hother]
  exact listen_frames number stringify parseToJsonElement hjson hfit

/-- **A confirmed reservation checks in exactly its guest.**  Once the listener is attached with the
token of the beach, and whatever else happens on the bus: its lines make it mark the guests of the
confirmations, once each and in their order, and no others, up to the first whose id the table does not
take.  So it marks them all if the table takes them. -/
theorem check_ins_exactly (before : List Act) (env : Env) (req : Request) (inputs : List Input)
    (hbeach : identifyService env req = some ⟨"beach", [.Hotel]⟩)
    (hother : ∀ input ∈ inputs, input.Foreign (connects before))
    (hjson : ∀ input ∈ inputs, ∀ event, input.event = some event →
      Readable stringify parseToJsonElement event.json) (db : Beach.Db) (hfit : db.VisitorsFit) :
    ∃ res, (Bus.empty.run stringify (before ++ .connect env req ::
        inputs.flatMap Input.acts)).responses[connects before]? = some res ∧
      Kotlin.listen number parseToJsonElement db (lines res.text) =
        Kotlin.untilRaised (inputs.filterMap Input.confirmed) ∧
      ((∀ guest ∈ inputs.filterMap Input.confirmed, Column.varchar 50 guest = true) →
        Kotlin.listen number parseToJsonElement db (lines res.text) =
          inputs.filterMap Input.confirmed) := by
  obtain ⟨res, hres, hlisten⟩ :=
    listen_run number stringify parseToJsonElement before env req inputs hbeach hother hjson db hfit
  refine ⟨res, hres, hlisten, fun hguests => ?_⟩
  rw [hlisten, Kotlin.untilRaised_eq_self hguests]

end

/-! ## a confirmation and its cancellation -/

/-- the beach has a token, and nobody else -/
def beachEnv : Env := fun name => if name = "BEACH_TOKEN" then some "beach-token" else none

def beachRequest : Request := ⟨none, some "beach-token", none⟩

/-- a post of the hotel, with the id of its event -/
structure Posted where
  guest : String
  type : HotelBroadcastEventType
  id : String
  deriving DecidableEq

namespace Posted

def payload (p : Posted) : HotelPayload :=
  ⟨[("message", .str "Hotel reservation."), ("guest_id", .str p.guest)], p.guest, rfl, rfl⟩

def input (p : Posted) : Input := .hotel p.type p.id p.payload

def event (p : Posted) : IslandEvent := (hotelRelay p.type).event p.id p.payload.body

end Posted

def quoted (s : String) : List Char := '"' :: (s.toList ++ ['"'])

namespace Posted

/-- the text of the event, between its braces -/
def inner (p : Posted) : List Char :=
  quoted "id" ++ ':' :: quoted p.id ++ ',' :: quoted "channel" ++ ':' :: quoted "hotel" ++
  ',' :: quoted "event_type" ++ ':' :: quoted (hotelRelay p.type).event_type.text ++
  ',' :: quoted "message" ++ ':' :: quoted "Hotel reservation." ++
  ',' :: quoted "sender" ++ ':' :: quoted "hotel" ++
  ',' :: quoted "guest_id" ++ ':' :: quoted p.guest ++
  ',' :: quoted "data" ++ ':' :: '{' :: ['}']

def text (p : Posted) : List Char := '{' :: (p.inner ++ ['}'])

end Posted

/-- texts for the events of some posts, by their ids -/
def textOf (ps : List Posted) : Json → String
  | .obj (("id", .str id) :: _) => String.ofList (((ps.find? fun p => p.id = id).map Posted.text).getD [])
  | _ => "null"

def readBack (ps : List Posted) (text : List Char) : Option Json :=
  (ps.find? fun p => p.text = text).map fun p => p.event.json

/-- the posts differ in the ids and the texts of their events, and no text has a line break -/
def Legible (ps : List Posted) : Prop :=
  ∀ p ∈ ps, ps.find? (fun q => q.id = p.id) = some p ∧ ps.find? (fun q => q.text = p.text) = some p ∧
    '\n' ∉ p.text ∧ '\r' ∉ p.text

instance (ps : List Posted) : Decidable (Legible ps) := by
  unfold Legible
  infer_instance

theorem textOf_event {ps : List Posted} (hps : Legible ps) {p : Posted} (hp : p ∈ ps) :
    textOf ps p.event.json = String.ofList p.text := by
  show String.ofList (((ps.find? fun q => q.id = p.id).map Posted.text).getD []) = _
  rw [(hps p hp).1]
  rfl

theorem posted_readable {ps : List Posted} (hps : Legible ps) {p : Posted} (hp : p ∈ ps) :
    Readable (textOf ps) (readBack ps) p.event.json := by
  obtain ⟨_, htext, hn, hr⟩ := hps p hp
  have hchars : (textOf ps p.event.json).toList = p.text := by
    rw [textOf_event hps hp, String.toList_ofList]
  constructor
  · rw [hchars]
    exact ⟨hn, hr⟩
  · rw [hchars]
    exact ⟨p.inner, rfl⟩
  · rw [hchars, readBack, htext]
    rfl

/-- so every event that is posted can be read -/
theorem inputs_readable {ps : List Posted} (hps : Legible ps) :
    ∀ input ∈ ps.map Posted.input, ∀ event, input.event = some event →
      Readable (textOf ps) (readBack ps) event.json := by
  intro input hinput event hevent
  obtain ⟨p, hp, rfl⟩ := List.mem_map.mp hinput
  have hroute : p.input.event = some p.event := by
    rw [Posted.input, Posted.event]
    cases p.type <;> rfl
  obtain rfl := Option.some.inj (hroute.symm.trans hevent)
  exact posted_readable hps hp

theorem posted_foreign (ps : List Posted) (res : Nat) :
    ∀ input ∈ ps.map Posted.input, input.Foreign res := by
  intro input hinput
  obtain ⟨p, _, rfl⟩ := List.mem_map.mp hinput
  trivial

def noVisitors : Beach.Db := ⟨∅, ∅, ∅, by simp⟩

def anaPost : Posted := ⟨"ana", .ReservationConfirmed, "event-1"⟩

/-- a confirmation and its cancellation -/
def anaPosts : List Posted := [anaPost, ⟨"ana", .ReservationCancelled, "event-3"⟩]

theorem anaPosts_legible : Legible anaPosts := by decide +kernel

/-- an event of the beach -/
def surfFull : Act :=
  .publish ⟨"event-2", .Beach, .BEACH_FULL, "Full.", "beach", none, none, some []⟩

theorem check_ins_exactly_ana :
    ∃ res, (Bus.empty.run (textOf anaPosts) ([] ++ .connect beachEnv beachRequest ::
        (Input.other surfFull :: anaPosts.map Posted.input).flatMap Input.acts)).responses[0]? =
          some res ∧
      Kotlin.listen (fun _ => "0") (readBack anaPosts) noVisitors (lines res.text) = ["ana"] := by
  have hfull : (Input.other surfFull).Foreign 0 := by
    refine ⟨by simp [surfFull], fun event h => ?_⟩
    obtain rfl := Act.publish.inj h
    decide
  have hnone : ∀ event, (Input.other surfFull).event = some event →
      Readable (textOf anaPosts) (readBack anaPosts) event.json := by
    intro event h
    cases h
  obtain ⟨res, hres, -, hlisten⟩ := check_ins_exactly (fun _ => "0") (textOf anaPosts)
    (readBack anaPosts) [] beachEnv beachRequest (.other surfFull :: anaPosts.map Posted.input) rfl
    (List.forall_mem_cons.mpr ⟨hfull, posted_foreign anaPosts 0⟩)
    (List.forall_mem_cons.mpr ⟨hnone, inputs_readable anaPosts_legible⟩) noVisitors
    fun v hv => absurd hv (AList.notMem_empty v)
  exact ⟨res, hres, hlisten (by decide)⟩

/-- an id of 51 characters -/
def longGuest : String := String.ofList (List.replicate 51 'x')

/-- ana's reservation is confirmed after that of somebody whose id is too long for the table -/
def longPosts : List Posted :=
  [⟨longGuest, .ReservationConfirmed, "event-1"⟩, ⟨"ana", .ReservationConfirmed, "event-2"⟩]

/-- the listener's stream ends before the confirmation of ana -/
theorem long_guest_ends_stream :
    ∃ res, (Bus.empty.run (textOf longPosts) ([] ++ .connect beachEnv beachRequest ::
        (longPosts.map Posted.input).flatMap Input.acts)).responses[0]? = some res ∧
      (longPosts.map Posted.input).filterMap Input.confirmed = [longGuest, "ana"] ∧
      Kotlin.listen (fun _ => "0") (readBack longPosts) noVisitors (lines res.text) =
        [longGuest] := by
  obtain ⟨res, hres, hlisten⟩ := listen_run (fun _ => "0") (textOf longPosts) (readBack longPosts) []
    beachEnv beachRequest (longPosts.map Posted.input) rfl (posted_foreign longPosts 0)
    (inputs_readable (by decide +kernel)) noVisitors fun v hv => absurd hv (AList.notMem_empty v)
  exact ⟨res, hres, rfl, hlisten⟩

end Broadcast
