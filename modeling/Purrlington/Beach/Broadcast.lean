import Purrlington.Beach.Repository
import Purrlington.Lib.Schema

/-!
# Beach: an availability event on its way to the activity list

The publisher posts a message and the activity's name, the broadcast service relays these through a
strict schema, and the handler of the frontend looks for the id and the remaining places.

* `publishActivityFull`, `publishActivityAvailable`   the requests of the publisher;
* `broadcastService`        the two beach routes and the event that they emit;
* `Frontend.handleMessage`  what an event does to the cached list of activities;
* `getPayload_of_route`     no event of the beach routes carries a payload, whatever was posted;
* `availability_never_reaches`   so no event of the publisher reaches the list.
-/

set_option linter.unusedSectionVars false

namespace Beach

/-! ## the publisher -/

/-- a request with a JSON body, by its path -/
structure Post where
  path : String
  body : Json

/-- `publish`, with its `BeachBroadcastPayload` -/
def publish (path type : String) (a : Activity) : Post :=
  ⟨path, .obj [
    ("message", .str (if type = "beach.activity_full" then a.name ++ " just reached capacity."
      else "A spot opened up in " ++ a.name ++ ".")),
    ("activity", .str a.name)]⟩

def publishActivityFull (a : Activity) : Post := publish "/beach/full" "beach.activity_full" a

def publishActivityAvailable (a : Activity) : Post :=
  publish "/beach/available" "beach.activity_available" a

/-! ## the broadcast service -/

def BaseFields : List (String × Schema) :=
  [("message", .optional .string), ("guest_id", .optional .string), ("guest_name", .optional .string)]

def BeachEventSchema : Schema :=
  .object (BaseFields ++ [("activity", .optional .string)]) true

/-- a member of an object that is written out, unless it is undefined -/
def orOmit (key : String) (v : Option Json) : List (String × Json) := v.toList.map fun v => (key, v)

/-- what is left of the body after `message`, `guest_id` and `guest_name` -/
def restOf (body : List (String × Json)) : List (String × Json) :=
  body.filter fun p => p.1 ∉ ["message", "guest_id", "guest_name"]

/-- the event that a route of `beach.ts` broadcasts for a parsed body -/
def broadcastEvent (event_type fallback id : String) (body : List (String × Json)) :
    List (String × Json) :=
  ([("id", .str id),
    ("channel", .str "beach"),
    ("event_type", .str event_type),
    ("message", (body.lookup "message").getD (.str fallback)),
    ("sender", .str "beach")] : List (String × Json)) ++
  orOmit "guest_id" (body.lookup "guest_id") ++
  orOmit "guest_name" (body.lookup "guest_name") ++
  [("data", .obj (restOf body))]

/-- a route of `beach.ts`, with the fresh id of its event; `none` is a 400 -/
def beachRoute (event_type fallback id : String) (body : Json) : Option Json :=
  match BeachEventSchema.parse body with
  | some (.obj body) => some (.obj (broadcastEvent event_type fallback id body))
  | _ => none

def broadcastService (id : String) (post : Post) : Option Json :=
  if post.path = "/beach/full" then
    beachRoute "beach.activity_full" "A beach activity reached capacity." id post.body
  else if post.path = "/beach/available" then
    beachRoute "beach.activity_available" "A beach activity has availability." id post.body
  else none

/-! ## the frontend -/

namespace Frontend

structure Activity where
  activity_id : String
  activity_name : String
  description : Option String
  capacity : Rat
  remaining : Rat
  deriving DecidableEq

structure BeachAvailabilityPayload where
  activityId : String
  activityName : Option String
  capacity : Option Rat
  remaining : Rat
  deriving DecidableEq

def BroadcastEventSchema : Schema := .object
  [("id", .string),
   ("channel", .enum ["airport", "hotel", "beach", "crab", "parrot", "broadcast", "resort-wide"]),
   ("event_type", .string), ("message", .string), ("sender", .string),
   ("guest_id", .optional .string), ("guest_name", .optional .string),
   ("data", .optional (.record .unknown))] false

/-- the string that a member is, if it is one -/
def text : Option Json → Option String
  | some (.str s) => some s
  | _ => none

def number : Option Json → Option Rat
  | some (.int n) => some n
  | some (.float q) => some q
  | _ => none

def beachActivityEventTypes : List String := ["beach.activity_full", "beach.activity_available"]

def getPayloadObject : Option Json → Option (List (String × Json))
  | some (.obj payload) => some payload
  | some (.arr _) => some []  -- an array is an object without these members
  | _ => none

def normalizeBeachEvent (event : List (String × Json)) : Option (List (String × Json)) :=
  (text (event.lookup "type")).bind fun type =>
    if type ∈ beachActivityEventTypes then
      (getPayloadObject (event.lookup "payload")).bind fun payload =>
        (text (payload.lookup "activityId")).bind fun activityId =>
          let activityName := (text (payload.lookup "activityName")).getD activityId
          (number (payload.lookup "remaining")).map fun remaining =>
            let data : List (String × Json) :=
              [("activityId", .str activityId), ("activityName", .str activityName)]
            orOmit "id" (event.lookup "id") ++ ([
              ("channel", .str "beach"),
              ("event_type", .str type),
              ("message", .str (if type = "beach.activity_full" then activityName ++ " is now full."
                else "A space opened up for " ++ activityName ++ ".")),
              ("sender", .str "beach-service"),
              ("data", .obj (data ++ orOmit "capacity" (payload.lookup "capacity") ++
                [("remaining", .float remaining)]))] : List (String × Json))
    else none

def normalizeIslandEvent (event : List (String × Json)) : Option (List (String × Json)) :=
  if text (event.lookup "source") = some "beach" then normalizeBeachEvent event else none

/-- from the parsed text on; the members of what is no object are undefined -/
def parseIslandEventMessage : Json → Option (List (String × Json))
  | .obj event => normalizeIslandEvent event
  | _ => none

def getBeachAvailabilityPayload (event : List (String × Json)) : Option BeachAvailabilityPayload :=
  if text (event.lookup "channel") ≠ some "beach" then none
  else (text (event.lookup "event_type")).bind fun event_type =>
    if event_type ∈ beachActivityEventTypes then
      match event.lookup "data" with
      | some (.obj data) => (text (data.lookup "activityId")).bind fun activityId =>
          (number (data.lookup "remaining")).map fun remaining =>
            { activityId := activityId
              activityName := text (data.lookup "activityName")
              capacity := number (data.lookup "capacity")
              remaining := remaining }
      | _ => none
    else none

def updateActivitiesFromBeachEvent (activities : List Activity) (payload : BeachAvailabilityPayload) :
    List Activity :=
  activities.map fun activity =>
    if activity.activity_id = payload.activityId then { activity with remaining := payload.remaining }
    else activity

/-- the event that `handleMessage` ingests -/
def parseMessage (raw : Json) : Option (List (String × Json)) :=
  match parseIslandEventMessage raw with
  | some event => some event
  | none => match BroadcastEventSchema.parse raw with
    | some (.obj event) => some event
    | _ => none

/-- `ingestBroadcastEvent`: the cached list, and whether it is to be fetched again -/
def ingestBroadcastEvent (cache : Option (List Activity)) (event : List (String × Json)) :
    Option (List Activity) × Bool :=
  match getBeachAvailabilityPayload event with
  | none => (cache, false)
  | some payload => match cache with
    | some activities => (some (updateActivitiesFromBeachEvent activities payload), false)
    | none => (none, true)

def handleMessage (cache : Option (List Activity)) (raw : Json) : Option (List Activity) × Bool :=
  match parseMessage raw with
  | some event => ingestBroadcastEvent cache event
  | none => (cache, false)

end Frontend

open Beach.Frontend

/-! ## the law -/

inductive Change where
  | full
  | available
  deriving DecidableEq

def Change.type : Change → String
  | .full => "beach.activity_full"
  | .available => "beach.activity_available"

def Change.post : Change → Activity → Post
  | .full => publishActivityFull
  | .available => publishActivityAvailable

/-- the list with the remaining places of exactly this activity set -/
def withRemaining (a : Activity) (activities : List Frontend.Activity) : List Frontend.Activity :=
  activities.map fun x => if x.activity_id = a.id then { x with remaining := a.remaining } else x

/-- the posted event is relayed, parsed, and sets the places of the activity -/
def Reaches (change : Change) (id : String) (a : Activity) : Prop :=
  ∃ raw event payload, broadcastService id (change.post a) = some raw ∧
    parseMessage raw = some event ∧ getBeachAvailabilityPayload event = some payload ∧
    payload.activityId = a.id ∧ payload.remaining = a.remaining ∧
    ∀ activities, updateActivitiesFromBeachEvent activities payload = withRemaining a activities

/-! ## what the routes let through -/

section
variable {event_type fallback id : String} {body raw : Json} {event : List (String × Json)}

theorem lookup_orOmit {k key : String} (h : k ≠ key) (v : Option Json) :
    (orOmit key v).lookup k = none := by
  cases v with
  | none => rfl
  | some v => exact Schema.lookup_cons_ne h v []

theorem lookup_source (body : List (String × Json)) :
    (broadcastEvent event_type fallback id body).lookup "source" = none := by
  rw [broadcastEvent, List.lookup_append, List.lookup_append, List.lookup_append,
    lookup_orOmit (by decide), lookup_orOmit (by decide)]
  rfl

theorem lookup_data (body : List (String × Json)) :
    (broadcastEvent event_type fallback id body).lookup "data" = some (.obj (restOf body)) := by
  rw [broadcastEvent, List.lookup_append, List.lookup_append, List.lookup_append,
    lookup_orOmit (by decide), lookup_orOmit (by decide)]
  rfl

theorem activityId_of_rest {members fields : List (String × Json)}
    (h : Schema.parseFields (BaseFields ++ [("activity", .optional .string)]) members = some fields) :
    (restOf fields).lookup "activityId" = none := by
  have hf : fields.lookup "activityId" = none := Schema.lookup_parseFields h "activityId"
  rw [List.lookup_eq_none_iff] at hf ⊢
  exact fun p hp => hf p (List.mem_filter.mp hp).1

theorem beachRoute_some (h : beachRoute event_type fallback id body = some raw) :
    ∃ fields, raw = .obj (broadcastEvent event_type fallback id fields) ∧
      (restOf fields).lookup "activityId" = none := by
  rw [beachRoute] at h
  cases hp : BeachEventSchema.parse body with
  | none =>
    rw [hp] at h
    exact absurd h (by simp)
  | some out =>
    obtain ⟨members, fields, _, hf, rfl⟩ := Schema.parse_object hp
    rw [hp] at h
    exact ⟨fields, (Option.some.inj h).symm, activityId_of_rest hf⟩

/-- the handler has only the schema to parse such an event with: it names no source -/
theorem parseMessage_event {fields : List (String × Json)}
    (h : parseMessage (.obj (broadcastEvent event_type fallback id fields)) = some event) :
    BroadcastEventSchema.parse (.obj (broadcastEvent event_type fallback id fields)) =
      some (.obj event) := by
  have hisland : parseIslandEventMessage
      (.obj (broadcastEvent event_type fallback id fields)) = none := by
    rw [parseIslandEventMessage, normalizeIslandEvent, lookup_source]
    rfl
  rw [parseMessage, hisland] at h
  replace h : (match BroadcastEventSchema.parse (.obj (broadcastEvent event_type fallback id fields)) with
    | some (.obj event) => some event
    | _ => none) = some event := h
  split at h
  · rename_i out hp
    rw [hp, Option.some.inj h]
  · exact absurd h (by simp)

/-- **No event of a beach route carries a payload**, whatever was posted to it. -/
theorem getPayload_of_route (h : beachRoute event_type fallback id body = some raw)
    (he : parseMessage raw = some event) : getBeachAvailabilityPayload event = none := by
  obtain ⟨fields, rfl, hrest⟩ := beachRoute_some h
  obtain ⟨members, outs, e, hf, e'⟩ := Schema.parse_object (parseMessage_event he)
  obtain rfl := Json.obj.inj e
  obtain rfl := Json.obj.inj e'
  -- the data are those of the body: a record of unknown values
  have hdata : event.lookup "data" = some (.obj (restOf fields)) := by
    rw [Schema.lookup_parseFields hf, lookup_data]
    exact Schema.parse_record_unknown _
  rw [getBeachAvailabilityPayload, hdata]
  split
  · rfl
  · cases text (event.lookup "event_type") with
    | none => rfl
    | some type =>
      show (if type ∈ beachActivityEventTypes then
        (text ((restOf fields).lookup "activityId")).bind _ else none) = none
      rw [hrest]
      split <;> rfl

theorem service_route {post : Post} (h : broadcastService id post = some raw) :
    ∃ event_type fallback, beachRoute event_type fallback id post.body = some raw := by
  rw [broadcastService] at h
  split at h
  · exact ⟨_, _, h⟩
  · split at h
    · exact ⟨_, _, h⟩
    · exact absurd h (by simp)

end

/-- the publisher's event is accepted and relayed, and the handler parses it -/
theorem published (change : Change) (id : String) (a : Activity) :
    ∃ raw event, broadcastService id (change.post a) = some raw ∧ parseMessage raw = some event := by
  cases change <;> exact ⟨_, _, rfl, rfl⟩

/-- **No change of availability reaches the list.**  For every activity the event of the publisher
is accepted by the route and parsed by the handler; it yields no payload, and the cached list is left
as it is and not fetched again. -/
theorem availability_never_reaches (change : Change) (id : String) (a : Activity) :
    (∃ raw event, broadcastService id (change.post a) = some raw ∧ parseMessage raw = some event ∧
      getBeachAvailabilityPayload event = none ∧
      ∀ cache, handleMessage cache raw = (cache, false)) ∧
    ¬ Reaches change id a := by
  obtain ⟨raw, event, hraw, hevent⟩ := published change id a
  obtain ⟨event_type, fallback, hroute⟩ := service_route hraw
  have hnone := getPayload_of_route hroute hevent
  refine ⟨⟨raw, event, hraw, hevent, hnone, fun cache => ?_⟩, ?_⟩
  · rw [handleMessage, hevent]
    show ingestBroadcastEvent cache event = _
    rw [ingestBroadcastEvent, hnone]
  · rintro ⟨raw', event', payload, hraw', hevent', hpayload, _⟩
    obtain rfl := Option.some.inj (hraw.symm.trans hraw')
    obtain rfl := Option.some.inj (hevent.symm.trans hevent')
    rw [hnone] at hpayload
    exact absurd hpayload (by simp)

/-- one of two places at the volleyball is left -/
def volleyball : Activity := ⟨"ACT001", "Beach Volleyball", none, 2, {"guest-1"}⟩

/-- **One place at the volleyball.**  Its event arrives in the handler, which has no id to look for
in the list. -/
theorem volleyball_not_reached : ∃ event,
    (broadcastService "event-1" (publishActivityAvailable volleyball)).bind parseMessage = some event ∧
    getBeachAvailabilityPayload event = none ∧ ¬ Reaches .available "event-1" volleyball := by
  refine ⟨_, rfl, rfl, ?_⟩
  rintro ⟨raw, event, payload, hraw, hevent, hpayload, _⟩
  obtain rfl := Option.some.inj hraw
  obtain rfl := Option.some.inj hevent
  have hnone : none = some payload := hpayload
  exact absurd hnone (by simp)

end Beach
