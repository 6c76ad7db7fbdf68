import Purrlington.Broadcast.EventBus
import Purrlington.Beach.Broadcast

/-!
# Broadcast: the routes that services publish to

* `Relay`            a route of `airport.ts`, `hotel.ts`, `beach.ts` or `crab.ts`: the strict schema of
              its body, and the channel, type and default message of its event;
* `cursed`           the route of the parrot, which has its own body;
* `Relay.carries`    a body whose members are all named by the schema is relayed, with its
              message and guest in place and the other members as the data;
* `parseMessage_json`   the frontend takes every event of the service as it is.
-/

set_option linter.unusedSectionVars false

namespace Broadcast
open Beach (Post BaseFields restOf)
open Beach.Frontend (text BroadcastEventSchema parseIslandEventMessage parseMessage)

/-! ## schemas and routes -/

/-- a route that relays its body -/
structure Relay where
  path : String
  extra : List (String × Schema)
  channel : ChannelId
  event_type : EventType
  fallback : String
  sender : String

/-- `z.object({ ...BaseFields, .. }).strict()` -/
def Relay.schema (r : Relay) : Schema := .object (BaseFields ++ r.extra) true

def Relay.event (r : Relay) (id : String) (body : List (String × Json)) : IslandEvent where
  id := id
  channel := r.channel
  event_type := r.event_type
  message := (text (body.lookup "message")).getD r.fallback
  sender := r.sender
  guest_id := text (body.lookup "guest_id")
  guest_name := text (body.lookup "guest_name")
  data := some (restOf body)

/-- the event that a post to the route broadcasts, `none` is a 400 -/
def Relay.handle (r : Relay) (id : String) (body : Json) : Option IslandEvent :=
  match r.schema.parse body with
  | some (.obj body) => some (r.event id body)
  | _ => none

def airportArrival : Relay where
  path := "/airport/arrival"
  extra := [("gate", .optional .string), ("passport_type", .optional .string)]
  channel := .Airport
  event_type := .AIRPORT_ARRIVAL
  fallback := "A guest arrived at the airport."
  sender := "airport"

/-- `HotelEventSchema` -/
def hotelFields : List (String × Schema) :=
  [("reservation_id", .optional .string), ("room_type", .optional .string),
   ("guest_count", .optional .number), ("check_in_day", .optional .number),
   ("check_out_day", .optional .number)]

def hotelConfirm : Relay where
  path := "/hotel/confirm"
  extra := hotelFields
  channel := .Hotel
  event_type := .HOTEL_CONFIRM
  fallback := "A reservation was confirmed."
  sender := "hotel"

def hotelCancel : Relay where
  path := "/hotel/cancel"
  extra := hotelFields
  channel := .Hotel
  event_type := .HOTEL_CANCEL
  fallback := "A reservation was cancelled."
  sender := "hotel"

def beachFull : Relay where
  path := "/beach/full"
  extra := [("activity", .optional .string)]
  channel := .Beach
  event_type := .BEACH_FULL
  fallback := "A beach activity reached capacity."
  sender := "beach"

def beachAvailable : Relay where
  path := "/beach/available"
  extra := [("activity", .optional .string)]
  channel := .Beach
  event_type := .BEACH_AVAILABLE
  fallback := "A beach activity has availability."
  sender := "beach"

def CrabOrderLineSchema : Schema := .object
  [("item_id", .string), ("name", .string), ("emoji", .optional .string), ("qty", .number)] false

def crabOrder : Relay where
  path := "/crab/order"
  extra := [("order_id", .optional .string), ("items", .optional (.array CrabOrderLineSchema)),
    ("total", .optional .number)]
  channel := .Crab
  event_type := .CRAB_ORDER_PLACED
  fallback := "A guest ordered at the Crusty Crab."
  sender := "crab"

def crabSoldOut : Relay where
  path := "/crab/sold-out"
  extra := [("item_id", .optional .string), ("name", .optional .string)]
  channel := .Crab
  event_type := .CRAB_SOLD_OUT
  fallback := "An item sold out at the Crusty Crab."
  sender := "crab"

def relays : List Relay :=
  [airportArrival, hotelConfirm, hotelCancel, beachFull, beachAvailable, crabOrder, crabSoldOut]

def cursedFields : List (String × Schema) :=
  [("guest_id", .nonempty .string), ("message", .nonempty .string),
   ("triggered_word", .nonempty (.array .string))]

def CursedEventSchema : Schema := .object cursedFields true

/-- the event of `cursed.ts` for a parsed body; both texts are there by the schema -/
def cursedEvent (id : String) (body : List (String × Json)) : IslandEvent where
  id := id
  channel := .Parrot
  event_type := .PARROT_CURSED
  message := (text (body.lookup "message")).getD ""
  sender := "parrot"
  guest_id := text (body.lookup "guest_id")
  guest_name := none
  data := some (member "triggered_word" (body.lookup "triggered_word"))

def cursed (id : String) (body : Json) : Option IslandEvent :=
  match CursedEventSchema.parse body with
  | some (.obj body) => some (cursedEvent id body)
  | _ => none

def route (id : String) (post : Post) : Option IslandEvent :=
  if post.path = "/cursed" then cursed id post.body
  else match relays.find? (fun r => r.path = post.path) with
    | some r => r.handle id post.body
    | none => none

/-! ## what a relay keeps of its body -/

/-- the ingested event has the channel and type of its route, and the members of the body -/
structure Carries (channel : ChannelId) (event_type : EventType) (body event : List (String × Json)) :
    Prop where
  channel : event.lookup "channel" = some (.str channel.text)
  event_type : event.lookup "event_type" = some (.str event_type.text)
  message : event.lookup "message" = body.lookup "message"
  guest_id : event.lookup "guest_id" = body.lookup "guest_id"
  guest_name : event.lookup "guest_name" = body.lookup "guest_name"
  data : ∃ data, event.lookup "data" = some (.obj data) ∧
    ∀ k, k ∉ ["message", "guest_id", "guest_name"] → data.lookup k = body.lookup k

/-! ## the frontend -/

theorem parse_channel (c : ChannelId) :
    Schema.parse (.enum ["airport", "hotel", "beach", "crab", "parrot", "broadcast", "resort-wide"])
      (.str c.text) = some (.str c.text) := by
  cases c <;> rfl

theorem lookup_members (event : IslandEvent) :
    event.members.lookup "id" = some (.str event.id) ∧
    event.members.lookup "channel" = some (.str event.channel.text) ∧
    event.members.lookup "event_type" = some (.str event.event_type.text) ∧
    event.members.lookup "message" = some (.str event.message) ∧
    event.members.lookup "sender" = some (.str event.sender) ∧
    event.members.lookup "guest_id" = event.guest_id.map .str ∧
    event.members.lookup "guest_name" = event.guest_name.map .str ∧
    event.members.lookup "data" = event.data.map .obj ∧
    event.members.lookup "source" = none := by
  obtain ⟨id, channel, event_type, message, sender, guest_id, guest_name, data⟩ := event
  cases guest_id <;> cases guest_name <;> cases data <;>
    exact ⟨rfl, rfl, rfl, rfl, rfl, rfl, rfl, rfl, rfl⟩

theorem returns_text (s : Option String) : Schema.Returns (.optional .string) (s.map .str) := by
  cases s <;> rfl

theorem parse_json (event : IslandEvent) :
    BroadcastEventSchema.parse event.json = some event.json := by
  obtain ⟨hid, hchannel, htype, hmessage, hsender, hguest, hname, hdata, _⟩ := lookup_members event
  rw [IslandEvent.json, BroadcastEventSchema, Schema.parse, Bool.false_and,
    if_neg Bool.false_ne_true, Schema.parseFields_of_returns]
  · obtain ⟨id, channel, event_type, message, sender, guest_id, guest_name, data⟩ := event
    cases guest_id <;> cases guest_name <;> cases data <;> rfl
  · simp only [List.forall_mem_cons, List.not_mem_nil, false_implies, implies_true, and_true, hid,
      hchannel, htype, hmessage, hsender, hguest, hname, hdata]
    refine ⟨rfl, parse_channel _, rfl, rfl, rfl, returns_text _, returns_text _, ?_⟩
    cases event.data with
    | none => rfl
    | some data => exact Schema.parse_record_unknown data

/-- **The frontend ingests every event of the service as it is**: it is no island event, and its
schema accepts it. -/
theorem parseMessage_json (event : IslandEvent) :
    parseIslandEventMessage event.json = none ∧ parseMessage event.json = some event.members := by
  have hisland : parseIslandEventMessage event.json = none := by
    rw [IslandEvent.json, parseIslandEventMessage, Beach.Frontend.normalizeIslandEvent,
      (lookup_members event).2.2.2.2.2.2.2.2]
    rfl
  refine ⟨hisland, ?_⟩
  simp only [parseMessage, hisland, parse_json]
  rfl

/-! ## what the routes carry over -/

theorem lookup_restOf (body : List (String × Json)) {k : String}
    (h : k ∉ ["message", "guest_id", "guest_name"]) : (restOf body).lookup k = body.lookup k := by
  induction body with
  | nil => rfl
  | cons p body ih =>
    obtain ⟨k', v⟩ := p
    by_cases e : k = k'
    · subst e
      rw [restOf, List.filter_cons_of_pos (by simpa using h), List.lookup_cons_self,
        List.lookup_cons_self]
    · rw [Schema.lookup_cons_ne e, ← ih, restOf, List.filter_cons]
      split
      · exact Schema.lookup_cons_ne e v _
      · rfl

theorem text_of_returns {v : Option Json} (h : Schema.Returns (.optional .string) v) :
    (text v).map .str = v := by
  rcases v with _ | v
  · rfl
  · cases v with
    | str s => rfl
    | _ => exact absurd h (by simp [Schema.Returns, Schema.parse])

/-- **What a relay keeps.**  A body whose members are all named by the schema and returned as they
are is relayed, and what the frontend ingests carries it. -/
theorem Relay.carries (r : Relay) (id : String) {members : List (String × Json)} {message : String}
    (hkeys : ∀ p ∈ members, p.1 ∈ (BaseFields ++ r.extra).map Prod.fst)
    (h : ∀ p ∈ BaseFields ++ r.extra, p.2.Returns (members.lookup p.1))
    (hmessage : members.lookup "message" = some (.str message)) :
    r.schema.accepts (.obj members) = true ∧ ∃ event, r.handle id (.obj members) = some event ∧
      Carries r.channel r.event_type members event.members := by
  obtain ⟨hparse, hlookup⟩ := Schema.parse_strict hkeys h
  have hbase : ∀ p ∈ BaseFields, p.2.Returns (members.lookup p.1) :=
    fun p hp => h p (List.mem_append_left _ hp)
  refine ⟨?_, r.event id (Schema.kept (BaseFields ++ r.extra) members), ?_, ?_⟩
  · rw [Relay.schema, Schema.accepts, hparse]
    rfl
  · rw [Relay.handle, Relay.schema, hparse]
  · obtain ⟨_, hchannel, htype, hmsg, _, hguest, hname, hdata, _⟩ :=
      lookup_members (r.event id (Schema.kept (BaseFields ++ r.extra) members))
    refine ⟨hchannel, htype, hmsg.trans ?_, hguest.trans ?_, hname.trans ?_, _, hdata, ?_⟩
    · show some (Json.str ((text (List.lookup "message" _)).getD _)) = _
      rw [hlookup, hmessage]
      rfl
    · show (text (List.lookup "guest_id" _)).map Json.str = _
      rw [hlookup]
      exact text_of_returns (hbase ("guest_id", .optional .string) (by simp [BaseFields]))
    · show (text (List.lookup "guest_name" _)).map Json.str = _
      rw [hlookup]
      exact text_of_returns (hbase ("guest_name", .optional .string) (by simp [BaseFields]))
    · intro k hk
      rw [lookup_restOf _ hk, hlookup]

end Broadcast
