import Purrlington.Broadcast.Routes
import Purrlington.Hotel.Reservation
import Purrlington.Parrot.Profanity

/-!
# Broadcast: from the producers to the frontend

* `Airport.publishEvent`, `Hotel.publishHotelEvent`, `Crab.orderPlaced`, `Crab.soldOut`,
  `Parrot.assembleCursed`   the posts of the services; those of the beach are in `Beach.Broadcast`;
* `Produced`          a message of any of the producers, with any texts and numbers;
* `domain_events_survive`   the route takes it, the frontend ingests the event, and nothing of the
                      producer's message is lost or changed on the way.
-/

set_option linter.unusedSectionVars false

namespace Airport
open Beach (Post)

/-- what `publish_event` reads of a processed guest -/
structure ProcessedGuest where
  name : String
  surname : String
  guest_id : String
  status : String
  gate : String
  passport_type : String
  wait_time_seconds : Rat

/-- `gate.split('-')[0]` -/
def gateKind (gate : String) : String := String.ofList (gate.toList.takeWhile fun c => c ≠ '-')

/-- `publish_event`; `fixed` is the format `.0f` -/
def publishEvent (fixed : Rat → String) (result : ProcessedGuest) : Post :=
  ⟨"/airport/arrival", .obj [
    ("message", .str (result.name ++ " " ++ result.surname ++ " (ID: " ++ result.guest_id ++ ") " ++
      result.status ++ " at " ++ gateKind result.gate ++ " Passport Gate (" ++ result.gate ++
      "). Passport: " ++ result.passport_type ++ ", Wait: " ++ fixed result.wait_time_seconds ++
      "s game time")),
    ("guest_id", .str result.guest_id),
    ("guest_name", .str (result.name ++ " " ++ result.surname)),
    ("gate", .str result.gate),
    ("passport_type", .str result.passport_type)]⟩

end Airport

namespace Hotel
open Beach (Post)

def getEndpointForEvent : HotelBroadcastEventType → String
  | .ReservationConfirmed => "/hotel/confirm"
  | .ReservationCancelled => "/hotel/cancel"

def publishHotelEvent (event : HotelBroadcastEvent) : Post :=
  ⟨getEndpointForEvent event.type, .obj (([
    ("message", .str event.message),
    ("reservation_id", .str event.reservation_id),
    ("guest_id", .str event.guest_id)] : List (String × Json)) ++
    Broadcast.member "room_type" (event.room_type.map fun type => .str type.text) ++ [
    ("guest_count", .int event.guest_count),
    ("check_in_day", .int event.check_in_day),
    ("check_out_day", .int event.check_out_day)])⟩

end Hotel

namespace Crab
open Beach (Post)

structure OrderLine where
  item_id : String
  name : String
  emoji : String
  qty : Int

structure Order where
  id : String
  guest_id : String
  guest_name : String
  items : List OrderLine
  total : Int

structure MenuItem where
  id : String
  name : String
  emoji : String

def OrderLine.json (line : OrderLine) : Json :=
  .obj [("item_id", .str line.item_id), ("name", .str line.name), ("emoji", .str line.emoji),
    ("qty", .int line.qty)]

def guestLabel (o : Order) : String :=
  if o.guest_name ≠ "" then o.guest_name
  else if o.guest_id ≠ "" then o.guest_id
  else "A hungry guest"

def orderSummary (o : Order) : String :=
  String.intercalate ", " (o.items.map fun it => toString it.qty ++ "× " ++ it.name)

def orderPlaced (o : Order) : Post :=
  ⟨"/crab/order", .obj [
    ("message", .str (guestLabel o ++ " grabbed " ++ orderSummary o ++ " at the Crusty Crab! 🦀")),
    ("guest_id", .str o.guest_id),
    ("guest_name", .str o.guest_name),
    ("order_id", .str o.id),
    ("items", .arr (o.items.map OrderLine.json)),
    ("total", .int o.total)]⟩

def soldOut (item : MenuItem) : Post :=
  ⟨"/crab/sold-out", .obj [
    ("message", .str (item.emoji ++ " " ++ item.name ++ " just sold out at the Crusty Crab!")),
    ("item_id", .str item.id),
    ("name", .str item.name)]⟩

end Crab

namespace Parrot
open Beach (Post)

def notifyCursed (guest_id message : String) (triggered_words : List String) : Post :=
  ⟨"/cursed", .obj [
    ("guest_id", .str guest_id),
    ("message", .str message),
    ("triggered_word", .arr (triggered_words.map .str))]⟩

/-- the notification of `_assemble`: of a masked message, and of a known guest -/
def assembleCursed (profanitySet : List String) (guest_id : Option String) (message : String) :
    Option Post :=
  let was_censored := (maskProfanity profanitySet message).2
  match guest_id.filter (fun g => g ≠ "") with
  | some guest_id =>
    if was_censored then some (notifyCursed guest_id message (findProfaneWords profanitySet message))
    else none
  | none => none

end Parrot

namespace Broadcast
open Beach (Post BaseFields)
open Beach.Frontend (BroadcastEventSchema parseIslandEventMessage parseMessage)

/-- a message of one of the producers -/
inductive Produced where
  | airport (fixed : Rat → String) (result : Airport.ProcessedGuest)
  | hotel (event : Hotel.HotelBroadcastEvent)
  | beach (change : Beach.Change) (a : Beach.Activity)
  | order (o : Crab.Order)
  | soldOut (item : Crab.MenuItem)
  | parrot (profanitySet : List String) (guest_id : Option String) (message : String)

def Produced.post : Produced → Option Post
  | .airport fixed result => some (Airport.publishEvent fixed result)
  | .hotel event => some (Hotel.publishHotelEvent event)
  | .beach change a => some (change.post a)
  | .order o => some (Crab.orderPlaced o)
  | .soldOut item => some (Crab.soldOut item)
  | .parrot profanitySet guest_id message => Parrot.assembleCursed profanitySet guest_id message

/-- the channel and event type of the matching route -/
def Produced.kind : Produced → ChannelId × EventType
  | .airport _ _ => (.Airport, .AIRPORT_ARRIVAL)
  | .hotel event => (.Hotel, match event.type with
    | .ReservationConfirmed => .HOTEL_CONFIRM
    | .ReservationCancelled => .HOTEL_CANCEL)
  | .beach change _ => (.Beach, match change with
    | .full => .BEACH_FULL
    | .available => .BEACH_AVAILABLE)
  | .order _ => (.Crab, .CRAB_ORDER_PLACED)
  | .soldOut _ => (.Crab, .CRAB_SOLD_OUT)
  | .parrot _ _ _ => (.Parrot, .PARROT_CURSED)

/-- the strict schema of the matching route -/
def Produced.schema : Produced → Schema
  | .airport _ _ => airportArrival.schema
  | .hotel event => match event.type with
    | .ReservationConfirmed => hotelConfirm.schema
    | .ReservationCancelled => hotelCancel.schema
  | .beach change _ => match change with
    | .full => beachFull.schema
    | .available => beachAvailable.schema
  | .order _ => crabOrder.schema
  | .soldOut _ => crabSoldOut.schema
  | .parrot _ _ _ => CursedEventSchema

/-- the post passes the route, and the frontend ingests an event that carries it -/
structure Arrives (schema : Schema) (channel : ChannelId) (event_type : EventType) (id : String)
    (post : Post) (body : List (String × Json)) (event : IslandEvent) : Prop where
  posted : post.body = .obj body
  accepted : schema.accepts post.body = true
  routed : route id post = some event
  notIsland : parseIslandEventMessage event.json = none
  valid : BroadcastEventSchema.accepts event.json = true
  ingested : parseMessage event.json = some event.members
  carries : Carries channel event_type body event.members

theorem Relay.arrives {r : Relay} {id : String} {post : Post} {body : List (String × Json)}
    {message : String} (hroute : route id post = r.handle id post.body) (hbody : post.body = .obj body)
    (hkeys : ∀ p ∈ body, p.1 ∈ (BaseFields ++ r.extra).map Prod.fst)
    (h : ∀ p ∈ BaseFields ++ r.extra, p.2.Returns (body.lookup p.1))
    (hmessage : body.lookup "message" = some (.str message)) :
    ∃ body event, Arrives r.schema r.channel r.event_type id post body event := by
  obtain ⟨haccepts, event, hevent, hcarries⟩ := r.carries id hkeys h hmessage
  obtain ⟨hisland, hingest⟩ := parseMessage_json event
  refine ⟨body, event, hbody, by rw [hbody]; exact haccepts, ?_, hisland, ?_, hingest, hcarries⟩
  · rw [hroute, hbody]
    exact hevent
  · rw [Schema.accepts, parse_json]
    rfl

/-! ## one producer after the other -/

theorem airport_arrives (fixed : Rat → String) (result : Airport.ProcessedGuest) (id : String) :
    ∃ body event, Arrives airportArrival.schema .Airport .AIRPORT_ARRIVAL id
      (Airport.publishEvent fixed result) body event := by
  apply Relay.arrives (r := airportArrival) rfl rfl
  · simp [BaseFields, airportArrival]
  · simp only [BaseFields, airportArrival, List.cons_append, List.nil_append, List.forall_mem_cons,
      List.not_mem_nil, false_implies, implies_true, and_true]
    exact ⟨rfl, rfl, rfl, rfl, rfl⟩
  · rfl

theorem hotel_arrives {r : Relay} {type : Hotel.HotelBroadcastEventType} (hextra : r.extra = hotelFields)
    (hroute : ∀ id body, route id ⟨Hotel.getEndpointForEvent type, body⟩ = r.handle id body)
    (event : Hotel.HotelBroadcastEvent) (htype : event.type = type) (id : String) :
    ∃ body e, Arrives r.schema r.channel r.event_type id (Hotel.publishHotelEvent event) body e := by
  obtain ⟨type', message, reservation_id, guest_id, room_type, count, ci, co⟩ := event
  obtain rfl : type' = type := htype
  apply Relay.arrives (r := r) (hroute id _) rfl
  · rw [hextra]
    cases room_type <;> simp [BaseFields, hotelFields, member]
  · rw [hextra]
    simp only [BaseFields, hotelFields, List.cons_append, List.nil_append, List.forall_mem_cons,
      List.not_mem_nil, false_implies, implies_true, and_true]
    cases room_type <;> exact ⟨rfl, rfl, rfl, rfl, rfl, rfl, rfl, rfl⟩
  · rfl

theorem beach_arrives {r : Relay} {change : Beach.Change}
    (hextra : r.extra = [("activity", .optional .string)])
    (hroute : ∀ id a, route id (change.post a) = r.handle id (change.post a).body)
    (a : Beach.Activity) (id : String) :
    ∃ body e, Arrives r.schema r.channel r.event_type id (change.post a) body e := by
  cases change <;>
  · apply Relay.arrives (r := r) (hroute id a) rfl
    · rw [hextra]
      simp [BaseFields]
    · rw [hextra]
      simp only [BaseFields, List.cons_append, List.nil_append, List.forall_mem_cons,
        List.not_mem_nil, false_implies, implies_true, and_true]
      exact ⟨rfl, rfl, rfl, rfl⟩
    · rfl

theorem order_arrives (o : Crab.Order) (id : String) :
    ∃ body e, Arrives crabOrder.schema .Crab .CRAB_ORDER_PLACED id (Crab.orderPlaced o) body e := by
  have hitems : Schema.parse (.optional (.array CrabOrderLineSchema))
      (.arr (o.items.map Crab.OrderLine.json)) = some (.arr (o.items.map Crab.OrderLine.json)) := by
    rw [Schema.parse]
    apply Schema.parse_array
    intro v hv
    obtain ⟨line, _, rfl⟩ := List.mem_map.mp hv
    rfl
  apply Relay.arrives (r := crabOrder) rfl rfl
  · simp [BaseFields, crabOrder]
  · simp only [BaseFields, crabOrder, List.cons_append, List.nil_append, List.forall_mem_cons,
      List.not_mem_nil, false_implies, implies_true, and_true]
    exact ⟨rfl, rfl, rfl, rfl, hitems, rfl⟩
  · rfl

theorem soldOut_arrives (item : Crab.MenuItem) (id : String) :
    ∃ body e, Arrives crabSoldOut.schema .Crab .CRAB_SOLD_OUT id (Crab.soldOut item) body e := by
  apply Relay.arrives (r := crabSoldOut) rfl rfl
  · simp [BaseFields, crabSoldOut]
  · simp only [BaseFields, crabSoldOut, List.cons_append, List.nil_append, List.forall_mem_cons,
      List.not_mem_nil, false_implies, implies_true, and_true]
    exact ⟨rfl, rfl, rfl, rfl, rfl⟩
  · rfl

theorem parse_nonempty {s : Schema} {v : Json} (h : s.parse v = some v)
    (hmin : Schema.hasMin v = true) : Schema.parse (.nonempty s) v = some v := by
  rw [Schema.parse, h]
  exact if_pos hmin

theorem parse_texts (words : List String) :
    Schema.parse (.array .string) (.arr (words.map .str)) = some (.arr (words.map .str)) := by
  apply Schema.parse_array
  intro v hv
  obtain ⟨w, _, rfl⟩ := List.mem_map.mp hv
  rfl

theorem cursed_arrives {guest_id message : String} {words : List String} (hguest : guest_id ≠ "")
    (hmessage : message ≠ "") (hwords : words ≠ []) (id : String) :
    ∃ body e, Arrives CursedEventSchema .Parrot .PARROT_CURSED id
      (Parrot.notifyCursed guest_id message words) body e := by
  obtain ⟨body, hbody⟩ : ∃ body : List (String × Json), body = [("guest_id", .str guest_id),
    ("message", .str message), ("triggered_word", .arr (words.map .str))] := ⟨_, rfl⟩
  have hposted : (Parrot.notifyCursed guest_id message words).body = .obj body := by
    rw [hbody]
    rfl
  have hmin : Schema.hasMin (.arr (words.map .str)) = true := by
    cases words with
    | nil => exact absurd rfl hwords
    | cons w words => rfl
  have hkeys : ∀ p ∈ body, p.1 ∈ cursedFields.map Prod.fst := by
    rw [hbody]
    simp [cursedFields]
  have hreturns : ∀ p ∈ cursedFields, p.2.Returns (body.lookup p.1) := by
    rw [hbody]
    simp only [cursedFields, List.forall_mem_cons, List.not_mem_nil, false_implies, implies_true,
      and_true]
    exact ⟨parse_nonempty rfl (decide_eq_true hguest), parse_nonempty rfl (decide_eq_true hmessage),
      parse_nonempty (parse_texts words) hmin⟩
  obtain ⟨hparse, hlookup⟩ := Schema.parse_strict hkeys hreturns
  have hevent := lookup_members (cursedEvent id (Schema.kept cursedFields body))
  obtain ⟨_, hchannel, htype, hmsg, _, hguestId, hname, hdata, _⟩ := hevent
  obtain ⟨hisland, hingest⟩ := parseMessage_json (cursedEvent id (Schema.kept cursedFields body))
  refine ⟨body, cursedEvent id (Schema.kept cursedFields body), hposted, ?_, ?_, hisland, ?_, hingest,
    ⟨hchannel, htype, hmsg.trans ?_, hguestId.trans ?_, hname.trans ?_, _, hdata, ?_⟩⟩
  · rw [hposted, CursedEventSchema, Schema.accepts, hparse]
    rfl
  · show cursed id (Parrot.notifyCursed guest_id message words).body = _
    rw [hposted, cursed, CursedEventSchema, hparse]
  · rw [Schema.accepts, parse_json]
    rfl
  · show some (Json.str ((Beach.Frontend.text (List.lookup "message" _)).getD "")) = _
    rw [hlookup, hbody]
    rfl
  · show (Beach.Frontend.text (List.lookup "guest_id" _)).map Json.str = _
    rw [hlookup, hbody]
    rfl
  · rw [hbody]
    rfl
  · intro k hk
    show (member "triggered_word" (List.lookup "triggered_word" _)).lookup k = _
    simp only [List.mem_cons, List.not_mem_nil, or_false, not_or] at hk
    rw [hlookup, hbody, Schema.lookup_cons_ne hk.2.1, Schema.lookup_cons_ne hk.1]
    rfl

/-! ## the law -/

/-- **Domain events survive the whole pipeline.**  Whatever a producer sends, with any texts and
numbers: the strict schema of the matching route accepts it; the event of the route is no island
event and passes the schema of the frontend; and what the frontend ingests has the channel and type
of the route, the message and guest of the producer, and all its other members under `data`. -/
theorem domain_events_survive (p : Produced) (id : String) (post : Post) (h : p.post = some post) :
    ∃ body event, Arrives p.schema p.kind.1 p.kind.2 id post body event := by
  cases p with
  | airport fixed result =>
    obtain rfl := Option.some.inj h
    exact airport_arrives fixed result id
  | hotel event =>
    obtain rfl := Option.some.inj h
    cases htype : event.type with
    | ReservationConfirmed =>
      simp only [Produced.schema, Produced.kind, htype]
      exact hotel_arrives (r := hotelConfirm) rfl (fun _ _ => rfl) event htype id
    | ReservationCancelled =>
      simp only [Produced.schema, Produced.kind, htype]
      exact hotel_arrives (r := hotelCancel) rfl (fun _ _ => rfl) event htype id
  | beach change a =>
    obtain rfl := Option.some.inj h
    cases change with
    | full => exact beach_arrives (r := beachFull) rfl (fun _ _ => rfl) a id
    | available => exact beach_arrives (r := beachAvailable) rfl (fun _ _ => rfl) a id
  | order o =>
    obtain rfl := Option.some.inj h
    exact order_arrives o id
  | soldOut item =>
    obtain rfl := Option.some.inj h
    exact soldOut_arrives item id
  | parrot profanitySet guest_id message =>
    rw [Produced.post, Parrot.assembleCursed] at h
    split at h
    · rename_i guest hguest
      split at h
      · rename_i hcensored
        obtain rfl := Option.some.inj h
        obtain ⟨hmessage, hwords⟩ := Parrot.findProfaneWords_ne_nil profanitySet hcensored
        have hne : guest ≠ "" := of_decide_eq_true (Option.filter_eq_some_iff.mp hguest).2
        exact cursed_arrives hne hmessage hwords id
      · exact absurd h (by simp)
    · exact absurd h (by simp)

theorem domain_events_survive_cursed : ∃ body event, Arrives CursedEventSchema .Parrot .PARROT_CURSED
    "event-1" (Parrot.notifyCursed "guest-1" "what an a$$!" ["ass"]) body event :=
  domain_events_survive (.parrot ["ass"] (some "guest-1") "what an a$$!") "event-1"
    (Parrot.notifyCursed "guest-1" "what an a$$!" ["ass"]) rfl

end Broadcast
