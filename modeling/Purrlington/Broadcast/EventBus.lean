import Purrlington.Lib.Json
import Purrlington.Lib.Framing
import Mathlib.Data.List.Nodup

/-!
# Broadcast: the event bus

Listeners connect with a service token and are handed the events of the channels that the service
is granted.

* `identifyService`   the service of a request, from its headers or its query;
* `Bus`               the attached clients and what has been written to every response so far.  A
              response is named by its place among all requests for the stream;
* `Bus.addClient`, `Bus.removeClient`, `Bus.broadcast`   the operations of `eventBus.ts`;
* `event_bus_delivers`   a recognised listener is written the connect comment and then the frames
              of the granted events that are published until it is removed, and nothing depends on
              the events of other channels.
-/

set_option linter.unusedSectionVars false
set_option linter.dupNamespace false

namespace Broadcast

/-! ## events -/

inductive ChannelId where
  | Airport | Hotel | Beach | Crab | Parrot | Broadcast | ResortWide
  deriving DecidableEq, Repr

def ChannelId.text : ChannelId → String
  | .Airport => "airport"
  | .Hotel => "hotel"
  | .Beach => "beach"
  | .Crab => "crab"
  | .Parrot => "parrot"
  | .Broadcast => "broadcast"
  | .ResortWide => "resort-wide"

def ChannelId.values : List ChannelId :=
  [.Airport, .Hotel, .Beach, .Crab, .Parrot, .Broadcast, .ResortWide]

inductive EventType where
  | AIRPORT_ARRIVAL
  | HOTEL_CONFIRM | HOTEL_CANCEL
  | BEACH_FULL | BEACH_AVAILABLE
  | CRAB_ORDER_PLACED | CRAB_SOLD_OUT
  | PARROT_CURSED
  | PUBLIC_ANNOUNCEMENT
  | ADMIN_ANNOUNCEMENT
  deriving DecidableEq, Repr

def EventType.text : EventType → String
  | .AIRPORT_ARRIVAL => "airport.arrival"
  | .HOTEL_CONFIRM => "hotel.reservation_confirmed"
  | .HOTEL_CANCEL => "hotel.reservation_cancelled"
  | .BEACH_FULL => "beach.activity_full"
  | .BEACH_AVAILABLE => "beach.activity_available"
  | .CRAB_ORDER_PLACED => "crab.order_placed"
  | .CRAB_SOLD_OUT => "crab.sold_out"
  | .PARROT_CURSED => "parrot.cursed"
  | .PUBLIC_ANNOUNCEMENT => "public.announcement"
  | .ADMIN_ANNOUNCEMENT => "admin.announcement"

structure IslandEvent where
  id : String
  channel : ChannelId
  event_type : EventType
  message : String
  sender : String
  guest_id : Option String
  guest_name : Option String
  data : Option (List (String × Json))

/-- a member that is left out of the text where it is undefined -/
def member (key : String) (v : Option Json) : List (String × Json) := v.toList.map fun v => (key, v)

def IslandEvent.members (event : IslandEvent) : List (String × Json) :=
  ([("id", .str event.id), ("channel", .str event.channel.text),
    ("event_type", .str event.event_type.text), ("message", .str event.message),
    ("sender", .str event.sender)] : List (String × Json)) ++
  member "guest_id" (event.guest_id.map .str) ++
  member "guest_name" (event.guest_name.map .str) ++
  member "data" (event.data.map .obj)

/-- the value that `JSON.stringify` writes out -/
def IslandEvent.json (event : IslandEvent) : Json := .obj event.members

/-! ## who is asking -/

/-- `req.query.token`: a string, or an array or object -/
inductive QueryValue where
  | text (s : String)
  | nested

/-- what `GET /events` looks at -/
structure Request where
  authorization : Option String
  x_service_token : Option String
  token : Option QueryValue

def isSpace (c : Char) : Bool :=
  c.toNat ∈ [9, 10, 11, 12, 13, 32, 160, 5760, 8232, 8233, 8239, 8287, 12288, 65279] ||
    decide (8192 ≤ c.toNat ∧ c.toNat ≤ 8202)

def trim (s : List Char) : List Char := Framing.strip isSpace s

def bearer (auth : String) : Bool := "Bearer ".toList.isPrefixOf auth.toList

def extractToken (req : Request) : Option String :=
  match req.authorization.filter bearer with
  | some auth => some (String.ofList (trim (auth.toList.drop 7)))
  | none => match req.x_service_token.filter (fun t => t ≠ "") with
    | some headerToken => some headerToken
    | none => match req.token with
      | some (.text queryToken) => some queryToken
      | _ => none

structure Service where
  name : String
  envVar : String
  allowedChannels : List ChannelId

def SERVICE_REGISTRY : List Service :=
  [⟨"frontend", "FE_TOKEN", ChannelId.values⟩,
   ⟨"hotel", "HOTEL_TOKEN", []⟩,
   ⟨"beach", "BEACH_TOKEN", [.Hotel]⟩,
   ⟨"airport", "AIRPORT_TOKEN", []⟩,
   ⟨"parrot", "PARROT_TOKEN", []⟩]

abbrev Env := String → Option String

/-- the token is the one that is configured for the service, which is not empty -/
def Service.accepts (env : Env) (token : String) (service : Service) : Bool :=
  (env service.envVar).any fun configured => configured ≠ "" && token = configured

structure ServiceIdentity where
  name : String
  allowedChannels : List ChannelId

def Service.identity (service : Service) : ServiceIdentity :=
  ⟨service.name, service.allowedChannels⟩

/-- the first service of the registry that has the token -/
def identifyService (env : Env) (req : Request) : Option ServiceIdentity :=
  match extractToken req with
  | none => none
  | some token =>
    if token = "" then none
    else (SERVICE_REGISTRY.find? (Service.accepts env token)).map Service.identity

/-- some service has a non-empty token configured, and it is the request's -/
def Recognised (env : Env) (req : Request) : Prop :=
  ∃ service ∈ SERVICE_REGISTRY, ∃ configured, env service.envVar = some configured ∧
    configured ≠ "" ∧ extractToken req = some configured

theorem accepts_iff {env : Env} {token : String} {service : Service} :
    service.accepts env token = true ↔ env service.envVar = some token ∧ token ≠ "" := by
  rw [Service.accepts]
  cases env service.envVar with
  | none => simp
  | some configured =>
    simp only [Option.any_some, Bool.and_eq_true, decide_eq_true_eq, Option.some.injEq]
    constructor
    · rintro ⟨hne, rfl⟩
      exact ⟨rfl, hne⟩
    · rintro ⟨rfl, hne⟩
      exact ⟨hne, rfl⟩

theorem identifyService_some {env : Env} {req : Request} {identity : ServiceIdentity}
    (h : identifyService env req = some identity) :
    ∃ service ∈ SERVICE_REGISTRY, identity = service.identity ∧
      ∃ configured, env service.envVar = some configured ∧ configured ≠ "" ∧
        extractToken req = some configured := by
  rw [identifyService] at h
  split at h
  · exact absurd h (by simp)
  · rename_i token htoken
    split at h
    · exact absurd h (by simp)
    · obtain ⟨service, hfind, rfl⟩ := Option.map_eq_some_iff.mp h
      have hacc := List.find?_some hfind
      obtain ⟨henv, hne⟩ := accepts_iff.mp hacc
      exact ⟨service, List.mem_of_find?_eq_some hfind, rfl, token, henv, hne, htoken⟩

theorem identifyService_isSome {env : Env} {req : Request} :
    (identifyService env req).isSome = true ↔ Recognised env req := by
  constructor
  · intro h
    obtain ⟨identity, hs⟩ := Option.isSome_iff_exists.mp h
    obtain ⟨service, hmem, _, hconf⟩ := identifyService_some hs
    exact ⟨service, hmem, hconf⟩
  · rintro ⟨service, hmem, configured, henv, hne, htoken⟩
    rw [identifyService, htoken]
    show (if configured = "" then none
      else (SERVICE_REGISTRY.find? (Service.accepts env configured)).map _).isSome = true
    rw [if_neg hne, Option.isSome_map, List.find?_isSome]
    exact ⟨service, hmem, accepts_iff.mpr ⟨henv, hne⟩⟩

/-! ## the bus -/

structure ConnectedClient where
  res : Nat
  allowedChannels : List ChannelId

structure Response where
  status : Nat
  written : List String
  deriving DecidableEq

def Response.write (text : String) (res : Response) : Response :=
  { res with written := res.written ++ [text] }

/-- the clients are attached once each, to responses that exist -/
structure Bus where
  clients : List ConnectedClient
  responses : List Response
  res_nodup : (clients.map ConnectedClient.res).Nodup
  res_lt : ∀ res ∈ clients.map ConnectedClient.res, res < responses.length

def Bus.empty : Bus := ⟨[], [], List.nodup_nil, fun _ h => absurd h (by simp)⟩

def Bus.answer (bus : Bus) (status : Nat) (text : String) : Bus where
  clients := bus.clients
  responses := bus.responses ++ [⟨status, [text]⟩]
  res_nodup := bus.res_nodup
  res_lt res h := by
    have := bus.res_lt res h
    rw [List.length_append]
    omega

/-- the response of the request is new -/
def Bus.addClient (bus : Bus) (allowedChannels : List ChannelId) : Bus where
  clients := bus.clients ++ [⟨bus.responses.length, allowedChannels⟩]
  responses := bus.responses ++ [⟨200, [": connected\n\n"]⟩]
  res_nodup := by
    rw [List.map_append, List.map_singleton]
    refine bus.res_nodup.append (List.nodup_singleton _) (List.disjoint_singleton.mpr ?_)
    intro h
    exact Nat.lt_irrefl _ (bus.res_lt _ h)
  res_lt res h := by
    rw [List.map_append, List.map_singleton, List.mem_append, List.mem_singleton] at h
    rw [List.length_append, List.length_singleton]
    rcases h with h | rfl
    · have := bus.res_lt res h
      omega
    · exact Nat.lt_succ_self _

def unauthenticated : String := "\x7b\"error\":\"Service authentication required\"\x7d"

/-- `GET /events` -/
def Bus.connect (bus : Bus) (env : Env) (req : Request) : Bus :=
  match identifyService env req with
  | none => bus.answer 401 unauthenticated
  | some identity => bus.addClient identity.allowedChannels

/-- `findIndex` and `splice`: the first client with this response goes -/
def Bus.removeClient (bus : Bus) (res : Nat) : Bus where
  clients := bus.clients.eraseP fun client => client.res = res
  responses := bus.responses
  res_nodup := bus.res_nodup.sublist (List.eraseP_sublist.map _)
  res_lt r h := bus.res_lt r ((List.eraseP_sublist.map _).subset h)

section
variable (stringify : Json → String)

def frame (event : IslandEvent) : String := "data: " ++ stringify event.json ++ "\n\n"

/-- the body of the loop over the clients -/
def writeTo (event : IslandEvent) (responses : List Response) (client : ConnectedClient) :
    List Response :=
  if event.channel ∈ client.allowedChannels then
    responses.modify client.res (Response.write (frame stringify event))
  else responses

theorem length_writeTo (event : IslandEvent) (responses : List Response)
    (client : ConnectedClient) :
    (writeTo stringify event responses client).length = responses.length := by
  rw [writeTo]
  split
  · exact List.length_modify _ _ _
  · rfl

theorem length_foldl_writeTo (event : IslandEvent) (clients : List ConnectedClient)
    (responses : List Response) :
    (clients.foldl (writeTo stringify event) responses).length = responses.length := by
  induction clients generalizing responses with
  | nil => rfl
  | cons client clients ih =>
    rw [List.foldl_cons, ih, length_writeTo]

def Bus.broadcast (bus : Bus) (event : IslandEvent) : Bus where
  clients := bus.clients
  responses := bus.clients.foldl (writeTo stringify event) bus.responses
  res_nodup := bus.res_nodup
  res_lt res h := by
    rw [length_foldl_writeTo]
    exact bus.res_lt res h

/-- `close` is the event of the request that removes its client -/
inductive Act where
  | connect (env : Env) (req : Request)
  | close (res : Nat)
  | publish (event : IslandEvent)

def Bus.step (bus : Bus) : Act → Bus
  | .connect env req => bus.connect env req
  | .close res => bus.removeClient res
  | .publish event => bus.broadcast stringify event

def Bus.run (bus : Bus) (acts : List Act) : Bus := acts.foldl (Bus.step stringify) bus

/-! ## what one step writes -/

def Bus.Attached (bus : Bus) (res : Nat) : Prop := res ∈ bus.clients.map ConnectedClient.res

theorem Bus.attached_of_mem {bus : Bus} {client : ConnectedClient} (h : client ∈ bus.clients) :
    bus.Attached client.res := List.mem_map_of_mem h

theorem writeTo_ne {event : IslandEvent} {responses : List Response} {client : ConnectedClient}
    {i : Nat} (h : client.res ≠ i) :
    (writeTo stringify event responses client)[i]? = responses[i]? := by
  rw [writeTo]
  split
  · exact List.getElem?_modify_ne _ _ h
  · rfl

theorem foldl_writeTo_notMem (event : IslandEvent) {clients : List ConnectedClient}
    {responses : List Response} {i : Nat} (h : i ∉ clients.map ConnectedClient.res) :
    (clients.foldl (writeTo stringify event) responses)[i]? = responses[i]? := by
  induction clients generalizing responses with
  | nil => rfl
  | cons client clients ih =>
    rw [List.map_cons, List.mem_cons, not_or] at h
    rw [List.foldl_cons, ih h.2, writeTo_ne stringify fun e => h.1 e.symm]

/-- the frame of an event, where the channel is granted -/
def framesOf (allowedChannels : List ChannelId) (events : List IslandEvent) : List String :=
  (events.filter fun event => event.channel ∈ allowedChannels).map (frame stringify)

/-- an attached client is written the frame once, if its channel is granted -/
theorem foldl_writeTo_mem (event : IslandEvent) {clients : List ConnectedClient}
    {responses : List Response} {client : ConnectedClient} {r : Response}
    (hnd : (clients.map ConnectedClient.res).Nodup) (hc : client ∈ clients)
    (hr : responses[client.res]? = some r) :
    (clients.foldl (writeTo stringify event) responses)[client.res]? =
      some ⟨r.status, r.written ++ framesOf stringify client.allowedChannels [event]⟩ := by
  induction clients generalizing responses with
  | nil => exact absurd hc (by simp)
  | cons c clients ih =>
    rw [List.map_cons, List.nodup_cons] at hnd
    rw [List.foldl_cons]
    rcases List.mem_cons.mp hc with rfl | hc
    · -- its own turn, and then those of the others
      rw [foldl_writeTo_notMem stringify event hnd.1, writeTo, framesOf]
      split
      · rename_i hch
        rw [List.getElem?_modify_eq, hr, List.filter_cons_of_pos (by simpa using hch)]
        rfl
      · rename_i hch
        rw [List.filter_cons_of_neg (by simpa using hch), hr, List.filter_nil, List.map_nil,
          List.append_nil]
    · apply ih hnd.2 hc
      rw [writeTo_ne stringify]
      · exact hr
      · intro e
        exact hnd.1 (e ▸ List.mem_map_of_mem hc)

theorem Bus.connect_responses (bus : Bus) (env : Env) (req : Request) {i : Nat}
    (h : i < bus.responses.length) : (bus.connect env req).responses[i]? = bus.responses[i]? := by
  rw [Bus.connect]
  split
  · exact List.getElem?_append_left h
  · exact List.getElem?_append_left h

theorem Bus.mem_clients_connect {bus : Bus} {client : ConnectedClient} (env : Env) (req : Request)
    (h : client ∈ bus.clients) : client ∈ (bus.connect env req).clients := by
  rw [Bus.connect]
  split
  · exact h
  · exact List.mem_append_left _ h

theorem Bus.not_attached_connect {bus : Bus} {i : Nat} (env : Env) (req : Request)
    (hlt : i < bus.responses.length) (h : ¬ bus.Attached i) :
    ¬ (bus.connect env req).Attached i := by
  rw [Bus.connect]
  split
  · exact h
  · intro hatt
    rw [Bus.Attached, Bus.addClient, List.map_append, List.mem_append] at hatt
    rcases hatt with hatt | hatt
    · exact h hatt
    · have : i = bus.responses.length := List.mem_singleton.mp hatt
      omega

theorem Bus.not_attached_removeClient (bus : Bus) (i : Nat) : ¬ (bus.removeClient i).Attached i := by
  have e : (bus.removeClient i).clients.map ConnectedClient.res =
      (bus.clients.map ConnectedClient.res).erase i := by
    rw [List.erase_eq_eraseP', List.eraseP_map]
    rfl
  rw [Bus.Attached, e]
  exact bus.res_nodup.not_mem_erase

def Act.isConnect : Act → Bool
  | .connect _ _ => true
  | _ => false

theorem Bus.length_step (bus : Bus) (act : Act) :
    (bus.step stringify act).responses.length = bus.responses.length + act.isConnect.toNat := by
  cases act with
  | connect env req =>
    show (bus.connect env req).responses.length = bus.responses.length + 1
    rw [Bus.connect]
    split
    · exact List.length_append
    · exact List.length_append
  | close res => rfl
  | publish event => exact length_foldl_writeTo stringify event _ _

/-! ## what a run writes -/

/-- the events from here to the removal of a client -/
def publishedUntil (res : Nat) : List Act → List IslandEvent
  | [] => []
  | .publish event :: acts => event :: publishedUntil res acts
  | .close i :: acts => if i = res then [] else publishedUntil res acts
  | .connect _ _ :: acts => publishedUntil res acts

/-- a response that is not attached is finished -/
theorem Bus.run_detached (acts : List Act) {bus : Bus} {i : Nat} (hlt : i < bus.responses.length)
    (h : ¬ bus.Attached i) :
    (bus.run stringify acts).responses[i]? = bus.responses[i]? ∧
      ¬ (bus.run stringify acts).Attached i := by
  induction acts generalizing bus with
  | nil => exact ⟨rfl, h⟩
  | cons act acts ih =>
    have hstep : (bus.step stringify act).responses[i]? = bus.responses[i]? ∧
        ¬ (bus.step stringify act).Attached i := by
      cases act with
      | connect env req =>
        exact ⟨bus.connect_responses env req hlt, Bus.not_attached_connect env req hlt h⟩
      | close res =>
        exact ⟨rfl, fun hatt => h ((List.eraseP_sublist.map _).subset hatt)⟩
      | publish event => exact ⟨foldl_writeTo_notMem stringify event h, h⟩
    have hlt' : i < (bus.step stringify act).responses.length := by
      rw [bus.length_step stringify act]
      omega
    obtain ⟨hr, hatt⟩ := ih hlt' hstep.2
    exact ⟨hr.trans hstep.1, hatt⟩

/-- an attached client gets its events until it is removed -/
theorem Bus.run_attached (acts : List Act) {bus : Bus} {client : ConnectedClient} {r : Response}
    (hc : client ∈ bus.clients) (hr : bus.responses[client.res]? = some r) :
    (bus.run stringify acts).responses[client.res]? = some ⟨r.status, r.written ++
      framesOf stringify client.allowedChannels (publishedUntil client.res acts)⟩ ∧
    ((bus.run stringify acts).Attached client.res ↔ ∀ act ∈ acts, act ≠ .close client.res) := by
  induction acts generalizing bus r with
  | nil =>
    refine ⟨hr.trans (congrArg some ?_), fun _ act h => absurd h (by simp),
      fun _ => Bus.attached_of_mem hc⟩
    show r = ⟨r.status, r.written ++ []⟩
    rw [List.append_nil]
  | cons act acts ih =>
    have hlt : client.res < bus.responses.length := (List.getElem?_eq_some_iff.mp hr).1
    rw [List.forall_mem_cons]
    cases act with
    | connect env req =>
      obtain ⟨htext, hatt⟩ := ih (Bus.mem_clients_connect env req hc)
        ((bus.connect_responses env req hlt).trans hr)
      exact ⟨htext, hatt.trans ⟨fun h => ⟨by simp, h⟩, fun h => h.2⟩⟩
    | close res =>
      by_cases e : res = client.res
      · -- its own removal: from here on nothing is written
        subst e
        have hnot := bus.not_attached_removeClient client.res
        obtain ⟨htext, hatt⟩ := Bus.run_detached stringify acts
          (show client.res < (bus.removeClient client.res).responses.length from hlt) hnot
        refine ⟨htext.trans (hr.trans (congrArg some ?_)), fun h => absurd h hatt,
          fun h => absurd rfl h.1⟩
        rw [publishedUntil, if_pos rfl]
        show r = ⟨r.status, r.written ++ []⟩
        rw [List.append_nil]
      · have hc' : client ∈ (bus.removeClient res).clients :=
          (List.mem_eraseP_of_neg (by simpa using fun h => e h.symm)).mpr hc
        obtain ⟨htext, hatt⟩ := ih hc' (show (bus.removeClient res).responses[client.res]? = _ from hr)
        rw [publishedUntil, if_neg e]
        exact ⟨htext, hatt.trans ⟨fun h => ⟨by simpa using e, h⟩, fun h => h.2⟩⟩
    | publish event =>
      have hr' := foldl_writeTo_mem stringify event bus.res_nodup hc hr
      obtain ⟨htext, hatt⟩ := ih (show client ∈ (bus.broadcast stringify event).clients from hc) hr'
      refine ⟨htext.trans (congrArg some ?_), hatt.trans ⟨fun h => ⟨by simp, h⟩, fun h => h.2⟩⟩
      show (⟨r.status, r.written ++ framesOf stringify client.allowedChannels [event] ++
        framesOf stringify client.allowedChannels (publishedUntil client.res acts)⟩ : Response) = _
      rw [List.append_assoc, framesOf, framesOf, framesOf, ← List.map_append, ← List.filter_append]
      rfl

def connects (acts : List Act) : Nat := acts.countP Act.isConnect

theorem Bus.length_run (acts : List Act) (bus : Bus) :
    (bus.run stringify acts).responses.length = bus.responses.length + connects acts := by
  induction acts generalizing bus with
  | nil => rfl
  | cons act acts ih =>
    have hstep := bus.length_step stringify act
    have hcount : connects (act :: acts) = connects acts + act.isConnect.toNat := by
      rw [connects, List.countP_cons]
      cases act.isConnect <;> rfl
    show ((bus.step stringify act).run stringify acts).responses.length = _
    rw [ih]
    omega

/-! ## what a listener may depend on -/

/-- all but the events of channels that are not granted -/
def Act.concerns (allowedChannels : List ChannelId) : Act → Bool
  | .publish event => event.channel ∈ allowedChannels
  | _ => true

def visible (allowedChannels : List ChannelId) (acts : List Act) : List Act :=
  acts.filter (Act.concerns allowedChannels)

theorem connects_visible (allowedChannels : List ChannelId) (acts : List Act) :
    connects (visible allowedChannels acts) = connects acts := by
  rw [connects, visible, List.countP_filter]
  apply List.countP_congr
  intro act _
  cases act with
  | connect env req => rfl
  | close res => rfl
  | publish event => simp [Act.isConnect]

theorem framesOf_visible (allowedChannels : List ChannelId) (res : Nat) (acts : List Act) :
    framesOf stringify allowedChannels (publishedUntil res (visible allowedChannels acts)) =
      framesOf stringify allowedChannels (publishedUntil res acts) := by
  induction acts with
  | nil => rfl
  | cons act acts ih =>
    cases act with
    | connect env req => exact ih
    | close i =>
      show framesOf stringify allowedChannels
        (publishedUntil res (.close i :: visible allowedChannels acts)) = _
      rw [publishedUntil, publishedUntil]
      split
      · rfl
      · exact ih
    | publish event =>
      by_cases h : event.channel ∈ allowedChannels
      · rw [visible, List.filter_cons_of_pos (by simpa [Act.concerns] using h), publishedUntil,
          publishedUntil]
        show framesOf stringify allowedChannels ([event] ++ _) =
          framesOf stringify allowedChannels ([event] ++ _)
        rw [framesOf, framesOf, List.filter_append, List.filter_append, List.map_append,
          List.map_append]
        exact congrArg (_ ++ ·) ih
      · rw [visible, List.filter_cons_of_neg (by simpa [Act.concerns] using h), publishedUntil]
        refine ih.trans ?_
        rw [framesOf, framesOf, List.filter_cons_of_neg (by simpa using h)]

/-! ## the law -/

theorem run_connect (before after : List Act) (env : Env) (req : Request) :
    Bus.empty.run stringify (before ++ .connect env req :: after) =
      ((Bus.empty.run stringify before).connect env req).run stringify after :=
  List.foldl_append

theorem length_run_empty (acts : List Act) :
    (Bus.empty.run stringify acts).responses.length = connects acts :=
  (Bus.length_run stringify acts Bus.empty).trans (Nat.zero_add _)

theorem run_connect_some {env : Env} {req : Request} {identity : ServiceIdentity}
    (h : identifyService env req = some identity) (before after : List Act) :
    (Bus.empty.run stringify (before ++ .connect env req :: after)).responses[connects before]? =
      some ⟨200, ": connected\n\n" ::
        framesOf stringify identity.allowedChannels (publishedUntil (connects before) after)⟩ ∧
    ((Bus.empty.run stringify (before ++ .connect env req :: after)).Attached (connects before) ↔
      ∀ act ∈ after, act ≠ .close (connects before)) := by
  have hconn : (Bus.empty.run stringify before).connect env req =
      (Bus.empty.run stringify before).addClient identity.allowedChannels := by
    rw [Bus.connect, h]
  have hc : (⟨connects before, identity.allowedChannels⟩ : ConnectedClient) ∈
      ((Bus.empty.run stringify before).addClient identity.allowedChannels).clients := by
    rw [← length_run_empty stringify before]
    exact List.mem_append_right _ List.mem_cons_self
  have hr : ((Bus.empty.run stringify before).addClient
      identity.allowedChannels).responses[connects before]? = some ⟨200, [": connected\n\n"]⟩ := by
    rw [← length_run_empty stringify before]
    exact List.getElem?_concat_length
  rw [run_connect, hconn]
  exact Bus.run_attached stringify after hc hr

theorem run_connect_none {env : Env} {req : Request} (h : identifyService env req = none)
    (before after : List Act) :
    (Bus.empty.run stringify (before ++ .connect env req :: after)).responses[connects before]? =
      some ⟨401, [unauthenticated]⟩ ∧
    ¬ (Bus.empty.run stringify (before ++ .connect env req :: after)).Attached (connects before) := by
  have hconn : (Bus.empty.run stringify before).connect env req =
      (Bus.empty.run stringify before).answer 401 unauthenticated := by
    rw [Bus.connect, h]
  have hnot : ¬ ((Bus.empty.run stringify before).answer 401 unauthenticated).Attached
      (Bus.empty.run stringify before).responses.length := by
    intro hatt
    exact Nat.lt_irrefl _ ((Bus.empty.run stringify before).res_lt _ hatt)
  rw [run_connect, hconn, ← length_run_empty stringify before]
  obtain ⟨htext, hatt⟩ := Bus.run_detached stringify after
    (by show _ < (_ ++ [_]).length; rw [List.length_append]; exact Nat.lt_succ_self _) hnot
  exact ⟨htext.trans List.getElem?_concat_length, hatt⟩

/-- **The bus delivers exactly what each listener is entitled to.**  Wherever a request for the
stream stands in the history: it is attached exactly if its token is one that is configured for a
service.  Then it has been written the connect comment and the frames of the events that were
published from there to its removal on the channels of that service, in their order, once each;
and every history that differs from this one only in the events of other channels gives it the
same stream. -/
theorem event_bus_delivers (before after : List Act) (env : Env) (req : Request) :
    ((Bus.empty.run stringify (before ++ [.connect env req])).Attached (connects before) ↔
      Recognised env req) ∧
    (∀ identity, identifyService env req = some identity →
      (∃ service ∈ SERVICE_REGISTRY, identity = service.identity ∧
        ∃ configured, env service.envVar = some configured ∧ configured ≠ "" ∧
          extractToken req = some configured) ∧
      (Bus.empty.run stringify (before ++ .connect env req :: after)).responses[connects before]? =
        some ⟨200, ": connected\n\n" ::
          framesOf stringify identity.allowedChannels (publishedUntil (connects before) after)⟩ ∧
      ((Bus.empty.run stringify (before ++ .connect env req :: after)).Attached (connects before) ↔
        ∀ act ∈ after, act ≠ .close (connects before)) ∧
      ∀ acts, visible identity.allowedChannels acts =
          visible identity.allowedChannels (before ++ .connect env req :: after) →
        (Bus.empty.run stringify acts).responses[connects before]? =
          (Bus.empty.run stringify (before ++ .connect env req :: after)).responses[connects before]?) ∧
    (identifyService env req = none →
      (Bus.empty.run stringify (before ++ .connect env req :: after)).responses[connects before]? =
        some ⟨401, [unauthenticated]⟩ ∧
      ¬ (Bus.empty.run stringify (before ++ .connect env req :: after)).Attached (connects before)) := by
  refine ⟨?_, fun identity h => ?_, fun h => run_connect_none stringify h before after⟩
  · rw [← identifyService_isSome]
    cases h : identifyService env req with
    | none => simpa using (run_connect_none stringify h before []).2
    | some identity => simpa using (run_connect_some stringify h before []).2
  · obtain ⟨htext, hatt⟩ := run_connect_some stringify h before after
    refine ⟨identifyService_some h, htext, hatt, ?_⟩
    intro acts hvis
    -- the same request stands in the other history, with what it may see before and after it
    rw [visible, visible, List.filter_append, List.filter_cons_of_pos rfl,
      List.filter_eq_append_iff] at hvis
    obtain ⟨before', rest, rfl, hbefore, hrest⟩ := hvis
    obtain ⟨skipped, after', rfl, hskip, _, hafter⟩ := List.filter_eq_cons_iff.mp hrest
    have hpre : visible identity.allowedChannels (before' ++ skipped) =
        visible identity.allowedChannels before := by
      rw [visible, List.filter_append, hbefore, List.filter_eq_nil_iff.mpr hskip, List.append_nil]
      rfl
    have hconn : connects (before' ++ skipped) = connects before := by
      rw [← connects_visible identity.allowedChannels, hpre, connects_visible]
    have htext' := (run_connect_some stringify h (before' ++ skipped) after').1
    have hframes : framesOf stringify identity.allowedChannels
        (publishedUntil (connects before) after') =
        framesOf stringify identity.allowedChannels (publishedUntil (connects before) after) := by
      rw [← framesOf_visible, visible, hafter]
      exact framesOf_visible stringify _ _ _
    rw [← List.append_assoc, htext, ← hframes, ← hconn]
    exact htext'

end

end Broadcast
