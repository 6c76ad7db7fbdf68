import Purrlington.Broadcast.Routes
import Purrlington.Lib.Machine

/-!
# Broadcast: the service as its clients see it

Every request of the service: the stream, the routes of the domain services, and the two kinds of
announcement.

* `PublicAnnouncementSchema`, `AdminAnnouncementSchema`   the bodies of announcements;
* `requireAdmin`           the passcode of the resort-wide ones;
* `post`                   the answer to a post and the event that it broadcasts;
* `Req`, `serve`           requests one after the other, each a step or two of the bus (`serve_run`);
* `ChannelId.paths`        the routes that publish on a channel;
* `post_spoken`            what a broadcast event tells of its post;
* `Bus.Tells`              every stream has frames of events with some property, and what keeps it.
-/

set_option linter.unusedSectionVars false

namespace Broadcast
open Beach (Post)
open Beach.Frontend (text)
open SM (forall_snoc forall_modify)

/-! ## announcements -/

def PublicAnnouncementSchema : Schema := .object
  [("guestName", .nonempty .string), ("message", .nonempty .string)] true

def AdminAnnouncementSchema : Schema := .object
  [("message", .nonempty .string), ("sender", .optional .string)] true

/-- the event of `public.ts` for a parsed body; both texts are there by the schema -/
def publicEvent (id : String) (body : List (String × Json)) : IslandEvent where
  id := id
  channel := .Broadcast
  event_type := .PUBLIC_ANNOUNCEMENT
  message := (text (body.lookup "message")).getD ""
  sender := (text (body.lookup "guestName")).getD ""
  guest_id := none
  guest_name := none
  data := none

/-- the event of `admin.ts` for a parsed body -/
def adminEvent (id : String) (body : List (String × Json)) : IslandEvent where
  id := id
  channel := .ResortWide
  event_type := .ADMIN_ANNOUNCEMENT
  message := (text (body.lookup "message")).getD ""
  sender := (text (body.lookup "sender")).getD "Admin"
  guest_id := none
  guest_name := none
  data := none

def publicAnnouncement (id : String) (body : Json) : Option IslandEvent :=
  match PublicAnnouncementSchema.parse body with
  | some (.obj body) => some (publicEvent id body)
  | _ => none

def adminAnnouncement (id : String) (body : Json) : Option IslandEvent :=
  match AdminAnnouncementSchema.parse body with
  | some (.obj body) => some (adminEvent id body)
  | _ => none

/-! ## posts -/

/-- what a post brings: its path, the header `X-Admin-Passcode` and the body -/
structure PostRequest where
  path : String
  passcode : Option String
  body : Json

/-- the passcode is configured, and is the one of the request -/
def requireAdmin (env : Env) (req : PostRequest) : Bool :=
  match env "ADMIN_PASSCODE", req.passcode with
  | some configured, some provided =>
    configured ≠ "" && provided ≠ "" && provided = configured
  | _, _ => false

inductive Reply where
  | success
  | invalidPayload
  | unauthenticated
  | notFound
  deriving DecidableEq, Repr

def Reply.status : Reply → Nat
  | .success => 200
  | .invalidPayload => 400
  | .unauthenticated => 401
  | .notFound => 404

/-- a route answers 400 where it has no event -/
def relayed : Option IslandEvent → Reply × Option IslandEvent
  | some event => (.success, some event)
  | none => (.invalidPayload, none)

/-- the paths of `route` -/
def domainPaths : List String := "/cursed" :: relays.map Relay.path

/-- a post, with the fresh id of its event -/
def post (env : Env) (id : String) (req : PostRequest) : Reply × Option IslandEvent :=
  if req.path = "/public" then relayed (publicAnnouncement id req.body)
  else if req.path = "/admin/announcement" then
    if requireAdmin env req then relayed (adminAnnouncement id req.body)
    else (.unauthenticated, none)
  else if req.path ∈ domainPaths then relayed (route id ⟨req.path, req.body⟩)
  else (.notFound, none)

/-! ## the service -/

/-- a request for the stream, the end of one, and a post; `process.env` is read at each -/
inductive Req where
  | events (env : Env) (req : Request)
  | gone (res : Nat)
  | post (env : Env) (id : String) (req : PostRequest)

def Req.event : Req → Option IslandEvent
  | .post env id req => (Broadcast.post env id req).2
  | _ => none

/-- what a request does to the bus -/
def Req.acts : Req → List Act
  | .events env req => [.connect env req]
  | .gone res => [.close res]
  | .post env id req => (Req.event (.post env id req)).toList.map .publish

section
variable (stringify : Json → String)

def serve (bus : Bus) : Req → Bus
  | .events env req => bus.connect env req
  | .gone res => bus.removeClient res
  | .post env id req => match (post env id req).2 with
    | some event => bus.broadcast stringify event
    | none => bus

theorem serve_run (bus : Bus) (req : Req) : serve stringify bus req = bus.run stringify req.acts := by
  cases req with
  | events env req => rfl
  | gone res => rfl
  | post env id req =>
    rw [serve, Req.acts, Req.event]
    cases (post env id req).2 <;> rfl

end

/-! ## who speaks on which channel -/

/-- the routes that publish on a channel -/
def ChannelId.paths : ChannelId → List String
  | .Airport => ["/airport/arrival"]
  | .Hotel => ["/hotel/confirm", "/hotel/cancel"]
  | .Beach => ["/beach/full", "/beach/available"]
  | .Crab => ["/crab/order", "/crab/sold-out"]
  | .Parrot => ["/cursed"]
  | .Broadcast => ["/public"]
  | .ResortWide => ["/admin/announcement"]

def EventType.channel : EventType → ChannelId
  | .AIRPORT_ARRIVAL => .Airport
  | .HOTEL_CONFIRM => .Hotel
  | .HOTEL_CANCEL => .Hotel
  | .BEACH_FULL => .Beach
  | .BEACH_AVAILABLE => .Beach
  | .CRAB_ORDER_PLACED => .Crab
  | .CRAB_SOLD_OUT => .Crab
  | .PARROT_CURSED => .Parrot
  | .PUBLIC_ANNOUNCEMENT => .Broadcast
  | .ADMIN_ANNOUNCEMENT => .ResortWide

/-- the event is one that the post may broadcast: it is of a kind of the channel, the route is one of
the channel, and whoever speaks to the whole resort has the passcode -/
structure Spoken (env : Env) (id : String) (req : PostRequest) (event : IslandEvent) : Prop where
  path : req.path ∈ event.channel.paths
  id : event.id = id
  kind : event.channel = event.event_type.channel
  admin : event.channel = .ResortWide → ∃ configured, env "ADMIN_PASSCODE" = some configured ∧
    configured ≠ "" ∧ req.passcode = some configured

theorem requireAdmin_iff {env : Env} {req : PostRequest} :
    requireAdmin env req = true ↔ ∃ configured, env "ADMIN_PASSCODE" = some configured ∧
      configured ≠ "" ∧ req.passcode = some configured := by
  rw [requireAdmin]
  cases env "ADMIN_PASSCODE" with
  | none => simp
  | some configured =>
    cases req.passcode with
    | none => simp
    | some provided =>
      simp only [Bool.and_eq_true, decide_eq_true_eq, Option.some.injEq]
      constructor
      · rintro ⟨⟨hne, _⟩, rfl⟩
        exact ⟨provided, rfl, hne, rfl⟩
      · rintro ⟨_, rfl, hne, rfl⟩
        exact ⟨⟨hne, hne⟩, rfl⟩

theorem relayed_some {event? : Option IslandEvent} {event : IslandEvent}
    (h : (relayed event?).2 = some event) : event? = some event := by
  cases event? with
  | none => exact absurd h.symm (Option.some_ne_none event)
  | some e => exact h

theorem Relay.handle_some {r : Relay} {id : String} {body : Json} {event : IslandEvent}
    (h : r.handle id body = some event) : event.id = id ∧ event.channel = r.channel ∧
      event.event_type = r.event_type := by
  unfold Relay.handle at h
  split at h
  · obtain rfl := Option.some.inj h
    exact ⟨rfl, rfl, rfl⟩
  · exact absurd h.symm (Option.some_ne_none event)

theorem cursed_some {id : String} {body : Json} {event : IslandEvent}
    (h : cursed id body = some event) : event.id = id ∧ event.channel = .Parrot ∧
      event.event_type = .PARROT_CURSED := by
  unfold cursed at h
  split at h
  · obtain rfl := Option.some.inj h
    exact ⟨rfl, rfl, rfl⟩
  · exact absurd h.symm (Option.some_ne_none event)

theorem relays_paths : ∀ r ∈ relays, r.path ∈ r.channel.paths ∧ r.channel ≠ .ResortWide ∧
    r.channel = r.event_type.channel := by decide

/-- **What an event tells of its post.** -/
theorem post_spoken {env : Env} {id : String} {req : PostRequest} {event : IslandEvent}
    (h : (post env id req).2 = some event) : Spoken env id req event := by
  unfold post at h
  split at h
  · -- a public announcement
    rename_i hpath
    have hsome := relayed_some h
    unfold publicAnnouncement at hsome
    split at hsome
    · obtain rfl := Option.some.inj hsome
      exact ⟨hpath ▸ List.mem_singleton.mpr rfl, rfl, rfl,
        fun e => absurd e (by simp [publicEvent])⟩
    · exact absurd hsome.symm (Option.some_ne_none event)
  · split at h
    · rename_i hpath
      split at h
      · -- an admin announcement
        rename_i hadmin
        have hsome := relayed_some h
        unfold adminAnnouncement at hsome
        split at hsome
        · obtain rfl := Option.some.inj hsome
          exact ⟨hpath ▸ List.mem_singleton.mpr rfl, rfl, rfl,
            fun _ => requireAdmin_iff.mp hadmin⟩
        · exact absurd hsome.symm (Option.some_ne_none event)
      · exact absurd h.symm (Option.some_ne_none event)
    · split at h
      · -- a route of a domain service
        have hroute := relayed_some h
        unfold route at hroute
        split at hroute
        · rename_i hpath
          obtain ⟨hid, hchannel, htype⟩ := cursed_some hroute
          refine ⟨?_, hid, by rw [hchannel, htype]; rfl, fun e => ?_⟩
          · rw [hchannel]
            exact List.mem_singleton.mpr hpath
          · rw [hchannel] at e
            exact absurd e (by decide)
        · split at hroute
          · rename_i r hfind
            obtain ⟨hid, hchannel, htype⟩ := r.handle_some hroute
            obtain ⟨hpaths, hwide, hkind⟩ := relays_paths r (List.mem_of_find?_eq_some hfind)
            have hpath : r.path = req.path := by simpa using List.find?_some hfind
            refine ⟨?_, hid, ?_, fun e => ?_⟩
            · rw [hchannel, ← hpath]
              exact hpaths
            · rw [hchannel, htype]
              exact hkind
            · rw [hchannel] at e
              exact absurd e hwide
          · exact absurd hroute.symm (Option.some_ne_none event)
      · exact absurd h.symm (Option.some_ne_none event)

/-! ## what the streams say -/

/-- a stream is frames of events that satisfy `P` -/
def Response.Tells (stringify : Json → String) (P : IslandEvent → Prop) (res : Response) : Prop :=
  res.status = 200 → ∃ events : List IslandEvent,
    res.written = ": connected\n\n" :: events.map (frame stringify) ∧ ∀ event ∈ events, P event

/-- all streams of the bus are -/
def Bus.Tells (stringify : Json → String) (P : IslandEvent → Prop) (bus : Bus) : Prop :=
  ∀ (i : Nat) (res : Response), bus.responses[i]? = some res → res.Tells stringify P

section
variable {stringify : Json → String} {P Q : IslandEvent → Prop} {bus : Bus}

theorem tells_empty : Bus.empty.Tells stringify P := fun i res h => absurd h (by simp [Bus.empty])

theorem Bus.Tells.mono (h : bus.Tells stringify P) (hle : ∀ event, P event → Q event) :
    bus.Tells stringify Q := by
  intro i res hres hst
  obtain ⟨events, hw, hp⟩ := h i res hres hst
  exact ⟨events, hw, fun event he => hle event (hp event he)⟩

theorem Bus.Tells.connect (h : bus.Tells stringify P) (env : Env) (req : Request) :
    (bus.connect env req).Tells stringify P := by
  rw [Bus.connect]
  split
  · exact forall_snoc h fun hst => absurd hst (show (401 : Nat) ≠ 200 by decide)
  · exact forall_snoc h fun _ => ⟨[], rfl, fun event he => absurd he (by simp)⟩

theorem Bus.Tells.broadcast (h : bus.Tells stringify P) {event : IslandEvent} (hp : P event) :
    (bus.broadcast stringify event).Tells stringify P := by
  have write : ∀ res : Response, res.Tells stringify P →
      (res.write (frame stringify event)).Tells stringify P := by
    intro res hres hst
    obtain ⟨events, hw, hall⟩ := hres hst
    refine ⟨events ++ [event], ?_, ?_⟩
    · rw [Response.write, hw, List.map_append]
      rfl
    · exact List.forall_mem_append.mpr ⟨hall, List.forall_mem_singleton.mpr hp⟩
  -- one client after the other
  have each : ∀ (clients : List ConnectedClient) (responses : List Response),
      (∀ (i : Nat) (res : Response), responses[i]? = some res → res.Tells stringify P) →
      ∀ (i : Nat) (res : Response), (clients.foldl (writeTo stringify event) responses)[i]? = some res →
        res.Tells stringify P := by
    intro clients
    induction clients with
    | nil => exact fun responses hr => hr
    | cons client clients ih =>
      intro responses hr
      refine ih _ ?_
      rw [writeTo]
      split
      · exact forall_modify hr fun res hres => write res (hr _ res hres)
      · exact hr
  exact each bus.clients bus.responses h

theorem Bus.Tells.step (h : bus.Tells stringify P) {act : Act}
    (hp : ∀ event, act = .publish event → P event) : (bus.step stringify act).Tells stringify P := by
  cases act with
  | connect env req => exact h.connect env req
  | close res => exact h
  | publish event => exact h.broadcast (hp event rfl)

end
end Broadcast
