import Purrlington.Airport.Cleared
import Purrlington.Hotel.Lifecycle
import Purrlington.Hotel.Create
import Purrlington.Hotel.Lookup
import Purrlington.Broadcast.App
import Purrlington.Broadcast.CheckIn
import Purrlington.Broadcast.Stream
import Purrlington.Beach.Admission

/-!
# Resort: the services together

The airport, the hotel, the broadcast service and the beach, with the calls between them.

* `Outside.asked`      the guest whom the airport is asked about;
* `Word`, `Answer`     what the airport tells the hotel of a guest;
* `State`              the states of the services, the posts of the hotel that are on their way, and how
                       far the listener has read;
* `machine`            any interleaving of their steps.
-/

set_option linter.unusedSectionVars false

namespace Resort
open SM

/-- what is not in the code of the services: the configuration of the airport, how Flask finds the route
and the guest id of a path (a path may lead to another route, and may be redirected), and the texts of
numbers and JSON values -/
structure Outside where
  cfg : Airport.Config
  route : Url.Bytes → Option String
  number : Rat → String
  stringify : Json → String
  parseToJsonElement : List Char → Option Json
  /-- `/arrivals/<guest_id>` takes any id without a slash -/
  route_arrivals : ∀ id : String, id ≠ "" → (47 : UInt8) ∉ Url.utf8 id →
    route (Url.utf8 ("/arrivals/" ++ id)) = some id

/-- the guest whom the airport is asked about when the hotel asks about this one -/
def Outside.asked (x : Outside) (guest_id : String) : Option String :=
  x.route (Percent.readEscapes (Hotel.requestPath guest_id))

theorem asked_plain (x : Outside) {guest_id : String} (h : Hotel.Plain guest_id) :
    x.asked guest_id = some guest_id := by
  rw [Outside.asked, Hotel.readEscapes_requestPath h]
  exact x.route_arrivals guest_id h.text.1 fun hm => (Hotel.plainByte_ne (h.mem hm)).2.1 rfl

/-- no answer of the airport that names a status (a guest it does not know is a 404), an answer with a
row, or one of another route (a guest id may lead to any path) -/
inductive Word where
  | silent
  | row (x : Nat)
  | other (members : List (String × Json))

def Word.isSilent : Word → Bool
  | .silent => true
  | _ => false

/-- an answer on its way to the create that waits for it -/
structure Answer where
  thread : Nat
  guest_id : String
  word : Word
  reply : Hotel.AirportReply

/-- the stream that the listener reads, and how many lines of it have been handled -/
structure Listener where
  res : Nat
  line : Nat

/-- `answers` are on their way from the airport to the hotel, and `posts` from the hotel to the
broadcast service; `silent` is a ghost, the guests whom the hotel has let pass without a word of the
airport -/
structure State where
  airport : Airport.State
  answers : List Answer
  hotel : Hotel.State
  posts : List Hotel.HotelBroadcastEvent
  bus : Broadcast.Bus
  listener : Option Listener
  beach : Beach.State
  silent : List String

def State.init (x : Outside) (hotel : Hotel.Db) (beach : Beach.Db) : State :=
  ⟨.init x.cfg, [], .init hotel, [], .empty, none, .init beach, []⟩

inductive Act where
  | airport (act : PoolAct Airport.Api Airport.Env Unit)
  | hotel (act : Hotel.Act)
  | answer (i : Nat) (word : Word)
  | hear (k : Nat)
  | deliver (k : Nat) (id : String)
  | lose (k : Nat)
  | request (req : Broadcast.Req)
  | connect (env : Broadcast.Env) (req : Broadcast.Request)
  | read
  | hangUp
  | beach (act : Beach.Act)

/-- the guest that a create of the hotel asks the airport about -/
def asking (hotel : Hotel.State) (i : Nat) : Option String :=
  match hotel.threads[i]? with
  | some ⟨.create dto, .airport⟩ => some dto.guest_id
  | _ => none

/-- the reply to the hotel; the row has to be one that `get_guest` may return, and no other route has
that status -/
def replyOf (w : Airport.World) (guest_id : Option String) : Word → Option Hotel.AirportReply
  | .silent => some .failed
  | .row k => guest_id.bind fun guest_id => w.rows[k]?.bind fun a =>
    if w.Latest guest_id a then some (.response true (some (Airport.arrivalResponse w a))) else none
  | .other members =>
    if (Json.obj members).text "status" = some "processed" then none
    else some (.response true (some (.obj members)))

/-- the post of a hotel event, as the broadcast service gets it -/
def postOf (id : String) (event : Hotel.HotelBroadcastEvent) : Broadcast.Req :=
  .post (fun _ => none) id ⟨(Hotel.publishHotelEvent event).path, none,
    (Hotel.publishHotelEvent event).body⟩

/-- an exception ends the listener's stream -/
def State.cutOff (s : State) (l : Listener) : State :=
  { s with listener := none, bus := s.bus.removeClient l.res }

/-- the listener handles a line, with the parser and with the repository of the visitors -/
def State.handle (x : Outside) (s : State) (l : Listener) (line : List Char) : Option State :=
  match Kotlin.handleLine x.number x.parseToJsonElement line with
  | .ok (some id) => match Beach.Sql.markCheckedIn s.beach.db id with
    | .ok _ => (Beach.machine s.beach (.checkIn id)).map fun beach =>
        { s with beach := beach, listener := some { l with line := l.line + 1 } }
    | .error _ => some (s.cutOff l)
  | .ok none => some { s with listener := some { l with line := l.line + 1 } }
  | .error _ => some (s.cutOff l)

def State.nextLine (s : State) (l : Listener) : Option (List Char) :=
  s.bus.responses[l.res]?.bind fun res => (Framing.lines res.text)[l.line]?

def machine (x : Outside) : Machine State Act := fun s act =>
  match act with
  | .airport act => ((Airport.airport x.cfg).machine s.airport act).map fun airport =>
      { s with airport := airport }
  -- the answers of the airport come from the airport
  | .hotel (.airport _ _) => none
  | .hotel act => (Hotel.machine s.hotel act).map fun hotel =>
      { s with hotel := hotel, posts := s.posts ++ hotel.published.drop s.hotel.published.length }
  | .answer i word => (asking s.hotel i).bind fun guest_id =>
      (replyOf s.airport.shared (x.asked guest_id) word).map fun reply =>
        { s with answers := s.answers ++ [⟨i, guest_id, word, reply⟩] }
  | .hear k => s.answers[k]?.bind fun a =>
      if asking s.hotel a.thread = some a.guest_id then
        (Hotel.machine s.hotel
            (.airport a.thread (Hotel.hasGuestClearedProcessing a.reply))).map fun hotel =>
          { s with answers := s.answers.eraseIdx k
                   hotel := hotel
                   silent := if a.word.isSilent then a.guest_id :: s.silent else s.silent }
      else none
  | .deliver k id => s.posts[k]?.map fun event =>
      { s with posts := s.posts.eraseIdx k,
               bus := Broadcast.serve x.stringify s.bus (postOf id event) }
  | .lose k => some { s with posts := s.posts.eraseIdx k }
  | .request req => some { s with bus := Broadcast.serve x.stringify s.bus req }
  | .connect env req =>
    match s.listener with
    | some _ => none
    | none => some { s with
        bus := s.bus.connect env req
        listener := (Broadcast.identifyService env req).map fun _ => ⟨s.bus.responses.length, 0⟩ }
  | .read => s.listener.bind fun l => (s.nextLine l).bind fun line => s.handle x l line
  | .hangUp => s.listener.map s.cutOff
  -- nobody but the listener checks visitors in
  | .beach (.checkIn _) => none
  | .beach act => (Beach.machine s.beach act).map fun beach => { s with beach := beach }

end Resort
