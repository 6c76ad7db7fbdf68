import Purrlington.Airport.View

/-!
# Parrot: the tools of the assistant

A tool fetches an endpoint of another service and gives its JSON to the model as text.

* `executeTool`           the text of a tool call, with every error path;
* `toolSchemas`           the tools that are offered without a guest;
* `Services.at`           the services with the airport in a given state;
* `aggregate_only_iff`    the tools offered without a guest show nothing personal of the guests at
                          the gates exactly when there are none;
* `name_shown`            one guest in a queue, and its name in the text.
-/

set_option linter.unusedSectionVars false

namespace Parrot
open SM Airport

/-- what a request to a service meets -/
inductive Answer where
  | reply (status : Nat) (body : Json)
  | unavailable

/-- the endpoints that the tools call; the last two take a guest id -/
structure Services where
  stats : Answer
  queue : Answer
  rooms : Answer
  menu : Answer
  arrivals : String → Answer
  reservation : String → Answer

/-- the exceptions that `execute_tool` catches -/
inductive Failure where
  | status (code : Nat)
  | unavailable

/-- `raise_for_status` and `json` -/
def fetch : Answer → Except Failure Json
  | .reply status body => if 200 ≤ status ∧ status < 300 then .ok body else .error (.status status)
  | .unavailable => .error .unavailable

inductive Tool where
  | getAirportStats
  | getAirportQueueStatus
  | getHotelRooms
  | getCrabMenu
  | getGuestArrivalStatus
  | getGuestReservation
  | getGuestJourneyStatus
  deriving DecidableEq, Repr

def Tool.name : Tool → String
  | .getAirportStats => "get_airport_stats"
  | .getAirportQueueStatus => "get_airport_queue_status"
  | .getHotelRooms => "get_hotel_rooms"
  | .getCrabMenu => "get_crab_menu"
  | .getGuestArrivalStatus => "get_guest_arrival_status"
  | .getGuestReservation => "get_guest_reservation"
  | .getGuestJourneyStatus => "get_guest_journey_status"

def toolSchemas : List Tool := [.getAirportStats, .getAirportQueueStatus, .getHotelRooms, .getCrabMenu]

/-- `GUEST_TOOL_SCHEMAS`, which are `_GUEST_SCOPED_TOOLS` -/
def guestToolSchemas : List Tool :=
  [.getGuestArrivalStatus, .getGuestReservation, .getGuestJourneyStatus]

def dispatch (name : String) : Option Tool :=
  (toolSchemas ++ guestToolSchemas).find? fun tool => tool.name = name

def errorJson (message : String) : Json := .obj [("error", .str message)]

/-- `_leg`: a failure is a marker in the result -/
def leg (answer : Answer) : Json :=
  match fetch answer with
  | .ok body => body
  | .error (.status code) =>
    if code = 404 then errorJson "not_found" else errorJson ("status_" ++ toString code)
  | .error .unavailable => errorJson "unavailable"

/-- the function of a tool; only the guest-scoped ones read `guest_id` -/
def Tool.run (services : Services) (guest_id : String) : Tool → Except Failure Json
  | .getAirportStats => fetch services.stats
  | .getAirportQueueStatus => fetch services.queue
  | .getHotelRooms => fetch services.rooms
  | .getCrabMenu => fetch services.menu
  | .getGuestArrivalStatus => fetch (services.arrivals guest_id)
  | .getGuestReservation => fetch (services.reservation guest_id)
  | .getGuestJourneyStatus =>
    .ok (.obj [("guest_id", .str guest_id), ("arrival", leg (services.arrivals guest_id)),
      ("reservation", leg (services.reservation guest_id))])

section
variable (showFloat : Rat → String)

def text (v : Json) : String := String.ofList (Json.dumps showFloat v)

/-- the text of what a tool returned or raised -/
def outcome (name : String) : Except Failure Json → String
  | .ok v => text showFloat v
  | .error (.status code) =>
    if code = 404 then text showFloat (errorJson "Not found")
    else text showFloat (errorJson ("Service returned " ++ toString code))
  | .error .unavailable => text showFloat (errorJson ("Service unavailable for " ++ name))

/-- `execute_tool`; the id of the session replaces the one among the arguments, and nothing else of
them is read -/
def executeTool (services : Services) (name : String) (_arguments : List (String × Json))
    (allowed_guest_id : Option String) : String :=
  match dispatch name with
  | none => text showFloat (errorJson ("Unknown tool: " ++ name))
  | some tool =>
    if tool ∈ guestToolSchemas then
      match allowed_guest_id.filter (· ≠ "") with
      | none => text showFloat (errorJson "No guest is associated with this conversation")
      | some guest_id => outcome showFloat name (tool.run services guest_id)
    else outcome showFloat name (tool.run services "")

/-- `jsonify` sorts the keys -/
def jsonify (v : Json) : Answer := .reply 200 v.sortKeys

/-- the services with the airport in this state -/
def Services.at (services : Services) (w : World) : Services :=
  { services with stats := jsonify (getStats w), queue := jsonify (getAllGatesStatus w) }

/-- the state shows nothing personal: no other state that differs only in the personal fields of the
guests that wait or are being processed is told apart by a tool offered without a guest -/
def AggregateOnly (services : Services) (w : World) : Prop :=
  ∀ w' : World, w.impersonal = w'.impersonal → ∀ tool ∈ toolSchemas, ∀ arguments,
    executeTool showFloat (services.at w) tool.name arguments none =
      executeTool showFloat (services.at w') tool.name arguments none

/-! ## the law, and where it fails -/

theorem size_of_text {v v' : Json} (h : text showFloat v = text showFloat v') :
    Json.size showFloat v = Json.size showFloat v' :=
  congrArg List.length (String.ofList_injective h)

/-- `get_airport_queue_status` forwards the whole body of `/queue` -/
theorem execute_queue (services : Services) (w : World) (arguments : List (String × Json)) :
    executeTool showFloat (services.at w) "get_airport_queue_status" arguments none =
      text showFloat (getAllGatesStatus w).sortKeys := rfl

theorem aggregateOnly_of_empty {services : Services} {w : World}
    (h : ∀ gate ∈ w.present, gate.queue = [] ∧ gate.currently_processing = none) :
    AggregateOnly showFloat services w := by
  intro w' hw tool htool arguments
  have hstats : getStats w = getStats w' := by
    rw [← getStats_impersonal, hw, getStats_impersonal]
  have hgates : w.impersonal.gates = w'.impersonal.gates := congrArg World.gates hw
  have hheap : w.impersonal.heap = w'.impersonal.heap := congrArg World.heap hw
  have hnow : w.impersonal.now = w'.impersonal.now := congrArg World.now hw
  have hqueue : getAllGatesStatus w = getAllGatesStatus w' :=
    getAllGatesStatus_congr hgates hheap hnow fun gate hgate => Gate.places_eq_nil.mpr (h gate hgate)
  rw [Services.at, Services.at, hstats, hqueue]

/-- a guest in the view of a gate, and the same state with a longer name of that guest -/
theorem not_aggregateOnly_of_place {services : Services} {w : World} (hw : w.Sound) {gate : Gate}
    {x i : Nat} (hgate : gate ∈ w.present) (hp : (x, i) ∈ gate.places) :
    ¬ AggregateOnly showFloat services w := by
  intro h
  have hmem := Gate.mem_guests_of_places hp
  have hheap := World.mem_heap_of_present hgate
  have hinvolved : x ∈ w.involved := List.mem_flatMap.mpr ⟨gate, hheap, hmem⟩
  have htext := h (w.renamed x) (renamed_impersonal hinvolved).symm .getAirportQueueStatus
    (by decide) []
  rw [Tool.name, execute_queue, execute_queue] at htext
  have hsize := size_of_text showFloat htext
  rw [Json.size_sortKeys, Json.size_sortKeys] at hsize
  have hlt := size_renamed showFloat (hw.gates gate hheap x hmem) hgate hp
  omega

/-- **Only aggregate data, exactly when nobody is at the gates.**  In every reachable state of the
airport, the tools offered without a guest give the same texts for every change of the ids, names,
surnames and ages of the guests that wait or are being processed if and only if every gate of the
dictionary has an empty queue and processes nobody. -/
theorem aggregate_only_iff (services : Services) (cfg : Config)
    (acts : List (PoolAct Api Airport.Env Unit)) (s : Airport.State)
    (hrun : (airport cfg).machine.Runs free (Airport.State.init cfg) acts s) :
    AggregateOnly showFloat services s.shared ↔
      ∀ gate ∈ s.shared.present, gate.queue = [] ∧ gate.currently_processing = none := by
  refine ⟨fun h gate hgate => ?_, aggregateOnly_of_empty showFloat⟩
  rw [← Gate.places_eq_nil]
  by_contra hne
  obtain ⟨⟨x, i⟩, hp⟩ := List.exists_mem_of_ne_nil _ hne
  exact not_aggregateOnly_of_place showFloat (run_sound hrun) hgate hp h

end

def closedServices : Services :=
  ⟨.unavailable, .unavailable, .unavailable, .unavailable, fun _ => .unavailable, fun _ => .unavailable⟩

def integral (q : Rat) : String := toString q.num ++ ".0"

def rossi (name : String) : Guest := ⟨"guest-7", name, "rossi", 34, .nonEU, .standard, false⟩

/-- one guest is admitted and waits at ALL-1 -/
def admitted (name : String) : List (PoolAct Api Airport.Env Unit) :=
  [.spawn (.assign (rossi name)), .step 0 (), .step 0 (), .step 0 ()]

/-- the guest has cleared control, and nobody else has come -/
theorem aggregate_only_iff_cleared : ∃ s,
    (airport threeGates).machine.run (State.init threeGates)
      (admitted "mia" ++ List.replicate 7 (.env (.work 2))) = some s ∧
    s.shared.statusOf 0 = some .processed ∧ AggregateOnly integral closedServices s.shared :=
  ⟨_, rfl, rfl, (aggregate_only_iff integral closedServices threeGates
    (admitted "mia" ++ List.replicate 7 (.env (.work 2))) _ (Machine.runs_free_iff.mpr rfl)).mpr
    (by decide)⟩

/-- **The queue status names the guests.**  Two reachable states that differ only in the name of the
one guest who waits, and a tool offered without a guest tells them apart. -/
theorem name_shown : ∃ s s',
    (airport threeGates).machine.run (State.init threeGates) (admitted "mia") = some s ∧
    (airport threeGates).machine.run (State.init threeGates) (admitted "noemi") = some s' ∧
    s.shared.impersonal = s'.shared.impersonal ∧
    Tool.getAirportQueueStatus ∈ toolSchemas ∧
    executeTool integral (closedServices.at s.shared) "get_airport_queue_status" [] none ≠
      executeTool integral (closedServices.at s'.shared) "get_airport_queue_status" [] none :=
  ⟨_, _, rfl, rfl, rfl, by decide, fun h => absurd (size_of_text integral h) (by decide +kernel)⟩

end Parrot
