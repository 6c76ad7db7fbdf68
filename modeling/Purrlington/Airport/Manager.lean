import Purrlington.Airport.Gate
import Purrlington.Lib.Dict
import Purrlington.Lib.Pool

/-!
# Airport: the gate manager as a system of calls and workers

Guests and gates are objects, named by their place in `guests` and `heap`; the arrival id of a
guest is the place of its row (and of its record).  A critical section, a transaction, a
`publish_event` and every reading of a shared variable outside a lock is a step of its own.

* `Worker`, `World.work`     the thread of a gate, `Gate._run`;
* `Call`, `Call.step`        `assign_and_enqueue`, `open_gate`, `close_gate`;
* `World.completions`        a ghost: the arrivals whose row was set to processed, in order;
* `airport`                  calls, workers and the clock together.
-/

set_option linter.unusedSectionVars false

namespace Airport
open SM

/-- `lower` is Python's `str.lower` -/
structure Config where
  lower : String → String
  euGates : Nat
  allGates : Nat
  processingTimeEU : Int
  processingTimeALL : Int

/-- where the thread of a gate stands, with its local bundle and newly held guests -/
inductive Worker where
  | head
  | ready
  | holding (bundle : Option (List Nat)) (held : List Nat)
  | marking (bundle : List Nat)
  | processing (bundle : List Nat)
  | recording (bundle : List Nat)
  | publishing (left : List Nat)
  | stopped
  deriving DecidableEq, Repr

structure Gate where
  gate_id : String
  gate_type : GateType
  processing_time : Int
  queue : List Nat := []
  currently_processing : Option Nat := none
  active : Bool := true
  worker : Worker := .head
  deriving DecidableEq, Repr

structure World where
  rows : List Arrival
  guests : List Arrival
  heap : List Gate
  gates : Dict String Nat
  completions : List Nat
  events : List Nat
  now : Int

/-- update the arrivals with these ids -/
def updateAt (ids : List Nat) (f : Nat → Arrival → Arrival) (l : List Arrival) : List Arrival :=
  l.mapIdx fun i a => if i ∈ ids then f i a else a

theorem getElem?_updateAt (ids : List Nat) (f : Nat → Arrival → Arrival) (l : List Arrival)
    (i : Nat) : (updateAt ids f l)[i]? = l[i]?.map fun a => if i ∈ ids then f i a else a :=
  List.getElem?_mapIdx

def setStatus (s : Status) (_ : Nat) (a : Arrival) : Arrival := { a with status := s }

namespace World

def minor (w : World) (x : Nat) : Bool :=
  match w.guests[x]? with
  | some a => isMinor a.guest
  | none => false

def surname (cfg : Config) (w : World) (x : Nat) : String :=
  match w.guests[x]? with
  | some a => cfg.lower a.guest.surname
  | none => ""

def isHeld (w : World) (x : Nat) : Bool :=
  match w.guests[x]? with
  | some a => a.status = .held
  | none => false

def rank (w : World) (x : Nat) : Nat :=
  match w.guests[x]? with
  | some a => effectiveRank a.guest
  | none => 2

def reads (cfg : Config) (w : World) : Reads Nat := ⟨w.minor, w.surname cfg, w.isHeld⟩

def modifyGate (w : World) (g : Nat) (f : Gate → Gate) : World :=
  { w with heap := w.heap.modify g f }

/-! ## the worker of a gate -/

/-- after the held marks: run the bundle, or sleep and look again -/
def afterHeld : Option (List Nat) → Worker
  | none => .head
  | some bundle => .marking bundle

/-- the locked section of `_run`: pick, mark the bundle, set `currently_processing` -/
def pick (cfg : Config) (w : World) (g : Nat) (gate : Gate) : World :=
  let p := pickNext (w.reads cfg) gate.queue
  let worker := if p.held = [] then afterHeld p.bundle else .holding p.bundle p.held
  { w with
    guests := updateAt (p.bundle.getD []) (setStatus .processing)
      (updateAt p.held (setStatus .held) w.guests)
    heap := w.heap.modify g fun gate => { gate with
      queue := p.queue
      currently_processing := match p.bundle with
        | some bundle => bundle.head?
        | none => gate.currently_processing
      worker := worker } }

/-- the record of a guest that has just been processed -/
def finishGuest (now : Int) (_ : Nat) (a : Arrival) : Arrival :=
  { a with status := .processed, processed_at := some now,
           wait_time_seconds := some (now - a.queued_at) }

/-- the row of a processed guest, from its record -/
def finishRow (guests : List Arrival) (x : Nat) (a : Arrival) : Arrival :=
  { a with status := .processed
           processed_at := guests[x]?.bind Arrival.processed_at
           wait_time_seconds := guests[x]?.bind Arrival.wait_time_seconds }

def work (cfg : Config) (w : World) (g : Nat) : Option World :=
  w.heap[g]?.bind fun gate =>
    match gate.worker with
    | .head =>
      some (w.modifyGate g fun gate =>
        { gate with worker := if gate.active then .ready else .stopped })
    | .ready => some (w.pick cfg g gate)
    | .holding bundle held =>
      some { w with
        rows := updateAt held (setStatus .held) w.rows
        heap := w.heap.modify g fun gate => { gate with worker := afterHeld bundle } }
    | .marking bundle =>
      some { w with
        rows := updateAt bundle (setStatus .processing) w.rows
        heap := w.heap.modify g fun gate => { gate with worker := .processing bundle } }
    | .processing bundle =>
      some { w with
        guests := updateAt bundle (finishGuest w.now) w.guests
        heap := w.heap.modify g fun gate => { gate with worker := .recording bundle } }
    | .recording bundle =>
      some { w with
        rows := updateAt bundle (finishRow w.guests) w.rows
        completions := w.completions ++ bundle
        heap := w.heap.modify g fun gate => { gate with worker := .publishing bundle } }
    | .publishing (x :: left) =>
      some { w with
        events := w.events ++ [x]
        heap := w.heap.modify g fun gate => { gate with worker := .publishing left } }
    | .publishing [] =>
      some (w.modifyGate g fun gate =>
        { gate with currently_processing := none, worker := .head })
    | .stopped => none

/-! ## the manager -/

def queueLength (w : World) (g : Nat) : Nat :=
  match w.heap[g]? with
  | some gate => gate.queue.length
  | none => 0

def hasType (w : World) (type : GateType) (g : Nat) : Bool :=
  match w.heap[g]? with
  | some gate => gate.gate_type = type
  | none => false

end World

/-- Python's `min` with a key: the first of the least -/
def argmin (key : Nat → Nat) (first : Nat) : List Nat → Nat
  | [] => first
  | g :: rest => argmin key (if key g < key first then g else first) rest

namespace World

/-- `_shortest_queue_gate`; the minimum of no candidates raises -/
def shortestQueueGate (w : World) (type : GateType) : Option Nat :=
  match w.gates.values.filter (w.hasType type) with
  | [] => none
  | first :: rest => some (argmin w.queueLength first rest)

/-- the gate that `assign_and_enqueue` chooses -/
def chooseGate (w : World) (guest : Guest) : Option Nat :=
  match guest.passport_type with
  | .EU => (w.shortestQueueGate .EU).bind fun eu => (w.shortestQueueGate .ALL).map fun all =>
      if w.queueLength all < w.queueLength eu then all else eu
  | .nonEU => w.shortestQueueGate .ALL

/-- the row is inserted, and the guest's record gets its id -/
def insertRow (w : World) (guest : Guest) (queued_at : Int) (gate_id : String) : World :=
  let a : Arrival := { guest, queued_at, gate := gate_id }
  { w with rows := w.rows ++ [a], guests := w.guests ++ [a] }

/-- `gate.enqueue(guest)` under the gate's lock -/
def join (w : World) (g x : Nat) : World :=
  w.modifyGate g fun gate => { gate with queue := (enqueue w.rank gate.queue x).1 }

/-- a new gate takes its id in the dictionary, and its thread starts -/
def register (cfg : Config) (w : World) (gate_id : String) (type : GateType) : World :=
  { w with
    heap := w.heap ++ [{
      gate_id, gate_type := type
      processing_time := match type with
        | .EU => cfg.processingTimeEU
        | .ALL => cfg.processingTimeALL }]
    gates := w.gates.set gate_id w.heap.length }

def deactivate (w : World) (g : Nat) : World :=
  w.modifyGate g fun gate => { gate with active := false }

/-- the locked section of `close_gate`: the queue is emptied and whoever is processed is requeued -/
def displace (w : World) (g : Nat) (gate : Gate) : World :=
  { w with
    guests := updateAt gate.currently_processing.toList (setStatus .queued) w.guests
    heap := w.heap.modify g fun gate => { gate with queue := [], currently_processing := none } }

/-- a displaced guest's record names its new gate -/
def retarget (w : World) (x : Nat) (gate_id : String) : World :=
  { w with guests := updateAt [x] (fun _ a => { a with gate := gate_id }) w.guests }

/-- a displaced guest's row does too, and is queued again -/
def recordRow (w : World) (x : Nat) (gate_id : String) : World :=
  { w with rows := updateAt [x] (fun _ a => { a with gate := gate_id, status := .queued }) w.rows }

def remove (w : World) (gate_id : String) : World := { w with gates := w.gates.del gate_id }

/-- the other gates of the type, by `close_gate` -/
def sameType (w : World) (gate_id : String) (type : GateType) : List Nat :=
  (w.gates.items.filter fun p => w.hasType type p.2 && p.1 != gate_id).map Prod.snd

end World

/-! ## calls -/

structure Accepted where
  guest_id : String
  gate : String
  position : Nat
  queue_size : Nat
  queued_at : Int
  estimated_wait_seconds : Int
  deriving DecidableEq, Repr

/-- the locals of `close_gate`: the gate, the other gates of its type (there is one), and how many
guests were displaced -/
structure Closing where
  gate_id : String
  gate : Nat
  first : Nat
  others : List Nat
  displaced : Nat := 0
  deriving DecidableEq, Repr

inductive Call where
  -- assign_and_enqueue
  | choose (guest : Guest)
  | insert (guest : Guest) (gate : Nat) (queued_at : Int)
  | enqueue (gate x : Nat)
  | accepted (reply : Accepted)
  -- open_gate
  | check (gate_id gate_type : String)
  | register (gate_id : String) (type : GateType)
  | opened
  -- close_gate
  | lookup (gate_id : String)
  | deactivate (k : Closing)
  | displace (k : Closing)
  | target (k : Closing) (left : List Nat)
  | requeue (k : Closing) (dest x : Nat) (left : List Nat)
  | record (k : Closing) (dest x : Nat) (left : List Nat)
  | delete (k : Closing)
  | closed (displaced : Nat)
  | failed (error : String)
  deriving DecidableEq, Repr

inductive Api where
  | assign (guest : Guest)
  | open (gate_id gate_type : String)
  | close (gate_id : String)

def Api.start : Api → Call
  | .assign guest => .choose guest
  | .open gate_id gate_type => .check gate_id gate_type
  | .close gate_id => .lookup gate_id

/-- the answer of `assign_and_enqueue`, in the gate as it is after the enqueue -/
def acceptedReply (w : World) (gate : Gate) (x : Nat) : Accepted :=
  let (queue, position) := enqueue w.rank gate.queue x
  let ahead := if gate.currently_processing.isSome then position else position - 1
  { guest_id := (w.guests[x]?.map fun a => a.guest.guest_id).getD ""
    gate := gate.gate_id
    position := position
    queue_size := queue.length
    queued_at := (w.guests[x]?.map Arrival.queued_at).getD 0
    estimated_wait_seconds := ahead * gate.processing_time }

def gateTypeOf (s : String) : Option GateType :=
  if s = "EU" then some .EU else if s = "ALL" then some .ALL else none

namespace Call

/-- the checks of `open_gate` -/
def checkOpen (w : World) (gate_id gate_type : String) : Call :=
  if (w.gates.get? gate_id).isSome then .failed ("Gate " ++ gate_id ++ " already exists")
  else match gateTypeOf gate_type with
    | none => .failed ("Invalid gate_type: " ++ gate_type)
    | some type =>
      -- the broadcast client is taken from the first gate
      if w.gates.items = [] then .failed "list index out of range" else .register gate_id type

def typeName : GateType → String
  | .EU => "EU"
  | .ALL => "ALL"

/-- the checks of `close_gate` -/
def lookupClose (w : World) (gate_id : String) : Option Call :=
  match w.gates.get? gate_id with
  | none => some (.failed ("Gate " ++ gate_id ++ " not found"))
  | some g => w.heap[g]?.map fun gate =>
    match w.sameType gate_id gate.gate_type with
    | [] => .failed ("Cannot close the last " ++ typeName gate.gate_type ++ " gate")
    | first :: others => .deactivate { gate_id, gate := g, first, others }

def step (cfg : Config) (w : World) : Call → Option (World × Call)
  | .choose guest =>
    match w.chooseGate guest with
    | some g => some (w, .insert guest g w.now)
    | none => some (w, .failed "min() iterable argument is empty")
  | .insert guest g queued_at => w.heap[g]?.map fun gate =>
      (w.insertRow guest queued_at gate.gate_id, .enqueue g w.rows.length)
  | .enqueue g x => w.heap[g]?.map fun gate => (w.join g x, .accepted (acceptedReply w gate x))
  | .check gate_id gate_type => some (w, checkOpen w gate_id gate_type)
  | .register gate_id type => some (w.register cfg gate_id type, .opened)
  | .lookup gate_id => (lookupClose w gate_id).map fun call => (w, call)
  | .deactivate k => some (w.deactivate k.gate, .displace k)
  | .displace k => w.heap[k.gate]?.map fun gate =>
      let displaced := gate.currently_processing.toList ++ gate.queue
      (w.displace k.gate gate, .target { k with displaced := displaced.length } displaced)
  | .target k [] => some (w, .delete k)
  | .target k (x :: left) =>
    let dest := argmin w.queueLength k.first k.others
    w.heap[dest]?.map fun gate => (w.retarget x gate.gate_id, .requeue k dest x left)
  | .requeue k dest x left => w.heap[dest]?.map fun _ => (w.join dest x, .record k dest x left)
  | .record k dest x left => w.heap[dest]?.map fun gate =>
      (w.recordRow x gate.gate_id, .target k left)
  | .delete k =>
    match w.gates.get? k.gate_id with
    | some _ => some (w.remove k.gate_id, .closed k.displaced)
    | none => some (w, .failed k.gate_id)  -- KeyError
  | .accepted _ => none
  | .opened => none
  | .closed _ => none
  | .failed _ => none

end Call

/-- a worker takes a step, or time passes -/
inductive Env where
  | work (g : Nat)
  | tick (d : Nat)
  deriving DecidableEq, Repr

def World.env (cfg : Config) (w : World) : Env → Option World
  | .work g => w.work cfg g
  | .tick d => some { w with now := w.now + d }

def airport (cfg : Config) : Sys World Call Api Env Unit :=
  { start := Api.start
    env := fun w e => w.env cfg e
    step := fun w call _ => call.step cfg w }

abbrev State := Pool World Call

abbrev Acts := List (PoolAct Api Env Unit)

/-- `GateManager.__init__` with an empty database, and `start_all` -/
def World.init (cfg : Config) : World :=
  let empty : World := ⟨[], [], [], .empty, [], [], 0⟩
  let eu := (List.range cfg.euGates).foldl
    (fun w i => w.register cfg ("EU-" ++ toString (i + 1)) .EU) empty
  (List.range cfg.allGates).foldl
    (fun w i => w.register cfg ("ALL-" ++ toString (i + 1)) .ALL) eu

def State.init (cfg : Config) : State := ⟨.init cfg, []⟩

/-- two EU gates and one for all, where surnames are in lower case already -/
def threeGates : Config := ⟨id, 2, 1, 40, 60⟩

end Airport
