import Purrlington.Parrot.History
import Purrlington.Lib.Pool
import Mathlib.Data.List.Sort

/-!
# Parrot: chat and chat_stream

The two chat endpoints as threads over one conversation store.  A step goes from one suspension
point to the next: an `await` (of the model, of a tool), or a `yield` of the event stream.  What is
awaited may raise, and the client may be gone at any suspension point.

* `assemble`            `_assemble`;
* `Completion`, `Delta`   what the model answers, whole or in chunks;
* `mergeFragment`, `toolCalls`   tool calls put together from the chunks of a stream;
* `Pc`, `Thread.step`   where a request stands and what it does next;
* `Thread.Moves`, `moves_of_step`   all that a step can do;
* `step_streaming`      a request stays with its endpoint;
* `service`             the requests, the store, and the cleanup task.
-/

set_option linter.unusedSectionVars false

namespace Parrot
open SM

def MAX_TOOL_ROUNDS : Nat := 5

def FALLBACK : String :=
  "I wasn't able to fully process your request. Please try rephrasing your question."

/-- the prompt and context texts, and `mask_profanity` for the configured stop list -/
structure Settings where
  systemPromptBase : String
  context : String
  maskProfanity : String → String × Bool

structure ChatRequest where
  message : String
  guest_id : Option String
  deriving DecidableEq, Repr

/-- the guest whose history is kept: an empty id counts as none -/
def ChatRequest.session (r : ChatRequest) : Option String := r.guest_id.filter (· ≠ "")

def systemPrompt (cfg : Settings) (r : ChatRequest) : String :=
  cfg.systemPromptBase
    ++ (if cfg.context = "" then "" else "\n## Resort Context\n" ++ cfg.context ++ "\n")
    ++ match r.session with
      | some g => "\nThe current guest's ID is: " ++ g ++ "\n"
      | none => ""

/-- `_assemble`: the messages for the model, and the new ones to persist -/
def assemble (cfg : Settings) (r : ChatRequest) (history : List Message) :
    List Message × List Message :=
  let (filtered, censored) := cfg.maskProfanity r.message
  let userMsg := Message.user filtered censored
  (.system (systemPrompt cfg r) :: (history ++ [userMsg]), [userMsg])

/-! ## the model's answers -/

/-- a whole answer: whether its finish reason is `tool_calls`, and the message -/
structure Completion where
  finishToolCalls : Bool
  content : Option String
  tool_calls : Option (List ToolCall)
  deriving DecidableEq, Repr

structure ToolDelta where
  index : Nat
  id : Option String
  name : Option String
  arguments : Option String
  deriving DecidableEq, Repr

/-- a chunk of a streamed answer -/
structure Delta where
  content : Option String
  tool_calls : List ToolDelta
  deriving DecidableEq, Repr

/-- a tool call that is being put together -/
structure Slot where
  id : Option String := none
  name : Option String := none
  args : String := ""

/-- an absent or empty string is false -/
def truthy (s : Option String) : Bool := s.getD "" != ""

def mergeFragment (fragments : Dict Nat Slot) (tc : ToolDelta) : Dict Nat Slot :=
  let slot := (fragments.get? tc.index).getD {}
  fragments.set tc.index
    { id := if truthy tc.id then tc.id else slot.id
      name := if truthy tc.name then tc.name else slot.name
      args := slot.args ++ tc.arguments.getD "" }

def mergeFragments (fragments : Dict Nat Slot) (tcs : List ToolDelta) : Dict Nat Slot :=
  tcs.foldl mergeFragment fragments

/-- the calls in the order of their index, with an id for each -/
def toolCalls (fragments : Dict Nat Slot) : List ToolCall :=
  (fragments.items.insertionSort fun a b => a.1 ≤ b.1).map fun p =>
    { id := if truthy p.2.id then p.2.id.getD "" else "call_" ++ toString p.1
      name := p.2.name
      arguments := p.2.args }

/-- a joined text, absent when empty -/
def nonEmpty (s : String) : Option String := if s = "" then none else some s

/-! ## requests -/

/-- what is sent on the event stream -/
inductive Event where
  | token (delta : String)
  | toolCall (name : Option String)
  | toolResult (name : Option String)
  | done (reply : String)
  | finished
  | error
  deriving DecidableEq, Repr

inductive Pc where
  | start
  -- chat
  | completion (round : Nat)
  | tools (round : Nat) (call : ToolCall) (rest : List ToolCall)
  -- chat_stream
  | create (round : Nat)
  | chunks (round : Nat) (content : String) (fragments : Dict Nat Slot)
  | token (round : Nat) (content : String) (fragments : Dict Nat Slot) (tcs : List ToolDelta)
  | callStatus (round : Nat) (call : ToolCall) (rest : List ToolCall)
  | runTool (round : Nat) (call : ToolCall) (rest : List ToolCall)
  | resultStatus (round : Nat) (call : ToolCall) (rest : List ToolCall) (content : String)
  | closing (left : List Event)
  | error
  | ended

structure Thread where
  req : ChatRequest
  streaming : Bool
  messages : List Message := []
  new_messages : List Message := []
  streamed : String := ""
  sent : List Event := []
  pc : Pc := .start

/-- what happens at a suspension point -/
inductive Op where
  | go
  | response (r : Completion)
  | opened
  | chunk (d : Delta)
  | exhausted
  | toolResult (content : String)
  | raise
  | cut
  deriving DecidableEq, Repr

structure Shared where
  store : ConversationStore
  now : Int

/-- `store.append` for the session guest -/
def Shared.persist (c : Shared) (t : Thread) : Shared :=
  match t.req.session with
  | some g => { c with store := c.store.append c.now g t.new_messages }
  | none => c

namespace Thread

def say (t : Thread) (m : Message) (pc : Pc) : Thread :=
  { t with messages := t.messages ++ [m], new_messages := t.new_messages ++ [m], pc := pc }

/-- add the last message of the turn, which the model is not shown any more -/
def conclude (t : Thread) (reply : String) (pc : Pc) : Thread :=
  { t with new_messages := t.new_messages ++ [.assistant (some reply) none], pc := pc }

def goto (t : Thread) (pc : Pc) : Thread := { t with pc := pc }

def emit (t : Thread) (e : Event) (pc : Pc) : Thread := { t with sent := t.sent ++ [e], pc := pc }

/-- the turn ends and is persisted -/
def persisted (c : Shared) (t : Thread) : Shared × Thread := (c.persist t, t.goto .ended)

/-- `get_messages` and `_assemble` -/
def begin (cfg : Settings) (c : Shared) (t : Thread) : Shared × Thread :=
  let (history, c) : List Message × Shared := match t.req.session with
    | some g => ((c.store.getMessages c.now g).1,
        { c with store := (c.store.getMessages c.now g).2 })
    | none => ([], c)
  let (messages, new_messages) := assemble cfg t.req history
  (c, { t with messages, new_messages,
               pc := if t.streaming then .create 0 else .completion 0 })

/-! ### chat -/

/-- the reply of chat, stored by its endpoint -/
def reply (c : Shared) (t : Thread) (text : String) : Shared × Thread :=
  persisted c (t.conclude text .ended)

def nextRound (c : Shared) (t : Thread) (round : Nat) : Shared × Thread :=
  if round + 1 < MAX_TOOL_ROUNDS then (c, t.goto (.completion (round + 1))) else t.reply c FALLBACK

def answered (c : Shared) (t : Thread) (round : Nat) (r : Completion) : Shared × Thread :=
  if r.finishToolCalls || r.tool_calls.getD [] != [] then
    match r.tool_calls with
    | none => (c, t.goto .ended)  -- iterating over None raises; the endpoint answers 502
    | some [] => nextRound c (t.say (.assistant r.content (some [])) .ended) round
    | some (call :: rest) =>
      (c, t.say (.assistant r.content (some (call :: rest))) (.tools round call rest))
  else t.reply c (if truthy r.content then r.content.getD "" else FALLBACK)

def toolDone (c : Shared) (t : Thread) (round : Nat) (call : ToolCall) (rest : List ToolCall)
    (content : String) : Shared × Thread :=
  match rest with
  | [] => nextRound c (t.say (.tool call.id content) .ended) round
  | next :: rest => (c, t.say (.tool call.id content) (.tools round next rest))

/-! ### chat_stream -/

def nextStreamRound (t : Thread) (round : Nat) : Thread :=
  if round + 1 < MAX_TOOL_ROUNDS then t.goto (.create (round + 1))
  else (t.conclude FALLBACK .ended).emit (.token FALLBACK) (.closing [.done FALLBACK, .finished])

/-- a chunk of the answer -/
def onChunk (t : Thread) (round : Nat) (content : String) (fragments : Dict Nat Slot) (d : Delta) :
    Thread :=
  if truthy d.content then
    let delta := d.content.getD ""
    { t with streamed := t.streamed ++ delta, sent := t.sent ++ [.token delta],
             pc := .token round (content ++ delta) fragments d.tool_calls }
  else t.goto (.chunks round content (mergeFragments fragments d.tool_calls))

/-- the end of a streamed answer: tools to run, or the reply -/
def onExhausted (t : Thread) (round : Nat) (content : String) (fragments : Dict Nat Slot) : Thread :=
  match toolCalls fragments with
  | [] =>
    let reply := if t.streamed = "" then FALLBACK else t.streamed
    (t.conclude reply .ended).emit (.done reply) (.closing [.finished])
  | call :: rest =>
    (t.say (.assistant (nonEmpty content) (some (call :: rest))) .ended).emit
      (.toolCall call.name) (.callStatus round call rest)

/-- after the `tool_result` event the result joins the turn -/
def onResult (t : Thread) (round : Nat) (call : ToolCall) (rest : List ToolCall)
    (content : String) : Thread :=
  let t := t.say (.tool call.id content) .ended
  match rest with
  | [] => t.nextStreamRound round
  | next :: rest => t.emit (.toolCall next.name) (.callStatus round next rest)

/-- an exception in chat_stream -/
def failed (t : Thread) : Thread := t.emit .error .error

def step (cfg : Settings) (c : Shared) (t : Thread) (op : Op) : Option (Shared × Thread) :=
  match t.pc, op with
  | .start, .go => some (t.begin cfg c)
  | .completion round, .response r => some (t.answered c round r)
  | .completion _, .raise => some (c, t.goto .ended)
  | .completion _, .cut => some (c, t.goto .ended)
  | .tools round call rest, .toolResult content => some (t.toolDone c round call rest content)
  | .tools _ _ _, .raise => some (c, t.goto .ended)
  | .tools _ _ _, .cut => some (c, t.goto .ended)
  | .create round, .opened => some (c, t.goto (.chunks round "" .empty))
  | .create _, .raise => some (c, t.failed)
  | .create _, .cut => some (t.persisted c)
  | .chunks round content fragments, .chunk d => some (c, t.onChunk round content fragments d)
  | .chunks round content fragments, .exhausted => some (c, t.onExhausted round content fragments)
  | .chunks _ _ _, .raise => some (c, t.failed)
  | .chunks _ _ _, .cut => some (t.persisted c)
  | .token round content fragments tcs, .go =>
    some (c, t.goto (.chunks round content (mergeFragments fragments tcs)))
  | .token _ _ _ _, .cut => some (t.persisted c)
  | .callStatus round call rest, .go => some (c, t.goto (.runTool round call rest))
  | .callStatus _ _ _, .cut => some (t.persisted c)
  | .runTool round call rest, .toolResult content =>
    some (c, t.emit (.toolResult call.name) (.resultStatus round call rest content))
  | .runTool _ _ _, .raise => some (c, t.failed)
  | .runTool _ _ _, .cut => some (t.persisted c)
  | .resultStatus round call rest content, .go => some (c, t.onResult round call rest content)
  | .resultStatus _ _ _ _, .cut => some (t.persisted c)
  | .closing (e :: left), .go => some (c, t.emit e (.closing left))
  | .closing [], .go => some (t.persisted c)
  | .closing _, .cut => some (t.persisted c)
  | .error, .go => some (t.persisted c)
  | .error, .cut => some (t.persisted c)
  | _, _ => none

/-! ### the endpoint of a request -/

section
variable (c : Shared) (t : Thread) (round : Nat)

theorem nextRound_streaming : (t.nextRound c round).2.streaming = t.streaming := by
  unfold nextRound
  split <;> rfl

theorem answered_streaming (r : Completion) :
    (t.answered c round r).2.streaming = t.streaming := by
  unfold answered
  split
  · split
    · rfl
    · exact nextRound_streaming c (t.say _ .ended) round
    · rfl
  · rfl

theorem toolDone_streaming (call : ToolCall) (rest : List ToolCall) (content : String) :
    (t.toolDone c round call rest content).2.streaming = t.streaming := by
  cases rest with
  | nil => exact nextRound_streaming c (t.say _ .ended) round
  | cons next rest => rfl

theorem nextStreamRound_streaming : (t.nextStreamRound round).streaming = t.streaming := by
  unfold nextStreamRound
  split <;> rfl

theorem onChunk_streaming (content : String) (fragments : Dict Nat Slot) (d : Delta) :
    (t.onChunk round content fragments d).streaming = t.streaming := by
  unfold onChunk
  split <;> rfl

theorem onExhausted_streaming (content : String) (fragments : Dict Nat Slot) :
    (t.onExhausted round content fragments).streaming = t.streaming := by
  unfold onExhausted
  split <;> rfl

theorem onResult_streaming (call : ToolCall) (rest : List ToolCall) (content : String) :
    (t.onResult round call rest content).streaming = t.streaming := by
  cases rest with
  | nil => exact nextStreamRound_streaming (t.say _ .ended) round
  | cons next rest => rfl

end

end Thread

/-! ### what a step does -/

namespace Pc

/-- an exception is caught here and told to the client -/
def fails : Pc → Bool
  | .create _ => true
  | .chunks _ _ _ => true
  | .runTool _ _ _ => true
  | _ => false

/-- the stream ends here and persists its turn -/
def persists : Pc → Op → Bool
  | .closing left, .go => left.isEmpty
  | .error, .go => true
  | .start, _ => false
  | .completion _, _ => false
  | .tools _ _ _, _ => false
  | .ended, _ => false
  | _, op => op = .cut

/-- a request of chat is given up here -/
def drops : Pc → Op → Bool
  | .completion _, op => op = .raise || op = .cut
  | .tools _ _ _, op => op = .raise || op = .cut
  | _, _ => false

end Pc

namespace Thread

/-- the steps of a request, by where it stands -/
inductive Moves (cfg : Settings) (c : Shared) (t : Thread) : Pc → Op → Shared × Thread → Prop where
  | begin : Moves cfg c t .start .go (t.begin cfg c)
  | answered (round : Nat) (r : Completion) :
      Moves cfg c t (.completion round) (.response r) (t.answered c round r)
  | toolDone (round : Nat) (call : ToolCall) (rest : List ToolCall) (content : String) :
      Moves cfg c t (.tools round call rest) (.toolResult content)
        (t.toolDone c round call rest content)
  | dropped {pc : Pc} {op : Op} : pc.drops op = true → Moves cfg c t pc op (c, t.goto .ended)
  | opened (round : Nat) :
      Moves cfg c t (.create round) .opened (c, t.goto (.chunks round "" .empty))
  | chunk (round : Nat) (content : String) (fragments : Dict Nat Slot) (d : Delta) :
      Moves cfg c t (.chunks round content fragments) (.chunk d)
        (c, t.onChunk round content fragments d)
  | exhausted (round : Nat) (content : String) (fragments : Dict Nat Slot) :
      Moves cfg c t (.chunks round content fragments) .exhausted
        (c, t.onExhausted round content fragments)
  | merged (round : Nat) (content : String) (fragments : Dict Nat Slot) (tcs : List ToolDelta) :
      Moves cfg c t (.token round content fragments tcs) .go
        (c, t.goto (.chunks round content (mergeFragments fragments tcs)))
  | announced (round : Nat) (call : ToolCall) (rest : List ToolCall) :
      Moves cfg c t (.callStatus round call rest) .go (c, t.goto (.runTool round call rest))
  | ran (round : Nat) (call : ToolCall) (rest : List ToolCall) (content : String) :
      Moves cfg c t (.runTool round call rest) (.toolResult content)
        (c, t.emit (.toolResult call.name) (.resultStatus round call rest content))
  | result (round : Nat) (call : ToolCall) (rest : List ToolCall) (content : String) :
      Moves cfg c t (.resultStatus round call rest content) .go
        (c, t.onResult round call rest content)
  | sent (e : Event) (left : List Event) :
      Moves cfg c t (.closing (e :: left)) .go (c, t.emit e (.closing left))
  | failed {pc : Pc} : pc.fails = true → Moves cfg c t pc .raise (c, t.failed)
  | persisted {pc : Pc} {op : Op} : pc.persists op = true → Moves cfg c t pc op (t.persisted c)

section
variable {cfg : Settings} {c : Shared} {t : Thread} {op : Op} {p : Shared × Thread}

theorem moves_of_step (h : t.step cfg c op = some p) : Moves cfg c t t.pc op p := by
  unfold step at h
  split at h
  all_goals first
    | contradiction
    | obtain rfl := Option.some.inj h
  all_goals
    rename_i hpc
    rw [hpc]
  all_goals first
    | exact .dropped rfl
    | exact .failed rfl
    | exact .persisted rfl
    | constructor

theorem step_streaming (h : t.step cfg c op = some p) : p.2.streaming = t.streaming := by
  have hmoves := moves_of_step h
  generalize t.pc = pc at hmoves
  cases hmoves with
  | begin => rfl
  | answered round r => exact answered_streaming c t round r
  | toolDone round call rest content => exact toolDone_streaming c t round call rest content
  | dropped _ => rfl
  | opened round => rfl
  | chunk round content fragments d => exact onChunk_streaming t round content fragments d
  | exhausted round content fragments => exact onExhausted_streaming t round content fragments
  | merged round content fragments tcs => rfl
  | announced round call rest => rfl
  | ran round call rest content => rfl
  | result round call rest content => exact onResult_streaming t round call rest content
  | sent e left => rfl
  | failed _ => rfl
  | persisted _ => rfl

end
end Thread

/-- the clock goes on, and the cleanup task runs -/
inductive Env where
  | tick (d : Nat)
  | cleanup

def Shared.env (c : Shared) : Env → Shared
  | .tick d => { c with now := c.now + d }
  | .cleanup => { c with store := c.store.cleanup c.now }

/-- the parrot service; a request comes with the endpoint it was sent to -/
def service (cfg : Settings) : Sys Shared Thread (ChatRequest × Bool) Env Op :=
  { start := fun r => { req := r.1, streaming := r.2 }
    env := fun c e => some (c.env e)
    step := fun c t op => t.step cfg c op }

abbrev State := Pool Shared Thread

/-- no prompt, no context, no stop list -/
def plainSettings : Settings :=
  { systemPromptBase := "", context := "", maskProfanity := fun m => (m, false) }

def freshService : State := ⟨⟨⟨20, 1800, 500, .empty⟩, 0⟩, []⟩

end Parrot
