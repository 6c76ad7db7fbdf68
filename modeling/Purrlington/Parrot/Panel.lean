import Purrlington.Broadcast.EventBus
import Purrlington.Parrot.Pooled
import Mathlib.Logic.Function.Basic

/-!
# Parrot: the chat panel

`useParrotChat` and `useParrotHistory` of the frontend, over what the query client keeps for them: the
history of every guest, the requests for histories and the chats that are under way.

* `appendMessagesToHistory`, `threadItems`, `sendMessage`, `retryFailedMessage`, `onSuccess`, `onError`
                           as in the hook;
* `Tab`                    the session's guest, the query client and the state of the hook;
* `parseHistory`           the response of /history, as the frontend reads it;
* `parse_getVisible`       which it always can.
-/

set_option linter.unusedSectionVars false

namespace Parrot

/-! ## types -/

inductive ParrotMessageRole where
  | user | assistant
  deriving DecidableEq, Repr

def ParrotMessageRole.text : ParrotMessageRole → String
  | .user => "user"
  | .assistant => "assistant"

structure ChatHistoryMessage where
  content : Option String
  role : ParrotMessageRole
  deriving DecidableEq, Repr

structure ChatHistoryResponse where
  guest_id : String
  messages : List ChatHistoryMessage
  deriving DecidableEq, Repr

structure PendingTurn where
  guestId : String
  message : String
  localId : String
  deriving DecidableEq, Repr

structure FailedTurn extends PendingTurn where
  error : String
  deriving DecidableEq, Repr

/-- a message of /history, as `ChatHistoryMessageSchema` takes it: no other role -/
def parseMessage : Message → Option ChatHistoryMessage
  | .user content _ => some ⟨some content, .user⟩
  | .assistant content _ => some ⟨content, .assistant⟩
  | .system _ => none
  | .tool _ _ => none

def parseHistory (messages : List Message) : Option (List ChatHistoryMessage) :=
  messages.mapM parseMessage

theorem parseHistory_visible {messages : List Message} (h : ∀ m ∈ messages, m.visible = true) :
    parseHistory messages = some (messages.filterMap parseMessage) := by
  induction messages with
  | nil => rfl
  | cons m ms ih =>
    have hm : ∃ shown, parseMessage m = some shown := by
      have hv := h m List.mem_cons_self
      cases m with
      | user c b => exact ⟨_, rfl⟩
      | assistant c tc => exact ⟨_, rfl⟩
      | system c => exact absurd hv Bool.false_ne_true
      | tool i c => exact absurd hv Bool.false_ne_true
    obtain ⟨shown, hm⟩ := hm
    have ih := ih fun x hx => h x (List.mem_cons_of_mem m hx)
    rw [parseHistory] at ih ⊢
    rw [List.mapM_cons, hm, ih, List.filterMap_cons_some hm]
    rfl

/-- the frontend can read every history -/
theorem parse_getVisible (s : ConversationStore) (guest_id : String) :
    parseHistory (s.getVisible guest_id) = some ((s.getVisible guest_id).filterMap parseMessage) :=
  parseHistory_visible fun _ hm => (List.mem_filter.mp hm).2

/-! ## the thread -/

def appendMessagesToHistory (previous : Option ChatHistoryResponse) (pendingTurn : PendingTurn)
    (reply : String) : ChatHistoryResponse where
  guest_id := (previous.map ChatHistoryResponse.guest_id).getD pendingTurn.guestId
  messages := (previous.map ChatHistoryResponse.messages).getD [] ++
    [⟨some pendingTurn.message, .user⟩, ⟨some reply, .assistant⟩]

inductive ParrotThreadItem where
  | message (key : String) (message : ChatHistoryMessage)
  | thinking (key : String)
  | error (key : String) (prompt : String) (message : String)
  deriving DecidableEq, Repr

def getMessageKey (message : ChatHistoryMessage) (index : Nat) : String :=
  message.role.text ++ ":" ++ message.content.getD "null" ++ ":" ++ toString index

/-! ## the tab -/

/-- a request for the history of a guest; `answer` is the response, once it is given -/
structure Fetch where
  guestId : String
  answer : Option (List Message)
  settled : Bool

/-- a chat; `panel` is the mount of the hook that sent it, `request` the instance of the service that
has got it and the thread there -/
structure Mutation where
  turn : PendingTurn
  panel : Nat
  request : Option (Nat × Nat)
  settled : Bool

/-- `data` is what is cached under the key of a guest, `mutation` the chat that the hook observes -/
structure Tab where
  guest : Option String
  data : String → Option ChatHistoryResponse
  fetches : List Fetch
  mutations : List Mutation
  panel : Nat
  mutation : Option Nat
  pendingTurn : Option PendingTurn
  failedTurn : Option FailedTurn

namespace Tab

def init : Tab := ⟨none, fun _ => none, [], [], 0, none, none, none⟩

variable (s : Tab)

def messages : List ChatHistoryMessage :=
  ((s.guest.bind s.data).map ChatHistoryResponse.messages).getD []

/-- the chat that the hook observes, while it is under way -/
def observed : Option Mutation :=
  (s.mutation.bind fun i => s.mutations[i]?).filter fun m => !m.settled

def isPending : Bool := s.observed.isSome

def threadItems : List ParrotThreadItem :=
  s.messages.mapIdx (fun index message => .message (getMessageKey message index) message) ++
    (match s.pendingTurn with
      | some turn => if some turn.guestId = s.guest then
          [.message ("pending:" ++ turn.localId) ⟨some turn.message, .user⟩,
           .thinking ("thinking:" ++ turn.localId)] else []
      | none => []) ++
    match s.failedTurn with
      | some turn => if some turn.guestId = s.guest then
          [.message ("failed:" ++ turn.localId) ⟨some turn.message, .user⟩,
           .error ("error:" ++ turn.localId) turn.message turn.error] else []
      | none => []

/-- `mutation.mutate`: a new chat, which the hook observes -/
def mutate (turn : PendingTurn) : Tab :=
  { s with mutations := s.mutations ++ [⟨turn, s.panel, none, false⟩]
           mutation := some s.mutations.length }

def sendMessage (message localId : String) : Tab :=
  let trimmed := String.ofList (Broadcast.trim message.toList)
  match s.guest with
  | none => s
  | some participantId =>
    if participantId = "" ∨ trimmed = "" ∨ s.isPending then s
    else
      let turn : PendingTurn := ⟨participantId, trimmed, localId⟩
      { s with failedTurn := none, pendingTurn := some turn }.mutate turn

def retryFailedMessage : Tab :=
  match s.guest, s.failedTurn with
  | some participantId, some failedTurn =>
    if participantId = "" ∨ s.isPending then s
    else
      let turn : PendingTurn := ⟨participantId, failedTurn.message, failedTurn.localId⟩
      { s with pendingTurn := some turn, failedTurn := none }.mutate turn
  | _, _ => s

def settle (i : Nat) : Tab :=
  { s with mutations := s.mutations.modify i fun m => { m with settled := true } }

/-- the state of the hook is set by the chats of the present mount only: the setters of an earlier one do
nothing any more -/
def onSuccess (i : Nat) (m : Mutation) (reply : String) : Tab :=
  let s := { s.settle i with
    data := Function.update s.data m.turn.guestId
      (some (appendMessagesToHistory (s.data m.turn.guestId) m.turn reply)) }
  if m.panel = s.panel then { s with pendingTurn := none, failedTurn := none } else s

def onError (i : Nat) (m : Mutation) (error : String) : Tab :=
  let s := s.settle i
  if m.panel = s.panel then
    { s with pendingTurn := none, failedTurn := some { m.turn with error := error } }
  else s

/-- the hook is mounted anew -/
def mount : Tab :=
  { s with panel := s.panel + 1, mutation := none, pendingTurn := none, failedTurn := none }

/-- the query of the present guest is fetched; while it is, it is not fetched again -/
def fetch : Option Tab :=
  s.guest.bind fun guestId =>
    if s.fetches.any fun f => f.guestId = guestId && !f.settled then none
    else some { s with fetches := s.fetches ++ [⟨guestId, none, false⟩] }

/-! ## what is shown -/

/-- the history of the session's guest -/
def historyItems : List ParrotThreadItem :=
  s.messages.mapIdx fun index message => .message (getMessageKey message index) message

/-- the message, and that its answer is awaited -/
def pendingItems (turn : PendingTurn) : List ParrotThreadItem :=
  [.message ("pending:" ++ turn.localId) ⟨some turn.message, .user⟩,
   .thinking ("thinking:" ++ turn.localId)]

theorem threadItems_pending {s : Tab} {turn : PendingTurn} (hp : s.pendingTurn = some turn)
    (hf : s.failedTurn = none) (hg : s.guest = some turn.guestId) :
    s.threadItems = s.historyItems ++ pendingItems turn := by
  unfold threadItems
  rw [hp, hf]
  dsimp only
  rw [if_pos hg.symm, List.append_nil]
  rfl

/-- a message is sent, or nothing happens -/
def Sends (s s' : Tab) : Prop :=
  s' = s ∨ ∃ turn : PendingTurn, turn.guestId ≠ "" ∧ s.observed = none ∧
    s' = { s with failedTurn := none, pendingTurn := some turn }.mutate turn

section
variable (s : Tab)

theorem sends_sendMessage (message localId : String) : Sends s (s.sendMessage message localId) := by
  rw [sendMessage]
  dsimp only
  split
  · exact .inl rfl
  · rename_i participantId _
    split
    · exact .inl rfl
    · rename_i hgo
      obtain ⟨hid, hgo⟩ := not_or.mp hgo
      exact .inr ⟨_, hid, Option.not_isSome_iff_eq_none.mp (not_or.mp hgo).2, rfl⟩

theorem sends_retryFailedMessage : Sends s s.retryFailedMessage := by
  rw [retryFailedMessage]
  split
  · split
    · exact .inl rfl
    · rename_i hgo
      obtain ⟨hid, hgo⟩ := not_or.mp hgo
      exact .inr ⟨_, hid, Option.not_isSome_iff_eq_none.mp hgo, rfl⟩
  · exact .inl rfl

variable (i : Nat) (m : Mutation) (reply error : String)

theorem onSuccess_mutations : (s.onSuccess i m reply).mutations = (s.settle i).mutations := by
  rw [onSuccess]
  dsimp only
  split <;> rfl

theorem onSuccess_data : (s.onSuccess i m reply).data = Function.update s.data m.turn.guestId
    (some (appendMessagesToHistory (s.data m.turn.guestId) m.turn reply)) := by
  rw [onSuccess]
  dsimp only
  split <;> rfl

theorem onSuccess_fetches : (s.onSuccess i m reply).fetches = s.fetches := by
  rw [onSuccess]
  dsimp only
  split <;> rfl

theorem onSuccess_mutation : (s.onSuccess i m reply).mutation = s.mutation := by
  rw [onSuccess]
  dsimp only
  split <;> rfl

theorem onError_mutations : (s.onError i m error).mutations = (s.settle i).mutations := by
  rw [onError]
  dsimp only
  split <;> rfl

theorem onError_data : (s.onError i m error).data = s.data := by
  rw [onError]
  dsimp only
  split <;> rfl

theorem onError_fetches : (s.onError i m error).fetches = s.fetches := by
  rw [onError]
  dsimp only
  split <;> rfl

theorem onError_mutation : (s.onError i m error).mutation = s.mutation := by
  rw [onError]
  dsimp only
  split <;> rfl

end
end Tab
end Parrot
