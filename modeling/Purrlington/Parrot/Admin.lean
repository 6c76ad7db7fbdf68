import Purrlington.Parrot.Transcript
import Purrlington.Lib.Counter
import Purrlington.Lib.Json
import Mathlib.Data.List.Induction

/-!
# Parrot: the admin metrics

`admin.py` counts what the conversation store holds.  It reads messages as dictionaries of any shape, so
a message is given here by what its `get` calls return.

* `summarizeConversation`, `buildMetrics`   the counts of a conversation, and of the whole store;
* `Message.dict`          a stored message as such a dictionary;
* `Tally.Of`, `Metrics.Of`   what each counter counts;
* `buildMetrics_addsUpTo`   the metrics are the counts of all conversations one after the other;
* `turns_eq_iff`          the turns are the visible messages if no call group is empty.
-/

set_option linter.unusedSectionVars false

namespace Parrot

open SM

structure FunctionDict where
  name : Option String
  arguments : Option String
  deriving DecidableEq

/-- an entry of `tool_calls` -/
structure CallDict where
  id : Option String
  function : Option FunctionDict
  deriving DecidableEq

/-- a message as `m.get(..)` reads it, absent or null where it is `none` -/
structure MessageDict where
  role : Option String
  content : Json
  censored : Bool
  tool_calls : Option (List CallDict)
  tool_call_id : Option String

/-- what is left of the calls when an absent list counts as empty -/
def MessageDict.calls (m : MessageDict) : List CallDict := m.tool_calls.getD []

/-- `(tc.get("function") or {}).get("name")` -/
def CallDict.name (tc : CallDict) : Option String := tc.function.bind FunctionDict.name

/-! ## one conversation -/

mutual
/-- `_has_error_marker`; the members of an object are those of a dict -/
def hasErrorMarker : Json → Bool
  | .obj members => hasErrorMember members
  | .arr vs => hasErrorElement vs
  | _ => false
def hasErrorMember : List (String × Json) → Bool
  | [] => false
  | (key, v) :: members => key == "error" || hasErrorMarker v || hasErrorMember members
def hasErrorElement : List Json → Bool
  | [] => false
  | v :: vs => hasErrorMarker v || hasErrorElement vs
end

section
variable (loads : String → Option Json)

/-- `_tool_result_is_error`; `loads` is `json.loads`, where `none` is an exception -/
def toolResultIsError : Json → Bool
  | .str content =>
    match loads content with
    | some parsed => hasErrorMarker parsed
    | none => false
  | _ => false

/-- the counters of the loop -/
structure Tally where
  turns : Nat := 0
  censored_count : Nat := 0
  assistant_turns : Nat := 0
  tool_calls_by_name : Dict String Nat := .empty
  tool_calls_total : Nat := 0
  tool_errors : Nat := 0
  fallback_count : Nat := 0

/-- the name of a call, or `"unknown"` -/
def CallDict.label (tc : CallDict) : String :=
  if truthy tc.name then tc.name.getD "" else "unknown"

def Tally.countCall (t : Tally) (tc : CallDict) : Tally :=
  { t with
    tool_calls_by_name := Counter.add t.tool_calls_by_name tc.label 1
    tool_calls_total := t.tool_calls_total + 1 }

/-- `m.get("content") == FALLBACK` -/
def isFallback : Json → Bool
  | .str content => content == FALLBACK
  | _ => false

def Tally.count (t : Tally) (m : MessageDict) : Tally :=
  if m.role = some "user" then
    { t with
      turns := t.turns + 1
      censored_count := if m.censored then t.censored_count + 1 else t.censored_count }
  else if m.role = some "assistant" then
    if m.calls ≠ [] then m.calls.foldl Tally.countCall t
    else
      { t with
        assistant_turns := t.assistant_turns + 1
        fallback_count := if isFallback m.content then t.fallback_count + 1 else t.fallback_count }
  else if m.role = some "tool" then
    { t with
      tool_errors := if toolResultIsError loads m.content then t.tool_errors + 1 else t.tool_errors }
  else t

structure Summary where
  turns : Nat
  censored_count : Nat
  total_messages : Nat
  assistant_turns : Nat
  tool_calls_by_name : Dict String Nat
  tool_calls_total : Nat
  tool_errors : Nat
  fallback_count : Nat
  has_censored : Bool
  has_fallback : Bool
  has_tool_error : Bool

def summarizeConversation (messages : List MessageDict) : Summary :=
  let t := messages.foldl (Tally.count loads) {}
  { turns := t.turns
    censored_count := t.censored_count
    total_messages := messages.length
    assistant_turns := t.assistant_turns
    tool_calls_by_name := t.tool_calls_by_name
    tool_calls_total := t.tool_calls_total
    tool_errors := t.tool_errors
    fallback_count := t.fallback_count
    has_censored := t.censored_count > 0
    has_fallback := t.fallback_count > 0
    has_tool_error := t.tool_errors > 0 }

/-! ## the store -/

structure Metrics where
  total_conversations : Nat
  max_conversations : Nat
  total_messages : Nat := 0
  total_user_turns : Nat := 0
  total_assistant_turns : Nat := 0
  tool_calls_total : Nat := 0
  tool_calls_by_name : Dict String Nat := .empty
  tool_errors_total : Nat := 0
  fallback_total : Nat := 0
  censored_messages_total : Nat := 0
  conversations_with_fallback : Nat := 0
  conversations_with_tool_error : Nat := 0
  conversations_with_censored : Nat := 0

def Metrics.count (x : Metrics) (s : Summary) : Metrics :=
  { x with
    total_messages := x.total_messages + s.total_messages
    total_user_turns := x.total_user_turns + s.turns
    total_assistant_turns := x.total_assistant_turns + s.assistant_turns
    tool_calls_by_name := Counter.merge x.tool_calls_by_name s.tool_calls_by_name
    tool_calls_total := x.tool_calls_total + s.tool_calls_total
    tool_errors_total := x.tool_errors_total + s.tool_errors
    fallback_total := x.fallback_total + s.fallback_count
    censored_messages_total := x.censored_messages_total + s.censored_count
    conversations_with_fallback :=
      if s.has_fallback then x.conversations_with_fallback + 1 else x.conversations_with_fallback
    conversations_with_tool_error :=
      if s.has_tool_error then x.conversations_with_tool_error + 1
      else x.conversations_with_tool_error
    conversations_with_censored :=
      if s.has_censored then x.conversations_with_censored + 1 else x.conversations_with_censored }

end

namespace Message

def callDict (call : ToolCall) : CallDict := ⟨some call.id, some ⟨call.name, some call.arguments⟩⟩

def dict : Message → MessageDict
  | .system content => ⟨some "system", .str content, false, none, none⟩
  | .user content censored => ⟨some "user", .str content, censored, none, none⟩
  | .assistant content tool_calls =>
    ⟨some "assistant", match content with | some s => .str s | none => .null, false,
      tool_calls.map fun calls => calls.map callDict, none⟩
  | .tool tool_call_id content => ⟨some "tool", .str content, false, none, some tool_call_id⟩

end Message

def buildMetrics (loads : String → Option Json) (store : ConversationStore) : Metrics :=
  let snap := store.conversations.values.map fun entry => entry.messages.map Message.dict
  (snap.map (summarizeConversation loads)).foldl Metrics.count
    { total_conversations := snap.length, max_conversations := store.max_conversations }

/-! ## what is counted -/

namespace MessageDict

def isTurn (m : MessageDict) : Bool := m.role = some "user"

def isCensored (m : MessageDict) : Bool := m.isTurn && m.censored

/-- an assistant message that is counted as a turn -/
def isReply (m : MessageDict) : Bool := m.role = some "assistant" && m.calls = []

def isFallbackReply (m : MessageDict) : Bool := m.isReply && isFallback m.content

def isToolError (loads : String → Option Json) (m : MessageDict) : Bool :=
  m.role = some "tool" && toolResultIsError loads m.content

/-- the names that its calls are counted under -/
def labels (m : MessageDict) : List String :=
  if m.role = some "assistant" then m.calls.map CallDict.label else []

end MessageDict

section
variable (loads : String → Option Json)

/-- the counters of these messages -/
structure Tally.Of (t : Tally) (ms : List MessageDict) : Prop where
  turns : t.turns = ms.countP MessageDict.isTurn
  censored_count : t.censored_count = ms.countP MessageDict.isCensored
  assistant_turns : t.assistant_turns = ms.countP MessageDict.isReply
  fallback_count : t.fallback_count = ms.countP MessageDict.isFallbackReply
  tool_errors : t.tool_errors = ms.countP (MessageDict.isToolError loads)
  names : Counter.Counts t.tool_calls_by_name (ms.flatMap MessageDict.labels)
  total : t.tool_calls_total = (ms.flatMap MessageDict.labels).length
  sum : Counter.total t.tool_calls_by_name = t.tool_calls_total

theorem foldl_countCall (t : Tally) (calls : List CallDict) :
    calls.foldl Tally.countCall t =
      { t with
        tool_calls_by_name := Counter.count t.tool_calls_by_name (calls.map CallDict.label)
        tool_calls_total := t.tool_calls_total + (calls.map CallDict.label).length } := by
  induction calls generalizing t with
  | nil => rfl
  | cons tc calls ih =>
    rw [List.foldl_cons, ih, List.map_cons, List.length_cons, Nat.add_comm _ 1, ← Nat.add_assoc]
    rfl

theorem Tally.count_eq (t : Tally) (m : MessageDict) :
    t.count loads m =
      { turns := t.turns + m.isTurn.toNat
        censored_count := t.censored_count + m.isCensored.toNat
        assistant_turns := t.assistant_turns + m.isReply.toNat
        tool_calls_by_name := Counter.count t.tool_calls_by_name m.labels
        tool_calls_total := t.tool_calls_total + m.labels.length
        tool_errors := t.tool_errors + (m.isToolError loads).toNat
        fallback_count := t.fallback_count + m.isFallbackReply.toNat } := by
  unfold Tally.count MessageDict.isFallbackReply MessageDict.isReply MessageDict.isCensored
    MessageDict.isTurn MessageDict.isToolError MessageDict.labels
  by_cases hu : m.role = some "user"
  · cases hc : m.censored <;> simp [hu, Counter.count]
  by_cases ha : m.role = some "assistant"
  · by_cases hcalls : m.calls = []
    · cases hf : isFallback m.content <;> simp [ha, hcalls, Counter.count]
    · rw [if_neg hu, if_pos ha, if_pos hcalls, foldl_countCall]
      simp [ha, hcalls]
  by_cases ht : m.role = some "tool"
  · cases he : toolResultIsError loads m.content <;> simp [ht, Counter.count]
  · simp [hu, ha, ht, Counter.count]

theorem countP_snoc {α : Type*} (p : α → Bool) (l : List α) (a : α) :
    (l ++ [a]).countP p = l.countP p + (p a).toNat := by
  rw [List.countP_append, List.countP_singleton]
  cases p a <;> rfl

variable {loads}

theorem Tally.Of.count {t : Tally} {ms : List MessageDict} (h : t.Of loads ms) (m : MessageDict) :
    (t.count loads m).Of loads (ms ++ [m]) := by
  rw [Tally.count_eq]
  have hlabels : (ms ++ [m]).flatMap MessageDict.labels =
      ms.flatMap MessageDict.labels ++ m.labels := by
    rw [List.flatMap_append, List.flatMap_singleton]
  constructor
  · rw [countP_snoc, h.turns]
  · rw [countP_snoc, h.censored_count]
  · rw [countP_snoc, h.assistant_turns]
  · rw [countP_snoc, h.fallback_count]
  · rw [countP_snoc, h.tool_errors]
  · rw [hlabels]
    exact h.names.count m.labels
  · rw [hlabels, List.length_append, h.total]
  · rw [Counter.total_count, h.sum]

theorem tally_of (loads : String → Option Json) (ms : List MessageDict) :
    (ms.foldl (Tally.count loads) {}).Of loads ms := by
  induction ms using List.reverseRecOn with
  | nil => exact ⟨rfl, rfl, rfl, rfl, rfl, Counter.counts_empty, rfl, rfl⟩
  | append_singleton ms m ih =>
    rw [List.foldl_concat]
    exact ih.count m

variable (loads)

/-- the additive counters of these messages -/
structure Metrics.Of (x : Metrics) (ms : List MessageDict) : Prop where
  total_messages : x.total_messages = ms.length
  total_user_turns : x.total_user_turns = ms.countP MessageDict.isTurn
  total_assistant_turns : x.total_assistant_turns = ms.countP MessageDict.isReply
  tool_calls_total : x.tool_calls_total = (ms.flatMap MessageDict.labels).length
  names : Counter.Counts x.tool_calls_by_name (ms.flatMap MessageDict.labels)
  tool_errors_total : x.tool_errors_total = ms.countP (MessageDict.isToolError loads)
  fallback_total : x.fallback_total = ms.countP MessageDict.isFallbackReply
  censored_messages_total : x.censored_messages_total = ms.countP MessageDict.isCensored

variable {loads}

theorem Metrics.Of.count {x : Metrics} {ms : List MessageDict} (h : x.Of loads ms)
    (ms' : List MessageDict) :
    (x.count (summarizeConversation loads ms')).Of loads (ms ++ ms') := by
  have ht := tally_of loads ms'
  constructor
  · rw [List.length_append, ← h.total_messages]
    rfl
  · rw [List.countP_append, ← h.total_user_turns, ← ht.turns]
    rfl
  · rw [List.countP_append, ← h.total_assistant_turns, ← ht.assistant_turns]
    rfl
  · rw [List.flatMap_append, List.length_append, ← h.tool_calls_total, ← ht.total]
    rfl
  · rw [List.flatMap_append]
    exact h.names.merge ht.names
  · rw [List.countP_append, ← h.tool_errors_total, ← ht.tool_errors]
    rfl
  · rw [List.countP_append, ← h.fallback_total, ← ht.fallback_count]
    rfl
  · rw [List.countP_append, ← h.censored_messages_total, ← ht.censored_count]
    rfl

theorem metrics_of {x : Metrics} {ms : List MessageDict} (h : x.Of loads ms)
    (snap : List (List MessageDict)) :
    ((snap.map (summarizeConversation loads)).foldl Metrics.count x).Of loads
      (ms ++ snap.flatten) := by
  induction snap generalizing x ms with
  | nil =>
    rw [List.flatten_nil, List.append_nil]
    exact h
  | cons conversation snap ih =>
    rw [List.map_cons, List.foldl_cons, List.flatten_cons, ← List.append_assoc]
    exact ih (h.count conversation)

/-- the metrics are those of this conversation in every additive counter -/
structure Metrics.AddsUpTo (x : Metrics) (s : Summary) : Prop where
  total_messages : x.total_messages = s.total_messages
  total_user_turns : x.total_user_turns = s.turns
  total_assistant_turns : x.total_assistant_turns = s.assistant_turns
  tool_calls_total : x.tool_calls_total = s.tool_calls_total
  tool_calls_by_name : ∀ name, x.tool_calls_by_name.get? name = s.tool_calls_by_name.get? name
  tool_errors_total : x.tool_errors_total = s.tool_errors
  fallback_total : x.fallback_total = s.fallback_count
  censored_messages_total : x.censored_messages_total = s.censored_count

theorem Metrics.Of.addsUpTo {x : Metrics} {ms : List MessageDict} (h : x.Of loads ms) :
    x.AddsUpTo (summarizeConversation loads ms) := by
  have ht := tally_of loads ms
  exact ⟨h.total_messages, h.total_user_turns.trans ht.turns.symm,
    h.total_assistant_turns.trans ht.assistant_turns.symm,
    h.tool_calls_total.trans ht.total.symm, h.names.unique ht.names,
    h.tool_errors_total.trans ht.tool_errors.symm,
    h.fallback_total.trans ht.fallback_count.symm,
    h.censored_messages_total.trans ht.censored_count.symm⟩

variable (loads)

/-- all conversations of a store, one after the other -/
def ConversationStore.concatenation (store : ConversationStore) : List MessageDict :=
  (store.conversations.values.map fun entry => entry.messages.map Message.dict).flatten

theorem buildMetrics_addsUpTo (store : ConversationStore) :
    (buildMetrics loads store).AddsUpTo (summarizeConversation loads store.concatenation) := by
  have h0 : ∀ n, ({ total_conversations := n, max_conversations := store.max_conversations }
      : Metrics).Of loads [] :=
    fun _ => ⟨rfl, rfl, rfl, rfl, Counter.counts_empty, rfl, rfl, rfl⟩
  exact (metrics_of (h0 _) _).addsUpTo

/-! ## the visible messages -/

/-- an assistant message that has the key `tool_calls`, but no call -/
def Message.emptyGroup : Message → Bool
  | .assistant _ (some []) => true
  | _ => false

theorem turns_add (ms : List Message) :
    (ms.map Message.dict).countP MessageDict.isTurn
        + (ms.map Message.dict).countP MessageDict.isReply =
      contentCount ms + ms.countP Message.emptyGroup := by
  have hone : ∀ m : Message, m.dict.isTurn.toNat + m.dict.isReply.toNat =
      m.visible.toNat + m.emptyGroup.toNat := by
    intro m
    match m with
    | .system c => rfl
    | .user c b => rfl
    | .assistant c none => rfl
    | .assistant c (some []) => rfl
    | .assistant c (some (call :: rest)) => rfl
    | .tool i c => rfl
  induction ms using List.reverseRecOn with
  | nil => rfl
  | append_singleton ms m ih =>
    have := hone m
    unfold contentCount at ih ⊢
    rw [List.map_append, List.map_singleton, countP_snoc, countP_snoc, countP_snoc, countP_snoc]
    omega

/-- the summary of the conversation of a guest -/
def ConversationStore.summary (store : ConversationStore) (guest_id : String) : Summary :=
  summarizeConversation loads ((store.messages guest_id).map Message.dict)

/-- the turns of the summary are the visible messages if no call group is empty -/
theorem turns_eq_iff (store : ConversationStore) (g : String) :
    (store.summary loads g).turns + (store.summary loads g).assistant_turns =
        (store.getVisible g).length ↔
      ∀ m ∈ store.messages g, m.emptyGroup = false := by
  have ht := tally_of loads ((store.messages g).map Message.dict)
  have hadd := turns_add (store.messages g)
  rw [← ht.turns, ← ht.assistant_turns] at hadd
  have hvisible : (store.getVisible g).length = contentCount (store.messages g) :=
    List.countP_eq_length_filter.symm
  have hnone : (store.messages g).countP Message.emptyGroup = 0 ↔
      ∀ m ∈ store.messages g, m.emptyGroup = false := by
    rw [List.countP_eq_zero]
    simp only [Bool.not_eq_true]
  rw [← hnone, hvisible]
  unfold ConversationStore.summary summarizeConversation
  dsimp only
  omega

end

end Parrot
