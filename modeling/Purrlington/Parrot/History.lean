import Purrlington.Lib.Dict
import Mathlib.Data.List.Sort
import Mathlib.Algebra.Order.Group.Int

/-!
# Parrot: the conversation store

`ConversationStore`, with the clock reading of each call as an argument.

* `Message`                     a stored message; `tool_calls` is `none` where the key is absent;
* `ConversationStore.append`, `getMessages`, `getVisible`, `cleanup`   as in history.py;
* `trim`                        `_trim`, its two loops by recursion on what is left;
* `trim_suffix`                 trimming leaves the list, nothing, or the part from a user message
                                on;
* `trim_of_le`                  and leaves a list that is within the limit as it is.
-/

set_option linter.unusedSectionVars false

namespace Parrot

structure ToolCall where
  id : String
  name : Option String
  arguments : String
  deriving DecidableEq, Repr

inductive Message where
  | system (content : String)
  | user (content : String) (censored : Bool)
  | assistant (content : Option String) (tool_calls : Option (List ToolCall))
  | tool (tool_call_id : String) (content : String)
  deriving DecidableEq, Repr

namespace Message

def isUser : Message → Bool
  | .user _ _ => true
  | _ => false

/-- a user message, or an assistant message without the key `tool_calls` -/
def visible : Message → Bool
  | .user _ _ => true
  | .assistant _ none => true
  | _ => false

end Message

structure Entry where
  messages : List Message
  last_accessed : Int

structure ConversationStore where
  max_messages : Nat
  ttl : Int
  max_conversations : Nat
  conversations : Dict String Entry

/-! ## trimming -/

/-- the inner loop of `_trim`: pop up to the next user message, counting down -/
def dropToUser : Int → List Message → Int × List Message
  | n, [] => (n, [])
  | n, m :: ms =>
    if m.isUser then (n, m :: ms) else dropToUser (if m.visible then n - 1 else n) ms

/-- the outer loop of `_trim`; every round pops a message, so the length is fuel enough -/
def trimLoop (max_messages : Nat) : Nat → Int → List Message → List Message
  | 0, _, msgs => msgs
  | _ + 1, _, [] => []
  | fuel + 1, n, m :: ms =>
    if n > max_messages then
      let (n, msgs) := if m.isUser then dropToUser (n - 1) ms else dropToUser n (m :: ms)
      trimLoop max_messages fuel n msgs
    else m :: ms

def contentCount (msgs : List Message) : Nat := msgs.countP Message.visible

def trim (max_messages : Nat) (msgs : List Message) : List Message :=
  trimLoop max_messages msgs.length (contentCount msgs) msgs

theorem trim_of_le {max_messages : Nat} {msgs : List Message}
    (h : contentCount msgs ≤ max_messages) : trim max_messages msgs = msgs := by
  unfold trim
  cases msgs with
  | nil => rfl
  | cons m ms =>
    have hn : ¬ ((contentCount (m :: ms) : Int) > max_messages) := by omega
    rw [List.length_cons, trimLoop, if_neg hn]

theorem dropToUser_suffix (n : Int) (msgs : List Message) :
    ∃ pre, msgs = pre ++ (dropToUser n msgs).2 ∧
      ((dropToUser n msgs).2 = [] ∨ ∃ c b rest, (dropToUser n msgs).2 = .user c b :: rest) := by
  induction msgs generalizing n with
  | nil => exact ⟨[], rfl, .inl rfl⟩
  | cons m ms ih =>
    rw [dropToUser]
    by_cases hm : m.isUser = true
    · rw [if_pos hm]
      cases m with
      | user c b => exact ⟨[], rfl, .inr ⟨c, b, ms, rfl⟩⟩
      | system c => exact absurd hm Bool.false_ne_true
      | assistant c tc => exact absurd hm Bool.false_ne_true
      | tool i c => exact absurd hm Bool.false_ne_true
    · rw [if_neg hm]
      obtain ⟨pre, e, h⟩ := ih (if m.visible then n - 1 else n)
      exact ⟨m :: pre, congrArg (m :: ·) e, h⟩

theorem dropToUser_length (n : Int) (msgs : List Message) :
    (dropToUser n msgs).2.length ≤ msgs.length := by
  obtain ⟨pre, e, _⟩ := dropToUser_suffix n msgs
  have h := congrArg List.length e
  rw [List.length_append] at h
  omega

theorem trimLoop_fuel (max_messages : Nat) {fuel : Nat} (n : Int) {msgs : List Message}
    (h : msgs.length ≤ fuel) :
    trimLoop max_messages (fuel + 1) n msgs = trimLoop max_messages fuel n msgs := by
  induction fuel generalizing n msgs with
  | zero =>
    obtain rfl := List.eq_nil_of_length_eq_zero (Nat.le_zero.mp h)
    rfl
  | succ fuel ih =>
    cases msgs with
    | nil => rfl
    | cons m ms =>
      have hms : ms.length ≤ fuel := Nat.le_of_succ_le_succ h
      rw [trimLoop, trimLoop]
      by_cases hn : n > max_messages
      · rw [if_pos hn, if_pos hn]
        by_cases hm : m.isUser = true
        · rw [if_pos hm]
          exact ih _ ((dropToUser_length _ ms).trans hms)
        · -- the first message is popped here too
          rw [if_neg hm, dropToUser, if_neg hm]
          exact ih _ ((dropToUser_length _ ms).trans hms)
      · rw [if_neg hn, if_neg hn]

theorem trimLoop_suffix (max_messages fuel : Nat) (n : Int) (msgs : List Message) :
    trimLoop max_messages fuel n msgs = msgs ∨
      ∃ pre, msgs = pre ++ trimLoop max_messages fuel n msgs ∧
        (trimLoop max_messages fuel n msgs = [] ∨
          ∃ c b rest, trimLoop max_messages fuel n msgs = .user c b :: rest) := by
  induction fuel generalizing n msgs with
  | zero => exact .inl rfl
  | succ fuel ih =>
    cases msgs with
    | nil => exact .inl rfl
    | cons m ms =>
      rw [trimLoop]
      by_cases hn : n > max_messages
      · rw [if_pos hn]
        -- whichever way the round starts, it leaves a suffix that the rest of the loop trims
        have step : ∀ (p : List Message) (k : Int) (l : List Message), m :: ms = p ++ l →
            ∃ pre, m :: ms = pre ++ trimLoop max_messages fuel (dropToUser k l).1 (dropToUser k l).2 ∧
              (trimLoop max_messages fuel (dropToUser k l).1 (dropToUser k l).2 = [] ∨
                ∃ c b rest, trimLoop max_messages fuel (dropToUser k l).1 (dropToUser k l).2 =
                  .user c b :: rest) := by
          intro p k l hl
          obtain ⟨q, hq, hu⟩ := dropToUser_suffix k l
          rcases ih (dropToUser k l).1 (dropToUser k l).2 with h | ⟨r, hr, hu'⟩
          · rw [h]
            exact ⟨p ++ q, by rw [List.append_assoc, ← hq, hl], hu⟩
          · exact ⟨p ++ (q ++ r), by rw [List.append_assoc, List.append_assoc, ← hr, ← hq, hl], hu'⟩
        by_cases hm : m.isUser = true
        · rw [if_pos hm]
          exact .inr (step [m] _ ms rfl)
        · rw [if_neg hm]
          exact .inr (step [] _ (m :: ms) rfl)
      · rw [if_neg hn]
        exact .inl rfl

/-- trimming leaves the list, nothing, or the part from a user message on -/
theorem trim_suffix (max_messages : Nat) (msgs : List Message) :
    trim max_messages msgs = msgs ∨ ∃ pre, msgs = pre ++ trim max_messages msgs ∧
      (trim max_messages msgs = [] ∨ ∃ c b rest, trim max_messages msgs = .user c b :: rest) :=
  trimLoop_suffix _ _ _ _

/-! ## the store -/

namespace ConversationStore

def messages (s : ConversationStore) (guest_id : String) : List Message :=
  match s.conversations.get? guest_id with
  | some e => e.messages
  | none => []

/-- `get_messages`: the messages, and the store with the access stamped -/
def getMessages (s : ConversationStore) (now : Int) (guest_id : String) :
    List Message × ConversationStore :=
  match s.conversations.get? guest_id with
  | some e => (e.messages,
      { s with conversations := s.conversations.set guest_id { e with last_accessed := now } })
  | none => ([], s)

def append (s : ConversationStore) (now : Int) (guest_id : String) (messages : List Message) :
    ConversationStore :=
  let msgs := trim s.max_messages (s.messages guest_id ++ messages)
  { s with conversations := s.conversations.set guest_id ⟨msgs, now⟩ }

def getVisible (s : ConversationStore) (guest_id : String) : List Message :=
  (s.messages guest_id).filter Message.visible

/-- `cleanup`: drop what has expired, then the least recently accessed above the ceiling -/
def cleanup (s : ConversationStore) (now : Int) : ConversationStore :=
  let expired := (s.conversations.items.filter fun p => now - p.2.last_accessed > s.ttl).map Prod.fst
  let live := expired.foldl Dict.del s.conversations
  let by_age := (live.items.mergeSort fun a b => a.2.last_accessed ≤ b.2.last_accessed).map Prod.fst
  let conversations :=
    if live.items.length > s.max_conversations then
      (by_age.take (live.items.length - s.max_conversations)).foldl Dict.del live
    else live
  { s with conversations }

theorem messages_getMessages (s : ConversationStore) (now : Int) (guest_id : String) :
    (s.getMessages now guest_id).1 = s.messages guest_id := by
  unfold getMessages messages
  split <;> rfl

theorem getMessages_messages (s : ConversationStore) (now : Int) (guest_id g : String) :
    (s.getMessages now guest_id).2.messages g = s.messages g := by
  unfold getMessages
  split
  · rename_i e he
    unfold messages
    by_cases hg : g = guest_id
    · subst hg
      simp only [Dict.get?_set_self, he]
    · simp only [Dict.get?_set_ne _ hg]
  · rfl

theorem append_messages_self (s : ConversationStore) (now : Int) (guest_id : String)
    (msgs : List Message) :
    (s.append now guest_id msgs).messages guest_id =
      trim s.max_messages (s.messages guest_id ++ msgs) := by
  unfold append
  rw [messages]
  simp only [Dict.get?_set_self]

theorem append_messages_ne (s : ConversationStore) (now : Int) {guest_id g : String}
    (h : g ≠ guest_id) (msgs : List Message) :
    (s.append now guest_id msgs).messages g = s.messages g := by
  unfold append messages
  simp only [Dict.get?_set_ne _ h]

theorem foldl_del_messages (d : Dict String Entry) (ks : List String) (g : String) :
    (ks.foldl Dict.del d).get? g = d.get? g ∨ (ks.foldl Dict.del d).get? g = none := by
  rw [Dict.get?_foldl_del]
  by_cases hg : g ∈ ks
  · rw [if_pos hg]
    exact .inr rfl
  · rw [if_neg hg]
    exact .inl rfl

/-- eviction leaves a conversation as it is or drops it whole -/
theorem cleanup_messages (s : ConversationStore) (now : Int) (g : String) :
    (s.cleanup now).messages g = s.messages g ∨ (s.cleanup now).messages g = [] := by
  have lift : ∀ d : Dict String Entry, d.get? g = s.conversations.get? g ∨ d.get? g = none →
      ({ s with conversations := d } : ConversationStore).messages g = s.messages g ∨
        ({ s with conversations := d } : ConversationStore).messages g = [] := by
    rintro d (h | h)
    · left
      simp only [messages, h]
    · right
      simp only [messages, h]
  apply lift
  split
  · rcases foldl_del_messages _ _ g with h | h
    · rw [h]
      exact foldl_del_messages _ _ g
    · exact .inr h
  · exact foldl_del_messages _ _ g

end ConversationStore
end Parrot
