import Purrlington.Parrot.History
import Purrlington.Lib.Machine
import Purrlington.Lib.Recent
import Mathlib.Data.List.Induction

/-!
# Parrot: histories are trimmed by whole turns

* `TrimState`, `trimStep`   `_trim` one pop or one test at a time;
* `trim_run`            it ends, on every list, with the list that `trim` gives and its visible count;
* `IsTurn`              a user message and what follows it up to the next one;
* `trim_turns`          of a list of turns, `_trim` leaves the most recent ones within the limit;
* `trimmed_by_turns`    so does every sequence of appends.
-/

set_option linter.unusedSectionVars false

namespace Parrot
open SM Recent

/-! ## the loops of `_trim` -/

/-- at the test of the outer loop or of the inner one -/
inductive TrimPc where
  | outer
  | inner
  deriving DecidableEq

structure TrimState where
  pc : TrimPc
  content_count : Int
  msgs : List Message
  deriving DecidableEq

/-- one round of a loop up to its next test; `none` where the outer loop ends -/
def trimStep (max_messages : Nat) : Machine TrimState Unit := fun s _ =>
  match s.pc, s.msgs with
  | .outer, [] => none
  | .outer, m :: ms =>
    if s.content_count > max_messages then
      if m.isUser then some ⟨.inner, s.content_count - 1, ms⟩
      else some ⟨.inner, s.content_count, m :: ms⟩
    else none
  | .inner, [] => some ⟨.outer, s.content_count, []⟩
  | .inner, m :: ms =>
    if m.isUser then some ⟨.outer, s.content_count, m :: ms⟩
    else some ⟨.inner, if m.visible then s.content_count - 1 else s.content_count, ms⟩

/-- `_trim` comes to an end on the list, with this list left -/
def TrimsTo (max_messages : Nat) (msgs left : List Message) : Prop :=
  ∃ steps, (trimStep max_messages).Runs free ⟨.outer, contentCount msgs, msgs⟩ steps
      ⟨.outer, contentCount left, left⟩ ∧
    trimStep max_messages ⟨.outer, contentCount left, left⟩ () = none

section
variable {max_messages : Nat}

theorem inner_run (max_messages : Nat) (n : Int) (msgs : List Message) : ∃ steps,
    (trimStep max_messages).Runs free ⟨.inner, n, msgs⟩ steps
      ⟨.outer, (dropToUser n msgs).1, (dropToUser n msgs).2⟩ := by
  induction msgs generalizing n with
  | nil => exact ⟨[()], trivial, _, rfl, rfl⟩
  | cons m ms ih =>
    rw [dropToUser]
    by_cases hm : m.isUser = true
    · rw [if_pos hm]
      exact ⟨[()], trivial, _, if_pos hm, rfl⟩
    · rw [if_neg hm]
      obtain ⟨steps, h⟩ := ih (if m.visible then n - 1 else n)
      exact ⟨() :: steps, trivial, _, if_neg hm, h⟩

theorem dropToUser_count {n : Int} {msgs : List Message} (hn : n = contentCount msgs) :
    (dropToUser n msgs).1 = contentCount (dropToUser n msgs).2 := by
  induction msgs generalizing n with
  | nil => exact hn
  | cons m ms ih =>
    rw [dropToUser]
    by_cases hm : m.isUser = true
    · rw [if_pos hm]
      exact hn
    · rw [if_neg hm]
      apply ih
      rw [hn, contentCount, contentCount, List.countP_cons]
      split <;> simp

theorem contentCount_user {m : Message} (hm : m.isUser = true) (ms : List Message) :
    (contentCount (m :: ms) : Int) - 1 = contentCount ms := by
  have hv : m.visible = true := by
    cases m with
    | user c b => rfl
    | system c => exact absurd hm Bool.false_ne_true
    | assistant c tc => exact absurd hm Bool.false_ne_true
    | tool i c => exact absurd hm Bool.false_ne_true
  rw [contentCount, contentCount, List.countP_cons_of_pos hv]
  push_cast
  omega

/-- the outer loop; each of its rounds pops a message -/
theorem outer_run (fuel : Nat) {msgs : List Message} (h : msgs.length ≤ fuel) : ∃ steps,
    (trimStep max_messages).Runs free ⟨.outer, contentCount msgs, msgs⟩ steps
      ⟨.outer, contentCount (trimLoop max_messages fuel (contentCount msgs) msgs),
        trimLoop max_messages fuel (contentCount msgs) msgs⟩ ∧
    trimStep max_messages
      ⟨.outer, contentCount (trimLoop max_messages fuel (contentCount msgs) msgs),
        trimLoop max_messages fuel (contentCount msgs) msgs⟩ () = none := by
  induction fuel generalizing msgs with
  | zero =>
    obtain rfl := List.eq_nil_of_length_eq_zero (Nat.le_zero.mp h)
    exact ⟨[], rfl, rfl⟩
  | succ fuel ih =>
    cases msgs with
    | nil => exact ⟨[], rfl, rfl⟩
    | cons m ms =>
      have hms : ms.length ≤ fuel := Nat.le_of_succ_le_succ h
      rw [trimLoop]
      by_cases hn : (contentCount (m :: ms) : Int) > max_messages
      · rw [if_pos hn]
        -- from the test of the inner loop on
        have hrest : ∀ (k : Int) (l : List Message), k = contentCount l →
            (dropToUser k l).2.length ≤ fuel →
            trimStep max_messages ⟨.outer, contentCount (m :: ms), m :: ms⟩ () =
              some ⟨.inner, k, l⟩ → ∃ steps,
              (trimStep max_messages).Runs free ⟨.outer, contentCount (m :: ms), m :: ms⟩ steps
                ⟨.outer, contentCount (trimLoop max_messages fuel (dropToUser k l).1
                    (dropToUser k l).2),
                  trimLoop max_messages fuel (dropToUser k l).1 (dropToUser k l).2⟩ ∧
              trimStep max_messages
                ⟨.outer, contentCount (trimLoop max_messages fuel (dropToUser k l).1
                    (dropToUser k l).2),
                  trimLoop max_messages fuel (dropToUser k l).1 (dropToUser k l).2⟩ () =
                none := by
          intro k l hk hlen hstep
          obtain ⟨steps, hinner⟩ := inner_run max_messages k l
          rw [dropToUser_count hk] at hinner ⊢
          obtain ⟨steps', hrun, hend⟩ := ih hlen
          exact ⟨() :: (steps ++ steps'), ⟨trivial, _, hstep, hinner.append hrun⟩, hend⟩
        by_cases hm : m.isUser = true
        · rw [if_pos hm]
          apply hrest _ _ (contentCount_user hm ms) ((dropToUser_length _ ms).trans hms)
          exact (if_pos hn).trans (if_pos hm)
        · rw [if_neg hm]
          apply hrest _ _ rfl ?_ ((if_pos hn).trans (if_neg hm))
          rw [dropToUser, if_neg hm]
          exact (dropToUser_length _ ms).trans hms
      · rw [if_neg hn]
        exact ⟨[], rfl, if_neg hn⟩

/-- **`_trim` ends on every list.** -/
theorem trim_run (max_messages : Nat) (msgs : List Message) :
    TrimsTo max_messages msgs (trim max_messages msgs) := outer_run msgs.length le_rfl

theorem trimLoop_of_le {fuel : Nat} (n : Int) {msgs : List Message} (h : msgs.length ≤ fuel) :
    trimLoop max_messages fuel n msgs = trimLoop max_messages msgs.length n msgs := by
  induction fuel, h using Nat.le_induction with
  | base => rfl
  | succ fuel hle ih => rw [trimLoop_fuel max_messages n hle, ih]

end

/-! ## turns -/

/-- an assistant or a tool message -/
def Message.isReply : Message → Bool
  | .assistant _ _ => true
  | .tool _ _ => true
  | _ => false

/-- one user message, then only assistant and tool messages -/
def IsTurn (batch : List Message) : Prop :=
  ∃ content censored replies, batch = .user content censored :: replies ∧
    ∀ m ∈ replies, m.isReply = true

theorem contentCount_flatten (turns : List (List Message)) :
    contentCount turns.flatten = weight contentCount turns := List.countP_flatten

theorem dropToUser_replies (n : Int) {replies : List Message} (h : ∀ m ∈ replies, m.isReply = true)
    {turns : List (List Message)} (ht : ∀ b ∈ turns, IsTurn b) :
    (dropToUser n (replies ++ turns.flatten)).2 = turns.flatten := by
  induction replies generalizing n with
  | nil =>
    cases turns with
    | nil => rfl
    | cons b turns =>
      obtain ⟨c, cens, rest, rfl, -⟩ := ht b List.mem_cons_self
      rfl
  | cons m replies ih =>
    have hm : ¬ m.isUser = true := by
      intro hu
      cases m with
      | user c b => exact absurd (h _ List.mem_cons_self) Bool.false_ne_true
      | system c => exact absurd hu Bool.false_ne_true
      | assistant c tc => exact absurd hu Bool.false_ne_true
      | tool i c => exact absurd hu Bool.false_ne_true
    rw [List.cons_append, dropToUser, if_neg hm]
    exact ih _ fun m' hm' => h m' (List.mem_cons_of_mem _ hm')

/-- **Of a list of turns, the most recent ones within the limit are left.** -/
theorem trim_turns (max_messages : Nat) {turns : List (List Message)} (h : ∀ b ∈ turns, IsTurn b) :
    trim max_messages turns.flatten = (recent contentCount max_messages turns).flatten := by
  induction turns with
  | nil => rfl
  | cons b turns ih =>
    have hturns : ∀ b' ∈ turns, IsTurn b' := fun b' hb' => h b' (List.mem_cons_of_mem _ hb')
    by_cases hle : weight contentCount (b :: turns) ≤ max_messages
    · rw [recent_of_le hle]
      exact trim_of_le ((contentCount_flatten (b :: turns)).trans_le hle)
    · rw [recent_cons_of_lt (Nat.not_le.mp hle), ← ih hturns]
      obtain ⟨c, cens, replies, rfl, hreplies⟩ := h b List.mem_cons_self
      have hflat : (((Message.user c cens :: replies) :: turns).flatten) =
          .user c cens :: (replies ++ turns.flatten) := rfl
      rw [← contentCount_flatten, hflat] at hle
      have hover : (contentCount (.user c cens :: (replies ++ turns.flatten)) : Int) >
          max_messages := by omega
      have hleft := dropToUser_replies (contentCount (replies ++ turns.flatten)) hreplies hturns
      have hcount := dropToUser_count (Eq.refl (contentCount (replies ++ turns.flatten) : Int))
      rw [hleft] at hcount
      have hinner : dropToUser (contentCount (replies ++ turns.flatten)) (replies ++ turns.flatten) =
          (↑(contentCount turns.flatten), turns.flatten) := Prod.ext hcount hleft
      have huser : (Message.user c cens).isUser = true := rfl
      rw [hflat, trim, List.length_cons, trimLoop, if_pos hover, if_pos huser,
        contentCount_user huser, hinner, trim]
      apply trimLoop_of_le
      rw [List.length_append]
      exact Nat.le_add_left _ _

/-! ## sequences of appends -/

structure AppendCall where
  now : Int
  guest_id : String
  messages : List Message

namespace ConversationStore

def appends (s : ConversationStore) (calls : List AppendCall) : ConversationStore :=
  calls.foldl (fun s c => s.append c.now c.guest_id c.messages) s

end ConversationStore

/-- the batches of a guest -/
def turnsOf (guest_id : String) (calls : List AppendCall) : List (List Message) :=
  (calls.filter fun c => c.guest_id = guest_id).map AppendCall.messages

theorem appends_snoc (s : ConversationStore) (calls : List AppendCall) (c : AppendCall) :
    s.appends (calls ++ [c]) = (s.appends calls).append c.now c.guest_id c.messages := by
  rw [ConversationStore.appends, List.foldl_append]
  rfl

theorem appends_max_messages (s : ConversationStore) (calls : List AppendCall) :
    (s.appends calls).max_messages = s.max_messages := by
  induction calls using List.reverseRecOn with
  | nil => rfl
  | append_singleton calls c ih =>
    rw [appends_snoc, ← ih]
    rfl

theorem turnsOf_snoc_self {guest_id : String} {c : AppendCall} (h : c.guest_id = guest_id)
    (calls : List AppendCall) :
    turnsOf guest_id (calls ++ [c]) = turnsOf guest_id calls ++ [c.messages] := by
  have hc : [c].filter (fun c => c.guest_id = guest_id) = [c] := by simp [h]
  rw [turnsOf, List.filter_append, List.map_append, hc]
  rfl

theorem turnsOf_snoc_ne {guest_id : String} {c : AppendCall} (h : c.guest_id ≠ guest_id)
    (calls : List AppendCall) : turnsOf guest_id (calls ++ [c]) = turnsOf guest_id calls := by
  have hc : [c].filter (fun c => c.guest_id = guest_id) = [] := by simp [h]
  rw [turnsOf, List.filter_append, List.map_append, hc]
  exact List.append_nil _

theorem appends_messages {s : ConversationStore} {guest_id : String} {calls : List AppendCall}
    (h0 : s.messages guest_id = [])
    (hturns : ∀ c ∈ calls, c.guest_id = guest_id → IsTurn c.messages) :
    (s.appends calls).messages guest_id =
      (recent contentCount s.max_messages (turnsOf guest_id calls)).flatten := by
  induction calls using List.reverseRecOn with
  | nil => exact h0
  | append_singleton calls c ih =>
    have hcalls : ∀ c' ∈ calls, c'.guest_id = guest_id → IsTurn c'.messages :=
      fun c' hc' => hturns c' (List.mem_append_left _ hc')
    rw [appends_snoc]
    by_cases hg : c.guest_id = guest_id
    · have hkept : ∀ b ∈ recent contentCount s.max_messages (turnsOf guest_id calls) ++ [c.messages],
          IsTurn b := by
        intro b hb
        rcases List.mem_append.mp hb with hb | hb
        · have hb' := (longest_recent (turnsOf guest_id calls)).suffix.subset hb
          obtain ⟨c', hc', rfl⟩ := List.mem_map.mp hb'
          obtain ⟨hc', hid⟩ := List.mem_filter.mp hc'
          exact hcalls c' hc' (of_decide_eq_true hid)
        · rw [List.mem_singleton.mp hb]
          exact hturns c (List.mem_append_right _ List.mem_cons_self) hg
      have hflat := List.flatten_concat (L := recent contentCount s.max_messages
        (turnsOf guest_id calls)) (l := c.messages)
      rw [turnsOf_snoc_self hg, ← recent_append, ← trim_turns s.max_messages hkept, ← hg,
        ConversationStore.append_messages_self, appends_max_messages, hg, ih hcalls, hflat]
    · rw [turnsOf_snoc_ne hg, ConversationStore.append_messages_ne _ _ (fun e => hg e.symm)]
      exact ih hcalls

/-- **Histories are trimmed by whole turns.**  After every sequence of appends in which the batches of
a guest without a history are turns, the stored list consists of the longest run of its most recent
turns whose visible messages are within the limit; it is empty or begins with a user message.  And
`_trim` ends on every list of messages. -/
theorem trimmed_by_turns (s : ConversationStore) (guest_id : String) (calls : List AppendCall)
    (h0 : s.messages guest_id = [])
    (hturns : ∀ c ∈ calls, c.guest_id = guest_id → IsTurn c.messages) :
    (∃ kept, (s.appends calls).messages guest_id = kept.flatten ∧
      Longest contentCount s.max_messages (turnsOf guest_id calls) kept) ∧
    ((s.appends calls).messages guest_id = [] ∨ ∃ content censored rest,
      (s.appends calls).messages guest_id = .user content censored :: rest) ∧
    ∀ max_messages msgs, TrimsTo max_messages msgs (trim max_messages msgs) := by
  have hstored := appends_messages h0 hturns
  have hlongest : Longest contentCount s.max_messages (turnsOf guest_id calls) _ :=
    longest_recent (turnsOf guest_id calls)
  refine ⟨⟨_, hstored, hlongest⟩, ?_, trim_run⟩
  rw [hstored]
  cases hk : recent contentCount s.max_messages (turnsOf guest_id calls) with
  | nil => exact .inl rfl
  | cons b kept =>
    right
    have hmem : b ∈ turnsOf guest_id calls := hlongest.suffix.subset (hk ▸ List.mem_cons_self)
    obtain ⟨c, hc, rfl⟩ := List.mem_map.mp hmem
    obtain ⟨hc, hid⟩ := List.mem_filter.mp hc
    obtain ⟨content, censored, replies, e, -⟩ := hturns c hc (of_decide_eq_true hid)
    exact ⟨content, censored, replies ++ kept.flatten, by rw [List.flatten_cons, e]; rfl⟩

/-- two turns, the second one with a tool -/
def twoTurns : List AppendCall :=
  [⟨0, "ana", [.user "a" false, .assistant (some "b") none]⟩,
   ⟨1, "ana", [.user "c" false, .assistant none (some [⟨"x", some "f", ""⟩]), .tool "x" "d",
     .assistant (some "e") none]⟩]

/-- there is room for three visible messages -/
theorem trimmed_by_turns_two :
    ((ConversationStore.mk 3 0 1 .empty).appends twoTurns).messages "ana" =
      [.user "c" false, .assistant none (some [⟨"x", some "f", ""⟩]), .tool "x" "d",
        .assistant (some "e") none] ∧
    ∃ kept, ((ConversationStore.mk 3 0 1 .empty).appends twoTurns).messages "ana" = kept.flatten ∧
      Longest contentCount 3 (turnsOf "ana" twoTurns) kept := by
  have hturns : ∀ c ∈ twoTurns, c.guest_id = "ana" → IsTurn c.messages := by
    intro c hc _
    rcases List.mem_cons.mp hc with rfl | hc
    · exact ⟨_, _, _, rfl, by decide⟩
    · rw [List.mem_singleton.mp hc]
      exact ⟨_, _, _, rfl, by decide⟩
  exact ⟨by decide, (trimmed_by_turns ⟨3, 0, 1, .empty⟩ "ana" twoTurns rfl hturns).1⟩

end Parrot
