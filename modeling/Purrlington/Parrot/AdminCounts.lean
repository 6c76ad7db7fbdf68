import Purrlington.Parrot.Admin

/-!
# Parrot: the admin counts and the visible history

The history hides a message that has the key `tool_calls`, the counts skip one whose `tool_calls` is
not empty.  They part at an empty list, which chat stores when the model ends with `tool_calls` and
names no call.

* `Filled`            the condition on the answers of the model;
* `FullStore`, `FullTurn`   no empty call group is stored, or waits to be;
* `counts_match`      the counts in runs under the condition;
* `empty_group`       a run with one more turn counted than is visible.
-/

set_option linter.unusedSectionVars false

namespace Parrot
open SM

/-- the model does not end with `tool_calls` and an empty list of calls -/
def Pc.filled : Pc → Op → Bool
  | .completion _, .response r => !(r.finishToolCalls && r.tool_calls = some [])
  | _, _ => true

/-- the condition, on the requests whose turn is kept -/
def Filled (t : Thread) (op : Op) : Prop := t.Kept → t.pc.filled op = true

instance (t : Thread) (op : Op) : Decidable (Filled t op) := inferInstanceAs (Decidable (_ → _))

/-! ## the invariant -/

/-- no stored message has an empty list of calls -/
def FullStore (c : Shared) : Prop := ∀ g, ∀ m ∈ c.store.messages g, m.emptyGroup = false

/-- no message of the turn does -/
def FullTurn (t : Thread) : Prop := t.Kept → ∀ m ∈ t.new_messages, m.emptyGroup = false

section
variable {c : Shared} {t : Thread}

theorem FullTurn.concat (h : FullTurn t) {m : Message} (hm : t.Kept → m.emptyGroup = false) {u : Thread}
    (hreq : u.req = t.req) (hnew : u.new_messages = t.new_messages ++ [m]) : FullTurn u := by
  intro hk
  have hk' : t.Kept := by
    unfold Thread.Kept at hk ⊢
    rwa [← hreq]
  rw [hnew]
  intro x hx
  rcases List.mem_append.mp hx with hx | hx
  · exact h hk' x hx
  · rw [List.mem_singleton.mp hx]
    exact hm hk'

theorem FullTurn.say (h : FullTurn t) {m : Message} (hm : t.Kept → m.emptyGroup = false) (pc : Pc) :
    FullTurn (t.say m pc) := h.concat hm rfl rfl

theorem FullTurn.conclude (h : FullTurn t) (reply : String) (pc : Pc) :
    FullTurn (t.conclude reply pc) := h.concat (fun _ => rfl) rfl rfl

theorem append_full (h : FullStore c) {g : String} {ms : List Message}
    (hms : ∀ m ∈ ms, m.emptyGroup = false) :
    FullStore { c with store := c.store.append c.now g ms } := by
  intro x m hm
  by_cases hx : x = g
  · subst hx
    have hall : m ∈ c.store.messages x ++ ms → m.emptyGroup = false := by
      intro hmem
      rcases List.mem_append.mp hmem with hmem | hmem
      · exact h x m hmem
      · exact hms m hmem
    change m ∈ (c.store.append c.now x ms).messages x at hm
    rw [ConversationStore.append_messages_self] at hm
    -- trimming only drops messages
    rcases trim_suffix c.store.max_messages (c.store.messages x ++ ms) with e | ⟨pre, e, _⟩
    · exact hall (e ▸ hm)
    · exact hall (e ▸ List.mem_append_right pre hm)
  · change m ∈ (c.store.append c.now g ms).messages x at hm
    rw [ConversationStore.append_messages_ne _ _ hx] at hm
    exact h x m hm

theorem persisted_full (h : FullStore c) (ht : FullTurn t) :
    FullStore (t.persisted c).1 ∧ FullTurn (t.persisted c).2 := by
  refine ⟨?_, ht⟩
  show FullStore (c.persist t)
  unfold Shared.persist
  cases hs : t.req.session with
  | none => exact h
  | some g =>
    have hk : t.Kept := by
      unfold Thread.Kept
      rw [hs]
      exact Option.some_ne_none g
    exact append_full h (ht hk)

theorem reply_full (h : FullStore c) (ht : FullTurn t) (text : String) :
    FullStore (t.reply c text).1 ∧ FullTurn (t.reply c text).2 :=
  persisted_full h (ht.conclude text .ended)

theorem nextRound_full (h : FullStore c) (ht : FullTurn t) (round : Nat) :
    FullStore (t.nextRound c round).1 ∧ FullTurn (t.nextRound c round).2 := by
  unfold Thread.nextRound
  split
  · exact ⟨h, ht⟩
  · exact reply_full h ht FALLBACK

theorem nextStreamRound_full (ht : FullTurn t) (round : Nat) : FullTurn (t.nextStreamRound round) := by
  unfold Thread.nextStreamRound
  split
  · exact ht
  · exact ht.conclude FALLBACK .ended

theorem answered_full (h : FullStore c) (ht : FullTurn t) (round : Nat) {r : Completion}
    (hr : t.Kept → (Pc.completion round).filled (.response r) = true) :
    FullStore (t.answered c round r).1 ∧ FullTurn (t.answered c round r).2 := by
  unfold Thread.answered
  by_cases hcalls : (r.finishToolCalls || r.tool_calls.getD [] != []) = true
  · rw [if_pos hcalls]
    split
    · exact ⟨h, ht⟩
    · rename_i hnil
      -- here the list is empty, so the finish reason is `tool_calls`
      rw [hnil] at hcalls
      have hfinish : r.finishToolCalls = true := by simpa using hcalls
      refine nextRound_full h (ht.say (fun hk => ?_) .ended) round
      have := hr hk
      rw [Pc.filled, hfinish, hnil] at this
      exact absurd this Bool.false_ne_true
    · exact ⟨h, ht.say (fun _ => rfl) _⟩
  · rw [if_neg hcalls]
    exact reply_full h ht _

theorem toolDone_full (h : FullStore c) (ht : FullTurn t) (round : Nat) (call : ToolCall)
    (rest : List ToolCall) (content : String) :
    FullStore (t.toolDone c round call rest content).1 ∧
      FullTurn (t.toolDone c round call rest content).2 := by
  have hsay := fun pc => ht.say (m := .tool call.id content) (fun _ => rfl) pc
  cases rest with
  | nil => exact nextRound_full h (hsay .ended) round
  | cons next rest => exact ⟨h, hsay _⟩

theorem onResult_full (ht : FullTurn t) (round : Nat) (call : ToolCall) (rest : List ToolCall)
    (content : String) : FullTurn (t.onResult round call rest content) := by
  have hsay := ht.say (m := .tool call.id content) (fun _ => rfl) .ended
  cases rest with
  | nil => exact nextStreamRound_full hsay round
  | cons next rest => exact hsay

theorem onExhausted_full (ht : FullTurn t) (round : Nat) (content : String)
    (fragments : Dict Nat Slot) : FullTurn (t.onExhausted round content fragments) := by
  unfold Thread.onExhausted
  split
  · exact ht.conclude _ .ended
  · exact ht.say (fun _ => rfl) .ended

theorem onChunk_full (ht : FullTurn t) (round : Nat) (content : String) (fragments : Dict Nat Slot)
    (d : Delta) : FullTurn (t.onChunk round content fragments d) := by
  unfold Thread.onChunk
  split <;> exact ht

theorem begin_full (cfg : Settings) (h : FullStore c) :
    FullStore (t.begin cfg c).1 ∧ FullTurn (t.begin cfg c).2 := by
  have hnew : ∀ m ∈ [Message.user (cfg.maskProfanity t.req.message).1
      (cfg.maskProfanity t.req.message).2], m.emptyGroup = false := by
    intro m hm
    rw [List.mem_singleton.mp hm]
    rfl
  unfold Thread.begin
  cases t.req.session with
  | none => exact ⟨h, fun _ => hnew⟩
  | some g =>
    refine ⟨fun x m hm => ?_, fun _ => hnew⟩
    change m ∈ (c.store.getMessages c.now g).2.messages x at hm
    rw [ConversationStore.getMessages_messages] at hm
    exact h x m hm

theorem step_full {cfg : Settings} {p : Shared × Thread} {op : Op} (h : FullStore c)
    (ht : FullTurn t) (hg : Filled t op) (hst : t.step cfg c op = some p) :
    FullStore p.1 ∧ FullTurn p.2 := by
  have hmoves := Thread.moves_of_step hst
  rw [Filled] at hg
  generalize t.pc = pc at hmoves hg
  cases hmoves with
  | begin => exact begin_full cfg h
  | answered round r => exact answered_full h ht round hg
  | toolDone round call rest content => exact toolDone_full h ht round call rest content
  | dropped _ => exact ⟨h, ht⟩
  | opened round => exact ⟨h, ht⟩
  | chunk round content fragments d => exact ⟨h, onChunk_full ht round content fragments d⟩
  | exhausted round content fragments => exact ⟨h, onExhausted_full ht round content fragments⟩
  | merged round content fragments tcs => exact ⟨h, ht⟩
  | announced round call rest => exact ⟨h, ht⟩
  | ran round call rest content => exact ⟨h, ht⟩
  | result round call rest content => exact ⟨h, onResult_full ht round call rest content⟩
  | sent e left => exact ⟨h, ht⟩
  | failed _ => exact ⟨h, ht⟩
  | persisted _ => exact persisted_full h ht

end

theorem env_full {c : Shared} (h : FullStore c) (e : Env) : FullStore (c.env e) := by
  cases e with
  | tick d => exact h
  | cleanup =>
    intro g m hm
    change m ∈ (c.store.cleanup c.now).messages g at hm
    rcases c.store.cleanup_messages c.now g with e | e
    · exact h g m (e ▸ hm)
    · rw [e] at hm
      exact absurd hm List.not_mem_nil

theorem run_full {cfg : Settings} {s s' : State} {as : List (PoolAct _ Env Op)}
    (hnew : s.threads = []) (h0 : FullStore s.shared)
    (hrun : (service cfg).machine.Runs (Local Filled) s as s') : FullStore s'.shared := by
  have hinv : Sys.Holds FullStore (fun _ => FullTurn) s' := by
    refine Sys.inv hrun (fun _ _ _ _ m hm => absurd hm List.not_mem_nil) ?_ ?_ ⟨h0, ?_⟩
    · intro c e c' hc he
      obtain rfl := Option.some.inj he
      exact ⟨env_full hc e, fun _ hu => hu⟩
    · intro s i op t c' t' hs hg ht hst
      obtain ⟨hI, hT⟩ := step_full hs.shared (hs.threads t (List.mem_of_getElem? ht)) (hg t ht) hst
      exact ⟨hI, hT, fun _ hu => hu⟩
    · rw [hnew]
      exact fun u hu => absurd hu List.not_mem_nil
  exact hinv.shared

/-- **The admin counts match the visible history.**  Start from a store without empty call groups (a
fresh one is).  In every run of the service in which the model never ends with `tool_calls` and an
empty list of calls, the summary of each conversation has as many turns of the guest and of the
assistant as messages are visible, and as many calls as its counts by name add up to; and the metrics
are, in every additive counter, the summary of all conversations one after the other.  Only the first
part needs the condition on the run: it fails in a state just when a message with an empty list of
calls is stored. -/
theorem counts_match (cfg : Settings) (loads : String → Option Json) {s s' : State}
    {as : List (PoolAct _ Env Op)} (hnew : s.threads = []) (h0 : FullStore s.shared) :
    (∀ g, (s'.shared.store.summary loads g).turns
          + (s'.shared.store.summary loads g).assistant_turns =
        (s'.shared.store.getVisible g).length ↔
      ∀ m ∈ s'.shared.store.messages g, m.emptyGroup = false) ∧
    ((service cfg).machine.Runs (Local Filled) s as s' →
      ∀ g, (s'.shared.store.summary loads g).turns
          + (s'.shared.store.summary loads g).assistant_turns =
        (s'.shared.store.getVisible g).length) ∧
    (∀ g, (s'.shared.store.summary loads g).tool_calls_total =
      Counter.total (s'.shared.store.summary loads g).tool_calls_by_name) ∧
    (buildMetrics loads s'.shared.store).AddsUpTo
      (summarizeConversation loads s'.shared.store.concatenation) := by
  refine ⟨turns_eq_iff loads _, ?_, fun g => ?_, buildMetrics_addsUpTo loads _⟩
  · intro hfilled g
    exact (turns_eq_iff loads _ g).mpr (run_full hnew h0 hfilled g)
  · exact (tally_of loads ((s'.shared.store.messages g).map Message.dict)).sum.symm

theorem counts_match_tool_round :
    ∃ s, (service plainSettings).machine.Runs free freshService (toolRound ++ toolAnswer) s ∧
      (s.shared.store.messages "ana").length = 4 ∧
      (s.shared.store.summary (fun _ => none) "ana").turns
          + (s.shared.store.summary (fun _ => none) "ana").assistant_turns =
        (s.shared.store.getVisible "ana").length := by
  have hrun : (service plainSettings).machine.Runs (Local Filled) freshService
      (toolRound ++ toolAnswer) _ := Machine.runs_iff_runG.mpr rfl
  have hfree : (service plainSettings).machine.Runs free freshService (toolRound ++ toolAnswer) _ :=
    hrun.mono fun _ _ _ => trivial
  have hnew : freshService.threads = [] := rfl
  have h0 : FullStore freshService.shared := fun _ _ hm => absurd hm List.not_mem_nil
  exact ⟨_, hfree, rfl, (counts_match plainSettings _ hnew h0).2.1 hrun "ana"⟩

/-- the model ends with `tool_calls` and names no call, and replies when it is asked again -/
def noCalls : List (PoolAct (ChatRequest × Bool) Env Op) :=
  [.spawn (⟨"hi", some "ana"⟩, false), .step 0 .go, .step 0 (.response ⟨true, none, some []⟩),
    .step 0 (.response ⟨false, some "Hello.", none⟩)]

/-- one turn more is counted than the history shows -/
theorem empty_group :
    ∃ s, (service plainSettings).machine.run freshService noCalls = some s ∧
      (s.shared.store.summary (fun _ => none) "ana").turns
          + (s.shared.store.summary (fun _ => none) "ana").assistant_turns =
        (s.shared.store.getVisible "ana").length + 1 :=
  ⟨_, rfl, rfl⟩

end Parrot
