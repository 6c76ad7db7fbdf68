import Purrlington.Parrot.Chat
import Mathlib.Data.List.Dedup
import Mathlib.Data.List.Perm.Basic

/-!
# Parrot: stored conversations as tool-calling transcripts

* `pending`, `WellFormed`    the call ids that are still to be answered, and a transcript that
                             answers every call group before it goes on;
* `wellFormed_group`         what this says about an assistant message with tool calls;
* `wellFormed_append`, `wellFormed_trim`   transcripts under appending a turn and under trimming;
* `Uncut`                    the condition: the turn of a guest is not cut short inside a round of
                             tools of chat_stream, and the ids of one response are distinct;
* `stored_wellFormed`        in every run under it every stored conversation is well formed;
* `dangling_call`            a run that stores a call without its result.
-/

set_option linter.unusedSectionVars false

namespace Parrot
open SM

/-! ## transcripts -/

/-- read a message, owing a result for each of these call ids: the ids owed afterwards -/
def react (owed : List String) : Message → Option (List String)
  | .tool id _ => if id ∈ owed then some (owed.erase id) else none
  | .assistant _ (some calls) => if owed = [] then some (calls.map ToolCall.id).dedup else none
  | _ => if owed = [] then some [] else none

def pending (owed : List String) (ms : List Message) : Option (List String) := ms.foldlM react owed

/-- nothing is owed at the end, and nothing was answered that was not owed -/
def WellFormed (ms : List Message) : Prop := pending [] ms = some []

instance (ms : List Message) : Decidable (WellFormed ms) := inferInstanceAs (Decidable (_ = _))

theorem pending_append (owed : List String) (a b : List Message) :
    pending owed (a ++ b) = (pending owed a).bind fun o => pending o b := List.foldlM_append

theorem pending_cons (owed : List String) (m : Message) (ms : List Message) :
    pending owed (m :: ms) = (react owed m).bind fun o => pending o ms := List.foldlM_cons

theorem pending_snoc {ms : List Message} {m : Message} {o o' : List String}
    (h : pending [] ms = some o) (hm : react o m = some o') :
    pending [] (ms ++ [m]) = some o' := by
  rw [pending_append, h, Option.bind_some, pending_cons, hm]
  rfl

theorem wellFormed_append {a b : List Message} (ha : WellFormed a) (hb : WellFormed b) :
    WellFormed (a ++ b) := by
  unfold WellFormed at ha ⊢
  rw [pending_append, ha]
  exact hb

/-- what stands from a user message on is a transcript by itself -/
theorem wellFormed_from_user {pre rest : List Message} {c : String} {b : Bool}
    (h : WellFormed (pre ++ .user c b :: rest)) : WellFormed (.user c b :: rest) := by
  unfold WellFormed at h
  rw [pending_append] at h
  obtain ⟨o, _, h⟩ := Option.bind_eq_some_iff.mp h
  have h' := h
  rw [pending_cons] at h'
  obtain ⟨o', ho, _⟩ := Option.bind_eq_some_iff.mp h'
  obtain ⟨rfl, _⟩ := Option.ite_none_right_eq_some.mp ho
  exact h

theorem wellFormed_trim {ms : List Message} (h : WellFormed ms) (max_messages : Nat) :
    WellFormed (trim max_messages ms) := by
  rcases trim_suffix max_messages ms with e | ⟨pre, e, hu⟩
  · rw [e]
    exact h
  · rcases hu with hu | ⟨c, b, rest, hu⟩
    · rw [hu]
      rfl
    · rw [hu] at e ⊢
      exact wellFormed_from_user (e ▸ h)

/-- the results of a call group, as id and content -/
def results (rs : List (String × String)) : List Message := rs.map fun p => .tool p.1 p.2

/-- what is owed is answered first, in any order, each id once -/
theorem pending_iff_group (owed : List String) (ms : List Message) :
    pending owed ms = some [] ↔ ∃ rs rest, ms = results rs ++ rest ∧
      (rs.map Prod.fst).Perm owed ∧ WellFormed rest := by
  induction ms generalizing owed with
  | nil =>
    constructor
    · intro h
      obtain rfl : owed = [] := Option.some.inj h
      exact ⟨[], [], rfl, .nil, rfl⟩
    · rintro ⟨rs, rest, e, hp, _⟩
      obtain ⟨hrs, _⟩ := List.append_eq_nil_iff.mp e.symm
      obtain rfl := List.map_eq_nil_iff.mp hrs
      obtain rfl := List.nil_perm.mp hp
      rfl
  | cons m ms ih =>
    -- a group with no results is a transcript that starts here
    have here : ∀ rest, m :: ms = results [] ++ rest → ([] : List String).Perm owed →
        WellFormed rest → pending owed (m :: ms) = some [] := by
      rintro rest rfl hp hw
      obtain rfl := List.nil_perm.mp hp
      exact hw
    cases m with
    | tool id c =>
      rw [pending_cons, Option.bind_eq_some_iff]
      constructor
      · rintro ⟨o, ho, h⟩
        obtain ⟨hid, ho⟩ := Option.ite_none_right_eq_some.mp ho
        obtain rfl := Option.some.inj ho
        obtain ⟨rs, rest, rfl, hp, hw⟩ := (ih _).mp h
        exact ⟨(id, c) :: rs, rest, rfl, List.cons_perm_iff_perm_erase.mpr ⟨hid, hp⟩, hw⟩
      · rintro ⟨rs, rest, e, hp, hw⟩
        cases rs with
        | nil => exact Option.bind_eq_some_iff.mp (here rest e hp hw)
        | cons q rs =>
          obtain ⟨e1, e2⟩ := List.cons.inj e
          obtain ⟨rfl, rfl⟩ := Message.tool.inj e1
          obtain ⟨hid, hp⟩ := List.cons_perm_iff_perm_erase.mp hp
          exact ⟨owed.erase q.1, if_pos hid, (ih _).mpr ⟨rs, rest, e2, hp, hw⟩⟩
    | _ =>
      constructor
      · intro h
        have h' := h
        rw [pending_cons] at h'
        obtain ⟨o, ho, _⟩ := Option.bind_eq_some_iff.mp h'
        have hn : owed = [] := by
          unfold react at ho
          split at ho <;> first | exact (Option.ite_none_right_eq_some.mp ho).1 | contradiction
        subst hn
        exact ⟨[], _, rfl, .nil, h⟩
      · rintro ⟨rs, rest, e, hp, hw⟩
        cases rs with
        | nil => exact here rest e hp hw
        | cons q rs => exact absurd (List.cons.inj e).1 nofun

/-- a call group is followed by one result for each of its ids, and then by a transcript -/
theorem wellFormed_group (content : Option String) (calls : List ToolCall) (ms : List Message) :
    WellFormed (.assistant content (some calls) :: ms) ↔ ∃ rs rest, ms = results rs ++ rest ∧
      (rs.map Prod.fst).Perm (calls.map ToolCall.id).dedup ∧ WellFormed rest := by
  unfold WellFormed
  rw [pending_cons]
  exact pending_iff_group _ ms

/-! ## the condition -/

/-- the request has a session guest -/
def Thread.Kept (t : Thread) : Prop := t.req.session ≠ none

instance (t : Thread) : Decidable t.Kept := inferInstanceAs (Decidable (_ ≠ _))

/-- the ids of the calls of one response are distinct, and a round of tools of chat_stream is
neither cut nor failed -/
def Pc.uncut : Pc → Op → Bool
  | .completion _, .response r => ((r.tool_calls.getD []).map ToolCall.id).Nodup
  | .chunks _ _ fragments, .exhausted => ((toolCalls fragments).map ToolCall.id).Nodup
  | .callStatus _ _ _, .cut => false
  | .runTool _ _ _, .raise => false
  | .runTool _ _ _, .cut => false
  | .resultStatus _ _ _ _, .cut => false
  | _, _ => true

/-- the condition, on the requests whose turn is kept -/
def Uncut (t : Thread) (op : Op) : Prop := t.Kept → t.pc.uncut op = true

instance (t : Thread) (op : Op) : Decidable (Uncut t op) := inferInstanceAs (Decidable (_ → _))

/-! ## the invariant -/

namespace Pc

/-- the calls of the round that have no result in the turn yet -/
def owed : Pc → List String
  | .tools _ call rest => (call :: rest).map ToolCall.id
  | .callStatus _ call rest => (call :: rest).map ToolCall.id
  | .runTool _ call rest => (call :: rest).map ToolCall.id
  | .resultStatus _ call rest _ => (call :: rest).map ToolCall.id
  | _ => []

end Pc

/-- every stored conversation is a transcript -/
def StoreOk (c : Shared) : Prop := ∀ g, WellFormed (c.store.messages g)

/-- the turn so far is a transcript but for what is owed -/
def TurnOk (t : Thread) (owed : List String) : Prop :=
  t.Kept → pending [] t.new_messages = some owed

/-- a request that has not ended owes what its place in the code says -/
def ThreadOk (t : Thread) : Prop := t.pc = .ended ∨ TurnOk t t.pc.owed

theorem append_ok {c : Shared} (h : StoreOk c) {g : String} {ms : List Message}
    (hms : WellFormed ms) (x : String) :
    WellFormed ((c.store.append c.now g ms).messages x) := by
  by_cases hx : x = g
  · subst hx
    rw [ConversationStore.append_messages_self]
    exact wellFormed_trim (wellFormed_append (h x) hms) _
  · rw [ConversationStore.append_messages_ne _ _ hx]
    exact h x

theorem persisted_ok {c : Shared} {t : Thread} (h : StoreOk c) (ht : TurnOk t []) :
    StoreOk (t.persisted c).1 ∧ ThreadOk (t.persisted c).2 := by
  refine ⟨fun g => ?_, .inl rfl⟩
  show WellFormed ((c.persist t).store.messages g)
  unfold Shared.persist
  cases hs : t.req.session with
  | none => exact h g
  | some x => exact append_ok h (ht (by unfold Thread.Kept; rw [hs]; nofun)) g

section
variable {c : Shared} {t : Thread} {o : List String}

theorem TurnOk.say (h : TurnOk t o) {m : Message} {o' : List String}
    (hm : t.Kept → react o m = some o') (pc : Pc) : TurnOk (t.say m pc) o' :=
  fun hk => pending_snoc (h hk) (hm hk)

theorem TurnOk.conclude (h : TurnOk t []) (reply : String) (pc : Pc) :
    TurnOk (t.conclude reply pc) [] :=
  fun hk => pending_snoc (h hk) rfl

theorem react_result (call : ToolCall) (rest : List ToolCall) (content : String) :
    react ((call :: rest).map ToolCall.id) (.tool call.id content) =
      some (rest.map ToolCall.id) := by
  rw [List.map_cons, react, if_pos List.mem_cons_self, List.erase_cons_head]

theorem react_calls (content : Option String) {calls : List ToolCall}
    (h : (calls.map ToolCall.id).Nodup) :
    react [] (.assistant content (some calls)) = some (calls.map ToolCall.id) := by
  rw [react, if_pos rfl, h.dedup]

theorem reply_ok (h : StoreOk c) (ht : TurnOk t []) (text : String) :
    StoreOk (t.reply c text).1 ∧ ThreadOk (t.reply c text).2 :=
  persisted_ok h (ht.conclude text .ended)

theorem nextRound_ok (h : StoreOk c) (ht : TurnOk t []) (round : Nat) :
    StoreOk (t.nextRound c round).1 ∧ ThreadOk (t.nextRound c round).2 := by
  unfold Thread.nextRound
  split
  · exact ⟨h, .inr ht⟩
  · exact reply_ok h ht FALLBACK

theorem nextStreamRound_ok (ht : TurnOk t []) (round : Nat) : ThreadOk (t.nextStreamRound round) := by
  unfold Thread.nextStreamRound
  split
  · exact .inr ht
  · exact .inr (ht.conclude FALLBACK .ended)

theorem answered_ok (h : StoreOk c) (ht : TurnOk t []) (round : Nat) {r : Completion}
    (hr : t.Kept → ((r.tool_calls.getD []).map ToolCall.id).Nodup) :
    StoreOk (t.answered c round r).1 ∧ ThreadOk (t.answered c round r).2 := by
  unfold Thread.answered
  split
  · split
    · exact ⟨h, .inl rfl⟩
    · exact nextRound_ok h (ht.say (fun _ => rfl) .ended) round
    · rename_i call rest hcalls
      rw [hcalls] at hr
      exact ⟨h, .inr (ht.say (fun hk => react_calls _ (hr hk)) (.tools round call rest))⟩
  · exact reply_ok h ht _

theorem toolDone_ok (h : StoreOk c) (round : Nat) (call : ToolCall) (rest : List ToolCall)
    (ht : TurnOk t ((call :: rest).map ToolCall.id)) (content : String) :
    StoreOk (t.toolDone c round call rest content).1 ∧
      ThreadOk (t.toolDone c round call rest content).2 := by
  have hsay := fun pc => ht.say (fun _ => react_result call rest content) pc
  cases rest with
  | nil => exact nextRound_ok h (hsay .ended) round
  | cons next rest => exact ⟨h, .inr (hsay _)⟩

theorem onResult_ok (round : Nat) (call : ToolCall) (rest : List ToolCall)
    (ht : TurnOk t ((call :: rest).map ToolCall.id)) (content : String) :
    ThreadOk (t.onResult round call rest content) := by
  have hsay := ht.say (fun _ => react_result call rest content) .ended
  cases rest with
  | nil => exact nextStreamRound_ok hsay round
  | cons next rest => exact .inr hsay

theorem onExhausted_ok (ht : TurnOk t []) (round : Nat) (content : String)
    {fragments : Dict Nat Slot} (hf : t.Kept → ((toolCalls fragments).map ToolCall.id).Nodup) :
    ThreadOk (t.onExhausted round content fragments) := by
  unfold Thread.onExhausted
  split
  · exact .inr (ht.conclude _ .ended)
  · rename_i call rest hcalls
    rw [hcalls] at hf
    exact .inr (ht.say (fun hk => react_calls _ (hf hk)) .ended)

theorem onChunk_ok (ht : TurnOk t []) (round : Nat) (content : String) (fragments : Dict Nat Slot)
    (d : Delta) : ThreadOk (t.onChunk round content fragments d) := by
  unfold Thread.onChunk
  split <;> exact .inr ht

theorem begin_ok (cfg : Settings) (h : StoreOk c) :
    StoreOk (t.begin cfg c).1 ∧ ThreadOk (t.begin cfg c).2 := by
  unfold Thread.begin
  have owed : ∀ b : Bool, Pc.owed (if b then .create 0 else .completion 0) = [] := by
    intro b
    cases b <;> rfl
  cases t.req.session with
  | none =>
    refine ⟨h, .inr ?_⟩
    intro _
    show pending [] [_] = some (Pc.owed (if t.streaming then _ else _))
    rw [owed]
    rfl
  | some g =>
    refine ⟨fun x => ?_, .inr fun _ => ?_⟩
    · show WellFormed ((c.store.getMessages c.now g).2.messages x)
      rw [ConversationStore.getMessages_messages]
      exact h x
    · show pending [] [_] = some (Pc.owed (if t.streaming then _ else _))
      rw [owed]
      rfl

/-- where a stream may end, nothing is owed -/
theorem owed_of_persists {pc : Pc} {op : Op} (h : pc.persists op = true)
    (hg : pc.uncut op = true) : pc.owed = [] := by
  cases pc with
  | tools round call rest => exact absurd h Bool.false_ne_true
  | callStatus round call rest =>
    obtain rfl : op = .cut := of_decide_eq_true h
    exact absurd hg Bool.false_ne_true
  | runTool round call rest =>
    obtain rfl : op = .cut := of_decide_eq_true h
    exact absurd hg Bool.false_ne_true
  | resultStatus round call rest content =>
    obtain rfl : op = .cut := of_decide_eq_true h
    exact absurd hg Bool.false_ne_true
  | _ => rfl

theorem owed_of_fails {pc : Pc} (h : pc.fails = true) (hg : pc.uncut .raise = true) :
    pc.owed = [] := by
  cases pc with
  | create round => rfl
  | chunks round content fragments => rfl
  | runTool round call rest => exact absurd hg Bool.false_ne_true
  | _ => exact absurd h Bool.false_ne_true

theorem step_ok {cfg : Settings} {p : Shared × Thread} {op : Op} (h : StoreOk c)
    (ht : ThreadOk t) (hg : Uncut t op) (hst : t.step cfg c op = some p) :
    StoreOk p.1 ∧ ThreadOk p.2 := by
  have hmoves := Thread.moves_of_step hst
  have hturn : t.pc ≠ .ended → TurnOk t t.pc.owed := ht.resolve_left
  rw [Uncut] at hg
  generalize t.pc = pc at hmoves hturn hg
  cases hmoves with
  | begin => exact begin_ok cfg h
  | answered round r =>
    exact answered_ok h (hturn nofun) round fun hk => of_decide_eq_true (hg hk)
  | toolDone round call rest content => exact toolDone_ok h round call rest (hturn nofun) content
  | dropped _ => exact ⟨h, .inl rfl⟩
  | opened round => exact ⟨h, .inr (hturn nofun)⟩
  | chunk round content fragments d =>
    exact ⟨h, onChunk_ok (hturn nofun) round content fragments d⟩
  | exhausted round content fragments =>
    exact ⟨h, onExhausted_ok (hturn nofun) round content fun hk => of_decide_eq_true (hg hk)⟩
  | merged round content fragments tcs => exact ⟨h, .inr (hturn nofun)⟩
  | announced round call rest => exact ⟨h, .inr (hturn nofun)⟩
  | ran round call rest content => exact ⟨h, .inr (hturn nofun)⟩
  | result round call rest content => exact ⟨h, onResult_ok round call rest (hturn nofun) content⟩
  | sent e left => exact ⟨h, .inr (hturn nofun)⟩
  | failed hfails =>
    refine ⟨h, .inr fun hk => ?_⟩
    have howed := hturn (by rintro rfl; exact absurd hfails Bool.false_ne_true) hk
    rwa [owed_of_fails hfails (hg hk)] at howed
  | persisted hends =>
    refine persisted_ok h fun hk => ?_
    have howed := hturn (by rintro rfl; exact absurd hends Bool.false_ne_true) hk
    rwa [owed_of_persists hends (hg hk)] at howed

end

theorem env_ok {c : Shared} (h : StoreOk c) (e : Env) : StoreOk (c.env e) := by
  cases e with
  | tick d => exact h
  | cleanup =>
    intro g
    rcases c.store.cleanup_messages c.now g with hm | hm
    · show WellFormed ((c.store.cleanup c.now).messages g)
      rw [hm]
      exact h g
    · show WellFormed ((c.store.cleanup c.now).messages g)
      rw [hm]
      rfl

/-- **Stored conversations are transcripts.**  Start from a store whose conversations are well
formed (a fresh one is).  In every run of the service in which no kept turn of chat_stream is cut or
fails inside a round of tools and the model does not repeat a call id within a response, the
messages that `get_messages` returns for any guest are well formed in every state. -/
theorem stored_wellFormed (cfg : Settings) {s s' : State} {as : List (PoolAct _ Env Op)}
    (hnew : s.threads = []) (h0 : StoreOk s.shared)
    (hrun : (service cfg).machine.Runs (Local Uncut) s as s') (now : Int) (g : String) :
    WellFormed (s'.shared.store.getMessages now g).1 := by
  have hinv : Sys.Holds StoreOk (fun _ => ThreadOk) s' := by
    refine Sys.inv hrun (fun _ _ _ => .inr fun _ => rfl) ?_ ?_ ⟨h0, ?_⟩
    · intro c e c' hc he
      obtain rfl := Option.some.inj he
      exact ⟨env_ok hc e, fun _ hu => hu⟩
    · intro s i op t c' t' hs hg ht hst
      obtain ⟨hI, hT⟩ := step_ok hs.shared (hs.threads t (List.mem_of_getElem? ht)) (hg t ht) hst
      exact ⟨hI, hT, fun _ hu => hu⟩
    · rw [hnew]
      nofun
  rw [ConversationStore.messages_getMessages]
  exact hinv.shared g

/-! ## a round of tools -/

/-- a guest asks, the model calls a tool, and the `tool_call` event is sent -/
def toolRound : List (PoolAct (ChatRequest × Bool) Env Op) :=
  [.spawn (⟨"rooms?", some "ana"⟩, true), .step 0 .go, .step 0 .opened,
    .step 0 (.chunk ⟨none, [⟨0, some "call_a", some "get_hotel_rooms", none⟩]⟩),
    .step 0 .exhausted]

/-- the tool answers, the model replies, the stream ends -/
def toolAnswer : List (PoolAct (ChatRequest × Bool) Env Op) :=
  [.step 0 .go, .step 0 (.toolResult "[]"), .step 0 .go, .step 0 .opened,
    .step 0 (.chunk ⟨some "None.", []⟩), .step 0 .go, .step 0 .exhausted, .step 0 .go, .step 0 .go]

theorem stored_wellFormed_tool_round :
    ∃ s, (service plainSettings).machine.Runs (Local Uncut) freshService
        (toolRound ++ toolAnswer) s ∧
      (s.shared.store.messages "ana").length = 4 ∧
      WellFormed (s.shared.store.getMessages 0 "ana").1 := by
  have hrun : (service plainSettings).machine.Runs (Local Uncut) freshService
      (toolRound ++ toolAnswer) _ := Machine.runs_iff_runG.mpr rfl
  have hnew : freshService.threads = [] := rfl
  have h0 : StoreOk freshService.shared := fun _ => rfl
  exact ⟨_, hrun, rfl, stored_wellFormed plainSettings hnew h0 hrun 0 "ana"⟩

/-- the client disconnects at the `tool_call` event, and the turn is persisted as it is -/
theorem dangling_call :
    ∃ s, (service plainSettings).machine.run freshService (toolRound ++ [.step 0 .cut]) = some s ∧
      ¬ WellFormed (s.shared.store.getMessages 0 "ana").1 :=
  ⟨_, rfl, by decide⟩

end Parrot
