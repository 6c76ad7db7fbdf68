import Purrlington.Parrot.Transcript
import Purrlington.Lib.Fragments

/-!
# Parrot: the same turn, whole and streamed

* `talk`              a request alone, with what it asks of the model and of the tools;
* `Round`             an answer of the model with tool calls, and what the tools return;
* `SplitCalls`, `SplitText`   the chunks of an answer: the fragments of one call in their order,
                      those of different calls interleaved in any way;
* `toolCalls_split`   the slots give the calls back;
* `WholeOps`, `StreamOps`     the same answers for chat and for chat_stream;
* `same_turn`         the two ask the same, end with the same reply and store the same messages;
* `turns_differ`      where an empty name, a name in pieces or an empty text comes with the calls.
-/

set_option linter.unusedSectionVars false

namespace Parrot
open SM

/-! ## fragments -/

/-- what `chat_stream` does to the slot of a fragment -/
def Slot.add (slot : Slot) (tc : ToolDelta) : Slot where
  id := if truthy tc.id then tc.id else slot.id
  name := if truthy tc.name then tc.name else slot.name
  args := slot.args ++ tc.arguments.getD ""

theorem mergeFragments_eq (tcs : List ToolDelta) :
    mergeFragments .empty tcs = Fragments.assemble ToolDelta.index Slot.add {} tcs := rfl

/-- the fragments of one call: its id and its name whole, its arguments in pieces -/
structure Pieces (call : ToolCall) (tcs : List ToolDelta) : Prop where
  id : ∃ tc ∈ tcs, tc.id = some call.id
  id_whole : ∀ tc ∈ tcs, truthy tc.id = true → tc.id = some call.id
  name : ∃ tc ∈ tcs, tc.name = call.name
  name_whole : ∀ tc ∈ tcs, truthy tc.name = true → tc.name = call.name
  arguments : String.join (tcs.map fun tc => tc.arguments.getD "") = call.arguments

/-- the chunks of an answer with tool calls and no text -/
structure SplitCalls (calls : List ToolCall) (ds : List Delta) : Prop where
  no_text : ∀ d ∈ ds, truthy d.content = false
  index_lt : ∀ tc ∈ ds.flatMap Delta.tool_calls, tc.index < calls.length
  pieces : ∀ k call, calls[k]? = some call →
    Pieces call ((ds.flatMap Delta.tool_calls).filter fun tc => tc.index = k)

/-- the chunks of a text -/
structure SplitText (content : Option String) (ds : List Delta) : Prop where
  no_calls : ∀ d ∈ ds, d.tool_calls = []
  text : String.join (ds.map fun d => d.content.getD "") = content.getD ""

/-- a field that keeps what it was last given -/
def overwrite (x y : Option String) : Option String := if truthy y then y else x

theorem foldl_overwrite {v : Option String} {ys : List (Option String)}
    (h : ∀ y ∈ ys, truthy y = true → y = v) {x : Option String}
    (hv : x = v ∨ ∃ y ∈ ys, truthy y = true) : ys.foldl overwrite x = v := by
  induction ys generalizing x with
  | nil =>
    rcases hv with hv | ⟨y, hy, _⟩
    · exact hv
    · exact absurd hy (by simp)
  | cons y ys ih =>
    have hys : ∀ z ∈ ys, truthy z = true → z = v := fun z hz => h z (List.mem_cons_of_mem _ hz)
    rw [List.foldl_cons, overwrite]
    split
    · rename_i hy
      exact ih hys (.inl (h y List.mem_cons_self hy))
    · rename_i hy
      apply ih hys
      rcases hv with hv | ⟨z, hz, ht⟩
      · exact .inl hv
      · rcases List.mem_cons.mp hz with rfl | hz
        · exact absurd ht hy
        · exact .inr ⟨z, hz, ht⟩

theorem foldl_add (tcs : List ToolDelta) (slot : Slot) :
    tcs.foldl Slot.add slot =
      { id := (tcs.map ToolDelta.id).foldl overwrite slot.id
        name := (tcs.map ToolDelta.name).foldl overwrite slot.name
        args := slot.args ++ String.join (tcs.map fun tc => tc.arguments.getD "") } := by
  induction tcs generalizing slot with
  | nil =>
    simp only [List.map_nil, List.foldl_nil, String.join_nil, String.append_empty]
  | cons tc tcs ih =>
    rw [List.foldl_cons, ih, List.map_cons, List.map_cons, List.map_cons, String.join_cons,
      ← String.append_assoc]
    rfl

/-- the slot of a call at the end -/
def ToolCall.slot (call : ToolCall) : Slot := ⟨some call.id, call.name, call.arguments⟩

theorem Pieces.slot {call : ToolCall} {tcs : List ToolDelta} (h : Pieces call tcs)
    (hid : call.id ≠ "") (hname : truthy call.name = true) : tcs.foldl Slot.add {} = call.slot := by
  have htruthy : truthy (some call.id) = true := by simpa [truthy] using hid
  rw [foldl_add, ToolCall.slot]
  congr 1
  · apply foldl_overwrite
    · intro y hy ht
      obtain ⟨tc, htc, rfl⟩ := List.mem_map.mp hy
      exact h.id_whole tc htc ht
    · obtain ⟨tc, htc, he⟩ := h.id
      exact .inr ⟨tc.id, List.mem_map_of_mem htc, by rw [he]; exact htruthy⟩
  · apply foldl_overwrite
    · intro y hy ht
      obtain ⟨tc, htc, rfl⟩ := List.mem_map.mp hy
      exact h.name_whole tc htc ht
    · obtain ⟨tc, htc, he⟩ := h.name
      exact .inr ⟨tc.name, List.mem_map_of_mem htc, by rw [he]; exact hname⟩
  · exact (String.empty_append).trans h.arguments

/-- the slots of all calls in the order of their indices -/
def slots (calls : List ToolCall) : List (Nat × Slot) :=
  calls.zipIdx.map fun p => (p.2, p.1.slot)

theorem slots_sorted (calls : List ToolCall) :
    (slots calls).Pairwise fun a b => a.1 < b.1 := by
  rw [slots, List.pairwise_map]
  have hkeys : (calls.zipIdx.map Prod.snd).Pairwise (· < ·) := by
    rw [List.zipIdx_map_snd]
    exact List.pairwise_lt_range'
  exact List.pairwise_map.mp hkeys

theorem mem_slots {calls : List ToolCall} {k : Nat} {slot : Slot} :
    (k, slot) ∈ slots calls ↔ ∃ call, calls[k]? = some call ∧ slot = call.slot := by
  rw [slots, List.mem_map]
  constructor
  · rintro ⟨⟨call, j⟩, hmem, he⟩
    obtain ⟨rfl, rfl⟩ := Prod.mk.inj he
    exact ⟨call, List.mem_zipIdx_iff_getElem?.mp hmem, rfl⟩
  · rintro ⟨call, hcall, rfl⟩
    exact ⟨(call, k), List.mem_zipIdx_iff_getElem?.mpr hcall, rfl⟩

theorem get?_split {calls : List ToolCall} {ds : List Delta} (h : SplitCalls calls ds)
    (hid : ∀ call ∈ calls, call.id ≠ "") (hname : ∀ call ∈ calls, truthy call.name = true)
    (k : Nat) (slot : Slot) :
    (mergeFragments .empty (ds.flatMap Delta.tool_calls)).get? k = some slot ↔
      ∃ call, calls[k]? = some call ∧ slot = call.slot := by
  rw [mergeFragments_eq, Fragments.get?_assemble]
  cases hk : calls[k]? with
  | none =>
    -- no fragment has an index without a call
    have hnone : (ds.flatMap Delta.tool_calls).filter (fun tc => tc.index = k) = [] := by
      apply List.filter_eq_nil_iff.mpr
      intro tc htc hi
      have hlt := h.index_lt tc htc
      rw [of_decide_eq_true hi] at hlt
      rw [List.getElem?_eq_none_iff] at hk
      omega
    rw [if_pos hnone]
    constructor
    · intro he
      exact absurd he (by simp)
    · rintro ⟨call, he, _⟩
      exact absurd he (by simp)
  | some call =>
    have hp := h.pieces k call hk
    have hmem : call ∈ calls := List.mem_of_getElem? hk
    have hne : (ds.flatMap Delta.tool_calls).filter (fun tc => tc.index = k) ≠ [] := by
      obtain ⟨tc, htc, _⟩ := hp.id
      exact List.ne_nil_of_mem htc
    rw [if_neg hne, hp.slot (hid call hmem) (hname call hmem), Option.some_inj]
    constructor
    · intro he
      exact ⟨call, rfl, he.symm⟩
    · rintro ⟨call', he, rfl⟩
      rw [Option.some.inj he]

/-- **However the fragments of a round's calls are interleaved, the slots give the calls back.** -/
theorem toolCalls_split {calls : List ToolCall} {ds : List Delta} (h : SplitCalls calls ds)
    (hid : ∀ call ∈ calls, call.id ≠ "") (hname : ∀ call ∈ calls, truthy call.name = true) :
    toolCalls (mergeFragments .empty (ds.flatMap Delta.tool_calls)) = calls := by
  have hsorted := Dict.sorted_items (slots_sorted calls) fun k slot =>
    mem_slots.trans (get?_split h hid hname k slot).symm
  rw [toolCalls, hsorted, slots, List.map_map]
  have hback : calls.zipIdx.map Prod.fst = calls := List.zipIdx_map_fst 0 calls
  refine (List.map_congr_left ?_).trans hback
  rintro ⟨call, k⟩ hmem
  have hcall : call ∈ calls := List.mem_of_getElem? (List.mem_zipIdx_iff_getElem?.mp hmem)
  have htruthy : truthy (some call.id) = true := by simpa [truthy] using hid call hcall
  show ToolCall.mk (if truthy (some call.id) then call.id else _) call.name call.arguments = call
  rw [if_pos htruthy]

/-! ## a turn and what it asks -/

/-- the conversation shown to the model, or a tool call that is run -/
inductive Ask where
  | model (messages : List Message)
  | tool (call : ToolCall)

def Thread.asks (t : Thread) (op : Op) : List Ask :=
  match t.pc, op with
  | .completion _, .response _ => [.model t.messages]
  | .create _, .opened => [.model t.messages]
  | .tools _ call _, .toolResult _ => [.tool call]
  | .runTool _ call _, .toolResult _ => [.tool call]
  | _, _ => []

structure Talk where
  shared : Shared
  thread : Thread
  asks : List Ask

/-- a request that has the service for itself -/
def talk (cfg : Settings) : Machine Talk Op := fun s op =>
  (s.thread.step cfg s.shared op).map fun p => ⟨p.1, p.2, s.asks ++ s.thread.asks op⟩

section
variable {cfg : Settings} {c : Shared} {t : Thread} {l : List Ask} {ops : List Op} {s : Talk}

theorem talk_cons {op : Op} (c' : Shared) (t' : Thread) (h : t.step cfg c op = some (c', t'))
    (hrun : (talk cfg).Runs free ⟨c', t', l ++ t.asks op⟩ ops s) :
    (talk cfg).Runs free ⟨c, t, l⟩ (op :: ops) s := by
  refine ⟨trivial, ⟨c', t', l ++ t.asks op⟩, ?_, hrun⟩
  show (t.step cfg c op).map _ = _
  rw [h]
  rfl

theorem talk_quiet {op : Op} (c' : Shared) (t' : Thread) (h : t.step cfg c op = some (c', t'))
    (hasks : t.asks op = []) (hrun : (talk cfg).Runs free ⟨c', t', l⟩ ops s) :
    (talk cfg).Runs free ⟨c, t, l⟩ (op :: ops) s := by
  apply talk_cons c' t' h
  rw [hasks, List.append_nil]
  exact hrun

end

/-! ## a round of tools -/

/-- an answer with tool calls and no text, and what the tools return -/
structure Round where
  calls : List ToolCall
  results : List String
  nonempty : calls ≠ []
  returned : results.length = calls.length
  ids : ∀ call ∈ calls, call.id ≠ ""
  names : ∀ call ∈ calls, truthy call.name = true

def toolMessages (calls : List ToolCall) (results : List String) : List Message :=
  List.zipWith (fun call content => .tool call.id content) calls results

def Round.messages (r : Round) : List Message :=
  .assistant none (some r.calls) :: toolMessages r.calls r.results

def Round.asks (r : Round) (messages : List Message) : List Ask :=
  .model messages :: r.calls.map .tool

/-- the whole answer, with either finish reason -/
def Round.Whole (r : Round) (ops : List Op) : Prop :=
  ∃ finish, ops = .response ⟨finish, none, some r.calls⟩ :: r.results.map .toolResult

/-- the answer in chunks; each call has two events, the tool runs between them -/
def Round.Streamed (r : Round) (ops : List Op) : Prop :=
  ∃ ds, SplitCalls r.calls ds ∧ ops = .opened :: (ds.map .chunk ++ .exhausted ::
    r.results.flatMap fun content => [.go, .toolResult content, .go])

/-- the messages join the conversation and the turn -/
def Thread.hear (t : Thread) (ms : List Message) : Thread :=
  { t with messages := t.messages ++ ms, new_messages := t.new_messages ++ ms }

theorem Thread.hear_hear (t : Thread) (ms ms' : List Message) :
    (t.hear ms).hear ms' = t.hear (ms ++ ms') := by
  simp only [Thread.hear, List.append_assoc]

theorem Thread.nextRound_goto (c : Shared) (t : Thread) (pc : Pc) (n : Nat) :
    (t.goto pc).nextRound c n = t.nextRound c n := by
  unfold Thread.nextRound
  split <;> rfl

theorem Thread.nextStreamRound_goto (t : Thread) (pc : Pc) (n : Nat) :
    (t.goto pc).nextStreamRound n = t.nextStreamRound n := by
  unfold Thread.nextStreamRound
  split <;> rfl

section
variable (cfg : Settings) (c : Shared) (n : Nat)

theorem chat_tools (call : ToolCall) (rest : List ToolCall) (content : String)
    (contents : List String) (h : contents.length = rest.length) (t : Thread) (l : List Ask) :
    (talk cfg).Runs free ⟨c, t.goto (.tools n call rest), l⟩
      ((content :: contents).map .toolResult)
      ⟨((t.hear (toolMessages (call :: rest) (content :: contents))).nextRound c n).1,
        ((t.hear (toolMessages (call :: rest) (content :: contents))).nextRound c n).2,
        l ++ (call :: rest).map .tool⟩ := by
  induction rest generalizing call content contents t l with
  | nil =>
    obtain rfl := List.length_eq_zero_iff.mp h
    refine talk_cons ((t.hear [.tool call.id content]).nextRound c n).1
      ((t.hear [.tool call.id content]).nextRound c n).2 ?_ rfl
    apply congrArg some
    exact Thread.nextRound_goto c (t.hear [.tool call.id content]) .ended n
  | cons next rest ih =>
    obtain ⟨content', contents, rfl⟩ := List.exists_cons_of_length_eq_add_one h
    have hlen : contents.length = rest.length := Nat.succ.inj h
    refine talk_cons c ((t.hear [.tool call.id content]).goto (.tools n next rest)) rfl ?_
    have hrun := ih next content' contents hlen (t.hear [.tool call.id content]) (l ++ [.tool call])
    rw [Thread.hear_hear, List.append_assoc] at hrun
    exact hrun

theorem chat_round (r : Round) {ops : List Op} (hops : r.Whole ops) (t : Thread) (l : List Ask) :
    (talk cfg).Runs free ⟨c, t.goto (.completion n), l⟩ ops
      ⟨((t.hear r.messages).nextRound c n).1, ((t.hear r.messages).nextRound c n).2,
        l ++ r.asks t.messages⟩ := by
  obtain ⟨calls, results, hne, hret, hids, hnames⟩ := r
  obtain ⟨finish, rfl⟩ := hops
  obtain ⟨call, rest, rfl⟩ := List.exists_cons_of_ne_nil hne
  obtain ⟨content, contents, rfl⟩ := List.exists_cons_of_length_eq_add_one hret
  have hlen : contents.length = rest.length := Nat.succ.inj hret
  refine talk_cons c ((t.hear [.assistant none (some (call :: rest))]).goto (.tools n call rest))
    ?_ ?_
  · cases finish <;> rfl
  · have hrun := chat_tools cfg c n call rest content contents hlen
      (t.hear [.assistant none (some (call :: rest))]) (l ++ [.model t.messages])
    rw [Thread.hear_hear, List.append_assoc] at hrun
    exact hrun

/-! ### the same round in chunks -/

/-- the events of tool calls -/
def statuses (calls : List ToolCall) : List Event :=
  calls.flatMap fun call => [.toolCall call.name, .toolResult call.name]

/-- the thread has sent these events -/
def Thread.tell (t : Thread) (es : List Event) : Thread := { t with sent := t.sent ++ es }

theorem Thread.tell_tell (t : Thread) (es es' : List Event) :
    (t.tell es).tell es' = t.tell (es ++ es') := by
  simp only [Thread.tell, List.append_assoc]

theorem mergeFragments_append (fragments : Dict Nat Slot) (tcs tcs' : List ToolDelta) :
    mergeFragments fragments (tcs ++ tcs') = mergeFragments (mergeFragments fragments tcs) tcs' :=
  List.foldl_append

theorem onChunk_of_not_truthy {d : Delta} (h : truthy d.content = false) (t : Thread)
    (content : String) (fragments : Dict Nat Slot) :
    t.onChunk n content fragments d =
      t.goto (.chunks n content (mergeFragments fragments d.tool_calls)) := by
  unfold Thread.onChunk
  rw [h]
  rfl

theorem onChunk_of_truthy {d : Delta} (h : truthy d.content = true) (t : Thread)
    (content : String) (fragments : Dict Nat Slot) :
    t.onChunk n content fragments d = { t with
      streamed := t.streamed ++ d.content.getD "",
      sent := t.sent ++ [.token (d.content.getD "")],
      pc := .token n (content ++ d.content.getD "") fragments d.tool_calls } := by
  unfold Thread.onChunk
  rw [h]
  rfl

theorem stream_chunks (ds : List Delta) (hds : ∀ d ∈ ds, truthy d.content = false) (t : Thread)
    (content : String) (fragments : Dict Nat Slot) (l : List Ask) :
    (talk cfg).Runs free ⟨c, t.goto (.chunks n content fragments), l⟩ (ds.map .chunk)
      ⟨c, t.goto (.chunks n content (mergeFragments fragments (ds.flatMap Delta.tool_calls))),
        l⟩ := by
  induction ds generalizing fragments with
  | nil => rfl
  | cons d ds ih =>
    have hd : truthy d.content = false := hds d List.mem_cons_self
    apply talk_quiet c (t.goto (.chunks n content (mergeFragments fragments d.tool_calls))) ?_ rfl
    · rw [List.flatMap_cons, mergeFragments_append]
      exact ih (fun e he => hds e (List.mem_cons_of_mem _ he)) _
    · exact congrArg (fun u => some (c, u)) (onChunk_of_not_truthy n hd _ content fragments)

theorem stream_tool (call : ToolCall) (rest : List ToolCall) (content : String) (t : Thread)
    (l : List Ask) {ops : List Op} {s : Talk}
    (h : (talk cfg).Runs free
      ⟨c, (t.tell (statuses [call])).onResult n call rest content, l ++ [.tool call]⟩ ops s) :
    (talk cfg).Runs free ⟨c, t.emit (.toolCall call.name) (.callStatus n call rest), l⟩
      (.go :: .toolResult content :: .go :: ops) s := by
  have hsent : ((t.emit (.toolCall call.name) (.runTool n call rest)).emit (.toolResult call.name)
      (.resultStatus n call rest content)) =
        (t.tell (statuses [call])).goto (.resultStatus n call rest content) := by
    simp only [Thread.emit, Thread.tell, Thread.goto, statuses, List.append_assoc,
      List.flatMap_cons, List.flatMap_nil, List.append_nil, List.singleton_append]
  apply talk_quiet c (t.emit (.toolCall call.name) (.runTool n call rest)) rfl rfl
  apply talk_cons c ((t.tell (statuses [call])).goto (.resultStatus n call rest content))
  · exact congrArg (fun u => some (c, u)) hsent
  · exact talk_quiet c ((t.tell (statuses [call])).onResult n call rest content) rfl rfl h

theorem stream_tools (call : ToolCall) (rest : List ToolCall) (content : String)
    (contents : List String) (h : contents.length = rest.length) (t : Thread) (l : List Ask) :
    (talk cfg).Runs free ⟨c, t.emit (.toolCall call.name) (.callStatus n call rest), l⟩
      ((content :: contents).flatMap fun content => [.go, .toolResult content, .go])
      ⟨c, ((t.tell (statuses (call :: rest))).hear
          (toolMessages (call :: rest) (content :: contents))).nextStreamRound n,
        l ++ (call :: rest).map .tool⟩ := by
  induction rest generalizing call content contents t l with
  | nil =>
    obtain rfl := List.length_eq_zero_iff.mp h
    apply stream_tool
    have hend := Thread.nextStreamRound_goto
      ((t.tell (statuses [call])).hear [.tool call.id content]) .ended n
    exact congrArg (fun u => (⟨c, u, l ++ [.tool call]⟩ : Talk)) hend
  | cons next rest ih =>
    obtain ⟨content', contents, rfl⟩ := List.exists_cons_of_length_eq_add_one h
    have hlen : contents.length = rest.length := Nat.succ.inj h
    apply stream_tool
    have hrun := ih next content' contents hlen
      ((t.tell (statuses [call])).hear [.tool call.id content]) (l ++ [.tool call])
    rw [List.append_assoc] at hrun
    have hsame : ((((t.tell (statuses [call])).hear [.tool call.id content]).tell
        (statuses (next :: rest))).hear (toolMessages (next :: rest) (content' :: contents))) =
          (t.tell (statuses (call :: next :: rest))).hear
            (toolMessages (call :: next :: rest) (content :: content' :: contents)) := by
      simp only [Thread.hear, Thread.tell, List.append_assoc]
      rfl
    rw [hsame] at hrun
    exact hrun

theorem stream_round (r : Round) {ops : List Op} (hops : r.Streamed ops) (t : Thread)
    (l : List Ask) :
    (talk cfg).Runs free ⟨c, t.goto (.create n), l⟩ ops
      ⟨c, ((t.tell (statuses r.calls)).hear r.messages).nextStreamRound n,
        l ++ r.asks t.messages⟩ := by
  obtain ⟨calls, results, hne, hret, hids, hnames⟩ := r
  obtain ⟨ds, hsplit, rfl⟩ := hops
  have hback := toolCalls_split hsplit hids hnames
  obtain ⟨call, rest, rfl⟩ := List.exists_cons_of_ne_nil hne
  obtain ⟨content, contents, rfl⟩ := List.exists_cons_of_length_eq_add_one hret
  have hlen : contents.length = rest.length := Nat.succ.inj hret
  apply talk_cons c (t.goto (.chunks n "" .empty)) rfl
  refine (stream_chunks cfg c n ds hsplit.no_text t "" .empty (l ++ [.model t.messages])).append ?_
  apply talk_quiet c ((t.hear [.assistant none (some (call :: rest))]).emit (.toolCall call.name)
    (.callStatus n call rest)) ?_ rfl
  · have hrun := stream_tools cfg c n call rest content contents hlen
      (t.hear [.assistant none (some (call :: rest))]) (l ++ [.model t.messages])
    rw [List.append_assoc] at hrun
    have hsame : (((t.hear [.assistant none (some (call :: rest))]).tell
        (statuses (call :: rest))).hear (toolMessages (call :: rest) (content :: contents))) =
          (t.tell (statuses (call :: rest))).hear (.assistant none (some (call :: rest)) ::
            toolMessages (call :: rest) (content :: contents)) := by
      simp only [Thread.hear, Thread.tell, List.append_assoc]
      rfl
    rw [hsame] at hrun
    exact hrun
  · refine congrArg (fun u => some (c, u)) ?_
    show Thread.onExhausted _ n "" (mergeFragments .empty (ds.flatMap Delta.tool_calls)) = _
    unfold Thread.onExhausted
    rw [hback]
    rfl

end

/-! ## the last answer -/

/-- a chunk with text yields a `token` event before its fragments are merged -/
def chunkOps (d : Delta) : List Op := if truthy d.content then [.chunk d, .go] else [.chunk d]

/-- the answers to chat from round `n` on: rounds of tools, then a text if there are rounds left -/
def WholeOps (content : Option String) : Nat → List Round → List Op → Prop
  | n, [], ops =>
    if n < MAX_TOOL_ROUNDS then
      ∃ tool_calls, tool_calls.getD [] = [] ∧ ops = [.response ⟨false, content, tool_calls⟩]
    else ops = []
  | n, r :: rounds, ops =>
    ∃ ops₁ ops₂, r.Whole ops₁ ∧ WholeOps content (n + 1) rounds ops₂ ∧ ops = ops₁ ++ ops₂

/-- the same in chunks -/
def StreamOps (content : Option String) : Nat → List Round → List Op → Prop
  | n, [], ops =>
    if n < MAX_TOOL_ROUNDS then
      ∃ ds, SplitText content ds ∧ ops = .opened :: (ds.flatMap chunkOps ++ [.exhausted, .go, .go])
    else ops = [.go, .go, .go]
  | n, r :: rounds, ops =>
    ∃ ops₁ ops₂, r.Streamed ops₁ ∧ StreamOps content (n + 1) rounds ops₂ ∧ ops = ops₁ ++ ops₂

def joinedText (ds : List Delta) : String := String.join (ds.map fun d => d.content.getD "")

def tokens (ds : List Delta) : List Event :=
  ds.flatMap fun d => if truthy d.content then [.token (d.content.getD "")] else []

/-- the chunks of a text have been passed on -/
def Thread.pass (t : Thread) (ds : List Delta) : Thread :=
  { t with streamed := t.streamed ++ joinedText ds, sent := t.sent ++ tokens ds }

theorem joinedText_cons (d : Delta) (ds : List Delta) :
    joinedText (d :: ds) = d.content.getD "" ++ joinedText ds := String.join_cons

theorem tokens_cons (d : Delta) (ds : List Delta) : tokens (d :: ds) =
    (if truthy d.content then [.token (d.content.getD "")] else []) ++ tokens ds :=
  List.flatMap_cons

theorem Thread.pass_nil (t : Thread) : t.pass [] = t := by
  have htext : t.streamed ++ joinedText [] = t.streamed := String.append_empty
  have htokens : t.sent ++ tokens [] = t.sent := List.append_nil _
  rw [Thread.pass, htext, htokens]

theorem Thread.pass_cons_of_truthy (t : Thread) {d : Delta} (h : truthy d.content = true)
    (ds : List Delta) : t.pass (d :: ds) = Thread.pass { t with
      streamed := t.streamed ++ d.content.getD "",
      sent := t.sent ++ [.token (d.content.getD "")] } ds := by
  rw [Thread.pass, Thread.pass, joinedText_cons, tokens_cons, if_pos h, String.append_assoc,
    List.append_assoc]

theorem Thread.pass_cons_of_not_truthy (t : Thread) {d : Delta} (h : truthy d.content = false)
    (ds : List Delta) : t.pass (d :: ds) = t.pass ds ∧ joinedText (d :: ds) = joinedText ds := by
  have hempty : d.content.getD "" = "" := by simpa [truthy] using h
  have htext : joinedText (d :: ds) = joinedText ds := by
    rw [joinedText_cons, hempty, String.empty_append]
  refine ⟨?_, htext⟩
  rw [Thread.pass, Thread.pass, htext, tokens_cons, h]
  rfl

section
variable (cfg : Settings) (c : Shared) (n : Nat)

theorem stream_text_chunks (ds : List Delta) (hds : ∀ d ∈ ds, d.tool_calls = []) (t : Thread)
    (content : String) (fragments : Dict Nat Slot) (l : List Ask) :
    (talk cfg).Runs free ⟨c, t.goto (.chunks n content fragments), l⟩ (ds.flatMap chunkOps)
      ⟨c, (t.pass ds).goto (.chunks n (content ++ joinedText ds) fragments), l⟩ := by
  induction ds generalizing t content with
  | nil =>
    have hcontent : content ++ joinedText [] = content := String.append_empty
    rw [hcontent, t.pass_nil]
    exact rfl
  | cons d ds ih =>
    have hd : d.tool_calls = [] := hds d List.mem_cons_self
    have hrest : ∀ e ∈ ds, e.tool_calls = [] := fun e he => hds e (List.mem_cons_of_mem _ he)
    rw [List.flatMap_cons, chunkOps]
    cases ht : truthy d.content with
    | true =>
      have hrun := ih hrest { t with
        streamed := t.streamed ++ d.content.getD "",
        sent := t.sent ++ [.token (d.content.getD "")] } (content ++ d.content.getD "")
      rw [String.append_assoc, ← joinedText_cons, ← t.pass_cons_of_truthy ht ds] at hrun
      refine talk_quiet c { t with
        streamed := t.streamed ++ d.content.getD "",
        sent := t.sent ++ [.token (d.content.getD "")],
        pc := .token n (content ++ d.content.getD "") fragments [] } ?_ rfl ?_
      · have hchunk := onChunk_of_truthy n ht (t.goto (.chunks n content fragments)) content fragments
        rw [hd] at hchunk
        exact congrArg (fun u => some (c, u)) hchunk
      · exact talk_quiet c _ rfl rfl hrun
    | false =>
      obtain ⟨hpass, htext⟩ := t.pass_cons_of_not_truthy ht ds
      rw [hpass, htext]
      apply talk_quiet c (t.goto (.chunks n content fragments)) ?_ rfl
      · exact ih hrest t content
      · refine congrArg (fun u => some (c, u)) ?_
        unfold Thread.onChunk
        rw [ht, hd]
        rfl

theorem chat_text (content : Option String) (tool_calls : Option (List ToolCall))
    (h : tool_calls.getD [] = []) (t : Thread) (l : List Ask) :
    (talk cfg).Runs free ⟨c, t.goto (.completion n), l⟩ [.response ⟨false, content, tool_calls⟩]
      ⟨(t.reply c (if truthy content then content.getD "" else FALLBACK)).1,
        (t.reply c (if truthy content then content.getD "" else FALLBACK)).2,
        l ++ [.model t.messages]⟩ := by
  refine talk_cons _ _ ?_ rfl
  apply congrArg some
  unfold Thread.answered
  rw [h]
  rfl

theorem stream_closing (left : List Event) (t : Thread) (l : List Ask) :
    (talk cfg).Runs free ⟨c, t.goto (.closing left), l⟩ (List.replicate (left.length + 1) .go)
      ⟨c.persist t, (t.tell left).goto .ended, l⟩ := by
  induction left generalizing t with
  | nil =>
    have hsent : (t.tell []).goto .ended = t.goto .ended := by
      rw [Thread.tell, List.append_nil]
    rw [hsent]
    exact talk_quiet _ _ rfl rfl rfl
  | cons e left ih =>
    have hrun := ih (t.tell [e])
    rw [Thread.tell_tell] at hrun
    exact talk_quiet c ((t.tell [e]).goto (.closing left)) rfl rfl hrun

theorem onExhausted_empty (t : Thread) (content : String) {reply : String}
    (h : (if t.streamed = "" then FALLBACK else t.streamed) = reply) :
    t.onExhausted n content .empty =
      ((t.conclude reply .ended).tell [.done reply]).goto (.closing [.finished]) := by
  subst h
  rfl

theorem stream_text (content : Option String) {ds : List Delta} (h : SplitText content ds)
    (t : Thread) (hstreamed : t.streamed = "") (l : List Ask) (reply : String)
    (hreply : reply = if truthy content then content.getD "" else FALLBACK) :
    (talk cfg).Runs free ⟨c, t.goto (.create n), l⟩
      (.opened :: (ds.flatMap chunkOps ++ [.exhausted, .go, .go]))
      ⟨c.persist (t.conclude reply .ended),
        (((t.pass ds).conclude reply .ended).tell [.done reply, .finished]).goto .ended,
        l ++ [.model t.messages]⟩ := by
  have htext : (t.pass ds).streamed = content.getD "" := by
    show t.streamed ++ joinedText ds = _
    rw [hstreamed, String.empty_append]
    exact h.text
  have hsay : (if (t.pass ds).streamed = "" then FALLBACK else (t.pass ds).streamed) = reply := by
    rw [htext, hreply]
    by_cases he : content.getD "" = ""
    · simp [truthy, he]
    · simp [truthy, he]
  have hrun := stream_text_chunks cfg c n ds h.no_calls t "" .empty (l ++ [.model t.messages])
  apply talk_cons c (t.goto (.chunks n "" .empty)) rfl
  refine hrun.append ?_
  apply talk_quiet c ((((t.pass ds).conclude reply .ended).tell [.done reply]).goto
    (.closing [.finished])) ?_ rfl
  · have hclose := stream_closing cfg c [.finished]
      (((t.pass ds).conclude reply .ended).tell [.done reply]) (l ++ [.model t.messages])
    rw [Thread.tell_tell] at hclose
    exact hclose
  · exact congrArg (fun u => some (c, u)) (onExhausted_empty n ((t.pass ds).goto _) _ hsay)

end

/-! ## the two turns -/

/-- the ends of chat and of chat_stream: the same store, the same asked, the same messages of the
turn, the last of them the reply that the stream is closed with -/
structure SameTurn (s s' : Talk) : Prop where
  shared : s'.shared = s.shared
  asks : s'.asks = s.asks
  ended : s.thread.pc = .ended
  ended' : s'.thread.pc = .ended
  new_messages : s'.thread.new_messages = s.thread.new_messages
  reply : ∃ reply sent,
    s.thread.new_messages.getLast? = some (.assistant (some reply) none) ∧
    s'.thread.sent = sent ++ [.done reply, .finished] ∧ ∀ text, .done text ∉ sent

/-- the two requests between rounds; nothing has been streamed so far -/
structure Alike (t u : Thread) : Prop where
  req : u.req = t.req
  messages : u.messages = t.messages
  new_messages : u.new_messages = t.new_messages
  streamed : u.streamed = ""
  no_done : ∀ text, .done text ∉ u.sent

theorem Alike.persist {t u : Thread} (h : Alike t u) (c : Shared) (reply : String) :
    c.persist (u.conclude reply .ended) = c.persist (t.conclude reply .ended) := by
  simp only [Shared.persist, Thread.conclude, h.req, h.new_messages]

theorem Alike.round {t u : Thread} (h : Alike t u) (r : Round) :
    Alike (t.hear r.messages) ((u.tell (statuses r.calls)).hear r.messages) := by
  refine ⟨h.req, congrArg (· ++ r.messages) h.messages, congrArg (· ++ r.messages) h.new_messages,
    h.streamed, ?_⟩
  intro text hmem
  rcases List.mem_append.mp hmem with hold | hnew
  · exact h.no_done text hold
  · obtain ⟨call, _, hcall⟩ := List.mem_flatMap.mp hnew
    simp at hcall

theorem Alike.ends {t u : Thread} (h : Alike t u) (c : Shared) (reply : String) (es : List Event)
    (hes : ∀ text, .done text ∉ es) (l : List Ask) (v : Thread)
    (hnew : v.new_messages = (u.conclude reply .ended).new_messages)
    (hsent : v.sent = u.sent ++ es) :
    SameTurn ⟨(t.reply c reply).1, (t.reply c reply).2, l⟩
      ⟨c.persist (u.conclude reply .ended), (v.tell [.done reply, .finished]).goto .ended, l⟩ := by
  refine ⟨h.persist c reply, rfl, rfl, rfl, ?_, reply, u.sent ++ es, ?_, ?_, ?_⟩
  · have hsame : u.new_messages ++ [.assistant (some reply) none] =
        t.new_messages ++ [.assistant (some reply) none] := by rw [h.new_messages]
    exact hnew.trans hsame
  · exact List.getLast?_concat
  · exact congrArg (· ++ [.done reply, .finished]) hsent
  · intro text hmem
    rcases List.mem_append.mp hmem with hold | hnew
    · exact h.no_done text hold
    · exact hes text hnew

theorem no_done_tokens (ds : List Delta) (text : String) : .done text ∉ tokens ds := by
  intro hmem
  obtain ⟨d, _, hd⟩ := List.mem_flatMap.mp hmem
  split at hd
  · simp at hd
  · simp at hd

/-- chat before the answer of round `n`, or at its end where the rounds are used up -/
def Thread.awaitWhole (c : Shared) (t : Thread) (n : Nat) : Shared × Thread :=
  if n < MAX_TOOL_ROUNDS then (c, t.goto (.completion n)) else t.reply c FALLBACK

/-- the same of chat_stream -/
def Thread.awaitStream (t : Thread) (n : Nat) : Thread :=
  if n < MAX_TOOL_ROUNDS then t.goto (.create n)
  else (t.conclude FALLBACK .ended).emit (.token FALLBACK) (.closing [.done FALLBACK, .finished])

theorem same_from (cfg : Settings) (c : Shared) (content : Option String) (rounds : List Round)
    (n : Nat) (hn : n + rounds.length ≤ MAX_TOOL_ROUNDS) {t u : Thread} (h : Alike t u)
    (l : List Ask) {ops ops' : List Op} (hops : WholeOps content n rounds ops)
    (hops' : StreamOps content n rounds ops') :
    ∃ s s', (talk cfg).Runs free ⟨(t.awaitWhole c n).1, (t.awaitWhole c n).2, l⟩ ops s ∧
      (talk cfg).Runs free ⟨c, u.awaitStream n, l⟩ ops' s' ∧ SameTurn s s' := by
  induction rounds generalizing n t u l ops ops' with
  | nil =>
    rw [WholeOps] at hops
    rw [StreamOps] at hops'
    by_cases hlt : n < MAX_TOOL_ROUNDS
    · rw [if_pos hlt] at hops hops'
      obtain ⟨tool_calls, hcalls, rfl⟩ := hops
      obtain ⟨ds, hds, rfl⟩ := hops'
      rw [Thread.awaitWhole, Thread.awaitStream, if_pos hlt, if_pos hlt]
      refine ⟨_, _, chat_text cfg c n content tool_calls hcalls t l,
        stream_text cfg c n content hds u h.streamed l _ rfl, ?_⟩
      rw [h.messages]
      exact h.ends c _ (tokens ds) (no_done_tokens ds) (l ++ [.model t.messages])
        ((u.pass ds).conclude _ .ended) rfl rfl
    · rw [if_neg hlt] at hops hops'
      subst hops
      subst hops'
      rw [Thread.awaitWhole, Thread.awaitStream, if_neg hlt, if_neg hlt]
      refine ⟨_, _, rfl, stream_closing cfg c [.done FALLBACK, .finished]
        ((u.conclude FALLBACK .ended).tell [.token FALLBACK]) l, ?_⟩
      exact h.ends c FALLBACK [.token FALLBACK] (by simp) l _ rfl rfl
  | cons r rounds ih =>
    obtain ⟨ops₁, ops₂, hr, hrest, rfl⟩ := hops
    obtain ⟨ops₁', ops₂', hr', hrest', rfl⟩ := hops'
    rw [List.length_cons] at hn
    have hlt : n < MAX_TOOL_ROUNDS := by omega
    obtain ⟨s, s', hs, hs', hsame⟩ := ih (n + 1) (by omega) (h.round r)
      (l ++ r.asks t.messages) hrest hrest'
    rw [Thread.awaitWhole, Thread.awaitStream, if_pos hlt, if_pos hlt]
    refine ⟨s, s', (chat_round cfg c n r hr t l).append hs, ?_, hsame⟩
    have hround := stream_round cfg c n r hr' u l
    rw [h.messages] at hround
    exact hround.append hs'

/-- the two endpoints assemble the same conversation -/
theorem begin_eq (cfg : Settings) (c : Shared) (req : ChatRequest) :
    ∃ c₀ messages new_messages, ∀ streaming,
      Thread.begin cfg c { req := req, streaming := streaming } =
        (c₀, { req := req, streaming := streaming, messages := messages,
               new_messages := new_messages,
               pc := if streaming then .create 0 else .completion 0 }) := by
  cases h : req.session with
  | none =>
    refine ⟨c, (assemble cfg req []).1, (assemble cfg req []).2, ?_⟩
    intro streaming
    simp only [Thread.begin, h]
  | some g =>
    refine ⟨{ c with store := (c.store.getMessages c.now g).2 },
      (assemble cfg req (c.store.getMessages c.now g).1).1,
      (assemble cfg req (c.store.getMessages c.now g).1).2, ?_⟩
    intro streaming
    simp only [Thread.begin, h]

/-- **Chat and chat_stream compute the same turn.**  The model answers with rounds of tool calls and
then, unless they use up the rounds, with a text; chat gets the answers whole, chat_stream in any
chunks.  Then both run to their ends; they show the model the same messages and run the same calls
in the same order, with the same reply at the end and the same messages in the history. -/
theorem same_turn (cfg : Settings) (c : Shared) (req : ChatRequest) (rounds : List Round)
    (content : Option String) (hrounds : rounds.length ≤ MAX_TOOL_ROUNDS) (ops ops' : List Op)
    (hops : WholeOps content 0 rounds ops) (hops' : StreamOps content 0 rounds ops') :
    ∃ s s',
      (talk cfg).run ⟨c, { req := req, streaming := false }, []⟩ (.go :: ops) = some s ∧
      (talk cfg).run ⟨c, { req := req, streaming := true }, []⟩ (.go :: ops') = some s' ∧
      SameTurn s s' := by
  obtain ⟨c₀, messages, new_messages, hbegin⟩ := begin_eq cfg c req
  have halike : Alike
      { req := req, streaming := false, messages := messages, new_messages := new_messages }
      { req := req, streaming := true, messages := messages, new_messages := new_messages } :=
    ⟨rfl, rfl, rfl, rfl, fun text => by simp⟩
  obtain ⟨s, s', hs, hs', hsame⟩ :=
    same_from cfg c₀ content rounds 0 (by omega) halike [] hops hops'
  refine ⟨s, s', Machine.runs_free_iff.mp ?_, Machine.runs_free_iff.mp ?_, hsame⟩
  · exact talk_quiet _ _ (congrArg some (hbegin false)) rfl hs
  · exact talk_quiet _ _ (congrArg some (hbegin true)) rfl hs'

/-! ## two calls, interleaved -/

/-- a request that comes to a service that has just started -/
def freshTalk (streaming : Bool) : Talk :=
  ⟨freshService.shared, { req := ⟨"hi", none⟩, streaming := streaming }, []⟩

/-- two calls and what they return -/
def twoCalls : Round where
  calls := [⟨"a", some "f", "12"⟩, ⟨"b", some "g", "3"⟩]
  results := ["x", "y"]
  nonempty := by simp
  returned := rfl
  ids := by decide
  names := by decide

/-- the second call begins first, and its end stands between the pieces of the first -/
def twoCallsChunks : List Delta :=
  [⟨none, [⟨1, some "b", some "g", none⟩]⟩,
   ⟨some "", [⟨0, some "a", some "f", some "1"⟩, ⟨1, none, some "", some "3"⟩]⟩,
   ⟨none, [⟨0, none, none, some "2"⟩]⟩]

theorem twoCalls_split : SplitCalls twoCalls.calls twoCallsChunks := by
  refine ⟨by decide, by decide, ?_⟩
  intro k call hk
  cases k with
  | zero =>
    obtain rfl := Option.some.inj hk
    exact ⟨by decide, by decide, by decide, by decide, by decide⟩
  | succ k =>
    cases k with
    | zero =>
      obtain rfl := Option.some.inj hk
      exact ⟨by decide, by decide, by decide, by decide, by decide⟩
    | succ k => exact absurd hk (by simp [twoCalls])

theorem same_turn_two_calls :
    ∃ s s', (talk plainSettings).run (freshTalk false)
        [.go, .response ⟨true, none, some twoCalls.calls⟩, .toolResult "x", .toolResult "y",
         .response ⟨false, some "ok", none⟩] = some s ∧
      (talk plainSettings).run (freshTalk true)
        ([.go, .opened] ++ twoCallsChunks.map .chunk ++
         [.exhausted, .go, .toolResult "x", .go, .go, .toolResult "y", .go,
          .opened, .chunk ⟨some "o", []⟩, .go, .chunk ⟨some "k", []⟩, .go, .exhausted, .go, .go]) =
        some s' ∧
      SameTurn s s' := by
  apply same_turn plainSettings freshService.shared ⟨"hi", none⟩ [twoCalls] (some "ok") (by decide)
  · exact ⟨_, _, ⟨true, rfl⟩, ⟨none, rfl, rfl⟩, rfl⟩
  · refine ⟨_, _, ⟨twoCallsChunks, twoCalls_split, rfl⟩,
      ⟨[⟨some "o", []⟩, ⟨some "k", []⟩], ⟨by decide, by decide⟩, rfl⟩, rfl⟩

/-- chat and chat_stream, told the same in a round with one tool result and then "ok", run to their
ends and add different messages to the history -/
def TurnsDiffer (r : Completion) (ds : List Delta) : Prop :=
  ∃ s s', (talk plainSettings).run (freshTalk false)
      [.go, .response r, .toolResult "x", .response ⟨false, some "ok", none⟩] = some s ∧
    (talk plainSettings).run (freshTalk true)
      ([.go, .opened] ++ ds.map .chunk ++ [.exhausted, .go, .toolResult "x", .go,
        .opened, .chunk ⟨some "ok", []⟩, .go, .exhausted, .go, .go]) = some s' ∧
    s.thread.pc = .ended ∧ s'.thread.pc = .ended ∧
    s'.thread.new_messages ≠ s.thread.new_messages

/-- **An empty name is lost, of a name in two pieces the last one stays, and an empty text with the
calls is left out.** -/
theorem turns_differ :
    TurnsDiffer ⟨true, none, some [⟨"a", some "", "1"⟩]⟩
      [⟨none, [⟨0, some "a", some "", some "1"⟩]⟩] ∧
    TurnsDiffer ⟨true, none, some [⟨"a", some "get_flight", "1"⟩]⟩
      [⟨none, [⟨0, some "a", some "get_", some "1"⟩]⟩, ⟨none, [⟨0, none, some "flight", none⟩]⟩] ∧
    TurnsDiffer ⟨true, some "", some [⟨"a", some "get_flight", "1"⟩]⟩
      [⟨none, [⟨0, some "a", some "get_flight", some "1"⟩]⟩] :=
  ⟨⟨_, _, rfl, rfl, rfl, rfl, by decide⟩, ⟨_, _, rfl, rfl, rfl, rfl, by decide⟩,
    ⟨_, _, rfl, rfl, rfl, rfl, by decide⟩⟩

end Parrot
