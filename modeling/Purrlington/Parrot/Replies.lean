import Purrlington.Parrot.Transcript
import Purrlington.Lib.Machine

/-!
# Parrot: the streamed text and the reply

The tokens of a stream and the reply of its `done` event.  The tokens are sent in every round; the reply
is the text of all rounds, or the fallback when there is none or when the rounds are used up.

* `streaming`            a request of chat_stream alone, with any store at every step;
* `deltas`               the text of the tokens;
* `sendsText`, `endsCalling`   whether the model sends any text, and whether its last answer calls tools;
* `Told`                 what has been sent, by the place in the code;
* `step_told`, `run_told`   one step keeps it, and a run;
* `reply_streamed`       when the tokens make the reply.
-/

namespace Parrot

open SM

/-- a request of chat_stream; the store is what the other requests leave at each step -/
def streaming (cfg : Settings) : Machine Thread (Shared × Op) := fun t p =>
  (t.step cfg p.1 p.2).map Prod.snd

def Event.delta : Event → String
  | .token delta => delta
  | _ => ""

/-- the deltas of the `token` events, concatenated -/
def deltas (events : List Event) : String := String.join (events.map Event.delta)

def Op.sendsText : Op → Bool
  | .chunk d => truthy d.content
  | _ => false

/-- whether the answer calls tools, so far -/
def Op.calling (called : Bool) : Op → Bool
  | .opened => false
  | .chunk d => called || !d.tool_calls.isEmpty
  | _ => called

/-- some chunk of the run has text -/
def sendsText (ops : List (Shared × Op)) : Bool := ops.any fun p => p.2.sendsText

/-- some chunk of the last answer has a tool call -/
def endsCalling (ops : List (Shared × Op)) : Bool :=
  ops.foldl (fun called p => p.2.calling called) false

theorem FALLBACK_ne : FALLBACK ≠ "" := by decide

/-! ### what has been sent -/

namespace Thread

/-- no reply yet, and the tokens are the text of the model -/
structure Unreplied (t : Thread) (text : Bool) : Prop where
  no_done : ∀ reply, .done reply ∉ t.sent
  told : deltas t.sent = t.streamed
  text : text = (t.streamed != "")

/-- the reply is sent, and the turn ends with it -/
def Closed (t : Thread) (text called : Bool) : Prop :=
  ∃ reply before after, t.sent = before ++ .done reply :: after ∧ (∀ r, .done r ∉ before) ∧
    (∀ r, .done r ∉ after) ∧ t.new_messages.getLast? = some (.assistant (some reply) none) ∧
    (deltas before = reply ↔ text ≠ called)

/-- the rounds are used up: the fallback is sent as a token, and will be the reply -/
structure Exhausted (t : Thread) (text called : Bool) : Prop where
  no_done : ∀ reply, .done reply ∉ t.sent
  last : t.new_messages.getLast? = some (.assistant (some FALLBACK) none)
  told : deltas t.sent = FALLBACK ↔ text ≠ called

def Told (t : Thread) (text called : Bool) : Prop :=
  match t.pc with
  | .start => t.streaming = true ∧ t.Unreplied text
  | .completion _ => False
  | .tools _ _ _ => False
  | .create _ => t.Unreplied text
  | .chunks _ _ fragments => t.Unreplied text ∧ called = !fragments.items.isEmpty
  | .token _ _ fragments tcs =>
    t.Unreplied text ∧ called = !(mergeFragments fragments tcs).items.isEmpty
  | .callStatus _ _ _ => t.Unreplied text ∧ called = true
  | .runTool _ _ _ => t.Unreplied text ∧ called = true
  | .resultStatus _ _ _ _ => t.Unreplied text ∧ called = true
  | .closing left =>
    left = [.done FALLBACK, .finished] ∧ t.Exhausted text called ∨
      (∀ r, .done r ∉ left) ∧ t.Closed text called
  | .error => ∀ r, .done r ∉ t.sent
  | .ended => (∀ r, .done r ∉ t.sent) ∨ t.Closed text called

end Thread

/-! ### texts and slots -/

theorem deltas_append (es es' : List Event) : deltas (es ++ es') = deltas es ++ deltas es' := by
  rw [deltas, List.map_append, String.join_append, deltas, deltas]

theorem deltas_singleton (e : Event) : deltas [e] = e.delta := by
  rw [deltas, List.map_cons, List.map_nil, String.join_cons, String.join_nil, String.append_empty]

theorem items_set_ne_nil (d : Dict Nat Slot) (k : Nat) (v : Slot) : (d.set k v).items ≠ [] := by
  have hmem : (k, v) ∈ (d.set k v).items := Dict.mem_items_iff.mpr (Dict.get?_set_self d k v)
  exact List.ne_nil_of_mem hmem

theorem isEmpty_mergeFragments (fragments : Dict Nat Slot) (tcs : List ToolDelta) :
    (mergeFragments fragments tcs).items.isEmpty = (fragments.items.isEmpty && tcs.isEmpty) := by
  induction tcs generalizing fragments with
  | nil => rw [List.isEmpty_nil, Bool.and_true]; rfl
  | cons tc tcs ih =>
    have hmerged : (mergeFragment fragments tc).items.isEmpty = false :=
      Bool.eq_false_iff.mpr fun h => items_set_ne_nil _ _ _ (List.isEmpty_iff.mp h)
    rw [List.isEmpty_cons, Bool.and_false, mergeFragments, List.foldl_cons, ← mergeFragments, ih,
      hmerged, Bool.false_and]

theorem toolCalls_eq_nil {fragments : Dict Nat Slot} :
    toolCalls fragments = [] ↔ fragments.items.isEmpty = true := by
  rw [toolCalls, List.map_eq_nil_iff, List.isEmpty_iff]
  constructor
  · intro h
    have hlen := List.length_insertionSort (fun a b : Nat × Slot => a.1 ≤ b.1) fragments.items
    rw [h] at hlen
    exact List.length_eq_zero_iff.mp hlen.symm
  · intro h
    rw [h]
    rfl

/-! ### one step -/

section
variable {t : Thread} {text called : Bool}

namespace Thread

theorem Unreplied.emit (h : t.Unreplied text) {e : Event} (hdelta : e.delta = "") (hdone : ∀ r, e ≠ .done r)
    (pc : Pc) : (t.emit e pc).Unreplied text := by
  refine ⟨fun r hr => ?_, ?_, h.text⟩
  · rcases List.mem_append.mp hr with hsent | he
    · exact h.no_done r hsent
    · exact hdone r (List.mem_singleton.mp he).symm
  · show deltas (t.sent ++ [e]) = t.streamed
    rw [deltas_append, deltas_singleton, hdelta, String.append_empty, h.told]

theorem Unreplied.onChunk (h : t.Unreplied text) (round : Nat) (content : String) (fragments : Dict Nat Slot)
    (d : Delta) :
    (t.onChunk round content fragments d).Told (text || truthy d.content)
      (!fragments.items.isEmpty || !d.tool_calls.isEmpty) := by
  have hcalled : (!fragments.items.isEmpty || !d.tool_calls.isEmpty) =
      !(mergeFragments fragments d.tool_calls).items.isEmpty := by
    rw [isEmpty_mergeFragments, Bool.not_and]
  rw [Thread.onChunk]
  cases htext : truthy d.content with
  | true =>
    refine ⟨⟨fun r hr => ?_, ?_, ?_⟩, hcalled⟩
    · rcases List.mem_append.mp hr with hsent | he
      · exact h.no_done r hsent
      · cases List.mem_singleton.mp he
    · show deltas (t.sent ++ [.token (d.content.getD "")]) = t.streamed ++ d.content.getD ""
      rw [deltas_append, deltas_singleton, h.told]
      rfl
    · show (text || true) = (t.streamed ++ d.content.getD "" != "")
      have hne : t.streamed ++ d.content.getD "" ≠ "" := by
        intro hnil
        rw [String.append_eq_empty_iff] at hnil
        rw [truthy, hnil.2] at htext
        exact absurd htext (by decide)
      rw [Bool.or_true, bne_iff_ne.mpr hne]
  | false =>
    rw [Bool.or_false]
    exact ⟨⟨h.no_done, h.told, h.text⟩, hcalled⟩

/-- the answer is over: its tool calls are run, or the text of all rounds is the reply -/
theorem Unreplied.onExhausted (h : t.Unreplied text) (round : Nat) (content : String)
    (fragments : Dict Nat Slot) :
    (t.onExhausted round content fragments).Told text (!fragments.items.isEmpty) := by
  rw [Thread.onExhausted]
  cases hcalls : toolCalls fragments with
  | nil =>
    rw [toolCalls_eq_nil.mp hcalls]
    refine .inr ⟨by simp, _, t.sent, [], rfl, h.no_done, fun _ => List.not_mem_nil,
      List.getLast?_concat, ?_⟩
    rw [h.told, h.text]
    by_cases hnil : t.streamed = ""
    · rw [if_pos hnil, hnil]
      exact iff_of_false FALLBACK_ne.symm (by decide)
    · rw [if_neg hnil, bne_iff_ne.mpr hnil]
      exact iff_of_true rfl (by decide)
  | cons call rest =>
    have hsome : fragments.items.isEmpty = false := by
      refine Bool.eq_false_iff.mpr fun hempty => ?_
      rw [toolCalls_eq_nil.mpr hempty] at hcalls
      cases hcalls
    have hsaid : (t.say (.assistant (nonEmpty content) (some (call :: rest))) .ended).Unreplied text :=
      ⟨h.no_done, h.told, h.text⟩
    exact ⟨hsaid.emit rfl (by simp) (.callStatus round call rest), by rw [hsome]; rfl⟩

/-- after the last tool of a round: the next round, or the fallback -/
theorem Unreplied.nextStreamRound (h : t.Unreplied text) (round : Nat) :
    (t.nextStreamRound round).Told text true := by
  rw [Thread.nextStreamRound]
  split
  · exact ⟨h.no_done, h.told, h.text⟩
  · refine .inl ⟨rfl, fun r hr => ?_, List.getLast?_concat, ?_⟩
    · rcases List.mem_append.mp hr with hsent | he
      · exact h.no_done r hsent
      · cases List.mem_singleton.mp he
    · show deltas (t.sent ++ [.token FALLBACK]) = FALLBACK ↔ text ≠ true
      rw [deltas_append, deltas_singleton, h.told, Event.delta, h.text, Ne, bne_iff_ne, not_not]
      constructor
      · intro he
        have hlen := congrArg String.length he
        rw [String.length_append] at hlen
        exact String.length_eq_zero_iff.mp (by omega)
      · intro he
        rw [he, String.empty_append]

theorem Unreplied.onResult (h : t.Unreplied text) (round : Nat) (call : ToolCall) (rest : List ToolCall)
    (content : String) : (t.onResult round call rest content).Told text true := by
  have hsaid : (t.say (.tool call.id content) .ended).Unreplied text := ⟨h.no_done, h.told, h.text⟩
  cases rest with
  | nil => exact hsaid.nextStreamRound round
  | cons next rest => exact ⟨hsaid.emit rfl (by simp) (.callStatus round next rest), rfl⟩

theorem failed_told (h : ∀ r, .done r ∉ t.sent) : t.failed.Told text called := by
  intro r hr
  rcases List.mem_append.mp hr with hsent | he
  · exact h r hsent
  · cases List.mem_singleton.mp he

theorem begin_told (cfg : Settings) (c : Shared) (hstream : t.streaming = true) (h : t.Unreplied text) :
    (t.begin cfg c).2.Told text called := by
  have hpc : (t.begin cfg c).2.pc = .create 0 := by
    unfold Thread.begin
    cases t.req.session with
    | none => exact if_pos hstream
    | some g => exact if_pos hstream
  have hsame : (t.begin cfg c).2.sent = t.sent ∧ (t.begin cfg c).2.streamed = t.streamed := by
    unfold Thread.begin
    cases t.req.session with
    | none => exact ⟨rfl, rfl⟩
    | some g => exact ⟨rfl, rfl⟩
  rw [Told, hpc]
  refine ⟨?_, ?_, ?_⟩
  · rw [hsame.1]
    exact h.no_done
  · rw [hsame.1, hsame.2, h.told]
  · rw [hsame.2, h.text]

theorem closing_told {e : Event} {left : List Event} {text called : Bool}
    (h : e :: left = [.done FALLBACK, .finished] ∧ t.Exhausted text called ∨
      (∀ r, .done r ∉ e :: left) ∧ t.Closed text called) :
    (t.emit e (.closing left)).Told text called := by
  rcases h with ⟨hleft, hex⟩ | ⟨hno, reply, before, after, hsent, hbefore, hafter, hlast, htold⟩
  · obtain ⟨rfl, rfl⟩ := List.cons.inj hleft
    exact .inr ⟨by simp, FALLBACK, t.sent, [], rfl, hex.no_done, fun _ => List.not_mem_nil, hex.last,
      hex.told⟩
  · refine .inr ⟨fun r hr => hno r (List.mem_cons_of_mem e hr), reply, before, after ++ [e], ?_, hbefore,
      fun r hr => ?_, hlast, htold⟩
    · show t.sent ++ [e] = _
      rw [hsent, List.append_assoc, List.cons_append]
    · rcases List.mem_append.mp hr with hin | he
      · exact hafter r hin
      · refine hno r ?_
        rw [List.mem_singleton.mp he]
        exact List.mem_cons_self

theorem Told.quiet {op : Op} (hop : op.sendsText = false) (h : t.Told text called) :
    t.Told (text || op.sendsText) called := by
  rw [hop, Bool.or_false]
  exact h

theorem ended_told (h : (∀ r, .done r ∉ t.sent) ∨ t.Closed text called) (c : Shared) :
    (t.persisted c).2.Told text called := h

end Thread

theorem sofar_told (h : t.Told text called) :
    (∀ r, .done r ∉ t.sent) ∨
      ((∃ left, t.pc = .closing left) ∨ t.pc = .ended) ∧ t.Closed text called := by
  obtain ⟨req, streaming, messages, new_messages, streamed, sent, pc⟩ := t
  cases pc with
  | start => exact .inl h.2.no_done
  | completion round => exact absurd h id
  | tools round call rest => exact absurd h id
  | create round => exact .inl h.no_done
  | chunks round content fragments => exact .inl h.1.no_done
  | token round content fragments tcs => exact .inl h.1.no_done
  | callStatus round call rest => exact .inl h.1.no_done
  | runTool round call rest => exact .inl h.1.no_done
  | resultStatus round call rest content => exact .inl h.1.no_done
  | closing left => exact h.imp (fun hex => hex.2.no_done) fun hclosed => ⟨.inl ⟨left, rfl⟩, hclosed.2⟩
  | error => exact .inl h
  | ended => exact h.imp_right fun hclosed => ⟨.inr rfl, hclosed⟩

theorem step_told {cfg : Settings} {c : Shared} {p : Shared × Thread} {op : Op}
    (h : t.Told text called) (hs : t.step cfg c op = some p) :
    p.2.Told (text || op.sendsText) (op.calling called) := by
  have hmoves := Thread.moves_of_step hs
  have hsofar := sofar_told h
  obtain ⟨req, streaming, messages, new_messages, streamed, sent, pc⟩ := t
  cases hmoves with
  | begin => exact Thread.Told.quiet rfl (Thread.begin_told cfg c h.1 h.2)
  | answered round r => exact absurd h id
  | toolDone round call rest content => exact absurd h id
  | dropped hdrops =>
    cases pc with
    | completion round => exact absurd h id
    | tools round call rest => exact absurd h id
    | _ => exact absurd hdrops Bool.false_ne_true
  | opened round =>
    refine Thread.Told.quiet rfl ?_
    exact ⟨⟨h.no_done, h.told, h.text⟩, rfl⟩
  | chunk round content fragments d =>
    obtain ⟨hopen, rfl⟩ := h
    exact hopen.onChunk round content fragments d
  | exhausted round content fragments =>
    obtain ⟨hopen, rfl⟩ := h
    exact Thread.Told.quiet rfl (hopen.onExhausted round content fragments)
  | merged round content fragments tcs =>
    obtain ⟨hopen, hcalled⟩ := h
    refine Thread.Told.quiet rfl ?_
    exact ⟨⟨hopen.no_done, hopen.told, hopen.text⟩, hcalled⟩
  | announced round call rest =>
    obtain ⟨hopen, hcalled⟩ := h
    refine Thread.Told.quiet rfl ?_
    exact ⟨⟨hopen.no_done, hopen.told, hopen.text⟩, hcalled⟩
  | ran round call rest content =>
    obtain ⟨hopen, hcalled⟩ := h
    refine Thread.Told.quiet rfl ?_
    exact ⟨hopen.emit rfl (by simp) (.resultStatus round call rest content), hcalled⟩
  | result round call rest content =>
    obtain ⟨hopen, rfl⟩ := h
    exact Thread.Told.quiet rfl (hopen.onResult round call rest content)
  | sent e left => exact Thread.Told.quiet rfl (Thread.closing_told h)
  | failed hfails =>
    refine Thread.failed_told (hsofar.resolve_right ?_)
    rintro ⟨⟨left, rfl⟩ | rfl, -⟩ <;> exact absurd hfails Bool.false_ne_true
  | persisted hends =>
    have hquiet : op.sendsText = false ∧ op.calling called = called := by
      cases op with
      | go => exact ⟨rfl, rfl⟩
      | cut => exact ⟨rfl, rfl⟩
      | _ => cases pc <;> exact absurd hends Bool.false_ne_true
    rw [hquiet.2]
    exact Thread.Told.quiet hquiet.1 (Thread.ended_told (hsofar.imp_right And.right) c)

theorem run_told {cfg : Settings} {ops : List (Shared × Op)} {t' : Thread}
    (h : t.Told text called) (hrun : (streaming cfg).Runs free t ops t') :
    t'.Told (text || sendsText ops) (ops.foldl (fun called p => p.2.calling called) called) := by
  induction ops generalizing t text called with
  | nil =>
    obtain rfl := hrun
    rw [sendsText, List.any_nil, Bool.or_false]
    exact h
  | cons p ops ih =>
    obtain ⟨-, u, hstep, hrest⟩ := hrun
    obtain ⟨⟨c', u'⟩, hs, rfl⟩ := Option.map_eq_some_iff.mp hstep
    have htold := ih (step_told h hs) hrest
    rw [Bool.or_assoc] at htold
    exact htold

/-- a reply is only sent when the turn is over -/
theorem closed_of_done {reply : String} (h : t.Told text called) (hdone : .done reply ∈ t.sent) :
    ((∃ left, t.pc = .closing left) ∨ t.pc = .ended) ∧ t.Closed text called :=
  (sofar_told h).resolve_left fun hno => hno reply hdone

end

/-- the turn ends with the reply, and it is the turn that is persisted -/
structure Thread.Keeps (cfg : Settings) (t : Thread) (reply : String) : Prop where
  last : t.new_messages.getLast? = some (.assistant (some reply) none)
  persisted : ∀ c op c' t', t.step cfg c op = some (c', t') → t'.pc = .ended → c' = c.persist t

theorem persisted_of_closing {cfg : Settings} {t t' : Thread} {c c' : Shared} {op : Op}
    (hpc : (∃ left, t.pc = .closing left) ∨ t.pc = .ended) (hs : t.step cfg c op = some (c', t'))
    (hend : t'.pc = .ended) : c' = c.persist t := by
  obtain ⟨req, streaming, messages, new_messages, streamed, sent, pc⟩ := t
  rcases hpc with ⟨left, rfl⟩ | rfl
  · cases op with
    | go =>
      cases left with
      | nil => exact (Prod.mk.inj (Option.some.inj hs)).1.symm
      | cons e left =>
        obtain ⟨-, rfl⟩ := Prod.mk.inj (Option.some.inj hs)
        cases hend
    | cut =>
      cases left with
      | nil => exact (Prod.mk.inj (Option.some.inj hs)).1.symm
      | cons e left => exact (Prod.mk.inj (Option.some.inj hs)).1.symm
    | _ => exact absurd hs (by cases left <;> nofun)
  · exact absurd hs (by cases op <;> nofun)

/-- **The tokens sent before `done` make its reply** exactly when the model sends text and its last
answer calls no tools, or it sends none and the rounds are used up.  The reply ends the persisted turn
in any case. -/
theorem reply_streamed (cfg : Settings) (req : ChatRequest) {ops : List (Shared × Op)} {t : Thread}
    (hrun : (streaming cfg).Runs free { req, streaming := true } ops t)
    {before after : List Event} {reply : String} (hdone : t.sent = before ++ .done reply :: after) :
    t.Keeps cfg reply ∧
      (deltas before = reply ∧ t.Keeps cfg reply ↔ sendsText ops ≠ endsCalling ops) := by
  have hstart : Thread.Told { req, streaming := true } false false :=
    ⟨rfl, ⟨fun _ => List.not_mem_nil, rfl, rfl⟩⟩
  have htold := run_told hstart hrun
  rw [Bool.false_or] at htold
  have hmem : .done reply ∈ t.sent := by
    rw [hdone]
    exact List.mem_append_right before List.mem_cons_self
  obtain ⟨hpc, reply', before', after', hsent, hbefore, hafter, hlast, hsame⟩ :=
    closed_of_done htold hmem
  rw [hdone] at hsent
  obtain ⟨rfl, he, rfl⟩ :=
    (List.append_cons_inj_of_notMem (hbefore reply) (hafter reply)).mp hsent.symm
  cases he
  have hkeeps : t.Keeps cfg reply := ⟨hlast, fun c op c' t' hs => persisted_of_closing hpc hs⟩
  exact ⟨hkeeps, (and_iff_left hkeeps).trans hsame⟩

/-- one answer of the model, and the stream is closed -/
def oneAnswer (answer : List Op) : List (Shared × Op) :=
  (Op.go :: Op.opened :: (answer ++ [Op.exhausted, Op.go, Op.go])).map fun op => (freshService.shared, op)

theorem reply_streamed_hello : ∃ t,
    (streaming plainSettings).Runs free { req := ⟨"hi", none⟩, streaming := true }
      (oneAnswer [.chunk ⟨some "hello", []⟩, .go]) t ∧
    t.sent = [.token "hello"] ++ .done "hello" :: [.finished] ∧ deltas [.token "hello"] = "hello" := by
  have hrun : ∃ t, (streaming plainSettings).run { req := ⟨"hi", none⟩, streaming := true }
      (oneAnswer [.chunk ⟨some "hello", []⟩, .go]) = some t ∧
        t.sent = [.token "hello"] ++ .done "hello" :: [.finished] := ⟨_, rfl, rfl⟩
  obtain ⟨t, hrun, hsent⟩ := hrun
  have hruns := Machine.runs_free_iff.mpr hrun
  exact ⟨t, hruns, hsent, ((reply_streamed plainSettings ⟨"hi", none⟩ hruns hsent).2.mpr (by decide)).1⟩

/-- **An empty answer**: the reply is the fallback, and no token carries it. -/
theorem fallback_unstreamed : ¬ ∀ (cfg : Settings) (req : ChatRequest) (ops : List (Shared × Op))
    (t : Thread), (streaming cfg).Runs free { req, streaming := true } ops t →
      ∀ before after reply, t.sent = before ++ .done reply :: after → deltas before = reply := by
  intro h
  have hrun : ∃ t, (streaming plainSettings).run { req := ⟨"hi", none⟩, streaming := true }
      (oneAnswer [.chunk ⟨none, []⟩]) = some t ∧
        t.sent = [] ++ .done FALLBACK :: [.finished] := ⟨_, rfl, rfl⟩
  obtain ⟨t, hrun, hsent⟩ := hrun
  exact absurd (h _ _ _ t (Machine.runs_free_iff.mpr hrun) _ _ _ hsent) (by decide)

end Parrot
