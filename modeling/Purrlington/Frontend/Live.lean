import Purrlington.Broadcast.App
import Purrlington.Broadcast.Stream
import Purrlington.Frontend.EventsStore
import Purrlington.Frontend.Reconnect

/-!
# Frontend: the feeds and what was published

The broadcast service, the connections of `useBroadcast` and the events store, in any interleaving: posts
and other clients come at any time, connections fail and are opened again, and messages are handled some
time after they were written.

* `toEvent`, `handleMessage`   a message of the stream, as far as the store;
* `Live`, `live`          the parts together;
* `published`, `heard`    what the service has broadcast, what the store has been given;
* `Window`                what the present connection has been sent and has handled;
* `Shown`                 how an event looks on a feed;
* `feed_subsequence`      every feed is a subsequence of what was published;
* `nothing_missed`        and whole for as long as a connection lasts.
-/

set_option linter.unusedSectionVars false

namespace Frontend
open SM
open Broadcast (IslandEvent Readable frame)
open Beach.Frontend (text parseMessage beachActivityEventTypes)

/-! ## messages -/

def ChannelId.ofText (s : String) : Option ChannelId :=
  match s with
  | "airport" => some .Airport
  | "hotel" => some .Hotel
  | "beach" => some .Beach
  | "crab" => some .Crab
  | "parrot" => some .Parrot
  | "broadcast" => some .Broadcast
  | "resort-wide" => some .ResortWide
  | _ => none

/-- the channel of the service with the same text -/
def ChannelId.of : Broadcast.ChannelId → ChannelId
  | .Airport => .Airport
  | .Hotel => .Hotel
  | .Beach => .Beach
  | .Crab => .Crab
  | .Parrot => .Parrot
  | .Broadcast => .Broadcast
  | .ResortWide => .ResortWide

def toEvent (members : List (String × Json)) : Option BroadcastEvent := do
  let id ← text (members.lookup "id")
  let channel ← (text (members.lookup "channel")).bind ChannelId.ofText
  let event_type ← text (members.lookup "event_type")
  let message ← text (members.lookup "message")
  let sender ← text (members.lookup "sender")
  return {
    id, channel, event_type, message, sender
    guest_id := text (members.lookup "guest_id")
    guest_name := text (members.lookup "guest_name")
    data := match members.lookup "data" with
      | some (.obj data) => some data
      | _ => none }

/-- the handler of unnamed messages and of the types of the beach; what cannot be parsed is ignored -/
def handleMessage (parse : List Char → Option Json) (state : EventsState)
    (message : List Char × List Char) (randomUUID : ChannelId → String) : EventsState :=
  if String.ofList message.1 ∈ "message" :: beachActivityEventTypes then
    match ((parse message.2).bind parseMessage).bind toEvent with
    | some event => ingestEvent state event (some ⟨some true⟩) randomUUID
    | none => state
  else state

/-- an event of the service as the frontend has it -/
def received (event : IslandEvent) : BroadcastEvent where
  id := event.id
  channel := .of event.channel
  event_type := event.event_type.text
  message := event.message
  sender := event.sender
  guest_id := event.guest_id
  guest_name := event.guest_name
  data := event.data

theorem toEvent_members (event : IslandEvent) : toEvent event.members = some (received event) := by
  obtain ⟨hid, hchannel, htype, hmessage, hsender, hguest, hname, hdata, _⟩ :=
    Broadcast.lookup_members event
  have hof : ChannelId.ofText event.channel.text = some (.of event.channel) := by
    cases event.channel <;> rfl
  have htext : ∀ s : Option String, text (s.map .str) = s := by
    intro s
    cases s <;> rfl
  have hobj : (match event.data.map Json.obj with
      | some (.obj data) => some data
      | _ => none) = event.data := by
    cases event.data <;> rfl
  rw [toEvent, hid, hchannel, htype, hmessage, hsender, hguest, hname, hdata, htext, htext, hobj]
  show ((ChannelId.ofText event.channel.text).bind _) = _
  rw [hof]
  rfl

theorem handleMessage_event {stringify : Json → String} {parse : List Char → Option Json}
    {event : IslandEvent} (h : Readable stringify parse event.json) (state : EventsState)
    (randomUUID : ChannelId → String) :
    handleMessage parse state ("message".toList, (stringify event.json).toList) randomUUID =
      ingestEvent state (received event) (some ⟨some true⟩) randomUUID := by
  have htype : String.ofList "message".toList ∈ "message" :: beachActivityEventTypes := by decide
  refine (if_pos htype).trans ?_
  rw [h.inverse, Option.bind_some, (Broadcast.parseMessage_json event).2, Option.bind_some,
    toEvent_members]

/-! ## the parts together -/

/-- the URL of the gateway, the request that the service gets for an event source, and the texts of
values -/
structure Wire where
  gatewayUrl : String
  request : Broadcast.Request
  stringify : Json → String
  parse : List Char → Option Json

/-- `response` is the response to the request of an event source, once the service has got it, and
`handled` the number of its messages that have been handled -/
structure Live where
  bus : Broadcast.Bus
  hook : Hook
  response : Nat → Option Nat
  handled : Nat → Nat
  store : EventsState

def Live.init (x : Wire) : Live := ⟨.empty, .init x.gatewayUrl, fun _ => none, fun _ => 0, createEmpty⟩

/-- the response that an event source gets -/
def Live.answer (s : Live) (i : Nat) : Option Broadcast.Response :=
  (s.response i).bind fun r => s.bus.responses[r]?

/-- the response is one that an event source reads -/
def Live.accepted (s : Live) (i : Nat) : Bool := (s.answer i).any fun res => res.status = 200

def Live.messages (s : Live) (i : Nat) : List (List Char × List Char) :=
  match s.answer i with
  | some res => if res.status = 200 then Broadcast.EventSource.messages res.text else []
  | none => []

def HookAct.opens : HookAct → Option Nat
  | .opened i => some i
  | _ => none

inductive LiveAct where
  | request (req : Broadcast.Req)
  | hook (act : HookAct)
  | reach (i : Nat) (env : Broadcast.Env)
  | message (i : Nat) (randomUUID : ChannelId → String)
  | clear (channel : ChannelId)

def live (x : Wire) : Machine Live LiveAct := fun s act =>
  match act with
  | .request req => some { s with bus := Broadcast.serve x.stringify s.bus req }
  | .hook act =>
    -- an event source opens with a response of status 200
    if act.opens.all s.accepted then
      (hook x.gatewayUrl s.hook act).map fun hook => { s with hook := hook }
    else none
  | .reach i env =>
    if s.hook.sources[i]? = some .CONNECTING ∧ s.response i = none then
      some { s with
        bus := s.bus.connect env x.request
        response := Function.update s.response i (some s.bus.responses.length) }
    else none
  | .message i randomUUID =>
    if s.hook.sources[i]? = some .OPEN then
      (s.messages i)[s.handled i]?.map fun message => { s with
        handled := Function.update s.handled i (s.handled i + 1)
        store := handleMessage x.parse s.store message randomUUID }
    else none
  | .clear channel => some { s with store := clearEvents s.store channel }

/-! ## what is published, and what is heard -/

def LiveAct.event : LiveAct → Option IslandEvent
  | .request req => req.event
  | _ => none

/-- the events that the service has broadcast -/
def published (acts : List LiveAct) : List IslandEvent := acts.filterMap LiveAct.event

def StoreCall.event : StoreCall → Option BroadcastEvent
  | .ingest event _ _ => some event
  | .clear _ => none

/-- the events that the store has been given -/
def heard (calls : List StoreCall) : List BroadcastEvent := calls.filterMap StoreCall.event

theorem published_append (as bs : List LiveAct) : published (as ++ bs) = published as ++ published bs :=
  List.filterMap_append

theorem published_snoc (acts : List LiveAct) (act : LiveAct) :
    published (acts ++ [act]) = published acts ++ act.event.toList := by
  rw [published_append]
  cases h : act.event with
  | none => rw [published, published, List.filterMap_cons_none h]; rfl
  | some event => rw [published, published, List.filterMap_cons_some h]; rfl

theorem heard_snoc (calls : List StoreCall) (call : StoreCall) :
    heard (calls ++ [call]) = heard calls ++ call.event.toList := by
  rw [heard, List.filterMap_append, ← heard]
  cases h : call.event with
  | none => rw [List.filterMap_cons_none h]; rfl
  | some event => rw [List.filterMap_cons_some h]; rfl

theorem createEmpty_snoc (calls : List StoreCall) (call : StoreCall) :
    createEmpty.run (calls ++ [call]) = (createEmpty.run calls).step call :=
  List.foldl_concat ..

/-! ## what a request writes -/

/-- a request adds to a response that is there the frames of some of the events that it broadcasts, and
to that of a client those of its channels -/
theorem serve_response (stringify : Json → String) {bus : Broadcast.Bus} (req : Broadcast.Req)
    {r : Nat} {res : Broadcast.Response} (h : bus.responses[r]? = some res) :
    ∃ new : List IslandEvent, new.Sublist req.event.toList ∧
      (Broadcast.serve stringify bus req).responses[r]? =
        some ⟨res.status, res.written ++ new.map (frame stringify)⟩ ∧
      ∀ client ∈ (Broadcast.serve stringify bus req).clients, client.res = r → client ∈ bus.clients ∧
        new = req.event.toList.filter fun event => event.channel ∈ client.allowedChannels := by
  have hlt := (List.getElem?_eq_some_iff.mp h).1
  have same : res = ⟨res.status, res.written ++ ([] : List IslandEvent).map (frame stringify)⟩ := by
    rw [List.map_nil, List.append_nil]
  cases req with
  | events env req =>
    refine ⟨[], List.nil_sublist _, ?_, ?_⟩
    · rw [← same, ← h]
      exact bus.connect_responses env req hlt
    · intro client hc hr
      rw [Broadcast.serve, Broadcast.Bus.connect] at hc
      split at hc
      · exact ⟨hc, rfl⟩
      · rcases List.mem_append.mp hc with hc | hc
        · exact ⟨hc, rfl⟩
        · rw [List.mem_singleton.mp hc] at hr
          exact absurd hr (Nat.ne_of_gt hlt)
  | gone gone =>
    refine ⟨[], List.nil_sublist _, ?_, ?_⟩
    · rw [← same, ← h]
      rfl
    · exact fun client hc _ => ⟨List.mem_of_mem_eraseP hc, rfl⟩
  | post env id post =>
    rw [Broadcast.serve, Broadcast.Req.event]
    cases (Broadcast.post env id post).2 with
    | none => exact ⟨[], List.nil_sublist _, by rw [← same]; exact h, fun client hc _ => ⟨hc, rfl⟩⟩
    | some event =>
      by_cases hatt : bus.Attached r
      · -- the client of this response is written to
        obtain ⟨client, hc, hr⟩ := List.mem_map.mp hatt
        subst hr
        refine ⟨[event].filter fun event => event.channel ∈ client.allowedChannels,
          List.filter_sublist, ?_, ?_⟩
        · exact Broadcast.foldl_writeTo_mem stringify event bus.res_nodup hc h
        · intro client' hc' hr'
          obtain rfl := List.inj_on_of_nodup_map bus.res_nodup hc' hc hr'
          exact ⟨hc', rfl⟩
      · refine ⟨[], List.nil_sublist _, ?_, ?_⟩
        · rw [← same, ← h]
          exact Broadcast.foldl_writeTo_notMem stringify event hatt
        · intro client hc hr
          exact absurd (hr ▸ Broadcast.Bus.attached_of_mem hc) hatt

/-! ## what a callback leaves -/

section
variable {gatewayUrl : String} {h h' : Hook}

/-- an event source that is live is new, or was so before -/
structure NoneRevived (sources sources' : List ReadyState) : Prop where
  length : sources.length ≤ sources'.length
  live : ∀ (i : Nat) (st' : ReadyState), sources'[i]? = some st' → st'.isLive = true →
    sources.length ≤ i ∨ ∃ st, sources[i]? = some st ∧ st.isLive = true

theorem NoneRevived.refl (sources : List ReadyState) : NoneRevived sources sources :=
  ⟨Nat.le_refl _, fun _ st hi hl => .inr ⟨st, hi, hl⟩⟩

theorem Hook.connect_noneRevived (h : Hook) : NoneRevived h.sources h.connect.sources := by
  rw [Hook.connect]
  split
  · refine ⟨by rw [List.length_append]; exact Nat.le_add_right .., ?_⟩
    exact forall_snoc (fun _ st hi hl => .inr ⟨st, hi, hl⟩) fun _ => .inl (Nat.le_refl _)
  · exact .refl h.sources

theorem Hook.close_noneRevived (h : Hook) (i : Nat) : NoneRevived h.sources (h.close i).sources :=
  ⟨Nat.le_of_eq (List.length_modify _ _ _).symm, forall_modify (fun _ st hi hl => .inr ⟨st, hi, hl⟩)
    fun _ _ hl => absurd hl Bool.false_ne_true⟩

theorem Hook.disconnect_noneRevived (h : Hook) : NoneRevived h.sources h.disconnect.sources := by
  rw [Hook.disconnect]
  split
  · rename_i i _
    exact h.close_noneRevived i
  · exact .refl h.sources

theorem Hook.cleanup_noneRevived (h : Hook) : NoneRevived h.sources h.cleanup.sources := by
  have hdisconnect := Hook.disconnect_noneRevived (Hook.clear { h with activeRef := false })
  rwa [(Hook.clear_rest _).1] at hdisconnect

theorem hook_noneRevived {act : HookAct} (hh : hook gatewayUrl h act = some h') :
    NoneRevived h.sources h'.sources := by
  cases act with
  | effect =>
    simp only [hook] at hh
    split at hh
    · exact absurd hh (by simp)
    · split at hh
      · obtain rfl := Option.some.inj hh
        exact .refl h.sources
      · obtain rfl := Option.some.inj hh
        exact Hook.connect_noneRevived { h with mounted := true, activeRef := true }
  | cleanup =>
    simp only [hook] at hh
    split at hh
    · split at hh
      · obtain rfl := Option.some.inj hh
        exact .refl h.sources
      · obtain rfl := Option.some.inj hh
        exact h.cleanup_noneRevived
    · exact absurd hh (by simp)
  | opened i =>
    simp only [hook] at hh
    split at hh
    · rename_i hst
      obtain rfl := Option.some.inj hh
      exact ⟨Nat.le_of_eq (List.length_modify _ _ _).symm,
        forall_modify (fun _ st hi hl => .inr ⟨st, hi, hl⟩) fun _ _ _ => .inr ⟨_, hst, rfl⟩⟩
    · exact absurd hh (by simp)
  | failed i =>
    simp only [hook] at hh
    split at hh
    · obtain rfl := Option.some.inj hh
      rw [Hook.onerror]
      dsimp only
      split
      · exact h.close_noneRevived i
      · exact h.close_noneRevived i
    · exact absurd hh (by simp)
  | timeout t =>
    simp only [hook] at hh
    split at hh
    · obtain rfl := Option.some.inj hh
      rw [Hook.timeout]
      dsimp only
      split
      · exact Hook.connect_noneRevived { h with timers := h.timers.modify t Timer.off }
      · exact .refl h.sources
    · exact absurd hh (by simp)

end

/-! ## the present connection -/

/-- an event source has got through: `events` are what the service has written for it since, and the
store has been given `old` before, and then those that are handled -/
structure Window (x : Wire) (acts : List LiveAct) (s : Live) (calls : List StoreCall) (i r : Nat)
    (before after : List LiveAct) (env : Broadcast.Env) (events : List IslandEvent)
    (old : List BroadcastEvent) : Prop where
  acts : acts = before ++ .reach i env :: after
  answer : ∃ res, s.bus.responses[r]? = some res ∧
    (res.status = 200 → res.written = ": connected\n\n" :: events.map (frame x.stringify)) ∧
    ∀ client ∈ s.bus.clients, client.res = r → res.status = 200
  sent : events.Sublist (published after)
  whole : ∀ client ∈ s.bus.clients, client.res = r →
    events = (published after).filter fun event => event.channel ∈ client.allowedChannels
  handled : s.handled i ≤ events.length
  given : heard calls = old ++ (events.take (s.handled i)).map received
  old : old.Sublist ((published before).map received)

/-- the store has been given some of what was published, in its order -/
structure Following (x : Wire) (acts : List LiveAct) (s : Live) : Prop where
  single : s.hook.Single x.gatewayUrl
  fresh : ∀ i, s.hook.sources.length ≤ i → s.response i = none
  unread : ∀ i, s.response i = none → s.handled i = 0
  legible : ∀ event ∈ published acts, Readable x.stringify x.parse event.json
  story : ∃ calls, s.store = createEmpty.run calls ∧
    (heard calls).Sublist ((published acts).map received) ∧
    ∀ (i : Nat) (st : ReadyState) (r : Nat), s.hook.sources[i]? = some st → st.isLive = true →
      s.response i = some r →
      ∃ before after env events old, Window x acts s calls i r before after env events old

/-- the texts of the events can be read -/
def Legible (x : Wire) : Live → LiveAct → Prop
  | _, .request req => ∀ event, req.event = some event → Readable x.stringify x.parse event.json
  | _, _ => True

section
variable {x : Wire} {acts : List LiveAct} {s s' : Live} {calls : List StoreCall} {i r : Nat}
  {before after : List LiveAct} {env : Broadcast.Env} {events : List IslandEvent}
  {old : List BroadcastEvent}

theorem Window.split (h : Window x acts s calls i r before after env events old) :
    published acts = published before ++ published after := by
  rw [h.acts, published_append]
  rfl

theorem Window.silent (h : Window x acts s calls i r before after env events old) {act : LiveAct}
    (hact : act.event = none) (hbus : s'.bus = s.bus) (hhandled : s'.handled i = s.handled i) :
    Window x (acts ++ [act]) s' calls i r before (after ++ [act]) env events old := by
  have hafter : published (after ++ [act]) = published after := by
    rw [published_snoc, hact]
    exact List.append_nil _
  constructor
  · rw [h.acts, List.append_assoc]
    rfl
  · rw [hbus]
    exact h.answer
  · rw [hafter]
    exact h.sent
  · rw [hbus, hafter]
    exact h.whole
  · rw [hhandled]
    exact h.handled
  · rw [hhandled]
    exact h.given
  · exact h.old

theorem Window.request (h : Window x acts s calls i r before after env events old)
    (req : Broadcast.Req) : ∃ new,
      Window x (acts ++ [LiveAct.request req]) { s with bus := Broadcast.serve x.stringify s.bus req } calls
        i r before (after ++ [LiveAct.request req]) env (events ++ new) old := by
  obtain ⟨res, hres, hwritten, hattached⟩ := h.answer
  obtain ⟨new, hsub, hres', hclients⟩ := serve_response x.stringify req hres
  have hafter : published (after ++ [LiveAct.request req]) =
      published after ++ req.event.toList := published_snoc ..
  refine ⟨new, ?_, ⟨_, hres', fun hst => ?_, fun client hc hr => ?_⟩, ?_, ?_, ?_, ?_, h.old⟩
  · rw [h.acts, List.append_assoc]
    rfl
  · rw [hwritten hst, List.cons_append, List.map_append]
  · exact hattached client (hclients client hc hr).1 hr
  · rw [hafter]
    exact h.sent.append hsub
  · intro client hc hr
    obtain ⟨hc, rfl⟩ := hclients client hc hr
    rw [hafter, List.filter_append, ← h.whole client hc hr]
  · rw [List.length_append]
    exact Nat.le_add_right_of_le h.handled
  · rw [List.take_append_of_le_length h.handled]
    exact h.given

theorem Window.message (h : Window x acts s calls i r before after env events old)
    (hlegible : ∀ event ∈ published acts, Readable x.stringify x.parse event.json)
    (hr : s.response i = some r) {message : List Char × List Char}
    (hm : (s.messages i)[s.handled i]? = some message) (randomUUID : ChannelId → String) :
    ∃ event, events[s.handled i]? = some event ∧
      handleMessage x.parse s.store message randomUUID =
        s.store.step (.ingest (received event) (some ⟨some true⟩) randomUUID) := by
  obtain ⟨⟨status, written⟩, hres, hwritten, _⟩ := h.answer
  have hread : ∀ event ∈ events, Readable x.stringify x.parse event.json := fun event he => by
    rw [h.split] at hlegible
    exact hlegible event (List.mem_append_right _ (h.sent.subset he))
  rw [Live.messages, Live.answer, hr, Option.bind_some, hres] at hm
  dsimp only at hm
  split at hm
  · rename_i hst
    obtain rfl : written = _ := hwritten hst
    rw [Broadcast.messages_stream x.stringify fun event he => (hread event he).line,
      List.getElem?_map] at hm
    obtain ⟨event, he, rfl⟩ := Option.map_eq_some_iff.mp hm
    exact ⟨event, he, handleMessage_event (hread event (List.mem_of_getElem? he)) s.store randomUUID⟩
  · exact absurd hm (by simp)

/-! ### every act -/

theorem Following.hook (h : Following x acts s) {act : HookAct} {hook' : Hook}
    (hh : hook x.gatewayUrl s.hook act = some hook') :
    Following x (acts ++ [LiveAct.hook act]) { s with hook := hook' } := by
  have hlater := hook_noneRevived hh
  have hpub : published (acts ++ [LiveAct.hook act]) = published acts := by
    rw [published_snoc]
    exact List.append_nil _
  obtain ⟨calls, hstore, hsub, hwindow⟩ := h.story
  refine ⟨h.single.step hh, fun i hi => h.fresh i (Nat.le_trans hlater.length hi), h.unread,
    by rw [hpub]; exact h.legible, calls, hstore, by rw [hpub]; exact hsub, ?_⟩
  intro i st r hst hl hr
  rcases hlater.live i st hst hl with hnew | ⟨st₀, hst₀, hl₀⟩
  · exact absurd ((h.fresh i hnew).symm.trans hr) (by simp)
  · obtain ⟨before, after, env, events, old, hw⟩ := hwindow i st₀ r hst₀ hl₀ hr
    exact ⟨before, _, env, events, old, hw.silent rfl rfl rfl⟩

theorem Following.request (h : Following x acts s) (req : Broadcast.Req)
    (hg : ∀ event, req.event = some event → Readable x.stringify x.parse event.json) :
    Following x (acts ++ [LiveAct.request req])
      { s with bus := Broadcast.serve x.stringify s.bus req } := by
  have hpub : published (acts ++ [LiveAct.request req]) = published acts ++ req.event.toList :=
    published_snoc ..
  obtain ⟨calls, hstore, hsub, hwindow⟩ := h.story
  refine ⟨h.single, h.fresh, h.unread, ?_, calls, hstore, ?_, ?_⟩
  · rw [hpub]
    exact List.forall_mem_append.mpr ⟨h.legible, fun event he => hg event (Option.mem_toList.mp he)⟩
  · rw [hpub, List.map_append]
    exact hsub.trans (List.sublist_append_left _ _)
  · intro i st r hst hl hr
    obtain ⟨before, after, env, events, old, hw⟩ := hwindow i st r hst hl hr
    obtain ⟨new, hw⟩ := hw.request req
    exact ⟨before, _, env, _, old, hw⟩

theorem Following.reach (h : Following x acts s) {i : Nat}
    (hst : s.hook.sources[i]? = some .CONNECTING) (hnone : s.response i = none)
    (env : Broadcast.Env) :
    Following x (acts ++ [LiveAct.reach i env]) { s with
      bus := s.bus.connect env x.request
      response := Function.update s.response i (some s.bus.responses.length) } := by
  have hpub : published (acts ++ [LiveAct.reach i env]) = published acts := by
    rw [published_snoc]
    exact List.append_nil _
  have hlt := (List.getElem?_eq_some_iff.mp hst).1
  obtain ⟨calls, hstore, hsub, hwindow⟩ := h.story
  refine ⟨h.single, ?_, ?_, by rw [hpub]; exact h.legible, calls, hstore, by rw [hpub]; exact hsub, ?_⟩
  · intro j hj
    have hne : j ≠ i := Nat.ne_of_gt (Nat.lt_of_lt_of_le hlt hj)
    exact (Function.update_of_ne hne ..).trans (h.fresh j hj)
  · intro j hj
    dsimp only at hj
    by_cases e : j = i
    · subst e
      rw [Function.update_self] at hj
      exact absurd hj (by simp)
    · rw [Function.update_of_ne e] at hj
      exact h.unread j hj
  · intro j st r hj hl hr
    have hone : j = i := Option.some.inj
      ((h.single.connection j st hj hl).symm.trans (h.single.connection i _ hst rfl))
    subst hone
    dsimp only at hr
    rw [Function.update_self] at hr
    obtain rfl := Option.some.inj hr
    refine ⟨acts, [], env, [], heard calls, rfl, ?_, List.nil_sublist _, fun _ _ _ => rfl, ?_, ?_, hsub⟩
    · dsimp only
      rw [Broadcast.Bus.connect]
      split
      · exact ⟨_, List.getElem?_concat_length, fun h => absurd h (by decide), fun client hc e =>
          absurd (s.bus.res_lt _ (Broadcast.Bus.attached_of_mem hc)) (e ▸ Nat.lt_irrefl _)⟩
      · exact ⟨_, List.getElem?_concat_length, fun _ => rfl, fun _ _ _ => rfl⟩
    · exact Nat.le_of_eq (h.unread j hnone)
    · rw [List.take_nil, List.map_nil, List.append_nil]

theorem Following.message (h : Following x acts s) {i : Nat}
    (hst : s.hook.sources[i]? = some .OPEN) {message : List Char × List Char}
    (hm : (s.messages i)[s.handled i]? = some message) (randomUUID : ChannelId → String) :
    Following x (acts ++ [LiveAct.message i randomUUID]) { s with
      handled := Function.update s.handled i (s.handled i + 1)
      store := handleMessage x.parse s.store message randomUUID } := by
  have hpub : published (acts ++ [LiveAct.message i randomUUID]) = published acts := by
    rw [published_snoc]
    exact List.append_nil _
  obtain ⟨calls, hstore, hsub, hwindow⟩ := h.story
  have hsome : s.response i ≠ none := by
    intro hnone
    rw [Live.messages, Live.answer, hnone] at hm
    exact absurd hm (by simp)
  obtain ⟨r, hr⟩ := Option.ne_none_iff_exists'.mp hsome
  obtain ⟨before, after, env, events, old, hw⟩ := hwindow i .OPEN r hst rfl hr
  obtain ⟨event, hevent, hhandle⟩ := hw.message h.legible hr hm randomUUID
  have hlt := (List.getElem?_eq_some_iff.mp hevent).1
  have hheard : heard (calls ++ [.ingest (received event) (some ⟨some true⟩) randomUUID]) =
      old ++ (events.take (s.handled i + 1)).map received := by
    rw [heard_snoc, hw.given, List.take_add_one, hevent, List.map_append, List.append_assoc]
    rfl
  refine ⟨h.single, h.fresh, ?_, by rw [hpub]; exact h.legible,
    calls ++ [.ingest (received event) (some ⟨some true⟩) randomUUID], ?_, ?_, ?_⟩
  · intro j hj
    by_cases e : j = i
    · subst e
      exact absurd hj hsome
    · exact (Function.update_of_ne e ..).trans (h.unread j hj)
  · dsimp only
    rw [hhandle, hstore, createEmpty_snoc]
  · rw [hpub, hheard, hw.split, List.map_append]
    exact hw.old.append (((List.take_sublist _ _).trans hw.sent).map _)
  · intro j st r' hj hl hr'
    have hone : j = i := Option.some.inj
      ((h.single.connection j st hj hl).symm.trans (h.single.connection i _ hst rfl))
    subst hone
    obtain rfl := Option.some.inj (hr.symm.trans hr')
    have hafter : published (after ++ [LiveAct.message j randomUUID]) = published after := by
      rw [published_snoc]
      exact List.append_nil _
    refine ⟨before, after ++ [LiveAct.message j randomUUID], env, events, old, ?_, hw.answer, ?_, ?_, ?_, ?_,
      hw.old⟩
    · rw [hw.acts, List.append_assoc]
      rfl
    · rw [hafter]
      exact hw.sent
    · rw [hafter]
      exact hw.whole
    · dsimp only
      rw [Function.update_self]
      exact hlt
    · dsimp only
      rw [Function.update_self]
      exact hheard

theorem Following.clear (h : Following x acts s) (channel : ChannelId) :
    Following x (acts ++ [LiveAct.clear channel]) { s with store := clearEvents s.store channel } := by
  have hpub : published (acts ++ [LiveAct.clear channel]) = published acts := by
    rw [published_snoc]
    exact List.append_nil _
  obtain ⟨calls, hstore, hsub, hwindow⟩ := h.story
  have hheard : heard (calls ++ [StoreCall.clear channel]) = heard calls := by
    rw [heard_snoc]
    exact List.append_nil _
  refine ⟨h.single, h.fresh, h.unread, by rw [hpub]; exact h.legible, calls ++ [StoreCall.clear channel], ?_,
    by rw [hpub, hheard]; exact hsub, ?_⟩
  · rw [createEmpty_snoc, ← hstore]
    rfl
  · intro i st r hst hl hr
    obtain ⟨before, after, env, events, old, hw⟩ := hwindow i st r hst hl hr
    have hw' : Window x (acts ++ [LiveAct.clear channel])
        { s with store := clearEvents s.store channel } calls i r before
        (after ++ [LiveAct.clear channel]) env events old := hw.silent rfl rfl rfl
    refine ⟨before, _, env, events, old, { hw' with given := ?_ }⟩
    rw [hheard]
    exact hw'.given

theorem Following.step (h : Following x acts s) {act : LiveAct} (hg : Legible x s act)
    (hs : live x s act = some s') : Following x (acts ++ [act]) s' := by
  cases act with
  | request req =>
    obtain rfl := Option.some.inj hs
    exact h.request req hg
  | hook act =>
    simp only [live] at hs
    split at hs
    · obtain ⟨hook', hh, rfl⟩ := Option.map_eq_some_iff.mp hs
      exact h.hook hh
    · exact absurd hs (by simp)
  | reach i env =>
    simp only [live] at hs
    split at hs
    · rename_i hcond
      obtain rfl := Option.some.inj hs
      exact h.reach hcond.1 hcond.2 env
    · exact absurd hs (by simp)
  | message i randomUUID =>
    simp only [live] at hs
    split at hs
    · rename_i hst
      obtain ⟨message, hm, rfl⟩ := Option.map_eq_some_iff.mp hs
      exact h.message hst hm randomUUID
    · exact absurd hs (by simp)
  | clear channel =>
    obtain rfl := Option.some.inj hs
    exact h.clear channel

theorem following_init (x : Wire) : Following x [] (Live.init x) where
  single := .stopped rfl rfl fun hr => absurd hr.1 Bool.false_ne_true
  fresh _ _ := rfl
  unread _ _ := rfl
  legible event he := absurd he List.not_mem_nil
  story := ⟨[], rfl, List.nil_sublist _, fun i st r hst => absurd hst (by simp [Live.init, Hook.init])⟩

end

/-! ## the feeds -/

/-- the store puts a copy of an event on a feed -/
def Copied (c : ChannelId) (shown event : BroadcastEvent) : Prop :=
  ∃ options randomUUID, routedTo c (.ingest event options randomUUID) = some shown

/-- a feed has, newest first, copies of some of the events that the store was given -/
theorem feed_copied (calls : List StoreCall) (c : ChannelId) :
    ∃ sub, (sub.reverse).Sublist (heard calls) ∧
      List.Forall₂ (Copied c) ((createEmpty.run calls).events c) sub := by
  induction calls using List.reverseRecOn with
  | nil => exact ⟨[], List.Sublist.refl _, .nil⟩
  | append_singleton calls call ih =>
    obtain ⟨sub, hsub, hcopied⟩ := ih
    rw [createEmpty_snoc, heard_snoc]
    cases hr : routedTo c call with
    | none =>
      rw [(step_unrouted hr _).1]
      split
      · exact ⟨[], List.nil_sublist _, .nil⟩
      · exact ⟨sub, hsub.trans (List.sublist_append_left _ _), hcopied⟩
    | some shown =>
      rw [(step_routed hr _).1, prependEvent_eq]
      cases call with
      | clear channel => exact absurd hr.symm (Option.some_ne_none shown)
      | ingest event options randomUUID =>
        refine ⟨(event :: sub).take MAX_EVENTS, ?_,
          List.forall₂_take _ (.cons ⟨options, randomUUID, hr⟩ hcopied)⟩
        have htake : ((event :: sub).take MAX_EVENTS).reverse.Sublist (event :: sub).reverse :=
          (List.take_sublist _ _).reverse
        rw [List.reverse_cons] at htake
        exact htake.trans (hsub.append (List.Sublist.refl _))

/-- an event on the feed of a channel: the event itself where it is one of the channel, and a copy with
an id of its own of an announcement of the admin, and of whatever goes to the whole resort -/
structure Shown (c : ChannelId) (shown : BroadcastEvent) (event : IslandEvent) : Prop where
  same : shown = { received event with id := shown.id, channel := c }
  why : (.of event.channel = c ∧ shown.id = event.id) ∨ event.event_type = .ADMIN_ANNOUNCEMENT ∨
    c = .ResortWide

theorem shown_of_copied {c : ChannelId} {shown : BroadcastEvent} {event : IslandEvent}
    (h : Copied c shown (received event)) : Shown c shown event := by
  obtain ⟨options, randomUUID, h⟩ := h
  rw [routedTo] at h
  split at h
  · rename_i hadmin
    obtain rfl := Option.some.inj h
    refine ⟨rfl, .inr (.inl ?_)⟩
    change event.event_type.text = _ at hadmin
    revert hadmin
    cases event.event_type <;> decide
  · split at h
    · rename_i hc
      obtain rfl := Option.some.inj h
      subst hc
      exact ⟨rfl, .inl ⟨rfl, rfl⟩⟩
    · split at h
      · rename_i hm
        obtain ⟨_, rfl⟩ := hm
        obtain rfl := Option.some.inj h
        exact ⟨rfl, .inr (.inr rfl)⟩
      · exact absurd h.symm (Option.some_ne_none shown)

/-- **A feed is a subsequence of what was published.**  In any interleaving of posts, of other clients,
of lost and renewed connections, of messages that are handled late and of feeds that are cleared: the
events on every feed, the oldest first, are distinct entries of the list of the events that the service
has broadcast, in that order, each of them unchanged but for channel and id; and each comes from a post
to a route of its channel, with the passcode where it is for the whole resort. -/
theorem feed_subsequence (x : Wire) (acts : List LiveAct) (s : Live)
    (hrun : (live x).Runs (Legible x) (Live.init x) acts s) (c : ChannelId) :
    ∃ sub : List IslandEvent, sub.reverse.Sublist (published acts) ∧
      List.Forall₂ (Shown c) (s.store.events c) sub ∧
      ∀ event ∈ sub, ∃ env id post, .request (.post env id post) ∈ acts ∧
        Broadcast.Spoken env id post event := by
  have hs : Following x acts s :=
    hrun.inv_history (fun _ _ _ _ h hg hs => h.step hg hs) (following_init x)
  obtain ⟨calls, hstore, hheard, _⟩ := hs.story
  obtain ⟨copies, hcopies, hcopied⟩ := feed_copied calls c
  obtain ⟨events, hevents, hmap⟩ := List.sublist_map_iff.mp (hcopies.trans hheard)
  have hsub : events.reverse.reverse.Sublist (published acts) := by rwa [List.reverse_reverse]
  have hcopies : copies = events.reverse.map received := by
    rw [List.map_reverse, ← hmap, List.reverse_reverse]
  refine ⟨events.reverse, hsub, ?_, ?_⟩
  · rw [hstore]
    rw [hcopies, List.forall₂_map_right_iff] at hcopied
    exact hcopied.imp fun _ _ h => shown_of_copied h
  · intro event he
    have hpub := hsub.subset (List.mem_reverse.mpr he)
    obtain ⟨act, hact, hevent⟩ := List.mem_filterMap.mp hpub
    cases act with
    | request req =>
      cases req with
      | post env id post => exact ⟨env, id, post, hact, Broadcast.post_spoken hevent⟩
      | _ => exact absurd hevent.symm (Option.some_ne_none event)
    | _ => exact absurd hevent.symm (Option.some_ne_none event)

/-! ### one event, handled -/

def feEnv : Broadcast.Env := fun name => if name = "FE_TOKEN" then some "fe-token" else none

def wire : Wire where
  gatewayUrl := "https://gateway"
  request := ⟨none, none, some (.text "fe-token")⟩
  stringify := Broadcast.textOf Broadcast.anaPosts
  parse := Broadcast.readBack Broadcast.anaPosts

def confirmation : IslandEvent := Broadcast.anaPost.event

/-- the hook connects, and the hotel posts -/
def connected : List LiveAct :=
  [.hook .effect, .reach 0 feEnv, .hook (.opened 0),
   .request (.post (fun _ => none) "event-1" ⟨"/hotel/confirm", none, .obj Broadcast.anaPost.payload.body⟩)]

theorem connected_runs : ∃ s, (live wire).Runs (Legible wire) (Live.init wire) connected s ∧
    s.hook.sources = [.OPEN] ∧ s.response 0 = some 0 ∧ s.handled 0 = 0 ∧ s.store = createEmpty ∧
    s.bus.clients = [⟨0, Broadcast.ChannelId.values⟩] ∧
    s.bus.responses = [⟨200, ": connected\n\n" :: [confirmation].map (frame wire.stringify)⟩] := by
  have hpost : (Broadcast.post (fun _ => none) "event-1"
      ⟨"/hotel/confirm", none, .obj Broadcast.anaPost.payload.body⟩).2 = some confirmation := rfl
  have hbefore : ∃ s, (live wire).Runs (Legible wire) (Live.init wire)
      [.hook .effect, .reach 0 feEnv, .hook (.opened 0)] s ∧
      s.hook.sources = [.OPEN] ∧ s.response 0 = some 0 ∧ s.handled 0 = 0 ∧ s.store = createEmpty ∧
      s.bus.clients = [⟨0, Broadcast.ChannelId.values⟩] ∧
      s.bus.responses = [⟨200, [": connected\n\n"]⟩] :=
    ⟨_, Machine.runs_cons trivial rfl (Machine.runs_cons trivial rfl
      (Machine.runs_cons trivial rfl (Machine.runs_nil _))), rfl, rfl, rfl, rfl, rfl, rfl⟩
  obtain ⟨s, hrun, hsources, hresponse, hhandled, hstore, hclients, hresponses⟩ := hbefore
  refine ⟨_, hrun.snoc (fun event hevent => ?_) rfl, hsources, hresponse, hhandled, hstore, ?_, ?_⟩
  · obtain rfl := Option.some.inj (hpost.symm.trans hevent)
    exact Broadcast.posted_readable Broadcast.anaPosts_legible List.mem_cons_self
  · dsimp only
    rw [Broadcast.serve, hpost]
    exact hclients
  · dsimp only
    rw [Broadcast.serve, hpost]
    show s.bus.clients.foldl _ s.bus.responses = _
    rw [hclients, hresponses]
    rfl

theorem handled_runs : ∃ s, (live wire).Runs (Legible wire) (Live.init wire)
      (connected ++ [.message 0 fun _ => "copy-1"]) s ∧
    s.hook.sources = [.OPEN] ∧ s.response 0 = some 0 ∧ s.handled 0 = (s.messages 0).length ∧
    s.bus.clients = [⟨0, Broadcast.ChannelId.values⟩] ∧
    s.store.events .Hotel = [received confirmation] := by
  obtain ⟨s, hrun, hsources, hresponse, hhandled, hstore, hclients, hresponses⟩ := connected_runs
  have hread : Readable wire.stringify wire.parse confirmation.json := Broadcast.posted_readable Broadcast.anaPosts_legible List.mem_cons_self
  have hmessages : s.messages 0 =
      [("message".toList, (wire.stringify confirmation.json).toList)] := by
    rw [Live.messages, Live.answer, hresponse, Option.bind_some, hresponses]
    show (if (200 : Nat) = 200 then Broadcast.EventSource.messages _ else []) = _
    rw [if_pos rfl]
    exact Broadcast.messages_stream wire.stringify (List.forall_mem_singleton.mpr hread.line)
  have hs : live wire s (.message 0 fun _ => "copy-1") = some { s with
      handled := Function.update s.handled 0 (s.handled 0 + 1)
      store := ingestEvent s.store (received confirmation) (some ⟨some true⟩) fun _ => "copy-1" } := by
    rw [← handleMessage_event hread]
    simp only [live]
    rw [hsources, hmessages, hhandled]
    rfl
  refine ⟨_, hrun.snoc trivial hs, hsources, hresponse, ?_, hclients, ?_⟩
  · show Function.update s.handled 0 (s.handled 0 + 1) 0 = (s.messages 0).length
    rw [Function.update_self, hhandled, hmessages]
    rfl
  · dsimp only
    rw [hstore]
    rfl

theorem feed_subsequence_confirmation : ∃ acts s,
    (live wire).Runs (Legible wire) (Live.init wire) acts s ∧
    s.store.events .Hotel = [received confirmation] ∧
    ∃ sub : List IslandEvent, sub.reverse.Sublist (published acts) ∧
      List.Forall₂ (Shown .Hotel) [received confirmation] sub := by
  obtain ⟨s, hrun, _, _, _, _, hfeed⟩ := handled_runs
  obtain ⟨sub, hsub, hshown, _⟩ := feed_subsequence wire _ s hrun .Hotel
  rw [hfeed] at hshown
  exact ⟨_, s, hrun, hfeed, sub, hsub, hshown⟩

/-- **Nothing is missed while a connection lasts.**  An event source is open, its client is still one of
the service, and every message that it was sent is handled: then the events that the store was given
last are all events published on the channels of the client since the service got its request. -/
theorem nothing_missed (x : Wire) (acts : List LiveAct) (s : Live)
    (hrun : (live x).Runs (Legible x) (Live.init x) acts s) {i r : Nat}
    {client : Broadcast.ConnectedClient} (hopen : s.hook.sources[i]? = some .OPEN)
    (hr : s.response i = some r) (hclient : client ∈ s.bus.clients) (hres : client.res = r)
    (hread : s.handled i = (s.messages i).length) :
    ∃ before env after calls old, acts = before ++ .reach i env :: after ∧
      s.store = createEmpty.run calls ∧ old.Sublist ((published before).map received) ∧
      heard calls = old ++ ((published after).filter
        fun event => event.channel ∈ client.allowedChannels).map received := by
  have hs : Following x acts s :=
    hrun.inv_history (fun _ _ _ _ h hg hs => h.step hg hs) (following_init x)
  obtain ⟨calls, hstore, _, hwindow⟩ := hs.story
  obtain ⟨before, after, env, events, old, hw⟩ := hwindow i .OPEN r hopen rfl hr
  obtain ⟨⟨status, written⟩, hresponse, hwritten, hattached⟩ := hw.answer
  have hst : status = 200 := hattached client hclient hres
  have hlegible : ∀ event ∈ events, Readable x.stringify x.parse event.json := fun event he => by
    have := hs.legible
    rw [hw.split] at this
    exact this event (List.mem_append_right _ (hw.sent.subset he))
  have hcount : (s.messages i).length = events.length := by
    obtain rfl : written = _ := hwritten hst
    rw [Live.messages, Live.answer, hr, Option.bind_some, hresponse]
    dsimp only
    rw [if_pos hst, Broadcast.messages_stream x.stringify fun event he => (hlegible event he).line,
      List.length_map]
  refine ⟨before, env, after, calls, old, hw.acts, hstore, hw.old, ?_⟩
  rw [hw.given, hread, hcount, List.take_length, hw.whole client hclient hres]

theorem nothing_missed_confirmation : ∃ before env after calls old,
    connected ++ [.message 0 fun _ => "copy-1"] = before ++ .reach 0 env :: after ∧
      old.Sublist ((published before).map received) ∧
      heard calls = old ++ ((published after).filter
        fun event => event.channel ∈ Broadcast.ChannelId.values).map received := by
  obtain ⟨s, hrun, hsources, hresponse, hhandled, hclients, _⟩ := handled_runs
  obtain ⟨before, env, after, calls, old, hacts, _, hold, hheard⟩ :=
    @nothing_missed wire _ s hrun 0 0 ⟨0, Broadcast.ChannelId.values⟩ (by rw [hsources]; rfl)
      hresponse (by rw [hclients]; exact List.mem_singleton.mpr rfl) rfl hhandled
  exact ⟨before, env, after, calls, old, hacts, hold, hheard⟩

end Frontend
