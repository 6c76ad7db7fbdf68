import Purrlington.Gateway.Mount
import Purrlington.Lib.Url
import Purrlington.Parrot.Chat

/-!
# Requests to parrot

What a request does to the conversation store of the instance that it reaches.

* `Turn`                what a successful POST /chat adds to the history;
* `Get`, `Get.guest`    a GET or HEAD request as the gateway has read it, and the guest whose history
                        parrot reads in what is forwarded;
* `Get.guest_of_asSent` a path that was sent as it decodes asks for the history of the guest it names;
* `Traffic`, `ConversationStore.handle`   the requests, and what is done with them;
* `Chats`, `chat_step`  a step of the chat endpoint;
* `chat_handled`        a chat that runs alone does this, whatever the model and the tools answer.
-/

set_option linter.unusedSectionVars false

namespace Parrot
open SM Gateway

/-- the messages of a successful chat: the guest's, hidden tool rounds, the reply -/
structure Turn where
  content : String
  censored : Bool
  rounds : List Message
  hidden : ∀ m ∈ rounds, m.visible = false
  reply : String

namespace Turn

def messages (t : Turn) : List Message :=
  .user t.content t.censored :: (t.rounds ++ [.assistant (some t.reply) none])

/-- the user and the assistant message of the turn -/
def visible (t : Turn) : List Message :=
  [.user t.content t.censored, .assistant (some t.reply) none]

theorem filter_messages (t : Turn) : t.messages.filter Message.visible = t.visible := by
  have h : t.rounds.filter Message.visible = [] := by
    apply List.filter_eq_nil_iff.mpr
    intro m hm
    rw [t.hidden m hm]
    exact Bool.false_ne_true
  rw [messages, List.filter_cons_of_pos rfl, List.filter_append, h]
  rfl

end Turn

/-! ## requests that only read -/

/-- a GET or HEAD request under /api/parrot.  `shareable` is whether the response may be cached if it
is not a history, `took` the time until it has been captured -/
structure Get where
  http : HttpRequest
  target : Bytes
  parsed : parseRequestURI target = some http.url
  safe : http.method = ascii "GET" ∨ http.method = ascii "HEAD"
  mounted : (Mount.parrot.urlParam http.url).isSome = true
  shareable : Bool
  took : Nat

/-- the guest of `/history/{guest_id}`: one segment of the path, and not an empty one -/
def historyId (path : Bytes) : Option String :=
  if ascii "/history/" <+: path ∧ path.drop 9 ≠ [] ∧ 47 ∉ path.drop 9 then
    some (Url.readText (path.drop 9))
  else none

namespace Get

/-- as the cache middleware receives it -/
def request (r : Get) : Request := ⟨r.http.method, r.target, r.http.url, r.parsed, r.http.header⟩

/-- the guest whose history is asked for, by the path that is forwarded -/
def guest (r : Get) : Option String :=
  if r.http.method = ascii "GET" then
    (Mount.parrot.urlParam r.http.url).bind fun wildcard => historyId (wildcardPath wildcard)
  else none

end Get

theorem historyId_utf8 {g : String} (hne : g ≠ "") (hslash : 47 ∉ Url.utf8 g) :
    historyId (ascii "/history/" ++ Url.utf8 g) = some g := by
  have hdrop : (ascii "/history/" ++ Url.utf8 g).drop 9 = Url.utf8 g := List.drop_left' rfl
  have hempty : Url.utf8 g ≠ [] := fun e => hne (Url.utf8_inj e)
  rw [historyId, hdrop, if_pos ⟨List.prefix_append _ _, hempty, hslash⟩, Url.readText_utf8]

/-- **A path that was sent as it decodes is forwarded for the guest that it names.** -/
theorem Get.guest_of_asSent {r : Get} {g : String} (hget : r.http.method = ascii "GET")
    (hpath : r.http.url.path = Mount.parrot.path ++ (ascii "/history/" ++ Url.utf8 g))
    (hsent : Mount.parrot.AsSent r.http.url) (hne : g ≠ "") (hslash : 47 ∉ Url.utf8 g) :
    r.guest = some g := by
  obtain ⟨wildcard, hw⟩ := Option.isSome_iff_exists.mp r.mounted
  have hrest := (Mount.wildcardPath_eq_rest_iff
    (fun hraw => (parseRequestURI_rawPath r.parsed hraw).2) hw).mpr hsent
  have e : Mount.parrot.rest r.http.url.path = ascii "/history/" ++ Url.utf8 g := by
    rw [hpath]
    exact Mount.parrot.rest_append (ascii "history/" ++ Url.utf8 g)
  rw [Get.guest, if_pos hget, hw, Option.bind_some, hrest, e, historyId_utf8 hne hslash]

/-! ## all requests -/

/-- a request to the parrot service, with what it adds to the history; `other` writes nothing -/
inductive Traffic where
  | chat (guest_id : String) (turn : Turn)
  | chatFailed (guest_id : String)
  | stream (guest_id : String) (messages : List Message)
  | get (r : Get)
  | other

namespace Traffic

/-- the request does not write to the history of `g` but as a successful POST /chat -/
def Regular (g : String) : Traffic → Prop
  | .stream guest_id _ => guest_id ≠ g
  | _ => True

/-- the turn that a request adds to the history of `g` -/
def turn? (g : String) : Traffic → Option Turn
  | .chat guest_id turn => if guest_id = g then some turn else none
  | _ => none

/-- the guest whose history the request asks for -/
def guest : Traffic → Option String
  | .get r => r.guest
  | _ => none

end Traffic

/-- what an instance does with a request -/
def ConversationStore.handle (s : ConversationStore) (now : Int) : Traffic → ConversationStore
  | .chat guest_id turn => (s.getMessages now guest_id).2.append now guest_id turn.messages
  | .chatFailed guest_id => (s.getMessages now guest_id).2
  | .stream guest_id messages => (s.getMessages now guest_id).2.append now guest_id messages
  | .get _ => s
  | .other => s

/-! ## what the chat endpoint does -/

/-- the turn so far: the guest's message, and rounds of tools -/
def Thread.Opened (cfg : Settings) (t : Thread) : Prop :=
  ∃ rounds, t.new_messages = .user (cfg.maskProfanity t.req.message).1
    (cfg.maskProfanity t.req.message).2 :: rounds ∧ ∀ m ∈ rounds, m.visible = false

theorem Thread.Opened.say {cfg : Settings} {t : Thread} (h : t.Opened cfg) {m : Message}
    (hm : m.visible = false) (pc : Pc) : (t.say m pc).Opened cfg := by
  obtain ⟨rounds, e, hv⟩ := h
  refine ⟨rounds ++ [m], ?_, fun x hx => ?_⟩
  · show t.new_messages ++ [m] = _
    rw [e]
    rfl
  · rcases List.mem_append.mp hx with hx | hx
    · exact hv x hx
    · rw [List.mem_singleton.mp hx]
      exact hm

/-- chat waits for the model or for a tool -/
def Pc.waits : Pc → Bool
  | .completion _ => true
  | .tools _ _ _ => true
  | _ => false

/-- a request of chat where it stands -/
def Thread.InChat (cfg : Settings) (t : Thread) : Prop :=
  t.streaming = false ∧ (t.pc = .start ∨ t.pc = .ended ∨ t.pc.waits = true ∧ t.Opened cfg)

/-- the turn joins the history of the session guest -/
def Shared.keep (c : Shared) (r : ChatRequest) (turn : Turn) : Shared :=
  match r.session with
  | some g => { c with store := c.store.append c.now g turn.messages }
  | none => c

/-- what a waiting chat does next: it waits again, it ends without a turn, or it replies -/
inductive Chats (cfg : Settings) (c : Shared) (r : ChatRequest) (p : Shared × Thread) : Prop where
  | waits : p.2.pc.waits = true → p.2.Opened cfg → p.2.req = r → p.1 = c → Chats cfg c r p
  | fails : p.2.pc = .ended → p.1 = c → Chats cfg c r p
  | replies (turn : Turn) : (turn.content, turn.censored) = cfg.maskProfanity r.message →
      p.2.pc = .ended → p.1 = c.keep r turn → Chats cfg c r p

section
variable {cfg : Settings} {c : Shared} {t : Thread}

theorem reply_chats (h : t.Opened cfg) (text : String) : Chats cfg c t.req (t.reply c text) := by
  obtain ⟨rounds, e, hv⟩ := h
  refine .replies ⟨_, _, rounds, hv, text⟩ rfl rfl ?_
  show c.persist (t.conclude text .ended) = _
  unfold Shared.persist Shared.keep
  show (match t.req.session with | some g => _ | none => _) = _
  cases t.req.session with
  | none => rfl
  | some g =>
    show ({ c with store := c.store.append c.now g (t.new_messages ++ [_]) } : Shared) = _
    rw [e]
    rfl

theorem nextRound_chats (h : t.Opened cfg) (round : Nat) : Chats cfg c t.req (t.nextRound c round) := by
  unfold Thread.nextRound
  split
  · exact .waits rfl h rfl rfl
  · exact reply_chats h FALLBACK

theorem answered_chats (h : t.Opened cfg) (round : Nat) (answer : Completion) :
    Chats cfg c t.req (t.answered c round answer) := by
  unfold Thread.answered
  split
  · split
    · exact .fails rfl rfl
    · have ho := h.say (m := .assistant answer.content (some [])) rfl .ended
      exact nextRound_chats ho round
    · rename_i call rest _
      exact .waits rfl (h.say (m := .assistant answer.content (some (call :: rest))) rfl _) rfl rfl
  · exact reply_chats h _

theorem toolDone_chats (h : t.Opened cfg) (round : Nat) (call : ToolCall) (rest : List ToolCall)
    (content : String) : Chats cfg c t.req (t.toolDone c round call rest content) := by
  cases rest with
  | nil =>
    have ho := h.say (m := .tool call.id content) rfl .ended
    exact nextRound_chats ho round
  | cons next rest => exact .waits rfl (h.say (m := .tool call.id content) rfl _) rfl rfl

theorem chat_step (h : t.InChat cfg) {op : Op} {p : Shared × Thread}
    (hs : t.step cfg c op = some p) : t.pc = .start ∧ p = t.begin cfg c ∨ Chats cfg c t.req p := by
  have hmoves := Thread.moves_of_step hs
  obtain ⟨_, hpc | hpc | ⟨hpc, hopened⟩⟩ := h
  · rw [hpc] at hmoves
    cases hmoves with
    | begin => exact .inl ⟨hpc, rfl⟩
    | dropped hd => exact absurd hd Bool.false_ne_true
    | failed hf => exact absurd hf Bool.false_ne_true
    | persisted hp => exact absurd hp Bool.false_ne_true
  · rw [hpc] at hmoves
    cases hmoves with
    | dropped hd => exact absurd hd Bool.false_ne_true
    | failed hf => exact absurd hf Bool.false_ne_true
    | persisted hp => exact absurd hp Bool.false_ne_true
  · right
    generalize t.pc = pc at hmoves hpc
    cases hmoves with
    | answered round answer => exact answered_chats hopened round answer
    | toolDone round call rest content => exact toolDone_chats hopened round call rest content
    | dropped _ => exact .fails rfl rfl
    | failed hf =>
      cases pc with
      | completion round => exact absurd hf Bool.false_ne_true
      | tools round call rest => exact absurd hf Bool.false_ne_true
      | _ => exact absurd hpc Bool.false_ne_true
    | persisted hp =>
      cases pc with
      | completion round => exact absurd hp Bool.false_ne_true
      | tools round call rest => exact absurd hp Bool.false_ne_true
      | _ => exact absurd hpc Bool.false_ne_true
    | _ => exact absurd hpc Bool.false_ne_true

theorem begin_opened (cfg : Settings) (c : Shared) (hchat : t.streaming = false) :
    (t.begin cfg c).2.pc.waits = true ∧ (t.begin cfg c).2.Opened cfg ∧
      (t.begin cfg c).2.req = t.req := by
  unfold Thread.begin
  refine ⟨?_, ?_, rfl⟩
  · show Pc.waits (if t.streaming then .create 0 else .completion 0) = true
    rw [hchat]
    rfl
  · exact ⟨[], rfl, fun _ hm => absurd hm List.not_mem_nil⟩

theorem Thread.InChat.step (h : t.InChat cfg) {op : Op} {p : Shared × Thread}
    (hs : t.step cfg c op = some p) : p.2.InChat cfg := by
  refine ⟨(Thread.step_streaming hs).trans h.1, ?_⟩
  rcases chat_step h hs with ⟨_, rfl⟩ | hc
  · obtain ⟨hw, ho, _⟩ := begin_opened cfg c h.1
    exact .inr (.inr ⟨hw, ho⟩)
  · cases hc with
    | waits hw ho _ _ => exact .inr (.inr ⟨hw, ho⟩)
    | fails he _ => exact .inr (.inl he)
    | replies _ _ he _ => exact .inr (.inl he)

end

/-! ## a chat that runs alone -/

/-- the chat `r` of `g` began with the store `s₀`: it waits, or it has ended without a turn or with
one -/
inductive Handled (cfg : Settings) (r : ChatRequest) (g : String) (s₀ : ConversationStore)
    (p : Shared × Thread) : Prop where
  | waiting : p.2.pc.waits = true → p.2.Opened cfg → p.2.req = r →
      p.1.store = s₀.handle p.1.now (.chatFailed g) → Handled cfg r g s₀ p
  | failed : p.2.pc = .ended → p.1.store = s₀.handle p.1.now (.chatFailed g) → Handled cfg r g s₀ p
  | stored (turn : Turn) : (turn.content, turn.censored) = cfg.maskProfanity r.message →
      p.2.pc = .ended → p.1.store = s₀.handle p.1.now (.chat g turn) → Handled cfg r g s₀ p

section
variable {cfg : Settings} {r : ChatRequest} {g : String} {s₀ : ConversationStore} {c : Shared}
variable {t : Thread}

theorem Handled.step (hg : r.session = some g) (h : Handled cfg r g s₀ (c, t))
    (hchat : t.streaming = false) {op : Op} {p : Shared × Thread} (hs : t.step cfg c op = some p) :
    Handled cfg r g s₀ p := by
  have hended : t.pc ≠ .ended := by
    intro e
    have hmoves := Thread.moves_of_step hs
    rw [e] at hmoves
    cases hmoves with
    | dropped hd => exact absurd hd Bool.false_ne_true
    | failed hf => exact absurd hf Bool.false_ne_true
    | persisted hp => exact absurd hp Bool.false_ne_true
  cases h with
  | failed he _ => exact absurd he hended
  | stored _ _ he _ => exact absurd he hended
  | waiting hw ho hr hstore =>
    obtain rfl : t.req = r := hr
    have hnot : ¬ (t.pc = .start ∧ p = t.begin cfg c) := by
      rintro ⟨e, _⟩
      replace hw : t.pc.waits = true := hw
      rw [e] at hw
      exact absurd hw Bool.false_ne_true
    obtain ⟨c', t'⟩ := p
    cases (chat_step ⟨hchat, .inr (.inr ⟨hw, ho⟩)⟩ hs).resolve_left hnot with
    | waits hw' ho' hr' hc =>
      obtain rfl : c' = c := hc
      exact .waiting hw' ho' hr' hstore
    | fails he hc =>
      obtain rfl : c' = c := hc
      exact .failed he hstore
    | replies turn hturn he hc =>
      obtain rfl : c' = c.keep t.req turn := hc
      refine .stored turn hturn he ?_
      unfold Shared.keep
      rw [hg]
      show c.store.append c.now g turn.messages = _
      rw [show c.store = s₀.handle c.now (.chatFailed g) from hstore]
      rfl

theorem Handled.steps (hg : r.session = some g) {ops : List Op} {c' : Shared} {t' : Thread}
    (h : Handled cfg r g s₀ (c, t)) (hchat : t.streaming = false)
    (hs : (service cfg).Steps (fun _ _ => True) c t ops c' t') : Handled cfg r g s₀ (c', t') := by
  induction ops generalizing c t with
  | nil =>
    obtain ⟨rfl, rfl⟩ := hs
    exact h
  | cons op ops ih =>
    obtain ⟨_, d, u, hst, hs⟩ := hs
    exact ih (h.step hg hchat hst) ((Thread.step_streaming hst).trans hchat) hs

/-- **Chat stores a turn or nothing.**  Whatever a chat of a guest awaits and however it ends, run
alone it leaves the store that `handle` says: of a failed chat, or of a chat with a turn that opens
with the guest's masked message. -/
theorem chat_handled (hg : r.session = some g) {op : Op} {ops : List Op} {c' : Shared} {t' : Thread}
    (hs : (service cfg).Steps (fun _ _ => True) c ((service cfg).start (r, false)) (op :: ops) c' t') :
    Handled cfg r g c.store (c', t') := by
  obtain ⟨_, d, u, hst, hs⟩ := hs
  have hmoves := Thread.moves_of_step hst
  have hpc : ((service cfg).start (r, false)).pc = .start := rfl
  rw [hpc] at hmoves
  have hbegin : (d, u) = ((service cfg).start (r, false)).begin cfg c := by
    generalize (d, u) = p at hmoves
    cases hmoves with
    | begin => rfl
    | dropped hd => exact absurd hd Bool.false_ne_true
    | failed hf => exact absurd hf Bool.false_ne_true
    | persisted hp => exact absurd hp Bool.false_ne_true
  obtain ⟨hw, ho, hreq⟩ := begin_opened cfg c (t := (service cfg).start (r, false)) rfl
  have hstore : (((service cfg).start (r, false)).begin cfg c).1 =
      { c with store := (c.store.getMessages c.now g).2 } := by
    show (Thread.begin cfg c { req := r, streaming := false }).1 = _
    unfold Thread.begin
    rw [hg]
  rw [← hbegin] at hw ho hreq hstore
  obtain rfl : d = _ := hstore
  exact Handled.steps hg (.waiting hw ho hreq rfl) ((Thread.step_streaming hst).trans rfl) hs

/-- the model answers at once -/
theorem chat_handled_hello : ∃ c t,
    (service plainSettings).Steps (fun _ _ => True) freshService.shared
      ((service plainSettings).start (⟨"hello", some "ana"⟩, false))
      [.go, .response ⟨false, some "ahoy", none⟩] c t ∧
    Handled plainSettings ⟨"hello", some "ana"⟩ "ana" freshService.shared.store (c, t) ∧
    c.store.getVisible "ana" = [.user "hello" false, .assistant (some "ahoy") none] := by
  have hs : ∃ c t, (service plainSettings).Steps (fun _ _ => True) freshService.shared
      ((service plainSettings).start (⟨"hello", some "ana"⟩, false))
      [.go, .response ⟨false, some "ahoy", none⟩] c t ∧
      c.store.getVisible "ana" = [.user "hello" false, .assistant (some "ahoy") none] :=
    ⟨_, _, ⟨trivial, _, _, rfl, trivial, _, _, rfl, rfl, rfl⟩, rfl⟩
  obtain ⟨c, t, hs, hvisible⟩ := hs
  exact ⟨c, t, hs, chat_handled rfl hs, hvisible⟩

end
end Parrot
