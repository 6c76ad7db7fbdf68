import Purrlington.Parrot.Panel

/-!
# Parrot: what the panel shows and what was said

The chat panel of a guest and the instances of the service, in any interleaving: other clients send
requests at any time, responses are late or lost, the session changes between guests.

* `Dialog`, `dialog`    the parts together;
* `Thread.replied`, `Thread.added`   what a request answers, what its steps add to a conversation;
* `conversation`        the messages that a run adds to the conversations of a guest;
* `thread_vouched`      a thread is a history of the guest and chats that were answered since.
-/

set_option linter.unusedSectionVars false

namespace Parrot
open SM

/-! ## what a request adds -/

/-- the reply of the chat endpoint; without one it answers with an error -/
def Thread.replied (t : Thread) : Option String :=
  match t.pc, t.new_messages.getLast? with
  | .ended, some (.assistant (some reply) none) => some reply
  | _, _ => none

/-- what a step adds to the conversation of a guest -/
def Thread.added (g : String) (t : Thread) (op : Op) (t' : Thread) : List Message :=
  if t'.req.session = some g ∧ (t.pc.persists op = true ∨ t'.replied ≠ none) then t'.new_messages
  else []

/-- in the rounds of chat, the turn has its first message -/
def Pc.Talks (opened : Prop) : Pc → Prop
  | .completion _ => opened
  | .tools _ _ _ => opened
  | _ => True

def Thread.Sound (cfg : Settings) (t : Thread) : Prop := t.pc.Talks (t.Opened cfg)

/-- a conversation is left as it is, or gets messages and is trimmed -/
def Adds (old new now : List Message) : Prop :=
  (new = [] ∧ now = old) ∨ ∃ max_messages, now = trim max_messages (old ++ new)

/-- the turn of a request that replied -/
def Turn.Of (cfg : Settings) (turn : Turn) (t : Thread) : Prop :=
  t.new_messages = turn.messages ∧ (turn.content, turn.censored) = cfg.maskProfanity t.req.message

section
variable {cfg : Settings} {c : Shared} {t : Thread} {op : Op} {p : Shared × Thread}

theorem replied_of_turn {turn : Turn} (h : turn.Of cfg t) (hpc : t.pc = .ended) :
    t.replied = some turn.reply := by
  have hlast : t.new_messages.getLast? = some (.assistant (some turn.reply) none) := by
    rw [h.1, Turn.messages, ← List.cons_append, List.getLast?_concat]
  rw [Thread.replied, hpc, hlast]

theorem ended_of_replied {r : String} (h : t.replied = some r) : t.pc = .ended := by
  rw [Thread.replied] at h
  split at h
  · assumption
  · exact absurd h (by simp)

/-- a request that has said nothing to the guest yet does not reply -/
theorem replied_of_opened (h : t.Opened cfg) {pc : Pc} : (t.goto pc).replied = none := by
  obtain ⟨rounds, e, hv⟩ := h
  rw [Thread.replied]
  split
  · rename_i reply _ hlast
    have hlast : t.new_messages.getLast? = some (.assistant (some reply) none) := hlast
    rw [e] at hlast
    have hmem := List.mem_of_getLast? hlast
    rcases List.mem_cons.mp hmem with hu | hr
    · exact absurd hu (by simp)
    · exact absurd (hv _ hr).symm Bool.false_ne_true
  · rfl

/-- what a step of a request leaves: of the thread, of the conversations, and, where chat replies, of
the store -/
structure Leaves (cfg : Settings) (c : Shared) (t : Thread) (op : Op) (p : Shared × Thread) : Prop where
  sound : p.2.Sound cfg
  req : p.2.req = t.req
  adds : ∀ g, Adds (c.store.messages g) (t.added g op p.2) (p.1.store.messages g)
  replies : t.pc.persists op = false → ∀ r, p.2.replied = some r → ∃ turn : Turn, turn.Of cfg p.2 ∧
    ∀ g, t.req.session = some g → p.1.store = c.store.append c.now g turn.messages

theorem persist_messages (c : Shared) (u : Thread) (g : String) :
    (c.persist u).store.messages g = if u.req.session = some g
      then trim c.store.max_messages (c.store.messages g ++ u.new_messages)
      else c.store.messages g := by
  unfold Shared.persist
  cases hs : u.req.session with
  | none => rw [if_neg (by simp)]
  | some g' =>
    by_cases e : g' = g
    · subst e
      rw [if_pos rfl]
      exact c.store.append_messages_self c.now g' _
    · rw [if_neg (fun h => e (Option.some.inj h))]
      exact c.store.append_messages_ne c.now (fun h => e h.symm) _

theorem leaves_quiet (hsound : p.2.Sound cfg) (hreq : p.2.req = t.req)
    (hstore : ∀ g, p.1.store.messages g = c.store.messages g) (hpers : t.pc.persists op = false)
    (hrep : p.2.replied = none) : Leaves cfg c t op p where
  sound := hsound
  req := hreq
  adds g := by
    refine .inl ⟨if_neg ?_, hstore g⟩
    rintro ⟨_, h | h⟩
    · rw [hpers] at h
      exact Bool.false_ne_true h
    · exact h hrep
  replies _ r hr := absurd hr (by rw [hrep]; simp)

theorem adds_persisted (h : t.pc.persists op = true ∨ p.2.replied ≠ none) (hreq : p.2.req = t.req)
    {u : Thread} (hu : p.1.store = (c.persist u).store) (hureq : u.req = t.req)
    (hnew : p.2.new_messages = u.new_messages) (g : String) :
    Adds (c.store.messages g) (t.added g op p.2) (p.1.store.messages g) := by
  rw [hu, persist_messages, hureq, Thread.added, hreq, hnew]
  by_cases hs : t.req.session = some g
  · rw [if_pos hs, if_pos ⟨hs, h⟩]
    exact .inr ⟨_, rfl⟩
  · rw [if_neg hs, if_neg fun hc => hs hc.1]
    exact .inl ⟨rfl, rfl⟩

theorem leaves_reply {u : Thread} (hureq : u.req = t.req) (h : u.Opened cfg) (text : String) :
    Leaves cfg c t op (u.reply c text) := by
  obtain ⟨rounds, e, hv⟩ := h
  have hturn : Turn.Of cfg ⟨(cfg.maskProfanity u.req.message).1, (cfg.maskProfanity u.req.message).2,
      rounds, hv, text⟩ (u.reply c text).2 := by
    refine ⟨?_, rfl⟩
    show u.new_messages ++ [_] = _
    rw [e]
    rfl
  have hrep : (u.reply c text).2.replied = some text := replied_of_turn hturn rfl
  refine ⟨trivial, hureq, ?_, ?_⟩
  · exact adds_persisted (u := u.conclude text .ended) (.inr (by rw [hrep]; simp)) hureq rfl hureq rfl
  · intro _ r _
    refine ⟨_, hturn, ?_⟩
    intro g hs
    have hs' : (u.conclude text .ended).req.session = some g := by
      rw [← hs, ← hureq]
      rfl
    show (c.persist (u.conclude text .ended)).store = _
    rw [Shared.persist, hs', ← hturn.1]
    rfl

theorem replied_of_pc (h : t.pc ≠ .ended) : t.replied = none := by
  cases hr : t.replied with
  | none => rfl
  | some r => exact absurd (ended_of_replied hr) h

theorem leaves_nextRound {u : Thread} (hureq : u.req = t.req) (h : u.Opened cfg)
    (hpers : t.pc.persists op = false) (round : Nat) : Leaves cfg c t op (u.nextRound c round) := by
  unfold Thread.nextRound
  split
  · exact leaves_quiet (show u.Opened cfg from h) hureq (fun _ => rfl) hpers
      (replied_of_pc (by simp [Thread.goto]))
  · exact leaves_reply hureq h FALLBACK

theorem leaves_answered (hpers : t.pc.persists op = false) (h : t.Opened cfg) (round : Nat)
    (r : Completion) : Leaves cfg c t op (t.answered c round r) := by
  unfold Thread.answered
  split
  · split
    · exact leaves_quiet trivial rfl (fun _ => rfl) hpers (replied_of_opened h)
    · exact leaves_nextRound (t := t) (u := t.say _ .ended) rfl (h.say rfl .ended) hpers round
    · rename_i call rest _
      exact leaves_quiet (show Thread.Opened cfg _ from h.say rfl (.tools round call rest)) rfl
        (fun _ => rfl) hpers (replied_of_pc (by simp [Thread.say]))
  · exact leaves_reply rfl h _

theorem leaves_toolDone {round : Nat} {call : ToolCall} {rest : List ToolCall}
    (hpers : t.pc.persists op = false) (h : t.Opened cfg) (content : String) :
    Leaves cfg c t op (t.toolDone c round call rest content) := by
  cases rest with
  | nil => exact leaves_nextRound (t := t) (u := t.say _ .ended) rfl (h.say rfl .ended) hpers round
  | cons next rest =>
    exact leaves_quiet (show Thread.Opened cfg _ from h.say rfl (.tools round next rest)) rfl
      (fun _ => rfl) hpers (replied_of_pc (show Pc.tools round next rest ≠ .ended by simp))

theorem leaves_begin (hpc : t.pc = .start) : Leaves cfg c t op (t.begin cfg c) := by
  have hpers : t.pc.persists op = false := by rw [hpc]; rfl
  have hopened : ∀ messages : List Message, ∀ pc, Thread.Opened cfg { t with
      messages, new_messages := (assemble cfg t.req []).2, pc } :=
    fun _ _ => ⟨[], rfl, fun _ hm => absurd hm List.not_mem_nil⟩
  have hsound : ∀ messages : List Message, Thread.Sound cfg { t with
      messages, new_messages := (assemble cfg t.req []).2
      pc := if t.streaming then .create 0 else .completion 0 } := by
    intro messages
    show Pc.Talks _ (if t.streaming then _ else _)
    cases t.streaming with
    | true => trivial
    | false => exact hopened messages (.completion 0)
  have hrep : (t.begin cfg c).2.replied = none := by
    refine replied_of_pc ?_
    unfold Thread.begin
    dsimp only
    cases t.streaming <;> simp
  unfold Thread.begin at hrep ⊢
  cases hs : t.req.session with
  | none => exact leaves_quiet (hsound _) rfl (fun _ => rfl) hpers (by rw [hs] at hrep; exact hrep)
  | some g' =>
    refine leaves_quiet (hsound _) rfl (fun g => ?_) hpers (by rw [hs] at hrep; exact hrep)
    exact c.store.getMessages_messages c.now g' g

theorem leaves_stream {u : Thread} (hreq : u.req = t.req) (hpers : t.pc.persists op = false)
    (hpc : u.pc.Talks False) (hend : u.pc ≠ .ended) : Leaves cfg c t op (c, u) := by
  refine leaves_quiet ?_ hreq (fun _ => rfl) hpers (replied_of_pc hend)
  show u.pc.Talks _
  cases hu : u.pc with
  | completion round => rw [hu] at hpc; exact hpc.elim
  | tools round call rest => rw [hu] at hpc; exact hpc.elim
  | _ => trivial

theorem leaves_step (h : t.Sound cfg) (hs : t.step cfg c op = some p) : Leaves cfg c t op p := by
  have hmoves := Thread.moves_of_step hs
  rw [Thread.Sound] at h
  generalize hpc : t.pc = pc at hmoves h
  cases hmoves with
  | begin => exact leaves_begin hpc
  | answered round r => exact leaves_answered (by rw [hpc]; rfl) h round r
  | toolDone round call rest content => exact leaves_toolDone (by rw [hpc]; rfl) h content
  | dropped hdrops =>
    cases pc with
    | completion round =>
      exact leaves_quiet trivial rfl (fun _ => rfl) (by rw [hpc]; rfl) (replied_of_opened h)
    | tools round call rest =>
      exact leaves_quiet trivial rfl (fun _ => rfl) (by rw [hpc]; rfl) (replied_of_opened h)
    | _ => exact absurd hdrops Bool.false_ne_true
  | opened round => exact leaves_stream rfl (by rw [hpc]; rfl) trivial (by simp [Thread.goto])
  | chunk round content fragments d =>
    unfold Thread.onChunk
    split
    · exact leaves_stream rfl (by rw [hpc]; rfl) trivial (by simp)
    · exact leaves_stream rfl (by rw [hpc]; rfl) trivial (by simp [Thread.goto])
  | exhausted round content fragments =>
    unfold Thread.onExhausted
    split
    · exact leaves_stream rfl (by rw [hpc]; rfl) trivial (by simp [Thread.emit])
    · exact leaves_stream rfl (by rw [hpc]; rfl) trivial (by simp [Thread.emit])
  | merged round content fragments tcs =>
    exact leaves_stream rfl (by rw [hpc]; rfl) trivial (by simp [Thread.goto])
  | announced round call rest =>
    exact leaves_stream rfl (by rw [hpc]; rfl) trivial (by simp [Thread.goto])
  | ran round call rest content =>
    exact leaves_stream rfl (by rw [hpc]; rfl) trivial (by simp [Thread.emit])
  | result round call rest content =>
    unfold Thread.onResult
    cases rest with
    | nil =>
      show Leaves cfg c t .go (c, Thread.nextStreamRound _ round)
      unfold Thread.nextStreamRound
      split
      · exact leaves_stream rfl (by rw [hpc]; rfl) trivial (by simp [Thread.goto])
      · exact leaves_stream rfl (by rw [hpc]; rfl) trivial (by simp [Thread.emit])
    | cons next rest =>
      exact leaves_stream rfl (by rw [hpc]; rfl) trivial (by simp [Thread.emit])
  | sent e left => exact leaves_stream rfl (by rw [hpc]; rfl) trivial (by simp [Thread.emit])
  | failed hfails =>
    refine leaves_stream rfl ?_ trivial (by simp [Thread.failed, Thread.emit])
    rw [hpc]
    cases pc with
    | create round => rfl
    | chunks round content fragments => rfl
    | runTool round call rest => rfl
    | _ => exact absurd hfails Bool.false_ne_true
  | persisted hends =>
    have hends : t.pc.persists op = true := by rw [hpc]; exact hends
    refine ⟨trivial, rfl, ?_, ?_⟩
    · exact adds_persisted (u := t) (.inl hends) rfl rfl rfl rfl
    · intro hno
      rw [hends] at hno
      exact absurd hno.symm Bool.false_ne_true
end

/-! ## the parts together -/

/-- the instances of the service by number, and a tab of the frontend -/
structure Dialog where
  services : Nat → State
  tab : Tab

inductive DialogAct where
  | service (j : Nat) (act : PoolAct (ChatRequest × Bool) Env Op)
  | select (guest : Option String)
  | mount
  | send (message localId : String)
  | retry
  | reach (i j : Nat)
  | succeed (i : Nat)
  | fail (i : Nat) (error : String)
  | fetch
  | serve (f j : Nat)
  | land (f : Nat)
  | abandon (f : Nat)
  | forget (guestId : String)

def Dialog.thread (s : Dialog) (r : Nat × Nat) : Option Thread := (s.services r.1).threads[r.2]?

def Tab.underWay (s : Tab) (i : Nat) : Option Mutation := s.mutations[i]?.filter fun m => !m.settled

def dialog (cfg : Settings) : Machine Dialog DialogAct := fun s act =>
  match act with
  | .service j act => ((service cfg).machine (s.services j) act).map fun p =>
      { s with services := Function.update s.services j p }
  | .select guest => some { s with tab := { s.tab with guest := guest } }
  | .mount => some { s with tab := s.tab.mount }
  | .send message localId => some { s with tab := s.tab.sendMessage message localId }
  | .retry => some { s with tab := s.tab.retryFailedMessage }
  | .reach i j => s.tab.mutations[i]?.bind fun m =>
      -- a longer message is refused before the endpoint
      if m.request = none ∧ m.turn.message.length ≤ 4000 then
        let p := s.services j
        let t := (service cfg).start (⟨m.turn.message, some m.turn.guestId⟩, false)
        some { services := Function.update s.services j ⟨p.shared, p.threads ++ [t]⟩
               tab := { s.tab with mutations :=
                 s.tab.mutations.modify i fun m => { m with request := some (j, p.threads.length) } } }
      else none
  | .succeed i => (s.tab.underWay i).bind fun m =>
      ((m.request.bind s.thread).bind Thread.replied).map fun reply =>
        { s with tab := s.tab.onSuccess i m reply }
  | .fail i error => (s.tab.underWay i).map fun m => { s with tab := s.tab.onError i m error }
  | .fetch => s.tab.fetch.map fun tab => { s with tab := tab }
  | .serve f j => s.tab.fetches[f]?.bind fun r =>
      if r.answer = none then
        some { s with tab := { s.tab with fetches := s.tab.fetches.modify f fun r =>
          { r with answer := some ((s.services j).shared.store.getVisible r.guestId) } } }
      else none
  | .land f => s.tab.fetches[f]?.bind fun r =>
      if r.settled then none
      else (r.answer.bind parseHistory).map fun messages => { s with tab := { s.tab with
        fetches := s.tab.fetches.modify f fun r => { r with settled := true }
        data := Function.update s.tab.data r.guestId (some ⟨r.guestId, messages⟩) } }
  | .abandon f => some { s with tab := { s.tab with
      fetches := s.tab.fetches.modify f fun r => { r with settled := true } } }
  | .forget guestId =>
      some { s with tab := { s.tab with data := Function.update s.tab.data guestId none } }

/-- the instances have just been started -/
structure Fresh (services : Nat → State) : Prop where
  threads : ∀ j, (services j).threads = []
  store : ∀ j g, (services j).shared.store.messages g = []

/-! ### the conversations of a run -/

/-- the messages that a step adds to the conversations of a guest -/
def DialogAct.added (cfg : Settings) (g : String) (s : Dialog) : DialogAct → List Message
  | .service j (.step k op) => match s.thread (j, k) with
    | some t => match t.step cfg (s.services j).shared op with
      | some p => t.added g op p.2
      | none => []
    | none => []
  | _ => []

/-- all messages that a run adds to the conversations of a guest, by the time they are stored -/
def conversation (cfg : Settings) (g : String) : Dialog → List DialogAct → List Message
  | _, [] => []
  | s, act :: acts => act.added cfg g s ++ match dialog cfg s act with
    | some s' => conversation cfg g s' acts
    | none => []

theorem conversation_append {cfg : Settings} {g : String} {s s' : Dialog} {as bs : List DialogAct}
    (h : (dialog cfg).Runs free s as s') :
    conversation cfg g s (as ++ bs) = conversation cfg g s as ++ conversation cfg g s' bs := by
  induction as generalizing s with
  | nil =>
    cases h
    rfl
  | cons a as ih =>
    obtain ⟨_, t, hs, ht⟩ := h
    rw [List.cons_append, conversation, conversation, hs]
    show _ ++ conversation cfg g t (as ++ bs) = (_ ++ conversation cfg g t as) ++ _
    rw [ih ht, List.append_assoc]

theorem conversation_snoc {cfg : Settings} {g : String} {s s' : Dialog} {as : List DialogAct}
    (h : (dialog cfg).Runs free s as s') (act : DialogAct) :
    conversation cfg g s (as ++ [act]) = conversation cfg g s as ++ act.added cfg g s' := by
  rw [conversation_append h]
  congr 1
  rw [conversation]
  cases dialog cfg s' act with
  | none => exact List.append_nil _
  | some s'' => exact List.append_nil _

/-! ### what a step does -/

/-- the steps, with what each needs -/
inductive Dialog.Moves (cfg : Settings) (s : Dialog) : DialogAct → Dialog → Prop where
  | spawn (j : Nat) (r : ChatRequest × Bool) : Moves cfg s (.service j (.spawn r))
      { s with
        services := Function.update s.services j
          ⟨(s.services j).shared, (s.services j).threads ++ [(service cfg).start r]⟩ }
  | env (j : Nat) (e : Env) : Moves cfg s (.service j (.env e))
      { s with
        services := Function.update s.services j
          ⟨(s.services j).shared.env e, (s.services j).threads⟩ }
  | step (j k : Nat) (op : Op) (t : Thread) (p : Shared × Thread) : s.thread (j, k) = some t →
      t.step cfg (s.services j).shared op = some p → Moves cfg s (.service j (.step k op))
      { s with services := Function.update s.services j ⟨p.1, (s.services j).threads.set k p.2⟩ }
  | select (guest : Option String) : Moves cfg s (.select guest)
      { s with tab := { s.tab with guest := guest } }
  | mount : Moves cfg s .mount { s with tab := s.tab.mount }
  | sends {act : DialogAct} {tab : Tab} : s.tab.Sends tab → (∀ j a, act ≠ .service j a) →
      act ≠ .mount → Moves cfg s act { s with tab := tab }
  | reach (i j : Nat) (m : Mutation) : s.tab.mutations[i]? = some m → m.request = none →
      Moves cfg s (.reach i j)
      { services := Function.update s.services j ⟨(s.services j).shared, (s.services j).threads ++
          [(service cfg).start (⟨m.turn.message, some m.turn.guestId⟩, false)]⟩
        tab := { s.tab with mutations := s.tab.mutations.modify i fun m =>
          { m with request := some (j, (s.services j).threads.length) } } }
  | succeed (i : Nat) (m : Mutation) (r : Nat × Nat) (t : Thread) (reply : String) :
      s.tab.mutations[i]? = some m → m.settled = false → m.request = some r →
      s.thread r = some t → t.replied = some reply →
      Moves cfg s (.succeed i) { s with tab := s.tab.onSuccess i m reply }
  | fail (i : Nat) (error : String) (m : Mutation) : s.tab.mutations[i]? = some m →
      m.settled = false → Moves cfg s (.fail i error) { s with tab := s.tab.onError i m error }
  | fetch (guestId : String) : Moves cfg s .fetch
      { s with tab := { s.tab with fetches := s.tab.fetches ++ [⟨guestId, none, false⟩] } }
  | serve (f j : Nat) : Moves cfg s (.serve f j)
      { s with tab := { s.tab with fetches := s.tab.fetches.modify f fun r =>
          { r with answer := some ((s.services j).shared.store.getVisible r.guestId) } } }
  | land (f : Nat) (r : Fetch) (answer : List Message) (messages : List ChatHistoryMessage) :
      s.tab.fetches[f]? = some r → r.answer = some answer → parseHistory answer = some messages →
      Moves cfg s (.land f) { s with tab := { s.tab with
        fetches := s.tab.fetches.modify f fun r => { r with settled := true }
        data := Function.update s.tab.data r.guestId (some ⟨r.guestId, messages⟩) } }
  | abandon (f : Nat) : Moves cfg s (.abandon f) { s with tab := { s.tab with
      fetches := s.tab.fetches.modify f fun r => { r with settled := true } } }
  | forget (guestId : String) : Moves cfg s (.forget guestId)
      { s with tab := { s.tab with data := Function.update s.tab.data guestId none } }

theorem underWay_some {s : Tab} {i : Nat} {m : Mutation} (h : s.underWay i = some m) :
    s.mutations[i]? = some m ∧ m.settled = false := by
  obtain ⟨hm, hs⟩ := Option.filter_eq_some_iff.mp h
  exact ⟨hm, by simpa using hs⟩

theorem Dialog.moves_of_step {cfg : Settings} {s s' : Dialog} {act : DialogAct}
    (h : dialog cfg s act = some s') : Moves cfg s act s' := by
  cases act with
  | service j act =>
    obtain ⟨p, hp, rfl⟩ := Option.map_eq_some_iff.mp h
    cases act with
    | spawn r =>
      obtain rfl := Option.some.inj hp
      exact .spawn j r
    | env e =>
      obtain rfl := Option.some.inj hp
      exact .env j e
    | step k op =>
      obtain ⟨t, c', t', ht, hst, rfl⟩ := Sys.machine_step hp
      exact .step j k op t (c', t') ht hst
  | select guest =>
    obtain rfl := Option.some.inj h
    exact .select guest
  | mount =>
    obtain rfl := Option.some.inj h
    exact .mount
  | send message localId =>
    obtain rfl := Option.some.inj h
    exact .sends (s.tab.sends_sendMessage message localId) (by simp) (by simp)
  | retry =>
    obtain rfl := Option.some.inj h
    exact .sends s.tab.sends_retryFailedMessage (by simp) (by simp)
  | reach i j =>
    obtain ⟨m, hm, h⟩ := Option.bind_eq_some_iff.mp h
    split at h
    · rename_i hcond
      obtain rfl := Option.some.inj h
      exact .reach i j m hm hcond.1
    · exact absurd h (by simp)
  | succeed i =>
    obtain ⟨m, hm, h⟩ := Option.bind_eq_some_iff.mp h
    obtain ⟨reply, hr, rfl⟩ := Option.map_eq_some_iff.mp h
    obtain ⟨t, ht, hreply⟩ := Option.bind_eq_some_iff.mp hr
    obtain ⟨r, hreq, ht⟩ := Option.bind_eq_some_iff.mp ht
    obtain ⟨hm, hsettled⟩ := underWay_some hm
    exact .succeed i m r t reply hm hsettled hreq ht hreply
  | fail i error =>
    obtain ⟨m, hm, rfl⟩ := Option.map_eq_some_iff.mp h
    obtain ⟨hm, hsettled⟩ := underWay_some hm
    exact .fail i error m hm hsettled
  | fetch =>
    obtain ⟨tab, ht, rfl⟩ := Option.map_eq_some_iff.mp h
    obtain ⟨guestId, _, ht⟩ := Option.bind_eq_some_iff.mp ht
    split at ht
    · exact absurd ht (by simp)
    · obtain rfl := Option.some.inj ht
      exact .fetch guestId
  | serve f j =>
    obtain ⟨r, _, h⟩ := Option.bind_eq_some_iff.mp h
    split at h
    · obtain rfl := Option.some.inj h
      exact .serve f j
    · exact absurd h (by simp)
  | land f =>
    obtain ⟨r, hr, h⟩ := Option.bind_eq_some_iff.mp h
    split at h
    · exact absurd h (by simp)
    · obtain ⟨messages, hm, rfl⟩ := Option.map_eq_some_iff.mp h
      obtain ⟨answer, ha, hm⟩ := Option.bind_eq_some_iff.mp hm
      exact .land f r answer messages hr ha hm
  | abandon f =>
    obtain rfl := Option.some.inj h
    exact .abandon f
  | forget guestId =>
    obtain rfl := Option.some.inj h
    exact .forget guestId

/-! ### what stays -/

/-- a thread stays with its request, and as it is once it has ended; a chat that the service has got
stays as it is once it is settled -/
structure Continues (s s' : Dialog) : Prop where
  thread : ∀ r t, s.thread r = some t → ∃ t', s'.thread r = some t' ∧ t'.req = t.req ∧
    t'.streaming = t.streaming ∧ (t.pc = .ended → t' = t)
  mutation : ∀ (i : Nat) m, s.tab.mutations[i]? = some m → m.settled = true → m.request ≠ none →
    s'.tab.mutations[i]? = some m

theorem thread_update {s : Dialog} {j : Nat} {p : State} {tab : Tab} (r : Nat × Nat) :
    Dialog.thread ⟨Function.update s.services j p, tab⟩ r =
      if r.1 = j then p.threads[r.2]? else s.thread r := by
  rw [Dialog.thread]
  by_cases e : r.1 = j
  · rw [if_pos e, e]
    dsimp only
    rw [Function.update_self]
  · rw [if_neg e]
    dsimp only
    rw [Function.update_of_ne e]
    rfl

theorem thread_spawn {s : Dialog} {j : Nat} {t : Thread} {tab : Tab} {r : Nat × Nat} {u : Thread}
    (h : Dialog.thread ⟨Function.update s.services j
      ⟨(s.services j).shared, (s.services j).threads ++ [t]⟩, tab⟩ r = some u) :
    s.thread r = some u ∨ (r = (j, (s.services j).threads.length) ∧ u = t) := by
  rw [thread_update] at h
  split at h
  · rename_i e
    obtain ⟨j', k⟩ := r
    subst e
    rcases getElem?_snoc h with h | ⟨hk, rfl⟩
    · exact .inl h
    · exact .inr ⟨congrArg (Prod.mk j') hk, rfl⟩
  · exact .inl h

theorem thread_spawn_old {s : Dialog} {j : Nat} {t : Thread} {tab : Tab} {r : Nat × Nat} {u : Thread}
    (h : s.thread r = some u) : Dialog.thread ⟨Function.update s.services j
      ⟨(s.services j).shared, (s.services j).threads ++ [t]⟩, tab⟩ r = some u := by
  rw [thread_update]
  split
  · rename_i e
    rw [Dialog.thread, e] at h
    dsimp only
    rw [List.getElem?_append_left (List.getElem?_eq_some_iff.mp h).1]
    exact h
  · exact h

theorem thread_step {s : Dialog} {j k : Nat} {c : Shared} {t : Thread} {tab : Tab} {r : Nat × Nat}
    {u : Thread} (h : Dialog.thread ⟨Function.update s.services j
      ⟨c, (s.services j).threads.set k t⟩, tab⟩ r = some u) :
    (r ≠ (j, k) ∧ s.thread r = some u) ∨ (r = (j, k) ∧ u = t) := by
  rw [thread_update] at h
  obtain ⟨j', k'⟩ := r
  split at h
  · rename_i e
    subst e
    by_cases e : k = k'
    · subst e
      rw [List.getElem?_set_self'] at h
      obtain ⟨_, _, rfl⟩ := Option.map_eq_some_iff.mp h
      exact .inr ⟨rfl, rfl⟩
    · rw [List.getElem?_set_ne e] at h
      exact .inl ⟨fun h => e (Prod.mk.inj h).2.symm, h⟩
  · rename_i e
    exact .inl ⟨fun h => e (Prod.mk.inj h).1, h⟩

theorem Continues.of_same {s s' : Dialog} (h : s'.services = s.services)
    (hm : ∀ (i : Nat) m, s.tab.mutations[i]? = some m → m.settled = true → m.request ≠ none →
      s'.tab.mutations[i]? = some m) : Continues s s' where
  thread r t ht := ⟨t, by rw [Dialog.thread, h]; exact ht, rfl, rfl, fun _ => rfl⟩
  mutation := hm

theorem modify_kept {l : List Mutation} {i : Nat} {f : Mutation → Mutation} {m₀ : Mutation}
    (h₀ : l[i]? = some m₀) (hout : m₀.settled = false ∨ m₀.request = none) (i' : Nat) (m : Mutation)
    (h : l[i']? = some m) (hs : m.settled = true) (hr : m.request ≠ none) :
    (l.modify i f)[i']? = some m := by
  have hne : i ≠ i' := by
    rintro rfl
    obtain rfl := Option.some.inj (h₀.symm.trans h)
    rcases hout with ho | ho
    · rw [hs] at ho
      exact absurd ho (by simp)
    · exact hr ho
  exact (List.getElem?_modify_ne f l hne).trans h

theorem step_ended {cfg : Settings} {c : Shared} {t : Thread} {op : Op} {p : Shared × Thread}
    (h : t.step cfg c op = some p) : t.pc ≠ .ended := by
  intro hpc
  have hmoves := Thread.moves_of_step h
  rw [hpc] at hmoves
  cases hmoves with
  | dropped hd => exact absurd hd Bool.false_ne_true
  | failed hf => exact absurd hf Bool.false_ne_true
  | persisted hp => exact absurd hp Bool.false_ne_true

theorem sends_mutations {s s' : Tab} (h : s.Sends s') :
    s'.mutations = s.mutations ∨ ∃ turn : PendingTurn, turn.guestId ≠ "" ∧ s.observed = none ∧
      s'.mutations = s.mutations ++ [⟨turn, s.panel, none, false⟩] := by
  rcases h with rfl | ⟨turn, hid, hobs, rfl⟩
  · exact .inl rfl
  · exact .inr ⟨turn, hid, hobs, rfl⟩

theorem Dialog.Moves.continues {cfg : Settings} {s s' : Dialog} {act : DialogAct} (h : Moves cfg s act s')
    (hsound : ∀ r t, s.thread r = some t → t.Sound cfg) : Continues s s' := by
  have keep : ∀ (i : Nat) (m : Mutation), s.tab.mutations[i]? = some m → m.settled = true →
      m.request ≠ none → s.tab.mutations[i]? = some m := fun _ _ hm _ _ => hm
  cases h with
  | spawn j r =>
    refine ⟨fun r' t ht => ⟨t, thread_spawn_old ht, rfl, rfl, fun _ => rfl⟩, keep⟩
  | env j e =>
    refine ⟨fun r' t ht => ⟨t, ?_, rfl, rfl, fun _ => rfl⟩, keep⟩
    rw [thread_update]
    split
    · rename_i e
      rw [Dialog.thread, e] at ht
      exact ht
    · exact ht
  | step j k op t p ht hst =>
    refine ⟨fun r u hu => ?_, keep⟩
    by_cases e : r = (j, k)
    · subst e
      obtain rfl := Option.some.inj (ht.symm.trans hu)
      refine ⟨p.2, ?_, (leaves_step (hsound _ _ ht) hst).req, Thread.step_streaming hst,
        fun hpc => absurd hpc (step_ended hst)⟩
      rw [thread_update, if_pos rfl]
      exact List.getElem?_set_self (List.getElem?_eq_some_iff.mp ht).1
    · refine ⟨u, ?_, rfl, rfl, fun _ => rfl⟩
      obtain ⟨j', k'⟩ := r
      rw [thread_update]
      split
      · rename_i e'
        subst e'
        have hne : k ≠ k' := fun h => e (by rw [h])
        exact (List.getElem?_set_ne hne).trans hu
      · exact hu
  | sends hs _ _ =>
    refine .of_same rfl fun i m hm hset hreq => ?_
    rcases sends_mutations hs with e | ⟨_, _, _, e⟩
    · rw [e]
      exact hm
    · rw [e, List.getElem?_append_left (List.getElem?_eq_some_iff.mp hm).1]
      exact hm
  | reach i j m hm hreq =>
    exact ⟨fun r t ht => ⟨t, thread_spawn_old ht, rfl, rfl, fun _ => rfl⟩,
      modify_kept hm (.inr hreq)⟩
  | succeed i m r t reply hm hsettled _ _ _ =>
    refine .of_same rfl fun i' m' hm' hs' hr' => ?_
    rw [Tab.onSuccess_mutations]
    exact modify_kept hm (.inl hsettled) i' m' hm' hs' hr'
  | fail i error m hm hsettled =>
    refine .of_same rfl fun i' m' hm' hs' hr' => ?_
    rw [Tab.onError_mutations]
    exact modify_kept hm (.inl hsettled) i' m' hm' hs' hr'
  | _ => exact .of_same rfl keep

/-- a thread after a step: as before, new, or moved by the step -/
theorem Dialog.Moves.thread {cfg : Settings} {s s' : Dialog} {act : DialogAct} (h : Moves cfg s act s')
    {r : Nat × Nat} {u : Thread} (hu : s'.thread r = some u) :
    s.thread r = some u ∨ u.pc = .start ∨
      ∃ op t p, act = .service r.1 (.step r.2 op) ∧ s.thread r = some t ∧
        t.step cfg (s.services r.1).shared op = some p ∧ u = p.2 ∧
        (s'.services r.1).shared = p.1 := by
  cases h with
  | spawn j r' =>
    rcases thread_spawn hu with hu | ⟨_, rfl⟩
    · exact .inl hu
    · exact .inr (.inl rfl)
  | env j e =>
    rw [thread_update] at hu
    split at hu
    · rename_i e
      refine .inl ?_
      rw [Dialog.thread, e]
      exact hu
    · exact .inl hu
  | step j k op t p ht hst =>
    rcases thread_step hu with ⟨_, hu⟩ | ⟨rfl, rfl⟩
    · exact .inl hu
    · refine .inr (.inr ⟨op, t, p, rfl, ht, hst, rfl, ?_⟩)
      dsimp only
      rw [Function.update_self]
  | reach i j m hm hreq =>
    rcases thread_spawn hu with hu | ⟨_, rfl⟩
    · exact .inl hu
    · exact .inr (.inl rfl)
  | _ => exact .inl hu

/-- a chat after a step: one as before but for its request, or a new one -/
theorem Dialog.Moves.mutation {cfg : Settings} {s s' : Dialog} {act : DialogAct}
    (h : Moves cfg s act s') {i : Nat} {m' : Mutation} (hm' : s'.tab.mutations[i]? = some m') :
    (∃ m, s.tab.mutations[i]? = some m ∧ m'.turn = m.turn ∧ (m'.settled = false → m.settled = false) ∧
      (m'.request = m.request ∨ ∃ r t, m'.request = some r ∧ s'.thread r = some t ∧ t.pc = .start ∧
        t.streaming = false ∧ t.req = ⟨m'.turn.message, some m'.turn.guestId⟩)) ∨
    (m'.turn.guestId ≠ "" ∧ m'.request = none ∧ s.tab.observed = none) := by
  have settled : ∀ m₀ : Mutation, (s.tab.settle i).mutations[i]? = some m₀ → ∃ m,
      s.tab.mutations[i]? = some m ∧ m₀ = { m with settled := true } := by
    intro m₀ h₀
    rw [Tab.settle, List.getElem?_modify_eq] at h₀
    obtain ⟨m, hm, rfl⟩ := Option.map_eq_some_iff.mp h₀
    exact ⟨m, hm, rfl⟩
  have same : ∀ {l : List Mutation}, l = s.tab.mutations → l[i]? = some m' →
      ∃ m, s.tab.mutations[i]? = some m ∧ m'.turn = m.turn ∧ (m'.settled = false → m.settled = false) ∧
        (m'.request = m.request ∨ ∃ r t, m'.request = some r ∧ s'.thread r = some t ∧ t.pc = .start ∧
          t.streaming = false ∧ t.req = ⟨m'.turn.message, some m'.turn.guestId⟩) := by
    rintro l rfl hl
    exact ⟨m', hl, rfl, fun h => h, .inl rfl⟩
  have modified : ∀ {i' : Nat}, (s.tab.settle i').mutations[i]? = some m' →
      ∃ m, s.tab.mutations[i]? = some m ∧ m'.turn = m.turn ∧ (m'.settled = false → m.settled = false) ∧
        (m'.request = m.request ∨ ∃ r t, m'.request = some r ∧ s'.thread r = some t ∧ t.pc = .start ∧
          t.streaming = false ∧ t.req = ⟨m'.turn.message, some m'.turn.guestId⟩) := by
    intro i' hi'
    by_cases e : i' = i
    · subst e
      obtain ⟨m, hm, rfl⟩ := settled m' hi'
      exact ⟨m, hm, rfl, fun h => absurd h (by simp), .inl rfl⟩
    · rw [Tab.settle] at hi'
      exact same rfl ((List.getElem?_modify_ne _ _ e).symm.trans hi')
  cases h with
  | sends hs _ _ =>
    rcases sends_mutations hs with e | ⟨turn, hid, hobs, e⟩
    · exact .inl (same e hm')
    · rw [e] at hm'
      rcases getElem?_snoc hm' with hm' | ⟨_, rfl⟩
      · exact .inl (same rfl hm')
      · exact .inr ⟨hid, rfl, hobs⟩
  | reach i' j m hm hreq =>
    by_cases e : i' = i
    · subst e
      dsimp only at hm'
      rw [List.getElem?_modify_eq, hm] at hm'
      obtain rfl := Option.some.inj hm'
      refine .inl ⟨m, hm, rfl, fun h => h, .inr ⟨(j, (s.services j).threads.length),
        (service cfg).start (⟨m.turn.message, some m.turn.guestId⟩, false), rfl, ?_, rfl, rfl, rfl⟩⟩
      rw [thread_update, if_pos rfl]
      exact List.getElem?_concat_length
    · exact .inl (same rfl ((List.getElem?_modify_ne _ _ e).symm.trans hm'))
  | succeed i' m r t reply hm hset hr ht hreply =>
    rw [Tab.onSuccess_mutations] at hm'
    exact .inl (modified hm')
  | fail i' error m hm hset =>
    rw [Tab.onError_mutations] at hm'
    exact .inl (modified hm')
  | _ => exact .inl (same rfl hm')

/-- what is cached for a guest after a step: the same, or with a chat more, or a history -/
theorem Dialog.Moves.data {cfg : Settings} {s s' : Dialog} {act : DialogAct} (h : Moves cfg s act s')
    {g : String} {response : ChatHistoryResponse} (hd : s'.tab.data g = some response) :
    s.tab.data g = some response ∨
    (∃ i m r t reply, act = .succeed i ∧ s' = { s with tab := s.tab.onSuccess i m reply } ∧
      s.tab.mutations[i]? = some m ∧ m.settled = false ∧ m.request = some r ∧ s.thread r = some t ∧
      t.replied = some reply ∧ g = m.turn.guestId ∧
      response = appendMessagesToHistory (s.tab.data g) m.turn reply) ∨
    ∃ (f : Nat) (r : Fetch) (answer : List Message) (messages : List ChatHistoryMessage),
      s.tab.fetches[f]? = some r ∧ r.answer = some answer ∧ parseHistory answer = some messages ∧
      g = r.guestId ∧ response = ⟨g, messages⟩ := by
  cases h with
  | sends hsends _ _ =>
    rcases hsends with rfl | ⟨turn, _, _, rfl⟩
    · exact .inl hd
    · exact .inl hd
  | succeed i m r t reply hm hset hr ht hreply =>
    dsimp only at hd
    rw [Tab.onSuccess_data] at hd
    by_cases e : g = m.turn.guestId
    · subst e
      rw [Function.update_self] at hd
      exact .inr (.inl ⟨i, m, r, t, reply, rfl, rfl, hm, hset, hr, ht, hreply, rfl,
        (Option.some.inj hd).symm⟩)
    · rw [Function.update_of_ne e] at hd
      exact .inl hd
  | fail i error m hm hset =>
    dsimp only at hd
    rw [Tab.onError_data] at hd
    exact .inl hd
  | land f r answer messages hf ha hparse =>
    dsimp only at hd
    by_cases e : g = r.guestId
    · subst e
      rw [Function.update_self] at hd
      exact .inr (.inr ⟨f, r, answer, messages, hf, ha, hparse, rfl, (Option.some.inj hd).symm⟩)
    · rw [Function.update_of_ne e] at hd
      exact .inl hd
  | forget guestId =>
    dsimp only at hd
    by_cases e : g = guestId
    · subst e
      rw [Function.update_self] at hd
      exact absurd hd (by simp)
    · rw [Function.update_of_ne e] at hd
      exact .inl hd
  | _ => exact .inl hd

/-- a request for a history after a step: its answer is the one it had, or has just been read -/
theorem Dialog.Moves.answer {cfg : Settings} {s s' : Dialog} {act : DialogAct} (h : Moves cfg s act s')
    {f : Nat} {r : Fetch} {answer : List Message} (hf : s'.tab.fetches[f]? = some r)
    (ha : r.answer = some answer) :
    (∃ r₀ : Fetch, s.tab.fetches[f]? = some r₀ ∧ r₀.answer = some answer ∧ r₀.guestId = r.guestId) ∨
      ∃ j, answer = (s.services j).shared.store.getVisible r.guestId := by
  have marked : ∀ {f' : Nat},
      (s.tab.fetches.modify f' fun r => { r with settled := true })[f]? = some r →
      ∃ r₀ : Fetch, s.tab.fetches[f]? = some r₀ ∧ r₀.answer = some answer ∧ r₀.guestId = r.guestId := by
    intro f' hf'
    rw [List.getElem?_modify] at hf'
    obtain ⟨r₀, hr₀, rfl⟩ := Option.map_eq_some_iff.mp hf'
    by_cases e : f' = f
    · rw [if_pos e] at ha ⊢
      exact ⟨r₀, hr₀, ha, rfl⟩
    · rw [if_neg e] at ha ⊢
      exact ⟨r₀, hr₀, ha, rfl⟩
  cases h with
  | sends hsends _ _ =>
    rcases hsends with rfl | ⟨turn, _, _, rfl⟩
    · exact .inl ⟨r, hf, ha, rfl⟩
    · exact .inl ⟨r, hf, ha, rfl⟩
  | succeed i m r' t reply hm hset hr ht hreply =>
    dsimp only at hf
    rw [Tab.onSuccess_fetches] at hf
    exact .inl ⟨r, hf, ha, rfl⟩
  | fail i error m hm hset =>
    dsimp only at hf
    rw [Tab.onError_fetches] at hf
    exact .inl ⟨r, hf, ha, rfl⟩
  | fetch guestId =>
    rcases getElem?_snoc hf with hf | ⟨_, rfl⟩
    · exact .inl ⟨r, hf, ha, rfl⟩
    · exact absurd ha (by simp)
  | serve f' j =>
    dsimp only at hf
    rw [List.getElem?_modify] at hf
    obtain ⟨r₀, hr₀, rfl⟩ := Option.map_eq_some_iff.mp hf
    by_cases e : f' = f
    · rw [if_pos e] at ha ⊢
      exact .inr ⟨j, (Option.some.inj ha).symm⟩
    · rw [if_neg e] at ha ⊢
      exact .inl ⟨r₀, hr₀, ha, rfl⟩
  | land f' r' answer' messages hf' ha' hparse => exact .inl (marked hf)
  | abandon f' => exact .inl (marked hf)
  | _ => exact .inl ⟨r, hf, ha, rfl⟩

/-! ## what the threads are made of -/

section
variable {cfg : Settings} {s₀ s s' : Dialog} {acts : List DialogAct} {act : DialogAct} {g : String}

/-- a request of the run has replied: after `before` it stored the turn -/
structure Stored (cfg : Settings) (s₀ : Dialog) (acts : List DialogAct) (r : Nat × Nat) (t : Thread)
    (turn : Turn) (before : List DialogAct) : Prop where
  replied : turn.Of cfg t
  step : ∃ op after s₁ s₂, acts = before ++ .service r.1 (.step r.2 op) :: after ∧
    (dialog cfg).Runs free s₀ before s₁ ∧ dialog cfg s₁ (.service r.1 (.step r.2 op)) = some s₂ ∧
    ∀ g, t.req.session = some g →
      DialogAct.added cfg g s₁ (.service r.1 (.step r.2 op)) = turn.messages ∧
      (s₂.services r.1).shared.store =
        (s₁.services r.1).shared.store.append (s₁.services r.1).shared.now g turn.messages

theorem Stored.snoc {r : Nat × Nat} {t : Thread} {turn : Turn} {before : List DialogAct}
    (h : Stored cfg s₀ acts r t turn before) (act : DialogAct) :
    Stored cfg s₀ (acts ++ [act]) r t turn before := by
  obtain ⟨hturn, op, after, s₁, s₂, e, hstep⟩ := h
  exact ⟨hturn, op, after ++ [act], s₁, s₂, by rw [e, List.append_assoc, List.cons_append], hstep⟩

/-- the visible messages of a guest, in an instance, at some moment of the run -/
def Seen (cfg : Settings) (s₀ : Dialog) (acts : List DialogAct) (g : String) (messages : List Message) :
    Prop :=
  ∃ before after s₁ j, acts = before ++ after ∧ (dialog cfg).Runs free s₀ before s₁ ∧
    messages = (s₁.services j).shared.store.getVisible g

theorem Seen.snoc {g : String} {messages : List Message} (h : Seen cfg s₀ acts g messages)
    (act : DialogAct) : Seen cfg s₀ (acts ++ [act]) g messages := by
  obtain ⟨before, after, s₁, j, e, hrun, hm⟩ := h
  exact ⟨before, after ++ [act], s₁, j, by rw [e, List.append_assoc], hrun, hm⟩

/-- a chat of the tab that was answered -/
structure Exchange where
  mutation : Nat
  request : Nat × Nat
  message : String
  turn : Turn

def Exchange.shown (a : Exchange) : List ChatHistoryMessage :=
  [⟨some a.message, .user⟩, ⟨some a.turn.reply, .assistant⟩]

/-- the tab sent the message for the guest, and the service stored the turn in the conversation of the
guest, the message masked, and replied -/
structure Exchanged (cfg : Settings) (s₀ : Dialog) (acts : List DialogAct) (s : Dialog) (g : String)
    (a : Exchange) : Prop where
  sent : ∃ m, s.tab.mutations[a.mutation]? = some m ∧ m.settled = true ∧ m.turn.guestId = g ∧
    m.turn.message = a.message ∧ m.request = some a.request
  masked : (a.turn.content, a.turn.censored) = cfg.maskProfanity a.message
  stored : ∃ before op after s₁ s₂,
    acts = before ++ .service a.request.1 (.step a.request.2 op) :: after ∧
    (dialog cfg).Runs free s₀ before s₁ ∧
    dialog cfg s₁ (.service a.request.1 (.step a.request.2 op)) = some s₂ ∧
    (s₂.services a.request.1).shared.store = (s₁.services a.request.1).shared.store.append
      (s₁.services a.request.1).shared.now g a.turn.messages

theorem Exchanged.snoc {g : String} {a : Exchange} (h : Exchanged cfg s₀ acts s g a) (act : DialogAct)
    (hl : Continues s s') : Exchanged cfg s₀ (acts ++ [act]) s' g a := by
  obtain ⟨m, hm, hset, hg, hmsg, hreq⟩ := h.sent
  obtain ⟨before, op, after, s₁, s₂, e, hstep⟩ := h.stored
  exact ⟨⟨m, hl.mutation _ m hm hset (by rw [hreq]; simp), hset, hg, hmsg, hreq⟩, h.masked,
    before, op, after ++ [act], s₁, s₂, by rw [e, List.append_assoc, List.cons_append], hstep⟩

/-- what is cached for a guest: a history of the guest, and the chats that were answered since -/
structure Vouched (cfg : Settings) (s₀ : Dialog) (acts : List DialogAct) (s : Dialog) (g : String)
    (response : ChatHistoryResponse) (base : List Message) (answers : List Exchange) : Prop where
  guest : response.guest_id = g
  messages : response.messages = base.filterMap parseMessage ++ answers.flatMap Exchange.shown
  base : base = [] ∨ Seen cfg s₀ acts g base
  nodup : (answers.map Exchange.mutation).Nodup
  answered : ∀ a ∈ answers, Exchanged cfg s₀ acts s g a

theorem Vouched.snoc {g : String} {response : ChatHistoryResponse} {base : List Message}
    {answers : List Exchange} (h : Vouched cfg s₀ acts s g response base answers) (act : DialogAct)
    (hl : Continues s s') : Vouched cfg s₀ (acts ++ [act]) s' g response base answers :=
  ⟨h.guest, h.messages, h.base.imp_right fun hs => hs.snoc act, h.nodup,
    fun a ha => (h.answered a ha).snoc act hl⟩

/-- a chat is answered, after those of `answers` -/
theorem Vouched.append {g : String} {base : List Message} {answers : List Exchange} {a : Exchange}
    {m : Mutation} (h : s.tab.data g = none ∧ base = [] ∧ answers = [] ∨
      ∃ response, s.tab.data g = some response ∧ Vouched cfg s₀ acts s g response base answers)
    (hm : s.tab.mutations[a.mutation]? = some m) (hset : m.settled = false) (hg : m.turn.guestId = g)
    (hmsg : m.turn.message = a.message) (hreply : reply = a.turn.reply)
    (hl : Continues s s') (ha : Exchanged cfg s₀ (acts ++ [act]) s' g a) :
    Vouched cfg s₀ (acts ++ [act]) s' g (appendMessagesToHistory (s.tab.data g) m.turn reply) base
      (answers ++ [a]) := by
  subst hreply
  rcases h with ⟨hd, rfl, rfl⟩ | ⟨response, hd, hv⟩
  · rw [hd]
    refine ⟨hg, ?_, .inl rfl, List.nodup_singleton _, List.forall_mem_singleton.mpr ha⟩
    show [] ++ [_, _] = [] ++ (a.shown ++ [])
    rw [hmsg]
    rfl
  · rw [hd]
    refine ⟨hv.guest, ?_, hv.base.imp_right fun hs => hs.snoc act, ?_, ?_⟩
    · show response.messages ++ [_, _] = _
      rw [hv.messages, List.flatMap_append, List.append_assoc, hmsg, List.flatMap_singleton]
      rfl
    · rw [List.map_append, List.map_singleton, List.nodup_append]
      refine ⟨hv.nodup, List.nodup_singleton _, ?_⟩
      rintro i hi i' hi' rfl
      obtain rfl := List.mem_singleton.mp hi'
      -- those before are settled
      obtain ⟨b, hb, hbi⟩ := List.mem_map.mp hi
      obtain ⟨m', hm', hset', _⟩ := (hv.answered b hb).sent
      rw [hbi, hm] at hm'
      obtain rfl := Option.some.inj hm'
      rw [hset] at hset'
      exact absurd hset' Bool.false_ne_true
    · intro b hb
      rcases List.mem_append.mp hb with hb | hb
      · exact (hv.answered b hb).snoc act hl
      · obtain rfl := List.mem_singleton.mp hb
        exact ha

/-- **The parts, as the run has left them.** -/
structure Talking (cfg : Settings) (s₀ : Dialog) (acts : List DialogAct) (s : Dialog) : Prop where
  runs : (dialog cfg).Runs free s₀ acts s
  sound : ∀ r t, s.thread r = some t → t.Sound cfg
  chats : ∀ r t, s.thread r = some t → t.streaming = false → t.InChat cfg ∧
    ∀ reply, t.replied = some reply → ∃ turn before, Stored cfg s₀ acts r t turn before
  requests : ∀ (i : Nat) m, s.tab.mutations[i]? = some m → m.turn.guestId ≠ "" ∧
    ∀ r, m.request = some r → ∃ t, s.thread r = some t ∧ t.streaming = false ∧
      t.req = ⟨m.turn.message, some m.turn.guestId⟩
  answers : ∀ (f : Nat) r answer, s.tab.fetches[f]? = some r → r.answer = some answer →
    Seen cfg s₀ acts r.guestId answer
  data : ∀ g response, s.tab.data g = some response →
    ∃ base answers, Vouched cfg s₀ acts s g response base answers

theorem inChat_persists {t : Thread} (h : t.InChat cfg) (op : Op) : t.pc.persists op = false := by
  obtain ⟨_, h | h | ⟨h, _⟩⟩ := h
  · rw [h]
    rfl
  · rw [h]
    rfl
  · cases hpc : t.pc with
    | completion round => rfl
    | tools round call rest => rfl
    | _ =>
      rw [hpc] at h
      exact absurd h Bool.false_ne_true

theorem stored_step (hrun : (dialog cfg).Runs free s₀ acts s) {r : Nat × Nat} {op : Op} {t : Thread}
    {p : Shared × Thread} {reply : String} (hs : dialog cfg s (.service r.1 (.step r.2 op)) = some s')
    (ht : s.thread r = some t) (hsound : t.Sound cfg) (hchat : t.InChat cfg)
    (hst : t.step cfg (s.services r.1).shared op = some p) (hshared : (s'.services r.1).shared = p.1)
    (hreply : p.2.replied = some reply) :
    ∃ turn, Stored cfg s₀ (acts ++ [.service r.1 (.step r.2 op)]) r p.2 turn acts := by
  have hleaves := leaves_step hsound hst
  obtain ⟨turn, hturn, hstore⟩ := hleaves.replies (inChat_persists hchat op) reply hreply
  refine ⟨turn, hturn, op, [], s, s', rfl, hrun, hs, fun g hg => ⟨?_, ?_⟩⟩
  · rw [DialogAct.added, ht]
    dsimp only
    rw [hst]
    dsimp only
    rw [Thread.added, if_pos ⟨hg, .inr (by rw [hreply]; simp)⟩]
    exact hturn.1
  · rw [hshared]
    exact hstore g (by rw [← hleaves.req]; exact hg)

theorem Talking.chats_step (h : Talking cfg s₀ acts s) (hs : dialog cfg s act = some s') (r : Nat × Nat)
    (u : Thread) (hu : s'.thread r = some u) (hstream : u.streaming = false) : u.InChat cfg ∧
      ∀ reply, u.replied = some reply →
        ∃ turn before, Stored cfg s₀ (acts ++ [act]) r u turn before := by
  rcases (Dialog.moves_of_step hs).thread hu with hold | hstart | ⟨op, t, p, rfl, ht, hst, rfl, hshared⟩
  · obtain ⟨hchat, hstored⟩ := h.chats r u hold hstream
    refine ⟨hchat, fun reply hr => ?_⟩
    obtain ⟨turn, before, hb⟩ := hstored reply hr
    exact ⟨turn, before, hb.snoc act⟩
  · refine ⟨⟨hstream, .inl hstart⟩, fun reply hr => ?_⟩
    rw [ended_of_replied hr] at hstart
    exact absurd hstart (by simp)
  · have hchat := (h.chats r t ht (by rw [← Thread.step_streaming hst]; exact hstream)).1
    refine ⟨hchat.step hst, fun reply hr => ?_⟩
    obtain ⟨turn, hb⟩ := stored_step h.runs hs ht (h.sound r t ht) hchat hst hshared hr
    exact ⟨turn, acts, hb⟩

theorem Talking.answered (h : Talking cfg s₀ acts s) {i : Nat} {m : Mutation} {r : Nat × Nat}
    {t : Thread} {reply : String} (hm : s.tab.mutations[i]? = some m) (hr : m.request = some r)
    (ht : s.thread r = some t) (hreply : t.replied = some reply) :
    ∃ turn before, turn.reply = reply ∧ Stored cfg s₀ acts r t turn before ∧
      t.req.session = some m.turn.guestId ∧
      (turn.content, turn.censored) = cfg.maskProfanity m.turn.message := by
  obtain ⟨hid, hreqs⟩ := h.requests i m hm
  obtain ⟨t', ht', hstream, hreq⟩ := hreqs r hr
  obtain rfl := Option.some.inj (ht.symm.trans ht')
  obtain ⟨turn, before, hb⟩ := (h.chats r t ht hstream).2 reply hreply
  refine ⟨turn, before, ?_, hb, ?_, ?_⟩
  · have := replied_of_turn hb.replied (ended_of_replied hreply)
    exact Option.some.inj (this.symm.trans hreply)
  · rw [hreq]
    show Option.filter _ (some m.turn.guestId) = _
    rw [Option.filter_some, if_pos (by simpa using hid)]
  · rw [hb.replied.2, hreq]

theorem Talking.succeeded (h : Talking cfg s₀ acts s) {i : Nat} {m : Mutation} {r : Nat × Nat}
    {t : Thread} {reply : String} (hm : s.tab.mutations[i]? = some m) (hr : m.request = some r)
    (ht : s.thread r = some t) (hreply : t.replied = some reply) :
    ∃ turn before, turn.reply = reply ∧ Stored cfg s₀ acts r t turn before ∧
      Exchanged cfg s₀ (acts ++ [.succeed i]) { s with tab := s.tab.onSuccess i m reply }
        m.turn.guestId ⟨i, r, m.turn.message, turn⟩ := by
  obtain ⟨turn, before, hrep, hb, hsession, hmask⟩ := h.answered hm hr ht hreply
  refine ⟨turn, before, hrep, hb, ⟨{ m with settled := true }, ?_, rfl, rfl, rfl, hr⟩, hmask, ?_⟩
  · dsimp only
    rw [Tab.onSuccess_mutations, Tab.settle, List.getElem?_modify_eq, hm]
    rfl
  · obtain ⟨op, after, s₁, s₂, e, hrun₁, hs₁, hstore⟩ := (hb.snoc (.succeed i)).step
    exact ⟨before, op, after, s₁, s₂, e, hrun₁, hs₁, (hstore _ hsession).2⟩

/-- a history that is read is the visible messages that were seen -/
theorem Seen.parse {answer : List Message} {messages : List ChatHistoryMessage}
    (h : Seen cfg s₀ acts g answer) (hparse : parseHistory answer = some messages) :
    messages = answer.filterMap parseMessage ∧ ∀ m ∈ answer, m.visible = true := by
  obtain ⟨_, _, s₁, j, _, _, rfl⟩ := h
  rw [parse_getVisible] at hparse
  exact ⟨(Option.some.inj hparse).symm, fun _ hm => (List.mem_filter.mp hm).2⟩

theorem Talking.data_step (h : Talking cfg s₀ acts s) (hs : dialog cfg s act = some s') (g : String)
    (response : ChatHistoryResponse) (hd : s'.tab.data g = some response) :
    ∃ base answers, Vouched cfg s₀ (acts ++ [act]) s' g response base answers := by
  have hmoves := Dialog.moves_of_step hs
  have hl := hmoves.continues h.sound
  rcases hmoves.data hd with hsame | hanswer | ⟨f, r, answer, messages, hf, ha, hparse, rfl, rfl⟩
  · obtain ⟨base, answers, hv⟩ := h.data g response hsame
    exact ⟨base, answers, hv.snoc act hl⟩
  · obtain ⟨i, m, r, t, reply, rfl, rfl, hm, hset, hr, ht, hreply, rfl, rfl⟩ := hanswer
    obtain ⟨turn, before, hrep, _, hanswered⟩ := h.succeeded hm hr ht hreply
    cases hcache : s.tab.data m.turn.guestId with
    | none =>
      have hempty : s.tab.data m.turn.guestId = none ∧ ([] : List Message) = [] ∧
          ([] : List Exchange) = [] := ⟨hcache, rfl, rfl⟩
      have hv := Vouched.append (.inl hempty) hm hset rfl rfl hrep.symm hl hanswered
      rw [hcache] at hv
      exact ⟨_, _, hv⟩
    | some old =>
      obtain ⟨base, answers, hv⟩ := h.data _ old hcache
      have hv := Vouched.append (.inr ⟨old, hcache, hv⟩) hm hset rfl rfl hrep.symm hl hanswered
      rw [hcache] at hv
      exact ⟨_, _, hv⟩
  · have hseen := h.answers f r answer hf ha
    refine ⟨answer, [], rfl, ?_, .inr (hseen.snoc _), List.nodup_nil, fun a ha => absurd ha (by simp)⟩
    rw [(hseen.parse hparse).1]
    exact (List.append_nil _).symm

theorem Talking.answers_step (h : Talking cfg s₀ acts s) (hs : dialog cfg s act = some s') (f : Nat)
    (r : Fetch) (answer : List Message) (hf : s'.tab.fetches[f]? = some r)
    (ha : r.answer = some answer) : Seen cfg s₀ (acts ++ [act]) r.guestId answer := by
  rcases (Dialog.moves_of_step hs).answer hf ha with ⟨r₀, hf₀, ha₀, hg⟩ | ⟨j, rfl⟩
  · rw [← hg]
    exact (h.answers f r₀ answer hf₀ ha₀).snoc act
  · exact ⟨acts, [act], s, j, rfl, h.runs, rfl⟩

theorem Talking.requests_step (h : Talking cfg s₀ acts s) (hs : dialog cfg s act = some s') (i : Nat)
    (m' : Mutation) (hm' : s'.tab.mutations[i]? = some m') : m'.turn.guestId ≠ "" ∧
      ∀ r, m'.request = some r → ∃ t, s'.thread r = some t ∧ t.streaming = false ∧
        t.req = ⟨m'.turn.message, some m'.turn.guestId⟩ := by
  have hmoves := Dialog.moves_of_step hs
  rcases hmoves.mutation hm' with ⟨m, hm, hturn, _, hreq⟩ | ⟨hid, hnone, _⟩
  · obtain ⟨hid, hthread⟩ := h.requests i m hm
    refine ⟨by rw [hturn]; exact hid, fun r hr => ?_⟩
    rcases hreq with hsame | ⟨r', t, hr', ht, _, hstream, hreq⟩
    · obtain ⟨t, ht, hstream, hreq⟩ := hthread r (by rw [← hsame]; exact hr)
      obtain ⟨t', ht', hreq', hstream', _⟩ := (hmoves.continues h.sound).thread r t ht
      exact ⟨t', ht', hstream'.trans hstream, by rw [hreq', hreq, hturn]⟩
    · obtain rfl := Option.some.inj (hr.symm.trans hr')
      exact ⟨t, ht, hstream, hreq⟩
  · exact ⟨hid, fun r hr => absurd (hnone.symm.trans hr) (by simp)⟩

theorem Talking.step (h : Talking cfg s₀ acts s) (hs : dialog cfg s act = some s') :
    Talking cfg s₀ (acts ++ [act]) s' where
  runs := h.runs.snoc trivial hs
  sound r u hu := by
    rcases (Dialog.moves_of_step hs).thread hu with hold | hstart | ⟨op, t, p, rfl, ht, hst, rfl, _⟩
    · exact h.sound r u hold
    · rw [Thread.Sound, hstart]
      trivial
    · exact (leaves_step (h.sound r t ht) hst).sound
  chats := h.chats_step hs
  requests := h.requests_step hs
  answers := h.answers_step hs
  data := h.data_step hs

theorem talking_init {services : Nat → State} (h : Fresh services) :
    Talking cfg ⟨services, .init⟩ [] ⟨services, .init⟩ := by
  have none : ∀ r t, Dialog.thread ⟨services, .init⟩ r ≠ some t := by
    intro r t ht
    rw [Dialog.thread, h.threads] at ht
    exact absurd ht (by simp)
  exact ⟨rfl, fun r t ht => absurd ht (none r t), fun r t ht => absurd ht (none r t),
    fun i m hm => absurd hm (by simp [Tab.init]), fun f r answer hf => absurd hf (by simp [Tab.init]),
    fun g response hd => absurd hd (by simp [Tab.init])⟩

end

/-- **A thread is a history of the guest, and chats that were answered since.**  In any interleaving
of chats, lost and late responses, requests of other clients, evictions, and sessions of one guest after
the other: what the tab keeps for a guest is what some instance kept for this guest at some moment,
followed by chats, none twice, each of them sent by the tab for this guest and stored by the service in
the conversation of this guest, with this reply. -/
theorem thread_vouched (cfg : Settings) {services : Nat → State} (hfresh : Fresh services)
    (acts : List DialogAct) (s : Dialog) (hrun : (dialog cfg).Runs free ⟨services, .init⟩ acts s)
    (g : String) (response : ChatHistoryResponse) (hdata : s.tab.data g = some response) :
    response.guest_id = g ∧ ∃ (base : List Message) (answers : List Exchange),
      response.messages = base.filterMap parseMessage ++ answers.flatMap Exchange.shown ∧
      (base = [] ∨ Seen cfg ⟨services, .init⟩ acts g base) ∧
      (answers.map Exchange.mutation).Nodup ∧
      ∀ a ∈ answers, Exchanged cfg ⟨services, .init⟩ acts s g a := by
  have h : Talking cfg ⟨services, .init⟩ acts s :=
    hrun.inv_history (fun _ _ _ _ h _ hs => h.step hs) (talking_init hfresh)
  obtain ⟨base, answers, hv⟩ := h.data g response hdata
  exact ⟨hv.guest, base, answers, hv.messages, hv.base, hv.nodup, hv.answered⟩

def instances : Nat → State := fun _ => freshService

theorem fresh_instances : Fresh instances := ⟨fun _ => rfl, fun _ _ => rfl⟩

/-- the history is read after the service has stored the turn, and before its answer comes -/
def overtaken : List DialogAct :=
  [.select (some "ana"), .send "hello" "1", .reach 0 0, .service 0 (.step 0 .go),
   .service 0 (.step 0 (.response ⟨false, some "hi", none⟩)), .fetch, .serve 0 0, .land 0,
   .succeed 0]

theorem overtaken_runs : ∃ s,
    (dialog plainSettings).Runs (fun _ act => act ≠ .mount) ⟨instances, .init⟩ overtaken s ∧
    s.tab.data "ana" = some ⟨"ana", [⟨some "hello", .user⟩, ⟨some "hi", .assistant⟩,
      ⟨some "hello", .user⟩, ⟨some "hi", .assistant⟩]⟩ := by
  have h : ∀ act ∈ overtaken, act ≠ .mount := by
    intro act hact e
    subst e
    simp [overtaken] at hact
  have hrun : ∃ s, (dialog plainSettings).Runs free ⟨instances, .init⟩ overtaken s ∧
      s.tab.data "ana" = some ⟨"ana", [⟨some "hello", .user⟩, ⟨some "hi", .assistant⟩,
        ⟨some "hello", .user⟩, ⟨some "hi", .assistant⟩]⟩ :=
    ⟨_, Machine.runs_free_iff.mpr rfl, rfl⟩
  obtain ⟨s, hrun, hd⟩ := hrun
  refine ⟨s, hrun.guarded fun bs t act t' cs e _ _ _ _ => h act ?_, hd⟩
  rw [e]
  exact List.mem_append_right bs List.mem_cons_self

theorem thread_vouched_overtaken : ∃ s : Dialog, s.tab.data "ana" ≠ none ∧
    ∃ (base : List Message) (answers : List Exchange),
    [⟨some "hello", .user⟩, ⟨some "hi", .assistant⟩, ⟨some "hello", .user⟩, ⟨some "hi", .assistant⟩] =
      base.filterMap parseMessage ++ answers.flatMap Exchange.shown ∧
    (base = [] ∨ Seen plainSettings ⟨instances, .init⟩ overtaken "ana" base) ∧
    ∀ a ∈ answers, Exchanged plainSettings ⟨instances, .init⟩ overtaken s "ana" a := by
  obtain ⟨s, hrun, hd⟩ := overtaken_runs
  have hfree := hrun.mono fun _ _ _ => trivial
  obtain ⟨_, base, answers, hmessages, hbase, _, hanswers⟩ :=
    thread_vouched plainSettings fresh_instances overtaken s hfree "ana" _ hd
  exact ⟨s, by rw [hd]; simp, base, answers, hmessages, hbase, hanswers⟩

end Parrot
