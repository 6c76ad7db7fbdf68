import Purrlington.Parrot.Dialog

/-!
# Parrot: what the panel tells the guest

Results about the runs of Parrot.Dialog.

* `Tab.Minded`        what the hook waits for is what it shows as pending, and no more than one chat;
* `never_dropped`     the last message of the hook is pending, or failed, or was answered;
* `StaysMounted`      the panel is not opened anew while a chat is under way;
* `InOrder`           a thread against the conversations that it shows;
* `thread_in_order`   but for one chat it shows them in order, and nothing twice.
-/

set_option linter.unusedSectionVars false

namespace Parrot
open SM

/-! ## the state of the hook -/

structure Tab.Minded (s : Tab) : Prop where
  bound : ∀ (i : Nat) m, s.mutations[i]? = some m → m.panel ≤ s.panel
  current : ∀ (i : Nat) m, s.mutations[i]? = some m → m.panel = s.panel → m.settled = false →
    s.mutation = some i
  observes : ∀ i, s.mutation = some i → ∃ m, s.mutations[i]? = some m ∧ m.panel = s.panel
  mind : s.pendingTurn = s.observed.map Mutation.turn
  failed : s.failedTurn ≠ none → s.observed = none

section
variable {s s' : Tab}

theorem observed_of_get {i : Nat} {m : Mutation} (hi : s.mutation = some i)
    (hm : s.mutations[i]? = some m) : s.observed = if m.settled then none else some m := by
  rw [Tab.observed, hi, Option.bind_some, hm, Option.filter_some]
  cases m.settled <;> rfl

theorem Tab.Minded.sends (h : s.Minded) (hs : s.Sends s') : s'.Minded := by
  rcases hs with rfl | ⟨turn, hid, hobs, rfl⟩
  · exact h
  · have hnew : (s.mutations ++ [(⟨turn, s.panel, none, false⟩ : Mutation)])[s.mutations.length]? =
        some ⟨turn, s.panel, none, false⟩ := List.getElem?_concat_length
    have hobserved : (Tab.mutate { s with failedTurn := none, pendingTurn := some turn } turn).observed =
        some ⟨turn, s.panel, none, false⟩ := by
      refine (observed_of_get (i := s.mutations.length) rfl hnew).trans ?_
      rfl
    refine ⟨?_, ?_, ?_, ?_, fun hf => absurd rfl hf⟩
    · exact forall_snoc h.bound (Nat.le_refl s.panel)
    · refine forall_snoc (fun i m hm hp hset => ?_) fun _ _ => rfl
      have hi := h.current i m hm hp hset
      rw [observed_of_get hi hm, hset] at hobs
      exact absurd hobs (by simp)
    · intro i hi
      obtain rfl := Option.some.inj hi
      exact ⟨_, hnew, rfl⟩
    · rw [hobserved]
      rfl

theorem Tab.Minded.mount (h : s.Minded) : s.mount.Minded where
  bound i m hm := Nat.le_succ_of_le (h.bound i m hm)
  current i m hm hp _ := absurd hp (Nat.ne_of_lt (Nat.lt_succ_of_le (h.bound i m hm)))
  observes i hi := absurd hi (by simp [Tab.mount])
  mind := rfl
  failed _ := rfl

/-- the chat that is settled is the observed one, or one of an earlier mount -/
theorem observed_settle {i : Nat} {m : Mutation} (h : s.Minded) (hm : s.mutations[i]? = some m)
    (hset : m.settled = false) :
    (m.panel = s.panel ∧ s.mutation = some i ∧ (s.settle i).observed = none) ∨
      (m.panel ≠ s.panel ∧ (s.settle i).observed = s.observed) := by
  by_cases hp : m.panel = s.panel
  · have hi := h.current i m hm hp hset
    refine .inl ⟨hp, hi, ?_⟩
    have hm' : (s.settle i).mutations[i]? = some { m with settled := true } := by
      rw [Tab.settle, List.getElem?_modify_eq, hm]
      rfl
    exact observed_of_get (s := s.settle i) hi hm'
  · refine .inr ⟨hp, ?_⟩
    rw [Tab.observed, Tab.observed]
    cases hi : s.mutation with
    | none =>
      show Option.filter _ ((s.mutation).bind _) = _
      rw [hi]
      rfl
    | some i' =>
      have hne : i ≠ i' := by
        rintro rfl
        obtain ⟨m', hm', hp'⟩ := h.observes i hi
        obtain rfl := Option.some.inj (hm.symm.trans hm')
        exact hp hp'
      show Option.filter _ ((s.mutation).bind _) = _
      rw [hi]
      show Option.filter _ (s.mutations.modify i _)[i']? = Option.filter _ s.mutations[i']?
      rw [List.getElem?_modify_ne _ _ hne]

section
variable {i : Nat} {f : Mutation → Mutation}

theorem bound_modify (h : s.Minded) (hf : ∀ m, (f m).panel = m.panel) :
    ∀ (i' : Nat) m', (s.mutations.modify i f)[i']? = some m' → m'.panel ≤ s.panel :=
  forall_modify h.bound fun m hm => by rw [hf]; exact h.bound i m hm

theorem current_modify (h : s.Minded) (hf : ∀ m, (f m).panel = m.panel)
    (hset : ∀ m, (f m).settled = false → m.settled = false) :
    ∀ (i' : Nat) m', (s.mutations.modify i f)[i']? = some m' → m'.panel = s.panel →
      m'.settled = false → s.mutation = some i' :=
  forall_modify (P := fun i' m' => m'.panel = s.panel → m'.settled = false → s.mutation = some i')
    h.current fun m hm hp hs => h.current i m hm (by rw [← hf]; exact hp) (hset m hs)

theorem observes_modify (h : s.Minded) (hf : ∀ m, (f m).panel = m.panel) (i' : Nat)
    (hi : s.mutation = some i') :
    ∃ m, (s.mutations.modify i f)[i']? = some m ∧ m.panel = s.panel := by
  obtain ⟨m, hm, hp⟩ := h.observes i' hi
  by_cases e : i = i'
  · subst e
    exact ⟨f m, by rw [List.getElem?_modify_eq, hm]; rfl, by rw [hf]; exact hp⟩
  · exact ⟨m, (List.getElem?_modify_ne _ _ e).trans hm, hp⟩

end

theorem Tab.Minded.onSuccess (h : s.Minded) {i : Nat} {m : Mutation} (hm : s.mutations[i]? = some m)
    (hset : m.settled = false) (reply : String) : (s.onSuccess i m reply).Minded := by
  rw [Tab.onSuccess]
  dsimp only
  rcases observed_settle h hm hset with ⟨hp, hi, hobs⟩ | ⟨hp, hobs⟩
  · rw [if_pos (show m.panel = (s.settle i).panel from hp)]
    have hmind : none = (s.settle i).observed.map Mutation.turn := by rw [hobs]; rfl
    exact ⟨bound_modify h fun _ => rfl,
      current_modify h (fun _ => rfl) fun _ hs => absurd hs (by simp), observes_modify h fun _ => rfl, hmind, fun _ => hobs⟩
  · rw [if_neg (show ¬ m.panel = (s.settle i).panel from hp)]
    have hmind : s.pendingTurn = (s.settle i).observed.map Mutation.turn := by rw [hobs]; exact h.mind
    exact ⟨bound_modify h fun _ => rfl,
      current_modify h (fun _ => rfl) fun _ hs => absurd hs (by simp), observes_modify h fun _ => rfl, hmind, fun hf => hobs.trans (h.failed hf)⟩

theorem Tab.Minded.onError (h : s.Minded) {i : Nat} {m : Mutation} (hm : s.mutations[i]? = some m)
    (hset : m.settled = false) (error : String) : (s.onError i m error).Minded := by
  rw [Tab.onError]
  dsimp only
  rcases observed_settle h hm hset with ⟨hp, hi, hobs⟩ | ⟨hp, hobs⟩
  · rw [if_pos (show m.panel = (s.settle i).panel from hp)]
    have hmind : none = (s.settle i).observed.map Mutation.turn := by rw [hobs]; rfl
    exact ⟨bound_modify h fun _ => rfl,
      current_modify h (fun _ => rfl) fun _ hs => absurd hs (by simp), observes_modify h fun _ => rfl, hmind, fun _ => hobs⟩
  · rw [if_neg (show ¬ m.panel = (s.settle i).panel from hp)]
    have hmind : s.pendingTurn = (s.settle i).observed.map Mutation.turn := by rw [hobs]; exact h.mind
    exact ⟨bound_modify h fun _ => rfl,
      current_modify h (fun _ => rfl) fun _ hs => absurd hs (by simp), observes_modify h fun _ => rfl, hmind, fun hf => hobs.trans (h.failed hf)⟩

theorem Tab.Minded.reach (h : s.Minded) (i : Nat) (r : Nat × Nat) :
    Tab.Minded { s with mutations := s.mutations.modify i fun m => { m with request := some r } } := by
  have hobs : (Tab.observed { s with
        mutations := s.mutations.modify i fun m => { m with request := some r } }).map Mutation.turn =
      s.observed.map Mutation.turn := by
    rw [Tab.observed, Tab.observed]
    cases hi : s.mutation with
    | none => rfl
    | some i' =>
      rw [Option.bind_some, Option.bind_some]
      dsimp only
      rw [List.getElem?_modify]
      cases s.mutations[i']? with
      | none => rfl
      | some m => by_cases e : i = i' <;> cases hset : m.settled <;>
        simp [e, hset, Option.filter_some]
  refine ⟨bound_modify h fun _ => rfl, current_modify h (fun _ => rfl) fun _ hs => hs,
    observes_modify h fun _ => rfl, h.mind.trans hobs.symm, fun hf => ?_⟩
  have hnone := h.failed hf
  rw [hnone] at hobs
  exact Option.map_eq_none_iff.mp hobs

end

section
variable {cfg : Settings} {s₀ s s' : Dialog} {acts : List DialogAct} {act : DialogAct}

/-- the chat that the hook observes is pending, or failed, or was answered -/
def Kept (cfg : Settings) (s₀ : Dialog) (acts : List DialogAct) (s : Dialog) : Prop :=
  ∀ i m, s.tab.mutation = some i → s.tab.mutations[i]? = some m → m.settled = true →
    (∃ error, s.tab.failedTurn = some { m.turn with error := error }) ∨
      ∃ a : Exchange, a.mutation = i ∧ Exchanged cfg s₀ acts s m.turn.guestId a

end

/-- while a chat of the hook is under way, the thread of its guest ends with it -/
theorem Tab.Minded.shows {s : Tab} (h : s.Minded) {i : Nat} {m : Mutation} (hi : s.mutation = some i)
    (hm : s.mutations[i]? = some m) (hset : m.settled = false) (hg : s.guest = some m.turn.guestId) :
    s.threadItems = s.historyItems ++ Tab.pendingItems m.turn := by
  have hobs : s.observed = some m := by
    rw [observed_of_get hi hm, hset]
    rfl
  refine Tab.threadItems_pending (by rw [h.mind, hobs]; rfl) ?_ hg
  by_contra hf
  rw [h.failed hf] at hobs
  exact absurd hobs nofun

/-- the panel is not opened anew while a chat is under way -/
def StaysMounted (s : Dialog) : DialogAct → Prop
  | .mount => ∀ m ∈ s.tab.mutations, m.settled = true
  | _ => True

/-- the visible messages of the conversations of a guest, by the time they were stored -/
def said (cfg : Settings) (g : String) (s₀ : Dialog) (acts : List DialogAct) : List Message :=
  (conversation cfg g s₀ acts).filter Message.visible

/-- a message of a thread is as the service keeps it, or it is the text that was masked there -/
def Shows (cfg : Settings) (shown : ChatHistoryMessage) (stored : Message) : Prop :=
  parseMessage stored = some shown ∨ ∃ raw, shown = ⟨some raw, .user⟩ ∧
    stored = .user (cfg.maskProfanity raw).1 (cfg.maskProfanity raw).2

section
variable {cfg : Settings} {s₀ s s' : Dialog} {acts : List DialogAct} {act : DialogAct} {g : String}

theorem shows_history {messages : List Message} (h : ∀ m ∈ messages, m.visible = true) :
    List.Forall₂ (Shows cfg) (messages.filterMap parseMessage) messages := by
  induction messages with
  | nil => exact .nil
  | cons m ms ih =>
    have hm : ∃ shown, parseMessage m = some shown := by
      have hv := h m List.mem_cons_self
      cases m with
      | user c b => exact ⟨_, rfl⟩
      | assistant c tc => exact ⟨_, rfl⟩
      | system c => exact absurd hv Bool.false_ne_true
      | tool i c => exact absurd hv Bool.false_ne_true
    obtain ⟨shown, hm⟩ := hm
    rw [List.filterMap_cons_some hm]
    exact .cons (.inl hm) (ih fun x hx => h x (List.mem_cons_of_mem m hx))

theorem shows_answer {a : Exchange}
    (h : (a.turn.content, a.turn.censored) = cfg.maskProfanity a.message) :
    List.Forall₂ (Shows cfg) a.shown a.turn.visible :=
  .cons (.inr ⟨a.message, rfl, by rw [← h]⟩) (.cons (.inl rfl) .nil)

theorem said_snoc (hrun : (dialog cfg).Runs free s₀ acts s) (act : DialogAct) :
    said cfg g s₀ (acts ++ [act]) =
      said cfg g s₀ acts ++ (act.added cfg g s).filter Message.visible := by
  rw [said, conversation_snoc hrun, List.filter_append]
  rfl

theorem said_sublist_snoc (hrun : (dialog cfg).Runs free s₀ acts s) {sub : List Message}
    (h : sub.Sublist (said cfg g s₀ acts)) (act : DialogAct) :
    sub.Sublist (said cfg g s₀ (acts ++ [act])) := by
  rw [said_snoc hrun]
  exact h.trans (List.sublist_append_left _ _)

/-- the turn of a chat comes after what was said before it replied -/
theorem Stored.said {r : Nat × Nat} {t : Thread} {turn : Turn} {before : List DialogAct}
    {sub : List Message} (h : Stored cfg s₀ acts r t turn before) (hg : t.req.session = some g)
    (hsub : sub.Sublist (said cfg g s₀ before)) :
    (sub ++ turn.visible).Sublist (said cfg g s₀ acts) := by
  obtain ⟨op, after, s₁, s₂, rfl, hrun, hs, hadd⟩ := h.step
  have hcons : ∀ as, conversation cfg g s₁ (.service r.1 (.step r.2 op) :: as) =
      turn.messages ++ conversation cfg g s₂ as := by
    intro as
    rw [conversation, (hadd g hg).1, hs]
  rw [Parrot.said, conversation_append hrun, hcons, List.filter_append, List.filter_append,
    turn.filter_messages]
  exact hsub.append (List.sublist_append_left _ _)

/-- what is cached for a guest: `sub` of what was said, but for `first`, a chat whose answer came when
a history that was asked for later was there already -/
structure InOrder (cfg : Settings) (s₀ : Dialog) (acts : List DialogAct) (s : Dialog) (g : String)
    (response : ChatHistoryResponse) (base first rest : List ChatHistoryMessage)
    (sub : List Message) : Prop where
  messages : response.messages = base ++ first ++ rest
  early : first = [] ∨ ∃ a : Exchange, Exchanged cfg s₀ acts s g a ∧ first = a.shown
  part : sub.Sublist (said cfg g s₀ acts)
  shows : List.Forall₂ (Shows cfg) (base ++ rest) sub
  -- a chat that is answered next was stored later
  next : (first = [] ∧ rest = []) ∨ ∀ (i : Nat) m r t reply, s.tab.mutations[i]? = some m →
    m.settled = false → m.turn.guestId = g → m.request = some r → s.thread r = some t →
    t.replied = some reply →
    ∃ turn before, Stored cfg s₀ acts r t turn before ∧ sub.Sublist (said cfg g s₀ before)

theorem Talking.under_way (h : Talking cfg s₀ acts s) (hs : dialog cfg s act = some s') {i : Nat}
    {m' : Mutation} {r : Nat × Nat} {t' : Thread} {reply : String}
    (hm' : s'.tab.mutations[i]? = some m') (hset : m'.settled = false) (hr : m'.request = some r)
    (ht' : s'.thread r = some t') (hreply : t'.replied = some reply) :
    (∃ m, s.tab.mutations[i]? = some m ∧ m'.turn = m.turn ∧ m.settled = false ∧ m.request = some r ∧
      s.thread r = some t') ∨ ∃ turn, Stored cfg s₀ (acts ++ [act]) r t' turn acts := by
  have hmoves := Dialog.moves_of_step hs
  have hpc := ended_of_replied hreply
  rcases hmoves.mutation hm' with ⟨m, hm, hturn, hold, hreq⟩ | ⟨_, hnone, _⟩
  · have hsame : m'.request = m.request := by
      rcases hreq with hsame | ⟨r', t, hr', ht, hstart, _⟩
      · exact hsame
      · obtain rfl := Option.some.inj (hr.symm.trans hr')
        obtain rfl := Option.some.inj (ht'.symm.trans ht)
        rw [hpc] at hstart
        exact absurd hstart (by simp)
    rcases hmoves.thread ht' with ht | hstart | ⟨op, t, p, rfl, ht, hst, rfl, hshared⟩
    · exact .inl ⟨m, hm, hturn, hold hset, hsame ▸ hr, ht⟩
    · rw [hpc] at hstart
      exact absurd hstart (by simp)
    · obtain ⟨_, hthread⟩ := h.requests i m hm
      obtain ⟨t₁, ht₁, hstream, _⟩ := hthread r (hsame ▸ hr)
      obtain rfl := Option.some.inj (ht.symm.trans ht₁)
      have hchat := (h.chats r t ht hstream).1
      exact .inr (stored_step h.runs hs ht (h.sound r t ht) hchat hst hshared hreply)
  · exact absurd (hnone.symm.trans hr) (by simp)

theorem InOrder.snoc {response : ChatHistoryResponse} {base first rest : List ChatHistoryMessage}
    {sub : List Message} (ho : InOrder cfg s₀ acts s g response base first rest sub)
    (h : Talking cfg s₀ acts s) (hs : dialog cfg s act = some s') :
    InOrder cfg s₀ (acts ++ [act]) s' g response base first rest sub := by
  have hl := (Dialog.moves_of_step hs).continues h.sound
  refine ⟨ho.messages, ?_, said_sublist_snoc h.runs ho.part act, ho.shows, ?_⟩
  · rcases ho.early with hf | ⟨a, ha, hf⟩
    · exact .inl hf
    · exact .inr ⟨a, ha.snoc act hl, hf⟩
  · rcases ho.next with hempty | hnext
    · exact .inl hempty
    · refine .inr fun i m' r t' reply hm' hset hg hr ht' hreply => ?_
      rcases h.under_way hs hm' hset hr ht' hreply with ⟨m, hm, hturn, hset, hr, ht⟩ | ⟨turn, hstored⟩
      · obtain ⟨turn, before, hstored, hsub⟩ :=
          hnext i m r t' reply hm hset (hturn ▸ hg) hr ht hreply
        exact ⟨turn, before, hstored.snoc act, hsub⟩
      · exact ⟨turn, acts, hstored, ho.part⟩

/-- **The parts, while no two chats are under way.** -/
structure Ordered (cfg : Settings) (s₀ : Dialog) (acts : List DialogAct) (s : Dialog) : Prop where
  talking : Talking cfg s₀ acts s
  single : ∀ (i : Nat) m, s.tab.mutations[i]? = some m → m.settled = false → s.tab.mutation = some i
  stores : ∀ j g, ((s.services j).shared.store.getVisible g).Sublist (said cfg g s₀ acts)
  answers : ∀ (f : Nat) r answer, s.tab.fetches[f]? = some r → r.answer = some answer →
    answer.Sublist (said cfg r.guestId s₀ acts)
  data : ∀ g response, s.tab.data g = some response →
    ∃ base first rest sub, InOrder cfg s₀ acts s g response base first rest sub

theorem Ordered.single_step (h : Ordered cfg s₀ acts s) (hg : StaysMounted s act)
    (hs : dialog cfg s act = some s') (i : Nat) (m' : Mutation)
    (hm' : s'.tab.mutations[i]? = some m') (hset : m'.settled = false) : s'.tab.mutation = some i := by
  have hmoves := Dialog.moves_of_step hs
  cases hmoves with
  | mount =>
    have := hg m' (List.mem_of_getElem? hm')
    rw [this] at hset
    exact absurd hset (by simp)
  | sends hsends _ _ =>
    rcases hsends with rfl | ⟨turn, _, hobs, rfl⟩
    · exact h.single i m' hm' hset
    · rcases getElem?_snoc hm' with hm' | ⟨rfl, _⟩
      · have hi := h.single i m' hm' hset
        rw [observed_of_get hi hm', hset] at hobs
        exact absurd hobs (by simp)
      · rfl
  | reach i' j m hm hreq =>
    refine forall_modify (P := fun i m' => m'.settled = false → s.tab.mutation = some i) h.single
      (fun m hm hs => h.single i' m hm hs) i m' hm' hset
  | succeed i' m r t reply hm _ _ _ _ =>
    dsimp only at hm' ⊢
    rw [Tab.onSuccess_mutations] at hm'
    rw [Tab.onSuccess_mutation]
    exact forall_modify (P := fun i m' => m'.settled = false → s.tab.mutation = some i) h.single
      (fun m hm hs => absurd hs (by simp)) i m' hm' hset
  | fail i' error m hm _ =>
    dsimp only at hm' ⊢
    rw [Tab.onError_mutations] at hm'
    rw [Tab.onError_mutation]
    exact forall_modify (P := fun i m' => m'.settled = false → s.tab.mutation = some i) h.single
      (fun m hm hs => absurd hs (by simp)) i m' hm' hset
  | _ => exact h.single i m' hm' hset

theorem trim_sublist (max_messages : Nat) (ms : List Message) : (trim max_messages ms).Sublist ms := by
  rcases trim_suffix max_messages ms with h | ⟨pre, h, _⟩
  · rw [h]
  · conv_rhs => rw [h]
    exact List.sublist_append_right _ _

theorem visible_adds {old new now : List Message} (h : Adds old new now) :
    (now.filter Message.visible).Sublist ((old ++ new).filter Message.visible) := by
  rcases h with ⟨rfl, rfl⟩ | ⟨max_messages, rfl⟩
  · rw [List.append_nil]
  · exact (trim_sublist max_messages (old ++ new)).filter _

theorem Ordered.stores_step (h : Ordered cfg s₀ acts s) (hs : dialog cfg s act = some s') (j : Nat)
    (g : String) :
    ((s'.services j).shared.store.getVisible g).Sublist (said cfg g s₀ (acts ++ [act])) := by
  have hrun := h.talking.runs
  have same : (s'.services j).shared = (s.services j).shared →
      ((s'.services j).shared.store.getVisible g).Sublist (said cfg g s₀ (acts ++ [act])) := by
    intro e
    rw [e]
    exact said_sublist_snoc hrun (h.stores j g) act
  have other : ∀ {j' : Nat} {p : State} {tab : Tab}, s' = ⟨Function.update s.services j' p, tab⟩ →
      j ≠ j' → ((s'.services j).shared.store.getVisible g).Sublist (said cfg g s₀ (acts ++ [act])) := by
    rintro j' p tab rfl hne
    refine same ?_
    dsimp only
    rw [Function.update_of_ne hne]
  have hmoves := Dialog.moves_of_step hs
  cases hmoves with
  | spawn j' r =>
    by_cases e : j = j'
    · subst e
      exact same (by dsimp only; rw [Function.update_self])
    · exact other rfl e
  | env j' e =>
    by_cases hj : j = j'
    · subst hj
      dsimp only
      rw [Function.update_self]
      cases e with
      | tick d => exact said_sublist_snoc hrun (h.stores j g) _
      | cleanup =>
        show (((s.services j).shared.store.cleanup _).messages g |>.filter _).Sublist _
        rcases (s.services j).shared.store.cleanup_messages (s.services j).shared.now g with e | e
        · rw [e]
          exact said_sublist_snoc hrun (h.stores j g) _
        · rw [e]
          exact List.nil_sublist _
    · exact other rfl hj
  | step j' k op t p ht hst =>
    by_cases hj : j = j'
    · subst hj
      dsimp only
      rw [Function.update_self, said_snoc hrun]
      have hadded : DialogAct.added cfg g s (.service j (.step k op)) = t.added g op p.2 := by
        rw [DialogAct.added, ht]
        dsimp only
        rw [hst]
      rw [hadded]
      have hadds := (leaves_step (h.talking.sound _ t ht) hst).adds g
      refine (visible_adds hadds).trans ?_
      rw [List.filter_append]
      exact (h.stores j g).append (List.Sublist.refl _)
    · exact other rfl hj
  | reach i j' m hm hreq =>
    by_cases e : j = j'
    · subst e
      exact same (by dsimp only; rw [Function.update_self])
    · exact other rfl e
  | _ => exact same rfl

/-- a chat is answered: its turn is the last, or, where a history has been read since it was sent, it
is the one that may be out of place -/
theorem InOrder.append {i : Nat} {m : Mutation} {r : Nat × Nat} {t : Thread} {reply : String}
    (h : Ordered cfg s₀ acts s) (hm : s.tab.mutations[i]? = some m) (hset : m.settled = false)
    (hr : m.request = some r) (ht : s.thread r = some t) (hreply : t.replied = some reply)
    (hs : dialog cfg s (.succeed i) = some { s with tab := s.tab.onSuccess i m reply })
    {base first rest : List ChatHistoryMessage} {sub : List Message}
    (ho : (s.tab.data m.turn.guestId = none ∧ base = [] ∧ first = [] ∧ rest = [] ∧ sub = []) ∨
      ∃ response, s.tab.data m.turn.guestId = some response ∧
        InOrder cfg s₀ acts s m.turn.guestId response base first rest sub) :
    ∃ first' rest' sub', InOrder cfg s₀ (acts ++ [.succeed i])
      { s with tab := s.tab.onSuccess i m reply } m.turn.guestId
      (appendMessagesToHistory (s.tab.data m.turn.guestId) m.turn reply) base first' rest' sub' := by
  obtain ⟨turn, before, rfl, hstored, hanswered⟩ := h.talking.succeeded hm hr ht hreply
  obtain ⟨hid, hthread⟩ := h.talking.requests i m hm
  obtain ⟨t₁, ht₁, _, hreq⟩ := hthread r hr
  obtain rfl := Option.some.inj (ht.symm.trans ht₁)
  have hsession : t.req.session = some m.turn.guestId := by
    rw [hreq]
    show Option.filter _ (some m.turn.guestId) = _
    rw [Option.filter_some, if_pos (by simpa using hid)]
  -- there is no other chat under way
  have hnone : ∀ (i' : Nat) m', (s.tab.onSuccess i m turn.reply).mutations[i']? = some m' →
      m'.settled = false → False := by
    intro i' m' hm' hset'
    rw [Tab.onSuccess_mutations, Tab.settle] at hm'
    by_cases e : i = i'
    · subst e
      rw [List.getElem?_modify_eq, hm] at hm'
      obtain rfl := Option.some.inj hm'
      exact absurd hset' (by simp)
    · have hi' := h.single i' m' ((List.getElem?_modify_ne _ _ e).symm.trans hm') hset'
      exact e (Option.some.inj ((h.single i m hm hset).symm.trans hi'))
  have hnext : ∀ {first rest : List ChatHistoryMessage} {sub : List Message},
      (first = [] ∧ rest = []) ∨ ∀ (i' : Nat) m' r t reply',
        (s.tab.onSuccess i m turn.reply).mutations[i']? = some m' → m'.settled = false →
        m'.turn.guestId = m.turn.guestId → m'.request = some r →
        Dialog.thread { s with tab := s.tab.onSuccess i m turn.reply } r = some t →
        t.replied = some reply' → ∃ turn' before, Stored cfg s₀ (acts ++ [.succeed i]) r t turn' before ∧
          sub.Sublist (said cfg m.turn.guestId s₀ before) :=
    fun {_ _ _} => .inr fun i' m' _ _ _ hm' hset' _ _ _ _ => (hnone i' m' hm' hset').elim
  rcases ho with ⟨hd, rfl, rfl, rfl, rfl⟩ | ⟨response, hd, ho⟩
  · rw [hd]
    exact ⟨_, [], [], rfl, .inr ⟨_, hanswered, rfl⟩, List.nil_sublist _, .nil, hnext⟩
  · rw [hd]
    have hshows := shows_answer hanswered.masked
    rcases ho.next with ⟨rfl, rfl⟩ | hlast
    · refine ⟨_, [], sub, ?_, .inr ⟨_, hanswered, rfl⟩, said_sublist_snoc h.talking.runs ho.part _,
        ho.shows, hnext⟩
      show response.messages ++ [_, _] = _
      rw [ho.messages, List.append_nil, List.append_nil, List.append_nil]
      rfl
    · obtain ⟨turn', before', hstored', hsub⟩ :=
        hlast i m r t turn.reply hm hset rfl hr ht hreply
      -- the two are one turn
      have hvisible : turn'.visible = turn.visible := by
        rw [← turn'.filter_messages, ← turn.filter_messages, ← hstored.replied.1, ← hstored'.replied.1]
      have hpart := (hstored'.snoc (.succeed i)).said hsession hsub
      rw [hvisible] at hpart
      have hearly := (ho.snoc h.talking hs).early
      refine ⟨first, rest ++ [⟨some m.turn.message, .user⟩, ⟨some turn.reply, .assistant⟩],
        sub ++ turn.visible, ?_, hearly, hpart, ?_, hnext⟩
      · show response.messages ++ [_, _] = _
        rw [ho.messages, List.append_assoc (base ++ first)]
      · rw [← List.append_assoc]
        exact List.rel_append ho.shows hshows

theorem Ordered.data_step (h : Ordered cfg s₀ acts s) (hs : dialog cfg s act = some s') (g : String)
    (response : ChatHistoryResponse) (hd : s'.tab.data g = some response) :
    ∃ base first rest sub, InOrder cfg s₀ (acts ++ [act]) s' g response base first rest sub := by
  have hruns := h.talking.runs
  rcases (Dialog.moves_of_step hs).data hd with
    hsame | hanswer | ⟨f, r, answer, messages, hf, ha, hparse, rfl, rfl⟩
  · obtain ⟨base, first, rest, sub, ho⟩ := h.data g response hsame
    exact ⟨base, first, rest, sub, ho.snoc h.talking hs⟩
  · obtain ⟨i, m, r, t, reply, rfl, rfl, hm, hset, hr, ht, hreply, rfl, rfl⟩ := hanswer
    cases hcache : s.tab.data m.turn.guestId with
    | none =>
      obtain ⟨first, rest, sub, ho⟩ := InOrder.append h hm hset hr ht hreply hs
        (.inl ⟨hcache, rfl, rfl, rfl, rfl⟩)
      rw [hcache] at ho
      exact ⟨_, _, _, _, ho⟩
    | some old =>
      obtain ⟨base, first, rest, sub, ho⟩ := h.data _ old hcache
      obtain ⟨first, rest, sub, ho⟩ := InOrder.append h hm hset hr ht hreply hs
        (.inr ⟨old, hcache, ho⟩)
      rw [hcache] at ho
      exact ⟨_, _, _, _, ho⟩
  · obtain ⟨rfl, hvisible⟩ := (h.talking.answers f r answer hf ha).parse hparse
    have hpart := said_sublist_snoc hruns (h.answers f r answer hf ha) act
    refine ⟨answer.filterMap parseMessage, [], [], answer, ?_, .inl rfl, hpart, ?_, .inl ⟨rfl, rfl⟩⟩
    · rw [List.append_nil, List.append_nil]
    · rw [List.append_nil]
      exact shows_history hvisible

theorem Ordered.step (h : Ordered cfg s₀ acts s) (hg : StaysMounted s act) (hs : dialog cfg s act = some s') :
    Ordered cfg s₀ (acts ++ [act]) s' where
  talking := h.talking.step hs
  single := h.single_step hg hs
  stores := h.stores_step hs
  answers f r answer hf ha := by
    rcases (Dialog.moves_of_step hs).answer hf ha with ⟨r₀, hf₀, ha₀, hg⟩ | ⟨j, rfl⟩
    · rw [← hg]
      exact said_sublist_snoc h.talking.runs (h.answers f r₀ answer hf₀ ha₀) act
    · exact said_sublist_snoc h.talking.runs (h.stores j r.guestId) act
  data := h.data_step hs

theorem ordered_init {services : Nat → State} (h : Fresh services) :
    Ordered cfg ⟨services, .init⟩ [] ⟨services, .init⟩ where
  talking := talking_init h
  single i m hm := absurd hm (by simp [Tab.init])
  stores j g := by
    rw [ConversationStore.getVisible, h.store j g]
    exact List.nil_sublist _
  answers f r answer hf := absurd hf (by simp [Tab.init])
  data g response hd := absurd hd (by simp [Tab.init])

end

/-- **A thread is in order.**  In any interleaving in which the panel is not opened anew while a chat
is under way: but for one chat at most, what the tab keeps for a guest is a subsequence of what was said
in the conversations of the guest, in the order in which it was stored and nothing twice, with the text
of the tab where the service has masked it.  The one chat is that of an answer that came after a history,
which may have it already. -/
theorem thread_in_order (cfg : Settings) {services : Nat → State} (hfresh : Fresh services)
    (acts : List DialogAct) (s : Dialog) (hrun : (dialog cfg).Runs StaysMounted ⟨services, .init⟩ acts s)
    (g : String) (response : ChatHistoryResponse) (hdata : s.tab.data g = some response) :
    ∃ base first rest sub, response.messages = base ++ first ++ rest ∧
      (first = [] ∨ ∃ a : Exchange, Exchanged cfg ⟨services, .init⟩ acts s g a ∧ first = a.shown) ∧
      sub.Sublist ((conversation cfg g ⟨services, .init⟩ acts).filter Message.visible) ∧
      List.Forall₂ (Shows cfg) (base ++ rest) sub := by
  have h : Ordered cfg ⟨services, .init⟩ acts s :=
    hrun.inv_history (fun _ _ _ _ h hg hs => h.step hg hs) (ordered_init hfresh)
  obtain ⟨base, first, rest, sub, ho⟩ := h.data g response hdata
  exact ⟨base, first, rest, sub, ho.messages, ho.early, ho.part, ho.shows⟩

/-- the turn that the history has already is shown twice -/
theorem thread_in_order_overtaken : ∃ s, (dialog plainSettings).Runs StaysMounted ⟨instances, .init⟩ overtaken s ∧
    ∃ base first rest sub, [⟨some "hello", .user⟩, ⟨some "hi", .assistant⟩, ⟨some "hello", .user⟩,
        ⟨some "hi", .assistant⟩] = base ++ first ++ rest ∧
      (first = [] ∨ ∃ a : Exchange, Exchanged plainSettings ⟨instances, .init⟩ overtaken s "ana" a ∧
        first = a.shown) ∧
      sub.Sublist ((conversation plainSettings "ana" ⟨instances, .init⟩ overtaken).filter Message.visible) ∧
      List.Forall₂ (Shows plainSettings) (base ++ rest) sub := by
  obtain ⟨s, hrun, hd⟩ := overtaken_runs
  have hstays : (dialog plainSettings).Runs StaysMounted ⟨instances, .init⟩ overtaken s := by
    refine hrun.mono fun s act hact => ?_
    cases act with
    | mount => exact absurd rfl hact
    | _ => trivial
  exact ⟨s, hstays, thread_in_order plainSettings fresh_instances overtaken s hstays "ana" _ hd⟩

end Parrot
