import Purrlington.Parrot.Traffic
import Purrlington.Lib.TtlCache

/-!
# Parrot behind the gateway

Every instance of the pool has a conversation store of its own, and the pool sends a request to
whichever instance is next.  With a ttl, the gateway's cache is in front of the pool.

* `Deployment.serve`    the pool and its instances, request by request;
* `Deployment.answer`   the answer of the next instance to a GET;
* `answer_whole_iff`    it is the whole conversation exactly if it is about the guest, no chat of the
                        guest is left out, and all went to the instance that answers;
* `proxy`               the cache middleware, the route and the pool, for requests that come one after
                        the other;
* `history_complete_iff`  so GET /history through the gateway;
* `history_split`       two instances, one chat.
-/

set_option linter.unusedSectionVars false

namespace Parrot
open Gateway

/-! ## the pool -/

/-- the response of GET /history/{guest_id} -/
structure HistoryResponse where
  guest_id : String
  messages : List Message
  deriving DecidableEq

/-- the response to a GET or HEAD request, as far as it is a history, and whether it may be cached:
a 200 that is no event stream -/
structure GetResponse where
  history : Option HistoryResponse
  shareable : Bool

/-- the pool and its instances; a service URL has no path of its own -/
structure Deployment where
  targets : Targets
  bare : ∀ u ∈ targets.urls, u.NoBasePath
  next : UInt32
  instances : List ConversationStore
  aligned : instances.length = targets.urls.length

namespace Deployment

def pool (d : Deployment) : ProxyPool := d.targets.pool d.next

def route (d : Deployment) : Route := .pooled d.targets d.next

def serve (d : Deployment) (r : Int × Traffic) : Deployment :=
  { d with
    next := d.pool.pick.2.next
    instances := d.instances.modify d.pool.pick.1 fun s => s.handle r.1 r.2
    aligned := by rw [List.length_modify, d.aligned] }

def serveAll (d : Deployment) (rs : List (Int × Traffic)) : Deployment := rs.foldl serve d

/-- the guest that parrot reads in the path that the route sends -/
def guest (d : Deployment) (r : Get) : Option String :=
  if r.http.method = ascii "GET" then
    (d.route.received .parrot r.http).bind fun p => historyId p.1
  else none

/-- the answer of the instance that is next -/
def answer (d : Deployment) (r : Get) : GetResponse :=
  match d.guest r, d.instances[d.pool.pick.1]? with
  | some guest_id, some s => ⟨some ⟨guest_id, s.getVisible guest_id⟩, true⟩
  | _, _ => ⟨none, r.shareable⟩

theorem guest_eq (d : Deployment) (r : Get) : d.guest r = r.guest := by
  have hbare : d.route.target.NoBasePath := d.bare _ (List.get_mem _ _)
  obtain ⟨wildcard, hw⟩ := Option.isSome_iff_exists.mp r.mounted
  unfold guest Get.guest
  rw [Route.received_eq hbare hw fun hne => (parseRequestURI_rawPath r.parsed hne).1, hw]
  rfl

end Deployment

/-- the turns of `g`, in order -/
def turns (g : String) (rs : List (Int × Traffic)) : List Turn :=
  rs.filterMap fun r => r.2.turn? g

/-- the turns of `g` that the pool sends to instance `i` -/
def routed (g : String) (i : Nat) : ProxyPool → List (Int × Traffic) → List Turn
  | _, [] => []
  | p, r :: rs => (if p.pick.1 = i then (r.2.turn? g).toList else []) ++ routed g i p.pick.2 rs

/-! ## one instance -/

theorem contentCount_append (a b : List Message) :
    contentCount (a ++ b) = contentCount a + contentCount b := List.countP_append

theorem handle_messages {g : String} (s : ConversationStore) (now : Int) {r : Traffic}
    (hr : r.Regular g) (hmax : ∀ t, r.turn? g = some t →
      contentCount (s.messages g ++ t.messages) ≤ s.max_messages) :
    (s.handle now r).messages g = s.messages g ++ ((r.turn? g).toList).flatMap Turn.messages ∧
      (s.handle now r).max_messages = s.max_messages := by
  have hget : ∀ x, (s.getMessages now x).2.max_messages = s.max_messages := by
    intro x
    unfold ConversationStore.getMessages
    split <;> rfl
  cases r with
  | chat x t =>
    refine ⟨?_, hget x⟩
    show ((s.getMessages now x).2.append now x t.messages).messages g =
      s.messages g ++ (if x = g then some t else none).toList.flatMap Turn.messages
    by_cases hx : x = g
    · subst hx
      have hm := hmax t (if_pos rfl)
      rw [ConversationStore.append_messages_self, ConversationStore.getMessages_messages, hget,
        trim_of_le hm, if_pos rfl]
      simp
    · rw [ConversationStore.append_messages_ne _ _ (fun e => hx e.symm),
        ConversationStore.getMessages_messages, if_neg hx]
      simp
  | chatFailed x =>
    refine ⟨?_, hget x⟩
    show ((s.getMessages now x).2).messages g = s.messages g ++ []
    rw [ConversationStore.getMessages_messages, List.append_nil]
  | stream x msgs =>
    refine ⟨?_, hget x⟩
    show ((s.getMessages now x).2.append now x msgs).messages g = s.messages g ++ []
    rw [ConversationStore.append_messages_ne _ _ (fun e => hr e.symm),
      ConversationStore.getMessages_messages, List.append_nil]
  | get r => exact ⟨(List.append_nil _).symm, rfl⟩
  | other => exact ⟨(List.append_nil _).symm, rfl⟩

/-- what instance `i` holds of `g` after the requests: what it held, then the turns sent to it -/
theorem serveAll_messages {g : String} {i : Nat} {rs : List (Int × Traffic)}
    (hreg : ∀ r ∈ rs, r.2.Regular g) {d : Deployment} {s : ConversationStore}
    (hs : d.instances[i]? = some s)
    (hmax : contentCount (s.messages g ++ (routed g i d.pool rs).flatMap Turn.messages) ≤
      s.max_messages) :
    ∃ s', (d.serveAll rs).instances[i]? = some s' ∧
      s'.messages g = s.messages g ++ (routed g i d.pool rs).flatMap Turn.messages := by
  induction rs generalizing d s with
  | nil => exact ⟨s, hs, (List.append_nil _).symm⟩
  | cons r rs ih =>
    have hreg' : ∀ x ∈ rs, x.2.Regular g := fun x hx => hreg x (List.mem_cons_of_mem _ hx)
    rw [routed, List.flatMap_append, ← List.append_assoc] at hmax
    by_cases hi : d.pool.pick.1 = i
    · rw [if_pos hi] at hmax
      obtain ⟨hm, hmm⟩ := handle_messages s r.1 (hreg r List.mem_cons_self)
        (fun t ht => by
          rw [ht, contentCount_append] at hmax
          have e : (some t).toList.flatMap Turn.messages = t.messages := by simp
          rw [e] at hmax
          omega)
      have hget : (d.serve r).instances[i]? = some (s.handle r.1 r.2) := by
        show (d.instances.modify _ _)[i]? = _
        rw [hi, List.getElem?_modify_eq, hs]
        rfl
      obtain ⟨s', hs', hmsg⟩ := ih hreg' hget (by rw [hm, hmm]; exact hmax)
      refine ⟨s', hs', ?_⟩
      rw [hmsg, hm, routed, if_pos hi, List.flatMap_append, List.append_assoc]
      rfl
    · rw [if_neg hi, List.flatMap_nil, List.append_nil] at hmax
      have hget : (d.serve r).instances[i]? = some s := by
        show (d.instances.modify _ _)[i]? = _
        rw [List.getElem?_modify, hs]
        show some (if d.pool.pick.1 = i then _ else s) = some s
        rw [if_neg hi]
      obtain ⟨s', hs', hmsg⟩ := ih hreg' hget hmax
      refine ⟨s', hs', ?_⟩
      rw [hmsg, routed, if_neg hi, List.nil_append]
      rfl

/-! ## all instances -/

theorem serveAll_pick (d : Deployment) (rs : List (Int × Traffic)) :
    (d.serveAll rs).pool.pick.1 = d.pool.index rs.length := by
  induction rs generalizing d with
  | nil => exact (d.pool.index_zero).symm
  | cons r rs ih =>
    rw [List.length_cons, ← d.pool.index_pick]
    exact ih (d.serve r)

theorem routed_sublist (g : String) (i : Nat) (p : ProxyPool) (rs : List (Int × Traffic)) :
    (routed g i p rs).Sublist (turns g rs) := by
  induction rs generalizing p with
  | nil => exact List.Sublist.refl _
  | cons r rs ih =>
    have e : turns g (r :: rs) = (r.2.turn? g).toList ++ turns g rs := by
      unfold turns
      rw [List.filterMap_cons]
      cases r.2.turn? g <;> rfl
    rw [routed, e]
    split
    · exact (List.Sublist.refl _).append (ih p.pick.2)
    · exact (List.nil_sublist _).append (ih p.pick.2)

/-- an instance is sent every turn exactly when every turn's request has its index -/
theorem routed_eq_turns (g : String) (i : Nat) (p : ProxyPool) (rs : List (Int × Traffic)) :
    routed g i p rs = turns g rs ↔
      ∀ (k : Nat) (r : Int × Traffic) (t : Turn), rs[k]? = some r → r.2.turn? g = some t →
        p.index k = i := by
  induction rs generalizing p with
  | nil => exact ⟨fun _ k r t h => absurd h (by simp), fun _ => rfl⟩
  | cons x rs ih =>
    have later : (∀ (k : Nat) (r : Int × Traffic) (t : Turn), (x :: rs)[k]? = some r →
        r.2.turn? g = some t → p.index k = i) ↔
        (∀ t, x.2.turn? g = some t → p.pick.1 = i) ∧ routed g i p.pick.2 rs = turns g rs := by
      rw [ih]
      constructor
      · intro h
        refine ⟨fun t ht => ?_, fun k r t hk ht => ?_⟩
        · rw [← p.index_zero]
          exact h 0 x t rfl ht
        · rw [p.index_pick]
          exact h (k + 1) r t hk ht
      · rintro ⟨h0, h1⟩ k r t hk ht
        cases k with
        | zero =>
          obtain rfl := Option.some.inj hk
          rw [p.index_zero]
          exact h0 t ht
        | succ k =>
          rw [← p.index_pick]
          exact h1 k r t hk ht
    rw [later, routed]
    unfold turns
    rw [List.filterMap_cons]
    cases ht : x.2.turn? g with
    | none =>
      show (if p.pick.1 = i then [] else []) ++ _ = _ ↔ _
      rw [ite_self, List.nil_append]
      exact ⟨fun h => ⟨nofun, h⟩, fun h => h.2⟩
    | some t =>
      show (if p.pick.1 = i then [t] else []) ++ _ = t :: _ ↔ _
      by_cases hp : p.pick.1 = i
      · rw [if_pos hp]
        constructor
        · intro h
          exact ⟨fun _ _ => hp, (List.cons.inj h).2⟩
        · intro h
          exact congrArg (t :: ·) h.2
      · rw [if_neg hp, List.nil_append]
        constructor
        · intro h
          -- a sublist of the later turns cannot be all of them and one more
          have hlen := (routed_sublist g i p.pick.2 rs).length_le
          unfold turns at hlen
          rw [h, List.length_cons] at hlen
          omega
        · intro h
          exact absurd (h.1 t rfl) hp

theorem filter_flatMap_messages (ts : List Turn) :
    (ts.flatMap Turn.messages).filter Message.visible = ts.flatMap Turn.visible := by
  rw [List.filter_flatMap]
  exact List.flatMap_congr fun t _ => t.filter_messages

theorem length_flatMap_visible (ts : List Turn) : (ts.flatMap Turn.visible).length = 2 * ts.length := by
  induction ts with
  | nil => rfl
  | cons t ts ih =>
    rw [List.flatMap_cons, List.length_append, ih, List.length_cons]
    show 2 + 2 * ts.length = _
    omega

theorem contentCount_sublist {ts ts' : List Turn} (h : ts.Sublist ts') :
    contentCount (ts.flatMap Turn.messages) ≤ contentCount (ts'.flatMap Turn.messages) := by
  unfold contentCount
  rw [List.countP_eq_length_filter, List.countP_eq_length_filter, filter_flatMap_messages,
    filter_flatMap_messages, length_flatMap_visible, length_flatMap_visible]
  have := h.length_le
  omega

theorem turns_append (g : String) (a b : List (Int × Traffic)) :
    turns g (a ++ b) = turns g a ++ turns g b := List.filterMap_append

theorem routed_prefix (g : String) (i : Nat) (p : ProxyPool) {before rs : List (Int × Traffic)}
    (hpre : before <+: rs) :
    routed g i p before = turns g rs ↔
      ∀ (k : Nat) (r : Int × Traffic) (t : Turn), rs[k]? = some r → r.2.turn? g = some t →
        k < before.length ∧ p.index k = i := by
  obtain ⟨rest, rfl⟩ := hpre
  have hsub := routed_sublist g i p before
  constructor
  · intro h
    rw [turns_append] at h
    have hrest : turns g rest = [] := by
      have hlen := hsub.length_le
      rw [h, List.length_append] at hlen
      exact List.eq_nil_of_length_eq_zero (by omega)
    rw [hrest, List.append_nil] at h
    intro k r t hk ht
    by_cases hlt : k < before.length
    · rw [List.getElem?_append_left hlt] at hk
      exact ⟨hlt, (routed_eq_turns g i p before).mp h k r t hk ht⟩
    · rw [List.getElem?_append_right (Nat.le_of_not_lt hlt)] at hk
      have hmem : t ∈ turns g rest := List.mem_filterMap.mpr ⟨r, List.mem_of_getElem? hk, ht⟩
      rw [hrest] at hmem
      exact absurd hmem List.not_mem_nil
  · intro h
    have hrest : turns g rest = [] := by
      refine List.filterMap_eq_nil_iff.mpr fun r hr => ?_
      obtain ⟨k, hk⟩ := List.mem_iff_getElem?.mp hr
      rw [Option.eq_none_iff_forall_ne_some]
      intro t ht
      have hk' : (before ++ rest)[before.length + k]? = some r := by
        rw [List.getElem?_append_right (Nat.le_add_right _ _), Nat.add_sub_cancel_left, hk]
      have := (h (before.length + k) r t hk' ht).1
      omega
    rw [turns_append, hrest, List.append_nil, routed_eq_turns]
    intro k r t hk ht
    have hlt := (List.getElem?_eq_some_iff.mp hk).1
    exact (h k r t ((List.getElem?_append_left hlt).trans hk) ht).2

/-- **When an instance has the whole conversation.**  A GET that reaches the pool when it has served
some of the requests, its first ones: the answer is about `g` and has the messages of all turns of
`g`, in order, if and only if the path that is forwarded names `g`, and every chat of `g` is among these
requests and has gone to the instance that the GET goes to. -/
theorem answer_whole_iff (d : Deployment) (g : String) {rs before : List (Int × Traffic)}
    (hpre : before <+: rs) (hnew : ∀ s ∈ d.instances, s.messages g = [])
    (hmax : ∀ s ∈ d.instances, contentCount ((turns g rs).flatMap Turn.messages) ≤ s.max_messages)
    (hreg : ∀ r ∈ rs, r.2.Regular g) (q : Get) :
    ((d.serveAll before).answer q).history = some ⟨g, (turns g rs).flatMap Turn.visible⟩ ↔
      q.guest = some g ∧
        ∀ (k : Nat) (r : Int × Traffic) (t : Turn), rs[k]? = some r → r.2.turn? g = some t →
          k < before.length ∧ d.pool.index k = d.pool.index before.length := by
  have hpick := serveAll_pick d before
  have hlt : d.pool.index before.length < d.instances.length := by
    rw [d.aligned]
    exact Nat.mod_lt _ d.pool.pos
  obtain ⟨s, hs⟩ : ∃ s, d.instances[d.pool.index before.length]? = some s :=
    ⟨_, List.getElem?_eq_getElem hlt⟩
  have hmem := List.mem_of_getElem? hs
  have hsub : (routed g (d.pool.index before.length) d.pool before).Sublist (turns g rs) := by
    obtain ⟨rest, rfl⟩ := hpre
    rw [turns_append]
    exact (routed_sublist _ _ _ _).trans (List.sublist_append_left _ _)
  obtain ⟨s', hs', hmsg⟩ := serveAll_messages (fun r hr => hreg r (hpre.subset hr)) hs (by
    rw [hnew s hmem, List.nil_append]
    exact (contentCount_sublist hsub).trans (hmax s hmem))
  rw [hnew s hmem, List.nil_append] at hmsg
  have hvisible : s'.getVisible g =
      (routed g (d.pool.index before.length) d.pool before).flatMap Turn.visible := by
    show (s'.messages g).filter Message.visible = _
    rw [hmsg, filter_flatMap_messages]
  rw [← routed_prefix g _ d.pool hpre]
  unfold Deployment.answer
  rw [Deployment.guest_eq, hpick, hs']
  cases hg : q.guest with
  | none => exact iff_of_false nofun fun h => absurd h.1 nofun
  | some guest_id =>
    show some (HistoryResponse.mk guest_id (s'.getVisible guest_id)) = _ ↔ _
    rw [Option.some.injEq, HistoryResponse.mk.injEq, Option.some.injEq]
    refine and_congr_right fun e => ?_
    subst e
    rw [hvisible]
    constructor
    · intro h
      have hlen := congrArg List.length h
      rw [length_flatMap_visible, length_flatMap_visible] at hlen
      exact hsub.eq_of_length (by omega)
    · intro h
      rw [h]

/-! ## the cache -/

/-- the cache middleware, which is not there without a ttl, in front of the pool -/
def proxy (ttl : Int) : TtlCache.Service Bytes Traffic Deployment GetResponse where
  key?
    | .get r => if 0 < ttl then some r.request.cacheKey else none
    | _ => none
  serve d now r := d.serve (now, r)
  respond d
    | .get r => d.answer r
    | _ => ⟨none, false⟩
  keeps a := a.shareable
  delay
    | .get r => r.took
    | _ => 0

namespace Deployment
variable (d : Deployment) (ttl : Int) (rs : List (Int × Traffic)) (now : Int) (q : Get)

/-- the answer to a GET through the gateway, after these requests -/
def proxied : GetResponse := (proxy ttl).answer ((proxy ttl).run ttl (.start d) rs) now (.get q)

/-- those of the requests that reach the pool -/
def passed : List (Int × Traffic) := (((proxy ttl).traced d).run ttl (.start []) rs).inner

/-- the fetch whose response answers the GET: what had reached the pool before it, and its request -/
def fetched : List (Int × Traffic) × Traffic :=
  ((proxy ttl).traced d).answer (((proxy ttl).traced d).run ttl (.start []) rs) now (.get q)

end Deployment
/-- **When the history is whole.**  For a guest that no instance knows yet, whatever other traffic
comes through the gateway, and with any ttl of its cache: GET /history returns the messages of all the
guest's turns, in order, if and only if the path of the request that parrot was sent for this answer
names the guest, and every chat of the guest came before that request and went to the same instance. -/
theorem history_complete_iff (d : Deployment) (ttl : Int) (g : String) (rs : List (Int × Traffic))
    (now : Int) (q : Get) (hnew : ∀ s ∈ d.instances, s.messages g = [])
    (hmax : ∀ s ∈ d.instances, contentCount ((turns g rs).flatMap Turn.messages) ≤ s.max_messages)
    (hreg : ∀ r ∈ rs, r.2.Regular g) :
    (d.proxied ttl rs now q).history = some ⟨g, (turns g rs).flatMap Turn.visible⟩ ↔
      (d.fetched ttl rs now q).2.guest = some g ∧
        ∀ (k : Nat) (r : Int × Traffic) (t : Turn), (d.passed ttl rs)[k]? = some r →
          r.2.turn? g = some t → k < (d.fetched ttl rs now q).1.length ∧
            d.pool.index k = d.pool.index (d.fetched ttl rs now q).1.length := by
  have hpre : (d.fetched ttl rs now q).1 <+: d.passed ttl rs := (proxy ttl).before_served rs now (.get q)
  have hturns : turns g (d.passed ttl rs) = turns g rs := by
    refine (proxy ttl).filterMap_served (fun x hx => ?_) rs
    obtain ⟨now, r⟩ := x
    cases r with
    | get r => rfl
    | _ => exact absurd hx nofun
  have hanswer : d.proxied ttl rs now q = (proxy ttl).value d (d.fetched ttl rs now q) :=
    (proxy ttl).answer_traced rs now (.get q)
  rw [hanswer]
  unfold TtlCache.Service.value
  show ((proxy ttl).respond (d.serveAll (d.fetched ttl rs now q).1) _).history = _ ↔ _
  generalize d.fetched ttl rs now q = p at hpre ⊢
  obtain ⟨before, r⟩ := p
  cases r with
  | get r =>
    rw [← hturns] at hmax ⊢
    exact answer_whole_iff d g hpre hnew hmax
      (fun x hx => hreg x ((proxy ttl).mem_of_served rs hx)) r
  | _ => exact iff_of_false nofun fun h => absurd h.1 nofun

/-! ## two instances -/

/-- docker-compose's pool: two instances that have just started -/
def twoInstances : Deployment :=
  { targets :=
      { urls := [{ scheme := "http", host := "parrot:3003" }, { scheme := "http", host := "parrot-b:3003" }]
        pos := by decide
        small := by decide }
    bare := by decide
    next := 0
    instances := List.replicate 2 ⟨20, 1800, 500, .empty⟩
    aligned := rfl }

def greeting : Turn :=
  { content := "hello", censored := false, rounds := [], hidden := nofun, reply := "ahoy" }

/-- GET /api/parrot/history/ana -/
def historyOfAna : Get :=
  { http :=
      { method := ascii "GET"
        url := { path := ascii "/api/parrot/history/ana" }
        host := "localhost:8000"
        header := []
        body := []
        requestID := "r1" }
    target := ascii "/api/parrot/history/ana"
    parsed := by decide +kernel
    safe := .inl rfl
    mounted := by decide +kernel
    shareable := false
    took := 0 }

theorem history_complete_alternating :
    (twoInstances.proxied 0 [(0, .chat "ana" greeting), (1, .other)] 2 historyOfAna).history =
      some ⟨"ana", [.user "hello" false, .assistant (some "ahoy") none]⟩ := by
  refine (history_complete_iff twoInstances 0 "ana" [(0, .chat "ana" greeting), (1, .other)] 2
    historyOfAna ?_ ?_ ?_).mpr ⟨?_, ?_⟩
  · intro s hs
    rw [List.eq_of_mem_replicate hs]
    rfl
  · intro s hs
    rw [List.eq_of_mem_replicate hs]
    decide
  · intro r hr
    rcases List.mem_cons.mp hr with rfl | hr
    · trivial
    · obtain rfl := List.mem_singleton.mp hr
      trivial
  · exact Get.guest_of_asSent rfl (by decide +kernel)
      (.inr ⟨ascii "history/ana", by decide +kernel, by decide, by simp [historyOfAna]⟩)
      (by decide) (by decide +kernel)
  · intro k r t hk ht
    match k with
    | 0 => decide
    | 1 =>
      obtain rfl := Option.some.inj hk
      exact absurd ht nofun
    | k + 2 => exact absurd hk nofun

/-- one chat, and the question goes to the other instance -/
theorem history_split :
    (twoInstances.proxied 0 [(0, .chat "ana" greeting)] 1 historyOfAna).history = some ⟨"ana", []⟩ ∧
      (turns "ana" [(0, .chat "ana" greeting)]).flatMap Turn.visible =
        [.user "hello" false, .assistant (some "ahoy") none] := by
  decide +kernel

def oneInstance : Deployment :=
  { targets := ⟨[{ scheme := "http", host := "parrot:3003" }], by decide, by decide⟩
    bare := by decide
    next := 0
    instances := [⟨20, 1800, 500, .empty⟩]
    aligned := rfl }

/-- the cache holds the history that was asked for before the chat -/
example : (oneInstance.proxied 5 [(0, .get historyOfAna), (1, .chat "ana" greeting)] 2
    historyOfAna).history = some ⟨"ana", []⟩ := by
  decide +kernel

/-- an `@` that the client has escaped reaches parrot as `%40` -/
example : (oneInstance.proxied 0 [(0, .chat "ana@mail" greeting)] 1
    { historyOfAna with
      http := { historyOfAna.http with
        url := { path := ascii "/api/parrot/history/ana@mail"
                 rawPath := ascii "/api/parrot/history/ana%40mail" } }
      target := ascii "/api/parrot/history/ana%40mail"
      parsed := by decide +kernel
      mounted := by decide +kernel }).history = some ⟨"ana%40mail", []⟩ := by
  decide +kernel

end Parrot
