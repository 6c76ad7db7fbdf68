import Purrlington.Resort.Journey

/-!
# Resort: everybody who has a reservation is let in

The other direction of `Resort.Journey`: if no post is lost, none comes before the listener of the
beach, and the table of the visitors takes the ids, then nobody whose reservation the hotel has confirmed
is left outside.

* `serve_client`        what a request writes to one client;
* `Hotel.Announcing`    a create answers after it has published;
* `Lossless`            the condition on a run;
* `Reading`             the stream of the listener, and how far it is read;
* `Complete`            every confirmation is on its way, or in the stream;
* `everyone_let_in`     so once all is read, exactly the guests of the hotel are checked in.
-/

set_option linter.unusedSectionVars false

/-! ## one client -/

namespace Broadcast

/-- a client stays until its own request ends, and is written the event if its channel is granted -/
theorem serve_client (stringify : Json → String) {bus : Bus} {client : ConnectedClient} {req : Req}
    {res : Response} (hc : client ∈ bus.clients) (hr : bus.responses[client.res]? = some res)
    (hgone : req ≠ .gone client.res) :
    client ∈ (serve stringify bus req).clients ∧
      (serve stringify bus req).responses[client.res]? = some ⟨res.status,
        res.written ++ framesOf stringify client.allowedChannels req.event.toList⟩ := by
  have hsent : publishedUntil client.res req.acts = req.event.toList := by
    cases req with
    | events env req => rfl
    | gone r => exact if_neg fun e => hgone (congrArg Req.gone e)
    | post env id req =>
      rw [Req.acts]
      cases Req.event (.post env id req) <;> rfl
  constructor
  · cases req with
    | events env req => exact Bus.mem_clients_connect env req hc
    | gone r =>
      refine (List.mem_eraseP_of_neg ?_).mpr hc
      simpa using fun e => hgone (congrArg Req.gone e.symm)
    | post env id req =>
      rw [serve]
      split <;> exact hc
  · rw [serve_run, ← hsent]
    exact (Bus.run_attached stringify req.acts hc hr).1

theorem streamLines_append (stringify : Json → String) (events new : List IslandEvent) :
    streamLines stringify (events ++ new) = streamLines stringify events ++
      new.flatMap fun event => [dataLine stringify event, []] := by
  rw [streamLines, streamLines, List.flatMap_append]
  rfl

theorem dataLine_mem (stringify : Json → String) {event : IslandEvent} {events : List IslandEvent}
    (h : event ∈ events) : dataLine stringify event ∈ streamLines stringify events :=
  List.mem_cons_of_mem _ (List.mem_cons_of_mem _ (List.mem_flatMap.mpr ⟨event, h, List.mem_cons_self⟩))

end Broadcast

/-! ## the answers of the hotel -/

namespace Hotel
open SM

/-- a create that has answered with a reservation has published it for its guest -/
def Thread.Announced (published : List HotelBroadcastEvent) : Thread → Prop
  | ⟨.create dto, .done (.reservation _ _)⟩ =>
      ∃ e ∈ published, e.type = .ReservationConfirmed ∧ e.guest_id = dto.guest_id
  | _ => True

def Announcing (s : State) : Prop :=
  ∀ (i : Nat) (t : Thread), s.threads[i]? = some t → t.Announced s.published

theorem Thread.Announced.mono {published published' : List HotelBroadcastEvent} {t : Thread}
    (h : t.Announced published) (hsub : published ⊆ published') : t.Announced published' := by
  unfold Thread.Announced at h ⊢
  split
  · obtain ⟨e, he, hrest⟩ := h
    exact ⟨e, hsub he, hrest⟩
  · trivial

theorem announced_of_ne {published : List HotelBroadcastEvent} {call : Call} {pc : Pc}
    (h : ∀ r type, pc ≠ .done (.reservation r type)) : Thread.Announced published ⟨call, pc⟩ := by
  unfold Thread.Announced
  split
  · rename_i e
    obtain ⟨_, rfl⟩ := Thread.mk.inj e
    exact absurd rfl (h _ _)
  · trivial

theorem nextRoom_ne_reservation (dto : CreateReservationDto) (rooms : List Room) (r : Reservation)
    (type : RoomType) : nextRoom dto rooms ≠ .done (.reservation r type) := by
  obtain ⟨_, e⟩ | ⟨_, _, _, _, _, _, e⟩ := nextRoom_cases dto rooms
  · rw [e]
    simp
  · rw [e]
    simp

theorem searchRooms_ne_reservation (dto : CreateReservationDto) (rooms : List Room) (r : Reservation)
    (type : RoomType) : searchRooms dto rooms ≠ .done (.reservation r type) := by
  obtain ⟨max, e⟩ | e := searchRooms_cases dto rooms
  · rw [e]
    simp
  · rw [e]
    exact nextRoom_ne_reservation dto rooms r type

theorem Call.entry_ne_reservation (call : Call) (r : Reservation) (type : RoomType) :
    call.entry ≠ .done (.reservation r type) := by
  cases call with
  | create dto =>
    rw [Call.entry]
    split <;> simp
  | cancel id => simp [Call.entry]

theorem Announcing.step {s s' : State} {act : Act} (h : Announcing s) (hh : Honest s)
    (hs : machine s act = some s') : Announcing s' := by
  -- one request moves
  have moved : ∀ {i : Nat} {call : Call} {pc : Pc} {published : List HotelBroadcastEvent},
      s.published ⊆ published → Thread.Announced published ⟨call, pc⟩ →
      ∀ (j : Nat) (t : Thread), (s.threads.set i ⟨call, pc⟩)[j]? = some t → t.Announced published :=
    fun hsub ht => forall_set (fun j t _ hj => (h j t hj).mono hsub) ht
  obtain ⟨call, rfl, rfl⟩ | ⟨i, dto, pc, ht, hstep⟩ | ⟨i, id, pc, rfl, ht, hstep⟩ := machine_steps hs
  · exact forall_snoc h (announced_of_ne call.entry_ne_reservation)
  · cases hstep with
    | notCleared => exact moved (fun _ he => he) (announced_of_ne (by simp))
    | cleared answer hne => exact moved (fun _ he => he) (announced_of_ne (by simp))
    | rooms => exact moved (fun _ he => he) (announced_of_ne (searchRooms_ne_reservation dto _))
    | unfit room rest hunfit => exact moved (fun _ he => he) (announced_of_ne (by simp))
    | free room rest hfit hfree => exact moved (fun _ he => he) (announced_of_ne (by simp))
    | taken room rest hfit htaken =>
      exact moved (fun _ he => he) (announced_of_ne (nextRoom_ne_reservation dto rest))
    | insert room uuid hid hst => exact moved (fun _ he => he) (announced_of_ne (by simp))
    | raises room uuid hst => exact moved (fun _ he => he) (announced_of_ne (by simp))
    | publish r room =>
      obtain ⟨_, hrow, _⟩ := hh i _ ht
      refine moved (List.subset_append_left _ _) ⟨_, List.mem_append_right _ List.mem_cons_self, rfl, ?_⟩
      show r.guest_id = dto.guest_id
      rw [hrow]
      rfl
  · cases hstep with
    | publish r type => exact moved (List.subset_append_left _ _) trivial
    | _ => exact moved (fun _ he => he) trivial

end Hotel

/-! ## the stream of the listener -/

namespace Resort
open SM
open Broadcast (IslandEvent streamLines dataLine)

section
variable {x : Outside} {s s' : State} {beach₀ : Beach.Db} {l : Listener} {events : List IslandEvent}

/-- no post of the hotel is lost, none comes before the listener, and no confirmation is of a guest whose
id the table of the visitors does not take; the listener has the hotel's channel, and nobody cuts it off -/
def Lossless (x : Outside) : State → Act → Prop
  | s, .deliver k id => HotelOnly x s (.deliver k id) ∧ s.listener ≠ none ∧
      ∀ e ∈ s.posts[k]?, e.type = .ReservationConfirmed → Column.varchar 50 e.guest_id = true
  | _, .lose _ => False
  | s, .request req => HotelOnly x s (.request req) ∧ ∀ l ∈ s.listener, req ≠ .gone l.res
  | _, .connect env req => ∀ identity ∈ Broadcast.identifyService env req,
      .Hotel ∈ identity.allowedChannels
  | _, .hangUp => False
  | _, _ => True

theorem Lossless.hotelOnly {act : Act} (h : Lossless x s act) : HotelOnly x s act := by
  cases act with
  | deliver k id => exact h.1
  | request req => exact h.1
  | _ => trivial

/-- the table of the visitors takes the guest of a confirmation -/
def Takes (event : IslandEvent) : Prop :=
  event.event_type = .HOTEL_CONFIRM → ∀ guest ∈ event.guest_id, Column.varchar 50 guest = true

/-- a confirmation for the guest is in the stream -/
def Told (events : List IslandEvent) (guest_id : String) : Prop :=
  ∃ event ∈ events, event.event_type = .HOTEL_CONFIRM ∧ event.guest_id = some guest_id

/-- the listener is a client of the bus, its stream is that of these events, and the guests of the
lines that it has handled are checked in -/
structure Reading (x : Outside) (s : State) (l : Listener) (events : List IslandEvent) : Prop where
  client : ∃ client ∈ s.bus.clients, client.res = l.res ∧ .Hotel ∈ client.allowedChannels
  stream : s.bus.responses[l.res]? =
    some ⟨200, ": connected\n\n" :: events.map (Broadcast.frame x.stringify)⟩
  heard : ∀ event ∈ events, Heard x s event
  takes : ∀ event ∈ events, Takes event
  line : l.line ≤ (streamLines x.stringify events).length
  handled : ∀ i < l.line, ∀ line guest, (streamLines x.stringify events)[i]? = some line →
    Kotlin.handleLine x.number x.parseToJsonElement line = .ok (some guest) →
    s.beach.db.CheckedIn guest

/-- a confirmation is on its way, or in the stream -/
def Underway (s : State) (events : List IslandEvent) : Prop :=
  ∀ e ∈ s.hotel.published, e.type = .ReservationConfirmed → e ∈ s.posts ∨ Told events e.guest_id

structure Complete (x : Outside) (beach₀ : Beach.Db) (s : State) : Prop where
  journey : Journey x beach₀ s
  start : ∀ v, beach₀.CheckedIn v → s.beach.db.CheckedIn v
  announcing : Hotel.Announcing s.hotel
  waiting : s.listener = none → Underway s []
  reading : ∀ l ∈ s.listener, ∃ events, Reading x s l events ∧ Underway s events

/-- the listener has read all that is written -/
def State.AtEnd (s : State) : Prop := ∀ l ∈ s.listener, s.nextLine l = none

theorem Told.append {guest_id : String} (h : Told events guest_id) (new : List IslandEvent) :
    Told (events ++ new) guest_id := by
  obtain ⟨event, hmem, hrest⟩ := h
  exact ⟨event, List.mem_append_left new hmem, hrest⟩

theorem Reading.nextLine (h : Reading x s l events) :
    s.nextLine l = (streamLines x.stringify events)[l.line]? := by
  rw [State.nextLine, h.stream, Option.bind_some,
    Broadcast.lines_stream x.stringify fun event he => (h.heard event he).1.line]

theorem Reading.handleLine (h : Reading x s l events) {line : List Char}
    (hline : line ∈ streamLines x.stringify events) :
    ∃ guest?, Kotlin.handleLine x.number x.parseToJsonElement line = .ok guest? ∧
      ∀ guest ∈ guest?, Column.varchar 50 guest = true := by
  rcases Broadcast.handleLine_stream x.number x.stringify x.parseToJsonElement hline with
    hnone | ⟨event, hmem, rfl⟩
  · exact ⟨none, hnone, by simp⟩
  · obtain ⟨hread, hann⟩ := h.heard event hmem
    refine ⟨_, Broadcast.handleLine_event x.number x.stringify x.parseToJsonElement hread ?_, ?_⟩
    · intro htype e
      obtain ⟨guest, hguest, _⟩ := hann htype
      exact absurd (hguest.symm.trans e) (by simp)
    · intro guest hguest
      split at hguest
      · rename_i htype
        exact h.takes event hmem htype guest hguest
      · exact absurd hguest (by simp)

/-- whoever is told of in a stream that is read to its end is checked in -/
theorem Reading.checkedIn (h : Reading x s l events) (hend : s.nextLine l = none) {guest : String}
    (ht : Told events guest) : s.beach.db.CheckedIn guest := by
  obtain ⟨event, hmem, htype, hguest⟩ := ht
  rw [h.nextLine, List.getElem?_eq_none_iff] at hend
  obtain ⟨i, hi⟩ := List.mem_iff_getElem?.mp
    (Broadcast.dataLine_mem x.stringify hmem)
  have hlt := (List.getElem?_eq_some_iff.mp hi).1
  refine h.handled i (by omega) _ guest hi ?_
  rw [Broadcast.handleLine_event x.number x.stringify x.parseToJsonElement (h.heard event hmem).1
    fun _ e => absurd (hguest.symm.trans e) (by simp), if_pos htype, hguest]

/-! ### one step of each service -/

theorem Reading.keep (h : Reading x s l events) (hg : Grows s s') (hbus : s'.bus = s.bus)
    (hbeach : ∀ v, s.beach.db.CheckedIn v → s'.beach.db.CheckedIn v) : Reading x s' l events where
  client := hbus ▸ h.client
  stream := hbus ▸ h.stream
  heard event he := (h.heard event he).mono hg
  takes := h.takes
  line := h.line
  handled i hi line guest hline hfound := hbeach guest (h.handled i hi line guest hline hfound)

theorem Underway.keep (h : Underway s events)
    (hnew : ∀ e ∈ s'.hotel.published, e ∈ s.hotel.published ∨ e ∈ s'.posts)
    (hposts : s.posts ⊆ s'.posts) : Underway s' events := by
  intro e he htype
  rcases hnew e he with he | he
  · exact (h e he htype).imp (fun hp => hposts hp) id
  · exact .inl he

theorem Complete.keep (h : Complete x beach₀ s) (hj : Journey x beach₀ s') (hg : Grows s s')
    (hbus : s'.bus = s.bus) (hl : s'.listener = s.listener)
    (hbeach : ∀ v, s.beach.db.CheckedIn v → s'.beach.db.CheckedIn v)
    (hann : Hotel.Announcing s'.hotel)
    (hnew : ∀ e ∈ s'.hotel.published, e ∈ s.hotel.published ∨ e ∈ s'.posts)
    (hposts : s.posts ⊆ s'.posts) : Complete x beach₀ s' where
  journey := hj
  start v hv := hbeach v (h.start v hv)
  announcing := hann
  waiting hnone := (h.waiting (hl ▸ hnone)).keep hnew hposts
  reading l hmem := by
    obtain ⟨events, hr, hu⟩ := h.reading l (hl ▸ hmem)
    exact ⟨events, hr.keep hg hbus hbeach, hu.keep hnew hposts⟩

theorem Reading.serve (h : Reading x s l events) {req : Broadcast.Req}
    (posts : List Hotel.HotelBroadcastEvent) (hgone : req ≠ .gone l.res)
    (hheard : ∀ event, req.event = some event → Heard x s event ∧ Takes event) :
    ∃ new, Reading x { s with posts := posts, bus := Broadcast.serve x.stringify s.bus req } l
        (events ++ new) ∧
      ∀ event, req.event = some event → event.channel = .Hotel → event ∈ new := by
  obtain ⟨client, hc, hres, hch⟩ := h.client
  obtain ⟨hc', hr'⟩ := Broadcast.serve_client x.stringify hc (hres ▸ h.stream) (hres ▸ hgone)
  refine ⟨req.event.toList.filter fun event => event.channel ∈ client.allowedChannels, 
    ⟨?_, ?_, ?_, ?_, ?_, ?_⟩, ?_⟩
  · exact ⟨client, hc', hres, hch⟩
  · rw [← hres, List.map_append]
    exact hr'
  · refine List.forall_mem_append.mpr ⟨fun event he => h.heard event he, fun event he => ?_⟩
    exact (hheard event (Option.mem_toList.mp (List.mem_of_mem_filter he))).1
  · refine List.forall_mem_append.mpr ⟨h.takes, fun event he => ?_⟩
    exact (hheard event (Option.mem_toList.mp (List.mem_of_mem_filter he))).2
  · rw [Broadcast.streamLines_append, List.length_append]
    exact Nat.le_add_right_of_le h.line
  · intro i hi line guest hline
    rw [Broadcast.streamLines_append, List.getElem?_append_left (Nat.lt_of_lt_of_le hi h.line)] at hline
    exact h.handled i hi line guest hline
  · intro event hevent hchannel
    rw [hevent]
    exact List.mem_filter.mpr ⟨List.mem_cons_self, by simpa [hchannel] using hch⟩

theorem Complete.hotel {act : Hotel.Act} {hotel : Hotel.State} (answers : List Answer)
    (silent : List String) (h : Complete x beach₀ s) (hs : Hotel.machine s.hotel act = some hotel)
    (hsilent : s.silent ⊆ silent)
    (hj : Journey x beach₀ { s with
      answers := answers
      hotel := hotel
      posts := s.posts ++ hotel.published.drop s.hotel.published.length
      silent := silent }) :
    Complete x beach₀ { s with
      answers := answers
      hotel := hotel
      posts := s.posts ++ hotel.published.drop s.hotel.published.length
      silent := silent } := by
  obtain ⟨new, hnew, _⟩ := Hotel.published_step hs
  have hdrop : hotel.published.drop s.hotel.published.length = new := by
    rw [hnew, List.drop_left]
  rw [hdrop] at hj ⊢
  refine h.keep hj ⟨World.precedes_refl _, Hotel.machine_lastsIn hs, ?_, hsilent⟩ rfl rfl
    (fun _ hv => hv) (h.announcing.step h.journey.honest hs) ?_ (List.subset_append_left _ _)
  · exact fun e he => hnew ▸ List.mem_append_left new he
  · intro e he
    rw [show hotel.published = s.hotel.published ++ new from hnew] at he
    exact (List.mem_append.mp he).imp id (List.mem_append_right s.posts)

theorem takes_post {e : Hotel.HotelBroadcastEvent} {id : String} {event : IslandEvent}
    (hevent : (postOf id e).event = some event)
    (hfits : e.type = .ReservationConfirmed → Column.varchar 50 e.guest_id = true) : Takes event := by
  obtain ⟨routed, hrouted, _, htype, hguest⟩ := postOf_event id e
  obtain rfl := Option.some.inj (hrouted.symm.trans hevent)
  intro hconfirm guest hmem
  obtain rfl := Option.some.inj (hguest.symm.trans hmem)
  refine hfits ?_
  rw [htype] at hconfirm
  revert hconfirm
  cases e.type <;> decide

theorem Complete.deliver {k : Nat} {id : String} {e : Hotel.HotelBroadcastEvent}
    (h : Complete x beach₀ s) (he : s.posts[k]? = some e) (hl : s.listener ≠ none)
    (hfits : e.type = .ReservationConfirmed → Column.varchar 50 e.guest_id = true)
    (hread : ∀ event, (postOf id e).event = some event →
      Broadcast.Readable x.stringify x.parseToJsonElement event.json)
    (hj : Journey x beach₀ { s with
      posts := s.posts.eraseIdx k
      bus := Broadcast.serve x.stringify s.bus (postOf id e) }) :
    Complete x beach₀ { s with
      posts := s.posts.eraseIdx k
      bus := Broadcast.serve x.stringify s.bus (postOf id e) } := by
  refine ⟨hj, h.start, h.announcing, fun hnone => absurd hnone hl, fun l hmem => ?_⟩
  obtain ⟨events, hr, hu⟩ := h.reading l hmem
  obtain ⟨new, hr', hnew⟩ := hr.serve (s.posts.eraseIdx k) (by simp [postOf])
    fun event hevent => ⟨heard_post (h.journey.posts e (List.mem_of_getElem? he)) hevent
      (hread event hevent), takes_post hevent hfits⟩
  refine ⟨events ++ new, hr', fun e' he' htype => ?_⟩
  rcases hu e' he' htype with hp | ht
  · by_cases hsame : e' = e
    · -- it is the one that arrives
      obtain ⟨event, hevent, hchannel, hkind, hguest⟩ := postOf_event id e
      right
      refine ⟨event, List.mem_append_right events (hnew event hevent hchannel), ?_, hsame ▸ hguest⟩
      rw [hkind, ← hsame, htype]
      rfl
    · left
      obtain ⟨j, hat⟩ := List.mem_iff_getElem?.mp hp
      have hne : j ≠ k := by
        rintro rfl
        exact hsame (Option.some.inj (hat.symm.trans he))
      exact List.mem_eraseIdx_iff_getElem?.mpr ⟨j, hne, hat⟩
  · exact .inr (ht.append new)

theorem Complete.request {req : Broadcast.Req} (h : Complete x beach₀ s)
    (hheard : ∀ event, req.event = some event → Heard x s event ∧ Takes event)
    (hgone : ∀ l ∈ s.listener, req ≠ .gone l.res)
    (hj : Journey x beach₀ { s with bus := Broadcast.serve x.stringify s.bus req }) :
    Complete x beach₀ { s with bus := Broadcast.serve x.stringify s.bus req } := by
  refine ⟨hj, h.start, h.announcing, h.waiting, fun l hmem => ?_⟩
  obtain ⟨events, hr, hu⟩ := h.reading l hmem
  obtain ⟨new, hr', _⟩ := hr.serve s.posts (hgone l hmem) hheard
  exact ⟨events ++ new, hr', fun e he htype => (hu e he htype).imp id fun ht => ht.append new⟩

theorem Complete.connect {env : Broadcast.Env} {req : Broadcast.Request} (h : Complete x beach₀ s)
    (hnone : s.listener = none)
    (hhotel : ∀ identity ∈ Broadcast.identifyService env req, .Hotel ∈ identity.allowedChannels)
    (hj : Journey x beach₀ { s with
      bus := s.bus.connect env req
      listener := (Broadcast.identifyService env req).map fun _ => ⟨s.bus.responses.length, 0⟩ }) :
    Complete x beach₀ { s with
      bus := s.bus.connect env req
      listener := (Broadcast.identifyService env req).map fun _ => ⟨s.bus.responses.length, 0⟩ } := by
  refine ⟨hj, h.start, h.announcing, fun _ => h.waiting hnone, fun l hmem => ?_⟩
  obtain ⟨identity, hid, rfl⟩ := Option.map_eq_some_iff.mp hmem
  have hbus : s.bus.connect env req = s.bus.addClient identity.allowedChannels := by
    rw [Broadcast.Bus.connect, hid]
  refine ⟨[], ⟨?_, ?_, fun event he => absurd he (by simp), fun event he => absurd he (by simp),
    Nat.zero_le _,
    fun i hi => absurd hi (Nat.not_lt_zero i)⟩, h.waiting hnone⟩
  · rw [show _ = s.bus.addClient identity.allowedChannels from hbus]
    exact ⟨_, List.mem_append_right _ List.mem_cons_self, rfl, hhotel identity hid⟩
  · rw [show _ = s.bus.addClient identity.allowedChannels from hbus]
    exact List.getElem?_concat_length

theorem Complete.handle {line : List Char} (h : Complete x beach₀ s) (hl : s.listener = some l)
    (hline : s.nextLine l = some line) (hs : s.handle x l line = some s')
    (hj : Journey x beach₀ s') : Complete x beach₀ s' ∧
      s' = { s with beach := s'.beach, listener := some { l with line := l.line + 1 } } := by
  obtain ⟨events, hr, hu⟩ := h.reading l hl
  have hat : (streamLines x.stringify events)[l.line]? = some line := hr.nextLine ▸ hline
  have hlt := (List.getElem?_eq_some_iff.mp hat).1
  obtain ⟨guest?, hfound, hfits⟩ := hr.handleLine (List.mem_of_getElem? hat)
  -- those of the lines before, and that of this line
  have goOn : ∀ beach : Beach.State, (∀ v, s.beach.db.CheckedIn v → beach.db.CheckedIn v) →
      (∀ guest, guest? = some guest → beach.db.CheckedIn guest) →
      s' = { s with beach := beach, listener := some { l with line := l.line + 1 } } →
      Complete x beach₀ s' ∧
        s' = { s with beach := s'.beach, listener := some { l with line := l.line + 1 } } := by
    rintro beach hmono hnew rfl
    refine ⟨⟨hj, fun v hv => hmono v (h.start v hv), h.announcing,
      fun hnone => absurd hnone (by simp), fun l' hl' => ?_⟩, rfl⟩
    obtain rfl := Option.some.inj hl'
    refine ⟨events, ⟨hr.client, hr.stream, hr.heard, hr.takes, hlt, ?_⟩, hu⟩
    intro i hi line' guest hline' hfound'
    rcases Nat.lt_succ_iff_lt_or_eq.mp hi with hi | rfl
    · exact hmono guest (hr.handled i hi line' guest hline' hfound')
    · obtain rfl := Option.some.inj (hat.symm.trans hline')
      exact hnew guest (Except.ok.inj (hfound.symm.trans hfound'))
  unfold State.handle at hs
  rw [hfound] at hs
  cases guest? with
  | none => exact goOn s.beach (fun _ hv => hv) (fun guest e => absurd e (by simp)) (Option.some.inj hs).symm
  | some guest =>
    simp only [Beach.Sql.markCheckedIn_returns (hfits guest rfl)] at hs
    obtain ⟨beach, hb, rfl⟩ := Option.map_eq_some_iff.mp hs
    refine goOn beach (fun v hv => (Beach.checkedIn_step hb v).mpr (.inl hv)) ?_ rfl
    intro guest' e
    obtain rfl := Option.some.inj e
    exact (Beach.checkedIn_step hb guest).mpr (.inr rfl)

/-- **Every step keeps every confirmation on its way to the listener.** -/
theorem Complete.step {act : Act} (h : Complete x beach₀ s) (hg : Lossless x s act)
    (hs : machine x s act = some s') : Complete x beach₀ s' := by
  have hj := h.journey.step hg.hotelOnly hs
  cases act with
  | airport act =>
    obtain ⟨airport, ha, rfl⟩ := Option.map_eq_some_iff.mp hs
    exact h.keep hj ⟨Airport.machine_precedes ha, s.hotel.db.lastsIn_refl, fun _ he => he, fun _ hm => hm⟩
      rfl rfl (fun _ hv => hv) h.announcing (fun _ he => .inl he) fun _ he => he
  | hotel act =>
    have go : ∀ act, ((Hotel.machine s.hotel act).map fun hotel => { s with
          hotel := hotel, posts := s.posts ++ hotel.published.drop s.hotel.published.length }) =
          some s' → Complete x beach₀ s' := by
      intro act hs
      obtain ⟨hotel, hh, rfl⟩ := Option.map_eq_some_iff.mp hs
      exact h.hotel s.answers s.silent hh (fun _ hm => hm) hj
    cases act with
    | airport i answer => exact absurd hs (by simp [machine])
    | arrive call => exact go (.arrive call) hs
    | go i => exact go (.go i) hs
    | insert i uuid => exact go (.insert i uuid) hs
  | answer i word =>
    obtain ⟨guest_id, _, hs⟩ := Option.bind_eq_some_iff.mp hs
    obtain ⟨reply, hreply, rfl⟩ := Option.map_eq_some_iff.mp hs
    exact h.keep hj ⟨World.precedes_refl _, s.hotel.db.lastsIn_refl, fun _ he => he, fun _ hm => hm⟩
      rfl rfl (fun _ hv => hv) h.announcing (fun _ he => .inl he) fun _ he => he
  | hear k =>
    obtain ⟨a, ha, hs⟩ := Option.bind_eq_some_iff.mp hs
    split at hs
    · obtain ⟨hotel, hh, rfl⟩ := Option.map_eq_some_iff.mp hs
      have key := h.hotel (s.answers.eraseIdx k)
        (if a.word.isSilent then a.guest_id :: s.silent else s.silent) hh ?_ ?_
      · rwa [airport_posts hh] at key
      · split
        · exact List.subset_cons_self _ _
        · exact fun _ hm => hm
      · rw [airport_posts hh]
        exact hj
    · exact absurd hs (by simp)
  | deliver k id =>
    obtain ⟨e, he, rfl⟩ := Option.map_eq_some_iff.mp hs
    exact h.deliver he hg.2.1 (hg.2.2 e he) (hg.1 e he) hj
  | lose k => exact absurd hg id
  | request req =>
    obtain rfl := Option.some.inj hs
    exact h.request (fun event hevent => ⟨heard_other hevent (hg.1.1 event hevent) hg.1.2,
      fun htype => absurd htype (ne_confirm hevent hg.1.2)⟩) hg.2 hj
  | connect env req =>
    simp only [machine] at hs
    split at hs
    · exact absurd hs (by simp)
    · rename_i hnone
      obtain rfl := Option.some.inj hs
      exact h.connect hnone hg hj
  | read =>
    obtain ⟨l, hl, hs⟩ := Option.bind_eq_some_iff.mp hs
    obtain ⟨line, hline, hs⟩ := Option.bind_eq_some_iff.mp hs
    exact (h.handle hl hline hs hj).1
  | hangUp => exact absurd hg id
  | beach act =>
    have go : ∀ act, ((Beach.machine s.beach act).map fun beach => { s with beach := beach }) = some s' →
        Complete x beach₀ s' := by
      intro act hs
      obtain ⟨beach, hb, rfl⟩ := Option.map_eq_some_iff.mp hs
      exact h.keep hj
        ⟨World.precedes_refl _, s.hotel.db.lastsIn_refl, fun _ he => he, fun _ hm => hm⟩
        rfl rfl (fun v hv => (Beach.checkedIn_step hb v).mpr (.inl hv)) h.announcing
        (fun _ he => .inl he) fun _ he => he
    cases act with
    | checkIn v => exact absurd hs (by simp [machine])
    | arrive call => exact go (.arrive call) hs
    | go i => exact go (.go i) hs

/-! ### reading on -/

/-- how many lines are still to be read -/
def State.unread (s : State) : Nat :=
  match s.listener with
  | some l => ((s.bus.responses[l.res]?.map fun res => (Framing.lines res.text).length).getD 0) - l.line
  | none => 0

theorem Complete.next (h : Complete x beach₀ s) (hend : ¬ s.AtEnd) :
    ∃ s', machine x s .read = some s' := by
  unfold State.AtEnd at hend
  push Not at hend
  obtain ⟨l, hl, hne⟩ := hend
  obtain ⟨line, hline⟩ := Option.ne_none_iff_exists'.mp hne
  obtain ⟨events, hr, _⟩ := h.reading l hl
  have hat : (streamLines x.stringify events)[l.line]? = some line := hr.nextLine ▸ hline
  obtain ⟨guest?, hfound, hfits⟩ := hr.handleLine (List.mem_of_getElem? hat)
  have hread : machine x s .read = s.handle x l line := by
    rw [machine, show s.listener = some l from hl, Option.bind_some, hline, Option.bind_some]
  rw [hread, State.handle, hfound]
  cases guest? with
  | none => exact ⟨_, rfl⟩
  | some guest =>
    simp only [Beach.Sql.markCheckedIn_returns (hfits guest rfl)]
    exact ⟨_, rfl⟩

theorem Complete.read (h : Complete x beach₀ s) (hs : machine x s .read = some s') :
    s'.hotel = s.hotel ∧ s'.posts = s.posts ∧ s'.unread < s.unread := by
  have hj := h.journey.step (show HotelOnly x s .read from trivial) hs
  obtain ⟨l, hl, hs⟩ := Option.bind_eq_some_iff.mp hs
  obtain ⟨line, hline, hs⟩ := Option.bind_eq_some_iff.mp hs
  obtain ⟨_, e⟩ := h.handle hl hline hs hj
  obtain ⟨res, hres, hat⟩ := Option.bind_eq_some_iff.mp hline
  have hlt := (List.getElem?_eq_some_iff.mp hat).1
  rw [e]
  refine ⟨rfl, rfl, ?_⟩
  simp only [State.unread, hl, hres, Option.map_some, Option.getD_some]
  omega

/-- what is known of the beach once all is read -/
theorem Complete.letIn (h : Complete x beach₀ s) (hposts : s.posts = []) (hend : s.AtEnd)
    {guest : String} (hann : s.Announced guest) : s.beach.db.CheckedIn guest := by
  obtain ⟨e, he, htype, rfl⟩ := hann
  cases hl : s.listener with
  | none =>
    rcases h.waiting hl e he htype with hp | ⟨_, hmem, _⟩
    · exact absurd hp (by simp [hposts])
    · exact absurd hmem List.not_mem_nil
  | some l =>
    obtain ⟨events, hr, hu⟩ := h.reading l hl
    rcases hu e he htype with hp | ht
    · exact absurd hp (by simp [hposts])
    · exact hr.checkedIn (hend l hl) ht

end

/-! ## the law -/

theorem complete_init (x : Outside) (hotel : Hotel.Db) {beach : Beach.Db} (h : beach.Admitted) :
    Complete x beach (State.init x hotel beach) where
  journey := journey_init x hotel h
  start v hv := hv
  announcing i t ht := absurd ht (by simp [State.init, Hotel.State.init])
  waiting _ e he := absurd he (by simp [State.init, Hotel.State.init])
  reading l hl := absurd hl (by simp [State.init])

/-- **Nobody with a reservation is left outside.**  In any interleaving of the services in which no post
of the hotel is lost, none comes before the listener, the guests' ids fit the table of the visitors, and
the listener is not cut off: once no post is on its way and the stream is read to its end, the visitors
that are checked in are exactly those from the start and the guests of the confirmations that the hotel
has published, and the guest of every create that has answered with a reservation is among them; and the
listener can always read on to the end. -/
theorem everyone_let_in (x : Outside) (hotel : Hotel.Db) (beach : Beach.Db) (hbeach : beach.Admitted)
    (acts : List Act) (s : State)
    (hrun : (machine x).Runs (Lossless x) (State.init x hotel beach) acts s) :
    (s.posts = [] → s.AtEnd → (∀ v, s.beach.db.CheckedIn v ↔ beach.CheckedIn v ∨ s.Announced v) ∧
      ∀ (i : Nat) (dto : Hotel.CreateReservationDto) (r : Hotel.Reservation) (type : Hotel.RoomType),
        s.hotel.threads[i]? = some ⟨.create dto, .done (.reservation r type)⟩ →
        s.beach.db.CheckedIn dto.guest_id) ∧
    ∃ reads s', (∀ act ∈ reads, act = .read) ∧ (machine x).Runs (Lossless x) s reads s' ∧ s'.AtEnd ∧
      s'.hotel = s.hotel ∧ s'.posts = s.posts := by
  have hs : Complete x beach s :=
    hrun.inv (fun _ _ _ h hg hm => h.step hg hm) (complete_init x hotel hbeach)
  refine ⟨fun hposts hend => ⟨fun v => ⟨hs.journey.visitors v, ?_⟩, ?_⟩, ?_⟩
  · exact fun hv => hv.elim (hs.start v) fun hann => hs.letIn hposts hend hann
  · intro i dto r type ht
    obtain ⟨e, he, htype, hguest⟩ := hs.announcing i _ ht
    exact hs.letIn hposts hend ⟨e, he, htype, hguest⟩
  · have hread : ∃ reads s', (machine x).Runs (fun _ act => act = .read) s reads s' ∧
        (Complete x beach s' ∧ s'.hotel = s.hotel ∧ s'.posts = s.posts) ∧ s'.AtEnd := by
      refine Machine.exists_runs (μ := State.unread) ?_ ?_ ⟨hs, rfl, rfl⟩
      · rintro t _ t' ⟨ht, hhotel, hposts⟩ rfl hm
        obtain ⟨hh, hp, hlt⟩ := ht.read hm
        exact ⟨⟨ht.step (show Lossless x t .read from trivial) hm, hh.trans hhotel, hp.trans hposts⟩, hlt⟩
      · rintro t ⟨ht, _⟩
        by_cases hend : t.AtEnd
        · exact .inl hend
        · obtain ⟨t', ht'⟩ := ht.next hend
          exact .inr ⟨.read, t', rfl, ht'⟩
    obtain ⟨reads, s', hreads, ⟨_, hhotel, hposts⟩, hend⟩ := hread
    exact ⟨reads, s', hreads.forall_mem, hreads.mono fun t act e => by rw [e]; trivial, hend, hhotel,
      hposts⟩

theorem lossless_of_quiet {x : Outside} (s : State) (act : Act) (h : act.quiet = true) :
    Lossless x s act := by
  cases act with
  | deliver k id => exact absurd h Bool.false_ne_true
  | request req => exact absurd h Bool.false_ne_true
  | lose k => exact absurd h Bool.false_ne_true
  | hangUp => exact absurd h Bool.false_ne_true
  | connect env req =>
    intro identity hid
    rw [Act.quiet, show Broadcast.identifyService env req = some identity from hid] at h
    simpa using h
  | _ => trivial

/-- the listener reads the confirmation of ana's reservation, and she is let in -/
theorem everyone_let_in_ana : ∃ acts s, (machine anaOutside).Runs (Lossless anaOutside)
      (.init anaOutside Hotel.oneRoomDb Beach.quietDb) acts s ∧ s.posts = [] ∧ s.AtEnd ∧
    s.beach.db.CheckedIn "ana" := by
  obtain ⟨s₀, hrun, hs₀⟩ := ana_reserved
  have hsent := (hrun.mono lossless_of_quiet).snoc (a := Act.deliver 0 "event-1")
    ⟨hs₀.deliver.2, by simp [hs₀.listener], by simp [hs₀.posts, anaReservation]; decide⟩ hs₀.deliver.1
  obtain ⟨_, reads, s, _, hreads, hend, hhotel, hposts⟩ := everyone_let_in anaOutside Hotel.oneRoomDb
    Beach.quietDb (by decide) _ s₀.delivered hsent
  have hrun := hsent.append hreads
  obtain ⟨hall, _⟩ := everyone_let_in anaOutside Hotel.oneRoomDb Beach.quietDb (by decide) _ s hrun
  obtain ⟨r, type, ht⟩ := hs₀.answered
  exact ⟨_, s, hrun, hposts, hend, (hall hposts hend).2 0 _ r type (hhotel ▸ ht)⟩

end Resort
