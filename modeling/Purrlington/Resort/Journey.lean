import Purrlington.Resort.System

/-!
# Resort: from the airport to the beach

Nobody books at the beach who has not been through the hotel and, if the airport had anything to say,
through the airport: each service passes on what it was told, over a bus that anybody may post to.

* `handleLine_event`    what the listener makes of the stream that it reads;
* `passed_step`, `published_step`      what a step of the hotel does to what is known of its guests;
* `State.Confirmed`     a confirmation of the hotel, with its row and the word of the airport;
* `HotelOnly`           the condition on a run: only the hotel posts to the routes of the hotel;
* `Journey`             what holds of all services together;
* `booked_vouched`      so every booking goes back to a confirmed reservation.
-/

set_option linter.unusedSectionVars false

/-! ## the stream of the listener -/

namespace Broadcast
open Framing

section
variable (number : Rat → String) (stringify : Json → String)
  (parseToJsonElement : List Char → Option Json)

theorem guestIdFrom_other {event : IslandEvent} (htype : event.event_type ≠ .HOTEL_CONFIRM)
    {text : List Char} (hparse : parseToJsonElement text = some event.json) :
    Kotlin.guestIdFrom number parseToJsonElement text = .ok none := by
  obtain ⟨_, _, hlookup, _⟩ := lookup_members event
  have heventType : Kotlin.eventType number event.members = .ok (some event.event_type.text) := by
    rw [Kotlin.eventType, Kotlin.string, hlookup]
    rfl
  have hne : some event.event_type.text ≠ some Kotlin.HOTEL_CONFIRM_EVENT := by
    revert htype
    cases event.event_type <;> decide
  rw [IslandEvent.json] at hparse
  simp only [Kotlin.guestIdFrom, hparse, heventType]
  exact if_pos hne

theorem handleLine_event {event : IslandEvent}
    (h : Readable stringify parseToJsonElement event.json)
    (hguest : event.event_type = .HOTEL_CONFIRM → event.guest_id ≠ none) :
    Kotlin.handleLine number parseToJsonElement (dataLine stringify event) =
      .ok (if event.event_type = .HOTEL_CONFIRM then event.guest_id else none) := by
  obtain ⟨inner, hbraces⟩ := h.braces
  have hdata : "data:".toList.isPrefixOf (dataLine stringify event) = true := rfl
  have htrim : Kotlin.trim ((dataLine stringify event).drop 5) = (stringify event.json).toList := by
    rw [drop_dataLine, hbraces]
    exact Kotlin.trim_space (by decide) (by decide) inner
  rw [Kotlin.handleLine, if_pos hdata, htrim]
  by_cases htype : event.event_type = .HOTEL_CONFIRM
  · obtain ⟨guest, hsome⟩ := Option.ne_none_iff_exists'.mp (hguest htype)
    rw [guestIdFrom_event number parseToJsonElement hsome h.inverse, hsome]
  · rw [guestIdFrom_other number parseToJsonElement htype h.inverse, if_neg htype]

/-- a line of the stream is that of an event, or has nothing for the listener -/
theorem handleLine_stream {events : List IslandEvent} {line : List Char}
    (hline : line ∈ streamLines stringify events) :
    Kotlin.handleLine number parseToJsonElement line = .ok none ∨
      ∃ event ∈ events, line = dataLine stringify event := by
  have blank : Kotlin.handleLine number parseToJsonElement [] = .ok none := by
    rw [Kotlin.handleLine, if_neg (by decide)]
  rcases List.mem_cons.mp hline with rfl | hline
  · rw [Kotlin.handleLine, if_neg (by decide)]
    exact .inl rfl
  · rcases List.mem_cons.mp hline with rfl | hline
    · exact .inl blank
    · obtain ⟨event, hmem, hline⟩ := List.mem_flatMap.mp hline
      rcases List.mem_cons.mp hline with rfl | hline
      · exact .inr ⟨event, hmem, rfl⟩
      · rw [List.mem_singleton.mp hline]
        exact .inl blank

/-- whoever the listener finds in a line is the guest of a confirmation in the stream -/
theorem guest_of_line {events : List IslandEvent} {line : List Char} {guest : String}
    (h : ∀ event ∈ events, Readable stringify parseToJsonElement event.json)
    (hguest : ∀ event ∈ events, event.event_type = .HOTEL_CONFIRM → event.guest_id ≠ none)
    (hline : line ∈ streamLines stringify events)
    (hfound : Kotlin.handleLine number parseToJsonElement line = .ok (some guest)) :
    ∃ event ∈ events, event.event_type = .HOTEL_CONFIRM ∧ event.guest_id = some guest := by
  rcases handleLine_stream number stringify parseToJsonElement hline with hnone | ⟨event, hmem, rfl⟩
  · rw [hnone] at hfound
    exact absurd (Except.ok.inj hfound).symm (Option.some_ne_none guest)
  · rw [handleLine_event number stringify parseToJsonElement (h event hmem)
      (hguest event hmem)] at hfound
    have hfound := Except.ok.inj hfound
    split at hfound
    · rename_i htype
      exact ⟨event, hmem, htype, hfound⟩
    · exact absurd hfound.symm (Option.some_ne_none guest)

end
end Broadcast

/-! ## the guests of the hotel -/

namespace Hotel
open SM

/-- a create that has got past the airport and has not answered -/
def Pc.passed : Pc → Bool
  | .findRooms => true
  | .count _ _ => true
  | .insert _ => true
  | .publishConfirmed _ _ => true
  | _ => false

/-- what is known of the guest of such a create -/
def Passed (P : String → Prop) : Thread → Prop
  | ⟨.create dto, pc⟩ => pc.passed = true → P dto.guest_id
  | ⟨.cancel _, _⟩ => True

theorem Passed.mono {P Q : String → Prop} {t : Thread} (h : Passed P t) (hle : ∀ g, P g → Q g) :
    Passed Q t := by
  obtain ⟨call, pc⟩ := t
  cases call with
  | create dto => exact fun hp => hle _ (h hp)
  | cancel id => trivial

section
variable {s s' : State} {act : Act}

theorem Call.entry_passed (P : String → Prop) (call : Call) : Passed P ⟨call, call.entry⟩ := by
  cases call with
  | create dto =>
    intro hp
    rw [Call.entry] at hp
    split at hp <;> exact absurd hp (by simp [Pc.passed])
  | cancel id => trivial

theorem passed_step {P : String → Prop} (hs : machine s act = some s')
    (h : ∀ (i : Nat) (t : Thread), s.threads[i]? = some t → Passed P t)
    (hact : ∀ i answer dto, act = .airport i answer → s.threads[i]? = some ⟨.create dto, .airport⟩ →
      answer ≠ some false → P dto.guest_id) :
    ∀ (i : Nat) (t : Thread), s'.threads[i]? = some t → Passed P t := by
  have moved : ∀ {i : Nat} {t' : Thread}, Passed P t' →
      ∀ (j : Nat) (t : Thread), (s.threads.set i t')[j]? = some t → Passed P t :=
    fun ht' => forall_set (fun j t _ hj => h j t hj) ht'
  obtain ⟨call, rfl, rfl⟩ | ⟨i, dto, pc, ht, hstep⟩ | ⟨i, id, pc, rfl, ht, hstep⟩ := machine_steps hs
  · exact forall_snoc h (call.entry_passed P)
  · cases hstep with
    | notCleared => exact moved fun hp => absurd hp (by simp [Pc.passed])
    | cleared answer hne => exact moved fun _ => hact i answer dto rfl ht hne
    | rooms => exact moved fun _ => h i _ ht rfl
    | unfit room rest hunfit => exact moved fun _ => h i _ ht rfl
    | free room rest hfit hfree => exact moved fun _ => h i _ ht rfl
    | taken room rest hfit htaken => exact moved fun _ => h i _ ht rfl
    | insert room uuid hid hst => exact moved fun _ => h i _ ht rfl
    | raises room uuid hst => exact moved fun _ => h i _ ht rfl
    | publish r room => exact moved fun _ => h i _ ht rfl
  · cases hstep <;> exact moved trivial

theorem published_step (hs : machine s act = some s') :
    ∃ new, s'.published = s.published ++ new ∧ ∀ e ∈ new, e.type = .ReservationConfirmed →
      ∃ (i : Nat) (dto : CreateReservationDto) (r : Reservation) (room : Room),
        s.threads[i]? = some ⟨.create dto, .publishConfirmed r room⟩ ∧
        e.reservation_id = r.id ∧ e.guest_id = r.guest_id := by
  have quiet : s'.published = s.published → ∃ new, s'.published = s.published ++ new ∧
      ∀ e ∈ new, e.type = .ReservationConfirmed →
      ∃ (i : Nat) (dto : CreateReservationDto) (r : Reservation) (room : Room),
        s.threads[i]? = some ⟨.create dto, .publishConfirmed r room⟩ ∧
        e.reservation_id = r.id ∧ e.guest_id = r.guest_id := by
    intro e
    exact ⟨[], by rw [e, List.append_nil], fun e he => absurd he (by simp)⟩
  obtain ⟨call, rfl, rfl⟩ | ⟨i, dto, pc, ht, hstep⟩ | ⟨i, id, pc, rfl, ht, hstep⟩ := machine_steps hs
  · exact quiet rfl
  · cases hstep with
    | publish r room =>
      refine ⟨_, rfl, fun e he _ => ?_⟩
      obtain rfl := List.mem_singleton.mp he
      exact ⟨i, dto, r, room, ht, rfl, rfl⟩
    | _ => exact quiet rfl
  · cases hstep with
    | publish r type =>
      refine ⟨_, rfl, fun e he htype => ?_⟩
      obtain rfl := List.mem_singleton.mp he
      exact absurd htype (by simp [eventOf])
    | _ => exact quiet rfl

end
end Hotel

/-! ## the statuses of the streams -/

namespace Broadcast

theorem map_status_writeTo (stringify : Json → String) (event : IslandEvent)
    (clients : List ConnectedClient) (responses : List Response) :
    (clients.foldl (writeTo stringify event) responses).map Response.status =
      responses.map Response.status := by
  induction clients generalizing responses with
  | nil => rfl
  | cons client clients ih =>
    rw [List.foldl_cons, ih, writeTo]
    split
    · exact SM.map_modify_same fun _ _ => rfl
    · rfl

theorem serve_status (stringify : Json → String) (bus : Bus) (req : Req) :
    bus.responses.map Response.status <+:
      (serve stringify bus req).responses.map Response.status := by
  cases req with
  | events env req =>
    rw [serve, Bus.connect]
    split
    · rw [Bus.answer, List.map_append]
      exact List.prefix_append _ _
    · rw [Bus.addClient, List.map_append]
      exact List.prefix_append _ _
  | gone res => exact List.prefix_rfl
  | post env id req =>
    rw [serve]
    split
    · rename_i event _
      exact ⟨[], (List.append_nil _).trans
        (map_status_writeTo stringify event bus.clients bus.responses).symm⟩
    · exact List.prefix_rfl

theorem serve_tells {stringify : Json → String} {P : IslandEvent → Prop} {bus : Bus}
    (h : bus.Tells stringify P) {req : Req} (hp : ∀ event, req.event = some event → P event) :
    (serve stringify bus req).Tells stringify P := by
  cases req with
  | events env req => exact h.connect env req
  | gone res => exact h
  | post env id req =>
    rw [serve]
    split
    · rename_i event hevent
      exact h.broadcast (hp event hevent)
    · exact h

end Broadcast

/-! ## the invariant -/

namespace Resort
open SM
open Broadcast (Readable IslandEvent quoted)

section
variable {x : Outside} {s s' : State}

/-- the guest whom the airport was asked about has cleared control -/
def State.Cleared (x : Outside) (s : State) (guest_id : String) : Prop :=
  ∃ id ∈ x.asked guest_id, s.airport.shared.Cleared id

/-- the guest has cleared control, or the airport had nothing to say -/
def State.Admitted (x : Outside) (s : State) (guest_id : String) : Prop :=
  guest_id ∈ s.silent ∨ s.Cleared x guest_id

/-- the confirmation of a reservation that is in the table, of an admitted guest -/
def State.Confirmed (x : Outside) (s : State) (e : Hotel.HotelBroadcastEvent) : Prop :=
  (∃ r ∈ s.hotel.db.reservations, r.id = e.reservation_id ∧ r.guest_id = e.guest_id) ∧
    s.Admitted x e.guest_id

/-- the hotel has published a confirmation for the guest -/
def State.Announced (s : State) (guest_id : String) : Prop :=
  ∃ e ∈ s.hotel.published, e.type = .ReservationConfirmed ∧ e.guest_id = guest_id

/-- what the streams may tell: events that can be read, and no confirmation but one of the hotel -/
def Heard (x : Outside) (s : State) (event : IslandEvent) : Prop :=
  Readable x.stringify x.parseToJsonElement event.json ∧
    (event.event_type = .HOTEL_CONFIRM → ∃ guest, event.guest_id = some guest ∧ s.Announced guest)

structure Journey (x : Outside) (beach₀ : Beach.Db) (s : State) : Prop where
  vouching : s.airport.shared.Vouching
  answers : ∀ a ∈ s.answers, Hotel.hasGuestClearedProcessing a.reply ≠ some false →
    a.word.isSilent = true ∨ s.Cleared x a.guest_id
  placed : Hotel.Placed s.hotel
  honest : Hotel.Honest s.hotel
  passed : ∀ (i : Nat) (t : Hotel.Thread), s.hotel.threads[i]? = some t →
    Hotel.Passed (s.Admitted x) t
  confirmed : ∀ e ∈ s.hotel.published, e.type = .ReservationConfirmed → s.Confirmed x e
  posts : ∀ e ∈ s.posts, e ∈ s.hotel.published
  streams : s.bus.Tells x.stringify (Heard x s)
  attached : ∀ l ∈ s.listener, (s.bus.responses.map Broadcast.Response.status)[l.res]? = some 200
  booked : Beach.Admitted s.beach
  visitors : ∀ v, s.beach.db.CheckedIn v → beach₀.CheckedIn v ∨ s.Announced v

/-- only the hotel posts to the routes of the hotel, and the texts of the events can be read -/
def HotelOnly (x : Outside) : State → Act → Prop
  | s, .deliver k id => ∀ e ∈ s.posts[k]?, ∀ event, (postOf id e).event = some event →
      Readable x.stringify x.parseToJsonElement event.json
  | _, .request req => (∀ event, req.event = some event →
      Readable x.stringify x.parseToJsonElement event.json) ∧
      ∀ env id post, req = .post env id post → post.path ∉ Broadcast.ChannelId.Hotel.paths
  | _, _ => True

/-! ### what only grows -/

structure Grows (s s' : State) : Prop where
  airport : s.airport.shared.Precedes s'.airport.shared
  hotel : s.hotel.db.LastsIn s'.hotel.db
  published : s.hotel.published ⊆ s'.hotel.published
  silent : s.silent ⊆ s'.silent

theorem World.precedes_refl (w : Airport.World) : w.Precedes w := ⟨List.prefix_rfl, List.prefix_rfl⟩

theorem State.Cleared.mono {guest_id : String} (h : s.Cleared x guest_id)
    (hg : s.airport.shared.Precedes s'.airport.shared) : s'.Cleared x guest_id := by
  obtain ⟨id, hid, hc⟩ := h
  exact ⟨id, hid, hc.of_precedes hg⟩

theorem State.Admitted.mono {guest_id : String} (h : s.Admitted x guest_id) (hg : Grows s s') :
    s'.Admitted x guest_id :=
  h.imp (fun hm => hg.silent hm) fun hc => hc.mono hg.airport

theorem State.Confirmed.mono {e : Hotel.HotelBroadcastEvent} (h : s.Confirmed x e)
    (hg : Grows s s') : s'.Confirmed x e := by
  obtain ⟨⟨r, hr, hid, hguest⟩, hadm⟩ := h
  obtain ⟨r', hr', hl⟩ := hg.hotel.rows r hr
  refine ⟨⟨r', hr', ?_⟩, hadm.mono hg⟩
  rcases hl with rfl | rfl
  · exact ⟨hid, hguest⟩
  · exact ⟨hid, hguest⟩

theorem State.Announced.mono {guest_id : String} (h : s.Announced guest_id) (hg : Grows s s') :
    s'.Announced guest_id := by
  obtain ⟨e, he, hrest⟩ := h
  exact ⟨e, hg.published he, hrest⟩

theorem Heard.mono {event : IslandEvent} (h : Heard x s event) (hg : Grows s s') :
    Heard x s' event := by
  refine ⟨h.1, fun htype => ?_⟩
  obtain ⟨guest, hguest, hann⟩ := h.2 htype
  exact ⟨guest, hguest, hann.mono hg⟩

/-! ### one step of each service -/

variable {beach₀ : Beach.Db}

theorem Journey.airport {act : PoolAct Airport.Api Airport.Env Unit} {airport : Airport.State}
    (h : Journey x beach₀ s) (hs : (Airport.airport x.cfg).machine s.airport act = some airport) :
    Journey x beach₀ { s with airport := airport } := by
  have hg : Grows s { s with airport := airport } :=
    ⟨Airport.machine_precedes hs, s.hotel.db.lastsIn_refl, fun _ he => he, fun _ hm => hm⟩
  exact { h with
    vouching := Airport.vouching_step h.vouching hs
    answers := fun a ha hne => (h.answers a ha hne).imp id fun hc => hc.mono hg.airport
    passed := fun i t ht => (h.passed i t ht).mono fun _ hp => hp.mono hg
    confirmed := fun e he htype => (h.confirmed e he htype).mono hg
    streams := h.streams.mono fun _ hp => hp.mono hg
    visitors := fun v hv => h.visitors v hv }

theorem hasGuestClearedProcessing_response {body : Json}
    (h : Hotel.hasGuestClearedProcessing (.response true (some body)) ≠ some false)
    (hnull : body ≠ .null) : body.text "status" = some "processed" := by
  by_contra hne
  exact h (Hotel.hasGuestClearedProcessing_eq_false.mpr ⟨body, rfl, hnull, hne⟩)

theorem Journey.answer {i : Nat} {word : Word} {guest_id : String} {reply : Hotel.AirportReply}
    (h : Journey x beach₀ s)
    (hreply : replyOf s.airport.shared (x.asked guest_id) word = some reply) :
    Journey x beach₀ { s with answers := s.answers ++ [⟨i, guest_id, word, reply⟩] } := by
  refine { h with
    answers := List.forall_mem_append.mpr ⟨h.answers, List.forall_mem_singleton.mpr fun hne => ?_⟩ }
  cases word with
  | silent => exact .inl rfl
  | row k =>
    right
    obtain ⟨id, hasked, hreply⟩ := Option.bind_eq_some_iff.mp hreply
    obtain ⟨a, ha, hreply⟩ := Option.bind_eq_some_iff.mp hreply
    split at hreply
    · rename_i hlatest
      obtain rfl := Option.some.inj hreply
      have hst := hasGuestClearedProcessing_response hne (by simp [Airport.arrivalResponse])
      refine ⟨id, hasked, ?_⟩
      rw [show id = a.guest.guest_id from hlatest.2.1.symm]
      exact Airport.cleared_of_row h.vouching ha hst
    · exact absurd hreply (by simp)
  | other members =>
    simp only [replyOf] at hreply
    split at hreply
    · exact absurd hreply (by simp)
    · rename_i hst
      obtain rfl := Option.some.inj hreply
      exact absurd (hasGuestClearedProcessing_response hne (by simp)) hst

theorem Journey.hotel {act : Hotel.Act} {hotel : Hotel.State} (answers : List Answer)
    {silent : List String} (h : Journey x beach₀ s) (hs : Hotel.machine s.hotel act = some hotel)
    (hsub : ∀ a ∈ answers, a ∈ s.answers) (hsilent : s.silent ⊆ silent)
    (hact : ∀ i answer dto, act = .airport i answer →
      s.hotel.threads[i]? = some ⟨.create dto, .airport⟩ → answer ≠ some false →
      dto.guest_id ∈ silent ∨ s.Cleared x dto.guest_id) :
    Journey x beach₀ { s with
      answers := answers
      hotel := hotel
      posts := s.posts ++ hotel.published.drop s.hotel.published.length
      silent := silent } := by
  obtain ⟨new, hnew, hconfirm⟩ := Hotel.published_step hs
  have hdrop : hotel.published.drop s.hotel.published.length = new := by
    rw [hnew, List.drop_left]
  rw [hdrop]
  have hg : Grows s { s with answers := answers, hotel := hotel, posts := s.posts ++ new,
                             silent := silent } :=
    ⟨World.precedes_refl _, Hotel.machine_lastsIn hs, fun e he => hnew ▸ List.mem_append_left new he,
      hsilent⟩
  exact { h with
    answers := fun a ha => h.answers a (hsub a ha)
    placed := h.placed.step hs
    honest := h.honest.step h.placed hs
    passed := Hotel.passed_step hs
      (fun i t ht => (h.passed i t ht).mono fun _ hp => hp.mono hg) hact
    confirmed := fun e he htype => by
      rw [show hotel.published = s.hotel.published ++ new from hnew] at he
      rcases List.mem_append.mp he with he | he
      · exact (h.confirmed e he htype).mono hg
      · obtain ⟨i, dto, r, room, ht, hid, hguest⟩ := hconfirm e he htype
        obtain ⟨_, hrow, r', hr', hl⟩ := h.honest i _ ht
        have hadm : s.Admitted x dto.guest_id := h.passed i _ ht rfl
        have hdto : r.guest_id = dto.guest_id := by rw [hrow]; rfl
        refine State.Confirmed.mono ⟨⟨r', hr', ?_⟩, by rwa [hguest, hdto]⟩ hg
        rw [hid, hguest]
        rcases hl with rfl | rfl
        · exact ⟨rfl, rfl⟩
        · exact ⟨rfl, rfl⟩
    posts := fun e he => by
      rw [show hotel.published = s.hotel.published ++ new from hnew]
      rcases List.mem_append.mp he with he | he
      · exact List.mem_append_left _ (h.posts e he)
      · exact List.mem_append_right _ he
    streams := h.streams.mono fun _ hp => hp.mono hg
    visitors := fun v hv => (h.visitors v hv).imp id fun ha => ha.mono hg }

theorem Journey.serve (req : Broadcast.Req) (h : Journey x beach₀ s)
    (hheard : ∀ event, req.event = some event → Heard x s event) :
    Journey x beach₀ { s with bus := Broadcast.serve x.stringify s.bus req } := by
  have hst := Broadcast.serve_status x.stringify s.bus req
  exact { h with
    streams := Broadcast.serve_tells h.streams hheard
    attached := fun l hl => by
      have hat := h.attached l hl
      have hlt := (List.getElem?_eq_some_iff.mp hat).1
      have hpre := List.prefix_iff_getElem?.mp hst l.res hlt
      rw [← hat, List.getElem?_eq_getElem hlt]
      exact hpre }

theorem postOf_event (id : String) (e : Hotel.HotelBroadcastEvent) :
    ∃ event, (postOf id e).event = some event ∧ event.channel = .Hotel ∧
      event.event_type = (Broadcast.hotelRelay e.type).event_type ∧
      event.guest_id = some e.guest_id := by
  obtain ⟨payload, hpost, hguest⟩ := Broadcast.publishHotelEvent_payload e
  obtain ⟨routed, hroute, hchannel, htype, hrouted⟩ := payload.routed e.type id
  have hrel : (postOf id e).event =
      (Broadcast.relayed (Broadcast.route id (Hotel.publishHotelEvent e))).2 := by
    rw [postOf, Broadcast.Req.event, Broadcast.post, hpost]
    cases e.type <;> rfl
  refine ⟨routed, ?_, hchannel, htype, by rw [hrouted, hguest]⟩
  rw [hrel, hpost, hroute]
  rfl

theorem heard_post {e : Hotel.HotelBroadcastEvent} {id : String} {event : IslandEvent}
    (he : e ∈ s.hotel.published) (hevent : (postOf id e).event = some event)
    (hread : Readable x.stringify x.parseToJsonElement event.json) : Heard x s event := by
  obtain ⟨routed, hrouted, _, htype, hguest⟩ := postOf_event id e
  obtain rfl := Option.some.inj (hrouted.symm.trans hevent)
  refine ⟨hread, fun hconfirm => ⟨e.guest_id, hguest, e, he, ?_, rfl⟩⟩
  rw [htype] at hconfirm
  revert hconfirm
  cases e.type <;> decide

theorem ne_confirm {req : Broadcast.Req} {event : IslandEvent} (hevent : req.event = some event)
    (hpath : ∀ env id post, req = .post env id post → post.path ∉ Broadcast.ChannelId.Hotel.paths) :
    event.event_type ≠ .HOTEL_CONFIRM := by
  intro htype
  cases req with
  | events env req => exact absurd hevent (by simp [Broadcast.Req.event])
  | gone res => exact absurd hevent (by simp [Broadcast.Req.event])
  | post env id post =>
    have hspoken := Broadcast.post_spoken hevent
    have hin := hspoken.path
    rw [hspoken.kind, htype] at hin
    exact absurd hin (hpath env id post rfl)

theorem heard_other {req : Broadcast.Req} {event : IslandEvent} (hevent : req.event = some event)
    (hread : Readable x.stringify x.parseToJsonElement event.json)
    (hpath : ∀ env id post, req = .post env id post → post.path ∉ Broadcast.ChannelId.Hotel.paths) :
    Heard x s event := ⟨hread, fun htype => absurd htype (ne_confirm hevent hpath)⟩

/-- the hotel publishes nothing at an answer of the airport -/
theorem airport_posts {hotel hotel' : Hotel.State} {i : Nat} {answer : Option Bool}
    (hs : Hotel.machine hotel (.airport i answer) = some hotel')
    (posts : List Hotel.HotelBroadcastEvent) :
    posts ++ hotel'.published.drop hotel.published.length = posts := by
  obtain ⟨t, _, hstep⟩ := Option.bind_eq_some_iff.mp hs
  have hpub : hotel'.published = hotel.published := by
    unfold Hotel.stepAirport at hstep
    split at hstep
    · split at hstep
      · obtain rfl := Option.some.inj hstep
        rfl
      · obtain rfl := Option.some.inj hstep
        rfl
    · exact absurd hstep (by simp)
  rw [hpub, List.drop_length, List.append_nil]

theorem Journey.hear {a : Answer} {k : Nat} {hotel : Hotel.State} (h : Journey x beach₀ s)
    (ha : s.answers[k]? = some a) (hask : asking s.hotel a.thread = some a.guest_id)
    (hs : Hotel.machine s.hotel
      (.airport a.thread (Hotel.hasGuestClearedProcessing a.reply)) = some hotel) :
    Journey x beach₀ { s with
      answers := s.answers.eraseIdx k
      hotel := hotel
      silent := if a.word.isSilent then a.guest_id :: s.silent else s.silent } := by
  have hsilent : s.silent ⊆ if a.word.isSilent then a.guest_id :: s.silent else s.silent := by
    split
    · exact List.subset_cons_self _ _
    · exact fun _ hm => hm
  have key := h.hotel (s.answers.eraseIdx k) hs
    (fun b hb => (List.eraseIdx_sublist _ _).subset hb) hsilent ?_
  · rwa [airport_posts hs] at key
  · rintro i answer dto hact ht hne
    obtain ⟨rfl, rfl⟩ := Hotel.Act.airport.inj hact
    have hid : dto.guest_id = a.guest_id := by
      rw [asking, ht] at hask
      exact Option.some.inj hask
    rw [hid]
    rcases h.answers a (List.mem_of_getElem? ha) hne with hword | hc
    · left
      rw [if_pos hword]
      exact List.mem_cons_self
    · exact .inr hc

theorem Journey.connect (h : Journey x beach₀ s) (env : Broadcast.Env) (req : Broadcast.Request) :
    Journey x beach₀ { s with
      bus := s.bus.connect env req
      listener := (Broadcast.identifyService env req).map fun _ => ⟨s.bus.responses.length, 0⟩ } := by
  refine { h with streams := h.streams.connect env req, attached := fun l hl => ?_ }
  obtain ⟨identity, hid, rfl⟩ := Option.map_eq_some_iff.mp hl
  show ((s.bus.connect env req).responses.map _)[s.bus.responses.length]? = some 200
  rw [Broadcast.Bus.connect, hid]
  show ((s.bus.responses ++ [_]).map Broadcast.Response.status)[s.bus.responses.length]? = some 200
  rw [List.getElem?_map, List.getElem?_concat_length]
  rfl

/-- a line of the stream names only guests that the hotel has announced -/
theorem Journey.announced_of_line (h : Journey x beach₀ s) {l : Listener} {line : List Char}
    {guest : String} (hl : s.listener = some l) (hline : s.nextLine l = some line)
    (hfound : Kotlin.handleLine x.number x.parseToJsonElement line = .ok (some guest)) :
    s.Announced guest := by
  obtain ⟨res, hres, hline⟩ := Option.bind_eq_some_iff.mp hline
  have hst : res.status = 200 := by
    have hat := h.attached l hl
    rw [List.getElem?_map, hres] at hat
    exact Option.some.inj hat
  obtain ⟨events, hw, hheard⟩ := h.streams l.res res hres hst
  have hlines : Framing.lines res.text = Broadcast.streamLines x.stringify events := by
    obtain ⟨status, written⟩ := res
    obtain rfl : written = _ := hw
    exact Broadcast.lines_stream x.stringify fun event he => (hheard event he).1.line
  rw [hlines] at hline
  obtain ⟨event, hmem, htype, hguest⟩ := Broadcast.guest_of_line x.number x.stringify
    x.parseToJsonElement (fun event he => (hheard event he).1)
    (fun event he htype e => by
      obtain ⟨guest, hguest, _⟩ := (hheard event he).2 htype
      rw [hguest] at e
      exact absurd e (by simp))
    (List.mem_of_getElem? hline) hfound
  obtain ⟨guest', hguest', hann⟩ := (hheard event hmem).2 htype
  obtain rfl := Option.some.inj (hguest.symm.trans hguest')
  exact hann

theorem Journey.listen (h : Journey x beach₀ s) {listener : Option Listener}
    (hres : ∀ l ∈ listener, ∃ l₀ ∈ s.listener, l.res = l₀.res) :
    Journey x beach₀ { s with listener := listener } := by
  refine { h with attached := fun l hl => ?_ }
  obtain ⟨l₀, hl₀, e⟩ := hres l hl
  rw [e]
  exact h.attached l₀ hl₀

theorem Journey.cutOff (h : Journey x beach₀ s) (l : Listener) : Journey x beach₀ (s.cutOff l) :=
  { h with streams := h.streams, attached := fun _ hl => absurd hl (by simp [State.cutOff]) }

theorem Journey.handle {l : Listener} {line : List Char} (h : Journey x beach₀ s)
    (hl : s.listener = some l) (hline : s.nextLine l = some line)
    (hs : s.handle x l line = some s') : Journey x beach₀ s' := by
  have next : Journey x beach₀ { s with listener := some { l with line := l.line + 1 } } :=
    h.listen fun l' hl' => ⟨l, hl, by rw [← Option.some.inj hl']⟩
  unfold State.handle at hs
  split at hs
  · rename_i guest hfound
    split at hs
    · obtain ⟨beach, hb, rfl⟩ := Option.map_eq_some_iff.mp hs
      have hann := h.announced_of_line hl hline hfound
      refine { next with
        booked := h.booked.step hb
        visitors := fun v hv => ?_ }
      rcases (Beach.checkedIn_step hb v).mp hv with hv | hv
      · exact h.visitors v hv
      · obtain rfl := Beach.Act.checkIn.inj hv
        exact .inr hann
    · obtain rfl := Option.some.inj hs
      exact h.cutOff l
  · obtain rfl := Option.some.inj hs
    exact next
  · obtain rfl := Option.some.inj hs
    exact h.cutOff l

theorem Journey.beach {act : Beach.Act} {beach : Beach.State} (h : Journey x beach₀ s)
    (hs : Beach.machine s.beach act = some beach) (hact : ∀ v, act ≠ .checkIn v) :
    Journey x beach₀ { s with beach := beach } := by
  refine { h with booked := h.booked.step hs, visitors := fun v hv => ?_ }
  rcases (Beach.checkedIn_step hs v).mp hv with hv | hv
  · exact h.visitors v hv
  · exact absurd hv (hact v)

/-- **Every step of every service keeps what holds of all of them.** -/
theorem Journey.step {act : Act} (h : Journey x beach₀ s) (hg : HotelOnly x s act)
    (hs : machine x s act = some s') : Journey x beach₀ s' := by
  cases act with
  | airport act =>
    obtain ⟨airport, ha, rfl⟩ := Option.map_eq_some_iff.mp hs
    exact h.airport ha
  | hotel act =>
    have go : ∀ act, (∀ i answer, act ≠ .airport i answer) →
        ((Hotel.machine s.hotel act).map fun hotel => { s with
          hotel := hotel, posts := s.posts ++ hotel.published.drop s.hotel.published.length }) =
          some s' → Journey x beach₀ s' := by
      intro act hne hs
      obtain ⟨hotel, hh, rfl⟩ := Option.map_eq_some_iff.mp hs
      exact h.hotel s.answers hh (fun _ ha => ha) (fun _ hm => hm)
        fun i answer dto e => absurd e (hne i answer)
    cases act with
    | airport i answer => exact absurd hs (by simp [machine])
    | arrive call => exact go (.arrive call) (by simp) hs
    | go i => exact go (.go i) (by simp) hs
    | insert i uuid => exact go (.insert i uuid) (by simp) hs
  | answer i word =>
    obtain ⟨guest_id, _, hs⟩ := Option.bind_eq_some_iff.mp hs
    obtain ⟨reply, hreply, rfl⟩ := Option.map_eq_some_iff.mp hs
    exact h.answer hreply
  | hear k =>
    obtain ⟨a, ha, hs⟩ := Option.bind_eq_some_iff.mp hs
    split at hs
    · rename_i hask
      obtain ⟨hotel, hh, rfl⟩ := Option.map_eq_some_iff.mp hs
      exact h.hear ha hask hh
    · exact absurd hs (by simp)
  | deliver k id =>
    obtain ⟨e, he, rfl⟩ := Option.map_eq_some_iff.mp hs
    have hserved := h.serve (postOf id e) fun event hevent =>
      heard_post (h.posts e (List.mem_of_getElem? he)) hevent (hg e he event hevent)
    exact { hserved with
      posts := fun e he => h.posts e ((List.eraseIdx_sublist _ _).subset he) }
  | lose k =>
    obtain rfl := Option.some.inj hs
    exact { h with posts := fun e he => h.posts e ((List.eraseIdx_sublist _ _).subset he) }
  | request req =>
    obtain rfl := Option.some.inj hs
    exact h.serve req fun event hevent => heard_other hevent (hg.1 event hevent) hg.2
  | connect env req =>
    simp only [machine] at hs
    split at hs
    · exact absurd hs (by simp)
    · obtain rfl := Option.some.inj hs
      exact h.connect env req
  | read =>
    obtain ⟨l, hl, hs⟩ := Option.bind_eq_some_iff.mp hs
    obtain ⟨line, hline, hs⟩ := Option.bind_eq_some_iff.mp hs
    exact h.handle hl hline hs
  | hangUp =>
    obtain ⟨l, _, rfl⟩ := Option.map_eq_some_iff.mp hs
    exact h.cutOff l
  | beach act =>
    have go : ∀ act, (∀ v, act ≠ .checkIn v) →
        ((Beach.machine s.beach act).map fun beach => { s with beach := beach }) = some s' →
        Journey x beach₀ s' := by
      intro act hne hs
      obtain ⟨beach, hb, rfl⟩ := Option.map_eq_some_iff.mp hs
      exact h.beach hb hne
    cases act with
    | checkIn v => exact absurd hs (by simp [machine])
    | arrive call => exact go (.arrive call) (by simp) hs
    | go i => exact go (.go i) (by simp) hs

end

/-! ## the law -/

theorem vouching_init (cfg : Airport.Config) : (Airport.State.init cfg).shared.Vouching := by
  have hrows : ∀ (f : Nat → String) (type : Airport.GateType) (l : List Nat) (w : Airport.World),
      (l.foldl (fun w i => w.register cfg (f i) type) w).rows = w.rows := by
    intro f type l
    induction l with
    | nil => exact fun w => rfl
    | cons i l ih => exact fun w => ih _
  intro k hk
  have hnone : (Airport.State.init cfg).shared.rows = [] :=
    (hrows _ _ _ _).trans (hrows _ _ _ _)
  rw [Airport.World.statusOf, hnone] at hk
  exact absurd hk (by simp)

theorem journey_init (x : Outside) (hotel : Hotel.Db) {beach : Beach.Db} (h : beach.Admitted) :
    Journey x beach (State.init x hotel beach) where
  vouching := vouching_init x.cfg
  answers a ha := absurd ha (by simp [State.init])
  placed i t ht := absurd ht (by simp [State.init, Hotel.State.init])
  honest i t ht := absurd ht (by simp [State.init, Hotel.State.init])
  passed i t ht := absurd ht (by simp [State.init, Hotel.State.init])
  confirmed e he := absurd he (by simp [State.init, Hotel.State.init])
  posts e he := absurd he (by simp [State.init])
  streams := Broadcast.tells_empty
  attached l hl := absurd hl (by simp [State.init])
  booked := Beach.admitted_init h
  visitors v hv := .inl hv

/-- **A booking at the beach goes back to the hotel, and to the airport.**  In any interleaving of the
airport, the hotel, the broadcast service and the beach, where posts may be lost and overtaken and the
listener may come and go, while nobody else posts to the hotel's routes: whoever has a place in an
activity is checked in; and whoever was not so at the start has a reservation in the hotel's table that
the hotel has confirmed, and unless the airport named no status, the guest whom it was asked about had
cleared control then: the same one, if the id is plain. -/
theorem booked_vouched (x : Outside) (hotel : Hotel.Db) (beach : Beach.Db) (hbeach : beach.Admitted)
    (acts : List Act) (s : State)
    (hrun : (machine x).Runs (HotelOnly x) (State.init x hotel beach) acts s) :
    ∀ p ∈ s.beach.db.bookings, s.beach.db.CheckedIn p.2 ∧ (beach.CheckedIn p.2 ∨
      ∃ e ∈ s.hotel.published, e.type = .ReservationConfirmed ∧ e.guest_id = p.2 ∧
        (∃ r ∈ s.hotel.db.reservations, r.id = e.reservation_id ∧ r.guest_id = p.2) ∧
        (p.2 ∈ s.silent ∨ ∃ id ∈ x.asked p.2, s.airport.shared.Cleared id ∧
          (Hotel.Plain p.2 → id = p.2))) := by
  have hs : Journey x beach s :=
    hrun.inv (fun _ _ _ h hg hm => h.step hg hm) (journey_init x hotel hbeach)
  intro p hp
  have hin := hs.booked.db p hp
  refine ⟨hin, (hs.visitors p.2 hin).imp id ?_⟩
  rintro ⟨e, he, htype, hguest⟩
  obtain ⟨⟨r, hr, hid, hrg⟩, hadm⟩ := hs.confirmed e he htype
  rw [hguest] at hrg hadm
  refine ⟨e, he, htype, hguest, ⟨r, hr, hid, hrg⟩, hadm.imp id ?_⟩
  rintro ⟨id, hasked, hc⟩
  exact ⟨id, hasked, hc, fun hplain => Option.some.inj (hasked.symm.trans (asked_plain x hplain))⟩

/-! ## a guest who takes the whole way -/

def anaConfirmed : Broadcast.IslandEvent where
  id := "event-1"
  channel := .Hotel
  event_type := .HOTEL_CONFIRM
  message := "Hotel reservation confirmed."
  sender := "hotel"
  guest_id := some "ana"
  guest_name := none
  data := some [("reservation_id", .str "r-0"), ("room_type", .str "STANDARD"), ("guest_count", .int 1),
    ("check_in_day", .int 1), ("check_out_day", .int 3)]

/-- the text of the event, between its braces -/
def anaConfirmedInner : List Char :=
  quoted "id" ++ ':' :: quoted "event-1" ++ ',' :: quoted "channel" ++ ':' :: quoted "hotel" ++
  ',' :: quoted "event_type" ++ ':' :: quoted "hotel.reservation_confirmed" ++
  ',' :: quoted "message" ++ ':' :: quoted "Hotel reservation confirmed." ++
  ',' :: quoted "sender" ++ ':' :: quoted "hotel" ++ ',' :: quoted "guest_id" ++ ':' :: quoted "ana" ++
  ',' :: quoted "data" ++ ':' :: '{' :: quoted "reservation_id" ++ ':' :: quoted "r-0" ++
  ',' :: quoted "room_type" ++ ':' :: quoted "STANDARD" ++ ',' :: quoted "guest_count" ++ ':' :: '1' ::
  ',' :: quoted "check_in_day" ++ ':' :: '1' :: ',' :: quoted "check_out_day" ++ [':', '3', '}']

def anaConfirmedText : List Char := '{' :: (anaConfirmedInner ++ ['}'])

def anaConfirmedParse (text : List Char) : Option Json :=
  if text = anaConfirmedText then some anaConfirmed.json else none

/-- `/arrivals/<guest_id>`, for the paths that are UTF-8 -/
def arrivalsRoute (path : Url.Bytes) : Option String :=
  if (Url.utf8 "/arrivals/").isPrefixOf path then
    (Url.ofUtf8 (path.drop 10)).filter fun id => id ≠ "" && !(Url.utf8 id).contains 47
  else none

theorem arrivalsRoute_arrivals (id : String) (hne : id ≠ "") (hslash : (47 : UInt8) ∉ Url.utf8 id) :
    arrivalsRoute (Url.utf8 ("/arrivals/" ++ id)) = some id := by
  have hdrop : (Url.utf8 "/arrivals/" ++ Url.utf8 id).drop 10 = Url.utf8 id := rfl
  rw [arrivalsRoute, Url.utf8_append,
    if_pos (List.isPrefixOf_iff_prefix.mpr (List.prefix_append _ _)), hdrop, Url.ofUtf8_utf8,
    Option.filter_some, if_pos (by simpa [hne] using hslash)]

def anaOutside : Outside where
  cfg := Airport.threeGates
  route := arrivalsRoute
  route_arrivals := arrivalsRoute_arrivals
  number := fun _ => "0"
  stringify
    | .obj (("id", .str "event-1") :: _) => String.ofList anaConfirmedText
    | _ => "null"
  parseToJsonElement := anaConfirmedParse

/-- ana clears control -/
def anaArrives : List Act :=
  Act.airport (.spawn (.assign ⟨"ana", "Ana", "Ionescu", 30, .EU, .standard, false⟩)) ::
    (List.replicate 3 (Act.airport (.step 0 ())) ++ List.replicate 6 (Act.airport (.env (.work 0))))

/-- the hotel asks about her, and confirms -/
def anaReserves : List Act :=
  [.hotel (.arrive (.create (Hotel.stay "ana" 1 3))), .answer 0 (.row 0), .hear 0, .hotel (.go 0),
   .hotel (.go 0), .hotel (.insert 0 "r-0"), .hotel (.go 0),
   .connect Broadcast.beachEnv Broadcast.beachRequest]

def anaBooks : List Act :=
  [.beach (.arrive (.book "surf" "ana")), .beach (.go 0), .beach (.go 0),
   .beach (.go 0), .beach (.go 0)]

theorem anaConfirmed_readable :
    Readable anaOutside.stringify anaConfirmedParse anaConfirmed.json := by
  have hchars : (anaOutside.stringify anaConfirmed.json).toList = anaConfirmedText :=
    String.toList_ofList
  constructor
  · rw [hchars]
    exact ⟨by decide +kernel, by decide +kernel⟩
  · rw [hchars]
    exact ⟨anaConfirmedInner, rfl⟩
  · rw [hchars]
    exact if_pos rfl

/-- nothing is posted and nothing is lost -/
def Act.quiet : Act → Bool
  | .deliver _ _ => false
  | .request _ => false
  | .lose _ => false
  | .hangUp => false
  | .connect env req => (Broadcast.identifyService env req).all fun identity =>
      .Hotel ∈ identity.allowedChannels
  | _ => true

theorem hotelOnly_of_quiet {x : Outside} (s : State) (act : Act) (h : act.quiet = true) :
    HotelOnly x s act := by
  cases act with
  | deliver k id => exact absurd h Bool.false_ne_true
  | request req => exact absurd h Bool.false_ne_true
  | _ => trivial

theorem read_none {x : Outside} {s : State} {l : Listener} {line : List Char} (hl : s.listener = some l)
    (hline : s.nextLine l = some line)
    (hnone : Kotlin.handleLine x.number x.parseToJsonElement line = .ok none) :
    machine x s .read = some { s with listener := some { l with line := l.line + 1 } } := by
  rw [machine, hl, Option.bind_some, hline, Option.bind_some, State.handle, hnone]

theorem read_some {x : Outside} {s : State} {l : Listener} {line : List Char} {guest : String}
    (hl : s.listener = some l) (hline : s.nextLine l = some line)
    (hsome : Kotlin.handleLine x.number x.parseToJsonElement line = .ok (some guest))
    (hguest : Column.varchar 50 guest = true) : machine x s .read = (Beach.machine s.beach (.checkIn guest)).map fun beach =>
      { s with beach := beach, listener := some { l with line := l.line + 1 } } := by
  rw [machine, hl, Option.bind_some, hline, Option.bind_some, State.handle, hsome]
  simp only [Beach.Sql.markCheckedIn_returns hguest]

def anaReservation : Hotel.HotelBroadcastEvent where
  type := .ReservationConfirmed
  message := "Hotel reservation confirmed."
  reservation_id := "r-0"
  guest_id := "ana"
  room_type := some .STANDARD
  guest_count := 1
  check_in_day := 1
  check_out_day := 3

/-- the post of the hotel is on its way, and the listener waits for it -/
structure Reserved (s : State) : Prop where
  listener : s.listener = some ⟨0, 0⟩
  beach : s.beach = .init Beach.quietDb
  silent : s.silent = []
  clients : s.bus.clients = [⟨0, [.Hotel]⟩]
  responses : s.bus.responses = [⟨200, [": connected\n\n"]⟩]
  posts : s.posts = [anaReservation]
  answered : ∃ r type, s.hotel.threads[0]? =
    some ⟨.create (Hotel.stay "ana" 1 3), .done (.reservation r type)⟩

theorem ana_reserved : ∃ s, (machine anaOutside).Runs (fun _ act => act.quiet = true)
      (.init anaOutside Hotel.oneRoomDb Beach.quietDb) (anaArrives ++ anaReserves) s ∧ Reserved s :=
  ⟨_, Machine.runs_iff_runG.mpr rfl, rfl, rfl, rfl, rfl, rfl, rfl, _, _, rfl⟩

/-- the bus writes the event to the listener -/
def State.delivered (s : State) : State := { s with
  posts := []
  bus := s.bus.broadcast anaOutside.stringify anaConfirmed }

theorem Reserved.deliver {s : State} (h : Reserved s) :
    machine anaOutside s (.deliver 0 "event-1") = some s.delivered ∧
      HotelOnly anaOutside s (.deliver 0 "event-1") := by
  have hpost : (postOf "event-1" anaReservation).event = some anaConfirmed := rfl
  constructor
  · rw [machine, h.posts]
    rfl
  · intro e he event hevent
    rw [h.posts] at he
    obtain rfl := Option.some.inj he
    obtain rfl := Option.some.inj (hpost.symm.trans hevent)
    exact anaConfirmed_readable

theorem Reserved.stream {s : State} (h : Reserved s) : s.delivered.bus.responses =
    [⟨200, ": connected\n\n" :: [anaConfirmed].map (Broadcast.frame anaOutside.stringify)⟩] := by
  show s.bus.clients.foldl _ s.bus.responses = _
  rw [h.clients, h.responses]
  rfl

/-- the listener has handled some lines -/
def State.at (s : State) (n : Nat) (beach : Beach.State) : State :=
  { s with listener := some ⟨0, n⟩, beach := beach }

/-- the listener reads the comment and the event, and checks her in; then she books -/
theorem booked_vouched_ana : ∃ s, (machine anaOutside).Runs (HotelOnly anaOutside)
      (.init anaOutside Hotel.oneRoomDb Beach.quietDb)
      (anaArrives ++ anaReserves ++ [Act.deliver 0 "event-1", .read, .read, .read] ++ anaBooks) s ∧
    s.beach.db.bookings = {("surf", "ana")} ∧ s.airport.shared.Cleared "ana" := by
  have hread := anaConfirmed_readable
  obtain ⟨s₀, hrun, hs₀⟩ := ana_reserved
  have hres := hs₀.stream
  have hsilent : s₀.delivered.silent = [] := hs₀.silent
  have hat : s₀.delivered = s₀.delivered.at 0 (.init Beach.quietDb) := by
    rw [State.at, ← hs₀.beach, ← hs₀.listener]
    rfl
  have hrun := (hrun.mono hotelOnly_of_quiet).snoc hs₀.deliver.2 hs₀.deliver.1
  generalize s₀.delivered = s at hrun hres hsilent hat
  have hline : ∀ (n : Nat) (beach : Beach.State), (s.at n beach).nextLine ⟨0, n⟩ =
      (Broadcast.streamLines anaOutside.stringify [anaConfirmed])[n]? := by
    intro n beach
    rw [State.nextLine, State.at, hres]
    show (Framing.lines _)[n]? = _
    rw [Broadcast.lines_stream anaOutside.stringify]
    intro event hevent
    rw [List.mem_singleton.mp hevent]
    exact hread.line
  have hguest := Broadcast.handleLine_event anaOutside.number anaOutside.stringify
    anaOutside.parseToJsonElement anaConfirmed_readable fun _ => by decide
  let beach := Beach.State.init Beach.quietDb
  have h₁ : machine anaOutside (s.at 0 beach) .read = some (s.at 1 beach) :=
    read_none rfl (hline 0 beach) rfl
  have h₂ : machine anaOutside (s.at 1 beach) .read = some (s.at 2 beach) :=
    read_none rfl (hline 1 beach) rfl
  have h₃ : machine anaOutside (s.at 2 beach) .read =
      some (s.at 3 (.init (Beach.quietDb.markCheckedIn "ana"))) :=
    read_some rfl (hline 2 beach) hguest (by decide)
  rw [hat] at hrun
  have hreads := ((hrun.snoc (a := Act.read) trivial h₁).snoc (a := Act.read) trivial h₂).snoc
    (a := Act.read) trivial h₃
  have hbooks : ∃ t, (machine anaOutside).Runs (fun _ act => act.quiet = true)
      (s.at 3 (.init (Beach.quietDb.markCheckedIn "ana"))) anaBooks t ∧ t.silent = s.silent ∧
      t.beach.db.bookings = {("surf", "ana")} :=
    ⟨_, Machine.runs_iff_runG.mpr rfl, rfl, rfl⟩
  obtain ⟨t, hrun', hsame, hbookings⟩ := hbooks
  have hrun := hreads.append (hrun'.mono hotelOnly_of_quiet)
  obtain ⟨_, hstart | ⟨e, _, _, _, _, hadm⟩⟩ := booked_vouched anaOutside Hotel.oneRoomDb Beach.quietDb
    (by decide) _ t hrun ("surf", "ana") (by rw [hbookings]; decide)
  · exact absurd hstart (by decide)
  · rw [hsame, hsilent] at hadm
    obtain ⟨id, _, hc, hplain⟩ := hadm.resolve_left List.not_mem_nil
    obtain rfl := hplain (by decide)
    exact ⟨t, hrun, hbookings, hc⟩

end Resort
