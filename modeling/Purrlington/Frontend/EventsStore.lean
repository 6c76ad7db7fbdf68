import Purrlington.Lib.Json
import Mathlib.Logic.Function.Basic
import Mathlib.Data.List.Induction

/-!
# Frontend: the events store

The feeds of the zones, as `ingestEvent` and `clearEvents` change them; a call of `ingestEvent` comes
with the ids that `crypto.randomUUID` returns in it, one for each channel that may need one.

* `ingestEvent`, `clearEvents`   as in events-store.ts;
* `routedTo`              the event that a call adds to a channel;
* `step_events`, `step_tick`   what a call does to one channel;
* `feed_spec`             every feed after any calls: the newest events since its last clear.
-/

namespace Frontend

inductive ChannelId where
  | Airport | Hotel | Beach | Crab | Parrot | Broadcast | ResortWide
  deriving DecidableEq, Repr

structure BroadcastEvent where
  id : String
  channel : ChannelId
  event_type : String
  message : String
  sender : String
  guest_id : Option String
  guest_name : Option String
  data : Option (List (String × Json))

def MAX_EVENTS : Nat := 100

def ADMIN_ANNOUNCEMENT_EVENT_TYPE : String := "admin.announcement"

def ALL_CHANNELS : List ChannelId :=
  [.Airport, .Hotel, .Beach, .Crab, .Parrot, .Broadcast, .ResortWide]

structure IngestEventOptions where
  mirrorToResortWide : Option Bool
  deriving DecidableEq, Repr

structure EventsState where
  events : ChannelId → List BroadcastEvent
  activityTick : ChannelId → Nat

def createEmpty : EventsState := ⟨fun _ => [], fun _ => 0⟩

def prependEvent (events : List BroadcastEvent) (event : BroadcastEvent) : List BroadcastEvent :=
  let next := event :: events
  if next.length > MAX_EVENTS then next.take MAX_EVENTS else next

/-- put the event on the feed of a channel, both as they are in `state`, and count it -/
def EventsState.add (next state : EventsState) (channel : ChannelId) (event : BroadcastEvent) :
    EventsState :=
  ⟨Function.update next.events channel (prependEvent (state.events channel) event),
    Function.update next.activityTick channel (state.activityTick channel + 1)⟩

/-- the copy of an event for another channel -/
def BroadcastEvent.copyTo (event : BroadcastEvent) (id : String) (channel : ChannelId) :
    BroadcastEvent := { event with id, channel }

/-- `options?.mirrorToResortWide && event.channel !== ChannelId.ResortWide` -/
def shouldMirror (event : BroadcastEvent) (options : Option IngestEventOptions) : Prop :=
  (options.bind IngestEventOptions.mirrorToResortWide).getD false = true ∧
    event.channel ≠ .ResortWide

instance (event : BroadcastEvent) (options : Option IngestEventOptions) :
    Decidable (shouldMirror event options) := inferInstanceAs (Decidable (_ ∧ _))

def ingestEvent (state : EventsState) (event : BroadcastEvent) (options : Option IngestEventOptions)
    (randomUUID : ChannelId → String) : EventsState :=
  if event.event_type = ADMIN_ANNOUNCEMENT_EVENT_TYPE then
    ALL_CHANNELS.foldl
      (fun next channel => next.add state channel (event.copyTo (randomUUID channel) channel)) state
  else
    let next := state.add state event.channel event
    if shouldMirror event options then
      next.add state .ResortWide (event.copyTo (randomUUID .ResortWide) .ResortWide)
    else next

def clearEvents (state : EventsState) (channel : ChannelId) : EventsState :=
  { state with events := Function.update state.events channel [] }

/-! ## histories -/

inductive StoreCall where
  | ingest (event : BroadcastEvent) (options : Option IngestEventOptions)
      (randomUUID : ChannelId → String)
  | clear (channel : ChannelId)

def EventsState.step (state : EventsState) : StoreCall → EventsState
  | .ingest event options randomUUID => ingestEvent state event options randomUUID
  | .clear channel => clearEvents state channel

def EventsState.run (state : EventsState) (calls : List StoreCall) : EventsState :=
  calls.foldl EventsState.step state

/-- the event that a call routes to a channel: to its own channel, to resort-wide as well when it is
mirrored and not there already, and an admin announcement to every channel -/
def routedTo (c : ChannelId) : StoreCall → Option BroadcastEvent
  | .ingest event options randomUUID =>
    if event.event_type = ADMIN_ANNOUNCEMENT_EVENT_TYPE then some (event.copyTo (randomUUID c) c)
    else if event.channel = c then some event
    else if shouldMirror event options ∧ c = .ResortWide then
      some (event.copyTo (randomUUID .ResortWide) .ResortWide)
    else none
  | .clear _ => none

def clears (c : ChannelId) : StoreCall → Bool
  | .ingest _ _ _ => false
  | .clear channel => channel = c

/-- the events routed to the channel since its last clear, the newest first -/
def routedSince (c : ChannelId) (calls : List StoreCall) : List BroadcastEvent :=
  (calls.reverse.takeWhile fun call => !clears c call).filterMap (routedTo c)

section
variable {c : ChannelId}

theorem routedTo_channel {call : StoreCall} {event : BroadcastEvent}
    (h : routedTo c call = some event) : event.channel = c := by
  cases call with
  | clear channel => exact absurd h.symm (Option.some_ne_none event)
  | ingest e options randomUUID =>
    rw [routedTo] at h
    split at h
    · obtain rfl := Option.some.inj h
      rfl
    · split at h
      · rename_i hc
        obtain rfl := Option.some.inj h
        exact hc
      · split at h
        · rename_i hm
          obtain rfl := Option.some.inj h
          exact hm.2.symm
        · exact absurd h.symm (Option.some_ne_none event)

/-! ## one call -/

theorem mem_ALL_CHANNELS (c : ChannelId) : c ∈ ALL_CHANNELS := by
  cases c <;> decide

section
variable (next state : EventsState) (event : BroadcastEvent)

theorem add_self (c : ChannelId) :
    (next.add state c event).events c = prependEvent (state.events c) event ∧
      (next.add state c event).activityTick c = state.activityTick c + 1 :=
  ⟨Function.update_self .., Function.update_self ..⟩

theorem add_ne {channel : ChannelId} (h : c ≠ channel) :
    (next.add state channel event).events c = next.events c ∧
      (next.add state channel event).activityTick c = next.activityTick c :=
  ⟨Function.update_of_ne h .., Function.update_of_ne h ..⟩

end

theorem foldl_add (state : EventsState) (f : ChannelId → BroadcastEvent) {channels : List ChannelId}
    (hc : c ∈ channels) (next : EventsState) :
    (channels.foldl (fun next channel => next.add state channel (f channel)) next).events c =
        prependEvent (state.events c) (f c) ∧
      (channels.foldl (fun next channel => next.add state channel (f channel)) next).activityTick c =
        state.activityTick c + 1 := by
  induction channels using List.reverseRecOn generalizing next with
  | nil => exact absurd hc List.not_mem_nil
  | append_singleton channels channel ih =>
    rw [List.foldl_concat]
    by_cases e : c = channel
    · subst e
      exact add_self _ state (f c) c
    · rw [(add_ne _ state _ e).1, (add_ne _ state _ e).2]
      refine ih ?_ next
      rcases List.mem_append.mp hc with hc | hc
      · exact hc
      · exact absurd (List.mem_singleton.mp hc) e

theorem step_routed {call : StoreCall} {event : BroadcastEvent} (h : routedTo c call = some event)
    (state : EventsState) :
    (state.step call).events c = prependEvent (state.events c) event ∧
      (state.step call).activityTick c = state.activityTick c + 1 := by
  cases call with
  | clear channel => exact absurd h.symm (Option.some_ne_none event)
  | ingest e options randomUUID =>
    rw [routedTo] at h
    rw [EventsState.step, ingestEvent]
    split at h
    · rename_i hadmin
      obtain rfl := Option.some.inj h
      rw [if_pos hadmin]
      exact foldl_add state (fun channel => e.copyTo (randomUUID channel) channel)
        (mem_ALL_CHANNELS c) state
    · rename_i hadmin
      rw [if_neg hadmin]
      split at h
      · rename_i hc
        obtain rfl := Option.some.inj h
        subst hc
        dsimp only
        split
        · -- the mirror is another channel
          rename_i hm
          rw [(add_ne _ state _ hm.2).1, (add_ne _ state _ hm.2).2]
          exact add_self state state e e.channel
        · exact add_self state state e e.channel
      · split at h
        · rename_i hm
          obtain ⟨hm, rfl⟩ := hm
          obtain rfl := Option.some.inj h
          dsimp only
          rw [if_pos hm]
          exact add_self _ state _ .ResortWide
        · exact absurd h.symm (Option.some_ne_none event)

theorem step_unrouted {call : StoreCall} (h : routedTo c call = none) (state : EventsState) :
    (state.step call).events c = (if clears c call then [] else state.events c) ∧
      (state.step call).activityTick c = state.activityTick c := by
  cases call with
  | clear channel =>
    refine ⟨?_, rfl⟩
    show Function.update state.events channel [] c = _
    by_cases e : channel = c
    · subst e
      rw [Function.update_self]
      exact (if_pos (decide_eq_true rfl)).symm
    · rw [Function.update_of_ne (Ne.symm e), if_neg (by simpa [clears] using e)]
  | ingest e options randomUUID =>
    rw [routedTo] at h
    split at h
    · exact absurd h (Option.some_ne_none _)
    · rename_i hadmin
      split at h
      · exact absurd h (Option.some_ne_none _)
      · rename_i hc
        split at h
        · exact absurd h (Option.some_ne_none _)
        · rename_i hm
          rw [EventsState.step, ingestEvent, if_neg hadmin]
          show _ = state.events c ∧ _
          dsimp only
          split
          · rename_i hmirror
            have hwide : c ≠ .ResortWide := fun e => hm ⟨hmirror, e⟩
            rw [(add_ne _ state _ hwide).1, (add_ne _ state _ hwide).2]
            exact add_ne state state e (Ne.symm hc)
          · exact add_ne state state e (Ne.symm hc)

end

/-! ## every history -/

theorem prependEvent_eq (events : List BroadcastEvent) (event : BroadcastEvent) :
    prependEvent events event = (event :: events).take MAX_EVENTS := by
  unfold prependEvent
  dsimp only
  split
  · rfl
  · rename_i h
    exact (List.take_of_length_le (Nat.not_lt.mp h)).symm

theorem prependEvent_take (l : List BroadcastEvent) (event : BroadcastEvent) :
    prependEvent (l.take MAX_EVENTS) event = (event :: l).take MAX_EVENTS := by
  rw [prependEvent_eq]
  show event :: (l.take MAX_EVENTS).take 99 = event :: l.take 99
  rw [List.take_take]
  rfl

/-- **The event feed.**  After any calls from the empty store, and for every channel: its feed is the
newest at most 100 events routed to it since its last clear, the newest first; every stored event has
that channel; and its tick is the number of events ever routed to it. -/
theorem feed_spec (calls : List StoreCall) (c : ChannelId) :
    (createEmpty.run calls).events c = (routedSince c calls).take MAX_EVENTS ∧
      (∀ event ∈ (createEmpty.run calls).events c, event.channel = c) ∧
      (createEmpty.run calls).activityTick c = calls.countP fun call => (routedTo c call).isSome := by
  have hfeed : (createEmpty.run calls).events c = (routedSince c calls).take MAX_EVENTS ∧
      (createEmpty.run calls).activityTick c =
        calls.countP fun call => (routedTo c call).isSome := by
    induction calls using List.reverseRecOn with
    | nil => exact ⟨rfl, rfl⟩
    | append_singleton calls call ih =>
      have hrun : createEmpty.run (calls ++ [call]) = (createEmpty.run calls).step call :=
        List.foldl_concat ..
      rw [hrun, List.countP_append, List.countP_singleton, ← ih.2]
      unfold routedSince at ih ⊢
      rw [List.reverse_concat]
      cases hr : routedTo c call with
      | some event =>
        have hclear : clears c call = false := by
          cases call with
          | clear channel => exact absurd hr.symm (Option.some_ne_none event)
          | ingest e options randomUUID => rfl
        rw [(step_routed hr _).1, (step_routed hr _).2, ih.1, prependEvent_take,
          List.takeWhile_cons_of_pos (by rw [hclear]; rfl), List.filterMap_cons_some hr]
        exact ⟨rfl, rfl⟩
      | none =>
        rw [(step_unrouted hr _).1, (step_unrouted hr _).2, ih.1]
        cases hclear : clears c call with
        | true =>
          rw [List.takeWhile_cons_of_neg (by rw [hclear]; exact Bool.false_ne_true)]
          exact ⟨rfl, rfl⟩
        | false =>
          rw [List.takeWhile_cons_of_pos (by rw [hclear]; rfl), List.filterMap_cons_none hr]
          exact ⟨rfl, rfl⟩
  refine ⟨hfeed.1, ?_, hfeed.2⟩
  intro event hevent
  rw [hfeed.1] at hevent
  obtain ⟨call, _, hcall⟩ := List.mem_filterMap.mp (List.mem_of_mem_take hevent)
  exact routedTo_channel hcall

end Frontend
