import Purrlington.Broadcast.CheckIn

/-!
# Broadcast: the stream line by line

* `streamLines`, `lines_stream`   the lines of a stream, from the events in it;
* `EventSource.messages`  the events that a browser dispatches for these lines;
* `messages_stream`       one message for each event, with its text as data.
-/

set_option linter.unusedSectionVars false

namespace Broadcast
open Framing

/-! ## lines -/

section
variable (stringify : Json → String)

def dataLine (event : IslandEvent) : List Char := "data: ".toList ++ (stringify event.json).toList

/-- the lines of a stream: a comment, and two lines for every event -/
def streamLines (events : List IslandEvent) : List (List Char) :=
  ": connected".toList :: [] :: events.flatMap fun event => [dataLine stringify event, []]

theorem drop_dataLine (event : IslandEvent) :
    (dataLine stringify event).drop 5 = ' ' :: (stringify event.json).toList := rfl

theorem oneLine_dataLine {event : IslandEvent} (h : OneLine (stringify event.json).toList) :
    OneLine (dataLine stringify event) := by
  constructor
  · intro hmem
    rcases List.mem_append.mp hmem with hmem | hmem
    · exact absurd hmem (by decide)
    · exact h.1 hmem
  · intro hmem
    rcases List.mem_append.mp hmem with hmem | hmem
    · exact absurd hmem (by decide)
    · exact h.2 hmem

theorem oneLine_nil : OneLine [] := by constructor <;> simp

theorem lines_frames {events : List IslandEvent}
    (h : ∀ event ∈ events, OneLine (stringify event.json).toList) :
    lines ((events.map (frame stringify)).flatMap String.toList) =
      events.flatMap fun event => [dataLine stringify event, []] := by
  induction events with
  | nil => rfl
  | cons event events ih =>
    rw [List.forall_mem_cons] at h
    have htext : (frame stringify event).toList =
        dataLine stringify event ++ '\n' :: ([] ++ ['\n']) := by
      rw [frame, String.toList_append, String.toList_append]
      rfl
    rw [List.map_cons, List.flatMap_cons, htext, List.append_assoc, List.cons_append,
      lines_cons (oneLine_dataLine stringify h.1), List.append_assoc, List.singleton_append,
      lines_cons oneLine_nil, ih h.2, List.flatMap_cons]
    rfl

theorem lines_stream {events : List IslandEvent} {status : Nat}
    (h : ∀ event ∈ events, OneLine (stringify event.json).toList) :
    lines (Response.text ⟨status, ": connected\n\n" :: events.map (frame stringify)⟩) =
      streamLines stringify events := by
  have hcomment : OneLine ": connected".toList := by constructor <;> decide
  have hchars : ": connected\n\n".toList = ": connected".toList ++ ['\n', '\n'] := by decide
  have htext : Response.text ⟨status, ": connected\n\n" :: events.map (frame stringify)⟩ =
      ": connected".toList ++ '\n' :: ([] ++ '\n' ::
        (events.map (frame stringify)).flatMap String.toList) := by
    rw [Response.text, List.flatMap_cons, hchars, List.append_assoc]
    rfl
  rw [htext, lines_cons hcomment, lines_cons oneLine_nil, lines_frames stringify h]
  rfl

end

/-! ## messages -/

namespace EventSource

/-- a line up to its first colon, and what comes after the colon without one leading blank -/
def field (line : List Char) : List Char × List Char :=
  (line.takeWhile (· ≠ ':'),
    match line.dropWhile (· ≠ ':') with
    | _ :: ' ' :: value => value
    | _ :: value => value
    | [] => [])

/-- the events for these lines, each with its type and its data; `type` and `data` are the buffers.
A comment is a field without a name, and `id` and `retry` have no effect here. -/
def messagesFrom (type data : List Char) : List (List Char) → List (List Char × List Char)
  | [] => []
  | line :: lines =>
    if line = [] then
      if data = [] then messagesFrom [] [] lines
      else (if type = [] then "message".toList else type, data.dropLast) :: messagesFrom [] [] lines
    else if (field line).1 = "event".toList then messagesFrom (field line).2 data lines
    else if (field line).1 = "data".toList then messagesFrom type (data ++ (field line).2 ++ ['\n']) lines
    else messagesFrom type data lines

def messages (text : List Char) : List (List Char × List Char) := messagesFrom [] [] (lines text)

end EventSource

section
variable (stringify : Json → String)

theorem dataLine_ne_nil (event : IslandEvent) : dataLine stringify event ≠ [] :=
  List.append_ne_nil_of_left_ne_nil (by decide) _

theorem messagesFrom_events (events : List IslandEvent) :
    EventSource.messagesFrom [] [] (events.flatMap fun event => [dataLine stringify event, []]) =
      events.map fun event => ("message".toList, (stringify event.json).toList) := by
  induction events with
  | nil => rfl
  | cons event events ih =>
    have hfield : EventSource.field (dataLine stringify event) =
        ("data".toList, (stringify event.json).toList) := rfl
    have hdata : "data".toList ≠ "event".toList := by decide
    rw [List.flatMap_cons, List.cons_append, List.singleton_append, EventSource.messagesFrom,
      if_neg (dataLine_ne_nil stringify event), hfield, if_neg hdata, if_pos rfl,
      EventSource.messagesFrom, if_pos rfl, if_neg (by simp), if_pos rfl, ih, List.nil_append,
      List.dropLast_concat, List.map_cons]

/-- a browser dispatches the events of a stream -/
theorem messages_stream {events : List IslandEvent} {status : Nat}
    (h : ∀ event ∈ events, OneLine (stringify event.json).toList) :
    EventSource.messages (Response.text ⟨status, ": connected\n\n" :: events.map (frame stringify)⟩) =
      events.map fun event => ("message".toList, (stringify event.json).toList) := by
  rw [EventSource.messages, lines_stream stringify h, streamLines]
  show EventSource.messagesFrom [] [] (events.flatMap _) = _
  exact messagesFrom_events stringify events

end
end Broadcast
