import Purrlington.Parrot.Requests

/-!
# Parrot: tool calls that the model writes wrong

The arguments of a tool call are a text of the model.  One that is not JSON stands for no arguments; one
that is JSON and no object cannot be passed to a tool.

* `Calls.executeTool`, `Calls.runOneTool`   the two with what they raise, for any text and any JSON value;
* `ArgumentsTaken`              when a call gets its message;
* `executeTool_obj`       a call with an object for arguments is one of the tools;
* `tool_call_answered_iff`  when `_run_one_tool` returns.
-/

namespace Parrot

/-- what `json.loads` raises: for a text that is not JSON, and for one whose numbers are too long or
whose nesting is too deep -/
inductive LoadsError where
  | jsonDecodeError
  | other
  deriving DecidableEq, Repr

/-- what `_run_one_tool` raises -/
inductive Raised where
  | loads
  | typeError
  deriving DecidableEq, Repr

namespace Calls

/-- `**arguments`: only an object can be unpacked -/
def unpack : Json → Except Raised (Dict String Json)
  | .obj members => .ok (Dict.ofList members)
  | _ => .error .typeError

section
variable (loads : String → Except LoadsError Json)
variable (service : Tool → Option Json → Except Failure String)
variable (showFloat : Rat → String)

/-- the lambdas of `_DISPATCH`; the guest-scoped ones take a `guest_id` and no other takes anything -/
def apply (tool : Tool) (arguments : Dict String Json) : Except Raised (Except Failure String) :=
  if tool ∈ guestToolSchemas then
    match arguments.get? "guest_id" with
    | some guest_id => .ok (service tool (some guest_id))
    | none => .error .typeError
  else .ok (service tool none)

/-- the text that a tool returns, or that of what it raises -/
def returned (name : String) : Except Failure String → String
  | .ok s => s
  | .error failure => outcome showFloat name (.error failure)

def executeTool (name : Option String) (arguments : Json) (allowed_guest_id : Option String) :
    Except Raised String :=
  match name.bind dispatch with
  | none => .ok (text showFloat (errorJson ("Unknown tool: " ++ name.getD "None")))
  | some tool =>
    if tool ∈ guestToolSchemas then
      match allowed_guest_id.filter (· ≠ "") with
      | none => .ok (text showFloat (errorJson "No guest is associated with this conversation"))
      | some guest_id => do
        let arguments ← unpack arguments
        let result ← apply service tool (arguments.set "guest_id" (.str guest_id))
        return returned showFloat (name.getD "None") result
    else do
      let arguments ← unpack arguments
      let result ← apply service tool arguments
      return returned showFloat (name.getD "None") result

/-- the arguments, where only `JSONDecodeError` is caught -/
def readArguments (arguments_str : String) : Except Raised Json :=
  if arguments_str = "" then .ok (.obj [])
  else match loads arguments_str with
    | .ok v => .ok v
    | .error .jsonDecodeError => .ok (.obj [])
    | .error .other => .error .loads

def runOneTool (call : ToolCall) (guest_id : Option String) : Except Raised Message := do
  let arguments ← readArguments loads call.arguments
  let result ← executeTool service showFloat call.name arguments guest_id
  return .tool call.id result

end

end Calls

/-- the tool is not called at all: its name is unknown, or it needs a guest and there is none -/
def Refused (name : Option String) (guest_id : Option String) : Prop :=
  ∀ tool, name.bind dispatch = some tool → tool ∈ guestToolSchemas ∧ guest_id.filter (· ≠ "") = none

/-- the text of the arguments is empty, is not JSON, or is JSON, and then an object unless the tool is
not called -/
def ArgumentsTaken (loads : String → Except LoadsError Json) (call : ToolCall) (guest_id : Option String) :
    Prop :=
  call.arguments = "" ∨ loads call.arguments = .error .jsonDecodeError ∨
    ∃ v, loads call.arguments = .ok v ∧ ((∃ members, v = .obj members) ∨ Refused call.name guest_id)

section
variable {loads : String → Except LoadsError Json}
variable {service : Tool → Option Json → Except Failure String}
variable {showFloat : Rat → String}

open Calls

/-- with the id of the session merged in, or for a tool that takes nothing, a tool does not raise
`TypeError` -/
theorem apply_of_guest {tool : Tool} (h : tool ∈ guestToolSchemas) (arguments : Dict String Json)
    (guest_id : String) :
    Calls.apply service tool (arguments.set "guest_id" (.str guest_id)) =
      .ok (service tool (some (.str guest_id))) := by
  rw [Calls.apply, if_pos h, Dict.get?_set_self]

theorem apply_of_other {tool : Tool} (h : tool ∉ guestToolSchemas) (arguments : Dict String Json) :
    Calls.apply service tool arguments = .ok (service tool none) := by
  rw [Calls.apply, if_neg h]

theorem executeTool_refused {name guest_id : Option String} (h : Refused name guest_id)
    (arguments : Json) : ∃ s, Calls.executeTool service showFloat name arguments guest_id = .ok s := by
  rw [Calls.executeTool]
  cases hd : name.bind dispatch with
  | none => exact ⟨_, rfl⟩
  | some tool =>
    obtain ⟨hscoped, hnone⟩ := h tool hd
    dsimp only
    rw [if_pos hscoped, hnone]
    exact ⟨_, rfl⟩

theorem executeTool_called (service : Tool → Option Json → Except Failure String)
    (showFloat : Rat → String) {name guest_id : Option String} (h : ¬ Refused name guest_id) :
    ∃ tool g, name.bind dispatch = some tool ∧
      ∀ arguments, Calls.executeTool service showFloat name arguments guest_id =
        (unpack arguments).map fun _ => returned showFloat (name.getD "None") (service tool g) := by
  rw [Refused] at h
  push Not at h
  obtain ⟨tool, hd, hcalled⟩ := h
  by_cases hscoped : tool ∈ guestToolSchemas
  · obtain ⟨g, hg⟩ := Option.ne_none_iff_exists'.mp (hcalled hscoped)
    refine ⟨tool, some (.str g), hd, fun arguments => ?_⟩
    rw [Calls.executeTool, hd]
    dsimp only
    rw [if_pos hscoped, hg]
    cases hu : unpack arguments with
    | error e => rfl
    | ok members =>
      show (Calls.apply service tool (members.set "guest_id" (.str g)) >>= _) = _
      rw [apply_of_guest hscoped]
      rfl
  · refine ⟨tool, none, hd, fun arguments => ?_⟩
    rw [Calls.executeTool, hd]
    dsimp only
    rw [if_neg hscoped]
    cases hu : unpack arguments with
    | error e => rfl
    | ok members =>
      show (Calls.apply service tool members >>= _) = _
      rw [apply_of_other hscoped]
      rfl

/-- **`execute_tool` returns for an object, and for the rest only when it calls no tool.** -/
theorem executeTool_returns_iff (name guest_id : Option String) (v : Json) :
    (∃ s, Calls.executeTool service showFloat name v guest_id = .ok s) ↔
      (∃ members, v = .obj members) ∨ Refused name guest_id := by
  by_cases href : Refused name guest_id
  · exact iff_of_true (executeTool_refused href v) (.inr href)
  · obtain ⟨tool, g, -, hcall⟩ := executeTool_called service showFloat href
    rw [hcall v]
    constructor
    · rintro ⟨s, hs⟩
      refine .inl ?_
      cases v with
      | obj members => exact ⟨members, rfl⟩
      | null => cases hs
      | bool b => cases hs
      | int n => cases hs
      | float q => cases hs
      | str s => cases hs
      | arr vs => cases hs
    · rintro (⟨members, rfl⟩ | hr)
      · exact ⟨_, rfl⟩
      · exact absurd hr href

/-- the tools of the modelled services -/
def serve (showFloat : Rat → String) (services : Services) (tool : Tool) (guest_id : Option Json) :
    Except Failure String :=
  (tool.run services ((guest_id.map (fString fun _ => "")).getD "")).map (text showFloat)

theorem returned_serve (services : Services) (tool : Tool) (guest_id : Option Json) (name : String) :
    returned showFloat name (serve showFloat services tool guest_id) =
      outcome showFloat name
        (tool.run services ((guest_id.map (fString fun _ => "")).getD "")) := by
  rw [serve]
  cases tool.run services ((guest_id.map (fString fun _ => "")).getD "") with
  | ok v => rfl
  | error failure => rfl

/-- a call with an object for arguments is one of the tools as they are modelled for such calls -/
theorem executeTool_obj (services : Services) (name : String) (members : List (String × Json))
    (guest_id : Option String) :
    Calls.executeTool (serve showFloat services) showFloat (some name) (.obj members) guest_id =
      .ok (executeTool showFloat services name members guest_id) := by
  rw [Calls.executeTool, executeTool, Option.bind_some]
  cases dispatch name with
  | none => rfl
  | some tool =>
    dsimp only
    by_cases hscoped : tool ∈ guestToolSchemas
    · rw [if_pos hscoped, if_pos hscoped]
      cases guest_id.filter (· ≠ "") with
      | none => rfl
      | some g =>
        show (Calls.apply _ tool ((Dict.ofList members).set "guest_id" (.str g)) >>= _) = _
        rw [apply_of_guest hscoped]
        exact congrArg Except.ok (returned_serve services tool (some (.str g)) name)
    · rw [if_neg hscoped, if_neg hscoped]
      show (Calls.apply _ tool (Dict.ofList members) >>= _) = _
      rw [apply_of_other hscoped]
      exact congrArg Except.ok (returned_serve services tool none name)

theorem runOneTool_of_read {call : ToolCall} {guest_id : Option String} {v : Json}
    (h : Calls.readArguments loads call.arguments = .ok v) :
    (∃ content, runOneTool loads service showFloat call guest_id = .ok (.tool call.id content)) ↔
      ∃ s, Calls.executeTool service showFloat call.name v guest_id = .ok s := by
  have hrun : runOneTool loads service showFloat call guest_id =
      (Calls.executeTool service showFloat call.name v guest_id).map (.tool call.id) := by
    rw [runOneTool, h]
    rfl
  rw [hrun]
  cases Calls.executeTool service showFloat call.name v guest_id with
  | error e =>
    refine iff_of_false ?_ ?_
    · rintro ⟨content, hcontent⟩
      cases hcontent
    · rintro ⟨s, hs⟩
      cases hs
  | ok s => exact iff_of_true ⟨s, rfl⟩ ⟨s, rfl⟩

/-- **A tool call gets its message** exactly when its arguments can be read and passed on: they are
empty, are not JSON, or are an object, or JSON of any kind for a tool that is not called. -/
theorem tool_call_answered_iff (loads : String → Except LoadsError Json)
    (service : Tool → Option Json → Except Failure String) (showFloat : Rat → String)
    (call : ToolCall) (guest_id : Option String) :
    (∃ content, runOneTool loads service showFloat call guest_id = .ok (.tool call.id content)) ↔
      ArgumentsTaken loads call guest_id := by
  by_cases hempty : call.arguments = ""
  · have hread : Calls.readArguments loads call.arguments = .ok (.obj []) := if_pos hempty
    rw [runOneTool_of_read hread, executeTool_returns_iff]
    exact iff_of_true (.inl ⟨[], rfl⟩) (.inl hempty)
  · rw [ArgumentsTaken, or_iff_right hempty]
    cases hloads : loads call.arguments with
    | ok v =>
      have hread : Calls.readArguments loads call.arguments = .ok v := by
        rw [Calls.readArguments, if_neg hempty, hloads]
      rw [runOneTool_of_read hread, executeTool_returns_iff]
      constructor
      · exact fun h => .inr ⟨v, rfl, h⟩
      · rintro (h | ⟨v', hv', h⟩)
        · cases h
        · cases hv'
          exact h
    | error e =>
      cases e with
      | jsonDecodeError =>
        have hread : Calls.readArguments loads call.arguments = .ok (.obj []) := by
          rw [Calls.readArguments, if_neg hempty, hloads]
        rw [runOneTool_of_read hread, executeTool_returns_iff]
        exact iff_of_true (.inl ⟨[], rfl⟩) (.inl rfl)
      | other =>
        have hraise : runOneTool loads service showFloat call guest_id = .error .loads := by
          rw [runOneTool, Calls.readArguments, if_neg hempty, hloads]
          rfl
        rw [hraise]
        refine iff_of_false ?_ ?_
        · rintro ⟨content, hcontent⟩
          cases hcontent
        · rintro (h | ⟨v, hv, -⟩)
          · cases h
          · cases hv

end

/-- a reader of JSON that knows one text -/
def loadsNull (s : String) : Except LoadsError Json :=
  if s = "null" then .ok .null else .error .jsonDecodeError

/-- **`null` for the arguments of a tool without parameters**: it is JSON, it is no object, and the call
raises `TypeError`. -/
theorem null_arguments_raise : ¬ ∀ (service : Tool → Option Json → Except Failure String)
    (call : ToolCall) (guest_id : Option String), ∃ content,
      Calls.runOneTool loadsNull service integral call guest_id = .ok (.tool call.id content) := by
  intro h
  obtain ⟨content, hcontent⟩ := h (fun _ _ => .ok "") ⟨"call_1", some "get_hotel_rooms", "null"⟩ none
  have hraise : Calls.runOneTool loadsNull (fun _ _ => .ok "") integral
      ⟨"call_1", some "get_hotel_rooms", "null"⟩ none = .error .typeError := rfl
  rw [hraise] at hcontent
  cases hcontent

end Parrot
