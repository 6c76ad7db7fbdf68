import Purrlington.Parrot.Admin

/-!
# Parrot: the admin transcript

* `normalizeMessage`, `normalizeTranscript`   as in admin.py;
* `currentGroup`          the names by call id that hold after some messages;
* `getElem?_normalizeTranscript`   each row is its message with the names that hold there;
* `OwnGroup`              the call group of a tool message;
* `transcript_names`      every tool row has the name of its call in its own group.
-/

set_option linter.unusedSectionVars false

namespace Parrot

structure NormalCall where
  id : Option String
  name : Option String
  arguments : Option String
  deriving DecidableEq

/-- a row; a key that the row lacks is `none`, and a key whose value is null is `some none` -/
structure TranscriptRow where
  role : Option String
  content : Json
  tool_calls : Option (List NormalCall)
  tool_call_id : Option (Option String)
  name : Option (Option String)

def normalizeMessage (m : MessageDict) (id_to_name : Dict String String) : TranscriptRow :=
  { role := m.role
    content := m.content
    tool_calls :=
      if m.calls ≠ [] then
        some (m.calls.map fun tc => ⟨tc.id, tc.name, tc.function.bind FunctionDict.arguments⟩)
      else none
    tool_call_id := if m.role = some "tool" then some m.tool_call_id else none
    name := if m.role = some "tool" then some (m.tool_call_id.bind id_to_name.get?) else none }

/-- a call enters the map if it has an id and a name -/
def nameCall (d : Dict String String) (tc : CallDict) : Dict String String :=
  match tc.id, tc.name with
  | some tcid, some name => d.set tcid name
  | _, _ => d

/-- the map after a message -/
def regroup (current_group : Dict String String) (m : MessageDict) : Dict String String :=
  if m.calls ≠ [] then m.calls.foldl nameCall .empty else current_group

def normalizeTranscript (messages : List MessageDict) : List TranscriptRow :=
  (messages.foldl (fun (out, current_group) m =>
    let current_group := regroup current_group m
    (out ++ [normalizeMessage m current_group], current_group)) ([], .empty)).1

/-! ## the rows -/

/-- the map after these messages -/
def currentGroup (ms : List MessageDict) : Dict String String := ms.foldl regroup .empty

theorem normalizeTranscript_fold (ms : List MessageDict) :
    (ms.foldl (fun (out, current_group) m =>
        let current_group := regroup current_group m
        (out ++ [normalizeMessage m current_group], current_group))
      (([], .empty) : List TranscriptRow × Dict String String)).2 = currentGroup ms := by
  induction ms using List.reverseRecOn with
  | nil => rfl
  | append_singleton ms m ih =>
    rw [List.foldl_concat, currentGroup, List.foldl_concat]
    exact congrArg (regroup · m) ih

theorem normalizeTranscript_snoc (ms : List MessageDict) (m : MessageDict) :
    normalizeTranscript (ms ++ [m]) =
      normalizeTranscript ms ++ [normalizeMessage m (currentGroup (ms ++ [m]))] := by
  have hgroup : currentGroup (ms ++ [m]) = regroup (currentGroup ms) m := List.foldl_concat ..
  rw [hgroup, ← normalizeTranscript_fold]
  unfold normalizeTranscript
  rw [List.foldl_concat]

theorem length_normalizeTranscript (ms : List MessageDict) :
    (normalizeTranscript ms).length = ms.length := by
  induction ms using List.reverseRecOn with
  | nil => rfl
  | append_singleton ms m ih =>
    rw [normalizeTranscript_snoc, List.length_append, List.length_append, ih]
    rfl

theorem getElem?_normalizeTranscript (ms : List MessageDict) (i : Nat) :
    (normalizeTranscript ms)[i]? =
      ms[i]?.map fun m => normalizeMessage m (currentGroup (ms.take (i + 1))) := by
  induction ms using List.reverseRecOn with
  | nil => rfl
  | append_singleton ms m ih =>
    have hlen := length_normalizeTranscript ms
    rw [normalizeTranscript_snoc]
    rcases Nat.lt_trichotomy i ms.length with hi | rfl | hi
    · rw [List.getElem?_append_left (by omega), List.getElem?_append_left hi, ih,
        List.take_append_of_le_length hi]
    · rw [← hlen, List.getElem?_concat_length, hlen, List.getElem?_concat_length,
        List.take_of_length_le (by rw [List.length_append]; rfl)]
      rfl
    · rw [List.getElem?_eq_none (by rw [List.length_append, hlen]; exact hi),
        List.getElem?_eq_none (by rw [List.length_append]; exact hi)]
      rfl

/-! ## call groups -/

/-- a tool message, which makes no calls itself -/
def MessageDict.isTool (m : MessageDict) : Prop := m.role = some "tool" ∧ m.calls = []

/-- the calls of the message before `i` from which there are only tool messages up to `i` -/
def OwnGroup (msgs : List MessageDict) (i : Nat) (calls : List CallDict) : Prop :=
  ∃ j m, j < i ∧ msgs[j]? = some m ∧ m.role = some "assistant" ∧ m.calls = calls ∧ calls ≠ [] ∧
    ∀ k, j < k → k < i → ∀ m', msgs[k]? = some m' → m'.isTool

/-- each tool message follows its group, and the ids of a group are distinct -/
structure Grouped (msgs : List MessageDict) : Prop where
  follows : ∀ i m, msgs[i]? = some m → m.isTool → ∃ calls id call, OwnGroup msgs i calls ∧
    m.tool_call_id = some id ∧ call ∈ calls ∧ call.id = some id
  distinct : ∀ m ∈ msgs, (m.calls.filterMap CallDict.id).Nodup

section
variable {d : Dict String String} {calls : List CallDict} {id : String}

theorem get?_nameCall_ne {tc : CallDict} (h : tc.id ≠ some id) : (nameCall d tc).get? id = d.get? id := by
  unfold nameCall
  split
  · rename_i tcid name hid _
    exact Dict.get?_set_ne d (fun e => h (hid.trans (congrArg some e.symm))) name
  · rfl

theorem get?_nameCalls_ne (h : ∀ tc ∈ calls, tc.id ≠ some id) :
    (calls.foldl nameCall d).get? id = d.get? id := by
  induction calls generalizing d with
  | nil => rfl
  | cons tc calls ih =>
    rw [List.foldl_cons, ih fun x hx => h x (List.mem_cons_of_mem _ hx),
      get?_nameCall_ne (h tc List.mem_cons_self)]

theorem get?_nameCall_self {tc : CallDict} (hid : tc.id = some id) (hd : d.get? id = none) :
    (nameCall d tc).get? id = tc.name := by
  unfold nameCall
  rw [hid]
  cases tc.name with
  | none => exact hd
  | some name => exact Dict.get?_set_self d id name

/-- in a group with distinct ids no call before or after has the id of a call -/
theorem split_group (h : (calls.filterMap CallDict.id).Nodup) {call : CallDict} (hcall : call ∈ calls)
    (hid : call.id = some id) : ∃ before later, calls = before ++ call :: later ∧
      (∀ tc ∈ before, tc.id ≠ some id) ∧ ∀ tc ∈ later, tc.id ≠ some id := by
  obtain ⟨before, later, rfl⟩ := List.append_of_mem hcall
  rw [List.filterMap_append, List.filterMap_cons_some hid, List.nodup_append, List.nodup_cons] at h
  obtain ⟨-, ⟨hlater, -⟩, hdisj⟩ := h
  refine ⟨before, later, rfl, fun tc htc e => ?_, fun tc htc e => ?_⟩
  · exact hdisj id (List.mem_filterMap.mpr ⟨tc, htc, e⟩) id List.mem_cons_self rfl
  · exact hlater (List.mem_filterMap.mpr ⟨tc, htc, e⟩)

theorem get?_nameCalls (h : (calls.filterMap CallDict.id).Nodup) {call : CallDict}
    (hcall : call ∈ calls) (hid : call.id = some id) :
    (calls.foldl nameCall .empty).get? id = call.name := by
  obtain ⟨before, later, rfl, hbefore, hlater⟩ := split_group h hcall hid
  rw [List.foldl_append, List.foldl_cons, get?_nameCalls_ne hlater]
  exact get?_nameCall_self hid (get?_nameCalls_ne hbefore)

theorem eq_of_id (h : (calls.filterMap CallDict.id).Nodup) {call other : CallDict}
    (hcall : call ∈ calls) (hid : call.id = some id) (hother : other ∈ calls)
    (hoid : other.id = some id) : other = call := by
  obtain ⟨before, later, rfl, hbefore, hlater⟩ := split_group h hcall hid
  rcases List.mem_append.mp hother with hmem | hmem
  · exact absurd hoid (hbefore other hmem)
  · rcases List.mem_cons.mp hmem with e | hmem
    · exact e
    · exact absurd hoid (hlater other hmem)

end

section
variable {msgs : List MessageDict} {i : Nat}

theorem currentGroup_succ {m : MessageDict} (h : msgs[i]? = some m) :
    currentGroup (msgs.take (i + 1)) = regroup (currentGroup (msgs.take i)) m := by
  rw [List.take_add_one, h]
  exact List.foldl_concat ..

theorem currentGroup_own {calls : List CallDict} (h : OwnGroup msgs i calls) (hi : i < msgs.length) :
    currentGroup (msgs.take i) = calls.foldl nameCall .empty := by
  obtain ⟨j, a, hj, ha, -, hcalls, hne, htools⟩ := h
  induction i, Nat.succ_le_of_lt hj using Nat.le_induction with
  | base =>
    rw [Nat.succ_eq_add_one, currentGroup_succ ha, regroup, hcalls, if_pos hne]
  | succ k hk ih =>
    have hlt : k < msgs.length := Nat.lt_of_succ_lt hi
    have hget : msgs[k]? = some msgs[k] := List.getElem?_eq_getElem hlt
    have htool := htools k hk (Nat.lt_succ_self k) msgs[k] hget
    rw [currentGroup_succ hget, regroup, if_neg (not_not.mpr htool.2)]
    exact ih hlt hk fun k' h h' => htools k' h (Nat.lt_succ_of_lt h')

end

/-- **The admin transcript labels every tool result with its own call.**  The transcript has a row
for every message, with its role and content; and in a list in which every tool message follows its
group, the row of a tool message has the name of the call with its id in that group, however often the
id occurs in other groups. -/
theorem transcript_names (msgs : List MessageDict) :
    (normalizeTranscript msgs).map (fun row => (row.role, row.content)) =
        msgs.map (fun m => (m.role, m.content)) ∧
    (Grouped msgs → ∀ i m, msgs[i]? = some m → m.isTool →
      ∃ row calls call, (normalizeTranscript msgs)[i]? = some row ∧ OwnGroup msgs i calls ∧
        call ∈ calls ∧ call.id = m.tool_call_id ∧ row.name = some call.name ∧
        ∀ other ∈ calls, other.id = m.tool_call_id → other = call) := by
  constructor
  · refine List.ext_getElem? fun i => ?_
    rw [List.getElem?_map, List.getElem?_map, getElem?_normalizeTranscript, Option.map_map]
    rfl
  · intro h i m hm htool
    obtain ⟨calls, id, call, hown, hid, hcall, hcid⟩ := h.follows i m hm htool
    have hdistinct : (calls.filterMap CallDict.id).Nodup := by
      obtain ⟨j, a, _, ha, _, rfl, _⟩ := hown
      exact h.distinct a (List.mem_of_getElem? ha)
    have hlt : i < msgs.length := (List.getElem?_eq_some_iff.mp hm).1
    refine ⟨normalizeMessage m (currentGroup (msgs.take (i + 1))), calls, call, ?_, hown, hcall,
      hcid.trans hid.symm, ?_, ?_⟩
    · rw [getElem?_normalizeTranscript, hm]
      rfl
    · -- the tool message itself does not change the map
      rw [currentGroup_succ hm, regroup, if_neg (not_not.mpr htool.2), currentGroup_own hown hlt]
      unfold normalizeMessage
      dsimp only
      rw [if_pos htool.1, hid, Option.bind_some, get?_nameCalls hdistinct hcall hcid]
    · intro other hother hoid
      exact eq_of_id hdistinct hcall hcid hother (hoid.trans hid)

/-- two rounds of a stream, whose calls both have the id that is made up for them -/
def twoRounds : List MessageDict :=
  [Message.assistant none (some [⟨"call_0", some "get_hotel_rooms", ""⟩]), .tool "call_0" "[]",
    .assistant none (some [⟨"call_0", some "get_goats", ""⟩]), .tool "call_0" "[]"].map Message.dict

theorem grouped_twoRounds : Grouped twoRounds := by
  constructor
  · intro i m hm htool
    match i with
    | 0 =>
      obtain rfl := Option.some.inj hm
      exact absurd htool.1 (by decide)
    | 1 =>
      obtain rfl := Option.some.inj hm
      exact ⟨_, "call_0", _, ⟨0, _, Nat.zero_lt_one, rfl, rfl, rfl, by decide, by omega⟩, rfl,
        List.mem_singleton_self _, rfl⟩
    | 2 =>
      obtain rfl := Option.some.inj hm
      exact absurd htool.1 (by decide)
    | 3 =>
      obtain rfl := Option.some.inj hm
      exact ⟨_, "call_0", _, ⟨2, _, Nat.lt_succ_self 2, rfl, rfl, rfl, by decide, by omega⟩, rfl,
        List.mem_singleton_self _, rfl⟩
    | i + 4 => exact absurd hm (by simp [twoRounds])
  · intro m hm
    rcases List.mem_map.mp hm with ⟨x, hx, rfl⟩
    simp only [List.mem_cons, List.not_mem_nil, or_false] at hx
    rcases hx with rfl | rfl | rfl | rfl <;> decide

theorem transcript_names_twoRounds :
    ∃ row calls call, (normalizeTranscript twoRounds)[1]? = some row ∧ OwnGroup twoRounds 1 calls ∧
      call ∈ calls ∧ call.id = some "call_0" ∧ row.name = some call.name ∧
      ∀ other ∈ calls, other.id = some "call_0" → other = call :=
  (transcript_names twoRounds).2 grouped_twoRounds 1 _ rfl ⟨rfl, rfl⟩

end Parrot
