import Purrlington.Broadcast.CheckIn
import Purrlington.Lib.Decoder

/-!
# Broadcast: the stream as a reader decodes it

The reader of the route tests, over the UTF-16 code units of which its strings consist.

* `utf16`                 the code units of a text;
* `indexOfBlank`, `blocks`   blocks are separated by a blank line;
* `parseBlock`, `SseClient.ingest`   as in sse-client.ts;
* `ingest_flatten`        it does not matter in which chunks a text comes;
* `parse_frame`, `drain_frames`   a frame of the bus is one block, and an unnamed frame;
* `stream_decodes`        the stream of a client decodes to the events that it was sent.
-/

set_option linter.unusedSectionVars false

namespace Broadcast

/-! ## code units -/

/-- one code unit, or a surrogate pair -/
def units (c : Char) : List UInt16 :=
  if c.toNat < 0x10000 then [UInt16.ofNat c.toNat]
  else [UInt16.ofNat (0xD800 + (c.toNat - 0x10000) / 0x400),
    UInt16.ofNat (0xDC00 + (c.toNat - 0x10000) % 0x400)]

def utf16 (s : String) : List UInt16 := s.toList.flatMap units

theorem utf16_append (s t : String) : utf16 (s ++ t) = utf16 s ++ utf16 t := by
  rw [utf16, String.toList_append, List.flatMap_append]
  rfl

/-- white space and line terminators, each of which is one code unit -/
def isSpaceUnit (u : UInt16) : Bool :=
  u.toNat ∈ [9, 10, 11, 12, 13, 32, 160, 5760, 8232, 8233, 8239, 8287, 12288, 65279] ||
    decide (8192 ≤ u.toNat ∧ u.toNat ≤ 8202)

def trimUnits (s : List UInt16) : List UInt16 := Framing.strip isSpaceUnit s

theorem trimUnits_space {a b : UInt16} (ha : isSpaceUnit a = false) (hb : isSpaceUnit b = false)
    (s : List UInt16) : trimUnits (32 :: a :: (s ++ [b])) = a :: (s ++ [b]) :=
  Framing.strip_between (by decide) ha hb s

/-! ## blocks -/

/-- `indexOf("\n\n")` -/
def indexOfBlank : List UInt16 → Option Nat
  | [] => none
  | u :: rest => if [10, 10].isPrefixOf (u :: rest) then some 0 else (indexOfBlank rest).map (· + 1)

/-- the separator that is found lies in the buffer, and is found in a longer one as well -/
theorem indexOfBlank_append {buf : List UInt16} {k : Nat} (h : indexOfBlank buf = some k)
    (more : List UInt16) : k + 2 ≤ buf.length ∧ indexOfBlank (buf ++ more) = some k := by
  induction buf generalizing k with
  | nil => exact absurd h.symm (Option.some_ne_none k)
  | cons u rest ih =>
    rw [indexOfBlank] at h
    rw [List.cons_append, indexOfBlank]
    split at h
    · rename_i hpre
      obtain rfl := Option.some.inj h
      obtain ⟨t, ht⟩ := List.isPrefixOf_iff_prefix.mp hpre
      have hlong : [10, 10].isPrefixOf (u :: (rest ++ more)) = true :=
        List.isPrefixOf_iff_prefix.mpr ⟨t ++ more, by
          rw [← List.append_assoc, ht]
          rfl⟩
      have := congrArg List.length ht
      rw [List.length_append] at this
      rw [if_pos hlong]
      exact ⟨by rw [← this]; exact Nat.le_add_right 2 t.length, rfl⟩
    · rename_i hpre
      obtain ⟨j, hj, rfl⟩ := Option.map_eq_some_iff.mp h
      obtain ⟨hlen, hmore⟩ := ih hj
      -- the first two code units are those of the shorter buffer
      have hlong : ¬ [10, 10].isPrefixOf (u :: (rest ++ more)) = true := by
        cases rest with
        | nil => exact absurd hj.symm (Option.some_ne_none j)
        | cons v rest =>
          intro hp
          apply hpre
          simpa [List.isPrefixOf] using hp
      rw [if_neg hlong, hmore]
      exact ⟨by rw [List.length_cons]; omega, rfl⟩

theorem indexOfBlank_block {block : List UInt16} (h : 10 ∉ block) (rest : List UInt16) :
    indexOfBlank (block ++ 10 :: 10 :: rest) = some block.length := by
  induction block with
  | nil => rfl
  | cons u block ih =>
    rw [List.mem_cons, not_or] at h
    have hpre : ¬ [10, 10].isPrefixOf (u :: (block ++ 10 :: 10 :: rest)) = true := by
      intro hp
      obtain ⟨t, ht⟩ := List.isPrefixOf_iff_prefix.mp hp
      exact h.1 (List.cons.inj ht).1
    rw [List.cons_append, indexOfBlank, if_neg hpre, ih h.2]
    rfl

/-- `slice(0, sep)` and `slice(sep + 2)` -/
def cutBlock (buf : List UInt16) : Option (List UInt16 × List UInt16) :=
  (indexOfBlank buf).map fun sep => (buf.take sep, buf.drop (sep + 2))

def blocks : Decoder.Cut UInt16 (List UInt16) where
  cut := cutBlock
  append := by
    intro buf b rest h more
    obtain ⟨sep, hsep, hp⟩ := Option.map_eq_some_iff.mp h
    obtain ⟨rfl, rfl⟩ := Prod.mk.inj hp
    obtain ⟨hlen, hmore⟩ := indexOfBlank_append hsep more
    rw [cutBlock, hmore, Option.map_some, List.take_append_of_le_length (by omega),
      List.drop_append_of_le_length hlen]
  shorter := by
    intro buf b rest h
    obtain ⟨sep, hsep, hp⟩ := Option.map_eq_some_iff.mp h
    obtain ⟨rfl, rfl⟩ := Prod.mk.inj hp
    have := (indexOfBlank_append hsep []).1
    rw [List.length_drop]
    omega

theorem cut_block {block : List UInt16} (h : 10 ∉ block) (rest : List UInt16) :
    blocks.cut (block ++ 10 :: 10 :: rest) = some (block, rest) := by
  show cutBlock _ = _
  rw [cutBlock, indexOfBlank_block h, Option.map_some, List.take_left, ← List.drop_drop,
    List.drop_left]
  rfl

/-! ## the reader -/

/-- what `JSON.parse` returns, or the text where it throws -/
inductive SseData where
  | parsed (v : Json)
  | raw (text : List UInt16)

structure SseFrame where
  event : Option (List UInt16)
  data : SseData

/-- a line of a block -/
def parseLine (acc : Option (List UInt16) × List (List UInt16)) (line : List UInt16) :
    Option (List UInt16) × List (List UInt16) :=
  if (utf16 ":").isPrefixOf line then acc
  else if (utf16 "event:").isPrefixOf line then (some (trimUnits (line.drop 6)), acc.2)
  else if (utf16 "data:").isPrefixOf line then (acc.1, acc.2 ++ [trimUnits (line.drop 5)])
  else acc

structure SseClient where
  frames : List SseFrame := []
  raw : List UInt16 := []
  buffer : List UInt16 := []

section
variable (parse : List UInt16 → Option Json)

/-- the frame of the lines of a block, if there is data; `parse` is `JSON.parse`, where `none` is an
exception -/
def frameOf (acc : Option (List UInt16) × List (List UInt16)) : Option SseFrame :=
  if acc.2 = [] then none
  else
    let text := [10].intercalate acc.2
    some ⟨acc.1, match parse text with
      | some v => .parsed v
      | none => .raw text⟩

def parseBlock (block : List UInt16) : Option SseFrame :=
  frameOf parse ((block.splitOn 10).foldl parseLine (none, []))

def SseClient.ingest (client : SseClient) (chunk : List UInt16) : SseClient :=
  let (bs, buffer) := Decoder.drain blocks (client.buffer ++ chunk)
  { raw := client.raw ++ chunk
    buffer := buffer
    frames := client.frames ++ bs.filterMap (parseBlock parse) }

def SseClient.ingestAll (client : SseClient) (chunks : List (List UInt16)) : SseClient :=
  chunks.foldl (SseClient.ingest parse) client

/-- **It does not matter in which chunks a text comes.** -/
theorem ingest_flatten (chunks : List (List UInt16)) :
    SseClient.ingestAll parse {} chunks =
      { raw := chunks.flatten
        buffer := (Decoder.drain blocks chunks.flatten).2
        frames := (Decoder.drain blocks chunks.flatten).1.filterMap (parseBlock parse) } := by
  have hrun : ∀ (bs : List (List UInt16)) (raw buffer : List UInt16),
      SseClient.ingestAll parse ⟨bs.filterMap (parseBlock parse), raw, buffer⟩ chunks =
        { raw := raw ++ chunks.flatten
          buffer := (chunks.foldl (Decoder.receive blocks) (bs, buffer)).2
          frames := (chunks.foldl (Decoder.receive blocks) (bs, buffer)).1.filterMap
            (parseBlock parse) } := by
    intro bs raw buffer
    induction chunks generalizing bs raw buffer with
    | nil => rw [List.flatten_nil, List.append_nil]; rfl
    | cons chunk chunks ih =>
      rw [List.flatten_cons, ← List.append_assoc, List.foldl_cons, Decoder.receive, ← ih,
        List.filterMap_append]
      rfl
  rw [← Decoder.feed_flatten, ← List.nil_append chunks.flatten]
  exact hrun [] [] []

end

/-! ## the frames of the bus -/

section
variable (stringify : Json → String) (parse : List UInt16 → Option Json)

/-- what is assumed of the text of an event: it has no line break, stands between braces, and the
reader's parser reads the value back -/
structure Encodes (v : Json) : Prop where
  line : 10 ∉ utf16 (stringify v)
  braces : ∃ inner, utf16 (stringify v) = 123 :: (inner ++ [125])
  inverse : parse (utf16 (stringify v)) = some v

def dataBlock (v : Json) : List UInt16 := utf16 "data: " ++ utf16 (stringify v)

theorem utf16_frame (event : IslandEvent) :
    utf16 (frame stringify event) = dataBlock stringify event.json ++ [10, 10] := by
  have hend : utf16 "\n\n" = [10, 10] := by decide
  rw [frame, utf16_append, utf16_append, hend]
  rfl

variable {stringify parse}

theorem notMem_dataBlock {v : Json} (h : Encodes stringify parse v) : 10 ∉ dataBlock stringify v := by
  intro hmem
  rcases List.mem_append.mp hmem with hmem | hmem
  · exact absurd hmem (by decide)
  · exact h.line hmem

/-- **A frame of the bus is one unnamed frame.** -/
theorem parse_frame {v : Json} (h : Encodes stringify parse v) :
    parseBlock parse (dataBlock stringify v) = some ⟨none, .parsed v⟩ := by
  obtain ⟨inner, hbraces⟩ := h.braces
  have hdata : utf16 "data: " = [100, 97, 116, 97, 58, 32] := by decide
  have hsplit : (dataBlock stringify v).splitOn 10 = [dataBlock stringify v] :=
    List.splitOn_eq_singleton (notMem_dataBlock h)
  have hline : parseLine (none, []) (dataBlock stringify v) = (none, [utf16 (stringify v)]) := by
    have hcolon : ¬ (utf16 ":").isPrefixOf (dataBlock stringify v) = true := by
      rw [dataBlock, hdata]
      exact Bool.false_ne_true
    have hevent : ¬ (utf16 "event:").isPrefixOf (dataBlock stringify v) = true := by
      rw [dataBlock, hdata]
      exact Bool.false_ne_true
    have hpre : (utf16 "data:").isPrefixOf (dataBlock stringify v) = true := by
      rw [dataBlock, hdata]
      rfl
    have htrim : trimUnits ((dataBlock stringify v).drop 5) = utf16 (stringify v) := by
      rw [dataBlock, hdata, hbraces]
      exact trimUnits_space (by decide) (by decide) inner
    rw [parseLine, if_neg hcolon, if_neg hevent, if_pos hpre, htrim]
    rfl
  have htext : [10].intercalate [utf16 (stringify v)] = utf16 (stringify v) :=
    List.intercalate_singleton
  rw [parseBlock, hsplit, List.foldl_cons, hline, List.foldl_nil, frameOf,
    if_neg (List.cons_ne_nil _ _)]
  dsimp only
  rw [htext, h.inverse]

theorem drain_frames {events : List IslandEvent}
    (h : ∀ event ∈ events, Encodes stringify parse event.json) :
    Decoder.drain blocks ((events.map (frame stringify)).flatMap utf16) =
      (events.map fun event => dataBlock stringify event.json, []) := by
  induction events with
  | nil => rfl
  | cons event events ih =>
    rw [List.forall_mem_cons] at h
    rw [List.map_cons, List.flatMap_cons, utf16_frame, List.append_assoc, List.cons_append,
      List.singleton_append, Decoder.drain_of_cut (cut_block (notMem_dataBlock h.1) _), ih h.2,
      List.map_cons]

def Response.codeUnits (res : Response) : List UInt16 := res.written.flatMap utf16

theorem drain_connected (frames : List String) :
    Decoder.drain blocks (Response.codeUnits ⟨200, ": connected\n\n" :: frames⟩) =
      (utf16 ": connected" :: (Decoder.drain blocks (frames.flatMap utf16)).1,
        (Decoder.drain blocks (frames.flatMap utf16)).2) := by
  have hunits : utf16 ": connected\n\n" = utf16 ": connected" ++ [10, 10] := by decide
  have hline : 10 ∉ utf16 ": connected" := by decide
  rw [Response.codeUnits, List.flatMap_cons, hunits, List.append_assoc, List.cons_append,
    List.singleton_append]
  exact Decoder.drain_of_cut (cut_block hline _)

theorem parse_connected : parseBlock parse (utf16 ": connected") = none := by
  have hsplit : (utf16 ": connected").splitOn 10 = [utf16 ": connected"] :=
    List.splitOn_eq_singleton (by decide)
  rw [parseBlock, hsplit]
  rfl

def delivered (allowedChannels : List ChannelId) (res : Nat) (acts : List Act) : List IslandEvent :=
  (publishedUntil res acts).filter fun event => event.channel ∈ allowedChannels

/-- **The stream decodes to exactly the events sent.**  A recognised listener is connected; in whatever
chunks its response so far is cut, the reader has exactly the events that it was sent since then, in
their order, each as one unnamed frame, and nothing is left in its buffer. -/
theorem stream_decodes (before after : List Act) (env : Env) (req : Request)
    {identity : ServiceIdentity} (hid : identifyService env req = some identity)
    (hjson : ∀ event ∈ delivered identity.allowedChannels (connects before) after,
      Encodes stringify parse event.json) :
    ∃ res, (Bus.empty.run stringify (before ++ .connect env req :: after)).responses[connects before]? =
        some res ∧
      ∀ chunks : List (List UInt16), chunks.flatten = res.codeUnits →
        (SseClient.ingestAll parse {} chunks).frames =
            (delivered identity.allowedChannels (connects before) after).map
              (fun event => ⟨none, .parsed event.json⟩) ∧
          (SseClient.ingestAll parse {} chunks).buffer = [] := by
  refine ⟨_, (run_connect_some stringify hid before after).1, fun chunks hchunks => ?_⟩
  have hdrain := drain_frames hjson
  rw [ingest_flatten, hchunks, drain_connected]
  change Decoder.drain blocks ((framesOf stringify identity.allowedChannels
    (publishedUntil (connects before) after)).flatMap utf16) = _ at hdrain
  rw [hdrain]
  refine ⟨?_, rfl⟩
  dsimp only
  rw [List.filterMap_cons_none parse_connected, List.filterMap_map]
  refine List.filterMap_eq_map_iff_forall_eq_some.mpr fun event hevent => ?_
  exact parse_frame (hjson event hevent)

end
/-! ## one code unit at a time -/

def anaUnits : List UInt16 := utf16 (textOf anaPosts anaPost.event.json)

def anaParseUnits (text : List UInt16) : Option Json :=
  if text = anaUnits then some anaPost.event.json else none

theorem ana_encodes : Encodes (textOf anaPosts) anaParseUnits anaPost.event.json := by
  constructor
  · decide +kernel
  · refine ⟨anaPost.inner.flatMap units, ?_⟩
    rw [textOf_event anaPosts_legible List.mem_cons_self, utf16, String.toList_ofList, Posted.text,
      List.flatMap_cons, List.flatMap_append]
    rfl
  · exact if_pos rfl

theorem stream_decodes_ana :
    ∃ res, (Bus.empty.run (textOf anaPosts) ([] ++ .connect beachEnv beachRequest ::
        [.publish anaPost.event])).responses[0]? = some res ∧
      (SseClient.ingestAll anaParseUnits {} (res.codeUnits.map fun u => [u])).frames =
        [⟨none, .parsed anaPost.event.json⟩] := by
  have hid : identifyService beachEnv beachRequest = some ⟨"beach", [.Hotel]⟩ := rfl
  have hjson : ∀ event ∈ delivered [.Hotel] (connects [])
      [.publish anaPost.event],
      Encodes (textOf anaPosts) anaParseUnits event.json := by
    intro event hevent
    obtain rfl := List.mem_singleton.mp hevent
    exact ana_encodes
  obtain ⟨res, hres, h⟩ := stream_decodes [] _ beachEnv beachRequest hid hjson
  exact ⟨res, hres, (h (res.codeUnits.map fun u => [u]) (by simp [← List.flatMap_def])).1⟩

end Broadcast
