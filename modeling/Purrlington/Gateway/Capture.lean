import Purrlington.Gateway.Cache

/-!
# Gateway: what a capture holds

The capture of a handler's response against the operations the handler performs, for any handler.

* `firstStatus`            the status and the header of a handler's first WriteHeader or Write;
* `CacheCapture.acts_writer`   the client is sent what it would be sent without the capture;
* `Undecided`, `Teed`      before the decision, and after a decision for sharing;
* `Undecided.acts`         what a cacheable capture says about its handler.
-/

set_option linter.unusedSectionVars false

namespace Gateway
open SM

/-! ## what a handler has answered -/

/-- the status of the first WriteHeader, or 200 if a Write comes first, and the header then -/
def firstStatus (h : Header) : List RwAct → Option (Nat × Header)
  | [] => none
  | .writeHeader code :: _ => some (code, h)
  | .write _ :: _ => some (200, h)
  | .flush :: as => firstStatus h as
  | .add name value :: as => firstStatus (h.add name value) as
  | .set name value :: as => firstStatus (h.set name value) as
  | .del name :: as => firstStatus (h.del name) as

/-- a Flush comes before the first WriteHeader or Write -/
def flushesFirst : List RwAct → Bool
  | .flush :: _ => true
  | .add _ _ :: as => flushesFirst as
  | .set _ _ :: as => flushesFirst as
  | .del _ :: as => flushesFirst as
  | _ => false

def ResponseWriter.acts (w : ResponseWriter) (as : List RwAct) : ResponseWriter :=
  as.foldl ResponseWriter.act w

theorem ResponseWriter.writeHeader_writeHeader (w : ResponseWriter) (code : Nat) :
    (w.writeHeader code).writeHeader code = w.writeHeader code := by
  by_cases h : w.sent.isSome = true
  · obtain ⟨p, hp⟩ := Option.isSome_iff_exists.mp h
    rw [writeHeader_of_sent hp, writeHeader_of_sent hp]
  · by_cases hi : 100 ≤ code ∧ code ≤ 199 ∧ code ≠ 101
    · have e : w.writeHeader code = w := by
        unfold writeHeader
        rw [if_neg h, if_pos hi]
      rw [e, e]
    · have e : w.writeHeader code = { w with sent := some (code, w.header) } := by
        unfold writeHeader
        rw [if_neg h, if_neg hi]
      rw [e, writeHeader_of_sent rfl]

namespace CacheCapture

theorem decideOn_writer (c : CacheCapture) (code : Nat) : (c.decideOn code).writer = c.writer := by
  unfold decideOn
  split <;> rfl

theorem write_writer (c : CacheCapture) (b : Bytes) : (c.write b).writer = c.writer.write b := by
  have hw : ∀ d : CacheCapture, (if d.cacheable then { d with buf := d.buf ++ b } else d).writer =
      d.writer := by
    intro d
    split <;> rfl
  unfold write
  simp only [hw]
  cases hd : c.decided with
  | true => rfl
  | false =>
    show ((c.decideOn 200).writer.writeHeader 200).write b = c.writer.write b
    rw [decideOn_writer]
    unfold ResponseWriter.write
    rw [ResponseWriter.writeHeader_writeHeader]

theorem act_writer (c : CacheCapture) (a : RwAct) : (c.act a).writer = c.writer.act a := by
  cases a with
  | writeHeader code =>
    show (c.decideOn code).writer.writeHeader code = _
    rw [decideOn_writer]
    rfl
  | write b => exact c.write_writer b
  | flush => rfl
  | add n v => rfl
  | set n v => rfl
  | del n => rfl

theorem acts_writer (c : CacheCapture) (as : List RwAct) : (c.acts as).writer = c.writer.acts as := by
  induction as generalizing c with
  | nil => rfl
  | cons a as ih =>
    show ((c.act a).acts as).writer = (c.writer.act a).acts as
    rw [ih, act_writer]

/-- nothing has been decided, and at most a flush has been sent -/
structure Undecided (c : CacheCapture) : Prop where
  decided : c.decided = false
  unshared : c.cacheable = false
  buf : c.buf = []
  body : c.writer.body = []
  sent : ∀ p, c.writer.sent = some p → p.1 = 200

/-- decided for sharing: the status is sent, and the buffer has the body so far -/
structure Teed (c : CacheCapture) : Prop where
  decided : c.decided = true
  cacheable : c.cacheable = true
  status : c.status = 200
  buf : c.buf = c.writer.body
  sent : ∃ p, c.writer.sent = some p ∧ p.1 = 200

theorem write_decided {c : CacheCapture} (hd : c.decided = true) (b : Bytes) :
    c.write b = { c with
      buf := if c.cacheable then c.buf ++ b else c.buf
      writer := c.writer.write b } := by
  unfold write
  rw [if_pos hd]
  cases hc : c.cacheable with
  | true => simp [hc]
  | false => simp [hc]

theorem act_decided {c : CacheCapture} (hd : c.decided = true) (a : RwAct) :
    (c.act a).decided = true ∧ (c.act a).cacheable = c.cacheable ∧ (c.act a).status = c.status := by
  cases a with
  | writeHeader code =>
    show (c.decideOn code).decided = true ∧ (c.decideOn code).cacheable = _ ∧
      (c.decideOn code).status = _
    unfold decideOn
    rw [if_pos hd]
    exact ⟨hd, rfl, rfl⟩
  | write b =>
    show (c.write b).decided = true ∧ (c.write b).cacheable = _ ∧ (c.write b).status = _
    rw [write_decided hd]
    exact ⟨hd, rfl, rfl⟩
  | flush => exact ⟨hd, rfl, rfl⟩
  | add n v => exact ⟨hd, rfl, rfl⟩
  | set n v => exact ⟨hd, rfl, rfl⟩
  | del n => exact ⟨hd, rfl, rfl⟩

theorem acts_cacheable {c : CacheCapture} (hd : c.decided = true) (as : List RwAct) :
    (c.acts as).cacheable = c.cacheable := by
  induction as generalizing c with
  | nil => rfl
  | cons a as ih =>
    obtain ⟨hd', hc, _⟩ := act_decided hd a
    show ((c.act a).acts as).cacheable = _
    rw [ih hd', hc]

theorem Teed.act {c : CacheCapture} (h : Teed c) (a : RwAct) :
    Teed (c.act a) ∧ (c.act a).writer.sent = c.writer.sent := by
  obtain ⟨p, hp, hp1⟩ := h.sent
  obtain ⟨hd, hc, hst⟩ := act_decided h.decided a
  have hkeep : (c.act a).writer.sent = c.writer.sent ∧ (c.act a).buf = (c.act a).writer.body := by
    cases a with
    | writeHeader code =>
      have e : c.act (.writeHeader code) = c := by
        show { c.decideOn code with writer := (c.decideOn code).writer.writeHeader code } = c
        unfold decideOn
        rw [if_pos h.decided, ResponseWriter.writeHeader_of_sent hp]
      rw [e]
      exact ⟨rfl, h.buf⟩
    | write b =>
      show (c.write b).writer.sent = _ ∧ (c.write b).buf = (c.write b).writer.body
      rw [write_decided h.decided, h.cacheable, ResponseWriter.write_of_sent hp]
      refine ⟨rfl, ?_⟩
      show (if true then c.buf ++ b else c.buf) = c.writer.body ++ b
      rw [h.buf]
      rfl
    | flush =>
      show (c.writer.writeHeader 200).sent = _ ∧ c.buf = (c.writer.writeHeader 200).body
      rw [ResponseWriter.writeHeader_of_sent hp]
      exact ⟨rfl, h.buf⟩
    | add n v => exact ⟨rfl, h.buf⟩
    | set n v => exact ⟨rfl, h.buf⟩
    | del n => exact ⟨rfl, h.buf⟩
  exact ⟨⟨hd, hc.trans h.cacheable, hst.trans h.status, hkeep.2, p, hkeep.1.trans hp, hp1⟩, hkeep.1⟩

theorem Teed.acts {c : CacheCapture} (h : Teed c) (as : List RwAct) :
    Teed (c.acts as) ∧ (c.acts as).writer.sent = c.writer.sent := by
  induction as generalizing c with
  | nil => exact ⟨h, rfl⟩
  | cons a as ih =>
    obtain ⟨ha, hs⟩ := h.act a
    obtain ⟨hr, hs'⟩ := ih ha
    exact ⟨hr, hs'.trans hs⟩

/-- a first status that decides for sharing is 200, and not of an event stream -/
theorem Undecided.writeHeader {c : CacheCapture} (h : Undecided c) {code : Nat}
    (hc : (c.writeHeader code).cacheable = true) :
    code = 200 ∧ isEventStream (c.writer.header.get "Content-Type") = false ∧
      Teed (c.writeHeader code) ∧ (c.writer.sent = none →
        (c.writeHeader code).writer.sent = some (200, c.writer.header)) := by
  have e' : c.writeHeader code = { c with
      status := code
      cacheable := code == 200 && !isEventStream (c.writer.header.get "Content-Type")
      decided := true
      writer := c.writer.writeHeader code } := by
    unfold CacheCapture.writeHeader
    rw [decideOn_first h.decided]
  rw [e'] at hc ⊢
  obtain ⟨rfl, hct⟩ : code = 200 ∧ isEventStream (c.writer.header.get "Content-Type") = false := by
    simpa using hc
  have hsent : ∃ p, (c.writer.writeHeader 200).sent = some p ∧ p.1 = 200 ∧
      (c.writer.sent = none → p = (200, c.writer.header)) := by
    cases hs : c.writer.sent with
    | none =>
      rw [ResponseWriter.writeHeader_final hs (le_refl _)]
      exact ⟨_, rfl, rfl, fun _ => rfl⟩
    | some p =>
      rw [ResponseWriter.writeHeader_of_sent hs]
      exact ⟨p, hs, h.sent p hs, fun e => absurd e (by simp)⟩
  have hbody : (c.writer.writeHeader 200).body = [] := by
    unfold ResponseWriter.writeHeader
    split
    · exact h.body
    · split
      · exact h.body
      · exact h.body
  obtain ⟨p, hp, hp1, hpn⟩ := hsent
  refine ⟨rfl, hct, ⟨rfl, hc, rfl, h.buf.trans hbody.symm, p, hp, hp1⟩, ?_⟩
  intro hn
  rw [← hpn hn]
  exact hp

theorem writeHeader_decided (c : CacheCapture) (code : Nat) : (c.writeHeader code).decided = true := by
  show (c.decideOn code).decided = true
  unfold decideOn
  split
  · assumption
  · rfl

theorem write_undecided {c : CacheCapture} (hd : c.decided = false) (b : Bytes) :
    c.write b = (c.writeHeader 200).write b := by
  unfold write
  rw [hd, if_neg Bool.false_ne_true, if_pos (writeHeader_decided c 200)]

theorem Undecided.header {c : CacheCapture} (h : Undecided c) (hd : Header) :
    Undecided { c with writer := { c.writer with header := hd } } :=
  ⟨h.decided, h.unshared, h.buf, h.body, h.sent⟩

theorem Undecided.flush {c : CacheCapture} (h : Undecided c) :
    Undecided c.flush ∧ c.flush.writer.header = c.writer.header := by
  cases hs : c.writer.sent with
  | none =>
    have e : c.flush = { c with writer := { c.writer with sent := some (200, c.writer.header) } } := by
      unfold CacheCapture.flush ResponseWriter.flush
      rw [ResponseWriter.writeHeader_final hs (le_refl _)]
    rw [e]
    refine ⟨⟨h.decided, h.unshared, h.buf, h.body, fun p hp => ?_⟩, rfl⟩
    obtain rfl := Option.some.inj hp
    rfl
  | some p =>
    have e : c.flush = c := by
      unfold CacheCapture.flush ResponseWriter.flush
      rw [ResponseWriter.writeHeader_of_sent hs]
    rw [e]
    exact ⟨h, rfl⟩

/-- **What is shared.**  A capture that ends up cacheable is of a handler whose first status was
200 with no event stream announced, the client was sent 200, and the buffer is the body. -/
theorem Undecided.acts {c : CacheCapture} (h : Undecided c) {as : List RwAct}
    (hc : (c.acts as).cacheable = true) :
    ∃ hd, firstStatus c.writer.header as = some (200, hd) ∧
      isEventStream (hd.get "Content-Type") = false ∧ Teed (c.acts as) ∧
      (flushesFirst as = false → c.writer.sent = none →
        (c.acts as).writer.sent = some (200, hd)) := by
  induction as generalizing c with
  | nil =>
    have := h.unshared
    replace hc : c.cacheable = true := hc
    rw [this] at hc
    exact absurd hc Bool.false_ne_true
  | cons a as ih =>
    replace hc : ((c.act a).acts as).cacheable = true := hc
    cases a with
    | writeHeader code =>
      have hc' : (c.writeHeader code).cacheable = true :=
        (acts_cacheable (writeHeader_decided c code) as).symm.trans hc
      obtain ⟨rfl, hct, hteed, hsent⟩ := h.writeHeader hc'
      obtain ⟨hr, hs⟩ := hteed.acts as
      exact ⟨c.writer.header, rfl, hct, hr, fun _ hn => hs.trans (hsent hn)⟩
    | write b =>
      have e : c.act (.write b) = (c.writeHeader 200).act (.write b) := write_undecided h.decided b
      have hdec := writeHeader_decided c 200
      obtain ⟨hd', hcb, _⟩ := act_decided hdec (.write b)
      rw [e, acts_cacheable hd', hcb] at hc
      obtain ⟨_, hct, hteed, hsent⟩ := h.writeHeader hc
      obtain ⟨ht, hs⟩ := hteed.act (.write b)
      obtain ⟨hr, hs'⟩ := ht.acts as
      refine ⟨c.writer.header, rfl, hct, ?_, fun _ hn => ?_⟩
      · show Teed ((c.act (.write b)).acts as)
        rw [e]
        exact hr
      · show ((c.act (.write b)).acts as).writer.sent = _
        rw [e]
        exact hs'.trans (hs.trans (hsent hn))
    | flush =>
      obtain ⟨hu, hh⟩ := h.flush
      obtain ⟨hd, hf, hct, hteed, _⟩ := ih hu hc
      rw [hh] at hf
      exact ⟨hd, hf, hct, hteed, fun hfl => absurd hfl (by simp [flushesFirst])⟩
    | add n v =>
      obtain ⟨hd, hf, hct, hteed, hsent⟩ := ih (h.header _) hc
      exact ⟨hd, hf, hct, hteed, hsent⟩
    | set n v =>
      obtain ⟨hd, hf, hct, hteed, hsent⟩ := ih (h.header _) hc
      exact ⟨hd, hf, hct, hteed, hsent⟩
    | del n =>
      obtain ⟨hd, hf, hct, hteed, hsent⟩ := ih (h.header _) hc
      exact ⟨hd, hf, hct, hteed, hsent⟩

theorem Undecided.decides200 {c : CacheCapture} (h : Undecided c)
    (hct : isEventStream (c.writer.header.get "Content-Type") = false) :
    (c.writeHeader 200).cacheable = true := by
  show (c.decideOn 200).cacheable = true
  unfold decideOn
  rw [h.decided, if_neg Bool.false_ne_true]
  simp [hct]

/-- a handler whose first status decides for sharing is captured -/
theorem Undecided.cacheable {c : CacheCapture} (h : Undecided c) {as : List RwAct} {hd : Header}
    (hf : firstStatus c.writer.header as = some (200, hd))
    (hct : isEventStream (hd.get "Content-Type") = false) : (c.acts as).cacheable = true := by
  induction as generalizing c with
  | nil => exact absurd hf (by simp [firstStatus])
  | cons a as ih =>
    show ((c.act a).acts as).cacheable = true
    cases a with
    | writeHeader code =>
      obtain ⟨rfl, rfl⟩ := Prod.mk.inj (Option.some.inj hf)
      rw [acts_cacheable (c := c.act (.writeHeader 200)) (writeHeader_decided c 200)]
      exact h.decides200 hct
    | write b =>
      obtain ⟨_, rfl⟩ := Prod.mk.inj (Option.some.inj hf)
      have e : c.act (.write b) = (c.writeHeader 200).act (.write b) := write_undecided h.decided b
      obtain ⟨hd', hcb, _⟩ := act_decided (writeHeader_decided c 200) (.write b)
      rw [e, acts_cacheable hd', hcb]
      exact h.decides200 hct
    | flush =>
      obtain ⟨hu, hh⟩ := h.flush
      rw [← hh] at hf
      exact ih hu hf
    | add n v => exact ih (h.header _) hf
    | set n v => exact ih (h.header _) hf
    | del n => exact ih (h.header _) hf

end CacheCapture

end Gateway
