import Purrlington.Lib.Machine
import Mathlib.Algebra.Order.Ring.Nat

/-!
# Frontend: one connection at a time

The hook `useBroadcast` and the objects of the browser that it makes: event sources and timers.  The
effect and its clean-up alternate, the refs stay; an event source reports until it is closed.

* `Hook`, `hook`        the refs and the state of the hook, and its callbacks in any order;
* `Hook.live`, `Hook.waiting`   the event sources that are not closed, the timers that are set;
* `failures`, `lastOpened`   what the order of the callbacks says;
* `Single`              there is one event source or one timer while the effect is in place;
* `one_connection`      so in every run, with the delay of the next timer and the status that is shown.
-/

namespace Frontend
open SM

def BACKOFF_INITIAL_MS : Nat := 1000

def BACKOFF_MAX_MS : Nat := 30000

inductive ConnectionStatus where
  | connected
  | dropped
  | reconnecting
  deriving DecidableEq, Repr

inductive ReadyState where
  | CONNECTING
  | OPEN
  | CLOSED
  deriving DecidableEq, Repr

def ReadyState.isLive : ReadyState → Bool
  | .CLOSED => false
  | _ => true

structure Timer where
  delay : Nat
  pending : Bool
  deriving DecidableEq, Repr

/-- it has fired, or is cleared -/
def Timer.off (timer : Timer) : Timer := { timer with pending := false }

/-- `sources` and `timers` are all that the hook has made; `mounted` is whether the effect is in place -/
structure Hook where
  sources : List ReadyState
  timers : List Timer
  status : ConnectionStatus
  connectionRef : Option Nat
  backoffRef : Nat
  timerRef : Option Nat
  activeRef : Bool
  mounted : Bool
  deriving DecidableEq, Repr

def Hook.init (gatewayUrl : String) : Hook where
  sources := []
  timers := []
  status := if gatewayUrl = "" then .dropped else .reconnecting
  connectionRef := none
  backoffRef := BACKOFF_INITIAL_MS
  timerRef := none
  activeRef := true
  mounted := false

namespace Hook

def connect (h : Hook) : Hook :=
  if h.activeRef then
    { h with sources := h.sources ++ [.CONNECTING], connectionRef := some h.sources.length }
  else h

def close (h : Hook) (i : Nat) : Hook := { h with sources := h.sources.modify i fun _ => .CLOSED }

def onopen (h : Hook) (i : Nat) : Hook :=
  { h with sources := h.sources.modify i fun _ => .OPEN
           backoffRef := BACKOFF_INITIAL_MS
           status := .connected }

def onerror (h : Hook) (i : Nat) : Hook :=
  let h := { h.close i with connectionRef := none, status := .reconnecting }
  if h.activeRef then
    { h with backoffRef := min (h.backoffRef * 2) BACKOFF_MAX_MS
             timers := h.timers ++ [⟨h.backoffRef, true⟩]
             timerRef := some h.timers.length }
  else h

def timeout (h : Hook) (t : Nat) : Hook :=
  let h := { h with timers := h.timers.modify t Timer.off }
  if h.activeRef then h.connect else h

/-- `clearTimeout(timerRef.current)` -/
def clear (h : Hook) : Hook :=
  match h.timerRef with
  | some t => { h with timers := h.timers.modify t Timer.off, timerRef := none }
  | none => h

/-- `connectionRef.current?.close()` -/
def disconnect (h : Hook) : Hook :=
  match h.connectionRef with
  | some i => { h.close i with connectionRef := none }
  | none => h

def cleanup (h : Hook) : Hook := ({ h with activeRef := false }.clear).disconnect

end Hook

inductive HookAct where
  | effect
  | cleanup
  | opened (i : Nat)
  | failed (i : Nat)
  | timeout (t : Nat)
  deriving DecidableEq, Repr

/-- a closed event source reports nothing, a cleared timer does not fire, and the effect returns
without a clean-up where there is no URL -/
def hook (gatewayUrl : String) : Machine Hook HookAct := fun h act =>
  match act with
  | .effect =>
    if h.mounted then none
    else if gatewayUrl = "" then some { h with mounted := true }
    else some (Hook.connect { h with mounted := true, activeRef := true })
  | .cleanup =>
    if h.mounted then
      if gatewayUrl = "" then some { h with mounted := false }
      else some { h.cleanup with mounted := false }
    else none
  | .opened i => if h.sources[i]? = some .CONNECTING then some (h.onopen i) else none
  | .failed i => if h.sources[i]?.any ReadyState.isLive then some (h.onerror i) else none
  | .timeout t => if h.timers[t]?.any Timer.pending then some (h.timeout t) else none

/-! ## one event source or one timer -/

namespace Hook

def live (h : Hook) : Nat := h.sources.countP ReadyState.isLive

def waiting (h : Hook) : Nat := h.timers.countP Timer.pending

/-- the effect is in place, and has a URL -/
def Running (gatewayUrl : String) (h : Hook) : Prop := h.mounted = true ∧ gatewayUrl ≠ ""

instance (gatewayUrl : String) (h : Hook) : Decidable (h.Running gatewayUrl) :=
  inferInstanceAs (Decidable (_ ∧ _))

structure Single (gatewayUrl : String) (h : Hook) : Prop where
  one : h.live + h.waiting = if h.Running gatewayUrl then 1 else 0
  active : h.Running gatewayUrl → h.activeRef = true
  connection : ∀ (i : Nat) (st : ReadyState), h.sources[i]? = some st → st.isLive = true →
    h.connectionRef = some i
  timer : ∀ (t : Nat) (timer : Timer), h.timers[t]? = some timer → timer.pending = true →
    h.timerRef = some t

end Hook

/-! ### every callback -/

section
variable {gatewayUrl : String} {h h' : Hook}

theorem Hook.connect_eq (hactive : h.activeRef = true) : h.connect =
    { h with sources := h.sources ++ [.CONNECTING], connectionRef := some h.sources.length } :=
  if_pos hactive

theorem Hook.connect_counts (hactive : h.activeRef = true) (hlive : h.live = 0)
    (hwaiting : h.waiting = 0) : h.connect.live = 1 ∧ h.connect.waiting = 0 := by
  rw [Hook.connect_eq hactive]
  refine ⟨?_, hwaiting⟩
  show (h.sources ++ [_]).countP _ = 1
  rw [List.countP_append, show h.sources.countP _ = 0 from hlive]
  rfl

theorem Hook.Single.connect (hlive : h.live = 0) (hwaiting : h.waiting = 0)
    (hrun : h.Running gatewayUrl) (hactive : h.activeRef = true) : h.connect.Single gatewayUrl := by
  obtain ⟨hone, hnone⟩ := Hook.connect_counts hactive hlive hwaiting
  rw [Hook.connect_eq hactive] at hone hnone ⊢
  constructor
  · rw [hone, hnone]
    exact (if_pos hrun).symm
  · exact fun _ => hactive
  · exact forall_snoc (fun i st hst hl => absurd hl (not_of_countP_zero hlive hst)) fun _ => rfl
  · exact fun t timer ht hp => absurd hp (not_of_countP_zero hwaiting ht)

theorem Hook.Single.stopped (hlive : h.live = 0) (hwaiting : h.waiting = 0)
    (hrun : ¬ h.Running gatewayUrl) : h.Single gatewayUrl where
  one := by rw [if_neg hrun, hlive, hwaiting]
  active hr := absurd hr hrun
  connection i st hst hl := absurd hl (not_of_countP_zero hlive hst)
  timer t timer ht hp := absurd hp (not_of_countP_zero hwaiting ht)

theorem Hook.Single.running_of_live (hs : h.Single gatewayUrl) (hl : 0 < h.live + h.waiting) :
    h.Running gatewayUrl ∧ h.live + h.waiting = 1 := by
  have hone := hs.one
  split at hone
  · rename_i hrun
    exact ⟨hrun, hone⟩
  · omega

theorem Hook.Single.idle (hs : h.Single gatewayUrl) (hrun : ¬ h.Running gatewayUrl) :
    h.live = 0 ∧ h.waiting = 0 := by
  have hzero := hs.one
  rw [if_neg hrun] at hzero
  exact ⟨Nat.eq_zero_of_add_eq_zero_right hzero, Nat.eq_zero_of_add_eq_zero_left hzero⟩

/-- an event source that reports an error is the only one -/
theorem Hook.Single.onerror_eq (hs : h.Single gatewayUrl) {i : Nat}
    (hany : h.sources[i]?.any ReadyState.isLive = true) :
    h.Running gatewayUrl ∧ h.waiting = 0 ∧ (h.close i).live = 0 ∧
      h.onerror i = { h.close i with
        connectionRef := none
        status := .reconnecting
        backoffRef := min (h.backoffRef * 2) BACKOFF_MAX_MS
        timers := h.timers ++ [⟨h.backoffRef, true⟩]
        timerRef := some h.timers.length } := by
  obtain ⟨st, hst, hl⟩ := (Option.any_eq_true ..).mp hany
  have hpos : 0 < h.live := countP_pos_of_any hany
  obtain ⟨hrun, hone⟩ := hs.running_of_live (by omega)
  refine ⟨hrun, by omega, ?_, if_pos (hs.active hrun)⟩
  exact countP_modify_only (fun _ => rfl) fun j st' hj hl' =>
    Option.some.inj ((hs.connection j st' hj hl').symm.trans (hs.connection i st hst hl))

/-- a timer that fires is the only one, and there is no event source -/
theorem Hook.Single.timeout_eq (hs : h.Single gatewayUrl) {t : Nat}
    (hany : h.timers[t]?.any Timer.pending = true) :
    h.Running gatewayUrl ∧ h.live = 0 ∧
      Hook.waiting { h with timers := h.timers.modify t Timer.off } = 0 ∧
      h.timeout t = Hook.connect { h with timers := h.timers.modify t Timer.off } := by
  obtain ⟨timer, htimer, hp⟩ := (Option.any_eq_true ..).mp hany
  have hpos : 0 < h.waiting := countP_pos_of_any hany
  obtain ⟨hrun, hone⟩ := hs.running_of_live (by omega)
  refine ⟨hrun, by omega, ?_, if_pos (hs.active hrun)⟩
  exact countP_modify_only (fun _ => rfl) fun j timer' hj hp' =>
    Option.some.inj ((hs.timer j timer' hj hp').symm.trans (hs.timer t timer htimer hp))

theorem Hook.clear_rest (h : Hook) : h.clear.sources = h.sources ∧
    h.clear.connectionRef = h.connectionRef ∧ h.clear.backoffRef = h.backoffRef ∧
    h.clear.status = h.status := by
  rw [Hook.clear]
  split <;> exact ⟨rfl, rfl, rfl, rfl⟩

theorem Hook.disconnect_rest (h : Hook) : h.disconnect.timers = h.timers ∧
    h.disconnect.backoffRef = h.backoffRef ∧ h.disconnect.status = h.status := by
  rw [Hook.disconnect]
  split <;> exact ⟨rfl, rfl, rfl⟩

theorem Hook.Single.cleanup (hs : h.Single gatewayUrl) :
    h.cleanup.live = 0 ∧ h.cleanup.waiting = 0 := by
  rw [Hook.cleanup]
  constructor
  · obtain ⟨hsources, href, _⟩ := Hook.clear_rest { h with activeRef := false }
    rw [Hook.live, Hook.disconnect]
    split
    · rename_i i hi
      refine countP_modify_only (fun _ => rfl) fun j st hj hl => ?_
      rw [hsources] at hj
      have hsome := hs.connection j st hj hl
      exact Option.some.inj (hsome.symm.trans (href.symm.trans hi))
    · rename_i hnone
      rw [List.countP_eq_zero]
      intro st hst hl
      obtain ⟨j, hj⟩ := List.mem_iff_getElem?.mp hst
      rw [hsources] at hj
      have hsome := hs.connection j st hj hl
      exact absurd (hsome.symm.trans (href.symm.trans hnone)) (by simp)
  · rw [Hook.waiting, (Hook.disconnect_rest _).1, Hook.clear]
    split
    · rename_i t ht
      exact countP_modify_only (fun _ => rfl) fun j timer hj hp =>
        Option.some.inj ((hs.timer j timer hj hp).symm.trans ht)
    · rename_i hnone
      rw [List.countP_eq_zero]
      intro timer htimer hp
      obtain ⟨j, hj⟩ := List.mem_iff_getElem?.mp htimer
      exact absurd ((hs.timer j timer hj hp).symm.trans hnone) (by simp)

theorem Hook.Single.onopen (hs : h.Single gatewayUrl) {i : Nat}
    (hst : h.sources[i]? = some .CONNECTING) : (h.onopen i).Single gatewayUrl := by
  have hlive : (h.onopen i).live = h.live :=
    countP_modify_same fun st hi => by
      obtain rfl := Option.some.inj (hst.symm.trans hi)
      rfl
  refine ⟨?_, hs.active, ?_, hs.timer⟩
  · rw [hlive]
    exact hs.one
  · exact forall_modify hs.connection fun st hi _ => hs.connection i st hi
      (by obtain rfl := Option.some.inj (hst.symm.trans hi); rfl)

/-- an error leaves a timer in the place of the event source -/
theorem Hook.Single.onerror (hs : h.Single gatewayUrl) {i : Nat}
    (hany : h.sources[i]?.any ReadyState.isLive = true) : (h.onerror i).Single gatewayUrl := by
  obtain ⟨hrun, hwaiting, hlive, herror⟩ := hs.onerror_eq hany
  rw [herror]
  constructor
  · show (h.close i).live + (h.timers ++ [_]).countP _ = if h.Running gatewayUrl then 1 else 0
    rw [if_pos hrun, hlive, List.countP_append, show h.timers.countP _ = 0 from hwaiting]
    rfl
  · exact hs.active
  · exact fun j st hj hl => absurd hl (not_of_countP_zero hlive hj)
  · exact forall_snoc (fun t timer ht hp => absurd hp (not_of_countP_zero hwaiting ht))
      fun _ => rfl

theorem Hook.Single.step (hs : h.Single gatewayUrl) {act : HookAct}
    (hh : hook gatewayUrl h act = some h') : h'.Single gatewayUrl := by
  cases act with
  | effect =>
    simp only [hook] at hh
    split at hh
    · exact absurd hh (by simp)
    · rename_i hm
      obtain ⟨hlive, hwaiting⟩ := hs.idle fun hr => hm hr.1
      split at hh
      · rename_i hurl
        obtain rfl := Option.some.inj hh
        exact .stopped hlive hwaiting fun hr => hr.2 hurl
      · rename_i hurl
        obtain rfl := Option.some.inj hh
        exact .connect hlive hwaiting ⟨rfl, hurl⟩ rfl
  | cleanup =>
    simp only [hook] at hh
    split at hh
    · split at hh
      · rename_i hurl
        obtain rfl := Option.some.inj hh
        obtain ⟨hlive, hwaiting⟩ := hs.idle fun hr => hr.2 hurl
        exact .stopped hlive hwaiting fun hr => hr.2 hurl
      · obtain rfl := Option.some.inj hh
        exact .stopped hs.cleanup.1 hs.cleanup.2 fun hr => absurd hr.1 (by simp)
    · exact absurd hh (by simp)
  | opened i =>
    simp only [hook] at hh
    split at hh
    · rename_i hst
      obtain rfl := Option.some.inj hh
      exact hs.onopen hst
    · exact absurd hh (by simp)
  | failed i =>
    simp only [hook] at hh
    split at hh
    · rename_i hany
      obtain rfl := Option.some.inj hh
      exact hs.onerror hany
    · exact absurd hh (by simp)
  | timeout t =>
    simp only [hook] at hh
    split at hh
    · rename_i hany
      obtain rfl := Option.some.inj hh
      obtain ⟨hrun, hlive, hwaiting, htimeout⟩ := hs.timeout_eq hany
      rw [htimeout]
      exact .connect hlive hwaiting hrun (hs.active hrun)
    · exact absurd hh (by simp)

end

/-! ## what the callbacks so far say -/

def HookAct.isOpened : HookAct → Bool
  | .opened _ => true
  | _ => false

def HookAct.isFailed : HookAct → Bool
  | .failed _ => true
  | _ => false

def HookAct.isCleanup : HookAct → Bool
  | .cleanup => true
  | _ => false

/-- the errors since a connection was last open -/
def failures (acts : List HookAct) : Nat :=
  (acts.reverse.takeWhile fun act => !act.isOpened).countP HookAct.isFailed

/-- a delay after so many errors: it doubles, up to a bound -/
def delayAfter (n : Nat) : Nat := min (BACKOFF_INITIAL_MS * 2 ^ n) BACKOFF_MAX_MS

/-- the last of the callbacks that satisfy `p` is that of a connection that has opened -/
def lastOpened (p : HookAct → Bool) (acts : List HookAct) : Bool :=
  (acts.filter p).getLast?.any HookAct.isOpened

theorem failures_snoc (acts : List HookAct) (act : HookAct) :
    failures (acts ++ [act]) =
      if act.isOpened then 0 else failures acts + if act.isFailed then 1 else 0 := by
  rw [failures, List.reverse_append, List.reverse_singleton, List.singleton_append,
    List.takeWhile_cons]
  cases act.isOpened with
  | true => rfl
  | false => exact List.countP_cons

theorem lastOpened_snoc (p : HookAct → Bool) (acts : List HookAct) (act : HookAct) :
    lastOpened p (acts ++ [act]) = if p act then act.isOpened else lastOpened p acts := by
  rw [lastOpened, List.filter_append, List.filter_singleton]
  cases p act with
  | true =>
    show (acts.filter p ++ [act]).getLast?.any _ = _
    rw [List.getLast?_concat]
    rfl
  | false =>
    show (acts.filter p ++ []).getLast?.any _ = _
    rw [List.append_nil]
    rfl

theorem delayAfter_succ (n : Nat) : delayAfter (n + 1) = min (delayAfter n * 2) BACKOFF_MAX_MS := by
  unfold delayAfter BACKOFF_INITIAL_MS BACKOFF_MAX_MS
  rw [Nat.pow_succ]
  omega

/-- the callbacks that the status depends on -/
def HookAct.tells (act : HookAct) : Bool := act.isOpened || act.isFailed

/-- the callbacks that open or close the event source -/
def HookAct.switches (act : HookAct) : Bool := act.tells || act.isCleanup

def Hook.Opened (h : Hook) : Prop := .OPEN ∈ h.sources

instance (h : Hook) : Decidable h.Opened := inferInstanceAs (Decidable (_ ∈ _))

structure Hook.Told (gatewayUrl : String) (acts : List HookAct) (h : Hook) : Prop where
  single : h.Single gatewayUrl
  backoff : h.backoffRef = delayAfter (failures acts)
  status : h.status = if lastOpened HookAct.tells acts then .connected
    else if gatewayUrl = "" then .dropped else .reconnecting
  opened : h.Opened ↔ lastOpened HookAct.switches acts = true

section
variable {gatewayUrl : String} {acts : List HookAct} {h h' : Hook}

theorem Hook.not_opened (hlive : h.live = 0) : ¬ h.Opened := fun ho =>
  List.countP_eq_zero.mp hlive _ ho rfl

theorem Hook.connect_rest (h : Hook) :
    h.connect.backoffRef = h.backoffRef ∧ h.connect.status = h.status := by
  rw [Hook.connect]
  split <;> exact ⟨rfl, rfl⟩

theorem Hook.cleanup_rest (h : Hook) :
    h.cleanup.backoffRef = h.backoffRef ∧ h.cleanup.status = h.status := by
  rw [Hook.cleanup, (Hook.disconnect_rest _).2.1, (Hook.disconnect_rest _).2.2]
  exact (Hook.clear_rest _).2.2

theorem Hook.opened_connect : h.connect.Opened ↔ h.Opened := by
  rw [Hook.connect]
  split
  · exact ⟨fun ho => (List.mem_append.mp ho).elim id fun ho => absurd (List.mem_singleton.mp ho) (by simp),
      fun ho => List.mem_append_left _ ho⟩
  · rfl

theorem Hook.timeout_rest (h : Hook) (t : Nat) : (h.timeout t).backoffRef = h.backoffRef ∧
    (h.timeout t).status = h.status ∧ ((h.timeout t).Opened ↔ h.Opened) := by
  rw [Hook.timeout]
  split
  · obtain ⟨hbackoff, hstatus⟩ := Hook.connect_rest { h with timers := h.timers.modify t Timer.off }
    exact ⟨hbackoff, hstatus, Hook.opened_connect⟩
  · exact ⟨rfl, rfl, Iff.rfl⟩

/-- nothing of what is said changes with a callback that neither opens nor closes anything -/
theorem Hook.Told.silent (ht : h.Told gatewayUrl acts) (hs : h'.Single gatewayUrl) {act : HookAct}
    (hact : act.switches = false) (hbackoff : h'.backoffRef = h.backoffRef)
    (hstatus : h'.status = h.status) (hopened : h'.Opened ↔ h.Opened) :
    h'.Told gatewayUrl (acts ++ [act]) := by
  obtain ⟨htells, _⟩ := Bool.or_eq_false_iff.mp hact
  obtain ⟨ho, hf⟩ := Bool.or_eq_false_iff.mp htells
  refine ⟨hs, ?_, ?_, ?_⟩
  · rw [failures_snoc, ho, hf, hbackoff]
    exact ht.backoff
  · rw [lastOpened_snoc, htells, hstatus]
    exact ht.status
  · rw [lastOpened_snoc, hact, hopened]
    exact ht.opened

theorem Hook.Told.stopped (ht : h.Told gatewayUrl acts) (hs : h'.Single gatewayUrl)
    (hlive : h'.live = 0) (hbackoff : h'.backoffRef = h.backoffRef) (hstatus : h'.status = h.status) :
    h'.Told gatewayUrl (acts ++ [.cleanup]) := by
  refine ⟨hs, ?_, ?_, ?_⟩
  · rw [failures_snoc, hbackoff]
    exact ht.backoff
  · rw [lastOpened_snoc, hstatus]
    exact ht.status
  · rw [lastOpened_snoc]
    exact iff_of_false (Hook.not_opened hlive) Bool.false_ne_true

theorem Hook.Told.onopen (ht : h.Told gatewayUrl acts) {i : Nat}
    (hst : h.sources[i]? = some .CONNECTING) :
    (h.onopen i).Told gatewayUrl (acts ++ [.opened i]) := by
  refine ⟨ht.single.onopen hst, ?_, ?_, ?_⟩
  · rw [failures_snoc]
    rfl
  · rw [lastOpened_snoc]
    rfl
  · rw [lastOpened_snoc]
    refine iff_of_true (List.mem_iff_getElem?.mpr ⟨i, ?_⟩) rfl
    show (h.sources.modify i _)[i]? = _
    rw [List.getElem?_modify_eq, hst]
    rfl

theorem Hook.Told.onerror (ht : h.Told gatewayUrl acts) {i : Nat}
    (hany : h.sources[i]?.any ReadyState.isLive = true) :
    (h.onerror i).Told gatewayUrl (acts ++ [.failed i]) := by
  obtain ⟨hrun, _, hlive, herror⟩ := ht.single.onerror_eq hany
  refine ⟨ht.single.onerror hany, ?_, ?_, ?_⟩
  · rw [failures_snoc]
    show _ = delayAfter (failures acts + 1)
    rw [delayAfter_succ, ← ht.backoff, herror]
  · rw [lastOpened_snoc, herror]
    show ConnectionStatus.reconnecting = if gatewayUrl = "" then _ else _
    rw [if_neg hrun.2]
  · rw [lastOpened_snoc, herror]
    exact iff_of_false (Hook.not_opened hlive) Bool.false_ne_true

theorem Hook.Told.step (ht : h.Told gatewayUrl acts) {act : HookAct}
    (hh : hook gatewayUrl h act = some h') : h'.Told gatewayUrl (acts ++ [act]) := by
  have hs := ht.single.step hh
  cases act with
  | effect =>
    simp only [hook] at hh
    split at hh
    · exact absurd hh (by simp)
    · split at hh
      · obtain rfl := Option.some.inj hh
        exact ht.silent hs rfl rfl rfl Iff.rfl
      · obtain rfl := Option.some.inj hh
        exact ht.silent hs rfl rfl rfl Hook.opened_connect
  | cleanup =>
    simp only [hook] at hh
    split at hh
    · split at hh
      · rename_i hurl
        obtain rfl := Option.some.inj hh
        exact ht.stopped hs (ht.single.idle fun hr => hr.2 hurl).1 rfl rfl
      · obtain rfl := Option.some.inj hh
        exact ht.stopped hs ht.single.cleanup.1 h.cleanup_rest.1 h.cleanup_rest.2
    · exact absurd hh (by simp)
  | opened i =>
    simp only [hook] at hh
    split at hh
    · rename_i hst
      obtain rfl := Option.some.inj hh
      exact ht.onopen hst
    · exact absurd hh (by simp)
  | failed i =>
    simp only [hook] at hh
    split at hh
    · rename_i hany
      obtain rfl := Option.some.inj hh
      exact ht.onerror hany
    · exact absurd hh (by simp)
  | timeout t =>
    simp only [hook] at hh
    split at hh
    · obtain rfl := Option.some.inj hh
      obtain ⟨hbackoff, hstatus, hopened⟩ := h.timeout_rest t
      exact ht.silent hs rfl hbackoff hstatus hopened
    · exact absurd hh (by simp)

theorem Hook.told_init : (Hook.init gatewayUrl).Told gatewayUrl [] where
  single := .stopped rfl rfl fun hr => absurd hr.1 Bool.false_ne_true
  backoff := rfl
  status := rfl
  opened := iff_of_false List.not_mem_nil Bool.false_ne_true

end

/-- **One connection at a time, and never none for good.**  In whatever order the effect, its clean-up,
the event sources and the timers come: while the effect is in place with a URL there is exactly one
event source that is not closed or one timer that is set, and otherwise there is nothing.  The next
timer is set to one second, doubled for every error since a connection was last open, and 30 seconds at
most.  The status is `connected` exactly if an opening came after the last error; so it is while a
connection is open, and wrongly so only after a clean-up since. -/
theorem one_connection (gatewayUrl : String) (acts : List HookAct) (h : Hook)
    (hrun : (hook gatewayUrl).Runs free (Hook.init gatewayUrl) acts h) :
    h.live + h.waiting = (if h.Running gatewayUrl then 1 else 0) ∧
    (∀ i h', hook gatewayUrl h (.failed i) = some h' →
      h'.timers = h.timers ++ [⟨delayAfter (failures acts), true⟩] ∧ h'.live = 0) ∧
    (∀ t h', hook gatewayUrl h (.timeout t) = some h' → h'.live = 1 ∧ h'.waiting = 0) ∧
    h.status = (if lastOpened HookAct.tells acts then .connected
      else if gatewayUrl = "" then .dropped else .reconnecting) ∧
    (h.Opened ↔ lastOpened HookAct.switches acts = true) := by
  have ht : h.Told gatewayUrl acts :=
    hrun.inv_history (fun _ _ _ _ ht _ hh => ht.step hh) Hook.told_init
  refine ⟨ht.single.one, ?_, ?_, ht.status, ht.opened⟩
  · intro i h' hh
    simp only [hook] at hh
    split at hh
    · rename_i hany
      obtain rfl := Option.some.inj hh
      obtain ⟨_, _, hlive, herror⟩ := ht.single.onerror_eq hany
      rw [herror]
      exact ⟨by rw [← ht.backoff], hlive⟩
    · exact absurd hh (by simp)
  · intro t h' hh
    simp only [hook] at hh
    split at hh
    · rename_i hany
      obtain rfl := Option.some.inj hh
      obtain ⟨hrun, hlive, hwaiting, htimeout⟩ := ht.single.timeout_eq hany
      rw [htimeout]
      exact Hook.connect_counts (ht.single.active hrun) hlive hwaiting
    · exact absurd hh (by simp)

/-- two errors, a connection that opens, and its loss -/
def flaky : List HookAct :=
  [.effect, .failed 0, .timeout 0, .failed 1, .timeout 1, .opened 2, .failed 2]

theorem one_connection_flaky : ∃ h, (hook "https://gateway").Runs free (Hook.init "https://gateway")
      flaky h ∧ h.timers.map Timer.delay = [1000, 2000, 1000] ∧ h.live + h.waiting = 1 ∧
      h.status = .reconnecting :=
  ⟨_, Machine.runs_free_iff.mpr rfl, rfl,
    (one_connection "https://gateway" flaky _ (Machine.runs_free_iff.mpr rfl)).1, rfl⟩

end Frontend
