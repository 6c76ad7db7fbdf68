import Purrlington.Airport.Accounts

/-!
# Airport: operations that run one at a time

A call that nobody disturbs is one function of the state, and so is what a worker does between two
places where it rests: the head of its loop, the booth, and its end.

* `assignAndEnqueue`, `openGate`, `closeGate`   the calls as a whole;
* `Worker.left`, `World.operate`   a worker's pick or completion as a whole;
* `serial`                  whole operations one after the other, as a machine;
* `serial_runs`             every operation is a run of the airport;
* `toRest_rests`            and leaves its worker at rest.
-/

set_option linter.unusedSectionVars false

namespace Airport
open SM

namespace World

/-- `self.gates.get(gate_id)` -/
def gateAt (w : World) (gate_id : String) : Option Gate :=
  (w.gates.get? gate_id).bind fun g => w.heap[g]?

/-- `assign_and_enqueue`; nothing has changed when there is no gate to choose -/
def assignAndEnqueue (w : World) (guest : Guest) : Option World :=
  match w.chooseGate guest with
  | none => some w
  | some g => w.heap[g]?.map fun gate =>
    (w.insertRow guest w.now gate.gate_id).join g w.rows.length

def openGate (cfg : Config) (w : World) (gate_id gate_type : String) : World :=
  match Call.checkOpen w gate_id gate_type with
  | .register gate_id type => w.register cfg gate_id type
  | _ => w

/-- the loop body of `close_gate`: a displaced guest goes to the shortest of the other gates -/
def requeue (w : World) (first : Nat) (others : List Nat) (x : Nat) : Option World :=
  let target := argmin w.queueLength first others
  w.heap[target]?.map fun gate =>
    ((w.retarget x gate.gate_id).join target x).recordRow x gate.gate_id

/-- the loop of `close_gate` -/
def requeueAll (first : Nat) (others : List Nat) : World → List Nat → Option World
  | w, [] => some w
  | w, x :: left => (w.requeue first others x).bind fun w => requeueAll first others w left

/-- `close_gate` after its checks -/
def close (w : World) (k : Closing) : Option World :=
  (w.deactivate k.gate).heap[k.gate]?.bind fun gate =>
    (requeueAll k.first k.others ((w.deactivate k.gate).displace k.gate gate)
      (gate.currently_processing.toList ++ gate.queue)).map fun w => w.remove k.gate_id

def closeGate (w : World) (gate_id : String) : Option World :=
  match Call.lookupClose w gate_id with
  | some (.deactivate k) => w.close k
  | some _ => some w
  | none => none

end World

/-- the steps that a worker has before it until it rests -/
def Worker.left : Worker → Nat
  | .ready => 3
  | .holding _ _ => 2
  | .marking _ => 1
  | .recording bundle => bundle.length + 2
  | .publishing left => left.length + 1
  | .head => 0
  | .processing _ => 0
  | .stopped => 0

namespace World

def left (w : World) (g : Nat) : Nat :=
  match w.heap[g]? with
  | some gate => gate.worker.left
  | none => 0

/-- the worker goes on until it rests, for so many steps at most -/
def toRest (cfg : Config) (g : Nat) : Nat → World → Option World
  | 0, w => some w
  | n + 1, w => if w.left g = 0 then some w else (w.work cfg g).bind (toRest cfg g n)

/-- the next operation of a worker as a whole: from the head of its loop a pick, with the commits
of its marks; from the booth the completion, with its events -/
def operate (cfg : Config) (w : World) (g : Nat) : Option World :=
  (w.work cfg g).bind fun w => w.toRest cfg g (w.left g)

end World

/-- whole operations, and time that passes -/
inductive Op where
  | assign (guest : Guest)
  | open (gate_id gate_type : String)
  | close (gate_id : String)
  | work (g : Nat)
  | tick (d : Nat)

/-- the operations run one at a time -/
def serial (cfg : Config) : Machine World Op
  | w, .assign guest => w.assignAndEnqueue guest
  | w, .open gate_id gate_type => some (w.openGate cfg gate_id gate_type)
  | w, .close gate_id => w.closeGate gate_id
  | w, .work g => w.operate cfg g
  | w, .tick d => w.env cfg (.tick d)

/-! ## an operation is a run of the airport -/

section
variable {cfg : Config} {w w' : World} {g : Nat}

theorem modifyGate_self {gate : Gate} (hg : w.heap[g]? = some gate) (f : Gate → Gate) :
    (w.modifyGate g f).heap[g]? = some (f gate) := by
  show (w.heap.modify g f)[g]? = _
  rw [modify_eq_set hg, List.getElem?_set_self (List.getElem?_eq_some_iff.mp hg).1]

theorem modifyGate_ne {j : Nat} (hj : j ≠ g) (f : Gate → Gate) :
    (w.modifyGate g f).heap[j]? = w.heap[j]? :=
  List.getElem?_modify_ne f w.heap fun e => hj e.symm

/-- the steps of one call alone -/
abbrev Alone (cfg : Config) : World → Call → List Unit → World → Call → Prop :=
  (airport cfg).Steps fun _ _ => True

theorem alone_one {call call' : Call} (h : call.step cfg w = some (w', call')) :
    Alone cfg w call [()] w' call' := Sys.Steps.one trivial h

theorem alone_runs {r : Api} {call : Call} {as : List Unit} (h : Alone cfg w r.start as w' call)
    (ts : List Call) :
    ∃ acts ts', (airport cfg).machine.Runs free ⟨w, ts⟩ acts ⟨w', ts'⟩ := by
  have hi : (ts ++ [r.start])[ts.length]? = some r.start := List.getElem?_concat_length
  have hrun := h.runs (ts ++ [r.start]) ts.length hi
  exact ⟨_, _, Sys.runs_spawn (s := ⟨w, ts⟩) (r := r) trivial (hrun.mono fun _ _ _ => trivial)⟩

theorem assign_alone {guest : Guest} (h : w.assignAndEnqueue guest = some w') :
    ∃ as call, Alone cfg w (.choose guest) as w' call := by
  unfold World.assignAndEnqueue at h
  split at h
  · rename_i hc
    obtain rfl := Option.some.inj h
    have h₁ : Call.step cfg w (.choose guest) =
        some (w, .failed "min() iterable argument is empty") := by rw [Call.step, hc]
    exact ⟨_, _, alone_one h₁⟩
  · rename_i g hc
    obtain ⟨gate, hg, rfl⟩ := Option.map_eq_some_iff.mp h
    have h₁ : Call.step cfg w (.choose guest) = some (w, .insert guest g w.now) := by
      rw [Call.step, hc]
    have h₂ : Call.step cfg w (.insert guest g w.now) =
        some (w.insertRow guest w.now gate.gate_id, .enqueue g w.rows.length) := by
      rw [Call.step, hg]
      rfl
    have h₃ : Call.step cfg (w.insertRow guest w.now gate.gate_id) (.enqueue g w.rows.length) =
        some ((w.insertRow guest w.now gate.gate_id).join g w.rows.length,
          .accepted (acceptedReply (w.insertRow guest w.now gate.gate_id) gate w.rows.length)) := by
      show w.heap[g]?.map _ = _
      rw [hg]
      rfl
    exact ⟨_, _, ((alone_one h₁).append (alone_one h₂)).append (alone_one h₃)⟩

theorem open_alone (gate_id gate_type : String) :
    ∃ as call, Alone cfg w (.check gate_id gate_type) as (w.openGate cfg gate_id gate_type) call := by
  have h : Call.step cfg w (.check gate_id gate_type) =
      some (w, Call.checkOpen w gate_id gate_type) := rfl
  unfold World.openGate
  split
  · rename_i id type hc
    rw [hc] at h
    have h₂ : Call.step cfg w (.register id type) = some (w.register cfg id type, .opened) := rfl
    exact ⟨_, _, (alone_one h).append (alone_one h₂)⟩
  · exact ⟨_, _, alone_one h⟩

theorem requeue_gates {first x : Nat} {others : List Nat} (h : w.requeue first others x = some w') :
    w'.gates = w.gates := by
  obtain ⟨gate, _, rfl⟩ := Option.map_eq_some_iff.mp h
  rfl

theorem requeueAll_gates {first : Nat} {others left : List Nat}
    (h : World.requeueAll first others w left = some w') : w'.gates = w.gates := by
  induction left generalizing w with
  | nil =>
    obtain rfl := Option.some.inj h
    rfl
  | cons x left ih =>
    obtain ⟨w₁, h₁, h⟩ := Option.bind_eq_some_iff.mp h
    exact (ih h).trans (requeue_gates h₁)

theorem requeueAll_alone (k : Closing) {left : List Nat}
    (h : World.requeueAll k.first k.others w left = some w') :
    ∃ as, Alone cfg w (.target k left) as w' (.target k []) := by
  induction left generalizing w with
  | nil =>
    obtain rfl := Option.some.inj h
    exact ⟨[], rfl, rfl⟩
  | cons x left ih =>
    obtain ⟨w₁, h₁, h⟩ := Option.bind_eq_some_iff.mp h
    obtain ⟨as, has⟩ := ih h
    obtain ⟨gate, hg, rfl⟩ := Option.map_eq_some_iff.mp h₁
    generalize ht : argmin w.queueLength k.first k.others = target at *
    have hq : Call.step cfg w (.target k (x :: left)) =
        some (w.retarget x gate.gate_id, .requeue k target x left) := by
      show w.heap[argmin w.queueLength k.first k.others]?.map _ = _
      rw [ht, hg]
      rfl
    have hj : Call.step cfg (w.retarget x gate.gate_id) (.requeue k target x left) =
        some ((w.retarget x gate.gate_id).join target x, .record k target x left) := by
      show w.heap[target]?.map _ = _
      rw [hg]
      rfl
    have hr : Call.step cfg ((w.retarget x gate.gate_id).join target x) (.record k target x left) =
        some (((w.retarget x gate.gate_id).join target x).recordRow x gate.gate_id,
          .target k left) := by
      show ((w.retarget x gate.gate_id).join target x).heap[target]?.map _ = _
      rw [World.join, modifyGate_self (w := w.retarget x gate.gate_id) hg]
      rfl
    exact ⟨_, (((alone_one hq).append (alone_one hj)).append (alone_one hr)).append has⟩

theorem lookupClose_closing {gate_id : String} {k : Closing}
    (h : Call.lookupClose w gate_id = some (.deactivate k)) :
    k.gate_id = gate_id ∧ w.gates.get? gate_id = some k.gate ∧ ∃ gate, w.heap[k.gate]? = some gate ∧
      w.sameType gate_id gate.gate_type = k.first :: k.others := by
  unfold Call.lookupClose at h
  split at h
  · exact absurd h (by simp)
  · rename_i g hg
    obtain ⟨gate, hgate, h⟩ := Option.map_eq_some_iff.mp h
    split at h
    · exact absurd h (by simp)
    · rename_i first others hs
      obtain rfl := Call.deactivate.inj h
      exact ⟨rfl, hg, gate, hgate, hs⟩

theorem lookup_alone {gate_id : String} {call : Call}
    (h : Call.lookupClose w gate_id = some call) :
    Alone cfg w (.lookup gate_id) [()] w call := by
  apply alone_one
  rw [Call.step, h]
  rfl

theorem close_alone {gate_id : String} (h : w.closeGate gate_id = some w') :
    ∃ as call, Alone cfg w (.lookup gate_id) as w' call := by
  unfold World.closeGate at h
  split at h
  · rename_i k hl
    obtain ⟨rfl, hget, _⟩ := lookupClose_closing hl
    obtain ⟨gate, hg, h⟩ := Option.bind_eq_some_iff.mp h
    obtain ⟨w₂, hall, rfl⟩ := Option.map_eq_some_iff.mp h
    have h₂ : Call.step cfg w (.deactivate k) = some (w.deactivate k.gate, .displace k) := rfl
    have h₃ : Call.step cfg (w.deactivate k.gate) (.displace k) =
        some ((w.deactivate k.gate).displace k.gate gate, .target
          { k with displaced := (gate.currently_processing.toList ++ gate.queue).length }
          (gate.currently_processing.toList ++ gate.queue)) := by
      show (w.deactivate k.gate).heap[k.gate]?.map _ = _
      rw [hg]
      rfl
    obtain ⟨as, has⟩ : ∃ as, Alone cfg _ (.target _ _) as w₂ (.target _ []) := requeueAll_alone
      { k with displaced := (gate.currently_processing.toList ++ gate.queue).length } hall
    have hget₂ : w₂.gates.get? k.gate_id = some k.gate := by
      rw [requeueAll_gates hall]
      exact hget
    have h₅ : Call.step cfg w₂ (.delete
        { k with displaced := (gate.currently_processing.toList ++ gate.queue).length }) =
        some (w₂.remove k.gate_id,
          .closed (gate.currently_processing.toList ++ gate.queue).length) := by
      rw [Call.step, hget₂]
    exact ⟨_, _, (((((lookup_alone hl).append (alone_one h₂)).append (alone_one h₃)).append
      has).append (alone_one rfl)).append (alone_one h₅)⟩
  · rename_i call hk hl
    obtain rfl := Option.some.inj h
    exact ⟨_, _, lookup_alone hl⟩
  · exact absurd h (by simp)

theorem work_runs (h : w.work cfg g = some w') (ts : List Call) :
    (airport cfg).machine.Runs free ⟨w, ts⟩ [.env (.work g)] ⟨w', ts⟩ := by
  refine Machine.runs_cons trivial ?_ (Machine.runs_nil _)
  show (w.work cfg g).map _ = _
  rw [h]
  rfl

theorem toRest_runs {n : Nat} (h : w.toRest cfg g n = some w') (ts : List Call) :
    ∃ acts, (airport cfg).machine.Runs free ⟨w, ts⟩ acts ⟨w', ts⟩ := by
  induction n generalizing w with
  | zero =>
    obtain rfl := Option.some.inj h
    exact ⟨[], Machine.runs_nil _⟩
  | succ n ih =>
    rw [World.toRest] at h
    split at h
    · obtain rfl := Option.some.inj h
      exact ⟨[], Machine.runs_nil _⟩
    · obtain ⟨w₁, h₁, h⟩ := Option.bind_eq_some_iff.mp h
      obtain ⟨acts, hacts⟩ := ih h
      exact ⟨_, (work_runs h₁ ts).append hacts⟩

/-- **Every operation is a run of the airport**, whatever calls it has already had. -/
theorem serial_runs {op : Op} (h : serial cfg w op = some w') (ts : List Call) :
    ∃ acts ts', (airport cfg).machine.Runs free ⟨w, ts⟩ acts ⟨w', ts'⟩ := by
  cases op with
  | assign guest =>
    obtain ⟨as, call, ha⟩ : ∃ as call, Alone cfg w (.choose guest) as w' call := assign_alone h
    exact alone_runs (r := .assign guest) ha ts
  | «open» gate_id gate_type =>
    obtain rfl := Option.some.inj h
    obtain ⟨as, call, ha⟩ := @open_alone cfg w gate_id gate_type
    exact alone_runs (r := .open gate_id gate_type) ha ts
  | close gate_id =>
    obtain ⟨as, call, ha⟩ : ∃ as call, Alone cfg w (.lookup gate_id) as w' call := close_alone h
    exact alone_runs (r := .close gate_id) ha ts
  | work g =>
    obtain ⟨w₁, h₁, h⟩ := Option.bind_eq_some_iff.mp h
    obtain ⟨acts, hacts⟩ := toRest_runs h ts
    exact ⟨_, ts, (work_runs h₁ ts).append hacts⟩
  | tick d =>
    obtain rfl := Option.some.inj h
    exact ⟨[.env (.tick d)], ts, Machine.runs_cons trivial rfl (Machine.runs_nil _)⟩

/-! ## an operation leaves its worker at rest -/

theorem left_eq {gate : Gate} (hg : w.heap[g]? = some gate) : w.left g = gate.worker.left := by
  rw [World.left, hg]

theorem afterHeld_left (bundle : Option (List Nat)) : (World.afterHeld bundle).left ≤ 1 := by
  cases bundle with
  | none => exact Nat.zero_le 1
  | some bundle => exact Nat.le_refl 1

theorem work_left (h : w.work cfg g = some w') (hl : w.left g ≠ 0) : w'.left g < w.left g := by
  obtain ⟨gate, gate', w₁, hg, hs, rfl⟩ := work_step h
  have hg' : (w.heap.set g gate')[g]? = some gate' :=
    List.getElem?_set_self (List.getElem?_eq_some_iff.mp hg).1
  rw [left_eq hg] at hl ⊢
  rw [left_eq hg']
  cases hs with
  | head hw => exact absurd (by rw [hw]; rfl) hl
  | processing bundle hw => exact absurd (by rw [hw]; rfl) hl
  | ready hw =>
    rw [hw]
    show Worker.left (if _ then _ else _) < 3
    split
    · have := afterHeld_left (pickNext (w.reads cfg) gate.queue).bundle
      omega
    · exact Nat.lt_succ_self 2
  | holding bundle held hw =>
    rw [hw]
    have := afterHeld_left bundle
    show (World.afterHeld bundle).left < 2
    omega
  | marking bundle hw =>
    rw [hw]
    exact Nat.zero_lt_one
  | recording bundle hw =>
    rw [hw]
    exact Nat.lt_succ_self (bundle.length + 1)
  | publishing x left hw =>
    rw [hw]
    exact Nat.lt_succ_self (left.length + 1)
  | done hw =>
    rw [hw]
    exact Nat.zero_lt_one

theorem toRest_rests {n : Nat} (hn : w.left g ≤ n) (h : w.toRest cfg g n = some w') :
    w'.left g = 0 := by
  induction n generalizing w with
  | zero =>
    obtain rfl := Option.some.inj h
    exact Nat.le_zero.mp hn
  | succ n ih =>
    rw [World.toRest] at h
    split at h
    · rename_i h0
      obtain rfl := Option.some.inj h
      exact h0
    · rename_i h0
      obtain ⟨w₁, h₁, h⟩ := Option.bind_eq_some_iff.mp h
      have := work_left h₁ h0
      exact ih (by omega) h

theorem work_isSome {gate : Gate} (hg : w.heap[g]? = some gate) (hne : gate.worker ≠ .stopped) :
    ∃ w', w.work cfg g = some w' := by
  rw [World.work, hg, Option.bind_some]
  split
  all_goals first | exact ⟨_, rfl⟩ | exact absurd ‹_› hne

theorem toRest_isSome (n : Nat) (w : World) : ∃ w', w.toRest cfg g n = some w' := by
  induction n generalizing w with
  | zero => exact ⟨w, rfl⟩
  | succ n ih =>
    rw [World.toRest]
    split
    · exact ⟨w, rfl⟩
    · rename_i h0
      rcases hg : w.heap[g]? with _ | gate
      · exact absurd (by rw [World.left, hg]) h0
      · rw [left_eq hg] at h0
        obtain ⟨w₁, h₁⟩ : ∃ w₁, w.work cfg g = some w₁ :=
          work_isSome hg fun e => h0 (by rw [e]; rfl)
        rw [h₁]
        exact ih w₁

theorem operate_isSome {gate : Gate} (hg : w.heap[g]? = some gate) (hne : gate.worker ≠ .stopped) :
    ∃ w', w.operate cfg g = some w' := by
  obtain ⟨w₁, h₁⟩ : ∃ w₁, w.work cfg g = some w₁ := work_isSome hg hne
  rw [World.operate, h₁]
  exact toRest_isSome _ w₁

end

end Airport
