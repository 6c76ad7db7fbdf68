import Purrlington.Gateway.RateLimit
import Purrlington.Lib.Pool
import Purrlington.Lib.WriteBack

/-!
# Gateway: the limits changed at runtime

`AdminRateLimitHandler` as a thread over the limiter.  A step is one atomic load or store, or the
decoding of the body, or the parsing of the window; the limiter serves requests in between.

* `adminStep`             the handler;
* `Serving`               what is known of a handler at each place, and `AdminPc.rank` how many steps
                          it has taken;
* `limitOrder`, `windowOrder`   in which order a schedule sets, reads and writes back a field;
* `setsLimit_step`, `keepsLimit_step`, `setsWindow_step`, `keepsWindow_step`   a step as an access;
* `order_run`             the accesses of a run are those of its schedule;
* `unchanged_of_badRequest`   a request answered 400 changes nothing;
* `both_applied_iff`      the schedules in which two partial updates are both applied;
* `lost_limit`            one in which the new limit is lost.
-/

set_option linter.unusedSectionVars false

namespace Gateway
open SM WriteBack

structure RateLimitUpdate where
  limit : Option Int
  window : Option String
  deriving DecidableEq, Repr

inductive AdminAnswer where
  | invalidBody
  | invalidWindow
  | updated (limit window : Int)
  deriving DecidableEq, Repr

namespace AdminAnswer

def status : AdminAnswer → Nat
  | .updated _ _ => 200
  | _ => 400

/-- the text of an error -/
def body : AdminAnswer → Option String
  | .invalidBody => some "\x7b\"error\": \"invalid body\"\x7d"
  | .invalidWindow => some "\x7b\"error\": \"invalid window\"\x7d"
  | .updated _ _ => none

end AdminAnswer

inductive AdminPc where
  | decode (body : String)
  | readLimit (body : RateLimitUpdate)
  | readWindow (body : RateLimitUpdate) (limit : Int)
  | parse (body : RateLimitUpdate) (limit per : Int)
  -- `SetLimits`
  | storeLimit (limit per : Int)
  | storeWindow (per : Int)
  -- the response
  | respondLimit
  | respondWindow (limit : Int)
  | answered (a : AdminAnswer)
  deriving DecidableEq, Repr

section
variable (decode : String → Option RateLimitUpdate) (parseDuration : String → Option Int)

/-- a step of `AdminRateLimitHandler`; `decode` is `json.Decode`, `parseDuration` is
`time.ParseDuration`, where `none` is an error -/
def adminStep (rl : RateLimiter) : AdminPc → Option (RateLimiter × AdminPc)
  | .decode body =>
    match decode body with
    | none => some (rl, .answered .invalidBody)
    | some b => some (rl, .readLimit b)
  | .readLimit b => some (rl, .readWindow b (b.limit.getD rl.limit))
  | .readWindow b limit => some (rl, .parse b limit rl.perNs)
  | .parse b limit per =>
    match b.window with
    | none => some (rl, .storeLimit limit per)
    | some window =>
      match parseDuration window with
      | none => some (rl, .answered .invalidWindow)
      | some d => some (rl, .storeLimit limit d)
  | .storeLimit limit per => some ({ rl with limit }, .storeWindow per)
  | .storeWindow per => some (if per > 0 then { rl with perNs := per } else rl, .respondLimit)
  | .respondLimit => some (rl, .respondWindow rl.limit)
  | .respondWindow limit => some (rl, .answered (.updated limit rl.perNs))
  | .answered _ => none

/-- the admin requests, given by their bodies, and the requests that the limiter decides on -/
def limitsService : Sys RateLimiter AdminPc String Arrival Unit :=
  { start := .decode
    env := fun rl r => some (rateLimitMiddleware rl r.remoteAddr r.now).2
    step := fun rl pc _ => adminStep decode parseDuration rl pc }

abbrev AdminPool := Pool RateLimiter AdminPc

abbrev AdminAct := PoolAct String Arrival Unit

/-! ## one handler -/

/-- the steps that a handler has taken -/
def AdminPc.rank : AdminPc → Nat
  | .decode _ => 0
  | .readLimit _ => 1
  | .readWindow _ _ => 2
  | .parse _ _ _ => 3
  | .storeLimit _ _ => 4
  | .storeWindow _ => 5
  | .respondLimit => 6
  | .respondWindow _ => 7
  | .answered _ => 8

/-- the handler serves this body, which decodes to `b`, and in which a window parses -/
def Serving (body : String) (b : RateLimitUpdate) : AdminPc → Prop
  | .decode x => x = body
  | .readLimit b' => b' = b
  | .readWindow b' limit => b' = b ∧ ∀ x ∈ b.limit, limit = x
  | .parse b' limit _ => b' = b ∧ ∀ x ∈ b.limit, limit = x
  | .storeLimit limit per =>
    (∀ x ∈ b.limit, limit = x) ∧ ∀ window ∈ b.window, parseDuration window = some per
  | .storeWindow per => ∀ window ∈ b.window, parseDuration window = some per
  | .respondLimit => True
  | .respondWindow _ => True
  | .answered a => a.status = 200

/-- the limit that a handler has read and is to store -/
def AdminPc.limitKept : AdminPc → Keeper Int
  | .decode _ => .before
  | .readLimit _ => .before
  | .readWindow _ limit => .kept limit
  | .parse _ limit _ => .kept limit
  | .storeLimit limit _ => .kept limit
  | _ => .after

/-- the window that a handler has read and is to store -/
def AdminPc.windowKept : AdminPc → Keeper Int
  | .decode _ => .before
  | .readLimit _ => .before
  | .readWindow _ _ => .before
  | .parse _ _ per => .kept per
  | .storeLimit _ per => .kept per
  | .storeWindow per => .kept per
  | _ => .after

inductive Next (b : RateLimitUpdate) (rl : RateLimiter) : AdminPc → RateLimiter → AdminPc → Prop where
  | decode (body : String) : Next b rl (.decode body) rl (.readLimit b)
  | readLimit : Next b rl (.readLimit b) rl (.readWindow b (b.limit.getD rl.limit))
  | readWindow (limit : Int) : Next b rl (.readWindow b limit) rl (.parse b limit rl.perNs)
  | keep (limit per : Int) : b.window = none →
      Next b rl (.parse b limit per) rl (.storeLimit limit per)
  | parse (limit per d : Int) (window : String) : b.window = some window →
      parseDuration window = some d → Next b rl (.parse b limit per) rl (.storeLimit limit d)
  | storeLimit (limit per : Int) :
      Next b rl (.storeLimit limit per) { rl with limit } (.storeWindow per)
  | storeWindow (per : Int) :
      Next b rl (.storeWindow per) (if per > 0 then { rl with perNs := per } else rl) .respondLimit
  | respondLimit : Next b rl .respondLimit rl (.respondWindow rl.limit)
  | respondWindow (limit : Int) :
      Next b rl (.respondWindow limit) rl (.answered (.updated limit rl.perNs))

variable {decode parseDuration}

section
variable {b : RateLimitUpdate} {rl rl' : RateLimiter} {pc pc' : AdminPc}

theorem next_of_step {body : String} (hb : decode body = some b)
    (hw : ∀ window ∈ b.window, ∃ d, parseDuration window = some d) (h : Serving parseDuration body b pc)
    (hst : adminStep decode parseDuration rl pc = some (rl', pc')) :
    Next parseDuration b rl pc rl' pc' := by
  cases pc with
  | decode x =>
    obtain rfl : x = body := h
    rw [adminStep, hb] at hst
    obtain ⟨rfl, rfl⟩ := Prod.mk.inj (Option.some.inj hst)
    exact .decode x
  | readLimit b' =>
    obtain rfl : b' = b := h
    obtain ⟨rfl, rfl⟩ := Prod.mk.inj (Option.some.inj hst)
    exact .readLimit
  | readWindow b' limit =>
    obtain ⟨rfl, hl⟩ := h
    obtain ⟨rfl, rfl⟩ := Prod.mk.inj (Option.some.inj hst)
    exact .readWindow limit
  | parse b' limit per =>
    obtain ⟨rfl, hl⟩ := h
    rw [adminStep] at hst
    cases hwin : b'.window with
    | none =>
      rw [hwin] at hst
      obtain ⟨rfl, rfl⟩ := Prod.mk.inj (Option.some.inj hst)
      exact .keep limit per hwin
    | some window =>
      obtain ⟨d, hd⟩ := hw window hwin
      rw [hwin] at hst
      dsimp only at hst
      rw [hd] at hst
      obtain ⟨rfl, rfl⟩ := Prod.mk.inj (Option.some.inj hst)
      exact .parse limit per d window hwin hd
  | storeLimit limit per =>
    obtain ⟨rfl, rfl⟩ := Prod.mk.inj (Option.some.inj hst)
    exact .storeLimit limit per
  | storeWindow per =>
    obtain ⟨rfl, rfl⟩ := Prod.mk.inj (Option.some.inj hst)
    exact .storeWindow per
  | respondLimit =>
    obtain ⟨rfl, rfl⟩ := Prod.mk.inj (Option.some.inj hst)
    exact .respondLimit
  | respondWindow limit =>
    obtain ⟨rfl, rfl⟩ := Prod.mk.inj (Option.some.inj hst)
    exact .respondWindow limit
  | answered a => exact absurd hst.symm (Option.some_ne_none _)

variable (hn : Next parseDuration b rl pc rl' pc')
include hn

theorem Next.rank : pc'.rank = pc.rank + 1 := by
  cases hn <;> rfl

theorem Next.serving {body : String} (h : Serving parseDuration body b pc) :
    Serving parseDuration body b pc' := by
  cases hn with
  | decode x => rfl
  | readLimit =>
    refine ⟨rfl, fun x hx => ?_⟩
    rw [Option.mem_def.mp hx]
    rfl
  | readWindow limit => exact h
  | keep limit per hwin =>
    refine ⟨h.2, fun window hmem => ?_⟩
    rw [hwin] at hmem
    exact absurd hmem (Option.not_mem_none window)
  | parse limit per d window hwin hd =>
    refine ⟨h.2, fun window' hmem => ?_⟩
    obtain rfl := Option.some.inj (hwin.symm.trans hmem)
    exact hd
  | storeLimit limit per => exact h.2
  | storeWindow per => trivial
  | respondLimit => trivial
  | respondWindow limit => rfl

end

/-! ## steps as accesses -/

/-- the access of a handler that sets a field in its step `k`, when it has taken `n` steps -/
def setAccess (k n : Nat) : List Access := if n + 1 = k then [.set] else []

/-- the access of a handler that reads a field in its step `lo` and writes it back in its step `hi` -/
def keepAccess (lo hi n : Nat) : List Access :=
  if n + 1 = lo then [.read] else if n + 1 = hi then [.write] else []

section
variable {b : RateLimitUpdate} {rl rl' : RateLimiter} {pc pc' : AdminPc}
  (hn : Next parseDuration b rl pc rl' pc')
include hn

theorem setsLimit_step {body : String} {L : Int} (hlimit : b.limit = some L)
    (h : Serving parseDuration body b pc) (q : Keeper Int) :
    (cell L fun _ => True).Runs free ⟨rl.limit, decide (5 ≤ pc.rank), q⟩ (setAccess 5 pc.rank)
      ⟨rl'.limit, decide (5 ≤ pc'.rank), q⟩ := by
  cases hn with
  | storeLimit limit per =>
    obtain rfl := h.1 L hlimit
    exact Machine.runs_cons trivial rfl rfl
  | storeWindow per => split <;> rfl
  | _ => rfl

theorem keepsLimit_step (L : Int) (hlimit : b.limit = none) (f : Bool) :
    (cell L fun _ => True).Runs free ⟨rl.limit, f, pc.limitKept⟩ (keepAccess 2 5 pc.rank)
      ⟨rl'.limit, f, pc'.limitKept⟩ := by
  cases hn with
  | readLimit =>
    rw [hlimit]
    exact Machine.runs_cons trivial rfl rfl
  | storeLimit limit per => exact Machine.runs_cons trivial rfl rfl
  | storeWindow per => split <;> rfl
  | _ => rfl

theorem setsWindow_step {body window : String} {W : Int} (hwin : b.window = some window)
    (hparse : parseDuration window = some W) (hW : 0 < W) (h : Serving parseDuration body b pc)
    (q : Keeper Int) :
    (cell W fun d => 0 < d).Runs free ⟨rl.perNs, decide (6 ≤ pc.rank), q⟩ (setAccess 6 pc.rank)
      ⟨rl'.perNs, decide (6 ≤ pc'.rank), q⟩ := by
  cases hn with
  | storeWindow per =>
    obtain rfl := Option.some.inj ((h window hwin).symm.trans hparse)
    rw [if_pos hW]
    exact Machine.runs_cons trivial rfl rfl
  | _ => rfl

theorem keepsWindow_step (W : Int) (hwin : b.window = none) (f : Bool) :
    (cell W fun d => 0 < d).Runs free ⟨rl.perNs, f, pc.windowKept⟩ (keepAccess 3 6 pc.rank)
      ⟨rl'.perNs, f, pc'.windowKept⟩ := by
  cases hn with
  | readWindow limit => exact Machine.runs_cons trivial rfl rfl
  | parse limit per d window hsome _ => exact absurd (hwin.symm.trans hsome) (Option.some_ne_none _).symm
  | storeWindow per =>
    refine Machine.runs_cons trivial (t := ⟨if 0 < per then per else rl.perNs, f, .after⟩) rfl ?_
    show _ = _
    split <;> rfl
  | _ => rfl

end

/-! ## runs -/

/-- the accesses of a schedule to a field that handler `i` sets in its step `k`, and that handler `j`
reads in its step `lo` and writes back in its step `hi`; `m` and `n` steps they have taken -/
def accesses (i k j lo hi : Nat) : Nat → Nat → List AdminAct → List Access
  | _, _, [] => []
  | m, n, .step x _ :: as =>
    if x = i then setAccess k m ++ accesses i k j lo hi (m + 1) n as
    else if x = j then keepAccess lo hi n ++ accesses i k j lo hi m (n + 1) as
    else accesses i k j lo hi m n as
  | m, n, .env _ :: as => accesses i k j lo hi m n as
  | m, n, .spawn _ :: as => accesses i k j lo hi m n as

/-- the first handler sets the limit, the second writes it back -/
def limitOrder (as : List AdminAct) : List Access := accesses 0 5 1 2 5 0 0 as

/-- the second handler sets the window, the first writes it back -/
def windowOrder (as : List AdminAct) : List Access := accesses 1 6 0 3 6 0 0 as

section
variable (get : RateLimiter → Int) (x : Int) (ok : Int → Prop) [DecidablePred ok]
  (i k j lo hi : Nat) (kept : AdminPc → Keeper Int) {P Q : AdminPc → Prop}

/-- **The accesses of a run are those of its schedule.**  A step of handler `i` is to set the field or to
leave it alone, one of handler `j` to read it, to write it back or to leave it alone. -/
theorem order_run (hij : i ≠ j)
    (henv : ∀ rl addr now, get (rateLimitMiddleware rl addr now).2 = get rl)
    (hset : ∀ rl rl' pc pc', P pc → adminStep decode parseDuration rl pc = some (rl', pc') →
      P pc' ∧ pc'.rank = pc.rank + 1 ∧ ∀ q, (cell x ok).Runs free
        ⟨get rl, decide (k ≤ pc.rank), q⟩ (setAccess k pc.rank) ⟨get rl', decide (k ≤ pc'.rank), q⟩)
    (hkeep : ∀ rl rl' pc pc', Q pc → adminStep decode parseDuration rl pc = some (rl', pc') →
      Q pc' ∧ pc'.rank = pc.rank + 1 ∧ ∀ f, (cell x ok).Runs free
        ⟨get rl, f, kept pc⟩ (keepAccess lo hi pc.rank) ⟨get rl', f, kept pc'⟩)
    {s s' : AdminPool} {as : List AdminAct} (hrun : (limitsService decode parseDuration).machine.Runs free s as s')
    (hno : ∀ r, .spawn r ∉ as) {p q : AdminPc} (hpi : s.threads[i]? = some p)
    (hqj : s.threads[j]? = some q) (honly : ∀ n, n ≠ i → n ≠ j → s.threads[n]? = none)
    (hp : P p) (hq : Q q) :
    ∃ p' q', s'.threads[i]? = some p' ∧ s'.threads[j]? = some q' ∧ P p' ∧ Q q' ∧
      (cell x ok).Runs free ⟨get s.shared, decide (k ≤ p.rank), kept q⟩
        (accesses i k j lo hi p.rank q.rank as)
        ⟨get s'.shared, decide (k ≤ p'.rank), kept q'⟩ := by
  induction as generalizing s p q with
  | nil =>
    obtain rfl : s = s' := hrun
    exact ⟨p, q, hpi, hqj, hp, hq, rfl⟩
  | cons act as ih =>
    obtain ⟨-, s1, hm, hrun⟩ := hrun
    have hno' : ∀ r, .spawn r ∉ as := fun r hr => hno r (List.mem_cons_of_mem _ hr)
    cases act with
    | spawn r => exact absurd List.mem_cons_self (hno r)
    | env r =>
      obtain ⟨c, hc, rfl⟩ := Sys.machine_env hm
      obtain rfl := Option.some.inj hc
      obtain ⟨p', q', hi', hj', hp', hq', hcell⟩ := ih hrun hno' hpi hqj honly hp hq
      refine ⟨p', q', hi', hj', hp', hq', ?_⟩
      rw [accesses]
      rwa [henv] at hcell
    | step n u =>
      obtain ⟨t, c, t', ht, hst, rfl⟩ := Sys.machine_step hm
      have hlt : n < s.threads.length := (List.getElem?_eq_some_iff.mp ht).1
      have honly' : ∀ n', n' ≠ i → n' ≠ j → (s.threads.set n t')[n']? = none := by
        intro n' h1 h2
        have hnone := honly n' h1 h2
        have hne : n ≠ n' := by
          rintro rfl
          exact absurd (hnone.symm.trans ht) (Option.some_ne_none t).symm
        rw [List.getElem?_set_ne hne]
        exact hnone
      rw [accesses]
      by_cases hni : n = i
      · subst hni
        obtain rfl := Option.some.inj (hpi.symm.trans ht)
        obtain ⟨hp1, hrank, hacc⟩ := hset _ _ _ _ hp hst
        obtain ⟨p', q', hi', hj', hp', hq', hcell⟩ := ih hrun hno' (List.getElem?_set_self hlt)
          (by rw [List.getElem?_set_ne hij]; exact hqj) honly' hp1 hq
        refine ⟨p', q', hi', hj', hp', hq', ?_⟩
        rw [if_pos rfl, ← hrank]
        exact (hacc (kept q)).append hcell
      · by_cases hnj : n = j
        · subst hnj
          obtain rfl := Option.some.inj (hqj.symm.trans ht)
          obtain ⟨hq1, hrank, hacc⟩ := hkeep _ _ _ _ hq hst
          obtain ⟨p', q', hi', hj', hp', hq', hcell⟩ := ih hrun hno'
            (by rw [List.getElem?_set_ne hni]; exact hpi) (List.getElem?_set_self hlt) honly' hp hq1
          refine ⟨p', q', hi', hj', hp', hq', ?_⟩
          rw [if_neg hni, if_pos rfl, ← hrank]
          exact (hacc (decide (k ≤ p.rank))).append hcell
        · exact absurd ((honly n hni hnj).symm.trans ht) (Option.some_ne_none t).symm

end

theorem answered_rank {pc : AdminPc} (hdone : ∃ a, pc = .answered a) :
    pc.rank = 8 ∧ pc.limitKept = .after ∧ pc.windowKept = .after := by
  obtain ⟨a, rfl⟩ := hdone
  exact ⟨rfl, rfl, rfl⟩

/-! ## requests answered 400 -/

/-- the handler has stored the limit -/
def AdminPc.hasStored : AdminPc → Prop
  | .storeWindow _ => True
  | .respondLimit => True
  | .respondWindow _ => True
  | .answered a => a.status = 200
  | _ => False

section
variable {rl rl' : RateLimiter} {pc pc' : AdminPc}

/-- a handler that changes the limiter has stored the limit, and one that has goes on to answer 200 -/
theorem hasStored_step (hst : adminStep decode parseDuration rl pc = some (rl', pc'))
    (h : pc.hasStored ∨ rl' ≠ rl) : pc'.hasStored := by
  cases pc with
  | decode body =>
    rw [adminStep] at hst
    split at hst <;>
    · obtain ⟨rfl, rfl⟩ := Prod.mk.inj (Option.some.inj hst)
      exact absurd rfl (h.resolve_left id)
  | readLimit b =>
    obtain ⟨rfl, rfl⟩ := Prod.mk.inj (Option.some.inj hst)
    exact absurd rfl (h.resolve_left id)
  | readWindow b limit =>
    obtain ⟨rfl, rfl⟩ := Prod.mk.inj (Option.some.inj hst)
    exact absurd rfl (h.resolve_left id)
  | parse b limit per =>
    have hrl : rl' = rl := by
      rw [adminStep] at hst
      split at hst
      · exact (Prod.mk.inj (Option.some.inj hst)).1.symm
      · split at hst <;> exact (Prod.mk.inj (Option.some.inj hst)).1.symm
    exact absurd hrl (h.resolve_left id)
  | storeLimit limit per =>
    obtain ⟨-, rfl⟩ := Prod.mk.inj (Option.some.inj hst)
    trivial
  | storeWindow per =>
    obtain ⟨-, rfl⟩ := Prod.mk.inj (Option.some.inj hst)
    trivial
  | respondLimit =>
    obtain ⟨-, rfl⟩ := Prod.mk.inj (Option.some.inj hst)
    trivial
  | respondWindow limit =>
    obtain ⟨-, rfl⟩ := Prod.mk.inj (Option.some.inj hst)
    rfl
  | answered a => exact absurd hst.symm (Option.some_ne_none _)

end

theorem hasStored_run {s s' : AdminPool} {as : List AdminAct} {i : Nat}
    (hrun : (limitsService decode parseDuration).machine.Runs free s as s')
    (h : ∃ pc, s.threads[i]? = some pc ∧ pc.hasStored) :
    ∃ pc, s'.threads[i]? = some pc ∧ pc.hasStored := by
  refine hrun.inv (P := fun s => ∃ pc, s.threads[i]? = some pc ∧ pc.hasStored) ?_ h
  rintro s act s1 ⟨pc, hi, hpc⟩ - hm
  cases act with
  | spawn r =>
    obtain rfl := Option.some.inj hm
    have hlt : i < s.threads.length := (List.getElem?_eq_some_iff.mp hi).1
    exact ⟨pc, (List.getElem?_append_left hlt).trans hi, hpc⟩
  | env r =>
    obtain ⟨c, -, rfl⟩ := Sys.machine_env hm
    exact ⟨pc, hi, hpc⟩
  | step n u =>
    obtain ⟨t, c, t', ht, hst, rfl⟩ := Sys.machine_step hm
    by_cases hn : n = i
    · subst hn
      obtain rfl := Option.some.inj (hi.symm.trans ht)
      have hlt : n < s.threads.length := (List.getElem?_eq_some_iff.mp ht).1
      exact ⟨t', List.getElem?_set_self hlt, hasStored_step hst (.inl hpc)⟩
    · exact ⟨pc, by rw [List.getElem?_set_ne hn]; exact hi, hpc⟩

/-- **A request answered 400 changes nothing**, with none of its steps. -/
theorem unchanged_of_badRequest {s s' : AdminPool} {before later : List AdminAct} {i : Nat}
    {a : AdminAnswer}
    (hrun : (limitsService decode parseDuration).machine.Runs free s (before ++ .step i () :: later) s')
    (hi : s'.threads[i]? = some (.answered a)) (ha : a.status = 400) :
    ∃ s1 s2, (limitsService decode parseDuration).machine.Runs free s before s1 ∧
      (limitsService decode parseDuration).machine s1 (.step i ()) = some s2 ∧
      s2.shared = s1.shared := by
  obtain ⟨s1, hbefore, -, s2, hm, hlater⟩ := hrun.split
  refine ⟨s1, s2, hbefore, hm, ?_⟩
  obtain ⟨t, c, t', ht, hst, rfl⟩ := Sys.machine_step hm
  by_contra hchange
  have hlt : i < s1.threads.length := (List.getElem?_eq_some_iff.mp ht).1
  obtain ⟨pc, hpc, hstored⟩ := hasStored_run hlater
    ⟨t', List.getElem?_set_self hlt, hasStored_step hst (.inr hchange)⟩
  obtain rfl := Option.some.inj (hi.symm.trans hpc)
  exact absurd (ha.symm.trans hstored) (by decide)

/-! ## two partial updates -/

theorem some_parses {window : String} {W : Int} (hparse : parseDuration window = some W) :
    ∀ w ∈ some window, ∃ d, parseDuration w = some d := by
  intro w hw
  obtain rfl := Option.some.inj hw
  exact ⟨W, hparse⟩

theorem no_third {p q : AdminPc} {n : Nat} (h0 : n ≠ 0) (h1 : n ≠ 1) : [p, q][n]? = none := by
  rw [List.getElem?_eq_none_iff]
  show 2 ≤ n
  omega

section
variable {rl : RateLimiter} {bodyA bodyB window : String} {L W : Int} {as : List AdminAct}
  {s' : AdminPool} (hA : decode bodyA = some ⟨some L, none⟩)
  (hB : decode bodyB = some ⟨none, some window⟩) (hparse : parseDuration window = some W)
  (hno : ∀ r, .spawn r ∉ as)
  (hrun : (limitsService decode parseDuration).machine.Runs free
    ⟨rl, [.decode bodyA, .decode bodyB]⟩ as s')
  (hdone : ∀ pc ∈ s'.threads, ∃ a, pc = .answered a)
include hA hB hparse hno hrun hdone

/-- the second handler has a window that parses -/
theorem limit_applied_iff : s'.shared.limit = L ↔
    limitOrder as ≠ [.read, .set, .write] ∨ rl.limit = L := by
  obtain ⟨p', q', hp', hq', -, -, hcell⟩ := order_run RateLimiter.limit L (fun _ => True)
    0 5 1 2 5 AdminPc.limitKept
    (P := Serving parseDuration bodyA ⟨some L, none⟩)
    (Q := Serving parseDuration bodyB ⟨none, some window⟩)
    Nat.zero_ne_one (fun rl addr now => (middleware_keeps rl addr now).1)
    (fun rl rl' pc pc' hP hst =>
      have hn := next_of_step hA (fun w hw => absurd hw (Option.not_mem_none w)) hP hst
      ⟨hn.serving hP, hn.rank, setsLimit_step hn rfl hP⟩)
    (fun rl rl' pc pc' hQ hst =>
      have hn := next_of_step hB (some_parses hparse) hQ hst
      ⟨hn.serving hQ, hn.rank, keepsLimit_step hn L rfl⟩)
    hrun hno rfl rfl (fun n h0 h1 => no_third h0 h1) rfl rfl
  obtain ⟨hrank, -, -⟩ := answered_rank (hdone p' (List.mem_of_getElem? hp'))
  obtain ⟨-, hkept, -⟩ := answered_rank (hdone q' (List.mem_of_getElem? hq'))
  rw [hrank, hkept] at hcell
  rw [set_kept_iff (l := limitOrder as) hcell]
  simp

theorem window_applied_iff (hW : 0 < W) : s'.shared.perNs = W ↔
    windowOrder as ≠ [.read, .set, .write] ∨ rl.perNs ≤ 0 ∨ rl.perNs = W := by
  obtain ⟨p', q', hp', hq', -, -, hcell⟩ := order_run RateLimiter.perNs W (fun d => 0 < d)
    1 6 0 3 6 AdminPc.windowKept
    (P := Serving parseDuration bodyB ⟨none, some window⟩)
    (Q := Serving parseDuration bodyA ⟨some L, none⟩)
    Nat.one_ne_zero (fun rl addr now => (middleware_keeps rl addr now).2)
    (fun rl rl' pc pc' hP hst =>
      have hn := next_of_step hB (some_parses hparse) hP hst
      ⟨hn.serving hP, hn.rank, setsWindow_step hn rfl hparse hW hP⟩)
    (fun rl rl' pc pc' hQ hst =>
      have hn := next_of_step hA (fun w hw => absurd hw (Option.not_mem_none w)) hQ hst
      ⟨hn.serving hQ, hn.rank, keepsWindow_step hn W rfl⟩)
    hrun hno rfl rfl (fun n h1 h0 => no_third h0 h1) rfl rfl
  obtain ⟨hrank, -, -⟩ := answered_rank (hdone p' (List.mem_of_getElem? hp'))
  obtain ⟨-, -, hkept⟩ := answered_rank (hdone q' (List.mem_of_getElem? hq'))
  rw [hrank, hkept] at hcell
  rw [set_kept_iff (l := windowOrder as) hcell, not_lt]

end

end

/-- **When two partial updates are both applied.**  Two admin requests run interleaved in any way, with
requests that the limiter decides on in between, until both are answered: the first sets only the limit,
to `L`, the second only the window, to `W > 0`.  The limiter ends with `L` and `W` if and only if the
second request does not read the limit before the first stores it and store it back after, or the old
limit was `L`; and the first does not so read and store back the window, or finds one that is not
positive, or the old window was `W`.  In every run a request that is answered 400 changes nothing. -/
theorem both_applied_iff (decode : String → Option RateLimitUpdate)
    (parseDuration : String → Option Int) :
    (∀ {rl : RateLimiter} {bodyA bodyB window : String} {L W : Int} {as : List AdminAct}
        {s' : AdminPool}, decode bodyA = some ⟨some L, none⟩ →
      decode bodyB = some ⟨none, some window⟩ → parseDuration window = some W → 0 < W →
      (∀ r, .spawn r ∉ as) →
      (limitsService decode parseDuration).machine.Runs free
        ⟨rl, [.decode bodyA, .decode bodyB]⟩ as s' →
      (∀ pc ∈ s'.threads, ∃ a, pc = .answered a) →
      (s'.shared.limit = L ∧ s'.shared.perNs = W ↔
        (limitOrder as ≠ [.read, .set, .write] ∨ rl.limit = L) ∧
        (windowOrder as ≠ [.read, .set, .write] ∨ rl.perNs ≤ 0 ∨ rl.perNs = W))) ∧
    ∀ {s s' : AdminPool} {before later : List AdminAct} {i : Nat} {a : AdminAnswer},
      (limitsService decode parseDuration).machine.Runs free s (before ++ .step i () :: later) s' →
      s'.threads[i]? = some (.answered a) → a.status = 400 →
      ∃ s1 s2, (limitsService decode parseDuration).machine.Runs free s before s1 ∧
        (limitsService decode parseDuration).machine s1 (.step i ()) = some s2 ∧
        s2.shared = s1.shared := by
  constructor
  · intro rl bodyA bodyB window L W as s' hA hB hparse hW hno hrun hdone
    exact and_congr (limit_applied_iff hA hB hparse hno hrun hdone)
      (window_applied_iff hA hB hparse hno hrun hdone hW)
  · exact unchanged_of_badRequest

/-! ## a lost update -/

/-- two bodies, as they are decoded -/
def twoUpdates (body : String) : Option RateLimitUpdate :=
  if body = "\x7b\"limit\": 5\x7d" then some ⟨some 5, none⟩
  else if body = "\x7b\"window\": \"30s\"\x7d" then some ⟨none, some "30s"⟩
  else none

def halfMinute (window : String) : Option Int := if window = "30s" then some 30000000000 else none

def twoHandlers : AdminPool :=
  ⟨newRateLimiter 10 60000000000,
    [.decode "\x7b\"limit\": 5\x7d", .decode "\x7b\"window\": \"30s\"\x7d"]⟩

def inTurns (turns : List Nat) : List AdminAct := turns.map fun i => .step i ()

/-- one after the other -/
theorem both_applied_in_order :
    ∃ s, (limitsService twoUpdates halfMinute).machine.Runs free twoHandlers
        (inTurns [0, 0, 0, 0, 0, 0, 0, 0, 1, 1, 1, 1, 1, 1, 1, 1]) s ∧
      (s.shared.limit = 5 ∧ s.shared.perNs = 30000000000 ↔
        (limitOrder (inTurns [0, 0, 0, 0, 0, 0, 0, 0, 1, 1, 1, 1, 1, 1, 1, 1]) ≠
            [.read, .set, .write] ∨ (10 : Int) = 5) ∧
        (windowOrder (inTurns [0, 0, 0, 0, 0, 0, 0, 0, 1, 1, 1, 1, 1, 1, 1, 1]) ≠
            [.read, .set, .write] ∨ (60000000000 : Int) ≤ 0 ∨ (60000000000 : Int) = 30000000000)) := by
  have hrun : (limitsService twoUpdates halfMinute).machine.Runs free twoHandlers
      (inTurns [0, 0, 0, 0, 0, 0, 0, 0, 1, 1, 1, 1, 1, 1, 1, 1]) _ := Machine.runs_free_iff.mpr rfl
  have hdone : ∀ pc ∈ [AdminPc.answered (.updated 5 60000000000),
      .answered (.updated 5 30000000000)], ∃ a, pc = .answered a := by
    intro pc hpc
    rcases List.mem_pair.mp hpc with rfl | rfl
    · exact ⟨_, rfl⟩
    · exact ⟨_, rfl⟩
  refine ⟨_, hrun, (both_applied_iff twoUpdates halfMinute).1 rfl rfl rfl (by decide) ?_ hrun hdone⟩
  intro r hr
  obtain ⟨i, _, hi⟩ := List.mem_map.mp hr
  cases hi

/-- **The new limit is lost.**  The second handler reads the old limit before the first stores the new
one, and stores it back after. -/
theorem lost_limit :
    ∃ s, (limitsService twoUpdates halfMinute).machine.run twoHandlers
        (inTurns [1, 1, 0, 0, 0, 0, 0, 0, 0, 0, 1, 1, 1, 1, 1, 1]) = some s ∧
      s.threads = [.answered (.updated 5 60000000000), .answered (.updated 10 30000000000)] ∧
      s.shared.limit ≠ 5 :=
  ⟨_, rfl, rfl, by decide⟩

end Gateway
