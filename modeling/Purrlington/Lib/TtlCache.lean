import Mathlib.Data.List.Basic
import Mathlib.Tactic.Common

/-!
# A cache with a time to live

A cache in front of a service, for requests that come one after the other.  A request that has a key
is answered from the key's entry as long as it has not expired, and by the service otherwise; a
request without one passes.

* `Service`                what is behind the cache;
* `Service.answer`, `Service.run`   the answer to a request, and what is left by a list of them;
* `Service.traced`         the same service, whose answer is the fetch: the requests that the service
                           had served before, and the request;
* `run_traced`, `answer_traced`     every answer is the service's answer to a fetch;
* `before_served`          the requests before the fetch are the first that the service has served;
* `filterMap_served`       the requests without a key are served, all of them, in order.
-/

set_option linter.unusedSectionVars false

namespace TtlCache

variable {κ ρ σ σ' α α' β : Type*}

/-- `delay` is the time from the look-up until the answer is stored, if it is kept -/
structure Service (κ ρ σ α : Type*) where
  key? : ρ → Option κ
  serve : σ → Int → ρ → σ
  respond : σ → ρ → α
  keeps : α → Bool
  delay : ρ → Int

/-- the entries, each with the time up to which it is used -/
structure State (κ σ α : Type*) where
  entries : κ → Option (α × Int)
  inner : σ

def State.start (s : σ) : State κ σ α := ⟨fun _ => none, s⟩

namespace Service
variable [DecidableEq κ] (S : Service κ ρ σ α) (ttl : Int)

/-- the answer of an entry that has not expired -/
def live (s : State κ σ α) (now : Int) (r : ρ) : Option α :=
  (S.key? r).bind fun k => ((s.entries k).filter fun e => now ≤ e.2).map Prod.fst

def answer (s : State κ σ α) (now : Int) (r : ρ) : α := (S.live s now r).getD (S.respond s.inner r)

/-- an answer of the service, as it is kept -/
def kept (now : Int) (r : ρ) (a : α) : Option (α × Int) :=
  if S.keeps a then some (a, now + S.delay r + ttl) else none

/-- the service is asked; an expired entry is gone -/
def fetch (s : State κ σ α) (now : Int) (r : ρ) : State κ σ α :=
  { entries := fun k => if S.key? r = some k then S.kept ttl now r (S.respond s.inner r) else s.entries k
    inner := S.serve s.inner now r }

def step (s : State κ σ α) (x : Int × ρ) : State κ σ α :=
  if (S.live s x.1 x.2).isSome then s else S.fetch ttl s x.1 x.2

def run (s : State κ σ α) (rs : List (Int × ρ)) : State κ σ α := rs.foldl (S.step ttl) s

/-- without the cache -/
def serveAll (s : σ) (rs : List (Int × ρ)) : σ := rs.foldl (fun s x => S.serve s x.1 x.2) s

/-! ## fetches -/

/-- what the service answers when it has served these requests -/
def value (s : σ) (p : List (Int × ρ) × ρ) : α := S.respond (S.serveAll s p.1) p.2

/-- the service that answers with the fetch itself -/
def traced (s : σ) : Service κ ρ (List (Int × ρ)) (List (Int × ρ) × ρ) where
  key? := S.key?
  serve before now r := before ++ [(now, r)]
  respond before r := (before, r)
  keeps p := S.keeps (S.value s p)
  delay := S.delay

end Service

/-- the state with other answers and another inner state -/
def State.map (φ : α → α') (h : σ → σ') (s : State κ σ α) : State κ σ' α' :=
  { entries := fun k => (s.entries k).map fun e => (φ e.1, e.2)
    inner := h s.inner }

namespace Service
variable [DecidableEq κ] (S : Service κ ρ σ α) {ttl : Int} {s₀ : σ}

theorem live_traced (t : State κ (List (Int × ρ)) (List (Int × ρ) × ρ)) (now : Int) (r : ρ) :
    S.live (t.map (S.value s₀) (S.serveAll s₀)) now r =
      ((S.traced s₀).live t now r).map (S.value s₀) := by
  unfold live
  show (S.key? r).bind _ = ((S.key? r).bind _).map _
  cases S.key? r with
  | none => rfl
  | some k =>
    show (((t.entries k).map _).filter _).map _ = (((t.entries k).filter _).map _).map _
    cases t.entries k with
    | none => rfl
    | some e =>
      rw [Option.map_some, Option.filter_some, Option.filter_some]
      by_cases h : now ≤ e.2
      · rw [if_pos (by simpa using h), if_pos (by simpa using h)]
        rfl
      · rw [if_neg (by simpa using h), if_neg (by simpa using h)]
        rfl

theorem fetch_traced (t : State κ (List (Int × ρ)) (List (Int × ρ) × ρ)) (now : Int) (r : ρ) :
    S.fetch ttl (t.map (S.value s₀) (S.serveAll s₀)) now r =
      ((S.traced s₀).fetch ttl t now r).map (S.value s₀) (S.serveAll s₀) := by
  have hinner : S.serve (S.serveAll s₀ t.inner) now r = S.serveAll s₀ (t.inner ++ [(now, r)]) := by
    unfold serveAll
    rw [List.foldl_append]
    rfl
  unfold fetch State.map
  refine congrArg₂ _ (funext fun k => ?_) hinner
  show (if S.key? r = some k then _ else _) = (if S.key? r = some k then _ else _ : Option _).map _
  split
  · unfold kept
    show (if S.keeps (S.value s₀ (t.inner, r)) then _ else _) =
      (if S.keeps (S.value s₀ (t.inner, r)) then _ else _ : Option _).map _
    split <;> rfl
  · rfl

theorem step_traced (t : State κ (List (Int × ρ)) (List (Int × ρ) × ρ)) (x : Int × ρ) :
    S.step ttl (t.map (S.value s₀) (S.serveAll s₀)) x =
      ((S.traced s₀).step ttl t x).map (S.value s₀) (S.serveAll s₀) := by
  unfold step
  rw [live_traced, Option.isSome_map]
  split
  · rfl
  · exact S.fetch_traced t x.1 x.2

theorem run_traced (t : State κ (List (Int × ρ)) (List (Int × ρ) × ρ)) (rs : List (Int × ρ)) :
    S.run ttl (t.map (S.value s₀) (S.serveAll s₀)) rs =
      ((S.traced s₀).run ttl t rs).map (S.value s₀) (S.serveAll s₀) := by
  induction rs generalizing t with
  | nil => rfl
  | cons x rs ih =>
    show S.run ttl (S.step ttl _ x) rs = _
    rw [step_traced, ih]
    rfl

/-- **Every answer is the service's answer to a fetch.** -/
theorem answer_traced (rs : List (Int × ρ)) (now : Int) (r : ρ) :
    S.answer (S.run ttl (.start s₀) rs) now r =
      S.value s₀ ((S.traced s₀).answer ((S.traced s₀).run ttl (.start []) rs) now r) := by
  have hrun : S.run ttl (.start s₀) rs =
      ((S.traced s₀).run ttl (.start []) rs).map (S.value s₀) (S.serveAll s₀) :=
    S.run_traced (.start []) rs
  rw [hrun, answer, live_traced, answer]
  generalize (S.traced s₀).run ttl (.start []) rs = t
  cases (S.traced s₀).live t now r <;> rfl

/-! ## what a fetch comes after -/

/-- what came before a fetch that is kept is what the service served first -/
def Ordered (t : State κ (List (Int × ρ)) (List (Int × ρ) × ρ)) : Prop :=
  ∀ k e, t.entries k = some e → e.1.1 <+: t.inner

theorem Ordered.step {t : State κ (List (Int × ρ)) (List (Int × ρ) × ρ)} (h : Ordered t)
    (x : Int × ρ) : Ordered ((S.traced s₀).step ttl t x) := by
  unfold Service.step
  split
  · exact h
  · intro k e he
    have hinner : ((S.traced s₀).fetch ttl t x.1 x.2).inner = t.inner ++ [(x.1, x.2)] := rfl
    rw [hinner]
    refine List.IsPrefix.trans ?_ (List.prefix_append t.inner _)
    unfold fetch at he
    dsimp only at he
    split at he
    · unfold kept at he
      split at he
      · obtain rfl := Option.some.inj he
        exact List.prefix_refl _
      · exact absurd he nofun
    · exact h k e he

theorem ordered_run (rs : List (Int × ρ)) :
    Ordered ((S.traced s₀).run ttl (.start []) rs) := by
  suffices h : ∀ t, Ordered t → Ordered ((S.traced s₀).run ttl t rs) from
    h _ fun k e he => absurd he nofun
  induction rs with
  | nil => exact fun _ h => h
  | cons x rs ih => exact fun t h => ih _ (Ordered.step S h x)

theorem before_served (rs : List (Int × ρ)) (now : Int) (r : ρ) :
    ((S.traced s₀).answer ((S.traced s₀).run ttl (.start []) rs) now r).1 <+:
      ((S.traced s₀).run ttl (.start []) rs).inner := by
  have h : Ordered ((S.traced s₀).run ttl (.start []) rs) := S.ordered_run rs
  generalize (S.traced s₀).run ttl (.start []) rs = t at h
  unfold answer
  cases hl : (S.traced s₀).live t now r with
  | none => exact List.prefix_refl _
  | some p =>
    obtain ⟨k, _, hk⟩ := Option.bind_eq_some_iff.mp hl
    obtain ⟨e, he, rfl⟩ := Option.map_eq_some_iff.mp hk
    exact h k e (Option.filter_eq_some_iff.mp he).1

theorem mem_of_served {x : Int × ρ} (rs : List (Int × ρ))
    (h : x ∈ ((S.traced s₀).run ttl (.start []) rs).inner) : x ∈ rs := by
  suffices hrun : ∀ t, x ∈ ((S.traced s₀).run ttl t rs).inner → x ∈ t.inner ++ rs from
    hrun (.start []) h
  clear h
  induction rs with
  | nil => exact fun t h => List.mem_append_left _ h
  | cons y rs ih =>
    intro t h
    have h : x ∈ ((S.traced s₀).step ttl t y).inner ++ rs := ih _ h
    unfold step at h
    split at h
    · exact (List.sublist_append_right [y] rs).append_left t.inner |>.subset h
    · rw [List.append_cons]
      exact h

theorem filterMap_served {f : Int × ρ → Option β} (hf : ∀ x, (S.key? x.2).isSome → f x = none)
    (rs : List (Int × ρ)) :
    ((S.traced s₀).run ttl (.start []) rs).inner.filterMap f = rs.filterMap f := by
  suffices h : ∀ t, ((S.traced s₀).run ttl t rs).inner.filterMap f =
      t.inner.filterMap f ++ rs.filterMap f from h (.start [])
  induction rs with
  | nil => exact fun t => (List.append_nil _).symm
  | cons x rs ih =>
    intro t
    show ((S.traced s₀).run ttl ((S.traced s₀).step ttl t x) rs).inner.filterMap f = _
    rw [ih]
    unfold step
    split
    · rename_i hl
      have hkey : (S.key? x.2).isSome := by
        obtain ⟨p, hp⟩ := Option.isSome_iff_exists.mp hl
        obtain ⟨k, hk, _⟩ := Option.bind_eq_some_iff.mp hp
        exact Option.isSome_iff_exists.mpr ⟨k, hk⟩
      rw [List.filterMap_cons, hf x hkey]
    · show (t.inner ++ [(x.1, x.2)]).filterMap f ++ _ = _
      rw [List.filterMap_append, List.append_assoc, ← List.filterMap_append]
      rfl

end Service
end TtlCache
