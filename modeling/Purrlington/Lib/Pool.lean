import Purrlington.Lib.Machine

/-!
# Pools: threads over a shared state

A system of threads that share a state `κ`: a thread arrives, the environment moves the shared
state, or one thread takes a step that may change the shared state.

* `Sys.machine`      the interleavings, as a step machine;
* `Local g`          the guard that restricts each thread's own steps by `g`;
* `Sys.inv`          the invariant rule: what holds of the shared state and of every thread by
                     itself, when each step keeps it for the thread that moves and for the others;
* `Sys.Steps`        one thread stepping alone, and `Steps.runs`, the run this is.
-/

namespace SM

variable {κ τ ρ ε α : Type*}

structure Pool (κ τ : Type*) where
  shared : κ
  threads : List τ

inductive PoolAct (ρ ε α : Type*) where
  | spawn (r : ρ)
  | env (e : ε)
  | step (i : Nat) (a : α)

/-- how a thread starts, what the environment does to the shared state, how a thread steps -/
structure Sys (κ τ ρ ε α : Type*) where
  start : ρ → τ
  env : κ → ε → Option κ
  step : κ → τ → α → Option (κ × τ)

/-- every step of a thread is one that `g` allows it -/
def Local (g : τ → α → Prop) : Pool κ τ → PoolAct ρ ε α → Prop
  | s, .step i a => ∀ t ∈ s.threads[i]?, g t a
  | _, .spawn _ => True
  | _, .env _ => True

instance (g : τ → α → Prop) [∀ t a, Decidable (g t a)] :
    ∀ (s : Pool κ τ) (act : PoolAct ρ ε α), Decidable (Local g s act)
  | s, .step i a => inferInstanceAs (Decidable (∀ t ∈ s.threads[i]?, g t a))
  | _, .spawn _ => inferInstanceAs (Decidable True)
  | _, .env _ => inferInstanceAs (Decidable True)

namespace Sys

variable (S : Sys κ τ ρ ε α)

def machine : Machine (Pool κ τ) (PoolAct ρ ε α)
  | s, .spawn r => some ⟨s.shared, s.threads ++ [S.start r]⟩
  | s, .env e => (S.env s.shared e).map fun c => ⟨c, s.threads⟩
  | s, .step i a => s.threads[i]?.bind fun t =>
      (S.step s.shared t a).map fun p => ⟨p.1, s.threads.set i p.2⟩

variable {S}

theorem machine_step {s s' : Pool κ τ} {i : Nat} {a : α} (h : S.machine s (.step i a) = some s') :
    ∃ t c' t', s.threads[i]? = some t ∧ S.step s.shared t a = some (c', t') ∧
      s' = ⟨c', s.threads.set i t'⟩ := by
  obtain ⟨t, ht, h⟩ := Option.bind_eq_some_iff.mp h
  obtain ⟨⟨c', t'⟩, hs, rfl⟩ := Option.map_eq_some_iff.mp h
  exact ⟨t, c', t', ht, hs, rfl⟩

theorem machine_env {s s' : Pool κ τ} {e : ε} (h : S.machine s (.env e) = some s') :
    ∃ c', S.env s.shared e = some c' ∧ s' = ⟨c', s.threads⟩ := by
  obtain ⟨c', hc, rfl⟩ := Option.map_eq_some_iff.mp h
  exact ⟨c', hc, rfl⟩

/-- the shared state satisfies `I`, and every thread `T` in it -/
structure Holds (I : κ → Prop) (T : κ → τ → Prop) (s : Pool κ τ) : Prop where
  shared : I s.shared
  threads : ∀ t ∈ s.threads, T s.shared t

section
variable {I : κ → Prop} {T : κ → τ → Prop} {G : Pool κ τ → PoolAct ρ ε α → Prop}

theorem Holds.spawn {s : Pool κ τ} {t : τ} (h : Holds I T s) (ht : T s.shared t) :
    Holds I T ⟨s.shared, s.threads ++ [t]⟩ := by
  refine ⟨h.shared, ?_⟩
  intro u hu
  rcases List.mem_append.mp hu with hu | hu
  · exact h.threads u hu
  · obtain rfl := List.mem_singleton.mp hu
    exact ht

theorem Holds.set {s : Pool κ τ} {i : Nat} {c' : κ} {t' : τ} (h : Holds I T s) (hI : I c')
    (ht : T c' t') (hu : ∀ u, T s.shared u → T c' u) :
    Holds I T ⟨c', s.threads.set i t'⟩ := by
  refine ⟨hI, ?_⟩
  intro u hm
  rcases List.mem_or_eq_of_mem_set hm with hm | rfl
  · exact hu u (h.threads u hm)
  · exact ht

/-- **The invariant rule of a pool.**  A step has to keep `I`, establish `T` for the thread that
moves and keep `T` for every other. -/
theorem inv {s s' : Pool κ τ} {as : List (PoolAct ρ ε α)} (h : S.machine.Runs G s as s')
    (hstart : ∀ c r, I c → T c (S.start r))
    (henv : ∀ c e c', I c → S.env c e = some c' → I c' ∧ ∀ u, T c u → T c' u)
    (hstep : ∀ s i a t c' t', Holds I T s → G s (.step i a) → s.threads[i]? = some t →
      S.step s.shared t a = some (c', t') → I c' ∧ T c' t' ∧ ∀ u, T s.shared u → T c' u)
    (h0 : Holds I T s) : Holds I T s' := by
  refine h.inv (fun s act s' hs hg hm => ?_) h0
  cases act with
  | spawn r =>
    obtain rfl := Option.some.inj hm
    exact hs.spawn (hstart _ r hs.shared)
  | env e =>
    obtain ⟨c', hc, rfl⟩ := machine_env hm
    obtain ⟨hI, hT⟩ := henv _ e c' hs.shared hc
    exact ⟨hI, fun u hu => hT u (hs.threads u hu)⟩
  | step i a =>
    obtain ⟨t, c', t', ht, hst, rfl⟩ := machine_step hm
    obtain ⟨hI, hT, hu⟩ := hstep s i a t c' t' hs hg ht hst
    exact hs.set hI hT hu

end

/-! ## one thread alone -/

variable (S)

/-- a thread takes the steps `as`, each allowed by `g`, and nothing else happens -/
def Steps (g : τ → α → Prop) : κ → τ → List α → κ → τ → Prop
  | c, t, [], c', t' => c = c' ∧ t = t'
  | c, t, a :: as, c', t' => g t a ∧ ∃ d u, S.step c t a = some (d, u) ∧ Steps g d u as c' t'

variable {S}

theorem Steps.append {g : τ → α → Prop} {c d c' : κ} {t u t' : τ} {as bs : List α}
    (h : S.Steps g c t as d u) (h' : S.Steps g d u bs c' t') : S.Steps g c t (as ++ bs) c' t' := by
  induction as generalizing c t with
  | nil =>
    obtain ⟨rfl, rfl⟩ := h
    exact h'
  | cons a as ih =>
    obtain ⟨hg, d', u', hs, hr⟩ := h
    exact ⟨hg, d', u', hs, ih hr⟩

theorem Steps.one {g : τ → α → Prop} {c c' : κ} {t t' : τ} {a : α} (hg : g t a)
    (hs : S.step c t a = some (c', t')) : S.Steps g c t [a] c' t' := ⟨hg, c', t', hs, rfl, rfl⟩

theorem Steps.mem {p : α → Prop} {c c' : κ} {t t' : τ} {as : List α}
    (h : S.Steps (fun _ => p) c t as c' t') : ∀ a ∈ as, p a := by
  induction as generalizing c t with
  | nil => exact fun a ha => absurd ha (by simp)
  | cons b as ih =>
    obtain ⟨hg, d, u, _, hr⟩ := h
    intro a ha
    rcases List.mem_cons.mp ha with rfl | ha
    · exact hg
    · exact ih hr a ha

theorem runs_spawn {G : Pool κ τ → PoolAct ρ ε α → Prop} {s s' : Pool κ τ} {r : ρ}
    {as : List (PoolAct ρ ε α)} (hg : G s (.spawn r))
    (h : S.machine.Runs G ⟨s.shared, s.threads ++ [S.start r]⟩ as s') :
    S.machine.Runs G s (.spawn r :: as) s' := Machine.runs_cons hg rfl h

theorem Steps.runs {g : τ → α → Prop} {c c' : κ} {t t' : τ} {as : List α}
    (h : S.Steps g c t as c' t') (ts : List τ) (i : Nat) (hi : ts[i]? = some t) :
    S.machine.Runs (Local g) ⟨c, ts⟩ (as.map (.step i)) ⟨c', ts.set i t'⟩ := by
  induction as generalizing c t ts with
  | nil =>
    obtain ⟨rfl, rfl⟩ := h
    obtain ⟨hlt, rfl⟩ := List.getElem?_eq_some_iff.mp hi
    rw [List.set_getElem_self]
    exact Machine.runs_nil _
  | cons a as ih =>
    obtain ⟨hg, d, u, hs, hr⟩ := h
    have hm : S.machine ⟨c, ts⟩ (.step i a) = some ⟨d, ts.set i u⟩ := by
      show ts[i]?.bind _ = _
      rw [hi, Option.bind_some, hs]
      rfl
    refine Machine.runs_cons ?_ hm ?_
    · intro x hx
      rw [hi] at hx
      obtain rfl := Option.some.inj hx
      exact hg
    · have hlt : i < ts.length := (List.getElem?_eq_some_iff.mp hi).1
      have := ih hr (ts.set i u) (List.getElem?_set_self hlt)
      rwa [List.set_set] at this

end Sys
end SM
