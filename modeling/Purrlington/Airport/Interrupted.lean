import Purrlington.Airport.Restart
import Purrlington.Airport.Truthful

/-!
# Airport: interrupted guests after a restart

A guest that was being processed when the last process stopped is put before its whole queue, and
all others are inserted by rank.  Both are done in one pass over the rows by `queued_at`, and an
insertion stops at the first worse rank, which may be that of an interrupted guest.

* `reenter`               what the pass does to one queue;
* `rehydrateAll_reenter`  the queue of a gate is the pass over the rows that name the gate;
* `InterruptedFirst`      every interrupted guest is ahead of all others of its gate;
* `Overtaken`             a row of a better rank comes after an interrupted one of its gate;
* `interrupted_first_iff`  the former holds exactly without the latter.
-/

set_option linter.unusedSectionVars false

namespace Airport
open SM Ledger

/-! ## one queue -/

section
variable {α : Type*} {rank : α → Nat} {interrupted : α → Prop} [DecidablePred interrupted]

/-- an interrupted guest goes before the queue, the others by rank -/
def reenter (rank : α → Nat) (interrupted : α → Prop) [DecidablePred interrupted] (queue : List α)
    (x : α) : List α :=
  if interrupted x then x :: queue else (enqueue rank queue x).1

theorem enqueue_sublist (rank : α → Nat) (queue : List α) (guest : α) :
    queue.Sublist (enqueue rank queue guest).1 := by
  induction queue with
  | nil => exact List.nil_sublist _
  | cons a queue ih =>
    rw [enqueue_cons]
    split
    · exact List.sublist_cons_self guest _
    · exact ih.cons_cons a

/-- the guest comes before everybody of a worse rank, also in a queue that is not sorted -/
theorem enqueue_ahead {queue : List α} {guest p : α} (hp : p ∈ queue) (hlt : rank guest < rank p) :
    [guest, p].Sublist (enqueue rank queue guest).1 := by
  induction queue with
  | nil => exact absurd hp List.not_mem_nil
  | cons a queue ih =>
    rw [enqueue_cons]
    split
    · exact (List.singleton_sublist.mpr hp).cons_cons guest
    · rename_i ha
      rcases List.mem_cons.mp hp with rfl | hp
      · exact absurd hlt ha
      · exact (ih hp).cons a

theorem mem_reenter {queue : List α} {x y : α} :
    y ∈ reenter rank interrupted queue x ↔ y = x ∨ y ∈ queue := by
  rw [reenter]
  split
  · exact List.mem_cons
  · exact mem_enqueue

theorem reenter_sublist (queue : List α) (x : α) :
    queue.Sublist (reenter rank interrupted queue x) := by
  rw [reenter]
  split
  · exact List.sublist_cons_self x queue
  · exact enqueue_sublist rank queue x

theorem reenterAll_sublist (l queue : List α) :
    queue.Sublist (l.foldl (reenter rank interrupted) queue) := by
  induction l generalizing queue with
  | nil => exact .refl _
  | cons x l ih => exact (reenter_sublist queue x).trans (ih _)

theorem mem_reenterAll {l queue : List α} {y : α} :
    y ∈ l.foldl (reenter rank interrupted) queue ↔ y ∈ l ∨ y ∈ queue := by
  induction l generalizing queue with
  | nil => simp
  | cons x l ih =>
    rw [List.foldl_cons, ih, mem_reenter, List.mem_cons]
    tauto

/-- a guest whose rank is no better than that of the interrupted ones joins behind them -/
theorem enqueue_first {queue : List α} {guest : α}
    (hq : queue.Pairwise fun x y => interrupted y → interrupted x)
    (hle : ∀ p ∈ queue, interrupted p → rank p ≤ rank guest) (hg : ¬ interrupted guest) :
    (enqueue rank queue guest).1.Pairwise fun x y => interrupted y → interrupted x := by
  induction queue with
  | nil => exact List.pairwise_singleton _ guest
  | cons a queue ih =>
    obtain ⟨ha, hq'⟩ := List.pairwise_cons.mp hq
    rw [enqueue_cons]
    split
    · rename_i hlt
      -- the guest stops at `a`, which is not interrupted, so nobody behind it is
      have hna : ¬ interrupted a := fun h =>
        absurd (hle a List.mem_cons_self h) (Nat.not_le_of_gt hlt)
      refine List.pairwise_cons.mpr ⟨?_, hq⟩
      intro b hb hib
      rcases List.mem_cons.mp hb with rfl | hb
      · exact absurd hib hna
      · exact absurd (ha b hb hib) hna
    · refine List.pairwise_cons.mpr ⟨?_, ih hq' fun p hp => hle p (List.mem_cons_of_mem a hp)⟩
      intro b hb hib
      rcases mem_enqueue.mp hb with rfl | hb
      · exact absurd hib hg
      · exact ha b hb hib

/-- if nobody of a better rank comes after an interrupted guest, the interrupted ones stay first -/
theorem reenterAll_first {l queue : List α}
    (hq : queue.Pairwise fun x y => interrupted y → interrupted x)
    (hle : ∀ p ∈ queue, interrupted p → ∀ x ∈ l, ¬ interrupted x → rank p ≤ rank x)
    (hl : l.Pairwise fun p x => interrupted p → ¬ interrupted x → rank p ≤ rank x) :
    (l.foldl (reenter rank interrupted) queue).Pairwise fun x y => interrupted y → interrupted x := by
  induction l generalizing queue with
  | nil => exact hq
  | cons x l ih =>
    obtain ⟨hx, hl⟩ := List.pairwise_cons.mp hl
    rw [List.foldl_cons]
    refine ih ?_ ?_ hl
    · rw [reenter]
      split
      · rename_i hi
        exact List.pairwise_cons.mpr ⟨fun _ _ _ => hi, hq⟩
      · rename_i hi
        exact enqueue_first hq (fun p hp h => hle p hp h x List.mem_cons_self hi) hi
    · intro p hp hip y hy hiy
      rcases mem_reenter.mp hp with rfl | hp
      · exact hx y hy hip hiy
      · exact hle p hp hip y (List.mem_cons_of_mem x hy) hiy

theorem reenterAll_overtakes {l queue : List α} {p x : α} (h : [p, x].Sublist l)
    (hx : ¬ interrupted x) (hlt : rank x < rank p) :
    [x, p].Sublist (l.foldl (reenter rank interrupted) queue) := by
  obtain ⟨l₁, l₂, rfl, hp, hx₂⟩ := List.cons_sublist_iff.mp h
  obtain ⟨s, t, rfl⟩ := List.append_of_mem (List.singleton_sublist.mp hx₂)
  rw [← List.append_assoc, List.foldl_append, List.foldl_cons]
  refine .trans ?_ (reenterAll_sublist t _)
  rw [reenter, if_neg hx]
  exact enqueue_ahead (mem_reenterAll.mpr (.inl (List.mem_append_left s hp))) hlt

theorem not_sublist_swap {l : List α} (hnd : l.Nodup) {x y : α} (hxy : [x, y].Sublist l) :
    ¬ [y, x].Sublist l := by
  induction l with
  | nil => exact fun h => absurd (h.subset List.mem_cons_self) List.not_mem_nil
  | cons a l ih =>
    obtain ⟨hna, hnd⟩ := List.nodup_cons.mp hnd
    intro hyx
    cases hxy with
    | cons _ hxy =>
      cases hyx with
      | cons _ hyx => exact ih hnd hxy hyx
      | cons_cons _ hx => exact hna (hxy.subset (List.mem_cons_of_mem x List.mem_cons_self))
    | cons_cons _ hy =>
      cases hyx with
      | cons _ hyx => exact hna (hyx.subset (List.mem_cons_of_mem y List.mem_cons_self))
      | cons_cons _ hx => exact hna (hx.subset List.mem_cons_self)

theorem ahead_of_first {queue : List α}
    (hq : queue.Pairwise fun x y => interrupted y → interrupted x) {x y : α} (hx : x ∈ queue)
    (hy : y ∈ queue) (hix : interrupted x) (hiy : ¬ interrupted y) : [x, y].Sublist queue := by
  obtain ⟨s, t, rfl⟩ := List.append_of_mem hy
  obtain ⟨_, ht, _⟩ := List.pairwise_append.mp hq
  rcases List.mem_append.mp hx with hx | hx
  · exact (List.singleton_sublist.mpr hx).append (List.singleton_sublist.mpr List.mem_cons_self)
  · rcases List.mem_cons.mp hx with rfl | hx
    · exact absurd hix hiy
    · exact absurd ((List.pairwise_cons.mp ht).1 x hx hix) hiy

end

/-! ## the queues of the gates -/

section
variable {cfg : Config} {w : World} {l : List Nat}

theorem rehydrate_rank (w : World) (x : Nat) : (w.rehydrate x).rank = w.rank := by
  obtain ⟨_, e⟩ | ⟨g, _, ⟨_, e⟩ | ⟨_, e⟩⟩ := rehydrate_cases w x
  · rw [e]
  · rw [e]
    funext y
    have hguest : (w.putFirst g x).guests[y]? = (updateAt [x] (setStatus .queued) w.guests)[y]? := rfl
    simp only [World.rank, hguest, getElem?_updateAt]
    cases w.guests[y]? with
    | none => rfl
    | some a =>
      show effectiveRank (Arrival.guest (if y ∈ [x] then _ else _)) = _
      split <;> rfl
  · rw [e]
    rfl

theorem rehydrate_statusOf (w : World) {x y : Nat} (hne : y ≠ x) :
    (w.rehydrate x).statusOf y = w.statusOf y := by
  obtain ⟨_, e⟩ | ⟨g, _, ⟨_, e⟩ | ⟨_, e⟩⟩ := rehydrate_cases w x
  · rw [e]
  · rw [e]
    exact status_updateAt_ne (fun h => hne (List.mem_singleton.mp h)) _ _
  · rw [e]
    rfl

variable {interrupted : Nat → Prop} [DecidablePred interrupted]

theorem rehydrate_reenter {x g : Nat} (hx : interrupted x ↔ w.statusOf x = some .processing)
    {gate : Gate} (hg : w.heap[g]? = some gate) :
    ∃ gate', (w.rehydrate x).heap[g]? = some gate' ∧ gate'.queue =
      if w.dest x = some g then reenter w.rank interrupted gate.queue x else gate.queue := by
  obtain ⟨hd, e⟩ | ⟨g₁, hd, e⟩ := rehydrate_cases w x
  · rw [e, hd]
    exact ⟨gate, hg, rfl⟩
  · by_cases hne : g = g₁
    · subst hne
      rw [if_pos hd, reenter]
      obtain ⟨hst, e⟩ | ⟨hst, e⟩ := e
      · rw [e, if_pos (hx.mpr hst)]
        exact ⟨_, modifyGate_self hg _, rfl⟩
      · rw [e, if_neg fun h => hst (hx.mp h)]
        exact ⟨_, modifyGate_self hg _, rfl⟩
    · rw [hd, if_neg fun h => hne (Option.some.inj h).symm]
      refine ⟨gate, ?_, rfl⟩
      obtain ⟨_, e⟩ | ⟨_, e⟩ := e
      · rw [e]
        exact (modifyGate_ne hne _).trans hg
      · rw [e]
        exact (modifyGate_ne hne _).trans hg

theorem rehydrateAll_reenter {g : Nat} {gate : Gate} (hnd : l.Nodup)
    (hx : ∀ x ∈ l, interrupted x ↔ w.statusOf x = some .processing) (hg : w.heap[g]? = some gate) :
    ∃ gate', (l.foldl World.rehydrate w).heap[g]? = some gate' ∧ gate'.queue =
      (l.filter fun x => w.dest x = some g).foldl (reenter w.rank interrupted) gate.queue := by
  induction l generalizing w gate with
  | nil => exact ⟨gate, hg, rfl⟩
  | cons x l ih =>
    obtain ⟨hnx, hnd⟩ := List.nodup_cons.mp hnd
    obtain ⟨gate₁, hg₁, hq₁⟩ := rehydrate_reenter (hx x List.mem_cons_self) hg
    have hl : ∀ y ∈ l, interrupted y ↔ (w.rehydrate x).statusOf y = some .processing := by
      intro y hy
      have hne : y ≠ x := fun e => hnx (e ▸ hy)
      rw [rehydrate_statusOf w hne]
      exact hx y (List.mem_cons_of_mem x hy)
    obtain ⟨gate₂, hg₂, hq₂⟩ := ih hnd hl hg₁
    refine ⟨gate₂, hg₂, hq₂.trans ?_⟩
    rw [rehydrate_rank, rehydrate_dest, hq₁, List.filter_cons]
    by_cases hd : w.dest x = some g
    · rw [if_pos hd, if_pos (decide_eq_true hd), List.foldl_cons]
    · rw [if_neg hd, if_neg (by simpa using hd)]

/-- the rank of a row -/
def World.rowRank (w : World) (x : Nat) : Nat :=
  match w.rows[x]? with
  | some a => effectiveRank a.guest
  | none => 2

theorem World.rowRank_eq {x : Nat} {a : Arrival} (ha : w.rows[x]? = some a) :
    w.rowRank x = effectiveRank a.guest := by
  rw [World.rowRank, ha]

theorem statusOf_iff {x : Nat} {a : Arrival} {st : Status} (ha : w.rows[x]? = some a) :
    w.statusOf x = some st ↔ a.status = st := by
  rw [World.statusOf, ha]
  exact Option.some_inj

theorem unfinished_of_processing {a : Arrival} (h : a.status = .processing) :
    a.unfinished = true := by
  rw [Arrival.unfinished, h]

/-- the fetched rows that name a gate -/
def World.naming (w : World) (l : List Nat) (k : String) : List Nat :=
  l.filter fun x => w.rows[x]?.map Arrival.gate = some k

theorem mem_naming {k : String} {x : Nat} {a : Arrival} (ha : w.rows[x]? = some a) :
    x ∈ w.naming l k ↔ x ∈ l ∧ a.gate = k := by
  rw [World.naming, List.mem_filter, ha]
  exact and_congr_right fun _ => decide_eq_true_iff.trans Option.some_inj

/-- the queue of a gate after a restart is the pass over the fetched rows that name it -/
theorem restart_reenter (cfg : Config) (hl : w.Fetched l) {k : String} {g : Nat}
    (hk : (World.init cfg).gates.get? k = some g) :
    ∃ gate, (w.restart cfg l).gateAt k = some gate ∧ gate.queue =
      (w.naming l k).foldl (reenter w.rowRank fun x => w.statusOf x = some .processing) [] := by
  obtain ⟨gate₀, hg₀, _⟩ := (init_registry cfg).keyed k g hk
  let v : World := { World.init cfg with
    rows := w.rows, guests := w.rows, completions := w.completions, events := w.events, now := w.now }
  have hstatus : ∀ x ∈ l, w.statusOf x = some .processing ↔ v.statusOf x = some .processing :=
    fun _ _ => Iff.rfl
  obtain ⟨gate, hg, hq⟩ := rehydrateAll_reenter hl.nodup hstatus hg₀
  refine ⟨gate, ?_, hq.trans ?_⟩
  · rw [World.gateAt, World.restart, rehydrateAll_gates]
    show ((World.init cfg).gates.get? k).bind _ = _
    rw [hk]
    exact hg
  · rw [((World.init_fresh cfg).gates gate₀ (List.mem_of_getElem? hg₀)).1]
    refine congrArg (List.foldl _ []) (List.filter_congr ?_)
    intro x _
    exact decide_eq_decide.mpr (init_dest hk w x)

/-- every guest whose row is `processing` stands in the queue of the gate that the row names, ahead
of every unfinished row of that gate with another status -/
def InterruptedFirst (cfg : Config) (w : World) (l : List Nat) : Prop :=
  ∀ x a, w.rows[x]? = some a → a.status = .processing →
    ∃ gate, (w.restart cfg l).gateAt a.gate = some gate ∧ x ∈ gate.queue ∧
      ∀ y b, w.rows[y]? = some b → b.unfinished = true → b.status ≠ .processing → b.gate = a.gate →
        [x, y].Sublist gate.queue

/-- after a row that is `processing`, a row of the same gate with another status and a better rank
is fetched -/
def World.Overtaken (w : World) (l : List Nat) : Prop :=
  ∃ x y a b, [x, y].Sublist l ∧ w.rows[x]? = some a ∧ w.rows[y]? = some b ∧
    a.status = .processing ∧ b.status ≠ .processing ∧ b.gate = a.gate ∧
    effectiveRank b.guest < effectiveRank a.guest

theorem restart_reenter_of_row (hl : w.Fetched l) (hn : w.NamesConfigured cfg) {x : Nat} {a : Arrival}
    (ha : w.rows[x]? = some a) (hu : a.unfinished = true) :
    ∃ gate, (w.restart cfg l).gateAt a.gate = some gate ∧ gate.queue =
      (w.naming l a.gate).foldl (reenter w.rowRank fun x => w.statusOf x = some .processing) [] := by
  obtain ⟨g, hk⟩ := Option.isSome_iff_exists.mp ((init_isSome cfg a.gate).mpr (hn x a ha hu))
  exact restart_reenter cfg hl hk

theorem restart_nodup (hl : w.Fetched l) {k : String} {gate : Gate}
    (hat : (w.restart cfg l).gateAt k = some gate) : gate.queue.Nodup := by
  obtain ⟨g, hk, _⟩ := Option.bind_eq_some_iff.mp hat
  rw [restart_gates] at hk
  obtain ⟨gate', hat', hp⟩ := restart_queue cfg w l hk
  obtain rfl := Option.some.inj (hat.symm.trans hat')
  exact hp.nodup_iff.mpr (hl.nodup.filter _)

theorem not_first_of_overtaken (hl : w.Fetched l) (hn : w.NamesConfigured cfg)
    (h : w.Overtaken l) : ¬ InterruptedFirst cfg w l := by
  obtain ⟨x, y, a, b, hxy, ha, hb, hpa, hpb, hgate, hlt⟩ := h
  intro hfirst
  obtain ⟨gate, hat, _, hahead⟩ := hfirst x a ha hpa
  obtain ⟨b', hb', hub⟩ := hl.mem_iff.mp (hxy.subset (List.mem_cons_of_mem x List.mem_cons_self))
  obtain rfl := Option.some.inj (hb.symm.trans hb')
  have hsub := hahead y b hb hub hpb hgate
  obtain ⟨gate', hat', hq⟩ := restart_reenter_of_row hl hn ha (unfinished_of_processing hpa)
  obtain rfl := Option.some.inj (hat.symm.trans hat')
  -- both rows name the gate, in the order in which they are fetched
  have hnamed : [x, y].Sublist (w.naming l a.gate) := by
    have hf := hxy.filter fun z => w.rows[z]?.map Arrival.gate = some a.gate
    rw [List.filter_cons_of_pos (by simp [ha]), List.filter_cons_of_pos (by simp [hb, hgate])] at hf
    exact hf
  have hover : [y, x].Sublist gate.queue := by
    rw [hq]
    apply reenterAll_overtakes hnamed
    · rw [statusOf_iff hb]
      exact hpb
    · rw [World.rowRank_eq ha, World.rowRank_eq hb]
      exact hlt
  exact not_sublist_swap (restart_nodup hl hat) hsub hover

theorem first_of_not_overtaken (hl : w.Fetched l) (hn : w.NamesConfigured cfg)
    (h : ¬ w.Overtaken l) : InterruptedFirst cfg w l := by
  intro x a ha hpa
  have hua := unfinished_of_processing hpa
  obtain ⟨gate, hat, hq⟩ := restart_reenter_of_row hl hn ha hua
  have hfirst : gate.queue.Pairwise fun x y =>
      w.statusOf y = some .processing → w.statusOf x = some .processing := by
    rw [hq]
    apply reenterAll_first .nil (fun p hp => absurd hp List.not_mem_nil)
    apply List.pairwise_iff_forall_sublist.mpr
    intro p q hpq hip hiq
    -- otherwise `q` would overtake `p`
    by_contra hlt
    have hmem : ∀ z ∈ [p, q], ∃ c, w.rows[z]? = some c ∧ c.gate = a.gate := by
      intro z hz
      obtain ⟨hzl, _⟩ := List.mem_filter.mp (hpq.subset hz)
      obtain ⟨c, hc, _⟩ := hl.mem_iff.mp hzl
      exact ⟨c, hc, ((mem_naming hc).mp (hpq.subset hz)).2⟩
    obtain ⟨c, hc, hcg⟩ := hmem p List.mem_cons_self
    obtain ⟨d, hd, hdg⟩ := hmem q (List.mem_cons_of_mem p List.mem_cons_self)
    rw [World.rowRank_eq hc, World.rowRank_eq hd] at hlt
    exact h ⟨p, q, c, d, hpq.trans List.filter_sublist, hc, hd, (statusOf_iff hc).mp hip,
      fun e => hiq ((statusOf_iff hd).mpr e), hdg.trans hcg.symm, Nat.lt_of_not_le hlt⟩
  have hin : ∀ y b, w.rows[y]? = some b → b.unfinished = true → b.gate = a.gate →
      y ∈ gate.queue := by
    intro y b hb hub hgate
    rw [hq]
    exact mem_reenterAll.mpr (.inl ((mem_naming hb).mpr ⟨hl.mem_iff.mpr ⟨b, hb, hub⟩, hgate⟩))
  refine ⟨gate, hat, hin x a ha hua rfl, ?_⟩
  intro y b hb hub hpb hgate
  exact ahead_of_first hfirst (hin x a ha hua rfl) (hin y b hb hub hgate) ((statusOf_iff ha).mpr hpa)
    fun e => hpb ((statusOf_iff hb).mp e)

/-- **Interrupted guests go first exactly when no better rank comes after them.** -/
theorem interrupted_first_iff (cfg : Config) (w : World) (l : List Nat) (hl : w.Fetched l)
    (hn : w.NamesConfigured cfg) : InterruptedFirst cfg w l ↔ ¬ w.Overtaken l :=
  ⟨fun hfirst h => not_first_of_overtaken hl hn h hfirst, first_of_not_overtaken hl hn⟩

end

/-- a standard guest is in the booth of EU-1 when this guest joins its queue -/
def whileProcessing (guest : Guest) : List (PoolAct Api Env Unit) :=
  ([.spawn (.assign andrei), .step 0 (), .step 0 (), .step 0 ()] : Acts) ++
  ([.env (.work 0), .env (.work 0), .env (.work 0), .env (.tick 1)] : Acts) ++
  ([.spawn (.assign guest), .step 1 (), .step 1 (), .step 1 ()] : Acts)

theorem namesConfigured_of_map {cfg : Config} {w : World} {names : List String}
    (h : w.rows.map Arrival.gate = names) (hn : ∀ k ∈ names, k ∈ cfg.gateIds) :
    w.NamesConfigured cfg := by
  intro x a ha _
  rw [← h] at hn
  exact hn a.gate (List.mem_map_of_mem (List.mem_of_getElem? ha))

theorem not_overtaken_of_map {w : World} {l : List Nat} {n r : Nat}
    (h : w.rows.map (fun a => effectiveRank a.guest) = List.replicate n r) : ¬ w.Overtaken l := by
  rintro ⟨x, y, a, b, _, ha, hb, _, _, _, hlt⟩
  have hr : ∀ c ∈ w.rows, effectiveRank c.guest = r := by
    intro c hc
    have hmem := List.mem_map_of_mem (f := fun a => effectiveRank a.guest) hc
    rw [h] at hmem
    exact List.eq_of_mem_replicate hmem
  rw [hr a (List.mem_of_getElem? ha), hr b (List.mem_of_getElem? hb)] at hlt
  exact absurd hlt (Nat.lt_irrefl r)

theorem interrupted_first_standard : ∃ s,
    (airport threeGates).machine.Runs free (State.init threeGates) (whileProcessing andrei) s ∧
    s.shared.rows.map Arrival.status = [.processing, .queued] ∧
    InterruptedFirst threeGates s.shared s.shared.fetch := by
  refine ⟨_, Machine.runs_free_iff.mpr rfl, rfl, ?_⟩
  apply (interrupted_first_iff threeGates _ _ (fetch_fetched _) ?_).mpr
  · exact not_overtaken_of_map (n := 2) (r := 2) rfl
  · exact namesConfigured_of_map rfl (by decide : ∀ k ∈ ["EU-1", "EU-1"], k ∈ threeGates.gateIds)

/-- **A fast guest goes before the interrupted one.** -/
theorem fast_before_interrupted : ∃ s,
    (airport threeGates).machine.Runs free (State.init threeGates) (whileProcessing mihai) s ∧
    s.shared.rows.map Arrival.status = [.processing, .queued] ∧
    s.shared.Fetched s.shared.fetch ∧ s.shared.NamesConfigured threeGates ∧
    ((s.shared.restart threeGates s.shared.fetch).gateAt "EU-1").map Gate.queue = some [1, 0] ∧
    ¬ InterruptedFirst threeGates s.shared s.shared.fetch := by
  refine ⟨_, Machine.runs_free_iff.mpr rfl, rfl, fetch_fetched _,
    namesConfigured_of_map rfl (by decide : ∀ k ∈ ["EU-1", "EU-1"], k ∈ threeGates.gateIds), rfl, ?_⟩
  intro hfirst
  obtain ⟨gate, hat, _, hahead⟩ := hfirst 0 _ rfl rfl
  have hq : gate.queue = [1, 0] := by
    rw [← Option.some.inj hat]
    rfl
  have hsub := hahead 1 _ rfl rfl (by decide) rfl
  rw [hq] at hsub
  exact absurd hsub (by decide)

end Airport
