import Purrlington.Parrot.History
import Purrlington.Lib.StableSort

/-!
# Parrot: which conversations are evicted

`cleanup` deletes what has expired and then, above the ceiling, what was accessed least recently.

* `ConversationStore.Expired`   not accessed for longer than the ttl;
* `live_items`, `cleanup_items`   what the two phases leave;
* `Survivors`                   what is to be left;
* `cleanup_survivors`           this is left, and a second cleanup at that time changes nothing.
-/

set_option linter.unusedSectionVars false

namespace Parrot
open StableSort

namespace ConversationStore

/-- `now - e["last_accessed"] > self._ttl` -/
def Expired (s : ConversationStore) (now : Int) (e : Entry) : Prop := now - e.last_accessed > s.ttl

instance (s : ConversationStore) (now : Int) : DecidablePred (s.Expired now) :=
  fun _ => inferInstanceAs (Decidable (_ > _))

/-- the conversations that have not expired -/
def live (s : ConversationStore) (now : Int) : List (String × Entry) :=
  s.conversations.items.filter fun p => ¬ s.Expired now p.2

end ConversationStore

/-- the conversations `d` that are to be left of a store: entries of it that have not expired, all of
these if they are few enough, and otherwise as many as there may be, the evicted ones accessed no
later -/
structure Survivors (s : ConversationStore) (now : Int) (d : Dict String Entry) : Prop where
  unchanged : d.items.Sublist s.conversations.items
  live : ∀ g e, d.get? g = some e → ¬ s.Expired now e
  all : (s.live now).length ≤ s.max_conversations →
    ∀ g e, s.conversations.get? g = some e → ¬ s.Expired now e → d.get? g = some e
  count : s.max_conversations < (s.live now).length → d.items.length = s.max_conversations
  newest : ∀ g e g' e', d.get? g = some e → s.conversations.get? g' = some e' →
    ¬ s.Expired now e' → d.get? g' = none → e'.last_accessed ≤ e.last_accessed

/-! ## the two phases -/

section
variable (s : ConversationStore) (now : Int)

/-- the first phase -/
def ConversationStore.unexpired : Dict String Entry :=
  ((s.conversations.items.filter fun p => now - p.2.last_accessed > s.ttl).map Prod.fst).foldl
    Dict.del s.conversations

theorem unexpired_items : (s.unexpired now).items = s.live now := by
  rw [ConversationStore.unexpired, Dict.items_foldl_del, ConversationStore.live]
  apply List.filter_congr
  intro p hp
  have hkey := Dict.mem_keys_filter s.conversations.nodup
    (q := fun p => decide (now - p.2.last_accessed > s.ttl)) hp
  rw [decide_eq_true_iff] at hkey
  exact decide_eq_decide.mpr (not_congr hkey)

/-- the conversations that have not expired, by their last access -/
def ConversationStore.byAge : List (String × Entry) :=
  (s.live now).mergeSort fun a b => a.2.last_accessed ≤ b.2.last_accessed

theorem byAge_perm : (s.byAge now).Perm (s.live now) := List.mergeSort_perm _ _

theorem nodup_live : ((s.live now).map Prod.fst).Nodup :=
  s.conversations.nodup.sublist (List.filter_sublist.map Prod.fst)

theorem nodup_byAge : ((s.byAge now).map Prod.fst).Nodup :=
  ((byAge_perm s now).map Prod.fst).nodup_iff.mpr (nodup_live s now)

/-- how many are above the ceiling -/
def ConversationStore.excess : Nat := (s.live now).length - s.max_conversations

theorem cleanup_items : (s.cleanup now).conversations.items =
    (s.live now).filter fun p => p.1 ∉ ((s.byAge now).take (s.excess now)).map Prod.fst := by
  have hcleanup : (s.cleanup now).conversations =
      if (s.unexpired now).items.length > s.max_conversations then
        ((((s.unexpired now).items.mergeSort fun a b => a.2.last_accessed ≤ b.2.last_accessed).map
          Prod.fst).take ((s.unexpired now).items.length - s.max_conversations)).foldl Dict.del
            (s.unexpired now)
      else s.unexpired now := rfl
  rw [hcleanup, unexpired_items]
  split
  · rw [Dict.items_foldl_del, unexpired_items, ← List.map_take]
    rfl
  · rename_i hle
    have hzero : s.excess now = 0 := Nat.sub_eq_zero_of_le (Nat.not_lt.mp hle)
    rw [hzero, unexpired_items, List.filter_eq_self.mpr]
    exact fun p _ => decide_eq_true List.not_mem_nil

theorem cleanup_items_perm :
    (s.cleanup now).conversations.items.Perm ((s.byAge now).drop (s.excess now)) := by
  rw [cleanup_items, ← Dict.filter_notMem_take (nodup_byAge s now)]
  exact (byAge_perm s now).symm.filter _

/-! ## what is left -/

theorem mem_live {p : String × Entry} :
    p ∈ s.live now ↔ s.conversations.get? p.1 = some p.2 ∧ ¬ s.Expired now p.2 := by
  rw [ConversationStore.live, List.mem_filter, Dict.mem_items_iff, decide_eq_true_iff]

theorem length_byAge : (s.byAge now).length = (s.live now).length := (byAge_perm s now).length_eq

theorem survivors : Survivors s now (s.cleanup now).conversations := by
  have hitems := cleanup_items s now
  have hperm := cleanup_items_perm s now
  refine ⟨?_, ?_, ?_, ?_, ?_⟩
  · rw [hitems]
    exact List.filter_sublist.trans List.filter_sublist
  · intro g e hg
    have hmem := Dict.mem_items_iff.mpr hg
    rw [hitems] at hmem
    exact ((mem_live s now).mp (List.mem_filter.mp hmem).1).2
  · intro hle g e hg he
    have hzero : s.excess now = 0 := Nat.sub_eq_zero_of_le hle
    rw [← Dict.mem_items_iff, hperm.mem_iff, hzero, List.drop_zero, (byAge_perm s now).mem_iff]
    exact (mem_live s now).mpr ⟨hg, he⟩
  · intro hlt
    rw [hperm.length_eq, List.length_drop, length_byAge, ConversationStore.excess]
    omega
  · intro g e g' e' hg hg' he' hnone
    -- one is after the excess and the other one in it
    have hdrop : (g, e) ∈ (s.byAge now).drop (s.excess now) :=
      hperm.mem_iff.mp (Dict.mem_items_iff.mpr hg)
    have hall : (g', e') ∈ s.byAge now :=
      (byAge_perm s now).mem_iff.mpr ((mem_live s now).mpr ⟨hg', he'⟩)
    rw [← List.take_append_drop (s.excess now) (s.byAge now)] at hall
    rcases List.mem_append.mp hall with htake | hdrop'
    · have hsorted : (s.byAge now).Pairwise fun a b => a.2.last_accessed ≤ b.2.last_accessed :=
        sorted_mergeSort (fun p : String × Entry => p.2.last_accessed) (s.live now)
      rw [← List.take_append_drop (s.excess now) (s.byAge now)] at hsorted
      exact (List.pairwise_append.mp hsorted).2.2 _ htake _ hdrop
    · have hkept := Dict.mem_items_iff.mp (hperm.mem_iff.mpr hdrop')
      rw [hnone] at hkept
      exact absurd hkept nofun

theorem cleanup_eq_self {s : ConversationStore} {now : Int}
    (hlive : ∀ p ∈ s.conversations.items, ¬ s.Expired now p.2)
    (hle : s.conversations.items.length ≤ s.max_conversations) : s.cleanup now = s := by
  have hall : s.live now = s.conversations.items :=
    List.filter_eq_self.mpr fun p hp => decide_eq_true (hlive p hp)
  have hzero : s.excess now = 0 := by
    rw [ConversationStore.excess, hall]
    exact Nat.sub_eq_zero_of_le hle
  have hitems : (s.cleanup now).conversations = s.conversations := by
    ext1
    rw [cleanup_items, hzero, hall, List.filter_eq_self.mpr]
    exact fun p _ => decide_eq_true List.not_mem_nil
  show { s with conversations := (s.cleanup now).conversations } = s
  rw [hitems]

/-- **Eviction keeps exactly the right conversations.**  For every store and time, `cleanup` leaves,
unchanged, all conversations that have not expired if they are within the ceiling, and otherwise as
many of them as the ceiling says, none of which was accessed before an evicted one; and doing it again
at that time changes nothing. -/
theorem cleanup_survivors : Survivors s now (s.cleanup now).conversations ∧
    (s.cleanup now).ttl = s.ttl ∧ (s.cleanup now).max_conversations = s.max_conversations ∧
    (s.cleanup now).cleanup now = s.cleanup now := by
  have h := survivors s now
  refine ⟨h, rfl, rfl, cleanup_eq_self ?_ ?_⟩
  · intro p hp
    exact h.live p.1 p.2 (Dict.mem_items_iff.mp hp)
  · show (s.cleanup now).conversations.items.length ≤ s.max_conversations
    by_cases hle : (s.live now).length ≤ s.max_conversations
    · rw [cleanup_items]
      exact (List.length_filter_le _ _).trans hle
    · exact (h.count (Nat.not_le.mp hle)).le

end

end Parrot
