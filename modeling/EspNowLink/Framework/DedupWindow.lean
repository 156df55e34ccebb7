import Mathlib.Algebra.Ring.Nat
import Mathlib.Data.Finset.Card
import Mathlib.Data.List.Nodup

namespace Framework

/-- A key with the 32-bit millisecond stamp of its first sight. -/
structure Seen (κ : Type*) where
  key : κ
  seen_ms : UInt32
  deriving DecidableEq

namespace DedupWindow

variable {κ : Type*}

/-- Entries leave at the front while the front is too old or the table too long. -/
def prune (window : UInt32) (max : Nat) (now_ms : UInt32) : List (Seen κ) → List (Seen κ)
  | [] => []
  | e :: es =>
    if now_ms - e.seen_ms ≤ window ∧ (e :: es).length ≤ max then e :: es
    else prune window max now_ms es

/-- A known key is a duplicate, an unknown one is entered at the back. -/
def check [DecidableEq κ] (window : UInt32) (max : Nat) (now_ms : UInt32) (key : κ)
    (table : List (Seen κ)) : Bool × List (Seen κ) :=
  if (prune window max now_ms table).any (·.key = key) then (true, prune window max now_ms table)
  else (false, prune window max now_ms (prune window max now_ms table ++ [⟨key, now_ms⟩]))

variable {window : UInt32} {max : Nat} {now_ms : UInt32}

theorem prune_suffix (window : UInt32) (max : Nat) (now_ms : UInt32) (table : List (Seen κ)) :
    prune window max now_ms table <:+ table := by
  induction table with
  | nil => exact List.suffix_refl _
  | cons e es ih =>
    unfold prune
    split
    · exact List.suffix_refl _
    · exact ih.trans (List.suffix_cons e es)

/-- A recent entry with few enough entries behind it stays, and so do those behind it. -/
theorem length_lt_prune {e : Seen κ} (hage : now_ms - e.seen_ms ≤ window) {post : List (Seen κ)}
    (hmax : post.length + 1 ≤ max) (pre : List (Seen κ)) :
    post.length < (prune window max now_ms (pre ++ e :: post)).length := by
  induction pre with
  | nil =>
    rw [List.nil_append, prune, if_pos ⟨hage, by simpa using hmax⟩]
    simp
  | cons x pre ih =>
    rw [List.cons_append, prune]
    split
    · simp
      omega
    · exact ih

/-- An entry of the log as the table holds it. -/
def stamp (p : κ × Nat) : Seen κ := ⟨p.1, UInt32.ofNat p.2⟩

/-- The keys of the log entries of the last `window` milliseconds. -/
def recentKeys (window now : Nat) (log : List (κ × Nat)) : List κ :=
  (log.filter fun p => now - p.2 ≤ window).map (·.1)

/-- The table holds the newest entries of a log of true times, the newest first, and among them
every entry of the window. -/
structure Tracks (window : UInt32) (table : List (Seen κ)) (log : List (κ × Nat)) (now : Nat) :
    Prop where
  ordered : log.Pairwise fun a b => b.2 ≤ a.2
  past : ∀ p ∈ log, p.2 ≤ now
  newest : table = ((log.take table.length).map stamp).reverse
  distinct : ((log.take table.length).map (·.1)).Nodup
  complete : ∀ i p, log[i]? = some p → now - p.2 ≤ window.toNat → i < table.length

theorem Tracks.empty (now : Nat) : Tracks window ([] : List (Seen κ)) [] now :=
  ⟨.nil, by simp, rfl, by simp, by simp⟩

theorem Tracks.later {table : List (Seen κ)} {log : List (κ × Nat)} {now now' : Nat}
    (h : Tracks window table log now) (hle : now ≤ now') : Tracks window table log now' where
  ordered := h.ordered
  past := fun p hp => (h.past p hp).trans hle
  newest := h.newest
  distinct := h.distinct
  complete := by
    intro i p hp hage
    exact h.complete i p hp (by omega)

/-- The clock's difference is the true age, as long as that fits the window. -/
theorem age_le {now t : Nat} (ht : t ≤ now) (hage : now - t ≤ window.toNat) :
    UInt32.ofNat now - UInt32.ofNat t ≤ window := by
  rw [UInt32.le_iff_toNat_le, ← UInt32.ofNat_sub ht, UInt32.toNat_ofNat']
  exact (Nat.mod_le _ _).trans hage

/-- The back of a table that holds the newest entries holds the newest entries. -/
theorem newest_of_suffix {table back : List (Seen κ)} {log : List (κ × Nat)}
    (hnewest : table = ((log.take table.length).map stamp).reverse) (hback : back <:+ table) :
    back = ((log.take back.length).map stamp).reverse := by
  have hprefix : back.reverse <+: (log.take table.length).map stamp := by
    rw [hnewest] at hback
    simpa using List.reverse_prefix.mpr hback
  have htake := List.prefix_iff_eq_take.mp hprefix
  rw [List.length_reverse, ← List.map_take, List.take_take,
    Nat.min_eq_left hback.length_le] at htake
  rw [← htake, List.reverse_reverse]

/-- The entries up to a recent one are all recent, so the window has as many distinct keys. -/
theorem Tracks.index_lt_card [DecidableEq κ] {table : List (Seen κ)} {log : List (κ × Nat)}
    {now : Nat} (h : Tracks window table log now) {i : Nat} {p : κ × Nat} (hp : log[i]? = some p)
    (hage : now - p.2 ≤ window.toNat) : i + 1 ≤ (recentKeys window.toNat now log).toFinset.card := by
  obtain ⟨hi, rfl⟩ := List.getElem?_eq_some_iff.mp hp
  have hin := h.complete i _ hp hage
  have hnodup : ((log.take (i + 1)).map (·.1)).Nodup := by
    refine h.distinct.sublist (List.Sublist.map _ ?_)
    exact (List.take_prefix_take_left (by omega)).sublist
  have hsub : ((log.take (i + 1)).map (·.1)).toFinset ⊆ (recentKeys window.toNat now log).toFinset := by
    intro key hkey
    obtain ⟨q, hq, rfl⟩ := List.mem_map.mp (List.mem_toFinset.mp hkey)
    obtain ⟨j, hj, rfl⟩ := List.mem_iff_getElem.mp hq
    rw [List.getElem_take] at hq ⊢
    have hji : j ≤ i := by
      rw [List.length_take] at hj
      omega
    have hold : log[i].2 ≤ log[j].2 := by
      rcases Nat.eq_or_lt_of_le hji with rfl | hlt
      · exact le_rfl
      · exact List.pairwise_iff_getElem.mp h.ordered j i (by omega) hi hlt
    refine List.mem_toFinset.mpr (List.mem_map.mpr ⟨log[j], ?_, rfl⟩)
    exact List.mem_filter.mpr ⟨List.getElem_mem _, decide_eq_true (by omega)⟩
  calc i + 1 = ((log.take (i + 1)).map (·.1)).length := by simp; omega
    _ = ((log.take (i + 1)).map (·.1)).toFinset.card := (List.toFinset_card_of_nodup hnodup).symm
    _ ≤ _ := Finset.card_le_card hsub

/-- Pruning loses no entry of the window, if no more distinct keys than the table holds fall in. -/
theorem Tracks.prune [DecidableEq κ] {table : List (Seen κ)} {log : List (κ × Nat)} {now : Nat}
    (h : Tracks window table log now)
    (hfit : (recentKeys window.toNat now log).toFinset.card ≤ max) :
    Tracks window (prune window max (UInt32.ofNat now) table) log now := by
  have hsuffix := prune_suffix window max (UInt32.ofNat now) table
  refine ⟨h.ordered, h.past, newest_of_suffix h.newest hsuffix, ?_, ?_⟩
  · refine h.distinct.sublist (List.Sublist.map _ ?_)
    exact (List.take_prefix_take_left hsuffix.length_le).sublist
  · intro i p hp hage
    have hin := h.complete i p hp hage
    have hcard := h.index_lt_card hp hage
    obtain ⟨hi, rfl⟩ := List.getElem?_eq_some_iff.mp hp
    have hsplit : ∃ pre post : List (Seen κ), table = pre ++ stamp log[i] :: post ∧
        post.length = i := by
      refine ⟨((log.take table.length).drop (i + 1) |>.map stamp).reverse,
        ((log.take i).map stamp).reverse, ?_, by simp; omega⟩
      have hcut : log.take table.length =
          log.take i ++ log[i] :: (log.take table.length).drop (i + 1) := by
        conv_lhs => rw [← List.take_append_drop i (log.take table.length)]
        rw [List.take_take, Nat.min_eq_left (by omega),
          List.drop_eq_getElem_cons (by simp; omega), List.getElem_take]
      conv_lhs => rw [h.newest, hcut]
      simp
    obtain ⟨pre, post, hcut, hpost⟩ := hsplit
    have hrecent : UInt32.ofNat now - (stamp log[i]).seen_ms ≤ window :=
      age_le (h.past _ (List.getElem_mem _)) hage
    have hroom : post.length + 1 ≤ max := by omega
    have hlt := length_lt_prune hrecent hroom pre
    rw [← hcut] at hlt
    omega

theorem card_recentKeys_le [DecidableEq κ] {window now : Nat} {log log' : List (κ × Nat)}
    (h : log ⊆ log') :
    (recentKeys window now log).toFinset.card ≤ (recentKeys window now log').toFinset.card := by
  refine Finset.card_le_card fun key hkey => ?_
  obtain ⟨p, hp, rfl⟩ := List.mem_map.mp (List.mem_toFinset.mp hkey)
  obtain ⟨hp, hage⟩ := List.mem_filter.mp hp
  exact List.mem_toFinset.mpr (List.mem_map_of_mem (List.mem_filter.mpr ⟨h hp, hage⟩))

/-- A new key is entered, a duplicate was seen before; the table goes on to track the log. -/
theorem Tracks.check [DecidableEq κ] {table : List (Seen κ)} {log : List (κ × Nat)} {now : Nat}
    (h : Tracks window table log now) (key : κ)
    (hfit : (recentKeys window.toNat now ((key, now) :: log)).toFinset.card ≤ max) :
    ((check window max (UInt32.ofNat now) key table).1 = true ∧
        Tracks window (check window max (UInt32.ofNat now) key table).2 log now ∧
        ∃ p ∈ log, p.1 = key ∧
          stamp p ∈ DedupWindow.prune window max (UInt32.ofNat now) table) ∨
      ((check window max (UInt32.ofNat now) key table).1 = false ∧
        Tracks window (check window max (UInt32.ofNat now) key table).2 ((key, now) :: log) now ∧
        ∀ p ∈ log, p.1 = key → window.toNat < now - p.2) := by
  have hcard : (recentKeys window.toNat now log).toFinset.card ≤ max :=
    (card_recentKeys_le (List.subset_cons_self _ _)).trans hfit
  have hpruned := h.prune hcard
  generalize hq : DedupWindow.prune window max (UInt32.ofNat now) table = pruned at hpruned
  by_cases hdup : pruned.any (·.key = key) = true
  · left
    simp only [DedupWindow.check, hq, hdup, if_true, true_and]
    refine ⟨hpruned, ?_⟩
    obtain ⟨e, he, hkey⟩ := List.any_eq_true.mp hdup
    have he' := he
    rw [hpruned.newest, List.mem_reverse, List.mem_map] at he'
    obtain ⟨p, hp, rfl⟩ := he'
    exact ⟨p, List.mem_of_mem_take hp, of_decide_eq_true hkey, he⟩
  · right
    simp only [DedupWindow.check, hq, hdup, Bool.false_eq_true, if_false, true_and]
    have hnew (p : κ × Nat) (hp : p ∈ log.take pruned.length) : p.1 ≠ key := by
      intro hkey
      refine hdup (List.any_eq_true.mpr ⟨stamp p, ?_, decide_eq_true hkey⟩)
      rw [hpruned.newest, List.mem_reverse]
      exact List.mem_map_of_mem hp
    have hentered : Tracks window (pruned ++ [⟨key, UInt32.ofNat now⟩]) ((key, now) :: log) now := by
      constructor
      · exact List.pairwise_cons.mpr ⟨h.past, h.ordered⟩
      · intro p hp
        rcases List.mem_cons.mp hp with rfl | hp
        · exact le_rfl
        · exact h.past p hp
      · conv_lhs => rw [hpruned.newest]
        simp [stamp]
      · simp only [List.length_append, List.length_singleton, List.take_succ_cons, List.map_cons,
          List.nodup_cons]
        refine ⟨fun hmem => ?_, hpruned.distinct⟩
        obtain ⟨p, hp, hkey⟩ := List.mem_map.mp hmem
        exact hnew p hp hkey
      · intro i p hp hage
        cases i with
        | zero => simp
        | succ i =>
          have hlt := hpruned.complete i p (by simpa using hp) hage
          simp
          omega
    refine ⟨hentered.prune hfit, fun p hp hkey => ?_⟩
    by_contra hage
    obtain ⟨i, hi, rfl⟩ := List.mem_iff_getElem.mp hp
    have hlt := hpruned.complete i _ (List.getElem?_eq_getElem hi) (by omega)
    exact hnew _ (List.mem_take_iff_getElem.mpr ⟨i, by omega, rfl⟩) hkey

end DedupWindow

end Framework
