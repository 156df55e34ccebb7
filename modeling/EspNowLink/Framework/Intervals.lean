import Mathlib.Data.List.Sort
import Mathlib.Order.Bounds.Defs

namespace Framework

/-! Lists of intervals that hold their first point and not their second. -/

section Joining

variable {α : Type*} [LE α] [DecidableLE α]

/-- Each interval is joined to the one before it where the two meet. -/
def joinFrom (r : α × α) : List (α × α) → List (α × α)
  | [] => [r]
  | s :: rest =>
    if s.1 ≤ r.2 then joinFrom (r.1, if s.2 ≤ r.2 then r.2 else s.2) rest else r :: joinFrom s rest

def joined : List (α × α) → List (α × α)
  | [] => []
  | r :: rest => joinFrom r rest

theorem joinFrom_map {β : Type*} [LE β] [DecidableLE β] {f : α → β} (hf : ∀ a b, f a ≤ f b ↔ a ≤ b)
    (r : α × α) (rest : List (α × α)) :
    (joinFrom r rest).map (Prod.map f f) = joinFrom (Prod.map f f r) (rest.map (Prod.map f f)) := by
  induction rest generalizing r with
  | nil => rfl
  | cons s rest ih =>
    simp only [joinFrom, List.map_cons, Prod.map_fst, Prod.map_snd, hf]
    split
    · rw [ih]
      split <;> rfl
    · rw [List.map_cons, ih]

theorem joined_map {β : Type*} [LE β] [DecidableLE β] {f : α → β} (hf : ∀ a b, f a ≤ f b ↔ a ≤ b)
    (rs : List (α × α)) : (joined rs).map (Prod.map f f) = joined (rs.map (Prod.map f f)) := by
  cases rs with
  | nil => rfl
  | cons r rest => exact joinFrom_map hf r rest

end Joining

section Order

variable {α : Type*} [LinearOrder α] {rs rest : List (α × α)} {r : α × α} {x : α}

/-- A point lies in one of the intervals. -/
def Covers (rs : List (α × α)) (x : α) : Prop := ∃ r ∈ rs, r.1 ≤ x ∧ x < r.2

theorem covers_cons : Covers (r :: rs) x ↔ (r.1 ≤ x ∧ x < r.2) ∨ Covers rs x := List.exists_mem_cons_iff ..

theorem covers_append {rs' : List (α × α)} : Covers (rs ++ rs') x ↔ Covers rs x ∨ Covers rs' x := by
  simp only [Covers, List.mem_append, or_and_right, exists_or]

theorem Covers.perm {rs' : List (α × α)} (h : rs.Perm rs') : Covers rs x ↔ Covers rs' x := by
  simp only [Covers, h.mem_iff]

/-- No interval is empty, and each one ends before the next one starts, with a gap between them. -/
structure Separated (rs : List (α × α)) : Prop where
  nonempty : ∀ r ∈ rs, r.1 < r.2
  gaps : rs.Pairwise fun a b => a.2 < b.1

theorem separated_nil : Separated ([] : List (α × α)) where
  nonempty := by
    intro r hr
    cases hr
  gaps := List.Pairwise.nil

/-- To join intervals that start in order covers nothing else. -/
theorem covers_joinFrom (hstarts : (r :: rest).Pairwise fun a b => a.1 ≤ b.1) :
    Covers (joinFrom r rest) x ↔ Covers (r :: rest) x := by
  induction rest generalizing r with
  | nil => rfl
  | cons s rest ih =>
    obtain ⟨hfirst, hrest⟩ := List.pairwise_cons.mp hstarts
    have hrs := hfirst s List.mem_cons_self
    rw [joinFrom]
    split
    · rename_i hmeet
      have hstarts' : ((r.1, if s.2 ≤ r.2 then r.2 else s.2) :: rest).Pairwise fun a b => a.1 ≤ b.1 :=
        List.pairwise_cons.mpr ⟨fun t ht => hfirst t (List.mem_cons_of_mem s ht), (List.pairwise_cons.mp hrest).2⟩
      have hunion : (r.1 ≤ x ∧ x < if s.2 ≤ r.2 then r.2 else s.2) ↔
          (r.1 ≤ x ∧ x < r.2) ∨ (s.1 ≤ x ∧ x < s.2) := by
        split
        · rename_i hinside
          constructor
          · exact Or.inl
          · rintro (h | ⟨hs, hx⟩)
            · exact h
            · exact ⟨hrs.trans hs, hx.trans_le hinside⟩
        · rename_i hlonger
          constructor
          · rintro ⟨hr, hx⟩
            rcases lt_or_ge x r.2 with hlt | hge
            · exact Or.inl ⟨hr, hlt⟩
            · exact Or.inr ⟨hmeet.trans hge, hx⟩
          · rintro (⟨hr, hx⟩ | ⟨hs, hx⟩)
            · exact ⟨hr, hx.trans (not_le.mp hlonger)⟩
            · exact ⟨hrs.trans hs, hx⟩
      rw [ih hstarts', covers_cons, covers_cons, covers_cons, hunion, or_assoc]
    · rw [covers_cons, ih hrest, ← covers_cons]

/-- Intervals that start in order are separated once they are joined, and none starts earlier. -/
theorem separated_joinFrom (hstarts : (r :: rest).Pairwise fun a b => a.1 ≤ b.1)
    (hnonempty : ∀ s ∈ r :: rest, s.1 < s.2) :
    Separated (joinFrom r rest) ∧ ∀ s ∈ joinFrom r rest, r.1 ≤ s.1 := by
  induction rest generalizing r with
  | nil =>
    refine ⟨⟨hnonempty, List.pairwise_singleton _ r⟩, ?_⟩
    intro s hs
    rw [List.mem_singleton.mp hs]
  | cons s rest ih =>
    obtain ⟨hfirst, hrest⟩ := List.pairwise_cons.mp hstarts
    obtain ⟨hr, hothers⟩ := List.forall_mem_cons.mp hnonempty
    rw [joinFrom]
    split
    · apply ih
      · exact List.pairwise_cons.mpr
          ⟨fun t ht => hfirst t (List.mem_cons_of_mem s ht), (List.pairwise_cons.mp hrest).2⟩
      · refine List.forall_mem_cons.mpr ⟨?_, fun t ht => hothers t (List.mem_cons_of_mem s ht)⟩
        show r.1 < if s.2 ≤ r.2 then r.2 else s.2
        split
        · exact hr
        · rename_i hlonger
          exact hr.trans (not_le.mp hlonger)
    · rename_i hgap
      obtain ⟨hsep, hlater⟩ := ih hrest hothers
      have hbefore : ∀ t ∈ joinFrom s rest, r.2 < t.1 := fun t ht => (not_le.mp hgap).trans_le (hlater t ht)
      refine ⟨⟨List.forall_mem_cons.mpr ⟨hr, hsep.nonempty⟩, List.pairwise_cons.mpr ⟨hbefore, hsep.gaps⟩⟩, ?_⟩
      intro t ht
      rcases List.mem_cons.mp ht with rfl | ht
      · exact le_refl _
      · exact (hr.trans (hbefore t ht)).le

theorem covers_joined (hstarts : rs.Pairwise fun a b => a.1 ≤ b.1) : Covers (joined rs) x ↔ Covers rs x := by
  cases rs with
  | nil => rfl
  | cons r rest => exact covers_joinFrom hstarts

theorem separated_joined (hstarts : rs.Pairwise fun a b => a.1 ≤ b.1) (hnonempty : ∀ r ∈ rs, r.1 < r.2) :
    Separated (joined rs) := by
  cases rs with
  | nil => exact separated_nil
  | cons r rest => exact (separated_joinFrom hstarts hnonempty).1

theorem Separated.starts (h : Separated rs) : rs.Pairwise fun a b => a.1 < b.1 := by
  have hnonempty := h.nonempty
  refine h.gaps.imp_of_mem ?_
  intro a b ha _ hab
  exact (hnonempty a ha).trans hab

end Order

section Reach

/-- How far the intervals reach without a gap from a point on. -/
def reachFrom (c : ℕ) : List (ℕ × ℕ) → ℕ
  | [] => c
  | r :: rest => if c < r.1 then c else reachFrom (if c < r.2 then r.2 else c) rest

variable {rs : List (ℕ × ℕ)} {c : ℕ}

theorem reachFrom_spec (hstarts : rs.Pairwise fun a b => a.1 ≤ b.1) :
    c ≤ reachFrom c rs ∧ (∀ x, c ≤ x → x < reachFrom c rs → Covers rs x) ∧ ¬ Covers rs (reachFrom c rs) := by
  induction rs generalizing c with
  | nil =>
    refine ⟨Nat.le_refl c, fun x hx hlt => absurd hlt (Nat.not_lt.mpr hx), ?_⟩
    rintro ⟨r, hr, -⟩
    cases hr
  | cons r rest ih =>
    obtain ⟨hfirst, hrest⟩ := List.pairwise_cons.mp hstarts
    rw [reachFrom]
    split
    · rename_i hgap
      refine ⟨Nat.le_refl c, fun x hx hlt => absurd hlt (Nat.not_lt.mpr hx), ?_⟩
      rintro ⟨s, hs, hle, -⟩
      rcases List.mem_cons.mp hs with rfl | hs
      · omega
      · have hrs := hfirst s hs
        omega
    · rename_i hmeet
      obtain ⟨hle, hcovered, hend⟩ := ih (c := if c < r.2 then r.2 else c) hrest
      have hgrow : c ≤ (if c < r.2 then r.2 else c) ∧ r.2 ≤ if c < r.2 then r.2 else c := by
        split <;> omega
      refine ⟨hgrow.1.trans hle, ?_, ?_⟩
      · intro x hx hlt
        rw [covers_cons]
        by_cases hin : x < r.2
        · exact Or.inl ⟨(Nat.not_lt.mp hmeet).trans hx, hin⟩
        · refine Or.inr (hcovered x ?_ hlt)
          split <;> omega
      · rw [covers_cons]
        rintro (⟨-, hlt⟩ | hcov)
        · have hfar := hgrow.2.trans hle
          omega
        · exact hend hcov

/-- From zero on: the longest run of points that are all covered. -/
theorem isGreatest_reach (hstarts : rs.Pairwise fun a b => a.1 ≤ b.1) :
    IsGreatest { n | ∀ x < n, Covers rs x } (reachFrom 0 rs) := by
  obtain ⟨-, hcovered, hend⟩ := reachFrom_spec (c := 0) hstarts
  refine ⟨fun x hx => hcovered x (Nat.zero_le x) hx, ?_⟩
  intro n hn
  by_contra hlt
  exact hend (hn _ (Nat.not_le.mp hlt))

end Reach

end Framework
