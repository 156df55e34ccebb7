import EspNowLink.Framework.Intervals
import Mathlib.Data.List.Induction

open Framework

namespace EspNowLink

namespace ManagementService

/-- The covered indices of a settings list: from `first` on, up to and without `second`. -/
abbrev CoverageRange := UInt16 × UInt16

section Model

/-- The comparison that the ranges are sorted by. -/
def rangeLe (a b : CoverageRange) : Prop := if a.1 = b.1 then a.2 ≤ b.2 else a.1 ≤ b.1

instance : DecidableRel rangeLe := fun a b => inferInstanceAs (Decidable (if a.1 = b.1 then a.2 ≤ b.2 else a.1 ≤ b.1))

/-- One turn of the loop that compacts in place: the range at `i` is read and what stands before
`out` is written. -/
def compactStep (ranges : List CoverageRange) (out i : ℕ) : List CoverageRange × ℕ :=
  match ranges[i]? with
  | none => (ranges, out)
  | some r =>
    if out = 0 then (ranges.set 0 r, 1)
    else
      match ranges[out - 1]? with
      | none => (ranges, out)
      | some last =>
        if r.1 ≤ last.2 then
          (if last.2 < r.2 then ranges.set (out - 1) (last.1, r.2) else ranges, out)
        else (ranges.set out r, out + 1)

/-- The loop over the `n` ranges from `i` on. -/
def compactFrom : ℕ → ℕ → List CoverageRange × ℕ → List CoverageRange × ℕ
  | 0, _, state => state
  | n + 1, i, state => compactFrom n (i + 1) (compactStep state.1 state.2 i)

/-- `ranges.resize(out)`. -/
def resized (state : List CoverageRange × ℕ) : List CoverageRange := state.1.take state.2

def compact (ranges : List CoverageRange) : List CoverageRange :=
  resized (compactFrom ranges.length 0 (ranges, 0))

def mergeCoverageRange (ranges : List CoverageRange) (first last : UInt16) : List CoverageRange :=
  if last ≤ first then ranges else compact ((ranges ++ [(first, last)]).insertionSort rangeLe)

def contiguousFrom (covered : UInt16) : List CoverageRange → UInt16
  | [] => covered
  | r :: rest => if covered < r.1 then covered else contiguousFrom (if covered < r.2 then r.2 else covered) rest

def contiguousCoverageFromZero (ranges : List CoverageRange) : UInt16 := contiguousFrom 0 ranges

end Model

section Compacting

/-- The loop behind its first range: `done` is finished, `r` still grows, `gap` is what was joined to
them, and `rest` comes. -/
theorem compactFrom_spec (done : List CoverageRange) (r : CoverageRange) (gap rest : List CoverageRange) :
    resized (compactFrom rest.length (done.length + 1 + gap.length)
      (done ++ r :: (gap ++ rest), done.length + 1)) = done ++ joinFrom r rest := by
  induction rest generalizing done r gap with
  | nil =>
    show (done ++ r :: (gap ++ [])).take (done.length + 1) = done ++ [r]
    rw [List.take_append, List.take_of_length_le (Nat.le_succ _), Nat.add_sub_cancel_left]
    rfl
  | cons s rest ih =>
    have hread : (done ++ r :: (gap ++ s :: rest))[done.length + 1 + gap.length]? = some s := by
      rw [Nat.add_assoc, List.getElem?_append_right (Nat.le_add_right _ _), Nat.add_sub_cancel_left,
        Nat.add_comm 1, List.getElem?_cons_succ, List.getElem?_append_right (Nat.le_refl _), Nat.sub_self]
      rfl
    have hlast : (done ++ r :: (gap ++ s :: rest))[done.length + 1 - 1]? = some r := by
      rw [Nat.add_sub_cancel, List.getElem?_append_right (Nat.le_refl _), Nat.sub_self]
      rfl
    have hgrow : ∀ r' : CoverageRange, (done ++ r :: (gap ++ s :: rest)).set (done.length + 1 - 1) r' =
        done ++ r' :: (gap ++ [s] ++ rest) := by
      intro r'
      rw [Nat.add_sub_cancel, List.set_append_right _ _ (Nat.le_refl _), Nat.sub_self, List.set_cons_zero,
        List.append_assoc, List.singleton_append]
    have hindex : done.length + 1 + gap.length + 1 = done.length + 1 + (gap ++ [s]).length := by
      rw [List.length_append, List.length_singleton, Nat.add_assoc]
    have hstep : compactFrom (s :: rest).length (done.length + 1 + gap.length)
        (done ++ r :: (gap ++ s :: rest), done.length + 1) =
      compactFrom rest.length (done.length + 1 + gap.length + 1)
        (compactStep (done ++ r :: (gap ++ s :: rest)) (done.length + 1) (done.length + 1 + gap.length)) := rfl
    rw [hstep]
    simp only [compactStep, hread, Nat.succ_ne_zero, if_false, hlast, joinFrom]
    by_cases hmeet : s.1 ≤ r.2
    · have hrange : (if r.2 < s.2 then (done ++ r :: (gap ++ s :: rest)).set (done.length + 1 - 1) (r.1, s.2)
          else done ++ r :: (gap ++ s :: rest)) =
          done ++ (r.1, if s.2 ≤ r.2 then r.2 else s.2) :: (gap ++ [s] ++ rest) := by
        by_cases hlonger : r.2 < s.2
        · rw [if_pos hlonger, if_neg (UInt16.not_le.mpr hlonger), hgrow]
        · rw [if_neg hlonger, if_pos (UInt16.not_lt.mp hlonger), List.append_assoc, List.singleton_append]
      rw [if_pos hmeet, if_pos hmeet, hrange, hindex]
      exact ih done _ (gap ++ [s])
    · rw [if_neg hmeet, if_neg hmeet]
      cases gap with
      | nil =>
        have hset : (done ++ r :: ([] ++ s :: rest)).set (done.length + 1) s =
            (done ++ [r]) ++ s :: ([] ++ rest) := by
          rw [List.set_append_right _ _ (Nat.le_add_right _ 1), Nat.add_sub_cancel_left,
            List.append_assoc]
          rfl
        have hnext := ih (done ++ [r]) s []
        rw [List.length_append, List.length_singleton, ← hset] at hnext
        rw [List.append_assoc] at hnext
        exact hnext
      | cons g gap =>
        have hset : (done ++ r :: (g :: gap ++ s :: rest)).set (done.length + 1) s =
            (done ++ [r]) ++ s :: (gap ++ [s] ++ rest) := by
          rw [List.set_append_right _ _ (Nat.le_add_right _ 1), Nat.add_sub_cancel_left, List.append_assoc,
            List.append_assoc]
          rfl
        have hnext := ih (done ++ [r]) s (gap ++ [s])
        rw [List.length_append, List.length_singleton, ← hset, List.append_assoc] at hnext
        have hfar : done.length + 1 + (g :: gap).length + 1 =
            done.length + 1 + 1 + (gap ++ [s]).length := by
          rw [List.length_cons, List.length_append, List.length_singleton]
          omega
        rw [hfar]
        exact hnext

/-- In place or not, the ranges are joined. -/
theorem compact_eq (ranges : List CoverageRange) : compact ranges = joined ranges := by
  cases ranges with
  | nil => rfl
  | cons r rest => exact compactFrom_spec [] r [] rest

end Compacting

section Coverage

/-- The indices of a range as numbers. -/
def numbers (ranges : List CoverageRange) : List (ℕ × ℕ) := ranges.map (Prod.map UInt16.toNat UInt16.toNat)

/-- The starts are in order, and no range is empty. -/
theorem rangeLe_fst {a b : CoverageRange} (h : rangeLe a b) : a.1 ≤ b.1 := by
  unfold rangeLe at h
  split at h
  · rename_i heq
    exact heq ▸ UInt16.le_refl a.1
  · exact h

instance : Std.Total rangeLe where
  total a b := by
    unfold rangeLe
    by_cases h : a.1 = b.1
    · rw [if_pos h, if_pos h.symm]
      exact UInt16.le_total a.2 b.2
    · rw [if_neg h, if_neg (Ne.symm h)]
      exact UInt16.le_total a.1 b.1

instance : IsTrans CoverageRange rangeLe where
  trans a b c hab hbc := by
    unfold rangeLe at hab hbc ⊢
    split at hab
    · rename_i heq
      split at hbc
      · rename_i heq'
        rw [if_pos (heq.trans heq')]
        exact UInt16.le_trans hab hbc
      · rename_i hne
        rw [if_neg (heq ▸ hne), heq]
        exact hbc
    · rename_i hne
      split at hbc
      · rename_i heq'
        rw [if_neg (heq' ▸ hne), ← heq']
        exact hab
      · rename_i hne'
        have hlt : a.1 < b.1 := UInt16.lt_of_le_of_ne hab hne
        have hac : a.1 < c.1 := UInt16.lt_of_lt_of_le hlt hbc
        rw [if_neg (UInt16.ne_of_lt hac)]
        exact UInt16.le_of_lt hac

theorem numbers_compact (ranges : List CoverageRange) : numbers (compact ranges) = joined (numbers ranges) := by
  rw [compact_eq]
  exact joined_map (fun _ _ => UInt16.le_iff_toNat_le.symm) ranges

theorem numbers_sorted (ranges : List CoverageRange) :
    (numbers (ranges.insertionSort rangeLe)).Pairwise fun a b => a.1 ≤ b.1 := by
  rw [numbers, List.pairwise_map]
  exact (List.pairwise_insertionSort rangeLe ranges).imp fun h => UInt16.le_iff_toNat_le.mp (rangeLe_fst h)

variable {ranges : List CoverageRange}

theorem covers_merge (ranges : List CoverageRange) (first last : UInt16) (x : ℕ) :
    Covers (numbers (mergeCoverageRange ranges first last)) x ↔
      Covers (numbers ranges) x ∨ (first.toNat ≤ x ∧ x < last.toNat) := by
  unfold mergeCoverageRange
  split
  · rename_i hempty
    have hle := UInt16.le_iff_toNat_le.mp hempty
    constructor
    · exact Or.inl
    · rintro (h | h)
      · exact h
      · omega
  · have hperm : (numbers ((ranges ++ [(first, last)]).insertionSort rangeLe)).Perm
        (numbers (ranges ++ [(first, last)])) := (List.perm_insertionSort rangeLe _).map _
    have hnew : numbers (ranges ++ [(first, last)]) = numbers ranges ++ [(first.toNat, last.toNat)] :=
      List.map_append
    rw [numbers_compact, covers_joined (numbers_sorted _), Covers.perm hperm, hnew, covers_append]
    simp only [Covers, List.mem_singleton, exists_eq_left]

theorem separated_merge (h : Separated (numbers ranges)) (first last : UInt16) :
    Separated (numbers (mergeCoverageRange ranges first last)) := by
  unfold mergeCoverageRange
  split
  · exact h
  · rename_i hempty
    rw [numbers_compact]
    apply separated_joined (numbers_sorted _)
    intro r hr
    obtain ⟨s, hs, rfl⟩ := List.mem_map.mp hr
    rw [List.mem_insertionSort, List.mem_append, List.mem_singleton] at hs
    rcases hs with hs | rfl
    · exact h.nonempty _ (List.mem_map_of_mem hs)
    · exact UInt16.lt_iff_toNat_lt.mp (UInt16.not_le.mp hempty)

theorem contiguousFrom_toNat (covered : UInt16) (ranges : List CoverageRange) :
    (contiguousFrom covered ranges).toNat = reachFrom covered.toNat (numbers ranges) := by
  induction ranges generalizing covered with
  | nil => rfl
  | cons r ranges ih =>
    have hnumbers : numbers (r :: ranges) = (r.1.toNat, r.2.toNat) :: numbers ranges := rfl
    rw [contiguousFrom, hnumbers, reachFrom]
    simp only [UInt16.lt_iff_toNat_lt]
    split
    · rfl
    · rw [ih]
      split <;> rfl

/-- The ranges that a list of insertions leads to. -/
def merged (inserted : List CoverageRange) : List CoverageRange :=
  inserted.foldl (fun ranges r => mergeCoverageRange ranges r.1 r.2) []

theorem merged_spec (inserted : List CoverageRange) :
    Separated (numbers (merged inserted)) ∧
      ∀ x, Covers (numbers (merged inserted)) x ↔ Covers (numbers inserted) x := by
  induction inserted using List.reverseRecOn with
  | nil => exact ⟨separated_nil, fun _ => Iff.rfl⟩
  | append_singleton inserted r ih =>
    obtain ⟨hsep, hcovers⟩ := ih
    have hmerged : merged (inserted ++ [r]) = mergeCoverageRange (merged inserted) r.1 r.2 := by
      rw [merged, List.foldl_append]
      rfl
    have hnumbers : numbers (inserted ++ [r]) = numbers inserted ++ [(r.1.toNat, r.2.toNat)] := List.map_append
    rw [hmerged]
    refine ⟨separated_merge hsep r.1 r.2, ?_⟩
    intro x
    rw [covers_merge, hcovers, hnumbers, covers_append]
    simp only [Covers, List.mem_singleton, exists_eq_left]

/-- The ranges are in order, not empty, disjoint and not adjacent; they cover what was inserted, and
their reach from zero is the longest prefix that they cover. -/
theorem coverage_ranges_exact (inserted : List CoverageRange) :
    ((numbers (merged inserted)).Pairwise fun a b => a.1 < b.1) ∧
      Separated (numbers (merged inserted)) ∧
      (∀ x, Covers (numbers (merged inserted)) x ↔ Covers (numbers inserted) x) ∧
      IsGreatest { n | ∀ x < n, Covers (numbers inserted) x }
        (contiguousCoverageFromZero (merged inserted)).toNat := by
  obtain ⟨hsep, hcovers⟩ := merged_spec inserted
  have hreach := isGreatest_reach (hsep.starts.imp Nat.le_of_lt)
  refine ⟨hsep.starts, hsep, hcovers, ?_⟩
  rw [contiguousCoverageFromZero, contiguousFrom_toNat]
  simp only [hcovers] at hreach
  exact hreach

example : merged [(4, 6), (9, 9), (0, 2), (6, 8), (2, 3), (1, 3)] = [(0, 3), (4, 8)] := by decide

end Coverage

end ManagementService

end EspNowLink
