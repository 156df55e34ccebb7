import Mathlib.Data.List.Basic
import Mathlib.Tactic.Basic

namespace Framework

namespace SizedRecords

variable {α : Type} (size : List α → Option ℕ)

/-- A record announces its own length: the announcement stands in the record itself, and a cut record announces more than is there. -/
structure Announced (bs : List α) : Prop where
  nonempty : bs ≠ []
  whole : ∀ rest, size (bs ++ rest) = some bs.length
  torn : ∀ k < bs.length, ∀ n, size (bs.take k) = some n → k < n

/-- The whole records from the front, and what is left behind them. -/
def cut (bs : List α) : List (List α) × List α :=
  match size bs with
  | none => ([], bs)
  | some n =>
    if _h : 0 < n ∧ n ≤ bs.length then
      let later := cut (bs.drop n)
      (bs.take n :: later.1, later.2)
    else ([], bs)
termination_by bs.length
decreasing_by
  rw [List.length_drop]
  omega

variable {size}

theorem cut_append {a : List α} (ha : Announced size a) (rest : List α) :
    cut size (a ++ rest) = (a :: (cut size rest).1, (cut size rest).2) := by
  have hlen : 0 < a.length ∧ a.length ≤ (a ++ rest).length := by
    rw [List.length_append]
    exact ⟨List.length_pos_iff.mpr ha.nonempty, Nat.le_add_right _ _⟩
  rw [cut, ha.whole rest]
  simp only [dif_pos hlen, List.take_left, List.drop_left]

/-- A cut record is left behind. -/
theorem cut_torn {a : List α} (ha : Announced size a) {k : ℕ} (hk : k < a.length) :
    cut size (a.take k) = ([], a.take k) := by
  rw [cut]
  cases hsize : size (a.take k) with
  | none => rfl
  | some n =>
    have hmore : k < n := ha.torn k hk n hsize
    have hlong : ¬ (0 < n ∧ n ≤ (a.take k).length) := by
      rw [List.length_take]
      omega
    simp only [dif_neg hlong]

theorem cut_nil (hnil : size [] = none) : cut size ([] : List α) = ([], []) := by
  rw [cut, hnil]

/-- A concatenation of records is cut into these records. -/
theorem cut_flatten {rs : List (List α)} (hrs : ∀ a ∈ rs, Announced size a) (rest : List α) :
    cut size (rs.flatten ++ rest) = (rs ++ (cut size rest).1, (cut size rest).2) := by
  induction rs with
  | nil => rfl
  | cons a rs ih =>
    have ha : Announced size a := hrs a List.mem_cons_self
    have hlater := ih fun b hb => hrs b (List.mem_cons_of_mem a hb)
    rw [List.flatten_cons, List.append_assoc, cut_append ha, hlater]
    rfl

end SizedRecords

end Framework
