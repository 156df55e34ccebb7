import EspNowLink.Framework.Memory

namespace Framework
namespace Tlv

/-- The fields that a reader's loop meets: all up to the end, or to a value that runs past it. -/
def fieldsFrom : Nat → List UInt8 → List Tlv
  | n + 1, tag :: type :: lo :: hi :: rest =>
    let len := lo.toNat + 256 * hi.toNat
    if rest.length < len then []
    else ⟨tag, type, rest.take len⟩ :: fieldsFrom n (rest.drop len)
  | _, _ => []

def fields (bs : List UInt8) : List Tlv := fieldsFrom bs.length bs

variable {α : Type} {g : Tlv → Option α} {bs : List UInt8}

theorem decodeFrom_fieldsFrom (n : Nat) (bs : List UInt8) :
    ∀ fs, decodeFrom n bs = some fs → fieldsFrom n bs = fs := by
  induction n, bs using fieldsFrom.induct with
  | case1 n tag type lo hi rest len hlong =>
    intro fs h
    rw [decodeFrom, if_pos hlong] at h
    cases h
  | case2 n tag type lo hi rest len hfits ih =>
    intro fs h
    rw [decodeFrom, if_neg hfits] at h
    obtain ⟨others, hothers, rfl⟩ := Option.map_eq_some_iff.mp h
    rw [fieldsFrom, if_neg hfits, ih others hothers]
  | case3 n bs hshort =>
    intro fs h
    rw [decodeFrom] at h
    · obtain rfl := Option.some.inj h
      rw [fieldsFrom]
      exact hshort
    · exact hshort

/-- A well-formed stream is met field by field. -/
theorem fields_of_decode {fs : List Tlv} (h : decode bs = some fs) : fields bs = fs :=
  decodeFrom_fieldsFrom bs.length bs fs h

theorem firstFrom_eq (n : Nat) (bs : List UInt8) : firstFrom g n bs = (fieldsFrom n bs).findSome? g := by
  induction n, bs using fieldsFrom.induct with
  | case1 n tag type lo hi rest len hlong =>
    rw [firstFrom, fieldsFrom, if_pos hlong, if_pos hlong]
    rfl
  | case2 n tag type lo hi rest len hfits ih =>
    rw [firstFrom, fieldsFrom, if_neg hfits, if_neg hfits, List.findSome?_cons, ih]
    cases g ⟨tag, type, rest.take len⟩ <;> rfl
  | case3 n bs hshort =>
    rw [firstFrom, fieldsFrom]
    · rfl
    · exact hshort
    · exact hshort

/-- The reader that stops early gives what the first field it knows says. -/
theorem first_eq (bs : List UInt8) : first g bs = (fields bs).findSome? g := firstFrom_eq bs.length bs

theorem first_none (h : ∀ f ∈ fields bs, g f = none) : first g bs = none := by
  rw [first_eq]
  exact List.findSome?_eq_none_iff.mpr h

/-- As much fuel as there are bytes is enough. -/
theorem fieldsFrom_fuel {n m : Nat} (hn : bs.length ≤ n) (hm : bs.length ≤ m) :
    fieldsFrom n bs = fieldsFrom m bs := by
  induction n generalizing m bs with
  | zero =>
    obtain rfl := List.length_eq_zero_iff.mp (Nat.le_zero.mp hn)
    cases m <;> rfl
  | succ n ih =>
    match bs, m with
    | [], m => cases m <;> rfl
    | [_], m => cases m <;> rfl
    | [_, _], m => cases m <;> rfl
    | [_, _, _], m => cases m <;> rfl
    | _ :: _ :: lo :: hi :: rest, 0 => cases hm
    | _ :: _ :: lo :: hi :: rest, m + 1 =>
      have hdrop : (rest.drop (lo.toNat + 256 * hi.toNat)).length ≤ rest.length := by
        rw [List.length_drop]
        omega
      simp only [List.length_cons] at hn hm
      simp only [fieldsFrom]
      rw [ih (m := m) (by omega) (by omega)]

theorem fields_cons (tag type lo hi : UInt8) (rest : List UInt8) :
    fields (tag :: type :: lo :: hi :: rest) =
      if rest.length < lo.toNat + 256 * hi.toNat then []
      else ⟨tag, type, rest.take (lo.toNat + 256 * hi.toNat)⟩ ::
        fields (rest.drop (lo.toNat + 256 * hi.toNat)) := by
  have hdrop := List.length_drop (i := lo.toNat + 256 * hi.toNat) (l := rest)
  rw [fields, List.length_cons, fieldsFrom, fields,
    fieldsFrom_fuel (m := (rest.drop (lo.toNat + 256 * hi.toNat)).length) (by simp; omega) (by omega)]

/-- The early-ending loop over memory. The outer `none` is a read outside the memory. -/
def firstAt (g : Tlv → Option α) (mem : Nat → Option UInt8) (len off : Nat) : Option (Option α) :=
  if off + 4 ≤ len then do
    let tag ← mem off
    let type ← mem (off + 1)
    let lo ← mem (off + 2)
    let hi ← mem (off + 3)
    let n := lo.toNat + 256 * hi.toNat
    if off + 4 + n > len then some none
    else do
      let value ← slice mem n (off + 4)
      match g ⟨tag, type, value⟩ with
      | some a => some (some a)
      | none => firstAt g mem len (off + 4 + n)
  else some none
termination_by len - off

/-- Over memory that holds a stream the loop stays inside it, and gives what the first field says. -/
theorem firstAt_eq {mem : Nat → Option UInt8} {len off : Nat} (h : Holds mem off bs)
    (hlen : off + bs.length = len) : firstAt g mem len off = some (first g bs) := by
  rw [first_eq]
  induction hsize : bs.length using Nat.strong_induction_on generalizing off bs with
  | _ size ih =>
    match bs, h with
    | [], _ | [_], _ | [_, _], _ | [_, _, _], _ =>
      have hshort : ¬ off + 4 ≤ len := by
        simp only [List.length_cons, List.length_nil] at hlen
        omega
      rw [firstAt, if_neg hshort]
      rfl
    | tag :: type :: lo :: hi :: rest, h =>
      have hrest : Holds mem (off + 4) rest := h.drop 4
      simp only [List.length_cons] at hlen hsize
      rw [firstAt, if_pos (by omega), h.head, h.tail.head, h.tail.tail.head, h.tail.tail.tail.head, fields_cons]
      simp only [Option.bind_eq_bind, Option.bind_some]
      by_cases hlong : rest.length < lo.toNat + 256 * hi.toNat
      · rw [if_pos (by omega), if_pos hlong]
        rfl
      · have hdrop := List.length_drop (i := lo.toNat + 256 * hi.toNat) (l := rest)
        rw [if_neg (by omega), if_neg hlong, hrest.slice (by omega), List.findSome?_cons]
        simp only [Option.bind_some]
        cases g ⟨tag, type, rest.take (lo.toNat + 256 * hi.toNat)⟩ with
        | some a => rfl
        | none => exact ih _ (by omega) (hrest.drop _) (by omega) rfl

end Tlv
end Framework
