import EspNowLink.Framework.TlvMemory

namespace Framework

/-- The bytes stand in memory from the address on. -/
def Holds (mem : Nat → Option UInt8) (off : Nat) (bs : List UInt8) : Prop :=
  ∀ i < bs.length, mem (off + i) = bs[i]?

namespace Holds

variable {mem : Nat → Option UInt8} {off n : Nat} {b : UInt8} {bs : List UInt8}

theorem head (h : Holds mem off (b :: bs)) : mem off = some b := by
  simpa using h 0 (by simp)

theorem drop (h : Holds mem off bs) (n : Nat) : Holds mem (off + n) (bs.drop n) := by
  intro i hi
  rw [List.length_drop] at hi
  rw [List.getElem?_drop, Nat.add_assoc]
  exact h (n + i) (by omega)

theorem tail (h : Holds mem off (b :: bs)) : Holds mem (off + 1) bs := h.drop 1

theorem slice (h : Holds mem off bs) (hn : n ≤ bs.length) : Tlv.slice mem n off = some (bs.take n) := by
  induction n generalizing off bs with
  | zero => rfl
  | succ n ih =>
    cases bs with
    | nil => cases hn
    | cons b bs =>
      rw [Tlv.slice, h.head, ih h.tail (Nat.le_of_succ_le_succ hn)]
      rfl

end Holds

end Framework
