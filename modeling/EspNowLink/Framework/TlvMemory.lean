import EspNowLink.Framework.Tlv

namespace Framework
namespace Tlv

section Memory

variable {σ : Type} (step : σ → Tlv → Option σ) (mem : Nat → Option UInt8)

/-- `n` bytes from an address on; `none` when one of them is not there to be read. -/
def slice : Nat → Nat → Option (List UInt8)
  | 0, _ => some []
  | n + 1, off => do
    let b ← mem off
    let bs ← slice n (off + 1)
    return b :: bs

/-- A reader's loop over `len` bytes of memory, each field given to `step` as it is met. The outer
`none` is an access outside the memory, the inner one a malformed stream. -/
def readFrom (len off : Nat) (s : σ) : Option (Option σ) :=
  if off + 4 ≤ len then do
    let tag ← mem off
    let type ← mem (off + 1)
    let lo ← mem (off + 2)
    let hi ← mem (off + 3)
    let n := lo.toNat + 256 * hi.toNat
    if off + 4 + n > len then some none
    else do
      let value ← slice mem n (off + 4)
      match step s ⟨tag, type, value⟩ with
      | none => some none
      | some s => readFrom len (off + 4 + n) s
  else some (some s)
termination_by len - off

variable {step mem} {bs : List UInt8}

/-- As much fuel as there are bytes is enough. -/
theorem decodeFrom_fuel {n m : Nat} (hn : bs.length ≤ n) (hm : bs.length ≤ m) :
    decodeFrom n bs = decodeFrom m bs := by
  induction n generalizing m bs with
  | zero =>
    obtain rfl := List.length_eq_zero_iff.mp (Nat.le_zero.mp hn)
    cases m <;> rfl
  | succ n ih =>
    match bs, m with
    | [], m => cases m <;> rfl
    | [_], m => cases m <;> rfl
    | [_, _], m => cases m <;> rfl
    | [_, _, _], m => cases m <;> rfl
    | _ :: _ :: lo :: hi :: rest, 0 => cases hm
    | _ :: _ :: lo :: hi :: rest, m + 1 =>
      have hdrop := List.length_drop (i := lo.toNat + 256 * hi.toNat) (l := rest)
      simp only [List.length_cons] at hn hm
      simp only [decodeFrom]
      rw [ih (m := m) (by omega) (by omega)]

theorem decode_cons (tag type lo hi : UInt8) (rest : List UInt8) :
    decode (tag :: type :: lo :: hi :: rest) =
      if rest.length < lo.toNat + 256 * hi.toNat then none
      else (decode (rest.drop (lo.toNat + 256 * hi.toNat))).map
        (⟨tag, type, rest.take (lo.toNat + 256 * hi.toNat)⟩ :: ·) := by
  have hdrop := List.length_drop (i := lo.toNat + 256 * hi.toNat) (l := rest)
  rw [decode, List.length_cons, decodeFrom, decode,
    decodeFrom_fuel (m := (rest.drop (lo.toNat + 256 * hi.toNat)).length) (by simp; omega) (by omega)]

theorem decode_short (h : bs.length < 4) : decode bs = some [] := by
  match bs, h with
  | [], _ => rfl
  | [_], _ => rfl
  | [_, _], _ => rfl
  | [_, _, _], _ => rfl

theorem slice_eq (hmem : ∀ i < bs.length, mem i = bs[i]?) {n off : Nat} (h : off + n ≤ bs.length) :
    slice mem n off = some ((bs.drop off).take n) := by
  induction n generalizing off with
  | zero => rfl
  | succ n ih =>
    have hoff : off < bs.length := by omega
    rw [slice, hmem off hoff, List.getElem?_eq_getElem hoff, ih (by omega),
      List.drop_eq_getElem_cons hoff]
    rfl

/-- Over memory that holds the bytes of a stream the loop stays inside them, and does what decoding
the stream and running through its fields does. -/
theorem readFrom_eq (hmem : ∀ i < bs.length, mem i = bs[i]?) {off : Nat} (hoff : off ≤ bs.length)
    (s : σ) : readFrom step mem bs.length off s = some ((decode (bs.drop off)).bind (·.foldlM step s)) := by
  induction hleft : bs.length - off using Nat.strong_induction_on generalizing off s with
  | _ left ih =>
    have hlen := List.length_drop (i := off) (l := bs)
    rw [readFrom]
    by_cases hmore : off + 4 ≤ bs.length
    · rw [if_pos hmore]
      have h0 : off < bs.length := by omega
      have h1 : off + 1 < bs.length := by omega
      have h2 : off + 2 < bs.length := by omega
      have h3 : off + 3 < bs.length := by omega
      have hsplit : bs.drop off = bs[off] :: bs[off + 1] :: bs[off + 2] :: bs[off + 3] :: bs.drop (off + 4) := by
        rw [List.drop_eq_getElem_cons h0, List.drop_eq_getElem_cons h1, List.drop_eq_getElem_cons h2,
          List.drop_eq_getElem_cons h3]
      have hrest := List.length_drop (i := off + 4) (l := bs)
      rw [hmem off h0, hmem _ h1, hmem _ h2, hmem _ h3, List.getElem?_eq_getElem h0,
        List.getElem?_eq_getElem h1, List.getElem?_eq_getElem h2, List.getElem?_eq_getElem h3, hsplit,
        decode_cons]
      simp only [Option.bind_eq_bind, Option.bind_some]
      by_cases hfits : off + 4 + (bs[off + 2].toNat + 256 * bs[off + 3].toNat) > bs.length
      · rw [if_pos hfits, if_pos (by omega)]
        rfl
      · rw [if_neg hfits, if_neg (by omega), slice_eq hmem (by omega), Option.bind_some]
        generalize (bs.drop (off + 4)).take (bs[off + 2].toNat + 256 * bs[off + 3].toNat) = value
        rw [List.drop_drop, Option.bind_map]
        simp only [Function.comp_def, List.foldlM_cons]
        cases hstep : step s ⟨bs[off], bs[off + 1], value⟩ with
        | none =>
          cases decode (bs.drop (off + 4 + (bs[off + 2].toNat + 256 * bs[off + 3].toNat))) <;> rfl
        | some next =>
          exact ih _ (by omega) (by omega) next rfl
    · rw [if_neg hmore, decode_short (by omega)]
      rfl

end Memory

end Tlv
end Framework
