import Mathlib.Algebra.Ring.Nat
import Mathlib.Data.List.Basic

namespace Framework

/-- A field of a tag-length-value stream: a tag, a value type, and a value with a 16-bit length. -/
structure Tlv where
  tag : UInt8
  type : UInt8
  value : List UInt8
  deriving DecidableEq

namespace Tlv

def bytes (f : Tlv) : List UInt8 :=
  f.tag :: f.type :: UInt8.ofNat f.value.length :: UInt8.ofNat (f.value.length / 256) :: f.value

def size (f : Tlv) : Nat := 4 + f.value.length

def encode (fs : List Tlv) : List UInt8 := fs.flatMap bytes

def sizes (fs : List Tlv) : Nat := (fs.map size).sum

/-- The reading loop: fewer than four bytes at the end are left alone, a value that runs past the end
is an error. Every turn takes four bytes or more, so the number of bytes is fuel enough. -/
def decodeFrom : Nat → List UInt8 → Option (List Tlv)
  | n + 1, tag :: type :: lo :: hi :: rest =>
    let len := lo.toNat + 256 * hi.toNat
    if rest.length < len then none
    else (decodeFrom n (rest.drop len)).map (⟨tag, type, rest.take len⟩ :: ·)
  | _, _ => some []

def decode (bs : List UInt8) : Option (List Tlv) := decodeFrom bs.length bs

@[simp] theorem bytes_length (f : Tlv) : f.bytes.length = f.size := by
  simp only [bytes, size, List.length_cons]
  omega

@[simp] theorem encode_nil : encode [] = [] := rfl

@[simp] theorem encode_cons (f : Tlv) (fs : List Tlv) : encode (f :: fs) = f.bytes ++ encode fs := rfl

@[simp] theorem encode_append (fs gs : List Tlv) : encode (fs ++ gs) = encode fs ++ encode gs := by
  simp [encode]

@[simp] theorem encode_length (fs : List Tlv) : (encode fs).length = sizes fs := by
  induction fs with
  | nil => rfl
  | cons f fs ih =>
    rw [encode_cons, List.length_append, bytes_length, ih]
    simp [sizes]

@[simp] theorem sizes_nil : sizes [] = 0 := rfl

@[simp] theorem sizes_cons (f : Tlv) (fs : List Tlv) : sizes (f :: fs) = f.size + sizes fs := by
  simp [sizes]

@[simp] theorem sizes_append (fs gs : List Tlv) : sizes (fs ++ gs) = sizes fs + sizes gs := by
  simp [sizes]

theorem decodeFrom_bytes {f : Tlv} (hf : f.value.length < 65536) (n : Nat) (rest : List UInt8) :
    decodeFrom (n + 1) (f.bytes ++ rest) = (decodeFrom n rest).map (f :: ·) := by
  have hlen : (UInt8.ofNat f.value.length).toNat + 256 * (UInt8.ofNat (f.value.length / 256)).toNat
      = f.value.length := by
    rw [UInt8.toNat_ofNat', UInt8.toNat_ofNat']
    omega
  simp only [bytes, List.cons_append, decodeFrom, hlen]
  rw [if_neg (by rw [List.length_append]; omega)]
  simp

theorem decodeFrom_encode {fs : List Tlv} (hfs : ∀ f ∈ fs, f.value.length < 65536) {n : Nat}
    (hn : fs.length ≤ n) : decodeFrom n (encode fs) = some fs := by
  induction fs generalizing n with
  | nil => cases n <;> rfl
  | cons f fs ih =>
    obtain ⟨n, rfl⟩ : ∃ k, n = k + 1 := Nat.exists_eq_add_one.mpr (Nat.lt_of_lt_of_le (by simp) hn)
    rw [encode_cons, decodeFrom_bytes (hfs f (by simp)),
      ih (fun g hg => hfs g (by simp [hg])) (by simpa using hn)]
    rfl

theorem length_le_sizes (fs : List Tlv) : fs.length ≤ sizes fs := by
  induction fs with
  | nil => simp
  | cons f fs ih =>
    rw [sizes_cons, List.length_cons]
    unfold size
    omega

/-- Fields with 16-bit lengths are read back as they were written. -/
theorem decode_encode {fs : List Tlv} (hfs : ∀ f ∈ fs, f.value.length < 65536) :
    decode (encode fs) = some fs := by
  refine decodeFrom_encode hfs ?_
  rw [encode_length]
  exact length_le_sizes fs

theorem length_lt_of_sizes {fs : List Tlv} {f : Tlv} {n : Nat} (hf : f ∈ fs) (h : sizes fs ≤ n) :
    f.value.length < n := by
  induction fs with
  | nil => simp at hf
  | cons g fs ih =>
    rw [sizes_cons] at h
    rcases List.mem_cons.mp hf with rfl | hf
    · unfold size at h
      omega
    · exact ih hf (by omega)

/-- The first value runs past the end. -/
def Overruns : List UInt8 → Prop
  | _ :: _ :: lo :: hi :: rest => rest.length < lo.toNat + 256 * hi.toNat
  | _ => False

theorem decode_overruns {bs : List UInt8} (h : Overruns bs) : decode bs = none := by
  match bs with
  | tag :: type :: lo :: hi :: rest =>
    have hlong : rest.length < lo.toNat + 256 * hi.toNat := h
    simp [decode, decodeFrom, hlong]

/-- The loop of a reader that stops at the first field it knows, and so reads no field behind it. -/
def firstFrom {α : Type*} (g : Tlv → Option α) : Nat → List UInt8 → Option α
  | n + 1, tag :: type :: lo :: hi :: rest =>
    let len := lo.toNat + 256 * hi.toNat
    if rest.length < len then none
    else (g ⟨tag, type, rest.take len⟩).or (firstFrom g n (rest.drop len))
  | _, _ => none

def first {α : Type*} (g : Tlv → Option α) (bs : List UInt8) : Option α := firstFrom g bs.length bs

theorem first_bytes {α : Type*} {g : Tlv → Option α} {f : Tlv} {a : α}
    (hf : f.value.length < 65536) (hg : g f = some a) (rest : List UInt8) :
    first g (f.bytes ++ rest) = some a := by
  have hlen : (UInt8.ofNat f.value.length).toNat + 256 * (UInt8.ofNat (f.value.length / 256)).toNat
      = f.value.length := by
    rw [UInt8.toNat_ofNat', UInt8.toNat_ofNat']
    omega
  simp only [first, bytes, List.cons_append, List.length_cons, firstFrom, hlen]
  rw [if_neg (by rw [List.length_append]; omega)]
  simp [hg]

end Tlv

end Framework
