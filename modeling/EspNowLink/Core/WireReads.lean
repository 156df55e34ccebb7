import EspNowLink.Core.Types
import EspNowLink.Framework.Memory

namespace EspNowLink

open Framework

def readLe16Mem (mem : Nat → Option UInt8) (off : Nat) : Option UInt16 := do
  let b0 ← mem off
  let b1 ← mem (off + 1)
  return readLe16 b0 b1

def readLe32Mem (mem : Nat → Option UInt8) (off : Nat) : Option UInt32 := do
  let b0 ← mem off
  let b1 ← mem (off + 1)
  let b2 ← mem (off + 2)
  let b3 ← mem (off + 3)
  return readLe32 b0 b1 b2 b3

variable {mem : Nat → Option UInt8} {off : Nat} {b0 b1 b2 b3 : UInt8} {rest : Bytes}

theorem readLe16Mem_eq (h : Holds mem off (b0 :: b1 :: rest)) : readLe16Mem mem off = some (readLe16 b0 b1) := by
  rw [readLe16Mem, h.head, h.tail.head]
  rfl

theorem readLe32Mem_eq (h : Holds mem off (b0 :: b1 :: b2 :: b3 :: rest)) :
    readLe32Mem mem off = some (readLe32 b0 b1 b2 b3) := by
  rw [readLe32Mem, h.head, h.tail.head, h.tail.tail.head, h.tail.tail.tail.head]
  rfl

end EspNowLink
