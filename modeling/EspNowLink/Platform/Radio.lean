import EspNowLink.Core.Types

namespace EspNowLink

/-- A hardware peer entry. -/
structure Attachment where
  encrypted : Bool
  lmk : Option LmkKey
  deriving DecidableEq

structure SentFrame where
  dest : MacAddress
  header : FrameHeader
  payload : Bytes
  deriving DecidableEq

/-- How the platform answers one call: whether it succeeds, whether a peer change that fails has
already dropped the entry, and what the clock shows. -/
structure Answer where
  ok : Bool
  drops : Bool
  epoch : Option UInt64

/-- The platform below the runtime: the transport with its peer table, the random source and the
clock. The `n`-th call is answered by `answer n`. -/
structure Platform where
  channel : UInt8
  attached : MacAddress → Option Attachment
  sent : List SentFrame
  answer : Nat → Answer
  calls : Nat
  random : Nat → UInt8
  drawn : Nat

namespace Platform

def next (p : Platform) : Platform := { p with calls := p.calls + 1 }

/-- `ITransport::addPeer`. -/
def addPeer (p : Platform) (mac : MacAddress) (encrypted : Bool) (lmk : Option LmkKey) :
    Bool × Platform :=
  let a := p.answer p.calls
  if a.ok then (true, { p.next with attached := Function.update p.attached mac (some ⟨encrypted, lmk⟩) })
  else if a.drops then (false, { p.next with attached := Function.update p.attached mac none })
  else (false, p.next)

/-- `ITransport::removePeer`. -/
def removePeer (p : Platform) (mac : MacAddress) : Bool × Platform :=
  let a := p.answer p.calls
  if a.ok then (true, { p.next with attached := Function.update p.attached mac none })
  else (false, p.next)

/-- `ITransport::send`. -/
def send (p : Platform) (frame : SentFrame) : Bool × Platform :=
  if (p.answer p.calls).ok then (true, { p.next with sent := p.sent ++ [frame] })
  else (false, p.next)

/-- `ITransport::setChannel`. -/
def setChannel (p : Platform) (channel : UInt8) : Bool × Platform :=
  if (p.answer p.calls).ok then (true, { p.next with channel := channel }) else (false, p.next)

/-- `ITimeSource::nowEpochSec`. -/
def nowEpochSec (p : Platform) : Option UInt64 × Platform := ((p.answer p.calls).epoch, p.next)

/-- A yes or no of a hook. -/
def askHook (p : Platform) : Bool × Platform := ((p.answer p.calls).ok, p.next)

def espRandom (p : Platform) : UInt32 × Platform :=
  (readLe32 (p.random p.drawn) (p.random (p.drawn + 1)) (p.random (p.drawn + 2))
    (p.random (p.drawn + 3)), { p with drawn := p.drawn + 4 })

def espFillRandom (p : Platform) (n : Nat) : Vector UInt8 n × Platform :=
  (Vector.ofFn fun i => p.random (p.drawn + i), { p with drawn := p.drawn + n })

@[simp] theorem next_attached (p : Platform) : p.next.attached = p.attached := rfl
@[simp] theorem next_channel (p : Platform) : p.next.channel = p.channel := rfl
@[simp] theorem espRandom_attached (p : Platform) : p.espRandom.2.attached = p.attached := rfl
@[simp] theorem espRandom_channel (p : Platform) : p.espRandom.2.channel = p.channel := rfl
@[simp] theorem espFillRandom_attached (p : Platform) (n : Nat) :
    (p.espFillRandom n).2.attached = p.attached := rfl
@[simp] theorem espFillRandom_channel (p : Platform) (n : Nat) :
    (p.espFillRandom n).2.channel = p.channel := rfl
@[simp] theorem nowEpochSec_attached (p : Platform) : p.nowEpochSec.2.attached = p.attached := rfl
@[simp] theorem nowEpochSec_channel (p : Platform) : p.nowEpochSec.2.channel = p.channel := rfl
@[simp] theorem askHook_attached (p : Platform) : p.askHook.2.attached = p.attached := rfl
@[simp] theorem askHook_channel (p : Platform) : p.askHook.2.channel = p.channel := rfl

@[simp] theorem send_attached (p : Platform) (frame : SentFrame) :
    (p.send frame).2.attached = p.attached := by
  unfold send; split <;> rfl

@[simp] theorem send_channel (p : Platform) (frame : SentFrame) :
    (p.send frame).2.channel = p.channel := by
  unfold send; split <;> rfl

@[simp] theorem setChannel_attached (p : Platform) (channel : UInt8) :
    (p.setChannel channel).2.attached = p.attached := by
  unfold setChannel; split <;> rfl

@[simp] theorem addPeer_channel (p : Platform) (mac : MacAddress) (encrypted : Bool)
    (lmk : Option LmkKey) : (p.addPeer mac encrypted lmk).2.channel = p.channel := by
  simp only [addPeer]; split <;> [rfl; split <;> rfl]

@[simp] theorem removePeer_channel (p : Platform) (mac : MacAddress) :
    (p.removePeer mac).2.channel = p.channel := by
  simp only [removePeer]; split <;> rfl

@[simp] theorem addPeer_sent (p : Platform) (mac : MacAddress) (encrypted : Bool)
    (lmk : Option LmkKey) : (p.addPeer mac encrypted lmk).2.sent = p.sent := by
  simp only [addPeer]; split <;> [rfl; split <;> rfl]

@[simp] theorem removePeer_sent (p : Platform) (mac : MacAddress) :
    (p.removePeer mac).2.sent = p.sent := by
  simp only [removePeer]; split <;> rfl

@[simp] theorem setChannel_sent (p : Platform) (channel : UInt8) :
    (p.setChannel channel).2.sent = p.sent := by
  unfold setChannel; split <;> rfl

/-- A peer that was added is attached as asked. -/
theorem addPeer_attached {p : Platform} {mac : MacAddress} {encrypted : Bool}
    {lmk : Option LmkKey} (h : (p.addPeer mac encrypted lmk).1 = true) :
    (p.addPeer mac encrypted lmk).2.attached mac = some ⟨encrypted, lmk⟩ := by
  simp only [addPeer] at h ⊢
  split at h
  · simp_all
  · split at h <;> simp at h

theorem addPeer_attached_of_ne (p : Platform) {mac other : MacAddress} (encrypted : Bool)
    (lmk : Option LmkKey) (h : other ≠ mac) :
    (p.addPeer mac encrypted lmk).2.attached other = p.attached other := by
  simp only [addPeer]
  split
  · simp [Function.update_of_ne h]
  · split <;> simp [Function.update_of_ne h]

theorem removePeer_attached_of_ne (p : Platform) {mac other : MacAddress} (h : other ≠ mac) :
    (p.removePeer mac).2.attached other = p.attached other := by
  simp only [removePeer]
  split <;> simp [Function.update_of_ne h]

end Platform

end EspNowLink
