import EspNowLink.Ota.PushInvariant

namespace EspNowLink

def kOtaTransferReadyEventId : UInt16 := 0x7F11

/-- What reaches a push session: its pump, and the two kinds of manager events that it looks at. A
session that stops tells its peer when it is `reachable`. -/
inductive PushEvent where
  | pump (env : PushEnvironment) (now_ms : UInt32)
  | transferStatus (peer : MacAddress) (status : FirmwareStatus) (reachable : Bool) (now_ms : UInt32)
  | mandatoryEvent (peer : MacAddress) (event_id : UInt16) (correlation_id : UInt32)
      (reachable : Bool) (now_ms : UInt32)

def PushEvent.now_ms : PushEvent → UInt32
  | .pump _ now_ms => now_ms
  | .transferStatus _ _ _ now_ms => now_ms
  | .mandatoryEvent _ _ _ _ now_ms => now_ms

namespace OtaPushLocalSession

/-- `onEvent`, a `MandatoryEventReceived`. -/
def onMandatoryEvent (m : OtaPushLocalSession) (reachable : Bool) (peer : MacAddress)
    (event_id : UInt16) (correlation_id : UInt32) : List PushOutput × OtaPushLocalSession :=
  if event_id = kOtaTransferReadyEventId ∧ m.active = true ∧ m.phase = .WaitEnd ∧
      peer = m.peer ∧ correlation_id = m.req_id then
    m.stopOtaPushLocal reachable true .Ok .Ok "local ota push complete"
  else ([], m)

/-- The session takes one event. The sender of a status frame is not looked at. -/
def handle (m : OtaPushLocalSession) (image : Bytes) :
    PushEvent → List PushOutput × OtaPushLocalSession
  | .pump env now_ms => m.pumpOtaPushLocal image env now_ms
  | .transferStatus _ status reachable now_ms => m.onTransferStatus reachable status now_ms
  | .mandatoryEvent peer event_id correlation_id reachable _ =>
    m.onMandatoryEvent reachable peer event_id correlation_id

def handleAll (image : Bytes) :
    List PushEvent → OtaPushLocalSession → List PushOutput × OtaPushLocalSession
  | [], m => ([], m)
  | e :: rest, m =>
    let (out, n) := m.handle image e
    let (later, n) := handleAll image rest n
    (out ++ later, n)

theorem handleAll_cons (image : Bytes) (e : PushEvent) (es : List PushEvent)
    (m : OtaPushLocalSession) :
    handleAll image (e :: es) m =
      ((m.handle image e).1 ++ (handleAll image es (m.handle image e).2).1,
        (handleAll image es (m.handle image e).2).2) := rfl

theorem handleAll_append (image : Bytes) (es fs : List PushEvent) (m : OtaPushLocalSession) :
    handleAll image (es ++ fs) m =
      ((handleAll image es m).1 ++ (handleAll image fs (handleAll image es m).2).1,
        (handleAll image fs (handleAll image es m).2).2) := by
  induction es generalizing m with
  | nil => rfl
  | cons e es ih =>
    rw [List.cons_append, handleAll_cons, handleAll_cons, ih, List.append_assoc]

/-- An invariant of the session and of what it sends, kept by every event, holds of every run. -/
theorem handleAll_invariant {image : Bytes} {Inv : OtaPushLocalSession → Prop}
    {Sent : PushOutput → Prop}
    (hstep : ∀ m e, Inv m → Inv (m.handle image e).2 ∧ ∀ o ∈ (m.handle image e).1, Sent o)
    (es : List PushEvent) {m : OtaPushLocalSession} (hm : Inv m) :
    Inv (handleAll image es m).2 ∧ ∀ o ∈ (handleAll image es m).1, Sent o := by
  induction es generalizing m with
  | nil => exact ⟨hm, by simp [handleAll]⟩
  | cons e es ih =>
    obtain ⟨hnext, hout⟩ := hstep m e hm
    obtain ⟨hlast, hlater⟩ := ih hnext
    rw [handleAll_cons]
    refine ⟨hlast, fun o ho => ?_⟩
    rcases List.mem_append.mp ho with ho | ho
    · exact hout o ho
    · exact hlater o ho

end OtaPushLocalSession

/-- The session that `startOtaPushLocalSession` leaves behind. -/
def PushStart.session (p : PushStart) : OtaPushLocalSession :=
  .start p.slave_mac p.corr_id p.chunk_bytes p.image.length.toUInt32 p.crc p.now_ms

/-- The checks of `startOtaPushLocalSession` on the chunk size and the image. -/
structure PushStart.Checked (p : PushStart) : Prop where
  chunk : 32 ≤ p.chunk_bytes ∧ p.chunk_bytes ≤ 220
  size : 0 < p.image.length ∧ p.image.length < 2 ^ 32

end EspNowLink
