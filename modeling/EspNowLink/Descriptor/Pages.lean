import EspNowLink.Descriptor.RoundTrip
import EspNowLink.Framework.Fitting

open Framework

namespace EspNowLink

/-- The bytes that are left for a list after `out`. -/
def roomAfter (reserve : Bool) (out : Bytes) : Nat := kMaxPayload - reserved reserve - out.length

theorem room_iff_le {reserve : Bool} {out : Bytes} (h : Room reserve out 0) (n : Nat) :
    Room reserve out n ↔ n ≤ roomAfter reserve out := by
  unfold Room at h ⊢
  unfold roomAfter
  omega

theorem roomAfter_append (reserve : Bool) (out : Bytes) (fs : List Tlv) :
    roomAfter reserve (out ++ Tlv.encode fs) = roomAfter reserve out - Tlv.sizes fs := by
  unfold roomAfter
  rw [List.length_append, Tlv.encode_length]
  omega

section Items

variable {α : Type} {fields : α → List Tlv} {reserve : Bool} {out : Bytes}

/-- The items that a list without optional parts is cut to. -/
def keptItems (fields : α → List Tlv) (room : Nat) (xs : List α) : List α :=
  fitted (fun x => Tlv.sizes (fields x)) id room xs

theorem sizes_flatMap (fields : α → List Tlv) (xs : List α) :
    Tlv.sizes (xs.flatMap fields) = (xs.map fun x => Tlv.sizes (fields x)).sum := by
  induction xs with
  | nil => rfl
  | cons x xs ih => rw [List.flatMap_cons, Tlv.sizes_append, ih, List.map_cons, List.sum_cons]

variable (fields) in
/-- The loop over the items writes the ones that fit, and counts them. -/
theorem appendItems_noExtras (xs : List α) (h : Room reserve out 0) :
    (appendItems reserve fields noExtras out xs).out =
      out ++ Tlv.encode ((keptItems fields (roomAfter reserve out) xs).flatMap fields) ∧
    (appendItems reserve fields noExtras out xs).emitted =
      UInt16.ofNat (keptItems fields (roomAfter reserve out) xs).length := by
  induction xs generalizing out with
  | nil => simp [appendItems, keptItems, fitted]
  | cons x xs ih =>
    by_cases hx : Room reserve out (Tlv.sizes (fields x))
    · have hkept : keptItems fields (roomAfter reserve out) (x :: xs) =
          x :: keptItems fields (roomAfter reserve (out ++ Tlv.encode (fields x))) xs := by
        have hle := (room_iff_le h _).mp hx
        simp only [keptItems, fitted, if_pos hle, roomAfter_append]
      obtain ⟨hout, hemitted⟩ := ih hx.append
      rw [appendItems, if_neg (by simpa using hx), hkept]
      simp only [noExtras, appendExtras, hout, hemitted]
      refine ⟨by simp, ?_⟩
      rw [List.length_cons, UInt16.ofNat_add]
      rfl
    · have hkept : keptItems fields (roomAfter reserve out) (x :: xs) = [] := by
        have hle := fun hle => hx ((room_iff_le h _).mpr hle)
        simp only [keptItems, fitted, if_neg hle, id]
      rw [appendItems, if_pos (by simpa using hx), hkept]
      simp

end Items

/-- The marker at the end of a truncated response. -/
def markFields (marked : Bool) : List Tlv := if marked then [utf8Field 0x11 (ascii "truncated")] else []

/-- A paged response is its header, its body, and the page metadata that follows the emitted items. -/
theorem encode_paged {r : DescriptorResponse} {e : EncodedResponse} (hpaged : r.is_paged = true)
    (he : encodeDescriptorResponse r = some e) :
    ∃ s, encodeBody r (Tlv.encode (headerFields r)) = some s ∧
      Room true (Tlv.encode (headerFields r)) 0 ∧
      e.payload = s.out ++
        Tlv.encode (pageFields (patchPageMeta r.type r.toPageMeta s.emitted) ++ markFields e.marked) ∧
      e.payload.length ≤ kMaxPayload := by
  obtain ⟨t, ht, rfl⟩ := Option.map_eq_some_iff.mp he
  obtain ⟨s, hs, ht⟩ := Option.bind_eq_some_iff.mp ht
  obtain ⟨out, hout, hs⟩ := Option.bind_eq_some_iff.mp hs
  rw [hpaged] at hout
  obtain ⟨hroom, rfl⟩ := tryAppendAll_some (room_of_tryAppendAll_cons hout) hout
  simp only [List.nil_append] at hs
  unfold encodePage at ht
  rw [hpaged] at ht
  obtain ⟨page, hpage, rfl⟩ := Option.map_eq_some_iff.mp ht
  obtain ⟨hroomPage, rfl⟩ := tryAppendAll_some (room_of_tryAppendAll_cons hpage) hpage
  refine ⟨s, hs, by simpa using hroom.append, ?_⟩
  simp only [markTruncated]
  split
  · rename_i hfit
    have hroomMark := canFit_iff.mp (Bool.and_eq_true_iff.mp hfit).2
    constructor
    · simp [markFields]
    · unfold Room at hroomMark
      simp only [List.length_append, Tlv.bytes_length] at hroomMark ⊢
      omega
  · exact ⟨by simp [markFields], hroomPage.append.length_le⟩

/-- The marker replaces the message. -/
theorem readFields_markFields (s : DecodeState) (marked : Bool) :
    readFields s (markFields marked) =
      s.mapOut fun o => { o with message := if marked then ascii "truncated" else o.message } := by
  cases marked with
  | false => rfl
  | true => simp [markFields, reader, headerReader]

/-- The response with the epoch that goes on the wire. -/
def roundTime (r : DescriptorResponse) : DescriptorResponse :=
  { r with time := { r.time with epoch_s := r.time.epoch_s.toUInt32.toUInt64 } }

theorem allFields_roundTime (r : DescriptorResponse) : allFields (roundTime r) = allFields r := by
  have htime : timeFields (roundTime r).time = timeFields r.time := by
    simp only [timeFields, roundTime, UInt32.toUInt32_toUInt64]
  have hbody : bodyFields (roundTime r) = bodyFields r := by
    have htype : (roundTime r).type = r.type := rfl
    unfold bodyFields
    rw [htype]
    cases r.type with
    | Time => exact htime
    | NodeBundle =>
      have hbundle : bundleFields (roundTime r) = bundleFields r := by
        simp only [bundleFields, htime]
        rfl
      dsimp only
      rw [hbundle]
      rfl
    | _ => rfl
  rw [allFields, hbody]
  rfl

theorem flushAll_mapOut_message (s : DecodeState) (m : Bytes) :
    takeSetting (flushAll (s.mapOut fun o => { o with message := m })) =
      { takeSetting (flushAll s) with message := m } := by
  unfold takeSetting
  have htype : (flushAll (s.mapOut fun o => { o with message := m })).type = (flushAll s).type := rfl
  have hsettings : (flushAll (s.mapOut fun o => { o with message := m })).settings =
      (flushAll s).settings := rfl
  rw [htype, hsettings]
  cases (flushAll s).type <;> cases (flushAll s).settings <;> rfl

theorem received_message (r : DescriptorResponse) : (received r).message = r.message := by
  unfold received
  split <;> exact carried_message r

theorem received_page (r : DescriptorResponse) :
    (received r).toPageMeta = if r.is_paged then r.toPageMeta else {} := by
  unfold received
  split <;> exact carried_page r

/-- The message after the marker. -/
def markedMessage (marked : Bool) (message : Bytes) : Bytes :=
  if marked then ascii "truncated" else message

/-- The decoder on the fields of a response and the marker. -/
theorem decode_marked {r : DescriptorResponse} (htype : r.type ≠ .Unknown) (marked : Bool)
    (hsizes : Tlv.sizes (allFields r ++ markFields marked) ≤ kMaxPayload + 4) :
    decodeDescriptorResponse (Tlv.encode (allFields r ++ markFields marked)) =
      some { received (roundTime r) with message := markedMessage marked r.message } := by
  have hepoch : (roundTime r).time.epoch_s.toUInt32.toUInt64 = (roundTime r).time.epoch_s := by
    simp only [roundTime, UInt32.toUInt32_toUInt64]
  have hlength : ¬ (Tlv.encode (allFields r ++ markFields marked)).length < 8 := by
    rw [Tlv.encode_length, Tlv.sizes_append, sizes_allFields]
    simp [headerFields, u8Field, Tlv.size]
    omega
  have hfields : Tlv.decode (Tlv.encode (allFields r ++ markFields marked)) =
      some (allFields r ++ markFields marked) := by
    refine Tlv.decode_encode fun f hf => ?_
    have hlen := Tlv.length_lt_of_sizes hf hsizes
    have hmax : kMaxPayload + 4 < 65536 := by decide
    omega
  have hread : takeSetting (flushAll (readFields {} (allFields r))) = received (roundTime r) := by
    rw [← allFields_roundTime, allFields, readFields_append, readFields_append, readFields_header,
      readFields_pagePart]
    exact readPage_body hepoch
  have hmessage : (received (roundTime r)).message = r.message := received_message (roundTime r)
  have hmark : takeSetting (flushAll (readFields {} (allFields r ++ markFields marked))) =
      { received (roundTime r) with message := markedMessage marked r.message } := by
    rw [readFields_append, readFields_markFields]
    cases marked with
    | false =>
      have hsame : ((readFields {} (allFields r)).mapOut fun o =>
          { o with message := if false = true then ascii "truncated" else o.message }) =
          readFields {} (allFields r) := rfl
      rw [hsame, hread, markedMessage, if_neg (by decide), ← hmessage]
    | true =>
      simp only [if_true, markedMessage]
      rw [flushAll_mapOut_message, hread]
  rw [decodeDescriptorResponse, if_neg hlength, hfields, Option.bind_some]
  simp only [hmark]
  have hkind : (received (roundTime r)).type ≠ .Unknown := by
    rw [received_type]
    exact htype
  rw [if_neg hkind]

/-- The decoder on a paged response whose body was written as that of `r'`. -/
theorem decode_paged {r : DescriptorResponse} (r' : DescriptorResponse) {e : EncodedResponse} {s : Section}
    (htype : r.type ≠ .Unknown) (hpaged : r.is_paged = true) (he : encodeDescriptorResponse r = some e)
    (hs : encodeBody r (Tlv.encode (headerFields r)) = some s) (hhead : SameHead r r')
    (hout : s.out = Tlv.encode (headerFields r) ++ Tlv.encode (bodyFields r')) :
    decodeDescriptorResponse e.payload =
      some { received (roundTime { r' with toPageMeta := patchPageMeta r.type r.toPageMeta s.emitted }) with
        message := markedMessage e.marked r.message } := by
  obtain ⟨t, ht, -, hpayload, hlen⟩ := encode_paged hpaged he
  obtain rfl : s = t := Option.some.inj (hs.symm.trans ht)
  have hpatched : (patchPageMeta r.type r.toPageMeta s.emitted).is_paged = true := by
    unfold patchPageMeta
    split <;> exact hpaged
  have hfields : e.payload = Tlv.encode (allFields
      { r' with toPageMeta := patchPageMeta r.type r.toPageMeta s.emitted } ++ markFields e.marked) := by
    have hheader : headerFields { r' with toPageMeta := patchPageMeta r.type r.toPageMeta s.emitted } =
        headerFields r := hhead.headerFields_eq
    have hbody : bodyFields { r' with toPageMeta := patchPageMeta r.type r.toPageMeta s.emitted } =
        bodyFields r' := rfl
    rw [hpayload, hout, allFields, hheader, hbody, pagePart, if_pos hpatched]
    simp
  have hmessage : r'.message = r.message := hhead.message
  rw [hfields, decode_marked (by rw [← hhead.type] at htype; exact htype), ← hmessage]
  rw [← Tlv.encode_length, ← hfields]
  omega

end EspNowLink
