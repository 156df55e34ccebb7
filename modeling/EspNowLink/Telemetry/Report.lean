import EspNowLink.Descriptor.RoundTrip
import EspNowLink.Telemetry.Push

open Framework

namespace EspNowLink

/-- The samples that fit, up to the first that does not. -/
def fittingSamples (room : Nat) : List TelemetrySample → List TelemetrySample
  | [] => []
  | s :: rest =>
    if Tlv.sizes (sampleFields s) ≤ room then
      s :: fittingSamples (room - Tlv.sizes (sampleFields s)) rest
    else []

theorem fittingSamples_prefix (room : Nat) (samples : List TelemetrySample) :
    fittingSamples room samples <+: samples := by
  induction samples generalizing room with
  | nil => exact List.prefix_refl _
  | cons s rest ih =>
    rw [fittingSamples]
    split
    · exact (List.prefix_cons_inj s).mpr (ih _)
    · exact List.nil_prefix

/-- How many bytes the samples of a list take in a report. -/
def sampleBytes (samples : List TelemetrySample) : Nat := Tlv.sizes (samples.flatMap sampleFields)

@[simp] theorem sampleBytes_nil : sampleBytes [] = 0 := rfl

@[simp] theorem sampleBytes_cons (s : TelemetrySample) (samples : List TelemetrySample) :
    sampleBytes (s :: samples) = Tlv.sizes (sampleFields s) + sampleBytes samples := by
  simp [sampleBytes]

theorem sampleBytes_append (xs ys : List TelemetrySample) :
    sampleBytes (xs ++ ys) = sampleBytes xs + sampleBytes ys := by
  simp [sampleBytes]

/-- The samples up to one are kept when they fit. -/
theorem prefix_fittingSamples {room : Nat} {pre samples : List TelemetrySample} (hpre : pre <+: samples)
    (h : sampleBytes pre ≤ room) : pre <+: fittingSamples room samples := by
  induction pre generalizing room samples with
  | nil => exact List.nil_prefix
  | cons p pre ih =>
    obtain ⟨rest, rfl⟩ := hpre
    rw [sampleBytes_cons] at h
    rw [List.cons_append, fittingSamples, if_pos (by omega), List.prefix_cons_inj]
    exact ih (List.prefix_append pre rest) (by omega)

theorem sampleBytes_mono {pre samples : List TelemetrySample} (h : pre <+: samples) :
    sampleBytes pre ≤ sampleBytes samples := by
  obtain ⟨rest, rfl⟩ := h
  rw [sampleBytes_append]
  exact Nat.le_add_right _ _

theorem fittingSamples_all {room : Nat} {samples : List TelemetrySample}
    (h : sampleBytes samples ≤ room) : fittingSamples room samples = samples := by
  induction samples generalizing room with
  | nil => rfl
  | cons s rest ih =>
    rw [sampleBytes_cons] at h
    rw [fittingSamples, if_pos (by omega), ih (by omega)]

theorem sampleBytes_fittingSamples (room : Nat) (samples : List TelemetrySample) :
    sampleBytes (fittingSamples room samples) ≤ room := by
  induction samples generalizing room with
  | nil => exact Nat.zero_le _
  | cons s rest ih =>
    rw [fittingSamples]
    split
    · have hrest := ih (room - Tlv.sizes (sampleFields s))
      rw [sampleBytes_cons]
      omega
    · exact Nat.zero_le _

theorem appendItems_samples {out : Bytes} (hout : out.length ≤ kMaxPayload)
    (samples : List TelemetrySample) :
    (appendItems false sampleFields noExtras out samples).out = out ++ Tlv.encode
      ((fittingSamples (kMaxPayload - out.length) samples).flatMap sampleFields) := by
  induction samples generalizing out with
  | nil => simp [appendItems, fittingSamples]
  | cons s rest ih =>
    have hroom : canFit false out (Tlv.sizes (sampleFields s)) =
        decide (Tlv.sizes (sampleFields s) ≤ kMaxPayload - out.length) := by
      unfold canFit
      rw [Bool.eq_iff_iff]
      simp only [decide_eq_true_eq, Bool.false_eq_true, if_false]
      omega
    rw [appendItems, hroom, fittingSamples]
    by_cases hs : Tlv.sizes (sampleFields s) ≤ kMaxPayload - out.length
    · have hlen : (out ++ Tlv.encode (sampleFields s)).length ≤ kMaxPayload := by
        rw [List.length_append, Tlv.encode_length]
        omega
      have hrest := ih hlen
      rw [List.length_append, Tlv.encode_length, ← Nat.sub_sub] at hrest
      simp only [hs, decide_true, Bool.not_true, Bool.false_eq_true, if_false, if_true, noExtras,
        appendExtras, hrest]
      simp
    · simp [hs]

/-- The room that the header of a report leaves. -/
def reportRoom (cause : String) : Nat := kMaxPayload - (14 + (ascii cause).length)

section Reply

variable {samples : List TelemetrySample} {cause : String}

variable (samples) in
theorem snapshotReply_header (hcause : (ascii cause).isEmpty = false) :
    headerFields (snapshotReply samples cause) =
      [u8Field 0x01 kSchemaVersion, u8Field 0x10 4, utf8Field 0x11 (ascii cause)] := by
  simp [headerFields, snapshotReply, hcause, DescriptorResponseType.toByte]

variable (samples) in
/-- What a report is made of: the header, the samples that fit, and maybe the mark of a cut. -/
theorem reply_payload (hcause : (ascii cause).isEmpty = false) (hlen : (ascii cause).length ≤ 200) :
    ∃ mark : List Tlv, (mark = [] ∨ mark = [utf8Field 0x11 (ascii "truncated")]) ∧
      buildTelemetrySnapshotReply samples cause = some (Tlv.encode
        (headerFields (snapshotReply samples cause) ++
          (fittingSamples (reportRoom cause) samples).flatMap sampleFields ++ mark)) ∧
      Tlv.sizes (headerFields (snapshotReply samples cause) ++
        (fittingSamples (reportRoom cause) samples).flatMap sampleFields ++ mark) ≤ kMaxPayload := by
  have hsize : Tlv.sizes (headerFields (snapshotReply samples cause)) = 14 + (ascii cause).length := by
    rw [snapshotReply_header samples hcause]
    simp [Tlv.size, u8Field, utf8Field]
    omega
  have hmax : kMaxPayload = 235 := rfl
  have hfit : Room false ([] : Bytes) (Tlv.sizes (headerFields (snapshotReply samples cause))) := by
    simp [Room, reserved, hsize]
    omega
  have hheader : tryAppendAll false [] (headerFields (snapshotReply samples cause)) =
      some (Tlv.encode (headerFields (snapshotReply samples cause))) := by
    rw [tryAppendAll_eq _ (hfit.mono (Nat.zero_le _)), if_pos hfit, List.nil_append]
  have hout : (Tlv.encode (headerFields (snapshotReply samples cause))).length ≤ kMaxPayload := by
    rw [Tlv.encode_length, hsize]
    omega
  have hitems := appendItems_samples hout samples
  rw [Tlv.encode_length, hsize, ← Tlv.encode_append] at hitems
  have hbytes := sampleBytes_fittingSamples (reportRoom cause) samples
  have hall : buildTelemetrySnapshotReply samples cause = some (markTruncated (appendItems false
      sampleFields noExtras (Tlv.encode (headerFields (snapshotReply samples cause))) samples)).payload := by
    unfold buildTelemetrySnapshotReply encodeDescriptorResponse
    have hpaged : (snapshotReply samples cause).is_paged = false := rfl
    rw [hpaged, hheader]
    rfl
  rw [hall]
  generalize appendItems false sampleFields noExtras _ samples = body at hitems
  unfold markTruncated
  have hroom : reportRoom cause = kMaxPayload - (14 + (ascii cause).length) := rfl
  dsimp only
  split
  · rename_i hmark
    refine ⟨[utf8Field 0x11 (ascii "truncated")], .inr rfl, ?_, ?_⟩
    · rw [hitems, ← hroom]
      simp
    · rw [Bool.and_eq_true, canFit_iff, hitems, ← hroom] at hmark
      have hfits := hmark.2
      simp only [Room, reserved, Tlv.encode_length, Bool.false_eq_true, if_false] at hfits
      rw [Tlv.sizes_append, Tlv.sizes_cons, Tlv.sizes_nil]
      omega
  · refine ⟨[], .inl rfl, ?_, ?_⟩
    · rw [hitems, ← hroom]
      simp
    · rw [List.append_nil, Tlv.sizes_append, hsize]
      unfold sampleBytes at hbytes
      omega

/-- The master decodes the samples that fit. -/
theorem reply_samples (hcause : (ascii cause).isEmpty = false) (hlen : (ascii cause).length ≤ 200)
    {payload : Bytes} (h : buildTelemetrySnapshotReply samples cause = some payload) :
    ((decodeDescriptorResponse payload).map (·.telemetry_samples)).getD [] =
      fittingSamples (reportRoom cause) samples := by
  obtain ⟨mark, hmark, hpayload, hsizes⟩ := reply_payload samples hcause hlen
  rw [hpayload, Option.some.injEq] at h
  generalize fittingSamples (reportRoom cause) samples = fitting at h hsizes
  have hheader := snapshotReply_header samples hcause
  have hlong : ¬ payload.length < 8 := by
    rw [← h, Tlv.encode_length, hheader]
    simp [Tlv.size, u8Field]
    omega
  have hfields : Tlv.decode payload = some (headerFields (snapshotReply samples cause) ++
      fitting.flatMap sampleFields ++ mark) := by
    rw [← h]
    refine Tlv.decode_encode fun f hf => ?_
    have hshort := Tlv.length_lt_of_sizes hf hsizes
    have hmax : kMaxPayload < 65536 := by decide
    omega
  have hread : readFields {} (headerFields (snapshotReply samples cause) ++
      fitting.flatMap sampleFields) =
        (headed (snapshotReply samples cause)).mapSamples fun _ => { done := fitting } := by
    rw [readFields_append, readFields_header]
    have hsamples := readFields_samples (headed (snapshotReply samples cause)) [] fitting
    exact hsamples
  -- the mark is a message
  have hmarked : ∀ s : DecodeState, ∃ message,
      readFields s mark = (s.mapOut fun o => { o with message := message }) ∨
        readFields s mark = s := by
    intro s
    rcases hmark with rfl | rfl
    · exact ⟨[], .inr rfl⟩
    · exact ⟨ascii "truncated", .inl (by simp [reader, headerReader])⟩
  obtain ⟨message, hend⟩ := hmarked ((headed (snapshotReply samples cause)).mapSamples fun _ =>
    { done := fitting })
  rw [decodeDescriptorResponse, if_neg hlong, hfields, Option.bind_some]
  simp only [readFields_append _ (headerFields _ ++ _) mark, hread]
  rcases hend with hend | hend
  · rw [hend]
    rfl
  · rw [hend]
    rfl

end Reply

end EspNowLink
