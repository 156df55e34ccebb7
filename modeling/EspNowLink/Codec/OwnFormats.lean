import EspNowLink.Codec.FloatTexts
import EspNowLink.Codec.PackedFrames

open Framework

namespace EspNowLink

/-- The responses that a packed codec writes in its own format. -/
def ownType : DescriptorResponseType → Bool
  | .Device | .Capabilities | .Telemetry | .TelemetrySnapshot | .Liveness | .Time | .Settings | .Setting
  | .Ack | .Error => true
  | _ => false

/-- A sample comes back as itself, its value as a text for the same value. -/
structure SameSample (s t : TelemetrySample) : Prop where
  metric_id : t.metric_id = s.metric_id
  key : t.key = s.key
  unit : t.unit = s.unit
  value : Denotes s.value t.value

/-- What a response says: type, message, page metadata, and the body of its type. -/
structure SameResponse (r d : DescriptorResponse) : Prop where
  type : d.type = r.type
  message : d.message = r.message
  page : d.toPageMeta = if r.is_paged then r.toPageMeta else {}
  device : r.type = .Device → d.device = r.device
  capabilities : r.type = .Capabilities → d.capabilities = r.capabilities
  telemetry : r.type = .Telemetry → d.telemetry = r.telemetry
  telemetry_samples : r.type = .TelemetrySnapshot →
    List.Forall₂ SameSample r.telemetry_samples d.telemetry_samples
  liveness : r.type = .Liveness → d.liveness = r.liveness
  time : r.type = .Time → d.time = r.time
  settings : r.type = .Settings → d.settings = r.settings
  setting : r.type = .Setting → d.setting = r.setting

theorem Denotes.refl (text : Bytes) : Denotes text text := by
  refine ⟨?_, fun _ => rfl⟩
  intro q hq
  refine ⟨q, hq, ?_⟩
  have hnonneg : 0 ≤ max (|q| / 2 ^ 24) (1 / 2 ^ 150) := le_max_of_le_right (by positivity)
  rw [sub_self, abs_zero, formatPrecision]
  linarith

section Arrival

/-- What a response says after its transfer, with the samples that arrived. -/
def arrivedResponse (r : DescriptorResponse) (samples : List TelemetrySample) : DescriptorResponse :=
  let head := headResponse r (!r.message.isEmpty)
  match r.type with
  | .Device => { head with device := r.device }
  | .Capabilities => { head with capabilities := r.capabilities }
  | .Telemetry => { head with telemetry := r.telemetry }
  | .TelemetrySnapshot => { head with telemetry_samples := samples }
  | .Liveness => { head with liveness := r.liveness }
  | .Time => { head with time := r.time }
  | .Settings => { head with settings := r.settings }
  | .Setting => { head with setting := r.setting }
  | _ => head

theorem headResponse_message (r : DescriptorResponse) :
    (headResponse r (!r.message.isEmpty)).message = r.message := by
  cases hmessage : r.message <;> simp [headResponse, hmessage]

/-- All of it is the same; what there is to show is about the samples. -/
theorem sameResponse_iff (r : DescriptorResponse) (samples : List TelemetrySample) :
    SameResponse r (arrivedResponse r samples) ↔
      (r.type = .TelemetrySnapshot → List.Forall₂ SameSample r.telemetry_samples samples) := by
  have hmessage := headResponse_message r
  constructor
  · intro h htype
    have hsamples := h.telemetry_samples htype
    rw [arrivedResponse, htype] at hsamples
    exact hsamples
  · intro h
    constructor <;> unfold arrivedResponse <;> dsimp only
    case type => cases hr : r.type <;> exact hr
    case message => cases r.type <;> exact hmessage
    case page => cases r.type <;> rfl
    case telemetry_samples =>
      intro htype
      rw [htype]
      exact h htype
    all_goals
      intro htype
      rw [htype]

variable {w : Words} {putSamples : List TelemetrySample → Option Bytes}
  {getSamples : Bytes → Option (List TelemetrySample × Bytes)} {r : DescriptorResponse}

/-- The time field carries the epochs of 32 bits. -/
theorem getTime_putTime {t : TimeStatus} {bs : Bytes} (hepoch : t.epoch_s.toNat < 2 ^ 32)
    (h : w.putTime t = some bs) : w.getTime bs = some (t, []) := by
  have hget := (w.u32.seq w.u32).get_put h []
  have hback : t.epoch_s.toUInt32.toUInt64 = t.epoch_s := by
    apply UInt64.toNat_inj.mp
    rw [UInt32.toNat_toUInt64, UInt64.toNat_toUInt32, Nat.mod_eq_of_lt hepoch]
  rw [List.append_nil] at hget
  rw [Words.getTime, hget, Option.map_some, hback]

theorem get_put_all {α : Type} (f : Format α) {x : α} {bs : Bytes} (h : f.put x = some bs) :
    f.get bs = some (x, []) := by
  have hget := f.get_put h []
  rwa [List.append_nil] at hget

/-- The body that was written is read back whole. -/
theorem readBody_responseBody {samples : List TelemetrySample} {bs : Bytes} (hown : ownType r.type = true)
    (hepoch : r.type = .Time → r.time.epoch_s.toNat < 2 ^ 32)
    (hsamples : ∀ cs, putSamples r.telemetry_samples = some cs → getSamples cs = some (samples, []))
    (hbody : joined (responseBody w putSamples r) = some bs) :
    readBody w getSamples (headResponse r (!r.message.isEmpty)) bs = some (arrivedResponse r samples, []) := by
  obtain ⟨page, log, type, message⟩ := r
  cases type
  case Device =>
    have hget := get_put_all w.device (joined_single hbody)
    simp only [readBody, arrivedResponse, headResponse, hget, Option.map_some]
  case Capabilities =>
    have hget := get_put_all (w.many w.capability) (joined_single hbody)
    simp only [readBody, arrivedResponse, headResponse, hget, Option.map_some]
  case Telemetry =>
    have hget := get_put_all (w.many w.metric) (joined_single hbody)
    simp only [readBody, arrivedResponse, headResponse, hget, Option.map_some]
  case TelemetrySnapshot =>
    have hget := hsamples bs (joined_single hbody)
    simp only [readBody, arrivedResponse, headResponse, hget, Option.map_some]
  case Liveness =>
    have hget := get_put_all w.liveness (joined_single hbody)
    simp only [readBody, arrivedResponse, headResponse, hget, Option.map_some]
  case Time =>
    have hget := getTime_putTime (hepoch rfl) (joined_single hbody)
    simp only [readBody, arrivedResponse, headResponse, hget, Option.map_some]
  case Settings =>
    have hget := get_put_all (w.many w.setting) (joined_single hbody)
    simp only [readBody, arrivedResponse, headResponse, hget, Option.map_some]
  case Setting =>
    have hget := get_put_all w.setting (joined_single hbody)
    simp only [readBody, arrivedResponse, headResponse, hget, Option.map_some]
  case Ack | Error =>
    cases hbody
    rfl
  all_goals cases hown

/-- A response in a codec's own format arrives, whatever becomes of its samples. -/
theorem packed_arrives {magic : UInt8} {size : Format Nat} {samples : List TelemetrySample} {p : Bytes}
    (hown : ownType r.type = true) (hepoch : r.type = .Time → r.time.epoch_s.toNat < 2 ^ 32)
    (hsamples : ∀ cs, putSamples r.telemetry_samples = some cs → getSamples cs = some (samples, []))
    (hp : (packedProfileCodec w size magic putSamples getSamples).encodeDescriptorResponse r = some p) :
    (packedProfileCodec w size magic putSamples getSamples).decodeDescriptorResponse p =
      some (arrivedResponse r samples) := by
  have hleaves : leavesResponse r.type = false := by
    cases hr : r.type <;> rw [hr] at hown <;> first | rfl | cases hown
  obtain ⟨bs, hbody, hdecode⟩ := packed_decode_body hleaves hp
  rw [hdecode, readBody_responseBody hown hepoch hsamples hbody]
  rfl

end Arrival

section DeltaSamples

variable (floats : FloatText)

/-- A sample as the Delta Binary codec gives it back. -/
def arrivedSample (s : TelemetrySample) : TelemetrySample :=
  { s with value := ((floats.tryParseFloat s.value).map floats.print).getD s.value }

theorem getDeltaSample_put {s : TelemetrySample} {bs : Bytes} (h : putDeltaSample floats s = some bs)
    (rest : Bytes) : getDeltaSample floats (bs ++ rest) = some (arrivedSample floats s, rest) := by
  obtain ⟨head, hhead, htail⟩ := Option.bind_eq_some_iff.mp h
  unfold arrivedSample
  cases hparse : floats.tryParseFloat s.value with
  | some v =>
    rw [hparse] at htail
    obtain ⟨tail, hput, rfl⟩ := Option.map_eq_some_iff.mp htail
    obtain rfl : 1 :: le32 v = tail := Option.some.inj hput
    have hbits : u32Format.get (le32 v ++ rest) = some (v, rest) := u32Format.get_put rfl rest
    rw [getDeltaSample, List.append_assoc,
      (u16Format.seq (deltaWords.text.seq deltaWords.text)).get_put hhead]
    simp [Format.byte, hbits]
  | none =>
    rw [hparse] at htail
    obtain ⟨tail, hput, rfl⟩ := Option.map_eq_some_iff.mp htail
    obtain ⟨text, htext, rfl⟩ : ∃ text, deltaWords.text.put s.value = some text ∧ [0] ++ text = tail :=
      Option.map_eq_some_iff.mp hput
    have hvalue : deltaWords.text.get (text ++ rest) = some (s.value, rest) := deltaWords.text.get_put htext rest
    rw [getDeltaSample, List.append_assoc,
      (u16Format.seq (deltaWords.text.seq deltaWords.text)).get_put hhead]
    simp [Format.byte, hvalue]

theorem getDeltaSamplesFrom_put {samples : List TelemetrySample} {items : List Bytes}
    (h : samples.mapM (putDeltaSample floats) = some items) (rest : Bytes) :
    getDeltaSamplesFrom floats samples.length (items.flatten ++ rest) =
      some (samples.map (arrivedSample floats), rest) := by
  induction samples generalizing items with
  | nil =>
    obtain rfl : [] = items := by simpa using h
    rfl
  | cons s samples ih =>
    rw [List.mapM_cons] at h
    obtain ⟨item, hitem, hrest⟩ := Option.bind_eq_some_iff.mp h
    obtain ⟨items', hitems, hcons⟩ := Option.bind_eq_some_iff.mp hrest
    obtain rfl : item :: items' = items := Option.some.inj hcons
    rw [List.length_cons, getDeltaSamplesFrom, List.flatten_cons, List.append_assoc,
      getDeltaSample_put floats hitem]
    simp only [Option.bind_eq_bind, Option.bind_some, ih hitems, List.map_cons]

/-- The samples come back in order, each as it arrives. -/
theorem getDeltaSamples_put {samples : List TelemetrySample} {bs : Bytes}
    (h : putDeltaSamples floats samples = some bs) :
    getDeltaSamples floats bs = some (samples.map (arrivedSample floats), []) := by
  obtain ⟨head, hhead, htail⟩ := Option.bind_eq_some_iff.mp h
  obtain ⟨items, hitems, rfl⟩ := Option.map_eq_some_iff.mp htail
  have hfrom := getDeltaSamplesFrom_put floats hitems []
  rw [List.append_nil] at hfrom
  rw [getDeltaSamples, count8.get_put hhead, Option.bind_some]
  exact hfrom

end DeltaSamples

/-- A sample arrives as the same exactly when its value does not read as a float, or prints back. -/
theorem sameSample_arrived_iff (s : TelemetrySample) : SameSample s (arrivedSample libraryFloats s) ↔
    (tryParseFloat s.value = none ∨ PrintsBack s.value) := by
  have hvalue : SameSample s (arrivedSample libraryFloats s) ↔
      Denotes s.value (arrivedSample libraryFloats s).value :=
    ⟨fun h => h.value, fun h => ⟨rfl, rfl, rfl, h⟩⟩
  have harrived : (arrivedSample libraryFloats s).value =
      ((tryParseFloat s.value).map printFloat).getD s.value := rfl
  rw [hvalue, harrived]
  cases hparse : tryParseFloat s.value with
  | none =>
    constructor
    · intro _
      exact Or.inl rfl
    · intro _
      exact Denotes.refl s.value
  | some x =>
    have hprint := denotes_print_iff hparse
    constructor
    · intro h
      exact Or.inr (hprint.mp h)
    · rintro (hnone | hback)
      · cases hnone
      · exact hprint.mpr hback

theorem forall₂_arrived_iff (samples : List TelemetrySample) :
    List.Forall₂ SameSample samples (samples.map (arrivedSample libraryFloats)) ↔
      ∀ s ∈ samples, tryParseFloat s.value = none ∨ PrintsBack s.value := by
  rw [List.forall₂_map_right_iff, List.forall₂_same]
  simp only [sameSample_arrived_iff]

theorem sameSample_refl (samples : List TelemetrySample) : List.Forall₂ SameSample samples samples :=
  List.forall₂_same.mpr fun s _ => ⟨rfl, rfl, rfl, Denotes.refl s.value⟩

/-- Whatever the Varint TLV or the Delta Binary codec accepts in its own format comes back the same, the
values of a Delta Binary snapshot apart: those that read as a float have to print back. -/
theorem own_response_returns_iff (id : CodecId) (hid : id = .VarintTlv ∨ id = .DeltaBinary)
    (r : DescriptorResponse) (hown : ownType r.type = true)
    (hepoch : r.type = .Time → r.time.epoch_s.toNat < 2 ^ 32) (p : Bytes)
    (hp : (id.find libraryFloats).encodeDescriptorResponse r = some p) :
    (∃ d, (id.find libraryFloats).decodeDescriptorResponse p = some d ∧ SameResponse r d) ↔
      (id = .DeltaBinary → r.type = .TelemetrySnapshot →
        ∀ s ∈ r.telemetry_samples, tryParseFloat s.value = none ∨ PrintsBack s.value) := by
  rcases hid with rfl | rfl
  · have harrives := packed_arrives hown hepoch
      (fun cs hcs => get_put_all (varintWords.many varintWords.sample) hcs) hp
    constructor
    · intro _ hdelta
      cases hdelta
    · intro _
      refine ⟨_, harrives, ?_⟩
      rw [sameResponse_iff]
      intro _
      exact sameSample_refl _
  · have harrives := packed_arrives hown hepoch (fun cs => getDeltaSamples_put libraryFloats) hp
    have hsame := sameResponse_iff r (r.telemetry_samples.map (arrivedSample libraryFloats))
    rw [forall₂_arrived_iff] at hsame
    constructor
    · rintro ⟨d, hd, h⟩ _
      rw [← Option.some.inj (harrives.symm.trans hd)] at h
      exact hsame.mp h
    · intro h
      exact ⟨_, harrives, hsame.mpr (h rfl)⟩

/-- A snapshot with one sample. -/
def sampleSnapshot (value : String) : DescriptorResponse :=
  { type := .TelemetrySnapshot
    telemetry_samples := [⟨7, ascii "temp", ascii value, ascii "C"⟩] }

def sampleFrame (value : String) : Bytes :=
  ((deltaBinaryProfileCodec libraryFloats).encodeDescriptorResponse (sampleSnapshot value)).getD []

theorem printsBack_measured : PrintsBack (ascii "-21.5") := by
  have hparse : tryParseFloat (ascii "-21.5") = some 0xC1AC0000 := by decide +kernel
  have hvalue : decimalValue (ascii "-21.5") ≠ none := by decide +kernel
  have hrange : -10 ^ 22 < floatValue 0xC1AC0000 ∧ floatValue 0xC1AC0000 < 10 ^ 23 := by decide +kernel
  exact Or.inr ⟨hvalue, _, hparse, by decide +kernel, hrange⟩

theorem measured_sample_returns : ∃ d,
    (CodecId.DeltaBinary.find libraryFloats).decodeDescriptorResponse (sampleFrame "-21.5") = some d ∧
      SameResponse (sampleSnapshot "-21.5") d :=
  (own_response_returns_iff .DeltaBinary (Or.inr rfl) (sampleSnapshot "-21.5") rfl
    (fun h => by cases h) (sampleFrame "-21.5") (by decide +kernel)).mpr fun _ _ s hs => by
      rw [List.mem_singleton.mp hs]
      exact Or.inr printsBack_measured

/-- An empty value comes back as `0.000`. -/
theorem empty_value_becomes_zero :
    (CodecId.DeltaBinary.find libraryFloats).encodeDescriptorResponse (sampleSnapshot "") =
        some (sampleFrame "") ∧
      ((CodecId.DeltaBinary.find libraryFloats).decodeDescriptorResponse (sampleFrame "")).map
        (fun d => d.telemetry_samples.map TelemetrySample.value) = some [ascii "0.000"] ∧
      ¬ ∃ d, (CodecId.DeltaBinary.find libraryFloats).decodeDescriptorResponse (sampleFrame "") = some d ∧
        SameResponse (sampleSnapshot "") d := by
  have hzero : ((CodecId.DeltaBinary.find libraryFloats).decodeDescriptorResponse (sampleFrame "")).map
      (fun d => d.telemetry_samples.map TelemetrySample.value) = some [ascii "0.000"] := by decide +kernel
  refine ⟨by decide +kernel, hzero, ?_⟩
  rintro ⟨d, hd, hsame⟩
  rw [hd, Option.map_some] at hzero
  obtain ⟨t, rest, hfirst, -, hsamples⟩ := List.forall₂_cons_left_iff.mp (hsame.telemetry_samples rfl)
  have hvalue := hfirst.value.other (by decide +kernel)
  have hprinted := Option.some.inj hzero
  rw [hsamples, List.map_cons, hvalue] at hprinted
  exact absurd (List.cons.inj hprinted).1 (by decide)

end EspNowLink
