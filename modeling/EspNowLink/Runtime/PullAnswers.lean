import EspNowLink.Runtime.SlaveControlPlane

open Framework

namespace EspNowLink

/-- What the peer reads from a chunk tells it to wait for another one. -/
def PullAnswer.unfinished (codec : ProfileCodec) : PullAnswer → Bool
  | chunk payload => (codec.decodeDescriptorResponse payload).any fun d => d.is_paged && !d.done
  | response _ | controlResult _ => false

/-- One terminal answer, which is the last one; before it there are unfinished chunks only. -/
def AnsweredOnce (codec : ProfileCodec) (answers : List PullAnswer) : Prop :=
  ∃ chunks last, answers = chunks ++ [last] ∧ (∀ a ∈ chunks, a.unfinished codec = true) ∧
    last.unfinished codec = false

section Counting

variable {codec : ProfileCodec} {a b : PullAnswer} {answers : List PullAnswer}

theorem answeredOnce_single : AnsweredOnce codec [a] ↔ a.unfinished codec = false := by
  constructor
  · rintro ⟨chunks, last, h, -, hlast⟩
    cases chunks with
    | nil =>
      cases h
      exact hlast
    | cons c cs => simp at h
  · intro ha
    exact ⟨[], a, rfl, by simp, ha⟩

theorem answeredOnce_cons (ha : a.unfinished codec = true) :
    AnsweredOnce codec (a :: answers) ↔ AnsweredOnce codec answers := by
  constructor
  · rintro ⟨chunks, last, h, hchunks, hlast⟩
    cases chunks with
    | nil =>
      cases h
      rw [ha] at hlast
      cases hlast
    | cons c cs =>
      cases h
      exact ⟨cs, last, rfl, fun a h => hchunks a (by simp [h]), hlast⟩
  · rintro ⟨chunks, last, rfl, hchunks, hlast⟩
    refine ⟨a :: chunks, last, rfl, fun c hc => ?_, hlast⟩
    rcases List.mem_cons.mp hc with rfl | hc
    · exact ha
    · exact hchunks c hc

/-- A terminal answer is not followed by another answer. -/
theorem not_answeredOnce_cons (ha : a.unfinished codec = false) :
    ¬ AnsweredOnce codec (a :: b :: answers) := by
  rintro ⟨chunks, last, h, hchunks, -⟩
  cases chunks with
  | nil => simp at h
  | cons c cs =>
    obtain ⟨rfl, -⟩ := List.cons.inj h
    have hc := hchunks a (by simp)
    rw [ha] at hc
    cases hc

/-- Two terminal answers at the end are one too many. -/
theorem not_answeredOnce_twice (ha : a.unfinished codec = false) (c : PullAnswer) :
    ¬ AnsweredOnce codec (c :: a :: b :: answers) := by
  cases hc : c.unfinished codec with
  | false => exact not_answeredOnce_cons hc
  | true =>
    rw [answeredOnce_cons hc]
    exact not_answeredOnce_cons ha

end Counting

section BundlePages

/-- The two responses are the same page of settings. -/
structure SamePage (r r' : DescriptorResponse) : Prop where
  type : r.type = r'.type
  mask : r.bundle_mask = r'.bundle_mask
  page : r.toPageMeta = r'.toPageMeta
  settings : r.settings = r'.settings

theorem SamePage.rfl {r : DescriptorResponse} : SamePage r r := ⟨Eq.refl _, Eq.refl _, Eq.refl _, Eq.refl _⟩

theorem SamePage.trans {r r' r'' : DescriptorResponse} (h : SamePage r r') (h' : SamePage r' r'') :
    SamePage r r'' :=
  ⟨h.type.trans h'.type, h.mask.trans h'.mask, h.page.trans h'.page, h.settings.trans h'.settings⟩

variable {wanted found : Bool} {fill : DescriptorResponse → DescriptorResponse} {issue : String}
variable {x : DescriptorResponse × Bool}

theorem takePart_samePage (hfill : ∀ r, SamePage (fill r) r) :
    SamePage (takePart wanted found fill issue x).1 x.1 := by
  cases wanted with
  | false => exact SamePage.rfl
  | true =>
    cases found with
    | true => exact hfill x.1
    | false =>
      have hissue : SamePage (withIssue (fill x.1) issue) (fill x.1) :=
        ⟨Eq.refl _, Eq.refl _, Eq.refl _, Eq.refl _⟩
      exact hissue.trans (hfill x.1)

theorem takePart_keeps (hx : x.2 = true) : (takePart wanted found fill issue x).2 = true := by
  cases wanted with
  | false => exact hx
  | true =>
    cases found with
    | true => exact Eq.refl true
    | false => exact hx

/-- The parts of a bundle before its settings. -/
def bundleHead (query : DescriptorQuery) (parts : BundleParts) : DescriptorResponse × Bool :=
  let mask := effectiveMask query.bundle_mask
  let x := takePart (wants mask kNodeBundleMaskDevice) parts.device.1
    (fun r => { r with device := parts.device.2 }) "device unavailable"
    ({ type := .NodeBundle, bundle_mask := mask }, false)
  let x := takePart (wants mask kNodeBundleMaskLiveness) parts.liveness.1
    (fun r => { r with liveness := parts.liveness.2 }) "liveness unavailable" x
  takePart (wants mask kNodeBundleMaskTime) parts.time.1
    (fun r => { r with time := parts.time.2 }) "time unavailable" x

theorem slicePage_length_le {α : Type} (list : List α) (start last : Nat) :
    (slicePage list start last).length ≤ last - start := by
  rw [slicePage, List.length_take, List.length_drop]
  omega

variable (query : DescriptorQuery) (parts : BundleParts)

theorem bundleHead_samePage : SamePage (bundleHead query parts).1
    { type := .NodeBundle, bundle_mask := effectiveMask query.bundle_mask } := by
  have hdevice : ∀ r : DescriptorResponse, SamePage { r with device := parts.device.2 } r :=
    fun r => ⟨Eq.refl _, Eq.refl _, Eq.refl _, Eq.refl _⟩
  have hliveness : ∀ r : DescriptorResponse, SamePage { r with liveness := parts.liveness.2 } r :=
    fun r => ⟨Eq.refl _, Eq.refl _, Eq.refl _, Eq.refl _⟩
  have htime : ∀ r : DescriptorResponse, SamePage { r with time := parts.time.2 } r :=
    fun r => ⟨Eq.refl _, Eq.refl _, Eq.refl _, Eq.refl _⟩
  exact (takePart_samePage htime).trans ((takePart_samePage hliveness).trans (takePart_samePage hdevice))

/-- The settings are added to the other parts, then the samples. -/
def bundleSettled : DescriptorResponse × Bool :=
  let mask := effectiveMask query.bundle_mask
  takePart (wants mask kNodeBundleMaskTelemetry) parts.samples.isSome
    (fun r => { r with telemetry_samples := parts.samples.getD [] }) "telemetry unavailable"
    (takePart (wants mask kNodeBundleMaskSettings) (!parts.settings.isEmpty)
      (bundlePage query parts.settings) "settings unavailable" (bundleHead query parts))

theorem nodeBundle_eq : nodeBundle query parts =
    if (bundleSettled query parts).2 then (bundleSettled query parts).1
    else { (bundleSettled query parts).1 with
      type := .Error
      message := if (bundleSettled query parts).1.message.isEmpty then ascii "bundle unavailable"
        else (bundleSettled query parts).1.message } := rfl

theorem samples_samePage (r : DescriptorResponse) :
    SamePage { r with telemetry_samples := parts.samples.getD [] } r :=
  ⟨Eq.refl _, Eq.refl _, Eq.refl _, Eq.refl _⟩

/-- Without settings, or without paging, a bundle is one response. -/
theorem nodeBundle_unpaged (h : wants (effectiveMask query.bundle_mask) kNodeBundleMaskSettings = false ∨
    parts.settings = [] ∨ effectivePageSize query = 0) : (nodeBundle query parts).is_paged = false := by
  have hhead : (bundleHead query parts).1.is_paged = false :=
    congrArg PageMeta.is_paged (bundleHead_samePage query parts).page
  have hpage : (takePart (wants (effectiveMask query.bundle_mask) kNodeBundleMaskSettings)
      (!parts.settings.isEmpty) (bundlePage query parts.settings) "settings unavailable"
      (bundleHead query parts)).1.is_paged = false := by
    rcases h with hwants | hnone | hsize
    · rw [hwants]
      exact hhead
    · rw [hnone]
      cases wants (effectiveMask query.bundle_mask) kNodeBundleMaskSettings with
      | false => exact hhead
      | true => exact hhead
    · have hfill : ∀ r : DescriptorResponse, (bundlePage query parts.settings r).is_paged = r.is_paged := by
        intro r
        simp only [bundlePage, hsize, if_true]
        split <;> exact Eq.refl _
      cases wants (effectiveMask query.bundle_mask) kNodeBundleMaskSettings with
      | false => exact hhead
      | true =>
        cases parts.settings.isEmpty with
        | false => exact (hfill _).trans hhead
        | true => exact (hfill _).trans hhead
  have hsettled : (bundleSettled query parts).1.is_paged = false :=
    (congrArg PageMeta.is_paged (takePart_samePage (samples_samePage parts)).page).trans hpage
  rw [nodeBundle_eq]
  split
  · exact hsettled
  · exact hsettled

/-- A page of a bundle, from the cursor of the query on. -/
theorem nodeBundle_paged (hwants : wants (effectiveMask query.bundle_mask) kNodeBundleMaskSettings = true)
    (hsome : parts.settings ≠ []) (hsize : effectivePageSize query ≠ 0) :
    ∃ snapshot_id, (nodeBundle query parts).type = .NodeBundle ∧
      (nodeBundle query parts).toPageMeta = finalizePageMeta query parts.settings.length
        (min parts.settings.length (min query.cursor.toNat parts.settings.length + effectivePageSize query) -
          min query.cursor.toNat parts.settings.length) snapshot_id ∧
      (nodeBundle query parts).settings.length ≤
        min parts.settings.length (min query.cursor.toNat parts.settings.length + effectivePageSize query) -
          min query.cursor.toNat parts.settings.length := by
  have hempty : parts.settings.isEmpty = false := by simpa using hsome
  let head := bundleHead query parts
  have htake : takePart (wants (effectiveMask query.bundle_mask) kNodeBundleMaskSettings)
      (!parts.settings.isEmpty) (bundlePage query parts.settings) "settings unavailable" head =
        (bundlePage query parts.settings head.1, true) := by
    rw [hwants, hempty]
    rfl
  have hsame : SamePage (bundleSettled query parts).1
      (takePart (wants (effectiveMask query.bundle_mask) kNodeBundleMaskSettings)
        (!parts.settings.isEmpty) (bundlePage query parts.settings) "settings unavailable" head).1 :=
    takePart_samePage (samples_samePage parts)
  rw [htake] at hsame
  have hany : (bundleSettled query parts).2 = true := by
    refine takePart_keeps ?_
    exact congrArg Prod.snd htake
  have heq : nodeBundle query parts = (bundleSettled query parts).1 := by
    rw [nodeBundle_eq, if_pos hany]
  have hpage : bundlePage query parts.settings head.1 =
      { head.1 with
        settings := (slicePage parts.settings (min query.cursor.toNat parts.settings.length)
          (min parts.settings.length
            (min query.cursor.toNat parts.settings.length + effectivePageSize query))).map
              DeviceListKind.Settings.clip
        toPageMeta := finalizePageMeta query parts.settings.length
          (min parts.settings.length
            (min query.cursor.toNat parts.settings.length + effectivePageSize query) -
              min query.cursor.toNat parts.settings.length)
          (DeviceListKind.Settings.snapshot parts.settings head.1.message) } := by
    simp only [bundlePage, hempty, if_neg hsize]
    rfl
  refine ⟨DeviceListKind.Settings.snapshot parts.settings head.1.message, ?_, ?_, ?_⟩
  · rw [heq, hsame.type, hpage]
    exact (bundleHead_samePage query parts).type
  · rw [heq, hsame.page, hpage]
  · rw [heq, hsame.settings, hpage]
    exact le_trans (Nat.le_of_eq (List.length_map _)) (slicePage_length_le parts.settings _ _)

end BundlePages

section Wire

variable {floats : FloatText} {id : CodecId} {r : DescriptorResponse} {p : Bytes}

/-- The default encoding of a paged response begins with no magic byte. -/
theorem paged_head {e : EncodedResponse} (hpaged : r.is_paged = true) (he : encodeDescriptorResponse r = some e) :
    ∃ rest, e.payload = 0x01 :: rest := by
  obtain ⟨s, hs, hroom, hpayload, -⟩ := encode_paged hpaged he
  obtain ⟨r', hbody⟩ := encodeBody_spec (by rwa [hpaged]) hs
  rw [hpayload, hbody.out_eq]
  exact ⟨_, rfl⟩

/-- Under every codec a bundle goes in its default encoding, and that is what is decoded. -/
theorem bundle_decoded (htype : r.type = .NodeBundle) (hpaged : r.is_paged = true)
    (hp : (id.find floats).encodeDescriptorResponse r = some p) :
    ∃ e, encodeDescriptorResponse r = some e ∧
      (id.find floats).decodeDescriptorResponse p = decodeDescriptorResponse e.payload := by
  have hleaves : leavesResponse r.type = true := by rw [htype]; rfl
  have hwrapped : ∀ magic, (wrappedProfileCodec magic).encodeDescriptorResponse r = some p →
      ∃ e, encodeDescriptorResponse r = some e ∧
        (wrappedProfileCodec magic).decodeDescriptorResponse p = decodeDescriptorResponse e.payload := by
    intro magic hwrap
    obtain ⟨inner, hinner, hwrap⟩ := Option.bind_eq_some_iff.mp hwrap
    obtain ⟨e, he, rfl⟩ := Option.map_eq_some_iff.mp hinner
    refine ⟨e, he, ?_⟩
    simp only [wrappedProfileCodec, unwrap_wrap hwrap]
  have hpacked : ∀ {w : Words} {size : Format Nat} {magic : UInt8}
      {putSamples : List TelemetrySample → Option Bytes}
      {getSamples : Bytes → Option (List TelemetrySample × Bytes)}, magic ≠ 0x01 →
      (packedProfileCodec w size magic putSamples getSamples).encodeDescriptorResponse r = some p →
      ∃ e, encodeDescriptorResponse r = some e ∧
        (packedProfileCodec w size magic putSamples getSamples).decodeDescriptorResponse p =
          decodeDescriptorResponse e.payload := by
    intro w size magic putSamples getSamples hmagic hpack
    simp only [packedProfileCodec, hleaves, if_true] at hpack
    obtain ⟨e, he, rfl⟩ := Option.map_eq_some_iff.mp hpack
    obtain ⟨rest, hrest⟩ := paged_head hpaged he
    refine ⟨e, he, ?_⟩
    rw [hrest]
    simp only [packedProfileCodec, unwrap_of_ne (Ne.symm hmagic)]
  cases id with
  | Default =>
    obtain ⟨e, he, rfl⟩ := Option.map_eq_some_iff.mp hp
    exact ⟨e, he, rfl⟩
  | CompactIndexed =>
    have hleft : encodeResponsePayload r = some p := by
      simpa [CodecId.find, compactIndexedProfileCodec, hleaves] using hp
    obtain ⟨e, he, rfl⟩ := Option.map_eq_some_iff.mp hleft
    exact ⟨e, he, compact_decode_left he hpaged⟩
  | PackedTlv => exact hwrapped _ hp
  | VarintTlv => exact hpacked (by decide) hp
  | DeltaBinary => exact hpacked (by decide) hp
  | CborLite => exact hwrapped _ hp
  | BinaryMap => exact hwrapped _ hp

/-- The peer waits for another chunk exactly when the metadata that goes out with the settings that fit
does not say that it is the last one. -/
theorem chunk_unfinished (htype : r.type = .NodeBundle) (hpaged : r.is_paged = true)
    (hp : (id.find floats).encodeDescriptorResponse r = some p) :
    (PullAnswer.chunk p).unfinished (id.find floats) = !(sentPage r (keptSettings r).length).done := by
  obtain ⟨e, he, hdecode⟩ := bundle_decoded htype hpaged hp
  obtain ⟨d, hd, -, -, -, hpage⟩ := decode_bundle htype hpaged he
  have hstill : (sentPage r (keptSettings r).length).is_paged = true := by
    rw [sentPage_left (by rw [htype]; rfl), patchPageMeta]
    split <;> exact hpaged
  have hdpaged : d.is_paged = true := (congrArg PageMeta.is_paged hpage).trans hstill
  have hddone : d.done = (sentPage r (keptSettings r).length).done := congrArg PageMeta.done hpage
  rw [PullAnswer.unfinished, hdecode, hd, Option.any_some, hdpaged, hddone, Bool.true_and]

/-- The errors that the control plane itself makes up. -/
def planeErrors : List String :=
  ["bundle paging limit exceeded", "bundle paging stalled", "unsupported pull payload"]

def errorResponse (message : String) : DescriptorResponse := { type := .Error, message := ascii message }

variable (floats id) in
/-- Every codec has room for them. -/
theorem planeErrors_encode {message : String} (h : message ∈ planeErrors) :
    ∃ p, (id.find floats).encodeDescriptorResponse (errorResponse message) = some p := by
  have hfloats : (id.find floats).encodeDescriptorResponse (errorResponse message) =
      (id.find noFloats).encodeDescriptorResponse (errorResponse message) := by
    cases id <;> rfl
  have hall : ∀ id ∈ [CodecId.Default, .CompactIndexed, .PackedTlv, .VarintTlv, .DeltaBinary, .CborLite,
      .BinaryMap], ∀ message ∈ planeErrors,
        ((id.find noFloats).encodeDescriptorResponse (errorResponse message)).isSome = true := by
    decide +kernel
  rw [hfloats, ← Option.isSome_iff_exists]
  exact hall id (by cases id <;> simp) message h

end Wire

section PushReplies

/-- What `handleTelemetryPushControl` answers. -/
def pushMessages : List String :=
  ["stream rejected: peer not active master", "stream rejected: owner mismatch", "stream invalid: no metrics",
    "stream invalid: stream interval out of bounds", "stream invalid: stream min_report_gap out of bounds",
    "stream invalid: too many metrics", "stream invalid: unknown metric key",
    "stream invalid: duplicate metric key", "stream invalid: metric interval out of bounds",
    "stream invalid: metric min_report_gap out of bounds", "stream invalid: all metrics disabled",
    "persist_failed", "stream not active", "stream started", "stream updated", "stream paused",
    "stream resumed", "stream stopped", "stream active paused", "stream active", "stream inactive"]

/-- A reply with a short message fits a response. -/
theorem buildDescriptorReply_short {reply : StreamReply} (h : (ascii reply.message).length ≤ 200) :
    ∃ payload, PullManager.buildDescriptorReply reply = some payload := by
  have hempty : Room false [] 0 := by decide
  have hbody : ∀ type : DescriptorResponseType, type = .Ack ∨ type = .Error →
      ∃ response, encodeDescriptorResponse { type := type, message := ascii reply.message } = some response := by
    intro type htype
    have hsizes : Tlv.sizes (headerFields { type := type, message := ascii reply.message }) ≤ 214 := by
      rcases htype with rfl | rfl <;> simp only [headerFields, Tlv.sizes_append] <;> split <;>
        simp [u8Field, utf8Field, Tlv.size] <;> omega
    have hroom : Room false [] (Tlv.sizes (headerFields { type := type, message := ascii reply.message })) :=
      (by decide : Room false [] 214).mono hsizes
    rw [encodeDescriptorResponse, tryAppendAll_eq _ hempty, if_pos hroom]
    rcases htype with rfl | rfl <;> exact ⟨_, rfl⟩
  obtain ⟨response, hresponse⟩ := hbody (if reply.ok then .Ack else .Error) (by cases reply.ok <;> simp)
  exact ⟨response.payload, by rw [PullManager.buildDescriptorReply, hresponse, Option.map_some]⟩

theorem pushMessages_encode {reply : StreamReply} (h : reply.message ∈ pushMessages) :
    ∃ payload, PullManager.buildDescriptorReply reply = some payload := by
  have hshort : ∀ message ∈ pushMessages, (ascii message).length ≤ 200 := by
    decide +kernel
  exact buildDescriptorReply_short (hshort reply.message h)

namespace TelemetryManager

variable {m : TelemetryManager} {config : TelemetryPushConfig} {sender : MacAddress}

theorem configRefusal_message {message : String} (h : configRefusal config = some message) :
    message ∈ pushMessages := by
  unfold configRefusal at h
  (repeat' split at h) <;> cases h <;> simp [pushMessages]

theorem admitMetric_message {metrics : List PushMetricState} {metric : TelemetryPushMetricConfig}
    {message : String} (h : m.admitMetric config metrics metric = .error message) :
    message ∈ pushMessages := by
  unfold admitMetric at h
  split at h
  · cases h
    simp [pushMessages]
  · dsimp only at h
    (repeat' split at h) <;> cases h <;> simp [pushMessages]

theorem admitMetrics_message {todo : List TelemetryPushMetricConfig} {metrics : List PushMetricState}
    {message : String} (h : todo.foldlM (m.admitMetric config) metrics = .error message) :
    message ∈ pushMessages := by
  induction todo generalizing metrics with
  | nil => cases h
  | cons metric todo ih =>
    rw [List.foldlM_cons] at h
    cases hfirst : m.admitMetric config metrics metric with
    | error e =>
      rw [hfirst] at h
      cases h
      exact admitMetric_message hfirst
    | ok next =>
      rw [hfirst] at h
      exact ih h

theorem admitConfig_message {message : String} (h : m.admitConfig sender config = .error message) :
    message ∈ pushMessages := by
  unfold admitConfig at h
  cases hrefusal : configRefusal config with
  | some refusal =>
    rw [hrefusal] at h
    cases h
    exact configRefusal_message hrefusal
  | none =>
    rw [hrefusal] at h
    cases hmetrics : config.metrics.foldlM (m.admitMetric config) [] with
    | error e =>
      simp only [hmetrics] at h
      cases h
      exact admitMetrics_message hmetrics
    | ok metrics =>
      simp only [hmetrics] at h
      change (if metrics.any (·.enabled) then _ else _) = _ at h
      split at h
      · cases h
      · cases h
        simp [pushMessages]

theorem startStream_message {done : String} (hdone : done ∈ pushMessages) :
    (m.startStream sender config done).1.message ∈ pushMessages := by
  unfold startStream
  split
  · rename_i message hadmit
    exact admitConfig_message hadmit
  · split
    · exact hdone
    · simp [pushMessages]

theorem setPaused_message {paused : Bool} {done : String} (hdone : done ∈ pushMessages) :
    (m.setPaused paused done).1.message ∈ pushMessages := by
  unfold setPaused
  split
  · simp [pushMessages]
  · split
    · exact hdone
    · simp [pushMessages]

theorem handlePushCommand_message {cmd : TelemetryPushCommand} {reply : StreamReply}
    (h : (m.handlePushCommand sender cmd).1 = some reply) : reply.message ∈ pushMessages := by
  unfold handlePushCommand at h
  split at h
  · cases h
  · split at h
    · rename_i message hrefusal
      cases h
      unfold senderRefusal at hrefusal
      (repeat' split at hrefusal) <;> cases hrefusal <;> simp [pushMessages]
    · cases haction : cmd.action <;> simp only [haction] at h <;> cases h
      · exact startStream_message (by simp [pushMessages])
      · exact startStream_message (by simp [pushMessages])
      · exact setPaused_message (by simp [pushMessages])
      · exact setPaused_message (by simp [pushMessages])
      · unfold stopStream
        split <;> simp [pushMessages]
      · unfold streamStatus
        (repeat' split) <;> simp [pushMessages]

end TelemetryManager

end PushReplies

section Paging

variable {query : DescriptorQuery} {total p : Nat} {snapshot_id : UInt32}

/-- The metadata of a page of up to `p` items from the cursor on. -/
def pageMeta (query : DescriptorQuery) (total p : Nat) (snapshot_id : UInt32) : PageMeta :=
  finalizePageMeta query total
    (min total (min query.cursor.toNat total + p) - min query.cursor.toNat total) snapshot_id

theorem pageMeta_last (h : total ≤ query.cursor.toNat + p) : (pageMeta query total p snapshot_id).done = true := by
  refine decide_eq_true ?_
  omega

/-- There is more behind the page. -/
structure MoreBehind (query : DescriptorQuery) (total p : Nat) (page : PageMeta) : Prop where
  is_paged : page.is_paged = true
  done : page.done = false
  next_cursor : page.next_cursor = UInt16.ofNat (query.cursor.toNat + p)
  cursor : page.cursor = query.cursor
  total_count : page.total_count = UInt16.ofNat (min total 65535)
  returned_count : page.returned_count = UInt16.ofNat (min p 65535)

theorem pageMeta_more (h : query.cursor.toNat + p < total) :
    MoreBehind query total p (pageMeta query total p snapshot_id) := by
  have hstart : min query.cursor.toNat total = query.cursor.toNat := by omega
  have hreturned : min total (query.cursor.toNat + p) - query.cursor.toNat = p := by omega
  have hnext : min (query.cursor.toNat + p) total = query.cursor.toNat + p := by omega
  refine ⟨rfl, ?_, ?_, ?_, rfl, ?_⟩
  · refine decide_eq_false ?_
    omega
  · simp only [pageMeta, finalizePageMeta, hstart, hreturned, hnext]
  · have hcursor : min query.cursor.toNat 65535 = query.cursor.toNat := by
      have hlt := query.cursor.toNat_lt
      omega
    simp only [pageMeta, finalizePageMeta, hstart, hcursor, UInt16.ofNat_toNat]
  · simp only [pageMeta, finalizePageMeta, hstart, hreturned]

/-- The page of an item list that goes on is not the last one for the peer either, however many of its
items the encoder drops. -/
theorem patched_more {type : DescriptorResponseType} {page : PageMeta} {kept : Nat}
    (h : MoreBehind query total p page) (hmore : query.cursor.toNat + p < total)
    (hshort : query.cursor.toNat + p < 65536) (hkept : kept ≤ p) :
    (patchPageMeta type page (UInt16.ofNat kept)).done = false := by
  unfold patchPageMeta
  split
  · rename_i hpatch
    have hreturned : UInt16.ofNat kept ≠ page.returned_count :=
      of_decide_eq_true (Bool.and_eq_true_iff.mp hpatch).2
    have hless : kept < p := by
      refine Nat.lt_of_le_of_ne hkept fun heq => hreturned ?_
      rw [h.returned_count, heq]
      congr 1
      omega
    have hemitted : (UInt16.ofNat kept).toUInt32.toNat = kept := by
      rw [UInt16.toNat_toUInt32, UInt16.toNat_ofNat']
      omega
    have htotal : page.total_count.toNat = min total 65535 := by
      rw [h.total_count, UInt16.toNat_ofNat']
      omega
    have hsum : (page.cursor.toUInt32 + (UInt16.ofNat kept).toUInt32).toNat = query.cursor.toNat + kept := by
      rw [UInt32.toNat_add, hemitted, UInt16.toNat_toUInt32, h.cursor]
      omega
    have hmin : min (page.cursor.toUInt32 + (UInt16.ofNat kept).toUInt32) page.total_count.toUInt32 =
        page.cursor.toUInt32 + (UInt16.ofNat kept).toUInt32 := by
      refine if_pos (UInt32.le_iff_toNat_le.mpr ?_)
      rw [hsum, UInt16.toNat_toUInt32, htotal]
      omega
    refine decide_eq_false ?_
    rw [hmin, ge_iff_le, UInt16.le_iff_toNat_le, UInt32.toNat_toUInt16, hsum, htotal]
    omega
  · exact h.done

end Paging

section Pages

variable (env : PullSurroundings) (codec : ProfileCodec) (query : DescriptorQuery)

/-- The settings that `handleDescriptorQuery` finds for the k-th chunk. -/
def settingsAt (k : Nat) : List SettingDescriptor := (env.bundleParts k).settings

/-- The place behind the k-th page. -/
def pageEnd (k : Nat) : Nat :=
  (SlaveNode.bundleQuery query).cursor.toNat + (k + 1) * effectivePageSize (SlaveNode.bundleQuery query)

/-- The page that starts at the cursor. -/
def pageFrom (k : Nat) (cursor : UInt16) : DescriptorResponse :=
  nodeBundle (SlaveNode.chunkQuery (SlaveNode.bundleQuery query) (SlaveNode.settingsRequested query) k cursor)
    (env.bundleParts k)

/-- The k-th page, when every page before it is whole. -/
def chunkAt (k : Nat) : DescriptorResponse :=
  pageFrom env query k (UInt16.ofNat ((SlaveNode.bundleQuery query).cursor.toNat +
    k * effectivePageSize (SlaveNode.bundleQuery query)))

/-- After the k-th page the cursor moves on. -/
structure PageGoesOn (k : Nat) : Prop where
  more : pageEnd query k < (settingsAt env k).length
  cursor : pageEnd query k < 65536
  encodes : (codec.encodeDescriptorResponse (chunkAt env query k)).isSome = true

/-- The k-th page ends the bundle: there are no settings, it cannot be encoded, or it is the last page and
goes out as such. -/
def PageSettles (k : Nat) : Prop :=
  settingsAt env k = [] ∨ codec.encodeDescriptorResponse (chunkAt env query k) = none ∨
    (settingsAt env k).length ≤ pageEnd query k ∧
      (sentPage (chunkAt env query k) (keptSettings (chunkAt env query k)).length).done = true

/-- A bundle that goes out page by page. -/
def PagedBundle : Prop :=
  query.type = .GetNodeBundle ∧
    wants (effectiveMask (SlaveNode.bundleQuery query).bundle_mask) kNodeBundleMaskSettings = true ∧
    (SlaveNode.bundleQuery query).paged = true

/-- The bundle ends within the chunks that the control plane sends. -/
def BundleSettles : Prop :=
  ∃ k < kMaxBundleChunks, (∀ j < k, PageGoesOn env codec query j) ∧ PageSettles env codec query k

end Pages

section Chunks

variable {env : PullSurroundings} {request : QueuedPullRequest} {query : DescriptorQuery}

open SlaveNode

theorem bundleQuery_type : (bundleQuery query).type = query.type := by
  unfold bundleQuery
  split <;> rfl

theorem chunk_pageSize (k : Nat) (cursor : UInt16) :
    effectivePageSize (chunkQuery (bundleQuery query) (settingsRequested query) k cursor) =
      effectivePageSize (bundleQuery query) := rfl

theorem pageSize_bounds (h : PagedBundle query) :
    effectivePageSize (bundleQuery query) ≠ 0 ∧ effectivePageSize (bundleQuery query) ≤ 16 := by
  obtain ⟨htype, -, hpaged⟩ := h
  have hsupports : supportsPaging (bundleQuery query).type = true := by
    rw [bundleQuery_type, htype]
    rfl
  unfold effectivePageSize
  rw [if_neg (by simp [hpaged, hsupports])]
  refine ⟨?_, Nat.min_le_right _ _⟩
  split
  · decide
  · rename_i hsize
    have hpos : (bundleQuery query).page_size.toNat ≠ 0 := fun hzero => hsize (UInt8.toNat_inj.mp hzero)
    have hmax : kMaxPage = 16 := rfl
    omega

/-- Every chunk of a bundle that is read page by page wants settings. -/
theorem chunk_wants (h : PagedBundle query) (k : Nat) (cursor : UInt16) :
    wants (effectiveMask (chunkQuery (bundleQuery query) (settingsRequested query) k cursor).bundle_mask)
      kNodeBundleMaskSettings = true := by
  simp only [chunkQuery]
  split
  · rfl
  · exact h.2.1

/-- A page of settings from the cursor on. -/
theorem pageFrom_paged (h : PagedBundle query) {k : Nat} (cursor : UInt16) (hsome : settingsAt env k ≠ []) :
    ∃ snapshot_id, (pageFrom env query k cursor).type = .NodeBundle ∧
      (pageFrom env query k cursor).toPageMeta =
        pageMeta { bundleQuery query with cursor := cursor } (settingsAt env k).length
          (effectivePageSize (bundleQuery query)) snapshot_id ∧
      (cursor.toNat + effectivePageSize (bundleQuery query) < (settingsAt env k).length →
        (keptSettings (pageFrom env query k cursor)).length ≤ effectivePageSize (bundleQuery query)) := by
  obtain ⟨snapshot_id, htype, hpage, hlen⟩ := nodeBundle_paged
    (chunkQuery (bundleQuery query) (settingsRequested query) k cursor) (env.bundleParts k)
    (chunk_wants h k cursor) hsome (by rw [chunk_pageSize]; exact (pageSize_bounds h).1)
  rw [chunk_pageSize] at hpage hlen
  refine ⟨snapshot_id, htype, hpage, fun hmore => ?_⟩
  have hkept : (keptSettings (pageFrom env query k cursor)).length ≤
      (bundleSettings (pageFrom env query k cursor)).length := (fitted_id_isPrefix _ _).length_le
  have hsettings : (bundleSettings (pageFrom env query k cursor)).length ≤
      (pageFrom env query k cursor).settings.length := by
    unfold bundleSettings
    split
    · exact le_refl _
    · exact Nat.zero_le _
  have hslice : (pageFrom env query k cursor).settings.length ≤
      min (settingsAt env k).length (min cursor.toNat (settingsAt env k).length +
        effectivePageSize (bundleQuery query)) - min cursor.toNat (settingsAt env k).length := hlen
  omega

/-- Without settings a chunk is the only one. -/
theorem pageFrom_unpaged (query : DescriptorQuery) {k : Nat} (cursor : UInt16) (hnone : settingsAt env k = []) :
    (pageFrom env query k cursor).is_paged = false :=
  nodeBundle_unpaged _ _ (.inr (.inl hnone))

end Chunks

section Sending

variable {env : PullSurroundings} {request : QueuedPullRequest}

namespace SlaveNode

variable (request) (n : SlaveNode)

theorem sendPullResponse_sent (hsends : ∀ p, env.sends p = true) (a : PullAnswer) :
    (n.sendPullResponse env request a).handled = true ∧ (n.sendPullResponse env request a).answers = [a] := by
  unfold sendPullResponse
  simp [hsends]

/-- A response is sent if the codec has an encoding for it. -/
theorem sendDescriptorResponse_some (hsends : ∀ p, env.sends p = true) {r : DescriptorResponse} {p : Bytes}
    (hp : (n.codec.find env.floats).encodeDescriptorResponse r = some p) :
    (n.sendDescriptorResponse env request r).handled = true ∧
      (n.sendDescriptorResponse env request r).answers = [.ofResponse r p] ∧
      (n.sendDescriptorResponse env request r).node.codec = n.codec := by
  unfold sendDescriptorResponse
  rw [hp]
  obtain ⟨hhandled, hanswers⟩ := sendPullResponse_sent request n hsends (.ofResponse r p)
  exact ⟨hhandled, hanswers, rfl⟩

theorem sendDescriptorResponse_none {r : DescriptorResponse}
    (hp : (n.codec.find env.floats).encodeDescriptorResponse r = none) :
    n.sendDescriptorResponse env request r = ⟨false, [], n⟩ := by
  unfold sendDescriptorResponse
  rw [hp]
  rfl

theorem refuse_answers (hsends : ∀ p, env.sends p = true) {message : String} (h : message ∈ planeErrors) :
    ∃ p, (n.refuse env request message).answers = [.response p] := by
  obtain ⟨p, hp⟩ := planeErrors_encode env.floats n.codec h
  exact ⟨p, (sendDescriptorResponse_some request n hsends hp).2.1⟩

/-- The manager's own error always goes out. -/
theorem fallBack_answers (hsends : ∀ p, env.sends p = true) :
    ∃ p, (n.fallBack env request).answers = [.response p] := by
  have hreply : (PullManager.buildDescriptorReply ⟨false, "pull request unsupported"⟩).isSome = true := by
    decide +kernel
  obtain ⟨p, hp⟩ := Option.isSome_iff_exists.mp hreply
  have hsent : (n.sendDefaultReply env request ⟨false, "pull request unsupported"⟩).answers = [.response p] := by
    rw [sendDefaultReply, hp]
    exact (sendPullResponse_sent request n hsends _).2
  exact ⟨p, hsent⟩

end SlaveNode

open SlaveNode

/-- What a layer sends, and the manager's error if it has not handled the request. -/
def withFallBack (env : PullSurroundings) (request : QueuedPullRequest) (h : Handling) : List PullAnswer :=
  (h.orElse fun n => n.fallBack env request).answers

theorem withFallBack_handled {h : Handling} (hh : h.handled = true) :
    withFallBack env request h = h.answers := by
  rw [withFallBack, Handling.orElse, if_pos hh]

variable (request) in
theorem withFallBack_unhandled (hsends : ∀ p, env.sends p = true) (h : Handling) (hh : h.handled = false) :
    ∃ p, withFallBack env request h = h.answers ++ [.response p] := by
  obtain ⟨p, hp⟩ := fallBack_answers request h.node hsends
  refine ⟨p, ?_⟩
  rw [withFallBack, Handling.orElse, if_neg (by simp [hh]), Handling.andThen, hp]

theorem withFallBack_andThen {h : Handling} {next : SlaveNode → Handling} :
    withFallBack env request (h.andThen next) = h.answers ++ withFallBack env request (next h.node) := by
  cases hnext : (next h.node).handled with
  | true => simp [withFallBack, Handling.orElse, Handling.andThen, hnext]
  | false => simp [withFallBack, Handling.orElse, Handling.andThen, hnext]

/-- One response is an answer, and if it has no encoding the manager's error is. -/
theorem sendEncoded_once (hsends : ∀ p, env.sends p = true) {codec : ProfileCodec} (n : SlaveNode)
    (payload : Option Bytes) {answer : Bytes → PullAnswer} (hanswer : ∀ p, (answer p).unfinished codec = false) :
    AnsweredOnce codec (withFallBack env request (n.sendEncoded env request payload answer)) := by
  cases payload with
  | none =>
    obtain ⟨p, hfall⟩ := withFallBack_unhandled request hsends ⟨false, [], n⟩ rfl
    change AnsweredOnce codec (withFallBack env request ⟨false, [], n⟩)
    rw [hfall]
    exact answeredOnce_single.mpr rfl
  | some p =>
    obtain ⟨hhandled, hanswers⟩ := sendPullResponse_sent request n hsends (answer p)
    change AnsweredOnce codec (withFallBack env request (n.sendPullResponse env request (answer p)))
    rw [withFallBack_handled hhandled, hanswers]
    exact answeredOnce_single.mpr (hanswer p)

/-- So it is with a response that is no page of a bundle. -/
theorem sendDescriptorResponse_once (hsends : ∀ p, env.sends p = true) {codec : ProfileCodec} (n : SlaveNode)
    {r : DescriptorResponse} (hwhole : ¬ (r.type = .NodeBundle ∧ r.is_paged = true)) :
    AnsweredOnce codec (withFallBack env request (n.sendDescriptorResponse env request r)) := by
  refine sendEncoded_once hsends n _ fun p => ?_
  have hanswer : PullAnswer.ofResponse r p = .response p := if_neg hwhole
  rw [hanswer]
  rfl

end Sending

section Loop

variable {env : PullSurroundings} {request : QueuedPullRequest} {query : DescriptorQuery} {id : CodecId}

open SlaveNode

/-- A chunk that ends the loop is the only one that matters. -/
theorem settles_here {codec : ProfileCodec} {idx budget : Nat} (hstop : ¬ PageGoesOn env codec query idx) :
    (∃ k, idx ≤ k ∧ k < idx + (budget + 1) ∧ (∀ j, idx ≤ j → j < k → PageGoesOn env codec query j) ∧
      PageSettles env codec query k) ↔ PageSettles env codec query idx := by
  constructor
  · rintro ⟨k, hle, -, hgoes, hsettles⟩
    rcases Nat.eq_or_lt_of_le hle with rfl | hlt
    · exact hsettles
    · exact absurd (hgoes idx (le_refl _) hlt) hstop
  · intro hsettles
    exact ⟨idx, le_refl _, by omega, fun j hle hlt => by omega, hsettles⟩

/-- Behind a chunk that is not the last one the loop counts on. -/
theorem settles_later {codec : ProfileCodec} {idx budget : Nat} (hgoes : PageGoesOn env codec query idx)
    (hopen : ¬ PageSettles env codec query idx) :
    (∃ k, idx ≤ k ∧ k < idx + (budget + 1) ∧ (∀ j, idx ≤ j → j < k → PageGoesOn env codec query j) ∧
      PageSettles env codec query k) ↔
    ∃ k, idx + 1 ≤ k ∧ k < idx + 1 + budget ∧ (∀ j, idx + 1 ≤ j → j < k → PageGoesOn env codec query j) ∧
      PageSettles env codec query k := by
  constructor
  · rintro ⟨k, hle, hlt, hall, hsettles⟩
    have hne : k ≠ idx := fun h => hopen (h ▸ hsettles)
    exact ⟨k, by omega, by omega, fun j hj => hall j (by omega), hsettles⟩
  · rintro ⟨k, hle, hlt, hall, hsettles⟩
    refine ⟨k, by omega, by omega, fun j hj hjk => ?_, hsettles⟩
    rcases Nat.eq_or_lt_of_le hj with rfl | hj
    · exact hgoes
    · exact hall j hj hjk

section Turns

variable {idx : Nat} {cursor : UInt16} {p : Bytes}

/-- The last page settles the bundle if it goes out as such. -/
theorem lastPage_settles {codec : ProfileCodec} (hat : chunkAt env query idx = pageFrom env query idx cursor)
    (hp : codec.encodeDescriptorResponse (pageFrom env query idx cursor) = some p)
    (hsome : settingsAt env idx ≠ []) (hlast : (settingsAt env idx).length ≤ pageEnd query idx) :
    (sentPage (pageFrom env query idx cursor) (keptSettings (pageFrom env query idx cursor)).length).done = true ↔
      PageSettles env codec query idx := by
  constructor
  · intro hsent
    refine .inr (.inr ⟨hlast, ?_⟩)
    rw [hat]
    exact hsent
  · rintro (hempty | hunsent | ⟨-, hsent⟩)
    · exact absurd hempty hsome
    · rw [hat, hp] at hunsent
      cases hunsent
    · rw [hat] at hsent
      exact hsent

/-- A page with settings behind it settles nothing, once it can be encoded. -/
theorem page_unsettled {codec : ProfileCodec} (hat : chunkAt env query idx = pageFrom env query idx cursor)
    (hp : codec.encodeDescriptorResponse (pageFrom env query idx cursor) = some p)
    (hsome : settingsAt env idx ≠ []) (hmore : pageEnd query idx < (settingsAt env idx).length) :
    ¬ PageSettles env codec query idx := by
  rintro (hempty | hunsent | ⟨hlast, -⟩)
  · exact hsome hempty
  · rw [hat, hp] at hunsent
    cases hunsent
  · omega

theorem sendChunks_succ (query : DescriptorQuery) (budget idx : Nat) (cursor : UInt16) (n : SlaveNode) :
    sendChunks env request (bundleQuery query) (settingsRequested query) (budget + 1) idx cursor n =
      let response := pageFrom env query idx cursor
      let first := n.sendDescriptorResponse env request response
      if !first.handled then first
      else if response.type ≠ .NodeBundle then first
      else if !response.is_paged || response.done then first
      else if response.next_cursor ≤ cursor then
        first.andThen fun n => n.refuse env request "bundle paging stalled"
      else first.andThen (sendChunks env request (bundleQuery query) (settingsRequested query) budget (idx + 1)
        response.next_cursor) := by
  rw [sendChunks]
  rfl

/-- A chunk that cannot be encoded, or has no page behind it, is the last thing the loop does. -/
theorem sendChunks_ends {n : SlaveNode} (budget : Nat)
    (h : (n.sendDescriptorResponse env request (pageFrom env query idx cursor)).handled = false ∨
      (pageFrom env query idx cursor).is_paged = false ∨ (pageFrom env query idx cursor).done = true) :
    sendChunks env request (bundleQuery query) (settingsRequested query) (budget + 1) idx cursor n =
      n.sendDescriptorResponse env request (pageFrom env query idx cursor) := by
  rw [sendChunks_succ]
  dsimp only
  rcases h with hunhandled | hunpaged | hdone
  · rw [hunhandled, Bool.not_false, if_pos rfl]
  · rw [hunpaged, Bool.not_false, Bool.true_or, if_pos rfl, ite_self, ite_self]
  · rw [hdone, Bool.or_true, if_pos rfl, ite_self, ite_self]

/-- A chunk with a page behind it is followed by the next one, if the cursor moves on. -/
theorem sendChunks_goes {n : SlaveNode} (budget : Nat)
    (hhandled : (n.sendDescriptorResponse env request (pageFrom env query idx cursor)).handled = true)
    (htype : (pageFrom env query idx cursor).type = .NodeBundle)
    (his : (pageFrom env query idx cursor).is_paged = true)
    (hdone : (pageFrom env query idx cursor).done = false) :
    sendChunks env request (bundleQuery query) (settingsRequested query) (budget + 1) idx cursor n =
      (n.sendDescriptorResponse env request (pageFrom env query idx cursor)).andThen
        (if (pageFrom env query idx cursor).next_cursor ≤ cursor then
          fun n => n.refuse env request "bundle paging stalled"
        else sendChunks env request (bundleQuery query) (settingsRequested query) budget (idx + 1)
          (pageFrom env query idx cursor).next_cursor) := by
  rw [sendChunks_succ]
  dsimp only
  rw [hhandled, his, hdone, if_neg (by decide), if_neg (by simp [htype]), if_neg (by decide)]
  split <;> rfl

/-- A page with settings behind it: where the next one starts on the 16-bit cursor, for which the peer waits unless it
has wrapped around. -/
theorem behind_page (hpaged : PagedBundle query) (hsome : settingsAt env idx ≠ [])
    (hp : (id.find env.floats).encodeDescriptorResponse (pageFrom env query idx cursor) = some p)
    (hmore : cursor.toNat + effectivePageSize (bundleQuery query) < (settingsAt env idx).length) :
    (pageFrom env query idx cursor).done = false ∧
      (pageFrom env query idx cursor).next_cursor.toNat =
        (cursor.toNat + effectivePageSize (bundleQuery query)) % 65536 ∧
      (cursor.toNat + effectivePageSize (bundleQuery query) < 65536 →
        (PullAnswer.chunk p).unfinished (id.find env.floats) = true) := by
  obtain ⟨snapshot_id, htype, hpage, hkept⟩ := pageFrom_paged hpaged cursor hsome
  have his : (pageFrom env query idx cursor).is_paged = true := congrArg PageMeta.is_paged hpage
  have hbehind : MoreBehind { bundleQuery query with cursor := cursor } (settingsAt env idx).length
      (effectivePageSize (bundleQuery query)) (pageFrom env query idx cursor).toPageMeta := by
    rw [hpage]
    exact pageMeta_more hmore
  refine ⟨hbehind.done, ?_, fun hshort => ?_⟩
  · rw [hbehind.next_cursor, UInt16.toNat_ofNat']
  · rw [chunk_unfinished htype his hp, sentPage_left (by rw [htype]; rfl),
      patched_more hbehind hmore hshort (hkept hmore)]
    rfl

/-- A chunk that cannot be encoded: the manager's error is the one answer. -/
theorem unencoded_once {n : SlaveNode} (hsends : ∀ p, env.sends p = true) (hcodec : n.codec = id)
    (hat : chunkAt env query idx = pageFrom env query idx cursor)
    (hp : (id.find env.floats).encodeDescriptorResponse (pageFrom env query idx cursor) = none) (budget : Nat) :
    AnsweredOnce (id.find env.floats) (withFallBack env request
        (sendChunks env request (bundleQuery query) (settingsRequested query) (budget + 1) idx cursor n)) ∧
      ¬ PageGoesOn env (id.find env.floats) query idx ∧ PageSettles env (id.find env.floats) query idx := by
  have hunsent := sendDescriptorResponse_none request n
    (show (n.codec.find env.floats).encodeDescriptorResponse (pageFrom env query idx cursor) = none by
      rw [hcodec]; exact hp)
  obtain ⟨q, hq⟩ := withFallBack_unhandled request hsends ⟨false, [], n⟩ rfl
  refine ⟨?_, ?_, .inr (.inl (by rw [hat]; exact hp))⟩
  · rw [sendChunks_ends budget (.inl (by rw [hunsent])), hunsent, hq]
    exact answeredOnce_single.mpr rfl
  · intro hgoes
    have hsome := hgoes.encodes
    rw [hat, hp] at hsome
    cases hsome

/-- Without settings the chunk is the whole answer. -/
theorem unpaged_once {n : SlaveNode} (hsends : ∀ p, env.sends p = true) (hcodec : n.codec = id)
    (hp : (id.find env.floats).encodeDescriptorResponse (pageFrom env query idx cursor) = some p)
    (hnone : settingsAt env idx = []) (budget : Nat) :
    AnsweredOnce (id.find env.floats) (withFallBack env request
        (sendChunks env request (bundleQuery query) (settingsRequested query) (budget + 1) idx cursor n)) ∧
      ¬ PageGoesOn env (id.find env.floats) query idx := by
  obtain ⟨hhandled, hanswers, -⟩ := sendDescriptorResponse_some request n hsends
    (show (n.codec.find env.floats).encodeDescriptorResponse (pageFrom env query idx cursor) = some p by
      rw [hcodec]; exact hp)
  have hunpaged := pageFrom_unpaged query cursor hnone
  constructor
  · rw [sendChunks_ends budget (.inr (.inl hunpaged)), withFallBack_handled hhandled, hanswers,
      PullAnswer.ofResponse, if_neg (by simp [hunpaged])]
    exact answeredOnce_single.mpr rfl
  · intro hgoes
    have hmore := hgoes.more
    rw [hnone] at hmore
    simp at hmore

/-- The last page is the one answer if it goes out as such. -/
theorem lastPage_once {n : SlaveNode} (hsends : ∀ p, env.sends p = true) (hcodec : n.codec = id)
    (hpaged : PagedBundle query)
    (hat : chunkAt env query idx = pageFrom env query idx cursor)
    (hend : pageEnd query idx = cursor.toNat + effectivePageSize (bundleQuery query))
    (hp : (id.find env.floats).encodeDescriptorResponse (pageFrom env query idx cursor) = some p)
    (hsome : settingsAt env idx ≠ []) (hlast : (settingsAt env idx).length ≤ pageEnd query idx) (budget : Nat) :
    (AnsweredOnce (id.find env.floats) (withFallBack env request
        (sendChunks env request (bundleQuery query) (settingsRequested query) (budget + 1) idx cursor n)) ↔
      PageSettles env (id.find env.floats) query idx) ∧
      ¬ PageGoesOn env (id.find env.floats) query idx := by
  obtain ⟨hhandled, hanswers, -⟩ := sendDescriptorResponse_some request n hsends
    (show (n.codec.find env.floats).encodeDescriptorResponse (pageFrom env query idx cursor) = some p by
      rw [hcodec]; exact hp)
  obtain ⟨snapshot_id, htype, hpage, -⟩ := pageFrom_paged hpaged cursor hsome
  have his : (pageFrom env query idx cursor).is_paged = true := congrArg PageMeta.is_paged hpage
  have hdone : (pageFrom env query idx cursor).done = true :=
    (congrArg PageMeta.done hpage).trans (pageMeta_last (hlast.trans hend.le))
  constructor
  · rw [sendChunks_ends budget (.inr (.inr hdone)), withFallBack_handled hhandled, hanswers, PullAnswer.ofResponse,
      if_pos ⟨htype, his⟩, answeredOnce_single, chunk_unfinished htype his hp, Bool.not_eq_false']
    exact lastPage_settles hat hp hsome hlast
  · intro hgoes
    have hmore := hgoes.more
    omega

/-- Behind a page whose cursor has wrapped around the loop has stalled: two errors follow the page. -/
theorem stalled_page {n : SlaveNode} (hsends : ∀ p, env.sends p = true) (hcodec : n.codec = id)
    (hpaged : PagedBundle query)
    (hp : (id.find env.floats).encodeDescriptorResponse (pageFrom env query idx cursor) = some p)
    (hsome : settingsAt env idx ≠ [])
    (hmore : cursor.toNat + effectivePageSize (bundleQuery query) < (settingsAt env idx).length)
    (hwraps : 65536 ≤ cursor.toNat + effectivePageSize (bundleQuery query)) (budget : Nat) :
    ¬ AnsweredOnce (id.find env.floats) (withFallBack env request
      (sendChunks env request (bundleQuery query) (settingsRequested query) (budget + 1) idx cursor n)) := by
  obtain ⟨hhandled, hanswers, -⟩ := sendDescriptorResponse_some request n hsends
    (show (n.codec.find env.floats).encodeDescriptorResponse (pageFrom env query idx cursor) = some p by
      rw [hcodec]; exact hp)
  obtain ⟨-, hsmall⟩ := pageSize_bounds hpaged
  obtain ⟨snapshot_id, htype, hpage, -⟩ := pageFrom_paged hpaged cursor hsome
  have his : (pageFrom env query idx cursor).is_paged = true := congrArg PageMeta.is_paged hpage
  obtain ⟨hdone, hnext, -⟩ := behind_page hpaged hsome hp hmore
  have hback : (pageFrom env query idx cursor).next_cursor ≤ cursor := by
    have hlt := cursor.toNat_lt
    rw [UInt16.le_iff_toNat_le, hnext]
    omega
  obtain ⟨q, hq⟩ := refuse_answers request
    (n.sendDescriptorResponse env request (pageFrom env query idx cursor)).node hsends
    (show "bundle paging stalled" ∈ planeErrors by simp [planeErrors])
  obtain ⟨q', hq'⟩ := withFallBack_unhandled request hsends
    ((n.sendDescriptorResponse env request (pageFrom env query idx cursor)).node.refuse env request
      "bundle paging stalled") rfl
  rw [sendChunks_goes budget hhandled htype his hdone, withFallBack_andThen, hanswers, if_pos hback, hq', hq,
    PullAnswer.ofResponse, if_pos ⟨htype, his⟩]
  exact not_answeredOnce_twice rfl _

/-- A page with settings behind it is an answer to wait on: the rest of the loop decides. -/
theorem page_awaited {n : SlaveNode} (hsends : ∀ p, env.sends p = true) (hcodec : n.codec = id)
    (hpaged : PagedBundle query)
    (hp : (id.find env.floats).encodeDescriptorResponse (pageFrom env query idx cursor) = some p)
    (hsome : settingsAt env idx ≠ [])
    (hmore : cursor.toNat + effectivePageSize (bundleQuery query) < (settingsAt env idx).length)
    (hshort : cursor.toNat + effectivePageSize (bundleQuery query) < 65536) (budget : Nat) :
    ∃ (next : UInt16) (n' : SlaveNode), n'.codec = id ∧
      next.toNat = cursor.toNat + effectivePageSize (bundleQuery query) ∧
      (AnsweredOnce (id.find env.floats) (withFallBack env request
          (sendChunks env request (bundleQuery query) (settingsRequested query) (budget + 1) idx cursor n)) ↔
        AnsweredOnce (id.find env.floats) (withFallBack env request
          (sendChunks env request (bundleQuery query) (settingsRequested query) budget (idx + 1) next n'))) := by
  obtain ⟨hhandled, hanswers, hnode⟩ := sendDescriptorResponse_some request n hsends
    (show (n.codec.find env.floats).encodeDescriptorResponse (pageFrom env query idx cursor) = some p by
      rw [hcodec]; exact hp)
  obtain ⟨hsize, -⟩ := pageSize_bounds hpaged
  obtain ⟨snapshot_id, htype, hpage, -⟩ := pageFrom_paged hpaged cursor hsome
  have his : (pageFrom env query idx cursor).is_paged = true := congrArg PageMeta.is_paged hpage
  obtain ⟨hdone, hnext, hwaits⟩ := behind_page hpaged hsome hp hmore
  rw [Nat.mod_eq_of_lt hshort] at hnext
  refine ⟨_, _, hnode.trans hcodec, hnext, ?_⟩
  rw [sendChunks_goes budget hhandled htype his hdone, withFallBack_andThen, hanswers, PullAnswer.ofResponse,
    if_pos ⟨htype, his⟩, if_neg (by rw [UInt16.le_iff_toNat_le, hnext]; omega), List.singleton_append,
    answeredOnce_cons (hwaits hshort)]

end Turns

theorem sendChunks_once (hsends : ∀ p, env.sends p = true) (hpaged : PagedBundle query) (budget : Nat) :
    ∀ (idx : Nat) (cursor : UInt16) (n : SlaveNode), n.codec = id →
      cursor.toNat = (bundleQuery query).cursor.toNat + idx * effectivePageSize (bundleQuery query) →
      (AnsweredOnce (id.find env.floats) (withFallBack env request
          (sendChunks env request (bundleQuery query) (settingsRequested query) budget idx cursor n)) ↔
        ∃ k, idx ≤ k ∧ k < idx + budget ∧
          (∀ j, idx ≤ j → j < k → PageGoesOn env (id.find env.floats) query j) ∧
          PageSettles env (id.find env.floats) query k) := by
  induction budget with
  | zero =>
    intro idx cursor n hcodec hcursor
    -- the limit is an error of the control plane, then one of the manager
    obtain ⟨p, hp⟩ := refuse_answers request n hsends
      (show "bundle paging limit exceeded" ∈ planeErrors by simp [planeErrors])
    obtain ⟨q, hq⟩ := withFallBack_unhandled request hsends
      (n.refuse env request "bundle paging limit exceeded") rfl
    rw [sendChunks, hq, hp]
    constructor
    · intro honce
      exact absurd honce (not_answeredOnce_cons rfl)
    · rintro ⟨k, hle, hlt, -⟩
      omega
  | succ budget ih =>
    intro idx cursor n hcodec hcursor
    have hat : chunkAt env query idx = pageFrom env query idx cursor := by
      rw [chunkAt, ← hcursor, UInt16.ofNat_toNat]
    have hend : pageEnd query idx = cursor.toNat + effectivePageSize (bundleQuery query) := by
      rw [pageEnd, hcursor, Nat.add_mul]
      omega
    cases hp : (id.find env.floats).encodeDescriptorResponse (pageFrom env query idx cursor) with
    | none =>
      obtain ⟨honce, hstop, hsettles⟩ := unencoded_once hsends hcodec hat hp budget
      rw [settles_here hstop]
      exact ⟨fun _ => hsettles, fun _ => honce⟩
    | some p =>
      by_cases hnone : settingsAt env idx = []
      · obtain ⟨honce, hstop⟩ := unpaged_once hsends hcodec hp hnone budget
        rw [settles_here hstop]
        exact ⟨fun _ => .inl hnone, fun _ => honce⟩
      · by_cases hmore : cursor.toNat + effectivePageSize (bundleQuery query) < (settingsAt env idx).length
        · have hopen := page_unsettled hat hp hnone (by omega)
          by_cases hshort : cursor.toNat + effectivePageSize (bundleQuery query) < 65536
          · obtain ⟨next, n', hcodec', hnext, honce⟩ := page_awaited hsends hcodec hpaged hp hnone hmore hshort budget
            have hgoes : PageGoesOn env (id.find env.floats) query idx := ⟨by omega, by omega, by rw [hat, hp]; rfl⟩
            rw [honce, settles_later hgoes hopen]
            refine ih (idx + 1) next n' hcodec' ?_
            rw [hnext, hcursor, Nat.add_mul]
            omega
          · have hstop : ¬ PageGoesOn env (id.find env.floats) query idx := by
              intro hgoes
              have hcursor' := hgoes.cursor
              omega
            rw [settles_here hstop]
            constructor
            · intro honce
              exact absurd honce (stalled_page hsends hcodec hpaged hp hnone hmore (Nat.le_of_not_lt hshort) budget)
            · intro hsettles
              exact absurd hsettles hopen
        · obtain ⟨honce, hstop⟩ := lastPage_once hsends hcodec hpaged hat hend hp hnone (by omega) budget
          rw [settles_here hstop]
          exact honce

end Loop

namespace SlaveNode

variable {env : PullSurroundings} {request : QueuedPullRequest} {n : SlaveNode}

/-- The push control takes the request. -/
def TakesPush (n : SlaveNode) (request : QueuedPullRequest) : Prop :=
  n.pull.local_role = .Slave ∧ n.pull.provider ≠ none ∧
    (parseTelemetryPushCommand request.payload).isSome = true

/-- The request is a push command, or there is no control plane, or the control plane has an answer: the
payload is a query, whose bundle ends if it goes out page by page, or a control command. -/
def Answers (env : PullSurroundings) (request : QueuedPullRequest) (n : SlaveNode) : Prop :=
  n.TakesPush request ∨ n.pull.has_control_plane = false ∨
    (∃ query, n.queryOf env request.payload = some query ∧
      (PagedBundle query → BundleSettles env (n.codec.find env.floats) query)) ∨
    n.queryOf env request.payload = none ∧
      (n.codec.control.decodeControlCommand request.payload).isSome = true

/-- A push command is answered by the push control alone. -/
theorem push_once (hsends : ∀ p, env.sends p = true) (h : n.TakesPush request) :
    (n.handleTelemetryPushControl env request).handled = true ∧
      ∃ p, (n.handleTelemetryPushControl env request).answers = [.response p] := by
  obtain ⟨hrole, hprovider, hparse⟩ := h
  obtain ⟨cmd, hcmd⟩ := Option.isSome_iff_exists.mp hparse
  have hsome : (n.pull.toTelemetryManager.handlePushCommand request.sender cmd).1.isSome = true := by
    rw [TelemetryManager.handlePushCommand, if_neg (by simp [hrole, hprovider])]
    split <;> rfl
  obtain ⟨reply, hreply⟩ := Option.isSome_iff_exists.mp hsome
  obtain ⟨p, hp⟩ := pushMessages_encode (TelemetryManager.handlePushCommand_message hreply)
  unfold SlaveNode.handleTelemetryPushControl TelemetryManager.handleTelemetryPushControl
  simp only [hcmd, hreply, sendDefaultReply, hp, sendEncoded]
  obtain ⟨hhandled, hanswers⟩ := sendPullResponse_sent request
    { n with pull := { n.pull with toTelemetryManager :=
      (n.pull.toTelemetryManager.handlePushCommand request.sender cmd).2 } } hsends (.response p)
  exact ⟨hhandled, p, hanswers⟩

variable (env) in
/-- Another request is left to the control plane, and nothing is sent. -/
theorem push_passes (h : ¬ n.TakesPush request) :
    ∃ pull : PullManager, pull.has_control_plane = n.pull.has_control_plane ∧
      n.handleTelemetryPushControl env request = ⟨false, [], { n with pull := pull }⟩ := by
  have hnone : (n.pull.toTelemetryManager.handleTelemetryPushControl request.sender request.payload).1 = none := by
    unfold TelemetryManager.handleTelemetryPushControl
    cases hcmd : parseTelemetryPushCommand request.payload with
    | none => rfl
    | some cmd =>
      unfold TelemetryManager.handlePushCommand
      by_cases hrole : n.pull.local_role = .Slave
      · have hprovider : n.pull.provider = none := by
          by_contra hbound
          exact h ⟨hrole, hbound, by rw [hcmd]; rfl⟩
        simp [hprovider]
      · simp [hrole]
  refine ⟨{ n.pull with toTelemetryManager :=
    (n.pull.toTelemetryManager.handleTelemetryPushControl request.sender request.payload).2 }, rfl, ?_⟩
  unfold SlaveNode.handleTelemetryPushControl
  simp only [hnone]

/-- A bundle is answered once unless it goes out page by page and does not end. -/
theorem sendBundle_once (hsends : ∀ p, env.sends p = true) {query : DescriptorQuery}
    (htype : query.type = .GetNodeBundle) :
    AnsweredOnce (n.codec.find env.floats) (withFallBack env request (n.sendBundle env request query)) ↔
      (PagedBundle query → BundleSettles env (n.codec.find env.floats) query) := by
  by_cases hpaged : PagedBundle query
  · rw [sendBundle, sendChunks_once hsends hpaged kMaxBundleChunks 0 (bundleQuery query).cursor n rfl (by omega)]
    constructor
    · rintro ⟨k, -, hlt, hall, hsettles⟩ -
      exact ⟨k, by omega, fun j hj => hall j (Nat.zero_le j) hj, hsettles⟩
    · intro h
      obtain ⟨k, hlt, hall, hsettles⟩ := h hpaged
      exact ⟨k, Nat.zero_le k, by omega, fun j _ hj => hall j hj, hsettles⟩
  · -- the first chunk is the only one
    have hwhole : (pageFrom env query 0 (bundleQuery query).cursor).is_paged = false := by
      refine nodeBundle_unpaged _ _ ?_
      have hmask : (chunkQuery (bundleQuery query) (settingsRequested query) 0
          (bundleQuery query).cursor).bundle_mask = (bundleQuery query).bundle_mask := by
        simp [chunkQuery]
      rw [hmask]
      cases hwants : wants (effectiveMask (bundleQuery query).bundle_mask) kNodeBundleMaskSettings with
      | false => exact .inl rfl
      | true =>
        have hnot : (bundleQuery query).paged = false := by
          rw [← Bool.not_eq_true]
          exact fun hpages => hpaged ⟨htype, hwants, hpages⟩
        refine .inr (.inr ?_)
        rw [chunk_pageSize, effectivePageSize, if_pos (.inl hnot)]
    have honce : AnsweredOnce (n.codec.find env.floats)
        (withFallBack env request (n.sendBundle env request query)) := by
      have hfirst : n.sendBundle env request query =
          n.sendDescriptorResponse env request (pageFrom env query 0 (bundleQuery query).cursor) := by
        unfold sendBundle kMaxBundleChunks
        rw [sendChunks]
        change (
          let response := pageFrom env query 0 (bundleQuery query).cursor
          let first := n.sendDescriptorResponse env request response
          if !first.handled then first
          else if response.type ≠ .NodeBundle then first
          else if !response.is_paged || response.done then first
          else _) = _
        dsimp only
        rw [hwhole, Bool.not_false, Bool.true_or, if_pos rfl, ite_self, ite_self]
      have hone : ¬ ((pageFrom env query 0 (bundleQuery query).cursor).type = .NodeBundle ∧
          (pageFrom env query 0 (bundleQuery query).cursor).is_paged = true) := by
        simp [hwhole]
      rw [hfirst]
      exact sendDescriptorResponse_once hsends n hone
    exact ⟨fun _ h => absurd h hpaged, fun _ => honce⟩

/-- Every other query is answered once. -/
theorem onDescriptorQuery_once (hsends : ∀ p, env.sends p = true) (query : DescriptorQuery) :
    AnsweredOnce (n.codec.find env.floats) (withFallBack env request (n.onDescriptorQuery env request query)) ↔
      (PagedBundle query → BundleSettles env (n.codec.find env.floats) query) := by
  have hsome := n.topology.handleTopologyQuery_isSome env.sendTrigger request.sender query
  unfold onDescriptorQuery
  generalize n.topology.handleTopologyQuery env.sendTrigger request.sender query = handled at hsome ⊢
  obtain ⟨reply, topology⟩ := handled
  cases reply with
  | some reply =>
    have hother : query.type ≠ .GetNodeBundle := by
      intro htype
      rw [htype] at hsome
      cases hsome
    have honce : AnsweredOnce (n.codec.find env.floats) (withFallBack env request
        (({ n with topology := topology } : SlaveNode).sendReply env request reply)) := by
      refine sendDescriptorResponse_once hsends _ fun h => ?_
      have htype : (if reply.ok = true then DescriptorResponseType.Ack else .Error) = .NodeBundle := h.1
      cases hok : reply.ok <;> rw [hok] at htype <;> cases htype
    exact ⟨fun _ h => absurd h.1 hother, fun _ => honce⟩
  | none =>
    dsimp only
    split
    · rename_i htype
      exact sendBundle_once hsends htype
    · rename_i htype
      refine ⟨fun _ h => absurd h.1 htype, fun _ => ?_⟩
      exact sendEncoded_once hsends n _ fun p => rfl

theorem onControlCommand_once (hsends : ∀ p, env.sends p = true) (codec : ProfileCodec) (cmd : UInt16) :
    AnsweredOnce codec (withFallBack env request (n.onControlCommand env request cmd)) := by
  unfold onControlCommand
  dsimp only
  exact sendEncoded_once hsends _ _ fun p => rfl

/-- What the control plane leaves with the manager is answered once exactly when it is a query whose
bundle ends, or a control command. -/
theorem onPullRequest_once (hsends : ∀ p, env.sends p = true) :
    AnsweredOnce (n.codec.find env.floats) (withFallBack env request (n.onPullRequest env request)) ↔
      (∃ query, n.queryOf env request.payload = some query ∧
        (PagedBundle query → BundleSettles env (n.codec.find env.floats) query)) ∨
      n.queryOf env request.payload = none ∧
        (n.codec.control.decodeControlCommand request.payload).isSome = true := by
  unfold onPullRequest
  cases hquery : n.queryOf env request.payload with
  | some query =>
    simp only [Option.some.injEq, exists_eq_left', reduceCtorEq, false_and, or_false]
    exact onDescriptorQuery_once hsends query
  | none =>
    cases hcmd : n.codec.control.decodeControlCommand request.payload with
    | some cmd =>
      simp only [reduceCtorEq, false_and, exists_false, false_or, true_and, Option.isSome_some, iff_true]
      exact onControlCommand_once hsends _ cmd
    | none =>
      -- the control plane's error is followed by the manager's
      simp only [reduceCtorEq, false_and, exists_false, false_or, true_and, Option.isSome_none,
        Bool.false_eq_true, iff_false]
      obtain ⟨p, hp⟩ := refuse_answers request n hsends
        (show "unsupported pull payload" ∈ planeErrors by simp [planeErrors])
      obtain ⟨q, hq⟩ := withFallBack_unhandled request hsends
        (n.refuse env request "unsupported pull payload") rfl
      rw [hq, hp]
      exact not_answeredOnce_cons rfl

end SlaveNode

/-- When every send succeeds, a pull request is answered exactly once if and only if it is a push command,
or there is no control plane, or its payload is a control command or a query; and a bundle that goes out
page by page has to end within 32 chunks with one that tells the peer that it is the last. -/
theorem pull_answered_once_iff (env : PullSurroundings) (request : QueuedPullRequest) (n : SlaveNode)
    (hsends : ∀ p, env.sends p = true) :
    AnsweredOnce (n.codec.find env.floats) (n.processQueuedPullRequest env request).answers ↔
      n.Answers env request := by
  let noted : SlaveNode := { n with pull := n.pull.notePending request }
  have hnoted : noted.TakesPush request ↔ n.TakesPush request := Iff.rfl
  by_cases hpush : n.TakesPush request
  · obtain ⟨hhandled, p, hanswers⟩ := SlaveNode.push_once hsends (hnoted.mpr hpush)
    have honce : AnsweredOnce (n.codec.find env.floats) (n.processQueuedPullRequest env request).answers := by
      unfold SlaveNode.processQueuedPullRequest
      dsimp only
      rw [Handling.orElse, if_pos hhandled, hanswers]
      exact answeredOnce_single.mpr rfl
    exact ⟨fun _ => .inl hpush, fun _ => honce⟩
  · obtain ⟨pull, hplane, hpasses⟩ := SlaveNode.push_passes env (fun h => hpush (hnoted.mp h))
    let passed : SlaveNode := { n with pull := pull }
    have hprocess : (n.processQueuedPullRequest env request).answers =
        if n.pull.has_control_plane then withFallBack env request (passed.onPullRequest env request)
        else (passed.fallBack env request).answers := by
      unfold SlaveNode.processQueuedPullRequest
      dsimp only
      rw [hpasses]
      have hplane' : pull.has_control_plane = n.pull.has_control_plane := hplane
      rw [Handling.orElse, if_neg (by simp)]
      simp only [Handling.andThen, List.nil_append, hplane']
      cases n.pull.has_control_plane with
      | false => rfl
      | true => rfl
    rw [hprocess]
    cases hcontrol : n.pull.has_control_plane with
    | false =>
      obtain ⟨p, hp⟩ := SlaveNode.fallBack_answers request passed hsends
      rw [if_neg (by simp), hp]
      exact ⟨fun _ => .inr (.inl hcontrol), fun _ => answeredOnce_single.mpr rfl⟩
    | true =>
      rw [if_pos rfl]
      have honce : AnsweredOnce (n.codec.find env.floats)
          (withFallBack env request (passed.onPullRequest env request)) ↔ _ :=
        SlaveNode.onPullRequest_once hsends
      refine honce.trans ⟨fun h => .inr (.inr h), ?_⟩
      rintro (h | h | h)
      · exact absurd h hpush
      · rw [hcontrol] at h
        cases h
      · exact h

/-- A slave with a control plane and a descriptor provider, without a telemetry provider. -/
def describedSlave : SlaveNode where
  pull := startedPullManager .Slave none
  codec := .Default
  descriptor := true
  topology := ⟨semu.started telling none none, 1, {}⟩
  restart_requested := false
  reset_requested := false

/-- Every send succeeds; a bundle finds the settings and nothing else. -/
def settingsOnly (settings : List SettingDescriptor) : PullSurroundings where
  floats := noFloats
  sends := fun _ => true
  sendTrigger := fun _ _ => .error ""
  execute := fun _ => none
  bundleParts := fun _ => ⟨(false, {}), (false, {}), (false, {}), settings, none⟩

def pullOf (payload : Bytes) : QueuedPullRequest := ⟨zeroMac, 7, 0x06, 0x01, payload, 0⟩

/-- The query for a bundle of settings. -/
def settingsBundle : DescriptorQuery := { type := .GetNodeBundle, bundle_mask := kNodeBundleMaskSettings }

def namedSetting (name : UInt8) (description : Nat) : SettingDescriptor :=
  { setting_id := name.toUInt16, key := [name], description := List.replicate description 0x2E }

/-- Two short settings fit one chunk. Of four long ones the encoder drops the last: the slave takes the
chunk for the last one, the peer waits for another. -/
theorem settings_bundle_answers :
    let request := pullOf ((encodeDescriptorQuery settingsBundle).getD [])
    let short := settingsOnly [namedSetting 97 3, namedSetting 98 3]
    let long := settingsOnly ([97, 98, 99, 100].map fun name => namedSetting name 40)
    AnsweredOnce defaultProfileCodec (describedSlave.processQueuedPullRequest short request).answers ∧
      ¬ AnsweredOnce defaultProfileCodec (describedSlave.processQueuedPullRequest long request).answers := by
  intro request short long
  have hquery : parseDescriptorQuery request.payload = some settingsBundle := by decide +kernel
  have hfound : ∀ env, describedSlave.queryOf env request.payload = some settingsBundle := by
    intro env
    change (parseDescriptorQuery request.payload).or (parseDescriptorQuery request.payload) = _
    rw [hquery]
    rfl
  constructor
  · refine (pull_answered_once_iff short request describedSlave fun _ => rfl).mpr ?_
    refine .inr (.inr (.inl ⟨settingsBundle, hfound short, fun _ => ⟨0, by decide, ?_, ?_⟩⟩))
    · intro j hj
      omega
    · exact .inr (.inr (by decide +kernel))
  · intro honce
    have hanswers := (pull_answered_once_iff long request describedSlave fun _ => rfl).mp honce
    rcases hanswers with ⟨-, hprovider, -⟩ | hcontrol | ⟨query, hq, hends⟩ | ⟨hnone, -⟩
    · exact hprovider rfl
    · cases hcontrol
    · rw [hfound long] at hq
      obtain rfl := Option.some.inj hq
      obtain ⟨k, -, hall, hsettles⟩ := hends ⟨rfl, by decide, rfl⟩
      have hpast : ∀ j, ¬ PageGoesOn long (describedSlave.codec.find long.floats) settingsBundle j := by
        intro j hgoes
        have hmore := hgoes.more
        have hend : pageEnd settingsBundle j = 0 + (j + 1) * 16 := rfl
        have hlen : (settingsAt long j).length = 4 := rfl
        omega
      cases k with
      | zero =>
        revert hsettles
        change ¬ (_ = [] ∨ _ = none ∨ _)
        decide +kernel
      | succ k => exact hpast 0 (hall 0 (by omega))
    · rw [hfound long] at hnone
      cases hnone

/-- An empty payload is answered with the control plane's error, and then with the manager's. -/
theorem unsupported_answered_twice : ¬ ∀ (env : PullSurroundings) (request : QueuedPullRequest) (n : SlaveNode),
    (∀ p, env.sends p = true) →
      AnsweredOnce (n.codec.find env.floats) (n.processQueuedPullRequest env request).answers := by
  intro h
  have hanswers : (describedSlave.processQueuedPullRequest (settingsOnly []) (pullOf [])).answers =
      [.response ((PullManager.buildDescriptorReply ⟨false, "unsupported pull payload"⟩).getD []),
        .response ((PullManager.buildDescriptorReply ⟨false, "pull request unsupported"⟩).getD [])] := by
    decide +kernel
  have honce := h (settingsOnly []) (pullOf []) describedSlave fun _ => rfl
  rw [hanswers] at honce
  exact not_answeredOnce_cons rfl honce

end EspNowLink
