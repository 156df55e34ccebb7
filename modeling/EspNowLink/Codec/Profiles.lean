import EspNowLink.Codec.Fields

open Framework

namespace EspNowLink

/-- The descriptor half of `IProfileCodec`. -/
structure ProfileCodec where
  encodeDescriptorQuery : DescriptorQuery → Option Bytes
  decodeDescriptorQuery : Bytes → Option DescriptorQuery
  encodeDescriptorResponse : DescriptorResponse → Option Bytes
  decodeDescriptorResponse : Bytes → Option DescriptorResponse

def encodeResponsePayload (response : DescriptorResponse) : Option Bytes :=
  (encodeDescriptorResponse response).map EncodedResponse.payload

def defaultProfileCodec : ProfileCodec where
  encodeDescriptorQuery := encodeDescriptorQuery
  decodeDescriptorQuery := parseDescriptorQuery
  encodeDescriptorResponse := encodeResponsePayload
  decodeDescriptorResponse := decodeDescriptorResponse

/-- The version and the kinds that the wrapping codecs write after their magic byte. -/
def kCodecVersion : UInt8 := 1
def kKindQuery : UInt8 := 1
def kKindResponse : UInt8 := 2

/-- `wrap`: magic, version, kind and the length, then the inner payload. -/
def wrap (size : Format Nat) (magic kind : UInt8) (inner : Bytes) : Option Bytes :=
  appendAll [] [some [magic], some [kCodecVersion], some [kind], size.put inner.length, some inner]

/-- `unwrap`: the inner payload is the rest, to its last byte. -/
def unwrap (size : Format Nat) (magic kind : UInt8) : Bytes → Option Bytes
  | m :: v :: k :: rest =>
    if m = magic ∧ v = kCodecVersion ∧ k = kind then
      (size.get rest).bind fun n => if n.2.length = n.1 then some n.2 else none
    else none
  | _ => none

/-- A codec that wraps the default one. What carries no wrapping is left to the default parser. -/
def wrappedProfileCodec (magic : UInt8) : ProfileCodec where
  encodeDescriptorQuery query := (encodeDescriptorQuery query).bind (wrap count16 magic kKindQuery)
  decodeDescriptorQuery payload :=
    match unwrap count16 magic kKindQuery payload with
    | some inner => parseDescriptorQuery inner
    | none => parseDescriptorQuery payload
  encodeDescriptorResponse response :=
    (encodeResponsePayload response).bind (wrap count16 magic kKindResponse)
  decodeDescriptorResponse payload :=
    match unwrap count16 magic kKindResponse payload with
    | some inner => decodeDescriptorResponse inner
    | none => decodeDescriptorResponse payload

def kPackedMagicDesc : UInt8 := 0xD1
def kCborLiteMagicDesc : UInt8 := 0xA1
def kBinaryMapMagicDesc : UInt8 := 0xB1

def packedTlvProfileCodec : ProfileCodec := wrappedProfileCodec kPackedMagicDesc
def cborLiteProfileCodec : ProfileCodec := wrappedProfileCodec kCborLiteMagicDesc
def binaryMapProfileCodec : ProfileCodec := wrappedProfileCodec kBinaryMapMagicDesc

/-- The queries that the Varint TLV and the Delta Binary codec leave to the default encoder. -/
def leavesQuery : DescriptorQueryType → Bool
  | .GetLogStatus | .ReadLogChunk | .ClearLog | .SetLogControl | .GetStorageInfo | .ListStoragePath
  | .StatStoragePath | .FormatStorage | .GetNodeBundle | .GetOtaStatus | .GetOtaManifest
  | .RebuildOtaManifest | .ClearOtaScope | .GetOtaCapacity | .GetOtaGateInfo | .ApplyOtaImage => true
  | _ => false

/-- The Compact Indexed codec leaves it the topology queries as well. -/
def compactLeavesQuery : DescriptorQueryType → Bool
  | .TopologyStageClear | .TopologyStageBegin | .TopologyStageSlotSet | .TopologyStageGroupSet
  | .TopologyStageFinalize | .TopologyCommit | .TopologyStatus | .TopologyTriggerSend => true
  | type => leavesQuery type

/-- The responses that all three leave to the default encoder. -/
def leavesResponse : DescriptorResponseType → Bool
  | .LogStatus | .LogChunk | .StorageInfo | .StorageList | .StorageStat | .NodeBundle | .OtaStatus
  | .OtaManifest | .OtaCapacity | .OtaGateInfo => true
  | _ => false

def flagBit (set : Bool) (bit : UInt8) : UInt8 := if set then bit else 0

def queryFlags (query : DescriptorQuery) : UInt8 :=
  flagBit (!query.key.isEmpty) 0x01 ||| flagBit query.has_setting_id 0x02 |||
    flagBit (!query.value.isEmpty) 0x04 ||| flagBit (query.time_epoch_s ≠ 0) 0x08 |||
    flagBit query.paged 0x10 ||| flagBit query.paged 0x20 ||| flagBit query.paged 0x40

/-- A field that is written, and read, if its flag is set. -/
def fieldIf (set : Bool) (field : Option Bytes) : List (Option Bytes) := if set then [field] else []

def getIf {α : Type} (set : Bool) (f : Format α) (absent : α) (bs : Bytes) : Option (α × Bytes) :=
  if set then f.get bs else some (absent, bs)

/-- Type, flags, and the fields that the flags announce. -/
def flaggedQuery (w : Words) (query : DescriptorQuery) : List (Option Bytes) :=
  [some [query.type.toByte], some [queryFlags query]] ++
  fieldIf query.has_setting_id (w.u16.put query.setting_id) ++
  fieldIf (query.time_epoch_s ≠ 0) (w.u32.put query.time_epoch_s.toUInt32) ++
  fieldIf query.paged (w.u16.put query.cursor) ++
  fieldIf query.paged (w.u8.put query.page_size) ++
  fieldIf (!query.key.isEmpty) (w.text.put query.key) ++
  fieldIf (!query.value.isEmpty) (w.text.put query.value)

/-- The fields of a query after its type and flags, and what follows them. -/
def readFlagged (w : Words) (type flags : UInt8) (bs : Bytes) : Option (DescriptorQuery × Bytes) := do
  let (setting_id, bs) ← getIf (flags &&& 0x02 ≠ 0) w.u16 0 bs
  let (epoch, bs) ← getIf (flags &&& 0x08 ≠ 0) w.u32 0 bs
  let (cursor, bs) ← getIf (flags &&& 0x20 ≠ 0) w.u16 0 bs
  let (page_size, bs) ← getIf (flags &&& 0x40 ≠ 0) w.u8 0 bs
  let (key, bs) ← getIf (flags &&& 0x01 ≠ 0) w.text [] bs
  let (value, bs) ← getIf (flags &&& 0x04 ≠ 0) w.text [] bs
  let query : DescriptorQuery :=
    { type := .ofByte type, key := key, has_setting_id := flags &&& 0x02 ≠ 0, setting_id := setting_id
      value := value, time_epoch_s := epoch.toUInt64, paged := flags &&& 0x10 ≠ 0, cursor := cursor
      page_size := page_size }
  some (query, bs)

/-- The checks after the last field. -/
def flaggedValid (query : DescriptorQuery) (rest : Bytes) : Bool :=
  rest.isEmpty && query.type ≠ .Unknown && namesOneSetting query &&
    (query.type ≠ .SetSetting || !query.value.isEmpty)

def decodeFlagged (w : Words) : Bytes → Option DescriptorQuery
  | type :: flags :: bs =>
    (readFlagged w type flags bs).bind fun x => if flaggedValid x.1 x.2 then some x.1 else none
  | _ => none

/-- The queries whose arguments are topology fields. -/
def carriesTopology : DescriptorQueryType → Bool
  | .TopologyStageBegin | .TopologyStageSlotSet | .TopologyStageGroupSet | .TopologyTriggerSend => true
  | _ => false

/-- What a response carries before its body: a message, the page metadata. -/
def responseHead (w : Words) (response : DescriptorResponse) (has_message : Bool) : List (Option Bytes) :=
  [some [response.type.toByte], some [flagBit has_message 0x01 ||| flagBit response.is_paged 0x02]] ++
  fieldIf has_message (w.text.put response.message) ++
  if h : response.is_paged = true then [w.page.put ⟨response.toPageMeta, h⟩] else []

/-- The body of a response, its samples apart: the list codecs write them each in its own way. -/
def responseBody (w : Words) (putSamples : List TelemetrySample → Option Bytes)
    (response : DescriptorResponse) : List (Option Bytes) :=
  match response.type with
  | .Device => [w.device.put response.device]
  | .Capabilities => [(w.many w.capability).put response.capabilities]
  | .Telemetry => [(w.many w.metric).put response.telemetry]
  | .TelemetrySnapshot => [putSamples response.telemetry_samples]
  | .Liveness => [w.liveness.put response.liveness]
  | .Time => [w.putTime response.time]
  | .Settings => [(w.many w.setting).put response.settings]
  | .Setting => [w.setting.put response.setting]
  | _ => []

/-- The body is read to the last byte. -/
def readBody (w : Words) (getSamples : Bytes → Option (List TelemetrySample × Bytes))
    (out : DescriptorResponse) (bs : Bytes) : Option (DescriptorResponse × Bytes) :=
  match out.type with
  | .Device => (w.device.get bs).map fun x => ({ out with device := x.1 }, x.2)
  | .Capabilities =>
    ((w.many w.capability).get bs).map fun x => ({ out with capabilities := x.1 }, x.2)
  | .Telemetry => ((w.many w.metric).get bs).map fun x => ({ out with telemetry := x.1 }, x.2)
  | .TelemetrySnapshot => (getSamples bs).map fun x => ({ out with telemetry_samples := x.1 }, x.2)
  | .Liveness => (w.liveness.get bs).map fun x => ({ out with liveness := x.1 }, x.2)
  | .Time => (w.getTime bs).map fun x => ({ out with time := x.1 }, x.2)
  | .Settings => ((w.many w.setting).get bs).map fun x => ({ out with settings := x.1 }, x.2)
  | .Setting => (w.setting.get bs).map fun x => ({ out with setting := x.1 }, x.2)
  | _ => some (out, bs)

/-- The page metadata, if its flag is set. -/
def getPage (w : Words) (set : Bool) (bs : Bytes) : Option (PageMeta × Bytes) :=
  if set then (w.page.get bs).map fun x => (x.1.1, x.2) else some ({}, bs)

def decodeResponse (w : Words) (getSamples : Bytes → Option (List TelemetrySample × Bytes)) :
    Bytes → Option DescriptorResponse
  | type :: flags :: bs => do
    let (message, bs) ← getIf (flags &&& 0x01 ≠ 0) w.text [] bs
    let (page, bs) ← getPage w (flags &&& 0x02 ≠ 0) bs
    let (out, bs) ← readBody w getSamples { toPageMeta := page, type := .ofByte type, message := message } bs
    if bs.isEmpty then some out else none
  | _ => none

end EspNowLink
