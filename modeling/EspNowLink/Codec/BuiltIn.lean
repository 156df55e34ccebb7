import EspNowLink.Codec.Profiles

open Framework

namespace EspNowLink

def kCompactMagic : UInt8 := 0xC1
def kVarintMagicDesc : UInt8 := 0xE1
def kDeltaMagicDesc : UInt8 := 0xF1

/-- The loop over a list: it stops at the first item that cannot be written. -/
def emitItems {α : Type} (write : Bytes → α → Option Bytes) : Bytes → List α → Bytes × Nat
  | out, [] => (out, 0)
  | out, x :: xs =>
    match write out x with
    | none => (out, 0)
    | some out =>
      let rest := emitItems write out xs
      (rest.1, rest.2 + 1)

/-- A list of the Compact Indexed codec. The count is put in its place after the loop. -/
def emitList {α : Type} (write : Bytes → α → Option Bytes) (out : Bytes) (xs : List α) : Option Bytes :=
  if xs.length > 255 then none
  else
    (append out (some [0])).bind fun start =>
      let (body, encoded_count) := emitItems write start xs
      if encoded_count = 0 ∧ xs ≠ [] then none
      else some (body.set out.length (UInt8.ofNat encoded_count))

/-- The description of a metric is not sent. -/
def undescribed (t : TelemetryDescriptor) : TelemetryDescriptor := { t with description := [] }

/-- What is sent of a setting that does not fit. -/
def slimSetting (st : SettingDescriptor) : SettingDescriptor :=
  { st with nvs_key := [], current_value := [], default_value := [], description := [] }

def writeItem {α : Type} (f : Format α) (out : Bytes) (x : α) : Option Bytes := append out (f.put x)

def writeMetric (out : Bytes) (t : TelemetryDescriptor) : Option Bytes :=
  writeItem compactWords.metric out (undescribed t)

def writeSetting (out : Bytes) (st : SettingDescriptor) : Option Bytes :=
  (writeItem compactWords.setting out st).or (writeItem compactWords.setting out (slimSetting st))

def isListResponse : DescriptorResponseType → Bool
  | .Capabilities | .Telemetry | .TelemetrySnapshot | .Settings => true
  | _ => false

def compactBody (response : DescriptorResponse) (out : Bytes) : Option Bytes :=
  match response.type with
  | .Device => writeItem compactWords.device out response.device
  | .Capabilities => emitList (writeItem compactWords.capability) out response.capabilities
  | .Telemetry => emitList writeMetric out response.telemetry
  | .TelemetrySnapshot => emitList (writeItem compactWords.sample) out response.telemetry_samples
  | .Liveness => writeItem compactWords.liveness out response.liveness
  | .Time => append out (compactWords.putTime response.time)
  | .Settings => emitList writeSetting out response.settings
  | .Setting => writeItem compactWords.setting out response.setting
  | _ => some out

def compactIndexedProfileCodec : ProfileCodec where
  encodeDescriptorQuery query :=
    if compactLeavesQuery query.type then encodeDescriptorQuery query
    else if !namesOneSetting query then none
    else appendAll [] (some [kCompactMagic] :: some [kKindQuery] :: flaggedQuery compactWords query)
  decodeDescriptorQuery payload :=
    match payload with
    | magic :: kind :: type :: flags :: rest =>
      if magic = kCompactMagic ∧ kind = kKindQuery then
        (decodeFlagged compactWords (type :: flags :: rest)).filter fun query => !carriesTopology query.type
      else parseDescriptorQuery payload
    | _ => parseDescriptorQuery payload
  encodeDescriptorResponse response :=
    if leavesResponse response.type then encodeResponsePayload response
    else
      -- a list goes without its message
      let has_message := !response.message.isEmpty && !isListResponse response.type
      (appendAll [] (some [kCompactMagic] :: some [kKindResponse] ::
        responseHead compactWords response has_message)).bind (compactBody response)
  decodeDescriptorResponse payload :=
    match payload with
    | magic :: kind :: type :: flags :: rest =>
      if magic = kCompactMagic ∧ kind = kKindResponse then
        decodeResponse compactWords (compactWords.many compactWords.sample).get (type :: flags :: rest)
      else decodeDescriptorResponse payload
    | _ => decodeDescriptorResponse payload

/-- A codec that packs its fields and wraps them. A response is written whole or not at all. -/
def packedProfileCodec (w : Words) (size : Format Nat) (magic : UInt8)
    (putSamples : List TelemetrySample → Option Bytes)
    (getSamples : Bytes → Option (List TelemetrySample × Bytes)) : ProfileCodec where
  encodeDescriptorQuery query :=
    if leavesQuery query.type then encodeDescriptorQuery query
    else if !namesOneSetting query then none
    else (appendAll [] (flaggedQuery w query)).bind (wrap size magic kKindQuery)
  decodeDescriptorQuery payload :=
    match unwrap size magic kKindQuery payload with
    | some inner => decodeFlagged w inner
    | none => parseDescriptorQuery payload
  encodeDescriptorResponse response :=
    if leavesResponse response.type then encodeResponsePayload response
    else
      (appendAll [] (responseHead w response (!response.message.isEmpty) ++
        responseBody w putSamples response)).bind (wrap size magic kKindResponse)
  decodeDescriptorResponse payload :=
    match unwrap size magic kKindResponse payload with
    | some inner => decodeResponse w getSamples inner
    | none => decodeDescriptorResponse payload

def varintTlvProfileCodec : ProfileCodec :=
  packedProfileCodec varintWords countVar kVarintMagicDesc (varintWords.many varintWords.sample).put
    (varintWords.many varintWords.sample).get

/-- `strtof` on a whole text, and `snprintf` with `%.3f`. -/
structure FloatText where
  tryParseFloat : Bytes → Option Float32Bits
  print : Float32Bits → Bytes

/-- A sample of the Delta Binary codec: a value that reads as a number goes as a float. -/
def putDeltaSample (floats : FloatText) (s : TelemetrySample) : Option Bytes :=
  ((u16Format.seq (deltaWords.text.seq deltaWords.text)).put (s.metric_id, s.key, s.unit)).bind fun head =>
    match floats.tryParseFloat s.value with
    | some v => ((Format.byte.seq u32Format).put (1, v)).map (head ++ ·)
    | none => ((Format.byte.seq deltaWords.text).put (0, s.value)).map (head ++ ·)

def putDeltaSamples (floats : FloatText) (samples : List TelemetrySample) : Option Bytes :=
  (count8.put samples.length).bind fun head =>
    (samples.mapM (putDeltaSample floats)).map fun items => head ++ items.flatten

def getDeltaSample (floats : FloatText) (bs : Bytes) : Option (TelemetrySample × Bytes) := do
  let ((id, key, unit), bs) ← (u16Format.seq (deltaWords.text.seq deltaWords.text)).get bs
  let (numeric, bs) ← Format.byte.get bs
  if numeric ≠ 0 then
    let (v, bs) ← u32Format.get bs
    some (⟨id, key, floats.print v, unit⟩, bs)
  else
    let (value, bs) ← deltaWords.text.get bs
    some (⟨id, key, value, unit⟩, bs)

def getDeltaSamplesFrom (floats : FloatText) : Nat → Bytes → Option (List TelemetrySample × Bytes)
  | 0, bs => some ([], bs)
  | n + 1, bs => do
    let (s, bs) ← getDeltaSample floats bs
    let (rest, bs) ← getDeltaSamplesFrom floats n bs
    some (s :: rest, bs)

def getDeltaSamples (floats : FloatText) (bs : Bytes) : Option (List TelemetrySample × Bytes) :=
  (count8.get bs).bind fun n => getDeltaSamplesFrom floats n.1 n.2

def deltaBinaryProfileCodec (floats : FloatText) : ProfileCodec :=
  packedProfileCodec deltaWords count16 kDeltaMagicDesc (putDeltaSamples floats) (getDeltaSamples floats)

/-- The ids of the built-in codecs. -/
inductive CodecId where
  | Default
  | CompactIndexed
  | PackedTlv
  | VarintTlv
  | DeltaBinary
  | CborLite
  | BinaryMap
  deriving DecidableEq

/-- `CodecRegistry::find` among the built-in codecs. -/
def CodecId.find (floats : FloatText) : CodecId → ProfileCodec
  | .Default => defaultProfileCodec
  | .CompactIndexed => compactIndexedProfileCodec
  | .PackedTlv => packedTlvProfileCodec
  | .VarintTlv => varintTlvProfileCodec
  | .DeltaBinary => deltaBinaryProfileCodec floats
  | .CborLite => cborLiteProfileCodec
  | .BinaryMap => binaryMapProfileCodec

end EspNowLink
