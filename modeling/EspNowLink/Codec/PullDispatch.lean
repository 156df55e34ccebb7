import EspNowLink.Codec.ControlCommands
import EspNowLink.Codec.DefaultQuery
import EspNowLink.Telemetry.PushCommand

open Framework

namespace EspNowLink

/-- What a master sends as a pull request. -/
inductive PullCommand where
  | push (cmd : TelemetryPushCommand)
  | query (query : DescriptorQuery)
  | control (cmd_id : UInt16)
  deriving DecidableEq

inductive PullKind where
  | Push
  | Query
  | Control
  deriving DecidableEq

namespace PullCommand

def kind : PullCommand → PullKind
  | push _ => .Push
  | query _ => .Query
  | control _ => .Control

/-- The push commands have one encoding, the others that of the active codec. -/
def encode (floats : FloatText) (id : CodecId) : PullCommand → Option Bytes
  | push cmd => encodeTelemetryPushCommand cmd
  | query q => (id.find floats).encodeDescriptorQuery q
  | control cmd_id => id.control.encodeControlCommand cmd_id

end PullCommand

/-- What a slave has bound: `telemetry_push_provider_` and `descriptor_`. -/
structure PullHandlers where
  telemetry_push_provider : Bool
  descriptor : Bool

/-- The query that `onPullRequest` finds: the active codec's, then the default parser's. -/
def queryOfRequest (codec : ProfileCodec) (payload : Bytes) : Option DescriptorQuery :=
  (codec.decodeDescriptorQuery payload).or (parseDescriptorQuery payload)

/-- `processQueuedPullRequest_` and `SlaveControlPlane::onPullRequest`: the handler that takes a
payload, and the value that it gets; `none` is the answer for an unsupported payload. -/
def dispatchPullRequest (handlers : PullHandlers) (floats : FloatText) (id : CodecId) (payload : Bytes) :
    Option PullCommand :=
  let pushed := if handlers.telemetry_push_provider then parseTelemetryPushCommand payload else none
  let queried := if handlers.descriptor then queryOfRequest (id.find floats) payload else none
  (pushed.map .push).or ((queried.map .query).or ((id.control.decodeControlCommand payload).map .control))

section Parsers

/-- The first bytes of the queries and of the commands that have an encoding of their own. -/
def queryMagics : List UInt8 :=
  [kCompactMagic, kPackedMagicDesc, kVarintMagicDesc, kDeltaMagicDesc, kCborLiteMagicDesc, kBinaryMapMagicDesc]

def controlMagics : List UInt8 :=
  [kControlMagic, kPackedMagicCtrl, kVarintMagicCtrl, kDeltaMagicCtrl, kCborLiteMagicCtrl, kBinaryMapMagicCtrl]

/-- Under another first byte a codec is the default parser. -/
theorem decodeDescriptorQuery_plain {b : UInt8} (hb : b ∉ queryMagics) (floats : FloatText) (id : CodecId)
    (rest : Bytes) : (id.find floats).decodeDescriptorQuery (b :: rest) = parseDescriptorQuery (b :: rest) := by
  simp only [queryMagics, List.mem_cons, List.not_mem_nil, or_false, not_or] at hb
  obtain ⟨hcompact, hpacked, hvarint, hdelta, hcbor, hbinary⟩ := hb
  cases id with
  | Default => rfl
  | CompactIndexed =>
    simp only [CodecId.find, compactIndexedProfileCodec]
    split
    · rename_i magic kind type flags rest heq
      cases heq
      rw [if_neg fun h => hcompact h.1]
    · rfl
  | PackedTlv =>
    simp only [CodecId.find, packedTlvProfileCodec, wrappedProfileCodec, unwrap_of_ne hpacked]
  | VarintTlv =>
    simp only [CodecId.find, varintTlvProfileCodec, packedProfileCodec, unwrap_of_ne hvarint]
  | DeltaBinary =>
    simp only [CodecId.find, deltaBinaryProfileCodec, packedProfileCodec, unwrap_of_ne hdelta]
  | CborLite =>
    simp only [CodecId.find, cborLiteProfileCodec, wrappedProfileCodec, unwrap_of_ne hcbor]
  | BinaryMap =>
    simp only [CodecId.find, binaryMapProfileCodec, wrappedProfileCodec, unwrap_of_ne hbinary]

theorem decodeControlCommand_plain {b : UInt8} (hb : b ∉ controlMagics) (id : CodecId) (rest : Bytes) :
    id.control.decodeControlCommand (b :: rest) = parseControlCommandPayload (b :: rest) := by
  simp only [controlMagics, List.mem_cons, List.not_mem_nil, or_false, not_or] at hb
  obtain ⟨hcompact, hpacked, hvarint, hdelta, hcbor, hbinary⟩ := hb
  cases id with
  | Default => rfl
  | CompactIndexed =>
    simp only [CodecId.control, compactControlCodec]
    split
    · rename_i magic kind lo hi heq
      cases heq
      rw [if_neg fun h => hcompact h.1]
    · rfl
  | PackedTlv =>
    simp only [CodecId.control, wrappedDefaultControl, wrappedControlCodec, unwrap_of_ne hpacked]
  | VarintTlv => simp only [CodecId.control, wrappedControlCodec, unwrap_of_ne hvarint]
  | DeltaBinary => simp only [CodecId.control, wrappedControlCodec, unwrap_of_ne hdelta]
  | CborLite =>
    simp only [CodecId.control, wrappedDefaultControl, wrappedControlCodec, unwrap_of_ne hcbor]
  | BinaryMap =>
    simp only [CodecId.control, wrappedDefaultControl, wrappedControlCodec, unwrap_of_ne hbinary]

/-- No field parser takes the payload. -/
structure Unread (payload : Bytes) : Prop where
  push : parseTelemetryPushCommand payload = none
  query : parseDescriptorQuery payload = none
  control : parseControlCommandPayload payload = none

theorem unread_of_overruns {payload : Bytes} (h : Tlv.Overruns payload) : Unread payload where
  push := by
    rw [parseTelemetryPushCommand, Tlv.decode_overruns h]
    split <;> rfl
  query := by
    rw [parseDescriptorQuery, Tlv.decode_overruns h]
    split <;> rfl
  control := parseControlCommandPayload_overruns h

/-- The first byte of a size is not zero, unless the size is. -/
def LeadsNonzero (size : Format Nat) : Prop :=
  ∀ n bs, 0 < n → n ≤ kMaxPayload → size.put n = some bs → ∃ b rest, bs = b :: rest ∧ 0 < b.toNat

theorem leadsNonzero_count16 : LeadsNonzero count16 := by
  intro n bs hpos hmax hput
  obtain ⟨-, hsize⟩ := Option.ite_none_right_eq_some.mp hput
  cases hsize
  refine ⟨_, _, rfl, ?_⟩
  have hmax' : n ≤ 235 := hmax
  rw [UInt16.toNat_toUInt8, UInt16.toNat_ofNat', Nat.mod_eq_of_lt (show n < 2 ^ 16 by omega)]
  omega

theorem leadsNonzero_countVar : LeadsNonzero countVar := by
  intro n bs hpos hmax hput
  obtain ⟨-, hsize⟩ := Option.ite_none_right_eq_some.mp hput
  cases hsize
  have hmax' : n ≤ 235 := hmax
  have hn : (UInt32.ofNat n).toNat = n := by
    rw [UInt32.toNat_ofNat']
    omega
  rw [hn, Format.encodeVar]
  split
  · refine ⟨_, _, rfl, ?_⟩
    rw [UInt8.toNat_ofNat']
    omega
  · refine ⟨_, _, rfl, ?_⟩
    rw [UInt8.toNat_ofNat']
    omega

/-- To the field parsers a wrapping is a field that is longer than any payload. -/
theorem wrap_overruns {size : Format Nat} (hsize : LeadsNonzero size) {magic kind : UInt8} {inner p : Bytes}
    (hinner : inner ≠ []) (h : wrap size magic kind inner = some p) : Tlv.Overruns p := by
  obtain ⟨bs, hput, hlen, rfl⟩ := wrap_eq_some.mp h
  have hmax : kMaxPayload = 235 := rfl
  obtain ⟨b, rest, rfl, hb⟩ := hsize _ _ (List.length_pos_iff.mpr hinner) (by omega) hput
  have hrest : (rest ++ inner).length < kind.toNat + 256 * b.toNat := by
    rw [List.length_append]
    rw [List.length_cons] at hlen
    omega
  exact hrest

end Parsers

section PushParser

open TelemetryPushCommand

/-- Only a magic field announces a push command. -/
theorem parseField_magic {read next : Fields} {f : Tlv} (htag : f.tag ≠ kTagMagic)
    (h : parseField read f = some next) : next.have_magic = read.have_magic := by
  have honLast : ∀ {change}, read.onLast change = some next → next.have_magic = read.have_magic := by
    intro change hlast
    obtain ⟨-, hnext⟩ := Option.ite_none_left_eq_some.mp hlast
    cases hnext
    rfl
  rw [parseField, if_neg fun hmagic => htag hmagic.1] at h
  split at h
  · cases h
    rfl
  · split at h <;> (repeat' split at h) <;> first | exact honLast h | (cases h; rfl)

theorem parseFields_magic {fs : List Tlv} (htags : ∀ f ∈ fs, f.tag ≠ kTagMagic) {read next : Fields}
    (h : fs.foldlM parseField read = some next) : next.have_magic = read.have_magic := by
  induction fs generalizing read with
  | nil =>
    cases h
    rfl
  | cons f fs ih =>
    rw [List.foldlM_cons] at h
    obtain ⟨mid, hmid, hrest⟩ := Option.bind_eq_some_iff.mp h
    have hfirst := parseField_magic (htags f (by simp)) hmid
    have hrun := ih (fun g hg => htags g (by simp [hg])) hrest
    rw [hrun, hfirst]

/-- Fields without the magic word are no push command. -/
theorem parseTelemetryPushCommand_plain {payload : Bytes} {fs : List Tlv}
    (hdecode : Tlv.decode payload = some fs) (htags : ∀ f ∈ fs, f.tag ≠ kTagMagic) :
    parseTelemetryPushCommand payload = none := by
  rw [parseTelemetryPushCommand, hdecode]
  split
  · rfl
  · rw [Option.bind_eq_bind, Option.bind_some]
    cases hread : fs.foldlM parseField {} with
    | none => rfl
    | some read =>
      have hmagic : read.have_magic = false := parseFields_magic htags hread
      simp [ofFields, hmagic]

end PushParser

section Queries

variable {floats : FloatText} {id : CodecId} {query : DescriptorQuery} {p : Bytes}

/-- The field has no meaning to the push parser's magic or to the command parser. -/
def plainField (f : Tlv) : Bool := f.tag ≠ 0x02 && (f.tag ≠ 0x10 || f.type = 0x01)

theorem queryFields_plain (query : DescriptorQuery) : (queryFields query).all plainField = true := by
  have hselector : (selectorFields query).all plainField = true := by
    unfold selectorFields
    split
    · rfl
    · split <;> rfl
  have hargument : (argumentFields query).all plainField = true := by
    have htext : ∀ (tag : UInt8) (v : Bytes), plainField (utf8Field tag v) = true →
        (textUnlessEmpty tag v).all plainField = true := by
      intro tag v htag
      unfold textUnlessEmpty
      split
      · rfl
      · simpa using htag
    cases htype : query.type <;> simp only [argumentFields, htype]
    case ListStoragePath | StatStoragePath => exact htext 0x33 query.storage_path rfl
    case ClearOtaScope => exact htext 0x34 query.ota_scope rfl
    case ApplyOtaImage => exact htext 0x35 query.ota_target rfl
    case TopologyStageGroupSet => cases query.topology_group_enabled <;> rfl
    all_goals rfl
  have hpaging : (pagingFields query).all plainField = true := by
    unfold pagingFields
    split <;> rfl
  rw [queryFields, List.all_append, List.all_append, List.all_append, hselector, hargument, hpaging]
  rfl

theorem default_query_unmistaken (hp : encodeDescriptorQuery query = some p) :
    parseTelemetryPushCommand p = none ∧ parseControlCommandPayload p = none := by
  have hplain : ∀ f ∈ queryFields query, plainField f = true := List.all_eq_true.mp (queryFields_plain query)
  simp only [plainField, Bool.and_eq_true, Bool.or_eq_true, decide_eq_true_eq] at hplain
  constructor
  · exact parseTelemetryPushCommand_plain (parse_encode hp).1 fun f hf => (hplain f hf).1
  · obtain ⟨hsend, hpayload⟩ := Option.ite_none_right_eq_some.mp hp
    cases hpayload
    refine commandIdFrom_encode ?_ ?_ _
    · intro f hf
      have hsize := List.all_eq_true.mp (Bool.and_eq_true_iff.mp hsend).2 f hf
      simp only [decide_eq_true_eq] at hsize
      omega
    · intro f hf hcommand
      rcases (hplain f hf).2 with htag | htype
      · exact htag hcommand.1
      · have hother : f.type = 0x02 := hcommand.2.1
        rw [htype] at hother
        cases hother

theorem wrap_head {size : Format Nat} {magic kind : UInt8} {inner : Bytes}
    (h : wrap size magic kind inner = some p) : ∃ rest, p = magic :: rest := by
  obtain ⟨bs, -, -, rfl⟩ := wrap_eq_some.mp h
  exact ⟨_, rfl⟩

/-- The payload has an encoding of its own, which no field parser takes. -/
def OwnForm (p : Bytes) : Prop := (∃ magic rest, p = magic :: rest ∧ magic ∉ controlMagics) ∧ Unread p

theorem ownForm_of_wrap {size : Format Nat} (hsize : LeadsNonzero size) {magic kind : UInt8} {inner : Bytes}
    (hmagic : magic ∉ controlMagics) (hinner : inner ≠ []) (h : wrap size magic kind inner = some p) :
    OwnForm p := by
  obtain ⟨rest, hhead⟩ := wrap_head h
  exact ⟨⟨magic, rest, hhead, hmagic⟩, unread_of_overruns (wrap_overruns hsize hinner h)⟩

theorem ownForm_of_wrapped {magic : UInt8} (hmagic : magic ∉ controlMagics)
    (hp : (wrappedProfileCodec magic).encodeDescriptorQuery query = some p) : OwnForm p := by
  obtain ⟨inner, hinner, hwrap⟩ := Option.bind_eq_some_iff.mp hp
  obtain ⟨rest, hrest⟩ := encodeDescriptorQuery_head hinner
  refine ownForm_of_wrap leadsNonzero_count16 hmagic ?_ hwrap
  rw [hrest]
  exact List.cons_ne_nil _ _

theorem form_of_packed {w : Words} {size : Format Nat} (hsize : LeadsNonzero size) {magic : UInt8}
    (hmagic : magic ∉ controlMagics) {putSamples : List TelemetrySample → Option Bytes}
    {getSamples : Bytes → Option (List TelemetrySample × Bytes)}
    (hp : (packedProfileCodec w size magic putSamples getSamples).encodeDescriptorQuery query = some p) :
    encodeDescriptorQuery query = some p ∨ OwnForm p := by
  simp only [packedProfileCodec] at hp
  split at hp
  · exact .inl hp
  · obtain ⟨-, hfields⟩ := Option.ite_none_left_eq_some.mp hp
    obtain ⟨inner, hinner, hwrap⟩ := Option.bind_eq_some_iff.mp hfields
    rw [appendAll_eq (Nat.zero_le _), append_eq_some] at hinner
    obtain ⟨bs, hbs, -, rfl⟩ := hinner
    obtain ⟨tail, rfl, -⟩ := readFlagged_joined hbs
    exact .inr (ownForm_of_wrap hsize hmagic (List.cons_ne_nil _ _) hwrap)

/-- A compact query without flags has four bytes; with a flag its first field is too long. -/
theorem ownForm_of_compact {tail : Bytes}
    (hlen : (kCompactMagic :: kKindQuery :: query.type.toByte :: queryFlags query :: tail).length ≤ kMaxPayload)
    (hread : readFlagged compactWords query.type.toByte (queryFlags query) tail =
      some (flagCarried query, [])) :
    OwnForm (kCompactMagic :: kKindQuery :: query.type.toByte :: queryFlags query :: tail) := by
  refine ⟨⟨kCompactMagic, _, rfl, by decide⟩, ?_⟩
  simp only [List.length_cons] at hlen
  have hmax : kMaxPayload = 235 := rfl
  by_cases hflags : queryFlags query = 0
  · have htail : tail = [] := by
      rw [hflags] at hread
      exact congrArg Prod.snd (Option.some.inj hread)
    rw [hflags, htail]
    by_cases htype : query.type.toByte = 0
    · rw [htype]
      exact ⟨by decide, by decide, by decide⟩
    · refine unread_of_overruns ?_
      have hpos : 0 < query.type.toByte.toNat := Nat.pos_of_ne_zero fun h => htype (UInt8.toNat_inj.mp h)
      show 0 < query.type.toByte.toNat + 256 * 0
      omega
  · refine unread_of_overruns ?_
    have hpos : 0 < (queryFlags query).toNat := Nat.pos_of_ne_zero fun h => hflags (UInt8.toNat_inj.mp h)
    show tail.length < query.type.toByte.toNat + 256 * (queryFlags query).toNat
    omega

theorem encodedQuery_forms (hp : (id.find floats).encodeDescriptorQuery query = some p) :
    encodeDescriptorQuery query = some p ∨ OwnForm p := by
  cases id with
  | Default => exact .inl hp
  | CompactIndexed =>
    simp only [CodecId.find, compactIndexedProfileCodec] at hp
    split at hp
    · exact .inl hp
    · obtain ⟨-, hfields⟩ := Option.ite_none_left_eq_some.mp hp
      rw [appendAll_eq (Nat.zero_le _), append_eq_some] at hfields
      obtain ⟨bs, hbs, hlen, rfl⟩ := hfields
      obtain ⟨tail, htail, rfl⟩ := Option.map_eq_some_iff.mp hbs
      obtain ⟨fields, hjoined, rfl⟩ := Option.map_eq_some_iff.mp htail
      obtain ⟨rest, rfl, hread⟩ := readFlagged_joined hjoined
      exact .inr (ownForm_of_compact (by simpa using hlen) hread)
  | PackedTlv => exact .inr (ownForm_of_wrapped (by decide) hp)
  | VarintTlv => exact form_of_packed leadsNonzero_countVar (by decide) hp
  | DeltaBinary => exact form_of_packed leadsNonzero_count16 (by decide) hp
  | CborLite => exact .inr (ownForm_of_wrapped (by decide) hp)
  | BinaryMap => exact .inr (ownForm_of_wrapped (by decide) hp)

/-- No other parser takes a query, and the default parser does not take what the codec's own refuses. -/
theorem encodedQuery_unmistaken (hp : (id.find floats).encodeDescriptorQuery query = some p) :
    parseTelemetryPushCommand p = none ∧ id.control.decodeControlCommand p = none ∧
      queryOfRequest (id.find floats) p = (id.find floats).decodeDescriptorQuery p := by
  rcases encodedQuery_forms hp with hdefault | ⟨⟨magic, rest, rfl, hmagic⟩, hunread⟩
  · obtain ⟨hpush, hcontrol⟩ := default_query_unmistaken hdefault
    obtain ⟨rest, rfl⟩ := encodeDescriptorQuery_head hdefault
    refine ⟨hpush, ?_, ?_⟩
    · rw [decodeControlCommand_plain (by decide), hcontrol]
    · rw [queryOfRequest, decodeDescriptorQuery_plain (by decide), Option.or_self]
  · refine ⟨hunread.push, ?_, ?_⟩
    · rw [decodeControlCommand_plain hmagic, hunread.control]
    · rw [queryOfRequest, hunread.query, Option.or_none]

end Queries

section Controls

variable {floats : FloatText} {id : CodecId} {cmd_id : UInt16} {p : Bytes}

/-- No parser of an earlier kind takes the payload. -/
def PassesBy (floats : FloatText) (id : CodecId) (p : Bytes) : Prop :=
  parseTelemetryPushCommand p = none ∧ queryOfRequest (id.find floats) p = none

theorem passesBy_of_plain {b : UInt8} {rest : Bytes} (hb : b ∉ queryMagics)
    (hpush : parseTelemetryPushCommand (b :: rest) = none) (hquery : parseDescriptorQuery (b :: rest) = none) :
    PassesBy floats id (b :: rest) := by
  refine ⟨hpush, ?_⟩
  rw [queryOfRequest, decodeDescriptorQuery_plain hb, hquery]
  rfl

theorem passesBy_of_wrap {size : Format Nat} (hsize : LeadsNonzero size) {magic kind : UInt8} {inner : Bytes}
    (hmagic : magic ∉ queryMagics) (hinner : inner ≠ []) (h : wrap size magic kind inner = some p) :
    PassesBy floats id p := by
  obtain ⟨rest, rfl⟩ := wrap_head h
  have hunread := unread_of_overruns (wrap_overruns hsize hinner h)
  exact passesBy_of_plain hmagic hunread.push hunread.query

theorem passesBy_of_wrappedControl {size : Format Nat} (hsize : LeadsNonzero size) {magic : UInt8}
    (hmagic : magic ∉ queryMagics) {write : UInt16 → Option Bytes} {read : Bytes → Option UInt16}
    (hwrite : ∀ inner, write cmd_id = some inner → inner ≠ [])
    (hp : (wrappedControlCodec size magic write read).encodeControlCommand cmd_id = some p) :
    PassesBy floats id p := by
  obtain ⟨inner, hinner, hwrap⟩ := Option.bind_eq_some_iff.mp hp
  exact passesBy_of_wrap hsize hmagic (hwrite inner hinner) hwrap

theorem buildControl_ne_nil (inner : Bytes) (h : some (buildControlCommandPayload cmd_id) = some inner) :
    inner ≠ [] := by
  cases h
  exact List.cons_ne_nil _ _

theorem varU16_ne_nil (inner : Bytes) (h : varU16Format.put cmd_id = some inner) : inner ≠ [] := by
  cases h
  unfold Format.encodeVar
  split <;> exact List.cons_ne_nil _ _

theorem u16_ne_nil (inner : Bytes) (h : u16Format.put cmd_id = some inner) : inner ≠ [] := by
  cases h
  exact List.cons_ne_nil _ _

/-- The command field has another value type than the field of a query's type. -/
theorem buildControl_no_query (cmd_id : UInt16) :
    parseDescriptorQuery (buildControlCommandPayload cmd_id) = none := by
  have hdecode : Tlv.decode (buildControlCommandPayload cmd_id) =
      some [u8Field 0x01 1, u16Field 0x10 cmd_id] := by
    refine Tlv.decode_encode ?_
    intro f hf
    simp only [List.mem_cons, List.not_mem_nil, or_false] at hf
    rcases hf with rfl | rfl <;> simp [u8Field, u16Field]
  have hnames : [u8Field 0x01 1, u16Field 0x10 cmd_id].any namesType = false := rfl
  rw [parseDescriptorQuery, hdecode]
  split
  · rfl
  · simp only [Option.bind_some, hnames, Bool.not_false, Bool.true_or, if_true]

theorem encodedControl_passesBy (hp : id.control.encodeControlCommand cmd_id = some p) :
    PassesBy floats id p := by
  cases id with
  | Default =>
    cases hp
    exact passesBy_of_plain (by decide) rfl (buildControl_no_query cmd_id)
  | CompactIndexed =>
    cases hp
    exact passesBy_of_plain (by decide) rfl rfl
  | PackedTlv => exact passesBy_of_wrappedControl leadsNonzero_count16 (by decide) buildControl_ne_nil hp
  | VarintTlv => exact passesBy_of_wrappedControl leadsNonzero_countVar (by decide) varU16_ne_nil hp
  | DeltaBinary => exact passesBy_of_wrappedControl leadsNonzero_count16 (by decide) u16_ne_nil hp
  | CborLite => exact passesBy_of_wrappedControl leadsNonzero_count16 (by decide) buildControl_ne_nil hp
  | BinaryMap => exact passesBy_of_wrappedControl leadsNonzero_count16 (by decide) buildControl_ne_nil hp

end Controls

section Pushes

open TelemetryPushCommand

variable {floats : FloatText} {id : CodecId} {cmd : TelemetryPushCommand} {p : Bytes}

/-- The tags of a metric mean nothing in a query. -/
def MetricTags (fs : List Tlv) : Prop := ∀ f ∈ fs, f.tag.toNat / 16 = 2

theorem metricTags_if {c : Prop} [Decidable c] {fs gs : List Tlv} (hfs : MetricTags fs) (hgs : MetricTags gs) :
    MetricTags (if c then fs else gs) := by
  split
  · exact hfs
  · exact hgs

theorem metricTags_append {fs gs : List Tlv} (hfs : MetricTags fs) (hgs : MetricTags gs) :
    MetricTags (fs ++ gs) := by
  intro f hf
  rcases List.mem_append.mp hf with hf | hf
  · exact hfs f hf
  · exact hgs f hf

theorem metricTags_single {f : Tlv} (h : f.tag.toNat / 16 = 2) : MetricTags [f] := by
  intro g hg
  rw [List.mem_singleton.mp hg, h]

theorem metricTags_nil : MetricTags [] := by
  intro f hf
  cases hf

theorem metricFields_tags {config : TelemetryPushConfig} {m : TelemetryPushMetricConfig} {fields : List Tlv}
    (h : metricFields config m = some fields) : MetricTags fields := by
  obtain ⟨-, hlen⟩ := Option.ite_none_left_eq_some.mp h
  obtain ⟨-, hfields⟩ := Option.ite_none_left_eq_some.mp hlen
  obtain rfl := Option.some.inj hfields
  have hidentity : MetricTags [identityField m] := by
    refine metricTags_single ?_
    unfold identityField
    split
    · exact show kTagMetricIndex.toNat / 16 = 2 by decide
    · exact show kTagMetricKey.toNat / 16 = 2 by decide
  have hown : MetricTags (TelemetryPushCommand.ownFields config m) := by
    unfold TelemetryPushCommand.ownFields
    refine metricTags_append (metricTags_append (metricTags_append (metricTags_append ?_ ?_) ?_) ?_) ?_
    · exact metricTags_if metricTags_nil (metricTags_single (by decide))
    · exact metricTags_if metricTags_nil (metricTags_single (show kTagMetricMode.toNat / 16 = 2 by decide))
    · exact metricTags_if (metricTags_single (show kTagMetricIntervalMs.toNat / 16 = 2 by decide)) metricTags_nil
    · exact metricTags_if (metricTags_single (show kTagMetricMinGapMs.toNat / 16 = 2 by decide)) metricTags_nil
    · exact metricTags_if (metricTags_single (show kTagMetricDelta.toNat / 16 = 2 by decide)) metricTags_nil
  exact metricTags_append hidentity hown

theorem mapM_metricFields_tags {config : TelemetryPushConfig} {metrics : List TelemetryPushMetricConfig}
    {fields : List (List Tlv)} (h : metrics.mapM (metricFields config) = some fields) :
    MetricTags fields.flatten := by
  induction metrics generalizing fields with
  | nil =>
    obtain rfl := Option.some.inj h
    exact metricTags_nil
  | cons m metrics ih =>
    rw [List.mapM_cons] at h
    obtain ⟨first, hfirst, h⟩ := Option.bind_eq_some_iff.mp h
    obtain ⟨rest, hrest, h⟩ := Option.bind_eq_some_iff.mp h
    obtain rfl := Option.some.inj h
    exact metricTags_append (metricFields_tags hfirst) (ih hrest)

theorem foldl_metricTags {fs : List Tlv} (h : MetricTags fs) (read : DescriptorQuery) :
    fs.foldl readQueryField read = read := by
  induction fs generalizing read with
  | nil => rfl
  | cons f fs ih =>
    have hstep : readQueryField read f = read := by simp [readQueryField, h f (by simp)]
    rw [List.foldl_cons, hstep]
    exact ih (fun g hg => h g (by simp [hg])) read

/-- What an encoded push command is made of: its head, the stream if there is one, and metric fields. -/
theorem commandFields_eq {fields : List Tlv} (h : cmd.commandFields = some fields) :
    ∃ stream metrics, fields = headFields cmd.action ++ stream ++ metrics ∧
      (stream = [] ∨ stream = streamFields cmd.config) ∧ MetricTags metrics ∧
      ∀ f ∈ metrics, f.value.length < 65536 := by
  obtain ⟨-, hrest⟩ := Option.ite_none_left_eq_some.mp h
  split at hrest
  · cases hrest
    exact ⟨[], [], by simp, .inl rfl, metricTags_nil, by simp⟩
  · obtain ⟨metrics, hmetrics, hfields⟩ := Option.bind_eq_some_iff.mp hrest
    cases hfields
    obtain ⟨-, -, hsmall⟩ := parse_metrics (p := withStream cmd.action cmd.config) hmetrics rfl rfl rfl
    exact ⟨streamFields cmd.config, metrics.flatten, rfl, .inr rfl, mapM_metricFields_tags hmetrics, hsmall⟩

/-- The query type that an action byte names. -/
def queryTypeOf (action : TelemetryPushAction) : DescriptorQueryType := .ofByte action.toByte

theorem readQueryFields_push {fields : List Tlv} (h : cmd.commandFields = some fields) :
    (readQueryFields fields).type = queryTypeOf cmd.action := by
  obtain ⟨stream, metrics, rfl, hstream, hmetrics, -⟩ := commandFields_eq h
  have hhead : readQueryFields (headFields cmd.action) = { type := queryTypeOf cmd.action } := by
    cases cmd.action <;> decide
  rw [readQueryFields_append, foldl_metricTags hmetrics, readQueryFields_append, hhead]
  rcases hstream with rfl | rfl
  · rfl
  · simp [streamFields, readQueryField, readHeadField, textOf, u8Field, u32Field, kTagStreamId, kTagMode,
      kTagIntervalMs, kTagMinGapMs]
    rfl

theorem commandFields_small {fields : List Tlv} (h : cmd.commandFields = some fields) :
    8 ≤ Tlv.sizes fields ∧ ∀ f ∈ fields, f.value.length < 65536 := by
  obtain ⟨stream, metrics, rfl, hstream, -, hsmall⟩ := commandFields_eq h
  constructor
  · rw [Tlv.sizes_append, Tlv.sizes_append, headFields_sizes]
    omega
  · intro f hf
    rcases List.mem_append.mp hf with hf | hf
    · rcases List.mem_append.mp hf with hf | hf
      · exact headFields_small f hf
      · rcases hstream with rfl | rfl
        · cases hf
        · exact streamFields_small f hf
    · exact hsmall f hf

/-- To the default parser every push command is a query. -/
theorem push_as_query (hp : encodeTelemetryPushCommand cmd = some p) :
    ∃ query, parseDescriptorQuery p = some query ∧ query.type = queryTypeOf cmd.action := by
  obtain ⟨fields, hfields, rfl⟩ := Option.map_eq_some_iff.mp hp
  obtain ⟨hlong, hsmall⟩ := commandFields_small hfields
  have htype := readQueryFields_push hfields
  have hnames : fields.any namesType = true := by
    obtain ⟨stream, metrics, rfl, -⟩ := commandFields_eq hfields
    rw [List.any_append, List.any_append]
    rfl
  have hone : namesOneSetting (readQueryFields fields) = true := by
    unfold namesOneSetting
    rw [htype]
    cases cmd.action <;> rfl
  have harguments : argumentsValid (readQueryFields fields) = true := by
    unfold argumentsValid
    rw [htype]
    cases cmd.action <;> rfl
  have hknown : (readQueryFields fields).type ≠ .Unknown := by
    rw [htype]
    cases cmd.action <;> decide
  refine ⟨withKnownMask (readQueryFields fields), ?_, ?_⟩
  · rw [parseDescriptorQuery, if_neg (by rw [Tlv.encode_length]; omega), Tlv.decode_encode hsmall,
      Option.bind_some]
    simp [hnames, hone, harguments, hknown]
  · rw [(checks_withKnownMask _).1, htype]

theorem push_no_control (hp : encodeTelemetryPushCommand cmd = some p) :
    parseControlCommandPayload p = none := by
  obtain ⟨fields, hfields, rfl⟩ := Option.map_eq_some_iff.mp hp
  refine commandIdFrom_encode (commandFields_small hfields).2 ?_ _
  obtain ⟨stream, metrics, rfl, hstream, hmetrics, -⟩ := commandFields_eq hfields
  intro f hf hcommand
  rcases List.mem_append.mp hf with hf | hf
  · have haction : ((headFields cmd.action ++ stream).all fun f => f.tag ≠ 0x10 || f.type = 0x01) = true := by
      rcases hstream with rfl | rfl <;> rfl
    have hfield := List.all_eq_true.mp haction f hf
    simp [hcommand.1, hcommand.2.1] at hfield
  · have htag := hmetrics f hf
    rw [hcommand.1] at htag
    exact absurd htag (by decide)

end Pushes

section Kept

/-- The values of a metric that come back: an index where it is used, a time unless the stream sets
one, a threshold exactly where changes are reported, and a delta with it. -/
structure MetricKept (config : TelemetryPushConfig) (m : TelemetryPushMetricConfig) : Prop where
  index : m.has_metric_index = true ∨ m.metric_index = 0
  interval : m.interval_ms = 0 → config.interval_ms = 0
  gap : m.min_report_gap_ms = 0 → config.min_report_gap_ms = 0
  threshold : m.use_threshold = (m.mode != .Periodic)
  delta : m.mode = .Periodic → m.delta_abs = 0

theorem carriedMetric_eq_iff {config : TelemetryPushConfig} {m : TelemetryPushMetricConfig} :
    TelemetryPushCommand.carriedMetric config m = m ↔ MetricKept config m := by
  obtain ⟨key, has_index, index, enabled, mode, interval, gap, threshold, delta⟩ := m
  simp only [TelemetryPushCommand.carriedMetric, TelemetryPushMetricConfig.mk.injEq, true_and]
  constructor
  · rintro ⟨hindex, hinterval, hgap, hthreshold, hdelta⟩
    refine ⟨?_, ?_, ?_, hthreshold.symm, ?_⟩
    · cases has_index with
      | true => exact .inl rfl
      | false => exact .inr hindex.symm
    · intro hzero
      have hzero : interval = 0 := hzero
      rwa [if_pos hzero, hzero] at hinterval
    · intro hzero
      have hzero : gap = 0 := hzero
      rwa [if_pos hzero, hzero] at hgap
    · intro hmode
      rw [if_neg fun h => h.2 hmode] at hdelta
      exact hdelta.symm
  · rintro ⟨hindex, hinterval, hgap, hthreshold, hdelta⟩
    dsimp only at hindex hinterval hgap hthreshold hdelta
    refine ⟨?_, ?_, ?_, hthreshold.symm, ?_⟩
    · rcases hindex with rfl | rfl
      · rfl
      · cases has_index <;> rfl
    · by_cases hzero : interval = 0
      · rw [if_pos hzero, hinterval hzero, hzero]
      · rw [if_neg hzero]
    · by_cases hzero : gap = 0
      · rw [if_pos hzero, hgap hzero, hzero]
      · rw [if_neg hzero]
    · by_cases hmode : mode = .Periodic
      · rw [if_neg fun h => h.2 hmode, hdelta hmode]
      · have hset : threshold = true := hthreshold.trans (bne_iff_ne.mpr hmode)
        rw [if_pos ⟨hset, hmode⟩]

/-- A push command that has its metrics if it needs them, and comes back as it is. -/
def PushKept (cmd : TelemetryPushCommand) : Prop :=
  if cmd.action.configures then
    cmd.config.metrics ≠ [] ∧ cmd.config.enabled = true ∧ ∀ m ∈ cmd.config.metrics, MetricKept cmd.config m
  else cmd.config = {}

theorem pushKept_iff {cmd : TelemetryPushCommand} :
    PushKept cmd ↔ (cmd.action.configures = true → cmd.config.metrics ≠ []) ∧ cmd.carried = cmd := by
  obtain ⟨action, config⟩ := cmd
  unfold PushKept TelemetryPushCommand.carried
  cases hconfigures : action.configures with
  | false =>
    simp only [Bool.false_eq_true, if_false, false_imp_iff, true_and, TelemetryPushCommand.mk.injEq]
    exact eq_comm
  | true =>
    obtain ⟨stream_id, enabled, mode, interval, gap, metrics⟩ := config
    simp only [if_true, true_imp_iff, TelemetryPushCommand.mk.injEq, TelemetryPushConfig.mk.injEq,
      true_and]
    have hmap : metrics.map (TelemetryPushCommand.carriedMetric
        ⟨stream_id, enabled, mode, interval, gap, metrics⟩) = metrics ↔
        ∀ m ∈ metrics, MetricKept ⟨stream_id, enabled, mode, interval, gap, metrics⟩ m := by
      conv_lhs => rhs; rw [← List.map_id metrics]
      rw [List.map_inj_left]
      simp only [id_eq, carriedMetric_eq_iff]
    rw [hmap]
    constructor
    · rintro ⟨hne, henabled, hmetrics⟩
      exact ⟨hne, henabled.symm, hmetrics⟩
    · rintro ⟨hne, henabled, hmetrics⟩
      exact ⟨hne, henabled.symm, hmetrics⟩

/-- The fields that the flags carry are all that the query has. -/
structure FlagKept (query : DescriptorQuery) : Prop where
  time : query.time_epoch_s.toNat < 2 ^ 32
  id : query.has_setting_id = true ∨ query.setting_id = 0
  page : query.paged = true ∨ query.cursor = 0 ∧ query.page_size = 0
  maintenance : query.toMaintenanceQuery = {}
  topology : query.toTopologyQuery = {}

theorem flagCarried_eq_iff {query : DescriptorQuery} : flagCarried query = query ↔ FlagKept query := by
  constructor
  · intro h
    refine ⟨?_, ?_, ?_, ?_, ?_⟩
    · have htime := congrArg DescriptorQuery.time_epoch_s h
      exact (epoch_kept _).mp htime
    · have hid := congrArg DescriptorQuery.setting_id h
      cases hset : query.has_setting_id with
      | true => exact .inl rfl
      | false =>
        simp only [flagCarried, hset, Bool.false_eq_true, if_false] at hid
        exact .inr hid.symm
    · have hcursor := congrArg DescriptorQuery.cursor h
      have hsize := congrArg DescriptorQuery.page_size h
      cases hpaged : query.paged with
      | true => exact .inl rfl
      | false =>
        simp only [flagCarried, hpaged, Bool.false_eq_true, if_false] at hcursor hsize
        exact .inr ⟨hcursor.symm, hsize.symm⟩
    · exact (congrArg DescriptorQuery.toMaintenanceQuery h).symm
    · exact (congrArg DescriptorQuery.toTopologyQuery h).symm
  · intro h
    have htime := (epoch_kept query.time_epoch_s).mpr h.time
    obtain ⟨-, hid, hpage, hmaintenance, htopology⟩ := h
    obtain ⟨maintenance, topology, type, key, has_id, setting_id, value, time, paged, cursor, page_size⟩ := query
    dsimp only at hid hpage hmaintenance htopology htime
    subst hmaintenance htopology
    simp only [flagCarried, htime, DescriptorQuery.mk.injEq, true_and]
    refine ⟨?_, ?_, ?_⟩
    · rcases hid with rfl | rfl
      · rfl
      · cases has_id <;> rfl
    · rcases hpage with rfl | ⟨rfl, -⟩
      · rfl
      · cases paged <;> rfl
    · rcases hpage with rfl | ⟨-, rfl⟩
      · rfl
      · cases paged <;> rfl

/-- The queries that a codec writes with flags. -/
def CodecId.writesFlags (id : CodecId) (type : DescriptorQueryType) : Bool :=
  match id with
  | .CompactIndexed => !compactLeavesQuery type
  | .VarintTlv | .DeltaBinary => !leavesQuery type
  | _ => false

/-- The queries that a codec gives back as they are. -/
def QueryKept (id : CodecId) (query : DescriptorQuery) : Prop :=
  query.type ≠ .Unknown ∧
    if id.writesFlags query.type then (query.type = .SetSetting → query.value ≠ []) ∧ FlagKept query
    else argumentsValid query = true ∧ Kept query ∧ ownFields query = query

variable {floats : FloatText} {id : CodecId} {query : DescriptorQuery} {p : Bytes}

theorem ownFields_ownFields (query : DescriptorQuery) : ownFields (ownFields query) = ownFields query := by
  cases htype : query.type <;> cases hid : query.has_setting_id <;> cases hpaged : query.paged <;>
    simp [ownFields, ownMaintenance, ownTopology, selectsSetting, supportsPaging, htype, hid, hpaged]

theorem default_kept_iff (hp : encodeDescriptorQuery query = some p) : parseDescriptorQuery p = some query ↔
    query.type ≠ .Unknown ∧ argumentsValid query = true ∧ Kept query ∧ ownFields query = query := by
  rw [parse_sent hp]
  constructor
  · intro h
    obtain ⟨⟨htype, hvalid⟩, hsame⟩ := Option.ite_none_right_eq_some.mp h
    have hsent : ownFields (asSent query) = query := Option.some.inj hsame
    have hown : ownFields query = query := by
      have hagain := ownFields_ownFields (asSent query)
      rwa [hsent] at hagain
    have hkept : Kept query := ownFields_asSent_iff.mp (hsent.trans hown.symm)
    rw [hkept.argumentsValid] at hvalid
    exact ⟨htype, hvalid, hkept, hown⟩
  · rintro ⟨htype, hvalid, hkept, hown⟩
    rw [if_pos ⟨htype, hkept.argumentsValid.trans hvalid⟩, ownFields_asSent_iff.mpr hkept, hown]

theorem decodeFlagged_iff {w : Words} {bs : Bytes} (hbs : joined (flaggedQuery w query) = some bs)
    (hnames : namesOneSetting query = true) : decodeFlagged w bs = some query ↔
    query.type ≠ .Unknown ∧ (query.type = .SetSetting → query.value ≠ []) ∧ FlagKept query := by
  obtain ⟨tail, rfl, hread⟩ := readFlagged_joined hbs
  have hcarried : namesOneSetting (flagCarried query) = true := hnames
  have hvalid : flaggedValid (flagCarried query) [] = true ↔
      query.type ≠ .Unknown ∧ (query.type = .SetSetting → query.value ≠ []) := by
    have htype : (flagCarried query).type = query.type := rfl
    have hvalue : (flagCarried query).value = query.value := rfl
    simp [flaggedValid, hcarried, htype, hvalue, Decidable.imp_iff_not_or]
  simp only [decodeFlagged, hread, Option.bind_some, Option.ite_none_right_eq_some, hvalid,
    Option.some.injEq, flagCarried_eq_iff, and_assoc]

theorem packed_kept_iff {w : Words} {size : Format Nat} {magic : UInt8}
    {putSamples : List TelemetrySample → Option Bytes}
    {getSamples : Bytes → Option (List TelemetrySample × Bytes)} (hmagic : (0x01 : UInt8) ≠ magic)
    (hp : (packedProfileCodec w size magic putSamples getSamples).encodeDescriptorQuery query = some p) :
    (packedProfileCodec w size magic putSamples getSamples).decodeDescriptorQuery p = some query ↔
    query.type ≠ .Unknown ∧
      if !leavesQuery query.type then (query.type = .SetSetting → query.value ≠ []) ∧ FlagKept query
      else argumentsValid query = true ∧ Kept query ∧ ownFields query = query := by
  simp only [packedProfileCodec] at hp ⊢
  cases hleaves : leavesQuery query.type with
  | true =>
    rw [hleaves, if_pos rfl] at hp
    have hkept := default_kept_iff hp
    obtain ⟨rest, rfl⟩ := encodeDescriptorQuery_head hp
    rw [unwrap_of_ne hmagic]
    exact hkept
  | false =>
    rw [hleaves, if_neg Bool.false_ne_true] at hp
    obtain ⟨hnames, hfields⟩ := Option.ite_none_left_eq_some.mp hp
    obtain ⟨inner, hinner, hwrap⟩ := Option.bind_eq_some_iff.mp hfields
    rw [appendAll_eq (Nat.zero_le _), append_eq_some] at hinner
    obtain ⟨bs, hbs, -, rfl⟩ := hinner
    rw [unwrap_wrap hwrap]
    exact decodeFlagged_iff hbs (by simpa using hnames)

theorem wrapped_kept_iff {magic : UInt8}
    (hp : (wrappedProfileCodec magic).encodeDescriptorQuery query = some p) :
    (wrappedProfileCodec magic).decodeDescriptorQuery p = some query ↔
    query.type ≠ .Unknown ∧ argumentsValid query = true ∧ Kept query ∧ ownFields query = query := by
  obtain ⟨inner, hinner, hwrap⟩ := Option.bind_eq_some_iff.mp hp
  simp only [wrappedProfileCodec, unwrap_wrap hwrap]
  exact default_kept_iff hinner

theorem compact_kept_iff (hp : compactIndexedProfileCodec.encodeDescriptorQuery query = some p) :
    compactIndexedProfileCodec.decodeDescriptorQuery p = some query ↔ QueryKept .CompactIndexed query := by
  by_cases hleaves : compactLeavesQuery query.type = true
  · have hflags : CodecId.CompactIndexed.writesFlags query.type = false := by
      simp [CodecId.writesFlags, hleaves]
    simp only [compactIndexedProfileCodec, hleaves, if_true] at hp
    rw [QueryKept, hflags, if_neg Bool.false_ne_true]
    have hkept := default_kept_iff hp
    obtain ⟨rest, rfl⟩ := encodeDescriptorQuery_head hp
    have hplain := decodeDescriptorQuery_plain (b := 0x01) (by decide) noFloats .CompactIndexed rest
    simp only [CodecId.find] at hplain
    rw [hplain]
    exact hkept
  · have hflags : CodecId.CompactIndexed.writesFlags query.type = true := by
      simp [CodecId.writesFlags, hleaves]
    simp only [compactIndexedProfileCodec, if_neg hleaves] at hp
    rw [QueryKept, hflags, if_pos rfl]
    obtain ⟨hnames, hfields⟩ := Option.ite_none_left_eq_some.mp hp
    rw [appendAll_eq (Nat.zero_le _), append_eq_some] at hfields
    obtain ⟨bs, hbs, -, rfl⟩ := hfields
    obtain ⟨tail, htail, rfl⟩ := Option.map_eq_some_iff.mp hbs
    obtain ⟨fields, hjoined, rfl⟩ := Option.map_eq_some_iff.mp htail
    have hdecode := decodeFlagged_iff hjoined (by simpa using hnames)
    obtain ⟨rest, rfl, -⟩ := readFlagged_joined hjoined
    have htopology : carriesTopology query.type = false := by
      cases htype : query.type <;> simp [compactLeavesQuery, leavesQuery, carriesTopology, htype] at hleaves ⊢
    have hread : compactIndexedProfileCodec.decodeDescriptorQuery
        (kCompactMagic :: kKindQuery :: query.type.toByte :: queryFlags query :: rest) =
        (decodeFlagged compactWords (query.type.toByte :: queryFlags query :: rest)).filter fun q =>
          !carriesTopology q.type := rfl
    show compactIndexedProfileCodec.decodeDescriptorQuery
        (kCompactMagic :: kKindQuery :: query.type.toByte :: queryFlags query :: rest) = some query ↔ _
    rw [hread, Option.filter_eq_some_iff, hdecode]
    simp [htopology]

theorem query_kept_iff (hp : (id.find floats).encodeDescriptorQuery query = some p) :
    (id.find floats).decodeDescriptorQuery p = some query ↔ QueryKept id query := by
  cases id with
  | Default => exact default_kept_iff hp
  | CompactIndexed => exact compact_kept_iff hp
  | PackedTlv => exact wrapped_kept_iff hp
  | VarintTlv => exact packed_kept_iff (by decide) hp
  | DeltaBinary => exact packed_kept_iff (by decide) hp
  | CborLite => exact wrapped_kept_iff hp
  | BinaryMap => exact wrapped_kept_iff hp

end Kept

section Dispatch

open TelemetryPushCommand

variable {handlers : PullHandlers} {floats : FloatText} {id : CodecId} {p : Bytes}

/-- The push command has the metrics that its action needs. -/
def Supplied (cmd : TelemetryPushCommand) : Prop := cmd.action.configures = true → cmd.config.metrics ≠ []

/-- The encoder writes a start without metrics; the parser does not take it. -/
theorem parse_unsupplied {cmd : TelemetryPushCommand} (hp : encodeTelemetryPushCommand cmd = some p)
    (h : ¬ Supplied cmd) : parseTelemetryPushCommand p = none := by
  obtain ⟨fields, hfields, rfl⟩ := Option.map_eq_some_iff.mp hp
  obtain ⟨hconfigures, hempty⟩ : cmd.action.configures = true ∧ cmd.config.metrics = [] := by
    simpa [Supplied] using h
  have hsmall := (commandFields_small hfields).2
  have heq : fields = headFields cmd.action ++ streamFields cmd.config := by
    obtain ⟨-, hrest⟩ := Option.ite_none_left_eq_some.mp hfields
    rw [hconfigures, hempty] at hrest
    have hlist := Option.some.inj hrest
    simpa using hlist.symm
  have hread : fields.foldlM parseField {} = some (withStream cmd.action cmd.config) := by
    rw [heq, List.foldlM_append, parse_head]
    exact parse_stream cmd.config cmd.action
  have haction : cmd.action = .Start ∨ cmd.action = .Update := by
    simpa [TelemetryPushAction.configures] using hconfigures
  rw [parseTelemetryPushCommand, Tlv.decode_encode hsmall]
  split
  · rfl
  · rw [Option.bind_eq_bind, Option.bind_some, hread]
    simp [ofFields, withStream, TelemetryPushAction.ofByte_toByte, haction]

theorem dispatch_push {cmd : TelemetryPushCommand} (hp : encodeTelemetryPushCommand cmd = some p)
    (hprovider : handlers.telemetry_push_provider = true) (h : Supplied cmd) :
    dispatchPullRequest handlers floats id p = some (.push cmd.carried) := by
  rw [dispatchPullRequest, hprovider, TelemetryPushCommand.parse_encode hp h]
  rfl

/-- A push command that no push handler takes is handled as a query. -/
theorem dispatch_push_strays {cmd : TelemetryPushCommand} (hp : encodeTelemetryPushCommand cmd = some p)
    (h : ¬ (handlers.telemetry_push_provider = true ∧ Supplied cmd)) :
    ∃ query, query.type = queryTypeOf cmd.action ∧ dispatchPullRequest handlers floats id p =
      if handlers.descriptor then some (.query query) else none := by
  have hpushed : (if handlers.telemetry_push_provider then parseTelemetryPushCommand p else none) = none := by
    split
    · rename_i hprovider
      exact parse_unsupplied hp fun hsupplied => h ⟨hprovider, hsupplied⟩
    · rfl
  obtain ⟨query, hquery, htype⟩ := push_as_query hp
  have hcontrol := push_no_control hp
  obtain ⟨rest, rfl⟩ : ∃ rest, p = 0x01 :: rest := by
    obtain ⟨fields, hfields, rfl⟩ := Option.map_eq_some_iff.mp hp
    obtain ⟨stream, metrics, rfl, -⟩ := commandFields_eq hfields
    exact ⟨_, rfl⟩
  have hfound : queryOfRequest (id.find floats) (0x01 :: rest) = some query := by
    rw [queryOfRequest, decodeDescriptorQuery_plain (by decide), hquery]
    rfl
  refine ⟨query, htype, ?_⟩
  rw [dispatchPullRequest, hpushed, hfound, decodeControlCommand_plain (by decide), hcontrol]
  cases handlers.descriptor <;> rfl

theorem dispatch_query {query : DescriptorQuery} (hp : (id.find floats).encodeDescriptorQuery query = some p) :
    dispatchPullRequest handlers floats id p =
      if handlers.descriptor then ((id.find floats).decodeDescriptorQuery p).map .query else none := by
  obtain ⟨hpush, hcontrol, hquery⟩ := encodedQuery_unmistaken hp
  rw [dispatchPullRequest, hpush, hcontrol, hquery, ite_self]
  cases handlers.descriptor <;> simp

theorem dispatch_control {cmd_id : UInt16} (hp : id.control.encodeControlCommand cmd_id = some p) :
    dispatchPullRequest handlers floats id p = some (.control cmd_id) := by
  obtain ⟨hpush, hquery⟩ : PassesBy floats id p := encodedControl_passesBy hp
  rw [dispatchPullRequest, hpush, hquery, control_decode_encode hp, ite_self, ite_self]
  rfl

/-- The handler of the command's own kind is there, and the command comes back as it is. -/
def Arrives (handlers : PullHandlers) (id : CodecId) : PullCommand → Prop
  | .push cmd => handlers.telemetry_push_provider = true ∧ PushKept cmd
  | .query query => handlers.descriptor = true ∧ QueryKept id query
  | .control _ => True

/-- The commands that end with the handler of another kind. -/
def Strays (handlers : PullHandlers) : PullCommand → Prop
  | .push cmd => handlers.descriptor = true ∧ ¬ (handlers.telemetry_push_provider = true ∧ Supplied cmd)
  | .query _ | .control _ => False

/-- No parser of an earlier kind takes the payload. -/
def PassedOver (floats : FloatText) (id : CodecId) (p : Bytes) : PullKind → Prop
  | .Push => True
  | .Query => parseTelemetryPushCommand p = none
  | .Control => PassesBy floats id p

end Dispatch

/-- A pull request is handled as what was sent exactly when its value comes back whole and, for a start or
an update of a telemetry stream, there are metrics in it: without them the push parser does not take it,
and it is handled as a query. No parser of an earlier kind ever takes a payload. -/
theorem pull_request_told_apart_iff (handlers : PullHandlers) (floats : FloatText) (id : CodecId)
    (command : PullCommand) (p : Bytes) (hp : command.encode floats id = some p) :
    (dispatchPullRequest handlers floats id p = some command ↔ Arrives handlers id command) ∧
    ((∃ other, dispatchPullRequest handlers floats id p = some other ∧ other.kind ≠ command.kind) ↔
      Strays handlers command) ∧
    PassedOver floats id p command.kind := by
  cases command with
  | push cmd =>
    have hencode : encodeTelemetryPushCommand cmd = some p := hp
    by_cases htaken : handlers.telemetry_push_provider = true ∧ Supplied cmd
    · have hdispatch : dispatchPullRequest handlers floats id p = some (.push cmd.carried) :=
        dispatch_push hencode htaken.1 htaken.2
      refine ⟨?_, ?_, trivial⟩
      · have hkept : PushKept cmd ↔ cmd.carried = cmd := by
          rw [pushKept_iff]
          exact and_iff_right htaken.2
        rw [hdispatch]
        simp [Arrives, hkept, htaken.1]
      · simp [hdispatch, Strays, htaken, PullCommand.kind]
    · obtain ⟨query, -, hdispatch⟩ : ∃ query, query.type = queryTypeOf cmd.action ∧
          dispatchPullRequest handlers floats id p =
            if handlers.descriptor then some (.query query) else none :=
        dispatch_push_strays hencode htaken
      refine ⟨?_, ?_, trivial⟩
      · have hlost : ¬ Arrives handlers id (.push cmd) := fun h => htaken ⟨h.1, (pushKept_iff.mp h.2).1⟩
        rw [hdispatch]
        cases handlers.descriptor <;> simp [hlost]
      · rw [hdispatch]
        cases hdescriptor : handlers.descriptor <;> simp [Strays, hdescriptor, htaken, PullCommand.kind]
  | query query =>
    have hencode : (id.find floats).encodeDescriptorQuery query = some p := hp
    have hdispatch : dispatchPullRequest handlers floats id p =
        if handlers.descriptor then ((id.find floats).decodeDescriptorQuery p).map .query else none :=
      dispatch_query hencode
    refine ⟨?_, ?_, (encodedQuery_unmistaken hencode).1⟩
    · rw [hdispatch]
      cases hdescriptor : handlers.descriptor with
      | true => simp [Arrives, hdescriptor, ← query_kept_iff hencode]
      | false => simp [Arrives, hdescriptor]
    · rw [hdispatch]
      cases handlers.descriptor with
      | true =>
        simp only [if_true, Strays, iff_false]
        rintro ⟨other, hother, hkind⟩
        obtain ⟨q, -, rfl⟩ := Option.map_eq_some_iff.mp hother
        exact hkind rfl
      | false => simp [Strays]
  | control cmd_id =>
    have hencode : id.control.encodeControlCommand cmd_id = some p := hp
    have hdispatch : dispatchPullRequest handlers floats id p = some (.control cmd_id) :=
      dispatch_control hencode
    refine ⟨?_, ?_, encodedControl_passesBy hencode⟩
    · simp [hdispatch, Arrives]
    · simp [hdispatch, Strays, PullCommand.kind]

/-- A slave that streams telemetry and describes itself. -/
def fullSlave : PullHandlers := ⟨true, true⟩

/-- A start that names one metric. -/
def startOne : PullCommand :=
  .push { action := .Start, config := { metrics := [{ key := [116], interval_ms := 500
                                                      min_report_gap_ms := 200, use_threshold := true }] } }

theorem startOne_told_apart :
    let p := (startOne.encode noFloats .VarintTlv).getD []
    (dispatchPullRequest fullSlave noFloats .VarintTlv p = some startOne ↔
      Arrives fullSlave .VarintTlv startOne) ∧
    ((∃ other, dispatchPullRequest fullSlave noFloats .VarintTlv p = some other ∧
      other.kind ≠ startOne.kind) ↔ Strays fullSlave startOne) ∧
    PassedOver noFloats .VarintTlv p startOne.kind :=
  pull_request_told_apart_iff fullSlave noFloats .VarintTlv startOne _ (by decide +kernel)

/-- A start that names no metric. -/
def startNone : PullCommand := .push { action := .Start }

/-- The slave answers it with its device record. -/
theorem startNone_strays : ∃ p query, startNone.encode noFloats .Default = some p ∧
    dispatchPullRequest fullSlave noFloats .Default p = some (.query query) ∧ query.type = .GetDevice ∧
    dispatchPullRequest fullSlave noFloats .Default p ≠ some startNone := by
  refine ⟨(startNone.encode noFloats .Default).getD [],
    { type := .GetDevice, has_setting_id := true, setting_id := 1, time_epoch_s := 200 }, ?_, ?_, rfl, ?_⟩
  · decide +kernel
  · decide +kernel
  · decide +kernel

end EspNowLink
