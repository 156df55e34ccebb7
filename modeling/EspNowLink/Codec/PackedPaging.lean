import EspNowLink.Codec.PackedFrames
import EspNowLink.Codec.PagedFetch

open Framework

namespace EspNowLink

/-- The bytes of an item of a list; the packed codecs leave the archive to the default encoder. -/
def DeviceListKind.size (s : WordSizes) : (kind : DeviceListKind) → kind.Item → Nat
  | .Capabilities => s.capability
  | .Telemetry => s.metric
  | .Settings => s.setting
  | .OtaManifest => fun e => Tlv.sizes (otaEntryFields e)

/-- The bytes of the frame that holds the page at `c`. -/
def pageFrame (s : WordSizes) (kind : DeviceListKind) (full : List kind.Item) (message : Bytes)
    (page_size : UInt8) (c : Nat) : Nat :=
  s.frame (s.head (pageAt kind full message page_size c) +
    (s.count (pageItemsAt kind full page_size c).length +
      ((pageItemsAt kind full page_size c).map (kind.size s)).sum))

/-- Every page of the list fits a frame, a 16-bit cursor reaches it, and no text of the list is clipped. -/
structure PagesFit (s : WordSizes) (kind : DeviceListKind) (full : List kind.Item) (message : Bytes)
    (page_size : UInt8) : Prop where
  pages : ∀ k, OnPage full.length (pageLength page_size) 0 k →
    k * pageLength page_size < 65536 ∧
      pageFrame s kind full message page_size (k * pageLength page_size) ≤ kMaxPayload
  unclipped : ∀ x ∈ full, kind.clip x = x

/-- The integers of a codec and its length fields take five bytes at most. -/
structure WordSizes.Short (s : WordSizes) : Prop where
  u8 : ∀ v, s.u8 v ≤ 5
  u16 : ∀ v, s.u16 v ≤ 5
  size : ∀ n, s.size n ≤ 5

theorem deltaSizes_short : deltaSizes.Short := by
  constructor <;> (intro v; simp [deltaSizes])

theorem varintSizes_short : varintSizes.Short :=
  ⟨fun _ => Format.varSize_le 4 _, fun _ => Format.varSize_le 4 _, Format.varSize_le 4⟩

theorem listQuery_roundTrips {kind : DeviceListKind} (hkind : kind ≠ .OtaManifest) (page_size : UInt8)
    (cursor : UInt16) : RoundTrips (listQuery kind page_size cursor) := by
  have hflagged : flaggedWhole (listQuery kind page_size cursor).type = true := by
    cases kind
    case OtaManifest => exact absurd rfl hkind
    all_goals rfl
  have hencode : encodeDescriptorQuery (listQuery kind page_size cursor) =
      some (Tlv.encode (queryFields (listQuery kind page_size cursor))) := by
    refine if_pos ?_
    cases kind <;> simp [listQuery, DeviceListKind.query, queryFields, selectorFields, argumentFields,
      pagingFields, namesOneSetting, selectsSetting, supportsPaging, u8Field, u16Field, boolField, le16]
  obtain ⟨hfields, hlength⟩ := parse_encode hencode
  have hread : readQueryFields (queryFields (listQuery kind page_size cursor)) =
      listQuery kind page_size cursor := by
    rw [readQueryFields_flagged hflagged]
    cases kind
    case OtaManifest => exact absurd rfl hkind
    all_goals rfl
  rw [RoundTrips, hencode, Option.bind_some, parseDescriptorQuery, if_neg (by omega), hfields, Option.bind_some]
  simp only [hread]
  cases kind
  case OtaManifest => exact absurd rfl hkind
  all_goals rfl

theorem packed_response {kind : DeviceListKind} (hkind : kind ≠ .OtaManifest) :
    leavesResponse kind.response = false := by
  cases kind
  case OtaManifest => exact absurd rfl hkind
  all_goals rfl

/-- How a packed codec writes and reads the list of a response of the kind. -/
theorem packed_list {w : Words} {s : WordSizes} (hs : w.Sized s)
    (putSamples : List TelemetrySample → Option Bytes)
    (getSamples : Bytes → Option (List TelemetrySample × Bytes))
    (kind : DeviceListKind) (hkind : kind ≠ .OtaManifest) :
    ∃ f : Format kind.Item, f.Sized kMaxPayload (kind.size s) ∧
      (∀ r : DescriptorResponse, r.type = kind.response →
        responseBody w putSamples r = [(w.many f).put (kind.items r)]) ∧
      ∀ (out : DescriptorResponse) bs, out.type = kind.response →
        readBody w getSamples out bs = ((w.many f).get bs).map fun x => (kind.withItems x.1 out, x.2) := by
  cases kind with
  | Capabilities =>
    refine ⟨w.capability, hs.capability, ?_, ?_⟩
    · intro r htype
      rw [responseBody, htype]
      rfl
    · intro out bs htype
      cases out
      cases htype
      rfl
  | Telemetry =>
    refine ⟨w.metric, hs.metric, ?_, ?_⟩
    · intro r htype
      rw [responseBody, htype]
      rfl
    · intro out bs htype
      cases out
      cases htype
      rfl
  | Settings =>
    refine ⟨w.setting, hs.setting, ?_, ?_⟩
    · intro r htype
      rw [responseBody, htype]
      rfl
    · intro out bs htype
      cases out
      cases htype
      rfl
  | OtaManifest => exact absurd rfl hkind

section Packed

variable {w : Words} {s : WordSizes} (hs : w.Sized s) (magic : UInt8)
  (putSamples : List TelemetrySample → Option Bytes)
  (getSamples : Bytes → Option (List TelemetrySample × Bytes))
  {kind : DeviceListKind} (hkind : kind ≠ .OtaManifest)
include hs hkind

/-- The query of the client is always sent, and arrives as it is. -/
theorem packed_query (hshort : s.Short) (page_size : UInt8) (cursor : UInt16) :
    ∃ p, (packedProfileCodec w w.size magic putSamples getSamples).encodeDescriptorQuery
        (listQuery kind page_size cursor) = some p ∧
      (packedProfileCodec w w.size magic putSamples getSamples).decodeDescriptorQuery p =
        some (listQuery kind page_size cursor) := by
  have hround := listQuery_roundTrips hkind page_size cursor
  have hflagged : flaggedWhole (listQuery kind page_size cursor).type = true := by
    cases kind
    case OtaManifest => exact absurd rfl hkind
    all_goals rfl
  have hleaves : leavesQuery (listQuery kind page_size cursor).type = false :=
    (Bool.not_eq_true' _).mp (Bool.and_eq_true_iff.mp hflagged).1
  have hfields : flaggedQuery w (listQuery kind page_size cursor) =
      [some [kind.query.toByte], some [0x70], w.u16.put cursor, w.u8.put page_size] := by
    simp [flaggedQuery, listQuery, queryFlags, fieldIf, flagBit]
    decide
  have hwritten : Written (joined (flaggedQuery w (listQuery kind page_size cursor)))
      (1 + (1 + (s.u16 cursor + (s.u8 page_size + 0)))) := by
    rw [hfields]
    exact (Written.of_bytes [_]).cons ((Written.of_bytes [_]).cons
      ((Written.of_sized hs.u16 _).cons ((Written.of_sized hs.u8 _).cons .nil)))
  have hroom : s.frame (1 + (1 + (s.u16 cursor + (s.u8 page_size + 0)))) ≤ kMaxPayload := by
    have h16 := hshort.u16 cursor
    have h8 := hshort.u8 page_size
    have hsize := hshort.size (1 + (1 + (s.u16 cursor + (s.u8 page_size + 0))))
    have hmax : kMaxPayload = 235 := rfl
    unfold WordSizes.frame
    omega
  obtain ⟨p, hp⟩ := (wrapped_iff hs hwritten).mpr hroom
  have hencode : (packedProfileCodec w w.size magic putSamples getSamples).encodeDescriptorQuery
      (listQuery kind page_size cursor) = some p := by
    simp only [packedProfileCodec, hleaves, Bool.false_eq_true, if_false, namesOneSetting_of_roundTrips hround,
      Bool.not_true]
    exact hp
  refine ⟨p, hencode, ?_⟩
  rw [packed_decode w w.size magic putSamples getSamples hround hleaves hencode,
    flagCarried_flagged hround hflagged]

/-- A page is sent exactly when its frame fits, and arrives as it is. -/
theorem packed_page (full : List kind.Item) (message : Bytes) (page_size : UInt8) (c : Nat) :
    ((∃ p, (packedProfileCodec w w.size magic putSamples getSamples).encodeDescriptorResponse
        (pageAt kind full message page_size c) = some p) ↔
      pageFrame s kind full message page_size c ≤ kMaxPayload) ∧
    ∀ p, (packedProfileCodec w w.size magic putSamples getSamples).encodeDescriptorResponse
        (pageAt kind full message page_size c) = some p →
      ∃ d, (packedProfileCodec w w.size magic putSamples getSamples).decodeDescriptorResponse p = some d ∧
        d.type = kind.response ∧ d.toPageMeta = pageMetaAt kind full message page_size c ∧
        kind.items d = pageItemsAt kind full page_size c := by
  obtain ⟨f, hf, hbody, hread⟩ := packed_list hs putSamples getSamples kind hkind
  have htype : (pageAt kind full message page_size c).type = kind.response := by
    simp [pageAt]
  have hleaves : leavesResponse (pageAt kind full message page_size c).type = false := by
    rw [htype]
    exact packed_response hkind
  have hitems : kind.items (pageAt kind full message page_size c) = pageItemsAt kind full page_size c := by
    rw [pageAt, DeviceListKind.items_page, DeviceListKind.items_withItems]
  have hfew : (pageItemsAt kind full page_size c).length ≤ 255 := by
    have hle := pageLength_le page_size
    rw [pageItemsAt_length]
    omega
  have hlist := hbody (pageAt kind full message page_size c) htype
  rw [hitems] at hlist
  refine ⟨packed_encodes_iff hs hleaves rfl hlist (written_many hs hf hfew), ?_⟩
  intro p hp
  obtain ⟨bs, hbs, hdecode⟩ := packed_decode_response hleaves hlist hp
  have hget := (w.many f).get_put hbs []
  rw [List.append_nil] at hget
  have hhead : (headResponse (pageAt kind full message page_size c)
      (!(pageAt kind full message page_size c).message.isEmpty)).type = kind.response := htype
  rw [hdecode, hread _ bs hhead, hget]
  refine ⟨_, rfl, ?_, ?_, ?_⟩
  · exact (DeviceListKind.withItems_type _ _ _).trans htype
  · exact DeviceListKind.withItems_page _ _ _
  · exact DeviceListKind.items_withItems _ _ _

/-- The exchanges of the client cut the list into pages, and the pages that do not fit are refused. -/
theorem packed_slices (hshort : s.Short) {device : DescriptorDevice} {full : List kind.Item} {message : Bytes}
    (hlist : kind.list device = .ok (full, message)) (page_size : UInt8) :
    Slices (fetchPage (packedProfileCodec w w.size magic putSamples getSamples) device kind page_size) full
      (pageLength page_size) 65536 kind.clip fun c => pageFrame s kind full message page_size c ≤ kMaxPayload := by
  have hanswer : ∀ cursor, handleListQuery device (listQuery kind page_size cursor) =
      some (kind.page (listQuery kind page_size cursor) full message) := by
    intro cursor
    have hkindAnswer : kind.answer device (listQuery kind page_size cursor) =
        kind.page (listQuery kind page_size cursor) full message := by
      rw [DeviceListKind.answer, hlist]
    rw [← hkindAnswer]
    exact handleListQuery_listQuery kind device page_size cursor
  -- what one exchange comes to
  have hfetch : ∀ c, c ≤ full.length → c < 65536 →
      fetchPage (packedProfileCodec w w.size magic putSamples getSamples) device kind page_size c =
        ((packedProfileCodec w w.size magic putSamples getSamples).encodeDescriptorResponse
          (pageAt kind full message page_size c)).bind fun reply =>
            ((packedProfileCodec w w.size magic putSamples getSamples).decodeDescriptorResponse reply).bind
              fun d => if d.type = kind.response ∧ d.is_paged = true then
                some ⟨kind.items d, d.next_cursor.toNat, d.done⟩ else none := by
    intro c hc hmod
    obtain ⟨request, hrequest, hdecode⟩ := packed_query hs magic putSamples getSamples hkind hshort page_size (UInt16.ofNat c)
    simp only [fetchPage, onPullRequest, hrequest, hdecode, Option.bind_eq_bind, Option.bind_some, Option.some_or,
      hanswer, page_listQuery message page_size hc hmod]
  refine ⟨pageLength_pos page_size, ?_, ?_⟩
  · intro c hc hmod hfits
    obtain ⟨hsent, harrives⟩ := packed_page hs magic putSamples getSamples hkind full message page_size c
    obtain ⟨p, hp⟩ := hsent.mpr hfits
    obtain ⟨d, hd, htype, hpage, hitems⟩ := harrives p hp
    have hpaged : d.is_paged = true := congrArg PageMeta.is_paged hpage
    have hnext : d.next_cursor.toNat = min full.length (c + pageLength page_size) % 65536 := by
      have hnext := congrArg (fun p : PageMeta => p.next_cursor.toNat) hpage
      exact hnext.trans UInt16.toNat_ofNat'
    have hdone : d.done = decide (full.length ≤ c + pageLength page_size) := congrArg PageMeta.done hpage
    rw [hfetch c hc hmod, hp, Option.bind_some, hd, Option.bind_some, if_pos ⟨htype, hpaged⟩, hitems, hnext, hdone]
    rfl
  · intro c hc hmod hnot
    rw [hfetch c hc hmod]
    cases hsend : (packedProfileCodec w w.size magic putSamples getSamples).encodeDescriptorResponse
        (pageAt kind full message page_size c) with
    | none => rfl
    | some p => exact absurd ((packed_page hs magic putSamples getSamples hkind full message page_size c).1.mp ⟨p, hsend⟩) hnot

theorem packed_fetches_iff (hshort : s.Short) {device : DescriptorDevice} {full : List kind.Item}
    {message : Bytes} (hlist : kind.list device = .ok (full, message)) (page_size : UInt8) :
    FetchesAll (packedProfileCodec w w.size magic putSamples getSamples) device kind page_size full ↔
      PagesFit s kind full message page_size := by
  rw [FetchesAll, (packed_slices hs magic putSamples getSamples hkind hshort hlist page_size).reads_iff (by decide)]
  constructor
  · rintro ⟨hpages, hclip⟩
    exact ⟨hpages, hclip⟩
  · rintro ⟨hpages, hclip⟩
    exact ⟨hpages, hclip⟩

end Packed

/-- Under the Varint TLV and the Delta Binary codec the client receives the list exactly when every page of
it fits a frame: no page is shortened. -/
theorem packed_paging_iff {device : DescriptorDevice} {kind : DeviceListKind} {full : List kind.Item}
    {message : Bytes} (hlist : kind.list device = .ok (full, message)) (hkind : kind ≠ .OtaManifest)
    (page_size : UInt8) (floats : FloatText) :
    (FetchesAll varintTlvProfileCodec device kind page_size full ↔
      PagesFit varintSizes kind full message page_size) ∧
    (FetchesAll (deltaBinaryProfileCodec floats) device kind page_size full ↔
      PagesFit deltaSizes kind full message page_size) := by
  constructor
  · exact packed_fetches_iff varintWords_sized _ _ _ hkind varintSizes_short hlist page_size
  · exact packed_fetches_iff deltaWords_sized _ _ _ hkind deltaSizes_short hlist page_size

/-- A device without a profile that has these capabilities. -/
def capabilityDevice (caps : List CapabilityDescriptor) : DescriptorDevice where
  provider :=
    { getCapabilities := (true, caps), getTelemetrySchema := (false, []), getSettings := (false, [])
      getSettingById := fun _ => none, getOtaManifest := (false, [], []) }
  profile := none
  registry := fun _ => none

def shortCaps : List CapabilityDescriptor := [⟨[97], []⟩, ⟨[98], []⟩]

theorem shortCaps_paging : FetchesAll varintTlvProfileCodec (capabilityDevice shortCaps) .Capabilities 1 shortCaps ↔
    PagesFit varintSizes .Capabilities shortCaps [] 1 :=
  (packed_paging_iff rfl (by decide) 1 noFloats).1

/-- Three capabilities with full texts. -/
def fullCaps : List CapabilityDescriptor := List.replicate 3 ⟨List.replicate 32 107, List.replicate 56 100⟩

/-- They can be read one by one; on a page of the default length the slave sends no reply. -/
theorem fullCaps_refused :
    FetchesAll varintTlvProfileCodec (capabilityDevice fullCaps) .Capabilities 1 fullCaps ∧
    FetchesAll (deltaBinaryProfileCodec noFloats) (capabilityDevice fullCaps) .Capabilities 1 fullCaps ∧
    ¬ FetchesAll varintTlvProfileCodec (capabilityDevice fullCaps) .Capabilities 0 fullCaps ∧
    ¬ FetchesAll (deltaBinaryProfileCodec noFloats) (capabilityDevice fullCaps) .Capabilities 0 fullCaps := by
  have hvarint : fetchPage varintTlvProfileCodec (capabilityDevice fullCaps) .Capabilities 0 0 = none := by
    have hnone : (fetchPage varintTlvProfileCodec (capabilityDevice fullCaps) .Capabilities 0 0).isNone := by
      decide +kernel
    exact Option.isNone_iff_eq_none.mp hnone
  have hdelta : fetchPage (deltaBinaryProfileCodec noFloats) (capabilityDevice fullCaps) .Capabilities 0 0 =
      none := by
    have hnone : (fetchPage (deltaBinaryProfileCodec noFloats) (capabilityDevice fullCaps) .Capabilities 0
        0).isNone := by
      decide +kernel
    exact Option.isNone_iff_eq_none.mp hnone
  refine ⟨⟨3, by decide +kernel⟩, ⟨3, by decide +kernel⟩, ?_, ?_⟩
  · rintro ⟨pages, hread⟩
    cases pages with
    | zero => cases hread
    | succ pages => simp [readPages, hvarint] at hread
  · rintro ⟨pages, hread⟩
    cases pages with
    | zero => cases hread
    | succ pages => simp [readPages, hdelta] at hread

end EspNowLink
