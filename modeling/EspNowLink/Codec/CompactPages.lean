import EspNowLink.Codec.ResponseFields
import EspNowLink.Descriptor.Pages

open Framework

namespace EspNowLink

section Emit

variable {α : Type} {f : Format α} {size : α → Nat} {slim : α → α}

theorem writeItem_eq (hf : f.Sized kMaxPayload size) {out : Bytes} (hout : out.length ≤ kMaxPayload) (x : α) :
    (size x ≤ kMaxPayload - out.length →
      ∃ bs, f.put x = some bs ∧ bs.length = size x ∧ writeItem f out x = some (out ++ bs)) ∧
    (kMaxPayload - out.length < size x → writeItem f out x = none) := by
  constructor
  · intro hroom
    obtain ⟨bs, hbs⟩ := hf.writes x (by omega)
    have hlen := hf.length x bs hbs
    refine ⟨bs, hbs, hlen, append_eq_some.mpr ⟨bs, hbs, ?_, rfl⟩⟩
    omega
  · intro hroom
    cases hput : f.put x with
    | none => simp [writeItem, append, hput]
    | some bs =>
      have hlen := hf.length x bs hput
      have hlong : ¬ out.length + bs.length ≤ kMaxPayload := by omega
      simp [writeItem, append, hput, hlong]

/-- The loop writes the items that fit, slimmed where they fit only so. -/
theorem emitItems_eq (hf : f.Sized kMaxPayload size) {write : Bytes → α → Option Bytes}
    (hwrite : ∀ out x, write out x = (writeItem f out x).or (writeItem f out (slim x)))
    {out : Bytes} (hout : out.length ≤ kMaxPayload) (xs : List α) :
    ∃ bs, f.putMany (fitted size slim (kMaxPayload - out.length) xs) = some bs ∧
      out.length + bs.length ≤ kMaxPayload ∧
      emitItems write out xs = (out ++ bs, (fitted size slim (kMaxPayload - out.length) xs).length) := by
  induction xs generalizing out with
  | nil => exact ⟨[], rfl, by simpa using hout, by simp [emitItems, fitted]⟩
  | cons x xs ih =>
    -- one item `y` is written, and the loop goes on
    have hnext : ∀ y bs, f.put y = some bs → bs.length = size y → size y ≤ kMaxPayload - out.length →
        write out x = some (out ++ bs) →
        ∃ cs, f.putMany (y :: fitted size slim (kMaxPayload - out.length - size y) xs) = some cs ∧
          out.length + cs.length ≤ kMaxPayload ∧
          emitItems write out (x :: xs) =
            (out ++ cs, (y :: fitted size slim (kMaxPayload - out.length - size y) xs).length) := by
      intro y bs hput hlen hroom hstep
      have hroom' : kMaxPayload - (out ++ bs).length = kMaxPayload - out.length - size y := by
        rw [List.length_append, hlen]
        omega
      have hlong : (out ++ bs).length ≤ kMaxPayload := by
        rw [List.length_append, hlen]
        omega
      obtain ⟨cs, hcs, hfits, hrest⟩ := ih hlong
      rw [hroom'] at hcs hrest
      rw [List.length_append] at hfits
      refine ⟨bs ++ cs, by simp [Format.putMany, hput, hcs], by rw [List.length_append]; omega, ?_⟩
      simp only [emitItems, hstep, hrest, List.append_assoc, List.length_cons]
    obtain ⟨hfull, hnot⟩ := writeItem_eq hf hout x
    obtain ⟨hslim, hnotSlim⟩ := writeItem_eq hf hout (slim x)
    unfold fitted
    by_cases hx : size x ≤ kMaxPayload - out.length
    · obtain ⟨bs, hput, hlen, hstep⟩ := hfull hx
      rw [if_pos hx]
      exact hnext x bs hput hlen hx (by rw [hwrite, hstep, Option.some_or])
    · rw [if_neg hx]
      by_cases hs : size (slim x) ≤ kMaxPayload - out.length
      · obtain ⟨bs, hput, hlen, hstep⟩ := hslim hs
        rw [if_pos hs]
        exact hnext (slim x) bs hput hlen hs (by rw [hwrite, hnot (by omega), Option.none_or, hstep])
      · rw [if_neg hs]
        have hstop : write out x = none := by
          rw [hwrite, hnot (by omega), hnotSlim (by omega), Option.none_or]
        exact ⟨[], rfl, by simpa using hout, by simp [emitItems, hstop]⟩

/-- A list is its count and the items that fit. -/
theorem emitList_some (hf : f.Sized kMaxPayload size) {write : Bytes → α → Option Bytes}
    (hwrite : ∀ out x, write out x = (writeItem f out x).or (writeItem f out (slim x)))
    {out p : Bytes} {xs : List α} (h : emitList write out xs = some p) :
    ∃ bs, (compactWords.many f).put (fitted size slim (kMaxPayload - out.length - 1) xs) = some bs ∧
      p = out ++ bs := by
  obtain ⟨hlen, hbody⟩ := Option.ite_none_left_eq_some.mp h
  obtain ⟨start, hstart, hp⟩ := Option.bind_eq_some_iff.mp hbody
  obtain ⟨zero, hzero, hroom, rfl⟩ := append_eq_some.mp hstart
  cases hzero
  have hlong : (out ++ [0]).length ≤ kMaxPayload := by simpa using hroom
  obtain ⟨items, hitems, -, hemit⟩ := emitItems_eq hf hwrite hlong xs
  have hspace : kMaxPayload - (out ++ [0]).length = kMaxPayload - out.length - 1 := by
    rw [List.length_append]
    simp
    omega
  rw [hspace] at hitems hemit
  rw [hemit] at hp
  obtain ⟨-, hset⟩ := Option.ite_none_left_eq_some.mp hp
  have hcount : (fitted size slim (kMaxPayload - out.length - 1) xs).length ≤ 255 :=
    Nat.le_trans (length_fitted_le _ xs) (by omega)
  refine ⟨UInt8.ofNat (fitted size slim (kMaxPayload - out.length - 1) xs).length :: items, ?_, ?_⟩
  · simp [Words.many, Format.many, compactWords, count8, hcount, hitems]
  · rw [← Option.some.inj hset]
    simp

end Emit

/-- An item of a paged list. -/
inductive PageItem where
  | capability (c : CapabilityDescriptor)
  | metric (t : TelemetryDescriptor)
  | sample (t : TelemetrySample)
  | setting (st : SettingDescriptor)
  | image (e : OtaManifestEntry)
  | entry (e : StorageEntry)

/-- The items that the page metadata of a response counts, with the fields that the Compact Indexed codec
carries: a bundle counts its settings. -/
def pageItems (r : DescriptorResponse) : List PageItem :=
  match r.type with
  | .Capabilities => r.capabilities.map .capability
  | .Telemetry => r.telemetry.map fun t => .metric (undescribed t)
  | .TelemetrySnapshot => r.telemetry_samples.map .sample
  | .Settings => r.settings.map .setting
  | .NodeBundle => (bundleSettings r).map .setting
  | .OtaManifest => r.ota_manifest.map .image
  | .StorageList => r.storage_entries.map .entry
  | _ => []

/-- The metadata tells of `n` items from its cursor on. -/
structure Tells (page : PageMeta) (n : Nat) : Prop where
  returned : page.returned_count.toNat = n
  next : page.next_cursor.toNat = page.cursor.toNat + n
  done : page.done = true → page.total_count.toNat ≤ page.cursor.toNat + n

/-- What arrives is a beginning of the list, and the metadata tells of just that; the samples of a bundle,
which the metadata does not count, are a beginning of its samples. -/
structure ConsistentPage (sent arrived : DescriptorResponse) : Prop where
  items : pageItems arrived <+: pageItems sent
  tells : Tells arrived.toPageMeta (pageItems arrived).length
  samples : sent.type = .NodeBundle → arrived.telemetry_samples <+: sent.telemetry_samples

/-- What the head of a list and its count leave of the payload: four bytes, the page metadata, one byte. -/
def kCompactListRoom : Nat := kMaxPayload - 4 - 13 - 1

/-- The bytes that are left for the lists of a paged bundle or manifest in the default encoding. -/
def defaultRoom (fs : List Tlv) : Nat := kMaxPayload - kPagedMetaReserveBytes - Tlv.sizes fs

/-- The fields that come before the entries of a storage list. -/
def storagePathFields (r : DescriptorResponse) : List Tlv :=
  [utf8Field 0xB8 r.storage_path, utf8Field 0xB9 r.storage_parent_path]

/-- The encoders cut the list of a paged response after `k` unchanged items. -/
def CutsAt (r : DescriptorResponse) (k : Nat) : Prop :=
  match r.type with
  | .Capabilities => CutAt compactSizes.capability id kCompactListRoom r.capabilities k
  | .Telemetry => CutAt compactSizes.metric id kCompactListRoom (r.telemetry.map undescribed) k
  | .TelemetrySnapshot => CutAt compactSizes.sample id kCompactListRoom r.telemetry_samples k
  | .Settings => CutAt compactSizes.setting slimSetting kCompactListRoom r.settings k
  | .NodeBundle =>
    ∃ j, CutAt (fun t => Tlv.sizes (sampleFields t)) id (defaultRoom (headerFields r ++ bundleFields r))
        (bundleSamples r) j ∧
      CutAt (fun st => Tlv.sizes (settingFields st)) id
        (defaultRoom (headerFields r ++ bundleFields r ++ ((bundleSamples r).take j).flatMap sampleFields))
        (bundleSettings r) k
  | .OtaManifest =>
    CutAt (fun e => Tlv.sizes (otaEntryFields e)) id (defaultRoom (headerFields r)) r.ota_manifest k ∧
      Unshifted endsOtaEntry (·.file_id) (r.ota_manifest.take k)
  | .StorageList =>
    CutAt (fun e => Tlv.sizes (storageEntryFields e)) id
      (defaultRoom (headerFields r ++ storagePathFields r)) r.storage_entries k
  | _ => k = 0

/-- The metadata that goes out with `k` items: only the default encoder puts it right. -/
def sentPage (r : DescriptorResponse) (k : Nat) : PageMeta :=
  if leavesResponse r.type then patchPageMeta r.type r.toPageMeta (UInt16.ofNat k) else r.toPageMeta

section Native

variable {r : DescriptorResponse} {p : Bytes}

theorem joined_length_head {has_message : Bool} {bs : Bytes} (hpaged : r.is_paged = true)
    (hmessage : has_message = false) (h : joined (responseHead compactWords r has_message) = some bs) :
    bs.length = 15 := by
  subst hmessage
  have hput : ∃ page, compactWords.page.put ⟨r.toPageMeta, hpaged⟩ = some page ∧ page.length = 13 :=
    ⟨_, rfl, rfl⟩
  obtain ⟨page, hpage, hlen⟩ := hput
  simp only [responseHead, fieldIf, dif_pos hpaged, hpage, joined, List.cons_append, List.nil_append,
    Option.bind_some, Option.map_some, Bool.false_eq_true, if_false] at h
  rw [← Option.some.inj h]
  simp [hlen]

/-- The decoder goes through the head of what the encoder wrote and reads its body. -/
theorem compact_split (hleaves : leavesResponse r.type = false)
    (hp : compactIndexedProfileCodec.encodeDescriptorResponse r = some p) :
    ∃ has_message head, joined (responseHead compactWords r has_message) = some head ∧
      has_message = (!r.message.isEmpty && !isListResponse r.type) ∧
      compactBody r (kCompactMagic :: kKindResponse :: head) = some p ∧
      ∀ body, p = kCompactMagic :: kKindResponse :: head ++ body →
        compactIndexedProfileCodec.decodeDescriptorResponse p =
          (readBody compactWords (compactWords.many compactWords.sample).get (headResponse r has_message)
            body).bind fun x => if x.2.isEmpty then some x.1 else none := by
  simp only [compactIndexedProfileCodec, hleaves, Bool.false_eq_true, if_false] at hp
  obtain ⟨out, hout, hbody⟩ := Option.bind_eq_some_iff.mp hp
  rw [appendAll_eq (Nat.zero_le _), append_eq_some] at hout
  obtain ⟨bs, hbs, -, rfl⟩ := hout
  obtain ⟨tail, htail, rfl⟩ := Option.map_eq_some_iff.mp hbs
  obtain ⟨head, hhead, rfl⟩ := Option.map_eq_some_iff.mp htail
  refine ⟨_, head, hhead, rfl, hbody, ?_⟩
  rintro body rfl
  obtain ⟨flags, rest, rfl, hdecode⟩ := decodeResponse_head (compactWords.many compactWords.sample).get
    hhead body
  simp only [compactIndexedProfileCodec, List.cons_append, and_self, if_true]
  exact hdecode

/-- The list of a paged response is read back as it was cut. -/
theorem compact_list {α : Type} {f : Format α} {size : α → Nat} {slim : α → α}
    (hf : f.Sized kMaxPayload size) (write : Bytes → α → Option Bytes)
    (hwrite : ∀ out x, write out x = (writeItem f out x).or (writeItem f out (slim x)))
    {head : Bytes} (hhead : head.length = 15) {xs : List α}
    (h : emitList write (kCompactMagic :: kKindResponse :: head) xs = some p) :
    ∃ bs, p = kCompactMagic :: kKindResponse :: head ++ bs ∧
      (compactWords.many f).get bs = some (fitted size slim kCompactListRoom xs, []) := by
  obtain ⟨bs, hbs, rfl⟩ := emitList_some hf hwrite h
  have hroom : kMaxPayload - (kCompactMagic :: kKindResponse :: head).length - 1 = kCompactListRoom := by
    simp [hhead, kMaxPayload, kCompactListRoom]
  rw [hroom] at hbs
  refine ⟨bs, rfl, ?_⟩
  have hget := (compactWords.many f).get_put hbs []
  rwa [List.append_nil] at hget

theorem writeItem_or_self {α : Type} (f : Format α) (out : Bytes) (x : α) :
    writeItem f out x = (writeItem f out x).or (writeItem f out (id x)) := by
  cases h : writeItem f out x <;> simp [h]

theorem emitList_map {α β : Type} (write : Bytes → β → Option Bytes) (g : α → β) (out : Bytes)
    (xs : List α) : emitList (fun out x => write out (g x)) out xs = emitList write out (xs.map g) := by
  have hitems : ∀ out, emitItems (fun out x => write out (g x)) out xs = emitItems write out (xs.map g) := by
    induction xs with
    | nil => intro out; rfl
    | cons x xs ih =>
      intro out
      simp only [emitItems, List.map_cons, ih]
  simp [emitList, hitems]

/-- What the decoder makes of a paged response that the codec writes itself. -/
theorem compact_native (hleaves : leavesResponse r.type = false) (hpaged : r.is_paged = true)
    (hp : compactIndexedProfileCodec.encodeDescriptorResponse r = some p) :
    ∃ d, compactIndexedProfileCodec.decodeDescriptorResponse p = some d ∧ d.type = r.type ∧
      d.toPageMeta = r.toPageMeta ∧
      (r.type = .Capabilities →
        d.capabilities = fitted compactSizes.capability id kCompactListRoom r.capabilities) ∧
      (r.type = .Telemetry →
        d.telemetry = fitted compactSizes.metric id kCompactListRoom (r.telemetry.map undescribed)) ∧
      (r.type = .TelemetrySnapshot →
        d.telemetry_samples = fitted compactSizes.sample id kCompactListRoom r.telemetry_samples) ∧
      (r.type = .Settings →
        d.settings = fitted compactSizes.setting slimSetting kCompactListRoom r.settings) := by
  obtain ⟨has_message, head, hhead, hmessage, hbody, hdecode⟩ := compact_split hleaves hp
  have hlist : isListResponse r.type = true → head.length = 15 := by
    intro hl
    exact joined_length_head hpaged (by rw [hmessage, hl]; simp) hhead
  unfold compactBody at hbody
  cases htype : r.type with
  | Capabilities =>
    obtain ⟨bs, hbs, hget⟩ := compact_list compactWords_sized.capability _ (writeItem_or_self _)
      (hlist (by rw [htype]; rfl)) (by simpa [htype] using hbody)
    rw [hdecode bs hbs]
    simp [readBody, headResponse, htype, hget, hpaged]
  | Telemetry =>
    have hbody' : emitList (writeItem compactWords.metric) (kCompactMagic :: kKindResponse :: head)
        (r.telemetry.map undescribed) = some p := by
      rw [htype] at hbody
      rw [← emitList_map]
      exact hbody
    obtain ⟨bs, hbs, hget⟩ := compact_list compactWords_sized.metric _ (writeItem_or_self _)
      (hlist (by rw [htype]; rfl)) hbody'
    rw [hdecode bs hbs]
    simp [readBody, headResponse, htype, hget, hpaged]
  | TelemetrySnapshot =>
    obtain ⟨bs, hbs, hget⟩ := compact_list compactWords_sized.sample _ (writeItem_or_self _)
      (hlist (by rw [htype]; rfl)) (by simpa [htype] using hbody)
    rw [hdecode bs hbs]
    simp [readBody, headResponse, htype, hget, hpaged]
  | Settings =>
    rw [htype] at hbody
    obtain ⟨bs, hbs, hget⟩ := compact_list compactWords_sized.setting writeSetting
      (fun _ _ => rfl) (hlist (by rw [htype]; rfl)) hbody
    rw [hdecode bs hbs]
    simp [readBody, headResponse, htype, hget, hpaged]
  | Device =>
    rw [htype] at hbody
    obtain ⟨bs, hput, -, hbs⟩ := append_eq_some.mp hbody
    have hget := compactWords.device.get_put hput []
    rw [List.append_nil] at hget
    rw [hdecode bs hbs]
    simp [readBody, headResponse, htype, hget, hpaged]
  | Liveness =>
    rw [htype] at hbody
    obtain ⟨bs, hput, -, hbs⟩ := append_eq_some.mp hbody
    have hget := compactWords.liveness.get_put hput []
    rw [List.append_nil] at hget
    rw [hdecode bs hbs]
    simp [readBody, headResponse, htype, hget, hpaged]
  | Time =>
    rw [htype] at hbody
    obtain ⟨bs, hput, -, hbs⟩ := append_eq_some.mp hbody
    have hget := (compactWords.u32.seq compactWords.u32).get_put hput []
    rw [List.append_nil] at hget
    rw [hdecode bs hbs]
    simp [readBody, headResponse, htype, Words.getTime, hget, hpaged]
  | Setting =>
    rw [htype] at hbody
    obtain ⟨bs, hput, -, hbs⟩ := append_eq_some.mp hbody
    have hget := compactWords.setting.get_put hput []
    rw [List.append_nil] at hget
    rw [hdecode bs hbs]
    simp [readBody, headResponse, htype, hget, hpaged]
  | Unknown | Ack | Error | Unnamed =>
    have hbs : p = kCompactMagic :: kKindResponse :: head ++ [] := by simpa [htype, eq_comm] using hbody
    rw [hdecode [] hbs]
    simp [readBody, headResponse, htype, hpaged]
  | _ => simp [leavesResponse, htype] at hleaves

end Native

section Consistent

variable {r d : DescriptorResponse} {α : Type} {size : α → Nat} {slim : α → α} {room : Nat} {xs : List α}

variable (size slim room xs) in
/-- A list that arrives as it was cut is consistent when the cut slims nothing and the metadata tells of
the cut. -/
theorem consistentPage_iff {c : α → PageItem} (hc : Function.Injective c) (hsent : pageItems r = xs.map c)
    (harrived : pageItems d = (fitted size slim room xs).map c)
    (hsamples : r.type = .NodeBundle → d.telemetry_samples <+: r.telemetry_samples) :
    ConsistentPage r d ↔ ∃ k, CutAt size slim room xs k ∧ Tells d.toPageMeta k := by
  constructor
  · rintro ⟨hpre, htells, -⟩
    rw [hsent, harrived, List.prefix_map_iff_of_injective hc] at hpre
    rw [harrived, List.length_map] at htells
    exact ⟨_, (cutAt_iff room xs _).mpr ⟨hpre, rfl⟩, htells⟩
  · rintro ⟨k, hcut, htells⟩
    obtain ⟨hpre, rfl⟩ := (cutAt_iff room xs k).mp hcut
    refine ⟨?_, ?_, hsamples⟩
    · rwa [hsent, harrived, List.prefix_map_iff_of_injective hc]
    · rwa [harrived, List.length_map]

theorem consistentPage_nil_iff (htype : r.type ≠ .NodeBundle) (hsent : pageItems r = [])
    (harrived : pageItems d = []) : ConsistentPage r d ↔ Tells d.toPageMeta 0 := by
  constructor
  · intro h
    have htells := h.tells
    rwa [harrived] at htells
  · intro htells
    refine ⟨?_, ?_, fun h => absurd h htype⟩
    · rw [hsent, harrived]
    · rwa [harrived]

end Consistent

section Left

variable {r : DescriptorResponse} {e : EncodedResponse}

/-- The responses that the codec leaves to the default encoder begin with no magic byte. -/
theorem compact_decode_left (he : encodeDescriptorResponse r = some e) (hpaged : r.is_paged = true) :
    compactIndexedProfileCodec.decodeDescriptorResponse e.payload = decodeDescriptorResponse e.payload := by
  obtain ⟨s, hs, hroom, hpayload, -⟩ := encode_paged hpaged he
  obtain ⟨r', hbody⟩ := encodeBody_spec (by rwa [hpaged]) hs
  have hhead : ∃ rest, e.payload = 0x01 :: rest := by
    rw [hpayload, hbody.out_eq]
    exact ⟨_, rfl⟩
  obtain ⟨rest, hrest⟩ := hhead
  rw [hrest]
  simp only [compactIndexedProfileCodec]
  split
  · rename_i magic kind type flags tail heq
    cases heq
    rw [if_neg fun hmagic => absurd hmagic.1 (by decide)]
  · rfl

theorem bodyFields_manifest {xs : List OtaManifestEntry} (htype : r.type = .OtaManifest) :
    bodyFields { r with ota_manifest := xs } = xs.flatMap otaEntryFields := by
  simp [bodyFields, htype]

/-- What the default encoder keeps of the lists of a paged manifest and of a paged bundle. -/
def keptEntries (r : DescriptorResponse) : List OtaManifestEntry :=
  keptItems otaEntryFields (defaultRoom (headerFields r)) r.ota_manifest

def keptSamples (r : DescriptorResponse) : List TelemetrySample :=
  keptItems sampleFields (defaultRoom (headerFields r ++ bundleFields r)) (bundleSamples r)

def keptStorage (r : DescriptorResponse) : List StorageEntry :=
  keptItems storageEntryFields (defaultRoom (headerFields r ++ storagePathFields r)) r.storage_entries

def keptSettings (r : DescriptorResponse) : List SettingDescriptor :=
  keptItems settingFields (defaultRoom (headerFields r ++ bundleFields r ++
    (keptSamples r).flatMap sampleFields)) (bundleSettings r)

theorem roomAfter_encode (fs : List Tlv) : roomAfter true (Tlv.encode fs) = defaultRoom fs := by
  simp [roomAfter, defaultRoom, reserved]

theorem sentPage_left (hleaves : leavesResponse r.type = true) (k : Nat) :
    sentPage r k = patchPageMeta r.type r.toPageMeta (UInt16.ofNat k) := by
  rw [sentPage, if_pos hleaves]

/-- The metadata of a paged response goes on the wire as it was patched. -/
theorem received_patched {r' : DescriptorResponse} (hpaged : r.is_paged = true) (emitted : UInt16) :
    (received (roundTime { r' with toPageMeta := patchPageMeta r.type r.toPageMeta emitted })).toPageMeta =
      patchPageMeta r.type r.toPageMeta emitted := by
  have hpatched : (patchPageMeta r.type r.toPageMeta emitted).is_paged = true := by
    unfold patchPageMeta
    split <;> exact hpaged
  exact (received_page _).trans (if_pos hpatched)

/-- A manifest is cut where the next entry does not fit, and its ids shift as in every manifest. -/
theorem decode_manifest (htype : r.type = .OtaManifest) (hpaged : r.is_paged = true)
    (he : encodeDescriptorResponse r = some e) :
    ∃ d, decodeDescriptorResponse e.payload = some d ∧ d.type = .OtaManifest ∧
      d.ota_manifest = readOtaEntries (keptEntries r) ∧ d.toPageMeta = sentPage r (keptEntries r).length := by
  obtain ⟨s, hs, hroom, -⟩ := encode_paged hpaged he
  obtain ⟨hout, hemitted⟩ := appendItems_noExtras otaEntryFields r.ota_manifest hroom
  rw [roomAfter_encode] at hout hemitted
  have hsection : s = appendItems true otaEntryFields noExtras (Tlv.encode (headerFields r)) r.ota_manifest := by
    simpa [encodeBody, htype, hpaged, eq_comm] using hs
  subst hsection
  refine ⟨_, decode_paged { r with ota_manifest := keptEntries r } (by simp [htype]) hpaged he hs
    ⟨rfl, rfl, rfl, rfl, rfl, rfl, rfl⟩ (by rw [hout, bodyFields_manifest htype]; rfl), ?_, ?_, ?_⟩
  · exact (received_type _).trans htype
  · simp [received, roundTime, htype]
  · rw [sentPage_left (by rw [htype]; rfl)]
    refine (received_patched hpaged _).trans ?_
    rw [hemitted]
    rfl

/-- A bundle is cut twice, first in its samples; only its settings are counted. -/
theorem decode_bundle (htype : r.type = .NodeBundle) (hpaged : r.is_paged = true)
    (he : encodeDescriptorResponse r = some e) :
    ∃ d, decodeDescriptorResponse e.payload = some d ∧ d.type = .NodeBundle ∧
      d.telemetry_samples = keptSamples r ∧ bundleSettings d = keptSettings r ∧
      d.toPageMeta = sentPage r (keptSettings r).length := by
  obtain ⟨s, hs, hroom, -⟩ := encode_paged hpaged he
  have hsection : bundleSection r true (Tlv.encode (headerFields r)) = some s := by
    simpa [encodeBody, htype, hpaged] using hs
  obtain ⟨out, hfixed, hsection⟩ := Option.map_eq_some_iff.mp hsection
  obtain ⟨hroomFixed, rfl⟩ := tryAppendAll_some hroom hfixed
  rw [← Tlv.encode_append] at hsection
  have hroomSamples := hroomFixed.append
  rw [← Tlv.encode_append] at hroomSamples
  obtain ⟨houtSamples, -⟩ := appendItems_noExtras sampleFields (bundleSamples r) hroomSamples
  rw [roomAfter_encode] at houtSamples
  have hroomSettings : Room true (Tlv.encode (headerFields r ++ bundleFields r ++
      (keptSamples r).flatMap sampleFields)) 0 := by
    have hsum := sum_fitted_le (fun t => Tlv.sizes (sampleFields t)) id
      (defaultRoom (headerFields r ++ bundleFields r)) (bundleSamples r)
    rw [Tlv.encode_append, room_append, Nat.add_zero, room_iff_le hroomSamples, roomAfter_encode,
      sizes_flatMap]
    exact hsum
  rw [← Tlv.encode_append] at houtSamples
  change _ = Tlv.encode (headerFields r ++ bundleFields r ++ (keptSamples r).flatMap sampleFields) at houtSamples
  obtain ⟨hout, hemitted⟩ := appendItems_noExtras settingFields (bundleSettings r) hroomSettings
  rw [roomAfter_encode] at hout hemitted
  simp only [houtSamples] at hsection
  have hnone : bundleSettings r = [] → keptSettings r = [] := by
    intro hnil
    unfold keptSettings
    rw [hnil]
    rfl
  have hnoneSamples : bundleSamples r = [] → keptSamples r = [] := by
    intro hnil
    unfold keptSamples
    rw [hnil]
    rfl
  have hbody : bodyFields (cutBundle r (keptSamples r) (keptSettings r)) = bundleFields r ++
      (keptSamples r).flatMap sampleFields ++ (keptSettings r).flatMap settingFields := by
    exact bodyFields_cutBundle htype hnoneSamples hnone
  have hpair : s.out = Tlv.encode (headerFields r) ++
      Tlv.encode (bodyFields (cutBundle r (keptSamples r) (keptSettings r))) ∧
      s.emitted = UInt16.ofNat (keptSettings r).length := by
    rw [← hsection]
    refine ⟨?_, hemitted⟩
    change (appendItems true settingFields noExtras _ _).out = _
    rw [hout, hbody]
    simp [keptSettings]
  refine ⟨_, decode_paged (cutBundle r (keptSamples r) (keptSettings r)) (by simp [htype]) hpaged he hs
    ⟨rfl, rfl, rfl, rfl, rfl, rfl, rfl⟩ hpair.1, ?_, ?_, ?_, ?_⟩
  · exact (received_type _).trans htype
  · have hcut : bundleSamples (cutBundle r (keptSamples r) (keptSettings r)) = keptSamples r :=
      bundleSamples_cutBundle hnoneSamples
    have hsamples : bundleSamples (roundTime { cutBundle r (keptSamples r) (keptSettings r) with
        toPageMeta := patchPageMeta r.type r.toPageMeta s.emitted }) = keptSamples r := hcut
    simp only [received, carried, carriedBody, roundTime, cutBundle, htype] at hsamples ⊢
    exact hsamples
  · have hreceived : ∀ b : DescriptorResponse, b.type = .NodeBundle →
        bundleSettings (received b) = bundleSettings b := by
      intro b hb
      have hcarried : received b = carried b := by simp [received, hb]
      rw [hcarried, bundleSettings_carried hb]
    have hsettings := hreceived (roundTime { cutBundle r (keptSamples r) (keptSettings r) with
      toPageMeta := patchPageMeta r.type r.toPageMeta s.emitted }) htype
    have hcut : bundleSettings (cutBundle r (keptSamples r) (keptSettings r)) = keptSettings r :=
      bundleSettings_cutBundle hnone
    exact hsettings.trans hcut
  · rw [sentPage_left (by rw [htype]; rfl)]
    refine (received_patched hpaged _).trans ?_
    rw [hpair.2]

/-- The entries of a storage list are cut, and its metadata goes out as it is. -/
theorem decode_storageList (htype : r.type = .StorageList) (hpaged : r.is_paged = true)
    (he : encodeDescriptorResponse r = some e) :
    ∃ d, decodeDescriptorResponse e.payload = some d ∧ d.type = .StorageList ∧
      d.storage_entries = keptStorage r ∧ d.toPageMeta = r.toPageMeta := by
  obtain ⟨s, hs, hroom, -⟩ := encode_paged hpaged he
  have hsection : storageListSection r true (Tlv.encode (headerFields r)) = some s := by
    simpa [encodeBody, htype, hpaged] using hs
  obtain ⟨out, hfixed, hsection⟩ := Option.map_eq_some_iff.mp hsection
  obtain ⟨hroomPaths, rfl⟩ := tryAppendAll_some hroom hfixed
  have hroomEntries := hroomPaths.append
  rw [← Tlv.encode_append] at hsection hroomEntries
  obtain ⟨hout, -⟩ := appendItems_noExtras storageEntryFields r.storage_entries hroomEntries
  rw [roomAfter_encode] at hout
  have hbody : s.out = Tlv.encode (headerFields r) ++
      Tlv.encode (bodyFields { r with storage_entries := keptStorage r }) := by
    rw [← hsection]
    refine hout.trans ?_
    simp [bodyFields, htype, keptStorage, storagePathFields]
  refine ⟨_, decode_paged { r with storage_entries := keptStorage r } (by simp [htype]) hpaged he hs
    ⟨rfl, rfl, rfl, rfl, rfl, rfl, rfl⟩ hbody, ?_, ?_, ?_⟩
  · exact (received_type _).trans htype
  · simp [received, carried, carriedBody, roundTime, htype]
  · refine (received_patched hpaged _).trans ?_
    simp [patchPageMeta, countsItems, htype]

/-- The other responses that the codec leaves to the default encoder count no items. -/
theorem decode_uncounted (hleaves : leavesResponse r.type = true) (hcounts : countsItems r.type = false)
    (hpaged : r.is_paged = true) (he : encodeDescriptorResponse r = some e) :
    ∃ d, decodeDescriptorResponse e.payload = some d ∧ d.type = r.type ∧ d.toPageMeta = r.toPageMeta := by
  obtain ⟨s, hs, hroom, -⟩ := encode_paged hpaged he
  obtain ⟨r', hbody⟩ := encodeBody_spec (by rwa [hpaged]) hs
  have hknown : r.type ≠ .Unknown := by
    intro htype
    simp [htype, leavesResponse] at hleaves
  refine ⟨_, decode_paged r' hknown hpaged he hs hbody.head hbody.out_eq, ?_, ?_⟩
  · exact (received_type _).trans hbody.head.type
  · refine (received_patched hpaged _).trans ?_
    simp [patchPageMeta, hcounts]

theorem cutsAt_bundle_iff (htype : r.type = .NodeBundle) (k : Nat) :
    CutsAt r k ↔ k = (keptSettings r).length := by
  rw [CutsAt, htype]
  dsimp only
  constructor
  · rintro ⟨j, hsamples, hsettings⟩
    have hkept : (bundleSamples r).take j = keptSamples r := hsamples.fitted_eq.symm
    rw [hkept] at hsettings
    exact cutAt_id_iff.mp hsettings
  · intro hk
    have hsamples : CutAt (fun t => Tlv.sizes (sampleFields t)) id
        (defaultRoom (headerFields r ++ bundleFields r)) (bundleSamples r) (keptSamples r).length :=
      cutAt_fitted _ _
    refine ⟨(keptSamples r).length, hsamples, ?_⟩
    have hkept : (bundleSamples r).take (keptSamples r).length = keptSamples r := hsamples.fitted_eq.symm
    rw [hkept]
    exact cutAt_id_iff.mpr hk

theorem cutsAt_manifest_iff (htype : r.type = .OtaManifest) (k : Nat) :
    CutsAt r k ↔ k = (keptEntries r).length ∧ readOtaEntries (keptEntries r) = keptEntries r := by
  rw [CutsAt, htype, readOtaEntries_eq_iff]
  dsimp only
  constructor
  · rintro ⟨hcut, hids⟩
    have hkept : r.ota_manifest.take k = keptEntries r := hcut.fitted_eq.symm
    rw [hkept] at hids
    exact ⟨cutAt_id_iff.mp hcut, hids⟩
  · rintro ⟨hk, hids⟩
    have hcut := cutAt_id_iff.mpr hk
    have hkept : r.ota_manifest.take k = keptEntries r := hcut.fitted_eq.symm
    rw [hkept]
    exact ⟨hcut, hids⟩

/-- The paged bundle, which the codec leaves to the default encoder. -/
theorem bundle_page_iff (h : r.type = .NodeBundle) (hpaged : r.is_paged = true)
    (he : encodeDescriptorResponse r = some e) :
    ∃ d, decodeDescriptorResponse e.payload = some d ∧
      (ConsistentPage r d ↔ ∃ k, CutsAt r k ∧ Tells (sentPage r k) k) := by
  obtain ⟨d, hd, htype, hsamples, hsettings, hpage⟩ := decode_bundle h hpaged he
  have hbundle : d.telemetry_samples <+: r.telemetry_samples := by
    have hkept : keptSamples r <+: bundleSamples r := fitted_id_isPrefix _ _
    have hmasked : bundleSamples r <+: r.telemetry_samples := by
      unfold bundleSamples
      split
      · exact List.prefix_refl _
      · exact List.nil_prefix
    rw [hsamples]
    exact hkept.trans hmasked
  have hinj : Function.Injective PageItem.setting := fun _ _ heq => PageItem.setting.inj heq
  refine ⟨d, hd, ?_⟩
  rw [consistentPage_iff (fun st => Tlv.sizes (settingFields st)) id
    (defaultRoom (headerFields r ++ bundleFields r ++ (keptSamples r).flatMap sampleFields)) (bundleSettings r) hinj
    (by simp [pageItems, h]) (by rw [pageItems, htype, hsettings, keptSettings, keptItems])
    fun _ => hbundle, hpage]
  simp only [cutsAt_bundle_iff h, cutAt_id_iff]
  constructor
  · rintro ⟨k, hk, htells⟩
    have hkept : k = (keptSettings r).length := hk
    exact ⟨k, hkept, by rwa [← hkept] at htells⟩
  · rintro ⟨k, hk, htells⟩
    exact ⟨k, hk, by rwa [← hk]⟩

/-- The paged manifest. -/
theorem manifest_page_iff (h : r.type = .OtaManifest) (hpaged : r.is_paged = true)
    (he : encodeDescriptorResponse r = some e) :
    ∃ d, decodeDescriptorResponse e.payload = some d ∧
      (ConsistentPage r d ↔ ∃ k, CutsAt r k ∧ Tells (sentPage r k) k) := by
  obtain ⟨d, hd, htype, hentries, hpage⟩ := decode_manifest h hpaged he
  have hinj : Function.Injective PageItem.image := fun _ _ heq => PageItem.image.inj heq
  have hsent : pageItems r = r.ota_manifest.map .image := by simp [pageItems, h]
  have harrived : pageItems d = (readOtaEntries (keptEntries r)).map .image := by
    simp [pageItems, htype, hentries]
  have hlen : (readOtaEntries (keptEntries r)).length = (keptEntries r).length :=
    readBack_length _ _
  have hpre : readOtaEntries (keptEntries r) <+: r.ota_manifest ↔
      readOtaEntries (keptEntries r) = keptEntries r := by
    have hkept : keptEntries r <+: r.ota_manifest := fitted_id_isPrefix _ _
    constructor
    · intro hread
      rw [List.prefix_iff_eq_take.mp hread, hlen]
      exact (List.prefix_iff_eq_take.mp hkept).symm
    · intro hread
      rw [hread]
      exact hkept
  have harrivedLen : (pageItems d).length = (keptEntries r).length := by
    rw [harrived, List.length_map, hlen]
  refine ⟨d, hd, ?_⟩
  simp only [cutsAt_manifest_iff h]
  constructor
  · rintro ⟨hitems, htells, -⟩
    rw [hsent, harrived, List.prefix_map_iff_of_injective hinj] at hitems
    rw [harrivedLen, hpage] at htells
    exact ⟨_, ⟨rfl, hpre.mp hitems⟩, htells⟩
  · rintro ⟨k, ⟨rfl, hids⟩, htells⟩
    refine ⟨?_, ?_, by simp [h]⟩
    · rw [hsent, harrived, List.prefix_map_iff_of_injective hinj]
      exact hpre.mpr hids
    · rwa [harrivedLen, hpage]

/-- The responses that the codec leaves to the default encoder, and that count no items. -/
theorem uncounted_page_iff (hleaves : leavesResponse r.type = true) (hcounts : countsItems r.type = false)
    (hpaged : r.is_paged = true) (he : encodeDescriptorResponse r = some e) :
    ∃ d, decodeDescriptorResponse e.payload = some d ∧
      (ConsistentPage r d ↔ ∃ k, CutsAt r k ∧ Tells (sentPage r k) k) := by
  have hsent : ∀ k, sentPage r k = r.toPageMeta := by
    intro k
    rw [sentPage_left hleaves]
    simp [patchPageMeta, hcounts]
  simp only [hsent]
  cases h : r.type with
  | NodeBundle | OtaManifest | Capabilities | Telemetry | TelemetrySnapshot | Settings =>
    simp [h, countsItems] at hcounts
  | StorageList =>
    obtain ⟨d, hd, htype, hentries, hpage⟩ := decode_storageList h hpaged he
    have hinj : Function.Injective PageItem.entry := fun _ _ heq => PageItem.entry.inj heq
    refine ⟨d, hd, ?_⟩
    rw [consistentPage_iff (fun e => Tlv.sizes (storageEntryFields e)) id
      (defaultRoom (headerFields r ++ storagePathFields r)) r.storage_entries hinj
      (by simp [pageItems, h]) (by rw [pageItems, htype, hentries, keptStorage, keptItems])
      (by simp [h]), hpage]
    simp [CutsAt, h]
  | _ =>
    obtain ⟨d, hd, htype, hpage⟩ := decode_uncounted hleaves hcounts hpaged he
    refine ⟨d, hd, ?_⟩
    rw [consistentPage_nil_iff (by simp [h]) (by simp [pageItems, h])
      (by simp [pageItems, htype, h]), hpage]
    simp [CutsAt, h]

end Left

/-- The responses that the codec writes itself. -/
theorem native_page_iff {r : DescriptorResponse} {p : Bytes} (hleaves : leavesResponse r.type = false)
    (hpaged : r.is_paged = true) (hp : compactIndexedProfileCodec.encodeDescriptorResponse r = some p) :
    ∃ d, compactIndexedProfileCodec.decodeDescriptorResponse p = some d ∧
      (ConsistentPage r d ↔ ∃ k, CutsAt r k ∧ Tells (sentPage r k) k) := by
  obtain ⟨d, hd, htype, hpage, hcaps, htelem, hsamples, hsettings⟩ := compact_native hleaves hpaged hp
  refine ⟨d, hd, ?_⟩
  have hsent : ∀ k, sentPage r k = d.toPageMeta := by
    intro k
    rw [sentPage, hleaves, if_neg (by decide), hpage]
  have hbundle : r.type = .NodeBundle → d.telemetry_samples <+: r.telemetry_samples := by
    intro h
    simp [h, leavesResponse] at hleaves
  simp only [hsent]
  cases h : r.type with
  | Capabilities =>
    have hinj : Function.Injective PageItem.capability := fun _ _ heq => PageItem.capability.inj heq
    rw [consistentPage_iff compactSizes.capability id kCompactListRoom r.capabilities hinj
      (by simp [pageItems, h]) (by simp [pageItems, htype, h, hcaps h]) hbundle]
    simp [CutsAt, h]
  | Telemetry =>
    have hinj : Function.Injective PageItem.metric := fun _ _ heq => PageItem.metric.inj heq
    have hplain : ∀ t ∈ d.telemetry, undescribed t = t := by
      intro t ht
      rw [htelem h] at ht
      obtain ⟨u, -, rfl⟩ := List.mem_map.mp ((fitted_id_isPrefix _ _).subset ht)
      rfl
    have harrived : pageItems d = (fitted compactSizes.metric id kCompactListRoom
        (r.telemetry.map undescribed)).map .metric := by
      rw [← htelem h, pageItems, htype, h]
      exact List.map_congr_left fun t ht => by rw [hplain t ht]
    rw [consistentPage_iff compactSizes.metric id kCompactListRoom (r.telemetry.map undescribed) hinj
      (by simp [pageItems, h, Function.comp_def]) harrived hbundle]
    simp [CutsAt, h]
  | TelemetrySnapshot =>
    have hinj : Function.Injective PageItem.sample := fun _ _ heq => PageItem.sample.inj heq
    rw [consistentPage_iff compactSizes.sample id kCompactListRoom r.telemetry_samples hinj
      (by simp [pageItems, h]) (by simp [pageItems, htype, h, hsamples h]) hbundle]
    simp [CutsAt, h]
  | Settings =>
    have hinj : Function.Injective PageItem.setting := fun _ _ heq => PageItem.setting.inj heq
    rw [consistentPage_iff compactSizes.setting slimSetting kCompactListRoom r.settings hinj
      (by simp [pageItems, h]) (by simp [pageItems, htype, h, hsettings h]) hbundle]
    simp [CutsAt, h]
  | NodeBundle | OtaManifest | StorageList => simp [h, leavesResponse] at hleaves
  | _ =>
    rw [consistentPage_nil_iff (by simp [h]) (by simp [pageItems, h]) (by simp [pageItems, htype, h])]
    simp [CutsAt, h]

/-- A paged response that the Compact Indexed codec accepts arrives as a consistent page exactly when the
metadata that goes out tells of as many items as the encoder writes unchanged. -/
theorem compact_page_iff {r : DescriptorResponse} {p : Bytes} (hpaged : r.is_paged = true)
    (hp : compactIndexedProfileCodec.encodeDescriptorResponse r = some p) :
    (∃ d, compactIndexedProfileCodec.decodeDescriptorResponse p = some d ∧ ConsistentPage r d) ↔
      ∃ k, CutsAt r k ∧ Tells (sentPage r k) k := by
  have hone : (∃ d, compactIndexedProfileCodec.decodeDescriptorResponse p = some d ∧
      (ConsistentPage r d ↔ ∃ k, CutsAt r k ∧ Tells (sentPage r k) k)) →
      ((∃ d, compactIndexedProfileCodec.decodeDescriptorResponse p = some d ∧ ConsistentPage r d) ↔
        ∃ k, CutsAt r k ∧ Tells (sentPage r k) k) := by
    rintro ⟨d, hd, hiff⟩
    rw [hd, ← hiff]
    simp
  apply hone
  cases hleaves : leavesResponse r.type with
  | false => exact native_page_iff hleaves hpaged hp
  | true =>
    have hpayload : encodeResponsePayload r = some p := by
      simpa [compactIndexedProfileCodec, hleaves] using hp
    obtain ⟨e, he, rfl⟩ := Option.map_eq_some_iff.mp hpayload
    rw [compact_decode_left he hpaged]
    cases hcounts : countsItems r.type with
    | false => exact uncounted_page_iff hleaves hcounts hpaged he
    | true =>
      cases h : r.type with
      | NodeBundle => exact bundle_page_iff h hpaged he
      | OtaManifest => exact manifest_page_iff h hpaged he
      | _ => simp [h, countsItems, leavesResponse] at hcounts hleaves

/-- The last page of two short capabilities. -/
def shortPage : DescriptorResponse :=
  { type := .Capabilities, is_paged := true, total_count := 2, returned_count := 2, next_cursor := 2,
    done := true, capabilities := [⟨[97], []⟩, ⟨[98], []⟩] }

theorem shortPage_consistent : ∃ p, compactIndexedProfileCodec.encodeDescriptorResponse shortPage = some p ∧
    ((∃ d, compactIndexedProfileCodec.decodeDescriptorResponse p = some d ∧ ConsistentPage shortPage d) ↔
      ∃ k, CutsAt shortPage k ∧ Tells (sentPage shortPage k) k) := by
  have hsome : (compactIndexedProfileCodec.encodeDescriptorResponse shortPage).isSome := by decide +kernel
  obtain ⟨p, hp⟩ := Option.isSome_iff_exists.mp hsome
  exact ⟨p, hp, compact_page_iff rfl hp⟩

/-- A page of three capabilities with full texts, of which two fit. -/
def widePage : DescriptorResponse :=
  { type := .Capabilities, is_paged := true, total_count := 3, returned_count := 3, next_cursor := 3,
    done := true, capabilities := List.replicate 3 ⟨List.replicate 32 107, List.replicate 56 100⟩ }

/-- The third capability is dropped, and the page says that all came and none is left. -/
theorem widePage_overstated : ¬ ∀ r p, r.is_paged = true →
    compactIndexedProfileCodec.encodeDescriptorResponse r = some p →
    ∃ d, compactIndexedProfileCodec.decodeDescriptorResponse p = some d ∧ ConsistentPage r d := by
  intro hall
  have hsome : (compactIndexedProfileCodec.encodeDescriptorResponse widePage).isSome ∧
      ∀ p ∈ compactIndexedProfileCodec.encodeDescriptorResponse widePage,
        ∀ d ∈ compactIndexedProfileCodec.decodeDescriptorResponse p,
          (pageItems d).length = 2 ∧ d.returned_count = 3 ∧ d.done = true := by decide +kernel
  obtain ⟨p, hp⟩ := Option.isSome_iff_exists.mp hsome.1
  obtain ⟨d, hd, hconsistent⟩ := hall widePage p rfl hp
  obtain ⟨hitems, hreturned, -⟩ := hsome.2 p hp d hd
  have htells := hconsistent.tells.returned
  rw [hitems, hreturned] at htells
  exact absurd htells (by decide)

end EspNowLink
