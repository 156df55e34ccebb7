import EspNowLink.Descriptor.Encode
import Mathlib.Tactic.Set

open Framework

namespace EspNowLink

/-- The bytes that `canFit` keeps free. -/
def reserved (reserve : Bool) : Nat := if reserve then kPagedMetaReserveBytes else 0

/-- Room for `n` more bytes. -/
def Room (reserve : Bool) (out : Bytes) (n : Nat) : Prop :=
  out.length + n + reserved reserve ≤ kMaxPayload

instance (reserve : Bool) (out : Bytes) (n : Nat) : Decidable (Room reserve out n) :=
  inferInstanceAs (Decidable (_ ≤ _))

section Append

variable {reserve : Bool} {out : Bytes}

@[simp] theorem canFit_iff {n : Nat} : canFit reserve out n = true ↔ Room reserve out n := by
  simp [canFit, Room, reserved]

@[simp] theorem canFit_eq_false {n : Nat} : canFit reserve out n = false ↔ ¬ Room reserve out n := by
  rw [← canFit_iff, Bool.not_eq_true]

theorem Room.mono {m n : Nat} (h : Room reserve out n) (hmn : m ≤ n) : Room reserve out m := by
  unfold Room at h ⊢
  omega

theorem room_append {fs : List Tlv} {n : Nat} :
    Room reserve (out ++ Tlv.encode fs) n ↔ Room reserve out (Tlv.sizes fs + n) := by
  unfold Room
  rw [List.length_append, Tlv.encode_length]
  omega

theorem Room.append {fs : List Tlv} (h : Room reserve out (Tlv.sizes fs)) :
    Room reserve (out ++ Tlv.encode fs) 0 := room_append.mpr h

/-- Fields are appended when there is room for all of them, and not at all otherwise. -/
theorem tryAppendAll_eq (fs : List Tlv) (h : Room reserve out 0) :
    tryAppendAll reserve out fs =
      if Room reserve out (Tlv.sizes fs) then some (out ++ Tlv.encode fs) else none := by
  induction fs generalizing out with
  | nil => simp [tryAppendAll, h]
  | cons f fs ih =>
    have hunfold : tryAppendAll reserve out (f :: fs) =
        (tryAppend reserve out f).bind fun out => tryAppendAll reserve out fs := rfl
    rw [hunfold, tryAppend]
    by_cases hf : Room reserve out f.size
    · have hone : out ++ f.bytes = out ++ Tlv.encode [f] := by simp
      have hroom : Room reserve (out ++ Tlv.encode [f]) 0 := Room.append (by simpa using hf)
      rw [if_pos (canFit_iff.mpr hf), Option.bind_some, hone, ih hroom]
      simp only [room_append, Tlv.sizes_cons, Tlv.sizes_nil, Nat.add_zero, List.append_assoc,
        ← Tlv.encode_append, List.singleton_append]
    · have hall : ¬ Room reserve out (Tlv.sizes (f :: fs)) := by
        intro hr
        exact hf (hr.mono (by rw [Tlv.sizes_cons]; omega))
      rw [if_neg (fun hc => hf (canFit_iff.mp hc)), if_neg hall]
      rfl

theorem tryAppendAll_some {fs : List Tlv} {out' : Bytes} (h : Room reserve out 0)
    (hout : tryAppendAll reserve out fs = some out') :
    Room reserve out (Tlv.sizes fs) ∧ out' = out ++ Tlv.encode fs := by
  rw [tryAppendAll_eq fs h] at hout
  split at hout
  case isTrue hroom => exact ⟨hroom, (Option.some.inj hout).symm⟩
  case isFalse => cases hout

theorem room_of_tryAppendAll_cons {f : Tlv} {fs : List Tlv} {out' : Bytes}
    (hout : tryAppendAll reserve out (f :: fs) = some out') : Room reserve out 0 := by
  obtain ⟨mid, hmid, -⟩ := Option.bind_eq_some_iff.mp hout
  unfold tryAppend at hmid
  split at hmid
  case isTrue hfit => exact (canFit_iff.mp hfit).mono (Nat.zero_le _)
  case isFalse => cases hmid

/-- The optional parts that are kept are a sublist, and all of them when there is room. -/
theorem appendExtras_spec (parts : List (List Tlv)) (h : Room reserve out 0) :
    ∃ kept, kept.Sublist parts ∧
      (appendExtras reserve out parts).1 = out ++ Tlv.encode kept.flatten ∧
      Room reserve out (Tlv.sizes kept.flatten) ∧
      (Room reserve out (Tlv.sizes parts.flatten) →
        kept = parts ∧ (appendExtras reserve out parts).2 = false) := by
  induction parts generalizing out with
  | nil => exact ⟨[], List.Sublist.refl _, by simp [appendExtras], by simpa using h, fun _ => ⟨rfl, rfl⟩⟩
  | cons part parts ih =>
    by_cases hpart : Room reserve out (Tlv.sizes part)
    · obtain ⟨kept, hsub, hout, hroom, hall⟩ := ih hpart.append
      refine ⟨part :: kept, hsub.cons_cons part, ?_, ?_, ?_⟩
      · rw [appendExtras, if_pos (canFit_iff.mpr hpart), hout]
        simp
      · simpa [room_append] using hroom
      · intro hr
        have hrest : Room reserve (out ++ Tlv.encode part) (Tlv.sizes parts.flatten) := by
          simpa [room_append] using hr
        obtain ⟨hkept, hcut⟩ := hall hrest
        rw [appendExtras, if_pos (canFit_iff.mpr hpart)]
        exact ⟨by rw [hkept], hcut⟩
    · obtain ⟨kept, hsub, hout, hroom, -⟩ := ih h
      refine ⟨kept, hsub.cons part, ?_, hroom, ?_⟩
      · rw [appendExtras, if_neg (fun hc => hpart (canFit_iff.mp hc))]
        exact hout
      · intro hr
        exact absurd (hr.mono (by simp)) hpart

end Append

section Items

variable {α : Type} (fields : α → List Tlv) (extras : α → List (List Tlv))

/-- All fields of an item. -/
def itemFields (x : α) : List Tlv := fields x ++ (extras x).flatten

/-- Leaving out optional parts of an item writes another item. -/
def Strippable : Prop :=
  ∀ x kept, List.Sublist kept (extras x) → ∃ y, itemFields fields extras y = fields x ++ kept.flatten

variable {fields extras} {reserve : Bool} {out : Bytes}

/-- What is written of a list of items is a list of items, and the list itself when there is room. -/
theorem appendItems_spec (hstrip : Strippable fields extras) (xs : List α) (h : Room reserve out 0) :
    ∃ ys : List α,
      (appendItems reserve fields extras out xs).out =
        out ++ Tlv.encode (ys.flatMap (itemFields fields extras)) ∧
      Room reserve out (Tlv.sizes (ys.flatMap (itemFields fields extras))) ∧
      (Room reserve out (Tlv.sizes (xs.flatMap (itemFields fields extras))) → ys = xs) := by
  induction xs generalizing out with
  | nil => exact ⟨[], by simp [appendItems], by simpa using h, fun _ => rfl⟩
  | cons x xs ih =>
    by_cases hx : Room reserve out (Tlv.sizes (fields x))
    · obtain ⟨kept, hsub, hkept, hroom, hallKept⟩ := appendExtras_spec (extras x) hx.append
      obtain ⟨y, hy⟩ := hstrip x kept hsub
      have hout : out ++ Tlv.encode (fields x) ++ Tlv.encode kept.flatten =
          out ++ Tlv.encode (itemFields fields extras y) := by
        rw [hy]
        simp
      have hroomY : Room reserve (out ++ Tlv.encode (itemFields fields extras y)) 0 := by
        rw [← hout]
        exact hroom.append
      obtain ⟨ys, hys, hroomYs, hallYs⟩ := ih hroomY
      -- `x` itself stands for what is written of it when all of it is
      by_cases hroomX : Room reserve out (Tlv.sizes (itemFields fields extras x))
      · have hrest : Room reserve (out ++ Tlv.encode (fields x)) (Tlv.sizes (extras x).flatten) := by
          simpa [room_append, itemFields] using hroomX
        obtain ⟨rfl, -⟩ := hallKept hrest
        have hxy : itemFields fields extras y = itemFields fields extras x := hy
        rw [hxy] at hout hys hroomYs hallYs
        refine ⟨x :: ys, ?_, ?_, ?_⟩
        · rw [appendItems, if_neg (by simpa using hx)]
          simp only [hkept, hout, hys]
          simp
        · simpa [room_append] using hroomYs
        · intro hr
          rw [hallYs (by simpa [room_append] using hr)]
      · refine ⟨y :: ys, ?_, ?_, ?_⟩
        · rw [appendItems, if_neg (by simpa using hx)]
          simp only [hkept, hout, hys]
          simp
        · simpa [room_append] using hroomYs
        · intro hr
          exact absurd (hr.mono (by simp)) hroomX
    · refine ⟨[], ?_, ?_, ?_⟩
      · rw [appendItems, if_pos (by simpa using hx)]
        simp
      · simpa using h
      · intro hr
        exact absurd (hr.mono (by simp [itemFields])) hx

theorem strippable_noExtras (fields : α → List Tlv) : Strippable fields noExtras := by
  intro x kept hsub
  obtain rfl := List.sublist_nil.mp hsub
  exact ⟨x, rfl⟩

@[simp] theorem itemFields_noExtras : itemFields fields noExtras = fields := by
  funext x
  simp [itemFields, noExtras]

end Items

/-- The fields of the part of the response that its type selects. -/
def bodyFields (r : DescriptorResponse) : List Tlv :=
  match r.type with
  | .Device => deviceFields r.device
  | .Capabilities => r.capabilities.flatMap capabilityFields
  | .Telemetry => r.telemetry.flatMap (itemFields telemetryFields telemetryExtras)
  | .TelemetrySnapshot => r.telemetry_samples.flatMap sampleFields
  | .Liveness => livenessFields r.liveness
  | .Time => timeFields r.time
  | .NodeBundle => bundleFields r ++ (bundleSamples r).flatMap sampleFields ++
      (bundleSettings r).flatMap settingFields
  | .Settings => r.settings.flatMap settingFields
  | .Setting => settingFields r.setting
  | .LogStatus => logStatusFields r.toLogReport
  | .LogChunk => logChunkHeader r.toLogReport ++ [⟨0xA2, 0x08, r.log_chunk⟩]
  | .StorageInfo => storageInfoFields r.storage_info
  | .StorageList => [utf8Field 0xB8 r.storage_path, utf8Field 0xB9 r.storage_parent_path] ++
      r.storage_entries.flatMap storageEntryFields
  | .StorageStat => storageStatFields r
  | .OtaStatus => otaStatusFields r.ota_status
  | .OtaManifest => r.ota_manifest.flatMap otaEntryFields
  | .OtaCapacity => otaCapacityFields r.ota_capacity
  | .OtaGateInfo => otaGateFields r.ota_gate
  | _ => []

def pagePart (r : DescriptorResponse) : List Tlv :=
  if r.is_paged then pageFields r.toPageMeta else []

/-- All fields of a response. -/
def allFields (r : DescriptorResponse) : List Tlv := headerFields r ++ bodyFields r ++ pagePart r

/-- A log chunk without data: its field is written even where there is no room for it. -/
def EmptyChunk (r : DescriptorResponse) : Prop := r.type = .LogChunk ∧ r.log_chunk = []

/-- The whole response fits one payload. -/
def FitsPayload (r : DescriptorResponse) : Prop :=
  Tlv.sizes (allFields r) ≤ kMaxPayload ∨ EmptyChunk r

instance (r : DescriptorResponse) : Decidable (EmptyChunk r) := inferInstanceAs (Decidable (_ ∧ _))
instance (r : DescriptorResponse) : Decidable (FitsPayload r) := inferInstanceAs (Decidable (_ ∨ _))

/-- What cutting lists and the log chunk leaves alone. -/
structure SameHead (r r' : DescriptorResponse) : Prop where
  type : r'.type = r.type
  message : r'.message = r.message
  bundle_mask : r'.bundle_mask = r.bundle_mask
  page : r'.toPageMeta = r.toPageMeta
  time : r'.time = r.time
  storage_path : r'.storage_path = r.storage_path
  storage_stat : r'.storage_stat = r.storage_stat

theorem SameHead.refl (r : DescriptorResponse) : SameHead r r := ⟨rfl, rfl, rfl, rfl, rfl, rfl, rfl⟩

theorem sublist_short {β : Type} {l m : List β} (h : l.Sublist m) (hm : m.length ≤ 1) :
    l = [] ∨ l = m := by
  rcases Nat.eq_zero_or_pos l.length with hl | hl
  · exact .inl (List.length_eq_zero_iff.mp hl)
  · exact .inr (h.eq_of_length_le (by omega))

theorem strippable_telemetry : Strippable telemetryFields telemetryExtras := by
  intro x kept hsub
  obtain ⟨bounds, description, rfl, hb, hd⟩ := List.sublist_append_iff.mp hsub
  -- the item with its bounds and its description cleared as far as they are left out
  rcases sublist_short hb (by split <;> simp) with rfl | rfl <;>
    rcases sublist_short hd (by split <;> simp) with rfl | rfl
  · refine ⟨{ x with min_value := 0, max_value := 0, description := [] }, ?_⟩
    simp [itemFields, telemetryExtras, telemetryFields, hasMinmax, Float32Bits.isZero]
  · refine ⟨{ x with min_value := 0, max_value := 0 }, ?_⟩
    simp [itemFields, telemetryExtras, telemetryFields, hasMinmax, Float32Bits.isZero]
  · refine ⟨{ x with description := [] }, ?_⟩
    simp [itemFields, telemetryExtras, telemetryFields, hasMinmax]
  · exact ⟨x, rfl⟩

/-- The section written for `r` after `out` is the body of `r'`, which is `r` itself when all of it
fits. -/
structure WritesBody (r : DescriptorResponse) (out : Bytes) (s : Section) (r' : DescriptorResponse) :
    Prop where
  head : SameHead r r'
  out_eq : s.out = out ++ Tlv.encode (bodyFields r')
  fits : s.out.length ≤ kMaxPayload ∨ EmptyChunk r'
  bound : s.out.length ≤ kMaxPayload + 4
  all : Room r.is_paged out (Tlv.sizes (bodyFields r)) ∨ EmptyChunk r → r' = r

section Body

variable {r : DescriptorResponse} {out : Bytes} {s : Section}

theorem Room.length_le {reserve : Bool} {n : Nat} (h : Room reserve out n) :
    out.length ≤ kMaxPayload := by
  unfold Room at h
  omega

/-- The body written with the room for the page metadata kept. -/
theorem WritesBody.of_room {r' : DescriptorResponse} (hhead : SameHead r r')
    (hout : s.out = out ++ Tlv.encode (bodyFields r'))
    (hroom : Room r.is_paged out (Tlv.sizes (bodyFields r')))
    (hall : Room r.is_paged out (Tlv.sizes (bodyFields r)) → r' = r) (htype : r.type ≠ .LogChunk) :
    WritesBody r out s r' := by
  have hlen : s.out.length ≤ kMaxPayload := by
    rw [hout]
    exact hroom.append.length_le
  exact ⟨hhead, hout, .inl hlen, by omega, fun h => hall (h.resolve_right fun hc => htype hc.1)⟩

theorem writesBody_of_fields {fs : List Tlv} (h : Room r.is_paged out 0) (hfs : bodyFields r = fs)
    (htype : r.type ≠ .LogChunk) (hs : fixedSection r.is_paged out fs = some s) :
    ∃ r', WritesBody r out s r' := by
  obtain ⟨out', hout, rfl⟩ := Option.map_eq_some_iff.mp hs
  obtain ⟨hroom, rfl⟩ := tryAppendAll_some h hout
  exact ⟨r, .of_room (.refl r) (by rw [hfs]) (by rwa [hfs]) (fun _ => rfl) htype⟩

theorem writesBody_of_items {α : Type} {fields : α → List Tlv} {extras : α → List (List Tlv)}
    {xs : List α} (put : List α → DescriptorResponse) (h : Room r.is_paged out 0)
    (hstrip : Strippable fields extras) (hput : put xs = r) (hhead : ∀ ys, SameHead r (put ys))
    (hbody : ∀ ys, bodyFields (put ys) = ys.flatMap (itemFields fields extras))
    (htype : r.type ≠ .LogChunk)
    (hs : some (appendItems r.is_paged fields extras out xs) = some s) :
    ∃ r', WritesBody r out s r' := by
  obtain rfl := Option.some.inj hs
  obtain ⟨ys, hout, hroom, hall⟩ := appendItems_spec hstrip xs h
  refine ⟨put ys, .of_room (hhead ys) (by rw [hbody, hout]) (by rwa [hbody]) ?_ htype⟩
  intro hr
  have hxs : bodyFields r = xs.flatMap (itemFields fields extras) := by rw [← hbody xs, hput]
  rw [hxs] at hr
  rw [hall hr, hput]

/-- A bundle with its lists cut; a list that the mask does not select stays as it is. -/
def cutBundle (r : DescriptorResponse) (samples : List TelemetrySample)
    (settings : List SettingDescriptor) : DescriptorResponse :=
  { r with
    telemetry_samples := if effectiveMask r.bundle_mask &&& kNodeBundleMaskTelemetry ≠ 0 then samples
      else r.telemetry_samples
    settings := if effectiveMask r.bundle_mask &&& kNodeBundleMaskSettings ≠ 0 then settings
      else r.settings }

theorem bundleSamples_cutBundle {samples : List TelemetrySample} {settings : List SettingDescriptor}
    (hsamples : bundleSamples r = [] → samples = []) :
    bundleSamples (cutBundle r samples settings) = samples := by
  by_cases hmask : effectiveMask r.bundle_mask &&& kNodeBundleMaskTelemetry = 0
  · rw [hsamples (by simp [bundleSamples, hmask])]
    simp [bundleSamples, cutBundle, hmask]
  · simp [bundleSamples, cutBundle, hmask]

theorem bundleSettings_cutBundle {samples : List TelemetrySample} {settings : List SettingDescriptor}
    (hsettings : bundleSettings r = [] → settings = []) :
    bundleSettings (cutBundle r samples settings) = settings := by
  by_cases hmask : effectiveMask r.bundle_mask &&& kNodeBundleMaskSettings = 0
  · rw [hsettings (by simp [bundleSettings, hmask])]
    simp [bundleSettings, cutBundle, hmask]
  · simp [bundleSettings, cutBundle, hmask]

theorem bodyFields_cutBundle (htype : r.type = .NodeBundle) {samples : List TelemetrySample}
    {settings : List SettingDescriptor} (hsamples : bundleSamples r = [] → samples = [])
    (hsettings : bundleSettings r = [] → settings = []) :
    bodyFields (cutBundle r samples settings) =
      bundleFields r ++ samples.flatMap sampleFields ++ settings.flatMap settingFields := by
  have hfixed : bundleFields (cutBundle r samples settings) = bundleFields r := rfl
  have htype' : (cutBundle r samples settings).type = .NodeBundle := htype
  rw [bodyFields, htype', bundleSamples_cutBundle hsamples, bundleSettings_cutBundle hsettings, hfixed]

theorem cutBundle_self : cutBundle r (bundleSamples r) (bundleSettings r) = r := by
  have hsamples : (if effectiveMask r.bundle_mask &&& kNodeBundleMaskTelemetry ≠ 0 then bundleSamples r
      else r.telemetry_samples) = r.telemetry_samples := by
    unfold bundleSamples
    split <;> rfl
  have hsettings : (if effectiveMask r.bundle_mask &&& kNodeBundleMaskSettings ≠ 0 then
      bundleSettings r else r.settings) = r.settings := by
    unfold bundleSettings
    split <;> rfl
  rw [cutBundle, hsamples, hsettings]

theorem writesBody_of_bundle (h : Room r.is_paged out 0) (htype : r.type = .NodeBundle)
    (hs : bundleSection r r.is_paged out = some s) : ∃ r', WritesBody r out s r' := by
  obtain ⟨out', hout, rfl⟩ := Option.map_eq_some_iff.mp hs
  obtain ⟨hroom, rfl⟩ := tryAppendAll_some h hout
  obtain ⟨samples, hsamples, hroomSamples, hallSamples⟩ :=
    appendItems_spec (strippable_noExtras sampleFields) (bundleSamples r) hroom.append
  obtain ⟨settings, hsettings, hroomSettings, hallSettings⟩ :=
    appendItems_spec (strippable_noExtras settingFields) (bundleSettings r) hroomSamples.append
  simp only [itemFields_noExtras] at hsamples hroomSamples hallSamples hsettings hroomSettings hallSettings
  have hbody : bodyFields (cutBundle r samples settings) =
      bundleFields r ++ samples.flatMap sampleFields ++ settings.flatMap settingFields := by
    refine bodyFields_cutBundle htype ?_ ?_
    · intro hnil
      rw [hnil] at hallSamples
      exact hallSamples (by simpa using hroom.append)
    · intro hnil
      rw [hnil] at hallSettings
      exact hallSettings (by simpa using hroomSamples.append)
  have hself : bodyFields r =
      bundleFields r ++ (bundleSamples r).flatMap sampleFields ++ (bundleSettings r).flatMap settingFields := by
    rw [bodyFields, htype]
  refine ⟨cutBundle r samples settings, .of_room ⟨rfl, rfl, rfl, rfl, rfl, rfl, rfl⟩ ?_ ?_ ?_ ?_⟩
  · rw [hbody]
    change (appendItems r.is_paged settingFields noExtras (appendItems _ _ _ _ _).out _).out = _
    rw [hsamples, hsettings]
    simp
  · rw [hbody, Tlv.sizes_append, Tlv.sizes_append, Nat.add_assoc]
    rwa [room_append, room_append] at hroomSettings
  · intro hr
    rw [hself, Tlv.sizes_append, Tlv.sizes_append, Nat.add_assoc] at hr
    have hone : samples = bundleSamples r := hallSamples (room_append.mpr (hr.mono (by omega)))
    subst hone
    rw [hallSettings (by rwa [room_append, room_append]), cutBundle_self]
  · simp [htype]

theorem writesBody_of_storageList (h : Room r.is_paged out 0) (htype : r.type = .StorageList)
    (hs : storageListSection r r.is_paged out = some s) : ∃ r', WritesBody r out s r' := by
  obtain ⟨out', hout, rfl⟩ := Option.map_eq_some_iff.mp hs
  obtain ⟨hroom, rfl⟩ := tryAppendAll_some h hout
  obtain ⟨entries, hentries, hroomEntries, hall⟩ :=
    appendItems_spec (strippable_noExtras storageEntryFields) r.storage_entries hroom.append
  simp only [itemFields_noExtras] at *
  have hbody : ∀ ys, bodyFields { r with storage_entries := ys } =
      [utf8Field 0xB8 r.storage_path, utf8Field 0xB9 r.storage_parent_path] ++
        ys.flatMap storageEntryFields := by
    intro ys
    simp [bodyFields, htype]
  refine ⟨{ r with storage_entries := entries }, .of_room ⟨rfl, rfl, rfl, rfl, rfl, rfl, rfl⟩ ?_ ?_ ?_ ?_⟩
  · rw [hbody, hentries, List.append_assoc, ← Tlv.encode_append]
  · rw [hbody]
    rwa [room_append, ← Tlv.sizes_append] at hroomEntries
  · intro hr
    rw [hall]
    rw [room_append, ← Tlv.sizes_append]
    rwa [← hbody]
  · simp [htype]

theorem writesBody_of_logChunk (htype : r.type = .LogChunk)
    (hs : logChunkSection r.toLogReport r.is_paged out = some s) : ∃ r', WritesBody r out s r' := by
  have hbody : ∀ bs, bodyFields { r with log_chunk := bs } =
      logChunkHeader r.toLogReport ++ [⟨0xA2, 0x08, bs⟩] := by
    intro bs
    simp [bodyFields, htype, logChunkHeader]
  unfold logChunkSection at hs
  by_cases hroom : Room r.is_paged out (Tlv.sizes (logChunkHeader r.toLogReport))
  case neg =>
    rw [if_pos (by simpa using hroom)] at hs
    cases hs
  rw [if_neg (by simpa using hroom)] at hs
  obtain rfl := Option.some.inj hs
  set emit := min r.log_chunk.length
    (kMaxPayload - (out ++ Tlv.encode (logChunkHeader r.toLogReport)).length - 4) with hemit
  have hlen : (out ++ Tlv.encode (logChunkHeader r.toLogReport)).length ≤ kMaxPayload :=
    hroom.append.length_le
  have htake : (r.log_chunk.take emit).length = emit := by
    rw [List.length_take]
    omega
  refine ⟨{ r with log_chunk := r.log_chunk.take emit }, ⟨rfl, rfl, rfl, rfl, rfl, rfl, rfl⟩, ?_, ?_, ?_, ?_⟩
  · rw [hbody]
    simp
  · rcases Nat.eq_zero_or_pos emit with hzero | hpos
    · exact .inr ⟨htype, by simp [hzero]⟩
    · left
      simp only [List.length_append, Tlv.bytes_length, Tlv.size, htake] at hlen ⊢
      simp only [List.length_append] at hemit
      omega
  · simp only [List.length_append, Tlv.bytes_length, Tlv.size, htake] at hlen ⊢
    simp only [List.length_append] at hemit
    omega
  · rintro (hr | hempty)
    · have hself : r.log_chunk.take emit = r.log_chunk := by
        apply List.take_of_length_le
        have hall := hbody r.log_chunk
        change bodyFields r = _ at hall
        rw [hall] at hr
        simp only [Room, Tlv.sizes_append, Tlv.sizes_cons, Tlv.sizes_nil, Tlv.size] at hr
        simp only [List.length_append, Tlv.encode_length] at hemit
        omega
      rw [hself]
    · rw [hempty.2, List.take_nil, ← hempty.2]

theorem encodeBody_spec (h : Room r.is_paged out 0) (hs : encodeBody r out = some s) :
    ∃ r', WritesBody r out s r' := by
  unfold encodeBody at hs
  cases htype : r.type with
  | Capabilities =>
    refine writesBody_of_items (fun ys => { r with capabilities := ys }) h (strippable_noExtras _) rfl
      (fun _ => ⟨rfl, rfl, rfl, rfl, rfl, rfl, rfl⟩) ?_ (by simp [htype]) (by simpa [htype] using hs)
    intro ys
    simp [bodyFields, htype]
  | Telemetry =>
    refine writesBody_of_items (fun ys => { r with telemetry := ys }) h strippable_telemetry rfl
      (fun _ => ⟨rfl, rfl, rfl, rfl, rfl, rfl, rfl⟩) ?_ (by simp [htype]) (by simpa [htype] using hs)
    intro ys
    simp [bodyFields, htype]
  | TelemetrySnapshot =>
    refine writesBody_of_items (fun ys => { r with telemetry_samples := ys }) h (strippable_noExtras _) rfl
      (fun _ => ⟨rfl, rfl, rfl, rfl, rfl, rfl, rfl⟩) ?_ (by simp [htype]) (by simpa [htype] using hs)
    intro ys
    simp [bodyFields, htype]
  | Settings =>
    refine writesBody_of_items (fun ys => { r with settings := ys }) h (strippable_noExtras _) rfl
      (fun _ => ⟨rfl, rfl, rfl, rfl, rfl, rfl, rfl⟩) ?_ (by simp [htype]) (by simpa [htype] using hs)
    intro ys
    simp [bodyFields, htype]
  | OtaManifest =>
    refine writesBody_of_items (fun ys => { r with ota_manifest := ys }) h (strippable_noExtras _) rfl
      (fun _ => ⟨rfl, rfl, rfl, rfl, rfl, rfl, rfl⟩) ?_ (by simp [htype]) (by simpa [htype] using hs)
    intro ys
    simp [bodyFields, htype]
  | NodeBundle => exact writesBody_of_bundle h htype (by simpa [htype] using hs)
  | StorageList => exact writesBody_of_storageList h htype (by simpa [htype] using hs)
  | LogChunk => exact writesBody_of_logChunk htype (by simpa [htype] using hs)
  | Unknown | Ack | Error | Unnamed =>
    have hnil : bodyFields r = [] := by simp [bodyFields, htype]
    refine writesBody_of_fields h hnil (by simp [htype]) ?_
    simpa [htype, fixedSection, tryAppendAll] using hs
  | _ => exact writesBody_of_fields h rfl (by simp [htype]) (by simpa [htype, bodyFields] using hs)

end Body

@[simp] theorem sizes_pageFields (page : PageMeta) :
    Tlv.sizes (pageFields page) = kPagedMetaReserveBytes := rfl

theorem sizes_pagePart (r : DescriptorResponse) : Tlv.sizes (pagePart r) = reserved r.is_paged := by
  unfold pagePart reserved
  split <;> simp

theorem sizes_allFields (r : DescriptorResponse) : Tlv.sizes (allFields r) =
    Tlv.sizes (headerFields r) + Tlv.sizes (bodyFields r) + reserved r.is_paged := by
  rw [allFields, Tlv.sizes_append, Tlv.sizes_append, sizes_pagePart]

/-- The response that was written in place of `r`. -/
structure WrittenAs (r : DescriptorResponse) (payload : Bytes) (r' : DescriptorResponse) : Prop where
  head : SameHead r r'
  payload_eq : payload = Tlv.encode (allFields r')
  fits : FitsPayload r'
  bound : Tlv.sizes (allFields r') ≤ kMaxPayload + 4
  all : FitsPayload r → r' = r

section Response

variable {r r' : DescriptorResponse} {e : EncodedResponse}

theorem SameHead.headerFields_eq (h : SameHead r r') : headerFields r' = headerFields r := by
  simp only [headerFields, h.type, h.message, h.bundle_mask]

/-- A page with another number of items than it was to have goes out with changed metadata. -/
def CutsPage (r : DescriptorResponse) : Prop :=
  r.is_paged = true ∧ countsItems r.type = true ∧
    ∃ s, (tryAppendAll r.is_paged [] (headerFields r)).bind (encodeBody r) = some s ∧ s.emitted ≠ r.returned_count

/-- Where the page is not cut its metadata goes out as it is. -/
theorem encodePage_spec {s t : Section} (hs : encodePage r s = some t)
    (hcut : r.is_paged = true → ¬ (countsItems r.type = true ∧ s.emitted ≠ r.returned_count)) :
    t.out = s.out ++ Tlv.encode (pagePart r) ∧ (r.is_paged = true → t.out.length ≤ kMaxPayload) := by
  unfold encodePage at hs
  cases hpaged : r.is_paged with
  | false =>
    obtain rfl : s = t := by simpa [hpaged] using hs
    simp [pagePart, hpaged]
  | true =>
    rw [hpaged] at hs
    obtain ⟨out, hout, rfl⟩ := Option.map_eq_some_iff.mp hs
    have hpatch : patchPageMeta r.type r.toPageMeta s.emitted = r.toPageMeta := by
      rw [patchPageMeta, if_neg (by simpa using hcut hpaged)]
    rw [hpatch] at hout
    obtain ⟨hroom, rfl⟩ := tryAppendAll_some (room_of_tryAppendAll_cons hout) hout
    exact ⟨by rw [pagePart, hpaged]; rfl, fun _ => hroom.append.length_le⟩

theorem encode_spec (he : encodeDescriptorResponse r = some e) (hmark : e.marked = false)
    (hpage : ¬ CutsPage r) : ∃ r', WrittenAs r e.payload r' := by
  obtain ⟨t, ht, rfl⟩ := Option.map_eq_some_iff.mp he
  obtain ⟨s, hs, ht⟩ := Option.bind_eq_some_iff.mp ht
  obtain ⟨out, hout, hs⟩ := Option.bind_eq_some_iff.mp hs
  obtain ⟨hroom, rfl⟩ := tryAppendAll_some (room_of_tryAppendAll_cons hout) hout
  have hmarker : markTruncated t = ⟨t.out, t.truncated, false⟩ := by
    simp only [markTruncated] at hmark ⊢
    split
    case isTrue hfit =>
      rw [if_pos hfit] at hmark
      cases hmark
    case isFalse => rfl
  have hcut : r.is_paged = true → ¬ (countsItems r.type = true ∧ s.emitted ≠ r.returned_count) :=
    fun hpaged hcut => hpage ⟨hpaged, hcut.1, s, by rw [hout]; exact hs, hcut.2⟩
  rw [hmarker]
  obtain ⟨r', hbody⟩ := encodeBody_spec (by simpa using hroom.append) hs
  obtain ⟨hpayload, hlen⟩ := encodePage_spec ht hcut
  have hout' : t.out = Tlv.encode (allFields r') := by
    have hpart : pagePart r' = pagePart r := by simp only [pagePart, hbody.head.page]
    rw [hpayload, hbody.out_eq, allFields, hpart, hbody.head.headerFields_eq]
    simp
  have hsizes : t.out.length = Tlv.sizes (allFields r') := by rw [hout', Tlv.encode_length]
  have hunpaged : r.is_paged = false → t.out = s.out := by
    intro hp
    rw [hpayload]
    simp [pagePart, hp]
  refine ⟨r', hbody.head, hout', ?_, ?_, ?_⟩
  · cases hp : r.is_paged with
    | true => exact .inl (hsizes ▸ hlen hp)
    | false =>
      refine hbody.fits.imp_left fun hs => ?_
      rwa [← hsizes, hunpaged hp]
  · rw [← hsizes]
    cases hp : r.is_paged with
    | true => exact Nat.le_add_right_of_le (hlen hp)
    | false =>
      rw [hunpaged hp]
      exact hbody.bound
  · intro hfits
    refine hbody.all (hfits.imp_left fun hs => ?_)
    rw [sizes_allFields] at hs
    simpa [Room] using hs

end Response

end EspNowLink
