import EspNowLink.Codec.Wrapped
import EspNowLink.Descriptor.ReadFields

open Framework

namespace EspNowLink

section ReadBack

variable {tag : UInt8} (s : DescriptorQuery)

@[simp] theorem u8Of_u8Field (v : UInt8) (k) : u8Of (u8Field tag v) s k = k v := rfl

@[simp] theorem textOf_utf8Field (v : Bytes) (k) : textOf (utf8Field tag v) s k = k v := rfl

@[simp] theorem boolOf_boolField (v : Bool) (k) : boolOf (boolField tag v) s k = k v := by
  cases v <;> rfl

@[simp] theorem u16Of_u16Field (v : UInt16) (k) : u16Of (u16Field tag v) s k = k v := by
  simp [u16Of, u16Field, le16, readLe16_le16]

@[simp] theorem u32Of_u32Field (v : UInt32) (k) : u32Of (u32Field tag v) s k = k v := by
  simp [u32Of, u32Field, le32, readLe32_le32]

/-- What the parser reads of a query that has no maintenance and no topology fields. -/
def readHead (query : DescriptorQuery) : DescriptorQuery :=
  let paged := query.paged && supportsPaging query.type
  let by_id := selectsSetting query.type && query.has_setting_id
  { type := query.type
    key := if selectsSetting query.type && !query.has_setting_id then query.key else []
    has_setting_id := by_id
    setting_id := if by_id then query.setting_id else 0
    value := if query.type = .SetSetting then query.value else []
    time_epoch_s := if query.type = .SetTime then query.time_epoch_s.toUInt32.toUInt64 else 0
    paged := paged
    cursor := if paged then query.cursor else 0
    page_size := if paged then query.page_size else 0 }

end ReadBack

theorem readQueryFields_append (fs gs : List Tlv) :
    readQueryFields (fs ++ gs) = gs.foldl readQueryField (readQueryFields fs) := by
  simp [readQueryFields]

theorem foldl_pagingFields (s query : DescriptorQuery) :
    (pagingFields query).foldl readQueryField s =
      if query.paged && supportsPaging query.type then
        { s with paged := true, cursor := query.cursor, page_size := query.page_size }
      else s := by
  unfold pagingFields
  split
  · simp [readQueryField, readHeadField]
  · rfl

theorem readQueryFields_head (query : DescriptorQuery) :
    readQueryFields ([u8Field 0x01 kSchemaVersion, u8Field 0x10 query.type.toByte] ++
      selectorFields query) = { readHead query with
        value := [], time_epoch_s := 0, paged := false, cursor := 0, page_size := 0 } := by
  cases hselect : selectsSetting query.type with
  | false =>
    simp [readQueryFields, selectorFields, hselect, readHead, readQueryField, readHeadField]
  | true =>
    cases hid : query.has_setting_id with
    | false =>
      simp [readQueryFields, selectorFields, hselect, hid, readHead, readQueryField, readHeadField]
    | true =>
      simp [readQueryFields, selectorFields, hselect, hid, readHead, readQueryField, readHeadField]

/-- The query belongs to the codecs that write flags, and has no topology argument. -/
def flaggedWhole (type : DescriptorQueryType) : Bool := !leavesQuery type && !carriesTopology type

theorem argumentFields_flagged {query : DescriptorQuery} (h : flaggedWhole query.type = true) :
    argumentFields query =
      (if query.type = .SetSetting then [utf8Field 0x12 query.value] else []) ++
      if query.type = .SetTime then [u32Field 0x13 query.time_epoch_s.toUInt32] else [] := by
  cases htype : query.type <;>
    simp [flaggedWhole, leavesQuery, carriesTopology, argumentFields, htype] at h ⊢

theorem readQueryFields_flagged {query : DescriptorQuery} (h : flaggedWhole query.type = true) :
    readQueryFields (queryFields query) = readHead query := by
  have hargument : readQueryFields ([u8Field 0x01 kSchemaVersion, u8Field 0x10 query.type.toByte] ++
      selectorFields query ++ argumentFields query) = { readHead query with
        paged := false, cursor := 0, page_size := 0 } := by
    rw [readQueryFields_append, readQueryFields_head, argumentFields_flagged h]
    by_cases hset : query.type = .SetSetting
    · simp [hset, readHead, readQueryField, readHeadField]
    · by_cases htime : query.type = .SetTime
      · simp [htime, readHead, readQueryField, readHeadField]
      · simp [hset, htime, readHead]
  rw [queryFields, readQueryFields_append, hargument, foldl_pagingFields]
  cases hpaged : query.paged && supportsPaging query.type with
  | true => simp [readHead, hpaged]
  | false => simp [readHead, hpaged]

/-- The fields of a query outside its topology part. -/
def headOf (query : DescriptorQuery) : DescriptorQuery := { query with toTopologyQuery := {} }

@[simp] theorem bytesOf_bytesField {n : Nat} {tag : UInt8} (s : DescriptorQuery) (v : Vector UInt8 n) (k) :
    bytesOf (bytesField tag v.toList) s k = k v := by
  obtain ⟨a, ha⟩ := v
  simp [bytesOf, bytesField, Vector.toList, ha]

@[simp] theorem bytesField_tag {tag : UInt8} (v : Bytes) : (bytesField tag v).tag = tag := rfl

theorem headOf_topology {query : DescriptorQuery} (h : carriesTopology query.type = true) :
    headOf (readQueryFields (queryFields query)) = { type := query.type } := by
  have hselect : selectorFields query = [] := by
    cases htype : query.type <;> simp [carriesTopology, htype] at h <;>
      simp [selectorFields, selectsSetting, htype]
  have hpaging : pagingFields query = [] := by
    cases htype : query.type <;> simp [carriesTopology, htype] at h <;>
      simp [pagingFields, supportsPaging, htype]
  rw [queryFields, hselect, hpaging]
  cases htype : query.type <;> simp [carriesTopology, htype] at h
  case TopologyStageBegin =>
    simp [argumentFields, htype, readQueryFields, readQueryField, readHeadField, readSlotField, headOf]
  case TopologyStageSlotSet =>
    simp [argumentFields, htype, readQueryFields, readQueryField, readHeadField, readSlotField, headOf]
  case TopologyStageGroupSet =>
    cases henabled : query.topology_group_enabled <;>
      simp [argumentFields, htype, henabled, readQueryFields, readQueryField, readHeadField,
        readGroupField, headOf]
  case TopologyTriggerSend =>
    simp [argumentFields, htype, readQueryFields, readQueryField, readHeadField, readGroupField, headOf]

/-- The default codec gives back the query that it was given. -/
def RoundTrips (query : DescriptorQuery) : Prop :=
  (encodeDescriptorQuery query).bind parseDescriptorQuery = some query

theorem parse_encode {query : DescriptorQuery} {payload : Bytes}
    (h : encodeDescriptorQuery query = some payload) :
    Tlv.decode payload = some (queryFields query) ∧ 8 ≤ payload.length := by
  obtain ⟨hsend, hpayload⟩ := Option.ite_none_right_eq_some.mp h
  cases hpayload
  have hshort : ∀ f ∈ queryFields query, f.value.length < 65536 := by
    intro f hf
    have hall := List.all_eq_true.mp (Bool.and_eq_true_iff.mp hsend).2 f hf
    simp only [decide_eq_true_eq] at hall
    omega
  refine ⟨Tlv.decode_encode hshort, ?_⟩
  simp [queryFields, u8Field, Tlv.size]
  omega

/-- What a round trip says of the fields that the parser reads. -/
theorem RoundTrips.read {query : DescriptorQuery} (h : RoundTrips query) :
    withKnownMask (readQueryFields (queryFields query)) = query ∧
    namesOneSetting (readQueryFields (queryFields query)) = true ∧
    argumentsValid (readQueryFields (queryFields query)) = true ∧
    (readQueryFields (queryFields query)).type ≠ .Unknown := by
  obtain ⟨payload, hpayload, hparse⟩ := Option.bind_eq_some_iff.mp h
  obtain ⟨hfields, hlen⟩ := parse_encode hpayload
  rw [parseDescriptorQuery, if_neg (by omega), hfields, Option.bind_some] at hparse
  obtain ⟨hvalid, hquery⟩ := Option.ite_none_left_eq_some.mp hparse
  simp only [Bool.or_eq_true, Bool.not_eq_true', decide_eq_true_eq, not_or, Bool.not_eq_false] at hvalid
  exact ⟨Option.some.inj hquery, hvalid.1.1.2, hvalid.1.2, hvalid.2⟩

/-- What the decoder makes of the flags and the fields. -/
def flagCarried (query : DescriptorQuery) : DescriptorQuery :=
  { type := query.type
    key := query.key
    has_setting_id := query.has_setting_id
    setting_id := if query.has_setting_id then query.setting_id else 0
    value := query.value
    time_epoch_s := query.time_epoch_s.toUInt32.toUInt64
    paged := query.paged
    cursor := if query.paged then query.cursor else 0
    page_size := if query.paged then query.page_size else 0 }

theorem queryFlags_bits (query : DescriptorQuery) :
    (decide (queryFlags query &&& 0x01 ≠ 0) = !query.key.isEmpty) ∧
    (decide (queryFlags query &&& 0x02 ≠ 0) = query.has_setting_id) ∧
    (decide (queryFlags query &&& 0x04 ≠ 0) = !query.value.isEmpty) ∧
    (decide (queryFlags query &&& 0x08 ≠ 0) = decide (query.time_epoch_s ≠ 0)) ∧
    (decide (queryFlags query &&& 0x10 ≠ 0) = query.paged) ∧
    (decide (queryFlags query &&& 0x20 ≠ 0) = query.paged) ∧
    (decide (queryFlags query &&& 0x40 ≠ 0) = query.paged) := by
  unfold queryFlags
  generalize (!query.key.isEmpty) = key
  generalize (!query.value.isEmpty) = value
  generalize decide (query.time_epoch_s ≠ 0) = time
  generalize query.has_setting_id = id
  generalize query.paged = paged
  revert key value time id paged
  decide

theorem joined_append_eq_some {fs gs : List (Option Bytes)} {bs : Bytes} :
    joined (fs ++ gs) = some bs ↔
      ∃ cs ds, joined fs = some cs ∧ joined gs = some ds ∧ bs = cs ++ ds := by
  induction fs generalizing bs with
  | nil => simp [joined]
  | cons f fs ih =>
    cases f with
    | none => simp [joined]
    | some es =>
      simp only [List.cons_append, joined, Option.bind_some, Option.map_eq_some_iff, ih]
      constructor
      · rintro ⟨_, ⟨cs, ds, hcs, hds, rfl⟩, rfl⟩
        exact ⟨es ++ cs, ds, ⟨cs, hcs, rfl⟩, hds, by rw [List.append_assoc]⟩
      · rintro ⟨_, ds, ⟨cs, hcs, rfl⟩, hds, rfl⟩
        exact ⟨cs ++ ds, ⟨cs, ds, hcs, hds, rfl⟩, by rw [List.append_assoc]⟩

/-- An optional field is read back, or its absence is. -/
theorem getIf_joined {α : Type} {f : Format α} {set : Bool} {a absent : α} {bs : Bytes}
    (h : joined (fieldIf set (f.put a)) = some bs) (rest : Bytes) :
    getIf set f absent (bs ++ rest) = some (if set then a else absent, rest) := by
  cases set with
  | false =>
    cases h
    rfl
  | true =>
    have hput : f.put a = some bs := by simpa [fieldIf, joined] using h
    exact f.get_put hput rest

/-- The fields of a flagged query are read to the last byte. -/
theorem readFlagged_joined {w : Words} {query : DescriptorQuery} {bs : Bytes}
    (h : joined (flaggedQuery w query) = some bs) :
    ∃ tail, bs = query.type.toByte :: queryFlags query :: tail ∧
      readFlagged w query.type.toByte (queryFlags query) tail = some (flagCarried query, []) := by
  obtain ⟨_, value, h1, hvalue, rfl⟩ := joined_append_eq_some.mp h
  obtain ⟨_, key, h2, hkey, rfl⟩ := joined_append_eq_some.mp h1
  obtain ⟨_, page_size, h3, hpage, rfl⟩ := joined_append_eq_some.mp h2
  obtain ⟨_, cursor, h4, hcursor, rfl⟩ := joined_append_eq_some.mp h3
  obtain ⟨_, epoch, h5, hepoch, rfl⟩ := joined_append_eq_some.mp h4
  obtain ⟨_, id, h6, hid, rfl⟩ := joined_append_eq_some.mp h5
  obtain ⟨hbit1, hbit2, hbit4, hbit8, hbit10, hbit20, hbit40⟩ := queryFlags_bits query
  cases h6
  refine ⟨id ++ (epoch ++ (cursor ++ (page_size ++ (key ++ (value ++ []))))), by simp, ?_⟩
  have hepoch0 : (if decide (query.time_epoch_s ≠ 0) = true then query.time_epoch_s.toUInt32 else 0) =
      query.time_epoch_s.toUInt32 := by
    by_cases hzero : query.time_epoch_s = 0 <;> simp [hzero]
  have htext : ∀ s : Bytes, (if (!s.isEmpty) = true then s else []) = s := by
    intro s
    cases s <;> rfl
  simp only [readFlagged, hbit1, hbit2, hbit4, hbit8, hbit10, hbit20, hbit40, getIf_joined hid,
    getIf_joined hepoch, getIf_joined hcursor, getIf_joined hpage, getIf_joined hkey,
    getIf_joined hvalue, hepoch0, htext, Option.bind_eq_bind, Option.bind_some,
    DescriptorQueryType.ofByte_toByte]
  rfl

theorem namesOneSetting_of_roundTrips {query : DescriptorQuery} (h : RoundTrips query) :
    namesOneSetting query = true := by
  obtain ⟨payload, hpayload, -⟩ := Option.bind_eq_some_iff.mp h
  obtain ⟨hsend, -⟩ := Option.ite_none_right_eq_some.mp hpayload
  exact (Bool.and_eq_true_iff.mp hsend).1

/-- Outside bundle queries the parser leaves the fields as it read them. -/
theorem RoundTrips.read_eq {query : DescriptorQuery} (h : RoundTrips query)
    (htype : query.type ≠ .GetNodeBundle) : readQueryFields (queryFields query) = query := by
  have hquery := h.read.1
  unfold withKnownMask at hquery
  split at hquery
  · rename_i hbundle
    rw [← hquery] at htype
    exact absurd hbundle htype
  · exact hquery

section Flagged

variable {query : DescriptorQuery}

theorem flagCarried_readHead (query : DescriptorQuery) : flagCarried (readHead query) = readHead query := by
  have hepoch : (if query.type = .SetTime then query.time_epoch_s.toUInt32.toUInt64
      else 0).toUInt32.toUInt64 =
      if query.type = .SetTime then query.time_epoch_s.toUInt32.toUInt64 else 0 := by
    split
    · rw [UInt32.toUInt32_toUInt64]
    · rfl
  cases hid : selectsSetting query.type && query.has_setting_id <;>
    cases hpaged : query.paged && supportsPaging query.type <;>
    simp only [flagCarried, readHead, hid, hpaged, hepoch, if_true, Bool.false_eq_true, if_false]

theorem flagCarried_flagged (h : RoundTrips query) (hflagged : flaggedWhole query.type = true) :
    flagCarried query = query := by
  have hbundle : query.type ≠ .GetNodeBundle := by
    intro htype
    simp [htype, flaggedWhole, leavesQuery] at hflagged
  have hread : readHead query = query := by
    rw [← readQueryFields_flagged hflagged]
    exact h.read_eq hbundle
  rw [← hread]
  exact flagCarried_readHead query

theorem headOf_roundTrips (h : RoundTrips query) (htopology : carriesTopology query.type = true) :
    headOf query = { type := query.type } := by
  have hbundle : query.type ≠ .GetNodeBundle := by
    intro htype
    simp [htype, carriesTopology] at htopology
  have hhead := headOf_topology htopology
  rwa [h.read_eq hbundle] at hhead

theorem flagCarried_topology (h : RoundTrips query) (htopology : carriesTopology query.type = true) :
    flagCarried query = { type := query.type } := by
  have hhead : flagCarried (headOf query) = flagCarried query := rfl
  rw [← hhead, headOf_roundTrips h htopology]
  rfl

theorem flaggedValid_of_roundTrips (h : RoundTrips query) (hleaves : leavesQuery query.type = false) :
    flaggedValid (flagCarried query) [] = true := by
  have hbundle : query.type ≠ .GetNodeBundle := by
    intro htype
    simp [htype, leavesQuery] at hleaves
  obtain ⟨-, -, hvalid, htype⟩ := h.read
  rw [h.read_eq hbundle] at hvalid htype
  have hset : query.type = .SetSetting → query.value ≠ [] := by
    intro hset
    simpa [argumentsValid, hset] using hvalid
  have hnames : namesOneSetting (flagCarried query) = true := by
    have hsame : namesOneSetting (flagCarried query) = namesOneSetting query := rfl
    rw [hsame, namesOneSetting_of_roundTrips h]
  simp only [flaggedValid, hnames, List.isEmpty_nil]
  simpa [flagCarried, htype, Decidable.imp_iff_not_or] using hset

/-- The decoder on the fields of a query that the default codec gives back. -/
theorem decodeFlagged_joined {w : Words} {bs : Bytes} (h : RoundTrips query)
    (hleaves : leavesQuery query.type = false) (hbs : joined (flaggedQuery w query) = some bs) :
    decodeFlagged w bs = some (flagCarried query) := by
  obtain ⟨tail, rfl, hread⟩ := readFlagged_joined hbs
  simp only [decodeFlagged, hread, Option.bind_some, flaggedValid_of_roundTrips h hleaves, if_true]

end Flagged

/-- What the codec writes for the query, if it writes anything, it reads as the query. -/
def CarriesQuery (codec : ProfileCodec) (query : DescriptorQuery) : Prop :=
  ∀ p, codec.encodeDescriptorQuery query = some p → codec.decodeDescriptorQuery p = some query

theorem parse_of_roundTrips {query : DescriptorQuery} (h : RoundTrips query) {p : Bytes}
    (hp : encodeDescriptorQuery query = some p) : parseDescriptorQuery p = some query := by
  unfold RoundTrips at h
  rwa [hp] at h

/-- The first byte of a default payload is no codec's magic byte. -/
theorem encodeDescriptorQuery_head {query : DescriptorQuery} {p : Bytes}
    (hp : encodeDescriptorQuery query = some p) : ∃ rest, p = 0x01 :: rest := by
  obtain ⟨-, hpayload⟩ := Option.ite_none_right_eq_some.mp hp
  cases hpayload
  exact ⟨_, rfl⟩

theorem wrapped_carries {query : DescriptorQuery} (h : RoundTrips query) (magic : UInt8) :
    CarriesQuery (wrappedProfileCodec magic) query := by
  intro p hp
  obtain ⟨inner, hinner, hwrap⟩ := Option.bind_eq_some_iff.mp hp
  simp only [wrappedProfileCodec, unwrap_wrap hwrap]
  exact parse_of_roundTrips h hinner

theorem compact_carries {query : DescriptorQuery} (h : RoundTrips query) :
    CarriesQuery compactIndexedProfileCodec query := by
  intro p hp
  simp only [compactIndexedProfileCodec] at hp ⊢
  split at hp
  · -- left to the default codec, whose payload is no compact one
    obtain ⟨rest, rfl⟩ := encodeDescriptorQuery_head hp
    have hparse := parse_of_roundTrips h hp
    split
    · rename_i magic kind type flags rest heq
      cases heq
      rw [if_neg fun hmagic => absurd hmagic.1 (by decide)]
      exact hparse
    · exact hparse
  · rename_i hleaves
    obtain ⟨-, hfields⟩ := Option.ite_none_left_eq_some.mp hp
    have hkept : leavesQuery query.type = false ∧ carriesTopology query.type = false := by
      cases htype : query.type <;> simp [compactLeavesQuery, leavesQuery, carriesTopology, htype] at hleaves ⊢
    rw [appendAll_eq (Nat.zero_le _), append_eq_some] at hfields
    obtain ⟨bs, hbs, -, rfl⟩ := hfields
    obtain ⟨tail, htail, rfl⟩ := Option.map_eq_some_iff.mp hbs
    obtain ⟨fields, hjoined, rfl⟩ := Option.map_eq_some_iff.mp htail
    have hdecode := decodeFlagged_joined h hkept.1 hjoined
    obtain ⟨rest, rfl, -⟩ := readFlagged_joined hjoined
    have hflagged : flaggedWhole query.type = true := by simp [flaggedWhole, hkept]
    rw [flagCarried_flagged h hflagged] at hdecode
    simp only [List.nil_append, List.cons_append, and_self, if_true, hdecode]
    simp [hkept.2]

section Packed

variable {query : DescriptorQuery} (w : Words) (size : Format Nat) (magic : UInt8)
  (putSamples : List TelemetrySample → Option Bytes)
  (getSamples : Bytes → Option (List TelemetrySample × Bytes))

/-- What the Varint TLV and the Delta Binary codec read of the queries that they write with flags. -/
theorem packed_decode {p : Bytes} (h : RoundTrips query) (hleaves : leavesQuery query.type = false)
    (hp : (packedProfileCodec w size magic putSamples getSamples).encodeDescriptorQuery query = some p) :
    (packedProfileCodec w size magic putSamples getSamples).decodeDescriptorQuery p =
      some (flagCarried query) := by
  simp only [packedProfileCodec, hleaves, Bool.false_eq_true, if_false] at hp ⊢
  obtain ⟨-, hfields⟩ := Option.ite_none_left_eq_some.mp hp
  obtain ⟨inner, hinner, hwrap⟩ := Option.bind_eq_some_iff.mp hfields
  rw [appendAll_eq (Nat.zero_le _), append_eq_some] at hinner
  obtain ⟨bs, hbs, -, rfl⟩ := hinner
  rw [unwrap_wrap hwrap]
  exact decodeFlagged_joined h hleaves hbs

theorem packed_leaves (h : RoundTrips query) (hleaves : leavesQuery query.type = true)
    (hmagic : (0x01 : UInt8) ≠ magic) :
    CarriesQuery (packedProfileCodec w size magic putSamples getSamples) query := by
  intro p hp
  simp only [packedProfileCodec, hleaves, if_true] at hp ⊢
  obtain ⟨rest, rfl⟩ := encodeDescriptorQuery_head hp
  rw [unwrap_of_ne hmagic]
  exact parse_of_roundTrips h hp

/-- A topology query is written: a type byte and no flag. -/
theorem packed_encodes_topology (h : RoundTrips query) (htopology : carriesTopology query.type = true)
    (hsize : ∃ bs, size.put 2 = some bs ∧ bs.length ≤ 2) :
    ∃ p, (packedProfileCodec w size magic putSamples getSamples).encodeDescriptorQuery query = some p := by
  have hleaves : leavesQuery query.type = false := by
    cases htype : query.type <;> simp [leavesQuery, carriesTopology, htype] at htopology ⊢
  have hfields : flaggedQuery w (headOf query) = [some [query.type.toByte], some [0]] := by
    rw [headOf_roundTrips h htopology]
    simp [flaggedQuery, fieldIf, queryFlags, flagBit]
  have hsame : flaggedQuery w (headOf query) = flaggedQuery w query := rfl
  obtain ⟨bs, hbs, hlen⟩ := hsize
  have hinner : appendAll [] (flaggedQuery w query) = some [query.type.toByte, 0] := by
    rw [← hsame, hfields]
    rfl
  refine ⟨magic :: kCodecVersion :: kKindQuery :: (bs ++ [query.type.toByte, 0]), ?_⟩
  simp only [packedProfileCodec, hleaves, Bool.false_eq_true, if_false, namesOneSetting_of_roundTrips h,
    Bool.not_true, hinner, Option.bind_some, wrap_eq_some]
  refine ⟨bs, hbs, ?_, rfl⟩
  have hmax : kMaxPayload = 235 := rfl
  simp
  omega

/-- A topology argument is carried exactly when it says nothing. -/
theorem packed_carries_iff (h : RoundTrips query) (hmagic : (0x01 : UInt8) ≠ magic)
    (hsize : ∃ bs, size.put 2 = some bs ∧ bs.length ≤ 2) :
    CarriesQuery (packedProfileCodec w size magic putSamples getSamples) query ↔
      ¬ (carriesTopology query.type = true ∧ query.toTopologyQuery ≠ {}) := by
  cases hleaves : leavesQuery query.type with
  | true =>
    have hcarries := packed_leaves w size magic putSamples getSamples h hleaves hmagic
    have hplain : carriesTopology query.type = false := by
      cases htype : query.type <;> simp [leavesQuery, carriesTopology, htype] at hleaves ⊢
    simp [hcarries, hplain]
  | false =>
    cases htopology : carriesTopology query.type with
    | false =>
      have hflagged : flaggedWhole query.type = true := by simp [flaggedWhole, hleaves, htopology]
      have hcarries : CarriesQuery (packedProfileCodec w size magic putSamples getSamples) query := by
        intro p hp
        rw [packed_decode w size magic putSamples getSamples h hleaves hp, flagCarried_flagged h hflagged]
      simp [hcarries]
    | true =>
      have hhead := headOf_roundTrips h htopology
      obtain ⟨p, hp⟩ := packed_encodes_topology w size magic putSamples getSamples h htopology hsize
      have hdecode := packed_decode w size magic putSamples getSamples h hleaves hp
      rw [flagCarried_topology h htopology, ← hhead] at hdecode
      simp only [true_and, ne_eq, Decidable.not_not]
      constructor
      · intro hcarries
        have heq : headOf query = query := Option.some.inj (hdecode.symm.trans (hcarries p hp))
        exact (congrArg DescriptorQuery.toTopologyQuery heq).symm
      · intro hempty p' hp'
        have heq : headOf query = query := by
          unfold headOf
          rw [← hempty]
        have hsame : p' = p := Option.some.inj (hp'.symm.trans hp)
        rw [hsame, hdecode, heq]

end Packed

/-- The Varint TLV and the Delta Binary codec have no place for topology arguments. -/
def DropsTopology (id : CodecId) (query : DescriptorQuery) : Prop :=
  (id = .VarintTlv ∨ id = .DeltaBinary) ∧ carriesTopology query.type = true ∧ query.toTopologyQuery ≠ {}

/-- A codec carries a query of the default codec exactly when it does not drop a topology argument. -/
theorem codec_carries_query_iff {query : DescriptorQuery} (h : RoundTrips query) (floats : FloatText)
    (id : CodecId) : CarriesQuery (id.find floats) query ↔ ¬ DropsTopology id query := by
  unfold DropsTopology
  cases id with
  | Default =>
    have hcarries : CarriesQuery defaultProfileCodec query := fun _ hp => parse_of_roundTrips h hp
    simpa [CodecId.find] using hcarries
  | CompactIndexed => simpa [CodecId.find] using compact_carries h
  | PackedTlv => simpa [CodecId.find, packedTlvProfileCodec] using wrapped_carries h kPackedMagicDesc
  | CborLite => simpa [CodecId.find, cborLiteProfileCodec] using wrapped_carries h kCborLiteMagicDesc
  | BinaryMap => simpa [CodecId.find, binaryMapProfileCodec] using wrapped_carries h kBinaryMapMagicDesc
  | VarintTlv =>
    have hiff := packed_carries_iff varintWords countVar kVarintMagicDesc (varintWords.many varintWords.sample).put
      (varintWords.many varintWords.sample).get h (by decide) ⟨[2], by decide, by decide⟩
    simpa [CodecId.find, varintTlvProfileCodec] using hiff
  | DeltaBinary =>
    have hiff := packed_carries_iff deltaWords count16 kDeltaMagicDesc (putDeltaSamples floats)
      (getDeltaSamples floats) h (by decide) ⟨[2, 0], by decide, by decide⟩
    simpa [CodecId.find, deltaBinaryProfileCodec] using hiff

/-- A setting is written by its key. -/
def setPeriod : DescriptorQuery := { type := .SetSetting, key := ascii "period", value := ascii "250" }

theorem setPeriod_carried : CarriesQuery (deltaBinaryProfileCodec noFloats) setPeriod := by
  have hround : RoundTrips setPeriod := by
    unfold RoundTrips
    decide +kernel
  have hkept : ¬ DropsTopology .DeltaBinary setPeriod := fun hdrops => absurd hdrops.2.1 (by decide)
  exact (codec_carries_query_iff hround noFloats .DeltaBinary).mpr hkept

/-- The first query of a topology stage. -/
def beginStage : DescriptorQuery := { type := .TopologyStageBegin, topology_version := 7, topology_index_pos := 1 }

/-- Its version and its indices arrive as zeros. -/
theorem beginStage_dropped : RoundTrips beginStage ∧
    (∃ p, varintTlvProfileCodec.encodeDescriptorQuery beginStage = some p ∧
      varintTlvProfileCodec.decodeDescriptorQuery p = some { type := .TopologyStageBegin }) ∧
    ¬ CarriesQuery varintTlvProfileCodec beginStage ∧
    ¬ CarriesQuery (deltaBinaryProfileCodec noFloats) beginStage := by
  have hround : RoundTrips beginStage := by
    unfold RoundTrips
    decide +kernel
  have hvarint : (varintTlvProfileCodec.encodeDescriptorQuery beginStage).isSome ∧
      ∀ p ∈ varintTlvProfileCodec.encodeDescriptorQuery beginStage,
        varintTlvProfileCodec.decodeDescriptorQuery p = some { type := .TopologyStageBegin } := by decide +kernel
  have hdelta : (deltaBinaryProfileCodec noFloats).encodeDescriptorQuery beginStage =
        some [0xF1, 1, 1, 2, 0, 28, 0] ∧
      (deltaBinaryProfileCodec noFloats).decodeDescriptorQuery [0xF1, 1, 1, 2, 0, 28, 0] =
        some { type := .TopologyStageBegin } := by decide +kernel
  have hother : some ({ type := .TopologyStageBegin } : DescriptorQuery) ≠ some beginStage := by decide +kernel
  obtain ⟨p, hp⟩ := Option.isSome_iff_exists.mp hvarint.1
  refine ⟨hround, ⟨p, hp, hvarint.2 p hp⟩, ?_, ?_⟩
  · intro hcarries
    exact hother ((hvarint.2 p hp).symm.trans (hcarries p hp))
  · intro hcarries
    exact hother (hdelta.2.symm.trans (hcarries _ hdelta.1))

end EspNowLink
