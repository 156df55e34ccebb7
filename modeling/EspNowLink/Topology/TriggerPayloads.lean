import EspNowLink.Core.WireReads
import EspNowLink.Pairing.ControlReads
import EspNowLink.Topology.Triggers

namespace EspNowLink

open Framework

def kTopologyMsgAck : UInt8 := 0x02

def buildTopologyTriggerPayload (trigger : TopologyTriggerPayload) : Bytes :=
  [kTopologyProtoId, kTopologyProtoVersion, kTopologyMsgTrigger] ++ le32 trigger.topology_version ++
    le16 trigger.seq ++
    [trigger.src_role, trigger.src_vid, trigger.dst_role, trigger.dst_vid, trigger.direction] ++
    le16 trigger.delay_ms ++ le16 trigger.hold_ms

def batchItemBytes (item : TopologyTriggerBatchItem) : Bytes :=
  [item.dst_vid, item.target_index.toUInt8] ++ le16 item.delay_ms ++ le16 item.hold_ms

def buildTopologyTriggerBatchPayload (trigger : TopologyTriggerBatchPayload) : Option Bytes :=
  if trigger.items.isEmpty ∨ trigger.items.length > 255 then none
  else some ([kTopologyProtoId, kTopologyProtoVersion, kTopologyMsgTriggerBatch] ++
    le32 trigger.topology_version ++ le16 trigger.seq ++
    [trigger.src_role, trigger.src_vid, trigger.dst_role, trigger.direction,
      trigger.items.length.toUInt8] ++ trigger.items.flatMap batchItemBytes)

def buildTopologyTriggerAckPayload (ack : TopologyTriggerAckPayload) : Bytes :=
  [kTopologyProtoId, kTopologyProtoVersion, kTopologyMsgAck] ++ le32 ack.topology_version ++
    le16 ack.seq ++ [ack.src_role, ack.src_vid, ack.dst_role, ack.dst_vid] ++ le16 ack.ack_seq ++
    [ack.result, ack.reason]

def parseTopologyTriggerAckPayload : Bytes → Option TopologyTriggerAckPayload
  | id :: version :: kind :: v0 :: v1 :: v2 :: v3 :: s0 :: s1 :: src_role :: src_vid :: dst_role ::
      dst_vid :: a0 :: a1 :: result :: reason :: _ =>
    if id ≠ kTopologyProtoId ∨ version ≠ kTopologyProtoVersion ∨ kind ≠ kTopologyMsgAck then none
    else some {
      topology_version := readLe32 v0 v1 v2 v3
      seq := readLe16 s0 s1
      src_role := src_role
      src_vid := src_vid
      dst_role := dst_role
      dst_vid := dst_vid
      ack_seq := readLe16 a0 a1
      result := result
      reason := reason }
  | _ => none

/-! The parsers over memory; an outer `none` is a read outside the memory. -/

def readTopologyTriggerPayload (mem : Nat → Option UInt8) (len : Nat) :
    Option (Option TopologyTriggerPayload) :=
  if len < 18 then some none
  else do
    let id ← mem 0
    let version ← mem 1
    let kind ← mem 2
    if id ≠ kTopologyProtoId ∨ version ≠ kTopologyProtoVersion ∨ kind ≠ kTopologyMsgTrigger then
      return none
    else
      let topology_version ← readLe32Mem mem 3
      let seq ← readLe16Mem mem 7
      let src_role ← mem 9
      let src_vid ← mem 10
      let dst_role ← mem 11
      let dst_vid ← mem 12
      let direction ← mem 13
      let delay_ms ← readLe16Mem mem 14
      let hold_ms ← readLe16Mem mem 16
      return some ⟨topology_version, seq, src_role, src_vid, dst_role, dst_vid, direction, delay_ms, hold_ms⟩

/-- The loop over the items, which relies on the length test in front of it. -/
def readBatchItems (mem : Nat → Option UInt8) : Nat → Nat → Option (List TopologyTriggerBatchItem)
  | 0, _ => some []
  | n + 1, off => do
    let dst_vid ← mem off
    let target_index ← mem (off + 1)
    let delay_ms ← readLe16Mem mem (off + 2)
    let hold_ms ← readLe16Mem mem (off + 4)
    let items ← readBatchItems mem n (off + 6)
    return ⟨dst_vid, target_index.toInt8, delay_ms, hold_ms⟩ :: items

def readTopologyTriggerBatchPayload (mem : Nat → Option UInt8) (len : Nat) :
    Option (Option TopologyTriggerBatchPayload) :=
  if len < 14 then some none
  else do
    let id ← mem 0
    let version ← mem 1
    let kind ← mem 2
    if id ≠ kTopologyProtoId ∨ version ≠ kTopologyProtoVersion ∨ kind ≠ kTopologyMsgTriggerBatch then
      return none
    else
      let topology_version ← readLe32Mem mem 3
      let seq ← readLe16Mem mem 7
      let src_role ← mem 9
      let src_vid ← mem 10
      let dst_role ← mem 11
      let direction ← mem 12
      let item_count ← mem 13
      if item_count = 0 then return none
      else if len < 14 + item_count.toNat * 6 then return none
      else
        let items ← readBatchItems mem item_count.toNat 14
        return some ⟨topology_version, seq, src_role, src_vid, dst_role, direction, items⟩

def readTopologyTriggerAckPayload (mem : Nat → Option UInt8) (len : Nat) :
    Option (Option TopologyTriggerAckPayload) :=
  if len < 17 then some none
  else do
    let id ← mem 0
    let version ← mem 1
    let kind ← mem 2
    if id ≠ kTopologyProtoId ∨ version ≠ kTopologyProtoVersion ∨ kind ≠ kTopologyMsgAck then
      return none
    else
      let topology_version ← readLe32Mem mem 3
      let seq ← readLe16Mem mem 7
      let src_role ← mem 9
      let src_vid ← mem 10
      let dst_role ← mem 11
      let dst_vid ← mem 12
      let ack_seq ← readLe16Mem mem 13
      let result ← mem 15
      let reason ← mem 16
      return some ⟨topology_version, seq, src_role, src_vid, dst_role, dst_vid, ack_seq, result, reason⟩

section RoundTrip

theorem parseTopologyTriggerPayload_build (trigger : TopologyTriggerPayload) :
    parseTopologyTriggerPayload (buildTopologyTriggerPayload trigger) = some trigger := by
  simp [buildTopologyTriggerPayload, parseTopologyTriggerPayload, le32, le16, readLe32_le32, readLe16_le16]

theorem parseTopologyTriggerAckPayload_build (ack : TopologyTriggerAckPayload) :
    parseTopologyTriggerAckPayload (buildTopologyTriggerAckPayload ack) = some ack := by
  simp [buildTopologyTriggerAckPayload, parseTopologyTriggerAckPayload, le32, le16, readLe32_le32,
    readLe16_le16]

theorem parseBatchItems_flatMap (items : List TopologyTriggerBatchItem) (rest : Bytes) :
    parseBatchItems items.length (items.flatMap batchItemBytes ++ rest) = some items := by
  induction items with
  | nil => cases rest <;> rfl
  | cons item items ih =>
    rw [List.flatMap_cons, List.append_assoc, List.length_cons]
    simp only [batchItemBytes, le16, List.cons_append, List.nil_append, parseBatchItems, ih, Option.map_some,
      readLe16_le16, Int8.toInt8_toUInt8]

theorem parseTopologyTriggerBatchPayload_build {trigger : TopologyTriggerBatchPayload} {payload : Bytes}
    (h : buildTopologyTriggerBatchPayload trigger = some payload) :
    parseTopologyTriggerBatchPayload payload = some trigger := by
  unfold buildTopologyTriggerBatchPayload at h
  split at h
  · cases h
  · rename_i hadmits
    obtain ⟨hsome, hcount⟩ := not_or.mp hadmits
    obtain rfl := Option.some.inj h
    have htoNat : trigger.items.length.toUInt8.toNat = trigger.items.length := by
      show trigger.items.length % 256 = _
      exact Nat.mod_eq_of_lt (by omega)
    have hpos : trigger.items.length.toUInt8 ≠ 0 := by
      intro hzero
      have hlength := congrArg UInt8.toNat hzero
      rw [htoNat] at hlength
      exact hsome (List.isEmpty_iff.mpr (List.length_eq_zero_iff.mp hlength))
    have hitems := parseBatchItems_flatMap trigger.items []
    rw [List.append_nil] at hitems
    simp [parseTopologyTriggerBatchPayload, le32, le16, readLe32_le32, readLe16_le16, hpos, htoNat, hitems]

end RoundTrip

section Short

variable {payload : Bytes}

theorem parseTopologyTriggerPayload_short (h : payload.length < 18) :
    parseTopologyTriggerPayload payload = none := by
  unfold parseTopologyTriggerPayload
  split
  · simp only [List.length_cons] at h
    omega
  · rfl

theorem parseTopologyTriggerAckPayload_short (h : payload.length < 17) :
    parseTopologyTriggerAckPayload payload = none := by
  unfold parseTopologyTriggerAckPayload
  split
  · simp only [List.length_cons] at h
    omega
  · rfl

theorem parseBatchItems_isSome (n : Nat) (bytes : Bytes) :
    (parseBatchItems n bytes).isSome = true ↔ n * 6 ≤ bytes.length := by
  induction n, bytes using parseBatchItems.induct with
  | case1 bytes => simp [parseBatchItems]
  | case2 n dst_vid target d0 d1 h0 h1 rest ih =>
    rw [parseBatchItems, Option.isSome_map, ih]
    simp only [List.length_cons]
    omega
  | case3 n bytes hshort =>
    have hlength : bytes.length < 6 := by
      match bytes, hshort with
      | [], _ | [_], _ | [_, _], _ | [_, _, _], _ | [_, _, _, _], _ | [_, _, _, _, _], _ => simp
      | a :: b :: c :: d :: e :: f :: rest, hshort => exact absurd rfl (hshort a b c d e f rest)
    rw [parseBatchItems]
    · simp only [Option.isSome_none, Bool.false_eq_true, false_iff]
      omega
    · exact hshort

theorem parseTopologyTriggerBatchPayload_short
    (h : payload.length < 14 ∨ ∀ count, payload[13]? = some count → count = 0 ∨
      payload.length < 14 + count.toNat * 6) :
    parseTopologyTriggerBatchPayload payload = none := by
  unfold parseTopologyTriggerBatchPayload
  split
  · rename_i id version kind v0 v1 v2 v3 s0 s1 src_role src_vid dst_role direction item_count rest
    rcases h with hshort | hcount
    · simp only [List.length_cons] at hshort
      omega
    · split
      · rfl
      · rcases hcount item_count rfl with hzero | hshort
        · rw [if_pos hzero]
        · have hitems : parseBatchItems item_count.toNat rest = none := by
            rw [← Option.not_isSome_iff_eq_none, parseBatchItems_isSome]
            simp only [List.length_cons] at hshort
            omega
          rw [hitems]
          split <;> rfl
  · rfl

end Short

section Memory

variable {mem : Nat → Option UInt8} {payload : Bytes} {off n : Nat} {bytes : Bytes}

theorem readBatchItems_eq (h : Holds mem off bytes) (hn : n * 6 ≤ bytes.length) :
    readBatchItems mem n off = parseBatchItems n bytes := by
  induction n generalizing off bytes with
  | zero =>
    rw [readBatchItems, parseBatchItems]
  | succ n ih =>
    match bytes, h, hn with
    | [], _, hn | [_], _, hn | [_, _], _, hn | [_, _, _], _, hn | [_, _, _, _], _, hn
    | [_, _, _, _, _], _, hn =>
      simp only [List.length_cons, List.length_nil] at hn
      omega
    | dst_vid :: target :: d0 :: d1 :: h0 :: h1 :: rest, h, hn =>
      have hdelay : Holds mem (off + 2) (d0 :: d1 :: h0 :: h1 :: rest) := h.drop 2
      have hhold : Holds mem (off + 4) (h0 :: h1 :: rest) := h.drop 4
      have hrest : Holds mem (off + 6) rest := h.drop 6
      simp only [List.length_cons] at hn
      rw [readBatchItems, h.head, h.tail.head, readLe16Mem_eq hdelay, readLe16Mem_eq hhold,
        ih hrest (by omega), parseBatchItems]
      cases parseBatchItems n rest <;> rfl

/-- The bytes that the three layouts share the places of. -/
theorem exists_head (payload : Bytes) (h : 14 ≤ payload.length) :
    ∃ id version kind v0 v1 v2 v3 s0 s1 src_role src_vid dst_role b12 b13 rest,
      payload = id :: version :: kind :: v0 :: v1 :: v2 :: v3 :: s0 :: s1 :: src_role :: src_vid ::
        dst_role :: b12 :: b13 :: rest := by
  match payload, h with
  | [], h | [_], h | [_, _], h | [_, _, _], h | [_, _, _, _], h | [_, _, _, _, _], h
  | [_, _, _, _, _, _], h | [_, _, _, _, _, _, _], h | [_, _, _, _, _, _, _, _], h
  | [_, _, _, _, _, _, _, _, _], h | [_, _, _, _, _, _, _, _, _, _], h
  | [_, _, _, _, _, _, _, _, _, _, _], h | [_, _, _, _, _, _, _, _, _, _, _, _], h
  | [_, _, _, _, _, _, _, _, _, _, _, _, _], h =>
    simp only [List.length_cons, List.length_nil] at h
    omega
  | id :: version :: kind :: v0 :: v1 :: v2 :: v3 :: s0 :: s1 :: src_role :: src_vid :: dst_role :: b12 ::
      b13 :: rest, _ =>
    exact ⟨id, version, kind, v0, v1, v2, v3, s0, s1, src_role, src_vid, dst_role, b12, b13, rest, rfl⟩

theorem readTopologyTriggerPayload_eq (h : Holds mem 0 payload) :
    readTopologyTriggerPayload mem payload.length = some (parseTopologyTriggerPayload payload) := by
  by_cases hshort : payload.length < 18
  · rw [readTopologyTriggerPayload, if_pos hshort, parseTopologyTriggerPayload_short hshort]
  · obtain ⟨id, version, kind, v0, v1, v2, v3, s0, s1, src_role, src_vid, dst_role, dst_vid, direction, rest,
      rfl⟩ := exists_head payload (by omega)
    match rest, h, hshort with
    | [], _, hshort | [_], _, hshort | [_, _], _, hshort | [_, _, _], _, hshort =>
      simp only [List.length_cons, List.length_nil] at hshort
      omega
    | d0 :: d1 :: h0 :: h1 :: rest, h, hshort =>
      have hversion : Holds mem 3 (v0 :: v1 :: v2 :: v3 :: s0 :: s1 :: src_role :: src_vid :: dst_role ::
        dst_vid :: direction :: d0 :: d1 :: h0 :: h1 :: rest) := h.drop 3
      have hseq : Holds mem 7 (s0 :: s1 :: src_role :: src_vid :: dst_role :: dst_vid :: direction :: d0 ::
        d1 :: h0 :: h1 :: rest) := h.drop 7
      have hroles : Holds mem 9 (src_role :: src_vid :: dst_role :: dst_vid :: direction :: d0 :: d1 :: h0 ::
        h1 :: rest) := h.drop 9
      have hdelay : Holds mem 14 (d0 :: d1 :: h0 :: h1 :: rest) := h.drop 14
      have hhold : Holds mem 16 (h0 :: h1 :: rest) := h.drop 16
      rw [readTopologyTriggerPayload, if_neg hshort, h.head, h.tail.head, h.tail.tail.head,
        readLe32Mem_eq hversion, readLe16Mem_eq hseq, hroles.head, hroles.tail.head, hroles.tail.tail.head,
        hroles.tail.tail.tail.head, hroles.tail.tail.tail.tail.head, readLe16Mem_eq hdelay,
        readLe16Mem_eq hhold, parseTopologyTriggerPayload]
      simp only [Option.bind_eq_bind, Option.bind_some, Option.pure_def]
      split <;> rfl

theorem readTopologyTriggerAckPayload_eq (h : Holds mem 0 payload) :
    readTopologyTriggerAckPayload mem payload.length = some (parseTopologyTriggerAckPayload payload) := by
  by_cases hshort : payload.length < 17
  · rw [readTopologyTriggerAckPayload, if_pos hshort, parseTopologyTriggerAckPayload_short hshort]
  · obtain ⟨id, version, kind, v0, v1, v2, v3, s0, s1, src_role, src_vid, dst_role, dst_vid, a0, rest, rfl⟩ :=
      exists_head payload (by omega)
    match rest, h, hshort with
    | [], _, hshort | [_], _, hshort | [_, _], _, hshort =>
      simp only [List.length_cons, List.length_nil] at hshort
      omega
    | a1 :: result :: reason :: rest, h, hshort =>
      have hversion : Holds mem 3 (v0 :: v1 :: v2 :: v3 :: s0 :: s1 :: src_role :: src_vid :: dst_role ::
        dst_vid :: a0 :: a1 :: result :: reason :: rest) := h.drop 3
      have hseq : Holds mem 7 (s0 :: s1 :: src_role :: src_vid :: dst_role :: dst_vid :: a0 :: a1 :: result ::
        reason :: rest) := h.drop 7
      have hroles : Holds mem 9 (src_role :: src_vid :: dst_role :: dst_vid :: a0 :: a1 :: result :: reason ::
        rest) := h.drop 9
      have hack : Holds mem 13 (a0 :: a1 :: result :: reason :: rest) := h.drop 13
      have hresult : Holds mem 15 (result :: reason :: rest) := h.drop 15
      rw [readTopologyTriggerAckPayload, if_neg hshort, h.head, h.tail.head, h.tail.tail.head,
        readLe32Mem_eq hversion, readLe16Mem_eq hseq, hroles.head, hroles.tail.head, hroles.tail.tail.head,
        hroles.tail.tail.tail.head, readLe16Mem_eq hack, hresult.head, hresult.tail.head,
        parseTopologyTriggerAckPayload]
      simp only [Option.bind_eq_bind, Option.bind_some, Option.pure_def]
      split <;> rfl

theorem readTopologyTriggerBatchPayload_eq (h : Holds mem 0 payload) :
    readTopologyTriggerBatchPayload mem payload.length = some (parseTopologyTriggerBatchPayload payload) := by
  by_cases hshort : payload.length < 14
  · rw [readTopologyTriggerBatchPayload, if_pos hshort, parseTopologyTriggerBatchPayload_short (.inl hshort)]
  · obtain ⟨id, version, kind, v0, v1, v2, v3, s0, s1, src_role, src_vid, dst_role, direction, item_count, rest,
      rfl⟩ := exists_head payload (by omega)
    have hversion : Holds mem 3 (v0 :: v1 :: v2 :: v3 :: s0 :: s1 :: src_role :: src_vid :: dst_role ::
      direction :: item_count :: rest) := h.drop 3
    have hseq : Holds mem 7 (s0 :: s1 :: src_role :: src_vid :: dst_role :: direction :: item_count :: rest) :=
      h.drop 7
    have hroles : Holds mem 9 (src_role :: src_vid :: dst_role :: direction :: item_count :: rest) := h.drop 9
    have hrest : Holds mem 14 rest := h.drop 14
    rw [readTopologyTriggerBatchPayload, if_neg hshort, h.head, h.tail.head, h.tail.tail.head,
      readLe32Mem_eq hversion, readLe16Mem_eq hseq, hroles.head, hroles.tail.head, hroles.tail.tail.head,
      hroles.tail.tail.tail.head, hroles.tail.tail.tail.tail.head, parseTopologyTriggerBatchPayload]
    simp only [Option.bind_eq_bind, Option.bind_some, Option.pure_def]
    by_cases hhead : id ≠ kTopologyProtoId ∨ version ≠ kTopologyProtoVersion ∨ kind ≠ kTopologyMsgTriggerBatch
    · rw [if_pos hhead, if_pos hhead]
    rw [if_neg hhead, if_neg hhead]
    by_cases hzero : item_count = 0
    · rw [if_pos hzero, if_pos hzero]
    rw [if_neg hzero, if_neg hzero]
    have hsome := parseBatchItems_isSome item_count.toNat rest
    simp only [List.length_cons]
    by_cases hfits : item_count.toNat * 6 ≤ rest.length
    · rw [if_neg (by omega), readBatchItems_eq hrest hfits]
      obtain ⟨items, hitems⟩ := Option.isSome_iff_exists.mp (hsome.mpr hfits)
      rw [hitems]
      rfl
    · have hnone : parseBatchItems item_count.toNat rest = none :=
        Option.not_isSome_iff_eq_none.mp fun h => hfits (hsome.mp h)
      rw [if_pos (by omega), hnone]
      rfl

end Memory

/-- Every pairing and trigger payload is read back as it was built; over any memory that holds a payload the
parsers end inside it, with what they give for its bytes; and a payload without a required field, or with
fewer bytes than its layout or its item count asks for, is refused. -/
theorem frame_payloads_round_trip :
    ((∀ seed nonce profile,
        parsePairInitPayload (pairInitPayload seed nonce profile) = some (seed, nonce, profile)) ∧
      (∀ nonce, parseNonceEchoPayload (pairInitAckPayload nonce) 0x20 = some nonce) ∧
      (∀ nonce, parseNonceEchoPayload (pairConfirmPayload nonce) 0x30 = some nonce) ∧
      parsePairConfirmAckPayload pairConfirmAckPayload = some true ∧
      (∀ p, parseChannelSwitchPayload (channelPreparePayload p) = some p) ∧
      (∀ trigger, parseTopologyTriggerPayload (buildTopologyTriggerPayload trigger) = some trigger) ∧
      (∀ trigger payload, buildTopologyTriggerBatchPayload trigger = some payload →
        parseTopologyTriggerBatchPayload payload = some trigger) ∧
      ∀ ack, parseTopologyTriggerAckPayload (buildTopologyTriggerAckPayload ack) = some ack) ∧
    (∀ mem payload, Holds mem 0 payload →
      readPairInitPayload mem payload.length = some (parsePairInitPayload payload) ∧
      (∀ tag, readNonceEchoPayload mem payload.length tag = some (parseNonceEchoPayload payload tag)) ∧
      readPairConfirmAckPayload mem payload.length = some (parsePairConfirmAckPayload payload) ∧
      readChannelSwitchPayload mem payload.length = some (parseChannelSwitchPayload payload) ∧
      readTopologyTriggerPayload mem payload.length = some (parseTopologyTriggerPayload payload) ∧
      readTopologyTriggerBatchPayload mem payload.length = some (parseTopologyTriggerBatchPayload payload) ∧
      readTopologyTriggerAckPayload mem payload.length = some (parseTopologyTriggerAckPayload payload)) ∧
    ∀ payload,
      (Lacks seedField payload ∨ Lacks (u32At 0x11) payload ∨ Lacks (u8At 0x12) payload →
        parsePairInitPayload payload = none) ∧
      (∀ tag, Lacks (u32At tag) payload → parseNonceEchoPayload payload tag = none) ∧
      (Lacks (u8At 0x40) payload → parsePairConfirmAckPayload payload = none) ∧
      (Lacks (u8At 0x10) payload ∨ Lacks (u32At 0x11) payload → parseChannelSwitchPayload payload = none) ∧
      (payload.length < 18 → parseTopologyTriggerPayload payload = none) ∧
      ((payload.length < 14 ∨ ∀ count, payload[13]? = some count →
        count = 0 ∨ payload.length < 14 + count.toNat * 6) → parseTopologyTriggerBatchPayload payload = none) ∧
      (payload.length < 17 → parseTopologyTriggerAckPayload payload = none) := by
  refine ⟨⟨parsePairInitPayload_pairInitPayload, parseNonceEchoPayload_appendTlv 0x20,
    parseNonceEchoPayload_appendTlv 0x30, by decide, parseChannelSwitchPayload_channelPreparePayload,
    parseTopologyTriggerPayload_build, ?_, parseTopologyTriggerAckPayload_build⟩, ?_, ?_⟩
  · intro trigger payload h
    exact parseTopologyTriggerBatchPayload_build h
  · intro mem payload h
    exact ⟨readPairInitPayload_eq h, fun tag => readNonceEchoPayload_eq tag h, readPairConfirmAckPayload_eq h,
      readChannelSwitchPayload_eq h, readTopologyTriggerPayload_eq h, readTopologyTriggerBatchPayload_eq h,
      readTopologyTriggerAckPayload_eq h⟩
  · intro payload
    exact ⟨parsePairInitPayload_lacks, fun tag => parseNonceEchoPayload_lacks, parsePairConfirmAckPayload_lacks,
      parseChannelSwitchPayload_lacks, parseTopologyTriggerPayload_short,
      parseTopologyTriggerBatchPayload_short, parseTopologyTriggerAckPayload_short⟩

end EspNowLink
