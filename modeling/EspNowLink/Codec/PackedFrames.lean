import EspNowLink.Codec.ResponseFields

open Framework

namespace EspNowLink

/-- The field takes `n` bytes; if they are no more than a payload holds, it can be written. -/
structure Written (field : Option Bytes) (n : Nat) : Prop where
  writes : n ≤ kMaxPayload → ∃ bs, field = some bs
  length : ∀ bs, field = some bs → bs.length = n

namespace Written

variable {field : Option Bytes} {fields : List (Option Bytes)} {n m : Nat}

theorem of_sized {α : Type} {f : Format α} {size : α → Nat} (h : f.Sized kMaxPayload size) (x : α) :
    Written (f.put x) (size x) :=
  ⟨h.writes x, h.length x⟩

theorem of_bytes (bs : Bytes) : Written (some bs) bs.length := by
  refine ⟨fun _ => ⟨bs, rfl⟩, ?_⟩
  intro cs h
  rw [Option.some.inj h]

theorem nil : Written (joined []) 0 := of_bytes []

theorem cons (hfield : Written field n) (hfields : Written (joined fields) m) :
    Written (joined (field :: fields)) (n + m) := by
  constructor
  · intro hroom
    obtain ⟨bs, rfl⟩ := hfield.writes (by omega)
    obtain ⟨cs, hcs⟩ := hfields.writes (by omega)
    exact ⟨bs ++ cs, by simp [joined, hcs]⟩
  · intro ds h
    obtain ⟨bs, hbs, hmap⟩ := Option.bind_eq_some_iff.mp h
    obtain ⟨cs, hcs, rfl⟩ := Option.map_eq_some_iff.mp hmap
    rw [List.length_append, hfield.length _ hbs, hfields.length _ hcs]

theorem single (hfield : Written field n) : Written (joined [field]) n := hfield.cons nil

theorem append {fields' : List (Option Bytes)} (h : Written (joined fields) n)
    (h' : Written (joined fields') m) : Written (joined (fields ++ fields')) (n + m) := by
  constructor
  · intro hroom
    obtain ⟨bs, hbs⟩ := h.writes (by omega)
    obtain ⟨cs, hcs⟩ := h'.writes (by omega)
    exact ⟨bs ++ cs, joined_append_eq_some.mpr ⟨bs, cs, hbs, hcs, rfl⟩⟩
  · intro ds hds
    obtain ⟨bs, cs, hbs, hcs, rfl⟩ := joined_append_eq_some.mp hds
    rw [List.length_append, h.length _ hbs, h'.length _ hcs]

theorem ifSet (set : Bool) (h : Written field n) : Written (joined (fieldIf set field)) (if set then n else 0) := by
  cases set with
  | false => exact nil
  | true => exact single h

/-- The fields go into the payload exactly when they fit. -/
theorem appendAll_iff (h : Written (joined fields) n) :
    (∃ out, appendAll [] fields = some out) ↔ n ≤ kMaxPayload := by
  rw [appendAll_eq (Nat.zero_le _)]
  simp only [append_eq_some]
  constructor
  · rintro ⟨out, bs, hbs, hroom, -⟩
    rw [h.length bs hbs] at hroom
    simpa using hroom
  · intro hroom
    obtain ⟨bs, hbs⟩ := h.writes hroom
    have hlen := h.length bs hbs
    exact ⟨bs, bs, hbs, by simpa [hlen] using hroom, by simp⟩

end Written

theorem appendAll_joined {fields : List (Option Bytes)} {out : Bytes} (h : appendAll [] fields = some out) :
    joined fields = some out := by
  rw [appendAll_eq (Nat.zero_le _), append_eq_some] at h
  obtain ⟨bs, hbs, -, rfl⟩ := h
  exact hbs

namespace WordSizes

variable (s : WordSizes)

/-- The bytes of a wrapped payload: magic, version, kind and length come first. -/
def frame (inner : Nat) : Nat := 3 + s.size inner + inner

/-- The bytes that come before the body of a paged response. -/
def head (r : DescriptorResponse) : Nat :=
  2 + (if r.message.isEmpty then 0 else s.text r.message) + s.page r.toPageMeta

end WordSizes

section Frame

variable {w : Words} {s : WordSizes} (hs : w.Sized s)
include hs

theorem wrap_iff {magic kind : UInt8} {inner : Bytes} (hinner : inner.length ≤ kMaxPayload) :
    (∃ p, wrap w.size magic kind inner = some p) ↔ s.frame inner.length ≤ kMaxPayload := by
  obtain ⟨bs, hbs⟩ := hs.size_writes inner.length hinner
  have hlen := hs.size_length _ _ hbs
  simp only [wrap_eq_some, hbs, Option.some.injEq, exists_eq_left', hlen, WordSizes.frame]
  constructor
  · rintro ⟨p, hroom, -⟩
    exact hroom
  · intro hroom
    exact ⟨_, hroom, rfl⟩

/-- A wrapped run of fields is sent exactly when all of it fits a payload. -/
theorem wrapped_iff {magic kind : UInt8} {fields : List (Option Bytes)} {n : Nat}
    (h : Written (joined fields) n) :
    (∃ p, (appendAll [] fields).bind (wrap w.size magic kind) = some p) ↔ s.frame n ≤ kMaxPayload := by
  constructor
  · rintro ⟨p, hp⟩
    obtain ⟨inner, hinner, hwrap⟩ := Option.bind_eq_some_iff.mp hp
    have hn := h.appendAll_iff.mp ⟨inner, hinner⟩
    have hlen := h.length inner (appendAll_joined hinner)
    rw [← hlen]
    exact (wrap_iff hs (by omega)).mp ⟨p, hwrap⟩
  · intro hroom
    have hn : n ≤ kMaxPayload := by
      unfold WordSizes.frame at hroom
      omega
    obtain ⟨inner, hinner⟩ := h.appendAll_iff.mpr hn
    have hlen := h.length inner (appendAll_joined hinner)
    rw [← hlen] at hroom hn
    obtain ⟨p, hp⟩ := (wrap_iff hs hn).mpr hroom
    exact ⟨p, by rw [hinner, Option.bind_some, hp]⟩

theorem written_many {α : Type} {f : Format α} {size : α → Nat} (hf : f.Sized kMaxPayload size) {xs : List α}
    (hxs : xs.length ≤ 255) : Written ((w.many f).put xs) (s.count xs.length + (xs.map size).sum) := by
  obtain ⟨hwrites, hlength⟩ := hf.putMany xs
  obtain ⟨bs, hbs⟩ := hs.count_writes xs.length hxs
  have hlen := hs.count_length _ _ hbs
  constructor
  · intro hroom
    obtain ⟨cs, hcs⟩ := hwrites (by omega)
    exact ⟨bs ++ cs, by simp [Words.many, Format.many, hbs, hcs]⟩
  · intro ds hds
    obtain ⟨bs', hbs', hmap⟩ := Option.bind_eq_some_iff.mp hds
    obtain ⟨cs, hcs, rfl⟩ := Option.map_eq_some_iff.mp hmap
    rw [List.length_append, hlength _ hcs, hs.count_length _ _ hbs']

theorem written_head {r : DescriptorResponse} (hpaged : r.is_paged = true) :
    Written (joined (responseHead w r (!r.message.isEmpty))) (s.head r) := by
  have hpage : Written (joined (if h : r.is_paged = true then [w.page.put ⟨r.toPageMeta, h⟩] else []))
      (s.page r.toPageMeta) := by
    rw [dif_pos hpaged]
    exact .single (.of_sized hs.page ⟨r.toPageMeta, hpaged⟩)
  have hmessage : Written (joined (fieldIf (!r.message.isEmpty) (w.text.put r.message)))
      (if r.message.isEmpty then 0 else s.text r.message) := by
    have hset := Written.ifSet (!r.message.isEmpty) (.of_sized hs.text r.message)
    cases hempty : r.message.isEmpty <;> simpa [hempty] using hset
  have hfirst : Written (joined [some [r.type.toByte],
      some [flagBit (!r.message.isEmpty) 0x01 ||| flagBit r.is_paged 0x02]]) 2 :=
    (Written.of_bytes [_]).cons (.single (.of_bytes [_]))
  exact (hfirst.append hmessage).append hpage

variable {magic : UInt8} {putSamples : List TelemetrySample → Option Bytes}
  {getSamples : Bytes → Option (List TelemetrySample × Bytes)}

/-- A paged response is sent exactly when head and body fit a payload together. -/
theorem packed_encodes_iff {r : DescriptorResponse} {body : Option Bytes} {n : Nat}
    (hleaves : leavesResponse r.type = false) (hpaged : r.is_paged = true)
    (hbody : responseBody w putSamples r = [body]) (hn : Written body n) :
    (∃ p, (packedProfileCodec w w.size magic putSamples getSamples).encodeDescriptorResponse r = some p) ↔
      s.frame (s.head r + n) ≤ kMaxPayload := by
  simp only [packedProfileCodec, hleaves, Bool.false_eq_true, if_false, hbody]
  exact wrapped_iff hs ((written_head hs hpaged).append (.single hn))

end Frame

/-- What was sent is read back: the head, and then the body. -/
theorem packed_decode_body {w : Words} {magic : UInt8} {size : Format Nat}
    {putSamples : List TelemetrySample → Option Bytes} {getSamples : Bytes → Option (List TelemetrySample × Bytes)}
    {r : DescriptorResponse} {p : Bytes} (hleaves : leavesResponse r.type = false)
    (hp : (packedProfileCodec w size magic putSamples getSamples).encodeDescriptorResponse r = some p) :
    ∃ bs, joined (responseBody w putSamples r) = some bs ∧
      (packedProfileCodec w size magic putSamples getSamples).decodeDescriptorResponse p =
        (readBody w getSamples (headResponse r (!r.message.isEmpty)) bs).bind fun x =>
          if x.2.isEmpty then some x.1 else none := by
  simp only [packedProfileCodec, hleaves, Bool.false_eq_true, if_false] at hp ⊢
  obtain ⟨inner, hinner, hwrap⟩ := Option.bind_eq_some_iff.mp hp
  obtain ⟨head, bs, hhead, hbs, rfl⟩ := joined_append_eq_some.mp (appendAll_joined hinner)
  obtain ⟨flags, tail, rfl, hdecode⟩ := decodeResponse_head getSamples hhead bs
  refine ⟨bs, hbs, ?_⟩
  rw [unwrap_wrap hwrap]
  exact hdecode

theorem joined_single {field : Option Bytes} {bs : Bytes} (h : joined [field] = some bs) : field = some bs := by
  cases field with
  | none => cases h
  | some cs => simpa [joined] using h

theorem packed_decode_response {w : Words} {magic : UInt8} {size : Format Nat}
    {putSamples : List TelemetrySample → Option Bytes} {getSamples : Bytes → Option (List TelemetrySample × Bytes)}
    {r : DescriptorResponse} {body : Option Bytes} {p : Bytes} (hleaves : leavesResponse r.type = false)
    (hbody : responseBody w putSamples r = [body])
    (hp : (packedProfileCodec w size magic putSamples getSamples).encodeDescriptorResponse r = some p) :
    ∃ bs, body = some bs ∧
      (packedProfileCodec w size magic putSamples getSamples).decodeDescriptorResponse p =
        (readBody w getSamples (headResponse r (!r.message.isEmpty)) bs).bind fun x =>
          if x.2.isEmpty then some x.1 else none := by
  obtain ⟨bs, hbs, hdecode⟩ := packed_decode_body hleaves hp
  rw [hbody] at hbs
  exact ⟨bs, joined_single hbs, hdecode⟩

end EspNowLink
