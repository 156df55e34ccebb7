import EspNowLink.Codec.QueryFidelity

open Framework

namespace EspNowLink

/-- How many bytes the primitive fields of a codec take. -/
structure WordSizes where
  u8 : UInt8 → Nat
  u16 : UInt16 → Nat
  u32 : UInt32 → Nat
  size : Nat → Nat
  count : Nat → Nat

namespace WordSizes

variable (s : WordSizes)

def text (v : Bytes) : Nat := s.size v.length + v.length

def capability (c : CapabilityDescriptor) : Nat := s.text c.key + s.text c.description

def metric (t : TelemetryDescriptor) : Nat :=
  s.u16 t.metric_id + (s.text t.key + (s.text t.unit + (4 + (4 + s.text t.description))))

def sample (t : TelemetrySample) : Nat := s.u16 t.metric_id + (s.text t.key + (s.text t.value + s.text t.unit))

def setting (st : SettingDescriptor) : Nat :=
  s.u16 st.setting_id + (s.text st.key + (s.u8 st.value_type.toByte + (1 + (s.text st.nvs_key +
    (s.text st.current_value + (s.text st.default_value + s.text st.description))))))

def page (p : PageMeta) : Nat :=
  s.u32 p.snapshot_id + (s.u16 p.total_count + (s.u16 p.cursor + (s.u16 p.returned_count +
    (s.u16 p.next_cursor + 1))))

end WordSizes

/-- The fields of `w` take the bytes that `s` says. -/
structure Words.Sized (w : Words) (s : WordSizes) : Prop where
  u8 : w.u8.Sized kMaxPayload s.u8
  u16 : w.u16.Sized kMaxPayload s.u16
  u32 : w.u32.Sized kMaxPayload s.u32
  size_writes : ∀ n, n ≤ kMaxPayload → ∃ bs, w.size.put n = some bs
  size_length : ∀ n bs, w.size.put n = some bs → bs.length = s.size n
  count_writes : ∀ n, n ≤ 255 → ∃ bs, w.count.put n = some bs
  count_length : ∀ n bs, w.count.put n = some bs → bs.length = s.count n

namespace Words.Sized

variable {w : Words} {s : WordSizes}

theorem text (h : w.Sized s) : w.text.Sized kMaxPayload s.text := .counted h.size_writes h.size_length

theorem f32 : u32Format.Sized kMaxPayload fun _ => 4 :=
  ⟨fun _ _ => ⟨_, rfl⟩, fun _ _ h => by cases h; rfl⟩

theorem capability (h : w.Sized s) : w.capability.Sized kMaxPayload s.capability :=
  (h.text.seq h.text).iso _ _ _

theorem metric (h : w.Sized s) : w.metric.Sized kMaxPayload s.metric :=
  (h.u16.seq (h.text.seq (h.text.seq (f32.seq (f32.seq h.text))))).iso _ _ _

theorem sample (h : w.Sized s) : w.sample.Sized kMaxPayload s.sample :=
  (h.u16.seq (h.text.seq (h.text.seq h.text))).iso _ _ _

theorem setting (h : w.Sized s) : w.setting.Sized kMaxPayload s.setting :=
  (h.u16.seq (h.text.seq (h.u8.seq (Format.sized_flag.seq
    (h.text.seq (h.text.seq (h.text.seq h.text))))))).iso _ _ _

theorem page (h : w.Sized s) : w.page.Sized kMaxPayload fun p => s.page p.1 :=
  (h.u32.seq (h.u16.seq (h.u16.seq (h.u16.seq (h.u16.seq Format.sized_flag))))).iso _ _ _

end Words.Sized

def compactSizes : WordSizes := ⟨fun _ => 1, fun _ => 2, fun _ => 4, fun _ => 1, fun _ => 1⟩
def deltaSizes : WordSizes := ⟨fun _ => 1, fun _ => 2, fun _ => 4, fun _ => 2, fun _ => 1⟩

/-- Seven bits a byte. -/
def varintSizes : WordSizes :=
  ⟨fun v => Format.varSize 4 v.toNat, fun v => Format.varSize 4 v.toNat, fun v => Format.varSize 4 v.toNat,
    Format.varSize 4, Format.varSize 4⟩

theorem sized_u16 : u16Format.Sized kMaxPayload fun _ => 2 :=
  ⟨fun _ _ => ⟨_, rfl⟩, fun _ _ h => by cases h; rfl⟩

theorem count8_writes {n : Nat} (h : n ≤ 255) : ∃ bs, count8.put n = some bs := by
  simp [count8, h]

theorem count8_length {n : Nat} {bs : Bytes} (h : count8.put n = some bs) : bs.length = 1 := by
  obtain ⟨-, hbs⟩ := Option.ite_none_right_eq_some.mp h
  cases hbs
  rfl

theorem count16_writes {n : Nat} (h : n ≤ 65535) : ∃ bs, count16.put n = some bs := by
  simp [count16, u16Format, h]

theorem count16_length {n : Nat} {bs : Bytes} (h : count16.put n = some bs) : bs.length = 2 := by
  obtain ⟨-, hbs⟩ := Option.ite_none_right_eq_some.mp h
  cases hbs
  rfl

theorem compactWords_sized : compactWords.Sized compactSizes :=
  ⟨Format.sized_byte, sized_u16, Words.Sized.f32, fun _ h => count8_writes (Nat.le_trans h (by decide)),
    fun _ _ => count8_length, fun _ h => count8_writes h, fun _ _ => count8_length⟩

theorem deltaWords_sized : deltaWords.Sized deltaSizes :=
  ⟨Format.sized_byte, sized_u16, Words.Sized.f32, fun _ h => count16_writes (Nat.le_trans h (by decide)),
    fun _ _ => count16_length, fun _ h => count8_writes h, fun _ _ => count8_length⟩

theorem sized_varU32 : varU32Format.Sized kMaxPayload fun v => Format.varSize 4 v.toNat := by
  refine ⟨fun _ _ => ⟨_, rfl⟩, ?_⟩
  intro v bs h
  cases h
  exact Format.length_encodeVar 4 v.toNat

theorem sized_varU16 : varU16Format.Sized kMaxPayload fun v => Format.varSize 4 v.toNat := by
  have h : varU16Format.Sized kMaxPayload fun v => Format.varSize 4 v.toUInt32.toNat := sized_varU32.iso _ _ _
  simpa using h

theorem sized_varU8 : varU8Format.Sized kMaxPayload fun v => Format.varSize 4 v.toNat := by
  have h : varU8Format.Sized kMaxPayload fun v => Format.varSize 4 v.toUInt32.toNat := sized_varU32.iso _ _ _
  simpa using h

theorem countVar_writes {n : Nat} (h : n ≤ 4294967295) : ∃ bs, countVar.put n = some bs := by
  simp [countVar, varU32Format, h]

theorem countVar_length {n : Nat} {bs : Bytes} (h : countVar.put n = some bs) :
    bs.length = Format.varSize 4 n := by
  obtain ⟨hn, hput⟩ := Option.ite_none_right_eq_some.mp h
  have hlen := sized_varU32.length _ _ hput
  rwa [UInt32.toNat_ofNat', Nat.mod_eq_of_lt (by omega)] at hlen

theorem varintWords_sized : varintWords.Sized varintSizes where
  u8 := sized_varU8
  u16 := sized_varU16
  u32 := sized_varU32
  size_writes n h := countVar_writes (Nat.le_trans h (by decide))
  size_length _ _ := countVar_length
  count_writes n h := countVar_writes (Nat.le_trans h (by decide))
  count_length _ _ := countVar_length

/-- What a response says before its body. -/
def headResponse (r : DescriptorResponse) (has_message : Bool) : DescriptorResponse :=
  { toPageMeta := if r.is_paged then r.toPageMeta else {}
    type := r.type
    message := if has_message then r.message else [] }

theorem headFlags_bits (has_message paged : Bool) :
    (decide ((flagBit has_message 0x01 ||| flagBit paged 0x02) &&& 0x01 ≠ 0) = has_message) ∧
    (decide ((flagBit has_message 0x01 ||| flagBit paged 0x02) &&& 0x02 ≠ 0) = paged) := by
  cases has_message <;> cases paged <;> decide

/-- The decoder reads the head and goes on with the body. -/
theorem decodeResponse_head {w : Words} {r : DescriptorResponse} {has_message : Bool} {bs : Bytes}
    (getSamples : Bytes → Option (List TelemetrySample × Bytes))
    (h : joined (responseHead w r has_message) = some bs) (body : Bytes) :
    ∃ flags tail, bs = r.type.toByte :: flags :: tail ∧
      decodeResponse w getSamples (r.type.toByte :: flags :: (tail ++ body)) =
        (readBody w getSamples (headResponse r has_message) body).bind fun x =>
          if x.2.isEmpty then some x.1 else none := by
  obtain ⟨_, page, h1, hpage, rfl⟩ := joined_append_eq_some.mp h
  obtain ⟨_, message, h2, hmessage, rfl⟩ := joined_append_eq_some.mp h1
  obtain ⟨hbit1, hbit2⟩ := headFlags_bits has_message r.is_paged
  cases h2
  refine ⟨flagBit has_message 0x01 ||| flagBit r.is_paged 0x02, message ++ page, by simp, ?_⟩
  have hread : getPage w r.is_paged (page ++ body) =
      some (if r.is_paged then r.toPageMeta else {}, body) := by
    unfold getPage
    by_cases hpaged : r.is_paged = true
    · have hput : w.page.put ⟨r.toPageMeta, hpaged⟩ = some page := by
        simpa [hpaged, joined] using hpage
      rw [if_pos hpaged, w.page.get_put hput, if_pos hpaged]
      rfl
    · have hnil : page = [] := by
        rw [dif_neg hpaged] at hpage
        exact (Option.some.inj hpage).symm
      rw [if_neg hpaged, if_neg hpaged, hnil]
      rfl
  simp only [decodeResponse, hbit1, hbit2, List.append_assoc, getIf_joined hmessage, hread,
    Option.bind_eq_bind, Option.bind_some, DescriptorResponseType.ofByte_toByte]
  rfl

end EspNowLink
