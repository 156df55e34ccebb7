import EspNowLink.Descriptor.Decode
import EspNowLink.Descriptor.Query
import EspNowLink.Framework.Format

open Framework

namespace EspNowLink

/-- `appendU8`, `appendU16`, `appendStr8` and the others: what would go past the payload limit is not
appended. -/
def append (out : Bytes) (field : Option Bytes) : Option Bytes :=
  field.bind fun bs => if out.length + bs.length ≤ kMaxPayload then some (out ++ bs) else none

def appendAll (out : Bytes) (fields : List (Option Bytes)) : Option Bytes := fields.foldlM append out

/-- The fields one after the other. -/
def joined : List (Option Bytes) → Option Bytes
  | [] => some []
  | field :: fields => field.bind fun bs => (joined fields).map (bs ++ ·)

theorem append_eq_some {out out' : Bytes} {field : Option Bytes} : append out field = some out' ↔
    ∃ bs, field = some bs ∧ out.length + bs.length ≤ kMaxPayload ∧ out' = out ++ bs := by
  simp only [append, Option.bind_eq_some_iff, Option.ite_none_right_eq_some, Option.some.injEq]
  simp only [eq_comm]

/-- The appends of a run of fields succeed exactly when the fields fit together. -/
theorem appendAll_eq {out : Bytes} (h : out.length ≤ kMaxPayload) (fields : List (Option Bytes)) :
    appendAll out fields = append out (joined fields) := by
  induction fields generalizing out with
  | nil => simp [appendAll, joined, append, h]
  | cons field fields ih =>
    unfold appendAll at ih ⊢
    cases field with
    | none => rfl
    | some bs =>
      simp only [List.foldlM_cons, joined, Option.bind_some]
      by_cases hroom : out.length + bs.length ≤ kMaxPayload
      · have hstep : append out (some bs) = some (out ++ bs) := append_eq_some.mpr ⟨bs, rfl, hroom, rfl⟩
        rw [hstep, Option.bind_eq_bind, Option.bind_some, ih (by rwa [List.length_append])]
        cases joined fields with
        | none => rfl
        | some cs => simp [append, List.append_assoc, Nat.add_assoc]
      · have hstep : append out (some bs) = none := by simp [append, hroom]
        rw [hstep]
        cases joined fields with
        | none => rfl
        | some cs =>
          have hlong : ¬ out.length + (bs ++ cs).length ≤ kMaxPayload := by
            rw [List.length_append]
            omega
          simp only [append, Option.map_some, Option.bind_some, if_neg hlong]
          rfl

/-- `appendU16` and `readU16`. -/
def u16Format : Format UInt16 where
  put v := some (le16 v)
  get
    | b0 :: b1 :: rest => some (readLe16 b0 b1, rest)
    | _ => none
  get_put := by
    intro v bs h rest
    cases h
    simp only [le16, List.cons_append, List.nil_append, readLe16_le16]

/-- `appendU32` and `readU32`, and `appendF32` and `readF32` on the bits of a float. -/
def u32Format : Format UInt32 where
  put v := some (le32 v)
  get
    | b0 :: b1 :: b2 :: b3 :: rest => some (readLe32 b0 b1 b2 b3, rest)
    | _ => none
  get_put := by
    intro v bs h rest
    cases h
    simp only [le32, List.cons_append, List.nil_append, readLe32_le32]

/-- `appendVarU32` and `readVarU32`: at most five bytes. -/
def varU32Format : Format UInt32 where
  put v := some (Format.encodeVar 4 v.toNat)
  get bs := (Format.decodeVar 5 bs).map fun x => (UInt32.ofNat x.1, x.2)
  get_put := by
    intro v bs h rest
    cases h
    have hv : v.toNat < 128 ^ (4 + 1) := Nat.lt_trans v.toNat_lt (by decide)
    rw [Format.decodeVar_encodeVar hv, Option.map_some, UInt32.ofNat_toNat]

/-- A 16-bit value as a 32-bit one; the reader cuts it with `& 0xFFFF`. -/
def varU16Format : Format UInt16 :=
  varU32Format.iso UInt16.toUInt32 UInt32.toUInt16 fun v => UInt16.toUInt16_toUInt32 v

def varU8Format : Format UInt8 :=
  varU32Format.iso UInt8.toUInt32 UInt32.toUInt8 fun v => UInt8.toUInt8_toUInt32 v

/-- A size of at most 255, 65535 and 2^32 - 1. -/
def count8 : Format Nat where
  put n := if n ≤ 255 then some [UInt8.ofNat n] else none
  get bs := (Format.byte.get bs).map fun x => (x.1.toNat, x.2)
  get_put := by
    intro n bs h rest
    obtain ⟨hn, hput⟩ := Option.ite_none_right_eq_some.mp h
    cases hput
    have hbyte : (UInt8.ofNat n).toNat = n := by
      rw [UInt8.toNat_ofNat']
      omega
    simp [Format.byte, hbyte]

def count16 : Format Nat where
  put n := if n ≤ 65535 then u16Format.put (UInt16.ofNat n) else none
  get bs := (u16Format.get bs).map fun x => (x.1.toNat, x.2)
  get_put := by
    intro n bs h rest
    obtain ⟨hn, hput⟩ := Option.ite_none_right_eq_some.mp h
    rw [u16Format.get_put hput, Option.map_some, UInt16.toNat_ofNat', Nat.mod_eq_of_lt (by omega)]

def countVar : Format Nat where
  put n := if n ≤ 4294967295 then varU32Format.put (UInt32.ofNat n) else none
  get bs := (varU32Format.get bs).map fun x => (x.1.toNat, x.2)
  get_put := by
    intro n bs h rest
    obtain ⟨hn, hput⟩ := Option.ite_none_right_eq_some.mp h
    rw [varU32Format.get_put hput, Option.map_some, UInt32.toNat_ofNat', Nat.mod_eq_of_lt (by omega)]

/-- The primitive fields of a codec: its integers, the size before a text and the one before a list. -/
structure Words where
  u8 : Format UInt8
  u16 : Format UInt16
  u32 : Format UInt32
  size : Format Nat
  count : Format Nat

namespace Words

variable (w : Words)

def text : Format Bytes := Format.counted w.size

def capability : Format CapabilityDescriptor :=
  (w.text.seq w.text).iso (fun c => (c.key, c.description)) (fun x => ⟨x.1, x.2⟩) fun _ => rfl

def metric : Format TelemetryDescriptor :=
  (w.u16.seq (w.text.seq (w.text.seq (u32Format.seq (u32Format.seq w.text))))).iso
    (fun t => (t.metric_id, t.key, t.unit, t.min_value, t.max_value, t.description))
    (fun (id, key, unit, min, max, description) => ⟨id, key, unit, min, max, description⟩) fun _ => rfl

def sample : Format TelemetrySample :=
  (w.u16.seq (w.text.seq (w.text.seq w.text))).iso (fun t => (t.metric_id, t.key, t.value, t.unit))
    (fun (id, key, value, unit) => ⟨id, key, value, unit⟩) fun _ => rfl

/-- `encodeSetting` and `decodeSetting`. -/
def setting : Format SettingDescriptor :=
  (w.u16.seq (w.text.seq (w.u8.seq (Format.flag.seq (w.text.seq (w.text.seq (w.text.seq w.text))))))).iso
    (fun st => (st.setting_id, st.key, st.value_type.toByte, st.writable, st.nvs_key, st.current_value,
      st.default_value, st.description))
    (fun (id, key, type, writable, nvs_key, current, default, description) =>
      ⟨id, key, .ofByte type, writable, nvs_key, current, default, description⟩)
    fun st => by simp

def device : Format DeviceDescriptor :=
  (w.text.seq (w.text.seq (w.text.seq (w.text.seq (w.text.seq w.text))))).iso
    (fun d => (d.device_type, d.device_id, d.device_name, d.hw_version, d.sw_version, d.build_id))
    (fun (type, id, name, hw, sw, build) => ⟨type, id, name, hw, sw, build⟩) fun _ => rfl

def liveness : Format LivenessStatus :=
  (Format.flag.seq (w.u32.seq w.text)).iso (fun l => (l.online, l.uptime_ms, l.state))
    (fun (online, uptime, state) => ⟨online, uptime, state⟩) fun _ => rfl

/-- The epoch goes as 32 bits. -/
def putTime (t : TimeStatus) : Option Bytes := (w.u32.seq w.u32).put (t.epoch_s.toUInt32, t.uptime_ms)

def getTime (bs : Bytes) : Option (TimeStatus × Bytes) :=
  ((w.u32.seq w.u32).get bs).map fun x => (⟨x.1.1.toUInt64, x.1.2⟩, x.2)

/-- A list behind its length. -/
def many {α : Type} (f : Format α) : Format (List α) := Format.many w.count f

/-- The page metadata of a paged response. -/
def page : Format { p : PageMeta // p.is_paged = true } :=
  (w.u32.seq (w.u16.seq (w.u16.seq (w.u16.seq (w.u16.seq Format.flag))))).iso
    (fun p => (p.1.snapshot_id, p.1.total_count, p.1.cursor, p.1.returned_count, p.1.next_cursor, p.1.done))
    (fun (snapshot, total, cursor, returned, next, done) =>
      ⟨⟨true, snapshot, total, cursor, returned, next, done⟩, rfl⟩)
    fun p => by
      obtain ⟨⟨is_paged, snapshot, total, cursor, returned, next, done⟩, hp⟩ := p
      cases hp
      rfl

end Words

/-- The fields of the Compact Indexed, the Varint TLV and the Delta Binary codec. -/
def compactWords : Words := ⟨Format.byte, u16Format, u32Format, count8, count8⟩
def varintWords : Words := ⟨varU8Format, varU16Format, varU32Format, countVar, countVar⟩
def deltaWords : Words := ⟨Format.byte, u16Format, u32Format, count16, count8⟩

end EspNowLink
