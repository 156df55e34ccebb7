import EspNowLink.Ota.ReceiveFaithful
import EspNowLink.Ota.StatusRecord

open Framework

namespace EspNowLink

namespace OtaManager

section Numbers

theorem xdigit_facts : ∀ d < 16, isxdigit (hexByte d) = true ∧ xdigitValue (hexByte d) = d := by decide

/-- A digit is no blank, no sign and no line break. -/
theorem digit_plain {c : UInt8} (h : isdigit c = true) :
    c ≠ 0 ∧ isspace c = false ∧ c ≠ decimalForm.minus ∧ c ≠ decimalForm.plus ∧ c ≠ 0x0A := by
  have hspace : isspace c = false := by
    by_contra hblank
    have hother := isdigit_of_isspace c (Bool.eq_true_of_not_eq_false hblank)
    rw [h] at hother
    cases hother
  refine ⟨?_, hspace, ?_, ?_, ?_⟩ <;> (rintro rfl; exact absurd h (by decide))

theorem xdigit_plain {c : UInt8} (h : isxdigit c = true) : c ≠ 0 ∧ isspace c = false ∧ c ≠ 0x0A := by
  have hspace : isspace c = false := by
    have hall : ∀ n < 256, isxdigit (UInt8.ofNat n) = true → isspace (UInt8.ofNat n) = false := by decide +kernel
    have hc := hall c.toNat c.toNat_lt
    rw [UInt8.ofNat_toNat] at hc
    exact hc h
  refine ⟨?_, hspace, ?_⟩ <;> (rintro rfl; exact absurd h (by decide))

/-- A number of digits that starts with one is read as it stands. -/
theorem parseU32_digits {text : Bytes} {c : UInt8} {rest : Bytes} (htext : text = c :: rest)
    (hdigit : isdigit c = true) (hnonzero : ∀ d ∈ rest, d ≠ 0) :
    parseU32 text = (unsignedDigits text).map (unsignedLong false) := by
  obtain ⟨hc, hspace, hminus, hplus, -⟩ := digit_plain hdigit
  have hne : text ≠ [] := by
    rw [htext]
    exact List.cons_ne_nil c rest
  have hcstring : cString text = text := by
    apply List.takeWhile_eq_self_iff.mpr
    intro d hd
    rw [htext] at hd
    rcases List.mem_cons.mp hd with rfl | hd
    · exact decide_eq_true hc
    · exact decide_eq_true (hnonzero d hd)
  have hskip : text.dropWhile isspace = text := by
    rw [htext, List.dropWhile_cons, hspace]
    rfl
  have hsign : decimalForm.sign text = (false, text) := by
    rw [htext, Numerals.sign, if_neg hminus, if_neg hplus]
  simp only [parseU32, if_neg hne, hcstring, hskip, hsign]

theorem unsignedLong_toNat (n : UInt32) : unsignedLong false n.toNat = n := by
  have hlt : ¬ 2 ^ 32 ≤ n.toNat := Nat.not_le.mpr n.toNat_lt
  rw [unsignedLong, if_neg hlt]
  exact UInt32.ofNat_toNat

theorem mem_printDecimal (n : UInt32) : ∀ c ∈ printDecimal n, isdigit c = true :=
  mem_spelling (by decide) (fun d hd => (digitByte_facts d hd).1) n.toNat

theorem parseU32_printDecimal (n : UInt32) : parseU32 (printDecimal n) = some n := by
  have hall := mem_printDecimal n
  by_cases hn : n.toNat = 0
  · have hzero : n = 0 := UInt32.toNat_inj.mp hn
    rw [hzero]
    decide
  · have hinj : ∀ d < 10, digitByte d = digitByte 0 → d = 0 := by decide
    obtain ⟨c, rest, hcons, hfirst⟩ := head_spelling_ne (by decide) hinj hn
    have htext : printDecimal n = c :: rest := hcons
    have hdigit : isdigit c = true := hall c (by rw [htext]; exact List.mem_cons_self)
    have hrest : ∀ d ∈ rest, d ≠ 0 := by
      intro d hd
      exact (digit_plain (hall d (by rw [htext]; exact List.mem_cons_of_mem c hd))).1
    have hvalue : unsignedDigits (printDecimal n) = some n.toNat := by
      have hhead : (printDecimal n).head? ≠ some 0x30 := by
        rw [htext, List.head?_cons]
        intro h
        exact hfirst (Option.some.inj h)
      have hhex : ¬ ((printDecimal n).take 2).map tolower = ascii "0x" := by
        intro h
        rw [htext] at h
        have hlower : tolower c = 0x30 := (List.cons.inj h).1
        have hsame : tolower c = c := by
          have hall : ∀ n < 256, isdigit (UInt8.ofNat n) = true → tolower (UInt8.ofNat n) = UInt8.ofNat n := by
            decide +kernel
          have hc := hall c.toNat c.toNat_lt
          rw [UInt8.ofNat_toNat] at hc
          exact hc hdigit
        exact hfirst (hsame ▸ hlower)
      have hne : printDecimal n ≠ [] := spelling_ne_nil _
      have hdigits : (printDecimal n).all isdigit = true := List.all_eq_true.mpr hall
      rw [unsignedDigits, if_neg (fun h => hhex h.1), if_neg hhead, if_pos ⟨hne, hdigits⟩]
      exact congrArg some (numberOf_spelling (by decide) (fun d hd => (digitByte_facts d hd).2) n.toNat)
    rw [parseU32_digits htext hdigit hrest, hvalue, Option.map_some, unsignedLong_toNat]

theorem mem_hexDigits (n : UInt32) : ∀ c ∈ zeroPadded 16 hexByte 8 n.toNat, isxdigit c = true :=
  mem_zeroPadded (by decide) (fun d hd => (xdigit_facts d hd).1) 8 n.toNat

theorem parseU32_printHex (n : UInt32) : parseU32 (printHex n) = some n := by
  have hdigits := mem_hexDigits n
  have hlen : (zeroPadded 16 hexByte 8 n.toNat).length = 8 := length_zeroPadded 8 n.toNat
  have hvalue : unsignedDigits (printHex n) = some n.toNat := by
    have hne : zeroPadded 16 hexByte 8 n.toNat ≠ [] := by
      intro hnil
      rw [hnil] at hlen
      cases hlen
    have hstart : ((printHex n).take 2).map tolower = ascii "0x" := rfl
    have hall : ((printHex n).drop 2).all isxdigit = true := List.all_eq_true.mpr hdigits
    rw [unsignedDigits, if_pos ⟨hstart, hne, hall⟩]
    exact congrArg some (numberOf_zeroPadded (by decide) (fun d hd => (xdigit_facts d hd).2) n.toNat_lt)
  have hnonzero : ∀ d ∈ 0x78 :: zeroPadded 16 hexByte 8 n.toNat, d ≠ (0 : UInt8) := by
    intro d hd
    rcases List.mem_cons.mp hd with rfl | hd
    · decide
    · exact (xdigit_plain (hdigits d hd)).1
  have htext : printHex n = 0x30 :: (0x78 :: zeroPadded 16 hexByte 8 n.toNat) := rfl
  rw [parseU32_digits htext (by decide) hnonzero, hvalue, Option.map_some, unsignedLong_toNat]

end Numbers

section Lines

/-- What a text comes back as. -/
def arrivedText (text : Bytes) : Bytes := trim (text.rdropWhile isspace)

theorem trim_eq (text : Bytes) : trim text = trimmed isspace text := rfl

theorem arrivedText_eq_self_iff (text : Bytes) : arrivedText text = text ↔ trim text = text :=
  trimmed_rdropWhile_eq_self_iff

/-- A key has no blank, no `=` and no line break. -/
structure PlainKey (key : Bytes) : Prop where
  ne_nil : key ≠ []
  solid : ∀ c ∈ key, isspace c = false
  noEquals : ∀ c ∈ key, c ≠ 0x3D

theorem readStatusLine_field (record : PersistentStatusRecord) {key : Bytes} (hkey : PlainKey key)
    (text : Bytes) :
    readStatusLine record (key ++ 0x3D :: text) = readStatusField record key (arrivedText text) := by
  have hline : trim (key ++ 0x3D :: text) = key ++ 0x3D :: text.rdropWhile isspace := by
    cases key with
    | nil => exact absurd rfl hkey.ne_nil
    | cons c key =>
      rw [trim_eq]
      exact trimmed_cons (hkey.solid c List.mem_cons_self) (by decide) key text
  have hreturn : dropReturn (key ++ 0x3D :: text.rdropWhile isspace) =
      key ++ 0x3D :: text.rdropWhile isspace := by
    apply if_neg
    intro hlast
    rw [List.getLast?_append, List.getLast?_cons] at hlast
    cases hend : (text.rdropWhile isspace).getLast? with
    | none =>
      rw [hend] at hlast
      have hequals : (0x3D : UInt8) = 0x0D := Option.some.inj hlast
      exact absurd hequals (by decide)
    | some c =>
      rw [hend] at hlast
      have hblank := getLast?_rdropWhile hend
      have hc : c = 0x0D := Option.some.inj hlast
      rw [hc] at hblank
      exact absurd hblank (by decide)
  have htake : (key ++ 0x3D :: text.rdropWhile isspace).takeWhile (· ≠ 0x3D) = key := by
    rw [List.takeWhile_append_of_pos fun c hc => decide_eq_true (hkey.noEquals c hc), List.takeWhile_cons]
    simp
  have hdrop : (key ++ 0x3D :: text.rdropWhile isspace).drop (key.length + 1) = text.rdropWhile isspace := by
    rw [← List.drop_drop, List.drop_left]
    rfl
  have hwhole : key ≠ key ++ 0x3D :: text.rdropWhile isspace := by
    intro h
    have hlen := congrArg List.length h
    rw [List.length_append, List.length_cons] at hlen
    omega
  have hkeytrim : trim key = key := trimmed_of_forall hkey.solid
  simp only [readStatusLine, hline, hreturn, htake, hdrop, hkey.ne_nil, hwhole, or_self, if_false, hkeytrim]
  rfl

theorem readStatusLine_nil (record : PersistentStatusRecord) : readStatusLine record [] = record := rfl

/-- A text of digits comes back as it is. -/
theorem arrivedText_solid {text : Bytes} (h : ∀ c ∈ text, isspace c = false) : arrivedText text = text :=
  (arrivedText_eq_self_iff text).mpr (trimmed_of_forall h)

theorem arrived_printDecimal (n : UInt32) : parseU32 (arrivedText (printDecimal n)) = some n := by
  rw [arrivedText_solid fun c hc => (digit_plain (mem_printDecimal n c hc)).2.1, parseU32_printDecimal]

theorem mem_printHex (n : UInt32) : ∀ c ∈ printHex n, isspace c = false ∧ c ≠ 0x0A := by
  intro c hc
  rcases List.mem_append.mp hc with hc | hc
  · have hstart : ∀ c ∈ ascii "0x", isspace c = false ∧ c ≠ 0x0A := by decide +kernel
    exact hstart c hc
  · exact (xdigit_plain (mem_hexDigits n c hc)).2

theorem arrived_printHex (n : UInt32) : parseU32 (arrivedText (printHex n)) = some n := by
  rw [arrivedText_solid fun c hc => (mem_printHex n c hc).1, parseU32_printHex]

/-- No text of the record has a line break. -/
structure Unbroken (record : PersistentStatusRecord) : Prop where
  state : 0x0A ∉ record.state
  image_path : 0x0A ∉ record.image_path
  confirmed_sw_version : 0x0A ∉ record.confirmed_sw_version
  confirmed_build_id : 0x0A ∉ record.confirmed_build_id

/-- The record that a saved record without line breaks is read as. -/
def arrivedRecord (record : PersistentStatusRecord) : PersistentStatusRecord :=
  { record with
    state := orNone (arrivedText record.state)
    image_path := arrivedText record.image_path
    confirmed_sw_version := arrivedText record.confirmed_sw_version
    confirmed_build_id := arrivedText record.confirmed_build_id }

theorem orNone_ne_nil (state : Bytes) : orNone state ≠ [] := by
  unfold orNone
  split
  · decide
  · assumption

theorem orNone_orNone (state : Bytes) : orNone (orNone state) = orNone state := if_neg (orNone_ne_nil state)

theorem statusField_unbroken {key : String} {text : Bytes} (hkey : 0x0A ∉ ascii key) (htext : 0x0A ∉ text) :
    0x0A ∉ statusField key text := by
  intro h
  rcases List.mem_append.mp h with h | h
  · exact hkey h
  · rcases List.mem_cons.mp h with h | h
    · exact absurd h (by decide)
    · exact htext h

theorem statusLines_unbroken {record : PersistentStatusRecord} (h : Unbroken record) :
    ∀ line ∈ statusLines record, 0x0A ∉ line := by
  have hdecimal : ∀ n, 0x0A ∉ printDecimal n := fun n hmem =>
    (digit_plain (mem_printDecimal n _ hmem)).2.2.2.2 rfl
  have hhex : ∀ n, 0x0A ∉ printHex n := fun n hmem => (mem_printHex n _ hmem).2 rfl
  have hpending : 0x0A ∉ ascii (if record.boot_report_pending then "1" else "0") := by
    cases record.boot_report_pending <;> decide
  simp only [statusLines, List.forall_mem_cons, List.not_mem_nil, false_implies, implies_true, and_true]
  exact ⟨statusField_unbroken (by decide) h.state, statusField_unbroken (by decide) (hdecimal _),
    statusField_unbroken (by decide) hpending, statusField_unbroken (by decide) h.image_path,
    statusField_unbroken (by decide) (hdecimal _), statusField_unbroken (by decide) (hhex _),
    statusField_unbroken (by decide) h.confirmed_sw_version,
    statusField_unbroken (by decide) h.confirmed_build_id⟩

theorem readStatusLine_statusField (record : PersistentStatusRecord) {key : String}
    (hkey : PlainKey (ascii key)) (text : Bytes) :
    readStatusLine record (statusField key text) = readStatusField record (ascii key) (arrivedText text) :=
  readStatusLine_field record hkey text

theorem plainKeys : ∀ key ∈ ["state", "epoch_s", "boot_report_pending", "image_path", "image_size",
    "image_crc32", "confirmed_sw", "confirmed_build"], PlainKey (ascii key) := by
  have hplain : (["state", "epoch_s", "boot_report_pending", "image_path", "image_size",
      "image_crc32", "confirmed_sw", "confirmed_build"].all fun key =>
      !(ascii key).isEmpty && (ascii key).all fun c => !isspace c && c != 0x3D) = true := by decide +kernel
  intro key hkey
  have hthis := List.all_eq_true.mp hplain key hkey
  obtain ⟨hne, hbytes⟩ := Bool.and_eq_true_iff.mp hthis
  have hbyte : ∀ c ∈ ascii key, isspace c = false ∧ c ≠ 0x3D := by
    intro c hc
    simpa using List.all_eq_true.mp hbytes c hc
  exact ⟨by simpa using hne, fun c hc => (hbyte c hc).1, fun c hc => (hbyte c hc).2⟩

section Fields

variable (r : PersistentStatusRecord) (v : Bytes)

theorem readState : readStatusField r (ascii "state") v = { r with state := orNone v } := rfl

theorem readEpoch : readStatusField r (ascii "epoch_s") v =
    { r with epoch_s := (parseU32 v).getD r.epoch_s } := rfl

theorem readPending : readStatusField r (ascii "boot_report_pending") v =
    { r with boot_report_pending := ((parseU32 v).map (· != 0)).getD r.boot_report_pending } := rfl

theorem readPath : readStatusField r (ascii "image_path") v = { r with image_path := v } := rfl

theorem readSize : readStatusField r (ascii "image_size") v =
    { r with image_size := (parseU32 v).getD r.image_size } := rfl

theorem readCrc : readStatusField r (ascii "image_crc32") v =
    { r with image_crc32 := (parseU32 v).getD r.image_crc32 } := rfl

theorem readSw : readStatusField r (ascii "confirmed_sw") v = { r with confirmed_sw_version := v } := rfl

theorem readBuild : readStatusField r (ascii "confirmed_build") v = { r with confirmed_build_id := v } := rfl

end Fields

/-- Without line breaks every field is read back, its text trimmed. -/
theorem parseStatus_statusBody {record : PersistentStatusRecord} (h : Unbroken record) :
    parseStatus (statusBody record) = arrivedRecord record := by
  have hsplit : (statusBody record).splitOn 0x0A = statusLines record ++ [[]] :=
    splitOn_lines (statusLines_unbroken h)
  have hread : ∀ key ∈ ["state", "epoch_s", "boot_report_pending", "image_path", "image_size",
      "image_crc32", "confirmed_sw", "confirmed_build"], ∀ r text,
      readStatusLine r (statusField key text) = readStatusField r (ascii key) (arrivedText text) :=
    fun key hkey r text => readStatusLine_statusField r (plainKeys key hkey) text
  have hpending : (parseU32 (arrivedText (ascii (if record.boot_report_pending then "1" else "0")))).map
      (· != 0) = some record.boot_report_pending := by
    cases record.boot_report_pending <;> decide
  unfold parseStatus
  rw [hsplit, List.foldl_append]
  simp only [statusLines, List.foldl_cons, List.foldl_nil, readStatusLine_nil]
  rw [hread "state" (by simp), hread "epoch_s" (by simp), hread "boot_report_pending" (by simp),
    hread "image_path" (by simp), hread "image_size" (by simp), hread "image_crc32" (by simp),
    hread "confirmed_sw" (by simp), hread "confirmed_build" (by simp), readState, readEpoch, readPending,
    readPath, readSize, readCrc, readSw, readBuild]
  simp only [arrived_printDecimal, arrived_printHex, hpending, Option.getD_some, orNone_orNone]
  rfl

theorem readStatusField_unbroken {r : PersistentStatusRecord} (h : Unbroken r) (key : Bytes) {v : Bytes}
    (hv : 0x0A ∉ v) : Unbroken (readStatusField r key v) := by
  have hstate : 0x0A ∉ orNone v := by
    unfold orNone
    split
    · decide
    · exact hv
  unfold readStatusField
  split_ifs
  · exact { h with state := hstate }
  · exact { h with }
  · exact { h with }
  · exact { h with image_path := hv }
  · exact { h with }
  · exact { h with }
  · exact { h with confirmed_sw_version := hv }
  · exact { h with confirmed_build_id := hv }
  · exact h

theorem trim_sublist (v : Bytes) : (trim v).Sublist v := trimmed_sublist v

theorem readStatusLine_unbroken {r : PersistentStatusRecord} (h : Unbroken r) {line : Bytes}
    (hline : 0x0A ∉ line) : Unbroken (readStatusLine r line) := by
  have hreturn : (dropReturn (trim line)).Sublist line := by
    unfold dropReturn
    split
    · exact (List.dropLast_sublist _).trans (trim_sublist line)
    · exact trim_sublist line
  unfold readStatusLine
  dsimp only
  split
  · exact h
  · apply readStatusField_unbroken h
    intro hmem
    exact hline (hreturn.subset ((List.drop_sublist _ _).subset ((trim_sublist _).subset hmem)))

/-- What is loaded never has a line break in a text. -/
theorem parseStatus_unbroken (text : Bytes) : Unbroken (parseStatus text) := by
  have hrun : ∀ (ls : List Bytes) (r : PersistentStatusRecord), (∀ l ∈ ls, 0x0A ∉ l) → Unbroken r →
      Unbroken (ls.foldl readStatusLine r) := by
    intro ls
    induction ls with
    | nil =>
      intro r _ h
      exact h
    | cons l ls ih =>
      intro r hls h
      exact ih _ (fun m hm => hls m (List.mem_cons_of_mem l hm))
        (readStatusLine_unbroken h (hls l List.mem_cons_self))
  have hnone : Unbroken noRecord := ⟨by decide, by decide, by decide, by decide⟩
  have h := hrun (text.splitOn 0x0A) noRecord (fun l hl => not_mem_of_mem_splitOn hl) hnone
  have hstate : 0x0A ∉ orNone ((text.splitOn 0x0A).foldl readStatusLine noRecord).state := by
    unfold orNone
    split
    · decide
    · exact h.state
  exact { h with state := hstate }

end Lines

section RoundTrip

/-- A record whose text is read back: no line break in its texts, no blank around them, a state. -/
structure Legible (record : PersistentStatusRecord) : Prop extends Unbroken record where
  named : record.state ≠ []
  state_trim : trim record.state = record.state
  image_path_trim : trim record.image_path = record.image_path
  confirmed_sw_version_trim : trim record.confirmed_sw_version = record.confirmed_sw_version
  confirmed_build_id_trim : trim record.confirmed_build_id = record.confirmed_build_id

theorem orNone_arrived_eq_self_iff (state : Bytes) :
    orNone (arrivedText state) = state ↔ state ≠ [] ∧ trim state = state := by
  rw [← arrivedText_eq_self_iff]
  constructor
  · intro h
    have hne : state ≠ [] := by
      intro hnil
      rw [hnil] at h
      exact absurd h (by decide)
    refine ⟨hne, ?_⟩
    unfold orNone at h
    split at h
    · rw [← h]
      decide
    · exact h
  · rintro ⟨hne, h⟩
    rw [h, orNone, if_neg hne]

theorem parseStatus_eq_self_iff (record : PersistentStatusRecord) :
    parseStatus (statusBody record) = record ↔ Legible record := by
  constructor
  · intro h
    have hunbroken : Unbroken record := h ▸ parseStatus_unbroken (statusBody record)
    rw [parseStatus_statusBody hunbroken] at h
    obtain ⟨hnamed, hstate⟩ := (orNone_arrived_eq_self_iff _).mp (congrArg PersistentStatusRecord.state h)
    exact {
      hunbroken with
      named := hnamed
      state_trim := hstate
      image_path_trim := (arrivedText_eq_self_iff _).mp (congrArg PersistentStatusRecord.image_path h)
      confirmed_sw_version_trim :=
        (arrivedText_eq_self_iff _).mp (congrArg PersistentStatusRecord.confirmed_sw_version h)
      confirmed_build_id_trim :=
        (arrivedText_eq_self_iff _).mp (congrArg PersistentStatusRecord.confirmed_build_id h) }
  · intro h
    have hstate := (orNone_arrived_eq_self_iff _).mpr ⟨h.named, h.state_trim⟩
    have hpath := (arrivedText_eq_self_iff _).mpr h.image_path_trim
    have hsw := (arrivedText_eq_self_iff _).mpr h.confirmed_sw_version_trim
    have hbuild := (arrivedText_eq_self_iff _).mpr h.confirmed_build_id_trim
    rw [parseStatus_statusBody h.toUnbroken, arrivedRecord, hstate, hpath, hsw, hbuild]

/-- The bytes of the record's texts and of its two decimal numbers. -/
def variableBytes (record : PersistentStatusRecord) : ℕ :=
  record.state.length + (printDecimal record.epoch_s).length + record.image_path.length +
    (printDecimal record.image_size).length + record.confirmed_sw_version.length +
    record.confirmed_build_id.length

theorem length_statusBody (record : PersistentStatusRecord) :
    (statusBody record).length = 116 + variableBytes record := by
  have hhex : (printHex record.image_crc32).length = 10 := by
    rw [printHex, List.length_append, length_zeroPadded]
    rfl
  have hpending : (ascii (if record.boot_report_pending then "1" else "0")).length = 1 := by
    cases record.boot_report_pending <;> rfl
  have hline : ∀ key text, (statusField key text ++ [0x0A]).length = (ascii key).length + text.length + 2 := by
    intro key text
    rw [statusField, List.length_append, List.length_append, List.length_cons, List.length_singleton]
    omega
  have hkeys : (ascii "state").length = 5 ∧ (ascii "epoch_s").length = 7 ∧
      (ascii "boot_report_pending").length = 19 ∧ (ascii "image_path").length = 10 ∧
      (ascii "image_size").length = 10 ∧ (ascii "image_crc32").length = 11 ∧
      (ascii "confirmed_sw").length = 12 ∧ (ascii "confirmed_build").length = 15 := by decide
  obtain ⟨h1, h2, h3, h4, h5, h6, h7, h8⟩ := hkeys
  rw [statusBody, List.length_flatMap]
  simp only [statusLines, List.map_cons, List.map_nil, List.sum_cons, List.sum_nil, hline, hhex, hpending,
    h1, h2, h3, h4, h5, h6, h7, h8, variableBytes]
  omega

end RoundTrip

/-- What the status record relies on of a storage backend: an operation that succeeds does what it says. -/
structure ReadableLaws {Files : Type} (b : OtaReadableStorage Files) (contents : Files → Bytes → Option Bytes) :
    Prop extends StorageLaws b.toOtaStorageBackend contents where
  stat : ∀ path files st bytes, contents files path = some bytes → b.stat path files = .ok st →
    st.exists_ = true ∧ st.is_dir = false ∧ st.size_bytes.toNat = bytes.length
  read : ∀ path (offset : UInt32) n files data bytes, contents files path = some bytes →
    b.readAt path offset n files = .ok data → data = (bytes.drop offset.toNat).take n

section Stored

variable {Files : Type} {b : OtaReadableStorage Files} {contents : Files → Bytes → Option Bytes}

theorem saved_contents (hb : ReadableLaws b contents) {st_dir : Bytes} {record : PersistentStatusRecord}
    {files : Files} (h : (saveStatusRecord b st_dir record files).1.ok = true) :
    contents (saveStatusRecord b st_dir record files).2 (statusRecordPath st_dir) = some (statusBody record) := by
  unfold saveStatusRecord at h ⊢
  dsimp only at h ⊢
  split at h
  · cases h
  · rename_i hdir
    rw [if_neg hdir]
    split at h
    · cases h
    · rename_i htruncate
      rw [if_neg htruncate]
      split at h
      · cases h
      · rename_i hwrite
        rw [if_neg hwrite]
        have hempty := hb.truncate (statusRecordPath st_dir) (b.ensureDir st_dir files).2
          (by simpa using htruncate)
        have hwritten := hb.write (statusRecordPath st_dir) 0 (statusBody record) _ [] hempty (Nat.zero_le _)
          (by simpa using hwrite)
        have hall : copyInto [] (0 : UInt32).toNat (statusBody record) = statusBody record := by
          simp [copyInto]
        rw [hall] at hwritten
        exact hwritten

/-- A stored record that is not too large is parsed. -/
theorem load_stored (hb : ReadableLaws b contents) {st_dir : Bytes} {record : PersistentStatusRecord}
    {files : Files} {st : OtaStorageStat} {data : Bytes}
    (hstored : contents files (statusRecordPath st_dir) = some (statusBody record))
    (hstat : b.stat (statusRecordPath st_dir) files = .ok st)
    (hread : b.readAt (statusRecordPath st_dir) 0 st.size_bytes.toNat files = .ok data) :
    loadStatusRecord b st_dir files =
      if 2048 < (statusBody record).length then .error "status record too large"
      else .ok (parseStatus (statusBody record)) := by
  obtain ⟨hexists, hdir, hsize⟩ := hb.stat _ _ _ _ hstored hstat
  have hdata := hb.read _ _ _ _ _ _ hstored hread
  have hall : data = statusBody record := by
    rw [hdata, hsize]
    exact List.take_length
  have hlen := length_statusBody record
  have hne : statusBody record ≠ [] := by
    intro hnil
    rw [hnil, List.length_nil] at hlen
    omega
  have hnonzero : st.size_bytes ≠ 0 := by
    intro hzero
    rw [hzero] at hsize
    have hsize' : 0 = (statusBody record).length := hsize
    omega
  have hlarge : st.size_bytes > 2048 ↔ 2048 < (statusBody record).length := by
    rw [← hsize]
    exact UInt32.lt_iff_toNat_lt
  simp only [loadStatusRecord, hstat, hexists, hdir, hnonzero, hlarge, hread, hall, hne]
  simp

/-- A record that fits the buffer of the loader, its texts legible. -/
structure Storable (record : PersistentStatusRecord) : Prop extends Legible record where
  room : variableBytes record ≤ 1932

/-- A saved record loads as itself exactly when it is storable. -/
theorem saved_record_loads_iff (hb : ReadableLaws b contents) (st_dir : Bytes)
    (record : PersistentStatusRecord) (files : Files) (st : OtaStorageStat) (data : Bytes)
    (hsaved : (saveStatusRecord b st_dir record files).1.ok = true)
    (hstat : b.stat (statusRecordPath st_dir) (saveStatusRecord b st_dir record files).2 = .ok st)
    (hread : b.readAt (statusRecordPath st_dir) 0 st.size_bytes.toNat
      (saveStatusRecord b st_dir record files).2 = .ok data) :
    loadStatusRecord b st_dir (saveStatusRecord b st_dir record files).2 = .ok record ↔ Storable record := by
  rw [load_stored hb (saved_contents hb hsaved) hstat hread]
  have hlen := length_statusBody record
  by_cases hlarge : 2048 < (statusBody record).length
  · rw [if_pos hlarge]
    constructor
    · intro h
      cases h
    · intro h
      have hroom := h.room
      omega
  · rw [if_neg hlarge]
    constructor
    · intro h
      have hlegible := (parseStatus_eq_self_iff record).mp (Except.ok.inj h)
      exact { hlegible with room := by omega }
    · intro h
      rw [(parseStatus_eq_self_iff record).mpr h.toLegible]

/-- Files in memory that are read as well; a size is told if it fits 32 bits. -/
def readableMemory : OtaReadableStorage (Bytes → Option Bytes) where
  toOtaStorageBackend := memoryStorage
  stat path files :=
    let bytes := (files path).getD []
    if bytes.length < 2 ^ 32 then .ok ⟨(files path).isSome, false, UInt32.ofNat bytes.length⟩
    else .error "file too large"
  readAt path offset n files := .ok ((((files path).getD []).drop offset.toNat).take n)

theorem readableMemory_laws : ReadableLaws readableMemory fun files => files where
  toStorageLaws := memoryStorage_laws
  stat path files st bytes hbytes hstat := by
    simp only [readableMemory, hbytes, Option.getD_some, Option.isSome_some] at hstat
    split at hstat
    · rename_i hlt
      cases hstat
      refine ⟨rfl, rfl, ?_⟩
      rw [UInt32.toNat_ofNat', Nat.mod_eq_of_lt hlt]
    · cases hstat
  read path offset n files data bytes hbytes hread := by
    simp only [readableMemory, hbytes, Option.getD_some, Except.ok.injEq] at hread
    exact hread.symm

end Stored

/-- A confirmed boot of the image with the given build id. -/
def bootedRecord (build_id : Bytes) : PersistentStatusRecord where
  state := kBootOk
  epoch_s := 1700000000
  boot_report_pending := true
  image_path := ascii "/ota/img/u.bin"
  image_size := 1048576
  image_crc32 := 0xDEADBEEF
  confirmed_sw_version := ascii "1.2.0"
  confirmed_build_id := build_id

def kStatusDir : Bytes := ascii "/ota/st"

/-- The storage after the record was saved to it. -/
def savedFiles (record : PersistentStatusRecord) : Bytes → Option Bytes :=
  (saveStatusRecord readableMemory kStatusDir record fun _ => none).2

theorem booted_record_loads :
    loadStatusRecord readableMemory kStatusDir (savedFiles (bootedRecord (ascii "b 7=x"))) =
      .ok (bootedRecord (ascii "b 7=x")) :=
  (saved_record_loads_iff readableMemory_laws kStatusDir (bootedRecord (ascii "b 7=x")) (fun _ => none)
    ⟨true, false, 164⟩ (statusBody (bootedRecord (ascii "b 7=x"))) rfl (by decide +kernel)
    (by decide +kernel)).mpr {
      state := by decide
      image_path := by decide
      confirmed_sw_version := by decide
      confirmed_build_id := by decide
      named := by decide
      state_trim := by decide
      image_path_trim := by decide
      confirmed_sw_version_trim := by decide
      confirmed_build_id_trim := by decide
      room := by decide +kernel }

/-- A line break in the build id is saved, and what follows it sets the state. -/
theorem broken_record_loads_as_another :
    (saveStatusRecord readableMemory kStatusDir (bootedRecord (ascii "b7\nstate=none")) fun _ => none).1.ok = true ∧
      loadStatusRecord readableMemory kStatusDir (savedFiles (bootedRecord (ascii "b7\nstate=none"))) =
        .ok { bootedRecord (ascii "b7") with state := ascii "none" } ∧
      loadStatusRecord readableMemory kStatusDir (savedFiles (bootedRecord (ascii "b7\nstate=none"))) ≠
        .ok (bootedRecord (ascii "b7\nstate=none")) := by
  have hload : loadStatusRecord readableMemory kStatusDir
      (savedFiles (bootedRecord (ascii "b7\nstate=none"))) =
        .ok { bootedRecord (ascii "b7") with state := ascii "none" } := by decide +kernel
  refine ⟨rfl, hload, ?_⟩
  rw [hload]
  intro h
  exact absurd (congrArg PersistentStatusRecord.state (Except.ok.inj h)) (by decide)

end OtaManager

end EspNowLink
