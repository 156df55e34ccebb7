import EspNowLink.Platform.LogStore

open Framework

namespace EspNowLink

namespace LibraryLogger

section Encoding

theorem length_fixedPart (record : LibraryLogRecord) (seq : UInt32) : (fixedPart record seq).length = 32 := by
  simp [fixedPart]

theorem length_encodeRecord (record : LibraryLogRecord) (seq : UInt32) :
    (encodeRecord record seq).length = 35 + min record.ext.length 255 := by
  simp [encodeRecord, length_fixedPart]
  omega

theorem recordSize_append (record : LibraryLogRecord) (seq : UInt32) {k : ℕ} (hk : 32 < k) (rest : Bytes) :
    recordSize ((encodeRecord record seq).take k ++ rest) = some (35 + min record.ext.length 255) := by
  have hlen := length_encodeRecord record seq
  have hinside : 32 < ((encodeRecord record seq).take k).length := by
    rw [List.length_take]
    omega
  have hbehind : (fixedPart record seq).length ≤ 32 := (length_fixedPart record seq).le
  have hbyte : (encodeRecord record seq)[32]? = some (UInt8.ofNat (min record.ext.length 255)) := by
    rw [encodeRecord, List.append_assoc, List.append_assoc, List.getElem?_append_right hbehind,
      length_fixedPart]
    rfl
  have hcount : (UInt8.ofNat (min record.ext.length 255)).toNat = min record.ext.length 255 := by
    rw [UInt8.toNat_ofNat']
    omega
  rw [recordSize, List.getElem?_append_left hinside, List.getElem?_take_of_lt hk, hbyte, Option.map_some, hcount]

theorem announced_encodeRecord (record : LibraryLogRecord) (seq : UInt32) :
    SizedRecords.Announced recordSize (encodeRecord record seq) := by
  have hlen := length_encodeRecord record seq
  constructor
  · intro hnil
    rw [hnil] at hlen
    simp at hlen
    omega
  · intro rest
    have hsize := recordSize_append record seq (k := (encodeRecord record seq).length) (by omega) rest
    rwa [List.take_length, ← hlen] at hsize
  · intro k hk n hn
    by_cases hshort : k ≤ 32
    · have hnone : ((encodeRecord record seq).take k)[32]? = none := by
        rw [List.getElem?_eq_none_iff, List.length_take]
        omega
      rw [recordSize, hnone] at hn
      cases hn
    · have hsize := recordSize_append record seq (Nat.not_le.mp hshort) []
      rw [List.append_nil, hn] at hsize
      cases hsize
      omega

theorem sequenceOf_encodeRecord (record : LibraryLogRecord) (seq : UInt32) :
    sequenceOf (encodeRecord record seq) = seq := by
  show readLe32 seq.toUInt8 (seq >>> 8).toUInt8 (seq >>> 16).toUInt8 (seq >>> 24).toUInt8 = seq
  exact readLe32_le32 seq

/-- The file of a log. -/
def logFile (records : List (LibraryLogRecord × UInt32)) : Bytes :=
  (records.map fun r => encodeRecord r.1 r.2).flatten

theorem cut_logFile (records : List (LibraryLogRecord × UInt32)) (rest : Bytes) :
    SizedRecords.cut recordSize (logFile records ++ rest) =
      (records.map (fun r => encodeRecord r.1 r.2) ++ (SizedRecords.cut recordSize rest).1,
        (SizedRecords.cut recordSize rest).2) := by
  apply SizedRecords.cut_flatten
  intro bs hbs
  obtain ⟨r, -, rfl⟩ := List.mem_map.mp hbs
  exact announced_encodeRecord r.1 r.2

theorem sequences_logFile (records : List (LibraryLogRecord × UInt32)) :
    sequences (logFile records) = records.map Prod.snd := by
  have hcut := cut_logFile records []
  rw [List.append_nil, SizedRecords.cut_nil rfl, List.append_nil] at hcut
  rw [sequences, hcut, List.map_map]
  exact List.map_congr_left fun r _ => sequenceOf_encodeRecord r.1 r.2

/-- The front of a record is no end of a log. -/
theorem not_torn {records records' : List (LibraryLogRecord × UInt32)} {record : LibraryLogRecord}
    {seq : UInt32} {k : ℕ} (hk : k < (encodeRecord record seq).length)
    (h : logFile records ++ (encodeRecord record seq).take k = logFile records') : k = 0 := by
  have hcut := cut_logFile records ((encodeRecord record seq).take k)
  have hcut' := cut_logFile records' []
  rw [SizedRecords.cut_torn (announced_encodeRecord record seq) hk, h] at hcut
  rw [List.append_nil, SizedRecords.cut_nil rfl, hcut] at hcut'
  have hrest : (encodeRecord record seq).take k = [] := congrArg Prod.snd hcut'
  rcases List.take_eq_nil_iff.mp hrest with hzero | hnil
  · exact hzero
  · rw [hnil] at hk
    exact absurd hk (Nat.not_lt_zero k)

end Encoding

section Reading

variable {s : EspLogStore}

theorem toNat_offset (hlen : s.file.length < 2 ^ 32) {off : ℕ} (hoff : off ≤ s.file.length) :
    (UInt32.ofNat off).toNat = off := by
  rw [UInt32.toNat_ofNat']
  exact Nat.mod_eq_of_lt (Nat.lt_of_le_of_lt hoff hlen)

theorem readChunk_eq (havailable : s.stats.available = true) (hlen : s.file.length < 2 ^ 32) {c off : ℕ}
    (hc : 0 < c) (hoff : off ≤ s.file.length) :
    s.readChunk (UInt32.ofNat off) c true true =
      some ((s.file.drop off).take c, UInt32.ofNat s.file.length) := by
  have hzero : ¬ c = 0 := Nat.pos_iff_ne_zero.mp hc
  have hend : UInt32.ofNat off ≥ UInt32.ofNat s.file.length ↔ s.file.length ≤ off := by
    rw [ge_iff_le, UInt32.le_iff_toNat_le, toNat_offset hlen hoff, toNat_offset hlen (Nat.le_refl _)]
  have hsize : s.size true = some (UInt32.ofNat s.file.length) := rfl
  rw [EspLogStore.readChunk, hsize, havailable, if_neg (by simp [hzero]), Option.bind_some]
  by_cases hpast : s.file.length ≤ off
  · rw [if_pos (hend.mpr hpast), List.drop_eq_nil_of_le hpast, List.take_nil]
  · rw [if_neg (fun h => hpast (hend.mp h)), if_pos rfl, toNat_offset hlen hoff]

theorem readAll_eq (havailable : s.stats.available = true) (hlen : s.file.length < 2 ^ 32) {chunks : List ℕ}
    (hchunks : ∀ c ∈ chunks, 0 < c) {off : ℕ} (hoff : off ≤ s.file.length) :
    s.readAll (UInt32.ofNat off) chunks = some ((s.file.drop off).take chunks.sum) := by
  induction chunks generalizing off with
  | nil => rfl
  | cons c chunks ih =>
    have hc := hchunks c List.mem_cons_self
    have hread : ((s.file.drop off).take c).length = min c (s.file.length - off) := by
      rw [List.length_take, List.length_drop]
    have hnext : UInt32.ofNat off + UInt32.ofNat ((s.file.drop off).take c).length =
        UInt32.ofNat (off + min c (s.file.length - off)) := by
      rw [hread, UInt32.ofNat_add]
    have hdrop : s.file.drop (off + min c (s.file.length - off)) = (s.file.drop off).drop c := by
      rw [List.drop_drop]
      by_cases hinside : c ≤ s.file.length - off
      · rw [Nat.min_eq_left hinside]
      · rw [List.drop_eq_nil_of_le (by omega), List.drop_eq_nil_of_le (by omega)]
    have hinside : off + min c (s.file.length - off) ≤ s.file.length := by omega
    have hrest := ih (fun d hd => hchunks d (List.mem_cons_of_mem c hd)) hinside
    rw [EspLogStore.readAll, readChunk_eq havailable hlen hc hoff]
    show (do let rest ← s.readAll (UInt32.ofNat off + _) chunks; return (s.file.drop off).take c ++ rest) = _
    rw [hnext, hrest, List.sum_cons, List.take_add, hdrop]
    rfl

end Reading

section Steps

/-- The bytes get as far as the backend's `append`. -/
def Reaches (s : EspLogStore) (a : LogAnswers) (data : Bytes) : Prop :=
  s.stats.available = true ∧ data.length ≤ s.max_bytes.toNat ∧ a.size_ok = true ∧
    (s.rotates data = true → a.truncated = .done)

/-- What the bytes are appended to. -/
def base (s : EspLogStore) (data : Bytes) : Bytes := if s.rotates data then [] else s.file

theorem appendTo_file (s : EspLogStore) (a : Appending) (current : UInt32) (data : Bytes) :
    (s.appendTo a current data).2.file = s.file ++ a.bytes data := by
  cases a with
  | done => rfl
  | failed written => rfl

/-- What an append leaves in the file. -/
theorem append_reaches {s : EspLogStore} {a : LogAnswers} {data : Bytes} (hne : data ≠ [])
    (h : Reaches s a data) : (s.append a data).2.file = base s data ++ a.appended.bytes data := by
  obtain ⟨havailable, hlen, hsize, hrotates⟩ := h
  have hempty : data.isEmpty = false := by simpa using hne
  have hsized : s.size a.size_ok = some (UInt32.ofNat s.file.length) := by rw [EspLogStore.size, if_pos hsize]
  rw [EspLogStore.append, havailable, hempty, if_neg (by simp), if_neg (Nat.not_lt.mpr hlen), hsized]
  by_cases hover : s.rotates data = true
  · have hdone := hrotates hover
    simp only [base, hover, if_true, hdone, Truncation.left]
    exact appendTo_file _ _ _ _
  · simp only [base, if_neg hover]
    exact appendTo_file _ _ _ _

theorem append_kept {s : EspLogStore} {a : LogAnswers} {data : Bytes} (h : ¬ Reaches s a data) :
    (s.append a data).2.file = s.file ∨ (s.append a data).2.file = [] := by
  rw [EspLogStore.append]
  by_cases hclosed : (!s.stats.available || data.isEmpty) = true
  · rw [if_pos hclosed]
    exact Or.inl rfl
  rw [if_neg hclosed]
  by_cases hlong : s.max_bytes.toNat < data.length
  · rw [if_pos hlong]
    exact Or.inl rfl
  rw [if_neg hlong]
  have havailable : s.stats.available = true := by
    cases hs : s.stats.available
    · rw [hs] at hclosed
      exact absurd rfl hclosed
    · rfl
  cases hsize : a.size_ok with
  | false => exact Or.inl rfl
  | true =>
    have hover : s.rotates data = true ∧ a.truncated ≠ .done := by
      by_contra hno
      apply h
      refine ⟨havailable, Nat.not_lt.mp hlong, hsize, fun hover => ?_⟩
      by_contra hfailed
      exact hno ⟨hover, hfailed⟩
    cases htruncated : a.truncated with
    | done => exact absurd htruncated hover.2
    | failed emptied =>
      simp only [EspLogStore.size, if_true, hover.1, Truncation.left]
      cases emptied
      · exact Or.inl rfl
      · exact Or.inr rfl

/-- An append is acknowledged when the backend has done it. -/
theorem append_acknowledged {s : EspLogStore} {a : LogAnswers} {data : Bytes} (hne : data ≠ []) :
    (s.append a data).1 = true ↔ Reaches s a data ∧ a.appended = .done := by
  have hto (s' : EspLogStore) (current : UInt32) :
      (s'.appendTo a.appended current data).1 = true ↔ a.appended = .done := by
    cases a.appended with
    | done => exact iff_of_true rfl rfl
    | failed written => exact iff_of_false (by simp [EspLogStore.appendTo]) (by simp)
  have hempty : data.isEmpty = false := by simpa using hne
  rw [EspLogStore.append, hempty, Bool.or_false, Reaches]
  by_cases havailable : s.stats.available = true
  swap
  · simp [havailable]
  by_cases hlong : s.max_bytes.toNat < data.length
  · simp [havailable, hlong, Nat.not_le.mpr hlong]
  rw [havailable, Bool.not_true, if_neg Bool.false_ne_true, if_neg hlong]
  cases hsize : a.size_ok with
  | false => simp [EspLogStore.size]
  | true =>
    simp only [EspLogStore.size, if_true, Nat.not_lt.mp hlong, true_and]
    by_cases hover : s.rotates data = true
    · cases htruncated : a.truncated with
      | done => simpa [hover] using hto _ _
      | failed emptied => simp [hover]
    · simpa [hover] using hto _ _

/-- What no append changes. -/
theorem append_frame (s : EspLogStore) (a : LogAnswers) (data : Bytes) :
    (s.append a data).2.max_bytes = s.max_bytes ∧
      (s.append a data).2.stats.available = s.stats.available := by
  have hto (s' : EspLogStore) (current : UInt32) :
      (s'.appendTo a.appended current data).2.max_bytes = s'.max_bytes ∧
        (s'.appendTo a.appended current data).2.stats.available = s'.stats.available := by
    cases a.appended with
    | done => exact ⟨rfl, rfl⟩
    | failed written => exact ⟨rfl, rfl⟩
  unfold EspLogStore.append
  split
  · exact ⟨rfl, rfl⟩
  split
  · exact ⟨rfl, rfl⟩
  split
  · exact ⟨rfl, rfl⟩
  split
  · split
    · exact ⟨rfl, rfl⟩
    · exact hto _ _
  · exact hto _ _

end Steps

end LibraryLogger

end EspNowLink
