import EspNowLink.Framework.Runs
import EspNowLink.Platform.LogRuns

open Framework

namespace EspNowLink

namespace LibraryLogger

section Statement

/-- The log file is whole: its records are complete and in order, it keeps its limit and is read back. -/
structure Sound (l : LibraryLogger) : Prop where
  whole : ∃ records, l.store.file = logFile records ∧ (records.map Prod.snd).Pairwise (· < ·)
  bounded : l.store.file.length ≤ l.store.max_bytes.toNat
  readable : l.store.stats.available = true → ∀ chunks : List ℕ, (∀ c ∈ chunks, 0 < c) →
    l.store.readAll 0 chunks = some (l.store.file.take chunks.sum)

/-- The record gets as far as the backend's `append`. -/
def Appends (l : LibraryLogger) (record : LibraryLogRecord) (a : LogAnswers) : Prop :=
  l.enabled = true ∧ l.shouldStore record.level = true ∧ l.attached = true ∧
    Reaches l.store a (encodeRecord record (l.last_sequence + 1))

instance (l : LibraryLogger) (record : LibraryLogRecord) (a : LogAnswers) : Decidable (l.Appends record a) :=
  inferInstanceAs (Decidable (_ ∧ _ ∧ _ ∧ _ ∧ _ ∧ _ ∧ (_ → _)))

theorem sound_iff {l : LibraryLogger} : l.Sound ↔
    (∃ records, l.store.file = logFile records ∧ (records.map Prod.snd).Pairwise (· < ·)) ∧
      l.store.file.length ≤ l.store.max_bytes.toNat := by
  constructor
  · intro h
    exact ⟨h.whole, h.bounded⟩
  · rintro ⟨hwhole, hbounded⟩
    refine ⟨hwhole, hbounded, ?_⟩
    intro havailable chunks hchunks
    have hlen : l.store.file.length < 2 ^ 32 := Nat.lt_of_le_of_lt hbounded l.store.max_bytes.toNat_lt
    exact readAll_eq havailable hlen hchunks (Nat.zero_le _)

theorem sound_fresh (max_bytes : UInt32) (attached : Bool) : (fresh max_bytes attached).Sound :=
  sound_iff.mpr ⟨⟨[], rfl, List.Pairwise.nil⟩, Nat.zero_le _⟩

theorem log_frame (l : LibraryLogger) (record : LibraryLogRecord) (a : LogAnswers) :
    (l.log record a).2.store.max_bytes = l.store.max_bytes ∧
      (l.log record a).2.store.stats.available = l.store.stats.available := by
  unfold log
  split
  · exact ⟨rfl, rfl⟩
  split
  · exact ⟨rfl, rfl⟩
  split
  · exact ⟨rfl, rfl⟩
  simp only
  split
  · exact append_frame _ _ _
  · exact append_frame _ _ _

theorem log_file {l : LibraryLogger} {record : LibraryLogRecord} {a : LogAnswers} (h : l.Appends record a) :
    (l.log record a).2.store.file = base l.store (encodeRecord record (l.last_sequence + 1)) ++
      a.appended.bytes (encodeRecord record (l.last_sequence + 1)) := by
  obtain ⟨henabled, hlevel, hattached, hreaches⟩ := h
  have hne := (announced_encodeRecord record (l.last_sequence + 1)).nonempty
  rw [← append_reaches hne hreaches, log, henabled, hlevel, hattached]
  simp only [Bool.not_true, Bool.false_eq_true, if_false]
  split
  · rfl
  · rfl

theorem log_kept {l : LibraryLogger} {record : LibraryLogRecord} {a : LogAnswers} (h : ¬ l.Appends record a) :
    (l.log record a).2.store.file = l.store.file ∨ (l.log record a).2.store.file = [] := by
  unfold log
  split
  · exact Or.inl rfl
  split
  · exact Or.inl rfl
  split
  · exact Or.inl rfl
  rename_i henabled hlevel hattached
  have hreaches : ¬ Reaches l.store a (encodeRecord record (l.last_sequence + 1)) := by
    intro hreaches
    exact h ⟨by simpa using henabled, by simpa using hlevel, by simpa using hattached, hreaches⟩
  simp only
  split
  · exact append_kept hreaches
  · exact append_kept hreaches

/-- A file that stays or is emptied stays sound. -/
theorem Sound.kept {l l' : LibraryLogger} (hl : l.Sound) (hmax : l'.store.max_bytes = l.store.max_bytes)
    (hfile : l'.store.file = l.store.file ∨ l'.store.file = []) : l'.Sound := by
  obtain ⟨hwhole, hbounded⟩ := sound_iff.mp hl
  apply sound_iff.mpr
  rw [hmax]
  rcases hfile with hsame | hempty
  · rw [hsame]
    exact ⟨hwhole, hbounded⟩
  · rw [hempty]
    exact ⟨⟨[], rfl, List.Pairwise.nil⟩, Nat.zero_le _⟩

/-- Lengths within the limit whose sum passes it on 32 bits do not wrap. -/
theorem no_wrap {s : EspLogStore} {data : Bytes} (hfile : s.file.length ≤ s.max_bytes.toNat)
    (hdata : data.length ≤ s.max_bytes.toNat) :
    (s.rotates data = true → s.file.length + data.length < 2 ^ 32) ∧
      (s.file.length + data.length < 2 ^ 32 →
        (s.rotates data = true ↔ s.max_bytes.toNat < s.file.length + data.length)) := by
  have hmax := s.max_bytes.toNat_lt
  have hsum : (UInt32.ofNat s.file.length + UInt32.ofNat data.length).toNat =
      (s.file.length + data.length) % 2 ^ 32 := by
    rw [← UInt32.ofNat_add, UInt32.toNat_ofNat']
  have hrotates : s.rotates data = true ↔ s.max_bytes.toNat < (s.file.length + data.length) % 2 ^ 32 := by
    rw [EspLogStore.rotates, decide_eq_true_iff, UInt32.lt_iff_toNat_lt, hsum]
  rw [hrotates]
  constructor
  · intro hover
    omega
  · intro hfits
    rw [Nat.mod_eq_of_lt hfits]

theorem logFile_append (records : List (LibraryLogRecord × UInt32)) (record : LibraryLogRecord) (seq : UInt32) :
    logFile (records ++ [(record, seq)]) = logFile records ++ encodeRecord record seq := by
  simp [logFile]

theorem base_eq (s : EspLogStore) (data : Bytes) : base s data = s.file ∨ base s data = [] := by
  unfold base
  split
  · exact Or.inr rfl
  · exact Or.inl rfl

/-- What a sound log's record is appended to is a log itself. -/
theorem Sound.base_log {l : LibraryLogger} (hl : l.Sound) (data : Bytes) :
    ∃ kept, base l.store data = logFile kept ∧ (kept.map Prod.snd).Pairwise (· < ·) := by
  rcases base_eq l.store data with hsame | hempty
  · rw [hsame]
    exact hl.whole
  · rw [hempty]
    exact ⟨[], rfl, List.Pairwise.nil⟩

/-- A whole record keeps the limit exactly when the sum of the lengths does not wrap. -/
theorem base_bounded_iff {s : EspLogStore} {data : Bytes} (hfile : s.file.length ≤ s.max_bytes.toNat)
    (hdata : data.length ≤ s.max_bytes.toNat) :
    (base s data ++ data).length ≤ s.max_bytes.toNat ↔ s.file.length + data.length < 2 ^ 32 := by
  obtain ⟨hwraps, hexact⟩ := no_wrap hfile hdata
  have hmax := s.max_bytes.toNat_lt
  rw [List.length_append, base]
  by_cases hover : s.rotates data = true
  · rw [if_pos hover, List.length_nil, Nat.zero_add]
    exact ⟨fun _ => hwraps hover, fun _ => hdata⟩
  · rw [if_neg hover]
    constructor
    · intro hle
      omega
    · intro hfits
      exact Nat.not_lt.mp fun hlt => hover ((hexact hfits).mpr hlt)

theorem bytes_eq_take (a : Appending) (data : Bytes) : ∃ k, a.bytes data = data.take k := by
  cases a with
  | done => exact ⟨data.length, (List.take_length).symm⟩
  | failed written => exact ⟨written, rfl⟩

/-- A sound log stays so when nothing of the record is written, or all of it under a number above those in the
file, with a sum of lengths that does not wrap. -/
theorem log_sound_iff {l : LibraryLogger} {record : LibraryLogRecord} {a : LogAnswers} (hl : l.Sound) :
    (l.log record a).2.Sound ↔ (l.Appends record a →
      a.appended.bytes (encodeRecord record (l.last_sequence + 1)) = [] ∨
        a.appended.bytes (encodeRecord record (l.last_sequence + 1)) = encodeRecord record (l.last_sequence + 1) ∧
        l.store.file.length + (encodeRecord record (l.last_sequence + 1)).length < 2 ^ 32 ∧
        ∀ n ∈ sequences (base l.store (encodeRecord record (l.last_sequence + 1))), n < l.last_sequence + 1) := by
  have hmax := (log_frame l record a).1
  by_cases h : l.Appends record a
  swap
  · constructor
    · intro _ happends
      exact absurd happends h
    · intro _
      exact hl.kept hmax (log_kept h)
  have hfile := log_file h
  obtain ⟨kept, hbase, hpair⟩ := hl.base_log (encodeRecord record (l.last_sequence + 1))
  have hlen := h.2.2.2.2.1
  have hbounded := base_bounded_iff hl.bounded hlen
  have hsequences : sequences (base l.store (encodeRecord record (l.last_sequence + 1))) = kept.map Prod.snd := by
    rw [hbase, sequences_logFile]
  constructor
  · intro hsound _
    obtain ⟨⟨records, hrecords, hpair'⟩, hlimit⟩ := sound_iff.mp hsound
    obtain ⟨k, hk⟩ := bytes_eq_take a.appended (encodeRecord record (l.last_sequence + 1))
    rw [hfile, hk] at hrecords
    by_cases htorn : k < (encodeRecord record (l.last_sequence + 1)).length
    · rw [hbase] at hrecords
      rw [hk, not_torn htorn hrecords]
      exact Or.inl rfl
    · have hall : (encodeRecord record (l.last_sequence + 1)).take k = encodeRecord record (l.last_sequence + 1) :=
        List.take_of_length_le (Nat.not_lt.mp htorn)
      rw [hk, hall]
      rw [hmax, hfile, hk, hall] at hlimit
      rw [hall, hbase, ← logFile_append] at hrecords
      have hsame := congrArg sequences hrecords
      rw [sequences_logFile, sequences_logFile] at hsame
      rw [← hsame, List.map_append, List.pairwise_append] at hpair'
      refine Or.inr ⟨rfl, hbounded.mp hlimit, ?_⟩
      intro n hn
      rw [hsequences] at hn
      exact hpair'.2.2 n hn _ List.mem_cons_self
  · intro hcareful
    rcases hcareful h with hnone | ⟨hall, hfits, hlast⟩
    · rw [hnone, List.append_nil] at hfile
      apply hl.kept hmax
      rw [hfile]
      exact base_eq _ _
    · rw [hall] at hfile
      apply sound_iff.mpr
      rw [hmax, hfile]
      refine ⟨⟨kept ++ [(record, l.last_sequence + 1)], ?_, ?_⟩, hbounded.mpr hfits⟩
      · rw [logFile_append, hbase]
      · rw [List.map_append, List.pairwise_append]
        refine ⟨hpair, List.pairwise_singleton _ _, ?_⟩
        intro n hn m hm
        rw [← hsequences] at hn
        rw [List.mem_singleton.mp hm]
        exact hlast n hn

theorem clear_kept (l : LibraryLogger) (t : Truncation) :
    (l.clear t).2.store.max_bytes = l.store.max_bytes ∧
      ((l.clear t).2.store.file = l.store.file ∨ (l.clear t).2.store.file = []) := by
  have hleft : t.left l.store.file = l.store.file ∨ t.left l.store.file = [] := by
    cases t with
    | done => exact Or.inr rfl
    | failed emptied =>
      cases emptied
      · exact Or.inl rfl
      · exact Or.inr rfl
  unfold clear EspLogStore.clear
  split
  · exact ⟨rfl, Or.inl rfl⟩
  simp only
  split
  · exact ⟨rfl, Or.inl rfl⟩
  cases t with
  | done => exact ⟨rfl, hleft⟩
  | failed emptied => exact ⟨rfl, hleft⟩

theorem reboot_kept (l : LibraryLogger) (begun size_ok : Bool) :
    (l.reboot begun size_ok).store.max_bytes = l.store.max_bytes ∧
      (l.reboot begun size_ok).store.file = l.store.file := by
  cases begun with
  | true => exact ⟨rfl, rfl⟩
  | false => exact ⟨rfl, rfl⟩

end Statement

section Course

/-- What became of the last record that was written whole: its append was acknowledged, or failed all the same,
or the counter began again since. -/
inductive Since where
  | acknowledged
  | refused
  | restarted
  deriving DecidableEq

/-- The course of the numbers: how many appends were acknowledged since the counter began, and the place in that
count at which the last record was written. -/
structure Course where
  acknowledged : ℕ := 0
  place : ℕ := 0
  since : Since := .acknowledged

namespace Course

def restart (c : Course) : Course := { c with acknowledged := 0, since := .restarted }

/-- The record at place `acknowledged + 1` is written whole. -/
def written (c : Course) (a : Appending) : Course where
  acknowledged := if a = .done then c.acknowledged + 1 else c.acknowledged
  place := c.acknowledged + 1
  since := if a = .done then .acknowledged else .refused

/-- The course after an operation on the log. -/
def next (c : Course) (l : LibraryLogger) : Op → Course
  | .log record a =>
    let data := encodeRecord record (l.last_sequence + 1)
    if l.Appends record a ∧ a.appended.bytes data = data then c.written a.appended else c
  | .clear _ => if l.attached then c.restart else c
  | .reboot _ _ => c.restart
  | .setEnabled _ | .setMinLevel _ => c

/-- A record may follow the last one: the append of that one was acknowledged and the count does not come round
to 2³², or the counter has begun again and the count of the last one had come round. -/
def Follows (c : Course) : Prop :=
  match c.since with
  | .acknowledged => (c.acknowledged + 1) % 2 ^ 32 ≠ 0
  | .refused => False
  | .restarted => c.place % 2 ^ 32 = 0

end Course

/-- Nothing of the record is written, or all of it, with a sum of lengths that does not wrap and behind a record
that it may follow. -/
def Careful (x : LibraryLogger × Course) : Op → Prop
  | .log record a =>
    let data := encodeRecord record (x.1.last_sequence + 1)
    x.1.Appends record a → a.appended.bytes data = [] ∨
      a.appended.bytes data = data ∧ x.1.store.file.length + data.length < 2 ^ 32 ∧
        (base x.1.store data = [] ∨ x.2.Follows)
  | _ => True

/-- A step with the course of the numbers. -/
def follow (x : LibraryLogger × Course) (op : Op) : LibraryLogger × Course := (x.1.step op, x.2.next x.1 op)

/-- The counter and the numbers in the file are those of the course. -/
structure Tied (x : LibraryLogger × Course) : Prop where
  counter : x.1.last_sequence = UInt32.ofNat x.2.acknowledged
  last : ∀ n ∈ (sequences x.1.store.file).getLast?, n = UInt32.ofNat x.2.place
  acknowledged : x.2.since = .acknowledged → x.2.place = x.2.acknowledged
  refused : x.2.since = .refused → x.2.place = x.2.acknowledged + 1
  restarted : x.2.since = .restarted → x.2.acknowledged = 0

theorem tied_fresh (max_bytes : UInt32) (attached : Bool) : Tied (fresh max_bytes attached, {}) where
  counter := rfl
  last := by
    intro n hn
    have hempty : sequences (fresh max_bytes attached).store.file = [] := sequences_logFile []
    rw [hempty] at hn
    cases hn
  acknowledged := fun _ => rfl
  refused := fun h => by cases h
  restarted := fun h => by cases h

/-- The next number is above the last one exactly when the record may follow. -/
theorem Tied.lt_iff {x : LibraryLogger × Course} (hx : Tied x) :
    UInt32.ofNat x.2.place < x.1.last_sequence + 1 ↔ x.2.Follows := by
  rw [hx.counter, UInt32.lt_iff_toNat_lt, UInt32.toNat_add, UInt32.toNat_ofNat', UInt32.toNat_ofNat',
    UInt32.toNat_one, Course.Follows]
  have hround : (x.2.acknowledged + 1) % 2 ^ 32 = (x.2.acknowledged % 2 ^ 32 + 1) % 2 ^ 32 :=
    (Nat.mod_add_mod x.2.acknowledged (2 ^ 32) 1).symm
  cases hsince : x.2.since with
  | acknowledged =>
    rw [hx.acknowledged hsince]
    simp only
    omega
  | refused =>
    rw [hx.refused hsince, hround]
    exact iff_of_false (Nat.lt_irrefl _) id
  | restarted =>
    rw [hx.restarted hsince]
    simp only
    omega

theorem logFile_eq_nil {records : List (LibraryLogRecord × UInt32)} (h : logFile records = []) : records = [] := by
  have hnone := sequences_logFile records
  rw [h] at hnone
  have hempty : sequences [] = [] := sequences_logFile []
  rw [hempty] at hnone
  exact List.map_eq_nil_iff.mp hnone.symm

/-- The number of the next record is above those that stay in the file exactly when none stays or it may follow. -/
theorem numbers_below_iff {x : LibraryLogger × Course} (hl : x.1.Sound) (hx : Tied x) (data : Bytes) :
    (∀ n ∈ sequences (base x.1.store data), n < x.1.last_sequence + 1) ↔
      base x.1.store data = [] ∨ x.2.Follows := by
  obtain ⟨kept, hbase, hpair⟩ := hl.base_log data
  have hnumbers : sequences (base x.1.store data) = kept.map Prod.snd := by rw [hbase, sequences_logFile]
  rw [hnumbers]
  rcases List.eq_nil_or_concat kept with rfl | ⟨before, r, hkept⟩
  · exact iff_of_true (fun n hn => by cases hn) (.inl hbase)
  rw [List.concat_eq_append] at hkept
  subst hkept
  have hstays : base x.1.store data ≠ [] := by
    intro hnil
    rw [hbase] at hnil
    exact absurd (logFile_eq_nil hnil) (by simp)
  have hsame : base x.1.store data = x.1.store.file := (base_eq x.1.store data).resolve_right hstays
  have hlast : r.2 = UInt32.ofNat x.2.place := by
    apply hx.last
    rw [← hsame, hnumbers, List.map_append, List.map_cons, List.map_nil, List.getLast?_concat]
    rfl
  rw [← hx.lt_iff, ← hlast]
  rw [List.map_append, List.pairwise_append] at hpair
  constructor
  · intro hall
    exact .inr (hall r.2 (by simp))
  · intro hfollows n hn
    have hlt : r.2 < x.1.last_sequence + 1 := hfollows.resolve_left hstays
    rw [List.map_append, List.mem_append] at hn
    rcases hn with hn | hn
    · exact UInt32.lt_trans (hpair.2.2 n hn r.2 List.mem_cons_self) hlt
    · rw [List.mem_singleton.mp hn]
      exact hlt

theorem step_sound_iff {x : LibraryLogger × Course} {op : Op} (hl : x.1.Sound) (hx : Tied x) :
    (x.1.step op).Sound ↔ Careful x op := by
  have hkept {l' : LibraryLogger} (hmax : l'.store.max_bytes = x.1.store.max_bytes)
      (hfile : l'.store.file = x.1.store.file ∨ l'.store.file = []) : l'.Sound ↔ True :=
    iff_of_true (hl.kept hmax hfile) trivial
  cases op with
  | log record a =>
    have hsound : (x.1.log record a).2.Sound ↔ _ := log_sound_iff hl
    rw [numbers_below_iff hl hx] at hsound
    exact hsound
  | clear t => exact hkept (clear_kept x.1 t).1 (clear_kept x.1 t).2
  | reboot begun size_ok =>
    exact hkept (reboot_kept x.1 begun size_ok).1 (Or.inl (reboot_kept x.1 begun size_ok).2)
  | setEnabled enabled => exact hkept rfl (Or.inl rfl)
  | setMinLevel level => exact hkept rfl (Or.inl rfl)

theorem log_sequence (l : LibraryLogger) (record : LibraryLogRecord) (a : LogAnswers) :
    (l.log record a).2.last_sequence =
      if l.Appends record a ∧ a.appended = .done then l.last_sequence + 1 else l.last_sequence := by
  have hne := (announced_encodeRecord record (l.last_sequence + 1)).nonempty
  have hacknowledged := append_acknowledged (s := l.store) (a := a) hne
  unfold log
  by_cases hclosed : l.enabled = true ∧ l.shouldStore record.level = true ∧ l.attached = true
  swap
  · have hnot : ¬ (l.Appends record a ∧ a.appended = .done) := fun h => hclosed ⟨h.1.1, h.1.2.1, h.1.2.2.1⟩
    rw [if_neg hnot]
    split
    · rfl
    split
    · rfl
    split
    · rfl
    rename_i henabled hlevel hattached
    exact absurd ⟨by simpa using henabled, by simpa using hlevel, by simpa using hattached⟩ hclosed
  obtain ⟨henabled, hlevel, hattached⟩ := hclosed
  simp only [henabled, hlevel, hattached, Bool.not_true, Bool.false_eq_true, if_false]
  by_cases hdone : (l.store.append a (encodeRecord record (l.last_sequence + 1))).1 = true
  · obtain ⟨hreaches, happended⟩ := hacknowledged.mp hdone
    rw [if_pos hdone, if_pos ⟨⟨henabled, hlevel, hattached, hreaches⟩, happended⟩]
  · rw [if_neg hdone, if_neg fun h => hdone (hacknowledged.mpr ⟨h.1.2.2.2, h.2⟩)]

/-- A file that stays or is emptied has no other last record. -/
theorem Tied.last_kept {x : LibraryLogger × Course} (hx : Tied x) {file : Bytes}
    (hfile : file = x.1.store.file ∨ file = []) :
    ∀ n ∈ (sequences file).getLast?, n = UInt32.ofNat x.2.place := by
  rcases hfile with rfl | rfl
  · exact hx.last
  · intro n hn
    have hempty : sequences [] = [] := sequences_logFile []
    rw [hempty] at hn
    cases hn

theorem Tied.restart {x : LibraryLogger × Course} (hx : Tied x) {l' : LibraryLogger}
    (hcounter : l'.last_sequence = 0) (hfile : l'.store.file = x.1.store.file ∨ l'.store.file = []) :
    Tied (l', x.2.restart) where
  counter := hcounter
  last := hx.last_kept hfile
  acknowledged := fun h => by cases h
  refused := fun h => by cases h
  restarted := fun _ => rfl

theorem Tied.kept {x : LibraryLogger × Course} (hx : Tied x) {l' : LibraryLogger}
    (hcounter : l'.last_sequence = x.1.last_sequence)
    (hfile : l'.store.file = x.1.store.file ∨ l'.store.file = []) : Tied (l', x.2) where
  counter := hcounter.trans hx.counter
  last := hx.last_kept hfile
  acknowledged := hx.acknowledged
  refused := hx.refused
  restarted := hx.restarted

/-- The course after a record that is written whole. -/
theorem Tied.written {x : LibraryLogger × Course} (hx : Tied x) {l' : LibraryLogger} (a : Appending)
    (hcounter : l'.last_sequence = if a = .done then x.1.last_sequence + 1 else x.1.last_sequence)
    (hlast : (sequences l'.store.file).getLast? = some (x.1.last_sequence + 1)) :
    Tied (l', x.2.written a) := by
  have hnext : x.1.last_sequence + 1 = UInt32.ofNat (x.2.acknowledged + 1) := by
    rw [hx.counter, UInt32.ofNat_add]
    rfl
  have hplace : ∀ n ∈ (sequences l'.store.file).getLast?, n = UInt32.ofNat (x.2.acknowledged + 1) := by
    intro n hn
    rw [hlast] at hn
    exact (Option.some.inj hn).symm.trans hnext
  by_cases hdone : a = .done
  · rw [if_pos hdone] at hcounter
    simp only [Course.written, hdone, if_true]
    exact ⟨hcounter.trans hnext, hplace, fun _ => rfl, fun h => (by cases h), fun h => (by cases h)⟩
  · rw [if_neg hdone] at hcounter
    simp only [Course.written, hdone, if_false]
    exact ⟨hcounter.trans hx.counter, hplace, fun h => (by cases h), fun _ => rfl, fun h => (by cases h)⟩

theorem Tied.log {x : LibraryLogger × Course} {record : LibraryLogRecord} {a : LogAnswers} (hl : x.1.Sound)
    (hx : Tied x) (hnext : (x.1.log record a).2.Sound) : Tied (follow x (.log record a)) := by
  have hcounter := log_sequence x.1 record a
  by_cases h : x.1.Appends record a
  swap
  · have hsame : x.2.next x.1 (.log record a) = x.2 := if_neg fun hwritten => h hwritten.1
    rw [if_neg fun hdone => h hdone.1] at hcounter
    rw [LibraryLogger.follow, hsame]
    exact hx.kept hcounter (log_kept h)
  have hfile := log_file h
  rcases (log_sound_iff hl).mp hnext h with hnone | ⟨hall, -, -⟩
  · have hne := (announced_encodeRecord record (x.1.last_sequence + 1)).nonempty
    have hfailed : a.appended ≠ .done := by
      intro hdone
      rw [hdone] at hnone
      exact hne hnone
    have hsame : x.2.next x.1 (.log record a) = x.2 := if_neg fun hwritten => hne (hwritten.2.symm.trans hnone)
    rw [if_neg fun hdone => hfailed hdone.2] at hcounter
    rw [hnone, List.append_nil] at hfile
    rw [LibraryLogger.follow, hsame]
    exact hx.kept hcounter (hfile ▸ base_eq x.1.store _)
  · have hwritten : x.2.next x.1 (.log record a) = x.2.written a.appended := if_pos ⟨h, hall⟩
    obtain ⟨kept, hbase, -⟩ := hl.base_log (encodeRecord record (x.1.last_sequence + 1))
    rw [hall, hbase, ← logFile_append] at hfile
    rw [LibraryLogger.follow, hwritten]
    refine hx.written a.appended ?_ ?_
    · rw [show (x.1.step (.log record a)).last_sequence = _ from hcounter]
      simp only [h, true_and]
    · show (sequences (x.1.log record a).2.store.file).getLast? = _
      rw [hfile, sequences_logFile, List.map_append, List.map_cons, List.map_nil, List.getLast?_concat]

theorem Tied.follow {x : LibraryLogger × Course} {op : Op} (hl : x.1.Sound) (hx : Tied x)
    (hnext : (x.1.step op).Sound) : Tied (follow x op) := by
  cases op with
  | log record a => exact hx.log hl hnext
  | clear t =>
    have hfile := (clear_kept x.1 t).2
    by_cases hattached : x.1.attached = true
    · have hnext : x.2.next x.1 (.clear t) = x.2.restart := if_pos hattached
      rw [LibraryLogger.follow, hnext]
      refine hx.restart ?_ hfile
      simp [step, clear, hattached]
    · have hnext : x.2.next x.1 (.clear t) = x.2 := if_neg hattached
      rw [LibraryLogger.follow, hnext]
      refine hx.kept ?_ hfile
      simp [step, clear, hattached]
  | reboot begun size_ok => exact hx.restart rfl (.inl (reboot_kept x.1 begun size_ok).2)
  | setEnabled enabled => exact hx.kept rfl (.inl rfl)
  | setMinLevel level => exact hx.kept rfl (.inl rfl)

theorem foldl_follow_fst (x : LibraryLogger × Course) (ops : List Op) :
    (ops.foldl follow x).1 = ops.foldl step x.1 := by
  induction ops generalizing x with
  | nil => rfl
  | cons op ops ih => exact ih (follow x op)

theorem sound_iff_admitted {x : LibraryLogger × Course} (hl : x.1.Sound) (hx : Tied x) (ops : List Op) :
    (∀ before after, ops = before ++ after → (before.foldl step x.1).Sound) ↔ Admitted follow Careful x ops := by
  have hiff := @safe_iff_admitted _ _ follow Careful (fun x => x.1.Sound) Tied
    (fun x op hl hx => step_sound_iff hl hx) (fun x op hl hx hnext => hx.follow hl hnext) x hl hx ops
  simpa only [foldl_follow_fst] using hiff

/-- In every run the log is sound at every moment exactly when every record is written with care. -/
theorem log_whole_iff_careful (max_bytes : UInt32) (attached : Bool) (ops : List Op) :
    (∀ before after, ops = before ++ after → (before.foldl step (fresh max_bytes attached)).Sound) ↔
      Admitted follow Careful (fresh max_bytes attached, {}) ops :=
  sound_iff_admitted (sound_fresh max_bytes attached) (tied_fresh max_bytes attached) ops

def bootRecord : LibraryLogRecord := ⟨.Info, 1, 2, 1700000000, 40, 3, 4, 5, [0xAA]⟩

def writtenOut : LogAnswers := ⟨true, .done, .done⟩

/-- The numbers start again at each boot, and a record that is cut short stays in the file. -/
theorem numbers_repeat_and_records_tear :
    ¬ ([Op.reboot true true, .log bootRecord writtenOut, .reboot true true, .log bootRecord writtenOut].foldl
        step (fresh 1000 true)).Sound ∧
      ¬ ([Op.reboot true true, .log bootRecord ⟨true, .done, .failed 5⟩].foldl step (fresh 1000 true)).Sound := by
  constructor
  · intro hsound
    obtain ⟨records, hfile, hpair⟩ := hsound.whole
    have hnumbers := sequences_logFile records
    have hrepeated : sequences ([Op.reboot true true, .log bootRecord writtenOut, .reboot true true,
        .log bootRecord writtenOut].foldl step (fresh 1000 true)).store.file = [1, 1] := by decide +kernel
    rw [← hfile, hrepeated] at hnumbers
    rw [← hnumbers] at hpair
    revert hpair
    decide
  · intro hsound
    obtain ⟨records, hfile, -⟩ := hsound.whole
    have hcut := cut_logFile records []
    have htorn : (SizedRecords.cut recordSize ([Op.reboot true true,
        .log bootRecord ⟨true, .done, .failed 5⟩].foldl step (fresh 1000 true)).store.file).2.length = 5 := by
      decide +kernel
    rw [List.append_nil, SizedRecords.cut_nil rfl, ← hfile] at hcut
    rw [hcut] at htorn
    cases htorn

end Course

section Undisturbed

/-- No reboot, no clear that fails, and no append that fails with bytes written. -/
def Undisturbed : Op → Prop
  | .log _ a => a.appended = .done ∨ a.appended = .failed 0
  | .clear t => t = .done
  | .reboot _ _ => False
  | .setEnabled _ | .setMinLevel _ => True

/-- A sound log whose file has no record from before the counter began, after at most `n` appends. -/
structure Calm (n : ℕ) (x : LibraryLogger × Course) : Prop where
  sound : x.1.Sound
  tied : Tied x
  closed : x.1.store.stats.available = false → x.1.store.file = []
  since : x.2.since = .acknowledged ∨ x.1.store.file = []
  counted : x.2.acknowledged ≤ n
  room : x.1.store.max_bytes.toNat + 290 < 2 ^ 32

variable {n : ℕ} {x : LibraryLogger × Course} {op : Op}

theorem Calm.careful (hx : Calm n x) (hn : n + 1 < 2 ^ 32) (hop : Undisturbed op) : Careful x op := by
  cases op with
  | clear t => trivial
  | reboot begun size_ok => trivial
  | setEnabled enabled => trivial
  | setMinLevel level => trivial
  | log record a =>
    intro _
    rcases hop with hdone | hnothing
    · refine .inr ⟨by rw [hdone]; rfl, ?_, ?_⟩
      · have hlen := length_encodeRecord record (x.1.last_sequence + 1)
        have hbounded := hx.sound.bounded
        have hroom := hx.room
        omega
      · rcases hx.since with hsince | hempty
        · right
          have hcounted := hx.counted
          rw [Course.Follows, hsince]
          simp only
          omega
        · left
          rcases base_eq x.1.store (encodeRecord record (x.1.last_sequence + 1)) with hsame | hnil
          · rw [hsame, hempty]
          · exact hnil
    · left
      rw [hnothing]
      rfl

theorem Calm.next_since (hx : Calm n x) (hop : Undisturbed op) :
    ((follow x op).2.since = .acknowledged ∨ (follow x op).1.store.file = []) ∧
      (follow x op).2.acknowledged ≤ n + 1 := by
  have hcounted : x.2.acknowledged ≤ n + 1 := Nat.le_succ_of_le hx.counted
  have hkept {file : Bytes} (hfile : file = x.1.store.file ∨ file = []) :
      x.2.since = .acknowledged ∨ file = [] := by
    rcases hfile with rfl | rfl
    · exact hx.since
    · exact .inr rfl
  cases op with
  | reboot begun size_ok => exact hop.elim
  | setEnabled enabled => exact ⟨hx.since, hcounted⟩
  | setMinLevel level => exact ⟨hx.since, hcounted⟩
  | clear t =>
    obtain rfl : t = .done := hop
    by_cases hattached : x.1.attached = true
    · have hnext : (follow x (.clear .done)).2 = x.2.restart := if_pos hattached
      rw [hnext]
      refine ⟨.inr ?_, Nat.zero_le _⟩
      show (x.1.clear .done).2.store.file = []
      by_cases havailable : x.1.store.stats.available = true
      · simp [clear, EspLogStore.clear, hattached, havailable, Truncation.left]
      · simp [clear, EspLogStore.clear, hattached, havailable, hx.closed (by simpa using havailable)]
    · have hnext : (follow x (.clear .done)).2 = x.2 := if_neg hattached
      rw [hnext]
      exact ⟨hkept (clear_kept x.1 .done).2, hcounted⟩
  | log record a =>
    by_cases hwritten : x.1.Appends record a ∧
        a.appended.bytes (encodeRecord record (x.1.last_sequence + 1)) = encodeRecord record (x.1.last_sequence + 1)
    · have hnext : (follow x (.log record a)).2 = x.2.written a.appended := if_pos hwritten
      have hdone : a.appended = .done := by
        refine hop.resolve_right fun hnothing => ?_
        have hne := (announced_encodeRecord record (x.1.last_sequence + 1)).nonempty
        rw [hnothing] at hwritten
        exact hne (hwritten.2.symm.trans rfl)
      rw [hnext, hdone]
      exact ⟨.inl rfl, Nat.succ_le_succ hx.counted⟩
    · have hnext : (follow x (.log record a)).2 = x.2 := if_neg hwritten
      rw [hnext]
      refine ⟨hkept ?_, hcounted⟩
      by_cases h : x.1.Appends record a
      · have hnothing : a.appended = .failed 0 := by
          refine hop.resolve_left fun hdone => hwritten ⟨h, ?_⟩
          rw [hdone]
          rfl
        have hfile := log_file h
        rw [hnothing, Appending.bytes, List.take_zero, List.append_nil] at hfile
        rw [show (follow x (.log record a)).1.store.file = _ from hfile]
        exact base_eq _ _
      · exact log_kept h

/-- A closed store stays closed, over an empty file. -/
theorem Calm.next_closed (hx : Calm n x) (hop : Undisturbed op)
    (hclosed : (x.1.step op).store.stats.available = false) : (x.1.step op).store.file = [] := by
  have hempty (havailable : x.1.store.stats.available = false) {file : Bytes}
      (hfile : file = x.1.store.file ∨ file = []) : file = [] := by
    rcases hfile with rfl | rfl
    · exact hx.closed havailable
    · rfl
  cases op with
  | reboot begun size_ok => exact hop.elim
  | setEnabled enabled => exact hx.closed hclosed
  | setMinLevel level => exact hx.closed hclosed
  | log record a =>
    have havailable : x.1.store.stats.available = false := (log_frame x.1 record a).2.symm.trans hclosed
    refine hempty havailable (log_kept fun h => ?_)
    rw [h.2.2.2.1] at havailable
    cases havailable
  | clear t =>
    refine hempty ?_ (clear_kept x.1 t).2
    by_contra havailable
    apply havailable
    by_cases hattached : x.1.attached = true
    · cases t <;> simp [step, clear, EspLogStore.clear, hattached, havailable] at hclosed
    · simpa [step, clear, hattached] using hclosed

theorem step_max (l : LibraryLogger) (op : Op) : (l.step op).store.max_bytes = l.store.max_bytes := by
  cases op with
  | log record a => exact (log_frame l record a).1
  | clear t => exact (clear_kept l t).1
  | reboot begun size_ok => exact (reboot_kept l begun size_ok).1
  | setEnabled enabled => rfl
  | setMinLevel level => rfl

theorem Calm.follow (hx : Calm n x) (hn : n + 1 < 2 ^ 32) (hop : Undisturbed op) : Calm (n + 1) (follow x op) := by
  have hsound : (x.1.step op).Sound := (step_sound_iff hx.sound hx.tied).mpr (hx.careful hn hop)
  obtain ⟨hsince, hcounted⟩ := hx.next_since hop
  refine ⟨hsound, hx.tied.follow hx.sound hsound, hx.next_closed hop, hsince, hcounted, ?_⟩
  show (x.1.step op).store.max_bytes.toNat + 290 < 2 ^ 32
  rw [step_max]
  exact hx.room

theorem Calm.admitted (hx : Calm n x) {ops : List Op} (hops : ∀ op ∈ ops, Undisturbed op)
    (hn : n + ops.length < 2 ^ 32 - 1) : Admitted LibraryLogger.follow Careful x ops := by
  induction ops generalizing n x with
  | nil => trivial
  | cons op ops ih =>
    rw [List.length_cons] at hn
    have hop := hops op List.mem_cons_self
    refine ⟨hx.careful (by omega) hop, ih (hx.follow (by omega) hop) ?_ (by omega)⟩
    exact fun later hlater => hops later (List.mem_cons_of_mem op hlater)

/-- After one boot of a new node, fewer than 2³² - 1 operations without a reboot, a failing clear and a failing
append leave the log sound at every moment. -/
theorem undisturbed_runs_sound (max_bytes : UInt32) (attached begun size_ok : Bool) {ops : List Op}
    (hops : ∀ op ∈ ops, Undisturbed op) (hlen : ops.length < 2 ^ 32 - 1) (hroom : max_bytes.toNat + 290 < 2 ^ 32) :
    ∀ before after, .reboot begun size_ok :: ops = before ++ after →
      (before.foldl step (fresh max_bytes attached)).Sound := by
  have hfresh := tied_fresh max_bytes attached
  have hboot : Calm 0 (follow (fresh max_bytes attached, {}) (.reboot begun size_ok)) := by
    have hfile : ((fresh max_bytes attached).step (.reboot begun size_ok)).store.file = [] :=
      (reboot_kept _ begun size_ok).2
    have hsound : ((fresh max_bytes attached).step (.reboot begun size_ok)).Sound :=
      (step_sound_iff (sound_fresh max_bytes attached) hfresh).mpr trivial
    refine ⟨hsound, hfresh.follow (sound_fresh max_bytes attached) hsound, fun _ => hfile, .inr hfile,
      Nat.le_refl 0, ?_⟩
    show ((fresh max_bytes attached).step (.reboot begun size_ok)).store.max_bytes.toNat + 290 < 2 ^ 32
    rw [step_max]
    exact hroom
  have hadmitted : Admitted follow Careful (fresh max_bytes attached, {}) (.reboot begun size_ok :: ops) :=
    ⟨trivial, hboot.admitted hops (by omega)⟩
  exact (sound_iff_admitted (sound_fresh max_bytes attached) hfresh _).mpr hadmitted

end Undisturbed

end LibraryLogger

end EspNowLink
