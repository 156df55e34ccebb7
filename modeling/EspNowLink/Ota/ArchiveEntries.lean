import EspNowLink.Ota.ArchiveReading
import Mathlib.Algebra.Order.BigOperators.Group.List
import Mathlib.Data.List.Nodup
import Mathlib.Data.List.Perm.Subperm

open Framework

namespace EspNowLink

namespace OtaArchive

section Sizes

variable {role : Role} {e : OtaArchiveEntry}

/-- The bytes of an entry in the manifest. -/
def entryBytes (e : OtaArchiveEntry) : ℕ :=
  130 + (escape e.sw_version).length + (escape e.build_id).length + e.target_role.length + e.source.length +
    (OtaManager.printDecimal e.size_bytes).length + (OtaManager.printDecimal e.created_epoch_s).length

theorem escape_plain_length {s : Bytes} (h : ∀ c ∈ s, c ≠ 0x22 ∧ c ≠ 0x5C) : (escape s).length = s.length := by
  rw [escape_letters h]

theorem xdigit_unescaped {s : Bytes} (h : ∀ c ∈ s, isxdigit c = true) : ∀ c ∈ s, c ≠ 0x22 ∧ c ≠ 0x5C := by
  intro c hc
  have hdigit := h c hc
  constructor <;> (rintro rfl; exact absurd hdigit (by decide))

theorem length_entryJson (h : Made role e) : (entryJson e).length = entryBytes e := by
  obtain ⟨seed, hseed⟩ := h.id
  have hhex := xdigit_unescaped (archiveFormatId_digits seed)
  have hname : ∀ suffix : Bytes, (∀ c ∈ suffix, c ≠ 0x22 ∧ c ≠ 0x5C) →
      (escape (e.id ++ suffix)).length = 6 + suffix.length := by
    intro suffix hsuffix
    have hplain : ∀ c ∈ e.id ++ suffix, c ≠ 0x22 ∧ c ≠ 0x5C := by
      intro c hc
      rcases List.mem_append.mp hc with hc | hc
      · exact hhex c (hseed ▸ hc)
      · exact hsuffix c hc
    rw [escape_plain_length hplain, List.length_append, hseed, length_archiveFormatId]
  have hid : (escape e.id).length = 6 := by
    rw [escape_plain_length (hseed ▸ hhex), hseed, length_archiveFormatId]
  have hbin : (escape e.bin_name).length = 10 := by
    rw [h.bin_name]
    exact hname _ (by decide +kernel)
  have hmeta : (escape e.meta_name).length = 10 := by
    rw [h.meta_name]
    exact hname _ (by decide +kernel)
  have htarget : (escape e.target_role).length = e.target_role.length := by
    rw [h.target_role]
    cases role <;> decide
  have hsource : (escape e.source).length = e.source.length := by
    rcases h.source with hs | hs <;> rw [hs] <;> decide
  have hcrc : (escape (OtaManager.printHex e.crc32)).length = 10 := by
    have hplain : ∀ c ∈ OtaManager.printHex e.crc32, c ≠ 0x22 ∧ c ≠ 0x5C := by
      intro c hc
      rcases List.mem_append.mp hc with hc | hc
      · have hstart : ∀ c ∈ ascii "0x", c ≠ 0x22 ∧ c ≠ 0x5C := by decide +kernel
        exact hstart c hc
      · exact xdigit_unescaped (OtaManager.mem_hexDigits e.crc32) c hc
    rw [escape_plain_length hplain, OtaManager.printHex, List.length_append, length_zeroPadded]
    rfl
  have hkeys : (escape (ascii "id")).length = 2 ∧ (escape (ascii "bin")).length = 3 ∧
      (escape (ascii "meta")).length = 4 ∧ (escape (ascii "sw")).length = 2 ∧
      (escape (ascii "build")).length = 5 ∧ (escape (ascii "target")).length = 6 ∧
      (escape (ascii "source")).length = 6 ∧ (escape (ascii "size")).length = 4 ∧
      (escape (ascii "crc")).length = 3 ∧ (escape (ascii "ts")).length = 2 := by decide
  obtain ⟨h1, h2, h3, h4, h5, h6, h7, h8, h9, h10⟩ := hkeys
  rw [entryJson, length_objectText, length_membersText]
  simp only [entryMembers, quoted, bare, LooseValue.written, length_quote, List.map_cons, List.map_nil,
    List.sum_cons, List.sum_nil, h1, h2, h3, h4, h5, h6, h7, h8, h9, h10, hid, hbin, hmeta, htarget, hsource,
    hcrc, entryBytes]
  omega

theorem length_manifestHead (role : Role) : (manifestHead role).length = 31 := by
  cases role <;> decide

theorem length_intercalate (os : List Bytes) :
    (List.intercalate [0x2C] os).length = (os.map fun o => o.length + 1).sum - 1 := by
  cases os with
  | nil => rfl
  | cons o os =>
    have hbehind := congrArg List.length (intercalate_behind o os)
    have hflat : (os.flatMap fun o => 0x2C :: o).length = (os.map fun o => o.length + 1).sum := by
      rw [List.length_flatMap]
      rfl
    rw [List.length_append, List.length_append, behind, List.length_append, hflat] at hbehind
    rw [List.map_cons, List.sum_cons]
    omega

/-- The bytes of a manifest: its objects, each with a comma but the last. -/
theorem length_manifestJson (role : Role) (es : List OtaArchiveEntry) :
    (manifestJson role es).length = 34 + ((es.map fun e => (entryJson e).length + 1).sum - 1) := by
  have hmap : ((es.map entryJson).map fun o => o.length + 1) = es.map fun e => (entryJson e).length + 1 :=
    List.map_map
  rw [manifestJson, List.length_append, List.length_append, length_manifestHead, length_intercalate, hmap]
  have hend : manifestEnd.length = 3 := rfl
  omega

theorem length_manifestJson_le {es es' : List OtaArchiveEntry} (h : es'.Sublist es) :
    (manifestJson role es').length ≤ (manifestJson role es).length := by
  have hsum := (h.map fun e => (entryJson e).length + 1).sum_le_sum fun _ _ => Nat.zero_le _
  rw [length_manifestJson, length_manifestJson]
  omega

theorem length_manifestJson_append (es : List OtaArchiveEntry) (e : OtaArchiveEntry) :
    (manifestJson role (es ++ [e])).length =
      34 + (es.map fun e => (entryJson e).length + 1).sum + (entryJson e).length := by
  rw [length_manifestJson, List.map_append, List.sum_append, List.map_singleton, List.sum_singleton]
  omega

end Sizes

section Ids

/-- An id tells the low 24 bits of its seed. -/
theorem archiveFormatId_inj {s t : UInt32} (h : archiveFormatId s = archiveFormatId t) :
    s.toNat % 2 ^ 24 = t.toNat % 2 ^ 24 := by
  have hlow : ∀ u : UInt32, (u &&& 0xFFFFFF).toNat = u.toNat % 2 ^ 24 := by
    intro u
    rw [UInt32.toNat_and]
    exact Nat.and_two_pow_sub_one_eq_mod u.toNat 24
  have hnumber : ∀ u : UInt32, numberOf xdigitValue 16 (archiveFormatId u) = u.toNat % 2 ^ 24 := by
    intro u
    rw [← hlow]
    apply numberOf_zeroPadded (by decide) (fun d hd => (OtaManager.xdigit_facts d hd).2)
    rw [hlow]
    exact Nat.mod_lt _ (by decide)
  rw [← hnumber, ← hnumber, h]

variable {entries : List OtaArchiveEntry}

/-- If the loop ends with a taken id, all the ids that it tried are taken. -/
theorem uniqueId_taken {n : ℕ} {seed : UInt32} (h : uniqueId entries n seed ∈ entries.map (·.id)) :
    ∀ i ≤ n, archiveFormatId (seed + UInt32.ofNat i) ∈ entries.map (·.id) := by
  induction n generalizing seed with
  | zero =>
    intro i hi
    have hzero : i = 0 := Nat.le_zero.mp hi
    have hseed : seed + UInt32.ofNat 0 = seed := UInt32.add_zero seed
    rw [hzero, hseed]
    exact h
  | succ n ih =>
    rw [uniqueId] at h
    split at h
    · rename_i hany
      intro i hi
      cases i with
      | zero =>
        have hseed : seed + UInt32.ofNat 0 = seed := UInt32.add_zero seed
        rw [hseed]
        obtain ⟨e, he, hid⟩ := List.any_eq_true.mp hany
        exact List.mem_map.mpr ⟨e, he, of_decide_eq_true hid⟩
      | succ i =>
        have hrest := ih h i (Nat.le_of_succ_le_succ hi)
        have hseed : seed + 1 + UInt32.ofNat i = seed + UInt32.ofNat (i + 1) := by
          rw [UInt32.ofNat_add, UInt32.add_assoc, UInt32.add_comm 1]
          rfl
        rwa [hseed] at hrest
    · rename_i hany
      obtain ⟨e, he, hid⟩ := List.mem_map.mp h
      exact absurd (List.any_eq_true.mpr ⟨e, he, decide_eq_true hid⟩) hany

/-- Among 1025 seeds in a row one is free, unless there are as many entries. -/
theorem assignUniqueId_fresh (calls : ArchiveCalls) (hfew : entries.length < 1025) :
    assignUniqueId calls entries ∉ entries.map (·.id) := by
  intro htaken
  have hall := uniqueId_taken htaken
  generalize firstSeed calls.now entries = seed at hall
  have hnodup : ((List.range 1025).map fun i => archiveFormatId (seed + UInt32.ofNat i)).Nodup := by
    apply List.Nodup.map_on _ List.nodup_range
    intro i hi j hj hij
    rw [List.mem_range] at hi hj
    have hlow := archiveFormatId_inj hij
    rw [UInt32.toNat_add, UInt32.toNat_add, UInt32.toNat_ofNat', UInt32.toNat_ofNat'] at hlow
    omega
  have hsubset : ((List.range 1025).map fun i => archiveFormatId (seed + UInt32.ofNat i)) ⊆
      entries.map (·.id) := by
    intro id hid
    obtain ⟨i, hi, rfl⟩ := List.mem_map.mp hid
    exact hall i (Nat.le_of_lt_succ (List.mem_range.mp hi))
  have hlen := (hnodup.subperm hsubset).length_le
  rw [List.length_map, List.length_map, List.length_range] at hlen
  omega

end Ids

section Metadata

variable {host : ArchiveHost} {role : Role}

theorem filled_trim {v s : Bytes} (h : filled (OtaManager.trim s) = some v) :
    v ≠ [] ∧ OtaManager.trim v = v := by
  unfold filled at h
  split at h
  · cases h
  · rename_i hne
    rw [← Option.some.inj h]
    exact ⟨hne, trimmed_trimmed s⟩

/-- A text that is extracted is not empty and has no blanks around it. -/
theorem extract_filled {key json v : Bytes} (h : extractJsonStringField host key json = some v) :
    v ≠ [] ∧ OtaManager.trim v = v := by
  have hquoted : ∀ rest, (unquote rest).bind (fun value => filled (OtaManager.trim value)) = some v →
      v ≠ [] ∧ OtaManager.trim v = v := by
    intro rest hrest
    obtain ⟨s, -, hs⟩ := Option.bind_eq_some_iff.mp hrest
    exact filled_trim hs
  unfold extractJsonStringField at h
  split at h
  · cases h
  · cases h
  · split at h
    · exact hquoted _ h
    · exact filled_trim h
  · split at h
    · exact hquoted _ h
    · cases h

theorem getD_filled {key json : Bytes} (h : (extractJsonStringField host key json).getD [] ≠ []) :
    OtaManager.trim ((extractJsonStringField host key json).getD []) =
      (extractJsonStringField host key json).getD [] := by
  cases hv : extractJsonStringField host key json with
  | none =>
    rw [hv] at h
    exact absurd rfl h
  | some v => exact (extract_filled hv).2

/-- Metadata as the commands take them. -/
structure Usable (metadata : FirmwareImageMetadata) : Prop where
  sw_ne : metadata.sw_version ≠ []
  sw_trim : OtaManager.trim metadata.sw_version = metadata.sw_version
  build_ne : metadata.build_id ≠ []
  build_trim : OtaManager.trim metadata.build_id = metadata.build_id
  target_role : metadata.target_role = roleName (roleOf metadata.target_role)

theorem usable_running (role : Role) : Usable (runningMetadata role) := by
  cases role
  · exact ⟨by decide, by decide, by decide, by decide, by decide⟩
  · exact ⟨by decide, by decide, by decide, by decide, by decide⟩

theorem roleName_roleOf {target : Bytes} (h : ¬ (target ≠ ascii "master" ∧ target ≠ ascii "slave")) :
    target = roleName (roleOf target) := by
  by_cases hslave : target = ascii "slave"
  · rw [roleOf, if_pos hslave]
    exact hslave
  · rw [roleOf, if_neg hslave]
    by_contra hmaster
    exact h ⟨hmaster, hslave⟩

theorem usable_loaded {json : Bytes} {metadata : FirmwareImageMetadata}
    (h : loadFirmwareMetadata host json = .ok metadata) : Usable metadata := by
  have hchecked : ∀ version build target : Bytes,
      (version = (extractJsonStringField host (ascii "sw_version") json).getD []) →
      (build = (extractJsonStringField host (ascii "build_id") json).getD []) →
      version ≠ [] → build ≠ [] → ¬ (target ≠ ascii "master" ∧ target ≠ ascii "slave") →
      Usable ⟨version, build, target⟩ := by
    rintro version build target rfl rfl hversion hbuild htarget
    exact ⟨hversion, getD_filled hversion, hbuild, getD_filled hbuild, roleName_roleOf htarget⟩
  unfold loadFirmwareMetadata at h
  cases host with
  | service local_role =>
    simp only at h
    split_ifs at h with hversion hbuild htarget hlong
    rw [← Except.ok.inj h]
    exact hchecked _ _ _ rfl rfl hversion hbuild htarget
  | adapter =>
    simp only at h
    split_ifs at h with hversion hbuild htarget
    rw [← Except.ok.inj h]
    exact hchecked _ _ _ rfl rfl hversion hbuild htarget

end Metadata

end OtaArchive

end EspNowLink
