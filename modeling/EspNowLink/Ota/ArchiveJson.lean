import EspNowLink.Ota.ArchiveCommands
import EspNowLink.Ota.StatusRoundTrip

open Framework

namespace EspNowLink

namespace OtaArchive

section Members

variable {host : ArchiveHost} {k : Bytes} {ms rest : List LooseMember}

theorem filled_eq {value : Bytes} (h : value ≠ []) : filled value = some value := if_neg h

theorem keyedValue_object (hk : Letters k) (hms : ∀ m ∈ ms, PlainMember m) :
    keyedValue k (objectText ms) =
      (looked k ms).map fun x => (x.1.written ++ membersText x.2).dropWhile isspace := by
  rw [keyedValue, keyedText_object hk hms, Option.map_map]
  rfl

/-- A quoted value is read as its text. -/
theorem extract_text (hk : Letters k) (hms : ∀ m ∈ ms, PlainMember m) {s : Bytes}
    (hlooked : looked k ms = some (.text s, rest)) (hne : s ≠ []) (htrim : OtaManager.trim s = s) :
    extractJsonStringField host k (objectText ms) = some s := by
  have hvalue : keyedValue k (objectText ms) = some (0x22 :: (escape s ++ 0x22 :: membersText rest)) := by
    rw [keyedValue_object hk hms, hlooked, Option.map_some, LooseValue.written, quote_append]
    rfl
  have hread : (unquote (escape s ++ 0x22 :: membersText rest)).bind
      (fun value => filled (OtaManager.trim value)) = some s := by
    rw [unquote_escape, Option.bind_some, htrim, filled_eq hne]
  cases host with
  | service local_role =>
    simp only [extractJsonStringField, hvalue]
    exact hread
  | adapter =>
    simp only [extractJsonStringField, hvalue]
    exact hread

theorem extractU32_text (hk : Letters k) (hms : ∀ m ∈ ms, PlainMember m) {s : Bytes}
    (hlooked : looked k ms = some (.text s, rest)) (hne : s ≠ []) (htrim : OtaManager.trim s = s) :
    extractJsonU32Field host k (objectText ms) = OtaManager.parseU32 s := by
  simp only [extractJsonU32Field, extract_text hk hms hlooked hne htrim, Option.some_or, Option.bind_some]

/-- A digit ends no value and is no quote. -/
theorem digit_solid {d : UInt8} (h : isdigit d = true) :
    rawEnd d = false ∧ isspace d = false ∧ d ≠ 0x22 ∧ d ≠ 0x0A ∧ d ≠ 0x0D := by
  obtain ⟨-, hspace, -, -, hline⟩ := OtaManager.digit_plain h
  have hother : ∀ c : UInt8, isdigit c = false → d ≠ c := by
    rintro c hc rfl
    rw [h] at hc
    cases hc
  have hcomma := hother 0x2C rfl
  have hbrace := hother 0x7D rfl
  have hraw : rawEnd d = false := by simp [rawEnd, hcomma, hbrace]
  exact ⟨hraw, hspace, hother 0x22 rfl, hline, hother 0x0D rfl⟩

theorem digits_taken {stop : UInt8 → Bool} {digits t : Bytes} {c : UInt8}
    (hdigits : ∀ d ∈ digits, stop d = false) (hc : stop c = true) :
    (digits ++ c :: t).takeWhile (fun d => !stop d) = digits := by
  have hall : ∀ d ∈ digits, (!stop d) = true := fun d hd => by rw [hdigits d hd]; rfl
  rw [List.takeWhile_append_of_pos hall, List.takeWhile_cons, hc]
  simp

/-- A number is read where a text without quotes is taken, and where it is not. -/
theorem extractU32_number (hk : Letters k) (hms : ∀ m ∈ ms, PlainMember m) {n : UInt32}
    (hlooked : looked k ms = some (.number (OtaManager.printDecimal n), rest)) :
    extractJsonU32Field host k (objectText ms) = some n := by
  have hdigits : ∀ d ∈ OtaManager.printDecimal n, isdigit d = true := OtaManager.mem_printDecimal n
  have hne : OtaManager.printDecimal n ≠ [] := spelling_ne_nil _
  have htrim : OtaManager.trim (OtaManager.printDecimal n) = OtaManager.printDecimal n :=
    trimmed_of_forall fun d hd => (digit_solid (hdigits d hd)).2.1
  have hparse := OtaManager.parseU32_printDecimal n
  obtain ⟨c, t, hrest, hc⟩ := membersText_head rest
  have hend : rawEnd c = true := by rcases hc with rfl | rfl <;> decide
  have hvalue : keyedValue k (objectText ms) =
      some ((OtaManager.printDecimal n ++ c :: t).dropWhile isspace) := by
    rw [keyedValue_object hk hms, hlooked, Option.map_some, LooseValue.written, hrest]
  generalize OtaManager.printDecimal n = digits at hdigits hne htrim hparse hvalue
  cases digits with
  | nil => exact absurd rfl hne
  | cons d digits =>
    obtain ⟨-, hspace, hquote, -, -⟩ := digit_solid (hdigits d List.mem_cons_self)
    rw [List.cons_append, List.dropWhile_cons, hspace] at hvalue
    cases host with
    | service local_role =>
      have htake : (d :: (digits ++ c :: t)).takeWhile (fun d => !(rawEnd d || d = 0x0A || d = 0x0D)) =
          d :: digits := by
        rw [← List.cons_append]
        apply digits_taken
        · intro e he
          obtain ⟨hraw, -, -, hline, hreturn⟩ := digit_solid (hdigits e he)
          simp [hraw, hline, hreturn]
        · simp [hend]
      have hstring : extractJsonStringField (.service local_role) k (objectText ms) = some (d :: digits) := by
        simp only [extractJsonStringField, hvalue]
        simp only [Bool.false_eq_true, if_false, if_neg hquote, htake, htrim, filled_eq hne]
      simp only [extractJsonU32Field, hstring, Option.some_or, Option.bind_some, hparse]
    | adapter =>
      have htake : (d :: (digits ++ c :: t)).takeWhile (fun d => !(rawEnd d || isspace d)) = d :: digits := by
        rw [← List.cons_append]
        apply digits_taken
        · intro e he
          obtain ⟨hraw, hblank, -⟩ := digit_solid (hdigits e he)
          rw [hraw, hblank]
          rfl
        · rw [hend]
          rfl
      have hstring : extractJsonStringField .adapter k (objectText ms) = none := by
        simp only [extractJsonStringField, hvalue]
        simp only [Bool.false_eq_true, if_false, if_neg hquote]
      have hraw : rawField k (objectText ms) = some (d :: digits) := by
        rw [rawField, hvalue, Option.bind_some]
        simp only [Bool.false_eq_true, if_false, htake, htrim, filled_eq hne]
      simp only [extractJsonU32Field, hstring, Option.none_or, hraw, Option.bind_some, hparse]

end Members

section Entries

/-- An entry as the commands make it. -/
structure Made (role : Role) (e : OtaArchiveEntry) : Prop where
  id : ∃ seed, e.id = archiveFormatId seed
  bin_name : e.bin_name = e.id ++ ascii ".bin"
  meta_name : e.meta_name = e.id ++ ascii ".jsn"
  sw_ne : e.sw_version ≠ []
  sw_trim : OtaManager.trim e.sw_version = e.sw_version
  build_ne : e.build_id ≠ []
  build_trim : OtaManager.trim e.build_id = e.build_id
  target_role : e.target_role = roleName role
  source : e.source = ascii "running" ∨ e.source = ascii "staged"

/-- The number of a key is read: where the version text masks the key, as the build text. -/
def NumberKept (e : OtaArchiveEntry) (key : String) (n : UInt32) : Prop :=
  if (LooseValue.text e.sw_version).Masks (ascii key) then OtaManager.parseU32 e.build_id = some n
  else ¬ (LooseValue.text e.build_id).Masks (ascii key)

/-- The texts of the metadata leave the rest of the entry readable. -/
structure Separable (e : OtaArchiveEntry) : Prop where
  sw_closed : 0x7D ∉ e.sw_version
  build_closed : 0x7D ∉ e.build_id
  target_kept : (LooseValue.text e.sw_version).Masks (ascii "target") → e.build_id.map tolower = e.target_role
  source_kept : if (LooseValue.text e.sw_version).Masks (ascii "source") then e.build_id = e.source
    else ¬ (LooseValue.text e.build_id).Masks (ascii "source")
  size_kept : NumberKept e "size" e.size_bytes
  crc_kept : NumberKept e "crc" e.crc32
  ts_kept : NumberKept e "ts" e.created_epoch_s

def laterMembers (e : OtaArchiveEntry) : List LooseMember :=
  [quoted "target" e.target_role, quoted "source" e.source, bare "size" e.size_bytes,
    quoted "crc" (OtaManager.printHex e.crc32), bare "ts" e.created_epoch_s]

theorem entryMembers_eq (e : OtaArchiveEntry) :
    entryMembers e = quoted "id" e.id :: quoted "bin" e.bin_name :: quoted "meta" e.meta_name ::
      quoted "sw" e.sw_version :: quoted "build" e.build_id :: laterMembers e := rfl

theorem letters_of_key : ∀ key ∈ ["id", "bin", "meta", "sw", "build", "target", "source", "size", "crc", "ts"],
    Letters (ascii key) := by
  have hplain : (["id", "bin", "meta", "sw", "build", "target", "source", "size", "crc", "ts"].all fun key =>
      !(ascii key).isEmpty && (ascii key).all fun c =>
        c != 0x22 && (c != 0x5C && (c != 0x3A && (c != 0x2C && c != 0x7D)))) = true := by decide +kernel
  intro key hkey
  have hthis := List.all_eq_true.mp hplain key hkey
  obtain ⟨hne, hbytes⟩ := Bool.and_eq_true_iff.mp hthis
  refine ⟨by simpa using hne, ?_⟩
  intro c hc
  simpa using List.all_eq_true.mp hbytes c hc

theorem plainMember_quoted {key : String} (hkey : Letters (ascii key)) (value : Bytes) :
    PlainMember (quoted key value) :=
  ⟨hkey, fun _ h => nomatch h⟩

theorem plainMember_bare {key : String} (hkey : Letters (ascii key)) (value : UInt32) :
    PlainMember (bare key value) := by
  refine ⟨hkey, ?_⟩
  rintro digits h c hc
  have hdigits : OtaManager.printDecimal value = digits := LooseValue.number.inj h
  rw [← hdigits] at hc
  have hdigit := OtaManager.mem_printDecimal value c hc
  refine ⟨(digit_solid hdigit).2.2.1, ?_⟩
  rintro rfl
  exact absurd hdigit (by decide)

theorem entryMembers_plain (e : OtaArchiveEntry) : ∀ m ∈ entryMembers e, PlainMember m := by
  have hkey := letters_of_key
  simp only [entryMembers, List.forall_mem_cons, List.not_mem_nil, false_implies, implies_true, and_true]
  exact ⟨plainMember_quoted (hkey _ (by simp)) _, plainMember_quoted (hkey _ (by simp)) _,
    plainMember_quoted (hkey _ (by simp)) _, plainMember_quoted (hkey _ (by simp)) _,
    plainMember_quoted (hkey _ (by simp)) _, plainMember_quoted (hkey _ (by simp)) _,
    plainMember_quoted (hkey _ (by simp)) _, plainMember_bare (hkey _ (by simp)) _,
    plainMember_quoted (hkey _ (by simp)) _, plainMember_bare (hkey _ (by simp)) _⟩

variable {host : ArchiveHost} {role : Role} {e : OtaArchiveEntry}

theorem archiveFormatId_last (seed : UInt32) :
    ∃ d < 16, (archiveFormatId seed).getLast? = some (OtaManager.hexByte d) := by
  refine ⟨(seed &&& 0xFFFFFF).toNat % 16, Nat.mod_lt _ (by decide), ?_⟩
  rw [archiveFormatId, zeroPadded, List.getLast?_append]
  rfl

theorem not_masks_of_last {s k : Bytes} {c : UInt8} (hk : k ≠ []) (hs : s.getLast? = some c)
    (hc : k.getLast? ≠ some c) : ¬ (LooseValue.text s).Masks k := by
  intro h
  rw [getLast?_of_masks hk h] at hs
  exact hc hs

/-- The names of an entry mask no key behind them. -/
theorem looked_names (h : Made role e) {key : String}
    (hkey : key ∈ ["sw", "build", "target", "source", "size", "crc", "ts"]) :
    looked (ascii key) (entryMembers e) =
      looked (ascii key) (quoted "sw" e.sw_version :: quoted "build" e.build_id :: laterMembers e) := by
  have hfacts : ∀ key ∈ ["sw", "build", "target", "source", "size", "crc", "ts"], ascii key ≠ [] ∧
      (∀ d < 16, (ascii key).getLast? ≠ some (OtaManager.hexByte d)) ∧ (ascii key).getLast? ≠ some 0x6E ∧
      ascii "id" ≠ ascii key ∧ ascii "bin" ≠ ascii key ∧ ascii "meta" ≠ ascii key := by decide
  obtain ⟨hne, hhex, hn, hid, hbin, hmeta⟩ := hfacts key hkey
  obtain ⟨seed, hseed⟩ := h.id
  obtain ⟨d, hd, hlast⟩ := archiveFormatId_last seed
  have hend : ∀ suffix ∈ [ascii ".bin", ascii ".jsn"], (e.id ++ suffix).getLast? = some 0x6E := by
    intro suffix hsuffix
    have hs : suffix.getLast? = some 0x6E := by
      rcases List.mem_pair.mp hsuffix with rfl | rfl <;> rfl
    rw [List.getLast?_append, hs]
    rfl
  rw [entryMembers_eq, quoted, looked_skip hid (not_masks_of_last hne (hseed ▸ hlast) (hhex d hd)),
    quoted, looked_skip hbin (not_masks_of_last hne (h.bin_name ▸ hend _ (by simp)) hn), quoted,
    looked_skip hmeta (not_masks_of_last hne (h.meta_name ▸ hend _ (by simp)) hn)]

theorem looked_bin (h : Made role e) :
    ∃ rest, looked (ascii "bin") (entryMembers e) = some (.text e.bin_name, rest) := by
  obtain ⟨seed, hseed⟩ := h.id
  obtain ⟨d, hd, hlast⟩ := archiveFormatId_last seed
  have hhex : ∀ d < 16, (ascii "bin").getLast? ≠ some (OtaManager.hexByte d) := by decide
  rw [entryMembers_eq, quoted, looked_skip (by decide) (not_masks_of_last (by decide) (hseed ▸ hlast) (hhex d hd)),
    quoted, looked_here]
  exact ⟨_, rfl⟩

theorem looked_meta (h : Made role e) :
    ∃ rest, looked (ascii "meta") (entryMembers e) = some (.text e.meta_name, rest) := by
  obtain ⟨seed, hseed⟩ := h.id
  obtain ⟨d, hd, hlast⟩ := archiveFormatId_last seed
  have hhex : ∀ d < 16, (ascii "meta").getLast? ≠ some (OtaManager.hexByte d) := by decide
  have hbin : e.bin_name.getLast? = some 0x6E := by
    rw [h.bin_name, List.getLast?_append]
    rfl
  rw [entryMembers_eq, quoted, looked_skip (by decide) (not_masks_of_last (by decide) (hseed ▸ hlast) (hhex d hd)),
    quoted, looked_skip (by decide) (not_masks_of_last (by decide) hbin (by decide)), quoted, looked_here]
  exact ⟨_, rfl⟩

theorem looked_sw (h : Made role e) :
    ∃ rest, looked (ascii "sw") (entryMembers e) = some (.text e.sw_version, rest) := by
  rw [looked_names h (by simp), quoted, looked_here]
  exact ⟨_, rfl⟩

/-- A version text that masks the key of the build id changes nothing: the build id is what follows. -/
theorem looked_build (h : Made role e) :
    ∃ rest, looked (ascii "build") (entryMembers e) = some (.text e.build_id, rest) := by
  rw [looked_names h (by simp), quoted]
  by_cases hmask : (LooseValue.text e.sw_version).Masks (ascii "build")
  · refine ⟨laterMembers e, ?_⟩
    have hkey : ascii "sw" ≠ ascii "build" := by decide
    rw [looked, if_neg hkey, if_pos hmask]
    rfl
  · rw [looked_skip (by decide) hmask, quoted, looked_here]
    exact ⟨_, rfl⟩

/-- What stands for a key behind the build id. -/
theorem looked_behind (h : Made role e) {key : String}
    (hkey : key ∈ ["target", "source", "size", "crc", "ts"]) :
    looked (ascii key) (entryMembers e) =
      if (LooseValue.text e.sw_version).Masks (ascii key) then some (.text e.build_id, laterMembers e)
      else if (LooseValue.text e.build_id).Masks (ascii key) then
        some (.text e.target_role, (laterMembers e).tail)
      else looked (ascii key) (laterMembers e) := by
  have hfacts : ∀ key ∈ ["target", "source", "size", "crc", "ts"],
      ascii "sw" ≠ ascii key ∧ ascii "build" ≠ ascii key := by decide
  obtain ⟨hsw, hbuild⟩ := hfacts key hkey
  rw [looked_names h (List.mem_cons_of_mem _ (List.mem_cons_of_mem _ hkey)), quoted, looked, if_neg hsw]
  split
  · rfl
  · rw [quoted, looked, if_neg hbuild]
    split
    · rfl
    · rfl

theorem roleName_plain (role : Role) :
    roleName role ≠ [] ∧ OtaManager.trim (roleName role) = roleName role ∧
      (∀ key ∈ ["source", "size", "crc", "ts"], ¬ (LooseValue.text (roleName role)).Masks (ascii key)) ∧
      (roleName role).map tolower = roleName role := by
  cases role <;> decide

theorem source_plain (h : Made role e) :
    e.source ≠ [] ∧ OtaManager.trim e.source = e.source ∧
      ∀ key ∈ ["size", "crc", "ts"], ¬ (LooseValue.text e.source).Masks (ascii key) := by
  rcases h.source with hs | hs <;> rw [hs] <;> decide

theorem looked_source (h : Made role e) :
    ∃ rest, looked (ascii "source") (laterMembers e) = some (.text e.source, rest) := by
  obtain ⟨-, -, hmask, -⟩ := roleName_plain role
  rw [laterMembers, quoted, looked_skip (by decide) (h.target_role ▸ hmask _ (by simp)), quoted, looked_here]
  exact ⟨_, rfl⟩

/-- Target and source mask no number. -/
theorem looked_numbers (h : Made role e) {key : String} (hkey : key ∈ ["size", "crc", "ts"]) :
    looked (ascii key) (laterMembers e) = looked (ascii key)
      [bare "size" e.size_bytes, quoted "crc" (OtaManager.printHex e.crc32), bare "ts" e.created_epoch_s] := by
  obtain ⟨-, -, htarget, -⟩ := roleName_plain role
  obtain ⟨-, -, hsource⟩ := source_plain h
  have hfacts : ∀ key ∈ ["size", "crc", "ts"], ascii "target" ≠ ascii key ∧ ascii "source" ≠ ascii key := by
    decide
  rw [laterMembers, quoted, looked_skip (hfacts key hkey).1
    (h.target_role ▸ htarget key (List.mem_cons_of_mem _ hkey)), quoted,
    looked_skip (hfacts key hkey).2 (hsource key hkey)]

theorem looked_size (h : Made role e) : ∃ rest,
    looked (ascii "size") (laterMembers e) = some (.number (OtaManager.printDecimal e.size_bytes), rest) := by
  rw [looked_numbers h (by simp), bare, looked_here]
  exact ⟨_, rfl⟩

theorem looked_crc (h : Made role e) : ∃ rest,
    looked (ascii "crc") (laterMembers e) = some (.text (OtaManager.printHex e.crc32), rest) := by
  rw [looked_numbers h (by simp), bare, looked_skip (by decide) id, quoted, looked_here]
  exact ⟨_, rfl⟩

theorem printHex_last (n : UInt32) : ∃ d < 16, (OtaManager.printHex n).getLast? = some (OtaManager.hexByte d) := by
  refine ⟨n.toNat % 16, Nat.mod_lt _ (by decide), ?_⟩
  rw [OtaManager.printHex, zeroPadded, List.getLast?_append, List.getLast?_append]
  rfl

theorem looked_ts (h : Made role e) : ∃ rest,
    looked (ascii "ts") (laterMembers e) = some (.number (OtaManager.printDecimal e.created_epoch_s), rest) := by
  obtain ⟨d, hd, hlast⟩ := printHex_last e.crc32
  have hhex : ∀ d < 16, (ascii "ts").getLast? ≠ some (OtaManager.hexByte d) := by decide
  rw [looked_numbers h (by simp), bare, looked_skip (by decide) id, quoted,
    looked_skip (by decide) (not_masks_of_last (by decide) hlast (hhex d hd)), bare, looked_here]
  exact ⟨_, rfl⟩

theorem archiveFormatId_digits (seed : UInt32) :
    ∀ c ∈ archiveFormatId seed, isxdigit c = true :=
  mem_zeroPadded (by decide) (fun d hd => (OtaManager.xdigit_facts d hd).1) 6 _

theorem length_archiveFormatId (seed : UInt32) : (archiveFormatId seed).length = 6 := length_zeroPadded 6 _

/-- The id and the names are written without blanks. -/
theorem names_plain (h : Made role e) :
    (e.id ≠ [] ∧ OtaManager.trim e.id = e.id) ∧ (e.bin_name ≠ [] ∧ OtaManager.trim e.bin_name = e.bin_name) ∧
      (e.meta_name ≠ [] ∧ OtaManager.trim e.meta_name = e.meta_name) := by
  obtain ⟨seed, hseed⟩ := h.id
  have hid : ∀ c ∈ e.id, isspace c = false := by
    intro c hc
    rw [hseed] at hc
    exact (OtaManager.xdigit_plain (archiveFormatId_digits seed c hc)).2.1
  have hne : e.id ≠ [] := by
    intro hnil
    have hlen := length_archiveFormatId seed
    rw [← hseed, hnil] at hlen
    cases hlen
  have hname : ∀ suffix : Bytes, (∀ c ∈ suffix, isspace c = false) →
      e.id ++ suffix ≠ [] ∧ OtaManager.trim (e.id ++ suffix) = e.id ++ suffix := by
    intro suffix hsuffix
    refine ⟨List.append_ne_nil_of_left_ne_nil hne suffix, trimmed_of_forall ?_⟩
    intro c hc
    rcases List.mem_append.mp hc with hc | hc
    · exact hid c hc
    · exact hsuffix c hc
  refine ⟨⟨hne, trimmed_of_forall hid⟩, ?_, ?_⟩
  · rw [h.bin_name]
    exact hname _ (by decide +kernel)
  · rw [h.meta_name]
    exact hname _ (by decide +kernel)

theorem entry_text {key : String} (hkey : Letters (ascii key)) {s : Bytes}
    (hlooked : ∃ rest, looked (ascii key) (entryMembers e) = some (.text s, rest)) (hne : s ≠ [])
    (htrim : OtaManager.trim s = s) : extractJsonStringField host (ascii key) (entryJson e) = some s := by
  obtain ⟨rest, hrest⟩ := hlooked
  exact extract_text hkey (entryMembers_plain e) hrest hne htrim

/-- A number is read behind the build id, whatever its own way of writing is. -/
theorem entry_number (h : Made role e) {key : String} (hkey : key ∈ ["target", "source", "size", "crc", "ts"])
    {n : UInt32} (hkept : NumberKept e key n)
    (hown : looked (ascii key) (entryMembers e) = looked (ascii key) (laterMembers e) →
      extractJsonU32Field host (ascii key) (entryJson e) = some n) :
    extractJsonU32Field host (ascii key) (entryJson e) = some n := by
  have hletters : Letters (ascii key) := letters_of_key key
    (List.mem_cons_of_mem _ (List.mem_cons_of_mem _ (List.mem_cons_of_mem _ (List.mem_cons_of_mem _
      (List.mem_cons_of_mem _ hkey)))))
  have hlooked := looked_behind h hkey
  unfold NumberKept at hkept
  by_cases hmask : (LooseValue.text e.sw_version).Masks (ascii key)
  · rw [if_pos hmask] at hkept hlooked
    rw [entryJson, extractU32_text hletters (entryMembers_plain e) hlooked h.build_ne h.build_trim]
    exact hkept
  · rw [if_neg hmask] at hkept hlooked
    rw [if_neg hkept] at hlooked
    exact hown hlooked

theorem entry_target (host : ArchiveHost) (h : Made role e) (hs : Separable e) :
    ∃ s, extractJsonStringField host (ascii "target") (entryJson e) = some s ∧ s ≠ [] ∧
      OtaManager.trim s = s ∧ s.map tolower = e.target_role := by
  obtain ⟨hne, htrim, -, hlower⟩ := roleName_plain role
  rw [← h.target_role] at hne htrim hlower
  have hmem : "target" ∈ ["target", "source", "size", "crc", "ts"] := by simp
  have hlooked := looked_behind h hmem
  have hletters := letters_of_key "target" (by simp)
  split at hlooked
  · rename_i hmask
    exact ⟨e.build_id, entry_text hletters ⟨_, hlooked⟩ h.build_ne h.build_trim, h.build_ne, h.build_trim,
      hs.target_kept hmask⟩
  · have hrole : ∃ rest, looked (ascii "target") (entryMembers e) = some (.text e.target_role, rest) := by
      split at hlooked
      · exact ⟨_, hlooked⟩
      · exact ⟨_, hlooked⟩
    exact ⟨e.target_role, entry_text hletters hrole hne htrim, hne, htrim, hlower⟩

theorem entry_source (h : Made role e) (hs : Separable e) :
    extractJsonStringField host (ascii "source") (entryJson e) = some e.source := by
  obtain ⟨hne, htrim, -⟩ := source_plain h
  have hletters := letters_of_key "source" (by simp)
  have hmem : "source" ∈ ["target", "source", "size", "crc", "ts"] := by simp
  have hlooked := looked_behind h hmem
  have hkept := hs.source_kept
  split at hkept
  · rename_i hmask
    rw [if_pos hmask, hkept] at hlooked
    exact entry_text hletters ⟨_, hlooked⟩ hne htrim
  · rename_i hmask
    rw [if_neg hmask, if_neg hkept] at hlooked
    obtain ⟨rest, hown⟩ := looked_source h
    exact entry_text hletters ⟨rest, hlooked.trans hown⟩ hne htrim

theorem entry_size (h : Made role e) (hs : Separable e) :
    extractJsonU32Field host (ascii "size") (entryJson e) = some e.size_bytes := by
  apply entry_number h (by simp) hs.size_kept
  intro hsame
  obtain ⟨rest, hown⟩ := looked_size h
  exact extractU32_number (letters_of_key "size" (by simp)) (entryMembers_plain e) (hsame.trans hown)

theorem entry_crc (h : Made role e) (hs : Separable e) :
    extractJsonU32Field host (ascii "crc") (entryJson e) = some e.crc32 := by
  apply entry_number h (by simp) hs.crc_kept
  intro hsame
  obtain ⟨rest, hown⟩ := looked_crc h
  have hne : OtaManager.printHex e.crc32 ≠ [] := List.cons_ne_nil _ _
  have htrim : OtaManager.trim (OtaManager.printHex e.crc32) = OtaManager.printHex e.crc32 :=
    trimmed_of_forall fun c hc => (OtaManager.mem_printHex e.crc32 c hc).1
  rw [← OtaManager.parseU32_printHex e.crc32]
  exact extractU32_text (letters_of_key "crc" (by simp)) (entryMembers_plain e) (hsame.trans hown) hne htrim

theorem entry_ts (h : Made role e) (hs : Separable e) :
    extractJsonU32Field host (ascii "ts") (entryJson e) = some e.created_epoch_s := by
  apply entry_number h (by simp) hs.ts_kept
  intro hsame
  obtain ⟨rest, hown⟩ := looked_ts h
  exact extractU32_number (letters_of_key "ts" (by simp)) (entryMembers_plain e) (hsame.trans hown)

theorem roleMatches_roleName (host : ArchiveHost) (role : Role) : roleMatches host role (roleName role) = true := by
  cases host with
  | service local_role => rfl
  | adapter => cases role <;> decide

/-- A separable entry is read back. -/
theorem parseEntry_entryJson (h : Made role e) (hsize : e.size_bytes ≠ 0) (hs : Separable e) :
    parseEntry host role (entryJson e) = .ok e := by
  obtain ⟨⟨hid, hidTrim⟩, ⟨hbin, hbinTrim⟩, ⟨hmeta, hmetaTrim⟩⟩ := names_plain h
  obtain ⟨target, htarget, htargetNe, htargetTrim, hlower⟩ := entry_target host h hs
  have hsource := (source_plain h).1
  have hfirst : ∃ rest, looked (ascii "id") (entryMembers e) = some (.text e.id, rest) := ⟨_, looked_here _ _⟩
  have hletters := letters_of_key
  have hfields : entryFields host (entryJson e) = some { e with target_role := target } := by
    simp only [entryFields, entry_text (hletters "id" (by simp)) hfirst hid hidTrim,
      entry_text (hletters "bin" (by simp)) (looked_bin h) hbin hbinTrim,
      entry_text (hletters "meta" (by simp)) (looked_meta h) hmeta hmetaTrim,
      entry_text (hletters "sw" (by simp)) (looked_sw h) h.sw_ne h.sw_trim,
      entry_text (hletters "build" (by simp)) (looked_build h) h.build_ne h.build_trim, htarget,
      entry_source h hs, entry_size h hs, entry_crc h hs, entry_ts h hs]
    rfl
  have hnormal : normalizeArchiveTargetRole host target = roleName role := by
    rw [← h.target_role, ← hlower]
    cases host with
    | service local_role => rw [normalizeArchiveTargetRole, htargetTrim]
    | adapter => rfl
  have hknown : ¬ (roleName role ≠ ascii "master" ∧ roleName role ≠ ascii "slave") := by
    cases role <;> decide
  have hfilled : ¬ (e.id = [] ∨ e.bin_name = [] ∨ e.meta_name = [] ∨ e.sw_version = [] ∨ e.build_id = [] ∨
      target = [] ∨ e.source = []) := by
    simp [hid, hbin, hmeta, h.sw_ne, h.build_ne, htargetNe, hsource]
  simp only [parseEntry, hfields]
  rw [if_neg hfilled, if_neg hsize, hnormal, if_neg hknown, roleMatches_roleName, ← h.target_role]
  rfl

end Entries

end OtaArchive

end EspNowLink
