import EspNowLink.Ota.ArchiveEntries

open Framework

namespace EspNowLink

namespace OtaArchive

section Plans

variable {host : ArchiveHost} {command : ArchiveCommand} {calls : ArchiveCalls} {manifest : Role → Option Bytes}
  {role : Role}

theorem bind_eq_ok {ε α β : Type} {x : Except ε α} {f : α → Except ε β} {b : β} (h : (x >>= f) = .ok b) :
    ∃ a, x = .ok a ∧ f a = .ok b := by
  cases x with
  | error e => cases h
  | ok a => exact ⟨a, rfl, h⟩

theorem refuse_eq_ok {α : Type} {x : Except Bytes α} {a : α} (h : refuse x = .ok a) : x = .ok a := by
  cases x with
  | error e => cases h
  | ok b => exact congrArg Except.ok (Except.ok.inj h)

theorem loadEntries_eq_ok {es : List OtaArchiveEntry} (h : loadEntries host role calls manifest = .ok es) :
    loadArchiveManifest host role calls (manifest role) = .ok es := by
  have hload := refuse_eq_ok h
  cases hx : loadArchiveManifest host role calls (manifest role) with
  | error e =>
    rw [hx] at hload
    cases hload
  | ok es' =>
    rw [hx] at hload
    exact hload

/-- The image that a save command takes, with its metadata. -/
structure SavedImage where
  role : Role
  metadata : FirmwareImageMetadata
  source : Bytes
  size_bytes : UInt32
  crc32 : UInt32
  deriving DecidableEq

def SavedImage.entry (image : SavedImage) (calls : ArchiveCalls) (entries : List OtaArchiveEntry) :
    OtaArchiveEntry :=
  newEntry calls entries image.metadata image.source image.size_bytes image.crc32

def savedImage (host : ArchiveHost) (command : ArchiveCommand) (calls : ArchiveCalls) : Option SavedImage :=
  match command with
  | .saveRunning role => do
    let (size_bytes, crc32) ← calls.dumped.toOption
    return ⟨role, runningMetadata role, ascii "running", size_bytes, crc32⟩
  | .saveStaged _ => do
    let size ← calls.staged.toOption
    let crc32 ← calls.crc.toOption
    let json ← calls.sidecar.toOption
    let metadata ← (loadFirmwareMetadata host json).toOption
    return ⟨roleOf metadata.target_role, metadata, ascii "staged", size, crc32⟩
  | _ => none

/-- An image as the save commands take them. -/
structure SavedImage.Good (image : SavedImage) : Prop where
  usable : Usable image.metadata
  target_role : image.metadata.target_role = roleName image.role
  source : image.source = ascii "running" ∨ image.source = ascii "staged"

theorem savedImage_good {image : SavedImage} (h : savedImage host command calls = some image) : image.Good := by
  cases command with
  | saveRunning role =>
    obtain ⟨⟨size_bytes, crc32⟩, -, himage⟩ := Option.bind_eq_some_iff.mp h
    rw [← Option.some.inj himage]
    exact ⟨usable_running role, rfl, Or.inl rfl⟩
  | saveStaged role =>
    obtain ⟨size, -, h⟩ := Option.bind_eq_some_iff.mp h
    obtain ⟨crc32, -, h⟩ := Option.bind_eq_some_iff.mp h
    obtain ⟨json, -, h⟩ := Option.bind_eq_some_iff.mp h
    obtain ⟨metadata, hmetadata, himage⟩ := Option.bind_eq_some_iff.mp h
    rw [← Option.some.inj himage]
    have husable : Usable metadata := by
      cases hx : loadFirmwareMetadata host json with
      | error e =>
        rw [hx] at hmetadata
        cases hmetadata
      | ok loaded =>
        rw [hx] at hmetadata
        rw [← Option.some.inj hmetadata]
        exact usable_loaded hx
    exact ⟨husable, husable.target_role, Or.inr rfl⟩
  | restore role id => cases h
  | delete role id => cases h
  | clear role => cases h

/-- What a command plans to save: some of the entries it read, or all of them and the new one. -/
def Planned (host : ArchiveHost) (command : ArchiveCommand) (calls : ArchiveCalls) (role : Role)
    (es es' : List OtaArchiveEntry) : Prop :=
  es'.Sublist es ∨ ∃ image, savedImage host command calls = some image ∧ image.role = role ∧
    es' = es ++ [image.entry calls es]

theorem saveRunning_planned {es' : List OtaArchiveEntry} (h : saveRunning host role calls manifest = .ok es') :
    ∃ es, loadArchiveManifest host role calls (manifest role) = .ok es ∧
      Planned host (.saveRunning role) calls role es es' := by
  obtain ⟨_, -, h⟩ := bind_eq_ok h
  obtain ⟨es, hload, h⟩ := bind_eq_ok h
  obtain ⟨⟨size_bytes, crc32⟩, hdumped, h⟩ := bind_eq_ok h
  obtain ⟨_, -, h⟩ := bind_eq_ok h
  have hes : es ++ [newEntry calls es (runningMetadata role) (ascii "running") size_bytes crc32] = es' :=
    Except.ok.inj h
  have himage : savedImage host (.saveRunning role) calls =
      some ⟨role, runningMetadata role, ascii "running", size_bytes, crc32⟩ := by
    rw [savedImage, refuse_eq_ok hdumped]
    rfl
  exact ⟨es, loadEntries_eq_ok hload, Or.inr ⟨_, himage, rfl, hes.symm⟩⟩

theorem saveStaged_planned {asked : Role} {es' : List OtaArchiveEntry}
    (h : saveStaged host asked calls manifest = .ok (role, es')) :
    ∃ es, loadArchiveManifest host role calls (manifest role) = .ok es ∧
      Planned host (.saveStaged asked) calls role es es' := by
  have hsaved : ∀ {size : { size : UInt32 // size ≠ 0 }} {crc32 : UInt32} {json : Bytes}
      {metadata : FirmwareImageMetadata}, calls.staged = .ok size → calls.crc = .ok crc32 →
      calls.sidecar = .ok json → loadFirmwareMetadata host json = .ok metadata →
      savedImage host (.saveStaged asked) calls =
        some ⟨roleOf metadata.target_role, metadata, ascii "staged", size, crc32⟩ := by
    intro size crc32 json metadata hstaged hcrc hsidecar hmetadata
    rw [savedImage, hstaged, hcrc, hsidecar]
    show ((loadFirmwareMetadata host json).toOption >>= _) = _
    rw [hmetadata]
    rfl
  cases host with
  | service local_role =>
    obtain ⟨size, hstaged, h⟩ := bind_eq_ok h
    obtain ⟨json, hsidecar, h⟩ := bind_eq_ok h
    obtain ⟨metadata, hmetadata, h⟩ := bind_eq_ok h
    obtain ⟨es, hload, h⟩ := bind_eq_ok h
    obtain ⟨crc32, hcrc, h⟩ := bind_eq_ok h
    obtain ⟨_, -, h⟩ := bind_eq_ok h
    obtain ⟨rfl, rfl⟩ := Prod.mk.inj (Except.ok.inj h)
    have himage := hsaved (refuse_eq_ok hstaged) (refuse_eq_ok hcrc) (refuse_eq_ok hsidecar)
      (refuse_eq_ok hmetadata)
    exact ⟨es, loadEntries_eq_ok hload, Or.inr ⟨_, himage, rfl, rfl⟩⟩
  | adapter =>
    obtain ⟨size, hstaged, h⟩ := bind_eq_ok h
    obtain ⟨crc32, hcrc, h⟩ := bind_eq_ok h
    obtain ⟨json, hsidecar, h⟩ := bind_eq_ok h
    obtain ⟨metadata, hmetadata, h⟩ := bind_eq_ok h
    split at h
    · cases h
    · rename_i hrole
      obtain ⟨es, hload, h⟩ := bind_eq_ok h
      obtain ⟨_, -, h⟩ := bind_eq_ok h
      obtain ⟨rfl, rfl⟩ := Prod.mk.inj (Except.ok.inj h)
      have himage := hsaved (refuse_eq_ok hstaged) (refuse_eq_ok hcrc) (refuse_eq_ok hsidecar)
        (refuse_eq_ok hmetadata)
      exact ⟨es, loadEntries_eq_ok hload, Or.inr ⟨_, himage, not_not.mp hrole, rfl⟩⟩

theorem findEntry_loaded {word : String} {id : Bytes} {es : List OtaArchiveEntry}
    (h : findEntry host word role id calls manifest = .ok es) :
    loadArchiveManifest host role calls (manifest role) = .ok es := by
  cases host with
  | service local_role =>
    simp only [findEntry] at h
    split at h
    · cases h
    · obtain ⟨es', hload, h⟩ := bind_eq_ok h
      split at h
      · cases h
      · rw [← Except.ok.inj h]
        exact loadEntries_eq_ok hload
  | adapter =>
    simp only [findEntry] at h
    split at h
    · cases h
    · obtain ⟨es', hload, h⟩ := bind_eq_ok h
      split at h
      · cases h
      · split at h
        · cases h
        · rw [← Except.ok.inj h]
          exact loadEntries_eq_ok hload

/-- Every command that saves reads the archive first. -/
theorem planCommand_planned {es' : List OtaArchiveEntry}
    (h : planCommand host command calls manifest = .ok (some (role, es'))) :
    ∃ es, loadArchiveManifest host role calls (manifest role) = .ok es ∧
      Planned host command calls role es es' := by
  obtain ⟨_, -, h⟩ := bind_eq_ok h
  cases command with
  | saveRunning asked =>
    obtain ⟨es, hes, h⟩ := bind_eq_ok h
    obtain ⟨rfl, rfl⟩ := Prod.mk.inj (Option.some.inj (Except.ok.inj h))
    exact saveRunning_planned hes
  | saveStaged asked =>
    obtain ⟨plan, hplan, h⟩ := bind_eq_ok h
    have hsame : plan = (role, es') := Option.some.inj (Except.ok.inj h)
    rw [hsame] at hplan
    exact saveStaged_planned hplan
  | restore asked id =>
    obtain ⟨_, -, h⟩ := bind_eq_ok h
    obtain ⟨_, -, h⟩ := bind_eq_ok h
    cases h
  | delete asked id =>
    obtain ⟨es, hes, h⟩ := bind_eq_ok h
    obtain ⟨_, -, h⟩ := bind_eq_ok h
    obtain ⟨rfl, rfl⟩ := Prod.mk.inj (Option.some.inj (Except.ok.inj h))
    exact ⟨es, findEntry_loaded hes, Or.inl List.eraseP_sublist⟩
  | clear asked =>
    obtain ⟨es, hes, h⟩ := bind_eq_ok h
    obtain ⟨_, -, h⟩ := bind_eq_ok h
    obtain ⟨rfl, rfl⟩ := Prod.mk.inj (Option.some.inj (Except.ok.inj h))
    exact ⟨es, loadEntries_eq_ok hes, Or.inl (List.nil_sublist es)⟩

end Plans

section Held

variable {host : ArchiveHost} {role : Role} {calls : ArchiveCalls} {file : Option Bytes}
  {saved : Option (List OtaArchiveEntry)} {es es' : List OtaArchiveEntry}

/-- A list whose manifest the host reads. -/
structure Held (host : ArchiveHost) (role : Role) (es : List OtaArchiveEntry) : Prop where
  kept : ∀ e ∈ es, Kept role e
  distinct : (es.map (·.id)).Nodup
  room : (manifestJson role es).length ≤ readLimit host

theorem readLimit_bounds (host : ArchiveHost) : 4096 ≤ readLimit host ∧ readLimit host ≤ 16384 := by
  cases host with
  | service local_role => exact ⟨Nat.le_refl 4096, by show 4096 ≤ 16384; decide⟩
  | adapter => exact ⟨by show 4096 ≤ 16384; decide, Nat.le_refl 16384⟩

theorem held_nil (host : ArchiveHost) (role : Role) : Held host role [] where
  kept := by
    intro e he
    cases he
  distinct := List.nodup_nil
  room := by
    have hlimit := (readLimit_bounds host).1
    have hlen : (manifestJson role []).length = 34 := length_manifestJson role []
    omega

theorem Held.sublist (h : Held host role es) (hsub : es'.Sublist es) : Held host role es' where
  kept e he := h.kept e (hsub.subset he)
  distinct := h.distinct.sublist (hsub.map _)
  room := (length_manifestJson_le hsub).trans h.room

/-- The limit leaves no room for as many entries as there are seeds to try. -/
theorem Held.few (h : Held host role es) : es.length < 1025 := by
  have hroom := h.room
  have hlimit := (readLimit_bounds host).2
  have hsum : es.length * 100 ≤ (es.map fun e => (entryJson e).length + 1).sum := by
    have hle : ∀ n ∈ es.map (fun e => (entryJson e).length + 1), 100 ≤ n := by
      intro n hn
      obtain ⟨e, he, rfl⟩ := List.mem_map.mp hn
      have hlen := length_entryJson (h.kept e he).toMade
      rw [entryBytes] at hlen
      omega
    have hcard := List.card_nsmul_le_sum _ 100 hle
    rwa [List.length_map, nsmul_eq_mul, Nat.cast_id] at hcard
  rw [length_manifestJson] at hroom
  omega

/-- The manifest file in a run, and the list of the last save: there is no file yet, a manifest as it
was saved, or one that a failed write cut. -/
inductive Stored (host : ArchiveHost) (role : Role) : Option Bytes → Option (List OtaArchiveEntry) → Prop
  | missing : Stored host role none (some [])
  | whole {es : List OtaArchiveEntry} : Held host role es → Stored host role (some (manifestJson role es)) (some es)
  | cut {es : List OtaArchiveEntry} (k : ℕ) :
    Held host role es → Stored host role (some ((manifestJson role es).take k)) none

/-- The file holds entries that a reader finds. -/
theorem stored_entries (h : Stored host role file saved) :
    ∃ es, archiveObjects (file.getD []).length (file.getD []) = es.map entryJson ∧ Held host role es ∧
      (∀ es', saved = some es' → es = es') ∧ (file.getD []).length ≤ readLimit host := by
  have hcut : ∀ {es : List OtaArchiveEntry} (k : ℕ), Held host role es →
      ∃ j, archiveObjects ((manifestJson role es).take k).length ((manifestJson role es).take k) =
          (es.take j).map entryJson ∧ Held host role (es.take j) ∧
        ((manifestJson role es).length ≤ k → es.take j = es) ∧
        ((manifestJson role es).take k).length ≤ readLimit host := by
    intro es k hes
    obtain ⟨j, hj, hall⟩ := archiveObjects_manifest role es (fun e he => entryJson_closed (hes.kept e he)) k
    refine ⟨j, hj, hes.sublist (List.take_sublist j es), fun hle => List.take_of_length_le (hall hle), ?_⟩
    exact (List.length_take_le' k _).trans hes.room
  cases h with
  | missing =>
    refine ⟨[], rfl, held_nil host role, ?_, Nat.zero_le _⟩
    intro es' hes'
    exact Option.some.inj hes'
  | @whole es hes =>
    obtain ⟨j, hj, hheld, hall, hlen⟩ := hcut (manifestJson role es).length hes
    rw [List.take_length] at hj hlen
    refine ⟨es.take j, hj, hheld, ?_, hlen⟩
    intro es' hes'
    rw [← Option.some.inj hes']
    exact hall (Nat.le_refl _)
  | @cut es k hes =>
    obtain ⟨j, hj, hheld, -, hlen⟩ := hcut k hes
    refine ⟨es.take j, hj, hheld, ?_, hlen⟩
    intro es' hes'
    cases hes'

theorem manifestText_eq_ok {text : Bytes} (h : manifestText host calls file = .ok text) : text = file.getD [] := by
  obtain ⟨_, -, h⟩ := bind_eq_ok h
  simp only at h
  split at h
  · rename_i hnil
    rw [hnil]
    exact (Except.ok.inj h).symm
  · cases host with
    | service local_role =>
      obtain ⟨_, -, h⟩ := bind_eq_ok h
      split at h
      · cases h
      · obtain ⟨_, -, h⟩ := bind_eq_ok h
        exact (Except.ok.inj h).symm
    | adapter =>
      simp only at h
      split at h
      · cases h
      · obtain ⟨_, -, h⟩ := bind_eq_ok h
        exact (Except.ok.inj h).symm

/-- A stored manifest is read as its entries. -/
theorem load_stored (h : Stored host role file saved) :
    ∃ es, archiveObjects (file.getD []).length (file.getD []) = es.map entryJson ∧ Held host role es ∧
      (∀ es', saved = some es' → es = es') ∧
      (∀ calls es', loadArchiveManifest host role calls file = .ok es' → es' = es) ∧
      ∀ calls : ArchiveCalls, calls.stat.ok = true → calls.restat.ok = true → calls.read.ok = true →
        loadArchiveManifest host role calls file = .ok es := by
  obtain ⟨es, hobjects, hheld, hsaved, hlen⟩ := stored_entries h
  have hparse : parseManifest host role (file.getD []) = .ok es := by
    rw [parseManifest, hobjects]
    exact parse_kept hheld.kept
  refine ⟨es, hobjects, hheld, hsaved, ?_, ?_⟩
  · intro calls es' hload
    have hbind : (manifestText host calls file >>= parseManifest host role) = .ok es' := hload
    obtain ⟨text, htext, hes'⟩ := bind_eq_ok hbind
    rw [manifestText_eq_ok htext, hparse] at hes'
    exact (Except.ok.inj hes').symm
  · intro calls hstat hrestat hread
    have hsmall : ¬ (file.getD []).length > readLimit host := Nat.not_lt.mpr hlen
    have htext : manifestText host calls file = .ok (file.getD []) := by
      have hnil : file.getD [] = [] → (Except.ok [] : Except Bytes Bytes) = .ok (file.getD []) := by
        intro h
        rw [h]
      cases host with
      | service local_role =>
        simp only [manifestText, called, hstat, hrestat, hread, if_true, bind, Except.bind, if_neg hsmall,
          pure, Except.pure]
        split
        · exact hnil ‹_›
        · rfl
      | adapter =>
        simp only [manifestText, called, hstat, hread, if_true, bind, Except.bind, if_neg hsmall,
          pure, Except.pure]
        split
        · exact hnil ‹_›
        · rfl
    rw [loadArchiveManifest, htext]
    exact hparse

end Held

section Runs

variable {host : ArchiveHost} {role : Role} {command : ArchiveCommand} {calls : ArchiveCalls}
  {file : Option Bytes} {manifest : Role → Option Bytes} {saved : Role → Option (List OtaArchiveEntry)}

/-- The bytes of the entries in a manifest, a comma behind each. -/
def heldBytes (file : Option Bytes) : ℕ :=
  ((archiveObjects (file.getD []).length (file.getD [])).map fun o => o.length + 1).sum

/-- A new entry does no harm: its texts leave it readable, its image is not empty, and the manifest has
room for it. -/
structure Harmless (host : ArchiveHost) (file : Option Bytes) (e : OtaArchiveEntry) : Prop where
  separable : Separable e
  size_ne : e.size_bytes ≠ 0
  room : 34 + heldBytes file + entryBytes e ≤ readLimit host

/-- A save command takes an image whose entry does no harm, whatever id it gets. -/
def SafeStep (host : ArchiveHost) (command : ArchiveCommand) (calls : ArchiveCalls)
    (manifest : Role → Option Bytes) : Prop :=
  ∀ image, savedImage host command calls = some image →
    ∀ entries, Harmless host (manifest image.role) (image.entry calls entries)

/-- The list of the last save, once a command has written a manifest; a failed write leaves none. -/
def savedAfter (host : ArchiveHost) (command : ArchiveCommand) (calls : ArchiveCalls)
    (manifest : Role → Option Bytes) (saved : Role → Option (List OtaArchiveEntry)) :
    Role → Option (List OtaArchiveEntry) :=
  match planCommand host command calls manifest with
  | .ok (some (role, entries)) =>
    if calls.ensured.ok && calls.truncated.ok then
      Function.update saved role (if calls.written.ok then some entries else none)
    else saved
  | _ => saved

/-- The commands on the archives of a device, with any answers of the storage: the manifests of the two
archives and the lists that were saved last. -/
inductive ArchiveRun (host : ArchiveHost) :
    (Role → Option Bytes) → (Role → Option (List OtaArchiveEntry)) → Prop
  | start : ArchiveRun host (fun _ => none) fun _ => some []
  | step {manifest : Role → Option Bytes} {saved : Role → Option (List OtaArchiveEntry)}
    (command : ArchiveCommand) (calls : ArchiveCalls) : ArchiveRun host manifest saved →
    SafeStep host command calls manifest →
    ArchiveRun host (runCommand host command calls manifest).2 (savedAfter host command calls manifest saved)

theorem made_entry {image : SavedImage} (h : image.Good) (calls : ArchiveCalls) (entries : List OtaArchiveEntry) :
    Made image.role (image.entry calls entries) where
  id := by
    have huniqueId : ∀ n seed, ∃ s, uniqueId entries n seed = archiveFormatId s := by
      intro n
      induction n with
      | zero => exact fun seed => ⟨seed, rfl⟩
      | succ n ih =>
        intro seed
        rw [uniqueId]
        split
        · exact ih (seed + 1)
        · exact ⟨seed, rfl⟩
    exact huniqueId 1024 _
  bin_name := rfl
  meta_name := rfl
  sw_ne := h.usable.sw_ne
  sw_trim := h.usable.sw_trim
  build_ne := h.usable.build_ne
  build_trim := h.usable.build_trim
  target_role := h.target_role
  source := h.source

/-- A planned list is one that the host reads. -/
theorem held_planned {es es' : List OtaArchiveEntry} (hes : Held host role es)
    (hobjects : archiveObjects ((manifest role).getD []).length ((manifest role).getD []) = es.map entryJson)
    (hplan : Planned host command calls role es es') (hsafe : SafeStep host command calls manifest) :
    Held host role es' := by
  rcases hplan with hsub | ⟨image, himage, rfl, rfl⟩
  · exact hes.sublist hsub
  · have hgood := savedImage_good himage
    have hmade := made_entry hgood calls es
    have hharm := hsafe image himage es
    have hkept : Kept image.role (image.entry calls es) :=
      { hmade, hharm.separable with size_ne := hharm.size_ne }
    have hfresh : (image.entry calls es).id ∉ es.map (·.id) := assignUniqueId_fresh calls hes.few
    refine ⟨?_, ?_, ?_⟩
    · intro e he
      rcases List.mem_append.mp he with he | he
      · exact hes.kept e he
      · rw [List.mem_singleton.mp he]
        exact hkept
    · rw [List.map_append, List.map_singleton, List.nodup_append_comm, List.singleton_append, List.nodup_cons]
      exact ⟨hfresh, hes.distinct⟩
    · have hroom := hharm.room
      have hbytes : heldBytes (manifest image.role) = (es.map fun e => (entryJson e).length + 1).sum := by
        rw [heldBytes, hobjects, List.map_map]
        rfl
      rw [length_manifestJson_append, length_entryJson hmade, ← hbytes]
      exact hroom

/-- What one command preserves. -/
theorem stored_step (hstored : ∀ role, Stored host role (manifest role) (saved role))
    (hsafe : SafeStep host command calls manifest) (role : Role) :
    Stored host role ((runCommand host command calls manifest).2 role)
      (savedAfter host command calls manifest saved role) := by
  cases hplan : planCommand host command calls manifest with
  | error refusal =>
    simp only [runCommand, savedAfter, hplan]
    exact hstored role
  | ok plan =>
    cases plan with
    | none =>
      simp only [runCommand, savedAfter, hplan]
      exact hstored role
    | some plan =>
      obtain ⟨asked, entries⟩ := plan
      obtain ⟨es, hload, hplanned⟩ := planCommand_planned hplan
      obtain ⟨es₀, hobjects, hheld, -, hsame, -⟩ := load_stored (hstored asked)
      have hes : es = es₀ := hsame calls es hload
      rw [← hes] at hobjects hheld
      have hheld' := held_planned hheld hobjects hplanned hsafe
      have hself : Function.update manifest asked (manifest asked) = manifest :=
        Function.update_eq_self asked manifest
      simp only [runCommand, savedAfter, hplan, saveArchiveManifest]
      cases hensured : calls.ensured.ok with
      | false => simpa [hself] using hstored role
      | true =>
        cases htruncated : calls.truncated.ok with
        | false => simpa [hself] using hstored role
        | true =>
          by_cases hrole : role = asked
          · subst hrole
            cases hwritten : calls.written.ok with
            | false => simpa using Stored.cut calls.kept hheld'
            | true => simpa using Stored.whole hheld'
          · cases hwritten : calls.written.ok with
            | false => simpa [hrole] using hstored role
            | true => simpa [hrole] using hstored role

theorem stored_run (h : ArchiveRun host manifest saved) (role : Role) :
    Stored host role (manifest role) (saved role) := by
  induction h generalizing role with
  | start => exact .missing
  | step command calls _ hsafe ih => exact stored_step ih hsafe role

/-- In a run of harmless commands every archive loads, with distinct ids, as the list of its last save. -/
theorem archive_loads_as_saved (host : ArchiveHost) (manifest : Role → Option Bytes)
    (saved : Role → Option (List OtaArchiveEntry)) (role : Role) (calls : ArchiveCalls)
    (hrun : ArchiveRun host manifest saved) (hstat : calls.stat.ok = true) (hrestat : calls.restat.ok = true)
    (hread : calls.read.ok = true) :
    ∃ entries, loadArchiveManifest host role calls (manifest role) = .ok entries ∧
      (entries.map (·.id)).Nodup ∧ ∀ es, saved role = some es → entries = es := by
  obtain ⟨es, -, hheld, hsaved, -, hload⟩ := load_stored (stored_run hrun role)
  exact ⟨es, hload calls hstat hrestat hread, hheld.distinct, hsaved⟩

/-- The answers of a storage that works, with a staged image of the given version. -/
def stagedCalls (sw_version : String) : ArchiveCalls where
  begun := .ok ()
  stat := ⟨true, ""⟩
  restat := ⟨true, ""⟩
  read := ⟨true, ""⟩
  dumped := .error []
  staged := .ok ⟨1048576, by decide⟩
  sidecar := .ok (0x7B :: (ascii "\"sw_version\":\"" ++ ascii sw_version ++
    ascii "\",\"build_id\":\"b7\",\"target_role\":\"master\"" ++ [0x7D]))
  crc := .ok 0xDEADBEEF
  copied := .ok ()
  removed := .ok ()
  now := 1700000000
  created_epoch_s := 1700000000
  ensured := ⟨true, ""⟩
  truncated := ⟨true, ""⟩
  written := ⟨true, ""⟩
  kept := 0

/-- Nothing in the entry of such an image hides another of its fields, and a manifest of 2000 bytes has room for it. -/
theorem stagedCalls_safe {sw_version : String} (hsw : sw_version = "1.0" ∨ sw_version = "1.1")
    {manifest : Role → Option Bytes} (hheld : heldBytes (manifest .Master) ≤ 2000) :
    SafeStep (.service .Master) (.saveStaged .Master) (stagedCalls sw_version) manifest := by
  intro image himage entries
  have hknown : savedImage (.service .Master) (.saveStaged .Master) (stagedCalls sw_version) =
      some ⟨.Master, ⟨ascii sw_version, ascii "b7", ascii "master"⟩, ascii "staged", 1048576, 0xDEADBEEF⟩ := by
    rcases hsw with rfl | rfl <;> decide +kernel
  rw [hknown] at himage
  rw [← Option.some.inj himage]
  have hmask : ∀ key ∈ ["target", "source", "size", "crc", "ts"],
      ¬ (LooseValue.text (ascii sw_version)).Masks (ascii key) ∧
        ¬ (LooseValue.text (ascii "b7")).Masks (ascii key) := by
    rcases hsw with rfl | rfl <;> decide
  have hkept : ∀ key ∈ ["target", "source", "size", "crc", "ts"], ∀ p : Prop,
      if (LooseValue.text (ascii sw_version)).Masks (ascii key) then p
      else ¬ (LooseValue.text (ascii "b7")).Masks (ascii key) := by
    intro key hkey p
    rw [if_neg (hmask key hkey).1]
    exact (hmask key hkey).2
  refine ⟨⟨?_, ?_, ?_, ?_, ?_, ?_, ?_⟩, ?_, ?_⟩
  · show 0x7D ∉ ascii sw_version
    rcases hsw with rfl | rfl <;> decide
  · show 0x7D ∉ ascii "b7"
    decide
  · exact fun hmasked => absurd hmasked (hmask "target" (by simp)).1
  · exact hkept "source" (by simp) _
  · exact hkept "size" (by simp) _
  · exact hkept "crc" (by simp) _
  · exact hkept "ts" (by simp) _
  · show (1048576 : UInt32) ≠ 0
    decide
  · show 34 + heldBytes (manifest .Master) + (130 + (escape (ascii sw_version)).length + (escape (ascii "b7")).length +
      (ascii "master").length + (ascii "staged").length + (OtaManager.printDecimal 1048576).length +
      (OtaManager.printDecimal 1700000000).length) ≤ 4096
    have hentry : 130 + (escape (ascii sw_version)).length + (escape (ascii "b7")).length +
        (ascii "master").length + (ascii "staged").length + (OtaManager.printDecimal 1048576).length +
        (OtaManager.printDecimal 1700000000).length ≤ 1000 := by
      rcases hsw with rfl | rfl <;> decide +kernel
    omega

/-- The archive of a master after one save of a staged image. -/
def onceSaved : Role → Option Bytes :=
  (runCommand (.service .Master) (.saveStaged .Master) (stagedCalls "1.0") fun _ => none).2

/-- After two saves it loads as a list of both images, with two ids. -/
theorem saved_archive_loads :
    ∃ entries, loadArchiveManifest (.service .Master) .Master (stagedCalls "1.1")
        ((runCommand (.service .Master) (.saveStaged .Master) (stagedCalls "1.1") onceSaved).2 .Master) =
          .ok entries ∧ (entries.map (·.id)).Nodup ∧
      entries.map (·.sw_version) = [ascii "1.0", ascii "1.1"] := by
  have honce : ArchiveRun (.service .Master) onceSaved
      (savedAfter (.service .Master) (.saveStaged .Master) (stagedCalls "1.0") (fun _ => none) fun _ => some []) :=
    .step (.saveStaged .Master) (stagedCalls "1.0") .start (stagedCalls_safe (.inl rfl) (by decide))
  have htwice := honce.step (.saveStaged .Master) (stagedCalls "1.1")
    (stagedCalls_safe (.inr rfl) (by decide +kernel))
  obtain ⟨entries, hload, hids, hsaved⟩ :=
    archive_loads_as_saved _ _ _ .Master (stagedCalls "1.1") htwice rfl rfl rfl
  have hlast : (savedAfter (.service .Master) (.saveStaged .Master) (stagedCalls "1.1") onceSaved
      (savedAfter (.service .Master) (.saveStaged .Master) (stagedCalls "1.0") (fun _ => none) fun _ => some [])
      .Master).map (List.map (·.sw_version)) = some [ascii "1.0", ascii "1.1"] := by decide +kernel
  obtain ⟨es, hes, hversions⟩ := Option.map_eq_some_iff.mp hlast
  refine ⟨entries, hload, hids, ?_⟩
  rw [hsaved es hes, hversions]

/-- A brace in the version of a staged image: the save succeeds, and the archive never loads again. -/
theorem brace_in_version_unreadable :
    (runCommand (.service .Master) (.saveStaged .Master) (stagedCalls "1.0\x7d") fun _ => none).1 = .ok () ∧
      loadArchiveManifest (.service .Master) .Master (stagedCalls "1.0\x7d")
        ((runCommand (.service .Master) (.saveStaged .Master) (stagedCalls "1.0\x7d") fun _ => none).2 .Master) =
          .error (ascii "manifest entry missing required fields") := by
  decide +kernel

end Runs

end OtaArchive

end EspNowLink
