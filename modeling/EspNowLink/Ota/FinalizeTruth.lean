import EspNowLink.Ota.Finalize
import EspNowLink.Ota.SlaveReports

namespace EspNowLink

namespace OtaManager

variable {Files : Type} (b : OtaStorageBackend Files) (d : OtaFolders)

theorem beginReceive_ok_iff (m : OtaManager) (sender : MacAddress)
    (corr_id total_size chunk_size image_crc32 : UInt32) (metadata : FirmwareImageMetadata)
    (env : BeginEnvironment) :
    (m.beginReceive sender corr_id total_size chunk_size image_crc32 metadata env).1 = true ↔
      m.BeginStarts total_size chunk_size env := by
  unfold BeginStarts beginReceive
  generalize m.expireReceiveIfStale env.now_epoch_s = q
  dsimp only
  split
  · rename_i hsize
    simp only [Bool.false_eq_true, false_iff, not_and]
    exact fun h => absurd hsize (not_or.mpr ⟨h.size, h.chunk⟩)
  rename_i hsize
  simp only [not_or] at hsize
  split
  · rename_i hlarge
    simp only [Bool.false_eq_true, false_iff, not_and]
    exact fun h => absurd h.fits (UInt32.not_le.mpr hlarge.2)
  split
  · rename_i hgate
    simp only [Bool.false_eq_true, false_iff, not_and]
    intro h
    rw [h.gate] at hgate
    cases hgate
  rename_i hgate
  split
  · rename_i hfolders
    simp only [Bool.false_eq_true, false_iff, not_and]
    intro h
    simp [h.folders] at hfolders
  rename_i hfolders
  have hready := q.ensurePsramPool_ready env.pool total_size hsize.1
  generalize q.ensurePsramPool env.pool = ready at hready ⊢
  obtain ⟨ready, p⟩ := ready
  dsimp only at hready ⊢
  split
  · rename_i hnot
    simp only [Bool.false_eq_true, false_iff, not_and]
    intro h
    have hyes := (hready.mpr ⟨h.fits, h.pool⟩).1
    simp [hyes] at hnot
  rename_i hyes
  split
  · rename_i hroom
    simp only [Bool.false_eq_true, false_iff, not_and]
    intro h
    have hhas := (hready.mpr ⟨h.fits, h.pool⟩).2
    simp [hhas] at hroom
  rename_i hroom
  obtain ⟨hfits, hpool⟩ := hready.mp ⟨by simpa using hyes, by simpa using hroom⟩
  have haccepted : q.BeginAccepted total_size chunk_size env :=
    ⟨hsize.1, hsize.2, hfits, hgate, by simpa using hfolders, hpool⟩
  unfold openSession
  dsimp only
  cases htemp : env.temp_file <;> simp [haccepted]

theorem storeImage_isSome_iff (m : OtaManager) (pool : Bytes) (total_size : UInt32)
    (manifest : Option Bytes) (files : Files) :
    (m.storeImage b d pool total_size manifest files).1.isSome = true ↔
      StorageTakes b d pool m.receive.expected_size.toNat files := by
  unfold storeImage StorageTakes
  dsimp only
  split
  · rename_i htruncated
    simp only [Bool.not_eq_true'] at htruncated
    simp [htruncated]
  rename_i htruncated
  split
  · rename_i hflushed
    simp only [Bool.not_eq_true'] at hflushed
    simp [hflushed]
  rename_i hflushed
  split
  · rename_i hrenamed
    simp only [Bool.not_eq_true'] at hrenamed
    simp [hrenamed]
  · rename_i hrenamed
    simp only [Bool.not_eq_true, Bool.not_eq_false'] at htruncated hflushed hrenamed
    simp [htruncated, hflushed, hrenamed]

theorem endReceive_isSome_iff (m : OtaManager) (sender : MacAddress)
    (corr_id total_size image_crc32 now_s : UInt32) (manifest : Option Bytes) (files : Files) :
    (m.endReceive b d sender corr_id total_size image_crc32 now_s manifest files).1.isSome = true ↔
      (m.expireReceiveIfStale now_s).EndStores b d sender corr_id total_size image_crc32 files := by
  unfold endReceive
  generalize m.expireReceiveIfStale now_s = q
  dsimp only
  split
  · rename_i hinvalid
    simp only [Option.isSome_none, Bool.false_eq_true, false_iff]
    intro h
    simp [h.session] at hinvalid
  rename_i hvalid
  split
  · rename_i hdeclared
    simp only [Option.isSome_none, Bool.false_eq_true, false_iff]
    exact fun h => hdeclared.elim (fun hs => hs h.accepted.size) (fun hc => hc h.accepted.crc)
  rename_i hdeclared
  simp only [ne_eq, not_or, not_not] at hdeclared
  split
  · rename_i hroom
    simp only [Option.isSome_none, Bool.false_eq_true, false_iff]
    intro h
    simp [h.accepted.room] at hroom
  rename_i hroom
  split
  · rename_i hsizes
    simp only [Option.isSome_none, Bool.false_eq_true, false_iff]
    exact fun h => hsizes.elim (fun hr => hr h.accepted.received) (fun hu => hu h.accepted.unique)
  rename_i hsizes
  simp only [ne_eq, not_or, not_not] at hsizes
  have haccepted : q.EndAccepted total_size image_crc32 :=
    ⟨hdeclared.1, hdeclared.2, by simpa using hroom, hsizes.1, hsizes.2⟩
  split
  · rename_i hcrc
    simp only [Option.isSome_none, Bool.false_eq_true, false_iff]
    exact fun h => hcrc h.crc
  · rename_i hcrc
    rw [storeImage_isSome_iff]
    constructor
    · intro hstorage
      exact ⟨by simpa using hvalid, haccepted, not_not.mp hcrc, hstorage⟩
    · intro h
      exact h.storage

end OtaManager

theorem FirmwareStatusKind.toUInt8_injective : Function.Injective FirmwareStatusKind.toUInt8 := by
  intro x y h
  revert h
  cases x <;> cases y <;> decide

namespace SlaveReception

theorem handleFirmwareBegin_eq (s : SlaveReception) (sender : MacAddress) (corr_id : UInt32)
    (payload : Bytes) (env : BeginEnvironment) :
    s.handleFirmwareBegin sender corr_id payload env =
      match parseFirmwareBegin payload with
      | none => (false, [], s)
      | some (total_size, chunk_size, crc, metadata) =>
        let (ok, sink) := s.sink.beginReceive sender corr_id total_size chunk_size crc metadata env
        (ok, ({ s with sink := sink } : SlaveReception).beginAnswered ok corr_id total_size
          chunk_size) := by
  unfold handleFirmwareBegin
  split
  · rename_i rest
    unfold parseFirmwareBegin
    cases hmeta : parseFirmwareMetadata rest <;> simp only [hmeta, Option.map]
  · rename_i hshort
    have hnone : parseFirmwareBegin payload = none := by
      unfold parseFirmwareBegin
      split
      · exact absurd rfl (hshort _ _ _ _ _ _ _ _ _ _ _ _ _)
      · rfl
    rw [hnone]

/-- An answer to a begin frame reports no failure and clears the finalize report. -/
theorem beginAnswered_frame {s : SlaveReception} (hrole : s.local_role = .Slave) (ok : Bool)
    (corr_id total_size chunk_size : UInt32) :
    (∀ a ∈ (s.beginAnswered ok corr_id total_size chunk_size).1, a.kind ≠ .FinalizeFail) ∧
      (s.beginAnswered ok corr_id total_size chunk_size).2.local_role = .Slave ∧
      (s.beginAnswered ok corr_id total_size chunk_size).2.ota_finalize_pending = false := by
  unfold beginAnswered
  rw [if_neg (by simp [hrole])]
  cases ok
  · exact ⟨by simp, hrole, rfl⟩
  · exact ⟨by simp, hrole, rfl⟩

/-- A refused begin frame over no transfer and no report changes neither. -/
theorem beginAnswered_refused {s : SlaveReception} (hclear : s.clearFinalize.report = s.report)
    (hsize : s.ota_transfer_expected_size = 0) (hacked : s.ota_transfer_last_acked_offset = 0)
    (corr_id total_size chunk_size : UInt32) :
    (s.beginAnswered false corr_id total_size chunk_size).2.tracking = s.tracking ∧
      (s.beginAnswered false corr_id total_size chunk_size).2.report = s.report := by
  unfold beginAnswered
  split
  · exact ⟨rfl, rfl⟩
  · refine ⟨?_, hclear⟩
    simp [tracking, clearFinalize, hsize, hacked]

theorem chunkAccepted_frame (s : SlaveReception) (corr_id : UInt32) :
    (∀ a ∈ (s.chunkAccepted corr_id).1, a.kind ≠ .FinalizeFail) ∧
      (s.chunkAccepted corr_id).2.local_role = s.local_role ∧
      (s.chunkAccepted corr_id).2.report = s.report := by
  unfold chunkAccepted
  dsimp only
  split
  · refine ⟨by simp, ?_, ?_⟩ <;>
    · unfold noteAcked
      split <;> rfl
  · exact ⟨by simp, rfl, rfl⟩

theorem chunkRefused_frame (s : SlaveReception) (corr_id now_ms : UInt32) :
    (∀ a ∈ (s.chunkRefused corr_id now_ms).1, a.kind ≠ .FinalizeFail) ∧
      (s.chunkRefused corr_id now_ms).2.local_role = s.local_role ∧
      (s.chunkRefused corr_id now_ms).2.report = s.report ∧
      (s.chunkRefused corr_id now_ms).2.hung = s.hung := by
  unfold chunkRefused
  dsimp only
  split
  · exact ⟨by simp, rfl, rfl, rfl⟩
  · exact ⟨by simp, rfl, rfl, rfl⟩

/-- A chunk frame leaves the finalize report alone. -/
theorem handleFirmwareChunk_frame (s : SlaveReception) (sender : MacAddress)
    (corr_id offset : UInt32) (chunk : Bytes) (now_s now_ms : UInt32) :
    (∀ a ∈ (s.handleFirmwareChunk sender corr_id offset chunk now_s now_ms).2.1,
        a.kind ≠ .FinalizeFail) ∧
      (s.handleFirmwareChunk sender corr_id offset chunk now_s now_ms).2.2.local_role =
        s.local_role ∧
      (s.handleFirmwareChunk sender corr_id offset chunk now_s now_ms).2.2.report = s.report := by
  unfold handleFirmwareChunk
  split
  · exact ⟨by simp, rfl, rfl⟩
  dsimp only
  split
  · split
    · exact chunkAccepted_frame _ _
    · obtain ⟨hkinds, hrole, hreport, -⟩ := chunkRefused_frame
        { s with sink := (s.sink.writeReceiveChunk sender corr_id offset chunk now_s).2 } corr_id
        now_ms
      exact ⟨hkinds, hrole, hreport⟩
  · exact ⟨by simp, rfl, rfl⟩

/-- Without a session no chunk is taken, so the acknowledgement loop is not entered. -/
theorem handleFirmwareChunk_gone {s : SlaveReception} (hgone : s.sink.receive.active = false)
    (hhung : s.hung = false) (sender : MacAddress) (corr_id offset : UInt32) (chunk : Bytes)
    (now_s now_ms : UInt32) :
    (s.handleFirmwareChunk sender corr_id offset chunk now_s now_ms).2.2.sink.receive.active = false ∧
      (s.handleFirmwareChunk sender corr_id offset chunk now_s now_ms).2.2.hung = false := by
  have hexpired : s.sink.expireReceiveIfStale now_s = s.sink := by
    unfold OtaManager.expireReceiveIfStale
    rw [if_pos (by simp [hgone])]
  have hwrite : s.sink.writeReceiveChunk sender corr_id offset chunk now_s = (false, s.sink) := by
    unfold OtaManager.writeReceiveChunk
    rw [hexpired]
    dsimp only
    rw [if_pos (by simp [OtaManager.validateSession, hgone])]
  unfold handleFirmwareChunk
  rw [if_neg (by simp [hhung]), hwrite]
  dsimp only
  split
  · rw [if_neg (by simp)]
    obtain ⟨hsink, -⟩ := chunkRefused_sink { s with sink := s.sink } corr_id now_ms
    exact ⟨by rw [hsink]; exact hgone, (chunkRefused_frame _ _ _).2.2.2.trans hhung⟩
  · exact ⟨hgone, hhung⟩

/-- The answer to an end frame is one report, and it is the one that is recorded. -/
theorem endAnswered_report {s : SlaveReception} (hrole : s.local_role = .Slave) (ok : Bool)
    (corr_id total_size now_ms : UInt32) :
    ∃ offset code,
      (s.endAnswered ok corr_id total_size now_ms).1 =
        [⟨if ok then .FinalizeOk else .FinalizeFail, corr_id, offset, code⟩] ∧
      (s.endAnswered ok corr_id total_size now_ms).2.report =
        (true, corr_id, offset, code.toUInt16,
          (if ok then FirmwareStatusKind.FinalizeOk else .FinalizeFail).toUInt8, now_ms, now_ms) ∧
      (ok = true → offset = total_size ∧ code = .Ok) := by
  refine ⟨if ok then total_size else s.ota_transfer_last_received_offset,
    if ok then .Ok else if s.sink.status.code = .Ok then .InvalidState else s.sink.status.code,
    ?_, ?_, ?_⟩
  · unfold endAnswered
    rw [if_neg (by simp [hrole])]
  · have hclear : ∀ q : SlaveReception,
        (if q.ota_transfer_corr_id = corr_id then q.clearTransfer else q).report = q.report := by
      intro q
      split <;> rfl
    unfold endAnswered
    rw [if_neg (by simp [hrole])]
    dsimp only
    rw [hclear]
    rfl
  · intro hok
    simp [hok]

theorem endAnswered_frame {s : SlaveReception} (ok : Bool) (corr_id total_size now_ms : UInt32) :
    (s.endAnswered ok corr_id total_size now_ms).2.local_role = s.local_role ∧
      (s.endAnswered ok corr_id total_size now_ms).2.sink = s.sink ∧
      (s.endAnswered ok corr_id total_size now_ms).2.hung = s.hung := by
  have hclear : ∀ q : SlaveReception,
      (if q.ota_transfer_corr_id = corr_id then q.clearTransfer else q).local_role = q.local_role ∧
        (if q.ota_transfer_corr_id = corr_id then q.clearTransfer else q).sink = q.sink ∧
        (if q.ota_transfer_corr_id = corr_id then q.clearTransfer else q).hung = q.hung := by
    intro q
    split <;> exact ⟨rfl, rfl, rfl⟩
  unfold endAnswered
  split
  · exact ⟨rfl, rfl, rfl⟩
  · exact hclear _

end SlaveReception

namespace SlaveManager

variable {Files : Type} (b : OtaStorageBackend Files) (d : OtaFolders)

/-- What an end frame does to a slave that `s'` comes from: the report it sends is the one it keeps,
and it says what the sink answered. -/
structure Finalizes (s' : SlaveManager Files) (ok : Bool) (out : List FirmwareStatus)
    (sender : MacAddress) (corr_id total_size now_ms last_ms : UInt32) : Prop where
  role : s'.local_role = .Slave
  hung : s'.hung = false
  peer : s'.ota_finalize_peer = sender
  stored : ok = true → s'.sink.receive.active = false ∧
    s'.report = (true, corr_id, total_size, OtaStatusCode.Ok.toUInt16,
      FirmwareStatusKind.FinalizeOk.toUInt8, now_ms, last_ms) ∧
    ∀ a ∈ out, a.kind = .FinalizeOk
  refused : ok = false → s'.ota_finalize_corr_id = corr_id ∧ ∀ a ∈ out, a.transfer_corr_id = corr_id

theorem handleFirmwareEnd_finalizes {s : SlaveManager Files} (hrole : s.local_role = .Slave)
    (hhung : s.hung = false) (sender : MacAddress)
    (corr_id total_size crc now_s now_ms : UInt32) (manifest : Option Bytes) (sent : Bool)
    {ok : Bool} {out : List FirmwareStatus} {s' : SlaveManager Files}
    (h : s.handleFirmwareEnd b d sender corr_id total_size crc now_s now_ms manifest sent =
      (ok, out, s')) :
    s'.Finalizes ok out sender corr_id total_size now_ms (if sent then now_ms else 0) ∧
      (ok = true ↔ (s.sink.expireReceiveIfStale now_s).EndStores b d sender corr_id total_size crc
        s.files) := by
  have hiff := OtaManager.endReceive_isSome_iff b d s.sink sender corr_id total_size crc now_s manifest
    s.files
  unfold handleFirmwareEnd SlaveReception.handleFirmwareEnd at h
  rw [if_neg (by simp [hhung])] at h
  generalize hend : s.sink.endReceive b d sender corr_id total_size crc now_s manifest s.files = e
    at h hiff
  obtain ⟨path, sink, files⟩ := e
  dsimp only at h hiff
  have hrole' : ({ s.toSlaveReception with sink := sink } : SlaveReception).local_role = .Slave := hrole
  obtain ⟨offset, code, hout, hreport, hok⟩ :=
    SlaveReception.endAnswered_report hrole' path.isSome corr_id total_size now_ms
  obtain ⟨hroleA, hsinkA, hhungA⟩ := SlaveReception.endAnswered_frame
    (s := { s.toSlaveReception with sink := sink }) path.isSome corr_id total_size now_ms
  generalize ({ s.toSlaveReception with sink := sink } : SlaveReception).endAnswered path.isSome corr_id
    total_size now_ms = answer at h hout hreport hroleA hsinkA hhungA
  obtain ⟨answers, r⟩ := answer
  dsimp only at h hout hreport hroleA hsinkA hhungA
  rw [if_neg (by simp [hrole])] at h
  cases h
  refine ⟨⟨?_, ?_, rfl, ?_, ?_⟩, hiff⟩
  · cases sent
    · exact hroleA.trans hrole
    · exact hroleA.trans hrole
  · cases sent
    · exact hhungA.trans hhung
    · exact hhungA.trans hhung
  · intro hstored
    obtain ⟨rfl, rfl⟩ := hok hstored
    obtain ⟨p, rfl⟩ := Option.isSome_iff_exists.mp hstored
    obtain ⟨-, -, -, -, -, q, -, hstore⟩ := endReceive_some hend
    have hgone := SlaveReception.storeImage_inactive hstore
    refine ⟨?_, ?_, ?_⟩
    · cases sent <;> simp [hsinkA, hgone]
    · simp only [SlaveReception.report, Prod.mk.injEq] at hreport ⊢
      cases sent <;> simp [hreport]
    · simp [hout]
  · intro hrefused
    simp only [SlaveReception.report, Prod.mk.injEq] at hreport
    refine ⟨?_, by simp [hout]⟩
    cases sent <;> simp [hreport]

end SlaveManager

namespace SlaveManager

variable {Files : Type}

/-- The slave is resending the owed report, and has no session that could hang or end. -/
structure Reporting (s : SlaveManager Files) (o : OwedReport) : Prop where
  hung : s.hung = false
  gone : s.sink.receive.active = false
  peer : s.ota_finalize_peer = o.peer
  report : s.report = (true, o.corr_id, o.total_size, OtaStatusCode.Ok.toUInt16,
    FirmwareStatusKind.FinalizeOk.toUInt8, o.since_ms, o.sent_ms.getD 0)

/-- A recorded failure is of a transfer that was not accepted. -/
def FailsUnaccepted (s : SlaveManager Files) (accepted : List UInt32) : Prop :=
  s.ota_finalize_pending = true → s.ota_finalize_kind = FirmwareStatusKind.FinalizeFail.toUInt8 →
    s.ota_finalize_corr_id ∉ accepted

/-- The retry repeats what is recorded. -/
theorem tick_frames (s : SlaveManager Files) (now_ms : UInt32) (paired sent : Bool) :
    ∀ f ∈ (s.tickOtaFinalizeStatusRetry now_ms paired sent).1, s.ota_finalize_pending = true ∧
      f.kind = s.ota_finalize_kind ∧ f.transfer_corr_id = s.ota_finalize_corr_id := by
  unfold tickOtaFinalizeStatusRetry
  split
  · simp
  rename_i hpending
  simp only [not_or, Bool.not_eq_false] at hpending
  split
  · simp
  split
  · simp
  split
  · simp
  · simp [hpending]

theorem Reporting.of_same {s s' : SlaveManager Files} {o : OwedReport} (h : s.Reporting o)
    (hhung : s'.hung = false) (hgone : s'.sink.receive.active = false)
    (hpeer : s'.ota_finalize_peer = s.ota_finalize_peer) (hreport : s'.report = s.report) :
    s'.Reporting o :=
  ⟨hhung, hgone, hpeer.trans h.peer, hreport.trans h.report⟩

theorem FailsUnaccepted.of_same {s s' : SlaveManager Files} {accepted : List UInt32}
    (h : s.FailsUnaccepted accepted) (hreport : s'.report = s.report) :
    s'.FailsUnaccepted accepted := by
  simp only [SlaveReception.report, Prod.mk.injEq] at hreport
  obtain ⟨hpending, hcorr, -, -, hkind, -⟩ := hreport
  unfold FailsUnaccepted
  rw [hpending, hkind, hcorr]
  exact h

theorem FailsUnaccepted.of_quiet {s : SlaveManager Files} {accepted : List UInt32}
    (h : s.ota_finalize_pending = false) : s.FailsUnaccepted accepted := by
  intro hpending
  rw [h] at hpending
  cases hpending

theorem Reporting.failsUnaccepted {s : SlaveManager Files} {o : OwedReport} (h : s.Reporting o)
    (accepted : List UInt32) : s.FailsUnaccepted accepted := by
  intro _ hkind
  have hreport := h.report
  simp only [SlaveReception.report, Prod.mk.injEq] at hreport
  rw [hreport.2.2.2.2.1] at hkind
  exact absurd hkind (by decide)

end SlaveManager

namespace FinalizeRun

variable {Files : Type} (b : OtaStorageBackend Files) (d : OtaFolders)

structure Inv (r : FinalizeRun Files) : Prop where
  role : r.slave.local_role = .Slave
  owed : r.owed = [] ∨ ∃ o, r.owed = [o] ∧ r.slave.Reporting o
  fails : r.slave.FailsUnaccepted r.accepted

/-- What an input has to show: the frames of the step and the state after it. -/
def Keeps (r : FinalizeRun Files) (i : SlaveInput) : Prop := r.Truthful b d i ∧ (r.step b d i).Inv

theorem Inv.hung_owed {r : FinalizeRun Files} (h : r.Inv) (hhung : r.slave.hung = true) :
    r.owed = [] := by
  rcases h.owed with hnone | ⟨o, -, hreporting⟩
  · exact hnone
  · rw [hreporting.hung] at hhung
    cases hhung

theorem no_fail_of_kinds {out : List FirmwareStatus} (hout : ∀ a ∈ out, a.kind ≠ .FinalizeFail)
    (sender : MacAddress) (accepted : List UInt32) :
    ∀ f ∈ out.map (·.frame sender), f.kind = FirmwareStatusKind.FinalizeFail.toUInt8 →
      f.transfer_corr_id ∉ accepted := by
  intro f hf hkind
  obtain ⟨a, ha, rfl⟩ := List.mem_map.mp hf
  exact absurd (FirmwareStatusKind.toUInt8_injective hkind) (hout a ha)

/-- A slave that hangs sends nothing and stays as it is. -/
theorem keeps_hung {r : FinalizeRun Files} (h : r.Inv) (hhung : r.slave.hung = true)
    (i : SlaveInput) : r.Keeps b d i := by
  have hstep : r.slave.step b d i = ([], r.slave) := by
    unfold SlaveManager.step
    rw [if_pos hhung]
  have howed := h.hung_owed hhung
  refine ⟨⟨by simp [hstep], ?_, ?_⟩, ?_⟩
  · cases i <;> simp [Resends, howed]
  · cases i <;> simp [KeepsOnRefusal, hstep]
  · cases i with
    | firmwareEnd sender corr_id total_size crc now_s now_ms manifest sent =>
      have hok : (r.slave.handleFirmwareEnd b d sender corr_id total_size crc now_s now_ms manifest
          sent).1 = false := by
        unfold SlaveManager.handleFirmwareEnd SlaveReception.handleFirmwareEnd
        rw [if_pos hhung]
        dsimp only
        split <;> rfl
      simp only [step, hstep, hok]
      exact ⟨h.role, h.owed, h.fails⟩
    | firmwareStatus sender payload =>
      simp only [step, hstep, howed]
      exact ⟨h.role, .inl rfl, h.fails⟩
    | finalizeTick now_ms paired sent =>
      simp only [step, hstep, howed]
      exact ⟨h.role, .inl rfl, h.fails⟩
    | _ =>
      simp only [step, hstep]
      exact ⟨h.role, h.owed, h.fails⟩

theorem keeps_begin {r : FinalizeRun Files} (h : r.Inv) (hhung : r.slave.hung = false)
    (sender : MacAddress) (corr_id : UInt32) (payload : Bytes) (env : BeginEnvironment)
    (hi : r.Orderly b d (.firmwareBegin sender corr_id payload env)) :
    r.Keeps b d (.firmwareBegin sender corr_id payload env) := by
  have hstep : r.slave.step b d (.firmwareBegin sender corr_id payload env) =
      ((r.slave.toSlaveReception.handleFirmwareBegin sender corr_id payload env).2.1.map
        (·.frame sender), { r.slave with toSlaveReception :=
          (r.slave.toSlaveReception.handleFirmwareBegin sender corr_id payload env).2.2 }) := by
    unfold SlaveManager.step
    rw [if_neg (by simp [hhung])]
  cases hparse : parseFirmwareBegin payload with
  | none =>
    have hnothing : r.slave.toSlaveReception.handleFirmwareBegin sender corr_id payload env =
        (false, [], r.slave.toSlaveReception) := by
      rw [SlaveReception.handleFirmwareBegin_eq, hparse]
    rw [hnothing] at hstep
    refine ⟨⟨by simp [hstep], trivial, ?_⟩, ?_⟩
    · intro _
      rw [hstep]
      exact ⟨rfl, rfl⟩
    · simp only [step, hstep]
      exact ⟨h.role, h.owed, h.fails⟩
  | some fields =>
    obtain ⟨total_size, chunk_size, crc, metadata⟩ := fields
    obtain ⟨hstarts, hrefused⟩ := hi total_size chunk_size crc metadata hparse
    have hiff := r.slave.sink.beginReceive_ok_iff sender corr_id total_size chunk_size crc metadata env
    have hbegin := SlaveReception.handleFirmwareBegin_eq r.slave.toSlaveReception sender corr_id payload
      env
    rw [hparse] at hbegin
    dsimp only at hbegin
    generalize r.slave.sink.beginReceive sender corr_id total_size chunk_size crc metadata env = answer
      at hbegin hiff
    obtain ⟨ok, sink⟩ := answer
    dsimp only at hbegin hiff
    have hrole : ({ r.slave.toSlaveReception with sink := sink } : SlaveReception).local_role = .Slave :=
      h.role
    obtain ⟨hkinds, hrole', hquiet⟩ :=
      SlaveReception.beginAnswered_frame hrole ok corr_id total_size chunk_size
    rw [hbegin] at hstep
    dsimp only at hstep
    have howed : r.owed = [] := by
      cases ok with
      | true => exact hstarts (hiff.mp rfl)
      | false =>
        obtain ⟨hclear, -⟩ := hrefused (mt hiff.mpr (by simp))
        rcases h.owed with hnone | ⟨o, -, hreporting⟩
        · exact hnone
        · have hreport := hreporting.report
          rw [← hclear] at hreport
          cases hreport
    refine ⟨⟨?_, trivial, ?_⟩, ?_⟩
    · rw [hstep]
      exact no_fail_of_kinds hkinds sender r.accepted
    · intro hnot
      rw [hbegin] at hnot
      dsimp only at hnot
      subst hnot
      obtain ⟨hclear, hsize, hacked⟩ := hrefused (mt hiff.mpr (by simp))
      have hreport : r.slave.clearFinalize.report = r.slave.report :=
        congrArg SlaveReception.report hclear
      rw [hstep]
      exact SlaveReception.beginAnswered_refused (s := { r.slave.toSlaveReception with sink := sink })
        hreport hsize hacked corr_id total_size chunk_size
    · simp only [step, hstep]
      exact ⟨hrole', .inl howed, .of_quiet hquiet⟩

theorem keeps_chunk {r : FinalizeRun Files} (h : r.Inv) (hhung : r.slave.hung = false)
    (sender : MacAddress) (corr_id offset : UInt32) (chunk : Bytes) (now_s now_ms : UInt32) :
    r.Keeps b d (.firmwareChunk sender corr_id offset chunk now_s now_ms) := by
  have hstep : r.slave.step b d (.firmwareChunk sender corr_id offset chunk now_s now_ms) =
      ((r.slave.toSlaveReception.handleFirmwareChunk sender corr_id offset chunk now_s now_ms).2.1.map
        (·.frame sender), { r.slave with toSlaveReception :=
          (r.slave.toSlaveReception.handleFirmwareChunk sender corr_id offset chunk now_s now_ms).2.2 })
      := by
    unfold SlaveManager.step
    rw [if_neg (by simp [hhung])]
  obtain ⟨hkinds, hrole, hreport⟩ := SlaveReception.handleFirmwareChunk_frame r.slave.toSlaveReception
    sender corr_id offset chunk now_s now_ms
  refine ⟨⟨?_, trivial, trivial⟩, ?_⟩
  · rw [hstep]
    exact no_fail_of_kinds hkinds sender r.accepted
  · simp only [step, hstep]
    refine ⟨hrole.trans h.role, ?_, h.fails.of_same hreport⟩
    rcases h.owed with hnone | ⟨o, howed, hreporting⟩
    · exact .inl hnone
    · obtain ⟨hgone, hhung'⟩ := SlaveReception.handleFirmwareChunk_gone hreporting.gone hhung sender
        corr_id offset chunk now_s now_ms
      exact .inr ⟨o, howed, hreporting.of_same hhung' hgone rfl hreport⟩

theorem keeps_sinkTick {r : FinalizeRun Files} (h : r.Inv) (hhung : r.slave.hung = false)
    (now_s : UInt32) : r.Keeps b d (.sinkTick now_s) := by
  have hstep : r.slave.step b d (.sinkTick now_s) =
      ([], { r.slave with sink := r.slave.sink.expireReceiveIfStale now_s }) := by
    unfold SlaveManager.step
    rw [if_neg (by simp [hhung])]
  refine ⟨⟨by simp [hstep], trivial, trivial⟩, ?_⟩
  simp only [step, hstep]
  refine ⟨h.role, ?_, h.fails.of_same rfl⟩
  rcases h.owed with hnone | ⟨o, howed, hreporting⟩
  · exact .inl hnone
  · refine .inr ⟨o, howed, hreporting.of_same hhung ?_ rfl rfl⟩
    rcases r.slave.sink.expireReceiveIfStale_cases now_s with hsame | hgone
    · dsimp only
      rw [hsame]
      exact hreporting.gone
    · exact hgone

theorem keeps_end {r : FinalizeRun Files} (h : r.Inv) (hhung : r.slave.hung = false)
    (sender : MacAddress) (corr_id total_size crc now_s now_ms : UInt32) (manifest : Option Bytes)
    (sent : Bool)
    (hi : r.Orderly b d (.firmwareEnd sender corr_id total_size crc now_s now_ms manifest sent)) :
    r.Keeps b d (.firmwareEnd sender corr_id total_size crc now_s now_ms manifest sent) := by
  obtain ⟨howed, hagain⟩ := hi
  have hstep : r.slave.step b d
      (.firmwareEnd sender corr_id total_size crc now_s now_ms manifest sent) =
      ((r.slave.handleFirmwareEnd b d sender corr_id total_size crc now_s now_ms manifest sent).2.1.map
        (·.frame sender),
        (r.slave.handleFirmwareEnd b d sender corr_id total_size crc now_s now_ms manifest sent).2.2)
      := by
    unfold SlaveManager.step
    rw [if_neg (by simp [hhung])]
  generalize hend : r.slave.handleFirmwareEnd b d sender corr_id total_size crc now_s now_ms manifest
    sent = e at hstep
  obtain ⟨ok, out, s'⟩ := e
  obtain ⟨hfinal, hiff⟩ := SlaveManager.handleFirmwareEnd_finalizes b d h.role hhung sender corr_id
    total_size crc now_s now_ms manifest sent hend
  refine ⟨⟨?_, trivial, trivial⟩, ?_⟩
  · rw [hstep]
    cases ok with
    | true =>
      obtain ⟨-, -, hkinds⟩ := hfinal.stored rfl
      refine no_fail_of_kinds (fun a ha => ?_) sender r.accepted
      rw [hkinds a ha]
      simp
    | false =>
      -- a refused end frame is never of a transfer that was accepted
      have hnew : corr_id ∉ r.accepted := fun hmem => absurd (hiff.mpr (hagain hmem)) (by simp)
      intro f hf _
      obtain ⟨a, ha, rfl⟩ := List.mem_map.mp hf
      have hcorr := (hfinal.refused rfl).2 a ha
      simpa only [FirmwareStatus.frame, hcorr] using hnew
  · cases ok with
    | true =>
      obtain ⟨hgone, hreport, -⟩ := hfinal.stored rfl
      have hreporting : s'.Reporting
          ⟨sender, corr_id, total_size, now_ms, if sent then some now_ms else none⟩ := by
        refine ⟨hfinal.hung, hgone, hfinal.peer, ?_⟩
        rw [hreport]
        cases sent <;> rfl
      simp only [step, hstep, hend, if_true, howed]
      exact ⟨hfinal.role, .inr ⟨_, rfl, hreporting⟩, hreporting.failsUnaccepted _⟩
    | false =>
      have hnew : corr_id ∉ r.accepted := fun hmem => absurd (hiff.mpr (hagain hmem)) (by simp)
      simp only [step, hstep, hend, Bool.false_eq_true, if_false]
      refine ⟨hfinal.role, .inl howed, fun _ _ => ?_⟩
      dsimp only
      rw [(hfinal.refused rfl).1]
      exact hnew

theorem keeps_status {r : FinalizeRun Files} (h : r.Inv) (hhung : r.slave.hung = false)
    (sender : MacAddress) (payload : Bytes) : r.Keeps b d (.firmwareStatus sender payload) := by
  have hstep : r.slave.step b d (.firmwareStatus sender payload) =
      ([], r.slave.handleFirmwareStatus sender payload) := by
    unfold SlaveManager.step
    rw [if_neg (by simp [hhung])]
  refine ⟨⟨by simp [hstep], trivial, trivial⟩, ?_⟩
  simp only [step, hstep]
  unfold SlaveManager.handleFirmwareStatus
  cases hparse : parseFirmwareStatusPayload payload with
  | none =>
    have hkept : (r.owed.filter fun o => !o.ackedBy sender payload) = r.owed := by
      simp [OwedReport.ackedBy, hparse]
    dsimp only
    rw [hkept]
    exact ⟨h.role, h.owed, h.fails⟩
  | some fields =>
    obtain ⟨kind, transfer_corr_id, offset, code⟩ := fields
    dsimp only
    split
    · rename_i hack
      obtain ⟨-, hkind, -, hcorr, hpeer⟩ := hack
      refine ⟨h.role, .inl ?_, .of_quiet rfl⟩
      dsimp only
      rcases h.owed with hnone | ⟨o, howed, hreporting⟩
      · simp [hnone]
      · have hreport := hreporting.report
        simp only [SlaveReception.report, Prod.mk.injEq] at hreport
        have hacked : o.ackedBy sender payload = true := by
          simp [OwedReport.ackedBy, hparse, hkind, ← hcorr, ← hreport.2.1, ← hpeer, hreporting.peer]
        simp [howed, hacked]
    · rename_i hnot
      refine ⟨h.role, ?_, h.fails⟩
      rcases h.owed with hnone | ⟨o, howed, hreporting⟩
      · exact .inl (by simp [hnone])
      · refine .inr ⟨o, ?_, hreporting⟩
        have hreport := hreporting.report
        simp only [SlaveReception.report, Prod.mk.injEq] at hreport
        have hunacked : o.ackedBy sender payload = false := by
          rw [Bool.eq_false_iff]
          intro hacked
          simp only [OwedReport.ackedBy, hparse, Bool.and_eq_true, decide_eq_true_eq] at hacked
          obtain ⟨⟨hkind, hcorr⟩, hpeer⟩ := hacked
          exact hnot ⟨h.role, hkind, hreport.1, hreport.2.1.trans hcorr,
            hreporting.peer.trans hpeer⟩
        simp [howed, hunacked]

theorem step_finalizeTick {r : FinalizeRun Files} (hhung : r.slave.hung = false) (now_ms : UInt32)
    (paired sent : Bool) :
    r.slave.step b d (.finalizeTick now_ms paired sent) = r.slave.tickOtaFinalizeStatusRetry now_ms paired sent := by
  unfold SlaveManager.step
  rw [if_neg (by simp [hhung])]

/-- Where no report is owed, the turn can only repeat or drop what is recorded. -/
theorem keeps_tick_unowed {r : FinalizeRun Files} (h : r.Inv) (hhung : r.slave.hung = false)
    (now_ms : UInt32) (paired sent : Bool) (hnone : r.owed = []) :
    r.Keeps b d (.finalizeTick now_ms paired sent) := by
  have hstep := step_finalizeTick b d hhung now_ms paired sent
  refine ⟨⟨?_, by simp [Resends, hnone], trivial⟩, ?_⟩
  · rw [hstep]
    intro f hf hkind
    obtain ⟨hpending, hfkind, hfcorr⟩ := SlaveManager.tick_frames r.slave now_ms paired sent f hf
    rw [hfcorr]
    exact h.fails hpending (hfkind.symm.trans hkind)
  · simp only [step, hstep, hnone]
    unfold SlaveManager.tickOtaFinalizeStatusRetry
    repeat' split
    all_goals first
      | exact ⟨h.role, .inl rfl, h.fails⟩
      | exact ⟨h.role, .inl rfl, .of_quiet rfl⟩

/-- Where the window of the owed report is over, it is so for the code's own measure as well. -/
theorem keeps_tick_over {r : FinalizeRun Files} (h : r.Inv) (hhung : r.slave.hung = false)
    (now_ms : UInt32) (paired sent : Bool) {o : OwedReport} (howed : r.owed = [o])
    (hreporting : r.slave.Reporting o) (hover : o.windowOver now_ms = true) :
    r.Keeps b d (.finalizeTick now_ms paired sent) := by
  have hstep := step_finalizeTick b d hhung now_ms paired sent
  have hreport := hreporting.report
  simp only [SlaveReception.report, Prod.mk.injEq] at hreport
  obtain ⟨hpending, -, -, -, -, hstarted, -⟩ := hreport
  have hactive : ¬ (r.slave.local_role ≠ .Slave ∨ r.slave.ota_finalize_pending = false) := by
    simp [h.role, hpending]
  have hempty : (r.owed.filter fun o => !o.windowOver now_ms) = [] := by simp [howed, hover]
  have hquiet : ∀ f ∈ (r.slave.step b d (.finalizeTick now_ms paired sent)).1, False := by
    rw [hstep]
    unfold SlaveManager.tickOtaFinalizeStatusRetry
    rw [if_neg hactive]
    have hwindow : elapsed now_ms r.slave.ota_finalize_started_ms kFinalizeStatusRetryWindowMs = true
      := by rw [hstarted]; exact hover
    rw [hwindow]
    split <;> simp
  refine ⟨⟨fun f hf => (hquiet f hf).elim, ?_, trivial⟩, ?_⟩
  · intro o' ho' hopen
    rw [howed, List.mem_singleton] at ho'
    rw [ho', hover] at hopen
    cases hopen
  · simp only [step, hstep, hempty]
    unfold SlaveManager.tickOtaFinalizeStatusRetry
    repeat' split
    all_goals first
      | exact ⟨h.role, .inl rfl, h.fails⟩
      | exact ⟨h.role, .inl rfl, .of_quiet rfl⟩

/-- A turn within the window sends the owed report if it is due, and otherwise that or nothing. -/
theorem tick_open {r : FinalizeRun Files} (h : r.Inv) {now_ms : UInt32} {paired sent : Bool}
    (hi : r.Orderly b d (.finalizeTick now_ms paired sent)) {o : OwedReport} (howed : r.owed = [o])
    (hreporting : r.slave.Reporting o) (hover : o.windowOver now_ms = false) :
    (o.due now_ms = true → (r.slave.tickOtaFinalizeStatusRetry now_ms paired sent).1 = [o.frame]) ∧
      (r.slave.tickOtaFinalizeStatusRetry now_ms paired sent = ([], r.slave) ∨
        r.slave.tickOtaFinalizeStatusRetry now_ms paired sent =
          ([o.frame], if sent then { r.slave with ota_finalize_last_tx_ms := now_ms } else r.slave)) := by
  have hreport := hreporting.report
  simp only [SlaveReception.report, Prod.mk.injEq] at hreport
  obtain ⟨hpending, hcorr, hoffset, hcode, hkind, hstarted, hlast⟩ := hreport
  have hactive : ¬ (r.slave.local_role ≠ .Slave ∨ r.slave.ota_finalize_pending = false) := by
    simp [h.role, hpending]
  have hwindow : elapsed now_ms r.slave.ota_finalize_started_ms kFinalizeStatusRetryWindowMs = false
    := by rw [hstarted]; exact hover
  have hframe : (⟨r.slave.ota_finalize_peer, r.slave.ota_finalize_kind, r.slave.ota_finalize_corr_id,
      r.slave.ota_finalize_offset, r.slave.ota_finalize_status_code⟩ : StatusFrame) = o.frame := by
    rw [hcorr, hoffset, hcode, hkind, hreporting.peer]
    rfl
  have hinterval : o.due now_ms = true → paired = true ∧
      elapsed now_ms r.slave.ota_finalize_last_tx_ms kFinalizeStatusRetryIntervalMs = true := by
    intro hdue
    obtain ⟨hpaired, hfirst⟩ := hi o (by simp [howed]) hover hdue
    refine ⟨hpaired, ?_⟩
    rw [hlast]
    cases hsent : o.sent_ms with
    | none => exact hfirst hsent
    | some sent_ms =>
      simp only [OwedReport.due, hsent] at hdue
      exact hdue
  unfold SlaveManager.tickOtaFinalizeStatusRetry
  rw [if_neg hactive, hwindow, hframe]
  constructor
  · intro hdue
    obtain ⟨hpaired, helapsed⟩ := hinterval hdue
    simp [hpaired, helapsed]
  · cases paired
    · exact .inl rfl
    · cases elapsed now_ms r.slave.ota_finalize_last_tx_ms kFinalizeStatusRetryIntervalMs
      · exact .inl rfl
      · exact .inr rfl

/-- A report that was sent again is still the one that is owed. -/
theorem reporting_sent {r : FinalizeRun Files} (hhung : r.slave.hung = false) {o : OwedReport}
    (hreporting : r.slave.Reporting o) (now_ms : UInt32) :
    ({ r.slave with ota_finalize_last_tx_ms := now_ms } : SlaveManager Files).Reporting
      (noteSent [o.frame] now_ms true o) := by
  have hreport := hreporting.report
  simp only [SlaveReception.report, Prod.mk.injEq] at hreport
  obtain ⟨hpending, hcorr, hoffset, hcode, hkind, hstarted, -⟩ := hreport
  refine ⟨hhung, hreporting.gone, ?_, ?_⟩
  · simpa [noteSent] using hreporting.peer
  · simp [noteSent, SlaveReception.report, hpending, hcorr, hoffset, hcode, hkind, hstarted]

theorem keeps_tick_open {r : FinalizeRun Files} (h : r.Inv) (hhung : r.slave.hung = false)
    (now_ms : UInt32) (paired sent : Bool)
    (hi : r.Orderly b d (.finalizeTick now_ms paired sent)) {o : OwedReport} (howed : r.owed = [o])
    (hreporting : r.slave.Reporting o) (hover : o.windowOver now_ms = false) :
    r.Keeps b d (.finalizeTick now_ms paired sent) := by
  have hstep := step_finalizeTick b d hhung now_ms paired sent
  have hopen : (r.owed.filter fun o => !o.windowOver now_ms) = [o] := by simp [howed, hover]
  obtain ⟨hdue, hquiet | hsends⟩ := tick_open b d h hi howed hreporting hover
  · refine ⟨⟨by simp [hstep, hquiet], ?_, trivial⟩, ?_⟩
    · intro o' ho' _ hdue'
      rw [howed, List.mem_singleton] at ho'
      subst ho'
      rw [hstep, hdue hdue']
      exact List.mem_singleton.mpr rfl
    · simp only [step, hstep, hquiet, hopen, List.map_cons, List.map_nil]
      refine ⟨h.role, .inr ⟨_, rfl, ?_⟩, h.fails⟩
      simpa [noteSent] using hreporting
  · refine ⟨⟨?_, ?_, trivial⟩, ?_⟩
    · rw [hstep, hsends]
      intro f hf hfail
      simp only [List.mem_singleton] at hf
      subst hf
      have hkind : FirmwareStatusKind.FinalizeOk = .FinalizeFail :=
        FirmwareStatusKind.toUInt8_injective hfail
      cases hkind
    · intro o' ho' _ _
      rw [howed, List.mem_singleton] at ho'
      subst ho'
      rw [hstep, hsends]
      exact List.mem_singleton.mpr rfl
    · simp only [step, hstep, hsends, hopen, List.map_cons, List.map_nil]
      cases sent with
      | false =>
        refine ⟨h.role, .inr ⟨_, rfl, ?_⟩, h.fails⟩
        simpa [noteSent] using hreporting
      | true =>
        have hnext := reporting_sent hhung hreporting now_ms
        exact ⟨h.role, .inr ⟨_, rfl, hnext⟩, hnext.failsUnaccepted _⟩

theorem keeps_tick {r : FinalizeRun Files} (h : r.Inv) (hhung : r.slave.hung = false)
    (now_ms : UInt32) (paired sent : Bool)
    (hi : r.Orderly b d (.finalizeTick now_ms paired sent)) :
    r.Keeps b d (.finalizeTick now_ms paired sent) := by
  rcases h.owed with hnone | ⟨o, howed, hreporting⟩
  · exact keeps_tick_unowed b d h hhung now_ms paired sent hnone
  · cases hover : o.windowOver now_ms with
    | true => exact keeps_tick_over b d h hhung now_ms paired sent howed hreporting hover
    | false => exact keeps_tick_open b d h hhung now_ms paired sent hi howed hreporting hover

/-- Every orderly input keeps what the slave promises. -/
theorem keeps_step {r : FinalizeRun Files} (h : r.Inv) (i : SlaveInput) (hi : r.Orderly b d i) :
    r.Keeps b d i := by
  cases hhung : r.slave.hung with
  | true => exact keeps_hung b d h hhung i
  | false =>
    cases i with
    | firmwareBegin sender corr_id payload env =>
      exact keeps_begin b d h hhung sender corr_id payload env hi
    | firmwareChunk sender corr_id offset chunk now_s now_ms =>
      exact keeps_chunk b d h hhung sender corr_id offset chunk now_s now_ms
    | firmwareEnd sender corr_id total_size crc now_s now_ms manifest sent =>
      exact keeps_end b d h hhung sender corr_id total_size crc now_s now_ms manifest sent hi
    | firmwareStatus sender payload => exact keeps_status b d h hhung sender payload
    | finalizeTick now_ms paired sent => exact keeps_tick b d h hhung now_ms paired sent hi
    | sinkTick now_s => exact keeps_sinkTick b d h hhung now_s

/-- In a run of orderly inputs the slave tells the truth about every transfer it has stored. -/
theorem finalize_reports_truth (s : SlaveManager Files) (hrole : s.local_role = .Slave)
    (inputs : List SlaveInput)
    (horderly : Framework.Admitted (step b d) (Orderly b d) (start s) inputs) :
    Framework.Admitted (step b d) (Truthful b d) (start s) inputs := by
  have hinit : (start s).Inv := by
    refine ⟨hrole, .inl rfl, fun _ _ => ?_⟩
    simp [start]
  generalize start s = r at hinit horderly
  induction inputs generalizing r with
  | nil => trivial
  | cons i is ih =>
    obtain ⟨hi, hrest⟩ := horderly
    obtain ⟨htruthful, hinv⟩ := keeps_step b d hinit i hi
    exact ⟨htruthful, ih _ hinv hrest⟩

open OtaUpdater

def freshSlave : SlaveManager Unit where
  local_role := .Slave
  sink := .constructed { max_firmware_bytes := 16, receive_timeout_s := 12 }
  ota_transfer_corr_id := 0
  ota_transfer_expected_size := 0
  ota_transfer_last_received_offset := 0
  ota_transfer_last_acked_offset := 0
  ota_transfer_ack_step_bytes := 0
  ota_transfer_next_ack_offset := 0
  ota_transfer_last_nack_offset := 0
  ota_transfer_last_nack_ms := 0
  ota_finalize_pending := false
  ota_finalize_corr_id := 0
  ota_finalize_offset := 0
  ota_finalize_status_code := 0
  ota_finalize_kind := 0
  ota_finalize_started_ms := 0
  ota_finalize_last_tx_ms := 0
  hung := false
  ota_finalize_peer := zeroMac
  files := ()

def masterOfSample : MacAddress := #v[2, 0, 0, 0, 0, 9]

def sampleBeginFrame : SlaveInput :=
  .firmwareBegin masterOfSample 7 (le32 4 ++ le32 4 ++ le32 (crc32 sampleImage))
    { now_epoch_s := 100, gate := none, folders := true, pool := some (List.replicate 16 0),
      temp_file := true, storage_message := "ok" }

def sampleEndFrame (now_ms : UInt32) : SlaveInput :=
  .firmwareEnd masterOfSample 7 4 (crc32 sampleImage) 102 now_ms none true

def sampleAckFrame : SlaveInput :=
  .firmwareStatus masterOfSample
    (FirmwareStatusKind.FinalizeAck.toUInt8 :: le32 7 ++ le32 4 ++ le16 0)

/-- A transfer with one resent report and its acknowledgement. -/
theorem finalize_reports_truth_run :
    Framework.Admitted (step quietStorage plainFolders) (Truthful quietStorage plainFolders)
      (start freshSlave)
      [sampleBeginFrame, .firmwareChunk masterOfSample 7 0 sampleImage 101 900,
        sampleEndFrame 1000, .finalizeTick 1500 true true, sampleAckFrame] := by
  refine finalize_reports_truth quietStorage plainFolders freshSlave rfl _
    ⟨?_, trivial, ⟨?_, ?_⟩, ?_, trivial, trivial⟩
  · intro total_size chunk_size crc metadata _
    exact ⟨fun _ => rfl, fun _ => ⟨rfl, rfl, rfl⟩⟩
  · decide +kernel
  · intro hmem
    exact absurd hmem (by decide +kernel)
  · have howed : ([sampleBeginFrame, .firmwareChunk masterOfSample 7 0 sampleImage 101 900,
        sampleEndFrame 1000].foldl (step quietStorage plainFolders) (start freshSlave)).owed =
          [⟨masterOfSample, 7, 4, 1000, some 1000⟩] := by decide +kernel
    simp only [List.foldl_cons, List.foldl_nil] at howed
    intro o ho _ _
    rw [howed, List.mem_singleton] at ho
    subst ho
    exact ⟨rfl, fun hnone => absurd hnone (by simp)⟩

/-- A repeated end frame of a stored image is answered with a failure, and a refused begin frame drops
what the slave knows of its transfer. -/
theorem finalize_report_overwritten :
    ¬ Framework.Admitted (step quietStorage plainFolders) (Truthful quietStorage plainFolders)
      (start freshSlave)
      [sampleBeginFrame, .firmwareChunk masterOfSample 7 0 sampleImage 101 900,
        sampleEndFrame 1000, sampleEndFrame 1100] ∧
    ¬ Framework.Admitted (step quietStorage plainFolders) (Truthful quietStorage plainFolders)
      (start freshSlave)
      [sampleBeginFrame, .firmwareBegin zeroMac 8 (le32 0 ++ le32 4 ++ le32 0)
        ⟨100, none, true, none, true, ""⟩] := by
  constructor
  · rintro ⟨-, -, -, hagain, -⟩
    have hfail := hagain.no_fail
      ⟨masterOfSample, FirmwareStatusKind.FinalizeFail.toUInt8, 7, 0, OtaStatusCode.InvalidState.toUInt16⟩
      (by decide +kernel) rfl
    exact hfail (by decide +kernel)
  · rintro ⟨-, hrefused, -⟩
    obtain ⟨htracking, -⟩ := hrefused.refusal (by decide +kernel)
    have hsize := congrArg (fun t => t.2.1) htracking
    exact absurd hsize (by decide +kernel)

end FinalizeRun

end EspNowLink
