import EspNowLink.Ota.Lifecycle

namespace EspNowLink

namespace OtaManager

/-- The published status says that a transfer runs exactly while there is one, and nothing is being
applied. -/
structure StatusRight (m : OtaManager) : Prop where
  receiving : m.status.state = .Receiving ↔ m.receive.active = true
  settled : m.status.state ≠ .Applying

/-- What `beginReceive` asks before it ends the transfer under way. -/
structure BeginAccepted (m : OtaManager) (total_size chunk_size : UInt32) (env : BeginEnvironment) :
    Prop where
  size : total_size ≠ 0
  chunk : chunk_size ≠ 0
  fits : total_size ≤ m.config.max_firmware_bytes
  gate : gateRefusal env.gate = none
  folders : env.folders = true
  pool : m.psram_pool.isSome = true ∧ m.psram_pool_size = m.config.max_firmware_bytes ∨
    env.pool.isSome = true

/-- What `endReceive` asks before it looks at the image itself. -/
structure EndAccepted (m : OtaManager) (total_size image_crc32 : UInt32) : Prop where
  size : total_size = m.receive.expected_size
  crc : image_crc32 = m.receive.expected_crc32
  room : m.hasRoom m.receive.expected_size = true
  received : m.receive.received_size = m.receive.expected_size
  unique : m.receive.unique_received_size = m.receive.expected_size

/-- What `applyImage` asks before it calls the executor. -/
structure ApplyAccepted (m : OtaManager) (image_path : Bytes) (image_size : UInt32)
    (env : ApplyEnvironment) : Prop where
  path : image_path ≠ []
  size : image_size ≠ 0
  fits : m.config.max_firmware_bytes = 0 ∨ image_size ≤ m.config.max_firmware_bytes
  gate : gateRefusal env.gate = none

@[simp] theorem fail_receive (m : OtaManager) (code : OtaStatusCode) (message : String) :
    (m.fail code message).receive = m.receive := rfl

@[simp] theorem clearReceive_active (m : OtaManager) : m.clearReceive.receive.active = false := rfl

/-- A status of a device at rest is true only when no transfer is under way. -/
theorem atRest_statusRight {m : OtaManager} (hreceiving : m.status.state ≠ .Receiving)
    (happlying : m.status.state ≠ .Applying) : m.StatusRight ↔ m.receive.active = false := by
  constructor
  · intro h
    have hactive := mt h.receiving.mpr hreceiving
    simpa using hactive
  · intro hidle
    refine ⟨⟨fun hstate => absurd hstate hreceiving, fun hactive => ?_⟩, happlying⟩
    simp [hidle] at hactive

theorem fail_statusRight (m : OtaManager) (code : OtaStatusCode) (message : String) :
    (m.fail code message).StatusRight ↔ m.receive.active = false :=
  atRest_statusRight (by simp [fail]) (by simp [fail])

@[simp] theorem setOk_state (m : OtaManager) (message : String) :
    (m.setOk message).status.state = m.status.state := rfl

@[simp] theorem setOk_receive (m : OtaManager) (message : String) :
    (m.setOk message).receive = m.receive := rfl

@[simp] theorem setState_receive (m : OtaManager) (state : OtaTransferState) :
    (m.setState state).receive = m.receive := rfl

theorem clearReceive_fail_statusRight (m : OtaManager) (code : OtaStatusCode) (message : String) :
    (m.clearReceive.fail code message).StatusRight :=
  (fail_statusRight _ _ _).mpr rfl

theorem StatusRight.of_same {m m' : OtaManager} (h : m.StatusRight)
    (hstate : m'.status.state = m.status.state) (hactive : m'.receive.active = m.receive.active) :
    m'.StatusRight :=
  ⟨by rw [hstate, hactive]; exact h.receiving, by rw [hstate]; exact h.settled⟩

theorem expireReceiveIfStale_eq (m : OtaManager) (now_s : UInt32) :
    m.expireReceiveIfStale now_s = m ∨
      m.expireReceiveIfStale now_s = m.clearReceive.fail .Timeout "ota transfer timeout" := by
  unfold expireReceiveIfStale
  dsimp only
  repeat' split
  all_goals first | exact .inl rfl | exact .inr rfl

theorem StatusRight.expire {m : OtaManager} (h : m.StatusRight) (now_s : UInt32) :
    (m.expireReceiveIfStale now_s).StatusRight := by
  rcases m.expireReceiveIfStale_eq now_s with hkept | hdropped
  · rw [hkept]
    exact h
  · rw [hdropped]
    exact clearReceive_fail_statusRight _ _ _

theorem StatusRight.abortReceive {m : OtaManager} (h : m.StatusRight) (sender : MacAddress)
    (corr_id : UInt32) : (m.abortReceive sender corr_id).StatusRight := by
  unfold OtaManager.abortReceive
  split
  · exact h
  · exact clearReceive_fail_statusRight _ _ _

theorem StatusRight.abortActiveReceive {m : OtaManager} (h : m.StatusRight) :
    m.abortActiveReceive.StatusRight := by
  unfold OtaManager.abortActiveReceive
  split
  · exact h
  · exact clearReceive_fail_statusRight _ _ _

theorem constructed_statusRight (config : OtaManagerConfig) : (constructed config).StatusRight where
  receiving := by simp [constructed, ReceiveSession.idle]
  settled := by simp [constructed]

theorem applyStatusRecord_state (m : OtaManager) (record : PersistentStatusRecord) :
    (m.applyStatusRecord record).status.state = m.status.state := by
  unfold applyStatusRecord
  dsimp only
  split_ifs <;> rfl

theorem inactive_iff_of_not {m m' : OtaManager} {Accepted : Prop}
    (hreceive : m'.receive = m.receive) (hrefused : ¬ Accepted) :
    m'.receive.active = false ↔ (m.receive.active = true → Accepted) := by
  rw [hreceive]
  constructor
  · intro hidle hactive
    simp [hidle] at hactive
  · intro himp
    have hnot := mt himp hrefused
    simpa using hnot

/-- A call that fails over the session as it is tells the truth only when there is none, whatever it
asks of a session under way. -/
theorem refused_statusRight {m m' : OtaManager} {Accepted : Prop} (code : OtaStatusCode)
    (message : String) (hreceive : m'.receive = m.receive) (hrefused : ¬ Accepted) :
    (m'.fail code message).StatusRight ↔ (m.receive.active = true → Accepted) :=
  (fail_statusRight _ _ _).trans (inactive_iff_of_not hreceive hrefused)

theorem statusRight_iff_of_right {m : OtaManager} {Accepted : Prop} (h : m.StatusRight)
    (haccepted : Accepted) {q : OtaManager} :
    m.StatusRight ↔ (q.receive.active = true → Accepted) :=
  ⟨fun _ _ => haccepted, fun _ => h⟩

theorem ensurePsramPool_frame (m : OtaManager) (pool : Option Bytes) :
    (m.ensurePsramPool pool).2.receive = m.receive := by
  unfold ensurePsramPool
  repeat' split
  all_goals rfl

/-- The pool is there with room for the image when it was kept or can be allocated. -/
theorem ensurePsramPool_ready (m : OtaManager) (pool : Option Bytes) (size : UInt32)
    (hpos : size ≠ 0) :
    (m.ensurePsramPool pool).1 = true ∧ (m.ensurePsramPool pool).2.hasRoom size = true ↔
      size ≤ m.config.max_firmware_bytes ∧
        (m.psram_pool.isSome = true ∧ m.psram_pool_size = m.config.max_firmware_bytes ∨
          pool.isSome = true) := by
  have hzero : m.config.max_firmware_bytes = 0 → ¬ size ≤ m.config.max_firmware_bytes := by
    intro h0 hle
    rw [h0, UInt32.le_iff_toNat_le] at hle
    exact hpos (UInt32.toNat_inj.mp (by simpa using hle))
  unfold ensurePsramPool
  split
  · rename_i h0
    simp [hzero h0]
  · split
    · rename_i hkept
      simp only [Bool.and_eq_true, decide_eq_true_eq] at hkept
      simp [hasRoom, hkept]
    · rename_i hkept
      simp only [Bool.and_eq_true, decide_eq_true_eq] at hkept
      cases pool with
      | none => simp [hkept]
      | some bytes => simp [hasRoom]

theorem openSession_statusRight (m : OtaManager) (sender : MacAddress)
    (corr_id total_size chunk_size image_crc32 : UInt32) (metadata : FirmwareImageMetadata)
    (env : BeginEnvironment) :
    (m.openSession sender corr_id total_size chunk_size image_crc32 metadata env).2.StatusRight := by
  unfold openSession
  dsimp only
  split
  · exact clearReceive_fail_statusRight _ _ _
  · exact ⟨by simp [freshSession], by simp⟩

theorem beginReceive_statusRight (m : OtaManager) (sender : MacAddress)
    (corr_id total_size chunk_size image_crc32 : UInt32) (metadata : FirmwareImageMetadata)
    (env : BeginEnvironment) :
    (m.beginReceive sender corr_id total_size chunk_size image_crc32 metadata env).2.StatusRight ↔
      ((m.expireReceiveIfStale env.now_epoch_s).receive.active = true →
        (m.expireReceiveIfStale env.now_epoch_s).BeginAccepted total_size chunk_size env) := by
  unfold beginReceive
  generalize m.expireReceiveIfStale env.now_epoch_s = q
  dsimp only
  split
  · rename_i hsize
    exact refused_statusRight _ _ rfl fun h => hsize.elim h.size h.chunk
  rename_i hsize
  simp only [not_or] at hsize
  split
  · rename_i hlarge
    refine refused_statusRight _ _ rfl fun h => ?_
    exact absurd h.fits (UInt32.not_le.mpr hlarge.2)
  split
  · rename_i hgate
    refine refused_statusRight _ _ rfl fun h => ?_
    rw [h.gate] at hgate
    cases hgate
  rename_i hgate
  split
  · rename_i hfolders
    refine refused_statusRight _ _ rfl fun h => ?_
    simp [h.folders] at hfolders
  rename_i hfolders
  have hframe := q.ensurePsramPool_frame env.pool
  have hready := q.ensurePsramPool_ready env.pool total_size hsize.1
  generalize q.ensurePsramPool env.pool = ready at hframe hready ⊢
  obtain ⟨ready, p⟩ := ready
  dsimp only at hframe hready ⊢
  split
  · rename_i hnot
    refine refused_statusRight _ _ hframe fun h => ?_
    have := (hready.mpr ⟨h.fits, h.pool⟩).1
    simp [this] at hnot
  rename_i hyes
  split
  · rename_i hroom
    refine refused_statusRight _ _ hframe fun h => ?_
    have := (hready.mpr ⟨h.fits, h.pool⟩).2
    simp [this] at hroom
  · rename_i hroom
    obtain ⟨hfits, hpool⟩ := hready.mp ⟨by simpa using hyes, by simpa using hroom⟩
    refine statusRight_iff_of_right (openSession_statusRight _ _ _ _ _ _ _ _) ?_
    exact ⟨hsize.1, hsize.2, hfits, hgate, by simpa using hfolders, hpool⟩

/-- A chunk of the session under way is accepted, and the session goes on. -/
theorem acceptChunk_statusRight {m : OtaManager} (hactive : m.receive.active = true)
    (offset : UInt32) (data : Bytes) (now_s : UInt32) :
    (m.acceptChunk offset data now_s).StatusRight := by
  have hrefresh : ∀ r : ReceiveSession, r.refreshContiguousReceived.active = r.active := by
    intro r
    unfold ReceiveSession.refreshContiguousReceived
    split <;> rfl
  have hmark : ∀ i, (m.receive.markChunkReceived i).active = true := by
    intro i
    unfold ReceiveSession.markChunkReceived
    split <;> exact hactive
  have hafter : (m.acceptChunk offset data now_s).receive.active = true := by
    unfold acceptChunk
    dsimp only
    rw [hrefresh]
    split
    · exact hactive
    · exact hmark _
  exact ⟨⟨fun _ => hafter, fun _ => rfl⟩, by simp [acceptChunk]⟩

theorem writeReceiveChunk_statusRight {m : OtaManager} (h : m.StatusRight) (sender : MacAddress)
    (corr_id offset : UInt32) (data : Bytes) (now_s : UInt32) :
    (m.writeReceiveChunk sender corr_id offset data now_s).2.StatusRight ↔
      ((m.expireReceiveIfStale now_s).validateSession sender corr_id = true →
        (m.expireReceiveIfStale now_s).chunkRefusal offset data = none) := by
  have hq := h.expire now_s
  unfold writeReceiveChunk
  generalize m.expireReceiveIfStale now_s = q at hq ⊢
  dsimp only
  split
  · rename_i hinvalid
    simp only [Bool.not_eq_true'] at hinvalid
    simp [hinvalid, hq]
  rename_i hvalid
  simp only [Bool.not_eq_true, Bool.not_eq_false'] at hvalid
  have hactive : q.receive.active = true := by
    simp only [validateSession, Bool.and_eq_true] at hvalid
    exact hvalid.1.1
  split
  · rename_i hrefusal
    rw [fail_statusRight]
    simp [hactive, hvalid, hrefusal]
  · rename_i hnone
    simp [hnone, acceptChunk_statusRight hactive]

theorem storeImage_statusRight {Files : Type} (b : OtaStorageBackend Files) (d : OtaFolders)
    (m : OtaManager) (pool : Bytes) (total_size : UInt32) (manifest : Option Bytes)
    (files : Files) :
    (m.storeImage b d pool total_size manifest files).2.1.StatusRight := by
  unfold storeImage
  dsimp only
  split
  · exact clearReceive_fail_statusRight _ _ _
  split
  · exact clearReceive_fail_statusRight _ _ _
  split
  · exact clearReceive_fail_statusRight _ _ _
  · exact ⟨by simp, by simp⟩

theorem endReceive_statusRight {Files : Type} (b : OtaStorageBackend Files) (d : OtaFolders)
    {m : OtaManager} (h : m.StatusRight) (sender : MacAddress)
    (corr_id total_size image_crc32 now_s : UInt32) (manifest : Option Bytes) (files : Files) :
    (m.endReceive b d sender corr_id total_size image_crc32 now_s manifest files).2.1.StatusRight ↔
      ((m.expireReceiveIfStale now_s).validateSession sender corr_id = true →
        (m.expireReceiveIfStale now_s).EndAccepted total_size image_crc32) := by
  have hq := h.expire now_s
  unfold endReceive
  generalize m.expireReceiveIfStale now_s = q at hq ⊢
  dsimp only
  split
  · rename_i hinvalid
    simp only [Bool.not_eq_true'] at hinvalid
    simp [hinvalid, hq]
  rename_i hvalid
  simp only [Bool.not_eq_true, Bool.not_eq_false'] at hvalid
  have hactive : q.receive.active = true := by
    simp only [validateSession, Bool.and_eq_true] at hvalid
    exact hvalid.1.1
  have hsession : (q.validateSession sender corr_id = true →
      q.EndAccepted total_size image_crc32) ↔
      (q.receive.active = true → q.EndAccepted total_size image_crc32) := by
    simp [hvalid, hactive]
  rw [hsession]
  split
  · rename_i hdeclared
    refine refused_statusRight _ _ rfl fun he => ?_
    exact hdeclared.elim (fun hs => hs he.size) (fun hc => hc he.crc)
  rename_i hdeclared
  simp only [ne_eq, not_or, not_not] at hdeclared
  split
  · rename_i hroom
    refine refused_statusRight _ _ rfl fun he => ?_
    simp [he.room] at hroom
  rename_i hroom
  split
  · rename_i hsizes
    refine refused_statusRight _ _ rfl fun he => ?_
    exact hsizes.elim (fun hr => hr he.received) (fun hu => hu he.unique)
  rename_i hsizes
  simp only [ne_eq, not_or, not_not] at hsizes
  have haccepted : q.EndAccepted total_size image_crc32 :=
    ⟨hdeclared.1, hdeclared.2, by simpa using hroom, hsizes.1, hsizes.2⟩
  split
  · exact statusRight_iff_of_right (clearReceive_fail_statusRight _ _ _) haccepted
  · exact statusRight_iff_of_right (storeImage_statusRight _ _ _ _ _ _ _) haccepted

end OtaManager

namespace OtaUpdater

open OtaManager

variable {Files : Type} (b : OtaStorageBackend Files) (d : OtaFolders)

/-- What a call returns and the status it publishes fit the session it leaves. -/
structure StatusMatches (u : OtaUpdater Files) (c : OtaCall) : Prop where
  receiving : (u.after b d c).manager.status.state = .Receiving ↔
    (u.after b d c).manager.receive.active = true
  settled : (u.after b d c).manager.status.state ≠ .Applying
  failed : (u.call b d c).1 = false →
    ¬ ((u.after b d c).manager.receive.active = true ∧
        (u.after b d c).manager.status.state = .Failed) ∧
    ¬ ((u.after b d c).manager.receive.active = false ∧
        (u.after b d c).manager.status.state = .Receiving)

/-- A call that is not refused while a transfer is under way, and no rollback without a restart. -/
def Smooth (u : OtaUpdater Files) : OtaCall → Prop
  | .beginReceive _ _ total_size chunk_size _ _ env =>
    let m := u.manager.expireReceiveIfStale env.now_epoch_s
    m.receive.active = true → m.BeginAccepted total_size chunk_size env
  | .writeReceiveChunk sender corr_id offset data now_s =>
    let m := u.manager.expireReceiveIfStale now_s
    m.validateSession sender corr_id = true → m.chunkRefusal offset data = none
  | .endReceive sender corr_id total_size image_crc32 now_s _ =>
    let m := u.manager.expireReceiveIfStale now_s
    m.validateSession sender corr_id = true → m.EndAccepted total_size image_crc32
  | .abortReceive _ _ => True
  | .abortActiveReceive => True
  | .tick _ => True
  | .applyImage image_path image_size _ env =>
    let m := u.manager.expireReceiveIfStale env.now_epoch_s
    m.receive.active = true →
      m.ApplyAccepted image_path image_size env ∧ env.executor = some .restarts
  | .rollback executor =>
    (∀ message, executor ≠ some (.accepted message)) ∧
      (u.manager.receive.active = true → executor = some .restarts)
  | .markBootSuccessful _ _ env =>
    u.manager.receive.active = true → env.storage.ok = true →
      ∀ record, env.record = .ok record → record.state = kPendingBoot →
        gateRefusal env.gate = none

theorem statusMatches_iff (u : OtaUpdater Files) (c : OtaCall) :
    u.StatusMatches b d c ↔ (u.after b d c).manager.StatusRight := by
  constructor
  · intro h
    exact ⟨h.receiving, h.settled⟩
  · intro h
    refine ⟨h.receiving, h.settled, fun _ => ⟨?_, ?_⟩⟩
    · rintro ⟨hactive, hfailed⟩
      have hreceiving := h.receiving.mpr hactive
      rw [hfailed] at hreceiving
      cases hreceiving
    · rintro ⟨hidle, hreceiving⟩
      have hactive := h.receiving.mp hreceiving
      rw [hidle] at hactive
      cases hactive

theorem applyStatusRecordToRuntime_statusRight {u : OtaUpdater Files}
    (h : u.manager.StatusRight) (record : PersistentStatusRecord) :
    (u.applyStatusRecordToRuntime record).manager.StatusRight :=
  h.of_same (applyStatusRecord_state _ _) rfl

theorem persistPendingApply_frame (u : OtaUpdater Files) (image_path : Bytes)
    (image_size image_crc32 : UInt32) (env : ApplyEnvironment) :
    (u.persistPendingApply image_path image_size image_crc32 env).manager.status.state =
        u.manager.status.state ∧
      (u.persistPendingApply image_path image_size image_crc32 env).manager.receive =
        u.manager.receive := by
  unfold persistPendingApply
  split
  · exact ⟨rfl, rfl⟩
  · exact ⟨applyStatusRecord_state _ _, rfl⟩

theorem applyImage_statusRight {u : OtaUpdater Files} (h : u.manager.StatusRight)
    (image_path : Bytes) (image_size image_crc32 : UInt32) (env : ApplyEnvironment) :
    (u.applyImage image_path image_size image_crc32 env).2.manager.StatusRight ↔
      ((u.manager.expireReceiveIfStale env.now_epoch_s).receive.active = true →
        (u.manager.expireReceiveIfStale env.now_epoch_s).ApplyAccepted image_path image_size env ∧
          env.executor = some .restarts) := by
  have hq := h.expire env.now_epoch_s
  unfold applyImage
  generalize u.manager.expireReceiveIfStale env.now_epoch_s = q at hq ⊢
  dsimp only
  split
  · rename_i hinvalid
    refine refused_statusRight _ _ rfl fun ha => ?_
    exact hinvalid.elim ha.1.path ha.1.size
  rename_i hvalid
  simp only [not_or] at hvalid
  split
  · rename_i hlarge
    refine refused_statusRight _ _ rfl fun ha => ?_
    rcases ha.1.fits with h0 | hle
    · simp [h0] at hlarge
    · exact absurd hle (UInt32.not_le.mpr hlarge.2)
  rename_i hfits
  split
  · rename_i hgate
    refine refused_statusRight _ _ rfl fun ha => ?_
    rw [ha.1.gate] at hgate
    cases hgate
  rename_i hgate
  split
  · rename_i hnone
    refine refused_statusRight _ _ rfl fun ha => ?_
    rw [hnone] at ha
    cases ha.2
  rename_i outcome houtcome
  have haccepted : q.ApplyAccepted image_path image_size env := by
    refine ⟨hvalid.1, hvalid.2, ?_, hgate⟩
    by_cases h0 : q.config.max_firmware_bytes = 0
    · exact .inl h0
    · refine .inr (UInt32.not_lt.mp fun hlt => hfits ⟨?_, hlt⟩)
      exact UInt32.pos_iff_ne_zero.mpr h0
  cases outcome with
  | failed message =>
    refine refused_statusRight _ _ rfl fun ha => ?_
    rw [houtcome] at ha
    cases ha.2
  | accepted message =>
    -- the executor has taken the image, so the state is `Ready` with the session as it was
    dsimp only
    generalize hready : (({ u with manager := q } : OtaUpdater Files).applying image_path image_size
      image_crc32) = ready
    have hstate : (ready.manager.setState .Ready).status.state = .Ready := rfl
    have hreceive : (ready.manager.setState .Ready).receive = q.receive := by
      rw [← hready]
      rfl
    have hframe := persistPendingApply_frame
      { ready with manager := ready.manager.setState .Ready } image_path image_size image_crc32 env
    refine (atRest_statusRight ?_ ?_).trans (inactive_iff_of_not (hframe.2.trans hreceive) ?_)
    · rw [setOk_state, hframe.1, hstate]
      simp
    · rw [setOk_state, hframe.1, hstate]
      simp
    · rintro ⟨-, hrestarts⟩
      simp [houtcome] at hrestarts
  | restarts =>
    exact statusRight_iff_of_right (constructed_statusRight _) ⟨haccepted, houtcome⟩

theorem rollback_statusRight {u : OtaUpdater Files} (executor : Option ApplyOutcome) :
    (u.rollback executor).2.manager.StatusRight ↔
      (∀ message, executor ≠ some (.accepted message)) ∧
        (u.manager.receive.active = true → executor = some .restarts) := by
  cases executor with
  | none =>
    refine (fail_statusRight _ _ _).trans ?_
    simp
  | some outcome =>
    cases outcome with
    | failed message =>
      refine (fail_statusRight _ _ _).trans ?_
      simp
    | accepted message =>
      constructor
      · intro h
        exact absurd rfl h.settled
      · intro h
        exact absurd rfl (h.1 message)
    | restarts =>
      have hright : (u.rollback (some .restarts)).2.manager.StatusRight :=
        constructed_statusRight _
      simp [hright]

theorem markBootSuccessful_statusRight {u : OtaUpdater Files} (h : u.manager.StatusRight)
    (sw_version build_id : Bytes) (env : BootEnvironment) :
    (u.markBootSuccessful sw_version build_id env).2.manager.StatusRight ↔
      (u.manager.receive.active = true → env.storage.ok = true →
        ∀ record, env.record = .ok record → record.state = kPendingBoot →
          gateRefusal env.gate = none) := by
  unfold markBootSuccessful
  split
  · rename_i hstorage
    simp only [Bool.not_eq_true'] at hstorage
    simp [h, hstorage]
  rename_i hstorage
  split
  · rename_i hrecord
    simp [h, hrecord]
  rename_i record hrecord
  split
  · rename_i hstate
    refine ⟨fun _ _ _ r hr hpending => ?_, fun _ => h⟩
    rw [hrecord] at hr
    cases hr
    exact absurd hpending hstate
  rename_i hstate
  split
  · rename_i hgate
    refine (refused_statusRight (m := u.manager) _ _ rfl ?_)
    intro hall
    have hnone := hall (by simpa using hstorage) record hrecord (not_not.mp hstate)
    rw [hnone] at hgate
    cases hgate
  rename_i hgate
  have hall : u.manager.receive.active = true → env.storage.ok = true →
      ∀ record, env.record = .ok record → record.state = kPendingBoot →
        gateRefusal env.gate = none := fun _ _ _ _ _ => hgate
  dsimp only
  split
  · exact ⟨fun _ => hall, fun _ => h⟩
  · refine ⟨fun _ => hall, fun _ => ?_⟩
    exact (applyStatusRecordToRuntime_statusRight h _).of_same rfl rfl

/-- One call keeps the status right exactly when it is a smooth one. -/
theorem after_statusRight {u : OtaUpdater Files} (h : u.manager.StatusRight) (c : OtaCall) :
    (u.after b d c).manager.StatusRight ↔ u.Smooth c := by
  cases c with
  | beginReceive sender corr_id total_size chunk_size image_crc32 metadata env =>
    exact beginReceive_statusRight _ _ _ _ _ _ _ _
  | writeReceiveChunk sender corr_id offset data now_s =>
    exact writeReceiveChunk_statusRight h _ _ _ _ _
  | endReceive sender corr_id total_size image_crc32 now_s manifest =>
    exact endReceive_statusRight b d h _ _ _ _ _ _ _
  | abortReceive sender corr_id => exact ⟨fun _ => trivial, fun _ => h.abortReceive _ _⟩
  | abortActiveReceive => exact ⟨fun _ => trivial, fun _ => h.abortActiveReceive⟩
  | tick now_s => exact ⟨fun _ => trivial, fun _ => h.expire _⟩
  | applyImage image_path image_size image_crc32 env =>
    exact applyImage_statusRight h _ _ _ _
  | rollback executor => exact rollback_statusRight _
  | markBootSuccessful sw_version build_id env => exact markBootSuccessful_statusRight h _ _ _

/-- The status fits the session after every call of a run exactly when every call of it is a smooth
one. -/
theorem ota_status_matches_session (u : OtaUpdater Files) (h : u.manager.StatusRight)
    (calls : List OtaCall) :
    Framework.Admitted (after b d) (StatusMatches b d) u calls ↔
      Framework.Admitted (after b d) Smooth u calls := by
  have hrun := @Framework.admitted_iff_of_invariant _ _ (after b d) (StatusMatches b d) Smooth
    fun u => u.manager.StatusRight
  refine hrun ?_ ?_ h calls
  · intro u c hu
    exact (statusMatches_iff b d u c).trans (after_statusRight b d hu c)
  · intro u c _ hmatches
    exact (statusMatches_iff b d u c).mp hmatches

/-- A storage where every operation succeeds. -/
def quietStorage : OtaStorageBackend Unit where
  ensureDir _ files := (⟨true, "ok"⟩, files)
  truncateFile _ files := (⟨true, "ok"⟩, files)
  removePath _ files := (⟨true, "ok"⟩, files)
  renamePath _ _ files := (⟨true, "ok"⟩, files)
  writeAt _ _ _ files := (⟨true, "ok"⟩, files)

def plainFolders : OtaFolders := ⟨ascii "/in", ascii "/img", ascii "/man"⟩

def freshUpdater : OtaUpdater Unit :=
  constructed { max_firmware_bytes := 16, receive_timeout_s := 12 } ()

def sampleImage : Bytes := [1, 2, 3, 4]

def sampleBegin : OtaCall :=
  .beginReceive zeroMac 7 4 4 (crc32 sampleImage) noMetadata
    { now_epoch_s := 100, gate := none, folders := true, pool := some (List.replicate 16 0),
      temp_file := true, storage_message := "ok" }

/-- A whole reception leaves the status right after each of its calls. -/
theorem ota_status_matches_session_run :
    Framework.Admitted (after quietStorage plainFolders) (StatusMatches quietStorage plainFolders)
      freshUpdater
      [sampleBegin, .writeReceiveChunk zeroMac 7 0 sampleImage 101,
        .endReceive zeroMac 7 4 (crc32 sampleImage) 102 none, .rollback none] := by
  refine (ota_status_matches_session quietStorage plainFolders freshUpdater
    (constructed_statusRight _) _).mpr ⟨?_, ?_, ?_, ?_, trivial⟩
  · intro hactive
    exact absurd hactive (by decide)
  · intro _
    decide +kernel
  · intro _
    exact ⟨rfl, rfl, by decide +kernel, by decide +kernel, by decide +kernel⟩
  · refine ⟨by simp, fun hactive => ?_⟩
    exact absurd hactive (by decide +kernel)

/-- An empty chunk leaves a transfer under way that is published as failed, and an accepted rollback
without a restart stays at `Applying`. -/
theorem ota_status_left_wrong :
    ¬ Framework.Admitted (after quietStorage plainFolders) (StatusMatches quietStorage plainFolders)
      freshUpdater [sampleBegin, .writeReceiveChunk zeroMac 7 0 [] 101] ∧
    ¬ Framework.Admitted (after quietStorage plainFolders) (StatusMatches quietStorage plainFolders)
      freshUpdater [.rollback (some (.accepted ""))] := by
  constructor
  · rintro ⟨-, hchunk, -⟩
    exact (hchunk.failed (by decide +kernel)).1 (by decide +kernel)
  · rintro ⟨hrollback, -⟩
    exact hrollback.settled rfl

end OtaUpdater

end EspNowLink
