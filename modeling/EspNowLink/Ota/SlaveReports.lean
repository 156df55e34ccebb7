import EspNowLink.Ota.PushRun
import EspNowLink.Ota.ReceiveFaithful

namespace EspNowLink

open OtaPushLocalSession

/-- A report of the transfer that carries what the slave has. -/
def FirmwareStatus.Reports (a : FirmwareStatus) (t : Transfer) (held : UInt32) : Prop :=
  (a.kind = .ChunkAck ∨ a.kind = .ChunkNack) ∧ a.transfer_corr_id = t.corr_id ∧
    a.offset_bytes ≤ held

namespace SlaveReception

/-- A slave without a session keeps no received offset under the id of the transfer. -/
def CleanFor (s : SlaveReception) (t : Transfer) : Prop :=
  s.sink.receive.active = false →
    s.ota_transfer_last_received_offset = 0 ∨ s.ota_transfer_corr_id ≠ t.corr_id

/-- What one chunk frame does to a slave: the session stays, it holds no less than before, it reports
what it holds, and what is new in it is the chunk that arrived. -/
structure TakesChunk (s s' : SlaveReception) (t : Transfer) (offset : UInt32) (data : Bytes)
    (out : List FirmwareStatus) : Prop where
  active : s'.sink.receive.active = s.sink.receive.active
  clean : s'.CleanFor t
  held : s.sink.contiguousReceiveSize ≤ s'.sink.contiguousReceiveSize
  reports : ∀ a ∈ out, a.Reports t s'.sink.contiguousReceiveSize
  sizes : s'.sink.receive.boundary = s.sink.receive.boundary ∧
    s'.sink.receive.chunk_count = s.sink.receive.chunk_count
  got : s.sink.receive.active = true → ∀ k, s'.sink.receive.got k = true →
    s.sink.receive.got k = true ∨
      offset.toNat = s.sink.receive.boundary k ∧
        data.length = s.sink.receive.boundary (k + 1) - s.sink.receive.boundary k

theorem chunkRefused_reports (s : SlaveReception) (t : Transfer) (now_ms : UInt32) :
    (s.chunkRefused t.corr_id now_ms).2.ota_transfer_last_received_offset = s.trackedOffset ∧
      (s.chunkRefused t.corr_id now_ms).2.ota_transfer_corr_id = s.ota_transfer_corr_id ∧
      ∀ a ∈ (s.chunkRefused t.corr_id now_ms).1,
        a.kind = .ChunkNack ∧ a.transfer_corr_id = t.corr_id ∧ a.offset_bytes = s.trackedOffset := by
  unfold chunkRefused
  dsimp only
  split
  · exact ⟨rfl, rfl, by simp⟩
  · exact ⟨rfl, rfl, by simp⟩

theorem Receiving.tracked {s : SlaveReception} {t : Transfer} (hs : s.Receiving t) :
    s.trackedOffset = s.sink.contiguousReceiveSize := by
  simp [trackedOffset, OtaManager.contiguousReceiveSize, hs.active, hs.last_received]

theorem contiguousReceiveSize_active {m : OtaManager} (h : m.receive.active = true) :
    m.contiguousReceiveSize = m.receive.received_size := by
  unfold OtaManager.contiguousReceiveSize
  rw [if_pos h]

theorem contiguousReceiveSize_inactive {m : OtaManager} (h : m.receive.active = false) :
    m.contiguousReceiveSize = 0 := by
  unfold OtaManager.contiguousReceiveSize
  rw [if_neg (by simp [h])]

/-- The slave at work on the transfer takes a chunk. -/
theorem handleFirmwareChunk_takes {s : SlaveReception} {t : Transfer} (hs : s.ReceptionInv t)
    (hclean : s.CleanFor t) (offset : UInt32) (data : Bytes) {now_s : UInt32}
    (hlive : s.sink.expireReceiveIfStale now_s = s.sink) (now_ms : UInt32) :
    s.TakesChunk (s.handleFirmwareChunk t.sender t.corr_id offset data now_s now_ms).2.2 t offset data
      (s.handleFirmwareChunk t.sender t.corr_id offset data now_s now_ms).2.1 := by
  have hstays : s.TakesChunk s t offset data [] :=
    ⟨rfl, hclean, UInt32.le_refl _, by simp, ⟨rfl, rfl⟩, fun _ _ h => .inl h⟩
  by_cases hhung : s.hung = true
  · unfold handleFirmwareChunk
    rw [if_pos hhung]
    exact hstays
  by_cases hactive : s.sink.receive.active = true
  · have hreceiving := hs.receiving hactive
    by_cases hrefusal : s.sink.chunkRefusal offset data = none
    · obtain ⟨s', heq, hsink, -, hs', -⟩ := handleFirmwareChunk_accepted hs.role hreceiving
        (by simpa using hhung) hlive hrefusal now_ms
      have hreceives := OtaManager.acceptChunk_receives hreceiving.sound hrefusal now_s
      obtain ⟨halign, hindex, hlength⟩ := OtaManager.chunkRefusal_none hrefusal
      have hactive' := hs'.active
      rw [heq]
      dsimp only
      rw [← hsink] at hreceives ⊢
      refine ⟨hactive'.trans hactive.symm, fun h => ?_, ?_, fun a ha => ?_, ⟨?_, hreceives.chunk_count⟩,
        fun _ k hk => ?_⟩
      · rw [hactive'] at h
        cases h
      · rw [contiguousReceiveSize_active hactive, contiguousReceiveSize_active hactive']
        exact hreceives.received_le hreceiving.sound
      · split at ha
        · rw [List.mem_singleton.mp ha, contiguousReceiveSize_active hactive']
          exact ⟨.inl rfl, rfl, UInt32.le_refl _⟩
        · simp at ha
      · funext k
        simp only [ReceiveSession.boundary, hreceives.expected_size, hreceives.chunk_size]
      · rw [hreceives.got] at hk
        rcases Bool.or_eq_true_iff.mp hk with hold | hnew
        · exact .inl hold
        · right
          have hk' : k = (offset / s.sink.receive.chunk_size).toNat := by
            rw [UInt32.toNat_div]
            exact of_decide_eq_true hnew
          subst hk'
          rw [UInt32.lt_iff_toNat_lt] at hindex
          have hsize := (hreceiving.sound.toShaped.chunkSizeAt_toNat hindex).1
          have hmod : offset.toNat % s.sink.receive.chunk_size.toNat = 0 := by
            rw [← UInt32.toNat_mod, halign, UInt32.toNat_zero]
          refine ⟨?_, by rw [hlength, hsize]⟩
          rw [(hreceiving.sound.toShaped.boundary_lt hindex).1, UInt32.toNat_div]
          exact (Nat.div_mul_cancel (Nat.dvd_of_mod_eq_zero hmod)).symm
    · obtain ⟨⟨code, message⟩, hcode⟩ := Option.ne_none_iff_exists'.mp hrefusal
      have hvalid : s.sink.validateSession t.sender t.corr_id = true := by
        simp [OtaManager.validateSession, hactive, hreceiving.sender, hreceiving.corr_id]
      have hchunk : s.handleFirmwareChunk t.sender t.corr_id offset data now_s now_ms
          = (false, ({ s with sink := s.sink.fail code message } : SlaveReception).chunkRefused
              t.corr_id now_ms) := by
        unfold handleFirmwareChunk
        rw [if_neg hhung, OtaManager.writeReceiveChunk_live hlive, hvalid, hcode]
        exact if_pos ⟨hs.role, hreceiving.transfer⟩
      have hs' : ({ s with sink := s.sink.fail code message } : SlaveReception).Receiving t :=
        { hreceiving with }
      obtain ⟨-, -, hreports⟩ := chunkRefused_reports
        { s with sink := s.sink.fail code message } t now_ms
      obtain ⟨hsink, -⟩ := chunkRefused_sink { s with sink := s.sink.fail code message } t.corr_id
        now_ms
      rw [hs'.tracked] at hreports
      rw [hchunk]
      refine ⟨by rw [hsink]; rfl, fun h => ?_, by rw [hsink]; exact UInt32.le_refl _, fun a ha => ?_,
        by rw [hsink]; exact ⟨rfl, rfl⟩, fun _ k hk => ?_⟩
      · rw [hsink] at h
        change s.sink.receive.active = false at h
        rw [hactive] at h
        cases h
      · obtain ⟨hkind, hcorr, hoffset⟩ := hreports a ha
        refine ⟨.inr hkind, hcorr, ?_⟩
        rw [hsink, hoffset]
        exact UInt32.le_refl _
      · rw [hsink] at hk
        exact .inl hk
  · rw [Bool.not_eq_true] at hactive
    have hwrite : s.sink.writeReceiveChunk t.sender t.corr_id offset data now_s
        = (false, s.sink) := by
      rw [OtaManager.writeReceiveChunk_live hlive]
      simp [OtaManager.validateSession, hactive]
    unfold handleFirmwareChunk
    rw [if_neg hhung, hwrite]
    dsimp only
    rw [if_neg (by simp : ¬ false = true)]
    split
    · rename_i htrack
      have hzero : s.ota_transfer_last_received_offset = 0 := by
        rcases hclean hactive with h | h
        · exact h
        · exact absurd htrack.2 h
      have htracked : s.trackedOffset = 0 := by
        unfold trackedOffset
        rw [hzero, contiguousReceiveSize_inactive hactive]
        rfl
      obtain ⟨hlast, -, hreports⟩ := chunkRefused_reports s t now_ms
      obtain ⟨hsink, -⟩ := chunkRefused_sink s t.corr_id now_ms
      refine ⟨by rw [hsink], fun _ => .inl (hlast.trans htracked), by rw [hsink]; exact UInt32.le_refl _,
        fun a ha => ?_, by rw [hsink]; exact ⟨rfl, rfl⟩, fun _ k hk => ?_⟩
      · obtain ⟨hkind, hcorr, hoffset⟩ := hreports a ha
        refine ⟨.inr hkind, hcorr, ?_⟩
        rw [hoffset, htracked, UInt32.le_iff_toNat_le]
        exact Nat.zero_le _
      · rw [hsink] at hk
        exact .inl hk
    · exact hstays

theorem freshSession_got (sender : MacAddress) (corr_id total_size chunk_size crc now_s : UInt32)
    (k : Nat) :
    (OtaManager.freshSession sender corr_id total_size chunk_size crc now_s).got k = false := by
  simp [ReceiveSession.got, OtaManager.freshSession, List.getD_eq_getElem?_getD,
    List.getElem?_replicate]
  split <;> rfl

/-- A slave without a session that hears a begin frame reports nothing received, and has nothing. -/
structure TakesBegin (s' : SlaveReception) (t : Transfer) (out : List FirmwareStatus) : Prop where
  reports : ∀ a ∈ out, a.Reports t 0
  clean : s'.CleanFor t
  fresh : s'.sink.receive.active = true → ∀ k, s'.sink.receive.got k = false

theorem beginAnswered_takes {s : SlaveReception} {t : Transfer} (hclean : s.CleanFor t)
    (hrole : s.local_role = .Slave) (ok : Bool) (hok : s.sink.receive.active = ok)
    (hfresh : s.sink.receive.active = true → ∀ k, s.sink.receive.got k = false)
    (total_size chunk_size : UInt32) :
    (s.beginAnswered ok t.corr_id total_size chunk_size).2.TakesBegin t
      (s.beginAnswered ok t.corr_id total_size chunk_size).1 := by
  unfold beginAnswered
  rw [if_neg (by simp [hrole])]
  cases ok with
  | true =>
    refine ⟨fun a ha => ?_, fun h => ?_, hfresh⟩
    · rw [List.mem_singleton.mp ha]
      exact ⟨.inl rfl, rfl, UInt32.le_refl _⟩
    · change s.sink.receive.active = false at h
      rw [hok] at h
      cases h
  | false =>
    refine ⟨fun a ha => ?_, hclean, hfresh⟩
    rw [List.mem_singleton.mp ha]
    exact ⟨.inr rfl, rfl, UInt32.le_refl _⟩

theorem handleFirmwareBegin_takes {s : SlaveReception} {t : Transfer} (hrole : s.local_role = .Slave)
    (hinactive : s.sink.receive.active = false) (hclean : s.CleanFor t) (payload : Bytes)
    (env : BeginEnvironment) :
    (s.handleFirmwareBegin t.sender t.corr_id payload env).2.2.TakesBegin t
      (s.handleFirmwareBegin t.sender t.corr_id payload env).2.1 := by
  have hsame : s.TakesBegin t [] :=
    ⟨by simp, hclean, fun h => by rw [hinactive] at h; cases h⟩
  unfold handleFirmwareBegin
  split
  · dsimp only
    split
    · exact hsame
    · rename_i metadata _
      dsimp only
      rcases hbegin : s.sink.beginReceive t.sender t.corr_id _ _ _ metadata env with ⟨ok, sink⟩
      rcases s.sink.beginReceive_cases _ _ _ _ _ _ _ hbegin with
        ⟨rfl, hold⟩ | ⟨rfl, -, -, hnew⟩
      · have hgone : sink.receive.active = false := by
          rcases hold with h | h
          · rw [h, hinactive]
          · exact h
        exact beginAnswered_takes (s := { s with sink := sink }) (fun _ => hclean hinactive) hrole
          false hgone (fun h => by rw [hgone] at h; cases h) _ _
      · have hopen : sink.receive.active = true := by rw [hnew]; rfl
        refine beginAnswered_takes (s := { s with sink := sink }) (fun h => ?_) hrole true hopen
          (fun _ k => ?_) _ _
        · dsimp only at h
          rw [hopen] at h
          cases h
        · dsimp only
          rw [hnew]
          exact freshSession_got ..
  · exact hsame

section End

variable {Files : Type} {b : OtaStorageBackend Files} {d : OtaFolders}

theorem storeImage_inactive {m m' : OtaManager} {pool path : Bytes} {total_size : UInt32}
    {manifest : Option Bytes} {files files' : Files}
    (h : m.storeImage b d pool total_size manifest files = (some path, m', files')) :
    m'.receive.active = false := by
  unfold OtaManager.storeImage at h
  dsimp only at h
  repeat' split at h
  all_goals cases h
  rfl

/-- The slave's finalization: it stores the whole image, or it has no session and says so. -/
theorem handleFirmwareEnd_cases {s : SlaveReception} {t : Transfer} (hrole : s.local_role = .Slave)
    (hclean : s.CleanFor t) (total_size crc now_s now_ms : UInt32) (manifest : Option Bytes)
    (files : Files)
    (hstores : s.sink.receive.active = true →
      (s.sink.endReceive b d t.sender t.corr_id total_size crc now_s manifest files).1.isSome = true)
    {ok : Bool} {out : List FirmwareStatus} {s' : SlaveReception} {files' : Files}
    (h : s.handleFirmwareEnd b d t.sender t.corr_id total_size crc now_s now_ms manifest files =
      (ok, out, s', files')) :
    (ok = false ∧ s'.sink.receive = s.sink.receive ∧ s'.local_role = .Slave ∧
        (s' = s ∨ s.sink.receive.active = false) ∧ s'.CleanFor t ∧
        ∀ a ∈ out, a.kind = .FinalizeFail) ∨
      (ok = true ∧ s.sink.receive.active = true ∧
        s.sink.receive.received_size = s.sink.receive.expected_size ∧
        s'.sink.receive.active = false ∧ s'.local_role = .Slave ∧ s'.CleanFor t ∧
        out = [⟨.FinalizeOk, t.corr_id, total_size, .Ok⟩]) := by
  unfold handleFirmwareEnd at h
  by_cases hhung : s.hung = true
  · rw [if_pos hhung] at h
    cases h
    exact .inl ⟨rfl, rfl, hrole, .inl rfl, hclean, by simp⟩
  rw [if_neg hhung] at h
  rcases hend : s.sink.endReceive b d t.sender t.corr_id total_size crc now_s manifest files
    with ⟨path, sink, files⟩
  rw [hend] at h hstores
  dsimp only at h hstores
  have hanswer (q : SlaveReception) (hq : q.local_role = .Slave) :
      (q.endAnswered path.isSome t.corr_id total_size now_ms).2.local_role = .Slave ∧
        (q.endAnswered path.isSome t.corr_id total_size now_ms).2.sink = q.sink ∧
        ((q.endAnswered path.isSome t.corr_id total_size now_ms).2.ota_transfer_last_received_offset
          = 0 ∨ (q.endAnswered path.isSome t.corr_id total_size now_ms).2.ota_transfer_corr_id
            ≠ t.corr_id) := by
    unfold endAnswered
    rw [if_neg (by simp [hq])]
    generalize path.isSome = ok
    by_cases hcorr : q.ota_transfer_corr_id = t.corr_id
    · cases ok <;> exact ⟨by simp [startFinalize, clearTransfer, hcorr, hq],
        by simp [startFinalize, clearTransfer, hcorr], .inl (by simp [startFinalize, clearTransfer, hcorr])⟩
    · cases ok <;> exact ⟨by simp [startFinalize, hcorr, hq],
        by simp [startFinalize, hcorr], .inr (by simp [startFinalize, hcorr])⟩
  obtain ⟨hrole', hsink', hclean'⟩ := hanswer { s with sink := sink } hrole
  cases path with
  | none =>
    have hgone : s.sink.receive.active = false := by
      cases hactive : s.sink.receive.active with
      | false => rfl
      | true =>
        have := hstores hactive
        cases this
    have hkept : sink = s.sink := by
      have hlive : s.sink.expireReceiveIfStale now_s = s.sink := by
        unfold OtaManager.expireReceiveIfStale
        rw [if_pos (by simp [hgone])]
      unfold OtaManager.endReceive at hend
      rw [hlive] at hend
      dsimp only at hend
      rw [if_pos (by simp [OtaManager.validateSession, hgone])] at hend
      cases hend
      rfl
    cases h
    refine .inl ⟨rfl, ?_, hrole', .inr hgone, fun _ => hclean', fun a ha => ?_⟩
    · rw [hsink']
      dsimp only
      rw [hkept]
    · unfold endAnswered at ha
      rw [if_neg (by simp [hrole])] at ha
      rw [List.mem_singleton.mp ha]
      rfl
  | some path =>
    obtain ⟨hactive, -, -, hreceived, -, q, -, hstore⟩ := endReceive_some hend
    cases h
    refine .inr ⟨rfl, hactive, hreceived, ?_, hrole', fun _ => hclean', ?_⟩
    · rw [hsink']
      exact storeImage_inactive hstore
    · unfold endAnswered
      rw [if_neg (by simp [hrole])]
      rfl

end End

end SlaveReception

end EspNowLink
