import EspNowLink.Ota.PushEvents
import EspNowLink.Ota.Retransmission

namespace EspNowLink

/-- The report of a session that has used up its retransmissions. -/
def PushOutput.isWindowAckTimeout : PushOutput → Bool
  | .done _ _ _ reason _ _ _ => reason = "window ack timeout"
  | _ => false

namespace OtaPushLocalSession

/-- A session that waits has retransmitted nothing since it began to wait. -/
def RetryIdle (m : OtaPushLocalSession) : Prop := m.waiting_chunk_ack = true → m.retry_count = 0

/-- The session that an event leaves is idle in its retries and has not reported the timeout. -/
def Untimed (r : List PushOutput × OtaPushLocalSession) : Prop :=
  r.2.RetryIdle ∧ ∀ o ∈ r.1, o.isWindowAckTimeout = false

section Untimed

variable {m : OtaPushLocalSession}

theorem Untimed.silent (h : m.RetryIdle) : Untimed ([], m) := ⟨h, by simp⟩

theorem stopOtaPushLocal_untimed (h : m.RetryIdle) (reachable success : Bool)
    (status : ManagementStatus) (code : OtaStatusCode) {reason : String}
    (hreason : reason ≠ "window ack timeout") :
    Untimed (m.stopOtaPushLocal reachable success status code reason) := by
  unfold stopOtaPushLocal
  split
  · exact .silent h
  · refine ⟨fun hwait => ?_, fun o ho => ?_⟩
    · cases hwait
    rcases List.mem_append.mp ho with ho | ho
    · split at ho
      · rw [List.mem_singleton.mp ho]
        rfl
      · simp at ho
    · rw [List.mem_singleton.mp ho]
      simp [PushOutput.isWindowAckTimeout, hreason]

theorem pumpWaitBegin_untimed (h : m.RetryIdle) (env : PushEnvironment) (now_ms : UInt32) :
    Untimed (m.pumpWaitBegin env now_ms) := by
  unfold pumpWaitBegin
  split
  · exact stopOtaPushLocal_untimed h _ _ _ _ (by decide)
  have hpoll : ∀ o ∈ (if elapsed now_ms m.last_status_poll_ms kStatusPollIntervalMs then
      [PushOutput.statusRequest] else []), o.isWindowAckTimeout = false := by
    intro o ho
    split at ho
    · rw [List.mem_singleton.mp ho]
      rfl
    · simp at ho
  have hnoted : (if elapsed now_ms m.last_status_poll_ms kStatusPollIntervalMs then
      { m with last_status_poll_ms := now_ms } else m).RetryIdle := by
    split <;> exact h
  dsimp only
  generalize (if elapsed now_ms m.last_status_poll_ms kStatusPollIntervalMs then
    { m with last_status_poll_ms := now_ms } else m) = n at hnoted ⊢
  generalize (if elapsed now_ms m.last_status_poll_ms kStatusPollIntervalMs then
    [PushOutput.statusRequest] else []) = out at hpoll ⊢
  split
  · exact ⟨(fun hwait => nomatch hwait), hpoll⟩
  · exact ⟨hnoted, hpoll⟩

/-- The branch that stops the session needs a count that a waiting session never has. -/
theorem pumpWaitingAck_untimed (h : m.RetryIdle) (hwait : m.waiting_chunk_ack = true)
    (env : PushEnvironment) (now_ms : UInt32) : Untimed (m.pumpWaitingAck env now_ms) := by
  have hzero := h hwait
  have hleft : ¬ m.retry_count ≥ m.retryMax := by
    rw [hzero]
    unfold retryMax
    split <;> decide
  unfold pumpWaitingAck
  split
  · exact .silent fun hnot => by cases hnot
  split
  · exact .silent fun hnot => by cases hnot
  · exact .silent h

theorem sendChunks_untimed (image : Bytes) (env : PushEnvironment) (now_ms : UInt32) (budget : Nat)
    (hidle : m.waiting_chunk_ack = false) :
    (sendChunks image env now_ms budget m).2.2.waiting_chunk_ack = false ∧
      ∀ o ∈ (sendChunks image env now_ms budget m).2.1, o.isWindowAckTimeout = false := by
  have hstopped (n : OtaPushLocalSession) (hn : n.waiting_chunk_ack = false) (status : ManagementStatus)
      (code : OtaStatusCode) (reason : String) (hreason : reason ≠ "window ack timeout") :
      (n.stopOtaPushLocal env.paired false status code reason).2.waiting_chunk_ack = false ∧
        ∀ o ∈ (n.stopOtaPushLocal env.paired false status code reason).1,
          o.isWindowAckTimeout = false := by
    refine ⟨?_, (stopOtaPushLocal_untimed (fun hwait => ?_) _ _ _ _ hreason).2⟩
    · unfold stopOtaPushLocal
      split
      · exact hn
      · rfl
    · rw [hn] at hwait
      cases hwait
  induction budget generalizing m with
  | zero => exact ⟨hidle, by simp [sendChunks]⟩
  | succ budget ih =>
    unfold sendChunks
    dsimp only
    split
    · split
      · exact hstopped m hidle .InternalError .StorageNotReady "chunk read failed" (by decide)
      split
      · split
        · exact hstopped { m with send_fail_streak := m.send_fail_streak + 1 } hidle .InternalError
            .InternalError "chunk send failed" (by decide)
        · exact ⟨hidle, by simp⟩
      · obtain ⟨hnext, hout⟩ :=
          ih (m := m.noteSent (m.chunkData image m.next_offset).length) hidle
        refine ⟨hnext, fun o ho => ?_⟩
        rcases List.mem_cons.mp ho with rfl | ho
        · rfl
        · exact hout o ho
    · exact ⟨hidle, by simp⟩

theorem pumpSending_untimed (image : Bytes) (env : PushEnvironment) (now_ms : UInt32)
    (hidle : m.waiting_chunk_ack = false) : Untimed (m.pumpSending image env now_ms) := by
  have hretry : m.RetryIdle := fun hwait => by rw [hidle] at hwait; cases hwait
  unfold pumpSending
  split
  · split
    · exact stopOtaPushLocal_untimed hretry _ _ _ _ (by decide)
    · exact ⟨hretry, by simp [PushOutput.isWindowAckTimeout]⟩
  split
  · exact .silent hretry
  have hopen : m.openWindow.waiting_chunk_ack = false := by
    unfold openWindow
    split <;> exact hidle
  have hsend := sendChunks_untimed image env now_ms kChunkBudgetPerTick hopen
  rcases hrun : sendChunks image env now_ms kChunkBudgetPerTick m.openWindow with ⟨ran, out, n⟩
  rw [hrun] at hsend
  obtain ⟨hn, hout⟩ := hsend
  refine ⟨?_, hout⟩
  have hquiet : n.RetryIdle := fun hwait => by rw [hn] at hwait; cases hwait
  dsimp only
  split
  · unfold closeWindow
    split
    · exact fun _ => rfl
    · exact hquiet
  · exact hquiet

theorem pumpOtaPushLocal_untimed (h : m.RetryIdle) (image : Bytes) (env : PushEnvironment)
    (now_ms : UInt32) : Untimed (m.pumpOtaPushLocal image env now_ms) := by
  unfold pumpOtaPushLocal
  split
  · exact .silent h
  split
  · exact stopOtaPushLocal_untimed h _ _ _ _ (by decide)
  split
  · exact stopOtaPushLocal_untimed h _ _ _ _ (by decide)
  split
  · exact pumpWaitBegin_untimed h env now_ms
  · split
    · exact stopOtaPushLocal_untimed h _ _ _ _ (by decide)
    · exact .silent h
  · unfold pumpStreaming
    split
    · exact .silent h
    have hbegun : (m.noteBegun now_ms).RetryIdle := by
      unfold noteBegun
      split <;> exact h
    dsimp only
    by_cases hwait : (m.noteBegun now_ms).waiting_chunk_ack = true
    · rw [if_pos hwait]
      exact pumpWaitingAck_untimed hbegun hwait env now_ms
    · rw [if_neg hwait]
      exact pumpSending_untimed image env now_ms (by simpa using hwait)
  · exact .silent h

theorem onChunkAck_retryIdle (h : m.RetryIdle) (offset now_ms : UInt32) :
    (m.onChunkAck offset now_ms).RetryIdle := by
  have hacked : (m.noteAckedOffset offset).endRecovery.RetryIdle := by
    unfold endRecovery noteAckedOffset
    repeat' split
    all_goals exact h
  unfold onChunkAck
  dsimp only
  split
  · exact fun hwait => by cases hwait
  split
  · exact fun hwait => by cases hwait
  · exact hacked

theorem onChunkNack_retryIdle (h : m.RetryIdle) (offset now_ms : UInt32) :
    (m.onChunkNack offset now_ms).RetryIdle := by
  unfold onChunkNack
  split
  · exact h
  · exact fun hwait => by cases hwait

theorem onTransferStatus_untimed (h : m.RetryIdle) (reachable : Bool) (status : FirmwareStatus)
    (now_ms : UInt32) : Untimed (m.onTransferStatus reachable status now_ms) := by
  have hack : ∀ o ∈ (if status.kind = .FinalizeOk ∨ status.kind = .FinalizeFail then
      [PushOutput.finalizeAck (eventOffset status) status.status_code] else []),
      o.isWindowAckTimeout = false := by
    intro o ho
    split at ho
    · rw [List.mem_singleton.mp ho]
      rfl
    · simp at ho
  have happend (r : List PushOutput × OtaPushLocalSession) (hr : Untimed r)
      (ack : List PushOutput) (hall : ∀ o ∈ ack, o.isWindowAckTimeout = false) :
      Untimed (ack ++ r.1, r.2) := by
    refine ⟨hr.1, fun o ho => ?_⟩
    rcases List.mem_append.mp ho with ho | ho
    · exact hall o ho
    · exact hr.2 o ho
  have hnoted : ({ m with last_activity_ms := now_ms } : OtaPushLocalSession).RetryIdle := h
  unfold onTransferStatus
  dsimp only
  split
  · exact ⟨h, hack⟩
  split
  · exact ⟨onChunkAck_retryIdle hnoted _ _, hack⟩
  · exact ⟨onChunkNack_retryIdle hnoted _ _, hack⟩
  · split
    · exact happend _ (stopOtaPushLocal_untimed hnoted _ _ _ _ (by decide)) _ hack
    · exact ⟨hnoted, hack⟩
  · split
    · exact happend _ (stopOtaPushLocal_untimed hnoted _ _ _ _ (by decide)) _ hack
    · exact ⟨hnoted, hack⟩
  · exact ⟨hnoted, hack⟩

theorem handle_untimed (h : m.RetryIdle) (image : Bytes) (e : PushEvent) :
    Untimed (m.handle image e) := by
  cases e with
  | pump env now_ms => exact pumpOtaPushLocal_untimed h image env now_ms
  | transferStatus peer status reachable now_ms =>
    exact onTransferStatus_untimed h reachable status now_ms
  | mandatoryEvent peer event_id correlation_id reachable now_ms =>
    change Untimed (m.onMandatoryEvent reachable peer event_id correlation_id)
    unfold onMandatoryEvent
    split
    · exact stopOtaPushLocal_untimed h _ _ _ _ (by decide)
    · exact .silent h

end Untimed

/-- The send loop leaves the acknowledged offset and the size of the window alone. -/
theorem sendChunks_acks (image : Bytes) {env : PushEnvironment} (henv : env.Clear) (now_ms : UInt32)
    (budget : Nat) {m : OtaPushLocalSession}
    (hran : (sendChunks image env now_ms budget m).1 = true) :
    (sendChunks image env now_ms budget m).2.2.remote_acked_offset = m.remote_acked_offset ∧
      (sendChunks image env now_ms budget m).2.2.window_size_chunks = m.window_size_chunks := by
  induction budget generalizing m with
  | zero => exact ⟨rfl, rfl⟩
  | succ budget ih =>
    by_cases hgoes : m.next_offset < m.total_size ∧ m.next_offset < m.pending_end_offset
    · by_cases hdata : (m.chunkData image m.next_offset).isEmpty = true
      · rw [sendChunks, if_pos hgoes] at hran
        simp [hdata] at hran
      · have hstep : (sendChunks image env now_ms (budget + 1) m) =
            ((sendChunks image env now_ms budget
                (m.noteSent (m.chunkData image m.next_offset).length)).1,
              .chunk m.next_offset (m.chunkData image m.next_offset) ::
                (sendChunks image env now_ms budget
                  (m.noteSent (m.chunkData image m.next_offset).length)).2.1,
              (sendChunks image env now_ms budget
                (m.noteSent (m.chunkData image m.next_offset).length)).2.2) := by
          rw [sendChunks, if_pos hgoes]
          simp [henv.readable, henv.chunk_sent, hdata]
        rw [hstep] at hran ⊢
        exact ih hran
    · rw [sendChunks, if_neg hgoes]
      exact ⟨rfl, rfl⟩

end OtaPushLocalSession

end EspNowLink
