import EspNowLink.Platform.WriteOutcomes
import EspNowLink.Telemetry.Deadlines
import EspNowLink.Telemetry.PushControl

namespace EspNowLink

open PairingStore

namespace TelemetryManager

/-- The blobs that the store keeps. -/
def storedBlobs (m : TelemetryManager) : Option (BlobKey → Option Bytes) := m.store.map (·.backend.blobs)

/-- A command that is answered with an error leaves the session and the stored blobs as they were. -/
def PushAtomic (m : TelemetryManager) (sender : MacAddress) (cmd : TelemetryPushCommand) : Prop :=
  ∀ message, (m.handlePushCommand sender cmd).1 = some ⟨false, message⟩ →
    (m.handlePushCommand sender cmd).2.push_session = m.push_session ∧
      (m.handlePushCommand sender cmd).2.storedBlobs = m.storedBlobs

/-- The session that a command asks for, once its checks are passed. -/
def requestedSession (m : TelemetryManager) (sender : MacAddress) (cmd : TelemetryPushCommand) :
    Option TelemetryPushSession :=
  if m.local_role ≠ .Slave ∨ m.provider = none ∨ m.senderRefusal sender ≠ none then none
  else match cmd.action with
  | .Start => (m.admitConfig sender cmd.config).toOption
  | .Update => (m.admitConfig sender cmd.config).toOption
  | .Pause => if m.push_session.enabled then some { m.push_session with paused := true } else none
  | .Resume => if m.push_session.enabled then some { m.push_session with paused := false } else none
  | .Stop => some {}
  | .Get => none

/-- The session that remains when the store does not follow. -/
def remainingSession (next : TelemetryPushSession) : TelemetryPushAction → TelemetryPushSession
  | .Start => {}
  | .Update => {}
  | _ => next

/-- The store takes the blob of the session. -/
def CanPersist (m : TelemetryManager) (s : TelemetryPushSession) : Prop :=
  ∃ store, m.store = some store ∧ store.enabled = true ∧ s.has_master = true ∧
    storableMetrics s.metrics = true ∧
    WriteSucceeds (.put (store.makeMetaKey m.local_mac s.master kTelemetryMetaSlot) (pushConfigBlob s)) store

/-- The store holds no blob of the master's session, or gives it up. -/
def CanClear (m : TelemetryManager) (master : MacAddress) : Prop :=
  ∃ store, m.store = some store ∧ store.enabled = true ∧
    WriteSucceeds (.erase (store.makeMetaKey m.local_mac master kTelemetryMetaSlot)) store

def StoreFollows (m : TelemetryManager) (sender : MacAddress) (next : TelemetryPushSession) :
    TelemetryPushAction → Prop
  | .Stop => m.CanClear sender
  | _ => m.CanPersist next

/-- What a command does with the session it asks for: a stop clears the stored blob, any other command
writes it. -/
def storeSession (m : TelemetryManager) (sender : MacAddress) (next : TelemetryPushSession) :
    TelemetryPushAction → Bool × TelemetryManager
  | .Stop => (m.withSession next).clearTelemetryPushConfig sender
  | _ => (m.withSession next).persistTelemetryPushConfig

section Outcomes

variable {m : TelemetryManager}

theorem pushConfigBlob_ne_nil (s : TelemetryPushSession) : (pushConfigBlob s).isEmpty = false := by
  simp [pushConfigBlob]

theorem persistTelemetryPushConfig_outcome (m : TelemetryManager) :
    (m.persistTelemetryPushConfig.1 = true ↔ m.CanPersist m.push_session) ∧
      m.persistTelemetryPushConfig.2.push_session = m.push_session ∧
      (m.persistTelemetryPushConfig.1 = false →
        m.persistTelemetryPushConfig.2.storedBlobs = m.storedBlobs) := by
  unfold persistTelemetryPushConfig CanPersist storedBlobs
  cases hs : m.store with
  | none => simp [hs]
  | some store =>
    dsimp only
    by_cases hoff : (!store.enabled || !m.push_session.has_master) = true
    · rw [if_pos hoff]
      refine ⟨⟨by simp, ?_⟩, rfl, fun _ => by rw [hs]⟩
      rintro ⟨t, ht, hon, hmaster, -⟩
      obtain rfl := Option.some.inj ht
      simp [hon, hmaster] at hoff
    · rw [if_neg hoff]
      obtain ⟨hon, hmaster⟩ : store.enabled = true ∧ m.push_session.has_master = true := by
        simpa using hoff
      by_cases hkeys : storableMetrics m.push_session.metrics = true
      · rw [if_neg (by simp [hkeys]), saveMetaBlob_eq, if_neg (by simp [hon])]
        obtain ⟨hok, hblobs⟩ := putBlobIfChanged_outcome
          (store.makeMetaKey m.local_mac m.push_session.master kTelemetryMetaSlot) hon
          (pushConfigBlob_ne_nil m.push_session)
        refine ⟨?_, rfl, fun hfail => congrArg some (hblobs hfail)⟩
        rw [hok]
        constructor
        · intro hwrite
          exact ⟨store, rfl, hon, hmaster, hkeys, hwrite⟩
        · rintro ⟨t, ht, -, -, -, hwrite⟩
          obtain rfl := Option.some.inj ht
          exact hwrite
      · rw [if_pos (by simpa using hkeys)]
        refine ⟨⟨by simp, ?_⟩, rfl, fun _ => by rw [hs]⟩
        rintro ⟨t, -, -, -, hkeys', -⟩
        exact absurd hkeys' hkeys

/-- The read and the erase of a clear. -/
theorem clearTelemetryPushConfig_eq {store : PairingStore} (master : MacAddress) (hs : m.store = some store)
    (hon : store.enabled = true) :
    let key := store.makeMetaKey m.local_mac master kTelemetryMetaSlot
    m.clearTelemetryPushConfig master =
      ((store.eraseFound key).1,
        if m.push_session.has_master && m.push_session.master = master then
          (m.withPushStore (store.eraseFound key).2).withSession {}
        else m.withPushStore (store.eraseFound key).2) := by
  intro key
  unfold clearTelemetryPushConfig eraseFound loadMetaBlob
  have hsame := (store.getBlobCached_frame key).1
  rw [hs]
  simp only [hon, Bool.not_true, Bool.false_eq_true, if_false]
  rcases hread : store.getBlobCached key with ⟨existing, t⟩
  rw [hread] at hsame
  have hconfig : t.config = store.config := hsame.config
  have hkey : t.makeMetaKey m.local_mac master kTelemetryMetaSlot = key := by
    simp [key, makeMetaKey, hconfig]
  have herase : t.eraseMetaBlob m.local_mac master kTelemetryMetaSlot = t.eraseBlobIfExists key := by
    unfold eraseMetaBlob
    rw [hsame.enabled, hon, hkey]
    rfl
  simp only [herase, withPushStore]

theorem clearTelemetryPushConfig_outcome (m : TelemetryManager) (master : MacAddress)
    (hempty : m.push_session = {}) :
    ((m.clearTelemetryPushConfig master).1 = true ↔ m.CanClear master) ∧
      (m.clearTelemetryPushConfig master).2.push_session = {} ∧
      ((m.clearTelemetryPushConfig master).1 = false →
        (m.clearTelemetryPushConfig master).2.storedBlobs = m.storedBlobs) := by
  have hnone (hs : ∀ store, m.store = some store → store.enabled = false) :
      m.clearTelemetryPushConfig master = (false, m) := by
    unfold clearTelemetryPushConfig
    cases hstore : m.store with
    | none => rfl
    | some store => simp [hs store hstore]
  by_cases hon : ∃ store, m.store = some store ∧ store.enabled = true
  · obtain ⟨store, hs, hon⟩ := hon
    rw [clearTelemetryPushConfig_eq master hs hon]
    obtain ⟨hok, hblobs⟩ := eraseFound_outcome
      (store.makeMetaKey m.local_mac master kTelemetryMetaSlot) hon
    rw [if_neg (by simp [hempty])]
    refine ⟨?_, hempty, fun hfail => ?_⟩
    · unfold CanClear
      rw [hok]
      constructor
      · intro hwrite
        exact ⟨store, hs, hon, hwrite⟩
      · rintro ⟨t, ht, -, hwrite⟩
        obtain rfl : store = t := Option.some.inj (hs.symm.trans ht)
        exact hwrite
    · unfold storedBlobs withPushStore
      rw [hs]
      exact congrArg some (hblobs hfail)
  · have hoff (store : PairingStore) (hs : m.store = some store) : store.enabled = false := by
      simpa using fun h => hon ⟨store, hs, h⟩
    rw [hnone hoff]
    refine ⟨⟨by simp, ?_⟩, hempty, fun _ => rfl⟩
    rintro ⟨store, hs, hon', -⟩
    exact absurd ⟨store, hs, hon'⟩ hon

theorem withSession_self {s : TelemetryPushSession} (h : m.push_session = s) : m.withSession s = m := by
  rw [withSession, ← h]

theorem persist_session (m : TelemetryManager) :
    m.persistTelemetryPushConfig.2.push_session = m.push_session :=
  m.persistTelemetryPushConfig_outcome.2.1

/-- A command that asks for no other session changes nothing. -/
theorem handlePushCommand_unrequested {sender : MacAddress} {cmd : TelemetryPushCommand}
    (h : m.requestedSession sender cmd = none) : (m.handlePushCommand sender cmd).2 = m := by
  unfold requestedSession at h
  unfold handlePushCommand
  by_cases hnone : m.local_role ≠ .Slave ∨ m.provider = none
  · rw [if_pos hnone]
  · rw [if_neg hnone]
    cases hrefusal : m.senderRefusal sender with
    | some message => rfl
    | none =>
      rw [if_neg (by simpa [hrefusal] using hnone)] at h
      cases haction : cmd.action with
      | Start =>
        rw [haction] at h
        cases hadmitted : m.admitConfig sender cmd.config with
        | error message => simp [startStream, hadmitted]
        | ok next => simp [hadmitted, Except.toOption] at h
      | Update =>
        rw [haction] at h
        cases hadmitted : m.admitConfig sender cmd.config with
        | error message => simp [startStream, hadmitted]
        | ok next => simp [hadmitted, Except.toOption] at h
      | Pause =>
        have hoff : m.push_session.enabled = false := by simpa [haction] using h
        simp [setPaused, hoff]
      | Resume =>
        have hoff : m.push_session.enabled = false := by simpa [haction] using h
        simp [setPaused, hoff]
      | Stop => simp [haction] at h
      | Get => rfl

/-- A command that asks for a session is answered as the store follows. -/
theorem handlePushCommand_requested {sender : MacAddress} {cmd : TelemetryPushCommand}
    {next : TelemetryPushSession} (h : m.requestedSession sender cmd = some next) :
    ∃ reply, (m.handlePushCommand sender cmd).1 = some reply ∧
      reply.ok = (m.storeSession sender next cmd.action).1 ∧
      (m.handlePushCommand sender cmd).2 = if reply.ok then (m.storeSession sender next cmd.action).2
        else (m.storeSession sender next cmd.action).2.withSession (remainingSession next cmd.action) := by
  have hstart (done : String) (hadmitted : m.admitConfig sender cmd.config = .ok next) :
      ∃ reply, (m.startStream sender cmd.config done).1 = reply ∧
        reply.ok = (m.withSession next).persistTelemetryPushConfig.1 ∧
        (m.startStream sender cmd.config done).2 =
          if reply.ok then (m.withSession next).persistTelemetryPushConfig.2
          else (m.withSession next).persistTelemetryPushConfig.2.withSession {} := by
    unfold startStream
    rw [hadmitted]
    dsimp only
    rcases (m.withSession next).persistTelemetryPushConfig with ⟨saved, t⟩
    cases saved with
    | true => exact ⟨_, rfl, rfl, rfl⟩
    | false => exact ⟨_, rfl, rfl, rfl⟩
  have hpause (paused : Bool) (done : String) (hon : m.push_session.enabled = true)
      (hnext : next = { m.push_session with paused := paused }) :
      ∃ reply, (m.setPaused paused done).1 = reply ∧
        reply.ok = (m.withSession next).persistTelemetryPushConfig.1 ∧
        (m.setPaused paused done).2 = if reply.ok then (m.withSession next).persistTelemetryPushConfig.2
          else (m.withSession next).persistTelemetryPushConfig.2.withSession next := by
    have hsession := persist_session (m.withSession next)
    unfold setPaused
    rw [hon, ← hnext]
    rcases hsave : (m.withSession next).persistTelemetryPushConfig with ⟨saved, t⟩
    have hkept : t.withSession next = t := by
      rw [hsave] at hsession
      exact withSession_self hsession
    cases saved with
    | true => exact ⟨_, rfl, rfl, rfl⟩
    | false => exact ⟨_, rfl, rfl, hkept.symm⟩
  unfold requestedSession at h
  split at h
  · cases h
  · rename_i hready
    obtain ⟨hnone, hrefusal⟩ : ¬ (m.local_role ≠ .Slave ∨ m.provider = none) ∧
        m.senderRefusal sender = none := by
      simpa [not_or, and_assoc] using hready
    unfold handlePushCommand
    rw [if_neg hnone, hrefusal]
    cases haction : cmd.action with
    | Start =>
      obtain ⟨reply, hreply, hok, hafter⟩ := hstart "stream started"
        (by cases hadmitted : m.admitConfig sender cmd.config <;> simp_all [Except.toOption])
      exact ⟨reply, congrArg some hreply, hok, hafter⟩
    | Update =>
      obtain ⟨reply, hreply, hok, hafter⟩ := hstart "stream updated"
        (by cases hadmitted : m.admitConfig sender cmd.config <;> simp_all [Except.toOption])
      exact ⟨reply, congrArg some hreply, hok, hafter⟩
    | Pause =>
      obtain ⟨hon, hnext⟩ : m.push_session.enabled = true ∧ { m.push_session with paused := true } = next := by
        simpa [haction] using h
      obtain ⟨reply, hreply, hok, hafter⟩ := hpause true "stream paused" hon hnext.symm
      exact ⟨reply, congrArg some hreply, hok, hafter⟩
    | Resume =>
      obtain ⟨hon, hnext⟩ : m.push_session.enabled = true ∧
          { m.push_session with paused := false } = next := by
        simpa [haction] using h
      obtain ⟨reply, hreply, hok, hafter⟩ := hpause false "stream resumed" hon hnext.symm
      exact ⟨reply, congrArg some hreply, hok, hafter⟩
    | Stop =>
      obtain rfl : ({} : TelemetryPushSession) = next := by simpa [haction] using h
      obtain ⟨-, hsession, -⟩ := (m.withSession {}).clearTelemetryPushConfig_outcome sender rfl
      dsimp only [stopStream, storeSession, remainingSession]
      rcases hclear : (m.withSession {}).clearTelemetryPushConfig sender with ⟨erased, t⟩
      rw [hclear] at hsession
      cases erased with
      | true => exact ⟨_, rfl, rfl, rfl⟩
      | false => exact ⟨_, rfl, rfl, (withSession_self hsession).symm⟩
    | Get => simp [haction] at h

/-- The store follows where its write succeeds; where it does not, it keeps its blobs. -/
theorem storeSession_outcome (m : TelemetryManager) (sender : MacAddress) (next : TelemetryPushSession)
    (action : TelemetryPushAction) (hstop : action = .Stop → next = {}) :
    ((m.storeSession sender next action).1 = true ↔ m.StoreFollows sender next action) ∧
      ((m.storeSession sender next action).1 = false →
        (m.storeSession sender next action).2.storedBlobs = m.storedBlobs) := by
  have hpersist := (m.withSession next).persistTelemetryPushConfig_outcome
  cases action with
  | Stop =>
    obtain ⟨hok, -, hblobs⟩ :=
      (m.withSession next).clearTelemetryPushConfig_outcome sender (hstop rfl)
    exact ⟨hok, hblobs⟩
  | Start => exact ⟨hpersist.1, hpersist.2.2⟩
  | Update => exact ⟨hpersist.1, hpersist.2.2⟩
  | Pause => exact ⟨hpersist.1, hpersist.2.2⟩
  | Resume => exact ⟨hpersist.1, hpersist.2.2⟩
  | Get => exact ⟨hpersist.1, hpersist.2.2⟩

theorem requestedSession_stop {sender : MacAddress} {cmd : TelemetryPushCommand}
    {next : TelemetryPushSession} (h : m.requestedSession sender cmd = some next)
    (hstop : cmd.action = .Stop) : next = {} := by
  unfold requestedSession at h
  split at h
  · cases h
  · rw [hstop] at h
    exact (Option.some.inj h).symm

end Outcomes

end TelemetryManager

open TelemetryManager

/-- A push command is atomic just when the store follows the session it asks for, or the session that
remains is the one there was. -/
theorem push_command_atomic_iff (m : TelemetryManager) (sender : MacAddress) (cmd : TelemetryPushCommand) :
    m.PushAtomic sender cmd ↔ ∀ next, m.requestedSession sender cmd = some next →
      m.StoreFollows sender next cmd.action ∨ remainingSession next cmd.action = m.push_session := by
  unfold PushAtomic
  cases hrequest : m.requestedSession sender cmd with
  | none =>
    have hsame := handlePushCommand_unrequested hrequest
    constructor
    · intro _ next h
      cases h
    · intro _ message _
      rw [hsame]
      exact ⟨rfl, rfl⟩
  | some next =>
    obtain ⟨⟨ok, message⟩, hreply, hok, hafter⟩ := handlePushCommand_requested hrequest
    obtain ⟨hfollows, hblobs⟩ :=
      m.storeSession_outcome sender next cmd.action (requestedSession_stop hrequest)
    rw [hreply, hafter]
    dsimp only at hok ⊢
    rw [← hok] at hfollows hblobs
    cases ok with
    | true =>
      constructor
      · intro _ next' h
        obtain rfl := Option.some.inj h
        exact .inl (hfollows.mp rfl)
      · intro _ message' h
        cases h
    | false =>
      constructor
      · intro hatomic next' h
        obtain rfl := Option.some.inj h
        exact .inr (hatomic message rfl).1
      · intro hcond message' _
        have hremains := (hcond next rfl).resolve_left fun h => absurd (hfollows.mpr h) (by decide)
        exact ⟨hremains, hblobs rfl⟩

/-- A slave whose session is active, with a store whose backend takes no write. -/
def unwritableSlave : TelemetryManager :=
  { pushingSlave [periodicMetric "t" 1000] with
    store := some (PairingStore.fresh ⟨true, 1⟩ true ⟨fun _ => none, fun _ => false, 0⟩) }

/-- A pause that is refused has paused the session. -/
theorem refused_pause_not_atomic :
    ¬ ∀ (m : TelemetryManager) (sender : MacAddress) (payload : Bytes) (cmd : TelemetryPushCommand),
      parseTelemetryPushCommand payload = some cmd → m.PushAtomic sender cmd := by
  intro h
  have hatomic := h unwritableSlave (Vector.replicate 6 1)
    [1, 1, 1, 0, 1, 2, 2, 2, 0, 0x50, 0x54, 0x10, 1, 1, 0, 3] { action := .Pause } (by decide +kernel)
  obtain ⟨hsame, -⟩ := hatomic "persist_failed" (by decide +kernel)
  have hpaused : (unwritableSlave.handlePushCommand (Vector.replicate 6 1)
      { action := .Pause }).2.push_session.paused = true := by decide +kernel
  rw [hsame] at hpaused
  cases hpaused

end EspNowLink
